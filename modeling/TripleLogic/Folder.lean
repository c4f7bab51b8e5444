/-
TripleLogic.Folder — a directory of text files, and how its files are read.

A folder is given by its files. Every part of a path but the last leads
through a directory. Reading text makes every line end with a line feed.
-/
import TripleLogic.Fault
import TripleLogic.Path

namespace TripleLogic

/-- A directory: its files by their paths, with their texts, and those of its
directories that hold no such file. -/
structure Folder where
  files : List (String × String) := []
  directories : List String := []
  deriving Repr, Inhabited

namespace Folder

/-- What is found at a path. -/
inductive Found where
  | file (text : String)
  | directory

/-- Whether a path leads to a directory. -/
def hasDirectory (f : Folder) (root : Bool) (path : List String) : Bool :=
  f.files.any (fun e => Path.isAbsolute e.1 == root && path.isPrefixOf (Path.parts e.1))
    || f.directories.any fun d => Path.isAbsolute d == root && path.isPrefixOf (Path.parts d)

/-- The text of the file at a path. -/
def file? (f : Folder) (root : Bool) (path : List String) : Option String :=
  (f.files.find? fun e => Path.isAbsolute e.1 == root && Path.parts e.1 == path).map Prod.snd

/-- The text of a file that is listed under a path as it stands. -/
def listed? (f : Folder) (path : String) : Option String :=
  (f.files.find? fun e => e.1 == path || Path.normal e.1 == path).map Prod.snd

/-- Follow the parts of a path. `above` counts the directories above the
folder that the path has reached, and `here` is the path within the folder. -/
def follow (f : Folder) (shown : String) (root : Bool) (above : Nat) (here : List String) :
    List String → Except Unreadable Found
  | [] => .ok .directory
  | p :: ps =>
      if Path.isIdle p then follow f shown root above here ps
      else if Path.maxPart < p.utf8ByteSize then .error (.nameTooLong shown)
      else if p == ".." then
        if here.isEmpty then follow f shown root (if root then 0 else above + 1) [] ps
        else follow f shown root above here.dropLast ps
      else if 0 < above then .error (.missing shown)
      else
        let path := here ++ [p]
        match f.file? root path with
        | some text => if ps.isEmpty then .ok (.file text) else .error (.notDirectory shown)
        | none =>
            if f.hasDirectory root path then follow f shown root above path ps
            else .error (.missing shown)

/-- What is at a path; messages show it as `shown`. A file that is listed
under the path as it stands is found without following the path. -/
def find (f : Folder) (shown path : String) : Except Unreadable Found :=
  if Path.hasNull path then .error .nullByte
  else if Path.maxPath < path.utf8ByteSize then .error (.nameTooLong shown)
  else if path == "" then .error (.missing shown)
  else
    match f.listed? path with
    | some text => .ok (.file text)
    | none => f.follow shown (Path.isAbsolute path) 0 [] (Path.components path)

/-- Make every line of a text end with a line feed. -/
def plainLines : List Char → List Char
  | [] => []
  | '\r' :: '\n' :: cs => '\n' :: plainLines cs
  | c :: cs => (if c == '\r' then '\n' else c) :: plainLines cs

/-- Read the file at a path, every part of which counts. -/
def readRaw (f : Folder) (path : String) : Except Unreadable String := do
  match ← f.find path path with
  | .file text => return String.ofList (plainLines text.toList)
  | .directory => throw (.directory path)

/-- Read the file at a path. -/
def read (f : Folder) (path : String) : Except Unreadable String :=
  f.readRaw (Path.normal path)

/-- Whether there is a file at a path; a part of it that is too long is an
error. -/
def isFile (f : Folder) (path : String) : Except Unreadable Bool :=
  match f.find (Path.normal path) (Path.normal path) with
  | .ok (.file _) => .ok true
  | .ok .directory => .ok false
  | .error (.nameTooLong p) => .error (.nameTooLong p)
  | .error _ => .ok false

end Folder

end TripleLogic
