/-
TripleLogic.Path — paths of files.

A path is taken apart at slashes; empty parts and single dots do not count,
and two dots lead one directory up.
-/
import TripleLogic.Text.Lowercase

namespace TripleLogic.Path

/-! ## Parts -/

/-- Cut a text at every slash. -/
def cut : List Char → List (List Char)
  | [] => [[]]
  | c :: cs =>
      if c == '/' then [] :: cut cs
      else
        match cut cs with
        | l :: ls => (c :: l) :: ls
        | [] => [[c]]

/-- All parts of a path. -/
def components (path : String) : List String :=
  (cut path.toList).map String.ofList

/-- Whether a part of a path says nothing. -/
def isIdle (part : String) : Bool := part == "" || part == "."

/-- The parts of a path that count. -/
def parts (path : String) : List String :=
  (components path).filter (!isIdle ·)

/-- Whether a path begins at the root. -/
def isAbsolute (path : String) : Bool :=
  path.toList.head? == some '/'

/-- The slashes at the beginning of a path without the parts that do not
count: two are kept, more count as one. -/
def root (path : String) : String :=
  match (path.toList.takeWhile (· == '/')).length with
  | 0 => ""
  | 2 => "//"
  | _ => "/"

/-- A path without the parts that do not count. -/
def normal (path : String) : String :=
  let text := root path ++ "/".intercalate (parts path)
  if text == "" then "." else text

/-- Whether a path has a character that no path of a file has. -/
def hasNull (path : String) : Bool :=
  path.toList.any (·.toNat == 0)

/-- The most bytes of a part of a path. -/
def maxPart : Nat := 255

/-- The most bytes of a path. -/
def maxPath : Nat := 4095

/-! ## Extensions -/

/-- What follows the last full stop of a name that has something before it. -/
def afterStop (name : List Char) : String :=
  let tail := (name.reverse.takeWhile (· != '.')).reverse
  if tail.isEmpty || name.length ≤ tail.length + 1 then "" else "." ++ String.ofList tail

/-- The extension of a file's name, in lower case: from its last full stop
on, which neither begins nor ends the name. -/
def extension (path : String) : String :=
  Text.lower (afterStop ((parts path).getLast?.getD "").toList)

/-- The ending of a path, in lower case: like the extension, but full stops at
the beginning of the name do not count. -/
def ending (path : String) : String :=
  let name := ((components path).getLast?.getD "").toList
  let rest := name.dropWhile (· == '.')
  Text.lower (if rest.contains '.' then "." ++ String.ofList
    (rest.reverse.takeWhile (· != '.')).reverse else "")

/-! ## Dots -/

/-- Take away double dots with the parts before them. -/
def withoutDots : (done : List String) → List String → List String
  | done, [] => done
  | done, p :: ps =>
      if p == ".." then withoutDots done.dropLast ps else withoutDots (done ++ [p]) ps

/-- The parts of a path on the way to what it names, none of which leads up. -/
def resolved (path : String) : List String :=
  withoutDots [] (parts path)

end TripleLogic.Path
