/-
TripleLogic.Main — the command line: reads the files that a run may need,
runs, prints, and exits with the status of the run. Ontologies in triples have
to be plain (`PlainTriples`).
-/
import TripleLogic.CommandLine.Run
import TripleLogic.Ontology.PlainTriples

namespace TripleLogic

/-- Add what is found at a path to a folder. -/
def Folder.addPath (folder : Folder) (path : String) : IO Folder := do
  try
    let text ← IO.FS.readFile path
    return { folder with files := folder.files ++ [(path, text)] }
  catch
    | .inappropriateType .. =>
        return { folder with directories := folder.directories ++ [path] }
    | _ => return folder

end TripleLogic

open TripleLogic in
/-- Run the command line. -/
def main (args : List String) : IO UInt32 := do
  let folder ← (CommandLine.pathsOf args).foldlM Folder.addPath {}
  match CommandLine.run PlainTriples.reader folder args with
  | .ok outcome =>
      IO.print outcome.output
      IO.eprint outcome.errors
      return outcome.status.toUInt32
  | .error fault =>
      IO.eprintln fault.message
      return 1
