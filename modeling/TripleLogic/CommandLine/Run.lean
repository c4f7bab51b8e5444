/-
TripleLogic.CommandLine.Run — a run of the command line over a folder: the
text that it prints and its exit status.

A run loads its inputs, chains forward, checks consistency, proves the goal
if there is one, and looks for conflicts with the ontology. The status is
zero when nothing contradicts or conflicts, one when something does, and two
when the inputs cannot be used. A value of a wrong kind inside the inputs is
a fault of the run itself, and the status is one as well.

A run is followed as far as its inputs have a form here; the others have no
status (`Outside`). How files of triples are read is up to the reader that a
run is given.
-/
import TripleLogic.CommandLine.Arguments
import TripleLogic.Engine
import TripleLogic.Loading
import TripleLogic.Ontology.Conflict

namespace TripleLogic.CommandLine

/-- The outcome of a run. -/
structure Outcome where
  status : Nat
  output : String := ""
  errors : String := ""
  deriving DecidableEq, Repr

/-- The name of the program in messages. -/
def programName : String := "reason.py"

/-- The help text. -/
def helpText : String :=
  "\n".intercalate
    ["usage: reason.py [-h] [--goal GOAL] [--ontology ONTOLOGY] [--config CONFIG]",
     "                 [--max-iterations MAX_ITERATIONS] [--type-check] [-v]",
     "                 knowledge_base",
     "",
     "AIQL Reasoning CLI",
     "",
     "positional arguments:",
     "  knowledge_base        Path to knowledge-base JSON (list of nodes)",
     "",
     "options:",
     "  -h, --help            show this help message and exit",
     "  --goal GOAL           Goal node to prove: JSON file or inline JSON",
     "  --ontology ONTOLOGY   Ontology file (.json, .ttl, .owl, ...)",
     "  --config CONFIG       Path to config JSON (\x7b\"inference\": \x7b...\x7d, \"ontology\":",
     "                        \x7b...\x7d\x7d)",
     "  --max-iterations MAX_ITERATIONS",
     "                        Forward-chaining pass bound",
     "  --type-check          Also report domain/range violations",
     "  -v, --verbose",
     ""]

/-! ## Inputs -/

/-- Why the inputs of a run cannot be used. -/
inductive Failure where
  | fault (f : Fault)
  | unreadable (u : Unreadable)
  | badJson (flaw : Json.Flaw)
  deriving Repr

/-- The inputs of a run. -/
structure Inputs where
  settings : Settings
  nodes : List Node
  ontology : Option Document
  goal : Option Node

/-- An option's value that is not empty. -/
def present : Option String → Option String
  | some s => if s == "" then none else some s
  | none => none

/-- Why a text is refused. -/
def Failure.ofRefusal : Json.Refusal → Failure
  | .flaw f => .badJson f
  | .digits n => .fault (.misuse (.tooManyDigits n))
  | .surrogate => .fault (.outside .surrogate)

/-- Read settings from a file. -/
def loadSettings (folder : Folder) (path : String) : Except Failure Settings := do
  let text ← (folder.readRaw path).mapError .unreadable
  let d ← (Json.parse text).mapError .ofRefusal
  (Settings.ofData d).mapError .fault

/-- Read a goal: the contents of a file, or else the text itself. -/
def loadGoal (folder : Folder) (value : String) : Except Failure Node := do
  let text ← (do
    if ← folder.isFile value then folder.read value else pure value).mapError .unreadable
  let d ← (Json.parse text).mapError .ofRefusal
  (Node.ofData d).mapError .fault

/-- Load the inputs of a run, in the order settings, knowledge base,
ontology and goal. -/
def loadInputs (reader : TripleReader) (folder : Folder) (a : Arguments) :
    Except Failure Inputs := do
  let settings ← match present a.config with
    | some path => loadSettings folder path
    | none => pure {}
  let nodes ← (folder.loadNodes a.knowledgeBase).mapError .fault
  let ontology ← match present a.ontology with
    | some path => some <$> (folder.loadDocument reader path).mapError .fault
    | none => pure none
  let goal ← match present a.goal with
    | some value => some <$> loadGoal folder value
    | none => pure none
  return { settings, nodes, ontology, goal }

/-- The outcome of a run whose inputs cannot be used. A misused value of a
wrong kind is a fault of the run. -/
def Failure.outcome : Failure → Except Fault Outcome
  | .fault (.misuse m) =>
      if m.category == .value then .ok { status := 2, errors := "error: " ++ m.message ++ "\n" }
      else .error (.misuse m)
  | .fault (.outside c) => .error (.outside c)
  | .fault f => .ok { status := 2, errors := "error: " ++ f.message ++ "\n" }
  | .unreadable u => .ok { status := 2, errors := "error: " ++ u.message ++ "\n" }
  | .badJson flaw => .ok { status := 2, errors := "error: " ++ flaw.message ++ "\n" }

/-! ## Report -/

/-- The lines on forward chaining. -/
def saturationLines (s : Saturation) : List String :=
  let state := if s.fixpoint then "fixed point" else "iteration bound hit"
  ("Forward chaining: " ++ toString s.derived.length ++ " derived in " ++ toString s.passes
    ++ " pass(es) (" ++ state ++ ")")
    :: s.derived.map fun n => "  + " ++ n.text

/-- The lines on consistency. -/
def consistencyLines (found : List (Node × Node × Contradiction)) : List String :=
  match found with
  | [] => ["Consistency: OK"]
  | found =>
      ("Consistency: " ++ toString found.length ++ " contradiction(s)")
        :: found.map fun c =>
          "  ✗ " ++ c.1.text ++ "  ⟂  " ++ c.2.1.text ++ "  (" ++ c.2.2.reason ++ ")"

/-- The lines on a goal, and the engine after the attempt to prove it. -/
def goalLines (g : Engine) : Option Node → Except Fault (Engine × List String)
  | none => .ok (g, [])
  | some goal => do
      let (g', verdict) := g.prove (.node goal)
      return (g', ["Goal: " ++ goal.text, (← verdict).explain])

/-- The line of a clash. -/
def clashLine (c : Clash) : String :=
  "  [" ++ c.severity.word ++ "] " ++ c.kind.word ++ ": " ++ c.reason

/-- The clashes of the statements of a run with its ontology. -/
def clashesOf (settings : Settings) (document : Option Document) (typeCheck : Bool)
    (statements : List Statement) : Except Fault (List Clash) := do
  let doc := document.getD {}
  doc.assertKeys
  doc.assertTexts
  let o := ((doc.apply (Ontology.ofSettings settings.ontology)).learn
    (doc.axioms ++ statements.map Axiom.ofStatement)).1
  return (o.clashes statements).map Prod.fst
    ++ (if typeCheck then o.violations statements else [])

/-- The exit status: zero when nothing contradicts or clashes. -/
def statusOf (contradictions : List (Node × Node × Contradiction)) (clashes : List Clash) : Nat :=
  if contradictions.isEmpty && clashes.isEmpty then 0 else 1

/-- The most passes of a run. -/
def passesOf (settings : InferenceSettings) (a : Arguments) : Nat :=
  match a.maxIterations with
  | none => settings.maxForwardPasses
  | some n => n.toNat

/-- A run over loaded inputs. -/
def report (i : Inputs) (a : Arguments) : Except Fault Outcome := do
  let g := Engine.ofEntries (i.nodes.map .node) i.settings.inference
  let (g', chained) := g.forward (passesOf i.settings.inference a)
  let s ← chained
  let found := g'.contradictions
  let (g'', goalPart) ← goalLines g' i.goal
  let clashes ← clashesOf i.settings i.ontology a.typeCheck g''.kb.statements
  let lines :=
    ("Knowledge base: " ++ toString g.kb.size ++ " nodes") :: saturationLines s
      ++ consistencyLines found ++ goalPart
      ++ ("Semantic conflicts: " ++ toString clashes.length) :: clashes.map clashLine
  return { status := statusOf found clashes, output := String.join (lines.map (· ++ "\n")) }

/-- The paths that a run with the given arguments may read. -/
def pathsOf (args : List String) : List String :=
  match parse args with
  | .ok a =>
      a.knowledgeBase :: [a.config, a.ontology, a.goal].filterMap present
  | .error _ => []

/-- A run with arguments over a folder. -/
def run (reader : TripleReader) (folder : Folder) (args : List String) : Except Fault Outcome :=
  match parse args with
  | .error .help => .ok { status := 0, output := helpText }
  | .error (.misfit m) =>
      .ok { status := 2, errors := programName ++ ": error: " ++ m.message ++ "\n" }
  | .ok a =>
      match loadInputs reader folder a with
      | .error f => f.outcome
      | .ok i => report i a

/-- The exit status of a run, if it is followed to its end. A run that breaks
off at a fault of its own exits with one. -/
def exitStatus : Except Fault Outcome → Option Nat
  | .ok o => some o.status
  | .error (.outside _) => none
  | .error _ => some 1

end TripleLogic.CommandLine
