/-
TripleLogic.Validity — the rules that well-formed statements, intents and edges
keep, and the problems of those that break them.

A list of problems is empty exactly when all rules are kept. Problems come in a
fixed order, each with the path of the node that has it.
-/
import TripleLogic.Fault
import TripleLogic.Node.Basic

namespace TripleLogic

/-! ## Names -/

/-- A letter of the Latin alphabet or an underscore. -/
def isWordStart (c : Char) : Bool :=
  (65 ≤ c.toNat && c.toNat ≤ 90) || (97 ≤ c.toNat && c.toNat ≤ 122) || c == '_'

/-- A character that may stand inside a word. -/
def isWordChar (c : Char) : Bool :=
  isWordStart c || (48 ≤ c.toNat && c.toNat ≤ 57)

/-- Whether a text is a word. -/
def isWord : List Char → Bool
  | [] => false
  | c :: cs => isWordStart c && cs.all isWordChar

/-- Drop one line feed at the end of a text; names may have one. -/
def dropFinalNewline (cs : List Char) : List Char :=
  if cs.getLast? == some '\n' then cs.dropLast else cs

/-- Whether a text is a word after an optional mark. -/
def isMarkedWord (mark : Char) (s : String) : Bool :=
  match dropFinalNewline s.toList with
  | [] => false
  | c :: cs => if c == mark then isWord cs else isWord (c :: cs)

/-- Whether a relation's name is well-formed: a word, after a question mark
if it is a variable. -/
def isRelationName (s : String) : Bool := isMarkedWord '?' s

/-- Whether an intent's marker is well-formed: a word, after an optional
exclamation mark. -/
def isIntentKind (s : String) : Bool := isMarkedWord '!' s

/-- Whether a variable's name is well-formed: a question mark and a word. -/
def isProperVariable (s : String) : Bool :=
  match dropFinalNewline s.toList with
  | '?' :: cs => isWord cs
  | _ => false

/-! ## Problems -/

/-- The problems of a name in a statement; `label` tells where it stands. -/
def nameProblems (label name : String) : List String :=
  if name == "" || name == "?" then ["Statement " ++ label ++ " has an empty name"]
  else if isVariableName name && !isProperVariable name then
    ["Statement " ++ label ++ " '" ++ name ++ "' looks like a variable but has "
      ++ "invalid format. Expected ?[A-Za-z_][A-Za-z0-9_]*"]
  else []

/-- The problems of an expression in a statement. Only concepts and
identifiers have names to check. -/
def Expr.problems (label : String) : Expr → List String
  | .concept name => nameProblems label name
  | .identifier name => nameProblems label name
  | _ => []

/-- The problems of a relation's name. -/
def Relation.problems (r : Relation) : List String :=
  if r.name == "" then ["Relation name is empty"]
  else if isRelationName r.name then []
  else ["Relation name '" ++ r.name ++ "' invalid: must be [A-Za-z_][A-Za-z0-9_]*"]

/-- The problems of a statement. -/
def Statement.problems (s : Statement) : List String :=
  s.relation.problems ++ s.subject.problems "subject" ++ s.object.problems "object"
    ++ s.attributes.flatMap (fun a => a.2.problems ("attribute '" ++ a.1 ++ "'"))
    ++ s.attributes.flatMap
        (fun a => if a.1 == "" then ["Statement has an empty attribute key"] else [])

/-- The problems of a value that should be missing or a number between zero
and one. -/
def unitProblems (label : String) : Data → List String
  | .null => []
  | .num n => if n.inUnit then [] else [label ++ " " ++ n.text ++ " outside [0, 1]"]
  | d => [label ++ " must be a number, got " ++ d.kindName]

/-- The problems of an intent. -/
def Intent.problems (path : String) (i : Intent) : List String :=
  (if i.kind == "" then [path ++ ": intent kind is empty"]
    else if isIntentKind i.kind then []
    else [path ++ ": intent kind '" ++ i.kind ++ "' invalid"])
  ++ (if i.statements.isEmpty then [path ++ ": intent has no statements"] else [])
  ++ i.statements.zipIdx.flatMap (fun p =>
      p.1.problems.map fun e => path ++ ".statements[" ++ toString p.2 ++ "]: " ++ e)
  ++ unitProblems (path ++ ": confidence") i.confidence
  ++ unitProblems (path ++ ": coherence") i.coherence

/-- The problem of an edge's name that is empty. -/
def emptyProblem (path field value : String) : List String :=
  if value == "" then [path ++ ": relationship " ++ field ++ " is empty"] else []

/-- The problems of an edge. -/
def Edge.problems (path : String) (e : Edge) : List String :=
  emptyProblem path "source" e.source ++ emptyProblem path "target" e.target
    ++ emptyProblem path "relation_name" e.name
    ++ unitProblems (path ++ ": confidence") e.confidence

/-- The problems of a compound's number of operands. -/
def arityProblems (path : String) (op : Connective) (left right : Bool) : List String :=
  match op with
  | .not =>
      (if left then [] else [path ++ ": 'not' requires an operand"])
        ++ (if right then [path ++ ": 'not' takes a single operand (in left)"] else [])
  | op =>
      if left && right then [] else [path ++ ": '" ++ op.word ++ "' requires two operands"]

end TripleLogic
