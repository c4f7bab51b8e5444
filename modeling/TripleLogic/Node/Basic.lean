/-
TripleLogic.Node.Basic — logical nodes: what a knowledge base holds.

An intent asserts, asks or orders something by statements. Compounds,
quantified nodes and rules are built from nodes; an edge links two entities
by their names. Confidence, coherence and metadata are kept as given and
take no part in equality.

A compound may lack an operand; such nodes can be held and shown, and the
rules of inference pass them over. Anything at all can be handed in where a node
is wanted; what is handed in is a `Draft`, and nodes are compared as drafts.

Main statement: `same` is equality of canonical forms.
-/
import TripleLogic.Statement.Basic

namespace TripleLogic

/-- The propositional connectives. -/
inductive Connective where
  | and
  | or
  | not
  | implies
  | iff
  deriving DecidableEq, Repr, Inhabited

/-- The quantifiers. -/
inductive Quantifier where
  | universal
  | existential
  deriving DecidableEq, Repr, Inhabited

/-- The kinds of edges between entities. -/
inductive EdgeKind where
  | temporal
  | causal
  | logical
  deriving DecidableEq, Repr, Inhabited

/-- Metadata: values under keys, which are values without parts. -/
abbrev Metadata := List (Data × Data)

namespace Metadata

/-- Set a value; a key that is present keeps its place and its spelling. -/
def set (entries : Metadata) (key value : Data) : Metadata :=
  if entries.any (fun e => e.1.scalarSame key) then
    entries.map fun e => if e.1.scalarSame key then (e.1, value) else e
  else entries ++ [(key, value)]

/-- Metadata from the fields of an object. -/
def ofFields (fields : Fields) : Metadata :=
  fields.map fun f => (.str f.1, f.2)

/-- The fields of metadata whose keys are all texts. -/
def fields? (entries : Metadata) : Option Fields :=
  entries.mapM fun e =>
    match e.1 with
    | .str k => some (k, e.2)
    | _ => none

/-- Metadata as plain data: an object, or a map if some key is no text. -/
def toData (entries : Metadata) : Data :=
  match fields? entries with
  | some fields => .obj fields
  | none => .map entries

end Metadata

/-- An assertion, question or task, by its marker and its statements. -/
structure Intent where
  kind : String
  statements : List Statement
  confidence : Data := .null
  coherence : Data := .null
  metadata : Metadata := []
  deriving Repr, Inhabited

/-- A typed edge between two entities that are referred to by name. -/
structure Edge where
  kind : EdgeKind
  source : String
  target : String
  name : String
  confidence : Data := .null
  bidirectional : Bool := false
  metadata : Metadata := []
  deriving Repr, Inhabited

/-- A logical node. The operand of a negation is its left one. -/
inductive Node where
  | intent (intent : Intent)
  | compound (op : Connective) (left right : Option Node)
  | quantified (quantifier : Quantifier) (var : String) (body : Node) (domain : Option String)
  | rule (id : String) (premises conclusion : Node) (domain : Option String)
      (bidirectional : Bool) (confidence : Data)
  | edge (edge : Edge)
  deriving Repr, Inhabited

namespace Connective

/-- The word for a connective. -/
def word : Connective → String
  | .and => "and"
  | .or => "or"
  | .not => "not"
  | .implies => "implies"
  | .iff => "iff"

/-- The connective that a word stands for; `then` is another word for `implies`. -/
def ofWord? : String → Option Connective
  | "and" => some .and
  | "or" => some .or
  | "not" => some .not
  | "implies" => some .implies
  | "then" => some .implies
  | "iff" => some .iff
  | _ => none

theorem ofWord?_word (c : Connective) : ofWord? c.word = some c := by
  cases c <;> rfl

end Connective

namespace Quantifier

/-- The word for a quantifier. -/
def word : Quantifier → String
  | .universal => "forall"
  | .existential => "exists"

/-- The quantifier that a word stands for. -/
def ofWord? : String → Option Quantifier
  | "forall" => some .universal
  | "exists" => some .existential
  | _ => none

theorem ofWord?_word (q : Quantifier) : ofWord? q.word = some q := by
  cases q <;> rfl

end Quantifier

namespace EdgeKind

/-- The word for a kind of edge. -/
def word : EdgeKind → String
  | .temporal => "temporal"
  | .causal => "causal"
  | .logical => "logical"

/-- The kind of edge that a word stands for. -/
def ofWord? : String → Option EdgeKind
  | "temporal" => some .temporal
  | "causal" => some .causal
  | "logical" => some .logical
  | _ => none

theorem ofWord?_word (k : EdgeKind) : ofWord? k.word = some k := by
  cases k <;> rfl

end EdgeKind

/-- Equality of intents: marker and statements. -/
def Intent.same (a b : Intent) : Bool :=
  a.kind == b.kind && Statement.sameAll a.statements b.statements

/-- Equality of edges; confidence and metadata do not count. -/
def Edge.same (a b : Edge) : Bool :=
  a.kind == b.kind && a.source == b.source && a.target == b.target && a.name == b.name
    && a.bidirectional == b.bidirectional

/-! ## Drafts -/

/-- A node as it is handed in: where a node is wanted, any value can stand,
and null where an operand is missing. -/
inductive Draft where
  | intent (intent : Intent)
  | compound (op : Connective) (left right : Draft)
  | quantified (quantifier : Quantifier) (var : String) (body : Draft) (domain : Option String)
  | rule (id : String) (premises conclusion : Draft) (domain : Option String)
      (bidirectional : Bool) (confidence : Data)
  | edge (edge : Edge)
  /-- A value that is no node. -/
  | foreign (value : Data)
  deriving Repr, Inhabited

namespace Draft

/-- What stands in the place of an operand that there is not. -/
def missing : Draft := .foreign .null

mutual

/-- The draft of a node. -/
def ofNode : Node → Draft
  | .intent i => .intent i
  | .compound o a b => .compound o (ofOperand a) (ofOperand b)
  | .quantified q v a d => .quantified q v (ofNode a) d
  | .rule i a b d x c => .rule i (ofNode a) (ofNode b) d x c
  | .edge e => .edge e

/-- The draft of an operand that may be missing. -/
def ofOperand : Option Node → Draft
  | none => missing
  | some a => ofNode a

end

/-- Equality of drafts: confidence, coherence and metadata do not count, and
values that are no nodes are equal by value. -/
def same : Draft → Draft → Bool
  | .intent a, .intent b => a.same b
  | .compound o a c, .compound p b d => o == p && same a b && same c d
  | .quantified q v a d, .quantified r w b e => q == r && v == w && d == e && same a b
  | .rule i a c d x _, .rule j b k e y _ => i == j && d == e && x == y && same a b && same c k
  | .edge a, .edge b => a.same b
  | .foreign a, .foreign b => a.same b
  | _, _ => false

end Draft

/-! ## Nodes -/

/-- The text of an intent. -/
def Intent.text (i : Intent) : String :=
  i.kind ++ " \x7b " ++ " ".intercalate (i.statements.map Statement.text) ++ " \x7d"

/-- The text of an edge. -/
def Edge.text (e : Edge) : String :=
  "$" ++ e.source ++ " -[" ++ e.name ++ "]" ++ (if e.bidirectional then "<->" else "->")
    ++ " $" ++ e.target

namespace Node

/-- The negation of a node. -/
def negate (n : Node) : Node := .compound .not (some n) none

/-- The implication from one node to another. -/
def implies (a b : Node) : Node := .compound .implies (some a) (some b)

/-- The conjunction of two nodes. -/
def conjoin (a b : Node) : Node := .compound .and (some a) (some b)

/-- The disjunction of two nodes. -/
def disjoin (a b : Node) : Node := .compound .or (some a) (some b)

/-- Whether a node is a negation. -/
def isNegation : Node → Bool
  | .compound .not _ _ => true
  | _ => false

/-- Whether a node is an implication. -/
def isImplication : Node → Bool
  | .compound .implies _ _ => true
  | _ => false

/-- Equality of nodes is that of their drafts. -/
def same (a b : Node) : Bool :=
  (Draft.ofNode a).same (Draft.ofNode b)

/-- Equality of operands that may be missing. -/
def sameOperand (a b : Option Node) : Bool :=
  (Draft.ofOperand a).same (Draft.ofOperand b)

mutual

/-- The canonical form of a node: what takes no part in equality is dropped,
and whole numbers are integers. -/
def canon : Node → Node
  | .intent i => .intent { kind := i.kind, statements := i.statements.map Statement.canon }
  | .compound o a b => .compound o (canonOperand a) (canonOperand b)
  | .quantified q v a d => .quantified q v (canon a) d
  | .rule i a b d x _ => .rule i (canon a) (canon b) d x .null
  | .edge e => .edge { e with confidence := .null, metadata := [] }

/-- The canonical form of an operand that may be missing. -/
def canonOperand : Option Node → Option Node
  | none => none
  | some a => some (canon a)

end

/-- The domain of a quantified node in its text. -/
def domainText : Option String → String
  | none => ""
  | some d => if d == "" then "" else " in " ++ d

mutual

/-- The text of a node. -/
def text : Node → String
  | .intent i => i.text
  | .compound .not a _ => "not " ++ textOperand a
  | .compound o a b => "(" ++ textOperand a ++ " " ++ o.word ++ " " ++ textOperand b ++ ")"
  | .quantified q v a d => q.word ++ " " ++ v ++ domainText d ++ ": " ++ text a
  | .rule i a b _ x _ =>
      "!Rule(" ++ i ++ ") \x7b " ++ text a ++ (if x then " <=> " else " => ") ++ text b
        ++ " \x7d"
  | .edge e => e.text

/-- The text of an operand that may be missing. -/
def textOperand : Option Node → String
  | none => "None"
  | some a => text a

end

/-- Flatten nested conjunctions into their leaves, left to right. A
conjunction that lacks an operand is a leaf. -/
def conjuncts : Node → List Node
  | .compound .and (some a) (some b) => conjuncts a ++ conjuncts b
  | n => [n]

section

variable {o p : Connective} {q r : Quantifier} {i j v w : String} {a b c k : Node}
  {l m l' m' : Option Node} {d e : Option String} {x y : Bool} {f g : Data}

theorem same_intent {i j : Intent} : (intent i).same (.intent j) = i.same j := rfl

theorem same_edge {e f : Edge} : (edge e).same (.edge f) = e.same f := rfl

theorem same_compound : (compound o l m).same (.compound p l' m')
    = (o == p && sameOperand l l' && sameOperand m m') := rfl

theorem same_quantified : (quantified q v a d).same (.quantified r w b e)
    = (q == r && v == w && d == e && a.same b) := rfl

theorem same_rule : (rule i a c d x f).same (.rule j b k e y g)
    = (i == j && d == e && x == y && a.same b && c.same k) := rfl

theorem sameOperand_none : sameOperand none none = true :=
  (Data.same_iff .null .null).2 rfl

theorem sameOperand_some : sameOperand (some a) (some b) = a.same b := rfl

theorem sameOperand_none_some : sameOperand none (some b) = false := by
  cases b <;> rfl

theorem sameOperand_some_none : sameOperand (some a) none = false := by
  cases a <;> rfl

end

theorem edge_same_iff (a b : Edge) :
    a.same b = true ↔ (Node.edge a).canon = (Node.edge b).canon := by
  simp [Edge.same, canon, and_assoc]

mutual

theorem same_iff : ∀ a b : Node, a.same b = true ↔ a.canon = b.canon
  | .intent i, b => by
      cases b with
      | intent j =>
          simp [same_intent, canon, Intent.same, Statement.sameAll_iff]
      | _ => simp [same, Draft.ofNode, Draft.same, canon]
  | .compound o a c, b => by
      cases b with
      | compound p b d =>
          simp [same_compound, canon, sameOperand_iff a b, sameOperand_iff c d, and_assoc]
      | _ => simp [same, Draft.ofNode, Draft.same, canon]
  | .quantified q v a d, b => by
      cases b with
      | quantified r w b e => simp [same_quantified, canon, same_iff a b]; grind
      | _ => simp [same, Draft.ofNode, Draft.same, canon]
  | .rule i a c d x _, b => by
      cases b with
      | rule j b k e y _ => simp [same_rule, canon, same_iff a b, same_iff c k]; grind
      | _ => simp [same, Draft.ofNode, Draft.same, canon]
  | .edge a, b => by
      cases b with
      | edge b => exact edge_same_iff a b
      | _ => simp [same, Draft.ofNode, Draft.same, canon]

theorem sameOperand_iff : ∀ a b : Option Node,
    sameOperand a b = true ↔ canonOperand a = canonOperand b
  | none, none => iff_of_true sameOperand_none rfl
  | none, some b => by simp [sameOperand_none_some, canonOperand]
  | some a, none => by simp [sameOperand_some_none, canonOperand]
  | some a, some b => by simp [sameOperand_some, canonOperand, same_iff a b]

end

theorem same_symm {a b : Node} (h : a.same b = true) : b.same a = true :=
  (same_iff b a).2 ((same_iff a b).1 h).symm

end Node

end TripleLogic
