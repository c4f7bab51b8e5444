/-
TripleLogic.KnowledgeBase — an ordered store that only grows and holds no
entry twice.

Besides nodes it takes foreign values, which no rule of inference looks at.
A foreign value without parts is known by its value, a list or an object by
its label. A node that is no key cannot be looked up: it is known by its label
where it has one, and otherwise counts as new whenever it is added. Main
statement: adding keeps what is there, in its order.
-/
import TripleLogic.Draft
import TripleLogic.Node.Key
import TripleLogic.Node.Record

namespace TripleLogic

/-- A value that is no node. Its label tells it from others of equal value. -/
structure Foreign where
  label : String
  value : Data
  deriving Repr, Inhabited

/-- What a knowledge base holds. -/
inductive Entry where
  | node (n : Node)
  /-- A node that is no key, with the label by which it is known when it is
  offered again. -/
  | labelled (label : String) (n : Node) (noKey : n.isKey = false)
  | foreign (v : Foreign)
  deriving Repr, Inhabited

namespace Entry

/-- Equality of entries. -/
def same : Entry → Entry → Bool
  | .node a, .node b => a.same b
  | .labelled k _ _, .labelled l _ _ => k == l
  | .foreign a, .foreign b =>
      if a.value.isContainer && b.value.isContainer then a.label == b.label
      else a.value.scalarSame b.value
  | _, _ => false

/-- The node of an entry. -/
def node? : Entry → Option Node
  | .node n => some n
  | .labelled _ n _ => some n
  | .foreign _ => none

/-- The text of an entry. -/
def text : Entry → String
  | .node n => n.text
  | .labelled _ n _ => n.text
  | .foreign v => v.value.plain

/-- An entry as it is handed in. -/
def draft : Entry → Draft
  | .node n => .ofNode n
  | .labelled _ n _ => .ofNode n
  | .foreign v => .foreign v.value

/-- The problems of an entry; a foreign value is one. -/
def problems (path : String) (e : Entry) : List String :=
  e.draft.problems path

/-- Refuse an entry that has problems. -/
def assertValid (e : Entry) : Except Fault Unit :=
  match e.problems "node" with
  | [] => .ok ()
  | ps => .error (.invalid ("Invalid node: " ++ e.text) ps)

/-- An entry as plain data; a foreign value has no record. -/
def toData : Entry → Except Fault Data
  | .node n => .ok n.toData
  | .labelled _ n _ => .ok n.toData
  | .foreign v => .error (.malformed (.notNode v.value))

/-- Refuse an entry that cannot be used as a key. -/
def assertKey : Entry → Except Fault Unit
  | .foreign v => if v.value.isContainer then .error (.misuse (.notKey v.value)) else .ok ()
  | .labelled _ n _ => n.assertKey
  | .node n => n.assertKey

/-- Whether an entry can be found again: a node that is no key needs a label. -/
def isFindable : Entry → Bool
  | .node n => n.isKey
  | .labelled .. => true
  | .foreign _ => true

end Entry

/-- A knowledge base: entries in the order in which they were added. -/
structure KnowledgeBase where
  entries : List Entry := []
  deriving Repr, Inhabited

namespace KnowledgeBase

/-- Whether an equal entry is there. -/
def holds (kb : KnowledgeBase) (e : Entry) : Bool :=
  kb.entries.any fun x => x.same e

/-- Whether an entry is found. -/
def contains (kb : KnowledgeBase) (e : Entry) : Bool :=
  e.isFindable && kb.holds e

/-- Append an entry. -/
def append (kb : KnowledgeBase) (e : Entry) : KnowledgeBase :=
  ⟨kb.entries ++ [e]⟩

/-- Add an entry unless an equal one is there, and tell whether it was added. -/
def insert (kb : KnowledgeBase) (e : Entry) : KnowledgeBase × Bool :=
  if kb.holds e then (kb, false) else (kb.append e, true)

/-- Add an entry unless it is found, and tell whether it was added. -/
def add (kb : KnowledgeBase) (e : Entry) : KnowledgeBase × Bool :=
  if kb.contains e then (kb, false) else (kb.append e, true)

/-- Add entries in order. The answer holds those that were new. -/
def extend (kb : KnowledgeBase) : List Entry → KnowledgeBase × List Entry
  | [] => (kb, [])
  | e :: es =>
      let (kb', added) := kb.add e
      let (kb'', new) := extend kb' es
      (kb'', if added then e :: new else new)

/-- The knowledge base of a list of entries. -/
def ofEntries (es : List Entry) : KnowledgeBase :=
  (extend {} es).1

/-- The number of entries. -/
def size (kb : KnowledgeBase) : Nat := kb.entries.length

/-- The nodes, in order. -/
def nodes (kb : KnowledgeBase) : List Node :=
  kb.entries.filterMap Entry.node?

/-- The foreign values, in order. -/
def foreign (kb : KnowledgeBase) : List Foreign :=
  kb.entries.filterMap fun
    | .foreign v => some v
    | _ => none

/-- The statements of all intents, in order. -/
def statements (kb : KnowledgeBase) : List Statement :=
  kb.nodes.flatMap fun
    | .intent i => i.statements
    | _ => []

/-- The rules, in order. -/
def rules (kb : KnowledgeBase) : List Node :=
  kb.nodes.filter fun
    | .rule .. => true
    | _ => false

/-- A one-line description. -/
def describe (kb : KnowledgeBase) : String :=
  "KnowledgeBase(nodes=" ++ toString kb.size ++ ")"

theorem add_entries (kb : KnowledgeBase) (e : Entry) :
    (kb.add e).1.entries = kb.entries ∨ (kb.add e).1.entries = kb.entries ++ [e] := by
  by_cases h : kb.contains e = true <;> simp [add, append, h]

theorem add_eq_insert (kb : KnowledgeBase) {e : Entry} (h : e.isFindable = true) :
    kb.add e = kb.insert e := by
  simp [add, insert, contains, h]

end KnowledgeBase

end TripleLogic
