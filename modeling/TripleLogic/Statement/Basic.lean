/-
TripleLogic.Statement.Basic — statements: subject, relation, object and
attributes.

The tense of a relation is a tag for display and takes no part in equality.
Attributes are kept sorted by key, so that their order never matters. If a key
comes more than once, then all its values take part in equality, and the last one
is its value.

Main statement: `same` is equality of canonical forms.
-/
import TripleLogic.Data.Basic
import TripleLogic.Expr.Basic

namespace TripleLogic

/-- A relation: a name, and a tense tag that is kept as given. -/
structure Relation where
  name : String
  tense : Data := .null
  deriving Repr, Inhabited

/-- Attributes, sorted by key. -/
abbrev Attributes := List (String × Expr)

/-- A statement: a triple with attributes. -/
structure Statement where
  subject : Expr
  relation : Relation
  object : Expr
  attributes : Attributes := []
  deriving Repr, Inhabited

namespace Attributes

/-- Sort attributes by key, in the order of code points. -/
def sorted (attributes : List (String × Expr)) : Attributes :=
  attributes.mergeSort fun a b => decide (a.1 ≤ b.1)

/-- Equality of attributes. -/
def same : Attributes → Attributes → Bool
  | [], [] => true
  | (k, a) :: as, (l, b) :: bs => k == l && a.same b && same as bs
  | _, _ => false

/-- The canonical form of attributes. -/
def canon (attributes : Attributes) : Attributes :=
  attributes.map fun a => (a.1, a.2.canon)

/-- The value of a key, which is the last that it is given. -/
def get? (a : Attributes) (k : String) : Option Expr :=
  a.reverse.lookup k

/-- The keys of two attribute lists together, sorted and each once. -/
def keys (a b : Attributes) : List String :=
  ((a ++ b).map Prod.fst).eraseDups.mergeSort fun k l => decide (k ≤ l)

theorem mem_of_get? {a : Attributes} {k : String} {e : Expr} (h : a.get? k = some e) :
    (k, e) ∈ a := by
  obtain ⟨l, r, hl, -⟩ := List.lookup_eq_some_iff.1 h
  exact List.mem_reverse.1 (hl ▸ List.mem_append_right l List.mem_cons_self)

theorem get?_map (f : Expr → Expr) (a : Attributes) (k : String) :
    get? (a.map fun x => (x.1, f x.2)) k = (a.get? k).map f := by
  rw [get?, ← List.map_reverse, lookup_map_snd, get?]

theorem same_iff : ∀ a b : Attributes, same a b = true ↔ canon a = canon b
  | [], b => by cases b <;> simp [same, canon]
  | (k, a) :: as, b => by
      cases b with
      | nil => simp [same, canon]
      | cons p bs =>
          have ih := same_iff as bs
          simp only [canon] at ih
          simp [same, canon, Expr.same_iff, ih]

end Attributes

namespace Statement

/-- A statement whose attributes are given in any order. -/
def make (subject : Expr) (relation : Relation) (object : Expr)
    (attributes : List (String × Expr)) : Statement :=
  { subject, relation, object, attributes := Attributes.sorted attributes }

/-- Equality of statements; the tense does not count. -/
def same (s t : Statement) : Bool :=
  s.subject.same t.subject && s.relation.name == t.relation.name && s.object.same t.object
    && Attributes.same s.attributes t.attributes

/-- The canonical form of a statement: no tense, and whole numbers are integers. -/
def canon (s : Statement) : Statement :=
  { subject := s.subject.canon
    relation := { name := s.relation.name }
    object := s.object.canon
    attributes := s.attributes.canon }

/-- Equality of lists of statements. -/
def sameAll : List Statement → List Statement → Bool
  | [], [] => true
  | s :: ss, t :: ts => s.same t && sameAll ss ts
  | _, _ => false

/-- The text of a statement. -/
def text (s : Statement) : String :=
  let triple := s.subject.text ++ " [" ++ s.relation.name ++ "] " ++ s.object.text
  match s.attributes with
  | [] => triple
  | as => triple ++ " \x7b" ++ ", ".intercalate (as.map fun a => a.1 ++ ": " ++ a.2.text)
      ++ "\x7d"

theorem same_iff (s t : Statement) : s.same t = true ↔ s.canon = t.canon := by
  simp [same, canon, Expr.same_iff, Attributes.same_iff, and_assoc]

theorem sameAll_iff : ∀ ss ts : List Statement,
    sameAll ss ts = true ↔ ss.map canon = ts.map canon
  | [], ts => by cases ts <;> simp [sameAll]
  | s :: ss, ts => by
      cases ts with
      | nil => simp [sameAll]
      | cons t ts => simp [sameAll, same_iff, sameAll_iff ss ts]

end Statement

end TripleLogic
