/-
TripleLogic.Ontology.Hierarchy — concepts and their superclasses, and the
closure of a hierarchy.

Concepts go by their names. A name is nearly always a text; a document may
also name a concept by a number, a truth value or null, which no text equals.

A hierarchy maps a concept to the set of its superclasses. Closing it adds,
pass after pass, the superclasses of superclasses; within a pass a concept
sees what the pass has added to the concepts before it. A bound on the
number of passes ends closing also where more could be added.
-/
import TripleLogic.Data.Basic

namespace TripleLogic

/-- The name of a concept. Truth values go by the numbers that they stand
for, and whole numbers are integers. -/
inductive Name where
  | null
  | number (n : Number)
  | text (s : String)
  deriving DecidableEq, Repr, Inhabited

namespace Name

/-- The name that a value is; a value with parts is none. -/
def ofData? (d : Data) : Option Name :=
  match d with
  | .null => some .null
  | .str s => some (.text s)
  | d => d.number?.map fun n => .number n.canon

/-- A name as plain data. -/
def toData : Name → Data
  | .null => .null
  | .number n => .num n
  | .text s => .str s

/-- The text that a name is. -/
def text? : Name → Option String
  | .text s => some s
  | _ => none

theorem text?_eq_some_iff {n : Name} {s : String} : n.text? = some s ↔ n = .text s := by
  cases n <;> simp [text?]

end Name

/-- Concepts and the sets of names that they are mapped to, in the order in
which the concepts were first met. -/
abbrev Hierarchy := List (Name × List Name)

namespace Names

/-- Add a name to a set. -/
def insert (names : List Name) (n : Name) : List Name :=
  if names.contains n then names else names ++ [n]

/-- Add several names to a set. -/
def union (names more : List Name) : List Name :=
  more.foldl insert names

/-- The texts among the names of a set, in order. -/
def sorted (names : List Name) : List String :=
  (names.filterMap Name.text?).mergeSort fun a b => decide (a ≤ b)

end Names

namespace Hierarchy

/-- The names that a concept is mapped to. -/
def get (h : Hierarchy) (c : Name) : List Name :=
  (h.lookup c).getD []

/-- Map a concept to a set; one that is there keeps its place. -/
def set (h : Hierarchy) (c : Name) (names : List Name) : Hierarchy :=
  if (h.lookup c).isSome then h.map fun e => if e.1 == c then (c, names) else e
  else h ++ [(c, names)]

/-- Add a name to the set of a concept. -/
def add (h : Hierarchy) (c n : Name) : Hierarchy :=
  set h c (Names.insert (get h c) n)

/-- A concept's superclasses together with theirs. -/
def widened (h : Hierarchy) (c : Name) : List Name :=
  (get h c).foldl (fun names parent => Names.union names (get h parent)) (get h c)

/-- Widen the superclasses of a concept. The answer tells whether any
concept so far has gained some. -/
def widen (state : Hierarchy × Bool) (c : Name) : Hierarchy × Bool :=
  let (h, changed) := state
  let wider := widened h c
  if (get h c).length < wider.length then (set h c wider, true) else (h, changed)

/-- One pass over all concepts. -/
def pass (h : Hierarchy) : Hierarchy × Bool :=
  (h.map Prod.fst).foldl widen (h, false)

end Hierarchy

/-- The outcome of closing a hierarchy: the number of passes, and whether
the last of them added nothing. -/
structure Closure where
  passes : Nat
  converged : Bool
  deriving DecidableEq, Repr, Inhabited

namespace Hierarchy

/-- Close a hierarchy by at most `bound` passes. -/
def close (h : Hierarchy) : (bound : Nat) → Hierarchy × Closure
  | 0 => (h, { passes := 0, converged := false })
  | bound + 1 =>
      match pass h with
      | (_, false) => (h, { passes := 1, converged := true })
      | (h', true) =>
          let (h'', r) := close h' bound
          (h'', { r with passes := r.passes + 1 })

end Hierarchy

end TripleLogic
