/-
TripleLogic.Data.Canon — equality of plain data by value.

Two values are equal when they have one canonical form: whole numbers are
integers, truth values are the numbers that they stand for, and the fields of
an object stand in the order of their keys.

Main statement: `same` is equality of canonical forms, hence an equivalence.
-/
import TripleLogic.Data.Basic

namespace TripleLogic.Data

mutual

/-- Whether two values are written alike. -/
def beq : Data → Data → Bool
  | .null, .null => true
  | .bool a, .bool b => a == b
  | .num a, .num b => a == b
  | .str a, .str b => a == b
  | .list as, .list bs => beqItems as bs
  | .obj as, .obj bs => beqFields as bs
  | .map as, .map bs => beqEntries as bs
  | _, _ => false

/-- Whether two lists are written alike. -/
def beqItems : List Data → List Data → Bool
  | [], [] => true
  | a :: as, b :: bs => beq a b && beqItems as bs
  | _, _ => false

/-- Whether the fields of two objects are written alike. -/
def beqFields : List (String × Data) → List (String × Data) → Bool
  | [], [] => true
  | (k, a) :: as, (l, b) :: bs => k == l && beq a b && beqFields as bs
  | _, _ => false

/-- Whether the entries of two maps are written alike. -/
def beqEntries : List (Data × Data) → List (Data × Data) → Bool
  | [], [] => true
  | (k, a) :: as, (l, b) :: bs => beq k l && beq a b && beqEntries as bs
  | _, _ => false

end

mutual

/-- The canonical form of a value. -/
def canon : Data → Data
  | .null => .null
  | .bool b => .num (.int (if b then 1 else 0))
  | .num n => .num n.canon
  | .str s => .str s
  | .list xs => .list (canonItems xs)
  | .obj fs => .obj ((canonFields fs).mergeSort fun f g => decide (f.1 ≤ g.1))
  | .map es => .map (canonEntries es)

/-- The canonical forms of the items of a list. -/
def canonItems : List Data → List Data
  | [] => []
  | x :: xs => canon x :: canonItems xs

/-- The canonical forms of the fields of an object. -/
def canonFields : List (String × Data) → List (String × Data)
  | [] => []
  | (k, v) :: fs => (k, canon v) :: canonFields fs

/-- The canonical forms of the entries of a map. -/
def canonEntries : List (Data × Data) → List (Data × Data)
  | [] => []
  | (k, v) :: es => (canon k, canon v) :: canonEntries es

end

/-- Whether two values are equal by value. -/
def same (a b : Data) : Bool :=
  beq a.canon b.canon

mutual

theorem beq_iff : ∀ a b : Data, beq a b = true ↔ a = b
  | .null, b => by cases b <;> simp [beq]
  | .bool _, b => by cases b <;> simp [beq]
  | .num _, b => by cases b <;> simp [beq]
  | .str _, b => by cases b <;> simp [beq]
  | .list as, b => by
      cases b with
      | list bs => simp [beq, beqItems_iff as bs]
      | _ => simp [beq]
  | .obj as, b => by
      cases b with
      | obj bs => simp [beq, beqFields_iff as bs]
      | _ => simp [beq]
  | .map as, b => by
      cases b with
      | map bs => simp [beq, beqEntries_iff as bs]
      | _ => simp [beq]

theorem beqItems_iff : ∀ as bs : List Data, beqItems as bs = true ↔ as = bs
  | [], bs => by cases bs <;> simp [beqItems]
  | a :: as, bs => by
      cases bs with
      | nil => simp [beqItems]
      | cons b bs => simp [beqItems, beq_iff a b, beqItems_iff as bs]

theorem beqFields_iff : ∀ as bs : List (String × Data), beqFields as bs = true ↔ as = bs
  | [], bs => by cases bs <;> simp [beqFields]
  | (k, a) :: as, bs => by
      cases bs with
      | nil => simp [beqFields]
      | cons p bs =>
          obtain ⟨l, b⟩ := p
          simp [beqFields, beq_iff a b, beqFields_iff as bs]

theorem beqEntries_iff : ∀ as bs : List (Data × Data), beqEntries as bs = true ↔ as = bs
  | [], bs => by cases bs <;> simp [beqEntries]
  | (k, a) :: as, bs => by
      cases bs with
      | nil => simp [beqEntries]
      | cons p bs =>
          obtain ⟨l, b⟩ := p
          simp [beqEntries, beq_iff k l, beq_iff a b, beqEntries_iff as bs]

end

theorem same_iff (a b : Data) : a.same b = true ↔ a.canon = b.canon :=
  beq_iff a.canon b.canon

end TripleLogic.Data
