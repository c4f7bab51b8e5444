/-
TripleLogic.Number.Basic — numbers: integers without bound and binary
floating-point numbers, kept apart.

The two kinds compare by exact value: a whole floating-point number equals
the integer it stands for, and no rounding takes place. Main statements:
`same` is equality of `canon`, hence an equivalence.
-/
import TripleLogic.Number.Shortest

namespace TripleLogic

/-- An integer or a floating-point number. -/
inductive Number where
  | int (n : Int)
  | float (x : Binary64)
  deriving DecidableEq, Repr, Inhabited

namespace Number

/-- The canonical form of a number: a whole floating-point number becomes
the integer it stands for. -/
def canon : Number → Number
  | .int n => .int n
  | .float x =>
      match x.toInt? with
      | some n => .int n
      | none => .float x

/-- Whether two numbers have one exact value. -/
def same : Number → Number → Bool
  | .int a, .int b => a == b
  | a, b => a.canon == b.canon

/-- Whether a number is zero. -/
def isZero : Number → Bool
  | .int n => n == 0
  | .float x => x.isZero

/-- The greatest integer that is not above a finite number. -/
def floor? : Number → Option Int
  | .int n => some n
  | .float x => x.floor?

/-- The least integer that is not below a finite number. -/
def ceil? : Number → Option Int
  | .int n => some n
  | .float x => x.ceil?

/-- Whether a number is below zero. -/
def isNegative : Number → Bool
  | .int n => n < 0
  | .float (.inf neg) => neg
  | .float (.finite neg m _) => neg && m != 0
  | .float .nan => false

/-- The place of a number in the order of values: minus infinity, the finite
numbers as multiples of the least positive floating-point number, infinity,
and last what is not a number. -/
def level : Number → Int × Int
  | .int n => (0, n * (Nat.pow 2 1074 : Nat))
  | .float .nan => (2, 0)
  | .float (.inf neg) => (if neg then -1 else 1, 0)
  | .float x => (0, x.scaled?.getD 0)

/-- Whether a number does not come after another in the order of values. -/
def le (a b : Number) : Bool :=
  a.level.1 < b.level.1 || (a.level.1 == b.level.1 && a.level.2 ≤ b.level.2)

/-- Whether a number lies between zero and one, ends included. -/
def inUnit : Number → Bool
  | .int n => decide (0 ≤ n) && decide (n ≤ 1)
  | .float x => x.inUnit

/-- The text that reads back as the number, its kind included. -/
def text : Number → String
  | .int n => toString n
  | .float x => x.text

/-- The text of a number by value: whole floating-point numbers are written
like integers. -/
def plainText (a : Number) : String :=
  a.canon.text

theorem same_iff (a b : Number) : a.same b = true ↔ a.canon = b.canon := by
  cases a <;> cases b <;> simp [same, canon]

theorem same_refl (a : Number) : a.same a = true := (same_iff a a).2 rfl

theorem same_symm {a b : Number} (h : a.same b = true) : b.same a = true :=
  (same_iff b a).2 ((same_iff a b).1 h).symm

theorem same_trans {a b c : Number} (h : a.same b = true) (k : b.same c = true) :
    a.same c = true :=
  (same_iff a c).2 (((same_iff a b).1 h).trans ((same_iff b c).1 k))

end Number

end TripleLogic
