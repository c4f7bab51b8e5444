/-
TripleLogic.Number.Binary64 — binary floating-point numbers of 64 bits, by
their exact value.

A finite number is `± mant · 2 ^ exp` with `mant < 2 ^ 53` and
`-1074 ≤ exp ≤ 971`, and either `2 ^ 52 ≤ mant` or `exp = -1074`; so each
value but zero has one form, and zero has one for each sign. Everything
here is exact arithmetic on natural numbers; no machine arithmetic is used.

Main operations: `ofRatio`, the number nearest to a quotient, a tie going to
the even neighbour; `toInt?`, the integer a number stands for.
-/
namespace TripleLogic

/-- A binary floating-point number of 64 bits. All numbers that are not a
number count as one. -/
inductive Binary64 where
  | nan
  | inf (neg : Bool)
  | finite (neg : Bool) (mant : Nat) (exp : Int)
  deriving DecidableEq, Repr, Inhabited

namespace Binary64

/-- The form that `finite` values have. -/
def Canonical : Binary64 → Prop
  | .finite _ m e =>
      m < Nat.pow 2 53 ∧ -1074 ≤ e ∧ e ≤ 971 ∧ (Nat.pow 2 52 ≤ m ∨ e = -1074)
  | _ => True

/-- The zero of a sign. -/
def zero (neg : Bool) : Binary64 :=
  .finite neg 0 (-1074)

/-- The quotient rounded to the nearest integer, a half going to the even one. -/
def roundDiv (num den : Nat) : Nat :=
  let q := num / den
  let r := num % den
  if 2 * r < den then q
  else if den < 2 * r then q + 1
  else q + q % 2

/-- The exponent `e` with `2 ^ e ≤ num / den < 2 ^ (e + 1)`, for positive `num` and `den`. -/
def floorLog2 (num den : Nat) : Int :=
  let k : Int := (Nat.log2 num : Int) - (Nat.log2 den : Int)
  if den * Nat.pow 2 k.toNat ≤ num * Nat.pow 2 (-k).toNat then k else k - 1

/-- The number nearest to `± num / den`, a tie going to the even neighbour
and a quotient beyond the range to infinity. The divisor is positive. -/
def ofRatio (neg : Bool) (num den : Nat) : Binary64 :=
  if num = 0 then zero neg
  else
    let e := max (floorLog2 num den - 52) (-1074)
    let m := roundDiv (num * Nat.pow 2 (-e).toNat) (den * Nat.pow 2 e.toNat)
    let me : Nat × Int := if m = Nat.pow 2 53 then (Nat.pow 2 52, e + 1) else (m, e)
    if 971 < me.2 then .inf neg else .finite neg me.1 me.2

/-- The number nearest to the decimal `± digits · 10 ^ exp`. A decimal far
beyond the range is settled by its number of digits alone. -/
def ofDecimal (neg : Bool) (digits : Nat) (exp : Int) : Binary64 :=
  if digits = 0 then zero neg
  else
    let size : Int := (Nat.toDigits 10 digits).length + exp
    if 400 < size then .inf neg
    else if size < -400 then zero neg
    else ofRatio neg (digits * Nat.pow 10 exp.toNat) (Nat.pow 10 (-exp).toNat)

/-- The integer that a number stands for exactly, if there is one. -/
def toInt? : Binary64 → Option Int
  | .finite neg m e =>
      if 0 ≤ e then
        let n : Int := (m * Nat.pow 2 e.toNat : Nat)
        some (if neg then -n else n)
      else
        let d := Nat.pow 2 (-e).toNat
        if m % d = 0 then
          let n : Int := (m / d : Nat)
          some (if neg then -n else n)
        else none
  | _ => none

/-- The greatest integer that is not above a finite number. -/
def floor? : Binary64 → Option Int
  | .finite neg m e =>
      let n : Int := (m * Nat.pow 2 e.toNat : Nat)
      some (Int.fdiv (if neg then -n else n) (Nat.pow 2 (-e).toNat : Nat))
  | _ => none

/-- The least integer that is not below a finite number. -/
def ceil? : Binary64 → Option Int
  | .finite neg m e => (floor? (.finite (!neg) m e)).map fun n => -n
  | _ => none

/-- A finite number as a multiple of the least positive one. -/
def scaled? : Binary64 → Option Int
  | .finite neg m e =>
      let n : Int := (m * Nat.pow 2 (e + 1074).toNat : Nat)
      some (if neg then -n else n)
  | _ => none

/-- Whether a number lies between zero and one, ends included. -/
def inUnit : Binary64 → Bool
  | .finite neg m e =>
      m == 0 || (!neg && decide (m * Nat.pow 2 e.toNat ≤ Nat.pow 2 (-e).toNat))
  | _ => false

/-- Whether a number is zero, of either sign. -/
def isZero : Binary64 → Bool
  | .finite _ m _ => m == 0
  | _ => false

/-- Whether a number is finite. -/
def isFinite : Binary64 → Bool
  | .finite .. => true
  | _ => false

end Binary64

end TripleLogic
