/-
TripleLogic.Number.Shortest — the shortest decimal that reads back as a
given floating-point number, and its layout.

The decimals that read back as `mant · 2 ^ exp` form an interval around it,
halfway to either neighbour, whose ends belong to it exactly when the
mantissa is even. For one digit, two digits, and so on, the two neighbours
of the value on the grid of that many digits are tried; the first grid with
a hit gives the digits, and of two hits the nearer one.
-/
import TripleLogic.Number.Binary64

namespace TripleLogic

/-- A positive decimal `0.d₁d₂… · 10 ^ point`, by its digits as one number
and the place of the point counted from before the first digit. -/
structure ShortDecimal where
  digits : Nat
  point : Int
  deriving DecidableEq, Repr

namespace ShortDecimal

/-- The decimal digits of a number, as characters. -/
def digitChars (n : Nat) : List Char :=
  Nat.toDigits 10 n

/-- Raise `k` until `10 ^ k · num` reaches `den`. -/
def scaleUp (num den : Nat) : (fuel : Nat) → (k : Nat) → Nat
  | 0, k => k
  | f + 1, k => if den ≤ num * Nat.pow 10 k then k else scaleUp num den f (k + 1)

/-- The place of the point of `num / den`: the least `p` with `num / den < 10 ^ p`. -/
def pointOf (num den : Nat) : Int :=
  if den ≤ num then ((digitChars (num / den)).length : Int)
  else
    let start := (Nat.log2 den - Nat.log2 num) * 3 / 10
    1 - (scaleUp num den 400 (start - 1) : Int)

/-- The interval of the decimals that read back as `mant · 2 ^ exp`: lower
end, value and upper end over one divisor, and whether the ends belong to it. -/
structure Interval where
  low : Nat
  value : Nat
  high : Nat
  den : Nat
  closed : Bool

/-- The interval of a positive finite number. At a power of two the lower
neighbour is half as far away as the upper one. -/
def Interval.ofFinite (mant : Nat) (exp : Int) : Interval :=
  let narrow := mant == Nat.pow 2 52 && decide (-1074 < exp)
  let up := Nat.pow 2 exp.toNat
  { low := (4 * mant - (if narrow then 1 else 2)) * up
    value := 4 * mant * up
    high := (4 * mant + 2) * up
    den := 4 * Nat.pow 2 (-exp).toNat
    closed := mant % 2 == 0 }

/-- Whether `num / den` lies in an interval. -/
def Interval.contains (i : Interval) (num den : Nat) : Bool :=
  let x := num * i.den
  let lo := i.low * den
  let hi := i.high * den
  if i.closed then decide (lo ≤ x) && decide (x ≤ hi) else decide (lo < x) && decide (x < hi)

/-- The hit of the grid of `n` digits, if one of the two neighbours of the
value on it reads back. Of two hits the nearer wins, and of two equally near
the even one. -/
def onGrid (i : Interval) (point : Int) (n : Nat) : Option Nat :=
  let scale : Int := point - n
  let unit := Nat.pow 10 scale.toNat
  let frac := Nat.pow 10 (-scale).toNat
  let below := (i.value * frac) / (i.den * unit)
  let above := below + 1
  let hitBelow := decide (0 < below) && i.contains (below * unit) frac
  let hitAbove := i.contains (above * unit) frac
  if hitBelow && hitAbove then
    let twice := 2 * (i.value * frac)
    let middle := (below + above) * (i.den * unit)
    if twice < middle then some below
    else if middle < twice then some above
    else if below % 2 == 0 then some below else some above
  else if hitBelow then some below
  else if hitAbove then some above
  else none

/-- Drop the zeros at the end of a number. -/
def dropZeros : (fuel : Nat) → Nat → Nat
  | 0, n => n
  | f + 1, n => if n % 10 = 0 then dropZeros f (n / 10) else n

/-- The shortest decimal that reads back as `mant · 2 ^ exp`, for a positive
mantissa. Seventeen digits always read back, so one of the grids has a hit;
a hit above the value may have moved the point. -/
def ofFinite (mant : Nat) (exp : Int) : ShortDecimal :=
  let i := Interval.ofFinite mant exp
  let point := pointOf i.value i.den
  let found := (List.range 17).findSome? fun k =>
    (onGrid i point (k + 1)).map fun d => (d, k + 1)
  match found with
  | some (d, n) =>
      let size := (digitChars d).length
      ⟨dropZeros size d, point + ((size : Int) - n)⟩
  | none => ⟨0, point⟩

end ShortDecimal

/-- How a floating-point number is laid out as text. -/
structure FloatLayout where
  /-- Least place of the point written without an exponent. -/
  leastPoint : Int
  /-- Greatest place of the point written without an exponent. -/
  greatestPoint : Int
  /-- Least number of digits of the exponent. -/
  exponentWidth : Nat
  nan : String
  infinity : String

namespace FloatLayout

/-- Digits filled with zeros on the left. -/
def padLeft (width : Nat) (cs : List Char) : List Char :=
  List.replicate (width - cs.length) '0' ++ cs

/-- Digits with a point after the first `point` of them, which is positive. -/
def withPoint (cs : List Char) (point : Nat) : List Char :=
  if cs.length ≤ point then cs ++ List.replicate (point - cs.length) '0' ++ ['.', '0']
  else cs.take point ++ '.' :: cs.drop point

/-- The text of a positive decimal. -/
def decimal (l : FloatLayout) (d : ShortDecimal) : List Char :=
  let cs := ShortDecimal.digitChars d.digits
  if l.leastPoint ≤ d.point ∧ d.point ≤ l.greatestPoint then
    if 0 < d.point then withPoint cs d.point.toNat
    else '0' :: '.' :: List.replicate (-d.point).toNat '0' ++ cs
  else
    let e := d.point - 1
    let head := match cs with
      | [] => []
      | [c] => [c]
      | c :: rest => c :: '.' :: rest
    let sign := if e < 0 then '-' else '+'
    head ++ 'e' :: sign :: padLeft l.exponentWidth (ShortDecimal.digitChars e.natAbs)

/-- The text of a floating-point number. -/
def render (l : FloatLayout) : Binary64 → String
  | .nan => l.nan
  | .inf neg => (if neg then "-" else "") ++ l.infinity
  | .finite neg m e =>
      let body := if m = 0 then ['0', '.', '0'] else l.decimal (ShortDecimal.ofFinite m e)
      String.ofList (if neg then '-' :: body else body)

end FloatLayout

/-- The layout of all floating-point text: positional from 0.0001 up to below
10 ^ 16, one place kept after the point, and an exponent of at least two
digits with its sign. -/
def Binary64.layout : FloatLayout :=
  { leastPoint := -3, greatestPoint := 16, exponentWidth := 2, nan := "nan", infinity := "inf" }

/-- The shortest text that reads back as the number. -/
def Binary64.text (x : Binary64) : String :=
  Binary64.layout.render x

end TripleLogic
