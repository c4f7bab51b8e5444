/-
TripleLogic.Bound — bounds on runs, given as numbers.

A pass is begun while the number of passes made is below the bound, so a
fraction rounds up. A depth may be reached and not passed, so a fraction
rounds down. Infinity bounds nothing; what is not a number lets no pass begin
and is never passed by a depth.
-/
import TripleLogic.Fault

namespace TripleLogic

/-- A bound that no run reaches. -/
def unbounded : Nat := Nat.pow 2 62

namespace Number

/-- The number of passes that a bound allows. -/
def passes : Number → Nat
  | .int n => n.toNat
  | .float .nan => 0
  | .float (.inf neg) => if neg then 0 else unbounded
  | .float x => (x.ceil?.getD 0).toNat

/-- The greatest depth that a bound allows. -/
def depth : Number → Int
  | .int n => n
  | .float .nan => unbounded
  | .float (.inf neg) => if neg then -1 else unbounded
  | .float x => x.floor?.getD 0

end Number

namespace Data

/-- A bound on passes, which has to be a number. -/
def passBound (d : Data) : Except Fault Nat :=
  match d.number? with
  | some n => .ok n.passes
  | none => .error (.misuse (.notComparable "<" (.int 0) d))

/-- A bound on the depth of proofs, which has to be a number. -/
def depthBound (d : Data) : Except Fault Int :=
  match d.number? with
  | some n => .ok n.depth
  | none => .error (.misuse (.notComparable ">" (.int 0) d))

end Data

end TripleLogic
