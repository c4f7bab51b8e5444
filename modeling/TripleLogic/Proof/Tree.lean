/-
TripleLogic.Proof.Tree — proofs as trees of steps.

A step proves its goal from the proofs of its premises by the justification
that it names, under the bindings that it holds.
-/
import TripleLogic.Bindings
import TripleLogic.Node.Record

namespace TripleLogic

/-- What a step of a proof rests on. -/
inductive Justification where
  | fact
  | modusPonens
  | conjunctionIntroduction
  | implicationIntroduction
  | forwardChaining
  | rule (id : String)
  deriving DecidableEq, Repr, Inhabited

/-- The name of a justification; a rule goes by its identifier. -/
def Justification.name : Justification → String
  | .fact => "fact"
  | .modusPonens => "modus-ponens"
  | .conjunctionIntroduction => "conjunction-introduction"
  | .implicationIntroduction => "implication-introduction"
  | .forwardChaining => "forward-chaining"
  | .rule id => id

/-- A proof: a goal, what it rests on, the proofs of the premises, and the
bindings of the step. -/
inductive Proof where
  | step (goal : Node) (via : Justification) (premises : List Proof)
      (substitution : Substitution)
  deriving Repr, Inhabited

namespace Proof

/-- The goal of a proof. -/
def goal : Proof → Node
  | .step g _ _ _ => g

/-- The last justification of a proof. -/
def justification : Proof → Justification
  | .step _ j _ _ => j

/-- The proofs of the premises. -/
def premises : Proof → List Proof
  | .step _ _ ps _ => ps

/-- The bindings of the last step. -/
def substitution : Proof → Substitution
  | .step _ _ _ σ => σ

/-- Whether a proof is a known fact. -/
def isFact (p : Proof) : Bool :=
  p.justification.name == "fact" && p.premises.isEmpty

mutual

/-- The number of steps on the longest branch. -/
def depth : Proof → Nat
  | .step _ _ ps _ => 1 + depthAll ps

/-- The greatest depth of several proofs. -/
def depthAll : List Proof → Nat
  | [] => 0
  | p :: ps => max (depth p) (depthAll ps)

end

mutual

/-- The justifications of a proof, outermost first. -/
def justifications : Proof → List String
  | .step _ j ps _ => j.name :: justificationsAll ps

/-- The justifications of several proofs. -/
def justificationsAll : List Proof → List String
  | [] => []
  | p :: ps => justifications p ++ justificationsAll ps

end

/-- The indentation of a level. -/
def indentation (level : Nat) : String :=
  String.ofList (List.replicate (2 * level) ' ')

mutual

/-- The lines that explain a proof. -/
def lines : Proof → (level : Nat) → List String
  | .step g j ps _, level =>
      if j.name == "fact" && ps.isEmpty then
        [indentation level ++ "✓ " ++ g.text ++ " [known fact]"]
      else
        (indentation level ++ "⊢ " ++ g.text ++ " [via " ++ j.name ++ "]")
          :: linesAll ps (level + 1)

/-- The lines that explain several proofs. -/
def linesAll : List Proof → (level : Nat) → List String
  | [], _ => []
  | p :: ps, level => lines p level ++ linesAll ps level

end

/-- The explanation of a proof, one line for each step. -/
def explain (p : Proof) : String :=
  "\n".intercalate (p.lines 0)

/-- Bindings in their public form as plain data. -/
def substitutionData (σ : Substitution) : Data :=
  .obj (σ.map fun b => (b.1, .str b.2))

mutual

/-- A proof as plain data. -/
def toData : Proof → Data
  | .step g j ps σ =>
      .obj [("goal", g.toData), ("rule", .str j.name), ("valid", .bool true),
        ("substitution", substitutionData σ), ("premises", .list (toDataAll ps))]

/-- Several proofs as plain data. -/
def toDataAll : List Proof → List Data
  | [] => []
  | p :: ps => toData p :: toDataAll ps

end

end Proof

end TripleLogic
