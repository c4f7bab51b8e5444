/-
TripleLogic.Proof.Search — goal-directed search for proofs.

A goal that unifies with a hypothesis or a known node is a fact. Otherwise
implications and rules that conclude it are tried in order, then its own
form: a conjunction is proved from its operands, an implication from its
consequent under its antecedent as a hypothesis. The first way that works is
taken, and no binding is revised. A goal that is being proved on the current
branch is not tried again, and branches have bounded length.
-/
import TripleLogic.Inference.Pattern
import TripleLogic.Proof.Tree

namespace TripleLogic.Proof

/-- A way to a conclusion from a premise. -/
structure Way where
  via : Justification
  premise : Node
  conclusion : Node

/-- The ways that a node offers: implications lead from antecedent to
consequent, rules in each of their directions. -/
def waysOf : Node → List Way
  | .compound .implies (some a) (some b) => [⟨.modusPonens, a, b⟩]
  | .rule id a b d x c =>
      (Pattern.directions (.rule id a b d x c)).map fun p => ⟨.rule id, p.1, p.2⟩
  | _ => []

/-- The ways that nodes offer, in order. -/
def ways (nodes : List Node) : List Way :=
  nodes.flatMap waysOf

/-- The proof of a goal as a fact: it unifies with a hypothesis, or else with
a known node. -/
def asFact? (known : List Node) (goal : Node) : Option Proof :=
  known.findSome? fun k => (goal.unify k).map fun σ => .step goal .fact [] σ

/-- Try a way to a goal: its conclusion has to unify with the goal, and
`prove` has to prove its premise under the bindings found. -/
def tryWay (prove : Node → Option Proof) (goal : Node) (w : Way) : Option Proof := do
  let θ ← w.conclusion.unifyWith goal []
  let p ← prove (w.premise.subst θ)
  return .step goal w.via [p] θ.publish

/-- Try the form of a goal: a conjunction is proved from its operands, an
implication from its consequent with its antecedent as a further hypothesis. -/
def tryForm (prove : (hypotheses : List Node) → Node → Option Proof)
    (hypotheses : List Node) (goal : Node) : Option Proof :=
  match goal with
  | .compound .and (some a) (some b) => do
      let p ← prove hypotheses a
      let q ← prove hypotheses b
      return .step goal .conjunctionIntroduction [p, q] []
  | .compound .implies (some a) (some b) => do
      let p ← prove (hypotheses ++ [a]) b
      return .step goal .implicationIntroduction [p] []
  | _ => none

/-- Search for a proof on a branch that may take `fuel` more steps; `path`
holds the goals of the branch and `hypotheses` what may be assumed. -/
def search (nodes : List Node) :
    (fuel : Nat) → (path hypotheses : List Node) → (goal : Node) → Option Proof
  | 0, _, _, _ => none
  | fuel + 1, path, hypotheses, goal =>
      if Pattern.holds path goal then none
      else
        let prove := search nodes fuel (goal :: path)
        asFact? (hypotheses ++ nodes) goal
          <|> (ways nodes).findSome? (tryWay (prove hypotheses) goal)
          <|> tryForm prove hypotheses goal

/-- Search for a proof by branches of at most `maxDepth` steps below the goal. -/
def find? (nodes : List Node) (maxDepth : Int) (goal : Node) : Option Proof :=
  search nodes (maxDepth + 1).toNat [] [] goal

/-- The first goal that a search cannot use as a key, if it comes upon one
before it finds a proof; the value is the part that is to blame. -/
def obstacle? (nodes : List Node) :
    (fuel : Nat) → (path hypotheses : List Node) → (goal : Node) → Option Data
  | 0, _, _, _ => none
  | fuel + 1, path, hypotheses, goal =>
      match goal.composite? with
      | some d => some d
      | none =>
          if Pattern.holds path goal || (asFact? (hypotheses ++ nodes) goal).isSome then none
          else
            let path := goal :: path
            let proves := fun hs g => (search nodes fuel path hs g).isSome
            let goals := (ways nodes).filterMap fun w =>
              (w.conclusion.unifyWith goal []).map w.premise.subst
            let tried := goals.takeWhile fun g => !proves hypotheses g
            let found := goals.take (tried.length + 1)
            found.findSome? (obstacle? nodes fuel path hypotheses)
              <|> if tried.length < goals.length then none
                else
                  match goal with
                  | .compound .and (some a) (some b) =>
                      obstacle? nodes fuel path hypotheses a
                        <|> if proves hypotheses a then obstacle? nodes fuel path hypotheses b
                          else none
                  | .compound .implies (some a) (some b) =>
                      obstacle? nodes fuel path (hypotheses ++ [a]) b
                  | _ => none

/-- Search for a proof of an entry. A foreign value has none, and a goal that
cannot be used as a key is refused. -/
def findEntry? (nodes : List Node) (maxDepth : Int) (goal : Entry) :
    Except Fault (Option Proof) :=
  match goal.node? with
  | some n =>
      if (n :: nodes).all Node.isKey then .ok (find? nodes maxDepth n)
      else do
        assertNoComposite (obstacle? nodes (maxDepth + 1).toNat [] [] n)
        return find? nodes maxDepth n
  | none => do
      if 0 ≤ maxDepth then goal.assertKey
      return none

end TripleLogic.Proof
