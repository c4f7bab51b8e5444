/-
TripleLogic.Inference.Pattern — the six patterns of inference.

Each pattern reads a list of nodes and gives candidates for new ones in a
fixed order. Candidates may be known already, and compounds that lack an
operand are passed over.
-/
import TripleLogic.Inference.Premises
import TripleLogic.KnowledgeBase

namespace TripleLogic

/-- The patterns of inference. -/
inductive Pattern where
  | ruleApplication
  | modusPonens
  | modusTollens
  | hypotheticalSyllogism
  | disjunctiveSyllogism
  | conjunctionElimination
  deriving DecidableEq, Repr

namespace Pattern

/-- All patterns, in the order in which they are applied. -/
def all : List Pattern :=
  [.ruleApplication, .modusPonens, .modusTollens, .hypotheticalSyllogism,
   .disjunctiveSyllogism, .conjunctionElimination]

/-- The name of a pattern. -/
def name : Pattern → String
  | .ruleApplication => "rule-application"
  | .modusPonens => "modus-ponens"
  | .modusTollens => "modus-tollens"
  | .hypotheticalSyllogism => "hypothetical-syllogism"
  | .disjunctiveSyllogism => "disjunctive-syllogism"
  | .conjunctionElimination => "conjunction-elimination"

/-- Whether a list holds an equal node. -/
def holds (nodes : List Node) (n : Node) : Bool :=
  nodes.any fun m => m.same n

/-- The implications of a list, as pairs of antecedent and consequent. -/
def implications (nodes : List Node) : List (Node × Node) :=
  nodes.filterMap fun
    | .compound .implies (some a) (some b) => some (a, b)
    | _ => none

/-- The disjunctions of a list, as pairs. -/
def disjunctions (nodes : List Node) : List (Node × Node) :=
  nodes.filterMap fun
    | .compound .or (some a) (some b) => some (a, b)
    | _ => none

/-- The operands of the negations of a list. -/
def negated (nodes : List Node) : List Node :=
  nodes.filterMap fun
    | .compound .not (some a) _ => some a
    | _ => none

/-- The directions in which a rule may be used, as pairs of premises and
conclusion. -/
def directions : Node → List (Node × Node)
  | .rule _ a b _ bidirectional _ => if bidirectional then [(a, b), (b, a)] else [(a, b)]
  | _ => []

/-- A rule and bindings under which its premises hold give its conclusion. -/
def applyRules (nodes : List Node) : List Node :=
  (nodes.flatMap directions).flatMap fun d =>
    (matchPremises d.1 nodes []).map fun θ => d.2.subst θ

/-- From `A` and `A implies B`, `B`. -/
def ponens (nodes : List Node) : List Node :=
  (implications nodes).filterMap fun i => if holds nodes i.1 then some i.2 else none

/-- From `not B` and `A implies B`, `not A`. -/
def tollens (nodes : List Node) : List Node :=
  (implications nodes).filterMap fun i =>
    if holds (negated nodes) i.2 then some i.1.negate else none

/-- From `A implies B` and `B implies C`, `A implies C`. -/
def chain (nodes : List Node) : List Node :=
  (implications nodes).flatMap fun first =>
    (implications nodes).filterMap fun second =>
      if second.1.same first.2 then some (first.1.implies second.2) else none

/-- From `A or B` and the negation of one, the other. -/
def disjunctive (nodes : List Node) : List Node :=
  (disjunctions nodes).flatMap fun d =>
    (if holds (negated nodes) d.1 then [d.2] else [])
      ++ (if holds (negated nodes) d.2 then [d.1] else [])

/-- From a conjunction, its operands. -/
def eliminate (nodes : List Node) : List Node :=
  nodes.flatMap fun
    | .compound .and a b => a.toList ++ b.toList
    | _ => []

/-- The candidates of a pattern. -/
def candidates : Pattern → List Node → List Node
  | .ruleApplication => applyRules
  | .modusPonens => ponens
  | .modusTollens => tollens
  | .hypotheticalSyllogism => chain
  | .disjunctiveSyllogism => disjunctive
  | .conjunctionElimination => eliminate

/-- The nodes that a pattern uses as keys, in the order in which it does. -/
def keys : Pattern → List Node → List Node
  | .modusPonens, nodes => nodes
  | .modusTollens, nodes => negated nodes ++ (implications nodes).map Prod.snd
  | .hypotheticalSyllogism, nodes =>
      (implications nodes).map Prod.fst ++ (implications nodes).map Prod.snd
  | .disjunctiveSyllogism, nodes =>
      negated nodes ++ (disjunctions nodes).flatMap fun d => [d.1, d.2]
  | _, _ => []

/-- The candidates of a pattern among entries. Foreign values are passed
over, but modus ponens looks antecedents up among all entries. What cannot be
used as a key where a key is wanted is refused. -/
def candidatesOf (p : Pattern) (entries : List Entry) : Except Fault (List Node) := do
  let nodes := entries.filterMap Entry.node?
  if p == .modusPonens then entries.forM Entry.assertKey
  else (p.keys nodes).forM Node.assertKey
  return p.candidates nodes

end Pattern

end TripleLogic
