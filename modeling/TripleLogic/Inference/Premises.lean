/-
TripleLogic.Inference.Premises — bindings under which premises hold.

A single premise holds once for every node that it unifies with. A
conjunction is matched one conjunct after the other, each taking the first
node that unifies under the bindings so far; no choice is taken back.
-/
import TripleLogic.Substitution
import TripleLogic.Unification

namespace TripleLogic

/-- The bindings after matching conjuncts one after the other. -/
def matchConjuncts (nodes : List Node) : List Node → Bindings → Option Bindings
  | [], θ => some θ
  | p :: ps, θ => do
      let θ ← nodes.findSome? fun n => p.unifyWith n θ
      matchConjuncts nodes ps θ

/-- The bindings under which premises hold among nodes. -/
def matchPremises (premises : Node) (nodes : List Node) (θ : Bindings) : List Bindings :=
  match premises.conjuncts with
  | [_] => nodes.filterMap fun n => premises.unifyWith n θ
  | parts => (matchConjuncts nodes parts θ).toList

end TripleLogic
