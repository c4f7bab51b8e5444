/-
TripleLogic.Inference.Saturation — forward chaining: applying all patterns
until nothing new comes out.

Each pass reads the nodes that are there when it begins; what it derives
takes part from the next pass on. The number of passes is bounded, and a
result tells whether the last pass added nothing.
-/
import TripleLogic.Inference.Pattern

namespace TripleLogic

/-- The outcome of forward chaining: the knowledge base, the nodes derived
in the order of their derivation, the number of passes, and whether the last
of them added nothing. -/
structure Saturation where
  kb : KnowledgeBase
  derived : List Node
  passes : Nat
  fixpoint : Bool
  deriving Repr, Inhabited

namespace KnowledgeBase

/-- The candidates of all patterns, in order. -/
def candidates (kb : KnowledgeBase) : List Node :=
  Pattern.all.flatMap fun p => p.candidates kb.nodes

/-- Add nodes in order. The answer holds those that were new. -/
def addNodes (kb : KnowledgeBase) : List Node → KnowledgeBase × List Node
  | [] => (kb, [])
  | n :: ns =>
      let (kb', added) := kb.insert (.node n)
      let (kb'', new) := addNodes kb' ns
      (kb'', if added then n :: new else new)

/-- One pass: add the candidates that are new. -/
def pass (kb : KnowledgeBase) : KnowledgeBase × List Node :=
  kb.addNodes kb.candidates

/-- Forward chaining by at most `bound` passes. -/
def saturate (kb : KnowledgeBase) : (bound : Nat) → Saturation
  | 0 => { kb, derived := [], passes := 0, fixpoint := false }
  | bound + 1 =>
      match kb.pass with
      | (_, []) => { kb, derived := [], passes := 1, fixpoint := true }
      | (kb', new) =>
          let rest := saturate kb' bound
          { rest with derived := new ++ rest.derived, passes := rest.passes + 1 }

end KnowledgeBase

end TripleLogic
