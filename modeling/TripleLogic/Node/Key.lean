/-
TripleLogic.Node.Key — which nodes can be used as keys.

A node is looked up by its value, so it can be a key unless it holds a
composite literal. The first such literal, in the order in which a node is
gone through, is what a misuse of the node as a key is blamed on.
-/
import TripleLogic.Fault
import TripleLogic.Node.Basic

namespace TripleLogic

namespace Expr

mutual

/-- The first composite literal of an expression. -/
def composite? : Expr → Option Data
  | .composite d => some d
  | .unary _ a => composite? a
  | .binary _ a b => composite? a <|> composite? b
  | .application _ as => compositeIn? as
  | .lambda _ a => composite? a
  | _ => none

/-- The first composite literal of a list of expressions. -/
def compositeIn? : List Expr → Option Data
  | [] => none
  | a :: as => composite? a <|> compositeIn? as

end

end Expr

/-- The first composite literal of a statement. -/
def Statement.composite? (s : Statement) : Option Data :=
  s.subject.composite? <|> s.object.composite? <|> Expr.compositeIn? (s.attributes.map Prod.snd)

namespace Node

mutual

/-- The first composite literal of a node. -/
def composite? : Node → Option Data
  | .intent i => i.statements.findSome? Statement.composite?
  | .compound _ a b => compositeOperand? a <|> compositeOperand? b
  | .quantified _ _ a _ => composite? a
  | .rule _ a b _ _ _ => composite? a <|> composite? b
  | .edge _ => none

/-- The first composite literal of an operand that may be missing. -/
def compositeOperand? : Option Node → Option Data
  | none => none
  | some a => composite? a

end

/-- Whether a node can be used as a key. -/
def isKey (n : Node) : Bool :=
  n.composite?.isNone

theorem findSome?_composite?_eq_none {nodes : List Node} :
    nodes.findSome? composite? = none ↔ ∀ n ∈ nodes, n.isKey = true := by
  simp [List.findSome?_eq_none_iff, isKey]

end Node

/-- Refuse a value with parts where a key is wanted. -/
def assertNoComposite : Option Data → Except Fault Unit
  | none => .ok ()
  | some d => .error (.misuse (.notKey d))

/-- Refuse an expression that cannot be used as a key. -/
def Expr.assertKey (e : Expr) : Except Fault Unit :=
  assertNoComposite e.composite?

/-- Refuse a node that cannot be used as a key. -/
def Node.assertKey (n : Node) : Except Fault Unit :=
  assertNoComposite n.composite?

end TripleLogic
