/-
TripleLogic.Substitution — replacing bound variables throughout a node.

Expressions are replaced by the final values of variables; a name that is a
bound variable is replaced by the text of its final value. Variables inside
terms are not looked into, and quantifiers do not shield their variables.
-/
import TripleLogic.Bindings
import TripleLogic.Node.Basic

namespace TripleLogic

/-- Replace a variable by its final value. -/
def Expr.subst (θ : Bindings) (e : Expr) : Expr :=
  θ.resolve e

/-- Replace a name that is a bound variable by the text of its final value. -/
def substName (θ : Bindings) (name : String) : String :=
  if isVariableName name && (θ.get? name).isSome then (θ.resolve (.identifier name)).text
  else name

/-- Replace variables in a statement. -/
def Statement.subst (θ : Bindings) (s : Statement) : Statement :=
  { subject := s.subject.subst θ
    relation := { s.relation with name := substName θ s.relation.name }
    object := s.object.subst θ
    attributes := s.attributes.map fun a => (a.1, a.2.subst θ) }

/-- Replace variables in an edge. -/
def Edge.subst (θ : Bindings) (e : Edge) : Edge :=
  { e with source := substName θ e.source, target := substName θ e.target,
           name := substName θ e.name }

namespace Node

mutual

/-- Replace variables throughout a node. -/
def subst (θ : Bindings) : Node → Node
  | .intent i => .intent { i with statements := i.statements.map (Statement.subst θ) }
  | .compound o a b => .compound o (substOperand θ a) (substOperand θ b)
  | .quantified q v a d => .quantified q v (subst θ a) d
  | .rule i a b d x c => .rule i (subst θ a) (subst θ b) d x c
  | .edge e => .edge (e.subst θ)

/-- Replace variables in an operand. -/
def substOperand (θ : Bindings) : Option Node → Option Node
  | none => none
  | some a => some (subst θ a)

end

end Node

end TripleLogic
