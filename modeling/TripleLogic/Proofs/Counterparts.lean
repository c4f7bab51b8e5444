/-
TripleLogic.Proofs.Counterparts — the parts of two nodes that correspond.

Two nodes of one form have statements and edges at the same places.
`Node.counterparts` lists them in pairs, in the order in which unification
comes upon them, so that what holds of two statements and of two edges need not
be carried through the forms of nodes again. An attribute that only one of two
statements has is without a partner (`unpaired`).

Main statements: the equations of two nodes are those of their counterparts
(`equations_eq_flatMap`), and the counterparts of instances are the instances
of the counterparts (`counterparts_subst`).
-/
import Mathlib.Data.List.Zip
import TripleLogic.Proofs.Publication
import TripleLogic.Proofs.Equations

namespace TripleLogic

/-! ## Attributes -/

namespace Attributes

/-- What only one of two lists of attributes has under a key. -/
def unpairedAt (a b : Attributes) (k : String) : Option Expr :=
  match a.get? k, b.get? k with
  | some x, none => some x
  | none, some y => some y
  | _, _ => none

/-- The values under the keys that only one of two lists of attributes has. -/
def unpaired (a b : Attributes) : List Expr :=
  (keys a b).filterMap (unpairedAt a b)

theorem parallel_eq_all (a b : Attributes) :
    a.parallel b = (a.unpaired b).all Expr.isVariable := by
  rw [parallel, unpaired, List.all_filterMap]
  refine congrArg (List.all _) (funext fun k => ?_)
  unfold parallelAt unpairedAt
  cases a.get? k <;> cases b.get? k <;> rfl

section

variable (f : Expr → Expr) (a b : Attributes)

theorem keys_map : keys (a.map fun x => (x.1, f x.2)) (b.map fun x => (x.1, f x.2)) = keys a b := by
  simp only [keys, List.map_append, List.map_map, Function.comp_def]

/-- The equations of attributes go along with their values. -/
theorem equations_map : equations (a.map fun x => (x.1, f x.2)) (b.map fun x => (x.1, f x.2))
    = (a.equations b).map (Prod.map f f) := by
  rw [equations, equations, keys_map, List.map_filterMap]
  refine congrArg (List.filterMap · _) (funext fun k => ?_)
  unfold equationAt
  rw [get?_map, get?_map]
  cases a.get? k <;> cases b.get? k <;> rfl

/-- The values without a partner go along with the others. -/
theorem unpaired_map : unpaired (a.map fun x => (x.1, f x.2)) (b.map fun x => (x.1, f x.2))
    = (a.unpaired b).map f := by
  rw [unpaired, unpaired, keys_map, List.map_filterMap]
  refine congrArg (List.filterMap · _) (funext fun k => ?_)
  unfold unpairedAt
  rw [get?_map, get?_map]
  cases a.get? k <;> cases b.get? k <;> rfl

end

end Attributes

/-! ## Statements and edges -/

/-- Two statements or two edges that stand at one place of two nodes. -/
inductive Counterparts where
  | statements (s t : Statement)
  | edges (e f : Edge)

namespace Counterparts

/-- The corresponding tokens of two counterparts. -/
def equations : Counterparts → List Equation
  | .statements s t => s.equations t
  | .edges e f => e.equations f

/-- The corresponding names of two counterparts. -/
def names : Counterparts → List (String × String)
  | .statements s t => [(s.relation.name, t.relation.name)]
  | .edges e f => [(e.source, f.source), (e.target, f.target), (e.name, f.name)]

/-- The attributes without a partner. -/
def unpaired : Counterparts → List Expr
  | .statements s t => s.attributes.unpaired t.attributes
  | .edges _ _ => []

/-- Replace variables in both counterparts. -/
def subst (θ : Bindings) : Counterparts → Counterparts
  | .statements s t => .statements (s.subst θ) (t.subst θ)
  | .edges e f => .edges (e.subst θ) (f.subst θ)

/-- Counterparts the other way round. -/
def swap : Counterparts → Counterparts
  | .statements s t => .statements t s
  | .edges e f => .edges f e

end Counterparts

/-! ## Nodes -/

namespace Node

mutual

/-- The statements and edges at corresponding places of two nodes. -/
def counterparts : Node → Node → List Counterparts
  | .intent i, .intent j => (i.statements.zip j.statements).map fun p => .statements p.1 p.2
  | .compound _ a b, .compound _ c d => counterpartsOfOperands a c ++ counterpartsOfOperands b d
  | .quantified _ _ a _, .quantified _ _ b _ => counterparts a b
  | .rule _ a b _ _ _, .rule _ c d _ _ _ => counterparts a c ++ counterparts b d
  | .edge e, .edge f => [.edges e f]
  | _, _ => []

/-- The statements and edges at corresponding places of two operands. -/
def counterpartsOfOperands : Option Node → Option Node → List Counterparts
  | some a, some b => counterparts a b
  | _, _ => []

end

/-- The corresponding names of two nodes: those of relations and of edges. -/
def namePairs (a b : Node) : List (String × String) :=
  (a.counterparts b).flatMap Counterparts.names

/-- The attributes of two nodes that only one of two corresponding statements has. -/
def unpaired (a b : Node) : List Expr :=
  (a.counterparts b).flatMap Counterparts.unpaired

/-- The equations of two nodes are those of their counterparts. -/
theorem equations_eq_flatMap (a b : Node) :
    a.equations b = (a.counterparts b).flatMap Counterparts.equations := by
  induction a, b using ind₂ (Q := fun a b => equationsOfOperands a b
    = (counterpartsOfOperands a b).flatMap Counterparts.equations) with
  | absent b => rfl
  | lacking a => cases a <;> rfl
  | present m n ih => exact ih
  | intent i j =>
      simp only [equations, Statement.equationsAll, counterparts, List.flatMap_map]
      rfl
  | compound o p a b c d hab hcd =>
      rw [equations, counterparts, List.flatMap_append, hab, hcd]
  | quantified q r v w a b d e ih => exact ih
  | rule i j a b c k d e x y f g hab hck =>
      rw [equations, counterparts, List.flatMap_append, hab, hck]
  | edge e f => exact (List.append_nil _).symm
  | apart a b h => cases a <;> cases b <;> first | rfl | exact absurd rfl h

/-- The counterparts of instances are the instances of the counterparts. -/
theorem counterparts_subst (θ : Bindings) (a b : Node) :
    (a.subst θ).counterparts (b.subst θ) = (a.counterparts b).map (Counterparts.subst θ) := by
  induction a, b using ind₂ (Q := fun a b =>
    counterpartsOfOperands (substOperand θ a) (substOperand θ b)
      = (counterpartsOfOperands a b).map (Counterparts.subst θ)) with
  | absent b => rfl
  | lacking a => cases a <;> rfl
  | present m n ih => exact ih
  | intent i j =>
      simp only [subst, counterparts, List.zip_map, List.map_map]
      rfl
  | compound o p a b c d hab hcd => simp only [subst, counterparts, List.map_append, hab, hcd]
  | quantified q r v w a b d e ih => exact ih
  | rule i j a b c k d e x y f g hab hck =>
      simp only [subst, counterparts, List.map_append, hab, hck]
  | edge e f => rfl
  | apart a b h => cases a <;> cases b <;> first | rfl | exact absurd rfl h

/-- The counterparts of two nodes the other way round. -/
theorem counterparts_swap (a b : Node) :
    b.counterparts a = (a.counterparts b).map Counterparts.swap := by
  induction a, b using ind₂ (Q := fun a b =>
    counterpartsOfOperands b a = (counterpartsOfOperands a b).map Counterparts.swap) with
  | absent b => cases b <;> rfl
  | lacking a => cases a <;> rfl
  | present m n ih => exact ih
  | intent i j =>
      rw [counterparts, counterparts, ← List.zip_swap, List.map_map, List.map_map]
      rfl
  | compound o p a b c d hab hcd => simp only [counterparts, List.map_append, hab, hcd]
  | quantified q r v w a b d e ih => exact ih
  | rule i j a b c k d e x y f g hab hck => simp only [counterparts, List.map_append, hab, hck]
  | edge e f => rfl
  | apart a b h => cases a <;> cases b <;> first | rfl | exact absurd rfl h

end Node

end TripleLogic
