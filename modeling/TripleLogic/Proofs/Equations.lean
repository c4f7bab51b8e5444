/-
TripleLogic.Proofs.Equations — unification as the solution of equations.

Two nodes are parallel when they have one form and differ in tokens only; an
attribute that only one of two statements has must be a variable. The tokens
at corresponding places of parallel nodes are their equations, in the order in
which unification comes upon them.

Main statement: unifying two nodes is solving their equations one after the
other if the nodes are parallel, and fails whatever is bound if they are not
(`nodes_eq_solve`).
-/
import TripleLogic.Proofs.Variables
import TripleLogic.Unification

namespace TripleLogic

/-- Two expressions that have to become one. -/
abbrev Equation := Expr × Expr

/-! ## Corresponding tokens -/

namespace Attributes

/-- The values that two lists of attributes have under one key, if both have one. -/
def equationAt (a b : Attributes) (k : String) : Option Equation :=
  match a.get? k, b.get? k with
  | some x, some y => some (x, y)
  | _, _ => none

/-- Whether what only one of two lists of attributes has under a key is a variable. -/
def parallelAt (a b : Attributes) (k : String) : Bool :=
  match a.get? k, b.get? k with
  | some x, none => x.isVariable
  | none, some y => y.isVariable
  | _, _ => true

/-- The values that two lists of attributes have under their common keys. -/
def equations (a b : Attributes) : List Equation :=
  (keys a b).filterMap (equationAt a b)

/-- Whether the attributes that only one of two lists has are variables. -/
def parallel (a b : Attributes) : Bool :=
  (keys a b).all (parallelAt a b)

theorem equationAt_eq_some {a b : Attributes} {k : String} {p : Equation} :
    equationAt a b k = some p ↔ a.get? k = some p.1 ∧ b.get? k = some p.2 := by
  unfold equationAt
  cases a.get? k <;> cases b.get? k <;> simp [Prod.ext_iff]

end Attributes

namespace Statement

/-- Whether two statements differ in tokens only. -/
def parallel (s t : Statement) : Bool :=
  s.attributes.parallel t.attributes

/-- The corresponding tokens of two statements. -/
def equations (s t : Statement) : List Equation :=
  (s.subject, t.subject) :: (.identifier s.relation.name, .identifier t.relation.name)
    :: (s.object, t.object) :: s.attributes.equations t.attributes

/-- Whether two lists of statements are of one length and differ in tokens only. -/
def parallelAll (ss ts : List Statement) : Bool :=
  ss.length == ts.length && (ss.zip ts).all fun p => p.1.parallel p.2

/-- The corresponding tokens of two lists of statements. -/
def equationsAll (ss ts : List Statement) : List Equation :=
  (ss.zip ts).flatMap fun p => p.1.equations p.2

end Statement

/-- The corresponding names of two edges. -/
def Edge.equations (e f : Edge) : List Equation :=
  [(.identifier e.source, .identifier f.source), (.identifier e.target, .identifier f.target),
   (.identifier e.name, .identifier f.name)]

namespace Node

mutual

/-- Whether two nodes have one form and differ in tokens only. -/
def parallel : Node → Node → Bool
  | .intent i, .intent j => i.kind == j.kind && Statement.parallelAll i.statements j.statements
  | .compound o a b, .compound p c d => o == p && parallelOperands a c && parallelOperands b d
  | .quantified q v a d, .quantified r w b e => q == r && v == w && d == e && parallel a b
  | .rule i a b _ x _, .rule j c d _ y _ => i == j && x == y && parallel a c && parallel b d
  | .edge e, .edge f => e.kind == f.kind
  | _, _ => false

/-- Whether two operands are both missing, or have one form. -/
def parallelOperands : Option Node → Option Node → Bool
  | none, none => true
  | some a, some b => parallel a b
  | _, _ => false

end

mutual

/-- The corresponding tokens of two nodes of one form. -/
def equations : Node → Node → List Equation
  | .intent i, .intent j => Statement.equationsAll i.statements j.statements
  | .compound _ a b, .compound _ c d => equationsOfOperands a c ++ equationsOfOperands b d
  | .quantified _ _ a _, .quantified _ _ b _ => equations a b
  | .rule _ a b _ _ _, .rule _ c d _ _ _ => equations a c ++ equations b d
  | .edge e, .edge f => e.equations f
  | _, _ => []

/-- The corresponding tokens of two operands. -/
def equationsOfOperands : Option Node → Option Node → List Equation
  | some a, some b => equations a b
  | _, _ => []

end

end Node

/-! ## Solving equations -/

namespace Unify

/-- Unify the two sides of each equation, in order. -/
def solve : List Equation → Bindings → Option Bindings
  | [], θ => some θ
  | p :: ps, θ => (exprs p.1 p.2 θ).bind (solve ps)

theorem solve_singleton (p : Equation) (θ : Bindings) : solve [p] θ = exprs p.1 p.2 θ :=
  Option.bind_fun_some _

theorem solve_append (ps qs : List Equation) (θ : Bindings) :
    solve (ps ++ qs) θ = (solve ps θ).bind (solve qs) := by
  induction ps generalizing θ with
  | nil => rfl
  | cons p ps ih =>
      simp only [List.cons_append, solve, Option.bind_assoc]
      exact congrArg _ (funext ih)

/-- Solve equations on a condition. -/
def solveIf (c : Bool) (ps : List Equation) (θ : Bindings) : Option Bindings :=
  if c then solve ps θ else none

theorem solveIf_eq_some {c : Bool} {ps : List Equation} {θ θ' : Bindings} :
    solveIf c ps θ = some θ' ↔ c = true ∧ solve ps θ = some θ' := by
  cases c <;> simp [solveIf]

/-- Conditions on equations that are solved in turn are conditions on all. -/
theorem solveIf_bind (c d : Bool) (ps qs : List Equation) (θ : Bindings) :
    (solveIf c ps θ).bind (solveIf d qs) = solveIf (c && d) (ps ++ qs) θ := by
  cases c with
  | false => rfl
  | true =>
      cases d with
      | false => exact Option.bind_fun_none _
      | true => exact (solve_append ps qs θ).symm

/-- A condition on a condition. -/
theorem ite_solveIf (c d : Bool) (ps : List Equation) (θ : Bindings) :
    (if c then solveIf d ps θ else none) = solveIf (c && d) ps θ := by
  cases c <;> rfl

/-! ## Unification solves equations -/

theorem valuesAt_eq_solve (a b : Attributes) (k : String) (θ : Bindings) :
    valuesAt (a.get? k) (b.get? k) θ
      = solveIf (a.parallelAt b k) (a.equationAt b k).toList θ := by
  unfold Attributes.parallelAt Attributes.equationAt
  cases a.get? k with
  | none => cases b.get? k <;> rfl
  | some x =>
      cases b.get? k with
      | none => rfl
      | some y => exact (solve_singleton (x, y) θ).symm

theorem attributes_eq_solve (a b : Attributes) (ks : List String) (θ : Bindings) :
    attributes a b ks θ
      = solveIf (ks.all (a.parallelAt b)) (ks.filterMap (a.equationAt b)) θ := by
  induction ks generalizing θ with
  | nil => rfl
  | cons k ks ih =>
      have hcons : (k :: ks).filterMap (a.equationAt b)
          = (a.equationAt b k).toList ++ ks.filterMap (a.equationAt b) := by
        cases h : a.equationAt b k <;> simp [h]
      rw [attributes, valuesAt_eq_solve, List.all_cons, hcons, ← solveIf_bind]
      exact congrArg _ (funext ih)

theorem statements_eq_solve (s t : Statement) (θ : Bindings) :
    statements s t θ = solveIf (s.parallel t) (s.equations t) θ := by
  have hattr : attributes s.attributes t.attributes (s.attributes.keys t.attributes)
      = solveIf (s.parallel t) (s.attributes.equations t.attributes) :=
    funext (attributes_eq_solve _ _ _)
  rw [statements, hattr]
  cases h : s.parallel t with
  | false => simp [solveIf]
  | true => rfl

theorem statementLists_eq_solve : ∀ (ss ts : List Statement) (θ : Bindings),
    statementLists ss ts θ
      = solveIf (Statement.parallelAll ss ts) (Statement.equationsAll ss ts) θ
  | [], [], _ => rfl
  | [], _ :: _, _ => rfl
  | _ :: _, [], _ => rfl
  | s :: ss, t :: ts, θ => by
      have hparallel : Statement.parallelAll (s :: ss) (t :: ts)
          = (s.parallel t && Statement.parallelAll ss ts) := by
        simp [Statement.parallelAll, Bool.and_left_comm]
      have ih := funext (statementLists_eq_solve ss ts)
      rw [statementLists, statements_eq_solve, hparallel]
      exact (congrArg _ ih).trans (solveIf_bind _ _ _ _ θ)

theorem edges_eq_solve (e f : Edge) (θ : Bindings) :
    edges e f θ = solveIf (e.kind == f.kind) (e.equations f) θ := by
  have hname : names e.name f.name = solve [(.identifier e.name, .identifier f.name)] :=
    funext fun θ => (solve_singleton (.identifier e.name, .identifier f.name) θ).symm
  rw [edges, hname]
  rfl

/-- **Unification solves equations**: those between the tokens of parallel
nodes. Nodes that are not parallel do not unify. -/
theorem nodes_eq_solve (a b : Node) :
    nodes a b = solveIf (a.parallel b) (a.equations b) := by
  induction a, b using Node.ind₂ (Q := fun a b => operands a b
    = solveIf (Node.parallelOperands a b) (Node.equationsOfOperands a b)) with
  | absent b => cases b <;> rfl
  | lacking a => cases a <;> rfl
  | present m n ih => exact ih
  | intent i j =>
      funext θ
      rw [nodes, intents, statementLists_eq_solve, ite_solveIf]
      rfl
  | compound o p a b c d hab hcd =>
      funext θ
      rw [nodes, hab, hcd]
      exact (congrArg (if o == p then · else none) (solveIf_bind _ _ _ _ θ)).trans
        ((ite_solveIf _ _ _ θ).trans (by rw [← Bool.and_assoc]; rfl))
  | quantified q r v w a b d e ih =>
      funext θ
      rw [nodes, ih, ite_solveIf]
      rfl
  | rule i j a b c k d e x y f g hab hck =>
      funext θ
      rw [nodes, hab, hck]
      exact (congrArg (if i == j && x == y then · else none) (solveIf_bind _ _ _ _ θ)).trans
        ((ite_solveIf _ _ _ θ).trans (by rw [← Bool.and_assoc]; rfl))
  | edge e f => exact funext (edges_eq_solve e f)
  | apart a b h =>
      funext θ
      cases a <;> cases b <;> first | rfl | exact absurd rfl h

end Unify

end TripleLogic
