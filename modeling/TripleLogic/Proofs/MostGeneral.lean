/-
TripleLogic.Proofs.MostGeneral — every solution is an instance of what
unification finds.

A valuation gives every variable an expression, which may be a variable too.
It satisfies bindings when it makes each bound variable and what it is bound to
alike, and it equates two tokens when it makes these alike. What it means for
two values to be alike may differ in the two spellings of a variable: any
equivalence will do that is equality on other expressions (`Likeness`).

Unification commits to no more than its equations ask for: a valuation that
satisfies the bindings and equates the sides of an equation also satisfies the
bindings that solving the equation makes (`exprs_complete`). So a run cannot
fail while there is a solution, and solutions go through its outcome
(`solve_complete`).

Main statement: `unifyWith_mostGeneral`.
-/
import TripleLogic.Proofs.Solving

namespace TripleLogic

/-! ## Valuations -/

/-- What it means for the values of variables to be alike: an equivalence that
is equality on expressions that are no variables. -/
structure Likeness where
  alike : Expr → Expr → Prop
  equivalence : Equivalence alike
  alike_iff_same : ∀ {a b}, a.varName? = none → b.varName? = none →
    (alike a b ↔ a.same b = true)

namespace Likeness

/-- Values are alike when they are equal. -/
def equal : Likeness where
  alike a b := a.same b = true
  equivalence := ⟨Expr.same_refl, Expr.same_symm, Expr.same_trans⟩
  alike_iff_same _ _ := Iff.rfl

/-- Values are alike when they are equal up to the spelling of a variable. -/
def upToSpelling : Likeness where
  alike a b := a.meets b = true
  equivalence := ⟨Expr.meets_refl, Expr.meets_symm, Expr.meets_trans⟩
  alike_iff_same ha _ := Expr.meets_of_not_variable ha

end Likeness

/-- Values for the names of variables. -/
abbrev Valuation := String → Expr

/-- An expression with the value of the variable in place of it. -/
def Expr.under (σ : Valuation) (e : Expr) : Expr :=
  match e.varName? with
  | none => e
  | some v => σ v

namespace Valuation

/-- A valuation makes bound variables and what they are bound to alike. -/
def Satisfies (σ : Valuation) (L : Likeness) (θ : Bindings) : Prop :=
  ∀ v e, isVariableName v = true → θ.get? v = some e → L.alike (σ v) (e.under σ)

/-- A valuation makes the sides of equations alike. -/
def Equates (σ : Valuation) (L : Likeness) (ps : List Equation) : Prop :=
  ∀ p ∈ ps, L.alike (p.1.under σ) (p.2.under σ)

end Valuation

theorem Expr.under_of_variable {e : Expr} {v : String} (h : e.varName? = some v) (σ : Valuation) :
    e.under σ = σ v := by
  simp [under, h]

theorem Expr.under_of_not_variable {e : Expr} (h : e.varName? = none) (σ : Valuation) :
    e.under σ = e := by
  simp [under, h]

section

variable {L : Likeness} {σ : Valuation} {θ : Bindings}

namespace Valuation.Satisfies

/-- An expression is like its final value. -/
theorem alike_resolve (h : σ.Satisfies L θ) (hθ : θ.Acyclic) (e : Expr) :
    L.alike (e.under σ) ((θ.resolve e).under σ) := by
  induction e using Bindings.resolve_induct hθ with
  | final e hfinal =>
      cases hv : e.varName? with
      | none =>
          rw [Bindings.resolve_of_not_variable hv]
          exact L.equivalence.refl _
      | some v =>
          rw [Bindings.resolve_of_unbound hv (hfinal v hv)]
          exact L.equivalence.refl _
  | bound e v f hv hf ih =>
      rw [Bindings.resolve_of_bound hθ hv hf, Expr.under_of_variable hv]
      exact L.equivalence.trans (h v f (Expr.isVariableName_of_varName? hv) hf) ih

/-- A variable that is not bound may be bound to what is like it. -/
theorem set (h : σ.Satisfies L θ) {v : String} (hv : θ.get? v = none) {e : Expr}
    (he : L.alike (σ v) (e.under σ)) : σ.Satisfies L (θ.set v e) := by
  intro w f hw hf
  rw [Bindings.get?_set hv] at hf
  split at hf
  · next hwv =>
      cases hf
      exact hwv ▸ he
  · exact h w f hw hf

end Valuation.Satisfies

/-! ## Steps and runs -/

namespace Unify

/-- Solving an equation neither fails nor commits to more than the equation
asks for, if it has a solution. -/
theorem exprs_complete (hθ : θ.Acyclic) (hσ : σ.Satisfies L θ) {a b : Expr}
    (h : L.alike (a.under σ) (b.under σ)) :
    ∃ θ', exprs a b θ = some θ' ∧ σ.Satisfies L θ' := by
  have hfree := fun e v => Bindings.get?_eq_none_of_resolve hθ e v
  have hfinal : L.alike ((θ.resolve a).under σ) ((θ.resolve b).under σ) :=
    L.equivalence.trans (L.equivalence.symm (hσ.alike_resolve hθ a))
      (L.equivalence.trans h (hσ.alike_resolve hθ b))
  cases ha : (θ.resolve a).varName? with
  | some v =>
      rw [Expr.under_of_variable ha] at hfinal
      by_cases hb : (θ.resolve b).varName? = some v
      · exact ⟨θ, by simp [exprs, ha, hb], hσ⟩
      · refine ⟨θ.set v (θ.resolve b), ?_, hσ.set (hfree a v ha) hfinal⟩
        cases hw : (θ.resolve b).varName? with
        | none => simp [exprs, ha, hw]
        | some w =>
            have hvw : v ≠ w := fun hvw => hb (hvw ▸ hw)
            simp [exprs, ha, hw, hvw]
  | none =>
      cases hb : (θ.resolve b).varName? with
      | some w =>
          rw [Expr.under_of_variable hb] at hfinal
          exact ⟨θ.set w (θ.resolve a), by simp [exprs, ha, hb],
            hσ.set (hfree b w hb) (L.equivalence.symm hfinal)⟩
      | none =>
          rw [Expr.under_of_not_variable ha, Expr.under_of_not_variable hb] at hfinal
          have hs := (L.alike_iff_same ha hb).1 hfinal
          exact ⟨θ, by simp [exprs, ha, hb, hs], hσ⟩

/-- Solving equations neither fails nor commits to more than they ask for, if
they have a solution. -/
theorem solve_complete (ps : List Equation) : ∀ {θ : Bindings}, θ.Acyclic → σ.Satisfies L θ →
    σ.Equates L ps → ∃ θ', solve ps θ = some θ' ∧ σ.Satisfies L θ' := by
  induction ps with
  | nil => exact fun {θ} _ hσ _ => ⟨θ, rfl, hσ⟩
  | cons p ps ih =>
      intro θ hθ hσ hps
      obtain ⟨hp, hps⟩ := List.forall_mem_cons.1 hps
      obtain ⟨θ', h₁, hσ'⟩ := exprs_complete hθ hσ hp
      obtain ⟨θ'', h₂, hσ''⟩ := ih (exprs_sound p.1 p.2 θ θ' hθ h₁).1 hσ' hps
      exact ⟨θ'', Option.bind_eq_some_iff.2 ⟨θ', h₁, h₂⟩, hσ''⟩

end Unify

end

/-! ## What unification finds is most general -/

/-- **Unification is complete and most general.** Nodes that are not parallel
do not unify. Parallel nodes do, from bindings without cycles, if any valuation
satisfies these and makes the tokens at corresponding places alike; and each
such valuation factors through what unification finds: it satisfies those
bindings, and makes every expression like its final value. -/
theorem Node.unifyWith_mostGeneral (L : Likeness) (a b : Node) (θ₀ : Bindings) :
    (a.parallel b = false → a.unifyWith b θ₀ = none) ∧
      (a.parallel b = true → θ₀.Acyclic → ∀ σ : Valuation, σ.Satisfies L θ₀ →
        σ.Equates L (a.equations b) →
        ∃ θ, a.unifyWith b θ₀ = some θ ∧ σ.Satisfies L θ ∧
          ∀ e, L.alike (e.under σ) ((θ.resolve e).under σ)) := by
  simp only [unifyWith, Unify.nodes_eq_solve]
  constructor
  · intro h
    rw [h]
    rfl
  · intro h hθ₀ σ hσ hps
    obtain ⟨θ, hθ, hσθ⟩ := Unify.solve_complete (a.equations b) hθ₀ hσ hps
    have hacyclic := (Unify.solve_extends _ hθ₀ hθ).1
    exact ⟨θ, Unify.solveIf_eq_some.2 ⟨h, hθ⟩, hσθ, hσθ.alike_resolve hacyclic⟩

/-- Two acquaintances unify when one person can be all of them; an acquaintance
and a node of another form do not. -/
theorem acquaintance_unifyWith_mostGeneral :
    let a := acquaintance (.concept "?X") (.identifier "?Y")
    let b := acquaintance (.identifier "?Z") (.concept "Bob")
    let θ₀ : Bindings := [("?Y", .concept "?Z")]
    let σ : Valuation := fun _ => .concept "Bob"
    (a.parallel a.negate = false ∧ a.unifyWith a.negate θ₀ = none) ∧
      a.parallel b = true ∧ θ₀.Acyclic ∧ σ.Satisfies .equal θ₀ ∧ σ.Equates .equal (a.equations b) ∧
      ∃ θ, a.unifyWith b θ₀ = some θ ∧ σ.Satisfies .equal θ ∧
        ∀ e, Likeness.equal.alike (e.under σ) ((θ.resolve e).under σ) := by
  intro a b θ₀ σ
  have hσ : σ.Satisfies .equal θ₀ := fun v e _ he => by
    rw [Bindings.get?_cons] at he
    split at he
    · cases he
      exact Expr.same_refl _
    · cases he
  have hps : σ.Equates .equal (a.equations b) := by
    have heq : a.equations b = [(.concept "?X", .identifier "?Z"),
        (.identifier "knows", .identifier "knows"), (.identifier "?Y", .concept "Bob")] := by
      with_unfolding_all rfl
    rw [heq]
    simp only [Valuation.Equates, List.forall_mem_cons]
    exact ⟨rfl, rfl, rfl, fun p hp => by cases hp⟩
  have hform : a.parallel b = true := by with_unfolding_all rfl
  exact ⟨⟨rfl, (Node.unifyWith_mostGeneral .equal a a.negate θ₀).1 rfl⟩, hform, acyclic_chain, hσ,
    hps, (Node.unifyWith_mostGeneral .equal a b θ₀).2 hform acyclic_chain σ hσ hps⟩

end TripleLogic
