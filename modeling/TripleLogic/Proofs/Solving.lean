/-
TripleLogic.Proofs.Solving — the bindings that unification finds solve its equations.

Equations are solved one after the other, and each step only adds to the
bindings. What a later step binds may change the final values of the sides of
an earlier equation, but both in the same way: under bindings that extend
others, a final value under these has the final value of the expression itself
(`resolve_resolve`). So the sides of every equation have one final value in
the end, up to the two spellings of a variable (`solve_meets`).

A step binds a variable that is a final value, and this one stands in the
equation or something is bound to it (`varName?_resolve`). So a run binds no
variables from elsewhere (`solve_within`).

Main statement: what unification finds keeps all bindings and solves the
equations of the two nodes (`unifyWith_solves`).
-/
import TripleLogic.Proofs.Equations
import TripleLogic.Proofs.Unification

namespace TripleLogic

/-! ## Equality up to the spelling of a variable -/

namespace Expr

/-- Whether two expressions are equal, or are variables of one name. -/
def meets (a b : Expr) : Bool :=
  a.same b || (a.isVariable && a.varName? == b.varName?)

theorem meets_iff {a b : Expr} :
    a.meets b = true ↔
      a.same b = true ∨ ∃ v, a.varName? = some v ∧ b.varName? = some v := by
  cases ha : a.varName? with
  | none => simp [meets, isVariable, ha]
  | some v =>
      simp only [meets, isVariable, ha, Option.isSome_some, Bool.true_and, Bool.or_eq_true,
        beq_iff_eq, Option.some.injEq, exists_eq_left, @eq_comm _ (some v)]

theorem meets_refl (e : Expr) : e.meets e = true :=
  meets_iff.2 (Or.inl (same_refl e))

theorem same_symm {a b : Expr} (h : a.same b = true) : b.same a = true :=
  (same_iff b a).2 ((same_iff a b).1 h).symm

theorem same_trans {a b c : Expr} (h₁ : a.same b = true) (h₂ : b.same c = true) :
    a.same c = true :=
  (same_iff a c).2 (((same_iff a b).1 h₁).trans ((same_iff b c).1 h₂))

/-- Expressions that meet have the same variable, if they are variables. -/
theorem varName?_of_meets {a b : Expr} (h : a.meets b = true) : a.varName? = b.varName? := by
  obtain hs | ⟨v, ha, hb⟩ := meets_iff.1 h
  · exact Unify.varName?_of_same hs
  · rw [ha, hb]

/-- Variables meet when they have one name. -/
theorem meets_of_varName? {a b : Expr} {v : String} (ha : a.varName? = some v)
    (hb : b.varName? = some v) : a.meets b = true :=
  meets_iff.2 (Or.inr ⟨v, ha, hb⟩)

/-- Other expressions meet when they are equal. -/
theorem meets_of_not_variable {a b : Expr} (ha : a.varName? = none) :
    a.meets b = true ↔ a.same b = true := by
  rw [meets_iff]
  refine ⟨?_, Or.inl⟩
  rintro (hs | ⟨v, hv, _⟩)
  · exact hs
  · cases ha.symm.trans hv

theorem meets_symm {a b : Expr} (h : a.meets b = true) : b.meets a = true := by
  obtain hs | ⟨v, ha, hb⟩ := meets_iff.1 h
  · exact meets_iff.2 (Or.inl (same_symm hs))
  · exact meets_of_varName? hb ha

theorem meets_trans {a b c : Expr} (h₁ : a.meets b = true) (h₂ : b.meets c = true) :
    a.meets c = true := by
  have hab := varName?_of_meets h₁
  have hbc := varName?_of_meets h₂
  cases hb : b.varName? with
  | some v => exact meets_of_varName? (hab.trans hb) (hbc.symm.trans hb)
  | none =>
      have ha := hab.trans hb
      exact (meets_of_not_variable ha).2
        (same_trans ((meets_of_not_variable ha).1 h₁) ((meets_of_not_variable hb).1 h₂))

end Expr

/-! ## Final values under more bindings -/

namespace Bindings

/-- Under more bindings, an expression has the final value of its final value
under fewer. -/
theorem resolve_resolve {θ θ' : Bindings} (hθ : θ.Acyclic) (hθ' : θ'.Acyclic)
    (hx : θ.Extends θ') (e : Expr) : θ'.resolve (θ.resolve e) = θ'.resolve e := by
  induction e using resolve_induct hθ with
  | final e hfinal =>
      cases hv : e.varName? with
      | none => rw [resolve_of_not_variable hv]
      | some v => rw [resolve_of_unbound hv (hfinal v hv)]
  | bound e v f hv hf ih =>
      rw [resolve_of_bound hθ hv hf, resolve_of_bound hθ' hv (hx v f hf)]
      exact ih

/-- Expressions that meet have final values that meet. -/
theorem resolve_meets {a b : Expr} (h : a.meets b = true) (θ : Bindings) :
    (θ.resolve a).meets (θ.resolve b) = true := by
  have hab := Expr.varName?_of_meets h
  cases ha : a.varName? with
  | none =>
      rw [resolve_of_not_variable ha, resolve_of_not_variable (hab.symm.trans ha)]
      exact h
  | some v =>
      have hb := hab.symm.trans ha
      cases hf : θ.get? v with
      | none =>
          rw [resolve_of_unbound ha hf, resolve_of_unbound hb hf]
          exact h
      | some f =>
          rw [resolve_of_get? ha hf, resolve_of_get? hb hf]
          exact Expr.meets_refl _

/-- Final values that meet go on to meet under more bindings. -/
theorem Extends.meets {θ θ' : Bindings} (hx : θ.Extends θ') (hθ : θ.Acyclic) (hθ' : θ'.Acyclic)
    {a b : Expr} (h : (θ.resolve a).meets (θ.resolve b) = true) :
    (θ'.resolve a).meets (θ'.resolve b) = true := by
  rw [← resolve_resolve hθ hθ' hx a, ← resolve_resolve hθ hθ' hx b]
  exact resolve_meets h θ'

/-- A variable comes from bindings when something is bound to it. -/
def HasValue (θ : Bindings) (v : String) : Prop :=
  ∃ w e, θ.get? w = some e ∧ e.varName? = some v

/-- A final value that is another variable than the expression comes from the
bindings. -/
theorem varName?_resolve {θ : Bindings} (hθ : θ.Acyclic) (e : Expr) :
    ∀ v, (θ.resolve e).varName? = some v → e.varName? = some v ∨ θ.HasValue v := by
  induction e using resolve_induct hθ with
  | final e hfinal =>
      intro v hv
      cases hw : e.varName? with
      | none =>
          rw [resolve_of_not_variable hw, hw] at hv
          cases hv
      | some w =>
          rw [resolve_of_unbound hw (hfinal w hw), hw] at hv
          exact Or.inl hv
  | bound e w f hw hf ih =>
      intro v hv
      rw [resolve_of_bound hθ hw hf] at hv
      obtain hfv | hval := ih v hv
      · exact Or.inr ⟨w, f, hf, hfv⟩
      · exact Or.inr hval

end Bindings

namespace Unify

/-! ## A solved equation -/

/-- The sides of an equation that has been solved have final values that meet. -/
theorem exprs_meets {a b : Expr} {θ θ' : Bindings} (hθ : θ.Acyclic)
    (h : exprs a b θ = some θ') : (θ'.resolve a).meets (θ'.resolve b) = true := by
  obtain ⟨hθ', hx, _⟩ := exprs_sound a b θ θ' hθ h
  have hfree := fun e v => Bindings.get?_eq_none_of_resolve hθ e v
  have hresolve := Bindings.resolve_resolve hθ hθ' hx
  rcases exprs_cases h with ⟨rfl, v, ha, hb⟩ | ⟨rfl, _, _, hs⟩ | ⟨v, ha, _, rfl⟩ | ⟨v, _, hb, rfl⟩
  · exact Expr.meets_of_varName? ha hb
  · exact Expr.meets_iff.2 (Or.inl hs)
  · have hset := Bindings.get?_set (hfree a v ha) (θ.resolve b) v
    rw [if_pos rfl] at hset
    rw [← hresolve a, Bindings.resolve_of_bound hθ' ha hset, hresolve b]
    exact Expr.meets_refl _
  · have hset := Bindings.get?_set (hfree b v hb) (θ.resolve a) v
    rw [if_pos rfl] at hset
    rw [← hresolve b, Bindings.resolve_of_bound hθ' hb hset, hresolve a]
    exact Expr.meets_refl _

/-- An equation that is solved already is solved with nothing more to bind. -/
theorem exprs_of_meets {a b : Expr} {θ : Bindings}
    (h : (θ.resolve a).meets (θ.resolve b) = true) : exprs a b θ = some θ := by
  have hab := Expr.varName?_of_meets h
  cases ha : (θ.resolve a).varName? with
  | some v => simp [exprs, ha, hab.symm.trans ha]
  | none =>
      have hs := (Expr.meets_of_not_variable ha).1 h
      simp [exprs, ha, hab.symm.trans ha, hs]

/-- Solving an equation binds the variable of a final value to a final value. -/
theorem get?_of_exprs {a b : Expr} {θ θ' : Bindings} (hθ : θ.Acyclic)
    (h : exprs a b θ = some θ') {v : String} {e : Expr} (he : θ'.get? v = some e) :
    θ.get? v = some e ∨
      ((θ.resolve a).varName? = some v ∧ e = θ.resolve b) ∨
      ((θ.resolve b).varName? = some v ∧ e = θ.resolve a) := by
  have hfree := fun e v => Bindings.get?_eq_none_of_resolve hθ e v
  rcases exprs_cases h with ⟨rfl, _⟩ | ⟨rfl, _⟩ | ⟨w, ha, _, rfl⟩ | ⟨w, _, hb, rfl⟩
  · exact Or.inl he
  · exact Or.inl he
  · rw [Bindings.get?_set (hfree a w ha)] at he
    split at he
    · next hvw =>
        subst hvw
        exact Or.inr (Or.inl ⟨ha, (Option.some.inj he).symm⟩)
    · exact Or.inl he
  · rw [Bindings.get?_set (hfree b w hb)] at he
    split at he
    · next hvw =>
        subst hvw
        exact Or.inr (Or.inr ⟨hb, (Option.some.inj he).symm⟩)
    · exact Or.inl he

/-! ## A run -/

/-- Solving keeps bindings and their freedom from cycles. -/
theorem solve_extends (ps : List Equation) : ∀ {θ θ' : Bindings}, θ.Acyclic →
    solve ps θ = some θ' → θ'.Acyclic ∧ θ.Extends θ' := by
  induction ps with
  | nil =>
      intro θ θ' hθ h
      cases h
      exact ⟨hθ, .refl _⟩
  | cons p ps ih =>
      intro θ θ'' hθ h
      obtain ⟨θ', h₁, h₂⟩ := Option.bind_eq_some_iff.1 h
      obtain ⟨hθ', hx, _⟩ := exprs_sound p.1 p.2 θ θ' hθ h₁
      obtain ⟨hθ'', hx'⟩ := ih hθ' h₂
      exact ⟨hθ'', hx.trans hx'⟩

/-- In the end the sides of every equation have final values that meet. -/
theorem solve_meets (ps : List Equation) : ∀ {θ θ' : Bindings}, θ.Acyclic →
    solve ps θ = some θ' → ∀ p ∈ ps, (θ'.resolve p.1).meets (θ'.resolve p.2) = true := by
  induction ps with
  | nil => exact fun _ _ => nofun
  | cons p ps ih =>
      intro θ θ'' hθ h
      obtain ⟨θ', h₁, h₂⟩ := Option.bind_eq_some_iff.1 h
      have hθ' := (exprs_sound p.1 p.2 θ θ' hθ h₁).1
      obtain ⟨hθ'', hx⟩ := solve_extends ps hθ' h₂
      exact List.forall_mem_cons.2 ⟨hx.meets hθ' hθ'' (exprs_meets hθ h₁), ih hθ' h₂⟩

/-- If a set of variables has those of the equations and those that something
is bound to, then solving binds no other variable, and to no other. -/
theorem solve_within {V : String → Prop} (ps : List Equation) : ∀ {θ θ' : Bindings},
    (∀ p ∈ ps, ∀ v, p.1.varName? = some v ∨ p.2.varName? = some v → V v) →
    (∀ v, θ.HasValue v → V v) → θ.Acyclic → solve ps θ = some θ' →
    ∀ v e, θ'.get? v = some e → θ.get? v = some e ∨ V v := by
  induction ps with
  | nil =>
      intro θ θ' _ _ _ h v e he
      cases h
      exact Or.inl he
  | cons p ps ih =>
      intro θ θ'' hps hval hθ h v e he
      obtain ⟨hp, hps⟩ := List.forall_mem_cons.1 hps
      obtain ⟨θ', h₁, h₂⟩ := Option.bind_eq_some_iff.1 h
      -- The variables of the two final values are in the set.
      have hfirst : ∀ v, (θ.resolve p.1).varName? = some v → V v := fun v hv =>
        (Bindings.varName?_resolve hθ p.1 v hv).elim (fun h => hp v (Or.inl h)) (hval v)
      have hsecond : ∀ v, (θ.resolve p.2).varName? = some v → V v := fun v hv =>
        (Bindings.varName?_resolve hθ p.2 v hv).elim (fun h => hp v (Or.inr h)) (hval v)
      have hval' : ∀ v, θ'.HasValue v → V v := by
        rintro v ⟨w, f, hf, hfv⟩
        rcases get?_of_exprs hθ h₁ hf with hold | ⟨_, rfl⟩ | ⟨_, rfl⟩
        · exact hval v ⟨w, f, hold, hfv⟩
        · exact hsecond v hfv
        · exact hfirst v hfv
      obtain hold | hv := ih hps hval' (exprs_sound p.1 p.2 θ θ' hθ h₁).1 h₂ v e he
      · rcases get?_of_exprs hθ h₁ hold with hold | ⟨hv, _⟩ | ⟨hv, _⟩
        · exact Or.inl hold
        · exact Or.inr (hfirst v hv)
        · exact Or.inr (hsecond v hv)
      · exact Or.inr hv

end Unify

/-! ## Where the variables come from -/

theorem Attributes.vars_of_equations {a b : Attributes} {p : Equation} (hp : p ∈ a.equations b) :
    p.1.vars ⊆ (a.flatMap fun x => x.2.vars) ∧ p.2.vars ⊆ (b.flatMap fun x => x.2.vars) := by
  obtain ⟨k, _, hk⟩ := List.mem_filterMap.1 hp
  obtain ⟨ha, hb⟩ := equationAt_eq_some.1 hk
  have hmem : ∀ {a : Attributes} {e : Expr}, a.get? k = some e →
      e.vars ⊆ (a.flatMap fun x => x.2.vars) :=
    fun he v hv => List.mem_flatMap.2 ⟨(k, _), mem_of_get? he, hv⟩
  exact ⟨hmem ha, hmem hb⟩

theorem nameVars_eq_vars (name : String) : nameVars name = (Expr.identifier name).vars := by
  cases h : isVariableName name <;> simp [nameVars, Expr.vars, Expr.varName?, h]

theorem Statement.vars_of_equations {s t : Statement} {p : Equation} (hp : p ∈ s.equations t) :
    p.1.vars ⊆ s.vars ∧ p.2.vars ⊆ t.vars := by
  simp only [equations, List.mem_cons] at hp
  simp only [vars, termVars, sideVars, nameVars_eq_vars, List.subset_def, List.mem_append]
  rcases hp with rfl | rfl | rfl | hp
  · exact ⟨fun hv => Or.inl (Or.inl hv), fun hv => Or.inl (Or.inl hv)⟩
  · exact ⟨fun hv => Or.inr (Or.inl hv), fun hv => Or.inr (Or.inl hv)⟩
  · exact ⟨fun hv => Or.inl (Or.inr hv), fun hv => Or.inl (Or.inr hv)⟩
  · obtain ⟨hs, ht⟩ := Attributes.vars_of_equations hp
    exact ⟨fun hv => Or.inr (Or.inr (hs hv)), fun hv => Or.inr (Or.inr (ht hv))⟩

theorem Edge.vars_of_equations {e f : Edge} {p : Equation} (hp : p ∈ e.equations f) :
    p.1.vars ⊆ e.vars ∧ p.2.vars ⊆ f.vars := by
  simp only [equations, List.mem_cons, List.not_mem_nil, or_false] at hp
  simp only [vars, nameVars_eq_vars, List.subset_def, List.mem_append]
  rcases hp with rfl | rfl | rfl
  · exact ⟨fun hv => Or.inl (Or.inl hv), fun hv => Or.inl (Or.inl hv)⟩
  · exact ⟨fun hv => Or.inl (Or.inr hv), fun hv => Or.inl (Or.inr hv)⟩
  · exact ⟨Or.inr, Or.inr⟩

namespace Node

theorem vars_of_equationsOfOperands {a b : Option Node} {p : Equation}
    (h : ∀ m, a = some m → ∀ {n : Node}, p ∈ m.equations n → p.1.vars ⊆ m.vars ∧ p.2.vars ⊆ n.vars)
    (hp : p ∈ equationsOfOperands a b) :
    p.1.vars ⊆ collectOperand Statement.vars Edge.vars a ∧
      p.2.vars ⊆ collectOperand Statement.vars Edge.vars b := by
  cases a with
  | none => cases hp
  | some m =>
      cases b with
      | none => cases hp
      | some n => exact h m rfl hp

/-- The variables of the equations between two nodes are variables of the
nodes. -/
theorem vars_of_equations {a b : Node} {p : Equation} (hp : p ∈ a.equations b) :
    p.1.vars ⊆ a.vars ∧ p.2.vars ⊆ b.vars := by
  induction a using Node.ind generalizing b with
  | intent i =>
      cases b with
      | intent j =>
          obtain ⟨⟨s, t⟩, hst, hp⟩ := List.mem_flatMap.1 hp
          obtain ⟨hs, ht⟩ := List.of_mem_zip hst
          obtain ⟨h₁, h₂⟩ := Statement.vars_of_equations hp
          exact ⟨fun v hv => List.mem_flatMap.2 ⟨s, hs, h₁ hv⟩,
            fun v hv => List.mem_flatMap.2 ⟨t, ht, h₂ hv⟩⟩
      | _ => cases hp
  | compound o a c iha ihc =>
      cases b with
      | compound q b d =>
          obtain hp | hp := List.mem_append.1 hp
          · obtain ⟨h₁, h₂⟩ := vars_of_equationsOfOperands iha hp
            exact ⟨List.subset_append_of_subset_left _ h₁, List.subset_append_of_subset_left _ h₂⟩
          · obtain ⟨h₁, h₂⟩ := vars_of_equationsOfOperands ihc hp
            exact ⟨List.subset_append_of_subset_right _ h₁, List.subset_append_of_subset_right _ h₂⟩
      | _ => cases hp
  | quantified q v a d ih =>
      cases b with
      | quantified r w b e => exact @ih b hp
      | _ => cases hp
  | rule i a c d x k iha ihc =>
      cases b with
      | rule j b e f y l =>
          obtain hp | hp := List.mem_append.1 hp
          · obtain ⟨h₁, h₂⟩ := iha hp
            exact ⟨List.subset_append_of_subset_left _ h₁, List.subset_append_of_subset_left _ h₂⟩
          · obtain ⟨h₁, h₂⟩ := ihc hp
            exact ⟨List.subset_append_of_subset_right _ h₁, List.subset_append_of_subset_right _ h₂⟩
      | _ => cases hp
  | edge e =>
      cases b with
      | edge f => exact Edge.vars_of_equations hp
      | _ => cases hp

end Node

/-! ## What unification finds is a solution -/

/-- **Unification is sound and binds nothing twice.** From bindings without
cycles, it ends in bindings without cycles that keep all of them, and binds
only variables that the nodes have or that something is bound to. Then final
values that are variables are not bound, and the tokens at corresponding places
of the two nodes have final values that are equal or are one variable. -/
theorem Node.unifyWith_solves {a b : Node} {θ₀ θ : Bindings} (h₀ : θ₀.Acyclic)
    (h : a.unifyWith b θ₀ = some θ) :
    θ₀.Extends θ ∧
      (∀ v e, θ.get? v = some e → θ₀.get? v = none → v ∈ a.vars ∨ v ∈ b.vars ∨ θ₀.HasValue v) ∧
      θ.Acyclic ∧
      (∀ e v, (θ.resolve e).varName? = some v → θ.get? v = none) ∧
      ∀ p ∈ a.equations b, (θ.resolve p.1).meets (θ.resolve p.2) = true := by
  rw [unifyWith, Unify.nodes_eq_solve] at h
  obtain ⟨_, h⟩ := Unify.solveIf_eq_some.1 h
  obtain ⟨hθ, hx⟩ := Unify.solve_extends _ h₀ h
  have hequations : ∀ p ∈ a.equations b, ∀ v, p.1.varName? = some v ∨ p.2.varName? = some v →
      v ∈ a.vars ∨ v ∈ b.vars ∨ θ₀.HasValue v := by
    intro p hp v hv
    obtain ⟨ha, hb⟩ := vars_of_equations hp
    exact hv.imp (fun h => ha (Expr.mem_vars.2 h)) fun h => Or.inl (hb (Expr.mem_vars.2 h))
  refine ⟨hx, fun v e he hv => ?_, hθ, Bindings.get?_eq_none_of_resolve hθ,
    Unify.solve_meets _ h₀ h⟩
  obtain hold | hnew := Unify.solve_within _ hequations (fun v hv => Or.inr (Or.inr hv)) h₀ h v e he
  · cases hv.symm.trans hold
  · exact hnew

/-- Someone knows someone. -/
def acquaintance (knower known : Expr) : Node :=
  .intent { kind := "!Assert", statements :=
    [{ subject := knower, relation := { name := "knows" }, object := known }] }

/-- A variable may be bound to another one. -/
theorem acyclic_chain : Bindings.Acyclic [("?Y", .concept "?Z")] :=
  Bindings.acyclic_nil.set rfl fun w hw => by
    cases hw
    exact ⟨by decide, rfl⟩

/-- What one variable stands for is bound when it meets a name. -/
theorem acquaintance_unifyWith_solves :
    let a := acquaintance (.concept "?X") (.identifier "?Y")
    let b := acquaintance (.concept "Ann") (.concept "Bob")
    let θ₀ : Bindings := [("?Y", .concept "?Z")]
    let θ : Bindings := [("?Y", .concept "?Z"), ("?X", .concept "Ann"), ("?Z", .concept "Bob")]
    θ₀.Acyclic ∧ a.unifyWith b θ₀ = some θ ∧ θ₀.Extends θ ∧
      (∀ v e, θ.get? v = some e → θ₀.get? v = none → v ∈ a.vars ∨ v ∈ b.vars ∨ θ₀.HasValue v) ∧
      θ.Acyclic ∧
      (∀ e v, (θ.resolve e).varName? = some v → θ.get? v = none) ∧
      ∀ p ∈ a.equations b, (θ.resolve p.1).meets (θ.resolve p.2) = true := by
  intro a b θ₀ θ
  have h : a.unifyWith b θ₀ = some θ := by with_unfolding_all rfl
  exact ⟨acyclic_chain, h, Node.unifyWith_solves acyclic_chain h⟩

end TripleLogic
