/-
TripleLogic.Proofs.Instances — whether the instances of nodes that unify are
equal.

Two nodes that unify have one form, and under the bindings that unification
finds their corresponding tokens have final values that are equal or are one
variable. Two things keep their instances from unifying with nothing to bind:

* An attribute that only one of two statements has need be a variable only,
  which unification accepts without a look at its value. Where this variable is
  bound to something else by another equation, the instances are left with a
  concrete attribute on one side only, and do not unify.
* A name is replaced by the text of a final value, and two final values that
  meet may be written differently.

Main statement: the instances unify with nothing to bind exactly if neither is
the case, and do not unify at all if the first is (`unify_subst`).
-/
import TripleLogic.Proofs.Counterparts
import TripleLogic.Proofs.Interpretation
import TripleLogic.Proofs.Solving

namespace TripleLogic

/-! ## Unifying with nothing to bind -/

namespace Unify

theorem exprs_eq_nil {a b : Expr} : exprs a b [] = some [] ↔ a.meets b = true := by
  constructor
  · intro h
    have hmeets := exprs_meets Bindings.acyclic_nil h
    rwa [Bindings.resolve_nil, Bindings.resolve_nil] at hmeets
  · intro h
    exact exprs_of_meets (by rwa [Bindings.resolve_nil, Bindings.resolve_nil])

/-- Equations are solved with nothing to bind if all their sides meet. -/
theorem solve_eq_nil {ps : List Equation} :
    solve ps [] = some [] ↔ ∀ p ∈ ps, p.1.meets p.2 = true := by
  induction ps with
  | nil => exact iff_of_true rfl nofun
  | cons p ps ih =>
      rw [List.forall_mem_cons, ← ih, ← exprs_eq_nil]
      constructor
      · intro h
        obtain ⟨θ, h₁, h₂⟩ := Option.bind_eq_some_iff.1 h
        have hθ := (exprs_sound p.1 p.2 [] θ Bindings.acyclic_nil h₁).1
        obtain rfl := (solve_extends ps hθ h₂).2.eq_nil
        exact ⟨h₁, h₂⟩
      · rintro ⟨h₁, h₂⟩
        exact Option.bind_eq_some_iff.2 ⟨[], h₁, h₂⟩

end Unify

/-- Two nodes unify with nothing to bind if they are parallel and all their
corresponding tokens meet. -/
theorem Node.unify_eq_nil_iff {a b : Node} :
    a.unify b = some [] ↔ a.parallel b = true ∧ ∀ p ∈ a.equations b, p.1.meets p.2 = true := by
  rw [unify_eq_nil, Unify.nodes_eq_solve, Unify.solveIf_eq_some, Unify.solve_eq_nil]

/-! ## Instances of counterparts -/

/-- Names meet when they are equal. -/
theorem Expr.identifier_meets_iff {x y : String} :
    (Expr.identifier x).meets (.identifier y) = true ↔ x = y := by
  rw [meets_iff]
  constructor
  · rintro (hs | ⟨v, hx, hy⟩)
    · exact eq_of_beq hs
    · simp only [varName?, Option.ite_none_right_eq_some, Option.some.injEq] at hx hy
      exact hx.2.trans hy.2.symm
  · rintro rfl
    exact Or.inl (same_refl _)

section

variable {θ : Bindings}

/-- Where the equations of two statements are solved, the tokens of their
instances meet if the names of the relations become one. -/
theorem Statement.meets_subst_iff {s t : Statement}
    (h : ∀ p ∈ s.equations t, (θ.resolve p.1).meets (θ.resolve p.2) = true) :
    (∀ p ∈ (s.subst θ).equations (t.subst θ), p.1.meets p.2 = true) ↔
      substName θ s.relation.name = substName θ t.relation.name := by
  simp only [equations, List.forall_mem_cons] at h
  obtain ⟨hsubject, _, hobject, hattributes⟩ := h
  have hinstances : ∀ p ∈ (s.attributes.equations t.attributes).map
      (Prod.map (Expr.subst θ) (Expr.subst θ)), p.1.meets p.2 = true :=
    List.forall_mem_map.2 hattributes
  rw [← Attributes.equations_map] at hinstances
  simp only [equations, List.forall_mem_cons, subst, Expr.identifier_meets_iff]
  exact ⟨fun h => h.2.1, fun hname => ⟨hsubject, hname, hobject, hinstances⟩⟩

/-- Instances of statements are parallel if the attributes without a partner are
variables in them. -/
theorem Statement.parallel_subst (θ : Bindings) (s t : Statement) :
    (s.subst θ).parallel (t.subst θ)
      = (s.attributes.unpaired t.attributes).all fun e => (θ.resolve e).isVariable := by
  simp only [parallel, subst, Attributes.parallel_eq_all, Attributes.unpaired_map, List.all_map]
  rfl

theorem Edge.meets_subst_iff {e f : Edge} :
    (∀ p ∈ (e.subst θ).equations (f.subst θ), p.1.meets p.2 = true) ↔
      ∀ p ∈ (Counterparts.edges e f).names, substName θ p.1 = substName θ p.2 := by
  simp only [equations, subst, Counterparts.names, List.forall_mem_cons, List.not_mem_nil,
    Expr.identifier_meets_iff, IsEmpty.forall_iff, implies_true]

theorem Counterparts.meets_subst_iff {c : Counterparts}
    (h : ∀ p ∈ c.equations, (θ.resolve p.1).meets (θ.resolve p.2) = true) :
    (∀ p ∈ (c.subst θ).equations, p.1.meets p.2 = true) ↔
      ∀ p ∈ c.names, substName θ p.1 = substName θ p.2 := by
  cases c with
  | statements s t => exact (Statement.meets_subst_iff h).trans (by simp [names])
  | edges e f => exact Edge.meets_subst_iff

/-! ## Instances of nodes -/

namespace Node

/-- Where the equations of two nodes are solved, the tokens of their instances
meet if corresponding names become one. -/
theorem meets_subst_iff {a b : Node}
    (h : ∀ p ∈ a.equations b, (θ.resolve p.1).meets (θ.resolve p.2) = true) :
    (∀ p ∈ (a.subst θ).equations (b.subst θ), p.1.meets p.2 = true) ↔
      ∀ p ∈ a.namePairs b, substName θ p.1 = substName θ p.2 := by
  rw [equations_eq_flatMap, List.forall_mem_flatMap] at h
  rw [equations_eq_flatMap, counterparts_subst, List.forall_mem_flatMap, List.forall_mem_map,
    namePairs, List.forall_mem_flatMap]
  exact forall₂_congr fun c hc => Counterparts.meets_subst_iff (h c hc)

/-- Instances of parallel nodes are parallel if the attributes without a partner
are variables in them, too. -/
theorem parallel_subst {a b : Node} (h : a.parallel b = true) :
    (a.subst θ).parallel (b.subst θ)
      = (a.unpaired b).all fun e => (θ.resolve e).isVariable := by
  induction a, b using ind₂ (Q := fun a b => parallelOperands a b = true →
    parallelOperands (substOperand θ a) (substOperand θ b)
      = ((counterpartsOfOperands a b).flatMap Counterparts.unpaired).all
          fun e => (θ.resolve e).isVariable) with
  | absent b h => cases b <;> first | rfl | cases h
  | lacking a h => cases a <;> first | rfl | cases h
  | present m n ih h => exact ih h
  | intent i j =>
      simp only [parallel, Statement.parallelAll, Bool.and_eq_true, beq_iff_eq] at h
      obtain ⟨hkind, hlength, _⟩ := h
      simp only [subst, parallel, Statement.parallelAll, hkind, hlength, List.length_map,
        beq_self_eq_true, Bool.true_and, List.zip_map, List.all_map, unpaired, counterparts,
        List.all_flatMap]
      refine congrArg (List.all _) (funext fun p => ?_)
      exact Statement.parallel_subst θ p.1 p.2
  | compound o p a b c d hab hcd =>
      simp only [parallel, Bool.and_eq_true] at h
      obtain ⟨⟨ho, h₁⟩, h₂⟩ := h
      simp only [subst, parallel, ho, hab h₁, hcd h₂, unpaired, counterparts, List.flatMap_append,
        List.all_append, Bool.true_and]
  | quantified q r v w a b d e ih =>
      simp only [parallel, Bool.and_eq_true] at h
      obtain ⟨⟨⟨hq, hv⟩, hd⟩, h₁⟩ := h
      simp only [subst, parallel, hq, hv, hd, Bool.true_and]
      exact ih h₁
  | rule i j a b c k d e x y f g hab hck =>
      simp only [parallel, Bool.and_eq_true] at h
      obtain ⟨⟨⟨hi, hx⟩, h₁⟩, h₂⟩ := h
      have hpremises := hab h₁
      have hconclusion := hck h₂
      simp only [subst, parallel, hi, hx, hpremises, hconclusion, unpaired, counterparts,
        List.flatMap_append, List.all_append, Bool.true_and]
  | edge e f => exact h
  | apart a b hform => cases a <;> cases b <;> first | cases h | exact absurd rfl hform

end Node

end

/-! ## Instances of nodes that unify -/

/-- **When what unification finds is a unifier.** The instances of two nodes
under the bindings that unification finds unify with nothing to bind exactly if
every attribute that only one of two corresponding statements has still is a
variable under the bindings, and corresponding names become one. If one of those
attributes is bound to something that is no variable, then the instances do not
unify at all. -/
theorem Node.unify_subst (a b : Node) (θ : Bindings) (h : a.unifyWith b [] = some θ) :
    ((a.subst θ).unify (b.subst θ) = some [] ↔
      (∀ e ∈ a.unpaired b, (θ.resolve e).isVariable = true) ∧
        ∀ p ∈ a.namePairs b, substName θ p.1 = substName θ p.2) ∧
    ((∃ e ∈ a.unpaired b, (θ.resolve e).isVariable = false) →
      (a.subst θ).unify (b.subst θ) = none) := by
  rw [unifyWith, Unify.nodes_eq_solve] at h
  obtain ⟨hparallel, hsolve⟩ := Unify.solveIf_eq_some.1 h
  have hinstances := parallel_subst (θ := θ) hparallel
  have hmeets := Unify.solve_meets _ Bindings.acyclic_nil hsolve
  constructor
  · rw [unify_eq_nil_iff, hinstances, List.all_eq_true, meets_subst_iff hmeets]
  · rintro ⟨e, he, hconcrete⟩
    have hapart : (a.subst θ).parallel (b.subst θ) = false := by
      rw [hinstances, List.all_eq_false]
      exact ⟨e, he, by simp [hconcrete]⟩
    rw [unify, unifyWith, Unify.nodes_eq_solve, hapart]
    rfl

/-- Someone drank tea. -/
def Node.tea (guest : Expr) (attributes : Attributes) : Node :=
  .intent { kind := "!Assert", statements :=
    [{ subject := guest, relation := { name := "drank" }, object := .concept "tea", attributes }] }

/-- A number of cups that is asked for on one side only is left open in both
instances. A host who is the guest is not: once the guest is known, so is the
host. -/
theorem tea_unify_subst :
    let a := Node.tea (.concept "?Guest") [("cups", .identifier "?Cups")]
    let a' := Node.tea (.concept "?Guest") [("host", .concept "?Guest")]
    let b := Node.tea (.concept "Ann") []
    let θ : Bindings := [("?Guest", .concept "Ann")]
    (a.unifyWith b [] = some θ ∧ (a.subst θ).unify (b.subst θ) = some []) ∧
      a'.unifyWith b [] = some θ ∧ (a'.subst θ).unify (b.subst θ) = none := by
  intro a a' b θ
  have h : a.unifyWith b [] = some θ := by with_unfolding_all rfl
  have h' : a'.unifyWith b [] = some θ := by with_unfolding_all rfl
  have hunpaired : a.unpaired b = [.identifier "?Cups"] := by with_unfolding_all rfl
  have hunpaired' : a'.unpaired b = [.concept "?Guest"] := by with_unfolding_all rfl
  have hnames : a.namePairs b = [("drank", "drank")] := by with_unfolding_all rfl
  refine ⟨⟨h, (Node.unify_subst a b θ h).1.2 ⟨?_, ?_⟩⟩, h', (Node.unify_subst a' b θ h').2 ?_⟩
  · rw [hunpaired]
    exact List.forall_mem_singleton.2 (by with_unfolding_all rfl)
  · rw [hnames]
    exact List.forall_mem_singleton.2 rfl
  · rw [hunpaired']
    exact ⟨_, List.mem_singleton_self _, by with_unfolding_all rfl⟩

/-- Something that relates to Ann by its own name. -/
def Node.namesake (name : String) : Node :=
  .intent { kind := "!Assert", statements :=
    [{ subject := .concept name, relation := { name }, object := .concept "Ann" }] }

/-- The host becomes known with the guest, on one side only, and the instances
do not unify. Of two variables that are bound together, one is written like a
concept where it stands for a name, and the instances unify only by binding the
other once more. -/
theorem tea_subst_not_unify :
    (let a := Node.tea (.concept "?Guest") [("host", .concept "?Guest")]
     let b := Node.tea (.concept "Ann") []
     let θ : Bindings := [("?Guest", .concept "Ann")]
     a.unifyWith b [] = some θ ∧ (a.subst θ).unify (b.subst θ) = none) ∧
    (let a := Node.namesake "?X"
     let b := Node.namesake "?Y"
     let θ : Bindings := [("?X", .concept "?Y")]
     a.unifyWith b [] = some θ ∧ (a.subst θ).unify (b.subst θ) = some [("?Y", "<?Y>")]) := by
  refine ⟨⟨?_, ?_⟩, ?_, ?_⟩ <;> with_unfolding_all rfl

end TripleLogic
