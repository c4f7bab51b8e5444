/-
TripleLogic.Proofs.Matching — unification with a ground node.

Two ground nodes unify with nothing to bind exactly when their parts do, so
a pattern has at most one instance, up to equality of values, that unifies
with a given ground node (`same_value_of_unify`). It follows that unifying a
pattern with a ground node binds every variable of the pattern to something
that is no variable (`varName?_resolve_of_ground`), and that a node with no
further variables becomes ground by substitution (`ground_subst`).

A pattern unifies with each of its own instances (`unifyWith_inst`).
-/
import TripleLogic.Proofs.Unification

namespace TripleLogic

/-! ## Unifying without bindings, part by part -/

namespace Unify

/-- If two sound steps together bind nothing, neither of them does. -/
theorem Sound.bind_eq_nil {f g : Bindings → Option Bindings} {P Q : Assignment → Prop}
    (hf : Sound f P) (hg : Sound g Q) (h : (f []).bind g = some []) :
    f [] = some [] ∧ g [] = some [] := by
  obtain ⟨θ, h₁, h₂⟩ := Option.bind_eq_some_iff.1 h
  have hθ : θ.Acyclic := (hf [] θ Bindings.acyclic_nil h₁).1
  have hnil : θ = [] := (hg θ [] hθ h₂).2.1.eq_nil
  subst hnil
  exact ⟨h₁, h₂⟩

theorem operands_eq_nil {a b : Option Node} (h : operands a b [] = some []) :
    (a = none ∧ b = none) ∨ ∃ m n, a = some m ∧ b = some n ∧ nodes m n [] = some [] := by
  cases a with
  | none =>
      cases b with
      | none => exact Or.inl ⟨rfl, rfl⟩
      | some n => cases h
  | some m =>
      cases b with
      | none => cases h
      | some n => exact Or.inr ⟨m, n, rfl, rfl, h⟩

/-- Ground compounds that unify with nothing to bind have one connective, and
their operands unify with nothing to bind. -/
theorem nodes_compound_eq_nil {o p : Connective} {a b c d : Option Node}
    (ha : (Node.compound o a c).Ground) (hb : (Node.compound p b d).Ground)
    (h : nodes (.compound o a c) (.compound p b d) [] = some []) :
    o = p ∧ operands a b [] = some [] ∧ operands c d [] = some [] := by
  rw [Node.ground_compound] at ha hb
  simp only [nodes] at h
  split at h
  · next ho =>
      have h₁ := operands_sound fun m n (hm : a = some m) (hn : b = some n) =>
        nodes_sound (ha.1 m hm).varsInTerms (hb.1 n hn).varsInTerms
      have h₂ := operands_sound fun m n (hm : c = some m) (hn : d = some n) =>
        nodes_sound (ha.2 m hm).varsInTerms (hb.2 n hn).varsInTerms
      exact ⟨eq_of_beq ho, h₁.bind_eq_nil h₂ h⟩
  · cases h

/-- Ground rules that unify with nothing to bind have one direction, and
their parts unify with nothing to bind. -/
theorem nodes_rule_eq_nil {i j : String} {a b c d : Node} {u v : Option String} {x y : Bool}
    {k l : Data} (ha : (Node.rule i a c u x k).Ground) (hb : (Node.rule j b d v y l).Ground)
    (h : nodes (.rule i a c u x k) (.rule j b d v y l) [] = some []) :
    x = y ∧ nodes a b [] = some [] ∧ nodes c d [] = some [] := by
  rw [Node.ground_rule] at ha hb
  simp only [nodes] at h
  split at h
  · next hc =>
      rw [Bool.and_eq_true] at hc
      exact ⟨eq_of_beq hc.2, (nodes_sound ha.1.varsInTerms hb.1.varsInTerms).bind_eq_nil
        (nodes_sound ha.2.varsInTerms hb.2.varsInTerms) h⟩
  · cases h

/-- Ground statements that unify with nothing to bind have equal subjects, one
relation and equal objects. -/
theorem statements_eq_nil {s t : Statement} (hs : s.vars = []) (ht : t.vars = [])
    (h : statements s t [] = some []) :
    s.subject.same t.subject = true ∧ s.relation.name = t.relation.name ∧
      s.object.same t.object = true := by
  obtain ⟨⟨hsub, hobj⟩, hside⟩ := Statement.vars_eq_nil.1 hs
  obtain ⟨⟨hsub', hobj'⟩, hside'⟩ := Statement.vars_eq_nil.1 ht
  obtain ⟨θ₁, h₁, h⟩ := Option.bind_eq_some_iff.1 h
  obtain ⟨θ₂, h₂, h⟩ := Option.bind_eq_some_iff.1 h
  obtain ⟨θ₃, h₃, -⟩ := Option.bind_eq_some_iff.1 h
  rw [exprs_of_not_variable hsub hsub', Option.ite_none_right_eq_some] at h₁
  rw [names_of_not_variable (Statement.sideVars_eq_nil.1 hside).1
    (Statement.sideVars_eq_nil.1 hside').1, Option.ite_none_right_eq_some] at h₂
  rw [exprs_of_not_variable hobj hobj', Option.ite_none_right_eq_some] at h₃
  exact ⟨h₁.1, h₂.1, h₃.1⟩

theorem statementLists_eq_nil {s t : Statement} {ss ts : List Statement}
    (hs : ∀ u ∈ s :: ss, u.vars = []) (ht : ∀ u ∈ t :: ts, u.vars = [])
    (h : statementLists (s :: ss) (t :: ts) [] = some []) :
    statements s t [] = some [] ∧ statementLists ss ts [] = some [] := by
  have hs' : ∀ u ∈ s :: ss, u.sideVars = [] := fun u hu => (Statement.vars_eq_nil.1 (hs u hu)).2
  have ht' : ∀ u ∈ t :: ts, u.sideVars = [] := fun u hu => (Statement.vars_eq_nil.1 (ht u hu)).2
  rw [List.forall_mem_cons] at hs' ht'
  exact (statements_sound hs'.1 ht'.1).bind_eq_nil (statementLists_sound hs'.2 ht'.2) h

/-! ## At most one instance unifies with a ground node -/

/-- Values that are equal to the same expression are equal. -/
theorem same_value_of_same {σ τ : Assignment} {e f : Expr} (hσ : (e.inst σ).same f = true)
    (hτ : (e.inst τ).same f = true) : ∀ v ∈ e.vars, (σ.value v).same (τ.value v) = true := by
  intro v hv
  rw [Expr.mem_vars] at hv
  rw [Expr.inst_of_variable hv, Expr.same_iff] at hσ hτ
  rw [Expr.same_iff, hσ, hτ]

theorem statements_same_value {s t : Statement} {σ τ : Assignment} (hs : s.sideVars = [])
    (ht : t.vars = []) (hσ : statements (s.inst σ) t [] = some [])
    (hτ : statements (s.inst τ) t [] = some []) :
    ∀ v ∈ s.vars, (σ.value v).same (τ.value v) = true := by
  intro v hv
  obtain ⟨hσs, -, hσo⟩ := statements_eq_nil (Statement.vars_inst hs σ) ht hσ
  obtain ⟨hτs, -, hτo⟩ := statements_eq_nil (Statement.vars_inst hs τ) ht hτ
  rw [Statement.vars, hs, List.append_nil, Statement.termVars, List.mem_append] at hv
  rcases hv with hv | hv
  · exact same_value_of_same hσs hτs v hv
  · exact same_value_of_same hσo hτo v hv

theorem statementLists_same_value {σ τ : Assignment} : ∀ {ss ts : List Statement},
    (∀ s ∈ ss, s.sideVars = []) → (∀ t ∈ ts, t.vars = []) →
    statementLists (ss.map (Statement.inst σ)) ts [] = some [] →
    statementLists (ss.map (Statement.inst τ)) ts [] = some [] →
    ∀ s ∈ ss, ∀ v ∈ s.vars, (σ.value v).same (τ.value v) = true
  | [], _, _, _, _, _ => by
      intro s hs
      cases hs
  | _ :: _, [], _, _, h, _ => by cases h
  | s :: ss, t :: ts, hs, ht, hσ, hτ => by
      have hground : ∀ (ρ : Assignment), ∀ u ∈ (s :: ss).map (Statement.inst ρ), u.vars = [] := by
        intro ρ u hu
        obtain ⟨w, hw, rfl⟩ := List.mem_map.1 hu
        exact Statement.vars_inst (hs w hw) ρ
      obtain ⟨hσs, hσ⟩ := statementLists_eq_nil (hground σ) ht hσ
      obtain ⟨hτs, hτ⟩ := statementLists_eq_nil (hground τ) ht hτ
      rw [List.forall_mem_cons] at hs ht
      rw [List.forall_mem_cons]
      exact ⟨statements_same_value hs.1 ht.1 hσs hτs,
        statementLists_same_value hs.2 ht.2 hσ hτ⟩

theorem operands_same_value {σ τ : Assignment} {a b : Option Node}
    (ih : ∀ m n, a = some m → b = some n → nodes (m.inst σ) n [] = some [] →
      nodes (m.inst τ) n [] = some [] → ∀ v ∈ m.vars, (σ.value v).same (τ.value v) = true)
    (hσ : operands (Node.instOperand σ a) b [] = some [])
    (hτ : operands (Node.instOperand τ a) b [] = some []) :
    ∀ v ∈ Node.collectOperand Statement.vars Edge.vars a,
      (σ.value v).same (τ.value v) = true := by
  cases a with
  | none =>
      intro v hv
      cases hv
  | some m =>
      cases b with
      | none => cases hσ
      | some n => exact ih m n rfl rfl hσ hτ

/-- Two instances of a node that unify with one ground node with nothing to
bind have equal values for all variables. -/
theorem same_value_of_unify {σ τ : Assignment} {a g : Node} (ha : a.VarsInTerms)
    (hg : g.Ground) (hσ : nodes (a.inst σ) g [] = some [])
    (hτ : nodes (a.inst τ) g [] = some []) :
    ∀ v ∈ a.vars, (σ.value v).same (τ.value v) = true := by
  induction a using Node.ind generalizing g with
  | intent i =>
      cases g with
      | intent j =>
          simp only [Node.inst, nodes, intents, Option.ite_none_right_eq_some] at hσ hτ
          intro v hv
          obtain ⟨s, hs, hv⟩ := List.mem_flatMap.1 hv
          exact statementLists_same_value (Node.varsInTerms_intent.1 ha)
            (Node.ground_intent.1 hg) hσ.2 hτ.2 s hs v hv
      | _ => cases hσ
  | compound o a c iha ihc =>
      cases g with
      | compound p b d =>
          obtain ⟨-, hσa, hσc⟩ := nodes_compound_eq_nil (Node.ground_inst ha σ) hg hσ
          obtain ⟨-, hτa, hτc⟩ := nodes_compound_eq_nil (Node.ground_inst ha τ) hg hτ
          rw [Node.varsInTerms_compound] at ha
          rw [Node.ground_compound] at hg
          intro v hv
          rcases List.mem_append.1 hv with hv | hv
          · exact operands_same_value
              (fun m n hm hn => iha m hm (ha.1 m hm) (hg.1 n hn)) hσa hτa v hv
          · exact operands_same_value
              (fun m n hm hn => ihc m hm (ha.2 m hm) (hg.2 n hn)) hσc hτc v hv
      | _ => cases hσ
  | quantified q v a d ih =>
      cases g with
      | quantified r w b e =>
          have hb : b.Ground := hg
          simp only [Node.inst, nodes, Option.ite_none_right_eq_some] at hσ hτ
          exact ih ha hb hσ.2 hτ.2
      | _ => cases hσ
  | rule i a c d x k iha ihc =>
      cases g with
      | rule j b e f y l =>
          obtain ⟨-, hσa, hσc⟩ := nodes_rule_eq_nil (Node.ground_inst ha σ) hg hσ
          obtain ⟨-, hτa, hτc⟩ := nodes_rule_eq_nil (Node.ground_inst ha τ) hg hτ
          rw [Node.varsInTerms_rule] at ha
          rw [Node.ground_rule] at hg
          intro v hv
          rcases List.mem_append.1 hv with hv | hv
          · exact iha ha.1 hg.1 hσa hτa v hv
          · exact ihc ha.2 hg.2 hσc hτc v hv
      | _ => cases hσ
  | edge e =>
      intro v hv
      have hnil : (Node.edge e).vars = [] := ha
      rw [hnil] at hv
      cases hv

/-! ## What unifying with a ground node binds -/

/-- Unifying with a ground node leaves no variable on the other side: every
one of them gets a final value that is no variable. -/
theorem varName?_resolve_of_ground {a g : Node} {θ : Bindings} (ha : a.VarsInTerms)
    (hg : g.Ground) (h : nodes a g [] = some θ) :
    ∀ v ∈ a.vars, (θ.resolve (.identifier v)).varName? = none := by
  intro v hv
  obtain ⟨hθ, -, hsol⟩ := nodes_sound ha hg.varsInTerms [] θ Bindings.acyclic_nil h
  cases hw : (θ.resolve (.identifier v)).varName? with
  | none => rfl
  | some w =>
      -- A variable that is left could stand for anything, but at most one
      -- instance of `a` unifies with `g`.
      have hinst : ∀ σ : Assignment, nodes (a.inst (σ.after θ)) g [] = some [] := by
        intro σ
        have hσ : nodes (a.inst (σ.after θ)) (g.inst (σ.after θ)) [] = some [] :=
          hsol _ (σ.solves_after hθ)
        rwa [Node.inst_of_ground hg] at hσ
      have hval : ∀ σ : Assignment, (σ.after θ).value v = σ.value w :=
        fun σ => Expr.inst_of_variable hw σ
      have hsame := same_value_of_unify ha hg (hinst (Assignment.constant "a" rfl))
        (hinst (Assignment.constant "b" rfl)) v hv
      rw [hval, hval] at hsame
      cases hsame

end Unify

/-! ## Substitution that leaves no variable -/

theorem Expr.varName?_subst {e : Expr} {θ : Bindings}
    (h : ∀ v ∈ e.vars, (θ.resolve (.identifier v)).varName? = none) :
    (e.subst θ).varName? = none := by
  show (θ.resolve e).varName? = none
  cases hv : e.varName? with
  | none => rw [Bindings.resolve_of_not_variable hv, hv]
  | some v =>
      have hr := h v (mem_vars.2 hv)
      have hi := varName?_identifier (isVariableName_of_varName? hv)
      -- An unbound variable would be its own final value.
      cases hf : θ.get? v with
      | none =>
          rw [Bindings.resolve_of_unbound hi hf, hi] at hr
          cases hr
      | some f =>
          rw [Bindings.resolve_of_get? hi hf] at hr
          rw [Bindings.resolve_of_get? hv hf, hr]

theorem Statement.vars_subst {s : Statement} {θ : Bindings} (hs : s.sideVars = [])
    (h : ∀ v ∈ s.vars, (θ.resolve (.identifier v)).varName? = none) :
    (s.subst θ).vars = [] := by
  simp only [vars, termVars, List.mem_append] at h
  refine Statement.vars_eq_nil.2 ⟨⟨?_, ?_⟩, Statement.sideVars_subst hs θ⟩
  · exact Expr.varName?_subst fun v hv => h v (Or.inl (Or.inl hv))
  · exact Expr.varName?_subst fun v hv => h v (Or.inl (Or.inr hv))

/-- A node becomes ground when all its variables have final values that are no
variables. -/
theorem Node.ground_subst {n : Node} {θ : Bindings} (hn : n.VarsInTerms)
    (h : ∀ v ∈ n.vars, (θ.resolve (.identifier v)).varName? = none) : (n.subst θ).Ground := by
  induction n using Node.ind with
  | intent i =>
      rw [varsInTerms_intent] at hn
      refine ground_intent.2 ?_
      intro s hs
      obtain ⟨t, ht, rfl⟩ := List.mem_map.1 hs
      exact Statement.vars_subst (hn t ht) fun v hv => h v (List.mem_flatMap.2 ⟨t, ht, hv⟩)
  | compound o a b iha ihb =>
      rw [varsInTerms_compound] at hn
      refine ground_compound.2 ⟨forall_substOperand.2 ?_, forall_substOperand.2 ?_⟩
      · rintro m rfl
        exact iha m rfl (hn.1 m rfl) fun v hv => h v (List.mem_append_left _ hv)
      · rintro m rfl
        exact ihb m rfl (hn.2 m rfl) fun v hv => h v (List.mem_append_right _ hv)
  | quantified q v a d ih => exact ih hn h
  | rule i a b d x c iha ihb =>
      rw [varsInTerms_rule] at hn
      exact ground_rule.2 ⟨iha hn.1 fun v hv => h v (List.mem_append_left _ hv),
        ihb hn.2 fun v hv => h v (List.mem_append_right _ hv)⟩
  | edge e =>
      simp only [subst, Edge.subst_of_vars hn]
      exact hn

/-! ## A pattern and its instances -/

namespace Unify

/-- Variables are bound to what an assignment gives them. -/
def Follows (σ : Assignment) (θ : Bindings) : Prop :=
  ∀ v e, θ.get? v = some e → e = σ.value v

/-- A step from bindings that follow an assignment succeeds and ends in such
bindings. -/
def Admits (σ : Assignment) (f : Bindings → Option Bindings) : Prop :=
  ∀ θ, Follows σ θ → ∃ θ', f θ = some θ' ∧ Follows σ θ'

theorem Admits.bind {σ : Assignment} {f g : Bindings → Option Bindings} (hf : Admits σ f)
    (hg : Admits σ g) : Admits σ (fun θ => (f θ).bind g) := by
  intro θ hθ
  obtain ⟨θ', h₁, hθ'⟩ := hf θ hθ
  obtain ⟨θ'', h₂, hθ''⟩ := hg θ' hθ'
  exact ⟨θ'', Option.bind_eq_some_iff.2 ⟨θ', h₁, h₂⟩, hθ''⟩

theorem admits_of_eq_some {σ : Assignment} {f : Bindings → Option Bindings}
    (h : ∀ θ, f θ = some θ) : Admits σ f :=
  fun θ hθ => ⟨θ, h θ, hθ⟩

theorem exprs_inst (σ : Assignment) (e : Expr) : Admits σ (exprs e (e.inst σ)) := by
  intro θ hθ
  have hi : (e.inst σ).varName? = none := Expr.varName?_inst σ e
  cases hv : e.varName? with
  | none =>
      refine ⟨θ, ?_, hθ⟩
      rw [exprs_of_not_variable hv hi, Expr.inst_of_not_variable hv, if_pos (Expr.same_refl e)]
  | some v =>
      have hval : e.inst σ = σ.value v := Expr.inst_of_variable hv σ
      cases hf : θ.get? v with
      | none =>
          refine ⟨θ.set v (e.inst σ), ?_, ?_⟩
          · simp only [exprs, Bindings.resolve_of_unbound hv hf,
              Bindings.resolve_of_not_variable hi, hv, hi]
          · intro w f hw
            rw [Bindings.get?_set hf] at hw
            split at hw
            · next hwv =>
                cases hw
                rw [hwv, hval]
            · exact hθ w f hw
      | some f =>
          have hfe : f = e.inst σ := (hθ v f hf).trans hval.symm
          have hr : θ.resolve e = e.inst σ := by
            rw [Bindings.resolve_of_get? hv hf, hfe, Bindings.resolve_of_not_variable hi]
          refine ⟨θ, ?_, hθ⟩
          simp only [exprs, hr, Bindings.resolve_of_not_variable hi, hi, Expr.same_refl, if_true]

theorem statements_inst (σ : Assignment) {s : Statement} (hs : s.sideVars = []) :
    Admits σ (statements s (s.inst σ)) := by
  obtain ⟨hn, ha⟩ := Statement.sideVars_eq_nil.1 hs
  refine (exprs_inst σ s.subject).bind (.bind ?_ (.bind (exprs_inst σ s.object) ?_))
  · exact admits_of_eq_some fun θ => (names_of_not_variable hn hn θ).trans (if_pos rfl)
  · refine admits_of_eq_some fun θ => ?_
    rw [Statement.attributes_inst hs σ]
    exact attributes_of_same ((Attributes.same_iff _ _).2 rfl) ha _ θ

theorem statementLists_inst (σ : Assignment) : ∀ {ss : List Statement},
    (∀ s ∈ ss, s.sideVars = []) → Admits σ (statementLists ss (ss.map (Statement.inst σ)))
  | [], _ => admits_of_eq_some fun _ => rfl
  | s :: ss, hs => by
      rw [List.forall_mem_cons] at hs
      exact (statements_inst σ hs.1).bind (statementLists_inst σ hs.2)

theorem operands_inst (σ : Assignment) {a : Option Node}
    (h : ∀ n, a = some n → Admits σ (nodes n (n.inst σ))) :
    Admits σ (operands a (Node.instOperand σ a)) := by
  cases a with
  | none => exact admits_of_eq_some fun _ => rfl
  | some n => exact h n rfl

/-- A node unifies with each of its instances. -/
theorem nodes_inst (σ : Assignment) {n : Node} (hn : n.VarsInTerms) :
    Admits σ (nodes n (n.inst σ)) := by
  induction n using Node.ind with
  | intent i =>
      intro θ hθ
      simp only [Node.inst, nodes, intents, beq_self_eq_true, if_true]
      exact statementLists_inst σ (Node.varsInTerms_intent.1 hn) θ hθ
  | compound o a b iha ihb =>
      rw [Node.varsInTerms_compound] at hn
      intro θ hθ
      simp only [Node.inst, nodes, beq_self_eq_true, if_true]
      exact (operands_inst σ fun m hm => iha m hm (hn.1 m hm)).bind
        (operands_inst σ fun m hm => ihb m hm (hn.2 m hm)) θ hθ
  | quantified q v a d ih =>
      intro θ hθ
      simp only [Node.inst, nodes, beq_self_eq_true, Bool.and_self, if_true]
      exact ih hn θ hθ
  | rule i a b d x c iha ihb =>
      rw [Node.varsInTerms_rule] at hn
      intro θ hθ
      simp only [Node.inst, nodes, beq_self_eq_true, Bool.and_self, if_true]
      exact (iha hn.1).bind (ihb hn.2) θ hθ
  | edge e =>
      refine admits_of_eq_some fun θ => ?_
      exact (edges_of_not_variable hn hn θ).trans (if_pos ⟨rfl, rfl, rfl, rfl⟩)

end Unify

/-- Nodes do not unify if no assignment makes their instances unify with
nothing to bind. -/
theorem Node.unifyWith_eq_none {a b : Node} (ha : a.VarsInTerms) (hb : b.VarsInTerms)
    (h : ∀ σ : Assignment, Unify.nodes (a.inst σ) (b.inst σ) [] ≠ some []) :
    a.unifyWith b [] = none := by
  cases hθ : a.unifyWith b [] with
  | none => rfl
  | some θ =>
      obtain ⟨hacyc, -, hsol⟩ := Unify.nodes_sound ha hb [] θ Bindings.acyclic_nil hθ
      exact absurd (hsol _ ((Assignment.constant "a" rfl).solves_after hacyc)) (h _)

theorem Node.unifyWith_inst (σ : Assignment) {n : Node} (hn : n.VarsInTerms) :
    ∃ θ, n.unifyWith (n.inst σ) [] = some θ := by
  obtain ⟨θ, h, -⟩ := Unify.nodes_inst σ hn [] fun v e h => by
    rw [Bindings.get?_nil] at h
    cases h
  exact ⟨θ, h⟩

end TripleLogic
