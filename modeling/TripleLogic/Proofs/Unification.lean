/-
TripleLogic.Proofs.Unification — what unification finds is a unifier.

A step of unification takes bindings to bindings. It is sound for a property
of assignments (`Sound`) when, from bindings without cycles, it ends in
bindings without cycles that keep all earlier ones, and every assignment that
solves the outcome has the property. Sound steps compose, since an assignment
that solves later bindings solves earlier ones.

Main statements: if two nodes unify, their instances under an assignment that
solves the bindings unify with nothing left to bind (`nodes_sound`), and so do
the instances of equal nodes (`nodes_inst_of_same`).
-/
import TripleLogic.Proofs.Assignment
import TripleLogic.Unification

namespace TripleLogic

theorem Expr.same_refl (e : Expr) : e.same e = true := (Expr.same_iff e e).2 rfl

namespace Unify

/-! ## Sound steps -/

/-- A step keeps bindings and their freedom from cycles, and an assignment
that solves its outcome has a property. -/
def Sound (f : Bindings → Option Bindings) (P : Assignment → Prop) : Prop :=
  ∀ θ θ', θ.Acyclic → f θ = some θ' →
    θ'.Acyclic ∧ θ.Extends θ' ∧ ∀ σ : Assignment, σ.Solves θ' → P σ

theorem Sound.bind {f g : Bindings → Option Bindings} {P Q : Assignment → Prop}
    (hf : Sound f P) (hg : Sound g Q) :
    Sound (fun θ => (f θ).bind g) (fun σ => P σ ∧ Q σ) := by
  intro θ θ'' hθ h
  obtain ⟨θ', h₁, h₂⟩ := Option.bind_eq_some_iff.1 h
  obtain ⟨ha₁, hx₁, hp⟩ := hf θ θ' hθ h₁
  obtain ⟨ha₂, hx₂, hq⟩ := hg θ' θ'' ha₁ h₂
  exact ⟨ha₂, hx₁.trans hx₂, fun σ hσ => ⟨hp σ (hσ.of_extends hx₂), hq σ hσ⟩⟩

theorem Sound.mono {f : Bindings → Option Bindings} {P Q : Assignment → Prop}
    (hf : Sound f P) (h : ∀ σ, P σ → Q σ) : Sound f Q := by
  intro θ θ' hθ hf'
  obtain ⟨ha, hx, hp⟩ := hf θ θ' hθ hf'
  exact ⟨ha, hx, fun σ hσ => h σ (hp σ hσ)⟩

theorem sound_none {P : Assignment → Prop} : Sound (fun _ => none) P := by
  intro θ θ' _ h
  cases h

theorem sound_ite {c : Prop} [Decidable c] {f : Bindings → Option Bindings}
    {P : Assignment → Prop} (hf : c → Sound f P) :
    Sound (fun θ => if c then f θ else none) P := by
  intro θ θ' hθ h
  by_cases hc : c
  · exact hf hc θ θ' hθ ((if_pos hc).symm.trans h)
  · cases (if_neg hc).symm.trans h

/-! ## Expressions and names -/

/-- What unifying two expressions can do: nothing, if their final values are
one variable or equal expressions; or bind the final value of one, which is a
variable that is not bound, to that of the other. -/
theorem exprs_cases {a b : Expr} {θ θ' : Bindings} (h : exprs a b θ = some θ') :
    (θ' = θ ∧ ∃ v, (θ.resolve a).varName? = some v ∧ (θ.resolve b).varName? = some v) ∨
    (θ' = θ ∧ (θ.resolve a).varName? = none ∧ (θ.resolve b).varName? = none ∧
      (θ.resolve a).same (θ.resolve b) = true) ∨
    (∃ v, (θ.resolve a).varName? = some v ∧ (θ.resolve b).varName? ≠ some v ∧
      θ' = θ.set v (θ.resolve b)) ∨
    (∃ v, (θ.resolve a).varName? = none ∧ (θ.resolve b).varName? = some v ∧
      θ' = θ.set v (θ.resolve a)) := by
  simp only [exprs] at h
  split at h
  · next v w hv hw =>
      by_cases hvw : v = w
      · subst hvw
        simp at h
        exact Or.inl ⟨h.symm, v, hv, hw⟩
      · simp [hvw] at h
        have hne : (θ.resolve b).varName? ≠ some v := by
          rw [hw]
          exact fun h => hvw (Option.some.inj h).symm
        exact Or.inr (Or.inr (Or.inl ⟨v, hv, hne, h.symm⟩))
  · next v hv hw =>
      cases h
      exact Or.inr (Or.inr (Or.inl ⟨v, hv, by simp [hw], rfl⟩))
  · next w hv hw =>
      cases h
      exact Or.inr (Or.inr (Or.inr ⟨w, hv, hw, rfl⟩))
  · next hv hw =>
      split at h
      · next hs =>
          cases h
          exact Or.inr (Or.inl ⟨rfl, hv, hw, hs⟩)
      · cases h

/-- Unifying two expressions makes their instances equal. -/
theorem exprs_sound (a b : Expr) :
    Sound (exprs a b) (fun σ => (a.inst σ).same (b.inst σ) = true) := by
  intro θ θ' hθ h
  have hfree := fun e v => Bindings.get?_eq_none_of_resolve hθ e v
  -- Under a solution the final values stand for the expressions themselves.
  have hsame : ∀ {σ : Assignment}, σ.Solves θ →
      ((θ.resolve a).inst σ).same ((θ.resolve b).inst σ) = true →
      (a.inst σ).same (b.inst σ) = true := by
    intro σ hσ hs
    rwa [Assignment.inst_resolve hθ hσ, Assignment.inst_resolve hθ hσ] at hs
  rcases exprs_cases h with ⟨rfl, v, ha, hb⟩ | ⟨rfl, ha, hb, hs⟩ | ⟨v, ha, hb, rfl⟩ |
    ⟨v, ha, hb, rfl⟩
  · refine ⟨hθ, Bindings.Extends.refl _, fun σ hσ => hsame hσ ?_⟩
    rw [Expr.inst_of_variable ha, Expr.inst_of_variable hb]
    exact Expr.same_refl _
  · refine ⟨hθ, Bindings.Extends.refl _, fun σ hσ => hsame hσ ?_⟩
    rw [Expr.inst_of_not_variable ha, Expr.inst_of_not_variable hb]
    exact hs
  · have hx := Bindings.extends_set (hfree a v ha) (θ.resolve b)
    have hacyc : (θ.set v (θ.resolve b)).Acyclic := by
      refine hθ.set (hfree a v ha) fun w hw => ⟨?_, hfree b w hw⟩
      intro hwv
      exact hb (hwv ▸ hw)
    refine ⟨hacyc, hx, fun σ hσ => hsame (hσ.of_extends hx) ?_⟩
    rw [Expr.inst_of_variable ha, hσ v (θ.resolve b) (Expr.isVariableName_of_varName? ha)
      (by rw [Bindings.get?_set (hfree a v ha), if_pos rfl])]
    exact Expr.same_refl _
  · have hx := Bindings.extends_set (hfree b v hb) (θ.resolve a)
    have hacyc : (θ.set v (θ.resolve a)).Acyclic := by
      refine hθ.set (hfree b v hb) fun w hw => ?_
      rw [ha] at hw
      cases hw
    refine ⟨hacyc, hx, fun σ hσ => hsame (hσ.of_extends hx) ?_⟩
    rw [Expr.inst_of_variable hb, hσ v (θ.resolve a) (Expr.isVariableName_of_varName? hb)
      (by rw [Bindings.get?_set (hfree b v hb), if_pos rfl])]
    exact Expr.same_refl _

/-- Expressions that are no variables unify when they are equal, and bind
nothing. -/
theorem exprs_of_not_variable {a b : Expr} (ha : a.varName? = none) (hb : b.varName? = none)
    (θ : Bindings) : exprs a b θ = if a.same b then some θ else none := by
  simp only [exprs, Bindings.resolve_of_not_variable ha, Bindings.resolve_of_not_variable hb,
    ha, hb]

/-- Names that are no variables unify when they are equal, and bind nothing. -/
theorem names_of_not_variable {a b : String} (ha : isVariableName a = false)
    (hb : isVariableName b = false) (θ : Bindings) :
    names a b θ = if a = b then some θ else none := by
  rw [names, exprs_of_not_variable (Expr.varName?_identifier_none ha)
    (Expr.varName?_identifier_none hb)]
  simp [Expr.same]

/-! ## Attributes -/

/-- Values that are no variables unify whatever is bound, or not at all. -/
theorem valuesAt_of_not_variable {x y : Option Expr} (hx : ∀ e, x = some e → e.varName? = none)
    (hy : ∀ e, y = some e → e.varName? = none) {θ θ' : Bindings}
    (h : valuesAt x y θ = some θ') : θ' = θ ∧ ∀ η, valuesAt x y η = some η := by
  cases x with
  | none =>
      cases y with
      | none =>
          cases h
          exact ⟨rfl, fun η => rfl⟩
      | some f => simp [valuesAt, Expr.isVariable, hy f rfl] at h
  | some e =>
      cases y with
      | none => simp [valuesAt, Expr.isVariable, hx e rfl] at h
      | some f =>
          simp only [valuesAt, exprs_of_not_variable (hx e rfl) (hy f rfl)] at h ⊢
          split at h
          · next hs =>
              cases h
              exact ⟨rfl, fun η => by rw [if_pos hs]⟩
          · cases h

/-- Attributes without variables unify whatever is bound, or not at all. -/
theorem attributes_of_not_variable {a b : Attributes} (ha : ∀ x ∈ a, x.2.varName? = none)
    (hb : ∀ x ∈ b, x.2.varName? = none) :
    ∀ (ks : List String) {θ θ' : Bindings}, attributes a b ks θ = some θ' →
      θ' = θ ∧ ∀ η, attributes a b ks η = some η
  | [], θ, θ', h => by
      cases h
      exact ⟨rfl, fun η => rfl⟩
  | k :: ks, θ, θ', h => by
      obtain ⟨θ₁, h₁, h₂⟩ := Option.bind_eq_some_iff.1 h
      obtain ⟨rfl, hv⟩ := valuesAt_of_not_variable (fun e he => ha (k, e) (Attributes.mem_of_get? he))
        (fun e he => hb (k, e) (Attributes.mem_of_get? he)) h₁
      obtain ⟨rfl, hks⟩ := attributes_of_not_variable ha hb ks h₂
      refine ⟨rfl, fun η => Option.bind_eq_some_iff.2 ⟨η, hv η, hks η⟩⟩

/-! ## Statements -/

/-- Unifying two statements makes their instances unify with nothing to bind. -/
theorem statements_sound {s t : Statement} (hs : s.sideVars = []) (ht : t.sideVars = []) :
    Sound (statements s t) (fun σ => statements (s.inst σ) (t.inst σ) [] = some []) := by
  obtain ⟨hsn, hsa⟩ := Statement.sideVars_eq_nil.1 hs
  obtain ⟨htn, hta⟩ := Statement.sideVars_eq_nil.1 ht
  intro θ θ' hθ h
  obtain ⟨θ₁, h₁, h⟩ := Option.bind_eq_some_iff.1 h
  obtain ⟨θ₂, h₂, h⟩ := Option.bind_eq_some_iff.1 h
  obtain ⟨θ₃, h₃, h₄⟩ := Option.bind_eq_some_iff.1 h
  rw [names_of_not_variable hsn htn] at h₂
  split at h₂
  · next hname =>
      cases h₂
      obtain ⟨rfl, hattr⟩ := attributes_of_not_variable hsa hta _ h₄
      obtain ⟨hc, hx, hp⟩ := (exprs_sound s.subject t.subject).bind
        (exprs_sound s.object t.object) θ θ' hθ (Option.bind_eq_some_iff.2 ⟨θ₁, h₁, h₃⟩)
      refine ⟨hc, hx, fun σ hσ => ?_⟩
      obtain ⟨hsub, hobj⟩ := hp σ hσ
      have h₁' : exprs (s.inst σ).subject (t.inst σ).subject [] = some [] := by
        simp [Statement.inst, exprs_of_not_variable, hsub]
      have h₂' : names (s.inst σ).relation.name (t.inst σ).relation.name [] = some [] := by
        exact (names_of_not_variable hsn htn []).trans (if_pos hname)
      have h₃' : exprs (s.inst σ).object (t.inst σ).object [] = some [] := by
        simp [Statement.inst, exprs_of_not_variable, hobj]
      simp only [statements, h₁', h₂', h₃', Option.bind_eq_bind, Option.bind_some]
      rw [Statement.attributes_inst hs σ, Statement.attributes_inst ht σ]
      exact hattr []
  · cases h₂

theorem statementLists_sound : ∀ {ss ts : List Statement}, (∀ s ∈ ss, s.sideVars = []) →
    (∀ t ∈ ts, t.sideVars = []) →
    Sound (statementLists ss ts) (fun σ =>
      statementLists (ss.map (Statement.inst σ)) (ts.map (Statement.inst σ)) [] = some [])
  | [], [], _, _ => by
      intro θ θ' hθ h
      cases h
      exact ⟨hθ, Bindings.Extends.refl _, fun σ _ => rfl⟩
  | s :: ss, t :: ts, hs, ht => by
      have h₁ := statements_sound (hs s (by simp)) (ht t (by simp))
      have h₂ := statementLists_sound (fun u hu => hs u (List.mem_cons_of_mem s hu))
        (fun u hu => ht u (List.mem_cons_of_mem t hu))
      refine (h₁.bind h₂).mono fun σ hσ => ?_
      simp only [List.map_cons, statementLists, hσ.1, hσ.2, Option.bind_eq_bind,
        Option.bind_some]
  | [], _ :: _, _, _ => sound_none
  | _ :: _, [], _, _ => sound_none

/-! ## Nodes -/

/-- Operands unify soundly when they do where both are there. -/
theorem operands_sound {a b : Option Node}
    (h : ∀ m n, a = some m → b = some n →
      Sound (nodes m n) (fun σ => nodes (m.inst σ) (n.inst σ) [] = some [])) :
    Sound (operands a b) (fun σ =>
      operands (Node.instOperand σ a) (Node.instOperand σ b) [] = some []) := by
  cases a with
  | none =>
      cases b with
      | none =>
          intro θ θ' hθ h'
          cases h'
          exact ⟨hθ, Bindings.Extends.refl _, fun σ _ => rfl⟩
      | some n => exact sound_none
  | some m =>
      cases b with
      | none => exact sound_none
      | some n => exact h m n rfl rfl

/-- Edges whose names are no variables unify when they are of one kind and
have the same names, and bind nothing. -/
theorem edges_of_not_variable {e f : Edge} (he : e.vars = []) (hf : f.vars = [])
    (θ : Bindings) :
    edges e f θ = if e.kind = f.kind ∧ e.source = f.source ∧ e.target = f.target ∧
      e.name = f.name then some θ else none := by
  obtain ⟨hes, het, hen⟩ := Edge.vars_eq_nil.1 he
  obtain ⟨hfs, hft, hfn⟩ := Edge.vars_eq_nil.1 hf
  simp only [edges, names_of_not_variable hes hfs, names_of_not_variable het hft,
    names_of_not_variable hen hfn]
  by_cases hk : e.kind = f.kind <;> by_cases hs : e.source = f.source <;>
    by_cases ht : e.target = f.target <;> simp [hk, hs, ht]

theorem edges_sound {e f : Edge} (he : e.vars = []) (hf : f.vars = []) :
    Sound (edges e f) (fun _ => edges e f [] = some []) := by
  intro θ θ' hθ h
  rw [edges_of_not_variable he hf] at h
  split at h
  · next hc =>
      cases h
      refine ⟨hθ, Bindings.Extends.refl _, fun _ _ => ?_⟩
      rw [edges_of_not_variable he hf, if_pos hc]
  · cases h

/-- Unifying two nodes makes their instances unify with nothing to bind. -/
theorem nodes_sound {a b : Node} (ha : a.VarsInTerms) (hb : b.VarsInTerms) :
    Sound (nodes a b) (fun σ => nodes (a.inst σ) (b.inst σ) [] = some []) := by
  induction a using Node.ind generalizing b with
  | intent i =>
      cases b with
      | intent j =>
          refine sound_ite fun hk => ?_
          refine (statementLists_sound (Node.varsInTerms_intent.1 ha)
            (Node.varsInTerms_intent.1 hb)).mono fun σ hσ => ?_
          simp only [Node.inst, nodes, intents, hk, if_true]
          exact hσ
      | _ => exact sound_none
  | compound o a c iha ihc =>
      cases b with
      | compound p b d =>
          rw [Node.varsInTerms_compound] at ha hb
          refine sound_ite fun ho => ?_
          have h₁ : Sound (operands a b) (fun σ =>
              operands (Node.instOperand σ a) (Node.instOperand σ b) [] = some []) :=
            operands_sound fun m n hm hn => iha m hm (ha.1 m hm) (hb.1 n hn)
          have h₂ : Sound (operands c d) (fun σ =>
              operands (Node.instOperand σ c) (Node.instOperand σ d) [] = some []) :=
            operands_sound fun m n hm hn => ihc m hm (ha.2 m hm) (hb.2 n hn)
          refine (h₁.bind h₂).mono fun σ hσ => ?_
          simp only [Node.inst, nodes, ho, if_true, hσ.1, hσ.2, Option.bind_eq_bind,
            Option.bind_some]
      | _ => exact sound_none
  | quantified q v a d ih =>
      cases b with
      | quantified r w b e =>
          have hb' : b.VarsInTerms := hb
          refine sound_ite fun hc => (ih ha hb').mono fun σ hσ => ?_
          simp only [Node.inst, nodes, hc, if_true]
          exact hσ
      | _ => exact sound_none
  | rule i a c d x k iha ihc =>
      cases b with
      | rule j b e f y l =>
          rw [Node.varsInTerms_rule] at ha hb
          refine sound_ite fun hc => ?_
          refine ((iha ha.1 hb.1).bind (ihc ha.2 hb.2)).mono fun σ hσ => ?_
          simp only [Node.inst, nodes, hc, if_true, hσ.1, hσ.2, Option.bind_eq_bind,
            Option.bind_some]
      | _ => exact sound_none
  | edge e =>
      cases b with
      | edge f => exact edges_sound ha hb
      | _ => exact sound_none

/-! ## Equal nodes -/

theorem varName?_of_same {a b : Expr} (h : a.same b = true) : a.varName? = b.varName? := by
  cases a <;> cases b <;> simp_all [Expr.same, Expr.varName?]

/-- The instances of equal expressions are equal. -/
theorem inst_same {a b : Expr} (h : a.same b = true) (σ : Assignment) :
    (a.inst σ).same (b.inst σ) = true := by
  have hv := varName?_of_same h
  cases ha : a.varName? with
  | none =>
      rw [Expr.inst_of_not_variable ha, Expr.inst_of_not_variable (hv ▸ ha)]
      exact h
  | some v =>
      rw [Expr.inst_of_variable ha, Expr.inst_of_variable (hv ▸ ha)]
      exact Expr.same_refl _

/-- Equal attributes have equal values under every key. -/
theorem valuesAt_of_same {a b : Attributes} (h : Attributes.same a b = true)
    (ha : ∀ x ∈ a, x.2.varName? = none) (k : String) (θ : Bindings) :
    valuesAt (a.get? k) (b.get? k) θ = some θ := by
  have hcanon : (a.get? k).map Expr.canon = (b.get? k).map Expr.canon := by
    rw [← Attributes.get?_map, ← Attributes.get?_map]
    exact congrArg (Attributes.get? · k) ((Attributes.same_iff a b).1 h)
  cases hx : a.get? k with
  | none =>
      rw [hx, Option.map_none, eq_comm, Option.map_eq_none_iff] at hcanon
      rw [hcanon]
      rfl
  | some x =>
      rw [hx, Option.map_some, eq_comm, Option.map_eq_some_iff] at hcanon
      obtain ⟨y, hy, hyx⟩ := hcanon
      have hsame : x.same y = true := (Expr.same_iff x y).2 hyx.symm
      have hvar : x.varName? = none := ha (k, x) (Attributes.mem_of_get? hx)
      rw [hy, valuesAt, exprs_of_not_variable hvar (varName?_of_same hsame ▸ hvar), if_pos hsame]

theorem attributes_of_same {a b : Attributes} (h : Attributes.same a b = true)
    (ha : ∀ x ∈ a, x.2.varName? = none) :
    ∀ (ks : List String) (θ : Bindings), attributes a b ks θ = some θ
  | [], _ => rfl
  | k :: ks, θ =>
      Option.bind_eq_some_iff.2 ⟨θ, valuesAt_of_same h ha k θ, attributes_of_same h ha ks θ⟩

theorem statements_inst_of_same {s t : Statement} (hs : s.sideVars = []) (ht : t.sideVars = [])
    (h : s.same t = true) (σ : Assignment) : statements (s.inst σ) (t.inst σ) [] = some [] := by
  simp only [Statement.same, Bool.and_eq_true, beq_iff_eq] at h
  obtain ⟨⟨⟨hsub, hrel⟩, hobj⟩, hattr⟩ := h
  obtain ⟨hsn, hsa⟩ := Statement.sideVars_eq_nil.1 hs
  obtain ⟨htn, _⟩ := Statement.sideVars_eq_nil.1 ht
  have h₁ : exprs (s.inst σ).subject (t.inst σ).subject [] = some [] := by
    simp [Statement.inst, exprs_of_not_variable, inst_same hsub]
  have h₂ : names (s.inst σ).relation.name (t.inst σ).relation.name [] = some [] :=
    (names_of_not_variable hsn htn []).trans (if_pos hrel)
  have h₃ : exprs (s.inst σ).object (t.inst σ).object [] = some [] := by
    simp [Statement.inst, exprs_of_not_variable, inst_same hobj]
  simp only [statements, h₁, h₂, h₃, Option.bind_eq_bind, Option.bind_some]
  rw [Statement.attributes_inst hs σ, Statement.attributes_inst ht σ]
  exact attributes_of_same hattr hsa _ []

theorem statementLists_inst_of_same (σ : Assignment) : ∀ {ss ts : List Statement},
    (∀ s ∈ ss, s.sideVars = []) → (∀ t ∈ ts, t.sideVars = []) →
    Statement.sameAll ss ts = true →
    statementLists (ss.map (Statement.inst σ)) (ts.map (Statement.inst σ)) [] = some []
  | [], [], _, _, _ => rfl
  | s :: ss, t :: ts, hs, ht, h => by
      simp only [Statement.sameAll, Bool.and_eq_true] at h
      have h₁ := statements_inst_of_same (hs s (List.mem_cons_self ..))
        (ht t (List.mem_cons_self ..)) h.1 σ
      have h₂ := statementLists_inst_of_same σ (fun u hu => hs u (List.mem_cons_of_mem s hu))
        (fun u hu => ht u (List.mem_cons_of_mem t hu)) h.2
      simp only [List.map_cons, statementLists, h₁, h₂, Option.bind_eq_bind, Option.bind_some]
  | [], _ :: _, _, _, h => by simp [Statement.sameAll] at h
  | _ :: _, [], _, _, h => by simp [Statement.sameAll] at h

theorem operands_inst_of_same {a b : Option Node} (σ : Assignment)
    (h : Node.sameOperand a b = true)
    (ih : ∀ m n, a = some m → b = some n → m.same n = true →
      nodes (m.inst σ) (n.inst σ) [] = some []) :
    operands (Node.instOperand σ a) (Node.instOperand σ b) [] = some [] := by
  cases a with
  | none =>
      cases b with
      | none => rfl
      | some n => simp [Node.sameOperand_none_some] at h
  | some m =>
      cases b with
      | none => simp [Node.sameOperand_some_none] at h
      | some n => exact ih m n rfl rfl h

/-- The instances of equal nodes unify with nothing to bind. -/
theorem nodes_inst_of_same {a b : Node} (ha : a.VarsInTerms) (hb : b.VarsInTerms)
    (h : a.same b = true) (σ : Assignment) : nodes (a.inst σ) (b.inst σ) [] = some [] := by
  induction a using Node.ind generalizing b with
  | intent i =>
      cases b with
      | intent j =>
          have h : i.same j = true := h
          simp only [Intent.same, Bool.and_eq_true] at h
          simp only [Node.inst, nodes, intents, h.1, if_true]
          exact statementLists_inst_of_same σ (Node.varsInTerms_intent.1 ha)
            (Node.varsInTerms_intent.1 hb) h.2
      | _ => simp [Node.same, Draft.ofNode, Draft.same] at h
  | compound o a c iha ihc =>
      cases b with
      | compound p b d =>
          rw [Node.varsInTerms_compound] at ha hb
          simp only [Node.same_compound, Bool.and_eq_true] at h
          have h₁ := operands_inst_of_same σ h.1.2 fun m n hm hn =>
            iha m hm (ha.1 m hm) (hb.1 n hn)
          have h₂ := operands_inst_of_same σ h.2 fun m n hm hn =>
            ihc m hm (ha.2 m hm) (hb.2 n hn)
          simp only [Node.inst, nodes, h.1.1, if_true, h₁, h₂, Option.bind_eq_bind,
            Option.bind_some]
      | _ => simp [Node.same, Draft.ofNode, Draft.same] at h
  | quantified q v a d ih =>
      cases b with
      | quantified r w b e =>
          have hb' : b.VarsInTerms := hb
          simp only [Node.same_quantified, Bool.and_eq_true] at h
          obtain ⟨⟨⟨hq, hv⟩, hd⟩, hab⟩ := h
          simp only [Node.inst, nodes, hq, hv, hd, Bool.and_self, if_true]
          exact ih ha hb' hab
      | _ => simp [Node.same, Draft.ofNode, Draft.same] at h
  | rule i a c d x k iha ihc =>
      cases b with
      | rule j b e f y l =>
          rw [Node.varsInTerms_rule] at ha hb
          simp only [Node.same_rule, Bool.and_eq_true] at h
          obtain ⟨⟨⟨⟨hi, _⟩, hx⟩, hab⟩, hce⟩ := h
          simp only [Node.inst, nodes, hi, hx, Bool.and_self, if_true, iha ha.1 hb.1 hab,
            ihc ha.2 hb.2 hce, Option.bind_eq_bind, Option.bind_some]
      | _ => simp [Node.same, Draft.ofNode, Draft.same] at h
  | edge e =>
      cases b with
      | edge f =>
          have h : e.same f = true := h
          simp only [Edge.same, Bool.and_eq_true, beq_iff_eq] at h
          obtain ⟨⟨⟨⟨hk, hs⟩, ht⟩, hn⟩, _⟩ := h
          exact (edges_of_not_variable ha hb []).trans (if_pos ⟨hk, hs, ht, hn⟩)
      | _ => simp [Node.same, Draft.ofNode, Draft.same] at h

end Unify

end TripleLogic
