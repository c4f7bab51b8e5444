/-
TripleLogic.Proofs.Bindings — following bindings that have no cycle.

Bindings have no cycle when their variables can be ranked so that a variable
bound to another one has the greater rank. Under such bindings the rule that
a binding is followed at most once never comes into play: the final value of
a bound variable is the final value of what it is bound to
(`resolve_of_bound`), and a final value that is a variable is not bound
(`get?_eq_none_of_resolve`).

Binding a variable that is not bound to something that is not bound either
makes no cycle (`Acyclic.set`).
-/
import TripleLogic.Bindings

namespace TripleLogic

namespace Expr

/-- Only names with a question mark are variables. -/
theorem isVariableName_of_varName? {e : Expr} {v : String} (h : e.varName? = some v) :
    isVariableName v = true := by
  cases e with
  | concept name =>
      simp only [varName?] at h
      split at h
      · next hn => cases h; exact hn
      · cases h
  | identifier name =>
      simp only [varName?] at h
      split at h
      · next hn => cases h; exact hn
      · cases h
  | _ => simp [varName?] at h

/-- A name with a question mark, read as an identifier, is a variable. -/
theorem varName?_identifier {v : String} (h : isVariableName v = true) :
    (Expr.identifier v).varName? = some v := by
  simp [varName?, h]

theorem varName?_identifier_none {v : String} (h : isVariableName v = false) :
    (Expr.identifier v).varName? = none := by
  simp [varName?, h]

end Expr

namespace Bindings

/-! ## Looking up and binding -/

theorem get?_nil (v : String) : get? [] v = none := rfl

theorem get?_cons (w v : String) (e : Expr) (θ : Bindings) :
    get? ((w, e) :: θ) v = if v = w then some e else get? θ v := by
  by_cases h : v = w
  · simp [get?, h]
  · simp [get?, List.lookup_cons, h, beq_eq_false_iff_ne.2 h]

theorem get?_append (θ η : Bindings) (v : String) :
    get? (θ ++ η) v = (get? θ v).or (get? η v) := by
  induction θ with
  | nil => simp [get?_nil]
  | cons b rest ih =>
      obtain ⟨w, e⟩ := b
      rw [List.cons_append, get?_cons, get?_cons, ih]
      by_cases h : v = w <;> simp [h]

/-- Binding a variable that is not bound adds one binding and changes no other. -/
theorem get?_set {θ : Bindings} {v : String} (hv : get? θ v = none) (e : Expr) (w : String) :
    get? (set θ v e) w = if w = v then some e else get? θ w := by
  have hs : set θ v e = θ ++ [(v, e)] := by simp [set, hv]
  rw [hs, get?_append, get?_cons, get?_nil]
  by_cases h : w = v
  · subst h
    simp [hv]
  · simp [h]

theorem get?_without (θ : Bindings) (v w : String) :
    get? (without θ v) w = if w = v then none else get? θ w := by
  induction θ with
  | nil => simp [without, get?_nil]
  | cons b rest ih =>
      obtain ⟨u, e⟩ := b
      by_cases hu : u = v
      · subst hu
        have hw : without ((u, e) :: rest) u = without rest u := by simp [without]
        rw [hw, ih, get?_cons]
        by_cases h : w = u <;> simp [h]
      · have hw : without ((u, e) :: rest) v = (u, e) :: without rest v := by
          simp [without, hu]
        rw [hw, get?_cons, ih, get?_cons]
        by_cases h : w = u
        · subst h
          simp [hu]
        · simp [h]

/-- Bindings in which nothing is bound are empty. -/
theorem eq_nil_of_get?_eq_none {θ : Bindings} (h : ∀ v, get? θ v = none) : θ = [] := by
  cases θ with
  | nil => rfl
  | cons b rest =>
      have hb := h b.1
      rw [get?_cons, if_pos rfl] at hb
      cases hb

/-! ## Extension -/

/-- All bindings of the first are bindings of the second. -/
def Extends (θ θ' : Bindings) : Prop :=
  ∀ v e, get? θ v = some e → get? θ' v = some e

theorem Extends.refl (θ : Bindings) : Extends θ θ := fun _ _ h => h

theorem Extends.trans {θ₁ θ₂ θ₃ : Bindings} (h₁ : Extends θ₁ θ₂) (h₂ : Extends θ₂ θ₃) :
    Extends θ₁ θ₃ :=
  fun v e h => h₂ v e (h₁ v e h)

theorem extends_set {θ : Bindings} {v : String} (hv : get? θ v = none) (e : Expr) :
    Extends θ (set θ v e) := by
  intro w f hw
  rw [get?_set hv]
  by_cases h : w = v
  · rw [h, hv] at hw
    cases hw
  · rw [if_neg h]
    exact hw

/-- What extends to nothing is nothing. -/
theorem Extends.eq_nil {θ : Bindings} (h : Extends θ []) : θ = [] := by
  apply eq_nil_of_get?_eq_none
  intro v
  cases hv : get? θ v with
  | none => rfl
  | some e => exact absurd (h v e hv) (by simp [get?_nil])

/-! ## Bindings without cycles -/

/-- A rank of variables that falls along bindings. -/
def Ranked (θ : Bindings) (rank : String → Nat) : Prop :=
  ∀ v e w, get? θ v = some e → e.varName? = some w → rank w < rank v

/-- Bindings have no cycle: some rank falls along them. -/
def Acyclic (θ : Bindings) : Prop :=
  ∃ rank, Ranked θ rank

theorem acyclic_nil : Acyclic [] := ⟨fun _ => 0, by intro v e w h; simp [get?_nil] at h⟩

/-- A variable that is not bound may be bound to an expression that is no
variable, or to another variable that is not bound. -/
theorem Acyclic.set {θ : Bindings} (hθ : Acyclic θ) {v : String} {e : Expr}
    (hv : get? θ v = none) (he : ∀ w, e.varName? = some w → w ≠ v ∧ get? θ w = none) :
    Acyclic (set θ v e) := by
  obtain ⟨rank, hrank⟩ := hθ
  -- The variable of `e`, if there is one, is bound to nothing and can go last.
  refine ⟨fun u => if e.varName? = some u then 0 else rank u + 1, ?_⟩
  intro u f w hu hf
  rw [get?_set hv] at hu
  by_cases huv : u = v
  · rw [if_pos huv] at hu
    cases hu
    have hne : e.varName? ≠ some u := fun h => (he u h).1 huv
    show (if e.varName? = some w then 0 else rank w + 1)
      < if e.varName? = some u then 0 else rank u + 1
    rw [if_pos hf, if_neg hne]
    omega
  · rw [if_neg huv] at hu
    have hne : e.varName? ≠ some u := by
      intro h
      rw [(he u h).2] at hu
      cases hu
    have hlt := hrank u f w hu hf
    show (if e.varName? = some w then 0 else rank w + 1)
      < if e.varName? = some u then 0 else rank u + 1
    rw [if_neg hne]
    split <;> omega

/-! ## Final values -/

theorem resolve_of_not_variable {e : Expr} (h : e.varName? = none) (θ : Bindings) :
    resolve θ e = e := by
  rw [resolve]
  simp [h]

theorem resolve_of_unbound {θ : Bindings} {e : Expr} {v : String} (hv : e.varName? = some v)
    (h : get? θ v = none) : resolve θ e = e := by
  rw [resolve]
  split
  · rfl
  · next w hw =>
      cases hv.symm.trans hw
      split
      · rfl
      · next f hf => cases h.symm.trans hf

theorem resolve_of_get? {θ : Bindings} {e f : Expr} {v : String} (hv : e.varName? = some v)
    (h : get? θ v = some f) : resolve θ e = resolve (without θ v) f := by
  rw [resolve]
  split
  · next hn => cases hv.symm.trans hn
  · next w hw =>
      cases hv.symm.trans hw
      split
      · next hn => cases h.symm.trans hn
      · next g hg => cases h.symm.trans hg; rfl

theorem resolve_nil (e : Expr) : resolve [] e = e := by
  cases hv : e.varName? with
  | none => exact resolve_of_not_variable hv []
  | some v => exact resolve_of_unbound hv (get?_nil v)

/-- The final value of a variable depends only on the bindings of variables
that come before a bound on the rank. -/
theorem resolve_congr {rank : String → Nat} :
    ∀ (r : Nat) {θ η : Bindings}, Ranked θ rank →
      (∀ w, rank w < r → get? η w = get? θ w) →
      ∀ {e : Expr}, (∀ w, e.varName? = some w → rank w < r) → resolve η e = resolve θ e := by
  intro r
  induction r using Nat.strongRecOn with
  | _ r ih =>
      intro θ η hθ hagree e he
      cases hv : e.varName? with
      | none => rw [resolve_of_not_variable hv, resolve_of_not_variable hv]
      | some v =>
          have hr : rank v < r := he v hv
          cases hf : get? θ v with
          | none => rw [resolve_of_unbound hv hf, resolve_of_unbound hv (by rw [hagree v hr, hf])]
          | some f =>
              rw [resolve_of_get? hv hf, resolve_of_get? hv (by rw [hagree v hr, hf])]
              refine ih (rank v) hr ?_ ?_ (fun w hw => hθ v f w hf hw)
              · intro u g w hu hg
                rw [get?_without] at hu
                split at hu
                · cases hu
                · exact hθ u g w hu hg
              · intro w hw
                have hne : w ≠ v := by
                  intro h
                  rw [h] at hw
                  omega
                rw [get?_without, get?_without, if_neg hne, if_neg hne]
                exact hagree w (by omega)

/-- Without cycles, a bound variable has the final value of what it is bound to. -/
theorem resolve_of_bound {θ : Bindings} (hθ : Acyclic θ) {e f : Expr} {v : String}
    (hv : e.varName? = some v) (hf : get? θ v = some f) : resolve θ e = resolve θ f := by
  obtain ⟨rank, hrank⟩ := hθ
  rw [resolve_of_get? hv hf]
  refine resolve_congr (rank v) hrank ?_ (fun w hw => hrank v f w hf hw)
  intro w hw
  have hne : w ≠ v := by
    intro h
    rw [h] at hw
    omega
  rw [get?_without, if_neg hne]

/-- What holds of final values: it holds of expressions that are no bound
variables, and passes from what a variable is bound to to the variable. -/
theorem resolve_induct {θ : Bindings} (hθ : Acyclic θ) {motive : Expr → Prop}
    (final : ∀ e, (∀ v, e.varName? = some v → get? θ v = none) → motive e)
    (bound : ∀ e v f, e.varName? = some v → get? θ v = some f → motive f → motive e) :
    ∀ e, motive e := by
  obtain ⟨rank, hrank⟩ := hθ
  have key : ∀ r e, (∀ v, e.varName? = some v → rank v < r) → motive e := by
    intro r
    induction r with
    | zero =>
        intro e he
        exact final e fun v hv => absurd (he v hv) (Nat.not_lt_zero _)
    | succ r ih =>
        intro e he
        cases hv : e.varName? with
        | none => exact final e fun v h => by rw [hv] at h; cases h
        | some v =>
            cases hf : get? θ v with
            | none =>
                refine final e fun w hw => ?_
                rw [hv] at hw
                cases hw
                exact hf
            | some f =>
                refine bound e v f hv hf (ih f fun w hw => ?_)
                have h₁ := hrank v f w hf hw
                have h₂ := he v hv
                omega
  intro e
  cases hv : e.varName? with
  | none => exact key 0 e fun v h => by rw [hv] at h; cases h
  | some v =>
      refine key (rank v + 1) e fun w hw => ?_
      rw [hv] at hw
      cases hw
      omega

/-- Without cycles, a final value that is a variable is not bound. -/
theorem get?_eq_none_of_resolve {θ : Bindings} (hθ : Acyclic θ) (e : Expr) :
    ∀ v, (resolve θ e).varName? = some v → get? θ v = none := by
  induction e using resolve_induct hθ with
  | final e h =>
      intro v hv
      cases hw : e.varName? with
      | none => rw [resolve_of_not_variable hw, hw] at hv; cases hv
      | some w =>
          rw [resolve_of_unbound hw (h w hw)] at hv
          exact h v hv
  | bound e v f hv hf ih => rwa [resolve_of_bound hθ hv hf]

end Bindings

end TripleLogic
