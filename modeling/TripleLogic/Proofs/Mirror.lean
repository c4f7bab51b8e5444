/-
TripleLogic.Proofs.Mirror — solving equations with their sides exchanged.

Where two variables meet, unification binds the left one. With the sides of an
equation exchanged it binds the other one, so that two runs over the same
equations build other chains of bindings. They agree in what the chains lead to:
an expression has a final value that is no variable in the one run if and only
if it has the same in the other, and two expressions share a variable in the one
if and only if they do in the other (`Mirrors`).

Main statement: if equations can be solved, then so can they with their sides
exchanged, and the outcomes agree (`solve_mirrors`), by induction on the
equations from one step (`exprs_mirrors`).
-/
import TripleLogic.Proofs.Solving

namespace TripleLogic

namespace Bindings

/-! ## Final values after one more binding -/

section

variable {θ η : Bindings}

theorem resolve_of_final {e : Expr} (h : ∀ v, e.varName? = some v → θ.get? v = none) :
    θ.resolve e = e := by
  cases hv : e.varName? with
  | none => exact resolve_of_not_variable hv θ
  | some v => exact resolve_of_unbound hv (h v hv)

/-- Binding a variable that is not bound to a final value replaces the one by the
other in all final values. -/
theorem resolve_set (hθ : θ.Acyclic) {v : String} {x : Expr} (hv : θ.get? v = none)
    (hx : ∀ w, x.varName? = some w → w ≠ v ∧ θ.get? w = none) (e : Expr) :
    (θ.set v x).resolve e = if (θ.resolve e).varName? = some v then x else θ.resolve e := by
  have hset := hθ.set hv hx
  have hfinal : ∀ y : Expr, (∀ w, y.varName? = some w → w ≠ v ∧ θ.get? w = none) →
      (θ.set v x).resolve y = y := fun y hy =>
    resolve_of_final fun w hw => by rw [get?_set hv, if_neg (hy w hw).1, (hy w hw).2]
  rw [← resolve_resolve hθ hset (extends_set hv x) e]
  split
  · next hev =>
      rw [resolve_of_bound hset hev (by rw [get?_set hv, if_pos rfl]), hfinal x hx]
  · next hev =>
      exact hfinal _ fun w hw => ⟨fun h => hev (h ▸ hw), get?_eq_none_of_resolve hθ e w hw⟩

/-! ## Bindings that agree in final values -/

/-- Bindings under which every expression has the same final value, but for the
choice among variables that stand for each other. -/
structure Mirrors (θ η : Bindings) : Prop where
  final : ∀ e x, x.varName? = none → (θ.resolve e = x ↔ η.resolve e = x)
  shared : ∀ e f, (θ.resolve e).varName? = (θ.resolve f).varName? ↔
    (η.resolve e).varName? = (η.resolve f).varName?

namespace Mirrors

theorem refl (θ : Bindings) : Mirrors θ θ := ⟨fun _ _ _ => Iff.rfl, fun _ _ => Iff.rfl⟩

theorem symm (h : Mirrors θ η) : Mirrors η θ :=
  ⟨fun e x hx => (h.final e x hx).symm, fun e f => (h.shared e f).symm⟩

theorem resolve_eq (h : Mirrors θ η) {e : Expr} (he : (θ.resolve e).varName? = none) :
    η.resolve e = θ.resolve e :=
  (h.final e _ he).1 rfl

/-- Final values are no variables under both. -/
theorem varName?_eq_none (h : Mirrors θ η) (e : Expr) :
    (θ.resolve e).varName? = none ↔ (η.resolve e).varName? = none :=
  ⟨fun he => by rw [h.resolve_eq he, he], fun he => by rw [h.symm.resolve_eq he, he]⟩

/-- Where one final value is a variable, the other is one, too. -/
theorem exists_varName? (h : Mirrors θ η) {e : Expr} {v : String}
    (he : (θ.resolve e).varName? = some v) : ∃ w, (η.resolve e).varName? = some w := by
  refine Option.ne_none_iff_exists'.1 fun hnone => ?_
  rw [← h.varName?_eq_none e, he] at hnone
  cases hnone

/-- Expressions have the variable of an expression under both. -/
theorem varName?_iff (h : Mirrors θ η) {c : Expr} {v w : String}
    (hv : (θ.resolve c).varName? = some v) (hw : (η.resolve c).varName? = some w) (e : Expr) :
    (θ.resolve e).varName? = some v ↔ (η.resolve e).varName? = some w := by
  rw [← hv, ← hw]
  exact h.shared e c

/-- Expressions that have different variables under the one have different ones
under the other. -/
theorem varName?_ne (h : Mirrors θ η) {a b : Expr} {v v' w w' : String}
    (hv : (θ.resolve a).varName? = some v) (hw : (η.resolve a).varName? = some w)
    (hv' : (θ.resolve b).varName? = some v') (hw' : (η.resolve b).varName? = some w')
    (hne : v' ≠ v) : w' ≠ w := by
  rintro rfl
  exact hne (Option.some.inj (hv'.symm.trans ((h.varName?_iff hv hw b).2 hw')))

/-- The variable of an expression is bound to a value. -/
theorem set_value (h : Mirrors θ η) (hθ : θ.Acyclic) (hη : η.Acyclic) {c x : Expr} {v w : String}
    (hv : (θ.resolve c).varName? = some v) (hw : (η.resolve c).varName? = some w)
    (hx : x.varName? = none) : Mirrors (θ.set v x) (η.set w x) := by
  have hfinal : ∀ {ζ : Bindings} {u : String} (w : String), x.varName? = some w →
      w ≠ u ∧ ζ.get? w = none := fun w hw => by cases hx.symm.trans hw
  have hθx := resolve_set hθ (get?_eq_none_of_resolve hθ c v hv) hfinal
  have hηx := resolve_set hη (get?_eq_none_of_resolve hη c w hw) hfinal
  have hiff := h.varName?_iff hv hw
  refine ⟨fun e y hy => ?_, fun e f => ?_⟩
  · rw [hθx, hηx]
    by_cases he : (θ.resolve e).varName? = some v
    · rw [if_pos he, if_pos ((hiff e).1 he)]
    · rw [if_neg he, if_neg (mt (hiff e).2 he)]
      exact h.final e y hy
  · rw [hθx, hθx, hηx, hηx]
    by_cases he : (θ.resolve e).varName? = some v <;> by_cases hf : (θ.resolve f).varName? = some v
    · rw [if_pos he, if_pos hf, if_pos ((hiff e).1 he), if_pos ((hiff f).1 hf)]
    · rw [if_pos he, if_neg hf, if_pos ((hiff e).1 he), if_neg (mt (hiff f).2 hf), hx, eq_comm,
        h.varName?_eq_none, eq_comm]
    · rw [if_neg he, if_pos hf, if_neg (mt (hiff e).2 he), if_pos ((hiff f).1 hf), hx,
        h.varName?_eq_none]
    · rw [if_neg he, if_neg hf, if_neg (mt (hiff e).2 he), if_neg (mt (hiff f).2 hf)]
      exact h.shared e f

/-- Two variables are bound together, in the one case the first to the second and
in the other the second to the first. -/
theorem set_variable (h : Mirrors θ η) (hθ : θ.Acyclic) (hη : η.Acyclic) {a b : Expr}
    {v v' w w' : String} (hv : (θ.resolve a).varName? = some v)
    (hv' : (θ.resolve b).varName? = some v') (hvv' : v' ≠ v)
    (hw : (η.resolve a).varName? = some w) (hw' : (η.resolve b).varName? = some w') :
    Mirrors (θ.set v (θ.resolve b)) (η.set w' (η.resolve a)) := by
  have hww' := (h.varName?_ne hv hw hv' hw' hvv').symm
  have hθx := resolve_set hθ (x := θ.resolve b) (get?_eq_none_of_resolve hθ a v hv) fun u hu => by
    cases hv'.symm.trans hu
    exact ⟨hvv', get?_eq_none_of_resolve hθ b _ hv'⟩
  have hηx := resolve_set hη (x := η.resolve a) (get?_eq_none_of_resolve hη b w' hw') fun u hu => by
    cases hw.symm.trans hu
    exact ⟨hww', get?_eq_none_of_resolve hη a _ hw⟩
  have ha := h.varName?_iff hv hw
  have hb := h.varName?_iff hv' hw'
  refine ⟨fun e x hx => ?_, fun e f => ?_⟩
  · -- A final value that is replaced is a variable before and after.
    have hkeep : ∀ {y z : Expr} {u u' : String}, y.varName? = some u' →
        ((if z.varName? = some u then y else z) = x ↔ z = x) := by
      intro y z u u' hy
      split
      · next hz =>
          refine iff_of_false (fun heq => ?_) fun heq => ?_
          · cases hx.symm.trans (heq ▸ hy)
          · cases hx.symm.trans (heq ▸ hz)
      · exact Iff.rfl
    rw [hθx, hηx, hkeep hv', hkeep hw]
    exact h.final e x hx
  · -- Each of the two is with `a`, with `b` or with neither, alike under both.
    rw [hθx, hθx, hηx, hηx]
    have hef := h.shared e f
    have hae := ha e
    have haf := ha f
    have hbe := hb e
    have hbf := hb f
    grind

end Mirrors

end

end Bindings

/-! ## Steps and runs -/

namespace Unify

variable {θ η θ' : Bindings}

/-- An equation that can be solved can be solved with its sides exchanged. -/
theorem exprs_mirrors (h : θ.Mirrors η) (hθ : θ.Acyclic) (hη : η.Acyclic) {a b : Expr}
    (hrun : exprs a b θ = some θ') : ∃ η', exprs b a η = some η' ∧ θ'.Mirrors η' := by
  rcases exprs_cases hrun with ⟨rfl, v, ha, hb⟩ | ⟨rfl, ha, hb, hs⟩ | ⟨v, ha, hne, rfl⟩ |
    ⟨v, ha, hb, rfl⟩
  · obtain ⟨w, hw⟩ := h.exists_varName? ha
    have hw' := ((h.shared a b).1 (ha.trans hb.symm)).symm.trans hw
    exact ⟨η, exprs_of_meets (Expr.meets_of_varName? hw' hw), h⟩
  · rw [← h.resolve_eq ha, ← h.resolve_eq hb] at hs
    exact ⟨η, exprs_of_meets (Expr.meets_iff.2 (Or.inl (Expr.same_symm hs))), h⟩
  · obtain ⟨w, hw⟩ := h.exists_varName? ha
    cases hb : (θ.resolve b).varName? with
    | none =>
        have hb' := (h.varName?_eq_none b).1 hb
        refine ⟨η.set w (η.resolve b), by simp [exprs, hb', hw], ?_⟩
        rw [h.resolve_eq hb]
        exact h.set_value hθ hη ha hw hb
    | some v' =>
        obtain ⟨w', hw'⟩ := h.exists_varName? hb
        have hvv' : v' ≠ v := fun hvv' => hne (hvv' ▸ hb)
        have hww' := h.varName?_ne ha hw hb hw' hvv'
        exact ⟨η.set w' (η.resolve a), by simp [exprs, hw', hw, hww'],
          h.set_variable hθ hη ha hb hvv' hw hw'⟩
  · obtain ⟨w, hw⟩ := h.exists_varName? hb
    have ha' := (h.varName?_eq_none a).1 ha
    refine ⟨η.set w (η.resolve a), by simp [exprs, ha', hw], ?_⟩
    rw [h.resolve_eq ha]
    exact h.set_value hθ hη hb hw ha

/-- Equations that can be solved can be solved with their sides exchanged. -/
theorem solve_mirrors (ps : List Equation) : ∀ {θ η θ' : Bindings}, θ.Mirrors η → θ.Acyclic →
    η.Acyclic → solve ps θ = some θ' →
    ∃ η', solve (ps.map Prod.swap) η = some η' ∧ θ'.Mirrors η' := by
  induction ps with
  | nil =>
      intro θ η θ' h _ _ hrun
      cases hrun
      exact ⟨η, rfl, h⟩
  | cons p ps ih =>
      intro θ η θ'' h hθ hη hrun
      obtain ⟨θ', h₁, h₂⟩ := Option.bind_eq_some_iff.1 hrun
      obtain ⟨η', h₁', h'⟩ := exprs_mirrors h hθ hη h₁
      have hθ' := (exprs_sound p.1 p.2 θ θ' hθ h₁).1
      have hη' := (exprs_sound p.2 p.1 η η' hη h₁').1
      obtain ⟨η'', h₂', h''⟩ := ih h' hθ' hη' h₂
      exact ⟨η'', Option.bind_eq_some_iff.2 ⟨η', h₁', h₂'⟩, h''⟩

/-- If one side of each equation is no variable, then solving them binds the same
with their sides exchanged. -/
theorem solve_swap_of_not_variable {ps : List Equation} (h : ∀ p ∈ ps, p.2.varName? = none)
    (θ : Bindings) : solve (ps.map Prod.swap) θ = solve ps θ := by
  induction ps generalizing θ with
  | nil => rfl
  | cons p ps ih =>
      obtain ⟨hp, hps⟩ := List.forall_mem_cons.1 h
      have hstep : exprs p.2 p.1 θ = exprs p.1 p.2 θ := by
        have hfinal := Bindings.resolve_of_not_variable hp θ
        cases ha : (θ.resolve p.1).varName? with
        | some v => simp [exprs, hfinal, hp, ha]
        | none =>
            have hsame : p.2.same (θ.resolve p.1) = (θ.resolve p.1).same p.2 :=
              Bool.eq_iff_iff.2 ⟨Expr.same_symm, Expr.same_symm⟩
            simp [exprs, hfinal, hp, ha, hsame]
      rw [List.map_cons, solve, solve, Prod.fst_swap, Prod.snd_swap, hstep]
      exact congrArg _ (funext (ih hps))

end Unify

end TripleLogic
