/-
TripleLogic.Proofs.Following — what following bindings comes to, whatever the
bindings are.

Bindings may bind variables to each other in circles, or a variable to itself,
also in its other spelling. `Follows` is following them without any guard; from
a variable on a circle that goes on for ever. `trail` holds the variables that
are followed on the way to the final value, which the rule that no binding is
followed twice cuts off.

Main statements: the final value is reached along a trail that has no variable
twice and is no longer than the bindings. It is an expression with no binding
to follow, unless following runs into a circle; then it is the first variable
that is met again, and that circle is the one it is on (`resolve_outcome`).
Bindings have no cycle, in the sense of a rank that falls along them, exactly
if no variable is on a circle (`acyclic_iff`).
-/
import TripleLogic.Proofs.Bindings
import Mathlib.Data.List.Perm.Subperm

namespace TripleLogic

namespace Bindings

/-- Following bindings from an expression: the variables that are followed, in
order, and the expression that is reached. -/
inductive Follows (θ : Bindings) : Expr → List String → Expr → Prop where
  | here (e : Expr) : Follows θ e [] e
  | along {e f g : Expr} {v : String} {vs : List String} (hv : e.varName? = some v)
      (hf : get? θ v = some f) (h : Follows θ f vs g) : Follows θ e (v :: vs) g

/-- Whether an expression has no binding to follow: it is no variable, or one
that is not bound. -/
def Final (θ : Bindings) (e : Expr) : Prop :=
  ∀ v, e.varName? = some v → get? θ v = none

/-- Following from an expression meets a variable. -/
def Meets (θ : Bindings) (e : Expr) (v : String) : Prop :=
  ∃ vs f, Follows θ e vs f ∧ f.varName? = some v

/-- A variable is bound, and following what it is bound to meets a variable. -/
def Leads (θ : Bindings) (u v : String) : Prop :=
  ∃ f, get? θ u = some f ∧ Meets θ f v

/-- A variable is on a circle: following from it meets it again. -/
def OnCircle (θ : Bindings) (v : String) : Prop :=
  Leads θ v v

/-- Following from an expression runs into a circle. -/
def RunsIntoCircle (θ : Bindings) (e : Expr) : Prop :=
  ∃ v, Meets θ e v ∧ OnCircle θ v

/-- The variables that are followed on the way to the final value. -/
def trail (θ : Bindings) (e : Expr) : List String :=
  match e.varName? with
  | none => []
  | some v =>
      match _h : get? θ v with
      | none => []
      | some f => v :: trail (without θ v) f
termination_by θ.length
decreasing_by exact length_without_lt _h

variable {θ : Bindings} {e f g : Expr} {u v : String} {us vs : List String}

/-! ## The trail -/

theorem trail_of_not_variable (h : e.varName? = none) (θ : Bindings) : trail θ e = [] := by
  rw [trail]
  simp [h]

theorem trail_of_unbound (hv : e.varName? = some v) (h : get? θ v = none) : trail θ e = [] := by
  rw [trail]
  split
  · rfl
  · next w hw =>
      cases hv.symm.trans hw
      split
      · rfl
      · next f hf => cases h.symm.trans hf

theorem trail_of_get? (hv : e.varName? = some v) (h : get? θ v = some f) :
    trail θ e = v :: trail (without θ v) f := by
  rw [trail]
  split
  · next hn => cases hv.symm.trans hn
  · next w hw =>
      cases hv.symm.trans hw
      split
      · next hn => cases h.symm.trans hn
      · next g hg => cases h.symm.trans hg; rfl

/-- Without the bindings of a variable, the others are followed as before. -/
theorem Follows.of_without (h : Follows (without θ v) e vs f) : Follows θ e vs f ∧ v ∉ vs := by
  induction h with
  | here e => exact ⟨.here e, List.not_mem_nil⟩
  | along hw hf _ ih =>
      rw [get?_without] at hf
      split at hf
      · cases hf
      · next hne => exact ⟨.along hw hf ih.1, List.not_mem_cons_of_ne_of_not_mem (Ne.symm hne) ih.2⟩

/-- The final value is reached along the trail. -/
theorem follows_resolve (θ : Bindings) (e : Expr) : Follows θ e (trail θ e) (resolve θ e) := by
  induction θ, e using Bindings.resolve.induct with
  | case1 θ e hv => rw [trail_of_not_variable hv, resolve_of_not_variable hv]; exact .here e
  | case2 θ e v hv hf => rw [trail_of_unbound hv hf, resolve_of_unbound hv hf]; exact .here e
  | case3 θ e v hv f hf ih =>
      rw [trail_of_get? hv hf, resolve_of_get? hv hf]
      exact .along hv hf ih.of_without.1

/-- No binding is followed twice. -/
theorem nodup_trail (θ : Bindings) (e : Expr) : (trail θ e).Nodup := by
  induction θ, e using Bindings.resolve.induct with
  | case1 θ e hv => rw [trail_of_not_variable hv]; exact List.nodup_nil
  | case2 θ e v hv hf => rw [trail_of_unbound hv hf]; exact List.nodup_nil
  | case3 θ e v hv f hf ih =>
      rw [trail_of_get? hv hf]
      exact List.nodup_cons.2 ⟨(follows_resolve _ f).of_without.2, ih⟩

/-- Following stops where there is no binding to follow, or at a variable of
which the binding was followed. -/
theorem final_or_mem_trail (θ : Bindings) (e : Expr) :
    Final θ (resolve θ e) ∨ ∃ v ∈ trail θ e, (resolve θ e).varName? = some v := by
  induction θ, e using Bindings.resolve.induct with
  | case1 θ e hv =>
      rw [resolve_of_not_variable hv]
      exact .inl fun v h => by cases hv.symm.trans h
  | case2 θ e v hv hf =>
      rw [resolve_of_unbound hv hf]
      exact .inl fun w hw => by cases hv.symm.trans hw; exact hf
  | case3 θ e v hv f hf ih =>
      rw [trail_of_get? hv hf, resolve_of_get? hv hf]
      rcases ih with hfinal | ⟨w, hw, hvar⟩
      · by_cases hmet : (resolve (without θ v) f).varName? = some v
        · exact .inr ⟨v, List.mem_cons_self, hmet⟩
        · refine .inl fun w hw => ?_
          have hne : w ≠ v := fun h => hmet (h ▸ hw)
          simpa [get?_without, hne] using hfinal w hw
      · exact .inr ⟨w, List.mem_cons_of_mem v hw, hvar⟩

/-! ## Following is deterministic -/

theorem Follows.trans (h : Follows θ e us f) (h' : Follows θ f vs g) :
    Follows θ e (us ++ vs) g := by
  induction h with
  | here e => exact h'
  | along hv hf _ ih => exact .along hv hf (ih h')

/-- Of two ways to follow bindings from an expression one goes on where the
other stops. -/
theorem Follows.continues (h : Follows θ e us f) (h' : Follows θ e vs g) :
    (∃ ws, vs = us ++ ws ∧ Follows θ f ws g) ∨ ∃ ws, us = vs ++ ws ∧ Follows θ g ws f := by
  induction h generalizing vs with
  | here e => exact .inl ⟨vs, rfl, h'⟩
  | along hv hf h ih =>
      cases h' with
      | here => exact .inr ⟨_, rfl, .along hv hf h⟩
      | along hw hg h' =>
          cases hv.symm.trans hw
          cases hf.symm.trans hg
          rcases ih h' with ⟨ws, rfl, hws⟩ | ⟨ws, rfl, hws⟩
          · exact .inl ⟨ws, rfl, hws⟩
          · exact .inr ⟨ws, rfl, hws⟩

theorem Final.eq_nil (h : Final θ e) (h' : Follows θ e vs f) : vs = [] := by
  cases h' with
  | here => rfl
  | along hv hf _ => cases (h _ hv).symm.trans hf

/-- Following goes no further than to an expression with no binding to follow. -/
theorem Follows.eq_append_of_final (h : Follows θ e us f) (h' : Follows θ e vs g)
    (hg : Final θ g) : ∃ ws, vs = us ++ ws := by
  rcases h.continues h' with ⟨ws, heq, -⟩ | ⟨ws, heq, hws⟩
  · exact ⟨ws, heq⟩
  · rw [hg.eq_nil hws, List.append_nil] at heq
    exact ⟨[], by rw [heq, List.append_nil]⟩

/-- All variables that are followed are bound. -/
theorem Follows.subset_keys (h : Follows θ e vs f) : vs ⊆ θ.map Prod.fst := by
  induction h with
  | here e => exact List.nil_subset _
  | along _ hf _ ih =>
      refine List.cons_subset.2 ⟨?_, ih⟩
      obtain ⟨l, r, hθ, -⟩ := List.lookup_eq_some_iff.1 hf
      simp [hθ]

/-! ## Circles -/

/-- A variable that is followed leads to the variable that is reached. -/
theorem Follows.leads (h : Follows θ e us f) (hu : u ∈ us) (hf : f.varName? = some v) :
    Leads θ u v := by
  induction h with
  | here e => cases hu
  | along _ hg h ih =>
      rcases List.mem_cons.1 hu with rfl | hu
      · exact ⟨_, hg, _, _, h, hf⟩
      · exact ih hu hf

/-- From a variable on a circle one can follow as many bindings as one likes,
and comes back to it. -/
theorem OnCircle.endless (hv : OnCircle θ v) (he : e.varName? = some v) (k : Nat) :
    ∃ us f, Follows θ e us f ∧ f.varName? = some v ∧ k ≤ us.length := by
  induction k with
  | zero => exact ⟨[], e, .here e, he, Nat.zero_le _⟩
  | succ k ih =>
      obtain ⟨us, f, hus, hf, hk⟩ := ih
      obtain ⟨g, hg, vs, x, hvs, hx⟩ := hv
      refine ⟨us ++ v :: vs, x, hus.trans (.along hf hg hvs), hx, ?_⟩
      simp only [List.length_append, List.length_cons]
      omega

/-- What is met from a variable on a circle is on that circle. -/
theorem OnCircle.leads (hu : OnCircle θ u) (he : e.varName? = some u) (h : Follows θ e us f)
    (hf : f.varName? = some v) : Leads θ u v ∧ Leads θ v u := by
  constructor
  · cases h with
    | here =>
        cases he.symm.trans hf
        exact hu
    | along hw hg h =>
        cases he.symm.trans hw
        exact ⟨_, hg, _, _, h, hf⟩
  · -- Going round often enough passes the variable.
    obtain ⟨vs, x, hvs, hx, hlength⟩ := hu.endless he (us.length + 1)
    rcases h.continues hvs with ⟨ws, rfl, hws⟩ | ⟨ws, rfl, -⟩
    · cases hws with
      | here =>
          rw [List.append_nil] at hlength
          omega
      | along hw hg h' =>
          cases hf.symm.trans hw
          exact ⟨_, hg, _, _, h', hx⟩
    · simp only [List.length_append] at hlength
      omega

/-- There is a binding to follow at the final value only if following runs into
a circle. -/
theorem final_resolve_iff : Final θ (resolve θ e) ↔ ¬ RunsIntoCircle θ e := by
  constructor
  · rintro hfinal ⟨v, ⟨us, f, hus, hf⟩, hv⟩
    -- From the circle one can go on for longer than to the final value.
    obtain ⟨vs, g, hvs, -, hlength⟩ := hv.endless hf ((trail θ e).length + 1)
    obtain ⟨ws, heq⟩ := (hus.trans hvs).eq_append_of_final (follows_resolve θ e) hfinal
    have hle := congrArg List.length heq
    simp only [List.length_append] at hle
    omega
  · intro h
    rcases final_or_mem_trail θ e with hfinal | ⟨v, hv, hvar⟩
    · exact hfinal
    · have hfollows := follows_resolve θ e
      exact absurd ⟨v, ⟨_, _, hfollows, hvar⟩, hfollows.leads hv hvar⟩ h

/-! ## Bindings without cycles -/

/-- The rank of a variable that is met is at most that of where one started. -/
theorem Ranked.le_of_follows {rank : String → Nat} (hrank : Ranked θ rank)
    (h : Follows θ e us f) (hf : f.varName? = some v) :
    ∃ u, e.varName? = some u ∧ rank v ≤ rank u := by
  induction h with
  | here e => exact ⟨v, hf, Nat.le_refl _⟩
  | @along e f' _ w _ hw hf' _ ih =>
      obtain ⟨x, hx, hle⟩ := ih hf
      exact ⟨w, hw, Nat.le_trans hle (Nat.le_of_lt (hrank w f' x hf' hx))⟩

/-- The number of bindings that are followed from a variable. -/
def hops (θ : Bindings) (v : String) : Nat :=
  (get? θ v).elim 0 fun f => (trail θ f).length + 1

/-- Bindings have no cycle if and only if no variable is on a circle. -/
theorem acyclic_iff : Acyclic θ ↔ ∀ v, ¬ OnCircle θ v := by
  constructor
  · rintro ⟨rank, hrank⟩ v ⟨f, hf, us, g, hus, hg⟩
    obtain ⟨u, hu, hle⟩ := hrank.le_of_follows hus hg
    exact Nat.not_lt_of_le hle (hrank v f u hf hu)
  · intro h
    have hfinal : ∀ e, Final θ (resolve θ e) :=
      fun e => final_resolve_iff.2 fun ⟨v, _, hv⟩ => h v hv
    refine ⟨hops θ, fun v f w hf hw => ?_⟩
    simp only [hops, hf, Option.elim_some]
    cases hg : get? θ w with
    | none => exact Nat.succ_pos _
    | some g =>
        have hfollows : Follows θ f (w :: trail θ g) (resolve θ g) :=
          .along hw hg (follows_resolve θ g)
        obtain ⟨ws, heq⟩ := hfollows.eq_append_of_final (follows_resolve θ f) (hfinal f)
        simp only [Option.elim_some, heq, List.length_append, List.length_cons]
        omega

/-! ## What following comes to -/

/-- What following bindings from an expression comes to: `seen` are the
variables that were followed, and `r` is where it stopped. -/
structure Outcome (θ : Bindings) (e : Expr) (seen : List String) (r : Expr) : Prop where
  follows : Follows θ e seen r
  /-- No binding is followed twice. -/
  nodup : seen.Nodup
  /-- There are no more steps than bindings. -/
  length_le : seen.length ≤ θ.length
  /-- The result is no variable, or one that is not bound, unless following runs
  into a circle. -/
  final_iff : Final θ r ↔ ¬ RunsIntoCircle θ e
  /-- If it does, the result is a variable on that circle, and the first one
  that is met a second time. -/
  again : RunsIntoCircle θ e → ∃ v ∈ seen, r.varName? = some v ∧ OnCircle θ v ∧
    (∀ u, Meets θ e u → OnCircle θ u → Leads θ u v ∧ Leads θ v u) ∧
      ∀ us f u, Follows θ e us f → f.varName? = some u → u ∈ us → seen <+: us

/-- **Following bindings comes to an end**, whatever the bindings: at an
expression with no binding to follow, or else at the first variable that is met
again. -/
theorem resolve_outcome (θ : Bindings) (e : Expr) : Outcome θ e (trail θ e) (resolve θ e) := by
  have hfollows := follows_resolve θ e
  refine ⟨hfollows, nodup_trail θ e, ?_, final_resolve_iff, fun hcircle => ?_⟩
  · have hperm := List.subperm_of_subset (nodup_trail θ e) hfollows.subset_keys
    simpa using hperm.length_le
  · obtain ⟨v, hmem, hv⟩ :=
      (final_or_mem_trail θ e).resolve_left fun h => final_resolve_iff.1 h hcircle
    have hon : OnCircle θ v := hfollows.leads hmem hv
    refine ⟨v, hmem, hv, hon, ?_, ?_⟩
    · rintro u ⟨us, f, hus, hf⟩ hu
      rcases hfollows.continues hus with ⟨ws, -, hws⟩ | ⟨ws, -, hws⟩
      · exact (hon.leads hv hws hf).symm
      · exact hu.leads hf hws hv
    · intro us f u hus hf hu
      rcases hfollows.continues hus with ⟨ws, heq, -⟩ | ⟨ws, heq, hws⟩
      · exact ⟨ws, heq.symm⟩
      · -- A variable met again before the end would be twice in the trail.
        cases hws with
        | here => exact ⟨[], by rw [heq, List.append_nil, List.append_nil]⟩
        | along hw _ _ =>
            cases hf.symm.trans hw
            have hnodup := nodup_trail θ e
            rw [heq] at hnodup
            exact absurd List.mem_cons_self ((List.nodup_append.1 hnodup).2.2 u hu u · rfl)

/-- A chain that runs into a circle stops at the variable of the circle that it
meets first, in the spelling in which it meets it again. -/
example : resolve [("?A", .identifier "?B"), ("?B", .concept "?C"), ("?C", .concept "?B")]
    (.identifier "?A") = .concept "?B" := by
  cbv

end Bindings

end TripleLogic
