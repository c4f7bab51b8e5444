/-
TripleLogic.Proofs.Symmetry — unification the other way round.

The equations of two nodes the other way round are their equations with the sides
exchanged (`equations_swap`), since the keys of attributes are gone through in
their own order.

Main statement: two nodes unify in both orders or in none, and the bindings
agree in all final values (`unify_symm`).
-/
import Mathlib.Data.String.Basic
import TripleLogic.Proofs.Counterparts
import TripleLogic.Proofs.FirstMet
import TripleLogic.Proofs.Mirror

namespace TripleLogic

/-! ## Attributes the other way round -/

namespace Attributes

theorem pairwise_keys (a b : Attributes) : (keys a b).Pairwise (· ≤ ·) := by
  refine (List.pairwise_mergeSort (fun k l m hkl hlm => ?_) (fun k l => ?_) _).imp
    of_decide_eq_true
  · exact decide_eq_true ((of_decide_eq_true hkl).trans (of_decide_eq_true hlm))
  · simpa using le_total k l

theorem keys_comm (a b : Attributes) : keys b a = keys a b := by
  have hperm : (keys b a).Perm (keys a b) :=
    (List.mergeSort_perm _ _).trans ((eraseDups_perm (List.perm_append_comm.map _)).trans
      (List.mergeSort_perm _ _).symm)
  exact hperm.eq_of_pairwise (fun _ _ _ _ => le_antisymm) (pairwise_keys b a) (pairwise_keys a b)

theorem parallel_comm (a b : Attributes) : b.parallel a = a.parallel b := by
  rw [parallel, parallel, keys_comm]
  refine congrArg (List.all _) (funext fun k => ?_)
  unfold parallelAt
  cases a.get? k <;> cases b.get? k <;> rfl

/-- The equations of attributes the other way round. -/
theorem equations_swap (a b : Attributes) : b.equations a = (a.equations b).map Prod.swap := by
  rw [equations, equations, keys_comm, List.map_filterMap]
  refine congrArg (List.filterMap · _) (funext fun k => ?_)
  unfold equationAt
  cases a.get? k <;> cases b.get? k <;> rfl

end Attributes

/-! ## Nodes the other way round -/

theorem Statement.parallel_comm (s t : Statement) : t.parallel s = s.parallel t :=
  Attributes.parallel_comm s.attributes t.attributes

theorem Statement.parallelAll_comm (ss ts : List Statement) :
    parallelAll ts ss = parallelAll ss ts := by
  have hpairs : ts.zip ss = (ss.zip ts).map Prod.swap := (List.zip_swap ss ts).symm
  rw [parallelAll, parallelAll, hpairs, List.all_map, Bool.beq_comm]
  refine congrArg _ (congrArg (List.all _) (funext fun p => ?_))
  exact parallel_comm p.1 p.2

/-- The equations of counterparts the other way round. -/
theorem Counterparts.equations_swap (c : Counterparts) :
    c.swap.equations = c.equations.map Prod.swap := by
  cases c with
  | statements s t =>
      simp [swap, equations, Statement.equations, Attributes.equations_swap s.attributes]
  | edges e f => rfl

namespace Node

theorem parallel_comm (a b : Node) : b.parallel a = a.parallel b := by
  induction a, b using ind₂ (Q := fun a b => parallelOperands b a = parallelOperands a b) with
  | absent b => cases b <;> rfl
  | lacking a => cases a <;> rfl
  | present m n ih => exact ih
  | intent i j => rw [parallel, parallel, Statement.parallelAll_comm, Bool.beq_comm]
  | compound o p a b c d hab hcd => rw [parallel, parallel, hab, hcd, Bool.beq_comm]
  | quantified q r v w a b d e ih =>
      rw [parallel, parallel, ih, @Bool.beq_comm _ _ _ r, @Bool.beq_comm _ _ _ w,
        @Bool.beq_comm _ _ _ e]
  | rule i j a b c k d e x y f g hab hck =>
      rw [parallel, parallel, hab, hck, @Bool.beq_comm _ _ _ j, @Bool.beq_comm _ _ _ y]
  | edge e f => exact Bool.beq_comm
  | apart a b h => cases a <;> cases b <;> first | rfl | exact absurd rfl h

/-- The equations of two nodes the other way round. -/
theorem equations_swap (a b : Node) : b.equations a = (a.equations b).map Prod.swap := by
  rw [equations_eq_flatMap, equations_eq_flatMap, counterparts_swap a b, List.flatMap_map,
    List.map_flatMap]
  exact congrArg (List.flatMap · _) (funext Counterparts.equations_swap)

/-- Unifying two nodes the other way round is solving their equations with the
sides exchanged. -/
theorem unifyWith_swap (a b : Node) (θ : Bindings) :
    b.unifyWith a θ = Unify.solveIf (a.parallel b) ((a.equations b).map Prod.swap) θ := by
  rw [unifyWith, Unify.nodes_eq_solve, parallel_comm, equations_swap]

/-- If two nodes unify, then so do they the other way round, and the bindings
agree. -/
theorem unifyWith_mirrors {a b : Node} {θ : Bindings} (h : a.unifyWith b [] = some θ) :
    ∃ η, b.unifyWith a [] = some η ∧ θ.Mirrors η := by
  rw [unifyWith, Unify.nodes_eq_solve] at h
  obtain ⟨hparallel, hsolve⟩ := Unify.solveIf_eq_some.1 h
  obtain ⟨η, hη, hmirrors⟩ := Unify.solve_mirrors _ (.refl []) Bindings.acyclic_nil
    Bindings.acyclic_nil hsolve
  refine ⟨η, ?_, hmirrors⟩
  rw [unifyWith_swap]
  exact Unify.solveIf_eq_some.2 ⟨hparallel, hη⟩

/-- With a ground node on one side, unification gives the same bindings both ways
round. -/
theorem unifyWith_comm_of_ground {a b : Node} (hb : b.Ground) :
    b.unifyWith a [] = a.unifyWith b [] := by
  have hvalues : ∀ p ∈ a.equations b, p.2.varName? = none := fun p hp => by
    have hvars := (vars_of_equations hp).2
    rw [hb] at hvars
    exact Expr.vars_eq_nil.1 (List.subset_nil.1 hvars)
  rw [unifyWith_swap, unifyWith, Unify.nodes_eq_solve, Unify.solveIf,
    Unify.solveIf, Unify.solve_swap_of_not_variable hvalues]

end Node

/-! ## What two runs have in common -/

namespace Bindings

/-- The final values of two variables are one variable. -/
def Joins (θ : Bindings) (v w : String) : Prop :=
  ∃ u, (θ.resolve (.identifier v)).varName? = some u ∧
    (θ.resolve (.identifier w)).varName? = some u

theorem Mirrors.joins {θ η : Bindings} (h : θ.Mirrors η) {v w : String} (hj : θ.Joins v w) :
    η.Joins v w := by
  obtain ⟨u, hv, hw⟩ := hj
  obtain ⟨u', hv'⟩ := h.exists_varName? hv
  exact ⟨u', hv', (h.varName?_iff hv hv' _).1 hw⟩

/-- The text of a final value that is no variable is published. -/
theorem lookup_publish_of_resolve {θ : Bindings} (hθ : θ.Acyclic) {v : String} {t : Expr}
    (hv : isVariableName v = true) (ht : t.varName? = none) (h : θ.resolve (.identifier v) = t) :
    θ.publish.lookup v = some t.text := by
  have hname := Expr.varName?_identifier hv
  have hlookup := lookup_map_snd (fun e => (θ.resolve e).text) v θ
  rw [publish, hlookup]
  rw [← get?]
  cases hf : θ.get? v with
  | none =>
      rw [resolve_of_unbound hname hf] at h
      cases ht.symm.trans (h ▸ hname)
  | some f => rw [Option.map_some, ← resolve_of_bound hθ hname hf, h]

end Bindings

/-- **Unification is symmetric.** Two nodes unify in both orders or in none. The
bindings that the two orders find agree: a variable has a final value that is no
variable under the one if and only if it has the same under the other, and both
publish its text; two variables come to one variable under the one if and only
if they do under the other. If one of the nodes is ground, then both orders give
the same substitution. -/
theorem Node.unify_symm (a b : Node) :
    (a.unify b = none ↔ b.unify a = none) ∧
      ∀ θ η : Bindings, a.unifyWith b [] = some θ → b.unifyWith a [] = some η →
        (∀ v t, isVariableName v = true → t.varName? = none →
          (θ.resolve (.identifier v) = t ↔ η.resolve (.identifier v) = t) ∧
          (θ.resolve (.identifier v) = t →
            θ.publish.lookup v = some t.text ∧ η.publish.lookup v = some t.text)) ∧
        (∀ v w, θ.Joins v w ↔ η.Joins v w) ∧
        (a.Ground ∨ b.Ground → a.unify b = b.unify a) := by
  have hnone : ∀ {a b : Node}, b.unify a = none → a.unify b = none := by
    intro a b h
    rw [unify, Option.map_eq_none_iff] at h ⊢
    refine Option.eq_none_iff_forall_ne_some.2 fun θ hθ => ?_
    obtain ⟨η, hη, _⟩ := unifyWith_mirrors hθ
    cases h.symm.trans hη
  refine ⟨⟨hnone, hnone⟩, fun θ η hθ hη => ?_⟩
  obtain ⟨η', hη', hmirrors⟩ := unifyWith_mirrors hθ
  obtain rfl : η' = η := Option.some.inj (hη'.symm.trans hη)
  refine ⟨fun v t hv ht => ⟨hmirrors.final _ t ht, fun h => ⟨?_, ?_⟩⟩, fun v w => ?_, ?_⟩
  · exact Bindings.lookup_publish_of_resolve (acyclic_of_unifyWith hθ) hv ht h
  · exact Bindings.lookup_publish_of_resolve (acyclic_of_unifyWith hη) hv ht
      ((hmirrors.final _ t ht).1 h)
  · exact ⟨hmirrors.joins, hmirrors.symm.joins⟩
  · rintro (ha | hb)
    · rw [unify, unify, unifyWith_comm_of_ground ha]
    · rw [unify, unify, unifyWith_comm_of_ground hb]

/-- Each order binds another one of two unknown persons. Both find the same for
the third, and with known persons they find the same for all. -/
theorem acquaintance_unify_symm :
    let a := acquaintance (.concept "?X") (.identifier "?Y")
    let b := acquaintance (.concept "?Z") (.concept "Bob")
    let c := acquaintance (.concept "Ann") (.concept "Bob")
    let θ : Bindings := [("?X", .concept "?Z"), ("?Y", .concept "Bob")]
    let η : Bindings := [("?Z", .concept "?X"), ("?Y", .concept "Bob")]
    let ζ : Bindings := [("?X", .concept "Ann"), ("?Y", .concept "Bob")]
    a.unifyWith b [] = some θ ∧ b.unifyWith a [] = some η ∧
      θ.resolve (.identifier "?Y") = .concept "Bob" ∧
      θ.publish.lookup "?Y" = some "<Bob>" ∧ η.publish.lookup "?Y" = some "<Bob>" ∧
      θ.Joins "?X" "?Z" ∧ η.Joins "?X" "?Z" ∧
      a.unifyWith c [] = some ζ ∧ c.Ground ∧ a.unify c = c.unify a := by
  intro a b c θ η ζ
  have hθ : a.unifyWith b [] = some θ := by with_unfolding_all rfl
  have hη : b.unifyWith a [] = some η := by with_unfolding_all rfl
  have hζ : a.unifyWith c [] = some ζ := by with_unfolding_all rfl
  have hζ' : c.unifyWith a [] = some ζ := by with_unfolding_all rfl
  have hY : θ.resolve (.identifier "?Y") = .concept "Bob" := by with_unfolding_all rfl
  have hjoins : θ.Joins "?X" "?Z" := by
    refine ⟨"?Z", ?_, ?_⟩ <;> with_unfolding_all rfl
  have hground : c.Ground := by decide
  obtain ⟨hfinal, hshared, _⟩ := (Node.unify_symm a b).2 θ η hθ hη
  obtain ⟨htext, htext'⟩ := (hfinal "?Y" (.concept "Bob") rfl rfl).2 hY
  have hcomm := ((Node.unify_symm a c).2 ζ ζ hζ hζ').2.2 (Or.inr hground)
  exact ⟨hθ, hη, hY, htext, htext', hjoins, (hshared "?X" "?Z").1 hjoins, hζ, hground, hcomm⟩

end TripleLogic
