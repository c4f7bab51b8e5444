/-
TripleLogic.Proofs.Premises — bindings found for premises support all of
their conjuncts.

Matching goes through the conjuncts one after the other and keeps the
bindings that it has, so an assignment that solves the outcome makes every
conjunct an instance of some node at once (`matchPremises_sound`).
-/
import TripleLogic.Inference.Premises
import TripleLogic.Proofs.Unification

namespace TripleLogic

namespace Node

/-! ## Conjuncts -/

theorem conjuncts_ne_nil (n : Node) : n.conjuncts ≠ [] := by
  fun_induction conjuncts n with
  | case1 a b iha _ => simp [iha]
  | case2 n _ => simp

/-- What has one conjunct is its own conjunct. -/
theorem eq_of_conjuncts {n m : Node} (h : n.conjuncts = [m]) : m = n := by
  fun_induction conjuncts n with
  | case1 a b _ _ =>
      have ha := List.length_pos_iff.2 (conjuncts_ne_nil a)
      have hb := List.length_pos_iff.2 (conjuncts_ne_nil b)
      have hl := congrArg List.length h
      simp at hl
      omega
  | case2 n _ =>
      cases h
      rfl

theorem VarsInTerms.of_mem_conjuncts {n m : Node} (h : n.VarsInTerms) (hm : m ∈ n.conjuncts) :
    m.VarsInTerms := by
  fun_induction conjuncts n with
  | case1 a b iha ihb =>
      rw [varsInTerms_compound] at h
      rcases List.mem_append.1 hm with hm | hm
      · exact iha (h.1 a rfl) hm
      · exact ihb (h.2 b rfl) hm
  | case2 n _ =>
      rw [List.mem_singleton.1 hm]
      exact h

end Node

/-! ## Matching -/

/-- Under an assignment, a node is an instance of one of some nodes. -/
def Supported (nodes : List Node) (n : Node) (σ : Assignment) : Prop :=
  ∃ m ∈ nodes, Unify.nodes (n.inst σ) (m.inst σ) [] = some []

/-- The first node that unifies with a conjunct supports it. -/
theorem findSome?_sound {nodes : List Node} (hn : ∀ n ∈ nodes, n.VarsInTerms) {p : Node}
    (hp : p.VarsInTerms) :
    Unify.Sound (fun θ => nodes.findSome? fun n => p.unifyWith n θ) (Supported nodes p) := by
  intro θ θ' hθ h
  obtain ⟨n, hmem, hu⟩ := List.exists_of_findSome?_eq_some h
  obtain ⟨ha, hx, hσ⟩ := Unify.nodes_sound hp (hn n hmem) θ θ' hθ hu
  exact ⟨ha, hx, fun σ hs => ⟨n, hmem, hσ σ hs⟩⟩

theorem matchConjuncts_sound {nodes : List Node} (hn : ∀ n ∈ nodes, n.VarsInTerms) :
    ∀ (parts : List Node), (∀ p ∈ parts, p.VarsInTerms) →
      Unify.Sound (matchConjuncts nodes parts) (fun σ => ∀ p ∈ parts, Supported nodes p σ)
  | [], _ => by
      intro θ θ' hθ h
      cases h
      exact ⟨hθ, Bindings.Extends.refl _, fun σ _ p hp => by cases hp⟩
  | p :: ps, hp => by
      have h₁ := findSome?_sound hn (hp p (List.mem_cons_self ..))
      have h₂ := matchConjuncts_sound hn ps fun q hq => hp q (List.mem_cons_of_mem p hq)
      refine (h₁.bind h₂).mono fun σ hσ q hq => ?_
      rcases List.mem_cons.1 hq with rfl | hq
      · exact hσ.1
      · exact hσ.2 q hq

/-- Bindings found for premises have no cycle, and an assignment that solves
them makes every conjunct an instance of a node. -/
theorem matchPremises_sound {nodes : List Node} (hn : ∀ n ∈ nodes, n.VarsInTerms)
    {premises : Node} (hp : premises.VarsInTerms) {θ : Bindings}
    (h : θ ∈ matchPremises premises nodes []) :
    θ.Acyclic ∧ ∀ σ : Assignment, σ.Solves θ →
      ∀ c ∈ premises.conjuncts, Supported nodes c σ := by
  simp only [matchPremises] at h
  split at h
  · next m hc =>
      obtain ⟨n, hmem, hu⟩ := List.mem_filterMap.1 h
      obtain ⟨ha, -, hσ⟩ := Unify.nodes_sound hp (hn n hmem) [] θ Bindings.acyclic_nil hu
      refine ⟨ha, fun σ hs c hcm => ?_⟩
      rw [hc, List.mem_singleton, Node.eq_of_conjuncts hc] at hcm
      exact ⟨n, hmem, hcm ▸ hσ σ hs⟩
  · have hparts : ∀ c ∈ premises.conjuncts, c.VarsInTerms := fun c hc => hp.of_mem_conjuncts hc
    obtain ⟨ha, -, hσ⟩ := matchConjuncts_sound hn _ hparts [] θ Bindings.acyclic_nil
      (Option.mem_toList.1 h)
    exact ⟨ha, hσ⟩

end TripleLogic
