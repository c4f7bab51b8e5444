/-
TripleLogic.Proofs.Support — the bindings found for premises support every
conjunct as they stand.

A node supports a conjunct under bindings when the two unify with nothing
more to bind. A node that a conjunct was unified with supports it from then
on, whatever the later conjuncts bind: final values that meet go on to meet
under more bindings, and equations between such values are solved with nothing
to bind (`solve_of_meets`, `unifyWith_supports`).

Main statement: what is found for premises begins with the bindings that were
given and supports all conjuncts at once, and a single premise is found once
for every node that it unifies with, in order (`matchPremises_supports`).
-/
import TripleLogic.Proofs.Premises
import TripleLogic.Proofs.SinglePremise
import TripleLogic.Proofs.Solving

namespace TripleLogic

/-! ## Bindings that others begin with -/

namespace Bindings

/-- Bindings extend those that they begin with. -/
theorem Extends.of_isPrefix {θ θ' : Bindings} (h : θ <+: θ') : θ.Extends θ' := by
  obtain ⟨rest, rfl⟩ := h
  intro v e hv
  rw [get?_append, hv]
  rfl

/-- A variable that is not bound is bound after all others. -/
theorem prefix_set {θ : Bindings} {v : String} (hv : θ.get? v = none) (e : Expr) :
    θ <+: θ.set v e := by
  simp [set, hv]

end Bindings

namespace Unify

/-- What solving an equation binds comes after all bindings that are there. -/
theorem prefix_exprs {a b : Expr} {θ θ' : Bindings} (hθ : θ.Acyclic)
    (h : exprs a b θ = some θ') : θ <+: θ' := by
  have hfree := fun e v => Bindings.get?_eq_none_of_resolve hθ e v
  rcases exprs_cases h with ⟨rfl, _⟩ | ⟨rfl, _⟩ | ⟨v, ha, _, rfl⟩ | ⟨v, _, hb, rfl⟩
  · exact List.prefix_refl _
  · exact List.prefix_refl _
  · exact Bindings.prefix_set (hfree a v ha) _
  · exact Bindings.prefix_set (hfree b v hb) _

theorem prefix_solve (ps : List Equation) : ∀ {θ θ' : Bindings}, θ.Acyclic →
    solve ps θ = some θ' → θ <+: θ' := by
  induction ps with
  | nil =>
      intro θ θ' _ h
      cases h
      exact List.prefix_refl _
  | cons p ps ih =>
      intro θ θ'' hθ h
      obtain ⟨θ', h₁, h₂⟩ := Option.bind_eq_some_iff.1 h
      have hθ' := (exprs_sound p.1 p.2 θ θ' hθ h₁).1
      exact (prefix_exprs hθ h₁).trans (ih hθ' h₂)

/-- Equations that are solved already are solved with nothing more to bind. -/
theorem solve_of_meets {θ : Bindings} : ∀ {ps : List Equation},
    (∀ p ∈ ps, (θ.resolve p.1).meets (θ.resolve p.2) = true) → solve ps θ = some θ
  | [], _ => rfl
  | p :: ps, h => by
      obtain ⟨hp, hps⟩ := List.forall_mem_cons.1 h
      rw [solve, exprs_of_meets hp]
      exact solve_of_meets hps

end Unify

/-! ## Nodes that support a conjunct -/

/-- Among some nodes is one that unifies with a conjunct under bindings with
nothing more to bind. -/
def SupportedUnder (nodes : List Node) (θ : Bindings) (c : Node) : Prop :=
  ∃ m ∈ nodes, c.unifyWith m θ = some θ

namespace Node

theorem prefix_unifyWith {a b : Node} {θ θ' : Bindings} (hθ : θ.Acyclic)
    (h : a.unifyWith b θ = some θ') : θ <+: θ' := by
  rw [unifyWith, Unify.nodes_eq_solve, Unify.solveIf_eq_some] at h
  exact Unify.prefix_solve _ hθ h.2

/-- **Nodes that were unified stay unified**: under all bindings that extend
the outcome they unify with nothing more to bind. -/
theorem unifyWith_supports {a b : Node} {θ₀ θ θ' : Bindings} (h₀ : θ₀.Acyclic)
    (h : a.unifyWith b θ₀ = some θ) (hx : θ.Extends θ') (hθ' : θ'.Acyclic) :
    a.unifyWith b θ' = some θ' := by
  rw [unifyWith, Unify.nodes_eq_solve, Unify.solveIf_eq_some] at h ⊢
  obtain ⟨hparallel, hsolve⟩ := h
  have hθ := (Unify.solve_extends _ h₀ hsolve).1
  have hmeets := Unify.solve_meets _ h₀ hsolve
  exact ⟨hparallel, Unify.solve_of_meets fun p hp => hx.meets hθ hθ' (hmeets p hp)⟩

end Node

/-- Conjuncts that were matched one after the other are all supported in the
end, the earlier ones by the nodes that were found for them. -/
theorem matchConjuncts_supports (nodes : List Node) (parts : List Node) :
    ∀ {θ θ' : Bindings}, θ.Acyclic → matchConjuncts nodes parts θ = some θ' →
      θ'.Acyclic ∧ θ <+: θ' ∧ ∀ c ∈ parts, SupportedUnder nodes θ' c := by
  induction parts with
  | nil =>
      intro θ θ' hθ h
      cases h
      exact ⟨hθ, List.prefix_refl _, nofun⟩
  | cons p parts ih =>
      intro θ θ'' hθ h
      obtain ⟨θ', hfirst, hrest⟩ := Option.bind_eq_some_iff.1 h
      obtain ⟨m, hm, hunify⟩ := List.exists_of_findSome?_eq_some hfirst
      obtain ⟨_, _, hθ', _⟩ := Node.unifyWith_solves hθ hunify
      obtain ⟨hθ'', hprefix, hparts⟩ := ih hθ' hrest
      refine ⟨hθ'', (Node.prefix_unifyWith hθ hunify).trans hprefix, ?_⟩
      have hp := Node.unifyWith_supports hθ hunify (.of_isPrefix hprefix) hθ''
      exact List.forall_mem_cons.2 ⟨⟨m, hm, hp⟩, hparts⟩

/-- The values of a partial function, in the order of the arguments that it
has a value for. -/
theorem forall₂_filterMap {α β : Type} (f : α → Option β) : ∀ l : List α,
    List.Forall₂ (fun a b => f a = some b) (l.filter fun a => (f a).isSome) (l.filterMap f)
  | [] => .nil
  | a :: l => by
      cases h : f a with
      | none =>
          rw [List.filterMap_cons_none h, List.filter_cons_of_neg (by simp [h])]
          exact forall₂_filterMap f l
      | some b =>
          rw [List.filterMap_cons_some h, List.filter_cons_of_pos (by simp [h])]
          exact .cons h (forall₂_filterMap f l)

/-! ## What is found for premises -/

/-- **Bindings found for premises support them.** From bindings without
cycles, whatever is found for premises begins with them, and under it every
conjunct unifies with some node with nothing more to bind. Premises that are no
conjunction are found once for each node that they unify with, in the order
of the nodes. -/
theorem matchPremises_supports (premises : Node) (nodes : List Node) {θ₀ : Bindings}
    (h₀ : θ₀.Acyclic) :
    (∀ θ ∈ matchPremises premises nodes θ₀,
      θ₀ <+: θ ∧ ∀ c ∈ premises.conjuncts, SupportedUnder nodes θ c) ∧
    (premises.isConjunction = false →
      List.Forall₂ (fun n θ => premises.unifyWith n θ₀ = some θ)
        (nodes.filter fun n => (premises.unifyWith n θ₀).isSome)
        (matchPremises premises nodes θ₀)) := by
  constructor
  · intro θ hθ
    simp only [matchPremises] at hθ
    split at hθ
    · next part hpart =>
        obtain ⟨m, hm, hunify⟩ := List.mem_filterMap.1 hθ
        obtain ⟨_, _, hacyclic, _⟩ := Node.unifyWith_solves h₀ hunify
        refine ⟨Node.prefix_unifyWith h₀ hunify, fun c hc => ⟨m, hm, ?_⟩⟩
        rw [hpart, List.mem_singleton, Node.eq_of_conjuncts hpart] at hc
        exact hc ▸ Node.unifyWith_supports h₀ hunify (.refl θ) hacyclic
    · exact (matchConjuncts_supports nodes _ h₀ (Option.mem_toList.1 hθ)).2
  · intro hsingle
    rw [matchPremises_single hsingle]
    exact forall₂_filterMap _ nodes

/-- Acquaintances, and premises for being known to someone that one knows. -/
def introductions : List Node :=
  [acquaintance (.concept "Ann") (.concept "Bob"), acquaintance (.concept "Bob") (.concept "Cid")]

/-- What `?Y` stands for is bound by the first of two premises, and the second
one is met by another node under it. -/
theorem introductions_supports :
    let premises := (acquaintance (.concept "?X") (.identifier "?Y")).conjoin
      (acquaintance (.concept "?Y") (.identifier "?W"))
    let θ₀ : Bindings := [("?Y", .concept "?Z")]
    let θ : Bindings := [("?Y", .concept "?Z"), ("?X", .concept "Ann"), ("?Z", .concept "Bob"),
      ("?W", .concept "Cid")]
    θ₀.Acyclic ∧ matchPremises premises introductions θ₀ = [θ] ∧ θ₀ <+: θ ∧
      ∀ c ∈ premises.conjuncts, SupportedUnder introductions θ c := by
  intro premises θ₀ θ
  have h : matchPremises premises introductions θ₀ = [θ] := by with_unfolding_all rfl
  have hsupports := (matchPremises_supports premises introductions acyclic_chain).1 θ
    (h ▸ List.mem_singleton_self θ)
  exact ⟨acyclic_chain, h, hsupports⟩

end TripleLogic
