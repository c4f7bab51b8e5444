/-
TripleLogic.Proofs.ForwardChaining — what forward chaining derives follows
from what it starts with.

For nodes whose variables are subjects and objects only: in an interpretation
in which all nodes hold, one step of inference gives only nodes that hold
(`Infers.supports`), hence so does any number of passes
(`saturate_supports`). Since the variables of a derived node are subjects and
objects again, rules that were themselves derived are covered.
-/
import TripleLogic.Engine
import TripleLogic.Proofs.Inference
import TripleLogic.Proofs.Interpretation
import TripleLogic.Proofs.Premises

namespace TripleLogic

namespace Interpretation

/-! ## Premises -/

/-- Premises are true when their conjuncts are. -/
theorem models_of_conjuncts {I : Interpretation} {n : Node} {σ : Assignment}
    (h : ∀ c ∈ n.conjuncts, I.Models (c.inst σ)) : I.Models (n.inst σ) := by
  fun_induction Node.conjuncts n with
  | case1 a b iha ihb =>
      exact ⟨iha fun c hc => h c (List.mem_append_left _ hc),
        ihb fun c hc => h c (List.mem_append_right _ hc)⟩
  | case2 n _ => exact h n (List.mem_singleton.2 rfl)

/-- Premises are true under an assignment that solves the bindings found for
them. -/
theorem models_premises {I : Interpretation} {nodes : List Node}
    (hn : ∀ n ∈ nodes, I.Supports n) {premises : Node} (hp : premises.VarsInTerms)
    {θ : Bindings} (h : θ ∈ matchPremises premises nodes []) {σ : Assignment}
    (hσ : σ.Solves θ) : I.Models (premises.inst σ) := by
  obtain ⟨-, hs⟩ := matchPremises_sound (fun n hm => (hn n hm).vars) hp h
  refine models_of_conjuncts fun c hc => ?_
  obtain ⟨m, hm, hu⟩ := hs σ hσ c hc
  exact (hn m hm).holds.models_of_unify (hn m hm).vars (hp.of_mem_conjuncts hc) hu

end Interpretation

/-! ## One step -/

/-- A step of inference from nodes that hold gives a node that holds. -/
theorem Infers.supports {I : Interpretation} {nodes : List Node} {c : Node}
    (h : Infers nodes c) (hn : ∀ n ∈ nodes, I.Supports n) : I.Supports c := by
  have himp : ∀ {a b : Node}, a.implies b ∈ nodes → a.VarsInTerms ∧ b.VarsInTerms := by
    intro a b hi
    have hv := Node.varsInTerms_compound.1 (hn _ hi).vars
    exact ⟨hv.1 a rfl, hv.2 b rfl⟩
  -- A refuted node is refuted in all its spellings.
  have hneg : ∀ {m b : Node} {r : Option Node}, Node.compound .not (some m) r ∈ nodes →
      b.VarsInTerms → m.same b = true → ∀ σ, ¬ I.Models (b.inst σ) := by
    intro m b r hm hb hs σ hbσ
    have hv := (Node.varsInTerms_compound.1 (hn _ hm).vars).1 m rfl
    have hmσ : ¬ I.Models (m.inst σ) := (hn _ hm).holds σ
    exact hmσ ((I.models_inst_of_same hv hb hs σ).2 hbσ)
  cases h with
  | @rule r a b θ hr hd hθ =>
      obtain ⟨ha, hb, hm⟩ := Interpretation.models_direction hd (hn r hr).vars
      refine ⟨Node.varsInTerms_subst hb θ, fun σ => ?_⟩
      have hacyc := (matchPremises_sound (fun n hm => (hn n hm).vars) ha hθ).1
      rw [Node.inst_subst hb]
      exact hm I _ ((hn r hr).holds _)
        (Interpretation.models_premises hn ha hθ (σ.solves_after hacyc))
  | @ponens a _ m hi hm hs =>
      obtain ⟨ha, hc⟩ := himp hi
      have haσ := (hn m hm).holds.of_same (hn m hm).vars ha hs
      exact ⟨hc, fun σ => (hn _ hi).holds σ (haσ σ)⟩
  | @tollens a b m r hi hm hs =>
      obtain ⟨ha, hb⟩ := himp hi
      refine ⟨Node.varsInTerms_compound.2 ⟨fun n h => by cases h; exact ha, nofun⟩, fun σ => ?_⟩
      exact fun haσ => hneg hm hb hs σ ((hn _ hi).holds σ haσ)
  | @chain a b d e h₁ h₂ hs =>
      obtain ⟨ha, hb⟩ := himp h₁
      obtain ⟨hd, he⟩ := himp h₂
      refine ⟨Node.varsInTerms_compound.2 ⟨fun n h => by cases h; exact ha,
        fun n h => by cases h; exact he⟩, fun σ haσ => ?_⟩
      have hbσ : I.Models (b.inst σ) := (hn _ h₁).holds σ haσ
      exact (hn _ h₂).holds σ ((I.models_inst_of_same hd hb hs σ).2 hbσ)
  | @right a _ m r hd hm hs =>
      obtain ⟨ha, hc⟩ := Node.varsInTerms_compound.1 (hn _ hd).vars
      refine ⟨hc c rfl, fun σ => ?_⟩
      exact ((hn _ hd).holds σ).resolve_left (hneg hm (ha a rfl) hs σ)
  | @left _ b m r hd hm hs =>
      obtain ⟨hc, hb⟩ := Node.varsInTerms_compound.1 (hn _ hd).vars
      refine ⟨hc c rfl, fun σ => ?_⟩
      exact ((hn _ hd).holds σ).resolve_right (hneg hm (hb b rfl) hs σ)
  | @fst _ r hc =>
      refine ⟨(Node.varsInTerms_compound.1 (hn _ hc).vars).1 c rfl, fun σ => ?_⟩
      have hσ := (hn _ hc).holds σ
      cases r with
      | none => cases hσ
      | some b => exact hσ.1
  | @snd _ l hc =>
      refine ⟨(Node.varsInTerms_compound.1 (hn _ hc).vars).2 c rfl, fun σ => ?_⟩
      have hσ := (hn _ hc).holds σ
      cases l with
      | none => cases hσ
      | some b => exact hσ.2

/-! ## Any number of passes -/

/-- What is known after forward chaining, and so what was derived, holds
where what was known before holds. -/
theorem KnowledgeBase.saturate_supports {I : Interpretation} {kb : KnowledgeBase}
    (h : ∀ n ∈ kb.nodes, I.Supports n) (bound : Nat) :
    (∀ n ∈ (kb.saturate bound).kb.nodes, I.Supports n) ∧
      ∀ n ∈ (kb.saturate bound).derived, I.Supports n :=
  saturate_induct (fun hn hc => hc.supports hn) bound h

/-- A run of forward chaining that comes to an end is saturation. -/
theorem Engine.eq_saturate_of_forward {g : Engine} {bound : Nat} {s : Saturation}
    (h : (g.forward bound).2 = .ok s) : s = g.kb.saturate bound := by
  simp only [forward] at h
  split at h
  · cases h
    rfl
  · cases h

/-- **Soundness of forward chaining.** Every derived node holds in every
interpretation in which all known nodes hold, whatever the bound. -/
theorem Engine.forward_sound (g : Engine) (bound : Nat) (s : Saturation)
    (hs : (g.forward bound).2 = .ok s) (hvars : ∀ n ∈ g.kb.nodes, n.VarsInTerms)
    (I : Interpretation) (hI : ∀ n ∈ g.kb.nodes, I.Holds n) : ∀ n ∈ s.derived, I.Holds n := by
  intro n hn
  rw [eq_saturate_of_forward hs] at hn
  exact ((KnowledgeBase.saturate_supports (fun m hm => ⟨hvars m hm, hI m hm⟩) bound).2 n hn).holds

/-- A family: two parents, a rule with two premises, and an implication whose
consequent is a bidirectional rule. -/
def family : Engine where
  kb := ⟨[
    .node (.assertion "Ann" "parent_of" "Bob"),
    .node (.assertion "Bob" "parent_of" "Cid"),
    .node (.rule "grandparent"
      (Node.conjoin (.assertion "?X" "parent_of" "?Y") (.assertion "?Y" "parent_of" "?Z"))
      (.assertion "?X" "grandparent_of" "?Z") none false .null),
    .node (Node.implies (.assertion "Ann" "parent_of" "Bob")
      (.rule "grandchild" (.assertion "?X" "grandparent_of" "?Z")
        (.assertion "?Z" "grandchild_of" "?X") none true .null))]⟩

theorem family_holds : ∀ n ∈ family.kb.nodes, Interpretation.assertions.Holds n := by
  intro n hn σ
  simp only [family, KnowledgeBase.nodes, Entry.node?, List.filterMap_cons, List.filterMap_nil,
    List.mem_cons, List.not_mem_nil, or_false] at hn
  rcases hn with rfl | rfl | rfl | rfl
  · rfl
  · rfl
  · exact ⟨fun _ => rfl, fun h => Bool.noConfusion h⟩
  · exact fun _ => ⟨fun _ => rfl, fun _ _ => rfl⟩

/-- Three nodes are derived in the family, one of them a rule that is then
used, and all of them hold where the family does. -/
theorem family_forward_sound :
    (∀ n ∈ family.kb.nodes, n.VarsInTerms) ∧
      (∀ n ∈ family.kb.nodes, Interpretation.assertions.Holds n) ∧
      ∃ s, (family.forward 5).2 = .ok s ∧ s.derived.length = 3 ∧
        ∀ n ∈ s.derived, Interpretation.assertions.Holds n := by
  have hvars : ∀ n ∈ family.kb.nodes, n.VarsInTerms := by decide +kernel
  refine ⟨hvars, family_holds, family.kb.saturate 5, rfl, by decide +kernel, ?_⟩
  exact family.forward_sound 5 _ rfl hvars Interpretation.assertions family_holds

end TripleLogic
