/-
TripleLogic.Proofs.KeyFaults — where reasoning stops at a node that is no key.

A node with a literal that is a list or an object cannot be looked up. Forward
chaining looks up all that is known, so it stops as soon as one known node is
no key, unless it makes no pass (`forward_misuses_iff`). A search looks up its
goals, and may find a proof before it comes upon a goal that is no key
(`prove_misuses_iff`). Nothing else goes wrong in reasoning.
-/
import TripleLogic.Proofs.Misuse
import TripleLogic.Proofs.Recall

namespace TripleLogic

/-! ## Knowledge bases of given nodes -/

/-- Some nodes cannot be looked up. -/
def HasNoKey (nodes : List Node) : Prop :=
  ∃ n ∈ nodes, n.isKey = false

instance (nodes : List Node) : Decidable (HasNoKey nodes) :=
  inferInstanceAs (Decidable (∃ n ∈ nodes, n.isKey = false))

theorem not_hasNoKey_iff {nodes : List Node} :
    ¬ HasNoKey nodes ↔ ∀ n ∈ nodes, n.isKey = true := by
  simp [HasNoKey]

theorem hasNoKey_cons {n : Node} {nodes : List Node} :
    HasNoKey (n :: nodes) ↔ n.isKey = false ∨ HasNoKey nodes := by
  simp [HasNoKey]

namespace KnowledgeBase

/-- A knowledge base has a node that is no key when it was given one. -/
theorem hasNoKey_ofEntries {ns : List Node} :
    HasNoKey (ofEntries (ns.map .node)).nodes ↔ HasNoKey ns := by
  rw [← not_iff_not, not_hasNoKey_iff, not_hasNoKey_iff, isKey_ofEntries_iff]
  simp [Entry.node?]

end KnowledgeBase

namespace Engine

/-! ## Forward chaining -/

/-- Forward chaining stops exactly when it makes a pass and a known node is no
key. -/
theorem forward_misuses_iff {g : Engine} {bound : Nat} :
    Misuses (g.forward bound).2 ↔ bound ≠ 0 ∧ HasNoKey g.kb.nodes := by
  unfold forward
  by_cases hbound : bound = 0
  · simp [hbound]
  · rw [← not_iff_not, not_and, not_hasNoKey_iff, ← Node.findSome?_composite?_eq_none]
    simp only [beq_iff_eq, hbound, if_false]
    cases g.kb.nodes.findSome? Node.composite? <;> simp [hbound]

/-- Forward chaining that does not misuse a value has an outcome. -/
theorem exists_forward {g : Engine} {bound : Nat} (h : ¬ Misuses (g.forward bound).2) :
    ∃ s, (g.forward bound).2 = .ok s ∧ s = g.kb.saturate bound := by
  unfold forward at h ⊢
  split at h
  · exact ⟨_, rfl, rfl⟩
  · exact absurd (misuses_misuse _) h

/-! ## Proofs -/

/-- A search is refused or answered. -/
theorem exists_backward {g : Engine} {n : Node} (h : ¬ Misuses (g.backward (.node n))) :
    ∃ p, g.backward (.node n) = .ok p := by
  rcases Proof.findEntry?_cases g.kb.nodes g.settings.maxProofDepth n with hok | ⟨_, d, hd⟩
  · exact ⟨_, hok⟩
  · exact absurd ⟨_, hd⟩ h

/-- A search over keys is not refused. -/
theorem backward_of_keys {g : Engine} {n : Node} (hn : n.isKey = true)
    (h : ¬ HasNoKey g.kb.nodes) : ∃ p, g.backward (.node n) = .ok p := by
  refine exists_backward ?_
  rcases Proof.findEntry?_cases g.kb.nodes g.settings.maxProofDepth n with
    hok | ⟨⟨m, hm, hkey⟩, _⟩
  · rintro ⟨m, hm⟩
    cases hok.symm.trans hm
  · rcases List.mem_cons.1 hm with rfl | hm
    · cases hn.symm.trans hkey
    · exact absurd ⟨m, hm, hkey⟩ h

/-- A search that is answered was for a key. -/
theorem isKey_of_backward {g : Engine} {n : Node} {p : Option Proof}
    (h : g.backward (.node n) = .ok p) : n.isKey = true := by
  by_contra hkey
  obtain ⟨d, hd⟩ := Proof.findEntry?_of_not_isKey (Bool.eq_false_iff.2 hkey) g.kb.nodes
    g.settings.maxProofDepth
  cases h.symm.trans hd

/-- Where a search among keys ends without a proof, the search among what is
derived from them is answered too. -/
theorem exists_backwardAfter {g : Engine} {n : Node} (hn : n.isKey = true) {bound : Nat}
    (h : bound ≠ 0 → ¬ HasNoKey g.kb.nodes) :
    ∃ p, g.backwardAfter (g.kb.saturate bound) (.node n) = .ok p := by
  unfold backwardAfter
  split
  · exact ⟨none, rfl⟩
  · next hderived =>
      have hbound : bound ≠ 0 := by
        rintro rfl
        exact hderived rfl
      have hkeys := KnowledgeBase.saturate_isKey (not_hasNoKey_iff.1 (h hbound)) bound
      obtain ⟨p, hp⟩ := backward_of_keys (g := { g with kb := (g.kb.saturate bound).kb }) hn
        (not_hasNoKey_iff.2 hkeys)
      exact ⟨_, by rw [hp]; rfl⟩

/-- A question is refused exactly when the search for a proof is, or when none
is found, forward chaining comes next, and a known node is no key. -/
theorem prove_misuses_iff {g : Engine} {n : Node} :
    Misuses (g.prove (.node n)).2 ↔
      Misuses (g.backward (.node n)) ∨
        (g.backward (.node n) = .ok none ∧ g.settings.proveWithSaturation = true ∧
          g.settings.saturationPasses ≠ 0 ∧ HasNoKey g.kb.nodes) := by
  cases hb : g.backward (.node n) with
  | error f =>
      simp [prove, hb, Misuses]
  | ok found =>
      cases found with
      | some p => simp [prove, hb]
      | none =>
          cases hset : g.settings.proveWithSaturation with
          | false => simp [prove, hb, hset]
          | true =>
              simp only [prove, hb, hset, if_true, misuses_bind_iff, forward_misuses_iff,
                not_misuses_pure, and_false, exists_false, or_false, not_misuses_ok, false_or,
                true_and]
              refine or_iff_left ?_
              rintro ⟨s, hs, h⟩
              have hkeys : g.settings.saturationPasses ≠ 0 → ¬ HasNoKey g.kb.nodes :=
                fun hne hno => by
                  obtain ⟨m, hm⟩ := forward_misuses_iff.2 ⟨hne, hno⟩
                  cases hs.symm.trans hm
              obtain ⟨_, hs', rfl⟩ := exists_forward (g := g) (by rw [hs]; exact not_misuses_ok s)
              cases hs.symm.trans hs'
              obtain ⟨p, hp⟩ := exists_backwardAfter (isKey_of_backward hb) hkeys
              rw [hp] at h
              exact not_misuses_ok p h

/-- With the settings that are there by default, a question is refused exactly
when the goal or a known node is no key, unless a search finds a proof before it
comes upon such a node. -/
theorem prove_misuses_iff_of_default {g : Engine} (hset : g.settings = {}) {n : Node} :
    Misuses (g.prove (.node n)).2 ↔
      HasNoKey (n :: g.kb.nodes) ∧ ¬ ∃ p, g.backward (.node n) = .ok (some p) := by
  rw [prove_misuses_iff, hset]
  constructor
  · rintro (⟨m, hm⟩ | ⟨hb, -, -, k, hk, hkey⟩)
    · refine ⟨?_, fun ⟨p, hp⟩ => by cases hm.symm.trans hp⟩
      rcases Proof.findEntry?_cases g.kb.nodes g.settings.maxProofDepth n with
        hok | ⟨hno, _⟩
      · cases hm.symm.trans hok
      · exact hno
    · exact ⟨⟨k, List.mem_cons_of_mem n hk, hkey⟩, fun ⟨p, hp⟩ => by cases hb.symm.trans hp⟩
  · rintro ⟨⟨k, hk, hkey⟩, hnone⟩
    by_cases hm : Misuses (g.backward (.node n))
    · exact Or.inl hm
    · obtain ⟨found, hb⟩ := exists_backward hm
      cases found with
      | some p => exact absurd ⟨p, hb⟩ hnone
      | none =>
          rcases List.mem_cons.1 hk with rfl | hk
          · cases hkey.symm.trans (isKey_of_backward hb)
          · exact Or.inr ⟨hb, rfl, by decide, k, hk, hkey⟩

/-- A question that is not refused is answered. -/
theorem exists_prove {g : Engine} {n : Node} (h : ¬ Misuses (g.prove (.node n)).2) :
    ∃ v, (g.prove (.node n)).2 = .ok v := by
  rw [prove_misuses_iff, not_or] at h
  obtain ⟨found, hb⟩ := exists_backward h.1
  cases found with
  | some p => exact ⟨⟨.node n, some p⟩, by simp [prove, hb]⟩
  | none =>
      cases hset : g.settings.proveWithSaturation with
      | false => exact ⟨⟨.node n, none⟩, by simp [prove, hb, hset]⟩
      | true =>
          have hkeys : g.settings.saturationPasses ≠ 0 → ¬ HasNoKey g.kb.nodes :=
            fun hne hno => h.2 ⟨hb, hset, hne, hno⟩
          obtain ⟨s, hs, rfl⟩ := exists_forward fun hm =>
            hkeys (forward_misuses_iff.1 hm).1 (forward_misuses_iff.1 hm).2
          obtain ⟨p, hp⟩ := exists_backwardAfter (isKey_of_backward hb) hkeys
          exact ⟨⟨.node n, p⟩, by simp [prove, hb, hset, hs, hp, Node.ok_bind]⟩

/-- A search for what is no key is refused. -/
theorem backward_misuses_of_isKey {g : Engine} {n : Node} (hn : n.isKey = false) :
    Misuses (g.backward (.node n)) := by
  by_contra hm
  obtain ⟨p, hp⟩ := exists_backward hm
  cases hn.symm.trans (isKey_of_backward hp)

/-- Among keys a search is refused exactly when the goal is no key. -/
theorem backward_misuses_iff_of_keys {g : Engine} {n : Node} (h : ¬ HasNoKey g.kb.nodes) :
    Misuses (g.backward (.node n)) ↔ n.isKey = false := by
  refine ⟨fun ⟨m, hm⟩ => Bool.eq_false_iff.2 fun hn => ?_, backward_misuses_of_isKey⟩
  obtain ⟨p, hp⟩ := backward_of_keys hn h
  cases hm.symm.trans hp

/-- After forward chaining that was not refused, a question is refused exactly
when the goal is no key, or when nothing was chained over nodes of which some
are no keys, and the search comes upon one. -/
theorem prove_forward_misuses_iff {g : Engine} {n : Node} {bound : Nat}
    (h : ¬ Misuses (g.forward bound).2) :
    Misuses ((g.forward bound).1.prove (.node n)).2 ↔
      n.isKey = false ∨
        HasNoKey g.kb.nodes ∧
          (Misuses (g.backward (.node n)) ∨
            g.backward (.node n) = .ok none ∧ g.settings.proveWithSaturation = true ∧
              g.settings.saturationPasses ≠ 0) := by
  rw [forward_misuses_iff] at h
  have hforward : (g.forward bound).1 = { g with kb := (g.kb.saturate bound).kb } := by
    by_cases hbound : bound = 0
    · subst hbound
      rfl
    · have hkeys := not_hasNoKey_iff.1 fun hno => h ⟨hbound, hno⟩
      exact congrArg Prod.fst (forward_eq_saturate hkeys bound)
  rw [hforward, prove_misuses_iff]
  by_cases hno : HasNoKey g.kb.nodes
  · obtain rfl : bound = 0 := by
      by_contra hne
      exact h ⟨hne, hno⟩
    simp only [KnowledgeBase.saturate, hno, and_true, true_and]
    refine ⟨Or.inr, ?_⟩
    rintro (hn | hsearch)
    · exact Or.inl (backward_misuses_of_isKey hn)
    · exact hsearch
  · have hkeys : ¬ HasNoKey (g.kb.saturate bound).kb.nodes :=
      not_hasNoKey_iff.2 (KnowledgeBase.saturate_isKey (not_hasNoKey_iff.1 hno) bound)
    rw [backward_misuses_iff_of_keys hkeys]
    simp [hno, hkeys]

end Engine

end TripleLogic
