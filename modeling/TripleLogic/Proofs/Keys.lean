/-
TripleLogic.Proofs.Keys — nodes that can be used as keys.

A node is a key when none of its tokens has a composite literal in it
(`isKey_iff`). Inference makes tokens out of tokens and of their texts, so all
that forward chaining derives from keys are keys (`isKey_of_universe`).
-/
import TripleLogic.Proofs.Universe

namespace TripleLogic

namespace Expr

theorem compositeIn?_eq_none {as : List Expr} :
    compositeIn? as = none ↔ ∀ a ∈ as, a.composite? = none := by
  induction as with
  | nil => simp [compositeIn?]
  | cons a as ih => simp [compositeIn?, Option.or_eq_none_iff, ih]

end Expr

theorem Statement.composite?_eq_none {s : Statement} :
    s.composite? = none ↔ ∀ e ∈ s.tokens, e.composite? = none := by
  simp [composite?, tokens, Expr.composite?, Option.or_eq_none_iff, Expr.compositeIn?_eq_none]

namespace Node

theorem compositeOperand?_eq_none {a : Option Node} :
    compositeOperand? a = none ↔ ∀ n, a = some n → n.composite? = none := by
  cases a <;> simp [compositeOperand?]

theorem composite?_eq_none {n : Node} :
    n.composite? = none ↔ ∀ e ∈ n.tokens, e.composite? = none := by
  induction n using Node.ind with
  | intent i =>
      rw [forall_tokens_intent]
      simp only [composite?, List.findSome?_eq_none_iff, Statement.composite?_eq_none]
  | compound o a b iha ihb =>
      rw [forall_tokens_compound]
      simp only [composite?, Option.orElse_eq_orElse, Option.orElse_eq_or, Option.or_eq_none_iff,
        compositeOperand?_eq_none]
      constructor
      · rintro ⟨ha, hb⟩
        exact ⟨fun n hn => (iha n hn).1 (ha n hn), fun n hn => (ihb n hn).1 (hb n hn)⟩
      · rintro ⟨ha, hb⟩
        exact ⟨fun n hn => (iha n hn).2 (ha n hn), fun n hn => (ihb n hn).2 (hb n hn)⟩
  | quantified q v a d ih => exact ih
  | rule i a b d x c iha ihb =>
      rw [forall_tokens_rule, ← iha, ← ihb]
      simp only [composite?, Option.orElse_eq_orElse, Option.orElse_eq_or, Option.or_eq_none_iff]
  | edge e => simp [composite?, tokens, collect, Edge.tokens, Expr.composite?]

/-- A node is a key if and only if no token has a composite literal. -/
theorem isKey_iff {n : Node} : n.isKey = true ↔ ∀ e ∈ n.tokens, e.composite? = none := by
  rw [← composite?_eq_none]
  simp [isKey]

end Node

/-- The vocabulary of keys has no composite literals. -/
theorem composite?_of_vocabulary {nodes : List Node} (hk : ∀ n ∈ nodes, n.isKey = true) :
    ∀ e ∈ (Universe.ofNodes nodes).vocabulary.tokens, e.composite? = none := by
  intro e he
  rcases List.mem_append.1 he with he | he
  · obtain ⟨m, hm, he⟩ := List.mem_flatMap.1 he
    exact Node.isKey_iff.1 (hk m hm) e he
  · obtain ⟨f, -, rfl⟩ := List.mem_map.1 he
    rfl

/-- The nodes of the universe of keys are keys. -/
theorem isKey_of_universe {nodes : List Node} (hk : ∀ n ∈ nodes, n.isKey = true) {n : Node}
    (h : (Universe.ofNodes nodes).Mem n) : n.isKey = true :=
  Node.isKey_iff.2 fun e he => composite?_of_vocabulary hk e (h.tokens_mem e he)

namespace KnowledgeBase

/-- The candidates of keys are keys. -/
theorem isKey_of_mem_candidates {kb : KnowledgeBase} (hk : ∀ n ∈ kb.nodes, n.isKey = true)
    {c : Node} (hc : c ∈ kb.candidates) : c.isKey = true :=
  isKey_of_universe hk ((mem_candidates_iff.1 hc).universe fun _ hn => Universe.mem_ofNodes hn)

/-- What is known after a pass over keys are keys. -/
theorem pass_isKey {kb : KnowledgeBase} (hk : ∀ n ∈ kb.nodes, n.isKey = true) :
    ∀ n ∈ kb.pass.1.nodes, n.isKey = true := by
  intro n hn
  rcases mem_nodes_addNodes hn with hn | hn
  · exact hk n hn
  · exact isKey_of_mem_candidates hk hn

/-- What is known after forward chaining from keys are keys. -/
theorem saturate_isKey {kb : KnowledgeBase} (hk : ∀ n ∈ kb.nodes, n.isKey = true)
    (bound : Nat) : ∀ n ∈ (kb.saturate bound).kb.nodes, n.isKey = true := by
  intro n hn
  have hstep := (saturate_induct (fun hU hc => Infers.universe hc hU) bound
    fun m hm => Universe.mem_ofNodes hm).1 n hn
  exact isKey_of_universe hk hstep

end KnowledgeBase

end TripleLogic
