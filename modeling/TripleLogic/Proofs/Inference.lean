/-
TripleLogic.Proofs.Inference — one step of inference, and what a run of
steps keeps.

`Infers nodes c` says that one of the six patterns gives `c` from `nodes`.
It has one constructor for each way in which a pattern gives a candidate, and
`mem_candidates_iff` says that these are the candidates of the patterns. So
what is proved of inference is proved by cases on `Infers`, and the patterns
are not looked into again.

What one step infers is made of the parts of what is known (`Infers.keeps`). A
property of nodes that one step keeps is kept by forward chaining, however many
passes are made (`saturate_induct`).
-/
import TripleLogic.Inference.Saturation

namespace TripleLogic

/-- One step of inference from nodes. -/
inductive Infers (nodes : List Node) : Node → Prop where
  /-- A rule in one of its directions, under bindings that its premises have. -/
  | rule {r a b : Node} {θ : Bindings} (hr : r ∈ nodes) (hd : (a, b) ∈ Pattern.directions r)
      (hθ : θ ∈ matchPremises a nodes []) : Infers nodes (b.subst θ)
  | ponens {a b m : Node} (hi : a.implies b ∈ nodes) (hm : m ∈ nodes)
      (hs : m.same a = true) : Infers nodes b
  | tollens {a b m : Node} {r : Option Node} (hi : a.implies b ∈ nodes)
      (hn : Node.compound .not (some m) r ∈ nodes) (hs : m.same b = true) :
      Infers nodes a.negate
  | chain {a b c d : Node} (h₁ : a.implies b ∈ nodes) (h₂ : c.implies d ∈ nodes)
      (hs : c.same b = true) : Infers nodes (a.implies d)
  /-- The right side of a disjunction whose left side is refuted. -/
  | right {a b m : Node} {r : Option Node} (hd : a.disjoin b ∈ nodes)
      (hn : Node.compound .not (some m) r ∈ nodes) (hs : m.same a = true) : Infers nodes b
  /-- The left side of a disjunction whose right side is refuted. -/
  | left {a b m : Node} {r : Option Node} (hd : a.disjoin b ∈ nodes)
      (hn : Node.compound .not (some m) r ∈ nodes) (hs : m.same b = true) : Infers nodes a
  | fst {a : Node} {r : Option Node} (hc : Node.compound .and (some a) r ∈ nodes) :
      Infers nodes a
  | snd {a : Node} {l : Option Node} (hc : Node.compound .and l (some a) ∈ nodes) :
      Infers nodes a

namespace Pattern

/-! ## What the patterns look up -/

theorem holds_iff {nodes : List Node} {n : Node} :
    holds nodes n = true ↔ ∃ m ∈ nodes, m.same n = true := by
  simp only [holds, List.any_eq_true]

theorem mem_implications {nodes : List Node} {a b : Node} :
    (a, b) ∈ implications nodes ↔ a.implies b ∈ nodes := by
  simp only [implications, List.mem_filterMap]
  constructor
  · rintro ⟨n, hn, h⟩
    split at h
    · cases h
      exact hn
    · cases h
  · intro h
    exact ⟨a.implies b, h, rfl⟩

theorem mem_disjunctions {nodes : List Node} {a b : Node} :
    (a, b) ∈ disjunctions nodes ↔ a.disjoin b ∈ nodes := by
  simp only [disjunctions, List.mem_filterMap]
  constructor
  · rintro ⟨n, hn, h⟩
    split at h
    · cases h
      exact hn
    · cases h
  · intro h
    exact ⟨a.disjoin b, h, rfl⟩

theorem mem_negated {nodes : List Node} {a : Node} :
    a ∈ negated nodes ↔ ∃ r, Node.compound .not (some a) r ∈ nodes := by
  simp only [negated, List.mem_filterMap]
  constructor
  · rintro ⟨n, hn, h⟩
    split at h
    · next r =>
        cases h
        exact ⟨r, hn⟩
    · cases h
  · rintro ⟨r, hn⟩
    exact ⟨_, hn, rfl⟩

/-- A node is refuted when its negation is there, up to equality. -/
theorem holds_negated_iff {nodes : List Node} {n : Node} :
    holds (negated nodes) n = true ↔
      ∃ m r, Node.compound .not (some m) r ∈ nodes ∧ m.same n = true := by
  simp only [holds_iff, mem_negated]
  constructor
  · rintro ⟨m, ⟨r, hn⟩, hs⟩
    exact ⟨m, r, hn, hs⟩
  · rintro ⟨m, r, hn, hs⟩
    exact ⟨m, ⟨r, hn⟩, hs⟩

/-! ## What the patterns give -/

theorem mem_applyRules {nodes : List Node} {c : Node} :
    c ∈ applyRules nodes ↔ ∃ r a b θ, r ∈ nodes ∧ (a, b) ∈ directions r ∧
      θ ∈ matchPremises a nodes [] ∧ c = b.subst θ := by
  simp only [applyRules, List.mem_flatMap, List.mem_map]
  constructor
  · rintro ⟨⟨a, b⟩, ⟨r, hr, hd⟩, θ, hθ, rfl⟩
    exact ⟨r, a, b, θ, hr, hd, hθ, rfl⟩
  · rintro ⟨r, a, b, θ, hr, hd, hθ, rfl⟩
    exact ⟨(a, b), ⟨r, hr, hd⟩, θ, hθ, rfl⟩

theorem mem_ponens {nodes : List Node} {c : Node} :
    c ∈ ponens nodes ↔ ∃ a : Node, a.implies c ∈ nodes ∧ ∃ m ∈ nodes, m.same a = true := by
  simp only [ponens, List.mem_filterMap]
  constructor
  · rintro ⟨⟨a, b⟩, hi, h⟩
    split at h
    · next hh =>
        cases h
        exact ⟨a, mem_implications.1 hi, holds_iff.1 hh⟩
    · cases h
  · rintro ⟨a, hi, hh⟩
    exact ⟨(a, c), mem_implications.2 hi, if_pos (holds_iff.2 hh)⟩

theorem mem_tollens {nodes : List Node} {c : Node} :
    c ∈ tollens nodes ↔ ∃ (a b m : Node) (r : Option Node), a.implies b ∈ nodes ∧
      Node.compound .not (some m) r ∈ nodes ∧ m.same b = true ∧ c = a.negate := by
  simp only [tollens, List.mem_filterMap]
  constructor
  · rintro ⟨⟨a, b⟩, hi, h⟩
    split at h
    · next hh =>
        obtain ⟨m, r, hn, hs⟩ := holds_negated_iff.1 hh
        cases h
        exact ⟨a, b, m, r, mem_implications.1 hi, hn, hs, rfl⟩
    · cases h
  · rintro ⟨a, b, m, r, hi, hn, hs, rfl⟩
    exact ⟨(a, b), mem_implications.2 hi, if_pos (holds_negated_iff.2 ⟨m, r, hn, hs⟩)⟩

theorem mem_chain {nodes : List Node} {c : Node} :
    c ∈ chain nodes ↔ ∃ a b d e : Node, a.implies b ∈ nodes ∧ d.implies e ∈ nodes ∧
      d.same b = true ∧ c = a.implies e := by
  simp only [chain, List.mem_flatMap, List.mem_filterMap]
  constructor
  · rintro ⟨⟨a, b⟩, h₁, ⟨d, e⟩, h₂, h⟩
    split at h
    · next hs =>
        cases h
        exact ⟨a, b, d, e, mem_implications.1 h₁, mem_implications.1 h₂, hs, rfl⟩
    · cases h
  · rintro ⟨a, b, d, e, h₁, h₂, hs, rfl⟩
    exact ⟨(a, b), mem_implications.2 h₁, (d, e), mem_implications.2 h₂, if_pos hs⟩

theorem mem_disjunctive {nodes : List Node} {c : Node} :
    c ∈ disjunctive nodes ↔ ∃ (a b m : Node) (r : Option Node), a.disjoin b ∈ nodes ∧
      Node.compound .not (some m) r ∈ nodes ∧
      ((m.same a = true ∧ c = b) ∨ (m.same b = true ∧ c = a)) := by
  simp only [disjunctive, List.mem_flatMap, List.mem_append]
  constructor
  · rintro ⟨⟨a, b⟩, hd, h | h⟩
    · split at h
      · next hh =>
          obtain ⟨m, r, hn, hs⟩ := holds_negated_iff.1 hh
          exact ⟨a, b, m, r, mem_disjunctions.1 hd, hn,
            Or.inl ⟨hs, List.mem_singleton.1 h⟩⟩
      · cases h
    · split at h
      · next hh =>
          obtain ⟨m, r, hn, hs⟩ := holds_negated_iff.1 hh
          exact ⟨a, b, m, r, mem_disjunctions.1 hd, hn,
            Or.inr ⟨hs, List.mem_singleton.1 h⟩⟩
      · cases h
  · rintro ⟨a, b, m, r, hd, hn, ⟨hs, rfl⟩ | ⟨hs, rfl⟩⟩
    · refine ⟨(a, c), mem_disjunctions.2 hd, Or.inl ?_⟩
      rw [if_pos (holds_negated_iff.2 ⟨m, r, hn, hs⟩)]
      exact List.mem_singleton.2 rfl
    · refine ⟨(c, b), mem_disjunctions.2 hd, Or.inr ?_⟩
      rw [if_pos (holds_negated_iff.2 ⟨m, r, hn, hs⟩)]
      exact List.mem_singleton.2 rfl

theorem mem_eliminate {nodes : List Node} {c : Node} :
    c ∈ eliminate nodes ↔ (∃ r, Node.compound .and (some c) r ∈ nodes) ∨
      ∃ l, Node.compound .and l (some c) ∈ nodes := by
  simp only [eliminate, List.mem_flatMap]
  constructor
  · rintro ⟨n, hn, h⟩
    split at h
    · next a b =>
        rcases List.mem_append.1 h with h | h
        · exact Or.inl ⟨b, by rwa [Option.mem_toList.1 h] at hn⟩
        · exact Or.inr ⟨a, by rwa [Option.mem_toList.1 h] at hn⟩
    · cases h
  · rintro (⟨r, hn⟩ | ⟨l, hn⟩)
    · exact ⟨_, hn, List.mem_append_left _ (by simp)⟩
    · exact ⟨_, hn, List.mem_append_right _ (by simp)⟩

end Pattern

/-! ## What a step keeps -/

/-- The nodes that a compound or a rule is made of. -/
def Node.children : Node → List Node
  | .compound _ a b => a.toList ++ b.toList
  | .rule _ a b _ _ _ => [a, b]
  | _ => []

/-- Both sides of a direction are children of the rule. -/
theorem Pattern.mem_children_of_mem_directions {r a b : Node} (h : (a, b) ∈ directions r) :
    a ∈ r.children ∧ b ∈ r.children := by
  cases r with
  | rule i p c d x k =>
      simp only [directions] at h
      split at h
      · rcases List.mem_cons.1 h with h | h
        · cases h
          simp [Node.children]
        · cases List.mem_singleton.1 h
          simp [Node.children]
      · cases List.mem_singleton.1 h
        simp [Node.children]
  | _ => cases h

/-- What is inferred is a child of a known node, the negation of one or an
implication between two, or a child of a rule after substitution. So a property
of the children of known nodes goes over to what is inferred, if substitution
keeps it; the negations and implications may have a weaker one. -/
theorem Infers.keeps {nodes : List Node} {c : Node} {M F : Node → Prop}
    (h : Infers nodes c) (hn : ∀ n ∈ nodes, M n) (hmem : ∀ {n}, F n → M n)
    (hchild : ∀ {n d}, M n → d ∈ n.children → F d) (hnegate : ∀ {a}, F a → M a.negate)
    (himplies : ∀ {a b}, F a → F b → M (a.implies b))
    (hsubst : ∀ {a b θ}, F a → F b → θ ∈ matchPremises a nodes [] → F (b.subst θ)) :
    M c := by
  cases h with
  | rule hr hd hθ =>
      obtain ⟨ha, hb⟩ := Pattern.mem_children_of_mem_directions hd
      exact hmem (hsubst (hchild (hn _ hr) ha) (hchild (hn _ hr) hb) hθ)
  | ponens hi => exact hmem (hchild (hn _ hi) (by simp [Node.children, Node.implies]))
  | tollens hi => exact hnegate (hchild (hn _ hi) (by simp [Node.children, Node.implies]))
  | chain h₁ h₂ =>
      exact himplies (hchild (hn _ h₁) (by simp [Node.children, Node.implies]))
        (hchild (hn _ h₂) (by simp [Node.children, Node.implies]))
  | right hd => exact hmem (hchild (hn _ hd) (by simp [Node.children, Node.disjoin]))
  | left hd => exact hmem (hchild (hn _ hd) (by simp [Node.children, Node.disjoin]))
  | fst hc => exact hmem (hchild (hn _ hc) (by simp [Node.children]))
  | snd hc => exact hmem (hchild (hn _ hc) (by simp [Node.children]))

namespace KnowledgeBase

/-- The candidates of the patterns are what one step infers. -/
theorem mem_candidates_iff {kb : KnowledgeBase} {c : Node} :
    c ∈ kb.candidates ↔ Infers kb.nodes c := by
  simp only [candidates, Pattern.all, List.flatMap_cons, List.flatMap_nil, List.append_nil,
    List.mem_append, Pattern.candidates, Pattern.mem_applyRules, Pattern.mem_ponens,
    Pattern.mem_tollens, Pattern.mem_chain, Pattern.mem_disjunctive, Pattern.mem_eliminate]
  constructor
  · rintro (⟨r, a, b, θ, hr, hd, hθ, rfl⟩ | ⟨a, hi, m, hm, hs⟩ |
      ⟨a, b, m, r, hi, hn, hs, rfl⟩ | ⟨a, b, d, e, h₁, h₂, hs, rfl⟩ |
      ⟨a, b, m, r, hd, hn, ⟨hs, rfl⟩ | ⟨hs, rfl⟩⟩ | ⟨r, hc⟩ | ⟨l, hc⟩)
    · exact .rule hr hd hθ
    · exact .ponens hi hm hs
    · exact .tollens hi hn hs
    · exact .chain h₁ h₂ hs
    · exact .right hd hn hs
    · exact .left hd hn hs
    · exact .fst hc
    · exact .snd hc
  · intro h
    cases h with
    | rule hr hd hθ => exact Or.inl ⟨_, _, _, _, hr, hd, hθ, rfl⟩
    | ponens hi hm hs => exact Or.inr (Or.inl ⟨_, hi, _, hm, hs⟩)
    | tollens hi hn hs => exact Or.inr (Or.inr (Or.inl ⟨_, _, _, _, hi, hn, hs, rfl⟩))
    | chain h₁ h₂ hs =>
        exact Or.inr (Or.inr (Or.inr (Or.inl ⟨_, _, _, _, h₁, h₂, hs, rfl⟩)))
    | right hd hn hs =>
        exact Or.inr (Or.inr (Or.inr (Or.inr (Or.inl
          ⟨_, _, _, _, hd, hn, Or.inl ⟨hs, rfl⟩⟩))))
    | left hd hn hs =>
        exact Or.inr (Or.inr (Or.inr (Or.inr (Or.inl
          ⟨_, _, _, _, hd, hn, Or.inr ⟨hs, rfl⟩⟩))))
    | fst hc => exact Or.inr (Or.inr (Or.inr (Or.inr (Or.inr (Or.inl ⟨_, hc⟩)))))
    | snd hc => exact Or.inr (Or.inr (Or.inr (Or.inr (Or.inr (Or.inr ⟨_, hc⟩)))))

/-! ## What a run keeps -/

theorem nodes_append_node (kb : KnowledgeBase) (n : Node) :
    (kb.append (.node n)).nodes = kb.nodes ++ [n] := by
  simp [nodes, append, Entry.node?]

/-- Adding nodes adds no others. -/
theorem mem_nodes_addNodes : ∀ {kb : KnowledgeBase} {ns : List Node} {m : Node},
    m ∈ (kb.addNodes ns).1.nodes → m ∈ kb.nodes ∨ m ∈ ns
  | kb, [], m, h => Or.inl h
  | kb, n :: ns, m, h => by
      simp only [addNodes] at h
      rcases mem_nodes_addNodes h with h' | h'
      · simp only [insert] at h'
        split at h'
        · exact Or.inl h'
        · rw [nodes_append_node] at h'
          rcases List.mem_append.1 h' with hk | hn
          · exact Or.inl hk
          · exact Or.inr (List.mem_cons.2 (Or.inl (List.mem_singleton.1 hn)))
      · exact Or.inr (List.mem_cons_of_mem _ h')

/-- The nodes that were new are among those that were added. -/
theorem mem_of_mem_addNodes : ∀ {kb : KnowledgeBase} {ns : List Node} {m : Node},
    m ∈ (kb.addNodes ns).2 → m ∈ ns
  | kb, n :: ns, m, h => by
      simp only [addNodes] at h
      split at h
      · rcases List.mem_cons.1 h with rfl | h'
        · exact List.mem_cons_self ..
        · exact List.mem_cons_of_mem _ (mem_of_mem_addNodes h')
      · exact List.mem_cons_of_mem _ (mem_of_mem_addNodes h)

theorem saturate_succ_of_nil {kb : KnowledgeBase} (h : kb.pass.2 = []) (bound : Nat) :
    kb.saturate (bound + 1) = { kb, derived := [], passes := 1, fixpoint := true } := by
  rcases hp : kb.pass with ⟨kb', new⟩
  rw [hp] at h
  simp only at h
  subst h
  simp only [saturate, hp]

theorem saturate_succ_of_ne_nil {kb : KnowledgeBase} (h : kb.pass.2 ≠ []) (bound : Nat) :
    kb.saturate (bound + 1) =
      { kb.pass.1.saturate bound with
        derived := kb.pass.2 ++ (kb.pass.1.saturate bound).derived
        passes := (kb.pass.1.saturate bound).passes + 1 } := by
  rcases hp : kb.pass with ⟨kb', new⟩
  rw [hp] at h
  cases new with
  | nil => exact absurd rfl h
  | cons n ns => simp only [saturate, hp]

/-- A property of nodes that one step of inference keeps holds of all that
forward chaining derives and of all that is known afterwards. -/
theorem saturate_induct {P : Node → Prop}
    (hstep : ∀ {nodes c}, (∀ n ∈ nodes, P n) → Infers nodes c → P c) (bound : Nat) :
    ∀ {kb : KnowledgeBase}, (∀ n ∈ kb.nodes, P n) →
      (∀ n ∈ (kb.saturate bound).kb.nodes, P n) ∧
        ∀ n ∈ (kb.saturate bound).derived, P n := by
  induction bound with
  | zero =>
      intro kb h
      exact ⟨h, fun n hn => by cases hn⟩
  | succ bound ih =>
      intro kb h
      have hcand : ∀ c ∈ kb.candidates, P c := fun c hc => hstep h (mem_candidates_iff.1 hc)
      by_cases hnew : kb.pass.2 = []
      · rw [saturate_succ_of_nil hnew]
        exact ⟨h, fun n hn => by cases hn⟩
      · have hkb : ∀ n ∈ kb.pass.1.nodes, P n := by
          intro n hn
          rcases mem_nodes_addNodes hn with h' | h'
          · exact h n h'
          · exact hcand n h'
        rw [saturate_succ_of_ne_nil hnew]
        refine ⟨(ih hkb).1, fun n hn => ?_⟩
        rcases List.mem_append.1 hn with h' | h'
        · exact hcand n (mem_of_mem_addNodes h')
        · exact (ih hkb).2 n h'

end KnowledgeBase

end TripleLogic
