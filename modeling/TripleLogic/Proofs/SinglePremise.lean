/-
TripleLogic.Proofs.SinglePremise — inference by rules with a single premise.

A conjunction of premises is matched greedily, so what a rule with several
premises gives depends on the order of the nodes. A single premise is matched
with every node, and inference makes no rules of the other kind
(`Infers.singlePremised`). So for nodes all of whose rules have a single
premise, equal nodes give equal conclusions, and more nodes give more of them
(`Infers.of_covers`).
-/
import TripleLogic.Proofs.Equality

namespace TripleLogic

/-! ## Rules with a single premise -/

namespace Node

/-- Whether a node is a conjunction that has both operands. -/
def isConjunction : Node → Bool
  | .compound .and (some _) (some _) => true
  | _ => false

mutual

/-- Whether no rule in a node, in any of its directions, has a conjunction as
its premises. -/
def singlePremised : Node → Bool
  | .intent _ => true
  | .compound _ a b => singlePremisedOperand a && singlePremisedOperand b
  | .quantified _ _ a _ => singlePremised a
  | .rule _ a b _ bidirectional _ =>
      !a.isConjunction && !(bidirectional && b.isConjunction)
        && singlePremised a && singlePremised b
  | .edge _ => true

/-- Whether no rule in an operand has a conjunction as its premises. -/
def singlePremisedOperand : Option Node → Bool
  | none => true
  | some a => singlePremised a

end

theorem isConjunction_canon (n : Node) : n.canon.isConjunction = n.isConjunction := by
  cases n with
  | compound o a b => cases o <;> cases a <;> cases b <;> rfl
  | _ => rfl

theorem isConjunction_subst (n : Node) (θ : Bindings) :
    (n.subst θ).isConjunction = n.isConjunction := by
  cases n with
  | compound o a b => cases o <;> cases a <;> cases b <;> rfl
  | _ => rfl

/-- Substitution keeps the forms of rules. -/
theorem singlePremised_subst (n : Node) (θ : Bindings) :
    (n.subst θ).singlePremised = n.singlePremised := by
  induction n using Node.ind with
  | intent i => rfl
  | compound o a b iha ihb =>
      have ha : singlePremisedOperand (substOperand θ a) = singlePremisedOperand a :=
        operand_cases a rfl iha
      have hb : singlePremisedOperand (substOperand θ b) = singlePremisedOperand b :=
        operand_cases b rfl ihb
      simp only [subst, singlePremised, ha, hb]
  | quantified q v a d ih => exact ih
  | rule i a b d x c iha ihb =>
      simp only [subst, singlePremised, isConjunction_subst, iha, ihb]
  | edge e => rfl

theorem singlePremised_compound {o : Connective} {a b : Option Node} :
    (Node.compound o a b).singlePremised = true ↔
      (∀ n, a = some n → n.singlePremised = true) ∧ ∀ n, b = some n → n.singlePremised = true := by
  cases a <;> cases b <;> simp [singlePremised, singlePremisedOperand]

end Node

theorem Pattern.singlePremised_of_direction {r a b : Node} (h : (a, b) ∈ directions r)
    (hr : r.singlePremised = true) :
    a.isConjunction = false ∧ a.singlePremised = true ∧ b.singlePremised = true := by
  cases r with
  | rule i p c d x k =>
      simp only [Node.singlePremised, Bool.and_eq_true, Bool.not_eq_true'] at hr
      obtain ⟨⟨⟨hp, hx⟩, hps⟩, hcs⟩ := hr
      cases x with
      | false =>
          cases List.mem_singleton.1 h
          exact ⟨hp, hps, hcs⟩
      | true =>
          simp only [directions, if_true, List.mem_cons, List.not_mem_nil, or_false,
            Prod.mk.injEq] at h
          rcases h with ⟨rfl, rfl⟩ | ⟨rfl, rfl⟩
          · exact ⟨hp, hps, hcs⟩
          · exact ⟨by simpa using hx, hcs, hps⟩
  | _ => cases h

/-- A single premise is matched with one node after the other. -/
theorem matchPremises_single {a : Node} (h : a.isConjunction = false) (nodes : List Node)
    (θ : Bindings) : matchPremises a nodes θ = nodes.filterMap fun n => a.unifyWith n θ := by
  have hc : a.conjuncts = [a] := by
    unfold Node.conjuncts
    split
    · cases h
    · rfl
  simp only [matchPremises, hc]

/-- No step of inference makes a rule with several premises. -/
theorem Infers.singlePremised {nodes : List Node} {c : Node} (h : Infers nodes c)
    (hn : ∀ n ∈ nodes, n.singlePremised = true) : c.singlePremised = true := by
  cases h with
  | rule hr hd hθ =>
      rw [Node.singlePremised_subst]
      exact (Pattern.singlePremised_of_direction hd (hn _ hr)).2.2
  | ponens hi => exact (Node.singlePremised_compound.1 (hn _ hi)).2 _ rfl
  | tollens hi =>
      refine Node.singlePremised_compound.2 ⟨fun n h => ?_, nofun⟩
      cases h
      exact (Node.singlePremised_compound.1 (hn _ hi)).1 _ rfl
  | chain h₁ h₂ =>
      refine Node.singlePremised_compound.2 ⟨fun n h => ?_, fun n h => ?_⟩
      · cases h
        exact (Node.singlePremised_compound.1 (hn _ h₁)).1 _ rfl
      · cases h
        exact (Node.singlePremised_compound.1 (hn _ h₂)).2 _ rfl
  | right hd => exact (Node.singlePremised_compound.1 (hn _ hd)).2 _ rfl
  | left hd => exact (Node.singlePremised_compound.1 (hn _ hd)).1 _ rfl
  | fst hc => exact (Node.singlePremised_compound.1 (hn _ hc)).1 _ rfl
  | snd hc => exact (Node.singlePremised_compound.1 (hn _ hc)).2 _ rfl

/-! ## Equal nodes give equal candidates -/

/-- Equal rules have equal directions. -/
theorem Pattern.direction_of_canon {r r' a b : Node} (h : r'.canon = r.canon)
    (hd : (a, b) ∈ directions r) :
    ∃ a' b', (a', b') ∈ directions r' ∧ a'.canon = a.canon ∧ b'.canon = b.canon := by
  cases Node.equal_of_canon h with
  | @rule i p' p c' c d x k' k hp hc =>
      cases x with
      | false =>
          cases List.mem_singleton.1 hd
          exact ⟨p', c', by simp [directions], hp, hc⟩
      | true =>
          simp only [directions, if_true, List.mem_cons, List.not_mem_nil, or_false,
            Prod.mk.injEq] at hd
          rcases hd with ⟨rfl, rfl⟩ | ⟨rfl, rfl⟩
          · exact ⟨p', c', by simp [directions], hp, hc⟩
          · exact ⟨c', p', by simp [directions], hc, hp⟩
  | _ => cases hd

theorem Node.unifyWith_of_canon {a a' n n' : Node} (ha : a'.canon = a.canon)
    (hn : n'.canon = n.canon) {θ : Bindings} (h : a.unifyWith n [] = some θ) :
    ∃ θ', a'.unifyWith n' [] = some θ' ∧ θ'.canon = θ.canon := by
  have hagree := Unify.nodes_agree ha hn [] [] rfl
  have hsome : (Unify.nodes a n []).map Bindings.canon = some θ.canon :=
    congrArg (Option.map Bindings.canon) h
  rw [hsome] at hagree
  exact Option.map_eq_some_iff.1 hagree

/-- Conclusions of rules among keys depend on canonical forms only. -/
theorem canon_conclusion {nodes : List Node} (hk : ∀ n ∈ nodes, n.isKey = true) {r a b : Node}
    {θ : Bindings} (hr : r ∈ nodes) (hd : (a, b) ∈ Pattern.directions r)
    (hθ : θ ∈ matchPremises a nodes []) : (b.subst θ).canon = b.canon.subst θ.canon := by
  have hover : ∀ n ∈ nodes, n.Over (Universe.ofNodes nodes).vocabulary :=
    fun n hn => (Universe.mem_ofNodes hn).tokens_mem
  obtain ⟨ha, hb⟩ := Pattern.mem_children_of_mem_directions hd
  refine Node.canon_subst (composite?_of_vocabulary hk) ?_ ((hover r hr).of_mem_children hb)
  exact Unify.matchPremises_over hover ((hover r hr).of_mem_children ha) hθ

/-- With every node of one list, another list has an equal one. -/
def Covers (nodes' nodes : List Node) : Prop :=
  ∀ n ∈ nodes, ∃ m ∈ nodes', m.canon = n.canon

theorem Covers.of_subset {nodes nodes' : List Node} (h : nodes ⊆ nodes') : Covers nodes' nodes :=
  fun n hn => ⟨n, h hn, rfl⟩

theorem Covers.singleton {n n' : Node} (h : n'.canon = n.canon) : Covers [n'] [n] := by
  intro k hk
  rw [List.mem_singleton.1 hk]
  exact ⟨n', List.mem_singleton.2 rfl, h⟩

theorem Covers.append {ms ms' ns ns' : List Node} (hm : Covers ms' ms) (hn : Covers ns' ns) :
    Covers (ms' ++ ns') (ms ++ ns) := by
  intro k hk
  rcases List.mem_append.1 hk with hk | hk
  · obtain ⟨k', hk', hc⟩ := hm k hk
    exact ⟨k', List.mem_append_left _ hk', hc⟩
  · obtain ⟨k', hk', hc⟩ := hn k hk
    exact ⟨k', List.mem_append_right _ hk', hc⟩

namespace Covers

variable {nodes' nodes : List Node} (h : Covers nodes' nodes) {o : Connective}

include h

theorem isKey (hkeys : ∀ n ∈ nodes', n.isKey = true) : ∀ n ∈ nodes, n.isKey = true := by
  intro n hn
  obtain ⟨m, hm, hc⟩ := h n hn
  exact Node.isKey_of_canon hc.symm (hkeys m hm)

theorem compound {a b : Option Node} (hn : Node.compound o a b ∈ nodes) :
    ∃ a' b', Node.compound o a' b' ∈ nodes' ∧ Node.canonOperand a' = Node.canonOperand a ∧
      Node.canonOperand b' = Node.canonOperand b := by
  obtain ⟨m, hm, hc⟩ := h _ hn
  cases Node.equal_of_canon hc with
  | compound ha hb => exact ⟨_, _, hm, ha, hb⟩

theorem left {a : Node} {r : Option Node} (hn : Node.compound o (some a) r ∈ nodes) :
    ∃ a' r', Node.compound o (some a') r' ∈ nodes' ∧ a'.canon = a.canon := by
  obtain ⟨a', r', hm, ha, -⟩ := h.compound hn
  cases a' with
  | none => cases ha
  | some a' => exact ⟨a', r', hm, Option.some.inj ha⟩

theorem right {a : Node} {l : Option Node} (hn : Node.compound o l (some a) ∈ nodes) :
    ∃ a' l', Node.compound o l' (some a') ∈ nodes' ∧ a'.canon = a.canon := by
  obtain ⟨l', a', hm, -, ha⟩ := h.compound hn
  cases a' with
  | none => cases ha
  | some a' => exact ⟨a', l', hm, Option.some.inj ha⟩

theorem both {a b : Node} (hn : Node.compound o (some a) (some b) ∈ nodes) :
    ∃ a' b', Node.compound o (some a') (some b') ∈ nodes' ∧ a'.canon = a.canon ∧
      b'.canon = b.canon := by
  obtain ⟨m, hm, hc⟩ := h _ hn
  obtain ⟨a', b', rfl, ha, hb⟩ := Node.compound_of_canon hc
  exact ⟨a', b', hm, ha, hb⟩

/-- A rule with a single premise, and bindings that it has, have equals among
the nodes that cover them. -/
theorem conclusion (hkeys : ∀ n ∈ nodes', n.isKey = true)
    (hsingle : ∀ n ∈ nodes', n.singlePremised = true) {r a b : Node} {θ : Bindings}
    (hr : r ∈ nodes) (hd : (a, b) ∈ Pattern.directions r) (hθ : θ ∈ matchPremises a nodes []) :
    ∃ c', Infers nodes' c' ∧ c'.canon = (b.subst θ).canon := by
  obtain ⟨r', hr', hrc⟩ := h r hr
  obtain ⟨a', b', hd', ha, hb⟩ := Pattern.direction_of_canon hrc hd
  have hconj' : a'.isConjunction = false :=
    (Pattern.singlePremised_of_direction hd' (hsingle r' hr')).1
  have hconj : a.isConjunction = false := by
    rw [← Node.isConjunction_canon, ← ha, Node.isConjunction_canon, hconj']
  have hcanon := canon_conclusion (h.isKey hkeys) hr hd hθ
  rw [matchPremises_single hconj] at hθ
  obtain ⟨n, hn, hu⟩ := List.mem_filterMap.1 hθ
  obtain ⟨n', hn', hnc⟩ := h n hn
  obtain ⟨θ', hu', hθc⟩ := Node.unifyWith_of_canon ha hnc hu
  have hθ' : θ' ∈ matchPremises a' nodes' [] := by
    rw [matchPremises_single hconj']
    exact List.mem_filterMap.2 ⟨n', hn', hu'⟩
  refine ⟨b'.subst θ', .rule hr' hd' hθ', ?_⟩
  rw [canon_conclusion hkeys hr' hd' hθ', hcanon, hb, hθc]

end Covers

/-- What is inferred from nodes is inferred, up to equality, from nodes that
cover them. -/
theorem Infers.of_covers {nodes nodes' : List Node} (hkeys : ∀ n ∈ nodes', n.isKey = true)
    (hsingle : ∀ n ∈ nodes', n.singlePremised = true) (hcov : Covers nodes' nodes) {c : Node}
    (h : Infers nodes c) : ∃ c', Infers nodes' c' ∧ c'.canon = c.canon := by
  have hsame : ∀ {m m' a a' : Node}, m'.canon = m.canon → a'.canon = a.canon →
      m.same a = true → m'.same a' = true := by
    intro m m' a a' hm ha hs
    rw [Node.same_iff] at hs ⊢
    rw [hm, ha, hs]
  cases h with
  | rule hr hd hθ => exact hcov.conclusion hkeys hsingle hr hd hθ
  | ponens hi hm hs =>
      obtain ⟨a', b', hi', ha, hb⟩ := hcov.both hi
      obtain ⟨m', hm', hmc⟩ := hcov _ hm
      exact ⟨b', .ponens hi' hm' (hsame hmc ha hs), hb⟩
  | tollens hi hn hs =>
      obtain ⟨a', b', hi', ha, hb⟩ := hcov.both hi
      obtain ⟨m', r', hn', hm⟩ := hcov.left hn
      refine ⟨a'.negate, .tollens hi' hn' (hsame hm hb hs), ?_⟩
      simp only [Node.negate, Node.canon, Node.canonOperand, ha]
  | chain h₁ h₂ hs =>
      obtain ⟨a', b', h₁', ha, hb⟩ := hcov.both h₁
      obtain ⟨d', e', h₂', hd, he⟩ := hcov.both h₂
      refine ⟨a'.implies e', .chain h₁' h₂' (hsame hd hb hs), ?_⟩
      simp only [Node.implies, Node.canon, Node.canonOperand, ha, he]
  | right hd hn hs =>
      obtain ⟨a', b', hd', ha, hb⟩ := hcov.both hd
      obtain ⟨m', r', hn', hm⟩ := hcov.left hn
      exact ⟨b', .right hd' hn' (hsame hm ha hs), hb⟩
  | left hd hn hs =>
      obtain ⟨a', b', hd', ha, hb⟩ := hcov.both hd
      obtain ⟨m', r', hn', hm⟩ := hcov.left hn
      exact ⟨a', .left hd' hn' (hsame hm hb hs), ha⟩
  | fst hc =>
      obtain ⟨a', r', hc', ha⟩ := hcov.left hc
      exact ⟨a', .fst hc', ha⟩
  | snd hc =>
      obtain ⟨a', l', hc', ha⟩ := hcov.right hc
      exact ⟨a', .snd hc', ha⟩

end TripleLogic
