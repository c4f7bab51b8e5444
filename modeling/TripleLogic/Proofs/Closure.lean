/-
TripleLogic.Proofs.Closure — forward chaining computes the least closure.

Where every rule has a single premise, the nodes that a pass adds depend, up
to equality, only on the nodes that are held and not on their order
(`Within.pass`, `Alike.new`), and so does the outcome of a whole run
(`saturate_alike`).

Main statement: a run that reaches a fixpoint holds the least set of nodes
that contains the given ones and is closed under equality and the patterns of
inference; giving the nodes in another order changes neither this set nor the
number of nodes derived nor the number of passes (`forward_least_closure`).
-/
import Mathlib.Order.Bounds.Defs
import TripleLogic.Proofs.Growth
import TripleLogic.Proofs.SinglePremise
import TripleLogic.Proofs.Termination

namespace TripleLogic

/-! ## One pass -/

namespace KnowledgeBase

/-- A key is known as a node of its own. -/
theorem mem_nodes_iff {kb : KnowledgeBase} {n : Node} (hn : n.isKey = true) :
    n ∈ kb.nodes ↔ .node n ∈ kb.entries := by
  simp only [nodes, List.mem_filterMap]
  constructor
  · rintro ⟨x, hx, h⟩
    cases x with
    | node m =>
        cases h
        exact hx
    | labelled k m hm =>
        cases h
        exact absurd (hm.symm.trans hn) Bool.false_ne_true
    | foreign v => cases h
  · exact fun h => ⟨_, h, rfl⟩

/-- Where a node is held, an equal one is known. -/
theorem exists_of_holds {kb : KnowledgeBase} {n : Node} (h : kb.holds (.node n) = true) :
    ∃ m ∈ kb.nodes, m.canon = n.canon := by
  obtain ⟨x, hx, hs⟩ := List.any_eq_true.1 h
  cases x with
  | node m => exact ⟨m, List.mem_filterMap.2 ⟨_, hx, rfl⟩, (Node.same_iff m n).1 hs⟩
  | _ => cases hs

theorem holds_of_mem_entries {kb : KnowledgeBase} {n : Node} (h : .node n ∈ kb.entries) :
    kb.holds (.node n) = true :=
  List.any_eq_true.2 ⟨_, h, (Node.same_iff n n).2 rfl⟩

theorem holds_of_canon {kb : KnowledgeBase} {n m : Node} (h : kb.holds (.node n) = true)
    (hc : n.canon = m.canon) : kb.holds (.node m) = true := by
  obtain ⟨x, hx, hs⟩ := List.any_eq_true.1 h
  refine List.any_eq_true.2 ⟨x, hx, ?_⟩
  cases x with
  | node k => exact (Node.same_iff k m).2 (((Node.same_iff k n).1 hs).trans hc)
  | _ => cases hs

/-- A key is held when an equal node is known. -/
theorem holds_node_iff {kb : KnowledgeBase} {n : Node} (hn : n.isKey = true) :
    kb.holds (.node n) = true ↔ ∃ m ∈ kb.nodes, m.canon = n.canon := by
  refine ⟨exists_of_holds, fun ⟨m, hm, hc⟩ => ?_⟩
  have hkey := Node.isKey_of_canon hc hn
  exact holds_of_canon (holds_of_mem_entries ((mem_nodes_iff hkey).1 hm)) hc

theorem holds_insert_iff {kb : KnowledgeBase} {n m : Node} :
    (kb.insert (.node n)).1.holds (.node m) = true ↔
      kb.holds (.node m) = true ∨ n.canon = m.canon := by
  cases hn : kb.holds (.node n) with
  | true =>
      simp only [insert, hn, if_true]
      exact ⟨Or.inl, fun h => h.elim id (holds_of_canon hn)⟩
  | false =>
      simp only [insert, hn, Bool.false_eq_true, if_false, holds_append, Bool.or_eq_true,
        Entry.same, Node.same_iff]

/-- What is held after nodes were added was held before or was added. -/
theorem holds_addNodes_iff : ∀ {kb : KnowledgeBase} {ns : List Node} {m : Node},
    (kb.addNodes ns).1.holds (.node m) = true ↔
      kb.holds (.node m) = true ∨ ∃ n ∈ ns, n.canon = m.canon
  | kb, [], m => by simp [addNodes]
  | kb, n :: ns, m => by
      simp only [addNodes, holds_addNodes_iff, holds_insert_iff, List.exists_mem_cons_iff,
        or_assoc]

/-- The nodes that count as new are those that were added and not held
before. -/
theorem mem_new_iff : ∀ {kb : KnowledgeBase} {ns : List Node} {x : Node},
    x ∈ (kb.addNodes ns).2.map Node.canon ↔
      ∃ n ∈ ns, kb.holds (.node n) = false ∧ n.canon = x
  | kb, [], x => by simp [addNodes]
  | kb, n :: ns, x => by
      have ih := @mem_new_iff (kb.insert (.node n)).1 ns x
      cases hn : kb.holds (.node n) with
      | true =>
          have hkb : kb.insert (.node n) = (kb, false) := by simp only [insert, hn, if_true]
          rw [hkb] at ih
          simp only [addNodes, hkb, Bool.false_eq_true, if_false, ih, List.exists_mem_cons_iff, hn,
            reduceCtorEq, false_and, false_or]
      | false =>
          have hadded : (kb.insert (.node n)).2 = true := by simp [insert, hn]
          rw [List.exists_mem_cons_iff]
          simp only [addNodes, hadded, if_true, List.map_cons, List.mem_cons, ih, hn, true_and]
          constructor
          · rintro (rfl | ⟨m, hm, hnew, rfl⟩)
            · exact Or.inl rfl
            · rw [← Bool.not_eq_true, holds_insert_iff, not_or, Bool.not_eq_true] at hnew
              exact Or.inr ⟨m, hm, hnew.1, rfl⟩
          · rintro (rfl | ⟨m, hm, hold, rfl⟩)
            · exact Or.inl rfl
            · by_cases hc : n.canon = m.canon
              · exact Or.inl hc.symm
              · refine Or.inr ⟨m, hm, ?_, rfl⟩
                rw [← Bool.not_eq_true, holds_insert_iff, not_or, Bool.not_eq_true]
                exact ⟨hold, hc⟩

/-- No two of the nodes that count as new are equal. -/
theorem new_nodup : ∀ (kb : KnowledgeBase) (ns : List Node),
    ((kb.addNodes ns).2.map Node.canon).Nodup
  | kb, [] => by simp [addNodes]
  | kb, n :: ns => by
      have ih := new_nodup (kb.insert (.node n)).1 ns
      simp only [addNodes]
      split
      · refine List.nodup_cons.2 ⟨fun hn => ?_, ih⟩
        obtain ⟨m, -, hnew, hc⟩ := mem_new_iff.1 hn
        rw [← Bool.not_eq_true, holds_insert_iff, not_or] at hnew
        exact hnew.2 hc.symm
      · exact ih

/-- All nodes that one knowledge base holds, another one holds. -/
def Within (kb kb' : KnowledgeBase) : Prop :=
  ∀ n, kb.holds (.node n) = true → kb'.holds (.node n) = true

/-- Two knowledge bases hold the same nodes, up to equality. -/
structure Alike (kb kb' : KnowledgeBase) : Prop where
  within : kb.Within kb'
  back : kb'.Within kb

/-- Nodes that can all be looked up, and rules that all have a single premise. -/
structure Simple (kb : KnowledgeBase) : Prop where
  isKey : ∀ n ∈ kb.nodes, n.isKey = true
  single : ∀ n ∈ kb.nodes, n.singlePremised = true

theorem Simple.of_candidate {kb : KnowledgeBase} (h : kb.Simple) {c : Node}
    (hc : c ∈ kb.candidates) : c.isKey = true ∧ c.singlePremised = true :=
  ⟨isKey_of_mem_candidates h.isKey hc, (mem_candidates_iff.1 hc).singlePremised h.single⟩

/-- A pass keeps a knowledge base simple. -/
theorem Simple.pass {kb : KnowledgeBase} (h : kb.Simple) : kb.pass.1.Simple := by
  refine ⟨pass_isKey h.isKey, fun n hn => ?_⟩
  rcases mem_nodes_addNodes hn with hn | hn
  · exact h.single n hn
  · exact (h.of_candidate hn).2

/-- The candidates of a knowledge base have equals among those of a simple one
that holds more. -/
theorem Within.candidates {kb kb' : KnowledgeBase} (h : kb.Within kb') (hs : kb.Simple)
    (hs' : kb'.Simple) {c : Node} (hc : c ∈ kb.candidates) :
    ∃ c' ∈ kb'.candidates, c'.canon = c.canon := by
  have hcov : Covers kb'.nodes kb.nodes :=
    fun n hn => exists_of_holds (h n ((holds_node_iff (hs.isKey n hn)).2 ⟨n, hn, rfl⟩))
  obtain ⟨c', hc', hcanon⟩ := (mem_candidates_iff.1 hc).of_covers hs'.isKey hs'.single hcov
  exact ⟨c', mem_candidates_iff.2 hc', hcanon⟩

/-- A pass is monotone. -/
theorem Within.pass {kb kb' : KnowledgeBase} (h : kb.Within kb') (hs : kb.Simple)
    (hs' : kb'.Simple) : kb.pass.1.Within kb'.pass.1 := by
  intro n hn
  rcases holds_addNodes_iff.1 hn with hn | ⟨c, hc, hcn⟩
  · exact holds_addNodes_iff.2 (Or.inl (h n hn))
  · obtain ⟨c', hc', hcc⟩ := h.candidates hs hs' hc
    exact holds_addNodes_iff.2 (Or.inr ⟨c', hc', hcc.trans hcn⟩)

theorem Alike.symm {kb kb' : KnowledgeBase} (h : kb.Alike kb') : kb'.Alike kb :=
  ⟨h.back, h.within⟩

theorem Alike.pass {kb kb' : KnowledgeBase} (h : kb.Alike kb') (hs : kb.Simple)
    (hs' : kb'.Simple) : kb.pass.1.Alike kb'.pass.1 :=
  ⟨h.within.pass hs hs', h.back.pass hs' hs⟩

/-- Knowledge bases that hold the same nodes have the same new ones. -/
theorem Alike.new {kb kb' : KnowledgeBase} (h : kb.Alike kb') (hs : kb.Simple)
    (hs' : kb'.Simple) : (kb.pass.2.map Node.canon).Perm (kb'.pass.2.map Node.canon) := by
  have hsub : ∀ {kb kb' : KnowledgeBase}, kb.Alike kb' → kb.Simple → kb'.Simple → ∀ x,
      x ∈ kb.pass.2.map Node.canon → x ∈ kb'.pass.2.map Node.canon := by
    intro kb kb' h hs hs' x hx
    obtain ⟨c, hc, hold, rfl⟩ := mem_new_iff.1 hx
    obtain ⟨c', hc', hcc⟩ := h.within.candidates hs hs' hc
    refine mem_new_iff.2 ⟨c', hc', ?_, hcc⟩
    rw [← Bool.not_eq_true] at hold ⊢
    exact fun hheld => hold (h.back c (holds_of_canon hheld hcc))
  refine (List.perm_ext_iff_of_nodup (new_nodup kb _) (new_nodup kb' _)).2 fun x => ?_
  exact ⟨hsub h hs hs' x, hsub h.symm hs' hs x⟩

/-! ## Any number of passes -/

/-- **Forward chaining does not depend on order.** From knowledge bases that
hold the same nodes it derives the same ones, in as many passes. -/
theorem saturate_alike (bound : Nat) : ∀ {kb kb' : KnowledgeBase}, kb.Alike kb' → kb.Simple →
    kb'.Simple →
      (kb.saturate bound).kb.Alike (kb'.saturate bound).kb ∧
      ((kb.saturate bound).derived.map Node.canon).Perm
        ((kb'.saturate bound).derived.map Node.canon) ∧
      (kb.saturate bound).passes = (kb'.saturate bound).passes ∧
      (kb.saturate bound).fixpoint = (kb'.saturate bound).fixpoint := by
  induction bound with
  | zero =>
      intro kb kb' h hs hs'
      exact ⟨h, List.Perm.refl _, rfl, rfl⟩
  | succ bound ih =>
      intro kb kb' h hs hs'
      have hnew := h.new hs hs'
      have hnil : kb.pass.2 = [] ↔ kb'.pass.2 = [] := by
        have hlength := hnew.length_eq
        rw [List.length_map, List.length_map] at hlength
        rw [← List.length_eq_zero_iff, hlength, List.length_eq_zero_iff]
      by_cases hp : kb.pass.2 = []
      · rw [saturate_succ_of_nil hp, saturate_succ_of_nil (hnil.1 hp)]
        exact ⟨h, List.Perm.refl _, rfl, rfl⟩
      · rw [saturate_succ_of_ne_nil hp, saturate_succ_of_ne_nil fun hp' => hp (hnil.2 hp')]
        obtain ⟨hkb, hderived, hpasses, hfix⟩ := ih (h.pass hs hs') hs.pass hs'.pass
        refine ⟨hkb, ?_, congrArg (· + 1) hpasses, hfix⟩
        simp only [List.map_append]
        exact hnew.append hderived

/-- After a run that reached a fixpoint, a pass adds nothing. -/
theorem pass_of_fixpoint (bound : Nat) : ∀ {kb : KnowledgeBase},
    (kb.saturate bound).fixpoint = true → (kb.saturate bound).kb.pass.2 = [] := by
  induction bound with
  | zero =>
      intro kb h
      cases h
  | succ bound ih =>
      intro kb h
      by_cases hp : kb.pass.2 = []
      · rw [saturate_succ_of_nil hp]
        exact hp
      · rw [saturate_succ_of_ne_nil hp] at h ⊢
        exact ih h

theorem Simple.saturate {kb : KnowledgeBase} (h : kb.Simple) (bound : Nat) :
    (kb.saturate bound).kb.Simple where
  isKey := saturate_isKey h.isKey bound
  single := (saturate_induct (fun hn hc => hc.singlePremised hn) bound h.single).1

end KnowledgeBase

/-! ## Closed sets -/

/-- The patterns of inference give what one step infers. -/
theorem infers_iff_pattern {nodes : List Node} {c : Node} :
    Infers nodes c ↔ ∃ p : Pattern, c ∈ p.candidates nodes := by
  have hnodes : (KnowledgeBase.mk (nodes.map .node)).nodes = nodes := by
    simp [KnowledgeBase.nodes, List.filterMap_map, Function.comp_def, Entry.node?]
  have hiff := @KnowledgeBase.mem_candidates_iff ⟨nodes.map .node⟩ c
  rw [KnowledgeBase.candidates, hnodes, List.mem_flatMap] at hiff
  rw [← hiff]
  constructor
  · rintro ⟨p, -, hc⟩
    exact ⟨p, hc⟩
  · rintro ⟨p, hc⟩
    exact ⟨p, by cases p <;> simp [Pattern.all], hc⟩

/-- A set of nodes that has, with a node, all nodes equal to it, and with any
nodes all that a pattern of inference gives from them. -/
structure Closed (S : Set Node) : Prop where
  same : ∀ n ∈ S, ∀ m : Node, m.same n = true → m ∈ S
  step : ∀ nodes : List Node, (∀ n ∈ nodes, n ∈ S) →
    ∀ p : Pattern, ∀ c ∈ p.candidates nodes, c ∈ S

namespace KnowledgeBase

/-- Where a pass adds nothing, all candidates are held. -/
theorem holds_of_pass {kb : KnowledgeBase} (h : kb.pass.2 = []) {c : Node}
    (hc : c ∈ kb.candidates) : kb.holds (.node c) = true := by
  by_contra hold
  have hnew : c.canon ∈ kb.pass.2.map Node.canon :=
    mem_new_iff.2 ⟨c, hc, Bool.not_eq_true _ ▸ hold, rfl⟩
  simp [h] at hnew

/-- What is held where a pass adds nothing is closed. -/
theorem closed_of_pass {kb : KnowledgeBase} (hs : kb.Simple) (h : kb.pass.2 = []) :
    Closed {n | kb.holds (.node n) = true} where
  same n hn m hm := holds_of_canon hn ((Node.same_iff m n).1 hm).symm
  step nodes hnodes p c hc := by
    have hcov : Covers kb.nodes nodes := fun n hn => exists_of_holds (hnodes n hn)
    obtain ⟨c', hc', hcc⟩ := (infers_iff_pattern.2 ⟨p, hc⟩).of_covers hs.isKey hs.single hcov
    exact holds_of_canon (holds_of_pass h (mem_candidates_iff.2 hc')) hcc

/-- Forward chaining does not lead out of a closed set. -/
theorem saturate_subset {S : Set Node} (hS : Closed S) {kb : KnowledgeBase}
    (h : ∀ n ∈ kb.nodes, n ∈ S) (bound : Nat) :
    ∀ n, (kb.saturate bound).kb.holds (.node n) = true → n ∈ S := by
  intro n hn
  obtain ⟨m, hm, hc⟩ := exists_of_holds hn
  have hmem : m ∈ S := (saturate_induct (fun hnodes hc => by
    obtain ⟨p, hp⟩ := infers_iff_pattern.1 hc
    exact hS.step _ hnodes p _ hp) bound h).1 m hm
  exact hS.same m hmem n ((Node.same_iff n m).2 hc.symm)

end KnowledgeBase

/-! ## Engines -/

namespace KnowledgeBase

theorem holds_add_iff {kb : KnowledgeBase} {e : Entry} {m : Node} :
    (kb.add e).1.holds (.node m) = true ↔
      kb.holds (.node m) = true ∨ ∃ n, .node n = e ∧ n.canon = m.canon := by
  cases hc : kb.contains e with
  | true =>
      simp only [add, hc, if_true]
      refine ⟨Or.inl, fun h => h.elim id ?_⟩
      rintro ⟨n, rfl, hn⟩
      exact holds_of_canon (Bool.and_eq_true_iff.1 hc).2 hn
  | false =>
      simp only [add, hc, Bool.false_eq_true, if_false, holds_append, Bool.or_eq_true]
      cases e with
      | node n => simp [Entry.same, Node.same_iff]
      | _ => simp [Entry.same]

/-- What is held after entries were added was held before or was added. -/
theorem holds_extend_iff : ∀ {es : List Entry} {kb : KnowledgeBase} {m : Node},
    (kb.extend es).1.holds (.node m) = true ↔
      kb.holds (.node m) = true ∨ ∃ n, .node n ∈ es ∧ n.canon = m.canon
  | [], kb, m => by simp [extend]
  | e :: es, kb, m => by
      simp only [extend, holds_extend_iff, holds_add_iff, List.mem_cons, or_and_right, exists_or,
        or_assoc]

theorem holds_ofEntries_iff {es : List Entry} {m : Node} :
    (ofEntries es).holds (.node m) = true ↔ ∃ n, .node n ∈ es ∧ n.canon = m.canon := by
  rw [ofEntries, holds_extend_iff]
  exact ⟨fun h => h.resolve_left (by simp [holds]), Or.inr⟩

theorem mem_of_mem_ofEntries {es : List Entry} {n : Node} (hn : n.isKey = true)
    (h : n ∈ (ofEntries es).nodes) : .node n ∈ es := by
  rcases mem_entries_extend ((mem_nodes_iff hn).1 h) with h | h
  · cases h
  · exact h

/-- Which nodes are held does not depend on the order in which they came. -/
theorem alike_of_perm {es es' : List Entry} (h : es.Perm es') :
    (ofEntries es).Alike (ofEntries es') := by
  have hwithin : ∀ {es es' : List Entry}, es.Perm es' → (ofEntries es).Within (ofEntries es') := by
    intro es es' h n hn
    obtain ⟨m, hm, hc⟩ := holds_ofEntries_iff.1 hn
    exact holds_ofEntries_iff.2 ⟨m, h.mem_iff.1 hm, hc⟩
  exact ⟨hwithin h, hwithin h.symm⟩

theorem isKey_of_entry_same {x e : Entry} (h : x.same e = true)
    (hx : ∀ n, x.node? = some n → n.isKey = true) : ∀ n, e.node? = some n → n.isKey = true := by
  cases e with
  | node n =>
      rintro _ ⟨⟩
      cases x with
      | node m => exact Node.isKey_of_canon ((Node.same_iff m n).1 h).symm (hx m rfl)
      | _ => cases h
  | labelled l n hn =>
      cases x with
      | labelled k m hm => exact absurd (hm.symm.trans (hx m rfl)) Bool.false_ne_true
      | _ => cases h
  | foreign w => exact nofun

/-- All nodes that are known are keys if all nodes are that were given. -/
theorem isKey_ofEntries_iff {es : List Entry} :
    (∀ n ∈ (ofEntries es).nodes, n.isKey = true) ↔
      ∀ e ∈ es, ∀ n, e.node? = some n → n.isKey = true := by
  simp only [nodes, List.mem_filterMap, forall_exists_index, and_imp]
  constructor
  · intro h e he n hn
    obtain ⟨x, hx, rfl | hs⟩ := exists_of_mem_extend he
    · exact h n x hx hn
    · exact isKey_of_entry_same hs (fun m => h m x hx) n hn
  · intro h n x hx hn
    exact h x ((mem_entries_extend hx).resolve_left (by simp)) n hn

/-- What is held stays held. -/
theorem within_saturate (kb : KnowledgeBase) (bound : Nat) :
    kb.Within (kb.saturate bound).kb := by
  intro n hn
  obtain ⟨x, hx, hs⟩ := List.any_eq_true.1 hn
  exact List.any_eq_true.2 ⟨x, (kb.prefix_saturate bound).subset hx, hs⟩

end KnowledgeBase

namespace Engine

/-- Forward chaining that reaches a fixpoint has met only keys. -/
theorem isKey_of_forward {g : Engine} {bound : Nat} {s : Saturation}
    (h : (g.forward bound).2 = .ok s) (hfix : s.fixpoint = true) :
    ∀ n ∈ g.kb.nodes, n.isKey = true := by
  cases bound with
  | zero =>
      cases eq_saturate_of_forward h
      cases hfix
  | succ bound => exact isKey_of_forward_succ h

/-- Forward chaining over keys is saturation. -/
theorem forward_of_isKey {g : Engine} (h : ∀ n ∈ g.kb.nodes, n.isKey = true) (bound : Nat) :
    (g.forward bound).2 = .ok (g.kb.saturate bound) :=
  congrArg Prod.snd (forward_eq_saturate h bound)

/-- **Forward chaining computes the least closure.** Where every rule has a
single premise, a run that reaches a fixpoint holds the least closed set that
contains the given nodes. Giving them in another order leads to a fixpoint
too, with the same nodes up to equality, as many of them derived, and as many
passes. -/
theorem forward_least_closure (es : List Entry) (settings : InferenceSettings) (bound : Nat)
    (s : Saturation) (hsingle : ∀ n, .node n ∈ es → n.singlePremised = true)
    (hrun : ((ofEntries es settings).forward bound).2 = .ok s) (hfix : s.fixpoint = true) :
    IsLeast {S : Set Node | Closed S ∧ ∀ n, .node n ∈ es → n ∈ S}
        {n | s.kb.holds (.node n) = true} ∧
      ∀ es' : List Entry, es'.Perm es →
        ∃ s', ((ofEntries es' settings).forward bound).2 = .ok s' ∧ s'.fixpoint = true ∧
          (∀ n, s'.kb.holds (.node n) = s.kb.holds (.node n)) ∧
          s'.derived.length = s.derived.length ∧ s'.passes = s.passes := by
  have hkeys := isKey_of_forward hrun hfix
  have hsimple : (KnowledgeBase.ofEntries es).Simple :=
    ⟨hkeys, fun n hn => hsingle n (KnowledgeBase.mem_of_mem_ofEntries (hkeys n hn) hn)⟩
  cases eq_saturate_of_forward hrun
  refine ⟨⟨⟨?_, ?_⟩, ?_⟩, ?_⟩
  · exact KnowledgeBase.closed_of_pass (hsimple.saturate bound)
      (KnowledgeBase.pass_of_fixpoint bound hfix)
  · intro n hn
    exact KnowledgeBase.within_saturate _ bound n
      (KnowledgeBase.holds_ofEntries_iff.2 ⟨n, hn, rfl⟩)
  · rintro S ⟨hS, hes⟩
    exact KnowledgeBase.saturate_subset hS
      (fun n hn => hes n (KnowledgeBase.mem_of_mem_ofEntries (hkeys n hn) hn)) bound
  · intro es' hperm
    have halike := KnowledgeBase.alike_of_perm hperm
    have hkeys' : ∀ n ∈ (KnowledgeBase.ofEntries es').nodes, n.isKey = true :=
      KnowledgeBase.isKey_ofEntries_iff.2 fun e he =>
        KnowledgeBase.isKey_ofEntries_iff.1 hkeys e (hperm.mem_iff.1 he)
    have hsimple' : (KnowledgeBase.ofEntries es').Simple :=
      ⟨hkeys', fun n hn => hsingle n
        (hperm.mem_iff.1 (KnowledgeBase.mem_of_mem_ofEntries (hkeys' n hn) hn))⟩
    obtain ⟨hkb, hderived, hpasses, hfixpoint⟩ :=
      KnowledgeBase.saturate_alike bound halike hsimple' hsimple
    have hlength := hderived.length_eq
    rw [List.length_map, List.length_map] at hlength
    exact ⟨_, forward_of_isKey hsimple'.isKey bound, hfixpoint.trans hfix,
      fun n => Bool.eq_iff_iff.2 ⟨hkb.within n, hkb.back n⟩, hlength, hpasses⟩

/-- Two parents, one of them stated again with a confidence and a tense, a rule
that works both ways, and an implication. -/
def kin : List Entry := [
  .node (.rule "child" (.assertion "?X" "parent_of" "?Y") (.assertion "?Y" "child_of" "?X")
    none true .null),
  .node (.assertion "Ann" "parent_of" "Bob"),
  .node (.intent { kind := "!Assert", confidence := .num (.int 1), statements :=
    [{ subject := .concept "Ann", relation := { name := "parent_of", tense := .str "past" }
       object := .concept "Bob" }] }),
  .node (.assertion "Cid" "child_of" "Bob"),
  .node (Node.implies (.assertion "Bob" "child_of" "Ann") (.assertion "Bob" "loves" "Ann"))]

/-- Three nodes are derived of the kin in three passes, in whatever order they
are given. -/
theorem kin_least_closure :
    (∀ n, .node n ∈ kin → n.singlePremised = true) ∧
      ∃ s, ((ofEntries kin {}).forward 9).2 = .ok s ∧ s.fixpoint = true ∧
        IsLeast {S : Set Node | Closed S ∧ ∀ n, .node n ∈ kin → n ∈ S}
          {n | s.kb.holds (.node n) = true} ∧
        ∃ s', ((ofEntries kin.reverse {}).forward 9).2 = .ok s' ∧
          (∀ n, s'.kb.holds (.node n) = s.kb.holds (.node n)) ∧
          s'.derived.length = 3 ∧ s'.passes = 3 := by
  have hsingle : ∀ n, .node n ∈ kin → n.singlePremised = true := by
    intro n hn
    simp only [kin, List.mem_cons, Entry.node.injEq, List.not_mem_nil, or_false] at hn
    rcases hn with rfl | rfl | rfl | rfl | rfl <;> rfl
  have hkeys : ∀ n ∈ (ofEntries kin {}).kb.nodes, n.isKey = true := by decide +kernel
  have hrun := forward_of_isKey hkeys 9
  have hfix : ((ofEntries kin {}).kb.saturate 9).fixpoint = true := by decide +kernel
  have hderived : ((ofEntries kin {}).kb.saturate 9).derived.length = 3 := by decide +kernel
  have hpasses : ((ofEntries kin {}).kb.saturate 9).passes = 3 := by decide +kernel
  obtain ⟨hleast, hperm⟩ := forward_least_closure kin {} 9 _ hsingle hrun hfix
  obtain ⟨s', hrun', -, hheld, hlength, hp⟩ := hperm kin.reverse kin.reverse_perm
  exact ⟨hsingle, _, hrun, hfix, hleast, s', hrun', hheld, hlength.trans hderived, hp.trans hpasses⟩

end Engine

end TripleLogic
