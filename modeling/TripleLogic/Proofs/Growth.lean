/-
TripleLogic.Proofs.Growth — what an engine knows only grows.

A run is a sequence of operations: entries are added, forward chaining is
called for, goals are put. Whatever the operation, and whether it is answered
or refused, the entries known before it are the first entries known after it,
in the same order (`prefix_perform`), and so for a whole run (`prefix_run`).
What a step of inference keeps holds of all that is known after forward
chaining, also where that is refused (`forward_induct`).

`prove_cases` says how a goal comes to be proved: by a search among what is
known, or by a search among what is known after forward chaining. In both
cases the search goes through what is known once the question is answered.
-/
import TripleLogic.Proofs.ForwardChaining

namespace TripleLogic

/-! ## What is added stands at the end -/

namespace KnowledgeBase

theorem prefix_add (kb : KnowledgeBase) (e : Entry) : kb.entries <+: (kb.add e).1.entries := by
  rcases kb.add_entries e with h | h
  · exact h ▸ List.prefix_refl _
  · exact h ▸ List.prefix_append _ _

theorem prefix_extend : ∀ (es : List Entry) (kb : KnowledgeBase),
    kb.entries <+: (kb.extend es).1.entries
  | [], _ => List.prefix_refl _
  | e :: es, kb => (kb.prefix_add e).trans (prefix_extend es (kb.add e).1)

/-- Adding entries adds no others. -/
theorem mem_entries_extend : ∀ {es : List Entry} {kb : KnowledgeBase} {x : Entry},
    x ∈ (kb.extend es).1.entries → x ∈ kb.entries ∨ x ∈ es
  | [], kb, x, h => Or.inl h
  | e :: es, kb, x, h => by
      simp only [extend] at h
      rcases mem_entries_extend h with h | h
      · rcases kb.add_entries e with hadd | hadd
        · exact Or.inl (hadd ▸ h)
        · rw [hadd] at h
          rcases List.mem_append.1 h with h | h
          · exact Or.inl h
          · exact Or.inr (List.mem_cons.2 (Or.inl (List.mem_singleton.1 h)))
      · exact Or.inr (List.mem_cons_of_mem _ h)

/-- What was given is there afterwards, or something equal to it is. -/
theorem exists_of_mem_extend {e : Entry} : ∀ {es : List Entry} {kb : KnowledgeBase}, e ∈ es →
    ∃ x ∈ (kb.extend es).1.entries, x = e ∨ x.same e = true
  | f :: es, kb, h => by
      rcases List.mem_cons.1 h with rfl | h
      · have hadd : ∃ x ∈ (kb.add e).1.entries, x = e ∨ x.same e = true := by
          cases hc : kb.contains e with
          | true =>
              obtain ⟨x, hx, hs⟩ := List.any_eq_true.1 (Bool.and_eq_true_iff.1 hc).2
              exact ⟨x, by simpa [add, hc] using hx, .inr hs⟩
          | false => exact ⟨e, by simp [add, hc, append], .inl rfl⟩
        obtain ⟨x, hx, hs⟩ := hadd
        exact ⟨x, (prefix_extend es _).subset hx, hs⟩
      · simp only [extend]
        exact exists_of_mem_extend h

/-- Nodes that count as new are appended. -/
theorem addNodes_entries : ∀ (ns : List Node) (kb : KnowledgeBase),
    (kb.addNodes ns).1.entries = kb.entries ++ (kb.addNodes ns).2.map .node
  | [], kb => (List.append_nil _).symm
  | n :: ns, kb => by
      have ih := addNodes_entries ns (kb.insert (.node n)).1
      cases hn : kb.holds (.node n) with
      | true => simpa [addNodes, insert, hn] using ih
      | false => simpa [addNodes, insert, append, hn] using ih

/-- Forward chaining appends what it derives. -/
theorem saturate_entries (bound : Nat) (kb : KnowledgeBase) :
    (kb.saturate bound).kb.entries = kb.entries ++ (kb.saturate bound).derived.map .node := by
  induction bound generalizing kb with
  | zero => exact (List.append_nil _).symm
  | succ bound ih =>
      by_cases hnew : kb.pass.2 = []
      · rw [saturate_succ_of_nil hnew bound]
        exact (List.append_nil _).symm
      · have hpass : kb.pass.1.entries = kb.entries ++ kb.pass.2.map .node :=
          addNodes_entries kb.candidates kb
        rw [saturate_succ_of_ne_nil hnew]
        simp only [ih, hpass, List.map_append, List.append_assoc]

/-- What forward chaining derives is known afterwards. -/
theorem mem_nodes_of_mem_derived {kb : KnowledgeBase} {bound : Nat} {n : Node}
    (hn : n ∈ (kb.saturate bound).derived) : n ∈ (kb.saturate bound).kb.nodes := by
  rw [nodes, saturate_entries, List.filterMap_append]
  exact List.mem_append_right _ (List.mem_filterMap.2 ⟨_, List.mem_map_of_mem hn, rfl⟩)

theorem prefix_saturate (bound : Nat) (kb : KnowledgeBase) :
    kb.entries <+: (kb.saturate bound).kb.entries :=
  kb.saturate_entries bound ▸ List.prefix_append _ _

/-- A node that is known stays known. -/
theorem mem_nodes_of_prefix {kb kb' : KnowledgeBase} (h : kb.entries <+: kb'.entries) {n : Node}
    (hn : n ∈ kb.nodes) : n ∈ kb'.nodes := by
  obtain ⟨e, he, hen⟩ := List.mem_filterMap.1 hn
  exact List.mem_filterMap.2 ⟨e, h.subset he, hen⟩

end KnowledgeBase

/-! ## Runs -/

/-- What can be asked of an engine. -/
inductive Operation where
  | add (e : Entry)
  | addAll (es : List Entry)
  | forward (bound : Nat)
  | prove (goal : Entry)

namespace Engine

/-- The engine after an operation, whether that was answered or refused. -/
def perform (g : Engine) : Operation → Engine
  | .add e => { g with kb := (g.kb.add e).1 }
  | .addAll es => { g with kb := (g.kb.extend es).1 }
  | .forward bound => (g.forward bound).1
  | .prove goal => (g.prove goal).1

/-- The engine after a sequence of operations. -/
def run (g : Engine) (ops : List Operation) : Engine :=
  ops.foldl perform g

theorem addConclusion_settings (g : Engine) (c : Conclusion) :
    (g.addConclusion c).settings = g.settings := by
  unfold addConclusion
  split
  · rfl
  · split <;> rfl

/-- Adding a conclusion appends it or changes nothing. -/
theorem addConclusion_entries (g : Engine) (c : Conclusion) :
    (g.addConclusion c).kb.entries = g.kb.entries ∨
      (g.addConclusion c).kb.entries = g.kb.entries ++ [.node c.node] := by
  unfold addConclusion
  split
  · exact g.kb.add_entries _
  · split
    · exact .inl rfl
    · exact .inr rfl

theorem prefix_addConclusion (g : Engine) (c : Conclusion) :
    g.kb.entries <+: (g.addConclusion c).kb.entries := by
  rcases g.addConclusion_entries c with h | h
  · exact h ▸ List.prefix_refl _
  · exact h ▸ List.prefix_append _ _

/-- Adding conclusions keeps the settings and what is known. -/
theorem addConclusions_spec (cs : List Conclusion) (g : Engine) :
    (cs.foldl addConclusion g).settings = g.settings ∧
      g.kb.entries <+: (cs.foldl addConclusion g).kb.entries := by
  induction cs generalizing g with
  | nil => exact ⟨rfl, List.prefix_refl _⟩
  | cons c cs ih =>
      obtain ⟨hset, hprefix⟩ := ih (g.addConclusion c)
      exact ⟨hset.trans (g.addConclusion_settings c), (g.prefix_addConclusion c).trans hprefix⟩

theorem forward_settings (g : Engine) (bound : Nat) :
    (g.forward bound).1.settings = g.settings := by
  unfold forward
  split
  · rfl
  · exact (addConclusions_spec _ g).1

/-- Forward chaining that is not refused leaves the saturated knowledge base. -/
theorem forward_of_ok {g : Engine} {bound : Nat} {s : Saturation}
    (h : (g.forward bound).2 = .ok s) : (g.forward bound).1 = { g with kb := s.kb } := by
  unfold forward at h ⊢
  split at h
  · cases h
    rfl
  · cases h

/-- Forward chaining that makes a pass and is not refused has met only keys. -/
theorem isKey_of_forward_succ {g : Engine} {bound : Nat} {s : Saturation}
    (h : (g.forward (bound + 1)).2 = .ok s) : ∀ n ∈ g.kb.nodes, n.isKey = true := by
  unfold forward at h
  split at h
  · next hnone => exact Node.findSome?_composite?_eq_none.1 hnone
  · cases h

theorem prefix_forward (g : Engine) (bound : Nat) :
    g.kb.entries <+: (g.forward bound).1.kb.entries := by
  unfold forward
  split
  · exact g.kb.prefix_saturate bound
  · exact (addConclusions_spec _ g).2

/-- A conclusion of a rule is inferred. -/
theorem infers_of_mem_conclusions {nodes : List Node} {c : Conclusion}
    (hc : c ∈ conclusions nodes) : Infers nodes c.node := by
  obtain ⟨r, hr, hc⟩ := List.mem_flatMap.1 hc
  obtain ⟨d, hd, hc⟩ := List.mem_flatMap.1 hc
  obtain ⟨θ, hθ, rfl⟩ := List.mem_map.1 hc
  exact .rule (List.fst_mem_of_mem_zipIdx hr) (List.fst_mem_of_mem_zipIdx hd) hθ

/-- Adding conclusions adds no other nodes. -/
theorem mem_nodes_addConclusions {n : Node} {cs : List Conclusion} {g : Engine}
    (h : n ∈ (cs.foldl addConclusion g).kb.nodes) :
    n ∈ g.kb.nodes ∨ ∃ c ∈ cs, n = c.node := by
  induction cs generalizing g with
  | nil => exact .inl h
  | cons c cs ih =>
      rcases ih h with hmem | ⟨d, hd, rfl⟩
      · rcases g.addConclusion_entries c with heq | heq <;>
          rw [KnowledgeBase.nodes, heq] at hmem
        · exact .inl hmem
        · rw [List.filterMap_append] at hmem
          rcases List.mem_append.1 hmem with hmem | hmem
          · exact .inl hmem
          · exact .inr ⟨c, List.mem_cons_self, List.mem_singleton.1 hmem⟩
      · exact .inr ⟨d, List.mem_cons_of_mem c hd, rfl⟩

/-- A property of nodes that one step of inference keeps holds of all that is
known after forward chaining, whether it is answered or refused, and of all
that it derives. -/
theorem forward_induct {P : Node → Prop}
    (hstep : ∀ {nodes c}, (∀ n ∈ nodes, P n) → Infers nodes c → P c) (g : Engine) (bound : Nat)
    (h : ∀ n ∈ g.kb.nodes, P n) :
    (∀ n ∈ (g.forward bound).1.kb.nodes, P n) ∧
      ∀ s, (g.forward bound).2 = .ok s → ∀ n ∈ s.derived, P n := by
  have hsat := KnowledgeBase.saturate_induct hstep bound h
  unfold forward
  split
  · exact ⟨hsat.1, fun s hs => by cases hs; exact hsat.2⟩
  · refine ⟨fun n hn => ?_, nofun⟩
    rcases mem_nodes_addConclusions hn with hn | ⟨c, hc, rfl⟩
    · exact h n hn
    · exact hstep h (infers_of_mem_conclusions hc)

/-- A question changes nothing, or it makes the engine chain forward. -/
theorem prove_engine (g : Engine) (goal : Entry) :
    (g.prove goal).1 = g ∨ (g.prove goal).1 = (g.forward g.settings.saturationPasses).1 := by
  unfold prove
  split
  · exact Or.inl rfl
  · exact Or.inl rfl
  · split
    · exact Or.inr rfl
    · exact Or.inl rfl

theorem prove_settings (g : Engine) (goal : Entry) :
    (g.prove goal).1.settings = g.settings := by
  rcases g.prove_engine goal with h | h
  · rw [h]
  · rw [h, forward_settings]

theorem prefix_prove (g : Engine) (goal : Entry) :
    g.kb.entries <+: (g.prove goal).1.kb.entries := by
  rcases g.prove_engine goal with h | h
  · simp only [h, List.prefix_refl]
  · simp only [h, g.prefix_forward]

theorem perform_settings (g : Engine) (op : Operation) :
    (g.perform op).settings = g.settings := by
  cases op with
  | add e => rfl
  | addAll es => rfl
  | forward bound => exact g.forward_settings bound
  | prove goal => exact g.prove_settings goal

/-- An operation keeps what is known, in its order. -/
theorem prefix_perform (g : Engine) (op : Operation) :
    g.kb.entries <+: (g.perform op).kb.entries := by
  cases op with
  | add e => exact g.kb.prefix_add e
  | addAll es => exact g.kb.prefix_extend es
  | forward bound => exact g.prefix_forward bound
  | prove goal => exact g.prefix_prove goal

theorem run_settings (g : Engine) (ops : List Operation) : (g.run ops).settings = g.settings := by
  induction ops generalizing g with
  | nil => rfl
  | cons op ops ih => exact (ih (g.perform op)).trans (g.perform_settings op)

/-- A run keeps what is known, in its order. -/
theorem prefix_run (g : Engine) (ops : List Operation) :
    g.kb.entries <+: (g.run ops).kb.entries := by
  induction ops generalizing g with
  | nil => exact List.prefix_refl _
  | cons op ops ih => exact (g.prefix_perform op).trans (ih (g.perform op))

/-! ## How goals are proved -/

theorem prove_of_found {g : Engine} {goal : Entry} {p : Proof}
    (h : g.backward goal = .ok (some p)) : g.prove goal = (g, .ok { goal, proof := some p }) := by
  simp only [prove, h]

/-- A search after forward chaining finds something only if forward chaining
derived something, and what it finds becomes a step of forward chaining. -/
theorem backwardAfter_eq_some {g : Engine} {s : Saturation} {goal : Entry} {p : Proof}
    (h : g.backwardAfter s goal = .ok (some p)) :
    s.derived ≠ [] ∧ ∃ q, { g with kb := s.kb }.backward goal = .ok (some q) ∧
      p = .step q.goal .forwardChaining [q] q.substitution := by
  unfold backwardAfter at h
  split at h
  · cases h
  · next hne =>
      obtain ⟨r, hr, h⟩ := bind_eq_ok_iff.1 h
      obtain ⟨q, rfl, rfl⟩ := Option.map_eq_some_iff.1 (Except.ok.inj h)
      exact ⟨fun hnil => hne (List.isEmpty_iff.2 hnil), q, hr, rfl⟩

/-- A goal is proved by a search among what is known, which then stays as it
is, or after forward chaining that derived something, by a search among what
is known then. -/
theorem prove_cases {g : Engine} {goal : Entry} {v : Verdict} {p : Proof}
    (h : (g.prove goal).2 = .ok v) (hp : v.proof = some p) :
    ((g.prove goal).1 = g ∧ g.backward goal = .ok (some p)) ∨
    ∃ q, (g.prove goal).1 = { g with kb := (g.kb.saturate g.settings.saturationPasses).kb } ∧
      (g.kb.saturate g.settings.saturationPasses).derived ≠ [] ∧
      (g.prove goal).1.backward goal = .ok (some q) ∧
      p = .step q.goal .forwardChaining [q] q.substitution := by
  rcases hb : g.backward goal with f | _ | r
  · simp only [prove, hb] at h
    cases h
  · cases hs : g.settings.proveWithSaturation with
    | false =>
        simp only [prove, hb, hs, Bool.false_eq_true, if_false] at h
        cases h
        cases hp
    | true =>
        have hprove : g.prove goal = ((g.forward g.settings.saturationPasses).1, do
            let s ← (g.forward g.settings.saturationPasses).2
            return { goal, proof := ← g.backwardAfter s goal }) := by
          simp only [prove, hb, hs, if_true]
        rw [hprove] at h ⊢
        obtain ⟨s, hfwd, h⟩ := bind_eq_ok_iff.1 h
        obtain ⟨r, hr, h⟩ := bind_eq_ok_iff.1 h
        cases h
        cases hp
        obtain ⟨hne, q, hq, rfl⟩ := backwardAfter_eq_some hr
        have hkb := forward_of_ok hfwd
        cases eq_saturate_of_forward hfwd
        exact Or.inr ⟨q, hkb, hne, hkb ▸ hq, rfl⟩
  · rw [prove_of_found hb] at h ⊢
    cases h
    cases hp
    exact Or.inl ⟨rfl, rfl⟩

end Engine

end TripleLogic
