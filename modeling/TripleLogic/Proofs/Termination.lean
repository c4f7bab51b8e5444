/-
TripleLogic.Proofs.Termination — forward chaining comes to an end by itself.

All that forward chaining derives lies in the finite universe of the nodes
that it starts with. A pass that adds something lowers the number of nodes of
the universe that are missing from the knowledge base (`missing_pass_lt`), so
some pass adds nothing. From then on the bound on the number of passes plays
no part (`exists_saturate`).

Main statement: forward chaining over keys reaches a fixpoint from some bound
on, always the same; where a node is no key it is refused
(`forward_terminates`).
-/
import TripleLogic.Engine
import TripleLogic.Proofs.Universe

namespace TripleLogic

namespace KnowledgeBase

/-! ## What a pass adds -/

theorem holds_append (kb : KnowledgeBase) (e f : Entry) :
    (kb.append e).holds f = (kb.holds f || e.same f) := by
  simp [holds, append]

theorem holds_insert {kb : KnowledgeBase} {f : Entry} (h : kb.holds f = true) (e : Entry) :
    (kb.insert e).1.holds f = true := by
  unfold insert
  split
  · exact h
  · simp [holds_append, h]

/-- What is held stays held. -/
theorem holds_addNodes : ∀ {kb : KnowledgeBase} {f : Entry} (ns : List Node),
    kb.holds f = true → (kb.addNodes ns).1.holds f = true
  | _, _, [], h => h
  | _, _, n :: ns, h => holds_addNodes ns (holds_insert h (.node n))

/-- A node that counts as new was not held before, and is held afterwards. -/
theorem holds_of_mem_addNodes : ∀ {kb : KnowledgeBase} {ns : List Node} {m : Node},
    m ∈ (kb.addNodes ns).2 →
      kb.holds (.node m) = false ∧ (kb.addNodes ns).1.holds (.node m) = true
  | kb, n :: ns, m, h => by
      cases hn : kb.holds (.node n) with
      | true =>
          simp only [addNodes, insert, hn, if_true] at h ⊢
          exact holds_of_mem_addNodes h
      | false =>
          simp only [addNodes, insert, hn, if_true, Bool.false_eq_true, if_false] at h ⊢
          have hheld : (kb.append (.node n)).holds (.node n) = true := by
            simp [holds_append, Entry.same, (Node.same_iff n n).2 rfl]
          rcases List.mem_cons.1 h with rfl | h
          · exact ⟨hn, holds_addNodes ns hheld⟩
          -- What is new after `n` was added was new before.
          · obtain ⟨hold, hnew⟩ := holds_of_mem_addNodes h
            rw [holds_append, Bool.or_eq_false_iff] at hold
            exact ⟨hold.1, hnew⟩

/-! ## What is missing -/

/-- The number of nodes of a list that are not held. -/
def missing (ns : List Node) (kb : KnowledgeBase) : Nat :=
  ns.countP fun n => !kb.holds (.node n)

theorem missing_le {kb kb' : KnowledgeBase}
    (h : ∀ e, kb.holds e = true → kb'.holds e = true) (ns : List Node) :
    missing ns kb' ≤ missing ns kb := by
  refine List.countP_mono_left fun n _ hn => ?_
  cases hh : kb.holds (.node n) with
  | false => rfl
  | true => simp [h _ hh] at hn

/-- Holding a further node of a list lowers the number of those missing. -/
theorem missing_lt {kb kb' : KnowledgeBase}
    (h : ∀ e, kb.holds e = true → kb'.holds e = true) {ns : List Node} {n : Node} (hn : n ∈ ns)
    (hold : kb.holds (.node n) = false) (hnew : kb'.holds (.node n) = true) :
    missing ns kb' < missing ns kb := by
  obtain ⟨l, r, rfl⟩ := List.append_of_mem hn
  have hl := missing_le h l
  have hr := missing_le h r
  unfold missing at hl hr ⊢
  simp only [List.countP_append, List.countP_cons, hold, hnew, Bool.not_true, Bool.not_false,
    Bool.false_eq_true, if_true, if_false]
  omega

/-- A pass that adds something lowers the number of nodes of a universe that
are missing. -/
theorem missing_pass_lt {U : Universe} {kb : KnowledgeBase} (hU : ∀ n ∈ kb.nodes, U.Mem n)
    (h : kb.pass.2 ≠ []) : missing U.all kb.pass.1 < missing U.all kb := by
  obtain ⟨n, hn⟩ := List.exists_mem_of_ne_nil _ h
  obtain ⟨hold, hnew⟩ := holds_of_mem_addNodes hn
  have hmem : U.Mem n := (mem_candidates_iff.1 (mem_of_mem_addNodes hn)).universe hU
  exact missing_lt (fun e he => holds_addNodes _ he) (Universe.mem_all hmem) hold hnew

/-! ## The end -/

/-- A pass stays in a universe. -/
theorem pass_universe {U : Universe} {kb : KnowledgeBase} (hU : ∀ n ∈ kb.nodes, U.Mem n) :
    ∀ n ∈ kb.pass.1.nodes, U.Mem n := by
  intro n hn
  rcases mem_nodes_addNodes hn with hn | hn
  · exact hU n hn
  · exact (mem_candidates_iff.1 hn).universe hU

/-- From some bound on, forward chaining reaches a fixpoint, and always the
same one after the same number of passes. -/
theorem exists_saturate {U : Universe} {kb : KnowledgeBase} (hU : ∀ n ∈ kb.nodes, U.Mem n) :
    ∃ (least : Nat) (s : Saturation), s.fixpoint = true ∧
      ∀ bound, least ≤ bound → kb.saturate bound = s := by
  induction hk : missing U.all kb using Nat.strongRecOn generalizing kb with
  | ind k ih =>
      by_cases hnew : kb.pass.2 = []
      · refine ⟨1, { kb, derived := [], passes := 1, fixpoint := true }, rfl, ?_⟩
        intro bound hb
        obtain ⟨b, rfl⟩ := Nat.exists_eq_add_of_le' hb
        exact saturate_succ_of_nil hnew b
      · -- One pass, and then what the induction gives for fewer missing nodes.
        obtain ⟨least, s, hs, hrest⟩ := ih (missing U.all kb.pass.1)
          (hk ▸ missing_pass_lt hU hnew) (pass_universe hU) rfl
        refine ⟨least + 1, { s with derived := kb.pass.2 ++ s.derived, passes := s.passes + 1 },
          hs, ?_⟩
        intro bound hb
        obtain ⟨b, rfl⟩ := Nat.exists_eq_add_of_le' (Nat.le_of_add_left_le hb)
        rw [saturate_succ_of_ne_nil hnew, hrest b (by omega)]

end KnowledgeBase

namespace Engine

/-- A run over keys is saturation. -/
theorem forward_eq_saturate {g : Engine} (h : ∀ n ∈ g.kb.nodes, n.isKey = true) (bound : Nat) :
    g.forward bound = ({ g with kb := (g.kb.saturate bound).kb }, .ok (g.kb.saturate bound)) := by
  simp [forward, Node.findSome?_composite?_eq_none.2 h]

/-- A run that may make a pass is refused where a node is no key. -/
theorem forward_of_not_isKey {g : Engine} (h : ∃ n ∈ g.kb.nodes, n.isKey = false) {bound : Nat}
    (hbound : 1 ≤ bound) : ∃ d, (g.forward bound).2 = .error (.misuse (.notKey d)) := by
  have hne : bound ≠ 0 := Nat.ne_of_gt hbound
  cases hfind : g.kb.nodes.findSome? Node.composite? with
  | none =>
      obtain ⟨n, hn, hkey⟩ := h
      cases hkey.symm.trans (Node.findSome?_composite?_eq_none.1 hfind n hn)
  | some d => exact ⟨d, by simp [forward, hne, hfind]⟩

/-- **Forward chaining terminates.** Over keys it reaches a fixpoint from some
bound on, and leaves one engine with one number of passes for all such bounds.
Where a node is no key, every run that may make a pass is refused. -/
theorem forward_terminates (g : Engine) :
    ((∀ n ∈ g.kb.nodes, n.isKey = true) →
      ∃ (least : Nat) (s : Saturation), s.fixpoint = true ∧
        ∀ bound, least ≤ bound → g.forward bound = ({ g with kb := s.kb }, .ok s)) ∧
      ((∃ n ∈ g.kb.nodes, n.isKey = false) →
        ∀ bound, 1 ≤ bound → ∃ d, (g.forward bound).2 = .error (.misuse (.notKey d))) := by
  refine ⟨fun hkeys => ?_, fun hno bound => forward_of_not_isKey hno⟩
  obtain ⟨least, s, hs, hsat⟩ := KnowledgeBase.exists_saturate
    fun n (hn : n ∈ g.kb.nodes) => Universe.mem_ofNodes hn
  refine ⟨least, s, hs, fun bound hb => ?_⟩
  rw [forward_eq_saturate hkeys, hsat bound hb]

/-- A claim, and that it implies itself. -/
def echo : Engine :=
  let claim : Node := .intent { kind := "!Assert", statements :=
    [{ subject := .concept "echo", relation := { name := "says" }, object := .concept "echo" }] }
  .ofEntries [.node claim, .node (claim.implies claim)] {}

/-- A sundial that shows a list of numbers. -/
def sundial : Engine :=
  .ofEntries [.node (.intent { kind := "!Assert", statements :=
    [{ subject := .concept "sundial", relation := { name := "shows" }
       object := .composite (.list [.int 6, .int 30]) }] })] {}

/-- The echo comes to an end, and what the sundial shows is refused. -/
theorem echo_terminates :
    (∀ n ∈ echo.kb.nodes, n.isKey = true) ∧
      (∃ (least : Nat) (s : Saturation), s.fixpoint = true ∧
        ∀ bound, least ≤ bound → echo.forward bound = ({ echo with kb := s.kb }, .ok s)) ∧
      (∃ n ∈ sundial.kb.nodes, n.isKey = false) ∧
        ∃ d, (sundial.forward 1).2 = .error (.misuse (.notKey d)) := by
  have hkeys : ∀ n ∈ echo.kb.nodes, n.isKey = true := by decide +kernel
  have hno : ∃ n ∈ sundial.kb.nodes, n.isKey = false := by decide +kernel
  exact ⟨hkeys, (forward_terminates echo).1 hkeys, hno,
    (forward_terminates sundial).2 hno 1 (Nat.le_refl 1)⟩

/-- No bound is large enough for what the sundial shows. -/
theorem sundial_refused :
    ¬ ∃ least, ∀ bound, least ≤ bound →
      ∃ s, (sundial.forward bound).2 = .ok s ∧ s.fixpoint = true := by
  rintro ⟨least, h⟩
  obtain ⟨s, hs, -⟩ := h (least + 1) (Nat.le_succ least)
  have hno : ∃ n ∈ sundial.kb.nodes, n.isKey = false := by decide +kernel
  obtain ⟨d, hd⟩ := forward_of_not_isKey hno (Nat.le_add_left 1 least)
  cases hs.symm.trans hd

end Engine

end TripleLogic
