/-
TripleLogic.Proofs.Passes — forward chaining, pass by pass.

A run makes one pass after the other until a pass adds nothing or the bound is
reached. `added` lists what each of a number of passes adds. A run that was cut
by its bound has made as many passes as the bound allows, and its list has no
empty entry (`saturate_of_cut`); a run that was not has ended where a pass adds
nothing (`pass_of_fixpoint`).

Main statements: a run tells exactly whether the bound has cut it
(`forward_exact`), and it can be cut anywhere and resumed: two runs, one after
the other, are one run by both bounds together (`forward_resumes`).
-/
import TripleLogic.Bound
import TripleLogic.Proofs.Closure

namespace TripleLogic

namespace KnowledgeBase

/-! ## What the passes add -/

/-- What each of a number of passes adds. -/
def added (kb : KnowledgeBase) : Nat → List (List Node)
  | 0 => []
  | k + 1 => kb.pass.2 :: kb.pass.1.added k

/-- Passes that all add something add at least one node each. -/
theorem le_length_flatten_added (k : Nat) : ∀ {kb : KnowledgeBase},
    (∀ new ∈ kb.added k, new ≠ []) → k ≤ (kb.added k).flatten.length := by
  induction k with
  | zero => exact fun _ => Nat.zero_le _
  | succ k ih =>
      intro kb h
      obtain ⟨hnew, hrest⟩ := List.forall_mem_cons.1 h
      have hpos := List.length_pos_iff.2 hnew
      have hle := ih hrest
      simp only [added, List.flatten_cons, List.length_append]
      omega

/-- A run that was cut by its bound has made all passes that the bound allows,
and each of them has added something. -/
theorem saturate_of_cut (bound : Nat) : ∀ {kb : KnowledgeBase},
    (kb.saturate bound).fixpoint = false →
      (kb.saturate bound).passes = bound ∧
      (kb.saturate bound).derived = (kb.added bound).flatten ∧
      ∀ new ∈ kb.added bound, new ≠ [] := by
  induction bound with
  | zero => exact fun _ => ⟨rfl, rfl, nofun⟩
  | succ bound ih =>
      intro kb h
      by_cases hnew : kb.pass.2 = []
      · rw [saturate_succ_of_nil hnew] at h
        cases h
      · rw [saturate_succ_of_ne_nil hnew] at h ⊢
        obtain ⟨hpasses, hderived, hadded⟩ := ih h
        exact ⟨congrArg (· + 1) hpasses, congrArg (kb.pass.2 ++ ·) hderived,
          List.forall_mem_cons.2 ⟨hnew, hadded⟩⟩

end KnowledgeBase

namespace Engine

/-- **The report on a fixpoint is exact.** If a run reports one, then whatever
a pattern of inference gives from the nodes that are known is found among them,
and any further run that may make a pass makes a single one, derives nothing
and changes nothing. If it does not, then it has made as many passes as its
bound allows, none for a bound below zero, and each of them has added
something. -/
theorem forward_exact (g g' : Engine) (bound : Int) (s : Saturation)
    (h : g.forward (Number.int bound).passes = (g', .ok s)) :
    (s.fixpoint = true →
      (∀ p : Pattern, ∀ c ∈ p.candidates g'.kb.nodes, g'.kb.contains (.node c) = true) ∧
      ∀ n : Int, 1 ≤ n → g'.forward (Number.int n).passes =
        (g', .ok { kb := g'.kb, derived := [], passes := 1, fixpoint := true })) ∧
    (s.fixpoint = false →
      (s.passes : Int) = max bound 0 ∧
      s.derived = (g.kb.added s.passes).flatten ∧
      (∀ new ∈ g.kb.added s.passes, new ≠ []) ∧
      s.passes ≤ s.derived.length) := by
  have hrun : (g.forward (Number.int bound).passes).2 = .ok s := congrArg Prod.snd h
  obtain rfl : g' = { g with kb := s.kb } := by rw [← forward_of_ok hrun, h]
  obtain rfl := eq_saturate_of_forward hrun
  refine ⟨fun hfix => ?_, fun hcut => ?_⟩
  · have hkeys := KnowledgeBase.saturate_isKey (isKey_of_forward hrun hfix)
      (Number.int bound).passes
    have hpass := KnowledgeBase.pass_of_fixpoint _ hfix
    refine ⟨fun p c hc => ?_, fun n hn => ?_⟩
    · have hcand : c ∈ (g.kb.saturate (Number.int bound).passes).kb.candidates :=
        KnowledgeBase.mem_candidates_iff.2 (infers_iff_pattern.2 ⟨p, hc⟩)
      exact Bool.and_eq_true_iff.2
        ⟨KnowledgeBase.isKey_of_mem_candidates hkeys hcand, KnowledgeBase.holds_of_pass hpass hcand⟩
    · obtain ⟨k, hk⟩ : ∃ k, (Number.int n).passes = k + 1 :=
        ⟨n.toNat - 1, by simp only [Number.passes]; omega⟩
      rw [hk, forward_eq_saturate hkeys, KnowledgeBase.saturate_succ_of_nil hpass]
  · obtain ⟨hpasses, hderived, hadded⟩ := KnowledgeBase.saturate_of_cut _ hcut
    rw [hpasses]
    refine ⟨?_, hderived, hadded, ?_⟩
    · simp only [Number.passes]
      omega
    · rw [hderived]
      exact KnowledgeBase.le_length_flatten_added _ hadded

/-- In two passes over the family all three nodes are derived, and the bound of
two cuts the run. With a bound of five the third pass finds that nothing is
missing. -/
theorem family_forward_exact :
    (∃ g s, family.forward (Number.int 2).passes = (g, .ok s) ∧ s.fixpoint = false ∧
      s.passes = 2 ∧ (∀ new ∈ family.kb.added s.passes, new ≠ []) ∧ s.derived.length = 3) ∧
    ∃ g s, family.forward (Number.int 5).passes = (g, .ok s) ∧ s.fixpoint = true ∧
      s.passes = 3 ∧ g.forward (Number.int 1).passes =
        (g, .ok { kb := g.kb, derived := [], passes := 1, fixpoint := true }) := by
  refine ⟨⟨_, family.kb.saturate 2, rfl, by decide +kernel, by decide +kernel, ?_,
    by decide +kernel⟩, ⟨_, family.kb.saturate 5, rfl, by decide +kernel, by decide +kernel, ?_⟩⟩
  · exact ((forward_exact family _ 2 _ rfl).2 (by decide +kernel)).2.2.1
  · exact ((forward_exact family _ 5 _ rfl).1 (by decide +kernel)).2 1 (Int.le_refl 1)

end Engine

/-! ## Runs one after the other -/

/-- The outcome of two runs, the second of which starts where the first ends,
counted as one. What a run does after a fixpoint does not count. -/
def Saturation.followedBy (s s' : Saturation) : Saturation where
  kb := s'.kb
  derived := s.derived ++ s'.derived
  passes := if s.fixpoint then s.passes else s.passes + s'.passes
  fixpoint := s.fixpoint || s'.fixpoint

/-- A run can be cut anywhere. -/
theorem KnowledgeBase.saturate_add (m n : Nat) : ∀ kb : KnowledgeBase,
    kb.saturate (m + n) = (kb.saturate m).followedBy ((kb.saturate m).kb.saturate n) := by
  induction m with
  | zero =>
      intro kb
      simp [saturate, Saturation.followedBy]
  | succ m ih =>
      intro kb
      rw [Nat.add_right_comm]
      by_cases hnew : kb.pass.2 = []
      · -- The first part ends at a fixpoint, where a second one derives nothing.
        rw [saturate_succ_of_nil hnew, saturate_succ_of_nil hnew]
        cases n with
        | zero => rfl
        | succ n => rw [saturate_succ_of_nil hnew]; rfl
      · rw [saturate_succ_of_ne_nil hnew, saturate_succ_of_ne_nil hnew, ih]
        cases hfix : (kb.pass.1.saturate m).fixpoint with
        | true => simp [Saturation.followedBy, hfix]
        | false => simp [Saturation.followedBy, hfix, Nat.add_right_comm]

namespace Engine

/-- Forward chaining twice, by one bound and then by another. If the first run
is refused, there is no second one. -/
def forwardTwice (g : Engine) (m n : Nat) : Engine × Except Fault Saturation :=
  match g.forward m with
  | (g', .error f) => (g', .error f)
  | (g', .ok s) => ((g'.forward n).1, (g'.forward n).2.map s.followedBy)

/-- **Forward chaining can be resumed.** A run by the sum of two bounds is a run
by the one and then a run by the other: it leaves the same engine, with the same
entries in the same order, and derives the nodes of both in order. The passes
of both count, unless the first part has reached a fixpoint. It is refused if
and only if one of the two is, and then in the same way. -/
theorem forward_resumes (g : Engine) (m n : Nat) :
    g.forward (m + n) = g.forwardTwice m n := by
  cases m with
  | zero =>
      have hfirst : g.forward 0 = (g, .ok (g.kb.saturate 0)) := rfl
      have hnothing : (g.kb.saturate 0).followedBy = id :=
        funext fun s => by simp [KnowledgeBase.saturate, Saturation.followedBy]
      simp only [forwardTwice, hfirst, hnothing, Nat.zero_add]
      cases g.forward n with
      | mk g' r => cases r <;> rfl
  | succ m =>
      cases hkeys : g.kb.nodes.findSome? Node.composite? with
      | some d =>
          have hrefused : ∀ k, g.forward (k + 1) =
              ((conclusions g.kb.nodes).foldl addConclusion g, .error (.misuse (.notKey d))) :=
            fun k => by simp [forward, hkeys]
          rw [forwardTwice, hrefused, Nat.add_right_comm, hrefused]
      | none =>
          have hk := Node.findSome?_composite?_eq_none.1 hkeys
          have hk' := KnowledgeBase.saturate_isKey hk (m + 1)
          rw [forwardTwice, forward_eq_saturate hk, forward_eq_saturate hk,
            KnowledgeBase.saturate_add]
          simp only [forward_eq_saturate (g := { g with kb := (g.kb.saturate (m + 1)).kb }) hk']
          rfl

end Engine

end TripleLogic
