/-
TripleLogic.Proofs.Persistence — a goal that was proved is never lost.

Nodes that are added change which fact or way is tried first, but a search
takes any way whose premise is proved, and the premise depends on the goal
and the way alone. So whether a proof is found depends on what is known and
not on its order, and what is found among some nodes is found among more of
them, also with more steps to spare (`search_isSome_mono`).

Together with the growth of what is known this says that a goal, once proved,
is proved whenever it is put again (`proves_after`), with one exception. Among
the ways that are tried in vain there may be one whose premise has a literal
with parts, which cannot be looked up on the branch. Then the question is
refused; it is never answered by a failure.
-/
import TripleLogic.Proofs.BackwardChaining
import TripleLogic.Proofs.Growth
import TripleLogic.Proofs.Simulation

namespace TripleLogic

namespace Proof

/-! ## More nodes, more proofs -/

/-- What is found among some nodes is found among more nodes and with more
steps to spare. -/
theorem search_isSome_mono {nodes nodes' : List Node} (hsub : nodes ⊆ nodes') {fuel fuel' : Nat}
    (hfuel : fuel ≤ fuel') {path hypotheses : List Node} {goal : Node}
    (h : (search nodes fuel path hypotheses goal).isSome = true) :
    (search nodes' fuel' path hypotheses goal).isSome = true :=
  (Simulates.of_subset hsub).search_isSome hfuel (Covers.of_subset (List.Subset.refl path))
    (Covers.of_subset (List.Subset.refl hypotheses)) rfl h

/-! ## Refusals -/

/-- A search for a proof of a node answers with what is found, or it is
refused because of a literal with parts in the goal or in a known node. -/
theorem findEntry?_cases (nodes : List Node) (maxDepth : Int) (goal : Node) :
    findEntry? nodes maxDepth (.node goal) = .ok (find? nodes maxDepth goal) ∨
    ((∃ n ∈ goal :: nodes, n.isKey = false) ∧
      ∃ d, findEntry? nodes maxDepth (.node goal) = .error (.misuse (.notKey d))) := by
  simp only [ findEntry?, Entry.node?]
  split
  · exact Or.inl rfl
  · next hkeys =>
      cases hobs : obstacle? nodes (maxDepth + 1).toNat [] [] goal with
      | none => exact Or.inl rfl
      | some d =>
          obtain ⟨n, hn, hkey⟩ := List.all_eq_false.1 (Bool.eq_false_iff.2 hkeys)
          exact Or.inr ⟨⟨n, hn, Bool.eq_false_iff.2 hkey⟩, d, rfl⟩

/-- A goal with a composite literal is refused before anything is tried. -/
theorem isKey_of_findEntry?_node {nodes : List Node} {maxDepth : Int} {n : Node} {p : Proof}
    (h : findEntry? nodes maxDepth (.node n) = .ok (some p)) : n.isKey = true := by
  have hfind := find?_of_findEntry? h
  cases hc : n.composite? with
  | none => simp [Node.isKey, hc]
  | some d =>
      obtain ⟨fuel, hfuel⟩ : ∃ fuel, (maxDepth + 1).toNat = fuel + 1 := by
        refine Nat.exists_eq_succ_of_ne_zero fun hzero => ?_
        rw [find?, hzero] at hfind
        cases hfind
      have hkey : n.isKey = false := by simp [Node.isKey, hc]
      have hobs : obstacle? nodes (fuel + 1) [] [] n = some d := by simp [obstacle?, hc]
      simp only [ findEntry?, Entry.node?, List.all_cons, hkey, Bool.false_and, hfuel, hobs] at h
      cases h

/-- Only a node is proved, and only one that can be used as a key. -/
theorem isKey_of_findEntry? {nodes : List Node} {maxDepth : Int} {goal : Entry} {p : Proof}
    (h : findEntry? nodes maxDepth goal = .ok (some p)) :
    ∃ n, goal = .node n ∧ n.isKey = true ∧ find? nodes maxDepth n = some p := by
  cases goal with
  | node n => exact ⟨n, rfl, isKey_of_findEntry?_node h, find?_of_findEntry? h⟩
  | labelled k n hn =>
      exact absurd (hn.symm.trans (isKey_of_findEntry?_node h)) Bool.false_ne_true
  | foreign v =>
      simp only [ findEntry?, Entry.node?] at h
      split at h
      · obtain ⟨_, -, h⟩ := bind_eq_ok_iff.1 h
        cases h
      · cases h

end Proof

namespace Engine

/-! ## Questions put again -/

/-- A goal that is put to an engine is answered by a proof. -/
def Proves (g : Engine) (goal : Entry) : Prop :=
  ∃ v, (g.prove goal).2 = .ok v ∧ v.proof.isSome = true

instance (g : Engine) (goal : Entry) : Decidable (g.Proves goal) :=
  match h : (g.prove goal).2 with
  | .ok v => decidable_of_iff (v.proof.isSome = true)
      ⟨fun hp => ⟨v, h, hp⟩, fun ⟨_, hw, hp⟩ => by cases h.symm.trans hw; exact hp⟩
  | .error _ => .isFalse fun ⟨_, hw, _⟩ => by cases h.symm.trans hw

/-- What a search finds is found when more is known, unless the search is
refused because of a literal with parts. -/
theorem backward_mono {g g' : Engine} (hsub : g.kb.nodes ⊆ g'.kb.nodes)
    (hset : g'.settings = g.settings) {goal : Entry} {p : Proof}
    (h : g.backward goal = .ok (some p)) :
    (∃ q, g'.backward goal = .ok (some q)) ∨
    ((∃ n ∈ g'.kb.nodes, n.isKey = false) ∧
      ∃ d, g'.backward goal = .error (.misuse (.notKey d))) := by
  obtain ⟨n, rfl, hkey, hfind⟩ := Proof.isKey_of_findEntry? h
  have hsome := Proof.search_isSome_mono hsub (Nat.le_refl _)
    (Option.isSome_iff_exists.2 ⟨p, hfind⟩)
  obtain ⟨q, hq⟩ := Option.isSome_iff_exists.1 hsome
  rw [← hset] at hq
  rcases Proof.findEntry?_cases g'.kb.nodes g'.settings.maxProofDepth n with
    hok | ⟨⟨m, hm, hmk⟩, d, hd⟩
  · exact Or.inl ⟨q, hok.trans (congrArg Except.ok hq)⟩
  · refine Or.inr ⟨⟨m, ?_, hmk⟩, d, hd⟩
    rcases List.mem_cons.1 hm with rfl | hm
    · cases hkey.symm.trans hmk
    · exact hm

/-- Where a goal was proved, a search among what is known afterwards finds a
proof of it. -/
theorem backward_of_proves {g : Engine} {goal : Entry} (h : g.Proves goal) :
    ∃ p, (g.prove goal).1.backward goal = .ok (some p) := by
  obtain ⟨v, hv, hp⟩ := h
  obtain ⟨p, hp⟩ := Option.isSome_iff_exists.1 hp
  rcases prove_cases hv hp with ⟨hg, hb⟩ | ⟨q, -, -, hb, -⟩
  · rw [hg]
    exact ⟨p, hb⟩
  · exact ⟨q, hb⟩

/-- **Once proved, always proved.** A goal that was put and proved at some
point of a run is proved when it is put again later, or else some known node
has a literal with parts and the question is refused on account of such a
literal. -/
theorem proves_after (g : Engine) (before between : List Operation) (goal : Entry)
    (h : (g.run before).Proves goal) :
    (g.run (before ++ .prove goal :: between)).Proves goal ∨
    ((∃ n ∈ (g.run (before ++ .prove goal :: between)).kb.nodes, n.isKey = false) ∧
      ∃ d, ((g.run (before ++ .prove goal :: between)).prove goal).2
        = .error (.misuse (.notKey d))) := by
  have hrun : g.run (before ++ .prove goal :: between)
      = ((g.run before).prove goal).1.run between := by
    simp only [run, List.foldl_append, List.foldl_cons, perform]
  rw [hrun]
  obtain ⟨p, hp⟩ := backward_of_proves h
  generalize ((g.run before).prove goal).1 = g' at hp
  have hsub : g'.kb.nodes ⊆ (g'.run between).kb.nodes := fun n hn =>
    KnowledgeBase.mem_nodes_of_prefix (g'.prefix_run between) hn
  rcases backward_mono hsub (g'.run_settings between) hp with ⟨q, hq⟩ | ⟨hkey, d, hd⟩
  · refine Or.inl ⟨{ goal, proof := some q }, ?_, rfl⟩
    rw [prove_of_found hq]
  · refine Or.inr ⟨hkey, d, ?_⟩
    simp only [prove, hd]

/-- Rain makes the street wet, and the street is not wet. -/
def drySpell : Engine :=
  .ofEntries [
    .node (Node.implies (.assertion "sky" "is" "raining") (.assertion "street" "is" "wet")),
    .node (Node.negate (.assertion "street" "is" "wet"))] {}

/-- It does not rain. -/
def noRain : Entry := .node (Node.negate (.assertion "sky" "is" "raining"))

/-- A cloudy sky becomes known, and forward chaining is called for. -/
def clouds : List Operation := [.add (.node (.assertion "sky" "is" "cloudy")), .forward 3]

/-- That it does not rain is found by forward chaining only. It is proved
again after a further fact and more forward chaining. -/
theorem drySpell_proves_after :
    drySpell.Proves noRain ∧ (drySpell.run (.prove noRain :: clouds)).Proves noRain := by
  have hfirst : (drySpell.run []).Proves noRain := by decide +kernel
  refine ⟨hfirst, ?_⟩
  rcases drySpell.proves_after [] clouds noRain hfirst with h | ⟨⟨n, hn, hk⟩, -⟩
  · exact h
  · have hkeys : ∀ n ∈ (drySpell.run (.prove noRain :: clouds)).kb.nodes, n.isKey = true := by
      decide +kernel
    cases (hkeys n hn).symm.trans hk

/-- A street that gets wet by a sprinkler, or else by the rain that falls. -/
def street : Engine :=
  .ofEntries [
    .node (Node.implies (.assertion "sprinkler" "is" "on") (.assertion "street" "is" "wet")),
    .node (Node.implies (.assertion "sky" "is" "raining") (.assertion "street" "is" "wet")),
    .node (.assertion "sky" "is" "raining")] {}

/-- A timer that shows a list of numbers turns the sprinkler on. -/
def timer : Node :=
  Node.implies
    (.intent { kind := "!Assert", statements :=
      [{ subject := .concept "timer", relation := { name := "shows" }
         object := .composite (.list [.int 6, .int 30]) }] })
    (.assertion "sprinkler" "is" "on")

/-- The street is proved wet. Once the timer is known, the question is
refused: the sprinkler is tried first, and the premise that turns it on
cannot be looked up. -/
theorem street_refused :
    street.Proves (.node (.assertion "street" "is" "wet")) ∧
    ¬ (street.run [.prove (.node (.assertion "street" "is" "wet")), .add (.node timer)]).Proves
      (.node (.assertion "street" "is" "wet")) := by
  decide +kernel

end Engine

end TripleLogic
