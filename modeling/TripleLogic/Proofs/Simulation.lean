/-
TripleLogic.Proofs.Simulation — one search for proofs follows another.

A search takes the first fact and the first way that work, so the proof that
it finds depends on the order of the nodes. Whether it finds one does not: a
way is taken only if its premise is proved, and the premise depends on the
goal and the way alone. So a search that has, for every goal and way of
another one, a goal and a way that can stand for them finds a proof whenever
the other one does (`Simulates.search_isSome`).

There are two instances. Among more nodes each goal stands for itself
(`Simulates.of_subset`). Among nodes that are equal to the given ones, goals
are equal as well, if no literal has parts (`Simulates.of_covers`): a name is
replaced by the text of a value, and equal lists may have different texts.
-/
import TripleLogic.Proofs.Search
import TripleLogic.Proofs.SinglePremise

namespace TripleLogic.Proof

/-- A search succeeds if its goal is not on the branch and one of the ways of
finding a proof leads to one. -/
theorem search_isSome_of_found {nodes path hypotheses : List Node} {fuel : Nat} {goal : Node}
    {p : Proof} (hpath : Pattern.holds path goal = false)
    (h : Found nodes hypotheses goal (search nodes fuel (goal :: path)) p) :
    (search nodes (fuel + 1) path hypotheses goal).isSome = true := by
  have hor : search nodes (fuel + 1) path hypotheses goal
      = (asFact? (hypotheses ++ nodes) goal).or
        (((ways nodes).findSome? (tryWay (search nodes fuel (goal :: path) hypotheses) goal)).or
          (tryForm (search nodes fuel (goal :: path)) hypotheses goal)) := by
    simp [search, hpath]
  rw [hor, Option.isSome_or, Option.isSome_or, Bool.or_eq_true, Bool.or_eq_true]
  cases h with
  | @fact k θ hk hθ =>
      refine Or.inl (List.findSome?_isSome_iff.2 ⟨k, hk, ?_⟩)
      simp [Node.unify, hθ]
  | @way w θ q hw hθ hq =>
      refine Or.inr (Or.inl (List.findSome?_isSome_iff.2 ⟨w, hw, ?_⟩))
      simp [tryWay, hθ, hq]
  | @conjunction a b q r hg hq hr =>
      subst hg
      have hform : tryForm (search nodes fuel (a.conjoin b :: path)) hypotheses (a.conjoin b)
          = some (.step (a.conjoin b) .conjunctionIntroduction [q, r] []) :=
        Option.bind_eq_some_iff.2 ⟨q, hq, Option.bind_eq_some_iff.2 ⟨r, hr, rfl⟩⟩
      exact Or.inr (Or.inr (Option.isSome_iff_exists.2 ⟨_, hform⟩))
  | @implication a b q hg hq =>
      subst hg
      have hform : tryForm (search nodes fuel (a.implies b :: path)) hypotheses (a.implies b)
          = some (.step (a.implies b) .implicationIntroduction [q] []) :=
        Option.bind_eq_some_iff.2 ⟨q, hq, rfl⟩
      exact Or.inr (Or.inr (Option.isSome_iff_exists.2 ⟨_, hform⟩))

/-! ## Goals that stand for others -/

/-- Goals of a search among `nodes'` stand for goals of a search among
`nodes`: they are equal to them, and where a way leads on from the one, a way
leads on from the other. -/
structure Simulates (nodes nodes' : List Node) (R : Node → Node → Prop) : Prop where
  covers : Covers nodes' nodes
  canon : ∀ g g', R g g' → g'.canon = g.canon
  operands : ∀ o a b g', R (.compound o (some a) (some b)) g' →
    ∃ a' b', g' = .compound o (some a') (some b') ∧ R a a' ∧ R b b'
  way : ∀ g g' w θ, R g g' → w ∈ ways nodes → w.conclusion.unifyWith g [] = some θ →
    ∃ w' ∈ ways nodes', ∃ θ', w'.conclusion.unifyWith g' [] = some θ' ∧
      R (w.premise.subst θ) (w'.premise.subst θ')

/-- A branch that holds a goal holds those equal to it. -/
theorem holds_of_covers {path path' : List Node} (h : Covers path path') {g g' : Node}
    (hg : g'.canon = g.canon) (hpath : Pattern.holds path g = false) :
    Pattern.holds path' g' = false := by
  refine Bool.eq_false_iff.2 fun hheld => ?_
  obtain ⟨m', hm', hs⟩ := Pattern.holds_iff.1 hheld
  obtain ⟨m, hm, hc⟩ := h m' hm'
  have hsame : m.same g = true := by
    rw [Node.same_iff, hc, (Node.same_iff m' g').1 hs, hg]
  exact Bool.eq_false_iff.1 hpath (Pattern.holds_iff.2 ⟨m, hm, hsame⟩)

namespace Simulates

variable {nodes nodes' : List Node} {R : Node → Node → Prop}

/-- **A search finds a proof when one that it follows does.** It may have more
steps to spare, fewer goals on the branch, and more hypotheses. -/
theorem search_isSome (h : Simulates nodes nodes' R) {fuel fuel' : Nat} (hfuel : fuel ≤ fuel')
    {path path' hypotheses hypotheses' : List Node} (hpath : Covers path path')
    (hhyps : Covers hypotheses' hypotheses) {g g' : Node} (hg : R g g')
    (hs : (search nodes fuel path hypotheses g).isSome = true) :
    (search nodes' fuel' path' hypotheses' g').isSome = true := by
  induction fuel generalizing fuel' path path' hypotheses hypotheses' g g' with
  | zero => cases hs
  | succ fuel ih =>
      obtain ⟨fuel', rfl⟩ := Nat.exists_eq_add_of_le' (Nat.le_of_add_left_le hfuel)
      have hle : fuel ≤ fuel' := Nat.le_of_succ_le_succ hfuel
      have hcanon := h.canon g g' hg
      have hbranch : Covers (g :: path) (g' :: path') :=
        (Covers.singleton hcanon.symm).append hpath
      -- What the recursive calls find is found by those of the other search.
      have hrec : ∀ {hs hs' : List Node}, Covers hs' hs → ∀ {a a' : Node}, R a a' →
          ∀ {q : Proof}, search nodes fuel (g :: path) hs a = some q →
            ∃ q', search nodes' fuel' (g' :: path') hs' a' = some q' := by
        intro hs hs' hcov a a' ha q hq
        exact Option.isSome_iff_exists.1
          (ih hle hbranch hcov ha (Option.isSome_iff_exists.2 ⟨q, hq⟩))
      obtain ⟨p, hp⟩ := Option.isSome_iff_exists.1 hs
      obtain ⟨hoff, hfound⟩ := search_found hp
      have hoff' := holds_of_covers hpath hcanon hoff
      cases hfound with
      | @fact k θ hk hθ =>
          obtain ⟨k', hk', hkc⟩ := hhyps.append h.covers k hk
          obtain ⟨θ', hθ', -⟩ := Node.unifyWith_of_canon hcanon hkc hθ
          exact search_isSome_of_found hoff' (.fact hk' hθ')
      | way hw hθ hq =>
          obtain ⟨w', hw', θ', hθ', hpremise⟩ := h.way _ _ _ _ hg hw hθ
          obtain ⟨q', hq'⟩ := hrec hhyps hpremise hq
          exact search_isSome_of_found hoff' (.way hw' hθ' hq')
      | @conjunction a b q r hgoal hq hr =>
          subst hgoal
          obtain ⟨a', b', rfl, ha, hb⟩ := h.operands _ _ _ _ hg
          obtain ⟨q', hq'⟩ := hrec hhyps ha hq
          obtain ⟨r', hr'⟩ := hrec hhyps hb hr
          exact search_isSome_of_found hoff' (.conjunction rfl hq' hr')
      | @implication a b q hgoal hq =>
          subst hgoal
          obtain ⟨a', b', rfl, ha, hb⟩ := h.operands _ _ _ _ hg
          have hcov := hhyps.append (Covers.singleton (h.canon a a' ha))
          obtain ⟨q', hq'⟩ := hrec hcov hb hq
          exact search_isSome_of_found hoff' (.implication rfl hq')

end Simulates

/-! ## Ways among more nodes -/

/-- A way leads between children of a known node. -/
theorem mem_children_of_mem_ways {nodes : List Node} {w : Way} (hw : w ∈ ways nodes) :
    ∃ n ∈ nodes, w.premise ∈ n.children ∧ w.conclusion ∈ n.children := by
  obtain ⟨n, hn, hw⟩ := List.mem_flatMap.1 hw
  refine ⟨n, hn, ?_⟩
  rcases waysOf_cases hw with ⟨rfl, -⟩ | ⟨hd, -⟩
  · simp [Node.children, Node.implies]
  · exact Pattern.mem_children_of_mem_directions hd

theorem ways_subset {nodes nodes' : List Node} (hsub : nodes ⊆ nodes') :
    ways nodes ⊆ ways nodes' := by
  intro w hw
  obtain ⟨n, hn, hw⟩ := List.mem_flatMap.1 hw
  exact List.mem_flatMap.2 ⟨n, hsub hn, hw⟩

/-- Among more nodes each goal stands for itself. -/
theorem Simulates.of_subset {nodes nodes' : List Node} (hsub : nodes ⊆ nodes') :
    Simulates nodes nodes' Eq where
  covers := Covers.of_subset hsub
  canon := by
    rintro g _ rfl
    rfl
  operands := by
    rintro o a b _ rfl
    exact ⟨a, b, rfl, rfl, rfl⟩
  way := by
    rintro g _ w θ rfl hw hθ
    exact ⟨w, ways_subset hsub hw, θ, hθ, rfl⟩

/-! ## Equal nodes -/

/-- A way that can be followed without a fault: neither its premise nor its
conclusion has a literal with parts. -/
def Way.IsKeyed (w : Way) : Prop :=
  w.premise.isKey = true ∧ w.conclusion.isKey = true

instance (w : Way) : Decidable w.IsKeyed :=
  inferInstanceAs (Decidable (_ ∧ _))

/-- Equal nodes offer equal ways. -/
theorem way_of_covers {nodes nodes' : List Node} (h : Covers nodes' nodes) {w : Way}
    (hw : w ∈ ways nodes) :
    ∃ w' ∈ ways nodes', w'.premise.canon = w.premise.canon ∧
      w'.conclusion.canon = w.conclusion.canon := by
  obtain ⟨n, hn, hwn⟩ := List.mem_flatMap.1 hw
  rcases waysOf_cases hwn with ⟨rfl, -⟩ | ⟨hd, -⟩
  · obtain ⟨a, b, hm, ha, hb⟩ := h.both hn
    exact ⟨⟨.modusPonens, a, b⟩, List.mem_flatMap.2 ⟨_, hm, List.mem_singleton.2 rfl⟩, ha, hb⟩
  · obtain ⟨n', hn', hc⟩ := h n hn
    obtain ⟨a, b, hd', ha, hb⟩ := Pattern.direction_of_canon hc hd
    cases n' with
    | rule i p c d x k =>
        exact ⟨⟨.rule i, a, b⟩,
          List.mem_flatMap.2 ⟨_, hn', List.mem_map.2 ⟨(a, b), hd', rfl⟩⟩, ha, hb⟩
    | _ => cases hd'

/-- The premise of a keyed way for a goal that is a key is a key, and it
depends on canonical forms only. -/
theorem Way.IsKeyed.subst {w : Way} (hw : w.IsKeyed) {g : Node} (hg : g.isKey = true)
    {θ : Bindings} (hθ : w.conclusion.unifyWith g [] = some θ) :
    (w.premise.subst θ).isKey = true ∧
      (w.premise.subst θ).canon = w.premise.canon.subst θ.canon := by
  have hkeys : ∀ n ∈ [w.premise, w.conclusion, g], n.isKey = true := by
    simp [hw.1, hw.2, hg]
  have hover : ∀ n ∈ [w.premise, w.conclusion, g],
      n.Over (Universe.ofNodes [w.premise, w.conclusion, g]).vocabulary :=
    fun n hn => (Universe.mem_ofNodes hn).tokens_mem
  have hnone := composite?_of_vocabulary hkeys
  have hθV : θ.Over (Universe.ofNodes [w.premise, w.conclusion, g]).vocabulary :=
    Unify.nodes_keeps (fun _ _ _ hx hy => Unify.exprs_over hx hy)
      (Node.bears_iff_tokens.2 (hover w.conclusion (by simp)))
      (Node.bears_iff_tokens.2 (hover g (by simp))) [] θ Bindings.over_nil hθ
  refine ⟨Node.isKey_iff.2 fun e he => ?_, ?_⟩
  · exact hnone e (Node.over_subst hθV (hover w.premise (by simp)) e he)
  · exact Node.canon_subst hnone hθV (hover w.premise (by simp))

/-- The operands of a key are keys. -/
theorem isKey_operands {o : Connective} {a b : Node}
    (h : (Node.compound o (some a) (some b)).isKey = true) :
    a.isKey = true ∧ b.isKey = true := by
  have hparts := Node.isKey_iff.1 h
  rw [Node.forall_tokens_compound] at hparts
  exact ⟨Node.isKey_iff.2 (hparts.1 a rfl), Node.isKey_iff.2 (hparts.2 b rfl)⟩

/-- Two goals are equal and keys. -/
def EqualKeys (g g' : Node) : Prop :=
  g'.canon = g.canon ∧ g.isKey = true

/-- Among nodes that have, with every given node, an equal one, equal goals
stand for each other as long as they are keys. -/
theorem Simulates.of_covers {nodes nodes' : List Node} (h : Covers nodes' nodes)
    (hkeyed : ∀ w ∈ ways nodes', w.IsKeyed) : Simulates nodes nodes' EqualKeys where
  covers := h
  canon _ _ hg := hg.1
  operands := by
    rintro o a b g' ⟨hc, hkey⟩
    obtain ⟨a', b', rfl, ha, hb⟩ := Node.compound_of_canon hc
    obtain ⟨hka, hkb⟩ := isKey_operands hkey
    exact ⟨a', b', rfl, ⟨ha, hka⟩, ⟨hb, hkb⟩⟩
  way := by
    rintro g g' w θ ⟨hc, hkey⟩ hw hθ
    obtain ⟨w', hw', hp, hcon⟩ := way_of_covers h hw
    obtain ⟨θ', hθ', hθc⟩ := Node.unifyWith_of_canon hcon hc hθ
    have hk' : w'.IsKeyed := hkeyed w' hw'
    have hk : w.IsKeyed :=
      ⟨Node.isKey_of_canon hp.symm hk'.1, Node.isKey_of_canon hcon.symm hk'.2⟩
    obtain ⟨hpremise, hcanon⟩ := hk.subst hkey hθ
    obtain ⟨-, hcanon'⟩ := hk'.subst (Node.isKey_of_canon hc hkey) hθ'
    exact ⟨w', hw', θ', hθ', by rw [hcanon', hcanon, hp, hθc], hpremise⟩

end TripleLogic.Proof
