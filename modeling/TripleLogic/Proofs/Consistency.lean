/-
TripleLogic.Proofs.Consistency — contradictions that are reported are real,
and all of them are reported.

What contradicts what is said for one order of two nodes (`Contradicts`): a
node and its negation, or an implication and one from the same antecedent to
the negation of its consequent. Nodes that are complete are reported if and
only if they contradict each other in one order or the other
(`contradiction?_eq_some`).

* What is known after forward chaining holds where what was known before
  holds. So a node known beside its negation means that nothing makes all
  nodes hold that were known before (`Contradicts.not_supports`), and
  implications that contradict each other mean that their antecedent is false
  in all its instances (`Contradicts.refutes`).
* The reports are those of the pairs of places at which nodes contradict each
  other, each pair once (`contradictions_reported`).

Main statement: `contradictions_real`.
-/
import Mathlib.Data.List.Forall2
import TripleLogic.Proofs.Growth
import TripleLogic.Proofs.Inside
import TripleLogic.Proofs.Pairs

namespace TripleLogic

/-! ## Nodes that contradict each other -/

/-- A node is the negation of another, up to equality. -/
def Node.Denies (n m : Node) : Prop :=
  ∃ a : Node, n = a.negate ∧ a.same m = true

/-- How a node contradicts another, in this order. -/
inductive Contradicts : Contradiction → Node → Node → Prop
  /-- The other one is its negation. -/
  | direct {a b : Node} (h : b.Denies a) : Contradicts .direct a b
  /-- Implications from one antecedent, to a node and to its negation. -/
  | implications {p q x y : Node} (hpq : p.same q = true) (h : y.Denies x) :
      Contradicts .implications (p.implies x) (q.implies y)

namespace Node

/-- What a list of reports is, for the pairs of places that they are about. -/
structure Reported (nodes : List Node) (places : List (Nat × Nat))
    (reports : List (Node × Node × Contradiction)) : Prop where
  /-- The pairs are those of nodes that contradict each other in either order. -/
  mem_iff : ∀ i j, (i, j) ∈ places ↔ i < j ∧ ∃ a b, nodes[i]? = some a ∧ nodes[j]? = some b ∧
    ∃ c, Contradicts c a b ∨ Contradicts c b a
  /-- No pair is reported twice. -/
  nodup : places.Nodup
  /-- Each report is of the nodes of its pair, and of how they contradict each other. -/
  reports : List.Forall₂ (fun p r => nodes[p.1]? = some r.1 ∧ nodes[p.2]? = some r.2.1 ∧
    (Contradicts r.2.2 r.1 r.2.1 ∨ Contradicts r.2.2 r.2.1 r.1)) places reports

theorem negates_iff {n m : Node} (hn : n.Complete) :
    negates (some n) (some m) = true ↔ n.Denies m := by
  constructor
  · intro h
    unfold negates at h
    split at h
    · next a r heq =>
        cases heq
        cases a with
        | none => exact absurd (sameOperand_none_some.symm.trans h) Bool.false_ne_true
        | some a => exact ⟨a, by rw [hn.of_not]; rfl, h⟩
    · cases h
  · rintro ⟨a, rfl, h⟩
    exact h

theorem contradicts_direct {a b : Node} : Contradicts .direct a b ↔ b.Denies a :=
  ⟨fun h => by cases h; assumption, .direct⟩

theorem contradicts_implications {p q x y : Node} :
    Contradicts .implications (p.implies x) (q.implies y) ↔ p.same q = true ∧ y.Denies x :=
  ⟨fun h => by cases h; exact ⟨‹_›, ‹_›⟩, fun h => .implications h.1 h.2⟩

/-- What is negated is no implication, so nodes contradict each other in one
way at most. -/
theorem eq_direct {a b : Node} {c : Contradiction} (hdirect : b.Denies a ∨ a.Denies b)
    (h : Contradicts c a b ∨ Contradicts c b a) : c = .direct := by
  obtain ⟨m, rfl, -⟩ | ⟨m, rfl, -⟩ := hdirect <;> obtain h | h := h <;> cases h <;> rfl

/-- **Complete nodes are reported** if and only if they contradict each other
in one order or the other. -/
theorem contradiction?_eq_some {a b : Node} {c : Contradiction} (ha : a.Complete)
    (hb : b.Complete) :
    contradiction? a b = some c ↔ Contradicts c a b ∨ Contradicts c b a := by
  unfold contradiction?
  split
  · next hneg =>
      rw [Bool.or_eq_true, negates_iff hb, negates_iff ha] at hneg
      constructor
      · intro h
        cases h
        rwa [contradicts_direct, contradicts_direct]
      · intro h
        rw [eq_direct hneg h]
  · next hneg =>
      rw [Bool.or_eq_true, negates_iff hb, negates_iff ha] at hneg
      split
      · next p x q y =>
          obtain ⟨p, x, rfl, rfl, -, hx⟩ := ha.of_implies
          obtain ⟨q, y, rfl, rfl, -, hy⟩ := hb.of_implies
          rw [Option.ite_none_right_eq_some, Bool.and_eq_true, Bool.or_eq_true, negates_iff hx,
            negates_iff hy]
          cases c with
          | direct =>
              rw [contradicts_direct, contradicts_direct]
              exact ⟨fun h => (nomatch h.2), fun h => absurd h hneg⟩
          | implications =>
              have hpq : q.same p = true ↔ p.same q = true := ⟨same_symm, same_symm⟩
              change _ ↔ Contradicts _ (p.implies x) (q.implies y) ∨
                Contradicts _ (q.implies y) (p.implies x)
              rw [contradicts_implications, contradicts_implications, hpq, ← and_or_left]
              exact and_iff_left rfl
      · next hne =>
          refine ⟨nofun, fun h => ?_⟩
          cases c with
          | direct => exact absurd (by rwa [contradicts_direct, contradicts_direct] at h) hneg
          | implications =>
              obtain h | h := h <;> cases h <;> exact (hne _ _ _ _ rfl rfl).elim

/-! ## Every pair once -/

/-- The reports on the pairs of a list. -/
theorem contradictions_eq : ∀ nodes : List Node,
    contradictions nodes =
      (pairs nodes).filterMap fun p => (contradiction? p.1 p.2).map fun c => (p.1, p.2, c)
  | [] => rfl
  | n :: rest => by
      rw [contradictions, pairs, List.filterMap_append, List.filterMap_map, contradictions_eq rest]
      rfl

/-- The pairs that are reported, each node with its place. -/
def placedReports (nodes : List Node) : List ((Node × Nat) × (Node × Nat) × Contradiction) :=
  (pairs nodes.zipIdx).filterMap fun x => (contradiction? x.1.1 x.2.1).map fun c => (x.1, x.2, c)

theorem contradictions_eq_map (nodes : List Node) :
    contradictions nodes = (placedReports nodes).map fun e => (e.1.1, e.2.1.1, e.2.2) := by
  conv_lhs => rw [← List.zipIdx_map_fst 0 nodes, contradictions_eq, pairs_map, List.filterMap_map]
  rw [placedReports, List.map_filterMap]
  refine List.filterMap_congr fun x _ => ?_
  rw [Option.map_map]
  rfl

theorem mem_placedReports {nodes : List Node} {x : (Node × Nat) × (Node × Nat) × Contradiction} :
    x ∈ placedReports nodes ↔ x.1.2 < x.2.1.2 ∧ nodes[x.1.2]? = some x.1.1 ∧
      nodes[x.2.1.2]? = some x.2.1.1 ∧ contradiction? x.1.1 x.2.1.1 = some x.2.2 := by
  obtain ⟨p, q, c⟩ := x
  simp only [placedReports, List.mem_filterMap, Option.map_eq_some_iff]
  constructor
  · rintro ⟨y, hy, d, hd, heq⟩
    cases heq
    obtain ⟨hlt, hp, hq⟩ := mem_pairs_zipIdx.1 hy
    exact ⟨hlt, hp, hq, hd⟩
  · rintro ⟨hlt, hp, hq, hc⟩
    exact ⟨(p, q), mem_pairs_zipIdx.2 ⟨hlt, hp, hq⟩, c, hc, rfl⟩

/-- The places of reports come in order. -/
theorem pairwise_placedReports (nodes : List Node) :
    ((placedReports nodes).map fun e => (e.1.2, e.2.1.2)).Pairwise fun p q =>
      p.1 < q.1 ∨ p.1 = q.1 ∧ p.2 < q.2 := by
  refine List.pairwise_map.2 (List.pairwise_filterMap.2 ?_)
  refine (pairwise_pairs (pairwise_zipIdx nodes)).imp fun hxy e he e' he' => ?_
  obtain ⟨_, _, rfl⟩ := Option.map_eq_some_iff.1 he
  obtain ⟨_, _, rfl⟩ := Option.map_eq_some_iff.1 he'
  exact hxy

/-- A report is of two nodes of the list that contradict each other. -/
theorem of_mem_contradictions {nodes : List Node} (hc : ∀ n ∈ nodes, n.Complete) {a b : Node}
    {c : Contradiction} (h : (a, b, c) ∈ contradictions nodes) :
    a ∈ nodes ∧ b ∈ nodes ∧ (Contradicts c a b ∨ Contradicts c b a) := by
  rw [contradictions_eq_map] at h
  obtain ⟨e, he, heq⟩ := List.mem_map.1 h
  cases heq
  obtain ⟨-, ha, hb, hsome⟩ := mem_placedReports.1 he
  have hamem := List.mem_of_getElem? ha
  have hbmem := List.mem_of_getElem? hb
  exact ⟨hamem, hbmem, (contradiction?_eq_some (hc _ hamem) (hc _ hbmem)).1 hsome⟩

/-- **The contradictions among complete nodes** are reported, each pair once. -/
theorem contradictions_reported {nodes : List Node} (hc : ∀ n ∈ nodes, n.Complete) :
    ∃ places, Reported nodes places (contradictions nodes) := by
  have hcomplete : ∀ {i : Nat} {n : Node}, nodes[i]? = some n → n.Complete :=
    fun hn => hc _ (List.mem_of_getElem? hn)
  refine ⟨(placedReports nodes).map fun e => (e.1.2, e.2.1.2), fun i j => ⟨?_, ?_⟩, ?_, ?_⟩
  · intro hij
    obtain ⟨e, he, heq⟩ := List.mem_map.1 hij
    cases heq
    obtain ⟨hlt, ha, hb, hsome⟩ := mem_placedReports.1 he
    exact ⟨hlt, _, _, ha, hb, _, (contradiction?_eq_some (hcomplete ha) (hcomplete hb)).1 hsome⟩
  · rintro ⟨hlt, a, b, ha, hb, c, h⟩
    have hsome := (contradiction?_eq_some (hcomplete ha) (hcomplete hb)).2 h
    exact List.mem_map.2 ⟨((a, i), (b, j), c), mem_placedReports.2 ⟨hlt, ha, hb, hsome⟩, rfl⟩
  · refine (pairwise_placedReports nodes).imp fun {p q} hpq (heq : p = q) => ?_
    subst heq
    omega
  · rw [contradictions_eq_map, List.forall₂_map_left_iff, List.forall₂_map_right_iff,
      List.forall₂_same]
    intro e he
    obtain ⟨-, ha, hb, hsome⟩ := mem_placedReports.1 he
    exact ⟨ha, hb, (contradiction?_eq_some (hcomplete ha) (hcomplete hb)).1 hsome⟩

end Node

/-! ## What a report means -/

section

variable {I : Interpretation} {a b : Node}

/-- A node and its negation do not both hold. -/
theorem Contradicts.not_supports (h : Contradicts .direct a b) (ha : I.Supports a)
    (hb : I.Supports b) : False := by
  cases h with
  | direct h =>
      obtain ⟨m, rfl, hsame⟩ := h
      have hmv := (Node.varsInTerms_compound.1 hb.vars).1 m rfl
      have hm := ha.holds.of_same ha.vars hmv (Node.same_symm hsame)
      let σ := Assignment.constant "anything" rfl
      exact hb.holds σ (hm σ)

/-- The sides of an implication that holds. -/
theorem Interpretation.Supports.of_implies {p x : Node} (h : I.Supports (p.implies x)) :
    p.VarsInTerms ∧ x.VarsInTerms ∧ ∀ σ, I.Models (p.inst σ) → I.Models (x.inst σ) := by
  obtain ⟨hp, hx⟩ := Node.varsInTerms_compound.1 h.vars
  exact ⟨hp p rfl, hx x rfl, h.holds⟩

/-- Implications that contradict each other hold only where their antecedents
are false. -/
theorem Contradicts.refutes (h : Contradicts .implications a b) :
    ∃ p x q y : Node, a = p.implies x ∧ b = q.implies y ∧
      ∀ I : Interpretation, I.Supports a → I.Supports b →
        ∀ σ, ¬ I.Models (p.inst σ) ∧ ¬ I.Models (q.inst σ) := by
  cases h with
  | @implications p q x y hpq h =>
      refine ⟨p, x, q, y, rfl, rfl, fun I hp hq σ => ?_⟩
      obtain ⟨m, rfl, hsame⟩ := h
      obtain ⟨hpv, hxv, hpx⟩ := hp.of_implies
      obtain ⟨hqv, hyv, hqy⟩ := hq.of_implies
      have hmv := (Node.varsInTerms_compound.1 hyv).1 m rfl
      have htogether := I.models_inst_of_same hpv hqv hpq σ
      have hnot : ¬ I.Models (p.inst σ) := by
        intro hpσ
        have hxσ : I.Models (x.inst σ) := hpx σ hpσ
        have hmσ : ¬ I.Models (m.inst σ) := hqy σ (htogether.1 hpσ)
        exact hmσ ((I.models_inst_of_same hmv hxv hsame σ).2 hxσ)
      exact ⟨hnot, fun hqσ => hnot (htogether.2 hqσ)⟩

end

/-! ## Reports after forward chaining -/

/-- What the reports of an engine come to, for the nodes that were known to
begin with. -/
structure Engine.Exposes (g : Engine) (initial : List Node) : Prop where
  /-- If a node is known beside its negation, nothing makes all nodes hold. -/
  direct : ∀ a b, (a, b, .direct) ∈ g.contradictions →
    ∀ I : Interpretation, ¬ ∀ n ∈ initial, I.Holds n
  /-- If implications contradict each other, their antecedents are false in all
  instances, wherever all nodes hold. -/
  implications : ∀ a b, (a, b, .implications) ∈ g.contradictions →
    ∃ p x q y, a = Node.implies p x ∧ b = Node.implies q y ∧
      ∀ I : Interpretation, (∀ n ∈ initial, I.Holds n) →
        ∀ σ, ¬ I.Models (p.inst σ) ∧ ¬ I.Models (q.inst σ)
  /-- All pairs that contradict each other are reported, each once. -/
  reported : ∃ places, Node.Reported g.kb.nodes places g.contradictions

/-- **Contradictions are real.** After forward chaining by any number of
passes, answered or refused, over complete nodes whose variables are subjects
and objects only. -/
theorem Engine.contradictions_real (g : Engine) (bound : Nat)
    (hvars : ∀ n ∈ g.kb.nodes, n.VarsInTerms) (hcomplete : ∀ n ∈ g.kb.nodes, n.Complete) :
    (g.forward bound).1.Exposes g.kb.nodes := by
  have hknown : ∀ n ∈ (g.forward bound).1.kb.nodes, n.Complete :=
    (g.forward_induct (fun hn hc => hc.complete hn) bound hcomplete).1
  have hsupports : ∀ I : Interpretation, (∀ n ∈ g.kb.nodes, I.Holds n) →
      ∀ n ∈ (g.forward bound).1.kb.nodes, I.Supports n := fun I hI =>
    (g.forward_induct (fun hn hc => hc.supports hn) bound fun n hn => ⟨hvars n hn, hI n hn⟩).1
  obtain ⟨places, hplaces⟩ := Node.contradictions_reported hknown
  refine ⟨fun a b hab I hI => ?_, fun a b hab => ?_, places, hplaces⟩
  · obtain ⟨ha, hb, h | h⟩ := Node.of_mem_contradictions hknown hab
    · exact h.not_supports (hsupports I hI a ha) (hsupports I hI b hb)
    · exact h.not_supports (hsupports I hI b hb) (hsupports I hI a ha)
  · obtain ⟨ha, hb, h | h⟩ := Node.of_mem_contradictions hknown hab
    · obtain ⟨p, x, q, y, rfl, rfl, href⟩ := h.refutes
      exact ⟨p, x, q, y, rfl, rfl, fun I hI =>
        href I (hsupports I hI _ ha) (hsupports I hI _ hb)⟩
    · obtain ⟨q, y, p, x, rfl, rfl, href⟩ := h.refutes
      exact ⟨p, x, q, y, rfl, rfl, fun I hI σ =>
        (href I (hsupports I hI _ hb) (hsupports I hI _ ha) σ).symm⟩

/-- A vault that is watched: being armed implies that it is not open, and that
it is. -/
def vault : Engine where
  kb := ⟨[
    .node (Node.implies (.assertion "vault" "is" "armed")
      (Node.negate (.assertion "vault" "is" "open"))),
    .node (Node.implies (.assertion "vault" "is" "armed") (.assertion "vault" "is" "open")),
    .node (.rule "guarded" (.assertion "?V" "watched_by" "?G") (.assertion "?V" "is" "armed")
      none false .null),
    .node (.assertion "vault" "watched_by" "guard")]⟩

/-- The implications about the vault are reported, and two nodes beside their
negations, which forward chaining derives. -/
theorem vault_contradictions_real :
    (∀ n ∈ vault.kb.nodes, n.VarsInTerms) ∧ (∀ n ∈ vault.kb.nodes, n.Complete) ∧
      (vault.forward 3).1.contradictions.map (fun r => r.2.2) =
        [.implications, .direct, .direct] ∧
      (vault.forward 3).1.Exposes vault.kb.nodes := by
  have hvars : ∀ n ∈ vault.kb.nodes, n.VarsInTerms := by decide +kernel
  have hcomplete : ∀ n ∈ vault.kb.nodes, n.Complete := by decide +kernel
  exact ⟨hvars, hcomplete, by decide +kernel, vault.contradictions_real 3 hvars hcomplete⟩

end TripleLogic
