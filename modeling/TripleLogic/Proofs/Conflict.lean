/-
TripleLogic.Proofs.Conflict — conflict detection against all pairs.

What two statements about one subject conflict in is said without the closure
and without groups: classes are reached along the learned statements
(`DirectlyBelow`), and every pair of places of the checked list is looked at
(`Conflicting`). Detection works by subject, on the closed hierarchy.

* `clash?_cases`: after a closure that converged, the clash found for two
  statements is a conflict, and where none is found there is no conflict.
* `placedPairs`: detection goes through the groups of one subject and visits
  each two places of a group once, in order (`pairwise_placedPairs`).

Main statement: the reports are those of the pairs in conflict, each once,
grouped by the first place at which their subject is met (`conflicts_exact`).
-/
import Mathlib.Data.List.Forall2
import TripleLogic.Ontology.Conflict
import TripleLogic.Proofs.FirstMet
import TripleLogic.Proofs.Pairs
import TripleLogic.Proofs.Reachability

open Relation (TransGen ReflTransGen reflTransGen_iff_eq_or_transGen)

namespace TripleLogic

namespace Ontology

/-! ## Conflicts -/

/-- Two names are registered as disjoint, in one order or the other. -/
def Registered (o : Ontology) (a b : String) : Prop :=
  a ≠ b ∧ ((a, b) ∈ o.disjoint ∨ (b, a) ∈ o.disjoint)

/-- A disjoint pair covers two classes: each name of it is the class itself
or can be reached from it. -/
def Covers (o : Ontology) (learned : List Statement) (x y : String) (w : String × String) :
    Prop :=
  o.Registered w.1 w.2 ∧ ReflTransGen (DirectlyBelow learned) x w.1 ∧
    ReflTransGen (DirectlyBelow learned) y w.2

/-- Two statements put their subject into classes that a disjoint pair covers. -/
def InDisjointClasses (o : Ontology) (learned : List Statement) (s t : Statement)
    (w : String × String) : Prop :=
  (s.relation.name = "is_a" ∨ s.relation.name = "instance_of") ∧
    (t.relation.name = "is_a" ∨ t.relation.name = "instance_of") ∧
      o.Covers learned s.object.key t.object.key w

/-- Two statements give two values to a relation that admits one. -/
def TwoValued (o : Ontology) (s t : Statement) : Prop :=
  s.relation.name = t.relation.name ∧ s.object.key ≠ t.object.key ∧
    ∃ c, o.constraint? s.relation.name = some c ∧ c.cardinality = some .one

/-- The constraint on one relation names another as excluded. -/
def ExcludedBy (o : Ontology) (r q : String) : Prop :=
  ∃ c, o.constraint? r = some c ∧ .str q ∈ c.disjointWith

/-- The relations of two statements exclude each other, by the constraint on
the one or the other. -/
def Exclusive (o : Ontology) (s t : Statement) : Prop :=
  o.ExcludedBy s.relation.name t.relation.name ∨ o.ExcludedBy t.relation.name s.relation.name

/-- What two statements conflict in: the first kind that applies. -/
inductive Conflicting (o : Ontology) (learned : List Statement) (s t : Statement) : Clash → Prop
  | taxonomy {w : String × String} (hw : o.InDisjointClasses learned s t w) :
      Conflicting o learned s t (.taxonomy s.subject.key s.object.key t.object.key w)
  | cardinality (hno : ∀ w, ¬ o.InDisjointClasses learned s t w) (htwo : o.TwoValued s t) :
      Conflicting o learned s t
        (.cardinality s.subject.key s.relation.name s.object.key t.object.key)
  | exclusion (hno : ∀ w, ¬ o.InDisjointClasses learned s t w) (hone : ¬ o.TwoValued s t)
      (hex : o.Exclusive s t) :
      Conflicting o learned s t (.disjointValues s.subject.key s.relation.name t.relation.name
        s.object.key t.object.key)

/-- The first place at which the subject of the statement at a place is met. -/
def firstMet (checked : List Statement) (i : Nat) : Nat :=
  checked.findIdx fun s => some s.subject.key == checked[i]?.map fun t => t.subject.key

/-- The order of reports: subjects as they are first met, then the earlier
statement, then the later one. -/
def Before (checked : List Statement) (p q : Nat × Nat) : Prop :=
  firstMet checked p.1 < firstMet checked q.1 ∨
    firstMet checked p.1 = firstMet checked q.1 ∧ (p.1 < q.1 ∨ p.1 = q.1 ∧ p.2 < q.2)

/-- What an exact list of reports is, for the pairs of places that they are
about. -/
structure Reported (o : Ontology) (learned checked : List Statement)
    (places : List (Nat × Nat)) (reports : List Conflict) : Prop where
  /-- The pairs are those of which the statements conflict. -/
  mem_iff : ∀ i j, (i, j) ∈ places ↔ i < j ∧ ∃ s t, checked[i]? = some s ∧
    checked[j]? = some t ∧ s.subject.key = t.subject.key ∧ ∃ c, o.Conflicting learned s t c
  /-- No pair is reported twice. -/
  nodup : places.Nodup
  /-- Reports come subject by subject. -/
  ordered : places.Pairwise (Before checked)
  /-- Each report is of the two statements of its pair, and of what they conflict in. -/
  reports : List.Forall₂ (fun p r => ∃ s t c, checked[p.1]? = some s ∧ checked[p.2]? = some t ∧
    o.Conflicting learned s t c ∧ r = Conflict.ofPair (c, s, t)) places reports

/-! ## Reaching a class -/

variable {o : Ontology} {learned checked : List Statement}

/-- At or above a class is what is the class or can be reached from it. -/
theorem mem_atOrAbove (hc : (o.learnStatements learned).2.converged = true)
    {x a : String} :
    a ∈ (o.learnStatements learned).1.atOrAbove x ↔
      ReflTransGen (DirectlyBelow learned) x a := by
  have habove : ∀ n, n ∈ (o.learnStatements learned).1.hierarchy.get (.text x) ↔
      ∃ y, n = .text y ∧ TransGen (DirectlyBelow learned) x y :=
    fun n => (mem_superclasses_iff hc).trans transGen_learned
  simp only [reflTransGen_iff_eq_or_transGen, atOrAbove, Names.mem_sorted, Names.mem_union,
    List.mem_singleton, habove, Name.text.injEq, exists_eq_left']

/-! ## The checks on two statements -/

theorem areDisjoint_iff {a b : String} : o.areDisjoint a b = true ↔ o.Registered a b := by
  simp only [areDisjoint, Registered, Bool.and_eq_true, bne_iff_ne, List.any_eq_true,
    Bool.or_eq_true, beq_iff_eq, Prod.exists]
  refine and_congr_right fun _ => ⟨?_, ?_⟩
  · rintro ⟨c, d, h, ⟨rfl, rfl⟩ | ⟨rfl, rfl⟩⟩
    · exact .inl h
    · exact .inr h
  · rintro (h | h)
    · exact ⟨_, _, h, .inl ⟨rfl, rfl⟩⟩
    · exact ⟨_, _, h, .inr ⟨rfl, rfl⟩⟩

theorem isTaxonomic_iff {r : String} : isTaxonomic r = true ↔ r = "is_a" ∨ r = "instance_of" := by
  simp [isTaxonomic]

theorem excludes_iff {r q : String} : o.excludes r q = true ↔ o.ExcludedBy r q := by
  have htext : ∀ d : Data, d.isText q = true ↔ d = .str q := by
    intro d
    cases d <;> simp [Data.isText]
  unfold excludes ExcludedBy
  cases o.constraint? r with
  | none => simp
  | some c => simp [htext]

theorem constraint?_learned (r : String) :
    (o.learnStatements learned).1.constraint? r = o.constraint? r := by
  rw [constraint?, constraint?, learnStatements, (learn_registered o _).1]

theorem areDisjoint_learned {a b : String} :
    (o.learnStatements learned).1.areDisjoint a b = true ↔ o.Registered a b := by
  rw [areDisjoint_iff, Registered, Registered, learnStatements, (learn_registered o _).2]

theorem excludes_learned (o : Ontology) (learned : List Statement) {r q : String} :
    (o.learnStatements learned).1.excludes r q = true ↔ o.ExcludedBy r q := by
  rw [excludes_iff, ExcludedBy, ExcludedBy, constraint?_learned]

/-- The witness found covers the two classes. -/
theorem covers_of_disjointWitness (hc : (o.learnStatements learned).2.converged = true)
    {x y : String} {w : String × String}
    (hw : (o.learnStatements learned).1.disjointWitness x y = some w) :
    o.Covers learned x y w := by
  unfold disjointWitness at hw
  split at hw
  · next h =>
      cases hw
      exact ⟨(areDisjoint_learned).1 h, .refl, .refl⟩
  · obtain ⟨a, ha, hw⟩ := List.exists_of_findSome?_eq_some hw
    obtain ⟨b, hb, hw⟩ := List.exists_of_findSome?_eq_some hw
    obtain ⟨hab, hw⟩ := Option.ite_none_right_eq_some.1 hw
    cases hw
    exact ⟨areDisjoint_learned.1 hab, (mem_atOrAbove hc).1 ha, (mem_atOrAbove hc).1 hb⟩

/-- A witness is found where a pair covers the two classes. -/
theorem disjointWitness_isSome (hc : (o.learnStatements learned).2.converged = true)
    {x y : String} {w : String × String} (hw : o.Covers learned x y w) :
    ((o.learnStatements learned).1.disjointWitness x y).isSome := by
  obtain ⟨hdis, hx, hy⟩ := hw
  unfold disjointWitness
  split
  · rfl
  · refine List.findSome?_isSome_iff.2 ⟨w.1, (mem_atOrAbove hc).2 hx, ?_⟩
    refine List.findSome?_isSome_iff.2 ⟨w.2, (mem_atOrAbove hc).2 hy, ?_⟩
    rw [if_pos (areDisjoint_learned.2 hdis)]
    rfl

/-- The check of classes finds a pair that covers them, or there is none. -/
theorem taxonomyClash_cases (hc : (o.learnStatements learned).2.converged = true)
    (s t : Statement) :
    (∃ w, o.InDisjointClasses learned s t w ∧ (o.learnStatements learned).1.taxonomyClash s t =
      some (.taxonomy s.subject.key s.object.key t.object.key w)) ∨
    ((∀ w, ¬ o.InDisjointClasses learned s t w) ∧
      (o.learnStatements learned).1.taxonomyClash s t = none) := by
  unfold taxonomyClash
  split
  · next hrel =>
      rw [Bool.and_eq_true, isTaxonomic_iff, isTaxonomic_iff] at hrel
      cases hw : (o.learnStatements learned).1.disjointWitness s.object.key t.object.key with
      | some w => exact .inl ⟨w, ⟨hrel.1, hrel.2, covers_of_disjointWitness hc hw⟩, rfl⟩
      | none =>
          refine .inr ⟨fun w hcon => ?_, rfl⟩
          have hsome := disjointWitness_isSome hc hcon.2.2
          rw [hw] at hsome
          cases hsome
  · next hrel =>
      rw [Bool.and_eq_true, isTaxonomic_iff, isTaxonomic_iff] at hrel
      exact .inr ⟨fun w hcon => hrel ⟨hcon.1, hcon.2.1⟩, rfl⟩

/-- The check of values finds two of them where one is admitted. -/
theorem cardinalityClash_cases (o : Ontology) (learned : List Statement) (s t : Statement) :
    (o.TwoValued s t ∧ (o.learnStatements learned).1.cardinalityClash s t =
      some (.cardinality s.subject.key s.relation.name s.object.key t.object.key)) ∨
    (¬ o.TwoValued s t ∧ (o.learnStatements learned).1.cardinalityClash s t = none) := by
  unfold cardinalityClash TwoValued
  rw [constraint?_learned]
  cases o.constraint? s.relation.name with
  | none => simp
  | some c =>
      dsimp only
      split
      · next h =>
          simp only [Bool.and_eq_true, beq_iff_eq, bne_iff_ne] at h
          exact .inl ⟨⟨h.1.1, h.2, c, rfl, h.1.2⟩, rfl⟩
      · next h =>
          simp only [Bool.and_eq_true, beq_iff_eq, bne_iff_ne] at h
          refine .inr ⟨?_, rfl⟩
          rintro ⟨hrel, hobj, d, hd, hone⟩
          cases hd
          exact h ⟨⟨hrel, hone⟩, hobj⟩

/-- The check of relations finds that they exclude each other. -/
theorem exclusionClash_cases (o : Ontology) (learned : List Statement) (s t : Statement) :
    (o.Exclusive s t ∧ (o.learnStatements learned).1.exclusionClash s t =
      some (.disjointValues s.subject.key s.relation.name t.relation.name s.object.key
        t.object.key)) ∨
    (¬ o.Exclusive s t ∧ (o.learnStatements learned).1.exclusionClash s t = none) := by
  unfold exclusionClash Exclusive
  rw [← excludes_learned o learned, ← excludes_learned o learned, ← Bool.or_eq_true]
  split
  · next h => exact .inl ⟨h, rfl⟩
  · next h => exact .inr ⟨h, rfl⟩

/-- **The clash of two statements** about one subject is a conflict of them,
and where none is found there is no conflict. -/
theorem clash?_cases (hc : (o.learnStatements learned).2.converged = true) {s t : Statement}
    (hkey : s.subject.key = t.subject.key) :
    (∃ c, o.Conflicting learned s t c ∧ (o.learnStatements learned).1.clash? s t = some c) ∨
    ((∀ c, ¬ o.Conflicting learned s t c) ∧
      (o.learnStatements learned).1.clash? s t = none) := by
  have hskip (later : Option Clash) : (none <|> later) = later := rfl
  rw [clash?, if_neg (by simpa using hkey)]
  obtain ⟨w, hw, heq⟩ | ⟨hno, heq⟩ := taxonomyClash_cases hc s t
  · exact .inl ⟨_, .taxonomy hw, by rw [heq]; rfl⟩
  rw [heq, hskip]
  obtain ⟨htwo, heq⟩ | ⟨hone, heq⟩ := cardinalityClash_cases o learned s t
  · exact .inl ⟨_, .cardinality hno htwo, by rw [heq]; rfl⟩
  rw [heq, hskip]
  obtain ⟨hex, heq⟩ | ⟨hnex, heq⟩ := exclusionClash_cases o learned s t
  · exact .inl ⟨_, .exclusion hno hone hex, heq⟩
  refine .inr ⟨?_, heq⟩
  rintro _ (hw | ⟨_, htwo⟩ | ⟨_, _, hex⟩)
  · exact hno _ hw
  · exact hone htwo
  · exact hnex hex

/-! ## Going through pairs -/

/-- What clashes within a list are its pairs that clash. -/
theorem clashesWithin_eq (o : Ontology) : ∀ l : List Statement,
    o.clashesWithin l =
      (pairs l).filterMap fun p => (o.clash? p.1 p.2).map fun c => (c, p.1, p.2)
  | [] => rfl
  | s :: rest => by
      rw [clashesWithin, pairs, List.filterMap_append, List.filterMap_map, clashesWithin_eq o rest]
      rfl

/-! ## Subjects as they are first met -/

/-- Where the subject of a statement is first met is where its key is. -/
theorem firstMet_eq {i : Nat} {s : Statement} (hs : checked[i]? = some s) :
    firstMet checked i = (checked.map fun s => s.subject.key).idxOf s.subject.key := by
  rw [firstMet, hs, List.idxOf, List.findIdx_map]
  rfl

/-! ## Pairs of places -/

/-- The statements about a subject, each with its place. -/
def placedGroup (checked : List Statement) (k : String) : List (Statement × Nat) :=
  checked.zipIdx.filter fun p => p.1.subject.key == k

/-- The pairs that detection goes through, each statement with its place. -/
def placedPairs (checked : List Statement) : List ((Statement × Nat) × (Statement × Nat)) :=
  (subjects checked).flatMap fun k => pairs (placedGroup checked k)

/-- The clashes found, each with the pair that it is of. -/
def placedClashes (o : Ontology) (checked : List Statement) :
    List (Clash × (Statement × Nat) × (Statement × Nat)) :=
  (placedPairs checked).filterMap fun x => (o.clash? x.1.1 x.2.1).map fun c => (c, x)

/-- The clashes are those found, without their places. -/
theorem clashes_eq (o : Ontology) (checked : List Statement) :
    o.clashes checked = (o.placedClashes checked).map fun e => (e.1, e.2.1.1, e.2.2.1) := by
  have hgroup : ∀ k, checked.filter (fun s => s.subject.key == k)
      = (placedGroup checked k).map Prod.fst := by
    intro k
    conv_lhs => rw [← List.zipIdx_map_fst 0 checked, List.filter_map]
    rfl
  rw [clashes, placedClashes, placedPairs, List.filterMap_flatMap, List.map_flatMap]
  refine List.flatMap_congr fun k _ => ?_
  rw [hgroup, clashesWithin_eq, pairs_map, List.filterMap_map, List.map_filterMap]
  refine List.filterMap_congr fun x _ => ?_
  rw [Option.map_map]
  rfl

theorem mem_placedGroup {k : String} {p : Statement × Nat} :
    p ∈ placedGroup checked k ↔ checked[p.2]? = some p.1 ∧ p.1.subject.key = k := by
  rw [placedGroup, List.mem_filter, List.mem_zipIdx_iff_getElem?, beq_iff_eq]

theorem pairwise_placedGroup (checked : List Statement) (k : String) :
    (placedGroup checked k).Pairwise fun a b => a.2 < b.2 :=
  (pairwise_zipIdx checked).filter _

theorem mem_subjects {k : String} : k ∈ subjects checked ↔ ∃ s ∈ checked, s.subject.key = k := by
  rw [subjects, List.mem_eraseDups, List.mem_map]

theorem mem_placedPairs {p q : Statement × Nat} :
    (p, q) ∈ placedPairs checked ↔ p.2 < q.2 ∧ checked[p.2]? = some p.1 ∧
      checked[q.2]? = some q.1 ∧ p.1.subject.key = q.1.subject.key := by
  simp only [placedPairs, List.mem_flatMap, mem_pairs (pairwise_placedGroup checked _),
    mem_placedGroup, mem_subjects]
  constructor
  · rintro ⟨_, _, ⟨hp, rfl⟩, ⟨hq, hk⟩, hlt⟩
    exact ⟨hlt, hp, hq, hk.symm⟩
  · rintro ⟨hlt, hp, hq, hk⟩
    exact ⟨_, ⟨p.1, List.mem_of_getElem? hp, rfl⟩, ⟨hp, rfl⟩, ⟨hq, hk.symm⟩, hlt⟩

/-- Detection goes through the pairs in the order of reports. -/
theorem pairwise_placedPairs (checked : List Statement) :
    (placedPairs checked).Pairwise fun x y =>
      Before checked (x.1.2, x.2.2) (y.1.2, y.2.2) := by
  have hmet : ∀ {k : String} {x : (Statement × Nat) × (Statement × Nat)},
      x ∈ pairs (placedGroup checked k) →
        firstMet checked x.1.2 = (checked.map fun s => s.subject.key).idxOf k := by
    intro k x hx
    obtain ⟨hs, rfl⟩ := mem_placedGroup.1 ((mem_pairs (pairwise_placedGroup checked k)).1 hx).1
    exact firstMet_eq hs
  refine List.pairwise_flatMap.2 ⟨fun k _ => ?_, ?_⟩
  · refine (pairwise_pairs (pairwise_placedGroup checked k)).imp_of_mem fun hx hy hxy => ?_
    exact .inr ⟨(hmet hx).trans (hmet hy).symm, hxy⟩
  · refine (pairwise_eraseDups _).imp fun hk x hx y hy => .inl ?_
    rw [hmet hx, hmet hy]
    exact hk

/-- What is found at two places is a conflict of the statements there. -/
theorem placedClashes_sound (hc : (o.learnStatements learned).2.converged = true)
    {e : Clash × (Statement × Nat) × (Statement × Nat)}
    (he : e ∈ (o.learnStatements learned).1.placedClashes checked) :
    e.2 ∈ placedPairs checked ∧ o.Conflicting learned e.2.1.1 e.2.2.1 e.1 := by
  obtain ⟨x, hx, hex⟩ := List.mem_filterMap.1 he
  obtain ⟨c, hclash, rfl⟩ := Option.map_eq_some_iff.1 hex
  refine ⟨hx, ?_⟩
  obtain ⟨d, hd, heq⟩ | ⟨_, heq⟩ := clash?_cases hc (mem_placedPairs.1 hx).2.2.2
  · exact Option.some.inj (hclash.symm.trans heq) ▸ hd
  · cases hclash.symm.trans heq

/-- Where two statements conflict, something is found. -/
theorem placedClashes_complete (hc : (o.learnStatements learned).2.converged = true)
    {x : (Statement × Nat) × (Statement × Nat)} (hx : x ∈ placedPairs checked) {d : Clash}
    (hd : o.Conflicting learned x.1.1 x.2.1 d) :
    ∃ c, (c, x) ∈ (o.learnStatements learned).1.placedClashes checked := by
  obtain ⟨c, _, heq⟩ | ⟨hno, _⟩ := clash?_cases hc (mem_placedPairs.1 hx).2.2.2
  · exact ⟨c, List.mem_filterMap.2 ⟨x, hx, by rw [heq]; rfl⟩⟩
  · exact absurd hd (hno d)

/-- What is found comes in the order of reports. -/
theorem pairwise_placedClashes (o : Ontology) (checked : List Statement) :
    ((o.placedClashes checked).map fun e => (e.2.1.2, e.2.2.2)).Pairwise (Before checked) := by
  refine List.pairwise_map.2 (List.pairwise_filterMap.2 ?_)
  refine (pairwise_placedPairs checked).imp fun hxy e he e' he' => ?_
  obtain ⟨_, _, rfl⟩ := Option.map_eq_some_iff.1 he
  obtain ⟨_, _, rfl⟩ := Option.map_eq_some_iff.1 he'
  exact hxy

theorem before_irrefl (p : Nat × Nat) : ¬ Before checked p p := by
  simp [Before]

/-- **Conflict detection is exact.** Whatever constraints and disjoint classes
are registered, after learning with a closure that converged the reports on a
list of statements are those of its pairs in conflict, each once, by subject
in the order in which subjects are met. -/
theorem conflicts_exact (o : Ontology) (learned checked : List Statement)
    (hc : (o.learnStatements learned).2.converged = true) :
    ∃ places, o.Reported learned checked places
      ((o.learnStatements learned).1.conflicts checked) := by
  have hordered := pairwise_placedClashes (o.learnStatements learned).1 checked
  refine ⟨_, ⟨fun i j => ⟨?_, ?_⟩, ?_, hordered, ?_⟩⟩
  · intro hij
    obtain ⟨e, he, heq⟩ := List.mem_map.1 hij
    cases heq
    obtain ⟨hx, hconf⟩ := placedClashes_sound hc he
    obtain ⟨hlt, hs, ht, hkey⟩ := mem_placedPairs.1 hx
    exact ⟨hlt, _, _, hs, ht, hkey, _, hconf⟩
  · rintro ⟨hlt, s, t, hs, ht, hkey, d, hd⟩
    have hx : ((s, i), (t, j)) ∈ placedPairs checked := mem_placedPairs.2 ⟨hlt, hs, ht, hkey⟩
    obtain ⟨c, hcx⟩ := placedClashes_complete hc hx hd
    exact List.mem_map.2 ⟨_, hcx, rfl⟩
  · refine hordered.imp fun {p q} hpq (heq : p = q) => ?_
    exact before_irrefl q (heq ▸ hpq)
  · rw [conflicts, clashes_eq, List.map_map, List.forall₂_map_left_iff,
      List.forall₂_map_right_iff, List.forall₂_same]
    intro e he
    obtain ⟨hx, hconf⟩ := placedClashes_sound hc he
    obtain ⟨_, hs, ht, _⟩ := mem_placedPairs.1 hx
    exact ⟨_, _, _, hs, ht, hconf, rfl⟩

/-- A pet of two kinds, with a statement about another subject between. -/
def petStatements : List Statement :=
  [{ subject := .concept "pet", relation := { name := "is_a" }, object := .concept "Dog" },
   { subject := .concept "egg", relation := { name := "age" }, object := .literal (.num (.int 3)) },
   { subject := .concept "pet", relation := { name := "instance_of" }, object := .concept "Gecko" }]

/-- What the two kinds of pets are. -/
def petClasses : List Statement :=
  [{ subject := .concept "Dog", relation := { name := "is_a" }, object := .concept "Mammal" },
   { subject := .concept "Gecko", relation := { name := "is_a" }, object := .concept "Lizard" },
   { subject := .concept "Lizard", relation := { name := "subclass_of" },
     object := .concept "Reptile" }]

/-- Among the statements reported are those on the pet: a mammal is no reptile,
and that a gecko is a reptile is seen through the lizards. -/
theorem pet_conflicts :
    ((ofSettings {}).learnStatements petClasses).2.converged = true ∧
      ∃ places, (ofSettings {}).Reported petClasses petStatements places
        (((ofSettings {}).learnStatements petClasses).1.conflicts petStatements) ∧
        (0, 2) ∈ places := by
  have hc : ((ofSettings {}).learnStatements petClasses).2.converged = true := by decide +kernel
  obtain ⟨places, h⟩ := conflicts_exact (ofSettings {}) petClasses petStatements hc
  have hreg : (ofSettings {}).Registered "Mammal" "Reptile" := areDisjoint_iff.1 (by decide +kernel)
  have hdog : DirectlyBelow petClasses "Dog" "Mammal" :=
    ⟨_, List.mem_cons_self, .inl rfl, rfl, rfl⟩
  have hgecko : DirectlyBelow petClasses "Gecko" "Lizard" :=
    ⟨_, List.mem_cons_of_mem _ List.mem_cons_self, .inl rfl, rfl, rfl⟩
  have hlizard : DirectlyBelow petClasses "Lizard" "Reptile" :=
    ⟨_, List.mem_cons_of_mem _ (List.mem_cons_of_mem _ List.mem_cons_self), .inr rfl, rfl, rfl⟩
  have hcovers : (ofSettings {}).Covers petClasses "Dog" "Gecko" ("Mammal", "Reptile") :=
    ⟨hreg, .single hdog, .tail (.single hgecko) hlizard⟩
  exact ⟨hc, places, h, (h.mem_iff 0 2).2
    ⟨by decide, _, _, rfl, rfl, rfl, _, .taxonomy ⟨.inl rfl, .inr rfl, hcovers⟩⟩⟩

end Ontology

end TripleLogic
