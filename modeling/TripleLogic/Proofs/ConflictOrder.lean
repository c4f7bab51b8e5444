/-
TripleLogic.Proofs.ConflictOrder — conflicts do not depend on which statement
comes first.

An ontology may be in any state: constraints may name each other on one side
only, and a hierarchy whose closure ran into its bound need not be transitive.
Still each of the three checks finds something for two statements if and only
if it does for the same statements the other way round (`kind_taxonomyClash`,
`kind_cardinalityClash`, `kind_exclusionClash`), so the kind of a clash is the
same both ways, and its severity with it (`finding_comm`).

Going through a list in another order pairs the same statements, and the
subjects are the same in another order (`subjects_perm`).

Main statement: the reports on two statements agree but for the details, and
the reports on a list tell the same for every order of it
(`conflicts_unordered`).
-/
import Mathlib.Data.List.Perm.Basic
import Mathlib.Data.Sym.Sym2
import TripleLogic.Proofs.Conflict

namespace TripleLogic

/-- Whether there is a conflict, of which kind and how severe. -/
def Conflict.verdict (c : Conflict) : Bool × Option ConflictKind × Option Severity :=
  (c.found, c.kind, c.severity)

/-- What the report of two statements tells, whichever of them comes first. -/
def Conflict.told (x : Clash × Statement × Statement) :
    Sym2 Statement × Option ConflictKind × Option Severity :=
  (s(x.2.1, x.2.2), (ofPair x).kind, (ofPair x).severity)

/-- Clashes of one kind are equally severe. -/
theorem Clash.severity_of_kind {c d : Clash} (h : c.kind = d.kind) : c.severity = d.severity := by
  cases c <;> cases d <;> simp_all [kind, severity]

namespace Ontology

variable (o : Ontology)

/-! ## Disjoint classes -/

theorem areDisjoint_comm (a b : String) : o.areDisjoint a b = o.areDisjoint b a := by
  rw [Bool.eq_iff_iff, areDisjoint_iff, areDisjoint_iff, Registered, Registered]
  exact and_congr ne_comm or_comm

/-- A class is one of those at or above it. -/
theorem self_mem_atOrAbove (a : String) : a ∈ o.atOrAbove a := by
  rw [atOrAbove, Names.mem_sorted, Names.mem_union]
  exact Or.inl (List.mem_singleton_self _)

/-- A witness is found exactly where some classes at or above the two are disjoint. -/
theorem isSome_disjointWitness_iff (a b : String) :
    (o.disjointWitness a b).isSome = true ↔
      ∃ x ∈ o.atOrAbove a, ∃ y ∈ o.atOrAbove b, o.areDisjoint x y = true := by
  unfold disjointWitness
  split
  · next hab =>
      exact iff_of_true rfl ⟨a, o.self_mem_atOrAbove a, b, o.self_mem_atOrAbove b, hab⟩
  · simp only [List.findSome?_isSome_iff, Option.isSome_ite]

theorem isSome_disjointWitness_comm (a b : String) :
    (o.disjointWitness a b).isSome = (o.disjointWitness b a).isSome := by
  have hswap : ∀ {a b}, (o.disjointWitness a b).isSome = true →
      (o.disjointWitness b a).isSome = true := by
    intro a b h
    obtain ⟨x, hx, y, hy, hxy⟩ := (o.isSome_disjointWitness_iff a b).1 h
    exact (o.isSome_disjointWitness_iff b a).2 ⟨y, hy, x, hx, o.areDisjoint_comm y x ▸ hxy⟩
  exact Bool.eq_iff_iff.2 ⟨hswap, hswap⟩

/-! ## The checks on two statements, both ways -/

/-- The check of classes finds a clash both ways or neither way. -/
theorem kind_taxonomyClash (s t : Statement) :
    (o.taxonomyClash s t).map Clash.kind = (o.taxonomyClash t s).map Clash.kind := by
  have hwitness := o.isSome_disjointWitness_comm s.object.key t.object.key
  unfold taxonomyClash
  rw [Bool.and_comm]
  split
  · cases hst : o.disjointWitness s.object.key t.object.key <;>
      cases hts : o.disjointWitness t.object.key s.object.key <;> simp_all [Clash.kind]
  · rfl

/-- The check of values looks at one constraint both ways. -/
theorem kind_cardinalityClash (s t : Statement) :
    (o.cardinalityClash s t).map Clash.kind = (o.cardinalityClash t s).map Clash.kind := by
  unfold cardinalityClash
  by_cases hrel : s.relation.name = t.relation.name
  · rw [hrel, bne_comm (a := s.object.key)]
    cases o.constraint? t.relation.name with
    | none => rfl
    | some c =>
        dsimp only
        split <;> rfl
  · have hrel' : t.relation.name ≠ s.relation.name := Ne.symm hrel
    cases o.constraint? s.relation.name <;> cases o.constraint? t.relation.name <;>
      simp [hrel, hrel']

/-- The check of relations asks the constraints on both. -/
theorem kind_exclusionClash (s t : Statement) :
    (o.exclusionClash s t).map Clash.kind = (o.exclusionClash t s).map Clash.kind := by
  unfold exclusionClash
  rw [Bool.or_comm]
  split <;> rfl

theorem kind_clash? (s t : Statement) :
    (o.clash? s t).map Clash.kind = (o.clash? t s).map Clash.kind := by
  have hmap : ∀ x y : Option Clash,
      (x <|> y).map Clash.kind = (x.map Clash.kind <|> y.map Clash.kind) := by
    intro x y
    cases x <;> rfl
  unfold clash?
  rw [bne_comm]
  split
  · rfl
  · rw [hmap, hmap, hmap, hmap, o.kind_taxonomyClash s t, o.kind_cardinalityClash s t,
      o.kind_exclusionClash s t]

/-- **Two statements clash both ways**, in one kind and equally severely, or
neither way. -/
theorem clash?_both (s t : Statement) :
    (o.clash? s t = none ∧ o.clash? t s = none) ∨
      ∃ c d, o.clash? s t = some c ∧ o.clash? t s = some d ∧ c.kind = d.kind ∧
        c.severity = d.severity := by
  have hkind := o.kind_clash? s t
  cases hst : o.clash? s t with
  | none =>
      rw [hst, Option.map_none, eq_comm, Option.map_eq_none_iff] at hkind
      exact Or.inl ⟨rfl, hkind⟩
  | some c =>
      rw [hst, Option.map_some, eq_comm, Option.map_eq_some_iff] at hkind
      obtain ⟨d, hts, hcd⟩ := hkind
      exact Or.inr ⟨c, d, rfl, hts, hcd.symm, Clash.severity_of_kind hcd.symm⟩

/-- What is found about two statements, whichever of them comes first. -/
def finding (s t : Statement) : Option (Sym2 Statement × Option ConflictKind × Option Severity) :=
  (o.clash? s t).map fun c => Conflict.told (c, s, t)

theorem finding_comm (s t : Statement) : o.finding s t = o.finding t s := by
  unfold finding
  obtain ⟨hst, hts⟩ | ⟨c, d, hst, hts, hkind, hseverity⟩ := o.clash?_both s t
  · rw [hst, hts]
    rfl
  · rw [hst, hts]
    simp [Conflict.told, Conflict.ofPair, Conflict.ofClash, hkind, hseverity, Sym2.eq_swap]

/-! ## Lists of statements -/

/-- What is told about the statements of one subject is found about their pairs. -/
theorem map_told_clashesWithin (l : List Statement) :
    (o.clashesWithin l).map Conflict.told
      = (pairs l).filterMap fun p => o.finding p.1 p.2 := by
  rw [clashesWithin_eq, List.map_filterMap]
  refine List.filterMap_congr fun p _ => ?_
  rw [Option.map_map]
  rfl

/-- Another order of statements has the same subjects in another order. -/
theorem subjects_perm {l l' : List Statement} (h : l.Perm l') :
    (subjects l).Perm (subjects l') :=
  eraseDups_perm (h.map _)

/-- **Conflicts do not depend on order.** In every state of an ontology, the
reports on two statements agree, whichever comes first, in whether there is a
conflict, its kind and its severity. Two orders of a list get reports that tell
of the same pairs of statements the same kinds and severities, equally often. -/
theorem conflicts_unordered :
    (∀ s t : Statement, (Conflict.ofClash? (o.clash? s t)).verdict
      = (Conflict.ofClash? (o.clash? t s)).verdict) ∧
    ∀ checked checked' : List Statement, checked.Perm checked' →
      ((o.clashes checked).map Conflict.told).Perm ((o.clashes checked').map Conflict.told) := by
  constructor
  · intro s t
    obtain ⟨hst, hts⟩ | ⟨c, d, hst, hts, hkind, hseverity⟩ := o.clash?_both s t
    · rw [hst, hts]
    · rw [hst, hts]
      simp [Conflict.verdict, Conflict.ofClash?, Conflict.ofClash, hkind, hseverity]
  · intro checked checked' h
    simp only [clashes, List.map_flatMap, map_told_clashesWithin]
    refine (subjects_perm h).flatMap fun k _ => ?_
    exact filterMap_pairs_perm o.finding_comm (h.filter _)

end Ontology

end TripleLogic
