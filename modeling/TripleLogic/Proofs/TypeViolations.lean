/-
TripleLogic.Proofs.TypeViolations — type violations against instance checks.

An entity violates what a constraint demands of its role when its classes are
known and it is no instance of the class demanded (`Violates`). Detection does
not ask for instances: it takes the classes of the entity, to which what is
above them is added already, and looks for one that is a subclass of the class
demanded. It could find one two steps above a class that the entity is put
into, where asking for instances looks one step up.

* `Settled`: ontologies of which the last learning converged, whatever was
  registered since. Their hierarchies are closed under going up
  (`Settled.upClosed`), and there the two ways of asking give one answer
  (`any_isSubclass_classes`).
* `placedViolations`: detection visits each role of each statement once, in
  order (`pairwise_placedViolations`).

Main statement: the reports are those of the roles that are violated, each
once, statement by statement and the domain before the range
(`typeConflicts_exact`).
-/
import Mathlib.Data.List.Forall2
import TripleLogic.Ontology.Conflict
import TripleLogic.Proofs.Pairs
import TripleLogic.Proofs.Reachability

open Relation (TransGen)

namespace TripleLogic

/-! ## Hierarchies that are closed -/

namespace Hierarchy

/-- What is above a superclass is a superclass. -/
def UpClosed (h : Hierarchy) : Prop :=
  ∀ ⦃c d n⦄, d ∈ h.get c → n ∈ h.get d → n ∈ h.get c

/-- Closing that converged leaves a hierarchy closed. -/
theorem upClosed_of_converged {h : Hierarchy} {bound : Nat}
    (hc : (h.close bound).2.converged = true) : (h.close bound).1.UpClosed :=
  fun _ _ _ => mem_get_of_pass (pass_of_converged bound hc)

/-- Closing adds nothing to a hierarchy that is closed. -/
theorem UpClosed.mem_get_close {h : Hierarchy} (hh : h.UpClosed) (bound : Nat) {c n : Name} :
    n ∈ (h.close bound).1.get c ↔ n ∈ h.get c := by
  have hspans : Spans (fun c n => n ∈ h.get c) h := ⟨fun _ _ hn => hn, fun _ _ hn => .single hn⟩
  refine ⟨fun hn => ?_, (hspans.close bound).direct c n⟩
  have hreach := (hspans.close bound).reach c n hn
  clear hn
  induction hreach using TransGen.head_induction_on with
  | single hn => exact hn
  | head hd _ ih => exact hh hd ih

theorem UpClosed.close {h : Hierarchy} (hh : h.UpClosed) (bound : Nat) :
    (h.close bound).1.UpClosed := by
  intro c d n hd hn
  rw [hh.mem_get_close] at hd hn ⊢
  exact hh hd hn

end Hierarchy

namespace Ontology

/-! ## Ontologies of which the last learning converged -/

/-- Ontologies that learned with a closure that converged. What is registered
and closed afterwards leaves them so. -/
inductive Settled : Ontology → Prop
  | learn (o : Ontology) (axioms : List Axiom) (hc : (o.learn axioms).2.converged = true) :
      Settled (o.learn axioms).1
  | addConstraint {o : Ontology} (ho : Settled o) (c : Constraint) : Settled (o.addConstraint c)
  | addDisjoint {o : Ontology} (ho : Settled o) (a b : String) : Settled (o.addDisjoint a b)
  | closeHierarchy {o : Ontology} (ho : Settled o) : Settled o.closeHierarchy.1

theorem hierarchy_addDisjoint (o : Ontology) (a b : String) :
    (o.addDisjoint a b).hierarchy = o.hierarchy := by
  unfold addDisjoint
  split <;> rfl

/-- **A settled ontology has a closed hierarchy.** -/
theorem Settled.upClosed {o : Ontology} (ho : o.Settled) : o.hierarchy.UpClosed := by
  induction ho with
  | learn o axioms hc => exact Hierarchy.upClosed_of_converged hc
  | addConstraint _ c ih => exact ih
  | addDisjoint _ a b ih => exact (hierarchy_addDisjoint _ a b).symm ▸ ih
  | closeHierarchy _ ih => exact ih.close _

/-- Where the hierarchy is closed, one of the classes of an instance, all
superclasses among them, is a subclass of a class just if the instance is
one of that class. -/
theorem any_isSubclass_classes {o : Ontology} (ho : o.hierarchy.UpClosed) (i c : Name) :
    ((o.classes i).any fun d => o.isSubclass d c) = o.isInstance i c := by
  rw [Bool.eq_iff_iff, isInstance_iff, List.any_eq_true]
  simp only [isSubclass_iff, mem_classes]
  constructor
  · rintro ⟨d, hd | ⟨e, he, hd⟩, hdc⟩
    · exact ⟨d, hd, hdc⟩
    · refine ⟨e, he, .inr ?_⟩
      rcases hdc with rfl | hdc
      · exact hd
      · exact ho hd hdc
  · rintro ⟨d, hd, hdc⟩
    exact ⟨d, .inl hd, hdc⟩

end Ontology

/-! ## Violations -/

namespace Role

/-- The entity of a statement in a role. -/
def entity (role : Role) (s : Statement) : Expr :=
  match role with
  | .domain => s.subject
  | .range => s.object

/-- What a constraint demands of the entity in a role. -/
def demanded (role : Role) (c : Constraint) : Data :=
  match role with
  | .domain => c.domain
  | .range => c.range

/-- The roles, in the order in which they are checked. -/
def all : List Role := [.domain, .range]

theorem mem_all (role : Role) : role ∈ all := by
  cases role <;> decide

/-- Places are ordered by statement, and for one statement the domain comes
before the range. -/
def Sooner (p q : Nat × Role) : Prop :=
  p.1 < q.1 ∨ p.1 = q.1 ∧ p.2 = .domain ∧ q.2 = .range

theorem sooner_irrefl (p : Nat × Role) : ¬ Sooner p p := by
  rintro (hlt | ⟨-, hdomain, hrange⟩)
  · exact Nat.lt_irrefl _ hlt
  · cases hdomain.symm.trans hrange

end Role

namespace Ontology

variable {o : Ontology} {s : Statement} {role : Role} {checked : List Statement}

/-- The entity of a statement in a role violates what a constraint demands:
the constraint is the one on the relation and demands a class, the classes of
the entity are known, and it is no instance of the class demanded. -/
structure Violates (o : Ontology) (s : Statement) (role : Role) (c : Constraint) : Prop where
  constrained : o.constraint? s.relation.name = some c
  demands : role.demanded c ≠ .null
  known : o.classes (.text (role.entity s).key) ≠ []
  noInstance :
    o.isInstance (.text (role.entity s).key) (.text (role.demanded c).plain) = false

/-- What is reported of a violation: the entity, the class demanded, and the
known classes in order. -/
def mismatch (o : Ontology) (s : Statement) (role : Role) (c : Constraint) : Clash :=
  .type (role.entity s).key s.relation.name role (role.demanded c)
    (Names.sorted (o.classes (.text (role.entity s).key))) s

/-- What an exact list of reports is, for the places that they are about: a
place is that of a statement, with a role. -/
structure TypesReported (o : Ontology) (checked : List Statement) (places : List (Nat × Role))
    (reports : List Conflict) : Prop where
  /-- The places are those at which a demand is violated. -/
  mem_iff : ∀ i role, (i, role) ∈ places ↔
    ∃ s, checked[i]? = some s ∧ ∃ c, o.Violates s role c
  /-- No place is reported twice. -/
  nodup : places.Nodup
  /-- Reports come statement by statement, the domain before the range. -/
  ordered : places.Pairwise Role.Sooner
  /-- Each report is of the statement and the role of its place. -/
  reports : List.Forall₂ (fun p r => ∃ s c, checked[p.1]? = some s ∧ o.Violates s p.2 c ∧
    r = Conflict.ofClash (o.mismatch s p.2 c)) places reports

/-! ## What is found in one role -/

/-- What is found in a role of a statement. -/
def violationIn? (o : Ontology) (s : Statement) (role : Role) : Option Clash :=
  (o.constraint? s.relation.name).bind fun c =>
    o.violation? s.relation.name role (role.entity s) (role.demanded c) s

/-- Detection looks at the roles of each statement. -/
theorem violations_eq (o : Ontology) (checked : List Statement) :
    o.violations checked = checked.flatMap fun s => Role.all.filterMap (o.violationIn? s) := by
  refine List.flatMap_congr fun s _ => ?_
  cases hc : o.constraint? s.relation.name with
  | none => simp [Role.all, violationIn?, hc]
  | some c =>
      simp only [Role.all, violationIn?, hc, Option.bind_some, List.filterMap_cons,
        List.filterMap_nil, Role.entity, Role.demanded]
      cases o.violation? s.relation.name .domain s.subject c.domain s <;>
        cases o.violation? s.relation.name .range s.object c.range s <;> rfl

/-- A demand on an entity is violated where it is no instance of the class
demanded and its classes are known. -/
theorem violation?_eq_some_iff (ho : o.hierarchy.UpClosed) {relation : String} {e : Expr}
    {expected : Data} {v : Clash} :
    o.violation? relation role e expected s = some v ↔
      expected ≠ .null ∧ o.classes (.text e.key) ≠ [] ∧
        o.isInstance (.text e.key) (.text expected.plain) = false ∧
        v = .type e.key relation role expected (Names.sorted (o.classes (.text e.key))) s := by
  unfold violation?
  split
  · simp
  · next hnull =>
      have hdemands : expected ≠ .null := hnull
      simp only [any_isSubclass_classes ho, Option.ite_none_left_eq_some, Bool.or_eq_true,
        List.isEmpty_iff, not_or, Bool.not_eq_true, Option.some.injEq, eq_comm (b := v), hdemands,
        ne_eq, not_false_eq_true, true_and, and_assoc]

/-- **What is found in a role** is the violation of what is demanded there. -/
theorem violationIn?_eq_some_iff (ho : o.hierarchy.UpClosed) {v : Clash} :
    o.violationIn? s role = some v ↔ ∃ c, o.Violates s role c ∧ v = o.mismatch s role c := by
  rw [violationIn?, Option.bind_eq_some_iff]
  simp only [violation?_eq_some_iff ho]
  constructor
  · rintro ⟨c, hc, hdemands, hknown, hno, hv⟩
    exact ⟨c, ⟨hc, hdemands, hknown, hno⟩, hv⟩
  · rintro ⟨c, ⟨hc, hdemands, hknown, hno⟩, hv⟩
    exact ⟨c, hc, hdemands, hknown, hno, hv⟩

/-! ## Going through statements -/

/-- What is found, each with its place. -/
def placedViolations (o : Ontology) (checked : List Statement) : List ((Nat × Role) × Clash) :=
  checked.zipIdx.flatMap fun p =>
    Role.all.filterMap fun role => (o.violationIn? p.1 role).map fun v => ((p.2, role), v)

/-- The violations are those found, without their places. -/
theorem violations_eq_placed (o : Ontology) (checked : List Statement) :
    o.violations checked = (o.placedViolations checked).map Prod.snd := by
  rw [violations_eq, placedViolations, List.map_flatMap]
  conv_lhs => rw [← List.zipIdx_map_fst 0 checked, List.flatMap_map]
  refine List.flatMap_congr fun p _ => ?_
  rw [List.map_filterMap]
  refine List.filterMap_congr fun role _ => ?_
  rw [Option.map_map]
  exact Option.map_id'.symm

theorem mem_placedViolations {p : Nat × Role} {v : Clash} :
    (p, v) ∈ o.placedViolations checked ↔
      ∃ s, checked[p.1]? = some s ∧ o.violationIn? s p.2 = some v := by
  simp only [placedViolations, List.mem_flatMap, List.mem_filterMap, Option.map_eq_some_iff,
    List.mem_zipIdx_iff_getElem?]
  constructor
  · rintro ⟨⟨s, i⟩, hs, role, _, _, hv, heq⟩
    cases heq
    exact ⟨s, hs, hv⟩
  · rintro ⟨s, hs, hv⟩
    exact ⟨(s, p.1), hs, p.2, Role.mem_all _, v, hv, rfl⟩

/-- What is found comes in the order of places. -/
theorem pairwise_placedViolations (o : Ontology) (checked : List Statement) :
    ((o.placedViolations checked).map Prod.fst).Pairwise Role.Sooner := by
  refine List.pairwise_map.2 (List.pairwise_flatMap.2 ⟨fun p _ => ?_, ?_⟩)
  · -- Within one statement the places differ in their roles only.
    refine List.pairwise_filterMap.2 ?_
    have hroles : Role.all.Pairwise fun r q => r = .domain ∧ q = .range := by
      simp [Role.all]
    refine hroles.imp fun {r q} hrq x hx y hy => ?_
    obtain ⟨_, _, rfl⟩ := Option.map_eq_some_iff.1 hx
    obtain ⟨_, _, rfl⟩ := Option.map_eq_some_iff.1 hy
    exact .inr ⟨rfl, hrq⟩
  · refine (pairwise_zipIdx checked).imp fun {p q} hpq x hx y hy => .inl ?_
    obtain ⟨_, _, hx⟩ := List.mem_filterMap.1 hx
    obtain ⟨_, _, hy⟩ := List.mem_filterMap.1 hy
    obtain ⟨_, _, rfl⟩ := Option.map_eq_some_iff.1 hx
    obtain ⟨_, _, rfl⟩ := Option.map_eq_some_iff.1 hy
    exact hpq

/-- **Type violations agree with instance checks.** Where the last learning
converged, whatever was registered since, the reports on a list of statements
are those of the roles in which the entity is of known classes and no instance
of the class demanded, each once, statement by statement and the domain before
the range. -/
theorem typeConflicts_exact (ho : o.Settled) (checked : List Statement) :
    ∃ places, o.TypesReported checked places (o.typeConflicts checked) := by
  have hordered := pairwise_placedViolations o checked
  refine ⟨_, ⟨fun i role => ⟨?_, ?_⟩, ?_, hordered, ?_⟩⟩
  · intro hi
    obtain ⟨⟨p, v⟩, hpv, rfl⟩ := List.mem_map.1 hi
    obtain ⟨s, hs, hv⟩ := mem_placedViolations.1 hpv
    obtain ⟨c, hc, _⟩ := (violationIn?_eq_some_iff ho.upClosed).1 hv
    exact ⟨s, hs, c, hc⟩
  · rintro ⟨s, hs, c, hc⟩
    have hv := (violationIn?_eq_some_iff ho.upClosed).2 ⟨c, hc, rfl⟩
    exact List.mem_map.2 ⟨_, mem_placedViolations.2 ⟨s, hs, hv⟩, rfl⟩
  · refine hordered.imp fun {p q} hpq (heq : p = q) => ?_
    exact Role.sooner_irrefl q (heq ▸ hpq)
  · rw [typeConflicts, violations_eq_placed, List.map_map, List.forall₂_map_left_iff,
      List.forall₂_map_right_iff, List.forall₂_same]
    intro e he
    obtain ⟨s, hs, hv⟩ := mem_placedViolations.1 he
    obtain ⟨c, hc, heq⟩ := (violationIn?_eq_some_iff ho.upClosed).1 hv
    exact ⟨s, c, hs, hc, congrArg Conflict.ofClash heq⟩

/-- A dog, which is a physical object two steps up, and an idea. -/
def knownThings : List Statement :=
  [{ subject := .concept "rex", relation := { name := "instance_of" }, object := .concept "Dog" },
   { subject := .concept "Dog", relation := { name := "is_a" }, object := .concept "Animal" },
   { subject := .concept "Animal", relation := { name := "subclass_of" },
     object := .concept "PhysicalObject" },
   { subject := .concept "idea", relation := { name := "instance_of" },
     object := .concept "Thought" }]

/-- Temperatures of the two: one of them a number, the other one the dog. -/
def temperatures : List Statement :=
  [{ subject := .concept "rex", relation := { name := "has_temperature" },
     object := .literal (.num (.int 38)) },
   { subject := .concept "idea", relation := { name := "has_temperature" },
     object := .concept "rex" }]

/-- Both roles of the second statement are reported, and neither of the first:
the dog is a physical object, and about the number nothing is known. -/
theorem temperatures_reported :
    ((ofSettings {}).learnStatements knownThings).1.Settled ∧
      ∃ places, ((ofSettings {}).learnStatements knownThings).1.TypesReported temperatures places
        (((ofSettings {}).learnStatements knownThings).1.typeConflicts temperatures) ∧
        (∀ role, (1, role) ∈ places) ∧ ∀ role, (0, role) ∉ places := by
  have ho : ((ofSettings {}).learnStatements knownThings).1.Settled :=
    .learn _ _ (by decide +kernel)
  have hdemand : ((ofSettings {}).learnStatements knownThings).1.constraint? "has_temperature"
      = some (demand "has_temperature" "PhysicalObject" "Temperature" (some .one)) := by rfl
  obtain ⟨places, h⟩ := typeConflicts_exact ho temperatures
  refine ⟨ho, places, h, fun role => ?_, fun role hmem => ?_⟩
  · refine (h.mem_iff 1 role).2 ⟨_, rfl,
      demand "has_temperature" "PhysicalObject" "Temperature" (some .one), ?_⟩
    cases role with
    | domain => exact ⟨hdemand, nofun, by decide +kernel, by decide +kernel⟩
    | range => exact ⟨hdemand, nofun, by decide +kernel, by decide +kernel⟩
  · obtain ⟨s, hs, c, hc⟩ := (h.mem_iff 0 role).1 hmem
    cases hs
    cases hdemand.symm.trans hc.constrained
    cases role with
    | domain => exact absurd hc.noInstance (by decide +kernel)
    | range => exact hc.known (by decide +kernel)

end Ontology

end TripleLogic
