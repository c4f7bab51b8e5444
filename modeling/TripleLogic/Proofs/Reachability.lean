/-
TripleLogic.Proofs.Reachability — learning from statements computes
reachability.

A list that an ontology learns from may hold statements and other values. Its
statements with one of two relations are edges between the plain names of
their subjects and objects (`Edge`); what is reached by edges is said without
the ontology, its sets or the order of the list.

* `transGen_learned`: what is above a name along the axioms of statements is
  what is above it along the statements, and it is a text.
* `learnItems_spans`: whether the closure converged or ran into its bound,
  the superclasses lie between the edges and what can be reached.

Main statement: after a closure that converged the superclasses of every name
are what can be reached from it by one or more edges, and then they are the
same for every order of the list (`superclasses_reachable`).
-/
import TripleLogic.Proofs.Hierarchy

open Relation (TransGen)

namespace TripleLogic

theorem Item.mem_statements {items : List Item} {s : Statement} :
    s ∈ Item.statements items ↔ .statement s ∈ items := by
  rw [Item.statements, List.mem_filterMap]
  constructor
  · rintro ⟨i, hi, his⟩
    cases i with
    | statement t => exact Option.some.inj his ▸ hi
    | other v => cases his
  · exact fun hs => ⟨_, hs, rfl⟩

namespace Ontology

/-! ## Learning from statements -/

/-- Learn hierarchy and instances from statements. -/
def learnStatements (o : Ontology) (learned : List Statement) : Ontology × Closure :=
  o.learn (learned.map Axiom.ofStatement)

/-- A learned statement puts one class directly below another. -/
def DirectlyBelow (learned : List Statement) (x y : String) : Prop :=
  ∃ s ∈ learned, (s.relation.name = "is_a" ∨ s.relation.name = "subclass_of") ∧
    s.subject.key = x ∧ s.object.key = y

variable {learned : List Statement}

theorem below_learned {c n : Name} :
    Below (learned.map Axiom.ofStatement) c n ↔
      ∃ x y, c = .text x ∧ n = .text y ∧ DirectlyBelow learned x y := by
  simp only [Below, Axiom.Links, DirectlyBelow, List.mem_map, hierarchyRelations,
    List.mem_cons, List.not_mem_nil, or_false]
  constructor
  · rintro ⟨_, ⟨s, hs, rfl⟩, hr, hc, hn⟩
    exact ⟨_, _, (Option.some.inj hc).symm, (Option.some.inj hn).symm, s, hs, hr, rfl, rfl⟩
  · rintro ⟨_, _, rfl, rfl, s, hs, hr, rfl, rfl⟩
    exact ⟨_, ⟨s, hs, rfl⟩, hr, rfl, rfl⟩

/-- What can be reached among names can be reached among texts. -/
theorem transGen_learned {x : String} {n : Name} :
    TransGen (Below (learned.map Axiom.ofStatement)) (.text x) n ↔
      ∃ y, n = .text y ∧ TransGen (DirectlyBelow learned) x y := by
  constructor
  · intro h
    induction h with
    | single hn =>
        obtain ⟨x', y, hx, rfl, hxy⟩ := below_learned.1 hn
        cases hx
        exact ⟨y, rfl, .single hxy⟩
    | tail _ hn ih =>
        obtain ⟨y, rfl, hxy⟩ := ih
        obtain ⟨y', z, hy, rfl, hyz⟩ := below_learned.1 hn
        cases hy
        exact ⟨z, rfl, hxy.tail hyz⟩
  · rintro ⟨y, rfl, h⟩
    exact h.lift Name.text fun a b hab => below_learned.2 ⟨a, b, rfl, rfl, hab⟩

/-! ## Learning from items -/

/-- Learn hierarchy and instances from the statements among items. -/
def learnItems (o : Ontology) (items : List Item) : Ontology × Closure :=
  o.learnStatements (Item.statements items)

/-- A statement of a list, with a relation of the hierarchy, leads from the
name of its subject to the name of its object. -/
def Edge (items : List Item) (x y : String) : Prop :=
  ∃ s, .statement s ∈ items ∧ (s.relation.name = "is_a" ∨ s.relation.name = "subclass_of") ∧
    s.subject.key = x ∧ s.object.key = y

variable {items : List Item}

theorem edge_eq : Edge items = DirectlyBelow (Item.statements items) := by
  funext x y
  simp only [Edge, DirectlyBelow, Item.mem_statements]

/-- Edges do not depend on the order of the list. -/
theorem Edge.perm {items items' : List Item} (hp : items.Perm items') :
    Edge items = Edge items' := by
  funext x y
  simp only [Edge, hp.mem_iff]

/-- A name stands above another one: both are texts, and edges lead from the
one to the other. -/
def Above (items : List Item) (c n : Name) : Prop :=
  ∃ x y, c = .text x ∧ n = .text y ∧ TransGen (Edge items) x y

/-- What is above a name along the axioms of the statements is above it. -/
theorem transGen_items {c n : Name} :
    TransGen (Below ((Item.statements items).map Axiom.ofStatement)) c n ↔ Above items c n := by
  constructor
  · intro h
    obtain ⟨d, hcd, -⟩ := TransGen.head'_iff.1 h
    obtain ⟨x, -, rfl, -, -⟩ := below_learned.1 hcd
    obtain ⟨y, rfl, hxy⟩ := transGen_learned.1 h
    exact ⟨x, y, rfl, rfl, edge_eq ▸ hxy⟩
  · rintro ⟨x, y, rfl, rfl, hxy⟩
    exact transGen_learned.2 ⟨y, rfl, edge_eq ▸ hxy⟩

theorem Above.perm {items items' : List Item} (hp : items.Perm items') :
    Above items = Above items' := by
  funext c n
  rw [Above, Above, Edge.perm hp]

/-- Whatever ends the closure, the superclasses hold what an edge leads to
and nothing that edges do not lead to. -/
theorem learnItems_spans (o : Ontology) (items : List Item) :
    (o.learnItems items).1.hierarchy.Spans
      (Below ((Item.statements items).map Axiom.ofStatement)) :=
  (spans_recorded o _).close _

/-- What is found above a name where learning converged. -/
theorem mem_superclasses_items {o : Ontology} (hc : (o.learnItems items).2.converged = true)
    {c n : Name} : n ∈ (o.learnItems items).1.superclasses c ↔ Above items c n :=
  (mem_superclasses_iff hc).trans transGen_items

/-- **Superclasses are what can be reached.** Whatever an ontology held
before, learning from a list maps every name to what can be reached from it
by one or more edges if the closure converged, and two orders of the list are
then learned alike. Where the bound ended the closure, the names mapped to
still lie between the edges and what can be reached. -/
theorem superclasses_reachable (o : Ontology) (items : List Item) :
    ((o.learnItems items).2.converged = true →
      (∀ c n, n ∈ (o.learnItems items).1.superclasses c ↔ Above items c n) ∧
      ∀ (o' : Ontology) (items' : List Item), items.Perm items' →
        (o'.learnItems items').2.converged = true →
        ∀ c n, n ∈ (o'.learnItems items').1.superclasses c ↔
          n ∈ (o.learnItems items).1.superclasses c) ∧
    (∀ x y, Edge items x y → .text y ∈ (o.learnItems items).1.superclasses (.text x)) ∧
    ∀ c n, n ∈ (o.learnItems items).1.superclasses c → Above items c n := by
  have hspans := learnItems_spans o items
  refine ⟨fun hc => ⟨fun c n => mem_superclasses_items hc, ?_⟩, ?_, ?_⟩
  · intro o' items' hp hc' c n
    rw [mem_superclasses_items hc', mem_superclasses_items hc, Above.perm hp]
  · intro x y hxy
    exact hspans.direct _ _ (below_learned.2 ⟨x, y, rfl, rfl, edge_eq ▸ hxy⟩)
  · intro c n hn
    exact transGen_items.1 (hspans.reach c n hn)

/-- Three classes in a circle, one of them below itself as well, a class below
two of them, and a value that is no statement. -/
def circle : List Item :=
  [.statement { subject := .concept "A", relation := { name := "is_a" }, object := .concept "B" },
   .other (.str "B is_a D"),
   .statement { subject := .concept "D", relation := { name := "is_a" }, object := .concept "B" },
   .statement { subject := .concept "D", relation := { name := "is_a" }, object := .concept "C" },
   .statement { subject := .concept "B", relation := { name := "is_a" }, object := .concept "B" },
   .statement { subject := .concept "B", relation := { name := "subclass_of" },
                object := .identifier "C" },
   .statement { subject := .identifier "C", relation := { name := "is_a" },
                object := .concept "A" }]

/-- Learning the circle converges in both directions, and a class of it stands
above itself. -/
theorem circle_superclasses :
    ((ofSettings {}).learnItems circle).2.converged = true ∧
      ((ofSettings {}).learnItems circle.reverse).2.converged = true ∧
      Above circle (.text "A") (.text "A") ∧
      ∀ c n, n ∈ ((ofSettings {}).learnItems circle.reverse).1.superclasses c ↔
        n ∈ ((ofSettings {}).learnItems circle).1.superclasses c := by
  have hc : ((ofSettings {}).learnItems circle).2.converged = true := by decide +kernel
  have hc' : ((ofSettings {}).learnItems circle.reverse).2.converged = true := by decide +kernel
  have h := (superclasses_reachable (ofSettings {}) circle).1 hc
  refine ⟨hc, hc', (h.1 _ _).1 (by decide +kernel), ?_⟩
  exact h.2 (ofSettings {}) circle.reverse (List.reverse_perm circle).symm hc'

end Ontology

end TripleLogic
