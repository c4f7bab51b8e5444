/-
TripleLogic.Proofs.Graphs — what the ontology document of a graph says, in
whatever order the graph is read.

An index reads a graph if it lists the subjects and objects of each predicate,
each pair once and in any order (`Index.Reads`). What is said about a property
comes from several predicates (`Fact`). Facts about IRIs with one local name are
told of one constraint: to tell a list of facts, one after the other, makes one
constraint for each name, from the facts of that name alone (`foldl_tell`). A
constraint holds on to what it was told in any order, except for its domain and
its range, of which the last one counts (`told_describe`).

Main statement: `documentOf_faithful`.
-/
import Mathlib.Data.List.Forall2
import Mathlib.Data.List.Induction
import Mathlib.Data.List.Nodup
import TripleLogic.Ontology.Rdf
import TripleLogic.Proofs.FirstMet

namespace TripleLogic

/-! ## Documents up to order -/

/-- Two constraints differ at most in the order of what they exclude. -/
structure Constraint.Alike (c d : Constraint) : Prop where
  relation : c.relation = d.relation
  domain : c.domain = d.domain
  range : c.range = d.range
  cardinality : c.cardinality = d.cardinality
  symmetric : c.symmetric = d.symmetric
  transitive : c.transitive = d.transitive
  disjointWith : c.disjointWith.Perm d.disjointWith

/-- Two documents differ at most in the order of what they hold. -/
structure Document.Alike (d e : Document) : Prop where
  axioms : d.axioms.Perm e.axioms
  disjoint : d.disjoint.Perm e.disjoint
  constraints : ∃ cs, d.constraints.Perm cs ∧ List.Forall₂ Constraint.Alike cs e.constraints

namespace Rdf

/-! ## Reading a graph -/

/-- An index lists each subject and object of a predicate of a graph once. -/
structure Index.Reads (index : Index) (g : Graph) : Prop where
  nodup : ∀ p, (index p).Nodup
  mem_iff : ∀ p s o, (s, o) ∈ index p ↔ ⟨s, .iri p, o⟩ ∈ g

/-- The IRIs that a graph relates by a predicate, one pair for each triple. -/
def Graph.links (g : Graph) (predicate : String) : List (String × String) :=
  g.filterMap fun t =>
    if t.predicate = .iri predicate then iris? (t.subject, t.object) else none

theorem iris?_eq_some {x : Term × Term} {l : String × String} :
    iris? x = some l ↔ x = (.iri l.1, .iri l.2) := by
  obtain ⟨a, b⟩ := x
  cases a <;> cases b <;> simp [iris?, Prod.ext_iff]

theorem link_eq_some {p : String} {t : Triple} {l : String × String} :
    (if t.predicate = .iri p then iris? (t.subject, t.object) else none) = some l ↔
      t = ⟨.iri l.1, .iri p, .iri l.2⟩ := by
  obtain ⟨s, q, o⟩ := t
  simp [iris?_eq_some, and_left_comm]

theorem mem_links {index : Index} {p : String} {l : String × String} :
    l ∈ links index p ↔ (.iri l.1, .iri l.2) ∈ index p := by
  simp [links, iris?_eq_some]

theorem Graph.mem_links {g : Graph} {p : String} {l : String × String} :
    l ∈ g.links p ↔ ⟨.iri l.1, .iri p, .iri l.2⟩ ∈ g := by
  simp only [links, List.mem_filterMap, link_eq_some, exists_eq_right]

/-- The pairs of IRIs that an index lists are those of the graph that it reads. -/
theorem Index.Reads.links_perm {index : Index} {g : Graph} (h : index.Reads g) (hg : g.Nodup)
    (p : String) : (Rdf.links index p).Perm (g.links p) := by
  refine (List.perm_ext_iff_of_nodup ?_ ?_).2 fun l => ?_
  · exact (h.nodup p).filterMap fun a b l ha hb =>
      (iris?_eq_some.1 ha).trans (iris?_eq_some.1 hb).symm
  · exact hg.filterMap fun t u l ht hu => (link_eq_some.1 ht).trans (link_eq_some.1 hu).symm
  · rw [mem_links, Graph.mem_links, h.mem_iff]

theorem Graph.mem_pairs {g : Graph} {p : String} {x : Term × Term} :
    x ∈ g.pairs p ↔ ⟨x.1, .iri p, x.2⟩ ∈ g := by
  simp only [pairs, List.mem_flatMap, List.mem_eraseDups, List.mem_map, List.mem_filter,
    decide_eq_true_eq]
  constructor
  · rintro ⟨o, -, t, ⟨⟨ht, hp⟩, rfl⟩, rfl⟩
    exact hp ▸ ht
  · exact fun h => ⟨x.2, ⟨_, ⟨h, rfl⟩, rfl⟩, _, ⟨⟨h, rfl⟩, rfl⟩, rfl⟩

/-- Reading a graph object by object lists each pair once. -/
theorem Graph.reads_pairs {g : Graph} (hg : g.Nodup) : Index.Reads g.pairs g where
  nodup p := by
    refine List.nodup_flatMap.2 ⟨fun o _ => ?_, ?_⟩
    · refine List.Nodup.map_on ?_ ((hg.filter _).filter _)
      rintro ⟨s, q, o⟩ ht ⟨s', q', o'⟩ hu h
      simp_all
    · refine (nodup_eraseDups _).imp fun {o o'} hne => ?_
      simp only [Function.onFun, List.disjoint_left, List.mem_map]
      rintro _ ⟨t, -, rfl⟩ ⟨u, -, h⟩
      exact hne (congrArg Prod.snd h).symm
  mem_iff _ _ _ := mem_pairs

/-! ## Facts about properties -/

/-- What a triple says about a property. -/
inductive Fact where
  /-- It is a member of a class of properties. -/
  | kind (type : String)
  | domain (name : String)
  | range (name : String)
  /-- It excludes another property. -/
  | apart (other : String)
  deriving DecidableEq, Repr

/-- Tell a constraint a fact. -/
def Fact.apply : Fact → Constraint → Constraint
  | .kind type, c => typed type c
  | .domain name, c => { c with domain := .str name }
  | .range name, c => { c with range := .str name }
  | .apart other, c => { c with disjointWith := c.disjointWith ++ [.str other] }

/-- The facts that an index has, each under the name of a property, in the order
in which they are told. -/
def facts (index : Index) : List (String × Fact) :=
  (properties index).map (fun l => (localName l.1, .kind l.2))
    ++ (links index (rdfs "domain")).map (fun l => (localName l.1, .domain (localName l.2)))
    ++ (links index (rdfs "range")).map (fun l => (localName l.1, .range (localName l.2)))
    ++ (links index (owl "propertyDisjointWith")).map
        (fun l => (localName l.1, .apart (localName l.2)))

/-- Tell facts, each under the name of a property. -/
def tell (cs : List Constraint) (fact : String × Fact) : List Constraint :=
  revise cs fact.1 fact.2.apply

theorem constraints_eq (index : Index) : constraints index = (facts index).foldl tell [] := by
  simp only [constraints, facts, List.foldl_append, List.foldl_map]
  rfl

/-- The constraint that facts about one name make. -/
def describe (name : String) (fs : List Fact) : Constraint :=
  fs.foldl (fun c f => f.apply c) { relation := .str name }

/-- The facts under a name. -/
def about (name : String) (fs : List (String × Fact)) : List Fact :=
  (fs.filter fun f => f.1 == name).map Prod.snd

/-- A class of properties says nothing of the other fields. -/
theorem typed_eq (type : String) (c : Constraint) : ∃ cardinality symmetric transitive,
    typed type c = { c with cardinality, symmetric, transitive } := by
  unfold typed
  split_ifs <;> exact ⟨_, _, _, rfl⟩

theorem Fact.relation_apply (f : Fact) (c : Constraint) : (f.apply c).relation = c.relation := by
  cases f with
  | kind type =>
      obtain ⟨_, _, _, h⟩ := typed_eq type c
      rw [apply, h]
  | _ => rfl

theorem describe_append (name : String) (fs : List Fact) (f : Fact) :
    describe name (fs ++ [f]) = f.apply (describe name fs) := by
  simp [describe]

theorem relation_describe (name : String) (fs : List Fact) :
    (describe name fs).relation = .str name := by
  induction fs using List.reverseRecOn with
  | nil => rfl
  | append_singleton fs f ih => rw [describe_append, Fact.relation_apply, ih]

/-- What is told under a name is told of its constraint, and makes one if there
is none. -/
theorem revise_map {names : List String} {D : String → Constraint}
    (hD : ∀ n, (D n).relation = .str n) (name : String) (f : Constraint → Constraint) :
    revise (names.map D) name f =
      if name ∈ names then names.map fun n => if n = name then f (D n) else D n
      else names.map D ++ [f { relation := .str name }] := by
  have hrelation : ∀ n, (D n).relation.isText name = (n == name) := fun n => by
    rw [hD, Data.isText]
  simp only [revise, List.any_map, List.map_map, Function.comp_def, hrelation, List.any_beq',
    List.contains_eq_mem, decide_eq_true_eq, beq_iff_eq]

theorem about_concat (name : String) (fs : List (String × Fact)) (f : String × Fact) :
    about name (fs ++ [f]) = if name = f.1 then about name fs ++ [f.2] else about name fs := by
  by_cases h : name = f.1
  · simp [about, h]
  · simp [about, h, Ne.symm h]

theorem about_eq_nil {name : String} {fs : List (String × Fact)} (h : name ∉ fs.map Prod.fst) :
    about name fs = [] := by
  simp only [about, List.map_eq_nil_iff, List.filter_eq_nil_iff, beq_iff_eq]
  exact fun f hf heq => h (heq ▸ List.mem_map_of_mem hf)

/-- **Telling facts** makes one constraint for each name, in the order in which
the names are first met, and each from the facts under its name. -/
theorem foldl_tell (fs : List (String × Fact)) :
    fs.foldl tell [] = (fs.map Prod.fst).eraseDups.map fun n => describe n (about n fs) := by
  -- Telling goes on at the end, so the induction takes facts from there.
  induction fs using List.reverseRecOn with
  | nil => rfl
  | append_singleton fs f ih =>
      have hdescribe : ∀ n, describe n (about n (fs ++ [f])) =
          if n = f.1 then f.2.apply (describe n (about n fs)) else describe n (about n fs) := by
        intro n
        rw [about_concat]
        split
        · exact describe_append n _ f.2
        · rfl
      rw [List.foldl_append, List.foldl_cons, List.foldl_nil, ih, tell,
        revise_map fun n => relation_describe n _]
      simp only [List.mem_eraseDups, hdescribe, List.map_append, List.map_cons, List.map_nil,
        eraseDups_concat]
      split
      · rfl
      · next hnew =>
          have hold : ∀ n ∈ (fs.map Prod.fst).eraseDups, n ≠ f.1 := by
            rintro n hn rfl
            exact hnew (List.mem_eraseDups.1 hn)
          rw [List.map_append, List.map_cons, List.map_nil, if_pos rfl, about_eq_nil hnew]
          congr 1
          exact List.map_congr_left fun n hn => (if_neg (hold n hn)).symm

/-! ## What a constraint holds on to -/

theorem cardinality_typed (type : String) (c : Constraint) : (typed type c).cardinality =
    if type = owl "FunctionalProperty" then some .one else c.cardinality := by
  simp only [typed, beq_iff_eq]
  split_ifs <;> rfl

theorem symmetric_typed (type : String) (c : Constraint) : (typed type c).symmetric =
    if type = owl "SymmetricProperty" then .bool true else c.symmetric := by
  have hne : owl "SymmetricProperty" ≠ owl "FunctionalProperty" := by decide
  simp only [typed, beq_iff_eq]
  split_ifs <;> simp_all

theorem transitive_typed (type : String) (c : Constraint) : (typed type c).transitive =
    if type = owl "TransitiveProperty" then .bool true else c.transitive := by
  have hfunctional : owl "TransitiveProperty" ≠ owl "FunctionalProperty" := by decide
  have hsymmetric : owl "TransitiveProperty" ≠ owl "SymmetricProperty" := by decide
  simp only [typed, beq_iff_eq]
  split_ifs <;> simp_all

/-- A field that one class of properties marks, and that facts of other kinds leave
as it is. -/
theorem mark_describe {β : Type} {field : Constraint → β} {mark : String} {v : β}
    (htyped : ∀ type c, field (typed type c) = if type = mark then v else field c)
    (hkeep : ∀ c domain range disjointWith,
      field { c with domain, range, disjointWith } = field c) (name : String) (fs : List Fact) :
    field (describe name fs) =
      if .kind mark ∈ fs then v else field { relation := .str name } := by
  induction fs using List.reverseRecOn with
  | nil => rfl
  | append_singleton fs f ih =>
      rw [describe_append]
      cases f with
      | kind type =>
          rw [Fact.apply, htyped, ih]
          by_cases htype : type = mark
          · simp [htype]
          · simp [htype, Ne.symm htype]
      | _ => simpa [Fact.apply, hkeep] using ih

theorem flag_eq (p : Prop) [Decidable p] :
    (if p then Data.bool true else .bool false) = .bool (decide p) := by
  split <;> simp_all

theorem cardinality_describe (name : String) (fs : List Fact) :
    (describe name fs).cardinality =
      if .kind (owl "FunctionalProperty") ∈ fs then some .one else none :=
  mark_describe cardinality_typed (fun _ _ _ _ => rfl) name fs

theorem symmetric_describe (name : String) (fs : List Fact) :
    (describe name fs).symmetric = .bool (decide (.kind (owl "SymmetricProperty") ∈ fs)) := by
  rw [← flag_eq]
  exact mark_describe symmetric_typed (fun _ _ _ _ => rfl) name fs

theorem transitive_describe (name : String) (fs : List Fact) :
    (describe name fs).transitive = .bool (decide (.kind (owl "TransitiveProperty") ∈ fs)) := by
  rw [← flag_eq]
  exact mark_describe transitive_typed (fun _ _ _ _ => rfl) name fs

/-- The name that a fact gives as a domain. -/
def Fact.domain? : Fact → Option String
  | .domain name => some name
  | _ => none

/-- The name that a fact gives as a range. -/
def Fact.range? : Fact → Option String
  | .range name => some name
  | _ => none

/-- The name of a property that a fact excludes. -/
def Fact.other? : Fact → Option String
  | .apart other => some other
  | _ => none

/-- A field holds none of no names, and one of several. -/
def Told (v : Data) (names : List String) : Prop :=
  (names = [] ∧ v = .null) ∨ ∃ n ∈ names, v = .str n

/-- A field that some facts set to the names that they give holds one of them. -/
theorem told_describe {field : Constraint → Data} {given : Fact → Option String}
    (hnull : ∀ name, field { relation := .str name } = .null)
    (hset : ∀ f c n, given f = some n → field (f.apply c) = .str n)
    (hkeep : ∀ f c, given f = none → field (f.apply c) = field c) (name : String)
    (fs : List Fact) : Told (field (describe name fs)) (fs.filterMap given) := by
  induction fs using List.reverseRecOn with
  | nil => exact .inl ⟨rfl, hnull name⟩
  | append_singleton fs f ih =>
      rw [describe_append]
      cases hf : given f with
      | none => simpa [hkeep f _ hf, hf] using ih
      | some n => exact .inr ⟨n, by simp [hf], hset f _ n hf⟩

theorem domain_describe (name : String) (fs : List Fact) :
    Told (describe name fs).domain (fs.filterMap Fact.domain?) := by
  refine told_describe (fun _ => rfl) (fun f c n h => ?_) (fun f c h => ?_) name fs
  · cases f <;> cases h
    rfl
  · cases f with
    | kind type =>
        obtain ⟨_, _, _, heq⟩ := typed_eq type c
        rw [Fact.apply, heq]
    | domain n => cases h
    | _ => rfl

theorem range_describe (name : String) (fs : List Fact) :
    Told (describe name fs).range (fs.filterMap Fact.range?) := by
  refine told_describe (fun _ => rfl) (fun f c n h => ?_) (fun f c h => ?_) name fs
  · cases f <;> cases h
    rfl
  · cases f with
    | kind type =>
        obtain ⟨_, _, _, heq⟩ := typed_eq type c
        rw [Fact.apply, heq]
    | range n => cases h
    | _ => rfl

theorem disjointWith_describe (name : String) (fs : List Fact) :
    (describe name fs).disjointWith = (fs.filterMap Fact.other?).map .str := by
  induction fs using List.reverseRecOn with
  | nil => rfl
  | append_singleton fs f ih =>
      rw [describe_append, List.filterMap_append, List.map_append, ← ih]
      cases f with
      | kind type =>
          obtain ⟨_, _, _, heq⟩ := typed_eq type (describe name fs)
          simp [Fact.apply, heq, Fact.other?]
      | _ => simp [Fact.apply, Fact.other?]

/-! ## What an index says about a name -/

/-- The local names that links lead to from a local name. -/
def targets (ls : List (String × String)) (name : String) : List String :=
  (ls.filter fun l => localName l.1 == name).map fun l => localName l.2

theorem about_facts (name : String) (index : Index) :
    about name (facts index) =
      ((properties index).filter fun l => localName l.1 == name).map (fun l => .kind l.2)
        ++ (targets (links index (rdfs "domain")) name).map .domain
        ++ (targets (links index (rdfs "range")) name).map .range
        ++ (targets (links index (owl "propertyDisjointWith")) name).map .apart := by
  simp [about, facts, targets, List.filter_append, List.filter_map, Function.comp_def]

theorem kind_mem_about {name type : String} {index : Index} :
    .kind type ∈ about name (facts index) ↔ type ∈ propertyTypes ∧
      ∃ l ∈ links index (rdf "type"), localName l.1 = name ∧ l.2 = type := by
  simp only [about_facts, properties, List.mem_append, List.mem_map, List.mem_filter,
    List.contains_eq_mem, decide_eq_true_eq, beq_iff_eq, reduceCtorEq, and_false, exists_false,
    or_false, Fact.kind.injEq]
  constructor
  · rintro ⟨l, ⟨⟨hl, hkind⟩, hname⟩, rfl⟩
    exact ⟨hkind, l, hl, hname, rfl⟩
  · rintro ⟨hkind, l, hl, hname, rfl⟩
    exact ⟨l, ⟨⟨hl, hkind⟩, hname⟩, rfl⟩

theorem domain_about (name : String) (index : Index) :
    (about name (facts index)).filterMap Fact.domain? =
      targets (links index (rdfs "domain")) name := by
  simp [about_facts, Function.comp_def, Fact.domain?]

theorem range_about (name : String) (index : Index) :
    (about name (facts index)).filterMap Fact.range? =
      targets (links index (rdfs "range")) name := by
  simp [about_facts, Function.comp_def, Fact.range?]

theorem other_about (name : String) (index : Index) :
    (about name (facts index)).filterMap Fact.other? =
      targets (links index (owl "propertyDisjointWith")) name := by
  simp [about_facts, Function.comp_def, Fact.other?]

/-- The names that facts are told under. -/
theorem mem_names {name : String} {index : Index} : name ∈ (facts index).map Prod.fst ↔
    (∃ l ∈ links index (rdf "type"), l.2 ∈ propertyTypes ∧ localName l.1 = name) ∨
      ∃ p ∈ [rdfs "domain", rdfs "range", owl "propertyDisjointWith"],
        ∃ l ∈ links index p, localName l.1 = name := by
  simp only [facts, properties, List.map_append, List.map_map, List.mem_append, List.mem_map,
    List.mem_filter, List.contains_eq_mem, decide_eq_true_eq, Function.comp_apply, and_assoc,
    List.mem_cons, List.not_mem_nil, or_false, exists_eq_or_imp, exists_eq_left, or_assoc]

/-! ## Documents of graphs -/

/-- Some IRI with a local name is a member of a class. -/
def Graph.HasType (g : Graph) (name type : String) : Prop :=
  ∃ l ∈ g.links (rdf "type"), localName l.1 = name ∧ l.2 = type

instance (g : Graph) (name type : String) : Decidable (g.HasType name type) :=
  inferInstanceAs (Decidable (∃ l ∈ g.links (rdf "type"), localName l.1 = name ∧ l.2 = type))

/-- An IRI has a property type, or an IRI as a domain, as a range or as a
property that it excludes. -/
def Graph.IsProperty (g : Graph) (iri : String) : Prop :=
  (∃ type ∈ propertyTypes, (iri, type) ∈ g.links (rdf "type")) ∨
    ∃ p ∈ [rdfs "domain", rdfs "range", owl "propertyDisjointWith"], ∃ o, (iri, o) ∈ g.links p

/-- A constraint says what a graph says of the IRIs with a local name. -/
structure Graph.Constrains (g : Graph) (name : String) (c : Constraint) : Prop where
  cardinality : c.cardinality =
    if g.HasType name (owl "FunctionalProperty") then some .one else none
  symmetric : c.symmetric = .bool (decide (g.HasType name (owl "SymmetricProperty")))
  transitive : c.transitive = .bool (decide (g.HasType name (owl "TransitiveProperty")))
  domain : Told c.domain (targets (g.links (rdfs "domain")) name)
  range : Told c.range (targets (g.links (rdfs "range")) name)
  disjointWith : c.disjointWith.Perm
    ((targets (g.links (owl "propertyDisjointWith")) name).map .str)

/-- A document says what a graph says: one axiom for each triple that says a
subclass or a member of a class that describes no vocabulary, one pair for each
triple of disjoint classes, and one constraint for each local name of a
property. -/
structure Graph.Tells (g : Graph) (d : Document) : Prop where
  axioms : d.axioms.Perm ((g.links (rdfs "subClassOf")).map subclassAxiom ++
    ((g.links (rdf "type")).filter fun l => l.2 ∉ metaClasses).map memberAxiom)
  disjoint : d.disjoint.Perm ((g.links (owl "disjointWith")).map localNames)
  relations_nodup : (d.constraints.map Constraint.relation).Nodup
  relations : ∀ r, r ∈ d.constraints.map Constraint.relation ↔
    ∃ iri, g.IsProperty iri ∧ r = .str (localName iri)
  constraints : ∀ c ∈ d.constraints, ∀ name, c.relation = .str name → g.Constrains name c

/-- No local name has two different domains or two different ranges. -/
def Graph.Unambiguous (g : Graph) : Prop :=
  ∀ p ∈ [rdfs "domain", rdfs "range"], ∀ l ∈ g.links p, ∀ m ∈ g.links p,
    localName l.1 = localName m.1 → localName l.2 = localName m.2

instance (g : Graph) : Decidable g.Unambiguous :=
  inferInstanceAs (Decidable (∀ p ∈ [rdfs "domain", rdfs "range"], ∀ l ∈ g.links p,
    ∀ m ∈ g.links p, localName l.1 = localName m.1 → localName l.2 = localName m.2))

theorem constraints_eq_map (index : Index) : constraints index =
    ((facts index).map Prod.fst).eraseDups.map fun n => describe n (about n (facts index)) := by
  rw [constraints_eq, foldl_tell]

theorem Index.Reads.mem_links {index : Index} {g : Graph} (h : index.Reads g) {p : String}
    {l : String × String} : l ∈ Rdf.links index p ↔ l ∈ g.links p := by
  rw [Rdf.mem_links, Graph.mem_links, h.mem_iff]

/-- The names that an index has facts under are the local names of the properties
of the graph that it reads. -/
theorem Index.Reads.mem_names {index : Index} {g : Graph} (h : index.Reads g) {name : String} :
    name ∈ (facts index).map Prod.fst ↔ ∃ iri, g.IsProperty iri ∧ localName iri = name := by
  simp only [Rdf.mem_names, h.mem_links, Graph.IsProperty]
  constructor
  · rintro (⟨l, hl, htype, hname⟩ | ⟨p, hp, l, hl, hname⟩)
    · exact ⟨l.1, .inl ⟨l.2, htype, hl⟩, hname⟩
    · exact ⟨l.1, .inr ⟨p, hp, l.2, hl⟩, hname⟩
  · rintro ⟨iri, ⟨type, htype, hl⟩ | ⟨p, hp, o, hl⟩, hname⟩
    · exact .inl ⟨_, hl, htype, hname⟩
    · exact .inr ⟨p, hp, _, hl, hname⟩

theorem Index.Reads.kind_mem {index : Index} {g : Graph} (h : index.Reads g) {type : String}
    (htype : type ∈ propertyTypes) {name : String} :
    .kind type ∈ about name (facts index) ↔ g.HasType name type := by
  simp only [kind_mem_about, htype, true_and, h.mem_links, Graph.HasType]

theorem Index.Reads.targets_perm {index : Index} {g : Graph} (h : index.Reads g) (hg : g.Nodup)
    (p name : String) : (targets (Rdf.links index p) name).Perm (targets (g.links p) name) :=
  ((h.links_perm hg p).filter _).map _

theorem Told.perm {v : Data} {ns ms : List String} (h : Told v ns) (hp : ns.Perm ms) :
    Told v ms := by
  rcases h with ⟨rfl, hv⟩ | ⟨n, hn, hv⟩
  · exact .inl ⟨hp.nil_eq.symm, hv⟩
  · exact .inr ⟨n, hp.mem_iff.1 hn, hv⟩

theorem Index.Reads.constrains {index : Index} {g : Graph} (h : index.Reads g) (hg : g.Nodup)
    (name : String) : g.Constrains name (describe name (about name (facts index))) where
  cardinality := by
    rw [cardinality_describe]
    exact if_congr (h.kind_mem (by decide)) rfl rfl
  symmetric := by
    rw [symmetric_describe]
    exact congrArg Data.bool (decide_eq_decide.2 (h.kind_mem (by decide)))
  transitive := by
    rw [transitive_describe]
    exact congrArg Data.bool (decide_eq_decide.2 (h.kind_mem (by decide)))
  domain := (domain_about name index ▸ domain_describe name _).perm (h.targets_perm hg _ name)
  range := (range_about name index ▸ range_describe name _).perm (h.targets_perm hg _ name)
  disjointWith := by
    rw [disjointWith_describe, other_about]
    exact (h.targets_perm hg _ name).map _

/-- The document that an index makes of the graph that it reads. -/
theorem Index.Reads.tells {index : Index} {g : Graph} (h : index.Reads g) (hg : g.Nodup) :
    g.Tells (documentOf index) where
  axioms := by
    refine ((h.links_perm hg _).map _).append (List.Perm.map _ ?_)
    simpa [memberships] using (h.links_perm hg _).filter _
  disjoint := (h.links_perm hg _).map _
  relations_nodup := by
    simp only [documentOf, constraints_eq_map, List.map_map, Function.comp_def, relation_describe]
    exact (nodup_eraseDups _).map fun a b hab => by cases hab; rfl
  relations r := by
    simp only [documentOf, constraints_eq_map, List.map_map, Function.comp_def, relation_describe]
    rw [List.mem_map]
    simp only [List.mem_eraseDups, h.mem_names]
    constructor
    · rintro ⟨_, ⟨iri, hiri, rfl⟩, rfl⟩
      exact ⟨iri, hiri, rfl⟩
    · rintro ⟨iri, hiri, rfl⟩
      exact ⟨_, ⟨iri, hiri, rfl⟩, rfl⟩
  constraints c hc name hname := by
    simp only [documentOf, constraints_eq_map, List.mem_map] at hc
    obtain ⟨n, -, rfl⟩ := hc
    rw [relation_describe] at hname
    cases hname
    exact h.constrains hg name

theorem Told.unique {v w : Data} {ns : List String} (hv : Told v ns) (hw : Told w ns)
    (hns : ∀ n ∈ ns, ∀ m ∈ ns, n = m) : v = w := by
  rcases hv with ⟨rfl, rfl⟩ | ⟨n, hn, rfl⟩
  · rcases hw with ⟨-, rfl⟩ | ⟨m, hm, -⟩
    · rfl
    · cases hm
  · rcases hw with ⟨rfl, -⟩ | ⟨m, hm, rfl⟩
    · cases hn
    · rw [hns n hn m hm]

theorem Graph.Unambiguous.targets_eq {g : Graph} (hg : g.Unambiguous) {p : String}
    (hp : p ∈ [rdfs "domain", rdfs "range"]) (name : String) :
    ∀ n ∈ targets (g.links p) name, ∀ m ∈ targets (g.links p) name, n = m := by
  simp only [targets, List.forall_mem_map, List.mem_filter, beq_iff_eq]
  rintro l ⟨hl, hlname⟩ m ⟨hm, hmname⟩
  exact hg p hp l hl m hm (hlname.trans hmname.symm)

/-- What a graph says of a local name makes one constraint, if it is
unambiguous. -/
theorem Graph.Constrains.alike {g : Graph} (hg : g.Unambiguous) {name : String}
    {c d : Constraint} (hrelation : c.relation = d.relation) (hc : g.Constrains name c)
    (hd : g.Constrains name d) : c.Alike d where
  relation := hrelation
  domain := hc.domain.unique hd.domain (hg.targets_eq (by simp) name)
  range := hc.range.unique hd.range (hg.targets_eq (by simp) name)
  cardinality := hc.cardinality.trans hd.cardinality.symm
  symmetric := hc.symmetric.trans hd.symmetric.symm
  transitive := hc.transitive.trans hd.transitive.symm
  disjointWith := hc.disjointWith.trans hd.disjointWith.symm

/-- An index that reads a graph reads it in every order of its triples. -/
theorem Index.Reads.perm {index : Index} {g g' : Graph} (h : index.Reads g) (hp : g.Perm g') :
    index.Reads g' where
  nodup := h.nodup
  mem_iff p s o := (h.mem_iff p s o).trans hp.mem_iff

/-- **The document of a graph says what the graph says**, whatever the order in
which the graph is read. If no local name has two domains or two ranges, every
order of the triples gives the same document, up to order. -/
theorem documentOf_faithful {g : Graph} (hg : g.Nodup) {index : Index} (h : index.Reads g) :
    g.Tells (documentOf index) ∧
      (g.Unambiguous → ∀ (g' : Graph) (index' : Index), g.Perm g' → index'.Reads g' →
        (documentOf index).Alike (documentOf index')) := by
  refine ⟨h.tells hg, fun hunambiguous g' index' hperm h' => ?_⟩
  replace h' := h'.perm hperm.symm
  have htells := h.tells hg
  have htells' := h'.tells hg
  refine ⟨htells.axioms.trans htells'.axioms.symm, htells.disjoint.trans htells'.disjoint.symm, ?_⟩
  have hnames : ((facts index).map Prod.fst).eraseDups.Perm
      ((facts index').map Prod.fst).eraseDups := by
    refine (List.perm_ext_iff_of_nodup (nodup_eraseDups _) (nodup_eraseDups _)).2 fun n => ?_
    rw [List.mem_eraseDups, List.mem_eraseDups, h.mem_names, h'.mem_names]
  refine ⟨_, (constraints_eq_map index ▸ hnames.map _ : (constraints index).Perm _), ?_⟩
  rw [documentOf, constraints_eq_map index', List.forall₂_map_left_iff, List.forall₂_map_right_iff,
    List.forall₂_same]
  intro n _
  refine Graph.Constrains.alike hunambiguous ?_ (h.constrains hg n) (h'.constrains hg n)
  rw [relation_describe, relation_describe]

/-- A zoo, with an anonymous subclass, a class that is said to be one, and a
property under two IRIs. -/
def zoo : Graph :=
  let ex := fun name => Term.iri ("http://example.org/zoo#" ++ name)
  [⟨ex "Dog", .iri (rdf "type"), .iri (owl "Class")⟩,
   ⟨ex "Dog", .iri (rdfs "subClassOf"), ex "Mammal"⟩,
   ⟨.blank "b0", .iri (rdfs "subClassOf"), ex "Mammal"⟩,
   ⟨ex "Rex", .iri (rdf "type"), ex "Dog"⟩,
   ⟨ex "Cat", .iri (owl "disjointWith"), ex "Dog"⟩,
   ⟨ex "weight", .iri (rdf "type"), .iri (owl "FunctionalProperty")⟩,
   ⟨.iri "http://example.org/old/weight", .iri (rdfs "domain"), ex "Animal"⟩,
   ⟨ex "weight", .iri (owl "propertyDisjointWith"), ex "age"⟩]

theorem zoo_faithful : zoo.Nodup ∧ Index.Reads zoo.pairs zoo ∧ zoo.Tells (document zoo) ∧
    zoo.Unambiguous ∧ zoo.Perm zoo.reverse ∧
      Index.Reads (Graph.pairs zoo.reverse) zoo.reverse ∧
        (document zoo).Alike (document zoo.reverse) := by
  have hzoo : zoo.Nodup := by decide
  have hreads := Graph.reads_pairs hzoo
  have hunambiguous : zoo.Unambiguous := by decide
  have hperm : zoo.Perm zoo.reverse := (List.reverse_perm zoo).symm
  have hreverse : Index.Reads (Graph.pairs zoo.reverse) zoo.reverse :=
    Graph.reads_pairs (List.nodup_reverse.2 hzoo)
  obtain ⟨htells, halike⟩ := documentOf_faithful hzoo hreads
  exact ⟨hzoo, hreads, htells, hunambiguous, hperm, hreverse,
    halike hunambiguous zoo.reverse _ hperm hreverse⟩

end Rdf

end TripleLogic
