/-
TripleLogic.Ontology.Basic — ontologies: constraints on relations, disjoint
classes, and a hierarchy of classes and instances learned from statements.

All names are plain: concepts and identifiers go by their names. What the
hierarchy is learned from are axioms, which come from statements or from
documents. A class is a subclass of itself.
-/
import TripleLogic.Ontology.Constraint
import TripleLogic.Ontology.Hierarchy
import TripleLogic.Settings
import TripleLogic.Statement.Basic

namespace TripleLogic

/-- An ontology. Constraints are kept in the order in which their relations
were first met, one for each relation; disjoint classes as pairs of which
the order does not count. -/
structure Ontology where
  settings : OntologySettings := {}
  hierarchy : Hierarchy := []
  instances : Hierarchy := []
  constraints : List Constraint := []
  disjoint : List (String × String) := []
  deriving Repr, Inhabited

/-- What is handed to an ontology: statements, and other values, which are
passed over. -/
inductive Item where
  | statement (s : Statement)
  | other (value : Data)
  deriving Repr, Inhabited

/-- The statements among items, in order. -/
def Item.statements (items : List Item) : List Statement :=
  items.filterMap fun
    | .statement s => some s
    | .other _ => none

/-- What is said about the hierarchy: two names, as they are given, and the
relation between them. -/
structure Axiom where
  subject : Data
  relation : String
  object : Data
  deriving Repr, Inhabited

namespace Axiom

/-- What a statement says, by the plain names of its subject and object. -/
def ofStatement (s : Statement) : Axiom :=
  { subject := .str s.subject.key, relation := s.relation.name, object := .str s.object.key }

/-- The first value of an axiom that is no name. -/
def misnamed? (a : Axiom) : Option Data :=
  [a.subject, a.object].find? Data.isContainer

end Axiom

namespace Ontology

/-- Relations that say that their subject is a subclass of their object. -/
def hierarchyRelations : List String := ["is_a", "subclass_of"]

/-- Relations that say that their subject is an instance of their object. -/
def instanceRelations : List String := ["instance_of"]

/-! ## Constraints and disjoint classes -/

/-- Register a constraint, in place of one on the same relation. -/
def addConstraint (o : Ontology) (c : Constraint) : Ontology :=
  { o with constraints :=
      if o.constraints.any (fun d => d.relation.scalarSame c.relation) then
        o.constraints.map fun d => if d.relation.scalarSame c.relation then c else d
      else o.constraints ++ [c] }

/-- The constraint on a relation. -/
def constraint? (o : Ontology) (relation : String) : Option Constraint :=
  o.constraints.find? fun c => c.relation.isText relation

/-- Whether two classes are registered as disjoint, in either order. -/
def areDisjoint (o : Ontology) (a b : String) : Bool :=
  a != b && o.disjoint.any fun p => (p.1 == a && p.2 == b) || (p.1 == b && p.2 == a)

/-- Register two classes as disjoint. A class is not disjoint from itself. -/
def addDisjoint (o : Ontology) (a b : String) : Ontology :=
  if a == b || o.areDisjoint a b then o else { o with disjoint := o.disjoint ++ [(a, b)] }

/-- A constraint whose names are texts. -/
def demand (relation domain range : String) (cardinality : Option Cardinality) : Constraint :=
  { relation := .str relation, domain := .str domain, range := .str range, cardinality }

/-- The constraints of common sense. -/
def defaultConstraints : List Constraint :=
  [demand "has_temperature" "PhysicalObject" "Temperature" (some .one),
   demand "shape" "PhysicalObject" "Shape" (some .one),
   demand "age" "Entity" "Number" (some .one),
   { demand "is_alive" "Organism" "Boolean" none with disjointWith := [.str "is_dead"] },
   demand "located_at" "PhysicalObject" "Location" (some .one),
   { relation := .str "same_as", symmetric := .bool true },
   { relation := .str "equivalent_to", symmetric := .bool true },
   { relation := .str "is_a", transitive := .bool true },
   { relation := .str "subclass_of", transitive := .bool true }]

/-- The disjoint classes of common sense. -/
def defaultDisjoint : List (String × String) :=
  [("Mammal", "Reptile"), ("Mammal", "Bird"), ("Mammal", "Fish"), ("Reptile", "Bird"),
   ("Reptile", "Fish"), ("Bird", "Fish"), ("Animal", "Plant"), ("Organic", "Inorganic"),
   ("Living", "NonLiving"), ("Solid", "Liquid"), ("Solid", "Gas"), ("Liquid", "Gas"),
   ("Sphere", "Flat"), ("Sphere", "Cube"), ("Flat", "Cube")]

/-- The ontology of given settings, before anything is learned. -/
def ofSettings (settings : OntologySettings) : Ontology :=
  let empty : Ontology := { settings }
  if settings.seedDefaults then
    let seeded := defaultConstraints.foldl addConstraint empty
    defaultDisjoint.foldl (fun o p => o.addDisjoint p.1 p.2) seeded
  else empty

/-! ## Hierarchy -/

/-- Add what an axiom says to a hierarchy; a value with parts is no name. -/
def extended (h : Hierarchy) (a : Axiom) : Hierarchy :=
  match Name.ofData? a.subject, Name.ofData? a.object with
  | some c, some n => h.add c n
  | _, _ => h

/-- Record what an axiom says about the hierarchy or its instances. -/
def record (o : Ontology) (a : Axiom) : Ontology :=
  if hierarchyRelations.contains a.relation then
    { o with hierarchy := extended o.hierarchy a }
  else if instanceRelations.contains a.relation then
    { o with instances := extended o.instances a }
  else o

/-- Close the hierarchy within the bound of the settings. -/
def closeHierarchy (o : Ontology) : Ontology × Closure :=
  let (hierarchy, r) := o.hierarchy.close o.settings.maxClosurePasses
  ({ o with hierarchy }, r)

/-- Learn hierarchy and instances from axioms, from scratch, and close the
hierarchy. -/
def learn (o : Ontology) (axioms : List Axiom) : Ontology × Closure :=
  (axioms.foldl record { o with hierarchy := [], instances := [] }).closeHierarchy

/-- A hierarchy that has a concept, perhaps without superclasses. -/
def touched (h : Hierarchy) (d : Data) : Hierarchy :=
  match Name.ofData? d with
  | some c => h.set c (h.get c)
  | none => h

/-- Record the subject of an axiom and nothing more. -/
def recordSubject (o : Ontology) (a : Axiom) : Ontology :=
  if hierarchyRelations.contains a.relation then
    { o with hierarchy := touched o.hierarchy a.subject }
  else { o with instances := touched o.instances a.subject }

/-- Learn from axioms of which some may hold values that are no names. The
first such axiom ends the learning; of it only the subject is recorded. -/
def learnUpTo (o : Ontology) (axioms : List Axiom) : Ontology × Except Fault Closure :=
  let good := axioms.takeWhile fun a => a.misnamed?.isNone
  match axioms.drop good.length with
  | [] => let (o, c) := o.learn axioms; (o, .ok c)
  | a :: _ =>
      let o := good.foldl record { o with hierarchy := [], instances := [] }
      (o.recordSubject a, .error (.misuse (.notKey (a.misnamed?.getD .null))))

/-- Whether a class is another one or below it. -/
def isSubclass (o : Ontology) (a b : Name) : Bool :=
  a == b || (o.hierarchy.get a).contains b

/-- The superclasses of a concept. -/
def superclasses (o : Ontology) (c : Name) : List Name :=
  o.hierarchy.get c

/-- The classes of an instance, with all their superclasses. -/
def classes (o : Ontology) (i : Name) : List Name :=
  (o.instances.get i).foldl
    (fun names c => Names.union (Names.insert names c) (o.hierarchy.get c)) []

/-- Whether something is an instance of a class, directly or of a subclass. -/
def isInstance (o : Ontology) (i c : Name) : Bool :=
  (o.instances.get i).any fun d => d == c || o.isSubclass d c

/-! ## Description -/

/-- The sizes of the parts of an ontology. -/
def statistics (o : Ontology) : Fields :=
  [("hierarchy_count", .nat o.hierarchy.length), ("instance_count", .nat o.instances.length),
   ("constraint_count", .nat o.constraints.length),
   ("disjoint_pair_count", .nat o.disjoint.length)]

/-- A one-line description. -/
def describe (o : Ontology) : String :=
  "OntologyReasoner(concepts=" ++ toString o.hierarchy.length ++ ", instances="
    ++ toString o.instances.length ++ ", constraints=" ++ toString o.constraints.length ++ ")"

end Ontology

end TripleLogic
