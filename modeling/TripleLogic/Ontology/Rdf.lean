/-
TripleLogic.Ontology.Rdf — ontologies from graphs of RDF triples.

Subclasses, class membership, disjoint classes and what is said about
properties are taken from a graph; names are the last parts of IRIs. A graph
is a set of triples in the order in which they were first met. It is read
predicate by predicate (`Index`); `Graph.pairs` goes through the triples of
a predicate object by object.
-/
import TripleLogic.Ontology.Document

namespace TripleLogic.Rdf

/-- A term of a triple. A literal has a tag that tells apart literals of one
text with different languages or datatypes. -/
inductive Term where
  | iri (value : String)
  | blank (label : String)
  | literal (text tag : String)
  deriving DecidableEq, Repr, Inhabited

/-- A triple. -/
structure Triple where
  subject : Term
  predicate : Term
  object : Term
  deriving DecidableEq, Repr, Inhabited

/-- A graph: triples, each once. -/
abbrev Graph := List Triple

/-- The graph of a list of triples. -/
def Graph.ofTriples (triples : List Triple) : Graph :=
  triples.eraseDups

/-- The subjects and objects of a predicate: for each object in the order in
which it is first met, the subjects that have it. -/
def Graph.pairs (g : Graph) (predicate : String) : List (Term × Term) :=
  let own := g.filter fun t => t.predicate = .iri predicate
  let objects := (own.map Triple.object).eraseDups
  objects.flatMap fun o => (own.filter fun t => t.object = o).map fun t => (t.subject, o)

/-! ## Vocabulary -/

/-- A name of the RDF vocabulary. -/
def rdf (name : String) : String := "http://www.w3.org/1999/02/22-rdf-syntax-ns#" ++ name

/-- A name of the RDF Schema vocabulary. -/
def rdfs (name : String) : String := "http://www.w3.org/2000/01/rdf-schema#" ++ name

/-- A name of the OWL vocabulary. -/
def owl (name : String) : String := "http://www.w3.org/2002/07/owl#" ++ name

/-- The classes of properties. -/
def propertyTypes : List String :=
  [rdf "Property", owl "ObjectProperty", owl "DatatypeProperty", owl "FunctionalProperty",
   owl "SymmetricProperty", owl "TransitiveProperty"]

/-- The classes that describe a vocabulary; being one of them is no class
membership. -/
def metaClasses : List String :=
  propertyTypes ++
    [owl "Class", rdfs "Class", owl "Ontology", owl "NamedIndividual",
     owl "AnnotationProperty", rdfs "Datatype"]

/-- The part of a text after the last mark; all of it when there is none. -/
def afterLast (mark : Char) (cs : List Char) : List Char :=
  (cs.reverse.takeWhile (· != mark)).reverse

/-- The last part of an IRI: what follows the last slash, and in that what
follows the last number sign. -/
def localName (iri : String) : String :=
  String.ofList (afterLast '#' (afterLast '/' iri.toList))

/-! ## Documents -/

/-- The subjects and objects of each predicate, in some order. -/
abbrev Index := String → List (Term × Term)

/-- A subject and an object that are both IRIs. -/
def iris? : Term × Term → Option (String × String)
  | (.iri s, .iri o) => some (s, o)
  | _ => none

/-- The subjects and objects of a predicate of which both are IRIs. -/
def links (index : Index) (predicate : String) : List (String × String) :=
  (index predicate).filterMap iris?

/-- The local names of a subject and an object. -/
def localNames (link : String × String) : String × String :=
  (localName link.1, localName link.2)

/-- The axiom that a class is a subclass of another. -/
def subclassAxiom (link : String × String) : Axiom :=
  ⟨.str (localName link.1), "subclass_of", .str (localName link.2)⟩

/-- The axiom that something is a member of a class. -/
def memberAxiom (link : String × String) : Axiom :=
  ⟨.str (localName link.1), "instance_of", .str (localName link.2)⟩

/-- The class memberships of a graph. -/
def memberships (index : Index) : List (String × String) :=
  (links index (rdf "type")).filter fun l => !metaClasses.contains l.2

/-- Change the constraint on a property, which is made if there is none. -/
def revise (cs : List Constraint) (name : String) (f : Constraint → Constraint) :
    List Constraint :=
  if cs.any (fun c => c.relation.isText name) then
    cs.map fun c => if c.relation.isText name then f c else c
  else cs ++ [f { relation := .str name }]

/-- What a class of properties says of its members. -/
def typed (kind : String) (c : Constraint) : Constraint :=
  if kind == owl "FunctionalProperty" then { c with cardinality := some .one }
  else if kind == owl "SymmetricProperty" then { c with symmetric := .bool true }
  else if kind == owl "TransitiveProperty" then { c with transitive := .bool true }
  else c

/-- The properties of a graph, with their classes. -/
def properties (index : Index) : List (String × String) :=
  (links index (rdf "type")).filter fun l => propertyTypes.contains l.2

/-- The constraints of a graph: from classes of properties, then domains,
ranges and disjoint properties. Of several domains or ranges the last
counts. -/
def constraints (index : Index) : List Constraint :=
  let cs := (properties index).foldl (fun cs l => revise cs (localName l.1) (typed l.2)) []
  let cs := (links index (rdfs "domain")).foldl
    (fun cs l => revise cs (localName l.1) fun c => { c with domain := .str (localName l.2) }) cs
  let cs := (links index (rdfs "range")).foldl
    (fun cs l => revise cs (localName l.1) fun c => { c with range := .str (localName l.2) }) cs
  (links index (owl "propertyDisjointWith")).foldl
    (fun cs l => revise cs (localName l.1) fun c =>
      { c with disjointWith := c.disjointWith ++ [.str (localName l.2)] }) cs

/-- The ontology document of a graph that is read by an index. -/
def documentOf (index : Index) : Document :=
  { constraints := constraints index
    disjoint := (links index (owl "disjointWith")).map localNames
    axioms := (links index (rdfs "subClassOf")).map subclassAxiom
      ++ (memberships index).map memberAxiom }

/-- The ontology document of a graph. -/
def document (g : Graph) : Document :=
  documentOf g.pairs

end TripleLogic.Rdf
