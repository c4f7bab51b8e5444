/-
TripleLogic.Ontology.Conflict — statements that an ontology does not allow
together, and entities that are not of the classes that a relation demands.
The classes of these ontologies are named by texts.

Two statements about one subject clash when they put it into two disjoint
classes, give two values to a relation that admits one, or use relations
that exclude each other; the first of these that applies is reported. A type
violation concerns one statement, and only entities whose classes are known.
-/
import TripleLogic.Node.Basic
import TripleLogic.Ontology.Basic
import TripleLogic.Statement.Record

namespace TripleLogic

/-- The kinds of conflicts. -/
inductive ConflictKind where
  | taxonomy
  | property
  | cardinality
  | type
  | disjointValues
  deriving DecidableEq, Repr

namespace ConflictKind

/-- The word for a kind of conflict. -/
def word : ConflictKind → String
  | .taxonomy => "taxonomy"
  | .property => "property"
  | .cardinality => "cardinality"
  | .type => "type"
  | .disjointValues => "disjoint_values"

/-- The kind of conflict that a word stands for. -/
def ofWord? : String → Option ConflictKind
  | "taxonomy" => some .taxonomy
  | "property" => some .property
  | "cardinality" => some .cardinality
  | "type" => some .type
  | "disjoint_values" => some .disjointValues
  | _ => none

end ConflictKind

/-- How severe a conflict is. -/
inductive Severity where
  | critical
  | major
  | minor
  | informational
  deriving DecidableEq, Repr

namespace Severity

/-- The word for a severity. -/
def word : Severity → String
  | .critical => "critical"
  | .major => "major"
  | .minor => "minor"
  | .informational => "informational"

/-- The severity that a word stands for. -/
def ofWord? : String → Option Severity
  | "critical" => some .critical
  | "major" => some .major
  | "minor" => some .minor
  | "informational" => some .informational
  | _ => none

end Severity

/-- The two roles of entities in a statement. -/
inductive Role where
  | domain
  | range
  deriving DecidableEq, Repr

/-- The word for a role. -/
def Role.word : Role → String
  | .domain => "domain"
  | .range => "range"

/-- What an ontology does not allow. -/
inductive Clash where
  /-- A subject in two classes; `witness` is the disjoint pair that covers them. -/
  | taxonomy (subject class1 class2 : String) (witness : String × String)
  /-- Two values of a relation that admits one. -/
  | cardinality (subject relation value1 value2 : String)
  /-- Two relations that exclude each other. -/
  | disjointValues (subject relation1 relation2 value1 value2 : String)
  /-- An entity of known classes, none of which is the expected one. -/
  | type (entity relation : String) (role : Role) (expected : Data) (classes : List String)
      (statement : Statement)
  deriving Repr

namespace Clash

/-- The kind of a clash. -/
def kind : Clash → ConflictKind
  | .taxonomy .. => .taxonomy
  | .cardinality .. => .cardinality
  | .disjointValues .. => .disjointValues
  | .type .. => .type

/-- The severity of a clash. -/
def severity : Clash → Severity
  | .taxonomy .. => .critical
  | .cardinality .. => .major
  | .disjointValues .. => .critical
  | .type .. => .minor

/-- The reason of a clash. -/
def reason : Clash → String
  | .taxonomy _ c d _ => "Cannot be both " ++ c ++ " and " ++ d ++ " (disjoint classes)"
  | .cardinality _ r _ _ =>
      "Property " ++ r ++ " has cardinality 'one' but multiple different values assigned"
  | .disjointValues _ r s _ _ => "Properties " ++ r ++ " and " ++ s ++ " are mutually exclusive"
  | .type e r role expected _ _ =>
      e ++ " is not a " ++ expected.plain ++ " (" ++ role.word ++ " of " ++ r ++ ")"

/-- The details of a clash as fields. The disjoint pair of a taxonomy clash
is given when it differs from the two classes. -/
def details : Clash → Fields
  | .taxonomy s c d w =>
      [("subject", .str s), ("class1", .str c), ("class2", .str d)]
        ++ (if w == (c, d) then [] else [("disjoint_pair", .texts [w.1, w.2])])
  | .cardinality s r v w =>
      [("subject", .str s), ("property", .str r), ("value1", .str v), ("value2", .str w)]
  | .disjointValues s p q v w =>
      [("subject", .str s), ("property1", .str p), ("property2", .str q), ("value1", .str v),
       ("value2", .str w)]
  | .type e r role expected classes statement =>
      [("entity", .str e), ("property", .str r), ("role", .str role.word),
       ("expected", expected), ("classes", .texts classes),
       ("statement", statement.toData)]

end Clash

namespace Ontology

/-- A relation that puts its subject into a class. -/
def isTaxonomic (relation : String) : Bool :=
  relation == "is_a" || relation == "instance_of"

/-- A class and the classes above it, in order. -/
def atOrAbove (o : Ontology) (c : String) : List String :=
  Names.sorted (Names.union [.text c] (o.hierarchy.get (.text c)))

/-- A disjoint pair that covers two classes: the classes themselves, or else
the first pair of classes at or above them, in the order of names. -/
def disjointWitness (o : Ontology) (a b : String) : Option (String × String) :=
  if o.areDisjoint a b then some (a, b)
  else
    (o.atOrAbove a).findSome? fun x => (o.atOrAbove b).findSome? fun y =>
      if o.areDisjoint x y then some (x, y) else none

/-- The clash of two statements that put a subject into disjoint classes. -/
def taxonomyClash (o : Ontology) (s t : Statement) : Option Clash :=
  if isTaxonomic s.relation.name && isTaxonomic t.relation.name then
    (o.disjointWitness s.object.key t.object.key).map fun w =>
      .taxonomy s.subject.key s.object.key t.object.key w
  else none

/-- The clash of two statements that give two values where one is admitted. -/
def cardinalityClash (o : Ontology) (s t : Statement) : Option Clash :=
  match o.constraint? s.relation.name with
  | some c =>
      if s.relation.name == t.relation.name && c.cardinality == some .one
          && s.object.key != t.object.key then
        some (.cardinality s.subject.key s.relation.name s.object.key t.object.key)
      else none
  | none => none

/-- Whether the constraint on a relation excludes another relation. -/
def excludes (o : Ontology) (r q : String) : Bool :=
  match o.constraint? r with
  | some c => c.disjointWith.any fun d => d.isText q
  | none => false

/-- The clash of two statements whose relations exclude each other. -/
def exclusionClash (o : Ontology) (s t : Statement) : Option Clash :=
  if o.excludes s.relation.name t.relation.name || o.excludes t.relation.name s.relation.name
  then some (.disjointValues s.subject.key s.relation.name t.relation.name s.object.key
    t.object.key)
  else none

/-- The first clash of two statements about one subject. -/
def clash? (o : Ontology) (s t : Statement) : Option Clash :=
  if s.subject.key != t.subject.key then none
  else o.taxonomyClash s t <|> o.cardinalityClash s t <|> o.exclusionClash s t

/-- The subjects of statements, in the order in which they are first met. -/
def subjects (statements : List Statement) : List String :=
  (statements.map fun s => s.subject.key).eraseDups

/-- The clashes within a list of statements, each with its two statements,
the earlier one first. -/
def clashesWithin (o : Ontology) : List Statement → List (Clash × Statement × Statement)
  | [] => []
  | s :: rest =>
      rest.filterMap (fun t => (o.clash? s t).map fun c => (c, s, t)) ++ clashesWithin o rest

/-- The clashes among statements, subject by subject. -/
def clashes (o : Ontology) (statements : List Statement) :
    List (Clash × Statement × Statement) :=
  (subjects statements).flatMap fun k =>
    o.clashesWithin (statements.filter fun s => s.subject.key == k)

/-- The violation of a demand on an entity: its classes are known and none
of them is the expected one or below it. Null demands nothing. -/
def violation? (o : Ontology) (relation : String) (role : Role) (e : Expr)
    (expected : Data) (s : Statement) : Option Clash :=
  match expected with
  | .null => none
  | c =>
      let classes := o.classes (.text e.key)
      if classes.isEmpty || classes.any (fun d => o.isSubclass d (.text c.plain)) then none
      else some (.type e.key relation role c (Names.sorted classes) s)

/-- The type violations of statements: of the subject first, then of the object. -/
def violations (o : Ontology) (statements : List Statement) : List Clash :=
  statements.flatMap fun s =>
    match o.constraint? s.relation.name with
    | none => []
    | some c =>
        (o.violation? s.relation.name .domain s.subject c.domain s).toList
          ++ (o.violation? s.relation.name .range s.object c.range s).toList

end Ontology

/-! ## Reports -/

/-- A conflict as it is reported: whether there is one, its kind, severity
and reason, and details as fields. -/
structure Conflict where
  found : Bool
  kind : Option ConflictKind := none
  severity : Option Severity := none
  reason : Option String := none
  details : Fields := []
  deriving Repr

namespace Conflict

/-- The report of a clash. -/
def ofClash (c : Clash) : Conflict :=
  { found := true, kind := some c.kind, severity := some c.severity, reason := some c.reason,
    details := c.details }

/-- The report of a clash of two statements, which the details hold. -/
def ofPair (c : Clash × Statement × Statement) : Conflict :=
  { ofClash c.1 with
    details := c.1.details
      ++ [("statement1", c.2.1.toData), ("statement2", c.2.2.toData)] }

/-- The report of two statements that may clash. -/
def ofClash? : Option Clash → Conflict
  | some c => ofClash c
  | none => { found := false }

/-- A report as plain data. -/
def toData (c : Conflict) : Fields :=
  [("conflict_type", .ofText? (c.kind.map ConflictKind.word)),
   ("severity", .ofText? (c.severity.map Severity.word)), ("reason", .ofText? c.reason),
   ("details", .obj c.details)]

/-- The edge that shows a conflict at a place of a list, counted from one. -/
def edge (c : Conflict) (i : Nat) : Edge :=
  { kind := .logical
    source := "statement_" ++ toString i ++ "_a"
    target := "statement_" ++ toString i ++ "_b"
    name := "contradicts"
    confidence := .float (Binary64.ofDecimal false 92 (-2))
    metadata := Metadata.ofFields
      [("contradiction_type", .ofText? (c.kind.map ConflictKind.word)),
       ("reason", .ofText? c.reason),
       ("severity", .ofText? (c.severity.map Severity.word)),
       ("domain_knowledge", (c.details.get? "domain").getD (.str "general"))] }

/-- The edges that show conflicts; a report without a conflict takes a place
and has no edge. -/
def graph (conflicts : List Conflict) : List Node :=
  conflicts.zipIdx.filterMap fun p =>
    if p.1.found then some (.edge (p.1.edge (p.2 + 1))) else none

end Conflict

namespace Ontology

/-- The conflicts among statements. -/
def conflicts (o : Ontology) (statements : List Statement) : List Conflict :=
  (o.clashes statements).map Conflict.ofPair

/-- The type violations of statements, as conflicts. -/
def typeConflicts (o : Ontology) (statements : List Statement) : List Conflict :=
  (o.violations statements).map Conflict.ofClash

end Ontology

end TripleLogic
