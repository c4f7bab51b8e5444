/-
TripleLogic.Ontology.Document — ontologies as documents: constraints,
disjoint classes, and axioms about the hierarchy.
-/
import TripleLogic.Ontology.Basic
import TripleLogic.Statement.Record

namespace TripleLogic

/-- The contents of an ontology document. -/
structure Document where
  constraints : List Constraint := []
  disjoint : List (String × String) := []
  axioms : List Axiom := []
  deriving Repr, Inhabited

namespace Document

/-- Register the constraints and disjoint classes of a document. -/
def apply (d : Document) (o : Ontology) : Ontology :=
  let o := d.constraints.foldl Ontology.addConstraint o
  d.disjoint.foldl (fun o p => o.addDisjoint p.1 p.2) o

/-- Register a document up to the first constraint that cannot be registered
by its relation, which is an error. -/
def register (d : Document) (o : Ontology) : Ontology × Except Fault Unit :=
  let good := d.constraints.takeWhile fun c => !c.relation.isContainer
  match d.constraints.drop good.length with
  | [] => (d.apply o, .ok ())
  | c :: _ => (good.foldl Ontology.addConstraint o, c.assertKey)

/-- Refuse a document that holds a list or an object where a name is wanted. -/
def assertKeys (d : Document) : Except Fault Unit := do
  d.constraints.forM Constraint.assertKey
  match d.axioms.findSome? Axiom.misnamed? with
  | some v => throw (.misuse (.notKey v))
  | none => return ()

/-- Whether a document names all concepts of its hierarchy by texts. -/
def isTextual (d : Document) : Bool :=
  d.axioms.all fun a => a.subject.text?.isSome && a.object.text?.isSome

/-- Leave out a document with other names, of which no order is known. -/
def assertTexts (d : Document) : Except Fault Unit :=
  if d.isTextual then .ok () else .error (.outside .name)

/-- The items of a part of a document; a missing part has none. -/
def itemsOf (fields : Fields) (key : String) : Except Fault (List Data) :=
  match fields.get? key with
  | none => .ok []
  | some d => d.itemsOr

/-- Read a constraint of a document. -/
def constraintOfData (d : Data) : Except Fault Constraint :=
  match Constraint.ofData d with
  | .error (.misuse cause) => .error (.ontology (.constraint d cause))
  | r => r

/-- Read a pair of disjoint classes. -/
def pairOfData (d : Data) : Except Fault (String × String) :=
  match d with
  | .list [a, b] => .ok (a.plain, b.plain)
  | d => .error (.ontology (.notPair d))

/-- A name of an entry about the hierarchy. -/
def nameOf (item : Data) (key : String) : Except Fault Data :=
  match item with
  | .obj fields =>
      match Fields.get? fields key with
      | some d => .ok d
      | none => .error (.misuse (.noSuchKey key))
  | d => .error (.misuse (.noKeys d))

/-- Read an entry about the hierarchy. -/
def entryOfData (subjectKey relation objectKey : String) (item : Data) :
    Except Fault Axiom := do
  let subject ← nameOf item subjectKey
  let object ← nameOf item objectKey
  return { subject, relation, object }

/-- Read the entries about subclasses, then those about instances. -/
def entriesOfData (fields : Fields) : Except Fault (List Axiom) := do
  let subclasses ← (← itemsOf fields "subclasses").mapM
    (entryOfData "child" "subclass_of" "parent")
  let instances ← (← itemsOf fields "instances").mapM
    (entryOfData "instance" "instance_of" "class")
  return subclasses ++ instances

/-- A misused value among the entries about the hierarchy. -/
def withinHierarchy {α : Type} (r : Except Fault α) : Except Fault α :=
  match r with
  | .error (.misuse cause) => .error (.ontology (.hierarchyField cause))
  | r => r

/-- Read a document. -/
def ofData (d : Data) : Except Fault Document :=
  match d with
  | .obj fields => do
      let constraints ← (← itemsOf fields "constraints").mapM constraintOfData
      let disjoint ← (← itemsOf fields "disjoint").mapM pairOfData
      let axioms ← withinHierarchy (entriesOfData fields)
      return { constraints, disjoint, axioms }
  | _ => .error (.ontology .notObject)

/-- An axiom as plain data: a statement about two concepts. -/
def axiomData (a : Axiom) : Data :=
  .obj [("subject", .str ("<" ++ a.subject.plain ++ ">")), ("relation", .str a.relation),
    ("object", .str ("<" ++ a.object.plain ++ ">"))]

/-- A document as plain data. -/
def toData (d : Document) : Data :=
  .obj [("constraints", .list (d.constraints.map Constraint.toData)),
    ("disjoint", .list (d.disjoint.map fun p => .texts [p.1, p.2])),
    ("statements", .list (d.axioms.map axiomData))]

end Document

end TripleLogic
