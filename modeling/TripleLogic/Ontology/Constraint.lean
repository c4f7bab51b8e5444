/-
TripleLogic.Ontology.Constraint — what an ontology demands of a relation.
-/
import TripleLogic.Expr.Record

namespace TripleLogic

/-- How many objects a subject may have under a relation. -/
inductive Cardinality where
  | one
  | many
  deriving DecidableEq, Repr, Inhabited

namespace Cardinality

/-- The word for a cardinality. -/
def word : Cardinality → String
  | .one => "one"
  | .many => "many"

/-- The cardinality that a word stands for. -/
def ofWord? : String → Option Cardinality
  | "one" => some .one
  | "many" => some .many
  | _ => none

theorem ofWord?_word (c : Cardinality) : ofWord? c.word = some c := by
  cases c <;> rfl

end Cardinality

/-- A constraint on a relation: the classes of its subjects and objects, null
if none is demanded, how many objects a subject may have, and the relations
that exclude it. Names are kept as given, and a name that is no text is that
of no relation of a statement. The two flags are kept as given and take no
part in reasoning. -/
structure Constraint where
  relation : Data
  domain : Data := .null
  range : Data := .null
  cardinality : Option Cardinality := none
  disjointWith : List Data := []
  symmetric : Data := .bool false
  transitive : Data := .bool false
  deriving Repr, Inhabited

namespace Constraint

/-- The name of a constraint's record in messages. -/
def recordName : String := "PropertyConstraint"

/-- The fields that a constraint's record may have. -/
def knownFields : List String :=
  ["relation", "domain", "range", "cardinality", "disjoint_with", "symmetric", "transitive"]

/-- Read a cardinality, which is missing or null if there is none. -/
def cardinalityOfData (fields : Fields) : Except Fault (Option Cardinality) :=
  match fields.get? "cardinality" with
  | none => .ok none
  | some .null => .ok none
  | some d =>
      let found := match d with
        | .str s => Cardinality.ofWord? s
        | _ => none
      match found with
      | some c => .ok (some c)
      | none => .error (.misuse (.notMember d "Cardinality"))

/-- Read the relations that exclude a relation. -/
def disjointOfData (fields : Fields) : Except Fault (List Data) :=
  match fields.get? "disjoint_with" with
  | none => .ok []
  | some d => d.itemsOr

/-- Read a constraint. -/
def ofData (d : Data) : Except Fault Constraint :=
  match d with
  | .obj fields => do
      match fields.find? fun f => !knownFields.contains f.1 with
      | some f => throw (.misuse (.unknownField recordName f.1))
      | none => pure ()
      match Fields.get? fields "relation" with
      | none => throw (.misuse (.lacksField recordName "relation"))
      | some relation =>
          let cardinality ← cardinalityOfData fields
          let disjointWith ← disjointOfData fields
          return { relation, cardinality, disjointWith,
                   domain := (Fields.get? fields "domain").getD .null,
                   range := (Fields.get? fields "range").getD .null,
                   symmetric := (Fields.get? fields "symmetric").getD (.bool false),
                   transitive := (Fields.get? fields "transitive").getD (.bool false) }
  | d => .error (.misuse (.notRecord ("aiql.core.types." ++ recordName) d))

/-- A constraint as plain data. -/
def toData (c : Constraint) : Data :=
  .obj [("relation", c.relation), ("domain", c.domain), ("range", c.range),
    ("cardinality", .ofText? (c.cardinality.map Cardinality.word)),
    ("disjoint_with", .list c.disjointWith), ("symmetric", c.symmetric),
    ("transitive", c.transitive)]

/-- Refuse a constraint that cannot be registered by its relation. -/
def assertKey (c : Constraint) : Except Fault Unit :=
  if c.relation.isContainer then .error (.misuse (.notKey c.relation)) else .ok ()

end Constraint

end TripleLogic
