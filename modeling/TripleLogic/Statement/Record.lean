/-
TripleLogic.Statement.Record — statements as plain data.

A statement is an object with `subject`, `relation`, `object` and optional
`attributes`. A relation is a text, or an object with a `name` and a
`tense`; any other value counts as the text that shows it.

As with expressions, `load` gives a statement if all names in it are texts,
and `ofData` refuses one with other names.
-/
import TripleLogic.Expr.Record
import TripleLogic.Statement.Basic

namespace TripleLogic

/-- A field that a record of the given kind needs. -/
def Data.require (d : Data) (what key : String) : Except Fault Data :=
  match d with
  | .obj fields =>
      match Fields.get? fields key with
      | some v => .ok v
      | none => .error (.malformed (.missing what key))
  | _ => .error (.malformed (.notObject what))

/-- A field that may be missing, which counts as null. -/
def Data.optional (d : Data) (key : String) : Data :=
  (d.get? key).getD .null

namespace Relation

/-- Read a relation; none is built where its name is no text. -/
def load (d : Data) : Except Fault (Option Relation) :=
  match d with
  | .obj _ => do
      let name ← d.require "Relation" "name"
      return name.text?.map fun name => { name, tense := d.optional "tense" }
  | d => .ok (some { name := d.plain })

/-- A relation as plain data. -/
def toData (r : Relation) : Data :=
  if r.tense.truthy then .obj [("name", .str r.name), ("tense", r.tense)] else .str r.name

end Relation

namespace Statement

/-- Read the value of an attribute. -/
def loadAttribute (f : String × Data) : Except Fault (Option (String × Expr)) := do
  return (← Expr.load f.2 true).map fun e => (f.1, e)

/-- The attributes of a statement's record; a value that does not count as
present stands for none. -/
def attributeFields (d : Data) : Except Fault Fields :=
  let v := d.optional "attributes"
  if v.truthy then
    match v with
    | .obj fields => .ok fields
    | _ => .error (.malformed .attributesNotObject)
  else .ok []

/-- Read a statement; none is built where a name in it is no text. -/
def load (d : Data) : Except Fault (Option Statement) := do
  let relation ← Relation.load (← d.require "Statement" "relation")
  let fields ← attributeFields d
  let subject ← Expr.load (← d.require "Statement" "subject") false
  let object ← Expr.load (← d.require "Statement" "object") false
  let attributes ← readEach loadAttribute fields
  return make <$> subject <*> relation <*> object <*> attributes

/-- Read a statement of which all names are texts. -/
def ofData (d : Data) : Except Fault Statement :=
  named (load d)

/-- A statement as plain data. -/
def toData (s : Statement) : Data :=
  let triple : Fields :=
    [("subject", s.subject.toData false), ("relation", s.relation.toData),
     ("object", s.object.toData false)]
  match s.attributes with
  | [] => .obj triple
  | as => .obj (triple ++ [("attributes", .obj (as.map fun a => (a.1, a.2.toData true)))])

end Statement

end TripleLogic
