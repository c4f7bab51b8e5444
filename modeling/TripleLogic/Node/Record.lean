/-
TripleLogic.Node.Record — nodes as plain data.

A node is an object whose `type` tells what it is. Reading is by structural
recursion: every field is read once as a node, and the object's type picks
the readings that it needs. A misused value inside a record makes the record
invalid; the record that encloses it names itself in the message.

As with expressions, `load` gives a node if all names in it are texts, and
`ofData` refuses one with other names.
-/
import TripleLogic.Node.Basic
import TripleLogic.Statement.Record

namespace TripleLogic

/-! ## Metadata -/

/-- Add the pairs of a sequence to metadata; the last value of a key wins. A
list or an object is no key. -/
def metadataPairs : (index : Nat) → Metadata → List Data → Except Fault Metadata
  | _, acc, [] => .ok acc
  | i, acc, x :: xs =>
      match x.items? with
      | some [k, v] =>
          if k.isContainer then .error (.misuse (.notKey k))
          else metadataPairs (i + 1) (acc.set k v) xs
      | some ys => .error (.misuse (.pairLength i ys.length))
      | none => .error (.misuse (.pairNotSequence i))

/-- Read metadata: an object, a map or a sequence of pairs; a value that does
not count as present stands for none. -/
def metadataOfData (d : Data) : Except Fault Metadata :=
  if d.truthy then
    match d with
    | .obj fields => .ok (Metadata.ofFields fields)
    | .map entries => .ok entries
    | _ => do metadataPairs 0 [] (← d.itemsOr)
  else .ok []

/-! ## Reading -/

/-- The member of a family of words that a value names. -/
def memberOf {α : Type} (ofWord? : String → Option α) (family : String) (d : Data) :
    Except Fault α :=
  let found := match d with
    | .str s => ofWord? s
    | _ => none
  match found with
  | some a => .ok a
  | none => .error (.misuse (.notMember d family))

/-- A name that may be missing, which null stands for as well. -/
def Data.optionalText? : Data → Option (Option String)
  | .null => some none
  | d => d.text?.map some

/-- Read an intent; none is built where a name in it is no text. -/
def Intent.load (d : Data) : Except Fault (Option Intent) := do
  match ← d.require "Intent" "statements" with
  | .list items =>
      let kind ← d.require "Intent" "kind"
      let statements ← readEach Statement.load items
      let metadata ← metadataOfData (d.optional "metadata")
      return do
        return { kind := ← kind.text?, statements := ← statements,
                 confidence := d.optional "confidence", coherence := d.optional "coherence",
                 metadata }
  | _ => throw (.malformed .statementsNotList)

/-- Read an edge; none is built where a name in it is no text. -/
def Edge.load (d : Data) : Except Fault (Option Edge) := do
  let kind ← d.require "Relationship" "kind"
  let source ← d.require "Relationship" "source"
  let target ← d.require "Relationship" "target"
  let name ← d.require "Relationship" "relation"
  let metadata ← metadataOfData (d.optional "metadata")
  let kind ← memberOf EdgeKind.ofWord? "RelationshipKind" kind
  return do
    return { kind, source := ← source.text?, target := ← target.text?, name := ← name.text?,
             confidence := d.optional "confidence",
             bidirectional := (d.optional "bidirectional").truthy, metadata }

namespace Node

/-- The readings of a record's fields as nodes. -/
abbrev Readings := List (String × Except Fault (Option Node))

/-- The reading of a field that a record of the given kind needs. -/
def part (what key : String) (readings : Readings) : Except Fault (Option Node) :=
  match readings.lookup key with
  | some r => r
  | none => .error (.malformed (.missing what key))

/-- The reading of an operand; a missing or null one is no operand. -/
def operand (d : Data) (key : String) (readings : Readings) :
    Except Fault (Option (Option Node)) :=
  match d.optional key with
  | .null => .ok (some none)
  | _ => do return (← part "LogicalExpression" key readings).map some

/-- Build a compound. Operands are read before the connective is. -/
def buildCompound (d : Data) (readings : Readings) : Except Fault (Option Node) := do
  let op ← d.require "LogicalExpression" "operator"
  let left ← operand d "left" readings
  let right ← operand d "right" readings
  let op ← memberOf Connective.ofWord? "LogicalOperator" op
  return .compound op <$> left <*> right

/-- Build a quantified node. The body is read before the quantifier is. -/
def buildQuantified (d : Data) (readings : Readings) : Except Fault (Option Node) := do
  let quantifier ← d.require "QuantifiedExpression" "quantifier"
  let var ← d.require "QuantifiedExpression" "variable"
  let body ← part "QuantifiedExpression" "body" readings
  let quantifier ← memberOf Quantifier.ofWord? "Quantifier" quantifier
  return .quantified quantifier <$> var.text? <*> body <*> (d.optional "domain").optionalText?

/-- Build a rule. -/
def buildRule (d : Data) (readings : Readings) : Except Fault (Option Node) := do
  let id ← d.require "RuleDefinition" "id"
  let premises ← part "RuleDefinition" "premises" readings
  let conclusion ← part "RuleDefinition" "conclusion" readings
  return do
    return .rule (← id.text?) (← premises) (← conclusion) (← (d.optional "domain").optionalText?)
      (d.optional "bidirectional").truthy (d.optional "confidence")

/-- A misused value inside a record makes the record invalid. -/
def within {α : Type} (record : String) (r : Except Fault α) : Except Fault α :=
  match r with
  | .error (.misuse cause) => .error (.malformed (.invalid record cause))
  | r => r

/-- Build a node of a kind from an object and the readings of its fields. -/
def build (kind : Data) (d : Data) (readings : Readings) : Except Fault (Option Node) :=
  match kind with
  | .str "Intent" => within "Intent" (do return (← Intent.load d).map .intent)
  | .str "LogicalExpression" => within "LogicalExpression" (buildCompound d readings)
  | .str "QuantifiedExpression" => within "QuantifiedExpression" (buildQuantified d readings)
  | .str "RuleDefinition" => within "RuleDefinition" (buildRule d readings)
  | .str "Relationship" => within "Relationship" (do return (← Edge.load d).map .edge)
  | .list _ => .error (.misuse (.notKey kind))
  | .obj _ => .error (.misuse (.notKey kind))
  | _ => .error (.malformed (.unknownNode kind))

mutual

/-- Read a node; none is built where a name in it is no text. -/
def load : Data → Except Fault (Option Node)
  | .obj fields =>
      match Fields.get? fields "type" with
      | none => .error (.malformed (.missing "Node" "type"))
      | some kind => build kind (.obj fields) (readings fields)
  | _ => .error (.malformed (.notObject "Node"))

/-- Read the fields of an object as nodes. -/
def readings : List (String × Data) → List (String × Except Fault (Option Node))
  | [] => []
  | (k, v) :: fs => (k, load v) :: readings fs

end

/-- Read a node of which all names are texts. -/
def ofData (d : Data) : Except Fault Node :=
  named (load d)

/-- Read a knowledge base: a list of nodes, or an object with such a list
under `nodes`. The names in its nodes are texts. -/
def listOfData (d : Data) : Except Fault (List Node) := do
  let d ← match d with
    | .obj _ => d.require "Knowledge base" "nodes"
    | _ => pure d
  match d with
  | .list items => named (readEach load items)
  | _ => throw (.malformed .nodesNotList)

/-! ## Writing -/

/-- A field that is left out when its value is null. -/
def unlessNull (key : String) : Data → Fields
  | .null => []
  | d => [(key, d)]

/-- Metadata, left out when there is none. -/
def metadataField : Metadata → Fields
  | [] => []
  | entries => [("metadata", entries.toData)]

/-- A text that is left out when it is missing. -/
def textField (key : String) : Option String → Fields
  | none => []
  | some s => [(key, .str s)]

mutual

/-- A node as plain data. -/
def toData : Node → Data
  | .intent i =>
      .obj ([("type", .str "Intent"), ("kind", .str i.kind),
        ("statements", .list (i.statements.map Statement.toData))]
        ++ unlessNull "confidence" i.confidence ++ unlessNull "coherence" i.coherence
        ++ metadataField i.metadata)
  | .compound o a b =>
      .obj ([("type", .str "LogicalExpression"), ("operator", .str o.word)]
        ++ operandField "left" a ++ operandField "right" b)
  | .quantified q v a d =>
      .obj ([("type", .str "QuantifiedExpression"), ("quantifier", .str q.word),
        ("variable", .str v), ("body", toData a)] ++ textField "domain" d)
  | .rule i a b d x c =>
      .obj ([("type", .str "RuleDefinition"), ("id", .str i), ("premises", toData a),
        ("conclusion", toData b), ("bidirectional", .bool x)] ++ textField "domain" d
        ++ unlessNull "confidence" c)
  | .edge e =>
      .obj ([("type", .str "Relationship"), ("kind", .str e.kind.word),
        ("source", .str e.source), ("target", .str e.target), ("relation", .str e.name),
        ("bidirectional", .bool e.bidirectional)] ++ unlessNull "confidence" e.confidence
        ++ metadataField e.metadata)

/-- An operand as a field, left out when it is missing. -/
def operandField (key : String) : Option Node → List (String × Data)
  | none => []
  | some a => [(key, toData a)]

end

end Node

end TripleLogic
