/-
TripleLogic.Expr.Record — expressions as plain data.

Concepts and variables are texts, numbers and truth values are themselves,
and the other expressions are objects with a `type`. A bare text is an
identifier, or a literal where an attribute's value is read.

Reading is by structural recursion: every field of an object is read once as
an expression and once item by item, and the object's type picks the
readings that it needs.

A record is read to its end before its names are looked at. `load` tells
whether an expression can be built from a value, and gives the expression if
all names in it are texts; `ofData` refuses an expression with other names,
for which there is no form.
-/
import TripleLogic.Expr.Token
import TripleLogic.Fault

namespace TripleLogic

/-- The text that a value is. -/
def Data.text? : Data → Option String
  | .str s => some s
  | _ => none

/-- The parts of a value, or the misuse of going through a value without parts. -/
def Data.itemsOr (d : Data) : Except Fault (List Data) :=
  match d.items? with
  | some xs => .ok xs
  | none => .error (.misuse (.notIterable d))

namespace Expr

/-- Read a bare text: between angle brackets it is a concept, otherwise an
identifier, or a literal where an attribute's value is read and the text is
no variable. -/
def ofString (inAttribute : Bool) (s : String) : Expr :=
  match bracketed? s.toList with
  | some name => .concept (String.ofList name)
  | none => if inAttribute && !isVariableName s then .literal (.str s) else .identifier s

/-- A scalar as a literal; other values are refused. -/
def ofScalar : Data → Except Fault Expr
  | .bool b => .ok (.literal (.bool b))
  | .num n => .ok (.literal (.num n))
  | .str s => .ok (.literal (.str s))
  | d => .error (.misuse (.notAttribute d))

/-- The literal of a value, which may be any. -/
def ofValue : Data → Expr
  | .null => .literal .null
  | .bool b => .literal (.bool b)
  | .num n => .literal (.num n)
  | .str s => .literal (.str s)
  | d => .composite d

/-- A field of an object, with its readings as an expression and item by item. -/
structure Reading where
  value : Data
  whole : Except Fault (Option Expr)
  items : Except Fault (List (Except Fault (Option Expr)))

/-- The reading of a field that an expression of the given kind needs. -/
def part (kind key : String) (readings : List (String × Reading)) : Except Fault Reading :=
  match readings.lookup key with
  | some r => .ok r
  | none => .error (.malformed (.missingPart kind key))

/-- The readings of the items of a field; a missing field has none. -/
def partItems (key : String) (readings : List (String × Reading)) :
    Except Fault (Option (List Expr)) :=
  match readings.lookup key with
  | none => .ok (some [])
  | some r => do readEach id (← r.items)

/-- Build an expression of a kind from the readings of its fields. -/
def build (kind : Data) (readings : List (String × Reading)) : Except Fault (Option Expr) :=
  match kind with
  | .str "Concept" => do
      let r ← part "Concept" "name" readings
      return r.value.text?.map .concept
  | .str "Identifier" => do
      let r ← part "Identifier" "name" readings
      return r.value.text?.map .identifier
  | .str "Literal" => do
      let r ← part "Literal" "value" readings
      return some (ofValue r.value)
  | .str "Unary" => do
      let o ← part "Unary" "operator" readings
      let a ← (← part "Unary" "argument" readings).whole
      return .unary <$> o.value.text? <*> a
  | .str "Binary" => do
      let o ← part "Binary" "operator" readings
      let a ← (← part "Binary" "left" readings).whole
      let b ← (← part "Binary" "right" readings).whole
      return .binary <$> o.value.text? <*> a <*> b
  | .str "Function" => do
      let f ← part "Function" "name" readings
      let as ← partItems "arguments" readings
      return .application <$> f.value.text? <*> as
  | .str "Lambda" => do
      let r ← part "Lambda" "parameters" readings
      let ps ← r.value.itemsOr
      let a ← (← part "Lambda" "body" readings).whole
      return .lambda <$> ps.mapM Data.text? <*> a
  | kind => .error (.malformed (.unknownExpression kind))

mutual

/-- Read an expression; nothing is built where a name in it is no text. With
`inAttribute`, a bare text is a literal. -/
def load : Data → (inAttribute : Bool) → Except Fault (Option Expr)
  | .bool b, _ => .ok (some (.literal (.bool b)))
  | .num n, _ => .ok (some (.literal (.num n)))
  | .str s, inAttribute => .ok (some (ofString inAttribute s))
  | .obj fields, _ =>
      match Fields.get? fields "type" with
      | none => .error (.malformed (.missing "Expression" "type"))
      | some kind => build kind (readings fields)
  | d, _ => .error (.malformed (.noExpression d))

/-- Read the parts of a value as expressions. -/
def loadItems : Data → Except Fault (List (Except Fault (Option Expr)))
  | .list xs => .ok (loadEach xs)
  | .obj fs => .ok (fs.map fun f => .ok (some (ofString false f.1)))
  | .str s => .ok (s.toList.map fun c => .ok (some (ofString false (String.singleton c))))
  | d => .error (.misuse (.notIterable d))

/-- Read the items of a list as expressions. -/
def loadEach : List Data → List (Except Fault (Option Expr))
  | [] => []
  | x :: xs => load x false :: loadEach xs

/-- Read the fields of an object as expressions. -/
def readings : List (String × Data) → List (String × Reading)
  | [] => []
  | (k, v) :: fs => (k, ⟨v, load v false, loadItems v⟩) :: readings fs

end

/-- Read an expression of which all names are texts. -/
def ofData (d : Data) (inAttribute : Bool) : Except Fault Expr :=
  named (load d inAttribute)

/-- A literal as plain data: a text that could be read as something else
becomes an object. -/
def scalarData (inAttribute : Bool) : Scalar → Data
  | .null => .null
  | .bool b => .bool b
  | .num n => .num n
  | .str s =>
      let ambiguous := s.toList.head? == some '<' || isVariableName s
      if inAttribute && !ambiguous then .str s
      else .obj [("type", .str "Literal"), ("value", .str s)]

/-- A bare name as plain data: an attribute's name that is no variable
becomes an object. -/
def identifierData (inAttribute : Bool) (name : String) : Data :=
  if inAttribute && !isVariableName name then
    .obj [("type", .str "Identifier"), ("name", .str name)]
  else .str name

mutual

/-- An expression as plain data. -/
def toData : Expr → (inAttribute : Bool) → Data
  | .concept name, _ => .str ("<" ++ name ++ ">")
  | .identifier name, inAttribute => identifierData inAttribute name
  | .literal s, inAttribute => scalarData inAttribute s
  | .composite d, _ => d
  | .unary o a, _ =>
      .obj [("type", .str "Unary"), ("operator", .str o), ("argument", toData a false)]
  | .binary o a b, _ =>
      .obj [("type", .str "Binary"), ("operator", .str o), ("left", toData a false),
        ("right", toData b false)]
  | .application f as, _ =>
      .obj [("type", .str "Function"), ("name", .str f), ("arguments", .list (toDataAll as))]
  | .lambda ps a, _ =>
      .obj [("type", .str "Lambda"), ("parameters", .texts ps), ("body", toData a false)]

/-- A list of expressions as plain data. -/
def toDataAll : List Expr → List Data
  | [] => []
  | a :: as => toData a false :: toDataAll as

end

end Expr

end TripleLogic
