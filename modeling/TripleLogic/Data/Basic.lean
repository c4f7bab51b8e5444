/-
TripleLogic.Data.Basic — plain data: what documents, requests and records
are made of.

An object keeps its fields in the order in which they were first set, and
holds each key once. A map is an object of which some key is no text; maps
come from lists of pairs only. Integers and floating-point numbers are kept
apart.
-/
import TripleLogic.Number.Basic

namespace TripleLogic

/-- A value of plain data. -/
inductive Data where
  | null
  | bool (b : Bool)
  | num (n : Number)
  | str (s : String)
  | list (items : List Data)
  | obj (fields : List (String × Data))
  | map (entries : List (Data × Data))
  deriving Repr, Inhabited

/-- Under a key the changed value is found when all values are changed. -/
theorem lookup_map_snd {α β : Type} (f : α → β) (key : String) : ∀ es : List (String × α),
    (es.map fun e => (e.1, f e.2)).lookup key = (es.lookup key).map f
  | [] => rfl
  | (k, x) :: es => by
      simp only [List.map_cons, List.lookup_cons]
      cases key == k with
      | true => rfl
      | false => exact lookup_map_snd f key es

/-- The fields of an object. -/
abbrev Fields := List (String × Data)

namespace Fields

/-- Set a field: a key that is present keeps its place and changes its value. -/
def set (fields : Fields) (key : String) (value : Data) : Fields :=
  if fields.any (fun f => f.1 == key) then
    fields.map fun f => if f.1 == key then (key, value) else f
  else fields ++ [(key, value)]

/-- The value of a field. -/
def get? (fields : Fields) (key : String) : Option Data :=
  fields.lookup key

/-- The keys of an object, in order. -/
def keys (fields : Fields) : List String :=
  fields.map Prod.fst

theorem get?_nil (key : String) : get? [] key = none := rfl

theorem get?_cons (k : String) (value : Data) (fields : Fields) (key : String) :
    get? ((k, value) :: fields) key = if k = key then some value else get? fields key := by
  by_cases h : k = key
  · simp [get?, h]
  · have hk : (key == k) = false := beq_eq_false_iff_ne.2 fun e => h e.symm
    simp [get?, List.lookup_cons, h, hk]

end Fields

namespace Data

/-- An integer as data. -/
def int (n : Int) : Data := .num (.int n)

/-- A natural number as data. -/
def nat (n : Nat) : Data := .num (.int n)

/-- A floating-point number as data. -/
def float (x : Binary64) : Data := .num (.float x)

/-- A list of texts as data. -/
def texts (xs : List String) : Data := .list (xs.map .str)

/-- A text as data, and nothing as null. -/
def ofText? : Option String → Data
  | none => .null
  | some s => .str s

/-- The field of an object; any other value has no fields. -/
def get? : Data → String → Option Data
  | .obj fields, key => Fields.get? fields key
  | _, _ => none

/-- The name that messages give to the kind of a value. -/
def kindName : Data → String
  | .null => "NoneType"
  | .bool _ => "bool"
  | .num (.int _) => "int"
  | .num (.float _) => "float"
  | .str _ => "str"
  | .list _ => "list"
  | .obj _ => "dict"
  | .map _ => "dict"

/-- Whether a value counts as present: null, false, zero and whatever is
empty do not. -/
def truthy : Data → Bool
  | .null => false
  | .bool b => b
  | .num n => !n.isZero
  | .str s => s != ""
  | .list xs => !xs.isEmpty
  | .obj fs => !fs.isEmpty
  | .map es => !es.isEmpty

/-- Whether a value has parts: it is a list, an object or a map. -/
def isContainer : Data → Bool
  | .list _ => true
  | .obj _ => true
  | .map _ => true
  | _ => false

/-- The parts of a value that can be gone through one by one: the items of a
list, the keys of an object or a map and the characters of a text. -/
def items? : Data → Option (List Data)
  | .list xs => some xs
  | .obj fs => some (fs.map fun f => .str f.1)
  | .map es => some (es.map Prod.fst)
  | .str s => some (s.toList.map fun c => .str (String.singleton c))
  | _ => none

/-- The number that a value stands for; false and true stand for zero and one. -/
def number? : Data → Option Number
  | .bool b => some (.int (if b then 1 else 0))
  | .num n => some n
  | _ => none

/-- Whether a value is the given text. -/
def isText : Data → String → Bool
  | .str s, t => s == t
  | _, _ => false

/-- Whether two values without parts are equal. Truth values equal the
numbers that they stand for; lists and objects are not compared. -/
def scalarSame : Data → Data → Bool
  | .null, .null => true
  | .str s, .str t => s == t
  | a, b =>
      match a.number?, b.number? with
      | some x, some y => x.same y
      | _, _ => false

end Data

end TripleLogic
