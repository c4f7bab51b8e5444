/-
TripleLogic.Data.Keys — maps as objects.

Where a map is sent or shown its keys become texts, in one of several styles.
Of two keys that become one text the first keeps its place and the last gives
the value.
-/
import TripleLogic.Data.Display

namespace TripleLogic.Data

/-- A key by its JSON text. -/
def jsonKey : Data → String
  | .null => "null"
  | .bool b => if b then "true" else "false"
  | d => d.plain

/-- A key as messages show it, truth values in lower case. -/
def wordKey : Data → String
  | .bool b => if b then "true" else "false"
  | d => d.plain

mutual

/-- Make objects of all maps of a value; `style` gives the texts of their keys. -/
def withTextKeys (style : Data → String) : Data → Data
  | .list xs => .list (itemsWithTextKeys style xs)
  | .obj fs => .obj (fieldsWithTextKeys style fs)
  | .map es => .obj ((entriesWithTextKeys style es).foldl (fun fs f => Fields.set fs f.1 f.2) [])
  | d => d

/-- Make objects of all maps of a list. -/
def itemsWithTextKeys (style : Data → String) : List Data → List Data
  | [] => []
  | x :: xs => withTextKeys style x :: itemsWithTextKeys style xs

/-- Make objects of all maps of an object. -/
def fieldsWithTextKeys (style : Data → String) : List (String × Data) → List (String × Data)
  | [] => []
  | (k, v) :: fs => (k, withTextKeys style v) :: fieldsWithTextKeys style fs

/-- The entries of a map with keys that are texts. -/
def entriesWithTextKeys (style : Data → String) : List (Data × Data) → List (String × Data)
  | [] => []
  | (k, v) :: es => (style k, withTextKeys style v) :: entriesWithTextKeys style es

end

end TripleLogic.Data
