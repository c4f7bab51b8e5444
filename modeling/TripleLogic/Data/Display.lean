/-
TripleLogic.Data.Display — plain data as messages show it.

Texts stand between quotes, lists between square brackets, objects and maps
between braces, their parts separated by a comma and a space.
-/
import TripleLogic.Data.Basic
import TripleLogic.Text.Quoted

namespace TripleLogic

mutual

/-- A value as messages show it. -/
def Data.display : Data → String
  | .null => "None"
  | .bool b => if b then "True" else "False"
  | .num n => n.text
  | .str s => Text.quote s
  | .list xs => "[" ++ ", ".intercalate (displayItems xs) ++ "]"
  | .obj fs => "\x7b" ++ ", ".intercalate (displayFields fs) ++ "\x7d"
  | .map es => "\x7b" ++ ", ".intercalate (displayEntries es) ++ "\x7d"

/-- The items of a list as messages show them. -/
def displayItems : List Data → List String
  | [] => []
  | x :: xs => x.display :: displayItems xs

/-- The fields of an object as messages show them. -/
def displayFields : List (String × Data) → List String
  | [] => []
  | (k, v) :: fs => (Text.quote k ++ ": " ++ v.display) :: displayFields fs

/-- The entries of a map as messages show them. -/
def displayEntries : List (Data × Data) → List String
  | [] => []
  | (k, v) :: es => (k.display ++ ": " ++ v.display) :: displayEntries es

end

/-- A value as a text of its own: a text stands for itself, anything else is
shown as in messages. -/
def Data.plain : Data → String
  | .str s => s
  | d => d.display

end TripleLogic
