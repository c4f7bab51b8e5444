/-
TripleLogic.Text.Percent — texts with bytes written as a percent sign and two
hexadecimal digits.

Reading leaves a percent sign that is not followed by two digits as it is.
Writing keeps letters and digits of the Latin script, the four marks `_`,
`.`, `-` and `~`, and the slash.
-/
import TripleLogic.Text.Digit
import TripleLogic.Text.Quoted
import TripleLogic.Text.Utf8

namespace TripleLogic.Text

/-- The bytes of a text in which percent signs are read. -/
def percentBytes : List Char → List Nat
  | [] => []
  | '%' :: a :: b :: rest =>
      match hexNumber? [a, b] with
      | some n => n :: percentBytes rest
      | none => 37 :: percentBytes (a :: b :: rest)
  | c :: rest => toBytes [c] ++ percentBytes rest

/-- Read a text in which bytes are written with percent signs. -/
def ofPercent (s : String) : String :=
  String.ofList (ofBytes (percentBytes s.toList))

/-- Whether a byte is written as the character that it is. -/
def isUnreserved (b : Nat) : Bool :=
  let c := Char.ofNat b
  c.isAlphanum || c == '_' || c == '.' || c == '-' || c == '~' || c == '/'

/-- Write a text with percent signs. -/
def toPercent (s : String) : String :=
  String.ofList ((toBytes s.toList).flatMap fun b =>
    if isUnreserved b then [Char.ofNat b] else '%' :: (hexDigits 2 b).map Char.toUpper)

end TripleLogic.Text
