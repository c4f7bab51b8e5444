/-
TripleLogic.Server.Check — the bodies of requests, checked against the
fields that a route takes.

Whatever does not fit is reported field by field, with its place and the sort
of the misfit. Integers may be given as numbers without a fraction, as truth
values and as texts; switches as numbers and as words.
-/
import TripleLogic.Data.Basic
import TripleLogic.Number.Numeral

namespace TripleLogic.Server

/-- What does not fit in a body: the place and the sort of the misfit. -/
structure BodyError where
  place : List Data
  sort : String
  deriving Repr

/-- A value, or all that does not fit. -/
abbrev Checked (α : Type) := Except (List BodyError) α

/-- A single misfit. -/
def refuse {α : Type} (place : List Data) (sort : String) : Checked α :=
  .error [⟨place, sort⟩]

/-- Put two checks together; the misfits of both are reported. -/
def both {α β : Type} (a : Checked α) (b : Checked β) : Checked (α × β) :=
  match a, b with
  | .ok x, .ok y => .ok (x, y)
  | .error e, .ok _ => .error e
  | .ok _, .error f => .error f
  | .error e, .error f => .error (e ++ f)

/-- The place of a field of the body. -/
def placeOf (key : String) : List Data := [.str "body", .str key]

/-- An object. -/
def checkObject (place : List Data) : Data → Checked Data
  | .obj fields => .ok (.obj fields)
  | _ => refuse place "dict_type"

/-- The items of a list, each of which is an object. -/
def checkItems (place : List Data) : (index : Nat) → List Data → Checked (List Data)
  | _, [] => .ok []
  | i, x :: xs =>
      (both (checkObject (place ++ [.nat i]) x) (checkItems place (i + 1) xs)).map
        fun p => p.1 :: p.2

/-- A list of objects. -/
def checkObjects (place : List Data) : Data → Checked (List Data)
  | .list xs => checkItems place 0 xs
  | _ => refuse place "list_type"

/-! ## Integers -/

/-- Whether a character is a Latin digit. -/
def isDigit (c : Char) : Bool := '0' ≤ c && c ≤ '9'

/-- Read a whole text as an integer without needless zeros before it. -/
def plainInteger? (cs : List Char) : Option Int :=
  match cs with
  | '0' :: [] => some 0
  | '-' :: '0' :: [] => some 0
  | '-' :: d :: ds => if d != '0' && (d :: ds).all isDigit then Numeral.int? cs else none
  | d :: ds => if d != '0' && (d :: ds).all isDigit then Numeral.int? cs else none
  | [] => none

/-- Take off a minus sign. The answer tells whether there is one. -/
def takeMinus : List Char → Bool × List Char
  | '-' :: cs => (true, cs)
  | cs => (false, cs)

/-- Whether a text begins with an integer of too many digits. -/
def isOversized (cs : List Char) : Bool :=
  let ds := (takeMinus cs).2
  ds.head? != some '0' && Numeral.maxDigits < (ds.takeWhile isDigit).length

/-- Take off the zeros before a number, with the underscores among them. One
zero is kept where nothing or a point follows. -/
def withoutZeros? : List Char → Option (List Char)
  | [] => none
  | c :: cs =>
      if c != '0' then if isDigit c then some (c :: cs) else none
      else
        let rest := cs.dropWhile fun c => c == '0' || c == '_'
        let taken := c :: cs.takeWhile fun c => c == '0' || c == '_'
        match rest with
        | [] => some (taken.drop (taken.length - 1))
        | '.' :: _ => some (taken.drop (taken.length - 1) ++ rest)
        | d :: _ => if isDigit d || d == '-' then some rest else none

/-- Take off a point and the zeros after it, of which there is at least one. -/
def withoutFraction (cs : List Char) : List Char :=
  match cs.dropWhile (· != '.') with
  | _ :: z :: zs => if (z :: zs).all (· == '0') then cs.takeWhile (· != '.') else cs
  | _ => cs

/-- Whether two underscores stand next to each other. -/
def hasDoubleUnderscore (cs : List Char) : Bool :=
  (cs.zip (cs.drop 1)).any fun p => p.1 == '_' && p.2 == '_'

/-- Take out single underscores, none of which may be at an end. -/
def withoutUnderscores (cs : List Char) : List Char :=
  if cs.head? == some '_' || cs.getLast? == some '_' || hasDoubleUnderscore cs then cs
  else cs.filter (· != '_')

/-- A text without all that may stand around an integer: white space, a plus
sign, zeros before it and after a point, and underscores inside. A minus sign
is kept. -/
def bareInteger? (cs : List Char) : Option (List Char) := do
  let cs ← match Numeral.trimmed cs with
    | '+' :: '-' :: _ => none
    | '+' :: cs => some cs
    | cs => some cs
  let (negative, cs) := takeMinus cs
  let bare := withoutUnderscores (withoutFraction (← withoutZeros? cs))
  return if negative then '-' :: bare else bare

/-- The integer that a text stands for. Only what stands in the text as it is
given is too long to be read; otherwise it is no integer. -/
def integerOfText (place : List Data) (s : String) : Checked Int :=
  let cs := s.toList
  if isOversized cs then refuse place "int_parsing_size"
  else
    match plainInteger? cs <|> (bareInteger? cs).bind plainInteger? with
    | some n => .ok n
    | none => refuse place "int_parsing"

/-- The numbers without a fraction that count as integers lie strictly between
this bound and its negative. -/
def floatBound : Int := Nat.pow 2 63

/-- The integer that a floating-point number stands for. -/
def integerOfFloat (place : List Data) (x : Binary64) : Checked Int :=
  match x.toInt? with
  | some n =>
      if -floatBound < n && n < floatBound then .ok n else refuse place "int_parsing_size"
  | none => refuse place (if x.isFinite then "int_from_float" else "finite_number")

/-- An integer: a number without a fraction, a truth value, or a text that
stands for an integer. -/
def checkInteger (place : List Data) : Data → Checked Int
  | .num (.int n) => .ok n
  | .num (.float x) => integerOfFloat place x
  | .bool b => .ok (if b then 1 else 0)
  | .str s => integerOfText place s
  | _ => refuse place "int_type"

/-! ## Switches -/

/-- The words for true and for false. -/
def truthWords : List (String × Bool) :=
  [("0", false), ("off", false), ("f", false), ("false", false), ("n", false), ("no", false),
   ("1", true), ("on", true), ("t", true), ("true", true), ("y", true), ("yes", true)]

/-- The truth value of an integer. -/
def switchOfInteger (place : List Data) (n : Int) : Checked Bool :=
  if n == 0 then .ok false
  else if n == 1 then .ok true
  else refuse place "bool_parsing"

/-- A truth value, or a number or word that stands for one. Integers of more
than 64 bits are of no use. -/
def checkSwitch (place : List Data) : Data → Checked Bool
  | .bool b => .ok b
  | .str s =>
      match truthWords.lookup (String.ofList (s.toList.map Char.toLower)) with
      | some b => .ok b
      | none => refuse place "bool_parsing"
  | .num (.int n) =>
      if -floatBound ≤ n && n < floatBound then switchOfInteger place n
      else refuse place "bool_type"
  | .num (.float x) =>
      match integerOfFloat place x with
      | .ok n => switchOfInteger place n
      | .error _ => refuse place "bool_type"
  | _ => refuse place "bool_type"

/-! ## Fields -/

/-- A field that a body has to have. -/
def required {α : Type} (fields : Fields) (key : String)
    (check : List Data → Data → Checked α) : Checked α :=
  match fields.get? key with
  | some d => check (placeOf key) d
  | none => refuse (placeOf key) "missing"

/-- A field that a body may leave out. -/
def optional {α : Type} (fields : Fields) (key : String) (default : α)
    (check : List Data → Data → Checked α) : Checked α :=
  match fields.get? key with
  | some d => check (placeOf key) d
  | none => .ok default

/-- A check that admits null as well. -/
def orNull {α : Type} (check : List Data → Data → Checked α) (place : List Data) :
    Data → Checked (Option α)
  | .null => .ok none
  | d => (check place d).map some

end TripleLogic.Server
