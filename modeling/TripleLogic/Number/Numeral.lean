/-
TripleLogic.Number.Numeral — numbers written as text.

An integer is an optional sign and decimal digits of any script, single
underscores being allowed between digits, and no more than 4300 digits. A
floating-point number may have a point, with digits on at least one side of
it, and an exponent; infinity and not-a-number have names that are read
without regard to case.
-/
import TripleLogic.Number.Binary64
import TripleLogic.Text.Blank
import TripleLogic.Text.Digit

namespace TripleLogic.Numeral

open TripleLogic.Text

/-- The most digits that an integer may be written with. -/
def maxDigits : Nat := 4300

/-- Take off a sign. The answer tells whether it was a minus. -/
def takeSign : List Char → Bool × List Char
  | '-' :: cs => (true, cs)
  | '+' :: cs => (false, cs)
  | cs => (false, cs)

/-- Read the rest of a run of digits: digits, each after an optional
underscore. -/
def takeMore : List Char → List Nat × List Char
  | [] => ([], [])
  | '_' :: c :: cs =>
      match digit? c with
      | some d => let r := takeMore cs; (d :: r.1, r.2)
      | none => ([], '_' :: c :: cs)
  | c :: cs =>
      match digit? c with
      | some d => let r := takeMore cs; (d :: r.1, r.2)
      | none => ([], c :: cs)

/-- Read a run of digits that may be empty; it does not begin with an underscore. -/
def takeDigits : List Char → List Nat × List Char
  | [] => ([], [])
  | c :: cs =>
      match digit? c with
      | some d => let r := takeMore cs; (d :: r.1, r.2)
      | none => ([], c :: cs)

/-- Read a whole text as an integer. -/
def int? (cs : List Char) : Option Int :=
  let (neg, body) := takeSign cs
  let (ds, rest) := takeDigits body
  if ds.isEmpty || !rest.isEmpty || maxDigits < ds.length then none
  else
    let n : Int := ofDigits ds
    some (if neg then -n else n)

/-- Read the exponent of a floating-point number up to the end of the text;
no exponent counts as zero. -/
def exponent? : List Char → Option Int
  | [] => some 0
  | c :: cs =>
      if c == 'e' || c == 'E' then
        let (neg, body) := takeSign cs
        let (ds, rest) := takeDigits body
        if ds.isEmpty || !rest.isEmpty then none
        else
          let n : Int := ofDigits ds
          some (if neg then -n else n)
      else none

/-- Read a decimal with optional point and exponent. -/
def decimal? (neg : Bool) (cs : List Char) : Option Binary64 :=
  let (whole, rest) := takeDigits cs
  let (frac, rest) := match rest with
    | '.' :: more => takeDigits more
    | _ => ([], rest)
  if whole.isEmpty && frac.isEmpty then none
  else (exponent? rest).map fun e =>
    Binary64.ofDecimal neg (ofDigits (whole ++ frac)) (e - frac.length)

/-- Read a whole text as a floating-point number. -/
def float? (cs : List Char) : Option Binary64 :=
  let (neg, body) := takeSign cs
  let name := String.ofList (body.map Char.toLower)
  if name == "inf" || name == "infinity" then some (.inf neg)
  else if name == "nan" then some .nan
  else decimal? neg body

/-- White space around a numeral: of the Latin characters those of the small
class, of the others those of the large class. -/
def isAround (c : Char) : Bool :=
  isPlainBlank c || (128 ≤ c.toNat && isBlank c)

/-- Take white space off both ends of a numeral. -/
def trimmed (cs : List Char) : List Char :=
  trimWith isAround cs

end TripleLogic.Numeral
