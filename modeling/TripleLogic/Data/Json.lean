/-
TripleLogic.Data.Json — plain data as JSON text.

The reader takes the whole text or tells what it expected and where, by
line, column and character. A number without a fraction or an exponent is an
integer, and one of too many digits is refused; of two fields with one key
the last wins. Two escapes that are the halves of a surrogate pair are read as
one character, and half of a pair that stands alone is refused: no text of
this library has it. The names of the numbers that are not finite are read too. The
writer uses Latin characters only.

The reader works on what is left of the text; a place is given by the number
of characters left, and is turned into a line and a column at the end.
-/
import TripleLogic.Data.Keys
import TripleLogic.Number.Numeral
import TripleLogic.Text.CodePoints
import TripleLogic.Text.Quoted

namespace TripleLogic.Json

/-- What the reader expected or refused. -/
inductive Cause where
  | value
  | propertyName
  | colon
  | comma
  | extraData
  | unterminated
  | controlCharacter
  | escapeLetter
  | escapeDigits
  | byteOrderMark
  deriving DecidableEq, Repr

/-- The words for a cause. -/
def Cause.words : Cause → String
  | .value => "Expecting value"
  | .propertyName => "Expecting property name enclosed in double quotes"
  | .colon => "Expecting ':' delimiter"
  | .comma => "Expecting ',' delimiter"
  | .extraData => "Extra data"
  | .unterminated => "Unterminated string starting at"
  | .controlCharacter => "Invalid control character at"
  | .escapeLetter => "Invalid \\escape"
  | .escapeDigits => "Invalid \\uXXXX escape"
  | .byteOrderMark => "Unexpected UTF-8 BOM (decode using utf-8-sig)"

/-- A text that is not JSON: the cause and its place, lines and columns
counted from one and characters from zero. -/
structure Flaw where
  cause : Cause
  line : Nat
  column : Nat
  char : Nat
  deriving DecidableEq, Repr

/-- The message of a flaw. -/
def Flaw.message (f : Flaw) : String :=
  f.cause.words ++ ": line " ++ toString f.line ++ " column " ++ toString f.column
    ++ " (char " ++ toString f.char ++ ")"

/-- Why a text is refused: a flaw, an integer of too many digits, or half of
a surrogate pair in a text. -/
inductive Refusal where
  | flaw (f : Flaw)
  | digits (count : Nat)
  | surrogate
  deriving DecidableEq, Repr

/-- Why reading stops: a cause at a place, by the number of characters left,
an integer of too many digits, or half of a surrogate pair. -/
inductive Stop where
  | place (c : Cause) (left : Nat)
  | digits (count : Nat)
  | surrogate
  deriving DecidableEq, Repr

/-- Stop with a cause at a place. -/
def fail {α : Type} (c : Cause) (rest : List Char) : Except Stop (α × List Char) :=
  .error (.place c rest.length)

/-- White space between the parts of a JSON text. -/
def isSpace (c : Char) : Bool :=
  c == ' ' || c == '\n' || c == '\t' || c == '\r'

/-- Skip white space. -/
def skip (cs : List Char) : List Char :=
  cs.dropWhile isSpace

/-! ## Texts -/

/-- The character that a letter after a backslash stands for. -/
def escape? : Char → Option Nat
  | '"' => some 34
  | '\\' => some 92
  | '/' => some 47
  | 'b' => some 8
  | 'f' => some 12
  | 'n' => some 10
  | 'r' => some 13
  | 't' => some 9
  | _ => none

/-- Read the inside of a text up to its closing quote, as code points;
`opening` is the place of the opening quote. Something has to follow the four
digits of an escape. -/
def codes (opening : Nat) : List Char → Except Stop (List Nat × List Char)
  | [] => .error (.place .unterminated opening)
  | '"' :: rest => .ok ([], rest)
  | ['\\'] => .error (.place .unterminated opening)
  | '\\' :: 'u' :: a :: b :: c :: d :: rest =>
      match if rest.isEmpty then none else Text.hexNumber? [a, b, c, d] with
      | some n => (codes opening rest).map fun r => (n :: r.1, r.2)
      | none => fail .escapeDigits ('u' :: a :: b :: c :: d :: rest)
  | '\\' :: c :: rest =>
      match escape? c with
      | some n => (codes opening rest).map fun r => (n :: r.1, r.2)
      | none =>
          if c == 'u' then fail .escapeDigits (c :: rest)
          else fail .escapeLetter ('\\' :: c :: rest)
  | c :: rest =>
      if c.toNat < 32 then fail .controlCharacter (c :: rest)
      else (codes opening rest).map fun r => (c.toNat :: r.1, r.2)

/-- Read a text after its opening quote. -/
def text (rest : List Char) : Except Stop (String × List Char) := do
  let (ns, more) ← codes (rest.length + 1) rest
  match Text.ofCodePoints? ns with
  | some cs => return (String.ofList cs, more)
  | none => throw .surrogate

/-! ## Numbers -/

/-- Whether a character is a Latin digit. -/
def isDigit (c : Char) : Bool :=
  48 ≤ c.toNat && c.toNat ≤ 57

/-- Split off the leading Latin digits. -/
def takeDigits (cs : List Char) : List Nat × List Char :=
  ((cs.takeWhile isDigit).map (fun c => c.toNat - 48), cs.dropWhile isDigit)

/-- Split off the whole part of a number: a zero, or digits that do not begin
with one. -/
def takeWhole : List Char → List Nat × List Char
  | '0' :: rest => ([0], rest)
  | cs => takeDigits cs

/-- Split off a fraction, if there is one. -/
def takeFraction : List Char → Option (List Nat) × List Char
  | '.' :: rest =>
      match takeDigits rest with
      | ([], _) => (none, '.' :: rest)
      | (ds, more) => (some ds, more)
  | cs => (none, cs)

/-- Split off an exponent, if there is one. -/
def takeExponent : List Char → Option Int × List Char
  | c :: rest =>
      if c == 'e' || c == 'E' then
        let (neg, body) := Numeral.takeSign rest
        match takeDigits body with
        | ([], _) => (none, c :: rest)
        | (ds, more) =>
            let n : Int := Text.ofDigits ds
            (some (if neg then -n else n), more)
      else (none, c :: rest)
  | [] => (none, [])

/-- The integer of a list of digits. -/
def integer (neg : Bool) (digits : List Nat) : Except Stop Number :=
  if Numeral.maxDigits < digits.length then .error (.digits digits.length)
  else
    let n : Int := Text.ofDigits digits
    .ok (.int (if neg then -n else n))

/-- Read a number whose sign has been taken off; nothing if there is no
whole part. -/
def number? (neg : Bool) (cs : List Char) : Option (Except Stop Number × List Char) :=
  match takeWhole cs with
  | ([], _) => none
  | (whole, rest) =>
      let (frac, rest) := takeFraction rest
      let (exp, rest) := takeExponent rest
      match frac, exp with
      | none, none => some (integer neg whole, rest)
      | _, _ =>
          let ds := frac.getD []
          some (.ok (.float (Binary64.ofDecimal neg (Text.ofDigits (whole ++ ds))
            (exp.getD 0 - ds.length))), rest)

/-! ## Values -/

/-- The text after a word, if it begins with the word. -/
def afterWord? : List Char → List Char → Option (List Char)
  | [], cs => some cs
  | w :: ws, c :: cs => if w == c then afterWord? ws cs else none
  | _ :: _, [] => none

/-- The words that stand for values. -/
def wordValues : List (List Char × Data) :=
  [("null".toList, .null), ("true".toList, .bool true), ("false".toList, .bool false),
   ("NaN".toList, .float .nan), ("Infinity".toList, .float (.inf false)),
   ("-Infinity".toList, .float (.inf true))]

/-- Read a word or a number. -/
def scalar (cs : List Char) : Except Stop (Data × List Char) :=
  match wordValues.findSome? fun w => (afterWord? w.1 cs).map fun rest => (w.2, rest) with
  | some found => .ok found
  | none =>
      let read := match cs with
        | '-' :: body => number? true body
        | _ => number? false cs
      match read with
      | some (n, rest) => n.map fun n => (.num n, rest)
      | none => fail .value cs

mutual

/-- Read a value. Of two calls in a row at least one takes a character, so
twice the length of the text is fuel enough. -/
def value : (fuel : Nat) → List Char → Except Stop (Data × List Char)
  | 0, cs => fail .value cs
  | _ + 1, '"' :: rest => (text rest).map fun r => (.str r.1, r.2)
  | f + 1, '[' :: rest =>
      match skip rest with
      | ']' :: more => .ok (.list [], more)
      | more => (items f more).map fun r => (.list r.1, r.2)
  | f + 1, '\x7b' :: rest =>
      match skip rest with
      | '\x7d' :: more => .ok (.obj [], more)
      | more => (fields f [] more).map fun r => (.obj r.1, r.2)
  | _ + 1, cs => scalar cs

/-- Read the items of a list up to its closing bracket. -/
def items : (fuel : Nat) → List Char → Except Stop (List Data × List Char)
  | 0, cs => fail .value cs
  | f + 1, cs => do
      let (x, rest) ← value f cs
      match skip rest with
      | ']' :: more => return ([x], more)
      | ',' :: more =>
          let (xs, rest) ← items f (skip more)
          return (x :: xs, rest)
      | more => fail .comma more

/-- Read the fields of an object up to its closing brace, after those in `acc`. -/
def fields : (fuel : Nat) → (acc : Fields) → List Char → Except Stop (Fields × List Char)
  | 0, _, cs => fail .value cs
  | f + 1, acc, '"' :: cs => do
      let (key, rest) ← text cs
      match skip rest with
      | ':' :: more =>
          let (x, rest) ← value f (skip more)
          let acc := acc.set key x
          match skip rest with
          | '\x7d' :: more => return (acc, more)
          | ',' :: more => fields f acc (skip more)
          | more => fail .comma more
      | more => fail .colon more
  | _ + 1, _, cs => fail .propertyName cs

end

/-- The place of a character of a text. -/
def Flaw.locate (whole : List Char) (cause : Cause) (left : Nat) : Flaw :=
  let char := whole.length - left
  let before := whole.take char
  { cause
    line := before.count '\n' + 1
    column := (before.reverse.takeWhile (· != '\n')).length + 1
    char }

/-- The refusal of a text, from why reading it stopped. -/
def Refusal.ofStop (whole : List Char) : Stop → Refusal
  | .place cause left => .flaw (Flaw.locate whole cause left)
  | .digits count => .digits count
  | .surrogate => .surrogate

/-- Read a whole text. -/
def parse (s : String) : Except Refusal Data :=
  let cs := s.toList
  let start := skip cs
  let run : Except Stop Data := do
    if cs.head? == some (Char.ofNat 0xFEFF) then throw (.place .byteOrderMark cs.length)
    let (x, rest) ← value (2 * cs.length + 2) start
    match skip rest with
    | [] => return x
    | more => throw (.place .extraData more.length)
  run.mapError (Refusal.ofStop cs)

/-! ## Writing -/

/-- One character of a text in JSON, in Latin characters only. -/
def writeChar (c : Char) : List Char :=
  let n := c.toNat
  if c == '"' then ['\\', '"']
  else if c == '\\' then ['\\', '\\']
  else if c == '\n' then ['\\', 'n']
  else if c == '\r' then ['\\', 'r']
  else if c == '\t' then ['\\', 't']
  else if 32 ≤ n && n < 128 then [c]
  else if n < 0x10000 then '\\' :: 'u' :: Text.hexDigits 4 n
  else
    let m := n - 0x10000
    '\\' :: 'u' :: Text.hexDigits 4 (0xD800 + m / 0x400)
      ++ '\\' :: 'u' :: Text.hexDigits 4 (0xDC00 + m % 0x400)

/-- A text in JSON. -/
def writeText (s : String) : String :=
  "\"" ++ String.ofList (s.toList.flatMap writeChar) ++ "\""

mutual

/-- A value in JSON, fields in their own order. -/
def write : Data → String
  | .null => "null"
  | .bool b => if b then "true" else "false"
  | .num n => n.text
  | .str s => writeText s
  | .list xs => "[" ++ ",".intercalate (writeItems xs) ++ "]"
  | .obj fs => "\x7b" ++ ",".intercalate (writeFields fs) ++ "\x7d"
  | .map es => "\x7b" ++ ",".intercalate (writeEntries es) ++ "\x7d"

/-- The items of a list in JSON. -/
def writeItems : List Data → List String
  | [] => []
  | x :: xs => write x :: writeItems xs

/-- The fields of an object in JSON. -/
def writeFields : List (String × Data) → List String
  | [] => []
  | (k, v) :: fs => (writeText k ++ ":" ++ write v) :: writeFields fs

/-- The entries of a map in JSON. -/
def writeEntries : List (Data × Data) → List String
  | [] => []
  | (k, v) :: es => (writeText k.jsonKey ++ ":" ++ write v) :: writeEntries es

end

end TripleLogic.Json
