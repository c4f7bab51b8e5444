/-
TripleLogic.Ontology.Turtle — RDF triples as statements.

A statement is a subject with its predicates and their objects, and ends with
a full stop; lines do not matter, blanks are needed nowhere, and a comment
runs from a number sign to the end of its line. An IRI that names no scheme
is taken relative to the address of the text. A text that is not a row of
such statements is refused as a whole; prefixes, collections and blank nodes
in brackets are not supported.
-/
import TripleLogic.Ontology.NTriples

namespace TripleLogic.Turtle

open TripleLogic.Rdf

/-- The address of a text of triples: the directories on the way to it, and
its name. -/
structure Address where
  directories : List String
  name : String
  deriving Repr, Inhabited

/-- What the reading of a text depends on: where the text is, and the
characters that open and close literals. -/
structure Scope where
  address : Address
  quotes : List Char
  deriving Repr, Inhabited

/-! ## Blanks and names -/

/-- Skip white space and comments. A carriage return is white space only
before a line feed. -/
def skip : List Char → List Char
  | [] => []
  | '\r' :: '\n' :: cs => skip cs
  | c :: cs =>
      if c == ' ' || c == '\t' || c == '\n' then skip cs
      else if c == '#' then skip (cs.dropWhile (· != '\n'))
      else c :: cs
  termination_by cs => cs.length
  decreasing_by
    all_goals
      have := (List.dropWhile_suffix (l := cs) (· != '\n')).length_le
      simp only [List.length_cons]
      omega

/-- The characters that end a name. -/
def isMark (c : Char) : Bool :=
  "\t\r\n !\"#$&'()*,+/;<=>?@[\\]^`\x7b|\x7d~:".toList.contains c

/-- Split off the label of a blank node. A full stop at its end is no part of
it. -/
def label? (cs : List Char) : Option (String × List Char) :=
  let run := cs.takeWhile (!isMark ·)
  if run.getLast? == some '.' then
    if run.length == 1 then none
    else some (String.ofList run.dropLast, '.' :: cs.dropWhile (!isMark ·))
  else some (String.ofList run, cs.dropWhile (!isMark ·))

/-- Split off a word that is followed by a character that ends it. -/
def word? (word : String) (cs : List Char) : Option (List Char) :=
  if word.toList.isPrefixOf cs then
    match cs.drop word.length with
    | c :: rest => if isMark c && c != ':' || c == '.' then some (c :: rest) else none
    | [] => none
  else none

/-! ## IRIs -/

/-- Read the escapes of eight digits in an IRI. -/
def expandLong? : List Char → Option (List Char)
  | [] => some []
  | '\\' :: 'U' :: a :: b :: c :: d :: e :: f :: g :: h :: rest =>
      match Text.hexNumber? [a, b, c, d, e, f, g, h] with
      | some n => do
          return (← Text.ofCodePoint? (← NTriples.codePoint? n)) :: (← expandLong? rest)
      | none => (expandLong? ('U' :: a :: b :: c :: d :: e :: f :: g :: h :: rest)).map ('\\' :: ·)
  | c :: rest => (expandLong? rest).map (c :: ·)

/-- Read the escapes of four digits in an IRI. -/
def expandShort : List Char → List Nat
  | [] => []
  | '\\' :: 'u' :: a :: b :: c :: d :: rest =>
      match Text.hexNumber? [a, b, c, d] with
      | some n => n :: expandShort rest
      | none => 92 :: expandShort ('u' :: a :: b :: c :: d :: rest)
  | c :: rest => c.toNat :: expandShort rest

/-- Whether an IRI names a scheme: it has a colon before any slash. -/
def hasScheme (cs : List Char) : Bool :=
  ((cs.find? fun c => c == ':' || c == '/').map (· == ':')).getD false

/-- Split an IRI at its last number sign, which begins its fragment. -/
def splitFragment (cs : List Char) : List Char × List Char :=
  let tail := cs.reverse.takeWhile (· != '#')
  if tail.length == cs.length then (cs, [])
  else (cs.take (cs.length - tail.length - 1), cs.drop (cs.length - tail.length - 1))

/-- The text of an address in some directories. -/
def Address.text (directories : List String) (rest : List Char) : String :=
  "file:///" ++ String.join (directories.map (· ++ "/")) ++ String.ofList rest

/-- Follow the leading dots of a path: one dot stays in the directory, two
lead to the one above. The first argument bounds the number of steps. -/
def climb : (bound : Nat) → List String → List Char → List String × List Char
  | 0, directories, path => (directories, path)
  | n + 1, directories, path =>
      let path := if ['.', '/'].isPrefixOf path then path.drop 2 else path
      if path == ['.'] then (directories, [])
      else if ['.', '.', '/'].isPrefixOf path || path == ['.', '.'] then
        climb n directories.dropLast (path.drop 3)
      else (directories, path)

/-- The IRI that a reference stands for at an address. -/
def Address.resolve (a : Address) (cs : List Char) : String :=
  let (path, fragment) := splitFragment cs
  if hasScheme cs then String.ofList cs
  else if path.isEmpty then Address.text a.directories (a.name.toList ++ fragment)
  else if ['/', '/'].isPrefixOf cs then "file:" ++ String.ofList cs
  else if cs.head? == some '/' then "file://" ++ String.ofList cs
  else
    let (directories, path) := climb path.length a.directories path
    Address.text directories (path ++ fragment)

/-- Read an IRI after its opening bracket; it goes on to the next closing one. -/
def iri? (s : Scope) (cs : List Char) : Option (String × List Char) :=
  match cs.dropWhile (· != '>') with
  | _ :: rest => do
      let inside ← expandLong? (cs.takeWhile (· != '>'))
      return (s.address.resolve (← Text.ofCodePoints? (expandShort inside)), rest)
  | [] => none

/-! ## Literals -/

/-- The letters that stand for characters after a backslash. -/
def escape? : Char → Option Char
  | 'a' => some '\x07'
  | 'v' => some '\x0b'
  | c => NTriples.escape? c

/-- Read the inside of a literal up to the quote that closes it, as code
points. A long literal is closed by three quotes; it may have line ends and
quotes inside, up to two of them right before the closing ones. The digits of
an escape that are none are kept. -/
def inside? (quote : Char) (long : Bool) : List Char → Option (List Nat × List Char)
  | [] => none
  | '\\' :: 'u' :: a :: b :: c :: d :: rest => do
      let (more, rest) ← inside? quote long rest
      match Text.hexNumber? [a, b, c, d] with
      | some n => return (n :: more, rest)
      | none => return (['\\', 'u', a, b, c, d].map Char.toNat ++ more, rest)
  | '\\' :: 'U' :: a :: b :: c :: d :: e :: f :: g :: h :: rest => do
      let (more, rest) ← inside? quote long rest
      match Text.hexNumber? [a, b, c, d, e, f, g, h] with
      | some n => return ((← NTriples.codePoint? n) :: more, rest)
      | none => return (['\\', 'U', a, b, c, d, e, f, g, h].map Char.toNat ++ more, rest)
  | ['\\'] => none
  | '\\' :: c :: rest => do
      let x ← escape? c
      let (more, rest) ← inside? quote long rest
      return (x.toNat :: more, rest)
  | c :: rest =>
      let count := 1 + (rest.takeWhile (· == quote)).length
      if c == quote && !long then some ([], rest)
      else if c == quote && 3 ≤ count then
        let inner := min (count - 3) 2
        some (List.replicate inner quote.toNat, rest.drop (inner + 2))
      else if !long && (c == '\n' || c == '\r') then none
      else (inside? quote long rest).map fun r => (c.toNat :: r.1, r.2)

/-- Read the language and the datatype of a literal, if it has them; the
datatype counts before the language. -/
def tag? (s : Scope) (cs : List Char) : Option (String × List Char) := do
  let (language, rest) ← match cs with
    | '@' :: more => (NTriples.language? more).map fun r => ("@" ++ r.1, r.2)
    | _ => some ("", cs)
  match rest with
  | '^' :: '^' :: more =>
      match skip more with
      | '<' :: more => (iri? s more).map fun r => ("^" ++ r.1, r.2)
      | _ => none
  | _ => some (language, rest)

/-- Read a literal after its opening quote. -/
def literal? (s : Scope) (quote : Char) (cs : List Char) : Option (Term × List Char) := do
  let long := [quote, quote].isPrefixOf cs
  let (inside, rest) ← inside? quote long (if long then cs.drop 2 else cs)
  let (tag, rest) ← tag? s rest
  return (.literal (String.ofList (← Text.ofCodePoints? inside)) tag, rest)

/-- Split off Latin digits. -/
def digits (cs : List Char) : List Char × List Char :=
  (cs.takeWhile Char.isDigit, cs.dropWhile Char.isDigit)

/-- Split off a sign. -/
def signed : List Char → List Char × List Char
  | c :: cs => if c == '-' || c == '+' then ([c], cs) else ([], c :: cs)
  | [] => ([], [])

/-- Split off an exponent. -/
def exponent? : List Char → Option (List Char × List Char)
  | [] => none
  | c :: cs =>
      if c == 'e' || c == 'E' then
        let (sign, rest) := signed cs
        let (ds, rest) := digits rest
        if ds.isEmpty then none else some (c :: sign ++ ds, rest)
      else none

/-- Read a number. A full stop is part of it when a digit or an exponent
follows. -/
def number? (cs : List Char) : Option (Term × List Char) :=
  let (sign, rest) := signed cs
  let (whole, rest) := digits rest
  let done := fun (more rest : List Char) =>
    some (Term.literal (String.ofList (sign ++ whole ++ more)) "#", rest)
  match rest with
  | '.' :: tail =>
      let (fraction, after) := digits tail
      match exponent? after with
      | some (e, left) =>
          if whole.isEmpty && fraction.isEmpty then none
          else done ('.' :: fraction ++ e) left
      | none =>
          if !fraction.isEmpty then done ('.' :: fraction) after
          else if whole.isEmpty then none
          else done [] rest
  | _ =>
      if whole.isEmpty then none
      else
        match exponent? rest with
        | some (e, left) => done e left
        | none => done [] rest

/-! ## Statements -/

/-- Read a term. -/
def term? (s : Scope) (cs : List Char) : Option (Term × List Char) :=
  match skip cs with
  | '<' :: rest => (iri? s rest).map fun r => (.iri r.1, r.2)
  | '_' :: ':' :: rest => (label? rest).map fun r => (.blank r.1, r.2)
  | [] => none
  | c :: rest =>
      if s.quotes.contains c then literal? s c rest
      else
        match word? "true" (c :: rest), word? "false" (c :: rest) with
        | some rest, _ => some (.literal "true" "#", rest)
        | _, some rest => some (.literal "false" "#", rest)
        | none, none => number? (c :: rest)

/-- Read a predicate: the letter a stands for class membership. -/
def predicate? (s : Scope) (cs : List Char) : Option (Term × List Char) :=
  match word? "a" (skip cs) with
  | some rest => some (.iri (rdf "type"), rest)
  | none => term? s cs

/-- Read objects that are parted by commas; the first argument bounds their
number. -/
def objects? (s : Scope) : (bound : Nat) → List Char → Option (List Term × List Char)
  | 0, _ => none
  | n + 1, cs => do
      let (o, rest) ← term? s cs
      match skip rest with
      | ',' :: more =>
          let (os, rest) ← objects? s n more
          return (o :: os, rest)
      | rest => return ([o], rest)

/-- Skip white space and semicolons. The first argument bounds the number of
semicolons. -/
def skipSemicolons : (bound : Nat) → List Char → List Char
  | 0, cs => skip cs
  | n + 1, cs =>
      match skip cs with
      | ';' :: rest => skipSemicolons n rest
      | rest => rest

/-- Read the predicates of a subject with their objects, which may be none at
all; the first argument bounds their number. -/
def properties? (s : Scope) (subject : Term) :
    (bound : Nat) → List Char → Option (List Triple × List Char)
  | 0, _ => none
  | n + 1, cs =>
      let cs := skipSemicolons cs.length cs
      match predicate? s cs with
      | none => some ([], cs)
      | some (p, rest) => do
          let (os, rest) ← objects? s (rest.length + 1) rest
          let own := os.map fun o => ⟨subject, p, o⟩
          match rest with
          | ';' :: more =>
              let (ts, rest) ← properties? s subject n more
              return (own ++ ts, rest)
          | _ => return (own, rest)

/-- Read statements up to the end of the text; the first argument bounds their
number. -/
def statements? (s : Scope) : (bound : Nat) → List Char → Option (List Triple)
  | 0, _ => none
  | n + 1, cs =>
      match skip cs with
      | [] => some []
      | cs => do
          let (subject, rest) ← term? s cs
          let (ts, rest) ← properties? s subject (rest.length + 1) rest
          match skip rest with
          | '.' :: rest => return ts ++ (← statements? s n rest)
          | _ => none

/-- Take off a byte-order mark. -/
def withoutMark : List Char → List Char
  | c :: cs => if c.toNat == 0xFEFF then cs else c :: cs
  | [] => []

/-- Read a text of statements. -/
def parse? (s : Scope) (text : String) : Option Graph :=
  let cs := withoutMark text.toList
  (statements? s (cs.length + 1) cs).map Graph.ofTriples

end TripleLogic.Turtle
