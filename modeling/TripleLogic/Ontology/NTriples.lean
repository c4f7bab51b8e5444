/-
TripleLogic.Ontology.NTriples — RDF triples as lines of text.

A line holds a triple and a full stop, or nothing; a comment begins with a
number sign, and blanks part the three terms. IRIs stand between angle
brackets and have a colon, blank nodes begin with an underscore and a colon,
and literals stand between quotes and may have a language or a datatype. What
follows a backslash is read where it is an escape and kept where it is none.
A text with any other line is refused as a whole.
-/
import TripleLogic.Ontology.Rdf
import TripleLogic.Text.Digit

namespace TripleLogic.NTriples

open TripleLogic.Rdf

/-! ## Characters -/

/-- White space within a line. -/
def isSpace (c : Char) : Bool := c == ' ' || c == '\t'

/-- Skip white space within a line. -/
def skip (cs : List Char) : List Char := cs.dropWhile isSpace

/-- Skip white space that has to be there. -/
def skipSome? : List Char → Option (List Char)
  | c :: cs => if isSpace c then some (skip cs) else none
  | [] => none

/-- A character that may stand in an IRI after its first colon. -/
def isIriChar (c : Char) : Bool :=
  !(Text.isBlank c || c == '"' || c == '<' || c == '>')

/-- A character that may begin the label of a blank node. -/
def isLabelStart (c : Char) : Bool :=
  c.isAlphanum || c == '_' || c == ':'

/-- A character that may stand in the label of a blank node. -/
def isLabelChar (c : Char) : Bool :=
  isLabelStart c || c == '.' || c == '-'

/-! ## Escapes -/

/-- The letters that stand for characters after a backslash. -/
def escape? : Char → Option Char
  | 't' => some '\t'
  | 'b' => some '\x08'
  | 'n' => some '\n'
  | 'r' => some '\r'
  | 'f' => some '\x0c'
  | '"' => some '"'
  | '\x27' => some '\x27'
  | '\\' => some '\\'
  | _ => none

/-- A code point that is written as a number and is not too great. -/
def codePoint? (n : Nat) : Option Nat :=
  if n < 0x110000 then some n else none

/-- The code points of a text with escapes. There are none when a number is
too great. -/
def codePoints? : List Char → Option (List Nat)
  | [] => some []
  | '\\' :: 'u' :: a :: b :: c :: d :: rest =>
      match Text.hexNumber? [a, b, c, d] with
      | some n => (codePoints? rest).map (n :: ·)
      | none => (codePoints? ('u' :: a :: b :: c :: d :: rest)).map (92 :: ·)
  | '\\' :: 'U' :: a :: b :: c :: d :: e :: f :: g :: h :: rest =>
      match Text.hexNumber? [a, b, c, d, e, f, g, h] with
      | some n => do return (← codePoint? n) :: (← codePoints? rest)
      | none =>
          (codePoints? ('U' :: a :: b :: c :: d :: e :: f :: g :: h :: rest)).map (92 :: ·)
  | '\\' :: c :: rest =>
      match escape? c with
      | some x => (codePoints? rest).map (x.toNat :: ·)
      | none => (codePoints? (c :: rest)).map (92 :: ·)
  | c :: rest => (codePoints? rest).map (c.toNat :: ·)

/-- Read escapes. -/
def unescape? (cs : List Char) : Option String := do
  return String.ofList (← Text.ofCodePoints? (← codePoints? cs))

/-! ## Terms -/

/-- Split an IRI at its closing bracket. Anything but a colon may stand before
its first colon, and there is something before it. -/
def closed? (cs : List Char) : Option (List Char × List Char) :=
  let head := cs.takeWhile (· != ':')
  match head, cs.dropWhile (· != ':') with
  | [], _ => none
  | _, colon :: body =>
      match body.dropWhile isIriChar with
      | '>' :: rest => some (head ++ colon :: body.takeWhile isIriChar, rest)
      | _ => none
  | _, [] => none

/-- Read an IRI after its opening bracket. -/
def iri? (cs : List Char) : Option (String × List Char) := do
  let (inside, rest) ← closed? cs
  return (← unescape? inside, rest)

/-- Read the label of a blank node. It does not end in a full stop. -/
def blank? (cs : List Char) : Option (Term × List Char) :=
  match cs with
  | c :: _ =>
      if isLabelStart c then
        let run := cs.takeWhile isLabelChar
        let dots := (run.reverse.takeWhile (· == '.')).length
        let size := run.length - dots
        some (.blank (String.ofList (cs.take size)), cs.drop size)
      else none
  | [] => none

/-- Split a literal at its closing quote. -/
def closing? : List Char → Option (List Char × List Char)
  | [] => none
  | '"' :: rest => some ([], rest)
  | ['\\'] => none
  | '\\' :: c :: rest => (closing? rest).map fun r => ('\\' :: c :: r.1, r.2)
  | c :: rest => (closing? rest).map fun r => (c :: r.1, r.2)

/-- Split off the further parts of a language: each is a hyphen with letters
or digits after it. -/
def subtags : List Char → List Char × List Char
  | '-' :: cs =>
      let run := cs.takeWhile Char.isAlphanum
      if run.isEmpty then ([], '-' :: cs)
      else
        let (more, rest) := subtags (cs.dropWhile Char.isAlphanum)
        ('-' :: run ++ more, rest)
  | cs => ([], cs)
  termination_by cs => cs.length
  decreasing_by
    have := (List.dropWhile_suffix (l := cs) Char.isAlphanum).length_le
    simp only [List.length_cons]
    omega

/-- Split off a language: letters, and then further parts. -/
def language? (cs : List Char) : Option (String × List Char) :=
  let name := cs.takeWhile Char.isAlpha
  if name.isEmpty then none
  else
    let (more, rest) := subtags (cs.dropWhile Char.isAlpha)
    some (String.ofList (name ++ more), rest)

/-- Read the language or the datatype of a literal, if it has one. -/
def tag? : List Char → Option (String × List Char)
  | '@' :: cs => do
      let (language, rest) ← language? cs
      return ("@" ++ language, rest)
  | '^' :: '^' :: '<' :: cs => do
      let (datatype, rest) ← iri? cs
      return ("^" ++ datatype, rest)
  | cs => some ("", cs)

/-- Read a literal after its opening quote. -/
def literal? (cs : List Char) : Option (Term × List Char) := do
  let (inside, rest) ← closing? cs
  let (tag, rest) ← tag? rest
  return (.literal (← unescape? inside) tag, rest)

/-- Read the predicate of a triple. -/
def predicate? : List Char → Option (Term × List Char)
  | '<' :: cs => (iri? cs).map fun r => (.iri r.1, r.2)
  | _ => none

/-- Read the subject of a triple. -/
def subject? : List Char → Option (Term × List Char)
  | '_' :: ':' :: cs => blank? cs
  | cs => predicate? cs

/-- Read the object of a triple. -/
def object? : List Char → Option (Term × List Char)
  | '"' :: cs => literal? cs
  | cs => subject? cs

/-! ## Lines -/

/-- Whether a triple ends well: a full stop, and nothing but a comment after it. -/
def isTail (cs : List Char) : Bool :=
  match skip cs with
  | '.' :: rest =>
      match skip rest with
      | [] => true
      | c :: _ => c == '#'
  | _ => false

/-- Read a line; an empty one or a comment holds no triple. -/
def line? (cs : List Char) : Option (Option Triple) :=
  match skip cs with
  | [] => some none
  | '#' :: _ => some none
  | cs => do
      let (s, rest) ← subject? cs
      let (p, rest) ← predicate? (← skipSome? rest)
      let (o, rest) ← object? (← skipSome? rest)
      if isTail rest then some (some ⟨s, p, o⟩) else none

/-- The lines of a text: the line feed, the carriage return and the two
together end a line. The last line is the one that is not ended. -/
def linesOf : List Char → List (List Char)
  | [] => [[]]
  | '\r' :: '\n' :: cs => [] :: linesOf cs
  | c :: cs =>
      if c == '\n' || c == '\r' then [] :: linesOf cs
      else
        match linesOf cs with
        | l :: ls => (c :: l) :: ls
        | [] => [[c]]

/-- The lines that count: the last is left out when it is white space only. -/
def countedLines (cs : List Char) : List (List Char) :=
  let lines := linesOf cs
  if (lines.getLast?.getD []).all Text.isBlank then lines.dropLast else lines

/-- Read a text of triples. -/
def parse? (s : String) : Option Graph := do
  let triples ← (countedLines s.toList).mapM line?
  return Graph.ofTriples (triples.filterMap id)

end TripleLogic.NTriples
