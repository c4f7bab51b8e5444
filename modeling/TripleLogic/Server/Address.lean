/-
TripleLogic.Server.Address — the addresses of requests, and the path that an
address leads to.

An address is a path, before which a scheme and a host and after which a
query and a fragment may stand; these do not count. Slashes at the beginning
of a path without scheme and host count as one. Dots lead along the path as it
is written, and after that bytes that are written with percent signs are read.
-/
import TripleLogic.Path
import TripleLogic.Text.Percent

namespace TripleLogic.Server.Address

/-- What is wrong with an address that leads nowhere. -/
inductive Invalid where
  | control (character : Char) (position : Nat)
  | slashes
  | colon
  deriving DecidableEq, Repr

/-- The message of an invalid address. -/
def Invalid.message : Invalid → String
  | .control c n =>
      "Invalid non-printable ASCII character in URL, " ++ Text.quote (String.singleton c)
        ++ " at position " ++ toString n ++ "."
  | .slashes => "Relative URLs cannot have a path starting with '//'"
  | .colon => "Relative URLs cannot have a path starting with ':'"

/-- Whether a character may not stand in an address. -/
def isControl (c : Char) : Bool :=
  c.toNat < 32 || c.toNat == 127

/-- Split off a scheme: a letter, more letters, digits and marks, and a colon.
The answer tells whether there is one. -/
def splitScheme (cs : List Char) : Bool × List Char :=
  let name := cs.takeWhile fun c => c.isAlphanum || c == '+' || c == '.' || c == '-'
  match name, cs.drop name.length with
  | c :: _, ':' :: rest => if c.isAlpha then (true, rest) else (false, cs)
  | _, _ => (false, cs)

/-- Split off a host, which two slashes stand before. The answer tells whether
there is one. -/
def splitHost : List Char → Bool × List Char
  | '/' :: '/' :: cs => (cs.head?.any (· != '/'), cs.dropWhile (· != '/'))
  | cs => (false, cs)

/-- Follow the dots of a path: one stays, two take away the part before them. -/
def followDots : (done : List String) → List String → List String
  | done, [] => done
  | done, p :: ps =>
      if p == "." then followDots done ps
      else if p == ".." then followDots done.dropLast ps
      else followDots (done ++ [p]) ps

/-- A path without dots. -/
def withoutDots (cs : List Char) : String :=
  let kept := followDots [] ((Path.cut (cs.drop 1)).map String.ofList)
  if kept.isEmpty then "/" else "/" ++ "/".intercalate kept

/-- The path that an address leads to. -/
def path (address : String) : Except Invalid String :=
  let cs := address.toList
  match cs.find? isControl with
  | some c => .error (.control c (cs.takeWhile (!isControl ·)).length)
  | none =>
      let (schemed, rest) := splitScheme (cs.takeWhile fun c => c != '?' && c != '#')
      let (hosted, body) := splitHost rest
      if !schemed && !hosted && ['/', '/'].isPrefixOf body then .error .slashes
      else if !schemed && !hosted && body.head? == some ':' then .error .colon
      else
        let whole := if schemed && hosted then body else '/' :: body.dropWhile (· == '/')
        .ok (Text.ofPercent (withoutDots whole))

end TripleLogic.Server.Address
