/-
TripleLogic.Expr.Token — simple expressions read from their texts.

White space around a token does not count. Angle brackets make a concept,
the two truth values and numbers are literals, and any other text is an
identifier.
-/
import TripleLogic.Expr.Basic
import TripleLogic.Number.Numeral

namespace TripleLogic

/-- The inside of a text that stands between angle brackets. -/
def bracketed? (cs : List Char) : Option (List Char) :=
  match cs with
  | '<' :: rest => if rest.getLast? == some '>' then some rest.dropLast else none
  | _ => none

namespace Expr

/-- Read a simple token from text without white space around it. -/
def ofChars (cs : List Char) : Expr :=
  match bracketed? cs with
  | some name => .concept (String.ofList name)
  | none =>
      let s := String.ofList cs
      if s == "true" then .literal (.bool true)
      else if s == "false" then .literal (.bool false)
      else
        match Numeral.int? cs with
        | some n => .literal (.num (.int n))
        | none =>
            match Numeral.float? cs with
            | some x => .literal (.num (.float x))
            | none => .identifier s

/-- Read a simple token from text. -/
def ofText (s : String) : Expr :=
  ofChars (Text.trim s.toList)

/-- The concept that a text names, with or without angle brackets; a text
that begins with a question mark names a variable. -/
def conceptOfText (s : String) : Expr :=
  let cs := Text.trim s.toList
  match ofChars cs with
  | .concept name => .concept name
  | e => if cs.head? == some '?' then e else .concept (String.ofList cs)

end Expr

end TripleLogic
