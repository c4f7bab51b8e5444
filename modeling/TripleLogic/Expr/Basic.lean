/-
TripleLogic.Expr.Basic — expressions: the tokens of a statement.

A concept is a named entity, written between angle brackets; an identifier
is a bare name. Either of them is a variable when its name begins with a
question mark. The other expressions are literals, whose values are scalars
or composite data, and terms built from expressions.

Equality of expressions is `same`: it is structural, and numbers are
compared by exact value, so that `1` and `1.0` are one literal while `true`
and `1` are two.

Main statement: `same` is equality of canonical forms, hence an equivalence.
-/
import TripleLogic.Data.Canon
import TripleLogic.Data.Display

namespace TripleLogic

/-- The value of a plain literal. -/
inductive Scalar where
  | null
  | bool (b : Bool)
  | num (n : Number)
  | str (s : String)
  deriving DecidableEq, Repr, Inhabited

namespace Scalar

/-- The canonical form of a scalar: whole numbers are integers. -/
def canon : Scalar → Scalar
  | .num n => .num n.canon
  | s => s

/-- Whether two scalars are of one kind and equal, integers and
floating-point numbers being of one kind. -/
def same : Scalar → Scalar → Bool
  | .null, .null => true
  | .bool a, .bool b => a == b
  | .num a, .num b => a.same b
  | .str a, .str b => a == b
  | _, _ => false

/-- The text of a scalar. Whole floating-point numbers are written like
integers. -/
def text : Scalar → String
  | .null => "None"
  | .bool b => if b then "true" else "false"
  | .num n => n.plainText
  | .str s => s

theorem same_iff (a b : Scalar) : a.same b = true ↔ a.canon = b.canon := by
  cases a <;> cases b <;> simp [same, canon, Number.same_iff]

end Scalar

/-- An expression. -/
inductive Expr where
  | concept (name : String)
  | identifier (name : String)
  | literal (value : Scalar)
  /-- A literal whose value is a list or an object. -/
  | composite (value : Data)
  | unary (operator : String) (argument : Expr)
  | binary (operator : String) (left right : Expr)
  | application (function : String) (arguments : List Expr)
  | lambda (parameters : List String) (body : Expr)
  deriving Repr, Inhabited

/-- Whether a name is that of a variable. -/
def isVariableName (name : String) : Bool :=
  name.toList.head? == some '?'

namespace Expr

/-- The name of a variable. -/
def varName? : Expr → Option String
  | .concept name => if isVariableName name then some name else none
  | .identifier name => if isVariableName name then some name else none
  | _ => none

/-- Whether an expression is a variable. -/
def isVariable (e : Expr) : Bool :=
  e.varName?.isSome

mutual

/-- Equality of expressions. -/
def same : Expr → Expr → Bool
  | .concept a, .concept b => a == b
  | .identifier a, .identifier b => a == b
  | .literal a, .literal b => a.same b
  | .composite a, .composite b => a.same b
  | .unary o a, .unary p b => o == p && same a b
  | .binary o a c, .binary p b d => o == p && same a b && same c d
  | .application f as, .application g bs => f == g && sameAll as bs
  | .lambda ps a, .lambda qs b => ps == qs && same a b
  | _, _ => false

/-- Equality of lists of expressions. -/
def sameAll : List Expr → List Expr → Bool
  | [], [] => true
  | a :: as, b :: bs => same a b && sameAll as bs
  | _, _ => false

end

mutual

/-- The canonical form of an expression: whole numbers are integers. -/
def canon : Expr → Expr
  | .concept a => .concept a
  | .identifier a => .identifier a
  | .literal a => .literal a.canon
  | .composite a => .composite a.canon
  | .unary o a => .unary o (canon a)
  | .binary o a b => .binary o (canon a) (canon b)
  | .application f as => .application f (canonAll as)
  | .lambda ps a => .lambda ps (canon a)

/-- The canonical forms of a list of expressions. -/
def canonAll : List Expr → List Expr
  | [] => []
  | a :: as => canon a :: canonAll as

end

mutual

/-- The text of an expression. -/
def text : Expr → String
  | .concept name => "<" ++ name ++ ">"
  | .identifier name => name
  | .literal value => value.text
  | .composite value => value.display
  | .unary o a => o ++ "(" ++ text a ++ ")"
  | .binary o a b => "(" ++ text a ++ " " ++ o ++ " " ++ text b ++ ")"
  | .application f as => f ++ "(" ++ ", ".intercalate (textAll as) ++ ")"
  | .lambda ps a => "lambda " ++ ", ".intercalate ps ++ ": " ++ text a

/-- The texts of a list of expressions. -/
def textAll : List Expr → List String
  | [] => []
  | a :: as => text a :: textAll as

end

/-- The plain name by which an ontology knows an expression: concepts and
identifiers go by their names, other expressions by their texts. -/
def key : Expr → String
  | .concept name => name
  | .identifier name => name
  | e => e.text

mutual

theorem same_iff : ∀ a b : Expr, a.same b = true ↔ a.canon = b.canon
  | .concept _, b => by cases b <;> simp [same, canon]
  | .identifier _, b => by cases b <;> simp [same, canon]
  | .literal _, b => by cases b <;> simp [same, canon, Scalar.same_iff]
  | .composite _, b => by cases b <;> simp [same, canon, Data.same_iff]
  | .unary _ a, b => by
      cases b with
      | unary o b => simp [same, canon, same_iff a b]
      | _ => simp [same, canon]
  | .binary _ a c, b => by
      cases b with
      | binary o b d => simp [same, canon, same_iff a b, same_iff c d, and_assoc]
      | _ => simp [same, canon]
  | .application _ as, b => by
      cases b with
      | application f bs => simp [same, canon, sameAll_iff as bs]
      | _ => simp [same, canon]
  | .lambda _ a, b => by
      cases b with
      | lambda ps b => simp [same, canon, same_iff a b]
      | _ => simp [same, canon]

theorem sameAll_iff : ∀ as bs : List Expr, sameAll as bs = true ↔ canonAll as = canonAll bs
  | [], bs => by cases bs <;> simp [sameAll, canonAll]
  | a :: as, bs => by
      cases bs with
      | nil => simp [sameAll, canonAll]
      | cons b bs => simp [sameAll, canonAll, same_iff a b, sameAll_iff as bs]

end

end Expr

end TripleLogic
