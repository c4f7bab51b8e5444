/-
TripleLogic.Unification — finding bindings that make two nodes equal.

Unification goes through two nodes of one form side by side and extends the
given bindings; it either succeeds as a whole or gives nothing. Expressions
other than variables must be equal; variables inside terms are not looked
into. An attribute that only one of two statements has must be a variable,
which stays as it is.
-/
import TripleLogic.Bindings
import TripleLogic.Node.Basic

namespace TripleLogic.Unify

/-- Unify two expressions. A variable that is not bound takes the other
side; of two such variables the left one does. -/
def exprs (a b : Expr) (θ : Bindings) : Option Bindings :=
  let a := θ.resolve a
  let b := θ.resolve b
  match a.varName?, b.varName? with
  | some v, some w => if v == w then some θ else some (θ.set v b)
  | some v, none => some (θ.set v b)
  | none, some w => some (θ.set w a)
  | none, none => if a.same b then some θ else none

/-- Unify two names, which may be variables. -/
def names (a b : String) (θ : Bindings) : Option Bindings :=
  exprs (.identifier a) (.identifier b) θ

/-- Unify what two statements have under a key. -/
def valuesAt (a b : Option Expr) (θ : Bindings) : Option Bindings :=
  match a, b with
  | some x, some y => exprs x y θ
  | some x, none => if x.isVariable then some θ else none
  | none, some y => if y.isVariable then some θ else none
  | none, none => some θ

/-- Unify the attributes of two statements, key by key. -/
def attributes (a b : Attributes) : List String → Bindings → Option Bindings
  | [], θ => some θ
  | k :: ks, θ => do
      let θ ← valuesAt (a.get? k) (b.get? k) θ
      attributes a b ks θ

/-- Unify two statements: subjects, relations, objects and attributes, in
this order. -/
def statements (s t : Statement) (θ : Bindings) : Option Bindings := do
  let θ ← exprs s.subject t.subject θ
  let θ ← names s.relation.name t.relation.name θ
  let θ ← exprs s.object t.object θ
  attributes s.attributes t.attributes (Attributes.keys s.attributes t.attributes) θ

/-- Unify two lists of statements of one length, in order. -/
def statementLists : List Statement → List Statement → Bindings → Option Bindings
  | [], [], θ => some θ
  | s :: ss, t :: ts, θ => do
      let θ ← statements s t θ
      statementLists ss ts θ
  | _, _, _ => none

/-- Unify two intents of one kind. -/
def intents (a b : Intent) (θ : Bindings) : Option Bindings :=
  if a.kind == b.kind then statementLists a.statements b.statements θ else none

/-- Unify two edges of one kind, by the names of their ends and their own. -/
def edges (a b : Edge) (θ : Bindings) : Option Bindings :=
  if a.kind == b.kind then do
    let θ ← names a.source b.source θ
    let θ ← names a.target b.target θ
    names a.name b.name θ
  else none

mutual

/-- Unify two nodes. -/
def nodes : Node → Node → Bindings → Option Bindings
  | .intent a, .intent b, θ => intents a b θ
  | .compound o a c, .compound p b d, θ =>
      if o == p then do
        let θ ← operands a b θ
        operands c d θ
      else none
  | .quantified q v a d, .quantified r w b e, θ =>
      if q == r && v == w && d == e then nodes a b θ else none
  | .rule i a c _ x _, .rule j b d _ y _, θ =>
      if i == j && x == y then do
        let θ ← nodes a b θ
        nodes c d θ
      else none
  | .edge a, .edge b, θ => edges a b θ
  | _, _, _ => none

/-- Unify two operands; either both are missing or none is. -/
def operands : Option Node → Option Node → Bindings → Option Bindings
  | none, none, θ => some θ
  | some a, some b, θ => nodes a b θ
  | _, _, _ => none

end

end TripleLogic.Unify

namespace TripleLogic.Node

/-- The bindings under which two nodes are equal, as far as unification
finds them, extending the given ones. -/
def unifyWith (a b : Node) (θ : Bindings) : Option Bindings :=
  Unify.nodes a b θ

/-- The public form of the bindings under which two nodes are equal. -/
def unify (a b : Node) : Option Substitution :=
  (unifyWith a b []).map Bindings.publish

end TripleLogic.Node
