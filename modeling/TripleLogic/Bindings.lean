/-
TripleLogic.Bindings — what variables stand for.

Bindings map the names of variables to expressions, each name once. Since
a variable may be bound to another one, its final value is found by following
bindings; a binding that has been followed is not followed again, so a cycle
of variables ends where it would repeat itself.
-/
import TripleLogic.Expr.Token

namespace TripleLogic

/-- Bindings of variables, in the order in which they were made. -/
abbrev Bindings := List (String × Expr)

/-- The public form of bindings: variables and the texts of their values. -/
abbrev Substitution := List (String × String)

namespace Bindings

/-- The expression that a variable is bound to. -/
def get? (θ : Bindings) (v : String) : Option Expr :=
  θ.lookup v

/-- Bind a variable; one that is bound keeps its place and changes its value. -/
def set (θ : Bindings) (v : String) (e : Expr) : Bindings :=
  if (get? θ v).isSome then θ.map fun b => if b.1 == v then (v, e) else b
  else θ ++ [(v, e)]

/-- The bindings of the other variables. -/
def without (θ : Bindings) (v : String) : Bindings :=
  θ.filter fun b => b.1 != v

theorem length_without_lt {θ : Bindings} {v : String} {e : Expr} (h : get? θ v = some e) :
    (without θ v).length < θ.length := by
  induction θ with
  | nil => simp [get?] at h
  | cons b rest ih =>
      obtain ⟨w, f⟩ := b
      by_cases hw : v = w
      · subst hw
        have : (rest.filter fun b => b.1 != v).length ≤ rest.length := List.length_filter_le _ _
        simp [without]
        omega
      · have hw' : (w != v) = true := by simpa using fun h => hw h.symm
        have hl : get? rest v = some e := by
          simpa [get?, List.lookup_cons, beq_eq_false_iff_ne.2 hw] using h
        have := ih hl
        simp [without, hw'] at this ⊢
        exact this

/-- The final value of an expression: a bound variable is followed to what
it stands for, and so on, each binding at most once. -/
def resolve (θ : Bindings) (e : Expr) : Expr :=
  match e.varName? with
  | none => e
  | some v =>
      match _h : get? θ v with
      | none => e
      | some f => resolve (without θ v) f
termination_by θ.length
decreasing_by exact length_without_lt _h

/-- The texts of the final values of all bound variables. -/
def publish (θ : Bindings) : Substitution :=
  θ.map fun b => (b.1, (resolve θ b.2).text)

/-- Bindings from their public form: the texts are read as simple tokens. -/
def ofSubstitution (σ : Substitution) : Bindings :=
  σ.map fun b => (b.1, Expr.ofText b.2)

end Bindings

end TripleLogic
