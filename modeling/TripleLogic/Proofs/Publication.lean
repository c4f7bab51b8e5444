/-
TripleLogic.Proofs.Publication — bindings in their public form do what the
bindings do.

The public form of bindings gives the text of the final value of each
variable, and its texts are read as simple tokens. Two things have to agree
for a substitution to be the same by both. The final values must be read back
from their texts (`ofText_text`, on the expressions that are `Legible`). And
a variable that is read back must be bound to nothing: the bindings that
unification finds have no cycle (`acyclic_of_unifyWith`), so that final values
that are variables are not bound, and following bindings to final values is
following the bindings themselves (`resolve_settled`).

Main statement: `subst_publish`.
-/
import TripleLogic.Proofs.Numeral
import TripleLogic.Proofs.Spelling
import TripleLogic.Proofs.Tokens

namespace TripleLogic

/-! ## Reading tokens back -/

namespace Expr

/-- An expression that is read back from its text: a concept, a truth value,
a whole number of no more digits than are read, or an identifier that no
other token is written as. -/
def Legible : Expr → Prop
  | .concept _ => True
  | .literal (.bool _) => True
  | .literal (.num (.int n)) => (Nat.toDigits 10 n.natAbs).length ≤ Numeral.maxDigits
  | .identifier name =>
      Text.trim name.toList = name.toList ∧ isBracketed name = false ∧ name ≠ "true" ∧
        name ≠ "false" ∧ Numeral.int? name.toList = none ∧ Numeral.float? name.toList = none
  | _ => False

/-- What stands between angle brackets is read as a concept. -/
theorem ofText_concept (name : String) : ofText ("<" ++ name ++ ">") = .concept name := by
  have htrim : Text.trim ("<" ++ name ++ ">").toList = ("<" ++ name ++ ">").toList := by
    refine Text.trimWith_eq_self (fun c hc => ?_) (fun c hc => ?_)
    · rw [String.toList_append, String.toList_append] at hc
      cases hc
      rfl
    · rw [String.toList_append, show ">".toList = ['>'] from rfl, List.getLast?_concat] at hc
      cases hc
      rfl
  rw [ofText, htrim, ofChars, bracketed?_brackets]
  simp

/-- The digits of a whole number, perhaps after a minus, are read as the number. -/
theorem ofText_int {n : Int} (h : (Nat.toDigits 10 n.natAbs).length ≤ Numeral.maxDigits) :
    ofText (toString n) = .literal (.num (.int n)) := by
  have hread := Numeral.int?_toString h
  have hplain : ∀ c ∈ (toString n).toList, Text.isBlank c = false ∧ c ≠ '<' := by
    intro c hc
    rcases Numeral.mem_toString hc with rfl | hd
    · decide
    · exact ⟨Text.isBlank_of_isDigit hd, fun h => by subst h; cases hd⟩
  have htrim : Text.trim (toString n).toList = (toString n).toList :=
    Text.trimWith_eq_self (fun c hc => (hplain c (List.mem_of_head? hc)).1)
      (fun c hc => (hplain c (List.mem_of_getLast? hc)).1)
  have hbracket : bracketed? (toString n).toList = none :=
    bracketed?_of_head? fun hhead => (hplain '<' (List.mem_of_head? hhead)).2 rfl
  -- The words for truth values are no numbers.
  have hword : ∀ word : String, Numeral.int? word.toList = none → (toString n == word) = false := by
    intro word hnone
    refine beq_eq_false_iff_ne.2 fun heq => ?_
    rw [heq, hnone] at hread
    cases hread
  simp only [ofText, htrim, ofChars, hbracket, String.ofList_toList, hread,
    hword "true" (by decide), hword "false" (by decide), Bool.false_eq_true, if_false]

/-- What is written as no other token is read as an identifier. -/
theorem ofText_identifier {name : String} (h : (Expr.identifier name).Legible) :
    ofText name = .identifier name := by
  obtain ⟨htrim, hbracket, htrue, hfalse, hint, hfloat⟩ := h
  simp only [ofText, htrim, ofChars, bracketed?_eq_none_iff.2 hbracket, String.ofList_toList,
    hint, hfloat, beq_eq_false_iff_ne.2 htrue, beq_eq_false_iff_ne.2 hfalse,
    Bool.false_eq_true, if_false]

/-- **Legible expressions are read back** from their texts. -/
theorem ofText_text {e : Expr} (h : e.Legible) : ofText e.text = e := by
  cases e with
  | concept name => exact ofText_concept name
  | identifier name => exact ofText_identifier h
  | literal value =>
      cases value with
      | bool b => cases b <;> rfl
      | num x =>
          cases x with
          | int n => exact ofText_int h
          | float x => cases h
      | null => cases h
      | str s => cases h
  | _ => cases h

end Expr

/-! ## Bindings that unification finds -/

/-- Unification makes no cycle of variables. -/
theorem Node.acyclic_of_unifyWith {a b : Node} {θ : Bindings} (h : a.unifyWith b [] = some θ) :
    θ.Acyclic :=
  Unify.nodes_keeps (T := fun _ _ => True)
    (fun _ x y _ _ η η' hη hu => (Unify.exprs_sound x y η η' hη hu).1)
    (fun _ _ => trivial) (fun _ _ => trivial) [] θ Bindings.acyclic_nil h

namespace Bindings

/-! ## Bindings to final values -/

/-- The bindings of all bound variables to their final values. -/
def settled (θ : Bindings) : Bindings :=
  θ.map fun b => (b.1, θ.resolve b.2)

/-- Legible final values are read back from the public form. -/
theorem ofSubstitution_publish {θ : Bindings} (h : ∀ b ∈ θ, (θ.resolve b.2).Legible) :
    ofSubstitution θ.publish = θ.settled := by
  rw [ofSubstitution, publish, settled, List.map_map]
  refine List.map_congr_left fun b hb => ?_
  rw [Function.comp, Expr.ofText_text (h b hb)]

theorem get?_settled (θ : Bindings) (v : String) :
    get? θ.settled v = (get? θ v).map θ.resolve :=
  lookup_map_snd θ.resolve v θ

/-- Without cycles, final values do not change when they are bound to directly. -/
theorem resolve_settled {θ : Bindings} (hθ : θ.Acyclic) (e : Expr) :
    θ.settled.resolve e = θ.resolve e := by
  cases hv : e.varName? with
  | none => rw [resolve_of_not_variable hv, resolve_of_not_variable hv]
  | some v =>
      cases hf : get? θ v with
      | none =>
          rw [resolve_of_unbound hv hf, resolve_of_unbound hv (by rw [get?_settled, hf]; rfl)]
      | some f =>
          have hset : get? θ.settled v = some (θ.resolve f) := by rw [get?_settled, hf]; rfl
          rw [resolve_of_get? hv hset, resolve_of_bound hθ hv hf]
          -- The final value is no variable, or one that is bound to nothing.
          cases hw : (θ.resolve f).varName? with
          | none => exact resolve_of_not_variable hw _
          | some w =>
              have hfree := get?_eq_none_of_resolve hθ f w hw
              refine resolve_of_unbound hw ?_
              rw [get?_without, get?_settled, hfree]
              split <;> rfl

end Bindings

/-! ## Substitution -/

section

variable {θ η : Bindings} (hbound : ∀ v, (θ.get? v).isSome = (η.get? v).isSome)
  (hfinal : ∀ e, θ.resolve e = η.resolve e)

include hbound hfinal

theorem substName_congr (name : String) : substName θ name = substName η name := by
  rw [substName, substName, hbound, hfinal]

theorem Statement.subst_congr (s : Statement) : s.subst θ = s.subst η := by
  have hexpr : Expr.subst θ = Expr.subst η := funext hfinal
  simp only [subst, hexpr, substName_congr hbound hfinal]

theorem Edge.subst_congr (e : Edge) : e.subst θ = e.subst η := by
  simp only [subst, substName_congr hbound hfinal]

/-- Substitution depends only on which variables are bound and on final values. -/
theorem Node.subst_congr (n : Node) : n.subst θ = n.subst η := by
  induction n using Node.ind with
  | intent i =>
      have hstatement : Statement.subst θ = Statement.subst η :=
        funext (Statement.subst_congr hbound hfinal)
      simp only [subst, hstatement]
  | compound o a b iha ihb =>
      simp only [subst, substOperand_eq_map]
      rw [Option.map_congr fun n hn => iha n hn, Option.map_congr fun n hn => ihb n hn]
  | quantified q v a d ih => simp only [subst, ih]
  | rule i a b d x c iha ihb => simp only [subst, iha, ihb]
  | edge e => simp only [subst, Edge.subst_congr hbound hfinal]

end

/-- **Substituting by the public form is substituting by the bindings**, in
every node, for bindings that unification finds and of which the final values
are legible. -/
theorem Node.subst_publish {a b : Node} {θ : Bindings} (h : a.unifyWith b [] = some θ)
    (hlegible : ∀ b ∈ θ, (θ.resolve b.2).Legible) (n : Node) :
    n.subst (.ofSubstitution θ.publish) = n.subst θ := by
  rw [Bindings.ofSubstitution_publish hlegible]
  refine subst_congr (fun v => ?_) (Bindings.resolve_settled (acyclic_of_unifyWith h)) n
  rw [Bindings.get?_settled, Option.isSome_map]

/-- A visit of someone at some time. -/
def visitPattern : Node :=
  .intent { kind := "!Assert", statements :=
    [{ subject := .concept "?Who", relation := { name := "?How" }, object := .identifier "?When" }] }

/-- A visit in a year before the first. -/
def visit : Node :=
  .intent { kind := "!Assert", statements :=
    [{ subject := .concept "Ann", relation := { name := "came" }
       object := .literal (.num (.int (-44))) }] }

/-- What the places of the pattern stand for in the visit. -/
def visitBindings : Bindings :=
  [("?Who", .concept "Ann"), ("?How", .identifier "came"), ("?When", .literal (.num (.int (-44))))]

/-- Whoever comes leaves again. -/
def visitRule : Node :=
  Node.implies visitPattern (.intent { kind := "!Assert", statements :=
    [{ subject := .identifier "?Who", relation := { name := "left" }
       object := .literal .null, attributes := [("after", .concept "?When")] }] })

/-- The texts of a concept, of a name and of a negative number do what these do. -/
theorem visit_subst_publish :
    visitPattern.unifyWith visit [] = some visitBindings ∧
      (∀ b ∈ visitBindings, (visitBindings.resolve b.2).Legible) ∧
      visitRule.subst (.ofSubstitution visitBindings.publish) = visitRule.subst visitBindings := by
  have hunify : visitPattern.unifyWith visit [] = some visitBindings := by with_unfolding_all rfl
  have hlegible : ∀ b ∈ visitBindings, (visitBindings.resolve b.2).Legible := by
    simp only [visitBindings, List.forall_mem_cons]
    refine ⟨?_, ?_, ?_, nofun⟩
    · rw [Bindings.resolve_of_not_variable (by decide)]
      trivial
    · rw [Bindings.resolve_of_not_variable (by decide)]
      exact ⟨by decide, by decide, by decide, by decide, by decide, by decide⟩
    · rw [Bindings.resolve_of_not_variable rfl]
      exact (by decide : 2 ≤ Numeral.maxDigits)
  exact ⟨hunify, hlegible, Node.subst_publish hunify hlegible _⟩

end TripleLogic
