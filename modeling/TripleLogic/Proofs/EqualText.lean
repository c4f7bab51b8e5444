/-
TripleLogic.Proofs.EqualText — equal expressions have one text.

Equality compares numbers by value, and texts are made from the numbers as they
are. Still no text, no name and no public form of bindings tells equal
expressions apart, unless a list or an object stands in them as a literal: these
are compared by value, too, but shown as they are written, and `[1]` equals
`[1.0]` (`list_told_apart`).

Expressions are alike when they are equal and have one text. Bindings to
expressions that are alike have final values that are alike (`Alike.resolve`),
hence one public form (`Alike.publish`), and they fill in the same names
(`Alike.substName`). Equal keys have the same text (`Node.text_canon`), and they
unify with one public form (`Node.publish_unifyWith`).

Main statement: equality is an equivalence that refines text, so that nothing
tells apart what the knowledge base or unification takes for one
(`same_refines_text`).
-/
import TripleLogic.Proofs.Equality
import TripleLogic.Proofs.ExactValue
import TripleLogic.Proofs.Solving

namespace TripleLogic

/-- Lists have one image if their members have, one by one. -/
theorem map_eq_map_iff_forall₂ {α β γ : Type} {f : α → γ} {g : β → γ} {l : List α} {l' : List β} :
    l.map f = l'.map g ↔ List.Forall₂ (fun a b => f a = g b) l l' := by
  rw [← List.forall₂_eq_eq_eq, List.forall₂_map_left_iff, List.forall₂_map_right_iff]

namespace Expr

/-! ## Equal expressions -/

/-- Equality of expressions is an equivalence. -/
theorem same_equivalence : Equivalence fun a b : Expr => a.same b = true :=
  ⟨same_refl, same_symm, same_trans⟩

/-- Two expressions are equal and have one text. -/
structure Alike (a b : Expr) : Prop where
  same : a.same b = true
  text : a.text = b.text

theorem Alike.refl (e : Expr) : e.Alike e := ⟨same_refl e, rfl⟩

/-- Equal expressions have one text unless they hold lists or objects. -/
theorem alike_of_same {a b : Expr} (h : a.same b = true) (ha : a.composite? = none) :
    a.Alike b := by
  have hcanon := (same_iff a b).1 h
  have hb : b.composite? = none := by
    rw [← composite?_canon, ← hcanon, composite?_canon]
    exact ha
  exact ⟨h, by rw [← text_canon ha, hcanon, text_canon hb]⟩

theorem Alike.varName? {a b : Expr} (h : a.Alike b) : a.varName? = b.varName? :=
  Unify.varName?_of_same h.same

/-- An ontology knows expressions that are alike by one name. -/
theorem Alike.key {a b : Expr} (h : a.Alike b) : a.key = b.key := by
  obtain ⟨hs, ht⟩ := h
  cases a with
  | concept name =>
      cases b with
      | concept _ => simpa [Expr.same, Expr.key] using hs
      | _ => cases hs
  | identifier name =>
      cases b with
      | identifier _ => simpa [Expr.same, Expr.key] using hs
      | _ => cases hs
  | _ =>
      cases b with
      | concept _ => cases hs
      | identifier _ => cases hs
      | _ => exact ht

end Expr

/-! ## Bindings to expressions that are alike -/

namespace Bindings

/-- Bindings of the same variables, in one order, to expressions that are alike. -/
def Alike (θ η : Bindings) : Prop :=
  List.Forall₂ (fun b c => b.1 = c.1 ∧ b.2.Alike c.2) θ η

variable {θ η : Bindings}

theorem Alike.refl (θ : Bindings) : θ.Alike θ :=
  List.forall₂_same.2 fun b _ => ⟨rfl, .refl b.2⟩

/-- They bind the same variables. -/
theorem Alike.get? (h : θ.Alike η) (v : String) :
    (Bindings.get? θ v = none ∧ Bindings.get? η v = none) ∨
      ∃ e f, Bindings.get? θ v = some e ∧ Bindings.get? η v = some f ∧ e.Alike f := by
  induction h with
  | nil => exact .inl ⟨rfl, rfl⟩
  | @cons b c θ η hbc _ ih =>
      obtain ⟨w, e⟩ := b
      obtain ⟨_, f⟩ := c
      obtain ⟨rfl, hef⟩ := hbc
      rw [get?_cons, get?_cons]
      split
      · exact .inr ⟨e, f, rfl, rfl, hef⟩
      · exact ih

theorem Alike.isSome_get? (h : θ.Alike η) (v : String) :
    (Bindings.get? θ v).isSome = (Bindings.get? η v).isSome := by
  rcases h.get? v with ⟨hθ, hη⟩ | ⟨e, f, hθ, hη, -⟩ <;> rw [hθ, hη]
  rfl

theorem Alike.without (h : θ.Alike η) (v : String) : (without θ v).Alike (without η v) := by
  induction h with
  | nil => exact .nil
  | @cons b c θ η hbc _ ih =>
      simp only [Bindings.without, List.filter_cons, hbc.1]
      split
      · exact .cons hbc ih
      · exact ih

/-- Binding one variable to expressions that are alike. -/
theorem Alike.set (h : θ.Alike η) (v : String) {e f : Expr} (hef : e.Alike f) :
    (θ.set v e).Alike (η.set v f) := by
  simp only [Bindings.set, h.isSome_get? v]
  split
  · refine List.forall₂_map_left_iff.2 (List.forall₂_map_right_iff.2 (h.imp fun b c hbc => ?_))
    rw [hbc.1]
    split
    · exact ⟨rfl, hef⟩
    · exact hbc
  · exact List.rel_append h (.cons ⟨rfl, hef⟩ .nil)

/-- Final values under such bindings are alike. -/
theorem Alike.resolve (h : θ.Alike η) {e f : Expr} (hef : e.Alike f) :
    (θ.resolve e).Alike (η.resolve f) := by
  induction θ, e using Bindings.resolve.induct generalizing η f with
  | case1 θ e hv =>
      rw [resolve_of_not_variable hv, resolve_of_not_variable (hef.varName?.symm.trans hv)]
      exact hef
  | case2 θ e v hv hnone =>
      rcases h.get? v with ⟨-, hη⟩ | ⟨x, -, hx, -⟩
      · rw [resolve_of_unbound hv hnone, resolve_of_unbound (hef.varName?.symm.trans hv) hη]
        exact hef
      · cases hnone.symm.trans hx
  | case3 θ e v hv x hx ih =>
      rcases h.get? v with ⟨hnone, -⟩ | ⟨x', y, hx', hy, hxy⟩
      · cases hnone.symm.trans hx
      · cases hx.symm.trans hx'
        rw [resolve_of_get? hv hx, resolve_of_get? (hef.varName?.symm.trans hv) hy]
        exact ih (h.without v) hxy

/-- They have one public form. -/
theorem Alike.publish (h : θ.Alike η) : θ.publish = η.publish := by
  refine map_eq_map_iff_forall₂.2 (h.imp fun b c hbc => ?_)
  rw [hbc.1, (h.resolve hbc.2).text]

/-- They give a name one text. -/
theorem Alike.substName (h : θ.Alike η) (name : String) : substName θ name = substName η name := by
  rw [TripleLogic.substName, TripleLogic.substName, h.isSome_get?, (h.resolve (.refl _)).text]

/-- Equal bindings without lists and objects are alike. -/
theorem alike_of_canon (h : θ.canon = η.canon) (hθ : ∀ b ∈ θ, b.2.composite? = none) :
    θ.Alike η := by
  rw [canon, canon, map_eq_map_iff_forall₂] at h
  refine ((List.forall₂_and_left _ _).2 ⟨hθ, h⟩).imp fun b c hbc => ?_
  obtain ⟨hb, hbc⟩ := hbc
  obtain ⟨hname, hcanon⟩ := Prod.mk.inj hbc
  exact ⟨hname, Expr.alike_of_same ((Expr.same_iff _ _).2 hcanon) hb⟩

end Bindings

/-! ## What cannot tell two expressions apart -/

/-- Neither their texts, nor the names by which an ontology knows them, nor the
public form of bindings, nor names that bindings fill in tell two expressions
apart. -/
structure Expr.Indistinguishable (a b : Expr) : Prop where
  text : a.text = b.text
  key : a.key = b.key
  publish : ∀ (θ : Bindings) (v : String), (θ.set v a).publish = (θ.set v b).publish
  substName : ∀ (θ : Bindings) (v name : String),
    TripleLogic.substName (θ.set v a) name = TripleLogic.substName (θ.set v b) name

theorem Expr.Alike.indistinguishable {a b : Expr} (h : a.Alike b) : a.Indistinguishable b where
  text := h.text
  key := h.key
  publish θ v := ((Bindings.Alike.refl θ).set v h).publish
  substName θ v name := ((Bindings.Alike.refl θ).set v h).substName name

/-! ## Equal nodes -/

theorem Statement.text_canon {s : Statement} (h : ∀ e ∈ s.tokens, e.composite? = none) :
    s.canon.text = s.text := by
  simp only [tokens, List.forall_mem_cons, List.forall_mem_map] at h
  obtain ⟨hsub, -, hobj, hattr⟩ := h
  have hattributes : (s.attributes.canon.map fun a => a.1 ++ ": " ++ a.2.text)
      = s.attributes.map fun a => a.1 ++ ": " ++ a.2.text := by
    rw [Attributes.canon, List.map_map]
    refine List.map_congr_left fun a ha => ?_
    rw [Function.comp, Expr.text_canon (hattr a ha)]
  simp only [text, canon, Expr.text_canon hsub, Expr.text_canon hobj]
  cases has : s.attributes with
  | nil => rfl
  | cons a as =>
      rw [has] at hattributes
      simp only [Attributes.canon, List.map_cons] at hattributes ⊢
      rw [hattributes]

namespace Node

theorem textOperand_canon {a : Option Node} (h : ∀ n, a = some n → n.canon.text = n.text) :
    textOperand (canonOperand a) = textOperand a :=
  operand_cases a rfl h

/-- Equal nodes have one text if they are keys. -/
theorem text_canon {n : Node} (h : n.isKey = true) : n.canon.text = n.text := by
  rw [isKey_iff] at h
  induction n using Node.ind with
  | intent i =>
      rw [forall_tokens_intent] at h
      have hstatements : (i.statements.map Statement.canon).map Statement.text
          = i.statements.map Statement.text := by
        rw [List.map_map]
        exact List.map_congr_left fun s hs => Statement.text_canon (h s hs)
      simp only [canon, text, Intent.text, hstatements]
  | compound o a b iha ihb =>
      rw [forall_tokens_compound] at h
      have ha := textOperand_canon fun n hn => iha n hn (h.1 n hn)
      have hb := textOperand_canon fun n hn => ihb n hn (h.2 n hn)
      cases o <;> simp only [canon, text, ha, hb]
  | quantified q v a d ih => simp only [canon, text, ih h]
  | rule i a b d x c iha ihb =>
      rw [forall_tokens_rule] at h
      simp only [canon, text, iha h.1, ihb h.2]
  | edge e => rfl

/-- The tokens of equal keys cannot be told apart, one by one. -/
theorem forall₂_tokens_of_same {m n : Node} (h : m.same n = true) (hm : m.isKey = true) :
    List.Forall₂ Expr.Indistinguishable m.tokens n.tokens := by
  have htokens := congrArg tokens ((same_iff m n).1 h)
  rw [tokens_canon, tokens_canon, map_eq_map_iff_forall₂] at htokens
  refine ((List.forall₂_and_left _ _).2 ⟨isKey_iff.1 hm, htokens⟩).imp fun a b hab => ?_
  exact (Expr.alike_of_same ((Expr.same_iff a b).2 hab.2) hab.1).indistinguishable

end Node

/-- What a knowledge base finds is a key, and equal to a node that it holds. -/
theorem KnowledgeBase.exists_of_contains {kb : KnowledgeBase} {n : Node}
    (h : kb.contains (.node n) = true) : n.isKey = true ∧ ∃ m ∈ kb.nodes, m.same n = true := by
  obtain ⟨hkey, hheld⟩ := (Bool.and_eq_true _ _).mp h
  obtain ⟨x, hx, hsame⟩ := List.any_eq_true.1 hheld
  cases x with
  | node m => exact ⟨hkey, m, List.mem_filterMap.2 ⟨_, hx, rfl⟩, hsame⟩
  | _ => cases hsame

/-- Equal keys unify under equal bindings with one public form. -/
theorem Node.publish_unifyWith {a a' b b' : Node} (ha : a.same a' = true) (hb : b.same b' = true)
    (hkeyA : a.isKey = true) (hkeyB : b.isKey = true) {θ η : Bindings} (hθη : θ.canon = η.canon)
    (hθ : ∀ x ∈ θ, x.2.composite? = none) :
    (a.unifyWith b θ).map Bindings.publish = (a'.unifyWith b' η).map Bindings.publish := by
  have hagree := Unify.nodes_agree ((same_iff _ _).1 ha) ((same_iff _ _).1 hb) θ η hθη
  -- What is bound comes from the keys or was bound before, so it holds no list or object.
  have hkeeps : Unify.Keeps (fun θ => ∀ x ∈ θ, x.2.composite? = none) (Unify.nodes a b) :=
    Unify.nodes_keeps (fun _ _ _ => Unify.exprs_keeps (P := fun e => e.composite? = none))
      (bears_iff_tokens.2 (isKey_iff.1 hkeyA)) (bears_iff_tokens.2 (isKey_iff.1 hkeyB))
  simp only [unifyWith]
  cases hu : Unify.nodes a b θ with
  | none =>
      rw [hu, Option.map_none] at hagree
      rw [Option.map_none, Option.map_eq_none_iff.1 hagree.symm, Option.map_none]
  | some θ' =>
      rw [hu, Option.map_some] at hagree
      obtain ⟨η', hη', hcanon⟩ := Option.map_eq_some_iff.1 hagree.symm
      have halike := Bindings.alike_of_canon hcanon.symm (hkeeps θ θ' hθ hu)
      rw [hη', Option.map_some, Option.map_some, halike.publish]

/-! ## Equality and text -/

namespace Expr

/-- **Equality refines text.** Equality of expressions is an equivalence, and
equal expressions without lists and objects cannot be told apart. So it is with
the tokens of a node that the knowledge base finds and those of the node that it
holds, and with two values that unification compares and accepts; keys that are
replaced by equal ones unify with the same public form. Equal literals are of
one kind, and numbers are equal exactly when their values are; a whole number of
either kind has the digits of its value. -/
theorem same_refines_text :
    Equivalence (fun a b : Expr => a.same b = true) ∧
    (∀ a b : Expr, a.same b = true → a.composite? = none → a.Indistinguishable b) ∧
    (∀ (kb : KnowledgeBase) (n : Node), kb.contains (.node n) = true →
      ∃ m ∈ kb.nodes, m.text = n.text ∧ List.Forall₂ Indistinguishable m.tokens n.tokens) ∧
    (∀ (a b : Expr) (θ θ' : Bindings), Unify.exprs a b θ = some θ' →
      (θ.resolve a).isVariable = false → (θ.resolve b).isVariable = false →
      (θ.resolve a).composite? = none → (θ.resolve a).Indistinguishable (θ.resolve b)) ∧
    (∀ (a a' b b' : Node) (θ : Bindings), a.same a' = true → b.same b' = true →
      a.isKey = true → b.isKey = true → (∀ x ∈ θ, x.2.composite? = none) →
      (a.unifyWith b θ).map Bindings.publish = (a'.unifyWith b' θ).map Bindings.publish) ∧
    (∀ s t : Scalar, (literal s).same (literal t) = true → s.kind = t.kind) ∧
    (∀ a b : Number, a.Canonical → b.Canonical → ∀ q : ℚ, a.value? = some q →
      ((literal (.num a)).same (literal (.num b)) = true ↔ b.value? = some q)) ∧
    ∀ (a : Number) (n : Int), a.value? = some (n : ℚ) →
      (literal (.num a)).text = toString n := by
  refine ⟨same_equivalence, fun a b h ha => (alike_of_same h ha).indistinguishable, ?_, ?_, ?_,
    fun s t => Scalar.kind_of_same, fun a b ha hb q => Number.same_iff_value? ha hb,
    fun a n => Number.plainText_of_value?⟩
  · intro kb n h
    obtain ⟨hkey, m, hm, hsame⟩ := kb.exists_of_contains h
    have hcanon := (Node.same_iff m n).1 hsame
    have hm' : m.isKey = true := Node.isKey_of_canon hcanon hkey
    refine ⟨m, hm, ?_, Node.forall₂_tokens_of_same hsame hm'⟩
    rw [← Node.text_canon hm', hcanon, Node.text_canon hkey]
  · intro a b θ θ' h ha hb hcomposite
    have hvar : ∀ {e : Expr} {v : String}, e.isVariable = false → e.varName? ≠ some v := by
      intro e v he hv
      simp [isVariable, hv] at he
    -- Of the four ways to succeed, three look at a variable.
    rcases Unify.exprs_cases h with ⟨-, v, hav, -⟩ | ⟨-, -, -, hs⟩ | ⟨v, hav, -⟩ | ⟨v, -, hbv, -⟩
    · exact absurd hav (hvar ha)
    · exact (alike_of_same hs hcomposite).indistinguishable
    · exact absurd hav (hvar ha)
    · exact absurd hbv (hvar hb)
  · intro a a' b b' θ ha hb hkeyA hkeyB hθ
    exact Node.publish_unifyWith ha hb hkeyA hkeyB rfl hθ

end Expr

/-- So many metres. -/
def Expr.metres (n : Number) : Expr :=
  .application "metres" [.literal (.num n)]

/-- The distance of a galaxy. -/
def Node.distance (far : Expr) : Node :=
  .intent { kind := "!Assert", statements :=
    [{ subject := .concept "Andromeda", relation := { name := "distance" }, object := far }] }

/-- The floating-point number nearest to a large power of ten is another integer.
It equals that integer inside a term, and is written with its digits. -/
theorem andromeda_same_refines_text :
    let x := Binary64.ofDecimal false 1 23
    let n : Int := 99999999999999991611392
    let a := Expr.metres (.float x)
    let b := Expr.metres (.int n)
    let kb : KnowledgeBase := ⟨[.node (.distance a)]⟩
    let far := Expr.identifier "?Far"
    let θ : Bindings := [("?Far", a)]
    (a.same b = true ∧ a.composite? = none ∧ a.Indistinguishable b) ∧
    (kb.contains (.node (.distance b)) = true ∧
      ∃ m ∈ kb.nodes, m.text = (Node.distance b).text ∧
        List.Forall₂ Expr.Indistinguishable m.tokens (Node.distance b).tokens) ∧
    (Unify.exprs far b θ = some θ ∧ (θ.resolve far).Indistinguishable (θ.resolve b)) ∧
    (Node.distance far).unify (.distance a) = (Node.distance far).unify (.distance b) ∧
    (x.Canonical ∧ x.value? = some (n : ℚ) ∧
      (Expr.literal (.num (.float x))).same (.literal (.num (.int n))) = true ∧
      (Scalar.num (.float x)).kind = (Scalar.num (.int n)).kind ∧
      (Expr.literal (.num (.float x))).text = toString n) := by
  intro x n a b kb far θ
  have hx : x.Canonical := Binary64.canonical_ofDecimal false 1 23
  have hvalue : x.value? = some (n : ℚ) := Binary64.toInt?_eq_some_iff.1 (by decide +kernel)
  have hsame : a.same b = true := by decide +kernel
  have hsame' : (Node.distance a).same (.distance b) = true := by decide +kernel
  have hheld : kb.contains (.node (.distance b)) = true := by decide +kernel
  have hunify : Unify.exprs far b θ = some θ := by with_unfolding_all rfl
  have hfar : θ.resolve far = a := by with_unfolding_all rfl
  have hb : θ.resolve b = b := by with_unfolding_all rfl
  obtain ⟨-, hrefines, hholds, haccepts, hpublic, hkind, hnumber, htext⟩ :=
    Expr.same_refines_text
  have hliteral := (hnumber (.float x) (.int n) hx trivial n hvalue).2 rfl
  refine ⟨⟨hsame, rfl, hrefines a b hsame rfl⟩, ⟨hheld, hholds kb _ hheld⟩, ⟨hunify, ?_⟩,
    ?_, hx, hvalue, hliteral, hkind _ _ hliteral, htext (.float x) n hvalue⟩
  · exact haccepts far b θ θ hunify (by rw [hfar]; rfl) (by rw [hb]; rfl) (by rw [hfar]; rfl)
  · exact hpublic _ _ _ _ [] (by decide) hsame' (by decide) (by decide) nofun

/-- Lists are compared by value and shown as they are written. Unification finds
two of them equal that are two names for an ontology, and the public form of
bindings keeps them apart. -/
theorem list_told_apart :
    let a : Expr := .composite (.list [.int 1])
    let b : Expr := .composite (.list [.float (Binary64.ofDecimal false 1 0)])
    let θ : Bindings := [("?X", a), ("?Y", b)]
    a.same b = true ∧ (a.text = "[1]" ∧ b.text = "[1.0]") ∧ (a.key = "[1]" ∧ b.key = "[1.0]") ∧
      (Node.distance (.identifier "?X")).unifyWith (.distance (.identifier "?Y")) θ = some θ ∧
      θ.publish = [("?X", "[1]"), ("?Y", "[1.0]")] := by
  intro a b θ
  refine ⟨by decide +kernel, by decide +kernel, by decide +kernel, ?_, ?_⟩
  · with_unfolding_all rfl
  · with_unfolding_all decide +kernel

end TripleLogic
