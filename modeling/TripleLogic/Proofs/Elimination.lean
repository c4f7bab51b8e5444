/-
TripleLogic.Proofs.Elimination — substitution does away with the variables that
it binds, and with nothing else.

Where no name of a relation or of an edge is a variable, substitution is the
replacement of terms by their final values (`subst_eq_mapTerms`); everything
that is not a subject, an object or a value of an attribute stays as it is.
Without cycles a final value has no binding to follow, so that a second
substitution finds nothing to replace (`subst_of_final`).

Statements keep their attributes in the order of keys. Replacing values changes
no key, and sorting the attributes again changes nothing.

Main statement: `subst_eliminates`.
-/
import TripleLogic.Proofs.Following
import TripleLogic.Proofs.RoundTrip

namespace TripleLogic

/-! ## Terms -/

/-- Replace the terms of a statement. -/
def Statement.mapTerms (f : Expr → Expr) (s : Statement) : Statement :=
  { s with subject := f s.subject, object := f s.object,
           attributes := s.attributes.map fun a => (a.1, f a.2) }

namespace Node

/-- The terms of a node: those of its statements. -/
def terms (n : Node) : List Expr :=
  n.collect Statement.terms fun _ => []

mutual

/-- Replace the terms of a node. -/
def mapTerms (f : Expr → Expr) : Node → Node
  | .intent i => .intent { i with statements := i.statements.map (Statement.mapTerms f) }
  | .compound o a b => .compound o (mapTermsOperand f a) (mapTermsOperand f b)
  | .quantified q v a d => .quantified q v (mapTerms f a) d
  | .rule i a b d x c => .rule i (mapTerms f a) (mapTerms f b) d x c
  | .edge e => .edge e

/-- Replace the terms of an operand that may be missing. -/
def mapTermsOperand (f : Expr → Expr) : Option Node → Option Node
  | none => none
  | some a => some (mapTerms f a)

end

/-- No name of a relation or of an edge is a variable. -/
def NamesFixed (n : Node) : Prop :=
  n.Bears fun p e => p ≠ .term → e.varName? = none

instance (n : Node) : Decidable n.NamesFixed :=
  inferInstanceAs (Decidable (∀ x ∈ n.placed, x.1 ≠ .term → x.2.varName? = none))

end Node

theorem Statement.terms_mapTerms (f : Expr → Expr) (s : Statement) :
    (s.mapTerms f).terms = s.terms.map f := by
  simp [terms, mapTerms]

theorem Node.terms_mapTerms (f : Expr → Expr) (n : Node) :
    (n.mapTerms f).terms = n.terms.map f := by
  induction n using Node.ind with
  | intent i =>
      simp only [mapTerms, terms, collect, List.flatMap_map, List.map_flatMap,
        Statement.terms_mapTerms]
  | compound o a b iha ihb =>
      have hoperand : ∀ a : Option Node, (∀ n, a = some n → (n.mapTerms f).terms = n.terms.map f) →
          collectOperand Statement.terms (fun _ => []) (mapTermsOperand f a) =
            (collectOperand Statement.terms (fun _ => []) a).map f :=
        fun a ih => operand_cases a rfl ih
      simp only [mapTerms, terms, collect, hoperand a iha, hoperand b ihb, List.map_append]
  | quantified q v a d ih => exact ih
  | rule i a b d x c iha ihb =>
      simp only [terms] at iha ihb
      simp only [mapTerms, terms, collect, iha, ihb, List.map_append]
  | edge e => rfl

/-! ## Names that are not replaced -/

theorem isVariableName_of_varName?_identifier {name : String}
    (h : (Expr.identifier name).varName? = none) : isVariableName name = false := by
  cases hv : isVariableName name with
  | false => rfl
  | true => cases (Expr.varName?_identifier hv).symm.trans h

variable {θ : Bindings}

theorem Statement.subst_eq_mapTerms {s : Statement} (h : isVariableName s.relation.name = false) :
    s.subst θ = s.mapTerms θ.resolve := by
  simp only [subst, mapTerms, substName_of_not_variable h]
  rfl

namespace Node

theorem namesFixed_intent {i : Intent} :
    (Node.intent i).NamesFixed ↔ ∀ s ∈ i.statements, isVariableName s.relation.name = false := by
  refine bears_intent.trans (forall_congr' fun s => forall_congr' fun _ => ?_)
  simp only [Statement.placed, List.forall_mem_cons, List.forall_mem_map]
  constructor
  · exact fun h => isVariableName_of_varName?_identifier (h.2.1 (by decide))
  · intro h
    refine ⟨fun hne => absurd rfl hne, fun _ => ?_, fun hne => absurd rfl hne,
      fun _ _ hne => absurd rfl hne⟩
    exact Expr.varName?_identifier_none h

/-- Where names are not variables, substitution replaces terms and nothing else. -/
theorem subst_eq_mapTerms {n : Node} (h : n.NamesFixed) : n.subst θ = n.mapTerms θ.resolve := by
  induction n using Node.ind with
  | intent i =>
      rw [namesFixed_intent] at h
      simp only [subst, mapTerms]
      rw [List.map_congr_left fun s hs => Statement.subst_eq_mapTerms (h s hs)]
  | compound o a b iha ihb =>
      rw [NamesFixed, bears_compound] at h
      have ha : substOperand θ a = mapTermsOperand θ.resolve a :=
        operand_cases a rfl fun n hn => congrArg some (iha n hn (h.1 n hn))
      have hb : substOperand θ b = mapTermsOperand θ.resolve b :=
        operand_cases b rfl fun n hn => congrArg some (ihb n hn (h.2 n hn))
      simp only [subst, mapTerms, ha, hb]
  | quantified q v a d ih => simp only [subst, mapTerms, ih h]
  | rule i a b d x c iha ihb =>
      rw [NamesFixed, bears_rule] at h
      simp only [subst, mapTerms, iha h.1, ihb h.2]
  | edge e =>
      have hvars : e.vars = [] := by
        simp only [NamesFixed, Bears, placed, collect, Edge.placed, Edge.tokens, List.map_cons,
          List.map_nil, List.forall_mem_cons] at h
        exact Edge.vars_eq_nil.2 ⟨isVariableName_of_varName?_identifier (h.1 (by decide)),
          isVariableName_of_varName?_identifier (h.2.1 (by decide)),
          isVariableName_of_varName?_identifier (h.2.2.1 (by decide))⟩
      simp only [subst, mapTerms, Edge.subst_of_vars hvars]

/-- Substitution makes no name a variable. -/
theorem NamesFixed.subst {n : Node} (h : n.NamesFixed) : (n.subst θ).NamesFixed := by
  refine Bears.subst ?_ h
  constructor
  · exact fun _ _ hne => absurd rfl hne
  · intro p name hp hname _
    rw [substName_of_not_variable (isVariableName_of_varName?_identifier (hname hp))]
    exact hname hp

end Node

/-! ## Terms that are not replaced -/

namespace Bindings

/-- An expression with no binding to follow is its final value. -/
theorem Final.resolve_eq {e : Expr} (h : θ.Final e) : θ.resolve e = e := by
  cases hv : e.varName? with
  | none => exact resolve_of_not_variable hv θ
  | some v => exact resolve_of_unbound hv (h v hv)

end Bindings

theorem Statement.mapTerms_eq_self {f : Expr → Expr} {s : Statement}
    (h : ∀ e ∈ s.terms, f e = e) : s.mapTerms f = s := by
  simp only [terms, List.forall_mem_cons, List.forall_mem_map] at h
  obtain ⟨hs, ho, ha⟩ := h
  have hattributes : (s.attributes.map fun a => (a.1, f a.2)) = s.attributes := by
    rw [List.map_congr_left fun a hm => by rw [ha a hm], List.map_id']
  simp only [mapTerms, hs, ho, hattributes]

/-- Replacing all terms by themselves changes nothing. -/
theorem Node.mapTerms_eq_self {f : Expr → Expr} {n : Node} (h : ∀ e ∈ n.terms, f e = e) :
    n.mapTerms f = n := by
  induction n using Node.ind with
  | intent i =>
      rw [terms, forall_collect_intent] at h
      simp only [mapTerms]
      rw [List.map_congr_left fun s hs => Statement.mapTerms_eq_self (h s hs), List.map_id']
  | compound o a b iha ihb =>
      rw [terms, forall_collect_compound] at h
      have ha : mapTermsOperand f a = a :=
        operand_cases a rfl fun n hn => congrArg some (iha n hn (h.1 n hn))
      have hb : mapTermsOperand f b = b :=
        operand_cases b rfl fun n hn => congrArg some (ihb n hn (h.2 n hn))
      simp only [mapTerms, ha, hb]
  | quantified q v a d ih => simp only [mapTerms, ih h]
  | rule i a b d x c iha ihb =>
      rw [terms, forall_collect_rule] at h
      simp only [mapTerms, iha h.1, ihb h.2]
  | edge e => rfl

/-- A node in which no variable is bound is not changed. -/
theorem Node.subst_of_final {n : Node} (hn : n.NamesFixed) (h : ∀ e ∈ n.terms, θ.Final e) :
    n.subst θ = n := by
  rw [subst_eq_mapTerms hn]
  exact mapTerms_eq_self fun e he => (h e he).resolve_eq

/-! ## Elimination -/

/-- What substitution makes of a node of which the names are not variables. -/
structure Node.Eliminates (θ : Bindings) (n : Node) : Prop where
  /-- No subject, object or value of an attribute is a bound variable. -/
  unbound : ∀ e ∈ (n.subst θ).terms, ∀ v, e.varName? = some v → θ.get? v = none
  /-- Terms are replaced by their final values, and nothing else changes. -/
  frame : n.subst θ = n.mapTerms θ.resolve
  /-- Terms that are no bound variables stay as they are. -/
  kept : ∀ e ∈ n.terms, (∀ v, e.varName? = some v → θ.get? v = none) → θ.resolve e = e
  /-- Statements that are put together again from their parts, with their
  attributes sorted, are the same. -/
  rebuilt : ∀ s ∈ n.statements, s.Sorted →
    Statement.make (s.subject.subst θ) (s.subst θ).relation (s.object.subst θ)
      (s.attributes.map fun a => (a.1, a.2.subst θ)) = s.subst θ
  /-- A second substitution changes nothing. -/
  twice : (n.subst θ).subst θ = n.subst θ

/-- **Substitution does away with what it binds**: bindings without cycles, in a
node of which the names are not variables, leave none of their variables and
change nothing else. -/
theorem Node.subst_eliminates {θ : Bindings} (hθ : θ.Acyclic) {n : Node} (hn : n.NamesFixed) :
    n.Eliminates θ := by
  have hframe := subst_eq_mapTerms (θ := θ) hn
  have hfinal : ∀ e ∈ (n.subst θ).terms, θ.Final e := by
    intro e he
    rw [hframe, terms_mapTerms] at he
    obtain ⟨x, -, rfl⟩ := List.mem_map.1 he
    exact Bindings.get?_eq_none_of_resolve hθ x
  exact {
    unbound := hfinal
    frame := hframe
    kept := fun _ _ h => Bindings.Final.resolve_eq h
    rebuilt := fun _ _ hs => by simp only [Statement.make, hs.sorted_map (Expr.subst θ)]; rfl
    twice := subst_of_final hn.subst hfinal }

/-- A rule with a quantified premise, and a conclusion that lacks an operand. -/
def outing : Node :=
  .rule "outing"
    (.quantified .existential "guide"
      (.intent { kind := "!Assert", statements := [{
        subject := .concept "?Guest", relation := { name := "joins", tense := .str "past" },
        object := .application "tour" [.identifier "?Guest"],
        attributes := [("day", .identifier "?Day"), ("host", .concept "?Host")] }] }) none)
    (.compound .and
      (some (.edge { kind := .causal, source := "guide", target := "day", name := "chooses" }))
      none) none true .null

/-- The guest is the host by way of another variable; the day is not bound. -/
theorem outing_eliminates :
    let θ : Bindings := [("?Other", .concept "?Host"), ("?Guest", .identifier "?Other"),
      ("?Host", .concept "Ann")]
    θ.Acyclic ∧ outing.NamesFixed ∧ outing.Eliminates θ ∧
      (outing.subst θ).terms.map Expr.text =
        ["<Ann>", "tour(?Guest)", "?Day", "<Ann>"] := by
  intro θ
  have hθ : θ.Acyclic := by
    refine ⟨fun v => if v = "?Guest" then 2 else if v = "?Other" then 1 else 0, ?_⟩
    intro v e w hv hw
    simp only [θ, Bindings.get?_cons, Bindings.get?_nil] at hv
    split at hv
    · cases hv; cases hw; subst v; decide
    · split at hv
      · cases hv; cases hw; subst v; decide
      · split at hv <;> cases hv
        cases hw
  have hn : outing.NamesFixed := by decide +kernel
  exact ⟨hθ, hn, Node.subst_eliminates hθ hn, by decide +kernel⟩

end TripleLogic
