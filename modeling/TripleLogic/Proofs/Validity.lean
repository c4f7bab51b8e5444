/-
TripleLogic.Proofs.Validity — when a node has no problems.

The checks on a node are of two kinds. Those of names look at one token after
the other and ask whether it fits the kind of its place (`Place.Accepts`). The
others look at each node inside on its own and at no token (`Node.Framed`).

Main statement: a node has no problems, whatever path it is reported under, if
and only if its names fit and every node inside it passes the other checks
(`problems_eq_nil_iff`). Substitution changes tokens only, so that it keeps
the latter (`Node.Framed.subst`).
-/
import TripleLogic.Draft
import TripleLogic.Proofs.Inside
import TripleLogic.Proofs.Tokens

namespace TripleLogic

/-! ## Names -/

/-- Whether a token fits a kind of place, where a relation or an edge is named
by its text. -/
def Place.Accepts : Place → Expr → Prop
  | .term, e => e.problems "" = []
  | .relation, e => isRelationName e.text = true
  | .edge, e => e.text ≠ ""

/-- The label of a name says where it stands and nothing about it. -/
theorem Expr.problems_eq_nil {label : String} {e : Expr} :
    e.problems label = [] ↔ Place.term.Accepts e := by
  have hname : ∀ name, nameProblems label name = [] ↔ nameProblems "" name = [] := by
    intro name
    unfold nameProblems
    split
    · simp
    · split <;> simp
  cases e with
  | concept name => exact hname name
  | identifier name => exact hname name
  | _ => exact Iff.rfl

theorem Relation.problems_eq_nil {r : Relation} :
    r.problems = [] ↔ Place.relation.Accepts (.identifier r.name) := by
  have hempty : isRelationName "" = false := rfl
  unfold problems Place.Accepts
  split
  · next h => simp [Expr.text, eq_of_beq h, hempty]
  · split
    · next h => simp [Expr.text, h]
    · next h => simp [Expr.text, h]

/-- The problem of a text that should not be empty. -/
theorem emptyText_eq_nil {text problem : String} :
    (if text == "" then [problem] else []) = [] ↔ text ≠ "" := by
  by_cases h : text = "" <;> simp [h]

theorem emptyProblem_eq_nil {path field value : String} :
    emptyProblem path field value = [] ↔ Place.edge.Accepts (.identifier value) :=
  emptyText_eq_nil

/-! ## Other checks -/

/-- Whether a confidence or a coherence is missing or in the unit interval. -/
def Data.InUnit (d : Data) : Prop :=
  unitProblems "" d = []

theorem unitProblems_eq_nil {label : String} {d : Data} :
    unitProblems label d = [] ↔ d.InUnit := by
  unfold Data.InUnit unitProblems
  split
  · exact Iff.rfl
  · split <;> simp
  · simp

/-- The checks on a node that are not of names and not of the nodes inside it. -/
def Node.Framed : Node → Prop
  | .intent i => isIntentKind i.kind = true ∧ i.statements ≠ [] ∧
      (∀ s ∈ i.statements, ∀ a ∈ s.attributes, a.1 ≠ "") ∧
        i.confidence.InUnit ∧ i.coherence.InUnit
  | .compound o a b => (Node.compound o a b).hasOperands = true
  | .quantified _ v _ _ => v ≠ ""
  | .rule i _ _ _ _ c => i ≠ "" ∧ c.InUnit
  | .edge e => e.confidence.InUnit

/-- Substitution changes nothing that these checks look at. -/
theorem Node.Framed.subst {θ : Bindings} {n : Node} (h : n.Framed) : (n.subst θ).Framed := by
  cases n with
  | intent i =>
      obtain ⟨hkind, hne, hkeys, hconf, hcoh⟩ := h
      refine ⟨hkind, by simpa using hne, ?_, hconf, hcoh⟩
      intro s hs a ha
      obtain ⟨t, ht, rfl⟩ := List.mem_map.1 hs
      obtain ⟨b, hb, rfl⟩ := List.mem_map.1 ha
      exact hkeys t ht b hb
  | compound o a b => exact ((Node.compound o a b).hasOperands_subst θ).trans h
  | _ => exact h

/-! ## No problems -/

theorem Statement.problems_eq_nil {s : Statement} :
    s.problems = [] ↔ (∀ x ∈ s.placed, x.1.Accepts x.2) ∧ ∀ a ∈ s.attributes, a.1 ≠ "" := by
  simp only [problems, placed, List.append_eq_nil_iff, List.flatMap_eq_nil_iff,
    Relation.problems_eq_nil, Expr.problems_eq_nil, emptyText_eq_nil, List.forall_mem_cons,
    List.forall_mem_map]
  constructor
  · rintro ⟨⟨⟨⟨hr, hs⟩, ho⟩, ha⟩, hk⟩
    exact ⟨⟨hs, hr, ho, ha⟩, hk⟩
  · rintro ⟨⟨hs, hr, ho, ha⟩, hk⟩
    exact ⟨⟨⟨⟨hr, hs⟩, ho⟩, ha⟩, hk⟩

theorem Intent.problems_eq_nil {path : String} {i : Intent} :
    i.problems path = [] ↔
      (Node.intent i).Framed ∧ ∀ s ∈ i.statements, ∀ x ∈ s.placed, x.1.Accepts x.2 := by
  have hkind : (if i.kind == "" then [path ++ ": intent kind is empty"]
      else if isIntentKind i.kind then []
      else [path ++ ": intent kind '" ++ i.kind ++ "' invalid"]) = [] ↔
        isIntentKind i.kind = true := by
    have hempty : isIntentKind "" = false := rfl
    split
    · next h => simp [eq_of_beq h, hempty]
    · split <;> simp_all
  have hstatements : (∀ p ∈ i.statements.zipIdx, p.1.problems = []) ↔
      ∀ s ∈ i.statements, s.problems = [] := by
    constructor
    · intro h s hs
      rw [← List.zipIdx_map_fst 0 i.statements] at hs
      obtain ⟨p, hp, rfl⟩ := List.mem_map.1 hs
      exact h p hp
    · exact fun h p hp => h p.1 (List.fst_mem_of_mem_zipIdx hp)
  have hne : (if i.statements.isEmpty then [path ++ ": intent has no statements"] else []) = [] ↔
      i.statements ≠ [] := by
    simp
  simp only [problems, List.append_eq_nil_iff, hkind, hne, unitProblems_eq_nil,
    List.flatMap_eq_nil_iff, List.map_eq_nil_iff, hstatements]
  simp only [Statement.problems_eq_nil, forall_and, Node.Framed]
  constructor
  · rintro ⟨⟨⟨⟨hk, hs⟩, hnames, hkeys⟩, hconf⟩, hcoh⟩
    exact ⟨⟨hk, hs, hkeys, hconf, hcoh⟩, hnames⟩
  · rintro ⟨⟨hk, hs, hkeys, hconf, hcoh⟩, hnames⟩
    exact ⟨⟨⟨⟨hk, hs⟩, hnames, hkeys⟩, hconf⟩, hcoh⟩

theorem Edge.problems_eq_nil {path : String} {e : Edge} :
    e.problems path = [] ↔ (Node.edge e).Framed ∧ ∀ x ∈ e.placed, x.1.Accepts x.2 := by
  simp only [problems, placed, tokens, List.append_eq_nil_iff, emptyProblem_eq_nil,
    unitProblems_eq_nil, List.map_cons, List.map_nil, List.forall_mem_cons, Node.Framed]
  constructor
  · rintro ⟨⟨⟨hs, ht⟩, hn⟩, hconf⟩
    exact ⟨hconf, hs, ht, hn, List.forall_mem_nil _⟩
  · rintro ⟨hconf, hs, ht, hn, -⟩
    exact ⟨⟨⟨hs, ht⟩, hn⟩, hconf⟩

theorem arityProblems_eq_nil {path : String} {o : Connective} {a b : Option Node} :
    arityProblems path o a.isSome b.isSome = [] ↔ (Node.compound o a b).hasOperands = true := by
  cases o <;> cases a <;> cases b <;> simp [arityProblems, Node.hasOperands]

namespace Node

/-- **A node has no problems** if and only if its names fit and every node
inside it passes the other checks. -/
theorem problems_eq_nil_iff {n : Node} {path : String} :
    n.problems path = [] ↔ n.Everywhere Framed ∧ n.Bears Place.Accepts := by
  induction n using Node.ind generalizing path with
  | intent i =>
      exact Intent.problems_eq_nil.trans (and_congr everywhere_intent.symm bears_intent.symm)
  | compound o a b iha ihb =>
      have hoperand : ∀ {a : Option Node} {path : String}, (∀ n, a = some n → ∀ {path : String},
          n.problems path = [] ↔ n.Everywhere Framed ∧ n.Bears Place.Accepts) →
          (operandProblems path a = [] ↔
            (∀ n, a = some n → n.Everywhere Framed) ∧ ∀ n, a = some n → n.Bears Place.Accepts) := by
        intro a path ih
        cases a with
        | none => simp [operandProblems]
        | some n => simpa [operandProblems] using ih n rfl
      rw [problems_compound, List.append_eq_nil_iff, List.append_eq_nil_iff, arityProblems_eq_nil,
        hoperand iha, hoperand ihb, everywhere_compound, bears_compound]
      constructor
      · rintro ⟨⟨harity, hfa, hba⟩, hfb, hbb⟩
        exact ⟨⟨harity, hfa, hfb⟩, hba, hbb⟩
      · rintro ⟨⟨harity, hfa, hfb⟩, hba, hbb⟩
        exact ⟨⟨harity, hfa, hba⟩, hfb, hbb⟩
  | quantified q v a d ih =>
      rw [problems_quantified, List.append_eq_nil_iff, emptyText_eq_nil, ih, everywhere_quantified,
        and_assoc]
      rfl
  | rule i a b d x c iha ihb =>
      simp only [problems_rule, List.append_eq_nil_iff, emptyText_eq_nil, unitProblems_eq_nil, iha, ihb,
        everywhere_rule, bears_rule, Framed]
      constructor
      · rintro ⟨⟨hhere, hfa, hba⟩, hfb, hbb⟩
        exact ⟨⟨hhere, hfa, hfb⟩, hba, hbb⟩
      · rintro ⟨⟨hhere, hfa, hfb⟩, hba, hbb⟩
        exact ⟨⟨hhere, hfa, hba⟩, hfb, hbb⟩
  | edge e => exact Edge.problems_eq_nil.trans (and_congr everywhere_edge.symm Iff.rfl)

end Node

end TripleLogic
