/-
TripleLogic.Proofs.Interpretation — when a node is true and when it holds.

An interpretation says of every atom, that is of every ground intent,
quantified node and edge, whether it is true. It does not tell two atoms
apart that unify with nothing to bind, so what unification passes over
(tenses, confidence, the spelling of a whole number, the domain of a rule
inside a quantified node) makes no difference.

Truth extends to the connectives as usual. A rule is true when its premises
imply its conclusion, and in both directions if it is bidirectional. A
connective that lacks an operand is never true.

A node holds when all its instances are true. Main statement: ground nodes
that unify with nothing to bind are true together (`models_congr`).
-/
import TripleLogic.Inference.Pattern
import TripleLogic.Proofs.Matching

namespace TripleLogic

namespace Node

/-- Whether a node is no compound and no rule. -/
def isAtom : Node → Bool
  | .intent _ => true
  | .quantified .. => true
  | .edge _ => true
  | _ => false

theorem isAtom_inst (σ : Assignment) (n : Node) : (n.inst σ).isAtom = n.isAtom := by
  cases n <;> rfl

/-- Two nodes unify with nothing to bind. -/
theorem unify_eq_nil {a b : Node} : a.unify b = some [] ↔ Unify.nodes a b [] = some [] := by
  rw [unify, unifyWith]
  cases h : Unify.nodes a b [] with
  | none => simp
  | some θ => cases θ <;> simp [Bindings.publish]

end Node

/-- The truth of ground atoms, which is one for atoms that unify with nothing
to bind. -/
structure Interpretation where
  truth : Node → Prop
  truth_congr : ∀ {a b : Node}, a.isAtom = true → b.isAtom = true → a.Ground → b.Ground →
    a.unify b = some [] → (truth a ↔ truth b)

namespace Interpretation

/-- The truth of a ground node. -/
def Models (I : Interpretation) : Node → Prop
  | .compound .not (some a) _ => ¬ I.Models a
  | .compound .and (some a) (some b) => I.Models a ∧ I.Models b
  | .compound .or (some a) (some b) => I.Models a ∨ I.Models b
  | .compound .implies (some a) (some b) => I.Models a → I.Models b
  | .compound .iff (some a) (some b) => I.Models a ↔ I.Models b
  | .compound _ _ _ => False
  | .rule _ a b _ x _ => (I.Models a → I.Models b) ∧ (x = true → I.Models b → I.Models a)
  | .intent i => I.truth (.intent i)
  | .quantified q v a d => I.truth (.quantified q v a d)
  | .edge e => I.truth (.edge e)

/-- All instances of a node are true. -/
def Holds (I : Interpretation) (n : Node) : Prop :=
  ∀ σ : Assignment, I.Models (n.inst σ)

/-- A node holds, and its variables are subjects and objects only. -/
structure Supports (I : Interpretation) (n : Node) : Prop where
  vars : n.VarsInTerms
  holds : I.Holds n

end Interpretation

/-! ## Truth of nodes that unify with nothing to bind -/

namespace Interpretation

/-- Ground nodes that unify with nothing to bind are true together. -/
theorem models_congr (I : Interpretation) {a b : Node} (ha : a.Ground) (hb : b.Ground)
    (h : Unify.nodes a b [] = some []) : I.Models a ↔ I.Models b := by
  induction a using Node.ind generalizing b with
  | intent i =>
      cases b with
      | intent j => exact I.truth_congr rfl rfl ha hb (Node.unify_eq_nil.2 h)
      | _ => cases h
  | compound o a c iha ihc =>
      cases b with
      | compound p b d =>
          obtain ⟨rfl, h₁, h₂⟩ := Unify.nodes_compound_eq_nil ha hb h
          rw [Node.ground_compound] at ha hb
          -- The operands are missing on both sides or are true together.
          rcases Unify.operands_eq_nil h₁ with ⟨rfl, rfl⟩ | ⟨m, n, rfl, rfl, hmn⟩
          · cases o <;> simp [Models]
          · have hl := iha m rfl (ha.1 m rfl) (hb.1 n rfl) hmn
            rcases Unify.operands_eq_nil h₂ with ⟨rfl, rfl⟩ | ⟨m', n', rfl, rfl, hmn'⟩
            · cases o <;> simp [Models, hl]
            · have hr := ihc m' rfl (ha.2 m' rfl) (hb.2 n' rfl) hmn'
              cases o <;> simp [Models, hl, hr]
      | _ => cases h
  | quantified q v a d ih =>
      cases b with
      | quantified r w b e => exact I.truth_congr rfl rfl ha hb (Node.unify_eq_nil.2 h)
      | _ => cases h
  | rule i a c d x k iha ihc =>
      cases b with
      | rule j b e f y l =>
          obtain ⟨rfl, h₁, h₂⟩ := Unify.nodes_rule_eq_nil ha hb h
          rw [Node.ground_rule] at ha hb
          simp only [Models, iha ha.1 hb.1 h₁, ihc ha.2 hb.2 h₂]
      | _ => cases h
  | edge e =>
      cases b with
      | edge f => exact I.truth_congr rfl rfl ha hb (Node.unify_eq_nil.2 h)
      | _ => cases h

/-- An instance of a node is true if one of a node that holds unifies with it
with nothing to bind. -/
theorem Holds.models_of_unify {I : Interpretation} {n m : Node} (hn : I.Holds n)
    (hnv : n.VarsInTerms) (hmv : m.VarsInTerms) {σ : Assignment}
    (h : Unify.nodes (m.inst σ) (n.inst σ) [] = some []) : I.Models (m.inst σ) :=
  (I.models_congr (Node.ground_inst hmv σ) (Node.ground_inst hnv σ) h).2 (hn σ)

/-- Equal nodes have instances that are true together. -/
theorem models_inst_of_same (I : Interpretation) {a b : Node} (ha : a.VarsInTerms)
    (hb : b.VarsInTerms) (h : a.same b = true) (σ : Assignment) :
    I.Models (a.inst σ) ↔ I.Models (b.inst σ) :=
  I.models_congr (Node.ground_inst ha σ) (Node.ground_inst hb σ)
    (Unify.nodes_inst_of_same ha hb h σ)

/-- Equal nodes hold together. -/
theorem Holds.of_same {I : Interpretation} {n m : Node} (hn : I.Holds n)
    (hnv : n.VarsInTerms) (hmv : m.VarsInTerms) (h : n.same m = true) : I.Holds m :=
  fun σ => (I.models_inst_of_same hnv hmv h σ).1 (hn σ)

/-- The one instance of a ground node decides whether it holds. -/
theorem holds_iff_models {I : Interpretation} {n : Node} (h : n.Ground) (σ : Assignment) :
    I.Holds n ↔ I.Models n := by
  constructor
  · intro hn
    have hσ := hn σ
    rwa [Node.inst_of_ground h] at hσ
  · intro hn τ
    rwa [Node.inst_of_ground h]

/-! ## Rules -/

/-- A direction of a rule leads between parts of the rule, and an instance of
the rule that is true leads from one to the other. -/
theorem models_direction {r a b : Node} (hd : (a, b) ∈ Pattern.directions r)
    (hr : r.VarsInTerms) :
    a.VarsInTerms ∧ b.VarsInTerms ∧ ∀ (I : Interpretation) (σ : Assignment),
      I.Models (r.inst σ) → I.Models (a.inst σ) → I.Models (b.inst σ) := by
  cases r with
  | rule id p c d x k =>
      rw [Node.varsInTerms_rule] at hr
      simp only [Pattern.directions] at hd
      split at hd
      · next hx =>
          rcases List.mem_cons.1 hd with h | h
          · cases h
            exact ⟨hr.1, hr.2, fun I σ hm => hm.1⟩
          · cases List.mem_singleton.1 h
            exact ⟨hr.2, hr.1, fun I σ hm => hm.2 hx⟩
      · cases List.mem_singleton.1 hd
        exact ⟨hr.1, hr.2, fun I σ hm => hm.1⟩
  | _ => cases hd

end Interpretation

/-! ## An interpretation -/

/-- The assertion of one statement about two concepts. -/
def Node.assertion (subject relation object : String) : Node :=
  .intent { kind := "!Assert", statements :=
    [{ subject := .concept subject, relation := { name := relation }, object := .concept object }] }

theorem Node.varsInTerms_assertion (s o : String) {r : String} (hr : isVariableName r = false) :
    (Node.assertion s r o).VarsInTerms := by
  simp [assertion, varsInTerms_intent, Statement.sideVars_eq_nil, hr]

/-- Instances of assertions that unify with nothing to bind have equal subjects,
one relation and equal objects. -/
theorem Unify.nodes_assertion_eq_nil {s r o s' r' o' : String} {σ τ : Assignment}
    (hr : isVariableName r = false) (hr' : isVariableName r' = false)
    (h : nodes ((Node.assertion s r o).inst σ) ((Node.assertion s' r' o').inst τ) [] = some []) :
    ((Expr.concept s).inst σ).same ((Expr.concept s').inst τ) = true ∧ r = r' ∧
      ((Expr.concept o).inst σ).same ((Expr.concept o').inst τ) = true := by
  have hσ := Node.ground_intent.1 (Node.ground_inst (Node.varsInTerms_assertion s o hr) σ)
  have hτ := Node.ground_intent.1 (Node.ground_inst (Node.varsInTerms_assertion s' o' hr') τ)
  simp only [Node.assertion, Node.inst, nodes, intents, List.map_cons, List.map_nil,
    beq_self_eq_true, if_true] at h hσ hτ
  have hs := (statementLists_eq_nil hσ hτ h).1
  exact statements_eq_nil (hσ _ (List.mem_singleton.2 rfl)) (hτ _ (List.mem_singleton.2 rfl)) hs

/-- The interpretation in which the assertions are true and no other atom is. -/
def Interpretation.assertions : Interpretation where
  truth
    | .intent i => i.kind = "!Assert"
    | _ => False
  truth_congr := by
    intro a b _ _ _ _ h
    rw [Node.unify_eq_nil] at h
    cases a with
    | intent i =>
        cases b with
        | intent j =>
            simp only [Unify.nodes, Unify.intents] at h
            split at h
            · next hk =>
                show i.kind = "!Assert" ↔ j.kind = "!Assert"
                rw [eq_of_beq hk]
            · cases h
        | _ => cases h
    | _ =>
        cases b with
        | intent j => cases h
        | _ => exact Iff.rfl

end TripleLogic
