/-
TripleLogic.Proofs.Assignment — the instances of a node.

An assignment gives every variable an expression that is no variable. The
instance of a node puts these values in the places of its variables; names
are no places for values and stay as they are.

An assignment solves bindings when it gives a bound variable the value of
what it is bound to. Then an expression and its final value have one
instance (`inst_resolve`). Bindings without cycles are solved by some
assignment, whatever the variables that are not bound stand for
(`solves_after`), and substituting such bindings first and taking an instance
afterwards is taking one instance (`inst_subst`).
-/
import TripleLogic.Proofs.Bindings
import TripleLogic.Proofs.Variables

namespace TripleLogic

/-- Values for variables, none of them a variable. -/
structure Assignment where
  value : String → Expr
  varName?_value : ∀ v, (value v).varName? = none

/-- The assignment of one concept to all variables. -/
def Assignment.constant (name : String) (h : isVariableName name = false) : Assignment where
  value _ := .concept name
  varName?_value _ := by simp [Expr.varName?, h]

/-! ## Instances -/

/-- The instance of an expression. -/
def Expr.inst (σ : Assignment) (e : Expr) : Expr :=
  match e.varName? with
  | none => e
  | some v => σ.value v

/-- The instance of a statement. -/
def Statement.inst (σ : Assignment) (s : Statement) : Statement :=
  { s with subject := s.subject.inst σ, object := s.object.inst σ,
           attributes := s.attributes.map fun a => (a.1, a.2.inst σ) }

namespace Node

mutual

/-- The instance of a node. -/
def inst (σ : Assignment) : Node → Node
  | .intent i => .intent { i with statements := i.statements.map (Statement.inst σ) }
  | .compound o a b => .compound o (instOperand σ a) (instOperand σ b)
  | .quantified q v a d => .quantified q v (inst σ a) d
  | .rule i a b d x c => .rule i (inst σ a) (inst σ b) d x c
  | .edge e => .edge e

/-- The instance of an operand that may be missing. -/
def instOperand (σ : Assignment) : Option Node → Option Node
  | none => none
  | some a => some (inst σ a)

end

end Node

namespace Expr

theorem inst_of_not_variable {e : Expr} (h : e.varName? = none) (σ : Assignment) :
    e.inst σ = e := by
  simp [inst, h]

theorem inst_of_variable {e : Expr} {v : String} (h : e.varName? = some v) (σ : Assignment) :
    e.inst σ = σ.value v := by
  simp [inst, h]

/-- An instance is no variable. -/
@[simp] theorem varName?_inst (σ : Assignment) (e : Expr) : (e.inst σ).varName? = none := by
  cases h : e.varName? with
  | none => rw [inst_of_not_variable h, h]
  | some v => rw [inst_of_variable h, σ.varName?_value]

end Expr

/-! ## Assignments that agree -/

/-- Assignments that agree on the variables of an expression give it one
instance. -/
theorem Expr.inst_congr {σ τ : Assignment} {e : Expr} (h : ∀ v ∈ e.vars, σ.value v = τ.value v) :
    e.inst σ = e.inst τ := by
  cases hv : e.varName? with
  | none => rw [inst_of_not_variable hv, inst_of_not_variable hv]
  | some v =>
      rw [inst_of_variable hv, inst_of_variable hv]
      exact h v (mem_vars.2 hv)

theorem Statement.inst_congr {σ τ : Assignment} {s : Statement}
    (h : ∀ v ∈ s.vars, σ.value v = τ.value v) : s.inst σ = s.inst τ := by
  simp only [vars, termVars, sideVars, List.mem_append, List.mem_flatMap] at h
  have hs : s.subject.inst σ = s.subject.inst τ :=
    Expr.inst_congr fun v hv => h v (Or.inl (Or.inl hv))
  have ho : s.object.inst σ = s.object.inst τ :=
    Expr.inst_congr fun v hv => h v (Or.inl (Or.inr hv))
  have ha : (s.attributes.map fun a => (a.1, a.2.inst σ))
      = s.attributes.map fun a => (a.1, a.2.inst τ) := by
    refine List.map_congr_left fun a ha => ?_
    rw [Expr.inst_congr fun v hv => h v (Or.inr (Or.inr ⟨a, ha, hv⟩))]
  simp only [inst, hs, ho, ha]

namespace Node

theorem instOperand_eq_map (σ : Assignment) (a : Option Node) :
    instOperand σ a = a.map (inst σ) := by
  cases a <;> rfl

theorem forall_instOperand {P : Node → Prop} {σ : Assignment} {a : Option Node} :
    (∀ n, instOperand σ a = some n → P n) ↔ ∀ n, a = some n → P (n.inst σ) := by
  cases a <;> simp [instOperand]

/-- Assignments that agree on the variables of a node give it one instance. -/
theorem inst_congr {σ τ : Assignment} {n : Node} (h : ∀ v ∈ n.vars, σ.value v = τ.value v) :
    n.inst σ = n.inst τ := by
  induction n using Node.ind with
  | intent i =>
      simp only [vars, collect, List.mem_flatMap] at h
      simp only [inst]
      rw [List.map_congr_left fun s hs =>
        Statement.inst_congr fun v hv => h v ⟨s, hs, hv⟩]
  | compound o a b iha ihb =>
      simp only [vars, collect, List.mem_append] at h
      have ha : instOperand σ a = instOperand τ a := by
        rw [instOperand_eq_map, instOperand_eq_map]
        refine Option.map_congr fun n hn => iha n hn fun v hv => h v (Or.inl ?_)
        rw [hn]
        exact hv
      have hb : instOperand σ b = instOperand τ b := by
        rw [instOperand_eq_map, instOperand_eq_map]
        refine Option.map_congr fun n hn => ihb n hn fun v hv => h v (Or.inr ?_)
        rw [hn]
        exact hv
      simp only [inst, ha, hb]
  | quantified q v a d ih => simp only [inst, ih h]
  | rule i a b d x c iha ihb =>
      simp only [vars, collect, List.mem_append] at h
      simp only [inst, iha fun v hv => h v (Or.inl hv), ihb fun v hv => h v (Or.inr hv)]
  | edge e => rfl

end Node

/-! ## Ground nodes -/

/-- Attributes without variables are their own instance. -/
theorem Statement.attributes_inst {s : Statement} (h : s.sideVars = []) (σ : Assignment) :
    (s.inst σ).attributes = s.attributes := by
  have ha := (Statement.sideVars_eq_nil.1 h).2
  have hid : ∀ a ∈ s.attributes, (a.1, a.2.inst σ) = a :=
    fun a hm => by rw [Expr.inst_of_not_variable (ha a hm)]
  simp only [inst]
  rw [List.map_congr_left hid, List.map_id']

theorem Statement.inst_of_vars {s : Statement} (h : s.vars = []) (σ : Assignment) :
    s.inst σ = s := by
  obtain ⟨⟨hs, ho⟩, hside⟩ := Statement.vars_eq_nil.1 h
  have ha := Statement.attributes_inst hside σ
  simp only [inst] at ha ⊢
  rw [Expr.inst_of_not_variable hs, Expr.inst_of_not_variable ho, ha]

theorem Statement.vars_inst {s : Statement} (h : s.sideVars = []) (σ : Assignment) :
    (s.inst σ).vars = [] := by
  refine Statement.vars_eq_nil.2 ⟨⟨Expr.varName?_inst σ _, Expr.varName?_inst σ _⟩, ?_⟩
  rw [sideVars, Statement.attributes_inst h σ]
  exact h

namespace Node

/-- A ground node is its only instance. -/
theorem inst_of_ground {n : Node} (h : n.Ground) (σ : Assignment) : n.inst σ = n := by
  induction n using Node.ind with
  | intent i =>
      rw [ground_intent] at h
      simp only [inst]
      rw [List.map_congr_left fun s hs => Statement.inst_of_vars (h s hs) σ, List.map_id']
  | compound o a b iha ihb =>
      rw [ground_compound] at h
      have ha : instOperand σ a = a := by
        rw [instOperand_eq_map, Option.map_congr fun n hn => iha n hn (h.1 n hn), Option.map_id']
      have hb : instOperand σ b = b := by
        rw [instOperand_eq_map, Option.map_congr fun n hn => ihb n hn (h.2 n hn), Option.map_id']
      simp only [inst, ha, hb]
  | quantified q v a d ih => simp only [inst, ih h]
  | rule i a b d x c iha ihb =>
      rw [ground_rule] at h
      simp only [inst, iha h.1, ihb h.2]
  | edge e => rfl

/-- An instance is ground when the variables are subjects and objects. -/
theorem ground_inst {n : Node} (h : n.VarsInTerms) (σ : Assignment) : (n.inst σ).Ground := by
  induction n using Node.ind with
  | intent i =>
      rw [varsInTerms_intent] at h
      refine ground_intent.2 ?_
      intro s hs
      obtain ⟨t, ht, rfl⟩ := List.mem_map.1 hs
      exact Statement.vars_inst (h t ht) σ
  | compound o a b iha ihb =>
      rw [varsInTerms_compound] at h
      refine ground_compound.2 ⟨forall_instOperand.2 ?_, forall_instOperand.2 ?_⟩
      · exact fun n hn => iha n hn (h.1 n hn)
      · exact fun n hn => ihb n hn (h.2 n hn)
  | quantified q v a d ih => exact ih h
  | rule i a b d x c iha ihb =>
      rw [varsInTerms_rule] at h
      exact ground_rule.2 ⟨iha h.1, ihb h.2⟩
  | edge e => exact h

end Node

/-! ## Solving bindings -/

namespace Assignment

/-- An assignment gives every bound variable the value of what it is bound to. -/
def Solves (σ : Assignment) (θ : Bindings) : Prop :=
  ∀ v e, isVariableName v = true → θ.get? v = some e → σ.value v = e.inst σ

theorem Solves.of_extends {σ : Assignment} {θ θ' : Bindings} (h : σ.Solves θ')
    (hθ : θ.Extends θ') : σ.Solves θ :=
  fun v e hv he => h v e hv (hθ v e he)

/-- An expression and its final value have one instance. -/
theorem inst_resolve {σ : Assignment} {θ : Bindings} (hθ : θ.Acyclic) (h : σ.Solves θ)
    (e : Expr) : (θ.resolve e).inst σ = e.inst σ := by
  induction e using Bindings.resolve_induct hθ with
  | final e hf =>
      cases hv : e.varName? with
      | none => rw [Bindings.resolve_of_not_variable hv]
      | some v => rw [Bindings.resolve_of_unbound hv (hf v hv)]
  | bound e v f hv hf ih =>
      rw [Bindings.resolve_of_bound hθ hv hf, ih, Expr.inst_of_variable hv]
      exact (h v f (Expr.isVariableName_of_varName? hv) hf).symm

/-- The assignment that follows bindings before it looks up a value. -/
def after (σ : Assignment) (θ : Bindings) : Assignment where
  value v := (θ.resolve (.identifier v)).inst σ
  varName?_value _ := Expr.varName?_inst σ _

/-- The two spellings of a variable have one final value, as far as instances
can tell. -/
theorem inst_resolve_identifier (σ : Assignment) (θ : Bindings) {e : Expr} {v : String}
    (hv : e.varName? = some v) :
    (θ.resolve (.identifier v)).inst σ = (θ.resolve e).inst σ := by
  have hi := Expr.varName?_identifier (Expr.isVariableName_of_varName? hv)
  cases hf : θ.get? v with
  | none =>
      rw [Bindings.resolve_of_unbound hi hf, Bindings.resolve_of_unbound hv hf,
        Expr.inst_of_variable hi, Expr.inst_of_variable hv]
  | some f => rw [Bindings.resolve_of_get? hi hf, Bindings.resolve_of_get? hv hf]

/-- Following bindings and then taking an instance is taking one instance. -/
theorem inst_after (σ : Assignment) (θ : Bindings) (e : Expr) :
    e.inst (σ.after θ) = (θ.resolve e).inst σ := by
  cases hv : e.varName? with
  | none =>
      rw [Expr.inst_of_not_variable hv, Bindings.resolve_of_not_variable hv,
        Expr.inst_of_not_variable hv]
  | some v =>
      rw [Expr.inst_of_variable hv]
      exact inst_resolve_identifier σ θ hv

/-- Bindings without cycles are solved, whatever the other variables stand for. -/
theorem solves_after (σ : Assignment) {θ : Bindings} (hθ : θ.Acyclic) : (σ.after θ).Solves θ := by
  intro v e hv he
  rw [inst_after]
  show (θ.resolve (.identifier v)).inst σ = (θ.resolve e).inst σ
  rw [Bindings.resolve_of_bound hθ (Expr.varName?_identifier hv) he]

end Assignment

/-! ## Substitution -/

/-- A name that is no variable is not replaced. -/
theorem substName_of_not_variable {name : String} (h : isVariableName name = false)
    (θ : Bindings) : substName θ name = name := by
  simp [substName, h]

theorem Statement.inst_subst {s : Statement} (h : s.sideVars = []) (σ : Assignment)
    (θ : Bindings) : (s.subst θ).inst σ = s.inst (σ.after θ) := by
  have hn := (Statement.sideVars_eq_nil.1 h).1
  simp only [subst, inst, Expr.subst, Assignment.inst_after, List.map_map,
    Function.comp_def, substName_of_not_variable hn]

theorem Statement.sideVars_subst {s : Statement} (h : s.sideVars = []) (θ : Bindings) :
    (s.subst θ).sideVars = [] := by
  obtain ⟨hn, ha⟩ := Statement.sideVars_eq_nil.1 h
  refine Statement.sideVars_eq_nil.2 ⟨?_, ?_⟩
  · simp only [subst, substName_of_not_variable hn]
    exact hn
  · simp only [subst, List.mem_map]
    rintro _ ⟨a, hm, rfl⟩
    simp only [Expr.subst]
    rw [Bindings.resolve_of_not_variable (ha a hm)]
    exact ha a hm

theorem Edge.subst_of_vars {e : Edge} (h : e.vars = []) (θ : Bindings) : e.subst θ = e := by
  obtain ⟨hs, ht, hn⟩ := Edge.vars_eq_nil.1 h
  simp only [subst, substName_of_not_variable hs, substName_of_not_variable ht,
    substName_of_not_variable hn]

namespace Node

theorem substOperand_eq_map (θ : Bindings) (a : Option Node) :
    substOperand θ a = a.map (subst θ) := by
  cases a <;> rfl

theorem forall_substOperand {P : Node → Prop} {θ : Bindings} {a : Option Node} :
    (∀ n, substOperand θ a = some n → P n) ↔ ∀ n, a = some n → P (n.subst θ) := by
  cases a <;> simp [substOperand]

/-- Substituting bindings and then taking an instance is taking one instance. -/
theorem inst_subst {n : Node} (h : n.VarsInTerms) (σ : Assignment) (θ : Bindings) :
    (n.subst θ).inst σ = n.inst (σ.after θ) := by
  induction n using Node.ind with
  | intent i =>
      rw [varsInTerms_intent] at h
      simp only [subst, inst, List.map_map, Function.comp_def]
      rw [List.map_congr_left fun s hs => Statement.inst_subst (h s hs) σ θ]
  | compound o a b iha ihb =>
      rw [varsInTerms_compound] at h
      have ha : instOperand σ (substOperand θ a) = instOperand (σ.after θ) a := by
        rw [instOperand_eq_map, instOperand_eq_map, substOperand_eq_map, Option.map_map]
        exact Option.map_congr fun n hn => iha n hn (h.1 n hn)
      have hb : instOperand σ (substOperand θ b) = instOperand (σ.after θ) b := by
        rw [instOperand_eq_map, instOperand_eq_map, substOperand_eq_map, Option.map_map]
        exact Option.map_congr fun n hn => ihb n hn (h.2 n hn)
      simp only [subst, inst, ha, hb]
  | quantified q v a d ih => simp only [subst, inst, ih h]
  | rule i a b d x c iha ihb =>
      rw [varsInTerms_rule] at h
      simp only [subst, inst, iha h.1, ihb h.2]
  | edge e => simp only [subst, inst, Edge.subst_of_vars h]

/-- Substitution puts no variable anywhere but in subjects and objects. -/
theorem varsInTerms_subst {n : Node} (h : n.VarsInTerms) (θ : Bindings) :
    (n.subst θ).VarsInTerms := by
  induction n using Node.ind with
  | intent i =>
      rw [varsInTerms_intent] at h
      refine varsInTerms_intent.2 ?_
      intro s hs
      obtain ⟨t, ht, rfl⟩ := List.mem_map.1 hs
      exact Statement.sideVars_subst (h t ht) θ
  | compound o a b iha ihb =>
      rw [varsInTerms_compound] at h
      refine varsInTerms_compound.2 ⟨forall_substOperand.2 ?_, forall_substOperand.2 ?_⟩
      · exact fun n hn => iha n hn (h.1 n hn)
      · exact fun n hn => ihb n hn (h.2 n hn)
  | quantified q v a d ih => exact ih h
  | rule i a b d x c iha ihb =>
      rw [varsInTerms_rule] at h
      exact varsInTerms_rule.2 ⟨iha h.1, ihb h.2⟩
  | edge e =>
      simp only [subst, Edge.subst_of_vars h]
      exact h

end Node

end TripleLogic
