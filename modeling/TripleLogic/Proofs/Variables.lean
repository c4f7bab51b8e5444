/-
TripleLogic.Proofs.Variables — where the variables of a node stand.

A variable is a token: a subject, an object or the value of an attribute. A
name, that of a relation or those of an edge, may be a variable too. Terms
are opaque, so what stands inside them does not count, and neither does the
variable of a quantifier, which no binding reaches.

`vars` holds all variables of a node, and `sideVars` those that are neither
subjects nor objects. A node with no side variables is one whose variables
stand in subjects and objects only; a node with no variables at all is ground.
Both lists are one fold, `Node.collect`, over the statements and the edges of
a node.
-/
import TripleLogic.Substitution

namespace TripleLogic

/-! ## Induction on expressions and nodes -/

namespace Expr

/-- Induction on expressions, with the arguments of a function as smaller
expressions. -/
theorem ind {motive : Expr → Prop}
    (concept : ∀ name, motive (.concept name)) (identifier : ∀ name, motive (.identifier name))
    (literal : ∀ s, motive (.literal s)) (composite : ∀ d, motive (.composite d))
    (unary : ∀ o a, motive a → motive (.unary o a))
    (binary : ∀ o a b, motive a → motive b → motive (.binary o a b))
    (application : ∀ f as, (∀ a ∈ as, motive a) → motive (.application f as))
    (lambda : ∀ ps a, motive a → motive (.lambda ps a)) : ∀ e, motive e := by
  refine @Expr.rec motive (fun as => ∀ a ∈ as, motive a)
    concept identifier literal composite unary binary application lambda nofun ?_
  intro a as ha has
  exact List.forall_mem_cons.2 ⟨ha, has⟩

end Expr

namespace Node

/-- Induction on nodes, with the operands of a compound that are there as
smaller nodes. -/
theorem ind {motive : Node → Prop}
    (intent : ∀ i, motive (.intent i))
    (compound : ∀ o a b, (∀ n, a = some n → motive n) → (∀ n, b = some n → motive n) →
      motive (.compound o a b))
    (quantified : ∀ q v a d, motive a → motive (.quantified q v a d))
    (rule : ∀ i a b d x c, motive a → motive b → motive (.rule i a b d x c))
    (edge : ∀ e, motive (.edge e)) : ∀ n, motive n := by
  refine @Node.rec motive (fun a => ∀ n, a = some n → motive n)
    intent compound quantified rule edge ?_ ?_
  · intro n h
    cases h
  · intro a ih n h
    cases h
    exact ih

/-- What holds where there is no operand holds of an operand if it holds of
the node that it is. -/
@[elab_as_elim]
theorem operand_cases {motive : Option Node → Prop} (a : Option Node) (none : motive none)
    (some : ∀ n, a = some n → motive (some n)) : motive a := by
  cases a with
  | none => exact none
  | some n => exact some n rfl

/-- Induction on two nodes side by side: `P` is shown of nodes and `Q` of
operands. Nodes of two forms have no parts that correspond. -/
theorem ind₂ {P : Node → Node → Prop} {Q : Option Node → Option Node → Prop}
    (absent : ∀ b, Q none b) (lacking : ∀ a, Q a none) (present : ∀ m n, P m n → Q m n)
    (intent : ∀ i j, P (.intent i) (.intent j))
    (compound : ∀ o p a b c d, Q a b → Q c d → P (.compound o a c) (.compound p b d))
    (quantified : ∀ q r v w a b d e, P a b → P (.quantified q v a d) (.quantified r w b e))
    (rule : ∀ i j a b c k d e x y f g, P a b → P c k → P (.rule i a c d x f) (.rule j b k e y g))
    (edge : ∀ e f, P (.edge e) (.edge f))
    (apart : ∀ a b, a.ctorIdx ≠ b.ctorIdx → P a b) (a b : Node) : P a b := by
  have hoperands : ∀ {a b : Option Node}, (∀ m, a = some m → ∀ n, P m n) → Q a b := by
    intro a b h
    cases a with
    | none => exact absent b
    | some m =>
        cases b with
        | none => exact lacking m
        | some n => exact present m n (h m rfl n)
  induction a using Node.ind generalizing b with
  | intent i =>
      cases b with
      | intent j => exact intent i j
      | _ => exact apart _ _ nofun
  | compound o a c iha ihc =>
      cases b with
      | compound p b d => exact compound o p a b c d (hoperands iha) (hoperands ihc)
      | _ => exact apart _ _ nofun
  | quantified q v a d ih =>
      cases b with
      | quantified r w b e => exact quantified q r v w a b d e (ih b)
      | _ => exact apart _ _ nofun
  | rule i a c d x f iha ihc =>
      cases b with
      | rule j b k e y g => exact rule i j a b c k d e x y f g (iha b) (ihc k)
      | _ => exact apart _ _ nofun
  | edge e =>
      cases b with
      | edge f => exact edge e f
      | _ => exact apart _ _ nofun

end Node

/-! ## Variables of the parts of a node -/

/-- The variables of an expression: at most the expression itself. -/
def Expr.vars (e : Expr) : List String :=
  e.varName?.toList

/-- The variables of a name: at most the name itself. -/
def nameVars (name : String) : List String :=
  if isVariableName name then [name] else []

namespace Statement

/-- The variables among the subject and the object. -/
def termVars (s : Statement) : List String :=
  s.subject.vars ++ s.object.vars

/-- The variables among the relation and the attributes. -/
def sideVars (s : Statement) : List String :=
  nameVars s.relation.name ++ s.attributes.flatMap fun a => a.2.vars

/-- The variables of a statement. -/
def vars (s : Statement) : List String :=
  s.termVars ++ s.sideVars

end Statement

/-- The variables among the names of an edge. -/
def Edge.vars (e : Edge) : List String :=
  nameVars e.source ++ nameVars e.target ++ nameVars e.name

/-! ## Folding over a node -/

namespace Node

mutual

/-- Collect something from every statement and every edge of a node. -/
def collect {α : Type} (f : Statement → List α) (g : Edge → List α) : Node → List α
  | .intent i => i.statements.flatMap f
  | .compound _ a b => collectOperand f g a ++ collectOperand f g b
  | .quantified _ _ a _ => collect f g a
  | .rule _ a b _ _ _ => collect f g a ++ collect f g b
  | .edge e => g e

/-- Collect something from an operand that may be missing. -/
def collectOperand {α : Type} (f : Statement → List α) (g : Edge → List α) :
    Option Node → List α
  | none => []
  | some a => collect f g a

end

section

variable {α β : Type} {f : Statement → List α} {g : Edge → List α} {T : α → Prop}

theorem forall_collect_intent {i : Intent} :
    (∀ x ∈ (Node.intent i).collect f g, T x) ↔ ∀ s ∈ i.statements, ∀ x ∈ f s, T x := by
  simp only [collect, List.forall_mem_flatMap]

theorem forall_collect_compound {o : Connective} {a b : Option Node} :
    (∀ x ∈ (Node.compound o a b).collect f g, T x) ↔
      (∀ n, a = some n → ∀ x ∈ n.collect f g, T x) ∧
        ∀ n, b = some n → ∀ x ∈ n.collect f g, T x := by
  cases a <;> cases b <;> simp [collect, collectOperand, or_imp, forall_and]

theorem forall_collect_rule {i : String} {a b : Node} {d : Option String} {x : Bool} {c : Data} :
    (∀ y ∈ (Node.rule i a b d x c).collect f g, T y) ↔
      (∀ y ∈ a.collect f g, T y) ∧ ∀ y ∈ b.collect f g, T y := by
  simp only [collect, List.forall_mem_append]

/-- Changing what is collected. -/
theorem map_collect (h : α → β) (n : Node) :
    (n.collect f g).map h = n.collect (fun s => (f s).map h) fun e => (g e).map h := by
  induction n using Node.ind with
  | intent i => simp only [collect, List.map_flatMap]
  | compound o a b iha ihb =>
      have hoperand : ∀ {a : Option Node}, (∀ n, a = some n → (n.collect f g).map h =
          n.collect (fun s => (f s).map h) fun e => (g e).map h) →
          (collectOperand f g a).map h =
            collectOperand (fun s => (f s).map h) (fun e => (g e).map h) a := by
        intro a ih
        cases a with
        | none => rfl
        | some n => exact ih n rfl
      simp only [collect, List.map_append, hoperand iha, hoperand ihb]
  | quantified q v a d ih => exact ih
  | rule i a b d x c iha ihb => simp only [collect, List.map_append, iha, ihb]
  | edge e => rfl

end

/-- The variables in names and attributes. -/
def sideVars (n : Node) : List String :=
  n.collect Statement.sideVars Edge.vars

/-- The variables of a node. -/
def vars (n : Node) : List String :=
  n.collect Statement.vars Edge.vars

/-- Whether the variables of a node are subjects and objects only. -/
def VarsInTerms (n : Node) : Prop :=
  n.sideVars = []

/-- Whether a node has no variables. -/
def Ground (n : Node) : Prop :=
  n.vars = []

instance (n : Node) : Decidable n.VarsInTerms :=
  inferInstanceAs (Decidable (n.sideVars = []))

instance (n : Node) : Decidable n.Ground :=
  inferInstanceAs (Decidable (n.vars = []))

end Node

/-! ## When nothing is collected -/

theorem Expr.vars_eq_nil {e : Expr} : e.vars = [] ↔ e.varName? = none := by
  cases h : e.varName? <;> simp [vars, h]

theorem Expr.mem_vars {e : Expr} {v : String} : v ∈ e.vars ↔ e.varName? = some v := by
  cases h : e.varName? <;> simp [vars, h, eq_comm]

theorem nameVars_eq_nil {name : String} : nameVars name = [] ↔ isVariableName name = false := by
  cases h : isVariableName name <;> simp [nameVars, h]

theorem Statement.sideVars_eq_nil {s : Statement} :
    s.sideVars = [] ↔
      isVariableName s.relation.name = false ∧ ∀ a ∈ s.attributes, a.2.varName? = none := by
  simp only [sideVars, List.append_eq_nil_iff, nameVars_eq_nil, List.flatMap_eq_nil_iff,
    Expr.vars_eq_nil]

theorem Statement.vars_eq_nil {s : Statement} :
    s.vars = [] ↔ (s.subject.varName? = none ∧ s.object.varName? = none) ∧ s.sideVars = [] := by
  simp only [vars, termVars, List.append_eq_nil_iff, Expr.vars_eq_nil]

theorem Edge.vars_eq_nil {e : Edge} :
    e.vars = [] ↔ isVariableName e.source = false ∧ isVariableName e.target = false
      ∧ isVariableName e.name = false := by
  simp only [vars, List.append_eq_nil_iff, nameVars_eq_nil, and_assoc]

namespace Node

theorem collectOperand_eq_nil {α : Type} {f : Statement → List α} {g : Edge → List α}
    {a : Option Node} :
    collectOperand f g a = [] ↔ ∀ n, a = some n → collect f g n = [] := by
  cases a <;> simp [collectOperand]

theorem varsInTerms_intent {i : Intent} :
    (Node.intent i).VarsInTerms ↔ ∀ s ∈ i.statements, s.sideVars = [] := by
  simp only [VarsInTerms, sideVars, collect, List.flatMap_eq_nil_iff]

theorem varsInTerms_compound {o : Connective} {a b : Option Node} :
    (Node.compound o a b).VarsInTerms ↔
      (∀ n, a = some n → n.VarsInTerms) ∧ ∀ n, b = some n → n.VarsInTerms := by
  simp only [VarsInTerms, sideVars, collect, List.append_eq_nil_iff, collectOperand_eq_nil]

theorem varsInTerms_rule {i : String} {a b : Node} {d : Option String} {x : Bool} {c : Data} :
    (Node.rule i a b d x c).VarsInTerms ↔ a.VarsInTerms ∧ b.VarsInTerms := by
  simp only [VarsInTerms, sideVars, collect, List.append_eq_nil_iff]

theorem ground_intent {i : Intent} :
    (Node.intent i).Ground ↔ ∀ s ∈ i.statements, s.vars = [] := by
  simp only [Ground, vars, collect, List.flatMap_eq_nil_iff]

theorem ground_compound {o : Connective} {a b : Option Node} :
    (Node.compound o a b).Ground ↔
      (∀ n, a = some n → n.Ground) ∧ ∀ n, b = some n → n.Ground := by
  simp only [Ground, vars, collect, List.append_eq_nil_iff, collectOperand_eq_nil]

theorem ground_rule {i : String} {a b : Node} {d : Option String} {x : Bool} {c : Data} :
    (Node.rule i a b d x c).Ground ↔ a.Ground ∧ b.Ground := by
  simp only [Ground, vars, collect, List.append_eq_nil_iff]

/-- The variables of a ground node stand nowhere, so in subjects and objects
only. -/
theorem Ground.varsInTerms {n : Node} (h : n.Ground) : n.VarsInTerms := by
  induction n using Node.ind with
  | intent i =>
      rw [ground_intent] at h
      exact varsInTerms_intent.2 fun s hs => (Statement.vars_eq_nil.1 (h s hs)).2
  | compound o a b iha ihb =>
      rw [ground_compound] at h
      exact varsInTerms_compound.2
        ⟨fun n hn => iha n hn (h.1 n hn), fun n hn => ihb n hn (h.2 n hn)⟩
  | quantified q v a d ih => exact ih h
  | rule i a b d x c iha ihb =>
      rw [ground_rule] at h
      exact varsInTerms_rule.2 ⟨iha h.1, ihb h.2⟩
  | edge e => exact h

end Node

end TripleLogic
