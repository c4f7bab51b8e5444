/-
TripleLogic.Proofs.Inside — the nodes inside a node.

`inside` goes through a node and all nodes inside it, the bodies of quantified
nodes among them. What is asked of each of these on its own is asked
everywhere (`Everywhere`), such as that a compound has the operands that its
connective takes.

Main statement: what holds everywhere in the known nodes holds everywhere in
what is inferred from them, if substitution keeps it and it holds of negations
and implications (`Infers.everywhere`).
-/
import TripleLogic.Proofs.Assignment
import TripleLogic.Proofs.Inference

namespace TripleLogic

namespace Node

/-! ## Inside a node -/

mutual

/-- A node and all nodes inside it. -/
def inside : Node → List Node
  | .intent i => [.intent i]
  | .compound o a b => .compound o a b :: (insideOperand a ++ insideOperand b)
  | .quantified q v a d => .quantified q v a d :: inside a
  | .rule i a b d x c => .rule i a b d x c :: (inside a ++ inside b)
  | .edge e => [.edge e]

/-- An operand, which may be missing, and all nodes inside it. -/
def insideOperand : Option Node → List Node
  | none => []
  | some a => inside a

end

/-- A node and all nodes inside it have a property. -/
def Everywhere (P : Node → Prop) (n : Node) : Prop :=
  ∀ m ∈ n.inside, P m

instance {P : Node → Prop} [DecidablePred P] (n : Node) : Decidable (n.Everywhere P) :=
  inferInstanceAs (Decidable (∀ m ∈ n.inside, P m))

variable {P : Node → Prop}

theorem forall_mem_insideOperand {a : Option Node} :
    (∀ m ∈ insideOperand a, P m) ↔ ∀ n, a = some n → n.Everywhere P := by
  cases a <;> simp [insideOperand, Everywhere]

theorem everywhere_intent {i : Intent} : (Node.intent i).Everywhere P ↔ P (.intent i) :=
  List.forall_mem_singleton

theorem everywhere_edge {e : Edge} : (Node.edge e).Everywhere P ↔ P (.edge e) :=
  List.forall_mem_singleton

theorem everywhere_compound {o : Connective} {a b : Option Node} :
    (Node.compound o a b).Everywhere P ↔ P (.compound o a b) ∧
      (∀ n, a = some n → n.Everywhere P) ∧ ∀ n, b = some n → n.Everywhere P := by
  simp only [Everywhere, inside, List.forall_mem_cons, List.forall_mem_append,
    forall_mem_insideOperand]

theorem everywhere_quantified {q : Quantifier} {v : String} {a : Node} {d : Option String} :
    (Node.quantified q v a d).Everywhere P ↔ P (.quantified q v a d) ∧ a.Everywhere P :=
  List.forall_mem_cons

theorem everywhere_rule {i : String} {a b : Node} {d : Option String} {x : Bool} {c : Data} :
    (Node.rule i a b d x c).Everywhere P ↔
      P (.rule i a b d x c) ∧ a.Everywhere P ∧ b.Everywhere P := by
  simp only [Everywhere, inside, List.forall_mem_cons, List.forall_mem_append]

theorem mem_inside_self (n : Node) : n ∈ n.inside := by
  cases n <;> simp [inside]

theorem Everywhere.here {n : Node} (h : n.Everywhere P) : P n :=
  h n n.mem_inside_self

theorem Everywhere.of_mem_children {n c : Node} (h : n.Everywhere P) (hc : c ∈ n.children) :
    c.Everywhere P := by
  cases n with
  | compound o a b =>
      obtain ⟨-, ha, hb⟩ := everywhere_compound.1 h
      simp only [children, List.mem_append, Option.mem_toList] at hc
      exact hc.elim (ha c) (hb c)
  | rule i a b d x k =>
      obtain ⟨-, ha, hb⟩ := everywhere_rule.1 h
      simp only [children, List.mem_cons, List.not_mem_nil, or_false] at hc
      rcases hc with rfl | rfl
      · exact ha
      · exact hb
  | _ => cases hc

/-- What substitution keeps of single nodes it keeps everywhere. -/
theorem Everywhere.subst {θ : Bindings} (hP : ∀ m, P m → P (m.subst θ)) {n : Node}
    (h : n.Everywhere P) : (n.subst θ).Everywhere P := by
  induction n using Node.ind with
  | intent i => exact everywhere_intent.2 (hP _ h.here)
  | compound o a b iha ihb =>
      obtain ⟨hhere, ha, hb⟩ := everywhere_compound.1 h
      exact everywhere_compound.2 ⟨hP _ hhere, forall_substOperand.2 fun n hn => iha n hn (ha n hn),
        forall_substOperand.2 fun n hn => ihb n hn (hb n hn)⟩
  | quantified q v a d ih =>
      obtain ⟨hhere, ha⟩ := everywhere_quantified.1 h
      exact everywhere_quantified.2 ⟨hP _ hhere, ih ha⟩
  | rule i a b d x c iha ihb =>
      obtain ⟨hhere, ha, hb⟩ := everywhere_rule.1 h
      exact everywhere_rule.2 ⟨hP _ hhere, iha ha, ihb hb⟩
  | edge e => exact everywhere_edge.2 (hP _ h.here)

theorem Everywhere.negate {a : Node} (hP : P a.negate) (h : a.Everywhere P) :
    a.negate.Everywhere P :=
  everywhere_compound.2 ⟨hP, fun n hn => by cases hn; exact h, nofun⟩

theorem Everywhere.implies {a b : Node} (hP : P (a.implies b)) (ha : a.Everywhere P)
    (hb : b.Everywhere P) : (a.implies b).Everywhere P :=
  everywhere_compound.2 ⟨hP, fun n hn => by cases hn; exact ha, fun n hn => by cases hn; exact hb⟩

end Node

/-- What holds everywhere in known nodes holds everywhere in what is inferred. -/
theorem Infers.everywhere {P : Node → Prop} (hsubst : ∀ θ m, P m → P (m.subst θ))
    (hnegate : ∀ a : Node, P a.negate) (himplies : ∀ a b : Node, P (a.implies b))
    {nodes : List Node} {c : Node} (h : Infers nodes c) (hn : ∀ n ∈ nodes, n.Everywhere P) :
    c.Everywhere P :=
  h.keeps hn id .of_mem_children (.negate (hnegate _)) (.implies (himplies _ _))
    fun _ hb _ => hb.subst (hsubst _)

/-! ## Operands -/

namespace Node

/-- Whether a compound has the operands that its connective takes. -/
def hasOperands : Node → Bool
  | .compound .not a b => a.isSome && b.isNone
  | .compound _ a b => a.isSome && b.isSome
  | _ => true

/-- All compounds in a node have the operands that their connectives take. -/
def Complete (n : Node) : Prop :=
  n.Everywhere fun m => m.hasOperands = true

instance (n : Node) : Decidable n.Complete :=
  inferInstanceAs (Decidable (n.Everywhere fun m => m.hasOperands = true))

@[simp]
theorem hasOperands_subst (n : Node) (θ : Bindings) : (n.subst θ).hasOperands = n.hasOperands := by
  cases n with
  | compound o a b => cases o <;> simp [subst, hasOperands, substOperand_eq_map]
  | _ => rfl

/-- A complete negation has one operand. -/
theorem Complete.of_not {a r : Option Node} (h : (Node.compound .not a r).Complete) :
    r = none := by
  have hhere := h.here
  simp only [hasOperands, Bool.and_eq_true, Option.isNone_iff_eq_none] at hhere
  exact hhere.2

/-- A complete implication has both sides, and they are complete. -/
theorem Complete.of_implies {a b : Option Node} (h : (Node.compound .implies a b).Complete) :
    ∃ m n, a = some m ∧ b = some n ∧ m.Complete ∧ n.Complete := by
  have hhere := h.here
  simp only [hasOperands, Bool.and_eq_true, Option.isSome_iff_exists] at hhere
  obtain ⟨⟨m, rfl⟩, n, rfl⟩ := hhere
  obtain ⟨-, hm, hn⟩ := everywhere_compound.1 h
  exact ⟨m, n, rfl, rfl, hm m rfl, hn n rfl⟩

end Node

/-- What is inferred from complete nodes is complete. -/
theorem Infers.complete {nodes : List Node} {c : Node} (h : Infers nodes c)
    (hn : ∀ n ∈ nodes, n.Complete) : c.Complete :=
  h.everywhere (fun θ m hm => (m.hasOperands_subst θ).trans hm) (fun _ => rfl) (fun _ _ => rfl) hn

end TripleLogic
