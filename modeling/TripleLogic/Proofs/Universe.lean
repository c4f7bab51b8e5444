/-
TripleLogic.Proofs.Universe — the nodes that forward chaining can reach.

The shape of a node is what is left of it without its tokens. Substitution
keeps shapes, and over a vocabulary there are finitely many nodes of one
shape (`mem_fillings`).

Given some nodes closed under parts, the universe holds the nodes over a
vocabulary that have the shape of one of these, their negations, and the
implications between them. It is finite (`mem_all`), and no step of inference
leads out of it (`Infers.universe`): modus tollens negates a part, a chain of
implications joins two parts, and whatever else is inferred is a part of a
node, or a part of a rule after substitution.
-/
import Mathlib.Data.List.Sections
import TripleLogic.Proofs.Inference
import TripleLogic.Proofs.Tokens

namespace TripleLogic

/-! ## Shapes -/

/-- The shape of a statement: no tokens, and no names. -/
def Statement.shape (s : Statement) : Statement where
  subject := .identifier ""
  relation := { s.relation with name := "" }
  object := .identifier ""
  attributes := s.attributes.map fun a => (a.1, .identifier "")

/-- The shape of an edge. -/
def Edge.shape (e : Edge) : Edge :=
  { e with source := "", target := "", name := "" }

namespace Node

mutual

/-- The shape of a node. -/
def shape : Node → Node
  | .intent i => .intent { i with statements := i.statements.map Statement.shape }
  | .compound o a b => .compound o (shapeOperand a) (shapeOperand b)
  | .quantified q v a d => .quantified q v (shape a) d
  | .rule i a b d x c => .rule i (shape a) (shape b) d x c
  | .edge e => .edge e.shape

/-- The shape of an operand that may be missing. -/
def shapeOperand : Option Node → Option Node
  | none => none
  | some a => some (shape a)

end

theorem shapeOperand_eq_map (a : Option Node) : shapeOperand a = a.map shape := by
  cases a <;> rfl

end Node

theorem Statement.shape_subst (s : Statement) (θ : Bindings) : (s.subst θ).shape = s.shape := by
  simp only [shape, subst, List.map_map, Function.comp_def]

/-- Substitution keeps shapes. -/
theorem Node.shape_subst (n : Node) (θ : Bindings) : (n.subst θ).shape = n.shape := by
  induction n using Node.ind with
  | intent i => simp only [subst, shape, List.map_map, Function.comp_def, Statement.shape_subst]
  | compound o a b iha ihb =>
      simp only [subst, shape, substOperand_eq_map, shapeOperand_eq_map, Option.map_map,
        Function.comp_def]
      rw [Option.map_congr fun n hn => iha n hn, Option.map_congr fun n hn => ihb n hn]
  | quantified q v a d ih => simp only [subst, shape, ih]
  | rule i a b d x c iha ihb => simp only [subst, shape, iha, ihb]
  | edge e => rfl

/-! ## The nodes of one shape -/

/-- The statements of the shape of a given one, over a vocabulary. -/
def Statement.fillings (V : Vocabulary) (s : Statement) : List Statement :=
  V.tokens.flatMap fun x => V.tokens.flatMap fun r => V.tokens.flatMap fun y =>
    (List.sections (s.attributes.map fun a => V.tokens.map fun e => (a.1, e))).map fun as =>
      { subject := x, relation := { s.relation with name := r.text }, object := y,
        attributes := as }

/-- The edges of the shape of a given one, over a vocabulary. -/
def Edge.fillings (V : Vocabulary) (e : Edge) : List Edge :=
  V.tokens.flatMap fun s => V.tokens.flatMap fun t => V.tokens.map fun n =>
    { e with source := s.text, target := t.text, name := n.text }

namespace Node

mutual

/-- The nodes of the shape of a given one, over a vocabulary. -/
def fillings (V : Vocabulary) : Node → List Node
  | .intent i => (List.sections (i.statements.map (Statement.fillings V))).map fun ss =>
      .intent { i with statements := ss }
  | .compound o a b => (fillingsOperand V a).flatMap fun a' =>
      (fillingsOperand V b).map fun b' => .compound o a' b'
  | .quantified q v a d => (fillings V a).map fun a' => .quantified q v a' d
  | .rule i a b d x c => (fillings V a).flatMap fun a' =>
      (fillings V b).map fun b' => .rule i a' b' d x c
  | .edge e => (e.fillings V).map .edge

/-- The operands of the shape of a given one, over a vocabulary. -/
def fillingsOperand (V : Vocabulary) : Option Node → List (Option Node)
  | none => [none]
  | some a => (fillings V a).map some

end

end Node

section

variable {V : Vocabulary}

theorem Statement.mem_fillings {s : Statement} (h : ∀ e ∈ s.tokens, e ∈ V.tokens) :
    s ∈ s.shape.fillings V := by
  simp only [tokens, List.forall_mem_cons, List.forall_mem_map] at h
  obtain ⟨hsub, hrel, hobj, hattr⟩ := h
  have hsections : s.attributes ∈
      List.sections (s.shape.attributes.map fun a => V.tokens.map fun e => (a.1, e)) := by
    simp only [shape, List.map_map, Function.comp_def]
    rw [List.mem_sections, List.forall₂_map_right_iff, List.forall₂_same]
    exact fun a ha => List.mem_map.2 ⟨a.2, hattr a ha, rfl⟩
  refine List.mem_flatMap.2 ⟨_, hsub, List.mem_flatMap.2 ⟨_, hrel, ?_⟩⟩
  refine List.mem_flatMap.2 ⟨_, hobj, ?_⟩
  exact List.mem_map.2 ⟨s.attributes, hsections, rfl⟩

theorem Edge.mem_fillings {e : Edge} (h : ∀ x ∈ e.tokens, x ∈ V.tokens) :
    e ∈ e.shape.fillings V := by
  simp only [tokens, List.forall_mem_cons] at h
  refine List.mem_flatMap.2 ⟨_, h.1, List.mem_flatMap.2 ⟨_, h.2.1, ?_⟩⟩
  exact List.mem_map.2 ⟨_, h.2.2.1, rfl⟩

theorem Node.mem_fillingsOperand {a : Option Node}
    (h : ∀ n, a = some n → n ∈ n.shape.fillings V) : a ∈ fillingsOperand V (shapeOperand a) := by
  cases a with
  | none => exact List.mem_singleton.2 rfl
  | some n => exact List.mem_map.2 ⟨n, h n rfl, rfl⟩

/-- A node over a vocabulary is one of the nodes of its shape. -/
theorem Node.mem_fillings {n : Node} (h : n.Over V) : n ∈ n.shape.fillings V := by
  induction n using Node.ind with
  | intent i =>
      rw [Over, forall_tokens_intent] at h
      have hsections : i.statements ∈
          List.sections ((i.statements.map Statement.shape).map (Statement.fillings V)) := by
        rw [List.map_map, List.mem_sections, List.forall₂_map_right_iff, List.forall₂_same]
        exact fun s hs => Statement.mem_fillings (h s hs)
      exact List.mem_map.2 ⟨i.statements, hsections, rfl⟩
  | compound o a b iha ihb =>
      rw [Over, forall_tokens_compound] at h
      have ha := mem_fillingsOperand fun n hn => iha n hn (h.1 n hn)
      have hb := mem_fillingsOperand fun n hn => ihb n hn (h.2 n hn)
      exact List.mem_flatMap.2 ⟨a, ha, List.mem_map.2 ⟨b, hb, rfl⟩⟩
  | quantified q v a d ih => exact List.mem_map.2 ⟨a, ih h, rfl⟩
  | rule i a b d x c iha ihb =>
      rw [Over, forall_tokens_rule] at h
      exact List.mem_flatMap.2 ⟨a, iha h.1, List.mem_map.2 ⟨b, ihb h.2, rfl⟩⟩
  | edge e => exact List.mem_map.2 ⟨e, Edge.mem_fillings h, rfl⟩

end

/-! ## Parts -/

namespace Node

mutual

/-- A node, its children, their children, and so on. -/
def parts : Node → List Node
  | .compound o a b => .compound o a b :: (partsOperand a ++ partsOperand b)
  | .rule i a b d x c => .rule i a b d x c :: (parts a ++ parts b)
  | .intent i => [.intent i]
  | .quantified q v a d => [.quantified q v a d]
  | .edge e => [.edge e]

/-- The parts of an operand that may be missing. -/
def partsOperand : Option Node → List Node
  | none => []
  | some a => parts a

end

theorem mem_parts_self (n : Node) : n ∈ n.parts := by
  cases n <;> simp [parts]

theorem mem_partsOperand {a : Option Node} {m : Node} :
    m ∈ partsOperand a ↔ ∃ n, a = some n ∧ m ∈ n.parts := by
  cases a <;> simp [partsOperand]

/-- The children of parts are parts. -/
theorem mem_parts_of_mem_children {n m c : Node} (hm : m ∈ n.parts) (hc : c ∈ m.children) :
    c ∈ n.parts := by
  induction n using Node.ind with
  | compound o a b iha ihb =>
      simp only [parts, List.mem_cons, List.mem_append, mem_partsOperand] at hm ⊢
      rcases hm with rfl | ⟨n, rfl, hm⟩ | ⟨n, rfl, hm⟩
      · simp only [children, List.mem_append, Option.mem_toList] at hc
        rcases hc with rfl | rfl
        · exact Or.inr (Or.inl ⟨c, rfl, mem_parts_self c⟩)
        · exact Or.inr (Or.inr ⟨c, rfl, mem_parts_self c⟩)
      · exact Or.inr (Or.inl ⟨n, rfl, iha n rfl hm⟩)
      · exact Or.inr (Or.inr ⟨n, rfl, ihb n rfl hm⟩)
  | rule i a b d x k iha ihb =>
      simp only [parts, List.mem_cons, List.mem_append] at hm ⊢
      rcases hm with rfl | hm | hm
      · simp only [children, List.mem_cons, List.not_mem_nil, or_false] at hc
        rcases hc with rfl | rfl
        · exact Or.inr (Or.inl (mem_parts_self c))
        · exact Or.inr (Or.inr (mem_parts_self c))
      · exact Or.inr (Or.inl (iha hm))
      · exact Or.inr (Or.inr (ihb hm))
  | _ =>
      cases List.mem_singleton.1 hm
      cases hc

/-- The children of a shape are the shapes of the children. -/
theorem children_shape (n : Node) : n.shape.children = n.children.map shape := by
  cases n with
  | compound o a b => cases a <;> cases b <;> rfl
  | _ => rfl

theorem Over.of_mem_children {V : Vocabulary} {n c : Node} (h : n.Over V)
    (hc : c ∈ n.children) : c.Over V :=
  bears_iff_tokens.1 ((bears_iff_tokens.2 h).of_mem_children hc)

end Node

/-! ## The universe -/

/-- A vocabulary, and nodes that lend their shapes, among them all their
children. -/
structure Universe where
  vocabulary : Vocabulary
  forms : List Node
  children_mem : ∀ f ∈ forms, ∀ c ∈ f.children, c ∈ forms

namespace Universe

/-- A node over the vocabulary, of the shape of one of the forms. -/
structure Formed (U : Universe) (n : Node) : Prop where
  tokens_mem : n.Over U.vocabulary
  shape_mem : n.shape ∈ U.forms.map Node.shape

/-- The nodes of a universe. -/
inductive Mem (U : Universe) : Node → Prop
  | formed {n : Node} (h : U.Formed n) : Mem U n
  | negation {a : Node} (h : U.Formed a) : Mem U a.negate
  | implication {a b : Node} (ha : U.Formed a) (hb : U.Formed b) : Mem U (a.implies b)

/-- A list of all nodes of a universe. -/
def all (U : Universe) : List Node :=
  let formed := (U.forms.map Node.shape).flatMap (Node.fillings U.vocabulary)
  formed ++ formed.map Node.negate ++ formed.flatMap fun a => formed.map a.implies

/-- A universe is finite. -/
theorem mem_all {U : Universe} {n : Node} (h : U.Mem n) : n ∈ U.all := by
  have hformed : ∀ {n}, U.Formed n →
      n ∈ (U.forms.map Node.shape).flatMap (Node.fillings U.vocabulary) :=
    fun hn => List.mem_flatMap.2 ⟨_, hn.shape_mem, Node.mem_fillings hn.tokens_mem⟩
  simp only [all, List.mem_append]
  cases h with
  | formed h => exact Or.inl (Or.inl (hformed h))
  | negation h => exact Or.inl (Or.inr (List.mem_map.2 ⟨_, hformed h, rfl⟩))
  | implication ha hb =>
      exact Or.inr (List.mem_flatMap.2 ⟨_, hformed ha, List.mem_map.2 ⟨_, hformed hb, rfl⟩⟩)

/-- The children of a formed node are formed. -/
theorem Formed.child {U : Universe} {n c : Node} (h : U.Formed n) (hc : c ∈ n.children) :
    U.Formed c := by
  refine ⟨h.tokens_mem.of_mem_children hc, ?_⟩
  -- The node and a form have one shape, so each child has that of a child of
  -- the form.
  obtain ⟨f, hf, hshape⟩ := List.mem_map.1 h.shape_mem
  have hmem : c.shape ∈ f.shape.children := by
    rw [hshape, Node.children_shape]
    exact List.mem_map_of_mem hc
  rw [Node.children_shape] at hmem
  obtain ⟨d, hd, hds⟩ := List.mem_map.1 hmem
  exact List.mem_map.2 ⟨d, U.children_mem f hf d hd, hds⟩

/-- Substitution within the vocabulary keeps a node formed. -/
theorem Formed.subst {U : Universe} {n : Node} (h : U.Formed n) {θ : Bindings}
    (hθ : θ.Over U.vocabulary) : U.Formed (n.subst θ) := by
  refine ⟨Node.over_subst hθ h.tokens_mem, ?_⟩
  rw [Node.shape_subst]
  exact h.shape_mem

/-- The children of all nodes of a universe are formed. -/
theorem Mem.child {U : Universe} {n c : Node} (h : U.Mem n) (hc : c ∈ n.children) :
    U.Formed c := by
  cases h with
  | formed h => exact h.child hc
  | negation h => exact List.mem_singleton.1 hc ▸ h
  | implication ha hb =>
      rcases List.mem_cons.1 hc with hc | hc
      · exact hc ▸ ha
      · exact List.mem_singleton.1 hc ▸ hb

theorem Mem.tokens_mem {U : Universe} {n : Node} (h : U.Mem n) : n.Over U.vocabulary := by
  cases h with
  | formed h => exact h.tokens_mem
  | negation h =>
      exact Node.bears_iff_tokens.1 (Node.bears_iff_tokens.2 h.tokens_mem).negate
  | implication ha hb =>
      exact Node.bears_iff_tokens.1 ((Node.bears_iff_tokens.2 ha.tokens_mem).implies
        (Node.bears_iff_tokens.2 hb.tokens_mem))

end Universe

/-- No step of inference leads out of a universe. -/
theorem Infers.universe {U : Universe} {nodes : List Node} {c : Node}
    (h : Infers nodes c) (hn : ∀ n ∈ nodes, U.Mem n) : U.Mem c := by
  refine h.keeps hn .formed Universe.Mem.child .negation .implication fun {a b θ} ha hb hθ => ?_
  have hθV : θ.Over U.vocabulary :=
    Unify.matchPremises_over (fun n hm => (hn n hm).tokens_mem) ha.tokens_mem hθ
  exact hb.subst hθV

/-! ## The universe of some nodes -/

/-- The vocabulary of some tokens. -/
def Vocabulary.ofTokens (ts : List Expr) : Vocabulary where
  tokens := ts ++ ts.map fun e => .identifier e.text
  identifier_mem := by
    intro e he
    refine List.mem_append_right _ ?_
    rcases List.mem_append.1 he with he | he
    · exact List.mem_map.2 ⟨e, he, rfl⟩
    · -- The text of an identifier is its name, so it spells itself.
      obtain ⟨f, hf, rfl⟩ := List.mem_map.1 he
      exact he

/-- The universe of the tokens and the parts of some nodes. -/
def Universe.ofNodes (nodes : List Node) : Universe where
  vocabulary := .ofTokens (nodes.flatMap Node.tokens)
  forms := nodes.flatMap Node.parts
  children_mem := by
    intro f hf c hc
    obtain ⟨n, hn, hf⟩ := List.mem_flatMap.1 hf
    exact List.mem_flatMap.2 ⟨n, hn, Node.mem_parts_of_mem_children hf hc⟩

theorem Universe.mem_ofNodes {nodes : List Node} {n : Node} (hn : n ∈ nodes) :
    (Universe.ofNodes nodes).Mem n := by
  refine .formed ⟨fun e he => ?_, ?_⟩
  · exact List.mem_append_left _ (List.mem_flatMap.2 ⟨n, hn, he⟩)
  · exact List.mem_map_of_mem (List.mem_flatMap.2 ⟨n, hn, Node.mem_parts_self n⟩)

end TripleLogic
