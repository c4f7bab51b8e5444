/-
TripleLogic.Proofs.Tokens — the tokens of nodes, and what unification does
with them.

The tokens of a node are its subjects, its objects, the values of its
attributes, and its names, read as identifiers. They stand at places of three
kinds (`Place`). Unification goes from a token to one at a place of the same
kind, so a property of bindings that unifying two such tokens keeps is kept by
unifying two nodes (`nodes_keeps`) and by matching premises
(`matchPremises_keeps`). A property of tokens that replacing variables keeps is
kept by substitution (`Node.Bears.subst`).

A vocabulary is a list of tokens that has, with a token, the identifier that
its text spells. Bindings found for nodes over a vocabulary are over it
(`matchPremises_over`), and so is what they make of a node by substitution
(`over_subst`), names included.
-/
import TripleLogic.Proofs.Inference
import TripleLogic.Proofs.Premises

namespace TripleLogic

/-! ## The tokens of a node -/

/-- The tokens of a statement. -/
def Statement.tokens (s : Statement) : List Expr :=
  s.subject :: .identifier s.relation.name :: s.object :: s.attributes.map Prod.snd

/-- The terms of a statement: subject, object and values of attributes. -/
def Statement.terms (s : Statement) : List Expr :=
  s.subject :: s.object :: s.attributes.map Prod.snd

/-- The tokens of an edge. -/
def Edge.tokens (e : Edge) : List Expr :=
  [.identifier e.source, .identifier e.target, .identifier e.name]

/-- The tokens of a node. -/
def Node.tokens (n : Node) : List Expr :=
  n.collect Statement.tokens Edge.tokens

/-- The kinds of places at which tokens stand. -/
inductive Place where
  /-- Subjects, objects and values of attributes. -/
  | term
  /-- Names of relations. -/
  | relation
  /-- Names of edges and of their ends. -/
  | edge
  deriving DecidableEq, Repr

/-- The tokens of a statement, each with the kind of its place. -/
def Statement.placed (s : Statement) : List (Place × Expr) :=
  (.term, s.subject) :: (.relation, .identifier s.relation.name) :: (.term, s.object) ::
    s.attributes.map fun a => (.term, a.2)

/-- The tokens of an edge, each with the kind of its place. -/
def Edge.placed (e : Edge) : List (Place × Expr) :=
  e.tokens.map fun x => (.edge, x)

namespace Node

/-- The tokens of a node, each with the kind of its place. -/
def placed (n : Node) : List (Place × Expr) :=
  n.collect Statement.placed Edge.placed

/-- The tokens of a node have a property that depends on the kinds of their
places. -/
def Bears (T : Place → Expr → Prop) (n : Node) : Prop :=
  ∀ x ∈ n.placed, T x.1 x.2

/-- A property of tokens that does not depend on places. -/
theorem bears_iff_tokens {T : Expr → Prop} {n : Node} :
    n.Bears (fun _ => T) ↔ ∀ e ∈ n.tokens, T e := by
  have htokens : n.tokens = n.placed.map Prod.snd := by
    rw [placed, map_collect, tokens]
    congr 1
    · funext s
      simp [Statement.tokens, Statement.placed]
  rw [htokens, List.forall_mem_map]
  rfl

theorem forall_tokens_intent {T : Expr → Prop} {i : Intent} :
    (∀ e ∈ (Node.intent i).tokens, T e) ↔ ∀ s ∈ i.statements, ∀ e ∈ s.tokens, T e :=
  forall_collect_intent

theorem forall_tokens_compound {T : Expr → Prop} {o : Connective} {a b : Option Node} :
    (∀ e ∈ (Node.compound o a b).tokens, T e) ↔
      (∀ n, a = some n → ∀ e ∈ n.tokens, T e) ∧ ∀ n, b = some n → ∀ e ∈ n.tokens, T e :=
  forall_collect_compound

theorem forall_tokens_rule {T : Expr → Prop} {i : String} {a b : Node} {d : Option String}
    {x : Bool} {c : Data} :
    (∀ e ∈ (Node.rule i a b d x c).tokens, T e) ↔
      (∀ e ∈ a.tokens, T e) ∧ ∀ e ∈ b.tokens, T e :=
  forall_collect_rule

variable {T : Place → Expr → Prop}

theorem bears_intent {i : Intent} :
    (Node.intent i).Bears T ↔ ∀ s ∈ i.statements, ∀ x ∈ s.placed, T x.1 x.2 :=
  forall_collect_intent

theorem bears_compound {o : Connective} {a b : Option Node} :
    (Node.compound o a b).Bears T ↔
      (∀ n, a = some n → n.Bears T) ∧ ∀ n, b = some n → n.Bears T :=
  forall_collect_compound

theorem bears_rule {i : String} {a b : Node} {d : Option String} {x : Bool} {c : Data} :
    (Node.rule i a b d x c).Bears T ↔ a.Bears T ∧ b.Bears T :=
  forall_collect_rule

/-- What holds of the tokens of all statements and of all edges holds of the
tokens of all nodes. -/
theorem bears_of_forall (hs : ∀ s : Statement, ∀ x ∈ s.placed, T x.1 x.2)
    (he : ∀ e : Edge, ∀ x ∈ e.placed, T x.1 x.2) (n : Node) : n.Bears T := by
  induction n using Node.ind with
  | intent i => exact bears_intent.2 fun s _ => hs s
  | compound o a b iha ihb => exact bears_compound.2 ⟨iha, ihb⟩
  | quantified q v a d ih => exact ih
  | rule i a b d x c iha ihb => exact bears_rule.2 ⟨iha, ihb⟩
  | edge e => exact he e

theorem Bears.of_mem_children {n c : Node} (h : n.Bears T) (hc : c ∈ n.children) :
    c.Bears T := by
  cases n with
  | compound o a b =>
      obtain ⟨ha, hb⟩ := bears_compound.1 h
      simp only [children, List.mem_append, Option.mem_toList] at hc
      exact hc.elim (ha c) (hb c)
  | rule i a b d x k =>
      obtain ⟨ha, hb⟩ := bears_rule.1 h
      simp only [children, List.mem_cons, List.not_mem_nil, or_false] at hc
      rcases hc with rfl | rfl
      · exact ha
      · exact hb
  | _ => cases hc

theorem Bears.negate {a : Node} (h : a.Bears T) : a.negate.Bears T :=
  bears_compound.2 ⟨fun n hn => by cases hn; exact h, nofun⟩

theorem Bears.implies {a b : Node} (ha : a.Bears T) (hb : b.Bears T) : (a.implies b).Bears T :=
  bears_compound.2 ⟨fun n hn => by cases hn; exact ha, fun n hn => by cases hn; exact hb⟩

theorem Bears.of_mem_conjuncts {n m : Node} (h : n.Bears T) (hm : m ∈ n.conjuncts) :
    m.Bears T := by
  fun_induction conjuncts n with
  | case1 a b iha ihb =>
      rw [bears_compound] at h
      rcases List.mem_append.1 hm with hm | hm
      · exact iha (h.1 a rfl) hm
      · exact ihb (h.2 b rfl) hm
  | case2 n _ =>
      rw [List.mem_singleton.1 hm]
      exact h

end Node

/-! ## What unification keeps -/

namespace Unify

/-- A step keeps a property of bindings. -/
def Keeps (P : Bindings → Prop) (f : Bindings → Option Bindings) : Prop :=
  ∀ θ θ', P θ → f θ = some θ' → P θ'

theorem Keeps.bind {P : Bindings → Prop} {f g : Bindings → Option Bindings} (hf : Keeps P f)
    (hg : Keeps P g) : Keeps P (fun θ => (f θ).bind g) := by
  intro θ θ'' hθ h
  obtain ⟨θ', h₁, h₂⟩ := Option.bind_eq_some_iff.1 h
  exact hg θ' θ'' (hf θ θ' hθ h₁) h₂

theorem keeps_some {P : Bindings → Prop} : Keeps P some := by
  intro θ θ' hθ h
  cases h
  exact hθ

theorem keeps_none {P : Bindings → Prop} : Keeps P (fun _ => none) := by
  intro θ θ' _ h
  cases h

theorem keeps_ite {P : Bindings → Prop} {c : Prop} [Decidable c]
    {f : Bindings → Option Bindings} (hf : Keeps P f) :
    Keeps P (fun θ => if c then f θ else none) := by
  by_cases hc : c
  · simpa [hc] using hf
  · simpa [hc] using keeps_none

theorem operands_keeps {P : Bindings → Prop} {a b : Option Node}
    (h : ∀ m n, a = some m → b = some n → Keeps P (nodes m n)) : Keeps P (operands a b) := by
  cases a with
  | none =>
      cases b with
      | none => exact keeps_some
      | some n => exact keeps_none
  | some m =>
      cases b with
      | none => exact keeps_none
      | some n => exact h m n rfl rfl

section

variable {P : Bindings → Prop} {T : Place → Expr → Prop}
  (hstep : ∀ p x y, T p x → T p y → Keeps P (exprs x y))

include hstep

theorem valuesAt_keeps {x y : Option Expr} (hx : ∀ e, x = some e → T .term e)
    (hy : ∀ e, y = some e → T .term e) : Keeps P (valuesAt x y) := by
  cases x with
  | none =>
      cases y with
      | none => exact keeps_some
      | some f => exact keeps_ite keeps_some
  | some e =>
      cases y with
      | none => exact keeps_ite keeps_some
      | some f => exact hstep .term e f (hx e rfl) (hy f rfl)

theorem attributes_keeps {a b : Attributes} (ha : ∀ x ∈ a, T .term x.2)
    (hb : ∀ x ∈ b, T .term x.2) : ∀ ks : List String, Keeps P (attributes a b ks)
  | [] => keeps_some
  | k :: ks => by
      have hget : ∀ {c : Attributes}, (∀ x ∈ c, T .term x.2) →
          ∀ e, c.get? k = some e → T .term e :=
        fun hc e he => hc (k, e) (Attributes.mem_of_get? he)
      exact (valuesAt_keeps hstep (hget ha) (hget hb)).bind (attributes_keeps ha hb ks)

theorem statements_keeps {s t : Statement} (hs : ∀ x ∈ s.placed, T x.1 x.2)
    (ht : ∀ x ∈ t.placed, T x.1 x.2) : Keeps P (statements s t) := by
  simp only [Statement.placed, List.forall_mem_cons, List.forall_mem_map] at hs ht
  exact (hstep _ _ _ hs.1 ht.1).bind ((hstep _ _ _ hs.2.1 ht.2.1).bind
    ((hstep _ _ _ hs.2.2.1 ht.2.2.1).bind (attributes_keeps hstep hs.2.2.2 ht.2.2.2 _)))

theorem statementLists_keeps : ∀ {ss ts : List Statement},
    (∀ s ∈ ss, ∀ x ∈ s.placed, T x.1 x.2) → (∀ t ∈ ts, ∀ x ∈ t.placed, T x.1 x.2) →
    Keeps P (statementLists ss ts)
  | [], [], _, _ => keeps_some
  | s :: ss, t :: ts, hs, ht => by
      rw [List.forall_mem_cons] at hs ht
      exact (statements_keeps hstep hs.1 ht.1).bind (statementLists_keeps hs.2 ht.2)
  | [], _ :: _, _, _ => keeps_none
  | _ :: _, [], _, _ => keeps_none

theorem edges_keeps {e f : Edge} (he : ∀ x ∈ e.placed, T x.1 x.2)
    (hf : ∀ x ∈ f.placed, T x.1 x.2) : Keeps P (edges e f) := by
  simp only [Edge.placed, Edge.tokens, List.map_cons, List.forall_mem_cons] at he hf
  exact keeps_ite ((hstep _ _ _ he.1 hf.1).bind ((hstep _ _ _ he.2.1 hf.2.1).bind
    (hstep _ _ _ he.2.2.1 hf.2.2.1)))

/-- Unifying two nodes keeps what unifying two of their tokens keeps. -/
theorem nodes_keeps {a b : Node} (ha : a.Bears T) (hb : b.Bears T) : Keeps P (nodes a b) := by
  induction a using Node.ind generalizing b with
  | intent i =>
      cases b with
      | intent j =>
          exact keeps_ite (statementLists_keeps hstep (Node.bears_intent.1 ha)
            (Node.bears_intent.1 hb))
      | _ => exact keeps_none
  | compound o a c iha ihc =>
      cases b with
      | compound p b d =>
          rw [Node.bears_compound] at ha hb
          refine keeps_ite ((operands_keeps fun m n hm hn => ?_).bind
            (operands_keeps fun m n hm hn => ?_))
          · exact iha m hm (ha.1 m hm) (hb.1 n hn)
          · exact ihc m hm (ha.2 m hm) (hb.2 n hn)
      | _ => exact keeps_none
  | quantified q v a d ih =>
      cases b with
      | quantified r w b e => exact keeps_ite (ih ha hb)
      | _ => exact keeps_none
  | rule i a c d x k iha ihc =>
      cases b with
      | rule j b e f y l =>
          rw [Node.bears_rule] at ha hb
          exact keeps_ite ((iha ha.1 hb.1).bind (ihc ha.2 hb.2))
      | _ => exact keeps_none
  | edge e =>
      cases b with
      | edge f => exact edges_keeps hstep ha hb
      | _ => exact keeps_none

theorem matchConjuncts_keeps {ns : List Node} (hn : ∀ n ∈ ns, n.Bears T) :
    ∀ {parts : List Node}, (∀ p ∈ parts, p.Bears T) → Keeps P (matchConjuncts ns parts)
  | [], _ => keeps_some
  | p :: ps, hp => by
      rw [List.forall_mem_cons] at hp
      refine Keeps.bind ?_ (matchConjuncts_keeps hn hp.2)
      intro θ θ' hθ h
      obtain ⟨n, hmem, hu⟩ := List.exists_of_findSome?_eq_some h
      exact nodes_keeps hstep hp.1 (hn n hmem) θ θ' hθ hu

/-- Matching premises keeps what unifying two tokens keeps. -/
theorem matchPremises_keeps {ns : List Node} (hn : ∀ n ∈ ns, n.Bears T) {premises : Node}
    (hp : premises.Bears T) {θ θ' : Bindings} (hθ : P θ)
    (h : θ' ∈ matchPremises premises ns θ) : P θ' := by
  simp only [matchPremises] at h
  split at h
  · obtain ⟨n, hmem, hu⟩ := List.mem_filterMap.1 h
    exact nodes_keeps hstep hp (hn n hmem) θ θ' hθ hu
  · exact matchConjuncts_keeps hstep hn (fun p hpm => hp.of_mem_conjuncts hpm) θ θ' hθ
      (Option.mem_toList.1 h)

end

end Unify

/-! ## What bindings keep -/

namespace Bindings

/-- What holds of all bindings and of a new one holds after it was made. -/
theorem forall_mem_set {P : String × Expr → Prop} {θ : Bindings} (hθ : ∀ b ∈ θ, P b) {v : String}
    {e : Expr} (he : P (v, e)) : ∀ b ∈ θ.set v e, P b := by
  intro b hb
  simp only [set] at hb
  split at hb
  · obtain ⟨c, hc, rfl⟩ := List.mem_map.1 hb
    split
    · exact he
    · exact hθ c hc
  · rcases List.mem_append.1 hb with hb | hb
    · exact hθ b hb
    · rw [List.mem_singleton.1 hb]
      exact he

/-- What goes over from a variable to what it is bound to goes over to final
values. -/
theorem resolve_keeps {P : Expr → Prop} {θ : Bindings}
    (hstep : ∀ e v f, (v, f) ∈ θ → e.varName? = some v → P e → P f) {e : Expr} (he : P e) :
    P (θ.resolve e) := by
  induction θ, e using Bindings.resolve.induct with
  | case1 θ e hv => rwa [resolve_of_not_variable hv]
  | case2 θ e v hv hf => rwa [resolve_of_unbound hv hf]
  | case3 θ e v hv f hf ih =>
      rw [resolve_of_get? hv hf]
      obtain ⟨l₁, l₂, rfl, -⟩ := List.lookup_eq_some_iff.1 hf
      exact ih (fun e w g hg => hstep e w g (List.mem_filter.1 hg).1)
        (hstep e v f (by simp) hv he)

/-- What holds of a token and of all that variables are bound to holds of the
final value. -/
theorem resolve_of_forall {P : Expr → Prop} {θ : Bindings} (hθ : ∀ b ∈ θ, P b.2) {e : Expr}
    (he : P e) : P (θ.resolve e) :=
  resolve_keeps (fun _ v f hf _ _ => hθ (v, f) hf) he

end Bindings

/-- Unifying two tokens keeps what holds of both and of all that variables are
bound to. -/
theorem Unify.exprs_keeps {P : Expr → Prop} {x y : Expr} (hx : P x) (hy : P y) :
    Keeps (fun θ => ∀ b ∈ θ, P b.2) (exprs x y) := by
  intro θ θ' hθ h
  rcases exprs_cases h with ⟨rfl, -⟩ | ⟨rfl, -⟩ | ⟨v, -, -, rfl⟩ | ⟨v, -, -, rfl⟩
  · exact hθ
  · exact hθ
  · exact Bindings.forall_mem_set hθ (Bindings.resolve_of_forall hθ hy)
  · exact Bindings.forall_mem_set hθ (Bindings.resolve_of_forall hθ hx)

/-! ## What substitution keeps -/

/-- Replacing variables keeps a property of tokens: of terms by final values,
and of names by their texts. -/
structure Bindings.Respects (T : Place → Expr → Prop) (θ : Bindings) : Prop where
  resolve : ∀ e, T .term e → T .term (θ.resolve e)
  substName : ∀ p name, p ≠ .term → T p (.identifier name) →
    T p (.identifier (TripleLogic.substName θ name))

section

variable {T : Place → Expr → Prop} {θ : Bindings} (hθ : θ.Respects T)

include hθ

theorem Statement.bears_subst {s : Statement} (h : ∀ x ∈ s.placed, T x.1 x.2) :
    ∀ x ∈ (s.subst θ).placed, T x.1 x.2 := by
  simp only [placed, List.forall_mem_cons, List.forall_mem_map] at h
  obtain ⟨hsub, hrel, hobj, hattr⟩ := h
  simp only [placed, subst, List.map_map, List.forall_mem_cons, List.forall_mem_map]
  exact ⟨hθ.resolve _ hsub, hθ.substName _ _ (by decide) hrel, hθ.resolve _ hobj,
    fun a ha => hθ.resolve _ (hattr a ha)⟩

theorem Edge.bears_subst {e : Edge} (h : ∀ x ∈ e.placed, T x.1 x.2) :
    ∀ x ∈ (e.subst θ).placed, T x.1 x.2 := by
  simp only [placed, tokens, List.map_cons, List.forall_mem_cons] at h ⊢
  exact ⟨hθ.substName _ _ (by decide) h.1, hθ.substName _ _ (by decide) h.2.1,
    hθ.substName _ _ (by decide) h.2.2.1, h.2.2.2⟩

/-- Substitution keeps what replacing variables keeps. -/
theorem Node.Bears.subst {n : Node} (h : n.Bears T) : (n.subst θ).Bears T := by
  induction n using Node.ind with
  | intent i =>
      rw [bears_intent] at h
      refine bears_intent.2 fun s hs => ?_
      obtain ⟨t, ht, rfl⟩ := List.mem_map.1 hs
      exact Statement.bears_subst hθ (h t ht)
  | compound o a b iha ihb =>
      rw [bears_compound] at h
      refine bears_compound.2 ⟨forall_substOperand.2 ?_, forall_substOperand.2 ?_⟩
      · exact fun n hn => iha n hn (h.1 n hn)
      · exact fun n hn => ihb n hn (h.2 n hn)
  | quantified q v a d ih => exact ih h
  | rule i a b d x c iha ihb =>
      rw [bears_rule] at h
      exact bears_rule.2 ⟨iha h.1, ihb h.2⟩
  | edge e => exact Edge.bears_subst hθ h

end

/-! ## Vocabularies -/

/-- Tokens, with the identifiers that their texts spell. -/
structure Vocabulary where
  tokens : List Expr
  identifier_mem : ∀ e ∈ tokens, .identifier e.text ∈ tokens

/-- All bound variables are bound to tokens of a vocabulary. -/
def Bindings.Over (V : Vocabulary) (θ : Bindings) : Prop :=
  ∀ b ∈ θ, b.2 ∈ V.tokens

/-- All tokens of a node are tokens of a vocabulary. -/
def Node.Over (V : Vocabulary) (n : Node) : Prop :=
  ∀ e ∈ n.tokens, e ∈ V.tokens

namespace Bindings

variable {V : Vocabulary}

theorem over_nil : Over V [] := nofun

/-- The final value of a token is a token. -/
theorem Over.resolve_mem {θ : Bindings} (hθ : θ.Over V) {e : Expr} (he : e ∈ V.tokens) :
    θ.resolve e ∈ V.tokens :=
  resolve_of_forall (P := (· ∈ V.tokens)) hθ he

end Bindings

namespace Unify

variable {V : Vocabulary}

/-- Unifying two tokens binds variables to tokens. -/
theorem exprs_over {x y : Expr} (hx : x ∈ V.tokens) (hy : y ∈ V.tokens) :
    Keeps (Bindings.Over V) (exprs x y) :=
  exprs_keeps (P := (· ∈ V.tokens)) hx hy

/-- Bindings found for premises among nodes over a vocabulary are over it. -/
theorem matchPremises_over {ns : List Node} (hn : ∀ n ∈ ns, n.Over V) {premises : Node}
    (hp : premises.Over V) {θ : Bindings} (h : θ ∈ matchPremises premises ns []) : θ.Over V :=
  matchPremises_keeps (T := fun _ e => e ∈ V.tokens) (fun _ _ _ hx hy => exprs_over hx hy)
    (fun n hmem => Node.bears_iff_tokens.2 (hn n hmem)) (Node.bears_iff_tokens.2 hp)
    Bindings.over_nil h

end Unify

/-- A name that is replaced is spelled by the text of a token. -/
theorem Bindings.Over.respects {V : Vocabulary} {θ : Bindings} (hθ : θ.Over V) :
    θ.Respects fun _ e => e ∈ V.tokens where
  resolve _ he := hθ.resolve_mem he
  substName _ name _ h := by
    unfold TripleLogic.substName
    split
    · exact V.identifier_mem _ (hθ.resolve_mem h)
    · exact h

/-- Substitution makes nodes over a vocabulary from such nodes. -/
theorem Node.over_subst {V : Vocabulary} {θ : Bindings} (hθ : θ.Over V) {n : Node}
    (h : n.Over V) : (n.subst θ).Over V :=
  bears_iff_tokens.1 ((bears_iff_tokens.2 h).subst hθ.respects)

end TripleLogic
