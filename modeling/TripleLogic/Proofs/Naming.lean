/-
TripleLogic.Proofs.Naming — inference keeps nodes valid as far as names fit.

A variable may stand where a term is wanted and where a relation or an edge is
named. If it is bound to a term, the text of the term becomes a name, and a
name may not be written like that. So a valid knowledge base may come to hold
nodes that are not (`household_misnamed`).

`Reaches` says which tokens can come to stand at a kind of place: those that
stand there, those that a variable takes there which can stand at another kind
of place too, and, where names are wanted, what these are written as. Bindings
found by unification take tokens no further (`Bindings.Carries`), and so do
substitution and inference (`Infers.reaches`).

Main statement: of what is known after forward chaining, all tokens stand
where they can come to stand, and nothing but a name can be wrong. Where all
tokens fit that can come to stand somewhere, all nodes stay valid; this is so
if no variable stands at two kinds of places (`forward_staysValid`).
-/
import TripleLogic.Proofs.Growth
import TripleLogic.Proofs.Validity

namespace TripleLogic

/-! ## Where tokens can come to stand -/

/-- The tokens that can come to stand at a kind of place, for nodes that are
known. -/
inductive Reaches (nodes : List Node) : Place → Expr → Prop
  | stands {n : Node} {p : Place} {e : Expr} (hn : n ∈ nodes) (he : (p, e) ∈ n.placed) :
      Reaches nodes p e
  /-- A variable that can stand at places of two kinds takes what can stand at
  the one to the other. -/
  | carried {p q : Place} {e x y : Expr} {v : String} (he : Reaches nodes p e)
      (hx : Reaches nodes p x) (hxv : x.varName? = some v)
      (hy : Reaches nodes q y) (hyv : y.varName? = some v) : Reaches nodes q e
  /-- Where a name is wanted, a token is written as its text. -/
  | written {p : Place} {e : Expr} (he : Reaches nodes p e) (hp : p ≠ .term) :
      Reaches nodes p (.identifier e.text)

/-- No variable stands at places of two kinds. -/
def Apart (nodes : List Node) : Prop :=
  ∀ x ∈ nodes.flatMap Node.placed, ∀ y ∈ nodes.flatMap Node.placed,
    x.2.isVariable = true → x.2.varName? = y.2.varName? → x.1 = y.1

instance (nodes : List Node) : Decidable (Apart nodes) :=
  inferInstanceAs (Decidable (∀ x ∈ nodes.flatMap Node.placed,
    ∀ y ∈ nodes.flatMap Node.placed,
      x.2.isVariable = true → x.2.varName? = y.2.varName? → x.1 = y.1))

/-- A token that names a relation or an edge is written as itself. -/
theorem Node.identifier_text_of_mem_placed {n : Node} {p : Place} {e : Expr}
    (h : (p, e) ∈ n.placed) (hp : p ≠ .term) : .identifier e.text = e := by
  refine n.bears_of_forall (T := fun p e => p ≠ .term → .identifier e.text = e) ?_ ?_ (p, e) h hp
  · intro s
    simp only [Statement.placed, List.forall_mem_cons, List.forall_mem_map]
    exact ⟨fun h => absurd rfl h, fun _ => rfl, fun h => absurd rfl h, fun _ _ h => absurd rfl h⟩
  · intro e
    simp [Edge.placed, Edge.tokens, Expr.text]

/-- Where no variable stands at places of two kinds, tokens can come to stand
only where such tokens stand. -/
theorem Reaches.mem_placed {nodes : List Node} (hapart : Apart nodes) {p : Place} {e : Expr}
    (h : Reaches nodes p e) : (p, e) ∈ nodes.flatMap Node.placed := by
  induction h with
  | stands hn he => exact List.mem_flatMap.2 ⟨_, hn, he⟩
  | @carried p q e x y v _ _ hxv _ hyv ihe ihx ihy =>
      have hpq : p = q := hapart _ ihx _ ihy (by simp [Expr.isVariable, hxv]) (hxv.trans hyv.symm)
      exact hpq ▸ ihe
  | written _ hp ih =>
      obtain ⟨n, hn, he⟩ := List.mem_flatMap.1 ih
      rw [Node.identifier_text_of_mem_placed he hp]
      exact ih

/-! ## Bindings take tokens no further -/

variable {nodes : List Node} {θ : Bindings}

/-- Wherever a bound variable can come to stand, what it is bound to can. -/
def Bindings.Carries (nodes : List Node) (θ : Bindings) : Prop :=
  ∀ b ∈ θ, ∀ p x, Reaches nodes p x → x.varName? = some b.1 → Reaches nodes p b.2

namespace Bindings

theorem carries_nil : Carries nodes [] := nofun

theorem Carries.resolve (hθ : θ.Carries nodes) {p : Place} {e : Expr} (he : Reaches nodes p e) :
    Reaches nodes p (θ.resolve e) :=
  resolve_keeps (fun x v f hf hv hx => hθ (v, f) hf p x hx hv) he

/-- A variable is bound to a token that can stand where the variable can. -/
theorem Carries.set (hθ : θ.Carries nodes) {p : Place} {a b : Expr} {v : String}
    (ha : Reaches nodes p a) (hv : a.varName? = some v) (hb : Reaches nodes p b) :
    (θ.set v b).Carries nodes :=
  forall_mem_set hθ fun _ _ hx hxv => hb.carried ha hv hx hxv

theorem Carries.respects (hθ : θ.Carries nodes) : θ.Respects (Reaches nodes) where
  resolve _ he := hθ.resolve he
  substName p name hp h := by
    unfold TripleLogic.substName
    split
    · exact (hθ.resolve h).written hp
    · exact h

end Bindings

theorem Unify.exprs_carries (p : Place) (x y : Expr) (hx : Reaches nodes p x)
    (hy : Reaches nodes p y) : Keeps (Bindings.Carries nodes) (exprs x y) := by
  intro θ θ' hθ h
  have hx' := hθ.resolve hx
  have hy' := hθ.resolve hy
  rcases exprs_cases h with ⟨rfl, -⟩ | ⟨rfl, -⟩ | ⟨v, hv, -, rfl⟩ | ⟨v, -, hv, rfl⟩
  · exact hθ
  · exact hθ
  · exact hθ.set hx' hv hy'
  · exact hθ.set hy' hv hx'

/-- Inference takes tokens nowhere that they cannot come to stand. -/
theorem Infers.reaches {known : List Node} {c : Node} (h : Infers known c)
    (hn : ∀ n ∈ known, n.Bears (Reaches nodes)) : c.Bears (Reaches nodes) := by
  refine h.keeps hn id .of_mem_children .negate .implies fun {a b θ} ha hb hθ => ?_
  have hcarries : θ.Carries nodes :=
    Unify.matchPremises_keeps Unify.exprs_carries hn ha Bindings.carries_nil hθ
  exact hb.subst hcarries.respects

/-! ## Forward chaining -/

/-- What forward chaining does to nodes that are valid to begin with. -/
structure Engine.StaysValid (g : Engine) (bound : Nat) : Prop where
  /-- What is derived is known afterwards. -/
  derived : ∀ s, (g.forward bound).2 = .ok s → ∀ n ∈ s.derived, n ∈ (g.forward bound).1.kb.nodes
  /-- All tokens stand where they can come to stand. -/
  reaches : ∀ n ∈ (g.forward bound).1.kb.nodes, n.Bears (Reaches g.kb.nodes)
  /-- A node has no problems unless a name does not fit its place. -/
  checks : ∀ n ∈ (g.forward bound).1.kb.nodes,
    n.problems "node" = [] ↔ n.Bears Place.Accepts
  /-- Nodes stay valid where all tokens fit that can come to stand somewhere. -/
  fits : (∀ p e, Reaches g.kb.nodes p e → p.Accepts e) →
    ∀ n ∈ (g.forward bound).1.kb.nodes, n.problems "node" = []
  /-- Nodes stay valid where no variable stands at places of two kinds. -/
  apart : Apart g.kb.nodes → ∀ n ∈ (g.forward bound).1.kb.nodes, n.problems "node" = []

/-- **Valid nodes stay valid** under forward chaining by any number of passes,
unless a variable takes a token to a place that it does not fit. -/
theorem Engine.forward_staysValid (g : Engine) (bound : Nat)
    (hvalid : ∀ n ∈ g.kb.nodes, n.problems "node" = []) : g.StaysValid bound := by
  have hknown : ∀ n ∈ (g.forward bound).1.kb.nodes, n.Everywhere Node.Framed :=
    (g.forward_induct (fun hn hc => hc.everywhere (fun _ _ => .subst) (fun _ => rfl)
      (fun _ _ => rfl) hn) bound fun n hn => (Node.problems_eq_nil_iff.1 (hvalid n hn)).1).1
  have hreaches : ∀ n ∈ (g.forward bound).1.kb.nodes, n.Bears (Reaches g.kb.nodes) :=
    (g.forward_induct (fun hn hc => hc.reaches hn) bound fun n hn x hx => .stands hn hx).1
  have hchecks : ∀ n ∈ (g.forward bound).1.kb.nodes,
      n.problems "node" = [] ↔ n.Bears Place.Accepts :=
    fun n hn => Node.problems_eq_nil_iff.trans (and_iff_right (hknown n hn))
  have hfits : (∀ p e, Reaches g.kb.nodes p e → p.Accepts e) →
      ∀ n ∈ (g.forward bound).1.kb.nodes, n.problems "node" = [] :=
    fun hfit n hn => (hchecks n hn).2 fun x hx => hfit _ _ (hreaches n hn x hx)
  refine ⟨fun s hs n hn => ?_, hreaches, hchecks, hfits, fun hapart => hfits fun p e he => ?_⟩
  · rw [forward_of_ok hs]
    cases eq_saturate_of_forward hs
    exact KnowledgeBase.mem_nodes_of_mem_derived hn
  · obtain ⟨n, hn, hmem⟩ := List.mem_flatMap.1 (he.mem_placed hapart)
    exact (Node.problems_eq_nil_iff.1 (hvalid n hn)).2 _ hmem

/-- Siblings: what a relation says of two holds with the two exchanged. -/
def siblings : Engine where
  kb := ⟨[
    .node (.rule "mirror" (.assertion "?X" "?R" "?Y") (.assertion "?Y" "?R" "?X") none false .null),
    .node (.assertion "Ann" "sibling_of" "Bob")]⟩

/-- No variable stands at places of two kinds, and what is derived about the
siblings is valid. -/
theorem siblings_staysValid :
    (∀ n ∈ siblings.kb.nodes, n.problems "node" = []) ∧ Apart siblings.kb.nodes ∧
      ∃ s, (siblings.forward 3).2 = .ok s ∧ s.derived.length = 1 ∧
        ∀ n ∈ s.derived, n.problems "node" = [] := by
  have hvalid : ∀ n ∈ siblings.kb.nodes, n.problems "node" = [] := by decide +kernel
  have hapart : Apart siblings.kb.nodes := by decide +kernel
  have hstays := siblings.forward_staysValid 3 hvalid
  refine ⟨hvalid, hapart, siblings.kb.saturate 3, rfl, by decide +kernel, fun n hn => ?_⟩
  exact hstays.apart hapart n (hstays.derived _ rfl n hn)

/-- A household: the role that a person has becomes a relation. -/
def household : Engine where
  kb := ⟨[
    .node (.rule "holder" (.assertion "?P" "role" "?R") (.assertion "?P" "?R" "Family")
      none false .null),
    .node (.assertion "Ann" "role" "mother")]⟩

/-- The role is an object and a relation. Its text names the relation, and with
the angle brackets of a concept that is no name of a relation. -/
theorem household_misnamed :
    (∀ n ∈ household.kb.nodes, n.problems "node" = []) ∧
      ∃ s, (household.forward 1).2 = .ok s ∧ ∃ n ∈ s.derived, n.problems "node" ≠ [] :=
  ⟨by decide +kernel, household.kb.saturate 1, rfl, by decide +kernel⟩

end TripleLogic
