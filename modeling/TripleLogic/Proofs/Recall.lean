/-
TripleLogic.Proofs.Recall — what is known, and what forward chaining derives,
is proved by search.

A node unifies with itself whatever is bound, and binds nothing
(`nodes_self`). So a node unifies with every node equal to it with nothing
bound (`nodes_of_canon`), although the two may differ in payloads, in tenses
or in how a number is written, and a goal that equals a known node is a fact
to the search on any depth.

Main statement: an engine that may fall back on forward chaining proves all
that forward chaining would derive, and all that it knows but for nodes that
are no keys, on which the search is refused (`proves_known_and_derived`).
-/
import TripleLogic.Proofs.Closure
import TripleLogic.Proofs.Conjunction
import TripleLogic.Proofs.Persistence

namespace TripleLogic

/-! ## A node unifies with itself -/

namespace Unify

theorem exprs_self (e : Expr) (θ : Bindings) : exprs e e θ = some θ := by
  cases hv : (θ.resolve e).varName? with
  | none => simp [exprs, hv, Expr.same_refl]
  | some v => simp [exprs, hv]

theorem valuesAt_self (x : Option Expr) (θ : Bindings) : valuesAt x x θ = some θ := by
  cases x with
  | none => rfl
  | some e => exact exprs_self e θ

theorem attributes_self (a : Attributes) : ∀ (ks : List String) (θ : Bindings),
    attributes a a ks θ = some θ
  | [], _ => rfl
  | _ :: ks, θ =>
      Option.bind_eq_some_iff.2 ⟨θ, valuesAt_self _ θ, attributes_self a ks θ⟩

theorem statements_self (s : Statement) (θ : Bindings) : statements s s θ = some θ := by
  simp only [statements, names, exprs_self, attributes_self, Option.bind_eq_bind, Option.bind_some]

theorem statementLists_self : ∀ (ss : List Statement) (θ : Bindings),
    statementLists ss ss θ = some θ
  | [], _ => rfl
  | s :: ss, θ =>
      Option.bind_eq_some_iff.2 ⟨θ, statements_self s θ, statementLists_self ss θ⟩

theorem edges_self (e : Edge) (θ : Bindings) : edges e e θ = some θ := by
  simp only [edges, names, exprs_self, beq_self_eq_true, if_true, Option.bind_eq_bind,
    Option.bind_some]

/-- A node unifies with itself, and nothing further is bound. -/
theorem nodes_self (n : Node) : ∀ θ : Bindings, nodes n n θ = some θ := by
  have hoperand : ∀ a : Option Node, (∀ m, a = some m → ∀ θ, nodes m m θ = some θ) →
      ∀ θ, operands a a θ = some θ := by
    intro a h θ
    cases a with
    | none => rfl
    | some m => exact h m rfl θ
  induction n using Node.ind with
  | intent i => exact fun θ => (if_pos (beq_self_eq_true _)).trans (statementLists_self _ θ)
  | compound o a b iha ihb =>
      intro θ
      simp only [nodes, beq_self_eq_true, if_true, hoperand a iha, hoperand b ihb,
        Option.bind_eq_bind, Option.bind_some]
  | quantified q v a d ih => simp [nodes, ih]
  | rule i a b d x c iha ihb => simp [nodes, iha, ihb]
  | edge e => exact edges_self e

/-- Equal nodes unify with nothing bound. -/
theorem nodes_of_canon {a b : Node} (h : a.canon = b.canon) : nodes a b [] = some [] := by
  have hagree := nodes_agree (a := a) rfl h [] [] rfl
  rw [nodes_self, Option.map_some] at hagree
  obtain ⟨θ, hθ, hcanon⟩ := Option.map_eq_some_iff.1 hagree.symm
  rw [hθ, List.map_eq_nil_iff.1 hcanon]

end Unify

/-! ## Known goals -/

namespace Proof

/-- A goal that equals a known node is proved, whatever the depth, if it can
be used as a key. -/
theorem findEntry?_of_known {nodes : List Node} {n m : Node} (hm : m ∈ nodes)
    (hc : m.canon = n.canon) (hkey : n.isKey = true) (maxDepth : Nat) :
    ∃ p, findEntry? nodes maxDepth (.node n) = .ok (some p) := by
  have hunify : n.unifyWith m [] = some [] := Unify.nodes_of_canon hc.symm
  have hpath : Pattern.holds [] n = false := rfl
  obtain ⟨p, hp⟩ := search_of_fact maxDepth hpath hm hunify
  have hfind : find? nodes maxDepth n = some p := hp
  -- No key is wanted before the goal is found to be a fact.
  have hobstacle : obstacle? nodes ((maxDepth : Int) + 1).toNat [] [] n = none := by
    have hfact : (asFact? nodes n).isSome = true := by
      refine List.findSome?_isSome_iff.2 ⟨m, hm, ?_⟩
      simp [Node.unify, hunify]
    have hcomposite : n.composite? = none := Option.isNone_iff_eq_none.1 hkey
    have hfuel : ((maxDepth : Int) + 1).toNat = maxDepth + 1 := by omega
    simp [hfuel, obstacle?, hcomposite, hfact]
  refine ⟨p, ?_⟩
  simp only [ findEntry?, Entry.node?]
  split
  · rw [hfind]
  · rw [hobstacle, hfind]
    rfl

/-- A goal that is no key is refused. -/
theorem findEntry?_of_not_isKey {n : Node} (h : n.isKey = false) (nodes : List Node)
    (maxDepth : Nat) :
    ∃ d, findEntry? nodes maxDepth (.node n) = .error (.misuse (.notKey d)) := by
  obtain ⟨d, hd⟩ : ∃ d, n.composite? = some d := by
    cases hc : n.composite? with
    | none => simp [Node.isKey, hc] at h
    | some d => exact ⟨d, rfl⟩
  have hfuel : ((maxDepth : Int) + 1).toNat = maxDepth + 1 := by omega
  have hobstacle : obstacle? nodes ((maxDepth : Int) + 1).toNat [] [] n = some d := by
    simp [hfuel, obstacle?, hd]
  refine ⟨d, ?_⟩
  simp only [ findEntry?, Entry.node?, List.all_cons, h, Bool.false_and, Bool.false_eq_true, if_false,
    hobstacle]
  rfl

end Proof

namespace Engine

/-- What is known, up to equality, is proved if it can be used as a key. -/
theorem backward_of_holds {g : Engine} {n : Node} (h : g.kb.holds (.node n) = true)
    (hkey : n.isKey = true) : ∃ p, g.backward (.node n) = .ok (some p) := by
  obtain ⟨m, hm, hc⟩ := KnowledgeBase.exists_of_holds h
  exact Proof.findEntry?_of_known hm hc hkey g.settings.maxProofDepth

/-! ## Derived goals -/

/-- Forward chaining that derives something has met only keys. -/
theorem isKey_of_derived {g : Engine} {bound : Nat} {s : Saturation}
    (h : (g.forward bound).2 = .ok s) (hne : s.derived ≠ []) :
    ∀ n ∈ g.kb.nodes, n.isKey = true := by
  cases bound with
  | zero =>
      cases eq_saturate_of_forward h
      exact absurd rfl hne
  | succ bound => exact isKey_of_forward_succ h

/-- What is derived is known afterwards. -/
theorem holds_of_derived {kb : KnowledgeBase} {bound : Nat} {m n : Node}
    (hm : m ∈ (kb.saturate bound).derived) (h : n.same m = true) :
    (kb.saturate bound).kb.holds (.node n) = true := by
  have hmem : .node m ∈ (kb.saturate bound).kb.entries := by
    rw [KnowledgeBase.saturate_entries]
    exact List.mem_append_right _ (List.mem_map_of_mem hm)
  exact KnowledgeBase.holds_of_canon (KnowledgeBase.holds_of_mem_entries hmem)
    ((Node.same_iff n m).1 h).symm

/-- What forward chaining would derive, up to equality, is proved. -/
theorem proves_of_derived {g : Engine} (hsat : g.settings.proveWithSaturation = true)
    {s : Saturation} (hs : (g.forward g.settings.saturationPasses).2 = .ok s) {m n : Node}
    (hm : m ∈ s.derived) (h : n.same m = true) : g.Proves (.node n) := by
  have hkeys := isKey_of_derived hs (List.ne_nil_of_mem hm)
  have hengine := forward_of_ok hs
  cases eq_saturate_of_forward hs
  have hheld := holds_of_derived hm h
  have hkey : n.isKey = true := by
    obtain ⟨k, hk, hc⟩ := KnowledgeBase.exists_of_holds hheld
    exact Node.isKey_of_canon hc.symm (KnowledgeBase.saturate_isKey hkeys _ k hk)
  have hfind : g.backward (.node n)
      = .ok (Proof.find? g.kb.nodes g.settings.maxProofDepth n) := by
    have hall : (n :: g.kb.nodes).all Node.isKey = true :=
      List.all_eq_true.2 (List.forall_mem_cons.2 ⟨hkey, hkeys⟩)
    simp only [backward, Proof.findEntry?, Entry.node?, hall, if_true]
  cases hb : Proof.find? g.kb.nodes g.settings.maxProofDepth n with
  | some p => exact ⟨_, by rw [prove_of_found (hfind.trans (congrArg _ hb))], rfl⟩
  | none =>
      -- The search fails, so the engine chains forward and finds a fact.
      obtain ⟨p, hp⟩ := @backward_of_holds { g with kb := (g.kb.saturate _).kb } n hheld hkey
      have hafter : g.backwardAfter (g.kb.saturate g.settings.saturationPasses) (.node n)
          = .ok (some (.step p.goal .forwardChaining [p] p.substitution)) := by
        have hne : (g.kb.saturate g.settings.saturationPasses).derived.isEmpty = false := by
          simpa using List.ne_nil_of_mem hm
        simp only [backwardAfter, hne, Bool.false_eq_true, if_false]
        exact bind_eq_ok_iff.2 ⟨some p, hp, rfl⟩
      refine ⟨{ goal := .node n,
                proof := some (.step p.goal .forwardChaining [p] p.substitution) }, ?_, rfl⟩
      simp only [prove, hfind, hb, hsat, if_true, hs]
      exact bind_eq_ok_iff.2 ⟨_, rfl, bind_eq_ok_iff.2 ⟨_, hafter, rfl⟩⟩

/-- **Forward and backward reasoning agree.** What forward chaining by the
passes of the settings would derive is proved, and so is what is known, up to
equality and on any depth, if it can be used as a key. A goal that is no key
is refused. -/
theorem proves_known_and_derived (g : Engine) (hsat : g.settings.proveWithSaturation = true)
    (n : Node) :
    (∀ s, (g.forward g.settings.saturationPasses).2 = .ok s →
      (∃ m ∈ s.derived, n.same m = true) → g.Proves (.node n)) ∧
    (g.kb.holds (.node n) = true → n.isKey = true → g.Proves (.node n)) ∧
    (n.isKey = false → ∃ d, (g.prove (.node n)).2 = .error (.misuse (.notKey d))) := by
  refine ⟨?_, ?_, ?_⟩
  · rintro s hs ⟨m, hm, h⟩
    exact proves_of_derived hsat hs hm h
  · intro h hkey
    obtain ⟨p, hp⟩ := backward_of_holds h hkey
    exact ⟨_, by rw [prove_of_found hp], rfl⟩
  · intro h
    obtain ⟨d, hd⟩ := Proof.findEntry?_of_not_isKey h g.kb.nodes g.settings.maxProofDepth
    have hb : g.backward (.node n) = .error (.misuse (.notKey d)) := hd
    exact ⟨d, by simp only [prove, hb]⟩

/-- A well three deep, and a street that is not wet although rain would make
it so. There is no step to spare for proofs. -/
def dryWell : Engine :=
  .ofEntries [
    .node (.intent { kind := "!Assert", confidence := .num (.int 1), statements :=
      [{ subject := .concept "well", relation := { name := "depth", tense := .str "past" }
         object := .literal (.num (.int 3)) }] }),
    .node (Node.implies (.assertion "sky" "is" "raining") (.assertion "street" "is" "wet")),
    .node (Node.negate (.assertion "street" "is" "wet"))] { maxProofDepth := 0 }

/-- The depth of the well as a floating-point number. -/
def depthOfWell : Node :=
  .intent { kind := "!Assert", statements :=
    [{ subject := .concept "well", relation := { name := "depth" }
       object := .literal (.num (.float (Binary64.ofRatio false 3 1))) }] }

/-- The depth of the well is proved in another spelling than the known one, and
that it does not rain is proved too, which forward chaining derives. -/
theorem dryWell_proves :
    dryWell.settings.proveWithSaturation = true ∧
      (∃ s, (dryWell.forward dryWell.settings.saturationPasses).2 = .ok s ∧ s.derived.length = 1 ∧
        ∀ n ∈ s.derived, dryWell.Proves (.node n)) ∧
      dryWell.kb.holds (.node depthOfWell) = true ∧ dryWell.Proves (.node depthOfWell) := by
  have hsat : dryWell.settings.proveWithSaturation = true := rfl
  have hkeys : ∀ n ∈ dryWell.kb.nodes, n.isKey = true := by decide +kernel
  have hrun := forward_of_isKey hkeys dryWell.settings.saturationPasses
  have hderived : (dryWell.kb.saturate dryWell.settings.saturationPasses).derived.length = 1 := by
    decide +kernel
  have hheld : dryWell.kb.holds (.node depthOfWell) = true := by decide +kernel
  refine ⟨hsat, ⟨_, hrun, hderived, fun n hn => ?_⟩, hheld, ?_⟩
  · exact (dryWell.proves_known_and_derived hsat n).1 _ hrun ⟨n, hn, (Node.same_iff n n).2 rfl⟩
  · exact (dryWell.proves_known_and_derived hsat depthOfWell).2.1 hheld (by decide +kernel)

/-- A timer that shows a list of numbers. -/
def clock : Engine :=
  .ofEntries [.node (.intent { kind := "!Assert", statements :=
    [{ subject := .concept "timer", relation := { name := "shows" }
       object := .composite (.list [.int 6, .int 30]) }] })] {}

/-- What the timer shows is known, and not proved. -/
theorem clock_refused :
    clock.settings.proveWithSaturation = true ∧
      ∃ n ∈ clock.kb.nodes, ¬ clock.Proves (.node n) := by
  decide +kernel

end Engine

end TripleLogic
