/-
TripleLogic.Proofs.Conjunction — conjunctions that are proved operand by
operand.

The operands of a conjunction are proved one by one, and the values found for
the variables of one operand do not bind the other. A separated proof is
still good for one assignment of values to the variables of both operands
(`search_jointlyDerivable`). For two atoms that have no instance in common,
facts can be found on which that fails if the atoms share a variable, and
there are none if they share none (`jointlyDerivable_iff`).
-/
import TripleLogic.Proofs.Search

namespace TripleLogic.Proof

/-! ## Conjunctions -/

/-- The operands of a conjunction with a separated proof by introduction are
derivable under one assignment. -/
theorem search_jointlyDerivable {nodes : List Node} (hvars : ∀ n ∈ nodes, n.VarsInTerms)
    {fuel : Nat} {path hypotheses : List Node} {a b : Node} {p : Proof}
    (hh : ∀ n ∈ hypotheses, n.VarsInTerms) (hab : (a.conjoin b).VarsInTerms)
    (h : search nodes fuel path hypotheses (a.conjoin b) = some p)
    (hvia : p.justification = .conjunctionIntroduction) (hp : p.Separated) :
    JointlyDerivable nodes hypotheses a b := by
  cases fuel with
  | zero => cases h
  | succ fuel =>
      obtain ⟨ha, hb⟩ := Node.varsInTerms_compound.1 hab
      cases (search_found h).2 with
      | fact => cases hvia
      | way hw => exact absurd hvia (via_ne_conjunctionIntroduction hw)
      | implication hg => cases hg
      | conjunction hg hq hr =>
          cases hg
          exact .of_apart hp.1 (search_derivable hvars hq hp.2.1 hh (ha a rfl))
            (search_derivable hvars hr hp.2.2.1 hh (hb b rfl))

/-! ## Conjunctions of atoms over facts -/

/-- Nodes that are no compounds and no rules offer no ways. -/
theorem ways_eq_nil {facts : List Node} (h : ∀ n ∈ facts, n.isAtom = true) : ways facts = [] := by
  refine List.flatMap_eq_nil_iff.2 fun n hn => ?_
  have ha := h n hn
  cases n with
  | compound => cases ha
  | rule => cases ha
  | _ => rfl

/-- An atom that no way leads to is proved as a fact. -/
theorem search_atom {nodes path hypotheses : List Node} {fuel : Nat} {goal : Node} {p : Proof}
    (hways : ∀ w ∈ ways nodes, w.conclusion.unifyWith goal [] = none) (hg : goal.isAtom = true)
    (h : search nodes fuel path hypotheses goal = some p) : p.Separated := by
  cases fuel with
  | zero => cases h
  | succ fuel =>
      cases (search_found h).2 with
      | fact => exact ⟨trivial, trivial⟩
      | way hw hθ => cases (hways _ hw).symm.trans hθ
      | conjunction hgoal => cases hgoal ▸ hg
      | implication hgoal => cases hgoal ▸ hg

/-- Over facts, a proof of a conjunction of atoms is separated if the atoms
share no variable. -/
theorem search_atoms {facts path : List Node} {fuel : Nat} {a b : Node} {p : Proof}
    (hf : ∀ n ∈ facts, n.isAtom = true) (ha : a.isAtom = true) (hb : b.isAtom = true)
    (hab : ∀ v ∈ a.vars, v ∉ b.vars) (h : search facts fuel path [] (a.conjoin b) = some p) :
    p.Separated := by
  have hnone := ways_eq_nil hf
  cases fuel with
  | zero => cases h
  | succ fuel =>
      cases (search_found h).2 with
      | fact => exact ⟨trivial, trivial⟩
      | way hw => cases hnone ▸ hw
      | conjunction hg hq hr =>
          cases hg
          have hways : ∀ goal, ∀ w ∈ ways facts, w.conclusion.unifyWith goal [] = none := by
            intro goal w hw
            cases hnone ▸ hw
          exact ⟨hab, search_atom (hways a) ha hq, search_atom (hways b) hb hr, trivial⟩
      | implication hg => cases hg

/-- Over facts, only an instance of a fact is a derivable atom. -/
theorem exists_of_derivable_atom {facts : List Node} {g : Node}
    (hf : ∀ n ∈ facts, n.isAtom = true ∧ n.Ground) (hg : g.isAtom = true)
    (h : Derivable facts [] g) : ∃ k ∈ facts, Unify.nodes g k [] = some [] := by
  cases h with
  | @fact _ k _ σ hk h =>
      rw [Node.inst_of_ground (hf k hk).2] at h
      exact ⟨k, hk, h⟩
  | way _ hw =>
      rw [ways_eq_nil fun n hn => (hf n hn).1] at hw
      cases hw
  | conjunction => cases hg
  | implication => cases hg

/-- If the only fact that an instance of an atom unifies with is a further
instance, the two have equal values. -/
theorem same_value_of_derivable {facts : List Node} {a : Node} {ρ : Assignment} (σ : Assignment)
    (hf : ∀ n ∈ facts, n.isAtom = true ∧ n.Ground) (ha : a.isAtom = true) (hav : a.VarsInTerms)
    (h : Derivable facts [] (a.inst ρ))
    (hone : ∀ k ∈ facts, Unify.nodes (a.inst ρ) k [] = some [] → k = a.inst σ) :
    ∀ v ∈ a.vars, (ρ.value v).same (σ.value v) = true := by
  obtain ⟨k, hk, hu⟩ := exists_of_derivable_atom hf (by rw [Node.isAtom_inst, ha]) h
  rw [hone k hk hu] at hu
  exact Unify.same_value_of_unify hav (Node.ground_inst hav σ) hu
    (Unify.nodes_inst_of_same hav hav ((Node.same_iff a a).2 rfl) σ)

/-- A goal that unifies with a fact is found. -/
theorem search_of_fact {facts path : List Node} (fuel : Nat) {k goal : Node} {θ : Bindings}
    (hpath : Pattern.holds path goal = false) (hk : k ∈ facts)
    (h : goal.unifyWith k [] = some θ) : ∃ p, search facts (fuel + 1) path [] goal = some p := by
  have hfact : (asFact? facts goal).isSome = true := by
    refine List.findSome?_isSome_iff.2 ⟨k, hk, ?_⟩
    simp [Node.unify, h]
  obtain ⟨p, hp⟩ := Option.isSome_iff_exists.1 hfact
  exact ⟨p, by simp [search, hpath, hp]⟩

/-- Over facts, a conjunction of atoms is proved by introduction as soon as
each of them unifies with a fact. -/
theorem find?_conjoin {facts : List Node} (hf : ∀ n ∈ facts, n.isAtom = true) {a b k l : Node}
    (ha : a.isAtom = true) (hb : b.isAtom = true) (hk : k ∈ facts) (hl : l ∈ facts)
    {θ η : Bindings} (hθ : a.unifyWith k [] = some θ) (hη : b.unifyWith l [] = some η) :
    ∃ p, find? facts 1 (a.conjoin b) = some p ∧ p.justification = .conjunctionIntroduction := by
  -- An atom is neither on the branch, which holds the conjunction only, nor
  -- does it unify with the conjunction.
  have hpath : ∀ n : Node, n.isAtom = true → Pattern.holds [a.conjoin b] n = false := by
    intro n hn
    cases n with
    | compound => cases hn
    | rule => cases hn
    | _ => rfl
  have hnone : asFact? facts (a.conjoin b) = none := by
    refine List.findSome?_eq_none_iff.2 fun n hn => ?_
    have hatom := hf n hn
    cases n with
    | compound => cases hatom
    | rule => cases hatom
    | _ => rfl
  obtain ⟨p, hp⟩ := search_of_fact 0 (hpath a ha) hk hθ
  obtain ⟨q, hq⟩ := search_of_fact 0 (hpath b hb) hl hη
  have hform : tryForm (search facts 1 [a.conjoin b]) [] (a.conjoin b)
      = some (.step (a.conjoin b) .conjunctionIntroduction [p, q] []) :=
    Option.bind_eq_some_iff.2 ⟨p, hp, Option.bind_eq_some_iff.2 ⟨q, hq, rfl⟩⟩
  refine ⟨.step (a.conjoin b) .conjunctionIntroduction [p, q] [], ?_, rfl⟩
  show search facts (1 + 1) [] [] (a.conjoin b) = _
  rw [search]
  simp [Pattern.holds, hnone, ways_eq_nil hf, hform]

/-- No instance of one node unifies with an instance of the other with nothing
to bind. -/
def NoCommonInstance (a b : Node) : Prop :=
  ∀ σ τ : Assignment, Unify.nodes (a.inst σ) (b.inst τ) [] ≠ some [] ∧
    Unify.nodes (b.inst τ) (a.inst σ) [] ≠ some []

/-- Two atoms with no instance in common are derivable together from whatever
facts their conjunction is proved from just when they share no variable. -/
theorem jointlyDerivable_iff {a b : Node} (ha : a.isAtom = true) (hb : b.isAtom = true)
    (hab : (a.conjoin b).VarsInTerms) (hno : NoCommonInstance a b) :
    (∀ (facts : List Node) (maxDepth : Int) (p : Proof),
        (∀ n ∈ facts, n.isAtom = true ∧ n.Ground) → find? facts maxDepth (a.conjoin b) = some p →
        p.justification = .conjunctionIntroduction → JointlyDerivable facts [] a b) ↔
      ∀ v ∈ a.vars, v ∉ b.vars := by
  obtain ⟨hav, hbv⟩ : a.VarsInTerms ∧ b.VarsInTerms := by
    obtain ⟨ha, hb⟩ := Node.varsInTerms_compound.1 hab
    exact ⟨ha a rfl, hb b rfl⟩
  constructor
  · intro h v hva hvb
    -- Two facts that differ on the shared variable.
    let σ := Assignment.constant "a" rfl
    let τ := Assignment.constant "b" rfl
    have hfacts : ∀ n ∈ [a.inst σ, b.inst τ], n.isAtom = true ∧ n.Ground := by
      simp [Node.isAtom_inst, ha, hb, Node.ground_inst hav, Node.ground_inst hbv]
    obtain ⟨θ, hθ⟩ := Node.unifyWith_inst σ hav
    obtain ⟨η, hη⟩ := Node.unifyWith_inst τ hbv
    obtain ⟨p, hp, hvia⟩ := find?_conjoin (fun n hn => (hfacts n hn).1) ha hb
      (by simp) (by simp) hθ hη
    obtain ⟨ρ, hρa, hρb⟩ := h [a.inst σ, b.inst τ] 1 p hfacts hp hvia
    have hσ : (ρ.value v).same (.concept "a") = true := by
      refine same_value_of_derivable σ hfacts ha hav hρa (fun k hk hu => ?_) v hva
      simp only [List.mem_cons, List.not_mem_nil, or_false] at hk
      exact hk.resolve_right fun hkb => (hno ρ τ).1 (hkb ▸ hu)
    have hτ : (ρ.value v).same (.concept "b") = true := by
      refine same_value_of_derivable τ hfacts hb hbv hρb (fun k hk hu => ?_) v hvb
      simp only [List.mem_cons, List.not_mem_nil, or_false] at hk
      exact hk.resolve_left fun hka => (hno σ ρ).2 (hka ▸ hu)
    rw [Expr.same_iff] at hσ hτ
    have heq := hσ.symm.trans hτ
    simp [Expr.canon] at heq
  · intro hapart facts maxDepth p hfacts hp hvia
    have hatoms : ∀ n ∈ facts, n.isAtom = true := fun n hn => (hfacts n hn).1
    exact search_jointlyDerivable (fun n hn => (hfacts n hn).2.varsInTerms) nofun hab hp hvia
      (search_atoms hatoms ha hb hapart hp)

/-- **Conjunctions under one assignment.** The operands of a conjunction that is
proved by introduction are derivable under one assignment if the proof is
separated. Two atoms with no instance in common have this property over all
facts just when they share no variable. -/
theorem conjunction_jointly_derivable (a b : Node) (hab : (a.conjoin b).VarsInTerms) :
    (∀ (nodes path hypotheses : List Node) (fuel : Nat) (p : Proof),
      (∀ n ∈ nodes, n.VarsInTerms) → (∀ n ∈ hypotheses, n.VarsInTerms) →
      search nodes fuel path hypotheses (a.conjoin b) = some p →
      p.justification = .conjunctionIntroduction → p.Separated →
      JointlyDerivable nodes hypotheses a b) ∧
    (a.isAtom = true → b.isAtom = true → NoCommonInstance a b →
      ((∀ (facts : List Node) (maxDepth : Int) (p : Proof),
          (∀ n ∈ facts, n.isAtom = true ∧ n.Ground) →
          find? facts maxDepth (a.conjoin b) = some p →
          p.justification = .conjunctionIntroduction → JointlyDerivable facts [] a b) ↔
        ∀ v ∈ a.vars, v ∉ b.vars)) := by
  refine ⟨?_, fun ha hb hno => jointlyDerivable_iff ha hb hab hno⟩
  intro nodes path hypotheses fuel p hvars hh h hvia hp
  exact search_jointlyDerivable hvars hh hab h hvia hp

/-- Ann has a child and somebody has Dan as a child, under one assignment,
since these share no variable; but if the child is to like something, facts
can disagree about the child. -/
theorem apart_jointly_derivable :
    (∃ p, find? [.assertion "Ann" "parent_of" "Bob", .assertion "Cid" "parent_of" "Dan"] 5
        (Node.conjoin (.assertion "Ann" "parent_of" "?Y") (.assertion "?X" "parent_of" "Dan"))
          = some p ∧ p.justification = .conjunctionIntroduction ∧ p.Separated) ∧
      JointlyDerivable [.assertion "Ann" "parent_of" "Bob", .assertion "Cid" "parent_of" "Dan"] []
        (.assertion "Ann" "parent_of" "?Y") (.assertion "?X" "parent_of" "Dan") ∧
      ¬ ∀ (facts : List Node) (maxDepth : Int) (p : Proof),
        (∀ n ∈ facts, n.isAtom = true ∧ n.Ground) →
        find? facts maxDepth (Node.conjoin (.assertion "Ann" "parent_of" "?Y")
          (.assertion "?Y" "likes" "?Z")) = some p →
        p.justification = .conjunctionIntroduction →
        JointlyDerivable facts [] (.assertion "Ann" "parent_of" "?Y")
          (.assertion "?Y" "likes" "?Z") := by
  have hrun : (find? [.assertion "Ann" "parent_of" "Bob", .assertion "Cid" "parent_of" "Dan"] 5
      (Node.conjoin (.assertion "Ann" "parent_of" "?Y") (.assertion "?X" "parent_of" "Dan"))).map
        justification = some .conjunctionIntroduction := by decide +kernel
  obtain ⟨p, hp, hvia⟩ := Option.map_eq_some_iff.1 hrun
  have hsep : p.Separated :=
    search_atoms (by decide +kernel) rfl rfl (by decide +kernel) hp
  refine ⟨⟨p, hp, hvia, hsep⟩, ?_, ?_⟩
  · exact (conjunction_jointly_derivable _ _ (by decide +kernel)).1 _ _ _ _ p
      (by decide +kernel) nofun hp hvia hsep
  · have hno : NoCommonInstance (.assertion "Ann" "parent_of" "?Y")
        (.assertion "?Y" "likes" "?Z") := by
      intro σ τ
      refine ⟨fun h => ?_, fun h => ?_⟩
      · obtain ⟨-, hr, -⟩ := Unify.nodes_assertion_eq_nil rfl rfl h
        simp at hr
      · obtain ⟨-, hr, -⟩ := Unify.nodes_assertion_eq_nil rfl rfl h
        simp at hr
    rw [(conjunction_jointly_derivable _ _ (by decide +kernel)).2 rfl rfl hno]
    decide +kernel

/-- Ann is a parent of Bob, and Cid of Dan; a parent of a parent is a
grandparent. -/
def strangers : List Node := [
  .assertion "Ann" "parent_of" "Bob",
  .assertion "Cid" "parent_of" "Dan",
  .rule "grandparent"
    (Node.conjoin (.assertion "?X" "parent_of" "?Y") (.assertion "?Y" "parent_of" "?Z"))
    (.assertion "?X" "grandparent_of" "?Z") none false .null]

/-- The strangers offer no way to a parent. -/
theorem strangers_ways {s o : String} {w : Way} (hw : w ∈ ways strangers) (σ τ : Assignment) :
    Unify.nodes (w.conclusion.inst σ) ((Node.assertion s "parent_of" o).inst τ) [] ≠ some [] := by
  simp only [ways, strangers, List.flatMap_cons, List.flatMap_nil] at hw
  cases List.mem_singleton.1 hw
  intro h
  obtain ⟨-, hr, -⟩ := Unify.nodes_assertion_eq_nil rfl rfl h
  simp at hr

/-- What is derivable of parents from the strangers is one of the two facts. -/
theorem strangers_derivable {s o : String} {σ : Assignment}
    (h : Derivable strangers [] ((Node.assertion s "parent_of" o).inst σ)) :
    (((Expr.concept s).inst σ).same (.concept "Ann") = true ∧
      ((Expr.concept o).inst σ).same (.concept "Bob") = true) ∨
    (((Expr.concept s).inst σ).same (.concept "Cid") = true ∧
      ((Expr.concept o).inst σ).same (.concept "Dan") = true) := by
  generalize hg : (Node.assertion s "parent_of" o).inst σ = g at h
  cases h with
  | @fact _ k _ τ hk h =>
      subst hg
      simp only [strangers, List.nil_append, List.mem_cons, List.not_mem_nil, or_false] at hk
      rcases hk with rfl | rfl | rfl
      · obtain ⟨hs, -, ho⟩ := Unify.nodes_assertion_eq_nil rfl rfl h
        exact Or.inl ⟨hs, ho⟩
      · obtain ⟨hs, -, ho⟩ := Unify.nodes_assertion_eq_nil rfl rfl h
        exact Or.inr ⟨hs, ho⟩
      · cases h
  | way τ hw h _ =>
      subst hg
      exact absurd h (strangers_ways hw τ σ)
  | conjunction => cases hg
  | implication => cases hg

/-- The search proves of parents only what is derivable. -/
theorem strangers_derivable_of_find? {s o : String} {σ : Assignment} {maxDepth : Int} {p : Proof}
    (h : find? strangers maxDepth ((Node.assertion s "parent_of" o).inst σ) = some p) :
    Derivable strangers [] ((Node.assertion s "parent_of" o).inst σ) := by
  have hvars : ∀ n ∈ strangers, n.VarsInTerms := by decide +kernel
  have hg : ((Node.assertion s "parent_of" o).inst σ).Ground :=
    Node.ground_inst (Node.varsInTerms_assertion s o rfl) σ
  have hways : ∀ w ∈ ways strangers,
      w.conclusion.unifyWith ((Node.assertion s "parent_of" o).inst σ) [] = none := by
    intro w hw
    refine Node.unifyWith_eq_none (ways_supports hvars hw).2.1 hg.varsInTerms fun τ => ?_
    rw [Node.inst_of_ground hg]
    exact strangers_ways hw τ σ
  obtain ⟨τ, hτ⟩ := search_derivable hvars h (search_atom hways rfl h) nofun hg.varsInTerms
  rwa [Node.inst_of_ground hg] at hτ

/-- Ann is proved to be a grandparent of Dan, from premises that are proved by
conjunction introduction; but no value of the shared variable makes both
premises derivable, and the search itself proves both for none. -/
theorem strangers_grandparent :
    (∃ p, find? strangers 20 (.assertion "Ann" "grandparent_of" "Dan") = some p ∧
      p.justifications = ["grandparent", "conjunction-introduction", "fact", "fact"]) ∧
    (∃ p, find? strangers 20 (Node.conjoin (.assertion "Ann" "parent_of" "?Y")
      (.assertion "?Y" "parent_of" "Dan")) = some p ∧
      p.justification = .conjunctionIntroduction) ∧
    ¬ JointlyDerivable strangers [] (.assertion "Ann" "parent_of" "?Y")
      (.assertion "?Y" "parent_of" "Dan") ∧
    ∀ (σ : Assignment) (maxDepth : Int) (p q : Proof),
      find? strangers maxDepth ((Node.assertion "Ann" "parent_of" "?Y").inst σ) = some p →
      find? strangers maxDepth ((Node.assertion "?Y" "parent_of" "Dan").inst σ) ≠ some q := by
  have hone : ∀ σ : Assignment,
      Derivable strangers [] ((Node.assertion "Ann" "parent_of" "?Y").inst σ) →
      ¬ Derivable strangers [] ((Node.assertion "?Y" "parent_of" "Dan").inst σ) := by
    intro σ h₁ h₂
    rcases strangers_derivable h₁ with ⟨-, hBob⟩ | ⟨hAnn, -⟩
    · rcases strangers_derivable h₂ with ⟨-, hDan⟩ | ⟨hCid, -⟩
      · exact absurd hDan Bool.false_ne_true
      · rw [Expr.same_iff] at hBob hCid
        have heq := hBob.symm.trans hCid
        simp [Expr.canon] at heq
    · exact absurd hAnn Bool.false_ne_true
  refine ⟨?_, ?_, ?_, ?_⟩
  · exact Option.map_eq_some_iff.1 (by decide +kernel)
  · exact Option.map_eq_some_iff.1 (by decide +kernel)
  · rintro ⟨σ, h₁, h₂⟩
    exact hone σ h₁ h₂
  · intro σ maxDepth p q hp hq
    exact hone σ (strangers_derivable_of_find? hp) (strangers_derivable_of_find? hq)

end TripleLogic.Proof
