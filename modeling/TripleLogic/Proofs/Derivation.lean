/-
TripleLogic.Proofs.Derivation — what can be proved of ground nodes.

A ground node is derivable from known nodes and hypotheses if it is an
instance of one of them, if it is an instance of what a known implication or
rule concludes and the same instance of the premise is derivable, if it is a
conjunction of derivable nodes, or if it is an implication whose consequent
is derivable under its antecedent as a further hypothesis. An instance is
taken of a whole implication or rule at once, so one variable stands for one
value in all places.

Derivable nodes are true where what they are derived from holds
(`Derivable.models`).
-/
import TripleLogic.Proof.Search
import TripleLogic.Proofs.Interpretation

namespace TripleLogic

/-- A ground node can be proved from known nodes and hypotheses. -/
inductive Derivable (nodes : List Node) : (hypotheses : List Node) → Node → Prop
  | fact {hypotheses : List Node} {k g : Node} (σ : Assignment) (hk : k ∈ hypotheses ++ nodes)
      (h : Unify.nodes g (k.inst σ) [] = some []) : Derivable nodes hypotheses g
  | way {hypotheses : List Node} {w : Proof.Way} {g : Node} (σ : Assignment)
      (hw : w ∈ Proof.ways nodes) (h : Unify.nodes (w.conclusion.inst σ) g [] = some [])
      (hp : Derivable nodes hypotheses (w.premise.inst σ)) : Derivable nodes hypotheses g
  | conjunction {hypotheses : List Node} {a b : Node} (ha : Derivable nodes hypotheses a)
      (hb : Derivable nodes hypotheses b) : Derivable nodes hypotheses (a.conjoin b)
  | implication {hypotheses : List Node} {a b : Node}
      (hb : Derivable nodes (hypotheses ++ [a]) b) : Derivable nodes hypotheses (a.implies b)

/-- One assignment of values makes both nodes derivable. -/
def JointlyDerivable (nodes hypotheses : List Node) (a b : Node) : Prop :=
  ∃ σ : Assignment, Derivable nodes hypotheses (a.inst σ) ∧ Derivable nodes hypotheses (b.inst σ)

/-! ## Nodes that share no variables -/

/-- The assignment that agrees with the first one on the given variables and
with the second one on all others. -/
def Assignment.glue (vs : List String) (σ τ : Assignment) : Assignment where
  value v := if v ∈ vs then σ.value v else τ.value v
  varName?_value v := by
    split
    · exact σ.varName?_value v
    · exact τ.varName?_value v

/-- Nodes that share no variables are derivable together if each of them has a
derivable instance. -/
theorem JointlyDerivable.of_apart {nodes hypotheses : List Node} {a b : Node}
    (h : ∀ v ∈ a.vars, v ∉ b.vars)
    (ha : ∃ σ : Assignment, Derivable nodes hypotheses (a.inst σ))
    (hb : ∃ σ : Assignment, Derivable nodes hypotheses (b.inst σ)) :
    JointlyDerivable nodes hypotheses a b := by
  obtain ⟨σ, hσ⟩ := ha
  obtain ⟨τ, hτ⟩ := hb
  have haσ : a.inst (.glue a.vars σ τ) = a.inst σ := Node.inst_congr fun v hv => if_pos hv
  have hbτ : b.inst (.glue a.vars σ τ) = b.inst τ :=
    Node.inst_congr fun v hv => if_neg fun hva => h v hva hv
  exact ⟨.glue a.vars σ τ, haσ ▸ hσ, hbτ ▸ hτ⟩

/-! ## Ways -/

namespace Proof

/-- A way comes from an implication or from a direction of a rule. -/
theorem waysOf_cases {n : Node} {w : Way} (h : w ∈ waysOf n) :
    (n = w.premise.implies w.conclusion ∧ w.via = .modusPonens) ∨
    ((w.premise, w.conclusion) ∈ Pattern.directions n ∧ ∃ id, w.via = .rule id) := by
  unfold waysOf at h
  split at h
  · next a b =>
      cases List.mem_singleton.1 h
      exact Or.inl ⟨rfl, rfl⟩
  · next id a b d x c =>
      obtain ⟨p, hp, rfl⟩ := List.mem_map.1 h
      exact Or.inr ⟨hp, id, rfl⟩
  · cases h

/-- A way leads between nodes whose variables are subjects and objects, and
where the known nodes hold it leads from what is true to what is true. -/
theorem ways_supports {nodes : List Node} (hvars : ∀ n ∈ nodes, n.VarsInTerms) {w : Way}
    (hw : w ∈ ways nodes) :
    w.premise.VarsInTerms ∧ w.conclusion.VarsInTerms ∧
      ∀ (I : Interpretation), (∀ n ∈ nodes, I.Holds n) → ∀ σ : Assignment,
        I.Models (w.premise.inst σ) → I.Models (w.conclusion.inst σ) := by
  obtain ⟨n, hn, hw⟩ := List.mem_flatMap.1 hw
  rcases waysOf_cases hw with ⟨rfl, -⟩ | ⟨hd, -⟩
  · have hv := Node.varsInTerms_compound.1 (hvars _ hn)
    exact ⟨hv.1 _ rfl, hv.2 _ rfl, fun I hI σ => hI _ hn σ⟩
  · obtain ⟨hp, hc, hm⟩ := Interpretation.models_direction hd (hvars n hn)
    exact ⟨hp, hc, fun I hI σ => hm I σ (hI n hn σ)⟩

/-- No way goes by the name of an introduction. -/
theorem via_ne_conjunctionIntroduction {nodes : List Node} {w : Way} (hw : w ∈ ways nodes) :
    w.via ≠ .conjunctionIntroduction := by
  obtain ⟨n, -, hw⟩ := List.mem_flatMap.1 hw
  rcases waysOf_cases hw with ⟨-, h⟩ | ⟨-, id, h⟩ <;> simp [h]

end Proof

/-! ## Soundness -/

/-- A derivable node is true where the known nodes and the hypotheses hold. -/
theorem Derivable.models {nodes : List Node} (hvars : ∀ n ∈ nodes, n.VarsInTerms)
    {I : Interpretation} (hI : ∀ n ∈ nodes, I.Holds n) {hypotheses : List Node} {g : Node}
    (h : Derivable nodes hypotheses g) (hh : ∀ n ∈ hypotheses, I.Supports n) (hg : g.Ground) :
    I.Models g := by
  induction h with
  | @fact hypotheses k g σ hk h =>
      have hs : I.Supports k := by
        rcases List.mem_append.1 hk with hk | hk
        · exact hh k hk
        · exact ⟨hvars k hk, hI k hk⟩
      exact (I.models_congr hg (Node.ground_inst hs.vars σ) h).2 (hs.holds σ)
  | way σ hw h _ ih =>
      obtain ⟨hp, hc, hm⟩ := Proof.ways_supports hvars hw
      have hpσ := ih hh (Node.ground_inst hp σ)
      exact (I.models_congr (Node.ground_inst hc σ) hg h).1 (hm I hI σ hpσ)
  | conjunction _ _ iha ihb =>
      obtain ⟨ha, hb⟩ := Node.ground_compound.1 hg
      exact ⟨iha hh (ha _ rfl), ihb hh (hb _ rfl)⟩
  | @implication hypotheses a b _ ih =>
      obtain ⟨ha, hb⟩ := Node.ground_compound.1 hg
      intro haI
      -- The antecedent is ground, so it holds as soon as it is true.
      have hs : I.Supports a :=
        ⟨(ha a rfl).varsInTerms, (Interpretation.holds_iff_models (ha a rfl)
          (Assignment.constant "a" rfl)).2 haI⟩
      refine ih (fun n hn => ?_) (hb b rfl)
      rcases List.mem_append.1 hn with hn | hn
      · exact hh n hn
      · rw [List.mem_singleton.1 hn]
        exact hs

end TripleLogic
