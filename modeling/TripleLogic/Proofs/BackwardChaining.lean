/-
TripleLogic.Proofs.BackwardChaining — a proof of a ground goal proves it.

If no implication and no direction of a rule has variables in its antecedent
that its consequent lacks, all goals below a ground one are ground, and the
proofs of the search are derivations, whose conclusions are true where the
known nodes hold. That takes in proofs that assume antecedents and rules that
are used against their direction.
-/
import TripleLogic.Proofs.Search

namespace TripleLogic

namespace Proof

/-- A search that is not refused gives what is found. -/
theorem find?_of_findEntry? {nodes : List Node} {maxDepth : Int} {goal : Node}
    {r : Option Proof} (h : findEntry? nodes maxDepth (.node goal) = .ok r) :
    find? nodes maxDepth goal = r := by
  simp only [ findEntry?, Entry.node?] at h
  split at h
  · exact Except.ok.inj h
  · cases hc : assertNoComposite (obstacle? nodes (maxDepth + 1).toNat [] [] goal) with
    | error e =>
        rw [hc] at h
        cases h
    | ok u =>
        rw [hc] at h
        exact Except.ok.inj h

/-- **Soundness of backward chaining.** A ground goal that is proved is true
in every interpretation in which the nodes hold, if no implication or
direction of a rule has variables in its antecedent only. -/
theorem findEntry?_sound (nodes : List Node) (maxDepth : Int) (goal : Node) (p : Proof)
    (hp : findEntry? nodes maxDepth (.node goal) = .ok (some p))
    (hvars : ∀ n ∈ nodes, n.VarsInTerms)
    (hways : ∀ w ∈ ways nodes, ∀ v ∈ w.premise.vars, v ∈ w.conclusion.vars)
    (hg : goal.Ground) (I : Interpretation) (hI : ∀ n ∈ nodes, I.Holds n) : I.Models goal := by
  have hfind := find?_of_findEntry? hp
  have hsep := search_separated hvars hways hfind hg
  obtain ⟨σ, hσ⟩ := search_derivable hvars hfind hsep nofun hg.varsInTerms
  rw [Node.inst_of_ground hg] at hσ
  exact hσ.models hvars hI nofun hg

/-- A parent, a rule for ancestors, and a bidirectional rule for descendants. -/
def lineage : List Node := [
  .assertion "Ann" "parent_of" "Bob",
  .rule "ancestor" (.assertion "?X" "parent_of" "?Y") (.assertion "?X" "ancestor_of" "?Y")
    none false .null,
  .rule "descendant" (.assertion "?X" "descendant_of" "?Y") (.assertion "?Y" "ancestor_of" "?X")
    none true .null]

/-- If Ann is rich, then Bob descends from Ann and Ann is rich. -/
def inheritance : Node :=
  Node.implies (.assertion "Ann" "is" "rich")
    (Node.conjoin (.assertion "Bob" "descendant_of" "Ann") (.assertion "Ann" "is" "rich"))

theorem lineage_holds : ∀ n ∈ lineage, Interpretation.assertions.Holds n := by
  intro n hn σ
  simp only [lineage, List.mem_cons, List.not_mem_nil, or_false] at hn
  rcases hn with rfl | rfl | rfl
  · rfl
  · exact ⟨fun _ => rfl, fun h => Bool.noConfusion h⟩
  · exact ⟨fun _ => rfl, fun _ _ => rfl⟩

/-- The inheritance is proved by assuming its antecedent and by using a rule
against its direction, and it is true wherever the lineage holds. -/
theorem lineage_proves_inheritance :
    (∀ n ∈ lineage, n.VarsInTerms) ∧
      (∀ w ∈ ways lineage, ∀ v ∈ w.premise.vars, v ∈ w.conclusion.vars) ∧
      inheritance.Ground ∧ (∀ n ∈ lineage, Interpretation.assertions.Holds n) ∧
      ∃ p, findEntry? lineage 20 (.node inheritance) = .ok (some p) ∧
        p.justifications = ["implication-introduction", "conjunction-introduction", "descendant",
          "ancestor", "fact", "fact"] ∧
        ∀ I : Interpretation, (∀ n ∈ lineage, I.Holds n) → I.Models inheritance := by
  have hvars : ∀ n ∈ lineage, n.VarsInTerms := by decide +kernel
  have hways : ∀ w ∈ ways lineage, ∀ v ∈ w.premise.vars, v ∈ w.conclusion.vars := by
    decide +kernel
  have hg : inheritance.Ground := by decide +kernel
  have hrun : (find? lineage 20 inheritance).map justifications
      = some ["implication-introduction", "conjunction-introduction", "descendant", "ancestor",
        "fact", "fact"] := by decide +kernel
  obtain ⟨p, hp, hj⟩ := Option.map_eq_some_iff.1 hrun
  have hentry : findEntry? lineage 20 (.node inheritance) = .ok (some p) := by
    rw [← hp]
    rfl
  refine ⟨hvars, hways, hg, lineage_holds, p, hentry, hj, fun I hI => ?_⟩
  exact findEntry?_sound lineage 20 inheritance p hentry hvars hways hg I hI

end Proof

end TripleLogic
