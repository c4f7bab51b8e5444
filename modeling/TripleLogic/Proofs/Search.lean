/-
TripleLogic.Proofs.Search — what the search for proofs finds.

A search that succeeds ends in one of four ways (`search_found`): with a
fact, a way, or one of the two introductions. The operands of a conjunction
are proved apart from each other, and what is found for one of them is not
passed on to the other; likewise a hypothesis with variables may be used for
several values of them. A proof is separated when neither of this can do
harm: operands of conjunctions share no variables, and the antecedents that
are assumed are ground.

Main statements: a goal with a separated proof has a derivable instance
(`search_derivable`), and proofs of ground goals are separated if no way has
variables in its premise that its conclusion lacks (`search_separated`).
-/
import TripleLogic.Proofs.Derivation

namespace TripleLogic.Proof

/-! ## One step of the search -/

/-- What a search can find for a goal, given what it finds for other goals. -/
inductive Found (nodes hypotheses : List Node) (goal : Node)
    (prove : (hypotheses : List Node) → Node → Option Proof) : Proof → Prop
  | fact {k : Node} {θ : Bindings} (hk : k ∈ hypotheses ++ nodes)
      (hθ : goal.unifyWith k [] = some θ) :
      Found nodes hypotheses goal prove (.step goal .fact [] θ.publish)
  | way {w : Way} {θ : Bindings} {q : Proof} (hw : w ∈ ways nodes)
      (hθ : w.conclusion.unifyWith goal [] = some θ)
      (hq : prove hypotheses (w.premise.subst θ) = some q) :
      Found nodes hypotheses goal prove (.step goal w.via [q] θ.publish)
  | conjunction {a b : Node} {q r : Proof} (hg : goal = a.conjoin b)
      (hq : prove hypotheses a = some q) (hr : prove hypotheses b = some r) :
      Found nodes hypotheses goal prove (.step goal .conjunctionIntroduction [q, r] [])
  | implication {a b : Node} {q : Proof} (hg : goal = a.implies b)
      (hq : prove (hypotheses ++ [a]) b = some q) :
      Found nodes hypotheses goal prove (.step goal .implicationIntroduction [q] [])

/-- What the form of a goal gives. -/
theorem tryForm_found {nodes hypotheses : List Node} {goal : Node}
    {prove : (hypotheses : List Node) → Node → Option Proof} {p : Proof}
    (h : tryForm prove hypotheses goal = some p) : Found nodes hypotheses goal prove p := by
  unfold tryForm at h
  split at h
  · next a b =>
      obtain ⟨q, hq, h⟩ := Option.bind_eq_some_iff.1 h
      obtain ⟨r, hr, h⟩ := Option.bind_eq_some_iff.1 h
      cases h
      exact .conjunction rfl hq hr
  · next a b =>
      obtain ⟨q, hq, h⟩ := Option.bind_eq_some_iff.1 h
      cases h
      exact .implication rfl hq
  · cases h

/-- A search that succeeds has not met its goal on the branch, and finds a
fact, a way or an introduction. -/
theorem search_found {nodes path hypotheses : List Node} {fuel : Nat} {goal : Node} {p : Proof}
    (h : search nodes (fuel + 1) path hypotheses goal = some p) :
    Pattern.holds path goal = false ∧
      Found nodes hypotheses goal (search nodes fuel (goal :: path)) p := by
  unfold search at h
  split at h
  · cases h
  · next hpath =>
      refine ⟨Bool.eq_false_iff.2 hpath, ?_⟩
      simp only [Option.orElse_eq_orElse, Option.orElse_eq_or, Option.or_eq_some_iff] at h
      rcases h with h | ⟨-, h | ⟨-, h⟩⟩
      · obtain ⟨k, hk, hu⟩ := List.exists_of_findSome?_eq_some h
        obtain ⟨_, hs, rfl⟩ := Option.map_eq_some_iff.1 hu
        obtain ⟨θ, hθ, rfl⟩ := Option.map_eq_some_iff.1 hs
        exact .fact hk hθ
      · obtain ⟨w, hw, ht⟩ := List.exists_of_findSome?_eq_some h
        obtain ⟨θ, hθ, ht⟩ := Option.bind_eq_some_iff.1 ht
        obtain ⟨q, hq, ht⟩ := Option.bind_eq_some_iff.1 ht
        cases ht
        exact .way hw hθ hq
      · exact tryForm_found h

/-! ## Separated proofs -/

/-- A step keeps variables apart: the operands of a conjunction share none,
and an antecedent that is assumed has none. -/
def Apart : Justification → Node → Prop
  | .conjunctionIntroduction, .compound .and (some a) (some b) => ∀ v ∈ a.vars, v ∉ b.vars
  | .implicationIntroduction, .compound .implies (some a) (some _) => a.Ground
  | _, _ => True

mutual

/-- All steps of a proof keep variables apart. -/
def Separated : Proof → Prop
  | .step g j ps _ => Apart j g ∧ SeparatedAll ps

/-- All steps of several proofs keep variables apart. -/
def SeparatedAll : List Proof → Prop
  | [] => True
  | p :: ps => Separated p ∧ SeparatedAll ps

end

/-! ## Separated proofs give derivable instances -/

/-- A goal for which a separated proof is found has a derivable instance. -/
theorem search_derivable {nodes : List Node} (hvars : ∀ n ∈ nodes, n.VarsInTerms) {fuel : Nat}
    {path hypotheses : List Node} {goal : Node} {p : Proof}
    (h : search nodes fuel path hypotheses goal = some p) (hp : p.Separated)
    (hh : ∀ n ∈ hypotheses, n.VarsInTerms) (hg : goal.VarsInTerms) :
    ∃ σ : Assignment, Derivable nodes hypotheses (goal.inst σ) := by
  induction fuel generalizing path hypotheses goal p with
  | zero => cases h
  | succ fuel ih =>
      cases (search_found h).2 with
      | @fact k θ hk hθ =>
          have hkv : k.VarsInTerms := by
            rcases List.mem_append.1 hk with hk | hk
            · exact hh k hk
            · exact hvars k hk
          obtain ⟨hacyc, -, hsol⟩ := Unify.nodes_sound hg hkv [] θ Bindings.acyclic_nil hθ
          have hσ := (Assignment.constant "a" rfl).solves_after hacyc
          exact ⟨_, .fact _ hk (hsol _ hσ)⟩
      | @way w θ q hw hθ hq =>
          obtain ⟨hwp, hwc, -⟩ := ways_supports hvars hw
          obtain ⟨hacyc, -, hsol⟩ := Unify.nodes_sound hwc hg [] θ Bindings.acyclic_nil hθ
          obtain ⟨σ, hσ⟩ := ih hq hp.2.1 hh (Node.varsInTerms_subst hwp θ)
          -- The premise was substituted into first, so its values follow `θ`,
          -- and the same values make the conclusion an instance of the goal.
          rw [Node.inst_subst hwp] at hσ
          exact ⟨σ.after θ, .way _ hw (hsol _ (σ.solves_after hacyc)) hσ⟩
      | @conjunction a b q r hgoal hq hr =>
          subst hgoal
          obtain ⟨ha, hb⟩ := Node.varsInTerms_compound.1 hg
          obtain ⟨σ, hσa, hσb⟩ := JointlyDerivable.of_apart hp.1
            (ih hq hp.2.1 hh (ha a rfl)) (ih hr hp.2.2.1 hh (hb b rfl))
          exact ⟨σ, .conjunction hσa hσb⟩
      | @implication a b q hgoal hq =>
          subst hgoal
          have hground : a.Ground := hp.1
          obtain ⟨-, hb⟩ := Node.varsInTerms_compound.1 hg
          have hh' : ∀ n ∈ hypotheses ++ [a], n.VarsInTerms := by
            intro n hn
            rcases List.mem_append.1 hn with hn | hn
            · exact hh n hn
            · rw [List.mem_singleton.1 hn]
              exact hground.varsInTerms
          obtain ⟨σ, hσ⟩ := ih hq hp.2.1 hh' (hb b rfl)
          refine ⟨σ, ?_⟩
          have hinst : (a.implies b).inst σ = a.implies (b.inst σ) := by
            show (a.inst σ).implies (b.inst σ) = a.implies (b.inst σ)
            rw [Node.inst_of_ground hground]
          rw [hinst]
          exact .implication hσ

/-! ## Proofs of ground goals are separated -/

/-- If no way has variables in its premise that its conclusion lacks, all
goals below a ground one are ground, and its proofs are separated. -/
theorem search_separated {nodes : List Node} (hvars : ∀ n ∈ nodes, n.VarsInTerms)
    (hways : ∀ w ∈ ways nodes, ∀ v ∈ w.premise.vars, v ∈ w.conclusion.vars) {fuel : Nat}
    {path hypotheses : List Node} {goal : Node} {p : Proof}
    (h : search nodes fuel path hypotheses goal = some p) (hg : goal.Ground) : p.Separated := by
  induction fuel generalizing path hypotheses goal p with
  | zero => cases h
  | succ fuel ih =>
      cases (search_found h).2 with
      | fact => exact ⟨trivial, trivial⟩
      | @way w θ q hw hθ hq =>
          obtain ⟨hwp, hwc, -⟩ := ways_supports hvars hw
          -- Unifying with a ground goal grounds the conclusion, hence the premise.
          have hpremise : (w.premise.subst θ).Ground :=
            Node.ground_subst hwp fun v hv =>
              Unify.varName?_resolve_of_ground hwc hg hθ v (hways w hw v hv)
          refine ⟨?_, ih hq hpremise, trivial⟩
          obtain ⟨n, -, hn⟩ := List.mem_flatMap.1 hw
          rcases waysOf_cases hn with ⟨-, hvia⟩ | ⟨-, id, hvia⟩ <;> simp [hvia, Apart]
      | @conjunction a b q r hgoal hq hr =>
          subst hgoal
          obtain ⟨ha, hb⟩ := Node.ground_compound.1 hg
          refine ⟨fun v hv => ?_, ih hq (ha a rfl), ih hr (hb b rfl), trivial⟩
          rw [ha a rfl] at hv
          cases hv
      | @implication a b q hgoal hq =>
          subst hgoal
          obtain ⟨ha, hb⟩ := Node.ground_compound.1 hg
          exact ⟨ha a rfl, ih hq (hb b rfl), trivial⟩

end TripleLogic.Proof
