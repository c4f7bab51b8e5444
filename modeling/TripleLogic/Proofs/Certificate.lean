/-
TripleLogic.Proofs.Certificate — a proof that is found can be checked step by
step.

`Certified nodes hypotheses p` says of every step of `p` what licenses it: a
known node or a hypothesis that the goal unifies with, a known implication or
rule whose conclusion unifies with the goal and whose premise is proved under
the bindings found, or the form of the goal. Hypotheses are those assumed on
the way from the root to the step and no others.

What a search finds is certified (`search_certified`), no branch of it has
more steps than the search may take (`search_depth_le`), and no goal comes
back on a branch (`search_distinct`). A proof that needed forward chaining is
one further step upon such a proof, over what is known by then.
-/
import TripleLogic.Proofs.Persistence

namespace TripleLogic

namespace Proof

/-! ## Certificates -/

/-- Every step of a proof is licensed by the known nodes and by the hypotheses
in scope. -/
inductive Certified (nodes : List Node) : (hypotheses : List Node) → Proof → Prop
  | fact {hypotheses : List Node} {goal k : Node} {σ : Substitution}
      (hk : k ∈ hypotheses ∨ k ∈ nodes) (hσ : goal.unify k = some σ) :
      Certified nodes hypotheses (.step goal .fact [] σ)
  | modusPonens {hypotheses : List Node} {goal a b : Node} {θ : Bindings} {q : Proof}
      (hi : a.implies b ∈ nodes) (hθ : b.unifyWith goal [] = some θ) (hgoal : q.goal = a.subst θ)
      (hq : Certified nodes hypotheses q) :
      Certified nodes hypotheses (.step goal .modusPonens [q] θ.publish)
  /-- A rule in one of its directions. -/
  | rule {hypotheses : List Node} {goal a b premises conclusion : Node} {id : String}
      {d : Option String} {x : Bool} {c : Data} {θ : Bindings} {q : Proof}
      (hr : Node.rule id premises conclusion d x c ∈ nodes)
      (hd : (a, b) = (premises, conclusion) ∨ x = true ∧ (a, b) = (conclusion, premises))
      (hθ : b.unifyWith goal [] = some θ) (hgoal : q.goal = a.subst θ)
      (hq : Certified nodes hypotheses q) :
      Certified nodes hypotheses (.step goal (.rule id) [q] θ.publish)
  | conjunction {hypotheses : List Node} {a b : Node} {q r : Proof} (hqg : q.goal = a)
      (hrg : r.goal = b) (hq : Certified nodes hypotheses q) (hr : Certified nodes hypotheses r) :
      Certified nodes hypotheses (.step (a.conjoin b) .conjunctionIntroduction [q, r] [])
  | implication {hypotheses : List Node} {a b : Node} {q : Proof} (hqg : q.goal = b)
      (hq : Certified nodes (hypotheses ++ [a]) q) :
      Certified nodes hypotheses (.step (a.implies b) .implicationIntroduction [q] [])

mutual

/-- The goals on the way from the root of a proof to each of its leaves. -/
def branches : Proof → List (List Node)
  | .step g _ ps _ => if ps.isEmpty then [[g]] else (branchesAll ps).map (g :: ·)

/-- The branches of several proofs. -/
def branchesAll : List Proof → List (List Node)
  | [] => []
  | p :: ps => branches p ++ branchesAll ps

end

/-- A proof of a goal can be checked against the nodes that it rests on: its
steps are licensed, no branch is longer than the bound on the depth allows,
and no branch comes back to a goal. -/
structure Certificate (nodes : List Node) (maxDepth : Int) (goal : Node) (p : Proof) : Prop where
  goal_eq : p.goal = goal
  certified : Certified nodes [] p
  depth_le : (p.depth : Int) ≤ maxDepth + 1
  distinct : ∀ b ∈ p.branches, b.Pairwise fun m n => m.same n = false

/-! ## What a search finds -/

theorem search_goal {nodes path hypotheses : List Node} {fuel : Nat} {goal : Node} {p : Proof}
    (h : search nodes fuel path hypotheses goal = some p) : p.goal = goal := by
  cases fuel with
  | zero => cases h
  | succ fuel => cases (search_found h).2 <;> rfl

/-- A step by a way is one by the implication or the rule that offers it. -/
theorem certified_of_way {nodes hypotheses : List Node} {w : Way} (hw : w ∈ ways nodes)
    {goal : Node} {θ : Bindings} {q : Proof} (hθ : w.conclusion.unifyWith goal [] = some θ)
    (hgoal : q.goal = w.premise.subst θ) (hq : Certified nodes hypotheses q) :
    Certified nodes hypotheses (.step goal w.via [q] θ.publish) := by
  obtain ⟨n, hn, hw⟩ := List.mem_flatMap.1 hw
  unfold waysOf at hw
  split at hw
  · cases List.mem_singleton.1 hw
    exact .modusPonens hn hθ hgoal hq
  · next id a b d x c =>
      obtain ⟨⟨p, q⟩, hd, rfl⟩ := List.mem_map.1 hw
      refine .rule hn ?_ hθ hgoal hq
      cases x with
      | true => simpa [Pattern.directions] using hd
      | false => simpa [Pattern.directions] using hd
  · cases hw

/-- What is found is certified. -/
theorem search_certified {nodes : List Node} {fuel : Nat} {path hypotheses : List Node}
    {goal : Node} {p : Proof} (h : search nodes fuel path hypotheses goal = some p) :
    Certified nodes hypotheses p := by
  induction fuel generalizing path hypotheses goal p with
  | zero => cases h
  | succ fuel ih =>
      cases (search_found h).2 with
      | @fact k θ hk hθ =>
          exact .fact (List.mem_append.1 hk) (by simp [Node.unify, hθ])
      | way hw hθ hq => exact certified_of_way hw hθ (search_goal hq) (ih hq)
      | conjunction hg hq hr =>
          subst hg
          exact .conjunction (search_goal hq) (search_goal hr) (ih hq) (ih hr)
      | implication hg hq =>
          subst hg
          exact .implication (search_goal hq) (ih hq)

/-- No branch has more steps than the search may take. -/
theorem search_depth_le {nodes : List Node} {fuel : Nat} {path hypotheses : List Node}
    {goal : Node} {p : Proof} (h : search nodes fuel path hypotheses goal = some p) :
    p.depth ≤ fuel := by
  induction fuel generalizing path hypotheses goal p with
  | zero => cases h
  | succ fuel ih =>
      cases (search_found h).2 with
      | fact =>
          simp only [depth, depthAll]
          omega
      | way hw hθ hq =>
          have hle := ih hq
          simp only [depth, depthAll]
          omega
      | conjunction hg hq hr =>
          have hleft := ih hq
          have hright := ih hr
          simp only [depth, depthAll]
          omega
      | implication hg hq =>
          have hle := ih hq
          simp only [depth, depthAll]
          omega

/-- A goal that is not on the branch, followed by goals that differ from it
and from those on the branch. -/
theorem distinct_cons {path : List Node} {goal : Node} {bs : List (List Node)}
    (hpath : Pattern.holds path goal = false)
    (h : ∀ b ∈ bs, b.Pairwise (fun m n => m.same n = false) ∧
      ∀ n ∈ b, Pattern.holds (goal :: path) n = false) :
    ∀ b ∈ bs.map (goal :: ·), b.Pairwise (fun m n => m.same n = false) ∧
      ∀ n ∈ b, Pattern.holds path n = false := by
  intro _ hmem
  obtain ⟨b, hb, rfl⟩ := List.mem_map.1 hmem
  obtain ⟨hpair, hoff⟩ := h b hb
  simp only [Pattern.holds, List.any_cons, Bool.or_eq_false_iff] at hoff
  refine ⟨List.pairwise_cons.2 ⟨fun n hn => (hoff n hn).1, hpair⟩, fun n hn => ?_⟩
  rcases List.mem_cons.1 hn with rfl | hn
  · exact hpath
  · exact (hoff n hn).2

/-- The goals of a branch differ from each other and from the goals of the
branch above. -/
theorem search_distinct {nodes : List Node} {fuel : Nat} {path hypotheses : List Node}
    {goal : Node} {p : Proof} (h : search nodes fuel path hypotheses goal = some p) :
    ∀ b ∈ p.branches, b.Pairwise (fun m n => m.same n = false) ∧
      ∀ n ∈ b, Pattern.holds path n = false := by
  induction fuel generalizing path hypotheses goal p with
  | zero => cases h
  | succ fuel ih =>
      obtain ⟨hpath, hfound⟩ := search_found h
      cases hfound with
      | fact =>
          intro b hb
          cases List.mem_singleton.1 hb
          exact ⟨List.pairwise_singleton .., fun n hn => List.mem_singleton.1 hn ▸ hpath⟩
      | way hw hθ hq =>
          refine distinct_cons hpath fun b hb => ?_
          simp only [branchesAll, List.append_nil] at hb
          exact ih hq b hb
      | conjunction hg hq hr =>
          refine distinct_cons hpath fun b hb => ?_
          simp only [branchesAll, List.append_nil] at hb
          rcases List.mem_append.1 hb with hb | hb
          · exact ih hq b hb
          · exact ih hr b hb
      | implication hg hq =>
          refine distinct_cons hpath fun b hb => ?_
          simp only [branchesAll, List.append_nil] at hb
          exact ih hq b hb

/-- What is found is a certificate. -/
theorem find?_certificate {nodes : List Node} {maxDepth : Int} {goal : Node} {p : Proof}
    (h : find? nodes maxDepth goal = some p) : Certificate nodes maxDepth goal p := by
  have hdepth := search_depth_le h
  have hpos : 0 < p.depth := by
    cases p
    simp only [depth]
    omega
  exact ⟨search_goal h, search_certified h, by omega, fun b hb => (search_distinct h b hb).1⟩

/-- The premise of a step by a rule has a certificate of its own. -/
theorem Certificate.premise {nodes : List Node} {maxDepth : Int} {goal : Node} {p : Proof}
    {id : String} (h : Certificate nodes maxDepth goal p) (hvia : p.justification = .rule id) :
    ∃ q, p.premises = [q] ∧ Certificate nodes maxDepth q.goal q := by
  obtain ⟨-, hcert, hdepth, hdistinct⟩ := h
  cases hcert with
  | @rule _ goal _ _ _ _ _ _ _ _ θ q hr hd hθ hgoal hq =>
      refine ⟨q, rfl, rfl, hq, ?_, fun b hb => ?_⟩
      · simp only [depth, depthAll] at hdepth
        omega
      · have hbranch : goal :: b ∈ (step goal (.rule id) [q] θ.publish).branches := by
          simpa [branches, branchesAll] using hb
        exact (List.pairwise_cons.1 (hdistinct _ hbranch)).2
  | _ => cases hvia

/-! ## Answers -/

theorem findEntry?_certificate {nodes : List Node} {maxDepth : Int} {goal : Entry} {p : Proof}
    (h : findEntry? nodes maxDepth goal = .ok (some p)) :
    ∃ n, goal = .node n ∧ Certificate nodes maxDepth n p := by
  obtain ⟨n, rfl, -, hfind⟩ := isKey_of_findEntry? h
  exact ⟨n, rfl, find?_certificate hfind⟩

/-- The last step of a proof with which an engine answers a goal has one
premise, which has a certificate over what is known after the answer. If the
step is forward chaining, and not a rule that goes by its name, then the
premise is a proof of the goal itself, and forward chaining has derived
something. -/
def Chained (g : Engine) (goal : Entry) (p : Proof) : Prop :=
  ∃ q, p.premises = [q] ∧
    Certificate (g.prove goal).1.kb.nodes g.settings.maxProofDepth q.goal q ∧
    (p.justification = .forwardChaining → goal = .node q.goal ∧ p.goal = q.goal ∧
      p.substitution = q.substitution ∧
      (g.prove goal).1.kb = (g.kb.saturate g.settings.saturationPasses).kb ∧
      (g.kb.saturate g.settings.saturationPasses).derived ≠ [])

/-- An answer whose last step goes by the name of forward chaining. -/
theorem chained_of_prove {g : Engine} {goal : Entry} {v : Verdict} {p : Proof}
    (h : (g.prove goal).2 = .ok v) (hp : v.proof = some p)
    (hname : p.justification.name = "forward-chaining") : Chained g goal p := by
  rcases Engine.prove_cases h hp with ⟨hg, hb⟩ | ⟨q, hg, hne, hb, rfl⟩
  · -- The proof comes from a search, so the last step is one by a rule.
    obtain ⟨n, -, hcert⟩ := findEntry?_certificate hb
    obtain ⟨id, hvia⟩ : ∃ id, p.justification = .rule id := by
      obtain ⟨-, hsteps, -, -⟩ := hcert
      cases hsteps with
      | rule => exact ⟨_, rfl⟩
      | _ => simp [justification, Justification.name] at hname
    obtain ⟨q, hq, hqc⟩ := hcert.premise hvia
    refine ⟨q, hq, ?_, fun hfwd => by cases hvia.symm.trans hfwd⟩
    rw [hg]
    exact hqc
  · have hset : (g.prove goal).1.settings = g.settings := by rw [hg]
    obtain ⟨n, hn, hcert⟩ := findEntry?_certificate hb
    rw [hset] at hcert
    have hqn : q.goal = n := hcert.goal_eq
    subst hqn
    exact ⟨q, rfl, hcert, fun _ => ⟨hn, rfl, rfl, by rw [hg], hne⟩⟩

/-- **Proofs are certificates.** Whatever a search answers with is a
certificate over the nodes that are searched, and what an engine answers with
by forward chaining rests on a certificate over what it knows by then. -/
theorem answers_certified :
    (∀ (nodes : List Node) (maxDepth : Int) (goal : Entry) (p : Proof),
      findEntry? nodes maxDepth goal = .ok (some p) →
        ∃ n, goal = .node n ∧ Certificate nodes maxDepth n p) ∧
    (∀ (g : Engine) (goal : Entry) (v : Verdict) (p : Proof), (g.prove goal).2 = .ok v →
      v.proof = some p → p.justification.name = "forward-chaining" → Chained g goal p) := by
  constructor
  · intro nodes maxDepth goal p h
    exact findEntry?_certificate h
  · intro g goal v p h hp hname
    exact chained_of_prove h hp hname

/-- The inheritance has a certificate of five levels over the lineage, and
that it does not rain is proved by forward chaining upon a certificate. -/
theorem inheritance_certified :
    (∃ p, findEntry? lineage 20 (.node inheritance) = .ok (some p) ∧ p.depth = 5 ∧
      Certificate lineage 20 inheritance p) ∧
    ∃ v p, (Engine.drySpell.prove Engine.noRain).2 = .ok v ∧ v.proof = some p ∧
      p.justification = .forwardChaining ∧ Chained Engine.drySpell Engine.noRain p := by
  constructor
  · have hrun : (find? lineage 20 inheritance).map depth = some 5 := by decide +kernel
    obtain ⟨p, hp, hdepth⟩ := Option.map_eq_some_iff.1 hrun
    have hentry : findEntry? lineage 20 (.node inheritance) = .ok (some p) := by
      rw [← hp]
      rfl
    obtain ⟨n, hn, hcert⟩ := answers_certified.1 lineage 20 (.node inheritance) p hentry
    cases hn
    exact ⟨p, hentry, hdepth, hcert⟩
  · have hrun : ((Engine.drySpell.prove Engine.noRain).2.toOption.bind Verdict.proof).map
        justification = some .forwardChaining := by decide +kernel
    obtain ⟨p, hp, hvia⟩ := Option.map_eq_some_iff.1 hrun
    cases hv : (Engine.drySpell.prove Engine.noRain).2 with
    | error f =>
        rw [hv] at hp
        cases hp
    | ok v =>
        rw [hv] at hp
        have hname : p.justification.name = "forward-chaining" := by
          rw [hvia]
          rfl
        exact ⟨v, p, rfl, hp, hvia, answers_certified.2 _ _ v p hv hp hname⟩

end Proof

end TripleLogic
