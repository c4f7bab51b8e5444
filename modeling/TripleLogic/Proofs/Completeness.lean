/-
TripleLogic.Proofs.Completeness — what is derived from ground nodes by facts,
ways and conjunctions is found.

A goal has height 1 if it unifies with a known node, and a greater height if
it is concluded by an implication, by a direction of a rule or by its operands
(`Height`). The search does not try a goal again that is being proved on the
same branch. This loses nothing: a goal on the branch has a greater height than
the goal at hand as long as each goal is proved by one of its lowest
derivations, and equal goals have equal heights.

Main statement: a ground goal of height at most one more than the bound on the
depth is proved among ground nodes (`finds_of_height`), unless the goal or a
way has a literal with parts and the search is refused.
-/
import TripleLogic.Proofs.Monotonicity

namespace TripleLogic

/-! ## Ground nodes -/

theorem substName_nil (name : String) : substName [] name = name := by
  simp [substName, Bindings.get?_nil]

theorem Expr.subst_nil (e : Expr) : e.subst [] = e :=
  Bindings.resolve_nil e

theorem Statement.subst_nil (s : Statement) : s.subst [] = s := by
  simp [subst, Expr.subst_nil, substName_nil]

theorem Node.subst_nil (n : Node) : n.subst [] = n := by
  induction n using Node.ind with
  | intent i =>
      have hmap : i.statements.map (Statement.subst []) = i.statements :=
        List.map_id'' Statement.subst_nil i.statements
      simp only [subst, hmap]
  | compound o a b iha ihb =>
      have ha : substOperand [] a = a := operand_cases a rfl fun n hn => congrArg some (iha n hn)
      have hb : substOperand [] b = b := operand_cases b rfl fun n hn => congrArg some (ihb n hn)
      simp only [subst, ha, hb]
  | quantified q v a d ih => simp only [subst, ih]
  | rule i a b d x c iha ihb => simp only [subst, iha, ihb]
  | edge e => simp only [subst, Edge.subst, substName_nil]

/-- Ground nodes unify with nothing to bind. -/
theorem Node.unifyWith_eq_nil {a b : Node} (ha : a.Ground) (hb : b.Ground) {θ : Bindings}
    (h : a.unifyWith b [] = some θ) : θ = [] := by
  obtain ⟨hacyc, -, hsol⟩ :=
    Unify.nodes_sound ha.varsInTerms hb.varsInTerms [] θ Bindings.acyclic_nil h
  have hinst : Unify.nodes (a.inst _) (b.inst _) [] = some [] :=
    hsol _ ((Assignment.constant "a" rfl).solves_after hacyc)
  rw [Node.inst_of_ground ha, Node.inst_of_ground hb] at hinst
  exact Option.some.inj (h.symm.trans hinst)

theorem Node.isSome_unify {a b : Node} :
    (a.unify b).isSome = true ↔ ∃ θ, a.unifyWith b [] = some θ := by
  rw [unify, Option.isSome_map, Option.isSome_iff_exists]

/-- Nodes that are equal to unifying ones unify. -/
theorem Node.isSome_unify_of_canon {a a' b b' : Node} (ha : a'.canon = a.canon)
    (hb : b'.canon = b.canon) (h : (a.unify b).isSome = true) : (a'.unify b').isSome = true := by
  obtain ⟨θ, hθ⟩ := isSome_unify.1 h
  obtain ⟨θ', hθ', -⟩ := unifyWith_of_canon ha hb hθ
  exact isSome_unify.2 ⟨θ', hθ'⟩

namespace Proof

/-! ## Heights -/

/-- A goal has at most the given height over known nodes: it unifies with one
of them, or an implication or a direction of a rule concludes it from a premise
of a lower height, or it is a conjunction of operands of a lower height. -/
inductive Height (nodes : List Node) : Nat → Node → Prop
  | fact {h : Nat} {g k : Node} (hk : k ∈ nodes) (hu : (g.unify k).isSome = true) :
      Height nodes (h + 1) g
  | implication {h : Nat} {g a b : Node} (hi : a.implies b ∈ nodes)
      (hu : (b.unify g).isSome = true) (ha : Height nodes h a) : Height nodes (h + 1) g
  /-- A rule in one of its directions. -/
  | rule {h : Nat} {g a b premises conclusion : Node} {id : String} {d : Option String}
      {x : Bool} {c : Data} (hr : Node.rule id premises conclusion d x c ∈ nodes)
      (hd : (a, b) = (premises, conclusion) ∨ x = true ∧ (a, b) = (conclusion, premises))
      (hu : (b.unify g).isSome = true) (ha : Height nodes h a) : Height nodes (h + 1) g
  | conjunction {h : Nat} {a b : Node} (ha : Height nodes h a) (hb : Height nodes h b) :
      Height nodes (h + 1) (a.conjoin b)

variable {nodes : List Node}

/-- A bound on a height may be raised. -/
theorem Height.succ {h : Nat} {g : Node} (hg : Height nodes h g) : Height nodes (h + 1) g := by
  induction hg with
  | fact hk hu => exact .fact hk hu
  | implication hi hu _ ih => exact .implication hi hu ih
  | rule hr hd hu _ ih => exact .rule hr hd hu ih
  | conjunction _ _ iha ihb => exact .conjunction iha ihb

/-- Equal goals have equal heights. -/
theorem Height.of_canon {h : Nat} {g g' : Node} (hg : Height nodes h g)
    (hc : g'.canon = g.canon) : Height nodes h g' := by
  induction hg generalizing g' with
  | fact hk hu => exact .fact hk (Node.isSome_unify_of_canon hc rfl hu)
  | implication hi hu ha _ => exact .implication hi (Node.isSome_unify_of_canon rfl hc hu) ha
  | rule hr hd hu ha _ => exact .rule hr hd (Node.isSome_unify_of_canon rfl hc hu) ha
  | conjunction _ _ iha ihb =>
      obtain ⟨a', b', rfl, ha, hb⟩ := Node.compound_of_canon hc
      exact .conjunction (iha ha) (ihb hb)

/-! ## The search -/

/-- The children of a ground node are ground. -/
theorem ground_of_mem_children {n c : Node} (hn : n.Ground) (hc : c ∈ n.children) :
    c.Ground := by
  cases n with
  | compound o a b =>
      obtain ⟨ha, hb⟩ := Node.ground_compound.1 hn
      simp only [Node.children, List.mem_append, Option.mem_toList] at hc
      exact hc.elim (ha c) (hb c)
  | rule i a b d x k =>
      obtain ⟨ha, hb⟩ := Node.ground_rule.1 hn
      simp only [Node.children, List.mem_cons, List.not_mem_nil, or_false] at hc
      rcases hc with rfl | rfl
      · exact ha
      · exact hb
  | _ => cases hc

theorem implication_mem_ways {a b : Node} (h : a.implies b ∈ nodes) :
    (⟨.modusPonens, a, b⟩ : Way) ∈ ways nodes :=
  List.mem_flatMap.2 ⟨_, h, List.mem_singleton.2 rfl⟩

theorem rule_mem_ways {a b premises conclusion : Node} {id : String} {d : Option String}
    {x : Bool} {c : Data} (h : Node.rule id premises conclusion d x c ∈ nodes)
    (hd : (a, b) = (premises, conclusion) ∨ x = true ∧ (a, b) = (conclusion, premises)) :
    (⟨.rule id, a, b⟩ : Way) ∈ ways nodes := by
  refine List.mem_flatMap.2 ⟨_, h, List.mem_map.2 ⟨(a, b), ?_, rfl⟩⟩
  cases x with
  | true => simpa [Pattern.directions] using hd
  | false => simpa [Pattern.directions] using hd

/-- A goal is found on a branch of greater goals, by as many steps as it is
high. -/
theorem search_isSome_of_height (hnodes : ∀ n ∈ nodes, n.Ground) {h fuel : Nat}
    {path hypotheses : List Node} {g : Node} (hgoal : Height nodes h g) (hg : g.Ground)
    (hfuel : h ≤ fuel) (hpath : ∀ m ∈ path, ¬ Height nodes h m) :
    (search nodes fuel path hypotheses g).isSome = true := by
  induction h generalizing fuel path g with
  | zero => cases hgoal
  | succ h ih =>
      by_cases hlow : Height nodes h g
      · exact ih hlow hg (Nat.le_of_succ_le hfuel) fun m hm hmh => hpath m hm hmh.succ
      · obtain ⟨fuel, rfl⟩ := Nat.exists_eq_add_of_le' (Nat.le_of_add_left_le hfuel)
        have hoff : Pattern.holds path g = false := by
          refine Bool.eq_false_iff.2 fun hheld => ?_
          obtain ⟨m, hm, hs⟩ := Pattern.holds_iff.1 hheld
          exact hpath m hm (hgoal.of_canon ((Node.same_iff m g).1 hs))
        -- The goal is as high as it can be, so what it rests on is lower than
        -- all that is on the branch then.
        have hbranch : ∀ m ∈ g :: path, ¬ Height nodes h m :=
          List.forall_mem_cons.2 ⟨hlow, fun m hm hmh => hpath m hm hmh.succ⟩
        have hrec : ∀ {a : Node}, Height nodes h a → a.Ground →
            ∃ q, search nodes fuel (g :: path) hypotheses a = some q := fun ha hag =>
          Option.isSome_iff_exists.1 (ih ha hag (Nat.le_of_succ_le_succ hfuel) hbranch)
        have hway : ∀ w ∈ ways nodes, (w.conclusion.unify g).isSome = true →
            Height nodes h w.premise →
            (search nodes (fuel + 1) path hypotheses g).isSome = true := by
          intro w hw hu hp
          obtain ⟨n, hn, hpremise, hconclusion⟩ := mem_children_of_mem_ways hw
          obtain ⟨θ, hθ⟩ := Node.isSome_unify.1 hu
          obtain rfl := Node.unifyWith_eq_nil
            (ground_of_mem_children (hnodes n hn) hconclusion) hg hθ
          obtain ⟨q, hq⟩ := hrec hp (ground_of_mem_children (hnodes n hn) hpremise)
          exact search_isSome_of_found hoff (.way hw hθ (by rwa [Node.subst_nil]))
        cases hgoal with
        | fact hk hu =>
            obtain ⟨θ, hθ⟩ := Node.isSome_unify.1 hu
            exact search_isSome_of_found hoff (.fact (List.mem_append_right _ hk) hθ)
        | implication hi hu ha => exact hway _ (implication_mem_ways hi) hu ha
        | rule hr hd hu ha => exact hway _ (rule_mem_ways hr hd) hu ha
        | conjunction ha hb =>
            obtain ⟨hag, hbg⟩ := Node.ground_compound.1 hg
            obtain ⟨q, hq⟩ := hrec ha (hag _ rfl)
            obtain ⟨r, hr⟩ := hrec hb (hbg _ rfl)
            exact search_isSome_of_found hoff (.conjunction rfl hq hr)

/-- **Completeness over ground nodes.** Among ground nodes a ground goal of
height at most one more than the bound on the depth is proved, or else the
search is refused, and the goal, an implication or a rule has a literal with
parts. -/
theorem finds_of_height (nodes : List Node) (hnodes : ∀ n ∈ nodes, n.Ground) (goal : Node)
    (hg : goal.Ground) (maxDepth : Int) (h : Nat) (hgoal : Height nodes h goal)
    (hle : (h : Int) ≤ maxDepth + 1) :
    Finds nodes maxDepth (.node goal) ∨
      (goal.isKey = false ∨ ∃ w ∈ ways nodes, ¬ w.IsKeyed) ∧
        Refuses nodes maxDepth (.node goal) := by
  have hfuel : h ≤ (maxDepth + 1).toNat := by omega
  exact finds_or_refuses (search_isSome_of_height hnodes hgoal hg hfuel nofun)

/-- Rain makes the street wet, a wet street is slippery, and the other way
round. -/
def slipperyStreet : List Node :=
  [Node.implies (.assertion "street" "is" "slippery") (.assertion "street" "is" "wet"),
   .rule "ice" (.assertion "street" "is" "wet") (.assertion "street" "is" "slippery") none true
     .null,
   Node.implies (.assertion "sky" "is" "raining") (.assertion "street" "is" "wet"),
   .assertion "sky" "is" "raining"]

/-- The street is both. -/
def slipperyAndWet : Node :=
  Node.conjoin (.assertion "street" "is" "slippery") (.assertion "street" "is" "wet")

/-- Both together have height four, and they are proved on depth three, although
each of them is tried first by way of the other, and not on depth two. -/
theorem slipperyStreet_finds :
    (∀ n ∈ slipperyStreet, n.Ground) ∧ slipperyAndWet.Ground ∧
      Height slipperyStreet 4 slipperyAndWet ∧
      Finds slipperyStreet 3 (.node slipperyAndWet) ∧
      ¬ Finds slipperyStreet 2 (.node slipperyAndWet) := by
  have hnodes : ∀ n ∈ slipperyStreet, n.Ground := by decide +kernel
  have hg : slipperyAndWet.Ground := by decide +kernel
  have hkeyed : slipperyAndWet.isKey = true ∧ ∀ w ∈ ways slipperyStreet, w.IsKeyed := by
    decide +kernel
  have hrain : Height slipperyStreet 1 (.assertion "sky" "is" "raining") :=
    .fact (k := .assertion "sky" "is" "raining") (by simp [slipperyStreet]) (by decide +kernel)
  have hwet : Height slipperyStreet 2 (.assertion "street" "is" "wet") :=
    .implication (b := .assertion "street" "is" "wet") (by simp [slipperyStreet])
      (by decide +kernel) hrain
  have hslippery : Height slipperyStreet 3 (.assertion "street" "is" "slippery") :=
    .rule (List.mem_cons_of_mem _ List.mem_cons_self) (.inl rfl) (by decide +kernel) hwet
  have hboth : Height slipperyStreet 4 slipperyAndWet := .conjunction hslippery hwet.succ
  refine ⟨hnodes, hg, hboth, ?_, by decide +kernel⟩
  rcases finds_of_height slipperyStreet hnodes slipperyAndWet hg 3 4 hboth (by decide) with
    h | ⟨hno | ⟨w, hw, hno⟩, -⟩
  · exact h
  · cases hkeyed.1.symm.trans hno
  · exact absurd (hkeyed.2 w hw) hno

/-- A timer shows a list of numbers. -/
def shownTime : Node :=
  .intent { kind := "!Assert", statements :=
    [{ subject := .concept "timer", relation := { name := "shows" }
       object := .composite (.list [.int 6, .int 30]) }] }

/-- What the timer shows has height one among itself, and the search for it is
refused. -/
theorem shownTime_refused :
    shownTime.Ground ∧ Height [shownTime] 1 shownTime ∧
      ¬ Finds [shownTime] 20 (.node shownTime) := by
  have hunify : (shownTime.unify shownTime).isSome = true := by decide +kernel
  exact ⟨by decide +kernel, .fact (List.mem_singleton.2 rfl) hunify, by decide +kernel⟩

end Proof

end TripleLogic
