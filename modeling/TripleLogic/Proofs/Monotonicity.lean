/-
TripleLogic.Proofs.Monotonicity — whether a goal is proved depends on the set
of the nodes, and more nodes and a greater depth prove more.

A search is refused when it comes upon a goal with a literal that has parts.
Goals below one without such literals have none either, unless an implication
or a rule brings them in (`Way.IsKeyed.subst`). So only a goal that is no key
or a way with such a literal can have a search refused (`finds_or_refuses`).

Main statement: what is found among some nodes is found on any greater depth
among nodes that hold each of them, in whatever order and however often. This
holds of equal nodes as well, which may differ in payloads, tenses and the
spelling of numbers. A search among more nodes may also be refused, because of
a literal with parts in a way that is tried in vain; it never ends without a
proof (`finds_mono`).
-/
import TripleLogic.Proofs.Persistence

namespace TripleLogic.Proof

/-! ## What a search answers -/

/-- A search for a goal finds a proof. -/
def Finds (nodes : List Node) (maxDepth : Int) (goal : Entry) : Prop :=
  ∃ p, findEntry? nodes maxDepth goal = .ok (some p)

/-- A search for a goal is refused because of a literal with parts. -/
def Refuses (nodes : List Node) (maxDepth : Int) (goal : Entry) : Prop :=
  ∃ d, findEntry? nodes maxDepth goal = .error (.misuse (.notKey d))

instance (nodes : List Node) (maxDepth : Int) (goal : Entry) :
    Decidable (Finds nodes maxDepth goal) :=
  match h : findEntry? nodes maxDepth goal with
  | .ok (some p) => .isTrue ⟨p, h⟩
  | .ok none => .isFalse fun ⟨_, hp⟩ => by cases h.symm.trans hp
  | .error _ => .isFalse fun ⟨_, hp⟩ => by cases h.symm.trans hp

/-! ## Refusals -/

/-- A search for a key by keyed ways comes upon keys only. -/
theorem obstacle?_eq_none {nodes : List Node} (hkeyed : ∀ w ∈ ways nodes, w.IsKeyed)
    {fuel : Nat} {path hypotheses : List Node} {goal : Node} (hg : goal.isKey = true) :
    obstacle? nodes fuel path hypotheses goal = none := by
  induction fuel generalizing path hypotheses goal with
  | zero => rfl
  | succ fuel ih =>
      have hcomposite : goal.composite? = none := Option.isNone_iff_eq_none.1 hg
      simp only [obstacle?, hcomposite]
      split
      · rfl
      · rw [Option.orElse_eq_orElse, Option.orElse_eq_or, Option.or_eq_none_iff]
        constructor
        · refine List.findSome?_eq_none_iff.2 fun g hmem => ih ?_
          obtain ⟨w, hw, hmap⟩ := List.mem_filterMap.1 (List.mem_of_mem_take hmem)
          obtain ⟨θ, hθ, rfl⟩ := Option.map_eq_some_iff.1 hmap
          exact ((hkeyed w hw).subst hg hθ).1
        · split
          · rfl
          · split
            · next a b _ _ =>
                obtain ⟨ha, hb⟩ := isKey_operands hg
                simp [ih ha, ih hb]
            · next a b _ _ => exact ih (isKey_operands hg).2
            · rfl

/-- A goal for which a proof is there is proved, or else the search for it is
refused, and the goal or a way has a literal with parts. -/
theorem finds_or_refuses {nodes : List Node} {maxDepth : Int} {goal : Node}
    (h : (find? nodes maxDepth goal).isSome = true) :
    Finds nodes maxDepth (.node goal) ∨
      (goal.isKey = false ∨ ∃ w ∈ ways nodes, ¬ w.IsKeyed) ∧
        Refuses nodes maxDepth (.node goal) := by
  obtain ⟨p, hp⟩ := Option.isSome_iff_exists.1 h
  rcases findEntry?_cases nodes maxDepth goal with hok | ⟨-, d, hd⟩
  · exact Or.inl ⟨p, hok.trans (congrArg Except.ok hp)⟩
  · refine Or.inr ⟨?_, d, hd⟩
    by_contra hno
    rw [not_or, Bool.not_eq_false, not_exists] at hno
    have hkeyed : ∀ w ∈ ways nodes, w.IsKeyed := fun w hw => by
      by_contra hw'
      exact hno.2 w ⟨hw, hw'⟩
    have hnone : obstacle? nodes (maxDepth + 1).toNat [] [] goal = none :=
      obstacle?_eq_none hkeyed hno.1
    have hok : findEntry? nodes maxDepth (.node goal) = .ok (find? nodes maxDepth goal) := by
      simp only [ findEntry?, Entry.node?, hnone]
      split <;> rfl
    cases hok.symm.trans hd

/-! ## More nodes and a greater depth -/

variable {nodes nodes' : List Node} {maxDepth maxDepth' : Int} {goal : Entry}

/-- Among more nodes a proof is found again, or the search is refused because
of a literal with parts in a way. -/
theorem Finds.of_subset (h : Finds nodes maxDepth goal) (hsub : nodes ⊆ nodes')
    (hdepth : maxDepth ≤ maxDepth') :
    Finds nodes' maxDepth' goal ∨
      (∃ w ∈ ways nodes', ¬ w.IsKeyed) ∧ Refuses nodes' maxDepth' goal := by
  obtain ⟨p, hp⟩ := h
  obtain ⟨n, rfl, hkey, hfind⟩ := isKey_of_findEntry? hp
  have hfuel : (maxDepth + 1).toNat ≤ (maxDepth' + 1).toNat := by omega
  have hsome : (find? nodes maxDepth n).isSome = true := Option.isSome_iff_exists.2 ⟨p, hfind⟩
  rcases finds_or_refuses (search_isSome_mono hsub hfuel hsome) with
    hfound | ⟨hno | hway, hrefused⟩
  · exact Or.inl hfound
  · cases hkey.symm.trans hno
  · exact Or.inr ⟨hway, hrefused⟩

/-- Among equal nodes a proof is found again, if no way has a literal with
parts. -/
theorem Finds.of_covers (h : Finds nodes maxDepth goal) (hcov : Covers nodes' nodes)
    (hkeyed : ∀ w ∈ ways nodes', w.IsKeyed) (hdepth : maxDepth ≤ maxDepth') :
    Finds nodes' maxDepth' goal := by
  obtain ⟨p, hp⟩ := h
  obtain ⟨n, rfl, hkey, hfind⟩ := isKey_of_findEntry? hp
  have hfuel : (maxDepth + 1).toNat ≤ (maxDepth' + 1).toNat := by omega
  have hnil : Covers [] [] := Covers.of_subset (List.Subset.refl [])
  have hsome : (find? nodes' maxDepth' n).isSome = true :=
    (Simulates.of_covers hcov hkeyed).search_isSome hfuel hnil hnil ⟨rfl, hkey⟩
      (Option.isSome_iff_exists.2 ⟨p, hfind⟩)
  rcases finds_or_refuses hsome with hfound | ⟨hno | ⟨w, hw, hno⟩, -⟩
  · exact hfound
  · cases hkey.symm.trans hno
  · exact absurd (hkeyed w hw) hno

/-- **More nodes and a greater depth prove more.** A goal that is proved among
some nodes is proved on the same or a greater depth among nodes that hold each
of them, in whatever order and however often, or else the search is refused
because of a literal with parts in an implication or a rule. Where there is no
such literal it is enough that each of the nodes has an equal one. So among the
same nodes, reordered or repeated, the same goals are proved, except where a
search is refused. -/
theorem finds_mono (nodes nodes' : List Node) (maxDepth maxDepth' : Int)
    (hdepth : maxDepth ≤ maxDepth') (goal : Entry) :
    (nodes ⊆ nodes' → Finds nodes maxDepth goal →
      Finds nodes' maxDepth' goal ∨
        (∃ w ∈ ways nodes', ¬ w.IsKeyed) ∧ Refuses nodes' maxDepth' goal) ∧
    (Covers nodes' nodes → (∀ w ∈ ways nodes', w.IsKeyed) → Finds nodes maxDepth goal →
      Finds nodes' maxDepth' goal) ∧
    (nodes ⊆ nodes' → nodes' ⊆ nodes →
      (Finds nodes maxDepth goal ↔ Finds nodes' maxDepth goal) ∨
        (∃ w ∈ ways nodes, ¬ w.IsKeyed) ∧
          (Refuses nodes maxDepth goal ∨ Refuses nodes' maxDepth goal)) := by
  refine ⟨fun hsub h => h.of_subset hsub hdepth, fun hcov hkeyed h => h.of_covers hcov hkeyed
    hdepth, fun hsub hsub' => ?_⟩
  by_cases h : Finds nodes maxDepth goal
  · rcases h.of_subset hsub (Int.le_refl maxDepth) with h' | ⟨⟨w, hw, hno⟩, hrefused⟩
    · exact Or.inl ⟨fun _ => h', fun _ => h⟩
    · exact Or.inr ⟨⟨w, ways_subset hsub' hw, hno⟩, Or.inr hrefused⟩
  · by_cases h' : Finds nodes' maxDepth goal
    · rcases h'.of_subset hsub' (Int.le_refl maxDepth) with hfound | ⟨hway, hrefused⟩
      · exact absurd hfound h
      · exact Or.inr ⟨hway, Or.inl hrefused⟩
    · exact Or.inl ⟨fun hn => absurd hn h, fun hn => absurd hn h'⟩

/-- The depth of a well, in one spelling of the number or another. -/
def wellDepth (depth : Number) (tense : Data) : Node :=
  .intent { kind := "!Assert", statements :=
    [{ subject := .concept "well", relation := { name := "depth", tense }
       object := .literal (.num depth) }] }

/-- A well three deep is shallow, and the well was three deep. -/
def shallowWell : List Node :=
  [Node.implies (wellDepth (.int 3) .null) (.assertion "well" "is" "shallow"),
   wellDepth (.int 3) (.str "past")]

/-- The same of floating-point numbers, in another order and twice, with a
cycle before it. -/
def shallowWell' : List Node :=
  [Node.implies (.assertion "well" "is" "shallow") (.assertion "well" "is" "shallow"),
   wellDepth (.float (Binary64.ofRatio false 3 1)) .null,
   wellDepth (.float (Binary64.ofRatio false 3 1)) .null,
   Node.implies (wellDepth (.float (Binary64.ofRatio false 3 1)) .null)
     (.assertion "well" "is" "shallow")]

/-- The inheritance is proved among the lineage turned around and repeated, and
the well is proved shallow when its depth is spelled as another number. -/
theorem lineage_finds_mono :
    (Finds lineage 4 (.node inheritance) ∧ lineage ⊆ lineage.reverse ++ lineage ∧
      Finds (lineage.reverse ++ lineage) 9 (.node inheritance)) ∧
    (Finds shallowWell 1 (.node (.assertion "well" "is" "shallow")) ∧
      Covers shallowWell' shallowWell ∧
      Finds shallowWell' 1 (.node (.assertion "well" "is" "shallow"))) := by
  constructor
  · have hfinds : Finds lineage 4 (.node inheritance) := by decide +kernel
    have hsub : lineage ⊆ lineage.reverse ++ lineage := List.subset_append_right _ _
    have hkeyed : ∀ w ∈ ways (lineage.reverse ++ lineage), w.IsKeyed := by decide +kernel
    refine ⟨hfinds, hsub, ?_⟩
    rcases (finds_mono _ _ 4 9 (by decide) _).1 hsub hfinds with h | ⟨⟨w, hw, hno⟩, -⟩
    · exact h
    · exact absurd (hkeyed w hw) hno
  · have hfinds : Finds shallowWell 1 (.node (.assertion "well" "is" "shallow")) := by
      decide +kernel
    have hsame : ∀ n ∈ shallowWell, ∃ m ∈ shallowWell', m.same n = true := by decide +kernel
    have hcov : Covers shallowWell' shallowWell := fun n hn => by
      obtain ⟨m, hm, hs⟩ := hsame n hn
      exact ⟨m, hm, (Node.same_iff m n).1 hs⟩
    have hkeyed : ∀ w ∈ ways shallowWell', w.IsKeyed := by decide +kernel
    exact ⟨hfinds, hcov, (finds_mono _ _ 1 1 (by decide) _).2.1 hcov hkeyed hfinds⟩

/-- The rain that falls makes the street wet, and so would a sprinkler that a
timer turns on by showing a list of numbers. -/
def wetStreet : List Node :=
  [Node.implies (.assertion "sky" "is" "raining") (.assertion "street" "is" "wet"),
   Node.implies (.assertion "sprinkler" "is" "on") (.assertion "street" "is" "wet"),
   Engine.timer, .assertion "sky" "is" "raining"]

/-- The same with the sprinkler first. -/
def wetStreet' : List Node :=
  [Node.implies (.assertion "sprinkler" "is" "on") (.assertion "street" "is" "wet"),
   Node.implies (.assertion "sky" "is" "raining") (.assertion "street" "is" "wet"),
   Engine.timer, .assertion "sky" "is" "raining"]

/-- The street is proved wet by the rain. When the sprinkler is tried first the
search is refused, although the nodes are the same. -/
theorem wetStreet_refused :
    wetStreet.Perm wetStreet' ∧
      Finds wetStreet 20 (.node (.assertion "street" "is" "wet")) ∧
      ¬ Finds wetStreet' 20 (.node (.assertion "street" "is" "wet")) := by
  refine ⟨List.Perm.swap _ _ _, ?_, ?_⟩
  · decide +kernel
  · decide +kernel

end TripleLogic.Proof
