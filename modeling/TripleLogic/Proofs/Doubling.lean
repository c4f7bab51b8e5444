/-
TripleLogic.Proofs.Doubling — a closure needs logarithmically many passes.

A pass sees what is above the superclasses of a concept, so it joins two ways
of which one ends where the other begins. Whatever is reached in at most `m`
steps before a pass is reached in at most `2 * m` steps after it
(`Reaches.pass`), in whatever order the concepts are gone through; that later
concepts see what earlier ones gained only adds to it.

* `Steps.within_card`: among finitely many names, what can be reached can be
  reached in no more steps than there are names.
* `close_eq_afterPasses`: what closing leaves are the passes that it counts,
  the last one included, which changed nothing if closing converged.
* `converged_of_reaches`: where all that can be reached is there after some
  passes, one more pass is enough to see that nothing is missing.

Main statement: after `k` passes of learning from a list each name has all
that edges lead to in at most `2 ^ k` steps, and with `n ≤ 2 ^ (b - 1)` names
a bound of `b` passes is never what ends the closure (`closure_doubles`).
-/
import Mathlib.Algebra.Group.Nat.Defs
import Mathlib.Data.Finset.Card
import Mathlib.Data.Finset.Dedup
import TripleLogic.Proofs.Reachability

open Relation (TransGen)

namespace TripleLogic

/-! ## Counted steps -/

/-- One value is reached from another by a number of steps, one or more. -/
inductive Steps {α : Type} (R : α → α → Prop) : Nat → α → α → Prop
  | single {a b : α} (hab : R a b) : Steps R 1 a b
  | tail {m : Nat} {a b c : α} (h : Steps R m a b) (hbc : R b c) : Steps R (m + 1) a c

namespace Steps

variable {α β : Type} {R : α → α → Prop} {a b : α} {m : Nat}

theorem pos (h : Steps R m a b) : 0 < m := by
  cases h <;> omega

theorem transGen (h : Steps R m a b) : TransGen R a b := by
  induction h with
  | single hab => exact .single hab
  | tail _ hbc ih => exact ih.tail hbc

/-- Steps are taken along with the values that they are between. -/
theorem lift {S : β → β → Prop} (f : α → β) (hf : ∀ a b, R a b → S (f a) (f b))
    (h : Steps R m a b) : Steps S m (f a) (f b) := by
  induction h with
  | single hab => exact .single (hf _ _ hab)
  | tail _ hbc ih => exact ih.tail (hf _ _ hbc)

/-- A way of several steps is one of fewer steps and the rest of it. -/
theorem split {k : Nat} (hk : 0 < k) (hkm : k < m) (h : Steps R m a b) :
    ∃ d, Steps R k a d ∧ Steps R (m - k) d b := by
  induction h with
  | single => omega
  | @tail m a b c h hbc ih =>
      by_cases hlt : k < m
      · obtain ⟨d, had, hdb⟩ := ih hlt
        have hlen : m + 1 - k = m - k + 1 := by omega
        exact ⟨d, had, hlen ▸ hdb.tail hbc⟩
      · have hkm' : k = m := by omega
        subst hkm'
        refine ⟨b, h, ?_⟩
        rw [Nat.add_sub_cancel_left]
        exact .single hbc

/-- What is reached in at most so many steps. -/
def Within (R : α → α → Prop) (k : Nat) (a b : α) : Prop :=
  ∃ m ≤ k, Steps R m a b

theorem Within.transGen {k : Nat} (h : Within R k a b) : TransGen R a b :=
  h.elim fun _ hm => hm.2.transGen

theorem Within.succ {k : Nat} (h : Within R k a b) : Within R (k + 1) a b :=
  h.imp fun _ hm => ⟨hm.1.trans k.le_succ, hm.2⟩

/-- Where one more step leads nowhere new, everything has been reached. -/
theorem within_of_transGen {k : Nat} (hstop : ∀ b, Within R (k + 1) a b → Within R k a b)
    (h : TransGen R a b) : Within R k a b := by
  induction h with
  | single hab => exact hstop _ ⟨1, Nat.le_add_left 1 k, .single hab⟩
  | tail _ hbc ih =>
      obtain ⟨m, hm, hab⟩ := ih
      exact hstop _ ⟨m + 1, Nat.succ_le_succ hm, hab.tail hbc⟩

open Classical in
/-- Either every number of steps up to some one leads to a new value, or
everything has been reached by then. -/
theorem le_card_or_within (names : Finset α) (hnames : ∀ b, TransGen R a b → b ∈ names) :
    ∀ k, k ≤ {b ∈ names | Within R k a b}.card ∨ ∀ b, TransGen R a b → Within R k a b
  | 0 => .inl (Nat.zero_le _)
  | k + 1 => by
      rcases le_card_or_within names hnames k with hk | hall
      · by_cases hstop : ∀ b, Within R (k + 1) a b → Within R k a b
        · exact .inr fun b hb => (within_of_transGen hstop hb).succ
        · push Not at hstop
          obtain ⟨b, hb, hnew⟩ := hstop
          have hsub : {b ∈ names | Within R k a b} ⊂ {b ∈ names | Within R (k + 1) a b} := by
            refine (Finset.ssubset_iff_of_subset
              (Finset.monotone_filter_right _ fun _ _ => .succ)).2 ⟨b, ?_, ?_⟩
            · exact Finset.mem_filter.2 ⟨hnames b hb.transGen, hb⟩
            · exact fun hmem => hnew (Finset.mem_filter.1 hmem).2
          exact .inl (Nat.lt_of_le_of_lt hk (Finset.card_lt_card hsub))
      · exact .inr fun b hb => (hall b hb).succ

/-- Among finitely many names, no way needs more steps than there are names. -/
theorem within_card (names : Finset α) (hnames : ∀ b, TransGen R a b → b ∈ names)
    (h : TransGen R a b) : Within R names.card a b := by
  classical
  rcases le_card_or_within names hnames names.card with hcard | hall
  · have heq := Finset.eq_of_subset_of_card_le (Finset.filter_subset _ _) hcard
    exact (Finset.mem_filter.1 (heq.symm ▸ hnames b h)).2
  · exact hall b h

end Steps

/-! ## Sets that closing leaves as they are -/

theorem Names.union_eq_self {names more : List Name} (h : ∀ n ∈ more, n ∈ names) :
    union names more = names := by
  induction more with
  | nil => rfl
  | cons n more ih =>
      have hn : insert names n = names := by simp [insert, h n List.mem_cons_self]
      have hstep : union names (n :: more) = union (insert names n) more := rfl
      rw [hstep, hn]
      exact ih fun m hm => h m (List.mem_cons_of_mem n hm)

namespace Hierarchy

variable {R : Name → Name → Prop} {h : Hierarchy}

theorem widened_of_closed {c : Name} (hclosed : ∀ d ∈ h.get c, ∀ n ∈ h.get d, n ∈ h.get c) :
    h.widened c = h.get c := by
  have key : ∀ parents : List Name, (∀ d ∈ parents, ∀ n ∈ h.get d, n ∈ h.get c) →
      parents.foldl (fun names parent => Names.union names (get h parent)) (h.get c) =
        h.get c := by
    intro parents
    induction parents with
    | nil => exact fun _ => rfl
    | cons d parents ih =>
        intro hparents
        rw [List.foldl_cons, Names.union_eq_self (hparents d List.mem_cons_self)]
        exact ih fun e he => hparents e (List.mem_cons_of_mem d he)
  exact key (h.get c) hclosed

/-- A pass over sets that are closed under going up changes nothing. -/
theorem pass_of_closed (hclosed : ∀ c d n, d ∈ h.get c → n ∈ h.get d → n ∈ h.get c) :
    pass h = (h, false) := by
  have key : ∀ cs : List Name, cs.foldl widen (h, false) = (h, false) := by
    intro cs
    induction cs with
    | nil => rfl
    | cons c cs ih =>
        have hc : h.widened c = h.get c :=
          widened_of_closed fun d hd n hn => hclosed c d n hd hn
        have hstep : widen (h, false) c = (h, false) := by simp [widen, hc]
        rw [List.foldl_cons, hstep, ih]
  exact key _

/-- A pass that reports no change has made none. -/
theorem pass_of_unchanged (hp : (pass h).2 = false) : pass h = (h, false) :=
  pass_of_closed fun _ _ _ hd hn => mem_get_of_pass hp hd hn

/-! ## What a pass adds -/

theorem mem_get_foldl_widen {d n : Name} : ∀ (cs : List Name) {state : Hierarchy × Bool},
    n ∈ state.1.get d → n ∈ (cs.foldl widen state).1.get d
  | [], _, hn => hn
  | _ :: cs, (_, _), hn => mem_get_foldl_widen cs (mem_get_widen.2 (Or.inl hn))

/-- After a pass a concept has what its superclasses had before it, whether
it was gone through before them or after them. -/
theorem mem_get_pass {c n : Name} (hn : n ∈ h.widened c) : n ∈ (pass h).1.get c := by
  have hc : c ∈ h.map Prod.fst := by
    rcases mem_widened.1 hn with hn | ⟨d, hd, -⟩
    · exact mem_keys_of_mem_get hn
    · exact mem_keys_of_mem_get hd
  -- the sets have only grown by the time that the concept's turn comes
  obtain ⟨before, after, hkeys⟩ := List.append_of_mem hc
  have hturn : n ∈ (before.foldl widen (h, false)).1.widened c := by
    rcases mem_widened.1 hn with hn | ⟨d, hd, hn⟩
    · exact mem_widened.2 (Or.inl (mem_get_foldl_widen before hn))
    · exact mem_widened.2
        (Or.inr ⟨d, mem_get_foldl_widen before hd, mem_get_foldl_widen before hn⟩)
  rw [pass, hkeys, List.foldl_append, List.foldl_cons]
  exact mem_get_foldl_widen after (mem_get_widen.2 (Or.inr ⟨rfl, hturn⟩))

/-- The sets hold all that is reached in at most so many steps. -/
def Reaches (R : Name → Name → Prop) (m : Nat) (h : Hierarchy) : Prop :=
  ∀ c n, Steps.Within R m c n → n ∈ h.get c

theorem Spans.reaches (hs : Spans R h) : Reaches R 1 h := by
  rintro c n ⟨m, hm, hcn⟩
  cases hcn with
  | single hcn => exact hs.direct c n hcn
  | tail hcd _ => exact absurd hcd.pos (by omega)

/-- **A pass doubles.** What was reached in at most `m` steps before a pass is
reached in at most `2 * m` steps after it. -/
theorem Reaches.pass {m : Nat} (hr : Reaches R m h) : Reaches R (2 * m) (pass h).1 := by
  rintro c n ⟨j, hj, hcn⟩
  refine mem_get_pass (mem_widened.2 ?_)
  by_cases hjm : j ≤ m
  · exact Or.inl (hr c n ⟨j, hjm, hcn⟩)
  · obtain ⟨d, hcd, hdn⟩ := hcn.split (by omega) (Nat.lt_of_not_le hjm)
    exact Or.inr ⟨d, hr c d ⟨m, Nat.le_refl m, hcd⟩, hr d n ⟨j - m, by omega, hdn⟩⟩

/-! ## Several passes -/

/-- A hierarchy after a number of passes. -/
def afterPasses (h : Hierarchy) : Nat → Hierarchy
  | 0 => h
  | k + 1 => afterPasses (Hierarchy.pass h).1 k

theorem Reaches.afterPasses : ∀ (k : Nat) {m : Nat} {h : Hierarchy}, Reaches R m h →
    Reaches R (m * 2 ^ k) (h.afterPasses k)
  | 0, m, h, hr => by simpa [Hierarchy.afterPasses] using hr
  | k + 1, m, h, hr => by
      have hlen : m * 2 ^ (k + 1) = 2 * m * 2 ^ k := by
        rw [Nat.pow_succ', ← Nat.mul_assoc, Nat.mul_comm m 2]
      rw [hlen]
      exact Reaches.afterPasses k hr.pass

/-- Closing leaves what its passes leave, and the last pass of a closure that
converged is one of them. -/
theorem close_eq_afterPasses (bound : Nat) (h : Hierarchy) :
    (h.close bound).1 = h.afterPasses (h.close bound).2.passes := by
  induction bound generalizing h with
  | zero => rfl
  | succ bound ih =>
      cases hp : (Hierarchy.pass h).2 with
      | false =>
          rw [close_of_unchanged hp]
          exact (congrArg Prod.fst (pass_of_unchanged hp)).symm
      | true =>
          rw [close_of_changed hp]
          exact ih (Hierarchy.pass h).1

/-- Where all that can be reached is there after some passes, a closure with
room for one more converges. -/
theorem converged_of_reaches (bound : Nat) {h : Hierarchy} (hs : Spans R h)
    (hall : ∀ c n, TransGen R c n → n ∈ (h.afterPasses bound).get c) :
    (h.close (bound + 1)).2.converged = true := by
  induction bound generalizing h with
  | zero =>
      have hp : Hierarchy.pass h = (h, false) := pass_of_closed fun c d n hd hn =>
        hall c n ((hs.reach c d hd).trans (hs.reach d n hn))
      rw [close_of_unchanged (by rw [hp])]
  | succ bound ih =>
      cases hp : (Hierarchy.pass h).2 with
      | false => rw [close_of_unchanged hp]
      | true =>
          rw [close_of_changed hp]
          exact ih hs.pass hall

end Hierarchy

namespace Ontology

/-! ## Passes of learning -/

/-- What is recorded of the statements among items, before closing. -/
def recorded (o : Ontology) (items : List Item) : Ontology :=
  ((Item.statements items).map Axiom.ofStatement).foldl record
    { o with hierarchy := [], instances := [] }

theorem learnItems_eq (o : Ontology) (items : List Item) :
    o.learnItems items = (o.recorded items).closeHierarchy :=
  rfl

/-- Learning closes what it has recorded within the bound of the settings. -/
theorem learnItems_close (o : Ontology) (items : List Item) :
    (o.learnItems items).1.hierarchy =
        ((o.recorded items).hierarchy.close o.settings.maxClosurePasses).1 ∧
      (o.learnItems items).2 =
        ((o.recorded items).hierarchy.close o.settings.maxClosurePasses).2 := by
  have hsettings : (o.recorded items).settings = o.settings :=
    (foldl_record_registered _ _).2.2
  rw [learnItems_eq, closeHierarchy, hsettings]
  exact ⟨rfl, rfl⟩

/-- The names that edges lead from and to. -/
def edgeNames (items : List Item) : Finset String :=
  (((Item.statements items).filter fun s => hierarchyRelations.contains s.relation.name).flatMap
    fun s => [s.subject.key, s.object.key]).toFinset

variable {items : List Item}

theorem mem_edgeNames {z : String} :
    z ∈ edgeNames items ↔ ∃ x y, Edge items x y ∧ (z = x ∨ z = y) := by
  simp only [edgeNames, List.mem_toFinset, List.mem_flatMap, List.mem_filter,
    Item.mem_statements, Edge, hierarchyRelations, List.contains_iff_mem, List.mem_cons,
    List.not_mem_nil, or_false]
  constructor
  · rintro ⟨s, ⟨hs, hr⟩, hz⟩
    exact ⟨_, _, ⟨s, hs, hr, rfl, rfl⟩, hz⟩
  · rintro ⟨_, _, ⟨s, hs, hr, rfl, rfl⟩, hz⟩
    exact ⟨s, ⟨hs, hr⟩, hz⟩

/-- What edges lead to is reached in at most as many of them as there are names. -/
theorem within_edgeNames {x y : String} (h : TransGen (Edge items) x y) :
    Steps.Within (Edge items) (edgeNames items).card x y := by
  refine Steps.within_card _ (fun z hz => ?_) h
  obtain ⟨w, -, hwz⟩ := TransGen.tail'_iff.1 hz
  exact mem_edgeNames.2 ⟨w, z, hwz, .inr rfl⟩

/-- After some passes each name has what edges lead to in at most `2 ^ k` steps. -/
theorem mem_afterPasses (o : Ontology) {k m : Nat} (hm : m ≤ 2 ^ k) {x y : String}
    (h : Steps (Edge items) m x y) :
    .text y ∈ ((o.recorded items).hierarchy.afterPasses k).get (.text x) := by
  have hreaches := (spans_recorded o ((Item.statements items).map Axiom.ofStatement)).reaches
  refine hreaches.afterPasses k (.text x) (.text y) ⟨m, by omega, ?_⟩
  exact h.lift Name.text fun a b hab => below_learned.2 ⟨a, b, rfl, rfl, edge_eq ▸ hab⟩

/-- **The closure doubles.** In learning from a list, after each number `k` of
passes of those that are run, the set of a name holds all that edges lead to
in at most `2 ^ k` steps; what is learned is the outcome of the passes that
are counted. So a bound of `b` passes is room enough for `2 ^ (b - 1)` names. -/
theorem closure_doubles (o : Ontology) (items : List Item) :
    (∀ k ≤ (o.learnItems items).2.passes, ∀ m ≤ 2 ^ k, ∀ x y, Steps (Edge items) m x y →
      .text y ∈ ((o.recorded items).hierarchy.afterPasses k).get (.text x)) ∧
    (o.learnItems items).1.hierarchy =
      (o.recorded items).hierarchy.afterPasses (o.learnItems items).2.passes ∧
    (1 ≤ o.settings.maxClosurePasses →
      (edgeNames items).card ≤ 2 ^ (o.settings.maxClosurePasses - 1) →
      (o.learnItems items).2.converged = true) := by
  obtain ⟨hhier, hclosure⟩ := learnItems_close o items
  refine ⟨fun k _ m hm x y h => mem_afterPasses o hm h, ?_, fun hb hcard => ?_⟩
  · rw [hhier, hclosure]
    exact Hierarchy.close_eq_afterPasses _ _
  · rw [hclosure]
    obtain ⟨b, hb⟩ := Nat.exists_eq_add_of_le' hb
    rw [hb] at hcard ⊢
    refine Hierarchy.converged_of_reaches b (spans_recorded o _) fun c n hcn => ?_
    obtain ⟨x, y, rfl, rfl, hxy⟩ := transGen_items.1 hcn
    obtain ⟨m, hm, hsteps⟩ := within_edgeNames hxy
    exact mem_afterPasses o (hm.trans hcard) hsteps

/-- Four classes in a circle, the last of them met first. -/
def square : List Item :=
  [.statement { subject := .concept "D", relation := { name := "is_a" }, object := .concept "A" },
   .statement { subject := .concept "A", relation := { name := "is_a" }, object := .concept "B" },
   .statement { subject := .concept "B", relation := { name := "is_a" }, object := .concept "C" },
   .statement { subject := .concept "C", relation := { name := "subclass_of" },
                object := .concept "D" }]

/-- Three passes are enough for the square, and the first of them leads over
two of its sides. -/
theorem square_converged :
    ((ofSettings { maxClosurePasses := 3 }).learnItems square).2.converged = true ∧
      .text "C" ∈ (((ofSettings { maxClosurePasses := 3 }).recorded square).hierarchy.afterPasses
        1).get (.text "A") := by
  have h := closure_doubles (ofSettings { maxClosurePasses := 3 }) square
  refine ⟨h.2.2 (by decide +kernel) (by decide +kernel), ?_⟩
  have hAB : Edge square "A" "B" := ⟨_, .tail _ (.head _), .inl rfl, rfl, rfl⟩
  have hBC : Edge square "B" "C" := ⟨_, .tail _ (.tail _ (.head _)), .inl rfl, rfl, rfl⟩
  exact h.1 1 (by decide +kernel) 2 (by decide) "A" "C" (.tail (.single hAB) hBC)

end Ontology

end TripleLogic
