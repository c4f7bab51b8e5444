/-
TripleLogic.Proofs.Hierarchy — closing a hierarchy computes reachability.

What a hierarchy is learned from is a relation between names: one name stands
directly below another when an axiom says so. Closing adds superclasses of
superclasses only, so at every point the sets of a hierarchy lie between the
names directly above a concept and those above it by any number of steps
(`Spans`). When a pass adds nothing, the sets are closed under going up, and
then they are all that is reachable (`mem_get_iff_of_converged`).

Main statement: after learning with a closure that converged, the
superclasses of a concept are the names above it by one or more axioms
(`mem_superclasses_iff`).
-/
import Mathlib.Logic.Relation
import TripleLogic.Ontology.Basic

open Relation (TransGen)

namespace TripleLogic

/-! ## Sets of names -/

namespace Names

theorem mem_insert {names : List Name} {n m : Name} :
    m ∈ insert names n ↔ m ∈ names ∨ m = n := by
  by_cases h : n ∈ names
  · simp only [insert, List.contains_iff_mem, h, if_true]
    exact ⟨Or.inl, fun hm => hm.elim id fun hmn => hmn ▸ h⟩
  · simp [insert, h]

theorem mem_union {names more : List Name} {m : Name} :
    m ∈ union names more ↔ m ∈ names ∨ m ∈ more := by
  induction more generalizing names with
  | nil => simp [union]
  | cons n more ih =>
      have hstep : union names (n :: more) = union (insert names n) more := rfl
      rw [hstep, ih, mem_insert, List.mem_cons, or_assoc]

theorem prefix_insert (names : List Name) (n : Name) : names <+: insert names n := by
  unfold insert
  split
  · exact List.prefix_refl _
  · exact List.prefix_append _ _

theorem prefix_union (names more : List Name) : names <+: union names more := by
  induction more generalizing names with
  | nil => exact List.prefix_refl _
  | cons n more ih => exact (prefix_insert names n).trans (ih (insert names n))

theorem mem_sorted {names : List Name} {m : String} : m ∈ sorted names ↔ .text m ∈ names := by
  rw [sorted, List.mem_mergeSort, List.mem_filterMap]
  simp only [Name.text?_eq_some_iff, exists_eq_right]

end Names

namespace Hierarchy

/-! ## The sets of a hierarchy -/

theorem lookup_replace_self {c : Name} {names : List Name} : ∀ {h : Hierarchy},
    (h.lookup c).isSome →
      (h.map fun e => if e.1 == c then (c, names) else e).lookup c = some names
  | [], hc => by simp at hc
  | (k, _) :: h, hc => by
      by_cases hk : k = c
      · simp [hk]
      · have hck : (c == k) = false := beq_eq_false_iff_ne.2 (Ne.symm hk)
        rw [List.lookup_cons, hck] at hc
        simpa [hk, List.lookup_cons, hck] using lookup_replace_self hc

theorem lookup_replace_ne {c d : Name} {names : List Name} (hd : d ≠ c) : ∀ (h : Hierarchy),
    (h.map fun e => if e.1 == c then (c, names) else e).lookup d = h.lookup d
  | [] => rfl
  | (k, ns) :: h => by
      by_cases hk : k = c
      · rw [List.map_cons, if_pos (beq_iff_eq.2 hk), List.lookup_cons, List.lookup_cons, hk,
          beq_eq_false_iff_ne.2 hd, lookup_replace_ne hd h]
      · rw [List.map_cons, if_neg (by simpa using hk), List.lookup_cons, List.lookup_cons,
          lookup_replace_ne hd h]

/-- Mapping a concept to a set changes what that concept is mapped to only. -/
theorem get_set (h : Hierarchy) (c : Name) (names : List Name) (d : Name) :
    (h.set c names).get d = if d = c then names else h.get d := by
  unfold get set
  by_cases hd : d = c
  · subst hd
    split
    · next hc => rw [lookup_replace_self hc, if_pos rfl, Option.getD_some]
    · next hc => simp [List.lookup_append, Option.not_isSome_iff_eq_none.1 hc]
  · split
    · rw [lookup_replace_ne hd]
    · simp [List.lookup_append, List.lookup_cons, beq_eq_false_iff_ne.2 hd]

/-- A concept with superclasses is one of the hierarchy. -/
theorem mem_keys_of_mem_get {h : Hierarchy} {c n : Name} (hn : n ∈ h.get c) :
    c ∈ h.map Prod.fst := by
  unfold get at hn
  cases hl : h.lookup c with
  | none => simp [hl] at hn
  | some names =>
      obtain ⟨p, hp, hpc⟩ := List.lookup_isSome_iff.1 (Option.isSome_of_eq_some hl)
      exact List.mem_map.2 ⟨p, hp, (eq_of_beq hpc).symm⟩

theorem mem_get_add {h : Hierarchy} {c n d m : Name} :
    m ∈ (h.add c n).get d ↔ m ∈ h.get d ∨ (d = c ∧ m = n) := by
  rw [add, get_set]
  by_cases hd : d = c
  · subst hd
    simp [Names.mem_insert]
  · simp [hd]

theorem mem_widened {h : Hierarchy} {c n : Name} :
    n ∈ h.widened c ↔ n ∈ h.get c ∨ ∃ d ∈ h.get c, n ∈ h.get d := by
  have key : ∀ (parents names : List Name),
      n ∈ parents.foldl (fun names parent => Names.union names (get h parent)) names ↔
        n ∈ names ∨ ∃ d ∈ parents, n ∈ h.get d := by
    intro parents
    induction parents with
    | nil => simp
    | cons d parents ih => simp [ih, Names.mem_union, or_assoc]
  exact key (h.get c) (h.get c)

theorem prefix_widened (h : Hierarchy) (c : Name) : h.get c <+: h.widened c := by
  have key : ∀ (parents names : List Name),
      names <+: parents.foldl (fun names parent => Names.union names (get h parent)) names := by
    intro parents
    induction parents with
    | nil => exact fun names => List.prefix_refl _
    | cons d parents ih => exact fun names => (Names.prefix_union _ _).trans (ih _)
  exact key (h.get c) (h.get c)

/-- A concept that would gain no name has those above its superclasses already. -/
theorem widened_eq_get {h : Hierarchy} {c : Name}
    (hle : (h.widened c).length ≤ (h.get c).length) : h.widened c = h.get c :=
  ((prefix_widened h c).eq_of_length_le hle).symm

/-- Widening a concept adds the names above its superclasses to its set. -/
theorem mem_get_widen {h : Hierarchy} {changed : Bool} {c d n : Name} :
    n ∈ (widen (h, changed) c).1.get d ↔ n ∈ h.get d ∨ (d = c ∧ n ∈ h.widened c) := by
  by_cases hlt : (h.get c).length < (h.widened c).length
  · simp only [widen, hlt, if_true, get_set]
    by_cases hd : d = c
    · subst hd
      simp [mem_widened]
    · simp [hd]
  · have hsame : widen (h, changed) c = (h, changed) := by simp only [widen, hlt, if_false]
    rw [hsame, widened_eq_get (Nat.le_of_not_lt hlt)]
    refine ⟨Or.inl, ?_⟩
    rintro (hn | ⟨rfl, hn⟩)
    · exact hn
    · exact hn

/-! ## What closing keeps -/

/-- The sets of a hierarchy hold what stands directly above a concept, and
nothing that cannot be reached from it. -/
structure Spans (R : Name → Name → Prop) (h : Hierarchy) : Prop where
  direct : ∀ c n, R c n → n ∈ h.get c
  reach : ∀ c n, n ∈ h.get c → TransGen R c n

variable {R : Name → Name → Prop}

theorem Spans.widen {h : Hierarchy} (hs : Spans R h) (changed : Bool) (c : Name) :
    Spans R (widen (h, changed) c).1 where
  direct d n hdn := mem_get_widen.2 (Or.inl (hs.direct d n hdn))
  reach d n hn := by
    rcases mem_get_widen.1 hn with hn | ⟨rfl, hn⟩
    · exact hs.reach d n hn
    · rcases mem_widened.1 hn with hn | ⟨e, he, hn⟩
      · exact hs.reach d n hn
      · exact (hs.reach d e he).trans (hs.reach e n hn)

theorem Spans.foldl_widen (cs : List Name) : ∀ {state : Hierarchy × Bool}, Spans R state.1 →
    Spans R (cs.foldl Hierarchy.widen state).1 := by
  induction cs with
  | nil => exact fun hs => hs
  | cons c cs ih => exact fun hs => ih (hs.widen _ c)

/-- A pass keeps the sets between direct and reachable superclasses. -/
theorem Spans.pass {h : Hierarchy} (hs : Spans R h) : Spans R (pass h).1 :=
  hs.foldl_widen _

/-! ## One round of closing -/

/-- A pass that adds nothing ends the closure. -/
theorem close_of_unchanged {h : Hierarchy} (hp : (Hierarchy.pass h).2 = false) (bound : Nat) :
    h.close (bound + 1) = (h, { passes := 1, converged := true }) := by
  obtain ⟨h', changed, heq⟩ : ∃ h' changed, Hierarchy.pass h = (h', changed) := ⟨_, _, rfl⟩
  rw [heq] at hp
  rw [close, heq, show changed = false from hp]

/-- After a pass that adds something what it leaves is closed. -/
theorem close_of_changed {h : Hierarchy} (hp : (Hierarchy.pass h).2 = true) (bound : Nat) :
    h.close (bound + 1) = (((Hierarchy.pass h).1.close bound).1,
      { ((Hierarchy.pass h).1.close bound).2 with
        passes := ((Hierarchy.pass h).1.close bound).2.passes + 1 }) := by
  obtain ⟨h', changed, heq⟩ : ∃ h' changed, Hierarchy.pass h = (h', changed) := ⟨_, _, rfl⟩
  rw [heq] at hp
  rw [close, heq, show changed = true from hp]

/-- Closing keeps the sets between direct and reachable superclasses, whether
it converges or not. -/
theorem Spans.close (bound : Nat) {h : Hierarchy} (hs : Spans R h) :
    Spans R (h.close bound).1 := by
  induction bound generalizing h with
  | zero => exact hs
  | succ bound ih =>
      cases hp : (Hierarchy.pass h).2 with
      | false => exact (close_of_unchanged hp bound).symm ▸ hs
      | true => exact (close_of_changed hp bound).symm ▸ ih hs.pass

/-! ## Passes that add nothing -/

/-- What has gained names is not forgotten. -/
theorem foldl_widen_true : ∀ (cs : List Name) (h : Hierarchy),
    (cs.foldl widen (h, true)).2 = true
  | [], _ => rfl
  | c :: cs, h => by
      have hstep : ∃ h', widen (h, true) c = (h', true) := by
        unfold widen
        dsimp only
        split
        · exact ⟨_, rfl⟩
        · exact ⟨_, rfl⟩
      obtain ⟨h', hh'⟩ := hstep
      rw [List.foldl_cons, hh']
      exact foldl_widen_true cs h'

/-- A fold that changes nothing has found nothing to widen. -/
theorem widened_of_foldl_widen {h : Hierarchy} : ∀ {cs : List Name},
    (cs.foldl widen (h, false)).2 = false → ∀ c ∈ cs, h.widened c = h.get c := by
  intro cs
  induction cs with
  | nil => simp
  | cons c cs ih =>
      intro hf
      by_cases hlt : (h.get c).length < (h.widened c).length
      · simp [widen, hlt, foldl_widen_true] at hf
      · have hc : h.widened c = h.get c := widened_eq_get (Nat.le_of_not_lt hlt)
        have hstep : widen (h, false) c = (h, false) := by simp [widen, hlt]
        rw [List.foldl_cons, hstep] at hf
        intro d hd
        rcases List.mem_cons.1 hd with rfl | hd
        · exact hc
        · exact ih hf d hd

theorem pass_of_converged (bound : Nat) {h : Hierarchy}
    (hc : (h.close bound).2.converged = true) : (pass (h.close bound).1).2 = false := by
  induction bound generalizing h with
  | zero => cases hc
  | succ bound ih =>
      cases hp : (pass h).2 with
      | false => rwa [close_of_unchanged hp]
      | true =>
          rw [close_of_changed hp] at hc ⊢
          exact ih hc

/-- Where a pass adds nothing, what is above a superclass is a superclass. -/
theorem mem_get_of_pass {h : Hierarchy} (hp : (pass h).2 = false) {c d n : Name}
    (hd : d ∈ h.get c) (hn : n ∈ h.get d) : n ∈ h.get c := by
  rw [← widened_of_foldl_widen hp c (mem_keys_of_mem_get hd)]
  exact mem_widened.2 (Or.inr ⟨d, hd, hn⟩)

/-- **Closing computes reachability.** When it converged, the superclasses of
a concept are what can be reached from it in one or more steps. -/
theorem mem_get_iff_of_converged {h : Hierarchy} (hs : Spans R h) {bound : Nat}
    (hc : (h.close bound).2.converged = true) {c n : Name} :
    n ∈ (h.close bound).1.get c ↔ TransGen R c n := by
  have hclosed := hs.close bound
  have hpass := pass_of_converged bound hc
  refine ⟨hclosed.reach c n, fun hr => ?_⟩
  induction hr using TransGen.head_induction_on with
  | single hcn => exact hclosed.direct _ _ hcn
  | head hcd _ ih => exact mem_get_of_pass hpass (hclosed.direct _ _ hcd) ih

end Hierarchy

/-! ## Learning -/

/-- An axiom says that one name stands directly below another. -/
def Axiom.Links (a : Axiom) (c n : Name) : Prop :=
  a.relation ∈ Ontology.hierarchyRelations ∧ Name.ofData? a.subject = some c ∧
    Name.ofData? a.object = some n

namespace Ontology

/-- Some axiom says that one name stands directly below another. -/
def Below (axioms : List Axiom) (c n : Name) : Prop :=
  ∃ a ∈ axioms, a.Links c n

theorem mem_get_record {o : Ontology} {a : Axiom} {c n : Name} :
    n ∈ (o.record a).hierarchy.get c ↔ n ∈ o.hierarchy.get c ∨ a.Links c n := by
  by_cases hr : a.relation ∈ hierarchyRelations
  · have hrec : (o.record a).hierarchy = extended o.hierarchy a := by simp [record, hr]
    rw [hrec, extended]
    split
    · next x y hx hy =>
        rw [Hierarchy.mem_get_add]
        simp [Axiom.Links, hr, hx, hy, eq_comm]
    · next hnone =>
        refine ⟨Or.inl, fun h => h.elim id fun hl => ?_⟩
        exact absurd hl.2.2 (fun hy => hnone _ _ hl.2.1 hy)
  · have hrec : (o.record a).hierarchy = o.hierarchy := by
      unfold record
      rw [if_neg (by simpa using hr)]
      split <;> rfl
    rw [hrec]
    simp [Axiom.Links, hr]

theorem mem_get_foldl_record (axioms : List Axiom) : ∀ {o : Ontology} {c n : Name},
    n ∈ (axioms.foldl record o).hierarchy.get c ↔ n ∈ o.hierarchy.get c ∨ Below axioms c n := by
  induction axioms with
  | nil => simp [Below]
  | cons a axioms ih =>
      intro o c n
      rw [List.foldl_cons, ih, mem_get_record]
      simp [Below, or_assoc]

/-- What learning does not touch: the constraints, the disjoint classes and
the settings. -/
theorem foldl_record_registered (axioms : List Axiom) (o : Ontology) :
    (axioms.foldl record o).constraints = o.constraints ∧
      (axioms.foldl record o).disjoint = o.disjoint ∧
      (axioms.foldl record o).settings = o.settings := by
  induction axioms generalizing o with
  | nil => exact ⟨rfl, rfl, rfl⟩
  | cons a axioms ih =>
      have hrec : (o.record a).constraints = o.constraints ∧
          (o.record a).disjoint = o.disjoint ∧ (o.record a).settings = o.settings := by
        unfold record
        split
        · exact ⟨rfl, rfl, rfl⟩
        · split <;> exact ⟨rfl, rfl, rfl⟩
      obtain ⟨hconstraints, hdisjoint, hsettings⟩ := ih (o.record a)
      exact ⟨hconstraints.trans hrec.1, hdisjoint.trans hrec.2.1, hsettings.trans hrec.2.2⟩

/-- Learning leaves constraints and disjoint classes as they are. -/
theorem learn_registered (o : Ontology) (axioms : List Axiom) :
    (o.learn axioms).1.constraints = o.constraints ∧
      (o.learn axioms).1.disjoint = o.disjoint :=
  (foldl_record_registered axioms _).imp_right And.left

/-- Before closing, the superclasses are what stands directly above. -/
theorem spans_recorded (o : Ontology) (axioms : List Axiom) :
    (axioms.foldl record { o with hierarchy := [], instances := [] }).hierarchy.Spans
      (Below axioms) where
  direct c n hcn := (mem_get_foldl_record axioms).2 (Or.inr hcn)
  reach c n hn := by
    rcases (mem_get_foldl_record axioms).1 hn with hn | hcn
    · simp [Hierarchy.get] at hn
    · exact .single hcn

/-- **Learning computes reachability.** After a closure that converged, the
superclasses of a concept are the names above it by one or more axioms. -/
theorem mem_superclasses_iff {o : Ontology} {axioms : List Axiom}
    (hc : (o.learn axioms).2.converged = true) {c n : Name} :
    n ∈ (o.learn axioms).1.superclasses c ↔ TransGen (Below axioms) c n :=
  Hierarchy.mem_get_iff_of_converged (spans_recorded o axioms) hc

/-! ## Classes of instances -/

/-- The classes of an instance are those it is put into, and what these are
mapped to. -/
theorem mem_classes {o : Ontology} {i n : Name} :
    n ∈ o.classes i ↔
      n ∈ o.instances.get i ∨ ∃ d ∈ o.instances.get i, n ∈ o.hierarchy.get d := by
  have hfold : ∀ (cs names : List Name),
      n ∈ cs.foldl (fun names c => Names.union (Names.insert names c) (o.hierarchy.get c)) names ↔
        n ∈ names ∨ n ∈ cs ∨ ∃ d ∈ cs, n ∈ o.hierarchy.get d := by
    intro cs
    induction cs with
    | nil => simp
    | cons c cs ih =>
        intro names
        simp only [List.foldl_cons, ih, Names.mem_union, Names.mem_insert, List.mem_cons,
          exists_eq_or_imp]
        simp only [or_assoc, or_left_comm]
  simpa [classes] using hfold (o.instances.get i) []

theorem isSubclass_iff {o : Ontology} {a b : Name} :
    o.isSubclass a b = true ↔ a = b ∨ b ∈ o.hierarchy.get a := by
  simp [isSubclass]

theorem isInstance_iff {o : Ontology} {i c : Name} :
    o.isInstance i c = true ↔ ∃ d ∈ o.instances.get i, d = c ∨ c ∈ o.hierarchy.get d := by
  simp [isInstance, isSubclass_iff]

end Ontology

end TripleLogic
