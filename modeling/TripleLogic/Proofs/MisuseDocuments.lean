/-
TripleLogic.Proofs.MisuseDocuments — the ontology documents and the settings in
which a value is misused before anything else is found wrong.

A document goes wrong in this way at constraints or disjoint classes that
cannot be gone through (`Document.ofData_misuses_iff`), and later on at lists
and objects where names are wanted (`Document.assertKeys_misuses_iff`).
Settings go wrong where they or one of their sections are no objects, and where
a bound is no number (`Settings.ofData_misuses_iff`).
-/
import TripleLogic.Ontology.Document
import TripleLogic.Proofs.Misuse
import TripleLogic.Settings

namespace TripleLogic

/-! ## Ontology documents -/

namespace Document

theorem misuses_itemsOf_iff {fields : Fields} {key : String} :
    Misuses (itemsOf fields key) ↔ ∃ v, fields.get? key = some v ∧ v.items? = none := by
  unfold itemsOf
  split
  · next h => simp [h]
  · next v h => simp [h, Data.misuses_itemsOr_iff]

@[simp]
theorem not_misuses_constraintOfData (d : Data) : ¬ Misuses (constraintOfData d) := by
  unfold constraintOfData
  split
  · nofun
  · next h =>
      rintro ⟨m, hm⟩
      exact h m hm

@[simp]
theorem not_misuses_pairOfData (d : Data) : ¬ Misuses (pairOfData d) := by
  unfold pairOfData
  split
  · simp
  · nofun

@[simp]
theorem not_misuses_withinHierarchy {α : Type} (r : Except Fault α) :
    ¬ Misuses (withinHierarchy r) := by
  unfold withinHierarchy
  split
  · nofun
  · next h =>
      rintro ⟨m, hm⟩
      exact h m hm

/-- Reading a document misuses its constraints, or, when these are in order,
its disjoint classes: they cannot be gone through. -/
def Misread (d : Data) : Prop :=
  ∃ fields : Fields, d = .obj fields ∧
    ((∃ v, fields.get? "constraints" = some v ∧ v.items? = none) ∨
      (∃ items, itemsOf fields "constraints" = .ok items ∧
        (∀ c ∈ items, ∃ k, constraintOfData c = .ok k) ∧
        ∃ v, fields.get? "disjoint" = some v ∧ v.items? = none))

/-- Reading a document misuses nothing but its constraints and its disjoint
classes. -/
theorem ofData_misuses_iff {d : Data} : Misuses (ofData d) ↔ Misread d := by
  cases d with
  | obj fields =>
      simp [ofData, misuses_bind_iff, misuses_itemsOf_iff, misuses_mapM_iff, Misread,
        FirstUnread, exists_mapM_iff]
  | _ => exact iff_of_false (not_misuses_ontology _) (by simp [Misread])

/-- A document has a list or an object where a name is wanted. -/
def Misnamed (d : Document) : Prop :=
  (∃ c ∈ d.constraints, c.relation.isContainer = true) ∨
    ∃ a ∈ d.axioms, a.subject.isContainer = true ∨ a.object.isContainer = true

/-- Constraints are refused at the first whose relation is a list or an object. -/
theorem misuses_forM_assertKey {cs : List Constraint} :
    Misuses (forM cs Constraint.assertKey) ↔ ∃ c ∈ cs, c.relation.isContainer = true := by
  induction cs with
  | nil => exact iff_of_false (not_misuses_pure ()) nofun
  | cons c cs ih =>
      rw [List.forM_cons, misuses_bind_iff, List.exists_mem_cons_iff, ih, Constraint.assertKey]
      cases c.relation.isContainer <;> simp

theorem forM_assertKey_eq_ok {cs : List Constraint}
    (h : ∀ c ∈ cs, c.relation.isContainer = false) : forM cs Constraint.assertKey = .ok () := by
  induction cs with
  | nil => rfl
  | cons c cs ih =>
      obtain ⟨hc, hcs⟩ := List.forall_mem_cons.1 h
      rw [List.forM_cons, Constraint.assertKey, hc]
      exact ih hcs

theorem findSome?_misnamed?_eq_none {as : List Axiom} :
    as.findSome? Axiom.misnamed? = none ↔
      ¬ ∃ a ∈ as, a.subject.isContainer = true ∨ a.object.isContainer = true := by
  simp [List.findSome?_eq_none_iff, Axiom.misnamed?]

/-- A document is refused exactly when it has a list or an object where a name
is wanted. -/
theorem assertKeys_misuses_iff {d : Document} : Misuses d.assertKeys ↔ d.Misnamed := by
  rw [assertKeys, List.forM_eq_forM, misuses_bind_iff, misuses_forM_assertKey, Misnamed]
  by_cases hc : ∃ c ∈ d.constraints, c.relation.isContainer = true
  · exact iff_of_true (Or.inl hc) (Or.inl hc)
  · refine or_congr_right ?_
    have hnone : ∀ c ∈ d.constraints, c.relation.isContainer = false := by simpa using hc
    simp only [forM_assertKey_eq_ok hnone]
    rw [← not_iff_not, ← findSome?_misnamed?_eq_none]
    cases d.axioms.findSome? Axiom.misnamed? with
    | none => simp
    | some v => exact iff_of_false (not_not_intro ⟨(), trivial, misuses_misuse _⟩) nofun

/-- A document that is not refused is accepted. -/
theorem assertKeys_eq_ok {d : Document} (h : ¬ d.Misnamed) : d.assertKeys = .ok () := by
  obtain ⟨hcs, has⟩ := not_or.1 h
  rw [assertKeys, List.forM_eq_forM, forM_assertKey_eq_ok (by simpa using hcs),
    findSome?_misnamed?_eq_none.2 has]
  rfl

end Document

/-! ## Settings -/

namespace Settings

/-- No unknown key of a value is reported: it cannot be gone through, its parts
are no keys or cannot be put in order, or it has no unknown ones. -/
def Unreported (allowed : List String) (d : Data) : Prop :=
  ∀ ks, unknownKeys allowed d = .ok ks → ks = []

theorem sortedKeys_cases (keys : List Data) :
    Misuses (sortedKeys keys) ∨ ∃ ks, sortedKeys keys = .ok ks := by
  unfold sortedKeys
  split
  · exact Or.inr ⟨_, rfl⟩
  · exact Or.inr ⟨_, rfl⟩
  · split
    · exact Or.inr ⟨_, rfl⟩
    · split
      · exact Or.inr ⟨_, rfl⟩
      · exact Or.inl (misuses_misuse _)

/-- Looking for unknown keys fails only at a misused value. -/
theorem unknownKeys_cases (allowed : List String) (d : Data) :
    Misuses (unknownKeys allowed d) ∨ ∃ ks, unknownKeys allowed d = .ok ks := by
  unfold unknownKeys
  cases hitems : d.itemsOr with
  | error f =>
      unfold Data.itemsOr at hitems
      split at hitems
      · cases hitems
      · cases hitems
        exact Or.inl (misuses_misuse _)
  | ok keys =>
      rw [Node.ok_bind]
      split
      · exact Or.inl (misuses_misuse _)
      · exact sortedKeys_cases _

/-- Where a function has a value for every item, it has one for a list. -/
theorem mapM_ne_none {α β : Type} {f : α → Option β} {xs : List α}
    (h : ∀ x ∈ xs, (f x).isSome = true) : xs.mapM f ≠ none := by
  induction xs with
  | nil => simp
  | cons x xs ih =>
      obtain ⟨hx, hxs⟩ := List.forall_mem_cons.1 h
      obtain ⟨y, hy⟩ := Option.isSome_iff_exists.1 hx
      obtain ⟨ys, hys⟩ := Option.ne_none_iff_exists'.1 (ih hxs)
      simp [List.mapM_cons, hy, hys]

theorem ne_nil_of_mapM_cons {α β : Type} {f : α → Option β} {x : α} {xs : List α} {ys : List β}
    (h : (x :: xs).mapM f = some ys) : ys ≠ [] := by
  rintro rfl
  simp [List.mapM_cons, Option.bind_eq_some_iff] at h

/-- Texts can be put in order. -/
theorem sortedKeys_of_texts {keys : List Data} (h : ∀ k ∈ keys, ∃ s, k = .str s) :
    ∃ ks, sortedKeys keys = .ok ks ∧ (ks = [] ↔ keys = []) := by
  unfold sortedKeys
  split
  · exact ⟨[], rfl, Iff.rfl⟩
  · exact ⟨_, rfl, Iff.rfl⟩
  · next first second rest =>
      split
      · next numbers hnum =>
          obtain ⟨s, rfl⟩ := h first (by simp)
          simp [List.mapM_cons, Data.number?] at hnum
      · split
        · next texts htexts =>
            refine ⟨_, rfl, iff_of_false ?_ (List.cons_ne_nil _ _)⟩
            rw [List.map_eq_nil_iff, ← List.length_eq_zero_iff, List.length_mergeSort,
              List.length_eq_zero_iff]
            exact ne_nil_of_mapM_cons htexts
        · next hnone =>
            refine absurd hnone (mapM_ne_none fun k hk => ?_)
            obtain ⟨s, rfl⟩ := h k hk
            rfl

theorem mem_distinctKeys {k : Data} : ∀ (keys seen : List Data),
    k ∈ distinctKeys seen keys → k ∈ seen ∨ k ∈ keys
  | [], _, h => Or.inl h
  | x :: keys, seen, h => by
      rw [distinctKeys] at h
      split at h
      · exact (mem_distinctKeys keys seen h).imp_right (List.mem_cons_of_mem x)
      · rcases mem_distinctKeys keys _ h with h | h
        · rcases List.mem_append.1 h with h | h
          · exact Or.inl h
          · exact Or.inr (List.mem_cons.2 (Or.inl (List.mem_singleton.1 h)))
        · exact Or.inr (List.mem_cons_of_mem x h)

theorem distinctKeys_ne_nil : ∀ (keys : List Data) {seen : List Data}, seen ≠ [] →
    distinctKeys seen keys ≠ []
  | [], _, h => h
  | x :: keys, seen, h => by
      rw [distinctKeys]
      split
      · exact distinctKeys_ne_nil keys h
      · exact distinctKeys_ne_nil keys (by simp)

theorem distinctKeys_eq_nil {keys : List Data} : distinctKeys [] keys = [] ↔ keys = [] := by
  cases keys with
  | nil => exact iff_of_true rfl rfl
  | cons k keys => exact iff_of_false (distinctKeys_ne_nil keys (by simp)) nofun

/-- The keys of an object are gone through and put in order. -/
theorem unknownKeys_obj (allowed : List String) (fields : Fields) :
    ∃ ks, unknownKeys allowed (.obj fields) = .ok ks ∧
      (ks = [] ↔ ∀ f ∈ fields, f.1 ∈ allowed) := by
  have hfind : (fields.map fun f => Data.str f.1).find? Data.isContainer = none := by
    simp [Data.isContainer]
  have htexts : ∀ k ∈ distinctKeys [] ((fields.map fun f => Data.str f.1).filter fun k =>
      !allowed.any fun a => k.isText a), ∃ s, k = .str s := by
    intro k hk
    rcases mem_distinctKeys _ _ hk with hk | hk
    · cases hk
    · obtain ⟨f, -, rfl⟩ := List.mem_map.1 (List.mem_filter.1 hk).1
      exact ⟨f.1, rfl⟩
  obtain ⟨ks, hks, hnil⟩ := sortedKeys_of_texts htexts
  refine ⟨ks, ?_, ?_⟩
  · simp only [unknownKeys, Data.itemsOr, Data.items?, Node.ok_bind, hfind]
    exact hks
  · rw [hnil, distinctKeys_eq_nil, List.filter_eq_nil_iff, List.forall_mem_map]
    simp [Data.isText]

/-- Of the keys of an object none are reported when all are known. -/
theorem unreported_obj_iff {allowed : List String} {fields : Fields} :
    Unreported allowed (.obj fields) ↔ ∀ f ∈ fields, f.1 ∈ allowed := by
  obtain ⟨ks, hks, hnil⟩ := unknownKeys_obj allowed fields
  rw [← hnil]
  exact ⟨fun h => h ks hks, fun h ks' hks' => by cases hks'.symm.trans hks; exact h⟩

/-- Reading a section misuses it when it is no object. -/
theorem sectionFields_misuses_iff {record group : String} {allowed : List String} {d : Data} :
    Misuses (sectionFields record group allowed d) ↔
      Unreported allowed d ∧ ∀ fields, d ≠ .obj fields := by
  cases d with
  | obj fields =>
      obtain ⟨ks, hks, -⟩ := unknownKeys_obj allowed fields
      refine iff_of_false ?_ fun h => h.2 fields rfl
      rw [sectionFields, hks, Node.ok_bind]
      cases ks
      · exact not_misuses_pure fields
      · nofun
  | _ =>
      refine ⟨fun h => ⟨fun ks hks => ?_, nofun⟩, fun ⟨h, _⟩ => ?_⟩
      · unfold sectionFields at h
        rw [hks, Node.ok_bind] at h
        cases ks
        · rfl
        · obtain ⟨m, hm⟩ := h
          cases hm
      · rcases unknownKeys_cases allowed _ with hm | ⟨ks, hks⟩
        · exact misuses_bind_iff.2 (Or.inl hm)
        · unfold sectionFields
          rw [hks, Node.ok_bind]
          cases h ks hks
          exact misuses_misuse _

theorem sectionFields_eq_ok_iff {record group : String} {allowed : List String} {d : Data}
    {fields : Fields} :
    sectionFields record group allowed d = .ok fields ↔
      Unreported allowed d ∧ d = .obj fields := by
  cases d with
  | obj fields' =>
      obtain ⟨ks, hks, hnil⟩ := unknownKeys_obj allowed fields'
      rw [unreported_obj_iff, ← hnil, sectionFields, hks, Node.ok_bind]
      cases ks
      · simp [pure, Except.pure]
      · exact iff_of_false nofun (by simp)
  | _ =>
      refine iff_of_false (fun h => ?_) (by simp)
      obtain ⟨ks, -, h⟩ := bind_eq_ok_iff.1 h
      cases ks <;> cases h

/-- A bound is misused when it is no number. -/
theorem bound_misuses_iff {record key : String} {fields : Fields} :
    Misuses (bound record key fields) ↔
      ∃ v, fields.get? key = some v ∧ v.number? = none := by
  unfold bound
  split
  · next h => simp [h]
  · next v h =>
      split
      · next n hn =>
          split
          · exact iff_of_false nofun (by simp [h, hn])
          · simp [h, hn]
      · next hn => simp [h, hn]

/-- Reading a section goes wrong at a value that is no object, or at a bound
that is no number. -/
def SectionMisread (record : String) (allowed bounds : List String) (d : Data) : Prop :=
  Unreported allowed d ∧ ∀ fields : Fields, d = .obj fields →
    FirstUnread (fun key => bound record key fields)
      (fun key => ∃ v, fields.get? key = some v ∧ v.number? = none) bounds

theorem sectionMisread_iff (record' group : String) {record : String} {allowed bounds : List String}
    {d : Data} :
    SectionMisread record allowed bounds d ↔
      Misuses (sectionFields record' group allowed d) ∨
        ∃ fields, sectionFields record' group allowed d = .ok fields ∧
          Misuses (bounds.mapM fun key => bound record key fields) := by
  simp only [SectionMisread, sectionFields_misuses_iff, sectionFields_eq_ok_iff, misuses_mapM_iff,
    bound_misuses_iff]
  cases d <;> simp

theorem inferenceOfData_misuses_iff {d : Data} :
    Misuses (inferenceOfData d) ↔
      SectionMisread "InferenceConfig" inferenceKeys
        ["max_forward_iterations", "max_proof_depth", "saturation_iterations"] d := by
  rw [sectionMisread_iff "aiql.core.config.InferenceConfig" "inference"]
  simp [inferenceOfData, passBound, depthBound, misuses_bind_iff, List.mapM_cons]

theorem ontologyOfData_misuses_iff {d : Data} :
    Misuses (ontologyOfData d) ↔
      SectionMisread "OntologyConfig" ontologyKeys ["max_closure_iterations"] d := by
  rw [sectionMisread_iff "aiql.core.config.OntologyConfig" "ontology"]
  simp [ontologyOfData, passBound, misuses_bind_iff, List.mapM_cons]

/-- Reading settings goes wrong at a value that is no object, or in one of the
sections. -/
def Misread (d : Data) : Prop :=
  Unreported sections d ∧ ∀ fields : Fields, d = .obj fields →
    SectionMisread "InferenceConfig" inferenceKeys
        ["max_forward_iterations", "max_proof_depth", "saturation_iterations"]
        ((fields.get? "inference").getD (.obj [])) ∨
      (∃ s, inferenceOfData ((fields.get? "inference").getD (.obj [])) = .ok s) ∧
        SectionMisread "OntologyConfig" ontologyKeys ["max_closure_iterations"]
          ((fields.get? "ontology").getD (.obj []))

/-- Reading settings misuses a value exactly when the value is met before
anything else is wrong. -/
theorem ofData_misuses_iff {d : Data} : Misuses (ofData d) ↔ Misread d := by
  cases d with
  | obj fields =>
      obtain ⟨ks, hks, hnil⟩ := unknownKeys_obj sections fields
      rw [Misread, unreported_obj_iff, ← hnil]
      unfold ofData
      rw [hks, Node.ok_bind]
      cases ks with
      | nil =>
          simp [misuses_bind_iff, inferenceOfData_misuses_iff, ontologyOfData_misuses_iff]
      | cons k ks => exact iff_of_false nofun (by simp)
  | _ =>
      refine ⟨fun h => ⟨fun ks hks => ?_, nofun⟩, fun ⟨h, _⟩ => ?_⟩
      · unfold ofData at h
        rw [hks, Node.ok_bind] at h
        cases ks
        · rfl
        · obtain ⟨m, hm⟩ := h
          cases hm
      · rcases unknownKeys_cases sections _ with hm | ⟨ks, hks⟩
        · exact misuses_bind_iff.2 (Or.inl hm)
        · unfold ofData
          rw [hks, Node.ok_bind]
          cases h ks hks
          exact misuses_misuse _

end Settings

end TripleLogic
