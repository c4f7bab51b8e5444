/-
TripleLogic.Proofs.RecordFaults — what reading the record of a node is refused
for.

A record is refused for a misused value or for being malformed, and for
nothing else (`RecordOnly`). This holds of each reading because it holds of
the readings that it is made of; for expressions and nodes these are of the
values inside, and the proof is by induction on the value.

Main statement: misused values do not leave the node that encloses them, so
that the only misuse which is left is that of a node's own type as a key
(`Node.load_cases`). Names are looked at last, and what is said here is said of
reading without them.
-/
import TripleLogic.Proofs.Misuse

namespace TripleLogic

/-! ## Faults of records -/

/-- All that can be wrong with what is read is that a value is misused or a
record malformed. -/
def RecordOnly {α : Type} (r : Except Fault α) : Prop :=
  ∀ f, r = .error f → (∃ m, f = .misuse m) ∨ ∃ c, f = .malformed c

section

variable {α β : Type}

@[simp]
theorem recordOnly_ok (a : α) : RecordOnly (.ok a : Except Fault α) := nofun

@[simp]
theorem recordOnly_pure (a : α) : RecordOnly (pure a : Except Fault α) := nofun

@[simp]
theorem recordOnly_misuse (m : Misuse) : RecordOnly (.error (.misuse m) : Except Fault α) := by
  intro f hf
  cases hf
  exact .inl ⟨m, rfl⟩

@[simp]
theorem recordOnly_malformed (c : Malformed) :
    RecordOnly (.error (.malformed c) : Except Fault α) := by
  intro f hf
  cases hf
  exact .inr ⟨c, rfl⟩

@[simp]
theorem recordOnly_throw (c : Malformed) :
    RecordOnly (throw (.malformed c) : Except Fault α) :=
  recordOnly_malformed c

/-- What is read in two parts is refused for what either part is refused for. -/
@[simp]
theorem recordOnly_bind_iff {x : Except Fault α} {f : α → Except Fault β} :
    RecordOnly (x >>= f) ↔ RecordOnly x ∧ ∀ a, x = .ok a → RecordOnly (f a) := by
  cases x with
  | error e => exact ⟨fun h => ⟨fun _ he => h _ (by cases he; rfl), nofun⟩,
      fun h _ he => h.1 _ (by cases he; rfl)⟩
  | ok a => exact ⟨fun h => ⟨recordOnly_ok a, fun _ hb => by cases hb; exact h⟩,
      fun h => h.2 a rfl⟩

@[simp]
theorem recordOnly_map_iff {f : α → β} {x : Except Fault α} :
    RecordOnly (f <$> x) ↔ RecordOnly x := by
  rw [map_eq_pure_bind, recordOnly_bind_iff]
  exact ⟨And.left, fun hx => ⟨hx, fun _ _ => recordOnly_pure _⟩⟩

theorem recordOnly_mapM {f : α → Except Fault β} : ∀ {xs : List α},
    (∀ x ∈ xs, RecordOnly (f x)) → RecordOnly (xs.mapM f)
  | [], _ => recordOnly_pure []
  | x :: xs, h => by
      obtain ⟨hx, hxs⟩ := List.forall_mem_cons.1 h
      rw [List.mapM_cons, recordOnly_bind_iff]
      refine ⟨hx, fun _ _ => recordOnly_bind_iff.2 ?_⟩
      exact ⟨recordOnly_mapM hxs, fun _ _ => recordOnly_pure _⟩

theorem recordOnly_readEach {f : α → Except Fault (Option β)} {xs : List α}
    (h : ∀ x ∈ xs, RecordOnly (f x)) : RecordOnly (readEach f xs) :=
  recordOnly_bind_iff.2 ⟨recordOnly_mapM h, fun _ _ => recordOnly_pure _⟩

end

/-! ### Fields -/

namespace Data

variable {d : Data}

@[simp]
theorem recordOnly_require (what key : String) : RecordOnly (d.require what key) := by
  unfold require
  split
  · split <;> simp
  · simp

@[simp]
theorem recordOnly_itemsOr : RecordOnly d.itemsOr := by
  unfold itemsOr
  split <;> simp

end Data

theorem recordOnly_metadataPairs : ∀ (xs : List Data) (i : Nat) (acc : Metadata),
    RecordOnly (metadataPairs i acc xs)
  | [], _, _ => recordOnly_ok _
  | x :: xs, i, acc => by
      unfold metadataPairs
      split
      · split
        · exact recordOnly_misuse _
        · exact recordOnly_metadataPairs xs _ _
      · exact recordOnly_misuse _
      · exact recordOnly_misuse _

@[simp]
theorem recordOnly_metadataOfData (d : Data) : RecordOnly (metadataOfData d) := by
  unfold metadataOfData
  split
  · split <;> simp [recordOnly_metadataPairs]
  · simp

@[simp]
theorem recordOnly_memberOf {α : Type} (ofWord? : String → Option α) (family : String)
    (d : Data) : RecordOnly (memberOf ofWord? family d) := by
  unfold memberOf
  dsimp only
  split <;> simp

/-! ### Expressions and statements -/

namespace Expr

@[simp]
theorem recordOnly_part {kind key : String} {rs : List (String × Reading)} :
    RecordOnly (part kind key rs) := by
  unfold part
  split <;> simp

/-- The items of a value are refused for what those of a list are refused for. -/
theorem recordOnly_items {d : Data}
    (h : ∀ xs, d = .list xs → ∀ x ∈ xs, RecordOnly (load x false)) :
    RecordOnly (loadItems d >>= readEach id) := by
  cases d with
  | list xs =>
      refine recordOnly_readEach ?_
      rw [loadEach_eq_map]
      exact List.forall_mem_map.2 (h xs rfl)
  | obj fs => exact recordOnly_readEach (List.forall_mem_map.2 fun _ _ => recordOnly_ok _)
  | str s => exact recordOnly_readEach (List.forall_mem_map.2 fun _ _ => recordOnly_ok _)
  | _ => exact recordOnly_misuse _

/-- An expression is refused for what its parts are refused for. -/
theorem recordOnly_build {kind : Data} {fields : Fields}
    (hwhole : ∀ {key v}, Fields.get? fields key = some v → RecordOnly (load v false))
    (hitems : ∀ {key v}, Fields.get? fields key = some v →
      RecordOnly (loadItems v >>= readEach id)) :
    RecordOnly (build kind (readings fields)) := by
  have hpart : ∀ {kind key r}, part kind key (readings fields) = .ok r → RecordOnly r.whole := by
    intro kind key r hr
    obtain ⟨v, hv, rfl⟩ := part_eq_ok_iff.1 hr
    exact hwhole hv
  have hparts : ∀ key, RecordOnly (partItems key (readings fields)) := by
    intro key
    unfold partItems
    rw [lookup_readings]
    cases hv : Fields.get? fields key with
    | none => exact recordOnly_ok _
    | some v => exact hitems hv
  unfold build
  split <;> simp only [recordOnly_bind_iff, recordOnly_part, recordOnly_pure, recordOnly_malformed,
    Data.recordOnly_itemsOr, hparts, implies_true, true_and, and_true]
  · exact fun o _ r hr => hpart hr
  · exact fun o _ r hr => ⟨hpart hr, fun _ _ r hr => hpart hr⟩
  · exact fun o _ ps _ r hr => hpart hr

@[simp]
theorem recordOnly_load (d : Data) (inAttribute : Bool) : RecordOnly (load d inAttribute) := by
  -- The items of a list are read where the list is a field, so that the induction
  -- has to reach them together with the list.
  suffices key : ∀ d : Data, (∀ b, RecordOnly (load d b)) ∧
      ∀ xs, d = .list xs → ∀ x ∈ xs, RecordOnly (load x false) from (key d).1 inAttribute
  intro d
  induction d using Data.ind with
  | list xs ih =>
      refine ⟨fun b => by simp [load], fun ys h x hx => ?_⟩
      cases h
      exact (ih x hx).1 false
  | obj fields ih =>
      refine ⟨fun b => ?_, fun xs h => by cases h⟩
      have hfield : ∀ {key v}, Fields.get? fields key = some v → (∀ b, RecordOnly (load v b)) ∧
          ∀ xs, v = .list xs → ∀ x ∈ xs, RecordOnly (load x false) := by
        intro key v hv
        obtain ⟨f, hf, rfl⟩ := Fields.exists_mem_of_get? hv
        exact ih f hf
      cases htype : Fields.get? fields "type" with
      | none => simp [load, htype]
      | some kind =>
          rw [load_obj htype]
          exact recordOnly_build (fun hv => (hfield hv).1 false)
            fun hv => recordOnly_items (hfield hv).2
  | _ => exact ⟨fun b => by simp [load], fun xs h => by cases h⟩

end Expr

@[simp]
theorem Relation.recordOnly_load (d : Data) : RecordOnly (Relation.load d) := by
  unfold load
  split <;> simp

namespace Statement

@[simp]
theorem recordOnly_attributeFields (d : Data) : RecordOnly (attributeFields d) := by
  simp only [attributeFields]
  split
  · split <;> simp
  · simp

@[simp]
theorem recordOnly_loadAttribute (f : String × Data) : RecordOnly (loadAttribute f) := by
  simp [loadAttribute]

@[simp]
theorem recordOnly_load (d : Data) : RecordOnly (load d) := by
  simp [load, recordOnly_readEach]

end Statement

/-! ### Nodes -/

@[simp]
theorem Intent.recordOnly_load (d : Data) : RecordOnly (load d) := by
  unfold load
  simp only [recordOnly_bind_iff, Data.recordOnly_require, true_and]
  intro v _
  split
  · simp [recordOnly_readEach]
  · simp

@[simp]
theorem Edge.recordOnly_load (d : Data) : RecordOnly (load d) := by
  simp [load]

namespace Node

/-- A node encloses what is wrong inside it: a misused value makes it malformed. -/
theorem malformed_within {record : String} {r : Except Fault (Option Node)} (h : RecordOnly r) :
    (∃ n, within record r = .ok n) ∨ ∃ c, within record r = .error (.malformed c) := by
  cases r with
  | ok n => exact .inl ⟨n, rfl⟩
  | error f =>
      obtain ⟨m, rfl⟩ | ⟨c, rfl⟩ := h f rfl
      · exact .inr ⟨_, rfl⟩
      · exact .inr ⟨c, rfl⟩

section

variable {fields : Fields}
  (hfield : ∀ {key v}, Fields.get? fields key = some v → RecordOnly (load v))

include hfield

theorem recordOnly_part (what key : String) : RecordOnly (part what key (readings fields)) := by
  unfold part
  rw [lookup_readings]
  cases hv : Fields.get? fields key with
  | none => exact recordOnly_malformed _
  | some v => exact hfield hv

theorem recordOnly_operand (key : String) :
    RecordOnly (operand (.obj fields) key (readings fields)) := by
  unfold operand
  split
  · exact recordOnly_ok _
  · exact recordOnly_bind_iff.2 ⟨recordOnly_part hfield _ _, fun _ _ => recordOnly_pure _⟩

/-- Where what is inside is refused for faults of records only, a node is
read, is malformed, or has a type that is no key. -/
theorem build_cases (kind : Data) :
    (∃ n, build kind (.obj fields) (readings fields) = .ok n) ∨
      (∃ c, build kind (.obj fields) (readings fields) = .error (.malformed c)) ∨
        build kind (.obj fields) (readings fields) = .error (.misuse (.notKey kind)) := by
  have henclosed : ∀ {record r}, RecordOnly r → (∃ n, within record r = .ok n) ∨
      (∃ c, within record r = .error (.malformed c)) ∨
        within record r = .error (.misuse (.notKey kind)) :=
    fun hr => (malformed_within hr).imp_right .inl
  unfold build
  split
  · exact henclosed (by simp)
  · refine henclosed ?_
    simp [buildCompound, recordOnly_operand hfield]
  · refine henclosed ?_
    simp [buildQuantified, recordOnly_part hfield]
  · refine henclosed ?_
    simp [buildRule, recordOnly_part hfield]
  · exact henclosed (by simp)
  · exact .inr (.inr rfl)
  · exact .inr (.inr rfl)
  · exact .inr (.inl ⟨_, rfl⟩)

end

/-- A node is read, is malformed, or has a type that is no key. -/
theorem load_cases (d : Data) :
    (∃ n, load d = .ok n) ∨ (∃ c, load d = .error (.malformed c)) ∨
      ∃ kind, d.get? "type" = some kind ∧ load d = .error (.misuse (.notKey kind)) := by
  induction d using Data.ind with
  | obj fields ih =>
      have hfield : ∀ {key v}, Fields.get? fields key = some v → RecordOnly (load v) := by
        intro key v hv
        obtain ⟨f, hf, rfl⟩ := Fields.exists_mem_of_get? hv
        obtain ⟨n, hn⟩ | ⟨c, hc⟩ | ⟨kind, -, hkind⟩ := ih f hf
        · exact hn ▸ recordOnly_ok n
        · exact hc ▸ recordOnly_malformed c
        · exact hkind ▸ recordOnly_misuse _
      cases htype : Fields.get? fields "type" with
      | none => exact .inr (.inl ⟨.missing "Node" "type", by simp only [load, htype]⟩)
      | some kind =>
          simp only [load, htype]
          exact (build_cases hfield kind).imp_right (Or.imp_right fun h => ⟨kind, htype, h⟩)
  | _ => exact .inr (.inl ⟨_, rfl⟩)

end Node

end TripleLogic
