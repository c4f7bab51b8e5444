/-
TripleLogic.Proofs.FaultKinds — the kinds of faults at which loading ends.

Faults differ in what becomes of them. A misused value of a wrong kind is
reported by nobody (`Fault.isUncaught`), an input may have no form here
(`Fault.isOutside`), and all other faults are reported. `FailsAt` says that a
computation ends at an error with a given property; of several steps the first
that fails decides (`failsAt_bind_iff`).

* `KindOnly`: no value is misused but for its kind, and nothing is left out.
  This holds of reading settings, documents and records without their names,
  since it holds of each step.

Main statement: where it holds, the faults that are reported by nobody are the
misuses (`KindOnly.failsAt_isUncaught_iff`), and what is built under names is
left out exactly when all is in order and a name is no text
(`KindOnly.failsAt_isOutside_named_iff`).
-/
import TripleLogic.Proofs.MisuseDocuments
import TripleLogic.Proofs.RecordFaults

namespace TripleLogic

/-! ## Computations that fail -/

/-- A computation ends at an error with a property. -/
def FailsAt {ε α : Type} (p : ε → Bool) (r : Except ε α) : Prop :=
  ∃ e, r = .error e ∧ p e = true

section

variable {ε ε' α β : Type} {p : ε → Bool}

@[simp]
theorem not_failsAt_ok (a : α) : ¬ FailsAt p (.ok a : Except ε α) := nofun

@[simp]
theorem not_failsAt_pure (a : α) : ¬ FailsAt p (pure a : Except ε α) := nofun

@[simp]
theorem failsAt_error_iff {e : ε} : FailsAt p (.error e : Except ε α) ↔ p e = true := by
  simp [FailsAt]

@[simp]
theorem failsAt_throw_iff {e : ε} : FailsAt p (throw e : Except ε α) ↔ p e = true :=
  failsAt_error_iff

theorem bind_eq_of_ok {x : Except ε α} {a : α} (h : x = .ok a) {f : α → Except ε β} :
    x >>= f = f a := by
  rw [h]
  rfl

theorem bind_eq_of_error {x : Except ε α} {e : ε} (h : x = .error e) {f : α → Except ε β} :
    x >>= f = .error e := by
  rw [h]
  rfl

/-- Of two steps in a row the first that fails decides. -/
theorem failsAt_bind_iff {x : Except ε α} {f : α → Except ε β} :
    FailsAt p (x >>= f) ↔ FailsAt p x ∨ ∃ a, x = .ok a ∧ FailsAt p (f a) := by
  cases x <;> simp [FailsAt, bind, Except.bind]

@[simp]
theorem failsAt_map_iff {f : α → β} {x : Except ε α} : FailsAt p (f <$> x) ↔ FailsAt p x := by
  cases x <;> simp [FailsAt, Functor.map, Except.map]

@[simp]
theorem failsAt_mapError_iff {p : ε' → Bool} {f : ε → ε'} {r : Except ε α} :
    FailsAt p (r.mapError f) ↔ FailsAt (p ∘ f) r := by
  cases r <;> simp [FailsAt, Except.mapError]

theorem mapError_eq_ok_iff {f : ε → ε'} {r : Except ε α} {a : α} :
    r.mapError f = .ok a ↔ r = .ok a := by
  cases r <;> simp [Except.mapError]

end

/-! ## What becomes of faults -/

namespace Fault

/-- A misused value of a wrong kind, which nobody reports. -/
def isUncaught : Fault → Bool
  | .misuse m => m.category != .value
  | _ => false

/-- An input without a form here. -/
def isOutside : Fault → Bool
  | .outside _ => true
  | _ => false

/-- No value is misused but for its kind, and nothing is left out. -/
def isOfKind : Fault → Bool
  | .misuse m => m.category != .value
  | .outside _ => false
  | _ => true

end Fault

namespace Fault

/-- A property that no fault has which is reported where files are loaded. -/
structure Unreported (p : Fault → Bool) : Prop where
  malformed : ∀ c, p (.malformed c) = false
  ontology : ∀ c, p (.ontology c) = false
  value : ∀ m : Misuse, m.category = .value → p (.misuse m) = false

theorem unreported_isUncaught : Unreported isUncaught where
  malformed _ := rfl
  ontology _ := rfl
  value m h := by simp [isUncaught, h]

theorem unreported_isOutside : Unreported isOutside where
  malformed _ := rfl
  ontology _ := rfl
  value _ _ := rfl

namespace Unreported

variable {p : Fault → Bool}

theorem ofUnreadable (hp : Unreported p) {unread : Unreadable → Fault}
    (h : ∀ u, p (unread u) = false) (u : Unreadable) : p (.ofUnreadable unread u) = false := by
  cases u with
  | nullByte => exact hp.value _ rfl
  | _ => exact h _

/-- Of the texts that are refused only those with half of a surrogate pair are
not reported. -/
theorem ofRefusal_iff (hp : Unreported p) {flawed : Json.Flaw → Fault}
    (h : ∀ f, p (flawed f) = false) {r : Json.Refusal} :
    p (.ofRefusal flawed r) = true ↔ r = .surrogate ∧ p (.outside .surrogate) = true := by
  cases r with
  | flaw f => simp [Fault.ofRefusal, h]
  | digits n => simp [Fault.ofRefusal, hp.value (.tooManyDigits n) rfl]
  | surrogate => simp [Fault.ofRefusal]

end Unreported

end Fault

/-- A computation that is a misuse or gives a result leaves nothing out. -/
theorem not_failsAt_isOutside_of_answered {α : Type} {r : Except Fault α}
    (h : ¬ Misuses r → ∃ a, r = .ok a) : ¬ FailsAt Fault.isOutside r := by
  rintro ⟨f, rfl, hf⟩
  cases f with
  | outside c =>
      obtain ⟨a, ha⟩ := h nofun
      cases ha
  | _ => cases hf

/-- What is read goes wrong in no other way than by misusing a value of a wrong
kind or by a fault that is reported. -/
def KindOnly {α : Type} (r : Except Fault α) : Prop :=
  ∀ f, r = .error f → f.isOfKind = true

namespace KindOnly

variable {α β : Type}

theorem ok (a : α) : KindOnly (.ok a : Except Fault α) := nofun

theorem error {f : Fault} (h : f.isOfKind = true) : KindOnly (.error f : Except Fault α) := by
  intro f' hf
  cases hf
  exact h

theorem bind {x : Except Fault α} {f : α → Except Fault β} (hx : KindOnly x)
    (hf : ∀ a, KindOnly (f a)) : KindOnly (x >>= f) := by
  cases x with
  | error e => exact error (hx e rfl)
  | ok a => exact hf a

theorem mapM {f : α → Except Fault β} (hf : ∀ a, KindOnly (f a)) :
    ∀ xs : List α, KindOnly (xs.mapM f)
  | [] => ok []
  | x :: xs => by
      rw [List.mapM_cons]
      exact (hf x).bind fun _ => (mapM hf xs).bind fun _ => ok _

theorem readEach {f : α → Except Fault (Option β)} (hf : ∀ a, KindOnly (f a)) (xs : List α) :
    KindOnly (readEach f xs) :=
  (mapM hf xs).bind fun _ => ok _

section

variable {r : Except Fault α}

/-- The misuses are the faults that nobody reports. -/
theorem failsAt_isUncaught_iff (h : KindOnly r) : FailsAt Fault.isUncaught r ↔ Misuses r := by
  cases r with
  | ok a => exact iff_of_false (not_failsAt_ok a) (not_misuses_ok a)
  | error f =>
      have hf := h f rfl
      cases f <;> simp_all [Fault.isUncaught, Fault.isOfKind, Misuses]

theorem not_failsAt_isOutside (h : KindOnly r) : ¬ FailsAt Fault.isOutside r := by
  rintro ⟨f, hf, hout⟩
  have hkind := h f hf
  cases f <;> simp_all [Fault.isOutside, Fault.isOfKind]

end

/-- What is built under names is left out when a name is no text. -/
theorem failsAt_isOutside_named_iff {r : Except Fault (Option α)} (h : KindOnly r) :
    FailsAt Fault.isOutside (named r) ↔ r = .ok none := by
  cases r with
  | ok a => cases a <;> simp [named, Fault.isOutside]
  | error f => simpa [named] using h.not_failsAt_isOutside

theorem failsAt_isUncaught_named_iff {r : Except Fault (Option α)} (h : KindOnly r) :
    FailsAt Fault.isUncaught (named r) ↔ Misuses r := by
  rw [← h.failsAt_isUncaught_iff]
  cases r with
  | ok a => cases a <;> simp [named, Fault.isUncaught]
  | error f => simp [named]

end KindOnly

/-! ## Records -/

theorem Data.kindOnly_itemsOr (d : Data) : KindOnly d.itemsOr := by
  unfold itemsOr
  split
  · exact .ok _
  · exact .error rfl

namespace Node

theorem kindOnly_load (d : Data) : KindOnly (load d) := by
  obtain ⟨n, hn⟩ | ⟨c, hc⟩ | ⟨kind, -, hkind⟩ := load_cases d
  · exact hn ▸ .ok n
  · exact hc ▸ .error rfl
  · exact hkind ▸ .error rfl

/-- A value lists the records of a knowledge base, itself or in a field. -/
def Lists (d : Data) (items : List Data) : Prop :=
  d = .list items ∨ d.get? "nodes" = some (.list items)

/-- The nodes of a knowledge base are read where there is a list of them. -/
theorem failsAt_listOfData_iff {p : Fault → Bool} (hp : ∀ c, p (.malformed c) = false)
    {d : Data} :
    FailsAt p (listOfData d) ↔
      ∃ items, Lists d items ∧ FailsAt p (named (readEach load items)) := by
  cases d with
  | obj fields =>
      cases hget : Fields.get? fields "nodes" with
      | none => simp [listOfData, Data.require_obj, Lists, Data.get?, hget, failsAt_bind_iff, hp]
      | some v =>
          cases v <;> simp [listOfData, Data.require_obj, Lists, Data.get?, hget,
            failsAt_bind_iff, hp]
  | list items => simp [listOfData, Lists, Data.get?]
  | _ => simp [listOfData, Lists, Data.get?, hp]

end Node

/-! ## Documents -/

@[simp]
theorem Constraint.recordOnly_ofData (d : Data) : RecordOnly (ofData d) := by
  have hcardinality : ∀ fields, RecordOnly (cardinalityOfData fields) := by
    intro fields
    unfold cardinalityOfData
    split
    · simp
    · simp
    · dsimp only
      split <;> simp
  have hdisjoint : ∀ fields, RecordOnly (disjointOfData fields) := by
    intro fields
    unfold disjointOfData
    split <;> simp
  cases d with
  | obj fields =>
      simp only [ofData]
      split
      · exact recordOnly_misuse _
      · split
        · exact recordOnly_misuse _
        · simp [hcardinality, hdisjoint]
  | _ => exact recordOnly_misuse _

namespace Document

theorem kindOnly_constraintOfData (d : Data) : KindOnly (constraintOfData d) := by
  unfold constraintOfData
  split
  · exact .error rfl
  · next h =>
      intro f hf
      obtain ⟨m, rfl⟩ | ⟨c, rfl⟩ := Constraint.recordOnly_ofData d f hf
      · exact absurd hf (h m)
      · rfl

theorem kindOnly_pairOfData (d : Data) : KindOnly (pairOfData d) := by
  unfold pairOfData
  split
  · exact .ok _
  · exact .error rfl

@[simp]
theorem recordOnly_itemsOf (fields : Fields) (key : String) : RecordOnly (itemsOf fields key) := by
  unfold itemsOf
  split <;> simp

@[simp]
theorem recordOnly_nameOf (item : Data) (key : String) : RecordOnly (nameOf item key) := by
  unfold nameOf
  split
  · split <;> simp
  · simp

theorem recordOnly_entriesOfData (fields : Fields) : RecordOnly (entriesOfData fields) := by
  have hentry : ∀ a r b (item : Data), RecordOnly (entryOfData a r b item) := by
    simp [entryOfData]
  simp [entriesOfData, recordOnly_mapM, hentry]

theorem kindOnly_withinHierarchy {α : Type} {r : Except Fault α} (hr : RecordOnly r) :
    KindOnly (withinHierarchy r) := by
  unfold withinHierarchy
  split
  · exact .error rfl
  · next h =>
      intro f hf
      obtain ⟨m, rfl⟩ | ⟨c, rfl⟩ := hr f hf
      · exact absurd hf (h m)
      · rfl

theorem kindOnly_itemsOf (fields : Fields) (key : String) : KindOnly (itemsOf fields key) := by
  unfold itemsOf
  split
  · exact .ok _
  · exact Data.kindOnly_itemsOr _

theorem kindOnly_ofData (d : Data) : KindOnly (ofData d) := by
  cases d with
  | obj fields =>
      exact (kindOnly_itemsOf fields _).bind fun cs =>
        (KindOnly.mapM kindOnly_constraintOfData cs).bind fun _ =>
        (kindOnly_itemsOf fields _).bind fun ps =>
        (KindOnly.mapM kindOnly_pairOfData ps).bind fun _ =>
        (kindOnly_withinHierarchy (recordOnly_entriesOfData fields)).bind fun _ => .ok _
  | _ => exact .error rfl

end Document

/-! ## Settings -/

namespace Settings

theorem kindOnly_unknownKeys (allowed : List String) (d : Data) :
    KindOnly (unknownKeys allowed d) := by
  refine d.kindOnly_itemsOr.bind fun keys => ?_
  split
  · exact .error rfl
  · unfold sortedKeys
    split
    · exact .ok _
    · exact .ok _
    · split
      · exact .ok _
      · split
        · exact .ok _
        · exact .error rfl

theorem kindOnly_sectionFields (record group : String) (allowed : List String) (d : Data) :
    KindOnly (sectionFields record group allowed d) := by
  refine (kindOnly_unknownKeys allowed d).bind fun unknown => ?_
  cases unknown with
  | nil =>
      cases d with
      | obj fields => exact .ok fields
      | _ => exact .error rfl
  | cons k ks => exact .error rfl

theorem kindOnly_bound (record key : String) (fields : Fields) :
    KindOnly (bound record key fields) := by
  unfold bound
  split
  · exact .ok _
  · split
    · split
      · exact .error rfl
      · exact .ok _
    · exact .error rfl

theorem kindOnly_passBound (record key : String) (default : Nat) (fields : Fields) :
    KindOnly (passBound record key default fields) :=
  (kindOnly_bound record key fields).bind fun _ => .ok _

theorem kindOnly_depthBound (record key : String) (default : Nat) (fields : Fields) :
    KindOnly (depthBound record key default fields) :=
  (kindOnly_bound record key fields).bind fun _ => .ok _

theorem kindOnly_ofData (d : Data) : KindOnly (ofData d) := by
  refine (kindOnly_unknownKeys sections d).bind fun unknown => ?_
  cases unknown with
  | nil =>
      cases d with
      | obj fields =>
          refine KindOnly.bind ?_ fun _ => KindOnly.bind ?_ fun _ => .ok _
          · exact (kindOnly_sectionFields _ _ _ _).bind fun _ =>
              (kindOnly_passBound _ _ _ _).bind fun _ => (kindOnly_depthBound _ _ _ _).bind fun _ =>
              (kindOnly_passBound _ _ _ _).bind fun _ => .ok _
          · exact (kindOnly_sectionFields _ _ _ _).bind fun _ =>
              (kindOnly_passBound _ _ _ _).bind fun _ => .ok _
      | _ => exact .error rfl
  | cons k ks => exact .error rfl

end Settings

end TripleLogic
