/-
TripleLogic.Proofs.Misuse — the records in which a value is misused before
anything else is found wrong.

A record that nothing can be built from is malformed, and most misused values
inside a record make it malformed. Some do not, and are found as they are: a
node whose own type is a list or an object (`Node.load_misuses_iff`), and,
outside of nodes, an expression with a function whose arguments, or a lambda
whose parameters, cannot be gone through (`Expr.load_misuses_iff`,
`Statement.load_misuses_iff`).

Records are read in order up to the first fault, so that each of these
conditions asks for all that is read before the misused value to be in order.
A name that is no text is in order: it is looked at when all has been read.
-/
import TripleLogic.Proofs.Records
import TripleLogic.Proofs.Spelling

namespace TripleLogic

/-! ## Faults that are misuses -/

/-- A reading ends at a misused value. -/
def Misuses {α : Type} (r : Except Fault α) : Prop :=
  ∃ m, r = .error (.misuse m)

section

variable {α β : Type}

@[simp]
theorem not_misuses_ok (a : α) : ¬ Misuses (.ok a : Except Fault α) := nofun

@[simp]
theorem not_misuses_pure (a : α) : ¬ Misuses (pure a : Except Fault α) := nofun

@[simp]
theorem not_misuses_malformed (c : Malformed) :
    ¬ Misuses (.error (.malformed c) : Except Fault α) := nofun

@[simp]
theorem not_misuses_ontology (c : BadOntology) :
    ¬ Misuses (.error (.ontology c) : Except Fault α) := nofun

@[simp]
theorem misuses_misuse (m : Misuse) : Misuses (.error (.misuse m) : Except Fault α) := ⟨m, rfl⟩

/-- Of two readings in a row the first that fails decides. -/
theorem misuses_bind_iff {x : Except Fault α} {f : α → Except Fault β} :
    Misuses (x >>= f) ↔ Misuses x ∨ ∃ a, x = .ok a ∧ Misuses (f a) := by
  cases x with
  | error e =>
      constructor
      · rintro ⟨m, h⟩
        cases h
        exact Or.inl (misuses_misuse m)
      · rintro (⟨m, h⟩ | ⟨a, h, _⟩)
        · cases h
          exact misuses_misuse m
        · cases h
  | ok a =>
      constructor
      · exact fun h => Or.inr ⟨a, rfl, h⟩
      · rintro (h | ⟨b, h, hb⟩)
        · exact absurd h (not_misuses_ok a)
        · cases h
          exact hb

@[simp]
theorem misuses_map_iff {f : α → β} {x : Except Fault α} : Misuses (f <$> x) ↔ Misuses x := by
  cases x with
  | error e => simp [Misuses, Functor.map, Except.map]
  | ok a => exact iff_of_false (not_misuses_ok (f a)) (not_misuses_ok a)

/-- All items of a list before one that has a property are read. -/
def FirstUnread (f : α → Except Fault β) (P : α → Prop) (xs : List α) : Prop :=
  ∃ ys x zs, xs = ys ++ x :: zs ∧ (∀ y ∈ ys, ∃ b, f y = .ok b) ∧ P x

/-- A list is read item by item. -/
theorem misuses_mapM_iff {f : α → Except Fault β} : ∀ {xs : List α},
    Misuses (xs.mapM f) ↔ FirstUnread f (fun x => Misuses (f x)) xs
  | [] => by
      constructor
      · exact nofun
      · rintro ⟨ys, x, zs, h, _⟩
        simp at h
  | x :: xs => by
      rw [List.mapM_cons, misuses_bind_iff]
      constructor
      · rintro (h | ⟨b, hb, h⟩)
        · exact ⟨[], x, xs, rfl, nofun, h⟩
        · obtain h | ⟨_, _, h⟩ := misuses_bind_iff.1 h
          · obtain ⟨ys, y, zs, rfl, hys, hy⟩ := misuses_mapM_iff.1 h
            exact ⟨x :: ys, y, zs, rfl, List.forall_mem_cons.2 ⟨⟨b, hb⟩, hys⟩, hy⟩
          · exact absurd h (not_misuses_pure _)
      · rintro ⟨ys, y, zs, h, hys, hy⟩
        cases ys with
        | nil =>
            cases h
            exact Or.inl hy
        | cons z ys =>
            obtain ⟨rfl, rfl⟩ := List.cons.inj h
            obtain ⟨⟨b, hb⟩, hys⟩ := List.forall_mem_cons.1 hys
            exact Or.inr ⟨b, hb, misuses_bind_iff.2 (Or.inl (misuses_mapM_iff.2
              ⟨ys, y, zs, rfl, hys, hy⟩))⟩

theorem misuses_named_iff {r : Except Fault (Option α)} : Misuses (named r) ↔ Misuses r :=
  exists_congr fun _ => named_eq_misuse_iff

theorem misuses_readEach_iff {f : α → Except Fault (Option β)} {xs : List α} :
    Misuses (readEach f xs) ↔ FirstUnread f (fun x => Misuses (f x)) xs := by
  simp [readEach, misuses_mapM_iff]

/-- A list is read when all its items are. -/
theorem exists_mapM_iff {f : α → Except Fault β} {xs : List α} :
    (∃ ys, xs.mapM f = .ok ys) ↔ ∀ x ∈ xs, ∃ y, f x = .ok y := by
  refine ⟨fun ⟨ys, h⟩ => exists_of_mapM h, fun h => ?_⟩
  induction xs with
  | nil => exact ⟨[], rfl⟩
  | cons x xs ih =>
      obtain ⟨⟨y, hy⟩, hxs⟩ := List.forall_mem_cons.1 h
      obtain ⟨ys, hys⟩ := ih hxs
      exact ⟨y :: ys, by rw [List.mapM_cons, hy, hys]; rfl⟩

theorem exists_readEach_iff {f : α → Except Fault (Option β)} {xs : List α} :
    (∃ ys, readEach f xs = .ok ys) ↔ ∀ x ∈ xs, ∃ y, f x = .ok y := by
  rw [← exists_mapM_iff]
  simp only [readEach, bind_eq_ok_iff]
  constructor
  · rintro ⟨_, ys, hys, -⟩
    exact ⟨ys, hys⟩
  · rintro ⟨ys, hys⟩
    exact ⟨_, ys, hys, rfl⟩

end

/-! ## Fields -/

namespace Data

theorem require_obj (fields : Fields) (what key : String) :
    (Data.obj fields).require what key
      = match Fields.get? fields key with
        | some v => .ok v
        | none => .error (.malformed (.missing what key)) := rfl

@[simp]
theorem not_misuses_require (d : Data) (what key : String) : ¬ Misuses (d.require what key) := by
  unfold require
  split
  · split <;> simp
  · simp

theorem require_eq_ok_iff {d : Data} {what key : String} {v : Data} :
    d.require what key = .ok v ↔ d.get? key = some v := by
  cases d with
  | obj fields =>
      rw [require_obj, get?]
      cases Fields.get? fields key <;> simp
  | _ => simp [require, get?]

/-- Parts are gone through unless there are none. -/
theorem misuses_itemsOr_iff {d : Data} : Misuses d.itemsOr ↔ d.items? = none := by
  unfold itemsOr
  split
  · next h => simp [h]
  · next h => simp [h]

theorem itemsOr_eq_ok_iff {d : Data} {xs : List Data} :
    d.itemsOr = .ok xs ↔ d.items? = some xs := by
  unfold itemsOr
  split <;> simp_all

end Data

/-! ## Nodes -/

/-- Whether a record has a list or an object for its type. -/
def Data.isMistyped (d : Data) : Bool :=
  match d.get? "type" with
  | some (.list _) => true
  | some (.obj _) => true
  | _ => false

namespace Node

@[simp]
theorem not_misuses_within {α : Type} (record : String) (r : Except Fault α) :
    ¬ Misuses (within record r) := by
  unfold within
  split
  · simp
  · next h =>
      rintro ⟨m, rfl⟩
      exact h m rfl

/-- Reading a node misuses a value exactly when its type is a list or an
object. All else that is misused in it makes it malformed. -/
theorem load_misuses_iff {d : Data} : Misuses (load d) ↔ d.isMistyped = true := by
  cases d with
  | obj fields =>
      simp only [load, Data.isMistyped, Data.get?]
      cases Fields.get? fields "type" with
      | none => simp
      | some kind =>
          cases kind with
          | str word =>
              simp only [build]
              split <;> simp_all
          | _ => simp [build]
  | _ => simp [load, Data.isMistyped, Data.get?]

theorem ofData_misuses_iff {d : Data} : Misuses (ofData d) ↔ d.isMistyped = true :=
  misuses_named_iff.trans load_misuses_iff

end Node

/-! ## Expressions -/

/-- Induction on plain data, with the items of a list and the values of an
object or a map as smaller data. -/
theorem Data.ind {motive : Data → Prop} (null : motive .null) (bool : ∀ b, motive (.bool b))
    (num : ∀ n, motive (.num n)) (str : ∀ s, motive (.str s))
    (list : ∀ xs, (∀ x ∈ xs, motive x) → motive (.list xs))
    (obj : ∀ fields, (∀ f ∈ fields, motive f.2) → motive (.obj fields))
    (map : ∀ es, (∀ e ∈ es, motive e.2) → motive (.map es)) : ∀ d, motive d := by
  refine @Data.rec motive (fun xs => ∀ x ∈ xs, motive x) (fun fs => ∀ f ∈ fs, motive f.2)
    (fun es => ∀ e ∈ es, motive e.2) (fun f => motive f.2) (fun e => motive e.2)
    null bool num str list obj map nofun ?_ nofun ?_ nofun ?_ ?_ ?_
  · exact fun x xs hx hxs => List.forall_mem_cons.2 ⟨hx, hxs⟩
  · exact fun x xs hx hxs => List.forall_mem_cons.2 ⟨hx, hxs⟩
  · exact fun x xs hx hxs => List.forall_mem_cons.2 ⟨hx, hxs⟩
  · exact fun k d h => h
  · exact fun k d _ h => h

/-- The value of a field is a value in the object. -/
theorem Fields.exists_mem_of_get? {fields : Fields} {key : String} {v : Data}
    (h : fields.get? key = some v) : ∃ f ∈ fields, f.2 = v := by
  obtain ⟨l₁, l₂, rfl, -⟩ := List.lookup_eq_some_iff.1 h
  exact ⟨(key, v), by simp, rfl⟩

/-- Whether the items of a value cannot be read one by one: it is neither a
list nor an object nor a text. -/
def Data.isBare : Data → Bool
  | .list _ => false
  | .obj _ => false
  | .str _ => false
  | _ => true

namespace Expr

/-- A value with its readings. -/
def reading (v : Data) : Reading :=
  ⟨v, load v false, loadItems v⟩

theorem lookup_readings (fields : Fields) (key : String) :
    (readings fields).lookup key = (Fields.get? fields key).map reading := by
  induction fields with
  | nil => rfl
  | cons f fields ih =>
      obtain ⟨k, v⟩ := f
      simp only [readings, Fields.get?, List.lookup_cons] at ih ⊢
      split
      · rfl
      · exact ih

section

variable {kind key : String} {fields : Fields}

@[simp]
theorem not_misuses_part {rs : List (String × Reading)} : ¬ Misuses (part kind key rs) := by
  unfold part
  split <;> simp

theorem part_eq_ok_iff {r : Reading} :
    part kind key (readings fields) = .ok r ↔
      ∃ v, Fields.get? fields key = some v ∧ reading v = r := by
  unfold part
  rw [lookup_readings]
  cases Fields.get? fields key <;> simp

end

theorem misuses_loadItems_iff {d : Data} : Misuses (loadItems d) ↔ d.isBare = true := by
  cases d <;> simp [loadItems, Data.isBare]

theorem loadEach_eq_map (xs : List Data) : loadEach xs = xs.map fun x => load x false := by
  induction xs with
  | nil => rfl
  | cons x xs ih => simp only [loadEach, List.map_cons, ih]

/-- The items of a value are read up to the first that cannot be. Only those
of a list may misuse anything. -/
theorem misuses_items_iff {d : Data} {rs : List (Except Fault (Option Expr))}
    (h : loadItems d = .ok rs) :
    Misuses (readEach id rs) ↔
      ∃ xs, d = .list xs ∧
        FirstUnread (fun x => load x false) (fun x => Misuses (load x false)) xs := by
  rw [misuses_readEach_iff]
  have hread : ∀ {rs : List (Except Fault (Option Expr))}, (∀ r ∈ rs, ∃ e, r = .ok e) →
      ¬ FirstUnread id (fun r => Misuses (id r)) rs := by
    rintro rs hrs ⟨ys, r, zs, rfl, -, hr⟩
    obtain ⟨e, rfl⟩ := hrs r (by simp)
    exact not_misuses_ok e hr
  cases d with
  | list xs =>
      cases h
      rw [loadEach_eq_map]
      simp only [Data.list.injEq, exists_eq_left']
      rw [← misuses_mapM_iff, ← misuses_mapM_iff, List.mapM_map]
      rfl
  | obj fs =>
      cases h
      exact iff_of_false (hread (List.forall_mem_map.2 fun _ _ => ⟨_, rfl⟩)) nofun
  | str s =>
      cases h
      exact iff_of_false (hread (List.forall_mem_map.2 fun _ _ => ⟨_, rfl⟩)) nofun
  | _ => cases h

/-- Reading an expression misuses a value: of a function whose arguments, or
a lambda whose parameters, cannot be gone through; or else in a part of the
expression, when all that is read before it is in order. -/
inductive Misread : Data → Prop
  | arguments {fields : Fields} {f v : Data}
      (htype : fields.get? "type" = some (.str "Function"))
      (hname : fields.get? "name" = some f) (hv : fields.get? "arguments" = some v)
      (h : v.isBare = true) : Misread (.obj fields)
  | argument {fields : Fields} {f x : Data} {xs ys : List Data}
      (htype : fields.get? "type" = some (.str "Function"))
      (hname : fields.get? "name" = some f)
      (hv : fields.get? "arguments" = some (.list (xs ++ x :: ys)))
      (hxs : ∀ y ∈ xs, ∃ e, load y false = .ok e) (h : Misread x) : Misread (.obj fields)
  | parameters {fields : Fields} {v : Data}
      (htype : fields.get? "type" = some (.str "Lambda"))
      (hv : fields.get? "parameters" = some v) (h : v.items? = none) : Misread (.obj fields)
  | body {fields : Fields} {v x : Data} {ps : List Data}
      (htype : fields.get? "type" = some (.str "Lambda"))
      (hv : fields.get? "parameters" = some v) (hps : v.items? = some ps)
      (hx : fields.get? "body" = some x) (h : Misread x) : Misread (.obj fields)
  | operand {fields : Fields} {o x : Data}
      (htype : fields.get? "type" = some (.str "Unary"))
      (ho : fields.get? "operator" = some o) (hx : fields.get? "argument" = some x)
      (h : Misread x) : Misread (.obj fields)
  | left {fields : Fields} {o x : Data}
      (htype : fields.get? "type" = some (.str "Binary"))
      (ho : fields.get? "operator" = some o) (hx : fields.get? "left" = some x)
      (h : Misread x) : Misread (.obj fields)
  | right {fields : Fields} {o x y : Data} {e : Option Expr}
      (htype : fields.get? "type" = some (.str "Binary"))
      (ho : fields.get? "operator" = some o) (hx : fields.get? "left" = some x)
      (he : load x false = .ok e) (hy : fields.get? "right" = some y) (h : Misread y) :
      Misread (.obj fields)

theorem load_obj {fields : Fields} {kind : Data} (h : fields.get? "type" = some kind)
    (inAttribute : Bool) : load (.obj fields) inAttribute = build kind (readings fields) := by
  simp only [load, h]

/-- Only the kinds with parts that are gone through or are expressions misuse
anything. -/
theorem kind_of_misuses_build {kind : Data} {rs : List (String × Reading)}
    (h : Misuses (build kind rs)) :
    kind = .str "Unary" ∨ kind = .str "Binary" ∨ kind = .str "Function" ∨ kind = .str "Lambda" := by
  unfold build at h
  split at h <;> simp_all [misuses_bind_iff]

/-! What building each kind of expression misuses. -/

section

variable {fields : Fields}

theorem misuses_build_unary :
    Misuses (build (.str "Unary") (readings fields)) ↔
      ∃ o x, fields.get? "operator" = some o ∧ fields.get? "argument" = some x ∧
        Misuses (load x false) := by
  simp [build, misuses_bind_iff, part_eq_ok_iff, reading]

theorem misuses_build_binary :
    Misuses (build (.str "Binary") (readings fields)) ↔
      ∃ o x, fields.get? "operator" = some o ∧ fields.get? "left" = some x ∧
        (Misuses (load x false) ∨
          ∃ e y, load x false = .ok e ∧ fields.get? "right" = some y ∧
            Misuses (load y false)) := by
  simp [build, misuses_bind_iff, part_eq_ok_iff, reading]

theorem misuses_build_function :
    Misuses (build (.str "Function") (readings fields)) ↔
      ∃ f v, fields.get? "name" = some f ∧ fields.get? "arguments" = some v ∧
        (v.isBare = true ∨
          ∃ xs, v = .list xs ∧
            FirstUnread (fun x => load x false) (fun x => Misuses (load x false)) xs) := by
  have hitems : Misuses (partItems "arguments" (readings fields)) ↔
      ∃ v, fields.get? "arguments" = some v ∧ (v.isBare = true ∨
        ∃ xs, v = .list xs ∧
          FirstUnread (fun x => load x false) (fun x => Misuses (load x false)) xs) := by
    unfold partItems
    rw [lookup_readings]
    cases fields.get? "arguments" with
    | none => simp
    | some v =>
        simp only [Option.map_some, reading, misuses_bind_iff, misuses_loadItems_iff,
          Option.some.injEq, exists_eq_left']
        refine or_congr_right ⟨?_, ?_⟩
        · rintro ⟨rs, hrs, h⟩
          exact (misuses_items_iff hrs).1 h
        · rintro ⟨xs, rfl, h⟩
          exact ⟨loadEach xs, rfl, (misuses_items_iff rfl).2 ⟨xs, rfl, h⟩⟩
  simp [build, misuses_bind_iff, part_eq_ok_iff, hitems]

theorem misuses_build_lambda :
    Misuses (build (.str "Lambda") (readings fields)) ↔
      ∃ v, fields.get? "parameters" = some v ∧
        (v.items? = none ∨
          ∃ ps x, v.items? = some ps ∧ fields.get? "body" = some x ∧ Misuses (load x false)) := by
  simp [build, misuses_bind_iff, part_eq_ok_iff, reading, Data.misuses_itemsOr_iff,
    Data.itemsOr_eq_ok_iff]

end

/-- Reading an expression misuses a value exactly when the value is met
before anything else is wrong. -/
theorem load_misuses_iff {d : Data} {inAttribute : Bool} :
    Misuses (load d inAttribute) ↔ Misread d := by
  constructor
  · suffices key : ∀ d : Data, (∀ b, Misuses (load d b) → Misread d) ∧
        ∀ xs, d = .list xs → ∀ x ∈ xs, ∀ b, Misuses (load x b) → Misread x from
      (key d).1 inAttribute
    intro d
    induction d using Data.ind with
    | list xs ih =>
        refine ⟨fun b => by simp [load], fun ys h x hx => ?_⟩
        cases h
        exact (ih x hx).1
    | obj fields ih =>
        refine ⟨fun b h => ?_, fun xs h => by cases h⟩
        have hfield : ∀ {key v}, Fields.get? fields key = some v →
            (∀ b, Misuses (load v b) → Misread v) ∧
              ∀ xs, v = .list xs → ∀ x ∈ xs, ∀ b, Misuses (load x b) → Misread x := by
          intro key v hv
          obtain ⟨f, hf, rfl⟩ := Fields.exists_mem_of_get? hv
          exact ih f hf
        cases htype : Fields.get? fields "type" with
        | none => simp [load, htype] at h
        | some kind =>
            rw [load_obj htype] at h
            rcases kind_of_misuses_build h with rfl | rfl | rfl | rfl
            · obtain ⟨o, x, ho, hx, h⟩ := misuses_build_unary.1 h
              exact .operand htype ho hx ((hfield hx).1 _ h)
            · obtain ⟨o, x, ho, hx, h | ⟨e, y, he, hy, h⟩⟩ := misuses_build_binary.1 h
              · exact .left htype ho hx ((hfield hx).1 _ h)
              · exact .right htype ho hx he hy ((hfield hy).1 _ h)
            · obtain ⟨f, v, hf, hv, h | ⟨_, rfl, xs, x, ys, rfl, hxs, h⟩⟩ :=
                misuses_build_function.1 h
              · exact .arguments htype hf hv h
              · exact .argument htype hf hv hxs ((hfield hv).2 _ rfl x (by simp) _ h)
            · obtain ⟨v, hv, h | ⟨ps, x, hps, hx, h⟩⟩ := misuses_build_lambda.1 h
              · exact .parameters htype hv h
              · exact .body htype hv hps hx ((hfield hx).1 _ h)
    | _ => exact ⟨fun b => by simp [load], fun xs h => by cases h⟩
  · intro h
    induction h generalizing inAttribute with
    | arguments htype hname hv h =>
        rw [load_obj htype, misuses_build_function]
        exact ⟨_, _, hname, hv, Or.inl h⟩
    | argument htype hname hv hxs h ih =>
        rw [load_obj htype, misuses_build_function]
        exact ⟨_, _, hname, hv, Or.inr ⟨_, rfl, _, _, _, rfl, hxs, ih⟩⟩
    | parameters htype hv h =>
        rw [load_obj htype, misuses_build_lambda]
        exact ⟨_, hv, Or.inl h⟩
    | body htype hv hps hx h ih =>
        rw [load_obj htype, misuses_build_lambda]
        exact ⟨_, hv, Or.inr ⟨_, _, hps, hx, ih⟩⟩
    | operand htype ho hx h ih =>
        rw [load_obj htype, misuses_build_unary]
        exact ⟨_, _, ho, hx, ih⟩
    | left htype ho hx h ih =>
        rw [load_obj htype, misuses_build_binary]
        exact ⟨_, _, ho, hx, Or.inl ih⟩
    | right htype ho hx he hy h ih =>
        rw [load_obj htype, misuses_build_binary]
        exact ⟨_, _, ho, hx, Or.inr ⟨_, _, he, hy, ih⟩⟩

end Expr

/-! ## Statements -/

@[simp]
theorem Relation.not_misuses_load (d : Data) : ¬ Misuses (Relation.load d) := by
  unfold load
  split <;> simp

namespace Statement

@[simp]
theorem not_misuses_attributeFields (d : Data) : ¬ Misuses (attributeFields d) := by
  simp only [attributeFields]
  split
  · split <;> simp
  · simp

/-- The relation of a statement is in order, and its attributes have fields. -/
structure Framed (d : Data) (attributes : Fields) : Prop where
  relation : ∃ x r, d.get? "relation" = some x ∧ Relation.load x = .ok r
  attributes : attributeFields d = .ok attributes

/-- Reading a statement misuses a value in its subject, its object or the value
of an attribute, when all that is read before it is in order. -/
inductive Misread (d : Data) : Prop
  | subject {attributes : Fields} {x : Data} (hframe : Framed d attributes)
      (hx : d.get? "subject" = some x) (h : Expr.Misread x)
  | object {attributes : Fields} {x y : Data} {e : Option Expr} (hframe : Framed d attributes)
      (hx : d.get? "subject" = some x) (he : Expr.load x false = .ok e)
      (hy : d.get? "object" = some y) (h : Expr.Misread y)
  | attribute {before after : Fields} {key : String} {x y z : Data} {e f : Option Expr}
      (hframe : Framed d (before ++ (key, z) :: after))
      (hx : d.get? "subject" = some x) (he : Expr.load x false = .ok e)
      (hy : d.get? "object" = some y) (hf : Expr.load y false = .ok f)
      (hbefore : ∀ b ∈ before, ∃ e, Expr.load b.2 true = .ok e) (h : Expr.Misread z)

theorem misuses_loadAttribute_iff {f : String × Data} :
    Misuses (loadAttribute f) ↔ Expr.Misread f.2 := by
  simp [loadAttribute, Expr.load_misuses_iff]

theorem exists_loadAttribute_iff {f : String × Data} :
    (∃ a, loadAttribute f = .ok a) ↔ ∃ e, Expr.load f.2 true = .ok e := by
  simp [loadAttribute, bind_eq_ok_iff, pure, Except.pure]

/-- Reading a statement misuses a value exactly when the value is met before
anything else is wrong. -/
theorem load_misuses_iff {d : Data} : Misuses (load d) ↔ Misread d := by
  simp only [load, misuses_bind_iff, Data.not_misuses_require, Relation.not_misuses_load,
    not_misuses_attributeFields, Data.require_eq_ok_iff, not_misuses_pure, and_false, exists_false,
    or_false, false_or, Expr.load_misuses_iff, misuses_readEach_iff, FirstUnread, misuses_loadAttribute_iff,
    exists_loadAttribute_iff]
  constructor
  · rintro ⟨r, hr, rel, hrel, as, has, x, hx, h⟩
    have hframe : Framed d as := ⟨⟨r, rel, hr, hrel⟩, has⟩
    obtain h | ⟨e, he, y, hy, h | ⟨f, hf, before, ⟨key, z⟩, after, rfl, hbefore, h⟩⟩ := h
    · exact .subject hframe hx h
    · exact .object hframe hx he hy h
    · exact .attribute hframe hx he hy hf hbefore h
  · rintro (⟨⟨⟨r, rel, hr, hrel⟩, has⟩, hx, h⟩ | ⟨⟨⟨r, rel, hr, hrel⟩, has⟩, hx, he, hy, h⟩ |
      ⟨⟨⟨r, rel, hr, hrel⟩, has⟩, hx, he, hy, hf, hbefore, h⟩)
    · exact ⟨r, hr, rel, hrel, _, has, _, hx, Or.inl h⟩
    · exact ⟨r, hr, rel, hrel, _, has, _, hx, Or.inr ⟨_, he, _, hy, Or.inl h⟩⟩
    · exact ⟨r, hr, rel, hrel, _, has, _, hx, Or.inr ⟨_, he, _, hy, Or.inr ⟨_, hf, _, _, _, rfl,
        hbefore, h⟩⟩⟩

end Statement

end TripleLogic
