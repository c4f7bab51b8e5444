/-
TripleLogic.Proofs.Finiteness — values without infinite numbers.

A value is finite when none of its numbers is an infinity or no number. What
is read from a finite value, an expression, a statement or a node, is written
as finite values again.

Main statements: a finite value is read as a finite node (`Node.finite_ofData`),
and what is written for a finite node is finite (`Node.Finite.toData`).
-/
import TripleLogic.Proofs.Inside
import TripleLogic.Proofs.Misuse
import TripleLogic.Proofs.RoundTrip

namespace TripleLogic

/-! ## Plain data -/

/-- All numbers of a value are finite. -/
inductive Data.Finite : Data → Prop
  | null : Finite .null
  | bool (b : Bool) : Finite (.bool b)
  | int (n : Int) : Finite (.num (.int n))
  | float {x : Binary64} (h : x.isFinite = true) : Finite (.num (.float x))
  | str (s : String) : Finite (.str s)
  | list {xs : List Data} (h : ∀ x ∈ xs, Finite x) : Finite (.list xs)
  | obj {fields : Fields} (h : ∀ f ∈ fields, Finite f.2) : Finite (.obj fields)
  | map {entries : List (Data × Data)} (hkeys : ∀ e ∈ entries, Finite e.1)
      (hvalues : ∀ e ∈ entries, Finite e.2) : Finite (.map entries)

namespace Data

theorem finite_list {xs : List Data} : (Data.list xs).Finite ↔ ∀ x ∈ xs, x.Finite :=
  ⟨fun h => by cases h; assumption, .list⟩

theorem finite_obj {fields : Fields} : (Data.obj fields).Finite ↔ ∀ f ∈ fields, f.2.Finite :=
  ⟨fun h => by cases h; assumption, .obj⟩

theorem finite_map {entries : List (Data × Data)} :
    (Data.map entries).Finite ↔ ∀ e ∈ entries, e.1.Finite ∧ e.2.Finite := by
  refine ⟨fun h => ?_, fun h => .map (fun e he => (h e he).1) fun e he => (h e he).2⟩
  cases h with
  | map hkeys hvalues => exact fun e he => ⟨hkeys e he, hvalues e he⟩

theorem finite_texts (ss : List String) : (Data.texts ss).Finite :=
  .list (List.forall_mem_map.2 fun s _ => .str s)

theorem finite_ofText? (s : Option String) : (ofText? s).Finite := by
  cases s with
  | none => exact .null
  | some s => exact .str s

namespace Finite

theorem field {fields : Fields} (h : (Data.obj fields).Finite) {key : String} {v : Data}
    (hv : fields.get? key = some v) : v.Finite := by
  obtain ⟨f, hf, rfl⟩ := Fields.exists_mem_of_get? hv
  exact finite_obj.1 h f hf

theorem of_get? {d v : Data} (h : d.Finite) {key : String} (hv : d.get? key = some v) :
    v.Finite := by
  cases d with
  | obj fields => exact h.field hv
  | _ => cases hv

theorem optional {d : Data} (h : d.Finite) (key : String) : (d.optional key).Finite := by
  unfold Data.optional
  cases hv : d.get? key with
  | none => exact .null
  | some v => exact h.of_get? hv

/-- The parts of a finite value are finite. -/
theorem of_mem_items {d : Data} (h : d.Finite) {xs : List Data} (hxs : d.items? = some xs) :
    ∀ x ∈ xs, x.Finite := by
  cases d with
  | list ys =>
      cases hxs
      exact finite_list.1 h
  | obj fields =>
      cases hxs
      exact List.forall_mem_map.2 fun f _ => .str f.1
  | map entries =>
      cases hxs
      exact List.forall_mem_map.2 fun e he => (finite_map.1 h e he).1
  | str s =>
      cases hxs
      exact List.forall_mem_map.2 fun c _ => .str _
  | _ => cases hxs

end Finite

end Data

/-! ## Expressions -/

namespace Expr

/-- What is written for an expression is finite. -/
def Finite (e : Expr) : Prop :=
  ∀ inAttribute, (e.toData inAttribute).Finite

theorem finite_concept (name : String) : (Expr.concept name).Finite := fun _ => .str _

theorem finite_identifier (name : String) : (Expr.identifier name).Finite := by
  intro inAttribute
  simp only [toData, identifierData]
  split
  · exact Data.finite_obj.2 (by simp [Data.Finite.str])
  · exact .str _

theorem finite_ofValue {d : Data} (h : d.Finite) : (ofValue d).Finite := by
  intro inAttribute
  cases d with
  | str s =>
      simp only [ofValue, toData, scalarData]
      split
      · exact .str s
      · exact Data.finite_obj.2 (by simp [Data.Finite.str])
  | _ => exact h

theorem finite_ofString (inAttribute : Bool) (s : String) : (ofString inAttribute s).Finite := by
  unfold ofString
  split
  · exact finite_concept _
  · split
    · exact finite_ofValue (.str s)
    · exact finite_identifier s

theorem finite_unary {o : String} {a : Expr} (h : a.Finite) : (Expr.unary o a).Finite :=
  fun _ => Data.finite_obj.2 (by simp [Data.Finite.str, h false])

theorem finite_binary {o : String} {a b : Expr} (ha : a.Finite) (hb : b.Finite) :
    (Expr.binary o a b).Finite :=
  fun _ => Data.finite_obj.2 (by simp [Data.Finite.str, ha false, hb false])

theorem finite_application {f : String} {as : List Expr} (h : ∀ a ∈ as, a.Finite) :
    (Expr.application f as).Finite := by
  intro inAttribute
  have has : (Data.list (toDataAll as)).Finite := by
    rw [Data.finite_list, toDataAll_eq_map, List.forall_mem_map]
    exact fun a ha => h a ha false
  exact Data.finite_obj.2 (by simp [Data.Finite.str, has])

theorem finite_lambda {ps : List String} {a : Expr} (h : a.Finite) : (Expr.lambda ps a).Finite :=
  fun _ => Data.finite_obj.2 (by simp [Data.Finite.str, Data.finite_texts, h false])

/-- The value and the readings of a field are finite. -/
structure Reading.Finite (r : Reading) : Prop where
  value : r.value.Finite
  whole : ∀ e, r.whole = .ok (some e) → e.Finite
  items : ∀ es, (r.items >>= readEach id) = .ok (some es) → ∀ e ∈ es, e.Finite

section

variable {fields : Fields}
  (hr : ∀ {key v}, Fields.get? fields key = some v → (reading v).Finite)

include hr

theorem finite_partItems {key : String} {es : List Expr}
    (h : partItems key (readings fields) = .ok (some es)) : ∀ e ∈ es, e.Finite := by
  unfold partItems at h
  rw [lookup_readings] at h
  cases hv : Fields.get? fields key with
  | none =>
      rw [hv] at h
      cases h
      exact List.forall_mem_nil _
  | some v =>
      rw [hv] at h
      exact (hr hv).items es h

/-- An expression is built from what is finite in the readings of its fields. -/
theorem finite_build {kind : Data} {e : Expr}
    (h : build kind (readings fields) = .ok (some e)) : e.Finite := by
  unfold build at h
  split at h <;> try simp only [bind_eq_ok_iff, part_eq_ok_iff] at h
  · obtain ⟨_, ⟨v, hv, rfl⟩, h⟩ := h
    cases hname : v.text? <;> simp only [reading, hname] at h <;> cases h
    exact finite_concept _
  · obtain ⟨_, ⟨v, hv, rfl⟩, h⟩ := h
    cases hname : v.text? <;> simp only [reading, hname] at h <;> cases h
    exact finite_identifier _
  · obtain ⟨_, ⟨v, hv, rfl⟩, h⟩ := h
    cases h
    exact finite_ofValue (hr hv).value
  · obtain ⟨_, ⟨w, hw, rfl⟩, _, ⟨v, hv, rfl⟩, a, ha, h⟩ := h
    cases hname : w.text? <;> cases a <;> simp only [reading, hname] at h <;> cases h
    exact finite_unary ((hr hv).whole _ ha)
  · obtain ⟨_, ⟨u, hu, rfl⟩, _, ⟨v, hv, rfl⟩, a, ha, _, ⟨w, hw, rfl⟩, b, hb, h⟩ := h
    cases hname : u.text? <;> cases a <;> cases b <;> simp only [reading, hname] at h <;> cases h
    exact finite_binary ((hr hv).whole _ ha) ((hr hw).whole _ hb)
  · obtain ⟨_, ⟨w, hw, rfl⟩, as, has, h⟩ := h
    cases hname : w.text? <;> cases as <;> simp only [reading, hname] at h <;> cases h
    exact finite_application (finite_partItems hr has)
  · obtain ⟨_, ⟨v, hv, rfl⟩, xs, -, _, ⟨w, hw, rfl⟩, a, ha, h⟩ := h
    cases hps : xs.mapM Data.text? <;> cases a <;> simp only [hps] at h <;> cases h
    exact finite_lambda ((hr hw).whole _ ha)
  · cases h

end

/-- A finite value is read as finite expressions, as a whole and item by item. -/
theorem finite_reading (d : Data) (h : d.Finite) :
    (∀ inAttribute e, load d inAttribute = .ok (some e) → e.Finite) ∧
      ∀ es, (loadItems d >>= readEach id) = .ok (some es) → ∀ e ∈ es, e.Finite := by
  have hitems : ∀ {rs : List (Except Fault (Option Expr))} {es : List Expr},
      (∀ r ∈ rs, ∀ e, r = .ok (some e) → e.Finite) → readEach id rs = .ok (some es) →
        ∀ e ∈ es, e.Finite := by
    intro rs es hrs hes e he
    obtain ⟨r, hr, hread⟩ := exists_of_mem_mapM (readEach_eq_ok_iff.1 hes) e he
    exact hrs r hr e (named_eq_ok_iff.1 hread)
  induction d using Data.ind with
  | list xs ih =>
      refine ⟨nofun, fun es hes => hitems (fun r hr e he => ?_) hes⟩
      rw [loadEach_eq_map] at hr
      obtain ⟨x, hx, rfl⟩ := List.mem_map.1 hr
      exact (ih x hx (Data.finite_list.1 h x hx)).1 false e he
  | obj fields ih =>
      constructor
      · intro inAttribute e he
        simp only [load] at he
        split at he
        · cases he
        · refine finite_build (fun {key v} hv => ?_) he
          obtain ⟨f, hf, rfl⟩ := Fields.exists_mem_of_get? hv
          have hfinite := Data.finite_obj.1 h f hf
          exact ⟨hfinite, (ih f hf hfinite).1 false, (ih f hf hfinite).2⟩
      · refine fun es hes => hitems (fun r hr e he => ?_) hes
        obtain ⟨f, -, rfl⟩ := List.mem_map.1 hr
        cases he
        exact finite_ofString false f.1
  | str s =>
      constructor
      · intro inAttribute e he
        cases he
        exact finite_ofString inAttribute s
      · refine fun es hes => hitems (fun r hr e he => ?_) hes
        obtain ⟨c, -, rfl⟩ := List.mem_map.1 hr
        cases he
        exact finite_ofString false _
  | bool b =>
      refine ⟨fun _ e he => ?_, fun es hes => by cases hes⟩
      cases he
      exact fun _ => h
  | num n =>
      refine ⟨fun _ e he => ?_, fun es hes => by cases hes⟩
      cases he
      exact fun _ => h
  | null => exact ⟨fun _ _ he => (by cases he), fun es hes => by cases hes⟩
  | map entries => exact ⟨fun _ _ he => (by cases he), fun es hes => by cases hes⟩

theorem finite_ofData {d : Data} (h : d.Finite) {inAttribute : Bool} {e : Expr}
    (he : ofData d inAttribute = .ok e) : e.Finite :=
  (finite_reading d h).1 inAttribute e (named_eq_ok_iff.1 he)

end Expr

/-! ## Statements -/

theorem Relation.finite_tense {d : Data} (h : d.Finite) {r : Relation}
    (hr : load d = .ok (some r)) : r.tense.Finite := by
  unfold load at hr
  split at hr
  · obtain ⟨name, -, hr⟩ := bind_eq_ok_iff.1 hr
    cases hname : name.text? <;> simp only [hname] at hr <;> cases hr
    exact h.optional "tense"
  · cases hr
    exact .null

namespace Statement

/-- What is written for the parts of a statement is finite. -/
structure Finite (s : Statement) : Prop where
  subject : s.subject.Finite
  object : s.object.Finite
  attributes : ∀ a ∈ s.attributes, a.2.Finite
  tense : s.relation.tense.Finite

theorem Finite.toData {s : Statement} (h : s.Finite) : s.toData.Finite := by
  have hrelation : s.relation.toData.Finite := by
    unfold Relation.toData
    split
    · exact Data.finite_obj.2 (by simp [Data.Finite.str, h.tense])
    · exact .str _
  have hattributes : (Data.obj (s.attributes.map fun a => (a.1, a.2.toData true))).Finite :=
    Data.finite_obj.2 (List.forall_mem_map.2 fun a ha => h.attributes a ha true)
  unfold Statement.toData
  split
  · exact Data.finite_obj.2 (by simp [h.subject false, h.object false, hrelation])
  · exact Data.finite_obj.2 (by simp [h.subject false, h.object false, hrelation, hattributes])

theorem finite_attributeFields {d : Data} (h : d.Finite) {fields : Fields}
    (hfields : attributeFields d = .ok fields) : ∀ f ∈ fields, f.2.Finite := by
  simp only [attributeFields] at hfields
  split at hfields
  · split at hfields
    · next hobj =>
        cases hfields
        exact Data.finite_obj.1 (hobj ▸ h.optional "attributes")
    · cases hfields
  · cases hfields
    exact List.forall_mem_nil _

/-- A finite value is read as a finite statement. -/
theorem finite_ofData {d : Data} (h : d.Finite) {s : Statement} (hs : ofData d = .ok s) :
    s.Finite := by
  simp only [ofData_eq_ok_iff, Data.require_eq_ok_iff] at hs
  obtain ⟨x, relation, fields, y, subject, z, object, attributes, hx, hrelation, hfields, hy,
    hsubject, hz, hobject, hattributes, rfl⟩ := hs
  refine ⟨Expr.finite_ofData (h.of_get? hy) hsubject, Expr.finite_ofData (h.of_get? hz) hobject,
    fun a ha => ?_, Relation.finite_tense (h.of_get? hx) hrelation⟩
  obtain ⟨f, hf, hread⟩ := exists_of_mem_mapM hattributes a (List.mem_mergeSort.1 ha)
  obtain ⟨e, he, rfl⟩ := named_loadAttribute_iff.1 hread
  exact Expr.finite_ofData (finite_attributeFields h hfields f hf) he

end Statement

/-! ## Nodes -/

/-- The keys and the values of metadata are finite. -/
def Metadata.Finite (entries : Metadata) : Prop :=
  ∀ e ∈ entries, e.1.Finite ∧ e.2.Finite

theorem Metadata.Finite.toData {entries : Metadata} (h : entries.Finite) :
    entries.toData.Finite := by
  unfold Metadata.toData
  split
  · next fields hfields =>
      have hback : ofFields fields = entries := ofFields_of_fields? hfields
      refine .obj fun f hf => ?_
      exact (h (.str f.1, f.2) (hback ▸ List.mem_map_of_mem hf)).2
  · exact Data.finite_map.2 h

theorem Metadata.Finite.set {entries : Metadata} (h : entries.Finite) {key value : Data}
    (hkey : key.Finite) (hvalue : value.Finite) : (entries.set key value).Finite := by
  intro e he
  unfold Metadata.set at he
  split at he
  · obtain ⟨e', he', rfl⟩ := List.mem_map.1 he
    split
    · exact ⟨(h e' he').1, hvalue⟩
    · exact h e' he'
  · rcases List.mem_append.1 he with he | he
    · exact h e he
    · rw [List.mem_singleton.1 he]
      exact ⟨hkey, hvalue⟩

theorem finite_metadataPairs {xs : List Data} : ∀ {i : Nat} {acc entries : Metadata},
    (∀ x ∈ xs, x.Finite) → acc.Finite → metadataPairs i acc xs = .ok entries → entries.Finite := by
  induction xs with
  | nil =>
      intro i acc entries _ hacc h
      cases h
      exact hacc
  | cons x xs ih =>
      intro i acc entries hxs hacc h
      obtain ⟨hx, hxs⟩ := List.forall_mem_cons.1 hxs
      simp only [metadataPairs] at h
      split at h
      · next k v hitems =>
          have hpair := hx.of_mem_items hitems
          split at h
          · cases h
          · exact ih hxs (hacc.set (hpair k (by simp)) (hpair v (by simp))) h
      · cases h
      · cases h

theorem finite_metadataOfData {d : Data} (h : d.Finite) {entries : Metadata}
    (he : metadataOfData d = .ok entries) : entries.Finite := by
  unfold metadataOfData at he
  split at he
  · split at he
    · cases he
      exact List.forall_mem_map.2 fun f hf => ⟨.str f.1, Data.finite_obj.1 h f hf⟩
    · cases he
      exact Data.finite_map.1 h
    · obtain ⟨items, hitems, he⟩ := bind_eq_ok_iff.1 he
      exact finite_metadataPairs (h.of_mem_items (Data.itemsOr_eq_ok_iff.1 hitems))
        (List.forall_mem_nil _) he
  · cases he
    exact List.forall_mem_nil _

namespace Node

/-- What is written for a node's own payload and its own statements is finite. -/
def OwnFinite : Node → Prop
  | .intent i =>
      (∀ s ∈ i.statements, s.Finite) ∧ i.confidence.Finite ∧ i.coherence.Finite ∧ i.metadata.Finite
  | .rule _ _ _ _ _ c => c.Finite
  | .edge e => e.confidence.Finite ∧ e.metadata.Finite
  | _ => True

/-- What is written for a node, and for all nodes inside it, is finite. -/
def Finite (n : Node) : Prop :=
  n.Everywhere OwnFinite

theorem finite_intent {i : Intent} : (Node.intent i).Finite ↔ OwnFinite (.intent i) :=
  everywhere_intent

theorem finite_compound {o : Connective} {a b : Option Node} :
    (Node.compound o a b).Finite ↔ (∀ n, a = some n → n.Finite) ∧ ∀ n, b = some n → n.Finite :=
  everywhere_compound.trans (and_iff_right trivial)

theorem finite_quantified {q : Quantifier} {v : String} {a : Node} {d : Option String} :
    (Node.quantified q v a d).Finite ↔ a.Finite :=
  everywhere_quantified.trans (and_iff_right trivial)

theorem finite_rule {i : String} {a b : Node} {d : Option String} {x : Bool} {c : Data} :
    (Node.rule i a b d x c).Finite ↔ c.Finite ∧ a.Finite ∧ b.Finite :=
  everywhere_rule

theorem finite_edge {e : Edge} : (Node.edge e).Finite ↔ OwnFinite (.edge e) :=
  everywhere_edge

theorem Finite.of_mem_children {n c : Node} (h : n.Finite) (hc : c ∈ n.children) : c.Finite :=
  Everywhere.of_mem_children h hc

/-! What is written. -/

theorem finite_unlessNull {key : String} {d : Data} (h : d.Finite) :
    ∀ f ∈ unlessNull key d, f.2.Finite := by
  unfold unlessNull
  split
  · exact List.forall_mem_nil _
  · simpa using h

theorem finite_metadataField {entries : Metadata} (h : entries.Finite) :
    ∀ f ∈ metadataField entries, f.2.Finite := by
  unfold metadataField
  split
  · exact List.forall_mem_nil _
  · simpa using h.toData

theorem finite_textField (key : String) (s : Option String) :
    ∀ f ∈ textField key s, f.2.Finite := by
  cases s with
  | none => exact List.forall_mem_nil _
  | some s => simpa [textField] using Data.Finite.str s

theorem finite_operandField {key : String} {a : Option Node}
    (h : ∀ n, a = some n → n.toData.Finite) : ∀ f ∈ operandField key a, f.2.Finite := by
  cases a with
  | none => exact List.forall_mem_nil _
  | some n => simpa [operandField] using h n rfl

theorem Finite.toData {n : Node} (h : n.Finite) : n.toData.Finite := by
  induction n using Node.ind with
  | intent i =>
      obtain ⟨hstatements, hconfidence, hcoherence, hmetadata⟩ := finite_intent.1 h
      refine .obj ?_
      simp only [List.forall_mem_append, List.forall_mem_cons, List.not_mem_nil,
        false_implies, implies_true, and_true]
      have hlist : (Data.list (i.statements.map Statement.toData)).Finite :=
        .list (List.forall_mem_map.2 fun s hs => (hstatements s hs).toData)
      exact ⟨⟨⟨⟨.str _, .str _, hlist⟩, finite_unlessNull hconfidence⟩,
        finite_unlessNull hcoherence⟩, finite_metadataField hmetadata⟩
  | compound o a b iha ihb =>
      obtain ⟨ha, hb⟩ := finite_compound.1 h
      refine .obj ?_
      simp only [List.forall_mem_append, List.forall_mem_cons, List.not_mem_nil,
        false_implies, implies_true, and_true]
      exact ⟨⟨⟨.str _, .str _⟩, finite_operandField fun n hn => iha n hn (ha n hn)⟩,
        finite_operandField fun n hn => ihb n hn (hb n hn)⟩
  | quantified q v a d ih =>
      have ha := finite_quantified.1 h
      refine .obj ?_
      simp only [List.forall_mem_append, List.forall_mem_cons, List.not_mem_nil,
        false_implies, implies_true, and_true]
      exact ⟨⟨.str _, .str _, .str _, ih ha⟩, finite_textField _ d⟩
  | rule i a b d x c iha ihb =>
      obtain ⟨hc, ha, hb⟩ := finite_rule.1 h
      refine .obj ?_
      simp only [List.forall_mem_append, List.forall_mem_cons, List.not_mem_nil,
        false_implies, implies_true, and_true]
      exact ⟨⟨⟨.str _, .str _, iha ha, ihb hb, .bool x⟩, finite_textField _ d⟩,
        finite_unlessNull hc⟩
  | edge e =>
      obtain ⟨hconfidence, hmetadata⟩ := finite_edge.1 h
      refine .obj ?_
      simp only [List.forall_mem_append, List.forall_mem_cons, List.not_mem_nil,
        false_implies, implies_true, and_true]
      exact ⟨⟨⟨.str _, .str _, .str _, .str _, .str _, .bool _⟩,
        finite_unlessNull hconfidence⟩, finite_metadataField hmetadata⟩

/-! What is read. -/

theorem ownFinite_intent {d : Data} (h : d.Finite) {i : Intent}
    (hi : Intent.load d = .ok (some i)) : OwnFinite (.intent i) := by
  obtain ⟨items, hv, hstatements, hmetadata, hconfidence, hcoherence⟩ := Intent.exists_of_load hi
  have hitems := Data.finite_list.1 (h.of_get? (Data.require_eq_ok_iff.1 hv))
  refine ⟨fun s hs => ?_, hconfidence ▸ h.optional _, hcoherence ▸ h.optional _,
    finite_metadataOfData (h.optional _) hmetadata⟩
  obtain ⟨x, hx, hread⟩ := exists_of_mem_mapM hstatements s hs
  exact Statement.finite_ofData (hitems x hx) hread

theorem ownFinite_edge {d : Data} (h : d.Finite) {e : Edge} (he : Edge.load d = .ok (some e)) :
    OwnFinite (.edge e) := by
  obtain ⟨hmetadata, hconfidence⟩ := Edge.payload_of_load he
  exact ⟨hconfidence ▸ h.optional _, finite_metadataOfData (h.optional _) hmetadata⟩

theorem finite_build {kind d : Data} (hd : d.Finite) {rs : Readings}
    (hr : ∀ r ∈ rs, ∀ m, r.2 = .ok (some m) → m.Finite) {n : Node}
    (h : build kind d rs = .ok (some n)) : n.Finite := by
  have hpart : ∀ {m : Node}, (∃ r ∈ rs, r.2 = .ok (some m)) → m.Finite :=
    fun ⟨r, hmem, hm⟩ => hr r hmem _ hm
  cases built_of_build h with
  | intent hi => exact finite_intent.2 (ownFinite_intent hd hi)
  | compound ha hb =>
      exact finite_compound.2
        ⟨fun m hm => hpart (operand_mem ha hm), fun m hm => hpart (operand_mem hb hm)⟩
  | quantified ha => exact finite_quantified.2 (hpart (part_mem ha))
  | rule ha hb =>
      exact finite_rule.2 ⟨hd.optional _, hpart (part_mem ha), hpart (part_mem hb)⟩
  | edge he => exact finite_edge.2 (ownFinite_edge hd he)

theorem readings_eq_map (fields : Fields) :
    readings fields = fields.map fun f => (f.1, load f.2) := by
  induction fields with
  | nil => rfl
  | cons f fields ih => simp only [readings, List.map_cons, ih]

theorem finite_load {d : Data} (h : d.Finite) {n : Node} (hn : load d = .ok (some n)) :
    n.Finite := by
  induction d using Data.ind generalizing n with
  | obj fields ih =>
      simp only [load] at hn
      split at hn
      · cases hn
      · refine finite_build h (fun r hr m hm => ?_) hn
        rw [readings_eq_map] at hr
        obtain ⟨f, hf, rfl⟩ := List.mem_map.1 hr
        exact ih f hf (Data.finite_obj.1 h f hf) hm
  | _ => cases hn

/-- A finite value is read as a finite node. -/
theorem finite_ofData {d : Data} (h : d.Finite) {n : Node} (hn : ofData d = .ok n) : n.Finite :=
  finite_load h (named_eq_ok_iff.1 hn)

end Node

end TripleLogic
