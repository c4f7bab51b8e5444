/-
TripleLogic.Proofs.Records — what is read from the record of a node, part by
part.

A field without a value is left out of a record, and a field that is missing
is read as the value that was left out; so are confidence, coherence,
metadata, domains and operands. What remains to be read from the record of a
node are the records of the statements and nodes inside it (`ofData_intent_iff`,
`ofData_compound_iff`, `ofData_quantified_iff`, `ofData_rule_iff`, `ofData_edge`).
-/
import TripleLogic.Node.Record

namespace TripleLogic

/-! ## The fields of a node's record -/

namespace Fields

/-- A field that is left out when it has no value. -/
def single (key : String) (value : Option Data) : Fields :=
  (value.map fun d => (key, d)).toList

theorem get?_append (fields fields' : Fields) (key : String) :
    get? (fields ++ fields') key = (get? fields key).or (get? fields' key) := by
  rw [get?, List.lookup_append, get?, get?]

theorem get?_single (key key' : String) (value : Option Data) :
    get? (single key value) key' = if key = key' then value else none := by
  cases value <;> simp [single, get?_cons, get?_nil]

end Fields

theorem Metadata.ofFields_of_fields? : ∀ {entries : Metadata} {fields : Fields},
    fields? entries = some fields → ofFields fields = entries
  | [], fields, h => by
      cases h
      rfl
  | (k, v) :: entries, fields, h => by
      simp only [fields?, List.mapM_cons, Option.bind_eq_bind, Option.bind_eq_some_iff] at h
      obtain ⟨f, hf, fs, hfs, h⟩ := h
      cases h
      have ih : ofFields fs = entries := ofFields_of_fields? hfs
      cases k with
      | str k =>
          cases hf
          simp only [ofFields, List.map_cons] at ih ⊢
          rw [ih]
      | _ => cases hf

/-- Metadata is read as it is written. -/
theorem metadataOfData_toData {entries : Metadata} (h : entries ≠ []) :
    metadataOfData entries.toData = .ok entries := by
  cases hf : entries.fields? with
  | none =>
      have hmap : entries.toData = .map entries := by simp only [Metadata.toData, hf]
      simp [hmap, metadataOfData, Data.truthy, h]
  | some fields =>
      have hobj : entries.toData = .obj fields := by simp only [Metadata.toData, hf]
      have hback : Metadata.ofFields fields = entries := Metadata.ofFields_of_fields? hf
      have hne : fields ≠ [] := by
        rintro rfl
        exact h hback.symm
      simp [hobj, metadataOfData, Data.truthy, hne, hback]

namespace Node

theorem unlessNull_eq (key : String) (d : Data) :
    ∃ value, unlessNull key d = .single key value ∧ value.getD .null = d := by
  cases d with
  | null => exact ⟨none, rfl, rfl⟩
  | _ => exact ⟨some _, rfl, rfl⟩

theorem metadataField_eq (entries : Metadata) :
    ∃ value, metadataField entries = .single "metadata" value ∧
      metadataOfData (value.getD .null) = .ok entries := by
  cases entries with
  | nil => exact ⟨none, rfl, rfl⟩
  | cons e entries => exact ⟨some _, rfl, metadataOfData_toData (List.cons_ne_nil e entries)⟩

theorem textField_eq (key : String) (s : Option String) :
    textField key s = .single key (s.map .str) := by
  cases s <;> rfl

theorem operandField_eq (key : String) (a : Option Node) :
    operandField key a = Fields.single key (a.map toData) := by
  cases a <;> rfl

end Node

/-! ## What a record was read from -/

section

variable {d : Data}

/-- A statement is read from the values of its record. -/
theorem Statement.ofData_eq_ok_iff {s : Statement} :
    ofData d = .ok s ↔ ∃ r relation fields x subject y object attributes,
      d.require "Statement" "relation" = .ok r ∧ Relation.load r = .ok (some relation) ∧
        attributeFields d = .ok fields ∧
        d.require "Statement" "subject" = .ok x ∧ Expr.ofData x false = .ok subject ∧
        d.require "Statement" "object" = .ok y ∧ Expr.ofData y false = .ok object ∧
        fields.mapM (fun f => named (loadAttribute f)) = .ok attributes ∧
        make subject relation object attributes = s := by
  have hmake : ∀ {e f : Option Expr} {r : Option Relation} {as : Option (List (String × Expr))},
      make <$> e <*> r <*> f <*> as = some s ↔ ∃ e' r' f' as', e = some e' ∧ r = some r' ∧
        f = some f' ∧ as = some as' ∧ make e' r' f' as' = s := by
    intro e f r as
    cases e <;> cases r <;> cases f <;> cases as <;> simp [Seq.seq]
  simp only [ofData, Expr.ofData, named_eq_ok_iff, load, bind_eq_ok_iff, pure, Except.pure,
    Except.ok.injEq, hmake, ← readEach_eq_ok_iff]
  constructor
  · rintro ⟨r, hr, relation, hrelation, fields, hfields, x, hx, subject, hsubject, y, hy, object,
      hobject, attributes, hattributes, e, r', f, as, rfl, rfl, rfl, rfl, h⟩
    exact ⟨r, r', fields, x, e, y, f, as, hr, hrelation, hfields, hx, hsubject, hy, hobject,
      hattributes, h⟩
  · rintro ⟨r, r', fields, x, e, y, f, as, hr, hrelation, hfields, hx, hsubject, hy, hobject,
      hattributes, h⟩
    exact ⟨r, hr, some r', hrelation, fields, hfields, x, hx, some e, hsubject, y, hy, some f,
      hobject, some as, hattributes, e, r', f, as, rfl, rfl, rfl, rfl, h⟩

/-- An intent is read from the records of its statements and from its metadata. -/
theorem Intent.exists_of_load {i : Intent} (h : load d = .ok (some i)) :
    ∃ items, d.require "Intent" "statements" = .ok (.list items) ∧
      items.mapM Statement.ofData = .ok i.statements ∧
      metadataOfData (d.optional "metadata") = .ok i.metadata ∧
      i.confidence = d.optional "confidence" ∧ i.coherence = d.optional "coherence" := by
  obtain ⟨v, hv, h⟩ := bind_eq_ok_iff.1 h
  cases v with
  | list items =>
      simp only [bind_eq_ok_iff] at h
      obtain ⟨kind, -, statements?, hs, metadata, hm, h⟩ := h
      simp only [pure, Except.pure, Except.ok.injEq, Option.bind_eq_bind,
        Option.bind_eq_some_iff] at h
      obtain ⟨kind, -, statements, rfl, h⟩ := h
      cases h
      exact ⟨items, hv, readEach_eq_ok_iff.1 hs, hm, rfl, rfl⟩
  | _ => cases h

/-- An edge takes its payload from its record. -/
theorem Edge.payload_of_load {e : Edge} (h : load d = .ok (some e)) :
    metadataOfData (d.optional "metadata") = .ok e.metadata ∧
      e.confidence = d.optional "confidence" := by
  simp only [load, bind_eq_ok_iff] at h
  obtain ⟨_, -, _, -, _, -, _, -, metadata, hm, kind, -, h⟩ := h
  simp only [pure, Except.pure, Except.ok.injEq, Option.bind_eq_bind,
    Option.bind_eq_some_iff] at h
  obtain ⟨source, -, target, -, name, -, h⟩ := h
  cases h
  exact ⟨hm, rfl⟩

end

namespace Node

/-- Only what was read can come out of a record. -/
theorem within_eq_ok_iff {α : Type} {record : String} {r : Except Fault α} {a : α} :
    within record r = .ok a ↔ r = .ok a := by
  unfold within
  split <;> simp

theorem named_within_eq_ok_iff {α : Type} {record : String} {r : Except Fault (Option α)}
    {a : α} : named (within record r) = .ok a ↔ named r = .ok a := by
  rw [named_eq_ok_iff, named_eq_ok_iff, within_eq_ok_iff]

/-- What a node is built from, form by form. -/
inductive Built (d : Data) (rs : Readings) : Node → Prop
  | intent {i : Intent} (h : Intent.load d = .ok (some i)) : Built d rs (.intent i)
  | compound {o : Connective} {a b : Option Node} (ha : operand d "left" rs = .ok (some a))
      (hb : operand d "right" rs = .ok (some b)) : Built d rs (.compound o a b)
  | quantified {q : Quantifier} {v : String} {a : Node} {domain : Option String}
      (ha : part "QuantifiedExpression" "body" rs = .ok (some a)) :
      Built d rs (.quantified q v a domain)
  | rule {i : String} {a b : Node} {domain : Option String} {x : Bool}
      (ha : part "RuleDefinition" "premises" rs = .ok (some a))
      (hb : part "RuleDefinition" "conclusion" rs = .ok (some b)) :
      Built d rs (.rule i a b domain x (d.optional "confidence"))
  | edge {e : Edge} (h : Edge.load d = .ok (some e)) : Built d rs (.edge e)

theorem built_of_build {kind d : Data} {rs : Readings} {n : Node}
    (h : build kind d rs = .ok (some n)) : Built d rs n := by
  unfold build at h
  split at h
  · rw [within_eq_ok_iff] at h
    obtain ⟨i, hi, h⟩ := bind_eq_ok_iff.1 h
    cases i <;> cases h
    exact .intent hi
  · rw [within_eq_ok_iff, buildCompound] at h
    simp only [bind_eq_ok_iff] at h
    obtain ⟨op, -, left, hleft, right, hright, o, -, h⟩ := h
    cases left <;> cases right <;> cases h
    exact .compound hleft hright
  · rw [within_eq_ok_iff, buildQuantified] at h
    simp only [bind_eq_ok_iff] at h
    obtain ⟨quantifier, -, var, -, body, hbody, q, -, h⟩ := h
    cases hv : var.text? <;> cases body <;> cases hd : (d.optional "domain").optionalText? <;>
      simp only [hv, hd] at h <;> cases h
    exact .quantified hbody
  · rw [within_eq_ok_iff, buildRule] at h
    simp only [bind_eq_ok_iff] at h
    obtain ⟨id, -, premises, hpremises, conclusion, hconclusion, h⟩ := h
    simp only [pure, Except.pure, Except.ok.injEq, Option.bind_eq_bind,
      Option.bind_eq_some_iff] at h
    obtain ⟨i, -, a, rfl, b, rfl, domain, -, h⟩ := h
    cases h
    exact .rule hpremises hconclusion
  · rw [within_eq_ok_iff] at h
    obtain ⟨e, he, h⟩ := bind_eq_ok_iff.1 h
    cases e <;> cases h
    exact .edge he
  all_goals cases h

/-! ## Reading the record of a node -/

/-- The reading of a field is what is read from the field. -/
theorem lookup_readings (fields : Fields) (key : String) :
    (readings fields).lookup key = (Fields.get? fields key).map load := by
  induction fields with
  | nil => rfl
  | cons f fields ih =>
      obtain ⟨k, v⟩ := f
      simp only [readings, Fields.get?, List.lookup_cons] at ih ⊢
      split
      · rfl
      · exact ih

theorem toData_ne_null (n : Node) : n.toData ≠ .null := by
  cases n <;> simp [toData]

theorem memberOf_word {α : Type} {ofWord? : String → Option α} {a : α} {word : String}
    (h : ofWord? word = some a) (family : String) :
    memberOf ofWord? family (.str word) = .ok a := by
  simp only [memberOf, h]

theorem ok_bind {α β : Type} (a : α) (f : α → Except Fault β) : Except.ok a >>= f = f a := rfl

/-- An operand is read from its field, and there is none without the field. -/
theorem named_operand_iff {fields : Fields} {key : String} {a b : Option Node}
    (h : Fields.get? fields key = a.map toData) :
    named (operand (.obj fields) key (readings fields)) = .ok b ↔
      (a.mapM fun n => ofData n.toData) = .ok b := by
  simp only [operand, part, lookup_readings, Data.optional, Data.get?, h]
  cases a with
  | none => rfl
  | some a =>
      simp only [Option.map_some, Option.getD_some]
      split
      · next hnull => exact absurd hnull (toData_ne_null a)
      · refine named_map_eq_ok_iff.trans ?_
        rw [Option.mapM_some, map_eq_pure_bind, bind_eq_ok_iff]
        simp only [ofData, pure, Except.pure, Except.ok.injEq]

theorem optionalText?_getD (s : Option String) :
    ((s.map Data.str).getD .null).optionalText? = some s := by
  cases s <;> rfl

theorem ofData_intent_iff {i : Intent} {n : Node} :
    ofData (toData (.intent i)) = .ok n ↔
      ∃ statements, i.statements.mapM (fun s => Statement.ofData s.toData) = .ok statements ∧
        .intent { i with statements } = n := by
  obtain ⟨confidence, hc, hconfidence⟩ := unlessNull_eq "confidence" i.confidence
  obtain ⟨coherence, hh, hcoherence⟩ := unlessNull_eq "coherence" i.coherence
  obtain ⟨metadata, hm, hmetadata⟩ := metadataField_eq i.metadata
  have hread : Intent.load (toData (.intent i)) = do
      let statements ← readEach Statement.load (i.statements.map Statement.toData)
      return (fun statements => { i with statements }) <$> statements := by
    simp [toData, Intent.load, Data.require, Data.optional, Data.get?, Fields.get?_append,
      Fields.get?_cons, Fields.get?_single, ok_bind, hc, hconfidence, hh, hcoherence, hm,
      hmetadata, Data.text?]
    rw [map_eq_pure_bind]
    refine bind_congr fun statements => ?_
    cases statements <;> rfl
  have hbuild : ofData (toData (.intent i)) = named (within "Intent" (do
      return Node.intent <$> (← Intent.load (toData (.intent i))))) := rfl
  rw [hbuild, named_within_eq_ok_iff, named_map_eq_ok_iff]
  simp only [hread, named_map_eq_ok_iff]
  simp only [named_eq_ok_iff, readEach_eq_ok_iff, List.mapM_map]
  constructor
  · rintro ⟨_, ⟨statements, hs, rfl⟩, rfl⟩
    exact ⟨statements, hs, rfl⟩
  · rintro ⟨statements, hs, rfl⟩
    exact ⟨_, ⟨statements, hs, rfl⟩, rfl⟩

theorem ofData_edge (e : Edge) : ofData (toData (.edge e)) = .ok (.edge e) := by
  obtain ⟨confidence, hc, hconfidence⟩ := unlessNull_eq "confidence" e.confidence
  obtain ⟨metadata, hm, hmetadata⟩ := metadataField_eq e.metadata
  have hread : Edge.load (toData (.edge e)) = .ok (some e) := by
    simp [toData, Edge.load, Data.require, Data.optional, Data.get?, Fields.get?_append,
      Fields.get?_cons, Fields.get?_single, ok_bind, hc, hconfidence, hm, hmetadata,
      memberOf_word (EdgeKind.ofWord?_word e.kind), Data.truthy, Data.text?, Functor.map,
      Except.map]
  have hbuild : ofData (toData (.edge e)) = named (within "Relationship" (do
      return (← Edge.load (toData (.edge e))).map .edge)) := rfl
  rw [hbuild, hread]
  rfl

theorem ofData_compound_iff {o : Connective} {a b : Option Node} {n : Node} :
    ofData (toData (.compound o a b)) = .ok n ↔
      ∃ left right, (a.mapM fun n => ofData n.toData) = .ok left ∧
        (b.mapM fun n => ofData n.toData) = .ok right ∧ .compound o left right = n := by
  generalize hf : [("type", Data.str "LogicalExpression"), ("operator", .str o.word)]
    ++ operandField "left" a ++ operandField "right" b = fields
  have hleft : Fields.get? fields "left" = a.map toData := by
    simp [← hf, operandField_eq, Fields.get?_append, Fields.get?_cons, Fields.get?_single]
  have hright : Fields.get? fields "right" = b.map toData := by
    simp [← hf, operandField_eq, Fields.get?_append, Fields.get?_cons, Fields.get?_single]
  have hbuild : ofData (toData (.compound o a b)) = named (within "LogicalExpression" (do
      let left ← operand (.obj fields) "left" (readings fields)
      let right ← operand (.obj fields) "right" (readings fields)
      let op ← memberOf Connective.ofWord? "LogicalOperator" (.str o.word)
      return .compound op <$> left <*> right)) := by
    subst hf
    rfl
  rw [hbuild, memberOf_word (Connective.ofWord?_word o), named_within_eq_ok_iff]
  simp only [← named_operand_iff hleft, ← named_operand_iff hright]
  exact named_map₂_eq_ok_iff

theorem ofData_quantified_iff {q : Quantifier} {v : String} {a : Node} {d : Option String}
    {n : Node} :
    ofData (toData (.quantified q v a d)) = .ok n ↔
      ∃ body, ofData a.toData = .ok body ∧ .quantified q v body d = n := by
  generalize hf : [("type", Data.str "QuantifiedExpression"), ("quantifier", .str q.word),
    ("variable", .str v), ("body", a.toData)] ++ textField "domain" d = fields
  have hdomain : (Data.obj fields).optional "domain" = (d.map .str).getD .null := by
    simp [← hf, textField_eq, Fields.get?_cons, Fields.get?_single, Data.optional, Data.get?]
  have hbuild : ofData (toData (.quantified q v a d)) = named (within "QuantifiedExpression" (do
      let body ← load a.toData
      let q ← memberOf Quantifier.ofWord? "Quantifier" (.str q.word)
      return .quantified q <$> some v <*> body <*>
        ((Data.obj fields).optional "domain").optionalText?)) := by
    subst hf
    rfl
  rw [hbuild, hdomain, optionalText?_getD, memberOf_word (Quantifier.ofWord?_word q),
    named_within_eq_ok_iff]
  have hparts : ∀ body : Option Node, Node.quantified q <$> some v <*> body <*> some d
      = (fun body => .quantified q v body d) <$> body := fun body => by cases body <;> rfl
  simp only [ok_bind, hparts]
  exact named_map_eq_ok_iff

theorem ofData_rule_iff {i : String} {a b : Node} {d : Option String} {x : Bool} {c : Data}
    {n : Node} :
    ofData (toData (.rule i a b d x c)) = .ok n ↔
      ∃ premises conclusion, ofData a.toData = .ok premises ∧
        ofData b.toData = .ok conclusion ∧ .rule i premises conclusion d x c = n := by
  obtain ⟨confidence, hc, hconfidence⟩ := unlessNull_eq "confidence" c
  generalize hf : [("type", Data.str "RuleDefinition"), ("id", .str i), ("premises", toData a),
    ("conclusion", toData b), ("bidirectional", .bool x)] ++ textField "domain" d
    ++ unlessNull "confidence" c = fields
  have hdomain : (Data.obj fields).optional "domain" = (d.map .str).getD .null := by
    simp [← hf, hc, textField_eq, Fields.get?_append, Fields.get?_cons, Fields.get?_single,
      Data.optional, Data.get?]
  have hconfidence : (Data.obj fields).optional "confidence" = c := by
    simp [← hf, hc, textField_eq, Fields.get?_append, Fields.get?_cons, Fields.get?_single,
      Data.optional, Data.get?, hconfidence]
  have hbuild : ofData (toData (.rule i a b d x c)) = named (within "RuleDefinition" (do
      let premises ← load a.toData
      let conclusion ← load b.toData
      return do
        return .rule i (← premises) (← conclusion)
          (← ((Data.obj fields).optional "domain").optionalText?) x
          ((Data.obj fields).optional "confidence"))) := by
    subst hf
    rfl
  rw [hbuild, hdomain, optionalText?_getD, hconfidence, named_within_eq_ok_iff]
  have hparts : ∀ premises conclusion : Option Node,
      (do return Node.rule i (← premises) (← conclusion) (← some d) x c)
        = (fun a b => Node.rule i a b d x c) <$> premises <*> conclusion :=
    fun premises conclusion => by cases premises <;> cases conclusion <;> rfl
  simp only [hparts]
  exact named_map₂_eq_ok_iff

end Node

end TripleLogic
