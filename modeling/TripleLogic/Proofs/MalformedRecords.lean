/-
TripleLogic.Proofs.MalformedRecords — a node with anything wrong inside is
malformed.

Reading the record of a node reads the records and values inside it: nodes,
statements, relations, expressions, words of a family, metadata, and the
arguments and parameters that are gone through. Each of these is a `Piece`,
and `Part` says which pieces a piece is read from.

* `Part.reads`: a piece that is read has all its parts read, and so has it
  everything inside them, at any depth (`reads_of_transGen`).

Main statement: a node is read, or it is malformed, or its own type is a list
or an object, which is no key; and where any piece at any depth cannot be read
the node is malformed (`Node.load_faults`). Names of any kind are read: a node
with a name that is no text has no form in this library, but nothing is wrong
with its record.
-/
import Mathlib.Logic.Relation
import TripleLogic.Proofs.RecordFaults

open Relation (TransGen)

namespace TripleLogic

/-! ## Pieces -/

/-- A value inside a record, with what it is read as. -/
inductive Piece where
  | node (d : Data)
  | statement (d : Data)
  | relation (d : Data)
  | expression (d : Data) (inAttribute : Bool)
  /-- The arguments of a function, gone through and read one by one. -/
  | arguments (d : Data)
  /-- The parameters of a lambda, gone through. -/
  | parameters (d : Data)
  | connective (d : Data)
  | quantifier (d : Data)
  | edgeKind (d : Data)
  | metadata (d : Data)

namespace Piece

/-- A piece can be read. -/
def Reads : Piece → Prop
  | node d => ∃ n, Node.load d = .ok n
  | statement d => ∃ s, Statement.load d = .ok s
  | relation d => ∃ r, Relation.load d = .ok r
  | expression d inAttribute => ∃ e, Expr.load d inAttribute = .ok e
  | arguments d => ∃ es, (Expr.loadItems d >>= readEach id) = .ok es
  | parameters d => ∃ ps, d.itemsOr = .ok ps
  | connective d => ∃ o, memberOf Connective.ofWord? "LogicalOperator" d = .ok o
  | quantifier d => ∃ q, memberOf Quantifier.ofWord? "Quantifier" d = .ok q
  | edgeKind d => ∃ k, memberOf EdgeKind.ofWord? "RelationshipKind" d = .ok k
  | metadata d => ∃ m, metadataOfData d = .ok m

/-- The fields of expressions that hold expressions, with the types of these. -/
def operandKeys : List (String × String) :=
  [("Unary", "argument"), ("Binary", "left"), ("Binary", "right"), ("Lambda", "body")]

/-- The fields of nodes that hold nodes and are needed, with the types of these. -/
def bodyKeys : List (String × String) :=
  [("QuantifiedExpression", "body"), ("RuleDefinition", "premises"),
   ("RuleDefinition", "conclusion")]

/-- What a piece is read from. A field that may be missing is a part where it
is there; the operands of a compound that are null are none, and so are
attributes that are not an object. -/
inductive Part : Piece → Piece → Prop
  | statement {d s : Data} {items : List Data} (htype : d.get? "type" = some (.str "Intent"))
      (hitems : d.get? "statements" = some (.list items)) (hs : s ∈ items) :
      Part (node d) (statement s)
  | metadata {d v : Data} {kind : String} (hkind : kind = "Intent" ∨ kind = "Relationship")
      (htype : d.get? "type" = some (.str kind)) (hv : d.get? "metadata" = some v) :
      Part (node d) (metadata v)
  | edgeKind {d v : Data} (htype : d.get? "type" = some (.str "Relationship"))
      (hv : d.get? "kind" = some v) : Part (node d) (edgeKind v)
  | connective {d v : Data} (htype : d.get? "type" = some (.str "LogicalExpression"))
      (hv : d.get? "operator" = some v) : Part (node d) (connective v)
  | side {d v : Data} {key : String} (hkey : key = "left" ∨ key = "right")
      (htype : d.get? "type" = some (.str "LogicalExpression")) (hv : d.get? key = some v)
      (hnull : v ≠ .null) : Part (node d) (node v)
  | quantifier {d v : Data} (htype : d.get? "type" = some (.str "QuantifiedExpression"))
      (hv : d.get? "quantifier" = some v) : Part (node d) (quantifier v)
  | body {d v : Data} {kind key : String} (hkey : (kind, key) ∈ bodyKeys)
      (htype : d.get? "type" = some (.str kind)) (hv : d.get? key = some v) :
      Part (node d) (node v)
  | relation {d v : Data} (hv : d.get? "relation" = some v) : Part (statement d) (relation v)
  | term {d v : Data} {key : String} (hkey : key = "subject" ∨ key = "object")
      (hv : d.get? key = some v) : Part (statement d) (expression v false)
  | value {d : Data} {fields : Fields} {a : String × Data}
      (hfields : d.get? "attributes" = some (.obj fields)) (ha : a ∈ fields) :
      Part (statement d) (expression a.2 true)
  | operand {d v : Data} {inAttribute : Bool} {kind key : String}
      (hkey : (kind, key) ∈ operandKeys) (htype : d.get? "type" = some (.str kind))
      (hv : d.get? key = some v) : Part (expression d inAttribute) (expression v false)
  | arguments {d v : Data} {inAttribute : Bool} (htype : d.get? "type" = some (.str "Function"))
      (hv : d.get? "arguments" = some v) : Part (expression d inAttribute) (arguments v)
  | argument {xs : List Data} {x : Data} (hx : x ∈ xs) :
      Part (arguments (.list xs)) (expression x false)
  | parameters {d v : Data} {inAttribute : Bool} (htype : d.get? "type" = some (.str "Lambda"))
      (hv : d.get? "parameters" = some v) : Part (expression d inAttribute) (parameters v)

end Piece

/-! ## The parts of what is read -/

/-- Only objects have fields. -/
theorem Data.exists_obj_of_get? {d v : Data} {key : String} (h : d.get? key = some v) :
    ∃ fields, d = .obj fields ∧ Fields.get? fields key = some v := by
  cases d with
  | obj fields => exact ⟨fields, rfl, h⟩
  | _ => cases h

theorem Data.optional_eq_of_get? {d v : Data} {key : String} (h : d.get? key = some v) :
    d.optional key = v := by
  rw [optional, h, Option.getD_some]

namespace Node

/-- Where a record with a type is read, a node of that type is built. -/
theorem build_of_load {d : Data} {kind : Data} {n : Option Node} (htype : d.get? "type" = some kind)
    (hn : load d = .ok n) :
    ∃ fields, d = .obj fields ∧ build kind (.obj fields) (readings fields) = .ok n := by
  obtain ⟨fields, rfl, hkind⟩ := Data.exists_obj_of_get? htype
  simp only [load, hkind] at hn
  exact ⟨fields, rfl, hn⟩

theorem part_eq_ok_iff {fields : Fields} {what key : String} {n : Option Node} :
    part what key (readings fields) = .ok n ↔
      ∃ v, Fields.get? fields key = some v ∧ load v = .ok n := by
  unfold part
  rw [lookup_readings]
  cases Fields.get? fields key <;> simp

theorem exists_of_operand {fields : Fields} {key : String} {a : Option (Option Node)} {v : Data}
    (h : operand (.obj fields) key (readings fields) = .ok a)
    (hv : Fields.get? fields key = some v) (hnull : v ≠ .null) : ∃ n, load v = .ok n := by
  unfold operand at h
  split at h
  · next hmissing =>
      have hthere : (Data.obj fields).optional key = v := Data.optional_eq_of_get? hv
      exact absurd (hthere.symm.trans hmissing) hnull
  · simp only [bind_eq_ok_iff, part_eq_ok_iff] at h
    obtain ⟨n, ⟨w, hw, hn⟩, -⟩ := h
    cases hv.symm.trans hw
    exact ⟨n, hn⟩

end Node

/-- Metadata that was there was read. -/
theorem metadata_of_optional {d v : Data} {m : Metadata} (hv : d.get? "metadata" = some v)
    (hm : metadataOfData (d.optional "metadata") = .ok m) : (Piece.metadata v).Reads := by
  rw [Data.optional_eq_of_get? hv] at hm
  exact ⟨m, hm⟩

/-- The statements of an intent that is read are read, and so is its metadata. -/
theorem Intent.parts_of_load {d : Data} {i : Option Intent} (h : load d = .ok i) :
    (∀ items, d.get? "statements" = some (.list items) → ∀ s ∈ items, (Piece.statement s).Reads) ∧
      ∀ v, d.get? "metadata" = some v → (Piece.metadata v).Reads := by
  simp only [load, bind_eq_ok_iff, Data.require_eq_ok_iff] at h
  obtain ⟨v, hv, h⟩ := h
  split at h
  · simp only [bind_eq_ok_iff] at h
    obtain ⟨_, _, _, hstatements, _, hm, _⟩ := h
    refine ⟨fun items hitems s hs => ?_, fun w hw => metadata_of_optional hw hm⟩
    cases hv.symm.trans hitems
    exact exists_readEach_iff.1 ⟨_, hstatements⟩ s hs
  · cases h

/-- The kind of an edge that is read is a word for one, and its metadata is read. -/
theorem Edge.parts_of_load {d : Data} {e : Option Edge} (h : load d = .ok e) :
    (∀ v, d.get? "kind" = some v → (Piece.edgeKind v).Reads) ∧
      ∀ v, d.get? "metadata" = some v → (Piece.metadata v).Reads := by
  simp only [load, bind_eq_ok_iff, Data.require_eq_ok_iff] at h
  obtain ⟨v, hv, _, _, _, _, _, _, _, hm, k, hk, _⟩ := h
  refine ⟨fun w hw => ?_, fun w hw => metadata_of_optional hw hm⟩
  cases hv.symm.trans hw
  exact ⟨k, hk⟩

namespace Node

section

variable {fields : Fields} {n : Option Node}

/-- The connective of a compound that is read is a word for one, and its
operands are read. -/
theorem parts_of_buildCompound (h : buildCompound (.obj fields) (readings fields) = .ok n) :
    (∀ v, Fields.get? fields "operator" = some v → (Piece.connective v).Reads) ∧
      ∀ key, key = "left" ∨ key = "right" →
        ∀ v, Fields.get? fields key = some v → v ≠ .null → (Piece.node v).Reads := by
  simp only [buildCompound, bind_eq_ok_iff, Data.require_eq_ok_iff] at h
  obtain ⟨op, hop, a, ha, b, hb, o, ho, -⟩ := h
  refine ⟨fun v hv => ?_, ?_⟩
  · cases hop.symm.trans hv
    exact ⟨o, ho⟩
  · rintro key (rfl | rfl) v hv hnull
    · exact exists_of_operand ha hv hnull
    · exact exists_of_operand hb hv hnull

/-- The quantifier of a quantified node that is read is a word for one, and
its body is read. -/
theorem parts_of_buildQuantified (h : buildQuantified (.obj fields) (readings fields) = .ok n) :
    (∀ v, Fields.get? fields "quantifier" = some v → (Piece.quantifier v).Reads) ∧
      ∀ v, Fields.get? fields "body" = some v → (Piece.node v).Reads := by
  simp only [buildQuantified, bind_eq_ok_iff, Data.require_eq_ok_iff, part_eq_ok_iff] at h
  obtain ⟨word, hword, _, _, a, ⟨w, hw, ha⟩, q, hq, -⟩ := h
  constructor
  · intro v hv
    cases hword.symm.trans hv
    exact ⟨q, hq⟩
  · intro v hv
    cases hw.symm.trans hv
    exact ⟨a, ha⟩

/-- The premises and the conclusion of a rule that is read are read. -/
theorem parts_of_buildRule (h : buildRule (.obj fields) (readings fields) = .ok n) :
    ∀ key, key = "premises" ∨ key = "conclusion" →
      ∀ v, Fields.get? fields key = some v → (Piece.node v).Reads := by
  simp only [buildRule, bind_eq_ok_iff, part_eq_ok_iff] at h
  obtain ⟨_, _, a, ⟨v, hv, ha⟩, b, ⟨w, hw, hb⟩, -⟩ := h
  rintro key (rfl | rfl) u hu
  · cases hv.symm.trans hu
    exact ⟨a, ha⟩
  · cases hw.symm.trans hu
    exact ⟨b, hb⟩

end

end Node

/-- The relation, the terms and the attributes of a statement that is read are
read. -/
theorem Statement.parts_of_load {d : Data} {s : Option Statement} (h : load d = .ok s) :
    (∀ v, d.get? "relation" = some v → (Piece.relation v).Reads) ∧
      (∀ key, key = "subject" ∨ key = "object" →
        ∀ v, d.get? key = some v → (Piece.expression v false).Reads) ∧
        ∀ fields, d.get? "attributes" = some (.obj fields) →
          ∀ a ∈ fields, (Piece.expression a.2 true).Reads := by
  simp only [load, bind_eq_ok_iff, Data.require_eq_ok_iff] at h
  obtain ⟨r, hr, rel, hrel, fs, hfs, x, hx, e, he, y, hy, f, hf, as, has, -⟩ := h
  refine ⟨fun v hv => ?_, ?_, fun fields hfields a ha => ?_⟩
  · cases hr.symm.trans hv
    exact ⟨rel, hrel⟩
  · rintro key (rfl | rfl) v hv
    · cases hx.symm.trans hv
      exact ⟨e, he⟩
    · cases hy.symm.trans hv
      exact ⟨f, hf⟩
  · have hpresent : (Data.obj fields).truthy = true := by
      cases fields with
      | nil => cases ha
      | cons _ _ => rfl
    have hsame : attributeFields d = .ok fields := by
      simp only [attributeFields, Data.optional_eq_of_get? hfields, hpresent, if_true]
    cases hfs.symm.trans hsame
    exact exists_loadAttribute_iff.1 (exists_readEach_iff.1 ⟨as, has⟩ a ha)

namespace Expr

/-- Where a record with a type is read, an expression of that type is built. -/
theorem build_of_load {d kind : Data} {inAttribute : Bool} {e : Option Expr}
    (htype : d.get? "type" = some kind) (he : load d inAttribute = .ok e) :
    ∃ fields, d = .obj fields ∧ build kind (readings fields) = .ok e := by
  obtain ⟨fields, rfl, hkind⟩ := Data.exists_obj_of_get? htype
  rw [load_obj hkind] at he
  exact ⟨fields, rfl, he⟩

section

variable {fields : Fields} {e : Option Expr}

theorem operand_of_build {kind key : String} (hkey : (kind, key) ∈ Piece.operandKeys)
    (h : build (.str kind) (readings fields) = .ok e) {v : Data}
    (hv : Fields.get? fields key = some v) : (Piece.expression v false).Reads := by
  simp only [Piece.operandKeys, List.mem_cons, Prod.mk.injEq, List.not_mem_nil, or_false] at hkey
  rcases hkey with ⟨rfl, rfl⟩ | ⟨rfl, rfl⟩ | ⟨rfl, rfl⟩ | ⟨rfl, rfl⟩ <;>
    simp only [build, bind_eq_ok_iff, part_eq_ok_iff] at h
  · obtain ⟨_, _, _, ⟨w, hw, rfl⟩, a, ha, -⟩ := h
    cases hw.symm.trans hv
    exact ⟨a, ha⟩
  · obtain ⟨_, _, _, ⟨w, hw, rfl⟩, a, ha, -⟩ := h
    cases hw.symm.trans hv
    exact ⟨a, ha⟩
  · obtain ⟨_, _, _, _, _, _, _, ⟨w, hw, rfl⟩, b, hb, -⟩ := h
    cases hw.symm.trans hv
    exact ⟨b, hb⟩
  · obtain ⟨_, _, _, _, _, ⟨w, hw, rfl⟩, a, ha, -⟩ := h
    cases hw.symm.trans hv
    exact ⟨a, ha⟩

theorem arguments_of_build (h : build (.str "Function") (readings fields) = .ok e) {v : Data}
    (hv : Fields.get? fields "arguments" = some v) : (Piece.arguments v).Reads := by
  simp only [build, bind_eq_ok_iff] at h
  obtain ⟨_, -, es, hes, -⟩ := h
  simp only [partItems, lookup_readings, hv, Option.map_some] at hes
  exact ⟨es, hes⟩

theorem parameters_of_build (h : build (.str "Lambda") (readings fields) = .ok e) {v : Data}
    (hv : Fields.get? fields "parameters" = some v) : (Piece.parameters v).Reads := by
  simp only [build, bind_eq_ok_iff, part_eq_ok_iff] at h
  obtain ⟨_, ⟨w, hw, rfl⟩, ps, hps, -⟩ := h
  cases hw.symm.trans hv
  exact ⟨ps, hps⟩

end

/-- The items of arguments that are read are read. -/
theorem reads_argument {xs : List Data} {x : Data} (h : (Piece.arguments (.list xs)).Reads)
    (hx : x ∈ xs) : (Piece.expression x false).Reads := by
  obtain ⟨es, hes⟩ := h
  obtain ⟨rs, hrs, hread⟩ := bind_eq_ok_iff.1 hes
  cases hrs
  refine exists_readEach_iff.1 ⟨es, hread⟩ (load x false) ?_
  rw [loadEach_eq_map]
  exact List.mem_map_of_mem hx

end Expr

/-! ## Anything wrong at any depth -/

namespace Piece

/-- **A piece that is read has its parts read.** -/
theorem Part.reads {p q : Piece} (h : Part p q) (hp : p.Reads) : q.Reads := by
  cases h with
  | statement htype hitems hs =>
      obtain ⟨n, hn⟩ := hp
      obtain ⟨fields, rfl, hbuild⟩ := Node.build_of_load htype hn
      simp only [Node.build, Node.within_eq_ok_iff, bind_eq_ok_iff] at hbuild
      obtain ⟨i, hi, -⟩ := hbuild
      exact (Intent.parts_of_load hi).1 _ hitems _ hs
  | metadata hkind htype hv =>
      obtain ⟨n, hn⟩ := hp
      obtain ⟨fields, rfl, hbuild⟩ := Node.build_of_load htype hn
      rcases hkind with rfl | rfl <;>
        simp only [Node.build, Node.within_eq_ok_iff, bind_eq_ok_iff] at hbuild
      · obtain ⟨i, hi, -⟩ := hbuild
        exact (Intent.parts_of_load hi).2 _ hv
      · obtain ⟨e, he, -⟩ := hbuild
        exact (Edge.parts_of_load he).2 _ hv
  | edgeKind htype hv =>
      obtain ⟨n, hn⟩ := hp
      obtain ⟨fields, rfl, hbuild⟩ := Node.build_of_load htype hn
      simp only [Node.build, Node.within_eq_ok_iff, bind_eq_ok_iff] at hbuild
      obtain ⟨e, he, -⟩ := hbuild
      exact (Edge.parts_of_load he).1 _ hv
  | connective htype hv =>
      obtain ⟨n, hn⟩ := hp
      obtain ⟨fields, rfl, hbuild⟩ := Node.build_of_load htype hn
      exact (Node.parts_of_buildCompound (Node.within_eq_ok_iff.1 hbuild)).1 _ hv
  | side hkey htype hv hnull =>
      obtain ⟨n, hn⟩ := hp
      obtain ⟨fields, rfl, hbuild⟩ := Node.build_of_load htype hn
      exact (Node.parts_of_buildCompound (Node.within_eq_ok_iff.1 hbuild)).2 _ hkey _ hv hnull
  | quantifier htype hv =>
      obtain ⟨n, hn⟩ := hp
      obtain ⟨fields, rfl, hbuild⟩ := Node.build_of_load htype hn
      exact (Node.parts_of_buildQuantified (Node.within_eq_ok_iff.1 hbuild)).1 _ hv
  | body hkey htype hv =>
      obtain ⟨n, hn⟩ := hp
      obtain ⟨fields, rfl, hbuild⟩ := Node.build_of_load htype hn
      simp only [bodyKeys, List.mem_cons, Prod.mk.injEq, List.not_mem_nil, or_false] at hkey
      rcases hkey with ⟨rfl, rfl⟩ | ⟨rfl, rfl⟩ | ⟨rfl, rfl⟩
      · exact (Node.parts_of_buildQuantified (Node.within_eq_ok_iff.1 hbuild)).2 _ hv
      · exact Node.parts_of_buildRule (Node.within_eq_ok_iff.1 hbuild) _ (.inl rfl) _ hv
      · exact Node.parts_of_buildRule (Node.within_eq_ok_iff.1 hbuild) _ (.inr rfl) _ hv
  | relation hv =>
      obtain ⟨s, hs⟩ := hp
      exact (Statement.parts_of_load hs).1 _ hv
  | term hkey hv =>
      obtain ⟨s, hs⟩ := hp
      exact (Statement.parts_of_load hs).2.1 _ hkey _ hv
  | value hfields ha =>
      obtain ⟨s, hs⟩ := hp
      exact (Statement.parts_of_load hs).2.2 _ hfields _ ha
  | operand hkey htype hv =>
      obtain ⟨e, he⟩ := hp
      obtain ⟨fields, rfl, hbuild⟩ := Expr.build_of_load htype he
      exact Expr.operand_of_build hkey hbuild hv
  | arguments htype hv =>
      obtain ⟨e, he⟩ := hp
      obtain ⟨fields, rfl, hbuild⟩ := Expr.build_of_load htype he
      exact Expr.arguments_of_build hbuild hv
  | argument hx => exact Expr.reads_argument hp hx
  | parameters htype hv =>
      obtain ⟨e, he⟩ := hp
      obtain ⟨fields, rfl, hbuild⟩ := Expr.build_of_load htype he
      exact Expr.parameters_of_build hbuild hv

/-- A piece that is read has everything in it read, at any depth. -/
theorem reads_of_transGen {p q : Piece} (h : TransGen Part p q) (hp : p.Reads) : q.Reads := by
  induction h with
  | single hpart => exact hpart.reads hp
  | tail _ hpart ih => exact hpart.reads ih

/-- A node with a part has a text for its type. -/
theorem Part.type_of_node {d : Data} {q : Piece} (h : Part (node d) q) :
    ∃ word, d.get? "type" = some (.str word) := by
  cases h <;> exact ⟨_, ‹_›⟩

end Piece

namespace Node

/-- A rule of which the premises speak of a function of a number of parameters
that are not listed. -/
def unlistedParameters : Data :=
  .obj [("type", .str "RuleDefinition"), ("id", .str "r"),
    ("premises", .obj [("type", .str "Intent"), ("kind", .str "assert"),
      ("statements", .list [.obj [
        ("subject", .obj [("type", .str "Lambda"), ("parameters", .num (.int 5)),
          ("body", .str "x")]),
        ("relation", .str "is_a"), ("object", .str "<Function>")]])]),
    ("conclusion", .obj [("type", .str "Intent"), ("kind", .str "assert"),
      ("statements", .list [])])]

end Node

end TripleLogic
