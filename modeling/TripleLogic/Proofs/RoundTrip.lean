/-
TripleLogic.Proofs.RoundTrip — nodes that are written as plain data and read
again.

The record of a node holds the records of its statements; everything else of
a node comes back as it was, and so do the payloads that take no part in
equality. So a node comes back when its statements do (`ofData_toData`,
`exists_of_ofData_toData`). A tense that does not count as present is left
out, and comes back as null. Attributes are read in the order of their keys,
in which a node that was read once has them (`sorted_of_ofData`).

Main statement: what is read from what is written for a node is equal to it,
with the same payloads and tenses, exactly when no literal in it is null and
no exposed name stands between angle brackets (`reads_back_iff`).
-/
import TripleLogic.Proofs.Records
import TripleLogic.Proofs.Spelling

namespace TripleLogic

/-! ## Statements -/

/-- A value that does not count as present, as null. -/
def Data.orNull (d : Data) : Data :=
  if d.truthy then d else .null

/-- A relation as it is read from what is written for it. -/
def Relation.respelled (r : Relation) : Relation :=
  { name := r.name, tense := r.tense.orNull }

theorem Relation.load_toData (r : Relation) : load r.toData = .ok (some r.respelled) := by
  unfold toData respelled Data.orNull
  split <;> rfl

namespace Statement

/-- The values of the literals in a statement. -/
def literals (s : Statement) : List Scalar :=
  s.subject.literals ++ s.object.literals ++ s.attributes.flatMap fun a => a.2.literals

/-- The names of the identifiers in a statement that are subject or object or
stand inside a term. -/
def exposed (s : Statement) : List String :=
  s.subject.exposed false ++ s.object.exposed false
    ++ s.attributes.flatMap fun a => a.2.exposed true

/-- The attributes stand in the order of their keys. -/
def Sorted (s : Statement) : Prop :=
  s.attributes.Pairwise fun a b => a.1 ≤ b.1

/-- A statement as it is read from what is written for it. -/
def respelled (s : Statement) : Statement where
  subject := s.subject.respelled false
  relation := s.relation.respelled
  object := s.object.respelled false
  attributes := s.attributes.map fun a => (a.1, a.2.respelled true)

theorem attributeFields_toData (s : Statement) :
    attributeFields s.toData = .ok (s.attributes.map fun a => (a.1, a.2.toData true)) := by
  obtain ⟨subject, relation, object, attributes⟩ := s
  cases attributes <;> rfl

theorem require_toData (s : Statement) :
    s.toData.require "Statement" "subject" = .ok (s.subject.toData false) ∧
      s.toData.require "Statement" "relation" = .ok s.relation.toData ∧
      s.toData.require "Statement" "object" = .ok (s.object.toData false) := by
  obtain ⟨subject, relation, object, attributes⟩ := s
  cases attributes <;> exact ⟨rfl, rfl, rfl⟩

/-- A statement is read from what is written for it part by part. -/
theorem ofData_toData_iff {s t : Statement} :
    ofData s.toData = .ok t ↔ ∃ subject object attributes,
      Expr.ofData (s.subject.toData false) false = .ok subject ∧
        Expr.ofData (s.object.toData false) false = .ok object ∧
        (s.attributes.mapM fun a => named (loadAttribute (a.1, a.2.toData true)))
          = .ok attributes ∧
        make subject s.relation.respelled object attributes = t := by
  obtain ⟨hsubject, hrelation, hobject⟩ := require_toData s
  rw [ofData_eq_ok_iff, attributeFields_toData, hsubject, hrelation, hobject]
  constructor
  · rintro ⟨_, relation, _, _, subject, _, object, attributes, ⟨⟩, hr, ⟨⟩, ⟨⟩, hs, ⟨⟩, ho, ha, h⟩
    rw [Relation.load_toData] at hr
    cases hr
    rw [List.mapM_map] at ha
    exact ⟨subject, object, attributes, hs, ho, ha, h⟩
  · rintro ⟨subject, object, attributes, hs, ho, ha, h⟩
    refine ⟨_, _, _, _, subject, _, object, attributes, rfl, Relation.load_toData _, rfl, rfl, hs,
      rfl, ho, ?_, h⟩
    rw [List.mapM_map]
    exact ha

theorem named_loadAttribute_iff {f : String × Data} {a : String × Expr} :
    named (loadAttribute f) = .ok a ↔ ∃ e, Expr.ofData f.2 true = .ok e ∧ (f.1, e) = a :=
  named_map_eq_ok_iff

/-- Attributes are read in the order of their keys. -/
theorem sorted_of_ofData {d : Data} {s : Statement} (h : ofData d = .ok s) : s.Sorted := by
  obtain ⟨_, _, _, _, _, _, _, attributes, -, -, -, -, -, -, -, -, rfl⟩ := ofData_eq_ok_iff.1 h
  have hpair := @List.pairwise_mergeSort _ (fun a b : String × Expr => decide (a.1 ≤ b.1))
    (fun a b c hab hbc => by simpa using String.le_trans (by simpa using hab) (by simpa using hbc))
    (fun a b => by simpa using String.le_total a.1 b.1) attributes
  simpa [Sorted, make, Attributes.sorted] using hpair

/-- Sorting attributes again after their values were replaced changes nothing. -/
theorem Sorted.sorted_map {s : Statement} (hs : s.Sorted) (f : Expr → Expr) :
    Attributes.sorted (s.attributes.map fun a => (a.1, f a.2))
      = s.attributes.map fun a => (a.1, f a.2) := by
  refine List.mergeSort_of_pairwise (List.pairwise_map.2 ?_)
  simpa [Sorted] using hs

theorem make_respelled {s : Statement} (hs : s.Sorted) :
    make (s.subject.respelled false) s.relation.respelled (s.object.respelled false)
      (s.attributes.map fun a => (a.1, a.2.respelled true)) = s.respelled := by
  simp only [make, hs.sorted_map fun e => e.respelled true, respelled]

/-- What is read from what is written for a statement without null literals. -/
theorem ofData_toData {s : Statement} (hkey : s.composite? = none) (hs : s.Sorted)
    (hnull : .null ∉ s.literals) : ofData s.toData = .ok s.respelled := by
  rw [composite?_eq_none] at hkey
  simp only [literals, List.mem_append, List.mem_flatMap, not_or] at hnull
  obtain ⟨⟨hsubject, hobject⟩, hattributes⟩ := hnull
  have hread : s.attributes.mapM (fun a => named (loadAttribute (a.1, a.2.toData true)))
      = Except.ok (s.attributes.map fun a => (a.1, a.2.respelled true)) := by
    refine mapM_eq_ok fun a ha => named_loadAttribute_iff.2 ⟨_, ?_, rfl⟩
    exact Expr.ofData_toData (hkey a.2 (by simp only [tokens]; grind))
      (fun hn => hattributes ⟨a, ha, hn⟩) true
  exact ofData_toData_iff.2 ⟨_, _, _, Expr.ofData_toData (hkey _ (by simp [tokens])) hsubject false,
    Expr.ofData_toData (hkey _ (by simp [tokens])) hobject false, hread, make_respelled hs⟩

/-- Where something is read from what is written for a statement, there is no
null literal in it. -/
theorem null_not_mem_literals {s t : Statement} (hkey : s.composite? = none)
    (h : ofData s.toData = .ok t) : .null ∉ s.literals := by
  rw [composite?_eq_none] at hkey
  obtain ⟨subject, object, attributes, hsubject, hobject, hattributes, -⟩ := ofData_toData_iff.1 h
  simp only [literals, List.mem_append, List.mem_flatMap, not_or]
  refine ⟨⟨Expr.null_not_mem_literals (hkey _ (by simp [tokens])) hsubject,
    Expr.null_not_mem_literals (hkey _ (by simp [tokens])) hobject⟩, ?_⟩
  rintro ⟨a, ha, hnull⟩
  obtain ⟨b, hb⟩ := exists_of_mapM hattributes a ha
  obtain ⟨value, hvalue, -⟩ := named_loadAttribute_iff.1 hb
  exact Expr.null_not_mem_literals (hkey a.2 (by simp only [tokens]; grind)) hvalue hnull

theorem attributes_same_iff (f : Expr → Expr) (as : Attributes) :
    Attributes.same (as.map fun a => (a.1, f a.2)) as = true ↔
      ∀ a ∈ as, (f a.2).same a.2 = true := by
  induction as with
  | nil => simp [Attributes.same]
  | cons a as ih => simp [Attributes.same, ih]

/-- A statement that is read from what was written is equal to it if and only
if no exposed name stands between angle brackets. -/
theorem respelled_same_iff (s : Statement) :
    s.respelled.same s = true ↔ ∀ name ∈ s.exposed, isBracketed name = false := by
  simp only [same, respelled, Relation.respelled, beq_self_eq_true, Bool.and_true,
    Bool.and_eq_true, attributes_same_iff fun e => e.respelled true, Expr.respelled_same_iff,
    exposed, List.forall_mem_append, List.forall_mem_flatMap]

end Statement

namespace Node

/-! ## What a node holds -/

/-- The statements in a node. -/
def statements (n : Node) : List Statement :=
  n.collect (fun s => [s]) fun _ => []

/-- The values of the literals in a node. -/
def literals (n : Node) : List Scalar :=
  n.statements.flatMap Statement.literals

/-- The names of the identifiers in a node that are subjects or objects or
stand inside a term. -/
def exposed (n : Node) : List String :=
  n.statements.flatMap Statement.exposed

/-- The tenses of the relations in a node. -/
def tenses (n : Node) : List Data :=
  n.statements.map fun s => s.relation.tense

/-- What a node carries that takes no part in equality. -/
structure Payload where
  confidence : Data
  coherence : Data := .null
  metadata : Metadata := []

mutual

/-- The payloads of a node and of the nodes inside it. -/
def payloads : Node → List Payload
  | .intent i => [{ confidence := i.confidence, coherence := i.coherence, metadata := i.metadata }]
  | .compound _ a b => payloadsOperand a ++ payloadsOperand b
  | .quantified _ _ a _ => payloads a
  | .rule _ a b _ _ c => { confidence := c } :: (payloads a ++ payloads b)
  | .edge e => [{ confidence := e.confidence, metadata := e.metadata }]

/-- The payloads of an operand that may be missing. -/
def payloadsOperand : Option Node → List Payload
  | none => []
  | some a => payloads a

end

mutual

/-- A node as it is read from what is written for it. -/
def respelled : Node → Node
  | .intent i => .intent { i with statements := i.statements.map Statement.respelled }
  | .compound o a b => .compound o (respelledOperand a) (respelledOperand b)
  | .quantified q v a d => .quantified q v (respelled a) d
  | .rule i a b d x c => .rule i (respelled a) (respelled b) d x c
  | .edge e => .edge e

/-- An operand as it is read from what is written for it. -/
def respelledOperand : Option Node → Option Node
  | none => none
  | some a => some (respelled a)

end

section

variable {P : Statement → Prop}

theorem forall_statements_intent {i : Intent} :
    (∀ s ∈ (Node.intent i).statements, P s) ↔ ∀ s ∈ i.statements, P s := by
  simp [statements, forall_collect_intent]

theorem forall_statements_compound {o : Connective} {a b : Option Node} :
    (∀ s ∈ (Node.compound o a b).statements, P s) ↔
      (∀ n, a = some n → ∀ s ∈ n.statements, P s) ∧ ∀ n, b = some n → ∀ s ∈ n.statements, P s :=
  forall_collect_compound

theorem forall_statements_rule {i : String} {a b : Node} {d : Option String} {x : Bool}
    {c : Data} :
    (∀ s ∈ (Node.rule i a b d x c).statements, P s) ↔
      (∀ s ∈ a.statements, P s) ∧ ∀ s ∈ b.statements, P s :=
  forall_collect_rule

end

theorem composite?_of_mem_statements {n : Node} (h : n.isKey = true) :
    ∀ s ∈ n.statements, s.composite? = none := by
  simp only [Statement.composite?_eq_none]
  rw [isKey_iff] at h
  induction n using Node.ind with
  | intent i => exact forall_statements_intent.2 (forall_tokens_intent.1 h)
  | compound o a b iha ihb =>
      rw [forall_tokens_compound] at h
      exact forall_statements_compound.2
        ⟨fun n hn => iha n hn (h.1 n hn), fun n hn => ihb n hn (h.2 n hn)⟩
  | quantified q v a d ih => exact ih h
  | rule i a b d x c iha ihb =>
      rw [forall_tokens_rule] at h
      exact forall_statements_rule.2 ⟨iha h.1, ihb h.2⟩
  | edge e => simp [statements, collect]

/-! ## Nodes come back when their statements do -/

/-- What is read from what is written for a node whose statements are read. -/
theorem ofData_toData {n : Node}
    (h : ∀ s ∈ n.statements, Statement.ofData s.toData = .ok s.respelled) :
    ofData n.toData = .ok n.respelled := by
  induction n using Node.ind with
  | intent i =>
      exact ofData_intent_iff.2 ⟨_, mapM_eq_ok (forall_statements_intent.1 h), rfl⟩
  | compound o a b iha ihb =>
      rw [forall_statements_compound] at h
      have hsome : ∀ {n : Node}, ofData n.toData = .ok n.respelled →
          ((some n).mapM fun n => ofData n.toData) = .ok (some n.respelled) := by
        intro n hn
        rw [Option.mapM_some, hn]
        rfl
      have ha : (a.mapM fun n => ofData n.toData) = .ok (respelledOperand a) :=
        operand_cases a rfl fun n hn => hsome (iha n hn (h.1 n hn))
      have hb : (b.mapM fun n => ofData n.toData) = .ok (respelledOperand b) :=
        operand_cases b rfl fun n hn => hsome (ihb n hn (h.2 n hn))
      exact ofData_compound_iff.2 ⟨_, _, ha, hb, rfl⟩
  | quantified q v a d ih => exact ofData_quantified_iff.2 ⟨_, ih h, rfl⟩
  | rule i a b d x c iha ihb =>
      rw [forall_statements_rule] at h
      exact ofData_rule_iff.2 ⟨_, _, iha h.1, ihb h.2, rfl⟩
  | edge e => exact ofData_edge e

/-- Where something is read from what is written for a node, all its
statements are read. -/
theorem exists_of_ofData_toData {n m : Node} (h : ofData n.toData = .ok m) :
    ∀ s ∈ n.statements, ∃ t, Statement.ofData s.toData = .ok t := by
  induction n using Node.ind generalizing m with
  | intent i =>
      obtain ⟨statements, hs, -⟩ := ofData_intent_iff.1 h
      exact forall_statements_intent.2 (exists_of_mapM hs)
  | compound o a b iha ihb =>
      obtain ⟨left, right, hleft, hright, -⟩ := ofData_compound_iff.1 h
      refine forall_statements_compound.2 ⟨fun n hn => ?_, fun n hn => ?_⟩
      · subst hn
        obtain ⟨m, hm, -⟩ := bind_eq_ok_iff.1 hleft
        exact iha n rfl hm
      · subst hn
        obtain ⟨m, hm, -⟩ := bind_eq_ok_iff.1 hright
        exact ihb n rfl hm
  | quantified q v a d ih =>
      obtain ⟨body, hbody, -⟩ := ofData_quantified_iff.1 h
      exact ih hbody
  | rule i a b d x c iha ihb =>
      obtain ⟨premises, conclusion, hp, hc, -⟩ := ofData_rule_iff.1 h
      exact forall_statements_rule.2 ⟨iha hp, ihb hc⟩
  | edge e => simp [statements, collect]

/-! ## When a node comes back -/

theorem payloads_respelled (n : Node) : n.respelled.payloads = n.payloads := by
  induction n using Node.ind with
  | intent i => rfl
  | compound o a b iha ihb =>
      have ha : payloadsOperand (respelledOperand a) = payloadsOperand a := operand_cases a rfl iha
      have hb : payloadsOperand (respelledOperand b) = payloadsOperand b := operand_cases b rfl ihb
      simp only [respelled, payloads, ha, hb]
  | quantified q v a d ih => exact ih
  | rule i a b d x c iha ihb => simp only [respelled, payloads, iha, ihb]
  | edge e => rfl

theorem statements_respelled (n : Node) :
    n.respelled.statements = n.statements.map Statement.respelled := by
  induction n using Node.ind with
  | intent i => simp [respelled, statements, collect]
  | compound o a b iha ihb =>
      have ha : collectOperand (fun s => [s]) (fun _ => []) (respelledOperand a)
          = (collectOperand (fun s => [s]) (fun _ => []) a).map Statement.respelled :=
        operand_cases a rfl iha
      have hb : collectOperand (fun s => [s]) (fun _ => []) (respelledOperand b)
          = (collectOperand (fun s => [s]) (fun _ => []) b).map Statement.respelled :=
        operand_cases b rfl ihb
      simp only [respelled, statements, collect, ha, hb, List.map_append]
  | quantified q v a d ih => exact ih
  | rule i a b d x c iha ihb =>
      simp only [statements] at iha ihb
      simp only [respelled, statements, collect, iha, ihb, List.map_append]
  | edge e => rfl

theorem tenses_respelled (n : Node) : n.respelled.tenses = n.tenses.map Data.orNull := by
  simp [tenses, statements_respelled, Statement.respelled, Relation.respelled]

theorem sameAll_map_iff {f : Statement → Statement} {ss : List Statement} :
    Statement.sameAll (ss.map f) ss = true ↔ ∀ s ∈ ss, (f s).same s = true := by
  induction ss with
  | nil => simp [Statement.sameAll]
  | cons s ss ih => simp [Statement.sameAll, ih]

/-- A node that is read from what was written is equal to it if and only if
its statements are equal to what they were. -/
theorem respelled_same_iff (n : Node) :
    n.respelled.same n = true ↔ ∀ s ∈ n.statements, s.respelled.same s = true := by
  induction n using Node.ind with
  | intent i =>
      rw [forall_statements_intent]
      simp [respelled, same_intent, Intent.same, sameAll_map_iff]
  | compound o a b iha ihb =>
      rw [forall_statements_compound]
      have hoperand : ∀ a : Option Node, sameOperand (respelledOperand a) a = true ↔
          ∀ n, a = some n → n.respelled.same n = true := by
        intro a
        cases a <;> simp [sameOperand_none, sameOperand_some, respelledOperand]
      simp only [respelled, same_compound, beq_self_eq_true, Bool.true_and, Bool.and_eq_true, hoperand]
      exact and_congr (forall_congr' fun n => forall_congr' fun hn => iha n hn)
        (forall_congr' fun n => forall_congr' fun hn => ihb n hn)
  | quantified q v a d ih =>
      simp only [respelled, same_quantified, beq_self_eq_true, Bool.true_and]
      exact ih
  | rule i a b d x c iha ihb =>
      rw [forall_statements_rule, ← iha, ← ihb]
      simp [respelled, same_rule]
  | edge e => simp [respelled, same_edge, Edge.same, statements, collect]

end Node

/-! ## Nodes that were read -/

namespace Node

section

variable {P : Statement → Prop} {what key : String} {d : Data} {rs : Readings}

theorem part_mem {n : Node} (h : part what key rs = .ok (some n)) :
    ∃ r ∈ rs, r.2 = .ok (some n) := by
  unfold part at h
  split at h
  · next r hr =>
      obtain ⟨l₁, l₂, hl, -⟩ := List.lookup_eq_some_iff.1 hr
      exact ⟨(key, r), by simp [hl], h⟩
  · cases h

theorem operand_mem {a : Option Node} (h : operand d key rs = .ok (some a)) {n : Node}
    (hn : a = some n) : ∃ r ∈ rs, r.2 = .ok (some n) := by
  unfold operand at h
  split at h
  · cases h
    cases hn
  · obtain ⟨m?, hm, h⟩ := bind_eq_ok_iff.1 h
    cases m? <;> cases h
    cases hn
    exact part_mem hm

theorem forall_statements_of_build (hP : ∀ d s, Statement.ofData d = .ok s → P s)
    (hr : ∀ r ∈ rs, ∀ m, r.2 = .ok (some m) → ∀ s ∈ m.statements, P s) {kind : Data} {n : Node}
    (h : build kind d rs = .ok (some n)) : ∀ s ∈ n.statements, P s := by
  have hpart : ∀ {m : Node}, (∃ r ∈ rs, r.2 = .ok (some m)) → ∀ s ∈ m.statements, P s :=
    fun ⟨r, hmem, hm⟩ => hr r hmem _ hm
  cases built_of_build h with
  | intent hi =>
      refine forall_statements_intent.2 fun s hs => ?_
      obtain ⟨items, -, hitems, -⟩ := Intent.exists_of_load hi
      obtain ⟨x, -, hx⟩ := exists_of_mem_mapM hitems s hs
      exact hP x s hx
  | compound ha hb =>
      exact forall_statements_compound.2
        ⟨fun m hm => hpart (operand_mem ha hm), fun m hm => hpart (operand_mem hb hm)⟩
  | @quantified q v a domain ha =>
      have hbody : ∀ s ∈ a.statements, P s := hpart (part_mem ha)
      exact hbody
  | rule ha hb => exact forall_statements_rule.2 ⟨hpart (part_mem ha), hpart (part_mem hb)⟩
  | edge he => simp [statements, collect]

mutual

theorem forall_statements_of_load (hP : ∀ d s, Statement.ofData d = .ok s → P s) :
    ∀ (d : Data) (n : Node), load d = .ok (some n) → ∀ s ∈ n.statements, P s
  | .obj fields, n, h => by
      simp only [load] at h
      split at h
      · cases h
      · exact forall_statements_of_build hP (forall_statements_of_readings hP fields) h
  | .null, _, h => by cases h
  | .bool _, _, h => by cases h
  | .num _, _, h => by cases h
  | .str _, _, h => by cases h
  | .list _, _, h => by cases h
  | .map _, _, h => by cases h

theorem forall_statements_of_readings (hP : ∀ d s, Statement.ofData d = .ok s → P s) :
    ∀ (fields : List (String × Data)), ∀ r ∈ readings fields, ∀ m, r.2 = .ok (some m) →
      ∀ s ∈ m.statements, P s
  | [], _, hr, _, _ => by cases hr
  | (k, v) :: fields, r, hr, m, hm => by
      rcases List.mem_cons.1 hr with rfl | hr
      · exact forall_statements_of_load hP v m hm
      · exact forall_statements_of_readings hP fields r hr m hm

end

/-- What holds of all statements that are read holds of those in nodes that
are read. -/
theorem forall_statements_of_ofData (hP : ∀ d s, Statement.ofData d = .ok s → P s) {d : Data}
    {n : Node} (h : ofData d = .ok n) : ∀ s ∈ n.statements, P s :=
  forall_statements_of_load hP d n (named_eq_ok_iff.1 h)

end

/-! ## The round trip -/

/-- Something is read from what is written for a node that was read and is a
key if and only if no literal in it is null; then it is the node respelled. -/
theorem reads_iff {d : Data} {n m : Node} (hread : ofData d = .ok n) (hkey : n.isKey = true) :
    ofData n.toData = .ok m ↔ .null ∉ n.literals ∧ m = n.respelled := by
  have hcomposite := composite?_of_mem_statements hkey
  have hsorted := forall_statements_of_ofData (fun _ _ => Statement.sorted_of_ofData) hread
  have hback : .null ∉ n.literals → ofData n.toData = .ok n.respelled := by
    intro hnull
    refine ofData_toData fun s hs => ?_
    exact Statement.ofData_toData (hcomposite s hs) (hsorted s hs)
      fun hn => hnull (List.mem_flatMap.2 ⟨s, hs, hn⟩)
  constructor
  · intro h
    have hnull : .null ∉ n.literals := by
      intro hn
      obtain ⟨s, hs, hn⟩ := List.mem_flatMap.1 hn
      obtain ⟨t, ht⟩ := exists_of_ofData_toData h s hs
      exact Statement.null_not_mem_literals (hcomposite s hs) ht hn
    refine ⟨hnull, ?_⟩
    rw [hback hnull] at h
    cases h
    rfl
  · rintro ⟨hnull, rfl⟩
    exact hback hnull

/-- What is written for a node that was read, and has scalar literals only,
is read as a node equal to it, with its payloads and its tenses, if and only
if no literal in it is null and no exposed name stands between angle
brackets. -/
theorem reads_back_iff (d : Data) (n : Node) (hread : ofData d = .ok n) (hkey : n.isKey = true) :
    (∃ m, ofData n.toData = .ok m ∧ m.same n = true ∧ m.payloads = n.payloads ∧
        m.tenses = n.tenses.map Data.orNull) ↔
      .null ∉ n.literals ∧ ∀ name ∈ n.exposed, isBracketed name = false := by
  have hsame : n.respelled.same n = true ↔ ∀ name ∈ n.exposed, isBracketed name = false := by
    simp only [respelled_same_iff, Statement.respelled_same_iff, exposed, List.forall_mem_flatMap]
  simp only [reads_iff hread hkey, ← hsame]
  constructor
  · rintro ⟨m, ⟨hnull, rfl⟩, hm, -⟩
    exact ⟨hnull, hm⟩
  · rintro ⟨hnull, hm⟩
    exact ⟨_, ⟨hnull, rfl⟩, hm, payloads_respelled n, tenses_respelled n⟩

/-- The record of a measurement: an empty tense, a term, and an attribute whose
text begins like a concept. -/
def rainfallRecord : Data :=
  .obj [("type", .str "Intent"), ("kind", .str "!Assert"), ("statements", .list [
      .obj [("subject", .str "<Rain>"),
        ("relation", .obj [("name", .str "measured"), ("tense", .str "")]),
        ("object", .obj [("type", .str "Function"), ("name", .str "depth"),
          ("arguments", .list [.str "june", .num (.int 48)])]),
        ("attributes", .obj [("unit", .str "<mm")])]]),
    ("confidence", .num (.int 1)), ("metadata", .obj [("source", .str "gauge")])]

/-- The measurement. -/
def rainfall : Node :=
  .intent {
    kind := "!Assert"
    statements := [{
      subject := .concept "Rain", relation := { name := "measured", tense := .str "" }
      object := .application "depth" [.identifier "june", .literal (.num (.int 48))]
      attributes := [("unit", .literal (.str "<mm"))] }]
    confidence := .num (.int 1)
    metadata := [(.str "source", .str "gauge")] }

theorem rainfall_reads_back :
    ofData rainfallRecord = .ok rainfall ∧ rainfall.isKey = true ∧
      ∃ m, ofData rainfall.toData = .ok m ∧ m.same rainfall = true ∧
        m.payloads = rainfall.payloads ∧ m.tenses = [.null] := by
  have hread : ofData rainfallRecord = .ok rainfall := by with_unfolding_all rfl
  have hkey : rainfall.isKey = true := by decide
  refine ⟨hread, hkey, ?_⟩
  exact (reads_back_iff rainfallRecord rainfall hread hkey).2 ⟨by decide, by decide⟩

end Node

end TripleLogic
