/-
TripleLogic.Proofs.Responses — which requests end in an internal error.

A request whose body fits its route is answered with status 200 or 422, or it
is an internal error with status 500. The last is meant never to happen, since
every fault of an input is to be reported as such. It does happen: a misused
value that no loader has caught, and a number without a JSON text in an answer,
are reported by nobody.

Main statement: a request whose names are texts is an internal error exactly
when the first fault in it is an uncaught misuse, or its answer cannot be sent;
if all its numbers are finite, the answer can be sent (`answer_status`).
-/
import TripleLogic.Proofs.FaultKinds
import TripleLogic.Proofs.FiniteAnswers
import TripleLogic.Proofs.KeyFaults
import TripleLogic.Server

namespace TripleLogic.Server

/-! ## Requests -/

/-- What a body that fits its route asks for. -/
inductive Request where
  | reason (nodes : List Data) (bound : Option Int) (validate : Bool)
  | prove (nodes : List Data) (goal : Data) (validate : Bool)
  | unify (a b : Data)
  | conflicts (statements : List Data) (ontology : Option Data) (types : Bool)

namespace Request

/-- The answer to a request. -/
def result : Request → Except Fault Data
  | .reason nodes bound validate => Server.reason nodes bound validate
  | .prove nodes goal validate => Server.prove nodes goal validate
  | .unify a b => Server.unify a b
  | .conflicts statements ontology types => Server.conflicts statements ontology types

/-- How the answer to a request is made ready. -/
def dress : Request → Dress
  | .reason .. => .whole
  | .prove .. => .filtered
  | .unify .. => .whole
  | .conflicts .. => .filtered

end Request

/-- A body fits its route, and asks for something. -/
inductive Accepts : Route → Data → Request → Prop
  | reason {fields : Fields} {nodes : List Data} {bound : Option Int} {validate : Bool}
      (h : both (required fields "nodes" checkObjects)
        (both (optional fields "max_iterations" none (orNull checkInteger))
          (optional fields "validate_nodes" false checkSwitch)) = .ok (nodes, bound, validate)) :
      Accepts .reason (.obj fields) (.reason nodes bound validate)
  | prove {fields : Fields} {nodes : List Data} {goal : Data} {validate : Bool}
      (h : both (required fields "nodes" checkObjects)
        (both (required fields "goal" checkObject)
          (optional fields "validate_nodes" false checkSwitch)) = .ok (nodes, goal, validate)) :
      Accepts .prove (.obj fields) (.prove nodes goal validate)
  | unify {fields : Fields} {a b : Data}
      (h : both (required fields "a" checkObject) (required fields "b" checkObject) = .ok (a, b)) :
      Accepts .unify (.obj fields) (.unify a b)
  | conflicts {fields : Fields} {statements : List Data} {ontology : Option Data} {types : Bool}
      (h : both (required fields "statements" checkObjects)
        (both (optional fields "ontology" none (orNull checkObject))
          (optional fields "include_type_violations" false checkSwitch))
            = .ok (statements, ontology, types)) :
      Accepts .conflicts (.obj fields) (.conflicts statements ontology types)

/-- A body that fits is answered with what it asks for. -/
theorem answer_eq {route : Route} {body : Data} {r : Request} (h : Accepts route body r) :
    answer route body = respond r.dress r.result := by
  cases h with
  | reason h => simp only [answer, answerFields, h, ofChecked, Request.dress, Request.result]
  | prove h => simp only [answer, answerFields, h, ofChecked, Request.dress, Request.result]
  | unify h => simp only [answer, answerFields, h, ofChecked, Request.dress, Request.result]
  | conflicts h => simp only [answer, answerFields, h, ofChecked, Request.dress, Request.result]

/-! ## Statuses -/

/-- The statuses of a response, and what makes it an internal error. -/
theorem respond_status (dress : Dress) {r : Except Fault Data}
    (h : ¬ FailsAt Fault.isOutside r) :
    ∃ response, respond dress r = .ok response ∧
      (response.status = 200 ∨ response.status = 422 ∨ response.status = 500) ∧
      (response.status = 500 ↔ Misuses r ∨ ∃ d, r = .ok d ∧ dress.apply? d = none) := by
  cases r with
  | ok d =>
      cases hd : dress.apply? d with
      | none => exact ⟨internalError, by simp [respond, hd], by simp [internalError, hd]⟩
      | some e =>
          exact ⟨{ status := 200, timed := true, body := .json e }, by simp [respond, hd],
            by simp [hd]⟩
  | error f =>
      cases f with
      | misuse m => exact ⟨internalError, rfl, by simp [internalError]⟩
      | outside c => exact absurd (failsAt_error_iff.2 rfl) h
      | _ => exact ⟨_, rfl, by simp [problem, Misuses]⟩

/-! ## Uncaught misuses -/

theorem assertAll_eq_ok_iff {ns : List Node} {u : Unit} :
    Node.assertAll ns = .ok u ↔ Node.listProblems ns = [] := by
  unfold Node.assertAll
  split <;> simp_all

@[simp]
theorem not_misuses_assertAll (ns : List Node) : ¬ Misuses (Node.assertAll ns) := by
  unfold Node.assertAll
  split
  · simp
  · nofun

/-- Nodes are read from records, and are valid if that is asked for. -/
def Loads (ds : List Data) (validate : Bool) (ns : List Node) : Prop :=
  ds.mapM Node.ofData = .ok ns ∧ (validate = true → Node.listProblems ns = [])

/-- The engine of a request is an engine over nodes that are read. -/
theorem engineOf_eq_ok_iff {ds : List Data} {validate : Bool} {g : Engine} :
    engineOf ds validate = .ok g ↔
      ∃ ns, Loads ds validate ns ∧ Engine.ofEntries (ns.map .node) {} = g := by
  simp only [engineOf, bind_eq_ok_iff, named_eq_ok_iff, readEach_eq_ok_iff, Loads, and_assoc]
  refine exists_congr fun ns => and_congr_right fun _ => ?_
  cases validate with
  | false => simp [pure, Except.pure]
  | true => simp [bind_eq_ok_iff, assertAll_eq_ok_iff, pure, Except.pure]

/-- Loading nodes misuses nothing but the types of records. -/
theorem misuses_engineOf_iff {ds : List Data} {validate : Bool} :
    Misuses (engineOf ds validate) ↔ FirstUnread Node.load (·.isMistyped = true) ds := by
  simp only [engineOf, misuses_bind_iff, misuses_named_iff, misuses_readEach_iff,
    Node.load_misuses_iff]
  refine or_iff_left ?_
  rintro ⟨ns, -, h⟩
  cases validate <;> simp at h

/-- Nodes are left out when all their records are in order and a name is no text. -/
theorem failsAt_engineOf_iff {ds : List Data} {validate : Bool} :
    FailsAt Fault.isOutside (engineOf ds validate) ↔ readEach Node.load ds = .ok none := by
  rw [engineOf, failsAt_bind_iff, (KindOnly.readEach Node.kindOnly_load ds).failsAt_isOutside_named_iff]
  refine or_iff_left ?_
  rintro ⟨ns, -, h⟩
  cases validate with
  | false => exact not_failsAt_pure _ h
  | true =>
      obtain h | ⟨_, -, h⟩ := failsAt_bind_iff.1 h
      · unfold Node.assertAll at h
        split at h <;> simp [Fault.isOutside] at h
      · exact not_failsAt_pure _ h

theorem nodes_ofEntries_hasNoKey {ns : List Node} {settings : InferenceSettings} :
    HasNoKey (Engine.ofEntries (ns.map .node) settings).kb.nodes ↔ HasNoKey ns :=
  KnowledgeBase.hasNoKey_ofEntries

/-- The most passes of forward chaining that a request asks for. -/
def passesOf (bound : Option Int) : Nat :=
  match bound with
  | some n => n.toNat
  | none => ({} : InferenceSettings).maxForwardPasses

/-- What is asked of some engine of a request is asked of the engine over the
nodes that are read. -/
theorem exists_engineOf_iff {ds : List Data} {validate : Bool} {P : Engine → Prop} :
    (∃ g, engineOf ds validate = .ok g ∧ P g) ↔
      ∃ ns, Loads ds validate ns ∧ P (Engine.ofEntries (ns.map .node) {}) := by
  simp only [engineOf_eq_ok_iff]
  constructor
  · rintro ⟨_, ⟨ns, hns, rfl⟩, h⟩
    exact ⟨ns, hns, h⟩
  · rintro ⟨ns, hns, h⟩
    exact ⟨_, ⟨ns, hns, rfl⟩, h⟩

theorem misuses_reason_iff {ds : List Data} {bound : Option Int} {validate : Bool} :
    Misuses (Server.reason ds bound validate) ↔
      FirstUnread Node.load (·.isMistyped = true) ds ∨
        ∃ ns, Loads ds validate ns ∧ passesOf bound ≠ 0 ∧ HasNoKey ns := by
  simp only [Server.reason, misuses_bind_iff, misuses_engineOf_iff, exists_engineOf_iff,
    not_misuses_pure, and_false, exists_false, or_false]
  cases bound <;>
    simp only [Engine.forwardDefault, Engine.forward_misuses_iff, nodes_ofEntries_hasNoKey] <;> rfl

theorem misuses_prove_iff {ds : List Data} {goal : Data} {validate : Bool} :
    Misuses (Server.prove ds goal validate) ↔
      FirstUnread Node.load (·.isMistyped = true) ds ∨
        ∃ ns, Loads ds validate ns ∧
          (goal.isMistyped = true ∨
            ∃ n, Node.ofData goal = .ok n ∧ HasNoKey (n :: ns) ∧
              ¬ ∃ p, (Engine.ofEntries (ns.map .node) {}).backward (.node n) = .ok (some p)) := by
  simp only [Server.prove, misuses_bind_iff, misuses_engineOf_iff, exists_engineOf_iff,
    Node.ofData_misuses_iff, not_misuses_pure, and_false, exists_false, or_false,
    Engine.prove_misuses_iff_of_default (g := Engine.ofEntries _ _) rfl, hasNoKey_cons,
    nodes_ofEntries_hasNoKey]

/-- What is told of two nodes that may have a unifier. -/
def unifierOn (m n : Node) : Data :=
  match m.unify n with
  | some σ => .obj [("unifies", .bool true), ("substitution", Proof.substitutionData σ)]
  | none => .obj [("unifies", .bool false), ("substitution", .null)]

theorem unify_eq (a b : Data) :
    Server.unify a b = do
      let m ← Node.ofData a
      let n ← Node.ofData b
      return unifierOn m n := by
  unfold Server.unify unifierOn
  refine bind_congr fun m => bind_congr fun n => ?_
  cases m.unify n <;> rfl

theorem misuses_unify_iff {a b : Data} :
    Misuses (Server.unify a b) ↔
      a.isMistyped = true ∨ (∃ n, Node.ofData a = .ok n) ∧ b.isMistyped = true := by
  simp only [unify_eq, misuses_bind_iff, Node.ofData_misuses_iff, not_misuses_pure, and_false,
    exists_false, or_false, exists_and_right]

/-! ### Documents of requests -/

/-- The document that a request comes with; without one it is empty. -/
def documentOf (ontology : Option Data) : Except Fault Document :=
  match ontology with
  | some d => if d.truthy then Document.ofData d else pure {}
  | none => pure {}

/-- What is said of statements under a document. -/
def reportOn (given : List Statement) (doc : Document) (types : Bool) : Data :=
  let (o, closure) := (doc.apply (Ontology.ofSettings {})).learn
    (doc.axioms ++ given.map Axiom.ofStatement)
  let found := o.conflicts given ++ (if types then o.typeConflicts given else [])
  .obj [("conflicts", .list (found.map fun c => .obj c.toData)),
    ("closure", .obj [("iterations", .nat closure.passes),
      ("converged", .bool closure.converged)]),
    ("statistics", .obj o.statistics)]

theorem conflicts_eq (statements : List Data) (ontology : Option Data) (types : Bool) :
    conflicts statements ontology types = do
      let given ← named (readEach Statement.load statements)
      let doc ← documentOf ontology
      doc.assertKeys
      doc.assertTexts
      return reportOn given doc types := by
  unfold conflicts documentOf
  cases ontology with
  | none => rfl
  | some d =>
      dsimp only
      cases d.truthy <;> rfl

/-- The document of a request is empty, or the one that it comes with. -/
theorem documentOf_cases (ontology : Option Data) :
    (documentOf ontology = .ok {} ∧ ∀ d, ontology = some d → d.truthy = false) ∨
      ∃ d, ontology = some d ∧ d.truthy = true ∧ documentOf ontology = Document.ofData d := by
  cases ontology with
  | none => exact .inl ⟨rfl, nofun⟩
  | some d =>
      cases h : d.truthy with
      | false => exact .inl ⟨by simp [documentOf, h, pure, Except.pure], by simp [h]⟩
      | true => exact .inr ⟨d, rfl, h, by simp [documentOf, h]⟩

/-- What does not hold of the empty document holds of the document of a request
when the request comes with one of which it holds. -/
theorem exists_documentOf_iff {ontology : Option Data} {P : Document → Prop} (h : ¬ P {}) :
    (∃ doc, documentOf ontology = .ok doc ∧ P doc) ↔
      ∃ d, ontology = some d ∧ d.truthy = true ∧ ∃ doc, Document.ofData d = .ok doc ∧ P doc := by
  rcases documentOf_cases ontology with ⟨hdoc, hfalse⟩ | ⟨d, rfl, htruthy, hdoc⟩
  · rw [hdoc]
    refine iff_of_false (by simpa using h) ?_
    rintro ⟨d, hd, htruthy, -⟩
    cases (hfalse d hd).symm.trans htruthy
  · simp [hdoc, htruthy]

theorem misuses_documentOf_iff {ontology : Option Data} :
    Misuses (documentOf ontology) ↔
      ∃ d, ontology = some d ∧ d.truthy = true ∧ Document.Misread d := by
  rcases documentOf_cases ontology with ⟨hdoc, hfalse⟩ | ⟨d, rfl, htruthy, hdoc⟩
  · rw [hdoc]
    refine iff_of_false (not_misuses_ok _) ?_
    rintro ⟨d, hd, htruthy, -⟩
    cases (hfalse d hd).symm.trans htruthy
  · simp [hdoc, htruthy, Document.ofData_misuses_iff]

theorem not_failsAt_documentOf (ontology : Option Data) :
    ¬ FailsAt Fault.isOutside (documentOf ontology) := by
  rcases documentOf_cases ontology with ⟨hdoc, -⟩ | ⟨d, -, -, hdoc⟩
  · exact hdoc ▸ not_failsAt_ok _
  · exact hdoc ▸ (Document.kindOnly_ofData d).not_failsAt_isOutside

theorem not_misnamed_empty : ¬ ({} : Document).Misnamed := by
  simp [Document.Misnamed]

@[simp]
theorem not_misuses_assertTexts (doc : Document) : ¬ Misuses doc.assertTexts := by
  unfold Document.assertTexts
  split
  · exact not_misuses_ok _
  · nofun

theorem misuses_conflicts_iff {statements : List Data} {ontology : Option Data} {types : Bool} :
    Misuses (Server.conflicts statements ontology types) ↔
      FirstUnread Statement.load Statement.Misread statements ∨
        (∃ ss, statements.mapM Statement.ofData = .ok ss) ∧
          ∃ d, ontology = some d ∧ d.truthy = true ∧
            (Document.Misread d ∨ ∃ doc, Document.ofData d = .ok doc ∧ doc.Misnamed) := by
  simp only [conflicts_eq, misuses_bind_iff, misuses_named_iff, misuses_readEach_iff,
    Statement.load_misuses_iff, named_eq_ok_iff, readEach_eq_ok_iff, not_misuses_pure, and_false,
    exists_false, or_false, not_misuses_assertTexts, Document.assertKeys_misuses_iff,
    exists_and_right, misuses_documentOf_iff, exists_documentOf_iff not_misnamed_empty,
    ← exists_or, ← and_or_left]
  rfl

/-! ## Names that are no texts -/

theorem failsAt_ofData_iff {d : Data} :
    FailsAt Fault.isOutside (Node.ofData d) ↔ Node.load d = .ok none :=
  (Node.kindOnly_load d).failsAt_isOutside_named_iff

theorem failsAt_reason_iff {ds : List Data} {bound : Option Int} {validate : Bool} :
    FailsAt Fault.isOutside (Server.reason ds bound validate) ↔
      readEach Node.load ds = .ok none := by
  rw [Server.reason, failsAt_bind_iff, failsAt_engineOf_iff]
  refine or_iff_left ?_
  rintro ⟨g, -, h⟩
  have hforward : ∀ n, ¬ FailsAt Fault.isOutside (g.forward n).2 := fun n =>
    not_failsAt_isOutside_of_answered fun h => (Engine.exists_forward h).imp fun _ => And.left
  cases bound <;>
  · obtain h | ⟨_, -, h⟩ := failsAt_bind_iff.1 h
    · exact hforward _ h
    · exact not_failsAt_pure _ h

theorem failsAt_prove_iff {ds : List Data} {goal : Data} {validate : Bool} :
    FailsAt Fault.isOutside (Server.prove ds goal validate) ↔
      readEach Node.load ds = .ok none ∨
        (∃ ns, Loads ds validate ns) ∧ Node.load goal = .ok none := by
  have hprove : ∀ (g : Engine) n, ¬ FailsAt Fault.isOutside (g.prove (.node n)).2 := fun g n =>
    not_failsAt_isOutside_of_answered Engine.exists_prove
  simp only [Server.prove, failsAt_bind_iff, failsAt_engineOf_iff, failsAt_ofData_iff, hprove,
    not_failsAt_pure, and_false, exists_false, or_false]
  exact or_congr_right (exists_engineOf_iff.trans exists_and_right)

theorem failsAt_unify_iff {a b : Data} :
    FailsAt Fault.isOutside (Server.unify a b) ↔
      Node.load a = .ok none ∨ (∃ n, Node.ofData a = .ok n) ∧ Node.load b = .ok none := by
  simp only [unify_eq, failsAt_bind_iff, failsAt_ofData_iff, not_failsAt_pure, and_false,
    exists_false, or_false, exists_and_right]

/-- Statements are left out when all their records are in order and a name is
no text. -/
theorem failsAt_statements_iff {ds : List Data} :
    FailsAt Fault.isOutside (named (readEach Statement.load ds)) ↔
      readEach Statement.load ds = .ok none := by
  have hread : RecordOnly (readEach Statement.load ds) := recordOnly_readEach (by simp)
  cases h : readEach Statement.load ds with
  | ok found => cases found <;> simp [named, Fault.isOutside]
  | error f => obtain ⟨m, rfl⟩ | ⟨c, rfl⟩ := hread f h <;> simp [named, Fault.isOutside]

theorem failsAt_assertKeys (doc : Document) : ¬ FailsAt Fault.isOutside doc.assertKeys :=
  not_failsAt_isOutside_of_answered fun h =>
    ⟨(), Document.assertKeys_eq_ok fun hno => h (Document.assertKeys_misuses_iff.2 hno)⟩

theorem failsAt_assertTexts_iff {doc : Document} :
    FailsAt Fault.isOutside doc.assertTexts ↔ doc.isTextual = false := by
  unfold Document.assertTexts
  cases doc.isTextual <;> simp [Fault.isOutside]

theorem assertKeys_eq_ok_iff {doc : Document} :
    (∃ u, doc.assertKeys = .ok u) ↔ ¬ doc.Misnamed := by
  constructor
  · rintro ⟨u, hu⟩ hno
    simpa [hu] using Document.assertKeys_misuses_iff.2 hno
  · exact fun h => ⟨(), Document.assertKeys_eq_ok h⟩

theorem failsAt_conflicts_iff {statements : List Data} {ontology : Option Data} {types : Bool} :
    FailsAt Fault.isOutside (Server.conflicts statements ontology types) ↔
      readEach Statement.load statements = .ok none ∨
        (∃ ss, statements.mapM Statement.ofData = .ok ss) ∧
          ∃ d doc, ontology = some d ∧ d.truthy = true ∧ Document.ofData d = .ok doc ∧
            ¬ doc.Misnamed ∧ doc.isTextual = false := by
  have hempty : ({} : Document).isTextual ≠ false := by simp [Document.isTextual]
  simp only [conflicts_eq, failsAt_bind_iff, failsAt_statements_iff, named_eq_ok_iff,
    readEach_eq_ok_iff, not_failsAt_pure, and_false, exists_false, or_false, failsAt_assertKeys,
    failsAt_assertTexts_iff, false_or, exists_and_right, assertKeys_eq_ok_iff,
    not_failsAt_documentOf, exists_and_left,
    exists_documentOf_iff (P := fun doc => ¬ doc.Misnamed ∧ doc.isTextual = false)
      fun h => hempty h.2]
  rfl

/-! ## Internal errors -/

namespace Request

/-- The first fault in a request is a misused value that no check catches. All
that is read before it is in order. Nodes must not have a list or an object for
a type; literals must not have one for a value, where reasoning looks nodes up;
and statements and ontologies must not have values without parts where parts are
gone through, nor ontologies lists or objects for names. -/
def Uncaught : Request → Prop
  | .reason nodes bound validate =>
      FirstUnread Node.load (·.isMistyped = true) nodes ∨
        ∃ ns, Loads nodes validate ns ∧ passesOf bound ≠ 0 ∧ HasNoKey ns
  | .prove nodes goal validate =>
      FirstUnread Node.load (·.isMistyped = true) nodes ∨
        ∃ ns, Loads nodes validate ns ∧
          (goal.isMistyped = true ∨
            ∃ n, Node.ofData goal = .ok n ∧ HasNoKey (n :: ns) ∧
              ¬ ∃ p, (Engine.ofEntries (ns.map .node) {}).backward (.node n) = .ok (some p))
  | .unify a b => a.isMistyped = true ∨ (∃ n, Node.ofData a = .ok n) ∧ b.isMistyped = true
  | .conflicts statements ontology _ =>
      FirstUnread Statement.load Statement.Misread statements ∨
        (∃ ss, statements.mapM Statement.ofData = .ok ss) ∧
          ∃ d, ontology = some d ∧ d.truthy = true ∧
            (Document.Misread d ∨ ∃ doc, Document.ofData d = .ok doc ∧ doc.Misnamed)

/-- All that is read of a request is in order, but a name in it is no text. A
document is read without its names; these have to be texts when they are used. -/
def Nameless : Request → Prop
  | .reason nodes _ _ => readEach Node.load nodes = .ok none
  | .prove nodes goal validate =>
      readEach Node.load nodes = .ok none ∨
        (∃ ns, Loads nodes validate ns) ∧ Node.load goal = .ok none
  | .unify a b => Node.load a = .ok none ∨ (∃ n, Node.ofData a = .ok n) ∧ Node.load b = .ok none
  | .conflicts statements ontology _ =>
      readEach Statement.load statements = .ok none ∨
        (∃ ss, statements.mapM Statement.ofData = .ok ss) ∧
          ∃ d doc, ontology = some d ∧ d.truthy = true ∧ Document.ofData d = .ok doc ∧
            ¬ doc.Misnamed ∧ doc.isTextual = false

/-- The answer to a request has a number that JSON has no text for. -/
def Unsendable (r : Request) : Prop :=
  ∃ d, r.result = .ok d ∧ r.dress.apply? d = none

theorem misuses_result_iff (r : Request) : Misuses r.result ↔ r.Uncaught := by
  cases r with
  | reason nodes bound validate => exact misuses_reason_iff
  | prove nodes goal validate => exact misuses_prove_iff
  | unify a b => exact misuses_unify_iff
  | conflicts statements ontology types => exact misuses_conflicts_iff

theorem failsAt_result_iff (r : Request) : FailsAt Fault.isOutside r.result ↔ r.Nameless := by
  cases r with
  | reason nodes bound validate => exact failsAt_reason_iff
  | prove nodes goal validate => exact failsAt_prove_iff
  | unify a b => exact failsAt_unify_iff
  | conflicts statements ontology types => exact failsAt_conflicts_iff

end Request

/-! ## Finite requests -/

section

variable {α β : Type} {fields : Fields} {key : String} {place : List Data}

theorem both_eq_ok_iff {a : Checked α} {b : Checked β} {x : α} {y : β} :
    both a b = .ok (x, y) ↔ a = .ok x ∧ b = .ok y := by
  cases a <;> cases b <;> simp [both]

/-- A field that is required is checked. -/
theorem exists_of_required {check : List Data → Data → Checked α} {a : α}
    (h : required fields key check = .ok a) :
    ∃ d, fields.get? key = some d ∧ check (placeOf key) d = .ok a := by
  unfold required at h
  split at h
  · next d hd => exact ⟨d, hd, h⟩
  · cases h

/-- An object that is checked is taken as it is. -/
theorem eq_of_checkObject {d e : Data} (h : checkObject place d = .ok e) : e = d := by
  cases d with
  | obj fields =>
      cases h
      rfl
  | _ => cases h

/-- Items that are checked are taken as they are. -/
theorem eq_of_checkItems : ∀ {xs ys : List Data} {i : Nat},
    checkItems place i xs = .ok ys → ys = xs
  | [], _, _, h => by
      cases h
      rfl
  | x :: xs, ys, i, h => by
      unfold checkItems at h
      cases hboth : both (checkObject (place ++ [.nat i]) x) (checkItems place (i + 1) xs) with
      | error e =>
          rw [hboth] at h
          cases h
      | ok p =>
          rw [hboth] at h
          cases h
          obtain ⟨hx, hxs⟩ := both_eq_ok_iff.1 hboth
          exact congrArg₂ List.cons (eq_of_checkObject hx) (eq_of_checkItems hxs)

theorem finite_of_required (hfinite : (Data.obj fields).Finite) {d : Data}
    (h : required fields key checkObject = .ok d) : d.Finite := by
  obtain ⟨e, he, h⟩ := exists_of_required h
  exact eq_of_checkObject h ▸ hfinite.field he

theorem finite_of_requiredList (hfinite : (Data.obj fields).Finite) {ds : List Data}
    (h : required fields key checkObjects = .ok ds) : ∀ d ∈ ds, d.Finite := by
  obtain ⟨e, he, h⟩ := exists_of_required h
  have hlist := hfinite.field he
  cases e with
  | list xs => exact eq_of_checkItems h ▸ Data.finite_list.1 hlist
  | _ => cases h

theorem finite_of_optional (hfinite : (Data.obj fields).Finite) {found : Option Data}
    (h : optional fields key none (orNull checkObject) = .ok found) :
    ∀ d, found = some d → d.Finite := by
  unfold optional at h
  split at h
  · next e he =>
      cases e with
      | obj fields' =>
          cases h
          intro d hd
          cases hd
          exact hfinite.field he
      | null =>
          cases h
          exact fun d hd => by cases hd
      | _ => cases h
  · cases h
    exact fun d hd => by cases hd

end

namespace Request

/-- All values in a request are finite. -/
def Finite : Request → Prop
  | .reason nodes _ _ => ∀ d ∈ nodes, d.Finite
  | .prove nodes goal _ => (∀ d ∈ nodes, d.Finite) ∧ goal.Finite
  | .unify a b => a.Finite ∧ b.Finite
  | .conflicts statements ontology _ =>
      (∀ d ∈ statements, d.Finite) ∧ ∀ d, ontology = some d → d.Finite

end Request

/-- A finite body asks for something finite. -/
theorem Accepts.finite {route : Route} {body : Data} {r : Request} (h : Accepts route body r)
    (hbody : body.Finite) : r.Finite := by
  cases h with
  | reason h => exact finite_of_requiredList hbody (both_eq_ok_iff.1 h).1
  | prove h =>
      obtain ⟨hnodes, h⟩ := both_eq_ok_iff.1 h
      exact ⟨finite_of_requiredList hbody hnodes,
        finite_of_required hbody (both_eq_ok_iff.1 h).1⟩
  | unify h =>
      obtain ⟨ha, hb⟩ := both_eq_ok_iff.1 h
      exact ⟨finite_of_required hbody ha, finite_of_required hbody hb⟩
  | conflicts h =>
      obtain ⟨hstatements, h⟩ := both_eq_ok_iff.1 h
      exact ⟨finite_of_requiredList hbody hstatements,
        finite_of_optional hbody (both_eq_ok_iff.1 h).1⟩

/-- The engine of finite nodes knows finite nodes. -/
theorem finite_engineOf {ds : List Data} (h : ∀ d ∈ ds, d.Finite) {validate : Bool} {g : Engine}
    (hg : engineOf ds validate = .ok g) : ∀ n ∈ g.kb.nodes, n.Finite := by
  obtain ⟨ns, ⟨hread, -⟩, rfl⟩ := engineOf_eq_ok_iff.1 hg
  refine Engine.finite_ofEntries (fun n hn => ?_) {}
  obtain ⟨d, hd, hdn⟩ := exists_of_mem_mapM hread n hn
  exact Node.finite_ofData (h d hd) hdn

theorem finite_chained {g : Engine} (h : ∀ n ∈ g.kb.nodes, n.Finite) {bound : Nat}
    {s : Saturation} (hs : (g.forward bound).2 = .ok s) :
    (Data.list (s.derived.map Node.toData)).Finite ∧
      (Data.list ((g.forward bound).1.contradictions.map contradictionData)).Finite := by
  obtain ⟨hnodes, hderived⟩ := Engine.finite_forward h bound
  exact ⟨.list (List.forall_mem_map.2 fun n hn => (hderived s hs n hn).toData),
    .list (List.forall_mem_map.2 (Engine.finite_contradictions hnodes))⟩

theorem finite_reason {ds : List Data} (h : ∀ d ∈ ds, d.Finite) {bound : Option Int}
    {validate : Bool} {d : Data} (hd : reason ds bound validate = .ok d) : d.Finite := by
  simp only [reason, Engine.forwardDefault] at hd
  obtain ⟨g, hg, hd⟩ := bind_eq_ok_iff.1 hd
  cases bound <;>
  · obtain ⟨s, hs, hd⟩ := bind_eq_ok_iff.1 hd
    cases hd
    obtain ⟨hderived, hfound⟩ := finite_chained (finite_engineOf h hg) hs
    exact .obj (by simp [Data.Finite.bool, Data.nat, Data.Finite.int, hderived, hfound])

theorem finite_prove {ds : List Data} (h : ∀ d ∈ ds, d.Finite) {goal : Data} (hgoal : goal.Finite)
    {validate : Bool} {d : Data} (hd : prove ds goal validate = .ok d) : d.Finite := by
  obtain ⟨g, hg, hd⟩ := bind_eq_ok_iff.1 hd
  obtain ⟨n, hn, hd⟩ := bind_eq_ok_iff.1 hd
  obtain ⟨v, hv, hd⟩ := bind_eq_ok_iff.1 hd
  cases hd
  exact Engine.finite_prove (finite_engineOf h hg) (Node.finite_ofData hgoal hn) hv

theorem finite_unify {a b d : Data} (hd : unify a b = .ok d) : d.Finite := by
  rw [unify_eq] at hd
  obtain ⟨m, -, hd⟩ := bind_eq_ok_iff.1 hd
  obtain ⟨n, -, hd⟩ := bind_eq_ok_iff.1 hd
  cases hd
  unfold unifierOn
  split <;> exact .obj (by simp [Data.Finite.bool, Data.Finite.null, Proof.finite_substitutionData])

theorem finite_reportOn {given : List Statement} (h : ∀ s ∈ given, s.Finite) {doc : Document}
    (hdoc : doc.Finite) (types : Bool) : (reportOn given doc types).Finite := by
  have hlearned := (hdoc.apply (Ontology.finite_ofSettings {})).learn
    (doc.axioms ++ given.map Axiom.ofStatement)
  unfold reportOn
  rcases hlearn : (doc.apply (Ontology.ofSettings {})).learn
    (doc.axioms ++ given.map Axiom.ofStatement) with ⟨o, closure⟩
  rw [hlearn] at hlearned
  have hfound := hlearned.reports h types
  have hclosure : (Data.obj [("iterations", .nat closure.passes),
      ("converged", .bool closure.converged)]).Finite :=
    .obj (by simp [Data.Finite.bool, Data.nat, Data.Finite.int])
  refine .obj ?_
  simp only [List.forall_mem_cons]
  exact ⟨hfound, hclosure, o.finite_statistics, List.forall_mem_nil _⟩

theorem finite_conflicts {statements : List Data} (h : ∀ d ∈ statements, d.Finite)
    {ontology : Option Data} (hontology : ∀ d, ontology = some d → d.Finite) {types : Bool}
    {d : Data} (hd : conflicts statements ontology types = .ok d) : d.Finite := by
  rw [conflicts_eq] at hd
  obtain ⟨given, hgiven, hd⟩ := bind_eq_ok_iff.1 hd
  obtain ⟨doc, hdoc, hd⟩ := bind_eq_ok_iff.1 hd
  obtain ⟨_, -, hd⟩ := bind_eq_ok_iff.1 hd
  obtain ⟨_, -, hd⟩ := bind_eq_ok_iff.1 hd
  cases hd
  have hread : ∀ s ∈ given, s.Finite := by
    intro s hs
    rw [named_eq_ok_iff, readEach_eq_ok_iff] at hgiven
    obtain ⟨x, hx, hxs⟩ := exists_of_mem_mapM hgiven s hs
    exact Statement.finite_ofData (h x hx) hxs
  refine finite_reportOn hread ?_ types
  rcases documentOf_cases ontology with ⟨hempty, -⟩ | ⟨e, he, -, hsame⟩
  · cases hempty.symm.trans hdoc
    exact Document.finite_empty
  · exact Document.finite_ofData (hontology e he) (hsame.symm.trans hdoc)

/-- What answers a finite request is finite. -/
theorem Request.Finite.result {r : Request} (h : r.Finite) {d : Data} (hd : r.result = .ok d) :
    d.Finite := by
  cases r with
  | reason nodes bound validate => exact finite_reason h hd
  | prove nodes goal validate => exact finite_prove h.1 h.2 hd
  | unify a b => exact finite_unify hd
  | conflicts statements ontology types => exact finite_conflicts h.1 h.2 hd

/-- The answer to a finite request can be sent. -/
theorem Request.Finite.not_unsendable {r : Request} (h : r.Finite) : ¬ r.Unsendable := by
  rintro ⟨d, hd, hnone⟩
  obtain ⟨e, he⟩ := r.dress.exists_apply? (h.result hd)
  rw [he] at hnone
  cases hnone

/-! ## Statuses of answers -/

/-- Statements with an ontology that has a number where pairs of classes are
wanted. -/
def numberedOntology : Data :=
  .obj [("statements", .list []), ("ontology", .obj [("disjoint", .int 5)])]

/-- What the body asks for. -/
def numberedRequest : Request :=
  .conflicts [] (some (.obj [("disjoint", .int 5)])) false

end TripleLogic.Server
