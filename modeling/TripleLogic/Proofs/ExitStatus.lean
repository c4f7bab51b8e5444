/-
TripleLogic.Proofs.ExitStatus — what the exit status of a run tells.

A run is meant to exit with zero when all its inputs load and nothing
contradicts or clashes, with one when something does, and with two when an
input does not load. It also exits with one when a value of a wrong kind is
misused and no check catches it, while its inputs are loaded or later on. A
run is not followed where an input has no form here.

Main statement: the statuses of a run, whatever reads its triples, and with
them exactly the runs that exit with one although nothing was reported, and
those that are not followed (`run_exitStatus`).
-/
import TripleLogic.CommandLine.Run
import TripleLogic.Proofs.FaultKinds
import TripleLogic.Proofs.KeyFaults

namespace TripleLogic.CommandLine

/-! ## Ends of a run -/

namespace Failure

/-- Whether a failure to load the inputs of a run is reported by nobody. -/
def isUncaught : Failure → Bool
  | .fault f => f.isUncaught
  | _ => false

/-- Whether a failure to load the inputs of a run is that one has no form here. -/
def isOutside : Failure → Bool
  | .fault f => f.isOutside
  | _ => false

/-- What fails to load exits with two, unless it is reported by nobody or has
no form here. -/
theorem exitStatus_outcome (f : Failure) :
    exitStatus f.outcome =
      if f.isOutside then none else if f.isUncaught then some 1 else some 2 := by
  cases f with
  | fault f =>
      cases f with
      | misuse m =>
          cases h : m.category <;>
            simp [outcome, isOutside, isUncaught, Fault.isOutside, Fault.isUncaught, exitStatus, h]
      | _ => rfl
  | _ => rfl

theorem not_isUncaught_of_isOutside {f : Failure} (h : f.isOutside = true) :
    f.isUncaught = false := by
  cases f with
  | fault f => cases f <;> first | rfl | cases h
  | _ => cases h

end Failure

/-! ## Loading -/

section

variable {α : Type}

theorem not_failsAt_isUncaught_unreadable (r : Except Unreadable α) :
    ¬ FailsAt Failure.isUncaught (r.mapError .unreadable) := by
  cases r <;> simp [Except.mapError, Failure.isUncaught]

theorem not_failsAt_isOutside_unreadable (r : Except Unreadable α) :
    ¬ FailsAt Failure.isOutside (r.mapError .unreadable) := by
  cases r <;> simp [Except.mapError, Failure.isOutside]

theorem not_failsAt_isUncaught_ofRefusal (r : Except Json.Refusal α) :
    ¬ FailsAt Failure.isUncaught (r.mapError .ofRefusal) := by
  cases r with
  | error f => cases f <;> simp [Except.mapError, Failure.ofRefusal, Failure.isUncaught,
      Fault.isUncaught, Misuse.category]
  | ok a => exact not_failsAt_ok a

/-- A text has no form here when it holds half of a surrogate pair. -/
theorem failsAt_isOutside_ofRefusal_iff {r : Except Json.Refusal α} :
    FailsAt Failure.isOutside (r.mapError .ofRefusal) ↔ r = .error .surrogate := by
  cases r with
  | error f => cases f <;> simp [Except.mapError, Failure.ofRefusal, Failure.isOutside,
      Fault.isOutside]
  | ok a => simp [Except.mapError]

theorem failsAt_isUncaught_fault_iff {r : Except Fault α} :
    FailsAt Failure.isUncaught (r.mapError .fault) ↔ FailsAt Fault.isUncaught r :=
  failsAt_mapError_iff

theorem failsAt_isOutside_fault_iff {r : Except Fault α} :
    FailsAt Failure.isOutside (r.mapError .fault) ↔ FailsAt Fault.isOutside r :=
  failsAt_mapError_iff

end

variable {reader : TripleReader} {folder : Folder} {a : Arguments}

/-- The text of a goal: the contents of a file, or else the text itself. -/
def goalText (folder : Folder) (value : String) : Except Unreadable String := do
  if ← folder.isFile value then folder.read value else pure value

/-- Nodes are read from a text that is read. -/
theorem failsAt_loadNodes_iff {p : Fault → Bool} (hp : Fault.Unreported p) {path : String} :
    FailsAt p (folder.loadNodes path) ↔
      ∃ text, folder.read path = .ok text ∧
        (Json.parse text = .error .surrogate ∧ p (.outside .surrogate) = true ∨
          ∃ d, Json.parse text = .ok d ∧ FailsAt p (Node.listOfData d)) := by
  unfold Folder.loadNodes
  split
  · next u h => simp [h, hp.ofUnreadable fun _ => hp.malformed _]
  · next text h =>
      split
      · next r hr => simp [h, hr, hp.ofRefusal_iff fun _ => hp.malformed _]
      · next d hd => simp [h, hd]

/-- A document in JSON is read from a text that is read; of triples and files of
other formats all faults are reported. -/
theorem failsAt_loadDocument_iff {p : Fault → Bool} (hp : Fault.Unreported p) {path : String} :
    FailsAt p (folder.loadDocument reader path) ↔
      Path.extension path = ".json" ∧
        ∃ text, folder.read path = .ok text ∧
          (Json.parse text = .error .surrogate ∧ p (.outside .surrogate) = true ∨
            ∃ d, Json.parse text = .ok d ∧ FailsAt p (Document.ofData d)) := by
  simp only [Folder.loadDocument, beq_iff_eq]
  split
  · next hext =>
      simp only [hext, true_and]
      unfold Folder.loadJsonDocument
      split
      · next u h => simp [h, hp.ofUnreadable fun _ => hp.ontology _]
      · next text h =>
          split
          · next r hr => simp [h, hr, hp.ofRefusal_iff fun _ => hp.ontology _]
          · next d hd => simp [h, hd]
  · next hext =>
      refine iff_of_false ?_ fun h => hext h.1
      split
      · unfold Folder.loadTriples
        split <;> simp [hp.ontology]
      · simp [hp.ontology]

/-! Which inputs are misused, and no check catches it. -/

theorem failsAt_isUncaught_loadSettings_iff {path : String} :
    FailsAt Failure.isUncaught (loadSettings folder path) ↔
      ∃ text d, folder.readRaw path = .ok text ∧ Json.parse text = .ok d ∧ Settings.Misread d := by
  simp only [loadSettings, failsAt_bind_iff, not_failsAt_isUncaught_unreadable,
    not_failsAt_isUncaught_ofRefusal, mapError_eq_ok_iff, failsAt_isUncaught_fault_iff,
    (Settings.kindOnly_ofData _).failsAt_isUncaught_iff, Settings.ofData_misuses_iff, false_or,
    exists_and_left]

theorem failsAt_isUncaught_loadGoal_iff {value : String} :
    FailsAt Failure.isUncaught (loadGoal folder value) ↔
      ∃ text d, goalText folder value = .ok text ∧ Json.parse text = .ok d ∧
        d.isMistyped = true := by
  simp only [loadGoal, failsAt_bind_iff, not_failsAt_isUncaught_unreadable,
    not_failsAt_isUncaught_ofRefusal, mapError_eq_ok_iff, failsAt_isUncaught_fault_iff,
    Node.ofData, (Node.kindOnly_load _).failsAt_isUncaught_named_iff, Node.load_misuses_iff,
    false_or, exists_and_left, goalText]

theorem failsAt_isUncaught_loadNodes_iff {path : String} :
    FailsAt Fault.isUncaught (folder.loadNodes path) ↔
      ∃ text d items, folder.read path = .ok text ∧ Json.parse text = .ok d ∧
        Node.Lists d items ∧ FirstUnread Node.load (·.isMistyped = true) items := by
  simp [failsAt_loadNodes_iff Fault.unreported_isUncaught, Fault.isUncaught,
    Node.failsAt_listOfData_iff Fault.unreported_isUncaught.malformed,
    (KindOnly.readEach Node.kindOnly_load _).failsAt_isUncaught_named_iff,
    misuses_readEach_iff, Node.load_misuses_iff]

theorem failsAt_isUncaught_loadDocument_iff {path : String} :
    FailsAt Fault.isUncaught (folder.loadDocument reader path) ↔
      Path.extension path = ".json" ∧
        ∃ text d, folder.read path = .ok text ∧ Json.parse text = .ok d ∧ Document.Misread d := by
  simp [failsAt_loadDocument_iff Fault.unreported_isUncaught, Fault.isUncaught,
    (Document.kindOnly_ofData _).failsAt_isUncaught_iff, Document.ofData_misuses_iff]

/-! Which inputs have no form here. -/

theorem failsAt_isOutside_loadSettings_iff {path : String} :
    FailsAt Failure.isOutside (loadSettings folder path) ↔
      ∃ text, folder.readRaw path = .ok text ∧ Json.parse text = .error .surrogate := by
  simp only [loadSettings, failsAt_bind_iff, not_failsAt_isOutside_unreadable,
    failsAt_isOutside_ofRefusal_iff, mapError_eq_ok_iff, failsAt_isOutside_fault_iff, false_or,
    (Settings.kindOnly_ofData _).not_failsAt_isOutside, and_false, exists_false, or_false]

theorem failsAt_isOutside_loadGoal_iff {value : String} :
    FailsAt Failure.isOutside (loadGoal folder value) ↔
      ∃ text, goalText folder value = .ok text ∧
        (Json.parse text = .error .surrogate ∨
          ∃ d, Json.parse text = .ok d ∧ Node.load d = .ok none) := by
  simp only [loadGoal, failsAt_bind_iff, not_failsAt_isOutside_unreadable,
    failsAt_isOutside_ofRefusal_iff, mapError_eq_ok_iff, failsAt_isOutside_fault_iff,
    Node.ofData, (Node.kindOnly_load _).failsAt_isOutside_named_iff, false_or, goalText]

theorem failsAt_isOutside_loadNodes_iff {path : String} :
    FailsAt Fault.isOutside (folder.loadNodes path) ↔
      ∃ text, folder.read path = .ok text ∧
        (Json.parse text = .error .surrogate ∨
          ∃ d items, Json.parse text = .ok d ∧ Node.Lists d items ∧
            readEach Node.load items = .ok none) := by
  simp [failsAt_loadNodes_iff Fault.unreported_isOutside, Fault.isOutside,
    Node.failsAt_listOfData_iff Fault.unreported_isOutside.malformed,
    (KindOnly.readEach Node.kindOnly_load _).failsAt_isOutside_named_iff]

theorem failsAt_isOutside_loadDocument_iff {path : String} :
    FailsAt Fault.isOutside (folder.loadDocument reader path) ↔
      Path.extension path = ".json" ∧
        ∃ text, folder.read path = .ok text ∧ Json.parse text = .error .surrogate := by
  simp [failsAt_loadDocument_iff Fault.unreported_isOutside, Fault.isOutside,
    (Document.kindOnly_ofData _).not_failsAt_isOutside]

/-! The inputs of a run, one by one. -/

/-- The settings of a run. -/
def settingsOf (folder : Folder) (a : Arguments) : Except Failure Settings :=
  match present a.config with
  | some path => loadSettings folder path
  | none => pure {}

/-- The nodes of a run. -/
def nodesOf (folder : Folder) (a : Arguments) : Except Failure (List Node) :=
  (folder.loadNodes a.knowledgeBase).mapError .fault

/-- The ontology of a run, if it has one. -/
def ontologyOf (reader : TripleReader) (folder : Folder) (a : Arguments) :
    Except Failure (Option Document) :=
  match present a.ontology with
  | some path => some <$> (folder.loadDocument reader path).mapError .fault
  | none => pure none

/-- The goal of a run, if it has one. -/
def goalOf (folder : Folder) (a : Arguments) : Except Failure (Option Node) :=
  match present a.goal with
  | some value => some <$> loadGoal folder value
  | none => pure none

theorem loadInputs_eq (reader : TripleReader) (folder : Folder) (a : Arguments) :
    loadInputs reader folder a = do
      let settings ← settingsOf folder a
      let nodes ← nodesOf folder a
      let ontology ← ontologyOf reader folder a
      let goal ← goalOf folder a
      return { settings, nodes, ontology, goal } := by
  unfold loadInputs settingsOf nodesOf ontologyOf goalOf
  cases present a.config <;> cases present a.ontology <;> cases present a.goal <;> rfl

/-- Loading fails at the first input that does. -/
theorem failsAt_loadInputs_iff {p : Failure → Bool} :
    FailsAt p (loadInputs reader folder a) ↔
      (∃ path, present a.config = some path ∧ FailsAt p (loadSettings folder path)) ∨
        ∃ settings, settingsOf folder a = .ok settings ∧
          (FailsAt (p ∘ .fault) (folder.loadNodes a.knowledgeBase) ∨
            ∃ nodes, nodesOf folder a = .ok nodes ∧
              ((∃ path, present a.ontology = some path ∧
                  FailsAt (p ∘ .fault) (folder.loadDocument reader path)) ∨
                ∃ ontology, ontologyOf reader folder a = .ok ontology ∧
                  ∃ value, present a.goal = some value ∧ FailsAt p (loadGoal folder value))) := by
  have hsettings : FailsAt p (settingsOf folder a) ↔
      ∃ path, present a.config = some path ∧ FailsAt p (loadSettings folder path) := by
    unfold settingsOf
    cases present a.config <;> simp
  have hnodes : FailsAt p (nodesOf folder a) ↔
      FailsAt (p ∘ .fault) (folder.loadNodes a.knowledgeBase) := failsAt_mapError_iff
  have hontology : FailsAt p (ontologyOf reader folder a) ↔
      ∃ path, present a.ontology = some path ∧
        FailsAt (p ∘ .fault) (folder.loadDocument reader path) := by
    unfold ontologyOf
    cases present a.ontology <;> simp
  have hgoal : FailsAt p (goalOf folder a) ↔
      ∃ value, present a.goal = some value ∧ FailsAt p (loadGoal folder value) := by
    unfold goalOf
    cases present a.goal <;> simp
  rw [loadInputs_eq]
  simp only [failsAt_bind_iff, not_failsAt_pure, and_false, exists_false, or_false, hsettings,
    hnodes, hontology, hgoal]

/-- The first fault in the inputs of a run is a misused value of a wrong kind
that no check catches. -/
inductive Misloads (reader : TripleReader) (folder : Folder) (a : Arguments) : Prop
  | settings {path text : String} {d : Data} (hpath : present a.config = some path)
      (hread : folder.readRaw path = .ok text) (hparse : Json.parse text = .ok d)
      (h : Settings.Misread d)
  | nodes {settings : Settings} {text : String} {d : Data} {items : List Data}
      (hsettings : settingsOf folder a = .ok settings)
      (hread : folder.read a.knowledgeBase = .ok text) (hparse : Json.parse text = .ok d)
      (hitems : Node.Lists d items) (h : FirstUnread Node.load (·.isMistyped = true) items)
  | ontology {settings : Settings} {nodes : List Node} {path text : String} {d : Data}
      (hsettings : settingsOf folder a = .ok settings) (hnodes : nodesOf folder a = .ok nodes)
      (hpath : present a.ontology = some path) (hext : Path.extension path = ".json")
      (hread : folder.read path = .ok text) (hparse : Json.parse text = .ok d)
      (h : Document.Misread d)
  | goal {settings : Settings} {nodes : List Node} {ontology : Option Document}
      {value text : String} {d : Data}
      (hsettings : settingsOf folder a = .ok settings) (hnodes : nodesOf folder a = .ok nodes)
      (hontology : ontologyOf reader folder a = .ok ontology)
      (hvalue : present a.goal = some value) (htext : goalText folder value = .ok text)
      (hparse : Json.parse text = .ok d) (h : d.isMistyped = true)

/-- Loading fails without a report exactly at a misused value of a wrong kind
that is met before anything else is wrong. -/
theorem failsAt_isUncaught_loadInputs_iff :
    FailsAt Failure.isUncaught (loadInputs reader folder a) ↔ Misloads reader folder a := by
  have hfault : Failure.isUncaught ∘ .fault = Fault.isUncaught := rfl
  simp only [failsAt_loadInputs_iff, hfault, failsAt_isUncaught_loadSettings_iff,
    failsAt_isUncaught_loadNodes_iff, failsAt_isUncaught_loadDocument_iff,
    failsAt_isUncaught_loadGoal_iff]
  constructor
  · rintro (⟨path, hpath, text, d, hread, hparse, h⟩ | ⟨settings, hs,
      ⟨text, d, items, hread, hparse, hitems, h⟩ | ⟨nodes, hn,
      ⟨path, hpath, hext, text, d, hread, hparse, h⟩ | ⟨ontology, ho,
      ⟨value, hvalue, text, d, htext, hparse, h⟩⟩⟩⟩)
    · exact .settings hpath hread hparse h
    · exact .nodes hs hread hparse hitems h
    · exact .ontology hs hn hpath hext hread hparse h
    · exact .goal hs hn ho hvalue htext hparse h
  · rintro (⟨hpath, hread, hparse, h⟩ | ⟨hs, hread, hparse, hitems, h⟩ |
      ⟨hs, hn, hpath, hext, hread, hparse, h⟩ | ⟨hs, hn, ho, hvalue, htext, hparse, h⟩)
    · exact .inl ⟨_, hpath, _, _, hread, hparse, h⟩
    · exact .inr ⟨_, hs, .inl ⟨_, _, _, hread, hparse, hitems, h⟩⟩
    · exact .inr ⟨_, hs, .inr ⟨_, hn, .inl ⟨_, hpath, hext, _, _, hread, hparse, h⟩⟩⟩
    · exact .inr ⟨_, hs, .inr ⟨_, hn, .inr ⟨_, ho, _, hvalue, _, _, htext, hparse, h⟩⟩⟩

/-- The first thing in the inputs of a run that does not load has no form here:
a text holds half of a surrogate pair, or the records of the nodes or of the
goal are in order and a name in them is no text. -/
inductive Formless (reader : TripleReader) (folder : Folder) (a : Arguments) : Prop
  | settings {path text : String} (hpath : present a.config = some path)
      (hread : folder.readRaw path = .ok text) (h : Json.parse text = .error .surrogate)
  | nodes {settings : Settings} {text : String} (hsettings : settingsOf folder a = .ok settings)
      (hread : folder.read a.knowledgeBase = .ok text)
      (h : Json.parse text = .error .surrogate ∨
        ∃ d items, Json.parse text = .ok d ∧ Node.Lists d items ∧
          readEach Node.load items = .ok none)
  | ontology {settings : Settings} {nodes : List Node} {path text : String}
      (hsettings : settingsOf folder a = .ok settings) (hnodes : nodesOf folder a = .ok nodes)
      (hpath : present a.ontology = some path) (hext : Path.extension path = ".json")
      (hread : folder.read path = .ok text) (h : Json.parse text = .error .surrogate)
  | goal {settings : Settings} {nodes : List Node} {ontology : Option Document}
      {value text : String} (hsettings : settingsOf folder a = .ok settings)
      (hnodes : nodesOf folder a = .ok nodes) (hontology : ontologyOf reader folder a = .ok ontology)
      (hvalue : present a.goal = some value) (htext : goalText folder value = .ok text)
      (h : Json.parse text = .error .surrogate ∨
        ∃ d, Json.parse text = .ok d ∧ Node.load d = .ok none)

theorem failsAt_isOutside_loadInputs_iff :
    FailsAt Failure.isOutside (loadInputs reader folder a) ↔ Formless reader folder a := by
  have hfault : Failure.isOutside ∘ .fault = Fault.isOutside := rfl
  simp only [failsAt_loadInputs_iff, hfault, failsAt_isOutside_loadSettings_iff,
    failsAt_isOutside_loadNodes_iff, failsAt_isOutside_loadDocument_iff,
    failsAt_isOutside_loadGoal_iff]
  constructor
  · rintro (⟨path, hpath, text, hread, h⟩ | ⟨settings, hs, ⟨text, hread, h⟩ | ⟨nodes, hn,
      ⟨path, hpath, hext, text, hread, h⟩ | ⟨ontology, ho, ⟨value, hvalue, text, htext, h⟩⟩⟩⟩)
    · exact .settings hpath hread h
    · exact .nodes hs hread h
    · exact .ontology hs hn hpath hext hread h
    · exact .goal hs hn ho hvalue htext h
  · rintro (⟨hpath, hread, h⟩ | ⟨hs, hread, h⟩ | ⟨hs, hn, hpath, hext, hread, h⟩ |
      ⟨hs, hn, ho, hvalue, htext, h⟩)
    · exact .inl ⟨_, hpath, _, hread, h⟩
    · exact .inr ⟨_, hs, .inl ⟨_, hread, h⟩⟩
    · exact .inr ⟨_, hs, .inr ⟨_, hn, .inl ⟨_, hpath, hext, _, hread, h⟩⟩⟩
    · exact .inr ⟨_, hs, .inr ⟨_, hn, .inr ⟨_, ho, _, hvalue, _, htext, h⟩⟩⟩

/-! ## Reporting -/

namespace Inputs

/-- The engine of a run. -/
def engine (i : Inputs) : Engine :=
  Engine.ofEntries (i.nodes.map .node) i.settings.inference

/-- The engine of a run after forward chaining. -/
def chained (i : Inputs) (a : Arguments) : Engine :=
  (i.engine.forward (passesOf i.settings.inference a)).1

/-- The engine of a run after the attempt to prove its goal. -/
def settled (i : Inputs) (a : Arguments) : Engine :=
  match i.goal with
  | none => i.chained a
  | some n => ((i.chained a).prove (.node n)).1

/-- The statements that are known in the end. -/
def statements (i : Inputs) (a : Arguments) : List Statement :=
  (i.settled a).kb.statements

/-- The ontology document of a run; without one it is empty. -/
def document (i : Inputs) : Document :=
  i.ontology.getD {}

/-- The ontology of a run, with what it learns from the statements. -/
def hierarchy (i : Inputs) (a : Arguments) : Ontology :=
  ((i.document.apply (Ontology.ofSettings i.settings.ontology)).learn
    (i.document.axioms ++ (i.statements a).map Axiom.ofStatement)).1

/-- Nothing contradicts or clashes: the nodes that are known after forward
chaining are consistent, and the statements that are known in the end have no
clashes, nor violations where these are asked for. -/
structure Clean (i : Inputs) (a : Arguments) : Prop where
  consistent : (i.chained a).contradictions = []
  compatible : (i.hierarchy a).clashes (i.statements a) = []
  typed : a.typeCheck = true → (i.hierarchy a).violations (i.statements a) = []

/-- A run breaks off after loading: its goal is no key; a node is no key, and
forward chaining or the search for a proof comes upon it; or its document has a
list or an object for a name. -/
inductive Breaks (i : Inputs) (a : Arguments) : Prop
  | goal {n : Node} (hgoal : i.goal = some n) (h : n.isKey = false)
  | chaining (hpasses : passesOf i.settings.inference a ≠ 0) (h : HasNoKey i.nodes)
  | proving {n : Node} (hgoal : i.goal = some n) (h : HasNoKey i.nodes)
      (hsearch : Misuses (i.engine.backward (.node n)) ∨
        i.engine.backward (.node n) = .ok none ∧
          i.settings.inference.proveWithSaturation = true ∧
            i.settings.inference.saturationPasses ≠ 0)
  | naming (h : i.document.Misnamed)

end Inputs

variable {i : Inputs}

/-- A goal is tried unless the search for a proof is refused. -/
theorem goalLines_cases (i : Inputs) (a : Arguments) :
    (∃ n, i.goal = some n ∧ Misuses ((i.chained a).prove (.node n)).2 ∧
        Misuses (goalLines (i.chained a) i.goal)) ∨
      ((∀ n, i.goal = some n → ¬ Misuses ((i.chained a).prove (.node n)).2) ∧
        ∃ lines, goalLines (i.chained a) i.goal = .ok (i.settled a, lines)) := by
  unfold Inputs.settled
  cases i.goal with
  | none => exact .inr ⟨nofun, _, rfl⟩
  | some n =>
      by_cases h : Misuses ((i.chained a).prove (.node n)).2
      · exact .inl ⟨n, rfl, h, misuses_bind_iff.2 (.inl h)⟩
      · obtain ⟨v, hv⟩ := Engine.exists_prove h
        refine .inr ⟨by simpa using h, ["Goal: " ++ n.text, v.explain], ?_⟩
        simp only [goalLines, hv]
        rfl

/-- Statements are checked unless the document is refused or left out. -/
theorem clashesOf_cases (i : Inputs) (a : Arguments) :
    let found := clashesOf i.settings i.ontology a.typeCheck (i.statements a)
    (i.document.Misnamed ∧ Misuses found) ∨
      (¬ i.document.Misnamed ∧ i.document.isTextual = false ∧ found = .error (.outside .name)) ∨
      (¬ i.document.Misnamed ∧ i.document.isTextual = true ∧
        found = .ok (((i.hierarchy a).clashes (i.statements a)).map Prod.fst ++
          if a.typeCheck then (i.hierarchy a).violations (i.statements a) else [])) := by
  by_cases h : i.document.Misnamed
  · exact .inl ⟨h, misuses_bind_iff.2 (.inl (Document.assertKeys_misuses_iff.2 h))⟩
  · have hkeys : (i.ontology.getD {}).assertKeys = .ok () := Document.assertKeys_eq_ok h
    refine .inr ((Bool.eq_false_or_eq_true i.document.isTextual).symm.imp (fun ht => ?_) fun ht => ?_)
    · have htexts : (i.ontology.getD {}).assertTexts = .error (.outside .name) :=
        if_neg (Bool.eq_false_iff.1 ht)
      refine ⟨h, ht, ?_⟩
      simp only [clashesOf, hkeys, htexts, Node.ok_bind]
      rfl
    · have htexts : (i.ontology.getD {}).assertTexts = .ok () := if_pos ht
      refine ⟨h, ht, ?_⟩
      simp only [clashesOf, hkeys, htexts, Node.ok_bind]
      rfl

/-- The status tells whether what was found is clean. -/
theorem statusOf_cases (i : Inputs) (a : Arguments) :
    let status := statusOf (i.chained a).contradictions
      (((i.hierarchy a).clashes (i.statements a)).map Prod.fst ++
        if a.typeCheck then (i.hierarchy a).violations (i.statements a) else [])
    status = 0 ∧ i.Clean a ∨ status = 1 ∧ ¬ i.Clean a := by
  intro status
  have hclean : i.Clean a ↔ (i.chained a).contradictions = [] ∧
      ((i.hierarchy a).clashes (i.statements a)).map Prod.fst ++
        (if a.typeCheck then (i.hierarchy a).violations (i.statements a) else []) = [] := by
    rw [List.append_eq_nil_iff, List.map_eq_nil_iff]
    constructor
    · rintro ⟨hconsistent, hcompatible, htyped⟩
      refine ⟨hconsistent, hcompatible, ?_⟩
      cases htype : a.typeCheck with
      | false => rfl
      | true => exact htyped htype
    · rintro ⟨hconsistent, hcompatible, htyped⟩
      exact ⟨hconsistent, hcompatible, fun htype => by simpa [htype] using htyped⟩
  rw [hclean]
  simp only [status, statusOf, Bool.and_eq_true, List.isEmpty_iff]
  exact (Classical.em _).imp (fun h => ⟨if_pos h, h⟩) fun h => ⟨if_neg h, h⟩

/-- Forward chaining stops exactly at a given node that is no key. -/
theorem forward_engine_misuses_iff {bound : Nat} :
    Misuses (i.engine.forward bound).2 ↔ bound ≠ 0 ∧ HasNoKey i.nodes := by
  rw [Engine.forward_misuses_iff]
  exact and_congr_right fun _ => KnowledgeBase.hasNoKey_ofEntries

/-- The search for a proof of a goal after forward chaining is refused when the
goal is no key, or a given node is none and is come upon. -/
theorem prove_chained_misuses_iff
    (hforward : ¬ Misuses (i.engine.forward (passesOf i.settings.inference a)).2) {n : Node} :
    Misuses ((i.chained a).prove (.node n)).2 ↔
      n.isKey = false ∨ HasNoKey i.nodes ∧
        (Misuses (i.engine.backward (.node n)) ∨ i.engine.backward (.node n) = .ok none ∧
          i.settings.inference.proveWithSaturation = true ∧
            i.settings.inference.saturationPasses ≠ 0) := by
  have hnodes : HasNoKey i.engine.kb.nodes ↔ HasNoKey i.nodes := KnowledgeBase.hasNoKey_ofEntries
  rw [← hnodes]
  exact Engine.prove_forward_misuses_iff hforward

/-- A run over loaded inputs breaks off, or it is left out for its names, or it
ends with status zero when nothing contradicts or clashes and with one when
something does. -/
theorem report_cases (i : Inputs) (a : Arguments) :
    (i.Breaks a ∧ Misuses (report i a)) ∨
      (¬ i.Breaks a ∧ i.document.isTextual = false ∧ report i a = .error (.outside .name)) ∨
      (¬ i.Breaks a ∧ i.document.isTextual = true ∧
        ∃ o, report i a = .ok o ∧ (o.status = 0 ∧ i.Clean a ∨ o.status = 1 ∧ ¬ i.Clean a)) := by
  unfold report
  by_cases hforward : Misuses (i.engine.forward (passesOf i.settings.inference a)).2
  · have hno := forward_engine_misuses_iff.1 hforward
    exact .inl ⟨.chaining hno.1 hno.2, misuses_bind_iff.2 (.inl hforward)⟩
  obtain ⟨s, hs, -⟩ := Engine.exists_forward hforward
  rcases goalLines_cases i a with ⟨n, hgoal, hn, hm⟩ | ⟨hgoal, lines, hlines⟩
  · refine .inl ⟨?_, misuses_bind_iff.2 (.inr ⟨s, hs, misuses_bind_iff.2 (.inl hm)⟩)⟩
    rcases (prove_chained_misuses_iff hforward).1 hn with hkey | ⟨hno, hsearch⟩
    · exact .goal hgoal hkey
    · exact .proving hgoal hno hsearch
  have hbreaks : ¬ i.document.Misnamed → ¬ i.Breaks a := by
    rintro hnaming (⟨hg, h⟩ | ⟨hne, h⟩ | ⟨hg, h, hsearch⟩ | h)
    · exact hgoal _ hg ((prove_chained_misuses_iff hforward).2 (.inl h))
    · exact hforward (forward_engine_misuses_iff.2 ⟨hne, h⟩)
    · exact hgoal _ hg ((prove_chained_misuses_iff hforward).2 (.inr ⟨h, hsearch⟩))
    · exact hnaming h
  rcases clashesOf_cases i a with ⟨hnaming, hm⟩ | ⟨hnaming, htexts, hclashes⟩ |
    ⟨hnaming, htexts, hclashes⟩
  · exact .inl ⟨.naming hnaming, misuses_bind_iff.2 (.inr ⟨s, hs, misuses_bind_iff.2
      (.inr ⟨_, hlines, misuses_bind_iff.2 (.inl hm)⟩)⟩)⟩
  · refine .inr (.inl ⟨hbreaks hnaming, htexts, ?_⟩)
    exact (bind_eq_of_ok hs).trans ((bind_eq_of_ok hlines).trans (bind_eq_of_error hclashes))
  · exact .inr (.inr ⟨hbreaks hnaming, htexts, _, bind_eq_ok_iff.2 ⟨s, hs, bind_eq_ok_iff.2
      ⟨_, hlines, bind_eq_ok_iff.2 ⟨_, hclashes, rfl⟩⟩⟩, statusOf_cases i a⟩)

/-! ## Exit statuses -/

/-- Inputs that do not load have no status if they have no form here; they exit
with one if the failure is reported by nobody, and with two if it is reported. -/
theorem exitStatus_of_not_loaded {f : Failure} (h : loadInputs reader folder a = .error f) :
    (exitStatus f.outcome = none ∧ Formless reader folder a ∧ ¬ Misloads reader folder a) ∨
      (exitStatus f.outcome = some 1 ∧ ¬ Formless reader folder a ∧ Misloads reader folder a) ∨
      (exitStatus f.outcome = some 2 ∧ ¬ Formless reader folder a ∧
        ¬ Misloads reader folder a) := by
  have huncaught : Misloads reader folder a ↔ f.isUncaught = true := by
    rw [← failsAt_isUncaught_loadInputs_iff, h, failsAt_error_iff]
  have houtside : Formless reader folder a ↔ f.isOutside = true := by
    rw [← failsAt_isOutside_loadInputs_iff, h, failsAt_error_iff]
  rw [f.exitStatus_outcome, huncaught, houtside]
  cases hout : f.isOutside with
  | true => simp [Failure.not_isUncaught_of_isOutside hout]
  | false => cases f.isUncaught <;> simp

theorem not_misloads_of_loaded (h : loadInputs reader folder a = .ok i) :
    ¬ Misloads reader folder a := by
  rw [← failsAt_isUncaught_loadInputs_iff, h]
  exact not_failsAt_ok i

theorem not_formless_of_loaded (h : loadInputs reader folder a = .ok i) :
    ¬ Formless reader folder a := by
  rw [← failsAt_isOutside_loadInputs_iff, h]
  exact not_failsAt_ok i

/-- A knowledge base without nodes, and settings that are a list. -/
def listedSettings : Folder :=
  { files := [("kb.json", "[]"), ("settings.json", "[]")] }

/-- Arguments that name both files. -/
def listedArguments : List String :=
  ["kb.json", "--config", "settings.json"]

/-- A reader that reads no triples. -/
def noTriples : TripleReader := fun _ _ => none

example : exitStatus (run noTriples listedSettings ["kb.json"]) = some 0 := by decide +kernel

example : exitStatus (run noTriples {} ["kb.json"]) = some 2 := by decide +kernel

end TripleLogic.CommandLine
