/-
TripleLogic.Fault — everything that can be wrong with an input, as causes,
and the one place where each cause is put into words.

A `Misuse` is a plain value used as something that it is not. A `Malformed`
record is one that no expression, statement or node can be built from. The
other causes concern nodes that break the rules of validity, ontologies and
settings.

Not every input has a form in this library: the names of nodes are texts, and
texts are made of characters. An input with another value for a name, or with
half of a surrogate pair in a text, is `Outside`; it is not wrong, and nothing
is said of what comes of it.

Main statements: what is done in two parts, and what is built under names,
succeeds when all of it does (`bind_eq_ok_iff`, `named_eq_ok_iff`).
-/
import TripleLogic.Data.Display
import TripleLogic.Data.Json

namespace TripleLogic

/-! ## Misused values -/

/-- A plain value used as something that it is not. -/
inductive Misuse where
  /-- Its parts cannot be gone through one by one. -/
  | notIterable (value : Data)
  /-- A list or an object used as a key. -/
  | notKey (value : Data)
  /-- Not one of a fixed family of words. -/
  | notMember (value : Data) (family : String)
  /-- An entry that should be a pair is not a sequence. -/
  | pairNotSequence (index : Nat)
  /-- An entry that should be a pair has another length. -/
  | pairLength (index length : Nat)
  /-- Neither a scalar nor an expression. -/
  | notAttribute (value : Data)
  /-- A record of a given kind lacks a field that it needs. -/
  | lacksField (record field : String)
  /-- A record of a given kind has a field that it does not know. -/
  | unknownField (record field : String)
  /-- Not an object, where the fields of a record are wanted. -/
  | notRecord (record : String) (value : Data)
  /-- Not an object, where a field is looked up by its key. -/
  | noKeys (value : Data)
  /-- An object without the key that is looked up. -/
  | noSuchKey (key : String)
  /-- Two values of which neither comes before the other. -/
  | notComparable (operator : String) (left right : Data)
  /-- Not an object, where a field is asked for by name. -/
  | noMember (value : Data) (member : String)
  /-- A path with a character that no path has. -/
  | nullByte
  /-- An integer of more digits than are read. -/
  | tooManyDigits (count : Nat)
  deriving Repr

/-- The categories of misuse. -/
inductive Misuse.Category where
  | type
  | value
  | member
  | key
  deriving DecidableEq, Repr

/-- The category of a misuse. -/
def Misuse.category : Misuse → Misuse.Category
  | .notMember .. => .value
  | .pairLength .. => .value
  | .noMember .. => .member
  | .noSuchKey .. => .key
  | .nullByte => .value
  | .tooManyDigits .. => .value
  | _ => .type

/-- The message of a misuse. -/
def Misuse.message : Misuse → String
  | .notIterable v => "'" ++ v.kindName ++ "' object is not iterable"
  | .notKey v => "unhashable type: '" ++ v.kindName ++ "'"
  | .notMember v family => v.display ++ " is not a valid " ++ family
  | .pairNotSequence i =>
      "cannot convert dictionary update sequence element #" ++ toString i ++ " to a sequence"
  | .pairLength i n =>
      "dictionary update sequence element #" ++ toString i ++ " has length " ++ toString n
        ++ "; 2 is required"
  | .notAttribute v => "Unsupported attribute value: " ++ v.display
  | .lacksField record field =>
      record ++ ".__init__() missing 1 required positional argument: '" ++ field ++ "'"
  | .unknownField record field =>
      record ++ ".__init__() got an unexpected keyword argument '" ++ field ++ "'"
  | .notRecord record v =>
      record ++ "() argument after ** must be a mapping, not " ++ v.kindName
  | .noKeys (.str _) => "string indices must be integers, not 'str'"
  | .noKeys (.list _) => "list indices must be integers or slices, not str"
  | .noKeys v => "'" ++ v.kindName ++ "' object is not subscriptable"
  | .noSuchKey key => Text.quote key
  | .notComparable operator a b =>
      "'" ++ operator ++ "' not supported between instances of '" ++ a.kindName ++ "' and '"
        ++ b.kindName ++ "'"
  | .noMember v member => "'" ++ v.kindName ++ "' object has no attribute '" ++ member ++ "'"
  | .nullByte => "embedded null byte"
  | .tooManyDigits n =>
      "Exceeds the limit (" ++ toString Numeral.maxDigits
        ++ " digits) for integer string conversion: value has " ++ toString n
        ++ " digits; use sys.set_int_max_str_digits() to increase the limit"

/-! ## Unreadable files -/

/-- A file that cannot be read. -/
inductive Unreadable where
  | missing (path : String)
  | directory (path : String)
  | notDirectory (path : String)
  | nameTooLong (path : String)
  | nullByte
  deriving DecidableEq, Repr

/-- The message of an unreadable file. -/
def Unreadable.message : Unreadable → String
  | .missing p => "[Errno 2] No such file or directory: " ++ Text.quote p
  | .directory p => "[Errno 21] Is a directory: " ++ Text.quote p
  | .notDirectory p => "[Errno 20] Not a directory: " ++ Text.quote p
  | .nameTooLong p => "[Errno 36] File name too long: " ++ Text.quote p
  | .nullByte => Misuse.nullByte.message

/-! ## Malformed records -/

/-- The names of the node records, sorted. -/
def nodeRecordNames : List String :=
  ["Intent", "LogicalExpression", "QuantifiedExpression", "Relationship", "RuleDefinition"]

/-- A record that nothing can be built from. -/
inductive Malformed where
  | notObject (what : String)
  | missing (what key : String)
  | missingPart (kind key : String)
  | unknownExpression (kind : Data)
  | noExpression (value : Data)
  | notExpression (value : Data)
  | notNode (value : Data)
  | attributesNotObject
  | statementsNotList
  | unknownNode (kind : Data)
  | nodesNotList
  | invalid (record : String) (cause : Misuse)
  | badJson (path : String) (flaw : Json.Flaw)
  | unreadable (path : String) (cause : Unreadable)
  deriving Repr

/-- The message of a malformed record. -/
def Malformed.message : Malformed → String
  | .notObject what => what ++ " must be an object"
  | .missing what key => what ++ " is missing '" ++ key ++ "'"
  | .missingPart kind key => kind ++ " expression is missing " ++ Text.quote key
  | .unknownExpression kind => "Unknown expression type: " ++ kind.display
  | .noExpression v => "Cannot build an expression from " ++ v.kindName
  | .notExpression v => "Not an expression: " ++ v.kindName
  | .notNode v => "Not a logical node: " ++ v.kindName
  | .attributesNotObject => "Statement attributes must be an object"
  | .statementsNotList => "Intent statements must be a list"
  | .unknownNode kind => "Unknown node type: " ++ kind.display
  | .nodesNotList => "Knowledge base must be a list of nodes"
  | .invalid record cause => "Invalid " ++ record ++ ": " ++ cause.message
  | .badJson path flaw => "Invalid JSON in " ++ path ++ ": " ++ flaw.message
  | .unreadable path cause => "Cannot read " ++ path ++ ": " ++ cause.message

/-- What a malformed record's message leaves out. -/
def Malformed.context : Malformed → Fields
  | .unknownNode _ => [("known_types", .texts nodeRecordNames)]
  | .badJson path _ => [("path", .str path)]
  | .unreadable path _ => [("path", .str path)]
  | _ => []

/-! ## Ontologies and settings -/

/-- An ontology that cannot be loaded. -/
inductive BadOntology where
  | notObject
  | constraint (item : Data) (cause : Misuse)
  | notPair (item : Data)
  | hierarchyField (cause : Misuse)
  | unreadable (path : String) (cause : Unreadable)
  | badJson (path : String) (flaw : Json.Flaw)
  | format (path extension : String)
  | triples (path : String)
  deriving Repr

/-- The message of an ontology that cannot be loaded. -/
def BadOntology.message : BadOntology → String
  | .notObject => "Ontology document must be a JSON object"
  | .constraint item cause => "Invalid constraint " ++ item.display ++ ": " ++ cause.message
  | .notPair item => "Disjoint entry must be a pair of class names: " ++ item.display
  | .hierarchyField cause => "Malformed hierarchy axiom: missing " ++ cause.message
  | .unreadable path cause => "Cannot read ontology " ++ path ++ ": " ++ cause.message
  | .badJson path flaw => "Cannot read ontology " ++ path ++ ": " ++ flaw.message
  | .format _ extension => "Unsupported ontology format: " ++ extension
  | .triples path => "Cannot parse RDF ontology " ++ path

/-- What the message of an ontology that cannot be loaded leaves out. -/
def BadOntology.context : BadOntology → Fields
  | .unreadable path _ => [("path", .str path)]
  | .badJson path _ => [("path", .str path)]
  | .format path _ => [("path", .str path)]
  | .triples path => [("path", .str path)]
  | _ => []

/-- A setting that is unknown or out of range. -/
inductive BadSetting where
  | sections (unknown : List Data) (allowed : List String)
  | keys (group : String) (unknown : List Data) (allowed : List String)
  | negative (record key : String) (value : Data)
  deriving Repr

/-- The message of a bad setting. -/
def BadSetting.message : BadSetting → String
  | .sections unknown _ => "Unknown config sections: " ++ (Data.list unknown).display
  | .keys group unknown _ =>
      "Unknown keys in '" ++ group ++ "' config: " ++ (Data.list unknown).display
  | .negative record key _ => record ++ "." ++ key ++ " must be >= 0"

/-- What the message of a bad setting leaves out. -/
def BadSetting.context : BadSetting → Fields
  | .sections _ allowed => [("allowed", .texts allowed)]
  | .keys _ _ allowed => [("allowed", .texts allowed)]
  | .negative _ key value => [(key, value)]

/-! ## Inputs without a form -/

/-- What there is no form for in this library. -/
inductive Outside where
  /-- A name that is no text. -/
  | name
  /-- A text with half of a surrogate pair. -/
  | surrogate
  deriving DecidableEq, Repr

/-- The words for what there is no form for. -/
def Outside.message : Outside → String
  | .name => "A name is no text"
  | .surrogate => "A text holds half of a surrogate pair"

/-! ## Faults -/

/-- Anything that can be wrong with an input, or that there is no form for. -/
inductive Fault where
  | misuse (cause : Misuse)
  | malformed (cause : Malformed)
  | invalid (heading : String) (problems : List String)
  | ontology (cause : BadOntology)
  | setting (cause : BadSetting)
  | outside (cause : Outside)
  deriving Repr

namespace Fault

/-- The fault of a text that is refused; `flawed` says what a flaw means. -/
def ofRefusal (flawed : Json.Flaw → Fault) : Json.Refusal → Fault
  | .flaw f => flawed f
  | .digits n => .misuse (.tooManyDigits n)
  | .surrogate => .outside .surrogate

/-- The fault of a file that cannot be read; `unread` says what that means. -/
def ofUnreadable (unread : Unreadable → Fault) : Unreadable → Fault
  | .nullByte => .misuse .nullByte
  | u => unread u

/-- The message of a fault. -/
def message : Fault → String
  | .misuse c => c.message
  | .malformed c => c.message
  | .invalid heading _ => heading
  | .ontology c => c.message
  | .setting c => c.message
  | .outside c => c.message

/-- What a fault's message leaves out, as fields. -/
def context : Fault → Fields
  | .misuse _ => []
  | .malformed c => c.context
  | .invalid .. => []
  | .ontology c => c.context
  | .setting c => c.context
  | .outside _ => []

/-- The problems of an invalid input. -/
def problems? : Fault → Option (List String)
  | .invalid _ problems => some problems
  | _ => none

end Fault

/-- What is done in two parts succeeds when both parts do. -/
theorem bind_eq_ok_iff {α β : Type} {x : Except Fault α} {f : α → Except Fault β} {b : β} :
    x >>= f = .ok b ↔ ∃ a, x = .ok a ∧ f a = .ok b := by
  cases x with
  | error e => exact ⟨fun h => (by cases h), fun ⟨_, h, _⟩ => (by cases h)⟩
  | ok a => exact ⟨fun h => ⟨a, rfl, h⟩, fun ⟨_, h, hb⟩ => by cases h; exact hb⟩

/-! ## Names -/

section

variable {α β γ : Type}

/-- What is built when all names are texts. A record is read to its end all
the same: what is wrong in it comes before a name that is no text. -/
def named : Except Fault (Option α) → Except Fault α
  | .error f => .error f
  | .ok none => .error (.outside .name)
  | .ok (some a) => .ok a

/-- Read every item; something is built when something is built of each. -/
def readEach (read : α → Except Fault (Option β)) (xs : List α) :
    Except Fault (Option (List β)) := do
  return (← xs.mapM read).mapM id

theorem named_eq_ok_iff {r : Except Fault (Option α)} {a : α} :
    named r = .ok a ↔ r = .ok (some a) := by
  cases r with
  | error f => simp [named]
  | ok a? => cases a? <;> simp [named]

/-- What is wrong is wrong whatever the names are. -/
theorem named_eq_misuse_iff {r : Except Fault (Option α)} {m : Misuse} :
    named r = .error (.misuse m) ↔ r = .error (.misuse m) := by
  cases r with
  | error f => simp [named]
  | ok a? => cases a? <;> simp [named]

/-- Something is built of a part when the part is. -/
theorem named_map_eq_ok_iff {x : Except Fault (Option α)} {f : α → β} {b : β} :
    named (do return f <$> (← x)) = .ok b ↔ ∃ a, named x = .ok a ∧ f a = b := by
  cases x with
  | error e => simp [named, bind, Except.bind]
  | ok a? => cases a? <;> simp [named, bind, Except.bind, pure, Except.pure]

/-- Something is built of two parts when both are. -/
theorem named_map₂_eq_ok_iff {x : Except Fault (Option α)} {y : Except Fault (Option β)}
    {f : α → β → γ} {c : γ} :
    named (do
      let a ← x
      let b ← y
      return f <$> a <*> b) = .ok c ↔
      ∃ a b, named x = .ok a ∧ named y = .ok b ∧ f a b = c := by
  cases x with
  | error e => simp [named, bind, Except.bind]
  | ok a? =>
      cases y with
      | error e => simp [named, bind, Except.bind]
      | ok b? =>
          cases a? <;> cases b? <;>
            simp [named, bind, Except.bind, pure, Except.pure, Seq.seq]

theorem readEach_cons {read : α → Except Fault (Option β)} {x : α} {xs : List α} :
    readEach read (x :: xs) = do
      let y ← read x
      let ys ← readEach read xs
      return List.cons <$> y <*> ys := by
  simp only [readEach, List.mapM_cons, bind_assoc, pure_bind]
  refine bind_congr fun y => bind_congr fun ys => ?_
  cases y <;> simp [Seq.seq]
  cases ys.mapM id <;> rfl

/-- All is built of a list when it is built of each item. -/
theorem readEach_eq_ok_iff {read : α → Except Fault (Option β)} {xs : List α} {ys : List β} :
    readEach read xs = .ok (some ys) ↔ xs.mapM (fun x => named (read x)) = .ok ys := by
  induction xs generalizing ys with
  | nil => simp [readEach, pure, Except.pure, bind, Except.bind]
  | cons x xs ih =>
      rw [readEach_cons, List.mapM_cons]
      simp only [bind_eq_ok_iff, named_eq_ok_iff, ← ih]
      constructor
      · rintro ⟨y, hy, zs, hzs, h⟩
        cases y with
        | none => cases h
        | some y =>
            cases zs with
            | none => cases h
            | some zs => exact ⟨y, hy, zs, hzs, by cases h; rfl⟩
      · rintro ⟨y, hy, zs, hzs, h⟩
        cases h
        exact ⟨some y, hy, some zs, hzs, rfl⟩

end

end TripleLogic
