/-
TripleLogic.CommandLine.Arguments — the arguments of the command line.

Arguments are first told apart: options by their marks, and anything else,
as well as all that follows a double dash. A long option may be shortened as
long as it stays the only one of that beginning, and may hold its value
after an equals sign. Negative numbers and texts with a space are no
options. The first argument that is no option names the knowledge base; what
nothing takes is reported at the end.
-/
import TripleLogic.Number.Numeral
import TripleLogic.Text.Quoted

namespace TripleLogic.CommandLine

/-- The arguments of a run. -/
structure Arguments where
  knowledgeBase : String := ""
  goal : Option String := none
  ontology : Option String := none
  config : Option String := none
  maxIterations : Option Int := none
  typeCheck : Bool := false
  verbose : Bool := false
  deriving DecidableEq, Repr, Inhabited

/-- The options. -/
inductive Flag where
  | help
  | goal
  | ontology
  | config
  | maxIterations
  | typeCheck
  | verbose
  deriving DecidableEq, Repr

/-- The spellings of the options, in order. -/
def spellings : List (String × Flag) :=
  [("-h", .help), ("--help", .help), ("--goal", .goal), ("--ontology", .ontology),
   ("--config", .config), ("--max-iterations", .maxIterations), ("--type-check", .typeCheck),
   ("-v", .verbose), ("--verbose", .verbose)]

namespace Flag

/-- The name of an option in messages. -/
def label : Flag → String
  | .help => "-h/--help"
  | .goal => "--goal"
  | .ontology => "--ontology"
  | .config => "--config"
  | .maxIterations => "--max-iterations"
  | .typeCheck => "--type-check"
  | .verbose => "-v/--verbose"

/-- Whether an option takes a value. -/
def takesValue : Flag → Bool
  | .help => false
  | .typeCheck => false
  | .verbose => false
  | _ => true

end Flag

/-- What is wrong with arguments. -/
inductive Misfit where
  | ambiguous (given : String) (candidates : List String)
  | noValue (flag : Flag)
  | ignoredValue (flag : Flag) (value : String)
  | notInteger (flag : Flag) (value : String)
  | noKnowledgeBase
  | unrecognized (extras : List String)
  deriving DecidableEq, Repr

/-- The message of a misfit. -/
def Misfit.message : Misfit → String
  | .ambiguous given candidates =>
      "ambiguous option: " ++ given ++ " could match " ++ ", ".intercalate candidates
  | .noValue flag => "argument " ++ flag.label ++ ": expected one argument"
  | .ignoredValue flag value =>
      "argument " ++ flag.label ++ ": ignored explicit argument " ++ Text.quote value
  | .notInteger flag value =>
      "argument " ++ flag.label ++ ": invalid int value: " ++ Text.quote value
  | .noKnowledgeBase => "the following arguments are required: knowledge_base"
  | .unrecognized extras => "unrecognized arguments: " ++ " ".intercalate extras

/-- Why parsing ended early: help was asked for, or the arguments do not fit. -/
inductive Stop where
  | help
  | misfit (m : Misfit)
  deriving DecidableEq, Repr

/-! ## Telling arguments apart -/

/-- What an argument is: a plain text, the double dash, an option with the
rest of its text, or an option that is not known. The rest of an option's
text stands after an equals sign or directly after its letter. -/
inductive Piece where
  | plain (text : String)
  | separator
  | option (text : String) (long : Bool) (flag : Flag) (rest : Option String)
  | unknown (text : String)
  deriving DecidableEq, Repr

/-- Split a text at its first equals sign. -/
def splitEquals (cs : List Char) : List Char × Option (List Char) :=
  match cs.dropWhile (· != '=') with
  | _ :: rest => (cs.takeWhile (· != '='), some rest)
  | [] => (cs, none)

/-- A text without the line feed that ends it. -/
def withoutLineEnd (cs : List Char) : List Char :=
  if cs.getLast? == some '\n' then cs.dropLast else cs

/-- Whether a text is a minus and a number without exponent; a line feed may
end it. -/
def isNegativeNumber : List Char → Bool
  | '-' :: number =>
      let isDigit := fun c => (Text.digit? c).isSome
      let cs := withoutLineEnd number
      match cs.dropWhile isDigit with
      | [] => !cs.isEmpty
      | '.' :: frac => !frac.isEmpty && frac.all isDigit
      | _ => false
  | _ => false

/-- An option with the text after an equals sign. -/
def valued (text : String) (long : Bool) (flag : Flag) (rest : Option (List Char)) : Piece :=
  .option text long flag (rest.map String.ofList)

/-- An argument that begins with a dash and is neither an option nor the
beginning of one. -/
def unmatched (text : String) : Piece :=
  let cs := text.toList
  if isNegativeNumber cs || cs.contains ' ' then .plain text else .unknown text

/-- A long option, perhaps shortened. -/
def longPiece (text : String) : Except Misfit Piece :=
  let (name, rest) := splitEquals text.toList
  match spellings.filter fun s => name.isPrefixOf s.1.toList with
  | [] => .ok (unmatched text)
  | [(_, flag)] => .ok (valued text true flag rest)
  | several => .error (.ambiguous text (several.map Prod.fst))

/-- A short option, perhaps with text after its letter. -/
def shortPiece (text : String) : Piece :=
  match spellings.lookup (String.ofList (text.toList.take 2)) with
  | some flag => .option text false flag (some (String.ofList (text.toList.drop 2)))
  | none => unmatched text

/-- Tell what an argument is that is not after a double dash. -/
def piece (text : String) : Except Misfit Piece :=
  match text.toList with
  | '-' :: c :: _ =>
      let long := c == '-'
      match spellings.lookup text with
      | some flag => .ok (.option text long flag none)
      | none =>
          let (name, rest) := splitEquals text.toList
          match rest.isSome, spellings.lookup (String.ofList name) with
          | true, some flag => .ok (valued text long flag rest)
          | _, _ => if long then longPiece text else .ok (shortPiece text)
  | _ => .ok (.plain text)

/-- Tell what all arguments are. What follows a double dash is plain. -/
def pieces : List String → Except Misfit (List Piece)
  | [] => .ok []
  | "--" :: rest => .ok (.separator :: rest.map .plain)
  | text :: rest => do
      let p ← piece text
      return p :: (← pieces rest)

/-! ## Taking arguments -/

/-- What has been taken so far. -/
structure State where
  arguments : Arguments := {}
  found : Bool := false
  extras : List String := []

/-- Take a value of an option. -/
def setValue (s : State) (flag : Flag) (value : String) : Except Stop State :=
  let a := s.arguments
  match flag with
  | .goal => .ok { s with arguments := { a with goal := some value } }
  | .ontology => .ok { s with arguments := { a with ontology := some value } }
  | .config => .ok { s with arguments := { a with config := some value } }
  | .maxIterations =>
      match Numeral.int? (Numeral.trimmed value.toList) with
      | some n => .ok { s with arguments := { a with maxIterations := some n } }
      | none => .error (.misfit (.notInteger flag value))
  | _ => .ok s

/-- Take an option without a value. -/
def setFlag (s : State) (flag : Flag) : Except Stop State :=
  let a := s.arguments
  match flag with
  | .help => .error .help
  | .typeCheck => .ok { s with arguments := { a with typeCheck := true } }
  | .verbose => .ok { s with arguments := { a with verbose := true } }
  | _ => .ok s

/-- The options that a short option without a value and the letters after it
stand for. -/
def cluster (flag : Flag) : List Char → Except Misfit (List Flag)
  | [] => .ok [flag]
  | c :: cs =>
      match spellings.lookup (String.ofList ['-', c]) with
      | none => .error (.ignoredValue flag (String.ofList (c :: cs)))
      | some next => (cluster next cs).map (flag :: ·)

/-- Take an option whose text holds something after its name. -/
def takeAttached (s : State) (long : Bool) (flag : Flag) (rest : String) :
    Except Stop State := do
  if flag.takesValue then setValue s flag rest
  else if long || rest == "" then throw (.misfit (.ignoredValue flag rest))
  else
    match cluster flag rest.toList with
    | .error m => throw (.misfit m)
    | .ok flags => flags.foldlM setFlag s

/-- Take all arguments, in order. The knowledge base is the first plain text;
a double dash next to it goes with it, and elsewhere is left over. -/
def take (s : State) : List Piece → Except Stop State
  | [] => .ok s
  | .separator :: .plain text :: rest =>
      if s.found then take { s with extras := s.extras ++ ["--"] } (.plain text :: rest)
      else take { s with found := true, arguments := { s.arguments with knowledgeBase := text } }
        rest
  | .separator :: rest => take { s with extras := s.extras ++ ["--"] } rest
  | .plain text :: rest =>
      if s.found then take { s with extras := s.extras ++ [text] } rest
      else
        let s' := { s with found := true,
                           arguments := { s.arguments with knowledgeBase := text } }
        match rest with
        | .separator :: more => take s' more
        | rest => take s' rest
  | .unknown text :: rest => take { s with extras := s.extras ++ [text] } rest
  | .option _ long flag (some attached) :: rest => do
      take (← takeAttached s long flag attached) rest
  | .option _ _ flag none :: rest =>
      if flag.takesValue then
        match rest with
        | .plain value :: more => do take (← setValue s flag value) more
        | _ => .error (.misfit (.noValue flag))
      else do take (← setFlag s flag) rest

/-- Parse arguments. -/
def parse (args : List String) : Except Stop Arguments := do
  match pieces args with
  | .error m => throw (.misfit m)
  | .ok ps =>
      let s ← take {} ps
      if !s.found then throw (.misfit .noKnowledgeBase)
      if !s.extras.isEmpty then throw (.misfit (.unrecognized s.extras))
      return s.arguments

end TripleLogic.CommandLine
