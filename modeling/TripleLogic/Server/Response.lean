/-
TripleLogic.Server.Response — what requests are answered with.

Values are sent as JSON, so all their numbers have to be finite. The fields
of most answers are gone through before they are sent: those with a private
name are left out, at any depth.
-/
import TripleLogic.Data.Keys
import TripleLogic.Fault
import TripleLogic.Server.Check

namespace TripleLogic.Server

/-- The body of a response. -/
inductive Body where
  | json (d : Data)
  | text (s : String)
  | refused (errors : List BodyError)
  deriving Repr

/-- A response: its status, whether it tells the time that it took, and its body. -/
structure Response where
  status : Nat
  timed : Bool
  body : Body
  deriving Repr

/-- A response with details of what went wrong. -/
def problem (status : Nat) (detail : Data) : Response :=
  { status, timed := true, body := .json (.obj [("detail", detail)]) }

/-- The response to an internal error. -/
def internalError : Response :=
  { status := 500, timed := false, body := .text "Internal Server Error" }

/-- The response to a body that does not fit. -/
def refused (errors : List BodyError) : Response :=
  { status := 422, timed := true, body := .refused errors }

/-- The response that sends a request to another address. -/
def redirect : Response :=
  { status := 307, timed := true, body := .text "" }

/-- The response to a fault; an input without a form here has none. -/
def ofFault : Fault → Except Outside Response
  | .misuse _ => .ok internalError
  | .outside c => .error c
  | f =>
      .ok (problem 422 (Data.withTextKeys Data.jsonKey
        (.obj (("error", .str f.message) :: f.context
          ++ (match f.problems? with
              | some ps => [("errors", .texts ps)]
              | none => [])))))

/-! ## What can be sent -/

/-- Whether a value has a number that is not finite at its top. -/
def isEndless : Data → Bool
  | .num (.float x) => !x.isFinite
  | _ => false

mutual

/-- Whether all numbers of a value are finite; others cannot be sent. `asKey`
tells whether a number that is a key of a map counts. -/
def isSendable (asKey : Bool) : Data → Bool
  | .num (.float x) => x.isFinite
  | .list xs => areSendable asKey xs
  | .obj fs => areSendableFields asKey fs
  | .map es => areSendableEntries asKey es
  | _ => true

/-- Whether all numbers of a list's items are finite. -/
def areSendable (asKey : Bool) : List Data → Bool
  | [] => true
  | x :: xs => isSendable asKey x && areSendable asKey xs

/-- Whether all numbers of an object's fields are finite. -/
def areSendableFields (asKey : Bool) : List (String × Data) → Bool
  | [] => true
  | (_, v) :: fs => isSendable asKey v && areSendableFields asKey fs

/-- Whether all numbers of a map's entries are finite. -/
def areSendableEntries (asKey : Bool) : List (Data × Data) → Bool
  | [] => true
  | (k, v) :: es => !(asKey && isEndless k) && isSendable asKey v && areSendableEntries asKey es

end

/-- What private names begin with. -/
def privateMark : String := "_sa"

/-- Whether a name is private. -/
def isPrivate (name : String) : Bool :=
  privateMark.toList.isPrefixOf name.toList

/-- Whether a key of a map is private. -/
def isPrivateKey : Data → Bool
  | .str s => isPrivate s
  | _ => false

mutual

/-- A value without its private fields. -/
def withoutPrivate : Data → Data
  | .list xs => .list (itemsWithoutPrivate xs)
  | .obj fs => .obj (fieldsWithoutPrivate fs)
  | .map es => .map (entriesWithoutPrivate es)
  | d => d

/-- The items of a list without their private fields. -/
def itemsWithoutPrivate : List Data → List Data
  | [] => []
  | x :: xs => withoutPrivate x :: itemsWithoutPrivate xs

/-- The fields of an object that are not private. -/
def fieldsWithoutPrivate : List (String × Data) → List (String × Data)
  | [] => []
  | (k, v) :: fs =>
      if isPrivate k then fieldsWithoutPrivate fs
      else (k, withoutPrivate v) :: fieldsWithoutPrivate fs

/-- The entries of a map that are not private. -/
def entriesWithoutPrivate : List (Data × Data) → List (Data × Data)
  | [] => []
  | (k, v) :: es =>
      if isPrivateKey k then entriesWithoutPrivate es
      else (k, withoutPrivate v) :: entriesWithoutPrivate es

end

/-- How an answer is made ready: its private fields are left out and its keys
are written as in JSON, or it is sent whole with its keys as words. -/
inductive Dress where
  | filtered
  | whole
  deriving DecidableEq, Repr

/-- An answer made ready to be sent, if it can be sent. -/
def Dress.apply? : Dress → Data → Option Data
  | .filtered, d =>
      let d := withoutPrivate d
      if isSendable true d then some (d.withTextKeys Data.jsonKey) else none
  | .whole, d => if isSendable false d then some (d.withTextKeys Data.wordKey) else none

/-- The response of a route that may find a fault. -/
def respond (dress : Dress) (r : Except Fault Data) : Except Outside Response :=
  match r with
  | .ok d =>
      match dress.apply? d with
      | some d => .ok { status := 200, timed := true, body := .json d }
      | none => .ok internalError
  | .error f => ofFault f

end TripleLogic.Server
