/-
TripleLogic.Server — answers to HTTP requests. Every request carries its own
knowledge base, and nothing is kept between requests.

A request's body is first checked against the fields that its route takes;
whatever does not fit is reported field by field. Inputs that cannot be used
are answered with status 422; a misused value that no check has caught is an
internal error. Inputs without a form here get no answer (`Outside`). A path that
would be that of a route without the slashes at its end is answered with the
other address, whatever the method.
-/
import TripleLogic.Engine
import TripleLogic.Ontology.Conflict
import TripleLogic.Ontology.Document
import TripleLogic.Server.Address
import TripleLogic.Server.Response
import TripleLogic.Version

namespace TripleLogic.Server

/-! ## Answers -/

/-- An engine over the nodes of a request, which are validated if asked for. -/
def engineOf (nodes : List Data) (validate : Bool) : Except Fault Engine := do
  let loaded ← named (readEach Node.load nodes)
  if validate then Node.assertAll loaded
  return Engine.ofEntries (loaded.map .node) {}

/-- A contradiction as plain data. -/
def contradictionData (c : Node × Node × Contradiction) : Data :=
  .obj [("statement1", c.1.toData), ("statement2", c.2.1.toData), ("reason", .str c.2.2.reason)]

/-- Chain forward and check consistency. -/
def reason (nodes : List Data) (bound : Option Int) (validate : Bool) : Except Fault Data := do
  let g ← engineOf nodes validate
  let (g, chained) := match bound with
    | some n => g.forward n.toNat
    | none => g.forwardDefault
  let s ← chained
  let found := g.contradictions
  return .obj [("derived", .list (s.derived.map Node.toData)), ("iterations", .nat s.passes),
    ("reached_fixpoint", .bool s.fixpoint), ("consistent", .bool found.isEmpty),
    ("contradictions", .list (found.map contradictionData)),
    ("knowledge_base_size", .nat g.kb.size)]

/-- Prove a goal. -/
def prove (nodes : List Data) (goal : Data) (validate : Bool) : Except Fault Data := do
  let g ← engineOf nodes validate
  let n ← Node.ofData goal
  return (← (g.prove (.node n)).2).toData

/-- Unify two nodes. -/
def unify (a b : Data) : Except Fault Data := do
  let m ← Node.ofData a
  let n ← Node.ofData b
  match m.unify n with
  | some σ => return .obj [("unifies", .bool true), ("substitution", Proof.substitutionData σ)]
  | none => return .obj [("unifies", .bool false), ("substitution", .null)]

/-- Look for conflicts among statements. -/
def conflicts (statements : List Data) (ontology : Option Data) (types : Bool) :
    Except Fault Data := do
  let given ← named (readEach Statement.load statements)
  let doc ← match ontology with
    | some d => if d.truthy then Document.ofData d else pure {}
    | none => pure {}
  doc.assertKeys
  doc.assertTexts
  let (o, closure) := (doc.apply (Ontology.ofSettings {})).learn
    (doc.axioms ++ given.map Axiom.ofStatement)
  let found := o.conflicts given ++ (if types then o.typeConflicts given else [])
  return .obj [("conflicts", .list (found.map fun c => .obj c.toData)),
    ("closure", .obj [("iterations", .nat closure.passes),
      ("converged", .bool closure.converged)]),
    ("statistics", .obj o.statistics)]

/-! ## Routes -/

/-- The routes. -/
inductive Route where
  | health
  | reason
  | prove
  | unify
  | conflicts
  | documentation
  deriving DecidableEq, Repr

/-- The paths of the routes. -/
def paths : List (String × Route) :=
  [("/health", .health), ("/api/v1/reason", .reason), ("/api/v1/prove", .prove),
   ("/api/v1/unify", .unify), ("/api/v1/conflicts", .conflicts),
   ("/docs", .documentation), ("/docs/oauth2-redirect", .documentation),
   ("/redoc", .documentation), ("/openapi.json", .documentation)]

/-- The methods of a route. -/
def Route.methods : Route → List String
  | .health => ["GET"]
  | .documentation => ["GET", "HEAD"]
  | _ => ["POST"]

/-- The answer to a body that has been checked. -/
def ofChecked {α : Type} (dress : Dress) (c : Checked α) (answer : α → Except Fault Data) :
    Except Outside Response :=
  match c with
  | .ok x => respond dress (answer x)
  | .error errors => .ok (refused errors)

/-- Answer a request to a route that takes an object. -/
def answerFields (route : Route) (fields : Fields) : Except Outside Response :=
  match route with
  | .health =>
      respond .filtered (.ok (.obj [("status", .str "ok"), ("framework", .str distribution),
        ("version", .str Version.current.text)]))
  | .documentation => .ok { status := 200, timed := true, body := .text "" }
  | .reason =>
      ofChecked .whole
        (both (required fields "nodes" checkObjects)
          (both (optional fields "max_iterations" none (orNull checkInteger))
            (optional fields "validate_nodes" false checkSwitch)))
        fun p => reason p.1 p.2.1 p.2.2
  | .prove =>
      ofChecked .filtered
        (both (required fields "nodes" checkObjects)
          (both (required fields "goal" checkObject)
            (optional fields "validate_nodes" false checkSwitch)))
        fun p => prove p.1 p.2.1 p.2.2
  | .unify =>
      ofChecked .whole
        (both (required fields "a" checkObject) (required fields "b" checkObject))
        fun p => unify p.1 p.2
  | .conflicts =>
      ofChecked .filtered
        (both (required fields "statements" checkObjects)
          (both (optional fields "ontology" none (orNull checkObject))
            (optional fields "include_type_violations" false checkSwitch)))
        fun p => conflicts p.1 p.2.1 p.2.2

/-- Answer a request to a route. -/
def answer (route : Route) (body : Data) : Except Outside Response :=
  match route, body with
  | .health, _ => answerFields .health []
  | .documentation, _ => answerFields .documentation []
  | route, .obj fields => answerFields route fields
  | _, .null => .ok (refused [⟨[.str "body"], "missing"⟩])
  | _, _ => .ok (refused [⟨[.str "body"], "model_attributes_type"⟩])

/-- The route of a path; a line feed may end the path. -/
def route? (path : String) : Option Route :=
  let cs := path.toList
  paths.lookup (String.ofList (if cs.getLast? == some '\n' then cs.dropLast else cs))

/-- A path without slashes at its end. -/
def withoutSlashes (path : String) : String :=
  String.ofList (path.toList.reverse.dropWhile (· == '/')).reverse

/-- Answer a request for a path. -/
def handlePath (method path : String) (body : Data) : Except Outside Response :=
  match route? path, route? (withoutSlashes path) with
  | some route, _ =>
      if route.methods.contains method then answer route body
      else .ok (problem 405 (.str "Method Not Allowed"))
  | none, some _ => .ok redirect
  | none, none => .ok (problem 404 (.str "Not Found"))

/-- A response without its body. -/
def Response.bare (r : Response) : Response :=
  { r with body := .text "" }

/-- Why a request is not answered: its address leads nowhere, its body has a
number that is not finite, which JSON has no text for, or there is no form for
what is in it. -/
inductive Unanswered where
  | address (cause : Address.Invalid)
  | number
  | outside (cause : Outside)
  deriving DecidableEq, Repr

/-- The message of a request that is not answered. -/
def Unanswered.message : Unanswered → String
  | .address cause => cause.message
  | .number => "Out of range float values are not JSON compliant"
  | .outside cause => cause.message

/-- Answer a request. A missing body counts as null. The case of a method does
not matter; one that asks for the head gets no body. -/
def handle (method address : String) (body : Data) : Except Unanswered Response := do
  let path ← (Address.path address).mapError .address
  if !isSendable true body then throw .number
  let method := String.ofList (method.toList.map Char.toUpper)
  let response ← (handlePath method path body).mapError .outside
  return if method == "HEAD" then response.bare else response

end TripleLogic.Server
