/-
TripleLogic.Settings — the bounds and switches of reasoning.

Settings are read from an object with the sections `inference` and
`ontology`; what a section leaves out has its default, and what is unknown
or negative is refused.
-/
import TripleLogic.Bound
import TripleLogic.Expr.Record

namespace TripleLogic

/-- The settings of inference. -/
structure InferenceSettings where
  /-- Most passes of forward chaining. -/
  maxForwardPasses : Nat := 100
  /-- Most steps of a branch of a proof below its goal. -/
  maxProofDepth : Nat := 20
  /-- Whether proving may fall back on forward chaining. -/
  proveWithSaturation : Bool := true
  /-- Most passes of forward chaining while proving. -/
  saturationPasses : Nat := 50
  deriving DecidableEq, Repr, Inhabited

/-- The settings of ontologies. -/
structure OntologySettings where
  /-- Most passes of closing the hierarchy. -/
  maxClosurePasses : Nat := 100
  /-- Whether the constraints and disjoint classes of common sense are there. -/
  seedDefaults : Bool := true
  deriving DecidableEq, Repr, Inhabited

/-- All settings. -/
structure Settings where
  inference : InferenceSettings := {}
  ontology : OntologySettings := {}
  deriving DecidableEq, Repr, Inhabited

namespace Settings

/-- The keys of the section on inference, sorted. -/
def inferenceKeys : List String :=
  ["max_forward_iterations", "max_proof_depth", "prove_with_saturation",
   "saturation_iterations"]

/-- The keys of the section on ontologies, sorted. -/
def ontologyKeys : List String :=
  ["max_closure_iterations", "seed_defaults"]

/-- The sections, sorted. -/
def sections : List String := ["inference", "ontology"]

/-- Keys in order, each once; of equal keys the first is kept. -/
def distinctKeys : (seen : List Data) → List Data → List Data
  | seen, [] => seen
  | seen, k :: ks =>
      if seen.any (fun x => x.scalarSame k) then distinctKeys seen ks
      else distinctKeys (seen ++ [k]) ks

/-- Keys of which no two are equal, in the order of their values. Numbers and
truth values can be compared with each other, and texts with texts. -/
def sortedKeys (keys : List Data) : Except Fault (List Data) :=
  match keys with
  | [] => .ok []
  | [k] => .ok [k]
  | first :: second :: rest =>
      match keys.mapM fun k => k.number?.map fun n => (n, k) with
      | some numbers => .ok ((numbers.mergeSort fun a b => a.1.le b.1).map Prod.snd)
      | none =>
          match keys.mapM fun | .str s => some s | _ => none with
          | some texts => .ok ((texts.mergeSort fun a b => decide (a ≤ b)).map .str)
          | none =>
              let other := (second :: rest).find? fun k => k.kindName != first.kindName
              .error (.misuse (.notComparable "<" (other.getD second) first))

/-- The keys of a value that are not among the allowed ones; a part that
cannot be used as a key is refused. -/
def unknownKeys (allowed : List String) (d : Data) : Except Fault (List Data) := do
  let keys ← d.itemsOr
  match keys.find? Data.isContainer with
  | some k => throw (.misuse (.notKey k))
  | none => sortedKeys (distinctKeys [] (keys.filter fun k => !allowed.any fun a => k.isText a))

/-- The fields of a section whose keys are all known. -/
def sectionFields (record group : String) (allowed : List String) (d : Data) :
    Except Fault Fields := do
  let unknown ← unknownKeys allowed d
  if !unknown.isEmpty then throw (.setting (.keys group unknown allowed))
  match d with
  | .obj fields => return fields
  | _ => throw (.misuse (.notRecord record d))

/-- A bound of a section: a number that is not negative. -/
def bound (record key : String) (fields : Fields) : Except Fault (Option Number) :=
  match fields.get? key with
  | none => .ok none
  | some d =>
      match d.number? with
      | some n =>
          if n.isNegative then .error (.setting (.negative record key d)) else .ok (some n)
      | none => .error (.misuse (.notComparable "<" d (.int 0)))

/-- A bound on a number of passes. -/
def passBound (record key : String) (default : Nat) (fields : Fields) : Except Fault Nat := do
  return ((← bound record key fields).map Number.passes).getD default

/-- A bound on a depth. -/
def depthBound (record key : String) (default : Nat) (fields : Fields) : Except Fault Nat := do
  return ((← bound record key fields).map fun n => n.depth.toNat).getD default

/-- A switch of a section. -/
def switch (key : String) (default : Bool) (fields : Fields) : Bool :=
  match fields.get? key with
  | none => default
  | some d => d.truthy

/-- Read the section on inference. -/
def inferenceOfData (d : Data) : Except Fault InferenceSettings := do
  let record := "InferenceConfig"
  let fields ← sectionFields ("aiql.core.config." ++ record) "inference" inferenceKeys d
  let maxForwardPasses ← passBound record "max_forward_iterations" 100 fields
  let maxProofDepth ← depthBound record "max_proof_depth" 20 fields
  let saturationPasses ← passBound record "saturation_iterations" 50 fields
  return { maxForwardPasses, maxProofDepth, saturationPasses,
           proveWithSaturation := switch "prove_with_saturation" true fields }

/-- Read the section on ontologies. -/
def ontologyOfData (d : Data) : Except Fault OntologySettings := do
  let record := "OntologyConfig"
  let fields ← sectionFields ("aiql.core.config." ++ record) "ontology" ontologyKeys d
  let maxClosurePasses ← passBound record "max_closure_iterations" 100 fields
  return { maxClosurePasses, seedDefaults := switch "seed_defaults" true fields }

/-- Read settings. -/
def ofData (d : Data) : Except Fault Settings := do
  let unknown ← unknownKeys sections d
  if !unknown.isEmpty then throw (.setting (.sections unknown sections))
  match d with
  | .obj fields =>
      let inference ← inferenceOfData ((Fields.get? fields "inference").getD (.obj []))
      let ontology ← ontologyOfData ((Fields.get? fields "ontology").getD (.obj []))
      return { inference, ontology }
  | _ => throw (.misuse (.noMember d "get"))

/-- The section on inference as fields. -/
def inferenceFields (s : InferenceSettings) : Fields :=
  [("max_forward_iterations", .nat s.maxForwardPasses),
   ("max_proof_depth", .nat s.maxProofDepth),
   ("prove_with_saturation", .bool s.proveWithSaturation),
   ("saturation_iterations", .nat s.saturationPasses)]

/-- The section on ontologies as fields. -/
def ontologyFields (s : OntologySettings) : Fields :=
  [("max_closure_iterations", .nat s.maxClosurePasses),
   ("seed_defaults", .bool s.seedDefaults)]

/-- The fields of a section, each value as it was given if it was. -/
def asGiven (d : Data) (group : String) (fields : Fields) : Data :=
  .obj (fields.map fun f => (f.1, ((d.get? group).bind fun g => g.get? f.1).getD f.2))

/-- The settings that are read from plain data, as plain data with all
sections and fields. -/
def complete (d : Data) : Except Fault Data := do
  let s ← ofData d
  return .obj [("inference", asGiven d "inference" (inferenceFields s.inference)),
    ("ontology", asGiven d "ontology" (ontologyFields s.ontology))]

end Settings

end TripleLogic
