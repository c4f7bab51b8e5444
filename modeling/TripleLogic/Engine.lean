/-
TripleLogic.Engine — reasoning over a knowledge base: forward chaining,
proofs, consistency, queries and questions about the knowledge itself.
-/
import TripleLogic.Inference.Saturation
import TripleLogic.Proof.Search
import TripleLogic.Settings

namespace TripleLogic

/-- A knowledge base with the settings of inference. A node that is no key
cannot be looked up, so a rule that concludes such a node as it stands is
remembered, by its place among the nodes and its direction, when that node is
added. -/
structure Engine where
  kb : KnowledgeBase := {}
  settings : InferenceSettings := {}
  stated : List (Nat × Nat) := []
  deriving Repr, Inhabited

/-- A conclusion of a rule. A node that is no key and stands in the rule as
it is, with nothing bound, comes with the place of the rule among the nodes
and its direction. -/
structure Conclusion where
  node : Node
  source : Option (Nat × Nat)
  deriving Repr, Inhabited

/-- The answer to a goal: a proof, or none. -/
structure Verdict where
  goal : Entry
  proof : Option Proof
  deriving Repr, Inhabited

namespace Verdict

/-- The explanation of an answer. -/
def explain (v : Verdict) : String :=
  match v.proof with
  | some p => p.explain
  | none => "FAILED: Cannot prove " ++ v.goal.text

/-- An answer as plain data. -/
def toData (v : Verdict) : Data :=
  match v.proof with
  | some p => .obj [("provable", .bool true), ("proof", p.toData)]
  | none =>
      .obj [("provable", .bool false), ("reason", .str "Goal not derivable from knowledge base")]

end Verdict

/-- The ways in which two nodes contradict each other. -/
inductive Contradiction where
  | direct
  | implications
  deriving DecidableEq, Repr

/-- The words for a contradiction. -/
def Contradiction.reason : Contradiction → String
  | .direct => "Direct contradiction: node and its negation"
  | .implications =>
      "Contradictory implications: same antecedent implies a node and its negation"

namespace Node

/-- Whether a node, if there is one, is the negation of another, which may
be missing. -/
def negates (n m : Option Node) : Bool :=
  match n with
  | some (.compound .not a _) => sameOperand a m
  | _ => false

/-- How two nodes contradict each other, if they do: one negates the other,
or they are implications with one antecedent and contradictory consequents. -/
def contradiction? (a b : Node) : Option Contradiction :=
  if negates (some b) (some a) || negates (some a) (some b) then some .direct
  else
    match a, b with
    | .compound .implies p x, .compound .implies q y =>
        if sameOperand p q && (negates y x || negates x y) then some .implications else none
    | _, _ => none

/-- The contradictions among nodes: pairs in order, the earlier node first. -/
def contradictions : List Node → List (Node × Node × Contradiction)
  | [] => []
  | n :: rest =>
      rest.filterMap (fun m => (contradiction? n m).map fun c => (n, m, c))
        ++ contradictions rest

end Node

/-- The concept that stands for the knowledge base itself. -/
def selfConcept : Expr := .concept "Self"

/-- Relations whose presence shows that states of mind are modelled. -/
def affectiveRelations : List String := ["feels", "desires", "experiences", "seeks"]

/-- A concept that is the subject of fewer statements than this is a gap. -/
def gapThreshold : Nat := 2

/-- How little is known of a concept that is the subject of `count`
statements: one less a fifth for each, and not below zero. -/
def gapScore (count : Nat) : Binary64 :=
  Binary64.ofRatio false (5 - count) 5

/-- A statement about the knowledge base, with a confidence. -/
def selfStatement (relation : String) (target : Expr) (confidence : Binary64) : Statement :=
  { subject := selfConcept
    relation := { name := relation }
    object := target
    attributes := [("confidence", .literal (.num (.float confidence)))] }

namespace Engine

/-- An engine over entries. -/
def ofEntries (es : List Entry) (settings : InferenceSettings) : Engine :=
  { kb := KnowledgeBase.ofEntries es, settings }

/-- Every known node that unifies with a pattern, with its bindings. A
foreign value unifies with nothing. -/
def query (g : Engine) (pattern : Entry) : List (Node × Substitution) :=
  match pattern.node? with
  | some p => g.kb.nodes.filterMap fun n => (p.unify n).map fun σ => (n, σ)
  | none => []

/-- The conclusions that rules give among nodes. -/
def conclusions (nodes : List Node) : List Conclusion :=
  nodes.zipIdx.flatMap fun r => (Pattern.directions r.1).zipIdx.flatMap fun d =>
    (matchPremises d.1.1 nodes []).map fun θ =>
      let n := d.1.2.subst θ
      { node := n, source := if θ.isEmpty && !n.isKey then some (r.2, d.2) else none }

/-- Add a conclusion; what stands in a rule as it is and is no key is not
added twice. -/
def addConclusion (g : Engine) (c : Conclusion) : Engine :=
  match c.source with
  | none => { g with kb := (g.kb.add (.node c.node)).1 }
  | some place =>
      if g.stated.contains place then g
      else { g with kb := g.kb.append (.node c.node), stated := g.stated ++ [place] }

/-- Forward chaining by at most the given number of passes. What is derived
stays known. A node that is no key stops the first pass after its rules were
applied. -/
def forward (g : Engine) (bound : Nat) : Engine × Except Fault Saturation :=
  match if bound == 0 then none else g.kb.nodes.findSome? Node.composite? with
  | none =>
      let s := g.kb.saturate bound
      ({ g with kb := s.kb }, .ok s)
  | some d =>
      ((conclusions g.kb.nodes).foldl addConclusion g, .error (.misuse (.notKey d)))

/-- Forward chaining by the number of passes of the settings. -/
def forwardDefault (g : Engine) : Engine × Except Fault Saturation :=
  g.forward g.settings.maxForwardPasses

/-- Goal-directed search for a proof. -/
def backward (g : Engine) (goal : Entry) : Except Fault (Option Proof) :=
  Proof.findEntry? g.kb.nodes g.settings.maxProofDepth goal

/-- Search again after forward chaining; a proof found then is a step of
forward chaining. Nothing is searched when nothing was derived. -/
def backwardAfter (g : Engine) (s : Saturation) (goal : Entry) :
    Except Fault (Option Proof) :=
  if s.derived.isEmpty then .ok none
  else do
    let found ← { g with kb := s.kb }.backward goal
    return found.map fun p => .step p.goal .forwardChaining [p] p.substitution

/-- Prove a goal by search and, if that fails and the settings allow it, by
forward chaining and search; what is derived stays known. -/
def prove (g : Engine) (goal : Entry) : Engine × Except Fault Verdict :=
  match g.backward goal with
  | .error f => (g, .error f)
  | .ok (some p) => (g, .ok { goal, proof := some p })
  | .ok none =>
      if g.settings.proveWithSaturation then
        let (g', chained) := g.forward g.settings.saturationPasses
        (g', do return { goal, proof := ← g.backwardAfter (← chained) goal })
      else (g, .ok { goal, proof := none })

/-- The contradictions among the known nodes. -/
def contradictions (g : Engine) : List (Node × Node × Contradiction) :=
  Node.contradictions g.kb.nodes

/-- The statements that have an expression as subject or object. -/
def mentioning (g : Engine) (e : Expr) : List Statement :=
  g.kb.statements.filter fun s => e.same s.subject || e.same s.object

/-- Expressions in order, each once. -/
def distinctExprs : List Expr → List Expr → List Expr
  | seen, [] => seen
  | seen, e :: es =>
      if seen.any (fun x => x.same e) then distinctExprs seen es
      else distinctExprs (seen ++ [e]) es

/-- The number of statements that have an expression as subject. -/
def subjectCount (statements : List Statement) (e : Expr) : Nat :=
  (statements.filter fun s => s.subject.same e).length

/-- The subjects and objects of statements, in order. -/
def mentioned (statements : List Statement) : List Expr :=
  statements.flatMap fun s => [s.subject, s.object]

/-- The expressions that are mentioned but hardly described, with a score of
how little is known of them. All that is mentioned is used as a key. -/
def gaps (g : Engine) : Except Fault (List (Expr × Binary64)) := do
  let statements := g.kb.statements
  (mentioned statements).forM Expr.assertKey
  return (distinctExprs [] (mentioned statements)).filterMap fun e =>
    let count := subjectCount statements e
    if count < gapThreshold then some (e, gapScore count) else none

/-- Whether the knowledge base holds a rule or an implication. -/
def hasRules (g : Engine) : Bool :=
  g.kb.nodes.any fun
    | .rule .. => true
    | n => n.isImplication

/-- Whether a statement of the knowledge base is about a state of mind. -/
def hasAffect (g : Engine) : Bool :=
  g.kb.statements.any fun s => affectiveRelations.contains s.relation.name

/-- The capabilities that the contents of the knowledge base imply. -/
def capabilities (g : Engine) : List Statement :=
  (if g.hasRules then
    [selfStatement "has_capability" (.concept "LogicalReasoning")
      (Binary64.ofDecimal false 95 (-2))] else [])
  ++ (if g.hasAffect then
    [selfStatement "has_capability" (.concept "AffectiveReasoning")
      (Binary64.ofDecimal false 9 (-1))] else [])

/-- Answer a statement about the knowledge base itself: what it knows of
something, what it lacks, or what it can do. -/
def ask (g : Engine) (question : Statement) : Except Fault (List Statement) :=
  if !question.subject.same selfConcept then .ok []
  else
    let target := question.object
    match question.relation.name with
    | "has_knowledge_about" =>
        .ok (if target.isVariable then g.kb.statements else g.mentioning target)
    | "lacks_knowledge_about" => do
        let gaps ← g.gaps
        return (gaps.filter fun gap => target.isVariable || gap.1.same target).map fun gap =>
          selfStatement "lacks_knowledge_about" gap.1 gap.2
    | "has_capability" => .ok g.capabilities
    | _ => .ok []

/-- The identifiers of the rules, in order. -/
def ruleIds (g : Engine) : List String :=
  g.kb.rules.filterMap fun
    | .rule id .. => some id
    | _ => none

/-- A one-line description. -/
def describe (g : Engine) : String :=
  "InferenceEngine(nodes=" ++ toString g.kb.size ++ ", rules="
    ++ toString g.kb.rules.length ++ ")"

end Engine

end TripleLogic
