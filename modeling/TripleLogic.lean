import TripleLogic.Bindings
import TripleLogic.Bound
import TripleLogic.CommandLine.Arguments
import TripleLogic.CommandLine.Run
import TripleLogic.Data.Basic
import TripleLogic.Data.Canon
import TripleLogic.Data.Display
import TripleLogic.Data.Json
import TripleLogic.Data.Keys
import TripleLogic.Draft
import TripleLogic.Engine
import TripleLogic.Expr.Basic
import TripleLogic.Expr.Record
import TripleLogic.Expr.Token
import TripleLogic.Fault
import TripleLogic.Folder
import TripleLogic.Inference.Pattern
import TripleLogic.Inference.Premises
import TripleLogic.Inference.Saturation
import TripleLogic.KnowledgeBase
import TripleLogic.Loading
import TripleLogic.Main
import TripleLogic.Node.Basic
import TripleLogic.Node.Key
import TripleLogic.Node.Record
import TripleLogic.Number.Basic
import TripleLogic.Number.Binary64
import TripleLogic.Number.Numeral
import TripleLogic.Number.Shortest
import TripleLogic.Ontology.Basic
import TripleLogic.Ontology.Conflict
import TripleLogic.Ontology.Constraint
import TripleLogic.Ontology.Document
import TripleLogic.Ontology.Hierarchy
import TripleLogic.Ontology.NTriples
import TripleLogic.Ontology.PlainTriples
import TripleLogic.Ontology.Rdf
import TripleLogic.Ontology.Turtle
import TripleLogic.Path
import TripleLogic.Proof.Search
import TripleLogic.Proof.Tree
import TripleLogic.Proofs.AppendOnly
import TripleLogic.Proofs.Assignment
import TripleLogic.Proofs.BackwardChaining
import TripleLogic.Proofs.Bindings
import TripleLogic.Proofs.Certificate
import TripleLogic.Proofs.Closure
import TripleLogic.Proofs.Completeness
import TripleLogic.Proofs.Conflict
import TripleLogic.Proofs.ConflictOrder
import TripleLogic.Proofs.Conjunction
import TripleLogic.Proofs.Consistency
import TripleLogic.Proofs.Counterparts
import TripleLogic.Proofs.Derivation
import TripleLogic.Proofs.Doubling
import TripleLogic.Proofs.Elimination
import TripleLogic.Proofs.EqualText
import TripleLogic.Proofs.Equality
import TripleLogic.Proofs.Equations
import TripleLogic.Proofs.ExactValue
import TripleLogic.Proofs.ExitStatus
import TripleLogic.Proofs.FaultKinds
import TripleLogic.Proofs.FiniteAnswers
import TripleLogic.Proofs.Finiteness
import TripleLogic.Proofs.FirstMet
import TripleLogic.Proofs.Following
import TripleLogic.Proofs.ForeignValues
import TripleLogic.Proofs.ForwardChaining
import TripleLogic.Proofs.Grammar
import TripleLogic.Proofs.Graphs
import TripleLogic.Proofs.Growth
import TripleLogic.Proofs.Inference
import TripleLogic.Proofs.Inside
import TripleLogic.Proofs.Instances
import TripleLogic.Proofs.Interpretation
import TripleLogic.Proofs.KeyFaults
import TripleLogic.Proofs.Keys
import TripleLogic.Proofs.MalformedRecords
import TripleLogic.Proofs.Matching
import TripleLogic.Proofs.Mirror
import TripleLogic.Proofs.Misuse
import TripleLogic.Proofs.MisuseDocuments
import TripleLogic.Proofs.Monotonicity
import TripleLogic.Proofs.MostGeneral
import TripleLogic.Proofs.Naming
import TripleLogic.Proofs.NormalForm
import TripleLogic.Proofs.Numeral
import TripleLogic.Proofs.Passes
import TripleLogic.Proofs.Persistence
import TripleLogic.Proofs.Premises
import TripleLogic.Proofs.Publication
import TripleLogic.Proofs.Recall
import TripleLogic.Proofs.RecordFaults
import TripleLogic.Proofs.Records
import TripleLogic.Proofs.Responses
import TripleLogic.Proofs.RoundTrip
import TripleLogic.Proofs.Search
import TripleLogic.Proofs.Simulation
import TripleLogic.Proofs.SinglePremise
import TripleLogic.Proofs.Solving
import TripleLogic.Proofs.Spelling
import TripleLogic.Proofs.Support
import TripleLogic.Proofs.Symmetry
import TripleLogic.Proofs.Termination
import TripleLogic.Proofs.Tokens
import TripleLogic.Proofs.TypeViolations
import TripleLogic.Proofs.Unification
import TripleLogic.Proofs.Universe
import TripleLogic.Proofs.Variables
import TripleLogic.Proofs.WellFormed
import TripleLogic.Server
import TripleLogic.Server.Address
import TripleLogic.Server.Check
import TripleLogic.Server.Response
import TripleLogic.Settings
import TripleLogic.Statement.Basic
import TripleLogic.Statement.Record
import TripleLogic.Substitution
import TripleLogic.Text.Blank
import TripleLogic.Text.Cased
import TripleLogic.Text.CodePoints
import TripleLogic.Text.Digit
import TripleLogic.Text.Lowercase
import TripleLogic.Text.Percent
import TripleLogic.Text.Printable
import TripleLogic.Text.Quoted
import TripleLogic.Text.Utf8
import TripleLogic.Unification
import TripleLogic.Validity
import TripleLogic.Version
