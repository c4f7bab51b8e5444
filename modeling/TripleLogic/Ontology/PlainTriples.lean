/-
TripleLogic.Ontology.PlainTriples — a reader for files of plain triples.

The ending of a path tells whether a file has a triple on each line or
statements over several lines. What is more than plain triples is refused:
prefixes, collections and blank nodes in brackets, and the formats that are
not made of statements. A program whose ontologies need these has to be given
a reader of its own.
-/
import TripleLogic.Loading
import TripleLogic.Ontology.Turtle
import TripleLogic.Text.Percent

namespace TripleLogic.PlainTriples

/-- The formats of files of triples. -/
inductive Format where
  /-- One triple on each line. -/
  | lines
  /-- Statements; these characters open and close literals. -/
  | statements (quotes : List Char)
  /-- A format that is not read here. -/
  | unread
  deriving DecidableEq, Repr

/-- The format of a file by the ending of its path. -/
def Format.ofEnding (ending : String) : Format :=
  if ending == ".nt" then .lines
  else if ending == ".n3" then .statements ['"']
  else if [".owl", ".rdf", ".xml", ".jsonld"].contains ending then .unread
  else .statements ['"', '\x27']

/-- The address of a file; the folder has a place of its own. -/
def address (path : String) : Turtle.Address :=
  let parts := (Path.resolved path).map Text.toPercent
  { directories := "home" :: "folder" :: parts.dropLast, name := parts.getLast?.getD "" }

/-- Read a text of triples in a format. -/
def graph? (address : Turtle.Address) (text : String) : Format → Option Rdf.Graph
  | .lines => NTriples.parse? text
  | .statements quotes => Turtle.parse? { address, quotes } text
  | .unread => none

/-- Read a file of plain triples; every part of the path counts. -/
def reader : TripleReader := fun f path =>
  match f.find path path with
  | .ok (.file text) =>
      (graph? (address path) text (.ofEnding (Path.ending path))).map Rdf.Graph.pairs
  | _ => none

end TripleLogic.PlainTriples
