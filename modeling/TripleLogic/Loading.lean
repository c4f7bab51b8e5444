/-
TripleLogic.Loading — knowledge bases and ontologies from files.

The extension of a file says what it holds: an ontology document in JSON, or
triples in one of several formats. How files of triples are read is left open:
a `TripleReader` tells what is in one, predicate by predicate.
-/
import TripleLogic.Folder
import TripleLogic.Node.Record
import TripleLogic.Ontology.Rdf

namespace TripleLogic

/-- How files of triples are read: the subjects and objects of each predicate
in the file at a path of a folder, if it can be read. -/
abbrev TripleReader := Folder → String → Option Rdf.Index

namespace Folder

/-- Load the nodes of a knowledge base. -/
def loadNodes (f : Folder) (path : String) : Except Fault (List Node) :=
  match f.read path with
  | .error cause => .error (.ofUnreadable (fun u => .malformed (.unreadable path u)) cause)
  | .ok text =>
      match Json.parse text with
      | .error refusal => .error (.ofRefusal (fun f => .malformed (.badJson path f)) refusal)
      | .ok d => Node.listOfData d

/-- Load an ontology document in JSON. -/
def loadJsonDocument (f : Folder) (path : String) : Except Fault Document :=
  match f.read path with
  | .error cause => .error (.ofUnreadable (fun u => .ontology (.unreadable path u)) cause)
  | .ok text =>
      match Json.parse text with
      | .error refusal => .error (.ofRefusal (fun f => .ontology (.badJson path f)) refusal)
      | .ok d => Document.ofData d

/-- Extensions of files of triples. -/
def tripleExtensions : List String :=
  [".ttl", ".owl", ".rdf", ".xml", ".nt", ".n3", ".jsonld"]

/-- Load an ontology document from triples. -/
def loadTriples (reader : TripleReader) (f : Folder) (path : String) : Except Fault Document :=
  match reader f path with
  | some index => .ok (Rdf.documentOf index)
  | none => .error (.ontology (.triples path))

/-- Load an ontology document by the extension of its file. -/
def loadDocument (reader : TripleReader) (f : Folder) (path : String) : Except Fault Document :=
  let ext := Path.extension path
  if ext == ".json" then f.loadJsonDocument path
  else if tripleExtensions.contains ext then loadTriples reader f path
  else .error (.ontology (.format path ext))

end Folder

end TripleLogic
