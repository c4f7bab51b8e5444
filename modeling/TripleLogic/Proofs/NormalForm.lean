/-
TripleLogic.Proofs.NormalForm — the record of a node is a normal form.

Reading forgets how a record was put: `then` becomes `implies`, an empty tense
and what does not count as present are dropped, metadata and parameters may
come as any sequence, attributes are sorted. Writing what was read gives a
record in which nothing is left to forget. One difference survives a reading:
a bare name between angle brackets comes back as a concept. But a concept is
written between angle brackets, so the record of either is the same
(`toData_ofString`), and with it the records of all that holds such names
(`toData_respelled`).

Main statement: what is written for a node is read again, and what is then
written is the same record (`record_stable`).
-/
import TripleLogic.Proofs.RoundTrip

namespace TripleLogic

/-! ## Expressions -/

/-- What stands between angle brackets is what is left without them. -/
theorem eq_of_bracketed? {cs inside : List Char} (h : bracketed? cs = some inside) :
    cs = '<' :: inside ++ ['>'] := by
  unfold bracketed? at h
  split at h
  · next rest =>
      obtain ⟨hlast, hinside⟩ := Option.ite_none_right_eq_some.1 h
      have hlast : rest.getLast? = some '>' := by simpa using hlast
      cases hinside
      rw [List.cons_append, ← List.dropLast_append_getLast? '>' hlast]
      simp
  · cases h

namespace Expr

/-- A bare text is written as it was read. -/
theorem toData_ofString (name : String) : (ofString false name).toData false = .str name := by
  cases hb : bracketed? name.toList with
  | none => simp [ofString, hb, toData, identifierData]
  | some inside =>
      have hname : "<" ++ String.ofList inside ++ ">" = name := by
        apply String.toList_inj.1
        rw [eq_of_bracketed? hb]
        simp
      simp only [ofString, hb, toData, hname]

/-- An expression that was written and read again is written as before. -/
theorem toData_respelled (e : Expr) (inAttribute : Bool) :
    (e.respelled inAttribute).toData inAttribute = e.toData inAttribute := by
  induction e using Expr.ind generalizing inAttribute with
  | identifier name =>
      cases inAttribute with
      | false => simpa [respelled, toData, identifierData] using toData_ofString name
      | true => rfl
  | unary o a ih => simp only [respelled, toData, ih]
  | binary o a b iha ihb => simp only [respelled, toData, iha, ihb]
  | application f as ih =>
      have has : (respelledAll as).map (fun a => a.toData false)
          = as.map fun a => a.toData false := by
        rw [respelledAll_eq_map, List.map_map]
        exact List.map_congr_left fun a ha => ih a ha false
      simp only [respelled, toData, toDataAll_eq_map, has]
  | lambda ps a ih => simp only [respelled, toData, ih]
  | _ => rfl

end Expr

/-! ## Statements and nodes -/

theorem Relation.toData_respelled (r : Relation) : r.respelled.toData = r.toData := by
  have hnull : Data.null.truthy = false := rfl
  cases ht : r.tense.truthy <;> simp [respelled, toData, Data.orNull, ht, hnull]

theorem Statement.toData_respelled (s : Statement) : s.respelled.toData = s.toData := by
  obtain ⟨subject, relation, object, attributes⟩ := s
  cases attributes <;>
    simp [toData, respelled, Expr.toData_respelled, Relation.toData_respelled]

namespace Node

/-- A node that was written and read again is written as before. -/
theorem toData_respelled (n : Node) : n.respelled.toData = n.toData := by
  induction n using Node.ind with
  | intent i =>
      have hstatements : (i.statements.map Statement.respelled).map Statement.toData
          = i.statements.map Statement.toData := by
        rw [List.map_map]
        exact List.map_congr_left fun s _ => s.toData_respelled
      simp only [respelled, toData, hstatements]
  | compound o a b iha ihb =>
      have hfield : ∀ (key : String) (a : Option Node),
          (∀ n, a = some n → n.respelled.toData = n.toData) →
            operandField key (respelledOperand a) = operandField key a := by
        intro key a ih
        cases a with
        | none => rfl
        | some n => simp only [respelledOperand, operandField, ih n rfl]
      simp only [respelled, toData, hfield _ a iha, hfield _ b ihb]
  | quantified q v a d ih => simp only [respelled, toData, ih]
  | rule i a b d x c iha ihb => simp only [respelled, toData, iha, ihb]
  | edge e => rfl

/-! ## The normal form -/

/-- **The record of a node is a normal form.** What is written for a node that
was read, and has scalar literals only of which none is null, is read again,
and the node that is read is written as the same record. -/
theorem record_stable (d : Data) (n : Node) (hread : ofData d = .ok n) (hkey : n.isKey = true)
    (hnull : .null ∉ n.literals) :
    ∃ m, ofData n.toData = .ok m ∧ m.toData = n.toData :=
  ⟨n.respelled, (reads_iff hread hkey).2 ⟨hnull, rfl⟩, n.toData_respelled⟩

/-- The record of a forecast, put in a roundabout way: names between angle
brackets as identifiers, parameters as a text, metadata as a list of pairs. -/
def forecastRecord : Data :=
  .obj [("operator", .str "then"),
    ("left", .obj [("type", .str "Intent"), ("kind", .str "!Assert"), ("metadata", .list [.str "ab"]),
      ("statements", .list [.obj [
        ("subject", .obj [("type", .str "Identifier"), ("name", .str "<Sky>")]),
        ("relation", .obj [("name", .str "shows"), ("tense", .str "")]),
        ("object", .obj [("type", .str "Lambda"), ("parameters", .str "xy"),
          ("body", .obj [("type", .str "Identifier"), ("name", .str "<Cloud>")])]),
        ("attributes", .obj [("unit", .obj [("type", .str "Identifier"), ("name", .str "<okta>")]),
          ("cover", .num (.int 7))])]])]),
    ("right", .obj [("type", .str "Relationship"), ("kind", .str "causal"), ("source", .str "cloud"),
      ("target", .str "rain"), ("relation", .str "brings"), ("bidirectional", .num (.int 0))]),
    ("type", .str "LogicalExpression")]

/-- The forecast. -/
def forecast : Node :=
  implies
    (.intent {
      kind := "!Assert"
      statements := [{
        subject := .identifier "<Sky>", relation := { name := "shows", tense := .str "" }
        object := .lambda ["x", "y"] (.identifier "<Cloud>")
        attributes := [("cover", .literal (.num (.int 7))), ("unit", .identifier "<okta>")] }]
      metadata := [(.str "a", .str "b")] })
    (.edge { kind := .causal, source := "cloud", target := "rain", name := "brings" })

/-- The forecast comes back with a concept for a name, and so is not equal to
what it was, but it is written the same. -/
theorem forecast_record_stable :
    ofData forecastRecord = .ok forecast ∧ forecast.isKey = true ∧ .null ∉ forecast.literals ∧
      ∃ m, ofData forecast.toData = .ok m ∧ m.same forecast = false ∧
        m.toData = forecast.toData := by
  have hsorted : Attributes.sorted
      [("unit", .identifier "<okta>"), ("cover", .literal (.num (.int 7)))] =
        [("cover", .literal (.num (.int 7))), ("unit", .identifier "<okta>")] := by
    simp [Attributes.sorted, List.mergeSort, List.MergeSort.Internal.splitInTwo, List.splitAt,
      List.splitAt.go]
  have hread : ofData forecastRecord = .ok forecast := by
    rw [forecast, ← hsorted]
    rfl
  have hkey : forecast.isKey = true := by decide
  have hnull : .null ∉ forecast.literals := by decide
  obtain ⟨m, hm, hdata⟩ := record_stable forecastRecord forecast hread hkey hnull
  have hsame : m.same forecast = false := by
    rw [((reads_iff hread hkey).1 hm).2]
    decide
  exact ⟨hread, hkey, hnull, m, hm, hsame, hdata⟩

end Node

end TripleLogic
