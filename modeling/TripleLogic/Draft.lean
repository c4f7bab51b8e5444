/-
TripleLogic.Draft — the checks on nodes, and on drafts of nodes.

The checks go through what is handed in, and a value that is no node is a
problem of its own, named by its kind. What was loaded is made of nodes, and is
checked by its draft; the problems of a node go along its parts as those of a
draft do (`problems_compound`).

Main statement: equality of drafts is an equivalence (`same_refl`,
`same_symm`, `same_trans`).
-/
import TripleLogic.Validity

namespace TripleLogic

namespace Draft

/-- Whether there is nothing. -/
def isMissing : Draft → Bool
  | .foreign .null => true
  | _ => false

/-- The identifier of a rule. -/
def ruleId? : Draft → Option String
  | .rule id .. => some id
  | _ => none

/-! ## Equality -/

theorem same_refl (d : Draft) : d.same d = true := by
  induction d with
  | intent i => simp [same, Intent.same, (Statement.sameAll_iff _ _).2 rfl]
  | compound o a b iha ihb => simp [same, iha, ihb]
  | quantified q v a d ih => simp [same, ih]
  | rule i a b d x c iha ihb => simp [same, iha, ihb]
  | edge e => simp [same, Edge.same]
  | foreign v => exact (Data.same_iff v v).2 rfl

/-- Equal drafts are equal to the same drafts. -/
theorem same_congr {d e : Draft} (h : d.same e = true) (f : Draft) : d.same f = e.same f := by
  rw [Bool.eq_iff_iff]
  induction d generalizing e f with
  | intent i =>
      cases e with
      | intent j =>
          cases f with
          | intent k =>
              simp only [same, Intent.same, Bool.and_eq_true, beq_iff_eq,
                Statement.sameAll_iff] at h ⊢
              rw [h.1, h.2]
          | _ => simp [same]
      | _ => simp [same] at h
  | compound o a b iha ihb =>
      cases e with
      | compound p c d =>
          cases f with
          | compound q g k =>
              simp only [same, Bool.and_eq_true, beq_iff_eq] at h ⊢
              rw [h.1.1, iha h.1.2 g, ihb h.2 k]
          | _ => simp [same]
      | _ => simp [same] at h
  | quantified q v a d ih =>
      cases e with
      | quantified r w b e =>
          cases f with
          | quantified t u c f =>
              simp only [same, Bool.and_eq_true, beq_iff_eq] at h ⊢
              rw [h.1.1.1, h.1.1.2, h.1.2, ih h.2 c]
          | _ => simp [same]
      | _ => simp [same] at h
  | rule i a b _ _ _ iha ihb =>
      cases e with
      | rule j c d _ _ _ =>
          cases f with
          | rule k g t _ _ _ =>
              simp only [same, Bool.and_eq_true, beq_iff_eq] at h ⊢
              rw [h.1.1.1.1, h.1.1.1.2, h.1.1.2, iha h.1.2 g, ihb h.2 t]
          | _ => simp [same]
      | _ => simp [same] at h
  | edge i =>
      cases e with
      | edge j =>
          cases f with
          | edge k =>
              simp only [same, Edge.same, Bool.and_eq_true, beq_iff_eq] at h ⊢
              rw [h.1.1.1.1, h.1.1.1.2, h.1.1.2, h.1.2, h.2]
          | _ => simp [same]
      | _ => simp [same] at h
  | foreign v =>
      cases e with
      | foreign w =>
          cases f with
          | foreign u =>
              simp only [same, Data.same_iff] at h ⊢
              rw [h]
          | _ => simp [same]
      | _ => simp [same] at h

theorem same_symm {d e : Draft} (h : d.same e = true) : e.same d = true :=
  (same_congr h d).symm.trans (same_refl d)

theorem same_trans {d e f : Draft} (h : d.same e = true) (h' : e.same f = true) :
    d.same f = true :=
  (same_congr h f).trans h'

/-! ## Problems -/

/-- The problems of a draft, each with the path of the part that has it. -/
def problems (path : String) : Draft → List String
  | .intent i => i.problems path
  | .compound o a b =>
      arityProblems path o (!a.isMissing) (!b.isMissing)
        ++ (if a.isMissing then [] else problems (path ++ ".left") a)
        ++ (if b.isMissing then [] else problems (path ++ ".right") b)
  | .quantified _ v a _ =>
      (if v == "" then [path ++ ": quantified expression has no variable"] else [])
        ++ problems (path ++ ".body") a
  | .rule i a b _ _ c =>
      (if i == "" then [path ++ ": rule id is empty"] else [])
        ++ unitProblems (path ++ ": confidence") c
        ++ problems (path ++ ".premises") a ++ problems (path ++ ".conclusion") b
  | .edge e => e.problems path
  | .foreign v => [path ++ ": unknown node type " ++ v.kindName]

/-! ## Lists -/

/-- The path of the draft at a place of a list. -/
def indexPath (i : Nat) : String :=
  "nodes[" ++ toString i ++ "]"

/-- The rules met so far in a list: identifier, place and rule. -/
abbrev SeenRules := List (String × Nat × Draft)

/-- The problem of a rule whose identifier an earlier, different rule has. -/
def duplicateProblem (seen : SeenRules) (i : Nat) (id : String) (d : Draft) : List String :=
  match seen.lookup id with
  | some (j, earlier) =>
      if earlier.same d then []
      else [indexPath i ++ ": duplicate rule id '" ++ id ++ "' (first at " ++ indexPath j ++ ")"]
  | none => []

/-- The rules met so far, with one more unless an earlier one has its identifier. -/
def note (seen : SeenRules) (i : Nat) (id : String) (d : Draft) : SeenRules :=
  if (seen.lookup id).isSome then seen else seen ++ [(id, i, d)]

/-- The problems of a list of drafts from a place on. Rules without an
identifier are not compared. -/
def listProblemsFrom (seen : SeenRules) : (index : Nat) → List Draft → List String
  | _, [] => []
  | i, d :: rest =>
      let own := d.problems (indexPath i)
      match d.ruleId? with
      | some id =>
          if id == "" then own ++ listProblemsFrom seen (i + 1) rest
          else own ++ duplicateProblem seen i id d
            ++ listProblemsFrom (note seen i id d) (i + 1) rest
      | none => own ++ listProblemsFrom seen (i + 1) rest

/-- The problems of a list of drafts: those of every draft, and rules that share
an identifier without being equal. -/
def listProblems (drafts : List Draft) : List String :=
  listProblemsFrom [] 0 drafts

theorem isMissing_ofNode (n : Node) : (ofNode n).isMissing = false := by
  cases n <;> rfl

end Draft

/-! ## Nodes -/

namespace Node

/-- The problems of a node, each with the path of the node that has it. -/
def problems (path : String) (n : Node) : List String :=
  (Draft.ofNode n).problems path

/-- The problems of an operand that may be missing. -/
def operandProblems (path : String) : Option Node → List String
  | none => []
  | some a => problems path a

theorem operandProblems_eq (path : String) (a : Option Node) :
    (if (Draft.ofOperand a).isMissing then [] else (Draft.ofOperand a).problems path) =
      operandProblems path a := by
  cases a with
  | none => rfl
  | some n => rw [Draft.ofOperand, Draft.isMissing_ofNode, operandProblems, problems]; rfl

theorem not_isMissing_ofOperand (a : Option Node) :
    (!(Draft.ofOperand a).isMissing) = a.isSome := by
  cases a with
  | none => rfl
  | some n => rw [Draft.ofOperand, Draft.isMissing_ofNode]; rfl

theorem problems_compound (path : String) (o : Connective) (a b : Option Node) :
    (compound o a b).problems path = arityProblems path o a.isSome b.isSome
      ++ operandProblems (path ++ ".left") a ++ operandProblems (path ++ ".right") b := by
  rw [problems, Draft.ofNode, Draft.problems, operandProblems_eq, operandProblems_eq,
    not_isMissing_ofOperand, not_isMissing_ofOperand]

theorem problems_quantified (path : String) (q : Quantifier) (v : String) (a : Node)
    (d : Option String) : (quantified q v a d).problems path =
      (if v == "" then [path ++ ": quantified expression has no variable"] else [])
        ++ a.problems (path ++ ".body") := rfl

theorem problems_rule (path i : String) (a b : Node) (d : Option String) (x : Bool) (c : Data) :
    (rule i a b d x c).problems path =
      (if i == "" then [path ++ ": rule id is empty"] else [])
        ++ unitProblems (path ++ ": confidence") c
        ++ a.problems (path ++ ".premises") ++ b.problems (path ++ ".conclusion") := rfl

/-- The problems of a list of nodes: those of every node, and rules that share an
identifier without being equal. -/
def listProblems (nodes : List Node) : List String :=
  Draft.listProblems (nodes.map Draft.ofNode)

/-- Refuse a list of nodes that has problems. -/
def assertAll (nodes : List Node) : Except Fault Unit :=
  match listProblems nodes with
  | [] => .ok ()
  | ps => .error (.invalid (toString ps.length ++ " validation error(s) in knowledge base") ps)

end Node

end TripleLogic
