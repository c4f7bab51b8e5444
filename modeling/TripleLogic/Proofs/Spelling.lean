/-
TripleLogic.Proofs.Spelling — expressions that are written as plain data and
read again.

Most expressions come back as they were. Two do not: a null literal is
written as null, which is no expression, and a bare name between angle
brackets is read as a concept, unless it is the value of an attribute, where
names are written as objects. `respelled` is what is read from what is
written for an expression without null literals (`ofData_toData`); nothing is
read if there is one (`null_not_mem_literals`). The two are equal exactly
when no exposed name stands between angle brackets (`respelled_same_iff`).
-/
import TripleLogic.Proofs.Keys
import TripleLogic.Expr.Record

namespace TripleLogic

/-! ## Reading lists -/

section

variable {α β : Type} {f : α → Except Fault β}

/-- A list is read item by item. -/
theorem mapM_eq_ok {g : α → β} : ∀ {xs : List α}, (∀ x ∈ xs, f x = .ok (g x)) →
    xs.mapM f = .ok (xs.map g)
  | [], _ => rfl
  | x :: xs, h => by
      rw [List.forall_mem_cons] at h
      rw [List.mapM_cons, h.1, mapM_eq_ok h.2]
      rfl

/-- Where a list is read, all its items are read. -/
theorem exists_of_mapM : ∀ {xs : List α} {ys : List β}, xs.mapM f = .ok ys →
    ∀ x ∈ xs, ∃ y, f x = .ok y
  | [], _, _ => nofun
  | x :: xs, ys, h => by
      rw [List.mapM_cons] at h
      obtain ⟨y, hy, h⟩ := bind_eq_ok_iff.1 h
      obtain ⟨zs, hzs, -⟩ := bind_eq_ok_iff.1 h
      exact List.forall_mem_cons.2 ⟨⟨y, hy⟩, exists_of_mapM hzs⟩

/-- What is read from a list is read from its items. -/
theorem exists_of_mem_mapM : ∀ {xs : List α} {ys : List β}, xs.mapM f = .ok ys →
    ∀ y ∈ ys, ∃ x ∈ xs, f x = .ok y
  | [], _, h => by
      cases h
      exact nofun
  | x :: xs, ys, h => by
      rw [List.mapM_cons] at h
      obtain ⟨y, hy, h⟩ := bind_eq_ok_iff.1 h
      obtain ⟨zs, hzs, h⟩ := bind_eq_ok_iff.1 h
      cases h
      refine List.forall_mem_cons.2 ⟨⟨x, List.mem_cons_self .., hy⟩, fun z hz => ?_⟩
      obtain ⟨w, hw, hwz⟩ := exists_of_mem_mapM hzs z hz
      exact ⟨w, List.mem_cons_of_mem _ hw, hwz⟩

end

/-! ## Names between angle brackets -/

/-- Whether a name stands between angle brackets. -/
def isBracketed (name : String) : Bool :=
  decide (2 ≤ name.length) && name.toList.head? == some '<' && name.toList.getLast? == some '>'

theorem bracketed?_eq_none_iff {name : String} :
    bracketed? name.toList = none ↔ isBracketed name = false := by
  rw [isBracketed, ← String.length_toList]
  cases name.toList with
  | nil => simp [bracketed?]
  | cons c cs =>
      by_cases hc : c = '<'
      · subst hc
        cases cs with
        | nil => simp [bracketed?]
        | cons d ds =>
            simp only [bracketed?, List.length_cons, List.head?_cons, List.getLast?_cons_cons]
            split <;> simp_all
      · simp [bracketed?, hc]

/-- What is put between angle brackets stands between them. -/
theorem bracketed?_brackets (name : String) :
    bracketed? ("<" ++ name ++ ">").toList = some name.toList := by
  simp [bracketed?, String.toList_append]

namespace Expr

/-! ## What an expression holds -/

mutual

/-- The values of the literals in an expression. -/
def literals : Expr → List Scalar
  | .concept _ => []
  | .identifier _ => []
  | .literal s => [s]
  | .composite _ => []
  | .unary _ a => literals a
  | .binary _ a b => literals a ++ literals b
  | .application _ as => literalsAll as
  | .lambda _ a => literals a

/-- The values of the literals in a list of expressions. -/
def literalsAll : List Expr → List Scalar
  | [] => []
  | a :: as => literals a ++ literalsAll as

end

mutual

/-- The names of the identifiers in an expression. An identifier that is
itself the value of an attribute does not count. -/
def exposed : Expr → (inAttribute : Bool) → List String
  | .concept _, _ => []
  | .identifier name, inAttribute => if inAttribute then [] else [name]
  | .literal _, _ => []
  | .composite _, _ => []
  | .unary _ a, _ => exposed a false
  | .binary _ a b, _ => exposed a false ++ exposed b false
  | .application _ as, _ => exposedAll as
  | .lambda _ a, _ => exposed a false

/-- The names of the identifiers in a list of expressions. -/
def exposedAll : List Expr → List String
  | [] => []
  | a :: as => exposed a false ++ exposedAll as

end

mutual

/-- An expression as it is read from what is written for it. -/
def respelled : Expr → (inAttribute : Bool) → Expr
  | .concept name, _ => .concept name
  | .identifier name, inAttribute =>
      if inAttribute then .identifier name else ofString false name
  | .literal s, _ => .literal s
  | .composite d, _ => .composite d
  | .unary o a, _ => .unary o (respelled a false)
  | .binary o a b, _ => .binary o (respelled a false) (respelled b false)
  | .application f as, _ => .application f (respelledAll as)
  | .lambda ps a, _ => .lambda ps (respelled a false)

/-- Expressions as they are read from what is written for them. -/
def respelledAll : List Expr → List Expr
  | [] => []
  | a :: as => respelled a false :: respelledAll as

end

theorem mem_literalsAll {as : List Expr} {s : Scalar} :
    s ∈ literalsAll as ↔ ∃ a ∈ as, s ∈ a.literals := by
  induction as with
  | nil => simp [literalsAll]
  | cons a as ih => simp [literalsAll, ih]

theorem mem_exposedAll {as : List Expr} {name : String} :
    name ∈ exposedAll as ↔ ∃ a ∈ as, name ∈ a.exposed false := by
  induction as with
  | nil => simp [exposedAll]
  | cons a as ih => simp [exposedAll, ih]

theorem respelledAll_eq_map (as : List Expr) :
    respelledAll as = as.map fun a => a.respelled false := by
  induction as with
  | nil => rfl
  | cons a as ih => simp only [respelledAll, ih, List.map_cons]

theorem toDataAll_eq_map (as : List Expr) : toDataAll as = as.map fun a => a.toData false := by
  induction as with
  | nil => rfl
  | cons a as ih => simp only [toDataAll, ih, List.map_cons]

/-! ## Reading what was written -/

section

variable {o f : String} {ps : List String} {a b e : Expr} {as : List Expr} {inAttribute : Bool}

theorem ofData_unary_iff :
    ofData ((Expr.unary o a).toData inAttribute) inAttribute = .ok e ↔
      ∃ a', ofData (a.toData false) false = .ok a' ∧ .unary o a' = e :=
  named_map_eq_ok_iff

theorem ofData_binary_iff :
    ofData ((Expr.binary o a b).toData inAttribute) inAttribute = .ok e ↔
      ∃ a' b', ofData (a.toData false) false = .ok a' ∧ ofData (b.toData false) false = .ok b' ∧
        .binary o a' b' = e :=
  named_map₂_eq_ok_iff

theorem ofData_application_iff :
    ofData ((Expr.application f as).toData inAttribute) inAttribute = .ok e ↔
      ∃ as', as.mapM (fun a => ofData (a.toData false) false) = .ok as' ∧
        .application f as' = e := by
  have hlist : ∀ as : List Expr,
      loadEach (toDataAll as) = as.map fun a => load (a.toData false) false := by
    intro as
    induction as with
    | nil => rfl
    | cons a as ih => simp only [toDataAll, loadEach, ih, List.map_cons]
  have hread : ofData ((Expr.application f as).toData inAttribute) inAttribute
      = named (do return .application f <$> (← readEach id (loadEach (toDataAll as)))) := rfl
  rw [hread, named_map_eq_ok_iff, hlist]
  simp only [named_eq_ok_iff, readEach_eq_ok_iff, List.mapM_map]
  rfl

/-- Texts are texts. -/
theorem mapM_text? (ps : List String) : (ps.map Data.str).mapM Data.text? = some ps := by
  induction ps with
  | nil => rfl
  | cons p ps ih => simp [List.mapM_cons, ih, Data.text?]

theorem ofData_lambda_iff :
    ofData ((Expr.lambda ps a).toData inAttribute) inAttribute = .ok e ↔
      ∃ a', ofData (a.toData false) false = .ok a' ∧ .lambda ps a' = e := by
  have hread : ofData ((Expr.lambda ps a).toData inAttribute) inAttribute
      = named (do
        let a ← load (a.toData false) false
        return .lambda <$> (ps.map Data.str).mapM Data.text? <*> a) := rfl
  rw [hread, mapM_text?]
  exact named_map_eq_ok_iff

end

/-- Only a text that begins with an angle bracket can stand between two. -/
theorem bracketed?_of_head? {cs : List Char} (h : cs.head? ≠ some '<') : bracketed? cs = none := by
  cases cs with
  | nil => rfl
  | cons c cs =>
      have hc : c ≠ '<' := by simpa using h
      simp [bracketed?, hc]

theorem ofData_identifierData (name : String) (inAttribute : Bool) :
    ofData (identifierData inAttribute name) inAttribute
      = .ok (respelled (.identifier name) inAttribute) := by
  cases inAttribute with
  | false => rfl
  | true =>
      cases hv : isVariableName name with
      | false =>
          simp only [identifierData, hv]
          rfl
      | true =>
          -- A variable is written as it stands, and no angle bracket begins it.
          have hhead : name.toList.head? = some '?' := by simpa [isVariableName] using hv
          have hnone : bracketed? name.toList = none :=
            bracketed?_of_head? (by simp [hhead])
          simp [identifierData, hv, ofData, load, ofString, hnone, respelled, named]

theorem ofData_scalarData {s : Scalar} (h : s ≠ .null) (inAttribute : Bool) :
    ofData (scalarData inAttribute s) inAttribute = .ok (.literal s) := by
  cases s with
  | null => exact absurd rfl h
  | bool b => rfl
  | num n => rfl
  | str s =>
      simp only [scalarData]
      split
      · next hplain =>
          simp only [Bool.and_eq_true, Bool.not_eq_true', Bool.or_eq_false_iff] at hplain
          obtain ⟨rfl, hhead, hv⟩ := hplain
          have hnone : bracketed? s.toList = none :=
            bracketed?_of_head? (by simpa using hhead)
          simp [ofData, load, ofString, hnone, hv, named]
      · rfl

/-- What is read from what is written for an expression without null and
composite literals. -/
theorem ofData_toData {e : Expr} (hkey : e.composite? = none) (hnull : .null ∉ e.literals)
    (inAttribute : Bool) :
    ofData (e.toData inAttribute) inAttribute = .ok (e.respelled inAttribute) := by
  induction e using Expr.ind generalizing inAttribute with
  | concept name =>
      simp only [toData, ofData, load, named, ofString, bracketed?_brackets, String.ofList_toList,
        respelled]
  | identifier name => exact ofData_identifierData name inAttribute
  | literal s =>
      exact ofData_scalarData (fun hs => hnull (by simp [literals, hs])) inAttribute
  | composite d => cases hkey
  | unary o a ih => exact ofData_unary_iff.2 ⟨_, ih hkey hnull false, rfl⟩
  | binary o a b iha ihb =>
      simp only [composite?, Option.orElse_eq_orElse, Option.orElse_eq_or,
        Option.or_eq_none_iff] at hkey
      simp only [literals, List.mem_append, not_or] at hnull
      exact ofData_binary_iff.2
        ⟨_, _, iha hkey.1 hnull.1 false, ihb hkey.2 hnull.2 false, rfl⟩
  | application f as ih =>
      simp only [literals, mem_literalsAll] at hnull
      have hargs : as.mapM (fun a => ofData (a.toData false) false)
          = .ok (as.map fun a => a.respelled false) := by
        refine mapM_eq_ok fun a ha => ?_
        exact ih a ha (compositeIn?_eq_none.1 hkey a ha) (fun hn => hnull ⟨a, ha, hn⟩) false
      rw [respelled, respelledAll_eq_map]
      exact ofData_application_iff.2 ⟨_, hargs, rfl⟩
  | lambda ps a ih => exact ofData_lambda_iff.2 ⟨_, ih hkey hnull false, rfl⟩

/-- Where something is read from what is written for an expression without
composite literals, there is no null literal in it. -/
theorem null_not_mem_literals {e f : Expr} (hkey : e.composite? = none) {inAttribute : Bool}
    (h : ofData (e.toData inAttribute) inAttribute = .ok f) : .null ∉ e.literals := by
  induction e using Expr.ind generalizing inAttribute f with
  | concept name => simp [literals]
  | identifier name => simp [literals]
  | literal s =>
      intro hs
      cases List.mem_singleton.1 hs
      cases h
  | composite d => cases hkey
  | unary o a ih =>
      obtain ⟨a', ha, -⟩ := ofData_unary_iff.1 h
      exact ih hkey ha
  | binary o a b iha ihb =>
      simp only [composite?, Option.orElse_eq_orElse, Option.orElse_eq_or,
        Option.or_eq_none_iff] at hkey
      obtain ⟨a', b', ha, hb, -⟩ := ofData_binary_iff.1 h
      simp only [literals, List.mem_append, not_or]
      exact ⟨iha hkey.1 ha, ihb hkey.2 hb⟩
  | application f as ih =>
      obtain ⟨as', has, -⟩ := ofData_application_iff.1 h
      simp only [literals, mem_literalsAll]
      rintro ⟨a, ha, hnull⟩
      obtain ⟨a', ha'⟩ := exists_of_mapM has a ha
      exact ih a ha (compositeIn?_eq_none.1 hkey a ha) ha' hnull
  | lambda ps a ih =>
      obtain ⟨a', ha, -⟩ := ofData_lambda_iff.1 h
      exact ih hkey ha

/-! ## When an expression comes back -/

theorem ofString_same_iff (name : String) :
    (ofString false name).same (.identifier name) = true ↔ isBracketed name = false := by
  rw [← bracketed?_eq_none_iff]
  cases hb : bracketed? name.toList <;> simp [ofString, hb, same]

theorem sameAll_map_iff {f : Expr → Expr} {as : List Expr} :
    sameAll (as.map f) as = true ↔ ∀ a ∈ as, (f a).same a = true := by
  induction as with
  | nil => simp [sameAll]
  | cons a as ih => simp [sameAll, ih]

/-- An expression that is read from what was written is equal to it if and
only if no exposed name stands between angle brackets. -/
theorem respelled_same_iff (e : Expr) (inAttribute : Bool) :
    (e.respelled inAttribute).same e = true ↔
      ∀ name ∈ e.exposed inAttribute, isBracketed name = false := by
  induction e using Expr.ind generalizing inAttribute with
  | concept name => simp [respelled, exposed, same]
  | identifier name =>
      cases inAttribute with
      | false => simp [respelled, exposed, ofString_same_iff]
      | true => simp [respelled, exposed, same]
  | literal s => simp [respelled, exposed, same_iff]
  | composite d => simp [respelled, exposed, same_iff]
  | unary o a ih => simp [respelled, exposed, same, ih]
  | binary o a b iha ihb =>
      simp only [respelled, exposed, same, beq_self_eq_true, Bool.true_and, Bool.and_eq_true, iha,
        ihb, List.forall_mem_append]
  | application f as ih =>
      simp only [respelled, exposed, same, beq_self_eq_true, Bool.true_and, respelledAll_eq_map,
        sameAll_map_iff, mem_exposedAll]
      constructor
      · rintro h name ⟨a, ha, hname⟩
        exact (ih a ha false).1 (h a ha) name hname
      · intro h a ha
        exact (ih a ha false).2 fun name hname => h name ⟨a, ha, hname⟩
  | lambda ps a ih => simp [respelled, exposed, same, ih]

end Expr

end TripleLogic
