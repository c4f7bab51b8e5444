/-
TripleLogic.Proofs.Numeral — whole numbers are read back from their texts.

The text of a whole number is an optional minus and decimal digits of the
Latin script. Reading it takes the sign off, then takes all digits, and
evaluates them (`int?_toString`). The one side condition is that of reading:
no more than `maxDigits` digits.
-/
import TripleLogic.Number.Numeral

namespace TripleLogic

namespace Text

/-! ## Blanks -/

/-- A text that neither begins nor ends with a blank is left as it is. -/
theorem trimWith_eq_self {blank : Char → Bool} {cs : List Char}
    (hhead : ∀ c, cs.head? = some c → blank c = false)
    (hlast : ∀ c, cs.getLast? = some c → blank c = false) : trimWith blank cs = cs := by
  have hkeep : ∀ ds : List Char, (∀ c, ds.head? = some c → blank c = false) →
      ds.dropWhile blank = ds := by
    intro ds hds
    cases ds with
    | nil => rfl
    | cons c ds => rw [List.dropWhile_cons_of_neg (by simp [hds c rfl])]
  rw [trimWith, hkeep cs hhead, hkeep cs.reverse, List.reverse_reverse]
  intro c hc
  exact hlast c (List.head?_reverse ▸ hc)

/-! ## Digits -/

theorem isDigit_iff {c : Char} : c.isDigit = true ↔ 48 ≤ c.toNat ∧ c.toNat ≤ 57 := by
  simp only [Char.isDigit, Bool.and_eq_true, decide_eq_true_eq, ge_iff_le, UInt32.le_iff_toNat_le]
  rfl

/-- A digit of the Latin script stands for its distance from zero. -/
theorem digit?_of_isDigit {c : Char} (h : c.isDigit = true) :
    digit? c = some (c.toNat - 48) := by
  obtain ⟨hlow, hhigh⟩ := isDigit_iff.1 h
  -- The run of Latin digits is the first of the table.
  have hfirst : (decide (48 ≤ c.toNat) && decide (c.toNat < 48 + 10)) = true := by
    simp only [Bool.and_eq_true, decide_eq_true_eq]
    omega
  have hfind : digitZeros.find? (fun z => z ≤ c.toNat && c.toNat < z + 10) = some 48 :=
    List.find?_cons_of_pos (p := fun z => z ≤ c.toNat && c.toNat < z + 10) hfirst
  rw [digit?, hfind, Option.map_some]

theorem isBlank_of_isDigit {c : Char} (h : c.isDigit = true) : isBlank c = false := by
  obtain ⟨hlow, hhigh⟩ := isDigit_iff.1 h
  simp only [isBlank, isPlainBlank, Bool.or_eq_false_iff, Bool.and_eq_false_iff,
    decide_eq_false_iff_not, beq_eq_false_iff_ne]
  omega

end Text

namespace Numeral

open Text

theorem takeMore_of_isDigit : ∀ {cs : List Char}, (∀ c ∈ cs, c.isDigit = true) →
    takeMore cs = (cs.map fun c => c.toNat - 48, [])
  | [], _ => by simp [takeMore]
  | c :: cs, h => by
      obtain ⟨hc, hcs⟩ := List.forall_mem_cons.1 h
      have hne : c ≠ '_' := by
        rintro rfl
        cases hc
      rw [takeMore.eq_3 _ _ (fun _ _ heq _ => hne heq)]
      simp only [digit?_of_isDigit hc, takeMore_of_isDigit hcs, List.map_cons]

/-- All digits of a text of digits are taken. -/
theorem takeDigits_of_isDigit {cs : List Char} (h : ∀ c ∈ cs, c.isDigit = true) :
    takeDigits cs = (cs.map fun c => c.toNat - 48, []) := by
  cases cs with
  | nil => rfl
  | cons c cs =>
      obtain ⟨hc, hcs⟩ := List.forall_mem_cons.1 h
      simp only [takeDigits, digit?_of_isDigit hc, takeMore_of_isDigit hcs, List.map_cons]

/-- A text of digits has no sign. -/
theorem takeSign_of_isDigit {cs : List Char} (h : ∀ c ∈ cs, c.isDigit = true) :
    takeSign cs = (false, cs) := by
  unfold takeSign
  split
  · cases h '-' List.mem_cons_self
  · cases h '+' List.mem_cons_self
  · rfl

/-- Digits are evaluated as they are when they are written. -/
theorem ofDigits_toDigits (n : Nat) :
    ofDigits ((Nat.toDigits 10 n).map fun c => c.toNat - 48) = n := by
  rw [ofDigits, List.foldl_map]
  exact Nat.ofDigitChars_ten_toDigits

theorem isDigit_toDigits (n : Nat) : ∀ c ∈ Nat.toDigits 10 n, c.isDigit = true :=
  fun _ hc => Nat.isDigit_of_mem_toDigits (by decide) (by decide) hc

/-- What is read after a sign are the digits of a number. -/
theorem int?_of_takeSign {cs : List Char} {neg : Bool} {n : Nat}
    (hsign : takeSign cs = (neg, Nat.toDigits 10 n))
    (h : (Nat.toDigits 10 n).length ≤ maxDigits) :
    int? cs = some (if neg = true then -(n : Int) else n) := by
  simp [int?, hsign, takeDigits_of_isDigit (isDigit_toDigits n), ofDigits_toDigits,
    Nat.toDigits_ne_nil, Nat.not_lt.2 h]

theorem toList_toString_ofNat (n : Nat) : (toString (n : Int)).toList = Nat.toDigits 10 n :=
  Nat.toList_repr

theorem toList_toString_negSucc (n : Nat) :
    (toString (Int.negSucc n)).toList = '-' :: Nat.toDigits 10 (n + 1) := by
  simp [Int.toString_eq_repr, Int.repr, Nat.toList_repr]

/-- **A whole number is read back from its text**, if it has no more digits
than are read. -/
theorem int?_toString {n : Int} (h : (Nat.toDigits 10 n.natAbs).length ≤ maxDigits) :
    int? (toString n).toList = some n := by
  cases n with
  | ofNat m =>
      have hsign : takeSign (toString (Int.ofNat m)).toList = (false, Nat.toDigits 10 m) := by
        rw [Int.ofNat_eq_natCast, toList_toString_ofNat, takeSign_of_isDigit (isDigit_toDigits m)]
      exact int?_of_takeSign hsign h
  | negSucc m =>
      have hsign : takeSign (toString (Int.negSucc m)).toList = (true, Nat.toDigits 10 (m + 1)) := by
        rw [toList_toString_negSucc]
        rfl
      exact int?_of_takeSign hsign h

/-- The text of a whole number consists of digits and perhaps a minus. -/
theorem mem_toString {n : Int} {c : Char} (hc : c ∈ (toString n).toList) :
    c = '-' ∨ c.isDigit = true := by
  cases n with
  | ofNat m =>
      rw [Int.ofNat_eq_natCast, toList_toString_ofNat] at hc
      exact .inr (isDigit_toDigits m c hc)
  | negSucc m =>
      rw [toList_toString_negSucc, List.mem_cons] at hc
      exact hc.imp id (isDigit_toDigits (m + 1) c)

end Numeral

end TripleLogic
