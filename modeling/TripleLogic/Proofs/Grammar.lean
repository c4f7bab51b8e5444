/-
TripleLogic.Proofs.Grammar — the grammar of names and the range of weights, told
without the checks.

A word begins with a letter or an underscore and goes on with letters, digits
and underscores. A text spells a lead and a word; one line feed after the word
is allowed (`Spells`). The name of a relation is a word, after a question mark
if it is a variable; the marker of an intent is a word, after an optional
exclamation mark; the name of a term is not empty, and a question mark and a
word if it begins with a question mark. A weight is missing, or a number whose
value, as a rational number, lies between zero and one.

The checks read a name from the left, after its final line feed was dropped, and
tell the range of a floating-point number from its digits. Main statements: they
accept the names of the grammar (`isMarkedWord_iff`, `nameProblems_eq_nil_iff`)
and the weights (`Data.inUnit_iff`), and nothing else.
-/
import Mathlib.Algebra.Order.Field.Power
import Mathlib.Algebra.Order.Field.Rat
import Mathlib.Tactic.Positivity
import TripleLogic.Proofs.Validity

namespace TripleLogic

/-! ## Words -/

/-- A character that a word may begin with. -/
def Opens (c : Char) : Prop :=
  ('A' ≤ c ∧ c ≤ 'Z') ∨ ('a' ≤ c ∧ c ≤ 'z') ∨ c = '_'

/-- A character that a word may go on with. -/
def Continues (c : Char) : Prop :=
  Opens c ∨ ('0' ≤ c ∧ c ≤ '9')

/-- A word. -/
inductive IsWord : List Char → Prop where
  | intro {c : Char} {cs : List Char} (opens : Opens c) (continues : ∀ d ∈ cs, Continues d) :
      IsWord (c :: cs)

/-- A text is a lead and a word, or these and a line feed. -/
def Spells (lead : List Char) (s : String) : Prop :=
  ∃ word, IsWord word ∧ (s.toList = lead ++ word ∨ s.toList = lead ++ word ++ ['\n'])

theorem isWordStart_iff {c : Char} : isWordStart c = true ↔ Opens c := by
  simp only [isWordStart, Opens, Bool.or_eq_true, Bool.and_eq_true, decide_eq_true_eq,
    beq_iff_eq, Char.le_def, UInt32.le_iff_toNat_le, or_assoc]
  exact Iff.rfl

theorem isWordChar_iff {c : Char} : isWordChar c = true ↔ Continues c := by
  simp only [isWordChar, Continues, Bool.or_eq_true, Bool.and_eq_true, decide_eq_true_eq,
    isWordStart_iff, Char.le_def, UInt32.le_iff_toNat_le]
  exact Iff.rfl

theorem isWord_iff {cs : List Char} : isWord cs = true ↔ IsWord cs := by
  cases cs with
  | nil => exact ⟨nofun, nofun⟩
  | cons c cs =>
      simp only [isWord, Bool.and_eq_true, List.all_eq_true, isWordStart_iff, isWordChar_iff]
      exact ⟨fun h => ⟨h.1, h.2⟩, fun ⟨hc, hcs⟩ => ⟨hc, hcs⟩⟩

theorem IsWord.continues {word : List Char} (h : IsWord word) : ∀ c ∈ word, Continues c := by
  obtain ⟨hc, hcs⟩ := h
  exact List.forall_mem_cons.2 ⟨.inl hc, hcs⟩

theorem not_continues_newline : ¬ Continues '\n' := by
  simp only [Continues, Opens]
  decide

/-! ## Names -/

/-- Only one line feed is dropped, and only from the end. -/
theorem dropFinalNewline_eq_iff {cs text : List Char} (h : '\n' ∉ text) :
    dropFinalNewline cs = text ↔ cs = text ∨ cs = text ++ ['\n'] := by
  rcases List.eq_nil_or_concat cs with rfl | ⟨init, c, rfl⟩
  · simp [dropFinalNewline]
  · by_cases hc : c = '\n'
    · subst hc
      have hne : init ++ ['\n'] ≠ text := by
        rintro rfl
        simp at h
      simp [dropFinalNewline, hne]
    · simp [dropFinalNewline, hc]

theorem spells_iff {lead : List Char} {s : String} (h : '\n' ∉ lead) :
    Spells lead s ↔ ∃ word, IsWord word ∧ dropFinalNewline s.toList = lead ++ word := by
  refine exists_congr fun word => and_congr_right fun hword => ?_
  refine (dropFinalNewline_eq_iff fun hmem => ?_).symm
  rcases List.mem_append.1 hmem with hmem | hmem
  · exact h hmem
  · exact not_continues_newline (hword.continues _ hmem)

/-- **A marked word** is a word, or the mark and a word. -/
theorem isMarkedWord_iff {mark : Char} {s : String} (hmark : ¬ Continues mark)
    (hline : mark ≠ '\n') : isMarkedWord mark s = true ↔ Spells [] s ∨ Spells [mark] s := by
  rw [spells_iff (by simp), spells_iff (by simpa using hline.symm)]
  unfold isMarkedWord
  cases dropFinalNewline s.toList with
  | nil => exact ⟨nofun, by rintro (⟨_, ⟨⟩, h⟩ | ⟨_, -, h⟩) <;> cases h⟩
  | cons c cs =>
      simp only [List.nil_append, List.cons_append, List.cons.injEq, exists_eq_right']
      split
      · next h =>
          obtain rfl := eq_of_beq h
          have hword : ¬ IsWord (c :: cs) := fun hword => hmark (hword.continues c (by simp))
          simp [isWord_iff, hword]
      · next h =>
          have hne : c ≠ mark := fun heq => h (beq_iff_eq.2 heq)
          simp [isWord_iff, hne]

theorem isRelationName_iff {s : String} :
    isRelationName s = true ↔ Spells [] s ∨ Spells ['?'] s :=
  isMarkedWord_iff (by simp only [Continues, Opens]; decide) (by decide)

theorem isIntentKind_iff {s : String} :
    isIntentKind s = true ↔ Spells [] s ∨ Spells ['!'] s :=
  isMarkedWord_iff (by simp only [Continues, Opens]; decide) (by decide)

theorem isProperVariable_iff {s : String} : isProperVariable s = true ↔ Spells ['?'] s := by
  rw [spells_iff (by decide)]
  unfold isProperVariable
  split
  · next cs hcs => simp [hcs, isWord_iff]
  · next hcs =>
      refine ⟨nofun, ?_⟩
      rintro ⟨word, -, h⟩
      exact absurd h (hcs word)

/-- The name of a term: not empty, and a question mark and a word if it begins
with a question mark. -/
def IsTermName (name : String) : Prop :=
  name ≠ "" ∧ (name.toList.head? = some '?' → Spells ['?'] name)

theorem nameProblems_eq_nil_iff {label name : String} :
    nameProblems label name = [] ↔ IsTermName name := by
  have hmark : ¬ Spells ['?'] "?" := by
    rw [← isProperVariable_iff]
    decide
  have hvariable : isVariableName name = true ↔ name.toList.head? = some '?' := beq_iff_eq
  unfold nameProblems IsTermName
  split
  · next h =>
      rw [Bool.or_eq_true, beq_iff_eq, beq_iff_eq] at h
      rcases h with rfl | rfl
      · simp
      · exact ⟨nofun, fun h => absurd (h.2 rfl) hmark⟩
  · next h =>
      have hne : name ≠ "" := fun heq => h (by simp [heq])
      rw [← isProperVariable_iff, ← hvariable]
      cases isVariableName name <;> cases isProperVariable name <;> simp [hne]

/-- A concept or an identifier has the name of a term. -/
def Expr.WellNamed (e : Expr) : Prop :=
  ∀ name, e = .concept name ∨ e = .identifier name → IsTermName name

theorem Expr.problems_eq_nil_iff {label : String} {e : Expr} :
    e.problems label = [] ↔ e.WellNamed := by
  cases e <;> simp [Expr.problems, WellNamed, nameProblems_eq_nil_iff]

/-! ## Weights -/

/-- The rational number that a finite floating-point number stands for. -/
def Binary64.value? : Binary64 → Option ℚ
  | .finite neg m e => some ((if neg then -1 else 1) * m * 2 ^ e)
  | _ => none

/-- The rational number that a finite number stands for. -/
def Number.value? : Number → Option ℚ
  | .int n => some n
  | .float x => x.value?

/-- A weight: nothing, or a number with a value between zero and one. -/
def Data.IsWeight (d : Data) : Prop :=
  d = .null ∨ ∃ n q, d = .num n ∧ n.value? = some q ∧ 0 ≤ q ∧ q ≤ 1

/-- Which of the two factors of a power of two is one depends on the sign of the
exponent. -/
theorem two_zpow (e : Int) : (2 : ℚ) ^ e = 2 ^ e.toNat / 2 ^ (-e).toNat := by
  rw [← zpow_natCast, ← zpow_natCast, ← zpow_sub₀ two_ne_zero, Int.toNat_sub_toNat_neg]

/-- A multiple of a power of two is compared with a quotient in natural numbers. -/
theorem mul_zpow_le_div_iff {c num den : Nat} {e : Int} (hden : 0 < den) :
    (c : ℚ) * 2 ^ e ≤ num / den ↔ c * (den * 2 ^ e.toNat) ≤ num * 2 ^ (-e).toNat := by
  rw [two_zpow, ← mul_div_assoc, div_le_div_iff₀ (by positivity) (by positivity)]
  have hcomm : (c : ℚ) * 2 ^ e.toNat * den = (c * (den * 2 ^ e.toNat) : Nat) := by
    push_cast
    rw [mul_assoc, mul_comm (den : ℚ)]
  rw [hcomm]
  exact_mod_cast Iff.rfl

theorem mul_zpow_le_one_iff {m : Nat} {e : Int} :
    (m : ℚ) * 2 ^ e ≤ 1 ↔ m * Nat.pow 2 e.toNat ≤ Nat.pow 2 (-e).toNat := by
  simpa using @mul_zpow_le_div_iff m 1 1 e one_pos

theorem Binary64.inUnit_iff {x : Binary64} :
    x.inUnit = true ↔ ∃ q, x.value? = some q ∧ 0 ≤ q ∧ q ≤ 1 := by
  cases x with
  | finite neg m e =>
      have hpow : (0 : ℚ) < 2 ^ e := zpow_pos two_pos e
      simp only [inUnit, value?, Option.some.injEq, exists_eq_left', Bool.or_eq_true,
        Bool.and_eq_true, beq_iff_eq, decide_eq_true_eq, ← mul_zpow_le_one_iff]
      rcases Nat.eq_zero_or_pos m with rfl | hm
      · simp
      · have hvalue : (0 : ℚ) < m * 2 ^ e := mul_pos (Nat.cast_pos.2 hm) hpow
        cases neg with
        | false => simp [hm.ne', hvalue.le]
        | true =>
            simp [hm.ne', hvalue.not_ge]
  | _ => simp [inUnit, value?]

theorem Number.inUnit_iff {n : Number} :
    n.inUnit = true ↔ ∃ q, n.value? = some q ∧ 0 ≤ q ∧ q ≤ 1 := by
  cases n with
  | int n =>
      simp only [inUnit, value?, Option.some.injEq, exists_eq_left', Bool.and_eq_true,
        decide_eq_true_eq]
      exact_mod_cast Iff.rfl
  | float x => exact Binary64.inUnit_iff

theorem Data.inUnit_iff {d : Data} : d.InUnit ↔ d.IsWeight := by
  unfold InUnit IsWeight unitProblems
  cases d with
  | num n => simp [← Number.inUnit_iff]
  | _ => simp

end TripleLogic
