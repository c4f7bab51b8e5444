/-
TripleLogic.Proofs.ExactValue — numbers are equal when their exact values are.

The value of a finite number is a rational number. A floating-point number
stands for an integer exactly when that is its value (`toInt?_eq_some_iff`),
whatever its size, so its text has the digits of that integer
(`plainText_of_value?`). A value other than zero has one canonical form
(`eq_of_value?`), and all numbers that are read have one
(`Numeral.canonical_of_float?`, `Json.canonical_of_number?`): rounding keeps
fifty-three binary digits, or fewer at the least exponent (`roundDiv_bounds`).

Main statement: numbers are equal if and only if their values are, integers and
floating-point numbers alike, and no rounding takes place (`same_iff_value?`).
-/
import TripleLogic.Data.Json
import TripleLogic.Expr.Basic
import TripleLogic.Proofs.Grammar

namespace TripleLogic

namespace Binary64

/-! ## The integer that a number stands for -/

/-- A natural number with a sign. -/
def signed (neg : Bool) (n : Nat) : Int :=
  if neg then -n else n

theorem signed_mul (neg : Bool) (m n : Nat) : signed neg (m * n) = signed neg m * n := by
  cases neg <;> simp [signed]

theorem dvd_signed {neg : Bool} {m d : Nat} : (d : Int) ∣ signed neg m ↔ d ∣ m := by
  cases neg <;> simp [signed, Int.natCast_dvd_natCast]

@[simp] theorem abs_signed (neg : Bool) (n : Nat) : |signed neg n| = n := by
  cases neg <;> simp [signed]

theorem signed_inj {neg neg' : Bool} {m n : Nat} (hm : m ≠ 0)
    (h : signed neg m = signed neg' n) : neg = neg' ∧ m = n := by
  cases neg <;> cases neg' <;> simp [signed] at h ⊢ <;> omega

theorem value?_finite (neg : Bool) (m : Nat) (e : Int) :
    value? (.finite neg m e) = some ((signed neg m : ℚ) * 2 ^ e) := by
  cases neg <;> simp [value?, signed]

theorem value?_eq_intCast_iff {neg : Bool} {m : Nat} {e n : Int} :
    value? (.finite neg m e) = some (n : ℚ) ↔
      signed neg m * 2 ^ e.toNat = n * 2 ^ (-e).toNat := by
  rw [value?_finite, Option.some.injEq, two_zpow, ← mul_div_assoc, div_eq_iff (by positivity)]
  exact_mod_cast Iff.rfl

/-- Division of a signed number is exact, or gives nothing. -/
theorem signed_div_eq_iff {neg : Bool} {m d : Nat} {n : Int} (hd : 0 < d) :
    (if m % d = 0 then some (signed neg (m / d)) else none) = some n ↔ signed neg m = n * d := by
  split
  · next hmod =>
      obtain ⟨k, rfl⟩ := Nat.dvd_of_mod_eq_zero hmod
      have hne : (d : Int) ≠ 0 := by omega
      rw [Nat.mul_div_cancel_left k hd, mul_comm d k, signed_mul, Option.some.injEq,
        mul_left_inj' hne]
  · next hmod =>
      refine ⟨nofun, fun h => absurd (Nat.mod_eq_zero_of_dvd ?_) hmod⟩
      exact dvd_signed.1 (Dvd.intro_left n h.symm)

/-- A floating-point number stands for an integer if that is its exact value. -/
theorem toInt?_eq_some_iff {x : Binary64} {n : Int} :
    x.toInt? = some n ↔ x.value? = some (n : ℚ) := by
  cases x with
  | finite neg m e =>
      rw [value?_eq_intCast_iff]
      by_cases he : 0 ≤ e
      · -- The value is a multiple of a power of two.
        have htoInt : toInt? (.finite neg m e) = some (signed neg (m * 2 ^ e.toNat)) := by
          simp only [toInt?, he, if_true]
          rfl
        have hneg : (-e).toNat = 0 := by omega
        rw [htoInt, signed_mul, hneg, pow_zero, mul_one, Option.some.injEq, Nat.cast_pow,
          Nat.cast_ofNat]
      · -- The value is a quotient by a power of two.
        have htoInt : toInt? (.finite neg m e)
            = if m % 2 ^ (-e).toNat = 0 then some (signed neg (m / 2 ^ (-e).toNat)) else none := by
          simp only [toInt?, he, if_false]
          rfl
        have hpos : e.toNat = 0 := by omega
        rw [htoInt, signed_div_eq_iff (by positivity), hpos, pow_zero, mul_one, Nat.cast_pow,
          Nat.cast_ofNat]
  | _ => simp [toInt?, value?]

/-! ## One form for each value -/

/-- Of two forms of one magnitude, the one with the greater exponent has a mantissa
of at most half the other's, which no canonical form can have. -/
theorem exp_le_of_eq {m n : Nat} {e f : Int} (hm : m < 2 ^ 53) (he : -1074 ≤ e)
    (hn : 2 ^ 52 ≤ n ∨ f = -1074) (h : (m : ℚ) * 2 ^ e = n * 2 ^ f) : f ≤ e := by
  by_contra hlt
  have hlarge : 2 ^ 52 ≤ n := hn.resolve_right (by omega)
  obtain ⟨k, rfl⟩ : ∃ k : Nat, f = e + (k + 1 : Nat) := ⟨(f - e - 1).toNat, by omega⟩
  have hmul : m = n * 2 ^ (k + 1) := by
    rw [zpow_add₀ two_ne_zero, zpow_natCast, mul_left_comm, mul_comm (m : ℚ),
      mul_right_inj' (by positivity)] at h
    exact_mod_cast h
  have hle : n ≤ n * 2 ^ k := Nat.le_mul_of_pos_right n (by positivity)
  rw [pow_succ, ← mul_assoc] at hmul
  omega

/-- Finite numbers of one value other than zero have one form. -/
theorem eq_of_value? {x y : Binary64} (hx : x.Canonical) (hy : y.Canonical) {q : ℚ} (hq : q ≠ 0)
    (hxq : x.value? = some q) (hyq : y.value? = some q) : x = y := by
  cases x with
  | finite neg m e =>
      cases y with
      | finite neg' n f =>
          obtain ⟨hm, he, -, hm'⟩ := hx
          obtain ⟨hn, hf, -, hn'⟩ := hy
          rw [value?_finite, Option.some.injEq] at hxq hyq
          have heq : (signed neg m : ℚ) * 2 ^ e = signed neg' n * 2 ^ f := hxq.trans hyq.symm
          have habs : (m : ℚ) * 2 ^ e = n * 2 ^ f := by
            have h := congrArg abs heq
            rwa [abs_mul, abs_mul, ← Int.cast_abs, ← Int.cast_abs, abs_signed, abs_signed,
              abs_of_pos (zpow_pos two_pos e), abs_of_pos (zpow_pos two_pos f)] at h
          obtain rfl : e = f :=
            le_antisymm (exp_le_of_eq hn hf hm' habs.symm) (exp_le_of_eq hm he hn' habs)
          have hm0 : m ≠ 0 := by
            rintro rfl
            exact hq (by rw [← hxq]; simp [signed])
          have hsigned := mul_right_cancel₀ (zpow_pos two_pos e).ne' heq
          obtain ⟨rfl, rfl⟩ := signed_inj hm0 (Int.cast_injective hsigned)
          rfl
      | _ => cases hyq
  | _ => cases hxq

/-! ## Rounding -/

theorem two_zpow_log2_le {n : Nat} (hn : 0 < n) : (2 : ℚ) ^ (n.log2 : Int) ≤ n := by
  rw [zpow_natCast]
  exact_mod_cast Nat.log2_self_le hn.ne'

theorem lt_two_zpow_log2 (n : Nat) : (n : ℚ) < 2 ^ ((n.log2 : Int) + 1) := by
  exact_mod_cast Nat.lt_log2_self

/-- A quotient of positive numbers lies between two successive powers of two. -/
theorem floorLog2_spec {num den : Nat} (hnum : 0 < num) (hden : 0 < den) :
    (2 : ℚ) ^ floorLog2 num den ≤ num / den ∧ (num : ℚ) / den < 2 ^ (floorLog2 num den + 1) := by
  have hden' : (0 : ℚ) < den := Nat.cast_pos.2 hden
  set k : Int := (Nat.log2 num : Int) - Nat.log2 den with hk
  have hlower : (2 : ℚ) ^ (k - 1) ≤ num / den := by
    rw [le_div_iff₀ hden']
    calc (2 : ℚ) ^ (k - 1) * den ≤ 2 ^ (k - 1) * 2 ^ ((den.log2 : Int) + 1) := by
          gcongr
          exact (lt_two_zpow_log2 den).le
      _ = 2 ^ (num.log2 : Int) := by
          rw [← zpow_add₀ two_ne_zero]
          congr 1
          omega
      _ ≤ num := two_zpow_log2_le hnum
  have hupper : (num : ℚ) / den < 2 ^ (k + 1) := by
    rw [div_lt_iff₀ hden']
    calc (num : ℚ) < 2 ^ ((num.log2 : Int) + 1) := lt_two_zpow_log2 num
      _ = 2 ^ (k + 1) * 2 ^ (den.log2 : Int) := by
          rw [← zpow_add₀ two_ne_zero]
          congr 1
          omega
      _ ≤ 2 ^ (k + 1) * den := by
          gcongr
          exact two_zpow_log2_le hden
  -- The difference of the logarithms is the exponent or one too many.
  have hiff := @mul_zpow_le_div_iff 1 num den k hden
  simp only [Nat.cast_one, one_mul] at hiff
  simp only [floorLog2]
  split
  · next h => exact ⟨hiff.2 h, hupper⟩
  · next h =>
      refine ⟨hlower, ?_⟩
      rw [sub_add_cancel]
      exact lt_of_not_ge fun hle => h (hiff.1 hle)

theorem canonical_zero (neg : Bool) : (zero neg).Canonical :=
  ⟨Nat.two_pow_pos 53, Int.le_refl _, by decide, .inr rfl⟩

theorem le_roundDiv (num den : Nat) : num / den ≤ roundDiv num den := by
  simp only [roundDiv]
  split_ifs <;> omega

theorem roundDiv_le (num den : Nat) : roundDiv num den ≤ num / den + 1 := by
  simp only [roundDiv]
  split_ifs <;> omega

/-- Scaled by the exponent that rounding chooses, a quotient is rounded to at most
fifty-three binary digits or the power of two above them, and to fewer only at
the least exponent. -/
theorem roundDiv_bounds {num den : Nat} (hnum : 0 < num) (hden : 0 < den) {e : Int}
    (he : e = max (floorLog2 num den - 52) (-1074)) :
    let m := roundDiv (num * 2 ^ (-e).toNat) (den * 2 ^ e.toNat)
    m ≤ 2 ^ 53 ∧ (2 ^ 52 ≤ m ∨ e = -1074) := by
  obtain ⟨hlow, hhigh⟩ := floorLog2_spec hnum hden
  have hpow : ∀ k : Nat, ((2 ^ k : Nat) : ℚ) * 2 ^ e = 2 ^ (k + e) := by
    intro k
    rw [Nat.cast_pow, Nat.cast_ofNat, ← zpow_natCast, ← zpow_add₀ two_ne_zero]
  have hdiv : 0 < den * 2 ^ e.toNat := by positivity
  constructor
  · have hlt : (num : ℚ) / den < (2 ^ 53 : Nat) * 2 ^ e := by
      rw [hpow]
      exact hhigh.trans_le (zpow_le_zpow_right₀ one_le_two (by omega))
    have hscaled := lt_of_not_ge fun h => hlt.not_ge ((mul_zpow_le_div_iff hden).2 h)
    exact (roundDiv_le _ _).trans ((Nat.div_lt_iff_lt_mul hdiv).2 hscaled)
  · by_cases hleast : e = -1074
    · exact .inr hleast
    · have hle : ((2 ^ 52 : Nat) : ℚ) * 2 ^ e ≤ num / den := by
        rw [hpow]
        exact (zpow_le_zpow_right₀ one_le_two (by omega)).trans hlow
      have hscaled := (mul_zpow_le_div_iff hden).1 hle
      exact .inl (((Nat.le_div_iff_mul_le hdiv).2 hscaled).trans (le_roundDiv _ _))

theorem canonical_of_le {neg : Bool} {m : Nat} {e : Int} (hm : m < 2 ^ 53) (he : -1074 ≤ e)
    (hmany : 2 ^ 52 ≤ m ∨ e = -1074) :
    (if 971 < e then inf neg else finite neg m e).Canonical := by
  split
  · trivial
  · next hmax => exact ⟨hm, he, Int.not_lt.1 hmax, hmany⟩

/-- The number nearest to a quotient has a canonical form. -/
theorem canonical_ofRatio (neg : Bool) (num : Nat) {den : Nat} (hden : 0 < den) :
    (ofRatio neg num den).Canonical := by
  unfold ofRatio
  split
  · exact canonical_zero neg
  · next hnum =>
      have hbounds := roundDiv_bounds (Nat.pos_of_ne_zero hnum) hden rfl
      have hleast := le_max_right (floorLog2 num den - 52) (-1074)
      simp only [Nat.pow_eq] at hbounds ⊢
      refine canonical_of_le ?_ ?_ ?_
      -- Rounding may carry into one more digit.
      all_goals split_ifs <;> omega

/-- The number nearest to a decimal has a canonical form. -/
theorem canonical_ofDecimal (neg : Bool) (digits : Nat) (exp : Int) :
    (ofDecimal neg digits exp).Canonical := by
  simp only [ofDecimal]
  split_ifs
  · exact canonical_zero neg
  · trivial
  · exact canonical_zero neg
  · exact canonical_ofRatio neg _ (Nat.pow_pos (by decide))

end Binary64

namespace Number

/-! ## Equality of numbers -/

/-- Floating-point numbers have canonical forms. -/
def Canonical : Number → Prop
  | .int _ => True
  | .float x => x.Canonical

theorem canon_eq_int_iff {a : Number} {n : Int} :
    a.canon = .int n ↔ a.value? = some (n : ℚ) := by
  cases a with
  | int m => simp [canon, value?]
  | float x =>
      simp only [value?, ← Binary64.toInt?_eq_some_iff, canon]
      cases x.toInt? with
      | none => simp
      | some m => simp

theorem value?_canon (a : Number) : a.canon.value? = a.value? := by
  cases h : a.canon with
  | int n => exact (canon_eq_int_iff.1 h).symm
  | float x =>
      cases a with
      | int n => cases h
      | float y =>
          simp only [canon] at h
          split at h
          · cases h
          · cases h
            rfl

/-- **Numbers are equal when their exact values are**, whichever kinds they are of. -/
theorem same_iff_value? {a b : Number} (ha : a.Canonical) (hb : b.Canonical) {q : ℚ}
    (hq : a.value? = some q) : a.same b = true ↔ b.value? = some q := by
  rw [same_iff]
  constructor
  · intro h
    rw [← value?_canon, ← h, value?_canon, hq]
  · intro h
    by_cases hint : ∃ n : Int, q = n
    · obtain ⟨n, rfl⟩ := hint
      rw [canon_eq_int_iff.2 hq, canon_eq_int_iff.2 h]
    · -- Numbers that are not whole are floating-point numbers.
      cases a with
      | int n => exact absurd ⟨n, (Option.some.inj hq).symm⟩ hint
      | float x =>
          cases b with
          | int n => exact absurd ⟨n, (Option.some.inj h).symm⟩ hint
          | float y =>
              rw [Binary64.eq_of_value? ha hb (fun h0 => hint ⟨0, by simpa using h0⟩) hq h]

/-- A whole number is written with all of its digits, whichever kind it is of. -/
theorem plainText_of_value? {a : Number} {n : Int} (h : a.value? = some (n : ℚ)) :
    a.plainText = toString n := by
  rw [plainText, canon_eq_int_iff.2 h]
  rfl

/-- Both zeros are written without a sign. -/
example : plainText (.float (Binary64.zero true)) = "0" := by decide +kernel

end Number

/-! ## Numbers that are read -/

/-- A floating-point number that is read from a text has a canonical form. -/
theorem Numeral.canonical_of_float? {cs : List Char} {x : Binary64} (h : float? cs = some x) :
    x.Canonical := by
  simp only [float?] at h
  split_ifs at h
  · cases h
    trivial
  · cases h
    trivial
  · simp only [decimal?, Option.ite_none_left_eq_some, Option.map_eq_some_iff] at h
    obtain ⟨-, e, -, rfl⟩ := h
    exact Binary64.canonical_ofDecimal _ _ _

/-- So has a number that is read from a document. -/
theorem Json.canonical_of_number? {neg : Bool} {cs rest : List Char} {n : Number}
    (h : number? neg cs = some (.ok n, rest)) : n.Canonical := by
  simp only [number?] at h
  split at h
  · cases h
  · split at h
    · simp only [Option.some.injEq, Prod.mk.injEq, integer] at h
      obtain ⟨hn, -⟩ := h
      split at hn
      · cases hn
      · cases hn
        trivial
    · cases h
      exact Binary64.canonical_ofDecimal _ _ _

/-! ## Kinds of scalars -/

/-- The kinds of scalars; integers and floating-point numbers are of one kind. -/
inductive Scalar.Kind where
  | null
  | bool
  | number
  | text
  deriving DecidableEq, Repr

/-- The kind of a scalar. -/
def Scalar.kind : Scalar → Kind
  | .null => .null
  | .bool _ => .bool
  | .num _ => .number
  | .str _ => .text

theorem Scalar.kind_of_same {s t : Scalar} (h : s.same t = true) : s.kind = t.kind := by
  cases s <;> cases t <;> first | rfl | cases h

end TripleLogic
