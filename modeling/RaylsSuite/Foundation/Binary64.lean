import Mathlib.Data.Int.Log
import Mathlib.Data.Rat.Floor
import Mathlib.Tactic.FieldSimp
import Mathlib.Tactic.Linarith
import Mathlib.Tactic.Positivity

/-! # Rationals rounded to binary64 and to decimals

An operation on numbers gives the exact result rounded to 53 significant bits,
and a number is printed with a fixed count of decimals by rounding it once more.
The numbers here are neither subnormal nor too large for the format.
-/

namespace RaylsSuite.Foundation

/-! ## Binary -/

/-- The nearest integer, and half way between two the even one. -/
def nearestEven (q : ℚ) : Int :=
  if q - ⌊q⌋ < 1 / 2 ∨ q - ⌊q⌋ = 1 / 2 ∧ ⌊q⌋ % 2 = 0 then ⌊q⌋ else ⌊q⌋ + 1

/-- The unit in the last of the 53 places. -/
def lastPlace (q : ℚ) : ℚ := 2 ^ (Int.log 2 |q| - 52)

def binary64 (q : ℚ) : ℚ := nearestEven (q / lastPlace q) * lastPlace q

/-- Rounding to an integer is off by a half at most. -/
theorem nearestEven_error (q : ℚ) : |(nearestEven q : ℚ) - q| ≤ 1 / 2 := by
  have hlow := Int.floor_le q
  have hhigh := Int.lt_floor_add_one q
  unfold nearestEven
  split
  next hbelow =>
    rw [abs_le]
    rcases hbelow with hlt | ⟨htie, -⟩ <;> constructor <;> linarith
  next habove =>
    have hhalf : 1 / 2 ≤ q - ⌊q⌋ := by
      by_contra hlt
      exact habove (Or.inl (not_le.mp hlt))
    rw [abs_le]
    push_cast
    constructor <;> linarith

theorem lastPlace_pos (q : ℚ) : 0 < lastPlace q := zpow_pos (by norm_num) _

/-- Rounding to a double is off by half of its last place at most. -/
theorem binary64_error (q : ℚ) : |binary64 q - q| ≤ lastPlace q / 2 := by
  have hpos := lastPlace_pos q
  have hscaled : binary64 q - q =
      ((nearestEven (q / lastPlace q) : ℚ) - q / lastPlace q) * lastPlace q := by
    rw [binary64, sub_mul, div_mul_cancel₀ _ hpos.ne']
  rw [hscaled, abs_mul, abs_of_pos hpos]
  calc |(nearestEven (q / lastPlace q) : ℚ) - q / lastPlace q| * lastPlace q
      ≤ 1 / 2 * lastPlace q := mul_le_mul_of_nonneg_right (nearestEven_error _) hpos.le
    _ = lastPlace q / 2 := by ring

/-- The last place is small beside the value. -/
theorem lastPlace_le {q : ℚ} (hq : q ≠ 0) : lastPlace q ≤ |q| / 2 ^ 52 := by
  have hlog : (2 : ℚ) ^ Int.log 2 |q| ≤ |q| :=
    Int.zpow_log_le_self (by decide) (abs_pos.mpr hq)
  have hsplit : lastPlace q = 2 ^ Int.log 2 |q| / 2 ^ 52 := by
    rw [lastPlace, zpow_sub₀ (by norm_num)]
    norm_cast
  rw [hsplit]
  exact div_le_div_of_nonneg_right hlog (by positivity)

/-- Rounding changes a number by at most a part in `2 ^ 53`. -/
theorem binary64_relative (q : ℚ) : |binary64 q - q| ≤ |q| / 2 ^ 53 := by
  by_cases hq : q = 0
  · subst hq
    simp [binary64, nearestEven]
  · have herror := binary64_error q
    have hplace := lastPlace_le hq
    calc |binary64 q - q| ≤ lastPlace q / 2 := herror
      _ ≤ |q| / 2 ^ 52 / 2 := div_le_div_of_nonneg_right hplace (by norm_num)
      _ = |q| / 2 ^ 53 := by ring

/-! ## Whole numbers -/

theorem nearestEven_intCast (m : Int) : nearestEven (m : ℚ) = m := by
  unfold nearestEven
  rw [Int.floor_intCast, sub_self, if_pos (Or.inl (by norm_num))]

/-- A whole number of at most 53 bits is not rounded. -/
theorem binary64_natCast {n : Nat} (hn : n < 2 ^ 53) : binary64 (n : ℚ) = n := by
  rcases Nat.eq_zero_or_pos n with rfl | hpos
  · simp [binary64, nearestEven]
  · have hlog : Nat.log 2 n ≤ 52 := by
      have hlt := Nat.log_lt_of_lt_pow hpos.ne' hn
      omega
    obtain ⟨free, hfree⟩ := Nat.exists_eq_add_of_le hlog
    have hplace : lastPlace (n : ℚ) = (2 ^ free)⁻¹ := by
      rw [lastPlace, Nat.abs_cast, Int.log_natCast, ← zpow_natCast, ← zpow_neg]
      congr 1
      omega
    have hscaled : (n : ℚ) / lastPlace (n : ℚ) = ((n * 2 ^ free : Nat) : Int) := by
      rw [hplace, div_inv_eq_mul]
      push_cast
      rfl
    rw [binary64, hscaled, nearestEven_intCast, ← hscaled,
      div_mul_cancel₀ _ (lastPlace_pos _).ne']

section Quotient

variable {dividend divisor : Nat}

/-- Rounding takes the quotient of whole numbers past no whole number. -/
theorem natCast_lt_binary64_div (hdividend : dividend < 2 ^ 53) (hdivisor : 0 < divisor)
    (n : Nat) :
    (n : ℚ) < binary64 ((dividend : ℚ) / divisor) ↔ (n : ℚ) < (dividend : ℚ) / divisor := by
  have hpositive : (0 : ℚ) < divisor := Nat.cast_pos.mpr hdivisor
  have hnonneg : (0 : ℚ) ≤ dividend / divisor := by positivity
  have herror := binary64_relative ((dividend : ℚ) / divisor)
  rw [abs_of_nonneg hnonneg, abs_le] at herror
  have hreach : (dividend : ℚ) / divisor / 2 ^ 53 < 1 / divisor := by
    rw [div_right_comm]
    refine div_lt_div_of_pos_right ?_ hpositive
    rw [div_lt_one (by positivity)]
    exact_mod_cast hdividend
  -- a whole number that is not the quotient is further from it than the rounding reaches
  rcases lt_trichotomy (n * divisor) dividend with hbelow | heq | habove
  · have hgap : (n : ℚ) + 1 / divisor ≤ (dividend : ℚ) / divisor := by
      rw [le_div_iff₀ hpositive, add_mul, one_div_mul_cancel hpositive.ne']
      exact_mod_cast hbelow
    constructor <;> intro <;> linarith
  · have hquotient : (dividend : ℚ) / divisor = n := by
      rw [← heq, Nat.cast_mul, mul_div_cancel_right₀ _ hpositive.ne']
    have hle : n ≤ dividend := heq ▸ Nat.le_mul_of_pos_right n hdivisor
    rw [hquotient, binary64_natCast (hle.trans_lt hdividend)]
  · have hgap : (dividend : ℚ) / divisor + 1 / divisor ≤ n := by
      rw [← add_div, div_le_iff₀ hpositive]
      exact_mod_cast habove
    constructor <;> intro <;> linarith

/-- The quotient of whole numbers is rounded up to the same whole number as its double. -/
theorem ceil_binary64_div (hdividend : dividend < 2 ^ 53) (hdivisor : 0 < divisor) :
    ⌈binary64 ((dividend : ℚ) / divisor)⌉₊ = ⌈(dividend : ℚ) / divisor⌉₊ := by
  refine eq_of_forall_lt_iff fun n => ?_
  rw [Nat.lt_ceil, Nat.lt_ceil, natCast_lt_binary64_div hdividend hdivisor]

end Quotient

/-! ## Decimals -/

/-- The value of the text that `toFixed` gives: of the decimals nearest to a number the larger,
and a sign in front for a number below zero. -/
def toFixed (digits : Nat) (q : ℚ) : ℚ :=
  if 0 ≤ q then ⌊q * 10 ^ digits + 1 / 2⌋ / 10 ^ digits
  else -(⌊-q * 10 ^ digits + 1 / 2⌋ / 10 ^ digits)

theorem floor_half_error (q scale : ℚ) (hscale : 0 < scale) :
    |(⌊q * scale + 1 / 2⌋ : ℚ) / scale - q| ≤ 1 / (2 * scale) := by
  have hlow := Int.floor_le (q * scale + 1 / 2)
  have hhigh := Int.lt_floor_add_one (q * scale + 1 / 2)
  have hscaled : (⌊q * scale + 1 / 2⌋ : ℚ) / scale - q =
      ((⌊q * scale + 1 / 2⌋ : ℚ) - q * scale) / scale := by
    field_simp
  have hhalf : (1 : ℚ) / (2 * scale) = 1 / 2 / scale := by
    field_simp
  rw [hscaled, hhalf, abs_div, abs_of_pos hscale]
  refine div_le_div_of_nonneg_right ?_ hscale.le
  rw [abs_le]
  constructor <;> linarith

/-- Fixing the digits is off by half a unit of the last one at most. -/
theorem toFixed_error (digits : Nat) (q : ℚ) :
    |toFixed digits q - q| ≤ 1 / (2 * 10 ^ digits) := by
  unfold toFixed
  split
  next => exact floor_half_error q _ (by positivity)
  next =>
    have herror := floor_half_error (-q) (10 ^ digits) (by positivity)
    have hmirror : -((⌊-q * 10 ^ digits + 1 / 2⌋ : ℚ) / 10 ^ digits) - q =
        -((⌊-q * 10 ^ digits + 1 / 2⌋ : ℚ) / 10 ^ digits - -q) := by ring
    rw [hmirror, abs_neg]
    exact herror

/-- The number that a text with a fixed count of decimals is read as. -/
def readFixed (digits : Nat) (q : ℚ) : ℚ := binary64 (toFixed digits q)

end RaylsSuite.Foundation
