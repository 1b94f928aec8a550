import Mathlib.Algebra.Order.Ring.Nat
import Mathlib.Data.Nat.Log

/-! # Integers rounded to a significand

A binary format with `f` fraction bits behind the leading one holds an integer
below `2 ^ (f + 1)` exactly, and of the integers with `e` bits more the
multiples of `2 ^ e`. Other integers are rounded to the nearest one that it
holds, and those half way to the one with an even significand.
-/

namespace RaylsSuite.Foundation.Significand

/-- The distance of neighbours around an integer. -/
def ulp (f n : Nat) : Nat := 2 ^ (n.log2 - f)

/-- The integer is nearer to the neighbour below, or half way and that one is even. -/
def RoundsDown (f n : Nat) : Prop :=
  2 * (n % ulp f n) < ulp f n ∨ 2 * (n % ulp f n) = ulp f n ∧ (n / ulp f n) % 2 = 0

instance (f n : Nat) : Decidable (RoundsDown f n) := by
  unfold RoundsDown
  infer_instance

/-- Rounding to nearest, ties to even. -/
def round (f n : Nat) : Nat :=
  if RoundsDown f n then n / ulp f n * ulp f n else (n / ulp f n + 1) * ulp f n

variable {f n m e : Nat}

theorem ulp_pos (f n : Nat) : 0 < ulp f n := Nat.two_pow_pos _

/-! ## Integers with as many bits -/

theorem ulp_of_lt (hlt : n < 2 ^ (f + 1)) : ulp f n = 1 := by
  by_cases hzero : n = 0
  · simp [hzero, ulp]
  · have hlog : n.log2 < f + 1 := (Nat.log2_lt hzero).mpr hlt
    rw [ulp, Nat.sub_eq_zero_of_le (Nat.lt_succ_iff.mp hlog), Nat.pow_zero]

theorem ulp_of_bounds (hlow : 2 ^ (f + e) ≤ n) (hhigh : n < 2 ^ (f + e + 1)) :
    ulp f n = 2 ^ e := by
  have hne : n ≠ 0 := Nat.ne_of_gt (Nat.lt_of_lt_of_le (Nat.two_pow_pos _) hlow)
  rw [ulp, (Nat.log2_eq_iff hne).mpr ⟨hlow, hhigh⟩, Nat.add_sub_cancel_left]

/-- An integer of more bits than the format holds has some number of them. -/
theorem exists_bounds (hle : 2 ^ (f + 1) ≤ n) :
    ∃ e, 2 ^ (f + (e + 1)) ≤ n ∧ n < 2 ^ (f + (e + 1) + 1) := by
  have hne : n ≠ 0 := Nat.ne_of_gt (Nat.lt_of_lt_of_le (Nat.two_pow_pos _) hle)
  have hlog : f + 1 ≤ n.log2 := (Nat.le_log2 hne).mpr hle
  refine ⟨n.log2 - f - 1, ?_⟩
  rw [show f + (n.log2 - f - 1 + 1) = n.log2 by omega]
  exact ⟨Nat.log2_self_le hne, Nat.lt_log2_self⟩

/-! ## What rounding gives -/

theorem ulp_dvd_round (f n : Nat) : ulp f n ∣ round f n := by
  unfold round
  split
  next => exact Nat.dvd_mul_left _ _
  next => exact Nat.dvd_mul_left _ _

theorem round_of_dvd (hdvd : ulp f n ∣ n) : round f n = n := by
  have hdown : RoundsDown f n := Or.inl (by
    rw [Nat.mod_eq_zero_of_dvd hdvd]
    exact ulp_pos f n)
  rw [round, if_pos hdown, Nat.div_mul_cancel hdvd]

theorem round_eq_self_iff : round f n = n ↔ ulp f n ∣ n := by
  refine ⟨fun heq => ?_, round_of_dvd⟩
  have hdvd := ulp_dvd_round f n
  rwa [heq] at hdvd

/-- What the format has bits for is held exactly. -/
theorem round_of_lt (hlt : n < 2 ^ (f + 1)) : round f n = n :=
  round_of_dvd (by rw [ulp_of_lt hlt]; exact Nat.one_dvd n)

/-- Rounding never loses the leading bit. -/
theorem two_pow_le_round (hlow : 2 ^ (f + e) ≤ n) (hhigh : n < 2 ^ (f + e + 1)) :
    2 ^ (f + e) ≤ round f n := by
  have hquotient : 2 ^ f ≤ n / 2 ^ e := by
    rw [Nat.le_div_iff_mul_le (Nat.two_pow_pos e), ← Nat.pow_add]
    exact hlow
  have hdown : 2 ^ (f + e) ≤ n / 2 ^ e * 2 ^ e := by
    rw [Nat.pow_add]
    exact Nat.mul_le_mul_right _ hquotient
  unfold round
  rw [ulp_of_bounds hlow hhigh]
  split
  next => exact hdown
  next => exact hdown.trans (Nat.mul_le_mul_right _ (Nat.le_succ _))

/-- Rounding does not go beyond the next power of two. -/
theorem round_le_two_pow (hlow : 2 ^ (f + e) ≤ n) (hhigh : n < 2 ^ (f + e + 1)) :
    round f n ≤ 2 ^ (f + e + 1) := by
  have hquotient : n / 2 ^ e < 2 ^ (f + 1) := by
    rw [Nat.div_lt_iff_lt_mul (Nat.two_pow_pos e), ← Nat.pow_add, Nat.add_right_comm]
    exact hhigh
  have hup : (n / 2 ^ e + 1) * 2 ^ e ≤ 2 ^ (f + e + 1) := by
    rw [show f + e + 1 = f + 1 + e by omega, Nat.pow_add]
    exact Nat.mul_le_mul_right _ hquotient
  unfold round
  rw [ulp_of_bounds hlow hhigh]
  split
  next => exact (Nat.mul_le_mul_right _ (Nat.le_succ _)).trans hup
  next => exact hup

/-! ## Integers that nothing else is rounded to -/

/-- The integer is held, and no other integer is rounded to it. -/
def Alone (f n : Nat) : Prop := round f n = n ∧ ∀ m, round f m = n → m = n

/-- Small integers round to themselves and nothing else does. -/
theorem alone_of_lt (hlt : n < 2 ^ (f + 1)) : Alone f n := by
  refine ⟨round_of_lt hlt, fun m heq => ?_⟩
  by_cases hm : m < 2 ^ (f + 1)
  · rwa [round_of_lt hm] at heq
  · obtain ⟨e, hlow, hhigh⟩ := exists_bounds (not_lt.mp hm)
    have hbits : 2 ^ (f + 1) ≤ 2 ^ (f + (e + 1)) := Nat.pow_le_pow_right (by decide) (by omega)
    have hround := two_pow_le_round hlow hhigh
    omega

/-- With one bit more, every second integer is held; the odd ones go to the multiples of four
next to them. -/
theorem round_of_odd (hlow : 2 ^ (f + 1) ≤ n) (hhigh : n < 2 ^ (f + 1 + 1)) (hodd : n % 2 = 1) :
    round f n % 4 = 0 := by
  have hunit : ulp f n = 2 := ulp_of_bounds (e := 1) hlow hhigh
  by_cases hdown : RoundsDown f n
  · rw [round, if_pos hdown, hunit]
    rw [RoundsDown, hunit, hodd] at hdown
    omega
  · rw [round, if_neg hdown, hunit]
    rw [RoundsDown, hunit, hodd] at hdown
    omega

/-- Nor does anything else round to an integer that is 2 modulo 4 with one more bit. -/
theorem alone_of_mod_four (hlow : 2 ^ (f + 1) ≤ n) (hhigh : n < 2 ^ (f + 1 + 1))
    (hmod : n % 4 = 2) : Alone f n := by
  have hheld : ∀ k, 2 ^ (f + 1) ≤ k → k < 2 ^ (f + 1 + 1) → k % 2 = 0 → round f k = k := by
    intro k hk hk' heven
    refine round_of_dvd ?_
    rw [ulp_of_bounds (e := 1) hk hk']
    exact Nat.dvd_of_mod_eq_zero heven
  refine ⟨hheld n hlow hhigh (by omega), fun m heq => ?_⟩
  by_cases hm : m < 2 ^ (f + 1)
  · rwa [round_of_lt hm] at heq
  obtain ⟨e, hlow', hhigh'⟩ := exists_bounds (not_lt.mp hm)
  cases e with
  | zero =>
      rcases Nat.mod_two_eq_zero_or_one m with heven | hodd
      · rwa [hheld m hlow' hhigh' heven] at heq
      · have hfour := round_of_odd hlow' hhigh' hodd
        omega
  | succ e =>
      have hbits : 2 ^ (f + 1 + 1) ≤ 2 ^ (f + (e + 1 + 1)) :=
        Nat.pow_le_pow_right (by decide) (by omega)
      have hround := two_pow_le_round hlow' hhigh'
      omega

/-- An integer above those is held together with its successor, or not at all. -/
theorem round_succ_of_dvd (hlow : 2 ^ (f + e) ≤ n) (hhigh : n < 2 ^ (f + e + 1))
    (hdvd : 2 ^ e ∣ n) (htwo : 2 < 2 ^ e ∨ 2 = 2 ^ e ∧ n / 2 ^ e % 2 = 0) :
    round f (n + 1) = n := by
  obtain ⟨quotient, rfl⟩ := hdvd
  have hunit : ulp f (2 ^ e * quotient + 1) = 2 ^ e := by
    refine ulp_of_bounds (by omega) ?_
    -- a multiple of the unit below a power of two leaves room for its successor
    obtain ⟨rest, hrest⟩ := Nat.pow_dvd_pow 2 (show e ≤ f + e + 1 by omega)
    have hlt : quotient + 1 ≤ rest := by
      rw [hrest] at hhigh
      exact Nat.lt_of_mul_lt_mul_left hhigh
    have hroom := Nat.mul_le_mul_left (2 ^ e) hlt
    rw [Nat.mul_add, Nat.mul_one, ← hrest] at hroom
    omega
  have hdiv : (2 ^ e * quotient + 1) / 2 ^ e = quotient := by
    rw [Nat.mul_add_div (Nat.two_pow_pos e), Nat.div_eq_of_lt (by omega), Nat.add_zero]
  have hmod : (2 ^ e * quotient + 1) % 2 ^ e = 1 := by
    rw [Nat.mul_add_mod, Nat.mod_eq_of_lt (by omega)]
  rw [Nat.mul_div_cancel_left _ (Nat.two_pow_pos e)] at htwo
  have hdown : RoundsDown f (2 ^ e * quotient + 1) := by
    rw [RoundsDown, hunit, hdiv, hmod]
    exact htwo.imp_right fun htie => ⟨htie.1, htie.2⟩
  rw [round, if_pos hdown, hunit, hdiv, Nat.mul_comm]

/-- The integers that are held alone. -/
theorem alone_iff : Alone f n ↔ n < 2 ^ (f + 1) ∨ n < 2 ^ (f + 2) ∧ n % 4 = 2 := by
  constructor
  · rintro ⟨hheld, halone⟩
    by_contra hnot
    push Not at hnot
    obtain ⟨hlarge, hmod⟩ := hnot
    obtain ⟨e, hlow, hhigh⟩ := exists_bounds hlarge
    have hdvd := round_eq_self_iff.mp hheld
    rw [ulp_of_bounds hlow hhigh] at hdvd
    have hsucc : round f (n + 1) = n := by
      refine round_succ_of_dvd hlow hhigh hdvd ?_
      cases e with
      | zero =>
          refine Or.inr ⟨rfl, ?_⟩
          have := hmod hhigh
          obtain ⟨k, rfl⟩ := hdvd
          omega
      | succ e =>
          refine Or.inl ?_
          have := Nat.pow_le_pow_right (show 0 < 2 by decide) (show 2 ≤ e + 1 + 1 by omega)
          omega
    exact absurd (halone (n + 1) hsucc) (by omega)
  · rintro (hlt | ⟨hlt, hmod⟩)
    · exact alone_of_lt hlt
    · by_cases hsmall : n < 2 ^ (f + 1)
      · exact alone_of_lt hsmall
      · exact alone_of_mod_four (not_lt.mp hsmall) hlt hmod

end RaylsSuite.Foundation.Significand
