import Mathlib.Data.ENat.Lattice

/-! # The first attempt with a property

Attempts are counted from one. The first attempt with a property is infinite
when there is none.
-/

namespace RaylsSuite.Foundation

/-- The number of the first attempt that has the property. -/
noncomputable def firstAttempt (property : ℕ → Prop) : ℕ∞ :=
  ⨅ n, ⨅ _ : 1 ≤ n ∧ property n, (n : ℕ∞)

variable {property : ℕ → Prop} {n : ℕ}

theorem firstAttempt_le (hn : 1 ≤ n) (hproperty : property n) : firstAttempt property ≤ n :=
  iInf₂_le n ⟨hn, hproperty⟩

/-- An attempt is before the first one exactly if none has met the property so far. -/
theorem lt_firstAttempt_iff :
    (n : ℕ∞) < firstAttempt property ↔ ∀ m, 1 ≤ m → m ≤ n → ¬property m := by
  constructor
  · intro hlt m hm hmn hproperty
    have hle := hlt.trans_le (firstAttempt_le hm hproperty)
    exact absurd (Nat.cast_lt.mp hle) (by omega)
  · intro hnone
    have hsucc : ((n + 1 : ℕ) : ℕ∞) ≤ firstAttempt property := by
      apply le_iInf₂
      intro m hm
      by_contra hlt
      have hle : m ≤ n := Nat.lt_succ_iff.mp (Nat.cast_lt.mp (not_le.mp hlt))
      exact hnone m hm.1 hle hm.2
    exact (Nat.cast_lt.mpr (Nat.lt_succ_self n)).trans_le hsucc

theorem firstAttempt_eq (hn : 1 ≤ n) (hproperty : property n)
    (hfirst : ∀ m, 1 ≤ m → m < n → ¬property m) : firstAttempt property = n := by
  apply le_antisymm (firstAttempt_le hn hproperty)
  apply le_iInf₂
  intro m hm
  by_contra hlt
  exact hfirst m hm.1 (Nat.cast_lt.mp (not_le.mp hlt)) hm.2

/-- The first attempt is the one that meets the property behind attempts that do not. -/
theorem firstAttempt_eq_iff : firstAttempt property = n ↔
    1 ≤ n ∧ property n ∧ ∀ m, 1 ≤ m → m < n → ¬property m := by
  constructor
  · intro hfirst
    have hnone : ∀ m, 1 ≤ m → m < n → ¬property m := by
      intro m hm hlt hproperty
      have hle := firstAttempt_le hm hproperty
      rw [hfirst] at hle
      exact absurd (Nat.cast_le.mp hle) (by omega)
    have hreached : ¬(n : ℕ∞) < firstAttempt property := hfirst ▸ lt_irrefl _
    rw [lt_firstAttempt_iff] at hreached
    push Not at hreached
    obtain ⟨m, hm, hle, hproperty⟩ := hreached
    obtain rfl : m = n := by
      by_contra hne
      exact hnone m hm (by omega) hproperty
    exact ⟨hm, hproperty, hnone⟩
  · rintro ⟨hn, hproperty, hnone⟩
    exact firstAttempt_eq hn hproperty hnone

theorem exists_of_firstAttempt_le (hle : firstAttempt property ≤ n) :
    ∃ m : ℕ, firstAttempt property = m ∧ m ≤ n ∧ 1 ≤ m ∧ property m := by
  obtain ⟨m, hm⟩ := ENat.ne_top_iff_exists.mp (ne_top_of_le_ne_top (ENat.natCast_ne_top n) hle)
  rw [← hm] at hle
  obtain ⟨hone, hproperty, -⟩ := firstAttempt_eq_iff.mp hm.symm
  exact ⟨m, hm.symm, Nat.cast_le.mp hle, hone, hproperty⟩

/-- Two properties have the same first attempt among those within a limit, or none, exactly if they
agree at all attempts up to the first of the one. -/
theorem firstAttempt_agree_iff (hit ready within : ℕ → Prop)
    (hwithin : ∀ m n, m ≤ n → within n → within m) :
    ((∀ n : ℕ, firstAttempt hit = n → within n → ready n) ∧
      ∀ n : ℕ, firstAttempt ready = n → within n → firstAttempt hit = n) ↔
      ∀ n : ℕ, 1 ≤ n → within n → (n : ℕ∞) ≤ firstAttempt ready → (hit n ↔ ready n) := by
  constructor
  · rintro ⟨honly, hstops⟩ n hn hin hbefore
    constructor
    · intro hhit
      obtain ⟨m, hfirst, hle, hone, -⟩ := exists_of_firstAttempt_le (firstAttempt_le hn hhit)
      have hready := honly m hfirst (hwithin m n hle hin)
      have hback := hbefore.trans (firstAttempt_le hone hready)
      exact le_antisymm hle (Nat.cast_le.mp hback) ▸ hready
    · intro hready
      have hfirst := hstops n (le_antisymm (firstAttempt_le hn hready) hbefore) hin
      exact (firstAttempt_eq_iff.mp hfirst).2.1
  · intro hagree
    have hstops : ∀ n : ℕ, firstAttempt ready = n → within n → firstAttempt hit = n := by
      intro n hfirst hin
      obtain ⟨hone, hready, hnone⟩ := firstAttempt_eq_iff.mp hfirst
      refine firstAttempt_eq hone ((hagree n hone hin hfirst.ge).mpr hready) ?_
      intro m hm hlt hhit
      have hbefore : (m : ℕ∞) ≤ firstAttempt ready := hfirst ▸ Nat.cast_le.mpr hlt.le
      exact hnone m hm hlt ((hagree m hm (hwithin m n hlt.le hin) hbefore).mp hhit)
    refine ⟨fun n hfirst hin => ?_, hstops⟩
    obtain ⟨hone, hhit, -⟩ := firstAttempt_eq_iff.mp hfirst
    rcases le_or_gt (n : ℕ∞) (firstAttempt ready) with hle | hlt
    · exact (hagree n hone hin hle).mp hhit
    · -- an earlier attempt has the property, and the other one hits it
      obtain ⟨m, hready, hmn, hm, -⟩ := exists_of_firstAttempt_le hlt.le
      have hagain := hstops m hready (hwithin m n hmn hin)
      rw [hready, ← hagain, hfirst] at hlt
      exact absurd hlt (lt_irrefl _)

end RaylsSuite.Foundation
