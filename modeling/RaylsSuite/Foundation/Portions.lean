import Mathlib.Algebra.Order.Field.Rat
import Mathlib.Algebra.Order.Floor.Semiring
import Mathlib.Data.List.Range
import Mathlib.Data.Rat.Floor

/-! # Portions of a total

A total is handed out in portions of one size, until what is left fits into a
last one. There are as many portions as the total needs, so none is empty and
together they are the total.
-/

namespace RaylsSuite.Foundation

/-- The portion at an index, where those before it are full. -/
def portion (size total index : Nat) : Nat := min size (total - index * size)

/-- A portion is due as long as those before it do not make up the total. -/
def Needs (size total count : Nat) : Prop := ∀ index, index < count ↔ index * size < total

theorem ceil_div_needs {size : Nat} (hsize : 0 < size) (total : Nat) :
    Needs size total ⌈(total : ℚ) / size⌉₊ := by
  intro index
  have hpositive : (0 : ℚ) < size := Nat.cast_pos.mpr hsize
  rw [Nat.lt_ceil, lt_div_iff₀ hpositive]
  exact_mod_cast Iff.rfl

section Count

variable {size total count index : Nat}

theorem portion_le (size total index : Nat) : portion size total index ≤ size :=
  Nat.min_le_left _ _

theorem Needs.portion_pos (hneeds : Needs size total count) (hsize : 0 < size)
    (hindex : index < count) : 0 < portion size total index := by
  have hleft := (hneeds index).mp hindex
  rw [portion, Nat.lt_min]
  omega

/-- A portion that is not the last one is full. -/
theorem Needs.portion_full (hneeds : Needs size total count) (hnext : index + 1 < count) :
    portion size total index = size := by
  have hleft := (hneeds (index + 1)).mp hnext
  rw [Nat.succ_mul] at hleft
  rw [portion, Nat.min_eq_left]
  omega

/-- The portions from one on are what those before it leave. -/
theorem Needs.sum_from (hneeds : Needs size total count) (left index : Nat)
    (hend : index + left = count) :
    ((List.range' index left).map (portion size total)).sum = total - index * size := by
  induction left generalizing index with
  | zero =>
      have hcovered : ¬index * size < total := mt (hneeds index).mpr (by omega)
      rw [List.range'_zero, List.map_nil, List.sum_nil]
      omega
  | succ left ih =>
      have hnext : (index + 1) * size = index * size + size := Nat.succ_mul index size
      rw [List.range'_succ, List.map_cons, List.sum_cons, ih (index + 1) (by omega), portion]
      omega

theorem Needs.sum_portions (hneeds : Needs size total count) :
    ((List.range' 0 count).map (portion size total)).sum = total := by
  rw [hneeds.sum_from count 0 (Nat.zero_add count), Nat.zero_mul, Nat.sub_zero]

end Count

end RaylsSuite.Foundation
