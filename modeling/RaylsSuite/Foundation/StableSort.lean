import Mathlib.Order.Basic
import RaylsSuite.Foundation.Number

/-! # Stable sorting with a comparator

Where a comparator of numbers is consistent, the result of a stable sort with
it is determined: whatever the algorithm, the list comes out in one way.
-/

namespace RaylsSuite.Foundation

universe u v

/-- `value < 0`; NaN is not. -/
def Number.isNegative : Number → Bool
  | .finite value => decide (value < 0)
  | .negInfinity => true
  | .nan | .infinity => false

variable {α : Type u} {compare : α → α → Number} {list first second result : List α}

/-- The comparator orders all values: it answers the other way about when its arguments
are exchanged, and what does not come behind is transitive. A result that is neither positive
nor negative, NaN among them, says that the arguments tie. -/
structure ConsistentComparator (compare : α → α → Number) : Prop where
  swap : ∀ a b, (compare a b).isNegative = (compare b a).isPositive
  trans : ∀ a b c, (compare a b).isPositive = false → (compare b c).isPositive = false →
    (compare a c).isPositive = false

/-- Neither of the two comes behind the other. -/
def ties (compare : α → α → Number) (a b : α) : Bool :=
  !(compare a b).isPositive && !(compare b a).isPositive

/-- The result of a stable sort: the same elements, none before one that it comes behind,
and all that tie with an element as they stood. -/
structure StablySorted (compare : α → α → Number) (list result : List α) : Prop where
  perm : result.Perm list
  sorted : result.Pairwise fun a b => (compare a b).isPositive = false
  stable : ∀ a, result.filter (ties compare a) = list.filter (ties compare a)

namespace ConsistentComparator

/-- Of two values not each comes behind the other. -/
theorem not_both {a b : α} (hcompare : ConsistentComparator compare)
    (hbehind : (compare a b).isPositive = true) : (compare b a).isPositive = false := by
  have hswap := hcompare.swap a b
  cases hvalue : compare a b with
  | nan | negInfinity => simp [hvalue, Number.isPositive] at hbehind
  | finite value =>
      rw [← hswap, hvalue]
      rw [hvalue] at hbehind
      exact decide_eq_false (Rat.not_lt.mpr (Rat.le_of_lt (of_decide_eq_true hbehind)))
  | infinity => rw [← hswap, hvalue]; rfl

theorem self (hcompare : ConsistentComparator compare) (a : α) :
    (compare a a).isPositive = false := by
  cases hself : (compare a a).isPositive with
  | false => rfl
  | true => exact absurd (hself.symm.trans (hcompare.not_both hself)) Bool.true_eq_false_eq_False

theorem ties_self (hcompare : ConsistentComparator compare) (a : α) : ties compare a a = true := by
  simp [ties, hcompare.self a]

/-- A comparator that compares keys of a linear order. -/
theorem of_key {κ : Type v} [LinearOrder κ] (key : α → κ)
    (hpositive : ∀ a b, (compare a b).isPositive = true ↔ key b < key a)
    (hnegative : ∀ a b, (compare a b).isNegative = true ↔ key a < key b) :
    ConsistentComparator compare where
  swap a b := Bool.eq_iff_iff.mpr ((hnegative a b).trans (hpositive b a).symm)
  trans a b c := by
    simp only [← Bool.not_eq_true, hpositive, not_lt]
    exact le_trans

end ConsistentComparator

/-! ## The sort of this library -/

/-- A consistent comparator sorts stably. -/
theorem sortBy_stablySorted (hcompare : ConsistentComparator compare) (list : List α) :
    StablySorted compare list (sortBy compare list) := by
  have htrans : ∀ a b c, (!(compare a b).isPositive) = true → (!(compare b c).isPositive) = true →
      (!(compare a c).isPositive) = true := by
    simpa using hcompare.trans
  have htotal : ∀ a b, (!(compare a b).isPositive || !(compare b a).isPositive) = true := by
    intro a b
    cases hbehind : (compare a b).isPositive with
    | false => rfl
    | true => simp [hcompare.not_both hbehind]
  refine ⟨sortBy_perm compare list, ?_, fun a => ?_⟩
  · simpa [sortBy] using List.pairwise_mergeSort htrans htotal list
  · -- the tied elements are in order already, so the sort keeps them as a sublist
    have htied : (list.filter (ties compare a)).Pairwise
        fun b c => (!(compare b c).isPositive) = true := by
      refine List.pairwise_of_forall_mem_list fun b hb c hc => ?_
      simp only [List.mem_filter, ties, Bool.and_eq_true] at hb hc
      exact htrans b a c hb.2.2 hc.2.1
    have hkept : (list.filter (ties compare a)).Sublist (sortBy compare list) :=
      List.sublist_mergeSort htrans htotal htied List.filter_sublist
    have hfiltered := hkept.filter (ties compare a)
    rw [List.filter_filter, List.filter_congr fun b _ => Bool.and_self _] at hfiltered
    exact (hfiltered.eq_of_length
      ((sortBy_perm compare list).filter (ties compare a)).length_eq.symm).symm

/-! ## One result -/

namespace StablySorted

/-- Two ordered arrangements of the same elements, with the same classes of ties. -/
theorem eq_of_filter (hcompare : ConsistentComparator compare) (hperm : first.Perm second)
    (hfirst : first.Pairwise fun a b => (compare a b).isPositive = false)
    (hsecond : second.Pairwise fun a b => (compare a b).isPositive = false)
    (hstable : ∀ a, first.filter (ties compare a) = second.filter (ties compare a)) :
    first = second := by
  induction first generalizing second with
  | nil => exact hperm.nil_eq
  | cons a rest ih =>
      cases second with
      | nil => exact absurd hperm.length_eq (Nat.succ_ne_zero _)
      | cons b others =>
          rw [List.pairwise_cons] at hfirst hsecond
          -- each head is not behind the other, so both lead the same class
          have hab : (compare a b).isPositive = false := by
            rcases List.mem_cons.mp (hperm.mem_iff.mpr List.mem_cons_self) with heq | hmem
            · exact heq ▸ hcompare.self _
            · exact hfirst.1 b hmem
          have hba : (compare b a).isPositive = false := by
            rcases List.mem_cons.mp (hperm.mem_iff.mp List.mem_cons_self) with heq | hmem
            · exact heq ▸ hcompare.self _
            · exact hsecond.1 a hmem
          have hheads := hstable a
          rw [List.filter_cons_of_pos (hcompare.ties_self a),
            List.filter_cons_of_pos (show ties compare a b = true by simp [ties, hab, hba])]
            at hheads
          obtain rfl : a = b := (List.cons.inj hheads).1
          refine congrArg (a :: ·) (ih hperm.cons_inv hfirst.2 hsecond.2 fun c => ?_)
          have hclass := hstable c
          rw [List.filter_cons, List.filter_cons] at hclass
          split at hclass
          next => exact (List.cons.inj hclass).2
          next => exact hclass

/-- Stable sorting with a consistent comparator has one result. -/
theorem unique (hcompare : ConsistentComparator compare)
    (hfirst : StablySorted compare list first) (hsecond : StablySorted compare list second) :
    first = second :=
  eq_of_filter hcompare (hfirst.perm.trans hsecond.perm.symm) hfirst.sorted hsecond.sorted
    fun a => (hfirst.stable a).trans (hsecond.stable a).symm

end StablySorted

end RaylsSuite.Foundation
