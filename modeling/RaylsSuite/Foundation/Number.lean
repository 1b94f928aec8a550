import Mathlib.Data.Rat.Defs
import Mathlib.Data.List.Sort

/-! # Numbers with infinities and NaN

The arithmetic of comparators: differences of numbers that may be infinite,
and the order in which a stable sort with such a comparator puts a list.
-/

namespace RaylsSuite.Foundation

universe u

inductive Number where
  | nan
  | negInfinity
  | finite (value : ℚ)
  | infinity
deriving DecidableEq, Repr

namespace Number

def sub : Number → Number → Number
  | .finite a, .finite b => .finite (a - b)
  | .nan, _ | _, .nan => .nan
  | .infinity, .infinity | .negInfinity, .negInfinity => .nan
  | .infinity, _ | _, .negInfinity => .infinity
  | .negInfinity, _ | _, .infinity => .negInfinity

instance : Sub Number := ⟨sub⟩

/-- `0 < value`; NaN is not. -/
def isPositive : Number → Bool
  | .finite value => decide (0 < value)
  | .infinity => true
  | .nan | .negInfinity => false

end Number

/-- `[...list].sort(compare)`: a stable sort that moves an element behind another when
the comparator is positive. A NaN result counts as 0. -/
def sortBy {α : Type u} (compare : α → α → Number) (list : List α) : List α :=
  list.mergeSort fun a b => !(compare a b).isPositive

theorem sortBy_perm {α : Type u} (compare : α → α → Number) (list : List α) :
    (sortBy compare list).Perm list :=
  List.mergeSort_perm list _

end RaylsSuite.Foundation
