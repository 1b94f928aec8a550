import Mathlib.Algebra.Order.Group.Nat
import Mathlib.Data.List.Forall2

/-! # Tallies

What two tallies of one list say of the elements that both count, and what the
tally of marks says when only some positions can be marked.
-/

namespace RaylsSuite.Foundation

variable {α : Type}

theorem countP_and_add_countP_sdiff (p q : α → Bool) (list : List α) :
    list.countP (fun a => p a && q a) + list.countP (fun a => p a && !q a) = list.countP p := by
  rw [list.countP_eq_countP_filter_add p q, List.countP_filter, List.countP_filter]

theorem countP_sdiff_eq_zero_iff {p q : α → Bool} {list : List α} :
    list.countP (fun a => p a && !q a) = 0 ↔ ∀ a ∈ list, p a = true → q a = true := by
  simp [List.countP_eq_zero]

/-- The smaller tally counts the elements that both count exactly when one of the two properties
implies the other on the list. -/
theorem min_countP_eq_iff (p q : α → Bool) (list : List α) :
    min (list.countP p) (list.countP q) = list.countP (fun a => p a && q a) ↔
      (∀ a ∈ list, p a = true → q a = true) ∨ (∀ a ∈ list, q a = true → p a = true) := by
  have hfirst := countP_and_add_countP_sdiff p q list
  have hsecond := countP_and_add_countP_sdiff q p list
  have hswap : list.countP (fun a => q a && p a) = list.countP (fun a => p a && q a) :=
    List.countP_congr fun a _ => by rw [Bool.and_comm]
  rw [hswap] at hsecond
  rw [← countP_sdiff_eq_zero_iff, ← countP_sdiff_eq_zero_iff]
  omega

theorem countP_and_le_min (p q : α → Bool) (list : List α) :
    list.countP (fun a => p a && q a) ≤ min (list.countP p) (list.countP q) :=
  le_min (List.countP_mono_left fun _ _ hboth => (Bool.and_eq_true_iff.mp hboth).1)
    (List.countP_mono_left fun _ _ hboth => (Bool.and_eq_true_iff.mp hboth).2)

/-! ## Marks -/

/-- Position by position, only what can be marked is. -/
def MarksOnly (marks able : List Bool) : Prop :=
  List.Forall₂ (fun mark can => mark = true → can = true) marks able

/-- Everything that can be marked is. -/
def MarksAll (marks able : List Bool) : Prop :=
  ∀ position : Nat, able[position]? = some true → marks[position]? = some true

variable {marks able : List Bool}

theorem MarksOnly.count_le (honly : MarksOnly marks able) :
    marks.count true ≤ able.count true := by
  induction honly with
  | nil => exact Nat.le_refl _
  | @cons mark can marks able hmark hrest ih =>
      rw [List.count_cons, List.count_cons]
      cases mark <;> cases can <;> simp at hmark ⊢ <;> omega

theorem marksAll_cons {mark can : Bool} : MarksAll (mark :: marks) (can :: able) ↔
    (can = true → mark = true) ∧ MarksAll marks able := by
  constructor
  · intro hall
    refine ⟨fun hcan => ?_, fun position hable => hall (position + 1) hable⟩
    exact Option.some.inj (hall 0 (congrArg some hcan))
  · rintro ⟨hhead, hall⟩ position hable
    cases position with
    | zero => exact congrArg some (hhead (Option.some.inj hable))
    | succ position => exact hall position hable

/-- Where only the able are marked, all of them are exactly if there are as many marks. -/
theorem MarksOnly.marksAll_iff (honly : MarksOnly marks able) :
    MarksAll marks able ↔ able.count true ≤ marks.count true := by
  induction honly with
  | nil => exact iff_of_true (fun _ hnone => by cases hnone) (Nat.le_refl _)
  | @cons mark can marks able hmark hrest ih =>
      have hle := MarksOnly.count_le hrest
      rw [marksAll_cons, ih, List.count_cons, List.count_cons]
      cases mark <;> cases can <;> simp at hmark ⊢
      all_goals omega

end RaylsSuite.Foundation
