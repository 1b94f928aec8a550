import Mathlib.Algebra.Order.Floor.Div
import Mathlib.Data.Int.CardIntervalMod
import Mathlib.Data.List.Perm.Subperm

/-! # Taking turns

Indices are given to the targets of a list in turn, the index modulo the number
of targets. Distinct indices below a total then give every target its share at
most, and together they give it a share that is fair.
-/

namespace RaylsSuite.Foundation.RoundRobin

universe u

variable {α : Type u}

/-- The target of an index. -/
def assign (targets : List α) (hne : 0 < targets.length) (index : Nat) : α :=
  targets.get ⟨index % targets.length, Nat.mod_lt index hne⟩

variable {targets : List α} {hne : 0 < targets.length} {indices : List Nat} {target : α}
  {total : Nat}

theorem assign_mem (index : Nat) : assign targets hne index ∈ targets := List.get_mem _ _

theorem assign_eq_get_iff (hnodup : targets.Nodup) (position : Fin targets.length) (index : Nat) :
    assign targets hne index = targets.get position ↔ index ≡ position [MOD targets.length] := by
  rw [assign, hnodup.get_inj_iff, Fin.ext_iff, Nat.ModEq, Nat.mod_eq_of_lt position.isLt]

/-- The largest share is the quotient, rounded up. -/
theorem share_eq (hne : 0 < targets.length) (total : Nat) : total ⌈/⌉ targets.length =
    total / targets.length + if 0 < total % targets.length then 1 else 0 := by
  have hrest := Nat.mod_lt total hne
  have htotal := Nat.div_add_mod total targets.length
  rw [Nat.ceilDiv_eq_add_pred_div]
  split
  next hsome =>
    rw [Nat.div_eq_of_lt_le]
    · rw [Nat.add_mul, Nat.mul_comm]
      omega
    · rw [Nat.add_mul, Nat.add_mul, Nat.mul_comm]
      omega
  next hnone =>
    rw [Nat.div_eq_of_lt_le]
    · rw [Nat.add_mul, Nat.mul_comm]
      omega
    · rw [Nat.add_mul, Nat.add_mul, Nat.mul_comm]
      omega

variable [DecidableEq α]

/-- How many of the indices a target is given. -/
def load (targets : List α) (hne : 0 < targets.length) (indices : List Nat) (target : α) : Nat :=
  indices.countP fun index => assign targets hne index = target

/-- A target's load by its position. -/
theorem load_range (hnodup : targets.Nodup) (position : Fin targets.length) (total : Nat) :
    load targets hne (List.range total) (targets.get position) =
      total / targets.length + if (position : Nat) < total % targets.length then 1 else 0 := by
  calc load targets hne (List.range total) (targets.get position)
      = total.count (· ≡ position [MOD targets.length]) := by
        rw [load, Nat.count_eq_card_filter_range, List.countP_eq_length_filter]
        congr 2
        funext index
        exact decide_eq_decide.mpr (assign_eq_get_iff hnodup position index)
    _ = _ := by rw [Nat.count_modEq_card _ hne, Nat.mod_eq_of_lt position.isLt]

/-- No target has more than the largest share. -/
theorem load_range_le (hnodup : targets.Nodup) (target : α) (total : Nat) :
    load targets hne (List.range total) target ≤ total ⌈/⌉ targets.length := by
  by_cases hmem : target ∈ targets
  · obtain ⟨position, rfl⟩ := List.get_of_mem hmem
    rw [load_range hnodup, share_eq hne]
    apply Nat.add_le_add_left
    split
    next hlt => rw [if_pos (Nat.zero_lt_of_lt hlt)]
    next => exact Nat.zero_le _
  · have hnone : load targets hne (List.range total) target = 0 := by
      rw [load, List.countP_eq_zero]
      intro index _ hassigned
      exact hmem (of_decide_eq_true hassigned ▸ assign_mem index)
    exact hnone ▸ Nat.zero_le _

/-- Distinct indices give no target more than its share. -/
theorem load_le (hnodup : targets.Nodup) (hindices : indices.Nodup)
    (hlt : ∀ index ∈ indices, index < total) (target : α) :
    load targets hne indices target ≤ total ⌈/⌉ targets.length := by
  have hsubset : indices ⊆ List.range total := fun index hindex =>
    List.mem_range.mpr (hlt index hindex)
  exact ((List.subperm_of_subset hindices hsubset).countP_le _).trans
    (load_range_le hnodup target total)

theorem load_of_all (hindices : indices.Nodup)
    (hall : ∀ index, index ∈ indices ↔ index < total) (target : α) :
    load targets hne indices target = load targets hne (List.range total) target := by
  apply List.Perm.countP_eq
  rw [List.perm_ext_iff_of_nodup hindices List.nodup_range]
  intro index
  rw [hall, List.mem_range]

/-- All the indices give every target the same number, or one more. -/
theorem le_load_of_all (hnodup : targets.Nodup) (hindices : indices.Nodup)
    (hall : ∀ index, index ∈ indices ↔ index < total) (hmem : target ∈ targets) :
    total / targets.length ≤ load targets hne indices target := by
  obtain ⟨position, rfl⟩ := List.get_of_mem hmem
  rw [load_of_all hindices hall, load_range hnodup]
  exact Nat.le_add_right _ _

/-- All the indices give the first target its whole share. -/
theorem load_first_of_all (hnodup : targets.Nodup) (hindices : indices.Nodup)
    (hall : ∀ index, index ∈ indices ↔ index < total) :
    load targets hne indices (targets.get ⟨0, hne⟩) = total ⌈/⌉ targets.length := by
  rw [load_of_all hindices hall, load_range hnodup, share_eq hne]

end RaylsSuite.Foundation.RoundRobin
