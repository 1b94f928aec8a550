import Mathlib.Data.List.Basic

/-! # Maps that are changed while they are iterated

A map keeps its entries in slots, in the order in which they were added.
Clearing it empties the slots and keeps them, so an iterator, which is a
position in the slots, goes on to the entries that are added later.
-/

namespace RaylsSuite.Foundation

universe u v

structure LiveMap (Key : Type u) (Value : Type v) where
  slots : List (Option (Key × Value))
deriving DecidableEq, Repr

namespace LiveMap

variable {Key : Type u} {Value : Type v}

def empty : LiveMap Key Value := ⟨[]⟩

/-- The entry is in the map. -/
def Holds (map : LiveMap Key Value) (key : Key) (value : Value) : Prop :=
  some (key, value) ∈ map.slots

def get [DecidableEq Key] (map : LiveMap Key Value) (key : Key) : Option Value :=
  (map.slots.filterMap id).lookup key

/-- The map with an entry for a new key. -/
def add (map : LiveMap Key Value) (key : Key) (value : Value) : LiveMap Key Value :=
  ⟨map.slots ++ [some (key, value)]⟩

def clear (map : LiveMap Key Value) : LiveMap Key Value := ⟨map.slots.map fun _ => none⟩

/-- The entry of the first slot that is not empty, counted from a position, and the position
behind it. -/
def firstEntry : Nat → List (Option (Key × Value)) → Option ((Key × Value) × Nat)
  | _, [] => none
  | position, some entry :: _ => some (entry, position + 1)
  | position, none :: rest => firstEntry (position + 1) rest

/-- What an iterator at a position yields next. -/
def next (map : LiveMap Key Value) (position : Nat) : Option ((Key × Value) × Nat) :=
  firstEntry position (map.slots.drop position)

variable {map : LiveMap Key Value} {key other : Key} {value found : Value} {position after : Nat}

theorem holds_iff_getElem? : map.Holds key value ↔
    ∃ position : Nat, map.slots[position]? = some (some (key, value)) :=
  List.mem_iff_getElem?

theorem not_holds_empty : ¬(empty : LiveMap Key Value).Holds key value := List.not_mem_nil

theorem not_holds_clear : ¬map.clear.Holds key value := by
  simp [Holds, clear]

theorem holds_add : (map.add key value).Holds other found ↔
    map.Holds other found ∨ other = key ∧ found = value := by
  simp [Holds, add]

theorem getElem?_add : (map.add key value).slots[position]? = some (some (other, found)) ↔
    map.slots[position]? = some (some (other, found)) ∨
      position = map.slots.length ∧ other = key ∧ found = value := by
  simp only [add]
  grind

theorem holds_of_get [DecidableEq Key] (hget : map.get key = some value) :
    map.Holds key value := by
  obtain ⟨before, after, hsplit, _⟩ := List.lookup_eq_some_iff.mp hget
  have hmem : (key, value) ∈ map.slots.filterMap id := by
    rw [hsplit]
    exact List.mem_append_right _ List.mem_cons_self
  simpa [Holds] using hmem

theorem not_holds_of_get [DecidableEq Key] (hget : map.get key = none) (value : Value) :
    ¬map.Holds key value := by
  intro hholds
  have hmem : (key, value) ∈ map.slots.filterMap id := by simpa [Holds] using hholds
  have hne := List.lookup_eq_none_iff.mp hget (key, value) hmem
  simp at hne

/-- The entry that is found stands behind empty slots. -/
theorem firstEntry_eq_some {slots : List (Option (Key × Value))} {entry : Key × Value}
    (hentry : firstEntry position slots = some (entry, after)) :
    ∃ offset, after = position + offset + 1 ∧ slots[offset]? = some (some entry) ∧
      ∀ earlier < offset, slots[earlier]? = some none := by
  induction slots generalizing position with
  | nil => cases hentry
  | cons slot rest ih =>
      cases slot with
      | some first =>
          obtain ⟨rfl, rfl⟩ := Prod.mk.inj (Option.some.inj hentry)
          exact ⟨0, rfl, rfl, fun earlier hearlier => absurd hearlier (Nat.not_lt_zero _)⟩
      | none =>
          obtain ⟨offset, rfl, hslot, hempty⟩ := ih hentry
          refine ⟨offset + 1, by omega, hslot, fun earlier hearlier => ?_⟩
          cases earlier with
          | zero => rfl
          | succ earlier => exact hempty earlier (by omega)

/-- Where none is found, all slots are empty. -/
theorem firstEntry_eq_none {slots : List (Option (Key × Value))}
    (hnone : firstEntry position slots = none) (offset : Nat) (entry : Key × Value) :
    slots[offset]? ≠ some (some entry) := by
  induction slots generalizing position offset with
  | nil => simp
  | cons slot rest ih =>
      cases slot with
      | some first => cases hnone
      | none =>
          cases offset with
          | zero => simp
          | succ offset => simpa using ih hnone offset

/-- The iterator goes to the next slot that is not empty. -/
theorem next_eq_some {entry : Key × Value} (hnext : map.next position = some (entry, after)) :
    position < after ∧ map.slots[after - 1]? = some (some entry) ∧
      ∀ index, position ≤ index → index < after - 1 → map.slots[index]? = some none := by
  obtain ⟨offset, rfl, hslot, hempty⟩ := firstEntry_eq_some hnext
  rw [List.getElem?_drop] at hslot
  refine ⟨by omega, by simpa using hslot, fun index hlow hhigh => ?_⟩
  have hslot := hempty (index - position) (by omega)
  rwa [List.getElem?_drop, Nat.add_sub_cancel' hlow] at hslot

/-- An iterator that is done has no entry ahead of it. -/
theorem next_eq_none (hnext : map.next position = none) {index : Nat} (hindex : position ≤ index)
    (entry : Key × Value) : map.slots[index]? ≠ some (some entry) := by
  have hslot := firstEntry_eq_none hnext (index - position) entry
  rwa [List.getElem?_drop, Nat.add_sub_cancel' hindex] at hslot

end LiveMap

end RaylsSuite.Foundation
