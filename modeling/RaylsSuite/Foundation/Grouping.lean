import Mathlib.Algebra.Order.BigOperators.Group.List
import Mathlib.Algebra.Order.Ring.Nat
import Mathlib.Data.List.Perm.Basic
import RaylsSuite.Foundation.Machine

/-! # Amounts by key

Items carry an amount and have a key. Groups of items have one entry for each
key, with the sum of its amounts. When the items are delivered one by one, in
any order, the groups are complete exactly when nothing of worth is pending.
-/

namespace RaylsSuite.Foundation

universe u v w

variable {Item : Type u} {Group : Type w} {Key : Type v} [DecidableEq Key]

/-- The sum of the amounts under a key. -/
def totalAt (key : Item → Key) (amount : Item → Nat) (items : List Item) (place : Key) : Nat :=
  ((items.filter fun item => key item = place).map amount).sum

section Total

variable {key : Item → Key} {amount : Item → Nat} {items : List Item} {item : Item} {place : Key}

@[simp] theorem totalAt_nil : totalAt key amount [] place = 0 := rfl

theorem totalAt_cons : totalAt key amount (item :: items) place =
    (if key item = place then amount item else 0) + totalAt key amount items place := by
  by_cases hkey : key item = place <;> simp [totalAt, hkey]

theorem totalAt_append (first second : List Item) :
    totalAt key amount (first ++ second) place =
      totalAt key amount first place + totalAt key amount second place := by
  simp [totalAt]

theorem totalAt_concat : totalAt key amount (items ++ [item]) place =
    totalAt key amount items place + if key item = place then amount item else 0 := by
  rw [totalAt_append, totalAt_cons, totalAt_nil, Nat.add_zero]

theorem totalAt_perm {first second : List Item} (hperm : first.Perm second) (place : Key) :
    totalAt key amount first place = totalAt key amount second place :=
  ((hperm.filter _).map amount).sum_eq

theorem totalAt_eq_zero_of_not_mem (hkey : place ∉ items.map key) :
    totalAt key amount items place = 0 := by
  rw [totalAt, List.filter_eq_nil_iff.mpr]
  · rfl
  · intro item hmem heq
    exact hkey (List.mem_map.mpr ⟨item, hmem, of_decide_eq_true heq⟩)

theorem le_totalAt (hmem : item ∈ items) : amount item ≤ totalAt key amount items (key item) :=
  List.single_le_sum (fun _ _ => Nat.zero_le _) _ <|
    List.mem_map_of_mem (List.mem_filter.mpr ⟨hmem, decide_eq_true rfl⟩)

end Total

/-- What an item counts for. -/
structure Weighing (Item : Type u) (Key : Type v) where
  key : Item → Key
  amount : Item → Nat

/-- At most one group for each key, with the sum of the amounts under it, and one for each
item's. -/
structure Groups (weighing : Weighing Item Key) (grouping : Weighing Group Key)
    (items : List Item) (groups : List Group) : Prop where
  nodup : (groups.map grouping.key).Nodup
  covers : ∀ item ∈ items, ∃ group ∈ groups, grouping.key group = weighing.key item
  total : ∀ group ∈ groups,
    grouping.amount group = totalAt weighing.key weighing.amount items (grouping.key group)

section Groups

variable {weighing : Weighing Item Key} {grouping : Weighing Group Key} {items : List Item}
  {groups first rest : List Group} {item : Item} {group grown : Group}

theorem Groups.nil : Groups weighing grouping [] [] where
  nodup := List.nodup_nil
  covers _ hitem := absurd hitem List.not_mem_nil
  total _ hgroup := absurd hgroup List.not_mem_nil

/-- An item with a key of its own is a new group. -/
theorem Groups.push (hgroups : Groups weighing grouping items groups)
    (hnew : ∀ other ∈ groups, grouping.key other ≠ weighing.key item)
    (hkey : grouping.key group = weighing.key item)
    (hamount : grouping.amount group = weighing.amount item) :
    Groups weighing grouping (items ++ [item]) (groups ++ [group]) where
  nodup := by
    rw [List.map_append, List.map_singleton, List.nodup_append]
    refine ⟨hgroups.nodup, List.nodup_cons.mpr ⟨List.not_mem_nil, List.nodup_nil⟩, ?_⟩
    rintro _ hmem _ hlast rfl
    obtain ⟨other, hother, heq⟩ := List.mem_map.mp hmem
    exact hnew other hother ((heq.trans (List.mem_singleton.mp hlast)).trans hkey)
  covers other hother := by
    rcases List.mem_append.mp hother with hother | hother
    · obtain ⟨found, hfound, heq⟩ := hgroups.covers other hother
      exact ⟨found, List.mem_append_left _ hfound, heq⟩
    · rw [List.mem_singleton.mp hother]
      exact ⟨group, by simp, hkey⟩
  total other hother := by
    rw [totalAt_concat]
    rcases List.mem_append.mp hother with hother | hother
    · rw [if_neg (hnew other hother).symm, hgroups.total other hother, Nat.add_zero]
    · obtain rfl := List.mem_singleton.mp hother
      have hfresh : grouping.key other ∉ items.map weighing.key := by
        intro hmem
        obtain ⟨counted, hcounted, hsame⟩ := List.mem_map.mp hmem
        obtain ⟨found, hfound, heq⟩ := hgroups.covers counted hcounted
        exact hnew found hfound ((heq.trans hsame).trans hkey)
      rw [if_pos hkey.symm, totalAt_eq_zero_of_not_mem hfresh, Nat.zero_add, hamount]

/-- An item with the key of a group makes that one grow. -/
theorem Groups.grow (hgroups : Groups weighing grouping items (first ++ group :: rest))
    (hsame : grouping.key group = weighing.key item)
    (hkey : grouping.key grown = grouping.key group)
    (hamount : grouping.amount grown = grouping.amount group + weighing.amount item) :
    Groups weighing grouping (items ++ [item]) (first ++ grown :: rest) where
  nodup := by
    have hnodup := hgroups.nodup
    rw [List.map_append, List.map_cons] at hnodup ⊢
    rwa [hkey]
  covers other hother := by
    have hgrown : ∀ found ∈ first ++ group :: rest, ∃ now ∈ first ++ grown :: rest,
        grouping.key now = grouping.key found := by
      intro found hfound
      rcases List.mem_append.mp hfound with hfound | hfound
      · exact ⟨found, List.mem_append_left _ hfound, rfl⟩
      · rcases List.mem_cons.mp hfound with rfl | hfound
        · exact ⟨grown, by simp, hkey⟩
        · exact ⟨found, by simp [hfound], rfl⟩
    rcases List.mem_append.mp hother with hother | hother
    · obtain ⟨found, hfound, heq⟩ := hgroups.covers other hother
      obtain ⟨now, hnow, hsame⟩ := hgrown found hfound
      exact ⟨now, hnow, hsame.trans heq⟩
    · rw [List.mem_singleton.mp hother]
      exact ⟨grown, by simp, hkey.trans hsame⟩
  total other hother := by
    rw [totalAt_concat]
    have hnodup := hgroups.nodup
    rw [List.map_append, List.map_cons, List.nodup_append] at hnodup
    obtain ⟨_, htail, hdisjoint⟩ := hnodup
    have hne : other ∈ first ∨ other ∈ rest → weighing.key item ≠ grouping.key other := by
      rw [← hsame]
      rintro (hmem | hmem) heq
      · exact hdisjoint _ (List.mem_map_of_mem hmem) _ List.mem_cons_self heq.symm
      · exact (List.nodup_cons.mp htail).1 (heq ▸ List.mem_map_of_mem hmem)
    rcases List.mem_append.mp hother with hmem | hmem
    · rw [if_neg (hne (.inl hmem)), hgroups.total other (List.mem_append_left _ hmem), Nat.add_zero]
    · rcases List.mem_cons.mp hmem with rfl | hmem
      · rw [if_pos (hsame.symm.trans hkey.symm), hamount, hkey, hgroups.total group (by simp)]
      · rw [if_neg (hne (.inr hmem)), hgroups.total other (by simp [hmem]), Nat.add_zero]

/-- Items that are listed group by group. -/
theorem Groups.flatMap {parts : Group → List Item} (hnodup : (groups.map grouping.key).Nodup)
    (hkeys : ∀ group, ∀ item ∈ parts group, weighing.key item = grouping.key group)
    (hamounts : ∀ group, ((parts group).map weighing.amount).sum = grouping.amount group) :
    Groups weighing grouping (groups.flatMap parts) groups where
  nodup := hnodup
  covers item hitem := by
    obtain ⟨group, hgroup, hpart⟩ := List.mem_flatMap.mp hitem
    exact ⟨group, hgroup, (hkeys group item hpart).symm⟩
  total group hgroup := by
    -- only the group's own part has its key
    have hpart : ∀ other, totalAt weighing.key weighing.amount (parts other) (grouping.key group) =
        if grouping.key other = grouping.key group then grouping.amount other else 0 := by
      intro other
      split
      next heq =>
        rw [totalAt, List.filter_eq_self.mpr, hamounts other]
        exact fun item hitem => decide_eq_true ((hkeys other item hitem).trans heq)
      next hne =>
        refine totalAt_eq_zero_of_not_mem fun hmem => ?_
        obtain ⟨item, hitem, heq⟩ := List.mem_map.mp hmem
        exact hne ((hkeys other item hitem).symm.trans heq)
    induction groups with
    | nil => cases hgroup
    | cons first rest ih =>
        obtain ⟨hfirst, hrest⟩ := List.nodup_cons.mp hnodup
        rw [List.flatMap_cons, totalAt_append, hpart first]
        rcases List.mem_cons.mp hgroup with rfl | hmem
        · have hothers : totalAt weighing.key weighing.amount (rest.flatMap parts)
              (grouping.key group) = 0 := by
            refine totalAt_eq_zero_of_not_mem fun hkey => hfirst ?_
            obtain ⟨item, hitem, heq⟩ := List.mem_map.mp hkey
            obtain ⟨other, hother, hpart⟩ := List.mem_flatMap.mp hitem
            exact List.mem_map.mpr ⟨other, hother, (hkeys other item hpart).symm.trans heq⟩
          rw [if_pos rfl, hothers, Nat.add_zero]
        · have hne : grouping.key first ≠ grouping.key group := fun heq =>
            hfirst (List.mem_map.mpr ⟨group, hmem, heq.symm⟩)
          rw [if_neg hne, Nat.zero_add]
          exact ih hrest hmem

end Groups

/-! ## Delivery -/

/-- The items that were delivered, and those that are pending. -/
structure Deliveries (Item : Type u) where
  delivered : List Item
  pending : List Item

/-- Some pending item is delivered. -/
def delivering : Machine (Deliveries Item) Nat where
  step state index := state.pending[index]?.map fun item =>
    ⟨state.delivered ++ [item], state.pending.eraseIdx index⟩

/-- Nothing is lost or repeated on the way. -/
theorem delivered_perm {items : List Item} {state : Deliveries Item}
    (hreach : delivering.Reaches ⟨[], items⟩ state) :
    (state.delivered ++ state.pending).Perm items := by
  refine hreach.invariant (fun state => (state.delivered ++ state.pending).Perm items) ?_
    (List.Perm.refl items)
  intro state index next hperm hstep
  obtain ⟨item, hitem, rfl⟩ := Option.map_eq_some_iff.mp hstep
  obtain ⟨hlt, rfl⟩ := List.getElem?_eq_some_iff.mp hitem
  refine List.Perm.trans ?_ hperm
  rw [List.append_assoc, List.singleton_append]
  exact (List.getElem_cons_eraseIdx_perm hlt).append_left _

section Delivering

variable {weighing : Weighing Item Key} {grouping : Weighing Group Key} {items : List Item}
  {groups : List Group} {state : Deliveries Item}

/-- A group is never exceeded. -/
theorem Groups.delivered_le (hgroups : Groups weighing grouping items groups)
    (hreach : delivering.Reaches ⟨[], items⟩ state) {group : Group} (hgroup : group ∈ groups) :
    totalAt weighing.key weighing.amount state.delivered (grouping.key group) ≤
      grouping.amount group := by
  rw [hgroups.total group hgroup, ← totalAt_perm (delivered_perm hreach), totalAt_append]
  exact Nat.le_add_right _ _

/-- The groups are complete exactly when what is pending is worth nothing. -/
theorem Groups.complete_iff (hgroups : Groups weighing grouping items groups)
    (hreach : delivering.Reaches ⟨[], items⟩ state) :
    (∀ group ∈ groups, totalAt weighing.key weighing.amount state.delivered (grouping.key group) =
        grouping.amount group) ↔ ∀ item ∈ state.pending, weighing.amount item = 0 := by
  have hperm := delivered_perm hreach
  have htotal : ∀ group ∈ groups, grouping.amount group =
      totalAt weighing.key weighing.amount state.delivered (grouping.key group) +
        totalAt weighing.key weighing.amount state.pending (grouping.key group) := by
    intro group hgroup
    rw [hgroups.total group hgroup, ← totalAt_perm hperm, totalAt_append]
  constructor
  · intro hcomplete item hitem
    obtain ⟨group, hgroup, hsame⟩ := hgroups.covers item
      (hperm.subset (List.mem_append_right _ hitem))
    have hle : weighing.amount item ≤
        totalAt weighing.key weighing.amount state.pending (weighing.key item) := le_totalAt hitem
    have hsum := htotal group hgroup
    rw [hcomplete group hgroup, hsame] at hsum
    omega
  · intro hworthless group hgroup
    have hzero : totalAt weighing.key weighing.amount state.pending (grouping.key group) = 0 := by
      refine List.sum_eq_zero fun value hvalue => ?_
      obtain ⟨item, hitem, rfl⟩ := List.mem_map.mp hvalue
      exact hworthless item (List.mem_of_mem_filter hitem)
    rw [htotal group hgroup, hzero, Nat.add_zero]

end Delivering

end RaylsSuite.Foundation
