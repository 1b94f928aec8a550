import Mathlib.Algebra.BigOperators.Group.List.Basic
import Mathlib.Algebra.GroupWithZero.Nat
import Mathlib.Algebra.Order.BigOperators.Group.List
import Mathlib.Algebra.Order.Group.Nat
import Mathlib.Data.List.Perm.Basic
import Mathlib.Logic.Function.Basic

/-! # Value that travels

A place that sends a parcel is charged at once, and the parcel's destination is
credited when it arrives; a parcel that cannot be delivered goes back to its
source. A region that no parcel leaves or enters keeps what it is worth, whereas
what its places hold only grows as long as nothing more is sent.
-/

namespace RaylsSuite.Foundation

universe u

structure Parcel (Place : Type u) where
  source : Place
  destination : Place
  value : Nat
deriving DecidableEq, Repr

/-- What the places hold, and the parcels on their way. -/
structure Holdings (Place : Type u) where
  held : Place → Nat
  inFlight : List (Parcel Place)

/-- What becomes of a parcel. -/
inductive Fate where
  | arrives
  | returns
deriving DecidableEq, Repr

/-- Where a parcel ends. -/
def Parcel.place {Place : Type u} (parcel : Parcel Place) : Fate → Place
  | .arrives => parcel.destination
  | .returns => parcel.source

/-- The parcel stays on one side of the region's border. -/
def Parcel.Respects {Place : Type u} (region : List Place) (parcel : Parcel Place) : Prop :=
  parcel.source ∈ region ↔ parcel.destination ∈ region

namespace Holdings

variable {Place : Type u} [DecidableEq Place] {holdings next : Holdings Place}
  {region : List Place} {parcel : Parcel Place} {place : Place}

def credit (held : Place → Nat) (place : Place) (value : Nat) : Place → Nat :=
  Function.update held place (held place + value)

/-- A place cannot send more than it holds. -/
def send (holdings : Holdings Place) (parcel : Parcel Place) : Option (Holdings Place) :=
  if parcel.value ≤ holdings.held parcel.source then
    some ⟨Function.update holdings.held parcel.source
      (holdings.held parcel.source - parcel.value), holdings.inFlight ++ [parcel]⟩
  else none

/-- The fate of a parcel in flight is settled. -/
def settle (holdings : Holdings Place) (position : Nat) (fate : Fate) : Option (Holdings Place) :=
  holdings.inFlight[position]?.map fun parcel =>
    ⟨credit holdings.held (parcel.place fate) parcel.value, holdings.inFlight.eraseIdx position⟩

def heldIn (holdings : Holdings Place) (region : List Place) : Nat :=
  (region.map holdings.held).sum

/-- What is on its way within a region. -/
def inFlightIn (holdings : Holdings Place) (region : List Place) : Nat :=
  (holdings.inFlight.map fun parcel =>
    if parcel.destination ∈ region then parcel.value else 0).sum

def worth (holdings : Holdings Place) (region : List Place) : Nat :=
  holdings.heldIn region + holdings.inFlightIn region

/-- No parcel crosses the region's border. -/
def Closed (holdings : Holdings Place) (region : List Place) : Prop :=
  ∀ parcel ∈ holdings.inFlight, parcel.Respects region

theorem credit_self (held : Place → Nat) (place : Place) (value : Nat) :
    credit held place value place = held place + value := Function.update_self ..

theorem credit_of_ne (held : Place → Nat) {place other : Place} (value : Nat)
    (hne : other ≠ place) : credit held place value other = held other :=
  Function.update_of_ne hne ..

theorem sum_credit (hnodup : region.Nodup) (held : Place → Nat) (place : Place) (value : Nat) :
    (region.map (credit held place value)).sum =
      (region.map held).sum + if place ∈ region then value else 0 := by
  induction region with
  | nil => rfl
  | cons first rest ih =>
      obtain ⟨hfirst, hrest⟩ := List.nodup_cons.mp hnodup
      rw [List.map_cons, List.sum_cons, List.map_cons, List.sum_cons, ih hrest]
      by_cases hsame : first = place
      · subst hsame
        rw [credit_self, if_neg hfirst, if_pos List.mem_cons_self]
        omega
      · rw [credit_of_ne held value hsame]
        simp only [List.mem_cons, Ne.symm hsame, false_or]
        omega

theorem credit_debit {held : Place → Nat} {value : Nat} (hle : value ≤ held place) :
    credit (Function.update held place (held place - value)) place value = held := by
  funext other
  rw [credit, Function.update_idem, Function.update_self, Nat.sub_add_cancel hle,
    Function.update_eq_self]

theorem le_credit (held : Place → Nat) (place : Place) (value : Nat) (other : Place) :
    held other ≤ credit held place value other := by
  by_cases hsame : other = place
  · subst hsame
    exact credit_self held other value ▸ Nat.le_add_right _ _
  · exact Nat.le_of_eq (credit_of_ne held value hsame).symm

/-! ## One move -/

/-- A parcel that is sent was held before. -/
theorem send_eq_some (hsend : holdings.send parcel = some next) :
    credit next.held parcel.source parcel.value = holdings.held ∧
      next.inFlight = holdings.inFlight ++ [parcel] := by
  unfold send at hsend
  split at hsend
  next hle =>
    cases hsend
    exact ⟨credit_debit hle, rfl⟩
  next => cases hsend

theorem exists_send (hle : parcel.value ≤ holdings.held parcel.source) :
    ∃ next, holdings.send parcel = some next := ⟨_, if_pos hle⟩

theorem settle_eq_some {position : Nat} {fate : Fate}
    (hsettle : holdings.settle position fate = some next) :
    ∃ parcel, holdings.inFlight.Perm (parcel :: next.inFlight) ∧
      next.held = credit holdings.held (parcel.place fate) parcel.value := by
  obtain ⟨parcel, hparcel, rfl⟩ := Option.map_eq_some_iff.mp hsettle
  obtain ⟨hlt, rfl⟩ := List.getElem?_eq_some_iff.mp hparcel
  exact ⟨_, (List.getElem_cons_eraseIdx_perm hlt).symm, rfl⟩

/-- Sending changes nothing about the worth of a region that the parcel respects. -/
theorem send_worth (hnodup : region.Nodup) (hrespects : parcel.Respects region)
    (hsend : holdings.send parcel = some next) : next.worth region = holdings.worth region := by
  obtain ⟨hheld, hflight⟩ := send_eq_some hsend
  have hsum := sum_credit hnodup next.held parcel.source parcel.value
  rw [hheld] at hsum
  simp only [worth, heldIn, inFlightIn, hflight, hsum, List.map_append, List.sum_append,
    List.map_cons, List.map_nil, List.sum_singleton]
  rw [Parcel.Respects] at hrespects
  simp only [hrespects]
  omega

/-- Nor does a delivery or a reversal in a closed region. -/
theorem settle_worth (hnodup : region.Nodup) (hclosed : holdings.Closed region) {position : Nat}
    {fate : Fate} (hsettle : holdings.settle position fate = some next) :
    next.worth region = holdings.worth region := by
  obtain ⟨parcel, hperm, hheld⟩ := settle_eq_some hsettle
  have hrespects := hclosed parcel (hperm.symm.subset List.mem_cons_self)
  have hplace : parcel.place fate ∈ region ↔ parcel.destination ∈ region := by
    cases fate with
    | arrives => exact Iff.rfl
    | returns => exact hrespects
  have hflight : holdings.inFlightIn region =
      (if parcel.destination ∈ region then parcel.value else 0) + next.inFlightIn region :=
    (hperm.map _).sum_eq
  rw [worth, worth, hflight, heldIn, hheld, sum_credit hnodup, heldIn]
  simp only [hplace]
  omega

theorem settle_held_le {position : Nat} {fate : Fate}
    (hsettle : holdings.settle position fate = some next) (place : Place) :
    holdings.held place ≤ next.held place := by
  obtain ⟨parcel, _, hheld⟩ := settle_eq_some hsettle
  exact hheld ▸ le_credit _ _ _ _

/-- A parcel that is settled is no more on its way. -/
theorem settle_inFlightIn_le {position : Nat} {fate : Fate}
    (hsettle : holdings.settle position fate = some next) (region : List Place) :
    next.inFlightIn region ≤ holdings.inFlightIn region := by
  obtain ⟨parcel, hperm, _⟩ := settle_eq_some hsettle
  have hsum : holdings.inFlightIn region =
      (if parcel.destination ∈ region then parcel.value else 0) + next.inFlightIn region :=
    (hperm.map _).sum_eq
  exact hsum ▸ Nat.le_add_left _ _

theorem settle_inFlight_subset {position : Nat} {fate : Fate}
    (hsettle : holdings.settle position fate = some next) : next.inFlight ⊆ holdings.inFlight := by
  obtain ⟨parcel, hperm, _⟩ := settle_eq_some hsettle
  exact fun other hother => hperm.symm.subset (List.mem_cons_of_mem _ hother)

/-! ## What a region is seen to hold -/

/-- When the values that were seen at the places of a region add up to its worth, nothing of value
is on its way, if no place had more than it has now. -/
theorem inFlightIn_eq_zero {seen : Place → Nat}
    (hseen : ∀ place ∈ region, seen place ≤ holdings.held place)
    (hsum : (region.map seen).sum = holdings.worth region) : holdings.inFlightIn region = 0 := by
  have hle : (region.map seen).sum ≤ holdings.heldIn region := List.sum_le_sum hseen
  rw [worth] at hsum
  omega

theorem value_eq_zero (hzero : holdings.inFlightIn region = 0) (hmem : parcel ∈ holdings.inFlight)
    (hinside : parcel.destination ∈ region) : parcel.value = 0 := by
  have hterm := List.sum_eq_zero_iff.mp hzero _ (List.mem_map_of_mem hmem)
  rwa [if_pos hinside] at hterm

theorem heldIn_of_settled (hsettled : holdings.inFlight = []) (region : List Place) :
    holdings.heldIn region = holdings.worth region := by
  rw [worth, inFlightIn, hsettled]
  rfl

end Holdings

end RaylsSuite.Foundation
