import Mathlib.Data.List.Count
import Mathlib.Data.List.Nodup
import RaylsSuite.Foundation.Machine

/-! # Promises that are awaited together

The promises of a list settle in some order, each of them once. Whoever awaits
them all gets their outcomes by position, so the order does not show.
-/

namespace RaylsSuite.Foundation

universe u v

variable {α : Type u} (outcome : Nat → α)

/-- The promises of a list, with the outcomes of those that have settled. -/
abbrev Promises (α : Type u) : Type u := List (Option α)

def Promises.pending (count : Nat) : Promises α := List.replicate count none

/-- A label settles the promise at a position. -/
def settling : Machine (Promises α) Nat where
  step promises position :=
    match promises[position]? with
    | some none => some (promises.set position (some (outcome position)))
    | some (some _) | none => none

/-- What all of them settled with, once none is pending. -/
def Promises.allSettled : Promises α → Option (List α)
  | [] => some []
  | none :: _ => none
  | some value :: rest => (allSettled rest).map (value :: ·)

/-- The results are there exactly when every promise has settled. -/
theorem allSettled_eq_some {promises : Promises α} {results : List α} :
    promises.allSettled = some results ↔ promises = results.map some := by
  induction promises generalizing results with
  | nil => cases results <;> simp [Promises.allSettled]
  | cons promise rest ih =>
      cases promise with
      | none => cases results <;> simp [Promises.allSettled]
      | some value => cases results <;> simp [Promises.allSettled, ih, and_comm]

/-- Some schedule has settled all promises, and these are their outcomes by position. -/
def Settles (count : Nat) (results : List α) : Prop :=
  ∃ promises, (settling outcome).Reaches (.pending count) promises ∧
    promises.allSettled = some results

variable {outcome}

theorem settling_step {promises next : Promises α} {position : Nat} :
    (settling outcome).step promises position = some next ↔
      promises[position]? = some none ∧
        promises.set position (some (outcome position)) = next := by
  simp only [settling]
  split <;> simp_all

/-- Each promise is pending or has its own outcome. -/
structure Faithful (outcome : Nat → α) (count : Nat) (promises : Promises α) : Prop where
  length : promises.length = count
  outcome_eq : ∀ position value, promises[position]? = some (some value) →
    value = outcome position

theorem faithful_pending (count : Nat) : Faithful outcome count (.pending count) where
  length := List.length_replicate
  outcome_eq position value hvalue := by
    have hmem := List.mem_of_getElem? hvalue
    cases (List.mem_replicate.mp hmem).2

/-- A promise that settles keeps its own outcome. -/
theorem Faithful.step {count : Nat} {promises next : Promises α} {position : Nat}
    (hfaithful : Faithful outcome count promises)
    (hstep : (settling outcome).step promises position = some next) :
    Faithful outcome count next := by
  obtain ⟨hpending, rfl⟩ := settling_step.mp hstep
  have hposition : position < promises.length := (List.getElem?_eq_some_iff.mp hpending).1
  refine ⟨by rw [List.length_set, hfaithful.length], fun other value hvalue => ?_⟩
  rcases (lookup_set hposition).mp hvalue with ⟨rfl, heq⟩ | ⟨-, hold⟩
  · exact (Option.some.inj heq).symm
  · exact hfaithful.outcome_eq other value hold

/-- In every order the outcomes come out by position. -/
theorem Settles.eq_map {count : Nat} {results : List α} (hsettles : Settles outcome count results) :
    results = (List.range count).map outcome := by
  obtain ⟨promises, hreach, hall⟩ := hsettles
  have hfaithful := hreach.invariant (Faithful outcome count)
    (fun _ _ _ hbefore hstep => hbefore.step hstep) (faithful_pending count)
  obtain rfl := allSettled_eq_some.mp hall
  have hlength : results.length = count := by simpa using hfaithful.length
  refine List.ext_getElem (by simpa using hlength) fun position hleft hright => ?_
  rw [List.getElem_map, List.getElem_range]
  exact hfaithful.outcome_eq position _ (by simp [hleft])

/-- Promises that settle one after the other, from a position on. -/
theorem reaches_settled (count first : Nat) (hfirst : first ≤ count) :
    (settling outcome).Reaches (.pending count)
      ((List.range first).map (fun position => some (outcome position)) ++
        List.replicate (count - first) none) := by
  induction first with
  | zero => exact Machine.Reaches.refl _ _
  | succ first ih =>
      refine (ih (by omega)).step first (settling_step.mpr ?_)
      have hrest : List.replicate (count - first) (none : Option α) =
          none :: List.replicate (count - (first + 1)) none := by
        rw [← List.replicate_succ]
        congr 1
        omega
      have hlength : ((List.range first).map fun position => some (outcome position)).length =
          first := by simp
      rw [hrest, List.range_succ, List.map_append, List.append_assoc]
      constructor
      · rw [List.getElem?_append_right (Nat.le_of_eq hlength), hlength, Nat.sub_self]
        rfl
      · rw [List.set_append_right _ _ (Nat.le_of_eq hlength), hlength, Nat.sub_self]
        rfl

theorem settles_map (outcome : Nat → α) (count : Nat) :
    Settles outcome count ((List.range count).map outcome) := by
  refine ⟨_, reaches_settled count count (Nat.le_refl count), ?_⟩
  rw [allSettled_eq_some, Nat.sub_self, List.replicate_zero, List.append_nil, List.map_map]
  rfl

end RaylsSuite.Foundation
