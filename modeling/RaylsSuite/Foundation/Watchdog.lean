import Mathlib.Data.Option.Basic

/-! # Loops with an inactivity limit

A loop polls until a poll ends it. It should end with the first poll that comes
too long after the last progress and observes none itself.
-/

namespace RaylsSuite.Foundation

/-- The body of a loop. `seen` is when a poll observes progress, `start` when it begins. -/
structure Watchdog (State Poll : Type) where
  pass : State → Poll → State × Bool
  seen : State → Poll → Option Nat
  start : Poll → Nat
  limit : Nat

namespace Watchdog

variable {State Poll : Type} (watchdog : Watchdog State Poll) (initial : State) (origin : Nat)
  (polls : Nat → Poll)

/-- The state before a poll, or nothing once the loop has ended. -/
def running : Nat → Option State
  | 0 => some initial
  | n + 1 => (running n).bind fun state =>
      let after := watchdog.pass state (polls n)
      if after.2 then none else some after.1

/-- The states that the polls lead through, whether or not one of them ends the loop. -/
def trail : Nat → State
  | 0 => initial
  | n + 1 => (watchdog.pass (trail n) (polls n)).1

def EndsAt (n : Nat) : Prop := (watchdog.pass (watchdog.trail initial polls n) (polls n)).2 = true

/-- The poll is the one that the loop ends with. -/
structure EndsWith (n : Nat) : Prop where
  ends : watchdog.EndsAt initial polls n
  goes : ∀ m < n, ¬watchdog.EndsAt initial polls m

/-- When the last progress before a poll was observed. -/
def lastProgress : Nat → Nat
  | 0 => origin
  | n + 1 => (watchdog.seen (watchdog.trail initial polls n) (polls n)).getD (lastProgress n)

/-- A poll that begins after the limit and does not observe progress. -/
structure Late (n : Nat) : Prop where
  unseen : watchdog.seen (watchdog.trail initial polls n) (polls n) = none
  overdue : watchdog.lastProgress initial origin polls n + watchdog.limit < watchdog.start (polls n)

/-- No late poll is followed by another poll. -/
def StopsInTime : Prop :=
  ∀ n, watchdog.Late initial origin polls n → watchdog.running initial polls (n + 1) = none

variable {watchdog initial origin polls}

/-- A watchdog is over after a pass exactly if it was before or the pass ends it. -/
theorem running_succ_eq_none {n : Nat} :
    watchdog.running initial polls (n + 1) = none ↔
      watchdog.running initial polls n = none ∨
        ∃ state, watchdog.running initial polls n = some state ∧
          (watchdog.pass state (polls n)).2 = true := by
  cases hrunning : watchdog.running initial polls n with
  | none => simp [running, hrunning]
  | some state => simp [running, hrunning]

/-- As long as it runs the loop follows the trail. -/
theorem running_eq_trail {n : Nat} {state : State}
    (hrunning : watchdog.running initial polls n = some state) :
    state = watchdog.trail initial polls n := by
  induction n generalizing state with
  | zero => exact (Option.some.inj hrunning).symm
  | succ n ih =>
      obtain ⟨before, hbefore, hstep⟩ := Option.bind_eq_some_iff.mp hrunning
      obtain rfl := ih hbefore
      dsimp only at hstep
      split at hstep
      next => cases hstep
      next => exact (Option.some.inj hstep).symm

/-- It is over exactly if one of the passes so far has ended it. -/
theorem running_eq_none_iff {n : Nat} :
    watchdog.running initial polls n = none ↔ ∃ m < n, watchdog.EndsAt initial polls m := by
  induction n with
  | zero => simp [running]
  | succ n ih =>
      have hlast : (∃ state, watchdog.running initial polls n = some state ∧
          (watchdog.pass state (polls n)).2 = true) → watchdog.EndsAt initial polls n := by
        rintro ⟨state, hrunning, hends⟩
        rwa [EndsAt, ← running_eq_trail hrunning]
      rw [running_succ_eq_none]
      constructor
      · rintro (hnone | hends)
        · obtain ⟨m, hlt, hends⟩ := ih.mp hnone
          exact ⟨m, Nat.lt_succ_of_lt hlt, hends⟩
        · exact ⟨n, Nat.lt_succ_self n, hlast hends⟩
      · rintro ⟨m, hlt, hends⟩
        rcases Nat.lt_succ_iff_lt_or_eq.mp hlt with hbefore | rfl
        · exact .inl (ih.mpr ⟨m, hbefore, hends⟩)
        · cases hrunning : watchdog.running initial polls m with
          | none => exact .inl rfl
          | some state => exact .inr ⟨state, rfl, running_eq_trail hrunning ▸ hends⟩

/-- Where the late polls that a running loop survives are the `Bad` ones, it stops in time
exactly when such a poll only comes after its end. -/
theorem stopsInTime_iff {Bad : Nat → Prop}
    (hbad : ∀ n, watchdog.Late initial origin polls n →
      (∀ m < n, ¬watchdog.EndsAt initial polls m) → (watchdog.EndsAt initial polls n ↔ ¬Bad n)) :
    watchdog.StopsInTime initial origin polls ↔
      ∀ n, watchdog.Late initial origin polls n → Bad n →
        ∃ m < n, watchdog.EndsAt initial polls m := by
  refine forall₂_congr fun n hlate => ?_
  rw [running_eq_none_iff]
  by_cases hbefore : ∃ m < n, watchdog.EndsAt initial polls m
  · obtain ⟨m, hlt, hends⟩ := hbefore
    exact iff_of_true ⟨m, Nat.lt_succ_of_lt hlt, hends⟩ fun _ => ⟨m, hlt, hends⟩
  · have hnone : ∀ m < n, ¬watchdog.EndsAt initial polls m := fun m hlt hends =>
      hbefore ⟨m, hlt, hends⟩
    have hnow := hbad n hlate hnone
    constructor
    · rintro ⟨m, hlt, hends⟩ hbad
      rcases Nat.lt_succ_iff_lt_or_eq.mp hlt with hlt | rfl
      · exact ⟨m, hlt, hends⟩
      · exact absurd hbad (hnow.mp hends)
    · intro hended
      exact ⟨n, Nat.lt_succ_self n, hnow.mpr fun hbad => hbefore (hended hbad)⟩

/-! ## What holds along the trail -/

variable (watchdog initial polls) in
theorem trail_invariant (Holds : State → Prop) (hinitial : Holds initial)
    (hpass : ∀ state poll, Holds state → Holds (watchdog.pass state poll).1) (n : Nat) :
    Holds (watchdog.trail initial polls n) := by
  induction n with
  | zero => exact hinitial
  | succ n ih => exact hpass _ _ ih

/-- A variable that takes the time of every progress is the time of the last one. -/
theorem lastProgress_eq (lastProgressTime : State → Nat)
    (hinitial : lastProgressTime initial = origin)
    (hpass : ∀ state poll, lastProgressTime (watchdog.pass state poll).1 =
      (watchdog.seen state poll).getD (lastProgressTime state))
    (n : Nat) :
    lastProgressTime (watchdog.trail initial polls n) =
      watchdog.lastProgress initial origin polls n := by
  induction n with
  | zero => exact hinitial
  | succ n ih => rw [trail, hpass, lastProgress, ih]

/-- A late pass begins beyond the limit behind the last progress. -/
theorem Late.overdue_since {n : Nat} (hlate : watchdog.Late initial origin polls n)
    (lastProgressTime : State → Nat) (hinitial : lastProgressTime initial = origin)
    (hpass : ∀ state poll, lastProgressTime (watchdog.pass state poll).1 =
      (watchdog.seen state poll).getD (lastProgressTime state)) :
    lastProgressTime (watchdog.trail initial polls n) + watchdog.limit <
      watchdog.start (polls n) := by
  rw [lastProgress_eq lastProgressTime hinitial hpass]
  exact hlate.overdue

end Watchdog

end RaylsSuite.Foundation
