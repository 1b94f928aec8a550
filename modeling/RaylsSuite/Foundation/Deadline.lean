import Mathlib.Logic.Basic

/-! # Loops with a deadline

A loop checks and pauses in turns for as long as its clock shows a time before
a deadline. It ends with the first check that succeeds, or with the first turn
that would begin too late.
-/

namespace RaylsSuite.Foundation

universe u

structure DeadlineLoop (World : Type u) where
  now : World → Nat
  check : World → Bool × World
  pause : World → World

namespace DeadlineLoop

variable {World : Type u} (loop : DeadlineLoop World) (deadline : Nat)

/-- The loop within a bound on its turns: whether a check succeeded. -/
def run : Nat → World → Option (Bool × World)
  | 0, _ => none
  | fuel + 1, world =>
      if loop.now world < deadline then
        match loop.check world with
        | (true, after) => some (true, after)
        | (false, after) => run fuel (loop.pause after)
      else some (false, world)

/-- So many turns, none of which succeeds, lead from a world to another one. -/
inductive Vain : Nat → World → World → Prop where
  | none {world : World} : Vain 0 world world
  | turn {n : Nat} {world after last : World} : loop.now world < deadline →
      loop.check world = (false, after) → Vain n (loop.pause after) last → Vain (n + 1) world last

/-- How the loop ends after so many turns in vain. -/
inductive Ends (n : Nat) (world : World) : Bool × World → Prop where
  | met {last after : World} : loop.Vain deadline n world last → loop.now last < deadline →
      loop.check last = (true, after) → Ends n world (true, after)
  | missed {last : World} : loop.Vain deadline n world last → deadline ≤ loop.now last →
      Ends n world (false, last)

/-- A turn takes at least a step and at most a bound, in which its check lies. -/
structure Paced (step bound : Nat) : Prop where
  step_le : ∀ world, loop.now world + step ≤ loop.now (loop.pause (loop.check world).2)
  le_bound : ∀ world, loop.now (loop.pause (loop.check world).2) ≤ loop.now world + bound
  check_le : ∀ world, loop.now (loop.check world).2 ≤ loop.now world + bound

variable {loop deadline} {world last : World} {n fuel step bound : Nat} {ended other : Bool × World}

/-- Enough fuel runs the loop to its end. -/
theorem Ends.run_eq (hends : loop.Ends deadline n world ended) (hfuel : n < fuel) :
    loop.run deadline fuel world = some ended := by
  induction n generalizing world fuel with
  | zero =>
      obtain ⟨fuel, rfl⟩ := Nat.exists_eq_succ_of_ne_zero (Nat.ne_of_gt hfuel)
      rw [run]
      cases hends with
      | met hvain hbefore hcheck =>
          cases hvain
          rw [if_pos hbefore, hcheck]
      | missed hvain hlate =>
          cases hvain
          rw [if_neg (Nat.not_lt.mpr hlate)]
  | succ n ih =>
      obtain ⟨fuel, rfl⟩ := Nat.exists_eq_succ_of_ne_zero (Nat.ne_zero_of_lt hfuel)
      rw [run]
      cases hends with
      | met hvain hlast hmet =>
          cases hvain with
          | turn hbefore hcheck hvain =>
              rw [if_pos hbefore, hcheck]
              exact ih (.met hvain hlast hmet) (Nat.lt_of_succ_lt_succ hfuel)
      | missed hvain hlate =>
          cases hvain with
          | turn hbefore hcheck hvain =>
              rw [if_pos hbefore, hcheck]
              exact ih (.missed hvain hlate) (Nat.lt_of_succ_lt_succ hfuel)

theorem Ends.unique {m : Nat} (hends : loop.Ends deadline n world ended)
    (hother : loop.Ends deadline m world other) : ended = other := by
  have hrun := hends.run_eq (Nat.lt_succ_of_le (Nat.le_max_left n m))
  rw [hother.run_eq (Nat.lt_succ_of_le (Nat.le_max_right n m))] at hrun
  exact (Option.some.inj hrun).symm

/-- With enough turns the loop ends. -/
theorem exists_ends (hpaced : loop.Paced step bound)
    (hturns : deadline ≤ loop.now world + n * step) :
    ∃ ended, ∃ m ≤ n, loop.Ends deadline m world ended := by
  induction n generalizing world with
  | zero => exact ⟨_, 0, Nat.le_refl 0, .missed .none (by simpa using hturns)⟩
  | succ n ih =>
      by_cases hbefore : loop.now world < deadline
      · rcases hcheck : loop.check world with ⟨met, after⟩
        cases met with
        | true => exact ⟨_, 0, Nat.zero_le _, .met .none hbefore hcheck⟩
        | false =>
            have hstep := hpaced.step_le world
            rw [hcheck] at hstep
            have hleft : deadline ≤ loop.now (loop.pause after) + n * step := by
              rw [Nat.succ_mul] at hturns
              dsimp only at hstep
              omega
            obtain ⟨ended, m, hm, hends⟩ := ih hleft
            refine ⟨ended, m + 1, Nat.succ_le_succ hm, ?_⟩
            cases hends with
            | met hvain hlast hmet => exact .met (.turn hbefore hcheck hvain) hlast hmet
            | missed hvain hlate => exact .missed (.turn hbefore hcheck hvain) hlate
      · exact ⟨_, 0, Nat.zero_le _, .missed .none (Nat.le_of_not_lt hbefore)⟩

/-- Before the last turn the clock is behind the deadline by less than a turn. -/
theorem Vain.now_lt (hpaced : loop.Paced step bound) (hvain : loop.Vain deadline n world last) :
    loop.now last = loop.now world ∨ loop.now last < deadline + bound := by
  induction hvain with
  | none => exact .inl rfl
  | @turn n world after last hbefore hcheck hvain ih =>
      have hturn := hpaced.le_bound world
      rw [hcheck] at hturn
      dsimp only at hturn
      omega

/-- The loop ends less than a turn behind its deadline. -/
theorem Ends.now_lt (hpaced : loop.Paced step bound) (hends : loop.Ends deadline n world ended)
    (hstart : loop.now world ≤ deadline) (hbound : 0 < bound) :
    loop.now ended.2 < deadline + bound := by
  cases hends with
  | @met last after hvain hbefore hcheck =>
      have hchecked := hpaced.check_le last
      rw [hcheck] at hchecked
      dsimp only at hchecked ⊢
      omega
  | missed hvain hlate =>
      have hlast := hvain.now_lt hpaced
      dsimp only
      omega

end DeadlineLoop

end RaylsSuite.Foundation
