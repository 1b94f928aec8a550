import Mathlib.Data.List.Induction
import RaylsSuite.Foundation.Dialogue
import RaylsSuite.Foundation.Machine

/-! # Dialogues that follow a protocol

A protocol is a machine over the events of a dialogue, with no step for what
must not be said. A program follows it from a state when all that it says is
accepted there and its outcome tells the state that is reached; programs in
sequence follow it one after the other.
-/

namespace RaylsSuite.Foundation

open Dialogue

universe u v w x

variable {State : Type u} {World : Type x} {Event : Type v} {ε α β : Type w}
  {protocol : Machine State Event}

/-- What is said is accepted from the state. A value tells the state that is reached, and an
error leaves a state that is such. -/
inductive Follows (protocol : Machine State Event) (start : State) (reached : α → State)
    (left : State → Prop) : Law Event ε α where
  | resolved {value : α} {said : List Event} :
      protocol.run start said = some (reached value) →
      Follows protocol start reached left (.ok value) said
  | rejected {err : ε} {said : List Event} {final : State} :
      protocol.run start said = some final → left final →
      Follows protocol start reached left (.error err) said

namespace Follows

variable {start middle : State} {reached : α → State} {left other : State → Prop}
  {outcome : Except ε α} {said rest : List Event}

theorem accepted (hfollows : Follows protocol start reached left outcome said) :
    ∃ final, protocol.run start said = some final := by
  cases hfollows with
  | resolved hrun => exact ⟨_, hrun⟩
  | rejected hrun _ => exact ⟨_, hrun⟩

theorem imp (hfollows : Follows protocol start reached left outcome said)
    (himp : ∀ final, left final → other final) :
    Follows protocol start reached other outcome said := by
  cases hfollows with
  | resolved hrun => exact .resolved hrun
  | rejected hrun hleft => exact .rejected hrun (himp _ hleft)

/-- More is said before. -/
theorem prepend (hrun : protocol.run start said = some middle)
    (hfollows : Follows protocol middle reached left outcome rest) :
    Follows protocol start reached left outcome (said ++ rest) := by
  have happend (final : State) (hrest : protocol.run middle rest = some final) :
      protocol.run start (said ++ rest) = some final := by
    rw [Machine.run_append, hrun, Option.bind_some, hrest]
  cases hfollows with
  | resolved hrest => exact .resolved (happend _ hrest)
  | rejected hrest hleft => exact .rejected (happend _ hrest) hleft

end Follows

/-- The step of a protocol for an event that is allowed under a condition. -/
def onlyIf (allowed : Prop) [Decidable allowed] (next : State) : Option State :=
  if allowed then some next else none

theorem onlyIf_of {allowed : Prop} [Decidable allowed] (hallowed : allowed) (next : State) :
    onlyIf allowed next = some next :=
  if_pos hallowed

theorem onlyIf_eq_some {allowed : Prop} [Decidable allowed] {state next : State} :
    onlyIf allowed state = some next ↔ allowed ∧ state = next := by
  simp [onlyIf]

/-- Events that leave the state alone are accepted in any number. -/
theorem Machine.run_idle {start : State} {said : List Event}
    (hidle : ∀ event ∈ said, protocol.step start event = some start) :
    protocol.run start said = some start := by
  induction said with
  | nil => rfl
  | cons event rest ih =>
      rw [List.forall_mem_cons] at hidle
      exact (Machine.run_cons_eq_some protocol).mpr ⟨start, hidle.1, ih hidle.2⟩

/-- What each step keeps of what was said and the state reached holds after every run. -/
theorem Machine.run_said {invariant : List Event → State → Prop}
    (hstep : ∀ said state event next, invariant said state →
      protocol.step state event = some next → invariant (said ++ [event]) next)
    {start final : State} {said : List Event} (hstart : invariant [] start)
    (hrun : protocol.run start said = some final) : invariant said final := by
  induction said using List.reverseRecOn generalizing final with
  | nil => exact Option.some.inj hrun ▸ hstart
  | append_singleton said event ih =>
      rw [Machine.run_append, Option.bind_eq_some_iff] at hrun
      obtain ⟨middle, hmiddle, hlast⟩ := hrun
      obtain ⟨next, hnext, hfinal⟩ := (Machine.run_cons_eq_some protocol).mp hlast
      obtain rfl := Option.some.inj hfinal
      exact hstep said middle event next (ih hmiddle) hnext

theorem countP_concat (property : Event → Bool) (said : List Event) (event : Event) :
    (said ++ [event]).countP property = said.countP property + (property event).toNat := by
  rw [List.countP_append, List.countP_singleton]
  cases property event <;> rfl

section Rules

variable {start : State} {middle : α → State} {reached : β → State} {left : State → Prop}

theorem follows_returns (value : β) (hreached : reached value = start) :
    Obeys (returns value : Program World Event ε β) (Follows protocol start reached left) := by
  refine (obeys_returns value).imp fun outcome said hsilent => ?_
  obtain ⟨rfl, rfl⟩ := hsilent
  exact .resolved (congrArg some hreached.symm)

/-- A program whose errors leave the state alone. -/
theorem follows_leaving {program : Program World Event ε β}
    (hprogram : Obeys program (Follows protocol start reached (· = start))) (hleft : left start) :
    Obeys program (Follows protocol start reached left) :=
  hprogram.imp fun _ _ hfollows => hfollows.imp fun _ hfinal => hfinal ▸ hleft

theorem follows_throws (err : ε) (hleft : left start) :
    Obeys (throws err : Program World Event ε β) (Follows protocol start reached left) :=
  fun dialogue => ⟨[], (List.append_nil dialogue.said).symm, .rejected rfl hleft⟩

/-- The state after an answer: an error leads to the one to stay in. -/
def answered (stay : State) (next : α → State) : Except ε α → State
  | .ok value => next value
  | .error _ => stay

/-- A request follows the protocol by its one step. -/
theorem follows_ask {event : Except ε α → Event} {serve : World → Except ε α × World}
    {read : α → β} {stay : State} {next : α → State}
    (hstep : ∀ answer, protocol.step start (event answer) = some (answered stay next answer))
    (hread : ∀ value, next value = reached (read value)) (hleft : left stay) :
    Obeys (ask event serve fun value => .ok (read value))
      (Follows protocol start reached left) := by
  refine (obeys_ask event serve _).imp fun outcome said hasked => ?_
  obtain ⟨answer, rfl, rfl⟩ := hasked
  have hrun : protocol.run start [event answer] = some (answered stay next answer) := by
    simp [Machine.run, hstep]
  cases answer with
  | ok value => exact .resolved (hrun.trans (congrArg some (hread value)))
  | error err => exact .rejected hrun hleft

variable (middle) in
/-- Programs that follow a protocol do so one after the other. -/
theorem follows_andThen {program : Program World Event ε α} {next : α → Program World Event ε β}
    (hprogram : Obeys program (Follows protocol start middle left))
    (hnext : ∀ value, Obeys (next value) (Follows protocol (middle value) reached left)) :
    Obeys (andThen program next) (Follows protocol start reached left) := by
  refine (hprogram.andThen hnext).imp fun outcome said hthen => ?_
  cases hthen with
  | failed hfirst =>
      cases hfirst with
      | rejected hrun hleft => exact .rejected hrun hleft
  | went hfirst hsecond =>
      cases hfirst with
      | resolved hrun => exact hsecond.prepend hrun

end Rules

end RaylsSuite.Foundation
