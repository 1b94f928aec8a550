import RaylsSuite.Common.Conversation
import RaylsSuite.Foundation.Protocol

/-! # Retries and waits as steps of a protocol

A wait whose attempts leave a protocol's state alone until one decides is one
step of the protocol, and so is a submitted transaction: of all the responses
to its factory's calls none but the last has been mined.
-/

namespace RaylsSuite.Common

open Foundation Foundation.Dialogue

variable {σ ε α β Event State : Type} {protocol : Machine State Event} {start target : State}

/-! ## Waits -/

section Wait

variable [Host σ]

/-- A wait whose falsy values and errors leave the state alone, and what is made of its value. -/
theorem follows_eventually [JsValue ε α] [Thrown ε] (PARALLEL_WORKERS : Option String)
    (opts : PollOptions (Dialogue σ Event) ε α) {observed : α → State} {reached : β → State}
    {made : α → β} (hcheck : Obeys opts.check (Follows protocol start observed (· = start)))
    (hfalsy : ∀ value, JsValue.truthy ε value = false → observed value = start)
    (htruthy : ∀ value, JsValue.truthy ε value = true → observed value = reached (made value))
    (message : String) :
    Obeys (andThen (eventually PARALLEL_WORKERS opts message) fun value => returns (made value))
      (Follows protocol start reached (· = start)) := by
  intro dialogue
  -- the attempts so far lead back to the state
  let waiting (_ : Nat) (current : Dialogue σ Event) : Prop :=
    ∃ said, current.said = dialogue.said ++ said ∧ protocol.run start said = some start
  have hwaiting : Waiting opts waiting := by
    refine ⟨?_, fun _ _ _ => id⟩
    intro i current ⟨said, hsaid, hrun⟩ hundecided
    obtain ⟨part, hpart, hfollows⟩ := hcheck current
    refine ⟨said ++ part, by rw [hpart, hsaid, List.append_assoc], ?_⟩
    rw [Machine.run_append, hrun, Option.bind_some]
    generalize (opts.check current).1 = outcome at hundecided hfollows
    cases hfollows with
    | @resolved value _ hlast => exact hlast.trans (congrArg some (hfalsy value hundecided))
    | rejected hlast hleft => exact hlast.trans (congrArg some hleft)
  have hlast : ∀ {before after : Dialogue σ Event} {outcome : Except ε α},
      waiting 0 before → opts.check before = (outcome, after) →
      ∃ said, after.said = dialogue.said ++ said ∧
        Follows protocol start observed (· = start) outcome said := by
    intro before after outcome ⟨said, hsaid, hrun⟩ hsettled
    obtain ⟨part, hpart, hfollows⟩ := hcheck before
    rw [hsettled] at hpart hfollows
    exact ⟨said ++ part, by rw [hpart, hsaid, List.append_assoc], hfollows.prepend hrun⟩
  have hawaited := eventually_awaited PARALLEL_WORKERS hwaiting (fun _ _ => id) message dialogue
    ⟨[], by simp, rfl⟩
  unfold andThen
  generalize eventually PARALLEL_WORKERS opts message dialogue = settled at hawaited ⊢
  cases hawaited with
  | @resolved _ _ _ value logger _ hbefore hsettled hdecided =>
      obtain ⟨said, hsaid, hfollows⟩ := hlast hbefore hsettled
      cases hfollows with
      | resolved hrun =>
          exact ⟨said, hsaid, .resolved (hrun.trans (congrArg some (htruthy value hdecided)))⟩
  | rejected _ hbefore hsettled _ =>
      obtain ⟨said, hsaid, hfollows⟩ := hlast hbefore hsettled
      cases hfollows with
      | rejected hrun hleft => exact ⟨said, hsaid, .rejected hrun hleft⟩
  | exhausted err logger hafter =>
      obtain ⟨said, hsaid, hrun⟩ := hafter
      exact ⟨said, hsaid, .rejected hrun rfl⟩

/-- A wait for a condition. -/
theorem follows_awaiting [Thrown ε] (PARALLEL_WORKERS : Option String)
    (opts : PollOptions (Dialogue σ Event) ε Bool) (hcheck : Obeys opts.check
      (Follows protocol start (fun met => if met then target else start) (· = start)))
    (message : String) :
    Obeys (andThen (eventually PARALLEL_WORKERS opts message) fun _ => returns ())
      (Follows protocol start (fun _ => target) (· = start)) := by
  refine follows_eventually PARALLEL_WORKERS opts hcheck ?_ ?_ message
  · intro met hfalsy
    obtain rfl : met = false := hfalsy
    rfl
  · intro met htruthy
    obtain rfl : met = true := htruthy
    rfl

end Wait

/-! ## Submitted transactions -/

/-- The receipt that came in time tells success. -/
def Response.mined (response : Response) : Bool :=
  match waitForReceipt response RECEIPT_TIMEOUT_MS with
  | .ok (some receipt) => receipt.status = 1
  | _ => false

theorem Response.mined_eq_of_wait {response : Response} {receipt : Option Receipt}
    (hwait : waitForReceipt response RECEIPT_TIMEOUT_MS = .ok receipt) :
    response.mined = receipt.any fun receipt => receipt.status = 1 := by
  unfold Response.mined
  rw [hwait]
  cases receipt <;> rfl

theorem Response.mined_of_error {response : Response} {err : JsError}
    (hwait : waitForReceipt response RECEIPT_TIMEOUT_MS = .error err) :
    response.mined = false := by
  unfold Response.mined
  rw [hwait]

/-- The state after an answer to the factory's call. -/
structure Mines (protocol : Machine State Event) (event : Except JsError Response → Event)
    (start target : State) : Prop where
  mined : ∀ response, response.mined = true →
    protocol.step start (event (.ok response)) = some target
  unmined : ∀ response, response.mined = false →
    protocol.step start (event (.ok response)) = some start
  failed : ∀ err, protocol.step start (event (.error err)) = some start

/-- The state after an answer that mines the transaction, or does not. -/
def afterCall (stay done : State) : Except JsError Response → State :=
  answered stay fun response => if response.mined then done else stay

theorem mines_of_afterCall {event : Except JsError Response → Event}
    (hstep : ∀ answer, protocol.step start (event answer) = some (afterCall start target answer)) :
    Mines protocol event start target where
  mined response hmined := (hstep _).trans (by simp [afterCall, answered, hmined])
  unmined response hmined := (hstep _).trans (by simp [afterCall, answered, hmined])
  failed err := hstep _

section Submit

variable [Host σ] {event : Except JsError Response → Event} {serve : Async σ JsError Response}

/-- The retried factory's call: what was said before its response leaves the state alone. -/
theorem Retried.run_errors {errors : List JsError} (hmines : Mines protocol event start target) :
    protocol.run start (errors.map fun err => event (.error err)) = some start := by
  refine Machine.run_idle fun other hother => ?_
  obtain ⟨err, _, rfl⟩ := List.mem_map.mp hother
  exact hmines.failed err

/-- The loop stays where it is until a transaction is mined with status 1. -/
theorem follows_submitLoop (hmines : Mines protocol event start target) (left attempt : Nat) :
    Obeys (submitLoop (ask event serve .ok) left attempt) (Follows protocol start
      (fun receipt => if receipt.any (fun receipt => receipt.status = 1) then target else start)
      (· = start)) := by
  induction left generalizing attempt with
  | zero => exact fun dialogue => ⟨[], (List.append_nil _).symm, .resolved rfl⟩
  | succ left ih =>
      intro dialogue
      have hobeys : Obeys (retry (ask event serve .ok) txRetry) _ :=
        obeys_retry txRetry fun _ _ _ => rfl
      obtain ⟨said, hsaid, hretried⟩ := hobeys dialogue
      rcases hretry : retry (ask event serve .ok) txRetry dialogue with ⟨err | response, next⟩ <;>
        rw [hretry] at hsaid hretried
      · obtain ⟨errors, _, rfl⟩ := hretried.of_error
        rw [submitLoop_factoryError left attempt hretry]
        exact ⟨_, hsaid, .rejected (Retried.run_errors hmines) rfl⟩
      · obtain ⟨errors, _, _, rfl⟩ := hretried.of_ok
        have hrun (final : State)
            (hstep : protocol.step start (event (.ok response)) = some final) :
            protocol.run start (errors.map (fun err => event (.error err)) ++
              [event (.ok response)]) = some final := by
          rw [Machine.run_append, Retried.run_errors hmines, Option.bind_some]
          simp [Machine.run, hstep]
        by_cases hagain : Displaced response ∧ attempt < maxDisplacedRetries
        · rw [submitLoop_resubmit left attempt hagain.1 hagain.2 hretry]
          obtain ⟨err, hwait, _⟩ := hagain.1
          obtain ⟨rest, hrest, hfollows⟩ := ih (attempt + 1) next
          have hstart := hrun start (hmines.unmined response (Response.mined_of_error hwait))
          exact ⟨_, by rw [hrest, hsaid, List.append_assoc], hfollows.prepend hstart⟩
        · rw [submitLoop_settled left attempt hagain hretry]
          refine ⟨_, hsaid, ?_⟩
          cases hwait : waitForReceipt response RECEIPT_TIMEOUT_MS with
          | error err =>
              exact .rejected
                (hrun start (hmines.unmined response (Response.mined_of_error hwait))) rfl
          | ok receipt =>
              have hmined := Response.mined_eq_of_wait hwait
              refine .resolved (hrun _ ?_)
              split
              next hsuccess => exact hmines.mined response (hmined.trans hsuccess)
              next hfailure => exact hmines.unmined response (by simpa [hmined] using hfailure)

/-- A submitted transaction: a value tells that the last response was mined, and an error that
none was. -/
theorem follows_submitTx (hmines : Mines protocol event start target) (message : String) :
    Obeys (submitTx (ask event serve .ok) message)
      (Follows protocol start (fun _ => target) (· = start)) := by
  intro dialogue
  obtain ⟨said, hsaid, hfollows⟩ := follows_submitLoop hmines maxDisplacedRetries 1
    (Host.setLogger ((Host.logger dialogue).load message).2 dialogue)
  rcases hloop : submitLoop (ask event serve .ok) maxDisplacedRetries 1
    (Host.setLogger ((Host.logger dialogue).load message).2 dialogue) with ⟨err | receipt, next⟩ <;>
    rw [hloop] at hsaid hfollows
  · simp only [submitTx, hloop]
    cases hfollows with
    | rejected hrun hleft => exact ⟨said, hsaid, .rejected hrun hleft⟩
  · cases hfollows with
    | resolved hrun =>
        cases receipt with
        | none =>
            simp only [submitTx, hloop, acceptReceipt]
            exact ⟨said, hsaid, .rejected hrun rfl⟩
        | some receipt =>
            by_cases hstatus : receipt.status = 1
            · simp only [submitTx, hloop, acceptReceipt, if_pos hstatus]
              exact ⟨said, hsaid, .resolved (by simpa [hstatus] using hrun)⟩
            · simp only [submitTx, hloop, acceptReceipt, if_neg hstatus]
              exact ⟨said, hsaid, .rejected (by simpa [hstatus] using hrun) rfl⟩

end Submit

end RaylsSuite.Common
