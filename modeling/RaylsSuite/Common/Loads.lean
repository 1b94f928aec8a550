import RaylsSuite.Common.Poll
import RaylsSuite.Common.Submit
import RaylsSuite.Foundation.Machine

/-! # Waits and submissions side by side

Waits and submissions that run at the same time share one logger. Each of them
opens a load when it is called; between its awaits any other call may act. A
load ends with a printed line, as a success or as an error.
-/

namespace RaylsSuite.Common

open Config Entities Foundation

/-- The logger with the loads whose end it has printed, a success as `true`. -/
structure LoadLog where
  logger : Logger
  finished : List (Nat × Bool)
deriving DecidableEq, Repr

namespace LoadLog

def new : LoadLog := ⟨Logger.new, []⟩

def load (log : LoadLog) (message : String) : LoadLog :=
  { log with logger := (log.logger.load message).2 }

/-- `finishLoad(loadId, status)`: an unknown id prints nothing. -/
def finishLoad (log : LoadLog) (loadId : Nat) (success : Bool) : LoadLog :=
  if loadId ∈ log.logger.activeLoads.map Prod.fst then
    ⟨log.logger.finishLoad loadId, log.finished ++ [(loadId, success)]⟩
  else log

def loadSuccess (log : LoadLog) (loadId : Nat) : LoadLog := log.finishLoad loadId true

def loadError (log : LoadLog) (loadId : Nat) : LoadLog := log.finishLoad loadId false

end LoadLog

/-! ## The calls between their awaits -/

inductive WaitKind where
  | eventually | never
deriving DecidableEq, Repr

/-- The options of a wait, whose check is left to the environment. -/
structure WaitOptions where
  kind : WaitKind
  interval : Option Nat := none
  attempts : Option Nat := none
  tolerateErrors : Bool := false
  message : String
deriving DecidableEq, Repr

/-- The variables of a wait during its `attempt`-th attempt. -/
structure Polling (α : Type) where
  opts : WaitOptions
  loadId : Nat
  attempt : Nat
  lastValue : Option α
  lastError : Option JsError

/-- The variables of a submission during call `i` of its `attempt`-th inner retry. -/
structure Submitting where
  message : String
  loadId : Nat
  attempt : Nat
  i : Nat

/-- What a call resolves with. -/
inductive Resolved (α : Type) where
  | value (value : α)
  | nothing
  | receipt (receipt : Receipt)

/-- A call at one of its awaits, or settled. -/
inductive Call (α : Type) where
  | checking (wait : Polling α)
  | pausing (wait : Polling α)
  | broadcasting (tx : Submitting)
  | backingOff (tx : Submitting)
  | mining (tx : Submitting) (response : Response)
  | settled (loadId : Nat) (outcome : Except JsError (Resolved α))

/-- How the awaited promise settles: the check, the factory, or a sleep or wait whose end is
already fixed. -/
inductive Event (α : Type) where
  | checked (outcome : Except JsError α)
  | responded (outcome : Except JsError Response)
  | elapsed

variable {α : Type} (PARALLEL_WORKERS : Option String)

def WaitOptions.budget (opts : WaitOptions) : Nat :=
  opts.attempts.getD (DEFAULT_TIMEOUT PARALLEL_WORKERS / SECOND)

namespace Polling

variable [JsValue JsError α]

/-- The wait after its last attempt. -/
def exhausted (wait : Polling α) (log : LoadLog) : LoadLog × Call α :=
  match wait.opts.kind with
  | .eventually =>
      let seen : Observed Unit JsError α := ⟨(), wait.lastValue, wait.lastError⟩
      (log.loadError wait.loadId,
        .settled wait.loadId (.error (exhaustion wait.opts.message
          (wait.opts.budget PARALLEL_WORKERS) (wait.opts.interval.getD SECOND) seen)))
  | .never => (log.loadSuccess wait.loadId, .settled wait.loadId (.ok .nothing))

/-- The wait at a truthy value. -/
def matched (wait : Polling α) (value : α) (log : LoadLog) : LoadLog × Call α :=
  match wait.opts.kind with
  | .eventually => (log.loadSuccess wait.loadId, .settled wait.loadId (.ok (.value value)))
  | .never =>
      (log.loadError wait.loadId,
        .settled wait.loadId (.error (violation wait.opts.message wait.attempt value)))

/-- The wait at an attempt that leaves it undecided: `if (i < attempts) await delay(interval)`. -/
def undecided (wait : Polling α) (log : LoadLog) : LoadLog × Call α :=
  if wait.attempt < wait.opts.budget PARALLEL_WORKERS then (log, .pausing wait)
  else wait.exhausted PARALLEL_WORKERS log

def start (opts : WaitOptions) (log : LoadLog) : LoadLog × Call α :=
  let wait : Polling α := ⟨opts, log.logger.nextLoadId, 1, none, none⟩
  let log := log.load opts.message
  if opts.budget PARALLEL_WORKERS = 0 then wait.exhausted PARALLEL_WORKERS log
  else (log, .checking wait)

def checked (wait : Polling α) (log : LoadLog) : Except JsError α → LoadLog × Call α
  | .ok value =>
      if JsValue.truthy JsError value then wait.matched value log
      else { wait with lastValue := some value }.undecided PARALLEL_WORKERS log
  | .error err =>
      if wait.opts.tolerateErrors then
        { wait with lastError := some err }.undecided PARALLEL_WORKERS log
      else (log, .settled wait.loadId (.error err))

end Polling

namespace Submitting

def start (message : String) (log : LoadLog) : LoadLog × Call α :=
  (log.load message, .broadcasting ⟨message, log.logger.nextLoadId, 1, 1⟩)

/-- The inner retry at the factory's answer. -/
def responded (tx : Submitting) : Except JsError Response → Call α
  | .ok response => .mining tx response
  | .error err =>
      if isRetryable err = false then .settled tx.loadId (.error err)
      else if tx.i ≥ 5 then .settled tx.loadId (.error err)
      else .backingOff tx

/-- The submission at the end of its wait for the receipt. -/
def waited (tx : Submitting) (response : Response) (log : LoadLog) : LoadLog × Call α :=
  match waitForReceipt response RECEIPT_TIMEOUT_MS with
  | .ok receipt =>
      match acceptReceipt tx.message receipt with
      | .ok receipt => (log.loadSuccess tx.loadId, .settled tx.loadId (.ok (.receipt receipt)))
      | .error err => (log, .settled tx.loadId (.error err))
  | .error err =>
      let canRetry := decide (tx.attempt < maxDisplacedRetries)
      if err.instanceOf = .receiptTimeoutError && canRetry then
        (log, .broadcasting { tx with attempt := tx.attempt + 1, i := 1 })
      else if err.code = some "TRANSACTION_REPLACED" && canRetry then
        (log, .broadcasting { tx with attempt := tx.attempt + 1, i := 1 })
      else (log, .settled tx.loadId (.error err))

end Submitting

/-- The call from one await to the next. -/
def Call.resume [JsValue JsError α] (log : LoadLog) : Call α → Event α → Option (LoadLog × Call α)
  | .checking wait, .checked outcome => some (wait.checked PARALLEL_WORKERS log outcome)
  | .pausing wait, .elapsed => some (log, .checking { wait with attempt := wait.attempt + 1 })
  | .broadcasting tx, .responded outcome => some (log, tx.responded outcome)
  | .backingOff tx, .elapsed => some (log, .broadcasting { tx with i := tx.i + 1 })
  | .mining tx response, .elapsed => some (tx.waited response log)
  | _, _ => none

/-! ## Any number of calls at once -/

structure Loads (α : Type) where
  log : LoadLog
  calls : List (Call α)

def Loads.start : Loads α := ⟨.new, []⟩

/-- A new call, or an awaited promise of a call settles. -/
inductive LoadLabel (α : Type) where
  | wait (opts : WaitOptions)
  | submitTx (message : String)
  | resume (call : Nat) (event : Event α)

variable [JsValue JsError α]

def Loads.step (loads : Loads α) : LoadLabel α → Option (Loads α)
  | .wait opts =>
      let (log, call) := Polling.start PARALLEL_WORKERS opts loads.log
      some ⟨log, loads.calls ++ [call]⟩
  | .submitTx message =>
      let (log, call) := Submitting.start message loads.log
      some ⟨log, loads.calls ++ [call]⟩
  | .resume index event =>
      (loads.calls[index]?).bind fun call =>
        (call.resume PARALLEL_WORKERS loads.log event).map fun resumed =>
          ⟨resumed.1, loads.calls.set index resumed.2⟩

def loadMachine : Machine (Loads α) (LoadLabel α) := ⟨Loads.step PARALLEL_WORKERS⟩

/-! ## What the awaited promises do to a load -/

omit [JsValue JsError α] in
def Call.loadId : Call α → Nat
  | .checking wait | .pausing wait => wait.loadId
  | .broadcasting tx | .backingOff tx | .mining tx _ => tx.loadId
  | .settled loadId _ => loadId

def Call.isSettled : Call α → Bool
  | .settled _ _ => true
  | _ => false

/-- A settlement after which the call goes on or closes its load: not an error of the check
that is not tolerated, nor an error of the factory that is not retried, nor an error of the
wait for the receipt without a resubmission, nor a receipt that is null or of another status
than 1. -/
def Call.KeepsLoad : Call α → Event α → Prop
  | .checking wait, .checked (.error _) => wait.opts.tolerateErrors = true
  | .broadcasting tx, .responded (.error err) => isRetryable err = true ∧ tx.i < 5
  | .mining tx response, .elapsed =>
      match waitForReceipt response RECEIPT_TIMEOUT_MS with
      | .ok none => False
      | .ok (some receipt) => receipt.status = 1
      | .error _ => Displaced response ∧ tx.attempt < maxDisplacedRetries
  | _, _ => True

/-- A call that has not lost its load: it goes on, or it has settled and closed the load. -/
inductive Kept (log : LoadLog) (loadId : Nat) : LoadLog × Call α → Prop where
  | awaits {call : Call α} : call.isSettled = false → call.loadId = loadId →
      Kept log loadId (log, call)
  | finishes (outcome : Except JsError (Resolved α)) :
      Kept log loadId (log.finishLoad loadId outcome.isOk, .settled loadId outcome)

section Resume

variable {PARALLEL_WORKERS} {log : LoadLog}

theorem Polling.exhausted_kept (wait : Polling α) :
    Kept log wait.loadId (wait.exhausted PARALLEL_WORKERS log) := by
  unfold Polling.exhausted
  split
  next => exact .finishes (.error _)
  next => exact .finishes (.ok .nothing)

theorem Polling.undecided_kept (wait : Polling α) :
    Kept log wait.loadId (wait.undecided PARALLEL_WORKERS log) := by
  unfold Polling.undecided
  split
  next => exact .awaits rfl rfl
  next => exact wait.exhausted_kept

theorem Polling.matched_kept (wait : Polling α) (value : α) :
    Kept log wait.loadId (wait.matched value log) := by
  unfold Polling.matched
  split
  next => exact .finishes (.ok (.value value))
  next => exact .finishes (.error _)

theorem Polling.start_kept (opts : WaitOptions) :
    Kept (log.load opts.message) log.logger.nextLoadId
      (Polling.start PARALLEL_WORKERS opts log : LoadLog × Call α) := by
  unfold Polling.start
  split
  next => exact (⟨opts, log.logger.nextLoadId, 1, none, none⟩ : Polling α).exhausted_kept
  next => exact .awaits rfl rfl

/-- A failed broadcast is tried again or ends the submission. -/
theorem Submitting.responded_cases (α : Type) (tx : Submitting) (err : JsError) :
    (isRetryable err = true ∧ tx.i < 5) ∧ (tx.responded (.error err) : Call α) = .backingOff tx ∨
      ¬(isRetryable err = true ∧ tx.i < 5) ∧
        (tx.responded (.error err) : Call α) = .settled tx.loadId (.error err) := by
  by_cases hretryable : isRetryable err = true
  · by_cases hagain : tx.i < 5
    · exact .inl ⟨⟨hretryable, hagain⟩, by simp [Submitting.responded, hretryable, hagain]⟩
    · exact .inr ⟨fun hkept => hagain hkept.2, by simp [Submitting.responded, hagain]⟩
  · exact .inr ⟨fun hkept => hretryable hkept.1, by simp [Submitting.responded, hretryable]⟩

omit [JsValue JsError α] in
/-- A receipt ends the submission, well only with status 1. -/
theorem Submitting.waited_ok (tx : Submitting) {response : Response} {receipt : Option Receipt}
    (hwait : waitForReceipt response RECEIPT_TIMEOUT_MS = .ok receipt) :
    (∃ received, receipt = some received ∧ received.status = 1 ∧
        (tx.waited response log : LoadLog × Call α) =
          (log.loadSuccess tx.loadId, .settled tx.loadId (.ok (.receipt received)))) ∨
      (∀ received, receipt = some received → received.status ≠ 1) ∧
        ∃ err, (tx.waited response log : LoadLog × Call α) =
          (log, .settled tx.loadId (.error err)) := by
  simp only [Submitting.waited, hwait]
  cases receipt with
  | none => exact .inr ⟨fun _ hnone => (by cases hnone), _, rfl⟩
  | some received =>
      by_cases hstatus : received.status = 1
      · exact .inl ⟨received, rfl, hstatus, by simp [acceptReceipt, hstatus]⟩
      · refine .inr ⟨fun _ hsome => Option.some.inj hsome ▸ hstatus, ?_⟩
        exact ⟨statusAssertionError received.status, by simp [acceptReceipt, hstatus]⟩

/-- A wait that throws leads to a resubmission or ends the submission. -/
theorem Submitting.waited_error (α : Type) (tx : Submitting) {response : Response} {err : JsError}
    (hwait : waitForReceipt response RECEIPT_TIMEOUT_MS = .error err) :
    (Displaced response ∧ tx.attempt < maxDisplacedRetries) ∧
        (tx.waited response log : LoadLog × Call α) =
          (log, .broadcasting { tx with attempt := tx.attempt + 1, i := 1 }) ∨
      ¬(Displaced response ∧ tx.attempt < maxDisplacedRetries) ∧
        (tx.waited response log : LoadLog × Call α) = (log, .settled tx.loadId (.error err)) := by
  simp only [Submitting.waited, hwait]
  by_cases hattempt : tx.attempt < maxDisplacedRetries
  · by_cases hreason : err.instanceOf = .receiptTimeoutError ∨
        err.code = some "TRANSACTION_REPLACED"
    · refine .inl ⟨⟨⟨err, hwait, hreason⟩, hattempt⟩, ?_⟩
      rcases hreason with hreason | hreason <;> simp [hreason, hattempt]
    · refine .inr ⟨?_, ?_⟩
      · rintro ⟨⟨err', hwait', hdisplaced⟩, -⟩
        obtain rfl := Except.error.inj (hwait.symm.trans hwait')
        exact hreason hdisplaced
      · obtain ⟨htimeout, hreplaced⟩ := not_or.mp hreason
        simp [htimeout, hreplaced]
  · exact .inr ⟨fun hkept => hattempt hkept.2, by simp [hattempt]⟩

/-- One settlement: the call keeps its load exactly as `KeepsLoad` says, and otherwise rejects
without closing it. -/
theorem Call.resume_cases {call : Call α} {event : Event α} {resumed : LoadLog × Call α}
    (hresume : call.resume PARALLEL_WORKERS log event = some resumed) :
    call.isSettled = false ∧ (call.KeepsLoad event ∧ Kept log call.loadId resumed ∨
      ¬call.KeepsLoad event ∧ ∃ err, resumed = (log, .settled call.loadId (.error err))) := by
  cases call with
  | checking wait =>
      cases event with
      | checked outcome =>
          obtain rfl := Option.some.inj hresume
          refine ⟨rfl, ?_⟩
          cases outcome with
          | ok value =>
              refine .inl ⟨trivial, ?_⟩
              simp only [Polling.checked]
              split
              next => exact wait.matched_kept value
              next => exact ({ wait with lastValue := some value } : Polling α).undecided_kept
          | error err =>
              cases htolerated : wait.opts.tolerateErrors with
              | true =>
                  refine .inl ⟨htolerated, ?_⟩
                  simp only [Polling.checked, htolerated, if_true]
                  exact ({ wait with lastError := some err } : Polling α).undecided_kept
              | false =>
                  refine .inr ⟨by simp [Call.KeepsLoad, htolerated], err, ?_⟩
                  simp [Polling.checked, htolerated, Call.loadId]
      | _ => cases hresume
  | pausing wait =>
      cases event with
      | elapsed =>
          obtain rfl := Option.some.inj hresume
          exact ⟨rfl, .inl ⟨trivial, .awaits rfl rfl⟩⟩
      | _ => cases hresume
  | broadcasting tx =>
      cases event with
      | responded outcome =>
          obtain rfl := Option.some.inj hresume
          refine ⟨rfl, ?_⟩
          cases outcome with
          | ok response => exact .inl ⟨trivial, .awaits rfl rfl⟩
          | error err =>
              rcases tx.responded_cases α err with ⟨hkept, hnext⟩ | ⟨hleaked, hnext⟩
              · exact .inl ⟨hkept, by rw [hnext]; exact .awaits rfl rfl⟩
              · exact .inr ⟨hleaked, err, by rw [hnext]; rfl⟩
      | _ => cases hresume
  | backingOff tx =>
      cases event with
      | elapsed =>
          obtain rfl := Option.some.inj hresume
          exact ⟨rfl, .inl ⟨trivial, .awaits rfl rfl⟩⟩
      | _ => cases hresume
  | mining tx response =>
      cases event with
      | elapsed =>
          obtain rfl := Option.some.inj hresume
          refine ⟨rfl, ?_⟩
          simp only [Call.KeepsLoad]
          cases hwait : waitForReceipt response RECEIPT_TIMEOUT_MS with
          | error err =>
              rcases tx.waited_error α hwait with ⟨hkept, hnext⟩ | ⟨hleaked, hnext⟩
              · exact .inl ⟨hkept, hnext ▸ .awaits rfl rfl⟩
              · exact .inr ⟨hleaked, err, hnext⟩
          | ok receipt =>
              rcases tx.waited_ok hwait with ⟨received, rfl, hstatus, hnext⟩ | ⟨hstatus, hnext⟩
              · exact .inl ⟨hstatus, hnext ▸ .finishes (.ok (.receipt received))⟩
              · refine .inr ⟨?_, hnext⟩
                cases receipt with
                | none => exact id
                | some received => exact hstatus received rfl
      | _ => cases hresume
  | settled loadId outcome => cases hresume

end Resume

end RaylsSuite.Common
