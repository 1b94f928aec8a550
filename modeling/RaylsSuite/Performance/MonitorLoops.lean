import Mathlib.Algebra.Ring.Nat
import RaylsSuite.Common.BlockChainExceptions
import RaylsSuite.Foundation.Watchdog

/-! # The settlement monitors

The monitors of the deposit, withdrawal and swap tests poll until everything
that was sent has settled or nothing has progressed for two minutes. Both checks
stand at the end of the body, where a poll that throws does not arrive.
-/

namespace RaylsSuite.Performance

open Foundation Common

def maxInactivityTimeMs : Nat := 120 * 1000

def pollingInterval : Nat := 2000

/-- A poll: the clock when it begins, what its queries settle with, and the clock when it
observes progress and when it checks for inactivity. -/
structure MonitorPoll (Observation : Type) where
  start : Nat
  outcome : Except JsError Observation
  progressAt : Nat
  checkedAt : Nat
  start_le : start ≤ checkedAt

/-- The tests throw when nothing was sent, and so before they monitor anything. -/
abbrev SentCount : Type := { count : Nat // 0 < count }

/-! ## Deposits -/

def depositAmount : Nat := 10

/-- The fourth argument of each `Commitments` event, where there is one. -/
structure DepositObservation where
  currentTokenBalance : Int
  logs : List (Option (List String))
deriving DecidableEq, Repr

structure DepositMonitor where
  lastProgressTime : Nat
  lastCommitmentCount : Nat
  maxCommitmentsReached : Nat
  actualCompletionTime : Nat
  allSettled : Bool
deriving DecidableEq, Repr

def depositsCompletedByEvents (logs : List (Option (List String))) : Nat :=
  let relevantCommitments := logs.filterMap fun commitments =>
    commitments.filter fun commitments => commitments.length > 0
  (relevantCommitments.map List.length).sum

/-- The number of tokens stays far below what a double counts exactly, so the comparison of
the quotient is one of integers. -/
def depositsSettled (successfulSends : SentCount) (initialTokenBalance : Int)
    (observed : DepositObservation) : Bool :=
  let tokensDepositedSoFar := initialTokenBalance - observed.currentTokenBalance
  decide (successfulSends.val * depositAmount ≤ tokensDepositedSoFar ∧
    successfulSends.val ≤ depositsCompletedByEvents observed.logs)

/-- The part of the body that tracks progress. -/
def DepositMonitor.track (state : DepositMonitor) (count now : Nat) : DepositMonitor :=
  let state := if count > state.lastCommitmentCount then
    { state with
      lastProgressTime := now
      lastCommitmentCount := count
      actualCompletionTime := now }
    else state
  { state with maxCommitmentsReached := max state.maxCommitmentsReached count }

def DepositMonitor.pass (successfulSends : SentCount) (initialTokenBalance : Int)
    (state : DepositMonitor) (poll : MonitorPoll DepositObservation) : DepositMonitor × Bool :=
  match poll.outcome with
  | .error _ => (state, false)
  | .ok observed =>
      let state := state.track (depositsCompletedByEvents observed.logs) poll.progressAt
      if depositsSettled successfulSends initialTokenBalance observed then
        ({ state with allSettled := true }, true)
      else
        (state, decide (state.lastProgressTime + maxInactivityTimeMs < poll.checkedAt ∧
          state.maxCommitmentsReached > 0))

def DepositMonitor.initial (testStartTime : Nat) : DepositMonitor :=
  ⟨testStartTime, 0, 0, testStartTime, false⟩

/-- More commitments than any poll has counted before. -/
def DepositMonitor.seen (state : DepositMonitor) (poll : MonitorPoll DepositObservation) :
    Option Nat :=
  match poll.outcome with
  | .error _ => none
  | .ok observed =>
      if depositsCompletedByEvents observed.logs > state.lastCommitmentCount then
        some poll.progressAt else none

def EnygmaDeposit.monitor (successfulSends : SentCount) (initialTokenBalance : Int) :
    Watchdog DepositMonitor (MonitorPoll DepositObservation) where
  pass := DepositMonitor.pass successfulSends initialTokenBalance
  seen := DepositMonitor.seen
  start := MonitorPoll.start
  limit := maxInactivityTimeMs

/-! ## Withdrawals -/

def withdrawalAmount : Nat := 10

structure WithdrawalMonitor where
  lastProgressTime : Nat
  maxBalanceReached : Int
  actualCompletionTime : Nat
  allSettled : Bool
deriving DecidableEq, Repr

def withdrawalsSettled (successfulSends : SentCount)
    (initialTokenBalance currentTokenBalance : Int) : Bool :=
  decide (successfulSends.val * withdrawalAmount ≤ currentTokenBalance - initialTokenBalance)

def WithdrawalMonitor.track (state : WithdrawalMonitor) (currentTokenBalance : Int) (now : Nat) :
    WithdrawalMonitor :=
  if currentTokenBalance > state.maxBalanceReached then
    { state with
      lastProgressTime := now
      maxBalanceReached := currentTokenBalance
      actualCompletionTime := now }
  else state

def WithdrawalMonitor.pass (successfulSends : SentCount) (initialTokenBalance : Int)
    (state : WithdrawalMonitor) (poll : MonitorPoll Int) : WithdrawalMonitor × Bool :=
  match poll.outcome with
  | .error _ => (state, false)
  | .ok currentTokenBalance =>
      let state := state.track currentTokenBalance poll.progressAt
      if withdrawalsSettled successfulSends initialTokenBalance currentTokenBalance then
        ({ state with allSettled := true }, true)
      else (state, decide (state.lastProgressTime + maxInactivityTimeMs < poll.checkedAt))

def WithdrawalMonitor.initial (testStartTime : Nat) (initialTokenBalance : Int) :
    WithdrawalMonitor :=
  ⟨testStartTime, initialTokenBalance, testStartTime, false⟩

/-- A balance above any that a poll has read before. -/
def WithdrawalMonitor.seen (state : WithdrawalMonitor) (poll : MonitorPoll Int) : Option Nat :=
  match poll.outcome with
  | .error _ => none
  | .ok currentTokenBalance =>
      if currentTokenBalance > state.maxBalanceReached then some poll.progressAt else none

def EnygmaWithdrawal.monitor (successfulSends : SentCount) (initialTokenBalance : Int) :
    Watchdog WithdrawalMonitor (MonitorPoll Int) where
  pass := WithdrawalMonitor.pass successfulSends initialTokenBalance
  seen := WithdrawalMonitor.seen
  start := MonitorPoll.start
  limit := maxInactivityTimeMs

/-! ## Swaps -/

structure SwapExecution where
  sharedId : String
  startTime : Nat
  executionTime : Option Nat
  executionDuration : Option Nat
deriving DecidableEq, Repr

/-- A poll queries the pending swaps one by one. For the swap at a position it meets an error
or the number of `SwapCompleted` events; the summary that is due every 15 seconds may throw. -/
structure SwapPoll where
  start : Nat
  completedEvents : Nat → Except JsError Nat
  executionTime : Nat → Nat
  elapsedAt : Nat
  executionSummary : Except JsError Unit
  checkedAt : Nat
  start_le : start ≤ checkedAt

structure SwapProgress where
  completedSwaps : Nat
  lastProgressTime : Nat
  actualCompletionTime : Nat
deriving DecidableEq, Repr

structure SwapMonitor where
  swapExecutions : List SwapExecution
  progress : SwapProgress
  allSwapsExecuted : Bool
deriving DecidableEq, Repr

def SwapExecution.complete (swap : SwapExecution) (executionTime : Nat) : SwapExecution :=
  { swap with
    executionTime := some executionTime
    executionDuration := some (executionTime - swap.startTime) }

def SwapProgress.complete (progress : SwapProgress) (executionTime : Nat) : SwapProgress :=
  ⟨progress.completedSwaps + 1, executionTime, executionTime⟩

/-- The `for` loop from a position on, and the error that leaves it. -/
def SwapPoll.visit (poll : SwapPoll) : Nat → List SwapExecution → SwapProgress →
    (List SwapExecution × SwapProgress) × Option JsError
  | _, [], progress => (([], progress), none)
  | position, swap :: rest, progress =>
      if swap.executionTime.isSome then
        let after := poll.visit (position + 1) rest progress
        ((swap :: after.1.1, after.1.2), after.2)
      else
        match poll.completedEvents position with
        | .error err => ((swap :: rest, progress), some err)
        | .ok completedEvents =>
            if completedEvents > 0 then
              let executionTime := poll.executionTime position
              let after := poll.visit (position + 1) rest (progress.complete executionTime)
              ((swap.complete executionTime :: after.1.1, after.1.2), after.2)
            else
              let after := poll.visit (position + 1) rest progress
              ((swap :: after.1.1, after.1.2), after.2)

/-- Whether the elapsed time has passed a multiple of 15 seconds since the last poll. -/
def summaryDue (elapsedTime : Int) : Bool :=
  decide (elapsedTime / 15000 > (elapsedTime - pollingInterval) / 15000)

/-- The rest of the body, which throws or tells whether the loop is left by a `break`. -/
def SwapMonitor.check (testStartTime : Nat) (expectedSwaps : SentCount) (progress : SwapProgress)
    (poll : SwapPoll) : Except JsError Bool :=
  let summary := if summaryDue ((poll.elapsedAt : Int) - testStartTime) then
    poll.executionSummary else .ok ()
  match summary with
  | .error err => .error err
  | .ok () => .ok (decide (progress.completedSwaps ≥ expectedSwaps.val ∨
      progress.lastProgressTime + maxInactivityTimeMs < poll.checkedAt))

/-- The body and, where it is not left by a `break`, the condition of the `while` after it. -/
def SwapMonitor.pass (testStartTime : Nat) (expectedSwaps : SentCount) (state : SwapMonitor)
    (poll : SwapPoll) : SwapMonitor × Bool :=
  let visited := poll.visit 0 state.swapExecutions state.progress
  let state := { state with swapExecutions := visited.1.1, progress := visited.1.2 }
  let completed := decide (state.progress.completedSwaps ≥ expectedSwaps.val)
  match visited.2 with
  | some _ => (state, completed)
  | none =>
      match SwapMonitor.check testStartTime expectedSwaps state.progress poll with
      | .error _ => (state, completed)
      | .ok stops => (if completed then { state with allSwapsExecuted := true } else state, stops)

def SwapMonitor.initial (testStartTime : Nat) (swapExecutions : List SwapExecution) :
    SwapMonitor :=
  ⟨swapExecutions, ⟨0, testStartTime, testStartTime⟩, false⟩

/-- The times at which a poll finds pending swaps completed, up to its first error. -/
def SwapPoll.completions (poll : SwapPoll) : Nat → List SwapExecution → List Nat
  | _, [] => []
  | position, swap :: rest =>
      if swap.executionTime.isSome then poll.completions (position + 1) rest
      else
        match poll.completedEvents position with
        | .error _ => []
        | .ok completedEvents =>
            if completedEvents > 0 then
              poll.executionTime position :: poll.completions (position + 1) rest
            else poll.completions (position + 1) rest

def DvpSwapOnly.monitor (testStartTime : Nat) (expectedSwaps : SentCount) :
    Watchdog SwapMonitor SwapPoll where
  pass := SwapMonitor.pass testStartTime expectedSwaps
  seen state poll := (poll.completions 0 state.swapExecutions).getLast?
  start := SwapPoll.start
  limit := maxInactivityTimeMs

end RaylsSuite.Performance
