import RaylsSuite.Performance.MonitorLoops

/-! # When the monitors stop in time

A late poll ends the withdrawal and the swap monitor unless it throws. The
deposit monitor in addition needs some progress before it: without a commitment
it never gives up.
-/

namespace RaylsSuite.Performance

open Foundation Common

/-- The poll throws. -/
def MonitorPoll.Throws {Observation : Type} (poll : MonitorPoll Observation) : Prop :=
  ∃ err, poll.outcome = .error err

/-! ## Deposits -/

section Deposits

variable {successfulSends : SentCount} {initialTokenBalance : Int} {state : DepositMonitor}
  {poll : MonitorPoll DepositObservation} {observed : DepositObservation}

theorem DepositMonitor.track_progress (count now : Nat) :
    (state.track count now).lastProgressTime =
      if count > state.lastCommitmentCount then now else state.lastProgressTime := by
  unfold DepositMonitor.track
  split <;> rfl

theorem DepositMonitor.track_count (count now : Nat) :
    (state.track count now).lastCommitmentCount = max state.lastCommitmentCount count := by
  unfold DepositMonitor.track
  split
  next hgt => exact (Nat.max_eq_right (Nat.le_of_lt hgt)).symm
  next hle => exact (Nat.max_eq_left (Nat.le_of_not_gt hle)).symm

theorem DepositMonitor.track_max (count now : Nat) :
    (state.track count now).maxCommitmentsReached = max state.maxCommitmentsReached count := by
  unfold DepositMonitor.track
  split <;> rfl

theorem DepositMonitor.pass_error {err : JsError} (hthrown : poll.outcome = .error err) :
    DepositMonitor.pass successfulSends initialTokenBalance state poll = (state, false) := by
  simp only [DepositMonitor.pass, hthrown]

theorem DepositMonitor.seen_error {err : JsError} (hthrown : poll.outcome = .error err) :
    state.seen poll = none := by
  simp only [DepositMonitor.seen, hthrown]

theorem DepositMonitor.seen_ok (hobserved : poll.outcome = .ok observed) :
    state.seen poll =
      if depositsCompletedByEvents observed.logs > state.lastCommitmentCount then
        some poll.progressAt else none := by
  simp only [DepositMonitor.seen, hobserved]

variable (successfulSends initialTokenBalance state poll)

/-- What a poll that does not throw tracks, and when it ends the loop. -/
theorem DepositMonitor.pass_ok (hobserved : poll.outcome = .ok observed) :
    let tracked := state.track (depositsCompletedByEvents observed.logs) poll.progressAt
    let after := DepositMonitor.pass successfulSends initialTokenBalance state poll
    after.1.lastProgressTime = tracked.lastProgressTime ∧
      after.1.lastCommitmentCount = tracked.lastCommitmentCount ∧
      after.1.maxCommitmentsReached = tracked.maxCommitmentsReached ∧
      (after.2 = true ↔ depositsSettled successfulSends initialTokenBalance observed = true ∨
        tracked.lastProgressTime + maxInactivityTimeMs < poll.checkedAt ∧
          0 < tracked.maxCommitmentsReached) := by
  simp only [DepositMonitor.pass, hobserved]
  split
  next hsettled => simp [hsettled]
  next hopen => simp [hopen]

/-- A pass moves the progress time exactly when it sees progress. -/
theorem DepositMonitor.pass_lastProgressTime :
    (DepositMonitor.pass successfulSends initialTokenBalance state poll).1.lastProgressTime =
      (state.seen poll).getD state.lastProgressTime := by
  cases houtcome : poll.outcome with
  | error err =>
      rw [DepositMonitor.pass_error houtcome, DepositMonitor.seen_error houtcome]
      rfl
  | ok observed =>
      have hpass := DepositMonitor.pass_ok successfulSends initialTokenBalance state poll houtcome
      rw [hpass.1, DepositMonitor.track_progress, DepositMonitor.seen_ok houtcome]
      split <;> rfl

/-- Both counters are the largest count so far. -/
theorem DepositMonitor.pass_counts
    (hcounts : state.maxCommitmentsReached = state.lastCommitmentCount) :
    let after := DepositMonitor.pass successfulSends initialTokenBalance state poll
    after.1.maxCommitmentsReached = after.1.lastCommitmentCount := by
  intro after
  cases houtcome : poll.outcome with
  | error err =>
      simp only [after, DepositMonitor.pass_error houtcome]
      exact hcounts
  | ok observed =>
      obtain ⟨-, hcount, hmax, -⟩ :=
        DepositMonitor.pass_ok successfulSends initialTokenBalance state poll houtcome
      rw [hcount, hmax, DepositMonitor.track_max, DepositMonitor.track_count, hcounts]

/-- No commitment has been counted before the first progress. -/
theorem DepositMonitor.pass_count_eq_zero :
    (DepositMonitor.pass successfulSends initialTokenBalance state poll).1.lastCommitmentCount = 0 ↔
      state.lastCommitmentCount = 0 ∧ state.seen poll = none := by
  cases houtcome : poll.outcome with
  | error err => simp [DepositMonitor.pass_error houtcome, DepositMonitor.seen_error houtcome]
  | ok observed =>
      have hpass := DepositMonitor.pass_ok successfulSends initialTokenBalance state poll houtcome
      rw [hpass.2.1, DepositMonitor.track_count, DepositMonitor.seen_ok houtcome]
      split <;> simp <;> omega

/-- A late poll ends the loop unless it throws or no commitment has been counted before. -/
theorem DepositMonitor.pass_late (hcounts : state.maxCommitmentsReached = state.lastCommitmentCount)
    (hunseen : state.seen poll = none)
    (hoverdue : state.lastProgressTime + maxInactivityTimeMs < poll.start) :
    (DepositMonitor.pass successfulSends initialTokenBalance state poll).2 = true ↔
      ¬(poll.Throws ∨ state.lastCommitmentCount = 0) := by
  cases houtcome : poll.outcome with
  | error err => simp [DepositMonitor.pass_error houtcome, MonitorPoll.Throws, houtcome]
  | ok observed =>
      have hquiet : depositsCompletedByEvents observed.logs ≤ state.lastCommitmentCount := by
        rw [DepositMonitor.seen_ok houtcome] at hunseen
        by_contra hgt
        rw [if_pos (Nat.lt_of_not_le hgt)] at hunseen
        cases hunseen
      have hinactive : state.lastProgressTime + maxInactivityTimeMs < poll.checkedAt :=
        Nat.lt_of_lt_of_le hoverdue poll.start_le
      have hsettled (hall : depositsSettled successfulSends initialTokenBalance observed = true) :
          0 < state.lastCommitmentCount :=
        Nat.lt_of_lt_of_le successfulSends.property
          (Nat.le_trans (of_decide_eq_true hall).2 hquiet)
      rw [(DepositMonitor.pass_ok successfulSends initialTokenBalance state poll houtcome).2.2.2,
        DepositMonitor.track_progress, DepositMonitor.track_max, if_neg (Nat.not_lt.mpr hquiet),
        hcounts, Nat.max_eq_left hquiet, and_iff_right hinactive, or_iff_right_of_imp hsettled,
        Nat.pos_iff_ne_zero]
      simp [MonitorPoll.Throws, houtcome]

end Deposits

section DepositLoop

variable (successfulSends : SentCount) (initialTokenBalance : Int) (testStartTime : Nat)
  (polls : Nat → MonitorPoll DepositObservation) (n : Nat)

/-- The state before a poll. -/
def EnygmaDeposit.before : DepositMonitor :=
  (EnygmaDeposit.monitor successfulSends initialTokenBalance).trail (.initial testStartTime) polls n

/-- Nothing has progressed before a poll. -/
def EnygmaDeposit.Untouched : Prop :=
  ∀ m < n, (EnygmaDeposit.before successfulSends initialTokenBalance testStartTime polls m).seen
    (polls m) = none

theorem EnygmaDeposit.untouched_iff :
    EnygmaDeposit.Untouched successfulSends initialTokenBalance testStartTime polls n ↔
      (EnygmaDeposit.before successfulSends initialTokenBalance testStartTime polls
        n).lastCommitmentCount = 0 := by
  induction n with
  | zero => exact iff_of_true (fun m hlt => absurd hlt (Nat.not_lt_zero m)) rfl
  | succ n ih =>
      have hpass := DepositMonitor.pass_count_eq_zero successfulSends initialTokenBalance
        (EnygmaDeposit.before successfulSends initialTokenBalance testStartTime polls n) (polls n)
      rw [← ih] at hpass
      exact Nat.forall_lt_succ_right.trans hpass.symm

theorem EnygmaDeposit.before_counts :
    (EnygmaDeposit.before successfulSends initialTokenBalance testStartTime polls
        n).maxCommitmentsReached =
      (EnygmaDeposit.before successfulSends initialTokenBalance testStartTime polls
        n).lastCommitmentCount := by
  have hinvariant := (EnygmaDeposit.monitor successfulSends initialTokenBalance).trail_invariant
    (.initial testStartTime) polls
    (fun state => state.maxCommitmentsReached = state.lastCommitmentCount) rfl
    (DepositMonitor.pass_counts successfulSends initialTokenBalance) n
  exact hinvariant

variable {successfulSends initialTokenBalance testStartTime polls n}

/-- A late poll ends the loop unless it throws or nothing has progressed before it. -/
theorem EnygmaDeposit.endsAt_iff
    (hlate : (EnygmaDeposit.monitor successfulSends initialTokenBalance).Late
      (.initial testStartTime) testStartTime polls n) :
    (EnygmaDeposit.monitor successfulSends initialTokenBalance).EndsAt (.initial testStartTime)
        polls n ↔
      ¬((polls n).Throws ∨
        EnygmaDeposit.Untouched successfulSends initialTokenBalance testStartTime polls n) := by
  have hoverdue := hlate.overdue_since DepositMonitor.lastProgressTime rfl
    (DepositMonitor.pass_lastProgressTime successfulSends initialTokenBalance)
  rw [EnygmaDeposit.untouched_iff]
  exact DepositMonitor.pass_late successfulSends initialTokenBalance _ _
    (EnygmaDeposit.before_counts successfulSends initialTokenBalance testStartTime polls n)
    hlate.unseen hoverdue

end DepositLoop

/-! ## Withdrawals -/

section Withdrawals

variable (successfulSends : SentCount) (initialTokenBalance : Int) (state : WithdrawalMonitor)
  (poll : MonitorPoll Int)

/-- A pass moves the progress time exactly when it sees progress. -/
theorem WithdrawalMonitor.pass_lastProgressTime :
    (WithdrawalMonitor.pass successfulSends initialTokenBalance state poll).1.lastProgressTime =
      (state.seen poll).getD state.lastProgressTime := by
  unfold WithdrawalMonitor.pass WithdrawalMonitor.seen WithdrawalMonitor.track
  cases poll.outcome with
  | error err => rfl
  | ok currentTokenBalance =>
      dsimp only
      split <;> split <;> rfl

/-- A late poll ends the loop unless it throws. -/
theorem WithdrawalMonitor.pass_late (hunseen : state.seen poll = none)
    (hoverdue : state.lastProgressTime + maxInactivityTimeMs < poll.start) :
    (WithdrawalMonitor.pass successfulSends initialTokenBalance state poll).2 = true ↔
      ¬poll.Throws := by
  cases houtcome : poll.outcome with
  | error err => simp [WithdrawalMonitor.pass, MonitorPoll.Throws, houtcome]
  | ok currentTokenBalance =>
      have hquiet : ¬currentTokenBalance > state.maxBalanceReached := by
        intro hgt
        simp [WithdrawalMonitor.seen, houtcome, hgt] at hunseen
      have hinactive : state.lastProgressTime + maxInactivityTimeMs < poll.checkedAt :=
        Nat.lt_of_lt_of_le hoverdue poll.start_le
      simp only [WithdrawalMonitor.pass, houtcome, WithdrawalMonitor.track, if_neg hquiet,
        hinactive, decide_true, MonitorPoll.Throws]
      split <;> simp

/-- A late withdrawal monitor ends at the first poll that does not throw. -/
theorem EnygmaWithdrawal.endsAt_iff {testStartTime : Nat} {polls : Nat → MonitorPoll Int} {n : Nat}
    (hlate : (EnygmaWithdrawal.monitor successfulSends initialTokenBalance).Late
      (.initial testStartTime initialTokenBalance) testStartTime polls n) :
    (EnygmaWithdrawal.monitor successfulSends initialTokenBalance).EndsAt
        (.initial testStartTime initialTokenBalance) polls n ↔
      ¬(polls n).Throws := by
  have hoverdue := hlate.overdue_since WithdrawalMonitor.lastProgressTime rfl
    (WithdrawalMonitor.pass_lastProgressTime successfulSends initialTokenBalance)
  exact WithdrawalMonitor.pass_late successfulSends initialTokenBalance _ _ hlate.unseen hoverdue

end Withdrawals

/-! ## Swaps -/

section Swaps

/-- The error of a poll that does not arrive at its inactivity check. -/
def SwapMonitor.thrown (testStartTime : Nat) (state : SwapMonitor) (poll : SwapPoll) :
    Option JsError :=
  match (poll.visit 0 state.swapExecutions state.progress).2 with
  | some err => some err
  | none =>
      if summaryDue ((poll.elapsedAt : Int) - testStartTime) then
        match poll.executionSummary with
        | .error err => some err
        | .ok () => none
      else none

/-- A visit adds its completions to the count and takes the time of the last one. -/
theorem SwapPoll.visit_progress (poll : SwapPoll) (position : Nat)
    (swapExecutions : List SwapExecution) (progress : SwapProgress) :
    let after := (poll.visit position swapExecutions progress).1.2
    let completions := poll.completions position swapExecutions
    after.completedSwaps = progress.completedSwaps + completions.length ∧
      after.lastProgressTime = completions.getLast?.getD progress.lastProgressTime := by
  induction swapExecutions generalizing position progress with
  | nil => simp [SwapPoll.visit, SwapPoll.completions]
  | cons swap rest ih =>
      have hquiet := ih (position + 1) progress
      simp only [SwapPoll.visit, SwapPoll.completions]
      split
      next => exact hquiet
      next =>
        cases poll.completedEvents position with
        | error err => simp
        | ok completedEvents =>
            dsimp only
            split
            next =>
              obtain ⟨hcompleted, hlast⟩ :=
                ih (position + 1) (progress.complete (poll.executionTime position))
              rw [hcompleted, hlast, List.getLast?_cons, List.length_cons]
              exact ⟨Nat.add_right_comm _ _ _, rfl⟩
            next => exact hquiet

variable {testStartTime : Nat} {expectedSwaps : SentCount} {state : SwapMonitor} {poll : SwapPoll}

/-- A pass takes over what its visit makes of the swaps; only the flag hangs on the rest. -/
theorem SwapMonitor.pass_visit :
    ∃ allSwapsExecuted, (SwapMonitor.pass testStartTime expectedSwaps state poll).1 =
      ⟨(poll.visit 0 state.swapExecutions state.progress).1.1,
        (poll.visit 0 state.swapExecutions state.progress).1.2, allSwapsExecuted⟩ := by
  simp only [SwapMonitor.pass]
  split
  next => exact ⟨_, rfl⟩
  next =>
    split
    next => exact ⟨_, rfl⟩
    next => split <;> exact ⟨_, rfl⟩

theorem SwapMonitor.pass_progress :
    (SwapMonitor.pass testStartTime expectedSwaps state poll).1.progress =
      (poll.visit 0 state.swapExecutions state.progress).1.2 := by
  obtain ⟨_, hvisit⟩ := @SwapMonitor.pass_visit testStartTime expectedSwaps state poll
  rw [hvisit]

/-- A pass ends the monitor when enough swaps are completed, or when nothing threw and the
inactivity limit is over. -/
theorem SwapMonitor.pass_ends :
    (SwapMonitor.pass testStartTime expectedSwaps state poll).2 = true ↔
      let progress := (poll.visit 0 state.swapExecutions state.progress).1.2
      expectedSwaps.val ≤ progress.completedSwaps ∨
        SwapMonitor.thrown testStartTime state poll = none ∧
          progress.lastProgressTime + maxInactivityTimeMs < poll.checkedAt := by
  simp only [SwapMonitor.pass, SwapMonitor.thrown, SwapMonitor.check]
  cases (poll.visit 0 state.swapExecutions state.progress).2 with
  | some err => simp
  | none =>
      by_cases hdue : summaryDue ((poll.elapsedAt : Int) - testStartTime) = true
      · simp only [if_pos hdue]
        cases poll.executionSummary <;> simp
      · simp [if_neg hdue]

theorem SwapMonitor.pass_lastProgressTime :
    (SwapMonitor.pass testStartTime expectedSwaps state poll).1.progress.lastProgressTime =
      (poll.completions 0 state.swapExecutions).getLast?.getD state.progress.lastProgressTime := by
  rw [SwapMonitor.pass_progress]
  exact (poll.visit_progress 0 state.swapExecutions state.progress).2

/-- A poll after which the loop goes on leaves swaps to complete. -/
theorem SwapMonitor.completedSwaps_lt
    (hgoes : ¬(SwapMonitor.pass testStartTime expectedSwaps state poll).2 = true) :
    (SwapMonitor.pass testStartTime expectedSwaps state poll).1.progress.completedSwaps <
      expectedSwaps.val := by
  rw [SwapMonitor.pass_ends] at hgoes
  rw [SwapMonitor.pass_progress]
  exact Nat.lt_of_not_le fun hall => hgoes (.inl hall)

/-- While swaps are to complete, a late poll ends the loop unless it throws. -/
theorem SwapMonitor.pass_late (hopen : state.progress.completedSwaps < expectedSwaps.val)
    (hunseen : (poll.completions 0 state.swapExecutions).getLast? = none)
    (hoverdue : state.progress.lastProgressTime + maxInactivityTimeMs < poll.start) :
    (SwapMonitor.pass testStartTime expectedSwaps state poll).2 = true ↔
      ¬SwapMonitor.thrown testStartTime state poll ≠ none := by
  obtain ⟨hcompleted, hlast⟩ := poll.visit_progress 0 state.swapExecutions state.progress
  rw [List.getLast?_eq_none_iff.mp hunseen] at hcompleted hlast
  have hinactive : state.progress.lastProgressTime + maxInactivityTimeMs < poll.checkedAt :=
    Nat.lt_of_lt_of_le hoverdue poll.start_le
  rw [SwapMonitor.pass_ends]
  dsimp only
  rw [hcompleted, hlast]
  simp [hopen, hinactive]

theorem DvpSwapOnly.completedSwaps_lt (testStartTime : Nat) (expectedSwaps : SentCount)
    (swapExecutions : List SwapExecution) (polls : Nat → SwapPoll) (n : Nat)
    (hgoes : ∀ m < n, ¬(DvpSwapOnly.monitor testStartTime expectedSwaps).EndsAt
      (.initial testStartTime swapExecutions) polls m) :
    ((DvpSwapOnly.monitor testStartTime expectedSwaps).trail
        (.initial testStartTime swapExecutions) polls n).progress.completedSwaps <
      expectedSwaps.val := by
  cases n with
  | zero => exact expectedSwaps.property
  | succ n => exact SwapMonitor.completedSwaps_lt (hgoes n (Nat.lt_succ_self n))

theorem DvpSwapOnly.endsAt_iff {swapExecutions : List SwapExecution} {polls : Nat → SwapPoll}
    {n : Nat}
    (hlate : (DvpSwapOnly.monitor testStartTime expectedSwaps).Late
      (.initial testStartTime swapExecutions) testStartTime polls n)
    (hgoes : ∀ m < n, ¬(DvpSwapOnly.monitor testStartTime expectedSwaps).EndsAt
      (.initial testStartTime swapExecutions) polls m) :
    (DvpSwapOnly.monitor testStartTime expectedSwaps).EndsAt
        (.initial testStartTime swapExecutions) polls n ↔
      ¬SwapMonitor.thrown testStartTime ((DvpSwapOnly.monitor testStartTime expectedSwaps).trail
        (.initial testStartTime swapExecutions) polls n) (polls n) ≠ none := by
  have hoverdue := hlate.overdue_since (fun state => state.progress.lastProgressTime) rfl
    fun _ _ => SwapMonitor.pass_lastProgressTime
  have hopen :=
    DvpSwapOnly.completedSwaps_lt testStartTime expectedSwaps swapExecutions polls n hgoes
  exact SwapMonitor.pass_late hopen hlate.unseen hoverdue

end Swaps

/-! ## The condition -/

/-- A monitor stops in time unless a late poll that throws, or one of the deposit monitor that
follows no progress, is met before the loop has ended. -/
theorem monitors_stopInTime_iff (successfulSends : SentCount) (initialTokenBalance : Int)
    (testStartTime : Nat) (depositPolls : Nat → MonitorPoll DepositObservation)
    (withdrawalPolls : Nat → MonitorPoll Int) (expectedSwaps : SentCount)
    (swapExecutions : List SwapExecution) (swapPolls : Nat → SwapPoll) :
    let deposits := EnygmaDeposit.monitor successfulSends initialTokenBalance
    let withdrawals := EnygmaWithdrawal.monitor successfulSends initialTokenBalance
    let swaps := DvpSwapOnly.monitor testStartTime expectedSwaps
    let deposit := DepositMonitor.initial testStartTime
    let withdrawal := WithdrawalMonitor.initial testStartTime initialTokenBalance
    let swap := SwapMonitor.initial testStartTime swapExecutions
    (deposits.StopsInTime deposit testStartTime depositPolls ↔
        ∀ n, deposits.Late deposit testStartTime depositPolls n →
          (depositPolls n).Throws ∨ EnygmaDeposit.Untouched successfulSends initialTokenBalance
            testStartTime depositPolls n →
          ∃ m < n, deposits.EndsAt deposit depositPolls m) ∧
      (withdrawals.StopsInTime withdrawal testStartTime withdrawalPolls ↔
        ∀ n, withdrawals.Late withdrawal testStartTime withdrawalPolls n →
          (withdrawalPolls n).Throws → ∃ m < n, withdrawals.EndsAt withdrawal withdrawalPolls m) ∧
      (swaps.StopsInTime swap testStartTime swapPolls ↔
        ∀ n, swaps.Late swap testStartTime swapPolls n →
          SwapMonitor.thrown testStartTime (swaps.trail swap swapPolls n) (swapPolls n) ≠ none →
          ∃ m < n, swaps.EndsAt swap swapPolls m) := by
  intro deposits withdrawals swaps deposit withdrawal swap
  refine ⟨?_, ?_, ?_⟩
  · exact Watchdog.stopsInTime_iff fun n hlate _ => EnygmaDeposit.endsAt_iff hlate
  · exact Watchdog.stopsInTime_iff fun n hlate _ =>
      EnygmaWithdrawal.endsAt_iff successfulSends initialTokenBalance hlate
  · exact Watchdog.stopsInTime_iff fun n hlate hgoes => DvpSwapOnly.endsAt_iff hlate hgoes

/-! ## Three failing runs -/

section Failing

/-- Polls every two seconds, the first one more than two minutes after the start. -/
def latePolls {Observation : Type} (outcome : Except JsError Observation) (n : Nat) :
    MonitorPoll Observation :=
  ⟨121000 + pollingInterval * n, outcome, 121000 + pollingInterval * n,
    121000 + pollingInterval * n, Nat.le_refl _⟩

def failingSwapPolls (n : Nat) : SwapPoll where
  start := 121000 + pollingInterval * n
  completedEvents _ := .error (JsError.new "connection refused")
  executionTime _ := 0
  elapsedAt := 121000 + pollingInterval * n
  executionSummary := .ok ()
  checkedAt := 121000 + pollingInterval * n
  start_le := Nat.le_refl _

/-- The deposits never show a commitment; the polls of the other two monitors all throw. -/
theorem not_stopsInTime_quietDeposits :
    (¬(EnygmaDeposit.monitor ⟨1, by decide⟩ 20).StopsInTime (.initial 0) 0
        (latePolls (.ok ⟨20, []⟩))) ∧
      (¬(EnygmaWithdrawal.monitor ⟨1, by decide⟩ 20).StopsInTime (.initial 0 20) 0
        (latePolls (.error (JsError.new "connection refused")))) ∧
      ¬(DvpSwapOnly.monitor 0 ⟨1, by decide⟩).StopsInTime (.initial 0 [⟨"0x01", 0, none, none⟩]) 0
        failingSwapPolls := by
  refine ⟨fun hstops => ?_, fun hstops => ?_, fun hstops => ?_⟩
  · exact absurd (hstops 0 ⟨by decide, by decide⟩) (by decide)
  · exact absurd (hstops 0 ⟨by decide, by decide⟩) (by decide)
  · exact absurd (hstops 0 ⟨by decide, by decide⟩) (by decide)

end Failing

end RaylsSuite.Performance
