import RaylsSuite.Performance.Reporters
import RaylsSuite.Performance.SwapTarget

/-! # What the performance tests report

The deposit, withdrawal and swap tests report as successes what their monitors
saw settle, and as failures what they did not send. An operation that was sent
and has not settled when the monitor stops is neither.
-/

namespace RaylsSuite.Performance

open Foundation Common Entities

/-! ## The data of the tests -/

/-- `dividend / divisor`. -/
def quotient (dividend divisor : ℚ) : Number :=
  if divisor = 0 then
    if dividend = 0 then .nan else if 0 < dividend then .infinity else .negInfinity
  else .finite (binary64 (dividend / divisor))

def effectiveDuration (testStartTime actualCompletionTime : Nat) : ℚ :=
  binary64 (((actualCompletionTime : ℚ) - testStartTime) / 1000)

/-- What a report takes from the surroundings of its test. -/
structure ReportContext where
  version : String
  startNow : ℚ
  endNow : ℚ
  rpcUrlA : String
  avgTimeBetweenSends : ℚ

def EnygmaDeposit.testData (totalDeposits : Nat) (sends : CountedSends) (testStartTime : Nat)
    (final : DepositMonitor) (context : ReportContext) : TestData :=
  let actualDepositsCompleted : ℚ := final.maxCommitmentsReached
  let duration := effectiveDuration testStartTime final.actualCompletionTime
  { testType := some "Dvp EnygmaWrapper Deposit Performance Test"
    startTime := some testStartTime
    endTime := some final.actualCompletionTime
    transactionCount := some totalDeposits
    actualTPS := some (quotient actualDepositsCompleted duration)
    duration := some duration
    successfulTransactions := some actualDepositsCompleted
    failedTransactions := some (totalDeposits - sends.successfulSends)
    avgTimeBetweenSends := some context.avgTimeBetweenSends
    rpnCount := some 1
    rpcUrlA := some context.rpcUrlA
    methodology := some <|
      s!"Send {totalDeposits} Dvp deposit transactions sequentially. Timer starts at first send " ++
      "and effective completion time is when the last Dvp Commitments event was processed. TPS " ++
      "calculated as completed deposits divided by effective duration." }

/-- The amounts stay far below what a double counts exactly, so only the quotient of the time is
rounded. -/
def EnygmaWithdrawal.testData (totalWithdrawals : Nat) (sends : CountedSends)
    (testStartTime : Nat) (initialTokenBalance finalTokenBalance : Int)
    (final : WithdrawalMonitor) (context : ReportContext) : TestData :=
  let actualTokensReceived := finalTokenBalance - initialTokenBalance
  let actualWithdrawalsCompleted : ℚ := actualTokensReceived / withdrawalAmount
  let duration := effectiveDuration testStartTime final.actualCompletionTime
  { testType := some "Dvp EnygmaWrapper Withdrawal Performance Test"
    startTime := some testStartTime
    endTime := some final.actualCompletionTime
    transactionCount := some totalWithdrawals
    actualTPS := some (quotient actualWithdrawalsCompleted duration)
    duration := some duration
    successfulTransactions := some actualWithdrawalsCompleted
    failedTransactions := some (totalWithdrawals - sends.successfulSends)
    avgTimeBetweenSends := some context.avgTimeBetweenSends
    rpnCount := some 1
    rpcUrlA := some context.rpcUrlA
    methodology := some <|
      s!"Send {totalWithdrawals} Dvp withdrawal transactions sequentially. Timer starts at " ++
      "first send and effective completion time is when the last withdrawal is received " ++
      "(balance increase). TPS calculated as completed withdrawals divided by effective duration." }

def DvpSwapOnly.testData (totalSwaps expectedSwaps : Nat) (testStartTime : Nat)
    (final : SwapMonitor) (context : ReportContext) : TestData :=
  let completedSwaps : ℚ := final.progress.completedSwaps
  let duration := effectiveDuration testStartTime final.progress.actualCompletionTime
  { testType := some "Dvp Swap Performance Test"
    startTime := some testStartTime
    endTime := some final.progress.actualCompletionTime
    transactionCount := some totalSwaps
    actualTPS := some (quotient completedSwaps duration)
    duration := some duration
    successfulTransactions := some completedSwaps
    failedTransactions := some (totalSwaps - expectedSwaps)
    rpnCount := some 2
    rpcUrlA := some context.rpcUrlA
    methodology := some <|
      "This test measures how quickly the Dvp system can process atomic swaps between digital " ++
      "assets. Each swap involves two parties: one sending an NFT and another sending Enygma " ++
      s!"tokens. We send {totalSwaps} swap requests in batches and measure completion when both " ++
      "parties' transactions have been successfully processed by the system. The timer starts " ++
      "when we begin sending swap requests and stops when the last swap shows \"both sides " ++
      "confirmed\" status, indicating that both the NFT sender and token sender have " ++
      "successfully committed to their exchange." }

/-! ## The runs -/

/-- The transactions of a test that binds the contract of one token. -/
structure SentBatch (Signer : Type) where
  services : Services Signer
  node : PrivacyNode Signer
  counts : TransactionCounts
  store : ContractStore Signer
  token : TokenWrapper Signer
  calls : List MethodCall

variable {Signer : Type} [DecidableEq Signer]

/-- How many of them the node has accepted. -/
def SentBatch.accepted (batch : SentBatch Signer) : Nat :=
  (tokenAttempts batch.services batch.node batch.store batch.token batch.calls).countP
    (· == some true)

/-- The deposit test, up to its report. -/
structure DepositRun (Signer : Type) [DecidableEq Signer] where
  batch : SentBatch Signer
  sends : CountedSends
  sent : (EnygmaDeposit.sends batch.services batch.node batch.counts batch.store batch.token
    batch.calls).1 = .ok sends
  some_sent : 0 < sends.successfulSends
  initialTokenBalance : Int
  testStartTime : Nat
  polls : Nat → MonitorPoll DepositObservation
  last : Nat
  ended : (EnygmaDeposit.monitor ⟨sends.successfulSends, some_sent⟩ initialTokenBalance).EndsWith
    (.initial testStartTime) polls last
  context : ReportContext

/-- The commitments that a poll counts. -/
def MonitorPoll.commitments (poll : MonitorPoll DepositObservation) : Nat :=
  match poll.outcome with
  | .error _ => 0
  | .ok observed => depositsCompletedByEvents observed.logs

/-- The most commitments that one of the first polls counts. -/
def mostCommitments (polls : Nat → MonitorPoll DepositObservation) : Nat → Nat
  | 0 => 0
  | n + 1 => max (mostCommitments polls n) (polls n).commitments

namespace DepositRun

variable (run : DepositRun Signer)

def final : DepositMonitor :=
  (EnygmaDeposit.monitor ⟨run.sends.successfulSends, run.some_sent⟩
    run.initialTokenBalance).trail (.initial run.testStartTime) run.polls (run.last + 1)

def report : Metrics :=
  JsonReporter.buildMetrics
    (EnygmaDeposit.testData run.batch.calls.length run.sends run.testStartTime run.final
      run.context)
    run.context.version run.context.startNow run.context.endNow

/-- The commitments that the monitor has seen. -/
def settled : Nat := mostCommitments run.polls (run.last + 1)

end DepositRun

/-- The withdrawal test, up to its report. The last poll has seen `settled` withdrawals in the
balance of the wallet, which the final verification reads again. -/
structure WithdrawalRun (Signer : Type) [DecidableEq Signer] where
  batch : SentBatch Signer
  sends : CountedSends
  sent : (EnygmaWithdrawal.sends batch.services batch.node batch.counts batch.store batch.token
    batch.calls).1 = .ok sends
  some_sent : 0 < sends.successfulSends
  initialTokenBalance : Int
  testStartTime : Nat
  polls : Nat → MonitorPoll Int
  last : Nat
  ended : (EnygmaWithdrawal.monitor ⟨sends.successfulSends, some_sent⟩
    initialTokenBalance).EndsWith (.initial testStartTime initialTokenBalance) polls last
  settled : Nat
  seen : (polls last).outcome = .ok (initialTokenBalance + settled * withdrawalAmount)
  finalTokenBalance : Int
  context : ReportContext

namespace WithdrawalRun

variable (run : WithdrawalRun Signer)

def final : WithdrawalMonitor :=
  (EnygmaWithdrawal.monitor ⟨run.sends.successfulSends, run.some_sent⟩
    run.initialTokenBalance).trail (.initial run.testStartTime run.initialTokenBalance) run.polls
      (run.last + 1)

def report : Metrics :=
  JsonReporter.buildMetrics
    (EnygmaWithdrawal.testData run.batch.calls.length run.sends run.testStartTime
      run.initialTokenBalance run.finalTokenBalance run.final run.context)
    run.context.version run.context.startNow run.context.endNow

end WithdrawalRun

/-- The swap test, up to its report. -/
structure SwapRun (Signer : Type) [DecidableEq Signer] where
  batch : SwapBatch Signer
  expectedSwaps : SentCount
  target : batch.target = .ok expectedSwaps
  testStartTime : Nat
  polls : Nat → SwapPoll
  last : Nat
  ended : (DvpSwapOnly.monitor testStartTime expectedSwaps).EndsWith
    (.initial testStartTime batch.swapExecutions) polls last
  context : ReportContext

namespace SwapRun

variable (run : SwapRun Signer)

def final : SwapMonitor :=
  (DvpSwapOnly.monitor run.testStartTime run.expectedSwaps).trail
    (.initial run.testStartTime run.batch.swapExecutions) run.polls (run.last + 1)

def report : Metrics :=
  JsonReporter.buildMetrics
    (DvpSwapOnly.testData run.batch.swaps.length run.batch.expectedSwaps run.testStartTime
      run.final run.context)
    run.context.version run.context.startNow run.context.endNow

/-- The swaps that the monitor has found completed. -/
def settled : Nat := (executed run.final.swapExecutions).count true

end SwapRun

/-! ## What was sent and what was seen -/

section Figures

variable {services : Services Signer} {node : PrivacyNode Signer} {store : ContractStore Signer}

/-- The sender counts exactly the attempts that succeeded. -/
theorem countedSends_successfulSends (counts : TransactionCounts) (method : String)
    (token : TokenWrapper Signer) (calls : List MethodCall) {sends : CountedSends}
    (hsends : (countedSends services node counts store
      (fun getAddress contract => sendSingle getAddress contract method) token calls).1 =
        .ok sends) :
    sends.successfulSends =
      (tokenAttempts services node store token calls).countP (· == some true) := by
  unfold countedSends at hsends
  split at hsends
  next => cases hsends
  next tokenOnPNA hbound =>
    obtain rfl := Except.ok.inj hsends
    rw [tokenAttempts, hbound, List.countP_map]
    refine (@sendEach_successfulSends _ _ id (fun _ call => call.attempt == some true) _
      ?_ (fun _ _ => rfl) _ _).trans (Nat.zero_add _)
    exact fun state call => record_sendSingle_successfulSends (tokenContract_runner hbound)
      method state.currentNonce call state

theorem DepositRun.successfulSends_eq (run : DepositRun Signer) :
    run.sends.successfulSends = run.batch.accepted :=
  countedSends_successfulSends run.batch.counts "depositToDvp" _ _ run.sent

theorem WithdrawalRun.successfulSends_eq (run : WithdrawalRun Signer) :
    run.sends.successfulSends = run.batch.accepted :=
  countedSends_successfulSends run.batch.counts "callWithdrawFromDvp" _ _ run.sent

theorem SentBatch.accepted_le (batch : SentBatch Signer) :
    batch.accepted ≤ batch.calls.length := by
  refine (List.countP_le_length).trans ?_
  rw [tokenAttempts, List.length_map]

theorem SwapBatch.expectedSwaps_le (batch : SwapBatch Signer) :
    batch.expectedSwaps ≤ batch.swaps.length := by
  rw [batch.expectedSwaps_eq]
  exact (min_le_left _ _).trans List.countP_le_length

/-- The counter of a deposit monitor is the most commitments that a poll has seen. -/
theorem EnygmaDeposit.maxCommitmentsReached_eq (successfulSends : SentCount)
    (initialTokenBalance : Int) (testStartTime : Nat) (polls : Nat → MonitorPoll DepositObservation)
    (n : Nat) :
    ((EnygmaDeposit.monitor successfulSends initialTokenBalance).trail (.initial testStartTime)
      polls n).maxCommitmentsReached = mostCommitments polls n := by
  induction n with
  | zero => rfl
  | succ n ih =>
      rw [mostCommitments, ← ih, Watchdog.trail]
      cases houtcome : (polls n).outcome with
      | error err =>
          have hnone : (polls n).commitments = 0 := by rw [MonitorPoll.commitments, houtcome]
          rw [hnone]
          exact (congrArg (fun step => step.1.maxCommitmentsReached)
            (DepositMonitor.pass_error houtcome)).trans (Nat.max_zero _).symm
      | ok observed =>
          have hcount : (polls n).commitments = depositsCompletedByEvents observed.logs := by
            rw [MonitorPoll.commitments, houtcome]
          rw [hcount, ← DepositMonitor.track_max]
          exact (DepositMonitor.pass_ok successfulSends initialTokenBalance _ _ houtcome).2.2.1

theorem SwapRun.completedSwaps_eq (run : SwapRun Signer) :
    run.final.progress.completedSwaps = run.settled := by
  refine Watchdog.trail_invariant _ _ _
    (fun state : SwapMonitor =>
      state.progress.completedSwaps = (executed state.swapExecutions).count true)
    ?_ (fun _ _ => SwapMonitor.pass_counted) (run.last + 1)
  exact run.batch.count_executed_swapExecutions.symm

end Figures

section Withdrawn

variable (initialTokenBalance finalTokenBalance : Int) (settled : Nat)

/-- The quotient that the withdrawal test reports. -/
theorem withdrawn_eq_iff :
    ((finalTokenBalance - initialTokenBalance : Int) : ℚ) / (withdrawalAmount : Nat) = settled ↔
      finalTokenBalance = initialTokenBalance + settled * withdrawalAmount := by
  rw [div_eq_iff (by norm_num [withdrawalAmount])]
  constructor
  · intro heq
    have hint : finalTokenBalance - initialTokenBalance = settled * withdrawalAmount := by
      exact_mod_cast heq
    omega
  · intro heq
    have hint : finalTokenBalance - initialTokenBalance = settled * withdrawalAmount := by omega
    exact_mod_cast hint

end Withdrawn

/-- For all runs of the three tests: the report accounts for what has settled exactly when that
is all that was sent. For withdrawals also the balance is still the one that the monitor saw, or
it is the initial one again and all that were attempted have settled. -/
theorem reports_accounted_iff :
    (∀ run : DepositRun Signer,
      ReportsTruly run.batch.calls.length run.settled run.report.summary ↔
        run.settled = run.batch.accepted) ∧
      (∀ run : WithdrawalRun Signer,
        ReportsTruly run.batch.calls.length run.settled run.report.summary ↔
          run.settled = run.batch.accepted ∧
            (run.finalTokenBalance = run.initialTokenBalance + run.settled * withdrawalAmount ∨
              run.finalTokenBalance = run.initialTokenBalance ∧
                run.settled = run.batch.calls.length)) ∧
      ∀ run : SwapRun Signer,
        ReportsTruly run.batch.swaps.length run.settled run.report.summary ↔
          run.settled = min (run.batch.swaps.countP run.batch.nftSent)
            (run.batch.swaps.countP run.batch.enygmaSent) := by
  refine ⟨fun run => ?_, fun run => ?_, fun run => ?_⟩
  · have hsent := run.successfulSends_eq
    have hsettled : run.final.maxCommitmentsReached = run.settled :=
      EnygmaDeposit.maxCommitmentsReached_eq ..
    rw [← hsent]
    refine (buildMetrics_accounted_iff _ _ _ rfl rfl rfl run.some_sent
      (hsent ▸ run.batch.accepted_le)).trans (and_iff_left (.inl ?_))
    rw [hsettled]
  · have hsent := run.successfulSends_eq
    rw [← hsent]
    refine (buildMetrics_accounted_iff _ _ _ rfl rfl rfl run.some_sent
      (hsent ▸ run.batch.accepted_le)).trans (and_congr_right fun _ => ?_)
    have hinitial := withdrawn_eq_iff run.initialTokenBalance run.finalTokenBalance 0
    rw [Nat.cast_zero, Nat.cast_zero, zero_mul, add_zero] at hinitial
    exact or_congr (withdrawn_eq_iff ..) (and_congr_left fun _ => hinitial)
  · rw [← run.batch.expectedSwaps_eq]
    have hpositive : 0 < run.batch.expectedSwaps :=
      SwapBatch.target_val run.target ▸ run.expectedSwaps.property
    refine (buildMetrics_accounted_iff _ _ _ rfl rfl rfl hpositive
      run.batch.expectedSwaps_le).trans (and_iff_left (.inl ?_))
    rw [run.completedSwaps_eq]

/-- Three withdrawals are sent and none of them settles before two minutes are over. -/
def stalledRun : WithdrawalRun Wallet where
  batch := {
    services := performanceServices
    node := performanceNode
    counts := minedCounts 0 0
    store := .new
    token := performanceToken
    calls := List.replicate 3 acceptedCall }
  sends := ⟨3, 3, 0⟩
  sent := rfl
  some_sent := Nat.succ_pos 2
  initialTokenBalance := 500
  testStartTime := 0
  polls _ := ⟨121000, .ok 500, 121000, 121000, Nat.le_refl _⟩
  last := 0
  ended := ⟨by unfold Watchdog.EndsAt; decide, fun m hlt => absurd hlt (Nat.not_lt_zero m)⟩
  settled := 0
  seen := rfl
  finalTokenBalance := 500
  context := ⟨"main", 121000, 121000, "http://localhost:8545", 4⟩

theorem not_accounted_stalled : ¬ReportsTruly 3 0 stalledRun.report.summary ∧
    stalledRun.report.summary.successfulTransactions = 3 ∧
    stalledRun.report.summary.failedTransactions = 0 ∧
    stalledRun.report.summary.successRate = 100 := by
  have hsuccessful : stalledRun.report.summary.successfulTransactions = 3 := by decide +kernel
  refine ⟨fun haccounted => ?_, hsuccessful, by decide +kernel, by decide +kernel⟩
  have hzero := haccounted.successful
  rw [hsuccessful] at hzero
  norm_num at hzero

end RaylsSuite.Performance
