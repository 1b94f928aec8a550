import RaylsSuite.Foundation.Tally
import RaylsSuite.Performance.MonitorLaw
import RaylsSuite.Performance.NonceLaw

/-! # How many swaps the monitor waits for

Each swap has two sides, which are sent in two loops that count their own
successes. The monitor waits for as many swaps as the smaller count says, while
a swap can complete only if both of its sides were sent.
-/

namespace RaylsSuite.Performance

open Foundation Common Entities

/-! ## The batch -/

/-- A swap with the tokens of its sides and what the calls of its sends meet. -/
structure DvpSwap (Signer : Type) where
  sharedId : String
  startTime : Nat
  nftCollection : TokenWrapper Signer
  nftCall : MethodCall
  enygmaToken : TokenWrapper Signer
  enygmaCall : MethodCall

/-- The node that a side is sent from. -/
structure SwapSide (Signer : Type) where
  node : PrivacyNode Signer
  counts : TransactionCounts
  store : ContractStore Signer

structure SwapBatch (Signer : Type) where
  services : Services Signer
  A : SwapSide Signer
  B : SwapSide Signer
  swaps : List (DvpSwap Signer)

namespace SwapBatch

variable {Signer : Type} [DecidableEq Signer] (batch : SwapBatch Signer)

def nftSides : List (TokenWrapper Signer × MethodCall) :=
  batch.swaps.map fun swap => (swap.nftCollection, swap.nftCall)

def enygmaSides : List (TokenWrapper Signer × MethodCall) :=
  batch.swaps.map fun swap => (swap.enygmaToken, swap.enygmaCall)

def successfulNftSides : Nat :=
  (DvpSwapOnly.nftSends batch.services batch.B.node batch.B.counts batch.B.store
    batch.nftSides).1.1.successfulSends

def successfulEnygmaSides : Nat :=
  (DvpSwapOnly.enygmaSends batch.services batch.A.node batch.A.counts batch.A.store
    batch.enygmaSides).1.1.successfulSends

def expectedSwaps : Nat := min batch.successfulNftSides batch.successfulEnygmaSides

/-- What the monitor starts with, unless the test throws before. -/
def target : Except JsError SentCount :=
  if hsome : 0 < batch.expectedSwaps then .ok ⟨batch.expectedSwaps, hsome⟩
  else .error (JsError.new "No complete swaps were executed successfully")

def swapExecutions : List SwapExecution :=
  batch.swaps.map fun swap => ⟨swap.sharedId, swap.startTime, none, none⟩

/-! ## What can complete -/

/-- The node has accepted the transaction of the NFT side. -/
def nftSent (swap : DvpSwap Signer) : Bool :=
  swapAttempt batch.services batch.B.node batch.B.store "ProductionErc721Dvp"
    (swap.nftCollection, swap.nftCall) == some true

def enygmaSent (swap : DvpSwap Signer) : Bool :=
  swapAttempt batch.services batch.A.node batch.A.store "ProductionEnygmaToken"
    (swap.enygmaToken, swap.enygmaCall) == some true

/-- By position, whether both sides of the swap were sent. -/
def completable : List Bool :=
  batch.swaps.map fun swap => batch.nftSent swap && batch.enygmaSent swap

end SwapBatch

/-- By position, whether the swap has been found completed. -/
def executed (swapExecutions : List SwapExecution) : List Bool :=
  swapExecutions.map fun swap => swap.executionTime.isSome

/-- The condition of the `while` holds no longer. -/
def SwapMonitor.declares (expectedSwaps : SentCount) (state : SwapMonitor) : Bool :=
  !(!state.allSwapsExecuted && decide (state.progress.completedSwaps < expectedSwaps.val))

/-- No poll finds a `SwapCompleted` event of a swap that lacks a side. -/
def FindsOnly (completable : List Bool) (poll : SwapPoll) : Prop :=
  ∀ position completedEvents, completable[position]? ≠ some true →
    poll.completedEvents position = .ok completedEvents → completedEvents = 0

/-- The target is the number of swaps that can complete, and the monitor declares them all
executed exactly when they are. -/
structure SwapBatch.OnTarget {Signer : Type} [DecidableEq Signer] (batch : SwapBatch Signer) :
    Prop where
  count : batch.expectedSwaps = batch.completable.count true
  declares : ∀ expectedSwaps, batch.target = .ok expectedSwaps → ∀ testStartTime polls,
    (∀ n, FindsOnly batch.completable (polls n)) → ∀ n,
      let state := (DvpSwapOnly.monitor testStartTime expectedSwaps).trail
        (.initial testStartTime batch.swapExecutions) polls n
      state.declares expectedSwaps = true ↔
        MarksAll (executed state.swapExecutions) batch.completable

/-! ## The counts of the sends -/

section Counts

variable {Signer : Type}

/-- The body of the loops counts a send whose transaction the node has accepted. -/
theorem record_sendSingle_successfulSends {getAddress : Signer → String}
    {contract : Contract Signer} {signer : Signer} (hrunner : contract.runner = some signer)
    (method : String) (nonce : Nat) (call : MethodCall) (state : CountedSends) :
    (state.record (sendSingle getAddress contract method nonce call).1).successfulSends =
      state.successfulSends + if call.attempt == some true then 1 else 0 := by
  cases call with
  | accepted hash =>
      simp [sendSingle, callMethod, hrunner, CountedSends.record, hash.property, MethodCall.attempt]
  | refused err => simp [sendSingle, callMethod, hrunner, CountedSends.record, MethodCall.attempt]
  | unsent err => simp [sendSingle, callMethod, hrunner, CountedSends.record, MethodCall.attempt]

/-- A loop whose passes count what they accept counts all that it accepts. -/
theorem sendEach_successfulSends {State Item : Type} {sends : State → CountedSends}
    {accepts : State → Item → Bool} {pass : State → Item → State × List HandedTransaction}
    (hcounts : ∀ state item, (sends (pass state item).1).successfulSends =
      (sends state).successfulSends + if accepts state item then 1 else 0)
    (hsettled : ∀ state item, accepts (pass state item).1 = accepts state)
    (state : State) (items : List Item) :
    (sends (sendEach pass state items).1).successfulSends =
      (sends state).successfulSends + items.countP (accepts state) := by
  induction items generalizing state with
  | nil => rfl
  | cons item rest ih =>
      rw [sendEach]
      dsimp only
      rw [ih, hcounts, hsettled, List.countP_cons]
      omega

variable [DecidableEq Signer] {services : Services Signer} {node : PrivacyNode Signer}
  {store : ContractStore Signer}

/-- The count grows by one exactly when the attempt succeeds. -/
theorem record_sendSideSwap (factoryName method : String) (token : TokenWrapper Signer)
    (nonce : Nat) (call : MethodCall) (state : CountedSends) :
    (state.record (sendSideSwap services node factoryName method token nonce call
        store).1.1).successfulSends =
      state.successfulSends +
        if swapAttempt services node store factoryName (token, call) == some true
        then 1 else 0 := by
  cases hbound : (tokenContract services node token factoryName store).1 with
  | error err =>
      rw [sendSideSwap_of_error _ _ _ hbound]
      simp [swapAttempt, hbound, MethodCall.reaching, CountedSends.record]
  | ok contract =>
      rw [sendSideSwap_of_ok _ _ _ hbound,
        record_sendSingle_successfulSends (tokenContract_runner hbound), swapAttempt, hbound]
      rfl

/-- The swaps of one side count exactly the attempts that succeeded. -/
theorem sideSwaps_successfulSends (counts : TransactionCounts) (factoryName method : String)
    (swaps : List (TokenWrapper Signer × MethodCall)) :
    (sideSwaps services counts store (sendSideSwap services node factoryName method)
        swaps).1.1.successfulSends =
      swaps.countP (swapAttempt services node store factoryName · == some true) := by
  cases swaps with
  | nil => rfl
  | cons first rest =>
      refine (@sendEach_successfulSends _ _ Prod.fst (fun state swap =>
        swapAttempt services node state.2 factoryName swap == some true) _ ?_ ?_ _ _).trans
          (Nat.zero_add _)
      · exact fun state swap =>
          record_sendSideSwap factoryName method swap.1 state.1.currentNonce swap.2 state.1
      · intro state swap
        dsimp only
        rw [sendSideSwap_store, swapAttempt_settled]

end Counts

/-! ## The marks of the monitor -/

section Marks

/-- The `for` loop counts the swaps that it finds completed. -/
theorem SwapPoll.visit_counted (poll : SwapPoll) (position : Nat)
    (swapExecutions : List SwapExecution) (progress : SwapProgress) :
    let after := (poll.visit position swapExecutions progress).1
    after.2.completedSwaps + (executed swapExecutions).count true =
      progress.completedSwaps + (executed after.1).count true := by
  induction swapExecutions generalizing position progress with
  | nil => rfl
  | cons swap rest ih =>
      have hrest := ih (position + 1) progress
      simp only [SwapPoll.visit]
      split
      next =>
        simp only [executed, List.map_cons, List.count_cons] at hrest ⊢
        omega
      next hpending =>
        cases poll.completedEvents position with
        | error err => rfl
        | ok completedEvents =>
            dsimp only
            split
            next =>
              have hfound := ih (position + 1) (progress.complete (poll.executionTime position))
              have hunmarked : swap.executionTime.isSome = false := by simpa using hpending
              simp only [executed, List.map_cons, List.count_cons, hunmarked,
                SwapExecution.complete, SwapProgress.complete] at hfound ⊢
              simp at hfound ⊢
              omega
            next =>
              simp only [executed, List.map_cons, List.count_cons] at hrest ⊢
              omega

/-- It marks only what the poll finds. -/
theorem SwapPoll.visit_only (poll : SwapPoll) (position : Nat)
    (swapExecutions : List SwapExecution) (progress : SwapProgress) {able : List Bool}
    (honly : MarksOnly (executed swapExecutions) able)
    (hfinds : ∀ offset completedEvents, able[offset]? ≠ some true →
      poll.completedEvents (position + offset) = .ok completedEvents → completedEvents = 0) :
    MarksOnly (executed (poll.visit position swapExecutions progress).1.1) able := by
  induction swapExecutions generalizing position progress able with
  | nil => exact honly
  | cons swap rest ih =>
      obtain ⟨can, able, hmark, hrest, rfl⟩ := List.forall₂_cons_left_iff.mp honly
      have hlater : ∀ offset completedEvents, able[offset]? ≠ some true →
          poll.completedEvents (position + 1 + offset) = .ok completedEvents →
          completedEvents = 0 := by
        intro offset completedEvents hunable hevents
        rw [Nat.add_assoc, Nat.add_comm 1 offset] at hevents
        exact hfinds (offset + 1) completedEvents hunable hevents
      simp only [SwapPoll.visit]
      split
      next => exact .cons hmark (ih (position + 1) progress hrest hlater)
      next =>
        cases hevents : poll.completedEvents position with
        | error err => exact honly
        | ok completedEvents =>
            dsimp only
            split
            next hcompleted =>
              refine .cons (fun _ => ?_) (ih (position + 1) _ hrest hlater)
              by_contra hunable
              have hzero := hfinds 0 completedEvents (by simpa using hunable) hevents
              omega
            next => exact .cons hmark (ih (position + 1) progress hrest hlater)

variable {testStartTime : Nat} {expectedSwaps : SentCount} {state : SwapMonitor} {poll : SwapPoll}
  {able : List Bool}

theorem SwapMonitor.pass_swapExecutions :
    (SwapMonitor.pass testStartTime expectedSwaps state poll).1.swapExecutions =
      (poll.visit 0 state.swapExecutions state.progress).1.1 := by
  obtain ⟨_, hvisit⟩ := @SwapMonitor.pass_visit testStartTime expectedSwaps state poll
  rw [hvisit]

/-- A pass sets the flag only once the expected number of swaps is completed. -/
theorem SwapMonitor.pass_flag :
    (SwapMonitor.pass testStartTime expectedSwaps state poll).1.allSwapsExecuted = true →
      state.allSwapsExecuted = true ∨ expectedSwaps.val ≤
        (SwapMonitor.pass testStartTime expectedSwaps state poll).1.progress.completedSwaps := by
  rw [SwapMonitor.pass_progress]
  simp only [SwapMonitor.pass]
  split
  next => exact .inl
  next =>
    split
    next => exact .inl
    next =>
      split
      next hcompleted => exact fun _ => .inr (of_decide_eq_true hcompleted)
      next => exact .inl

/-- A pass keeps the count equal to the number of swaps that are marked. -/
theorem SwapMonitor.pass_counted
    (hcounted : state.progress.completedSwaps = (executed state.swapExecutions).count true) :
    let after := (SwapMonitor.pass testStartTime expectedSwaps state poll).1
    after.progress.completedSwaps = (executed after.swapExecutions).count true := by
  have hadded := poll.visit_counted 0 state.swapExecutions state.progress
  dsimp only
  rw [SwapMonitor.pass_swapExecutions, SwapMonitor.pass_progress]
  omega

/-- What the monitor has marked and counted. -/
structure SwapMonitor.Tracks (expectedSwaps : SentCount) (able : List Bool)
    (state : SwapMonitor) : Prop where
  only : MarksOnly (executed state.swapExecutions) able
  counted : state.progress.completedSwaps = (executed state.swapExecutions).count true
  flag : state.allSwapsExecuted = true → expectedSwaps.val ≤ state.progress.completedSwaps

/-- A pass over a poll that finds only completable swaps keeps what the monitor tracks. -/
theorem SwapMonitor.Tracks.pass (htracks : state.Tracks expectedSwaps able)
    (hfinds : FindsOnly able poll) :
    (SwapMonitor.pass testStartTime expectedSwaps state poll).1.Tracks expectedSwaps able := by
  obtain ⟨honly, hcounted, hflag⟩ := htracks
  have hkept := poll.visit_only 0 state.swapExecutions state.progress honly
    (by simpa [FindsOnly] using hfinds)
  have hgrows := (poll.visit_progress 0 state.swapExecutions state.progress).1
  refine ⟨?_, SwapMonitor.pass_counted hcounted, fun hset => ?_⟩
  · rw [SwapMonitor.pass_swapExecutions]
    exact hkept
  · rcases SwapMonitor.pass_flag hset with hbefore | hnow
    · have hreached := hflag hbefore
      rw [SwapMonitor.pass_progress]
      omega
    · exact hnow

/-- The monitor declares success exactly when enough swaps are marked. -/
theorem SwapMonitor.Tracks.declares_iff (htracks : state.Tracks expectedSwaps able) :
    state.declares expectedSwaps = true ↔
      expectedSwaps.val ≤ (executed state.swapExecutions).count true := by
  rw [← htracks.counted]
  have hflag := htracks.flag
  cases hset : state.allSwapsExecuted with
  | true => simp [SwapMonitor.declares, hset, hflag hset]
  | false => simp [SwapMonitor.declares, hset]

end Marks

/-! ## The condition -/

section Target

variable {Signer : Type} [DecidableEq Signer] (batch : SwapBatch Signer)

theorem SwapBatch.expectedSwaps_eq : batch.expectedSwaps =
    min (batch.swaps.countP batch.nftSent) (batch.swaps.countP batch.enygmaSent) := by
  have hnft : batch.successfulNftSides = batch.swaps.countP batch.nftSent :=
    (sideSwaps_successfulSends batch.B.counts _ _ batch.nftSides).trans List.countP_map
  have henygma : batch.successfulEnygmaSides = batch.swaps.countP batch.enygmaSent :=
    (sideSwaps_successfulSends batch.A.counts _ _ batch.enygmaSides).trans List.countP_map
  rw [SwapBatch.expectedSwaps, hnft, henygma]

theorem SwapBatch.completable_count : batch.completable.count true =
    batch.swaps.countP fun swap => batch.nftSent swap && batch.enygmaSent swap := by
  rw [SwapBatch.completable, List.count, List.countP_map]
  exact List.countP_congr fun swap _ => by simp

omit [DecidableEq Signer] in
theorem SwapBatch.executed_swapExecutions :
    executed batch.swapExecutions = batch.swaps.map fun _ => false := by
  rw [executed, SwapBatch.swapExecutions, List.map_map]
  rfl

omit [DecidableEq Signer] in
theorem SwapBatch.count_executed_swapExecutions :
    (executed batch.swapExecutions).count true = 0 := by
  rw [batch.executed_swapExecutions, List.map_const', List.count_replicate]
  rfl

variable {batch} {testStartTime : Nat} {expectedSwaps : SentCount} {polls : Nat → SwapPoll}

/-- The monitor tracks its swaps after any number of polls. -/
theorem SwapBatch.tracks_trail (testStartTime : Nat) (expectedSwaps : SentCount)
    (hfinds : ∀ n, FindsOnly batch.completable (polls n)) (n : Nat) :
    ((DvpSwapOnly.monitor testStartTime expectedSwaps).trail
      (.initial testStartTime batch.swapExecutions) polls n).Tracks expectedSwaps
        batch.completable := by
  induction n with
  | zero =>
      have hnone := batch.executed_swapExecutions
      refine ⟨?_, ?_, fun hset => by cases hset⟩
      · change MarksOnly (executed batch.swapExecutions) batch.completable
        rw [hnone]
        exact List.forall₂_map_left_iff.mpr (List.forall₂_map_right_iff.mpr
          (List.forall₂_same.mpr fun _ _ hmark => by cases hmark))
      · exact batch.count_executed_swapExecutions.symm
  | succ n ih => exact ih.pass (hfinds n)

theorem SwapBatch.target_val (htarget : batch.target = .ok expectedSwaps) :
    expectedSwaps.val = batch.expectedSwaps := by
  unfold SwapBatch.target at htarget
  split at htarget
  next => exact congrArg Subtype.val (Except.ok.inj htarget).symm
  next => cases htarget

/-- Where the target is not the number of swaps that can complete, the monitor never declares
them executed. -/
theorem SwapBatch.declares_eq_false (htarget : batch.target = .ok expectedSwaps)
    (hcount : batch.expectedSwaps ≠ batch.completable.count true)
    (hfinds : ∀ n, FindsOnly batch.completable (polls n)) (n : Nat) :
    ((DvpSwapOnly.monitor testStartTime expectedSwaps).trail
      (.initial testStartTime batch.swapExecutions) polls n).declares expectedSwaps = false := by
  have htracks := tracks_trail testStartTime expectedSwaps hfinds n
  have hmarked := htracks.only.count_le
  have hbelow := countP_and_le_min batch.nftSent batch.enygmaSent batch.swaps
  rw [← batch.expectedSwaps_eq, ← batch.completable_count] at hbelow
  rw [← Bool.not_eq_true, htracks.declares_iff, target_val htarget]
  omega

/-- For every batch: the monitor waits for the swaps that can complete exactly when the swaps sent
on one side include those sent on the other. -/
theorem DvpSwapOnly.onTarget_iff (batch : SwapBatch Signer) : batch.OnTarget ↔
    (∀ swap ∈ batch.swaps, batch.nftSent swap = true → batch.enygmaSent swap = true) ∨
      (∀ swap ∈ batch.swaps, batch.enygmaSent swap = true → batch.nftSent swap = true) := by
  rw [← min_countP_eq_iff, ← batch.expectedSwaps_eq, ← batch.completable_count]
  refine ⟨fun honTarget => honTarget.count, fun hcount => ⟨hcount, ?_⟩⟩
  intro expectedSwaps htarget testStartTime polls hfinds n state
  have htracks : state.Tracks expectedSwaps batch.completable :=
    SwapBatch.tracks_trail testStartTime expectedSwaps hfinds n
  rw [htracks.declares_iff, htracks.only.marksAll_iff, SwapBatch.target_val htarget, hcount]

end Target

def acceptedCall : MethodCall := .accepted ⟨"0x01", by decide⟩

/-- Three swaps, of which the first lacks its NFT side and the second its Enygma side. -/
def lopsidedBatch : SwapBatch Wallet where
  services := performanceServices
  A := ⟨performanceNode, minedCounts 0 0, .new⟩
  B := ⟨performanceNode, minedCounts 0 0, .new⟩
  swaps :=
    let refused := MethodCall.refused (JsError.new "execution reverted")
    [⟨"a1", 0, performanceToken, refused, performanceToken, acceptedCall⟩,
      ⟨"b2", 0, performanceToken, acceptedCall, performanceToken, refused⟩,
      ⟨"c3", 0, performanceToken, acceptedCall, performanceToken, acceptedCall⟩]

theorem not_onTarget_lopsided : ¬lopsidedBatch.OnTarget ∧
    lopsidedBatch.expectedSwaps = 2 ∧ lopsidedBatch.completable.count true = 1 := by
  have hexpected : lopsidedBatch.expectedSwaps = 2 := by decide
  have hcompletable : lopsidedBatch.completable.count true = 1 := by decide
  refine ⟨fun honTarget => ?_, hexpected, hcompletable⟩
  have hcount := honTarget.count
  rw [hexpected, hcompletable] at hcount
  cases hcount

end RaylsSuite.Performance
