import Mathlib.Algebra.Order.BigOperators.Group.List
import RaylsSuite.Common.JsVal
import RaylsSuite.Common.PollingLaw

/-! # The commitment wait of a DvP deposit

A deposit takes for complete what a count of events says: one more than in the
same blocks before the transaction was sent, or than none when that count
failed. The events of other depositors are counted alike.
-/

namespace RaylsSuite.Tokens

open Common Config Entities Foundation

/-! ## Events in blocks -/

/-- Whose deposit a `Commitments` event of the token is for. -/
inductive Depositor where
  | own
  | other
deriving DecidableEq, Repr

/-- The events of every block that the hub will ever have. -/
abbrev Blocks : Type := Nat → List Depositor

/-- `queryFilter(filter, fromBlock, toBlock)`. -/
def queryFilter (blocks : Blocks) (fromBlock toBlock : Nat) : List Depositor :=
  (List.range' fromBlock (toBlock + 1 - fromBlock)).flatMap blocks

variable {blocks : Blocks} {fromBlock middle toBlock : Nat}

/-- A query over a range is the queries over its two parts. -/
theorem queryFilter_split (hfrom : fromBlock ≤ middle + 1) (hto : middle ≤ toBlock) :
    queryFilter blocks fromBlock toBlock =
      queryFilter blocks fromBlock middle ++ queryFilter blocks (middle + 1) toBlock := by
  have hlength : toBlock + 1 - fromBlock =
      (middle + 1 - fromBlock) + (toBlock + 1 - (middle + 1)) := by omega
  have hstart : fromBlock + 1 * (middle + 1 - fromBlock) = middle + 1 := by omega
  rw [queryFilter, queryFilter, queryFilter, ← List.flatMap_append, hlength,
    ← List.range'_append, hstart]

theorem mem_queryFilter {depositor : Depositor} :
    depositor ∈ queryFilter blocks fromBlock toBlock ↔
      ∃ block, fromBlock ≤ block ∧ block ≤ toBlock ∧ depositor ∈ blocks block := by
  simp only [queryFilter, List.mem_flatMap, List.mem_range'_1]
  constructor
  · rintro ⟨block, ⟨hlow, hhigh⟩, hmem⟩
    exact ⟨block, hlow, by omega, hmem⟩
  · rintro ⟨block, hlow, hhigh, hmem⟩
    exact ⟨block, ⟨hlow, by omega⟩, hmem⟩

theorem length_eq_counts (events : List Depositor) :
    events.length = events.count .other + events.count .own := by
  induction events with
  | nil => rfl
  | cons depositor rest ih => cases depositor <;> simp [ih] <;> omega

/-- The own commitment is in a block up to this one. -/
def OnChain (blocks : Blocks) (toBlock : Nat) : Prop := ∃ block ≤ toBlock, .own ∈ blocks block

instance (blocks : Blocks) (toBlock : Nat) : Decidable (OnChain blocks toBlock) := by
  unfold OnChain
  infer_instance

/-! ## The wait -/

/-- `(DEFAULT_TIMEOUT * 2) / SECOND`. -/
def depositAttempts (PARALLEL_WORKERS : Option String) : Nat :=
  DEFAULT_TIMEOUT PARALLEL_WORKERS * 2 / SECOND

/-- `waitForMerkleCommitments`; an attempt observes whether the root is valid and how many events
there are. -/
def waitForMerkleCommitments {σ : Type} [Host σ] (PARALLEL_WORKERS : Option String)
    (symbol : String) (observe : Async σ JsVal (Bool × Nat)) (numberOfDeposits : Nat) :
    Async σ JsVal Bool :=
  eventually PARALLEL_WORKERS
    { check := fun world => match observe world with
        | (.error err, world) => (.error err, world)
        | (.ok (isValidRoot, logs), world) => (.ok (isValidRoot && logs == numberOfDeposits), world)
      attempts := some (depositAttempts PARALLEL_WORKERS) }
    s!"Waiting for {numberOfDeposits} {symbol} deposits on Merkle Tree"

/-- The commitments of a token around one deposit: the block number at its snapshot, the one at the
count of the events before, which may fail, and what each attempt of the wait reads. The own
commitment is there once, after the count. -/
structure DepositHistory where
  blocks : Blocks
  currentBlock : Nat
  counted : Except JsVal Nat
  polls : Nat → Except JsVal (Bool × Nat)
  currentBlock_le : ∀ countedTo, counted = .ok countedTo → currentBlock ≤ countedTo
  counted_le : ∀ n isValidRoot toBlock, polls n = .ok (isValidRoot, toBlock) →
    counted.toOption.getD currentBlock ≤ toBlock
  own_once : ∀ toBlock, (queryFilter blocks 0 toBlock).count .own ≤ 1
  own_after : ¬OnChain blocks (counted.toOption.getD currentBlock)

namespace DepositHistory

/-- The safety margin below the snapshot. -/
def fromBlockNumber (history : DepositHistory) : Nat := history.currentBlock - 10

def getCommitmentsEventCount (history : DepositHistory) : Nat :=
  match history.counted with
  | .ok toBlockNumber => (queryFilter history.blocks history.fromBlockNumber toBlockNumber).length
  | .error _ => 0

/-- What the `n`-th attempt observes. -/
def observed (history : DepositHistory) (n : Nat) : Except JsVal (Bool × Nat) :=
  (history.polls n).map fun poll =>
    (poll.1, (queryFilter history.blocks history.fromBlockNumber poll.2).length)

/-- The wait of `depositEnygmaToDvp` behind its transaction. -/
def waitForDepositsToComplete (history : DepositHistory) (PARALLEL_WORKERS : Option String)
    (symbol : String) : Async Probe JsVal Bool :=
  waitForMerkleCommitments PARALLEL_WORKERS symbol (oracleCheck history.observed)
    (history.getCommitmentsEventCount + 1)

/-! ## What the count says -/

/-- The commitments of others that an attempt counts and the first count did not. -/
def uncounted (history : DepositHistory) (toBlock : Nat) : Nat :=
  match history.counted with
  | .ok countedTo => (queryFilter history.blocks (countedTo + 1) toBlock).count .other
  | .error _ => (queryFilter history.blocks history.fromBlockNumber toBlock).count .other

variable {history : DepositHistory}

/-- A window above the first count holds the own commitment once it is on chain. -/
theorem count_own (history : DepositHistory)
    (hfrom : fromBlock ≤ history.counted.toOption.getD history.currentBlock + 1) :
    (queryFilter history.blocks fromBlock toBlock).count .own =
      if OnChain history.blocks toBlock then 1 else 0 := by
  have hmem : .own ∈ queryFilter history.blocks fromBlock toBlock ↔
      OnChain history.blocks toBlock := by
    rw [mem_queryFilter]
    constructor
    · rintro ⟨block, -, hhigh, hown⟩
      exact ⟨block, hhigh, hown⟩
    · rintro ⟨block, hhigh, hown⟩
      have hafter : ¬block ≤ history.counted.toOption.getD history.currentBlock :=
        fun hle => history.own_after ⟨block, hle, hown⟩
      exact ⟨block, by omega, hhigh, hown⟩
  split
  next honchain =>
    have hpos := List.count_pos_iff.mpr (hmem.mpr honchain)
    obtain ⟨block, hlow, hhigh, -⟩ := mem_queryFilter.mp (hmem.mpr honchain)
    have honce := history.own_once toBlock
    cases fromBlock with
    | zero => omega
    | succ middle =>
        rw [queryFilter_split (Nat.zero_le (middle + 1)) (by omega), List.count_append] at honce
        omega
  next habsent => exact List.count_eq_zero.mpr fun hown => habsent (hmem.mp hown)

/-- The events of a poll are those counted before the deposit, those not counted then, and the
deposit once it is on chain. -/
theorem length_queryFilter {n : Nat} {isValidRoot : Bool}
    (hpoll : history.polls n = .ok (isValidRoot, toBlock)) :
    (queryFilter history.blocks history.fromBlockNumber toBlock).length =
      history.getCommitmentsEventCount + history.uncounted toBlock +
        if OnChain history.blocks toBlock then 1 else 0 := by
  have hto := history.counted_le n isValidRoot toBlock hpoll
  cases hcounted : history.counted with
  | ok countedTo =>
      have hcurrent := history.currentBlock_le countedTo hcounted
      rw [hcounted] at hto
      have hfrom : history.fromBlockNumber ≤ countedTo + 1 := by
        unfold fromBlockNumber
        omega
      rw [queryFilter_split hfrom hto, List.length_append, getCommitmentsEventCount, uncounted,
        hcounted, length_eq_counts (queryFilter _ (countedTo + 1) _), history.count_own (by
          rw [hcounted]
          exact le_rfl)]
      dsimp only
      omega
  | error err =>
      rw [length_eq_counts, getCommitmentsEventCount, uncounted, hcounted, history.count_own (by
        rw [hcounted]
        exact (Nat.sub_le _ _).trans (Nat.le_succ _))]
      dsimp only
      omega

/-! ## When it waits for its own commitment -/

/-- The attempt sees a valid root when the own commitment is on chain. -/
def Ready (history : DepositHistory) (n : Nat) : Prop :=
  ∃ toBlock, history.polls n = .ok (true, toBlock) ∧ OnChain history.blocks toBlock

def Throws (history : DepositHistory) (n : Nat) : Prop := ∃ err, history.polls n = .error err

/-- The wait ends no sooner than the own commitment is on chain, and it resolves at the first
attempt that sees it with a valid root, unless an attempt throws before or the budget is spent. -/
structure AwaitsOwn (history : DepositHistory) (attempts : Nat)
    (settled : Except JsVal Bool × Probe) : Prop where
  only : (∃ value, settled.1 = .ok value) → ∃ isValidRoot toBlock,
    history.polls (checks settled.2.trace) = .ok (isValidRoot, toBlock) ∧
      OnChain history.blocks toBlock
  stops : firstAttempt history.Ready ≤ attempts →
    firstAttempt history.Ready < firstAttempt history.Throws →
      (∃ value, settled.1 = .ok value) ∧
        (checks settled.2.trace : ℕ∞) = firstAttempt history.Ready

/-- At the attempts with a valid root, up to the first one that is ready, the number of uncounted
commitments of others is not one as long as the own one is missing, and zero when it is there. -/
def CountsOwn (history : DepositHistory) (attempts : Nat) : Prop :=
  ∀ n : ℕ, 1 ≤ n → n ≤ attempts → (n : ℕ∞) < firstAttempt history.Throws →
    (n : ℕ∞) ≤ firstAttempt history.Ready → ∀ toBlock, history.polls n = .ok (true, toBlock) →
      if OnChain history.blocks toBlock then history.uncounted toBlock = 0
      else history.uncounted toBlock ≠ 1

/-- What the wait makes of its `n`-th attempt. -/
def outcome (history : DepositHistory) (n : Nat) : Except JsVal Bool :=
  (history.observed n).map fun seen =>
    seen.1 && seen.2 == history.getCommitmentsEventCount + 1

theorem waitForDepositsToComplete_eq (history : DepositHistory) (PARALLEL_WORKERS : Option String)
    (symbol : String) : history.waitForDepositsToComplete PARALLEL_WORKERS symbol =
      eventually PARALLEL_WORKERS
        (oracleOptions history.outcome (depositAttempts PARALLEL_WORKERS) none false)
        s!"Waiting for {history.getCommitmentsEventCount + 1} {symbol} deposits on Merkle Tree" := by
  unfold waitForDepositsToComplete waitForMerkleCommitments oracleOptions
  congr 2
  funext probe
  simp only [oracleCheck, outcome]
  cases history.observed (checks probe.trace + 1) <;> rfl

theorem matchesAt_outcome (n : Nat) : MatchesAt history.outcome n ↔
    ∃ toBlock, history.polls n = .ok (true, toBlock) ∧
      history.uncounted toBlock + (if OnChain history.blocks toBlock then 1 else 0) = 1 := by
  simp only [MatchesAt, outcome, observed]
  cases hpoll : history.polls n with
  | error err => simp [Except.map]
  | ok poll =>
      obtain ⟨isValidRoot, toBlock⟩ := poll
      have hlength := length_queryFilter hpoll
      simp only [Except.map, Except.ok.injEq, exists_eq_left', hlength, Prod.mk.injEq]
      constructor
      · intro htruthy
        obtain ⟨hvalid, hcount⟩ := Bool.and_eq_true_iff.mp htruthy
        exact ⟨toBlock, ⟨hvalid, rfl⟩, by have := beq_iff_eq.mp hcount; omega⟩
      · rintro ⟨_, ⟨rfl, rfl⟩, hcount⟩
        have hsame : history.getCommitmentsEventCount + history.uncounted toBlock +
            (if OnChain history.blocks toBlock then 1 else 0) =
              history.getCommitmentsEventCount + 1 := by omega
        exact Bool.and_eq_true_iff.mpr ⟨rfl, beq_iff_eq.mpr hsame⟩

theorem throwsAt_outcome : ThrowsAt history.outcome false = history.Throws := by
  funext n
  simp only [ThrowsAt, Throws, outcome, observed]
  cases history.polls n <;> simp [Except.map]

/-- A poll matches exactly when the deposit is ready, unless deposits that were not counted are
mistaken for it. -/
theorem hit_iff_ready (n : Nat) : (MatchesAt history.outcome n ↔ history.Ready n) ↔
    ∀ toBlock, history.polls n = .ok (true, toBlock) →
      if OnChain history.blocks toBlock then history.uncounted toBlock = 0
      else history.uncounted toBlock ≠ 1 := by
  rw [matchesAt_outcome]
  constructor
  · intro hiff toBlock hpoll
    simp only [Ready, hpoll, Except.ok.injEq, Prod.mk.injEq, true_and, exists_eq_left'] at hiff
    split at hiff
    next honchain =>
      rw [if_pos honchain]
      have := hiff.mpr honchain
      omega
    next habsent =>
      rw [if_neg habsent]
      exact fun hone => habsent (hiff.mp hone)
  · intro hcounts
    refine exists_congr fun toBlock => and_congr_right fun hpoll => ?_
    have hcount := hcounts toBlock hpoll
    split_ifs at hcount ⊢ with honchain
    · exact iff_of_true (by omega) honchain
    · exact iff_of_false (by omega) honchain

/-- A wait that resolves with its first truthy outcome waits for its own commitment exactly if it
counts that one alone. -/
theorem awaitsOwn_iff {attempts : Nat} {settled : Except JsVal Bool × Probe}
    (hresolves : (∃ value, settled.1 = .ok value) ↔
      firstAttempt (MatchesAt history.outcome) ≤ attempts ∧
        firstAttempt (MatchesAt history.outcome) < firstAttempt history.Throws)
    (hchecks : (∃ value, settled.1 = .ok value) →
      (checks settled.2.trace : ℕ∞) = firstAttempt (MatchesAt history.outcome)) :
    history.AwaitsOwn attempts settled ↔ history.CountsOwn attempts := by
  have hagree := firstAttempt_agree_iff (MatchesAt history.outcome) history.Ready
    (fun n => n ≤ attempts ∧ (n : ℕ∞) < firstAttempt history.Throws)
    fun m n hle hin => ⟨hle.trans hin.1, (Nat.cast_le.mpr hle).trans_lt hin.2⟩
  simp only [hit_iff_ready] at hagree
  refine Iff.trans ?_ (hagree.trans ?_)
  · constructor
    · rintro ⟨honly, hstops⟩
      constructor
      · rintro n hfirst ⟨hle, hlt⟩
        have hok := hresolves.mpr ⟨hfirst ▸ Nat.cast_le.mpr hle, hfirst ▸ hlt⟩
        obtain ⟨isValidRoot, toBlock, hpoll, honchain⟩ := honly hok
        obtain rfl : checks settled.2.trace = n :=
          Nat.cast_injective ((hchecks hok).trans hfirst)
        obtain ⟨other, hvalid, -⟩ := (matchesAt_outcome _).mp (firstAttempt_eq_iff.mp hfirst).2.1
        cases hpoll.symm.trans hvalid
        exact ⟨toBlock, hpoll, honchain⟩
      · rintro n hfirst ⟨hle, hlt⟩
        obtain ⟨hok, hcount⟩ := hstops (hfirst ▸ Nat.cast_le.mpr hle) (hfirst ▸ hlt)
        exact (hchecks hok).symm.trans (hcount.trans hfirst)
    · rintro ⟨honly, hstops⟩
      constructor
      · intro hok
        obtain ⟨hle, hlt⟩ := hresolves.mp hok
        obtain ⟨n, hfirst, hn, -, -⟩ := exists_of_firstAttempt_le hle
        obtain ⟨toBlock, hpoll, honchain⟩ := honly n hfirst ⟨hn, hfirst ▸ hlt⟩
        obtain rfl : checks settled.2.trace = n :=
          Nat.cast_injective ((hchecks hok).trans hfirst)
        exact ⟨true, toBlock, hpoll, honchain⟩
      · intro hle hlt
        obtain ⟨n, hfirst, hn, -, -⟩ := exists_of_firstAttempt_le hle
        have hhit := hstops n hfirst ⟨hn, hfirst ▸ hlt⟩
        have hok := hresolves.mpr ⟨hhit ▸ Nat.cast_le.mpr hn, hhit ▸ hfirst ▸ hlt⟩
        exact ⟨hok, (hchecks hok).trans (hhit.trans hfirst.symm)⟩
  · exact forall₂_congr fun n _ => and_imp

end DepositHistory

/-- Over every history, the wait of a deposit is for its own commitment exactly if the attempts
count that one alone. -/
theorem waitForDepositsToComplete_awaitsOwn_iff (PARALLEL_WORKERS : Option String)
    (symbol : String) (history : DepositHistory) (logger : Logger) :
    history.AwaitsOwn (depositAttempts PARALLEL_WORKERS)
        (history.waitForDepositsToComplete PARALLEL_WORKERS symbol ⟨[], logger⟩) ↔
      history.CountsOwn (depositAttempts PARALLEL_WORKERS) := by
  have hwait := eventually_resolves_iff PARALLEL_WORKERS history.outcome
    (depositAttempts PARALLEL_WORKERS) none false _ logger
    (congrFun (history.waitForDepositsToComplete_eq PARALLEL_WORKERS symbol).symm ⟨[], logger⟩)
  rw [DepositHistory.throwsAt_outcome] at hwait
  exact DepositHistory.awaitsOwn_iff hwait.1 hwait.2

/-- Another depositor's event comes in block 11, and the own one never. -/
def foreignBlocks : Blocks := fun block => if block = 11 then [.other] else []

theorem own_notMem_foreignBlocks (block : Nat) : .own ∉ foreignBlocks block := by
  unfold foreignBlocks
  split <;> simp

def foreignHistory : DepositHistory where
  blocks := foreignBlocks
  currentBlock := 10
  counted := .ok 10
  polls _ := .ok (true, 11)
  currentBlock_le countedTo hcounted := by
    cases hcounted
    exact le_rfl
  counted_le n isValidRoot toBlock hpoll := by
    cases hpoll
    decide
  own_once toBlock := by
    rw [List.count_eq_zero.mpr]
    · exact Nat.zero_le 1
    · rw [mem_queryFilter]
      rintro ⟨block, -, -, hown⟩
      exact own_notMem_foreignBlocks block hown
  own_after := fun ⟨block, _, hown⟩ => own_notMem_foreignBlocks block hown

/-- The wait resolves with that event. -/
theorem not_awaitsOwn_foreign :
    ¬foreignHistory.AwaitsOwn (depositAttempts none)
      (foreignHistory.waitForDepositsToComplete none "TOK" ⟨[], .new⟩) := by
  intro hawaits
  have hresolved : (foreignHistory.waitForDepositsToComplete none "TOK" ⟨[], .new⟩).1 =
      .ok true := by
    rw [DepositHistory.waitForDepositsToComplete_eq]
    exact (eventually_constant none _ (fun _ => rfl) (by decide) _ _ true).mpr ⟨rfl, rfl⟩
  obtain ⟨isValidRoot, toBlock, -, block, -, hown⟩ := hawaits.only ⟨true, hresolved⟩
  exact own_notMem_foreignBlocks block hown

end RaylsSuite.Tokens
