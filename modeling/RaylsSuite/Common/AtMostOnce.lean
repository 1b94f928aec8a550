import RaylsSuite.Common.Submit

/-! # How often a submitted operation is executed

A schedule says what each call of the factory does and what the chain makes of
the transaction it broadcast, if it broadcast one. Every call signs with the
next pending nonce, so the transactions of one run do not displace each other
and their fates are independent.
-/

namespace RaylsSuite.Common

open Entities

/-- What the chain finally makes of a broadcast transaction: it is mined, a copy
with the same nonce and payload but another fee is mined in its place, or
neither ever happens. -/
inductive Fate where
  | mined (status : Nat)
  | repriced (status : Nat)
  | dropped
deriving DecidableEq, Repr

/-- The operation took effect. -/
def Fate.executed (fate : Fate) : Bool := fate = .mined 1 ∨ fate = .repriced 1

def Fate.isMined : Fate → Bool
  | .mined _ => true
  | _ => false

/-- A broadcast transaction. The node delivers a receipt only for a transaction
that is mined, and with its status. -/
structure Broadcast where
  hash : String
  fate : Fate
  wait : Pending (Option Receipt)
  receipt_mined : ∀ receipt, wait.outcome = .ok (some receipt) →
    receipt.hash = hash ∧ fate = .mined receipt.status

/-- One call of the factory: it throws before the broadcast, throws after it, or
returns the response. -/
inductive FactoryCall where
  | rejected (err : JsError)
  | lost (err : JsError) (sent : Broadcast)
  | responded (sent : Broadcast)

namespace FactoryCall

def outcome : FactoryCall → Except JsError Response
  | .rejected err => .error err
  | .lost err _ => .error err
  | .responded sent => .ok ⟨sent.hash, sent.wait⟩

def fate? : FactoryCall → Option Fate
  | .rejected _ => none
  | .lost _ sent => some sent.fate
  | .responded sent => some sent.fate

/-- The operation of this call took effect. -/
def executed (call : FactoryCall) : Bool := call.fate?.any Fate.executed

/-- The transaction of this call itself is mined, with whatever status. -/
def mined (call : FactoryCall) : Bool := call.fate?.any Fate.isMined

/-- This call left no transaction that is or will be mined. -/
def dead (call : FactoryCall) : Bool := call.fate?.all (· = .dropped)

/-- This call's transaction is the one that the receipt belongs to. -/
def Delivers (call : FactoryCall) (receipt : Receipt) : Prop :=
  ∃ sent, call = .responded sent ∧ sent.wait.outcome = .ok (some receipt)

/-- The wait for this call's receipt ends in time with a receipt of status 1. -/
def Confirmed (call : FactoryCall) : Prop :=
  ∃ response receipt, call.outcome = .ok response ∧
    waitForReceipt response RECEIPT_TIMEOUT_MS = .ok (some receipt) ∧ receipt.status = 1

theorem not_executed_of_dead {call : FactoryCall} (hdead : call.dead = true) :
    call.executed = false := by
  cases call with
  | rejected err => rfl
  | lost err sent =>
      simp only [dead, fate?, Option.all_some, decide_eq_true_eq] at hdead
      simp [executed, fate?, hdead, Fate.executed]
  | responded sent =>
      simp only [dead, fate?, Option.all_some, decide_eq_true_eq] at hdead
      simp [executed, fate?, hdead, Fate.executed]

end FactoryCall

/-- A wait that resolves hands over what its transaction came to. -/
theorem waitForReceipt_ok {response : Response} {timeoutMs : Nat} {receipt : Option Receipt}
    (hwait : waitForReceipt response timeoutMs = .ok receipt) :
    response.wait.outcome = .ok receipt := by
  unfold waitForReceipt Pending.race at hwait
  split at hwait
  next =>
    split at hwait
    · exact hwait
    · cases hwait
  next => cases hwait

/-- A delivered receipt is that of a mined transaction. -/
theorem FactoryCall.Delivers.mined {call : FactoryCall} {receipt : Receipt}
    (hdelivers : call.Delivers receipt) : call.mined = true := by
  obtain ⟨sent, rfl, hreceipt⟩ := hdelivers
  obtain ⟨_, hfate⟩ := sent.receipt_mined receipt hreceipt
  simp [FactoryCall.mined, FactoryCall.fate?, hfate, Fate.isMined]

/-! ## A client session -/

structure Session where
  calls : Nat
  clock : Nat
  logger : Logger

instance : Host Session where
  delay ms session := { session with clock := session.clock + ms }
  logger := Session.logger
  setLogger logger session := { session with logger := logger }

def Session.start : Session := ⟨0, 0, Logger.new⟩

/-- The factory that follows the schedule. -/
def factory (schedule : Nat → FactoryCall) : Async Session JsError Response :=
  fun session => ((schedule session.calls).outcome, { session with calls := session.calls + 1 })

variable (schedule : Nat → FactoryCall)

theorem factory_oracle :
    Oracle (factory schedule) Session.calls (fun n => (schedule n).outcome) :=
  ⟨fun _ => rfl, fun _ => rfl⟩

theorem txRetry_quiet : (txRetry (σ := Session)).Quiet Session.calls := fun _ _ _ => rfl

/-! ## submitTx -/

/-- How many calls of the factory `submitTx` makes. -/
def submitCalls (message : String) : Nat :=
  (submitTx (factory schedule) message Session.start).2.calls

def submitResult (message : String) : Except JsError Receipt :=
  (submitTx (factory schedule) message Session.start).1

/-- At most one of the operations submitted by one call takes effect, and a
returned receipt belongs to the only transaction that is mined. -/
structure SubmittedOnce (message : String) : Prop where
  at_most_once : ∀ m < submitCalls schedule message, ∀ n < submitCalls schedule message,
    (schedule m).executed → (schedule n).executed → m = n
  receipt_of_only : ∀ receipt, submitResult schedule message = .ok receipt →
    ∃ n < submitCalls schedule message, (schedule n).Delivers receipt ∧
      ∀ m < submitCalls schedule message, (schedule m).mined ↔ m = n

/-- Call `n` is made: every call before it is given up on. -/
def Reached (n : Nat) : Prop := ∀ m < n, GivenUp (fun m => (schedule m).outcome) m

/-- No call that `submitTx` gives up on has a transaction that is mined, or that takes
effect as a repriced copy. -/
def AbandonedUnmined : Prop :=
  ∀ n, Reached schedule n → GivenUp (fun m => (schedule m).outcome) n →
    (schedule n).mined = false ∧ (schedule n).executed = false

variable {schedule}

/-- A call whose outcome is accepted delivers the receipt that is returned. -/
theorem delivers_of_submitOutcome {message : String} {call : FactoryCall} {receipt : Receipt}
    (hok : submitOutcome message call.outcome = .ok receipt) : call.Delivers receipt := by
  obtain ⟨response, houtcome, hwait, _⟩ := submitOutcome_eq_ok.mp hok
  cases call with
  | rejected err => cases houtcome
  | lost err sent => cases houtcome
  | responded sent =>
      cases houtcome
      exact ⟨sent, rfl, waitForReceipt_ok hwait⟩

/-- The calls that `submitTx` makes are the reached ones, and the last of them
decides the result. -/
theorem submitCalls_spec (schedule : Nat → FactoryCall) (message : String) :
    ∃ last, submitCalls schedule message = last + 1 ∧
      (∀ n, n < submitCalls schedule message ↔ Reached schedule n) ∧
      submitResult schedule message = submitOutcome message (schedule last).outcome := by
  obtain ⟨last, hgivenUp, hstop, hcalls, hresult⟩ := submitTx_trace (factory_oracle schedule)
    txRetry_quiet (fun _ _ => rfl) message Session.start rfl
  refine ⟨last, hcalls, fun n => ?_, hresult⟩
  rw [submitCalls, hcalls]
  constructor
  · exact fun hn m hm => hgivenUp m (by omega)
  · intro hreached
    by_contra hn
    exact hstop (hreached last (by omega))

theorem not_givenUp_of_confirmed {n : Nat} (hconfirmed : (schedule n).Confirmed) :
    ¬ GivenUp (fun m => (schedule m).outcome) n := by
  obtain ⟨response, receipt, houtcome, hwait, _⟩ := hconfirmed
  exact not_givenUp_of_waited houtcome hwait

/-- A confirmed transaction is mined and takes effect. -/
theorem FactoryCall.Confirmed.executed {call : FactoryCall} (hconfirmed : call.Confirmed) :
    call.mined = true ∧ call.executed = true := by
  obtain ⟨response, receipt, houtcome, hwait, hstatus⟩ := hconfirmed
  cases call with
  | rejected err => cases houtcome
  | lost err sent => cases houtcome
  | responded sent =>
      cases houtcome
      obtain ⟨_, hfate⟩ := sent.receipt_mined receipt (waitForReceipt_ok hwait)
      rw [hstatus] at hfate
      simp [FactoryCall.mined, FactoryCall.executed, FactoryCall.fate?, hfate, Fate.isMined,
        Fate.executed]

/-- If the transactions that are given up on stay unmined, only the last call can take
effect, and only its transaction can be mined. -/
theorem AbandonedUnmined.submittedOnce (habandoned : AbandonedUnmined schedule)
    (message : String) : SubmittedOnce schedule message := by
  obtain ⟨last, hcalls, hreached, hresult⟩ := submitCalls_spec schedule message
  have hlast : last < submitCalls schedule message := hcalls ▸ Nat.lt_succ_self last
  have hbefore : ∀ m, m < last → (schedule m).mined = false ∧ (schedule m).executed = false := by
    intro m hm
    apply habandoned m ((hreached m).mp (hm.trans hlast))
    exact (hreached last).mp hlast m hm
  have hexecuted : ∀ m < submitCalls schedule message, (schedule m).executed → m = last := by
    intro m hm hm'
    by_contra hne
    rw [(hbefore m (by omega)).2] at hm'
    cases hm'
  refine ⟨fun m hm n hn hm' hn' => ?_, fun receipt hok => ?_⟩
  · rw [hexecuted m hm hm', hexecuted n hn hn']
  · have hdelivers := delivers_of_submitOutcome (hresult.symm.trans hok)
    refine ⟨last, hlast, hdelivers, fun m hm => ⟨?_, ?_⟩⟩
    · intro hmined
      by_contra hne
      rw [(hbefore m (by omega)).1] at hmined
      cases hmined
    · intro heq
      exact heq ▸ hdelivers.mined

/-- A confirmed call is the last one, and its receipt is the one returned. -/
theorem submitResult_of_confirmed {n : Nat} (message : String) (hreached : Reached schedule n)
    (hconfirmed : (schedule n).Confirmed) :
    submitCalls schedule message = n + 1 ∧
      ∃ receipt, submitResult schedule message = .ok receipt := by
  obtain ⟨last, hcalls, hcall, hresult⟩ := submitCalls_spec schedule message
  have hle : n ≤ last := by
    have hn := (hcall n).mpr hreached
    omega
  have hlast : n = last := by
    by_contra hne
    exact not_givenUp_of_confirmed hconfirmed ((hcall last).mp (by omega) n (by omega))
  subst hlast
  obtain ⟨response, receipt, haccepted⟩ := hconfirmed
  exact ⟨hcalls, receipt, hresult.trans (submitOutcome_eq_ok.mpr ⟨response, haccepted⟩)⟩

/-- Where a call is confirmed, the property holds only if the calls before it left no
transaction that is mined or takes effect. -/
theorem SubmittedOnce.abandonedUnmined {message : String}
    (honce : SubmittedOnce schedule message) {n : Nat} (hreached : Reached schedule n)
    (hconfirmed : (schedule n).Confirmed) : AbandonedUnmined schedule := by
  obtain ⟨last, hlast, hcalled, _⟩ := submitCalls_spec schedule message
  obtain ⟨hcalls, receipt, hok⟩ := submitResult_of_confirmed message hreached hconfirmed
  obtain ⟨only, _, _, honly⟩ := honce.receipt_of_only receipt hok
  have hn : n < submitCalls schedule message := hcalls ▸ Nat.lt_succ_self n
  have hmined_n : n = only := (honly n hn).mp hconfirmed.executed.1
  intro m hm hgivenUp
  -- a call that is given up on is followed by another one, so it comes before `n`
  have hmn : m < n := by
    have hnext : m + 1 < submitCalls schedule message := by
      apply (hcalled (m + 1)).mpr
      intro k hk
      rcases Nat.lt_succ_iff_lt_or_eq.mp hk with hlt | heq
      · exact hm k hlt
      · exact heq ▸ hgivenUp
    omega
  constructor
  · apply Bool.eq_false_iff.mpr
    intro hmined
    exact hmn.ne (((honly m (hmn.trans hn)).mp hmined).trans hmined_n.symm)
  · apply Bool.eq_false_iff.mpr
    intro hexecuted
    exact hmn.ne (honce.at_most_once m (hmn.trans hn) n hn hexecuted hconfirmed.executed.2)

/-- `submitTx` takes effect at most once and returns the receipt of the only mined
transaction if the transactions it gives up on stay unmined, and where one of its calls
is confirmed only then. -/
theorem abandonedUnmined_submittedOnce (schedule : Nat → FactoryCall) (message : String) :
    (AbandonedUnmined schedule → SubmittedOnce schedule message) ∧
      ((∃ n, Reached schedule n ∧ (schedule n).Confirmed) →
        (SubmittedOnce schedule message ↔ AbandonedUnmined schedule)) := by
  refine ⟨fun habandoned => habandoned.submittedOnce message, ?_⟩
  intro hreturns
  obtain ⟨n, hreached, hconfirmed⟩ := hreturns
  exact ⟨fun honce => honce.abandonedUnmined hreached hconfirmed,
    fun habandoned => habandoned.submittedOnce message⟩

/-- A transaction that is mined with status 1 and whose receipt comes after `ms`. -/
def minedAfter (hash : String) (ms : Nat) : Broadcast where
  hash := hash
  fate := .mined 1
  wait := ⟨some ms, .ok (some ⟨hash, 1⟩)⟩
  receipt_mined := by rintro receipt h; cases h; exact ⟨rfl, rfl⟩

/-- The first transaction is mined five seconds after the receipt timeout, the
second one in time. -/
def slowThenFast : Nat → FactoryCall
  | 0 => .responded (minedAfter "0xa0" 20000)
  | _ => .responded (minedAfter "0xa1" 1000)

theorem not_submittedOnce_slowThenFast : ¬ SubmittedOnce slowThenFast "mint" := by
  intro honce
  have hcalls : submitCalls slowThenFast "mint" = 2 := by rfl
  have heq := honce.at_most_once 0 (by rw [hcalls]; decide) 1 (by rw [hcalls]; decide)
    (by decide) (by decide)
  exact absurd heq (by decide)

/-! ## sendTx -/

/-- How many calls of the factory `sendTx` makes. -/
def sendCalls (schedule : Nat → FactoryCall) : Nat :=
  (sendTx (factory schedule) Session.start).2.calls

/-- The operation takes effect at most once, and the factory is called again only
when the transaction of the call before was not mined and cannot be any more. -/
structure SentOnce (schedule : Nat → FactoryCall) : Prop where
  at_most_once : ∀ m < sendCalls schedule, ∀ n < sendCalls schedule,
    (schedule m).executed → (schedule n).executed → m = n
  recalled_after_dead : ∀ n, n + 1 < sendCalls schedule → (schedule n).dead

/-- The attempt fails, in the factory or in the wait, with an error that is
classified as a nonce error or as a transient RPC error. -/
def FactoryCall.FailsRetryably (call : FactoryCall) : Prop :=
  ∃ err, sendOutcome call.outcome = .error err ∧ isRetryable err = true

/-- The failures that `sendTx` retries although a transaction of the call is mined or
still can be. -/
inductive FactoryCall.Survives : FactoryCall → Prop where
  /-- The factory throws after the broadcast, such as "already known". -/
  | afterBroadcast (err : JsError) (sent : Broadcast) (hretryable : isRetryable err = true)
      (hlive : sent.fate ≠ .dropped) : Survives (.lost err sent)
  /-- The wait reports a replacement, but the transaction or a repriced copy is mined. -/
  | replaced (err : JsError) (sent : Broadcast)
      (hwait : waitForReceipt ⟨sent.hash, sent.wait⟩ RECEIPT_TIMEOUT_MS = .error err)
      (hnonce : isNonceError err = true) (hlive : sent.fate ≠ .dropped) :
      Survives (.responded sent)
  /-- The node answers the wait with a bad result, but the transaction is not gone. -/
  | unanswered (err : JsError) (sent : Broadcast)
      (hwait : waitForReceipt ⟨sent.hash, sent.wait⟩ RECEIPT_TIMEOUT_MS = .error err)
      (htransient : isTransientRpcError err = true) (hlive : sent.fate ≠ .dropped) :
      Survives (.responded sent)

/-- None of the first four calls survives its failure, as far as the calls before it
fail retryably. -/
def NoneSurvives (schedule : Nat → FactoryCall) : Prop :=
  ∀ n < 4, (∀ m < n, (schedule m).FailsRetryably) → ¬ (schedule n).Survives

/-- A retryable failure leaves a transaction that is mined or still can be exactly if it
is one of the three named kinds: an error before the broadcast is harmless. -/
theorem FactoryCall.survives_iff (call : FactoryCall) :
    call.Survives ↔ call.FailsRetryably ∧ call.dead = false := by
  constructor
  · intro hsurvives
    cases hsurvives with
    | afterBroadcast err sent hretryable hlive =>
        exact ⟨⟨err, rfl, hretryable⟩, by simpa [FactoryCall.dead, FactoryCall.fate?] using hlive⟩
    | replaced err sent hwait hnonce hlive =>
        refine ⟨⟨err, hwait, ?_⟩, by simpa [FactoryCall.dead, FactoryCall.fate?] using hlive⟩
        rw [isRetryable, hnonce, Bool.true_or]
    | unanswered err sent hwait htransient hlive =>
        refine ⟨⟨err, hwait, ?_⟩, by simpa [FactoryCall.dead, FactoryCall.fate?] using hlive⟩
        rw [isRetryable, htransient, Bool.or_true]
  · intro hfailure
    obtain ⟨⟨err, herr, hretryable⟩, hlive⟩ := hfailure
    cases call with
    | rejected err' => cases hlive
    | lost err' sent =>
        cases herr
        apply FactoryCall.Survives.afterBroadcast err sent hretryable
        simpa [FactoryCall.dead, FactoryCall.fate?] using hlive
    | responded sent =>
        have hfate : sent.fate ≠ .dropped := by
          simpa [FactoryCall.dead, FactoryCall.fate?] using hlive
        rcases Bool.or_eq_true_iff.mp hretryable with hnonce | htransient
        · exact .replaced err sent herr hnonce hfate
        · exact .unanswered err sent herr htransient hfate

/-- There is a further call exactly if all calls so far failed in a way that is retried. -/
theorem sendCalls_gt_iff (schedule : Nat → FactoryCall) (n : Nat) :
    n + 1 < sendCalls schedule ↔ n < 4 ∧ ∀ m ≤ n, (schedule m).FailsRetryably := by
  obtain ⟨k, htrace⟩ := sendTx_trace (factory_oracle schedule) txRetry_quiet Session.start
  have hfails_iff : ∀ m, (txRetry (σ := Session)).Retries
      (sendOutcome (schedule (Session.start.calls + m)).outcome) ↔ (schedule m).FailsRetryably := by
    intro m
    rw [show Session.start.calls + m = m from Nat.zero_add m]
    exact txRetry_retries_iff _
  have hcalls : sendCalls schedule = k + 1 :=
    htrace.calls_eq.trans (congrArg Nat.succ (Nat.zero_add k))
  have hlimit := htrace.lt_limit
  rw [hcalls]
  constructor
  · exact fun hn => ⟨by omega, fun m hm => (hfails_iff m).mp (htrace.retried m (by omega))⟩
  · intro hlaw
    obtain ⟨hn, hfails⟩ := hlaw
    by_contra hk
    have hstop := htrace.stopped ((hfails_iff k).mpr (hfails k (by omega)))
    omega

/-- `sendTx` executes its operation at most once and calls its factory again only
past a dead transaction exactly when no call fails retryably after its broadcast with a
transaction that survives. -/
theorem sentOnce_iff (schedule : Nat → FactoryCall) :
    SentOnce schedule ↔ NoneSurvives schedule := by
  constructor
  · intro honce n hn hbefore hsurvives
    obtain ⟨hfails, hlive⟩ := (schedule n).survives_iff.mp hsurvives
    have hrecalled : n + 1 < sendCalls schedule := by
      apply (sendCalls_gt_iff schedule n).mpr
      refine ⟨hn, fun m hm => ?_⟩
      rcases Nat.lt_or_eq_of_le hm with hlt | heq
      · exact hbefore m hlt
      · exact heq ▸ hfails
    rw [honce.recalled_after_dead n hrecalled] at hlive
    cases hlive
  · intro hnone
    have hrecalled : ∀ n, n + 1 < sendCalls schedule → (schedule n).dead := by
      intro n hn
      obtain ⟨hlimit, hfails⟩ := (sendCalls_gt_iff schedule n).mp hn
      by_contra hlive
      apply hnone n hlimit fun m hm => hfails m hm.le
      exact (schedule n).survives_iff.mpr ⟨hfails n le_rfl, Bool.eq_false_iff.mpr hlive⟩
    have hbefore : ∀ m n, m < n → n < sendCalls schedule → (schedule m).executed = false :=
      fun m n hmn hn => FactoryCall.not_executed_of_dead (hrecalled m (by omega))
    refine ⟨fun m hm n hn hm' hn' => ?_, hrecalled⟩
    rcases Nat.lt_trichotomy m n with hlt | heq | hgt
    · rw [hbefore m n hlt hn] at hm'; cases hm'
    · exact heq
    · rw [hbefore n m hgt hm] at hn'; cases hn'

/-- A transaction whose repriced copy is mined with status 1; `wait` reports the
replacement after a second. -/
def repricedAfter (hash : String) : Broadcast where
  hash := hash
  fate := .repriced 1
  wait := ⟨some 1000, .error (JsError.coded "TRANSACTION_REPLACED" "transaction was replaced")⟩
  receipt_mined := by rintro receipt h; cases h

/-- The first transaction is repriced and mined, the second one is mined too. -/
def repricedThenMined : Nat → FactoryCall
  | 0 => .responded (repricedAfter "0xb0")
  | _ => .responded (minedAfter "0xb1" 1000)

theorem not_sentOnce_repricedThenMined : ¬ SentOnce repricedThenMined := by
  intro honce
  have hcalls : sendCalls repricedThenMined = 2 := by rfl
  exact absurd (honce.at_most_once 0 (by rw [hcalls]; decide) 1 (by rw [hcalls]; decide)
    (by decide) (by decide)) (by decide)

end RaylsSuite.Common
