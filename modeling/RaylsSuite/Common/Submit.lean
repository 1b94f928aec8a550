import RaylsSuite.Common.BlockChainExceptions
import RaylsSuite.Common.Retry

/-! # Sending a transaction and waiting for its receipt

Both helpers take a factory, so that each new attempt signs a fresh
transaction. `sendTx` retries the broadcast together with the wait, `submitTx`
retries the factory alone and resubmits when the receipt does not come.
-/

namespace RaylsSuite.Common

structure Receipt where
  hash : String
  status : Nat
deriving DecidableEq, Repr

/-- A pending promise: when it settles, in milliseconds from now if ever, and how. -/
structure Pending (α : Type) where
  settlesAt : Option Nat
  outcome : Except JsError α

/-- `Promise.race` of a promise against a timer that rejects; when both settle at once,
the promise, which comes first in the list, wins. -/
def Pending.race {α : Type} (promise : Pending α) (timeoutMs : Nat) (timeout : JsError) :
    Except JsError α :=
  match promise.settlesAt with
  | some ms => if ms ≤ timeoutMs then promise.outcome else .error timeout
  | none => .error timeout

/-- The response of a broadcast; a null receipt is `none`. -/
structure Response where
  hash : String
  wait : Pending (Option Receipt)

def RECEIPT_TIMEOUT_MS : Nat := 15000

def waitForReceipt (response : Response) (timeoutMs : Nat) : Except JsError (Option Receipt) :=
  response.wait.race timeoutMs (receiptTimeoutError response.hash timeoutMs)

variable {σ : Type} [Host σ]

/-- The options of both helpers; their `onRetry` only prints. -/
def txRetry : RetryOptions σ JsError :=
  { attempts := 5, delayMs := 500, retryIf := some isRetryable }

/-- The unit that `sendTx` retries: broadcast and wait. -/
def sendAndWait (txFactory : Async σ JsError Response) : Async σ JsError (Option Receipt) :=
  fun world =>
    match txFactory world with
    | (.ok response, world) => (waitForReceipt response RECEIPT_TIMEOUT_MS, world)
    | (.error err, world) => (.error err, world)

def sendTx (txFactory : Async σ JsError Response) : Async σ JsError (Option Receipt) :=
  retry (sendAndWait txFactory) txRetry

def maxDisplacedRetries : Nat := 5

/-- The loop of `submitTx` at `attempt`, with `left` attempts still to make. Its
value is the variable `receipt` after the loop. -/
def submitLoop (txFactory : Async σ JsError Response) :
    Nat → Nat → Async σ JsError (Option Receipt)
  | 0, _ => fun world => (.ok none, world)
  | left + 1, attempt => fun world =>
      -- an error of the factory is thrown past the handlers of the wait
      match retry txFactory txRetry world with
      | (.error err, world) => (.error err, world)
      | (.ok response, world) =>
          match waitForReceipt response RECEIPT_TIMEOUT_MS with
          | .ok receipt => (.ok receipt, world)
          | .error err =>
              let canRetry := decide (attempt < maxDisplacedRetries)
              if err.instanceOf = .receiptTimeoutError && canRetry then
                submitLoop txFactory left (attempt + 1) world
              else if err.code = some "TRANSACTION_REPLACED" && canRetry then
                submitLoop txFactory left (attempt + 1) world
              else (.error err, world)

def noReceiptError (message : String) : JsError :=
  JsError.new ("No receipt after displaced retries: " ++ message)

/-- How chai shows a number: a zero has its sign. -/
def inspectNumber (number : Nat) : String := if number = 0 then "+0" else toString number

/-- chai's error of `expect(receipt.status).to.be.equal(1)`. -/
def statusAssertionError (status : Nat) : JsError :=
  ⟨.assertionError, some s!"expected {inspectNumber status} to equal 1", none, none⟩

/-- What `submitTx` makes of the receipt variable once the loop has ended. -/
def acceptReceipt (message : String) : Option Receipt → Except JsError Receipt
  | none => .error (noReceiptError message)
  | some receipt =>
      if receipt.status = 1 then .ok receipt else .error (statusAssertionError receipt.status)

def submitTx (txFactory : Async σ JsError Response) (message : String) :
    Async σ JsError Receipt := fun world =>
  let (loadId, logger) := (Host.logger world).load message
  match submitLoop txFactory maxDisplacedRetries 1 (Host.setLogger logger world) with
  | (.error err, world) => (.error err, world)
  | (.ok receipt, world) =>
      match acceptReceipt message receipt with
      | .error err => (.error err, world)
      | .ok receipt =>
          (.ok receipt, Host.setLogger ((Host.logger world).loadSuccess loadId) world)

/-! ## The calls of `sendTx` -/

/-- What one attempt of `sendTx` makes of the factory's outcome. -/
def sendOutcome : Except JsError Response → Except JsError (Option Receipt)
  | .ok response => waitForReceipt response RECEIPT_TIMEOUT_MS
  | .error err => .error err

omit [Host σ] in
/-- A send follows the outcomes of its factory's calls. -/
theorem sendAndWait_oracle {txFactory : Async σ JsError Response} {calls : σ → Nat}
    {outcome : Nat → Except JsError Response} (horacle : Oracle txFactory calls outcome) :
    Oracle (sendAndWait txFactory) calls (fun n => sendOutcome (outcome n)) := by
  constructor <;> intro world
  · rw [← horacle.outcome_eq world, sendAndWait]
    rcases txFactory world with ⟨err | response, next⟩ <;> rfl
  · rw [← horacle.calls_eq world, sendAndWait]
    rcases txFactory world with ⟨err | response, next⟩ <;> rfl

omit [Host σ] in
theorem txRetry_retries_iff {α : Type} (outcome : Except JsError α) :
    (txRetry (σ := σ)).Retries outcome ↔
      ∃ err, outcome = .error err ∧ isRetryable err = true := by
  simp only [RetryOptions.Retries, RetryOptions.refuses, txRetry, Bool.not_eq_false']

/-- `sendTx` calls its factory up to the first attempt whose error is not
retryable or that resolves, five times at most. -/
theorem sendTx_trace {txFactory : Async σ JsError Response} {calls : σ → Nat}
    {outcome : Nat → Except JsError Response} (horacle : Oracle txFactory calls outcome)
    (hquiet : (txRetry (σ := σ)).Quiet calls) (world : σ) :
    ∃ k, RetryTrace (txRetry (σ := σ)) calls (fun n => sendOutcome (outcome n)) (calls world) k 5
      (sendTx txFactory world) :=
  retry_trace txRetry (sendAndWait_oracle horacle) hquiet (Nat.succ_pos 4) world

/-! ## The calls of `submitTx`

The two nested loops are flattened into one sequence of factory calls. A call
is given up on when the code goes on to another call after it.
-/

section Trace

variable (outcome : Nat → Except JsError Response)

/-- How many calls directly before call `n` threw. -/
def trailingThrows : Nat → Nat
  | 0 => 0
  | n + 1 =>
      match outcome n with
      | .error _ => trailingThrows n + 1
      | .ok _ => 0

/-- How many calls before call `n` returned a response. -/
def responses : Nat → Nat
  | 0 => 0
  | n + 1 =>
      match outcome n with
      | .error _ => responses n
      | .ok _ => responses n + 1

/-- The wait ended with a receipt timeout or with a replaced transaction. -/
def Displaced (response : Response) : Prop :=
  ∃ err, waitForReceipt response RECEIPT_TIMEOUT_MS = .error err ∧
    (err.instanceOf = .receiptTimeoutError ∨ err.code = some "TRANSACTION_REPLACED")

/-- Call `n` threw a retryable error, not the fifth in a row, or its response was
displaced, not the fifth response. -/
def GivenUp (n : Nat) : Prop :=
  match outcome n with
  | .error err => isRetryable err = true ∧ trailingThrows outcome n < 4
  | .ok response => Displaced response ∧ responses outcome n < 4

variable {outcome} in
/-- A call whose response has been waited for is the last one. -/
theorem not_givenUp_of_waited {n : Nat} {response : Response} {receipt : Option Receipt}
    (houtcome : outcome n = .ok response)
    (hwait : waitForReceipt response RECEIPT_TIMEOUT_MS = .ok receipt) : ¬GivenUp outcome n := by
  simp only [GivenUp, houtcome]
  rintro ⟨⟨err, herr, _⟩, _⟩
  rw [hwait] at herr
  cases herr

/-- The result that the last call of `submitTx` leads to. -/
def submitOutcome (message : String) : Except JsError Response → Except JsError Receipt
  | .error err => .error err
  | .ok response =>
      match waitForReceipt response RECEIPT_TIMEOUT_MS with
      | .error err => .error err
      | .ok receipt => acceptReceipt message receipt

/-- A call's outcome is accepted exactly if its wait gave a receipt with status 1. -/
theorem submitOutcome_eq_ok {message : String} {outcome : Except JsError Response}
    {receipt : Receipt} :
    submitOutcome message outcome = .ok receipt ↔
      ∃ response, outcome = .ok response ∧
        waitForReceipt response RECEIPT_TIMEOUT_MS = .ok (some receipt) ∧ receipt.status = 1 := by
  cases outcome with
  | error err => simp [submitOutcome]
  | ok response =>
      cases hwait : waitForReceipt response RECEIPT_TIMEOUT_MS with
      | error err => simp [submitOutcome, hwait]
      | ok received =>
          cases received with
          | none => simp [submitOutcome, hwait, acceptReceipt]
          | some received =>
              by_cases hstatus : received.status = 1
              · simp only [submitOutcome, hwait, acceptReceipt, hstatus, if_true,
                  Except.ok.injEq, Option.some.injEq, exists_eq_left']
                constructor
                · rintro rfl; exact ⟨rfl, hstatus⟩
                · exact fun h => h.1
              · simp only [submitOutcome, hwait, acceptReceipt, hstatus, if_false, reduceCtorEq,
                  Except.ok.injEq, Option.some.injEq, exists_eq_left', false_iff, not_and]
                rintro rfl; exact hstatus

variable {outcome}

theorem trailingThrows_add {n : Nat} (hstart : trailingThrows outcome n = 0) {k : Nat}
    (hthrows : ∀ j < k, ∃ err, outcome (n + j) = .error err) :
    trailingThrows outcome (n + k) = k ∧ responses outcome (n + k) = responses outcome n := by
  induction k with
  | zero => exact ⟨hstart, rfl⟩
  | succ k ih =>
      obtain ⟨hthrown, hcount⟩ := ih fun j hj => hthrows j (Nat.lt_succ_of_lt hj)
      obtain ⟨err, herr⟩ := hthrows k (Nat.lt_succ_self k)
      rw [← Nat.add_assoc]
      simp only [trailingThrows, responses, herr, hthrown, hcount, and_self]

/-- The flattened trace from call `first` on, as left by the loop of `submitTx`. -/
structure SubmitTrace (outcome : Nat → Except JsError Response) (calls : σ → Nat) (first last : Nat)
    (settled : Except JsError (Option Receipt) × σ) : Prop where
  first_le : first ≤ last
  givenUp : ∀ n, first ≤ n → n < last → GivenUp outcome n
  not_givenUp : ¬ GivenUp outcome last
  calls_eq : calls settled.2 = last + 1
  outcome_eq : settled.1 = sendOutcome (outcome last)

section Step

variable {txFactory : Async σ JsError Response} {world next : σ} (left attempt : Nat)

theorem submitLoop_factoryError {err : JsError}
    (hretry : retry txFactory txRetry world = (.error err, next)) :
    submitLoop txFactory (left + 1) attempt world = (.error err, next) := by
  simp only [submitLoop, hretry]

/-- A displaced transaction leads to the next attempt. -/
theorem submitLoop_resubmit {response : Response} (hdisplaced : Displaced response)
    (hattempt : attempt < maxDisplacedRetries)
    (hretry : retry txFactory txRetry world = (.ok response, next)) :
    submitLoop txFactory (left + 1) attempt world =
      submitLoop txFactory left (attempt + 1) next := by
  obtain ⟨err, herr, hreason⟩ := hdisplaced
  simp only [submitLoop, hretry, herr, hattempt, decide_true, Bool.and_true, decide_eq_true_eq]
  rcases hreason with hreason | hreason <;> simp [hreason]

/-- Any other wait ends the loop. -/
theorem submitLoop_settled {response : Response}
    (hkept : ¬ (Displaced response ∧ attempt < maxDisplacedRetries))
    (hretry : retry txFactory txRetry world = (.ok response, next)) :
    submitLoop txFactory (left + 1) attempt world =
      (waitForReceipt response RECEIPT_TIMEOUT_MS, next) := by
  simp only [submitLoop, hretry]
  cases hwait : waitForReceipt response RECEIPT_TIMEOUT_MS with
  | ok receipt => rfl
  | error err =>
      by_cases hattempt : attempt < maxDisplacedRetries
      · obtain ⟨htimeout, hreplaced⟩ := not_or.mp fun h => hkept ⟨⟨err, hwait, h⟩, hattempt⟩
        simp [htimeout, hreplaced]
      · simp [hattempt]

end Step

/-- One round of the outer loop: the factory's calls up to `last`, after which
the loop either ends there or goes on with the next round. -/
theorem submitLoop_round {txFactory : Async σ JsError Response} {calls : σ → Nat}
    (horacle : Oracle txFactory calls outcome) (hquiet : (txRetry (σ := σ)).Quiet calls)
    (left attempt : Nat) (world : σ)
    (hthrows : trailingThrows outcome (calls world) = 0)
    (hresponses : responses outcome (calls world) + 1 = attempt) :
    ∃ last, calls world ≤ last ∧ (∀ n, calls world ≤ n → n < last → GivenUp outcome n) ∧
      (SubmitTrace outcome calls (calls world) last
          (submitLoop txFactory (left + 1) attempt world) ∨
        GivenUp outcome last ∧ attempt < maxDisplacedRetries ∧
          ∃ next, calls next = last + 1 ∧ trailingThrows outcome (last + 1) = 0 ∧
            responses outcome (last + 1) = attempt ∧
            submitLoop txFactory (left + 1) attempt world =
              submitLoop txFactory left (attempt + 1) next) := by
  obtain ⟨k, htrace⟩ := retry_trace txRetry horacle hquiet (Nat.succ_pos 4) world
  have hlimit : k < 5 := htrace.lt_limit
  have hretried : ∀ j < k, ∃ err, outcome (calls world + j) = .error err ∧
      isRetryable err = true := fun j hj => (txRetry_retries_iff _).mp (htrace.retried j hj)
  have hcounts : ∀ j ≤ k, trailingThrows outcome (calls world + j) = j ∧
      responses outcome (calls world + j) = responses outcome (calls world) := fun j hj =>
    trailingThrows_add hthrows fun i hi =>
      (hretried i (Nat.lt_of_lt_of_le hi hj)).imp fun _ herr => herr.1
  have hbefore : ∀ n, calls world ≤ n → n < calls world + k → GivenUp outcome n := by
    intro n hfirst hlast
    obtain ⟨j, rfl⟩ := Nat.exists_eq_add_of_le hfirst
    have hj : j < k := Nat.lt_of_add_lt_add_left hlast
    obtain ⟨err, herr, hretryable⟩ := hretried j hj
    simp only [GivenUp, herr, (hcounts j hj.le).1]
    exact ⟨hretryable, by omega⟩
  refine ⟨calls world + k, Nat.le_add_right _ _, hbefore, ?_⟩
  obtain ⟨hthrown, hcount⟩ := hcounts k (Nat.le_refl k)
  have hresult := htrace.outcome_eq
  have hcalls := htrace.calls_eq
  have hstopped := htrace.stopped
  rcases hretry : retry txFactory txRetry world with ⟨result, next⟩
  rw [hretry] at hresult hcalls
  cases hlast : outcome (calls world + k) with
  | error err =>
      -- the inner loop threw, and the outer loop has no handler for that
      rw [hlast] at hresult
      subst hresult
      have hstop : ¬ GivenUp outcome (calls world + k) := by
        simp only [GivenUp, hlast, hthrown]
        intro hgivenUp
        obtain ⟨hretryable, hfew⟩ := hgivenUp
        rw [hlast] at hstopped
        have hlimit' := hstopped ((txRetry_retries_iff _).mpr ⟨err, rfl, hretryable⟩)
        change k + 1 = 5 at hlimit'
        omega
      refine .inl ⟨Nat.le_add_right _ _, hbefore, hstop, ?_, ?_⟩
      · rw [submitLoop_factoryError left attempt hretry]
        exact hcalls
      · rw [submitLoop_factoryError left attempt hretry, hlast]
        rfl
  | ok response =>
      -- the number of responses so far is the number of the round
      rw [hlast] at hresult
      subst hresult
      have hgivenUp : GivenUp outcome (calls world + k) ↔
          Displaced response ∧ attempt < maxDisplacedRetries := by
        simp only [GivenUp, hlast, hcount, maxDisplacedRetries]
        constructor <;> rintro ⟨hdisplaced, hfew⟩ <;> exact ⟨hdisplaced, by omega⟩
      by_cases hagain : Displaced response ∧ attempt < maxDisplacedRetries
      · refine .inr ⟨hgivenUp.mpr hagain, hagain.2, next, hcalls, ?_, ?_, ?_⟩
        · simp only [trailingThrows, hlast]
        · simp only [responses, hlast, hcount, hresponses]
        · exact submitLoop_resubmit left attempt hagain.1 hagain.2 hretry
      · refine .inl ⟨Nat.le_add_right _ _, hbefore, hgivenUp.not.mpr hagain, ?_, ?_⟩
        · rw [submitLoop_settled left attempt hagain hretry]
          exact hcalls
        · rw [submitLoop_settled left attempt hagain hretry, hlast]
          rfl

/-- The calls of a submission are those up to the first that is not tried again. -/
theorem submitLoop_trace {txFactory : Async σ JsError Response} {calls : σ → Nat}
    (horacle : Oracle txFactory calls outcome) (hquiet : (txRetry (σ := σ)).Quiet calls)
    (left attempt : Nat) (hleft : attempt + left = maxDisplacedRetries) (world : σ)
    (hthrows : trailingThrows outcome (calls world) = 0)
    (hresponses : responses outcome (calls world) + 1 = attempt) :
    ∃ last, SubmitTrace outcome calls (calls world) last
      (submitLoop txFactory (left + 1) attempt world) := by
  induction left generalizing attempt world with
  | zero =>
      obtain ⟨last, _, _, hround⟩ := submitLoop_round horacle hquiet 0 attempt world
        hthrows hresponses
      rcases hround with htrace | ⟨_, hattempt, _⟩
      · exact ⟨last, htrace⟩
      · exact absurd hattempt (by omega)
  | succ left ih =>
      obtain ⟨last, hfirst, hbefore, hround⟩ := submitLoop_round horacle hquiet (left + 1) attempt
        world hthrows hresponses
      rcases hround with htrace | ⟨hgivenUp, _, next, hcalls, hthrows', hresponses', hnext⟩
      · exact ⟨last, htrace⟩
      · rw [← hcalls] at hthrows' hresponses'
        obtain ⟨last', htrace⟩ := ih (attempt + 1) (by omega) next hthrows'
          (congrArg Nat.succ hresponses')
        rw [hcalls, ← hnext] at htrace
        refine ⟨last', hfirst.trans (Nat.le_of_succ_le htrace.first_le), ?_, htrace.not_givenUp,
          htrace.calls_eq, htrace.outcome_eq⟩
        intro n hn hlast
        rcases Nat.lt_trichotomy n last with hlt | heq | hgt
        · exact hbefore n hn hlt
        · exact heq ▸ hgivenUp
        · exact htrace.givenUp n hgt hlast

/-- `submitTx` makes the calls up to the first that is not given up on, and its
result is decided by that call. -/
theorem submitTx_trace {txFactory : Async σ JsError Response} {calls : σ → Nat}
    (horacle : Oracle txFactory calls outcome) (hquiet : (txRetry (σ := σ)).Quiet calls)
    (hlogger : ∀ logger (world : σ), calls (Host.setLogger logger world) = calls world)
    (message : String) (world : σ) (hstart : calls world = 0) :
    ∃ last, (∀ n < last, GivenUp outcome n) ∧ ¬ GivenUp outcome last ∧
      calls (submitTx txFactory message world).2 = last + 1 ∧
      (submitTx txFactory message world).1 = submitOutcome message (outcome last) := by
  have hbegin := hlogger ((Host.logger world).load message).2 world
  rw [hstart] at hbegin
  obtain ⟨last, htrace⟩ := submitLoop_trace horacle hquiet 4 1 rfl
    (Host.setLogger ((Host.logger world).load message).2 world)
    (by rw [hbegin]; rfl) (by rw [hbegin]; rfl)
  have hcalls := htrace.calls_eq
  have hresult := htrace.outcome_eq
  refine ⟨last, fun n => htrace.givenUp n (by omega), htrace.not_givenUp, ?_⟩
  simp only [submitTx, maxDisplacedRetries]
  rcases hloop : submitLoop txFactory (4 + 1) 1
    (Host.setLogger ((Host.logger world).load message).2 world) with ⟨result, next⟩
  rw [hloop] at hcalls hresult
  subst hresult
  cases hlast : outcome last with
  | error err => exact ⟨hcalls, rfl⟩
  | ok response =>
      simp only [sendOutcome, submitOutcome]
      cases waitForReceipt response RECEIPT_TIMEOUT_MS with
      | error err => exact ⟨hcalls, rfl⟩
      | ok receipt =>
          simp only
          cases acceptReceipt message receipt with
          | error err => exact ⟨hcalls, rfl⟩
          | ok receipt => exact ⟨(hlogger _ _).trans hcalls, rfl⟩

end Trace

end RaylsSuite.Common
