import RaylsSuite.Api.BaseController

/-! # Teleporting a token

`teleportTokenAndSend` posts a teleport and retries it on any error. A retry
is safe only if the attempt that failed was not executed.
-/

namespace RaylsSuite.Flows

open Api Common

/-- The options of the teleport helpers. -/
structure TeleportOpts where
  attempts : Option Nat := none
  delayMs : Option Nat := none

/-- `if (!resp.tx_hash) throw ...`, and `return resp.tx_hash`. -/
def txHash (resp : Body) : Except Failure String :=
  match resp.tx_hash with
  | none => .error (.error "Transaction hash not found in teleport response")
  | some hash =>
      if hash = "" then .error (.error "Transaction hash not found in teleport response")
      else .ok hash

/-- The unit that is retried. -/
def teleportOnce (backend : Nat → Exchange) : Async ClientSession Failure String := fun session =>
  match post backend session with
  | (.error err, session) => (.error err, session)
  | (.ok resp, session) => (txHash resp, session)

/-- The options of the retry; its `onRetry` only prints. -/
def teleportRetry (opts : TeleportOpts) : RetryOptions ClientSession Failure :=
  { attempts := opts.attempts.getD 5, delayMs := opts.delayMs.getD 5000 }

def teleportTokenAndSend (backend : Nat → Exchange) (opts : TeleportOpts) :
    Async ClientSession Failure String :=
  retry (teleportOnce backend) (teleportRetry opts)

/-! ## The attempts of one call -/

/-- How an attempt ends whose request is treated so. -/
def attemptOutcome (exchange : Exchange) : Except Failure String :=
  match exchange.post with
  | .error err => .error err
  | .ok resp => txHash resp

/-- The attempt throws: its reply is lost, reports an error or lacks the hash. -/
def Fails (exchange : Exchange) : Prop := ∃ err, attemptOutcome exchange = .error err

variable (backend : Nat → Exchange) (opts : TeleportOpts)

/-- How many requests one call of `teleportTokenAndSend` posts. -/
def teleportRequests : Nat := (teleportTokenAndSend backend opts .start).2.requests

def teleportResult : Except Failure String := (teleportTokenAndSend backend opts .start).1

/-- At most one of the posted teleports is executed, and exactly one if the call returns. -/
structure TeleportedOnce : Prop where
  at_most_once : ∀ m < teleportRequests backend opts, ∀ n < teleportRequests backend opts,
    (backend m).executed → (backend n).executed → m = n
  exactly_once : ∀ hash, teleportResult backend opts = .ok hash →
    ∃ n < teleportRequests backend opts, (backend n).executed ∧
      ∀ m < teleportRequests backend opts, (backend m).executed → m = n

/-- No attempt that fails was executed, as far as the attempts before it fail too and the
budget has another one. -/
def FailuresNotExecuted : Prop :=
  ∀ n, n + 1 < opts.attempts.getD 5 → (∀ k ≤ n, Fails (backend k)) → (backend n).executed = false

variable {opts}

theorem teleportOnce_oracle :
    Oracle (teleportOnce backend) ClientSession.requests fun n => attemptOutcome (backend n) := by
  constructor <;> intro session
  · simp only [teleportOnce, post, attemptOutcome]
    cases (backend session.requests).post <;> rfl
  · simp only [teleportOnce, post]
    cases (backend session.requests).post <;> rfl

/-- Without a `retryIf` every error is retried. -/
theorem teleportRetry_retries_iff (exchange : Exchange) :
    (teleportRetry opts).Retries (attemptOutcome exchange) ↔ Fails exchange := by
  simp only [RetryOptions.Retries, RetryOptions.refuses, teleportRetry, and_true, Fails]

/-- A returned hash is that of an executed teleport. -/
theorem executed_of_attemptOutcome {exchange : Exchange} {hash : String}
    (hok : attemptOutcome exchange = .ok hash) : exchange.executed = true := by
  cases hpost : exchange.post with
  | error err =>
      rw [attemptOutcome, hpost] at hok
      cases hok
  | ok resp => exact Exchange.executed_of_post hpost

/-- The requests posted are those up to the first attempt that does not fail, or all the
attempts; that attempt decides the result. -/
theorem teleportTokenAndSend_spec (hattempts : 0 < opts.attempts.getD 5) :
    ∃ last < opts.attempts.getD 5, teleportRequests backend opts = last + 1 ∧
      (∀ n < last, Fails (backend n)) ∧
      (Fails (backend last) → last + 1 = opts.attempts.getD 5) ∧
      teleportResult backend opts = attemptOutcome (backend last) := by
  obtain ⟨last, htrace⟩ := retry_trace (teleportRetry opts) (teleportOnce_oracle backend)
    (fun _ _ _ => rfl) hattempts ClientSession.start
  have hfirst : ∀ n, ClientSession.start.requests + n = n := Nat.zero_add
  refine ⟨last, htrace.lt_limit, ?_, ?_, ?_, ?_⟩
  · have hcalls := htrace.calls_eq
    rwa [hfirst] at hcalls
  · intro n hn
    have hretried := htrace.retried n hn
    rwa [hfirst, teleportRetry_retries_iff] at hretried
  · intro hfails
    apply htrace.stopped
    rwa [hfirst, teleportRetry_retries_iff]
  · have houtcome := htrace.outcome_eq
    rwa [hfirst] at houtcome

/-- Without an attempt nothing is posted. -/
theorem teleportTokenAndSend_none (hattempts : opts.attempts.getD 5 = 0) :
    teleportRequests backend opts = 0 ∧ teleportResult backend opts = .error default := by
  have hretry : teleportTokenAndSend backend opts .start = (.error default, .start) := by
    simp only [teleportTokenAndSend, retry, teleportRetry, hattempts, retryLoop]
  constructor
  · rw [teleportRequests, hretry]
    rfl
  · rw [teleportResult, hretry]

variable {backend}

/-- If no failed attempt was executed, only the last attempt can be. -/
theorem FailuresNotExecuted.teleportedOnce (hclean : FailuresNotExecuted backend opts) :
    TeleportedOnce backend opts := by
  rcases Nat.eq_zero_or_pos (opts.attempts.getD 5) with hnone | hattempts
  · obtain ⟨hrequests, hresult⟩ := teleportTokenAndSend_none backend hnone
    constructor
    · intro m hm
      omega
    · intro hash hok
      cases hresult.symm.trans hok
  · obtain ⟨last, hlast, hrequests, hfails, _, hresult⟩ :=
      teleportTokenAndSend_spec backend hattempts
    have honly : ∀ m < teleportRequests backend opts, (backend m).executed → m = last := by
      intro m hm hexecuted
      by_contra hne
      have hearlier : m < last := by omega
      rw [hclean m (by omega) fun k hk => hfails k (Nat.lt_of_le_of_lt hk hearlier)] at hexecuted
      cases hexecuted
    constructor
    · intro m hm n hn hm' hn'
      rw [honly m hm hm', honly n hn hn']
    · intro hash hok
      have hexecuted := executed_of_attemptOutcome (hresult.symm.trans hok)
      exact ⟨last, hrequests ▸ Nat.lt_succ_self last, hexecuted, honly⟩

/-- Where some attempt of the budget does not fail, the call performs one teleport only if
none of the failed attempts before it was executed. -/
theorem TeleportedOnce.failuresNotExecuted (honce : TeleportedOnce backend opts) {n : Nat}
    (hn : n < opts.attempts.getD 5) (hsucceeds : ¬ Fails (backend n)) :
    FailuresNotExecuted backend opts := by
  obtain ⟨last, _, hrequests, hfails, hstop, hresult⟩ :=
    teleportTokenAndSend_spec backend (Nat.zero_lt_of_lt hn)
  have hlast : ¬ Fails (backend last) := by
    intro hfailed
    have hend := hstop hfailed
    rcases Nat.lt_or_ge n last with hlt | hge
    · exact hsucceeds (hfails n hlt)
    · exact hsucceeds ((show last = n by omega) ▸ hfailed)
  intro m _ hfailed
  -- the failed attempts come before the last one, whose teleport is the only one executed
  have hm : m < last := by
    by_contra hge
    exact hlast (hfailed last (Nat.le_of_not_lt hge))
  obtain ⟨hash, hok⟩ : ∃ hash, attemptOutcome (backend last) = .ok hash := by
    cases houtcome : attemptOutcome (backend last) with
    | error err => exact absurd ⟨err, houtcome⟩ hlast
    | ok hash => exact ⟨hash, rfl⟩
  have hexecuted := executed_of_attemptOutcome hok
  apply Bool.eq_false_iff.mpr
  intro hm'
  exact Nat.ne_of_lt hm (honce.at_most_once m (by omega) last (by omega) hm' hexecuted)

/-- `teleportTokenAndSend` performs at most one teleport, and one when it returns, if no
attempt that fails was executed, and only then if some attempt of its budget succeeds. -/
theorem failuresNotExecuted_teleportedOnce (backend : Nat → Exchange) (opts : TeleportOpts) :
    (FailuresNotExecuted backend opts → TeleportedOnce backend opts) ∧
      ((∃ n < opts.attempts.getD 5, ¬ Fails (backend n)) →
        (TeleportedOnce backend opts ↔ FailuresNotExecuted backend opts)) := by
  refine ⟨FailuresNotExecuted.teleportedOnce, ?_⟩
  intro hsucceeds
  obtain ⟨n, hn, hsucceeds⟩ := hsucceeds
  exact ⟨fun honce => honce.failuresNotExecuted hn hsucceeds, FailuresNotExecuted.teleportedOnce⟩

/-- The first teleport is executed and its reply times out; the second one is answered. -/
def lostThenAnswered : Nat → Exchange
  | 0 => .lost (some "timeout of 60000ms exceeded")
  | _ => .answered ⟨200, ⟨some "0x7e1e", none, none, none, none⟩⟩

theorem not_teleportedOnce_lostThenAnswered : ¬TeleportedOnce lostThenAnswered {} := by
  intro honce
  have hrequests : teleportRequests lostThenAnswered {} = 2 := by rfl
  have heq := honce.at_most_once 0 (by rw [hrequests]; decide) 1 (by rw [hrequests]; decide)
    (by decide) (by decide)
  exact absurd heq (by decide)

end RaylsSuite.Flows
