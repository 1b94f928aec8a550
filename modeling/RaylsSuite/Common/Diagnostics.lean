import RaylsSuite.Common.JsVal
import RaylsSuite.Common.PollingLaw

/-! # The diagnostics of the two waits

An exhausted `eventually` and a matched `never` reject with a message that is
to tell what was observed. The message renders an observed value, so it can
only be built for values that have a text.
-/

namespace RaylsSuite.Common

open Config Entities Foundation

/-! ## What a wait observes -/

section Observations

variable {σ ε α : Type}

/-- The value of the last of the first `n` attempts that returned. -/
def lastValue (outcomes : Nat → Except ε α) : Nat → Option α
  | 0 => none
  | n + 1 =>
      match outcomes (n + 1) with
      | .ok value => some value
      | .error _ => lastValue outcomes n

/-- The error of the last of the first `n` attempts that threw. -/
def lastError (outcomes : Nat → Except ε α) : Nat → Option ε
  | 0 => none
  | n + 1 =>
      match outcomes (n + 1) with
      | .ok _ => lastError outcomes n
      | .error err => some err

variable [JsValue ε α]

/-- None of the first `n` attempts matches or throws an error that is not tolerated. -/
def Undecided (outcomes : Nat → Except ε α) (tolerateErrors : Bool) (n : Nat) : Prop :=
  ∀ m, 1 ≤ m → m ≤ n → ¬MatchesAt outcomes m ∧ ¬ThrowsAt outcomes tolerateErrors m

/-- The state of `eventually` after `i` undecided attempts. -/
structure Watching (outcomes : Nat → Except ε α) (tolerateErrors : Bool) (i : Nat)
    (seen : Observed Probe ε α) : Prop where
  checks_eq : checks seen.world.trace = i
  undecided : Undecided outcomes tolerateErrors i
  value_eq : seen.lastValue = lastValue outcomes i
  error_eq : seen.lastError = lastError outcomes i

variable {outcomes : Nat → Except ε α} {tolerateErrors : Bool}

/-- One more outcome that does not decide leaves the wait undecided. -/
theorem Undecided.succ {i : Nat} (hundecided : Undecided outcomes tolerateErrors i)
    {opts : PollOptions Probe ε α} (htolerate : opts.tolerateErrors = tolerateErrors)
    (hnext : opts.Undecided (outcomes (i + 1))) : Undecided outcomes tolerateErrors (i + 1) := by
  rw [undecided_iff, not_or, htolerate] at hnext
  intro m hm hlast
  rcases Nat.lt_or_eq_of_le hlast with hearlier | rfl
  · exact hundecided m hm (Nat.lt_succ_iff.mp hearlier)
  · exact hnext

/-- The last value of undecided attempts is falsy. -/
theorem Undecided.lastValue_falsy {i : Nat} (hundecided : Undecided outcomes tolerateErrors i)
    {value : α} (hlast : lastValue outcomes i = some value) : JsValue.truthy ε value = false := by
  induction i with
  | zero => cases hlast
  | succ i ih =>
      rw [lastValue] at hlast
      cases houtcome : outcomes (i + 1) with
      | error err =>
          rw [houtcome] at hlast
          exact ih (fun m hm hle => hundecided m hm (Nat.le_succ_of_le hle)) hlast
      | ok latest =>
          rw [houtcome] at hlast
          obtain rfl := Option.some.inj hlast
          have hmatches := (hundecided (i + 1) (Nat.succ_pos i) le_rfl).1
          by_contra htruthy
          exact hmatches ⟨latest, houtcome, eq_true_of_ne_false htruthy⟩

theorem checks_append (trace : List PollStep) : checks (trace ++ [.check]) = checks trace + 1 := by
  rw [checks, List.count_append]
  rfl

/-- The variables of `eventually` hold the last outcomes at each attempt. -/
theorem watching_waiting (outcomes : Nat → Except ε α) (n : Nat) (interval : Option Nat)
    (tolerateErrors : Bool) :
    Waiting { oracleOptions outcomes n interval tolerateErrors with
      check := observing (oracleCheck outcomes) } (Watching outcomes tolerateErrors) where
  checked i seen hseen hundecided := by
    obtain ⟨hchecks, hbefore, hvalue, herror⟩ := hseen
    rw [observing_outcome, (oracleCheck_traces outcomes).outcome, hchecks] at hundecided
    have hafter : checks (observing (oracleCheck outcomes) seen).2.world.trace = i + 1 := by
      rw [observing_world, (oracleCheck_traces outcomes).checked, checks_append, hchecks]
    have hnext : Undecided outcomes tolerateErrors (i + 1) := hbefore.succ rfl hundecided
    cases houtcome : outcomes (i + 1) with
    | ok value =>
        have hfalsy : JsValue.truthy ε value = false := by
          rw [houtcome] at hundecided
          exact hundecided
        refine ⟨hafter, hnext, ?_, ?_⟩
        · simp [observing, oracleCheck, hchecks, houtcome, hfalsy, lastValue]
        · simp [observing, oracleCheck, hchecks, houtcome, hfalsy, lastError, herror]
    | error err =>
        refine ⟨hafter, hnext, ?_, ?_⟩
        · simp [observing, oracleCheck, hchecks, houtcome, lastValue, hvalue]
        · simp [observing, oracleCheck, hchecks, houtcome, lastError]
  delayed i seen ms hseen := by
    refine ⟨?_, hseen.undecided, hseen.value_eq, hseen.error_eq⟩
    have hchecks := hseen.checks_eq
    simpa [Host.delay, checks, List.count_append] using hchecks

/-- The state of `never` after `i` undecided attempts. -/
structure Guarding (outcomes : Nat → Except ε α) (tolerateErrors : Bool) (i : Nat)
    (seen : Counted Probe) : Prop where
  checks_eq : checks seen.world.trace = i
  undecided : Undecided outcomes tolerateErrors i
  attempt_eq : seen.attemptNumber = i

/-- The counter of `never` is the number of attempts made. -/
theorem guarding_waiting (outcomes : Nat → Except ε α) (n : Nat) (interval : Option Nat)
    (tolerateErrors : Bool) :
    Waiting { oracleOptions outcomes n interval tolerateErrors with
      check := counting (oracleCheck outcomes) } (Guarding outcomes tolerateErrors) where
  checked i seen hseen hundecided := by
    obtain ⟨hchecks, hbefore, hattempt⟩ := hseen
    have houtcome : (counting (oracleCheck outcomes) seen).1 = outcomes (i + 1) := by
      rw [(oracleCheck_traces outcomes).counting.outcome, hchecks]
    rw [houtcome] at hundecided
    refine ⟨?_, hbefore.succ rfl hundecided, ?_⟩
    · rw [(oracleCheck_traces outcomes).counting.checked, checks_append, hchecks]
    · simp [counting, hattempt]
  delayed i seen ms hseen := by
    refine ⟨?_, hseen.undecided, hseen.attempt_eq⟩
    have hchecks := hseen.checks_eq
    simpa [Host.delay, checks, List.count_append] using hchecks

theorem Undecided.not_matches {n i : Nat} (hundecided : Undecided outcomes tolerateErrors n)
    (hlt : i < n) {value : α} (houtcome : outcomes (i + 1) = .ok value) :
    JsValue.truthy ε value ≠ true :=
  fun htruthy => (hundecided (i + 1) (Nat.succ_pos i) hlt).1 ⟨value, houtcome, htruthy⟩

theorem Undecided.not_throws {n i : Nat} (hundecided : Undecided outcomes tolerateErrors n)
    (hlt : i < n) {err : ε} (houtcome : outcomes (i + 1) = .error err) :
    tolerateErrors ≠ false :=
  fun htolerated => (hundecided (i + 1) (Nat.succ_pos i) hlt).2 ⟨htolerated, err, houtcome⟩

variable [Thrown ε] (PARALLEL_WORKERS : Option String) (interval : Option Nat) (message : String)
  (logger : Logger)

theorem eventually_of_exhausted [Host σ] {opts : PollOptions σ ε α} {world : σ}
    {seen : Observed σ ε α}
    (hpoll : poll PARALLEL_WORKERS { opts with check := observing opts.check }
      ⟨Host.setLogger ((Host.logger world).load message).2 world, none, none⟩ = (.ok none, seen)) :
    (eventually PARALLEL_WORKERS opts message world).1 =
      .error (exhaustion message (opts.budget PARALLEL_WORKERS) opts.intervalMs seen) := by
  simp only [eventually, hpoll]

theorem never_of_matched [Host σ] {opts : PollOptions σ ε α} {world : σ} {seen : Counted σ}
    {value : α}
    (hpoll : poll PARALLEL_WORKERS { opts with check := counting opts.check }
      ⟨Host.setLogger ((Host.logger world).load message).2 world, 0⟩ = (.ok (some value), seen)) :
    (never PARALLEL_WORKERS opts message world).1 =
      .error (violation message seen.attemptNumber value) := by
  simp only [never, hpoll]

/-- An exhausted `eventually` rejects with a rendering of the last value and the last error. -/
theorem eventually_exhausted {n : Nat} (hundecided : Undecided outcomes tolerateErrors n) :
    ∃ seen : Observed Probe ε α, seen.lastValue = lastValue outcomes n ∧
      seen.lastError = lastError outcomes n ∧
      (eventually PARALLEL_WORKERS (oracleOptions outcomes n interval tolerateErrors) message
        ⟨[], logger⟩).1 = .error (exhaustion message n (interval.getD SECOND) seen) := by
  have hpolled := poll_polled PARALLEL_WORKERS
    (watching_waiting outcomes n interval tolerateErrors)
    ⟨Host.setLogger ((Host.logger (⟨[], logger⟩ : Probe)).load message).2 ⟨[], logger⟩, none, none⟩
    ⟨rfl, fun m hm hlast => absurd hlast (by omega), rfl, rfl⟩
  have hasks : ∀ {i : Nat} {before after : Observed Probe ε α} {outcome : Except ε α},
      Watching outcomes tolerateErrors i before →
      observing (oracleCheck outcomes) before = (outcome, after) → outcomes (i + 1) = outcome := by
    intro i before after outcome hbefore hcheck
    have houtcome := (oracleCheck_traces outcomes).observing.outcome before
    rw [hbefore.checks_eq] at houtcome
    rw [← houtcome, hcheck]
  generalize hsettled : poll PARALLEL_WORKERS { oracleOptions outcomes n interval tolerateErrors
    with check := observing (oracleCheck outcomes) } _ = settled at hpolled
  cases hpolled with
  | matched hlt hbefore hcheck htruthy =>
      exact absurd htruthy (hundecided.not_matches hlt (hasks hbefore hcheck))
  | threw hlt hbefore hcheck htolerated =>
      exact absurd htolerated (hundecided.not_throws hlt (hasks hbefore hcheck))
  | exhausted hafter =>
      exact ⟨_, hafter.value_eq, hafter.error_eq,
        eventually_of_exhausted PARALLEL_WORKERS message hsettled⟩

/-- A match of `never` rejects with a rendering of its attempt and value. -/
theorem never_matched {n k : Nat} {value : α} (hlt : k < n)
    (hundecided : Undecided outcomes tolerateErrors k) (houtcome : outcomes (k + 1) = .ok value)
    (htruthy : JsValue.truthy ε value = true) :
    (never PARALLEL_WORKERS (oracleOptions outcomes n interval tolerateErrors) message
      ⟨[], logger⟩).1 = .error (violation message (k + 1) value) := by
  have hpolled := poll_polled PARALLEL_WORKERS
    (guarding_waiting outcomes n interval tolerateErrors)
    ⟨Host.setLogger ((Host.logger (⟨[], logger⟩ : Probe)).load message).2 ⟨[], logger⟩, 0⟩
    ⟨rfl, fun m hm hlast => absurd hlast (by omega), rfl⟩
  have hasks : ∀ {i : Nat} {before after : Counted Probe} {outcome : Except ε α},
      Guarding outcomes tolerateErrors i before →
      counting (oracleCheck outcomes) before = (outcome, after) → outcomes (i + 1) = outcome := by
    intro i before after outcome hbefore hcheck
    have hoverall := (oracleCheck_traces outcomes).counting.outcome before
    rw [hbefore.checks_eq] at hoverall
    rw [← hoverall, hcheck]
  generalize hsettled : poll PARALLEL_WORKERS { oracleOptions outcomes n interval tolerateErrors
    with check := counting (oracleCheck outcomes) } _ = settled at hpolled
  cases hpolled with
  | @matched i before after latest hle hbefore hcheck hmatches =>
      have hlatest := hasks hbefore hcheck
      have hnumber : after.attemptNumber = i + 1 := by
        rw [← hbefore.attempt_eq, ← congrArg (fun polled => polled.2.attemptNumber) hcheck]
        rfl
      rcases Nat.lt_trichotomy i k with hearlier | rfl | hlater
      · exact absurd hmatches (hundecided.not_matches hearlier hlatest)
      · obtain rfl := Except.ok.inj (hlatest.symm.trans houtcome)
        rw [← hnumber]
        exact never_of_matched PARALLEL_WORKERS message hsettled
      · exact absurd htruthy (hbefore.undecided.not_matches hlater houtcome)
  | @threw i before after err hle hbefore hcheck htolerated =>
      have hlatest := hasks hbefore hcheck
      rcases Nat.lt_trichotomy i k with hearlier | rfl | hlater
      · exact absurd htolerated (hundecided.not_throws hearlier hlatest)
      · rw [houtcome] at hlatest
        cases hlatest
      · exact absurd htruthy (hbefore.undecided.not_matches hlater houtcome)
  | exhausted hafter => exact absurd htruthy (hafter.undecided.not_matches hlt houtcome)

end Observations

/-! ## The law of the two messages -/

/-- The message of an exhausted wait shows its last error, or else its last value. -/
inductive Observation (outcomes : Nat → Except JsVal JsVal) (n : Nat) : String → Prop where
  | error {err : JsVal} {shown : String} : lastError outcomes n = some err →
      err.isUndefined = false → err.describe = .ok shown → Observation outcomes n shown
  | value {value : JsVal} {shown : String} :
      (∀ err, lastError outcomes n = some err → err.isUndefined = true) →
      lastValue outcomes n = some value → value.stringify = .ok shown →
      Observation outcomes n shown
  | nothing : (∀ err, lastError outcomes n = some err → err.isUndefined = true) →
      lastValue outcomes n = none → Observation outcomes n "undefined"

/-- Both waits reject with an `Error` that tells where and on what they failed. -/
structure Diagnosed (outcomes : Nat → Except JsVal JsVal) (n interval : Nat)
    (tolerateErrors : Bool) (message : String) (waited : Except JsVal JsVal)
    (watched : Except JsVal Unit) : Prop where
  exhausted : Undecided outcomes tolerateErrors n → ∃ text shown,
    waited = .error (.error "Error" text) ∧ Observation outcomes n shown ∧
      ∀ part ∈ [message, toString n, toString interval, shown], Text.includes text part
  matched : ∀ k value, k < n → Undecided outcomes tolerateErrors k →
    outcomes (k + 1) = .ok value → value.truthy = true → ∃ text shown,
      watched = .error (.error "Error" text) ∧ value.stringify = .ok shown ∧
        ∀ part ∈ [message, toString (k + 1), shown], Text.includes text part

/-- Every value that a message has to show has a text: an exhausted wait has a describable
last error, or none and a last value other than `0n`, and the value of a match is one that
`JSON.stringify` takes. -/
structure Renderable (outcomes : Nat → Except JsVal JsVal) (n : Nat) (tolerateErrors : Bool) :
    Prop where
  error : Undecided outcomes tolerateErrors n → ∀ err, lastError outcomes n = some err →
    err.Describable
  value : Undecided outcomes tolerateErrors n →
    (∀ err, lastError outcomes n = some err → err.isUndefined = true) →
    lastValue outcomes n ≠ some (.bigint 0)
  matched : ∀ k value, k < n → Undecided outcomes tolerateErrors k →
    outcomes (k + 1) = .ok value → value.truthy = true → value.Serialisable

/-- `0n` is the falsy value that has no JSON text. -/
theorem JsVal.serialisable_of_falsy {value : JsVal} (hfalsy : value.truthy = false) :
    value.Serialisable ↔ value ≠ .bigint 0 := by
  cases value with
  | bigint value =>
      have hzero : value = 0 := by simpa [JsVal.truthy] using hfalsy
      simp [JsVal.Serialisable, hzero]
  | object json text => simp [JsVal.truthy] at hfalsy
  | _ => simp [JsVal.Serialisable]

theorem JsVal.describable_of_isUndefined {err : JsVal} (hundefined : err.isUndefined = true) :
    err.Describable := by
  cases err with
  | undefined => trivial
  | _ => cases hundefined

section Messages

variable {outcomes : Nat → Except JsVal JsVal} {n : Nat} {seen : Observed Probe JsVal JsVal}

/-- The message of an exhausted wait names all its parts. -/
theorem exhaustion_includes (message observed : String) (attempts interval : Nat) :
    ∀ part ∈ [message, toString attempts, toString interval, observed], Text.includes
      s!"{message} (after {attempts} attempts, {interval} ms interval, {observed})" part := by
  intro part hpart
  have htext : s!"{message} (after {attempts} attempts, {interval} ms interval, {observed})" =
      [message, " (after ", toString attempts, " attempts, ", toString interval,
        " ms interval, ", observed, ")"].foldr (· ++ ·) "" := by
    simp only [List.foldr, String.append_assoc, String.append_empty]
    rfl
  rw [htext]
  apply Text.includes_join
  simp only [List.mem_cons, List.not_mem_nil, or_false] at hpart ⊢
  rcases hpart with rfl | rfl | rfl | rfl <;> simp

/-- The message of a matched condition names all its parts. -/
theorem violation_includes (message shown : String) (attemptNumber : Nat) :
    ∀ part ∈ [message, toString attemptNumber, shown], Text.includes
      s!"{message} — condition matched at attempt {attemptNumber} (value: {shown})" part := by
  intro part hpart
  have htext : s!"{message} — condition matched at attempt {attemptNumber} (value: {shown})" =
      [message, " — condition matched at attempt ", toString attemptNumber, " (value: ", shown,
        ")"].foldr (· ++ ·) "" := by
    simp only [List.foldr, String.append_assoc, String.append_empty]
    rfl
  rw [htext]
  apply Text.includes_join
  simp only [List.mem_cons, List.not_mem_nil, or_false] at hpart ⊢
  rcases hpart with rfl | rfl | rfl <;> simp

/-- What is observed has a text exactly if it is describable or serialisable. -/
theorem observation_iff {tolerateErrors : Bool} (hundecided : Undecided outcomes tolerateErrors n) :
    (∃ shown, Observation outcomes n shown) ↔
      (∀ err, lastError outcomes n = some err → err.Describable) ∧
        ((∀ err, lastError outcomes n = some err → err.isUndefined = true) →
          lastValue outcomes n ≠ some (.bigint 0)) := by
  constructor
  · rintro ⟨shown, hobservation⟩
    cases hobservation with
    | @error err shown herror hdefined hshown =>
        constructor
        · intro err' herror'
          obtain rfl := Option.some.inj (herror.symm.trans herror')
          exact (JsVal.describe_ok_iff err).mp ⟨shown, hshown⟩
        · intro hnone
          rw [hnone err herror] at hdefined
          cases hdefined
    | @value value shown hnone hvalue hshown =>
        constructor
        · exact fun err herror => JsVal.describable_of_isUndefined (hnone err herror)
        · rintro - hzero
          obtain rfl := Option.some.inj (hvalue.symm.trans hzero)
          cases hshown
    | nothing hnone hvalue =>
        constructor
        · exact fun err herror => JsVal.describable_of_isUndefined (hnone err herror)
        · rintro - hzero
          rw [hvalue] at hzero
          cases hzero
  · rintro ⟨hdescribable, hvalue⟩
    by_cases hnone : ∀ err, lastError outcomes n = some err → err.isUndefined = true
    · cases hlast : lastValue outcomes n with
      | none => exact ⟨_, .nothing hnone hlast⟩
      | some value =>
          have hserialisable : value.Serialisable := by
            rw [JsVal.serialisable_of_falsy (hundecided.lastValue_falsy hlast)]
            intro hzero
            exact hvalue hnone (hzero ▸ hlast)
          obtain ⟨shown, hshown⟩ := (JsVal.stringify_ok_iff value).mpr hserialisable
          exact ⟨shown, .value hnone hlast hshown⟩
    · obtain ⟨err, hrest⟩ := not_forall.mp hnone
      obtain ⟨herror, hdefined⟩ := Classical.not_imp.mp hrest
      obtain ⟨shown, hshown⟩ := (JsVal.describe_ok_iff err).mpr (hdescribable err herror)
      exact ⟨shown, .error herror (eq_false_of_ne_true hdefined) hshown⟩

/-- What the wait has observed last is shown in its text. -/
theorem Observation.observed {shown : String} (hobservation : Observation outcomes n shown)
    (hvalue : seen.lastValue = lastValue outcomes n)
    (herror : seen.lastError = lastError outcomes n) :
    ∃ observed, seen.observed = .ok observed ∧ Text.includes observed shown = true := by
  have hlabelled : ∀ label : String, Text.includes (label ++ shown) shown = true := fun label =>
    Text.includes_append_right (Text.includes_self shown) label
  have hundefined : (∀ err, lastError outcomes n = some err → err.isUndefined = true) →
      seen.observed = seen.lastObserved := by
    intro hnone
    rw [Observed.observed, herror]
    cases hlast : lastError outcomes n with
    | none => rfl
    | some err => exact if_pos (hnone err hlast)
  cases hobservation with
  | error hlast hdefined hshown =>
      refine ⟨"last error: " ++ shown, ?_, hlabelled _⟩
      simp [Observed.observed, herror, hlast, Thrown.isUndefined, Thrown.describe, hdefined,
        hshown, Except.map]
      rfl
  | value hnone hlast hshown =>
      refine ⟨"last observed: " ++ shown, ?_, hlabelled _⟩
      rw [hundefined hnone]
      simp [Observed.lastObserved, hvalue, hlast, JsValue.stringify, hshown, Except.map]
      rfl
  | nothing hnone hlast =>
      refine ⟨"last observed: " ++ "undefined", ?_, hlabelled _⟩
      rw [hundefined hnone, Observed.lastObserved, hvalue, hlast]
      rfl

end Messages

/-- The waits give their diagnosis exactly if every value they have to show has a text. -/
theorem diagnosed_iff (PARALLEL_WORKERS : Option String) (outcomes : Nat → Except JsVal JsVal)
    (n : Nat) (interval : Option Nat) (tolerateErrors : Bool) (message : String)
    (logger : Logger) :
    Diagnosed outcomes n (interval.getD SECOND) tolerateErrors message
      (eventually PARALLEL_WORKERS (oracleOptions outcomes n interval tolerateErrors) message
        ⟨[], logger⟩).1
      (never PARALLEL_WORKERS (oracleOptions outcomes n interval tolerateErrors) message
        ⟨[], logger⟩).1 ↔
      Renderable outcomes n tolerateErrors := by
  have hviolation : ∀ k value, k < n → Undecided outcomes tolerateErrors k →
      outcomes (k + 1) = .ok value → value.truthy = true →
      (never PARALLEL_WORKERS (oracleOptions outcomes n interval tolerateErrors) message
        ⟨[], logger⟩).1 = .error (violation message (k + 1) value) :=
    fun k value hlt hundecided houtcome htruthy =>
      never_matched PARALLEL_WORKERS interval message logger hlt hundecided houtcome htruthy
  constructor
  · intro hdiagnosed
    have hclauses : Undecided outcomes tolerateErrors n → _ := fun hundecided =>
      (observation_iff hundecided).mp (by
        obtain ⟨text, shown, -, hobservation, -⟩ := hdiagnosed.exhausted hundecided
        exact ⟨shown, hobservation⟩)
    refine ⟨fun hundecided => (hclauses hundecided).1, fun hundecided => (hclauses hundecided).2, ?_⟩
    intro k value hlt hundecided houtcome htruthy
    obtain ⟨text, shown, -, hshown, -⟩ := hdiagnosed.matched k value hlt hundecided houtcome htruthy
    exact (JsVal.stringify_ok_iff value).mp ⟨shown, hshown⟩
  · intro hrenderable
    constructor
    case exhausted =>
      intro hundecided
      obtain ⟨seen, hvalue, herror, hwaited⟩ :=
        eventually_exhausted PARALLEL_WORKERS interval message logger hundecided
      obtain ⟨shown, hobservation⟩ := (observation_iff hundecided).mpr
        ⟨hrenderable.error hundecided, hrenderable.value hundecided⟩
      obtain ⟨observed, hobserved, hshown⟩ := hobservation.observed hvalue herror
      refine ⟨s!"{message} (after {n} attempts, {interval.getD SECOND} ms interval, {observed})",
        shown, ?_, hobservation, ?_⟩
      · rw [hwaited]
        simp only [exhaustion, hobserved]
        rfl
      · have hparts := exhaustion_includes message observed n (interval.getD SECOND)
        intro part hpart
        simp only [List.mem_cons, List.not_mem_nil, or_false] at hparts hpart
        rcases hpart with rfl | rfl | rfl | rfl
        · exact hparts _ (.inl rfl)
        · exact hparts _ (.inr (.inl rfl))
        · exact hparts _ (.inr (.inr (.inl rfl)))
        · exact Text.includes_trans (hparts _ (.inr (.inr (.inr rfl)))) hshown
    case matched =>
      intro k value hlt hundecided houtcome htruthy
      obtain ⟨shown, hshown⟩ := (JsVal.stringify_ok_iff value).mpr
        (hrenderable.matched k value hlt hundecided houtcome htruthy)
      refine ⟨_, shown, ?_, hshown, violation_includes message shown (k + 1)⟩
      rw [hviolation k value hlt hundecided houtcome htruthy]
      simp only [violation, JsValue.stringify, hshown]
      rfl

/-- A public balance that stays zero. -/
def zeroBalance (_ : Nat) : Except JsVal JsVal := .ok (.bigint 0)

/-- Waiting for a public balance that stays zero rejects with an error of `JSON.stringify`. -/
theorem not_diagnosed_zeroBalance : ¬Diagnosed zeroBalance 30 3000 false "public balance"
    (eventually none (oracleOptions zeroBalance 30 (some 3000) false) "public balance"
      ⟨[], Logger.new⟩).1
    (never none (oracleOptions zeroBalance 30 (some 3000) false) "public balance"
      ⟨[], Logger.new⟩).1 := by
  intro hdiagnosed
  have hundecided : Undecided zeroBalance false 30 := by
    intro m _ _
    constructor
    · rintro ⟨value, houtcome, htruthy⟩
      obtain rfl := Except.ok.inj houtcome
      cases htruthy
    · rintro ⟨-, err, houtcome⟩
      cases houtcome
  obtain ⟨text, shown, -, hobservation, -⟩ := hdiagnosed.exhausted hundecided
  have hlast := ((observation_iff hundecided).mp ⟨shown, hobservation⟩).2
    (fun err herror => by cases herror)
  exact hlast rfl

end RaylsSuite.Common
