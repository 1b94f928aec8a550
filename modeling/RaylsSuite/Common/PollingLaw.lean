import RaylsSuite.Common.Poll
import RaylsSuite.Foundation.FirstAttempt

/-! # The law of the two waits

Against an oracle, `eventually` and `never` poll the same attempts with the
same delays. They settle in opposite ways, and alike only on an error of the
oracle that is not tolerated.
-/

namespace RaylsSuite.Common

open Config Entities Foundation

inductive PollStep where
  | check
  | delay (ms : Nat)
deriving DecidableEq, Repr

/-- A world that records its checks and delays. -/
structure Probe where
  trace : List PollStep
  logger : Logger

instance : Host Probe where
  delay ms probe := { probe with trace := probe.trace ++ [.delay ms] }
  logger := Probe.logger
  setLogger logger probe := { probe with logger := logger }

/-- How many checks a trace holds. -/
def checks (trace : List PollStep) : Nat := trace.count .check

variable {ε α : Type}

/-- The check whose `n`-th attempt, counted from one, ends with the `n`-th outcome. -/
def oracleCheck (outcomes : Nat → Except ε α) : Async Probe ε α := fun probe =>
  (outcomes (checks probe.trace + 1), { probe with trace := probe.trace ++ [.check] })

/-- The steps of a wait of so many checks: one delay between two consecutive ones. -/
def rounds (interval : Nat) : Nat → List PollStep
  | 0 => []
  | 1 => [.check]
  | count + 2 => .check :: .delay interval :: rounds interval (count + 1)

theorem checks_rounds (interval count : Nat) : checks (rounds interval count) = count := by
  induction count using rounds.induct with
  | case1 => rfl
  | case2 => rfl
  | case3 count ih => simpa [checks, rounds] using ih

/-! ## The attempts of a poll -/

section Traced

variable {σ : Type} [Host σ]

/-- The world's trace follows a check that asks an oracle. -/
structure Traces (trace : σ → List PollStep) (outcomes : Nat → Except ε α)
    (check : Async σ ε α) : Prop where
  outcome : ∀ world, (check world).1 = outcomes (checks (trace world) + 1)
  checked : ∀ world, trace (check world).2 = trace world ++ [.check]
  delayed : ∀ ms world, trace (Host.delay ms world) = trace world ++ [.delay ms]

variable {trace : σ → List PollStep} {outcomes : Nat → Except ε α} [JsValue ε α]

theorem Traces.observing {check : Async σ ε α} (htraces : Traces trace outcomes check) :
    Traces (fun seen : Observed σ ε α => trace seen.world) outcomes (observing check) where
  outcome seen := (observing_outcome check seen).trans (htraces.outcome seen.world)
  checked seen := by
    rw [observing_world]
    exact htraces.checked seen.world
  delayed ms seen := htraces.delayed ms seen.world

omit [JsValue ε α] in
theorem Traces.counting {check : Async σ ε α} (htraces : Traces trace outcomes check) :
    Traces (fun seen : Counted σ => trace seen.world) outcomes (counting check) where
  outcome seen := htraces.outcome seen.world
  checked seen := htraces.checked seen.world
  delayed ms seen := htraces.delayed ms seen.world

/-- What the poll makes of an outcome that decides it. -/
def decision : Except ε α → Except ε (Option α)
  | .ok value => .ok (some value)
  | .error err => .error err

/-- The poll that has made `first` attempts ends with the first one that decides, or after
`left` more. -/
inductive PollEnds (opts : PollOptions σ ε α) (outcomes : Nat → Except ε α)
    (trace : σ → List PollStep) (before : List PollStep) (first left : Nat) :
    Except ε (Option α) × σ → Prop where
  | decided {count : Nat} {after : σ} : count < left →
      (∀ j, first < j → j ≤ first + count → opts.Undecided (outcomes j)) →
      ¬opts.Undecided (outcomes (first + count + 1)) →
      trace after = before ++ rounds opts.intervalMs (count + 1) →
      PollEnds opts outcomes trace before first left
        (decision (outcomes (first + count + 1)), after)
  | exhausted {after : σ} :
      (∀ j, first < j → j ≤ first + left → opts.Undecided (outcomes j)) →
      trace after = before ++ rounds opts.intervalMs left →
      PollEnds opts outcomes trace before first left (.ok none, after)

omit [Host σ] in
/-- One more undecided attempt before the poll. -/
theorem PollEnds.cons {opts : PollOptions σ ε α} {before : List PollStep} {first left : Nat}
    {settled : Except ε (Option α) × σ}
    (hends : PollEnds opts outcomes trace (before ++ [.check, .delay opts.intervalMs])
      (first + 1) (left + 1) settled) (hundecided : opts.Undecided (outcomes (first + 1))) :
    PollEnds opts outcomes trace before first (left + 2) settled := by
  have hall : ∀ count, (∀ j, first + 1 < j → j ≤ first + 1 + count →
      opts.Undecided (outcomes j)) →
      ∀ j, first < j → j ≤ first + (count + 1) → opts.Undecided (outcomes j) := by
    intro count hrest j hfirst hlast
    rcases Nat.lt_or_ge (first + 1) j with hlater | hnow
    · exact hrest j hlater (by omega)
    · obtain rfl : j = first + 1 := by omega
      exact hundecided
  cases hends with
  | @decided count after hlt hbefore hdecides htrace =>
      rw [Nat.add_right_comm first 1 count] at hdecides ⊢
      apply PollEnds.decided (Nat.succ_lt_succ hlt) (hall count hbefore) hdecides
      rw [htrace, rounds, List.append_assoc]
      rfl
  | exhausted hbefore htrace =>
      apply PollEnds.exhausted (hall (left + 1) hbefore)
      rw [htrace, rounds, List.append_assoc]
      rfl

/-- The loop ends after the first outcome that decides, with one delay between two checks. -/
theorem pollLoop_ends (opts : PollOptions σ ε α) (htraces : Traces trace outcomes opts.check)
    (left first : Nat) (world : σ) (hfirst : checks (trace world) = first) :
    PollEnds opts outcomes trace (trace world) first left (pollLoop opts left world) := by
  induction left generalizing first world with
  | zero =>
      apply PollEnds.exhausted
      · intro j hlow hhigh
        omega
      · rw [rounds, List.append_nil]
  | succ left ih =>
      have houtcome := htraces.outcome world
      have hchecked := htraces.checked world
      rw [hfirst] at houtcome
      have hdecided : ¬opts.Undecided (outcomes (first + 1)) →
          ∀ after, trace after = trace world ++ [.check] →
            PollEnds opts outcomes trace (trace world) first (left + 1)
              (decision (outcomes (first + 1)), after) := by
        intro hdecides after hafter
        exact .decided (Nat.succ_pos left) (fun j hlow hhigh => by omega) hdecides hafter
      -- an undecided attempt is followed by a delay unless it is the last one
      have hundecided : opts.Undecided (outcomes (first + 1)) →
          ∀ after, trace after = trace world ++ [.check] →
            PollEnds opts outcomes trace (trace world) first (left + 1)
              (pollLoop opts left (opts.pause left after)) := by
        intro hundecided after hafter
        cases left with
        | zero =>
            apply PollEnds.exhausted
            · intro j hlow hhigh
              obtain rfl : j = first + 1 := by omega
              exact hundecided
            · exact hafter
        | succ left =>
            have hpause : trace (opts.pause (left + 1) after) =
                trace world ++ [.check, .delay opts.intervalMs] := by
              rw [PollOptions.pause, if_neg (Nat.succ_ne_zero left), htraces.delayed, hafter,
                List.append_assoc]
              rfl
            have hcount : checks (trace (opts.pause (left + 1) after)) = first + 1 := by
              rw [hpause, checks, List.count_append, ← checks, hfirst]
              rfl
            have hrest := ih (first + 1) (opts.pause (left + 1) after) hcount
            rw [hpause] at hrest
            exact hrest.cons hundecided
      rcases hcheck : opts.check world with ⟨err | value, after⟩ <;>
        rw [hcheck] at houtcome hchecked <;> rw [← houtcome] at hdecided hundecided
      · cases htolerated : opts.tolerateErrors with
        | false =>
            have hfails : ¬opts.Undecided (.error err : Except ε α) := by
              simp [PollOptions.Undecided, htolerated]
            simpa [pollLoop, decision, hcheck, htolerated] using hdecided hfails after hchecked
        | true => simpa [pollLoop, hcheck, htolerated] using hundecided htolerated after hchecked
      · cases htruthy : JsValue.truthy ε value with
        | true =>
            have hmatches : ¬opts.Undecided (.ok value : Except ε α) := by
              simp [PollOptions.Undecided, htruthy]
            simpa [pollLoop, decision, hcheck, htruthy] using hdecided hmatches after hchecked
        | false => simpa [pollLoop, hcheck, htruthy] using hundecided htruthy after hchecked

end Traced

/-! ## Both waits against one oracle -/

section Law

variable [JsValue ε α]

/-- The `n`-th check is truthy. -/
def MatchesAt (outcomes : Nat → Except ε α) (n : Nat) : Prop :=
  ∃ value, outcomes n = .ok value ∧ JsValue.truthy ε value = true

omit [JsValue ε α] in
/-- The `n`-th check throws, and errors are not tolerated. -/
def ThrowsAt (outcomes : Nat → Except ε α) (tolerateErrors : Bool) (n : Nat) : Prop :=
  tolerateErrors = false ∧ ∃ err, outcomes n = .error err

/-- With `k` the first attempt that is truthy and `e` the first that throws, the waits make
`min k e n` checks, reject alike if the throw comes first, and settle in opposite ways
otherwise. -/
structure PollingLaw (outcomes : Nat → Except ε α) (n interval : Nat) (k e : ℕ∞)
    (waited : Except ε α × Probe) (watched : Except ε Unit × Probe) : Prop where
  checks : ∃ count : Nat, (count : ℕ∞) = min (min k e) n ∧ checks waited.2.trace = count ∧
    waited.2.trace = rounds interval count ∧ watched.2.trace = rounds interval count
  threw : e ≤ n → e < k → ∃ (attempt : Nat) (err : ε), (attempt : ℕ∞) = e ∧
    outcomes attempt = .error err ∧ waited.1 = .error err ∧ watched.1 = .error err
  matched : k ≤ n → k < e → ∃ (attempt : Nat) (value : α), (attempt : ℕ∞) = k ∧
    outcomes attempt = .ok value ∧ waited.1 = .ok value ∧ ∃ err, watched.1 = .error err
  unmatched : n < k → n < e → (∃ err, waited.1 = .error err) ∧ watched.1 = .ok ()

variable {σ : Type}

theorem undecided_iff (opts : PollOptions σ ε α) (outcomes : Nat → Except ε α) (n : Nat) :
    opts.Undecided (outcomes n) ↔
      ¬(MatchesAt outcomes n ∨ ThrowsAt outcomes opts.tolerateErrors n) := by
  cases houtcome : outcomes n with
  | ok value => simp [PollOptions.Undecided, MatchesAt, ThrowsAt, houtcome]
  | error err => simp [PollOptions.Undecided, MatchesAt, ThrowsAt, houtcome]

/-- How the poll of an oracle is decided and after how many checks, in terms of the two
first attempts. -/
inductive Decided (outcomes : Nat → Except ε α) (n : Nat) (k e : ℕ∞) :
    Except ε (Option α) → Nat → Prop where
  | matched {attempt : Nat} {value : α} : attempt ≤ n → (attempt : ℕ∞) = k → k < e →
      outcomes attempt = .ok value → Decided outcomes n k e (.ok (some value)) attempt
  | threw {attempt : Nat} {err : ε} : attempt ≤ n → (attempt : ℕ∞) = e → e < k →
      outcomes attempt = .error err → Decided outcomes n k e (.error err) attempt
  | unmatched : (n : ℕ∞) < k → (n : ℕ∞) < e → Decided outcomes n k e (.ok none) n

variable {outcomes : Nat → Except ε α} {n : Nat}

omit [JsValue ε α] in
/-- The number of checks is the smallest of the three bounds. -/
theorem Decided.count_eq {k e : ℕ∞} {result : Except ε (Option α)} {count : Nat}
    (hdecided : Decided outcomes n k e result count) : (count : ℕ∞) = min (min k e) n := by
  cases hdecided with
  | matched hle hk hlt houtcome =>
      rw [min_eq_left hlt.le, ← hk, min_eq_left (Nat.cast_le.mpr hle)]
  | threw hle he hlt houtcome =>
      rw [min_eq_right hlt.le, ← he, min_eq_left (Nat.cast_le.mpr hle)]
  | unmatched hk he => rw [min_eq_right (le_min hk.le he.le)]

/-- How a poll ends is decided by its first match and its first error. -/
theorem PollEnds.decided_at {opts : PollOptions σ ε α} {trace : σ → List PollStep}
    {settled : Except ε (Option α) × σ} (hends : PollEnds opts outcomes trace [] 0 n settled) :
    ∃ count, Decided outcomes n (firstAttempt (MatchesAt outcomes))
        (firstAttempt (ThrowsAt outcomes opts.tolerateErrors)) settled.1 count ∧
      trace settled.2 = rounds opts.intervalMs count := by
  cases hends with
  | @decided count after hlt hbefore hdecides htrace =>
      rw [Nat.zero_add] at hbefore hdecides ⊢
      have hnone : ∀ m, 1 ≤ m → m < count + 1 →
          ¬(MatchesAt outcomes m ∨ ThrowsAt outcomes opts.tolerateErrors m) :=
        fun m hm hlast => (undecided_iff opts outcomes m).mp (hbefore m hm (by omega))
      rw [undecided_iff, not_not] at hdecides
      refine ⟨count + 1, ?_, htrace⟩
      rcases hdecides with hmatches | hthrows
      · have hk := firstAttempt_eq (Nat.le_add_left 1 count) hmatches
          fun m hm hlast hmatches => hnone m hm hlast (Or.inl hmatches)
        obtain ⟨value, houtcome, _⟩ := hmatches
        rw [houtcome]
        apply Decided.matched (Nat.succ_le_of_lt hlt) hk.symm _ houtcome
        rw [hk, lt_firstAttempt_iff]
        intro m hm hlast hthrows
        rcases Nat.lt_or_eq_of_le hlast with hearlier | rfl
        · exact hnone m hm hearlier (Or.inr hthrows)
        · obtain ⟨_, err, herr⟩ := hthrows
          cases houtcome.symm.trans herr
      · have he := firstAttempt_eq (Nat.le_add_left 1 count) hthrows
          fun m hm hlast hthrows => hnone m hm hlast (Or.inr hthrows)
        obtain ⟨_, err, houtcome⟩ := hthrows
        rw [houtcome]
        apply Decided.threw (Nat.succ_le_of_lt hlt) he.symm _ houtcome
        rw [he, lt_firstAttempt_iff]
        intro m hm hlast hmatches
        rcases Nat.lt_or_eq_of_le hlast with hearlier | rfl
        · exact hnone m hm hearlier (Or.inl hmatches)
        · obtain ⟨value, hvalue, _⟩ := hmatches
          cases houtcome.symm.trans hvalue
  | exhausted hbefore htrace =>
      rw [Nat.zero_add] at hbefore
      have hnone : ∀ m, 1 ≤ m → m ≤ n →
          ¬(MatchesAt outcomes m ∨ ThrowsAt outcomes opts.tolerateErrors m) :=
        fun m hm hlast => (undecided_iff opts outcomes m).mp (hbefore m hm hlast)
      refine ⟨n, Decided.unmatched ?_ ?_, htrace⟩
      · rw [lt_firstAttempt_iff]
        exact fun m hm hlast hmatches => hnone m hm hlast (Or.inl hmatches)
      · rw [lt_firstAttempt_iff]
        exact fun m hm hlast hthrows => hnone m hm hlast (Or.inr hthrows)

omit [JsValue ε α] in
theorem oracleCheck_traces (outcomes : Nat → Except ε α) :
    Traces Probe.trace outcomes (oracleCheck outcomes) :=
  ⟨fun _ => rfl, fun _ => rfl, fun _ _ => rfl⟩

/-- What `eventually` makes of its poll. -/
inductive Waited : Except ε (Option α) → Except ε α → Prop where
  | matched (value : α) : Waited (.ok (some value)) (.ok value)
  | threw (err : ε) : Waited (.error err) (.error err)
  | unmatched (err : ε) : Waited (.ok none) (.error err)

/-- What `never` makes of its poll. -/
inductive Watched : Except ε (Option α) → Except ε Unit → Prop where
  | matched (value : α) (err : ε) : Watched (.ok (some value)) (.error err)
  | threw (err : ε) : Watched (.error err) (.error err)
  | unmatched : Watched (.ok none) (.ok ())

section Settle

variable [Host σ] [Thrown ε] (PARALLEL_WORKERS : Option String) (opts : PollOptions σ ε α)
  (message : String) (world : σ) {outcome : Except ε (Option α)}

/-- `eventually` leaves the world of its poll, up to the logger. -/
theorem eventually_waited {seen : Observed σ ε α}
    (hpoll : poll PARALLEL_WORKERS { opts with check := observing opts.check }
      ⟨Host.setLogger ((Host.logger world).load message).2 world, none, none⟩ = (outcome, seen)) :
    Waited outcome (eventually PARALLEL_WORKERS opts message world).1 ∧
      ((eventually PARALLEL_WORKERS opts message world).2 = seen.world ∨
        ∃ logger, (eventually PARALLEL_WORKERS opts message world).2 =
          Host.setLogger logger seen.world) := by
  simp only [eventually, hpoll]
  cases outcome with
  | error err => exact ⟨.threw err, Or.inl rfl⟩
  | ok result =>
      cases result with
      | none => exact ⟨.unmatched _, Or.inr ⟨_, rfl⟩⟩
      | some value => exact ⟨.matched value, Or.inr ⟨_, rfl⟩⟩

/-- `never` settles as its poll does, the other way about. -/
theorem never_watched {seen : Counted σ}
    (hpoll : poll PARALLEL_WORKERS { opts with check := counting opts.check }
      ⟨Host.setLogger ((Host.logger world).load message).2 world, 0⟩ = (outcome, seen)) :
    Watched outcome (never PARALLEL_WORKERS opts message world).1 ∧
      ((never PARALLEL_WORKERS opts message world).2 = seen.world ∨
        ∃ logger, (never PARALLEL_WORKERS opts message world).2 =
          Host.setLogger logger seen.world) := by
  simp only [never, hpoll]
  cases outcome with
  | error err => exact ⟨.threw err, Or.inl rfl⟩
  | ok result =>
      cases result with
      | none => exact ⟨.unmatched, Or.inr ⟨_, rfl⟩⟩
      | some value => exact ⟨.matched value _, Or.inr ⟨_, rfl⟩⟩

end Settle

omit [JsValue ε α] in
/-- The law, from how the polls of the two waits are decided. -/
theorem PollingLaw.of_decided {interval : Nat} {k e : ℕ∞} {waited : Except ε α × Probe}
    {watched : Except ε Unit × Probe} {polled polled' : Except ε (Option α)} {count count' : Nat}
    (hdecided : Decided outcomes n k e polled count)
    (hdecided' : Decided outcomes n k e polled' count') (hwaited : Waited polled waited.1)
    (hwatched : Watched polled' watched.1) (htrace : waited.2.trace = rounds interval count)
    (htrace' : watched.2.trace = rounds interval count') :
    PollingLaw outcomes n interval k e waited watched := by
  have hcount : count = count' :=
    Nat.cast_injective (hdecided.count_eq.trans hdecided'.count_eq.symm)
  subst hcount
  constructor
  case checks =>
    exact ⟨count, hdecided.count_eq, htrace ▸ checks_rounds interval count, htrace, htrace'⟩
  case threw =>
    intro hle hlt
    cases hdecided with
    | matched _ _ hkept houtcome => exact absurd hlt hkept.not_gt
    | unmatched _ hkept => exact absurd hle hkept.not_ge
    | @threw _ err _ he _ houtcome =>
        cases hdecided' with
        | matched _ _ hkept _ => exact absurd hlt hkept.not_gt
        | unmatched _ hkept => exact absurd hle hkept.not_ge
        | threw _ _ _ houtcome' =>
            obtain rfl := Except.error.inj (houtcome.symm.trans houtcome')
            generalize waited.1 = settled at hwaited ⊢
            generalize watched.1 = settled' at hwatched ⊢
            cases hwaited
            cases hwatched
            exact ⟨count, err, he, houtcome, rfl, rfl⟩
  case matched =>
    intro hle hlt
    cases hdecided with
    | threw _ _ hkept _ => exact absurd hlt hkept.not_gt
    | unmatched hkept _ => exact absurd hle hkept.not_ge
    | @matched _ value _ hk _ houtcome =>
        cases hdecided' with
        | threw _ _ hkept _ => exact absurd hlt hkept.not_gt
        | unmatched hkept _ => exact absurd hle hkept.not_ge
        | matched _ _ _ houtcome' =>
            generalize waited.1 = settled at hwaited ⊢
            generalize watched.1 = settled' at hwatched ⊢
            cases hwaited
            cases hwatched with
            | matched _ err => exact ⟨count, value, hk, houtcome, rfl, err, rfl⟩
  case unmatched =>
    intro hk he
    cases hdecided with
    | matched hle hkept _ _ => exact absurd hk (hkept ▸ (Nat.cast_le.mpr hle).not_gt)
    | threw hle hkept _ _ => exact absurd he (hkept ▸ (Nat.cast_le.mpr hle).not_gt)
    | unmatched _ _ =>
        cases hdecided' with
        | matched hle hkept _ _ => exact absurd hk (hkept ▸ (Nat.cast_le.mpr hle).not_gt)
        | threw hle hkept _ _ => exact absurd he (hkept ▸ (Nat.cast_le.mpr hle).not_gt)
        | unmatched _ _ =>
            generalize waited.1 = settled at hwaited ⊢
            generalize watched.1 = settled' at hwatched ⊢
            cases hwaited with
            | unmatched err =>
                cases hwatched
                exact ⟨⟨err, rfl⟩, rfl⟩

/-- The options of a wait for an oracle. -/
def oracleOptions (outcomes : Nat → Except ε α) (n : Nat) (interval : Option Nat)
    (tolerateErrors : Bool) : PollOptions Probe ε α :=
  { check := oracleCheck outcomes, interval, attempts := some n, tolerateErrors }

/-- How `eventually` settles against an oracle. -/
theorem eventually_decided [Thrown ε] (PARALLEL_WORKERS : Option String)
    (outcomes : Nat → Except ε α) (n : Nat) (interval : Option Nat) (tolerateErrors : Bool)
    (message : String) (logger : Logger) :
    ∃ polled count, Decided outcomes n (firstAttempt (MatchesAt outcomes))
        (firstAttempt (ThrowsAt outcomes tolerateErrors)) polled count ∧
      Waited polled (eventually PARALLEL_WORKERS
        (oracleOptions outcomes n interval tolerateErrors) message ⟨[], logger⟩).1 ∧
      (eventually PARALLEL_WORKERS (oracleOptions outcomes n interval tolerateErrors) message
        ⟨[], logger⟩).2.trace = rounds (interval.getD SECOND) count := by
  obtain ⟨count, hdecided, htrace⟩ := (pollLoop_ends
    { oracleOptions outcomes n interval tolerateErrors with
      check := observing (oracleCheck outcomes) } (oracleCheck_traces outcomes).observing n 0
    ⟨⟨[], (logger.load message).2⟩, none, none⟩ rfl).decided_at
  obtain ⟨hwaited, hworld⟩ := eventually_waited PARALLEL_WORKERS
    (oracleOptions outcomes n interval tolerateErrors) message ⟨[], logger⟩ rfl
  refine ⟨_, count, hdecided, hwaited, Eq.trans ?_ htrace⟩
  rcases hworld with hworld | ⟨logger, hworld⟩ <;> rw [hworld] <;> rfl

/-- `eventually` resolves with the first truthy outcome in its budget, unless an error that is not
tolerated comes first. -/
theorem eventually_resolves_iff [Thrown ε] (PARALLEL_WORKERS : Option String)
    (outcomes : Nat → Except ε α) (n : Nat) (interval : Option Nat) (tolerateErrors : Bool)
    (message : String) (logger : Logger) {settled : Except ε α × Probe}
    (hsettled : eventually PARALLEL_WORKERS
      (oracleOptions outcomes n interval tolerateErrors) message ⟨[], logger⟩ = settled) :
    ((∃ value, settled.1 = .ok value) ↔ firstAttempt (MatchesAt outcomes) ≤ n ∧
        firstAttempt (MatchesAt outcomes) < firstAttempt (ThrowsAt outcomes tolerateErrors)) ∧
      ((∃ value, settled.1 = .ok value) →
        (checks settled.2.trace : ℕ∞) = firstAttempt (MatchesAt outcomes)) := by
  obtain ⟨polled, count, hdecided, hwaited, htrace⟩ :=
    eventually_decided PARALLEL_WORKERS outcomes n interval tolerateErrors message logger
  rw [hsettled] at hwaited htrace
  rw [htrace, checks_rounds]
  generalize settled.1 = outcome at hwaited ⊢
  cases hdecided with
  | matched hle hfirst hlt houtcome =>
      cases hwaited
      exact ⟨iff_of_true ⟨_, rfl⟩ ⟨hfirst ▸ Nat.cast_le.mpr hle, hlt⟩, fun _ => hfirst⟩
  | threw hle hfirst hlt houtcome =>
      cases hwaited
      exact ⟨iff_of_false (fun hok => by cases hok.choose_spec) fun hmatch => hlt.asymm hmatch.2,
        fun hok => by cases hok.choose_spec⟩
  | unmatched hmatch hthrow =>
      cases hwaited
      exact ⟨iff_of_false (fun hok => by cases hok.choose_spec) fun hfirst =>
        hmatch.not_ge hfirst.1, fun hok => by cases hok.choose_spec⟩

/-- `eventually` and `never` poll an oracle alike and settle in opposite ways. -/
theorem eventually_never_pollingLaw [Thrown ε] (PARALLEL_WORKERS : Option String)
    (outcomes : Nat → Except ε α) (n : Nat) (interval : Option Nat) (tolerateErrors : Bool)
    (message : String) (logger : Logger) :
    PollingLaw outcomes n (interval.getD SECOND) (firstAttempt (MatchesAt outcomes))
      (firstAttempt (ThrowsAt outcomes tolerateErrors))
      (eventually PARALLEL_WORKERS (oracleOptions outcomes n interval tolerateErrors) message
        ⟨[], logger⟩)
      (never PARALLEL_WORKERS (oracleOptions outcomes n interval tolerateErrors) message
        ⟨[], logger⟩) := by
  obtain ⟨polled, count, hdecided, hwaited, htrace⟩ :=
    eventually_decided PARALLEL_WORKERS outcomes n interval tolerateErrors message logger
  obtain ⟨count', hdecided', htrace'⟩ := (pollLoop_ends
    { oracleOptions outcomes n interval tolerateErrors with
      check := counting (oracleCheck outcomes) } (oracleCheck_traces outcomes).counting n 0
    ⟨⟨[], (logger.load message).2⟩, 0⟩ rfl).decided_at
  obtain ⟨hwatched, hwatchedWorld⟩ := never_watched PARALLEL_WORKERS
    (oracleOptions outcomes n interval tolerateErrors) message ⟨[], logger⟩ rfl
  refine PollingLaw.of_decided hdecided hdecided' hwaited hwatched htrace (Eq.trans ?_ htrace')
  rcases hwatchedWorld with hworld | ⟨logger, hworld⟩ <;> rw [hworld] <;> rfl

end Law

end RaylsSuite.Common
