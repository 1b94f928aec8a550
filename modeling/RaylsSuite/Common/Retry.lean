import RaylsSuite.Entities.Logger

/-! # Asynchronous calls and the generic retry helper

An asynchronous function is modelled from its call to its settlement: it maps
the world at the call to an outcome and the world at the settlement. What the
surroundings do meanwhile, also during a sleep, is part of that map.
-/

namespace RaylsSuite.Common

open Entities

/-- A world in which a process can sleep and log. -/
class Host (σ : Type) where
  delay : Nat → σ → σ
  logger : σ → Logger
  setLogger : Logger → σ → σ

/-- A promise-returning function: it resolves with `.ok` or rejects with `.error`. -/
abbrev Async (σ ε α : Type) : Type := σ → Except ε α × σ

variable {σ ε α : Type}

structure RetryOptions (σ ε : Type) where
  attempts : Nat := 3
  delayMs : Nat := 3000
  onRetry : ε → Nat → σ → σ := fun _ _ world => world
  retryIf : Option (ε → Bool) := none

/-- `opts?.retryIf && !opts.retryIf(err)`. -/
def RetryOptions.refuses (options : RetryOptions σ ε) (err : ε) : Bool :=
  match options.retryIf with
  | none => false
  | some retryIf => !retryIf err

/-- The callback and the sleep between attempt `i` and the next one. -/
def RetryOptions.pause [Host σ] (options : RetryOptions σ ε) (err : ε) (i : Nat) (world : σ) : σ :=
  Host.delay options.delayMs (options.onRetry err i world)

/-- The loop of `retry` at attempt `i`, with `left` attempts still to make. -/
def retryLoop [Host σ] (options : RetryOptions σ ε) (fn : Async σ ε α) :
    Nat → Nat → ε → Async σ ε α
  | 0, _, lastErr => fun world => (.error lastErr, world)
  | left + 1, i, _ => fun world =>
      match fn world with
      | (.ok value, world) => (.ok value, world)
      | (.error err, world) =>
          if options.refuses err then (.error err, world)
          -- `if (i >= attempts) break`, then `throw lastErr`
          else if left = 0 then (.error err, world)
          else retryLoop options fn left (i + 1) err (options.pause err i world)

/-- Without an attempt the initial `lastErr`, which is undefined, is thrown. -/
def retry [Host σ] [Inhabited ε] (fn : Async σ ε α) (options : RetryOptions σ ε) : Async σ ε α :=
  retryLoop options fn options.attempts 1 default

section Loop

variable [Host σ] (options : RetryOptions σ ε) {fn : Async σ ε α} {world next : σ}
  (left i : Nat) (lastErr : ε)

theorem retryLoop_ok {value : α} (hfn : fn world = (.ok value, next)) :
    retryLoop options fn (left + 1) i lastErr world = (.ok value, next) := by
  simp only [retryLoop, hfn]

theorem retryLoop_refused {err : ε} (hfn : fn world = (.error err, next))
    (hrefused : options.refuses err = true) :
    retryLoop options fn (left + 1) i lastErr world = (.error err, next) := by
  simp only [retryLoop, hfn, hrefused, if_true]

theorem retryLoop_last {err : ε} (hfn : fn world = (.error err, next)) :
    retryLoop options fn 1 i lastErr world = (.error err, next) := by
  simp only [retryLoop, hfn, if_true, ite_self]

theorem retryLoop_again {err : ε} (hfn : fn world = (.error err, next))
    (hretried : options.refuses err = false) :
    retryLoop options fn (left + 2) i lastErr world =
      retryLoop options fn (left + 1) (i + 1) err (options.pause err i next) := by
  rw [retryLoop]
  simp [hfn, hretried]

end Loop

/-- What every call and every pause preserves holds when the retry settles. -/
theorem retryLoop_invariant [Host σ] (options : RetryOptions σ ε) {fn : Async σ ε α}
    (invariant : σ → Prop) (hfn : ∀ world, invariant world → invariant (fn world).2)
    (hpause : ∀ err i world, invariant world → invariant (options.pause err i world))
    (left i : Nat) (lastErr : ε) (world : σ) (hworld : invariant world) :
    invariant (retryLoop options fn left i lastErr world).2 := by
  induction left generalizing i lastErr world with
  | zero => exact hworld
  | succ left ih =>
      have hcalled := hfn world hworld
      rcases hsettled : fn world with ⟨err | value, next⟩ <;> rw [hsettled] at hcalled
      · cases hrefused : options.refuses err with
        | true => exact retryLoop_refused options left i lastErr hsettled hrefused ▸ hcalled
        | false =>
            cases left with
            | zero => exact retryLoop_last options i lastErr hsettled ▸ hcalled
            | succ left =>
                rw [retryLoop_again options left i lastErr hsettled hrefused]
                exact ih (i + 1) err _ (hpause err i next hcalled)
      · exact retryLoop_ok options left i lastErr hsettled ▸ hcalled

theorem retry_invariant [Host σ] [Inhabited ε] (options : RetryOptions σ ε) {fn : Async σ ε α}
    (invariant : σ → Prop) (hfn : ∀ world, invariant world → invariant (fn world).2)
    (hpause : ∀ err i world, invariant world → invariant (options.pause err i world))
    (world : σ) (hworld : invariant world) : invariant (retry fn options world).2 :=
  retryLoop_invariant options invariant hfn hpause options.attempts 1 default world hworld

/-- A sequence of tries that goes on while `again` holds, at most `limit` of them,
has one last try. -/
theorem lastTry_unique {again : Nat → Prop} {limit m n : Nat} (hm : m < limit) (hn : n < limit)
    (hbeforeM : ∀ j < m, again j) (hbeforeN : ∀ j < n, again j)
    (hstopM : again m → m + 1 = limit) (hstopN : again n → n + 1 = limit) : m = n := by
  rcases Nat.lt_trichotomy m n with hlt | heq | hgt
  · have hlast := hstopM (hbeforeN m hlt)
    omega
  · exact heq
  · have hlast := hstopN (hbeforeM n hgt)
    omega

/-! ## The trace of a retried oracle

The callbacks of the helpers are oracles: what the `n`-th call of a run does
does not depend on when the client makes it.
-/

/-- A function whose outcome depends only on how often it was called. -/
structure Oracle (fn : Async σ ε α) (calls : σ → Nat) (outcome : Nat → Except ε α) : Prop where
  outcome_eq : ∀ world, (fn world).1 = outcome (calls world)
  calls_eq : ∀ world, calls (fn world).2 = calls world + 1

/-- A pause that makes no call. -/
def RetryOptions.Quiet [Host σ] (options : RetryOptions σ ε) (calls : σ → Nat) : Prop :=
  ∀ err i world, calls (options.pause err i world) = calls world

/-- A failure that may be retried: an error that the options do not refuse. -/
def RetryOptions.Retries (options : RetryOptions σ ε) (outcome : Except ε α) : Prop :=
  ∃ err, outcome = .error err ∧ options.refuses err = false

theorem RetryOptions.not_retries_ok (options : RetryOptions σ ε) (value : α) :
    ¬ options.Retries (.ok value : Except ε α) := by
  rintro ⟨err, herr, _⟩
  cases herr

theorem RetryOptions.retries_error (options : RetryOptions σ ε) (err : ε) :
    options.Retries (.error err : Except ε α) ↔ options.refuses err = false := by
  constructor
  · rintro ⟨err', herr, hretried⟩
    cases herr
    exact hretried
  · exact fun hretried => ⟨err, rfl, hretried⟩

/-- The calls of a retried oracle, from its call number `first`: `k` failures that
are retried and a last call that decides the outcome. -/
structure RetryTrace (options : RetryOptions σ ε) (calls : σ → Nat) (outcome : Nat → Except ε α)
    (first k limit : Nat) (settled : Except ε α × σ) : Prop where
  lt_limit : k < limit
  retried : ∀ j < k, options.Retries (outcome (first + j))
  outcome_eq : settled.1 = outcome (first + k)
  calls_eq : calls settled.2 = first + k + 1
  stopped : options.Retries (outcome (first + k)) → k + 1 = limit

/-- The loop makes the calls up to the first that is not retried, and at most its attempts. -/
theorem retryLoop_trace [Host σ] (options : RetryOptions σ ε) {fn : Async σ ε α}
    {calls : σ → Nat} {outcome : Nat → Except ε α} (horacle : Oracle fn calls outcome)
    (hquiet : options.Quiet calls) (left i : Nat) (lastErr : ε) (world : σ) :
    ∃ k, RetryTrace options calls outcome (calls world) k (left + 1)
      (retryLoop options fn (left + 1) i lastErr world) := by
  have hnone : ∀ j < 0, options.Retries (outcome (calls world + j)) :=
    fun j hj => absurd hj (Nat.not_lt_zero j)
  have houtcome := horacle.outcome_eq world
  have hcalls := horacle.calls_eq world
  -- each retried failure shifts the trace of the rest by one call
  induction left generalizing i lastErr world with
  | zero =>
      refine ⟨0, Nat.zero_lt_one, hnone, ?_, ?_, fun _ => rfl⟩ <;>
        rcases hfn : fn world with ⟨err | value, next⟩ <;> rw [hfn] at houtcome hcalls
      · rw [retryLoop_last options i lastErr hfn]; exact houtcome
      · rw [retryLoop_ok options 0 i lastErr hfn]; exact houtcome
      · rw [retryLoop_last options i lastErr hfn]; exact hcalls
      · rw [retryLoop_ok options 0 i lastErr hfn]; exact hcalls
  | succ left ih =>
      rcases hfn : fn world with ⟨err | value, next⟩ <;> rw [hfn] at houtcome hcalls
      · cases hrefused : options.refuses err with
        | true =>
            rw [retryLoop_refused options _ i lastErr hfn hrefused]
            refine ⟨0, Nat.succ_pos _, hnone, houtcome, hcalls, ?_⟩
            rw [Nat.add_zero, ← houtcome, options.retries_error, hrefused]
            exact fun hfalse => by cases hfalse
        | false =>
            rw [retryLoop_again options left i lastErr hfn hrefused]
            have hpause : calls (options.pause err i next) = calls world + 1 :=
              (hquiet err i next).trans hcalls
            obtain ⟨k, htrace⟩ := ih (i + 1) err (options.pause err i next)
              (fun j hj => absurd hj (Nat.not_lt_zero j)) (horacle.outcome_eq _)
              (horacle.calls_eq _)
            rw [hpause] at htrace
            have hshift : ∀ j, calls world + 1 + j = calls world + (j + 1) := fun j => by omega
            refine ⟨k + 1, Nat.succ_lt_succ htrace.lt_limit, ?_, ?_, ?_, ?_⟩
            · intro j hj
              cases j with
              | zero => exact ⟨err, houtcome.symm, hrefused⟩
              | succ j => exact hshift j ▸ htrace.retried j (Nat.lt_of_succ_lt_succ hj)
            · exact hshift k ▸ htrace.outcome_eq
            · exact hshift k ▸ htrace.calls_eq
            · intro hretries
              exact congrArg Nat.succ (htrace.stopped (hshift k ▸ hretries))
      · rw [retryLoop_ok options _ i lastErr hfn]
        refine ⟨0, Nat.succ_pos _, hnone, houtcome, hcalls, ?_⟩
        rw [Nat.add_zero, ← houtcome]
        exact fun hretries => absurd hretries (options.not_retries_ok value)

/-- The calls of a retried oracle are those up to the first that is not
retried, and at most `attempts`; the outcome is that of the last call. -/
theorem retry_trace [Host σ] [Inhabited ε] (options : RetryOptions σ ε) {fn : Async σ ε α}
    {calls : σ → Nat} {outcome : Nat → Except ε α} (horacle : Oracle fn calls outcome)
    (hquiet : options.Quiet calls) (hattempts : 0 < options.attempts) (world : σ) :
    ∃ k, RetryTrace options calls outcome (calls world) k options.attempts
      (retry fn options world) := by
  obtain ⟨left, hleft⟩ := Nat.exists_eq_add_one.mpr hattempts
  rw [retry, hleft]
  exact retryLoop_trace options horacle hquiet left 1 default world

end RaylsSuite.Common
