import RaylsSuite.Common.BlockChainExceptions
import RaylsSuite.Common.Retry
import RaylsSuite.Config.EnvConfig

/-! # Polling

The waits of the suite poll a check. The variables of a wait that its check
assigns are part of the world in which the check runs.
-/

namespace RaylsSuite.Common

open Config Entities

/-- A type of JavaScript values, as a condition and `JSON.stringify` see them. -/
class JsValue (ε α : Type) where
  truthy : α → Bool
  /-- The text of `JSON.stringify(value)`, which throws on some values. -/
  stringify : α → Except ε String

/-- A type of thrown values, any of which may be undefined. -/
class Thrown (ε : Type) where
  newError : String → ε
  isUndefined : ε → Bool
  /-- `err?.message ?? String(err)`, which throws on some values. -/
  describe : ε → Except ε String

instance {ε : Type} : JsValue ε Bool := ⟨id, fun value => .ok (toString value)⟩

instance : Thrown JsError :=
  ⟨JsError.new, fun err => err = default, fun err => .ok (err.message.getD "[object Object]")⟩

structure PollOptions (σ ε α : Type) where
  check : Async σ ε α
  interval : Option Nat := none
  attempts : Option Nat := none
  tolerateErrors : Bool := false

variable {σ ε α : Type} (PARALLEL_WORKERS : Option String)

namespace PollOptions

/-- `opts.interval ?? SECOND`. -/
def intervalMs (opts : PollOptions σ ε α) : Nat := opts.interval.getD SECOND

/-- `opts.attempts ?? DEFAULT_TIMEOUT / SECOND`. -/
def budget (opts : PollOptions σ ε α) : Nat :=
  opts.attempts.getD (DEFAULT_TIMEOUT PARALLEL_WORKERS / SECOND)

/-- `if (i < attempts) await delay(interval)`, with `left` attempts after the `i`-th. -/
def pause [Host σ] (opts : PollOptions σ ε α) (left : Nat) (world : σ) : σ :=
  if left = 0 then world else Host.delay opts.intervalMs world

end PollOptions

/-- The loop of `poll` with `left` attempts still to make. -/
def pollLoop [Host σ] [JsValue ε α] (opts : PollOptions σ ε α) : Nat → Async σ ε (Option α)
  | 0 => fun world => (.ok none, world)
  | left + 1 => fun world =>
      match opts.check world with
      | (.ok result, world) =>
          if JsValue.truthy ε result then (.ok (some result), world)
          else pollLoop opts left (opts.pause left world)
      | (.error err, world) =>
          if opts.tolerateErrors then pollLoop opts left (opts.pause left world)
          else (.error err, world)

def poll [Host σ] [JsValue ε α] (opts : PollOptions σ ε α) : Async σ ε (Option α) :=
  pollLoop opts (opts.budget PARALLEL_WORKERS)

/-- The world of a wait with its variables `lastValue` and `lastError`. -/
structure Observed (σ ε α : Type) where
  world : σ
  lastValue : Option α
  lastError : Option ε

instance [Host σ] : Host (Observed σ ε α) where
  delay ms seen := { seen with world := Host.delay ms seen.world }
  logger seen := Host.logger seen.world
  setLogger logger seen := { seen with world := Host.setLogger logger seen.world }

/-- The check that `eventually` polls. -/
def observing [JsValue ε α] (check : Async σ ε α) : Async (Observed σ ε α) ε α := fun seen =>
  match check seen.world with
  | (.ok v, world) =>
      (.ok v, if JsValue.truthy ε v then { seen with world }
        else { seen with world, lastValue := some v })
  | (.error err, world) => (.error err, { seen with world, lastError := some err })

/-- `last observed: ${JSON.stringify(lastValue)}`. -/
def Observed.lastObserved [JsValue ε α] (seen : Observed σ ε α) : Except ε String :=
  match seen.lastValue with
  | none => .ok "last observed: undefined"
  | some value => (JsValue.stringify value).map fun text => s!"last observed: {text}"

def Observed.observed [JsValue ε α] [Thrown ε] (seen : Observed σ ε α) : Except ε String :=
  match seen.lastError with
  | none => seen.lastObserved
  | some err =>
      if Thrown.isUndefined err then seen.lastObserved
      else (Thrown.describe err).map fun text => s!"last error: {text}"

/-- The error at exhaustion, or what rendering it throws. -/
def exhaustion [JsValue ε α] [Thrown ε] (message : String) (attempts interval : Nat)
    (seen : Observed σ ε α) : ε :=
  match seen.observed with
  | .error err => err
  | .ok observed =>
      Thrown.newError
        s!"{message} (after {attempts} attempts, {interval} ms interval, {observed})"

def eventually [Host σ] [JsValue ε α] [Thrown ε] (opts : PollOptions σ ε α) (message : String) :
    Async σ ε α := fun world =>
  let load := (Host.logger world).load message
  let seen : Observed σ ε α := ⟨Host.setLogger load.2 world, none, none⟩
  match poll PARALLEL_WORKERS { opts with check := observing opts.check } seen with
  -- the load of a wait that the check's own error ends stays open
  | (.error err, seen) => (.error err, seen.world)
  | (.ok (some result), seen) =>
      let logger := (Host.logger seen.world).loadSuccess load.1
      (.ok result, Host.setLogger logger seen.world)
  | (.ok none, seen) =>
      let logger := (Host.logger seen.world).loadError load.1
      (.error (exhaustion message (opts.budget PARALLEL_WORKERS) opts.intervalMs seen),
        Host.setLogger logger seen.world)

/-- The world of an invariant wait with its variable `attemptNumber`. -/
structure Counted (σ : Type) where
  world : σ
  attemptNumber : Nat

instance [Host σ] : Host (Counted σ) where
  delay ms seen := { seen with world := Host.delay ms seen.world }
  logger seen := Host.logger seen.world
  setLogger logger seen := { seen with world := Host.setLogger logger seen.world }

/-- The check that `never` polls. -/
def counting (check : Async σ ε α) : Async (Counted σ) ε α := fun seen =>
  ((check seen.world).1, ⟨(check seen.world).2, seen.attemptNumber + 1⟩)

/-- The error at a match, or what rendering it throws. -/
def violation [JsValue ε α] [Thrown ε] (message : String) (attemptNumber : Nat) (result : α) : ε :=
  match JsValue.stringify result with
  | .error err => err
  | .ok text =>
      Thrown.newError
        s!"{message} — condition matched at attempt {attemptNumber} (value: {text})"

def never [Host σ] [JsValue ε α] [Thrown ε] (opts : PollOptions σ ε α) (message : String) :
    Async σ ε Unit := fun world =>
  let load := (Host.logger world).load message
  let seen : Counted σ := ⟨Host.setLogger load.2 world, 0⟩
  match poll PARALLEL_WORKERS { opts with check := counting opts.check } seen with
  | (.error err, seen) => (.error err, seen.world)
  | (.ok none, seen) =>
      let logger := (Host.logger seen.world).loadSuccess load.1
      (.ok (), Host.setLogger logger seen.world)
  | (.ok (some result), seen) =>
      let logger := (Host.logger seen.world).loadError load.1
      (.error (violation message seen.attemptNumber result), Host.setLogger logger seen.world)

/-! ## How a wait settles -/

/-- A check that leaves its poll undecided: a falsy value or a tolerated error. -/
def PollOptions.Undecided [JsValue ε α] (opts : PollOptions σ ε α) : Except ε α → Prop
  | .ok value => JsValue.truthy ε value = false
  | .error _ => opts.tolerateErrors = true

/-- What holds of the world before the `i`-th attempt of a poll, counted from zero:
an undecided check and a delay keep it. -/
structure Waiting [Host σ] [JsValue ε α] (opts : PollOptions σ ε α)
    (waiting : Nat → σ → Prop) : Prop where
  checked : ∀ i world, waiting i world → opts.Undecided (opts.check world).1 →
    waiting (i + 1) (opts.check world).2
  delayed : ∀ i world ms, waiting i world → waiting i (Host.delay ms world)

/-- How a poll of `attempts` attempts settles: by its first check that decides, or by
exhaustion. -/
inductive Polled [JsValue ε α] (opts : PollOptions σ ε α) (attempts : Nat)
    (waiting : Nat → σ → Prop) : Except ε (Option α) × σ → Prop where
  | matched {i : Nat} {before after : σ} {value : α} : i < attempts → waiting i before →
      opts.check before = (.ok value, after) → JsValue.truthy ε value = true →
      Polled opts attempts waiting (.ok (some value), after)
  | threw {i : Nat} {before after : σ} {err : ε} : i < attempts → waiting i before →
      opts.check before = (.error err, after) → opts.tolerateErrors = false →
      Polled opts attempts waiting (.error err, after)
  | exhausted {after : σ} : waiting attempts after → Polled opts attempts waiting (.ok none, after)

theorem Waiting.pause [Host σ] [JsValue ε α] {opts : PollOptions σ ε α}
    {waiting : Nat → σ → Prop} (hwaiting : Waiting opts waiting) (left i : Nat) {world : σ}
    (hworld : waiting i world) : waiting i (opts.pause left world) := by
  unfold PollOptions.pause
  split
  next => exact hworld
  next => exact hwaiting.delayed i world _ hworld

/-- The loop settles by its first check that decides, or is exhausted. -/
theorem pollLoop_polled [Host σ] [JsValue ε α] {opts : PollOptions σ ε α}
    {waiting : Nat → σ → Prop} (hwaiting : Waiting opts waiting) (left i : Nat) {world : σ}
    (hworld : waiting i world) : Polled opts (i + left) waiting (pollLoop opts left world) := by
  induction left generalizing i world with
  | zero => exact .exhausted hworld
  | succ left ih =>
      have hlt : i < i + (left + 1) := by omega
      have hchecked := hwaiting.checked i world hworld
      have hrest : ∀ after, waiting (i + 1) after →
          Polled opts (i + (left + 1)) waiting (pollLoop opts left (opts.pause left after)) := by
        intro after hafter
        have hpolled := ih (i + 1) (hwaiting.pause left (i + 1) hafter)
        rwa [Nat.add_assoc, Nat.add_comm 1 left] at hpolled
      rcases hcheck : opts.check world with ⟨err | value, after⟩ <;> rw [hcheck] at hchecked
      · cases htolerated : opts.tolerateErrors with
        | false =>
            simpa [pollLoop, hcheck, htolerated] using
              Polled.threw hlt hworld hcheck htolerated
        | true => simpa [pollLoop, hcheck, htolerated] using hrest after (hchecked htolerated)
      · cases htruthy : JsValue.truthy ε value with
        | true =>
            simpa [pollLoop, hcheck, htruthy] using Polled.matched hlt hworld hcheck htruthy
        | false => simpa [pollLoop, hcheck, htruthy] using hrest after (hchecked htruthy)

theorem poll_polled [Host σ] [JsValue ε α] {opts : PollOptions σ ε α}
    {waiting : Nat → σ → Prop} (hwaiting : Waiting opts waiting) (world : σ)
    (hworld : waiting 0 world) :
    Polled opts (opts.budget PARALLEL_WORKERS) waiting (poll PARALLEL_WORKERS opts world) := by
  have hpolled := pollLoop_polled hwaiting (opts.budget PARALLEL_WORKERS) 0 hworld
  rwa [Nat.zero_add] at hpolled

/-- How an eventual wait settles, the bookkeeping of its load apart. -/
inductive Awaited [Host σ] [JsValue ε α] (opts : PollOptions σ ε α) (attempts : Nat)
    (waiting : Nat → σ → Prop) : Except ε α × σ → Prop where
  | resolved {i : Nat} {before after : σ} {value : α} (logger : Logger) : i < attempts →
      waiting i before → opts.check before = (.ok value, after) →
      JsValue.truthy ε value = true →
      Awaited opts attempts waiting (.ok value, Host.setLogger logger after)
  | rejected {i : Nat} {before after : σ} {err : ε} : i < attempts → waiting i before →
      opts.check before = (.error err, after) → opts.tolerateErrors = false →
      Awaited opts attempts waiting (.error err, after)
  | exhausted {after : σ} (err : ε) (logger : Logger) : waiting attempts after →
      Awaited opts attempts waiting (.error err, Host.setLogger logger after)

section Wait

variable [Host σ] [JsValue ε α] {opts : PollOptions σ ε α} {waiting : Nat → σ → Prop}

omit [Host σ] in
theorem observing_outcome (check : Async σ ε α) (seen : Observed σ ε α) :
    (observing check seen).1 = (check seen.world).1 := by
  unfold observing
  split
  next hcheck => rw [hcheck]
  next hcheck => rw [hcheck]

omit [Host σ] in
theorem observing_world (check : Async σ ε α) (seen : Observed σ ε α) :
    (observing check seen).2.world = (check seen.world).2 := by
  unfold observing
  split
  next hcheck =>
    rw [hcheck]
    split_ifs <;> rfl
  next hcheck => rw [hcheck]

omit [Host σ] in
theorem check_of_observing {before after : Observed σ ε α} {outcome : Except ε α}
    (hcheck : observing opts.check before = (outcome, after)) :
    opts.check before.world = (outcome, after.world) := by
  apply Prod.ext
  · rw [← observing_outcome, hcheck]
  · rw [← observing_world, hcheck]

/-- The wait's own variables do not change what its check keeps. -/
theorem Waiting.observed (hwaiting : Waiting opts waiting) :
    Waiting { opts with check := observing opts.check }
      fun i (seen : Observed σ ε α) => waiting i seen.world where
  checked i seen hseen hundecided := by
    rw [observing_world]
    rw [observing_outcome] at hundecided
    apply hwaiting.checked i seen.world hseen
    -- the two records of options tolerate the same errors
    cases houtcome : (opts.check seen.world).1 <;> rw [houtcome] at hundecided <;>
      exact hundecided
  delayed i seen ms hseen := hwaiting.delayed i seen.world ms hseen

/-- An eventual wait settles as its check does at the first attempt that decides, and
with an error when none of its attempts does. -/
theorem eventually_awaited [Thrown ε] (hwaiting : Waiting opts waiting)
    (hlogger : ∀ world logger, waiting 0 world → waiting 0 (Host.setLogger logger world))
    (message : String) (world : σ) (hworld : waiting 0 world) :
    Awaited opts (opts.budget PARALLEL_WORKERS) waiting
      (eventually PARALLEL_WORKERS opts message world) := by
  have hpolled := poll_polled PARALLEL_WORKERS hwaiting.observed
    ⟨Host.setLogger ((Host.logger world).load message).2 world, none, none⟩
    (hlogger world _ hworld)
  simp only [eventually]
  generalize poll PARALLEL_WORKERS { opts with check := observing opts.check } _ = settled
    at hpolled ⊢
  cases hpolled with
  | matched hlt hbefore hcheck htruthy =>
      exact .resolved _ hlt hbefore (check_of_observing hcheck) htruthy
  | threw hlt hbefore hcheck htolerated =>
      exact .rejected hlt hbefore (check_of_observing hcheck) htolerated
  | exhausted hafter => exact .exhausted _ _ hafter

/-- A wait whose check never yields a truthy value ends with an error. -/
theorem eventually_unmatched [Thrown ε] (opts : PollOptions σ ε α) (keeps : σ → Prop)
    (hchecked : ∀ world, keeps world → keeps (opts.check world).2)
    (hdelayed : ∀ world ms, keeps world → keeps (Host.delay ms world))
    (hlogged : ∀ world logger, keeps world → keeps (Host.setLogger logger world))
    (hfalsy : ∀ world value, keeps world → (opts.check world).1 = .ok value →
      JsValue.truthy ε value = false)
    (message : String) (world : σ) (hworld : keeps world) :
    ∃ err after, eventually PARALLEL_WORKERS opts message world = (.error err, after) := by
  have hwaiting : Waiting opts fun _ => keeps :=
    ⟨fun _ world hkept _ => hchecked world hkept, fun _ world ms => hdelayed world ms⟩
  have hawaited := eventually_awaited PARALLEL_WORKERS hwaiting hlogged message world hworld
  generalize eventually PARALLEL_WORKERS opts message world = settled at hawaited ⊢
  cases hawaited with
  | @resolved i before after value logger hlt hbefore hcheck htruthy =>
      rw [hfalsy before value hbefore (congrArg Prod.fst hcheck)] at htruthy
      cases htruthy
  | rejected hlt hbefore hcheck htolerated => exact ⟨_, _, rfl⟩
  | exhausted err logger hafter => exact ⟨_, _, rfl⟩

/-- A poll ends with its first check if that is truthy. -/
theorem poll_first (opts : PollOptions σ ε α) {world : σ} {value : α}
    (hbudget : 0 < opts.budget PARALLEL_WORKERS) (hcheck : (opts.check world).1 = .ok value)
    (htruthy : JsValue.truthy ε value = true) :
    (poll PARALLEL_WORKERS opts world).1 = .ok (some value) := by
  obtain ⟨left, hleft⟩ := Nat.exists_eq_succ_of_ne_zero (Nat.ne_of_gt hbudget)
  rw [poll, hleft]
  simp only [pollLoop]
  generalize opts.check world = checked at hcheck ⊢
  obtain ⟨result, after⟩ := checked
  obtain rfl : result = .ok value := hcheck
  simp only [htruthy, if_true]

/-- A wait whose check always ends alike resolves exactly if that is with a truthy value. -/
theorem eventually_constant [Thrown ε] (opts : PollOptions σ ε α) {outcome : Except ε α}
    (hcheck : ∀ world, (opts.check world).1 = outcome) (hbudget : 0 < opts.budget PARALLEL_WORKERS)
    (message : String) (world : σ) (value : α) :
    (eventually PARALLEL_WORKERS opts message world).1 = .ok value ↔
      outcome = .ok value ∧ JsValue.truthy ε value = true := by
  constructor
  · intro hresolved
    have hwaiting : Waiting opts fun _ _ => True :=
      ⟨fun _ _ _ _ => trivial, fun _ _ _ _ => trivial⟩
    have hawaited := eventually_awaited PARALLEL_WORKERS hwaiting (fun _ _ _ => trivial) message
      world trivial
    generalize eventually PARALLEL_WORKERS opts message world = settled at hawaited hresolved
    cases hawaited with
    | resolved logger hlt hbefore hmatched htruthy =>
        obtain rfl := Except.ok.inj hresolved
        exact ⟨(hcheck _).symm.trans (congrArg Prod.fst hmatched), htruthy⟩
    | rejected hlt hbefore hthrew htolerated => cases hresolved
    | exhausted err logger hafter => cases hresolved
  · rintro ⟨rfl, htruthy⟩
    simp only [eventually]
    have hsettled : (poll PARALLEL_WORKERS { opts with check := observing opts.check }
        ⟨Host.setLogger ((Host.logger world).load message).2 world, none, none⟩).1 =
        .ok (some value) :=
      poll_first PARALLEL_WORKERS { opts with check := observing opts.check } hbudget
        ((observing_outcome opts.check _).trans (hcheck _)) htruthy
    generalize poll PARALLEL_WORKERS { opts with check := observing opts.check } _ = settled
      at hsettled ⊢
    obtain ⟨result, after⟩ := settled
    obtain rfl : result = .ok (some value) := hsettled
    rfl

end Wait

end RaylsSuite.Common
