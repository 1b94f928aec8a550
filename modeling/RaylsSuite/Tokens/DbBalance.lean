import RaylsSuite.Common.JsVal
import RaylsSuite.Common.PollingLaw
import RaylsSuite.Foundation.Number
import RaylsSuite.Foundation.Significand

/-! # The database check of a balance

`checkDbBalance` takes the expected balance as a number. It compares it with
the number that the node's stored balance converts to, and then the finalised
commitment on the hub with the one of the integer that it converts back to.
-/

namespace RaylsSuite.Tokens

open Common Config Entities Foundation

/-! ## Numbers -/

/-- Where integers are rounded to infinity. -/
@[irreducible] def overflow : Nat := 2 ^ 1024

/-- `Number(value)` of a bigint, or of the decimal text of one. -/
def toNumber (value : Nat) : Number :=
  if Significand.round 52 value < overflow then .finite (Significand.round 52 value) else .infinity

/-- `BigInt(value)` as a `uint256` argument: a number with a fraction or a sign, an infinity and
NaN have none. -/
def toUint256 : Number → Except JsVal Nat
  | .finite value =>
      if value = value.num.toNat then .ok value.num.toNat
      else .error (.error "RangeError" "The number cannot be converted to a BigInt")
  | _ => .error (.error "RangeError" "The number cannot be converted to a BigInt")

variable {value other : Nat}

/-- No 256-bit value rounds to infinity. -/
theorem round_lt_of_uint256 (hvalue : value < 2 ^ 256) :
    Significand.round 52 value < overflow := by
  have hlarge : 2 ^ 256 < overflow := by
    unfold overflow
    gcongr <;> decide
  by_cases hsmall : value < 2 ^ (52 + 1)
  · rw [Significand.round_of_lt hsmall]
    exact hvalue.trans hlarge
  · obtain ⟨e, hlow, hhigh⟩ := Significand.exists_bounds (not_lt.mp hsmall)
    have hbits : 52 + (e + 1) < 256 := (Nat.pow_lt_pow_iff_right (by decide)).mp
      (Nat.lt_of_le_of_lt hlow hvalue)
    have htop : 2 ^ (52 + (e + 1) + 1) ≤ 2 ^ 256 := Nat.pow_le_pow_right (by decide) hbits
    exact Nat.lt_of_le_of_lt ((Significand.round_le_two_pow hlow hhigh).trans htop) hlarge

theorem toNumber_of_uint256 (hvalue : value < 2 ^ 256) :
    toNumber value = .finite (Significand.round 52 value) :=
  if_pos (round_lt_of_uint256 hvalue)

/-- The bigints and texts that convert to the number of a `uint256`. -/
theorem toNumber_eq_iff (hvalue : value < 2 ^ 256) :
    toNumber other = toNumber value ↔
      Significand.round 52 other = Significand.round 52 value := by
  rw [toNumber_of_uint256 hvalue]
  unfold toNumber
  split
  next => rw [Number.finite.injEq, Rat.natCast_inj]
  next hlarge =>
    refine iff_of_false (fun heq => by cases heq) fun heq => hlarge ?_
    rw [heq]
    exact round_lt_of_uint256 hvalue

theorem toUint256_finite (value : Nat) : toUint256 (.finite value) = .ok value := by
  simp [toUint256]

/-! ## The check -/

/-- A row of the table `enygma`; its columns hold integers. -/
structure EnygmaRow where
  finalized_balance : Nat
  finalized_r : Nat
deriving DecidableEq, Repr

/-- The reads of the check for one token and node. -/
structure BalanceReads (σ : Type) where
  getEnygmaByResourceId : Async σ JsVal (Option EnygmaRow)
  getBalanceFinalised : Async σ JsVal (Nat × Nat)
  pedCom : Nat → Nat → Async σ JsVal (Nat × Nat)

variable {σ : Type}

/-- The first condition. -/
def BalanceReads.storedIs (reads : BalanceReads σ) (expectedBalance : Number) :
    Async σ JsVal Bool := fun world =>
  match reads.getEnygmaByResourceId world with
  | (.error err, world) => (.error err, world)
  | (.ok none, world) => (.ok false, world)
  | (.ok (some enygmaRow), world) =>
      (.ok (toNumber enygmaRow.finalized_balance = expectedBalance), world)

/-- The second condition. -/
def BalanceReads.commitmentIs (reads : BalanceReads σ) (expectedBalance : Number) :
    Async σ JsVal Bool := fun world =>
  match reads.getBalanceFinalised world with
  | (.error err, world) => (.error err, world)
  | (.ok balanceFromEnygma, world) =>
      if balanceFromEnygma.1 = 0 then (.ok false, world)
      else
        match reads.getEnygmaByResourceId world with
        | (.error err, world) => (.error err, world)
        | (.ok none, world) => (.ok false, world)
        | (.ok (some enygmaRow), world) =>
            match toUint256 expectedBalance with
            | .error err => (.error err, world)
            | .ok balance =>
                match reads.pedCom balance enygmaRow.finalized_r world with
                | (.error err, world) => (.error err, world)
                | (.ok pedersenCommitment, world) =>
                    (.ok (balanceFromEnygma = pedersenCommitment), world)

def checkDbBalance [Host σ] (USE_DB_CHECKS : Bool) (PARALLEL_WORKERS : Option String)
    (symbol chainId : String) (reads : BalanceReads σ) (expectedBalance : Number) :
    Async σ JsVal Unit := fun world =>
  if USE_DB_CHECKS = false then (.ok (), world)
  else
    match eventually PARALLEL_WORKERS { check := reads.storedIs expectedBalance }
        s!"Checking {symbol} R in DB (chain={chainId})" world with
    | (.error err, world) => (.error err, world)
    | (.ok _, world) =>
        match eventually PARALLEL_WORKERS { check := reads.commitmentIs expectedBalance }
            s!"Checking {symbol} Pedersen commitments (chain={chainId})" world with
        | (.error err, world) => (.error err, world)
        | (.ok _, world) => (.ok (), world)

/-! ## Against settled balances -/

/-- The reads of a node whose row and commitment do not change: the stored balance, the balance
that is committed to, and the randomness of both. -/
def settledReads (stored balance r : Nat) (pedCom : Nat → Nat → Nat × Nat) : BalanceReads σ where
  getEnygmaByResourceId world := (.ok (some ⟨stored, r⟩), world)
  getBalanceFinalised world := (.ok (pedCom balance r), world)
  pedCom balance r world := (.ok (pedCom balance r), world)

theorem default_budget_pos (PARALLEL_WORKERS : Option String) (check : Async σ JsVal Bool) :
    0 < PollOptions.budget PARALLEL_WORKERS { check } := by
  change 0 < DEFAULT_TIMEOUT PARALLEL_WORKERS / SECOND
  rw [DEFAULT_TIMEOUT_seconds]
  have := TIMEOUT_MULTIPLIER_pos PARALLEL_WORKERS
  omega

section Settled

variable [Host σ] (PARALLEL_WORKERS : Option String) (symbol chainId : String) (world : σ)
  {pedCom : Nat → Nat → Nat × Nat} (stored balance r : Nat) {expectedBalance : Nat}

/-- The check passes when each of its waits does. -/
theorem checkDbBalance_ok_iff {reads : BalanceReads σ} {expected : Number} {first second : Bool}
    (hfirst : ∀ world, (reads.storedIs expected world).1 = .ok first)
    (hsecond : ∀ world, (reads.commitmentIs expected world).1 = .ok second) :
    (checkDbBalance true PARALLEL_WORKERS symbol chainId reads expected world).1 = .ok () ↔
      first = true ∧ second = true := by
  have hstored := fun message world => eventually_constant PARALLEL_WORKERS
    { check := reads.storedIs expected } hfirst (default_budget_pos _ _) message world
  have hcommitment := fun message world => eventually_constant PARALLEL_WORKERS
    { check := reads.commitmentIs expected } hsecond (default_budget_pos _ _) message world
  simp only [checkDbBalance, Bool.true_eq_false, if_false]
  rcases hwait : eventually PARALLEL_WORKERS { check := reads.storedIs expected }
      s!"Checking {symbol} R in DB (chain={chainId})" world with ⟨err | value, after⟩
  · refine iff_of_false (fun heq => by cases heq) ?_
    rintro ⟨rfl, -⟩
    cases (congrArg Prod.fst hwait).symm.trans ((hstored _ world true).mpr ⟨rfl, rfl⟩)
  · obtain ⟨hvalue, htrue⟩ := (hstored _ world value).mp (congrArg Prod.fst hwait)
    obtain rfl := Except.ok.inj hvalue
    rw [and_iff_right (show first = true from htrue)]
    dsimp only
    rcases hwait' : eventually PARALLEL_WORKERS { check := reads.commitmentIs expected }
        s!"Checking {symbol} Pedersen commitments (chain={chainId})" after with
        ⟨err | value, last⟩
    · refine iff_of_false (fun heq => by cases heq) ?_
      rintro rfl
      cases (congrArg Prod.fst hwait').symm.trans ((hcommitment _ after true).mpr ⟨rfl, rfl⟩)
    · obtain ⟨hvalue, htrue⟩ := (hcommitment _ after value).mp (congrArg Prod.fst hwait')
      obtain rfl := Except.ok.inj hvalue
      exact iff_of_true rfl htrue

/-- What the check compares: the stored balance up to rounding, and the committed one with the
rounded expectation. -/
theorem checkDbBalance_passes_iff (hinj : ∀ r, Function.Injective fun balance => pedCom balance r)
    (hexpected : expectedBalance < 2 ^ 256) :
    (checkDbBalance true PARALLEL_WORKERS symbol chainId (settledReads stored balance r pedCom)
        (toNumber expectedBalance) world).1 = .ok () ↔
      Significand.round 52 stored = Significand.round 52 expectedBalance ∧
        balance = Significand.round 52 expectedBalance ∧ (pedCom balance r).1 ≠ 0 := by
  have hstored : ∀ world : σ, ((settledReads stored balance r pedCom).storedIs
      (toNumber expectedBalance) world).1 =
        .ok (decide (toNumber stored = toNumber expectedBalance)) := fun _ => rfl
  have hcommitment : ∀ world : σ, ((settledReads stored balance r pedCom).commitmentIs
      (toNumber expectedBalance) world).1 = .ok (decide ((pedCom balance r).1 ≠ 0 ∧
        pedCom balance r = pedCom (Significand.round 52 expectedBalance) r)) := by
    intro world
    rw [toNumber_of_uint256 hexpected]
    simp only [BalanceReads.commitmentIs, settledReads, toUint256_finite]
    split
    next hzero => simp [hzero]
    next hne => simp [hne]
  rw [checkDbBalance_ok_iff PARALLEL_WORKERS symbol chainId world hstored hcommitment,
    decide_eq_true_iff, decide_eq_true_iff, toNumber_eq_iff hexpected]
  constructor
  · rintro ⟨hround, hne, hsame⟩
    exact ⟨hround, hinj r hsame, hne⟩
  · rintro ⟨hround, heq, hne⟩
    exact ⟨hround, hne, congrArg (pedCom · r) heq⟩

end Settled

/-- The check of an expected balance is exact, whatever is stored and committed to, exactly if
no other integer converts to the same number and it has no commitment whose first part is zero. -/
theorem checkDbBalance_exact_iff [Host σ] (PARALLEL_WORKERS : Option String)
    (symbol chainId : String) (world : σ) (pedCom : Nat → Nat → Nat × Nat)
    (hinj : ∀ r, Function.Injective fun balance => pedCom balance r) (expectedBalance : Nat)
    (hexpected : expectedBalance < 2 ^ 256) :
    (∀ stored balance r,
      (checkDbBalance true PARALLEL_WORKERS symbol chainId (settledReads stored balance r pedCom)
        (toNumber expectedBalance) world).1 = .ok () ↔
        stored = expectedBalance ∧ balance = expectedBalance) ↔
      (expectedBalance < 2 ^ 53 ∨ expectedBalance < 2 ^ 54 ∧ expectedBalance % 4 = 2) ∧
        ∀ r, (pedCom expectedBalance r).1 ≠ 0 := by
  simp only [checkDbBalance_passes_iff PARALLEL_WORKERS symbol chainId world _ _ _ hinj hexpected]
  rw [← Significand.alone_iff (f := 52)]
  constructor
  · intro hexact
    have hheld : Significand.round 52 expectedBalance = expectedBalance :=
      ((hexact expectedBalance expectedBalance 0).mpr ⟨rfl, rfl⟩).2.1.symm
    have hne : ∀ r, (pedCom expectedBalance r).1 ≠ 0 :=
      fun r => ((hexact expectedBalance expectedBalance r).mpr ⟨rfl, rfl⟩).2.2
    refine ⟨⟨hheld, fun stored hround => ?_⟩, hne⟩
    exact ((hexact stored expectedBalance 0).mp
      ⟨hround.trans hheld.symm, hheld.symm, hne 0⟩).1
  · rintro ⟨⟨hheld, halone⟩, hne⟩ stored balance r
    rw [hheld]
    constructor
    · rintro ⟨hround, hbalance, -⟩
      exact ⟨halone stored hround, hbalance⟩
    · rintro ⟨rfl, rfl⟩
      exact ⟨hheld, rfl, hne r⟩

/-- A small expectation. -/
theorem checkDbBalance_exact_iff_small :
    (∀ stored balance r, (checkDbBalance true none "TOK" "1"
      (settledReads stored balance r fun balance r => (balance + 1, r)) (toNumber 1000)
      (⟨[], .new⟩ : Probe)).1 = .ok () ↔ stored = 1000 ∧ balance = 1000) ↔
      (1000 < 2 ^ 53 ∨ 1000 < 2 ^ 54 ∧ 1000 % 4 = 2) ∧ ∀ _ : Nat, 1000 + 1 ≠ 0 :=
  checkDbBalance_exact_iff none "TOK" "1" _ _
    (fun _ _ _ heq => Nat.succ_injective (Prod.mk.inj heq).1) 1000 (by decide)

/-- One token of 18 decimals is expected, and the check passes with one unit more stored. -/
theorem checkDbBalance_passes_inexact :
    (checkDbBalance true none "TOK" "1" (settledReads 1000000000000000001 1000000000000000000 7
      fun balance r => (balance + 1, r)) (toNumber 1000000000000000000)
      (⟨[], .new⟩ : Probe)).1 = .ok () := by
  refine (checkDbBalance_passes_iff none "TOK" "1" _ _ _ _ ?_ (by decide)).mpr ?_
  · exact fun _ _ _ heq => Nat.succ_injective (Prod.mk.inj heq).1
  · exact ⟨by decide, by decide, Nat.succ_ne_zero _⟩

end RaylsSuite.Tokens
