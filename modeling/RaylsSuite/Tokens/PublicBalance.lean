import RaylsSuite.Common.Formatters
import RaylsSuite.Common.JsVal
import RaylsSuite.Common.PollingLaw

/-! # The wait for a public balance

`verifyPublicBalance` announces that it waits for an expected balance, but the
check that it polls is the balance itself, a condition that every balance other
than zero meets. The comparison with the expected one comes after the poll.
-/

namespace RaylsSuite.Tokens

open Common Config Entities Foundation

/-- A bigint, as a condition and in a diagnostic. -/
instance : JsValue JsVal Int :=
  ⟨fun value => (JsVal.bigint value).truthy, fun value => (JsVal.bigint value).stringify⟩

theorem truthy_bigint (value : Int) : JsValue.truthy JsVal value = true ↔ value ≠ 0 := by
  simp [JsValue.truthy, JsVal.truthy]

variable {σ : Type} (PARALLEL_WORKERS : Option String)

/-- The part of a token wrapper that its public balance is read with. -/
structure PublicToken (σ : Type) where
  symbol : String
  getPublicAddress : Async σ JsVal String
  balanceOf : Async σ JsVal Int

/-- How chai shows a bigint: it cuts off what is behind the first 38 of more than 39 characters. -/
def inspectBigInt (value : Int) : String :=
  let digits := toString value
  if 39 < digits.length then String.ofList (digits.toList.take 38) ++ "…n" else digits ++ "n"

/-- The message of chai's failed `expect(balance).to.be.eq(expected)`. -/
def assertionError (publicBal expectedBalance : Int) : JsVal :=
  .error "AssertionError"
    s!"expected {inspectBigInt publicBal} to equal {inspectBigInt expectedBalance}"

/-- `expect(publicBal).to.be.eq(expectedBalance)` behind an await. -/
def expectBalance (expectedBalance : Int) : Except JsVal Int → Except JsVal Unit
  | .error err => .error err
  | .ok publicBal =>
      if publicBal = expectedBalance then .ok ()
      else .error (assertionError publicBal expectedBalance)

def balanceMessage (symbol tokenAddressInPC : String) (expectedBalance : Int) : String :=
  s!"Waiting for {symbol} public balance → {expectedBalance} (token={shortHex tokenAddressInPC})"

/-- The wait and the assertion behind it. -/
def PublicToken.awaitBalance [Host σ] (token : PublicToken σ) (tokenAddressInPC : String)
    (expectedBalance : Int) : Async σ JsVal Unit := fun world =>
  let waited := eventually PARALLEL_WORKERS
    { check := token.balanceOf, interval := some 3000, attempts := some 30 }
    (balanceMessage token.symbol tokenAddressInPC expectedBalance) world
  (expectBalance expectedBalance waited.1, waited.2)

def verifyPublicBalance [Host σ] (token : PublicToken σ) (expectedBalance : Int) :
    Async σ JsVal Unit := fun world =>
  match token.getPublicAddress world with
  | (.error err, world) => (.error err, world)
  | (.ok tokenAddressInPC, world) =>
      token.awaitBalance PARALLEL_WORKERS tokenAddressInPC expectedBalance world

/-- The override of `ERC721Wrapper`, which resolves the address once more to connect the public
contract. -/
def ERC721Wrapper.verifyPublicBalance [Host σ] (token : PublicToken σ) (nftsCount : Int) :
    Async σ JsVal Unit := fun world =>
  match token.getPublicAddress world with
  | (.error err, world) => (.error err, world)
  | (.ok _, world) => Tokens.verifyPublicBalance PARALLEL_WORKERS token nftsCount world

/-! ## Against any sequence of balances -/

/-- A token with a public address whose `n`-th balance, counted from one, is `balances n`. -/
def observedToken (symbol tokenAddressInPC : String) (balances : Nat → Int) :
    PublicToken Probe where
  symbol := symbol
  getPublicAddress probe := (.ok tokenAddressInPC, probe)
  balanceOf := oracleCheck fun n => .ok (balances n)

/-- With `k` the first attempt that observes the expected balance, the call polls `k` times and
resolves, or it spends its 30 attempts and rejects. -/
structure AwaitsBalance (balances : Nat → Int) (expectedBalance : Int)
    (settled : Except JsVal Unit × Probe) : Prop where
  polls : (checks settled.2.trace : ℕ∞) =
    min (firstAttempt (balances · = expectedBalance)) (30 : ℕ)
  resolves : settled.1 = .ok () ↔ firstAttempt (balances · = expectedBalance) ≤ (30 : ℕ)

/-- How the call ends after so many polls: at the first balance other than zero. -/
inductive Stops (balances : Nat → Int) (expectedBalance : Int) :
    Except JsVal Unit → Nat → Prop where
  | compared {count : Nat} : 1 ≤ count → count ≤ 30 →
      (∀ n, 1 ≤ n → n < count → balances n = 0) → balances count ≠ 0 →
      Stops balances expectedBalance (expectBalance expectedBalance (.ok (balances count))) count
  | exhausted (err : JsVal) : (∀ n, 1 ≤ n → n ≤ 30 → balances n = 0) →
      Stops balances expectedBalance (.error err) 30

section Law

variable (symbol tokenAddressInPC : String) (balances : Nat → Int) (expectedBalance : Int)
  (logger : Logger)

theorem matchesAt_balance :
    MatchesAt (fun n => (.ok (balances n) : Except JsVal Int)) = fun n => balances n ≠ 0 := by
  funext n
  apply propext
  constructor
  · rintro ⟨value, houtcome, htruthy⟩
    cases houtcome
    exact (truthy_bigint _).mp htruthy
  · exact fun hne => ⟨_, rfl, (truthy_bigint _).mpr hne⟩

/-- The wait stops at the first balance that matches, or when its attempts are used up. -/
theorem verifyPublicBalance_stops :
    let settled := verifyPublicBalance PARALLEL_WORKERS
      (observedToken symbol tokenAddressInPC balances) expectedBalance ⟨[], logger⟩
    Stops balances expectedBalance settled.1 (checks settled.2.trace) := by
  intro settled
  let opts := oracleOptions (fun n => (.ok (balances n) : Except JsVal Int)) 30 (some 3000) false
  let message := balanceMessage symbol tokenAddressInPC expectedBalance
  obtain ⟨polled, count, hdecided, hwaited, htrace⟩ := eventually_decided PARALLEL_WORKERS
    (fun n => (.ok (balances n) : Except JsVal Int)) 30 (some 3000) false message logger
  have hchecks : checks settled.2.trace = count :=
    (congrArg checks htrace).trans (checks_rounds _ _)
  have hresult : settled.1 = expectBalance expectedBalance
      (eventually PARALLEL_WORKERS opts message ⟨[], logger⟩).1 := rfl
  rw [hchecks, hresult]
  generalize (eventually PARALLEL_WORKERS opts message _).1 = outcome at hwaited ⊢
  rw [matchesAt_balance] at hdecided
  cases hdecided with
  | matched hle hfirst hlt houtcome =>
      obtain ⟨hone, hne, hnone⟩ := firstAttempt_eq_iff.mp hfirst.symm
      cases houtcome
      cases hwaited
      exact .compared hone hle (fun n hn hbefore => not_not.mp (hnone n hn hbefore)) hne
  | threw hle hfirst hlt houtcome => cases houtcome
  | unmatched hnone =>
      rw [lt_firstAttempt_iff] at hnone
      cases hwaited
      exact .exhausted _ fun n hn hle => not_not.mp (hnone n hn hle)

end Law

section Exact

variable {balances : Nat → Int} {expectedBalance : Int} {settled : Except JsVal Unit × Probe}

theorem expectBalance_eq_ok (publicBal : Int) :
    expectBalance expectedBalance (.ok publicBal) = .ok () ↔ publicBal = expectedBalance := by
  unfold expectBalance
  split <;> simp_all

/-- The balances that the call may skip: those before the expected one and the last attempt. -/
def SkipsZeros (balances : Nat → Int) (expectedBalance : Int) : Prop :=
  ∀ n : ℕ, 1 ≤ n → n < 30 → (n : ℕ∞) < firstAttempt (balances · = expectedBalance) →
    balances n = 0

/-- Where the first balance is zero, zero is observed at once. -/
theorem expectedBalance_ne_zero (hfirst : balances 1 = 0)
    (hlate : ¬firstAttempt (balances · = expectedBalance) ≤ (30 : ℕ)) : expectedBalance ≠ 0 := by
  rintro rfl
  have hle : firstAttempt (balances · = 0) ≤ (1 : ℕ) := firstAttempt_le le_rfl hfirst
  exact hlate (hle.trans (Nat.cast_le.mpr (by decide)))

/-- A call that stops at the first balance other than zero waits for the expected one exactly if
that is not zero and all balances before it are. -/
theorem Stops.awaitsBalance_iff
    (hstops : Stops balances expectedBalance settled.1 (checks settled.2.trace)) :
    AwaitsBalance balances expectedBalance settled ↔
      expectedBalance ≠ 0 ∧ SkipsZeros balances expectedBalance := by
  obtain ⟨result, probe⟩ := settled
  dsimp only at hstops
  generalize hcount : checks probe.trace = count at hstops
  cases hstops with
  | compared hone hle hzero hne =>
      have hskipped : ∀ m, 1 ≤ m → m < count → expectedBalance ≠ 0 → balances m ≠ expectedBalance :=
        fun m hm hlt hexpected heq => hexpected (heq ▸ hzero m hm hlt)
      constructor
      · rintro ⟨hpolls, hresolves⟩
        rw [expectBalance_eq_ok] at hresolves
        rw [hcount] at hpolls
        refine ⟨?_, fun n hn hlast hbefore => hzero n hn ?_⟩
        · by_cases heq : balances count = expectedBalance
          · exact heq ▸ hne
          · have hlate := (not_congr hresolves).mp heq
            rw [min_eq_right (not_le.mp hlate).le] at hpolls
            obtain rfl : count = 30 := Nat.cast_injective hpolls
            exact expectedBalance_ne_zero (hzero 1 le_rfl (by decide)) hlate
        · have hlt : (n : ℕ∞) < count := hpolls ▸ lt_min hbefore (by exact_mod_cast hlast)
          exact_mod_cast hlt
      · rintro ⟨hexpected, hskips⟩
        by_cases heq : balances count = expectedBalance
        · have hfirst : firstAttempt (balances · = expectedBalance) = count :=
            firstAttempt_eq hone heq fun m hm hlt => hskipped m hm hlt hexpected
          have hbound : (count : ℕ∞) ≤ (30 : ℕ) := Nat.cast_le.mpr hle
          constructor
          · rw [hcount, hfirst, min_eq_left hbound]
          · rw [expectBalance_eq_ok, hfirst]
            exact iff_of_true heq hbound
        · have hlt : (count : ℕ∞) < firstAttempt (balances · = expectedBalance) := by
            refine lt_firstAttempt_iff.mpr fun m hm hle => ?_
            rcases Nat.lt_or_eq_of_le hle with hlt | rfl
            · exact hskipped m hm hlt hexpected
            · exact heq
          obtain rfl : count = 30 := by
            by_contra hearly
            exact hne (hskips count hone (by omega) hlt)
          constructor
          · rw [hcount, min_eq_right hlt.le]
          · rw [expectBalance_eq_ok]
            exact iff_of_false heq (not_le.mpr hlt)
  | exhausted err hzero =>
      have hlate : expectedBalance ≠ 0 →
          ((30 : ℕ) : ℕ∞) < firstAttempt (balances · = expectedBalance) :=
        fun hexpected => lt_firstAttempt_iff.mpr fun m hm hle heq =>
          hexpected (heq ▸ hzero m hm hle)
      constructor
      · rintro ⟨-, hresolves⟩
        have hlate := (not_congr hresolves).mp (by simp)
        exact ⟨expectedBalance_ne_zero (hzero 1 le_rfl (by decide)) hlate,
          fun n hn hlast _ => hzero n hn hlast.le⟩
      · rintro ⟨hexpected, -⟩
        constructor
        · rw [hcount, min_eq_right (hlate hexpected).le]
        · exact iff_of_false (by simp) (not_le.mpr (hlate hexpected))

end Exact

/-- The two calls wait for the expected balance exactly if it is not zero and every balance
before it, and before the last attempt, is zero. -/
theorem verifyPublicBalance_awaits_iff (symbol tokenAddressInPC : String) (balances : Nat → Int)
    (expectedBalance : Int) (logger : Logger) :
    (AwaitsBalance balances expectedBalance (verifyPublicBalance PARALLEL_WORKERS
        (observedToken symbol tokenAddressInPC balances) expectedBalance ⟨[], logger⟩) ↔
      expectedBalance ≠ 0 ∧ SkipsZeros balances expectedBalance) ∧
    (AwaitsBalance balances expectedBalance (ERC721Wrapper.verifyPublicBalance PARALLEL_WORKERS
        (observedToken symbol tokenAddressInPC balances) expectedBalance ⟨[], logger⟩) ↔
      expectedBalance ≠ 0 ∧ SkipsZeros balances expectedBalance) :=
  have hstops := verifyPublicBalance_stops PARALLEL_WORKERS symbol tokenAddressInPC balances
    expectedBalance logger
  ⟨hstops.awaitsBalance_iff, hstops.awaitsBalance_iff⟩

/-- Zero is expected of an account that has nothing: the call waits for another balance and
rejects. -/
theorem not_awaitsBalance_zero :
    ¬AwaitsBalance (fun _ => 0) 0 (verifyPublicBalance none
      (observedToken "TOK" "0xA1" fun _ => 0) 0 ⟨[], Logger.new⟩) := by
  intro hawaits
  have hstops := verifyPublicBalance_stops none "TOK" "0xA1" (fun _ => 0) 0 Logger.new
  exact (hstops.awaitsBalance_iff.mp hawaits).1 rfl

end RaylsSuite.Tokens
