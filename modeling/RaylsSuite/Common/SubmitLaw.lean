import RaylsSuite.Common.AtMostOnce

/-! # The law of the nested retries

An outer attempt of `submitTx` is a run of retryable factory errors, at most
four of them, followed by a response. The attempts are read off the outcomes
of the factory alone, and decide how the call settles.
-/

namespace RaylsSuite.Common

variable (outcome : Nat → Except JsError Response)

/-- From call `start` on the factory throws `count` retryable errors. -/
def ThrowsRetryably (start count : Nat) : Prop :=
  ∀ i < count, ∃ err, outcome (start + i) = .error err ∧ isRetryable err = true

/-- The attempt that starts with call `start` obtains a response after `throws` errors. -/
structure Obtains (start throws : Nat) (response : Response) : Prop where
  throws_le : throws ≤ 4
  throwsRetryably : ThrowsRetryably outcome start throws
  responds : outcome (start + throws) = .ok response

/-- Outer attempt `j` starts with call `start`: each earlier one obtained a response that
was displaced. -/
inductive Resubmitted : Nat → Nat → Prop where
  | first : Resubmitted 1 0
  | again {j start throws : Nat} {response : Response} : Resubmitted j start →
      Obtains outcome start throws response → Displaced response →
      Resubmitted (j + 1) (start + throws + 1)

/-- The wait of this outcome yields a receipt, be it null. -/
def Receipted : Except JsError Response → Prop
  | .error _ => False
  | .ok response => ∃ receipt, waitForReceipt response RECEIPT_TIMEOUT_MS = .ok receipt

/-- How a submission settles after so many calls of its factory. -/
structure SubmitLaw (result : Except JsError Receipt) (calls : Nat) : Prop where
  returns_iff : ∀ receipt, result = .ok receipt ↔
    ∃ j ≤ 5, ∃ start throws response, Resubmitted outcome j start ∧
      Obtains outcome start throws response ∧
      waitForReceipt response RECEIPT_TIMEOUT_MS = .ok (some receipt) ∧ receipt.status = 1
  refused : ∀ n < calls, ∀ err, outcome n = .error err → isRetryable err = false →
    result = .error err
  fifthError : ∀ start, start + 4 < calls →
    (∀ i < 4, ∃ err, outcome (start + i) = .error err) →
    ∀ err, outcome (start + 4) = .error err → result = .error err
  waitError : ∀ j ≤ 5, ∀ start throws response err, Resubmitted outcome j start →
    Obtains outcome start throws response →
    waitForReceipt response RECEIPT_TIMEOUT_MS = .error err → ¬Displaced response ∨ j = 5 →
    result = .error err
  calls_le : calls ≤ 25
  last_of_receipted : ∀ n < calls, Receipted (outcome n) → n + 1 = calls

variable {outcome}

/-! ## The calls of an attempt -/

/-- Every call before call `n` is given up on. -/
def Made (outcome : Nat → Except JsError Response) (n : Nat) : Prop := ∀ m < n, GivenUp outcome m

/-- The last call is the only one that is made and not given up on. -/
theorem Made.unique {m n : Nat} (hm : Made outcome m) (hstopM : ¬GivenUp outcome m)
    (hn : Made outcome n) (hstopN : ¬GivenUp outcome n) : m = n := by
  rcases Nat.lt_trichotomy m n with hlt | heq | hgt
  · exact absurd (hn m hlt) hstopM
  · exact heq
  · exact absurd (hm n hgt) hstopN

/-- There are at most four throws in a row and at most five responses. -/
theorem Made.counts {n : Nat} (hmade : Made outcome n) :
    trailingThrows outcome n ≤ 4 ∧ responses outcome n ≤ 4 ∧
      n ≤ 5 * responses outcome n + trailingThrows outcome n := by
  induction n with
  | zero => exact ⟨Nat.zero_le 4, Nat.zero_le 4, Nat.le_refl 0⟩
  | succ n ih =>
      obtain ⟨hthrows, hresponses, hcalls⟩ := ih fun m hm => hmade m (Nat.lt_succ_of_lt hm)
      have hgivenUp := hmade n (Nat.lt_succ_self n)
      unfold GivenUp at hgivenUp
      cases houtcome : outcome n with
      | error err =>
          rw [houtcome] at hgivenUp
          simp only [trailingThrows, responses, houtcome]
          have hfew := hgivenUp.2
          omega
      | ok response =>
          rw [houtcome] at hgivenUp
          simp only [trailingThrows, responses, houtcome]
          have hfew := hgivenUp.2
          omega

theorem le_trailingThrows {start count : Nat}
    (hthrows : ∀ i < count, ∃ err, outcome (start + i) = .error err) :
    count ≤ trailingThrows outcome (start + count) := by
  induction count with
  | zero => exact Nat.zero_le _
  | succ count ih =>
      obtain ⟨err, herr⟩ := hthrows count (Nat.lt_succ_self count)
      rw [← Nat.add_assoc, trailingThrows, herr]
      exact Nat.succ_le_succ (ih fun i hi => hthrows i (Nat.lt_succ_of_lt hi))

theorem ThrowsRetryably.counts {start count : Nat} (hstart : trailingThrows outcome start = 0)
    (hthrows : ThrowsRetryably outcome start count) :
    trailingThrows outcome (start + count) = count ∧
      responses outcome (start + count) = responses outcome start :=
  trailingThrows_add hstart fun i hi => (hthrows i hi).imp fun _ herr => herr.1

/-- The calls of an attempt up to its response are made. -/
theorem Obtains.made {start throws : Nat} {response : Response}
    (hobtains : Obtains outcome start throws response) (hmade : Made outcome start)
    (hstart : trailingThrows outcome start = 0) : Made outcome (start + throws) := by
  intro m hm
  rcases Nat.lt_or_ge m start with hearlier | hwithin
  · exact hmade m hearlier
  · obtain ⟨i, rfl⟩ := Nat.exists_eq_add_of_le hwithin
    have hi : i < throws := Nat.lt_of_add_lt_add_left hm
    obtain ⟨err, herr, hretryable⟩ := hobtains.throwsRetryably i hi
    have hbefore : ThrowsRetryably outcome start i := fun k hk =>
      hobtains.throwsRetryably k (Nat.lt_trans hk hi)
    have hcount := (hbefore.counts hstart).1
    simp only [GivenUp, herr, hcount]
    exact ⟨hretryable, Nat.lt_of_lt_of_le hi hobtains.throws_le⟩

/-- An outer attempt among the first five begins with a call that is made. -/
theorem Resubmitted.begins {j start : Nat} (hresubmitted : Resubmitted outcome j start) :
    trailingThrows outcome start = 0 ∧ responses outcome start + 1 = j ∧
      (j ≤ 5 → Made outcome start) := by
  induction hresubmitted with
  | first => exact ⟨rfl, rfl, fun _ m hm => absurd hm (Nat.not_lt_zero m)⟩
  | @again j start throws response _ hobtains hdisplaced ih =>
      obtain ⟨hstart, hresponses, hmade⟩ := ih
      obtain ⟨_, hcount⟩ := hobtains.throwsRetryably.counts hstart
      simp only [trailingThrows, responses, hobtains.responds, hcount, hresponses]
      refine ⟨trivial, trivial, fun hle => ?_⟩
      have hbefore := hobtains.made (hmade (Nat.le_of_succ_le hle)) hstart
      intro m hm
      rcases Nat.lt_or_eq_of_le (Nat.lt_succ_iff.mp hm) with hearlier | rfl
      · exact hbefore m hearlier
      · simp only [GivenUp, hobtains.responds, hcount]
        exact ⟨hdisplaced, by omega⟩

/-- Every call that is made lies in an outer attempt. -/
theorem Made.attempt {n : Nat} (hmade : Made outcome n) :
    ∃ start throws, Resubmitted outcome (responses outcome n + 1) start ∧
      ThrowsRetryably outcome start throws ∧ n = start + throws ∧
      throws = trailingThrows outcome n := by
  induction n with
  | zero =>
      exact ⟨0, 0, .first, fun i hi => absurd hi (Nat.not_lt_zero i), rfl, rfl⟩
  | succ n ih =>
      have hbefore : Made outcome n := fun m hm => hmade m (Nat.lt_succ_of_lt hm)
      obtain ⟨start, throws, hresubmitted, hthrows, hn, htrailing⟩ := ih hbefore
      have hgivenUp := hmade n (Nat.lt_succ_self n)
      unfold GivenUp at hgivenUp
      cases houtcome : outcome n with
      | error err =>
          rw [houtcome] at hgivenUp
          simp only [responses, trailingThrows, houtcome]
          refine ⟨start, throws + 1, hresubmitted, ?_, by omega, by omega⟩
          intro i hi
          rcases Nat.lt_or_eq_of_le (Nat.lt_succ_iff.mp hi) with hearlier | rfl
          · exact hthrows i hearlier
          · exact ⟨err, hn ▸ houtcome, hgivenUp.1⟩
      | ok response =>
          rw [houtcome] at hgivenUp
          simp only [responses, trailingThrows, houtcome]
          refine ⟨n + 1, 0, ?_, fun i hi => absurd hi (Nat.not_lt_zero i), rfl, rfl⟩
          have hobtains : Obtains outcome start throws response :=
            ⟨htrailing ▸ hbefore.counts.1, hthrows, hn ▸ houtcome⟩
          subst hn
          exact .again hresubmitted hobtains hgivenUp.1

theorem not_givenUp_of_receipted {n : Nat} (hreceipted : Receipted (outcome n)) :
    ¬GivenUp outcome n := by
  cases houtcome : outcome n with
  | error err =>
      rw [houtcome] at hreceipted
      cases hreceipted
  | ok response =>
      rw [houtcome] at hreceipted
      obtain ⟨receipt, hwait⟩ := hreceipted
      exact not_givenUp_of_waited houtcome hwait

/-- The law, from the last call and what it leads to. -/
theorem SubmitLaw.of_last {message : String} {last : Nat} (hmade : Made outcome last)
    (hstop : ¬GivenUp outcome last) :
    SubmitLaw outcome (submitOutcome message (outcome last)) (last + 1) := by
  have hlast : ∀ n, Made outcome n → ¬GivenUp outcome n → n = last := fun n hn hstopN =>
    hn.unique hstopN hmade hstop
  have hearlier : ∀ n < last + 1, ¬GivenUp outcome n → n = last := by
    intro n hn hstopN
    rcases Nat.lt_or_eq_of_le (Nat.lt_succ_iff.mp hn) with hbefore | heq
    · exact absurd (hmade n hbefore) hstopN
    · exact heq
  -- the response of an outer attempt that is made
  have hmadeOf : ∀ {j start throws response}, j ≤ 5 → Resubmitted outcome j start →
      Obtains outcome start throws response →
      Made outcome (start + throws) ∧ responses outcome (start + throws) + 1 = j := by
    intro j start throws response hj hresubmitted hobtains
    obtain ⟨hstart, hresponses, hbegins⟩ := hresubmitted.begins
    refine ⟨hobtains.made (hbegins hj) hstart, ?_⟩
    rw [(hobtains.throwsRetryably.counts hstart).2, hresponses]
  constructor
  case returns_iff =>
    intro receipt
    rw [submitOutcome_eq_ok]
    constructor
    · rintro ⟨response, houtcome, hwait, hstatus⟩
      obtain ⟨start, throws, hresubmitted, hthrows, hsum, htrailing⟩ := hmade.attempt
      obtain ⟨hthrowsLe, hresponses, _⟩ := hmade.counts
      exact ⟨_, by omega, start, throws, response, hresubmitted,
        ⟨htrailing ▸ hthrowsLe, hthrows, hsum ▸ houtcome⟩, hwait, hstatus⟩
    · rintro ⟨j, hj, start, throws, response, hresubmitted, hobtains, hwait, hstatus⟩
      have hreceipted : Receipted (outcome (start + throws)) := by
        rw [hobtains.responds]
        exact ⟨_, hwait⟩
      obtain rfl := hlast _ (hmadeOf hj hresubmitted hobtains).1
        (not_givenUp_of_receipted hreceipted)
      exact ⟨response, hobtains.responds, hwait, hstatus⟩
  case refused =>
    intro n hn err herr hrefused
    have hstopN : ¬GivenUp outcome n := by
      simp [GivenUp, herr, hrefused]
    obtain rfl := hearlier n hn hstopN
    rw [herr]
    rfl
  case fifthError =>
    intro start hn hthrows err herr
    have hstopN : ¬GivenUp outcome (start + 4) := by
      have hcount := le_trailingThrows hthrows
      simp only [GivenUp, herr]
      omega
    obtain rfl := hearlier _ hn hstopN
    rw [herr]
    rfl
  case waitError =>
    intro j hj start throws response err hresubmitted hobtains hwait hfinal
    obtain ⟨hmadeN, hresponses⟩ := hmadeOf hj hresubmitted hobtains
    have hstopN : ¬GivenUp outcome (start + throws) := by
      simp only [GivenUp, hobtains.responds]
      rintro ⟨hdisplaced, hfew⟩
      rcases hfinal with hkept | rfl
      · exact hkept hdisplaced
      · omega
    obtain rfl := hlast _ hmadeN hstopN
    rw [hobtains.responds]
    simp only [submitOutcome, hwait]
  case calls_le =>
    obtain ⟨hthrows, hresponses, hcalls⟩ := hmade.counts
    omega
  case last_of_receipted =>
    intro n hn hreceipted
    exact congrArg Nat.succ (hearlier n hn (not_givenUp_of_receipted hreceipted))

/-- The factory whose `n`-th call, counted from zero, ends with the `n`-th outcome. -/
def outcomeFactory (outcome : Nat → Except JsError Response) : Async Session JsError Response :=
  fun session => (outcome session.calls, { session with calls := session.calls + 1 })

/-- `submitTx` settles by the law of its nested retries. -/
theorem submitTx_submitLaw (outcome : Nat → Except JsError Response) (message : String) :
    SubmitLaw outcome (submitTx (outcomeFactory outcome) message Session.start).1
      (submitTx (outcomeFactory outcome) message Session.start).2.calls := by
  have horacle : Oracle (outcomeFactory outcome) Session.calls outcome :=
    ⟨fun _ => rfl, fun _ => rfl⟩
  obtain ⟨last, hmade, hstop, hcalls, hresult⟩ := submitTx_trace horacle txRetry_quiet
    (fun _ _ => rfl) message Session.start rfl
  rw [hcalls, hresult]
  exact .of_last hmade hstop

end RaylsSuite.Common
