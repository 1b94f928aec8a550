import RaylsSuite.Common.Poll
import RaylsSuite.Common.Submit
import RaylsSuite.Foundation.Stages

/-! # Retries and waits in a dialogue

What a retried request says is a number of requests that failed and one that
settles it; a wait says the requests that left it undecided, and one that
decides unless it is exhausted.
-/

namespace RaylsSuite.Common

open Foundation Foundation.Dialogue

variable {σ ε α β Event : Type}

instance [Host σ] : Host (Dialogue σ Event) where
  delay ms dialogue := { dialogue with world := Host.delay ms dialogue.world }
  logger dialogue := Host.logger dialogue.world
  setLogger logger dialogue := { dialogue with world := Host.setLogger logger dialogue.world }

/-- What a retried request says, with at most `attempts` attempts. -/
inductive Retried [Inhabited ε] (options : RetryOptions (Dialogue σ Event) ε) (attempts : Nat)
    (event : Except ε α → Event) (read : α → Except ε β) : Law Event ε β where
  | untried : attempts = 0 → Retried options attempts event read (.error default) []
  | settled {failed : List (Except ε α)} {last : Except ε α} : failed.length < attempts →
      (∀ answer ∈ failed, options.Retries (answer.bind read)) →
      (options.Retries (last.bind read) → failed.length + 1 = attempts) →
      Retried options attempts event read (last.bind read) ((failed ++ [last]).map event)

/-- What a wait for a request's value says. -/
inductive Asked [JsValue ε β] (opts : PollOptions (Dialogue σ Event) ε β) (attempts : Nat)
    (event : Except ε α → Event) (read : α → Except ε β) : Law Event ε β where
  | resolved {undecided : List (Except ε α)} {last : Except ε α} {value : β} :
      undecided.length < attempts → (∀ answer ∈ undecided, opts.Undecided (answer.bind read)) →
      last.bind read = .ok value → JsValue.truthy ε value = true →
      Asked opts attempts event read (.ok value) ((undecided ++ [last]).map event)
  | rejected {undecided : List (Except ε α)} {last : Except ε α} {err : ε} :
      undecided.length < attempts → (∀ answer ∈ undecided, opts.Undecided (answer.bind read)) →
      last.bind read = .error err → opts.tolerateErrors = false →
      Asked opts attempts event read (.error err) ((undecided ++ [last]).map event)
  | exhausted {undecided : List (Except ε α)} {err : ε} :
      undecided.length = attempts → (∀ answer ∈ undecided, opts.Undecided (answer.bind read)) →
      Asked opts attempts event read (.error err) (undecided.map event)

section Rules

variable [Host σ] {event : Except ε α → Event} {serve : σ → Except ε α × σ}
  {read : α → Except ε β}

/-- The callback between two attempts says nothing. -/
def Silent (options : RetryOptions (Dialogue σ Event) ε) : Prop :=
  ∀ err i dialogue, (options.onRetry err i dialogue).said = dialogue.said

omit [Host σ] in
theorem Retried.first [Inhabited ε] {options : RetryOptions (Dialogue σ Event) ε} {attempts : Nat}
    {answer : Except ε α} {outcome : Except ε β} (hanswer : answer.bind read = outcome)
    (hpos : 0 < attempts) (hstop : options.Retries outcome → 1 = attempts) :
    Retried options attempts event read outcome [event answer] := by
  subst hanswer
  change Retried options attempts event read _ (([] ++ [answer]).map event)
  exact .settled hpos (fun _ hmem => absurd hmem List.not_mem_nil) hstop

omit [Host σ] in
/-- An answer that is retried is followed by the rest of the attempts. -/
theorem Retried.again [Inhabited ε] {options : RetryOptions (Dialogue σ Event) ε} {attempts : Nat}
    {answer : Except ε α} {outcome : Except ε β} {said : List Event}
    (hretries : options.Retries (answer.bind read))
    (hrest : Retried options (attempts + 1) event read outcome said) :
    Retried options (attempts + 2) event read outcome (event answer :: said) := by
  cases hrest with
  | untried hnone => cases hnone
  | @settled failed last hlength hfailed hstop =>
      change Retried options (attempts + 2) event read _ (((answer :: failed) ++ [last]).map event)
      refine .settled (Nat.succ_lt_succ hlength) ?_ fun hagain => congrArg Nat.succ (hstop hagain)
      intro other hmem
      rcases List.mem_cons.mp hmem with rfl | hmem
      · exact hretries
      · exact hfailed other hmem

/-- The loop asks until an answer is not retried or its attempts are used up. -/
theorem obeys_retryLoop [Inhabited ε] (options : RetryOptions (Dialogue σ Event) ε)
    (hsilent : Silent options) (left i : Nat) (lastErr : ε) :
    Obeys (retryLoop options (ask event serve read) (left + 1) i lastErr)
      (Retried options (left + 1) event read) := by
  induction left generalizing i lastErr with
  | zero =>
      intro dialogue
      rcases hask : ask event serve read dialogue with ⟨err | value, next⟩
      · rw [retryLoop_last options i lastErr hask]
        exact ⟨_, (congrArg (fun settled => settled.2.said) hask).symm,
          .first (congrArg Prod.fst hask) Nat.zero_lt_one fun _ => rfl⟩
      · rw [retryLoop_ok options 0 i lastErr hask]
        exact ⟨_, (congrArg (fun settled => settled.2.said) hask).symm,
          .first (congrArg Prod.fst hask) Nat.zero_lt_one fun _ => rfl⟩
  | succ left ih =>
      intro dialogue
      rcases hask : ask event serve read dialogue with ⟨err | value, next⟩ <;>
        have hanswer := congrArg Prod.fst hask <;>
        have hnext := (congrArg (fun settled => settled.2.said) hask).symm
      · cases hrefused : options.refuses err with
        | true =>
            rw [retryLoop_refused options _ i lastErr hask hrefused]
            refine ⟨_, hnext, .first hanswer (Nat.succ_pos _) ?_⟩
            rw [options.retries_error, hrefused]
            exact fun hfalse => by cases hfalse
        | false =>
            rw [retryLoop_again options left i lastErr hask hrefused]
            obtain ⟨said, hsaid, hlaw⟩ := ih (i + 1) err (options.pause err i next)
            have hpause : (options.pause err i next).said = next.said := hsilent err i next
            refine ⟨_, ?_, hlaw.again ⟨err, hanswer, hrefused⟩⟩
            rw [hsaid, hpause, hnext]
            simp [ask]
      · rw [retryLoop_ok options _ i lastErr hask]
        exact ⟨_, hnext, .first hanswer (Nat.succ_pos _) fun hretries =>
          absurd hretries (options.not_retries_ok value)⟩

/-- The law of a retried request. -/
theorem obeys_retry [Inhabited ε] (options : RetryOptions (Dialogue σ Event) ε)
    (hsilent : Silent options) :
    Obeys (retry (ask event serve read) options)
      (Retried options options.attempts event read) := by
  unfold retry
  cases hattempts : options.attempts with
  | zero => exact fun dialogue => ⟨[], (List.append_nil _).symm, .untried rfl⟩
  | succ left => exact obeys_retryLoop options hsilent left 1 default

/-- The law of a wait for a request's value. -/
theorem obeys_eventually [JsValue ε β] [Thrown ε] (PARALLEL_WORKERS : Option String)
    (opts : PollOptions (Dialogue σ Event) ε β) (hcheck : opts.check = ask event serve read)
    (message : String) :
    Obeys (eventually PARALLEL_WORKERS opts message)
      (Asked opts (opts.budget PARALLEL_WORKERS) event read) := by
  intro dialogue
  -- the answers so far left the wait undecided
  let waiting (i : Nat) (current : Dialogue σ Event) : Prop :=
    ∃ undecided : List (Except ε α), undecided.length = i ∧
      (∀ answer ∈ undecided, opts.Undecided (answer.bind read)) ∧
      current.said = dialogue.said ++ undecided.map event
  have hwaiting : Waiting opts waiting := by
    refine ⟨?_, fun _ _ _ => id⟩
    intro i current ⟨undecided, hlength, hundecided, hsaid⟩ hnow
    rw [hcheck] at hnow ⊢
    refine ⟨undecided ++ [(serve current.world).1], by simp [hlength], ?_, ?_⟩
    · intro answer hmem
      rcases List.mem_append.mp hmem with hmem | hmem
      · exact hundecided answer hmem
      · rw [List.mem_singleton.mp hmem]
        exact hnow
    · simp [ask, hsaid]
  have hawaited := eventually_awaited PARALLEL_WORKERS hwaiting (fun _ _ => id) message dialogue
    ⟨[], rfl, fun _ hmem => absurd hmem List.not_mem_nil, by simp⟩
  have hlast : ∀ {before after : Dialogue σ Event} {outcome : Except ε β}
      {undecided : List (Except ε α)}, opts.check before = (outcome, after) →
      before.said = dialogue.said ++ undecided.map event →
      ∃ answer : Except ε α, answer.bind read = outcome ∧
        after.said = dialogue.said ++ (undecided ++ [answer]).map event := by
    intro before after outcome undecided hsettled hsaid
    rw [hcheck] at hsettled
    refine ⟨(serve before.world).1, congrArg Prod.fst hsettled, ?_⟩
    have hafter : after = (ask event serve read before).2 := (congrArg Prod.snd hsettled).symm
    simp [hafter, ask, hsaid]
  generalize eventually PARALLEL_WORKERS opts message dialogue = settled at hawaited ⊢
  cases hawaited with
  | resolved logger hlt hbefore hsettled htruthy =>
      obtain ⟨undecided, rfl, hundecided, hsaid⟩ := hbefore
      obtain ⟨answer, hanswer, hafter⟩ := hlast hsettled hsaid
      exact ⟨_, hafter, .resolved hlt hundecided hanswer htruthy⟩
  | rejected hlt hbefore hsettled htolerated =>
      obtain ⟨undecided, rfl, hundecided, hsaid⟩ := hbefore
      obtain ⟨answer, hanswer, hafter⟩ := hlast hsettled hsaid
      exact ⟨_, hafter, .rejected hlt hundecided hanswer htolerated⟩
  | exhausted err logger hafter =>
      obtain ⟨undecided, hlength, hundecided, hsaid⟩ := hafter
      exact ⟨_, hsaid, .exhausted hlength hundecided⟩

end Rules

/-! ## Requests whose answer is the value -/

section Plain

variable {event : Except ε α → Event} {attempts : Nat} {said : List Event} {value : α} {err : ε}

theorem bind_ok (answer : Except ε α) : answer.bind .ok = answer := by
  cases answer <;> rfl

theorem exists_errors {options : RetryOptions (Dialogue σ Event) ε} {failed : List (Except ε α)}
    (hfailed : ∀ answer ∈ failed, options.Retries (answer.bind .ok)) :
    ∃ errors : List ε, failed = errors.map .error ∧
      ∀ err ∈ errors, options.refuses err = false := by
  induction failed with
  | nil => exact ⟨[], rfl, fun _ hmem => absurd hmem List.not_mem_nil⟩
  | cons answer failed ih =>
      obtain ⟨errors, rfl, herrors⟩ := ih fun other hother =>
        hfailed other (List.mem_cons_of_mem answer hother)
      obtain ⟨err, hanswer, hretried⟩ := hfailed answer List.mem_cons_self
      rw [bind_ok] at hanswer
      exact ⟨err :: errors, by rw [hanswer, List.map_cons],
        List.forall_mem_cons.mpr ⟨hretried, herrors⟩⟩

variable [Inhabited ε] {options : RetryOptions (Dialogue σ Event) ε}

/-- A retried request that succeeds was preceded by failures that may be retried. -/
theorem Retried.of_ok (hretried : Retried options attempts event .ok (.ok value) said) :
    ∃ errors : List ε, errors.length < attempts ∧ (∀ err ∈ errors, options.refuses err = false) ∧
      said = errors.map (fun err => event (.error err)) ++ [event (.ok value)] := by
  generalize houtcome : Except.ok value = outcome at hretried
  cases hretried with
  | untried hnone => cases houtcome
  | @settled failed last hlength hfailed hstop =>
      obtain ⟨errors, rfl, herrors⟩ := exists_errors hfailed
      rw [bind_ok] at houtcome
      subst houtcome
      exact ⟨errors, by simpa using hlength, herrors, by simp [Function.comp_def, bind_ok]⟩

/-- A retried request that fails has failed each time. -/
theorem Retried.of_error (hretried : Retried options attempts event .ok (.error err) said) :
    ∃ errors : List ε, errors.length ≤ attempts ∧
      said = errors.map fun err => event (.error err) := by
  generalize houtcome : Except.error err = outcome at hretried
  cases hretried with
  | untried hnone => exact ⟨[], Nat.zero_le _, rfl⟩
  | @settled failed last hlength hfailed hstop =>
      obtain ⟨errors, rfl, _⟩ := exists_errors hfailed
      rw [bind_ok] at houtcome
      subst houtcome
      exact ⟨errors ++ [err], by simpa using Nat.succ_le_of_lt hlength,
        by simp [Function.comp_def]⟩

/-- A retried request only repeats it. -/
theorem Retried.exists_answers {outcome : Except ε α}
    (hretried : Retried options attempts event .ok outcome said) :
    ∃ answers : List (Except ε α), said = answers.map event ∧
      ∀ value, outcome = .ok value → ∃ before, answers = before ++ [.ok value] := by
  cases hretried with
  | untried => exact ⟨[], rfl, fun _ hok => by cases hok⟩
  | @settled failed last =>
      refine ⟨failed ++ [last], rfl, fun value hok => ⟨failed, ?_⟩⟩
      rw [bind_ok] at hok
      rw [hok]

/-- A retried request is one stage. -/
theorem Retried.within {staging : Staging Event} {n : Nat} {outcome : Except ε α}
    (hretried : Retried options attempts event .ok outcome said)
    (hstage : ∀ answer, staging.stage (event answer) = n)
    (hfailed : ∀ err, ¬staging.Changes (event (.error err))) :
    staging.Within n (n + 1) said := by
  have hidle : ∀ errors : List ε, staging.Idle n (errors.map fun err => event (.error err)) := by
    intro errors other hother
    obtain ⟨err, _, rfl⟩ := List.mem_map.mp hother
    exact ⟨hstage _, hfailed err⟩
  cases outcome with
  | error err =>
      obtain ⟨errors, _, rfl⟩ := hretried.of_error
      exact (hidle errors).within
  | ok value =>
      obtain ⟨errors, _, _, rfl⟩ := hretried.of_ok
      exact (hidle errors).concat (hstage _)

theorem Retried.of_mem {outcome : Except ε α} {other : Event}
    (hretried : Retried options attempts event .ok outcome said) (hother : other ∈ said) :
    ∃ answer, event answer = other := by
  obtain ⟨answers, rfl, _⟩ := hretried.exists_answers
  obtain ⟨answer, _, rfl⟩ := List.mem_map.mp hother
  exact ⟨answer, rfl⟩

theorem Retried.mem_ok (hretried : Retried options attempts event .ok (.ok value) said) :
    event (.ok value) ∈ said := by
  obtain ⟨errors, _, _, rfl⟩ := hretried.of_ok
  exact List.mem_append_right _ List.mem_cons_self

end Plain

/-! ## Submitted transactions -/

/-- What a submitted transaction says: its factory's calls, the last one of which returned the
response with the receipt. -/
def Submitted (event : Except JsError Response → Event) : Law Event JsError Receipt :=
  fun outcome said => ∃ answers : List (Except JsError Response), said = answers.map event ∧
    ∀ receipt, outcome = .ok receipt → ∃ before response, answers = before ++ [.ok response] ∧
      waitForReceipt response RECEIPT_TIMEOUT_MS = .ok (some receipt) ∧ receipt.status = 1

section Submit

variable [Host σ] {event : Except JsError Response → Event} {serve : Async σ JsError Response}

/-- What the loop returns is the receipt of its last answer. -/
theorem obeys_submitLoop (left attempt : Nat) :
    Obeys (submitLoop (ask event serve .ok) left attempt) fun outcome said =>
      ∃ answers : List (Except JsError Response), said = answers.map event ∧
        ∀ receipt, outcome = .ok (some receipt) → ∃ before response,
          answers = before ++ [.ok response] ∧
            waitForReceipt response RECEIPT_TIMEOUT_MS = .ok (some receipt) := by
  induction left generalizing attempt with
  | zero =>
      intro dialogue
      exact ⟨[], (List.append_nil _).symm, [], rfl, fun _ hok => by cases hok⟩
  | succ left ih =>
      intro dialogue
      have hobeys : Obeys (retry (ask event serve .ok) txRetry) _ :=
        obeys_retry txRetry fun _ _ _ => rfl
      obtain ⟨said, hsaid, hretried⟩ := hobeys dialogue
      rcases hretry : retry (ask event serve .ok) txRetry dialogue with ⟨err | response, next⟩ <;>
        rw [hretry] at hsaid hretried
      · obtain ⟨answers, hanswers, _⟩ := hretried.exists_answers
        rw [submitLoop_factoryError left attempt hretry]
        exact ⟨said, hsaid, answers, hanswers, fun _ hok => by cases hok⟩
      · obtain ⟨answers, hanswers, hlast⟩ := hretried.exists_answers
        obtain ⟨before, hbefore⟩ := hlast response rfl
        by_cases hagain : Displaced response ∧ attempt < maxDisplacedRetries
        · rw [submitLoop_resubmit left attempt hagain.1 hagain.2 hretry]
          obtain ⟨rest, hrest, others, hothers, hfinal⟩ := ih (attempt + 1) next
          refine ⟨said ++ rest, by rw [hrest, hsaid, List.append_assoc], answers ++ others,
            by rw [hanswers, hothers, List.map_append], fun receipt hok => ?_⟩
          obtain ⟨between, final, rfl, hwait⟩ := hfinal receipt hok
          exact ⟨answers ++ between, final, (List.append_assoc _ _ _).symm, hwait⟩
        · rw [submitLoop_settled left attempt hagain hretry]
          exact ⟨said, hsaid, answers, hanswers, fun receipt hok =>
            ⟨before, response, hbefore, hok⟩⟩

/-- A submission that resolves was answered with a transaction that succeeded. -/
theorem obeys_submitTx (message : String) :
    Obeys (submitTx (ask event serve .ok) message) (Submitted event) := by
  intro dialogue
  have hobeys : Obeys (submitLoop (ask event serve .ok) maxDisplacedRetries 1) _ :=
    obeys_submitLoop maxDisplacedRetries 1
  obtain ⟨said, hsaid, answers, hanswers, hlast⟩ :=
    hobeys (Host.setLogger ((Host.logger dialogue).load message).2 dialogue)
  rcases hloop : submitLoop (ask event serve .ok) maxDisplacedRetries 1
    (Host.setLogger ((Host.logger dialogue).load message).2 dialogue) with ⟨err | receipt, next⟩ <;>
    rw [hloop] at hsaid hlast
  · simp only [submitTx, hloop]
    exact ⟨said, hsaid, answers, hanswers, fun _ hok => by cases hok⟩
  · cases haccept : acceptReceipt message receipt with
    | error err =>
        simp only [submitTx, hloop, haccept]
        exact ⟨said, hsaid, answers, hanswers, fun _ hok => by cases hok⟩
    | ok accepted =>
        simp only [submitTx, hloop, haccept]
        refine ⟨said, hsaid, answers, hanswers, fun found hok => ?_⟩
        obtain rfl := Except.ok.inj hok
        cases receipt with
        | none => cases haccept
        | some receipt =>
            simp only [acceptReceipt] at haccept
            split at haccept
            next hstatus =>
              obtain rfl := Except.ok.inj haccept
              obtain ⟨before, response, hbefore, hwait⟩ := hlast receipt rfl
              exact ⟨before, response, hbefore, hwait, hstatus⟩
            next => cases haccept

end Submit

/-- A wait that resolves ends with the answer that it resolves with. -/
theorem Asked.of_ok [JsValue ε β] {opts : PollOptions (Dialogue σ Event) ε β} {attempts : Nat}
    {event : Except ε α → Event} {read : α → Except ε β} {value : β} {said : List Event}
    (hasked : Asked opts attempts event read (.ok value) said) :
    ∃ (undecided : List (Except ε α)) (last : α), read last = .ok value ∧
      JsValue.truthy ε value = true ∧ said = (undecided ++ [Except.ok last]).map event := by
  cases hasked with
  | @resolved undecided last value hlength hundecided hlast htruthy =>
      cases last with
      | error err => cases hlast
      | ok last => exact ⟨undecided, last, hlast, htruthy, rfl⟩

/-- A wait only repeats its request. -/
theorem Asked.exists_answers [JsValue ε β] {opts : PollOptions (Dialogue σ Event) ε β}
    {attempts : Nat} {event : Except ε α → Event} {read : α → Except ε β} {outcome : Except ε β}
    {said : List Event} (hasked : Asked opts attempts event read outcome said) :
    ∃ answers : List (Except ε α), said = answers.map event := by
  cases hasked with
  | resolved => exact ⟨_, rfl⟩
  | rejected => exact ⟨_, rfl⟩
  | exhausted => exact ⟨_, rfl⟩

/-- A wait is one stage that changes nothing. -/
theorem Asked.idle [JsValue ε β] {opts : PollOptions (Dialogue σ Event) ε β} {attempts n : Nat}
    {event : Except ε α → Event} {read : α → Except ε β} {outcome : Except ε β}
    {said : List Event} {staging : Staging Event}
    (hasked : Asked opts attempts event read outcome said)
    (hevent : ∀ answer, staging.stage (event answer) = n ∧ ¬staging.Changes (event answer)) :
    staging.Idle n said := by
  obtain ⟨answers, rfl⟩ := hasked.exists_answers
  intro other hother
  obtain ⟨answer, _, rfl⟩ := List.mem_map.mp hother
  exact hevent answer

end RaylsSuite.Common
