import RaylsSuite.Entities.PrivacyNode

/-! # Resolving a token by resource id

Both resolutions poll a check that queries the endpoint, declines some of the
addresses it answers and connects to the others. They differ in what they
decline, so a statement about such checks covers both.
-/

namespace RaylsSuite.Entities

open Common Config

variable {Signer : Type}

/-- The `n`-th answer of the endpoint during a call from this session. -/
def NodeSession.answer (session : NodeSession Signer) (services : Services Signer)
    (resourceId : String) (n : Nat) : Except JsError String :=
  services.getAddressByResourceId resourceId (session.queries + n)

/-- The `n`-th answer is an address that the check does not connect to. -/
def Declined (accepts : String → Prop) (answer : Nat → Except JsError String) (n : Nat) : Prop :=
  ∃ other, answer n = .ok other ∧ ¬accepts other

/-- The `n`-th answer is the first address that the check connects to. -/
structure FirstAccepted (accepts : String → Prop) (answer : Nat → Except JsError String)
    (n : Nat) (address : String) : Prop where
  answered : answer n = .ok address
  accepted : accepts address
  declined : ∀ j < n, Declined accepts answer j

namespace FirstAccepted

variable {accepts : String → Prop} {answer : Nat → Except JsError String} {m n : Nat}
  {address other : String}

theorem not_declined (hfirst : FirstAccepted accepts answer n address) :
    ¬Declined accepts answer n := by
  intro hdeclined
  obtain ⟨other, hanswer, hother⟩ := hdeclined
  obtain rfl := Except.ok.inj (hfirst.answered.symm.trans hanswer)
  exact hother hfirst.accepted

theorem unique (hm : FirstAccepted accepts answer m address)
    (hn : FirstAccepted accepts answer n other) : m = n ∧ address = other := by
  rcases Nat.lt_trichotomy m n with hlt | rfl | hgt
  · exact absurd (hn.declined m hlt) hm.not_declined
  · exact ⟨rfl, Except.ok.inj (hm.answered.symm.trans hn.answered)⟩
  · exact absurd (hm.declined n hgt) hn.not_declined

end FirstAccepted

/-- What a call returned is bound to the first non-zero address that the endpoint
answered during the call. -/
def BoundToFirst (services : Services Signer) (resourceId : String) (session : NodeSession Signer)
    (settled : Except JsError (Contract Signer) × NodeSession Signer) : Prop :=
  ∀ contract, settled.1 = .ok contract →
    ∃ n, session.queries + n < settled.2.queries ∧
      (∃ address, session.answer services resourceId n = .ok address ∧ address ≠ ZERO_ADDRESS ∧
        contract.address = address) ∧
      ∀ j < n, ∀ other, session.answer services resourceId j = .ok other → other = ZERO_ADDRESS

/-! ## Polling a resolving check -/

/-- A check that queries the endpoint once, declines an address or connects to it. -/
structure Resolving (services : Services Signer) (resourceId : String) (accepts : String → Prop)
    (connect : String → ContractStore Signer →
      Except JsError (Contract Signer) × ContractStore Signer)
    (store : ContractStore Signer) (check : Async (NodeSession Signer) JsError Bool) : Prop where
  failed : ∀ session err, session.contractStore = store →
    services.getAddressByResourceId resourceId session.queries = .error err →
    check session = (.error err, session.asked)
  declined : ∀ session address, session.contractStore = store →
    services.getAddressByResourceId resourceId session.queries = .ok address →
    ¬accepts address → check session = (.ok false, session.asked)
  connected : ∀ session address, session.contractStore = store →
    services.getAddressByResourceId resourceId session.queries = .ok address →
    accepts address → check session = ((connect address store).1.map fun _ => true,
      { session.asked with contractStore := (connect address store).2 })

/-- How the poll of a resolving check settles. -/
inductive Resolution (accepts : String → Prop) (answer : Nat → Except JsError String)
    (connect : String → ContractStore Signer →
      Except JsError (Contract Signer) × ContractStore Signer)
    (store : ContractStore Signer) (queries attempts : Nat) :
    Except JsError Bool × NodeSession Signer → Prop where
  | connected {n : Nat} {address : String} {contract : Contract Signer} {value : Bool}
      {after : NodeSession Signer} : n < attempts → FirstAccepted accepts answer n address →
      (connect address store).1 = .ok contract →
      after.contractStore = (connect address store).2 → after.queries = queries + n + 1 →
      Resolution accepts answer connect store queries attempts (.ok value, after)
  | unconnected {n : Nat} {address : String} {err : JsError} {after : NodeSession Signer} :
      FirstAccepted accepts answer n address → (connect address store).1 = .error err →
      Resolution accepts answer connect store queries attempts (.error err, after)
  | failed {n : Nat} {err : JsError} {after : NodeSession Signer} :
      (∀ j < n, Declined accepts answer j) → answer n = .error err →
      Resolution accepts answer connect store queries attempts (.error err, after)
  | exhausted {err : JsError} {after : NodeSession Signer} :
      (∀ j < attempts, Declined accepts answer j) →
      Resolution accepts answer connect store queries attempts (.error err, after)

section Poll

variable {services : Services Signer} {resourceId : String} {accepts : String → Prop}
  {connect : String → ContractStore Signer →
    Except JsError (Contract Signer) × ContractStore Signer}
  {opts : PollOptions (NodeSession Signer) JsError Bool}

/-- Before the `i`-th attempt the store is as at the call and `i` addresses were declined. -/
structure Declining (services : Services Signer) (resourceId : String) (accepts : String → Prop)
    (start : NodeSession Signer) (i : Nat) (session : NodeSession Signer) : Prop where
  store_eq : session.contractStore = start.contractStore
  queries_eq : session.queries = start.queries + i
  declined : ∀ j < i, Declined accepts (start.answer services resourceId) j

namespace Declining

variable {start session : NodeSession Signer} {i : Nat}

theorem answer_eq (hdeclining : Declining services resourceId accepts start i session) :
    services.getAddressByResourceId resourceId session.queries =
      start.answer services resourceId i := by
  rw [hdeclining.queries_eq, NodeSession.answer]

/-- One more declined address. -/
theorem next (hdeclining : Declining services resourceId accepts start i session) {other : String}
    (hanswer : start.answer services resourceId i = .ok other) (hdeclined : ¬accepts other) :
    Declining services resourceId accepts start (i + 1) session.asked where
  store_eq := hdeclining.store_eq
  queries_eq := congrArg Nat.succ hdeclining.queries_eq
  declined j hj := by
    rcases Nat.lt_succ_iff_lt_or_eq.mp hj with hlt | rfl
    · exact hdeclining.declined j hlt
    · exact ⟨other, hanswer, hdeclined⟩

end Declining

/-- What the `i`-th attempt does. -/
inductive Attempt (accepts : String → Prop) (answer : Nat → Except JsError String)
    (connect : String → ContractStore Signer →
      Except JsError (Contract Signer) × ContractStore Signer)
    (store : ContractStore Signer) (session : NodeSession Signer) (i : Nat) :
    Except JsError Bool × NodeSession Signer → Prop where
  | failed {err : JsError} : answer i = .error err →
      Attempt accepts answer connect store session i (.error err, session.asked)
  | declined {other : String} : answer i = .ok other → ¬accepts other →
      Attempt accepts answer connect store session i (.ok false, session.asked)
  | unconnected {address : String} {err : JsError} {after : NodeSession Signer} :
      FirstAccepted accepts answer i address → (connect address store).1 = .error err →
      Attempt accepts answer connect store session i (.error err, after)
  | connected {address : String} {contract : Contract Signer} :
      FirstAccepted accepts answer i address → (connect address store).1 = .ok contract →
      Attempt accepts answer connect store session i
        (.ok true, { session.asked with contractStore := (connect address store).2 })

namespace Resolving

variable {start : NodeSession Signer}

theorem attempt
    (hresolving : Resolving services resourceId accepts connect start.contractStore opts.check)
    {session : NodeSession Signer} {i : Nat}
    (hsession : Declining services resourceId accepts start i session) :
    Attempt accepts (start.answer services resourceId) connect start.contractStore session i
      (opts.check session) := by
  have hquery := hsession.answer_eq
  cases hanswer : start.answer services resourceId i with
  | error err =>
      rw [hresolving.failed session err hsession.store_eq (hquery.trans hanswer)]
      exact .failed hanswer
  | ok address =>
      by_cases haccepts : accepts address
      · have hfirst : FirstAccepted accepts (start.answer services resourceId) i address :=
          ⟨hanswer, haccepts, hsession.declined⟩
        rw [hresolving.connected session address hsession.store_eq (hquery.trans hanswer)
          haccepts]
        cases hconnect : (connect address start.contractStore).1 with
        | error err => exact .unconnected hfirst hconnect
        | ok contract => exact .connected hfirst hconnect
      · rw [hresolving.declined session address hsession.store_eq (hquery.trans hanswer)
          haccepts]
        exact .declined hanswer haccepts

theorem waiting
    (hresolving : Resolving services resourceId accepts connect start.contractStore opts.check)
    (htolerate : opts.tolerateErrors = false) :
    Waiting opts (Declining services resourceId accepts start) where
  checked i session hsession hundecided := by
    have hattempt := hresolving.attempt hsession
    generalize opts.check session = settled at hattempt hundecided ⊢
    cases hattempt with
    | failed hanswer => cases htolerate.symm.trans hundecided
    | declined hanswer hdeclined => exact hsession.next hanswer hdeclined
    | unconnected hfirst hconnect => cases htolerate.symm.trans hundecided
    | connected hfirst hconnect => cases hundecided
  delayed i session ms hsession := ⟨hsession.store_eq, hsession.queries_eq, hsession.declined⟩

theorem resolution (PARALLEL_WORKERS : Option String)
    (opts : PollOptions (NodeSession Signer) JsError Bool)
    (hresolving : Resolving services resourceId accepts connect start.contractStore opts.check)
    (htolerate : opts.tolerateErrors = false) (message : String) :
    Resolution accepts (start.answer services resourceId) connect start.contractStore
      start.queries (opts.budget PARALLEL_WORKERS)
      (eventually PARALLEL_WORKERS opts message start) := by
  have hlogger : ∀ session logger, Declining services resourceId accepts start 0 session →
      Declining services resourceId accepts start 0 (Host.setLogger logger session) :=
    fun session logger hsession => ⟨hsession.store_eq, hsession.queries_eq, hsession.declined⟩
  have hstart : Declining services resourceId accepts start 0 start :=
    ⟨rfl, rfl, fun j hj => absurd hj (Nat.not_lt_zero j)⟩
  have hawaited := eventually_awaited PARALLEL_WORKERS (hresolving.waiting htolerate) hlogger
    message start hstart
  generalize eventually PARALLEL_WORKERS opts message start = settled at hawaited ⊢
  cases hawaited with
  | resolved logger hlt hbefore hcheck htruthy =>
      have hattempt := hresolving.attempt hbefore
      rw [hcheck] at hattempt
      cases hattempt with
      | declined hanswer hdeclined => cases htruthy
      | connected hfirst hconnect =>
          exact .connected hlt hfirst hconnect rfl (congrArg Nat.succ hbefore.queries_eq)
  | rejected hlt hbefore hcheck htolerated =>
      have hattempt := hresolving.attempt hbefore
      rw [hcheck] at hattempt
      cases hattempt with
      | failed hanswer => exact .failed hbefore.declined hanswer
      | unconnected hfirst hconnect => exact .unconnected hfirst hconnect
  | exhausted err logger hafter => exact .exhausted hafter.declined

end Resolving

end Poll

/-! ## When a resolution is right -/

section Settle

variable {services : Services Signer} {resourceId key : String} {accepts : String → Prop}
  {connect : String → ContractStore Signer →
    Except JsError (Contract Signer) × ContractStore Signer}
  {start : NodeSession Signer} {attempts : Nat}

/-- What a resolution returns: the contract it then reads from the store. -/
def readBack (key : String) (settled : Except JsError Bool × NodeSession Signer) :
    Except JsError (Contract Signer) × NodeSession Signer :=
  match settled with
  | (.error err, session) => (.error err, session)
  | (.ok _, session) => (session.contractStore.get key, session)

theorem boundToFirst_error {err : JsError} {after : NodeSession Signer} :
    BoundToFirst services resourceId start (.error err, after) :=
  fun contract hreturned => by cases hreturned

/-- A resolution that declines no registered address returns what it should exactly if
it reads a contract bound to the first address it accepted, and this is not zero. -/
theorem Resolution.boundToFirst_iff (hall : ∀ address, address ≠ ZERO_ADDRESS → accepts address)
    {settled : Except JsError Bool × NodeSession Signer}
    (hresolution : Resolution accepts (start.answer services resourceId) connect
      start.contractStore start.queries attempts settled) :
    BoundToFirst services resourceId start (readBack key settled) ↔
      ∀ n < attempts, ∀ address,
        FirstAccepted accepts (start.answer services resourceId) n address →
        ∀ connected contract, (connect address start.contractStore).1 = .ok connected →
          (connect address start.contractStore).2.get key = .ok contract →
          address ≠ ZERO_ADDRESS ∧ contract.address = address := by
  -- a declined address is zero
  have hzero : ∀ j, Declined accepts (start.answer services resourceId) j → ∀ other,
      start.answer services resourceId j = .ok other → other = ZERO_ADDRESS := by
    intro j hdeclined other hother
    obtain ⟨address, hanswer, hrefused⟩ := hdeclined
    obtain rfl := Except.ok.inj (hother.symm.trans hanswer)
    exact not_imp_comm.mp (hall other) hrefused
  cases hresolution with
  | @connected n address connected value after hlt hfirst hconnect hstore hqueries =>
      have hread : ∀ contract, (readBack key (.ok value, after)).1 = .ok contract ↔
          (connect address start.contractStore).2.get key = .ok contract := by
        intro contract
        rw [← hstore]
        rfl
      constructor
      · intro hbound m _ other hother connected' contract _ hcontract
        obtain ⟨rfl, rfl⟩ := hfirst.unique hother
        obtain ⟨k, hk, ⟨other, hanswer, hne, haddress⟩, -⟩ := hbound contract ((hread _).mpr hcontract)
        -- the endpoint was not queried after the accepted address
        have hle : k < n ∨ k = n := by
          change start.queries + k < after.queries at hk
          omega
        rcases hle with hbefore | rfl
        · exact absurd (hzero k (hfirst.declined k hbefore) other hanswer) hne
        · obtain rfl := Except.ok.inj (hanswer.symm.trans hfirst.answered)
          exact ⟨hne, haddress⟩
      · intro hcondition contract hreturned
        obtain ⟨hne, haddress⟩ := hcondition n hlt address hfirst connected contract hconnect
          ((hread contract).mp hreturned)
        have hqueried : start.queries + n < after.queries := by omega
        exact ⟨n, hqueried, ⟨address, hfirst.answered, hne, haddress⟩,
          fun j hj => hzero j (hfirst.declined j hj)⟩
  | unconnected hfirst hconnect =>
      apply iff_of_true boundToFirst_error
      intro m _ other hother connected contract hconnected
      obtain ⟨rfl, rfl⟩ := hfirst.unique hother
      cases hconnect.symm.trans hconnected
  | @failed n err after hdeclined hanswer =>
      apply iff_of_true boundToFirst_error
      intro m _ other hother
      rcases Nat.lt_trichotomy m n with hlt | rfl | hgt
      · exact absurd (hdeclined m hlt) hother.not_declined
      · cases hanswer.symm.trans hother.answered
      · obtain ⟨address, haddress, _⟩ := hother.declined n hgt
        cases hanswer.symm.trans haddress
  | exhausted hdeclined =>
      apply iff_of_true boundToFirst_error
      intro m hm other hother
      exact absurd (hdeclined m hm) hother.not_declined

end Settle

end RaylsSuite.Entities
