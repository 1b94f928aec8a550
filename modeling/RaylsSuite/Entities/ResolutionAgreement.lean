import RaylsSuite.Entities.ResourceResolution

/-! # Where the two resolutions agree

The node declines the zero address and the hub declines none, and each reads its
contract back from a store that may hold an older one under the key.
-/

namespace RaylsSuite.Entities

open Common Config

variable {Signer : Type}

/-- A call of `setContractByResourceId` with what it runs against. -/
structure ResourceCall (Signer : Type) where
  services : Services Signer
  session : NodeSession Signer
  factoryName : String
  cacheKey : String

def ResourceCall.answer (call : ResourceCall Signer) (resourceId : String) :
    Nat → Except JsError String :=
  call.session.answer call.services resourceId

namespace ContractStore

variable [DecidableEq Signer] {store : ContractStore Signer} {artifacts : Artifacts}
  {factoryName address key : String} {signer : Signer} {connected contract : Contract Signer}

omit [DecidableEq Signer] in
theorem get_eq_ok : store.get key = .ok contract ↔ store.cache key = some contract := by
  unfold get
  cases store.cache key with
  | none => simp
  | some cached => simp

/-- The address of the contract that `connectAt` returns. -/
theorem connectAt_address
    (hconnected : (store.connectAt artifacts factoryName address key signer).1 = .ok connected) :
    connected.address = ((store.hit key signer).map (·.address)).getD address := by
  cases hhit : store.hit key signer with
  | some cached =>
      rw [connectAt_hit hhit] at hconnected
      cases hconnected
      rfl
  | none =>
      rw [connectAt_miss hhit] at hconnected
      cases hartifact : artifacts (formatFactoryName factoryName) with
      | error err =>
          rw [connect_error hartifact] at hconnected
          cases hconnected
      | ok found =>
          rw [connect_ok hartifact] at hconnected
          cases hconnected
          rfl

/-- A connection leaves its contract under the formatted key and keeps the others. -/
theorem connectAt_cache
    (hconnected : (store.connectAt artifacts factoryName address key signer).1 = .ok connected) :
    (store.connectAt artifacts factoryName address key signer).2.cache =
      Function.update store.cache (formatFactoryName key) (some connected) := by
  cases hhit : store.hit key signer with
  | some cached =>
      rw [connectAt_hit hhit] at hconnected ⊢
      cases hconnected
      obtain ⟨hcached, _⟩ := Option.filter_eq_some_iff.mp hhit
      exact (Function.update_eq_self_iff.mpr hcached.symm).symm
  | none =>
      rw [connectAt_miss hhit] at hconnected ⊢
      cases hartifact : artifacts (formatFactoryName factoryName) with
      | error err =>
          rw [connect_error hartifact] at hconnected
          cases hconnected
      | ok found =>
          rw [connect_ok hartifact] at hconnected ⊢
          cases hconnected
          rfl

/-- `connectAt` neither hits nor connects. -/
def Unconnectable (store : ContractStore Signer) (artifacts : Artifacts)
    (factoryName key : String) (signer : Signer) : Prop :=
  store.hit key signer = none ∧ artifacts (formatFactoryName factoryName) ≠ .ok ()

/-- `connectAt` answers exactly when the contract can be connected. -/
theorem connectAt_ok_iff :
    (∃ connected, (store.connectAt artifacts factoryName address key signer).1 = .ok connected) ↔
      ¬store.Unconnectable artifacts factoryName key signer := by
  unfold Unconnectable
  cases hhit : store.hit key signer with
  | some cached => simp [connectAt_hit hhit]
  | none =>
      rw [connectAt_miss hhit]
      cases hartifact : artifacts (formatFactoryName factoryName) with
      | error err => simp [connect_error hartifact]
      | ok found => simp [connect_ok hartifact]

/-- What the key reads after a connection under it is bound to the address: the contract
that was hit, or the older one under a key that the formatting changes. -/
def ReadsBack (store : ContractStore Signer) (address key : String) (signer : Signer) : Prop :=
  if formatFactoryName key = key then
    ∀ cached, store.hit key signer = some cached → cached.address = address
  else ∀ stale, store.cache key = some stale → stale.address = address

theorem readsBack_kept (hkey : formatFactoryName key = key) :
    store.ReadsBack address key signer ↔
      ∀ cached, store.hit key signer = some cached → cached.address = address := by
  rw [ReadsBack, if_pos hkey]

/-- Under a key that the formatting keeps, the contract that a connection returns is read back. -/
theorem get_connectAt (hkey : formatFactoryName key = key)
    (hconnected : (store.connectAt artifacts factoryName address key signer).1 = .ok connected) :
    (store.connectAt artifacts factoryName address key signer).2.get key = .ok connected := by
  rw [get_eq_ok, connectAt_cache hconnected, hkey, Function.update_self]

theorem readsBack_iff (store : ContractStore Signer) (artifacts : Artifacts)
    (factoryName address key : String) (signer : Signer) :
    (∀ connected contract,
      (store.connectAt artifacts factoryName address key signer).1 = .ok connected →
      (store.connectAt artifacts factoryName address key signer).2.get key = .ok contract →
      contract.address = address) ↔
    store.Unconnectable artifacts factoryName key signer ∨ store.ReadsBack address key signer := by
  by_cases hunconnectable : store.Unconnectable artifacts factoryName key signer
  · apply iff_of_true _ (Or.inl hunconnectable)
    intro connected _ hconnected
    exact absurd hunconnectable (connectAt_ok_iff.mp ⟨connected, hconnected⟩)
  · rw [or_iff_right hunconnectable]
    obtain ⟨connected, hconnected⟩ : ∃ connected,
        (store.connectAt artifacts factoryName address key signer).1 = .ok connected :=
      connectAt_ok_iff.mpr hunconnectable
    have hread : (∀ connected contract,
        (store.connectAt artifacts factoryName address key signer).1 = .ok connected →
        (store.connectAt artifacts factoryName address key signer).2.get key = .ok contract →
        contract.address = address) ↔
        ∀ contract, Function.update store.cache (formatFactoryName key) (some connected) key =
          some contract → contract.address = address := by
      rw [← connectAt_cache hconnected]
      constructor
      · exact fun h contract hcontract =>
          h connected contract hconnected (get_eq_ok.mpr hcontract)
      · exact fun h _ contract _ hcontract => h contract (get_eq_ok.mp hcontract)
    rw [hread, ReadsBack]
    split
    next hkey =>
      rw [hkey, Function.update_self]
      simp only [Option.some.injEq, forall_eq']
      rw [connectAt_address hconnected]
      cases store.hit key signer with
      | none => simp
      | some cached => simp
    next hkey =>
      rw [Function.update_of_ne (Ne.symm hkey)]

end ContractStore

section Agreement

variable [DecidableEq Signer] (PARALLEL_WORKERS : Option String) (resourceId : String)

/-- When the node's resolution returns what it should: it throws before it returns, or what
its key reads in the end is bound to the first registered address. -/
def PrivacyNode.Ready (signer : Signer) (call : ResourceCall Signer) : Prop :=
  (∃ err, call.session.getEndpointV1 = .error err) ∨
    call.session.contractStore.Unconnectable call.services.artifacts call.factoryName
      call.cacheKey signer ∨
    ∀ n < 300, ∀ address,
      FirstAccepted (· ≠ ZERO_ADDRESS) (call.answer resourceId) n address →
      call.session.contractStore.ReadsBack address call.cacheKey signer

/-- When the hub's resolution returns what it should: it throws before it returns, or the
first answer is a registered address and no contract bound elsewhere is hit. -/
def PrivateHub.Ready (hub : PrivateHub Signer) (call : ResourceCall Signer) : Prop :=
  resourceId = ZERO_HASH ∨ (∃ err, call.session.getEndpointV1 = .error err) ∨
    call.session.contractStore.Unconnectable call.services.artifacts call.factoryName
      (call.cacheKey ++ "PNH") hub.userWallet ∨
    ∀ address, call.answer resourceId 0 = .ok address → address ≠ ZERO_ADDRESS ∧
      ∀ cached, call.session.contractStore.hit (call.cacheKey ++ "PNH") hub.userWallet =
        some cached → cached.address = address

/-! ## The node -/

/-- The connection that the node makes for an address. -/
def ResourceCall.connect (call : ResourceCall Signer) (signer : Signer) (address : String)
    (store : ContractStore Signer) : Except JsError (Contract Signer) × ContractStore Signer :=
  store.connectAt call.services.artifacts call.factoryName address call.cacheKey signer

theorem PrivacyNode.resolving (call : ResourceCall Signer) (signer : Signer)
    {endpoint : Contract Signer} (hendpoint : call.session.getEndpointV1 = .ok endpoint) :
    Resolving call.services resourceId (· ≠ ZERO_ADDRESS) (call.connect signer)
      call.session.contractStore
      (PrivacyNode.resolve call.services call.factoryName resourceId call.cacheKey signer) := by
  have hpresent : ∀ session : NodeSession Signer,
      session.contractStore = call.session.contractStore → session.getEndpointV1 = .ok endpoint := by
    intro session hstore
    rw [NodeSession.getEndpointV1, hstore]
    exact hendpoint
  constructor
  · intro session err hstore hanswer
    simp only [PrivacyNode.resolve, hpresent session hstore, hanswer]
  · intro session address hstore hanswer hzero
    simp only [PrivacyNode.resolve, hpresent session hstore, hanswer, not_not.mp hzero, if_true]
  · intro session address hstore hanswer hne
    simp only [PrivacyNode.resolve, hpresent session hstore, hanswer, if_neg hne, hstore]
    rfl

theorem PrivacyNode.setContractByResourceId_eq (node : PrivacyNode Signer) (signer : Signer)
    (call : ResourceCall Signer) :
    node.setContractByResourceId PARALLEL_WORKERS call.services call.factoryName resourceId
      call.cacheKey signer call.session =
    readBack call.cacheKey (eventually PARALLEL_WORKERS
      (PrivacyNode.waitOptions call.services call.factoryName resourceId call.cacheKey signer)
      (node.waitMessage call.factoryName resourceId) call.session) := by
  unfold PrivacyNode.setContractByResourceId readBack
  obtain ⟨outcome, after⟩ := eventually PARALLEL_WORKERS
    (PrivacyNode.waitOptions call.services call.factoryName resourceId call.cacheKey signer)
    (node.waitMessage call.factoryName resourceId) call.session
  cases outcome with
  | error err => rfl
  | ok value => rfl

/-- Without an endpoint the node's check throws, and the call with it. -/
theorem PrivacyNode.eventually_unavailable (node : PrivacyNode Signer) (signer : Signer)
    (call : ResourceCall Signer) {err : JsError}
    (hendpoint : call.session.getEndpointV1 = .error err) :
    ∃ err' after, eventually PARALLEL_WORKERS
      (PrivacyNode.waitOptions call.services call.factoryName resourceId call.cacheKey signer)
      (node.waitMessage call.factoryName resourceId) call.session = (.error err', after) := by
  have hcheck : ∀ session : NodeSession Signer,
      session.contractStore = call.session.contractStore →
      (PrivacyNode.waitOptions call.services call.factoryName resourceId call.cacheKey
        signer).check session = (.error err, session) := by
    intro session hstore
    have hmissing : session.getEndpointV1 = .error err := by
      rw [NodeSession.getEndpointV1, hstore]
      exact hendpoint
    simp only [PrivacyNode.waitOptions, PrivacyNode.resolve, hmissing]
  apply eventually_unmatched PARALLEL_WORKERS _
    fun session => session.contractStore = call.session.contractStore
  · intro session hstore
    rw [hcheck session hstore]
    exact hstore
  · exact fun session ms hstore => hstore
  · exact fun session logger hstore => hstore
  · intro session value hstore hvalue
    rw [hcheck session hstore] at hvalue
    cases hvalue
  · rfl

/-- The node's resolution returns what it should exactly when it is ready. -/
theorem PrivacyNode.boundToFirst_iff (node : PrivacyNode Signer) (signer : Signer)
    (call : ResourceCall Signer) :
    BoundToFirst call.services resourceId call.session
      (node.setContractByResourceId PARALLEL_WORKERS call.services call.factoryName resourceId
        call.cacheKey signer call.session) ↔
      PrivacyNode.Ready resourceId signer call := by
  rw [PrivacyNode.setContractByResourceId_eq, PrivacyNode.Ready]
  cases hendpoint : call.session.getEndpointV1 with
  | error err =>
      obtain ⟨err', after, hsettled⟩ := PrivacyNode.eventually_unavailable PARALLEL_WORKERS
        resourceId node signer call hendpoint
      rw [hsettled]
      exact iff_of_true boundToFirst_error (Or.inl ⟨err, rfl⟩)
  | ok endpoint =>
      have hresolution := Resolving.resolution PARALLEL_WORKERS
        (PrivacyNode.waitOptions call.services call.factoryName resourceId call.cacheKey signer)
        (PrivacyNode.resolving resourceId call signer hendpoint) rfl
        (node.waitMessage call.factoryName resourceId)
      rw [hresolution.boundToFirst_iff fun address hne => hne]
      have hread := fun address => call.session.contractStore.readsBack_iff
        call.services.artifacts call.factoryName address call.cacheKey signer
      constructor
      · intro hreturns
        by_cases hthrows : call.session.contractStore.Unconnectable call.services.artifacts
            call.factoryName call.cacheKey signer
        · exact Or.inr (Or.inl hthrows)
        · apply Or.inr ∘ Or.inr
          intro n hn address hfirst
          apply ((hread address).mp _).resolve_left hthrows
          intro connected contract hconnected hcontract
          exact (hreturns n hn address hfirst connected contract hconnected hcontract).2
      · intro hready n hn address hfirst connected contract hconnected hcontract
        refine ⟨hfirst.accepted, (hread address).mpr ?_ connected contract hconnected hcontract⟩
        obtain ⟨err, herr⟩ | hthrows | hfound := hready
        · cases herr
        · exact Or.inl hthrows
        · exact Or.inr (hfound n hn address hfirst)

/-! ## The hub -/

/-- The hub's keys are kept by the formatting. -/
theorem PrivateHub.formatFactoryName_key (cacheKey : String) :
    formatFactoryName (cacheKey ++ "PNH") = cacheKey ++ "PNH" :=
  formatFactoryName_append cacheKey "PNH" (by decide : "PNH".toList.getLast? = some 'H') (by decide)

theorem PrivateHub.getContractAt_eq (hub : PrivateHub Signer) (services : Services Signer)
    (factoryName address cacheKey : String) (store : ContractStore Signer) :
    hub.getContractAt services factoryName address (cacheKey ++ "PNH") none store =
      store.connectAt services.artifacts factoryName address (cacheKey ++ "PNH")
        hub.userWallet := by
  simp only [PrivacyNode.getContractAt, PrivateHub.formatFactoryName_key, Option.getD_none]

theorem PrivateHub.resolving (hub : PrivateHub Signer) (call : ResourceCall Signer)
    (hresource : resourceId ≠ ZERO_HASH) :
    Resolving call.services resourceId (fun _ => True)
      (fun address store => store.connectAt call.services.artifacts call.factoryName address
        (call.cacheKey ++ "PNH") hub.userWallet)
      call.session.contractStore
      (hub.resolve call.services call.factoryName resourceId call.cacheKey) := by
  constructor
  · intro session err hstore hanswer
    simp only [PrivateHub.resolve, if_neg hresource, hanswer]
  · intro session address hstore hanswer hdeclined
    exact absurd trivial hdeclined
  · intro session address hstore hanswer _
    simp only [PrivateHub.resolve, if_neg hresource, hanswer, hstore, PrivateHub.getContractAt_eq]

theorem PrivateHub.setContractByResourceId_eq (hub : PrivateHub Signer)
    (call : ResourceCall Signer) {endpoint : Contract Signer}
    (hendpoint : call.session.getEndpointV1 = .ok endpoint) :
    hub.setContractByResourceId PARALLEL_WORKERS call.services call.factoryName resourceId
      call.cacheKey call.session =
    readBack (call.cacheKey ++ "PNH") (eventually PARALLEL_WORKERS
      (hub.waitOptions call.services call.factoryName resourceId call.cacheKey)
      (PrivateHub.waitMessage resourceId) call.session) := by
  simp only [PrivateHub.setContractByResourceId, hendpoint, readBack]
  obtain ⟨outcome, after⟩ := eventually PARALLEL_WORKERS
    (hub.waitOptions call.services call.factoryName resourceId call.cacheKey)
    (PrivateHub.waitMessage resourceId) call.session
  cases outcome with
  | error err => rfl
  | ok value => rfl

/-- For the zero resource id the hub's wait never ends well. -/
theorem PrivateHub.eventually_zeroHash (hub : PrivateHub Signer) (call : ResourceCall Signer) :
    ∃ err after, eventually PARALLEL_WORKERS
      (hub.waitOptions call.services call.factoryName ZERO_HASH call.cacheKey)
      (PrivateHub.waitMessage ZERO_HASH) call.session = (.error err, after) := by
  have hcheck : ∀ session : NodeSession Signer,
      (hub.waitOptions call.services call.factoryName ZERO_HASH call.cacheKey).check session =
        (.ok false, session) := by
    intro session
    simp only [PrivateHub.waitOptions, PrivateHub.resolve, if_true]
  apply eventually_unmatched PARALLEL_WORKERS _ fun _ => True
  · exact fun _ _ => trivial
  · exact fun _ _ _ => trivial
  · exact fun _ _ _ => trivial
  · intro session value _ hvalue
    rw [hcheck session] at hvalue
    cases hvalue
    rfl
  · trivial

theorem PrivateHub.budget_pos (hub : PrivateHub Signer) (services : Services Signer)
    (factoryName cacheKey : String) :
    0 < (hub.waitOptions services factoryName resourceId cacheKey).budget PARALLEL_WORKERS := by
  have hmultiplier := TIMEOUT_MULTIPLIER_pos PARALLEL_WORKERS
  have hseconds := DEFAULT_TIMEOUT_seconds PARALLEL_WORKERS
  change 0 < DEFAULT_TIMEOUT PARALLEL_WORKERS / SECOND
  omega

/-- The hub's resolution returns what it should exactly when it is ready. -/
theorem PrivateHub.boundToFirst_iff (hub : PrivateHub Signer) (call : ResourceCall Signer) :
    BoundToFirst call.services resourceId call.session
      (hub.setContractByResourceId PARALLEL_WORKERS call.services call.factoryName resourceId
        call.cacheKey call.session) ↔
      hub.Ready resourceId call := by
  rw [PrivateHub.Ready]
  cases hendpoint : call.session.getEndpointV1 with
  | error err =>
      simp only [PrivateHub.setContractByResourceId, hendpoint]
      exact iff_of_true boundToFirst_error (Or.inr (Or.inl ⟨err, rfl⟩))
  | ok endpoint =>
      rw [PrivateHub.setContractByResourceId_eq PARALLEL_WORKERS resourceId hub call hendpoint]
      by_cases hresource : resourceId = ZERO_HASH
      · subst hresource
        obtain ⟨err, after, hsettled⟩ := PrivateHub.eventually_zeroHash PARALLEL_WORKERS hub call
        rw [hsettled]
        exact iff_of_true boundToFirst_error (Or.inl rfl)
      · have hresolution := Resolving.resolution PARALLEL_WORKERS
          (hub.waitOptions call.services call.factoryName resourceId call.cacheKey)
          (PrivateHub.resolving resourceId hub call hresource) rfl
          (PrivateHub.waitMessage resourceId)
        rw [hresolution.boundToFirst_iff fun _ _ => trivial]
        have hread := fun address => call.session.contractStore.readsBack_iff
          call.services.artifacts call.factoryName address (call.cacheKey ++ "PNH") hub.userWallet
        have hkey := PrivateHub.formatFactoryName_key call.cacheKey
        constructor
        · intro hreturns
          by_cases hthrows : call.session.contractStore.Unconnectable call.services.artifacts
              call.factoryName (call.cacheKey ++ "PNH") hub.userWallet
          · exact Or.inr (Or.inr (Or.inl hthrows))
          · apply Or.inr ∘ Or.inr ∘ Or.inr
            intro address hanswer
            have hfirst : FirstAccepted (fun _ => True) (call.answer resourceId) 0 address :=
              ⟨hanswer, trivial, fun j hj => absurd hj (Nat.not_lt_zero j)⟩
            have hboth := hreturns 0 (PrivateHub.budget_pos PARALLEL_WORKERS resourceId hub
              call.services call.factoryName call.cacheKey) address hfirst
            obtain ⟨connected, hconnected⟩ := ContractStore.connectAt_ok_iff.mpr hthrows
            refine ⟨(hboth connected connected hconnected
              (ContractStore.get_connectAt hkey hconnected)).1, ?_⟩
            apply (ContractStore.readsBack_kept hkey).mp
            apply ((hread address).mp _).resolve_left hthrows
            intro connected contract hconnected hcontract
            exact (hboth connected contract hconnected hcontract).2
        · intro hready n hn address hfirst connected contract hconnected hcontract
          obtain hzero | ⟨err, herr⟩ | hthrows | hfound := hready
          · exact absurd hzero hresource
          · cases herr
          · exact absurd hthrows (ContractStore.connectAt_ok_iff.mp ⟨connected, hconnected⟩)
          · -- the hub declines no answer, so it accepts the first
            cases n with
            | succ n =>
                obtain ⟨other, _, hdeclined⟩ := hfirst.declined 0 (Nat.succ_pos n)
                exact absurd trivial hdeclined
            | zero =>
                obtain ⟨hne, hcached⟩ := hfound address hfirst.answered
                have hreads := (ContractStore.readsBack_kept hkey).mpr hcached
                exact ⟨hne, (hread address).mpr (Or.inr hreads) connected contract hconnected
                  hcontract⟩

/-! ## Both -/

/-- Both resolutions return only contracts that are bound to the first address registered
during the call exactly when both are ready. -/
theorem setContractByResourceId_boundToFirst_iff (node : PrivacyNode Signer)
    (hub : PrivateHub Signer) (signer : Signer) (nodeCall hubCall : ResourceCall Signer) :
    (BoundToFirst nodeCall.services resourceId nodeCall.session
        (node.setContractByResourceId PARALLEL_WORKERS nodeCall.services nodeCall.factoryName
          resourceId nodeCall.cacheKey signer nodeCall.session) ∧
      BoundToFirst hubCall.services resourceId hubCall.session
        (hub.setContractByResourceId PARALLEL_WORKERS hubCall.services hubCall.factoryName
          resourceId hubCall.cacheKey hubCall.session)) ↔
      PrivacyNode.Ready resourceId signer nodeCall ∧ hub.Ready resourceId hubCall :=
  and_congr (PrivacyNode.boundToFirst_iff PARALLEL_WORKERS resourceId node signer nodeCall)
    (PrivateHub.boundToFirst_iff PARALLEL_WORKERS resourceId hub hubCall)

/-- The endpoint answers the zero address once and then the registered one. -/
def registeredLate : ResourceCall String where
  services :=
    { artifacts := fun _ => .ok ()
      getAddress := id
      getAddressByResourceId := fun _ n => .ok (if n = 0 then ZERO_ADDRESS else "0xa11ce") }
  session :=
    { contractStore := ContractStore.new.set "EndpointV1" ⟨"EndpointV1", "0xe4d", some "user"⟩
      queries := 0
      clock := 0
      logger := Logger.new }
  factoryName := "EnygmaV1__factory"
  cacheKey := "ENY"

def nodeA : PrivacyNode String :=
  ⟨"A", "0x1", "user", some "0x4e9", ZERO_ADDRESS, ZERO_ADDRESS⟩

theorem not_boundToFirst_registeredLate :
    ¬(BoundToFirst registeredLate.services "0x01" registeredLate.session
        (PrivacyNode.setContractByResourceId none registeredLate.services
          registeredLate.factoryName "0x01" registeredLate.cacheKey nodeA "user"
          registeredLate.session) ∧
      BoundToFirst registeredLate.services "0x01" registeredLate.session
        (PrivateHub.setContractByResourceId none registeredLate.services
          registeredLate.factoryName "0x01" registeredLate.cacheKey ⟨nodeA⟩
          registeredLate.session)) := by
  intro hboth
  obtain ⟨n, _, ⟨address, _, hne, haddress⟩, _⟩ :=
    hboth.2 ⟨"EnygmaV1", ZERO_ADDRESS, some "user"⟩ (by decide)
  exact hne haddress.symm

end Agreement

end RaylsSuite.Entities
