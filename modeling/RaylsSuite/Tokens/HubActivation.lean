import Mathlib.Data.List.Nodup
import RaylsSuite.Config.EnvConfig
import RaylsSuite.Foundation.Machine

/-! # Activating a token on the hub

A wrapper submits its contract to the hub, which assigns a resource id to it.
The wrapper reads the id back from the hub's registry, where it looks for its
symbol, has that id approved, and waits until its contract has one. Between any
two awaits the hub serves other activations, and operators approve tokens.
-/

namespace RaylsSuite.Tokens

open Config Foundation

/-! ## The registry of the hub -/

/-- A token on the registry; `contract` is what its resource id was assigned to. -/
structure HubToken where
  resourceId : String
  contract : String
  symbol : String
  status : Nat
deriving DecidableEq, Repr

/-- The tokens in the order of `getAllTokens`. Ids are assigned once, and contracts get one. -/
structure TokenRegistry where
  tokens : List HubToken
  resourceIds : (tokens.map HubToken.resourceId).Nodup
  contracts : (tokens.map HubToken.contract).Nodup
  assigned : ∀ token ∈ tokens, token.resourceId ≠ ZERO_HASH

theorem perm_placed {α : Type} (list : List α) (position : Nat) (member : α) :
    (list.take position ++ member :: list.drop position).Perm (member :: list) := by
  have hperm := @List.perm_middle _ member (list.take position) (list.drop position)
  rwa [List.take_append_drop] at hperm

def HubToken.withStatus (resourceId : String) (status : Nat) (token : HubToken) : HubToken :=
  if token.resourceId = resourceId then { token with status } else token

@[simp] theorem HubToken.withStatus_resourceId (resourceId : String) (status : Nat)
    (token : HubToken) : (token.withStatus resourceId status).resourceId = token.resourceId := by
  unfold HubToken.withStatus
  split <;> rfl

@[simp] theorem HubToken.withStatus_contract (resourceId : String) (status : Nat)
    (token : HubToken) : (token.withStatus resourceId status).contract = token.contract := by
  unfold HubToken.withStatus
  split <;> rfl

namespace TokenRegistry

variable (registry : TokenRegistry)

/-- What one check of `getTokenFromRegistry` finds. -/
def getTokenFromRegistry (tokenSymbol : String) : Option HubToken :=
  registry.tokens.find? fun x => x.symbol = tokenSymbol

def getTokenByResourceId (resourceId : String) : Option HubToken :=
  registry.tokens.find? fun x => x.resourceId = resourceId

/-- The hub has assigned the id to the contract. -/
def Assigned (resourceId contract : String) : Prop :=
  ∃ token ∈ registry.tokens, token.resourceId = resourceId ∧ token.contract = contract

/-- A token with a new id enters the registry at some position. -/
def addToken (position : Nat) (token : HubToken) : Option TokenRegistry :=
  if hfresh : token.resourceId ≠ ZERO_HASH ∧
      token.resourceId ∉ registry.tokens.map HubToken.resourceId ∧
      token.contract ∉ registry.tokens.map HubToken.contract then
    have hperm := perm_placed registry.tokens position token
    some {
      tokens := registry.tokens.take position ++ token :: registry.tokens.drop position
      resourceIds := (hperm.map _).nodup_iff.mpr
        (List.nodup_cons.mpr ⟨hfresh.2.1, registry.resourceIds⟩)
      contracts := (hperm.map _).nodup_iff.mpr
        (List.nodup_cons.mpr ⟨hfresh.2.2, registry.contracts⟩)
      assigned := fun _ hmem => (List.mem_cons.mp (hperm.mem_iff.mp hmem)).elim
        (fun hnew => hnew ▸ hfresh.1) (registry.assigned _) }
  else none

def updateStatus (resourceId : String) (status : Nat) : TokenRegistry where
  tokens := registry.tokens.map (HubToken.withStatus resourceId status)
  resourceIds := by simpa [Function.comp_def] using registry.resourceIds
  contracts := by simpa [Function.comp_def] using registry.contracts
  assigned := by simpa using registry.assigned

variable {registry} {resourceId other contract : String}

theorem Assigned.ne_zero (hassigned : registry.Assigned resourceId contract) :
    resourceId ≠ ZERO_HASH := by
  obtain ⟨token, hmem, rfl, -⟩ := hassigned
  exact registry.assigned token hmem

theorem Assigned.contract_unique (hfirst : registry.Assigned resourceId contract)
    (hsecond : registry.Assigned resourceId other) : contract = other := by
  obtain ⟨first, hfirst, hid, rfl⟩ := hfirst
  obtain ⟨second, hsecond, hsame, rfl⟩ := hsecond
  have hequal := List.inj_on_of_nodup_map registry.resourceIds hfirst hsecond
    (hid.trans hsame.symm)
  rw [hequal]

theorem Assigned.resourceId_unique (hfirst : registry.Assigned resourceId contract)
    (hsecond : registry.Assigned other contract) : resourceId = other := by
  obtain ⟨first, hfirst, rfl, hcontract⟩ := hfirst
  obtain ⟨second, hsecond, rfl, hsame⟩ := hsecond
  have hequal := List.inj_on_of_nodup_map registry.contracts hfirst hsecond
    (hcontract.trans hsame.symm)
  rw [hequal]

theorem assigned_of_find {property : HubToken → Bool} {token : HubToken}
    (hfound : registry.tokens.find? property = some token) :
    registry.Assigned token.resourceId token.contract :=
  ⟨token, List.mem_of_find?_eq_some hfound, rfl, rfl⟩

theorem Assigned.addToken {position : Nat} {token : HubToken} {next : TokenRegistry}
    (hassigned : registry.Assigned resourceId contract)
    (hadded : registry.addToken position token = some next) :
    next.Assigned resourceId contract := by
  unfold TokenRegistry.addToken at hadded
  split at hadded
  next =>
    obtain rfl := Option.some.inj hadded
    obtain ⟨member, hmem, hids⟩ := hassigned
    exact ⟨member, (perm_placed _ _ _).mem_iff.mpr (List.mem_cons_of_mem token hmem), hids⟩
  next => cases hadded

theorem Assigned.updateStatus (hassigned : registry.Assigned resourceId contract)
    (status : Nat) : (registry.updateStatus other status).Assigned resourceId contract := by
  obtain ⟨token, hmem, rfl, rfl⟩ := hassigned
  exact ⟨_, List.mem_map_of_mem hmem, token.withStatus_resourceId .., token.withStatus_contract ..⟩

end TokenRegistry

/-! ## The hub and the contracts -/

/-- A message in flight to the hub, with the metadata of a token. -/
structure Submission where
  contract : String
  symbol : String
deriving DecidableEq, Repr

/-- A callback in flight from the hub. -/
structure ActivateToken where
  resourceId : String
  contract : String
deriving DecidableEq, Repr

/-- The hub's registry, the messages in flight, and the answers of `resourceId()` of the
contracts. Only the callbacks of the hub set the id of a contract. -/
structure TokenHub where
  registry : TokenRegistry
  submissions : List Submission
  callbacks : List ActivateToken
  resourceId : String → String
  requested : ∀ callback ∈ callbacks,
    registry.Assigned callback.resourceId callback.contract
  activated : ∀ contract, resourceId contract ≠ ZERO_HASH →
    registry.Assigned (resourceId contract) contract

namespace TokenHub

variable (hub : TokenHub)

def submitToHub (contract symbol : String) : TokenHub :=
  { hub with submissions := hub.submissions ++ [⟨contract, symbol⟩] }

/-- The hub takes a submission and assigns a resource id to its contract. -/
def addToken (submission position : Nat) (resourceId : String) (status : Nat) :
    Option TokenHub :=
  hub.submissions[submission]?.bind fun submitted =>
    match hadded : hub.registry.addToken position
        ⟨resourceId, submitted.contract, submitted.symbol, status⟩ with
    | none => none
    | some registry => some { hub with
        registry
        submissions := hub.submissions.eraseIdx submission
        requested := fun callback hmem => (hub.requested callback hmem).addToken hadded
        activated := fun contract hset => (hub.activated contract hset).addToken hadded }

/-- An approval has the callback sent. -/
def updateStatus (resourceId : String) (status : Nat) : Option TokenHub :=
  match hfound : hub.registry.getTokenByResourceId resourceId with
  | none => none
  | some token => some { hub with
      registry := hub.registry.updateStatus resourceId status
      callbacks := if status = 1 then hub.callbacks ++ [⟨token.resourceId, token.contract⟩]
        else hub.callbacks
      requested := fun callback hmem => by
        have hrequested : callback ∈ hub.callbacks ∨
            callback = ⟨token.resourceId, token.contract⟩ := by
          split at hmem
          next => simpa using hmem
          next => exact .inl hmem
        rcases hrequested with hold | rfl
        · exact (hub.requested callback hold).updateStatus status
        · exact (TokenRegistry.assigned_of_find hfound).updateStatus status
      activated := fun contract hset => (hub.activated contract hset).updateStatus status }

/-- The relayer delivers a callback, which sets the resource id of its contract. -/
def activateToken (callback : Nat) : Option TokenHub :=
  match hcallback : hub.callbacks[callback]? with
  | none => none
  | some delivered => some { hub with
      callbacks := hub.callbacks.eraseIdx callback
      resourceId := Function.update hub.resourceId delivered.contract delivered.resourceId
      requested := fun callback hmem => hub.requested callback (List.mem_of_mem_eraseIdx hmem)
      activated := fun contract hset => by
        by_cases hcontract : contract = delivered.contract
        · subst hcontract
          rw [Function.update_self]
          exact hub.requested delivered (List.mem_of_getElem? hcallback)
        · rw [Function.update_of_ne hcontract] at hset ⊢
          exact hub.activated contract hset }

end TokenHub

/-! ## The calls of `activateOnHub` -/

/-- The await that a call is suspended in, with the attempts that a wait has left after it. The
delays between attempts change nothing. -/
inductive HubPhase where
  | getPnTokenRegistry
  | submitToHub
  | getAllTokens (left : Nat)
  | getTokenRegistryAsOperator
  | getTokenByResourceId
  | updateStatus
  | resourceId (left : Nat)
  | returned
  | threw
deriving DecidableEq, Repr

/-- The next attempt of a wait, or its exhaustion. -/
def HubPhase.attempt (check : Nat → HubPhase) : Nat → HubPhase
  | 0 => .threw
  | left + 1 => check left

/-- A call: the wrapper's contract, symbol and resource id, and the local `tokenOnRegistry`. -/
structure HubCall where
  address : String
  symbol : String
  resourceId : String
  tokenOnRegistry : Option HubToken
  phase : HubPhase
deriving DecidableEq, Repr

namespace HubCall

def activateOnHub (address symbol resourceId : String) : HubCall :=
  ⟨address, symbol, resourceId, none, .getPnTokenRegistry⟩

/-- The call goes on with the token that its lookup has found. -/
def found (call : HubCall) (token : HubToken) : HubCall :=
  { call with
      tokenOnRegistry := some token
      resourceId := token.resourceId
      phase := .getTokenRegistryAsOperator }

/-- The await of a call resolves; `attempts` is the budget of a wait. -/
def resolved (attempts : Nat) (hub : TokenHub) (call : HubCall) : Option (HubCall × TokenHub) :=
  match call.phase with
  | .getPnTokenRegistry => some ({ call with phase := .submitToHub }, hub)
  | .submitToHub => some ({ call with phase := .attempt .getAllTokens attempts },
      hub.submitToHub call.address call.symbol)
  | .getAllTokens left =>
      match hub.registry.getTokenFromRegistry call.symbol with
      | none => some ({ call with phase := .attempt .getAllTokens left }, hub)
      | some token => some (call.found token, hub)
  | .getTokenRegistryAsOperator => some ({ call with phase := .getTokenByResourceId }, hub)
  | .getTokenByResourceId =>
      (hub.registry.getTokenByResourceId call.resourceId).map fun token =>
        ({ call with
            phase := if token.status = 1 then .attempt .resourceId attempts else .updateStatus },
          hub)
  | .updateStatus => (hub.updateStatus call.resourceId 1).map fun hub =>
      ({ call with phase := .attempt .resourceId attempts }, hub)
  | .resourceId left =>
      some ({ call with
        phase := if hub.resourceId call.address ≠ ZERO_HASH then .returned
          else .attempt .resourceId left }, hub)
  | .returned | .threw => none

/-- The await of a call rejects. What a transaction does may have been executed, and only the
last wait tolerates errors. -/
def rejected (hub : TokenHub) (call : HubCall) (executed : Bool) : Option (HubCall × TokenHub) :=
  match call.phase with
  | .getPnTokenRegistry | .getAllTokens _ | .getTokenRegistryAsOperator
  | .getTokenByResourceId => some ({ call with phase := .threw }, hub)
  | .submitToHub => some ({ call with phase := .threw },
      if executed then hub.submitToHub call.address call.symbol else hub)
  | .updateStatus =>
      (if executed then hub.updateStatus call.resourceId 1 else some hub).map fun hub =>
        ({ call with phase := .threw }, hub)
  | .resourceId left => some ({ call with phase := .attempt .resourceId left }, hub)
  | .returned | .threw => none

end HubCall

structure HubActivations where
  hub : TokenHub
  calls : List HubCall

/-- A call begins, an await of one ends, or the surroundings move: another party submits a
token, the hub takes a submission, an operator sets a status, or a callback arrives. -/
inductive HubEvent where
  | activateOnHub (address symbol resourceId : String)
  | resolved (call : Nat)
  | rejected (call : Nat) (executed : Bool)
  | submitToHub (contract symbol : String)
  | addToken (submission position : Nat) (resourceId : String) (status : Nat)
  | updateStatus (resourceId : String) (status : Nat)
  | activateToken (callback : Nat)
deriving DecidableEq, Repr

namespace HubActivations

/-- The call at a position has moved. -/
def moved (state : HubActivations) (position : Nat) (step : HubCall × TokenHub) :
    HubActivations :=
  ⟨step.2, state.calls.set position step.1⟩

def step (attempts : Nat) (state : HubActivations) : HubEvent → Option HubActivations
  | .activateOnHub address symbol resourceId =>
      some { state with calls := state.calls ++ [.activateOnHub address symbol resourceId] }
  | .resolved position => state.calls[position]?.bind fun call =>
      (call.resolved attempts state.hub).map (state.moved position)
  | .rejected position executed => state.calls[position]?.bind fun call =>
      (call.rejected state.hub executed).map (state.moved position)
  | .submitToHub contract symbol =>
      some { state with hub := state.hub.submitToHub contract symbol }
  | .addToken submission position resourceId status =>
      (state.hub.addToken submission position resourceId status).map ({ state with hub := · })
  | .updateStatus resourceId status =>
      (state.hub.updateStatus resourceId status).map ({ state with hub := · })
  | .activateToken callback => (state.hub.activateToken callback).map ({ state with hub := · })

def machine (PARALLEL_WORKERS : Option String) : Machine HubActivations HubEvent :=
  ⟨step (DEFAULT_TIMEOUT PARALLEL_WORKERS / SECOND)⟩

end HubActivations

end RaylsSuite.Tokens
