import RaylsSuite.Entities.PrivacyNode
import RaylsSuite.Foundation.Machine

/-! # Wiring the hub

The hub reads the names and addresses of its contracts from its deployment
registry and connects them row by row. The names it has read tell later calls
that the hub is wired. Any number of calls may be under way at once; each
promise that one of them awaits may reject.
-/

namespace RaylsSuite.Entities

open Foundation Common Config

inductive PnhAddressField where
  | resourceRegistryAddress | teleportAddress | endpointAddress | tokenRegistryAddress
  | tokenCoreAddress | proofsAddress | participantStorageAddress | dvpAddress
  | dvpTeleportAddress
deriving DecidableEq, Repr

structure WiringRow where
  name : String
  factory : String
  cacheKey : String
  addressField : PnhAddressField
deriving DecidableEq, Repr

def PNH_CONTRACT_WIRING : List WiringRow :=
  [⟨"ResourceRegistry", "ResourceRegistryV1__factory", "ResourceRegistryV1",
      .resourceRegistryAddress⟩,
    ⟨"Teleport", "TeleportV1__factory", "TeleportV1", .teleportAddress⟩,
    ⟨"Endpoint", "EndpointV1__factory", "EndpointV1", .endpointAddress⟩,
    ⟨"TokenRegistry", "TokenRegistryV1__factory", "TokenRegistryV1", .tokenRegistryAddress⟩,
    ⟨"TokenCore", "TokenCoreV1__factory", "TokenCoreV1", .tokenCoreAddress⟩,
    ⟨"Proofs", "Proofs__factory", "Proofs", .proofsAddress⟩,
    ⟨"ParticipantStorage", "ParticipantStorageV1__factory", "ParticipantStorageV1",
      .participantStorageAddress⟩,
    ⟨"Dvp", "Dvp__factory", "Dvp", .dvpAddress⟩,
    ⟨"DvpTeleport", "DvpTeleport__factory", "DvpTeleport", .dvpTeleportAddress⟩]

/-- An object of names and addresses; a name may have an undefined address. -/
abbrev DeployNames : Type := List (String × Option String)

namespace DeployNames

/-- `acc[name] = address`, which does nothing for the prototype. -/
def assign (acc : DeployNames) (name : String) (address : Option String) : DeployNames :=
  if name = "__proto__" then acc
  else acc.filter (fun entry => entry.1 ≠ name) ++ [(name, address)]

/-- `names[name]`, where an absent name is undefined. -/
def address (names : DeployNames) (name : String) : Option String := (names.lookup name).join

end DeployNames

/-- The answer of `getAllContracts()`, with an address for each name. -/
structure Deployment where
  names : List String
  addresses : List String
  length_eq : names.length = addresses.length

def Deployment.namesAndAddresses (deployment : Deployment) : DeployNames :=
  deployment.names.zipIdx.foldl
    (fun acc entry => acc.assign entry.1 deployment.addresses[entry.2]?) []

/-- The fields of the hub that its wiring assigns. -/
structure HubState (Signer : Type) where
  deployNamesAndAddresses : DeployNames
  addressOf : PnhAddressField → Option String
  enygmaPNEventsAddress : String
  contractStore : ContractStore Signer

/-- A call of `getProxyRegistryDeployment` at one of its awaits, or settled with the hub as it
left it. A row or the events contract is connected, or found in the store and to be mirrored. -/
inductive WiringCall (Signer : Type) where
  | reading
  | connecting (row : WiringRow) (address : Option String) (rest : List WiringRow)
  | mirroring (row : WiringRow) (address : Option String) (rest : List WiringRow)
  | connectingEvents (address : String)
  | mirroringEvents (address : String)
  | returned (left : HubState Signer)
  | threw (err : JsError) (left : HubState Signer)

variable {Signer : Type}

namespace HubState

def new : HubState Signer := ⟨[], fun _ => some ZERO_ADDRESS, ZERO_ADDRESS, ContractStore.new⟩

/-- `getProxyRegistryDeployment()` up to its first await. -/
def getProxyRegistryDeployment (hub : HubState Signer) : WiringCall Signer :=
  if hub.deployNamesAndAddresses.length > 0 then .returned hub else .reading

variable [DecidableEq Signer] (userWallet : Signer) (hub : HubState Signer)

/-- The special case after the rows: wire only if present. -/
def startEvents : WiringCall Signer :=
  let names := hub.deployNamesAndAddresses
  match (names.address "EnygmaPNEvents").or (names.address "EnygmaCCEvents") with
  | none => .returned hub
  | some address =>
      if address = "" then .returned hub
      else
        match hub.contractStore.hit "EnygmaPNEvents" userWallet with
        | some _ => .mirroringEvents address
        | none => .connectingEvents address

/-- The loop at its next row, up to the await of `getContractAt`. -/
def startRow : List WiringRow → WiringCall Signer
  | [] => hub.startEvents userWallet
  | row :: rest =>
      let address := hub.deployNamesAndAddresses.address row.name
      match hub.contractStore.hit row.cacheKey userWallet with
      | some _ => .mirroring row address rest
      | none => .connecting row address rest

/-- The end of `hre.ethers.getContractAt`: the contract is cached. -/
def cacheContract (factoryName cacheKey address : String) : HubState Signer :=
  let contract := ContractStore.requested factoryName address userWallet
  { hub with contractStore := hub.contractStore.set (formatFactoryName cacheKey) contract }

/-- `this[addressField] = address`. -/
def mirror (field : PnhAddressField) (address : Option String) : HubState Signer :=
  { hub with addressOf := Function.update hub.addressOf field address }

end HubState

/-! ## Any number of calls at once -/

structure Wirings (Signer : Type) where
  hub : HubState Signer
  calls : List (WiringCall Signer)

def Wirings.start : Wirings Signer := ⟨HubState.new, []⟩

/-- A new call, or a promise that a call awaits settles: the read of the registry, the
connection of a contract, or a promise that is resolved already. -/
inductive WiringLabel where
  | call
  | read (index : Nat) (outcome : Except JsError Unit)
  | connected (index : Nat) (outcome : Except JsError Unit)
  | resume (index : Nat)

variable [DecidableEq Signer] (userWallet : Signer) (deployment : Deployment)

/-- The call from one await to the next. A contract cannot be connected at an undefined
address. -/
def WiringCall.resume (hub : HubState Signer) :
    WiringCall Signer → WiringLabel → Option (HubState Signer × WiringCall Signer)
  | .reading, .read _ (.error err) => some (hub, .threw err hub)
  | .reading, .read _ (.ok ()) =>
      let hub := { hub with deployNamesAndAddresses := deployment.namesAndAddresses }
      some (hub, hub.startRow userWallet PNH_CONTRACT_WIRING)
  | .connecting _ _ _, .connected _ (.error err) => some (hub, .threw err hub)
  | .connecting row (some address) rest, .connected _ (.ok ()) =>
      some (hub.cacheContract userWallet row.factory row.cacheKey address,
        .mirroring row (some address) rest)
  | .mirroring row address rest, .resume _ =>
      let hub := hub.mirror row.addressField address
      some (hub, hub.startRow userWallet rest)
  | .connectingEvents _, .connected _ (.error err) => some (hub, .threw err hub)
  | .connectingEvents address, .connected _ (.ok ()) =>
      some (hub.cacheContract userWallet "EnygmaPNEvents__factory" "EnygmaPNEvents" address,
        .mirroringEvents address)
  | .mirroringEvents address, .resume _ =>
      let hub := { hub with enygmaPNEventsAddress := address }
      some (hub, .returned hub)
  | _, _ => none

def WiringLabel.index : WiringLabel → Option Nat
  | .call => none
  | .read index _ | .connected index _ | .resume index => some index

def Wirings.step (wirings : Wirings Signer) (label : WiringLabel) : Option (Wirings Signer) :=
  match label.index with
  | none =>
      some ⟨wirings.hub, wirings.calls ++ [wirings.hub.getProxyRegistryDeployment]⟩
  | some index =>
      (wirings.calls[index]?).bind fun call =>
        (call.resume userWallet deployment wirings.hub label).map fun resumed =>
          ⟨resumed.1, wirings.calls.set index resumed.2⟩

def wiringMachine : Machine (Wirings Signer) WiringLabel :=
  ⟨Wirings.step userWallet deployment⟩

/-! ## What a settled call is to have established -/

/-- The row's registered address is mirrored, and a contract for it is cached. -/
def RowWired (hub : HubState Signer) (row : WiringRow) : Prop :=
  ∃ address, deployment.namesAndAddresses.address row.name = some address ∧
    hub.addressOf row.addressField = some address ∧
    ∃ contract, hub.contractStore.cache row.cacheKey = some contract ∧ contract.address = address

def AllWired (hub : HubState Signer) : Prop :=
  ∀ row ∈ PNH_CONTRACT_WIRING, RowWired deployment hub row

/-- All or nothing: a call that returned left every row wired, and after one that threw the
next call reads the registry again. -/
def WiringCall.AllOrNothing : WiringCall Signer → Prop
  | .returned left => AllWired deployment left
  | .threw _ left => left.getProxyRegistryDeployment = .reading
  | _ => True

/-- A call begins, a read or a connection fails only while the hub has no names; a call may
also begin once every row is wired. -/
def SafeStep (wirings : Wirings Signer) : WiringLabel → Prop
  | .call => wirings.hub.deployNamesAndAddresses = [] ∨ AllWired deployment wirings.hub
  | .read _ (.error _) | .connected _ (.error _) => wirings.hub.deployNamesAndAddresses = []
  | _ => True

/-! ## One step -/

theorem eq_of_cacheKey : ∀ row ∈ PNH_CONTRACT_WIRING, ∀ other ∈ PNH_CONTRACT_WIRING,
    row.cacheKey = other.cacheKey → row = other := by decide

theorem eq_of_addressField : ∀ row ∈ PNH_CONTRACT_WIRING, ∀ other ∈ PNH_CONTRACT_WIRING,
    row.addressField = other.addressField → row = other := by decide

theorem formatFactoryName_cacheKey : ∀ row ∈ PNH_CONTRACT_WIRING,
    formatFactoryName row.cacheKey = row.cacheKey := by decide

theorem cacheKey_ne_events : ∀ row ∈ PNH_CONTRACT_WIRING,
    row.cacheKey ≠ formatFactoryName "EnygmaPNEvents" := by decide

section Step

omit [DecidableEq Signer]

variable {deployment} {hub next : HubState Signer} {row : WiringRow}

/-- A contract for the row's registered address is cached. -/
def RowCached (deployment : Deployment) (hub : HubState Signer) (row : WiringRow) : Prop :=
  ∃ contract, hub.contractStore.cache row.cacheKey = some contract ∧
    deployment.namesAndAddresses.address row.name = some contract.address

def RowMirrored (deployment : Deployment) (hub : HubState Signer) (row : WiringRow) : Prop :=
  hub.addressOf row.addressField = deployment.namesAndAddresses.address row.name

/-- A row is wired when the store has its contract and the hub its field. -/
theorem rowWired_iff :
    RowWired deployment hub row ↔
      RowCached deployment hub row ∧ RowMirrored deployment hub row := by
  constructor
  · rintro ⟨address, hregistered, hmirrored, contract, hcached, rfl⟩
    exact ⟨⟨contract, hcached, hregistered⟩, hmirrored.trans hregistered.symm⟩
  · rintro ⟨⟨contract, hcached, hregistered⟩, hmirrored⟩
    exact ⟨contract.address, hregistered, hmirrored.trans hregistered, contract, hcached, rfl⟩

/-- The names are none or those of the registry, and what is cached for a row is at its
registered address. -/
structure Consistent (deployment : Deployment) (hub : HubState Signer) : Prop where
  names_eq : hub.deployNamesAndAddresses = [] ∨
    hub.deployNamesAndAddresses = deployment.namesAndAddresses
  cached_eq : ∀ row ∈ PNH_CONTRACT_WIRING, ∀ contract,
    hub.contractStore.cache row.cacheKey = some contract →
      deployment.namesAndAddresses.address row.name = some contract.address

/-- Nothing that is wired gets lost. -/
structure Extends (deployment : Deployment) (hub next : HubState Signer) : Prop where
  names : hub.deployNamesAndAddresses = deployment.namesAndAddresses →
    next.deployNamesAndAddresses = deployment.namesAndAddresses
  cached : ∀ row ∈ PNH_CONTRACT_WIRING, RowCached deployment hub row →
    RowCached deployment next row
  mirrored : ∀ row ∈ PNH_CONTRACT_WIRING, RowMirrored deployment hub row →
    RowMirrored deployment next row

theorem Extends.refl (deployment : Deployment) (hub : HubState Signer) :
    Extends deployment hub hub := ⟨id, fun _ _ => id, fun _ _ => id⟩

theorem Extends.wired (hextends : Extends deployment hub next) (hrow : row ∈ PNH_CONTRACT_WIRING)
    (hwired : RowWired deployment hub row) : RowWired deployment next row := by
  obtain ⟨hcached, hmirrored⟩ := rowWired_iff.mp hwired
  exact rowWired_iff.mpr ⟨hextends.cached row hrow hcached, hextends.mirrored row hrow hmirrored⟩

/-- The loop is at this row: the rows before it are wired. -/
structure AtRow (deployment : Deployment) (hub : HubState Signer) (row : WiringRow)
    (address : Option String) (rest : List WiringRow) : Prop where
  names_eq : hub.deployNamesAndAddresses = deployment.namesAndAddresses
  address_eq : address = deployment.namesAndAddresses.address row.name
  before : ∃ done, PNH_CONTRACT_WIRING = done ++ row :: rest ∧
    ∀ earlier ∈ done, RowWired deployment hub earlier

theorem AtRow.mem {address : Option String} {rest : List WiringRow}
    (hat : AtRow deployment hub row address rest) : row ∈ PNH_CONTRACT_WIRING := by
  obtain ⟨done, hrows, _⟩ := hat.before
  rw [hrows]
  exact List.mem_append_right _ List.mem_cons_self

/-- What holds of a call at each of its awaits. -/
def CallInv (deployment : Deployment) (hub : HubState Signer) : WiringCall Signer → Prop
  | .connecting row address rest => AtRow deployment hub row address rest
  | .mirroring row address rest =>
      AtRow deployment hub row address rest ∧ RowCached deployment hub row
  | .connectingEvents _ | .mirroringEvents _ => AllWired deployment hub
  | _ => True

/-- What a call has wired up to its row survives the other calls' writes. -/
theorem AtRow.extended {address : Option String} {rest : List WiringRow}
    (hat : AtRow deployment hub row address rest) (hextends : Extends deployment hub next) :
    AtRow deployment next row address rest := by
  refine ⟨hextends.names hat.names_eq, hat.address_eq, ?_⟩
  obtain ⟨done, hrows, hdone⟩ := hat.before
  refine ⟨done, hrows, fun earlier hearlier => hextends.wired ?_ (hdone earlier hearlier)⟩
  rw [hrows]
  exact List.mem_append_left _ hearlier

/-- The invariant of a waiting call survives the other calls' writes. -/
theorem CallInv.extended {call : WiringCall Signer} (hcall : CallInv deployment hub call)
    (hextends : Extends deployment hub next) : CallInv deployment next call := by
  cases call with
  | connecting row address rest => exact AtRow.extended hcall hextends
  | mirroring row address rest =>
      exact ⟨hcall.1.extended hextends, hextends.cached row hcall.1.mem hcall.2⟩
  | connectingEvents address | mirroringEvents address =>
      exact fun row hrow => hextends.wired hrow (hcall row hrow)
  | _ => trivial

theorem cacheContract_cache (userWallet : Signer) (factoryName cacheKey address key : String) :
    (hub.cacheContract userWallet factoryName cacheKey address).contractStore.cache key =
      if key = formatFactoryName cacheKey then
        some (ContractStore.requested factoryName address userWallet)
      else hub.contractStore.cache key := by
  simp only [HubState.cacheContract, ContractStore.set, Function.update_apply]

/-- Caching a contract under a key keeps the rows if each row of that key has its address. -/
theorem cacheContract_kept (userWallet : Signer) (factoryName cacheKey address : String)
    (hconsistent : Consistent deployment hub)
    (hrows : ∀ row ∈ PNH_CONTRACT_WIRING, row.cacheKey = formatFactoryName cacheKey →
      deployment.namesAndAddresses.address row.name = some address) :
    Consistent deployment (hub.cacheContract userWallet factoryName cacheKey address) ∧
      Extends deployment hub (hub.cacheContract userWallet factoryName cacheKey address) := by
  refine ⟨⟨hconsistent.names_eq, ?_⟩, ⟨id, ?_, fun _ _ => id⟩⟩
  · intro row hrow contract hcached
    rw [cacheContract_cache] at hcached
    split at hcached
    next hkey =>
      obtain rfl := Option.some.inj hcached
      exact hrows row hrow hkey
    next => exact hconsistent.cached_eq row hrow contract hcached
  · rintro row hrow ⟨contract, hcached, hregistered⟩
    rw [RowCached, cacheContract_cache]
    split
    next hkey => exact ⟨_, rfl, hrows row hrow hkey⟩
    next => exact ⟨contract, hcached, hregistered⟩

/-- A row whose contract has connected is cached under its registered address. -/
theorem AtRow.connected (userWallet : Signer) {address : String} {rest : List WiringRow}
    (hat : AtRow deployment hub row (some address) rest) (hconsistent : Consistent deployment hub) :
    let next := hub.cacheContract userWallet row.factory row.cacheKey address
    Consistent deployment next ∧ Extends deployment hub next ∧
      CallInv deployment next (.mirroring row (some address) rest) := by
  have hkey := formatFactoryName_cacheKey row hat.mem
  have hrows : ∀ other ∈ PNH_CONTRACT_WIRING,
      other.cacheKey = formatFactoryName row.cacheKey →
        deployment.namesAndAddresses.address other.name = some address := by
    intro other hother heq
    rw [hkey] at heq
    rw [eq_of_cacheKey other hother row hat.mem heq, ← hat.address_eq]
  obtain ⟨hkept, hextends⟩ := cacheContract_kept userWallet row.factory row.cacheKey address
    hconsistent hrows
  refine ⟨hkept, hextends, hat.extended hextends, ?_⟩
  refine ⟨ContractStore.requested row.factory address userWallet, ?_, hat.address_eq.symm⟩
  rw [cacheContract_cache, if_pos hkey.symm]

theorem mirror_addressOf (field other : PnhAddressField) (address : Option String) :
    (hub.mirror field address).addressOf other =
      if other = field then address else hub.addressOf other :=
  Function.update_apply hub.addressOf field address other

/-- Mirroring a row's registered address keeps the rows. -/
theorem mirror_kept {address : Option String} (hconsistent : Consistent deployment hub)
    (hrow : row ∈ PNH_CONTRACT_WIRING)
    (haddress : address = deployment.namesAndAddresses.address row.name) :
    Consistent deployment (hub.mirror row.addressField address) ∧
      Extends deployment hub (hub.mirror row.addressField address) ∧
        RowMirrored deployment (hub.mirror row.addressField address) row := by
  refine ⟨⟨hconsistent.names_eq, hconsistent.cached_eq⟩, ⟨id, fun _ _ => id, ?_⟩, ?_⟩
  · intro other hother hmirrored
    rw [RowMirrored, mirror_addressOf]
    split
    next hfield => rw [haddress, eq_of_addressField other hother row hrow hfield]
    next => exact hmirrored
  · rw [RowMirrored, mirror_addressOf, if_pos rfl, haddress]

variable [DecidableEq Signer] (userWallet : Signer)

/-- Once every row is wired, a call that returns may do so. -/
theorem startEvents_spec (hwired : AllWired deployment hub) :
    CallInv deployment hub (hub.startEvents userWallet) ∧
      (hub.startEvents userWallet).AllOrNothing deployment := by
  simp only [HubState.startEvents]
  cases (hub.deployNamesAndAddresses.address "EnygmaPNEvents").or
      (hub.deployNamesAndAddresses.address "EnygmaCCEvents") with
  | none => exact ⟨trivial, hwired⟩
  | some address =>
      by_cases hempty : address = ""
      · simp only [if_pos hempty]
        exact ⟨trivial, hwired⟩
      · simp only [if_neg hempty]
        cases hub.contractStore.hit "EnygmaPNEvents" userWallet with
        | none => exact ⟨hwired, trivial⟩
        | some contract => exact ⟨hwired, trivial⟩

/-- The loop goes on once the rows before are wired. -/
theorem startRow_spec (hconsistent : Consistent deployment hub)
    (hnames : hub.deployNamesAndAddresses = deployment.namesAndAddresses)
    {done rows : List WiringRow} (hrows : PNH_CONTRACT_WIRING = done ++ rows)
    (hdone : ∀ row ∈ done, RowWired deployment hub row) :
    CallInv deployment hub (hub.startRow userWallet rows) ∧
      (hub.startRow userWallet rows).AllOrNothing deployment := by
  cases rows with
  | nil =>
      apply startEvents_spec
      rw [AllWired, hrows, List.append_nil]
      exact hdone
  | cons row rest =>
      have hat : AtRow deployment hub row (hub.deployNamesAndAddresses.address row.name) rest :=
        ⟨hnames, hnames ▸ rfl, done, hrows, hdone⟩
      simp only [HubState.startRow]
      cases hhit : hub.contractStore.hit row.cacheKey userWallet with
      | none => exact ⟨hat, trivial⟩
      | some contract =>
          have hcached := (Option.filter_eq_some_iff.mp hhit).1
          rw [formatFactoryName_cacheKey row hat.mem] at hcached
          exact ⟨⟨hat, contract, hcached, hconsistent.cached_eq row hat.mem contract hcached⟩,
            trivial⟩

/-- Behind a cached row that has been mirrored, the loop goes on. -/
theorem AtRow.mirrored {address : Option String} {rest : List WiringRow}
    (hat : AtRow deployment hub row address rest) (hcached : RowCached deployment hub row)
    (hconsistent : Consistent deployment hub) :
    let next := hub.mirror row.addressField address
    Consistent deployment next ∧ Extends deployment hub next ∧
      CallInv deployment next (next.startRow userWallet rest) ∧
        (next.startRow userWallet rest).AllOrNothing deployment := by
  obtain ⟨hkept, hextends, hmirrored⟩ := mirror_kept hconsistent hat.mem hat.address_eq
  obtain ⟨done, hrows, hdone⟩ := hat.before
  have hmem := hat.mem
  rw [List.append_cons] at hrows
  refine ⟨hkept, hextends, startRow_spec userWallet hkept (hextends.names hat.names_eq) hrows ?_⟩
  intro earlier hearlier
  rcases List.mem_append.mp hearlier with hbefore | hlast
  · refine hextends.wired ?_ (hdone earlier hbefore)
    rw [hrows]
    exact List.mem_append_left _ hearlier
  · obtain rfl := List.mem_singleton.mp hlast
    exact rowWired_iff.mpr ⟨hextends.cached _ hmem hcached, hmirrored⟩

/-- One settlement keeps what is wired, and keeps the law exactly if it is a safe one. -/
theorem WiringCall.resume_spec {call resumed : WiringCall Signer} {label : WiringLabel}
    {calls : List (WiringCall Signer)} (hconsistent : Consistent deployment hub)
    (hcall : CallInv deployment hub call)
    (hresume : call.resume userWallet deployment hub label = some (next, resumed)) :
    Consistent deployment next ∧ Extends deployment hub next ∧ CallInv deployment next resumed ∧
      call.AllOrNothing deployment ∧
        (resumed.AllOrNothing deployment ↔ SafeStep deployment ⟨hub, calls⟩ label) := by
  have hthrew : ∀ err : JsError, (WiringCall.threw err hub).AllOrNothing deployment ↔
      hub.deployNamesAndAddresses = [] := by
    intro err
    simp [WiringCall.AllOrNothing, HubState.getProxyRegistryDeployment, List.length_pos_iff]
  cases call with
  | reading =>
      cases label with
      | read index outcome =>
          cases outcome with
          | error err =>
              obtain ⟨rfl, rfl⟩ := Prod.mk.inj (Option.some.inj hresume)
              exact ⟨hconsistent, .refl _ _, trivial, trivial, hthrew err⟩
          | ok _ =>
              obtain ⟨rfl, rfl⟩ := Prod.mk.inj (Option.some.inj hresume)
              have hread : Consistent deployment
                  { hub with deployNamesAndAddresses := deployment.namesAndAddresses } :=
                ⟨.inr rfl, hconsistent.cached_eq⟩
              obtain ⟨hnext, hlaw⟩ := startRow_spec userWallet hread rfl
                (List.nil_append PNH_CONTRACT_WIRING).symm (fun _ hrow => by cases hrow)
              exact ⟨hread, ⟨fun _ => rfl, fun _ _ => id, fun _ _ => id⟩, hnext, trivial,
                iff_of_true hlaw trivial⟩
      | _ => cases hresume
  | connecting row address rest =>
      cases label with
      | connected index outcome =>
          cases outcome with
          | error err =>
              obtain ⟨rfl, rfl⟩ := Prod.mk.inj (Option.some.inj hresume)
              exact ⟨hconsistent, .refl _ _, trivial, trivial, hthrew err⟩
          | ok _ =>
              cases address with
              | none => cases hresume
              | some address =>
                  obtain ⟨rfl, rfl⟩ := Prod.mk.inj (Option.some.inj hresume)
                  obtain ⟨hkept, hextends, hnext⟩ :=
                    AtRow.connected userWallet hcall hconsistent
                  exact ⟨hkept, hextends, hnext, trivial, iff_of_true trivial trivial⟩
      | _ => cases hresume
  | mirroring row address rest =>
      cases label with
      | resume index =>
          obtain ⟨rfl, rfl⟩ := Prod.mk.inj (Option.some.inj hresume)
          obtain ⟨hkept, hextends, hnext, hlaw⟩ :=
            hcall.1.mirrored userWallet hcall.2 hconsistent
          exact ⟨hkept, hextends, hnext, trivial, iff_of_true hlaw trivial⟩
      | _ => cases hresume
  | connectingEvents address =>
      cases label with
      | connected index outcome =>
          cases outcome with
          | error err =>
              obtain ⟨rfl, rfl⟩ := Prod.mk.inj (Option.some.inj hresume)
              exact ⟨hconsistent, .refl _ _, trivial, trivial, hthrew err⟩
          | ok _ =>
              obtain ⟨rfl, rfl⟩ := Prod.mk.inj (Option.some.inj hresume)
              obtain ⟨hkept, hextends⟩ := cacheContract_kept userWallet "EnygmaPNEvents__factory"
                "EnygmaPNEvents" address hconsistent
                (fun row hrow heq => absurd heq (cacheKey_ne_events row hrow))
              exact ⟨hkept, hextends, fun row hrow => hextends.wired hrow (hcall row hrow), trivial,
                iff_of_true trivial trivial⟩
      | _ => cases hresume
  | mirroringEvents address =>
      cases label with
      | resume index =>
          obtain ⟨rfl, rfl⟩ := Prod.mk.inj (Option.some.inj hresume)
          exact ⟨⟨hconsistent.names_eq, hconsistent.cached_eq⟩,
            ⟨id, fun _ _ => id, fun _ _ => id⟩, trivial, trivial, iff_of_true hcall trivial⟩
      | _ => cases hresume
  | returned left => cases label <;> cases hresume
  | threw err left => cases label <;> cases hresume

end Step

/-! ## The law of every schedule -/

/-- What holds between the steps of any schedule. -/
structure WiringInv (deployment : Deployment) (wirings : Wirings Signer) : Prop where
  consistent : Consistent deployment wirings.hub
  calls : ∀ call ∈ wirings.calls, CallInv deployment wirings.hub call

/-- Every settled call kept the law. -/
def Lawful (deployment : Deployment) (wirings : Wirings Signer) : Prop :=
  ∀ call ∈ wirings.calls, call.AllOrNothing deployment

variable {userWallet deployment}

/-- One step keeps the invariant, and keeps a lawful state lawful exactly if it is safe. -/
theorem WiringInv.step {wirings next : Wirings Signer} {label : WiringLabel}
    (hinv : WiringInv deployment wirings)
    (hstep : wirings.step userWallet deployment label = some next) :
    WiringInv deployment next ∧ (Lawful deployment next ↔
      SafeStep deployment wirings label ∧ Lawful deployment wirings) := by
  unfold Wirings.step at hstep
  cases hindex : label.index with
  | none =>
      rw [hindex] at hstep
      obtain rfl := Option.some.inj hstep
      obtain rfl : label = .call := by
        cases label with
        | call => rfl
        | _ => cases hindex
      have hbegun : CallInv deployment wirings.hub wirings.hub.getProxyRegistryDeployment ∧
          (wirings.hub.getProxyRegistryDeployment.AllOrNothing deployment ↔
            SafeStep deployment wirings .call) := by
        unfold HubState.getProxyRegistryDeployment
        split
        next hnames =>
          refine ⟨trivial, ?_⟩
          simp only [SafeStep, WiringCall.AllOrNothing, List.length_pos_iff.mp hnames, false_or]
        next hnone =>
          have hempty : wirings.hub.deployNamesAndAddresses = [] := by simpa using hnone
          exact ⟨trivial, iff_of_true trivial (.inl hempty)⟩
      refine ⟨⟨hinv.consistent, ?_⟩, ?_⟩
      · rw [List.forall_mem_append]
        exact ⟨hinv.calls, by simpa using hbegun.1⟩
      · rw [← hbegun.2, Lawful, List.forall_mem_append, and_comm]
        simp only [List.mem_singleton, forall_eq, Lawful]
  | some index =>
      rw [hindex] at hstep
      obtain ⟨call, hcall, hrest⟩ := Option.bind_eq_some_iff.mp hstep
      obtain ⟨⟨hub, resumed⟩, hresumed, rfl⟩ := Option.map_eq_some_iff.mp hrest
      have hmem := List.mem_of_getElem? hcall
      obtain ⟨hconsistent, hextends, hnext, hbefore, hlaw⟩ := WiringCall.resume_spec userWallet
        hinv.consistent (hinv.calls call hmem) hresumed
      refine ⟨⟨hconsistent, ?_⟩, ?_⟩
      · intro other hother
        rcases List.mem_or_eq_of_mem_set hother with hold | rfl
        · exact (hinv.calls other hold).extended hextends
        · exact hnext
      · rw [← hlaw]
        exact forall_mem_set_iff hcall hbefore

/-- `getProxyRegistryDeployment` is all-or-nothing exactly in the schedules whose steps are
all safe. -/
theorem getProxyRegistryDeployment_lawful_iff (userWallet : Signer) (deployment : Deployment)
    (schedule : List WiringLabel) (final : Wirings Signer)
    (hrun : (wiringMachine userWallet deployment).run Wirings.start schedule = some final) :
    Lawful deployment final ↔
      (wiringMachine userWallet deployment).Guarded (SafeStep deployment) Wirings.start
        schedule := by
  have hstart : WiringInv deployment (Wirings.start : Wirings Signer) :=
    ⟨⟨.inl rfl, fun _ _ _ hcached => by cases hcached⟩, fun _ hcall => by cases hcall⟩
  have hlawful : Lawful deployment (Wirings.start : Wirings Signer) := fun _ hcall => by cases hcall
  rw [Machine.final_iff_guarded (fun _ _ _ hinv hstep => (hinv.step hstep).1)
    (fun _ _ _ hinv hstep => (hinv.step hstep).2) hstart hrun, and_iff_right hlawful]

/-! ## Two schedules -/

/-- A registry that holds every contract of the wiring. -/
def fullDeployment : Deployment where
  names := PNH_CONTRACT_WIRING.map WiringRow.name
  addresses := PNH_CONTRACT_WIRING.map fun row => "0x" ++ row.name
  length_eq := rfl

/-- One call wires all nine rows, and another one finds the hub wired. -/
def wiredThenCalled : List WiringLabel :=
  [.call, .read 0 (.ok ())] ++
    (List.replicate 9 [.connected 0 (.ok ()), .resume 0]).flatten ++ [.call]

theorem getProxyRegistryDeployment_lawful_iff_wiredThenCalled :
    ∃ final, (wiringMachine () fullDeployment).run Wirings.start wiredThenCalled = some final ∧
      (Lawful fullDeployment final ↔ (wiringMachine () fullDeployment).Guarded
        (SafeStep fullDeployment) Wirings.start wiredThenCalled) :=
  ⟨_, rfl, getProxyRegistryDeployment_lawful_iff () fullDeployment wiredThenCalled _ rfl⟩

/-- The first row's connection fails, and the next call finds names without contracts. -/
def failedThenCalled : List WiringLabel :=
  [.call, .read 0 (.ok ()), .connected 0 (.error (JsError.new "could not detect network")), .call]

theorem not_lawful_failedThenCalled :
    ∃ final, (wiringMachine () fullDeployment).run Wirings.start failedThenCalled = some final ∧
      ¬Lawful fullDeployment final := by
  refine ⟨_, rfl, ?_⟩
  intro hlawful
  have hreturned := hlawful _ (List.mem_cons_of_mem _ List.mem_cons_self)
  obtain ⟨_, _, _, contract, hcached, _⟩ := hreturned _ List.mem_cons_self
  cases hcached

end RaylsSuite.Entities
