import Mathlib.Logic.Function.Basic
import RaylsSuite.Common.PollingLaw
import RaylsSuite.Common.ProtocolSteps
import RaylsSuite.Entities.ContractStore

/-! # Transfers of an Enygma to other nodes

A transfer is submitted once on its source. Then each destination is visited in
turn: the token's address there is resolved unless the wrapper knows it, the
node's store is bound to it, and the balance that is expected is awaited on
that contract.
-/

namespace RaylsSuite.Flows

open Common Config Entities Foundation Foundation.Dialogue

/-- A node that a transfer goes to. -/
structure Destination where
  node : String
  chainId : String
deriving DecidableEq, Repr

/-- `this.address` of a wrapper, by chain. -/
abbrev AddressMap : Type := String → Option String

/-- What the wrapper and the nodes hold: the nodes with an endpoint address, the addresses that
the wrapper knows, and the store of each node. -/
structure HeldNodes (Signer : Type) where
  ready : List String
  address : AddressMap
  contractStore : String → ContractStore Signer

/-- An Enygma wrapper; `factory` is the name of its factory and `signerOn` its wallet connected to
a node's provider, a new object each time. -/
structure EnygmaToken (Signer : Type) where
  symbol : String
  resourceId : String
  factory : String
  userWallet : String
  signerOn : String → Signer

/-- A request of the flow with its answer. -/
inductive TransferEvent (Transfer : Type) where
  | initializeNode (node : String) (answer : Except JsError Unit)
  | submit (transfer : Transfer) (answer : Except JsError Response)
  | getAddressByResourceId (chainId resourceId : String) (answer : Except JsError String)
  | getCode (chainId address : String) (answer : Except JsError String)
  | balanceOf (chainId contract account : String) (answer : Except JsError Int)

/-- How the nodes serve the requests. -/
structure TransferServices (σ Transfer : Type) where
  initializeNode : String → Async σ JsError Unit
  submit : Transfer → Async σ JsError Response
  getAddressByResourceId : String → String → Async σ JsError String
  getCode : String → String → Async σ JsError String
  balanceOf : String → String → String → Async σ JsError Int

/-- The value of the check that resolves an address: `true` with the address that it has assigned,
or `false`. -/
structure AssignedAddress where
  address? : Option String

instance : JsValue JsError AssignedAddress where
  truthy value := value.address?.isSome
  stringify value := .ok (toString value.address?.isSome)

/-- The wrapper knows the token's address on a chain. -/
def AddressMap.known (address : AddressMap) (chainId : String) : Option String :=
  (address chainId).filter fun known => known ≠ "" ∧ known ≠ ZERO_ADDRESS

def AddressMap.assign (address : AddressMap) (chainId : String) (assigned : AssignedAddress) :
    AddressMap :=
  Function.update address chainId assigned.address?

/-- `BigInt(undefined)`. -/
def undefinedBigInt : JsError :=
  ⟨.error, some "Cannot convert undefined to a BigInt", none, none⟩

variable {σ Transfer Signer : Type}

/-- A program in dialogue with the nodes. -/
abbrev Transferring (σ Transfer α : Type) := Async (Dialogue σ (TransferEvent Transfer)) JsError α

section Flow

variable [Host σ] (PARALLEL_WORKERS : Option String) (services : TransferServices σ Transfer)
  (artifacts : Artifacts) (enygma : EnygmaToken Signer)

/-- `if (!destination.endpointAddress) await destination.initialize()` for each destination. -/
def initializeDestinations : List Destination → List String →
    Transferring σ Transfer (List String)
  | [], ready => returns ready
  | destination :: rest, ready =>
      if destination.node ∈ ready then initializeDestinations rest ready
      else
        andThen (ask (.initializeNode destination.node)
          (services.initializeNode destination.node) .ok) fun _ =>
            initializeDestinations rest (destination.node :: ready)

def resolveOptions (destination : Destination) :
    PollOptions (Dialogue σ (TransferEvent Transfer)) JsError AssignedAddress where
  check :=
    andThen (ask (.getAddressByResourceId destination.chainId enygma.resourceId)
      (services.getAddressByResourceId destination.chainId enygma.resourceId) .ok) fun address =>
        if address = ZERO_ADDRESS then returns ⟨none⟩
        else andThen (ask (.getCode destination.chainId address)
          (services.getCode destination.chainId address) .ok) fun code =>
            if code = "" ∨ code = "0x" then returns ⟨none⟩ else returns ⟨some address⟩
  tolerateErrors := true

/-- The addresses that the wrapper knows afterwards are returned with the one of the chain. -/
def resolveAddressOnPL (destination : Destination) (address : AddressMap) :
    Transferring σ Transfer (AddressMap × String) :=
  match address.known destination.chainId with
  | some known => returns (address, known)
  | none =>
      andThen (eventually PARALLEL_WORKERS (resolveOptions services enygma destination)
        s!"Resolving {enygma.symbol} on chain {destination.chainId}") fun assigned =>
          returns (address.assign destination.chainId assigned, assigned.address?.getD "")

/-- The wallet is a new object, so that the store's cached contract is never the one asked for. -/
def connectOnNode (destination : Destination) (address : String)
    (store : ContractStore Signer) : Except JsError (Contract Signer) × ContractStore Signer :=
  store.connect artifacts enygma.factory address (formatFactoryName enygma.symbol)
    (enygma.signerOn destination.node)

def waitForDeploymentOnNode (destination : Destination) (held : HeldNodes Signer) :
    Transferring σ Transfer (HeldNodes Signer) :=
  andThen (resolveAddressOnPL PARALLEL_WORKERS services enygma destination held.address)
    fun resolved =>
      match connectOnNode artifacts enygma destination resolved.2
          (held.contractStore destination.node) with
      | (.error err, _) => throws err
      | (.ok _, store) => returns { held with
          address := resolved.1
          contractStore := Function.update held.contractStore destination.node store }

def balanceOptions (destination : Destination) (expectedBalance : Option Int)
    (store : ContractStore Signer) :
    PollOptions (Dialogue σ (TransferEvent Transfer)) JsError Bool where
  check :=
    match store.get enygma.symbol with
    | .error err => throws err
    | .ok contract =>
        andThen (ask (.balanceOf destination.chainId contract.address enygma.userWallet)
          (services.balanceOf destination.chainId contract.address enygma.userWallet) .ok)
          fun balance =>
            match expectedBalance with
            | none => throws undefinedBigInt
            | some expected => returns (decide (expected = balance))

def awaitBalance (destination : Destination) (expectedBalance : Option Int) (message : String)
    (held : HeldNodes Signer) : Transferring σ Transfer Unit :=
  andThen (eventually PARALLEL_WORKERS (balanceOptions services enygma destination expectedBalance
    (held.contractStore destination.node)) message) fun _ => returns ()

def balanceText (expectedBalance : Option Int) : String :=
  (expectedBalance.map toString).getD "undefined"

/-- The loop over the destinations after the submission. -/
def settleDestinations (expectedBalances : String → Option Int) :
    List Destination → HeldNodes Signer → Transferring σ Transfer Unit
  | [], _ => returns ()
  | destination :: rest, held =>
      let expectedBalance := expectedBalances destination.chainId
      andThen (waitForDeploymentOnNode PARALLEL_WORKERS services artifacts enygma destination held)
        fun held =>
          andThen (awaitBalance PARALLEL_WORKERS services enygma destination expectedBalance
            (s!"Waiting for {enygma.symbol} balance → {balanceText expectedBalance} " ++
              s!"on chain {destination.chainId}") held) fun _ =>
            settleDestinations expectedBalances rest held

def shouldCrossTransferEnygma (transfer : Transfer) (transferNumber : Nat)
    (expectedBalances : String → Option Int) (destinations : List Destination)
    (held : HeldNodes Signer) : Transferring σ Transfer Unit :=
  andThen (initializeDestinations services destinations held.ready) fun ready =>
    andThen (submitTx (ask (.submit transfer) (services.submit transfer) .ok)
      s!"Transferring to destination (Transfer #{transferNumber})") fun _ =>
        settleDestinations PARALLEL_WORKERS services artifacts enygma expectedBalances destinations
          { held with ready }

def linearTransferEnygma (transfer : Transfer) (destinationAddress : String)
    (transferNumber : Nat) (expectedBalance : Int) (destination : Destination)
    (held : HeldNodes Signer) : Transferring σ Transfer Receipt :=
  andThen (submitTx (ask (.submit transfer) (services.submit transfer) .ok)
    s!"Transferring to destination (Transfer #{transferNumber})") fun receipt =>
      andThen (waitForDeploymentOnNode PARALLEL_WORKERS services artifacts enygma destination held)
        fun held =>
          andThen (awaitBalance PARALLEL_WORKERS services enygma destination (some expectedBalance)
            (s!"Waiting for {enygma.symbol} balance → {expectedBalance} for " ++
              s!"{shortHex destinationAddress} on chain {destination.chainId}") held) fun _ =>
            returns receipt

end Flow

/-! ## The protocol of a transfer -/

/-- How far a transfer has come; the destination is the one whose turn it is. -/
inductive TransferState where
  | initializing (ready : List String)
  | sending
  | resolving (destination : Destination) (rest : List Destination) (address : AddressMap)
  | coding (destination : Destination) (rest : List Destination) (address : AddressMap)
      (found : String)
  | awaiting (destination : Destination) (rest : List Destination) (address : AddressMap)
      (contract : String)
  | settled

/-- What a transfer is about; `address` is what the wrapper knows before. -/
structure TransferPlan (Transfer Signer : Type) where
  transfer : Transfer
  enygma : EnygmaToken Signer
  expectedBalances : String → Option Int
  destinations : List Destination
  address : AddressMap

namespace TransferState

/-- The turn of the next destination. -/
def turn : List Destination → AddressMap → TransferState
  | [], _ => settled
  | destination :: rest, address =>
      match address.known destination.chainId with
      | some known => awaiting destination rest address known
      | none => resolving destination rest address

theorem turn_known {destination : Destination} {address : AddressMap} {known : String}
    (hknown : address.known destination.chainId = some known) (rest : List Destination) :
    turn (destination :: rest) address = awaiting destination rest address known := by
  simp [turn, hknown]

theorem turn_unknown {destination : Destination} {address : AddressMap}
    (hknown : address.known destination.chainId = none) (rest : List Destination) :
    turn (destination :: rest) address = resolving destination rest address := by
  simp [turn, hknown]

/-- The transfer is sent when all destinations are ready. -/
def prepared (destinations : List Destination) (ready : List String) : TransferState :=
  if ∀ destination ∈ destinations, destination.node ∈ ready then sending else initializing ready

def found (destination : Destination) (rest : List Destination) (address : AddressMap)
    (answer : String) : TransferState :=
  if answer = ZERO_ADDRESS then resolving destination rest address
  else coding destination rest address answer

def coded (destination : Destination) (rest : List Destination) (address : AddressMap)
    (found code : String) : TransferState :=
  if code = "" ∨ code = "0x" then resolving destination rest address
  else awaiting destination rest (address.assign destination.chainId ⟨some found⟩) found

def read (expected : Option Int) (destination : Destination) (rest : List Destination)
    (address : AddressMap) (contract : String) (balance : Int) : TransferState :=
  if expected = some balance then turn rest address
  else awaiting destination rest address contract

variable {Transfer Signer : Type} [DecidableEq Transfer]

/-- Each request is the next one for the destination whose turn it is, which a node remains whose
initialization failed. -/
def step (plan : TransferPlan Transfer Signer) :
    TransferState → TransferEvent Transfer → Option TransferState
  | initializing ready, .initializeNode node answer =>
      onlyIf ((plan.destinations.find? fun destination => destination.node ∉ ready).map
        Destination.node = some node)
          (answered (initializing ready) (fun _ => prepared plan.destinations (node :: ready))
            answer)
  | sending, .submit transfer answer =>
      onlyIf (transfer = plan.transfer)
        (afterCall sending (turn plan.destinations plan.address) answer)
  | resolving destination rest address, .getAddressByResourceId chainId resourceId answer =>
      onlyIf (chainId = destination.chainId ∧ resourceId = plan.enygma.resourceId)
        (answered (resolving destination rest address) (found destination rest address) answer)
  | coding destination rest address found, .getCode chainId at_ answer =>
      onlyIf (chainId = destination.chainId ∧ at_ = found)
        (answered (resolving destination rest address) (coded destination rest address found)
          answer)
  | awaiting destination rest address contract, .balanceOf chainId at_ account answer =>
      onlyIf (chainId = destination.chainId ∧ at_ = contract ∧ account = plan.enygma.userWallet)
        (answered (awaiting destination rest address contract)
          (read (plan.expectedBalances destination.chainId) destination rest address contract)
          answer)
  | _, _ => none

def Unsettled (state : TransferState) : Prop := state ≠ settled

end TransferState

/-- The order in which a transfer asks for things. -/
def transferProtocol [DecidableEq Transfer] (plan : TransferPlan Transfer Signer) :
    Machine TransferState (TransferEvent Transfer) where
  step := TransferState.step plan

/-! ## A transfer follows its protocol -/

section Laws

open TransferState

variable [DecidableEq Transfer] [Host σ] {PARALLEL_WORKERS : Option String}
  {services : TransferServices σ Transfer} {artifacts : Artifacts}
  {plan : TransferPlan Transfer Signer} {destination : Destination} {rest : List Destination}

omit [Host σ] in
/-- The destinations before the rest are ready already. -/
theorem initializeDestinations_follows {before : List Destination} {ready : List String}
    (hdestinations : plan.destinations = before ++ rest)
    (hready : ∀ destination ∈ before, destination.node ∈ ready) :
    Obeys (initializeDestinations services rest ready)
      (Follows (transferProtocol plan) (prepared plan.destinations ready) (fun _ => .sending)
        Unsettled) := by
  induction rest generalizing before ready with
  | nil =>
      refine follows_returns ready (if_pos ?_).symm
      rwa [hdestinations, List.append_nil]
  | cons destination rest ih =>
      have hmoved : plan.destinations = (before ++ [destination]) ++ rest := by
        rw [hdestinations, List.append_assoc, List.singleton_append]
      unfold initializeDestinations
      split
      next hnode => exact ih hmoved (List.forall_mem_append.mpr ⟨hready, by simpa using hnode⟩)
      next hnode =>
        have hprepared : prepared plan.destinations ready = initializing ready :=
          if_neg fun hall => hnode (hall destination (by simp [hdestinations]))
        have hfirst : plan.destinations.find? (fun destination => destination.node ∉ ready) =
            some destination := by
          rw [hdestinations, List.find?_append, List.find?_eq_none.mpr (by simpa using hready)]
          simp [hnode]
        rw [hprepared]
        refine follows_andThen (fun _ => prepared plan.destinations (destination.node :: ready))
          (follows_ask (fun _ => onlyIf_of (by rw [hfirst]; rfl) _) (fun _ => rfl) nofun) ?_
        intro _
        refine ih hmoved (List.forall_mem_append.mpr ⟨?_, by simp⟩)
        exact fun other hother => List.mem_cons_of_mem _ (hready other hother)

/-- What the check of a resolution has led to. -/
def resolved (destination : Destination) (rest : List Destination) (address : AddressMap)
    (assigned : AssignedAddress) : TransferState :=
  match assigned.address? with
  | some found => awaiting destination rest (address.assign destination.chainId assigned) found
  | none => resolving destination rest address

omit [Host σ] in
/-- Every poll for the address follows the transfer protocol. -/
theorem resolve_check_follows (address : AddressMap) :
    Obeys (resolveOptions services plan.enygma destination).check
      (Follows (transferProtocol plan) (.resolving destination rest address)
        (resolved destination rest address) (· = .resolving destination rest address)) := by
  refine follows_andThen (found destination rest address)
    (follows_ask (fun _ => onlyIf_of ⟨rfl, rfl⟩ _) (fun _ => rfl) rfl) ?_
  intro answer
  unfold found
  split
  next => exact follows_returns _ rfl
  next =>
    refine follows_andThen (coded destination rest address answer)
      (follows_ask (fun _ => onlyIf_of ⟨rfl, rfl⟩ _) (fun _ => rfl) rfl) ?_
    intro code
    unfold coded
    split
    next => exact follows_returns _ rfl
    next => exact follows_returns _ rfl

/-- A turn begins by resolving the address, unless the wrapper knows it. -/
theorem resolveAddressOnPL_follows (address : AddressMap) :
    Obeys (resolveAddressOnPL PARALLEL_WORKERS services plan.enygma destination address)
      (Follows (transferProtocol plan) (turn (destination :: rest) address)
        (fun pair => .awaiting destination rest pair.1 pair.2) Unsettled) := by
  unfold resolveAddressOnPL
  split
  next known hknown => exact follows_returns _ (turn_known hknown rest).symm
  next hunknown =>
    rw [turn_unknown hunknown rest]
    refine follows_leaving (follows_eventually PARALLEL_WORKERS _ (resolve_check_follows address)
      ?_ ?_ _) nofun
    · intro assigned hfalsy
      obtain ⟨_ | found⟩ := assigned
      · rfl
      · cases hfalsy
    · intro assigned htruthy
      obtain ⟨_ | found⟩ := assigned
      · cases htruthy
      · rfl

/-- The contract to which a node's store is bound under the token's symbol. -/
def bound (enygma : EnygmaToken Signer) (destination : Destination)
    (held : HeldNodes Signer) : String :=
  match (held.contractStore destination.node).get enygma.symbol with
  | .ok contract => contract.address
  | .error _ => ""

omit [DecidableEq Transfer] [Host σ] in
theorem get_of_connectOnNode {enygma : EnygmaToken Signer} {address : String}
    {store next : ContractStore Signer} {contract : Contract Signer}
    (hsymbol : formatFactoryName enygma.symbol = enygma.symbol)
    (hconnect : connectOnNode artifacts enygma destination address store = (.ok contract, next)) :
    next.get enygma.symbol = .ok contract ∧ contract.address = address := by
  unfold connectOnNode at hconnect
  cases hartifact : artifacts (formatFactoryName enygma.factory) with
  | error err =>
      rw [ContractStore.connect_error hartifact] at hconnect
      cases hconnect
  | ok _ =>
      rw [ContractStore.connect_ok hartifact] at hconnect
      obtain ⟨hcontract, rfl⟩ := Prod.mk.inj hconnect
      obtain rfl := Except.ok.inj hcontract
      exact ⟨by simp [ContractStore.get, ContractStore.set, hsymbol], rfl⟩

/-- The wait of one node and its binding follow the protocol. -/
theorem waitForDeploymentOnNode_follows (hsymbol : formatFactoryName plan.enygma.symbol =
    plan.enygma.symbol) (held : HeldNodes Signer) :
    Obeys (waitForDeploymentOnNode PARALLEL_WORKERS services artifacts plan.enygma destination held)
      (Follows (transferProtocol plan) (turn (destination :: rest) held.address)
        (fun next => .awaiting destination rest next.address (bound plan.enygma destination next))
        Unsettled) := by
  refine follows_andThen (fun pair => .awaiting destination rest pair.1 pair.2)
    (resolveAddressOnPL_follows held.address) ?_
  intro ⟨address, found⟩
  split
  next err store hconnect => exact follows_throws err nofun
  next contract store hconnect =>
    obtain ⟨hget, haddress⟩ := get_of_connectOnNode hsymbol hconnect
    refine follows_returns _ ?_
    simp [bound, hget, haddress]

omit [Host σ] in
/-- Every poll of the balance follows the protocol. -/
theorem balance_check_follows (held : HeldNodes Signer) :
    Obeys (balanceOptions services plan.enygma destination
        (plan.expectedBalances destination.chainId) (held.contractStore destination.node)).check
      (Follows (transferProtocol plan)
        (.awaiting destination rest held.address (bound plan.enygma destination held))
        (fun met => if met then turn rest held.address
          else .awaiting destination rest held.address (bound plan.enygma destination held))
        (· = .awaiting destination rest held.address (bound plan.enygma destination held))) := by
  unfold balanceOptions bound
  cases hget : (held.contractStore destination.node).get plan.enygma.symbol with
  | error err => exact follows_throws err rfl
  | ok contract =>
      refine follows_andThen (read (plan.expectedBalances destination.chainId) destination rest
        held.address contract.address)
          (follows_ask (fun _ => onlyIf_of ⟨rfl, rfl, rfl⟩ _) (fun _ => rfl) rfl) ?_
      intro balance
      cases hexpected : plan.expectedBalances destination.chainId with
      | none => exact follows_throws undefinedBigInt rfl
      | some expected => exact follows_returns _ (by simp [TransferState.read])

theorem awaitBalance_follows (message : String) (held : HeldNodes Signer) :
    Obeys (awaitBalance PARALLEL_WORKERS services plan.enygma destination
        (plan.expectedBalances destination.chainId) message held)
      (Follows (transferProtocol plan)
        (.awaiting destination rest held.address (bound plan.enygma destination held))
        (fun _ => turn rest held.address) Unsettled) :=
  follows_leaving (follows_awaiting PARALLEL_WORKERS _ (balance_check_follows held) message) nofun

/-- The loop over the destinations. -/
theorem settleDestinations_follows (hsymbol : formatFactoryName plan.enygma.symbol =
    plan.enygma.symbol) (rest : List Destination) (held : HeldNodes Signer) :
    Obeys (settleDestinations PARALLEL_WORKERS services artifacts plan.enygma
        plan.expectedBalances rest held)
      (Follows (transferProtocol plan) (turn rest held.address) (fun _ => .settled)
        Unsettled) := by
  induction rest generalizing held with
  | nil => exact follows_returns () rfl
  | cons destination rest ih =>
      refine follows_andThen (fun next =>
        .awaiting destination rest next.address (bound plan.enygma destination next))
          (waitForDeploymentOnNode_follows hsymbol held) fun next => ?_
      exact follows_andThen (fun _ => turn rest next.address) (awaitBalance_follows _ next)
        fun _ => ih next

/-- The cross transfer follows the protocol over all its destinations. -/
theorem shouldCrossTransferEnygma_follows (hsymbol : formatFactoryName plan.enygma.symbol =
    plan.enygma.symbol) (transferNumber : Nat) (held : HeldNodes Signer)
    (haddress : held.address = plan.address) :
    Obeys (shouldCrossTransferEnygma PARALLEL_WORKERS services artifacts plan.enygma plan.transfer
        transferNumber plan.expectedBalances plan.destinations held)
      (Follows (transferProtocol plan) (prepared plan.destinations held.ready) (fun _ => .settled)
        Unsettled) := by
  refine follows_andThen (fun _ => .sending)
    (initializeDestinations_follows (List.nil_append _).symm (by simp)) fun ready => ?_
  apply follows_andThen fun _ => turn plan.destinations plan.address
  · exact follows_leaving (follows_submitTx (mines_of_afterCall fun _ => onlyIf_of rfl _) _) nofun
  · intro _
    rw [← haddress]
    exact settleDestinations_follows hsymbol plan.destinations { held with ready }

/-- The linear transfer follows the protocol over its one destination. -/
theorem linearTransferEnygma_follows (hsymbol : formatFactoryName plan.enygma.symbol =
    plan.enygma.symbol) (destinationAddress : String) (transferNumber : Nat)
    {expectedBalance : Int} (hexpected : plan.expectedBalances destination.chainId =
      some expectedBalance) (hdestinations : plan.destinations = [destination])
    (held : HeldNodes Signer) (haddress : held.address = plan.address) :
    Obeys (linearTransferEnygma PARALLEL_WORKERS services artifacts plan.enygma plan.transfer
        destinationAddress transferNumber expectedBalance destination held)
      (Follows (transferProtocol plan) .sending (fun _ => .settled) Unsettled) := by
  apply follows_andThen fun _ => turn plan.destinations plan.address
  · exact follows_leaving (follows_submitTx (mines_of_afterCall fun _ => onlyIf_of rfl _) _) nofun
  · intro receipt
    rw [← haddress, hdestinations]
    refine follows_andThen (fun next =>
      .awaiting destination [] next.address (bound plan.enygma destination next))
        (waitForDeploymentOnNode_follows hsymbol held) fun next => ?_
    rw [← hexpected]
    exact follows_andThen (fun _ => turn [] next.address) (awaitBalance_follows _ next)
      fun _ => follows_returns receipt rfl

end Laws

/-! ## What a transfer has seen -/

namespace TransferEvent

/-- The transfer has been mined. -/
def submits : TransferEvent Transfer → Bool
  | .submit _ (.ok response) => response.mined
  | _ => false

/-- The chain and the contract whose balance is read. -/
def reads : TransferEvent Transfer → Option (String × String)
  | .balanceOf chainId contract _ _ => some (chainId, contract)
  | _ => none

/-- The chain on which the balance that is expected was read. -/
def met (expectedBalances : String → Option Int) : TransferEvent Transfer → Option String
  | .balanceOf chainId _ _ (.ok balance) =>
      if expectedBalances chainId = some balance then some chainId else none
  | _ => none

end TransferEvent

/-- The wrapper knew the token's address on the chain, or the chain answered it and code at it. -/
def Sourced (plan : TransferPlan Transfer Signer) (said : List (TransferEvent Transfer))
    (chainId contract : String) : Prop :=
  plan.address.known chainId = some contract ∨
    .getAddressByResourceId chainId plan.enygma.resourceId (.ok contract) ∈ said ∧
      ∃ code, .getCode chainId contract (.ok code) ∈ said ∧ code ≠ "" ∧ code ≠ "0x"

theorem Sourced.mono {plan : TransferPlan Transfer Signer}
    {said : List (TransferEvent Transfer)} {chainId contract : String}
    (hsourced : Sourced plan said chainId contract) (event : TransferEvent Transfer) :
    Sourced plan (said ++ [event]) chainId contract := by
  refine hsourced.imp id fun ⟨hanswered, code, hcode, hne⟩ => ?_
  exact ⟨List.mem_append_left _ hanswered, code, List.mem_append_left _ hcode, hne⟩

namespace TransferState

/-- Whether the transfer has been mined. -/
def mined : TransferState → Nat
  | initializing _ | sending => 0
  | _ => 1

/-- The destinations that have still to be met. -/
def remaining (destinations : List Destination) : TransferState → List Destination
  | initializing _ | sending => destinations
  | resolving destination rest _ | coding destination rest _ _ | awaiting destination rest _ _ =>
      destination :: rest
  | settled => []

/-- All that the wrapper knows has its source. -/
def AllSourced (plan : TransferPlan Transfer Signer) (said : List (TransferEvent Transfer))
    (address : AddressMap) : Prop :=
  ∀ chainId contract, address.known chainId = some contract →
    Sourced plan said chainId contract

/-- What the answers to the present turn have told. -/
def Told (plan : TransferPlan Transfer Signer) (said : List (TransferEvent Transfer)) :
    TransferState → Prop
  | initializing _ | sending | settled => True
  | resolving _ _ address => AllSourced plan said address
  | coding destination _ address found => AllSourced plan said address ∧
      .getAddressByResourceId destination.chainId plan.enygma.resourceId (.ok found) ∈ said
  | awaiting destination _ address contract => AllSourced plan said address ∧
      Sourced plan said destination.chainId contract

/-- What has been said when a state is reached. -/
structure Seen (plan : TransferPlan Transfer Signer) (said : List (TransferEvent Transfer))
    (state : TransferState) : Prop where
  submitted : said.countP TransferEvent.submits = state.mined
  visited : said.filterMap (TransferEvent.met plan.expectedBalances) ++
    (state.remaining plan.destinations).map Destination.chainId =
      plan.destinations.map Destination.chainId
  told : state.Told plan said
  sourced : ∀ chainId contract account answer,
    .balanceOf chainId contract account answer ∈ said → Sourced plan said chainId contract

section Seen

variable {plan : TransferPlan Transfer Signer} {said : List (TransferEvent Transfer)}
  {state next : TransferState} {event : TransferEvent Transfer} {address : AddressMap}

theorem AllSourced.mono (hall : AllSourced plan said address) (event : TransferEvent Transfer) :
    AllSourced plan (said ++ [event]) address :=
  fun chainId contract hknown => (hall chainId contract hknown).mono event

theorem AllSourced.assign {chainId found : String} (hall : AllSourced plan said address)
    (hfound : Sourced plan said chainId found) :
    AllSourced plan said (address.assign chainId ⟨some found⟩) := by
  intro other contract hknown
  by_cases hother : other = chainId
  · subst hother
    simp only [AddressMap.known, AddressMap.assign, Function.update_self] at hknown
    obtain rfl := Option.some.inj (Option.filter_eq_some_iff.mp hknown).1
    exact hfound
  · refine hall other contract ?_
    simpa only [AddressMap.known, AddressMap.assign, Function.update_of_ne hother] using hknown

theorem mined_turn (rest : List Destination) (address : AddressMap) :
    (turn rest address).mined = 1 := by
  cases rest with
  | nil => rfl
  | cons destination rest =>
      cases hknown : address.known destination.chainId with
      | none => rw [turn_unknown hknown]; rfl
      | some known => rw [turn_known hknown]; rfl

theorem remaining_turn (destinations rest : List Destination) (address : AddressMap) :
    (turn rest address).remaining destinations = rest := by
  cases rest with
  | nil => rfl
  | cons destination rest =>
      cases hknown : address.known destination.chainId with
      | none => rw [turn_unknown hknown]; rfl
      | some known => rw [turn_known hknown]; rfl

theorem told_turn (rest : List Destination) (hall : AllSourced plan said address) :
    (turn rest address).Told plan said := by
  cases rest with
  | nil => trivial
  | cons destination rest =>
      cases hknown : address.known destination.chainId with
      | none =>
          rw [turn_unknown hknown]
          exact hall
      | some known =>
          rw [turn_known hknown]
          exact ⟨hall, hall _ known hknown⟩

theorem sourced_of_unread (hunread : event.reads = none) (chainId contract account : String)
    (answer : Except JsError Int) (hevent : event = .balanceOf chainId contract account answer) :
    Sourced plan said chainId contract := by
  rw [hevent] at hunread
  cases hunread

/-- Each event counts for the state that it leads to. -/
theorem Seen.concat (hseen : state.Seen plan said)
    (hsubmitted : state.mined + event.submits.toNat = next.mined)
    (hvisited : (event.met plan.expectedBalances).toList ++
      (next.remaining plan.destinations).map Destination.chainId =
        (state.remaining plan.destinations).map Destination.chainId)
    (htold : next.Told plan (said ++ [event]))
    (hsourced : ∀ chainId contract account answer,
      event = .balanceOf chainId contract account answer → Sourced plan said chainId contract) :
    next.Seen plan (said ++ [event]) where
  submitted := by
    rw [countP_concat, hseen.submitted, hsubmitted]
  visited := by
    rw [← hseen.visited, ← hvisited, List.filterMap_append, List.append_assoc]
    cases hmet : event.met plan.expectedBalances <;> simp [hmet]
  told := htold
  sourced chainId contract account answer hmem := by
    rcases List.mem_append.mp hmem with hmem | hmem
    · exact (hseen.sourced _ _ _ _ hmem).mono event
    · exact (hsourced _ _ _ _ (List.mem_singleton.mp hmem).symm).mono event

variable [DecidableEq Transfer]

/-- What has been said grows with the state that each request leads to. -/
theorem Seen.step (hseen : state.Seen plan said) (hstep : step plan state event = some next) :
    next.Seen plan (said ++ [event]) := by
  have htold := hseen.told
  unfold TransferState.step at hstep
  split at hstep <;> try obtain ⟨hallowed, rfl⟩ := onlyIf_eq_some.mp hstep
  case h_1 ready node answer =>
    rcases answer with err | _
    · exact hseen.concat rfl rfl trivial (sourced_of_unread rfl)
    · simp only [answered, prepared]
      split
      next => exact hseen.concat rfl rfl trivial (sourced_of_unread rfl)
      next => exact hseen.concat rfl rfl trivial (sourced_of_unread rfl)
  case h_2 transfer answer =>
    rcases answer with err | response
    · exact hseen.concat rfl rfl trivial (sourced_of_unread rfl)
    · cases hmined : response.mined <;>
        simp only [afterCall, answered, hmined, if_true, Bool.false_eq_true, if_false]
      · exact hseen.concat (by simp [TransferEvent.submits, mined, hmined]) rfl trivial
          (sourced_of_unread rfl)
      · refine hseen.concat ?_ ?_ (told_turn _ fun _ _ hknown => .inl hknown)
          (sourced_of_unread rfl)
        · rw [mined_turn]
          simp [TransferEvent.submits, mined, hmined]
        · rw [remaining_turn]
          rfl
  case h_3 destination rest address chainId resourceId answer =>
    rcases answer with err | answer
    · exact hseen.concat rfl rfl (AllSourced.mono htold _) (sourced_of_unread rfl)
    · simp only [answered, found]
      obtain ⟨rfl, rfl⟩ := hallowed
      split
      next => exact hseen.concat rfl rfl (AllSourced.mono htold _) (sourced_of_unread rfl)
      next => exact hseen.concat rfl rfl ⟨AllSourced.mono htold _, by simp⟩ (sourced_of_unread rfl)
  case h_4 destination rest address found chainId at_ answer =>
    obtain ⟨hall, hanswered⟩ := htold
    rcases answer with err | code
    · exact hseen.concat rfl rfl (hall.mono _) (sourced_of_unread rfl)
    · simp only [answered, coded]
      obtain ⟨rfl, rfl⟩ := hallowed
      split
      next => exact hseen.concat rfl rfl (hall.mono _) (sourced_of_unread rfl)
      next hcode =>
        obtain ⟨hne, hother⟩ := not_or.mp hcode
        have hsourced : Sourced plan (said ++ [.getCode destination.chainId at_ (.ok code)])
            destination.chainId at_ :=
          .inr ⟨List.mem_append_left _ hanswered, code, by simp, hne, hother⟩
        exact hseen.concat rfl rfl ⟨(hall.mono _).assign hsourced, hsourced⟩ (sourced_of_unread rfl)
  case h_5 destination rest address contract chainId at_ account answer =>
    obtain ⟨hall, hcontract⟩ := htold
    obtain ⟨rfl, rfl, rfl⟩ := hallowed
    have hsourced : ∀ other found holder reply, (.balanceOf destination.chainId at_
        plan.enygma.userWallet answer : TransferEvent Transfer) =
          .balanceOf other found holder reply → Sourced plan said other found := by
      intro other found holder reply heq
      obtain ⟨rfl, rfl, rfl, rfl⟩ := TransferEvent.balanceOf.inj heq
      exact hcontract
    rcases answer with err | balance
    · exact hseen.concat rfl rfl ⟨hall.mono _, hcontract.mono _⟩ hsourced
    · simp only [answered, read]
      split
      next hmet =>
        refine hseen.concat ?_ ?_ (told_turn rest (hall.mono _)) hsourced
        · rw [mined_turn]
          rfl
        · rw [remaining_turn]
          simp [TransferEvent.met, hmet, remaining]
      next hunmet =>
        refine hseen.concat rfl ?_ ⟨hall.mono _, hcontract.mono _⟩ hsourced
        simp [TransferEvent.met, hunmet, remaining]
  case h_6 => cases hstep

/-- So every state of a run has its requests behind it. -/
theorem seen_of_run {start : TransferState} (hstart : start.Seen plan [])
    (hrun : (transferProtocol plan).run start said = some state) : state.Seen plan said :=
  Machine.run_said (fun _ _ _ _ hseen hstep => hseen.step hstep) hstart hrun

end Seen

end TransferState

/-- What a transfer promises of its requests to the nodes, begun in the state. -/
structure SettlesTransfer {α : Type} [DecidableEq Transfer] (plan : TransferPlan Transfer Signer)
    (start : TransferState) (outcome : Except JsError α) (said : List (TransferEvent Transfer)) :
    Prop where
  /-- The requests follow the protocol, and the flow resolves when it has come to its end. -/
  follows : ∃ final, (transferProtocol plan).run start said = some final ∧
    (outcome.isOk = true ↔ final = .settled)
  /-- The transfer is not sent again after it was mined. -/
  once : said.countP TransferEvent.submits ≤ 1
  /-- Balances are read from contracts that the wrapper knew, or that the chain answered with
  their code. -/
  sourced : ∀ chainId contract account answer,
    .balanceOf chainId contract account answer ∈ said → Sourced plan said chainId contract
  /-- The destinations were met in their order, each of them once, as far as the flow came. -/
  visited : said.filterMap (TransferEvent.met plan.expectedBalances) <+:
    plan.destinations.map Destination.chainId
  returned : outcome.isOk = true → said.countP TransferEvent.submits = 1 ∧
    said.filterMap (TransferEvent.met plan.expectedBalances) =
      plan.destinations.map Destination.chainId

section Main

variable [DecidableEq Transfer] {plan : TransferPlan Transfer Signer}

theorem mined_le (state : TransferState) : state.mined ≤ 1 := by
  cases state <;> simp [TransferState.mined]

/-- What follows the protocol to its end keeps the promises. -/
theorem settlesTransfer_of_follows {α : Type} {start : TransferState} {outcome : Except JsError α}
    {said : List (TransferEvent Transfer)} (hstart : start.Seen plan [])
    (hfollows : Follows (transferProtocol plan) start (fun _ => .settled)
      TransferState.Unsettled outcome said) : SettlesTransfer plan start outcome said := by
  obtain ⟨final, hrun⟩ := hfollows.accepted
  have hseen := TransferState.seen_of_run hstart hrun
  have houtcome : outcome.isOk = true ↔ final = .settled := by
    cases hfollows with
    | resolved hreached =>
        obtain rfl := Option.some.inj (hreached.symm.trans hrun)
        exact ⟨fun _ => rfl, fun _ => rfl⟩
    | rejected hreached hunsettled =>
        obtain rfl := Option.some.inj (hreached.symm.trans hrun)
        exact ⟨nofun, fun hsettled => absurd hsettled hunsettled⟩
  refine ⟨⟨final, hrun, houtcome⟩, hseen.submitted.trans_le (mined_le final), hseen.sourced,
    ⟨_, hseen.visited⟩, fun hok => ?_⟩
  obtain rfl := houtcome.mp hok
  exact ⟨hseen.submitted, by simpa [TransferState.remaining] using hseen.visited⟩

/-- However the nodes answer, both flows keep their promises about an Enygma whose symbol does not
end like a factory's name. -/
theorem tokenFlows_settle [Host σ] (PARALLEL_WORKERS : Option String)
    (services : TransferServices σ Transfer) (artifacts : Artifacts)
    (plan : TransferPlan Transfer Signer)
    (hsymbol : formatFactoryName plan.enygma.symbol = plan.enygma.symbol)
    (held : HeldNodes Signer) (haddress : held.address = plan.address) (transferNumber : Nat) :
    Obeys (shouldCrossTransferEnygma PARALLEL_WORKERS services artifacts plan.enygma plan.transfer
        transferNumber plan.expectedBalances plan.destinations held)
      (SettlesTransfer plan (.prepared plan.destinations held.ready)) ∧
    ∀ destination expectedBalance destinationAddress, plan.destinations = [destination] →
      plan.expectedBalances destination.chainId = some expectedBalance →
      Obeys (linearTransferEnygma PARALLEL_WORKERS services artifacts plan.enygma plan.transfer
          destinationAddress transferNumber expectedBalance destination held)
        (SettlesTransfer plan .sending) := by
  constructor
  · refine (shouldCrossTransferEnygma_follows hsymbol transferNumber held haddress).imp
      fun outcome said => settlesTransfer_of_follows ?_
    unfold TransferState.prepared
    split <;> exact ⟨rfl, rfl, trivial, nofun⟩
  · intro destination expectedBalance destinationAddress hdestinations hexpected
    exact (linearTransferEnygma_follows hsymbol destinationAddress transferNumber hexpected
      hdestinations held haddress).imp
        fun outcome said => settlesTransfer_of_follows ⟨rfl, rfl, trivial, nofun⟩

end Main

/-- Nodes on which a transfer arrives at once. -/
def arrivingServices : TransferServices Probe String where
  initializeNode _ world := (.ok (), world)
  submit _ world := (.ok ⟨"0xf00d", some 0, .ok (some ⟨"0xf00d", 1⟩)⟩, world)
  getAddressByResourceId _ _ world := (.ok "0xe1197", world)
  getCode _ _ world := (.ok "0x60", world)
  balanceOf _ _ _ world := (.ok 5, world)

/-- A transfer to B and C; the wrapper knows the token on C. -/
def twoDestinations : TransferPlan String Nat where
  transfer := "5 to B, 5 to C"
  enygma := ⟨"ENY", "0x1d", "EnygmaTokenExample__factory", "0xa11ce", fun _ => 0⟩
  expectedBalances _ := some 5
  destinations := [⟨"B", "2"⟩, ⟨"C", "3"⟩]
  address := Function.update (fun _ => none) "3" (some "0xe1198")

/-- Both destinations are met. -/
theorem tokenFlows_settle_twoDestinations : ∃ (outcome : Except JsError Unit) (said : _),
    SettlesTransfer twoDestinations (.prepared twoDestinations.destinations ["C"]) outcome said ∧
    said.filterMap (TransferEvent.met twoDestinations.expectedBalances) = ["2", "3"] := by
  have hobeys := (tokenFlows_settle none arrivingServices (fun _ => .ok ()) twoDestinations
    (by decide) ⟨["C"], twoDestinations.address, fun _ => ContractStore.new⟩ rfl 1).1
  obtain ⟨said, _, hsettles⟩ := hobeys ⟨⟨[], Logger.new⟩, []⟩
  have hresolved : (shouldCrossTransferEnygma none arrivingServices (fun _ => .ok ())
      twoDestinations.enygma twoDestinations.transfer 1 twoDestinations.expectedBalances
      twoDestinations.destinations ⟨["C"], twoDestinations.address, fun _ => ContractStore.new⟩
      ⟨⟨[], Logger.new⟩, []⟩).1.isOk = true := by decide +kernel
  exact ⟨_, said, hsettles, (hsettles.returned hresolved).2⟩

end RaylsSuite.Flows
