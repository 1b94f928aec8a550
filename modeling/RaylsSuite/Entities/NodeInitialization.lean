import RaylsSuite.Entities.PrivacyNode

/-! # Initializing a node

A newly constructed privacy node reads two addresses from its deployment
registry and connects its endpoint. Each promise that it awaits may reject.
-/

namespace RaylsSuite.Entities

open Foundation Common Config

/-- Where an asynchronous method stands: at an await, or settled. -/
inductive Progress (Pending α : Type) where
  | awaiting (pending : Pending)
  | settled (outcome : Except JsError α)

/-- An asynchronous method of an object, from its call to its first await and from one
await to the next. -/
structure AsyncMethod (Object Pending Reply α : Type) where
  start : Object → Object × Progress Pending α
  resume : Object → Pending → Reply → Object × Progress Pending α

namespace AsyncMethod

variable {Object Pending Reply α : Type}

/-- What holds of the object at every await and settlement of the method. -/
structure Keeps (method : AsyncMethod Object Pending Reply α)
    (starts : Object → Prop) (stage : Object → Progress Pending α → Prop) : Prop where
  start : ∀ object, starts object → stage (method.start object).1 (method.start object).2
  resume : ∀ object pending reply, stage object (.awaiting pending) →
    stage (method.resume object pending reply).1 (method.resume object pending reply).2

end AsyncMethod

/-- A node under initialization, with its own store. -/
structure NodeObject (Signer : Type) extends PrivacyNode Signer where
  contractStore : ContractStore Signer

inductive RegistryName where
  | endpoint | rnEndpoint
deriving DecidableEq, Repr

def RegistryName.text : RegistryName → String
  | .endpoint => "Endpoint"
  | .rnEndpoint => "RNEndpoint"

/-- The awaits of `initialize()`; the read of the code is retried. -/
inductive NodeAwait where
  | getContract (name : RegistryName)
  | getCode (name : RegistryName) (address : String)
  | connectEndpoint
deriving DecidableEq, Repr

variable {Signer : Type}

namespace NodeObject

/-- `new PrivacyNode(node)`. -/
def construct (config : PrivacyNode Signer) : NodeObject Signer :=
  { config with contractStore := ContractStore.new }

/-- `resolveFromRegistry(name)` up to its first await. -/
def resolveFromRegistry (object : NodeObject Signer) (name : RegistryName) :
    Progress NodeAwait Unit :=
  if Text.orElse object.deploymentProxyRegistryAddress "" = "" then
    .settled (.error (JsError.new "Deployment proxy registry is not set in the .env file"))
  else .awaiting (.getContract name)

/-- The continuation of `resolveFromRegistry(name)` at its answer. -/
def resolved (object : NodeObject Signer) (name : RegistryName) (address : String) :
    NodeObject Signer × Progress NodeAwait Unit :=
  match name with
  | .endpoint => ({ object with endpointAddress := address }, .awaiting .connectEndpoint)
  | .rnEndpoint => ({ object with raylsNodeEndpointAddress := address }, .settled (.ok ()))

/-- `getContractAt(EndpointV1__factory.name, this.endpointAddress, 'EndpointV1')`, and on. -/
def connectEndpoint [DecidableEq Signer] (services : Services Signer) (object : NodeObject Signer) :
    NodeObject Signer × Progress NodeAwait Unit :=
  let (settled, contractStore) := object.getContractAt services "EndpointV1__factory"
    object.endpointAddress "EndpointV1" none object.contractStore
  match settled with
  | .error err => (object, .settled (.error err))
  | .ok _ =>
      let object := { object with contractStore }
      (object, object.resolveFromRegistry .rnEndpoint)

/-- `PrivacyNode.initialize`; a reply carries the address or the code that was asked for. -/
def initializeNode [DecidableEq Signer] (services : Services Signer) :
    AsyncMethod (NodeObject Signer) NodeAwait (Except JsError String) Unit where
  start object := (object, object.resolveFromRegistry .endpoint)
  resume object pending reply :=
    match pending, reply with
    | _, .error err => (object, .settled (.error err))
    | .getContract name, .ok address =>
        if address = "" ∨ address = ZERO_ADDRESS then
          (object, .settled (.error (JsError.new
            s!"Contract '{name.text}' not registered in DeploymentProxyRegistry on PN {object.node}")))
        else (object, .awaiting (.getCode name address))
    | .getCode name address, .ok code =>
        if code = "" ∨ code = "0x" then
          (object, .settled (.error (JsError.new
            s!"No code at address {address} (registered as '{name.text}' on PN {object.node})")))
        else object.resolved name address
    | .connectEndpoint, .ok _ => object.connectEndpoint services

/-! ## What a completed initialization has established -/

/-- An address that the registry may answer. -/
def Deployed (address : String) : Prop := address ≠ "" ∧ address ≠ ZERO_ADDRESS

/-- The endpoint is connected, at the address that the node holds. -/
structure EndpointReady (object : NodeObject Signer) : Prop where
  deployed : Deployed object.endpointAddress
  connected : object.contractStore.cache "EndpointV1" =
    some ⟨"EndpointV1", object.endpointAddress, some object.userWallet⟩

/-- What holds at each await of `initialize()` and when it has settled. -/
def Stage (object : NodeObject Signer) : Progress NodeAwait Unit → Prop
  | .awaiting (.getContract .endpoint) => object.contractStore = ContractStore.new
  | .awaiting (.getCode .endpoint address) =>
      object.contractStore = ContractStore.new ∧ Deployed address
  | .awaiting .connectEndpoint =>
      object.contractStore = ContractStore.new ∧ Deployed object.endpointAddress
  | .awaiting (.getContract .rnEndpoint) => object.EndpointReady
  | .awaiting (.getCode .rnEndpoint address) => object.EndpointReady ∧ Deployed address
  | .settled (.ok ()) => object.EndpointReady ∧ Deployed object.raylsNodeEndpointAddress
  | .settled (.error _) => True

variable [DecidableEq Signer] (services : Services Signer) {object : NodeObject Signer}

theorem stage_connectEndpoint (hnew : object.contractStore = ContractStore.new)
    (hdeployed : Deployed object.endpointAddress) :
    Stage (object.connectEndpoint services).1 (object.connectEndpoint services).2 := by
  have hkey : formatFactoryName "EndpointV1" = "EndpointV1" := by decide
  have hname : formatFactoryName "EndpointV1__factory" = "EndpointV1" := by decide
  have hmiss : (ContractStore.new : ContractStore Signer).hit "EndpointV1" object.userWallet = none :=
    rfl
  simp only [connectEndpoint, PrivacyNode.getContractAt, hkey, hnew, Option.getD_none]
  rw [ContractStore.connectAt_miss hmiss, hkey]
  cases hartifact : services.artifacts (formatFactoryName "EndpointV1__factory") with
  | error err =>
      rw [ContractStore.connect_error hartifact]
      trivial
  | ok found =>
      rw [ContractStore.connect_ok hartifact]
      simp only [resolveFromRegistry]
      split
      next => trivial
      next =>
        -- the store was new, so the entry is the contract just connected
        refine ⟨hdeployed, ?_⟩
        simp only [ContractStore.set, Function.update_self, ContractStore.requested, hname]

/-- A node that completes `initialize()` has its endpoint connected and both addresses. -/
theorem initializeNode_keeps :
    (initializeNode services).Keeps (fun object => object.contractStore = ContractStore.new)
      Stage where
  start object hnew := by
    simp only [initializeNode, resolveFromRegistry]
    split
    next => trivial
    next => exact hnew
  resume object pending reply hstage := by
    cases reply with
    | error err => cases pending <;> trivial
    | ok text =>
        cases pending with
        | connectEndpoint => exact stage_connectEndpoint services hstage.1 hstage.2
        | getContract name =>
            simp only [initializeNode]
            split
            next => trivial
            next hdeployed =>
              have haddress : Deployed text := not_or.mp hdeployed
              cases name with
              | endpoint => exact ⟨hstage, haddress⟩
              | rnEndpoint => exact ⟨hstage, haddress⟩
        | getCode name address =>
            simp only [initializeNode]
            split
            next => trivial
            next hcode =>
              cases name with
              | endpoint => exact hstage
              | rnEndpoint => exact ⟨⟨hstage.1.deployed, hstage.1.connected⟩, hstage.2⟩

end NodeObject

end RaylsSuite.Entities
