import RaylsSuite.Common.Poll
import RaylsSuite.Entities.ContractStore

/-! # Privacy nodes and the hub

The hub extends the privacy node and has its own way to bind the contract of a
token that it knows by resource id. A call of either works on the state of its
process: the node's contract store and the queries its endpoint has answered.
-/

namespace RaylsSuite.Entities

open Common Config

/-- What a node calls. `getAddressByResourceId resourceId n` is the answer of its endpoint
to the query number `n`. -/
structure Services (Signer : Type) where
  artifacts : Artifacts
  getAddress : Signer → String
  getAddressByResourceId : String → Nat → Except JsError String

structure PrivacyNode (Signer : Type) where
  node : String
  chainId : String
  userWallet : Signer
  deploymentProxyRegistryAddress : Option String
  endpointAddress : String
  raylsNodeEndpointAddress : String

structure PrivateHub (Signer : Type) extends PrivacyNode Signer

structure NodeSession (Signer : Type) where
  contractStore : ContractStore Signer
  queries : Nat
  clock : Nat
  logger : Logger

variable {Signer : Type}

instance : Host (NodeSession Signer) where
  delay ms session := { session with clock := session.clock + ms }
  logger session := session.logger
  setLogger logger session := { session with logger }

namespace NodeSession

/-- The session after one more query. -/
def asked (session : NodeSession Signer) : NodeSession Signer :=
  { session with queries := session.queries + 1 }

def getEndpointV1 (session : NodeSession Signer) : Except JsError (Contract Signer) :=
  session.contractStore.get "EndpointV1"

end NodeSession

section Operations

variable [DecidableEq Signer] (PARALLEL_WORKERS : Option String) (services : Services Signer)
  (factoryName resourceId cacheKey : String)

/-- Without a signer the contract is bound to `userWallet` under the plain key, with one it
is cached under a key of that signer. -/
def PrivacyNode.getContractAt (node : PrivacyNode Signer) (address key : String)
    (signer : Option Signer) (store : ContractStore Signer) :
    Except JsError (Contract Signer) × ContractStore Signer :=
  let cacheKey := match signer with
    | some signer => s!"{formatFactoryName key}_{services.getAddress signer}"
    | none => formatFactoryName key
  store.connectAt services.artifacts factoryName address cacheKey (signer.getD node.userWallet)

/-- The check that `PrivacyNode.setContractByResourceId` polls. -/
def PrivacyNode.resolve (signer : Signer) : Async (NodeSession Signer) JsError Bool := fun session =>
  match session.getEndpointV1 with
  | .error err => (.error err, session)
  | .ok _ =>
      match services.getAddressByResourceId resourceId session.queries with
      | .error err => (.error err, session.asked)
      | .ok tokenBAddress =>
          if tokenBAddress = ZERO_ADDRESS then (.ok false, session.asked)
          else
            let settled := session.contractStore.connectAt services.artifacts factoryName
              tokenBAddress cacheKey signer
            (settled.1.map fun _ => true, { session.asked with contractStore := settled.2 })

def PrivacyNode.waitOptions (signer : Signer) : PollOptions (NodeSession Signer) JsError Bool where
  check := PrivacyNode.resolve services factoryName resourceId cacheKey signer
  interval := some 1000
  attempts := some 300

def PrivacyNode.waitMessage (node : PrivacyNode Signer) : String :=
  s!"Resolving rid={shortHex resourceId} (factory={factoryName}, chain={node.chainId})"

def PrivacyNode.setContractByResourceId (node : PrivacyNode Signer) (signer : Signer) :
    Async (NodeSession Signer) JsError (Contract Signer) := fun session =>
  match eventually PARALLEL_WORKERS
      (PrivacyNode.waitOptions services factoryName resourceId cacheKey signer)
      (node.waitMessage factoryName resourceId) session with
  | (.error err, session) => (.error err, session)
  | (.ok _, session) => (session.contractStore.get cacheKey, session)

/-- The check that `PrivateHub.setContractByResourceId` polls. -/
def PrivateHub.resolve (hub : PrivateHub Signer) : Async (NodeSession Signer) JsError Bool :=
  fun session =>
    if resourceId = ZERO_HASH then (.ok false, session)
    else
      match services.getAddressByResourceId resourceId session.queries with
      | .error err => (.error err, session.asked)
      | .ok tokenAddress =>
          -- the zero address is connected like any other
          let settled := hub.getContractAt services factoryName tokenAddress (cacheKey ++ "PNH")
            none session.contractStore
          (settled.1.map fun _ => true, { session.asked with contractStore := settled.2 })

def PrivateHub.waitOptions (hub : PrivateHub Signer) :
    PollOptions (NodeSession Signer) JsError Bool where
  check := hub.resolve services factoryName resourceId cacheKey

def PrivateHub.waitMessage : String :=
  s!"Resolving token rid={shortHex resourceId} via Endpoint on PNH"

def PrivateHub.getPNHContract (key : String) (store : ContractStore Signer) :
    Except JsError (Contract Signer) :=
  store.get (key ++ "PNH")

def PrivateHub.setContractByResourceId (hub : PrivateHub Signer) :
    Async (NodeSession Signer) JsError (Contract Signer) := fun session =>
  match session.getEndpointV1 with
  | .error err => (.error err, session)
  | .ok _ =>
      match eventually PARALLEL_WORKERS
          (hub.waitOptions services factoryName resourceId cacheKey)
          (PrivateHub.waitMessage resourceId) session with
      | (.error err, session) => (.error err, session)
      | (.ok _, session) => (PrivateHub.getPNHContract cacheKey session.contractStore, session)

end Operations

end RaylsSuite.Entities
