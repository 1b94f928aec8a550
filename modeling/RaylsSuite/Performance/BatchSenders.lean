import RaylsSuite.Foundation.NonceRun
import RaylsSuite.Performance.NonceSenders
import RaylsSuite.TestUtils.BatchCount

/-! # The senders of raw batches

Both senders number a batch from a local nonce and advance that nonce, and the
total they expect to settle, by the whole batch once its POST has succeeded.
Neither reads the answers to the single transactions.
-/

namespace RaylsSuite.Performance

open Foundation Foundation.Submission Common TestUtils

variable {Value Call : Type}

/-! ## The wire -/

/-- What becomes of a POST: it fails on its way to the node, or the node decides on every
transaction and the exchange ends well or not. -/
inductive Delivery where
  | unreached (err : JsError)
  | reached (reply : ChunkReply)

/-- `axios.post` to the node, which keeps the transactions that it has seen of the account. -/
def Delivery.post (delivery : Delivery) (payload : List (RpcRequest (RawTransaction Call))) :
    Async (List Submission) JsError HttpResponse := fun handed =>
  match delivery with
  | .unreached err => (.error err, handed)
  | .reached reply =>
      let handed := handed ++ (payload.flatMap RpcRequest.params).zipIdx.map fun entry =>
        ⟨entry.1.nonce, (reply.item entry.2).isAccepted⟩
      match reply.exchange with
      | .error err => (.error err, handed)
      | .ok (status, statusText) =>
          (.ok ⟨status, statusText, payload.zipIdx.map fun entry =>
            (reply.item entry.2).result entry.1.id⟩, handed)

/-! ## The ring -/

structure Direction where
  source : String
  destination : String
deriving DecidableEq, Repr

/-- The first four participants; they are the keys of one object. -/
structure Participants where
  pnA : String
  pnB : String
  pnC : String
  pnD : String
  nodup : [pnA, pnB, pnC, pnD].Nodup

def Participants.ring (participants : Participants) : List Direction :=
  [⟨participants.pnA, participants.pnB⟩, ⟨participants.pnB, participants.pnC⟩,
    ⟨participants.pnC, participants.pnD⟩, ⟨participants.pnD, participants.pnA⟩]

/-- The records by source node, with what each of these nodes has seen. -/
structure RingSends where
  nonces : String → Nat
  totalSent : String → Nat
  handed : String → List Submission

section Ring

variable (builders : String → TransactionBuilder Value Call) (args : Direction → List Value)

/-- The callback of one direction. The callbacks of a round run concurrently, but each reads
and writes the entries of its own source only. -/
def RingSends.send (state : RingSends) (direction : Direction) (delivery : Delivery) : RingSends :=
  let source := direction.source
  let nonce := state.nonces source
  let signed := (builders source).signBatch 1 "crossTransfer" (args direction) nonce none
  match sendBatchRawTransactions delivery.post signed (state.handed source) with
  | (.ok _, handed) =>
      { nonces := Function.update state.nonces source (nonce + 1)
        totalSent := Function.update state.totalSent source (state.totalSent source + 1)
        handed := Function.update state.handed source handed }
  | (.error _, handed) => { state with handed := Function.update state.handed source handed }

/-- One pass of the `while` loop. -/
def RingSends.round (participants : Participants) (state : RingSends)
    (deliveries : String → Delivery) : RingSends :=
  participants.ring.foldl
    (fun state direction => state.send builders args direction (deliveries direction.source)) state

/-- `counts` are those of the source nodes. -/
def RingSends.initial (counts : String → TransactionCounts) : RingSends where
  nonces source := (counts source).latest (builders source).address
  totalSent _ := 0
  handed _ := []

def EnygmaMesh.sends (participants : Participants) (counts : String → TransactionCounts)
    (rounds : List (String → Delivery)) : RingSends :=
  rounds.foldl (RingSends.round builders args participants) (RingSends.initial builders counts)

end Ring

/-! ## The batches -/

/-- The account that signs and what a batch repeats. -/
structure TransferSigner where
  address : String
  chainId : Nat
deriving DecidableEq, Repr

def amountPerTx : Nat := 1

/-- The loop of `signTransferBatch`; only its first pass estimates the gas. -/
def signTransferBatch (totalTxs : Nat) (signer : TransferSigner) (call : Call)
    (estimatedGas : Except JsError Nat) (startingNonce : Nat) : List (RawTransaction Call) :=
  (List.range totalTxs).map fun i =>
    { call
      sender := signer.address
      nonce := startingNonce + i
      gasPrice := 0
      gasLimit := match i, estimatedGas with
        | 0, .ok gas => gas * 12 / 10
        | _, _ => 5000000
      chainId := signer.chainId }

/-- A status other than 200 is only logged. -/
def sendSignedBatchTransactions {σ Raw : Type}
    (post : List (RpcRequest Raw) → Async σ JsError HttpResponse) (signedRawTxs : List Raw) :
    Async σ JsError Unit := fun world =>
  match post (batchPayload signedRawTxs) world with
  | (.error err, world) => (.error err, world)
  | (.ok _, world) => (.ok (), world)

/-- What one pass of the loop meets: the pending count may fail to be read, the balance is
read or not, populating the call throws or not, and the POST ends somehow. -/
structure StabilityRound (Call : Type) where
  latestNonce : Except JsError Unit
  currentBalance : Except JsError Nat
  populated : Except JsError Call
  estimatedGas : Except JsError Nat
  delivery : Delivery

/-- The variables of the loop, with what the node has seen. -/
structure StabilitySends where
  currentNonce : Nat
  totalBatches : Nat
  totalTransactions : Nat
  handed : List Submission
deriving DecidableEq, Repr

section Batches

variable (batchSize : Nat) (signer : TransferSigner) (counts : TransactionCounts)

/-- The nonce is never set back. -/
def StabilitySends.adjustNonce (state : StabilitySends) (latestNonce : Nat) : StabilitySends :=
  if latestNonce > state.currentNonce then { state with currentNonce := latestNonce } else state

/-- The rest of a pass once the batch is signed. -/
def StabilitySends.sendBatch (state : StabilitySends) (signedTxs : List (RawTransaction Call))
    (delivery : Delivery) : StabilitySends :=
  match sendSignedBatchTransactions delivery.post signedTxs state.handed with
  | (.error _, handed) => { state with handed }
  | (.ok (), handed) =>
      { state with
        handed
        currentNonce := state.currentNonce + batchSize
        totalTransactions := state.totalTransactions + batchSize }

/-- A pass, and whether the loop goes on. -/
def StabilitySends.pass (state : StabilitySends) (round : StabilityRound Call) :
    StabilitySends × Bool :=
  let state := { state with totalBatches := state.totalBatches + 1 }
  match round.latestNonce with
  | .error _ => (state, true)
  | .ok () =>
      let state := state.adjustNonce (pendingNonce (counts.pending signer.address) state.handed)
      match round.currentBalance with
      | .error _ => (state, true)
      | .ok currentBalance =>
          if currentBalance < batchSize * amountPerTx then
            ({ state with totalBatches := state.totalBatches - 1 }, false)
          else
            match round.populated with
            | .error _ => (state, true)
            | .ok call =>
                let signedTxs := signTransferBatch batchSize signer call round.estimatedGas
                  state.currentNonce
                (state.sendBatch batchSize signedTxs round.delivery, true)

def StabilitySends.loop : StabilitySends → List (StabilityRound Call) → StabilitySends
  | state, [] => state
  | state, round :: rest =>
      match state.pass batchSize signer counts round with
      | (state, true) => StabilitySends.loop state rest
      | (state, false) => state

def EnygmaBatchStability.sends (rounds : List (StabilityRound Call)) : StabilitySends :=
  StabilitySends.loop batchSize signer counts ⟨counts.latest signer.address, 0, 0, []⟩ rounds

end Batches

end RaylsSuite.Performance
