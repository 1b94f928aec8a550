import RaylsSuite.TestUtils.TransactionBuilder
import RaylsSuite.TestUtils.TransactionSender

/-! # Sending a batch of transactions

`sendBatchTransactions` signs the whole batch from the pending nonce, posts it
in chunks, and starts over when an answer reports a nonce error.
-/

namespace RaylsSuite.TestUtils

open Common

variable {σ Raw Value Call : Type} [Host σ]

def JSON_RPC_BATCH_SIZE : Nat := 100

def NONCE_CONFLICT : String := "Batch nonce conflict — will re-sign and retry"

def batchRetry : RetryOptions σ JsError :=
  { attempts := 5, delayMs := 500, retryIf := some fun err => err.message == some NONCE_CONFLICT }

/-- The number of chunks of a batch. -/
def chunkCount (length : Nat) : Nat := (length + (JSON_RPC_BATCH_SIZE - 1)) / JSON_RPC_BATCH_SIZE

/-- `transactions.slice(i, i + batchSize)` for the chunk that starts at `i`. -/
def chunkAt (transactions : List Raw) (i : Nat) : List Raw :=
  (transactions.drop i).take JSON_RPC_BATCH_SIZE

/-- The body of the loop over the chunks. -/
def postChunk (post : List (RpcRequest Raw) → Async σ JsError HttpResponse) (batch : List Raw) :
    Async σ JsError Unit := fun world =>
  match sendBatchRawTransactions post batch world with
  | (.error err, world) => (.error err, world)
  | (.ok results, world) =>
      if hasNonceError results then (.error (JsError.new NONCE_CONFLICT), world) else (.ok (), world)

/-- The loop over the chunks, with the values of `i` that are still to come. -/
def postChunks (post : List (RpcRequest Raw) → Async σ JsError HttpResponse)
    (transactions : List Raw) : List Nat → Async σ JsError Unit
  | [] => fun world => (.ok (), world)
  | i :: rest => fun world =>
      match postChunk post (chunkAt transactions i) world with
      | (.error err, world) => (.error err, world)
      | (.ok (), world) => postChunks post transactions rest world

/-- The unit that is retried. -/
def signAndSend (builder : TransactionBuilder Value Call)
    (getTransactionCount : Async σ JsError Nat)
    (post : List (RpcRequest (RawTransaction Call)) → Async σ JsError HttpResponse)
    (count : Nat) (args : List Value) : Async σ JsError Unit := fun world =>
  match getTransactionCount world with
  | (.error err, world) => (.error err, world)
  | (.ok currentNonce, world) =>
      let transactions := builder.signBatch count "crossTransfer" args currentNonce none
      postChunks post transactions
        ((List.range (chunkCount transactions.length)).map (· * JSON_RPC_BATCH_SIZE)) world

def sendBatchTransactions (builder : TransactionBuilder Value Call)
    (getTransactionCount : Async σ JsError Nat)
    (post : List (RpcRequest (RawTransaction Call)) → Async σ JsError HttpResponse) (count : Nat)
    (destinationAddresses amounts destinationChainIds payloads : Value) : Async σ JsError Unit :=
  retry (signAndSend builder getTransactionCount post count
    [destinationAddresses, amounts, destinationChainIds, payloads]) batchRetry

end RaylsSuite.TestUtils
