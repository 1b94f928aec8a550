import RaylsSuite.Common.BlockChainExceptions
import RaylsSuite.Common.Retry

/-! # Posting raw transactions as JSON-RPC batches -/

namespace RaylsSuite.TestUtils

open Foundation Common

structure RpcRequest (Raw : Type) where
  jsonrpc : String
  method : String
  params : List Raw
  id : Nat
deriving DecidableEq, Repr

structure RpcError where
  code : Int
  message : String
deriving DecidableEq, Repr

structure BatchRpcResult where
  jsonrpc : String
  id : Nat
  result : Option String
  error : Option RpcError
deriving DecidableEq, Repr

structure HttpResponse where
  status : Nat
  statusText : String
  data : List BatchRpcResult
deriving DecidableEq, Repr

variable {σ Raw : Type}

def batchPayload (signedRawTxs : List Raw) : List (RpcRequest Raw) :=
  signedRawTxs.mapIdx fun index signedTx =>
    ⟨"2.0", "eth_sendRawTransaction", [signedTx], index + 1⟩

/-- The error of an answer that is not OK. -/
def statusError (status : Nat) (statusText : String) : JsError :=
  JsError.new s!"TransactionSender: RPC returned {status} {statusText}"

/-- `post` is `axios.post` to the endpoint; the function only prints besides. -/
def sendBatchRawTransactions (post : List (RpcRequest Raw) → Async σ JsError HttpResponse)
    (signedRawTxs : List Raw) : Async σ JsError (List BatchRpcResult) := fun world =>
  if signedRawTxs.length = 0 then (.ok [], world)
  else
    match post (batchPayload signedRawTxs) world with
    | (.error err, world) => (.error err, world)
    | (.ok response, world) =>
        if response.status ≠ 200 then
          (.error (statusError response.status response.statusText), world)
        else (.ok response.data, world)

/-- The predicate that `hasNonceError` looks for. -/
def BatchRpcResult.isNonceError (r : BatchRpcResult) : Bool :=
  let msg := Text.toLowerCase (Text.orElse (r.error.map RpcError.message) "")
  Text.includes msg "nonce" || Text.includes msg "replacement transaction"

def hasNonceError (results : List BatchRpcResult) : Bool := results.any BatchRpcResult.isNonceError

end RaylsSuite.TestUtils
