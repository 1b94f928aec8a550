import RaylsSuite.Foundation.Text

/-! # Classification of blockchain errors

A thrown value is known to the callers by its class, its `code` and its
`message` or `reason`. Two predicates decide which of them a retry may follow:
nonce errors and transient RPC errors.
-/

namespace RaylsSuite.Common

open Foundation

/-- The classes that `instanceof` distinguishes. -/
inductive ErrorClass where
  | error | receiptTimeoutError | nonceError | replacementTransactionError
  | knownTransactionError | transientRpcError | assertionError
deriving DecidableEq, Repr

/-- A thrown value; an absent field is undefined. -/
structure JsError where
  instanceOf : ErrorClass
  message : Option String
  reason : Option String
  code : Option String
deriving DecidableEq, Repr

namespace JsError

/-- `new Error(message)`. -/
def new (message : String) : JsError := ⟨.error, some message, none, none⟩

/-- An error that carries an ethers error code. -/
def coded (code message : String) : JsError := ⟨.error, some message, none, some code⟩

/-- `undefined`, which may be thrown like any other value. -/
instance : Inhabited JsError := ⟨⟨.error, none, none, none⟩⟩

/-- `(err?.message || err?.reason || '').toLowerCase()`. -/
def text (err : JsError) : String :=
  Text.toLowerCase (Text.orElse err.message (Text.orElse err.reason ""))

end JsError

def receiptTimeoutError (txHash : String) (timeoutMs : Nat) : JsError :=
  ⟨.receiptTimeoutError, some s!"Receipt timeout after {timeoutMs}ms for tx {txHash}", none, none⟩

/-- `patterns.some((p) => msg.includes(p))`. -/
def matchesPatterns (patterns : List String) (err : JsError) : Bool :=
  patterns.any fun pattern => Text.includes err.text pattern

def NonceError.patterns : List String := ["nonce"]

def ReplacementTransactionError.patterns : List String :=
  ["replacement transaction", "replacement fee too low", "transaction was replaced", "repriced"]

def KnownTransactionError.patterns : List String := ["known transaction", "already known"]

def TransientRpcError.patterns : List String :=
  ["invalid bytelike", "value=null", "missing trie node"]

/-- `err instanceof NonceError`, subclasses included. -/
def ErrorClass.isNonceError : ErrorClass → Bool
  | .nonceError | .replacementTransactionError | .knownTransactionError => true
  | _ => false

def NONCE_ERROR_CLASSES : List (List String) :=
  [ReplacementTransactionError.patterns, KnownTransactionError.patterns, NonceError.patterns]

def isNonceError (err : JsError) : Bool :=
  err.instanceOf.isNonceError || err.code == some "TRANSACTION_REPLACED" ||
    NONCE_ERROR_CLASSES.any fun patterns => matchesPatterns patterns err

def isTransientRpcError (err : JsError) : Bool :=
  err.instanceOf == .transientRpcError || err.code == some "BAD_DATA" ||
    matchesPatterns TransientRpcError.patterns err

/-- The `retryIf` that the transaction helpers share. -/
def isRetryable (err : JsError) : Bool := isNonceError err || isTransientRpcError err

end RaylsSuite.Common
