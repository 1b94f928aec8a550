import RaylsSuite.Common.WalletFactory
import RaylsSuite.Entities.PrivacyNode
import RaylsSuite.Foundation.NonceRun

/-! # The senders with explicit nonces

Each sender fetches the transaction count of a token's wallet and numbers its
transactions from it, whatever account signs them. The sequential sender moves
its nonce after every call, the others after the calls that give a hash.
-/

namespace RaylsSuite.Performance

open Foundation Common Entities

variable {Signer : Type}

/-! ## Accounts and transactions -/

/-- `getTransactionCount` at the block tags `latest` and `pending`. -/
structure TransactionCounts where
  latest : String → Nat
  pending : String → Nat
  latest_le : ∀ account, latest account ≤ pending account

/-- A transaction that reached the node. -/
structure HandedTransaction extends Submission where
  account : String
  method : String
  gasLimit : Nat
deriving DecidableEq, Repr

/-- The part of a token's wrapper that the senders read. -/
structure TokenWrapper (Signer : Type) where
  userWallet : Signer
  symbol : String
  address : String → String

abbrev TxHash : Type := { hash : String // hash ≠ "" }

/-- A call of a contract method reaches the node, which accepts it or not, or throws before. -/
inductive MethodCall where
  | accepted (hash : TxHash)
  | refused (err : JsError)
  | unsent (err : JsError)
deriving DecidableEq, Repr

def MethodCall.attempt : MethodCall → Submission.Attempt
  | .accepted _ => some true
  | .refused _ => some false
  | .unsent _ => none

/-- The error of a contract that is bound to no signer. -/
def noRunner : JsError := JsError.coded "UNSUPPORTED_OPERATION"
  "contract runner does not support sending transactions"

/-- A call with `nonce` in its overrides, signed by the runner of its contract: the hash that
it gives and the transaction that it hands over. -/
def callMethod (getAddress : Signer → String) (contract : Contract Signer) (method : String)
    (gasLimit nonce : Nat) (call : MethodCall) : Except JsError String × List HandedTransaction :=
  match contract.runner with
  | none => (.error noRunner, [])
  | some signer =>
      match call with
      | .accepted hash => (.ok hash, [⟨⟨nonce, true⟩, getAddress signer, method, gasLimit⟩])
      | .refused err => (.error err, [⟨⟨nonce, false⟩, getAddress signer, method, gasLimit⟩])
      | .unsent err => (.error err, [])

/-- A loop over `items`, and all that its passes hand over. -/
def sendEach {State Item : Type} (pass : State → Item → State × List HandedTransaction) :
    State → List Item → State × List HandedTransaction
  | state, [] => (state, [])
  | state, item :: rest =>
      let first := pass state item
      let others := sendEach pass first.1 rest
      (others.1, first.2 ++ others.2)

/-! ## The sequential sender -/

structure SequentialSends where
  currentNonce : Nat
  sentTransactions : List String
deriving DecidableEq, Repr

def sendSingleTransfer (getAddress : Signer → String) (tokenOnPNA : Contract Signer) (nonce : Nat)
    (call : MethodCall) : Except JsError String × List HandedTransaction :=
  callMethod getAddress tokenOnPNA "crossTransfer" 5000000 nonce call

def SequentialSends.pass (getAddress : Signer → String) (tokenOnPNA : Contract Signer)
    (state : SequentialSends) (call : MethodCall) : SequentialSends × List HandedTransaction :=
  let sent := sendSingleTransfer getAddress tokenOnPNA state.currentNonce call
  match sent.1 with
  | .ok txHash => (⟨state.currentNonce + 1, state.sentTransactions ++ [txHash]⟩, sent.2)
  | .error _ => (⟨state.currentNonce + 1, state.sentTransactions ++ [""]⟩, sent.2)

theorem SequentialSends.pass_handed (getAddress : Signer → String) (tokenOnPNA : Contract Signer)
    (state : SequentialSends) (call : MethodCall) :
    (state.pass getAddress tokenOnPNA call).2 =
      (sendSingleTransfer getAddress tokenOnPNA state.currentNonce call).2 := by
  simp only [SequentialSends.pass]
  split <;> rfl

/-- Also a failed call moves the nonce. -/
theorem SequentialSends.pass_currentNonce (getAddress : Signer → String)
    (tokenOnPNA : Contract Signer) (state : SequentialSends) (call : MethodCall) :
    (state.pass getAddress tokenOnPNA call).1.currentNonce = state.currentNonce + 1 := by
  simp only [SequentialSends.pass]
  split <;> rfl

variable [DecidableEq Signer]

/-- The token's contract on a node, as the tests ask for it. -/
def tokenContract (services : Services Signer) (node : PrivacyNode Signer)
    (token : TokenWrapper Signer) (factoryName : String) (store : ContractStore Signer) :
    Except JsError (Contract Signer) × ContractStore Signer :=
  node.getContractAt services factoryName (token.address node.chainId) token.symbol none store

/-- `getTransactionCount` of the token's wallet. -/
def startNonce (services : Services Signer) (counts : TransactionCounts)
    (token : TokenWrapper Signer) : Nat :=
  counts.latest (services.getAddress token.userWallet)

section Tests

variable (services : Services Signer) (node : PrivacyNode Signer) (counts : TransactionCounts)
  (store : ContractStore Signer)

def EnygmaSequential.sends (token : TokenWrapper Signer) (calls : List MethodCall) :
    Except JsError SequentialSends × List HandedTransaction :=
  match (tokenContract services node token "ProductionEnygmaToken__factory" store).1 with
  | .error err => (.error err, [])
  | .ok tokenOnPNA =>
      let sent := sendEach (SequentialSends.pass services.getAddress tokenOnPNA)
        ⟨startNonce services counts token, []⟩ calls
      (.ok sent.1, sent.2)

/-! ## The senders that count their successes -/

structure CountedSends where
  currentNonce : Nat
  successfulSends : Nat
  failedSends : Nat
deriving DecidableEq, Repr

/-- The body of the loops, given what the send of a pass settles with. -/
def CountedSends.record (state : CountedSends) (result : Except JsError String) : CountedSends :=
  match result with
  | .ok txHash =>
      if txHash ≠ "" then
        { state with
          successfulSends := state.successfulSends + 1
          currentNonce := state.currentNonce + 1 }
      else state
  | .error _ =>
      { state with failedSends := state.failedSends + 1, currentNonce := state.currentNonce + 1 }

omit [DecidableEq Signer] in
/-- A call in a `try` whose `catch` gives the empty hash. -/
def sendSingle (getAddress : Signer → String) (contract : Contract Signer) (method : String)
    (nonce : Nat) (call : MethodCall) : Except JsError String × List HandedTransaction :=
  let sent := callMethod getAddress contract method 1000000 nonce call
  match sent.1 with
  | .ok txHash => (.ok txHash, sent.2)
  | .error _ => (.ok "", sent.2)

omit [DecidableEq Signer] in
theorem sendSingle_handed (getAddress : Signer → String) (contract : Contract Signer)
    (method : String) (nonce : Nat) (call : MethodCall) :
    (sendSingle getAddress contract method nonce call).2 =
      (callMethod getAddress contract method 1000000 nonce call).2 := by
  simp only [sendSingle]
  split <;> rfl

def sendSingleDeposit (getAddress : Signer → String) (tokenOnPNA : Contract Signer) (nonce : Nat)
    (call : MethodCall) : Except JsError String × List HandedTransaction :=
  sendSingle getAddress tokenOnPNA "depositToDvp" nonce call

def sendSingleWithdrawal (getAddress : Signer → String) (tokenOnPNA : Contract Signer)
    (nonce : Nat) (call : MethodCall) : Except JsError String × List HandedTransaction :=
  sendSingle getAddress tokenOnPNA "callWithdrawFromDvp" nonce call

/-- A test that binds the token's contract once and sends in a loop. -/
def countedSends
    (send : (Signer → String) → Contract Signer → Nat → MethodCall →
      Except JsError String × List HandedTransaction)
    (token : TokenWrapper Signer) (calls : List MethodCall) :
    Except JsError CountedSends × List HandedTransaction :=
  match (tokenContract services node token "ProductionEnygmaToken__factory" store).1 with
  | .error err => (.error err, [])
  | .ok tokenOnPNA =>
      let sent := sendEach
        (fun state call =>
          let result := send services.getAddress tokenOnPNA state.currentNonce call
          (state.record result.1, result.2))
        ⟨startNonce services counts token, 0, 0⟩ calls
      (.ok sent.1, sent.2)

def EnygmaDeposit.sends (token : TokenWrapper Signer) (calls : List MethodCall) :
    Except JsError CountedSends × List HandedTransaction :=
  countedSends services node counts store sendSingleDeposit token calls

def EnygmaWithdrawal.sends (token : TokenWrapper Signer) (calls : List MethodCall) :
    Except JsError CountedSends × List HandedTransaction :=
  countedSends services node counts store sendSingleWithdrawal token calls

/-! ## The swaps -/

/-- A send of one side binds the contract of its own token in its `try`. -/
def sendSideSwap (factoryName method : String) (token : TokenWrapper Signer) (nonce : Nat)
    (call : MethodCall) (store : ContractStore Signer) :
    (Except JsError String × List HandedTransaction) × ContractStore Signer :=
  let bound := tokenContract services node token factoryName store
  match bound.1 with
  | .error _ => ((.ok "", []), bound.2)
  | .ok contract => (sendSingle services.getAddress contract method nonce call, bound.2)

section SideSwap

variable {factoryName method : String} {token : TokenWrapper Signer} {nonce : Nat}
  {call : MethodCall}

theorem sendSideSwap_store :
    (sendSideSwap services node factoryName method token nonce call store).2 =
      (tokenContract services node token factoryName store).2 := by
  simp only [sendSideSwap]
  split <;> rfl

theorem sendSideSwap_of_error {err : JsError}
    (hbound : (tokenContract services node token factoryName store).1 = .error err) :
    (sendSideSwap services node factoryName method token nonce call store).1 = (.ok "", []) := by
  simp only [sendSideSwap, hbound]

theorem sendSideSwap_of_ok {contract : Contract Signer}
    (hbound : (tokenContract services node token factoryName store).1 = .ok contract) :
    (sendSideSwap services node factoryName method token nonce call store).1 =
      sendSingle services.getAddress contract method nonce call := by
  simp only [sendSideSwap, hbound]

end SideSwap

def sendNftSideSwap (nftCollection : TokenWrapper Signer) (nonce : Nat) (call : MethodCall)
    (store : ContractStore Signer) :
    (Except JsError String × List HandedTransaction) × ContractStore Signer :=
  sendSideSwap services node "ProductionErc721Dvp" "swapWithDvpForEnygma" nftCollection nonce call
    store

def sendEnygmaSideSwap (enygmaToken : TokenWrapper Signer) (nonce : Nat) (call : MethodCall)
    (store : ContractStore Signer) :
    (Except JsError String × List HandedTransaction) × ContractStore Signer :=
  sendSideSwap services node "ProductionEnygmaToken" "swapWithDvpForERC721" enygmaToken nonce call
    store

/-- The loop over the swaps, which numbers from the wallet of the first one's token. -/
def sideSwaps
    (send : TokenWrapper Signer → Nat → MethodCall → ContractStore Signer →
      (Except JsError String × List HandedTransaction) × ContractStore Signer)
    (swaps : List (TokenWrapper Signer × MethodCall)) :
    (CountedSends × ContractStore Signer) × List HandedTransaction :=
  match swaps with
  | [] => ((⟨0, 0, 0⟩, store), [])
  | first :: _ =>
      sendEach
        (fun state swap =>
          let result := send swap.1 state.1.currentNonce swap.2 state.2
          ((state.1.record result.1.1, result.2), result.1.2))
        (⟨startNonce services counts first.1, 0, 0⟩, store) swaps

def DvpSwapOnly.nftSends (swaps : List (TokenWrapper Signer × MethodCall)) :
    (CountedSends × ContractStore Signer) × List HandedTransaction :=
  sideSwaps services counts store (sendNftSideSwap services node) swaps

def DvpSwapOnly.enygmaSends (swaps : List (TokenWrapper Signer × MethodCall)) :
    (CountedSends × ContractStore Signer) × List HandedTransaction :=
  sideSwaps services counts store (sendEnygmaSideSwap services node) swaps

end Tests

end RaylsSuite.Performance
