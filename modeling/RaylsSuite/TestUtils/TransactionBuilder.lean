import Mathlib.Data.List.Basic

/-! # Signing calls of a contract method -/

namespace RaylsSuite.TestUtils

/-- A signed transaction, known by what was signed: the call that the contract
populated and the fields that the builder adds. -/
structure RawTransaction (Call : Type) where
  call : Call
  sender : String
  nonce : Nat
  gasPrice : Nat
  gasLimit : Nat
  chainId : Nat
deriving DecidableEq, Repr

structure Overrides where
  gasLimit : Option Nat
  gasPrice : Option Nat
deriving DecidableEq, Repr

/-- The builder's contract populates the calls of arguments that fit its ABI. -/
structure TransactionBuilder (Value Call : Type) where
  chainId : Nat
  address : String
  populateTransaction : String → List Value → Call

namespace TransactionBuilder

variable {Value Call : Type} (builder : TransactionBuilder Value Call)

def sign (method : String) (args : List Value) (nonce : Nat) (overrides : Option Overrides) :
    RawTransaction Call where
  call := builder.populateTransaction method args
  sender := builder.address
  nonce := nonce
  gasPrice := (overrides.bind Overrides.gasPrice).getD 0
  gasLimit := (overrides.bind Overrides.gasLimit).getD 5000000
  chainId := builder.chainId

/-- The loop of `signBatch`, with `txCount` transactions still to sign. -/
def signBatch (txCount : Nat) (method : String) (argsList : List Value) (nonce : Nat)
    (overrides : Option Overrides) : List (RawTransaction Call) :=
  match txCount with
  | 0 => []
  | txCount + 1 =>
      builder.sign method argsList nonce overrides ::
        signBatch txCount method argsList (nonce + 1) overrides

@[simp] theorem signBatch_length (txCount : Nat) (method : String) (argsList : List Value)
    (nonce : Nat) (overrides : Option Overrides) :
    (builder.signBatch txCount method argsList nonce overrides).length = txCount := by
  induction txCount generalizing nonce with
  | zero => rfl
  | succ txCount ih => exact congrArg Nat.succ (ih (nonce + 1))

end TransactionBuilder

end RaylsSuite.TestUtils
