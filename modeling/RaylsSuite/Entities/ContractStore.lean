import Mathlib.Logic.Function.Basic
import RaylsSuite.Common.BlockChainExceptions
import RaylsSuite.Common.Formatters

/-! # The contract store

A store caches contracts by key. A contract is known by the interface, address
and runner it is bound to; a runner is compared by identity.
-/

namespace RaylsSuite.Entities

open Common

structure Contract (Signer : Type) where
  interface : String
  address : String
  runner : Option Signer
deriving DecidableEq, Repr

structure ContractStore (Signer : Type) where
  cache : String → Option (Contract Signer)

/-- Whether Hardhat finds the artifact of a contract name. -/
abbrev Artifacts : Type := String → Except JsError Unit

variable {Signer : Type}

/-- `hre.ethers.getContractAt`. -/
def getContractAt (artifacts : Artifacts) (name address : String) (signer : Signer) :
    Except JsError (Contract Signer) :=
  match artifacts name with
  | .error err => .error err
  | .ok () => .ok ⟨name, address, some signer⟩

namespace ContractStore

variable (store : ContractStore Signer)

def new : ContractStore Signer := ⟨fun _ => none⟩

def set (key : String) (contract : Contract Signer) : ContractStore Signer :=
  ⟨Function.update store.cache key (some contract)⟩

/-- `connectAt` past its cache hit. -/
def connect (artifacts : Artifacts) (factoryName address formattedKey : String)
    (signer : Signer) : Except JsError (Contract Signer) × ContractStore Signer :=
  match getContractAt artifacts (formatFactoryName factoryName) address signer with
  | .error err => (.error err, store)
  | .ok contract => (.ok contract, store.set formattedKey contract)

def connectAt [DecidableEq Signer] (artifacts : Artifacts) (factoryName address key : String)
    (signer : Signer) : Except JsError (Contract Signer) × ContractStore Signer :=
  let formattedKey := formatFactoryName key
  match store.cache formattedKey with
  | some cached =>
      if cached.runner = some signer then (.ok cached, store)
      else store.connect artifacts factoryName address formattedKey signer
  | none => store.connect artifacts factoryName address formattedKey signer

/-- `settled` is how the retried deployment settles. -/
def deploy (key : String) (settled : Except JsError (Contract Signer)) :
    Except JsError (Contract Signer) × ContractStore Signer :=
  match settled with
  | .error err => (.error err, store)
  | .ok instance' => (.ok instance', store.set key instance')

def notFound (key : String) : JsError := JsError.new s!"Contract \"{key}\" not found"

def get (key : String) : Except JsError (Contract Signer) :=
  match store.cache key with
  | none => .error (notFound key)
  | some contract => .ok contract

def has (key : String) : Bool := (store.cache key).isSome

/-! ## What `connectAt` does -/

variable [DecidableEq Signer] (artifacts : Artifacts) (factoryName address key : String)
  (signer : Signer)

/-- The contract that a call finds in the cache. -/
def hit : Option (Contract Signer) :=
  (store.cache (formatFactoryName key)).filter fun cached => cached.runner = some signer

/-- The contract that a call asks for. -/
def requested : Contract Signer := ⟨formatFactoryName factoryName, address, some signer⟩

variable {store artifacts factoryName address key signer}

theorem connectAt_hit {cached : Contract Signer} (hhit : store.hit key signer = some cached) :
    store.connectAt artifacts factoryName address key signer = (.ok cached, store) := by
  obtain ⟨hcached, hrunner⟩ := Option.filter_eq_some_iff.mp hhit
  rw [decide_eq_true_eq] at hrunner
  simp only [connectAt, hcached, hrunner, if_true]

/-- On a miss `connectAt` connects anew, under the formatted name. -/
theorem connectAt_miss (hmiss : store.hit key signer = none) :
    store.connectAt artifacts factoryName address key signer =
      store.connect artifacts factoryName address (formatFactoryName key) signer := by
  cases hcached : store.cache (formatFactoryName key) with
  | none => simp only [connectAt, hcached]
  | some cached =>
      have hrunner : ¬cached.runner = some signer := by
        simpa [hit, hcached, Option.filter] using hmiss
      simp only [connectAt, hcached, if_neg hrunner]

omit [DecidableEq Signer] in
theorem connect_ok (hartifact : artifacts (formatFactoryName factoryName) = .ok ())
    (formattedKey : String) :
    store.connect artifacts factoryName address formattedKey signer =
      (.ok (requested factoryName address signer),
        store.set formattedKey (requested factoryName address signer)) := by
  simp only [connect, getContractAt, hartifact]
  rfl

omit [DecidableEq Signer] in
theorem connect_error {err : JsError} (hartifact : artifacts (formatFactoryName factoryName) = .error err)
    (formattedKey : String) :
    store.connect artifacts factoryName address formattedKey signer = (.error err, store) := by
  simp only [connect, getContractAt, hartifact]

/-- A contract is bound to the signer that the call names, whatever the cache holds. -/
theorem connectAt_runner {contract : Contract Signer}
    (hbound : (store.connectAt artifacts factoryName address key signer).1 = .ok contract) :
    contract.runner = some signer := by
  cases hhit : store.hit key signer with
  | some cached =>
      rw [connectAt_hit hhit] at hbound
      obtain ⟨-, hrunner⟩ := Option.filter_eq_some_iff.mp hhit
      rw [decide_eq_true_eq] at hrunner
      exact (Except.ok.inj hbound) ▸ hrunner
  | none =>
      rw [connectAt_miss hhit] at hbound
      cases hartifact : artifacts (formatFactoryName factoryName) with
      | error err =>
          rw [connect_error hartifact] at hbound
          cases hbound
      | ok _ =>
          rw [connect_ok hartifact] at hbound
          exact (Except.ok.inj hbound) ▸ rfl

/-- With its artifact a contract can always be bound. -/
theorem connectAt_isOk (hartifact : artifacts (formatFactoryName factoryName) = .ok ()) :
    ∃ contract, (store.connectAt artifacts factoryName address key signer).1 = .ok contract := by
  cases hhit : store.hit key signer with
  | some cached => exact ⟨cached, by rw [connectAt_hit hhit]⟩
  | none => exact ⟨_, by rw [connectAt_miss hhit, connect_ok hartifact]⟩

/-- Without its artifact no contract enters the cache. -/
theorem connectAt_store_of_error {err : JsError}
    (hartifact : artifacts (formatFactoryName factoryName) = .error err) :
    (store.connectAt artifacts factoryName address key signer).2 = store := by
  cases hhit : store.hit key signer with
  | some cached => rw [connectAt_hit hhit]
  | none => rw [connectAt_miss hhit, connect_error hartifact]

end ContractStore

end RaylsSuite.Entities
