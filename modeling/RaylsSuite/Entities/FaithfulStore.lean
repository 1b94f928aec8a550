import RaylsSuite.Entities.ContractStore
import RaylsSuite.Foundation.Machine
import RaylsSuite.Foundation.WriteLog

/-! # Whether the contract store is a map

The store is meant to be a map from keys to contracts with three writers. A
trace records the calls of a session with their results, and from it what each
key should read.
-/

namespace RaylsSuite.Entities

open Foundation Common

variable {Signer : Type}

/-- A call of the store, with what the chain makes of a deployment. -/
inductive StoreCall (Signer : Type) where
  | connectAt (factoryName address key : String) (signer : Signer)
  | deploy (key : String) (settled : Except JsError (Contract Signer))
  | set (key : String) (contract : Contract Signer)
  | get (key : String)
  | has (key : String)

inductive StoreResult (Signer : Type) where
  | returned (contract : Contract Signer)
  | threw (err : JsError)
  | done
  | answered (found : Bool)

def StoreResult.ofExcept : Except JsError (Contract Signer) → StoreResult Signer
  | .ok contract => .returned contract
  | .error err => .threw err

/-- What a call with this result has stored, and under which key. -/
def StoreCall.write? : StoreCall Signer → StoreResult Signer → Option (String × Contract Signer)
  | .connectAt _ _ key _, .returned contract => some (key, contract)
  | .deploy key _, .returned contract => some (key, contract)
  | .set key contract, _ => some (key, contract)
  | _, _ => none

/-- A store with the calls that led to it. -/
structure StoreSession (Signer : Type) where
  store : ContractStore Signer
  trace : List (StoreCall Signer × StoreResult Signer)

namespace StoreSession

def start : StoreSession Signer := ⟨ContractStore.new, []⟩

/-- The writes of the calls so far, in order. -/
def writes (session : StoreSession Signer) : List (String × Contract Signer) :=
  session.trace.filterMap fun entry => entry.1.write? entry.2

/-- A call has been made. -/
def record (session : StoreSession Signer) (call : StoreCall Signer)
    (result : StoreResult Signer) (store : ContractStore Signer) : StoreSession Signer :=
  ⟨store, session.trace ++ [(call, result)]⟩

/-- The contract that a `connectAt` returned is the one it was asked for. -/
def BoundAsAsked (entry : StoreCall Signer × StoreResult Signer) : Prop :=
  ∀ factoryName address key signer contract,
    entry = (.connectAt factoryName address key signer, .returned contract) →
      contract = ContractStore.requested factoryName address signer

/-- The store is faithful to the calls so far: `connectAt` returned what it was asked
for, `get` returns what was stored last under its key, and it throws, as `has` is
false, exactly where nothing was stored. -/
structure Faithful (session : StoreSession Signer) : Prop where
  bound : ∀ entry ∈ session.trace, BoundAsAsked entry
  get_eq : ∀ key, session.store.get key =
    match latest session.writes key with
    | some contract => .ok contract
    | none => .error (ContractStore.notFound key)
  has_eq : ∀ key, session.store.has key = (latest session.writes key).isSome

end StoreSession

section Machine

variable [DecidableEq Signer] (artifacts : Artifacts)

def storeStep (session : StoreSession Signer) (call : StoreCall Signer) : StoreSession Signer :=
  match call with
  | .connectAt factoryName address key signer =>
      let (result, store) := session.store.connectAt artifacts factoryName address key signer
      session.record call (.ofExcept result) store
  | .deploy key settled =>
      let (result, store) := session.store.deploy key settled
      session.record call (.ofExcept result) store
  | .set key contract => session.record call .done (session.store.set key contract)
  | .get key => session.record call (.ofExcept (session.store.get key)) session.store
  | .has key => session.record call (.answered (session.store.has key)) session.store

def storeMachine : Machine (StoreSession Signer) (StoreCall Signer) :=
  ⟨fun session call => some (storeStep artifacts session call)⟩

/-- A `connectAt` that hits the cache hits what it asks for, stored under its own key
too; one that misses and connects has a key that the formatting keeps. -/
def StoreCall.Harmless (session : StoreSession Signer) : StoreCall Signer → Prop
  | .connectAt factoryName address key signer =>
      match session.store.hit key signer with
      | some cached =>
          cached = ContractStore.requested factoryName address signer ∧
            session.store.cache key = some cached
      | none => artifacts (formatFactoryName factoryName) = .ok () → formatFactoryName key = key
  | _ => True

end Machine

namespace StoreSession

variable {session : StoreSession Signer}

theorem faithful_iff : session.Faithful ↔
    (∀ entry ∈ session.trace, BoundAsAsked entry) ∧
      Represents session.store.cache session.writes := by
  constructor
  · intro hfaithful
    obtain ⟨hbound, hget, _⟩ := hfaithful
    refine ⟨hbound, fun key => ?_⟩
    have hread := hget key
    simp only [ContractStore.get] at hread
    cases hcached : session.store.cache key <;> cases hlatest : latest session.writes key <;>
      simp_all
  · intro hlaw
    obtain ⟨hbound, hrepresents⟩ := hlaw
    refine ⟨hbound, fun key => ?_, fun key => ?_⟩
    · rw [← hrepresents key, ContractStore.get]
      cases session.store.cache key <;> rfl
    · rw [← hrepresents key, ContractStore.has]

theorem writes_record (call : StoreCall Signer) (result : StoreResult Signer)
    (store : ContractStore Signer) :
    (session.record call result store).writes = session.writes ++ (call.write? result).toList := by
  rw [writes, record, List.filterMap_append, ← writes]
  cases hwrite : call.write? result <;> simp [hwrite]

/-- A further call keeps the store faithful exactly if its own result is right and
the store still represents the writes. -/
theorem record_faithful_iff (hfaithful : session.Faithful) (call : StoreCall Signer)
    (result : StoreResult Signer) (store : ContractStore Signer) :
    (session.record call result store).Faithful ↔ BoundAsAsked (call, result) ∧
      Represents store.cache (session.writes ++ (call.write? result).toList) := by
  rw [faithful_iff, writes_record]
  apply and_congr_left
  intro _
  simp only [record, List.forall_mem_append, List.forall_mem_singleton]
  exact and_iff_right (faithful_iff.mp hfaithful).1

/-- A call that stores nothing and returns no connected contract. -/
theorem record_read (hfaithful : session.Faithful) {call : StoreCall Signer}
    {result : StoreResult Signer} (hbound : BoundAsAsked (call, result))
    (hwrite : call.write? result = none) :
    (session.record call result session.store).Faithful := by
  rw [record_faithful_iff hfaithful, hwrite, Option.toList_none, List.append_nil]
  exact ⟨hbound, (faithful_iff.mp hfaithful).2⟩

/-- A call that stores a contract under its own key. -/
theorem record_write (hfaithful : session.Faithful) {call : StoreCall Signer}
    {result : StoreResult Signer} {key : String} {contract : Contract Signer}
    (hbound : BoundAsAsked (call, result)) (hwrite : call.write? result = some (key, contract)) :
    (session.record call result (session.store.set key contract)).Faithful := by
  rw [record_faithful_iff hfaithful, hwrite, Option.toList_some]
  exact ⟨hbound, (faithful_iff.mp hfaithful).2.write key contract⟩

theorem boundAsAsked_connectAt {factoryName address key : String} {signer : Signer}
    {contract : Contract Signer} :
    BoundAsAsked (.connectAt factoryName address key signer, .returned contract) ↔
      contract = ContractStore.requested factoryName address signer := by
  constructor
  · exact fun hbound => hbound _ _ _ _ _ rfl
  · rintro rfl
    intro _ _ _ _ _ heq
    cases heq
    rfl

end StoreSession

section Law

variable [DecidableEq Signer] (artifacts : Artifacts) {session : StoreSession Signer}

open StoreSession

/-- A `connectAt` keeps a faithful session faithful exactly when it is harmless. -/
theorem connectAt_faithful_iff (hfaithful : session.Faithful) (factoryName address key : String)
    (signer : Signer) :
    (storeStep artifacts session (.connectAt factoryName address key signer)).Faithful ↔
      StoreCall.Harmless artifacts session (.connectAt factoryName address key signer) := by
  have hrepresents := (faithful_iff.mp hfaithful).2
  simp only [storeStep, StoreCall.Harmless]
  cases hhit : session.store.hit key signer with
  | some cached =>
      -- the cached contract is returned, whatever address it was connected at
      rw [ContractStore.connectAt_hit hhit]
      simp only [StoreResult.ofExcept]
      rw [record_faithful_iff hfaithful, boundAsAsked_connectAt]
      exact and_congr_right fun _ => hrepresents.unchanged_iff key cached
  | none =>
      rw [ContractStore.connectAt_miss hhit]
      cases hartifact : artifacts (formatFactoryName factoryName) with
      | error err =>
          rw [ContractStore.connect_error hartifact]
          simp only [StoreResult.ofExcept]
          rw [record_faithful_iff hfaithful]
          have hbound : BoundAsAsked (.connectAt factoryName address key signer, .threw err) :=
            fun _ _ _ _ _ heq => by cases heq
          refine iff_of_true ⟨hbound, ?_⟩ fun hfound => by cases hfound
          simpa [StoreCall.write?] using hrepresents
      | ok found =>
          rw [ContractStore.connect_ok hartifact]
          simp only [StoreResult.ofExcept]
          rw [record_faithful_iff hfaithful, boundAsAsked_connectAt]
          -- had the store held this contract there, the lookup would have hit it
          have hfresh : session.store.cache (formatFactoryName key) ≠
              some (ContractStore.requested factoryName address signer) := by
            intro hcached
            simp [ContractStore.hit, hcached, ContractStore.requested, Option.filter] at hhit
          have hplace := hrepresents.misplaced_iff key (formatFactoryName key)
            (ContractStore.requested factoryName address signer)
          constructor
          · intro hwritten _
            exact (hplace.mp hwritten.2).resolve_right fun hheld => hfresh hheld.1
          · intro hkey
            exact ⟨rfl, hplace.mpr (Or.inl (hkey trivial))⟩

/-- One call keeps the store faithful exactly if it is harmless. -/
theorem storeStep_faithful_iff (hfaithful : session.Faithful) (call : StoreCall Signer) :
    (storeStep artifacts session call).Faithful ↔ StoreCall.Harmless artifacts session call := by
  cases call with
  | connectAt factoryName address key signer =>
      exact connectAt_faithful_iff artifacts hfaithful factoryName address key signer
  | deploy key settled =>
      refine iff_of_true ?_ trivial
      cases settled with
      | error err => exact record_read hfaithful (fun _ _ _ _ _ heq => by cases heq) rfl
      | ok contract => exact record_write hfaithful (fun _ _ _ _ _ heq => by cases heq) rfl
  | set key contract =>
      exact iff_of_true (record_write hfaithful (fun _ _ _ _ _ heq => by cases heq) rfl) trivial
  | get key =>
      refine iff_of_true (record_read hfaithful (fun _ _ _ _ _ heq => by cases heq) ?_) trivial
      cases session.store.get key <;> rfl
  | has key =>
      exact iff_of_true (record_read hfaithful (fun _ _ _ _ _ heq => by cases heq) rfl) trivial

/-- The store is faithful all along a session exactly when every `connectAt` of it is
harmless. -/
theorem always_faithful_iff (calls : List (StoreCall Signer)) :
    (storeMachine artifacts).Always Faithful start calls ↔
      (storeMachine artifacts).Guarded (StoreCall.Harmless artifacts) start calls := by
  refine Machine.always_iff_guarded ?_ ?_ calls
  · intro session call next hfaithful hstep
    obtain rfl := Option.some.inj hstep
    exact storeStep_faithful_iff artifacts hfaithful call
  · exact faithful_iff.mpr ⟨fun _ hmem => absurd hmem List.not_mem_nil, represents_nil⟩

/-- A second `connectAt` for another address under the same key and signer. -/
def reconnected : List (StoreCall String) :=
  [.connectAt "ERC20" "0xa11ce" "TokenA" "user", .connectAt "ERC20" "0xb0b" "TokenA" "user"]

theorem not_always_faithful_reconnected :
    ¬(storeMachine fun _ => .ok ()).Always Faithful start reconnected := by
  intro halways
  have hlast := (halways.2 _ rfl).2 _ rfl
  have hbound := hlast.bound _ (List.getLast_mem (by decide)) _ _ _ _ _ rfl
  exact absurd hbound (by decide)

end Law

end RaylsSuite.Entities
