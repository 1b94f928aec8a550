import Mathlib.Algebra.Ring.Nat
import RaylsSuite.Common.Formatters
import RaylsSuite.Common.Poll
import RaylsSuite.Foundation.Settlement

/-! # Verifying the balances of several destinations

`verifyDestinationBalances` starts one verification for each destination, waits
for all of them, and names those that failed in one line of the log. It filters
the failures first and then takes the keys by position, so a failure bears the
key of the destination that stands where the failure does among the failures.
-/

namespace RaylsSuite.TestUtils

open Config Foundation Common

/-! ## One destination -/

def POLL_INTERVAL : Nat := 1000

def EXTENDED_POLL_TIMEOUT (PARALLEL_WORKERS : Option String) : Nat :=
  DEFAULT_TIMEOUT PARALLEL_WORKERS * 2 / SECOND

structure VerifiedToken where
  symbol : String
  resourceId : String

/-- A node as a verification sees it. `tokenAddress` is the token's entry for the node's
chain, where an empty one counts as none. -/
structure DestinationNode (σ : Type) where
  chainId : String
  tokenAddress : σ → Option String
  setTokenAddress : String → σ → σ
  getAddressByResourceId : String → Async σ JsError String
  getContractAt : String → Async σ JsError Unit
  balanceOf : String → String → Async σ JsError Int

section Destination

variable {σ : Type} [Host σ] (PARALLEL_WORKERS : Option String) (node : DestinationNode σ)
  (nodeKey : String) (token : VerifiedToken)

/-- The check that waits for the token: it keeps the address that it finds. -/
def deploymentCheck : Async σ JsError Bool := fun world =>
  match node.getAddressByResourceId token.resourceId world with
  | (.error err, world) => (.error err, world)
  | (.ok address, world) =>
      if address = ZERO_ADDRESS then (.ok false, world)
      else (.ok true, node.setTokenAddress address world)

def waitForTokenDeployment : Async σ JsError String := fun world =>
  if Text.orElse (node.tokenAddress world) "" = "" then
    let message := s!"Waiting for token {token.symbol} deployed on {nodeKey} " ++
      s!"(chain={node.chainId}, rid={shortHex token.resourceId})"
    match eventually PARALLEL_WORKERS
        { check := deploymentCheck node token
          interval := some POLL_INTERVAL
          attempts := some (EXTENDED_POLL_TIMEOUT PARALLEL_WORKERS) } message world with
    | (.error err, world) => (.error err, world)
    | (.ok _, world) => (.ok ((node.tokenAddress world).getD ""), world)
  else (.ok ((node.tokenAddress world).getD ""), world)

/-- The check of the balance; an error of the node counts as not there yet. -/
def balanceCheck (tokenAddress receiverAddress : String) (expectedAmount : Int) :
    Async σ JsError Bool := fun world =>
  match node.balanceOf tokenAddress receiverAddress world with
  | (.error _, world) => (.ok false, world)
  | (.ok balance, world) => (.ok (balance == expectedAmount), world)

/-- The verification of one destination; the catch block logs and throws again. -/
def verifyDestination (receiverAddress : String) (expectedAmount : Int) (testType : String) :
    Async σ JsError Bool := fun world =>
  match waitForTokenDeployment PARALLEL_WORKERS node nodeKey token world with
  | (.error err, world) => (.error err, world)
  | (.ok tokenAddress, world) =>
      match node.getContractAt tokenAddress world with
      | (.error err, world) => (.error err, world)
      | (.ok (), world) =>
          let message := s!"Waiting for {nodeKey} balance → {expectedAmount} for " ++
            s!"{shortHex receiverAddress} ({testType})"
          match eventually PARALLEL_WORKERS
              { check := balanceCheck node tokenAddress receiverAddress expectedAmount
                interval := some POLL_INTERVAL
                attempts := some (EXTENDED_POLL_TIMEOUT PARALLEL_WORKERS) } message world with
          | (.error err, world) => (.error err, world)
          | (.ok _, world) => (.ok true, world)

/-- A verification that is not rejected has seen the balance. -/
theorem verifyDestination_ok {receiverAddress testType : String} {expectedAmount : Int}
    {world next : σ} {verified : Bool}
    (hverified : verifyDestination PARALLEL_WORKERS node nodeKey token receiverAddress
      expectedAmount testType world = (.ok verified, next)) : verified = true := by
  unfold verifyDestination at hverified
  split at hverified
  next => cases hverified
  next =>
    split at hverified
    next => cases hverified
    next =>
      dsimp only at hverified
      split at hverified
      next => cases hverified
      next => exact (Except.ok.inj (Prod.mk.inj hverified).1).symm

end Destination

/-- The verifications that `verifyDestinationBalances` starts, each in the world in which it
runs. -/
structure Verifications (σ : Type) where
  node : Nat → DestinationNode σ
  destinationKey : Nat → String
  receiverAddress : Nat → String
  expectedAmount : Nat → Int
  token : VerifiedToken
  testType : String
  world : Nat → σ

/-- What they settle with, by destination. -/
def Verifications.outcome {σ : Type} [Host σ] (PARALLEL_WORKERS : Option String)
    (verifications : Verifications σ) (destination : Nat) : Except JsError Bool :=
  (verifyDestination PARALLEL_WORKERS (verifications.node destination)
    (verifications.destinationKey destination) verifications.token
    (verifications.receiverAddress destination) (verifications.expectedAmount destination)
    verifications.testType (verifications.world destination)).1

/-! ## All destinations -/

section Summary

variable {Reason : Type}

/-- The reason of a verification that was rejected. -/
def rejection : Except Reason Bool → Option Reason
  | .error reason => some reason
  | .ok _ => none

/-- The entries of the summary, a key and a reason each. -/
def failureEntries (destinationKeys : List String) (results : List (Except Reason Bool)) :
    List (Option String × Reason) :=
  (results.filterMap rejection).zipIdx.map fun failure =>
    (destinationKeys[failure.2]?, failure.1)

def failureLine (describe : Reason → String) (entry : Option String × Reason) : String :=
  entry.1.getD "undefined" ++ ": " ++ describe entry.2

/-- How the call ends, with the entries of the line that it logs. -/
structure BalanceVerdict (Reason : Type) where
  outcome : Except JsError Unit
  entries : List (Option String × Reason)

/-- `Verification failures: ...`. -/
def BalanceVerdict.summary (verdict : BalanceVerdict Reason) (describe : Reason → String) :
    String :=
  "Verification failures: " ++ ", ".intercalate (verdict.entries.map (failureLine describe))

/-- What `verifyDestinationBalances` does with the results of its verifications. -/
def verifyDestinationBalances (destinationKeys : List String)
    (results : List (Except Reason Bool)) : BalanceVerdict Reason :=
  let failures := results.filterMap rejection
  if failures.length > 0 then
    ⟨.error (JsError.new s!"{failures.length} destination(s) failed verification"),
      failureEntries destinationKeys results⟩
  else ⟨.ok (), []⟩

/-! ## What the summary says -/

/-- The destination's verification was rejected. -/
def Fails (outcome : Nat → Except Reason Bool) (destination : Nat) : Prop :=
  (rejection (outcome destination)).isSome = true

instance (outcome : Nat → Except Reason Bool) : DecidablePred (Fails outcome) := fun _ =>
  inferInstanceAs (Decidable (_ = true))

/-- The call resolves exactly if no verification failed, and otherwise names the failed
destinations, each with its own reason. -/
structure Attributed (destinationKeys : List String) (outcome : Nat → Except Reason Bool)
    (count : Nat) (verdict : BalanceVerdict Reason) : Prop where
  resolves : verdict.outcome = .ok () ↔ ∀ destination < count, ¬Fails outcome destination
  entries : verdict.entries = (List.range count).filterMap fun destination =>
    (rejection (outcome destination)).map fun reason => (destinationKeys[destination]?, reason)

/-- How many of the destinations before this one fail. -/
def failuresBefore (outcome : Nat → Except Reason Bool) (destination : Nat) : Nat :=
  (List.range destination).countP fun earlier => decide (Fails outcome earlier)

/-- The key that stands where the destination does among those that fail is its own key. -/
def LabelsAgree (destinationKeys : List String) (outcome : Nat → Except Reason Bool)
    (count : Nat) : Prop :=
  ∀ destination < count, Fails outcome destination →
    destinationKeys[failuresBefore outcome destination]? = destinationKeys[destination]?

variable {destinationKeys : List String} {outcome : Nat → Except Reason Bool} {count : Nat}

theorem failuresBefore_succ (outcome : Nat → Except Reason Bool) (destination : Nat) :
    failuresBefore outcome (destination + 1) =
      failuresBefore outcome destination + if Fails outcome destination then 1 else 0 := by
  rw [failuresBefore, List.range_succ, List.countP_append, List.countP_singleton]
  simp only [decide_eq_true_eq]
  rfl

theorem filterMap_rejection_length (outcome : Nat → Except Reason Bool) (count : Nat) :
    ((List.range count).filterMap fun destination => rejection (outcome destination)).length =
      failuresBefore outcome count := by
  induction count with
  | zero => rfl
  | succ count ih =>
      rw [List.range_succ, List.filterMap_append, List.length_append, ih, failuresBefore_succ]
      cases hreason : rejection (outcome count) with
      | none => simp [Fails, hreason]
      | some reason => simp [Fails, hreason]

/-- A failure stands behind as many others as failed before its destination. -/
theorem zipIdx_rejections (outcome : Nat → Except Reason Bool) (count : Nat) :
    ((List.range count).filterMap fun destination => rejection (outcome destination)).zipIdx =
      (List.range count).filterMap fun destination => (rejection (outcome destination)).map
        fun reason => (reason, failuresBefore outcome destination) := by
  induction count with
  | zero => rfl
  | succ count ih =>
      rw [List.range_succ, List.filterMap_append, List.filterMap_append, List.zipIdx_append, ih,
        filterMap_rejection_length, Nat.zero_add]
      cases hreason : rejection (outcome count) with
      | none => simp [hreason]
      | some reason => simp [hreason]

theorem failureEntries_range (destinationKeys : List String) (outcome : Nat → Except Reason Bool)
    (count : Nat) : failureEntries destinationKeys ((List.range count).map outcome) =
      (List.range count).filterMap fun destination => (rejection (outcome destination)).map
        fun reason => (destinationKeys[failuresBefore outcome destination]?, reason) := by
  rw [failureEntries, List.filterMap_map, Function.comp_def, zipIdx_rejections, List.map_filterMap]
  refine List.filterMap_congr fun destination _ => ?_
  rw [Option.map_map]
  rfl

/-- Two lists of what is left of the same elements agree where the elements do. -/
theorem filterMap_eq_iff {α β : Type} {first second : α → Option β} {list : List α}
    (hsome : ∀ a ∈ list, (first a).isSome = (second a).isSome) :
    list.filterMap first = list.filterMap second ↔ ∀ a ∈ list, first a = second a := by
  induction list with
  | nil => simp
  | cons a rest ih =>
      obtain ⟨hhead, htail⟩ := List.forall_mem_cons.mp hsome
      rw [List.forall_mem_cons, ← ih htail]
      cases hfirst : first a with
      | none =>
          have hsecond : second a = none := by simpa [hfirst] using hhead
          simp [hfirst, hsecond]
      | some b =>
          obtain ⟨c, hsecond⟩ := Option.isSome_iff_exists.mp (hhead.symm.trans (by simp [hfirst]))
          simp [hfirst, hsecond]

/-- The entries are right exactly if the labels agree. -/
theorem failureEntries_eq_iff : failureEntries destinationKeys ((List.range count).map outcome) =
      ((List.range count).filterMap fun destination => (rejection (outcome destination)).map
        fun reason => (destinationKeys[destination]?, reason)) ↔
    LabelsAgree destinationKeys outcome count := by
  rw [failureEntries_range, filterMap_eq_iff fun destination _ => by simp]
  simp only [List.mem_range, LabelsAgree, Fails]
  refine forall₂_congr fun destination _ => ?_
  cases rejection (outcome destination) <;> simp

theorem rejections_eq_nil_iff :
    ((List.range count).map outcome).filterMap rejection = [] ↔
      ∀ destination < count, ¬Fails outcome destination := by
  simp [List.filterMap_eq_nil_iff, Fails]

/-- The verification passes exactly when no destination was rejected. -/
theorem verifyDestinationBalances_outcome (destinationKeys : List String)
    (results : List (Except Reason Bool)) :
    (verifyDestinationBalances destinationKeys results).outcome = .ok () ↔
      results.filterMap rejection = [] := by
  rw [verifyDestinationBalances]
  split
  next hfailed =>
    refine iff_of_false ?_ (List.length_pos_iff.mp hfailed)
    intro hresolved
    cases hresolved
  next hnone => exact iff_of_true rfl (List.length_eq_zero_iff.mp (Nat.eq_zero_of_not_pos hnone))

/-- The failures are attributed rightly exactly when the labels agree. -/
theorem attributed_iff : Attributed destinationKeys outcome count
      (verifyDestinationBalances destinationKeys ((List.range count).map outcome)) ↔
    LabelsAgree destinationKeys outcome count := by
  have hresolves := (verifyDestinationBalances_outcome destinationKeys
    ((List.range count).map outcome)).trans rejections_eq_nil_iff
  have hentries : (verifyDestinationBalances destinationKeys
      ((List.range count).map outcome)).entries =
      failureEntries destinationKeys ((List.range count).map outcome) := by
    rw [verifyDestinationBalances]
    split
    next => rfl
    next hnone =>
      rw [failureEntries, List.length_eq_zero_iff.mp (Nat.eq_zero_of_not_pos hnone)]
      rfl
  rw [← failureEntries_eq_iff, ← hentries]
  exact ⟨Attributed.entries, fun heq => ⟨hresolves, heq⟩⟩

/-- Where the keys differ, the failures must be the first destinations of the list. -/
theorem labelsAgree_iff_of_nodup (hkeys : destinationKeys.Nodup)
    (hcount : count ≤ destinationKeys.length) : LabelsAgree destinationKeys outcome count ↔
      ∀ destination < count, Fails outcome destination →
        ∀ earlier < destination, Fails outcome earlier := by
  refine forall₃_congr fun destination hlt hfails => ?_
  have hrank : failuresBefore outcome destination ≤ destination := by
    simpa [failuresBefore] using List.countP_le_length (l := List.range destination)
  rw [List.getElem?_eq_getElem (by omega), List.getElem?_eq_getElem (by omega), Option.some.injEq,
    hkeys.getElem_inj_iff]
  have hall := List.countP_eq_length (p := fun earlier => decide (Fails outcome earlier))
    (l := List.range destination)
  simpa [failuresBefore] using hall

/-- For all keys and every assignment of outcomes: in every completion order the call resolves
exactly if all verifications succeed and labels each failure with its destination's key, if and
only if each failing destination has the key that stands at its place among the failures. With
keys that differ, that is to say that the failing destinations are the first of the list. -/
theorem verifyDestinationBalances_attributed_iff (destinationKeys : List String)
    (outcome : Nat → Except Reason Bool) (count : Nat) :
    ((∀ results, Settles outcome count results → Attributed destinationKeys outcome count
        (verifyDestinationBalances destinationKeys results)) ↔
      LabelsAgree destinationKeys outcome count) ∧
    (destinationKeys.Nodup → count ≤ destinationKeys.length →
      ((∀ results, Settles outcome count results → Attributed destinationKeys outcome count
          (verifyDestinationBalances destinationKeys results)) ↔
        ∀ destination < count, Fails outcome destination →
          ∀ earlier < destination, Fails outcome earlier)) := by
  have hlaw : (∀ results, Settles outcome count results → Attributed destinationKeys outcome count
        (verifyDestinationBalances destinationKeys results)) ↔
      LabelsAgree destinationKeys outcome count := by
    rw [← attributed_iff]
    constructor
    · intro hall
      exact hall _ (settles_map outcome count)
    · intro hattributed results hsettles
      rw [hsettles.eq_map]
      exact hattributed
  refine ⟨hlaw, fun hkeys hcount => ?_⟩
  rw [hlaw, labelsAgree_iff_of_nodup hkeys hcount]

/-- The call resolves exactly if every destination's verification has seen its balance. -/
theorem verifyDestinationBalances_verified_iff {σ : Type} [Host σ]
    (PARALLEL_WORKERS : Option String) (verifications : Verifications σ)
    (destinationKeys : List String) {count : Nat} {results : List (Except JsError Bool)}
    (hsettles : Settles (verifications.outcome PARALLEL_WORKERS) count results) :
    (verifyDestinationBalances destinationKeys results).outcome = .ok () ↔
      ∀ destination < count, verifications.outcome PARALLEL_WORKERS destination = .ok true := by
  rw [hsettles.eq_map, verifyDestinationBalances_outcome, rejections_eq_nil_iff]
  refine forall₂_congr fun destination _ => ?_
  rcases hsettled : verifications.outcome PARALLEL_WORKERS destination with reason | verified
  · simp [Fails, rejection, hsettled]
  · obtain rfl : verified = true := verifyDestination_ok _ _ _ _ (Prod.ext hsettled rfl)
    simp [Fails, rejection, hsettled]

/-- The second of two destinations times out, and the log blames the first. -/
theorem not_attributed_second :
    ¬∀ results, Settles (fun destination : Nat =>
        if destination = 1 then Except.error "Timeout" else .ok true) 2 results →
      Attributed ["A", "B"] (fun destination =>
          if destination = 1 then Except.error "Timeout" else .ok true) 2
        (verifyDestinationBalances ["A", "B"] results) := by
  intro hall
  have hentries := (hall _ (settles_map _ 2)).entries
  exact absurd hentries (by decide)

end Summary

end RaylsSuite.TestUtils
