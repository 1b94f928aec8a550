import RaylsSuite.Common.Conversation
import RaylsSuite.Common.Formatters
import RaylsSuite.Common.JsVal

/-! # Freezing tokens on a layer of a node

A node's registry freezes a token on the layer of the node itself or on that of
the public chain. To unfreeze a token that is not frozen reverts, so the clean-up
after a test reads each token's status before it unfreezes it, and goes on
with the next token when one fails.
-/

namespace RaylsSuite.TestUtils

open Common Foundation Foundation.Dialogue

/-- A layer on which a registry freezes tokens. -/
structure FreezeLayer where
  /-- The status that stands for frozen. -/
  frozen : Nat
  submitting : String
  statusName : String
deriving DecidableEq, Repr

def PN_STATUS_FROZEN : Nat := 4

def PUBLIC_CHAIN_STATUS_FROZEN : Nat := 3

def privacyNodeLayer : FreezeLayer := ⟨PN_STATUS_FROZEN, "PN", "privacyNodeStatus"⟩

def publicChainLayer : FreezeLayer := ⟨PUBLIC_CHAIN_STATUS_FROZEN, "Public", "publicChainStatus"⟩

/-- A registry's functions for one layer. -/
structure LayerRegistry (σ : Type) where
  getStatus : String → Async σ JsError Nat
  freeze : String → Async σ JsError Response
  unfreeze : String → Async σ JsError Response

inductive FreezeEvent where
  | getStatus (tokenAddress : String) (answer : Except JsError Nat)
  | freeze (tokenAddress : String) (answer : Except JsError Response)
  | unfreeze (tokenAddress : String) (answer : Except JsError Response)
  /-- The clean-up printed that a token failed. -/
  | failed (tokenAddress : String) (err : JsError)

variable {σ : Type}

/-- A program in dialogue with a registry. -/
abbrev Freezer (σ : Type) := Async (Dialogue σ FreezeEvent) JsError Unit

section Helpers

variable [Host σ] (PARALLEL_WORKERS : Option String) (layer : FreezeLayer)
  (registry : LayerRegistry σ)

/-- The wait for a status that satisfies the condition. -/
def statusOptions (tokenAddress : String) (condition : Nat → Bool) :
    PollOptions (Dialogue σ FreezeEvent) JsError Bool where
  check := ask (.getStatus tokenAddress) (registry.getStatus tokenAddress)
    fun status => .ok (condition status)
  tolerateErrors := true

/-- A transaction on a token's status, and the wait for the status that it leads to. -/
def submitAndAwait (event : String → Except JsError Response → FreezeEvent)
    (serve : String → Async σ JsError Response) (condition : Nat → Bool)
    (submitting awaited : String) (tokenAddress : String) : Freezer σ :=
  andThen (submitTx (ask (event tokenAddress) (serve tokenAddress) .ok)
      s!"{submitting} {shortHex tokenAddress}")
    fun _ => andThen (eventually PARALLEL_WORKERS (statusOptions registry tokenAddress condition)
        s!"Waiting for {shortHex tokenAddress} {awaited}")
      fun _ => returns ()

def freezeOnLayer : String → Freezer σ :=
  submitAndAwait PARALLEL_WORKERS registry .freeze registry.freeze
    (fun status => status = layer.frozen) s!"{layer.submitting}-freezing"
    s!"{layer.statusName} → FROZEN"

def unfreezeOnLayer : String → Freezer σ :=
  submitAndAwait PARALLEL_WORKERS registry .unfreeze registry.unfreeze
    (fun status => status ≠ layer.frozen) s!"{layer.submitting}-unfreezing"
    s!"{layer.statusName} → not FROZEN"

/-- The body of the clean-up's `try`. -/
def unfreezeIfFrozen (tokenAddress : String) : Freezer σ :=
  andThen (ask (.getStatus tokenAddress) (registry.getStatus tokenAddress) .ok) fun status =>
    if status = layer.frozen then unfreezeOnLayer PARALLEL_WORKERS layer registry tokenAddress
    else returns ()

def cleanupFrozen (tokenAddresses : List String) : Freezer σ :=
  forEach tokenAddresses fun tokenAddress =>
    caught (unfreezeIfFrozen PARALLEL_WORKERS layer registry tokenAddress) (.failed tokenAddress)

def freezeOnPn : String → Freezer σ := freezeOnLayer PARALLEL_WORKERS privacyNodeLayer registry

def unfreezeOnPn : String → Freezer σ := unfreezeOnLayer PARALLEL_WORKERS privacyNodeLayer registry

def cleanupPnFrozenTokens : List String → Freezer σ :=
  cleanupFrozen PARALLEL_WORKERS privacyNodeLayer registry

def freezeOnPublicChain : String → Freezer σ :=
  freezeOnLayer PARALLEL_WORKERS publicChainLayer registry

def unfreezeOnPublicChain : String → Freezer σ :=
  unfreezeOnLayer PARALLEL_WORKERS publicChainLayer registry

def cleanupPublicFrozenTokens : List String → Freezer σ :=
  cleanupFrozen PARALLEL_WORKERS publicChainLayer registry

end Helpers

/-! ## What the helpers say -/

/-- What is said to change a token's status: the transactions that were sent, and the statuses
that were read while it was not yet the awaited one. -/
def Changing (event : String → Except JsError Response → FreezeEvent) (condition : Nat → Bool)
    (tokenAddress : String) (said : List FreezeEvent) : Prop :=
  ∃ (sent : List (Except JsError Response)) (reads : List (Except JsError Nat)),
    (∀ status, .ok status ∈ reads → condition status = false) ∧
    said = sent.map (event tokenAddress) ++ reads.map (.getStatus tokenAddress)

/-- How a change of the status ends: with an error, or with the awaited status read after a
transaction that was sent. -/
inductive Changed (event : String → Except JsError Response → FreezeEvent) (condition : Nat → Bool)
    (tokenAddress : String) : Law FreezeEvent JsError Unit where
  | threw {err : JsError} {said : List FreezeEvent} : Changing event condition tokenAddress said →
      Changed event condition tokenAddress (.error err) said
  | done {status : Nat} {said : List FreezeEvent} : condition status = true →
      Changing event condition tokenAddress said →
      (∃ response, event tokenAddress (.ok response) ∈ said) →
      Changed event condition tokenAddress (.ok ())
        (said ++ [.getStatus tokenAddress (.ok status)])

def Unfreezing (layer : FreezeLayer) : String → List FreezeEvent → Prop :=
  Changing .unfreeze fun status => status ≠ layer.frozen

/-- What the clean-up says about one token. -/
inductive Cleaned (layer : FreezeLayer) (tokenAddress : String) : List FreezeEvent → Prop where
  /-- A token that is not frozen is left alone. -/
  | idle {status : Nat} : status ≠ layer.frozen →
      Cleaned layer tokenAddress [.getStatus tokenAddress (.ok status)]
  | unfrozen {status : Nat} {said : List FreezeEvent} : status ≠ layer.frozen →
      Unfreezing layer tokenAddress said →
      (∃ response, .unfreeze tokenAddress (.ok response) ∈ said) →
      Cleaned layer tokenAddress (.getStatus tokenAddress (.ok layer.frozen) :: said ++
        [.getStatus tokenAddress (.ok status)])
  | unread {err : JsError} :
      Cleaned layer tokenAddress [.getStatus tokenAddress (.error err), .failed tokenAddress err]
  | kept {err : JsError} {said : List FreezeEvent} : Unfreezing layer tokenAddress said →
      Cleaned layer tokenAddress (.getStatus tokenAddress (.ok layer.frozen) :: said ++
        [.failed tokenAddress err])

section Law

variable [Host σ] {PARALLEL_WORKERS : Option String} {layer : FreezeLayer}
  {registry : LayerRegistry σ} {tokenAddress : String}

/-- The law of the wait for a status. -/
theorem awaitStatus_obeys (condition : Nat → Bool) (message : String) :
    Obeys (andThen (eventually PARALLEL_WORKERS (statusOptions registry tokenAddress condition)
        message) fun _ => returns ()) fun outcome said => ∃ reads : List (Except JsError Nat),
      (∀ status, .ok status ∈ reads → condition status = false) ∧
        ((∃ err, outcome = .error err) ∧ said = reads.map (.getStatus tokenAddress) ∨
          outcome = .ok () ∧ ∃ status, condition status = true ∧ said =
            reads.map (.getStatus tokenAddress) ++ [.getStatus tokenAddress (.ok status)]) := by
  refine ((obeys_eventually PARALLEL_WORKERS (statusOptions registry tokenAddress condition) rfl
    message).andThen fun _ => obeys_returns ()).imp ?_
  have hunmet : ∀ reads : List (Except JsError Nat), (∀ answer ∈ reads,
      (statusOptions registry tokenAddress condition).Undecided
        (answer.bind fun status => .ok (condition status))) →
      ∀ status, .ok status ∈ reads → condition status = false :=
    fun reads hundecided status hmem => hundecided _ hmem
  intro outcome said hlaw
  cases hlaw with
  | failed hasked =>
      cases hasked with
      | rejected _ _ _ htolerated => cases htolerated
      | exhausted _ hundecided => exact ⟨_, hunmet _ hundecided, .inl ⟨⟨_, rfl⟩, rfl⟩⟩
  | went hasked hsilent =>
      obtain ⟨rfl, rfl⟩ := hsilent
      cases hasked with
      | @resolved undecided last value _ hundecided hlast htruthy =>
          refine ⟨undecided, hunmet _ hundecided, .inr ⟨rfl, ?_⟩⟩
          cases last with
          | error err => cases hlast
          | ok status =>
              obtain rfl := Except.ok.inj hlast
              exact ⟨status, htruthy, by simp⟩

theorem submitAndAwait_obeys (event : String → Except JsError Response → FreezeEvent)
    (serve : String → Async σ JsError Response) (condition : Nat → Bool)
    (submitting awaited tokenAddress : String) :
    Obeys (submitAndAwait PARALLEL_WORKERS registry event serve condition submitting awaited
      tokenAddress) (Changed event condition tokenAddress) := by
  refine ((obeys_submitTx _).andThen fun _ => awaitStatus_obeys condition _).imp ?_
  intro outcome said hlaw
  cases hlaw with
  | failed hsubmitted =>
      obtain ⟨sent, rfl, _⟩ := hsubmitted
      exact .threw ⟨sent, [], fun _ hmem => absurd hmem List.not_mem_nil, by simp⟩
  | @went receipt _ _ _ hsubmitted hawaited =>
      obtain ⟨sent, rfl, hlast⟩ := hsubmitted
      obtain ⟨before, response, rfl, _⟩ := hlast receipt rfl
      obtain ⟨reads, hreads, ⟨⟨err, rfl⟩, rfl⟩ | ⟨rfl, status, hstatus, rfl⟩⟩ := hawaited
      · exact .threw ⟨_, reads, hreads, rfl⟩
      · rw [← List.append_assoc]
        exact .done hstatus ⟨_, reads, hreads, rfl⟩ ⟨response, by simp⟩

/-- A token that a helper froze was read as frozen after a transaction was sent for it. -/
theorem freezeOnLayer_obeys (tokenAddress : String) :
    Obeys (freezeOnLayer PARALLEL_WORKERS layer registry tokenAddress)
      (Changed .freeze (fun status => status = layer.frozen) tokenAddress) :=
  submitAndAwait_obeys _ _ _ _ _ _

/-- A step of the clean-up never throws, and cleans its token as far as the registry lets it. -/
theorem cleanupStep_obeys (tokenAddress : String) :
    Obeys (caught (unfreezeIfFrozen PARALLEL_WORKERS layer registry tokenAddress)
      (.failed tokenAddress)) fun outcome said =>
        outcome = .ok () ∧ Cleaned layer tokenAddress said := by
  have hnext : ∀ status : Nat, Obeys
      (if status = layer.frozen then unfreezeOnLayer PARALLEL_WORKERS layer registry tokenAddress
        else returns ()) (if status = layer.frozen then
          Changed .unfreeze (fun status => status ≠ layer.frozen) tokenAddress
          else Law.silent ()) := by
    intro status
    split
    next => exact submitAndAwait_obeys _ _ _ _ _ _
    next => exact obeys_returns ()
  refine (((obeys_ask _ _ _).andThen hnext).caught _).imp ?_
  intro outcome said hlaw
  cases hlaw with
  | went hbody =>
      refine ⟨rfl, ?_⟩
      cases hbody with
      | went hread hrest =>
          obtain ⟨answer, rfl, hanswer⟩ := hread
          rw [bind_ok] at hanswer
          subst hanswer
          split at hrest
          next hfrozen =>
            subst hfrozen
            cases hrest with
            | done hstatus hbefore hsent =>
                exact .unfrozen (of_decide_eq_true hstatus) hbefore hsent
          next hother =>
            rw [hrest.2]
            exact .idle hother
  | failed hbody =>
      refine ⟨rfl, ?_⟩
      cases hbody with
      | failed hread =>
          obtain ⟨answer, rfl, hanswer⟩ := hread
          rw [bind_ok] at hanswer
          subst hanswer
          exact .unread
      | went hread hrest =>
          obtain ⟨answer, rfl, hanswer⟩ := hread
          rw [bind_ok] at hanswer
          subst hanswer
          split at hrest
          next hfrozen =>
            subst hfrozen
            cases hrest with
            | threw hkept => exact .kept hkept
          next => cases hrest.1

/-- Each token has its part, in order. -/
def CleanedAll (layer : FreezeLayer) (tokenAddresses : List String) :
    Law FreezeEvent JsError Unit := fun outcome said =>
  outcome = .ok () ∧ ∃ parts : List (List FreezeEvent),
    List.Forall₂ (Cleaned layer) tokenAddresses parts ∧ said = parts.flatten

/-- Whatever the registry does, the clean-ups treat each token in turn and never throw: only a
token that was just read as frozen is unfrozen, and one for which no failure is printed was
last read as not frozen. -/
theorem cleanups_cleaned (PARALLEL_WORKERS : Option String) (registry : LayerRegistry σ)
    (tokenAddresses : List String) :
    Obeys (cleanupPnFrozenTokens PARALLEL_WORKERS registry tokenAddresses)
        (CleanedAll privacyNodeLayer tokenAddresses) ∧
      Obeys (cleanupPublicFrozenTokens PARALLEL_WORKERS registry tokenAddresses)
        (CleanedAll publicChainLayer tokenAddresses) :=
  ⟨Obeys.forEach cleanupStep_obeys tokenAddresses, Obeys.forEach cleanupStep_obeys tokenAddresses⟩

end Law

end RaylsSuite.TestUtils
