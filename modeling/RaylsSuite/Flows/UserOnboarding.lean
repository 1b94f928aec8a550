import RaylsSuite.Api.TransientBackendError
import RaylsSuite.Common.Conversation
import RaylsSuite.Common.Formatters
import RaylsSuite.Common.JsVal

/-! # Onboarding an address pair

The tests of a node share one user of its backend, whose lists hold the pairs
of all of them. A test adds a pair, finds the user under which the operator sees
it pending, changes its status and waits until the user's own list shows it.
-/

namespace RaylsSuite.Flows

open Api Common Foundation Foundation.Dialogue

namespace OnboardingStatus

def PENDING : Nat := 0
def APPROVED : Nat := 1
def REJECTED : Nat := 2

end OnboardingStatus

/-- An address pair, as it is added and as it is listed. -/
structure OnboardingResponse where
  public_chain_address : String
  private_chain_address : String
  status : Nat
  created_at : String
deriving DecidableEq, Repr

abbrev UserAddressPair := OnboardingResponse

/-- A user's pending pairs. -/
structure PendingUserAddressPairs where
  user_id : String
  address_pairs : List UserAddressPair
deriving DecidableEq, Repr

structure UpdateOnbStatusRequest where
  public_address : String
  private_address : String
  status : Nat
deriving DecidableEq, Repr

/-- The two addresses are the same, case apart. -/
def OnboardingResponse.isPair (pair target : OnboardingResponse) : Bool :=
  Text.toLowerCase pair.public_chain_address = Text.toLowerCase target.public_chain_address ∧
    Text.toLowerCase pair.private_chain_address = Text.toLowerCase target.private_chain_address

def findAddressPair (pairs : List OnboardingResponse) (target : OnboardingResponse) :
    Option OnboardingResponse :=
  pairs.find? fun pair => pair.isPair target

/-- The user under which a pair is listed as pending. -/
def pendingUser (groups : List PendingUserAddressPairs) (pair : OnboardingResponse) :
    Option String :=
  (groups.find? fun group => group.address_pairs.any fun listed => listed.isPair pair).map
    PendingUserAddressPairs.user_id

/-- The pair that the caller sees as approved. -/
def approvedPair (mine : List UserAddressPair) (pair : OnboardingResponse) :
    Option UserAddressPair :=
  (findAddressPair mine pair).filter fun found => found.status = OnboardingStatus.APPROVED

def statusRequest (pair : OnboardingResponse) (newStatus : Nat) : UpdateOnbStatusRequest :=
  ⟨pair.public_chain_address, pair.private_chain_address, newStatus⟩

/-- How the backend serves the requests of the flow. -/
structure OpsApi (σ : Type) where
  addAddressPair : Async σ Failure OnboardingResponse
  listAllPendingAddressPairs : Async σ Failure (List PendingUserAddressPairs)
  approveAddressPair : String → UpdateOnbStatusRequest → Async σ Failure Unit
  listMyAddressPairs : Async σ Failure (List UserAddressPair)

/-- A request of the flow with its answer, or its callback. -/
inductive OnboardingEvent where
  | addAddressPair (answer : Except Failure OnboardingResponse)
  | listAllPendingAddressPairs (answer : Except Failure (List PendingUserAddressPairs))
  | approveAddressPair (userId : String) (request : UpdateOnbStatusRequest)
      (answer : Except Failure Unit)
  | onUserId (userId : String) (answer : Except Failure Unit)
  | listMyAddressPairs (answer : Except Failure (List UserAddressPair))

/-- `undefined` and the empty text are falsy. -/
instance : JsValue Failure (Option String) where
  truthy value := decide (value.getD "" ≠ "")
  stringify value := .ok ((value.map JsVal.jsonString).getD "undefined")

def OnboardingResponse.json (pair : OnboardingResponse) : String :=
  String.intercalate ","
    [s!"\x7b\"public_chain_address\":{JsVal.jsonString pair.public_chain_address}",
      s!"\"private_chain_address\":{JsVal.jsonString pair.private_chain_address}",
      s!"\"status\":{pair.status}",
      s!"\"created_at\":{JsVal.jsonString pair.created_at}\x7d"]

instance : JsValue Failure (Option OnboardingResponse) where
  truthy value := value.isSome
  stringify value := .ok ((value.map OnboardingResponse.json).getD "undefined")

structure DiscoverOpts where
  attempts : Option Nat := none
  delayMs : Option Nat := none

structure UpdateOpts where
  operatorApprovalAttempts : Option Nat := none
  operatorApprovalDelayMs : Option Nat := none
  userId : Option String := none

structure OnboardingOpts (σ : Type) where
  operatorApprovalAttempts : Option Nat := none
  operatorApprovalDelayMs : Option Nat := none
  onUserId : Option (String → Async σ Failure Unit) := none

/-- The options that the update of the status takes from them. -/
def OnboardingOpts.update {σ : Type} (opts : OnboardingOpts σ) : UpdateOpts :=
  ⟨opts.operatorApprovalAttempts, opts.operatorApprovalDelayMs, none⟩

variable {σ : Type}

/-- A program in dialogue with the backend. -/
abbrev Onboarder (σ α : Type) := Async (Dialogue σ OnboardingEvent) Failure α

section Flow

variable [Host σ] (PARALLEL_WORKERS : Option String) (api : OpsApi σ)

def onboardUser : Onboarder σ OnboardingResponse :=
  retry (ask .addAddressPair api.addAddressPair .ok) {}

def discoverOptions (pair : OnboardingResponse) (opts : DiscoverOpts) :
    PollOptions (Dialogue σ OnboardingEvent) Failure (Option String) where
  check := ask .listAllPendingAddressPairs api.listAllPendingAddressPairs
    fun groups => .ok (pendingUser groups pair)
  interval := some (opts.delayMs.getD 1000)
  attempts := some (opts.attempts.getD 30)
  tolerateErrors := true

def discoverUserId (pair : OnboardingResponse) (opts : DiscoverOpts) :
    Onboarder σ (Option String) :=
  eventually PARALLEL_WORKERS (discoverOptions api pair opts)
    s!"Waiting for pending pair {shortHex pair.public_chain_address} → discoverable userId"

/-- The options of the retried approval; its `onRetry` only prints. -/
def approvalRetry (opts : UpdateOpts) : RetryOptions (Dialogue σ OnboardingEvent) Failure where
  attempts := opts.operatorApprovalAttempts.getD 10
  delayMs := opts.operatorApprovalDelayMs.getD 3000
  retryIf := some TransientBackendError.isTransient

/-- `opts?.userId ?? (await discoverUserId(...))`. -/
def resolveUserId (pair : OnboardingResponse) (opts : UpdateOpts) : Onboarder σ String :=
  match opts.userId with
  | some userId => returns userId
  | none =>
      andThen (discoverUserId PARALLEL_WORKERS api pair {}) fun userId => returns (userId.getD "")

def updateOnboardingStatus (pair : OnboardingResponse) (newStatus : Nat)
    (opts : UpdateOpts) : Onboarder σ String :=
  andThen (resolveUserId PARALLEL_WORKERS api pair opts) fun userId =>
    let request := statusRequest pair newStatus
    andThen (retry (ask (.approveAddressPair userId request)
      (api.approveAddressPair userId request) .ok) (approvalRetry opts)) fun _ => returns userId

/-- `opts?.onUserId?.(userId)`. -/
def surfaceUserId (opts : OnboardingOpts σ) (userId : String) : Onboarder σ Unit :=
  match opts.onUserId with
  | some onUserId => ask (.onUserId userId) (onUserId userId) .ok
  | none => returns ()

def visibleOptions (pair : OnboardingResponse) :
    PollOptions (Dialogue σ OnboardingEvent) Failure (Option OnboardingResponse) where
  check := ask .listMyAddressPairs api.listMyAddressPairs fun mine => .ok (approvedPair mine pair)
  tolerateErrors := true

def visiblePair (pair : OnboardingResponse) : Onboarder σ OnboardingResponse :=
  andThen (eventually PARALLEL_WORKERS (visibleOptions api pair)
      s!"Waiting for pair {shortHex pair.private_chain_address} → APPROVED & visible to caller")
    fun found => returns (found.getD pair)

def onboardUserAndUpdateStatus (newStatus : Nat) (opts : OnboardingOpts σ) :
    Onboarder σ OnboardingResponse :=
  andThen (onboardUser api) fun onboardingResponse =>
    andThen (updateOnboardingStatus PARALLEL_WORKERS api onboardingResponse newStatus opts.update)
      fun userId =>
        andThen (surfaceUserId opts userId) fun _ =>
          if newStatus ≠ OnboardingStatus.APPROVED then returns onboardingResponse
          else visiblePair PARALLEL_WORKERS api onboardingResponse

end Flow

/-! ## What the flow says -/

namespace OnboardingEvent

/-- The stage of the flow to which an event belongs. -/
def stage : OnboardingEvent → Nat
  | .addAddressPair _ => 0
  | .listAllPendingAddressPairs _ => 1
  | .approveAddressPair _ _ _ => 2
  | .onUserId _ _ => 3
  | .listMyAddressPairs _ => 4

/-- A pair was added, or its status changed. -/
def Changes : OnboardingEvent → Prop
  | .addAddressPair (.ok _) => True
  | .approveAddressPair _ _ (.ok _) => True
  | _ => False

end OnboardingEvent

open OnboardingEvent

def onboardingStaging : Staging OnboardingEvent where
  stage := OnboardingEvent.stage
  Changes := OnboardingEvent.Changes

/-- The pair that is handed back for the added one; an approved one is as the caller saw it
last. -/
def HandsBack (newStatus : Nat) (created pair : OnboardingResponse)
    (said : List OnboardingEvent) : Prop :=
  if newStatus = OnboardingStatus.APPROVED then ∃ mine,
    said.getLast? = some (.listMyAddressPairs (.ok mine)) ∧ approvedPair mine created = some pair
  else pair = created

/-- What the flow promises of the requests to the backend. -/
structure Onboards (newStatus : Nat) (outcome : Except Failure OnboardingResponse)
    (said : List OnboardingEvent) : Prop where
  /-- The stages follow one another, and no request that changed something is repeated. -/
  staged : said.Pairwise onboardingStaging.Precedes
  /-- The operator is only asked to change the status of the pair that the flow added, as the
  user under which it was listed. -/
  targeted : ∀ userId request answer, .approveAddressPair userId request answer ∈ said →
    ∃ created groups, .addAddressPair (.ok created) ∈ said ∧
      .listAllPendingAddressPairs (.ok groups) ∈ said ∧
      pendingUser groups created = some userId ∧ request = statusRequest created newStatus
  /-- A pair is returned when its status was changed. -/
  returned : ∀ pair, outcome = .ok pair → ∃ created userId,
    .addAddressPair (.ok created) ∈ said ∧
      .approveAddressPair userId (statusRequest created newStatus) (.ok ()) ∈ said ∧
      HandsBack newStatus created pair said

/-- Earlier events do not change what is handed back. -/
theorem HandsBack.append {newStatus : Nat} {created pair : OnboardingResponse}
    {said : List OnboardingEvent} (hands : HandsBack newStatus created pair said)
    (before : List OnboardingEvent) : HandsBack newStatus created pair (before ++ said) := by
  unfold HandsBack at hands ⊢
  split
  next happroved =>
    rw [if_pos happroved] at hands
    obtain ⟨mine, hlast, hfound⟩ := hands
    exact ⟨mine, by rw [List.getLast?_append, hlast]; rfl, hfound⟩
  next hother => rwa [if_neg hother] at hands

/-- What is said while the status is updated. -/
structure Updated (pair : OnboardingResponse) (newStatus : Nat) (outcome : Except Failure String)
    (said : List OnboardingEvent) : Prop where
  within : onboardingStaging.Within 1 3 said
  targeted : ∀ userId request answer, .approveAddressPair userId request answer ∈ said →
    (∃ groups, .listAllPendingAddressPairs (.ok groups) ∈ said ∧
      pendingUser groups pair = some userId) ∧ request = statusRequest pair newStatus
  returned : ∀ userId, outcome = .ok userId →
    .approveAddressPair userId (statusRequest pair newStatus) (.ok ()) ∈ said

/-- What is said after the status was updated. -/
structure Confirmed (pair : OnboardingResponse) (newStatus : Nat)
    (outcome : Except Failure OnboardingResponse) (said : List OnboardingEvent) : Prop where
  within : onboardingStaging.Within 3 5 said
  returned : ∀ found, outcome = .ok found → HandsBack newStatus pair found said

section Laws

variable [Host σ] {PARALLEL_WORKERS : Option String} {api : OpsApi σ} {newStatus : Nat}
  {pair created : OnboardingResponse} {said : List OnboardingEvent}

theorem onboardUser_obeys :
    Obeys (onboardUser api) (Retried ({} : RetryOptions (Dialogue σ OnboardingEvent) Failure) 3
      .addAddressPair .ok) :=
  obeys_retry _ fun _ _ _ => rfl

theorem discoverUserId_obeys (pair : OnboardingResponse) (opts : DiscoverOpts) :
    Obeys (discoverUserId PARALLEL_WORKERS api pair opts)
      (Asked (discoverOptions api pair opts) (opts.attempts.getD 30)
        .listAllPendingAddressPairs fun groups => .ok (pendingUser groups pair)) :=
  obeys_eventually PARALLEL_WORKERS (discoverOptions api pair opts) rfl _

omit [Host σ] in
theorem Updated.of_idle {err : Failure} (hidle : onboardingStaging.Idle 1 said) :
    Updated pair newStatus (.error err) said where
  within := hidle.within.mono (Nat.le_refl 1) (by decide)
  targeted _ _ _ hmem := absurd (hidle _ hmem).1 (by simp [onboardingStaging, stage])
  returned _ hok := by cases hok

omit [Host σ] in
/-- The approvals of the discovered user. -/
theorem Updated.of_approvals {userId : String} {groups : List PendingUserAddressPairs}
    {outcome : Except Failure String} {approvals : List OnboardingEvent}
    (hidle : onboardingStaging.Idle 1 said)
    (hgroups : .listAllPendingAddressPairs (.ok groups) ∈ said)
    (hpending : pendingUser groups pair = some userId)
    (happrovals : onboardingStaging.Within 2 3 approvals)
    (hanswers : ∀ event ∈ approvals, ∃ answer,
      .approveAddressPair userId (statusRequest pair newStatus) answer = event)
    (hreturned : ∀ other, outcome = .ok other →
      .approveAddressPair other (statusRequest pair newStatus) (.ok ()) ∈ approvals) :
    Updated pair newStatus outcome (said ++ approvals) where
  within := hidle.within.append happrovals (by decide) (by decide)
  targeted other request answer hmem := by
    rcases List.mem_append.mp hmem with hmem | hmem
    · exact absurd (hidle _ hmem).1 (by simp [onboardingStaging, stage])
    · obtain ⟨_, heq⟩ := hanswers _ hmem
      cases heq
      exact ⟨⟨groups, List.mem_append_left _ hgroups, hpending⟩, rfl⟩
  returned other hok := List.mem_append_right _ (hreturned other hok)

/-- A status is only changed after its user was discovered. -/
theorem updateOnboardingStatus_obeys (pair : OnboardingResponse) (newStatus : Nat)
    {opts : UpdateOpts} (huserId : opts.userId = none) :
    Obeys (updateOnboardingStatus PARALLEL_WORKERS api pair newStatus opts)
      (Updated pair newStatus) := by
  have hresolve : Obeys (resolveUserId PARALLEL_WORKERS api pair opts)
      ((Asked (discoverOptions api pair {}) 30 .listAllPendingAddressPairs
        fun groups => .ok (pendingUser groups pair)).Then fun userId =>
          Law.silent (userId.getD "")) := by
    rw [resolveUserId, huserId]
    exact (discoverUserId_obeys pair {}).andThen fun userId => obeys_returns (userId.getD "")
  refine (hresolve.andThen fun userId => (obeys_retry (approvalRetry opts)
    fun _ _ _ => rfl).andThen fun _ => obeys_returns userId).imp ?_
  intro outcome said hlaw
  cases hlaw with
  | failed hresolved =>
      cases hresolved with
      | failed hasked => exact .of_idle (hasked.idle fun _ => ⟨rfl, id⟩)
      | went _ hsilent => cases hsilent.1
  | went hresolved happroved =>
      cases hresolved with
      | went hasked hsilent =>
          have hidle : onboardingStaging.Idle _ _ := hasked.idle fun _ => ⟨rfl, id⟩
          obtain ⟨undecided, groups, hfound, htruthy, rfl⟩ := hasked.of_ok
          obtain ⟨huser, rfl⟩ := hsilent
          obtain rfl := Except.ok.inj huser
          obtain rfl := Except.ok.inj hfound
          have hpending : pendingUser groups pair = some ((pendingUser groups pair).getD "") := by
            cases huser : pendingUser groups pair with
            | none => simp [JsValue.truthy, huser] at htruthy
            | some userId => rfl
          rw [List.append_nil]
          cases happroved with
          | failed hretried =>
              exact .of_approvals hidle (by simp) hpending
                (hretried.within (fun _ => rfl) fun _ => id) (fun _ => hretried.of_mem)
                fun _ hok => by cases hok
          | went hretried hsilent =>
              obtain ⟨rfl, rfl⟩ := hsilent
              rw [List.append_nil]
              refine .of_approvals hidle (by simp) hpending
                (hretried.within (fun _ => rfl) fun _ => id) (fun _ => hretried.of_mem) ?_
              intro other hok
              obtain rfl := Except.ok.inj hok
              exact hretried.mem_ok

omit [Host σ] in
theorem visible_truthy {mine : List UserAddressPair} {found : Option OnboardingResponse}
    (htruthy : JsValue.truthy Failure found = true) (hfound : approvedPair mine pair = found) :
    approvedPair mine pair = some (found.getD pair) := by
  cases found with
  | none => cases htruthy
  | some visible => exact hfound

omit [Host σ] in
theorem surfaceUserId_within (opts : OnboardingOpts σ) (userId : String) :
    Obeys (surfaceUserId opts userId) fun _ said => onboardingStaging.Within 3 4 said := by
  unfold surfaceUserId
  cases opts.onUserId with
  | none =>
      refine (obeys_returns ()).imp fun _ said hsilent => ?_
      rw [hsilent.2]
      exact .nil
  | some onUserId =>
      refine (obeys_ask _ _ _).imp fun _ said hasked => ?_
      obtain ⟨answer, rfl, _⟩ := hasked
      exact .singleton rfl

/-- What the caller hands back, after it looked at its own list for an approved pair. -/
def Seen (pair : OnboardingResponse) (newStatus : Nat) :
    Law OnboardingEvent Failure OnboardingResponse := fun outcome said =>
  onboardingStaging.Within 4 5 said ∧
    ∀ found, outcome = .ok found → HandsBack newStatus pair found said

/-- Waiting for the approved pair hands back a pair that was listed. -/
theorem visiblePair_obeys (pair : OnboardingResponse) :
    Obeys (visiblePair PARALLEL_WORKERS api pair) (Seen pair OnboardingStatus.APPROVED) := by
  refine ((obeys_eventually PARALLEL_WORKERS (visibleOptions api pair) rfl _).andThen
    fun found => obeys_returns (found.getD pair)).imp ?_
  intro outcome said hlaw
  cases hlaw with
  | failed hasked =>
      exact ⟨(hasked.idle fun _ => ⟨rfl, id⟩).within, fun _ hok => by cases hok⟩
  | went hasked hsilent =>
      have hidle : onboardingStaging.Idle _ _ := hasked.idle fun _ => ⟨rfl, id⟩
      obtain ⟨undecided, mine, hread, htruthy, rfl⟩ := hasked.of_ok
      obtain ⟨rfl, rfl⟩ := hsilent
      rw [List.append_nil]
      refine ⟨hidle.within, fun found hok => ?_⟩
      rw [HandsBack, if_pos rfl, ← Except.ok.inj hok]
      exact ⟨mine, by simp, visible_truthy htruthy (Except.ok.inj hread)⟩

/-- Only an approval is waited for. -/
theorem seen_obeys (pair : OnboardingResponse) (newStatus : Nat) :
    Obeys (if newStatus ≠ OnboardingStatus.APPROVED then returns pair
      else visiblePair PARALLEL_WORKERS api pair) (Seen pair newStatus) := by
  by_cases happroved : newStatus = OnboardingStatus.APPROVED
  · rw [if_neg (not_not.mpr happroved), happroved]
    exact visiblePair_obeys pair
  · rw [if_pos happroved]
    refine (obeys_returns pair).imp fun outcome said ⟨houtcome, hsaid⟩ => ?_
    rw [houtcome, hsaid]
    refine ⟨.nil, fun found hok => ?_⟩
    rw [HandsBack, if_neg happroved]
    exact (Except.ok.inj hok).symm

/-- What follows the status update keeps the pair. -/
theorem confirmed_obeys (opts : OnboardingOpts σ) (userId : String) (pair : OnboardingResponse)
    (newStatus : Nat) :
    Obeys (andThen (surfaceUserId opts userId) fun _ =>
      if newStatus ≠ OnboardingStatus.APPROVED then returns pair
      else visiblePair PARALLEL_WORKERS api pair) (Confirmed pair newStatus) := by
  refine ((surfaceUserId_within opts userId).andThen fun _ => seen_obeys pair newStatus).imp ?_
  intro outcome said hlaw
  refine ⟨.of_then hlaw (fun _ _ => id) (fun _ _ _ hseen => hseen.1) (by decide) (by decide), ?_⟩
  cases hlaw with
  | failed => exact fun _ hok => by cases hok
  | went _ hseen => exact fun found hok => (hseen.2 found hok).append _

end Laws

/-- The law of the flow: a pair is added, its status is updated, and that is confirmed. -/
def OnboardingLaw (σ : Type) (newStatus : Nat) : Law OnboardingEvent Failure OnboardingResponse :=
  (Retried ({} : RetryOptions (Dialogue σ OnboardingEvent) Failure) 3 .addAddressPair .ok).Then
    fun created => Law.Then (Updated created newStatus) fun _ => Confirmed created newStatus

theorem onboardUserAndUpdateStatus_obeys [Host σ] (PARALLEL_WORKERS : Option String)
    (api : OpsApi σ) (newStatus : Nat) (opts : OnboardingOpts σ) :
    Obeys (onboardUserAndUpdateStatus PARALLEL_WORKERS api newStatus opts)
      (OnboardingLaw σ newStatus) :=
  onboardUser_obeys.andThen fun created =>
    (updateOnboardingStatus_obeys created newStatus rfl).andThen
      fun userId => confirmed_obeys opts userId created newStatus

section Flow

variable {newStatus : Nat} {outcome : Except Failure OnboardingResponse}
  {said : List OnboardingEvent}

theorem OnboardingLaw.within (hlaw : OnboardingLaw σ newStatus outcome said) :
    onboardingStaging.Within 0 5 said :=
  .of_then hlaw (fun _ _ hretried => hretried.within (fun _ => rfl) fun _ => id)
    (fun _ _ _ hrest => .of_then hrest (fun _ _ hupdated => hupdated.within)
      (fun _ _ _ hconfirmed => hconfirmed.within) (by decide) (by decide))
    (by decide) (by decide)

/-- A pair that the flow returns was added, and its status request was answered with success. -/
theorem OnboardingLaw.returned (hlaw : OnboardingLaw σ newStatus outcome said)
    {pair : OnboardingResponse} (hok : outcome = .ok pair) : ∃ created userId,
      .addAddressPair (.ok created) ∈ said ∧
        .approveAddressPair userId (statusRequest created newStatus) (.ok ()) ∈ said ∧
        HandsBack newStatus created pair said := by
  cases hlaw with
  | failed => cases hok
  | @went created _ _ _ hretried hrest =>
      cases hrest with
      | failed => cases hok
      | @went userId _ _ _ hupdated hconfirmed =>
          refine ⟨created, userId, List.mem_append_left _ hretried.mem_ok, ?_,
            ((hconfirmed.returned pair hok).append _).append _⟩
          exact List.mem_append_right _ (List.mem_append_left _ (hupdated.returned userId rfl))

/-- A status is requested only for the pair that was added. -/
theorem OnboardingLaw.targeted (hlaw : OnboardingLaw σ newStatus outcome said)
    {userId : String} {request : UpdateOnbStatusRequest} {answer : Except Failure Unit}
    (happroved : .approveAddressPair userId request answer ∈ said) :
    ∃ created groups, .addAddressPair (.ok created) ∈ said ∧
      .listAllPendingAddressPairs (.ok groups) ∈ said ∧
      pendingUser groups created = some userId ∧ request = statusRequest created newStatus := by
  cases hlaw with
  | failed hretried =>
      obtain ⟨_, hother⟩ := hretried.of_mem happroved
      cases hother
  | @went created _ added rest hretried hrest =>
      rcases List.mem_append.mp happroved with happroved | happroved
      · obtain ⟨_, hother⟩ := hretried.of_mem happroved
        cases hother
      · have htargeted : (∃ groups, .listAllPendingAddressPairs (.ok groups) ∈ rest ∧
            pendingUser groups created = some userId) ∧
              request = statusRequest created newStatus := by
          cases hrest with
          | failed hupdated => exact hupdated.targeted userId request answer happroved
          | went hupdated hconfirmed =>
              rcases List.mem_append.mp happroved with happroved | happroved
              · obtain ⟨⟨groups, hgroups, hpending⟩, hrequest⟩ :=
                  hupdated.targeted userId request answer happroved
                exact ⟨⟨groups, List.mem_append_left _ hgroups, hpending⟩, hrequest⟩
              · exact absurd (hconfirmed.within.bounds _ happroved).1 (Nat.not_succ_le_self 2)
        obtain ⟨⟨groups, hgroups, hpending⟩, hrequest⟩ := htargeted
        exact ⟨created, groups, List.mem_append_left _ hretried.mem_ok,
          List.mem_append_right added hgroups, hpending, hrequest⟩

end Flow

/-- In every run the operator is asked to change the status of the pair that was added, as the
user under which it was listed, and once at most with success; a pair that is returned was
changed so. -/
theorem onboardUserAndUpdateStatus_onboards [Host σ] (PARALLEL_WORKERS : Option String)
    (api : OpsApi σ) (newStatus : Nat) (opts : OnboardingOpts σ) :
    Obeys (onboardUserAndUpdateStatus PARALLEL_WORKERS api newStatus opts)
      (Onboards newStatus) := by
  refine (onboardUserAndUpdateStatus_obeys PARALLEL_WORKERS api newStatus opts).imp ?_
  intro outcome said hlaw
  exact ⟨hlaw.within.staged, fun _ _ _ => hlaw.targeted, fun _ => hlaw.returned⟩

end RaylsSuite.Flows
