import RaylsSuite.Common.Formatters
import RaylsSuite.Common.JsVal
import RaylsSuite.Common.ProtocolSteps

/-! # Activating a token on the public chain

The issuer registers its token on the privacy node and approves it there. Then
the token is submitted to the public chain unless that has been done, and two
waits follow: until the relayer has deployed the public token, and until that
token may call the public endpoint.
-/

namespace RaylsSuite.Tokens

open Common Config Foundation Foundation.Dialogue

instance : JsValue JsError (Option String) where
  truthy value := decide (value.getD "" ≠ "")
  stringify value := .ok ((value.map JsVal.jsonString).getD "undefined")

/-- The status of a token that may be submitted to the chains. -/
def AUTHORIZED : Nat := 2

/-- The public chain's status of a token whose public token has been deployed. -/
def DEPLOYED : Nat := 2

/-- A wrapper as the activation sees it: `addr` is `this.address[this.privacyNode.chainId]`. -/
structure IssuedToken where
  symbol : String
  addr : String
  adminWallet : String
deriving DecidableEq, Repr

/-- A handle on the node's registry; without a signer it only reads. -/
structure PNTokenRegistry where
  address : String
  signer : Option String
deriving DecidableEq, Repr

/-- What a public token knows of its chain. -/
structure PublicApp where
  endpointAddr : String
  accessManagerAddr : String
deriving DecidableEq, Repr

/-- A request to the chains with its answer. -/
inductive ActivationEvent where
  | getPnTokenRegistry (signer : Option String) (answer : Except JsError String)
  | registerToken (registry : PNTokenRegistry) (addr : String) (answer : Except JsError Response)
  | updatePrivacyNodeStatus (registry : PNTokenRegistry) (addr : String) (status : Nat)
      (answer : Except JsError Response)
  | getPublicChainStatus (registry : PNTokenRegistry) (addr : String) (answer : Except JsError Nat)
  | submitToPublicChain (registry : PNTokenRegistry) (addr : String)
      (answer : Except JsError Response)
  /-- The answer is the token's `publicTokenAddress`. -/
  | getTokenByAddress (registry : PNTokenRegistry) (addr : String)
      (answer : Except JsError String)
  /-- `Promise.all` of the two reads, `getPublicRaylsNodeEndpoint()` and `authority()`. -/
  | readPublicApp (tokenAddr : String) (answer : Except JsError PublicApp)
  | canCall (accessManagerAddr tokenAddr endpointAddr selector : String)
      (answer : Except JsError Bool)

/-- How the chains serve the requests. -/
structure ActivationServices (σ : Type) where
  getPnTokenRegistry : Option String → Async σ JsError String
  registerToken : PNTokenRegistry → String → Async σ JsError Response
  updatePrivacyNodeStatus : PNTokenRegistry → String → Nat → Async σ JsError Response
  getPublicChainStatus : PNTokenRegistry → String → Async σ JsError Nat
  submitToPublicChain : PNTokenRegistry → String → Async σ JsError Response
  getTokenByAddress : PNTokenRegistry → String → Async σ JsError String
  readPublicApp : String → Async σ JsError PublicApp
  canCall : String → String → String → String → Async σ JsError Bool

variable {σ : Type}

/-- A program in dialogue with the chains. -/
abbrev Activation (σ α : Type) := Async (Dialogue σ ActivationEvent) JsError α

section Calls

variable [Host σ] (PARALLEL_WORKERS : Option String) (services : ActivationServices σ)
  (token : IssuedToken) (sendToAddressSelector : String)

def getPnTokenRegistry (signer : Option String) : Activation σ PNTokenRegistry :=
  ask (.getPnTokenRegistry signer) (services.getPnTokenRegistry signer)
    fun address => .ok ⟨address, signer⟩

/-- `submitTx`, whose receipt is not used. -/
def submitted (event : Except JsError Response → ActivationEvent)
    (serve : Async σ JsError Response) (message : String) : Activation σ Unit :=
  andThen (submitTx (ask event serve .ok) message) fun _ => returns ()

def activateOnPn : Activation σ Unit :=
  andThen (getPnTokenRegistry services (some token.adminWallet)) fun registry =>
    andThen (submitted (.registerToken registry token.addr)
      (services.registerToken registry token.addr)
      s!"Registering {token.symbol} on PN registry ({shortHex token.addr})...") fun _ =>
        submitted (.updatePrivacyNodeStatus registry token.addr AUTHORIZED)
          (services.updatePrivacyNodeStatus registry token.addr AUTHORIZED)
          s!"Approving {token.symbol} on PN → AUTHORIZED..."

def submitToPublicChain : Activation σ Unit :=
  andThen (getPnTokenRegistry services (some token.adminWallet)) fun registry =>
    andThen (ask (.getPublicChainStatus registry token.addr)
      (services.getPublicChainStatus registry token.addr) .ok) fun status =>
        if 1 ≤ status then returns ()
        else submitted (.submitToPublicChain registry token.addr)
          (services.submitToPublicChain registry token.addr)
          s!"Submitting {token.symbol} to public chain ({shortHex token.addr})..."

/-- `pub && pub !== ZERO_ADDRESS ? pub : undefined`. -/
def knownAddress (pub : String) : Option String :=
  if pub ≠ "" ∧ pub ≠ ZERO_ADDRESS then some pub else none

def publicAddressOptions (registry : PNTokenRegistry) :
    PollOptions (Dialogue σ ActivationEvent) JsError (Option String) where
  check :=
    andThen (ask (.getPublicChainStatus registry token.addr)
      (services.getPublicChainStatus registry token.addr) .ok) fun status =>
        if status = DEPLOYED then
          ask (.getTokenByAddress registry token.addr)
            (services.getTokenByAddress registry token.addr) fun pub => .ok (knownAddress pub)
        else returns none
  interval := some 3000
  attempts := some 40
  tolerateErrors := true

/-- The value of the wait is truthy, and therefore a text. -/
def getPublicAddress : Activation σ String :=
  andThen (getPnTokenRegistry services none) fun registry =>
    andThen (eventually PARALLEL_WORKERS (publicAddressOptions services token registry)
      s!"Waiting for {token.symbol} public token DEPLOYED ({shortHex token.addr})") fun pub =>
        returns (pub.getD "")

def authorizedOptions (tokenAddr : String) :
    PollOptions (Dialogue σ ActivationEvent) JsError Bool where
  check :=
    andThen (ask (.readPublicApp tokenAddr) (services.readPublicApp tokenAddr) .ok) fun app =>
      ask (.canCall app.accessManagerAddr tokenAddr app.endpointAddr sendToAddressSelector)
        (services.canCall app.accessManagerAddr tokenAddr app.endpointAddr sendToAddressSelector)
        .ok
  interval := some 2000
  attempts := some 45
  tolerateErrors := true

def waitForPublicTokenAuthorized (publicTokenAddr : Option String) : Activation σ Unit :=
  andThen (match publicTokenAddr with
    | some tokenAddr => returns tokenAddr
    | none => getPublicAddress PARALLEL_WORKERS services token) fun tokenAddr =>
      andThen (eventually PARALLEL_WORKERS
        (authorizedOptions services sendToAddressSelector tokenAddr)
        (s!"Waiting for public token {shortHex tokenAddr} " ++
          "to become AUTHORIZED_SENDER on the public endpoint")) fun _ => returns ()

def activateOnPublicChain : Activation σ String :=
  andThen (submitToPublicChain services token) fun _ =>
    andThen (getPublicAddress PARALLEL_WORKERS services token) fun publicAddress =>
      andThen (waitForPublicTokenAuthorized PARALLEL_WORKERS services token
        sendToAddressSelector (some publicAddress)) fun _ => returns publicAddress

/-- The issuer's activation in the suite's `before`. -/
def activateIssuedToken : Activation σ String :=
  andThen (activateOnPn services token) fun _ =>
    activateOnPublicChain PARALLEL_WORKERS services token sendToAddressSelector

end Calls

/-! ## The protocol of the activation -/

/-- How far a token's activation has come. -/
inductive ActivationState where
  | unregistered
  | registering (registry : PNTokenRegistry)
  | approving (registry : PNTokenRegistry)
  | approved
  | checking (registry : PNTokenRegistry)
  | submitting (registry : PNTokenRegistry)
  | submitted
  | polling (registry : PNTokenRegistry)
  | reading (registry : PNTokenRegistry)
  | deployed (publicAddress : String)
  | gating (publicAddress : String) (app : PublicApp)
  | authorized (publicAddress : String)
deriving DecidableEq, Repr

namespace ActivationState

/-- A token that the public chain knows of already is not submitted. -/
def checked (registry : PNTokenRegistry) (status : Nat) : ActivationState :=
  if 1 ≤ status then submitted else submitting registry

def polled (registry : PNTokenRegistry) (status : Nat) : ActivationState :=
  if status = DEPLOYED then reading registry else polling registry

def found (registry : PNTokenRegistry) (pub : Option String) : ActivationState :=
  if pub.getD "" ≠ "" then deployed (pub.getD "") else polling registry

def gated (publicAddress : String) (allowed : Bool) : ActivationState :=
  if allowed then authorized publicAddress else deployed publicAddress

/-- Each request is about the registry, the token and the application that were answered
before; what fails or is refused is asked again. -/
def step (token : IssuedToken) (selector : String) :
    ActivationState → ActivationEvent → Option ActivationState
  | unregistered, .getPnTokenRegistry signer answer =>
      onlyIf (signer = some token.adminWallet)
        (answered unregistered (fun address => registering ⟨address, signer⟩) answer)
  | registering registry, .registerToken handle addr answer =>
      onlyIf (handle = registry ∧ addr = token.addr)
        (afterCall (registering registry) (approving registry) answer)
  | approving registry, .updatePrivacyNodeStatus handle addr status answer =>
      onlyIf (handle = registry ∧ addr = token.addr ∧ status = AUTHORIZED)
        (afterCall (approving registry) approved answer)
  | approved, .getPnTokenRegistry signer answer =>
      onlyIf (signer = some token.adminWallet)
        (answered approved (fun address => checking ⟨address, signer⟩) answer)
  | checking registry, .getPublicChainStatus handle addr answer =>
      onlyIf (handle = registry ∧ addr = token.addr)
        (answered (checking registry) (checked registry) answer)
  | submitting registry, .submitToPublicChain handle addr answer =>
      onlyIf (handle = registry ∧ addr = token.addr)
        (afterCall (submitting registry) submitted answer)
  | submitted, .getPnTokenRegistry signer answer =>
      onlyIf (signer = none)
        (answered submitted (fun address => polling ⟨address, signer⟩) answer)
  | polling registry, .getPublicChainStatus handle addr answer =>
      onlyIf (handle = registry ∧ addr = token.addr)
        (answered (polling registry) (polled registry) answer)
  | reading registry, .getTokenByAddress handle addr answer =>
      onlyIf (handle = registry ∧ addr = token.addr)
        (answered (polling registry) (fun pub => found registry (knownAddress pub)) answer)
  | deployed publicAddress, .readPublicApp tokenAddr answer =>
      onlyIf (tokenAddr = publicAddress)
        (answered (deployed publicAddress) (gating publicAddress) answer)
  | gating publicAddress app, .canCall accessManagerAddr tokenAddr endpointAddr function answer =>
      onlyIf (accessManagerAddr = app.accessManagerAddr ∧ tokenAddr = publicAddress ∧
        endpointAddr = app.endpointAddr ∧ function = selector)
          (answered (deployed publicAddress) (gated publicAddress) answer)
  | _, _ => none

/-- The activation has not ended with an authorized token. -/
def Unfinished (state : ActivationState) : Prop :=
  ∀ publicAddress, state ≠ authorized publicAddress

end ActivationState

/-- The order in which an activation asks for things. -/
def activationProtocol (token : IssuedToken) (selector : String) :
    Machine ActivationState ActivationEvent where
  step := ActivationState.step token selector

/-! ## The activation follows its protocol -/

section Laws

open ActivationState

variable [Host σ] {PARALLEL_WORKERS : Option String} {services : ActivationServices σ}
  {token : IssuedToken} {selector : String}

omit [Host σ] in
/-- A handle on the registry is one step of the protocol. -/
theorem getPnTokenRegistry_follows (signer : Option String) (start : ActivationState)
    (reached : PNTokenRegistry → ActivationState)
    (hstep : ∀ answer, (activationProtocol token selector).step start
      (.getPnTokenRegistry signer answer) =
        some (answered start (fun address => reached ⟨address, signer⟩) answer))
    (hstart : start.Unfinished) :
    Obeys (getPnTokenRegistry services signer)
      (Follows (activationProtocol token selector) start reached Unfinished) :=
  follows_ask hstep (fun _ => rfl) hstart

/-- A submission is one step of the protocol. -/
theorem submitted_follows {event : Except JsError Response → ActivationEvent}
    {stay done : ActivationState} (serve : Async σ JsError Response) (message : String)
    (hstep : ∀ answer, (activationProtocol token selector).step stay (event answer) =
      some (afterCall stay done answer))
    (hstay : stay.Unfinished) :
    Obeys (submitted event serve message)
      (Follows (activationProtocol token selector) stay (fun _ => done) Unfinished) := by
  refine follows_andThen (fun _ => done) ?_ fun _ => follows_returns () rfl
  exact follows_leaving (follows_submitTx (mines_of_afterCall hstep) message) hstay

/-- The approval on the node follows the activation protocol. -/
theorem activateOnPn_follows :
    Obeys (activateOnPn services token) (Follows (activationProtocol token selector)
      .unregistered (fun _ => .approved) Unfinished) := by
  refine follows_andThen .registering (getPnTokenRegistry_follows _ .unregistered .registering
    (fun _ => onlyIf_of rfl _) nofun) ?_
  intro registry
  apply follows_andThen fun _ => .approving registry
  · exact submitted_follows _ _ (fun _ => onlyIf_of ⟨rfl, rfl⟩ _) nofun
  · intro _
    exact submitted_follows _ _ (fun _ => onlyIf_of ⟨rfl, rfl, rfl⟩ _) nofun

/-- The submission to the public chain follows the protocol. -/
theorem submitToPublicChain_follows :
    Obeys (submitToPublicChain services token) (Follows (activationProtocol token selector)
      .approved (fun _ => .submitted) Unfinished) := by
  refine follows_andThen .checking (getPnTokenRegistry_follows _ .approved .checking
    (fun _ => onlyIf_of rfl _) nofun) ?_
  intro registry
  refine follows_andThen (checked registry) (follows_ask (fun _ => onlyIf_of ⟨rfl, rfl⟩ _)
    (fun _ => rfl) nofun) ?_
  intro status
  unfold checked
  split
  next => exact follows_returns () rfl
  next => exact submitted_follows _ _ (fun _ => onlyIf_of ⟨rfl, rfl⟩ _) nofun

omit [Host σ] in
/-- An attempt to learn the address of the public token. -/
theorem publicAddress_check_follows (registry : PNTokenRegistry) :
    Obeys (publicAddressOptions services token registry).check
      (Follows (activationProtocol token selector) (.polling registry) (found registry)
        (· = .polling registry)) := by
  refine follows_andThen (polled registry) (follows_ask (fun _ => onlyIf_of ⟨rfl, rfl⟩ _)
    (fun _ => rfl) rfl) ?_
  intro status
  unfold polled
  split
  next => exact follows_ask (fun _ => onlyIf_of ⟨rfl, rfl⟩ _) (fun _ => rfl) rfl
  next => exact follows_returns none (if_neg fun hne => hne rfl)

/-- Waiting for the public address follows the protocol. -/
theorem getPublicAddress_follows :
    Obeys (getPublicAddress PARALLEL_WORKERS services token)
      (Follows (activationProtocol token selector) .submitted .deployed Unfinished) := by
  refine follows_andThen .polling (getPnTokenRegistry_follows _ .submitted .polling
    (fun _ => onlyIf_of rfl _) nofun) ?_
  intro registry
  refine follows_leaving (follows_eventually PARALLEL_WORKERS _
    (publicAddress_check_follows registry) ?_ ?_ _) nofun
  · intro pub hfalsy
    exact if_neg (of_decide_eq_false hfalsy)
  · intro pub htruthy
    exact if_pos (of_decide_eq_true htruthy)

omit [Host σ] in
/-- An attempt to see the public token authorized. -/
theorem authorized_check_follows (tokenAddr : String) :
    Obeys (authorizedOptions services selector tokenAddr).check
      (Follows (activationProtocol token selector) (.deployed tokenAddr) (gated tokenAddr)
        (· = .deployed tokenAddr)) := by
  refine follows_andThen (.gating tokenAddr) (follows_ask (fun _ => onlyIf_of rfl _)
    (fun _ => rfl) rfl) ?_
  intro app
  exact follows_ask (fun _ => onlyIf_of ⟨rfl, rfl, rfl, rfl⟩ _) (fun _ => rfl) rfl

/-- Waiting for the authorization follows the protocol. -/
theorem waitForPublicTokenAuthorized_follows (tokenAddr : String) :
    Obeys (waitForPublicTokenAuthorized PARALLEL_WORKERS services token selector (some tokenAddr))
      (Follows (activationProtocol token selector) (.deployed tokenAddr)
        (fun _ => .authorized tokenAddr) Unfinished) := by
  have hawaited : Obeys (waitForPublicTokenAuthorized PARALLEL_WORKERS services token selector
      (some tokenAddr)) (Follows (activationProtocol token selector) (.deployed tokenAddr)
        (fun _ => .authorized tokenAddr) (· = .deployed tokenAddr)) :=
    follows_awaiting PARALLEL_WORKERS _ (authorized_check_follows tokenAddr) _
  exact follows_leaving hawaited nofun

/-- From the approval to the authorization the protocol is followed. -/
theorem activateOnPublicChain_follows :
    Obeys (activateOnPublicChain PARALLEL_WORKERS services token selector)
      (Follows (activationProtocol token selector) .approved .authorized Unfinished) := by
  refine follows_andThen (fun _ => .submitted) submitToPublicChain_follows fun _ => ?_
  refine follows_andThen .deployed getPublicAddress_follows fun publicAddress => ?_
  refine follows_andThen (fun _ => .authorized publicAddress)
    (waitForPublicTokenAuthorized_follows publicAddress) fun _ => ?_
  exact follows_returns publicAddress rfl

end Laws

/-! ## What an activation has seen -/

namespace ActivationEvent

/-- A registration has been mined. -/
def registers : ActivationEvent → Bool
  | .registerToken _ _ (.ok response) => response.mined
  | _ => false

def approves : ActivationEvent → Bool
  | .updatePrivacyNodeStatus _ _ _ (.ok response) => response.mined
  | _ => false

def submits : ActivationEvent → Bool
  | .submitToPublicChain _ _ (.ok response) => response.mined
  | _ => false

end ActivationEvent

namespace ActivationState

def registrations : ActivationState → Nat
  | unregistered | registering _ => 0
  | _ => 1

def approvals : ActivationState → Nat
  | unregistered | registering _ | approving _ => 0
  | _ => 1

/-- How many submissions may have been mined. -/
def submissions : ActivationState → Nat
  | unregistered | registering _ | approving _ | approved | checking _ | submitting _ => 0
  | _ => 1

/-- What the last answers have told. -/
def Told (selector : String) (said : List ActivationEvent) : ActivationState → Prop
  | deployed publicAddress => publicAddress ≠ "" ∧ publicAddress ≠ ZERO_ADDRESS
  | gating publicAddress app => publicAddress ≠ "" ∧ publicAddress ≠ ZERO_ADDRESS ∧
      ∃ before, said = before ++ [.readPublicApp publicAddress (.ok app)]
  | authorized publicAddress => publicAddress ≠ "" ∧ publicAddress ≠ ZERO_ADDRESS ∧
      ∃ before app, said = before ++ [.readPublicApp publicAddress (.ok app),
        .canCall app.accessManagerAddr publicAddress app.endpointAddr selector (.ok true)]
  | _ => True

/-- What has been said when a state is reached. -/
structure Seen (selector : String) (said : List ActivationEvent) (state : ActivationState) :
    Prop where
  registered : said.countP ActivationEvent.registers = state.registrations
  approved : said.countP ActivationEvent.approves = state.approvals
  submitted : said.countP ActivationEvent.submits ≤ state.submissions
  told : state.Told selector said

theorem knownAddress_ne {pub : String} (hknown : (knownAddress pub).getD "" ≠ "") :
    (knownAddress pub).getD "" ≠ "" ∧ (knownAddress pub).getD "" ≠ ZERO_ADDRESS := by
  unfold knownAddress at hknown ⊢
  split
  next hdeployed => exact hdeployed
  next hunknown => simp [hunknown] at hknown

/-- Each event counts for the state that it leads to. -/
theorem Seen.concat {selector : String} {said : List ActivationEvent}
    {state next : ActivationState} {event : ActivationEvent} (hseen : state.Seen selector said)
    (hregistered : state.registrations + event.registers.toNat = next.registrations)
    (happroved : state.approvals + event.approves.toNat = next.approvals)
    (hsubmitted : state.submissions + event.submits.toNat ≤ next.submissions)
    (htold : next.Told selector (said ++ [event])) : next.Seen selector (said ++ [event]) where
  registered := by
    rw [countP_concat, hseen.registered, hregistered]
  approved := by
    rw [countP_concat, hseen.approved, happroved]
  submitted := by
    rw [countP_concat]
    exact (Nat.add_le_add_right hseen.submitted _).trans hsubmitted
  told := htold

/-- A step of the protocol is backed by the event that it takes. -/
theorem Seen.step {token : IssuedToken} {selector : String} {said : List ActivationEvent}
    {state next : ActivationState} {event : ActivationEvent} (hseen : state.Seen selector said)
    (hstep : step token selector state event = some next) :
    next.Seen selector (said ++ [event]) := by
  have htold := hseen.told
  unfold ActivationState.step at hstep
  split at hstep <;> try obtain ⟨hallowed, rfl⟩ := onlyIf_eq_some.mp hstep
  case h_1 signer answer =>
    cases answer <;> exact hseen.concat rfl rfl (Nat.le_refl 0) trivial
  case h_2 registry handle addr answer =>
    rcases answer with err | response
    · exact hseen.concat rfl rfl (Nat.le_refl 0) trivial
    · cases hmined : response.mined <;>
        simp only [afterCall, answered, hmined, if_true, Bool.false_eq_true, if_false] <;>
        exact hseen.concat (by simp [ActivationEvent.registers, registrations, hmined]) rfl
          (Nat.le_refl 0) trivial
  case h_3 registry handle addr status answer =>
    rcases answer with err | response
    · exact hseen.concat rfl rfl (Nat.le_refl 0) trivial
    · cases hmined : response.mined <;>
        simp only [afterCall, answered, hmined, if_true, Bool.false_eq_true, if_false] <;>
        exact hseen.concat rfl (by simp [ActivationEvent.approves, approvals, hmined])
          (Nat.le_refl 0) trivial
  case h_4 signer answer =>
    cases answer <;> exact hseen.concat rfl rfl (Nat.le_refl 0) trivial
  case h_5 registry handle addr answer =>
    rcases answer with err | status
    · exact hseen.concat rfl rfl (Nat.le_refl 0) trivial
    · simp only [answered, checked]
      split
      next => exact hseen.concat rfl rfl (Nat.zero_le 1) trivial
      next => exact hseen.concat rfl rfl (Nat.le_refl 0) trivial
  case h_6 registry handle addr answer =>
    rcases answer with err | response
    · exact hseen.concat rfl rfl (Nat.le_refl 0) trivial
    · cases hmined : response.mined <;>
        simp only [afterCall, answered, hmined, if_true, Bool.false_eq_true, if_false] <;>
        exact hseen.concat rfl rfl (by simp [ActivationEvent.submits, submissions, hmined])
          trivial
  case h_7 signer answer =>
    cases answer <;> exact hseen.concat rfl rfl (Nat.le_refl 1) trivial
  case h_8 registry handle addr answer =>
    rcases answer with err | status
    · exact hseen.concat rfl rfl (Nat.le_refl 1) trivial
    · simp only [answered, polled]
      split <;> exact hseen.concat rfl rfl (Nat.le_refl 1) trivial
  case h_9 registry handle addr answer =>
    rcases answer with err | pub
    · exact hseen.concat rfl rfl (Nat.le_refl 1) trivial
    · simp only [answered, found]
      split
      next hknown => exact hseen.concat rfl rfl (Nat.le_refl 1) (knownAddress_ne hknown)
      next => exact hseen.concat rfl rfl (Nat.le_refl 1) trivial
  case h_10 publicAddress tokenAddr answer =>
    rcases answer with err | app
    · exact hseen.concat rfl rfl (Nat.le_refl 1) htold
    · exact hseen.concat rfl rfl (Nat.le_refl 1) ⟨htold.1, htold.2, said, hallowed ▸ rfl⟩
  case h_11 publicAddress app accessManagerAddr tokenAddr endpointAddr function answer =>
    obtain ⟨hne, hzero, before, rfl⟩ := htold
    obtain ⟨rfl, rfl, rfl, rfl⟩ := hallowed
    rcases answer with err | allowed
    · exact hseen.concat rfl rfl (Nat.le_refl 1) ⟨hne, hzero⟩
    · cases allowed
      · exact hseen.concat rfl rfl (Nat.le_refl 1) ⟨hne, hzero⟩
      · exact hseen.concat rfl rfl (Nat.le_refl 1) ⟨hne, hzero, before, app, by simp⟩
  case h_12 => cases hstep

/-- What has been said when a run of the protocol has reached a state. -/
theorem seen_of_run {token : IssuedToken} {selector : String} {said : List ActivationEvent}
    {final : ActivationState}
    (hrun : (activationProtocol token selector).run .unregistered said = some final) :
    final.Seen selector said := by
  have hstart : (ActivationState.unregistered).Seen selector [] :=
    ⟨rfl, rfl, Nat.le_refl 0, trivial⟩
  exact Machine.run_said (fun _ _ _ _ hseen hstep => hseen.step hstep) hstart hrun

end ActivationState

/-- What the activation promises of its requests to the chains. -/
structure ActivatesPublicly (token : IssuedToken) (selector : String)
    (outcome : Except JsError String) (said : List ActivationEvent) : Prop where
  /-- The requests follow the protocol, and an address is returned when it has been authorized. -/
  follows : ∃ final, (activationProtocol token selector).run .unregistered said = some final ∧
    ∀ publicAddress, outcome = .ok publicAddress ↔ final = .authorized publicAddress
  /-- No transaction is sent again after one like it was mined. -/
  once : said.countP ActivationEvent.registers ≤ 1 ∧ said.countP ActivationEvent.approves ≤ 1 ∧
    said.countP ActivationEvent.submits ≤ 1
  /-- The registration and the approval were mined, and the address that is returned may call the
  endpoint that its token has just named, by the manager that it has just named. -/
  returned : ∀ publicAddress, outcome = .ok publicAddress →
    said.countP ActivationEvent.registers = 1 ∧ said.countP ActivationEvent.approves = 1 ∧
      publicAddress ≠ "" ∧ publicAddress ≠ ZERO_ADDRESS ∧
      ∃ before app, said = before ++ [.readPublicApp publicAddress (.ok app),
        .canCall app.accessManagerAddr publicAddress app.endpointAddr selector (.ok true)]

theorem registrations_le (state : ActivationState) : state.registrations ≤ 1 := by
  cases state <;> simp [ActivationState.registrations]

theorem approvals_le (state : ActivationState) : state.approvals ≤ 1 := by
  cases state <;> simp [ActivationState.approvals]

theorem submissions_le (state : ActivationState) : state.submissions ≤ 1 := by
  cases state <;> simp [ActivationState.submissions]

/-- However the chains answer, the activation of an issued token keeps its promises. -/
theorem activateIssuedToken_activates [Host σ] (PARALLEL_WORKERS : Option String)
    (services : ActivationServices σ) (token : IssuedToken) (sendToAddressSelector : String) :
    Obeys (activateIssuedToken PARALLEL_WORKERS services token sendToAddressSelector)
      (ActivatesPublicly token sendToAddressSelector) := by
  have hfollows : Obeys (activateIssuedToken PARALLEL_WORKERS services token
      sendToAddressSelector) (Follows (activationProtocol token sendToAddressSelector)
        .unregistered .authorized ActivationState.Unfinished) :=
    follows_andThen (fun _ => .approved) activateOnPn_follows fun _ =>
      activateOnPublicChain_follows
  refine hfollows.imp fun outcome said hfollows => ?_
  obtain ⟨final, hrun⟩ := hfollows.accepted
  have hseen := ActivationState.seen_of_run hrun
  have houtcome : ∀ publicAddress,
      outcome = .ok publicAddress ↔ final = .authorized publicAddress := by
    intro publicAddress
    cases hfollows with
    | @resolved value _ hreached =>
        obtain rfl := Option.some.inj (hreached.symm.trans hrun)
        simp
    | rejected hreached hunfinished =>
        obtain rfl := Option.some.inj (hreached.symm.trans hrun)
        simpa using hunfinished publicAddress
  refine ⟨⟨final, hrun, houtcome⟩, ⟨?_, ?_, ?_⟩, ?_⟩
  · exact hseen.registered.trans_le (registrations_le final)
  · exact hseen.approved.trans_le (approvals_le final)
  · exact hseen.submitted.trans (submissions_le final)
  · intro publicAddress hok
    obtain rfl := (houtcome publicAddress).mp hok
    exact ⟨hseen.registered, hseen.approved, hseen.told⟩

end RaylsSuite.Tokens
