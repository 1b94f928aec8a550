import RaylsSuite.Flows.UserOnboarding

/-! # Registering a token

A user registers a token at the backend, an operator changes its status, and
the user's listing of the registry shows both. The backend submits transactions
for its requests, so that these are retried while it reports a transient error.
-/

namespace RaylsSuite.Flows

open Api Common Foundation Foundation.Dialogue

namespace TokenStatus

def UNDEFINED : Nat := 0
def WAITING_APPROVAL : Nat := 1
def AUTHORIZED : Nat := 2
def UNAUTHORIZED : Nat := 3
def FROZEN : Nat := 4

end TokenStatus

namespace SubmitTarget

def PUBLIC_CHAIN : String := "public_chain"

end SubmitTarget

/-- An entry of the registry. -/
structure TokenListResponse where
  address : String
  name : String
  symbol : String
  uri : String
  standard : Nat
  status : Nat
  updated_at : String
deriving DecidableEq, Repr

def TokenListResponse.json (token : TokenListResponse) : String :=
  String.intercalate ","
    [s!"\x7b\"address\":{JsVal.jsonString token.address}",
      s!"\"name\":{JsVal.jsonString token.name}",
      s!"\"symbol\":{JsVal.jsonString token.symbol}",
      s!"\"uri\":{JsVal.jsonString token.uri}",
      s!"\"standard\":{token.standard}",
      s!"\"status\":{token.status}",
      s!"\"updated_at\":{JsVal.jsonString token.updated_at}\x7d"]

instance : JsValue Failure (Option TokenListResponse) where
  truthy value := value.isSome
  stringify value := .ok ((value.map TokenListResponse.json).getD "undefined")

def sameAddress (first second : String) : Bool :=
  Text.toLowerCase first = Text.toLowerCase second

/-- The entry of the token with the status. -/
def listedToken (tokens : List TokenListResponse) (tokenAddress : String) (status : Nat) :
    Option TokenListResponse :=
  tokens.find? fun token => sameAddress token.address tokenAddress && token.status = status

/-- How the backend serves the requests about tokens. -/
structure TokenApi (σ : Type) where
  registerToken : String → Async σ Failure TokenListResponse
  listRegistry : Async σ Failure (List TokenListResponse)
  updateTokenStatus : String → Nat → Async σ Failure Unit
  submitToken : String → String → Async σ Failure Unit

/-- The wait for which the registry is listed. -/
inductive RegistryWait where
  | registered
  | updated
deriving DecidableEq, Repr

/-- A request about a token with its answer. -/
inductive TokenEvent where
  | registerToken (address : String) (answer : Except Failure TokenListResponse)
  | listRegistry (wait : RegistryWait) (answer : Except Failure (List TokenListResponse))
  | updateTokenStatus (address : String) (status : Nat) (answer : Except Failure Unit)
  | submitToken (address target : String) (answer : Except Failure Unit)

structure OperatorOpts where
  attempts : Option Nat := none
  delayMs : Option Nat := none

variable {σ : Type}

/-- A program in dialogue with the backend about a token. -/
abbrev Registrar (σ α : Type) := Async (Dialogue σ TokenEvent) Failure α

section Flow

variable [Host σ] (PARALLEL_WORKERS : Option String) (inspect : String → String)
  (api : TokenApi σ)

/-- The options of the retried registration; its `onRetry` only prints. -/
def registrationRetry : RetryOptions (Dialogue σ TokenEvent) Failure where
  attempts := 10
  delayMs := 3000
  retryIf := some TransientBackendError.isTransient

/-- The options of an operator's retried request; its `onRetry` only prints. -/
def operatorRetry (opts : OperatorOpts) : RetryOptions (Dialogue σ TokenEvent) Failure where
  attempts := opts.attempts.getD 20
  delayMs := opts.delayMs.getD 3000
  retryIf := some TransientBackendError.isTransient

def registryOptions (wait : RegistryWait) (tokenAddress : String) (status : Nat) :
    PollOptions (Dialogue σ TokenEvent) Failure (Option TokenListResponse) where
  check := ask (.listRegistry wait) api.listRegistry
    fun tokens => .ok (listedToken tokens tokenAddress status)
  interval := some 5000
  attempts := some 10

def pollUntilTokenStatusIsUpdated (wait : RegistryWait) (tokenAddress : String) (status : Nat) :
    Registrar σ (Option TokenListResponse) :=
  eventually PARALLEL_WORKERS (registryOptions api wait tokenAddress status)
    s!"Waiting for token {shortHex tokenAddress} status → {status}"

/-- `expect(registeredToken.address.toLowerCase()).to.be.equal(tokenAddressInPL.toLowerCase())`;
`inspect` renders a text in the message. -/
def expectSameAddress (address tokenAddressInPL : String) : Registrar σ Unit :=
  let actual := inspect (Text.toLowerCase address)
  let expected := inspect (Text.toLowerCase tokenAddressInPL)
  if sameAddress address tokenAddressInPL then returns ()
  else throws (.error s!"expected {actual} to equal {expected}")

def registerToken (tokenAddressInPL : String) : Registrar σ TokenListResponse :=
  andThen (retry (ask (.registerToken tokenAddressInPL) (api.registerToken tokenAddressInPL) .ok)
      registrationRetry) fun registeredToken =>
    andThen (expectSameAddress inspect registeredToken.address tokenAddressInPL) fun _ =>
      andThen (pollUntilTokenStatusIsUpdated PARALLEL_WORKERS api .registered
        registeredToken.address registeredToken.status) fun _ => returns registeredToken

def updateTokenStatus (address : String) (status : Nat) (opts : OperatorOpts) : Registrar σ Unit :=
  retry (ask (.updateTokenStatus address status) (api.updateTokenStatus address status) .ok)
    (operatorRetry opts)

def registerTokenAndUpdateStatus (tokenAddressInPL : String) (newStatus : Nat) :
    Registrar σ TokenListResponse :=
  andThen (registerToken PARALLEL_WORKERS inspect api tokenAddressInPL) fun registeredToken =>
    andThen (updateTokenStatus api registeredToken.address newStatus {}) fun _ =>
      andThen (pollUntilTokenStatusIsUpdated PARALLEL_WORKERS api .updated registeredToken.address
        newStatus) fun _ => returns registeredToken

def submitTokenToPublicChain (address : String) (opts : OperatorOpts) : Registrar σ Unit :=
  retry (ask (.submitToken address SubmitTarget.PUBLIC_CHAIN)
    (api.submitToken address SubmitTarget.PUBLIC_CHAIN) .ok) (operatorRetry opts)

end Flow

/-! ## What is said about a token -/

namespace TokenEvent

/-- The stage to which an event belongs. -/
def stage : TokenEvent → Nat
  | .registerToken _ _ => 0
  | .listRegistry .registered _ => 1
  | .updateTokenStatus _ _ _ => 2
  | .listRegistry .updated _ => 3
  | .submitToken _ _ _ => 4

/-- A token was registered, or the operator's request was served. -/
def Changes : TokenEvent → Prop
  | .registerToken _ (.ok _) => True
  | .updateTokenStatus _ _ (.ok _) => True
  | .submitToken _ _ (.ok _) => True
  | _ => False

end TokenEvent

def tokenStaging : Staging TokenEvent where
  stage := TokenEvent.stage
  Changes := TokenEvent.Changes

/-- The listing shows the token with the status. -/
def Shows (tokens : List TokenListResponse) (tokenAddress : String) (status : Nat) : Prop :=
  ∃ token ∈ tokens, sameAddress token.address tokenAddress = true ∧ token.status = status

/-- What the flow promises of the requests about the token. -/
structure Promotes (tokenAddressInPL : String) (newStatus : Nat)
    (outcome : Except Failure TokenListResponse) (said : List TokenEvent) : Prop where
  /-- The stages follow one another, and no request that was served is repeated. -/
  staged : said.Pairwise tokenStaging.Precedes
  /-- The operator only changes the status of the token that the backend registered for the
  address, after the registry showed it. -/
  targeted : ∀ address status answer, .updateTokenStatus address status answer ∈ said →
    ∃ token tokens, .registerToken tokenAddressInPL (.ok token) ∈ said ∧
      .listRegistry .registered (.ok tokens) ∈ said ∧ Shows tokens token.address token.status ∧
      sameAddress token.address tokenAddressInPL = true ∧ address = token.address ∧
      status = newStatus
  /-- A token is returned when the registry shows its new status, as it was registered. -/
  returned : ∀ token, outcome = .ok token →
    .registerToken tokenAddressInPL (.ok token) ∈ said ∧
      sameAddress token.address tokenAddressInPL = true ∧
      .updateTokenStatus token.address newStatus (.ok ()) ∈ said ∧
      ∃ tokens, said.getLast? = some (.listRegistry .updated (.ok tokens)) ∧
        Shows tokens token.address newStatus

/-- What is said while a token is registered. -/
structure Registers (tokenAddressInPL : String) (outcome : Except Failure TokenListResponse)
    (said : List TokenEvent) : Prop where
  within : tokenStaging.Within 0 2 said
  returned : ∀ token, outcome = .ok token →
    .registerToken tokenAddressInPL (.ok token) ∈ said ∧
      sameAddress token.address tokenAddressInPL = true ∧
      ∃ tokens, .listRegistry .registered (.ok tokens) ∈ said ∧
        Shows tokens token.address token.status

/-- What is said while a status is awaited. -/
structure Awaits {α : Type} (wait : RegistryWait) (tokenAddress : String) (status : Nat)
    (outcome : Except Failure α) (said : List TokenEvent) : Prop where
  idle : tokenStaging.Idle (TokenEvent.stage (.listRegistry wait (.ok []))) said
  returned : ∀ value, outcome = .ok value → ∃ tokens,
    said.getLast? = some (.listRegistry wait (.ok tokens)) ∧ Shows tokens tokenAddress status

section Laws

variable [Host σ] {PARALLEL_WORKERS : Option String} {inspect : String → String}
  {api : TokenApi σ} {said : List TokenEvent}

omit [Host σ] in
theorem shows_of_listedToken {tokens : List TokenListResponse} {tokenAddress : String}
    {status : Nat} (hlisted : (listedToken tokens tokenAddress status).isSome = true) :
    Shows tokens tokenAddress status := by
  obtain ⟨token, hmem, hmatches⟩ := List.find?_isSome.mp hlisted
  rw [Bool.and_eq_true, decide_eq_true_eq] at hmatches
  exact ⟨token, hmem, hmatches⟩

/-- A wait on the registry ends with a listing that shows the status. -/
theorem pollUntilTokenStatusIsUpdated_obeys {α : Type} (wait : RegistryWait)
    (tokenAddress : String) (status : Nat) (value : α) :
    Obeys (andThen (pollUntilTokenStatusIsUpdated PARALLEL_WORKERS api wait tokenAddress status)
      fun _ => returns value) fun outcome said => Awaits wait tokenAddress status outcome said ∧
        ∀ other, outcome = .ok other → other = value := by
  refine ((obeys_eventually PARALLEL_WORKERS (registryOptions api wait tokenAddress status) rfl
    _).andThen fun _ => obeys_returns value).imp ?_
  intro outcome said hlaw
  have hstage : ∀ answer : Except Failure (List TokenListResponse),
      tokenStaging.stage (.listRegistry wait answer) =
        TokenEvent.stage (.listRegistry wait (.ok [])) ∧
        ¬tokenStaging.Changes (.listRegistry wait answer) := by
    intro answer
    cases wait <;> exact ⟨rfl, id⟩
  cases hlaw with
  | failed hasked =>
      exact ⟨⟨hasked.idle hstage, fun _ hok => by cases hok⟩, fun _ hok => by cases hok⟩
  | went hasked hsilent =>
      have hidle := hasked.idle hstage
      obtain ⟨undecided, tokens, hread, htruthy, rfl⟩ := hasked.of_ok
      obtain ⟨rfl, rfl⟩ := hsilent
      rw [List.append_nil]
      refine ⟨⟨hidle, fun _ _ => ⟨tokens, by simp, ?_⟩⟩, fun other hok => (Except.ok.inj hok).symm⟩
      obtain rfl := Except.ok.inj hread
      exact shows_of_listedToken htruthy

omit [Host σ] in
theorem expectSameAddress_obeys (address tokenAddressInPL : String) :
    Obeys (expectSameAddress inspect address tokenAddressInPL : Registrar σ Unit)
      (Law.settles fun _ => sameAddress address tokenAddressInPL = true) := by
  unfold expectSameAddress
  split
  next hsame => exact settles_returns hsame
  next => exact settles_throws _ _

/-- A token is registered once, and then awaited. -/
theorem registerToken_obeys (tokenAddressInPL : String) :
    Obeys (registerToken PARALLEL_WORKERS inspect api tokenAddressInPL)
      (Registers tokenAddressInPL) := by
  have hregister : Obeys (retry (ask (.registerToken tokenAddressInPL)
      (api.registerToken tokenAddressInPL) .ok) (registrationRetry (σ := σ)))
        (Retried registrationRetry 10 (.registerToken tokenAddressInPL) .ok) :=
    obeys_retry registrationRetry fun _ _ _ => rfl
  refine (hregister.andThen fun registeredToken => (expectSameAddress_obeys 
    registeredToken.address tokenAddressInPL).andThen fun _ =>
      pollUntilTokenStatusIsUpdated_obeys .registered registeredToken.address
        registeredToken.status registeredToken).imp ?_
  intro outcome said hlaw
  cases hlaw with
  | failed hretried =>
      exact ⟨(hretried.within (fun _ => rfl) fun _ => id).mono (Nat.le_refl 0) (by decide),
        fun _ hok => by cases hok⟩
  | went hretried hrest =>
      have hregistered : tokenStaging.Within 0 1 _ := hretried.within (fun _ => rfl) fun _ => id
      cases hrest with
      | failed hexpected =>
          obtain ⟨rfl, _⟩ := hexpected
          exact ⟨hregistered.append .nil (by decide) (by decide), fun _ hok => by cases hok⟩
      | went hexpected hawaited =>
          obtain ⟨rfl, hsame⟩ := hexpected
          obtain ⟨⟨hidle, hshown⟩, hvalue⟩ := hawaited
          refine ⟨hregistered.append hidle.within (by decide) (by decide), fun token hok => ?_⟩
          obtain rfl := hvalue token hok
          obtain ⟨tokens, hlast, hshows⟩ := hshown token hok
          exact ⟨List.mem_append_left _ hretried.mem_ok, hsame _ rfl, tokens,
            List.mem_append_right _ (List.mem_of_getLast? hlast), hshows⟩

end Laws

/-- The law of the flow: a token is registered, its status is changed, and that is awaited. -/
def RegistrationLaw (σ : Type) (tokenAddressInPL : String) (newStatus : Nat) :
    Law TokenEvent Failure TokenListResponse :=
  Law.Then (Registers tokenAddressInPL) fun registeredToken =>
    Law.Then (Retried (operatorRetry {} : RetryOptions (Dialogue σ TokenEvent) Failure) 20
      (.updateTokenStatus registeredToken.address newStatus) .ok) fun _ outcome said =>
        Awaits .updated registeredToken.address newStatus outcome said ∧
          ∀ other, outcome = .ok other → other = registeredToken

/-- Every run of the flow obeys the law of the registration. -/
theorem registerTokenAndUpdateStatus_obeys [Host σ] (PARALLEL_WORKERS : Option String)
    (inspect : String → String) (api : TokenApi σ) (tokenAddressInPL : String) (newStatus : Nat) :
    Obeys (registerTokenAndUpdateStatus PARALLEL_WORKERS inspect api tokenAddressInPL newStatus)
      (RegistrationLaw σ tokenAddressInPL newStatus) :=
  (registerToken_obeys tokenAddressInPL).andThen fun registeredToken =>
    Obeys.andThen (obeys_retry (operatorRetry {}) fun _ _ _ => rfl) fun _ =>
      pollUntilTokenStatusIsUpdated_obeys .updated registeredToken.address newStatus
        registeredToken

section Flow

variable {tokenAddressInPL : String} {newStatus : Nat} {outcome : Except Failure TokenListResponse}
  {said : List TokenEvent}

theorem RegistrationLaw.within (hlaw : RegistrationLaw σ tokenAddressInPL newStatus outcome said) :
    tokenStaging.Within 0 4 said :=
  .of_then hlaw (fun _ _ hregisters => hregisters.within)
    (fun _ _ _ hrest => .of_then hrest
      (fun _ _ hretried => hretried.within (fun _ => rfl) fun _ => id)
      (fun _ _ _ hawaits => hawaits.1.idle.within) (by decide) (by decide))
    (by decide) (by decide)

/-- A token that the flow returns was registered, and its status was updated. -/
theorem RegistrationLaw.returned (hlaw : RegistrationLaw σ tokenAddressInPL newStatus outcome said)
    {token : TokenListResponse} (hok : outcome = .ok token) :
    .registerToken tokenAddressInPL (.ok token) ∈ said ∧
      sameAddress token.address tokenAddressInPL = true ∧
      .updateTokenStatus token.address newStatus (.ok ()) ∈ said ∧
      ∃ tokens, said.getLast? = some (.listRegistry .updated (.ok tokens)) ∧
        Shows tokens token.address newStatus := by
  cases hlaw with
  | failed => cases hok
  | went hregisters hrest =>
      cases hrest with
      | failed => cases hok
      | went hretried hawaits =>
          obtain rfl := hawaits.2 token hok
          obtain ⟨hregistered, hsame, _⟩ := hregisters.returned token rfl
          obtain ⟨tokens, hlast, hshows⟩ := hawaits.1.returned token hok
          refine ⟨List.mem_append_left _ hregistered, hsame,
            List.mem_append_right _ (List.mem_append_left _ hretried.mem_ok), tokens, ?_, hshows⟩
          rw [List.getLast?_append, List.getLast?_append, hlast]
          rfl

/-- A status is updated only for the token that was registered. -/
theorem RegistrationLaw.targeted (hlaw : RegistrationLaw σ tokenAddressInPL newStatus outcome said)
    {address : String} {status : Nat} {answer : Except Failure Unit}
    (hupdated : .updateTokenStatus address status answer ∈ said) :
    ∃ token tokens, .registerToken tokenAddressInPL (.ok token) ∈ said ∧
      .listRegistry .registered (.ok tokens) ∈ said ∧ Shows tokens token.address token.status ∧
      sameAddress token.address tokenAddressInPL = true ∧ address = token.address ∧
      status = newStatus := by
  have hearly : ∀ {outcome : Except Failure TokenListResponse} {said : List TokenEvent},
      Registers tokenAddressInPL outcome said →
        .updateTokenStatus address status answer ∉ said := fun hregisters hmem =>
    absurd (hregisters.within.bounds _ hmem).2 (Nat.lt_irrefl 2)
  cases hlaw with
  | failed hregisters => exact absurd hupdated (hearly hregisters)
  | @went token _ _ _ hregisters hrest =>
      have hupdated := (List.mem_append.mp hupdated).resolve_left (hearly hregisters)
      obtain ⟨hregistered, hsame, tokens, hlisted, hshows⟩ := hregisters.returned token rfl
      refine ⟨token, tokens, List.mem_append_left _ hregistered, List.mem_append_left _ hlisted,
        hshows, hsame, ?_⟩
      cases hrest with
      | failed hretried =>
          obtain ⟨_, heq⟩ := hretried.of_mem hupdated
          cases heq
          exact ⟨rfl, rfl⟩
      | went hretried hawaits =>
          rcases List.mem_append.mp hupdated with hupdated | hupdated
          · obtain ⟨_, heq⟩ := hretried.of_mem hupdated
            cases heq
            exact ⟨rfl, rfl⟩
          · exact absurd (hawaits.1.idle _ hupdated).1 (Nat.succ_ne_self 2).symm

end Flow

/-- In every run the operator changes the status of the token that the backend registered for the
address and that the registry showed, and once at most with success; a token is returned when
the registry showed its new status. -/
theorem registerTokenAndUpdateStatus_promotes [Host σ] (PARALLEL_WORKERS : Option String)
    (inspect : String → String) (api : TokenApi σ) (tokenAddressInPL : String) (newStatus : Nat) :
    Obeys (registerTokenAndUpdateStatus PARALLEL_WORKERS inspect api tokenAddressInPL newStatus)
      (Promotes tokenAddressInPL newStatus) := by
  refine (registerTokenAndUpdateStatus_obeys PARALLEL_WORKERS inspect api tokenAddressInPL
    newStatus).imp ?_
  intro outcome said hlaw
  exact ⟨hlaw.within.staged, fun _ _ _ => hlaw.targeted, fun _ => hlaw.returned⟩

end RaylsSuite.Flows
