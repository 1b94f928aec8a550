import RaylsSuite.Flows.TokenRegistration

/-! # A token and its user

The wallet that the backend was given last is the one that can sign, so a test
registers its token before it onboards its user. The token is minted once it is
authorized.
-/

namespace RaylsSuite.Flows

open Api Common Foundation Foundation.Dialogue

/-- What the tests of the backend start with. -/
structure BackendTokenContext where
  tokenAddressInPLA : String
  signerAddress : String
deriving DecidableEq, Repr

structure TokenForUserContext extends BackendTokenContext where
  addressPair : OnboardingResponse
deriving DecidableEq, Repr

/-- The status that a token is promoted to, unless it is left unregistered. -/
inductive RegisterAs where
  | status (newStatus : Nat)
  | skip
deriving DecidableEq, Repr

structure SetupOptions (MintArgs TransferArgs : Type) where
  nodeCount : Option Nat := none
  registerAs : Option RegisterAs := none
  mint : Option MintArgs := none
  transfer : Option TransferArgs := none

/-- `opts.registerAs ?? TokenStatus.AUTHORIZED`. -/
def SetupOptions.target {MintArgs TransferArgs : Type} (opts : SetupOptions MintArgs TransferArgs) :
    RegisterAs :=
  opts.registerAs.getD (.status TokenStatus.AUTHORIZED)

/-- The nodes, the token's wrapper and the backend. -/
structure SetupApi (σ MintArgs TransferArgs : Type) where
  initializePrivacyNodes : Nat → Async σ Failure Unit
  /-- The token is deployed on node A. -/
  deploy : Async σ Failure String
  getSignerAddress : Async σ Failure String
  mintAndAwait : String → MintArgs → Async σ Failure Unit
  /-- A wrapper need not have a transfer. -/
  transfer : Option (String → TransferArgs → Async σ Failure Unit)
  constructorName : String
  tokens : TokenApi σ
  users : OpsApi σ

inductive SetupEvent where
  | initializePrivacyNodes (answer : Except Failure Unit)
  | deploy (answer : Except Failure String)
  | getSignerAddress (answer : Except Failure String)
  | token (event : TokenEvent)
  | onboarding (event : OnboardingEvent)
  | mint (toAddress : String) (answer : Except Failure Unit)
  | transfer (to_ : String) (answer : Except Failure Unit)

variable {σ MintArgs TransferArgs : Type}

/-- A program that sets up a token for a user. -/
abbrev Setup (σ α : Type) := Async (Dialogue σ SetupEvent) Failure α

section Flow

variable [Host σ] (PARALLEL_WORKERS : Option String) (inspect : String → String)
  (api : SetupApi σ MintArgs TransferArgs)

def setupBackendTokenContext (opts : SetupOptions MintArgs TransferArgs) :
    Setup σ BackendTokenContext :=
  andThen (ask .initializePrivacyNodes (api.initializePrivacyNodes (opts.nodeCount.getD 1)) .ok)
    fun _ => andThen (ask .deploy api.deploy .ok) fun tokenAddressInPLA =>
      andThen (ask .getSignerAddress api.getSignerAddress .ok) fun signerAddress =>
        returns ⟨tokenAddressInPLA, signerAddress⟩

/-- The token is registered and promoted; an authorized one goes on to the public chain. -/
def registerForUser (tokenAddressInPLA : String) : RegisterAs → Registrar σ Unit
  | .skip => returns ()
  | .status registerAs =>
      andThen (registerTokenAndUpdateStatus PARALLEL_WORKERS inspect api.tokens tokenAddressInPLA
        registerAs) fun _ =>
          if registerAs = TokenStatus.AUTHORIZED then
            submitTokenToPublicChain api.tokens tokenAddressInPLA {}
          else returns ()

def mintForUser (opts : SetupOptions MintArgs TransferArgs) (ctx : BackendTokenContext) :
    Setup σ Unit :=
  match opts.mint with
  | none => returns ()
  | some mint =>
      if opts.target = .status TokenStatus.AUTHORIZED then
        ask (.mint ctx.signerAddress) (api.mintAndAwait ctx.signerAddress mint) .ok
      else throws (.error <| "setupTokenForUser: mint requires registerAs === AUTHORIZED " ++
        "(mint is gated by whenPrivacyNodeActive)")

def transferToUser (opts : SetupOptions MintArgs TransferArgs) (addressPair : OnboardingResponse) :
    Setup σ Unit :=
  match opts.transfer with
  | none => returns ()
  | some args =>
      match api.transfer with
      | some transfer => ask (.transfer addressPair.private_chain_address)
          (transfer addressPair.private_chain_address args) .ok
      | none => throws (.error
          s!"setupTokenForUser: transfer is not supported for {api.constructorName}")

def setupTokenForUser (opts : SetupOptions MintArgs TransferArgs) : Setup σ TokenForUserContext :=
  andThen (setupBackendTokenContext api opts) fun ctx =>
    andThen (lifted .token
      (registerForUser PARALLEL_WORKERS inspect api ctx.tokenAddressInPLA opts.target)) fun _ =>
        andThen (lifted .onboarding (onboardUserAndUpdateStatus PARALLEL_WORKERS api.users
          OnboardingStatus.APPROVED {})) fun addressPair =>
            andThen (mintForUser api opts ctx) fun _ =>
              andThen (transferToUser api opts addressPair) fun _ => returns ⟨ctx, addressPair⟩

end Flow

/-! ## What is said in a setup -/

namespace SetupEvent

def stage : SetupEvent → Nat
  | .initializePrivacyNodes _ => 0
  | .deploy _ => 1
  | .getSignerAddress _ => 2
  | .token event => 3 + tokenStaging.stage event
  | .onboarding event => 8 + onboardingStaging.stage event
  | .mint _ _ => 13
  | .transfer _ _ => 14

def Changes : SetupEvent → Prop
  | .token event => tokenStaging.Changes event
  | .onboarding event => onboardingStaging.Changes event
  | _ => True

end SetupEvent

def setupStaging : Staging SetupEvent where
  stage := SetupEvent.stage
  Changes := SetupEvent.Changes

/-- The pair was created, and nothing was asked about the token from then on. -/
def OnboardedLast (created : OnboardingResponse) (said : List SetupEvent) : Prop :=
  ∃ before after, said = before ++ .onboarding (.addAddressPair (.ok created)) :: after ∧
    ∀ event, .token event ∉ after

/-- The token was registered for its address, authorized and submitted to the public chain. -/
def Authorized (tokenAddressInPLA : String) (said : List SetupEvent) : Prop :=
  (∃ token tokens, .token (.registerToken tokenAddressInPLA (.ok token)) ∈ said ∧
    .token (.updateTokenStatus token.address TokenStatus.AUTHORIZED (.ok ())) ∈ said ∧
    .token (.listRegistry .updated (.ok tokens)) ∈ said ∧
    Shows tokens token.address TokenStatus.AUTHORIZED) ∧
  .token (.submitToken tokenAddressInPLA SubmitTarget.PUBLIC_CHAIN (.ok ())) ∈ said

/-- What a setup promises. -/
structure SetsUp (opts : SetupOptions MintArgs TransferArgs)
    (outcome : Except Failure TokenForUserContext) (said : List SetupEvent) : Prop where
  /-- The token's requests come before those for the user's pair, and these before the mint and
  the transfer; no request that was served is repeated. -/
  staged : said.Pairwise setupStaging.Precedes
  /-- A token that is to be left alone is not spoken of. -/
  skipped : opts.target = .skip → ∀ event, .token event ∉ said
  /-- Only an authorized token is minted. -/
  minted : ∀ toAddress answer, .mint toAddress answer ∈ said → ∃ tokenAddressInPLA,
    .deploy (.ok tokenAddressInPLA) ∈ said ∧ .getSignerAddress (.ok toAddress) ∈ said ∧
      Authorized tokenAddressInPLA said
  /-- The pair that is returned was created behind the token's requests, and the balance goes to
  its private address. -/
  returned : ∀ ctx, outcome = .ok ctx → ∃ created, OnboardedLast created said ∧
    ctx.addressPair.isPair created = true ∧ ctx.addressPair.status = OnboardingStatus.APPROVED ∧
    ∀ to_ answer, .transfer to_ answer ∈ said → to_ = ctx.addressPair.private_chain_address

theorem SetupEvent.token_stage_lt (event : TokenEvent) : stage (.token event) < 8 := by
  cases event with
  | registerToken address answer => exact (by decide : 3 + 0 < 8)
  | listRegistry wait answer =>
      cases wait with
      | registered => exact (by decide : 3 + 1 < 8)
      | updated => exact (by decide : 3 + 3 < 8)
  | updateTokenStatus address status answer => exact (by decide : 3 + 2 < 8)
  | submitToken address target answer => exact (by decide : 3 + 4 < 8)

/-- In a staged setup nothing is asked about the token once a pair was added. -/
theorem onboardedLast_of_added {said : List SetupEvent} {created : OnboardingResponse}
    (hstaged : said.Pairwise setupStaging.Precedes)
    (hadded : .onboarding (.addAddressPair (.ok created)) ∈ said) : OnboardedLast created said := by
  obtain ⟨before, after, rfl, hafter⟩ := Staging.exists_split hstaged hadded trivial
  refine ⟨before, after, rfl, ?_⟩
  intro event hmem
  exact absurd (hafter _ hmem) (Nat.lt_asymm (SetupEvent.token_stage_lt event))

/-- What is said before the token is spoken of. -/
structure Prepares (outcome : Except Failure BackendTokenContext) (said : List SetupEvent) :
    Prop where
  within : setupStaging.Within 0 3 said
  returned : ∀ ctx, outcome = .ok ctx → .deploy (.ok ctx.tokenAddressInPLA) ∈ said ∧
    .getSignerAddress (.ok ctx.signerAddress) ∈ said

/-- What is said about a token that a user is to get. -/
structure Enables (tokenAddressInPLA : String) (target : RegisterAs) (outcome : Except Failure Unit)
    (said : List TokenEvent) : Prop where
  within : tokenStaging.Within 0 5 said
  skipped : target = .skip → said = []
  returned : outcome = .ok () → target = .status TokenStatus.AUTHORIZED →
    Authorized tokenAddressInPLA (said.map .token)

/-- What is said once the user has a pair. -/
structure Endows (opts : SetupOptions MintArgs TransferArgs) (ctx : BackendTokenContext)
    (addressPair : OnboardingResponse) (outcome : Except Failure TokenForUserContext)
    (said : List SetupEvent) : Prop where
  within : setupStaging.Within 13 15 said
  minted : ∀ toAddress answer, .mint toAddress answer ∈ said →
    toAddress = ctx.signerAddress ∧ opts.target = .status TokenStatus.AUTHORIZED
  transferred : ∀ to_ answer, .transfer to_ answer ∈ said →
    to_ = addressPair.private_chain_address
  returned : ∀ result, outcome = .ok result → result = ⟨ctx, addressPair⟩

section Laws

variable [Host σ] {PARALLEL_WORKERS : Option String} {inspect : String → String}
  {api : SetupApi σ MintArgs TransferArgs}

omit [Host σ] in
/-- Setting up the token context only prepares. -/
theorem setupBackendTokenContext_obeys (opts : SetupOptions MintArgs TransferArgs) :
    Obeys (setupBackendTokenContext api opts) Prepares := by
  refine ((obeys_ask _ _ _).andThen fun _ => (obeys_ask _ _ _).andThen fun tokenAddressInPLA =>
    (obeys_ask _ _ _).andThen fun signerAddress =>
      obeys_returns (⟨tokenAddressInPLA, signerAddress⟩ : BackendTokenContext)).imp ?_
  intro outcome said hlaw
  have hsingle : ∀ {α : Type} {n : Nat} {event : Except Failure α → SetupEvent}
      {outcome : Except Failure α} {said : List SetupEvent},
      Law.asks event .ok outcome said → (∀ answer, setupStaging.stage (event answer) = n) →
        setupStaging.Within n (n + 1) said := by
    intro α n event outcome said hasks hstage
    obtain ⟨answer, rfl, _⟩ := hasks
    exact .singleton (hstage answer)
  have hwithin : setupStaging.Within 0 3 said :=
    .of_then hlaw (fun _ _ hasks => hsingle hasks fun _ => rfl)
      (fun _ _ _ hrest => .of_then hrest (fun _ _ hasks => hsingle hasks fun _ => rfl)
        (fun _ _ _ hrest => .of_then hrest (fun _ _ hasks => hsingle hasks fun _ => rfl)
          (fun _ _ _ hsilent => hsilent.2 ▸ .nil) (by decide) (Nat.le_refl 3))
        (by decide) (by decide)) (by decide) (by decide)
  refine ⟨hwithin, fun ctx hok => ?_⟩
  cases hlaw with
  | failed => cases hok
  | went _ hrest =>
      cases hrest with
      | failed => cases hok
      | went hdeployed hrest =>
          cases hrest with
          | failed => cases hok
          | went hsigner hsilent =>
              obtain ⟨_, rfl, hdeployed⟩ := hdeployed
              obtain ⟨_, rfl, hsigner⟩ := hsigner
              obtain rfl := Except.ok.inj (hsilent.1.symm.trans hok)
              rw [bind_ok] at hdeployed hsigner
              subst hdeployed hsigner
              simp

/-- Registering for the user enables the token as far as it is asked to. -/
theorem registerForUser_obeys (tokenAddressInPLA : String) (target : RegisterAs) :
    Obeys (registerForUser PARALLEL_WORKERS inspect api tokenAddressInPLA target)
      (Enables tokenAddressInPLA target) := by
  cases target with
  | skip =>
      refine (obeys_returns ()).imp fun _ _ hsilent => ?_
      obtain ⟨_, rfl⟩ := hsilent
      exact ⟨.nil, fun _ => rfl, fun _ hother => by cases hother⟩
  | status registerAs =>
      have hsubmit : Obeys (if registerAs = TokenStatus.AUTHORIZED then
          submitTokenToPublicChain api.tokens tokenAddressInPLA {} else returns ())
          fun outcome said => tokenStaging.Within 4 5 said ∧
            (outcome = .ok () → registerAs = TokenStatus.AUTHORIZED →
              .submitToken tokenAddressInPLA SubmitTarget.PUBLIC_CHAIN (.ok ()) ∈ said) := by
        split
        next =>
          have hretry : Obeys (submitTokenToPublicChain api.tokens tokenAddressInPLA {})
              (Retried (operatorRetry {} : RetryOptions (Dialogue σ TokenEvent) Failure) 20
                (.submitToken tokenAddressInPLA SubmitTarget.PUBLIC_CHAIN) .ok) :=
            obeys_retry (operatorRetry {}) fun _ _ _ => rfl
          refine hretry.imp fun outcome said hretried => ⟨?_, fun hok _ => ?_⟩
          · exact hretried.within (fun _ => rfl) fun _ => id
          · subst hok
            exact hretried.mem_ok
        next hother =>
          refine (obeys_returns ()).imp fun _ _ hsilent => ?_
          obtain ⟨_, rfl⟩ := hsilent
          exact ⟨.nil, fun _ hauthorized => absurd hauthorized hother⟩
      refine ((registerTokenAndUpdateStatus_obeys PARALLEL_WORKERS inspect api.tokens
        tokenAddressInPLA registerAs).andThen fun _ => hsubmit).imp ?_
      intro outcome said hlaw
      refine ⟨.of_then hlaw (fun _ _ hregistered => hregistered.within)
        (fun _ _ _ hsubmitted => hsubmitted.1) (by decide) (by decide),
        fun hskip => (by cases hskip), fun hok htarget => ?_⟩
      obtain rfl := RegisterAs.status.inj htarget
      cases hlaw with
      | failed => cases hok
      | @went token _ _ _ hregistered hsubmitted =>
          obtain ⟨hregister, _, hupdate, tokens, hlast, hshows⟩ := hregistered.returned rfl
          have hlisted := List.mem_of_getLast? hlast
          have hsubmit := hsubmitted.2 hok rfl
          refine ⟨⟨token, tokens, ?_, ?_, ?_, hshows⟩, ?_⟩ <;>
            refine List.mem_map_of_mem ?_
          · exact List.mem_append_left _ hregister
          · exact List.mem_append_left _ hupdate
          · exact List.mem_append_left _ hlisted
          · exact List.mem_append_right _ hsubmit

omit [Host σ] in
/-- The mint is asked for at most once, to the signer, and only when the target is an authorized
token. -/
theorem mintForUser_obeys (opts : SetupOptions MintArgs TransferArgs) (ctx : BackendTokenContext) :
    Obeys (mintForUser api opts ctx) fun _ said => said = [] ∨
      opts.target = .status TokenStatus.AUTHORIZED ∧
        ∃ answer, said = [.mint ctx.signerAddress answer] := by
  unfold mintForUser
  split
  next => exact (obeys_returns ()).imp fun _ _ hsilent => .inl hsilent.2
  next =>
    split
    next hauthorized =>
      refine (obeys_ask _ _ _).imp fun _ _ hasks => .inr ⟨hauthorized, ?_⟩
      obtain ⟨answer, rfl, _⟩ := hasks
      exact ⟨answer, rfl⟩
    next => exact (settles_throws _ fun _ => True).imp fun _ _ hsettles => .inl hsettles.1

omit [Host σ] in
/-- The transfer is asked for at most once, to the onboarded address. -/
theorem transferToUser_obeys (opts : SetupOptions MintArgs TransferArgs)
    (addressPair : OnboardingResponse) :
    Obeys (transferToUser api opts addressPair) fun _ said => said = [] ∨
      ∃ answer, said = [.transfer addressPair.private_chain_address answer] := by
  unfold transferToUser
  split
  next => exact (obeys_returns ()).imp fun _ _ hsilent => .inl hsilent.2
  next =>
    split
    next =>
      refine (obeys_ask _ _ _).imp fun _ _ hasks => .inr ?_
      obtain ⟨answer, rfl, _⟩ := hasks
      exact ⟨answer, rfl⟩
    next => exact (settles_throws _ fun _ => True).imp fun _ _ hsettles => .inl hsettles.1

omit [Host σ] in
/-- The mint and the transfer come last. -/
theorem endows_obeys (opts : SetupOptions MintArgs TransferArgs) (ctx : BackendTokenContext)
    (addressPair : OnboardingResponse) :
    Obeys (andThen (mintForUser api opts ctx) fun _ =>
        andThen (transferToUser api opts addressPair) fun _ =>
          returns (⟨ctx, addressPair⟩ : TokenForUserContext))
      (Endows opts ctx addressPair) := by
  have htransfer : Obeys (andThen (transferToUser api opts addressPair) fun _ =>
      returns (⟨ctx, addressPair⟩ : TokenForUserContext)) fun outcome said =>
        (said = [] ∨ ∃ answer, said = [.transfer addressPair.private_chain_address answer]) ∧
          ∀ result, outcome = .ok result → result = ⟨ctx, addressPair⟩ := by
    refine ((transferToUser_obeys opts addressPair).andThen fun _ => obeys_returns _).imp ?_
    intro outcome said hlaw
    cases hlaw with
    | failed hsaid => exact ⟨hsaid, fun _ hok => by cases hok⟩
    | went hsaid hsilent =>
        obtain ⟨rfl, rfl⟩ := hsilent
        rw [List.append_nil]
        exact ⟨hsaid, fun _ hok => (Except.ok.inj hok).symm⟩
  refine ((mintForUser_obeys opts ctx).andThen fun _ => htransfer).imp ?_
  intro outcome said hlaw
  have hmint : ∀ {said : List SetupEvent}, (said = [] ∨
      opts.target = .status TokenStatus.AUTHORIZED ∧
        ∃ answer, said = [.mint ctx.signerAddress answer]) → setupStaging.Within 13 14 said := by
    intro said hsaid
    rcases hsaid with rfl | ⟨_, answer, rfl⟩
    · exact .nil
    · exact .singleton rfl
  have hgive : ∀ {said : List SetupEvent}, (said = [] ∨
      ∃ answer, said = [.transfer addressPair.private_chain_address answer]) →
        setupStaging.Within 14 15 said := by
    intro said hsaid
    rcases hsaid with rfl | ⟨answer, rfl⟩
    · exact .nil
    · exact .singleton rfl
  refine ⟨.of_then hlaw (fun _ _ => hmint) (fun _ _ _ hrest => hgive hrest.1) (by decide)
    (by decide), ?_, ?_, ?_⟩
  · intro toAddress answer hmem
    cases hlaw with
    | failed hsaid =>
        rcases hsaid with rfl | ⟨hauthorized, _, rfl⟩
        · cases hmem
        · cases List.mem_singleton.mp hmem
          exact ⟨rfl, hauthorized⟩
    | went hsaid hrest =>
        rcases List.mem_append.mp hmem with hmem | hmem
        · rcases hsaid with rfl | ⟨hauthorized, _, rfl⟩
          · cases hmem
          · cases List.mem_singleton.mp hmem
            exact ⟨rfl, hauthorized⟩
        · exact absurd ((hgive hrest.1).bounds _ hmem).1 (Nat.not_succ_le_self 13)
  · intro to_ answer hmem
    cases hlaw with
    | failed hsaid => exact absurd ((hmint hsaid).bounds _ hmem).2 (Nat.lt_irrefl 14)
    | went hsaid hrest =>
        rcases List.mem_append.mp hmem with hmem | hmem
        · exact absurd ((hmint hsaid).bounds _ hmem).2 (Nat.lt_irrefl 14)
        · rcases hrest.1 with rfl | ⟨_, rfl⟩
          · cases hmem
          · cases List.mem_singleton.mp hmem
            rfl
  · intro result hok
    cases hlaw with
    | failed => cases hok
    | went _ hrest => exact hrest.2 result hok

end Laws

/-- The law of a setup. -/
def SetupLaw (σ : Type) (opts : SetupOptions MintArgs TransferArgs) :
    Law SetupEvent Failure TokenForUserContext :=
  Law.Then Prepares fun ctx =>
    Law.Then (Law.Lifted (Enables ctx.tokenAddressInPLA opts.target) .token) fun _ =>
      Law.Then (Law.Lifted (OnboardingLaw σ OnboardingStatus.APPROVED) .onboarding)
        fun addressPair => Endows opts ctx addressPair

/-- Every run of the setup obeys its law. -/
theorem setupTokenForUser_obeys [Host σ] (PARALLEL_WORKERS : Option String)
    (inspect : String → String) (api : SetupApi σ MintArgs TransferArgs)
    (opts : SetupOptions MintArgs TransferArgs) :
    Obeys (setupTokenForUser PARALLEL_WORKERS inspect api opts) (SetupLaw σ opts) :=
  (setupBackendTokenContext_obeys opts).andThen fun ctx =>
    ((registerForUser_obeys ctx.tokenAddressInPLA opts.target).lifted _).andThen fun _ =>
      ((onboardUserAndUpdateStatus_obeys PARALLEL_WORKERS api.users
        OnboardingStatus.APPROVED {}).lifted _).andThen fun addressPair =>
          endows_obeys opts ctx addressPair

section Flow

variable {opts : SetupOptions MintArgs TransferArgs}
  {outcome : Except Failure TokenForUserContext} {said : List SetupEvent}

theorem enables_within {tokenAddressInPLA : String} {target : RegisterAs}
    {outcome : Except Failure Unit}
    (hlifted : Law.Lifted (Enables tokenAddressInPLA target) SetupEvent.token outcome said) :
    setupStaging.Within 3 8 said := by
  obtain ⟨inner, henables, rfl⟩ := hlifted
  exact henables.within.map (fun _ => rfl) fun _ => id

theorem onboarding_within {newStatus : Nat} {outcome : Except Failure OnboardingResponse}
    (hlifted : Law.Lifted (OnboardingLaw σ newStatus) SetupEvent.onboarding outcome said) :
    setupStaging.Within 8 13 said := by
  obtain ⟨inner, hlaw, rfl⟩ := hlifted
  exact hlaw.within.map (fun _ => rfl) fun _ => id

theorem SetupLaw.within (hlaw : SetupLaw σ opts outcome said) :
    setupStaging.Within 0 15 said :=
  .of_then hlaw (fun _ _ hprepares => hprepares.within)
    (fun _ _ _ hrest => .of_then hrest (fun _ _ => enables_within)
      (fun _ _ _ hrest => .of_then hrest (fun _ _ => onboarding_within)
        (fun _ _ _ hendows => hendows.within) (by decide) (by decide))
      (by decide) (by decide)) (by decide) (by decide)

/-- The parts of a setup, those that it does not reach being empty. -/
structure SetupParts (opts : SetupOptions MintArgs TransferArgs) (prepared : List SetupEvent)
    (tokens : List TokenEvent) (users : List OnboardingEvent) (endowed : List SetupEvent) :
    Prop where
  early : setupStaging.Within 0 3 prepared
  skipped : opts.target = .skip → tokens = []
  late : setupStaging.Within 13 15 endowed
  minted : ∀ toAddress answer, .mint toAddress answer ∈ endowed → ∃ tokenAddressInPLA,
    .deploy (.ok tokenAddressInPLA) ∈ prepared ∧ .getSignerAddress (.ok toAddress) ∈ prepared ∧
      Authorized tokenAddressInPLA (tokens.map .token)

theorem SetupLaw.exists_parts (hlaw : SetupLaw σ opts outcome said) :
    ∃ prepared tokens users endowed, SetupParts opts prepared tokens users endowed ∧
      said = prepared ++ (tokens.map .token ++ (users.map .onboarding ++ endowed)) := by
  cases hlaw with
  | failed hprepares =>
      exact ⟨said, [], [], [], ⟨hprepares.within, fun _ => rfl, .nil,
        fun _ _ hmem => by cases hmem⟩, (List.append_nil said).symm⟩
  | @went ctx _ prepared _ hprepares hrest =>
      cases hrest with
      | failed hlifted =>
          obtain ⟨tokens, henables, rfl⟩ := hlifted
          exact ⟨prepared, tokens, [], [], ⟨hprepares.within, henables.skipped, .nil,
            fun _ _ hmem => by cases hmem⟩, by simp⟩
      | went hlifted hrest =>
          obtain ⟨tokens, henables, rfl⟩ := hlifted
          cases hrest with
          | failed hlifted =>
              obtain ⟨users, _, rfl⟩ := hlifted
              exact ⟨prepared, tokens, users, [], ⟨hprepares.within, henables.skipped, .nil,
                fun _ _ hmem => by cases hmem⟩, by simp⟩
          | @went _ _ _ endowed hlifted hendows =>
              obtain ⟨users, _, rfl⟩ := hlifted
              refine ⟨prepared, tokens, users, endowed, ⟨hprepares.within, henables.skipped,
                hendows.within, fun toAddress answer hmem => ?_⟩, rfl⟩
              obtain ⟨rfl, hauthorized⟩ := hendows.minted toAddress answer hmem
              obtain ⟨hdeployed, hsigner⟩ := hprepares.returned ctx rfl
              exact ⟨_, hdeployed, hsigner, henables.returned rfl hauthorized⟩

theorem Authorized.mono {tokenAddressInPLA : String} {part : List SetupEvent}
    (hauthorized : Authorized tokenAddressInPLA part) (hpart : part ⊆ said) :
    Authorized tokenAddressInPLA said := by
  obtain ⟨⟨token, tokens, hregistered, hupdated, hlisted, hshows⟩, hsubmitted⟩ := hauthorized
  exact ⟨⟨token, tokens, hpart hregistered, hpart hupdated, hpart hlisted, hshows⟩,
    hpart hsubmitted⟩

/-- A setup that skips the registration sends no request about tokens. -/
theorem SetupLaw.skipped (hlaw : SetupLaw σ opts outcome said) (hskip : opts.target = .skip)
    (event : TokenEvent) : .token event ∉ said := by
  obtain ⟨prepared, tokens, users, endowed, hparts, rfl⟩ := hlaw.exists_parts
  obtain rfl := hparts.skipped hskip
  intro hmem
  rcases List.mem_append.mp hmem with hmem | hmem
  · exact absurd (hparts.early.bounds _ hmem).2 (Nat.not_lt_of_le (Nat.le_add_right 3 _))
  · rcases List.mem_append.mp hmem with hmem | hmem
    · cases hmem
    · rcases List.mem_append.mp hmem with hmem | hmem
      · obtain ⟨_, _, heq⟩ := List.mem_map.mp hmem
        cases heq
      · have hearly : setupStaging.stage (.token event) < 8 := SetupEvent.token_stage_lt event
        exact absurd (hparts.late.bounds _ hmem).1
          (Nat.not_le_of_lt (Nat.lt_of_lt_of_le hearly (by decide)))

/-- A setup mints only to its signer, after the token was deployed and authorized. -/
theorem SetupLaw.minted (hlaw : SetupLaw σ opts outcome said) {toAddress : String}
    {answer : Except Failure Unit} (hminted : .mint toAddress answer ∈ said) :
    ∃ tokenAddressInPLA, .deploy (.ok tokenAddressInPLA) ∈ said ∧
      .getSignerAddress (.ok toAddress) ∈ said ∧ Authorized tokenAddressInPLA said := by
  obtain ⟨prepared, tokens, users, endowed, hparts, rfl⟩ := hlaw.exists_parts
  have hmem : .mint toAddress answer ∈ endowed := by
    rcases List.mem_append.mp hminted with hmem | hmem
    · exact absurd (hparts.early.bounds _ hmem).2 (by simp [setupStaging, SetupEvent.stage])
    · simpa using hmem
  obtain ⟨tokenAddressInPLA, hdeployed, hsigner, hauthorized⟩ :=
    hparts.minted toAddress answer hmem
  refine ⟨tokenAddressInPLA, List.mem_append_left _ hdeployed, List.mem_append_left _ hsigner,
    hauthorized.mono ?_⟩
  exact fun event hevent => List.mem_append_right _ (List.mem_append_left _ hevent)

theorem isPair_of_handsBack {created pair : OnboardingResponse} {said : List OnboardingEvent}
    (hands : HandsBack OnboardingStatus.APPROVED created pair said) :
    pair.isPair created = true ∧ pair.status = OnboardingStatus.APPROVED := by
  rw [HandsBack, if_pos rfl] at hands
  obtain ⟨mine, _, happroved⟩ := hands
  obtain ⟨hfound, hstatus⟩ := Option.filter_eq_some_iff.mp happroved
  rw [findAddressPair] at hfound
  have hpair := List.find?_some hfound
  exact ⟨hpair, of_decide_eq_true hstatus⟩

/-- What a setup returns is the pair of the onboarding, approved, and all transfers go to it. -/
theorem SetupLaw.returned (hlaw : SetupLaw σ opts outcome said) {ctx : TokenForUserContext}
    (hok : outcome = .ok ctx) : ∃ created, OnboardedLast created said ∧
      ctx.addressPair.isPair created = true ∧
      ctx.addressPair.status = OnboardingStatus.APPROVED ∧
      ∀ to_ answer, .transfer to_ answer ∈ said →
        to_ = ctx.addressPair.private_chain_address := by
  have hstaged := hlaw.within.staged
  cases hlaw with
  | failed => cases hok
  | went hprepares hrest =>
      cases hrest with
      | failed => cases hok
      | went henables hrest =>
          cases hrest with
          | failed => cases hok
          | went honboarding hendows =>
              have hbefore := onboarding_within honboarding
              obtain ⟨users, hlaw, rfl⟩ := honboarding
              obtain ⟨created, _, hadded, _, hands⟩ := hlaw.returned rfl
              obtain ⟨hpair, hstatus⟩ := isPair_of_handsBack hands
              obtain rfl := hendows.returned ctx hok
              refine ⟨created, onboardedLast_of_added hstaged ?_, hpair, hstatus, ?_⟩
              · simp [hadded]
              · intro to_ answer hmem
                have hlate : ∀ {part : List SetupEvent} {low high : Nat},
                    setupStaging.Within low high part → high ≤ 14 →
                      .transfer to_ answer ∉ part := fun hpart hhigh hmem =>
                  absurd (hpart.bounds _ hmem).2 (Nat.not_lt_of_le hhigh)
                rcases List.mem_append.mp hmem with hmem | hmem
                · exact absurd hmem (hlate hprepares.within (by decide))
                · rcases List.mem_append.mp hmem with hmem | hmem
                  · exact absurd hmem (hlate (enables_within henables) (by decide))
                  · rcases List.mem_append.mp hmem with hmem | hmem
                    · exact absurd hmem (hlate hbefore (by decide))
                    · exact hendows.transferred to_ answer hmem

end Flow

/-- In every run of a setup the token's requests come before those for the user's pair, so that
nothing is asked about the token once the returned pair was created; only a token that was
authorized and submitted before is minted, and the balance goes to that pair. -/
theorem setupTokenForUser_setsUp [Host σ] (PARALLEL_WORKERS : Option String)
    (inspect : String → String) (api : SetupApi σ MintArgs TransferArgs)
    (opts : SetupOptions MintArgs TransferArgs) :
    Obeys (setupTokenForUser PARALLEL_WORKERS inspect api opts) (SetsUp opts) := by
  refine (setupTokenForUser_obeys PARALLEL_WORKERS inspect api opts).imp ?_
  intro outcome said hlaw
  exact ⟨hlaw.within.staged, hlaw.skipped, fun _ _ => hlaw.minted, fun _ => hlaw.returned⟩

end RaylsSuite.Flows
