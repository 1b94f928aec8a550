import RaylsSuite.Tokens.HubActivation

/-! # Whose resource id an activation returns

An activation keeps the token that its lookup found, and the hub keeps what it
assigned. So whether the wrapper is bound to its own token is decided by the
registry at the one check that finds a token.
-/

namespace RaylsSuite.Tokens

open Config Foundation

/-! ## What the id is for -/

/-- The wrapper's id is the one that the hub assigned to its contract, and the contract's. -/
structure HubCall.Bound (hub : TokenHub) (call : HubCall) : Prop where
  assigned : hub.registry.Assigned call.resourceId call.address
  resourceId : hub.resourceId call.address = call.resourceId

/-- A check of the call's lookup comes upon the token. -/
def HubCall.Finds (hub : TokenHub) (call : HubCall) (token : HubToken) : Prop :=
  (∃ left, call.phase = .getAllTokens left) ∧
    hub.registry.getTokenFromRegistry call.symbol = some token

/-- When a lookup of the call finds a token, the first with its symbol is that of its contract. -/
def FindsOwn (position : Nat) (state : HubActivations) : HubEvent → Prop
  | .resolved moved => moved = position → ∀ call token, state.calls[position]? = some call →
      call.Finds state.hub token → token.contract = call.address
  | _ => True

/-! ## What a step does -/

/-- What the hub assigned and the contracts got stays. -/
structure TokenHub.Extends (hub next : TokenHub) : Prop where
  assigned : ∀ resourceId contract, hub.registry.Assigned resourceId contract →
    next.registry.Assigned resourceId contract
  activated : ∀ contract, hub.resourceId contract ≠ ZERO_HASH →
    next.resourceId contract ≠ ZERO_HASH

namespace TokenHub

variable {hub next : TokenHub}

theorem Extends.refl (hub : TokenHub) : hub.Extends hub := ⟨fun _ _ => id, fun _ => id⟩

theorem extends_submitToHub (contract symbol : String) :
    hub.Extends (hub.submitToHub contract symbol) := ⟨fun _ _ => id, fun _ => id⟩

/-- An added token only extends the hub. -/
theorem extends_addToken {submission position status : Nat} {resourceId : String}
    (hadded : hub.addToken submission position resourceId status = some next) :
    hub.Extends next := by
  obtain ⟨submitted, -, hadded⟩ := Option.bind_eq_some_iff.mp hadded
  split at hadded
  next => cases hadded
  next registry hregistry =>
    obtain rfl := Option.some.inj hadded
    exact ⟨fun _ _ hassigned => hassigned.addToken hregistry, fun _ => id⟩

/-- A status update only extends the hub. -/
theorem extends_updateStatus {resourceId : String} {status : Nat}
    (hupdated : hub.updateStatus resourceId status = some next) : hub.Extends next := by
  unfold updateStatus at hupdated
  split at hupdated
  next => cases hupdated
  next =>
    obtain rfl := Option.some.inj hupdated
    exact ⟨fun _ _ hassigned => hassigned.updateStatus status, fun _ => id⟩

/-- An activation only extends the hub. -/
theorem extends_activateToken {callback : Nat}
    (hactivated : hub.activateToken callback = some next) : hub.Extends next := by
  unfold activateToken at hactivated
  split at hactivated
  next => cases hactivated
  next delivered hcallback =>
    obtain rfl := Option.some.inj hactivated
    refine ⟨fun _ _ => id, fun contract hset => ?_⟩
    by_cases hcontract : contract = delivered.contract
    · subst hcontract
      simpa using (hub.requested delivered (List.mem_of_getElem? hcallback)).ne_zero
    · simpa [hcontract] using hset

end TokenHub

/-- Whether a call in the phase has found a token, unless an error has ended it. -/
def HubPhase.looked : HubPhase → Option Bool
  | .getPnTokenRegistry | .submitToHub | .getAllTokens _ => some false
  | .getTokenRegistryAsOperator | .getTokenByResourceId | .updateStatus | .resourceId _
  | .returned => some true
  | .threw => none

namespace HubCall

/-- A step of a call that leaves its token. -/
structure Kept (hub : TokenHub) (call : HubCall) (step : HubCall × TokenHub) : Prop where
  frame : step.1 = { call with phase := step.1.phase }
  extended : hub.Extends step.2
  looked : ∀ found, step.1.phase.looked = some found → call.phase.looked = some found
  returned : step.1.phase = .returned → step.2.resourceId call.address ≠ ZERO_HASH

variable {hub next : TokenHub} {call : HubCall} {step : HubCall × TokenHub}

theorem kept_of_phase {phase : HubPhase} (hextends : hub.Extends next)
    (hlooked : ∀ found, phase.looked = some found → call.phase.looked = some found)
    (hreturned : phase ≠ .returned) : call.Kept hub ({ call with phase }, next) :=
  ⟨rfl, hextends, hlooked, fun hphase => absurd hphase hreturned⟩

theorem kept_threw (hextends : hub.Extends next) :
    call.Kept hub ({ call with phase := .threw }, next) :=
  kept_of_phase hextends (fun _ hlooked => by cases hlooked) (by simp)

theorem kept_attempt {check : Nat → HubPhase} (left : Nat) (hextends : hub.Extends next)
    (hlooked : ∀ left, (check left).looked = call.phase.looked)
    (hreturned : ∀ left, check left ≠ .returned) :
    call.Kept hub ({ call with phase := .attempt check left }, next) := by
  cases left with
  | zero => exact kept_threw hextends
  | succ left =>
      exact kept_of_phase hextends (fun _ hfound => hlooked left ▸ hfound) (hreturned left)

/-- An await that resolves finds a token, or it leaves the token and does not find one. -/
theorem resolved_cases {attempts : Nat} (hstep : call.resolved attempts hub = some step) :
    (∃ token, call.Finds hub token ∧ step = (call.found token, hub)) ∨
      (∀ token, ¬call.Finds hub token) ∧ call.Kept hub step := by
  unfold resolved at hstep
  have hrefl := TokenHub.Extends.refl hub
  have hnever : (∀ left, call.phase ≠ .getAllTokens left) → ∀ token, ¬call.Finds hub token :=
    fun hphase token hfinds => hphase _ hfinds.1.choose_spec
  split at hstep
  next hphase =>
    obtain rfl := Option.some.inj hstep
    exact .inr ⟨hnever (by simp [hphase]),
      kept_of_phase hrefl (by simp [hphase, HubPhase.looked]) (by simp)⟩
  next hphase =>
    obtain rfl := Option.some.inj hstep
    exact .inr ⟨hnever (by simp [hphase]), kept_attempt attempts
      (TokenHub.extends_submitToHub ..) (by simp [hphase, HubPhase.looked]) (by simp)⟩
  next left hphase =>
    split at hstep
    next hnone =>
      obtain rfl := Option.some.inj hstep
      refine .inr ⟨fun token hfinds => ?_, kept_attempt left hrefl
        (by simp [hphase, HubPhase.looked]) (by simp)⟩
      rw [hfinds.2] at hnone
      cases hnone
    next token hfound =>
      obtain rfl := Option.some.inj hstep
      exact .inl ⟨token, ⟨⟨left, hphase⟩, hfound⟩, rfl⟩
  next hphase =>
    obtain rfl := Option.some.inj hstep
    exact .inr ⟨hnever (by simp [hphase]),
      kept_of_phase hrefl (by simp [hphase, HubPhase.looked]) (by simp)⟩
  next hphase =>
    obtain ⟨token, -, rfl⟩ := Option.map_eq_some_iff.mp hstep
    refine .inr ⟨hnever (by simp [hphase]), ?_⟩
    split
    next => exact kept_attempt attempts hrefl (by simp [hphase, HubPhase.looked]) (by simp)
    next => exact kept_of_phase hrefl (by simp [hphase, HubPhase.looked]) (by simp)
  next hphase =>
    obtain ⟨updated, hupdated, rfl⟩ := Option.map_eq_some_iff.mp hstep
    exact .inr ⟨hnever (by simp [hphase]), kept_attempt attempts
      (TokenHub.extends_updateStatus hupdated) (by simp [hphase, HubPhase.looked]) (by simp)⟩
  next left hphase =>
    obtain rfl := Option.some.inj hstep
    refine .inr ⟨hnever (by simp [hphase]), ?_⟩
    split
    next hset => exact ⟨rfl, hrefl, by simp [hphase, HubPhase.looked], fun _ => hset⟩
    next => exact kept_attempt left hrefl (by simp [hphase, HubPhase.looked]) (by simp)
  next => cases hstep
  next => cases hstep

theorem rejected_kept {executed : Bool} (hstep : call.rejected hub executed = some step) :
    call.Kept hub step := by
  unfold rejected at hstep
  have hrefl := TokenHub.Extends.refl hub
  split at hstep
  iterate 4
    next => exact Option.some.inj hstep ▸ kept_threw hrefl
  next =>
    obtain rfl := Option.some.inj hstep
    apply kept_threw
    split
    next => exact TokenHub.extends_submitToHub ..
    next => exact hrefl
  next =>
    obtain ⟨updated, hupdated, rfl⟩ := Option.map_eq_some_iff.mp hstep
    apply kept_threw
    split at hupdated
    next => exact TokenHub.extends_updateStatus hupdated
    next => exact Option.some.inj hupdated ▸ hrefl
  next left hphase =>
    obtain rfl := Option.some.inj hstep
    exact kept_attempt left hrefl (by simp [hphase, HubPhase.looked]) (by simp)
  next => cases hstep
  next => cases hstep

/-- What holds of a call: it has found a token when its phase says so, it has taken the id of
that token, and it has returned only when its contract had one. -/
structure Held (hub : TokenHub) (call : HubCall) : Prop where
  looked : ∀ found, call.phase.looked = some found → call.tokenOnRegistry.isSome = found
  token : ∀ token, call.tokenOnRegistry = some token → call.resourceId = token.resourceId ∧
    hub.registry.Assigned token.resourceId token.contract
  returned : call.phase = .returned → hub.resourceId call.address ≠ ZERO_HASH

theorem held_activateOnHub (hub : TokenHub) (address symbol resourceId : String) :
    (activateOnHub address symbol resourceId).Held hub where
  looked _ hlooked := Option.some.inj hlooked
  token _ htoken := by cases htoken
  returned hphase := by cases hphase

theorem Held.extend (hheld : call.Held hub) (hextends : hub.Extends next) : call.Held next where
  looked := hheld.looked
  token token htoken := ⟨(hheld.token token htoken).1,
    hextends.assigned _ _ (hheld.token token htoken).2⟩
  returned hphase := hextends.activated _ (hheld.returned hphase)

theorem Kept.held (hkept : call.Kept hub step) (hheld : call.Held hub) : step.1.Held step.2 := by
  obtain ⟨hframe, hextends, hlooked, hreturned⟩ := hkept
  rw [hframe]
  exact ⟨fun found hfound => hheld.looked found (hlooked found hfound),
    (hheld.extend hextends).token, hreturned⟩

theorem held_found {token : HubToken} (hfinds : call.Finds hub token) :
    (call.found token).Held hub where
  looked _ hlooked := Option.some.inj hlooked
  token found hfound := by
    obtain rfl := Option.some.inj hfound
    exact ⟨rfl, TokenRegistry.assigned_of_find hfinds.2⟩
  returned hphase := by cases hphase

/-- A call that has returned is bound exactly when the token it found is its contract's. -/
theorem Held.bound_iff (hheld : call.Held hub) (hreturned : call.phase = .returned) :
    call.Bound hub ↔
      ∀ token, call.tokenOnRegistry = some token → token.contract = call.address := by
  have hset := hheld.returned hreturned
  have hlooked : call.tokenOnRegistry.isSome = true :=
    hheld.looked true (hreturned ▸ rfl)
  obtain ⟨token, htoken⟩ := Option.isSome_iff_exists.mp hlooked
  obtain ⟨hid, hassigned⟩ := hheld.token token htoken
  rw [← hid] at hassigned
  constructor
  · rintro hbound other hother
    obtain rfl := Option.some.inj (htoken.symm.trans hother)
    exact hassigned.contract_unique hbound.assigned
  · intro hown
    rw [hown token htoken] at hassigned
    exact ⟨hassigned, (hub.activated _ hset).resourceId_unique hassigned⟩

end HubCall

/-! ## Runs -/

namespace HubActivations

variable {PARALLEL_WORKERS : Option String} {state next : HubActivations} {event : HubEvent}
  {position : Nat}

def Inv (state : HubActivations) : Prop := ∀ call ∈ state.calls, call.Held state.hub

/-- The token that a call has found is its contract's. -/
def Own (position : Nat) (state : HubActivations) : Prop :=
  ∀ call token, state.calls[position]? = some call → call.tokenOnRegistry = some token →
    token.contract = call.address

/-- What a step can do. -/
inductive StepCase (state : HubActivations) : HubEvent → HubActivations → Prop where
  | began (address symbol resourceId : String) :
      StepCase state (.activateOnHub address symbol resourceId)
        { state with calls := state.calls ++ [.activateOnHub address symbol resourceId] }
  | found {moved : Nat} {call : HubCall} {token : HubToken} : state.calls[moved]? = some call →
      call.Finds state.hub token →
      StepCase state (.resolved moved) (state.moved moved (call.found token, state.hub))
  | kept {event : HubEvent} {moved : Nat} {call : HubCall} {step : HubCall × TokenHub} :
      state.calls[moved]? = some call → call.Kept state.hub step →
      (event = .resolved moved ∧ (∀ token, ¬call.Finds state.hub token) ∨
        ∃ executed, event = .rejected moved executed) →
      StepCase state event (state.moved moved step)
  | around {event : HubEvent} {hub : TokenHub} : state.hub.Extends hub →
      (∀ moved, event ≠ .resolved moved) → StepCase state event { state with hub }

/-- Every step of the activation machine is one that `StepCase` lists. -/
theorem stepCase (hstep : (machine PARALLEL_WORKERS).step state event = some next) :
    StepCase state event next := by
  cases event with
  | activateOnHub address symbol resourceId =>
      exact Option.some.inj hstep ▸ .began address symbol resourceId
  | resolved moved =>
      obtain ⟨call, hcall, hstep⟩ := Option.bind_eq_some_iff.mp hstep
      obtain ⟨step, hresolved, rfl⟩ := Option.map_eq_some_iff.mp hstep
      rcases HubCall.resolved_cases hresolved with ⟨token, hfinds, rfl⟩ | ⟨hnever, hkept⟩
      · exact .found hcall hfinds
      · exact .kept hcall hkept (.inl ⟨rfl, hnever⟩)
  | rejected moved executed =>
      obtain ⟨call, hcall, hstep⟩ := Option.bind_eq_some_iff.mp hstep
      obtain ⟨step, hrejected, rfl⟩ := Option.map_eq_some_iff.mp hstep
      exact .kept hcall (HubCall.rejected_kept hrejected) (.inr ⟨executed, rfl⟩)
  | submitToHub contract symbol =>
      exact Option.some.inj hstep ▸ .around (TokenHub.extends_submitToHub ..) (by simp)
  | addToken submission place resourceId status =>
      obtain ⟨hub, hadded, rfl⟩ := Option.map_eq_some_iff.mp hstep
      exact .around (TokenHub.extends_addToken hadded) (by simp)
  | updateStatus resourceId status =>
      obtain ⟨hub, hupdated, rfl⟩ := Option.map_eq_some_iff.mp hstep
      exact .around (TokenHub.extends_updateStatus hupdated) (by simp)
  | activateToken callback =>
      obtain ⟨hub, hactivated, rfl⟩ := Option.map_eq_some_iff.mp hstep
      exact .around (TokenHub.extends_activateToken hactivated) (by simp)

/-- The move of one call keeps what holds of the calls when it extends the hub. -/
theorem Inv.moved {step : HubCall × TokenHub} (hinv : state.Inv)
    (hextends : state.hub.Extends step.2) (hheld : step.1.Held step.2) (moved : Nat) :
    (state.moved moved step).Inv := by
  intro call hmem
  rcases List.mem_or_eq_of_mem_set hmem with hold | rfl
  · exact (hinv call hold).extend hextends
  · exact hheld

theorem inv_step (hinv : state.Inv)
    (hstep : (machine PARALLEL_WORKERS).step state event = some next) : next.Inv := by
  cases stepCase hstep with
  | began address symbol resourceId =>
      intro call hmem
      rcases List.mem_append.mp hmem with hold | hnew
      · exact hinv call hold
      · obtain rfl := List.mem_singleton.mp hnew
        exact HubCall.held_activateOnHub ..
  | found hcall hfinds =>
      exact hinv.moved (TokenHub.Extends.refl _) (HubCall.held_found hfinds) _
  | kept hcall hkept hevent =>
      exact hinv.moved hkept.extended (hkept.held (hinv _ (List.mem_of_getElem? hcall))) _
  | around hextends hevent => exact fun call hmem => (hinv call hmem).extend hextends

theorem own_moved {call : HubCall} {step : HubCall × TokenHub}
    (hcall : state.calls[position]? = some call) : Own position (state.moved position step) ↔
      ∀ token, step.1.tokenOnRegistry = some token → token.contract = step.1.address := by
  have hlt := (List.getElem?_eq_some_iff.mp hcall).1
  have hself : (state.moved position step).calls[position]? = some step.1 :=
    List.getElem?_set_self hlt
  constructor
  · exact fun hown token => hown step.1 token hself
  · rintro hown other token hother
    obtain rfl := Option.some.inj (hself.symm.trans hother)
    exact hown token

theorem own_moved_other {moved : Nat} {step : HubCall × TokenHub} (hne : moved ≠ position) :
    Own position (state.moved moved step) ↔ Own position state := by
  have hsame : (state.moved moved step).calls[position]? = state.calls[position]? :=
    List.getElem?_set_ne hne
  rw [Own, hsame, Own]

/-- A step leads to the own token exactly if its lookup finds it and it was not another before. -/
theorem own_step (hinv : state.Inv)
    (hstep : (machine PARALLEL_WORKERS).step state event = some next) :
    Own position next ↔ FindsOwn position state event ∧ Own position state := by
  cases stepCase hstep with
  | began address symbol resourceId =>
      refine Iff.trans ?_ (and_iff_right trivial).symm
      constructor
      · exact fun hown call token hcall => hown call token (lookup_concat.mpr (.inl hcall))
      · intro hown call token hcall htoken
        rcases lookup_concat.mp hcall with hold | ⟨-, rfl⟩
        · exact hown call token hold htoken
        · cases htoken
  | @found moved call token hcall hfinds =>
      by_cases hmoved : moved = position
      · subst hmoved
        have hnone : call.tokenOnRegistry = none := by
          obtain ⟨⟨left, hphase⟩, -⟩ := hfinds
          have hlooked := (hinv call (List.mem_of_getElem? hcall)).looked false (hphase ▸ rfl)
          simpa using hlooked
        rw [own_moved hcall]
        constructor
        · intro hown
          have hcontract : token.contract = call.address := hown token rfl
          refine ⟨fun _ other found hother hfound => ?_, fun other found hother hfound => ?_⟩
          · obtain rfl := Option.some.inj (hcall.symm.trans hother)
            obtain rfl := Option.some.inj (hfinds.2.symm.trans hfound.2)
            exact hcontract
          · obtain rfl := Option.some.inj (hcall.symm.trans hother)
            cases hnone.symm.trans hfound
        · rintro ⟨hallowed, -⟩ found hfound
          obtain rfl := Option.some.inj hfound
          exact hallowed rfl call token hcall hfinds
      · rw [own_moved_other hmoved]
        exact (and_iff_right fun hself => absurd hself hmoved).symm
  | @kept _ moved call step hcall hkept hevent =>
      have hallowed : FindsOwn position state event := by
        rcases hevent with ⟨rfl, hnever⟩ | ⟨executed, rfl⟩
        · intro hmoved other token hother hfinds
          subst hmoved
          obtain rfl := Option.some.inj (hcall.symm.trans hother)
          exact absurd hfinds (hnever token)
        · trivial
      refine Iff.trans ?_ (and_iff_right hallowed).symm
      by_cases hmoved : moved = position
      · subst hmoved
        rw [own_moved hcall, hkept.frame]
        constructor
        · intro hown other token hother
          obtain rfl := Option.some.inj (hcall.symm.trans hother)
          exact hown token
        · exact fun hown token => hown call token hcall
      · exact own_moved_other hmoved
  | around hextends hevent =>
      have hallowed : FindsOwn position state event := by
        cases event with
        | resolved moved => exact absurd rfl (hevent moved)
        | _ => trivial
      exact (and_iff_right hallowed).symm

end HubActivations

/-- For every registry, run and activation that returns in it: the wrapper is bound to its own
token exactly when the lookup of the activation finds that token. -/
theorem activateOnHub_bound_iff (PARALLEL_WORKERS : Option String) (hub : TokenHub)
    {schedule : List HubEvent} {final : HubActivations}
    (hrun : (HubActivations.machine PARALLEL_WORKERS).run ⟨hub, []⟩ schedule = some final)
    {position : Nat} {call : HubCall} (hcall : final.calls[position]? = some call)
    (hreturned : call.phase = .returned) :
    call.Bound final.hub ↔
      (HubActivations.machine PARALLEL_WORKERS).Guarded (FindsOwn position) ⟨hub, []⟩ schedule := by
  have hinitial : HubActivations.Inv ⟨hub, []⟩ := fun _ hmem => absurd hmem List.not_mem_nil
  have hheld : call.Held final.hub := Machine.run_invariant HubActivations.Inv
    (fun _ _ _ hinv hstep => HubActivations.inv_step hinv hstep) hinitial hrun call
    (List.mem_of_getElem? hcall)
  have hown : HubActivations.Own position final ↔ HubActivations.Own position ⟨hub, []⟩ ∧
      (HubActivations.machine PARALLEL_WORKERS).Guarded (FindsOwn position) ⟨hub, []⟩ schedule :=
    @Machine.final_iff_guarded _ _ _ (HubActivations.Own position) HubActivations.Inv
      (FindsOwn position) (fun _ _ _ hinv hstep => HubActivations.inv_step hinv hstep)
      (fun _ _ _ hinv hstep => HubActivations.own_step hinv hstep) _ _ _ hinitial hrun
  rw [hheld.bound_iff hreturned]
  refine Iff.trans ⟨?_, ?_⟩ (hown.trans (and_iff_right fun _ _ hnone => by cases hnone))
  · rintro hcontract other token hother
    obtain rfl := Option.some.inj (hcall.symm.trans hother)
    exact hcontract token
  · exact fun hfinal token => hfinal call token hcall

/-- A hub on which the contract `0xF` has a token of its own, with a symbol and an id. -/
def occupiedHub : TokenHub where
  registry := {
    tokens := [⟨"0x01", "0xF", "3fa9c1", 1⟩]
    resourceIds := List.nodup_singleton _
    contracts := List.nodup_singleton _
    assigned := by decide }
  submissions := []
  callbacks := []
  resourceId contract := if contract = "0xF" then "0x01" else ZERO_HASH
  requested _ hmem := absurd hmem List.not_mem_nil
  activated contract hset := by
    by_cases hcontract : contract = "0xF"
    · subst hcontract
      exact ⟨_, List.mem_singleton_self _, rfl, rfl⟩
    · simp [hcontract] at hset

/-- An activation of the contract `0xA`, whose token an operator approves before the wait. -/
def approvedRun (symbol : String) : List HubEvent :=
  [.activateOnHub "0xA" symbol symbol, .resolved 0, .resolved 0, .addToken 0 1 "0x02" 0,
    .resolved 0, .resolved 0, .updateStatus "0x02" 1, .resolved 0, .activateToken 0, .resolved 0]

/-- What is seen at the end of a run: the calls, and the id of the contract `0xA`. -/
def HubActivations.seen (state : HubActivations) : List HubCall × String :=
  (state.calls, state.hub.resourceId "0xA")

theorem activateOnHub_bound_iff_fresh : ∃ call : HubCall, ∃ final : HubActivations,
    (HubActivations.machine none).run ⟨occupiedHub, []⟩ (approvedRun "77b0e2") = some final ∧
      final.calls[0]? = some call ∧
      (call.Bound final.hub ↔ (HubActivations.machine none).Guarded (FindsOwn 0)
        ⟨occupiedHub, []⟩ (approvedRun "77b0e2")) := by
  have hseen : ((HubActivations.machine none).run ⟨occupiedHub, []⟩
      (approvedRun "77b0e2")).map HubActivations.seen =
        some ([⟨"0xA", "77b0e2", "0x02", some ⟨"0x02", "0xA", "77b0e2", 0⟩, .returned⟩],
          "0x02") := by
    decide +kernel
  obtain ⟨final, hrun, hfinal⟩ := Option.map_eq_some_iff.mp hseen
  have hcall : final.calls[0]? = some _ := congrArg (·.1[0]?) hfinal
  exact ⟨_, final, hrun, hcall, activateOnHub_bound_iff none occupiedHub hrun hcall rfl⟩

/-- With the symbol of the other token, the activation returns with that token's id. -/
theorem not_activateOnHub_bound : ¬∀ (PARALLEL_WORKERS : Option String) (hub : TokenHub)
    (schedule : List HubEvent) (final : HubActivations) (position : Nat) (call : HubCall),
    (HubActivations.machine PARALLEL_WORKERS).run ⟨hub, []⟩ schedule = some final →
    final.calls[position]? = some call → call.phase = .returned → call.Bound final.hub := by
  intro hclaim
  have hseen : ((HubActivations.machine none).run ⟨occupiedHub, []⟩
      (approvedRun "3fa9c1")).map HubActivations.seen =
        some ([⟨"0xA", "3fa9c1", "0x01", some ⟨"0x01", "0xF", "3fa9c1", 1⟩, .returned⟩],
          "0x02") := by
    decide +kernel
  obtain ⟨final, hrun, hfinal⟩ := Option.map_eq_some_iff.mp hseen
  have hcall : final.calls[0]? = some _ := congrArg (·.1[0]?) hfinal
  have hid : final.hub.resourceId "0xA" = "0x02" := congrArg Prod.snd hfinal
  have hbound := (hclaim none occupiedHub _ final 0 _ hrun hcall rfl).resourceId
  rw [hid] at hbound
  exact absurd hbound (by decide)

end RaylsSuite.Tokens
