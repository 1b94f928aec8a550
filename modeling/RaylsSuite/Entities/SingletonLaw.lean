import RaylsSuite.Entities.GetInstance

/-! # One instance for a key

Two calls for one key may both find the registry empty. Which instance a call
registers is sound in any case; that there is one instance needs more.
-/

namespace RaylsSuite.Entities

open Foundation Common Config

variable {Object Pending Reply : Type}

namespace NodeRegistry

/-- Calls for one key that return return one instance. -/
def OneInstance (registry : NodeRegistry Object Pending) : Prop :=
  ∀ first ∈ registry.calls, ∀ second ∈ registry.calls, first.key = second.key →
    ∀ owner other, first.status = .returned owner → second.status = .returned other →
      owner = other

/-- Calls for one key return one instance, which has completed its `initialize()`, and a
call that throws leaves no instance registered for its key. -/
structure Singleton (registry : NodeRegistry Object Pending) : Prop where
  same : registry.OneInstance
  completed : ∀ call ∈ registry.calls, ∀ owner, call.status = .returned owner →
    ∃ owning, registry.calls[owner]? = some owning ∧ owning.key = call.key ∧
      owning.settled = some (.ok ())
  unregistered : ∀ call ∈ registry.calls, ∀ err registered,
    call.status = .threw err registered → registered = none

/-- A call that resumes after its `initialize()` finds no instance registered for its key. -/
def Exclusive (registry : NodeRegistry Object Pending) : InstanceLabel Reply → Prop
  | .finish caller => ∀ call, registry.calls[caller]? = some call →
      registry.registered call.key = none
  | _ => True

/-- The registered instance of a key was registered by the call that constructed it, and no
key loses its instance. -/
structure Registered (registry : NodeRegistry Object Pending) : Prop where
  owner : ∀ key owner, registry.registered key = some owner →
    ∃ owning, registry.calls[owner]? = some owning ∧ owning.key = key ∧
      owning.settled = some (.ok ()) ∧ owning.status = .returned owner
  kept : ∀ call ∈ registry.calls, ∀ owner, call.status = .returned owner →
    registry.registered call.key ≠ none

/-! ## The registered instances -/

section Moves

variable {registry next : NodeRegistry Object Pending} {label : InstanceLabel Reply}

theorem mem_advance {caller : Nat} {new call : InstanceCall Object Pending}
    (hcall : call ∈ (registry.advance caller new).calls) : call ∈ registry.calls ∨ call = new :=
  List.mem_or_eq_of_mem_set hcall

/-- A call that has returned is not the one that a step advances. -/
theorem getElem_advance {caller owner : Nat} {old owning : InstanceCall Object Pending}
    (new : InstanceCall Object Pending) (hold : registry.calls[caller]? = some old) (hworking : old.status.working = true)
    (howning : registry.calls[owner]? = some owning) (hreturned : owning.status = .returned owner) :
    (registry.advance caller new).calls[owner]? = some owning := by
  have hne : caller ≠ owner := by
    intro hsame
    subst hsame
    obtain rfl := Option.some.inj (hold.symm.trans howning)
    exact working_ne_returned hworking caller hreturned
  rw [advance, List.getElem?_set_ne hne, howning]

theorem getElem_advance_self {caller : Nat} {old new : InstanceCall Object Pending}
    (hold : registry.calls[caller]? = some old) :
    (registry.advance caller new).calls[caller]? = some new :=
  List.getElem?_set_self (List.getElem?_eq_some_iff.mp hold).1

theorem Registered.start : (start : NodeRegistry Object Pending).Registered where
  owner _ _ hregistered := by cases hregistered
  kept _ hcall := absurd hcall List.not_mem_nil

/-- A step that only advances a call, without letting it return. -/
theorem Registered.advance (hregistered : registry.Registered) {caller : Nat}
    {old new : InstanceCall Object Pending} (hold : registry.calls[caller]? = some old)
    (hworking : old.status.working = true) (hnew : ∀ owner, new.status ≠ .returned owner) :
    (registry.advance caller new).Registered where
  owner key owner howner := by
    obtain ⟨owning, howning, hkey, hsettled, hstatus⟩ := hregistered.owner key owner howner
    exact ⟨owning, getElem_advance _ hold hworking howning hstatus, hkey, hsettled, hstatus⟩
  kept call hcall owner hstatus := by
    rcases mem_advance hcall with hcall | rfl
    · exact hregistered.kept call hcall owner hstatus
    · exact absurd hstatus (hnew owner)

/-- A step that lets a call register its instance and return it. -/
theorem Registered.register (hregistered : registry.Registered) {caller : Nat}
    {old new : InstanceCall Object Pending} (hold : registry.calls[caller]? = some old)
    (hworking : old.status.working = true) (hkey : new.key = old.key)
    (hsettled : new.settled = some (.ok ())) (hnew : new.status = .returned caller) :
    ((registry.advance caller new).register old.key caller).Registered where
  owner key owner howner := by
    by_cases hsame : key = old.key
    · subst hsame
      rw [register_self] at howner
      obtain rfl := Option.some.inj howner
      exact ⟨new, getElem_advance_self hold, hkey, hsettled, hnew⟩
    · rw [register_of_ne _ _ hsame] at howner
      obtain ⟨owning, howning, hkey', hsettled', hstatus⟩ := hregistered.owner key owner howner
      exact ⟨owning, getElem_advance _ hold hworking howning hstatus, hkey', hsettled', hstatus⟩
  kept call hcall owner hstatus := by
    by_cases hsame : call.key = old.key
    · rw [hsame, register_self]
      exact Option.some_ne_none caller
    · rw [register_of_ne _ _ hsame]
      rcases mem_advance hcall with hcall | rfl
      · exact hregistered.kept call hcall owner hstatus
      · exact absurd hkey hsame

theorem Registered.enter (hregistered : registry.Registered) {call : InstanceCall Object Pending}
    (hreturned : ∀ owner, call.status = .returned owner →
      registry.registered call.key = some owner) : (registry.enter call).Registered where
  owner key owner howner := by
    obtain ⟨owning, howning, hrest⟩ := hregistered.owner key owner howner
    refine ⟨owning, ?_, hrest⟩
    exact (List.getElem?_append_left (List.getElem?_eq_some_iff.mp howning).1).trans howning
  kept call' hcall owner hstatus := by
    rcases List.mem_append.mp hcall with hcall | hcall
    · exact hregistered.kept call' hcall owner hstatus
    · obtain rfl := List.mem_singleton.mp hcall
      rw [NodeRegistry.enter, hreturned owner hstatus]
      exact Option.some_ne_none owner

/-- Every move keeps the registry's invariant. -/
theorem Registered.moves (hregistered : registry.Registered) (hmoves : Moves registry label next) :
    next.Registered := by
  cases hmoves with
  | entered hreturned hthrew => exact hregistered.enter hreturned
  | resumed hold hworking hkey hnew =>
      exact hregistered.advance hold hworking (working_ne_returned hnew)
  | rejected hold hworking hkey hnew =>
      apply hregistered.advance hold hworking
      intro owner hreturned
      cases hnew.symm.trans hreturned
  | returned hold hworking hkey hsettled hnew =>
      exact hregistered.register hold hworking hkey hsettled hnew

/-- Where calls for one key return one instance, this is the registered one. -/
theorem Registered.unique (hregistered : registry.Registered) (hsame : registry.OneInstance)
    {call : InstanceCall Object Pending} (hcall : call ∈ registry.calls) {owner : Nat}
    (hreturned : call.status = .returned owner) : registry.registered call.key = some owner := by
  obtain ⟨other, hother⟩ :=
    Option.ne_none_iff_exists'.mp (hregistered.kept call hcall owner hreturned)
  obtain ⟨owning, howning, hkey, _, hstatus⟩ := hregistered.owner call.key other hother
  rw [hother, hsame owning (List.mem_of_getElem? howning) call hcall hkey other owner hstatus
    hreturned]

theorem oneInstance_of_registered
    (hreturned : ∀ call ∈ registry.calls, ∀ owner, call.status = .returned owner →
      registry.registered call.key = some owner) : registry.OneInstance := by
  intro first hfirst second hsecond hkey owner other howner hother
  have hregistered := hreturned first hfirst owner howner
  rw [hkey, hreturned second hsecond other hother] at hregistered
  exact (Option.some.inj hregistered).symm

/-- Of the law, only the first and the last part can fail. -/
theorem Registered.singleton_iff (hregistered : registry.Registered) :
    registry.Singleton ↔ registry.OneInstance ∧
      ∀ call ∈ registry.calls, ∀ err left, call.status = .threw err left → left = none := by
  constructor
  · exact fun hsingleton => ⟨hsingleton.same, hsingleton.unregistered⟩
  · intro hlaw
    refine ⟨hlaw.1, ?_, hlaw.2⟩
    intro call hcall owner hreturned
    obtain ⟨owning, howning, hkey, hsettled, _⟩ :=
      hregistered.owner call.key owner (hregistered.unique hlaw.1 hcall hreturned)
    exact ⟨owning, howning, hkey, hsettled⟩

theorem exclusive_finish_iff {caller : Nat} {old : InstanceCall Object Pending}
    (hold : registry.calls[caller]? = some old) :
    registry.Exclusive (.finish caller : InstanceLabel Reply) ↔
      registry.registered old.key = none := by
  simp only [Exclusive, hold, Option.some.injEq, forall_eq']

/-- A step that keeps to the registered instances. -/
theorem Singleton.advance (hsingleton : registry.Singleton) (hregistered : registry.Registered)
    {caller : Nat} {new : InstanceCall Object Pending}
    (hnew : ∀ owner, new.status ≠ .returned owner) : (registry.advance caller new).OneInstance := by
  apply oneInstance_of_registered
  intro call hcall owner hreturned
  rcases mem_advance hcall with hcall | rfl
  · exact hregistered.unique hsingleton.same hcall hreturned
  · exact absurd hreturned (hnew owner)

/-- A call that registers its instance is the only one for its key exactly if there was none. -/
theorem Singleton.register_iff (hsingleton : registry.Singleton)
    (hregistered : registry.Registered) {caller : Nat} {old new : InstanceCall Object Pending}
    (hold : registry.calls[caller]? = some old) (hworking : old.status.working = true)
    (hkey : new.key = old.key) (hnew : new.status = .returned caller) :
    ((registry.advance caller new).register old.key caller).OneInstance ↔
      registry.registered old.key = none := by
  constructor
  · intro hsame
    by_contra hfound
    obtain ⟨owner, howner⟩ := Option.ne_none_iff_exists'.mp hfound
    -- the earlier instance and the new one are both returned, so they are one
    obtain ⟨owning, howning, hkey', _, hstatus⟩ := hregistered.owner old.key owner howner
    have hkept := getElem_advance new hold hworking howning hstatus
    obtain rfl := hsame owning (List.mem_of_getElem? hkept) new
      (List.mem_of_getElem? (getElem_advance_self hold)) (hkey'.trans hkey.symm) owner caller
      hstatus hnew
    obtain rfl := Option.some.inj (hold.symm.trans howning)
    exact working_ne_returned hworking _ hstatus
  · intro hnone
    apply oneInstance_of_registered
    intro call hcall owner hreturned
    rcases mem_advance hcall with hcall | rfl
    · have hother : call.key ≠ old.key := by
        intro hsame
        exact hregistered.kept call hcall owner hreturned (hsame ▸ hnone)
      rw [register_of_ne _ _ hother]
      exact hregistered.unique hsingleton.same hcall hreturned
    · rw [hkey, register_self]
      cases hnew.symm.trans hreturned
      rfl

/-- A step keeps the law exactly if no call resumes over a registered instance. -/
theorem Moves.singleton_iff (hregistered : registry.Registered) (hsingleton : registry.Singleton)
    (hmoves : Moves registry label next) : next.Singleton ↔ registry.Exclusive label := by
  rw [(hregistered.moves hmoves).singleton_iff]
  cases hmoves with
  | @entered key call hreturned hthrew =>
      refine iff_of_true ⟨?_, ?_⟩ trivial
      · apply oneInstance_of_registered
        intro call' hcall owner hstatus
        rcases List.mem_append.mp hcall with hcall | hcall
        · exact hregistered.unique hsingleton.same hcall hstatus
        · obtain rfl := List.mem_singleton.mp hcall
          exact hreturned owner hstatus
      · intro call' hcall err left hstatus
        rcases List.mem_append.mp hcall with hcall | hcall
        · exact hsingleton.unregistered call' hcall err left hstatus
        · obtain rfl := List.mem_singleton.mp hcall
          exact hthrew err left hstatus
  | @resumed caller reply old new hold hworking hkey hnew =>
      refine iff_of_true ⟨hsingleton.advance hregistered (working_ne_returned hnew), ?_⟩ trivial
      intro call hcall err left hstatus
      rcases mem_advance hcall with hcall | rfl
      · exact hsingleton.unregistered call hcall err left hstatus
      · exact absurd hstatus (working_ne_threw hnew err left)
  | @rejected caller err old new hold hworking hkey hnew =>
      rw [exclusive_finish_iff hold]
      constructor
      · intro hlaw
        exact hlaw.2 new (List.mem_of_getElem? (getElem_advance_self hold)) err _ hnew
      · intro hnone
        constructor
        · apply hsingleton.advance hregistered
          intro owner hreturned
          cases hnew.symm.trans hreturned
        · intro call hcall err' left hstatus
          rcases mem_advance hcall with hcall | rfl
          · exact hsingleton.unregistered call hcall err' left hstatus
          · cases hnew.symm.trans hstatus
            exact hnone
  | @returned caller old new hold hworking hkey hsettled hnew =>
      -- no call throws here: the law can fail only in its first part
      rw [exclusive_finish_iff hold,
        ← hsingleton.register_iff hregistered hold hworking hkey hnew]
      apply and_iff_left
      intro call hcall err left hstatus
      rcases mem_advance hcall with hcall | rfl
      · exact hsingleton.unregistered call hcall err left hstatus
      · cases hnew.symm.trans hstatus

end Moves

/-- `getInstance` keeps the singleton law all along a schedule exactly when every call that
resumes after its `initialize()` finds no instance registered for its key. -/
theorem always_singleton_iff (construct : NodeKey → Nat → Except JsError Object)
    (initializer : NodeKey → AsyncMethod Object Pending Reply Unit)
    (schedule : List (InstanceLabel Reply)) :
    (machine construct initializer).Always Singleton start schedule ↔
      (machine construct initializer).Guarded Exclusive start schedule := by
  have hstart : (start : NodeRegistry Object Pending).Singleton := by
    rw [Registered.start.singleton_iff]
    constructor
    · exact fun first hfirst => absurd hfirst List.not_mem_nil
    · exact fun call hcall => absurd hcall List.not_mem_nil
  apply Machine.always_iff_guarded_of_invariant _ _ Registered.start hstart
  · intro registry label next hregistered hstep
    exact hregistered.moves (machine_moves hstep)
  · intro registry label next hregistered hsingleton hstep
    exact (machine_moves hstep).singleton_iff hregistered hsingleton

/-! ## What holds of every instance -/

section Stages

variable {construct : NodeKey → Nat → Except JsError Object}
  {initializer : NodeKey → AsyncMethod Object Pending Reply Unit}
  {stage : NodeKey → Object → Progress Pending Unit → Prop}

/-- The instance of a call is where its `initialize()` stands. -/
structure Staged (stage : NodeKey → Object → Progress Pending Unit → Prop)
    (call : InstanceCall Object Pending) : Prop where
  initializing : ∀ pending, call.status = .initializing pending →
    ∃ object, call.constructed = some object ∧ stage call.key object (.awaiting pending)
  settled : ∀ outcome, call.settled = some outcome →
    ∃ object, call.constructed = some object ∧ stage call.key object (.settled outcome)

/-- A call that proceeds on an object of the stage stays staged. -/
theorem staged_proceed {key : NodeKey} {object : Object} {progress : Progress Pending Unit}
    (hstage : stage key object progress) : Staged stage (.proceed key object progress) := by
  cases progress with
  | awaiting pending =>
      constructor
      · intro pending' hpending
        cases hpending
        exact ⟨object, rfl, hstage⟩
      · intro outcome hsettled
        cases hsettled
  | settled outcome =>
      constructor
      · intro pending hpending
        cases hpending
      · intro outcome' hsettled
        cases hsettled
        exact ⟨object, rfl, hstage⟩

/-- A call that has neither constructed an instance nor is at work on one. -/
theorem staged_idle {key : NodeKey} {status : CallStatus Pending}
    (hstatus : ∀ pending, status ≠ .initializing pending) :
    Staged stage (⟨key, none, none, status⟩ : InstanceCall Object Pending) := by
  constructor
  · intro pending hpending
    exact absurd hpending (hstatus pending)
  · intro outcome hsettled
    cases hsettled

theorem Staged.resumed {call : InstanceCall Object Pending} (hstaged : Staged stage call)
    {status : CallStatus Pending} (hstatus : ∀ pending, status ≠ .initializing pending) :
    Staged stage { call with status } where
  initializing pending hpending := absurd hpending (hstatus pending)
  settled := hstaged.settled

theorem staged_advance {registry : NodeRegistry Object Pending} {caller : Nat}
    {new : InstanceCall Object Pending} (hstaged : ∀ call ∈ registry.calls, Staged stage call)
    (hnew : Staged stage new) : ∀ call ∈ (registry.advance caller new).calls, Staged stage call := by
  intro call hcall
  rcases mem_advance hcall with hcall | rfl
  · exact hstaged call hcall
  · exact hnew

theorem staged_getInstance {starts : NodeKey → Object → Prop}
    (hconstruct : ∀ key n object, construct key n = .ok object → starts key object)
    (hkeeps : ∀ key, (initializer key).Keeps (starts key) (stage key))
    {registry : NodeRegistry Object Pending}
    (hstaged : ∀ call ∈ registry.calls, Staged stage call) (key : NodeKey) :
    ∀ call ∈ (registry.getInstance construct initializer key).calls, Staged stage call := by
  have hentered : ∀ new, Staged stage new →
      ∀ call ∈ (registry.enter new).calls, Staged stage call := by
    intro new hnew call hcall
    rcases List.mem_append.mp hcall with hcall | hcall
    · exact hstaged call hcall
    · obtain rfl := List.mem_singleton.mp hcall
      exact hnew
  unfold getInstance
  split
  next =>
    apply hentered
    apply staged_idle
    intro pending hpending
    cases hpending
  next =>
    split
    next =>
      apply hentered
      apply staged_idle
      intro pending hpending
      cases hpending
    next object hobject =>
      exact hentered _ (staged_proceed ((hkeeps key).start object (hconstruct key _ object hobject)))

/-- In every reachable registry each call's instance is where its `initialize()` stands. -/
theorem staged_of_reaches {starts : NodeKey → Object → Prop}
    (hconstruct : ∀ key n object, construct key n = .ok object → starts key object)
    (hkeeps : ∀ key, (initializer key).Keeps (starts key) (stage key))
    {registry : NodeRegistry Object Pending}
    (hreach : (machine construct initializer).Reaches start registry) :
    ∀ call ∈ registry.calls, Staged stage call := by
  apply hreach.invariant (fun registry => ∀ call ∈ registry.calls, Staged stage call)
  · intro registry label next hstaged hstep
    cases label with
    | getInstance key =>
        cases key <;> obtain rfl := Option.some.inj hstep <;>
          exact staged_getInstance hconstruct hkeeps hstaged _
    | resume caller reply =>
        simp only [machine, resume] at hstep
        split at hstep
        next key object settled pending hcaller =>
          obtain rfl := Option.some.inj hstep
          apply staged_advance hstaged
          obtain ⟨_, hobject, hstage⟩ :=
            (hstaged _ (List.mem_of_getElem? hcaller)).initializing pending rfl
          obtain rfl := Option.some.inj hobject
          exact staged_proceed ((hkeeps key).resume object pending reply hstage)
        next => cases hstep
    | finish caller =>
        simp only [machine, finish] at hstep
        split at hstep
        next key object hcaller =>
          obtain rfl := Option.some.inj hstep
          apply staged_advance hstaged
          apply (hstaged _ (List.mem_of_getElem? hcaller)).resumed
          intro pending hpending
          cases hpending
        next key object err hcaller =>
          obtain rfl := Option.some.inj hstep
          apply staged_advance hstaged
          apply (hstaged _ (List.mem_of_getElem? hcaller)).resumed
          intro pending hpending
          cases hpending
        next => cases hstep
  · exact fun call hcall => absurd hcall List.not_mem_nil

theorem registered_of_reaches {registry : NodeRegistry Object Pending}
    (hreach : (machine construct initializer).Reaches start registry) : registry.Registered :=
  hreach.invariant Registered
    (fun _ _ _ hregistered hstep => hregistered.moves (machine_moves hstep)) Registered.start

end Stages

section PrivacyNodes

variable {Signer : Type} [DecidableEq Signer] (services : Services Signer)
  (config : String → PrivacyNode Signer) (hub : Except JsError (NodeObject Signer))
  (hubInitializer : AsyncMethod (NodeObject Signer) NodeAwait (Except JsError String) Unit)

def constructNode : NodeKey → Except JsError (NodeObject Signer)
  | .privacyNode node => .ok (NodeObject.construct (config node))
  | .privateHub => hub

def nodeInitializer : NodeKey → AsyncMethod (NodeObject Signer) NodeAwait (Except JsError String) Unit
  | .privacyNode _ => NodeObject.initializeNode services
  | .privateHub => hubInitializer

/-- The registries of a process, with the hub's own initialization left open. -/
def nodeMachine : Machine (NodeRegistry (NodeObject Signer) NodeAwait)
    (InstanceLabel (Except JsError String)) :=
  machine (fun key _ => constructNode config hub key) (nodeInitializer services hubInitializer)

/-- What a privacy node keeps through its initialization; nothing is asked of the hub. -/
def nodeStage : NodeKey → NodeObject Signer → Progress NodeAwait Unit → Prop
  | .privacyNode _ => NodeObject.Stage
  | .privateHub => fun _ _ => True

def nodeStarts : NodeKey → NodeObject Signer → Prop
  | .privacyNode _ => fun object => object.contractStore = ContractStore.new
  | .privateHub => fun _ => True

theorem nodeInitializer_keeps (key : NodeKey) :
    (nodeInitializer services hubInitializer key).Keeps (nodeStarts key) (nodeStage key) := by
  cases key with
  | privacyNode node => exact NodeObject.initializeNode_keeps services
  | privateHub => exact ⟨fun _ _ => trivial, fun _ _ _ _ => trivial⟩

/-- Whatever the interleaving, a registered privacy node has its endpoint connected and both
addresses resolved. -/
theorem registered_ready {registry : NodeRegistry (NodeObject Signer) NodeAwait}
    (hreach : (nodeMachine services config hub hubInitializer).Reaches start registry)
    {node : String} {owner : Nat} (hregistered : registry.registered (.privacyNode node) = some owner) :
    ∃ owning object, registry.calls[owner]? = some owning ∧ owning.constructed = some object ∧
      object.EndpointReady ∧ NodeObject.Deployed object.raylsNodeEndpointAddress := by
  have hconstruct : ∀ (key : NodeKey) (_ : Nat) (object : NodeObject Signer),
      constructNode config hub key = .ok object → nodeStarts key object := by
    intro key _ object hobject
    cases key with
    | privacyNode node => exact Except.ok.inj hobject ▸ rfl
    | privateHub => trivial
  obtain ⟨owning, howning, hkey, hsettled, _⟩ :=
    (registered_of_reaches hreach).owner (.privacyNode node) owner hregistered
  have hstaged := staged_of_reaches hconstruct (nodeInitializer_keeps services hubInitializer)
    hreach owning (List.mem_of_getElem? howning)
  obtain ⟨object, hobject, hready⟩ := hstaged.settled _ hsettled
  rw [hkey] at hready
  exact ⟨owning, object, howning, hobject, hready.1, hready.2⟩

end PrivacyNodes

/-! ## Two first calls -/

def answeringServices : Services String where
  artifacts _ := .ok ()
  getAddress := id
  getAddressByResourceId _ _ := .ok ZERO_ADDRESS

def configured (node : String) : PrivacyNode String :=
  ⟨node, "0x1", "user", some "0x4e9", ZERO_ADDRESS, ZERO_ADDRESS⟩

/-- The replies to the awaits of one successful `initialize()`. -/
def initialization (caller : Nat) : List (InstanceLabel (Except JsError String)) :=
  ["0xe4d", "0x60", "", "0x4e4d", "0x60"].map fun text => .resume caller (.ok text)

/-- Two calls for one key start before either has finished. -/
def overlapping : List (InstanceLabel (Except JsError String)) :=
  [.getInstance (.privacyNode "A"), .getInstance (.privacyNode "A")] ++
    initialization 0 ++ initialization 1 ++ [.finish 0, .finish 1]

theorem not_always_singleton_overlapping :
    ¬(nodeMachine answeringServices configured (.error default)
      (NodeObject.initializeNode answeringServices)).Always Singleton start overlapping := by
  intro halways
  obtain ⟨final, hrun, first, second, hfirst, hsecond, hkey, howner, hother⟩ :
      ∃ final, (nodeMachine answeringServices configured (.error default)
          (NodeObject.initializeNode answeringServices)).run start overlapping = some final ∧
        ∃ first second, final.calls[0]? = some first ∧ final.calls[1]? = some second ∧
          first.key = second.key ∧ first.status = .returned 0 ∧ second.status = .returned 1 :=
    ⟨_, rfl, _, _, rfl, rfl, rfl, rfl, rfl⟩
  exact absurd ((halways.final hrun).same first (List.mem_of_getElem? hfirst) second
    (List.mem_of_getElem? hsecond) hkey 0 1 howner hother) Nat.zero_ne_one

end NodeRegistry

end RaylsSuite.Entities
