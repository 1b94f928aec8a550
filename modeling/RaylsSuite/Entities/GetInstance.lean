import RaylsSuite.Entities.NodeInitialization
import RaylsSuite.Foundation.Machine

/-! # The node registry

`getInstance` checks the registry, constructs an instance, awaits its
`initialize()` and registers it. Calls of it run interleaved at their awaits, so
the check and the registration of a call are apart.
-/

namespace RaylsSuite.Entities

open Foundation Common

/-- The registries: `PrivacyNode.instances` by node, and `PrivateHub.instance`. -/
inductive NodeKey where
  | privacyNode (node : String)
  | privateHub
deriving DecidableEq, Repr

/-- An instance is known by the number of the call that constructed it. -/
inductive CallStatus (Pending : Type) where
  | initializing (pending : Pending)
  /-- `initialize()` has settled, and the call has not resumed. -/
  | resuming
  | returned (owner : Nat)
  /-- The call threw, with this instance registered for its key. -/
  | threw (err : JsError) (registered : Option Nat)

structure InstanceCall (Object Pending : Type) where
  key : NodeKey
  /-- The instance that the call constructed. -/
  constructed : Option Object
  /-- How the `initialize()` of that instance has settled. -/
  settled : Option (Except JsError Unit)
  status : CallStatus Pending

structure NodeRegistry (Object Pending : Type) where
  registered : NodeKey → Option Nat
  calls : List (InstanceCall Object Pending)

inductive InstanceLabel (Reply : Type) where
  | getInstance (key : NodeKey)
  /-- The promise that the caller's `initialize()` awaits has settled. -/
  | resume (caller : Nat) (reply : Reply)
  | finish (caller : Nat)

variable {Object Pending Reply : Type}

/-- The call has neither returned nor thrown. -/
def CallStatus.working : CallStatus Pending → Bool
  | .initializing _ => true
  | .resuming => true
  | _ => false

/-- The call after a stretch of its `initialize()`. -/
def InstanceCall.proceed (key : NodeKey) (object : Object) :
    Progress Pending Unit → InstanceCall Object Pending
  | .awaiting pending => ⟨key, some object, none, .initializing pending⟩
  | .settled outcome => ⟨key, some object, some outcome, .resuming⟩

namespace NodeRegistry

def start : NodeRegistry Object Pending := ⟨fun _ => none, []⟩

def enter (registry : NodeRegistry Object Pending) (call : InstanceCall Object Pending) :
    NodeRegistry Object Pending :=
  { registry with calls := registry.calls ++ [call] }

section Step

variable (construct : NodeKey → Nat → Except JsError Object)
  (initializer : NodeKey → AsyncMethod Object Pending Reply Unit)

/-- `getInstance` up to its first await. -/
def getInstance (registry : NodeRegistry Object Pending) (key : NodeKey) :
    NodeRegistry Object Pending :=
  match registry.registered key with
  | some owner => registry.enter ⟨key, none, none, .returned owner⟩
  -- an instance that is still initializing is not registered yet
  | none =>
      match construct key registry.calls.length with
      | .error err => registry.enter ⟨key, none, none, .threw err (registry.registered key)⟩
      | .ok object =>
          let (object, progress) := (initializer key).start object
          registry.enter (.proceed key object progress)

def PrivacyNode.getInstance (registry : NodeRegistry Object Pending) (node : String) :
    NodeRegistry Object Pending :=
  NodeRegistry.getInstance construct initializer registry (.privacyNode node)

def PrivateHub.getInstance (registry : NodeRegistry Object Pending) :
    NodeRegistry Object Pending :=
  NodeRegistry.getInstance construct initializer registry .privateHub

/-- `initialize()` of the caller's instance from one await to the next. -/
def resume (registry : NodeRegistry Object Pending) (caller : Nat) (reply : Reply) :
    Option (NodeRegistry Object Pending) :=
  match registry.calls[caller]? with
  | some ⟨key, some object, _, .initializing pending⟩ =>
      let (object, progress) := (initializer key).resume object pending reply
      some { registry with calls := registry.calls.set caller (.proceed key object progress) }
  | _ => none

end Step

/-- `getInstance` after its `await instance.initialize()`. -/
def finish (registry : NodeRegistry Object Pending) (caller : Nat) :
    Option (NodeRegistry Object Pending) :=
  match registry.calls[caller]? with
  | some ⟨key, object, some (.ok ()), .resuming⟩ =>
      -- the registry is not read again: an instance registered meanwhile is replaced
      some
        { registered := Function.update registry.registered key (some caller)
          calls := registry.calls.set caller ⟨key, object, some (.ok ()), .returned caller⟩ }
  | some ⟨key, object, some (.error err), .resuming⟩ =>
      some { registry with
        calls := registry.calls.set caller
          ⟨key, object, some (.error err), .threw err (registry.registered key)⟩ }
  | _ => none

def machine (construct : NodeKey → Nat → Except JsError Object)
    (initializer : NodeKey → AsyncMethod Object Pending Reply Unit) :
    Machine (NodeRegistry Object Pending) (InstanceLabel Reply) where
  step registry label :=
    match label with
    | .getInstance (.privacyNode node) =>
        some (PrivacyNode.getInstance construct initializer registry node)
    | .getInstance .privateHub => some (PrivateHub.getInstance construct initializer registry)
    | .resume caller reply => registry.resume initializer caller reply
    | .finish caller => registry.finish caller

/-! ## What a step does -/

/-- The registry with the caller's call advanced. -/
def advance (registry : NodeRegistry Object Pending) (caller : Nat)
    (call : InstanceCall Object Pending) : NodeRegistry Object Pending :=
  { registry with calls := registry.calls.set caller call }

/-- The registry with an instance registered, over an older one too. -/
def register (registry : NodeRegistry Object Pending) (key : NodeKey) (owner : Nat) :
    NodeRegistry Object Pending :=
  { registry with registered := Function.update registry.registered key (some owner) }

theorem register_self (registry : NodeRegistry Object Pending) (key : NodeKey) (owner : Nat) :
    (registry.register key owner).registered key = some owner :=
  Function.update_self ..

theorem register_of_ne (registry : NodeRegistry Object Pending) {key other : NodeKey} (owner : Nat)
    (hne : other ≠ key) : (registry.register key owner).registered other = registry.registered other :=
  Function.update_of_ne hne ..

inductive Moves (registry : NodeRegistry Object Pending) :
    InstanceLabel Reply → NodeRegistry Object Pending → Prop where
  | entered {key : NodeKey} {call : InstanceCall Object Pending} :
      (∀ owner, call.status = .returned owner → registry.registered call.key = some owner) →
      (∀ err registered, call.status = .threw err registered → registered = none) →
      Moves registry (.getInstance key) (registry.enter call)
  | resumed {caller : Nat} {reply : Reply} {old new : InstanceCall Object Pending} :
      registry.calls[caller]? = some old → old.status.working = true →
      new.key = old.key → new.status.working = true →
      Moves registry (.resume caller reply) (registry.advance caller new)
  | rejected {caller : Nat} {err : JsError} {old new : InstanceCall Object Pending} :
      registry.calls[caller]? = some old → old.status.working = true →
      new.key = old.key → new.status = .threw err (registry.registered old.key) →
      Moves registry (.finish caller) (registry.advance caller new)
  | returned {caller : Nat} {old new : InstanceCall Object Pending} :
      registry.calls[caller]? = some old → old.status.working = true →
      new.key = old.key → new.settled = some (.ok ()) → new.status = .returned caller →
      Moves registry (.finish caller) ((registry.advance caller new).register old.key caller)

section Moves

variable {registry next : NodeRegistry Object Pending} {label : InstanceLabel Reply}

theorem proceed_working (key : NodeKey) (object : Object) (progress : Progress Pending Unit) :
    (InstanceCall.proceed key object progress).status.working = true := by
  cases progress <;> rfl

theorem proceed_key (key : NodeKey) (object : Object) (progress : Progress Pending Unit) :
    (InstanceCall.proceed key object progress).key = key := by
  cases progress <;> rfl

theorem working_ne_returned {status : CallStatus Pending} (hworking : status.working = true)
    (owner : Nat) : status ≠ .returned owner := by
  intro hreturned
  subst hreturned
  cases hworking

theorem working_ne_threw {status : CallStatus Pending} (hworking : status.working = true)
    (err : JsError) (registered : Option Nat) : status ≠ .threw err registered := by
  intro hthrew
  subst hthrew
  cases hworking

theorem getInstance_moves (construct : NodeKey → Nat → Except JsError Object)
    (initializer : NodeKey → AsyncMethod Object Pending Reply Unit) (key : NodeKey) :
    Moves registry (.getInstance key : InstanceLabel Reply)
      (registry.getInstance construct initializer key) := by
  unfold getInstance
  split
  next owner hregistered =>
    apply Moves.entered
    · intro other hreturned
      cases hreturned
      exact hregistered
    · intro err registered hthrew
      cases hthrew
  next hunregistered =>
    split
    next err hconstruct =>
      apply Moves.entered
      · intro owner hreturned
        cases hreturned
      · intro err' registered hthrew
        cases hthrew
        exact hunregistered
    next object hconstruct =>
      apply Moves.entered
      · intro owner hreturned
        exact absurd hreturned (working_ne_returned (proceed_working key _ _) owner)
      · intro err registered hthrew
        exact absurd hthrew (working_ne_threw (proceed_working key _ _) err registered)

/-- Every step of the registry's machine is one of the moves. -/
theorem machine_moves {construct : NodeKey → Nat → Except JsError Object}
    {initializer : NodeKey → AsyncMethod Object Pending Reply Unit}
    (hstep : (machine construct initializer).step registry label = some next) :
    Moves registry label next := by
  cases label with
  | getInstance key =>
      cases key <;> obtain rfl := Option.some.inj hstep <;>
        exact getInstance_moves construct initializer _
  | resume caller reply =>
      simp only [machine, resume] at hstep
      split at hstep
      next key object settled pending hcaller =>
        obtain rfl := Option.some.inj hstep
        exact .resumed hcaller rfl (proceed_key key _ _) (proceed_working key _ _)
      next => cases hstep
  | finish caller =>
      -- two outcomes of the caller's `initialize()` resume it, and no other state does
      simp only [machine, finish] at hstep
      split at hstep
      next key object hcaller =>
        obtain rfl := Option.some.inj hstep
        exact .returned hcaller rfl rfl rfl rfl
      next key object err hcaller =>
        obtain rfl := Option.some.inj hstep
        exact .rejected hcaller rfl rfl rfl
      next => cases hstep

end Moves

end NodeRegistry

end RaylsSuite.Entities
