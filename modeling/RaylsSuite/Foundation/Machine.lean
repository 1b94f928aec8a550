import Mathlib.Algebra.GroupWithZero.Nat
import Mathlib.Data.List.Basic

/-! # Machines driven by a schedule

A machine answers each label of its environment with a successor state, or
has none when the label is not enabled. A schedule is the list of labels the
environment chose, so a statement about every schedule is a statement about
every interleaving of the parties that the labels name.
-/

namespace RaylsSuite.Foundation

universe u v w

/-- A transition function that may refuse a label. -/
structure Machine (State : Type u) (Label : Type v) where
  step : State → Label → Option State

namespace Machine

variable {State : Type u} {Label : Type v} (machine : Machine State Label)

/-- Execute a schedule; a refused label leaves no final state. -/
def run : State → List Label → Option State
  | state, [] => some state
  | state, label :: rest => (machine.step state label).bind fun next => run next rest

/-- Some schedule leads from the first state to the second. -/
def Reaches (start final : State) : Prop :=
  ∃ schedule, machine.run start schedule = some final

theorem run_cons_eq_some {state final : State} {label : Label} {rest : List Label} :
    machine.run state (label :: rest) = some final ↔
      ∃ middle, machine.step state label = some middle ∧
        machine.run middle rest = some final := by
  simp only [run, Option.bind_eq_some_iff]

/-- Two schedules run one after the other. -/
theorem run_append (state : State) (first second : List Label) :
    machine.run state (first ++ second) =
      (machine.run state first).bind fun middle => machine.run middle second := by
  induction first generalizing state with
  | nil => rfl
  | cons label rest ih =>
      simp only [List.cons_append, run]
      cases machine.step state label with
      | none => rfl
      | some middle => exact ih middle

theorem Reaches.refl (state : State) : machine.Reaches state state := ⟨[], rfl⟩

variable {machine}

theorem Reaches.step {start middle final : State} (hreach : machine.Reaches start middle)
    (label : Label) (hstep : machine.step middle label = some final) :
    machine.Reaches start final := by
  obtain ⟨schedule, hrun⟩ := hreach
  refine ⟨schedule ++ [label], ?_⟩
  rw [run_append, hrun]
  simp [run, hstep]

theorem Reaches.trans {start middle final : State} (hfirst : machine.Reaches start middle)
    (hsecond : machine.Reaches middle final) : machine.Reaches start final := by
  obtain ⟨first, hfirst⟩ := hfirst
  obtain ⟨second, hsecond⟩ := hsecond
  refine ⟨first ++ second, ?_⟩
  rw [run_append, hfirst, Option.bind_some, hsecond]

theorem Reaches.of_step {start final : State} (label : Label)
    (hstep : machine.step start label = some final) : machine.Reaches start final :=
  (Reaches.refl machine start).step label hstep

/-- A predicate preserved by every step holds at the end of every schedule. -/
theorem run_invariant (invariant : State → Prop)
    (hpreserved : ∀ state label next, invariant state →
      machine.step state label = some next → invariant next)
    {start final : State} {schedule : List Label} (hstart : invariant start)
    (hrun : machine.run start schedule = some final) : invariant final := by
  induction schedule generalizing start with
  | nil => exact Option.some.inj hrun ▸ hstart
  | cons label rest ih =>
      obtain ⟨middle, hstep, hrest⟩ := machine.run_cons_eq_some.mp hrun
      exact ih (hpreserved start label middle hstart hstep) hrest

theorem Reaches.invariant (invariant : State → Prop)
    (hpreserved : ∀ state label next, invariant state →
      machine.step state label = some next → invariant next)
    {start final : State} (hreach : machine.Reaches start final) (hstart : invariant start) :
    invariant final := by
  obtain ⟨schedule, hrun⟩ := hreach
  exact run_invariant invariant hpreserved hstart hrun

/-! ## Conditions along a schedule -/

variable (machine)

/-- Every state that the schedule passes through is good. -/
def Always (good : State → Prop) : State → List Label → Prop
  | state, [] => good state
  | state, label :: rest => good state ∧
      ∀ next, machine.step state label = some next → Always good next rest

/-- Every step of the schedule meets a condition on its label and on the
state before it. -/
def Guarded (allowed : State → Label → Prop) : State → List Label → Prop
  | _, [] => True
  | state, label :: rest => ∀ next, machine.step state label = some next →
      allowed state label ∧ Guarded allowed next rest

/-- A guarded schedule is guarded at its first step and from there on. -/
theorem guarded_cons_iff {allowed : State → Label → Prop} {state next : State} {label : Label}
    {rest : List Label} (hstep : machine.step state label = some next) :
    machine.Guarded allowed state (label :: rest) ↔
      allowed state label ∧ machine.Guarded allowed next rest := by
  constructor
  · exact fun hguarded => hguarded next hstep
  · intro hguarded other hother
    obtain rfl := Option.some.inj (hstep.symm.trans hother)
    exact hguarded

instance decidableGuarded {allowed : State → Label → Prop}
    [∀ state label, Decidable (allowed state label)] :
    ∀ state schedule, Decidable (machine.Guarded allowed state schedule)
  | _, [] => isTrue trivial
  | state, label :: rest =>
      match hstep : machine.step state label with
      | none => isTrue fun next hnext => by cases hstep.symm.trans hnext
      | some next =>
          have : Decidable (machine.Guarded allowed next rest) := decidableGuarded next rest
          decidable_of_iff _ (machine.guarded_cons_iff hstep).symm

variable {machine}

theorem Always.start {good : State → Prop} {state : State} {schedule : List Label}
    (halways : machine.Always good state schedule) : good state := by
  cases schedule with
  | nil => exact halways
  | cons label rest => exact halways.1

/-- The last state of a schedule is one of those that it passes. -/
theorem Always.final {good : State → Prop} {state final : State} {schedule : List Label}
    (halways : machine.Always good state schedule)
    (hrun : machine.run state schedule = some final) : good final := by
  induction schedule generalizing state with
  | nil => exact Option.some.inj hrun ▸ halways
  | cons label rest ih =>
      obtain ⟨middle, hstep, hrest⟩ := machine.run_cons_eq_some.mp hrun
      exact ih (halways.2 middle hstep) hrest

theorem Always.mono {good better : State → Prop} (himplies : ∀ state, better state → good state)
    {state : State} {schedule : List Label} (halways : machine.Always better state schedule) :
    machine.Always good state schedule := by
  induction schedule generalizing state with
  | nil => exact himplies state halways
  | cons label rest ih =>
      exact ⟨himplies state halways.1, fun next hnext => ih (halways.2 next hnext)⟩

/-- When allowed steps keep a state good, so does every schedule of allowed steps. -/
theorem Guarded.always {good : State → Prop} {allowed : State → Label → Prop}
    (hstep : ∀ state label next, good state → machine.step state label = some next →
      allowed state label → good next)
    {state : State} {schedule : List Label} (hguarded : machine.Guarded allowed state schedule)
    (hgood : good state) : machine.Always good state schedule := by
  induction schedule generalizing state with
  | nil => exact hgood
  | cons label rest ih =>
      refine ⟨hgood, fun next hnext => ?_⟩
      obtain ⟨hallowed, hrest⟩ := hguarded next hnext
      exact ih hrest (hstep state label next hgood hnext hallowed)

/-- When a step that keeps an invariant leads from a good state to a good one exactly if it
is allowed, the schedules that keep to good states are those whose steps are all allowed. -/
theorem always_iff_guarded_of_invariant {good invariant : State → Prop}
    {allowed : State → Label → Prop}
    (hpreserved : ∀ state label next, invariant state → machine.step state label = some next →
      invariant next)
    (hstep : ∀ state label next, invariant state → good state →
      machine.step state label = some next → (good next ↔ allowed state label))
    {start : State} (hinvariant : invariant start) (hstart : good start) (schedule : List Label) :
    machine.Always good start schedule ↔ machine.Guarded allowed start schedule := by
  induction schedule generalizing start with
  | nil => exact iff_of_true hstart trivial
  | cons label rest ih =>
      constructor
      · rintro ⟨-, halways⟩ next hnext
        have hgood : good next := (halways next hnext).start
        have hkept := hpreserved start label next hinvariant hnext
        exact ⟨(hstep start label next hinvariant hstart hnext).mp hgood,
          (ih hkept hgood).mp (halways next hnext)⟩
      · intro hguarded
        refine ⟨hstart, fun next hnext => ?_⟩
        obtain ⟨hallowed, hrest⟩ := hguarded next hnext
        have hkept := hpreserved start label next hinvariant hnext
        exact (ih hkept ((hstep start label next hinvariant hstart hnext).mpr hallowed)).mpr hrest

/-- When a step leads to a good state exactly if it is allowed and leaves a good one, a
schedule ends in a good state exactly if it starts in one and its steps are all allowed. -/
theorem final_iff_guarded {good invariant : State → Prop} {allowed : State → Label → Prop}
    (hpreserved : ∀ state label next, invariant state → machine.step state label = some next →
      invariant next)
    (hstep : ∀ state label next, invariant state → machine.step state label = some next →
      (good next ↔ allowed state label ∧ good state))
    {start final : State} {schedule : List Label} (hinvariant : invariant start)
    (hrun : machine.run start schedule = some final) :
    good final ↔ good start ∧ machine.Guarded allowed start schedule := by
  induction schedule generalizing start with
  | nil =>
      obtain rfl := Option.some.inj hrun
      exact (and_iff_left trivial).symm
  | cons label rest ih =>
      obtain ⟨middle, hmiddle, hrest⟩ := machine.run_cons_eq_some.mp hrun
      rw [ih (hpreserved start label middle hinvariant hmiddle) hrest,
        hstep start label middle hinvariant hmiddle]
      constructor
      · rintro ⟨⟨hallowed, hgood⟩, hguarded⟩
        refine ⟨hgood, fun next hnext => ?_⟩
        obtain rfl := Option.some.inj (hmiddle.symm.trans hnext)
        exact ⟨hallowed, hguarded⟩
      · rintro ⟨hgood, hguarded⟩
        exact ⟨⟨(hguarded middle hmiddle).1, hgood⟩, (hguarded middle hmiddle).2⟩

theorem always_iff_guarded {good : State → Prop} {allowed : State → Label → Prop}
    (hstep : ∀ state label next, good state → machine.step state label = some next →
      (good next ↔ allowed state label))
    {start : State} (hstart : good start) (schedule : List Label) :
    machine.Always good start schedule ↔ machine.Guarded allowed start schedule :=
  always_iff_guarded_of_invariant (fun _ _ _ _ _ => trivial)
    (fun state label next _ => hstep state label next) trivial hstart schedule

end Machine

/-- How an await ends. What it waits for may have been executed when it rejects. -/
inductive Reply where
  | ok
  | error (executed : Bool)
deriving DecidableEq, Repr

/-! ## Parties by position

A machine of many parties keeps them in a list, where a label names a party by its
position. A new party is appended and a party that moves is replaced.
-/

section Parties

variable {Party : Type u} {parties : List Party} {position other : Nat} {party found : Party}

theorem lookup_concat : (parties ++ [party])[other]? = some found ↔
    parties[other]? = some found ∨ other = parties.length ∧ party = found := by
  grind

theorem lookup_set (hposition : position < parties.length) :
    (parties.set position party)[other]? = some found ↔
      other = position ∧ party = found ∨ other ≠ position ∧ parties[other]? = some found := by
  grind

/-- The sum over all parties changes by what the move of one changes. -/
theorem sum_map_set (hfound : parties[position]? = some found) (value : Party → Nat) :
    ((parties.set position party).map value).sum + value found =
      (parties.map value).sum + value party := by
  induction parties generalizing position with
  | nil => cases hfound
  | cons first rest ih =>
      cases position with
      | zero =>
          cases hfound
          simp only [List.set_cons_zero, List.map_cons, List.sum_cons]
          omega
      | succ position =>
          have hrest := ih hfound
          simp only [List.set_cons_succ, List.map_cons, List.sum_cons]
          omega

/-- What holds of all parties after a move of one that it held of already. -/
theorem forall_mem_set_iff {property : Party → Prop} (hfound : parties[position]? = some found)
    (hproperty : property found) :
    (∀ member ∈ parties.set position party, property member) ↔
      property party ∧ ∀ member ∈ parties, property member := by
  have hposition : position < parties.length := (List.getElem?_eq_some_iff.mp hfound).1
  simp only [List.mem_iff_getElem?]
  constructor
  · intro hall
    refine ⟨hall party ⟨position, (lookup_set hposition).mpr (.inl ⟨rfl, rfl⟩)⟩, ?_⟩
    rintro member ⟨other, hmember⟩
    by_cases hother : other = position
    · subst hother
      exact Option.some.inj (hfound.symm.trans hmember) ▸ hproperty
    · exact hall member ⟨other, (lookup_set hposition).mpr (.inr ⟨hother, hmember⟩)⟩
  · rintro ⟨hparty, hall⟩ member ⟨other, hmember⟩
    rcases (lookup_set hposition).mp hmember with ⟨_, rfl⟩ | ⟨_, hold⟩
    · exact hparty
    · exact hall member ⟨other, hold⟩

end Parties

end RaylsSuite.Foundation
