import Mathlib.Order.Basic
import RaylsSuite.Foundation.Machine

/-! # Lanes that settle their items

A lane goes through a list of items. It checks the world for each of them and
acts on it where the item needs an action, with an await at the check and at
the action, where other lanes move. When actions only move the world up and an
item that needs nothing never needs anything again, a lane that returns leaves
all its items settled, and lanes over settled items do nothing.
-/

namespace RaylsSuite.Foundation

universe u v w

/-- Actions that never take back what they did. -/
structure Effects (World : Type u) [Preorder World] (Action : Type v) where
  apply : World → Action → World
  le_apply : ∀ world action, world ≤ apply world action
  apply_mono : ∀ world later action, world ≤ later → apply world action ≤ apply later action

variable {World : Type u} [Preorder World] {Action : Type v} {Item : Type w}

/-- What an item needs done in a world. -/
structure Task (effects : Effects World Action) (Item : Type w) where
  needs : World → Item → Option Action
  needs_mono : ∀ world later item, world ≤ later → needs world item = none →
    needs later item = none
  needs_apply : ∀ world item action, needs world item = some action →
    needs (effects.apply world action) item = none

variable {effects : Effects World Action} {task : Task effects Item} {world later : World}
  {items rest : List Item} {item : Item} {action : Action}

def Task.Settled (task : Task effects Item) (world : World) (items : List Item) : Prop :=
  ∀ item ∈ items, task.needs world item = none

theorem Task.Settled.mono (hsettled : task.Settled world items) (hle : world ≤ later) :
    task.Settled later items :=
  fun item hitem => task.needs_mono world later item hle (hsettled item hitem)

/-! ## One lane -/

/-- A lane is suspended in a call before its loop, in the check of an item, or in an action
that the item at hand needed. -/
inductive Lane (Item : Type w) (Action : Type v) where
  | opening (items : List Item)
  | checking (item : Item) (rest : List Item)
  | acting (item : Item) (action : Action) (rest : List Item)
  | returned
deriving DecidableEq, Repr

namespace Lane

def next : List Item → Lane Item Action
  | [] => .returned
  | item :: rest => .checking item rest

def isReturned : Lane Item Action → Bool
  | .returned => true
  | _ => false

/-- The items that the lane has not settled yet. -/
def remaining : Lane Item Action → List Item
  | .opening items => items
  | .checking item rest | .acting item _ rest => item :: rest
  | .returned => []

/-- What a lane does between two awaits; `lane` is `none` when it throws. -/
structure Turn (World : Type u) (Item : Type w) (Action : Type v) where
  world : World
  lane : Option (Lane Item Action)
  sent : List Action

def resume (task : Task effects Item) (world : World) :
    Lane Item Action → Reply → Option (Turn World Item Action)
  | .returned, _ => none
  | .opening items, .ok => some ⟨world, some (next items), []⟩
  | .checking item rest, .ok =>
      match task.needs world item with
      | none => some ⟨world, some (next rest), []⟩
      | some action => some ⟨world, some (.acting item action rest), [action]⟩
  | .acting _ action rest, .ok => some ⟨effects.apply world action, some (next rest), []⟩
  | .acting _ action _, .error true => some ⟨effects.apply world action, none, []⟩
  | _, .error _ => some ⟨world, none, []⟩

variable {lane resumed : Lane Item Action} {turn : Turn World Item Action} {reply : Reply}

@[simp] theorem remaining_next (items : List Item) :
    (next items : Lane Item Action).remaining = items := by
  cases items <;> rfl

theorem next_ne_acting : next items ≠ .acting item action rest := by
  cases items <;> simp [next]

/-- A turn takes nothing away from the world. -/
theorem world_le_resume (hturn : lane.resume task world reply = some turn) :
    world ≤ turn.world := by
  unfold resume at hturn
  split at hturn
  case h_1 => cases hturn
  case h_3 => split at hturn <;> cases hturn <;> exact le_rfl
  case h_4 | h_5 => cases hturn; exact effects.le_apply _ _
  all_goals cases hturn; exact le_rfl

/-- Of the items it was given, the lane has only the remaining ones to settle, and an action
that is under way settles its item. -/
structure Covers (task : Task effects Item) (world : World) (items : List Item)
    (lane : Lane Item Action) : Prop where
  settled : ∀ item ∈ items, task.needs world item = none ∨ item ∈ lane.remaining
  pending : ∀ item action rest, lane = .acting item action rest →
    task.needs (effects.apply world action) item = none

theorem covers_opening : (opening items : Lane Item Action).Covers task world items where
  settled _ hitem := Or.inr hitem
  pending _ _ _ heq := by cases heq

theorem covers_next : (next items : Lane Item Action).Covers task world items where
  settled _ hitem := Or.inr (by rwa [remaining_next])
  pending _ _ _ heq := absurd heq next_ne_acting

theorem Covers.mono (hcovers : lane.Covers task world items) (hle : world ≤ later) :
    lane.Covers task later items where
  settled item hitem := (hcovers.settled item hitem).imp_left (task.needs_mono _ _ _ hle)
  pending item action rest heq :=
    task.needs_mono _ _ _ (effects.apply_mono _ _ _ hle) (hcovers.pending item action rest heq)

/-- A lane that is past its item has settled it. -/
theorem Covers.past (hcovers : lane.Covers task world items) (hle : world ≤ later)
    (hremaining : lane.remaining = item :: rest) (hitem : task.needs later item = none) :
    (next rest : Lane Item Action).Covers task later items where
  settled other hother := by
    rcases hcovers.settled other hother with hdone | hmem
    · exact Or.inl (task.needs_mono _ _ _ hle hdone)
    · rw [hremaining] at hmem
      rcases List.mem_cons.mp hmem with rfl | hmem
      · exact Or.inl hitem
      · exact Or.inr (by rwa [remaining_next])
  pending _ _ _ heq := absurd heq next_ne_acting

/-- A lane that resumes still covers its items. -/
theorem Covers.resume (hcovers : lane.Covers task world items)
    (hturn : lane.resume task world reply = some turn) (hlane : turn.lane = some resumed) :
    resumed.Covers task turn.world items := by
  unfold Lane.resume at hturn
  split at hturn
  case h_1 => cases hturn
  case h_2 remaining =>
    cases hturn
    obtain rfl := Option.some.inj hlane
    refine ⟨fun item hitem => (hcovers.settled item hitem).imp_right fun hmem => ?_,
      fun _ _ _ heq => absurd heq next_ne_acting⟩
    rw [remaining_next]
    exact hmem
  case h_3 item rest =>
    split at hturn
    next hneeds =>
      cases hturn
      obtain rfl := Option.some.inj hlane
      exact hcovers.past le_rfl rfl hneeds
    next action hneeds =>
      cases hturn
      obtain rfl := Option.some.inj hlane
      refine ⟨hcovers.settled, ?_⟩
      rintro _ _ _ ⟨⟩
      exact task.needs_apply world item action hneeds
  case h_4 item action rest =>
    cases hturn
    obtain rfl := Option.some.inj hlane
    exact hcovers.past (effects.le_apply _ _) rfl (hcovers.pending _ _ _ rfl)
  all_goals
    cases hturn
    cases hlane

theorem Covers.returned (hcovers : lane.Covers task world items)
    (hreturned : lane.isReturned = true) : task.Settled world items := by
  intro item hitem
  cases lane with
  | returned => exact (hcovers.settled item hitem).resolve_right List.not_mem_nil
  | _ => cases hreturned

/-- The lane has nothing to do. -/
structure Quiet (task : Task effects Item) (world : World) (lane : Lane Item Action) : Prop where
  settled : task.Settled world lane.remaining
  idle : ∀ item action rest, lane ≠ .acting item action rest

theorem quiet_next (hsettled : task.Settled world items) :
    (next items : Lane Item Action).Quiet task world where
  settled := by rwa [remaining_next]
  idle _ _ _ := next_ne_acting

/-- A quiet lane sends nothing and stays quiet. -/
theorem Quiet.resume (hquiet : lane.Quiet task world)
    (hturn : lane.resume task world reply = some turn) :
    turn.world = world ∧ turn.sent = [] ∧
      ∀ resumed, turn.lane = some resumed → resumed.Quiet task world := by
  unfold Lane.resume at hturn
  split at hturn
  case h_1 => cases hturn
  case h_2 remaining =>
    cases hturn
    refine ⟨rfl, rfl, ?_⟩
    rintro _ ⟨⟩
    exact quiet_next hquiet.settled
  case h_3 item rest =>
    rw [hquiet.settled item List.mem_cons_self] at hturn
    cases hturn
    refine ⟨rfl, rfl, ?_⟩
    rintro _ ⟨⟩
    exact quiet_next fun other hother => hquiet.settled other (List.mem_cons_of_mem _ hother)
  case h_4 | h_5 => exact absurd rfl (hquiet.idle _ _ _)
  all_goals
    cases hturn
    exact ⟨rfl, rfl, fun _ heq => by cases heq⟩

end Lane

/-! ## Lanes side by side -/

/-- One of the lanes covers the items. -/
def Covered (task : Task effects Item) (world : World) (lanes : List (Lane Item Action))
    (items : List Item) : Prop :=
  ∃ lane ∈ lanes, lane.Covers task world items

variable {lanes : List (Lane Item Action)} {position : Nat} {lane resumed : Lane Item Action}
  {turn : Lane.Turn World Item Action} {reply : Reply}

/-- The lanes cover their items whichever of them resumes. -/
theorem Covered.resume (hcovered : Covered task world lanes items)
    (hlane : lanes[position]? = some lane) (hturn : lane.resume task world reply = some turn)
    (hresumed : turn.lane = some resumed) :
    Covered task turn.world (lanes.set position resumed) items := by
  obtain ⟨member, hmember, hcovers⟩ := hcovered
  obtain ⟨other, hother⟩ := List.mem_iff_getElem?.mp hmember
  have hposition := (List.getElem?_eq_some_iff.mp hlane).1
  by_cases hsame : other = position
  · subst hsame
    obtain rfl := Option.some.inj (hlane.symm.trans hother)
    exact ⟨resumed, List.mem_set hposition resumed, hcovers.resume hturn hresumed⟩
  · refine ⟨member, List.mem_iff_getElem?.mpr ⟨other, ?_⟩,
      hcovers.mono (Lane.world_le_resume hturn)⟩
    exact (lookup_set hposition).mpr (Or.inr ⟨hsame, hother⟩)

theorem Covered.returned (hcovered : Covered task world lanes items)
    (hreturned : lanes.all Lane.isReturned = true) : task.Settled world items := by
  obtain ⟨lane, hlane, hcovers⟩ := hcovered
  exact hcovers.returned (List.all_eq_true.mp hreturned lane hlane)

end RaylsSuite.Foundation
