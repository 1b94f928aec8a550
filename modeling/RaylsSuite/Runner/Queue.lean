import Mathlib.Logic.Function.Basic
import RaylsSuite.Foundation.Machine
import RaylsSuite.Runner.Configuration

/-! # The dynamic parallel queue

`runParallelWithQueue` starts one coroutine per slot. The coroutines share a
queue cursor, a list of failures and a bail flag, and each of them runs without
interruption between two awaits. A schedule of slot events is an interleaving
of their stagger timers, their loop heads and the closings of their children.
-/

namespace RaylsSuite.Runner

open Foundation

/-- The constants that the slots close over. -/
structure QueueJob where
  runner : BaseParallelRunner
  queue : List String
  slotCount : Nat

/-- How a call of `runParallelWithQueue` begins: it returns, it throws the RangeError
of an oversized slot array, or it starts its slots. -/
inductive QueueCall where
  | returned
  | threw
  | started (job : QueueJob)

def BaseParallelRunner.runParallelWithQueue (runner : BaseParallelRunner) (hints : DurationHints)
    (parallelFiles : List String) : QueueCall :=
  if parallelFiles.length = 0 then .returned
  else
    match arrayLength runner.workerCount with
    | none => .threw
    | some slotCount => .started ⟨runner, sortByExpectedDuration hints parallelFiles, slotCount⟩

theorem runParallelWithQueue_eq_started {runner : BaseParallelRunner} {hints : DurationHints}
    {parallelFiles : List String} {job : QueueJob} :
    runner.runParallelWithQueue hints parallelFiles = .started job ↔
      parallelFiles ≠ [] ∧ ∃ slotCount, arrayLength runner.workerCount = some slotCount ∧
        job = ⟨runner, sortByExpectedDuration hints parallelFiles, slotCount⟩ := by
  unfold BaseParallelRunner.runParallelWithQueue
  by_cases hempty : parallelFiles = []
  · simp [hempty]
  · rw [if_neg (by simpa using hempty)]
    cases arrayLength runner.workerCount with
    | none => simp
    | some slotCount => simp [hempty, eq_comm]

/-- A call that starts its slots starts one for each worker. -/
theorem job_eq_of_started {runner : BaseParallelRunner} {hints : DurationHints}
    {parallelFiles : List String} {job : QueueJob} {workerCount : Nat}
    (hcount : runner.workerCount = some (workerCount : Int))
    (hstarted : runner.runParallelWithQueue hints parallelFiles = .started job) :
    job = ⟨runner, sortByExpectedDuration hints parallelFiles, workerCount⟩ := by
  obtain ⟨-, slotCount, hlength, rfl⟩ := runParallelWithQueue_eq_started.mp hstarted
  rw [hcount, arrayLength, Option.ite_none_right_eq_some, Option.some.injEq,
    Int.toNat_natCast] at hlength
  rw [hlength.2]

theorem runParallelWithQueue_started (runner : BaseParallelRunner) (hints : DurationHints)
    {parallelFiles : List String} {slotCount : Nat} (hfiles : parallelFiles ≠ [])
    (hlength : arrayLength runner.workerCount = some slotCount) :
    runner.runParallelWithQueue hints parallelFiles =
      .started ⟨runner, sortByExpectedDuration hints parallelFiles, slotCount⟩ :=
  runParallelWithQueue_eq_started.mpr ⟨hfiles, slotCount, hlength, rfl⟩

/-- Without known durations the queue is the list of files. -/
theorem runParallelWithQueue_of_unknown (runner : BaseParallelRunner)
    {parallelFiles : List String} {slotCount : Nat} (hfiles : parallelFiles ≠ [])
    (hlength : arrayLength runner.workerCount = some slotCount) :
    runner.runParallelWithQueue (fun _ => none) parallelFiles =
      .started ⟨runner, parallelFiles, slotCount⟩ := by
  rw [runParallelWithQueue_started runner _ hfiles hlength,
    sortByExpectedDuration_of_unknown fun _ _ => rfl]

theorem runParallelWithQueue_eq_returned {runner : BaseParallelRunner} {hints : DurationHints}
    {parallelFiles : List String} :
    runner.runParallelWithQueue hints parallelFiles = .returned ↔ parallelFiles = [] := by
  unfold BaseParallelRunner.runParallelWithQueue
  split
  next hempty => simpa using hempty
  next hfiles => split <;> simpa using hfiles

/-- One file handed to a slot: `fileIndex` in the queue, `runIndex` in the slot. -/
structure Dispatch where
  slotId : Nat
  fileIndex : Nat
  runIndex : Nat
  file : String
deriving DecidableEq, Repr

def Dispatch.reportSuffix (dispatch : Dispatch) : String :=
  s!"{dispatch.slotId}-{dispatch.runIndex}"

/-- The child that a slot spawns for a file. -/
def Dispatch.child (runner : BaseParallelRunner) (dispatch : Dispatch) : Child where
  command := .test [dispatch.file] runner.flags
  MOCHA_WORKER_ID := toString dispatch.slotId
  PARALLEL_WORKERS := numberText runner.workerCount
  MOCHA_REPORT_SUFFIX := some dispatch.reportSuffix

structure Failure where
  file : String
  slotId : Nat
  fileIndex : Nat
deriving DecidableEq, Repr

def Dispatch.failure (dispatch : Dispatch) : Failure :=
  ⟨dispatch.file, dispatch.slotId, dispatch.fileIndex⟩

/-- Where a slot's coroutine is suspended. -/
inductive SlotPhase where
  | staggering
  | looping
  | awaiting (dispatch : Dispatch)
  | done
deriving DecidableEq, Repr

structure Slot where
  phase : SlotPhase
  runIndex : Nat
deriving DecidableEq, Repr

structure QueueState where
  queuePos : Nat
  failures : List Failure
  bailFlag : Bool
  slot : Nat → Slot
  table : Processes Dispatch

inductive SlotEvent where
  | wake (slotId : Nat)
  | dequeue (slotId : Nat)
  | close (slotId : Nat) (code : ExitCode)
deriving DecidableEq, Repr

namespace QueueState

/-- What the slot takes when it takes the file at the cursor. -/
def dispatch (state : QueueState) (slotId : Nat) (file : String) : Dispatch :=
  ⟨slotId, state.queuePos, (state.slot slotId).runIndex, file⟩

/-- The slot is suspended elsewhere; its run index stays. -/
def setPhase (state : QueueState) (slotId : Nat) (phase : SlotPhase) : QueueState :=
  { state with slot := Function.update state.slot slotId ⟨phase, (state.slot slotId).runIndex⟩ }

/-- The slot has seen its child close; its run index grows. -/
def advance (state : QueueState) (slotId : Nat) (phase : SlotPhase) : QueueState :=
  { state with slot := Function.update state.slot slotId ⟨phase, (state.slot slotId).runIndex + 1⟩ }

end QueueState

namespace QueueJob

variable (job : QueueJob)

/-- All slots are started; slot 0 and unstaggered slots reach their loop at once. -/
def initial : QueueState where
  queuePos := 0
  failures := []
  bailFlag := false
  slot slotId := ⟨if 0 < slotId ∧ job.runner.staggers then .staggering else .looping, 0⟩
  table := .empty

/-- The head of a slot's loop, up to its next await. -/
def loopHead (state : QueueState) (slotId : Nat) : QueueState :=
  if state.bailFlag then state.setPhase slotId .done
  else
    match job.queue[state.queuePos]? with
    -- `queuePos++` also runs when the queue is exhausted
    | none => { state with queuePos := state.queuePos + 1 }.setPhase slotId .done
    | some file =>
        { state with
            queuePos := state.queuePos + 1
            table := state.table.spawn (state.dispatch slotId file) }.setPhase slotId
          (.awaiting (state.dispatch slotId file))

/-- The rest of a slot's loop body once its child has closed. -/
def childClosed (state : QueueState) (slotId : Nat) (dispatch : Dispatch) (code : ExitCode) :
    QueueState :=
  let state := { state with table := state.table.close dispatch code }
  -- a child that a signal killed has no code and fails as well
  if code ≠ some 0 then
    let state := { state with failures := state.failures ++ [dispatch.failure] }
    if job.runner.bails then { state with bailFlag := true }.advance slotId .done
    else state.advance slotId .looping
  else state.advance slotId .looping

def step (state : QueueState) : SlotEvent → Option QueueState
  | .wake slotId =>
      if slotId < job.slotCount ∧ (state.slot slotId).phase = .staggering then
        some (state.setPhase slotId .looping)
      else none
  | .dequeue slotId =>
      if slotId < job.slotCount ∧ (state.slot slotId).phase = .looping then
        some (job.loopHead state slotId)
      else none
  | .close slotId code =>
      match (state.slot slotId).phase with
      | .awaiting dispatch =>
          if slotId < job.slotCount then some (job.childClosed state slotId dispatch code) else none
      | _ => none

def machine : Machine QueueState SlotEvent := ⟨job.step⟩

/-- `Promise.all` over the slots has resolved. -/
def Completed (state : QueueState) : Prop :=
  ∀ slotId < job.slotCount, (state.slot slotId).phase = .done

instance (state : QueueState) : Decidable (job.Completed state) :=
  inferInstanceAs (Decidable (∀ slotId < job.slotCount, _))

end QueueJob

/-- How `runParallelWithQueue` ends after its slots: it returns or exits. -/
inductive Ending where
  | returned
  | exit (code : Nat)
deriving DecidableEq, Repr

def QueueState.ending (state : QueueState) : Ending :=
  if state.failures.length > 0 then .exit 1 else .returned

/-! ## What one step does -/

/-- The steps of a slot, with everything that enables them. -/
inductive SlotStep (job : QueueJob) (state : QueueState) : SlotEvent → QueueState → Prop where
  | woke (slotId : Nat) (hslot : slotId < job.slotCount)
      (hphase : (state.slot slotId).phase = .staggering) :
      SlotStep job state (.wake slotId) (state.setPhase slotId .looping)
  | bailed (slotId : Nat) (hslot : slotId < job.slotCount)
      (hphase : (state.slot slotId).phase = .looping) (hbail : state.bailFlag = true) :
      SlotStep job state (.dequeue slotId) (state.setPhase slotId .done)
  | drained (slotId : Nat) (hslot : slotId < job.slotCount)
      (hphase : (state.slot slotId).phase = .looping) (hbail : state.bailFlag = false)
      (hend : job.queue.length ≤ state.queuePos) :
      SlotStep job state (.dequeue slotId)
        ({ state with queuePos := state.queuePos + 1 }.setPhase slotId .done)
  | dispatched (slotId : Nat) (file : String) (hslot : slotId < job.slotCount)
      (hphase : (state.slot slotId).phase = .looping) (hbail : state.bailFlag = false)
      (hfile : job.queue[state.queuePos]? = some file) :
      SlotStep job state (.dequeue slotId)
        ({ state with
            queuePos := state.queuePos + 1
            table := state.table.spawn (state.dispatch slotId file) }.setPhase slotId
          (.awaiting (state.dispatch slotId file)))
  | succeeded (slotId : Nat) (dispatch : Dispatch) (hslot : slotId < job.slotCount)
      (hphase : (state.slot slotId).phase = .awaiting dispatch) :
      SlotStep job state (.close slotId (some 0))
        ({ state with table := state.table.close dispatch (some 0) }.advance slotId .looping)
  | failed (slotId : Nat) (dispatch : Dispatch) (code : ExitCode) (hslot : slotId < job.slotCount)
      (hphase : (state.slot slotId).phase = .awaiting dispatch) (hcode : code ≠ some 0)
      (hbails : job.runner.bails = false) :
      SlotStep job state (.close slotId code)
        ({ state with
            failures := state.failures ++ [dispatch.failure]
            table := state.table.close dispatch code }.advance slotId .looping)
  | failedBailing (slotId : Nat) (dispatch : Dispatch) (code : ExitCode)
      (hslot : slotId < job.slotCount) (hphase : (state.slot slotId).phase = .awaiting dispatch)
      (hcode : code ≠ some 0) (hbails : job.runner.bails = true) :
      SlotStep job state (.close slotId code)
        ({ state with
            failures := state.failures ++ [dispatch.failure]
            bailFlag := true
            table := state.table.close dispatch code }.advance slotId .done)

/-- Every step of the queue's machine is one of the steps that `SlotStep` lists. -/
theorem QueueJob.step_cases {job : QueueJob} {state next : QueueState} {event : SlotEvent}
    (hstep : job.machine.step state event = some next) : SlotStep job state event next := by
  change job.step state event = some next at hstep
  cases event with
  | wake slotId =>
      simp only [step, Option.ite_none_right_eq_some, Option.some.injEq] at hstep
      obtain ⟨⟨hslot, hphase⟩, rfl⟩ := hstep
      exact .woke slotId hslot hphase
  | dequeue slotId =>
      simp only [step, Option.ite_none_right_eq_some, Option.some.injEq] at hstep
      obtain ⟨⟨hslot, hphase⟩, rfl⟩ := hstep
      unfold loopHead
      by_cases hbail : state.bailFlag = true
      · rw [if_pos hbail]
        exact .bailed slotId hslot hphase hbail
      · rw [if_neg hbail]
        rw [Bool.not_eq_true] at hbail
        cases hfile : job.queue[state.queuePos]? with
        | none => exact .drained slotId hslot hphase hbail (List.getElem?_eq_none_iff.mp hfile)
        | some file => exact .dispatched slotId file hslot hphase hbail hfile
  | close slotId code =>
      simp only [step] at hstep
      split at hstep
      next dispatch hphase =>
        simp only [Option.ite_none_right_eq_some, Option.some.injEq] at hstep
        obtain ⟨hslot, rfl⟩ := hstep
        unfold childClosed
        by_cases hcode : code = some 0
        · subst hcode
          exact .succeeded slotId dispatch hslot hphase
        · simp only [ne_eq, hcode, not_false_eq_true, if_true]
          cases hbails : job.runner.bails with
          | true => exact .failedBailing slotId dispatch code hslot hphase hcode hbails
          | false => exact .failed slotId dispatch code hslot hphase hcode hbails
      next => cases hstep

end RaylsSuite.Runner
