import RaylsSuite.Runner.QueueInvariant

/-! # A whole run

`run` goes through its phases one after another. Before the parallel phase at
most one child is in flight; from there on the queue's slots take the steps.
The environment decides when a child closes and with which code, when the
relayers have recovered, and how the slots interleave.
-/

namespace RaylsSuite.Runner

open Foundation

/-- A runner with its partitioned files and the durations of the last report. -/
structure Run where
  runner : BaseParallelRunner
  hints : DurationHints
  partition : Partition

/-- What `run` begins with: it exits at once when no file is found, and else goes on with the
partition of the files. -/
def Run.resolve (runner : BaseParallelRunner) (hints : DurationHints)
    (partitionFiles : List String → Partition) (found : List (List String)) : Except Nat Run :=
  (resolveFiles found).map fun allFiles => ⟨runner, hints, partitionFiles allFiles⟩

/-- Where `run` is suspended, or how it ended. -/
inductive RunPhase where
  | starting
  | bootstrapping (child : Child)
  | serial (child : Child)
  | recovering
  | parallel (job : QueueJob) (queue : QueueState)
  | passed
  | exited (code : Nat)
  | threw

/-- The table holds the children outside the queue, and those of the queue once
its slots are done. -/
structure RunState where
  phase : RunPhase
  table : Processes Child

inductive RunEvent where
  | start
  | close (code : ExitCode)
  | recovered
  | slot (event : SlotEvent)
  | slotsDone
deriving DecidableEq, Repr

/-- The children of a queue, as the operating system sees them. -/
def QueueState.processes (job : QueueJob) (queue : QueueState) : Processes Child :=
  queue.table.map (Dispatch.child job.runner)

/-- Every child of the run so far. -/
def RunState.processes (state : RunState) : Processes Child :=
  match state.phase with
  | .parallel job queue => state.table.append (queue.processes job)
  | _ => state.table

def RunState.initial : RunState := ⟨.starting, .empty⟩

namespace Run

variable (run : Run)

/-- `bootstrap` returns early for `SKIP_BOOTSTRAP=1` and for a single worker. -/
def bootstraps : Bool := !run.runner.skipBootstrap && !run.runner.singleWorker

/-- `runSerial`, up to its await. -/
def runSerial (table : Processes Child) : RunState :=
  if run.partition.serial.length = 0 then ⟨.recovering, table⟩
  else
    ⟨.serial (run.runner.serialChild run.partition.serial),
      table.spawn (run.runner.serialChild run.partition.serial)⟩

def step (state : RunState) : RunEvent → Option RunState
  | .start =>
      match state.phase with
      | .starting =>
          if run.bootstraps then
            some ⟨.bootstrapping run.runner.bootstrapChild,
              state.table.spawn run.runner.bootstrapChild⟩
          else some (run.runSerial state.table)
      | _ => none
  | .close code =>
      match state.phase with
      | .bootstrapping child =>
          if code ≠ some 0 then some ⟨.exited 1, state.table.close child code⟩
          else some (run.runSerial (state.table.close child code))
      | .serial child =>
          if code ≠ some 0 then some ⟨.exited 1, state.table.close child code⟩
          else some ⟨.recovering, state.table.close child code⟩
      | _ => none
  | .recovered =>
      match state.phase with
      | .recovering =>
          match run.runner.runParallelWithQueue run.hints run.partition.parallel with
          | .returned => some ⟨.passed, state.table⟩
          -- `Array.from` refuses the worker count as a length
          | .threw => some ⟨.threw, state.table⟩
          | .started job => some ⟨.parallel job job.initial, state.table⟩
      | _ => none
  | .slot event =>
      match state.phase with
      | .parallel job queue =>
          (job.machine.step queue event).map fun next => ⟨.parallel job next, state.table⟩
      | _ => none
  | .slotsDone =>
      match state.phase with
      | .parallel job queue =>
          if job.Completed queue then
            match queue.ending with
            | .returned => some ⟨.passed, state.table.append (queue.processes job)⟩
            | .exit code => some ⟨.exited code, state.table.append (queue.processes job)⟩
          else none
      | _ => none

def machine : Machine RunState RunEvent := ⟨run.step⟩

/-- The states that some schedule of the environment leads to. -/
def Reachable (state : RunState) : Prop := run.machine.Reaches .initial state

end Run

/-! ## What one step does -/

/-- The steps of a run, with everything that enables them. -/
inductive RunStep (run : Run) : RunState → RunEvent → RunState → Prop where
  | bootstrap (table : Processes Child) (hbootstraps : run.bootstraps = true) :
      RunStep run ⟨.starting, table⟩ .start
        ⟨.bootstrapping run.runner.bootstrapChild, table.spawn run.runner.bootstrapChild⟩
  | skip (table : Processes Child) (hskips : run.bootstraps = false) :
      RunStep run ⟨.starting, table⟩ .start (run.runSerial table)
  | bootstrapFailed (child : Child) (table : Processes Child) (code : ExitCode)
      (hcode : code ≠ some 0) :
      RunStep run ⟨.bootstrapping child, table⟩ (.close code) ⟨.exited 1, table.close child code⟩
  | bootstrapped (child : Child) (table : Processes Child) :
      RunStep run ⟨.bootstrapping child, table⟩ (.close (some 0))
        (run.runSerial (table.close child (some 0)))
  | serialFailed (child : Child) (table : Processes Child) (code : ExitCode)
      (hcode : code ≠ some 0) :
      RunStep run ⟨.serial child, table⟩ (.close code) ⟨.exited 1, table.close child code⟩
  | serialPassed (child : Child) (table : Processes Child) :
      RunStep run ⟨.serial child, table⟩ (.close (some 0))
        ⟨.recovering, table.close child (some 0)⟩
  | noParallel (table : Processes Child)
      (hcall : run.runner.runParallelWithQueue run.hints run.partition.parallel = .returned) :
      RunStep run ⟨.recovering, table⟩ .recovered ⟨.passed, table⟩
  | rangeError (table : Processes Child)
      (hcall : run.runner.runParallelWithQueue run.hints run.partition.parallel = .threw) :
      RunStep run ⟨.recovering, table⟩ .recovered ⟨.threw, table⟩
  | started (table : Processes Child) (job : QueueJob)
      (hcall : run.runner.runParallelWithQueue run.hints run.partition.parallel = .started job) :
      RunStep run ⟨.recovering, table⟩ .recovered ⟨.parallel job job.initial, table⟩
  | slot (table : Processes Child) (job : QueueJob) (queue next : QueueState) (event : SlotEvent)
      (hslot : job.machine.step queue event = some next) :
      RunStep run ⟨.parallel job queue, table⟩ (.slot event) ⟨.parallel job next, table⟩
  | slotsPassed (table : Processes Child) (job : QueueJob) (queue : QueueState)
      (hcompleted : job.Completed queue) (hfailures : queue.failures = []) :
      RunStep run ⟨.parallel job queue, table⟩ .slotsDone
        ⟨.passed, table.append (queue.processes job)⟩
  | slotsFailed (table : Processes Child) (job : QueueJob) (queue : QueueState)
      (hcompleted : job.Completed queue) (hfailures : queue.failures ≠ []) :
      RunStep run ⟨.parallel job queue, table⟩ .slotsDone
        ⟨.exited 1, table.append (queue.processes job)⟩

/-- Every step of a run's machine is one that `RunStep` lists. -/
theorem Run.step_cases {run : Run} {state next : RunState} {event : RunEvent}
    (hstep : run.machine.step state event = some next) : RunStep run state event next := by
  change run.step state event = some next at hstep
  obtain ⟨phase, table⟩ := state
  cases event with
  | start =>
      cases phase with
      | starting =>
          simp only [step] at hstep
          split at hstep
          next hbootstraps => exact Option.some.inj hstep ▸ .bootstrap table hbootstraps
          next hskips => exact Option.some.inj hstep ▸ .skip table (Bool.not_eq_true _ ▸ hskips)
      | _ => cases hstep
  | close code =>
      cases phase with
      | bootstrapping child =>
          simp only [step] at hstep
          split at hstep
          next hcode => exact Option.some.inj hstep ▸ .bootstrapFailed child table code hcode
          next hcode =>
            obtain rfl := not_not.mp hcode
            exact Option.some.inj hstep ▸ .bootstrapped child table
      | serial child =>
          simp only [step] at hstep
          split at hstep
          next hcode => exact Option.some.inj hstep ▸ .serialFailed child table code hcode
          next hcode =>
            obtain rfl := not_not.mp hcode
            exact Option.some.inj hstep ▸ .serialPassed child table
      | _ => cases hstep
  | recovered =>
      cases phase with
      | recovering =>
          simp only [step] at hstep
          split at hstep
          next hcall => exact Option.some.inj hstep ▸ .noParallel table hcall
          next hcall => exact Option.some.inj hstep ▸ .rangeError table hcall
          next job hcall => exact Option.some.inj hstep ▸ .started table job hcall
      | _ => cases hstep
  | slot event =>
      cases phase with
      | parallel job queue =>
          obtain ⟨middle, hslot, rfl⟩ := Option.map_eq_some_iff.mp hstep
          exact .slot table job queue middle event hslot
      | _ => cases hstep
  | slotsDone =>
      cases phase with
      | parallel job queue =>
          simp only [step, QueueState.ending] at hstep
          split at hstep
          next hcompleted =>
            split at hstep
            next hending =>
              split at hending
              next => cases hending
              next hnone =>
                exact Option.some.inj hstep ▸ .slotsPassed table job queue hcompleted
                  (List.length_eq_zero_iff.mp (Nat.eq_zero_of_not_pos hnone))
            next code hending =>
              split at hending
              next hfailed =>
                cases hending
                exact Option.some.inj hstep ▸ .slotsFailed table job queue hcompleted
                  (List.ne_nil_of_length_pos hfailed)
              next => cases hending
          next => cases hstep
      | _ => cases hstep

/-! ## The invariant of a run -/

namespace Run

variable (run : Run)

/-- The bootstrap child, if the phase runs. -/
def bootstrapChildren : List Child :=
  if run.bootstraps then [run.runner.bootstrapChild] else []

/-- The serial child, if there are serial files. -/
def serialChildren : List Child :=
  if run.partition.serial = [] then [] else [run.runner.serialChild run.partition.serial]

/-- The children of the phases before the queue, all of which exited with code 0. -/
def prelude : Processes Child := .settled (run.bootstrapChildren ++ run.serialChildren)

/-- The queue finished without a failure. -/
def QueuePassed (job : QueueJob) (queue : QueueState) : Prop :=
  run.runner.runParallelWithQueue run.hints run.partition.parallel = .started job ∧
    job.machine.Reaches job.initial queue ∧ job.Completed queue ∧ queue.failures = []

/-- Which children each phase has behind it. -/
def Inv (state : RunState) : Prop :=
  match state.phase with
  | .starting => state.table = .empty
  | .bootstrapping child =>
      run.bootstraps = true ∧ child = run.runner.bootstrapChild ∧
        state.table = Processes.empty.spawn child
  | .serial child =>
      run.partition.serial ≠ [] ∧ child = run.runner.serialChild run.partition.serial ∧
        state.table = (Processes.settled run.bootstrapChildren).spawn child
  | .recovering => state.table = run.prelude
  | .parallel job queue =>
      run.runner.runParallelWithQueue run.hints run.partition.parallel = .started job ∧
        job.machine.Reaches job.initial queue ∧ state.table = run.prelude
  | .passed =>
      (run.partition.parallel = [] ∧ state.table = run.prelude) ∨
        ∃ job queue, run.QueuePassed job queue ∧
          state.table = run.prelude.append (queue.processes job)
  | .exited _ | .threw => state.table.inFlight = []

variable {run} {state next : RunState} {event : RunEvent}

theorem runSerial_inv (run : Run) : run.Inv (run.runSerial (.settled run.bootstrapChildren)) := by
  unfold runSerial
  by_cases hserial : run.partition.serial = []
  · rw [if_pos (List.length_eq_zero_iff.mpr hserial)]
    simp [Inv, prelude, serialChildren, hserial]
  · rw [if_neg (mt List.length_eq_zero_iff.mp hserial)]
    exact ⟨hserial, rfl, rfl⟩

/-- The children of a completed queue have all closed. -/
theorem processes_idle {job : QueueJob} {queue : QueueState}
    (hreach : job.machine.Reaches job.initial queue) (hcompleted : job.Completed queue) :
    (queue.processes job).inFlight = [] :=
  congrArg (List.map _) ((QueueInv.of_reaches hreach).idle hcompleted)

/-- Every step of a run keeps its invariant. -/
theorem Inv.step (hinv : run.Inv state) (hstep : run.machine.step state event = some next) :
    run.Inv next := by
  cases step_cases hstep with
  | bootstrap table hbootstraps =>
      obtain rfl : table = .empty := hinv
      exact ⟨hbootstraps, rfl, rfl⟩
  | skip table hskips =>
      obtain rfl : table = .empty := hinv
      -- without a bootstrap the serial phase starts from an empty table
      have hchildren : run.bootstrapChildren = [] := by simp [bootstrapChildren, hskips]
      have hserial := run.runSerial_inv
      rwa [hchildren] at hserial
  | bootstrapFailed child table code hcode =>
      obtain ⟨-, rfl, rfl⟩ := hinv
      exact Processes.close_spawn_inFlight rfl _ code
  | bootstrapped child table =>
      obtain ⟨hbootstraps, rfl, rfl⟩ := hinv
      have hchildren : run.bootstrapChildren = [run.runner.bootstrapChild] := by
        simp [bootstrapChildren, hbootstraps]
      have hserial := run.runSerial_inv
      rw [hchildren] at hserial
      have hclosed := Processes.close_spawn_settled [] run.runner.bootstrapChild
      exact hclosed.symm ▸ hserial
  | serialFailed child table code hcode =>
      obtain ⟨-, rfl, rfl⟩ := hinv
      exact Processes.close_spawn_inFlight rfl _ code
  | serialPassed child table =>
      obtain ⟨hserial, rfl, rfl⟩ := hinv
      have hchildren : run.serialChildren = [run.runner.serialChild run.partition.serial] :=
        if_neg hserial
      exact (Processes.close_spawn_settled _ _).trans (by rw [prelude, hchildren])
  | noParallel table hcall => exact Or.inl ⟨runParallelWithQueue_eq_returned.mp hcall, hinv⟩
  | rangeError table hcall =>
      obtain rfl : table = run.prelude := hinv
      rfl
  | started table job hcall => exact ⟨hcall, Machine.Reaches.refl _ _, hinv⟩
  | slot table job queue next event hslot =>
      obtain ⟨hcall, hreach, htable⟩ := hinv
      exact ⟨hcall, hreach.step event hslot, htable⟩
  | slotsPassed table job queue hcompleted hfailures =>
      obtain ⟨hcall, hreach, htable⟩ := hinv
      exact Or.inr ⟨job, queue, ⟨hcall, hreach, hcompleted, hfailures⟩,
        congrArg (Processes.append · _) htable⟩
  | slotsFailed table job queue hcompleted hfailures =>
      obtain ⟨hcall, hreach, htable⟩ := hinv
      obtain rfl : table = run.prelude := htable
      exact processes_idle hreach hcompleted

theorem Reachable.inv (hreach : run.Reachable state) : run.Inv state :=
  Machine.Reaches.invariant run.Inv (fun _ _ _ hinv hstep => hinv.step hstep) hreach rfl

/-- No child is in flight, or the bootstrap or serial child is alone, or the
children are those of the queue's slots. -/
theorem Inv.inFlight (hinv : run.Inv state) :
    state.processes.inFlight = [] ∨
      state.processes.inFlight = [run.runner.bootstrapChild] ∨
      state.processes.inFlight = [run.runner.serialChild run.partition.serial] ∨
      ∃ job queue, run.runner.runParallelWithQueue run.hints run.partition.parallel =
          .started job ∧ job.machine.Reaches job.initial queue ∧
        state.processes.inFlight = queue.table.inFlight.map (Dispatch.child job.runner) := by
  obtain ⟨phase, table⟩ := state
  cases phase with
  | starting =>
      obtain rfl : table = .empty := hinv
      exact Or.inl rfl
  | bootstrapping child =>
      obtain ⟨-, rfl, htable⟩ := hinv
      exact Or.inr (Or.inl (congrArg Processes.inFlight htable))
  | serial child =>
      obtain ⟨-, rfl, htable⟩ := hinv
      exact Or.inr (Or.inr (Or.inl (congrArg Processes.inFlight htable)))
  | recovering =>
      obtain rfl : table = run.prelude := hinv
      exact Or.inl rfl
  | parallel job queue =>
      obtain ⟨hcall, hreach, htable⟩ := hinv
      obtain rfl : table = run.prelude := htable
      exact Or.inr (Or.inr (Or.inr ⟨job, queue, hcall, hreach, rfl⟩))
  | passed =>
      rcases hinv with ⟨-, htable⟩ | ⟨job, queue, ⟨-, hreach, hcompleted, -⟩, htable⟩
      · obtain rfl : table = run.prelude := htable
        exact Or.inl rfl
      · obtain rfl : table = run.prelude.append (queue.processes job) := htable
        exact Or.inl (processes_idle hreach hcompleted)
  | exited code => exact Or.inl hinv
  | threw => exact Or.inl hinv

/-! ## Runs into the parallel phase -/

variable (run)

/-- Children that all exit with code 0 take the run to the relayer recovery. -/
theorem reachable_recovering : run.Reachable ⟨.recovering, run.prelude⟩ := by
  have hserial : run.Reachable (run.runSerial (.settled run.bootstrapChildren)) := by
    cases hbootstraps : run.bootstraps with
    | false =>
        refine ⟨[.start], ?_⟩
        simp [Machine.run, machine, step, RunState.initial, hbootstraps, bootstrapChildren,
          Processes.settled, Processes.empty]
    | true =>
        refine ⟨[.start, .close (some 0)], ?_⟩
        have hclosed := Processes.close_spawn_settled [] run.runner.bootstrapChild
        simp only [Machine.run, machine, step, RunState.initial, hbootstraps, bootstrapChildren,
          if_true, Option.bind_some, ne_eq, not_true_eq_false, if_false]
        exact congrArg (some <| run.runSerial ·) hclosed
  by_cases hfiles : run.partition.serial = []
  · have hprelude : run.runSerial (.settled run.bootstrapChildren) =
        ⟨.recovering, run.prelude⟩ := by
      simp [runSerial, prelude, serialChildren, hfiles]
    exact hprelude ▸ hserial
  · refine hserial.step (.close (some 0)) ?_
    have hclosed := Processes.close_spawn_settled run.bootstrapChildren
      (run.runner.serialChild run.partition.serial)
    simp only [runSerial, List.length_eq_zero_iff, hfiles, if_false, machine, step, ne_eq,
      not_true_eq_false]
    rw [hclosed, prelude, serialChildren, if_neg hfiles]

theorem reachable_parallel {job : QueueJob}
    (hcall : run.runner.runParallelWithQueue run.hints run.partition.parallel = .started job) :
    run.Reachable ⟨.parallel job job.initial, run.prelude⟩ :=
  run.reachable_recovering.step .recovered (by simp only [machine, step, hcall])

end Run

end RaylsSuite.Runner
