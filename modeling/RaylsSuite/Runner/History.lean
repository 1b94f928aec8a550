import RaylsSuite.Runner.ExactlyOnce
import RaylsSuite.Runner.Run

/-! # The children behind a run

Whatever phase a run is in, and however it ended, its children are accounted
for, and its test children are the serial child and those of the queue's slots.
-/

namespace RaylsSuite.Runner

open Foundation

/-- The test children that the run has spawned. -/
def RunState.tests (state : RunState) : List Child := state.processes.spawned.filter Child.isTest

/-- The run has ended before its queue was drained. -/
def RunPhase.Aborted : RunPhase → Prop
  | .exited _ | .threw => True
  | _ => False

namespace Run

structure History (run : Run) (state : RunState) : Prop where
  accounted : state.processes.Accounted
  tests : ∃ (serial : List Child) (slots : List Dispatch),
    state.tests = serial ++ slots.map (Dispatch.child run.runner) ∧
    (serial = [] ∨ serial = [run.runner.serialChild run.partition.serial]) ∧
    (slots.map Dispatch.reportSuffix).Nodup

variable {run : Run} {state next : RunState} {event : RunEvent}

theorem filter_isTest_slots (runner : BaseParallelRunner) (slots : List Dispatch) :
    (slots.map (Dispatch.child runner)).filter Child.isTest =
      slots.map (Dispatch.child runner) := by
  apply List.filter_eq_self.mpr
  intro child hmem
  obtain ⟨dispatch, -, rfl⟩ := List.mem_map.mp hmem
  rfl

theorem filter_isTest_bootstrapChildren (run : Run) :
    run.bootstrapChildren.filter Child.isTest = [] := by
  unfold bootstrapChildren
  split <;> rfl

theorem serialChildren_cases (run : Run) : run.serialChildren = [] ∨
    run.serialChildren = [run.runner.serialChild run.partition.serial] := by
  unfold serialChildren
  split
  next => exact Or.inl rfl
  next => exact Or.inr rfl

theorem filter_isTest_prelude (run : Run) :
    run.prelude.spawned.filter Child.isTest = run.serialChildren := by
  simp only [prelude, Processes.settled, List.filter_append, filter_isTest_bootstrapChildren,
    List.nil_append]
  rcases run.serialChildren_cases with hserial | hserial <;> rw [hserial] <;> rfl

/-- The children before the queue have all closed and the slots' children follow them. -/
theorem History.of_queue (run : Run) {job : QueueJob} {queue : QueueState} {state : RunState}
    (hcall : run.runner.runParallelWithQueue run.hints run.partition.parallel = .started job)
    (hreach : job.machine.Reaches job.initial queue)
    (hprocesses : state.processes = run.prelude.append (queue.processes job)) :
    run.History state := by
  obtain ⟨-, slotCount, -, rfl⟩ := runParallelWithQueue_eq_started.mp hcall
  have hslots := (QueueInv.of_reaches hreach).slots
  constructor
  · rw [hprocesses]
    exact (Processes.settled_accounted _).append (hslots.accounted.map _)
  · refine ⟨run.serialChildren, queue.table.spawned, ?_, run.serialChildren_cases,
      hslots.reportSuffix_nodup⟩
    simp only [RunState.tests, hprocesses, Processes.append, List.filter_append,
      filter_isTest_prelude]
    exact congrArg _ (filter_isTest_slots run.runner _)

/-- The children of the phases before the queue. -/
theorem History.of_table {state : RunState} (haccounted : state.processes.Accounted)
    (htests : state.tests = [] ∨ state.tests = [run.runner.serialChild run.partition.serial]) :
    run.History state :=
  ⟨haccounted, state.tests, [], (List.append_nil _).symm, htests, List.nodup_nil⟩

theorem History.of_prelude (hprocesses : state.processes = run.prelude) : run.History state := by
  refine .of_table (hprocesses ▸ Processes.settled_accounted _) ?_
  rw [RunState.tests, hprocesses, filter_isTest_prelude]
  exact run.serialChildren_cases

/-- A run that was not aborted has spawned at most one serial child and one child per dispatch. -/
theorem Inv.history (hinv : run.Inv state) (hactive : ¬state.phase.Aborted) :
    run.History state := by
  obtain ⟨phase, table⟩ := state
  cases phase with
  | starting =>
      obtain rfl : table = .empty := hinv
      exact .of_table Processes.empty_accounted (Or.inl rfl)
  | bootstrapping child =>
      obtain ⟨-, rfl, htable⟩ := hinv
      obtain rfl : table = Processes.empty.spawn run.runner.bootstrapChild := htable
      exact .of_table (Processes.empty_accounted.spawn _) (Or.inl rfl)
  | serial child =>
      obtain ⟨-, rfl, htable⟩ := hinv
      obtain rfl : table = (Processes.settled run.bootstrapChildren).spawn
        (run.runner.serialChild run.partition.serial) := htable
      refine .of_table ((Processes.settled_accounted _).spawn _) (Or.inr ?_)
      simp only [RunState.tests, RunState.processes, Processes.spawn, Processes.settled,
        List.filter_append, filter_isTest_bootstrapChildren]
      rfl
  | recovering =>
      obtain rfl : table = run.prelude := hinv
      exact .of_prelude rfl
  | parallel job queue =>
      obtain ⟨hcall, hreach, htable⟩ := hinv
      obtain rfl : table = run.prelude := htable
      exact .of_queue run hcall hreach rfl
  | passed =>
      rcases hinv with ⟨-, htable⟩ | ⟨job, queue, ⟨hcall, hreach, -, -⟩, htable⟩
      · obtain rfl : table = run.prelude := htable
        exact .of_prelude rfl
      · exact .of_queue run hcall hreach htable
  | exited code => exact absurd trivial hactive
  | threw => exact absurd trivial hactive

theorem runSerial_active (run : Run) (table : Processes Child) :
    ¬(run.runSerial table).phase.Aborted := by
  unfold runSerial
  split <;> exact not_false

/-- A step that ends the run early leaves the history as it is, up to the child it closes. -/
theorem History.step (hhistory : run.History state) (hinv : run.Inv state)
    (hstep : run.machine.step state event = some next) : run.History next := by
  have hnext := hinv.step hstep
  cases step_cases hstep with
  | bootstrapFailed child table code hcode =>
      obtain ⟨-, rfl, htable⟩ := hinv
      obtain rfl : table = Processes.empty.spawn run.runner.bootstrapChild := htable
      exact ⟨hhistory.accounted.close List.mem_cons_self code, hhistory.tests⟩
  | serialFailed child table code hcode =>
      obtain ⟨-, rfl, htable⟩ := hinv
      obtain rfl : table = (Processes.settled run.bootstrapChildren).spawn
        (run.runner.serialChild run.partition.serial) := htable
      exact ⟨hhistory.accounted.close List.mem_cons_self code, hhistory.tests⟩
  | rangeError table => exact ⟨hhistory.accounted, hhistory.tests⟩
  | slotsFailed table job queue => exact ⟨hhistory.accounted, hhistory.tests⟩
  | bootstrap => exact hnext.history not_false
  | skip table => exact hnext.history (run.runSerial_active table)
  | bootstrapped child table => exact hnext.history (run.runSerial_active _)
  | serialPassed => exact hnext.history not_false
  | noParallel => exact hnext.history not_false
  | started => exact hnext.history not_false
  | slot => exact hnext.history not_false
  | slotsPassed => exact hnext.history not_false

theorem Reachable.history (hreach : run.Reachable state) : run.History state := by
  have hboth := hreach.invariant (fun state => run.Inv state ∧ run.History state)
    (fun _ _ _ hkept hstep => ⟨hkept.1.step hstep, hkept.2.step hkept.1 hstep⟩)
    ⟨rfl, (show run.Inv .initial from rfl).history not_false⟩
  exact hboth.2

/-- Every test child is the serial child or that of a queued file. -/
theorem History.mem_tests (hhistory : run.History state) {child : Child}
    (hchild : child ∈ state.tests) :
    child = run.runner.serialChild run.partition.serial ∨
      ∃ dispatch : Dispatch, child = dispatch.child run.runner := by
  obtain ⟨serial, slots, htests, hserial, -⟩ := hhistory.tests
  rw [htests] at hchild
  rcases List.mem_append.mp hchild with hmem | hmem
  · rcases hserial with rfl | rfl
    · cases hmem
    · exact Or.inl (List.mem_singleton.mp hmem)
  · obtain ⟨dispatch, -, rfl⟩ := List.mem_map.mp hmem
    exact Or.inr ⟨dispatch, rfl⟩

end Run

end RaylsSuite.Runner
