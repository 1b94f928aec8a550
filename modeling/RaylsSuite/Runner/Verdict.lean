import RaylsSuite.Runner.Run

/-! # The green verdict

`run` ends with "All tests passed" exactly when no phase found a failure. That
says that every file was tested only if there was something to run and somebody
to run it: a worker count below one, or one that does not parse, starts no slot
and leaves no failure behind.
-/

namespace RaylsSuite.Runner

open Foundation

namespace Run

variable (run : Run)

/-- What the verdict "All tests passed" promises about the children of a run. -/
structure Tested (table : Processes Child) : Prop where
  some_test : ∃ child ∈ table.spawned, child.isTest = true
  every_file : ∀ file ∈ run.partition.serial ++ run.partition.parallel,
    ∃ child ∈ table.spawned, child.isTest = true ∧ file ∈ child.files
  every_exit : (table.spawned.filter Child.isTest).Perm
    ((table.closed.filter fun entry => entry.1.isTest && entry.2 = some 0).map Prod.fst)

/-- Whenever the run passes, the verdict's promise holds. -/
def VerdictSound : Prop :=
  ∀ state, run.Reachable state → state.phase = .passed → run.Tested state.processes

variable {run}

/-! ## Children of the phases -/

theorem mem_prelude_spawned {child : Child} :
    child ∈ run.prelude.spawned ↔
      (run.bootstraps = true ∧ child = run.runner.bootstrapChild) ∨
        (run.partition.serial ≠ [] ∧ child = run.runner.serialChild run.partition.serial) := by
  simp only [prelude, Processes.settled, bootstrapChildren, serialChildren, List.mem_append]
  split <;> split <;> simp_all

theorem serialChild_mem (hserial : run.partition.serial ≠ []) :
    run.runner.serialChild run.partition.serial ∈ run.prelude.spawned :=
  mem_prelude_spawned.mpr (Or.inr ⟨hserial, rfl⟩)

/-- Only the serial child of the prelude is a test. -/
theorem files_of_mem_prelude {child : Child} (hmem : child ∈ run.prelude.spawned)
    (htest : child.isTest = true) :
    run.partition.serial ≠ [] ∧ child.files = run.partition.serial := by
  rcases mem_prelude_spawned.mp hmem with ⟨-, rfl⟩ | ⟨hserial, rfl⟩
  · cases htest
  · exact ⟨hserial, rfl⟩

/-- A queue that passed with at least one slot gave every parallel file to a child. -/
theorem QueuePassed.every_file {job : QueueJob} {queue : QueueState}
    (hpassed : run.QueuePassed job queue) {workerCount : Int}
    (hcount : run.runner.workerCount = some workerCount) (hpositive : 1 ≤ workerCount)
    {file : String} (hfile : file ∈ run.partition.parallel) :
    ∃ child ∈ (queue.processes job).spawned, child.isTest = true ∧ file ∈ child.files := by
  obtain ⟨hstarted, hreach, hcompleted, hfailures⟩ := hpassed
  have hinv := QueueInv.of_reaches hreach
  have hflag : queue.bailFlag = false := by
    have hiff := hinv.verdict.bailFlag_iff
    rw [hfailures] at hiff
    simpa using hiff
  obtain ⟨-, slotCount, hlength, rfl⟩ := runParallelWithQueue_eq_started.mp hstarted
  have hslots : 0 < slotCount := by
    rw [hcount, arrayLength, Option.ite_none_right_eq_some, Option.some.injEq] at hlength
    omega
  have hqueue := hinv.cursor.files_eq_queue (hinv.drained hslots hcompleted hflag)
  have hmem : file ∈ queue.table.spawned.map Dispatch.file := by
    rw [hqueue]
    exact (sortBy_perm _ _).mem_iff.mpr hfile
  obtain ⟨dispatch, hdispatch, rfl⟩ := List.mem_map.mp hmem
  exact ⟨_, List.mem_map_of_mem hdispatch, rfl, List.mem_singleton_self _⟩

theorem QueuePassed.succeeded {job : QueueJob} {queue : QueueState}
    (hpassed : run.QueuePassed job queue) : (queue.processes job).Succeeded := by
  obtain ⟨-, hreach, hcompleted, hfailures⟩ := hpassed
  have hinv := QueueInv.of_reaches hreach
  have hfailed : queue.table.failed = [] := by
    have hmap := hinv.verdict.failures
    rw [hfailures] at hmap
    exact List.map_eq_nil_iff.mp hmap.symm
  exact (hinv.slots.accounted.succeeded (hinv.idle hcompleted) hfailed).map _

theorem Inv.passed_succeeded {table : Processes Child} (hinv : run.Inv ⟨.passed, table⟩) :
    table.Succeeded := by
  rcases hinv with ⟨-, htable⟩ | ⟨job, queue, hpassed, htable⟩
  · obtain rfl : table = run.prelude := htable
    exact Processes.settled_succeeded _
  · obtain rfl : table = run.prelude.append (queue.processes job) := htable
    exact (Processes.settled_succeeded _).append hpassed.succeeded

/-! ## Runs that pass -/

variable (run)

theorem reachable_passed_of_noParallel (hparallel : run.partition.parallel = []) :
    run.Reachable ⟨.passed, run.prelude⟩ := by
  apply run.reachable_recovering.step .recovered
  simp only [machine, step, runParallelWithQueue_eq_returned.mpr hparallel]

/-- With parallel files and no slot, the run passes without a parallel child. -/
theorem reachable_passed_of_noSlots (hparallel : run.partition.parallel ≠ [])
    (hslots : arrayLength run.runner.workerCount = some 0) :
    run.Reachable ⟨.passed, run.prelude.append .empty⟩ := by
  have hstarted := runParallelWithQueue_started run.runner run.hints hparallel hslots
  refine (run.reachable_parallel hstarted).step .slotsDone ?_
  have hcompleted : ∀ queue, QueueJob.Completed ⟨run.runner,
      sortByExpectedDuration run.hints run.partition.parallel, 0⟩ queue :=
    fun _ slotId hlt => absurd hlt (Nat.not_lt_zero slotId)
  simp only [machine, step, if_pos (hcompleted _)]
  rfl

theorem arrayLength_eq_zero {count : Option Int}
    (hcount : ¬∃ value, count = some value ∧ 1 ≤ value) : arrayLength count = some 0 := by
  cases count with
  | none => rfl
  | some value =>
      have hlow : ¬1 ≤ value := fun h => hcount ⟨value, rfl, h⟩
      rw [arrayLength, if_pos (by omega), Option.some.injEq]
      omega

/-- Without a slot, the parallel files go untested and the run still passes. -/
theorem not_verdictSound_of_noSlots (hparallel : run.partition.parallel ≠ [])
    (hslots : arrayLength run.runner.workerCount = some 0) : ¬run.VerdictSound := by
  intro hsound
  obtain ⟨file, hfile⟩ := List.exists_mem_of_ne_nil _ hparallel
  have hpassed := run.reachable_passed_of_noSlots hparallel hslots
  obtain ⟨child, hmem, htest, hgiven⟩ :=
    (hsound _ hpassed rfl).every_file file (List.mem_append_right _ hfile)
  have hprelude : child ∈ run.prelude.spawned := by
    simpa [RunState.processes, Processes.append, Processes.empty] using hmem
  rw [(files_of_mem_prelude hprelude htest).2] at hgiven
  exact run.partition.disjoint hgiven hfile

/-! ## The exact condition -/

/-- A run that goes on has a file to test, unless its partition leaves files out, as only that of
the smoke runner does. -/
theorem ne_nil_of_resolve {runner : BaseParallelRunner} {hints : DurationHints}
    {partitionFiles : List String → Partition} {found : List (List String)}
    (hcovers : ∀ allFiles, (partitionFiles allFiles).Covers allFiles)
    (hresolved : resolve runner hints partitionFiles found = .ok run) :
    run.partition.serial ≠ [] ∨ run.partition.parallel ≠ [] := by
  cases hfiles : resolveFiles found with
  | error code =>
      rw [resolve, hfiles] at hresolved
      cases hresolved
  | ok allFiles =>
      rw [resolve, hfiles] at hresolved
      obtain rfl := Except.ok.inj hresolved
      obtain ⟨file, hfile⟩ := List.exists_mem_of_ne_nil allFiles (resolveFiles_ne_nil hfiles)
      exact (hcovers allFiles file hfile).imp List.ne_nil_of_mem List.ne_nil_of_mem

/-- The verdict is sound exactly when some file is to be tested, and there is a
worker if any of them is parallel. -/
theorem verdictSound_iff : run.VerdictSound ↔
    (run.partition.serial ≠ [] ∨ run.partition.parallel ≠ []) ∧
      (run.partition.parallel = [] ∨
        ∃ workerCount, run.runner.workerCount = some workerCount ∧ 1 ≤ workerCount) := by
  constructor
  · intro hsound
    constructor
    · by_contra hnone
      obtain ⟨hserial, hparallel⟩ := not_or.mp hnone
      have hpassed := run.reachable_passed_of_noParallel (not_not.mp hparallel)
      obtain ⟨child, hmem, htest⟩ := (hsound _ hpassed rfl).some_test
      exact hserial (files_of_mem_prelude hmem htest).1
    · by_contra hnone
      obtain ⟨hparallel, hcount⟩ := not_or.mp hnone
      exact run.not_verdictSound_of_noSlots hparallel (arrayLength_eq_zero hcount) hsound
  · intro hcondition final hreach hphase
    obtain ⟨hfiles, hworkers⟩ := hcondition
    obtain ⟨phase, table⟩ := final
    obtain rfl : phase = .passed := hphase
    have hinv := hreach.inv
    have hserialFile : ∀ file ∈ run.partition.serial,
        ∃ child ∈ run.prelude.spawned, child.isTest = true ∧ file ∈ child.files := by
      intro file hfile
      exact ⟨_, serialChild_mem (List.ne_nil_of_mem hfile), rfl, hfile⟩
    have hevery : ∀ file ∈ run.partition.serial ++ run.partition.parallel,
        ∃ child ∈ table.spawned, child.isTest = true ∧ file ∈ child.files := by
      -- a passed run either had no parallel file or drained the queue
      rcases hinv with ⟨hparallel, htable⟩ | ⟨job, queue, hpassed, htable⟩
      · obtain rfl : table = run.prelude := htable
        rw [hparallel, List.append_nil]
        exact hserialFile
      · obtain rfl : table = run.prelude.append (queue.processes job) := htable
        intro file hfile
        rcases List.mem_append.mp hfile with hserial | hparallel
        · obtain ⟨child, hmem, hgiven⟩ := hserialFile file hserial
          exact ⟨child, List.mem_append_left _ hmem, hgiven⟩
        · obtain ⟨workerCount, hcount, hpositive⟩ :=
            hworkers.resolve_left (List.ne_nil_of_mem hparallel)
          obtain ⟨child, hmem, hgiven⟩ := hpassed.every_file hcount hpositive hparallel
          exact ⟨child, List.mem_append_right _ hmem, hgiven⟩
    obtain ⟨file, hfile⟩ := List.exists_mem_of_ne_nil
      (run.partition.serial ++ run.partition.parallel) (by
        simpa [List.append_eq_nil_iff, or_iff_not_imp_left] using hfiles)
    obtain ⟨child, hmem, htest, -⟩ := hevery file hfile
    exact ⟨⟨child, hmem, htest⟩, hevery, (Inv.passed_succeeded hinv).filter Child.isTest⟩

/-- `PARALLEL_WORKERS=0` passes over a file that no child was given. -/
theorem not_verdictSound_zeroWorkers :
    ¬(Run.mk (.new ⟨some "0", none, none, none⟩ []) (fun _ => none)
      (BaseParallelRunner.partitionFiles ["test/e2e/payments.test.ts"])).VerdictSound :=
  not_verdictSound_of_noSlots _ (by decide) (by decide)

end Run

end RaylsSuite.Runner
