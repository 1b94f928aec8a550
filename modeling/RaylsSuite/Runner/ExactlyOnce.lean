import RaylsSuite.Runner.QueueInvariant

/-! # Exactly-once dispatch

Every interleaving of the slots hands out the sorted queue from its front, each
index once, and the verdict of the parallel phase names exactly the files whose
child did not exit with code 0.
-/

namespace RaylsSuite.Runner

open Foundation

variable {job : QueueJob} {state : QueueState}

theorem Dispatch.reportSuffix_inj {first second : Dispatch}
    (heq : first.reportSuffix = second.reportSuffix) :
    (first.slotId, first.runIndex) = (second.slotId, second.runIndex) := by
  obtain ⟨hslot, hrun⟩ := Text.hyphenated_inj heq
  rw [hslot, hrun]

theorem Dispatch.reportSuffix_ne_empty (dispatch : Dispatch) : dispatch.reportSuffix ≠ "" := by
  intro hempty
  have hchars := congrArg String.toList hempty
  simp [reportSuffix, String.toList_append] at hchars

/-- The report of a queued file is named after its suffix. -/
theorem Dispatch.reportFilename_eq (runner : BaseParallelRunner) (dispatch : Dispatch) :
    (dispatch.child runner).reportFilename = "worker-" ++ dispatch.reportSuffix := by
  have htag : (dispatch.child runner).REPORT_TAG = dispatch.reportSuffix := by
    simp only [Child.REPORT_TAG, Dispatch.child, Text.orElse]
    rw [if_neg dispatch.reportSuffix_ne_empty]
  rw [Child.reportFilename, htag, if_neg dispatch.reportSuffix_ne_empty]

theorem SlotInv.reportSuffix_nodup {slotCount : Nat} {slot : Nat → Slot}
    {table : Processes Dispatch} (hinv : SlotInv slotCount slot table) :
    (table.spawned.map Dispatch.reportSuffix).Nodup := by
  refine List.Nodup.map_on ?_ (List.Nodup.of_map _ hinv.suffixes)
  intro first hfirst second hsecond heq
  exact List.inj_on_of_nodup_map hinv.suffixes hfirst hsecond (Dispatch.reportSuffix_inj heq)

/-- No two dispatches of a queue write a report of the same name. -/
theorem SlotInv.reportFilename_nodup {slotCount : Nat} {slot : Nat → Slot}
    {table : Processes Dispatch} (hinv : SlotInv slotCount slot table)
    (runner : BaseParallelRunner) :
    (table.spawned.map fun dispatch => (dispatch.child runner).reportFilename).Nodup := by
  have hinjective : Function.Injective fun suffix : String => "worker-" ++ suffix :=
    fun _ _ heq => (String.append_right_inj "worker-").mp heq
  have hnames := hinv.reportSuffix_nodup.map hinjective
  simpa only [List.map_map, Function.comp_def, Dispatch.reportFilename_eq] using hnames

/-! ## The end of the parallel phase -/

theorem QueueState.ending_eq_exit (state : QueueState) :
    state.ending = .exit 1 ↔ state.failures ≠ [] := by
  unfold ending
  split
  next hfailed => simpa using List.ne_nil_of_length_pos hfailed
  next hnone => simpa using List.length_eq_zero_iff.mp (Nat.eq_zero_of_not_pos hnone)

/-- Once the bail flag is raised, the dispatched files never change again. -/
theorem QueueJob.spawned_eq_of_bail {later : QueueState} (hbail : state.bailFlag = true)
    (hreach : job.machine.Reaches state later) : later.table.spawned = state.table.spawned := by
  have hfrozen := hreach.invariant
    (fun current => current.table.spawned = state.table.spawned ∧ current.bailFlag = true)
    (fun current event next hinv hstep => by
      obtain ⟨hspawned, hflag⟩ := (QueueJob.step_cases hstep).spawned_eq hinv.2
      exact ⟨hspawned.trans hinv.1, hflag⟩)
    ⟨rfl, hbail⟩
  exact hfrozen.1

/-! ## The guarantee -/

/-- What the dynamic queue guarantees in a state that it has reached. -/
structure DispatchedOnce (job : QueueJob) (parallelFiles : List String) (workerCount : Nat)
    (state : QueueState) : Prop where
  files_prefix : state.table.spawned.map Dispatch.file =
    job.queue.take state.table.spawned.length
  index_once : state.table.spawned.map Dispatch.fileIndex =
    List.range state.table.spawned.length
  inFlight_le : state.table.inFlight.length ≤ workerCount
  suffixes : (state.table.spawned.map Dispatch.reportSuffix).Nodup
  reports : (state.table.spawned.map fun dispatch =>
    (dispatch.child job.runner).reportFilename).Nodup
  exits_iff : job.Completed state → (state.ending = .exit 1 ↔ state.failures ≠ [])
  all_dispatched : job.Completed state → job.runner.bails = false →
    (state.table.spawned.map Dispatch.file).Perm parallelFiles
  failures_exact : job.Completed state → job.runner.bails = false →
    state.table.spawned.Perm (state.table.closed.map Prod.fst) ∧
      state.failures =
        ((state.table.closed.filter fun entry => entry.2 ≠ some 0).map Prod.fst).map
          Dispatch.failure
  bail_stops : job.runner.bails = true → state.failures ≠ [] →
    ∀ later, job.machine.Reaches state later → later.table.spawned = state.table.spawned

/-- In every interleaving the queue is dispatched exactly once. -/
theorem runParallelWithQueue_dispatchedOnce (runner : BaseParallelRunner) (hints : DurationHints)
    (parallelFiles : List String) (workerCount : Nat) (job : QueueJob) (state : QueueState)
    (hcount : runner.workerCount = some (workerCount : Int)) (hpositive : 1 ≤ workerCount)
    (hstarted : runner.runParallelWithQueue hints parallelFiles = .started job)
    (hreach : job.machine.Reaches job.initial state) :
    DispatchedOnce job parallelFiles workerCount state := by
  obtain rfl := job_eq_of_started hcount hstarted
  have hinv := QueueInv.of_reaches hreach
  have hlen := hinv.cursor.spawned_length
  constructor
  case files_prefix =>
    rw [hinv.cursor.files_eq_take, hlen, ← List.take_eq_take_min]
  case index_once => rw [hinv.cursor.indices, hlen]
  case inFlight_le => exact hinv.slots.inFlight_length_le
  case suffixes => exact hinv.slots.reportSuffix_nodup
  case reports => exact hinv.slots.reportFilename_nodup runner
  case exits_iff => exact fun _ => state.ending_eq_exit
  case all_dispatched =>
    intro hcompleted hbails
    have hflag : state.bailFlag = false := by
      have hiff := hinv.verdict.bailFlag_iff
      rw [hbails] at hiff
      simpa using hiff
    rw [hinv.cursor.files_eq_queue (hinv.drained hpositive hcompleted hflag)]
    exact sortBy_perm _ parallelFiles
  case failures_exact =>
    intro hcompleted _
    exact ⟨hinv.slots.accounted.perm_closed (hinv.idle hcompleted), hinv.verdict.failures⟩
  case bail_stops =>
    intro hbails hfailed later hlater
    exact QueueJob.spawned_eq_of_bail (hinv.verdict.bailFlag_iff.mpr ⟨hbails, hfailed⟩) hlater

/-- Two slots over two files whose durations are unknown: the second file fails
while the first is still running. -/
theorem runParallelWithQueue_dispatchedOnce_twoSlots :
    ∃ job state,
      (BaseParallelRunner.new ⟨some "2", some "0", none, none⟩ []).runParallelWithQueue
        (fun _ => none) ["test/a.ts", "test/b.ts"] = .started job ∧
      job.machine.run job.initial [.dequeue 1, .dequeue 0, .close 0 none, .dequeue 0,
        .close 1 (some 0), .dequeue 1] = some state ∧
      job.Completed state ∧ state.failures = [⟨"test/b.ts", 0, 1⟩] ∧
      DispatchedOnce job ["test/a.ts", "test/b.ts"] 2 state := by
  have hstarted : (BaseParallelRunner.new ⟨some "2", some "0", none, none⟩ []).runParallelWithQueue
      (fun _ => none) ["test/a.ts", "test/b.ts"] = .started ⟨_, _, 2⟩ :=
    runParallelWithQueue_of_unknown _ (by decide) (by decide)
  refine ⟨_, _, hstarted, rfl, by decide, by decide, ?_⟩
  exact runParallelWithQueue_dispatchedOnce _ _ _ 2 _ _ (by decide) (by decide) hstarted
    ⟨[.dequeue 1, .dequeue 0, .close 0 none, .dequeue 0, .close 1 (some 0), .dequeue 1], rfl⟩

end RaylsSuite.Runner
