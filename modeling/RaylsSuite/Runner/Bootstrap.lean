import RaylsSuite.Runner.Isolation

/-! # ADMIN grants at spawn time

The bootstrap child grants ADMIN to the workers' admin wallets before the queue
starts. The runner leaves it out for a single worker, although the only slot of
that queue still carries worker id 0 and signs with worker 0's wallet.
-/

namespace RaylsSuite.Runner

open Foundation Common

/-- ADMIN on the chain with a label. -/
abbrev Grant : Type := String × Wallet

/-- `parseWorkerCount` of the bootstrap script; `none` is its error. -/
def parseWorkerCount (PARALLEL_WORKERS : Option String) : Option Nat :=
  match PARALLEL_WORKERS with
  | none => none
  | some raw =>
      if raw = "" then none
      else
        match Text.parseInt raw with
        | none => none
        | some n => if n < 1 then none else some n.toNat

/-- What a bootstrap child has granted by the time it exits with code 0. -/
def bootstrapGrants (targets : List String) (child : Child) : List Grant :=
  match parseWorkerCount (some child.PARALLEL_WORKERS) with
  | none => []
  | some workerCount =>
      targets.flatMap fun label =>
        (List.range workerCount).map fun workerId => (label, workerAdminWallet workerId)

/-- A run together with the grants on its target chains. -/
structure GrantState where
  run : RunState
  grants : List Grant

/-- Besides the steps of the run, somebody may grant ADMIN; nobody revokes it. -/
inductive GrantEvent where
  | run (event : RunEvent)
  | granted (label : String) (wallet : Wallet)
deriving DecidableEq, Repr

/-- The grants that a step of the run brings. -/
def RunState.newGrants (targets : List String) (state : RunState) (event : RunEvent) :
    List Grant :=
  match state.phase, event with
  | .bootstrapping child, .close (some 0) => bootstrapGrants targets child
  | _, _ => []

/-- The phases that a run enters only after its bootstrap. -/
def RunPhase.AfterBootstrap : RunPhase → Prop
  | .serial _ | .recovering | .parallel _ _ => True
  | _ => False

namespace Run

variable (run : Run) (targets : List String)

def grantStep (state : GrantState) : GrantEvent → Option GrantState
  | .run event =>
      (run.machine.step state.run event).map fun next =>
        ⟨next, state.grants ++ state.run.newGrants targets event⟩
  | .granted label wallet => some ⟨state.run, state.grants ++ [(label, wallet)]⟩

def grantMachine : Machine GrantState GrantEvent := ⟨run.grantStep targets⟩

/-- Every test child finds its admin wallet granted on every target chain when it is
spawned. -/
def AdminAtSpawn (initialGrants : List Grant) : Prop :=
  ∀ state event next spawned child,
    (run.grantMachine targets).Reaches ⟨.initial, initialGrants⟩ state →
    (run.grantMachine targets).step state event = some next →
    next.run.processes.spawned = state.run.processes.spawned ++ spawned →
    child ∈ spawned → child.isTest = true →
    ∀ label ∈ targets, (label, adminWallet child.WORKER_ID) ∈ next.grants

/-! ## What the bootstrap grants -/

variable {run targets}

theorem parseWorkerCount_numberText {workerCount : Nat} (hpositive : 1 ≤ workerCount) :
    parseWorkerCount (some (numberText (some (workerCount : Int)))) = some workerCount := by
  have hparse : Text.parseInt (numberText (some (workerCount : Int))) = some (workerCount : Int) :=
    Text.parseInt_repr workerCount
  have htext : numberText (some (workerCount : Int)) ≠ "" := Text.repr_ne_empty workerCount
  have hlow : ¬(workerCount : Int) < 1 := by omega
  simp only [parseWorkerCount, if_neg htext, hparse, if_neg hlow, Int.toNat_natCast]

/-- The bootstrap child of `workerCount` workers grants every target to the admin wallet of each of
them. -/
theorem mem_bootstrapGrants {workerCount : Nat}
    (hcount : run.runner.workerCount = some (workerCount : Int)) {workerId : Nat}
    (hworker : workerId < workerCount) {label : String} (hlabel : label ∈ targets) :
    (label, workerAdminWallet workerId) ∈ bootstrapGrants targets run.runner.bootstrapChild := by
  have hparse : parseWorkerCount (some run.runner.bootstrapChild.PARALLEL_WORKERS) =
      some workerCount := by
    simp only [BaseParallelRunner.bootstrapChild, hcount]
    exact parseWorkerCount_numberText (by omega)
  simp only [bootstrapGrants, hparse, List.mem_flatMap, List.mem_map, List.mem_range]
  exact ⟨label, hlabel, workerId, hworker, rfl⟩

/-! ## Children that a step spawns -/

/-- A child that a step of the run spawns. -/
def Spawns (run : Run) (state : RunState) (child : Child) : Prop :=
  child = run.runner.bootstrapChild ∨
    child = run.runner.serialChild run.partition.serial ∨
    ∃ job queue dispatch, state.phase = .parallel job queue ∧
      dispatch.slotId < job.slotCount ∧ child = Dispatch.child job.runner dispatch

theorem runSerial_spawned (run : Run) (table : Processes Child) :
    ∃ spawned, (run.runSerial table).processes.spawned = table.spawned ++ spawned ∧
      ∀ child ∈ spawned, child = run.runner.serialChild run.partition.serial := by
  unfold runSerial
  split
  next => exact ⟨[], (List.append_nil _).symm, fun _ hmem => absurd hmem (List.not_mem_nil)⟩
  next => exact ⟨_, rfl, fun _ hmem => List.mem_singleton.mp hmem⟩

/-- A step of a slot only appends to the spawned processes, and only dispatches of slots of the
queue. -/
theorem slotStep_spawned {job : QueueJob} {queue next : QueueState} {event : SlotEvent}
    (hstep : SlotStep job queue event next) :
    ∃ spawned, next.table.spawned = queue.table.spawned ++ spawned ∧
      ∀ dispatch ∈ spawned, dispatch.slotId < job.slotCount := by
  cases hstep with
  | dispatched slotId file hslot =>
      refine ⟨[queue.dispatch slotId file], rfl, fun dispatch hmem => ?_⟩
      rw [List.mem_singleton.mp hmem]
      exact hslot
  | _ => exact ⟨[], (List.append_nil _).symm, fun _ hmem => absurd hmem (List.not_mem_nil)⟩

/-- Every step only adds children to the history, each of a known kind. -/
theorem step_spawned {state next : RunState} {event : RunEvent}
    (hstep : run.machine.step state event = some next) :
    ∃ spawned, next.processes.spawned = state.processes.spawned ++ spawned ∧
      ∀ child ∈ spawned, run.Spawns state child := by
  have hnone : ∀ {before after : RunState}, after.processes.spawned = before.processes.spawned →
      ∃ spawned, after.processes.spawned = before.processes.spawned ++ spawned ∧
        ∀ child ∈ spawned, run.Spawns before child := by
    intro before after heq
    exact ⟨[], heq.trans (List.append_nil _).symm, fun _ hmem => absurd hmem (List.not_mem_nil)⟩
  cases step_cases hstep with
  | bootstrap table => exact ⟨_, rfl, fun _ hmem => Or.inl (List.mem_singleton.mp hmem)⟩
  | skip table =>
      obtain ⟨spawned, heq, hserial⟩ := run.runSerial_spawned table
      exact ⟨spawned, heq, fun child hmem => Or.inr (Or.inl (hserial child hmem))⟩
  | bootstrapFailed => exact hnone rfl
  | bootstrapped child table =>
      obtain ⟨spawned, heq, hserial⟩ := run.runSerial_spawned (table.close child (some 0))
      exact ⟨spawned, heq, fun child hmem => Or.inr (Or.inl (hserial child hmem))⟩
  | serialFailed => exact hnone rfl
  | serialPassed => exact hnone rfl
  | noParallel => exact hnone rfl
  | rangeError => exact hnone rfl
  | started table job =>
      exact hnone (by simp [RunState.processes, QueueState.processes, Processes.append,
        Processes.map, QueueJob.initial, Processes.empty])
  | slot table job queue next event hslot =>
      obtain ⟨spawned, heq, hlt⟩ := slotStep_spawned (QueueJob.step_cases hslot)
      refine ⟨spawned.map (Dispatch.child job.runner), ?_, ?_⟩
      · simp [RunState.processes, QueueState.processes, Processes.append, Processes.map, heq]
      · intro child hmem
        obtain ⟨dispatch, hdispatch, rfl⟩ := List.mem_map.mp hmem
        exact Or.inr (Or.inr ⟨job, queue, dispatch, rfl, hlt dispatch hdispatch, rfl⟩)
  | slotsPassed => exact hnone rfl
  | slotsFailed => exact hnone rfl

/-! ## Grants over a run -/

/-- The grants of a run: the initial ones, and the workers' once the bootstrap child
has exited with code 0. -/
structure GrantInv (run : Run) (targets : List String) (initialGrants : List Grant)
    (workerCount : Nat) (state : GrantState) : Prop where
  reachable : run.Reachable state.run
  initial_mem : ∀ grant ∈ initialGrants, grant ∈ state.grants
  worker_mem : run.bootstraps = true → state.run.phase.AfterBootstrap →
    ∀ workerId < workerCount, ∀ label ∈ targets,
      (label, workerAdminWallet workerId) ∈ state.grants

variable {initialGrants : List Grant} {workerCount : Nat} {state next : GrantState}

theorem step_afterBootstrap {before after : RunState} {event : RunEvent}
    (hstep : run.machine.step before event = some after)
    (hbootstraps : run.bootstraps = true) (hafter : after.phase.AfterBootstrap) :
    before.phase.AfterBootstrap ∨
      ∃ child, before.phase = .bootstrapping child ∧ event = .close (some 0) := by
  cases step_cases hstep with
  | bootstrap => exact absurd hafter (by simp [RunPhase.AfterBootstrap])
  | skip table hskips => rw [hbootstraps] at hskips; cases hskips
  | bootstrapped child table => exact Or.inr ⟨child, rfl, rfl⟩
  | bootstrapFailed => exact absurd hafter (by simp [RunPhase.AfterBootstrap])
  | serialFailed => exact absurd hafter (by simp [RunPhase.AfterBootstrap])
  | rangeError => exact absurd hafter (by simp [RunPhase.AfterBootstrap])
  | slotsPassed => exact absurd hafter (by simp [RunPhase.AfterBootstrap])
  | slotsFailed => exact absurd hafter (by simp [RunPhase.AfterBootstrap])
  | _ => exact Or.inl trivial

/-- Every step of the granting run keeps its invariant. -/
theorem GrantInv.step {event : GrantEvent}
    (hcount : run.runner.workerCount = some (workerCount : Int))
    (hinv : GrantInv run targets initialGrants workerCount state)
    (hstep : (run.grantMachine targets).step state event = some next) :
    GrantInv run targets initialGrants workerCount next := by
  cases event with
  | granted label wallet =>
      obtain rfl := Option.some.inj hstep
      exact {
        reachable := hinv.reachable
        initial_mem := fun grant hmem => List.mem_append_left _ (hinv.initial_mem grant hmem)
        worker_mem := fun hbootstraps hafter workerId hlt other hlabel =>
          List.mem_append_left _ (hinv.worker_mem hbootstraps hafter workerId hlt other hlabel) }
  | run event =>
      obtain ⟨after, hrun, rfl⟩ := Option.map_eq_some_iff.mp hstep
      refine ⟨hinv.reachable.step event hrun, fun grant hmem =>
        List.mem_append_left _ (hinv.initial_mem grant hmem), ?_⟩
      intro hbootstraps hafter workerId hlt label hlabel
      rcases step_afterBootstrap hrun hbootstraps hafter with hbefore | ⟨child, hphase, rfl⟩
      · exact List.mem_append_left _
          (hinv.worker_mem hbootstraps hbefore workerId hlt label hlabel)
      · have hchild : child = run.runner.bootstrapChild := by
          have hrunInv := hinv.reachable.inv
          simp only [Inv, hphase] at hrunInv
          exact hrunInv.2.1
        -- the closing bootstrap child has granted every worker's wallet
        apply List.mem_append_right
        simp only [RunState.newGrants, hphase, hchild]
        exact mem_bootstrapGrants hcount hlt hlabel

theorem GrantInv.of_reaches (hcount : run.runner.workerCount = some (workerCount : Int))
    (hreach : (run.grantMachine targets).Reaches ⟨.initial, initialGrants⟩ state) :
    GrantInv run targets initialGrants workerCount state :=
  hreach.invariant (GrantInv run targets initialGrants workerCount)
    (fun _ _ _ hinv hstep => hinv.step hcount hstep)
    ⟨Machine.Reaches.refl _ _, fun _ hmem => hmem, fun _ hafter => hafter.elim⟩

/-- A run that does not bootstrap never grants anything. -/
theorem newGrants_eq_nil (targets : List String) {before : RunState} (hinv : run.Inv before)
    (hskips : run.bootstraps = false) (event : RunEvent) : before.newGrants targets event = [] := by
  obtain ⟨phase, table⟩ := before
  cases phase with
  | bootstrapping child =>
      rw [hinv.1] at hskips
      cases hskips
  | _ => rfl

/-- Without a bootstrap, a run leaves the grants as they were. -/
theorem reaches_of_noBootstrap (targets : List String) (grants : List Grant)
    (hskips : run.bootstraps = false) {final : RunState} (hreach : run.Reachable final) :
    (run.grantMachine targets).Reaches ⟨.initial, grants⟩ ⟨final, grants⟩ := by
  -- induction on the schedule; a bootstrapping phase is excluded by the run's invariant
  have hlift : ∀ schedule start, run.Inv start → run.machine.run start schedule = some final →
      (run.grantMachine targets).run ⟨start, grants⟩ (schedule.map .run) =
        some ⟨final, grants⟩ := by
    intro schedule
    induction schedule with
    | nil =>
        intro start _ hrun
        obtain rfl := Option.some.inj hrun
        rfl
    | cons event rest ih =>
        intro start hinv hrun
        obtain ⟨middle, hstep, hrest⟩ := run.machine.run_cons_eq_some.mp hrun
        refine (Machine.run_cons_eq_some _).mpr ⟨⟨middle, grants⟩, ?_, ih middle
          (hinv.step hstep) hrest⟩
        simp [grantMachine, grantStep, hstep, newGrants_eq_nil targets hinv hskips event]
  obtain ⟨schedule, hrun⟩ := hreach
  exact ⟨_, hlift schedule .initial rfl hrun⟩

/-! ## The exact condition -/

theorem grantStep_slot (run : Run) (targets : List String) {job : QueueJob} {queue after : QueueState}
    {event : SlotEvent} (hslot : job.machine.step queue event = some after)
    (table : Processes Child) (grants : List Grant) :
    (run.grantMachine targets).step ⟨⟨.parallel job queue, table⟩, grants⟩ (.run (.slot event)) =
      some ⟨⟨.parallel job after, table⟩, grants⟩ := by
  simp [grantMachine, grantStep, machine, Run.step, hslot, RunState.newGrants]

theorem firstDispatch (job : QueueJob) (file : String) (hslots : 0 < job.slotCount)
    (hfile : job.queue[0]? = some file) :
    ∃ queue, job.machine.step job.initial (.dequeue 0) = some queue ∧
      queue.table.spawned = [⟨0, 0, 0, file⟩] := by
  refine ⟨job.loopHead job.initial 0, if_pos ⟨hslots, rfl⟩, ?_⟩
  simp [QueueJob.loopHead, QueueJob.initial, hfile, Processes.spawn, Processes.empty,
    QueueState.dispatch]

/-- A single worker without a grant of its own finds none when it is spawned. -/
theorem not_adminAtSpawn_of_single (hcount : run.runner.workerCount = some 1)
    (hparallel : run.partition.parallel ≠ []) (label : String) (hlabel : label ∈ targets)
    (hgrant : (label, workerAdminWallet 0) ∉ initialGrants) :
    ¬run.AdminAtSpawn targets initialGrants := by
  intro hadmin
  have hskips : run.bootstraps = false := by
    simp [bootstraps, BaseParallelRunner.singleWorker, hcount]
  have hslots : arrayLength run.runner.workerCount = some 1 := by rw [hcount]; rfl
  have hstarted := runParallelWithQueue_started run.runner run.hints hparallel hslots
  have hreach := reaches_of_noBootstrap targets initialGrants hskips
    (run.reachable_parallel hstarted)
  have hqueue : sortByExpectedDuration run.hints run.partition.parallel ≠ [] := by
    intro hempty
    have hperm := sortBy_perm (fun a b => run.hints.expected b - run.hints.expected a)
      run.partition.parallel
    exact hparallel (List.nil_perm.mp (hempty ▸ hperm))
  obtain ⟨file, rest, hfiles⟩ := List.exists_cons_of_ne_nil hqueue
  rw [hfiles] at hreach
  obtain ⟨queue, hslot, htable⟩ := firstDispatch ⟨run.runner, file :: rest, 1⟩ file
    Nat.one_pos rfl
  have hstep := grantStep_slot run targets hslot run.prelude initialGrants
  have hgranted := hadmin _ _ _ [Dispatch.child run.runner ⟨0, 0, 0, file⟩] _ hreach hstep
    (by simp [RunState.processes, QueueState.processes, Processes.append, Processes.map, htable,
      QueueJob.initial, Processes.empty])
    (List.mem_singleton_self _) rfl label hlabel
  rw [Dispatch.child_WORKER_ID] at hgranted
  exact hgrant hgranted

/-- Grants are never taken back. -/
theorem step_grants {event : GrantEvent}
    (hstep : (run.grantMachine targets).step state event = some next) {grant : Grant}
    (hmem : grant ∈ state.grants) : grant ∈ next.grants := by
  cases event with
  | granted label wallet => exact Option.some.inj hstep ▸ List.mem_append_left _ hmem
  | run event =>
      obtain ⟨after, -, rfl⟩ := Option.map_eq_some_iff.mp hstep
      exact List.mem_append_left _ hmem

/-- The children that a step adds are those that the run spawns. -/
theorem spawns_of_grantStep {event : GrantEvent} {spawned : List Child} {child : Child}
    (hstep : (run.grantMachine targets).step state event = some next)
    (hspawned : next.run.processes.spawned = state.run.processes.spawned ++ spawned)
    (hmem : child ∈ spawned) : run.Spawns state.run child := by
  cases event with
  | granted label wallet =>
      obtain rfl := Option.some.inj hstep
      rw [List.self_eq_append_right.mp hspawned] at hmem
      cases hmem
  | run event =>
      obtain ⟨after, hrun, rfl⟩ := Option.map_eq_some_iff.mp hstep
      obtain ⟨added, hadded, hspawns⟩ := step_spawned hrun
      have hsame : added = spawned := List.append_cancel_left (hadded.symm.trans hspawned)
      exact hspawns child (hsame ▸ hmem)

theorem adminAtSpawn_iff (run : Run) (targets : List String) (initialGrants : List Grant)
    (workerCount : Nat) (hcount : run.runner.workerCount = some (workerCount : Int))
    (hpositive : 1 ≤ workerCount) (hskip : run.runner.skipBootstrap = false)
    (hseed : ∀ label ∈ targets, (label, Wallet.system) ∈ initialGrants) :
    run.AdminAtSpawn targets initialGrants ↔
      2 ≤ workerCount ∨ run.partition.parallel = [] ∨
        ∀ label ∈ targets, (label, workerAdminWallet 0) ∈ initialGrants := by
  constructor
  · intro hadmin
    by_contra hnone
    simp only [not_or, not_forall] at hnone
    obtain ⟨hsingle, hparallel, label, hlabel, hgrant⟩ := hnone
    obtain rfl : workerCount = 1 := by omega
    exact not_adminAtSpawn_of_single hcount hparallel label hlabel hgrant hadmin
  · intro hcondition state event next spawned child hreach hstep hspawned hmem htest label hlabel
    have hinv := GrantInv.of_reaches hcount hreach
    apply step_grants hstep
    rcases spawns_of_grantStep hstep hspawned hmem with rfl | rfl | ⟨job, queue, dispatch, hphase,
      hslot, rfl⟩
    · cases htest
    · -- the serial child has no `WORKER_ID`, so its admin is the seed wallet
      rw [serialChild_WORKER_ID]
      exact hinv.initial_mem _ (hseed label hlabel)
    · rw [Dispatch.child_WORKER_ID]
      have hrun := hinv.reachable.inv
      simp only [Inv, hphase] at hrun
      have hparallel := (runParallelWithQueue_eq_started.mp hrun.1).1
      obtain rfl := job_eq_of_started hcount hrun.1
      change dispatch.slotId < workerCount at hslot
      by_cases hmany : 2 ≤ workerCount
      · have hbootstraps : run.bootstraps = true := by
          have hsingle : ¬(workerCount : Int) ≤ 1 := by omega
          simp [bootstraps, BaseParallelRunner.singleWorker, hcount, hskip, hsingle]
        exact hinv.worker_mem hbootstraps (by simp [hphase, RunPhase.AfterBootstrap]) _ hslot
          label hlabel
      · obtain hzero : dispatch.slotId = 0 := by omega
        have hgranted := (hcondition.resolve_left hmany).resolve_left hparallel
        rw [hzero]
        exact hinv.initial_mem _ (hgranted label hlabel)

/-- One worker, with the seed wallet granted on both chains. -/
theorem not_adminAtSpawn_oneWorker :
    ¬(Run.mk (.new ⟨some "1", none, none, none⟩ []) (fun _ => none)
      (BaseParallelRunner.partitionFiles ["test/e2e/payments.test.ts"])).AdminAtSpawn
        ["A", "PNH"] [("A", .system), ("PNH", .system)] :=
  not_adminAtSpawn_of_single (by decide) (by decide) "A" (by decide) (by decide)

/-- Two workers are bootstrapped. -/
theorem adminAtSpawn_twoWorkers :
    (Run.mk (.new ⟨some "2", none, none, none⟩ []) (fun _ => none)
      (BaseParallelRunner.partitionFiles ["test/e2e/payments.test.ts"])).AdminAtSpawn
        ["A", "PNH"] [("A", .system), ("PNH", .system)] :=
  (adminAtSpawn_iff _ _ _ 2 (by decide) (by decide) (by decide) (by decide)).mpr
    (Or.inl (by decide))

end Run

end RaylsSuite.Runner
