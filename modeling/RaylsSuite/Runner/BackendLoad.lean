import RaylsSuite.Runner.Isolation

/-! # Backends of concurrent children

The children in flight spread over the configured backends: none serves more of
them than the first worker warns of.
-/

namespace RaylsSuite.Runner

open Foundation Config

/-! ## The target of a child -/

section Targets

variable (env : String → Option String)

def Child.BACKEND_TARGET_NODE (child : Child) : String :=
  Config.BACKEND_TARGET_NODE env child.WORKER_ID

/-- What a child logs about its backends when it starts. -/
def Child.backendWarning (child : Child) : Option String :=
  Config.backendWarning env (some child.PARALLEL_WORKERS) child.WORKER_ID

/-- How many of the children test against a node's backend. -/
def backendLoad (children : List Child) (node : String) : Nat :=
  children.countP fun child => child.BACKEND_TARGET_NODE env = node

/-- The most children that one backend serves. -/
def mostWorkers (workerCount : Nat) : Nat := workerCount ⌈/⌉ (availableBackends env).length

def loadText (workerCount : Nat) : String :=
  s!"[BACKEND] {workerCount} workers vs {(availableBackends env).length} configured backends — " ++
    s!"load uneven; up to {mostWorkers env workerCount} workers per backend."

/-- How the children in flight share the backends. -/
structure BackendsShared (workerCount : Nat) (children : List Child) : Prop where
  configured : ∀ child ∈ children, child.BACKEND_TARGET_NODE env ∈ availableBackends env
  load_le : ∀ node, backendLoad env children node ≤ mostWorkers env workerCount
  warned : ∀ child ∈ children, child.backendWarning env =
    if child.WORKER_ID = some 0 ∧ (availableBackends env).length < workerCount then
      some (loadText env workerCount)
    else none
  /-- With every worker in flight the first backend meets the bound, and the others serve one
  less at least. -/
  fair : (∀ workerId < workerCount, some workerId ∈ children.map Child.WORKER_ID) →
    (∀ node, (availableBackends env).head? = some node →
      backendLoad env children node = mostWorkers env workerCount) ∧
      ∀ node ∈ availableBackends env,
        mostWorkers env workerCount ≤ backendLoad env children node + 1

end Targets

section Shared

variable {env : String → Option String} {runner : BaseParallelRunner} {workerCount : Nat}
  {children : List Child}

theorem backendWarning_of_count (hne : 0 < (availableBackends env).length) {child : Child}
    (hchild : child.PARALLEL_WORKERS = numberText (some (workerCount : Int))) :
    child.backendWarning env =
      if child.WORKER_ID = some 0 ∧ (availableBackends env).length < workerCount then
        some (loadText env workerCount)
      else none := by
  have hparse : Text.parseInt (numberText (some (workerCount : Int))) = some (workerCount : Int) :=
    Text.parseInt_repr workerCount
  have htext : toString (workerCount : Int) = toString workerCount := rfl
  rw [Child.backendWarning, Config.backendWarning, hchild, Option.getD_some, hparse]
  simp only [Nat.cast_lt, hne, and_true, Int.toNat_natCast, htext, loadText, mostWorkers]

theorem BackendsShared.nil (hpositive : 1 ≤ workerCount) : BackendsShared env workerCount [] where
  configured _ hmem := by cases hmem
  load_le _ := Nat.zero_le _
  warned _ hmem := by cases hmem
  fair hall := absurd (hall 0 hpositive) List.not_mem_nil

/-- A single child that uses the seed wallet. -/
theorem BackendsShared.seed (hne : 0 < (availableBackends env).length) (hpositive : 1 ≤ workerCount)
    {child : Child} (hseed : child.WORKER_ID = none)
    (hchild : child.PARALLEL_WORKERS = numberText (some (workerCount : Int))) :
    BackendsShared env workerCount [child] where
  configured other _ := BACKEND_TARGET_NODE_mem hne _
  load_le node := by
    have hshare : 1 ≤ mostWorkers env workerCount := by
      rw [mostWorkers, Nat.one_le_iff_ne_zero, Ne, Nat.ceilDiv_eq_add_pred_div,
        Nat.div_eq_zero_iff]
      omega
    exact List.countP_le_length.trans hshare
  warned other hmem := List.mem_singleton.mp hmem ▸ backendWarning_of_count hne hchild
  fair hall := by
    have hworker := hall 0 hpositive
    simp [hseed] at hworker

/-- Workers with ids of their own below the worker count. -/
theorem BackendsShared.workers (hne : 0 < (availableBackends env).length)
    {dispatches : List Dispatch} (hnodup : (dispatches.map Dispatch.slotId).Nodup)
    (hlt : ∀ dispatch ∈ dispatches, dispatch.slotId < workerCount)
    (hcount : runner.workerCount = some (workerCount : Int)) :
    BackendsShared env workerCount (dispatches.map (Dispatch.child runner)) := by
  have hload : ∀ node, backendLoad env (dispatches.map (Dispatch.child runner)) node =
      RoundRobin.load (availableBackends env) hne (dispatches.map Dispatch.slotId) node := by
    intro node
    rw [backendLoad, RoundRobin.load, List.countP_map, List.countP_map]
    congr 1
    funext dispatch
    simp only [Function.comp_apply, Child.BACKEND_TARGET_NODE, Dispatch.child_WORKER_ID,
      BACKEND_TARGET_NODE_worker hne]
  have hslots : ∀ slotId ∈ dispatches.map Dispatch.slotId, slotId < workerCount := by
    intro slotId hslot
    obtain ⟨dispatch, hdispatch, rfl⟩ := List.mem_map.mp hslot
    exact hlt dispatch hdispatch
  refine ⟨fun child _ => BACKEND_TARGET_NODE_mem hne _, fun node => ?_, ?_, ?_⟩
  · rw [hload]
    exact RoundRobin.load_le availableBackends_nodup hnodup hslots node
  · intro child hmem
    obtain ⟨dispatch, _, rfl⟩ := List.mem_map.mp hmem
    exact backendWarning_of_count hne (congrArg numberText hcount)
  · intro hall
    have hslot : ∀ slotId, slotId ∈ dispatches.map Dispatch.slotId ↔ slotId < workerCount := by
      refine fun slotId => ⟨hslots slotId, fun hlt => ?_⟩
      have hmem := hall slotId hlt
      simpa using hmem
    constructor
    · intro node hfirst
      rw [List.head?_eq_getElem?, List.getElem?_eq_getElem hne] at hfirst
      obtain rfl := Option.some.inj hfirst
      rw [hload]
      exact RoundRobin.load_first_of_all availableBackends_nodup hnodup hslot
    · intro node hnode
      have hleast : workerCount / (availableBackends env).length ≤ RoundRobin.load
          (availableBackends env) hne (dispatches.map Dispatch.slotId) node :=
        RoundRobin.le_load_of_all availableBackends_nodup hnodup hslot hnode
      rw [hload, mostWorkers, RoundRobin.share_eq hne]
      split <;> omega

end Shared

/-! ## Every reachable state -/

/-- The children in flight share the configured backends evenly, and only the first worker warns,
of the load that one backend can have. -/
theorem inFlight_backendsShared (run : Run) (workerCount : Nat) (env : String → Option String)
    (state : RunState) (hcount : run.runner.workerCount = some (workerCount : Int))
    (hpositive : 1 ≤ workerCount) (hne : 0 < (availableBackends env).length)
    (hreach : run.Reachable state) :
    BackendsShared env workerCount state.processes.inFlight := by
  have hworkers := congrArg numberText hcount
  rcases hreach.inv.inFlight with hidle | hbootstrap | hserial | ⟨job, queue, hcall, hqueue, hslots⟩
  · exact hidle ▸ BackendsShared.nil hpositive
  · exact hbootstrap ▸ BackendsShared.seed hne hpositive (bootstrapChild_WORKER_ID run.runner)
      hworkers
  · exact hserial ▸ BackendsShared.seed hne hpositive (serialChild_WORKER_ID run.runner _) hworkers
  · have hinv := (QueueInv.of_reaches hqueue).slots
    obtain rfl := job_eq_of_started hcount hcall
    rw [hslots]
    apply BackendsShared.workers hne hinv.inFlight_slots_nodup _ hcount
    exact fun dispatch hdispatch => ((hinv.inFlight_iff dispatch).mp hdispatch).1

/-- Two workers with a child in flight each, and a single backend. -/
theorem inFlight_backendsShared_twoWorkers :
    ∃ state, (Run.mk (.new ⟨some "2", some "0", none, none⟩ []) (fun _ => none)
        (BaseParallelRunner.partitionFiles ["test/a.ts", "test/b.ts"])).Reachable state ∧
      state.processes.inFlight.map Child.WORKER_ID = [some 1, some 0] ∧
      BackendsShared (fun name => if name = "OPS_SERVICE_A_URL" then some "http://a" else none) 2
        state.processes.inFlight := by
  have hparallel := Run.reachable_parallel (Run.mk (.new ⟨some "2", some "0", none, none⟩ [])
    (fun _ => none) (BaseParallelRunner.partitionFiles ["test/a.ts", "test/b.ts"]))
    (runParallelWithQueue_of_unknown _ (by decide) (by decide : _ = some 2))
  have hfirst := hparallel.step (.slot (.dequeue 1)) rfl
  have hsecond := hfirst.step (.slot (.dequeue 0)) rfl
  exact ⟨_, hsecond, by decide,
    inFlight_backendsShared _ 2 _ _ (by decide) (by decide) (by decide) hsecond⟩

end RaylsSuite.Runner
