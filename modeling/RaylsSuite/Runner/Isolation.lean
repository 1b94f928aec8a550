import RaylsSuite.Common.WalletFactory
import RaylsSuite.Config.EnvConfig
import RaylsSuite.Runner.Run

/-! # Signers of concurrent children

Children in flight at the same time never sign with the same deterministic
wallet: the phases of the seed wallet run alone, and the slots of the queue
have worker ids of their own.
-/

namespace RaylsSuite.Runner

open Foundation Common

universe u

/-- The worker id that a child reads from its environment. -/
def Child.WORKER_ID (child : Child) : Option Nat :=
  Config.parseWorkerId (some child.MOCHA_WORKER_ID)

@[simp] theorem Dispatch.child_WORKER_ID (runner : BaseParallelRunner) (dispatch : Dispatch) :
    (dispatch.child runner).WORKER_ID = some dispatch.slotId :=
  Config.parseWorkerId_toString dispatch.slotId

@[simp] theorem bootstrapChild_WORKER_ID (runner : BaseParallelRunner) :
    runner.bootstrapChild.WORKER_ID = none := Config.parseWorkerId_bootstrap

@[simp] theorem serialChild_WORKER_ID (runner : BaseParallelRunner) (serialFiles : List String) :
    (runner.serialChild serialFiles).WORKER_ID = none := Config.parseWorkerId_serial

section Keys

variable {Key : Type u} (systemKey : Key) (derivePath : HDPath → Key)

/-- The key that a wallet signs with. -/
def walletKey : Wallet → Key
  | .system => systemKey
  | .child path => derivePath path

/-- No two children in flight share a deterministic signer. -/
structure SignersIsolated (children : List Child) : Prop where
  seed_alone : ∀ child ∈ children, child.WORKER_ID = none → children = [child]
  across : children.Pairwise fun first second => ∀ draw draw',
    List.Disjoint (roleWallets first.WORKER_ID draw) (roleWallets second.WORKER_ID draw') ∧
      List.Disjoint ((roleWallets first.WORKER_ID draw).map (walletKey systemKey derivePath))
        ((roleWallets second.WORKER_ID draw').map (walletKey systemKey derivePath))
  within : ∀ child ∈ children, child.WORKER_ID ≠ none → ∀ draw,
    (roleWallets child.WORKER_ID draw).Nodup ∧
      ((roleWallets child.WORKER_ID draw).map (walletKey systemKey derivePath)).Nodup
  drawn : ∀ child ∈ children, child.WORKER_ID ≠ none → ∀ draw index,
    .child (createUserOperator index) ∉ roleWallets child.WORKER_ID draw ∧
      derivePath (createUserOperator index) ∉
        (roleWallets child.WORKER_ID draw).map (walletKey systemKey derivePath)

variable {systemKey derivePath}

theorem SignersIsolated.nil : SignersIsolated systemKey derivePath [] where
  seed_alone _ hmem := by cases hmem
  across := List.Pairwise.nil
  within _ hmem := by cases hmem
  drawn _ hmem := by cases hmem

/-- A single child that uses the seed wallet. -/
theorem SignersIsolated.seed {child : Child} (hseed : child.WORKER_ID = none) :
    SignersIsolated systemKey derivePath [child] where
  seed_alone other hmem _ := by rw [List.mem_singleton.mp hmem]
  across := List.pairwise_singleton _ _
  within other hmem hworker := absurd (List.mem_singleton.mp hmem ▸ hseed) hworker
  drawn other hmem hworker := absurd (List.mem_singleton.mp hmem ▸ hseed) hworker

theorem map_walletKey_roleWallets (workerId : Nat) (draw : RoleKey → RandomChildIndex) :
    (roleWallets (some workerId) draw).map (walletKey systemKey derivePath) =
      (workerPaths workerId).map derivePath := rfl

/-- Workers with ids of their own that the derivation can reach. -/
theorem SignersIsolated.workers
    (hderive : ∀ path other, path.Valid → other.Valid → derivePath path = derivePath other →
      path = other)
    {children : List Child} (workerId : Child → Nat)
    (hworker : ∀ child ∈ children, child.WORKER_ID = some (workerId child))
    (hbound : ∀ child ∈ children, WORKER_SLOT_BASE + workerId child < 2 ^ 31)
    (hdistinct : children.Pairwise fun first second => workerId first ≠ workerId second) :
    SignersIsolated systemKey derivePath children where
  seed_alone child hmem hseed := by
    rw [hworker child hmem] at hseed
    cases hseed
  across := by
    refine hdistinct.imp_of_mem ?_
    intro first second hfirst hsecond hne draw draw'
    rw [hworker first hfirst, hworker second hsecond, map_walletKey_roleWallets,
      map_walletKey_roleWallets, roleWallets_worker, roleWallets_worker]
    have hpaths := workerPaths_disjoint hne
    constructor
    · exact List.disjoint_map (fun _ _ heq => Wallet.child.inj heq) hpaths
    · intro key hone htwo
      obtain ⟨path, hpath, rfl⟩ := List.mem_map.mp hone
      obtain ⟨other, hother, heq⟩ := List.mem_map.mp htwo
      have hsame := hderive other path (workerPaths_valid (hbound second hsecond) hother)
        (workerPaths_valid (hbound first hfirst) hpath) heq
      exact hpaths hpath (hsame ▸ hother)
  within child hmem _ draw := by
    rw [hworker child hmem, map_walletKey_roleWallets, roleWallets_worker]
    have hnodup := workerPaths_nodup (workerId child)
    refine ⟨hnodup.map fun _ _ heq => Wallet.child.inj heq, hnodup.map_on ?_⟩
    intro path hpath other hother heq
    exact hderive path other (workerPaths_valid (hbound child hmem) hpath)
      (workerPaths_valid (hbound child hmem) hother) heq
  drawn child hmem _ draw index := by
    rw [hworker child hmem, map_walletKey_roleWallets, roleWallets_worker]
    have hfresh : createUserOperator index ∉ workerPaths (workerId child) := by
      intro hpath
      obtain ⟨roleKey, heq⟩ := mem_workerPaths.mp hpath
      exact deriveWorkerWallet_ne_createUserOperator roleKey _ index heq.symm
    constructor
    · intro hwallet
      obtain ⟨path, hpath, heq⟩ := List.mem_map.mp hwallet
      exact hfresh (Wallet.child.inj heq ▸ hpath)
    · intro hkey
      obtain ⟨path, hpath, heq⟩ := List.mem_map.mp hkey
      have hsame := hderive path _ (workerPaths_valid (hbound child hmem) hpath)
        (createUserOperator_valid index) heq
      exact hfresh (hsame ▸ hpath)

/-! ## Every reachable state -/

/-- The children in flight never share a deterministic signer. -/
theorem inFlight_isolated (run : Run) (workerCount : Nat) (systemKey : Key)
    (derivePath : HDPath → Key) (state : RunState)
    (hcount : run.runner.workerCount = some (workerCount : Int)) (hpositive : 1 ≤ workerCount)
    (hrange : 10 ^ 9 + workerCount < 2 ^ 31)
    (hderive : ∀ path other : HDPath, path.Valid → other.Valid →
      derivePath path = derivePath other → path = other)
    (hreach : run.Reachable state) :
    SignersIsolated systemKey derivePath state.processes.inFlight := by
  rcases hreach.inv.inFlight with hidle | hbootstrap | hserial | ⟨job, queue, hcall, hqueue, hslots⟩
  · exact hidle ▸ SignersIsolated.nil
  · exact hbootstrap ▸ SignersIsolated.seed (bootstrapChild_WORKER_ID run.runner)
  · exact hserial ▸ SignersIsolated.seed (serialChild_WORKER_ID run.runner _)
  · have hinv := (QueueInv.of_reaches hqueue).slots
    obtain rfl := job_eq_of_started hcount hcall
    rw [hslots]
    apply SignersIsolated.workers hderive fun child => child.WORKER_ID.getD 0
    · intro child hmem
      obtain ⟨dispatch, -, rfl⟩ := List.mem_map.mp hmem
      simp
    · intro child hmem
      obtain ⟨dispatch, hdispatch, rfl⟩ := List.mem_map.mp hmem
      have hlt : dispatch.slotId < workerCount := ((hinv.inFlight_iff dispatch).mp hdispatch).1
      simp only [Dispatch.child_WORKER_ID, Option.getD_some, WORKER_SLOT_BASE]
      omega
    · rw [List.pairwise_map]
      simpa using List.pairwise_map.mp hinv.inFlight_slots_nodup

/-- Two workers with a child in flight each. -/
theorem inFlight_isolated_twoWorkers :
    ∃ state, (Run.mk (.new ⟨some "2", some "0", none, none⟩ []) (fun _ => none)
        (BaseParallelRunner.partitionFiles ["test/a.ts", "test/b.ts"])).Reachable state ∧
      state.processes.inFlight.map Child.WORKER_ID = [some 1, some 0] ∧
      SignersIsolated [] id state.processes.inFlight := by
  have hparallel := Run.reachable_parallel (Run.mk (.new ⟨some "2", some "0", none, none⟩ [])
    (fun _ => none) (BaseParallelRunner.partitionFiles ["test/a.ts", "test/b.ts"]))
    (runParallelWithQueue_of_unknown _ (by decide) (by decide : _ = some 2))
  have hfirst := hparallel.step (.slot (.dequeue 1)) rfl
  have hsecond := hfirst.step (.slot (.dequeue 0)) rfl
  exact ⟨_, hsecond, by decide, inFlight_isolated _ 2 [] id _ (by decide) (by decide) (by decide)
    (fun _ _ _ _ heq => heq) hsecond⟩

end Keys

end RaylsSuite.Runner
