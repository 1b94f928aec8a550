import Mathlib.Algebra.Ring.Nat
import Mathlib.Data.List.Nodup

/-! # Wallets of a process

Every wallet of a process is the system key itself or a child of the master
node. A process with a worker id derives its role wallets from that id; one
without uses the system key for the admin and random children for the rest.
-/

namespace RaylsSuite.Common

/-- One component of a derivation path. -/
structure ChildNumber where
  index : Nat
  hardened : Bool
deriving DecidableEq, Repr

abbrev HDPath : Type := List ChildNumber

/-- The components that a path may have; a larger index cannot be derived. -/
def HDPath.Valid (path : HDPath) : Prop := ∀ component ∈ path, component.index < 2 ^ 31

instance (path : HDPath) : Decidable path.Valid :=
  inferInstanceAs (Decidable (∀ component ∈ path, _))

/-- `m/44'/60'/0'/0`. -/
def DERIVATION_BASE : HDPath := [⟨44, true⟩, ⟨60, true⟩, ⟨0, true⟩, ⟨0, false⟩]

/-- The values of `randomChildIndex`. -/
abbrev RandomChildIndex : Type := Fin 2147483647

def createUserOperator (index : RandomChildIndex) : HDPath :=
  DERIVATION_BASE ++ [⟨index, false⟩]

def WORKER_SLOT_BASE : Nat := 1000000000

inductive RoleKey where
  | admin
  | operator
  | bankEmployee
  | user
  | compliance
deriving DecidableEq, Repr

def ROLE_SLOT : RoleKey → Nat
  | .admin => 0
  | .operator => 1
  | .bankEmployee => 2
  | .user => 3
  | .compliance => 4

def deriveWorkerWallet (roleKey : RoleKey) (workerId : Nat) : HDPath :=
  let workerSlot := WORKER_SLOT_BASE + workerId
  let roleSlot := ROLE_SLOT roleKey
  DERIVATION_BASE ++ [⟨workerSlot, false⟩, ⟨roleSlot, false⟩]

/-- A wallet is the system key or a child of the master node. -/
inductive Wallet where
  | system
  | child (path : HDPath)
deriving DecidableEq, Repr

/-- The admin wallet that the bootstrap grants for a worker. -/
def workerAdminWallet (workerId : Nat) : Wallet := .child (deriveWorkerWallet .admin workerId)

/-! ## Role wallets -/

def adminWallet (WORKER_ID : Option Nat) : Wallet :=
  match WORKER_ID with
  | none => .system
  | some workerId => .child (deriveWorkerWallet .admin workerId)

/-- A role wallet other than the admin's. -/
def roleWallet (roleKey : RoleKey) (WORKER_ID : Option Nat) (index : RandomChildIndex) : Wallet :=
  match WORKER_ID with
  | none => .child (createUserOperator index)
  | some workerId => .child (deriveWorkerWallet roleKey workerId)

def userWallet (WORKER_ID : Option Nat) (index : RandomChildIndex) : Wallet :=
  roleWallet .user WORKER_ID index

def operatorWallet (WORKER_ID : Option Nat) (index : RandomChildIndex) : Wallet :=
  roleWallet .operator WORKER_ID index

def bankEmployeeWallet (WORKER_ID : Option Nat) (index : RandomChildIndex) : Wallet :=
  roleWallet .bankEmployee WORKER_ID index

def complianceWallet (WORKER_ID : Option Nat) (index : RandomChildIndex) : Wallet :=
  roleWallet .compliance WORKER_ID index

/-- The role wallets of a process, with the random children it draws for them. -/
def roleWallets (WORKER_ID : Option Nat) (draw : RoleKey → RandomChildIndex) : List Wallet :=
  [adminWallet WORKER_ID, operatorWallet WORKER_ID (draw .operator),
    bankEmployeeWallet WORKER_ID (draw .bankEmployee), userWallet WORKER_ID (draw .user),
    complianceWallet WORKER_ID (draw .compliance)]

/-- The derivation paths of a worker's role wallets. -/
def workerPaths (workerId : Nat) : List HDPath :=
  [RoleKey.admin, .operator, .bankEmployee, .user, .compliance].map
    fun roleKey => deriveWorkerWallet roleKey workerId

theorem roleWallets_worker (workerId : Nat) (draw : RoleKey → RandomChildIndex) :
    roleWallets (some workerId) draw = (workerPaths workerId).map .child := rfl

/-! ## Paths that never meet -/

theorem ROLE_SLOT_injective : Function.Injective ROLE_SLOT := by
  intro first second heq
  cases first <;> cases second <;> first | rfl | cases heq

theorem deriveWorkerWallet_inj {first second : RoleKey} {i j : Nat}
    (heq : deriveWorkerWallet first i = deriveWorkerWallet second j) : first = second ∧ i = j := by
  simp only [deriveWorkerWallet, List.append_cancel_left_eq, List.cons.injEq, ChildNumber.mk.injEq,
    Nat.add_left_cancel_iff, and_true] at heq
  exact ⟨ROLE_SLOT_injective heq.2, heq.1⟩

/-- The index ranges of workers and random children overlap, but a worker's path
is one component longer. -/
theorem deriveWorkerWallet_ne_createUserOperator (roleKey : RoleKey) (workerId : Nat)
    (index : RandomChildIndex) : deriveWorkerWallet roleKey workerId ≠ createUserOperator index := by
  intro heq
  have hlength := congrArg List.length heq
  simp [deriveWorkerWallet, createUserOperator] at hlength

theorem mem_workerPaths {path : HDPath} {workerId : Nat} :
    path ∈ workerPaths workerId ↔ ∃ roleKey, path = deriveWorkerWallet roleKey workerId := by
  simp only [workerPaths, List.mem_map]
  constructor
  · rintro ⟨roleKey, -, rfl⟩
    exact ⟨roleKey, rfl⟩
  · rintro ⟨roleKey, rfl⟩
    exact ⟨roleKey, by cases roleKey <;> decide, rfl⟩

theorem workerPaths_nodup (workerId : Nat) : (workerPaths workerId).Nodup := by
  refine List.Nodup.map (fun first second heq => (deriveWorkerWallet_inj heq).1) ?_
  decide

theorem workerPaths_disjoint {i j : Nat} (hne : i ≠ j) :
    List.Disjoint (workerPaths i) (workerPaths j) := by
  intro path hfirst hsecond
  obtain ⟨first, rfl⟩ := mem_workerPaths.mp hfirst
  obtain ⟨second, heq⟩ := mem_workerPaths.mp hsecond
  exact hne (deriveWorkerWallet_inj heq).2

theorem DERIVATION_BASE_valid : HDPath.Valid DERIVATION_BASE := by decide

theorem createUserOperator_valid (index : RandomChildIndex) : (createUserOperator index).Valid := by
  intro component hmem
  rcases List.mem_append.mp hmem with hbase | hlast
  · exact DERIVATION_BASE_valid component hbase
  · rw [List.mem_singleton.mp hlast]
    exact Nat.lt_trans index.isLt (by decide)

/-- The paths of a worker are within the range of hardened indices. -/
theorem workerPaths_valid {workerId : Nat} (hbound : WORKER_SLOT_BASE + workerId < 2 ^ 31)
    {path : HDPath} (hpath : path ∈ workerPaths workerId) : path.Valid := by
  obtain ⟨roleKey, rfl⟩ := mem_workerPaths.mp hpath
  intro component hmem
  rcases List.mem_append.mp hmem with hbase | hlast
  · exact DERIVATION_BASE_valid component hbase
  · rcases List.mem_pair.mp hlast with rfl | rfl
    · exact hbound
    · cases roleKey <;> decide

end RaylsSuite.Common
