import RaylsSuite.Foundation.RoundRobin
import RaylsSuite.Foundation.Text

/-! # The environment of a child process -/

namespace RaylsSuite.Config

open Foundation

def SECOND : Nat := 1000

def MINUTE : Nat := 60 * SECOND

def ZERO_ADDRESS : String := "0x0000000000000000000000000000000000000000"

def ZERO_HASH : String := "0x0000000000000000000000000000000000000000000000000000000000000000"

def TIMEOUT_MULTIPLIER (PARALLEL_WORKERS : Option String) : Nat :=
  match Text.parseInt (Text.orElse PARALLEL_WORKERS "1") with
  | none => 1
  | some workers => if 5 ≤ workers then 4 else if 1 < workers then 2 else 1

def DEFAULT_TIMEOUT (PARALLEL_WORKERS : Option String) : Nat :=
  4 * MINUTE * TIMEOUT_MULTIPLIER PARALLEL_WORKERS

/-- The default budget of a wait is a whole number of seconds, and not empty. -/
theorem DEFAULT_TIMEOUT_seconds (PARALLEL_WORKERS : Option String) :
    DEFAULT_TIMEOUT PARALLEL_WORKERS / SECOND = 240 * TIMEOUT_MULTIPLIER PARALLEL_WORKERS := by
  rw [DEFAULT_TIMEOUT, MINUTE, SECOND]
  omega

theorem TIMEOUT_MULTIPLIER_pos (PARALLEL_WORKERS : Option String) :
    0 < TIMEOUT_MULTIPLIER PARALLEL_WORKERS := by
  unfold TIMEOUT_MULTIPLIER
  split
  next => decide
  next => split_ifs <;> decide

/-- `parseWorkerId` of `MOCHA_WORKER_ID`; `none` is the process of the seed wallet. -/
def parseWorkerId (MOCHA_WORKER_ID : Option String) : Option Nat :=
  match MOCHA_WORKER_ID with
  | none => none
  | some raw =>
      if raw = "" then none
      else
        match Text.parseInt raw with
        | none => none
        | some n => if 0 ≤ n then some n.toNat else none

theorem parseWorkerId_toString (workerId : Nat) :
    parseWorkerId (some (toString workerId)) = some workerId := by
  have hparse : Text.parseInt (toString workerId) = some (workerId : Int) :=
    Text.parseInt_repr workerId
  have htext : toString workerId ≠ "" := Text.repr_ne_empty workerId
  simp only [parseWorkerId, if_neg htext, hparse, Int.natCast_nonneg, if_true, Int.toNat_natCast]

theorem parseWorkerId_bootstrap : parseWorkerId (some "bootstrap") = none := by decide

theorem parseWorkerId_serial : parseWorkerId (some "serial") = none := by decide

/-! ## The backend of a process -/

def RAYLS_NODES : List String := ["A", "B", "C", "D", "E", "F"]

section Backends

variable (env : String → Option String)

/-- The address of a node's backend; an empty text stands for none. -/
def OPS_SERVICE_URL (NODE : String) : String := Text.orElse (env s!"OPS_SERVICE_{NODE}_URL") ""

def availableBackends : List String := RAYLS_NODES.filter fun n => OPS_SERVICE_URL env n ≠ ""

def BACKEND_TARGET_NODE (WORKER_ID : Option Nat) : String :=
  if hnone : (availableBackends env).length = 0 then "A"
  else
    match WORKER_ID with
    | some workerId =>
        RoundRobin.assign (availableBackends env) (Nat.pos_of_ne_zero hnone) workerId
    | none => (availableBackends env).get ⟨0, Nat.pos_of_ne_zero hnone⟩

/-- The text that is logged when workers share backends. -/
def backendWarning (PARALLEL_WORKERS : Option String) (WORKER_ID : Option Nat) : Option String :=
  let backends := (availableBackends env).length
  match Text.parseInt (PARALLEL_WORKERS.getD "1") with
  | none => none
  | some workers =>
      if WORKER_ID = some 0 ∧ (backends : Int) < workers ∧ 0 < backends then
        let most := workers.toNat ⌈/⌉ backends
        some (s!"[BACKEND] {workers} workers vs {backends} configured backends — " ++
          s!"load uneven; up to {most} workers per backend.")
      else none

variable {env}

theorem availableBackends_nodup : (availableBackends env).Nodup :=
  List.Nodup.filter _ (by decide)

theorem BACKEND_TARGET_NODE_worker (hne : 0 < (availableBackends env).length) (workerId : Nat) :
    BACKEND_TARGET_NODE env (some workerId) =
      RoundRobin.assign (availableBackends env) hne workerId :=
  dif_neg (Nat.ne_of_gt hne)

theorem BACKEND_TARGET_NODE_mem (hne : 0 < (availableBackends env).length)
    (WORKER_ID : Option Nat) : BACKEND_TARGET_NODE env WORKER_ID ∈ availableBackends env := by
  rw [BACKEND_TARGET_NODE, dif_neg (Nat.ne_of_gt hne)]
  cases WORKER_ID with
  | none => exact List.get_mem _ _
  | some workerId => exact RoundRobin.assign_mem workerId

end Backends

end RaylsSuite.Config
