import Mathlib.Algebra.Ring.Int.Defs
import RaylsSuite.Foundation.Number
import RaylsSuite.Foundation.Processes
import RaylsSuite.Foundation.Text

/-! # Configuration of the parallel runner

The runner reads its worker count and its switches from the environment, splits
the resolved files into a serial and a parallel part, and describes every child
process by its command line and by the variables it adds to the environment.
-/

namespace RaylsSuite.Runner

open Foundation

/-! ## The constructor -/

/-- The environment variables of the runner process. -/
structure Environment where
  PARALLEL_WORKERS : Option String
  WORKER_STAGGER_MS : Option String
  SKIP_BOOTSTRAP : Option String
  MOCHA_REPORT_SUFFIX : Option String
deriving DecidableEq, Repr

/-- The runner's fields; a count that does not parse is NaN, here `none`. -/
structure BaseParallelRunner where
  workerCount : Option Int
  staggerDelayMs : Option Int
  skipBootstrap : Bool
  flags : List String
  env : Environment
deriving DecidableEq, Repr

/-- The constructor, with the flags that `resolveFiles` stores later. -/
def BaseParallelRunner.new (env : Environment) (flags : List String) : BaseParallelRunner where
  workerCount := Text.parseInt (Text.orElse env.PARALLEL_WORKERS "4")
  staggerDelayMs := Text.parseInt (Text.orElse env.WORKER_STAGGER_MS "5000")
  skipBootstrap := env.SKIP_BOOTSTRAP = some "1"
  flags := flags
  env := env

/-- `String(value)` of a parsed integer. -/
def numberText : Option Int → String
  | none => "NaN"
  | some value => toString value

/-- The length of `Array.from({ length: value })`: NaN and negative lengths give an
empty array, a length above `2 ^ 32 - 1` is a RangeError. -/
def arrayLength : Option Int → Option Nat
  | none => some 0
  | some value => if value ≤ 2 ^ 32 - 1 then some value.toNat else none

/-- `this.workerCount <= 1`; a comparison with NaN is false. -/
def BaseParallelRunner.singleWorker (runner : BaseParallelRunner) : Bool :=
  runner.workerCount.any (· ≤ 1)

/-- `this.staggerDelayMs > 0`. -/
def BaseParallelRunner.staggers (runner : BaseParallelRunner) : Bool :=
  runner.staggerDelayMs.any (0 < ·)

/-- `this.flags.includes('--bail')`. -/
def BaseParallelRunner.bails (runner : BaseParallelRunner) : Bool := runner.flags.contains "--bail"

/-! ## The resolved files and their partitions -/

/-- The UTF-16 code units of a text, by which `sort()` orders texts. -/
def codeUnits (text : String) : List Nat :=
  text.toList.flatMap fun char =>
    if char.toNat < 0x10000 then [char.toNat]
    else [0xD800 + (char.toNat - 0x10000) / 0x400, 0xDC00 + (char.toNat - 0x10000) % 0x400]

/-- `resolveFiles`, by the files that `glob` finds for each pattern; it exits with this code when
there is none. -/
def resolveFiles (found : List (List String)) : Except Nat (List String) :=
  let allFiles := found.flatten.eraseDups.mergeSort fun a b =>
    !(codeUnits b).lex (codeUnits a) fun x y => decide (x < y)
  if allFiles.length = 0 then .error 1 else .ok allFiles

/-- Whatever `resolveFiles` returns names at least one file: an empty result exits. -/
theorem resolveFiles_ne_nil {found : List (List String)} {allFiles : List String}
    (hresolved : resolveFiles found = .ok allFiles) : allFiles ≠ [] := by
  unfold resolveFiles at hresolved
  dsimp only at hresolved
  split at hresolved
  next => cases hresolved
  next hlength =>
    obtain rfl := Except.ok.inj hresolved
    exact fun hnil => hlength (congrArg List.length hnil)

/-- The two buckets of `partitionFiles`; no file is in both. -/
structure Partition where
  parallel : List String
  serial : List String
  disjoint : List.Disjoint serial parallel

/-- The template method of the base class: every file is parallel. -/
def BaseParallelRunner.partitionFiles (allFiles : List String) : Partition :=
  ⟨allFiles, [], List.disjoint_nil_left _⟩

/-- The end-to-end runner: files that contain the serial tag run serially. -/
def E2eParallelRunner.partitionFiles (content : String → String) (allFiles : List String) :
    Partition where
  parallel := allFiles.filter fun file => !Text.includes (content file) "@serial"
  serial := allFiles.filter fun file => Text.includes (content file) "@serial"
  disjoint := by
    intro file hserial hparallel
    simp only [List.mem_filter] at hserial hparallel
    simp [hserial.2] at hparallel

/-- The smoke runner: files without the smoke tag are skipped. -/
def SmokeParallelRunner.partitionFiles (content : String → String) (allFiles : List String) :
    Partition :=
  ⟨allFiles.filter fun file => Text.includes (content file) "@smoke", [],
    List.disjoint_nil_left _⟩

/-- The partition leaves out no file. -/
def Partition.Covers (partition : Partition) (allFiles : List String) : Prop :=
  ∀ file ∈ allFiles, file ∈ partition.serial ∨ file ∈ partition.parallel

theorem BaseParallelRunner.partitionFiles_covers (allFiles : List String) :
    (partitionFiles allFiles).Covers allFiles :=
  fun _ hfile => .inr hfile

theorem E2eParallelRunner.partitionFiles_covers (content : String → String)
    (allFiles : List String) : (partitionFiles content allFiles).Covers allFiles := by
  intro file hfile
  cases htag : Text.includes (content file) "@serial" with
  | false => exact .inr (List.mem_filter.mpr ⟨hfile, by rw [htag]; rfl⟩)
  | true => exact .inl (List.mem_filter.mpr ⟨hfile, htag⟩)

/-! ## Child processes -/

inductive Command where
  | run (script : String)
  | test (files flags : List String)
deriving DecidableEq, Repr

/-- The words that are joined into the shell command. -/
def Command.words : Command → List String
  | .run script => ["npx", "hardhat", "run", script, "--no-compile"]
  | .test files flags => ["npx", "hardhat", "test"] ++ files ++ flags

def Command.line (command : Command) : String := " ".intercalate command.words

def Command.isTest : Command → Bool
  | .run _ => false
  | .test _ _ => true

/-- A child process: its command and the variables the runner cares about. A child
whose report suffix is not set inherits the runner's own. -/
structure Child where
  command : Command
  MOCHA_WORKER_ID : String
  PARALLEL_WORKERS : String
  MOCHA_REPORT_SUFFIX : Option String
deriving DecidableEq, Repr

def Child.isTest (child : Child) : Bool := child.command.isTest

/-- The files that a test child was given. -/
def Child.files (child : Child) : List String :=
  match child.command with
  | .run _ => []
  | .test files _ => files

/-- `REPORT_TAG` of a child's hardhat configuration. -/
def Child.REPORT_TAG (child : Child) : String :=
  Text.orElse child.MOCHA_REPORT_SUFFIX child.MOCHA_WORKER_ID

/-- `reportFilename` of a child's mocha configuration, which writes JSON. -/
def Child.reportFilename (child : Child) : String :=
  if child.REPORT_TAG = "" then "mochawesome" else "worker-" ++ child.REPORT_TAG

def BaseParallelRunner.bootstrapChild (runner : BaseParallelRunner) : Child where
  command := .run "scripts/runners/bootstrap-worker-wallets.ts"
  MOCHA_WORKER_ID := "bootstrap"
  PARALLEL_WORKERS := numberText runner.workerCount
  MOCHA_REPORT_SUFFIX := runner.env.MOCHA_REPORT_SUFFIX

def BaseParallelRunner.serialChild (runner : BaseParallelRunner) (serialFiles : List String) :
    Child where
  command := .test serialFiles runner.flags
  MOCHA_WORKER_ID := "serial"
  PARALLEL_WORKERS := numberText runner.workerCount
  MOCHA_REPORT_SUFFIX := runner.env.MOCHA_REPORT_SUFFIX

/-! ## Queue order -/

/-- `path.basename`. -/
def basename (file : String) : String :=
  String.ofList
    (((file.toList.reverse.dropWhile (· = '/')).takeWhile (· ≠ '/')).reverse)

/-- The duration of the last run by basename; unknown files count as the longest. -/
abbrev DurationHints : Type := String → Option ℚ

def DurationHints.expected (hints : DurationHints) (file : String) : Number :=
  match hints (basename file) with
  | some duration => .finite duration
  | none => .infinity

def sortByExpectedDuration (hints : DurationHints) (files : List String) : List String :=
  sortBy (fun a b => hints.expected b - hints.expected a) files

/-- Files without a known duration stay in their order: the comparator's NaN counts
as equal. -/
theorem sortByExpectedDuration_of_unknown {hints : DurationHints} {files : List String}
    (hunknown : ∀ file ∈ files, hints (basename file) = none) :
    sortByExpectedDuration hints files = files := by
  refine List.mergeSort_of_pairwise (List.pairwise_of_forall_mem_list ?_)
  intro first hfirst second hsecond
  simp only [DurationHints.expected, hunknown first hfirst, hunknown second hsecond]
  rfl

end RaylsSuite.Runner
