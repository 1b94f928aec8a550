import RaylsSuite.Foundation.Numeral
import RaylsSuite.Runner.Configuration

/-! # Durations of the last run

The hints are read from the merged report, from its results alone. These are
the root suites, which carry no file: the suites of the test files are nested
in them and are never looked at, so no report gives a hint and the queue keeps
the order in which its files were listed.
-/

namespace RaylsSuite.Runner

open Foundation

/-! ## The merged report -/

/-- A suite of the report; `failures` and `pending` hold the ids of tests. -/
structure Suite where
  fullFile : String
  duration : ℚ
  failures : List String
  pending : List String
  suites : List Suite

mutual

/-- The suite with the suites nested in it, at any depth. -/
def Suite.nodes : Suite → List Suite
  | suite@⟨_, _, _, _, suites⟩ => suite :: nodesOf suites

def nodesOf : List Suite → List Suite
  | [] => []
  | suite :: rest => suite.nodes ++ nodesOf rest

end

/-- What `mochawesome-merge` writes: its results are root suites. -/
structure MergedReport where
  results : List Suite
  root : ∀ result ∈ results, result.fullFile = ""

/-- `mochawesome.json`: it may be missing, and it may be no JSON. -/
inductive ReportFile where
  | missing
  | malformed
  | report (report : MergedReport)

/-! ## Loading the hints -/

/-- `ids > 0`: an array is compared as the number that its joined text writes. -/
def arrayAboveZero (ids : List String) : Bool := Text.isAboveZero (",".intercalate ids)

def Suite.hasFailed (result : Suite) : Bool :=
  arrayAboveZero result.failures || arrayAboveZero result.pending

/-- `hints[path.basename(result.fullFile)] = result.duration`. -/
def DurationHints.set (hints : DurationHints) (name : String) (duration : ℚ) : DurationHints :=
  fun other => if other = name then some duration else hints other

/-- The body of the loop over the results. The type of `duration` is always a number. -/
def DurationHints.load (hints : DurationHints) (result : Suite) : DurationHints :=
  if result.fullFile ≠ "" ∧ result.hasFailed = false then
    hints.set (basename result.fullFile) result.duration
  else hints

def loadDurationHints : ReportFile → DurationHints
  | .missing | .malformed => fun _ => none
  | .report report => report.results.foldl DurationHints.load fun _ => none

/-! ## The hints of a report -/

/-- The suites of a test file, wherever they are nested. -/
def MergedReport.suitesOf (report : MergedReport) (file : String) : List Suite :=
  (nodesOf report.results).filter fun suite => suite.fullFile = file

/-- No test of the file's suites failed or is pending. -/
def MergedReport.Passed (report : MergedReport) (file : String) : Prop :=
  ∀ suite ∈ report.suitesOf file, suite.failures = [] ∧ suite.pending = []

instance (report : MergedReport) (file : String) : Decidable (report.Passed file) := by
  unfold MergedReport.Passed
  infer_instance

/-- A file has a hint exactly if the report holds it and it passed, and the hint is the
duration of its suites. -/
structure DurationHints.Exact (hints : DurationHints) (report : MergedReport) : Prop where
  given : ∀ file, file ≠ "" →
    ((hints (basename file)).isSome = true ↔ report.suitesOf file ≠ [] ∧ report.Passed file)
  duration : ∀ file, file ≠ "" → ∀ hint, hints (basename file) = some hint →
    hint = ((report.suitesOf file).map Suite.duration).sum

theorem DurationHints.load_root (hints : DurationHints) {result : Suite}
    (hroot : result.fullFile = "") : hints.load result = hints :=
  if_neg fun hloaded => hloaded.1 hroot

/-- Root suites carry no file, so none of them adds a hint. -/
theorem foldl_load_root {results : List Suite} (hints : DurationHints)
    (hroot : ∀ result ∈ results, result.fullFile = "") :
    results.foldl DurationHints.load hints = hints := by
  induction results generalizing hints with
  | nil => rfl
  | cons result rest ih =>
      obtain ⟨hfirst, hrest⟩ := List.forall_mem_cons.mp hroot
      rw [List.foldl_cons, hints.load_root hfirst]
      exact ih hints hrest

theorem loadDurationHints_eq_none (file : ReportFile) (name : String) :
    loadDurationHints file name = none := by
  cases file with
  | missing | malformed => rfl
  | report report =>
      rw [loadDurationHints, foldl_load_root _ report.root]

/-- The hints never reorder a queue. -/
theorem sortByExpectedDuration_loadDurationHints (report : ReportFile) (files : List String) :
    sortByExpectedDuration (loadDurationHints report) files = files :=
  sortByExpectedDuration_of_unknown fun file _ => loadDurationHints_eq_none report (basename file)

/-- The hints are those of the report exactly if every file of the report has a test that
failed or is pending. -/
theorem loadDurationHints_exact_iff (report : MergedReport) :
    (loadDurationHints (.report report)).Exact report ↔
      ∀ file, file ≠ "" → report.suitesOf file ≠ [] → ¬report.Passed file := by
  constructor
  · intro hexact file hfile hheld hpassed
    have hhint := (hexact.given file hfile).mpr ⟨hheld, hpassed⟩
    rw [loadDurationHints_eq_none] at hhint
    cases hhint
  · intro hflawed
    constructor
    · intro file hfile
      rw [loadDurationHints_eq_none]
      refine iff_of_false Bool.false_ne_true ?_
      rintro ⟨hheld, hpassed⟩
      exact hflawed file hfile hheld hpassed
    · intro file _ hint hhint
      rw [loadDurationHints_eq_none] at hhint
      cases hhint

/-- One file that passed. -/
theorem not_exact_passedFile :
    ¬(loadDurationHints (.report ⟨[⟨"", 0, [], [], [⟨"test/a.ts", 1200, [], [], []⟩]⟩],
      by decide⟩)).Exact ⟨[⟨"", 0, [], [], [⟨"test/a.ts", 1200, [], [], []⟩]⟩], by decide⟩ := by
  intro hexact
  have hhint := (hexact.given "test/a.ts" (by decide)).mpr ⟨by decide, by decide⟩
  rw [loadDurationHints_eq_none] at hhint
  cases hhint

end RaylsSuite.Runner
