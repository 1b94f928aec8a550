import RaylsSuite.Foundation.Directory
import RaylsSuite.Runner.History

/-! # The report directory over many invocations

Every invocation of the runner uses the same report directory. A test child
writes its JSON report there before it closes; `mergeReports` merges whatever
`worker-*.json` files the directory holds, and removes them only when the merge
succeeds. An invocation may be killed at any point, and then the children that
it leaves behind still write their reports.
-/

namespace RaylsSuite.Runner

open Foundation

/-- A child, with the invocation of the runner that spawned it. -/
structure Author where
  invocation : Nat
  child : Child
deriving DecidableEq, Repr

/-- The JSON file of a test child, relative to the report directory. -/
def Child.reportFile (child : Child) : String := child.reportFilename ++ ".json"

/-- The glob `worker-*.json`; the star does not match a slash. -/
def isWorkerJson (file : String) : Bool :=
  Text.startsWith file "worker-" && Text.endsWith file ".json" && !file.toList.contains '/'

/-- A call of `mergeReports`: the test children of its invocation, and the files that it
hands to the merge with their last authors. -/
structure Merge where
  spawned : List Author
  merged : List (String × Author)

/-- The merged files are those of the invocation's own children, each exactly once. -/
def Merge.Faithful (merge : Merge) : Prop := (merge.merged.map Prod.snd).Perm merge.spawned

instance (merge : Merge) : Decidable merge.Faithful :=
  inferInstanceAs (Decidable (List.Perm _ _))

/-- A runner process. Once it has called `mergeReports`, the files that the glob found are
in `workerJsons`. -/
structure Invocation where
  id : Nat
  run : Run
  state : RunState
  written : List Child
  workerJsons : Option (List String)

/-- The test children that the invocation has spawned. -/
def Invocation.spawned (invocation : Invocation) : List Author :=
  invocation.state.tests.map (Author.mk invocation.id)

/-- The test children in flight whose report is still to come. -/
def Invocation.unwritten (invocation : Invocation) : List Author :=
  (invocation.state.processes.inFlight.filter fun child =>
    child.isTest && !invocation.written.contains child).map (Author.mk invocation.id)

structure Reports where
  directory : Directory String Author
  count : Nat
  current : Option Invocation
  orphans : List Author
  merges : List Merge

inductive ReportEvent where
  | invoke (run : Run)
  | run (event : RunEvent)
  | write (child : Child)
  | merge (unlinked : List String)
  | kill
  | orphanWrite (author : Author)

/-- `mergeReports` is called when the serial phase or the queue fails and at the end of
`run`. -/
def RunPhase.callsMergeReports : RunPhase → RunPhase → Bool
  | .serial _, .exited _ => true
  | .parallel _ _, .exited _ => true
  | _, .passed => true
  | _, _ => false

/-- The process is gone without a call of `mergeReports`. -/
def RunPhase.leaves : RunPhase → Bool
  | .exited _ | .threw => true
  | _ => false

/-- Every test child that has closed has written its report. -/
def ReportsWritten (written : List Child) (state : RunState) : Prop :=
  ∀ entry ∈ state.processes.closed, entry.1.isTest = true → entry.1 ∈ written

instance (written : List Child) (state : RunState) : Decidable (ReportsWritten written state) :=
  inferInstanceAs (Decidable (∀ entry ∈ state.processes.closed, _))

namespace Reports

def initial : Reports := ⟨.empty, 0, none, [], []⟩

/-- `glob.sync(path.join(reportDir, 'worker-*.json'))`. -/
def workerJsons (state : Reports) : List String := state.directory.names.filter isWorkerJson

/-- The invocation after a step of its run. -/
def resume (state : Reports) (invocation : Invocation) (next : RunState) : Option Invocation :=
  if invocation.state.phase.callsMergeReports next.phase then
    some { invocation with state := next, workerJsons := some state.workerJsons }
  else if next.phase.leaves then none
  else some { invocation with state := next }

def step (state : Reports) : ReportEvent → Option Reports
  | .invoke run =>
      match state.current with
      | some _ => none
      | none => some { state with
          count := state.count + 1
          current := some ⟨state.count, run, .initial, [], none⟩ }
  | .run event =>
      match state.current with
      | none => none
      | some invocation =>
          match invocation.workerJsons, invocation.run.machine.step invocation.state event with
          | none, some next =>
              if ReportsWritten invocation.written next then
                some { state with current := state.resume invocation next }
              else none
          | _, _ => none
  | .write child =>
      match state.current with
      | none => none
      | some invocation =>
          if ⟨invocation.id, child⟩ ∈ invocation.unwritten then
            some { state with
              directory := state.directory.write child.reportFile ⟨invocation.id, child⟩
              current := some { invocation with written := invocation.written ++ [child] } }
          else none
  | .merge unlinked =>
      match state.current with
      | none => none
      | some invocation =>
          match invocation.workerJsons with
          | none => none
          -- all of them are removed on success, any part of them when the call fails or is killed
          | some workerJsons => some { state with
              directory := state.directory.keep fun file =>
                !(workerJsons.contains file && unlinked.contains file)
              current := none
              merges := state.merges ++ [⟨invocation.spawned,
                (state.directory.keep workerJsons.contains).files⟩] }
  | .kill =>
      match state.current with
      | none => none
      | some invocation => some { state with
          current := none
          orphans := state.orphans ++ invocation.unwritten }
  | .orphanWrite author =>
      if author ∈ state.orphans then
        some { state with
          directory := state.directory.write author.child.reportFile author
          orphans := state.orphans.erase author }
      else none

def machine : Machine Reports ReportEvent := ⟨step⟩

end Reports

/-! ## What one step does -/

/-- The steps of the directory and its invocations, with everything that enables them. -/
inductive ReportStep (state : Reports) : ReportEvent → Reports → Prop where
  | invoked (run : Run) (hidle : state.current = none) :
      ReportStep state (.invoke run) { state with
        count := state.count + 1
        current := some ⟨state.count, run, .initial, [], none⟩ }
  | ran (event : RunEvent) (invocation : Invocation) (next : RunState)
      (hcurrent : state.current = some invocation) (hrunning : invocation.workerJsons = none)
      (hstep : invocation.run.machine.step invocation.state event = some next)
      (hwritten : ReportsWritten invocation.written next) :
      ReportStep state (.run event) { state with current := state.resume invocation next }
  | wrote (child : Child) (invocation : Invocation) (hcurrent : state.current = some invocation)
      (hunwritten : ⟨invocation.id, child⟩ ∈ invocation.unwritten) :
      ReportStep state (.write child) { state with
        directory := state.directory.write child.reportFile ⟨invocation.id, child⟩
        current := some { invocation with written := invocation.written ++ [child] } }
  | merged (unlinked : List String) (invocation : Invocation) (workerJsons : List String)
      (hcurrent : state.current = some invocation)
      (hlisted : invocation.workerJsons = some workerJsons) :
      ReportStep state (.merge unlinked) { state with
        directory := state.directory.keep fun file =>
          !(workerJsons.contains file && unlinked.contains file)
        current := none
        merges := state.merges ++ [⟨invocation.spawned,
          (state.directory.keep workerJsons.contains).files⟩] }
  | killed (invocation : Invocation) (hcurrent : state.current = some invocation) :
      ReportStep state .kill { state with
        current := none
        orphans := state.orphans ++ invocation.unwritten }
  | orphanWrote (author : Author) (horphan : author ∈ state.orphans) :
      ReportStep state (.orphanWrite author) { state with
        directory := state.directory.write author.child.reportFile author
        orphans := state.orphans.erase author }

/-- Every step of the report directory's machine is one that `ReportStep` lists. -/
theorem Reports.step_cases {state next : Reports} {event : ReportEvent}
    (hstep : Reports.machine.step state event = some next) : ReportStep state event next := by
  change state.step event = some next at hstep
  cases event with
  | invoke run =>
      simp only [step] at hstep
      split at hstep
      next => cases hstep
      next hidle => exact Option.some.inj hstep ▸ .invoked run hidle
  | run event =>
      simp only [step] at hstep
      split at hstep
      next => cases hstep
      next invocation hcurrent =>
        split at hstep
        next after hrunning hrun =>
          split at hstep
          next hwritten =>
            exact Option.some.inj hstep ▸
              .ran event invocation after hcurrent hrunning hrun hwritten
          next => cases hstep
        next => cases hstep
  | write child =>
      simp only [step] at hstep
      split at hstep
      next => cases hstep
      next invocation hcurrent =>
        split at hstep
        next hunwritten => exact Option.some.inj hstep ▸ .wrote child invocation hcurrent hunwritten
        next => cases hstep
  | merge unlinked =>
      simp only [step] at hstep
      split at hstep
      next => cases hstep
      next invocation hcurrent =>
        split at hstep
        next => cases hstep
        next workerJsons hlisted =>
          exact Option.some.inj hstep ▸ .merged unlinked invocation workerJsons hcurrent hlisted
  | kill =>
      simp only [step] at hstep
      split at hstep
      next => cases hstep
      next invocation hcurrent => exact Option.some.inj hstep ▸ .killed invocation hcurrent
  | orphanWrite author =>
      simp only [step, Option.ite_none_right_eq_some, Option.some.injEq] at hstep
      obtain ⟨horphan, rfl⟩ := hstep
      exact .orphanWrote author horphan

end RaylsSuite.Runner
