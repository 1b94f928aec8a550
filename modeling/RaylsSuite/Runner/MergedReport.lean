import RaylsSuite.Runner.Bootstrap
import RaylsSuite.Runner.Reports

/-! # Whose reports are merged

The merged report is that of its own invocation exactly if no file of another
invocation waits in the directory, and the report suffix that the serial child
inherits does not take its file out of the glob's or of its siblings' way.
-/

namespace RaylsSuite.Runner

open Foundation

/-! ## Files of test children -/

/-- The glob finds the report of a tag exactly when the tag has no slash. -/
theorem isWorkerJson_tag (tag : String) :
    isWorkerJson ("worker-" ++ tag ++ ".json") = true ↔ '/' ∉ tag.toList := by
  have hstart : Text.startsWith ("worker-" ++ tag ++ ".json") "worker-" = true := by
    apply decide_eq_true
    rw [String.append_assoc, String.toList_append]
    exact List.prefix_append _ _
  have hend : Text.endsWith ("worker-" ++ tag ++ ".json") ".json" = true := by
    apply decide_eq_true
    rw [String.toList_append]
    exact List.suffix_append _ _
  simp [isWorkerJson, hstart, hend, String.toList_append]

theorem reportFile_eq {child : Child} (htag : child.REPORT_TAG ≠ "") :
    child.reportFile = "worker-" ++ child.REPORT_TAG ++ ".json" := by
  rw [Child.reportFile, Child.reportFilename, if_neg htag]

theorem reportFile_inj {first second : Child} (hfirst : first.REPORT_TAG ≠ "")
    (hsecond : second.REPORT_TAG ≠ "") :
    first.reportFile = second.reportFile ↔ first.REPORT_TAG = second.REPORT_TAG := by
  rw [reportFile_eq hfirst, reportFile_eq hsecond, String.append_left_inj,
    String.append_right_inj]

theorem Dispatch.child_REPORT_TAG (runner : BaseParallelRunner) (dispatch : Dispatch) :
    (dispatch.child runner).REPORT_TAG = dispatch.reportSuffix :=
  if_neg dispatch.reportSuffix_ne_empty

theorem Dispatch.slash_notMem (dispatch : Dispatch) : '/' ∉ dispatch.reportSuffix.toList := by
  have hdigits : ∀ n : Nat, '/' ∉ n.repr.toList := by
    intro n hslash
    have hdigit := Text.isDigit_of_mem_repr hslash
    simp [Char.isDigit] at hdigit
  change '/' ∉ (dispatch.slotId.repr ++ "-" ++ dispatch.runIndex.repr).toList
  rw [String.toList_append, String.toList_append, List.mem_append, List.mem_append]
  rintro ((hslot | hhyphen) | hrun)
  · exact hdigits _ hslot
  · exact absurd hhyphen (by decide)
  · exact hdigits _ hrun

theorem orElse_ne_empty (value : Option String) {fallback : String} (hfallback : fallback ≠ "") :
    Text.orElse value fallback ≠ "" := by
  unfold Text.orElse
  split
  next text =>
    split
    next => exact hfallback
    next htext => exact htext
  next => exact hfallback

theorem serialChild_REPORT_TAG (runner : BaseParallelRunner) (files : List String) :
    (runner.serialChild files).REPORT_TAG ≠ "" :=
  orElse_ne_empty runner.env.MOCHA_REPORT_SUFFIX (show "serial" ≠ "" by decide)

theorem Dispatch.child_ne_serial (runner : BaseParallelRunner) (dispatch : Dispatch) :
    (dispatch.child runner).MOCHA_WORKER_ID ≠ "serial" := by
  intro hserial
  have hparse := congrArg Text.parseInt hserial
  rw [show Text.parseInt "serial" = none by decide] at hparse
  cases (Text.parseInt_repr dispatch.slotId).symm.trans hparse

/-! ## The test children of one invocation -/

/-- The serial child's report has a name of its own that the glob finds: the report suffix
in the runner's environment, which the child inherits, is without a slash and not that of a
queued file. -/
def Invocation.SerialApart (invocation : Invocation) : Prop :=
  ∀ child ∈ invocation.state.tests, child.MOCHA_WORKER_ID = "serial" →
    '/' ∉ child.REPORT_TAG.toList ∧
      ∀ other ∈ invocation.state.tests, other.REPORT_TAG = child.REPORT_TAG → other = child

/-- The test children have files of their own, and the glob finds them. -/
structure TestFiles (children : List Child) : Prop where
  found : ∀ child ∈ children, isWorkerJson child.reportFile = true
  distinct : ∀ child ∈ children, ∀ other ∈ children, other.reportFile = child.reportFile →
    other = child

namespace Run.History

variable {run : Run} {state : RunState} {child other : Child}

theorem tag_ne_empty (hhistory : run.History state) (hchild : child ∈ state.tests) :
    child.REPORT_TAG ≠ "" := by
  rcases hhistory.mem_tests hchild with rfl | ⟨dispatch, rfl⟩
  · exact serialChild_REPORT_TAG _ _
  · exact dispatch.child_REPORT_TAG run.runner ▸ dispatch.reportSuffix_ne_empty

theorem slotTags_nodup (run : Run) {slots : List Dispatch}
    (hslots : (slots.map Dispatch.reportSuffix).Nodup) :
    ((slots.map (Dispatch.child run.runner)).map Child.REPORT_TAG).Nodup := by
  simpa only [List.map_map, Function.comp_def, Dispatch.child_REPORT_TAG] using hslots

/-- No two test children of a run are the same. -/
theorem tests_nodup (hhistory : run.History state) : state.tests.Nodup := by
  obtain ⟨serial, slots, htests, hserial, hslots⟩ := hhistory.tests
  have hchildren := List.Nodup.of_map Child.REPORT_TAG (slotTags_nodup run hslots)
  rw [htests]
  rcases hserial with rfl | rfl
  · exact hchildren
  · refine List.nodup_cons.mpr ⟨fun hmem => ?_, hchildren⟩
    obtain ⟨dispatch, -, heq⟩ := List.mem_map.mp hmem
    exact dispatch.child_ne_serial run.runner (heq ▸ rfl)

/-- Queued files never share a report tag. -/
theorem eq_of_tag (hhistory : run.History state) (hchild : child ∈ state.tests)
    (hother : other ∈ state.tests) (hserial : child.MOCHA_WORKER_ID ≠ "serial")
    (hserial' : other.MOCHA_WORKER_ID ≠ "serial") (htag : other.REPORT_TAG = child.REPORT_TAG) :
    other = child := by
  obtain ⟨serial, slots, htests, hcases, hslots⟩ := hhistory.tests
  have hqueued : ∀ queued ∈ state.tests, queued.MOCHA_WORKER_ID ≠ "serial" →
      queued ∈ slots.map (Dispatch.child run.runner) := by
    intro queued hmem hne
    rw [htests] at hmem
    refine (List.mem_append.mp hmem).resolve_left fun hfirst => ?_
    rcases hcases with rfl | rfl
    · cases hfirst
    · exact hne (List.mem_singleton.mp hfirst ▸ rfl)
  exact List.inj_on_of_nodup_map (slotTags_nodup run hslots) (hqueued other hother hserial')
    (hqueued child hchild hserial) htag

/-- Only the serial child can be without a file of its own. -/
theorem testFiles_iff {invocation : Invocation}
    (hhistory : invocation.run.History invocation.state) :
    TestFiles invocation.state.tests ↔ invocation.SerialApart := by
  constructor
  · intro hfiles child hchild _
    have htag := hhistory.tag_ne_empty hchild
    constructor
    · exact (isWorkerJson_tag _).mp (reportFile_eq htag ▸ hfiles.found child hchild)
    · intro other hother heq
      exact hfiles.distinct child hchild other hother
        ((reportFile_inj (hhistory.tag_ne_empty hother) htag).mpr heq)
  · intro hserial
    constructor
    · intro child hchild
      rw [reportFile_eq (hhistory.tag_ne_empty hchild)]
      refine (isWorkerJson_tag _).mpr ?_
      rcases hhistory.mem_tests hchild with rfl | ⟨dispatch, rfl⟩
      · exact (hserial _ hchild rfl).1
      · exact dispatch.child_REPORT_TAG _ ▸ dispatch.slash_notMem
    · intro child hchild other hother hfile
      have htag := (reportFile_inj (hhistory.tag_ne_empty hother)
        (hhistory.tag_ne_empty hchild)).mp hfile
      -- with the serial child on either side its own condition decides
      by_cases hone : child.MOCHA_WORKER_ID = "serial"
      · exact (hserial child hchild hone).2 other hother htag
      by_cases htwo : other.MOCHA_WORKER_ID = "serial"
      · exact ((hserial other hother htwo).2 child hchild htag.symm).symm
      exact hhistory.eq_of_tag hchild hother hone htwo htag

end Run.History

/-! ## The invariant of the directory -/

/-- What the directory holds of an invocation, and what the glob has found of it. -/
structure InvocationInv (directory : Directory String Author) (invocation : Invocation) :
    Prop where
  reachable : invocation.run.Reachable invocation.state
  written_tests : ∀ child ∈ invocation.written, child ∈ invocation.state.tests
  closed_written : ReportsWritten invocation.written invocation.state
  author_written : ∀ file ∈ directory.files, file.2.invocation = invocation.id →
    file.2.child ∈ invocation.written
  present : ∀ child ∈ invocation.written, child.reportFile ∈ directory.names
  listed : ∀ workerJsons, invocation.workerJsons = some workerJsons →
    invocation.state.processes.inFlight = [] ∧
      (∀ file ∈ workerJsons, isWorkerJson file = true) ∧
      ∀ child ∈ invocation.written, isWorkerJson child.reportFile = true →
        child.reportFile ∈ workerJsons

/-- Files are named by their authors, and invocations have numbers of their own. -/
structure ReportsInv (state : Reports) : Prop where
  named : ∀ file ∈ state.directory.files, file.1 = file.2.child.reportFile
  file_lt : ∀ file ∈ state.directory.files, file.2.invocation < state.count
  orphan_lt : ∀ author ∈ state.orphans, author.invocation < state.count
  current_lt : ∀ invocation, state.current = some invocation → invocation.id < state.count
  orphan_ne : ∀ invocation, state.current = some invocation →
    ∀ author ∈ state.orphans, author.invocation ≠ invocation.id
  current : ∀ invocation, state.current = some invocation →
    InvocationInv state.directory invocation

variable {state next : Reports} {event : ReportEvent} {directory : Directory String Author}
  {invocation : Invocation}

theorem mem_unwritten {author : Author} : author ∈ invocation.unwritten ↔
    author.invocation = invocation.id ∧ author.child ∈ invocation.state.processes.inFlight ∧
      author.child.isTest = true ∧ author.child ∉ invocation.written := by
  obtain ⟨id, child⟩ := author
  simp only [Invocation.unwritten, List.mem_map, List.mem_filter, Bool.and_eq_true,
    Bool.not_eq_true', Author.mk.injEq]
  constructor
  · rintro ⟨other, ⟨hflight, htest, hnew⟩, rfl, rfl⟩
    exact ⟨rfl, hflight, htest, by simpa using hnew⟩
  · rintro ⟨rfl, hflight, htest, hnew⟩
    exact ⟨child, ⟨hflight, htest, by simpa using hnew⟩, rfl, rfl⟩

/-- A call of `mergeReports` finds every child closed. -/
theorem callsMergeReports_idle {run : Run} {before : RunPhase} {after : RunState}
    (hinv : run.Inv after) (hcalls : before.callsMergeReports after.phase = true) :
    after.processes.inFlight = [] := by
  obtain ⟨phase, table⟩ := after
  cases phase with
  | passed =>
      rcases hinv with ⟨-, htable⟩ | ⟨job, queue, ⟨-, hreach, hcompleted, -⟩, htable⟩
      · obtain rfl : table = run.prelude := htable
        rfl
      · obtain rfl : table = run.prelude.append (queue.processes job) := htable
        exact Run.processes_idle hreach hcompleted
  | exited code => exact hinv
  | _ => cases before <;> cases hcalls

namespace InvocationInv

theorem start (id : Nat) (run : Run) (hfresh : ∀ file ∈ directory.files, file.2.invocation ≠ id) :
    InvocationInv directory ⟨id, run, .initial, [], none⟩ where
  reachable := Machine.Reaches.refl _ _
  written_tests child hmem := absurd hmem List.not_mem_nil
  closed_written entry hmem := absurd hmem List.not_mem_nil
  author_written file hfile hid := absurd hid (hfresh file hfile)
  present child hmem := absurd hmem List.not_mem_nil
  listed _ hlisted := by cases hlisted

theorem inFlight_spawned (hinv : InvocationInv directory invocation) {child : Child}
    (hflight : child ∈ invocation.state.processes.inFlight) (htest : child.isTest = true) :
    child ∈ invocation.state.tests := by
  have hspawned := hinv.reachable.history.accounted.mem_iff.mpr
    (List.mem_append_left _ hflight)
  exact List.mem_filter.mpr ⟨hspawned, htest⟩

/-- A child of the invocation writes its report. -/
theorem wrote (hinv : InvocationInv directory invocation) {child : Child}
    (hunwritten : ⟨invocation.id, child⟩ ∈ invocation.unwritten) :
    InvocationInv (directory.write child.reportFile ⟨invocation.id, child⟩)
      { invocation with written := invocation.written ++ [child] } := by
  obtain ⟨-, hflight, htest, -⟩ := mem_unwritten.mp hunwritten
  constructor
  case reachable => exact hinv.reachable
  case written_tests =>
    intro other hmem
    rcases List.mem_append.mp hmem with hold | hnew
    · exact hinv.written_tests other hold
    · obtain rfl := List.mem_singleton.mp hnew
      exact hinv.inFlight_spawned hflight htest
  case closed_written =>
    exact fun entry hmem hentry => List.mem_append_left _ (hinv.closed_written entry hmem hentry)
  case author_written =>
    intro file hfile hid
    rcases Directory.mem_write.mp hfile with rfl | ⟨hold, -⟩
    · exact List.mem_append_right _ List.mem_cons_self
    · exact List.mem_append_left _ (hinv.author_written file hold hid)
  case present =>
    intro other hmem
    rcases List.mem_append.mp hmem with hold | hnew
    · exact Directory.mem_names_write.mpr (Or.inr (hinv.present other hold))
    · exact Directory.mem_names_write.mpr (Or.inl (List.mem_singleton.mp hnew ▸ rfl))
  case listed =>
    intro workerJsons hlisted
    -- the glob runs when no child is in flight any more
    rw [(hinv.listed workerJsons hlisted).1] at hflight
    cases hflight

/-- A child of an earlier invocation writes its report. -/
theorem orphanWrote (hinv : InvocationInv directory invocation) {author : Author}
    (hother : author.invocation ≠ invocation.id) :
    InvocationInv (directory.write author.child.reportFile author) invocation where
  reachable := hinv.reachable
  written_tests := hinv.written_tests
  closed_written := hinv.closed_written
  author_written file hfile hid := by
    rcases Directory.mem_write.mp hfile with rfl | ⟨hold, -⟩
    · exact absurd hid hother
    · exact hinv.author_written file hold hid
  present child hmem := Directory.mem_names_write.mpr (Or.inr (hinv.present child hmem))
  listed := hinv.listed

/-- A step of the run itself, which may call `mergeReports`. -/
theorem resume {state : Reports} (hinv : InvocationInv state.directory invocation)
    (hrunning : invocation.workerJsons = none) {event : RunEvent} {after : RunState}
    (hstep : invocation.run.machine.step invocation.state event = some after)
    (hwritten : ReportsWritten invocation.written after) {resumed : Invocation}
    (hresumed : state.resume invocation after = some resumed) :
    resumed.id = invocation.id ∧ InvocationInv state.directory resumed := by
  have hreach := hinv.reachable.step event hstep
  have htests : ∀ child ∈ invocation.written, child ∈ after.tests := by
    intro child hmem
    obtain ⟨spawned, hspawned, -⟩ := Run.step_spawned hstep
    rw [RunState.tests, hspawned, List.filter_append]
    exact List.mem_append_left _ (hinv.written_tests child hmem)
  unfold Reports.resume at hresumed
  split at hresumed
  next hcalls =>
    obtain rfl := Option.some.inj hresumed
    refine ⟨rfl, hreach, htests, hwritten, hinv.author_written, hinv.present, ?_⟩
    rintro workerJsons hlisted
    obtain rfl := Option.some.inj hlisted
    refine ⟨callsMergeReports_idle (Run.Reachable.inv hreach) hcalls,
      fun file hfile => (List.mem_filter.mp hfile).2, fun child hmem hjson => ?_⟩
    exact List.mem_filter.mpr ⟨hinv.present child hmem, hjson⟩
  next =>
    split at hresumed
    next => cases hresumed
    next =>
      obtain rfl := Option.some.inj hresumed
      refine ⟨rfl, hreach, htests, hwritten, hinv.author_written, hinv.present, ?_⟩
      intro workerJsons hlisted
      rw [hrunning] at hlisted
      cases hlisted

end InvocationInv

theorem ReportsInv.initial : ReportsInv .initial where
  named file hmem := absurd hmem List.not_mem_nil
  file_lt file hmem := absurd hmem List.not_mem_nil
  orphan_lt author hmem := absurd hmem List.not_mem_nil
  current_lt _ hcurrent := by cases hcurrent
  orphan_ne _ hcurrent := by cases hcurrent
  current _ hcurrent := by cases hcurrent

/-- Every step of an invocation keeps the invariant of the report directory. -/
theorem ReportsInv.step (hinv : ReportsInv state)
    (hstep : Reports.machine.step state event = some next) : ReportsInv next := by
  cases Reports.step_cases hstep with
  | invoked run hidle =>
      have hfresh : ∀ file ∈ state.directory.files, file.2.invocation ≠ state.count :=
        fun file hfile => (hinv.file_lt file hfile).ne
      exact {
        named := hinv.named
        file_lt := fun file hfile => (hinv.file_lt file hfile).trans (Nat.lt_succ_self _)
        orphan_lt := fun author hmem => (hinv.orphan_lt author hmem).trans (Nat.lt_succ_self _)
        current_lt := by
          rintro _ ⟨⟩
          exact Nat.lt_succ_self _
        orphan_ne := by
          rintro _ ⟨⟩ author hmem
          exact (hinv.orphan_lt author hmem).ne
        current := by
          rintro _ ⟨⟩
          exact InvocationInv.start state.count run hfresh }
  | ran event invocation after hcurrent hrunning hrun hwritten =>
      have hresume := fun (resumed : Invocation)
        (hresumed : state.resume invocation after = some resumed) =>
          (hinv.current invocation hcurrent).resume hrunning hrun hwritten hresumed
      exact {
        named := hinv.named
        file_lt := hinv.file_lt
        orphan_lt := hinv.orphan_lt
        current_lt := fun resumed hresumed =>
          (hresume resumed hresumed).1 ▸ hinv.current_lt invocation hcurrent
        orphan_ne := fun resumed hresumed =>
          (hresume resumed hresumed).1 ▸ hinv.orphan_ne invocation hcurrent
        current := fun resumed hresumed => (hresume resumed hresumed).2 }
  | wrote child invocation hcurrent hunwritten =>
      have hlt := hinv.current_lt invocation hcurrent
      exact {
        named := Directory.forall_mem_write hinv.named rfl
        file_lt := Directory.forall_mem_write hinv.file_lt hlt
        orphan_lt := hinv.orphan_lt
        current_lt := by
          rintro _ ⟨⟩
          exact hlt
        orphan_ne := by
          rintro _ ⟨⟩
          exact hinv.orphan_ne invocation hcurrent
        current := by
          rintro _ ⟨⟩
          exact (hinv.current invocation hcurrent).wrote hunwritten }
  | merged unlinked invocation workerJsons hcurrent hlisted =>
      exact {
        named := fun file hfile =>
          hinv.named file ((Directory.mem_keep _).mp hfile).1
        file_lt := fun file hfile =>
          hinv.file_lt file ((Directory.mem_keep _).mp hfile).1
        orphan_lt := hinv.orphan_lt
        current_lt := by rintro _ ⟨⟩
        orphan_ne := by rintro _ ⟨⟩
        current := by rintro _ ⟨⟩ }
  | killed invocation hcurrent =>
      exact {
        named := hinv.named
        file_lt := hinv.file_lt
        orphan_lt := by
          intro author hmem
          rcases List.mem_append.mp hmem with hold | hnew
          · exact hinv.orphan_lt author hold
          · exact (mem_unwritten.mp hnew).1 ▸ hinv.current_lt invocation hcurrent
        current_lt := by rintro _ ⟨⟩
        orphan_ne := by rintro _ ⟨⟩
        current := by rintro _ ⟨⟩ }
  | orphanWrote author horphan =>
      exact {
        named := Directory.forall_mem_write hinv.named rfl
        file_lt := Directory.forall_mem_write hinv.file_lt (hinv.orphan_lt author horphan)
        orphan_lt := fun other hmem => hinv.orphan_lt other (List.mem_of_mem_erase hmem)
        current_lt := hinv.current_lt
        orphan_ne := fun invocation hcurrent other hmem =>
          hinv.orphan_ne invocation hcurrent other (List.mem_of_mem_erase hmem)
        current := fun invocation hcurrent => (hinv.current invocation hcurrent).orphanWrote
          (hinv.orphan_ne invocation hcurrent author horphan) }

/-! ## The law of the merged report -/

/-- The files that the glob has found were all last written by children of the invocation
that merges them, and its serial child has a file of its own. Other events are free. -/
def Reports.MergesOwn (state : Reports) : ReportEvent → Prop
  | .merge _ => ∀ invocation workerJsons, state.current = some invocation →
      invocation.workerJsons = some workerJsons →
      (∀ file ∈ state.directory.files, file.1 ∈ workerJsons →
        file.2.invocation = invocation.id) ∧ invocation.SerialApart
  | _ => True

/-- Every call of `mergeReports` so far has merged the reports of its own invocation. -/
def Reports.AllFaithful (state : Reports) : Prop := ∀ merge ∈ state.merges, merge.Faithful

instance (state : Reports) : Decidable state.AllFaithful :=
  inferInstanceAs (Decidable (∀ merge ∈ state.merges, merge.Faithful))

theorem mem_merged {workerJsons : List String} {file : String × Author} :
    file ∈ (directory.keep workerJsons.contains).files ↔
      file ∈ directory.files ∧ file.1 ∈ workerJsons := by
  rw [Directory.mem_keep, List.contains_iff_mem]

theorem mem_spawned {author : Author} : author ∈ invocation.spawned ↔
    author.invocation = invocation.id ∧ author.child ∈ invocation.state.tests := by
  obtain ⟨id, child⟩ := author
  simp only [Invocation.spawned, List.mem_map, Author.mk.injEq]
  constructor
  · rintro ⟨other, hmem, rfl, rfl⟩
    exact ⟨rfl, hmem⟩
  · rintro ⟨rfl, hmem⟩
    exact ⟨child, hmem, rfl, rfl⟩

/-- The files that are merged have different authors, as they have different names. -/
theorem ReportsInv.merged_nodup (hinv : ReportsInv state) (workerJsons : List String) :
    ((state.directory.keep workerJsons.contains).files.map Prod.snd).Nodup := by
  apply List.Nodup.of_map fun author : Author => author.child.reportFile
  have hnames : ((state.directory.keep workerJsons.contains).files.map Prod.snd).map
      (fun author : Author => author.child.reportFile) =
        (state.directory.keep workerJsons.contains).files.map Prod.fst := by
    rw [List.map_map]
    exact List.map_congr_left fun file hfile => (hinv.named file (mem_merged.mp hfile).1).symm
  exact hnames ▸ (state.directory.keep workerJsons.contains).names_nodup

theorem InvocationInv.spawned_nodup (hinv : InvocationInv directory invocation) :
    invocation.spawned.Nodup :=
  hinv.reachable.history.tests_nodup.map fun _ _ heq => (Author.mk.inj heq).2

/-- When `mergeReports` runs, every test child has written its report. -/
theorem InvocationInv.tests_written (hinv : InvocationInv directory invocation)
    (hidle : invocation.state.processes.inFlight = []) {child : Child}
    (hchild : child ∈ invocation.state.tests) : child ∈ invocation.written := by
  obtain ⟨hspawned, htest⟩ := List.mem_filter.mp hchild
  rcases hinv.reachable.history.accounted.mem_or hspawned with hflight | hclosed
  · rw [hidle] at hflight
    cases hflight
  · obtain ⟨entry, hentry, rfl⟩ := List.mem_map.mp hclosed
    exact hinv.closed_written entry hentry htest

/-- A merge is faithful exactly when the files that it lists are all of this invocation and each
serial child has a report of its own that the glob finds. -/
theorem merge_faithful_iff (hinv : ReportsInv state) {workerJsons : List String}
    (hcurrent : state.current = some invocation)
    (hlisted : invocation.workerJsons = some workerJsons) :
    Merge.Faithful ⟨invocation.spawned, (state.directory.keep workerJsons.contains).files⟩ ↔
      (∀ file ∈ state.directory.files, file.1 ∈ workerJsons →
        file.2.invocation = invocation.id) ∧ invocation.SerialApart := by
  have hown := hinv.current invocation hcurrent
  obtain ⟨hidle, hjson, hfound⟩ := hown.listed workerJsons hlisted
  rw [← hown.reachable.history.testFiles_iff, Merge.Faithful,
    List.perm_ext_iff_of_nodup (hinv.merged_nodup workerJsons) hown.spawned_nodup]
  constructor
  · intro hsame
    have hauthor : ∀ file ∈ state.directory.files, file.1 ∈ workerJsons →
        file.2 ∈ invocation.spawned := fun file hfile hname =>
      (hsame file.2).mp (List.mem_map_of_mem (mem_merged.mpr ⟨hfile, hname⟩))
    have hmerged : ∀ child ∈ invocation.state.tests,
        (child.reportFile, ⟨invocation.id, child⟩) ∈ state.directory.files ∧
          child.reportFile ∈ workerJsons := by
      intro child hchild
      have hspawned : ⟨invocation.id, child⟩ ∈ invocation.spawned := mem_spawned.mpr ⟨rfl, hchild⟩
      obtain ⟨⟨name, author⟩, hfile, rfl⟩ := List.mem_map.mp ((hsame _).mpr hspawned)
      obtain ⟨hdirectory, hname⟩ := mem_merged.mp hfile
      obtain rfl : name = child.reportFile := hinv.named _ hdirectory
      exact ⟨hdirectory, hname⟩
    refine ⟨fun file hfile hname => (mem_spawned.mp (hauthor file hfile hname)).1, ?_, ?_⟩
    · exact fun child hchild => hjson _ (hmerged child hchild).2
    · intro child hchild other hother heq
      have hfile := Directory.eq_of_name_eq (hmerged other hother).1 (hmerged child hchild).1 heq
      exact (Author.mk.inj (Prod.mk.inj hfile).2).2
  · rintro ⟨hstrangers, hfiles⟩ author
    rw [mem_spawned, List.mem_map]
    constructor
    · rintro ⟨file, hfile, rfl⟩
      obtain ⟨hdirectory, hname⟩ := mem_merged.mp hfile
      have hid := hstrangers file hdirectory hname
      exact ⟨hid, hown.written_tests _ (hown.author_written file hdirectory hid)⟩
    · rintro ⟨hid, hchild⟩
      have hwritten := hown.tests_written hidle hchild
      have hname := hfound _ hwritten (hfiles.found _ hchild)
      obtain ⟨file, hfile, heq⟩ := List.mem_map.mp (hown.present _ hwritten)
      rw [← heq] at hname
      -- the file of that name was last written by this very child
      have hfileId := hstrangers file hfile hname
      have hauthor := hown.written_tests _ (hown.author_written file hfile hfileId)
      have hsame : file.2.child = author.child := hfiles.distinct _ hchild _ hauthor
        ((hinv.named file hfile).symm.trans heq)
      refine ⟨file, mem_merged.mpr ⟨hfile, hname⟩, ?_⟩
      obtain ⟨name, id, child⟩ := file
      obtain rfl : child = author.child := hsame
      exact congrArg (Author.mk · author.child) (hfileId.trans hid.symm)

/-- After a step all merges are faithful exactly when they were before it and the step, should it
merge, merges its own reports. -/
theorem Reports.allFaithful_step (hinv : ReportsInv state)
    (hstep : Reports.machine.step state event = some next) :
    next.AllFaithful ↔ state.MergesOwn event ∧ state.AllFaithful := by
  cases Reports.step_cases hstep with
  | merged unlinked invocation workerJsons hcurrent hlisted =>
      have hmerge := merge_faithful_iff hinv hcurrent hlisted
      have hallowed : state.MergesOwn (.merge unlinked) ↔
          (∀ file ∈ state.directory.files, file.1 ∈ workerJsons →
            file.2.invocation = invocation.id) ∧ invocation.SerialApart := by
        constructor
        · exact fun hown => hown invocation workerJsons hcurrent hlisted
        · intro hown other names hother hnames
          obtain rfl := Option.some.inj (hcurrent.symm.trans hother)
          obtain rfl := Option.some.inj (hlisted.symm.trans hnames)
          exact hown
      rw [hallowed, ← hmerge, and_comm]
      simp only [AllFaithful, List.forall_mem_append, List.forall_mem_singleton]
  | _ => exact (and_iff_right trivial).symm

/-- Over every sequence of invocations, each merged report is that of its own invocation
exactly if every merge finds only files that are. -/
theorem mergeReports_allFaithful_iff (schedule : List ReportEvent) (final : Reports)
    (hrun : Reports.machine.run .initial schedule = some final) :
    final.AllFaithful ↔ Reports.machine.Guarded Reports.MergesOwn .initial schedule := by
  have hiff := Machine.final_iff_guarded (fun _ _ _ => ReportsInv.step)
    (fun _ _ _ => Reports.allFaithful_step) ReportsInv.initial hrun
  have hstart : Reports.initial.AllFaithful := fun _ hmem => absurd hmem List.not_mem_nil
  exact hiff.trans (and_iff_right hstart)

/-- A serial phase that passes, without parallel files. -/
theorem mergeReports_allFaithful_iff_serialOnly :
    ∃ final, Reports.machine.run .initial [
        .invoke ⟨.new ⟨some "1", none, none, none⟩ [], fun _ => none,
          E2eParallelRunner.partitionFiles (fun _ => "@serial") ["test/a.ts"]⟩,
        .run .start,
        .write ⟨.test ["test/a.ts"] [], "serial", "1", none⟩,
        .run (.close (some 0)), .run .recovered, .merge ["worker-serial.json"]] = some final ∧
      final.AllFaithful ∧
      Reports.machine.Guarded Reports.MergesOwn .initial [
        .invoke ⟨.new ⟨some "1", none, none, none⟩ [], fun _ => none,
          E2eParallelRunner.partitionFiles (fun _ => "@serial") ["test/a.ts"]⟩,
        .run .start,
        .write ⟨.test ["test/a.ts"] [], "serial", "1", none⟩,
        .run (.close (some 0)), .run .recovered, .merge ["worker-serial.json"]] :=
  ⟨_, rfl, by decide, (mergeReports_allFaithful_iff _ _ rfl).mp (by decide)⟩

/-! ## A report that is left behind -/

/-- The queue starts once the relayers have recovered. -/
theorem Reports.step_recovered {job : QueueJob} (hcurrent : state.current = some invocation)
    (hrunning : invocation.workerJsons = none) (hphase : invocation.state.phase = .recovering)
    (hcall : invocation.run.runner.runParallelWithQueue invocation.run.hints
      invocation.run.partition.parallel = .started job)
    (hwritten : ReportsWritten invocation.written
      ⟨.parallel job job.initial, invocation.state.table⟩) :
    Reports.machine.step state (.run .recovered) = some { state with
      current := some { invocation with
        state := ⟨.parallel job job.initial, invocation.state.table⟩ } } := by
  have hstep : invocation.run.machine.step invocation.state .recovered =
      some ⟨.parallel job job.initial, invocation.state.table⟩ := by
    simp only [Run.machine, Run.step, hphase, hcall]
  simp only [machine, step, hcurrent, hrunning, hstep, if_pos hwritten, resume, hphase,
    RunPhase.callsMergeReports, RunPhase.leaves, Bool.false_eq_true, if_false]

/-- The first invocation is killed in its serial phase after the child has written its
report; the second one, of a single parallel file, merges that report with its own. -/
theorem not_allFaithful_killedInvocation :
    ∃ final, Reports.machine.run .initial ([
        .invoke ⟨.new ⟨some "1", none, none, none⟩ [], fun _ => none,
          E2eParallelRunner.partitionFiles (fun _ => "@serial") ["test/a.ts"]⟩,
        .run .start,
        .write ⟨.test ["test/a.ts"] [], "serial", "1", none⟩,
        .kill,
        .invoke ⟨.new ⟨some "1", none, none, none⟩ [], fun _ => none,
          BaseParallelRunner.partitionFiles ["test/b.ts"]⟩,
        .run .start] ++ [
        .run .recovered, .run (.slot (.dequeue 0)),
        .write ⟨.test ["test/b.ts"] [], "0", "1", some "0-0"⟩,
        .run (.slot (.close 0 (some 0))), .run (.slot (.dequeue 0)), .run .slotsDone,
        .merge ["worker-serial.json", "worker-0-0.json"]]) = some final ∧
      ¬final.AllFaithful := by
  refine ⟨_, (Machine.run_append _ _ _ _).trans (Option.bind_eq_some_iff.mpr ⟨_, rfl,
    (Machine.run_cons_eq_some _).mpr ⟨_, Reports.step_recovered rfl rfl rfl
      (runParallelWithQueue_of_unknown _ (by decide) (by decide : _ = some 1)) (by decide),
      rfl⟩⟩), by decide⟩

end RaylsSuite.Runner
