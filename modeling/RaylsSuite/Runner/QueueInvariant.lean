import Mathlib.Data.List.Nodup
import Mathlib.Data.List.Range
import RaylsSuite.Runner.Queue

/-! # Invariants of the dynamic parallel queue

Three invariants hold under every interleaving of the slots: the cursor has
handed out a prefix of the queue, each slot has at most one child and counts
its runs, and the recorded failures are the children that failed.
-/

namespace RaylsSuite.Runner

open Foundation

/-! ## Slot updates -/

namespace QueueState

variable (state : QueueState) (slotId : Nat) (phase : SlotPhase)

@[simp] theorem setPhase_queuePos : (state.setPhase slotId phase).queuePos = state.queuePos := rfl
@[simp] theorem setPhase_failures : (state.setPhase slotId phase).failures = state.failures := rfl
@[simp] theorem setPhase_bailFlag : (state.setPhase slotId phase).bailFlag = state.bailFlag := rfl
@[simp] theorem setPhase_table : (state.setPhase slotId phase).table = state.table := rfl
@[simp] theorem advance_queuePos : (state.advance slotId phase).queuePos = state.queuePos := rfl
@[simp] theorem advance_failures : (state.advance slotId phase).failures = state.failures := rfl
@[simp] theorem advance_bailFlag : (state.advance slotId phase).bailFlag = state.bailFlag := rfl
@[simp] theorem advance_table : (state.advance slotId phase).table = state.table := rfl

theorem setPhase_slot : (state.setPhase slotId phase).slot =
    Function.update state.slot slotId ⟨phase, (state.slot slotId).runIndex⟩ := rfl

theorem advance_slot : (state.advance slotId phase).slot =
    Function.update state.slot slotId ⟨phase, (state.slot slotId).runIndex + 1⟩ := rfl

theorem setPhase_phase (other : Nat) : ((state.setPhase slotId phase).slot other).phase =
    if other = slotId then phase else (state.slot other).phase := by
  rw [setPhase_slot, Function.update_apply]
  split <;> rfl

theorem advance_phase (other : Nat) : ((state.advance slotId phase).slot other).phase =
    if other = slotId then phase else (state.slot other).phase := by
  rw [advance_slot, Function.update_apply]
  split <;> rfl

end QueueState

variable {job : QueueJob} {state next : QueueState} {event : SlotEvent}

/-! ## The cursor -/

/-- The files handed out are the queue up to the cursor, in order. -/
structure CursorInv (job : QueueJob) (state : QueueState) : Prop where
  indices : state.table.spawned.map Dispatch.fileIndex =
    List.range (min state.queuePos job.queue.length)
  file_eq : ∀ dispatch ∈ state.table.spawned, job.queue[dispatch.fileIndex]? = some dispatch.file

theorem CursorInv.initial (job : QueueJob) : CursorInv job job.initial :=
  ⟨by simp [QueueJob.initial, Processes.empty], by simp [QueueJob.initial, Processes.empty]⟩

/-- The cursor's invariant survives every step of a slot. -/
theorem CursorInv.step (hinv : CursorInv job state) (hstep : SlotStep job state event next) :
    CursorInv job next := by
  cases hstep with
  | woke => exact ⟨hinv.indices, hinv.file_eq⟩
  | bailed => exact ⟨hinv.indices, hinv.file_eq⟩
  | drained slotId hslot hphase hbail hend =>
      -- the cursor passes the end without a file, so the minimum stays where it was
      refine ⟨?_, hinv.file_eq⟩
      have hindices := hinv.indices
      rw [Nat.min_eq_right hend] at hindices
      exact hindices.trans (congrArg List.range (Nat.min_eq_right (Nat.le_succ_of_le hend)).symm)
  | dispatched slotId file hslot hphase hbail hfile =>
      have hlt : state.queuePos < job.queue.length := (List.getElem?_eq_some_iff.mp hfile).1
      constructor
      · have hindices := hinv.indices
        rw [Nat.min_eq_left hlt.le] at hindices
        simp only [QueueState.setPhase_table, QueueState.setPhase_queuePos, Processes.spawn,
          List.map_append, hindices, List.map_cons, List.map_nil, QueueState.dispatch,
          Nat.min_eq_left (Nat.succ_le_of_lt hlt), Nat.succ_eq_add_one, List.range_succ]
      · intro dispatch hmem
        rcases List.mem_append.mp hmem with hold | hnew
        · exact hinv.file_eq dispatch hold
        · rw [List.mem_singleton.mp hnew]
          exact hfile
  | succeeded => exact ⟨hinv.indices, hinv.file_eq⟩
  | failed => exact ⟨hinv.indices, hinv.file_eq⟩
  | failedBailing => exact ⟨hinv.indices, hinv.file_eq⟩

/-- The cursor counts the dispatched files until it passes the end. -/
theorem CursorInv.spawned_length (hinv : CursorInv job state) :
    state.table.spawned.length = min state.queuePos job.queue.length := by
  simpa using congrArg List.length hinv.indices

/-- The dispatched files are a prefix of the queue. -/
theorem CursorInv.files_eq_take (hinv : CursorInv job state) :
    state.table.spawned.map Dispatch.file = job.queue.take state.queuePos := by
  have hlength := hinv.spawned_length
  apply List.ext_getElem?
  intro index
  by_cases hindex : index < state.table.spawned.length
  · -- the index that a dispatch has recorded is its position in the table
    have hat : (state.table.spawned[index]).fileIndex = index := by
      have := congrArg (fun list => list[index]?) hinv.indices
      simpa [hindex, hlength ▸ hindex] using this
    have hfile := hinv.file_eq _ (List.getElem_mem hindex)
    rw [hat] at hfile
    rw [List.getElem?_map, List.getElem?_eq_getElem hindex, Option.map_some,
      List.getElem?_take_of_lt (by omega), hfile]
  · rw [List.getElem?_eq_none (by simpa using hindex),
      List.getElem?_eq_none (by rw [List.length_take]; omega)]

theorem CursorInv.files_eq_queue (hinv : CursorInv job state)
    (hend : job.queue.length ≤ state.queuePos) :
    state.table.spawned.map Dispatch.file = job.queue := by
  rw [hinv.files_eq_take, List.take_of_length_le hend]

/-! ## The slots -/

/-- No child is awaited. -/
def SlotPhase.Idle (phase : SlotPhase) : Prop := ∀ dispatch, phase ≠ .awaiting dispatch

/-- How many children the slot has spawned. -/
def Slot.started (slot : Slot) : Nat :=
  match slot.phase with
  | .awaiting _ => slot.runIndex + 1
  | _ => slot.runIndex

theorem Slot.started_of_idle {phase : SlotPhase} (hidle : phase.Idle) (runIndex : Nat) :
    (Slot.mk phase runIndex).started = runIndex := by
  cases phase with
  | awaiting dispatch => exact absurd rfl (hidle dispatch)
  | _ => rfl

theorem SlotPhase.idle_of_eq {phase target : SlotPhase} (heq : phase = target)
    (hidle : target.Idle) : phase.Idle := heq ▸ hidle

theorem SlotPhase.looping_idle : SlotPhase.looping.Idle := fun _ h => by cases h
theorem SlotPhase.staggering_idle : SlotPhase.staggering.Idle := fun _ h => by cases h
theorem SlotPhase.done_idle : SlotPhase.done.Idle := fun _ h => by cases h

/-- A slot awaits the one child of it that is in flight, and the run indices of
its children are those it has counted. -/
structure SlotInv (slotCount : Nat) (slot : Nat → Slot) (table : Processes Dispatch) : Prop where
  accounted : table.Accounted
  slot_lt : ∀ dispatch ∈ table.spawned, dispatch.slotId < slotCount
  run_lt : ∀ dispatch ∈ table.spawned, dispatch.runIndex < (slot dispatch.slotId).started
  suffixes : (table.spawned.map fun dispatch => (dispatch.slotId, dispatch.runIndex)).Nodup
  inFlight_iff : ∀ dispatch, dispatch ∈ table.inFlight ↔
    dispatch.slotId < slotCount ∧ (slot dispatch.slotId).phase = .awaiting dispatch
  inFlight_nodup : table.inFlight.Nodup
  awaited : ∀ slotId < slotCount, ∀ dispatch, (slot slotId).phase = .awaiting dispatch →
    dispatch.slotId = slotId

namespace SlotInv

variable {slotCount slotId : Nat} {slot : Nat → Slot} {table : Processes Dispatch}
  {phase : SlotPhase}

theorem initial (job : QueueJob) :
    SlotInv job.slotCount job.initial.slot job.initial.table where
  accounted := Processes.empty_accounted
  slot_lt _ hmem := by cases hmem
  run_lt _ hmem := by cases hmem
  suffixes := List.nodup_nil
  inFlight_iff dispatch := by
    simp only [QueueJob.initial, Processes.empty, List.not_mem_nil, false_iff, not_and]
    intro _ hphase
    split at hphase <;> cases hphase
  inFlight_nodup := List.nodup_nil
  awaited slotId _ dispatch hphase := by
    simp only [QueueJob.initial] at hphase
    split at hphase <;> cases hphase

/-- A slot moves between two phases without a child. -/
theorem rest (hinv : SlotInv slotCount slot table) (hidle : (slot slotId).phase.Idle)
    (hphase : phase.Idle) :
    SlotInv slotCount (Function.update slot slotId ⟨phase, (slot slotId).runIndex⟩) table := by
  have hstarted : ∀ other, (Function.update slot slotId ⟨phase, (slot slotId).runIndex⟩ other).started
      = (slot other).started := by
    intro other
    by_cases heq : other = slotId
    · subst heq
      rw [Function.update_self, Slot.started_of_idle hphase]
      exact (Slot.started_of_idle hidle _).symm
    · rw [Function.update_of_ne heq]
  have hawaiting : ∀ other dispatch,
      (Function.update slot slotId ⟨phase, (slot slotId).runIndex⟩ other).phase =
        .awaiting dispatch ↔ (slot other).phase = .awaiting dispatch := by
    intro other dispatch
    by_cases heq : other = slotId
    · subst heq
      rw [Function.update_self]
      exact iff_of_false (hphase dispatch) (hidle dispatch)
    · rw [Function.update_of_ne heq]
  exact {
    accounted := hinv.accounted
    slot_lt := hinv.slot_lt
    run_lt := fun dispatch hmem => (hstarted _).symm ▸ hinv.run_lt dispatch hmem
    suffixes := hinv.suffixes
    inFlight_iff := fun dispatch => by rw [hawaiting]; exact hinv.inFlight_iff dispatch
    inFlight_nodup := hinv.inFlight_nodup
    awaited := fun other hlt dispatch h => hinv.awaited other hlt dispatch ((hawaiting _ _).mp h) }

/-- An idle slot spawns its next child. -/
theorem spawn (hinv : SlotInv slotCount slot table) (hslot : slotId < slotCount)
    (hidle : (slot slotId).phase.Idle) (dispatch : Dispatch) (hid : dispatch.slotId = slotId)
    (hrun : dispatch.runIndex = (slot slotId).runIndex) :
    SlotInv slotCount (Function.update slot slotId ⟨.awaiting dispatch, (slot slotId).runIndex⟩)
      (table.spawn dispatch) := by
  have hcounted : (slot slotId).started = dispatch.runIndex :=
    hrun ▸ Slot.started_of_idle hidle _
  have hnotInFlight : dispatch ∉ table.inFlight := by
    intro hmem
    have hphase := ((hinv.inFlight_iff dispatch).mp hmem).2
    exact hidle dispatch (hid ▸ hphase)
  constructor
  case accounted => exact hinv.accounted.spawn dispatch
  case slot_lt =>
    intro other hmem
    rcases List.mem_append.mp hmem with hold | hnew
    · exact hinv.slot_lt other hold
    · rw [List.mem_singleton.mp hnew, hid]
      exact hslot
  case run_lt =>
    intro other hmem
    rcases List.mem_append.mp hmem with hold | hnew
    · have hlt := hinv.run_lt other hold
      by_cases heq : other.slotId = slotId
      · rw [heq, hcounted, hrun] at hlt
        rw [heq, Function.update_self]
        exact Nat.lt_succ_of_lt hlt
      · rwa [Function.update_of_ne heq]
    · rw [List.mem_singleton.mp hnew, hid, Function.update_self, hrun]
      exact Nat.lt_succ_self _
  case suffixes =>
    -- every run index of the slot lies below the one it has now
    have hfresh : (dispatch.slotId, dispatch.runIndex) ∉
        table.spawned.map fun other => (other.slotId, other.runIndex) := by
      intro hmem
      obtain ⟨other, hother, heq⟩ := List.mem_map.mp hmem
      obtain ⟨hsame, hindex⟩ := Prod.mk.inj heq
      have hlt := hinv.run_lt other hother
      rw [hsame, hid, hcounted, hindex] at hlt
      exact Nat.lt_irrefl _ hlt
    simp only [Processes.spawn, List.map_append, List.map_cons, List.map_nil]
    exact List.concat_eq_append ▸ hinv.suffixes.concat hfresh
  case inFlight_iff =>
    intro other
    simp only [Processes.spawn, List.mem_append, List.mem_singleton]
    by_cases heq : other.slotId = slotId
    · have hother : other ∉ table.inFlight := fun hmem =>
        hidle other (heq ▸ ((hinv.inFlight_iff other).mp hmem).2)
      rw [heq, Function.update_self, SlotPhase.awaiting.injEq]
      constructor
      · intro hmem
        cases hmem with
        | inl hold => exact absurd hold hother
        | inr hnew => exact ⟨hslot, hnew.symm⟩
      · intro hheld
        exact Or.inr hheld.2.symm
    · rw [Function.update_of_ne heq, ← hinv.inFlight_iff other]
      apply or_iff_left
      intro hnew
      exact heq (hnew ▸ hid)
  case inFlight_nodup =>
    have hnodup := hinv.inFlight_nodup.concat hnotInFlight
    rwa [List.concat_eq_append] at hnodup
  case awaited =>
    intro other hlt held hphase
    by_cases heq : other = slotId
    · subst heq
      rw [Function.update_self] at hphase
      cases hphase
      exact hid
    · rw [Function.update_of_ne heq] at hphase
      exact hinv.awaited other hlt held hphase

/-- A slot's child closes. -/
theorem close (hinv : SlotInv slotCount slot table) (hslot : slotId < slotCount)
    {dispatch : Dispatch} (hawaiting : (slot slotId).phase = .awaiting dispatch)
    (hphase : phase.Idle) (code : ExitCode) :
    SlotInv slotCount (Function.update slot slotId ⟨phase, (slot slotId).runIndex + 1⟩)
      (table.close dispatch code) := by
  have hid : dispatch.slotId = slotId := hinv.awaited slotId hslot dispatch hawaiting
  have hmem : dispatch ∈ table.inFlight :=
    (hinv.inFlight_iff dispatch).mpr (hid.symm ▸ ⟨hslot, hawaiting⟩)
  -- the closed child is still counted: it moves from the phase into the run index
  have hstarted : ∀ other,
      (Function.update slot slotId ⟨phase, (slot slotId).runIndex + 1⟩ other).started =
        (slot other).started := by
    intro other
    by_cases heq : other = slotId
    · subst heq
      rw [Function.update_self, Slot.started_of_idle hphase]
      simp only [Slot.started, hawaiting]
    · rw [Function.update_of_ne heq]
  constructor
  case accounted => exact hinv.accounted.close hmem code
  case slot_lt => exact hinv.slot_lt
  case run_lt =>
    intro other hother
    rw [hstarted]
    exact hinv.run_lt other hother
  case suffixes => exact hinv.suffixes
  case inFlight_iff =>
    intro other
    rw [Processes.close, hinv.inFlight_nodup.mem_erase_iff, hinv.inFlight_iff other]
    by_cases heq : other.slotId = slotId
    · rw [heq, Function.update_self, hawaiting, SlotPhase.awaiting.injEq]
      constructor
      · intro hheld
        obtain ⟨hne, _, hsame⟩ := hheld
        exact absurd hsame.symm hne
      · intro hheld
        exact absurd hheld.2 (hphase other)
    · rw [Function.update_of_ne heq]
      apply and_iff_right
      intro hclosed
      exact heq (hclosed ▸ hid)
  case inFlight_nodup => exact hinv.inFlight_nodup.erase dispatch
  case awaited =>
    intro other hlt held hheld
    by_cases heq : other = slotId
    · subst heq
      rw [Function.update_self] at hheld
      exact absurd hheld (hphase held)
    · rw [Function.update_of_ne heq] at hheld
      exact hinv.awaited other hlt held hheld

theorem step (hinv : SlotInv job.slotCount state.slot state.table)
    (hstep : SlotStep job state event next) : SlotInv job.slotCount next.slot next.table := by
  cases hstep with
  | woke slotId hslot hphase =>
      exact hinv.rest (SlotPhase.idle_of_eq hphase SlotPhase.staggering_idle)
        SlotPhase.looping_idle
  | bailed slotId hslot hphase =>
      exact hinv.rest (SlotPhase.idle_of_eq hphase SlotPhase.looping_idle) SlotPhase.done_idle
  | drained slotId hslot hphase =>
      exact hinv.rest (SlotPhase.idle_of_eq hphase SlotPhase.looping_idle) SlotPhase.done_idle
  | dispatched slotId file hslot hphase =>
      exact hinv.spawn hslot (SlotPhase.idle_of_eq hphase SlotPhase.looping_idle) _ rfl rfl
  | succeeded slotId dispatch hslot hphase =>
      exact hinv.close hslot hphase SlotPhase.looping_idle (some 0)
  | failed slotId dispatch code hslot hphase =>
      exact hinv.close hslot hphase SlotPhase.looping_idle code
  | failedBailing slotId dispatch code hslot hphase =>
      exact hinv.close hslot hphase SlotPhase.done_idle code

/-- Each slot has at most one child in flight. -/
theorem inFlight_slots_nodup (hinv : SlotInv slotCount slot table) :
    (table.inFlight.map Dispatch.slotId).Nodup := by
  apply List.Nodup.map_on _ hinv.inFlight_nodup
  intro first hfirst second hsecond heq
  have hone := ((hinv.inFlight_iff first).mp hfirst).2
  have htwo := ((hinv.inFlight_iff second).mp hsecond).2
  rw [heq, htwo, SlotPhase.awaiting.injEq] at hone
  exact hone.symm

theorem inFlight_length_le (hinv : SlotInv slotCount slot table) :
    table.inFlight.length ≤ slotCount := by
  have hsubset : table.inFlight.map Dispatch.slotId ⊆ List.range slotCount := by
    intro slotId hmem
    obtain ⟨dispatch, hdispatch, rfl⟩ := List.mem_map.mp hmem
    exact List.mem_range.mpr ((hinv.inFlight_iff dispatch).mp hdispatch).1
  simpa using (List.subperm_of_subset hinv.inFlight_slots_nodup hsubset).length_le

end SlotInv

/-! ## The verdict -/

/-- The failures are the failed children in the order they closed, and only a
recorded failure raises the bail flag. -/
structure VerdictInv (job : QueueJob) (state : QueueState) : Prop where
  failures : state.failures = state.table.failed.map Dispatch.failure
  bailFlag_iff : state.bailFlag = true ↔ job.runner.bails = true ∧ state.failures ≠ []
  done : ∀ slotId < job.slotCount, (state.slot slotId).phase = .done →
    state.bailFlag = true ∨ job.queue.length ≤ state.queuePos

theorem VerdictInv.initial (job : QueueJob) : VerdictInv job job.initial where
  failures := rfl
  bailFlag_iff := by simp [QueueJob.initial]
  done slotId _ hdone := by
    simp only [QueueJob.initial] at hdone
    split at hdone <;> cases hdone

/-- The invariant on the slots' verdicts survives every step of a slot. -/
theorem VerdictInv.step (hinv : VerdictInv job state) (hstep : SlotStep job state event next) :
    VerdictInv job next := by
  cases hstep with
  | woke slotId hslot hphase =>
      refine ⟨hinv.failures, hinv.bailFlag_iff, fun other hlt hdone => ?_⟩
      rw [QueueState.setPhase_phase] at hdone
      split at hdone
      next => cases hdone
      next => exact hinv.done other hlt hdone
  | bailed slotId hslot hphase hbail =>
      exact ⟨hinv.failures, hinv.bailFlag_iff, fun _ _ _ => Or.inl hbail⟩
  | drained slotId hslot hphase hbail hend =>
      exact ⟨hinv.failures, hinv.bailFlag_iff, fun _ _ _ => Or.inr (Nat.le_succ_of_le hend)⟩
  | dispatched slotId file hslot hphase hbail hfile =>
      refine ⟨hinv.failures, hinv.bailFlag_iff, fun other hlt hdone => ?_⟩
      rw [QueueState.setPhase_phase] at hdone
      split at hdone
      next => cases hdone
      next => exact (hinv.done other hlt hdone).imp_right Nat.le_succ_of_le
  | succeeded slotId dispatch hslot hphase =>
      refine ⟨?_, hinv.bailFlag_iff, fun other hlt hdone => ?_⟩
      · rw [QueueState.advance_failures, QueueState.advance_table, Processes.failed_close, if_pos rfl]
        exact hinv.failures
      · rw [QueueState.advance_phase] at hdone
        split at hdone
        next => cases hdone
        next => exact hinv.done other hlt hdone
  | failed slotId dispatch code hslot hphase hcode hbails =>
      refine ⟨?_, ?_, fun other hlt hdone => ?_⟩
      · rw [QueueState.advance_failures, QueueState.advance_table, Processes.failed_close,
          if_neg hcode, List.map_append, ← hinv.failures]
        rfl
      · have hflag := hinv.bailFlag_iff
        rw [hbails] at hflag ⊢
        simpa using hflag
      · rw [QueueState.advance_phase] at hdone
        split at hdone
        next => cases hdone
        next => exact hinv.done other hlt hdone
  | failedBailing slotId dispatch code hslot hphase hcode hbails =>
      refine ⟨?_, ?_, fun _ _ _ => Or.inl rfl⟩
      · rw [QueueState.advance_failures, QueueState.advance_table, Processes.failed_close,
          if_neg hcode, List.map_append, ← hinv.failures]
        rfl
      · simp [hbails]

/-! ## Reachable states -/

/-- What holds in every reachable state of the queue. -/
structure QueueInv (job : QueueJob) (state : QueueState) : Prop where
  cursor : CursorInv job state
  slots : SlotInv job.slotCount state.slot state.table
  verdict : VerdictInv job state

theorem QueueInv.initial (job : QueueJob) : QueueInv job job.initial :=
  ⟨CursorInv.initial job, SlotInv.initial job, VerdictInv.initial job⟩

theorem QueueInv.step (hinv : QueueInv job state)
    (hstep : job.machine.step state event = some next) : QueueInv job next :=
  have hcases := QueueJob.step_cases hstep
  ⟨hinv.cursor.step hcases, hinv.slots.step hcases, hinv.verdict.step hcases⟩

theorem QueueInv.of_reaches (hreach : job.machine.Reaches job.initial state) :
    QueueInv job state :=
  hreach.invariant (QueueInv job) (fun _ _ _ hinv hstep => hinv.step hstep) (QueueInv.initial job)

/-- When every slot is done and nothing raised the bail flag, the cursor has
passed the end of the queue. -/
theorem QueueInv.drained (hinv : QueueInv job state) (hslots : 0 < job.slotCount)
    (hcompleted : job.Completed state) (hbail : state.bailFlag = false) :
    job.queue.length ≤ state.queuePos := by
  rcases hinv.verdict.done 0 hslots (hcompleted 0 hslots) with hflag | hend
  · rw [hbail] at hflag
    cases hflag
  · exact hend

/-- When every slot is done, no child is in flight. -/
theorem QueueInv.idle (hinv : QueueInv job state) (hcompleted : job.Completed state) :
    state.table.inFlight = [] := by
  apply List.eq_nil_iff_forall_not_mem.mpr
  intro dispatch hmem
  obtain ⟨hlt, hphase⟩ := (hinv.slots.inFlight_iff dispatch).mp hmem
  rw [hcompleted dispatch.slotId hlt] at hphase
  cases hphase

/-- With the bail flag raised, no step spawns a child. -/
theorem SlotStep.spawned_eq (hstep : SlotStep job state event next)
    (hbail : state.bailFlag = true) :
    next.table.spawned = state.table.spawned ∧ next.bailFlag = true := by
  cases hstep with
  | drained slotId hslot hphase hlow => rw [hbail] at hlow; cases hlow
  | dispatched slotId file hslot hphase hlow => rw [hbail] at hlow; cases hlow
  | failedBailing => exact ⟨rfl, rfl⟩
  | _ => exact ⟨rfl, hbail⟩

end RaylsSuite.Runner
