import RaylsSuite.Common.Loads

/-! # The life of a load

A load is to end once, when the call that opened it settles. Whether it does
depends on how the promises settle that the call awaits.
-/

namespace RaylsSuite.Common

open Entities Foundation

variable {α : Type} [JsValue JsError α]

/-- What holds of the loads whatever the calls do: a call's load is known by the position of
the call, and each load that is no longer active has ended once, as its call did. -/
structure LoadInv (loads : Loads α) : Prop where
  loadId_eq : ∀ index (call : Call α), loads.calls[index]? = some call → call.loadId = index
  next_eq : loads.log.logger.nextLoadId = loads.calls.length
  active_iff : ∀ loadId, loadId ∈ loads.log.logger.activeLoads.map Prod.fst ↔
    loadId < loads.calls.length ∧ loadId ∉ loads.log.finished.map Prod.fst
  finished_nodup : (loads.log.finished.map Prod.fst).Nodup
  finished_settled : ∀ loadId success, (loadId, success) ∈ loads.log.finished →
    ∃ outcome, loads.calls[loadId]? = some (.settled loadId outcome) ∧ success = outcome.isOk

/-- Every settled call has closed its load. -/
def Tidy (loads : Loads α) : Prop :=
  ∀ loadId outcome, loads.calls[loadId]? = some (.settled loadId outcome) →
    loadId ∈ loads.log.finished.map Prod.fst

/-- With distinct keys an entry is the only one of its key. -/
theorem filter_key_eq_singleton {Key Value : Type} [DecidableEq Key] {entries : List (Key × Value)}
    (hnodup : (entries.map Prod.fst).Nodup) {key : Key} {value : Value}
    (hmem : (key, value) ∈ entries) :
    entries.filter (fun entry => entry.1 = key) = [(key, value)] := by
  induction entries with
  | nil => cases hmem
  | cons first rest ih =>
      obtain ⟨hnew, hrest⟩ := List.nodup_cons.mp hnodup
      rcases List.mem_cons.mp hmem with rfl | hlater
      · have hnone : rest.filter (fun entry => entry.1 = key) = [] := by
          rw [List.filter_eq_nil_iff]
          intro entry hentry heq
          exact hnew (List.mem_map.mpr ⟨entry, hentry, of_decide_eq_true heq⟩)
        rw [List.filter_cons_of_pos (by simp), hnone]
      · have hne : first.1 ≠ key := by
          rintro rfl
          exact hnew (List.mem_map.mpr ⟨_, hlater, rfl⟩)
        rw [List.filter_cons_of_neg (by simp [hne])]
        exact ih hrest hlater

section Loads

omit [JsValue JsError α]

variable {loads : Loads α} {index : Nat} {call : Call α}

theorem loadInv_start : LoadInv (Loads.start : Loads α) := by
  constructor <;> simp [Loads.start, LoadLog.new, Logger.new]

/-- The load of a call that has not settled is open. -/
theorem LoadInv.not_finished (hinv : LoadInv loads) (hcall : loads.calls[index]? = some call)
    (hopen : call.isSettled = false) : index ∉ loads.log.finished.map Prod.fst := by
  intro hfinished
  obtain ⟨⟨_, success⟩, hmem, rfl⟩ := List.mem_map.mp hfinished
  obtain ⟨outcome, hsettled, _⟩ := hinv.finished_settled _ success hmem
  obtain rfl := Option.some.inj (hcall.symm.trans hsettled)
  cases hopen

/-- A new call opens the next load. -/
theorem LoadInv.called (hinv : LoadInv loads) (message : String) (call : Call α)
    (hopen : call.isSettled = false) (hload : call.loadId = loads.log.logger.nextLoadId) :
    LoadInv ⟨loads.log.load message, loads.calls ++ [call]⟩ ∧
      (Tidy ⟨loads.log.load message, loads.calls ++ [call]⟩ ↔ Tidy loads) := by
  have hfresh : loads.calls.length ∉ loads.log.finished.map Prod.fst := by
    intro hfinished
    obtain ⟨⟨_, success⟩, hmem, rfl⟩ := List.mem_map.mp hfinished
    obtain ⟨outcome, hsettled, _⟩ := hinv.finished_settled _ success hmem
    exact absurd (List.getElem?_eq_some_iff.mp hsettled).1 (Nat.lt_irrefl _)
  refine ⟨⟨?_, ?_, ?_, hinv.finished_nodup, ?_⟩, ?_⟩
  · intro index other hother
    rcases lookup_concat.mp hother with hold | ⟨rfl, rfl⟩
    · exact hinv.loadId_eq index other hold
    · rw [hload, hinv.next_eq]
  · simp [LoadLog.load, Logger.load, hinv.next_eq]
  · intro loadId
    have hactive := hinv.active_iff loadId
    simp only [LoadLog.load, Logger.load, List.map_append, List.map_cons, List.map_nil,
      List.mem_append, List.mem_singleton, hactive, hinv.next_eq, List.length_append,
      List.length_singleton]
    constructor
    · rintro (⟨hlt, hopenLoad⟩ | rfl)
      · exact ⟨Nat.lt_succ_of_lt hlt, hopenLoad⟩
      · exact ⟨Nat.lt_succ_self _, hfresh⟩
    · rintro ⟨hlt, hopenLoad⟩
      rcases Nat.lt_or_eq_of_le (Nat.lt_succ_iff.mp hlt) with hold | heq
      · exact .inl ⟨hold, hopenLoad⟩
      · exact .inr heq
  · intro loadId success hmem
    obtain ⟨outcome, hsettled, hsuccess⟩ := hinv.finished_settled loadId success hmem
    exact ⟨outcome, lookup_concat.mpr (.inl hsettled), hsuccess⟩
  · constructor
    · exact fun htidy loadId outcome hsettled =>
        htidy loadId outcome (lookup_concat.mpr (.inl hsettled))
    · intro htidy loadId outcome hsettled
      rcases lookup_concat.mp hsettled with hold | ⟨rfl, rfl⟩
      · exact htidy loadId outcome hold
      · cases hopen

/-- A call that keeps its load keeps the loads of all tidy. -/
theorem LoadInv.resumed {resumed : LoadLog × Call α} (hinv : LoadInv loads)
    (hcall : loads.calls[index]? = some call) (hopen : call.isSettled = false)
    (hkept : Kept loads.log index resumed) :
    LoadInv ⟨resumed.1, loads.calls.set index resumed.2⟩ ∧
      (Tidy ⟨resumed.1, loads.calls.set index resumed.2⟩ ↔ Tidy loads) := by
  have hindex : index < loads.calls.length := (List.getElem?_eq_some_iff.mp hcall).1
  have hunfinished := hinv.not_finished hcall hopen
  have hother : ∀ {loadId outcome}, loads.calls[loadId]? = some (.settled loadId outcome) →
      loadId ≠ index := by
    rintro loadId outcome hsettled rfl
    obtain rfl := Option.some.inj (hcall.symm.trans hsettled)
    cases hopen
  cases hkept with
  | @awaits next hnext hload =>
      refine ⟨⟨?_, ?_, ?_, hinv.finished_nodup, ?_⟩, ?_⟩
      · intro position other hposition
        rcases (lookup_set hindex).mp hposition with ⟨rfl, rfl⟩ | ⟨_, hold⟩
        · exact hload
        · exact hinv.loadId_eq position other hold
      · simp [hinv.next_eq]
      · simpa using hinv.active_iff
      · intro loadId success hmem
        obtain ⟨outcome, hsettled, hsuccess⟩ := hinv.finished_settled loadId success hmem
        exact ⟨outcome, (lookup_set hindex).mpr (.inr ⟨hother hsettled, hsettled⟩), hsuccess⟩
      · constructor
        · exact fun htidy loadId outcome hsettled =>
            htidy loadId outcome ((lookup_set hindex).mpr (.inr ⟨hother hsettled, hsettled⟩))
        · intro htidy loadId outcome hsettled
          rcases (lookup_set hindex).mp hsettled with ⟨rfl, rfl⟩ | ⟨_, hold⟩
          · cases hnext
          · exact htidy loadId outcome hold
  | finishes outcome =>
      have hactive := (hinv.active_iff index).mpr ⟨hindex, hunfinished⟩
      simp only [LoadLog.finishLoad, if_pos hactive]
      refine ⟨⟨?_, ?_, ?_, ?_, ?_⟩, ?_⟩
      · intro position other hposition
        rcases (lookup_set hindex).mp hposition with ⟨rfl, rfl⟩ | ⟨_, hold⟩
        · rfl
        · exact hinv.loadId_eq position other hold
      · simp [Logger.finishLoad, hinv.next_eq]
      · intro loadId
        have hentry := hinv.active_iff loadId
        simp only [List.mem_map, Logger.finishLoad, List.mem_filter, List.length_set,
          List.map_append, List.mem_append, List.map_cons, List.map_nil, List.mem_singleton,
          decide_eq_true_eq] at hentry ⊢
        rw [not_or, ← and_assoc, ← hentry]
        constructor
        · rintro ⟨entry, ⟨hmem, hne⟩, rfl⟩
          exact ⟨⟨entry, hmem, rfl⟩, hne⟩
        · rintro ⟨⟨entry, hmem, rfl⟩, hne⟩
          exact ⟨entry, ⟨hmem, hne⟩, rfl⟩
      · rw [List.map_append]
        refine List.nodup_append.mpr ⟨hinv.finished_nodup, by simp, ?_⟩
        intro loadId hold other hnew
        obtain rfl := List.mem_singleton.mp hnew
        rintro rfl
        exact hunfinished hold
      · intro loadId success hmem
        rcases List.mem_append.mp hmem with hold | hnew
        · obtain ⟨before, hsettled, hsuccess⟩ := hinv.finished_settled loadId success hold
          exact ⟨before, (lookup_set hindex).mpr (.inr ⟨hother hsettled, hsettled⟩), hsuccess⟩
        · obtain ⟨rfl, rfl⟩ := Prod.mk.inj (List.mem_singleton.mp hnew)
          exact ⟨outcome, (lookup_set hindex).mpr (.inl ⟨rfl, rfl⟩), rfl⟩
      · simp only [Tidy, List.map_append, List.mem_append, List.map_cons, List.map_nil,
          List.mem_singleton]
        constructor
        · intro htidy loadId before hsettled
          have hne := hother hsettled
          exact (htidy loadId before ((lookup_set hindex).mpr (.inr ⟨hne, hsettled⟩))).resolve_right
            hne
        · intro htidy loadId before hsettled
          rcases (lookup_set hindex).mp hsettled with ⟨rfl, _⟩ | ⟨_, hold⟩
          · exact .inr rfl
          · exact .inl (htidy loadId before hold)

/-- A call that rejects without closing its load leaves it open for good. -/
theorem LoadInv.leaked (hinv : LoadInv loads) (hcall : loads.calls[index]? = some call)
    (hopen : call.isSettled = false) (err : JsError) :
    LoadInv ⟨loads.log, loads.calls.set index (.settled index (.error err))⟩ ∧
      ¬Tidy ⟨loads.log, loads.calls.set index (.settled index (.error err))⟩ := by
  have hindex : index < loads.calls.length := (List.getElem?_eq_some_iff.mp hcall).1
  refine ⟨⟨?_, ?_, ?_, hinv.finished_nodup, ?_⟩, ?_⟩
  · intro position other hposition
    rcases (lookup_set hindex).mp hposition with ⟨rfl, rfl⟩ | ⟨_, hold⟩
    · rfl
    · exact hinv.loadId_eq position other hold
  · simp [hinv.next_eq]
  · simpa using hinv.active_iff
  · intro loadId success hmem
    obtain ⟨outcome, hsettled, hsuccess⟩ := hinv.finished_settled loadId success hmem
    refine ⟨outcome, (lookup_set hindex).mpr (.inr ⟨?_, hsettled⟩), hsuccess⟩
    rintro rfl
    obtain rfl := Option.some.inj (hcall.symm.trans hsettled)
    cases hopen
  · intro htidy
    exact hinv.not_finished hcall hopen
      (htidy index (.error err) ((lookup_set hindex).mpr (.inl ⟨rfl, rfl⟩)))

end Loads

/-- The settlement leaves its call with its load. -/
def KeepsLoad (loads : Loads α) : LoadLabel α → Prop
  | .wait _ | .submitTx _ => True
  | .resume index event => ∀ call, loads.calls[index]? = some call → call.KeepsLoad event

section Step

variable {PARALLEL_WORKERS} {loads next : Loads α} {label : LoadLabel α}

/-- One step keeps the bookkeeping, and keeps the loads tidy exactly if its settlement keeps
its load. -/
theorem LoadInv.step (hinv : LoadInv loads) (hstep : loads.step PARALLEL_WORKERS label = some next) :
    LoadInv next ∧ (KeepsLoad loads label ∧ (Tidy next ↔ Tidy loads) ∨
      ¬KeepsLoad loads label ∧ ¬Tidy next) := by
  cases label with
  | wait opts =>
      have hstarted : Kept _ _ (Polling.start PARALLEL_WORKERS opts loads.log : LoadLog × Call α) :=
        Polling.start_kept opts
      simp only [Loads.step, Option.some.injEq] at hstep
      generalize (Polling.start PARALLEL_WORKERS opts loads.log : LoadLog × Call α) = started
        at hstarted hstep
      obtain rfl := hstep
      cases hstarted with
      | awaits hopen hload =>
          obtain ⟨hnext, htidy⟩ := hinv.called opts.message _ hopen hload
          exact ⟨hnext, .inl ⟨trivial, htidy⟩⟩
      | finishes outcome =>
          -- a wait without attempts opens its load and closes it at once
          obtain ⟨hopened, htidyOpened⟩ := hinv.called opts.message
            (.checking ⟨opts, loads.log.logger.nextLoadId, 1, none, none⟩) rfl rfl
          rw [hinv.next_eq] at hopened htidyOpened ⊢
          obtain ⟨hnext, htidy⟩ := hopened.resumed List.getElem?_concat_length rfl
            (.finishes outcome)
          simp only [List.set_append, Nat.lt_irrefl, if_false, Nat.sub_self, List.set_cons_zero]
            at hnext htidy
          exact ⟨hnext, .inl ⟨trivial, htidy.trans htidyOpened⟩⟩
  | submitTx message =>
      obtain rfl := Option.some.inj hstep
      obtain ⟨hnext, htidy⟩ := hinv.called message
        (.broadcasting ⟨message, loads.log.logger.nextLoadId, 1, 1⟩) rfl rfl
      exact ⟨hnext, .inl ⟨trivial, htidy⟩⟩
  | resume index event =>
      obtain ⟨call, hcall, hrest⟩ := Option.bind_eq_some_iff.mp hstep
      obtain ⟨resumed, hresumed, rfl⟩ := Option.map_eq_some_iff.mp hrest
      have hload := hinv.loadId_eq index call hcall
      have hkeeps : KeepsLoad loads (.resume index event) ↔ call.KeepsLoad event := by
        simp [KeepsLoad, hcall]
      rw [hkeeps]
      obtain ⟨hopen, ⟨hkept, hnext⟩ | ⟨hleaked, err, rfl⟩⟩ := Call.resume_cases hresumed
      · rw [hload] at hnext
        obtain ⟨hinvNext, htidy⟩ := hinv.resumed hcall hopen hnext
        exact ⟨hinvNext, .inl ⟨hkept, htidy⟩⟩
      · rw [hload]
        obtain ⟨hinvNext, htidy⟩ := hinv.leaked hcall hopen err
        exact ⟨hinvNext, .inr ⟨hleaked, htidy⟩⟩

end Step

/-- No load is active, and each load that was opened has ended once, as a success exactly if
its call resolved. -/
structure LoadsFinished (loads : Loads α) : Prop where
  inactive : loads.log.logger.activeLoads = []
  finishedOnce : ∀ loadId < loads.log.logger.nextLoadId, ∃ outcome,
    loads.calls[loadId]? = some (.settled loadId outcome) ∧
      loads.log.finished.filter (fun entry => entry.1 = loadId) = [(loadId, outcome.isOk)]

omit [JsValue JsError α] in
/-- Once every call has settled, tidy loads are finished ones. -/
theorem LoadInv.finished_iff {loads : Loads α} (hinv : LoadInv loads)
    (hsettled : ∀ call ∈ loads.calls, call.isSettled = true) :
    LoadsFinished loads ↔ Tidy loads := by
  have hcallOf : ∀ loadId < loads.calls.length, ∃ outcome,
      loads.calls[loadId]? = some (.settled loadId outcome) := by
    intro loadId hlt
    have hcall := List.getElem?_eq_getElem hlt
    have hload := hinv.loadId_eq loadId _ hcall
    have hdone := hsettled _ (List.getElem_mem hlt)
    generalize loads.calls[loadId] = call at hcall hload hdone
    cases call with
    | settled own outcome =>
        obtain rfl : own = loadId := hload
        exact ⟨outcome, hcall⟩
    | _ => cases hdone
  constructor
  · intro hfinished loadId outcome hcall
    have hlt : loadId < loads.log.logger.nextLoadId :=
      hinv.next_eq ▸ (List.getElem?_eq_some_iff.mp hcall).1
    obtain ⟨own, _, hentries⟩ := hfinished.finishedOnce loadId hlt
    have hmem : (loadId, own.isOk) ∈ loads.log.finished :=
      List.mem_of_mem_filter (hentries ▸ List.mem_singleton_self _)
    exact List.mem_map.mpr ⟨_, hmem, rfl⟩
  · intro htidy
    constructor
    · rw [← List.map_eq_nil_iff (f := Prod.fst), List.eq_nil_iff_forall_not_mem]
      intro loadId hactive
      obtain ⟨hlt, hunfinished⟩ := (hinv.active_iff loadId).mp hactive
      obtain ⟨outcome, hcall⟩ := hcallOf loadId hlt
      exact hunfinished (htidy loadId outcome hcall)
    · intro loadId hlt
      obtain ⟨outcome, hcall⟩ := hcallOf loadId (hinv.next_eq ▸ hlt)
      refine ⟨outcome, hcall, ?_⟩
      obtain ⟨⟨_, success⟩, hmem, rfl⟩ := List.mem_map.mp (htidy loadId outcome hcall)
      obtain ⟨own, hown, rfl⟩ := hinv.finished_settled _ success hmem
      obtain ⟨-, rfl⟩ := Call.settled.inj (Option.some.inj (hcall.symm.trans hown))
      exact filter_key_eq_singleton hinv.finished_nodup hmem

/-- When all the calls of a schedule have settled, their loads are finished exactly if every
settlement of an awaited promise left its call with its load. -/
theorem loadsFinished_iff (PARALLEL_WORKERS : Option String) (schedule : List (LoadLabel α))
    (final : Loads α) (hrun : (loadMachine PARALLEL_WORKERS).run Loads.start schedule = some final)
    (hsettled : ∀ call ∈ final.calls, call.isSettled = true) :
    LoadsFinished final ↔
      (loadMachine PARALLEL_WORKERS).Guarded KeepsLoad Loads.start schedule := by
  have hpreserved : ∀ (loads : Loads α) label next, LoadInv loads →
      (loadMachine PARALLEL_WORKERS).step loads label = some next → LoadInv next :=
    fun loads label next hinv hstep => (hinv.step hstep).1
  have hstart : LoadInv (Loads.start : Loads α) := loadInv_start
  have htidyStart : Tidy (Loads.start : Loads α) := fun loadId outcome hnone => by
    simp [Loads.start] at hnone
  have hstepwise : ∀ (loads : Loads α) label next, LoadInv loads →
      (loadMachine PARALLEL_WORKERS).step loads label = some next →
        (Tidy next ↔ KeepsLoad loads label ∧ Tidy loads) := by
    intro loads label next hinv hstep
    rcases (hinv.step hstep).2 with ⟨hkept, hiff⟩ | ⟨hleaked, hlost⟩
    · rw [hiff, and_iff_right hkept]
    · exact iff_of_false hlost fun hboth => hleaked hboth.1
  calc LoadsFinished final
      ↔ Tidy final :=
        (Machine.run_invariant LoadInv hpreserved hstart hrun).finished_iff hsettled
    _ ↔ Tidy Loads.start ∧
          (loadMachine PARALLEL_WORKERS).Guarded KeepsLoad Loads.start schedule :=
        Machine.final_iff_guarded hpreserved hstepwise hstart hrun
    _ ↔ (loadMachine PARALLEL_WORKERS).Guarded KeepsLoad Loads.start schedule :=
        and_iff_right htidyStart

/-- A wait and a submission side by side: the wait matches at its second check, while the
transaction is mined. -/
def sideBySide : List (LoadLabel Bool) :=
  [.wait { kind := .eventually, attempts := some 2, message := "balance" }, .submitTx "mint",
    .resume 0 (.checked (.ok false)),
    .resume 1 (.responded (.ok ⟨"0xa0", ⟨some 1000, .ok (some ⟨"0xa0", 1⟩)⟩⟩)),
    .resume 0 .elapsed, .resume 1 .elapsed, .resume 0 (.checked (.ok true))]

theorem loadsFinished_iff_sideBySide :
    ∃ final, (loadMachine none).run Loads.start sideBySide = some final ∧
      (∀ call ∈ final.calls, call.isSettled = true) ∧
      (LoadsFinished final ↔ (loadMachine none).Guarded KeepsLoad Loads.start sideBySide) :=
  ⟨_, rfl, by decide, loadsFinished_iff none sideBySide _ rfl (by decide)⟩

/-- A wait whose first check throws. -/
def throwingCheck : List (LoadLabel Bool) :=
  [.wait { kind := .eventually, attempts := some 2, message := "balance" },
    .resume 0 (.checked (.error (JsError.new "connection refused")))]

theorem not_loadsFinished_throwingCheck :
    ∃ final, (loadMachine none).run Loads.start throwingCheck = some final ∧
      (∀ call ∈ final.calls, call.isSettled = true) ∧ ¬LoadsFinished final := by
  refine ⟨_, rfl, by decide, ?_⟩
  intro hfinished
  cases hfinished.inactive

end RaylsSuite.Common
