import Mathlib.Algebra.Ring.Nat
import RaylsSuite.Foundation.Binary64
import RaylsSuite.Foundation.Runs

/-! # Observing a crash loop

`observeRelayerCrashLoop` probes a service, restarts it when it is down, and asks
whether a delivery has arrived, until that decides the outcome or the window
ends. What it is answered, and what its clock shows, comes from outside: a turn
holds the answers that one iteration of the loop may need.
-/

namespace RaylsSuite.TestUtils

open Foundation

/-! ## The observation and its options -/

structure CrashObservation where
  crashCount : Nat
  restarts : Nat
  delivered : Bool
  firstCrashAtS : Option ℚ
  deliveredAtS : Option ℚ
deriving DecidableEq, Repr

structure ObserveCrashLoopOptions where
  service : String
  deadlineMs : Int
  pollMs : Option Nat
  confirmProbes : Option Nat
  confirmGapMs : Option Nat
  crashLoopConfirm : Option Nat
  recoveryWaitMs : Option Nat

/-- The options with their defaults. -/
structure CrashWatch where
  service : String
  deadlineMs : Int
  pollMs : Nat
  confirmProbes : Nat
  confirmGapMs : Nat
  crashLoopConfirm : Nat
  recoveryWaitMs : Nat

def ObserveCrashLoopOptions.watch (opts : ObserveCrashLoopOptions) : CrashWatch where
  service := opts.service
  deadlineMs := opts.deadlineMs
  pollMs := opts.pollMs.getD 4000
  confirmProbes := opts.confirmProbes.getD 2
  confirmGapMs := opts.confirmGapMs.getD 1000
  crashLoopConfirm := opts.crashLoopConfirm.getD 3
  recoveryWaitMs := opts.recoveryWaitMs.getD 60000

/-! ## Answers and calls -/

/-- How a restart ends: `compose.restart` throws, or the wait behind it does, or neither. -/
inductive RestartOutcome where
  | refused
  | stillDown
  | up
deriving DecidableEq, Repr

/-- The answers to one iteration, and the readings of the clock at its head and where it
stamps a crash or the delivery. -/
structure WatchTurn where
  now : Int
  isAlive : Nat → Bool
  crashedAt : Int
  restart : RestartOutcome
  checkDelivered : Bool
  deliveredAt : Int

/-- A call that the loop makes, with its answer, and the results of its confirmations. -/
inductive WatchEvent where
  | isAlive (alive : Bool)
  | delay (ms : Nat)
  | confirmedDown (down : Bool)
  | restart (service : String) (thrown : Bool)
  | waitUntilAlive (ms : Nat) (alive : Bool)
  | checkDelivered (answer : Bool)
deriving DecidableEq, Repr

inductive Liveness where
  | up
  | down
deriving DecidableEq, Repr

/-- What an event says of the service: the result of a confirmation, or that a wait found it
alive. -/
def WatchEvent.liveness : WatchEvent → Option Liveness
  | .confirmedDown true => some .down
  | .confirmedDown false | .waitUntilAlive _ true => some .up
  | _ => none

def WatchEvent.deliveryAnswer : WatchEvent → Option Bool
  | .checkDelivered answer => some answer
  | _ => none

/-- The variables of the loop, and the calls that it has made. -/
structure WatchState where
  prevAlive : Bool
  crashCount : Nat
  restarts : Nat
  delivered : Bool
  firstCrashAtS : Option ℚ
  deliveredAtS : Option ℚ
  events : List WatchEvent

namespace WatchState

def initial : WatchState := ⟨true, 0, 0, false, none, none, []⟩

def observation (state : WatchState) : CrashObservation :=
  ⟨state.crashCount, state.restarts, state.delivered, state.firstCrashAtS, state.deliveredAtS⟩

def record (state : WatchState) (events : List WatchEvent) : WatchState :=
  { state with events := state.events ++ events }

/-- What was observed of the service, in order. -/
def observations (state : WatchState) : List Liveness :=
  state.events.filterMap WatchEvent.liveness

/-- What `checkDelivered` has answered, in order. -/
def answers (state : WatchState) : List Bool :=
  state.events.filterMap WatchEvent.deliveryAnswer

end WatchState

/-! ## The loop -/

/-- `Number(((Date.now() - start) / 1000).toFixed(1))`. -/
def elapsedS (start now : Int) : ℚ := readFixed 1 (binary64 ((now - start) / 1000))

namespace CrashWatch

variable (watch : CrashWatch) (start : Int) (turn : WatchTurn)

/-- The loop of `confirmedDown` from probe `i` on, with `left` probes to make. -/
def confirmedDownFrom (isAlive : Nat → Bool) : Nat → Nat → Bool × List WatchEvent
  | 0, _ => (true, [])
  | left + 1, i =>
      if isAlive i then (false, [.isAlive true])
      else
        let rest := confirmedDownFrom isAlive left (i + 1)
        let gap := if left = 0 then [] else [WatchEvent.delay watch.confirmGapMs]
        (rest.1, .isAlive false :: gap ++ rest.2)

def confirmedDown : Bool × List WatchEvent :=
  watch.confirmedDownFrom turn.isAlive watch.confirmProbes 0

/-- The confirmation, and a crash if the service was alive before. -/
def confirm (state : WatchState) : WatchState :=
  let confirmed := watch.confirmedDown turn
  let crashed := state.prevAlive && confirmed.1
  { state with
      crashCount := if crashed then state.crashCount + 1 else state.crashCount
      firstCrashAtS := if crashed && state.firstCrashAtS.isNone then
        some (elapsedS start turn.crashedAt) else state.firstCrashAtS
      prevAlive := !confirmed.1
      events := state.events ++ confirmed.2 ++ [.confirmedDown confirmed.1] }

/-- The restart of a service that is down. -/
def recover (state : WatchState) : WatchState :=
  if (watch.confirmedDown turn).1 then
    match turn.restart with
    | .refused => state.record [.restart watch.service true]
    | .stillDown =>
        { state.record [.restart watch.service false,
            .waitUntilAlive watch.recoveryWaitMs false] with
            restarts := state.restarts + 1 }
    | .up =>
        { state.record [.restart watch.service false,
            .waitUntilAlive watch.recoveryWaitMs true] with
            restarts := state.restarts + 1
            prevAlive := true }
  else state

/-- The question for the delivery, until it has been answered with yes. -/
def askDelivery (state : WatchState) : WatchState :=
  if state.delivered then state
  else if turn.checkDelivered then
    { state.record [.checkDelivered true] with
        delivered := true
        deliveredAtS := some (elapsedS start turn.deliveredAt) }
  else state.record [.checkDelivered false]

/-- One iteration, up to its breaks. -/
def iterate (state : WatchState) : WatchState :=
  askDelivery start turn (watch.recover turn (watch.confirm start turn state))

/-- Whether the outcome is decided: it is healthy, or it is a crash loop. -/
def breaks (state : WatchState) : Bool :=
  (state.delivered && state.crashCount == 0) || decide (watch.crashLoopConfirm ≤ state.crashCount)

/-- Where the loop leaves off: at a break, or at the end of the window. -/
inductive WatchExit where
  | decided
  | deadline
deriving DecidableEq, Repr

/-- The loop over the turns that it gets; it has not returned if these are used up. -/
def loop : WatchState → List WatchTurn → Option (WatchExit × WatchState)
  | _, [] => none
  | state, turn :: rest =>
      if turn.now < start + watch.deadlineMs then
        if watch.breaks (watch.iterate start turn state) then
          some (.decided, watch.iterate start turn state)
        else loop ((watch.iterate start turn state).record [.delay watch.pollMs]) rest
      else some (.deadline, state)

end CrashWatch

def observeRelayerCrashLoop (opts : ObserveCrashLoopOptions) (start : Int)
    (turns : List WatchTurn) : Option (CrashWatch.WatchExit × WatchState) :=
  opts.watch.loop start .initial turns

/-! ## What the turns say -/

/-- Every probe of the turn's confirmation fails. -/
def WatchTurn.down (turn : WatchTurn) (confirmProbes : Nat) : Bool :=
  (List.range' 0 confirmProbes).all fun i => !turn.isAlive i

/-- The restart is made, and counted, whether or not the service comes up behind it. -/
def WatchTurn.restarted (turn : WatchTurn) (confirmProbes : Nat) : Bool :=
  turn.down confirmProbes && turn.restart ≠ .refused

/-- What a turn shows of the service: the result of its confirmation, and that it is up if a
wait behind a restart succeeds. -/
def CrashWatch.observed (watch : CrashWatch) (turn : WatchTurn) : List Liveness :=
  if turn.down watch.confirmProbes then
    if turn.restart = .up then [.down, .up] else [.down]
  else [.up]

/-- The answers of the turns to the question for the delivery, up to the first yes. -/
def deliveryAnswers : List WatchTurn → List Bool
  | [] => []
  | turn :: rest => if turn.checkDelivered then [true] else false :: deliveryAnswers rest

/-- The state is what the turns that were made say. -/
structure CrashWatch.Tracks (watch : CrashWatch) (start : Int) (made : List WatchTurn)
    (state : WatchState) : Prop where
  observations : state.observations = made.flatMap watch.observed
  restarts : state.restarts = made.countP fun turn => turn.restarted watch.confirmProbes
  firstCrashAtS : state.firstCrashAtS =
    (made.find? fun turn => turn.down watch.confirmProbes).map fun turn =>
      elapsedS start turn.crashedAt
  delivered : state.delivered = made.any WatchTurn.checkDelivered
  deliveredAtS : state.deliveredAtS =
    (made.find? WatchTurn.checkDelivered).map fun turn => elapsedS start turn.deliveredAt
  answers : state.answers = deliveryAnswers made

theorem deliveryAnswers_concat (made : List WatchTurn) (turn : WatchTurn) :
    deliveryAnswers (made ++ [turn]) =
      if made.any WatchTurn.checkDelivered then deliveryAnswers made
      else deliveryAnswers made ++ [turn.checkDelivered] := by
  induction made with
  | nil => cases hanswer : turn.checkDelivered <;> simp [deliveryAnswers, hanswer]
  | cons first rest ih =>
      rw [List.cons_append, deliveryAnswers, deliveryAnswers, List.any_cons, ih]
      cases first.checkDelivered with
      | true => rfl
      | false =>
          simp only [Bool.false_eq_true, if_false, Bool.false_or, List.cons_append]
          split <;> rfl

/-! ## What the loop keeps -/

/-- No answer stands behind one that is yes. -/
def AskedOnce (answers : List Bool) : Prop :=
  ∀ position, answers[position]? = some true → position + 1 = answers.length

/-- What holds of the variables between two statements of the loop. -/
structure Counted (state : WatchState) : Prop where
  alive : state.prevAlive = true ↔ state.observations.getLast? ≠ some .down
  crashes : state.crashCount = runsOf .down state.observations
  first : state.firstCrashAtS.isSome = true ↔ 0 < state.crashCount
  delivery : state.deliveredAtS.isSome = state.delivered
  undelivered : state.delivered = false → ∀ answer ∈ state.answers, answer = false
  asked : AskedOnce state.answers

namespace CrashWatch

variable {watch : CrashWatch} {start : Int} {turn : WatchTurn} {state : WatchState}

theorem counted_initial : Counted .initial where
  alive := by decide
  crashes := rfl
  first := by decide
  delivery := rfl
  undelivered _ answer hmem := absurd hmem List.not_mem_nil
  asked position hanswer := by cases hanswer

/-- Events that say nothing of the service or of the delivery. -/
def Silent (events : List WatchEvent) : Prop :=
  ∀ event ∈ events, event.liveness = none ∧ event.deliveryAnswer = none

/-- Probes and the gaps between them say nothing before they are confirmed. -/
theorem confirmedDownFrom_silent (watch : CrashWatch) (isAlive : Nat → Bool) (left i : Nat) :
    Silent (watch.confirmedDownFrom isAlive left i).2 := by
  induction left generalizing i with
  | zero => exact fun event hmem => absurd hmem List.not_mem_nil
  | succ left ih =>
      rw [confirmedDownFrom]
      split
      next =>
        intro event hmem
        obtain rfl := List.mem_singleton.mp hmem
        exact ⟨rfl, rfl⟩
      next =>
        intro event hmem
        rcases List.mem_cons.mp hmem with rfl | hbehind
        · exact ⟨rfl, rfl⟩
        rcases List.mem_append.mp hbehind with hgap | hrest
        · split at hgap
          next => cases hgap
          next =>
            obtain rfl := List.mem_singleton.mp hgap
            exact ⟨rfl, rfl⟩
        · exact ih (i + 1) event hrest

theorem observations_record (state : WatchState) (events : List WatchEvent) :
    (state.record events).observations =
      state.observations ++ events.filterMap WatchEvent.liveness :=
  List.filterMap_append

theorem answers_record (state : WatchState) (events : List WatchEvent) :
    (state.record events).answers =
      state.answers ++ events.filterMap WatchEvent.deliveryAnswer :=
  List.filterMap_append

/-- A confirmation observes once whether the node is down. -/
theorem confirm_observations (watch : CrashWatch) (start : Int) (turn : WatchTurn)
    (state : WatchState) : (watch.confirm start turn state).observations =
      state.observations ++ [if (watch.confirmedDown turn).1 then .down else .up] := by
  have hsilent : (watch.confirmedDown turn).2.filterMap WatchEvent.liveness = [] :=
    List.filterMap_eq_nil_iff.mpr fun event hmem =>
      (confirmedDownFrom_silent watch _ _ _ event hmem).1
  simp only [confirm, WatchState.observations, List.filterMap_append, hsilent, List.append_nil]
  cases (watch.confirmedDown turn).1 <;> rfl

theorem confirm_answers (watch : CrashWatch) (start : Int) (turn : WatchTurn)
    (state : WatchState) : (watch.confirm start turn state).answers = state.answers := by
  have hsilent : (watch.confirmedDown turn).2.filterMap WatchEvent.deliveryAnswer = [] :=
    List.filterMap_eq_nil_iff.mpr fun event hmem =>
      (confirmedDownFrom_silent watch _ _ _ event hmem).2
  simp only [confirm, WatchState.answers, List.filterMap_append, hsilent, List.append_nil]
  exact List.append_nil _

/-- The confirmation keeps the counts. -/
theorem counted_confirm (hcounted : Counted state) :
    Counted (watch.confirm start turn state) := by
  have hobservations := confirm_observations watch start turn state
  have hanswers := confirm_answers watch start turn state
  have halive := hcounted.alive
  cases hdown : (watch.confirmedDown turn).1 with
  | false =>
      simp only [hdown, Bool.false_eq_true, if_false] at hobservations
      refine ⟨?_, ?_, ?_, hcounted.delivery, ?_, ?_⟩
      · rw [hobservations, List.getLast?_concat]
        simp [confirm, hdown]
      · rw [hobservations, runsOf_concat, ← hcounted.crashes]
        simp [confirm, hdown]
      · simpa [confirm, hdown] using hcounted.first
      · rw [hanswers]
        exact hcounted.undelivered
      · rw [hanswers]
        exact hcounted.asked
  | true =>
      simp only [hdown, if_true] at hobservations
      refine ⟨?_, ?_, ?_, hcounted.delivery, ?_, ?_⟩
      · rw [hobservations, List.getLast?_concat]
        simp [confirm, hdown]
      · -- a crash is counted where a run of the service being down begins
        rw [hobservations, runsOf_concat, ← hcounted.crashes]
        simp only [confirm, hdown, Bool.and_true, true_and, ← halive]
        split <;> rfl
      · have hfirst := hcounted.first
        cases hprev : state.prevAlive with
        | false => simpa [confirm, hdown, hprev] using hfirst
        | true =>
            cases hstamp : state.firstCrashAtS with
            | none => simp [confirm, hdown, hprev, hstamp]
            | some stamp => simp [confirm, hdown, hprev, hstamp]
      · rw [hanswers]
        exact hcounted.undelivered
      · rw [hanswers]
        exact hcounted.asked

/-- Recording what says nothing new of the delivery, and nothing of the service. -/
theorem counted_record {events : List WatchEvent} (hsilent : Silent events)
    (hcounted : Counted state) : Counted (state.record events) := by
  have hobservations : (state.record events).observations = state.observations := by
    rw [observations_record, List.filterMap_eq_nil_iff.mpr fun event hmem =>
      (hsilent event hmem).1, List.append_nil]
  have hanswers : (state.record events).answers = state.answers := by
    rw [answers_record, List.filterMap_eq_nil_iff.mpr fun event hmem =>
      (hsilent event hmem).2, List.append_nil]
  refine ⟨?_, ?_, hcounted.first, hcounted.delivery, ?_, ?_⟩
  · rw [hobservations]
    exact hcounted.alive
  · rw [hobservations]
    exact hcounted.crashes
  · rw [hanswers]
    exact hcounted.undelivered
  · rw [hanswers]
    exact hcounted.asked

theorem counted_restarts {restarts : Nat} (hcounted : Counted state) :
    Counted { state with restarts := restarts } :=
  ⟨hcounted.alive, hcounted.crashes, hcounted.first, hcounted.delivery, hcounted.undelivered,
    hcounted.asked⟩

/-- A service that is found alive after its restart begins no run of its being down. -/
theorem counted_up (service : String) (ms restarts : Nat) (hcounted : Counted state) :
    Counted { state.record [.restart service false, .waitUntilAlive ms true] with
      restarts := restarts
      prevAlive := true } := by
  have hobservations : (state.record [.restart service false, .waitUntilAlive ms true]).observations
      = state.observations ++ [.up] := observations_record state _
  have hanswers : (state.record [.restart service false, .waitUntilAlive ms true]).answers =
      state.answers := (answers_record state _).trans (List.append_nil _)
  refine ⟨iff_of_true rfl ?_, ?_, hcounted.first, hcounted.delivery, ?_, ?_⟩
  · change (state.record _).observations.getLast? ≠ some .down
    rw [hobservations, List.getLast?_concat]
    decide
  · have hcrashes := runsOf_concat .down Liveness.up state.observations
    rw [← hobservations, ← hcounted.crashes, if_neg (fun heq => by cases heq.1)] at hcrashes
    exact hcrashes.symm
  · exact fun hnot answer hmem => hcounted.undelivered hnot answer (hanswers ▸ hmem)
  · exact hanswers ▸ hcounted.asked

/-- The recovery keeps the counts. -/
theorem counted_recover (hcounted : Counted state) : Counted (watch.recover turn state) := by
  unfold recover
  split
  next =>
    cases turn.restart with
    | refused =>
        refine counted_record (fun event hmem => ?_) hcounted
        obtain rfl := List.mem_singleton.mp hmem
        exact ⟨rfl, rfl⟩
    | stillDown =>
        refine counted_restarts (counted_record (fun event hmem => ?_) hcounted)
        simp only [List.mem_cons, List.not_mem_nil, or_false] at hmem
        rcases hmem with rfl | rfl <;> exact ⟨rfl, rfl⟩
    | up => exact counted_up _ _ _ hcounted
  next => exact hcounted

theorem askedOnce_concat {answers : List Bool} (hnone : ∀ answer ∈ answers, answer = false)
    (answer : Bool) : AskedOnce (answers ++ [answer]) := by
  intro position hanswer
  rw [List.length_append, List.length_singleton]
  rcases Nat.lt_or_ge position answers.length with hearlier | hlast
  · rw [List.getElem?_append_left hearlier] at hanswer
    cases hnone true (List.mem_of_getElem? hanswer)
  · have hlength := (List.getElem?_eq_some_iff.mp hanswer).1
    rw [List.length_append, List.length_singleton] at hlength
    omega

/-- The delivery question keeps the counts. -/
theorem counted_askDelivery (hcounted : Counted state) :
    Counted (askDelivery start turn state) := by
  have hobservations : ∀ answer,
      (state.record [.checkDelivered answer]).observations = state.observations :=
    fun answer => (observations_record state _).trans (List.append_nil _)
  have hanswers : ∀ answer,
      (state.record [.checkDelivered answer]).answers = state.answers ++ [answer] :=
    fun answer => answers_record state _
  unfold askDelivery
  cases hdelivered : state.delivered with
  | true => simpa using hcounted
  | false =>
      have hnone := hcounted.undelivered hdelivered
      cases hanswer : turn.checkDelivered with
      | false =>
          have hkept : Counted (state.record [.checkDelivered false]) := by
            refine ⟨hobservations false ▸ hcounted.alive, hobservations false ▸ hcounted.crashes,
              hcounted.first, hcounted.delivery, fun _ answer hmem => ?_, ?_⟩
            · rw [hanswers, List.mem_append, List.mem_singleton] at hmem
              exact hmem.elim (hnone answer) id
            · rw [hanswers]
              exact askedOnce_concat hnone false
          simpa using hkept
      | true =>
          refine ⟨?_, ?_, hcounted.first, rfl, (fun hnot => by cases hnot), ?_⟩
          · change state.prevAlive = true ↔ (state.record _).observations.getLast? ≠ some .down
            rw [hobservations]
            exact hcounted.alive
          · change state.crashCount = runsOf .down (state.record _).observations
            rw [hobservations]
            exact hcounted.crashes
          · change AskedOnce (state.record _).answers
            rw [hanswers]
            exact askedOnce_concat hnone true

theorem counted_iterate (hcounted : Counted state) : Counted (watch.iterate start turn state) :=
  counted_askDelivery (counted_recover (counted_confirm hcounted))

/-! ## The turns that the loop makes -/

theorem confirmedDownFrom_eq (watch : CrashWatch) (isAlive : Nat → Bool) (left i : Nat) :
    (watch.confirmedDownFrom isAlive left i).1 = (List.range' i left).all fun i => !isAlive i := by
  induction left generalizing i with
  | zero => rfl
  | succ left ih =>
      rw [confirmedDownFrom, List.range'_succ, List.all_cons]
      split
      next halive => rw [halive, Bool.not_true, Bool.false_and]
      next hdead => rw [Bool.eq_false_of_not_eq_true hdead, Bool.not_false, Bool.true_and, ← ih]

theorem confirmedDown_eq (watch : CrashWatch) (turn : WatchTurn) :
    (watch.confirmedDown turn).1 = turn.down watch.confirmProbes :=
  confirmedDownFrom_eq watch _ _ 0

/-- A recovery observes the node up when the restart succeeded, and asks nothing. -/
theorem recover_spec (watch : CrashWatch) (turn : WatchTurn) (state : WatchState) :
    (watch.recover turn state).observations = state.observations ++
        (if turn.down watch.confirmProbes ∧ turn.restart = .up then [.up] else []) ∧
      (watch.recover turn state).answers = state.answers ∧
      (watch.recover turn state).restarts = state.restarts +
        (if turn.restarted watch.confirmProbes then 1 else 0) := by
  have hobservations := observations_record state
  have hanswers := answers_record state
  rw [recover, confirmedDown_eq, WatchTurn.restarted]
  cases turn.down watch.confirmProbes with
  | false => simp
  | true =>
      cases turn.restart with
      | refused =>
          refine ⟨?_, ?_, rfl⟩
          · exact hobservations _
          · exact (hanswers _).trans (List.append_nil _)
      | stillDown =>
          refine ⟨?_, ?_, rfl⟩
          · exact hobservations _
          · exact (hanswers _).trans (List.append_nil _)
      | up =>
          refine ⟨?_, ?_, rfl⟩
          · exact hobservations _
          · exact (hanswers _).trans (List.append_nil _)

theorem recover_keeps (watch : CrashWatch) (turn : WatchTurn) (state : WatchState) :
    (watch.recover turn state).firstCrashAtS = state.firstCrashAtS ∧
      (watch.recover turn state).delivered = state.delivered ∧
      (watch.recover turn state).deliveredAtS = state.deliveredAtS := by
  unfold recover
  split
  next => cases turn.restart <;> exact ⟨rfl, rfl, rfl⟩
  next => exact ⟨rfl, rfl, rfl⟩

/-- The delivery question observes nothing and restarts nothing. -/
theorem askDelivery_spec (start : Int) (turn : WatchTurn) (state : WatchState) :
    (askDelivery start turn state).observations = state.observations ∧
      (askDelivery start turn state).restarts = state.restarts ∧
      (askDelivery start turn state).firstCrashAtS = state.firstCrashAtS ∧
      (askDelivery start turn state).delivered = (state.delivered || turn.checkDelivered) ∧
      (askDelivery start turn state).deliveredAtS =
        (if !state.delivered && turn.checkDelivered then some (elapsedS start turn.deliveredAt)
          else state.deliveredAtS) ∧
      (askDelivery start turn state).answers =
        (if state.delivered then state.answers else state.answers ++ [turn.checkDelivered]) := by
  have hobservations : ∀ answer,
      (state.record [.checkDelivered answer]).observations = state.observations :=
    fun answer => (observations_record state _).trans (List.append_nil _)
  have hanswers : ∀ answer,
      (state.record [.checkDelivered answer]).answers = state.answers ++ [answer] :=
    fun answer => answers_record state _
  unfold askDelivery
  cases hdelivered : state.delivered with
  | true => simp [hdelivered]
  | false =>
      cases turn.checkDelivered with
      | true => exact ⟨hobservations true, rfl, rfl, rfl, rfl, hanswers true⟩
      | false => exact ⟨hobservations false, rfl, rfl, hdelivered, rfl, hanswers false⟩

theorem tracks_initial (watch : CrashWatch) (start : Int) : watch.Tracks start [] .initial :=
  ⟨rfl, rfl, rfl, rfl, rfl, rfl⟩

/-- A turn that is made adds what it says. -/
theorem tracks_iterate {made : List WatchTurn} (htracks : watch.Tracks start made state)
    (hcounted : Counted state) :
    watch.Tracks start (made ++ [turn]) (watch.iterate start turn state) := by
  have hask := askDelivery_spec start turn (watch.recover turn (watch.confirm start turn state))
  have hrecover := recover_spec watch turn (watch.confirm start turn state)
  have hkeeps := recover_keeps watch turn (watch.confirm start turn state)
  have hconfirm := confirm_observations watch start turn state
  rw [confirmedDown_eq] at hconfirm
  obtain ⟨hobservations, hrestarts, hfirst, hdelivered, hdeliveredAt, hanswers⟩ := hask
  rw [hkeeps.2.1] at hdelivered hdeliveredAt hanswers
  rw [hkeeps.2.2] at hdeliveredAt
  rw [hrecover.2.1, confirm_answers] at hanswers
  have hbefore : (watch.confirm start turn state).delivered = made.any WatchTurn.checkDelivered :=
    htracks.delivered
  constructor
  case observations =>
    rw [iterate, hobservations, hrecover.1, hconfirm, htracks.observations, List.flatMap_append,
      List.flatMap_singleton, List.append_assoc, observed]
    cases turn.down watch.confirmProbes <;> cases turn.restart <;> rfl
  case restarts =>
    have hsame : (watch.confirm start turn state).restarts = state.restarts := rfl
    rw [iterate, hrestarts, hrecover.2.2, hsame, htracks.restarts, List.countP_append,
      List.countP_singleton]
  case firstCrashAtS =>
    rw [iterate, hfirst, hkeeps.1, List.find?_append, confirm, confirmedDown_eq]
    simp only [htracks.firstCrashAtS]
    cases hfound : made.find? fun turn => turn.down watch.confirmProbes with
    | some crashed => simp
    | none =>
        -- no turn was down before, so the service was last seen up
        have hprev : state.prevAlive = true := by
          apply hcounted.alive.mpr
          rw [htracks.observations]
          intro hlast
          obtain ⟨earlier, hmem, hdown⟩ := List.mem_flatMap.mp (List.mem_of_getLast? hlast)
          have hup := List.find?_eq_none.mp hfound earlier hmem
          rw [observed, if_neg hup] at hdown
          cases List.mem_singleton.mp hdown
        simp only [hprev, Bool.true_and, Option.map_none, Option.isNone_none, Bool.and_true,
          Option.none_or, List.find?_singleton]
        split <;> rfl
  case delivered =>
    rw [iterate, hdelivered, hbefore, List.any_append]
    simp
  case deliveredAtS =>
    have hsame : (watch.confirm start turn state).deliveredAtS = state.deliveredAtS := rfl
    rw [iterate, hdeliveredAt, hbefore, hsame, htracks.deliveredAtS, List.find?_append]
    cases hfound : made.find? WatchTurn.checkDelivered with
    | some answered =>
        have hany : made.any WatchTurn.checkDelivered = true :=
          List.any_eq_true.mpr ⟨answered, List.mem_of_find?_eq_some hfound,
            List.find?_some hfound⟩
        simp [hany]
    | none =>
        have hany : made.any WatchTurn.checkDelivered = false := by
          simpa using List.find?_eq_none.mp hfound
        simp only [hany, Bool.not_false, Bool.true_and, Option.map_none, Option.none_or,
          List.find?_singleton]
        split <;> rfl
  case answers =>
    rw [iterate, hanswers, hbefore, htracks.answers, deliveryAnswers_concat]

/-! ## The count of an iteration, and the loop -/

theorem recover_crashCount (watch : CrashWatch) (turn : WatchTurn) (state : WatchState) :
    (watch.recover turn state).crashCount = state.crashCount := by
  unfold recover
  split
  next => cases turn.restart <;> rfl
  next => rfl

theorem askDelivery_crashCount (start : Int) (turn : WatchTurn) (state : WatchState) :
    (askDelivery start turn state).crashCount = state.crashCount := by
  unfold askDelivery
  split
  next => rfl
  next => split <;> rfl

/-- An iteration counts at most one crash. -/
theorem iterate_crashCount_le (watch : CrashWatch) (start : Int) (turn : WatchTurn)
    (state : WatchState) : (watch.iterate start turn state).crashCount ≤ state.crashCount + 1 := by
  rw [iterate, askDelivery_crashCount, recover_crashCount]
  simp only [confirm]
  split
  next => exact Nat.le_refl _
  next => exact Nat.le_succ _

/-- Recording silent events does not disturb the tracking. -/
theorem tracks_record {made : List WatchTurn} {events : List WatchEvent}
    (hsilent : Silent events) (htracks : watch.Tracks start made state) :
    watch.Tracks start made (state.record events) where
  observations := by
    rw [observations_record, List.filterMap_eq_nil_iff.mpr fun event hmem =>
      (hsilent event hmem).1, List.append_nil]
    exact htracks.observations
  restarts := htracks.restarts
  firstCrashAtS := htracks.firstCrashAtS
  delivered := htracks.delivered
  deliveredAtS := htracks.deliveredAtS
  answers := by
    rw [answers_record, List.filterMap_eq_nil_iff.mpr fun event hmem =>
      (hsilent event hmem).2, List.append_nil]
    exact htracks.answers

/-- What holds of the turns that the loop has made when it returns, of those that are left,
and of the state that it returns with. -/
structure Returned (watch : CrashWatch) (start : Int) (made rest : List WatchTurn)
    (exit : WatchExit) (state : WatchState) : Prop where
  counted : Counted state
  tracks : watch.Tracks start made state
  inWindow : ∀ turn ∈ made, turn.now < start + watch.deadlineMs
  le_confirm : state.crashCount ≤ watch.crashLoopConfirm
  decided : exit = .decided → state.delivered = true ∧ state.crashCount = 0 ∨
    state.crashCount = watch.crashLoopConfirm
  late : exit = .deadline → ∃ turn ∈ rest.head?, start + watch.deadlineMs ≤ turn.now

theorem breaks_eq_true {state : WatchState} : watch.breaks state = true ↔
    state.delivered = true ∧ state.crashCount = 0 ∨
      watch.crashLoopConfirm ≤ state.crashCount := by
  simp [breaks]

/-- The loop has made some of its turns when it returns, each in the window. -/
theorem loop_returned {exit : WatchExit} {final : WatchState} {made turns : List WatchTurn}
    (hcounted : Counted state) (htracks : watch.Tracks start made state)
    (hwindow : ∀ turn ∈ made, turn.now < start + watch.deadlineMs)
    (hbelow : state.crashCount < watch.crashLoopConfirm)
    (hloop : watch.loop start state turns = some (exit, final)) :
    ∃ later rest, turns = later ++ rest ∧
      watch.Returned start (made ++ later) rest exit final := by
  -- as long as the loop goes on the count stays below the limit
  induction turns generalizing made state with
  | nil => cases hloop
  | cons turn rest ih =>
      have hnext : Counted (watch.iterate start turn state) := counted_iterate hcounted
      have hsaid : watch.Tracks start (made ++ [turn]) (watch.iterate start turn state) :=
        tracks_iterate htracks hcounted
      have hle := iterate_crashCount_le watch start turn state
      rw [loop] at hloop
      split at hloop
      next hopen =>
        have hwindow' : ∀ other ∈ made ++ [turn], other.now < start + watch.deadlineMs :=
          List.forall_mem_append.mpr ⟨hwindow, List.forall_mem_singleton.mpr hopen⟩
        split at hloop
        next hbreaks =>
          obtain ⟨rfl, rfl⟩ := Prod.mk.inj (Option.some.inj hloop)
          refine ⟨[turn], rest, rfl, hnext, hsaid, hwindow', by omega, fun _ => ?_, ?_⟩
          · exact (breaks_eq_true.mp hbreaks).imp_right fun hreached => by omega
          · intro hdeadline
            cases hdeadline
        next hgoes =>
          rw [breaks_eq_true, not_or, not_le] at hgoes
          have hsilent : Silent [.delay watch.pollMs] := by
            intro event hmem
            obtain rfl := List.mem_singleton.mp hmem
            exact ⟨rfl, rfl⟩
          obtain ⟨later, left, hturns, hreturned⟩ := ih (counted_record hsilent hnext)
            (tracks_record hsilent hsaid) hwindow' hgoes.2 hloop
          refine ⟨turn :: later, left, congrArg (turn :: ·) hturns, ?_⟩
          rwa [List.append_assoc, List.singleton_append] at hreturned
      next hclosed =>
        obtain ⟨rfl, rfl⟩ := Prod.mk.inj (Option.some.inj hloop)
        refine ⟨[], turn :: rest, rfl, ?_⟩
        rw [List.append_nil]
        exact ⟨hcounted, htracks, hwindow, hbelow.le, (fun hdecided => by cases hdecided),
          fun _ => ⟨turn, rfl, not_lt.mp hclosed⟩⟩

/-- The loop returns at the latest when a reading of its clock reaches the end of the window. -/
theorem loop_isSome {turns : List WatchTurn} (state : WatchState)
    (hdeadline : ∃ turn ∈ turns, start + watch.deadlineMs ≤ turn.now) :
    (watch.loop start state turns).isSome = true := by
  induction turns generalizing state with
  | nil => simp at hdeadline
  | cons turn rest ih =>
      rw [loop]
      split
      next hopen =>
        split
        next => rfl
        next =>
          obtain ⟨late, hmem, hlate⟩ := hdeadline
          rcases List.mem_cons.mp hmem with rfl | hrest
          · omega
          · exact ih _ ⟨late, hrest, hlate⟩
      next => rfl

end CrashWatch

/-- The observation that a call returns, against the answers and readings of the turns that it
has made and of those that are left. -/
structure CrashLaw (watch : CrashWatch) (start : Int) (made rest : List WatchTurn)
    (exit : CrashWatch.WatchExit) (answered : List Bool) (observation : CrashObservation) :
    Prop where
  inWindow : ∀ turn ∈ made, turn.now < start + watch.deadlineMs
  crashCount : observation.crashCount = runsOf .down (made.flatMap watch.observed)
  le_confirm : observation.crashCount ≤ watch.crashLoopConfirm
  restarts : observation.restarts = made.countP fun turn => turn.restarted watch.confirmProbes
  firstCrash : observation.firstCrashAtS =
    (made.find? fun turn => turn.down watch.confirmProbes).map fun turn =>
      elapsedS start turn.crashedAt
  firstCrashAtS : observation.firstCrashAtS ≠ none ↔ 0 < observation.crashCount
  delivered : observation.delivered = made.any WatchTurn.checkDelivered
  delivery : observation.deliveredAtS =
    (made.find? WatchTurn.checkDelivered).map fun turn => elapsedS start turn.deliveredAt
  deliveredAtS : observation.deliveredAtS ≠ none ↔ observation.delivered = true
  answers : answered = deliveryAnswers made
  asked : AskedOnce answered
  early : exit = .decided → observation.delivered = true ∧ observation.crashCount = 0 ∨
    observation.crashCount = watch.crashLoopConfirm
  late : exit = .deadline → ∃ turn ∈ rest.head?, start + watch.deadlineMs ≤ turn.now

/-- For all probe, restart and delivery answers and all readings of the clock: a call that returns
has made some of the turns, its observation counts the runs of the service being down in what
these turns show, up to the limit, and it returns before the end of the window only with an
outcome. It returns at the end of the window at the latest. -/
theorem observeRelayerCrashLoop_law (opts : ObserveCrashLoopOptions)
    (hconfirm : 1 ≤ opts.watch.crashLoopConfirm) (start : Int) (turns : List WatchTurn) :
    (∀ exit state, observeRelayerCrashLoop opts start turns = some (exit, state) →
      ∃ made rest, turns = made ++ rest ∧
        CrashLaw opts.watch start made rest exit state.answers state.observation) ∧
    ((∃ turn ∈ turns, start + opts.deadlineMs ≤ turn.now) →
      (observeRelayerCrashLoop opts start turns).isSome = true) := by
  refine ⟨fun exit state hreturned => ?_, fun hdeadline => CrashWatch.loop_isSome _ hdeadline⟩
  obtain ⟨made, rest, hturns, hcounted, htracks, hwindow, hle, hdecided, hlate⟩ :=
    CrashWatch.loop_returned CrashWatch.counted_initial (CrashWatch.tracks_initial opts.watch start)
      (fun turn hmem => absurd hmem List.not_mem_nil) hconfirm hreturned
  refine ⟨made, rest, hturns, hwindow, ?_, hle, htracks.restarts, htracks.firstCrashAtS, ?_,
    htracks.delivered, htracks.deliveredAtS, ?_, htracks.answers, hcounted.asked, hdecided, hlate⟩
  · have hcrashes := hcounted.crashes
    rwa [htracks.observations] at hcrashes
  · exact Option.ne_none_iff_isSome.trans hcounted.first
  · have hdelivery : state.deliveredAtS.isSome = state.delivered := hcounted.delivery
    change state.deliveredAtS ≠ none ↔ state.delivered = true
    rw [← hdelivery]
    exact Option.ne_none_iff_isSome

/-- Two crashes are seen, the service answers after the first restart, and the limit is two. -/
theorem observeRelayerCrashLoop_law_twice :
    ∃ state, observeRelayerCrashLoop
        ⟨"relayer-b", 60000, none, none, none, some 2, none⟩ 0
        [⟨0, fun _ => false, 1000, .up, false, 0⟩,
          ⟨9000, fun _ => false, 10040, .refused, true, 12000⟩] =
          some (.decided, state) ∧
      state.observation = ⟨2, 1, true, some 1, some 12⟩ ∧
      ∃ made, made <+: [⟨0, fun _ => false, 1000, .up, false, 0⟩,
          ⟨9000, fun _ => false, 10040, .refused, true, 12000⟩] ∧
        state.observation.crashCount = runsOf .down (made.flatMap
          (ObserveCrashLoopOptions.watch
            ⟨"relayer-b", 60000, none, none, none, some 2, none⟩).observed) := by
  have hreturned : observeRelayerCrashLoop
      ⟨"relayer-b", 60000, none, none, none, some 2, none⟩ 0
      [⟨0, fun _ => false, 1000, .up, false, 0⟩,
        ⟨9000, fun _ => false, 10040, .refused, true, 12000⟩] =
        some (.decided, _) := rfl
  obtain ⟨made, rest, hturns, hlaw⟩ :=
    (observeRelayerCrashLoop_law _ (by decide) _ _).1 _ _ hreturned
  exact ⟨_, hreturned, by decide +kernel, made, ⟨rest, hturns.symm⟩, hlaw.crashCount⟩

end RaylsSuite.TestUtils
