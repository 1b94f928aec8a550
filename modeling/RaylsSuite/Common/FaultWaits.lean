import RaylsSuite.Common.FaultInjector
import RaylsSuite.Foundation.Deadline

/-! # Waiting for a relayer

A fault takes the relayer down that all tests share. The waits for its crash
and its return, and the one for a fault that fired, ask it in turns until a
deadline. A request that fails only means that the answer is not known yet.
-/

namespace RaylsSuite.Common

open Foundation

/-- `Date.now()` and `setTimeout` in a world. -/
structure Timers (σ : Type) where
  now : σ → Nat
  sleep : Nat → σ → σ

variable {σ : Type}

/-- A check of a wait in turns of at least `pollMs`. -/
structure Wait (σ : Type) where
  check : σ → Bool × σ
  timeoutMs : Nat
  pollMs : Nat
  timeout : JsError

namespace Wait

variable (timers : Timers σ) (wait : Wait σ)

def loop : DeadlineLoop σ := ⟨timers.now, wait.check, timers.sleep wait.pollMs⟩

/-- `Date.now() + timeoutMs`. -/
def deadline (world : σ) : Nat := timers.now world + wait.timeoutMs

/-- The wait within a bound on its turns. -/
def await (fuel : Nat) (world : σ) : Option (Except JsError Unit × σ) :=
  ((wait.loop timers).run (wait.deadline timers world) fuel world).map fun ended =>
    (if ended.1 then .ok () else .error wait.timeout, ended.2)

end Wait

/-- `${ms / 1000}`. -/
def secondsText (ms : Nat) : String :=
  let thousandths := String.ofList (Hex.padStart (ms % 1000).repr.toList 3)
  if ms % 1000 = 0 then (ms / 1000).repr
  else s!"{ms / 1000}." ++ String.ofList (thousandths.toList.rdropWhile (· = '0'))

section Waits

variable (axios : Axios σ)

namespace FaultInjector

variable (injector : FaultInjector) (timeoutMs pollMs : Option Nat)

def waitUntilAlive : Wait σ :=
  let timeoutMs := timeoutMs.getD 60000
  { check := injector.isAlive axios
    timeoutMs
    pollMs := pollMs.getD 1000
    timeout := .new
      s!"FaultInjector: relayer at {injector.baseUrl} not reachable after {timeoutMs}ms" }

def waitForCrash : Wait σ :=
  let timeoutMs := timeoutMs.getD 60000
  { check := fun world =>
      let (alive, world) := injector.isAlive axios world
      (!alive, world)
    timeoutMs
    pollMs := pollMs.getD 2000
    timeout := .new (s!"FaultInjector: relayer at {injector.baseUrl} did not crash within " ++
      s!"{secondsText timeoutMs}s — the fault point may not have been reached") }

end FaultInjector

namespace FaultSession

variable (session : FaultSession) (point : String)

/-- One turn of `assertLiveAfter`: the log is only asked for once the relayer is up. -/
def liveAfter (world : σ) : Bool × σ :=
  match FaultInjector.probe axios session.base world with
  | (false, world) => (false, world)
  | (true, world) =>
      match session.wasTriggered axios point world with
      | (.ok fired, world) => (fired, world)
      | (.error _, world) => (false, world)

def assertLiveAfter (timeoutMs pollMs : Option Nat) : Wait σ :=
  let timeoutMs := timeoutMs.getD 60000
  { check := session.liveAfter axios point
    timeoutMs
    pollMs := pollMs.getD 1000
    timeout := .new (s!"FaultSession[{session.id}].assertLiveAfter({point}): " ++
      s!"relayer never recovered with the expected trigger within {timeoutMs}ms") }

end FaultSession

/-- An error of the probe means that the service is not ready. -/
def waitForCompose (ready : Async σ JsError Bool) (timeoutMs pollMs : Option Nat) : Wait σ :=
  let timeoutMs := timeoutMs.getD 120000
  { check := fun world =>
      match ready world with
      | (.ok answer, world) => (answer, world)
      | (.error _, world) => (false, world)
    timeoutMs
    pollMs := pollMs.getD 1000
    timeout := .new s!"waitForCompose: readiness check did not pass within {timeoutMs}ms" }

end Waits

example : secondsText 60000 = "60" ∧ secondsText 1050 = "1.05" := by decide

/-! ## How the waits end -/

/-- Requests end within their timeouts, and timers neither early nor later than by a delay; none
waits for less than a millisecond. -/
structure Timers.Lawful (timers : Timers σ) (axios : Axios σ) (delay : Nat) : Prop where
  requested : ∀ request world, timers.now world ≤ timers.now (axios request world).2
  answered : ∀ request world,
    timers.now (axios request world).2 ≤ timers.now world + request.timeout
  slept : ∀ ms world, timers.now world + max ms 1 ≤ timers.now (timers.sleep ms world)
  woken : ∀ ms world, timers.now (timers.sleep ms world) ≤ timers.now world + max ms 1 + delay

/-- A wait ends in a turn that succeeds, or at its deadline. -/
structure Wait.Settles (timers : Timers σ) (wait : Wait σ) (Succeeds : σ → σ → Prop)
    (allowance : Nat) (world : σ) (settled : Except JsError Unit × σ) : Prop where
  /-- A bound that allows for all turns is no bound. -/
  bounded : ∀ fuel, wait.timeoutMs + max wait.pollMs 1 ≤ fuel * max wait.pollMs 1 →
    wait.await timers fuel world = some settled
  inTime : timers.now settled.2 < wait.deadline timers world + (max wait.pollMs 1 + allowance)
  /-- It returns from the first turn that succeeds, which begins in time. -/
  returned : settled.1 = .ok () → ∃ n last,
    (wait.loop timers).Vain (wait.deadline timers world) n world last ∧
      timers.now last < wait.deadline timers world ∧ Succeeds last settled.2
  /-- It throws once a turn would begin too late, and none has succeeded. -/
  thrown : ∀ err, settled.1 = .error err → err = wait.timeout ∧ ∃ n,
    (wait.loop timers).Vain (wait.deadline timers world) n world settled.2 ∧
      wait.deadline timers world ≤ timers.now settled.2

section Law

variable {timers : Timers σ} {axios : Axios σ} {delay longest : Nat} {world after : σ}

/-- A check that takes so long at most. -/
def Lasts (timers : Timers σ) (longest : Nat) (check : σ → Bool × σ) : Prop :=
  ∀ world, timers.now world ≤ timers.now (check world).2 ∧
    timers.now (check world).2 ≤ timers.now world + longest

/-- A wait whose check takes a bounded time settles, in time and with one outcome. -/
theorem Wait.exists_settles (wait : Wait σ) {Succeeds : σ → σ → Prop}
    (hlawful : timers.Lawful axios delay) (hlasts : Lasts timers longest wait.check)
    (hsucceeds : ∀ world after, wait.check world = (true, after) → Succeeds world after)
    (world : σ) :
    ∃ settled, wait.Settles timers Succeeds (longest + delay) world settled := by
  have hpaced : (wait.loop timers).Paced (max wait.pollMs 1)
      (max wait.pollMs 1 + (longest + delay)) := by
    constructor <;> intro world <;> obtain ⟨hlater, hlongest⟩ := hlasts world <;>
      have hslept := hlawful.slept wait.pollMs (wait.check world).2 <;>
      have hwoken := hlawful.woken wait.pollMs (wait.check world).2 <;>
      simp only [Wait.loop] <;> omega
  have hpos : 0 < max wait.pollMs 1 := Nat.lt_of_lt_of_le Nat.one_pos (Nat.le_max_right _ _)
  have hends : ∀ n, wait.timeoutMs ≤ n * max wait.pollMs 1 → ∃ ended, ∃ m ≤ n,
      (wait.loop timers).Ends (wait.deadline timers world) m world ended := fun n hn =>
    DeadlineLoop.exists_ends hpaced (Nat.add_le_add_left hn (timers.now world))
  obtain ⟨ended, m, _, hended⟩ := hends wait.timeoutMs (Nat.le_mul_of_pos_right _ hpos)
  have hstart : (wait.loop timers).now world ≤ wait.deadline timers world := Nat.le_add_right _ _
  refine ⟨(if ended.1 then .ok () else .error wait.timeout, ended.2), ?_, ?_, ?_, ?_⟩
  · intro fuel hfuel
    obtain ⟨turns, rfl⟩ : ∃ turns, fuel = turns + 1 :=
      Nat.exists_eq_succ_of_ne_zero fun hzero => by simp [hzero] at hfuel
    rw [Nat.succ_mul] at hfuel
    obtain ⟨other, k, hk, hother⟩ := hends turns (Nat.le_of_add_le_add_right hfuel)
    obtain rfl := hended.unique hother
    rw [Wait.await, hother.run_eq (Nat.lt_succ_of_le hk)]
    rfl
  · exact hended.now_lt hpaced hstart (Nat.lt_of_lt_of_le hpos (Nat.le_add_right _ _))
  · intro hok
    cases hended with
    | met hvain hbefore hcheck => exact ⟨m, _, hvain, hbefore, hsucceeds _ _ hcheck⟩
    | missed => cases hok
  · intro err herr
    cases hended with
    | met => cases herr
    | missed hvain hlate => exact ⟨(Except.error.inj herr).symm, m, hvain, hlate⟩

/-- The relayer's interface answers that it is up. -/
def Alive (axios : Axios σ) (base : String) (world after : σ) : Prop :=
  ∃ response, axios ⟨.get, s!"{base}/sessions", none, 2000⟩ world = (.ok response, after) ∧
    response.status = 200

/-- The session's log shows that the point was hit. -/
def Fired (axios : Axios σ) (session : FaultSession) (point : String) (world after : σ) : Prop :=
  ∃ response, axios (session.request .status) world = (.ok response, after) ∧
    ∃ event ∈ response.data.log.getD [], event.point = point

/-- A probe that succeeds has seen the relayer up. -/
theorem alive_of_probe {base : String}
    (hprobe : FaultInjector.probe axios base world = (true, after)) :
    Alive axios base world after := by
  unfold FaultInjector.probe at hprobe
  split at hprobe
  next response middle hget =>
    obtain ⟨hstatus, rfl⟩ := Prod.mk.inj hprobe
    exact ⟨response, hget, of_decide_eq_true hstatus⟩
  next => cases hprobe

/-- The relayer's interface does not answer that it is up. -/
def Down (axios : Axios σ) (base : String) (world after : σ) : Prop :=
  ∃ reply, axios ⟨.get, s!"{base}/sessions", none, 2000⟩ world = (reply, after) ∧
    ∀ response, reply = .ok response → response.status ≠ 200

/-- A probe that fails has seen it down. -/
theorem down_of_probe {base : String}
    (hprobe : FaultInjector.probe axios base world = (false, after)) :
    Down axios base world after := by
  unfold FaultInjector.probe at hprobe
  split at hprobe
  next response middle hget =>
    obtain ⟨hstatus, rfl⟩ := Prod.mk.inj hprobe
    refine ⟨_, hget, fun other hother => ?_⟩
    obtain rfl := Except.ok.inj hother
    exact of_decide_eq_false hstatus
  next hget =>
    obtain ⟨_, rfl⟩ := Prod.mk.inj hprobe
    exact ⟨_, hget, fun _ hok => by cases hok⟩

variable (axios) in
theorem status_eq (session : FaultSession) (world : σ) :
    (∃ response after, axios (session.request .status) world = (.ok response, after) ∧
      session.status axios world = (.ok response, after)) ∨
    ∃ err other after, axios (session.request .status) world = (.error err, after) ∧
      session.status axios world = (.error other, after) := by
  unfold FaultSession.status FaultSession.call
  rcases hget : axios (session.request .status) world with ⟨err | response, after⟩
  · exact .inr ⟨err, _, after, rfl, rfl⟩
  · exact .inl ⟨response, after, rfl, rfl⟩

/-- The log that was read shows the point. -/
theorem fired_of_wasTriggered {session : FaultSession} {point : String}
    (hfired : session.wasTriggered axios point world = (.ok true, after)) :
    Fired axios session point world after := by
  unfold FaultSession.wasTriggered at hfired
  rcases status_eq axios session world with
    ⟨response, middle, hget, hstatus⟩ | ⟨err, other, middle, hget, hstatus⟩
  · rw [hstatus] at hfired
    obtain ⟨hany, rfl⟩ := Prod.mk.inj hfired
    obtain ⟨event, hevent, hpoint⟩ := List.any_eq_true.mp (Except.ok.inj hany)
    exact ⟨response, hget, event, hevent, of_decide_eq_true hpoint⟩
  · rw [hstatus] at hfired
    cases hfired

theorem wasTriggered_snd (session : FaultSession) (point : String) (world : σ) :
    (session.wasTriggered axios point world).2 = (axios (session.request .status) world).2 := by
  unfold FaultSession.wasTriggered
  rcases status_eq axios session world with
    ⟨response, middle, hget, hstatus⟩ | ⟨err, other, middle, hget, hstatus⟩ <;>
    rw [hget, hstatus]

theorem lasts_probe (hlawful : timers.Lawful axios delay) (base : String) :
    Lasts timers 2000 (FaultInjector.probe axios base) := by
  intro world
  have hrequested := hlawful.requested ⟨.get, s!"{base}/sessions", none, 2000⟩ world
  have hanswered := hlawful.answered ⟨.get, s!"{base}/sessions", none, 2000⟩ world
  unfold FaultInjector.probe
  split <;> next hget => rw [hget] at hrequested hanswered; exact ⟨hrequested, hanswered⟩

variable (axios) in
theorem liveAfter_snd (session : FaultSession) (point : String) (world : σ) :
    (session.liveAfter axios point world).2 = (FaultInjector.probe axios session.base world).2 ∨
      (session.liveAfter axios point world).2 =
        (axios (session.request .status) (FaultInjector.probe axios session.base world).2).2 := by
  unfold FaultSession.liveAfter
  rcases hprobe : FaultInjector.probe axios session.base world with ⟨up, middle⟩
  cases up with
  | false => exact .inl rfl
  | true =>
      refine .inr ?_
      rw [← wasTriggered_snd session point middle]
      dsimp only
      rcases session.wasTriggered axios point middle with ⟨err | fired, after⟩ <;> rfl

/-- A turn takes two requests at most. -/
theorem lasts_liveAfter (hlawful : timers.Lawful axios delay) (session : FaultSession)
    (point : String) : Lasts timers 7000 (session.liveAfter axios point) := by
  intro world
  obtain ⟨hprobed, hprobe⟩ := lasts_probe hlawful session.base world
  have hrequested := hlawful.requested (session.request .status)
    (FaultInjector.probe axios session.base world).2
  have hanswered := hlawful.answered (session.request .status)
    (FaultInjector.probe axios session.base world).2
  have htimeout : (session.request .status).timeout = 5000 := rfl
  rcases liveAfter_snd axios session point world with heq | heq <;> rw [heq] <;> omega

/-- A turn of `assertLiveAfter` succeeds on a relayer that is up and shows the point. -/
theorem fired_of_liveAfter {session : FaultSession} {point : String}
    (hlive : session.liveAfter axios point world = (true, after)) :
    ∃ middle, Alive axios session.base world middle ∧ Fired axios session point middle after := by
  unfold FaultSession.liveAfter at hlive
  split at hlive
  next => cases hlive
  next middle hprobe =>
    refine ⟨middle, alive_of_probe hprobe, ?_⟩
    split at hlive
    next fired other hfired =>
      obtain ⟨rfl, rfl⟩ := Prod.mk.inj hlive
      exact fired_of_wasTriggered hfired
    next => cases hlive

/-- A readiness check of bounded length is asked until it says so, whatever it throws meanwhile. -/
theorem waitForCompose_settles (hlawful : timers.Lawful axios delay)
    (ready : Async σ JsError Bool) (timeoutMs pollMs : Option Nat)
    (hready : ∀ world, timers.now world ≤ timers.now (ready world).2 ∧
      timers.now (ready world).2 ≤ timers.now world + longest) (world : σ) :
    ∃ settled, (waitForCompose ready timeoutMs pollMs).Settles timers
      (fun world after => ready world = (.ok true, after)) (longest + delay) world settled := by
  apply Wait.exists_settles _ hlawful
  · intro world
    have hcheck : ((waitForCompose ready timeoutMs pollMs).check world).2 = (ready world).2 := by
      simp only [waitForCompose]
      split <;> next hreply => rw [hreply]
    rw [hcheck]
    exact hready world
  · intro world after hcheck
    simp only [waitForCompose] at hcheck
    split at hcheck
    next answer middle hreply =>
      obtain ⟨rfl, rfl⟩ := Prod.mk.inj hcheck
      exact hreply
    next => cases hcheck

end Law

/-- The waits end, in time and with one outcome: at their first turn that finds the relayer up or
down, or up and then the point in the session's log, or else with their error at the deadline. -/
theorem faultWaits_settle (timers : Timers σ) (axios : Axios σ) (delay : Nat)
    (hlawful : timers.Lawful axios delay) (injector : FaultInjector) (session : FaultSession)
    (point : String) (timeoutMs pollMs : Option Nat) (world : σ) :
    (∃ settled, (injector.waitUntilAlive axios timeoutMs pollMs).Settles timers
      (Alive axios injector.baseUrl) (2000 + delay) world settled) ∧
    (∃ settled, (injector.waitForCrash axios timeoutMs pollMs).Settles timers
      (Down axios injector.baseUrl) (2000 + delay) world settled) ∧
    ∃ settled, (session.assertLiveAfter axios point timeoutMs pollMs).Settles timers
      (fun world after => ∃ middle, Alive axios session.base world middle ∧
        Fired axios session point middle after) (7000 + delay) world settled := by
  refine ⟨Wait.exists_settles _ hlawful ?_ ?_ world, Wait.exists_settles _ hlawful ?_ ?_ world,
    Wait.exists_settles _ hlawful ?_ ?_ world⟩
  · exact lasts_probe hlawful injector.baseUrl
  · exact fun _ _ => alive_of_probe
  · exact lasts_probe hlawful injector.baseUrl
  · intro world after hcheck
    rcases hprobe : injector.isAlive axios world with ⟨up, middle⟩
    simp only [FaultInjector.waitForCrash, hprobe, Prod.mk.injEq, Bool.not_eq_true'] at hcheck
    obtain ⟨rfl, rfl⟩ := hcheck
    exact down_of_probe hprobe
  · exact lasts_liveAfter hlawful session point
  · exact fun _ _ => fired_of_liveAfter

/-- A world that is only a clock; the relayer is up from the fifth second on. -/
def slowRelayer : Axios Nat := fun request now =>
  if now < 5000 then (.error ⟨none, "connect ECONNREFUSED"⟩, now + min request.timeout 3)
  else (.ok ⟨200, ⟨none, none, "", ""⟩⟩, now + min request.timeout 3)

def exactTimers : Timers Nat := ⟨id, fun ms now => now + max ms 1⟩

theorem exactTimers_lawful : exactTimers.Lawful slowRelayer 0 where
  requested request now := by
    simp only [slowRelayer, exactTimers, id]
    split <;> exact Nat.le_add_right now _
  answered request now := by
    simp only [slowRelayer, exactTimers, id]
    split <;> exact Nat.add_le_add_left (Nat.min_le_left _ _) now
  slept _ _ := Nat.le_refl _
  woken _ _ := Nat.le_refl _

theorem faultWaits_settle_starting :
    ∃ settled, ((⟨"http://relayer-a:6660"⟩ : FaultInjector).waitUntilAlive slowRelayer none
      none).Settles exactTimers (Alive slowRelayer "http://relayer-a:6660") 2000 0 settled :=
  (faultWaits_settle exactTimers slowRelayer 0 exactTimers_lawful ⟨"http://relayer-a:6660"⟩
    ⟨"http://relayer-a:6660", "a"⟩ "point" none none 0).1

end RaylsSuite.Common
