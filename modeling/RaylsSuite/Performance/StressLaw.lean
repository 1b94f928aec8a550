import RaylsSuite.Performance.StressTests

/-! # What a passed stress test says

The balances are read at different times, between which deliveries go on. As
nothing is sent any more, what was read is never more than what is there, so it
adds up to what was minted only when nothing is on its way.
-/

namespace RaylsSuite.Performance

open Foundation

/-! ## Tests that are well posed -/

namespace StressTest

/-- Every transfer is worth something and stays among the balances that are added up. -/
structure WellPosed (test : StressTest) : Prop where
  nodup : ∀ accounts ∈ test.balances, accounts.Nodup
  inside : ∀ loop ∈ test.loops, ∀ accounts ∈ test.balances,
    loop.sender ∈ accounts ↔ loop.receiver ∈ accounts
  covered : ∀ loop ∈ test.loops, ∃ accounts ∈ test.balances, loop.receiver ∈ accounts
  positive : ∀ loop ∈ test.loops, 0 < loop.amount

theorem wellPosed_of_mem {test : StressTest} (htest : test ∈ stressTests) : test.WellPosed := by
  simp only [stressTests, List.mem_cons, List.not_mem_nil, or_false] at htest
  rcases htest with rfl | rfl | rfl | rfl
  all_goals constructor <;> decide

/-- What the loops send from an account. -/
def owed (test : StressTest) (account : StressAccount) : Nat :=
  (test.loops.map fun loop => if loop.sender = account then loop.totalTxs * loop.amount else 0).sum

/-- What the warm-up leaves: nothing is on its way, all that was minted is among the balances, and
the senders have what they are going to send. -/
structure Prepared (test : StressTest) (holdings : Holdings StressAccount) : Prop where
  settled : holdings.inFlight = []
  minted : ∀ accounts ∈ test.balances, holdings.heldIn accounts = test.MINT_AMOUNT
  funded : ∀ account, test.owed account ≤ holdings.held account

end StressTest

/-! ## Steps -/

/-- What a step of a run can do. -/
inductive StressStep (test : StressTest) (state : StressState) : StressLabel → StressState → Prop
  | mined {position : Nat} {sender : SenderLoop} {holdings : Holdings StressAccount}
      (hfound : state.senders[position]? = some sender) (hrunning : sender.running = true)
      (hsend : state.holdings.send sender.loop.parcel = some holdings) :
      StressStep test state (.mined position)
        ⟨holdings, state.senders.set position { sender with i := sender.i + 1 },
          test.afterMined (state.senders.set position { sender with i := sender.i + 1 })
            state.phase⟩
  | threw {position : Nat} {sender : SenderLoop}
      (hfound : state.senders[position]? = some sender) (hrunning : sender.running = true) :
      StressStep test state (.threw position)
        { state with
          senders := state.senders.set position { sender with threw := true }
          phase := StressTest.afterThrow state.phase }
  | settle {position : Nat} {fate : Fate} {holdings : Holdings StressAccount}
      (hsettle : state.holdings.settle position fate = some holdings) :
      StressStep test state (.settle position fate) { state with holdings }
  | read {attempts : Nat} {account : StressAccount} {left : List StressAccount}
      {read : StressAccount → Nat}
      (hphase : state.phase = .polling attempts (account :: left) read) :
      StressStep test state .read { state with
        phase := .polling attempts left
          (Function.update read account (state.holdings.held account)) }
  | readThrows {attempts : Nat} {account : StressAccount} {left : List StressAccount}
      {read : StressAccount → Nat}
      (hphase : state.phase = .polling attempts (account :: left) read) :
      StressStep test state .readThrows { state with phase := test.nextAttempt attempts }
  | compare {attempts : Nat} {read : StressAccount → Nat}
      (hphase : state.phase = .polling attempts [] read) :
      StressStep test state .compare { state with
        phase := if test.addsUp read then .passed else test.nextAttempt attempts }

/-- Every step of the test's machine is one that `StressStep` lists. -/
theorem StressTest.step_cases {test : StressTest} {state next : StressState} {label : StressLabel}
    (hstep : test.step state label = some next) : StressStep test state label next := by
  cases label with
  | mined position =>
      obtain ⟨sender, hfound, hstep⟩ := Option.bind_eq_some_iff.mp hstep
      split at hstep
      next hrunning =>
        obtain ⟨holdings, hsend, hstep⟩ := Option.bind_eq_some_iff.mp hstep
        cases hstep
        exact .mined hfound hrunning hsend
      next => cases hstep
  | threw position =>
      obtain ⟨sender, hfound, hstep⟩ := Option.bind_eq_some_iff.mp hstep
      split at hstep
      next hrunning =>
        cases hstep
        exact .threw hfound hrunning
      next => cases hstep
  | settle position fate =>
      obtain ⟨holdings, hsettle, rfl⟩ := Option.map_eq_some_iff.mp hstep
      exact .settle hsettle
  | read =>
      simp only [StressTest.step] at hstep
      split at hstep
      next hphase =>
        cases hstep
        exact .read hphase
      next => cases hstep
  | readThrows =>
      simp only [StressTest.step] at hstep
      split at hstep
      next hphase =>
        cases hstep
        exact .readThrows hphase
      next => cases hstep
  | compare =>
      simp only [StressTest.step] at hstep
      split at hstep
      next hphase =>
        cases hstep
        exact .compare hphase
      next => cases hstep

/-! ## The invariant -/

/-- What a loop has still to send from an account. -/
def SenderLoop.owes (account : StressAccount) (sender : SenderLoop) : Nat :=
  if sender.loop.sender = account then (sender.loop.totalTxs - sender.i) * sender.loop.amount
  else 0

/-- The loop has sent all its transfers. -/
def SenderLoop.Complete (sender : SenderLoop) : Prop :=
  sender.threw = false ∧ sender.i = sender.loop.totalTxs

/-- What a phase says about the loops and the balances that were read. -/
def StressTest.PhaseInv (test : StressTest) (senders : List SenderLoop)
    (holdings : Holdings StressAccount) : StressPhase → Prop
  | .sending => (∀ sender ∈ senders, sender.threw = false) ∧ senders.all SenderLoop.done = false
  | .polling _ left read => (∀ sender ∈ senders, sender.Complete) ∧
      ∀ account ∈ test.balances.flatten, account ∉ left → read account ≤ holdings.held account
  | .passed => (∀ sender ∈ senders, sender.Complete) ∧
      ∀ accounts ∈ test.balances, holdings.inFlightIn accounts = 0
  | .failed => True

structure StressInv (test : StressTest) (state : StressState) : Prop where
  loops : state.senders.map SenderLoop.loop = test.loops
  counters : ∀ sender ∈ state.senders, sender.i ≤ sender.loop.totalTxs
  parcels : ∀ parcel ∈ state.holdings.inFlight, ∃ loop ∈ test.loops, loop.parcel = parcel
  worth : ∀ accounts ∈ test.balances, state.holdings.worth accounts = test.MINT_AMOUNT
  funded : ∀ account,
    (state.senders.map (SenderLoop.owes account)).sum ≤ state.holdings.held account
  phase : test.PhaseInv state.senders state.holdings state.phase

namespace StressInv

variable {test : StressTest} {state next : StressState} {sender : SenderLoop} {position : Nat}

theorem closed (hinv : StressInv test state) (htest : test.WellPosed)
    {accounts : List StressAccount} (haccounts : accounts ∈ test.balances) :
    state.holdings.Closed accounts := by
  intro parcel hparcel
  obtain ⟨loop, hloop, rfl⟩ := hinv.parcels parcel hparcel
  exact htest.inside loop hloop accounts haccounts

theorem loop_mem (hinv : StressInv test state) (hfound : state.senders[position]? = some sender) :
    sender.loop ∈ test.loops :=
  hinv.loops ▸ List.mem_map_of_mem (List.mem_of_getElem? hfound)

/-- Replacing a sender by one of the same loop keeps the list of loops. -/
theorem loops_set (hinv : StressInv test state) (hfound : state.senders[position]? = some sender)
    {after : SenderLoop} (hloop : after.loop = sender.loop) :
    (state.senders.set position after).map SenderLoop.loop = test.loops := by
  rw [List.map_set, hloop, ← hinv.loops]
  have hlt := (List.getElem?_eq_some_iff.mp hfound).1
  apply List.ext_getElem?
  intro other
  by_cases hother : position = other
  · subst hother
    rw [List.getElem?_set_self (by simpa using hlt), List.getElem?_map, hfound]
    rfl
  · rw [List.getElem?_set_ne hother]

theorem not_complete (hrunning : sender.running = true) : ¬sender.Complete := by
  rintro ⟨hthrew, hcount⟩
  simp [SenderLoop.running, SenderLoop.done, hcount] at hrunning

theorem lt_of_running (hrunning : sender.running = true) :
    sender.threw = false ∧ sender.i < sender.loop.totalTxs := by
  simpa [SenderLoop.running, SenderLoop.done] using hrunning

theorem phase_nextAttempt {senders : List SenderLoop} (holdings : Holdings StressAccount)
    (hcomplete : ∀ sender ∈ senders, sender.Complete) (attempts : Nat) :
    test.PhaseInv senders holdings (test.nextAttempt attempts) := by
  cases attempts with
  | zero => trivial
  | succ attempts => exact ⟨hcomplete, fun account hmem hread => absurd hmem hread⟩

/-- The phase after the loops are awaited satisfies its part of the invariant. -/
theorem phase_awaitLoops {senders : List SenderLoop} (holdings : Holdings StressAccount)
    (hcounters : ∀ sender ∈ senders, sender.i ≤ sender.loop.totalTxs)
    (hthrew : ∀ sender ∈ senders, sender.threw = false) :
    test.PhaseInv senders holdings (test.awaitLoops senders) := by
  unfold StressTest.awaitLoops
  split
  next hdone =>
    apply phase_nextAttempt
    intro sender hsender
    have hall := of_decide_eq_true (List.all_eq_true.mp hdone sender hsender)
    exact ⟨hthrew sender hsender, Nat.le_antisymm (hcounters sender hsender) hall⟩
  next hsome => exact ⟨hthrew, Bool.eq_false_iff.mpr hsome⟩

theorem start {holdings : Holdings StressAccount} (hprepared : test.Prepared holdings) :
    StressInv test (test.start holdings) := by
  have hcounters : ∀ sender ∈ (test.start holdings).senders,
      sender.i ≤ sender.loop.totalTxs ∧ sender.threw = false := by
    intro sender hsender
    obtain ⟨loop, _, rfl⟩ := List.mem_map.mp hsender
    exact ⟨Nat.zero_le _, rfl⟩
  refine ⟨?_, fun sender hsender => (hcounters sender hsender).1, ?_, ?_, ?_, ?_⟩
  · simp [StressTest.start, Function.comp_def]
  · intro parcel hparcel
    have hnone : parcel ∈ holdings.inFlight := hparcel
    rw [hprepared.settled] at hnone
    cases hnone
  · intro accounts haccounts
    rw [← hprepared.minted accounts haccounts]
    exact (Holdings.heldIn_of_settled hprepared.settled accounts).symm
  · intro account
    refine Nat.le_trans (Nat.le_of_eq ?_) (hprepared.funded account)
    simp [StressTest.start, StressTest.owed, SenderLoop.owes, Function.comp_def]
  · exact phase_awaitLoops _ (fun sender hsender => (hcounters sender hsender).1)
      fun sender hsender => (hcounters sender hsender).2

/-- After a send is mined every account still holds what its senders owe. -/
theorem funded_mined {holdings : Holdings StressAccount}
    (hinv : StressInv test state) (hfound : state.senders[position]? = some sender)
    (hrunning : sender.running = true)
    (hsend : state.holdings.send sender.loop.parcel = some holdings) (account : StressAccount) :
    ((state.senders.set position { sender with i := sender.i + 1 }).map
      (SenderLoop.owes account)).sum ≤ holdings.held account := by
  have hfunded := hinv.funded account
  have hsum : ((state.senders.set position { sender with i := sender.i + 1 }).map
      (SenderLoop.owes account)).sum + sender.owes account =
        (state.senders.map (SenderLoop.owes account)).sum +
          SenderLoop.owes account { sender with i := sender.i + 1 } :=
    sum_map_set hfound _
  have hlt := (lt_of_running hrunning).2
  have hheld := (Holdings.send_eq_some hsend).1
  by_cases hsender : sender.loop.sender = account
  · subst hsender
    have hdebited : holdings.held sender.loop.sender + sender.loop.amount =
        state.holdings.held sender.loop.sender := by
      rw [← hheld]
      exact (Holdings.credit_self ..).symm
    have hleft : (sender.loop.totalTxs - sender.i) * sender.loop.amount =
        (sender.loop.totalTxs - (sender.i + 1)) * sender.loop.amount + sender.loop.amount := by
      rw [← Nat.succ_mul]
      congr 1
      omega
    simp only [SenderLoop.owes, if_true, hleft] at hsum
    omega
  · have hkept : holdings.held account = state.holdings.held account := by
      rw [← hheld]
      exact (Holdings.credit_of_ne _ _ (Ne.symm hsender)).symm
    simp only [SenderLoop.owes, if_neg hsender] at hsum
    omega

theorem mined {holdings : Holdings StressAccount} (htest : test.WellPosed)
    (hinv : StressInv test state) (hfound : state.senders[position]? = some sender)
    (hrunning : sender.running = true)
    (hsend : state.holdings.send sender.loop.parcel = some holdings) :
    StressInv test ⟨holdings, state.senders.set position { sender with i := sender.i + 1 },
      test.afterMined (state.senders.set position { sender with i := sender.i + 1 })
        state.phase⟩ := by
  have hcounters : ∀ member ∈ state.senders.set position { sender with i := sender.i + 1 },
      member.i ≤ member.loop.totalTxs := by
    intro member hmember
    rcases List.mem_or_eq_of_mem_set hmember with hold | rfl
    · exact hinv.counters member hold
    · exact (lt_of_running hrunning).2
  refine ⟨hinv.loops_set hfound rfl, hcounters, ?_, ?_, hinv.funded_mined hfound hrunning hsend, ?_⟩
  · intro parcel hparcel
    rw [(Holdings.send_eq_some hsend).2] at hparcel
    rcases List.mem_append.mp hparcel with hold | hnew
    · exact hinv.parcels parcel hold
    · exact ⟨sender.loop, hinv.loop_mem hfound, (List.mem_singleton.mp hnew).symm⟩
  · intro accounts haccounts
    have hinside : sender.loop.parcel.Respects accounts :=
      htest.inside _ (hinv.loop_mem hfound) accounts haccounts
    exact (Holdings.send_worth (htest.nodup accounts haccounts) hinside hsend).trans
      (hinv.worth accounts haccounts)
  · have hphase := hinv.phase
    have hcomplete := fun hall : ∀ member ∈ state.senders, member.Complete =>
      not_complete hrunning (hall sender (List.mem_of_getElem? hfound))
    generalize state.phase = phase at hphase
    cases phase with
    | sending =>
        apply phase_awaitLoops _ hcounters
        have hthrew : sender.threw = false := (lt_of_running hrunning).1
        intro member hmember
        rcases List.mem_or_eq_of_mem_set hmember with hold | rfl
        · exact hphase.1 member hold
        · exact hthrew
    | polling attempts left read => exact absurd hphase.1 hcomplete
    | passed => exact absurd hphase.1 hcomplete
    | failed => trivial

theorem threw (hinv : StressInv test state) (hfound : state.senders[position]? = some sender)
    (hrunning : sender.running = true) :
    StressInv test { state with
      senders := state.senders.set position { sender with threw := true }
      phase := StressTest.afterThrow state.phase } := by
  refine ⟨hinv.loops_set hfound rfl, ?_, hinv.parcels, hinv.worth, ?_, ?_⟩
  · intro member hmember
    rcases List.mem_or_eq_of_mem_set hmember with hold | rfl
    · exact hinv.counters member hold
    · exact hinv.counters sender (List.mem_of_getElem? hfound)
  · intro account
    have hsum : ((state.senders.set position { sender with threw := true }).map
        (SenderLoop.owes account)).sum + sender.owes account =
          (state.senders.map (SenderLoop.owes account)).sum +
            SenderLoop.owes account { sender with threw := true } := sum_map_set hfound _
    exact Nat.le_trans (Nat.le_of_eq (Nat.add_right_cancel hsum)) (hinv.funded account)
  · have hphase := hinv.phase
    have hcomplete := fun hall : ∀ member ∈ state.senders, member.Complete =>
      not_complete hrunning (hall sender (List.mem_of_getElem? hfound))
    generalize state.phase = phase at hphase
    cases phase with
    | sending => trivial
    | polling attempts left read => exact absurd hphase.1 hcomplete
    | passed => exact absurd hphase.1 hcomplete
    | failed => trivial

theorem settle {fate : Fate} {holdings : Holdings StressAccount} (htest : test.WellPosed)
    (hinv : StressInv test state) (hsettle : state.holdings.settle position fate = some holdings) :
    StressInv test { state with holdings } := by
  refine ⟨hinv.loops, hinv.counters, ?_, ?_, ?_, ?_⟩
  · exact fun parcel hparcel =>
      hinv.parcels parcel (Holdings.settle_inFlight_subset hsettle hparcel)
  · intro accounts haccounts
    have hworth := Holdings.settle_worth (htest.nodup accounts haccounts)
      (hinv.closed htest haccounts) hsettle
    exact hworth.trans (hinv.worth accounts haccounts)
  · exact fun account =>
      (hinv.funded account).trans (Holdings.settle_held_le hsettle account)
  · have hphase := hinv.phase
    change test.PhaseInv state.senders holdings state.phase
    generalize state.phase = phase at hphase
    cases phase with
    | sending => exact hphase
    | polling attempts left read =>
        exact ⟨hphase.1, fun account hmem hread =>
          (hphase.2 account hmem hread).trans (Holdings.settle_held_le hsettle account)⟩
    | passed =>
        refine ⟨hphase.1, fun accounts haccounts => ?_⟩
        have hle := Holdings.settle_inFlightIn_le hsettle accounts
        rw [hphase.2 accounts haccounts] at hle
        exact Nat.le_zero.mp hle
    | failed => trivial

/-- A step of the check changes the phase alone. -/
theorem with_phase (hinv : StressInv test state) {phase : StressPhase}
    (hphase : test.PhaseInv state.senders state.holdings phase) :
    StressInv test { state with phase } :=
  ⟨hinv.loops, hinv.counters, hinv.parcels, hinv.worth, hinv.funded, hphase⟩

/-- What was read adds up only when nothing of value is on its way. -/
theorem inFlightIn_of_addsUp (hinv : StressInv test state) {read : StressAccount → Nat}
    (hread : ∀ account ∈ test.balances.flatten, read account ≤ state.holdings.held account)
    (hadds : test.addsUp read = true) {accounts : List StressAccount}
    (haccounts : accounts ∈ test.balances) : state.holdings.inFlightIn accounts = 0 := by
  have hsum : (accounts.map read).sum = test.MINT_AMOUNT :=
    of_decide_eq_true (List.all_eq_true.mp hadds accounts haccounts)
  refine Holdings.inFlightIn_eq_zero (fun account hmem => ?_)
    (hsum.trans (hinv.worth accounts haccounts).symm)
  exact hread account (List.mem_flatten_of_mem haccounts hmem)

theorem step {label : StressLabel} (htest : test.WellPosed) (hinv : StressInv test state)
    (hstep : StressStep test state label next) : StressInv test next := by
  cases hstep with
  | mined hfound hrunning hsend => exact hinv.mined htest hfound hrunning hsend
  | threw hfound hrunning => exact hinv.threw hfound hrunning
  | settle hsettle => exact hinv.settle htest hsettle
  | @read attempts account left read hphase =>
      have hbefore := hphase ▸ hinv.phase
      refine hinv.with_phase ⟨hbefore.1, fun other hmem hother => ?_⟩
      rw [Function.update_apply]
      split
      next hsame => exact hsame ▸ Nat.le_refl _
      next hne =>
        apply hbefore.2 other hmem
        simp [hne, hother]
  | readThrows hphase =>
      have hbefore := hphase ▸ hinv.phase
      exact hinv.with_phase (phase_nextAttempt _ hbefore.1 _)
  | @compare attempts read hphase =>
      have hbefore := hphase ▸ hinv.phase
      apply hinv.with_phase
      split
      next hadds =>
        exact ⟨hbefore.1, fun accounts haccounts => hinv.inFlightIn_of_addsUp
          (fun account hmem => hbefore.2 account hmem List.not_mem_nil) hadds haccounts⟩
      next => exact phase_nextAttempt _ hbefore.1 _

theorem reaches (htest : test.WellPosed) (hinv : StressInv test state)
    (hreach : test.machine.Reaches state next) : StressInv test next :=
  hreach.invariant (StressInv test)
    (fun _ _ _ hbefore hstep => hbefore.step htest (StressTest.step_cases hstep)) hinv

/-- A running loop has the balance for its next transfer. -/
theorem exists_mined (hinv : StressInv test state)
    (hfound : state.senders[position]? = some sender) (hrunning : sender.running = true) :
    ∃ holdings, state.holdings.send sender.loop.parcel = some holdings ∧
      test.step state (.mined position) = some
        ⟨holdings, state.senders.set position { sender with i := sender.i + 1 },
          test.afterMined (state.senders.set position { sender with i := sender.i + 1 })
            state.phase⟩ := by
  have howes : sender.loop.amount ≤ sender.owes sender.loop.sender := by
    have hlt := (lt_of_running hrunning).2
    rw [SenderLoop.owes, if_pos rfl]
    exact Nat.le_mul_of_pos_left _ (Nat.sub_pos_of_lt hlt)
  have hsum : sender.owes sender.loop.sender ≤
      (state.senders.map (SenderLoop.owes sender.loop.sender)).sum :=
    List.le_sum_of_mem (List.mem_map_of_mem (List.mem_of_getElem? hfound))
  have hle := (howes.trans hsum).trans (hinv.funded sender.loop.sender)
  obtain ⟨holdings, hsend⟩ : ∃ holdings, state.holdings.send sender.loop.parcel = some holdings :=
    Holdings.exists_send hle
  refine ⟨holdings, hsend, ?_⟩
  simp only [StressTest.step, hfound, hrunning, hsend, Option.bind_eq_bind, Option.bind_some,
    if_true]

end StressInv

/-! ## Runs that pass -/

section Passing

variable {test : StressTest} {state next : StressState} {attempts : Nat}

/-- Some schedule lets the test pass. -/
def CanPass (test : StressTest) (state : StressState) : Prop :=
  ∃ final, test.machine.Reaches state final ∧ final.phase = .passed

theorem CanPass.of_reaches (hreach : test.machine.Reaches state next) (hpass : CanPass test next) :
    CanPass test state :=
  let ⟨final, hfinal, hphase⟩ := hpass
  ⟨final, hreach.trans hfinal, hphase⟩

theorem reaches_of_step {label : StressLabel} (hstep : test.step state label = some next) :
    test.machine.Reaches state next := .of_step label hstep

theorem CanPass.of_step {label : StressLabel} (hstep : test.step state label = some next)
    (hpass : CanPass test next) : CanPass test state := hpass.of_reaches (reaches_of_step hstep)

variable (test) in
/-- Everything that is on its way can be delivered. -/
theorem reaches_settled (state : StressState) : ∃ holdings,
    test.machine.Reaches state { state with holdings } ∧ holdings.inFlight = [] := by
  generalize hcount : state.holdings.inFlight.length = count
  induction count generalizing state with
  | zero => exact ⟨state.holdings, .refl _ _, List.length_eq_zero_iff.mp hcount⟩
  | succ count ih =>
      obtain ⟨parcel, rest, hflight⟩ := List.exists_cons_of_length_eq_add_one hcount
      obtain ⟨next, hnext⟩ : ∃ next, state.holdings.settle 0 .arrives = some next := by
        simp [Holdings.settle, hflight]
      have hstep : test.step state (.settle 0 .arrives) = some { state with holdings := next } := by
        simp only [StressTest.step, hnext, Option.map_some]
      have hlength : next.inFlight.length = count := by
        obtain ⟨parcel, hperm, _⟩ := Holdings.settle_eq_some hnext
        have hlengths := hperm.length_eq
        rw [hcount, List.length_cons] at hlengths
        omega
      obtain ⟨holdings, hreach, hsettled⟩ := ih { state with holdings := next } hlength
      exact ⟨holdings, (reaches_of_step hstep).trans hreach, hsettled⟩

variable (test attempts) in
/-- The rest of an attempt can be read at once. -/
theorem reaches_read (holdings : Holdings StressAccount) (senders : List SenderLoop)
    (left : List StressAccount) (read : StressAccount → Nat) : ∃ seen,
      test.machine.Reaches ⟨holdings, senders, .polling attempts left read⟩
        ⟨holdings, senders, .polling attempts [] seen⟩ ∧
      ∀ account, seen account = if account ∈ left then holdings.held account else read account := by
  induction left generalizing read with
  | nil => exact ⟨read, .refl _ _, fun account => (if_neg List.not_mem_nil).symm⟩
  | cons first left ih =>
      obtain ⟨seen, hreach, hseen⟩ := ih (Function.update read first (holdings.held first))
      refine ⟨seen, (Machine.Reaches.of_step .read rfl).trans hreach, fun account => ?_⟩
      rw [hseen, Function.update_apply]
      by_cases hfirst : account = first
      · subst hfirst
        rw [if_pos rfl, ite_self, if_pos List.mem_cons_self]
      · simp [hfirst]

/-- From a fresh round of reads the test can pass. -/
theorem canPass_fresh (htest : test.WellPosed) (hinv : StressInv test state)
    {read : StressAccount → Nat}
    (hphase : state.phase = .polling attempts test.balances.flatten read) : CanPass test state := by
  obtain ⟨holdings, hsettles, hsettled⟩ := reaches_settled test state
  have hafter := hinv.reaches htest hsettles
  rw [hphase] at hsettles
  obtain ⟨seen, hreads, hseen⟩ := reaches_read test attempts holdings
    state.senders test.balances.flatten read
  have hadds : test.addsUp seen = true := by
    refine List.all_eq_true.mpr fun accounts haccounts => decide_eq_true ?_
    rw [← hafter.worth accounts haccounts, ← Holdings.heldIn_of_settled hsettled accounts]
    refine congrArg List.sum (List.map_congr_left fun account hmem => ?_)
    exact (hseen account).trans (if_pos (List.mem_flatten_of_mem haccounts hmem))
  refine ⟨⟨holdings, state.senders, .passed⟩,
    (hsettles.trans hreads).step .compare ?_, rfl⟩
  simp only [StressTest.machine, StressTest.step, hadds, if_true]

/-- While an attempt is left the test can pass from any point of its reads. -/
theorem canPass_polling (htest : test.WellPosed) (hinv : StressInv test state)
    {left : List StressAccount} {read : StressAccount → Nat}
    (hphase : state.phase = .polling (attempts + 1) left read) : CanPass test state := by
  obtain ⟨holdings, senders, phase⟩ := state
  obtain rfl : phase = .polling (attempts + 1) left read := hphase
  cases left with
  | nil =>
      have hstep : test.step ⟨holdings, senders, .polling (attempts + 1) [] read⟩ .compare =
        some ⟨holdings, senders, if test.addsUp read then .passed
          else test.nextAttempt (attempts + 1)⟩ := rfl
      have hnext := hinv.step htest (StressTest.step_cases hstep)
      apply CanPass.of_step hstep
      cases hadds : test.addsUp read with
      | true => exact ⟨_, .refl _ _, rfl⟩
      | false =>
          rw [hadds] at hnext
          exact canPass_fresh htest hnext rfl
  | cons account left =>
      have hstep : test.step ⟨holdings, senders, .polling (attempts + 1) (account :: left) read⟩
        .readThrows = some ⟨holdings, senders, test.nextAttempt (attempts + 1)⟩ := rfl
      have hnext := hinv.step htest (StressTest.step_cases hstep)
      exact CanPass.of_step hstep (canPass_fresh htest hnext rfl)

/-- How many transfers are still to be sent. -/
def unsent (senders : List SenderLoop) : Nat :=
  (senders.map fun sender => sender.loop.totalTxs - sender.i).sum

/-- While the loops are sending and none threw the test can pass. -/
theorem canPass_sending (htest : test.WellPosed) (hinv : StressInv test state)
    (hphase : state.phase = .sending) : CanPass test state := by
  generalize hcount : unsent state.senders = count
  induction count using Nat.strong_induction_on generalizing state with
  | _ count ih =>
      have hsending := hphase ▸ hinv.phase
      obtain ⟨sender, hsender, hdone⟩ := List.all_eq_false.mp hsending.2
      have hrunning : sender.running = true := by
        simp [SenderLoop.running, hsending.1 sender hsender, Bool.eq_false_iff.mpr hdone]
      obtain ⟨position, hfound⟩ := List.mem_iff_getElem?.mp hsender
      obtain ⟨holdings, hsend, hstep⟩ := hinv.exists_mined hfound hrunning
      have hnext := hinv.mined htest hfound hrunning hsend
      have hless : unsent (state.senders.set position { sender with i := sender.i + 1 }) <
          count := by
        have hlt := (StressInv.lt_of_running hrunning).2
        have hsum : unsent (state.senders.set position { sender with i := sender.i + 1 }) +
            (sender.loop.totalTxs - sender.i) =
              unsent state.senders + (sender.loop.totalTxs - (sender.i + 1)) :=
          sum_map_set hfound fun sender => sender.loop.totalTxs - sender.i
        omega
      apply CanPass.of_step hstep
      rw [hphase, StressTest.afterMined, StressTest.awaitLoops] at hnext ⊢
      cases hall : (state.senders.set position { sender with i := sender.i + 1 }).all
          SenderLoop.done with
      | true =>
          rw [hall] at hnext
          exact canPass_fresh htest hnext rfl
      | false =>
          rw [hall] at hnext
          exact ih _ hless hnext rfl rfl

end Passing

/-! ## Every reachable state -/

/-- What a run of a stress test keeps to. -/
structure StressSound (test : StressTest) (state : StressState) : Prop where
  bounded : ∀ accounts ∈ test.balances, state.holdings.heldIn accounts ≤ test.MINT_AMOUNT
  /-- No transfer lacks the balance that it sends. -/
  funded : ∀ position sender, state.senders[position]? = some sender → sender.running = true →
    (test.step state (.mined position)).isSome = true
  /-- A test only passes when all transfers were sent and none is on its way. -/
  passed : state.phase = .passed →
    state.senders = test.loops.map (fun loop => ⟨loop, loop.totalTxs, false⟩) ∧
      state.holdings.inFlight = []
  /-- A test that has not thrown can pass, if it has an attempt to make. -/
  completes : (state.phase = .sending ∨ ∃ attempts left read,
    state.phase = .polling attempts left read ∧
      (0 < attempts ∨ left = test.balances.flatten)) → CanPass test state

/-- Senders that are all complete are the loops of the test with all their transfers sent. -/
theorem StressInv.senders_of_complete {test : StressTest} {state : StressState}
    (hinv : StressInv test state) (hcomplete : ∀ sender ∈ state.senders, sender.Complete) :
    state.senders = test.loops.map fun loop => ⟨loop, loop.totalTxs, false⟩ := by
  rw [← hinv.loops, List.map_map]
  refine (List.map_id _).symm.trans (List.map_congr_left fun sender hsender => ?_)
  obtain ⟨loop, i, threw⟩ := sender
  obtain ⟨hthrew, hcount⟩ := hcomplete _ hsender
  change threw = false at hthrew
  change i = loop.totalTxs at hcount
  rw [hthrew, hcount]
  rfl

/-- The invariant implies what the test promises of a state. -/
theorem StressInv.sound {test : StressTest} {state : StressState} (htest : test.WellPosed)
    (hinv : StressInv test state) : StressSound test state where
  bounded accounts haccounts := hinv.worth accounts haccounts ▸ Nat.le_add_right _ _
  funded position sender hfound hrunning := by
    obtain ⟨holdings, _, hstep⟩ := hinv.exists_mined hfound hrunning
    rw [hstep]
    rfl
  passed hphase := by
    have hpassed := hphase ▸ hinv.phase
    refine ⟨hinv.senders_of_complete hpassed.1, List.eq_nil_iff_forall_not_mem.mpr ?_⟩
    intro parcel hparcel
    obtain ⟨loop, hloop, rfl⟩ := hinv.parcels parcel hparcel
    obtain ⟨accounts, haccounts, hreceiver⟩ := htest.covered loop hloop
    have hzero := Holdings.value_eq_zero (hpassed.2 accounts haccounts) hparcel hreceiver
    exact absurd hzero (Nat.ne_of_gt (htest.positive loop hloop))
  completes hphase := by
    rcases hphase with hsending | ⟨attempts, left, read, hpolling, hattempts | rfl⟩
    · exact canPass_sending htest hinv hsending
    · obtain ⟨attempts, rfl⟩ := Nat.exists_eq_add_one.mpr hattempts
      exact canPass_polling htest hinv hpolling
    · exact canPass_fresh htest hinv hpolling

/-- In every interleaving of the loops, the relayers and the reads of the check, no stress test
passes while a transfer is on its way, and each can pass until a loop throws. -/
theorem stressTests_sound (test : StressTest) (htest : test ∈ stressTests)
    (holdings : Holdings StressAccount) (hprepared : test.Prepared holdings) (state : StressState)
    (hreach : test.machine.Reaches (test.start holdings) state) : StressSound test state := by
  have hposed := StressTest.wellPosed_of_mem htest
  exact ((StressInv.start hprepared).reaches hposed hreach).sound hposed

/-- The balances of the duplex test when its warm-up is over. -/
def duplexWarmedUp : Holdings StressAccount where
  held account := if account = ⟨"token1", "A"⟩ ∨ account = ⟨"token2", "B"⟩ then 1000 else 0
  inFlight := []

theorem duplexWarmedUp_prepared : duplex.Prepared duplexWarmedUp where
  settled := rfl
  minted := by decide
  funded account := by
    simp only [StressTest.owed, duplex, duplexWarmedUp, List.map_cons, List.map_nil, List.sum_cons,
      List.sum_nil]
    by_cases hfirst : account = ⟨"token1", "A"⟩
    · subst hfirst
      decide
    · by_cases hsecond : account = ⟨"token2", "B"⟩
      · subst hsecond
        decide
      · simp [Ne.symm hfirst, Ne.symm hsecond]

/-- The duplex test with its first transfer on its way. -/
theorem stressTests_sound_duplex :
    ∃ state, duplex.machine.Reaches (duplex.start duplexWarmedUp) state ∧
      state.holdings.inFlight = [⟨⟨"token1", "A"⟩, ⟨"token1", "B"⟩, 1⟩] ∧
        StressSound duplex state := by
  have hreach : duplex.machine.Reaches (duplex.start duplexWarmedUp) _ :=
    Machine.Reaches.of_step (.mined 0) rfl
  exact ⟨_, hreach, rfl, stressTests_sound duplex List.mem_cons_self duplexWarmedUp
    duplexWarmedUp_prepared _ hreach⟩

end RaylsSuite.Performance
