import Mathlib.Order.Basic
import RaylsSuite.Common.WalletFactory
import RaylsSuite.Foundation.Convergence
import RaylsSuite.Runner.Bootstrap

/-! # The bootstrap process

The process grants ADMIN to the worker wallets and then funds them. In both
phases it works on all target chains at once and on the wallets of one chain in
order. It ends with code 0 only if no chain threw; a chain without a
proxy-registry address is left out of the grants, not of the funding.
-/

namespace RaylsSuite.Runner

open Foundation Common

/-! ## Target chains -/

/-- The state of the worker wallets on a chain. The seed wallet is ADMIN and has funds. -/
structure Chain where
  isAdmin : Wallet → Bool
  balance : Wallet → Nat

instance : Preorder Chain := Preorder.lift fun chain => (chain.isAdmin, chain.balance)

theorem Chain.le_def {chain later : Chain} : chain ≤ later ↔
    (∀ wallet, chain.isAdmin wallet ≤ later.isAdmin wallet) ∧
      ∀ wallet, chain.balance wallet ≤ later.balance wallet :=
  Iff.rfl

/-- The transactions of the seed wallet. -/
inductive SeedTransaction where
  | grantRole (account : Wallet)
  | sendTransaction (recipient : Wallet) (value : Nat)
deriving DecidableEq, Repr

def Chain.execute (chain : Chain) : SeedTransaction → Chain
  | .grantRole account => { chain with
      isAdmin := fun wallet => wallet == account || chain.isAdmin wallet }
  | .sendTransaction recipient value => { chain with
      balance := fun wallet =>
        if wallet = recipient then chain.balance wallet + value else chain.balance wallet }

theorem Chain.le_execute (chain : Chain) (transaction : SeedTransaction) :
    chain ≤ chain.execute transaction := by
  cases transaction with
  | grantRole account =>
      refine Chain.le_def.mpr ⟨fun wallet hadmin => ?_, fun wallet => le_rfl⟩
      simp [Chain.execute, hadmin]
  | sendTransaction recipient value =>
      refine Chain.le_def.mpr ⟨fun wallet => le_rfl, fun wallet => ?_⟩
      simp only [Chain.execute]
      split <;> omega

theorem Chain.execute_mono {chain later : Chain} (transaction : SeedTransaction)
    (hle : chain ≤ later) : chain.execute transaction ≤ later.execute transaction := by
  obtain ⟨hadmin, hbalance⟩ := Chain.le_def.mp hle
  cases transaction with
  | grantRole account =>
      refine Chain.le_def.mpr ⟨fun wallet hold => ?_, hbalance⟩
      rcases Bool.or_eq_true_iff.mp hold with hwallet | hold
      · simp [Chain.execute, hwallet]
      · simp [Chain.execute, hadmin wallet hold]
  | sendTransaction recipient value =>
      refine Chain.le_def.mpr ⟨hadmin, fun wallet => ?_⟩
      have := hbalance wallet
      simp only [Chain.execute]
      split <;> omega

/-- The chains by label. -/
abbrev Chains : Type := String → Chain

/-- A worker wallet on the chain with a label. -/
abbrev Account : Type := String × Wallet

def seedEffects : Effects Chains (String × SeedTransaction) where
  apply chains sent := Function.update chains sent.1 ((chains sent.1).execute sent.2)
  le_apply chains sent label := by
    by_cases hlabel : label = sent.1
    · subst hlabel
      simpa using Chain.le_execute _ _
    · simp [hlabel]
  apply_mono chains later sent hle label := by
    by_cases hlabel : label = sent.1
    · subst hlabel
      simpa using Chain.execute_mono _ (hle sent.1)
    · simpa [hlabel] using hle label

/-! ## The two loops -/

/-- `parseEther('5')`. -/
def FUND_TARGET_WEI : Nat := 5000000000000000000

/-- `parseEther('1')`. -/
def FUND_MIN_WEI : Nat := 1000000000000000000

/-- The body of the loop of `bootstrapNode`. -/
def grantTask : Task seedEffects Account where
  needs chains account :=
    if (chains account.1).isAdmin account.2 then none
    else some (account.1, .grantRole account.2)
  needs_mono chains later account hle := by
    simp only [ite_eq_left_iff, reduceCtorEq, imp_false, Bool.not_eq_true, Bool.not_eq_false]
    exact (Chain.le_def.mp (hle account.1)).1 account.2
  needs_apply chains account sent := by
    split
    next => intro hsent; cases hsent
    next =>
      rintro ⟨⟩
      simp [seedEffects, Chain.execute]

/-- The body of the loop of `fundNode`. -/
def fundTask : Task seedEffects Account where
  needs chains account :=
    if FUND_MIN_WEI ≤ (chains account.1).balance account.2 then none
    else some (account.1, .sendTransaction account.2
      (FUND_TARGET_WEI - (chains account.1).balance account.2))
  needs_mono chains later account hle := by
    simp only [ite_eq_left_iff, reduceCtorEq, imp_false, not_not]
    exact fun hfunded => hfunded.trans ((Chain.le_def.mp (hle account.1)).2 account.2)
  needs_apply chains account sent := by
    split
    next => intro hsent; cases hsent
    next hpoor =>
      rintro ⟨⟩
      have htopUp : FUND_MIN_WEI ≤ (chains account.1).balance account.2 +
          (FUND_TARGET_WEI - (chains account.1).balance account.2) := by
        simp only [FUND_MIN_WEI, FUND_TARGET_WEI] at hpoor ⊢
        omega
      simpa [seedEffects, Chain.execute] using htopUp

/-! ## The process -/

/-- The environment of the process. -/
structure BootstrapProcess where
  PARALLEL_WORKERS : Option String
  activeNodes : List String
  DEPLOYMENT_PROXY_REGISTRY_ADDRESS : String → Option String

abbrev SeedLane : Type := Lane Account (String × SeedTransaction)

inductive BootstrapPhase where
  | granting (workerAddresses : List Wallet)
  | funding (workerAddresses : List Wallet)
  | exited (code : Nat)
deriving DecidableEq, Repr

/-- The loop that a phase runs on every chain. -/
def BootstrapPhase.task : BootstrapPhase → Option (Task seedEffects Account)
  | .granting _ => some grantTask
  | .funding _ => some fundTask
  | .exited _ => none

/-- `sent` are the transactions that the seed wallet has sent. -/
structure BootstrapState where
  phase : BootstrapPhase
  lanes : List SeedLane
  chains : Chains
  sent : List (String × SeedTransaction)

/-- The worker addresses; an index that cannot be derived throws. -/
def workerAddresses (workerCount : Nat) : Option (List Wallet) :=
  if ∀ workerId < workerCount, (deriveWorkerWallet .admin workerId).Valid then
    some ((List.range workerCount).map workerAdminWallet)
  else none

def accounts (addresses : List Wallet) (label : String) : List Account :=
  addresses.map fun address => (label, address)

def fundNode (addresses : List Wallet) (label : String) : SeedLane :=
  .next (accounts addresses label)

def BootstrapState.allReturned (state : BootstrapState) : Bool := state.lanes.all Lane.isReturned

/-- The second `Promise.all` and what follows it. -/
def BootstrapState.afterFunding (state : BootstrapState) : BootstrapState :=
  if state.allReturned then { state with phase := .exited 0 } else state

namespace BootstrapProcess

def targets (process : BootstrapProcess) : List String := process.activeNodes ++ ["PNH"]

def hasProxy (process : BootstrapProcess) (label : String) : Bool :=
  Text.orElse (process.DEPLOYMENT_PROXY_REGISTRY_ADDRESS label) "" ≠ ""

/-- Without a proxy-registry address the call returns before its first await. -/
def bootstrapNode (process : BootstrapProcess) (addresses : List Wallet) (label : String) :
    SeedLane :=
  if process.hasProxy label then .opening (accounts addresses label) else .returned

/-- The first `Promise.all` and what follows it. -/
def afterGrants (process : BootstrapProcess) (addresses : List Wallet) (state : BootstrapState) :
    BootstrapState :=
  if state.allReturned then
    BootstrapState.afterFunding { state with
      phase := .funding addresses
      lanes := process.targets.map (fundNode addresses) }
  else state

def advance (process : BootstrapProcess) (state : BootstrapState) : BootstrapState :=
  match state.phase with
  | .granting addresses => process.afterGrants addresses state
  | .funding _ => state.afterFunding
  | .exited _ => state

/-- `main` up to its first await. -/
def main (process : BootstrapProcess) (chains : Chains) : BootstrapState :=
  match (parseWorkerCount process.PARALLEL_WORKERS).bind workerAddresses with
  | none => ⟨.exited 1, [], chains, []⟩
  | some addresses => process.advance
      ⟨.granting addresses, process.targets.map (process.bootstrapNode addresses), chains, []⟩

/-- An await of the call for the target at a position ends. The first call that throws ends the
process with code 1. -/
def step (process : BootstrapProcess) (state : BootstrapState) (event : Nat × Reply) :
    Option BootstrapState :=
  state.phase.task.bind fun task =>
    state.lanes[event.1]?.bind fun lane =>
      (lane.resume task state.chains event.2).map fun turn =>
        match turn.lane with
        | none => { state with
            phase := .exited 1
            chains := turn.world
            sent := state.sent ++ turn.sent }
        | some resumed => process.advance { state with
            lanes := state.lanes.set event.1 resumed
            chains := turn.world
            sent := state.sent ++ turn.sent }

def machine (process : BootstrapProcess) : Machine BootstrapState (Nat × Reply) := ⟨process.step⟩

end BootstrapProcess

/-! ## What the process leaves behind -/

/-- The worker addresses of the process. -/
def BootstrapProcess.Addresses (process : BootstrapProcess) (addresses : List Wallet) : Prop :=
  (parseWorkerCount process.PARALLEL_WORKERS).bind workerAddresses = some addresses

/-- Every account is settled, on chains without a registry address up to ADMIN. -/
structure BootstrapProcess.Settled (process : BootstrapProcess) (addresses : List Wallet)
    (chains : Chains) : Prop where
  granted : ∀ label ∈ process.targets, process.hasProxy label = true →
    grantTask.Settled chains (accounts addresses label)
  funded : ∀ label ∈ process.targets, fundTask.Settled chains (accounts addresses label)

/-- The lanes of a phase cover what it has not settled yet. -/
def BootstrapProcess.Inv (process : BootstrapProcess) (state : BootstrapState) : Prop :=
  match state.phase with
  | .granting addresses => process.Addresses addresses ∧
      ∀ label ∈ process.targets, process.hasProxy label = true →
        Covered grantTask state.chains state.lanes (accounts addresses label)
  | .funding addresses => process.Addresses addresses ∧
      (∀ label ∈ process.targets, process.hasProxy label = true →
        grantTask.Settled state.chains (accounts addresses label)) ∧
      ∀ label ∈ process.targets,
        Covered fundTask state.chains state.lanes (accounts addresses label)
  | .exited code => code = 0 →
      ∃ addresses, process.Addresses addresses ∧ process.Settled addresses state.chains

variable {process : BootstrapProcess} {state next : BootstrapState} {event : Nat × Reply}

theorem BootstrapProcess.Inv.afterFunding {addresses : List Wallet} (hinv : process.Inv state)
    (hphase : state.phase = .funding addresses) : process.Inv state.afterFunding := by
  obtain ⟨phase, lanes, chains, sent⟩ := state
  obtain rfl : phase = .funding addresses := hphase
  obtain ⟨haddresses, hgranted, hcovered⟩ := hinv
  unfold BootstrapState.afterFunding
  split
  next hreturned =>
    exact fun _ => ⟨addresses, haddresses, hgranted,
      fun label hlabel => (hcovered label hlabel).returned hreturned⟩
  next => exact ⟨haddresses, hgranted, hcovered⟩

theorem BootstrapProcess.Inv.advance (hinv : process.Inv state) :
    process.Inv (process.advance state) := by
  obtain ⟨phase, lanes, chains, sent⟩ := state
  cases phase with
  | granting addresses =>
      obtain ⟨haddresses, hcovered⟩ := hinv
      simp only [BootstrapProcess.advance, afterGrants]
      split
      next hreturned =>
        have hfunding : process.Inv ⟨.funding addresses, process.targets.map (fundNode addresses),
            chains, sent⟩ := by
          refine ⟨haddresses, fun label hlabel hproxy =>
            (hcovered label hlabel hproxy).returned hreturned, fun label hlabel => ?_⟩
          exact ⟨fundNode addresses label, List.mem_map_of_mem hlabel, Lane.covers_next⟩
        exact hfunding.afterFunding rfl
      next => exact ⟨haddresses, hcovered⟩
  | funding addresses => exact hinv.afterFunding rfl
  | exited code => exact hinv

theorem BootstrapProcess.inv_main (process : BootstrapProcess) (chains : Chains) :
    process.Inv (process.main chains) := by
  unfold main
  split
  next => exact fun hcode => by cases hcode
  next addresses haddresses =>
    refine Inv.advance ⟨haddresses, fun label hlabel hproxy => ?_⟩
    refine ⟨process.bootstrapNode addresses label, List.mem_map_of_mem hlabel, ?_⟩
    rw [bootstrapNode, if_pos hproxy]
    exact Lane.covers_opening

/-- What one reply does: the resumed call throws, or it goes on and the phase may be over. -/
theorem BootstrapProcess.step_cases (hstep : process.step state event = some next) :
    ∃ task lane turn, state.phase.task = some task ∧ state.lanes[event.1]? = some lane ∧
      lane.resume task state.chains event.2 = some turn ∧
      ((turn.lane = none ∧ next = { state with
          phase := .exited 1
          chains := turn.world
          sent := state.sent ++ turn.sent }) ∨
        ∃ resumed, turn.lane = some resumed ∧ next = process.advance { state with
          lanes := state.lanes.set event.1 resumed
          chains := turn.world
          sent := state.sent ++ turn.sent }) := by
  obtain ⟨task, htask, hstep⟩ := Option.bind_eq_some_iff.mp hstep
  obtain ⟨lane, hlane, hstep⟩ := Option.bind_eq_some_iff.mp hstep
  obtain ⟨turn, hturn, hnext⟩ := Option.map_eq_some_iff.mp hstep
  refine ⟨task, lane, turn, htask, hlane, hturn, ?_⟩
  cases hresumed : turn.lane with
  | none => exact Or.inl ⟨rfl, by rw [← hnext, hresumed]⟩
  | some resumed => exact Or.inr ⟨resumed, rfl, by rw [← hnext, hresumed]⟩

theorem BootstrapProcess.Inv.step (hinv : process.Inv state)
    (hstep : process.step state event = some next) : process.Inv next := by
  obtain ⟨task, lane, turn, htask, hlane, hturn, hnext⟩ := process.step_cases hstep
  obtain ⟨phase, lanes, chains, sent⟩ := state
  rcases hnext with ⟨-, rfl⟩ | ⟨resumed, hresumed, rfl⟩
  · exact fun hcode => by cases hcode
  refine Inv.advance ?_
  cases phase with
  | granting addresses =>
      obtain rfl := Option.some.inj htask
      obtain ⟨haddresses, hcovered⟩ := hinv
      exact ⟨haddresses, fun label hlabel hproxy =>
        (hcovered label hlabel hproxy).resume hlane hturn hresumed⟩
  | funding addresses =>
      obtain rfl := Option.some.inj htask
      obtain ⟨haddresses, hgranted, hcovered⟩ := hinv
      exact ⟨haddresses,
        fun label hlabel hproxy => (hgranted label hlabel hproxy).mono
          (Lane.world_le_resume hturn),
        fun label hlabel => (hcovered label hlabel).resume hlane hturn hresumed⟩
  | exited code => cases htask

theorem BootstrapProcess.settled_of_exited (process : BootstrapProcess) {chains : Chains}
    {schedule : List (Nat × Reply)} {final : BootstrapState}
    (hrun : process.machine.run (process.main chains) schedule = some final)
    (hexit : final.phase = .exited 0) :
    ∃ addresses, process.Addresses addresses ∧ process.Settled addresses final.chains := by
  have hinv := Machine.run_invariant process.Inv (fun _ _ _ hinv hstep => hinv.step hstep)
    (process.inv_main chains) hrun
  rw [Inv, hexit] at hinv
  exact hinv rfl

/-! ## Running it again -/

/-- Nothing has been sent and nothing is left to do. -/
structure BootstrapProcess.Quiet (process : BootstrapProcess) (addresses : List Wallet)
    (chains : Chains) (state : BootstrapState) : Prop where
  chains_eq : state.chains = chains
  sent_eq : state.sent = []
  phase : state.phase = .granting addresses ∨ state.phase = .funding addresses ∨
    ∃ code, state.phase = .exited code
  lanes : ∀ task, state.phase.task = some task → ∀ lane ∈ state.lanes, lane.Quiet task chains

variable {addresses : List Wallet} {chains : Chains}

theorem BootstrapProcess.Quiet.afterFunding (hquiet : process.Quiet addresses chains state) :
    process.Quiet addresses chains state.afterFunding := by
  unfold BootstrapState.afterFunding
  split
  next => exact ⟨hquiet.chains_eq, hquiet.sent_eq, Or.inr (Or.inr ⟨0, rfl⟩),
    fun _ htask => by cases htask⟩
  next => exact hquiet

theorem BootstrapProcess.Quiet.advance (hsettled : process.Settled addresses chains)
    (hquiet : process.Quiet addresses chains state) :
    process.Quiet addresses chains (process.advance state) := by
  unfold BootstrapProcess.advance
  split
  next granted hphase =>
    obtain rfl : granted = addresses := by simpa [hphase] using hquiet.phase
    unfold afterGrants
    split
    next =>
      refine Quiet.afterFunding ⟨hquiet.chains_eq, hquiet.sent_eq, Or.inr (Or.inl rfl), ?_⟩
      rintro task htask lane hlane
      obtain rfl := Option.some.inj htask
      obtain ⟨label, hlabel, rfl⟩ := List.mem_map.mp hlane
      exact Lane.quiet_next (hsettled.funded label hlabel)
    next => exact hquiet
  next => exact hquiet.afterFunding
  next => exact hquiet

theorem BootstrapProcess.quiet_main (haddresses : process.Addresses addresses)
    (hsettled : process.Settled addresses chains) :
    process.Quiet addresses chains (process.main chains) := by
  unfold main
  rw [show (parseWorkerCount process.PARALLEL_WORKERS).bind workerAddresses = some addresses
    from haddresses]
  refine Quiet.advance hsettled ⟨rfl, rfl, Or.inl rfl, ?_⟩
  rintro task htask lane hlane
  obtain rfl := Option.some.inj htask
  obtain ⟨label, hlabel, rfl⟩ := List.mem_map.mp hlane
  unfold bootstrapNode
  split
  next hproxy => exact ⟨hsettled.granted label hlabel hproxy, fun _ _ _ heq => by cases heq⟩
  next => exact ⟨fun _ hmem => absurd hmem List.not_mem_nil, fun _ _ _ heq => by cases heq⟩

theorem BootstrapProcess.Quiet.step (hsettled : process.Settled addresses chains)
    (hquiet : process.Quiet addresses chains state)
    (hstep : process.step state event = some next) : process.Quiet addresses chains next := by
  obtain ⟨task, lane, turn, htask, hlane, hturn, hnext⟩ := process.step_cases hstep
  have hlanes := hquiet.lanes task htask
  rw [hquiet.chains_eq] at hturn
  obtain ⟨hworld, hsent, hresume⟩ := (hlanes lane (List.mem_of_getElem? hlane)).resume hturn
  have hsilent : state.sent ++ turn.sent = [] := by rw [hquiet.sent_eq, hsent]; rfl
  rcases hnext with ⟨-, rfl⟩ | ⟨resumed, hresumed, rfl⟩
  · exact ⟨hworld, hsilent, Or.inr (Or.inr ⟨1, rfl⟩), fun _ hnone => by cases hnone⟩
  · refine Quiet.advance hsettled ⟨hworld, hsilent, hquiet.phase, ?_⟩
    intro other hother
    obtain rfl := Option.some.inj (htask.symm.trans hother)
    exact (forall_mem_set_iff hlane (hlanes lane (List.mem_of_getElem? hlane))).mpr
      ⟨hresume resumed hresumed, hlanes⟩

theorem mem_accounts {account : Account} {label : String} :
    account ∈ accounts addresses label ↔ account.1 = label ∧ account.2 ∈ addresses := by
  obtain ⟨chain, wallet⟩ := account
  simp [accounts, and_comm, eq_comm]

theorem BootstrapProcess.Settled.isAdmin (hsettled : process.Settled addresses chains)
    {label : String} (hlabel : label ∈ process.targets) (hproxy : process.hasProxy label = true)
    {address : Wallet} (haddress : address ∈ addresses) :
    (chains label).isAdmin address = true := by
  have hgranted := hsettled.granted label hlabel hproxy (label, address)
    (mem_accounts.mpr ⟨rfl, haddress⟩)
  simpa only [grantTask, ite_eq_left_iff, reduceCtorEq, imp_false, Bool.not_eq_true,
    Bool.not_eq_false] using hgranted

theorem BootstrapProcess.Settled.funds (hsettled : process.Settled addresses chains)
    {label : String} (hlabel : label ∈ process.targets) {address : Wallet}
    (haddress : address ∈ addresses) : FUND_MIN_WEI ≤ (chains label).balance address := by
  have hfunded := hsettled.funded label hlabel (label, address)
    (mem_accounts.mpr ⟨rfl, haddress⟩)
  simpa only [fundTask, ite_eq_left_iff, reduceCtorEq, imp_false, not_not] using hfunded

theorem mem_workerAddresses {workerCount workerId : Nat}
    (hworkers : workerAddresses workerCount = some addresses) (hworkerId : workerId < workerCount) :
    workerAdminWallet workerId ∈ addresses := by
  unfold workerAddresses at hworkers
  split at hworkers
  next =>
    obtain rfl := Option.some.inj hworkers
    exact List.mem_map_of_mem (List.mem_range.mpr hworkerId)
  next => cases hworkers

/-- What the runner counts on after its bootstrap child, on the chains with a registry address. -/
theorem BootstrapProcess.bootstrapGrants_granted (process : BootstrapProcess) {chains : Chains}
    {schedule : List (Nat × Reply)} {final : BootstrapState} {child : Child}
    (hrun : process.machine.run (process.main chains) schedule = some final)
    (hexit : final.phase = .exited 0)
    (hworkers : process.PARALLEL_WORKERS = some child.PARALLEL_WORKERS) :
    ∀ grant ∈ bootstrapGrants (process.targets.filter process.hasProxy) child,
      (final.chains grant.1).isAdmin grant.2 = true := by
  obtain ⟨addresses, haddresses, hsettled⟩ := process.settled_of_exited hrun hexit
  obtain ⟨workerCount, hcount, haddresses⟩ := Option.bind_eq_some_iff.mp haddresses
  intro grant hgrant
  rw [bootstrapGrants, ← hworkers, hcount] at hgrant
  obtain ⟨label, hlabel, hgrant⟩ := List.mem_flatMap.mp hgrant
  obtain ⟨workerId, hworkerId, rfl⟩ := List.mem_map.mp hgrant
  obtain ⟨htarget, hproxy⟩ := List.mem_filter.mp hlabel
  exact hsettled.isAdmin htarget hproxy
    (mem_workerAddresses haddresses (List.mem_range.mp hworkerId))

/-- A process that exits with code 0 leaves every worker wallet with ADMIN on the target chains
whose registry address is set and with the minimal funds on all of them, and the process that is
run from there sends nothing. -/
theorem BootstrapProcess.exited_settled (process : BootstrapProcess) (chains : Chains)
    (schedule : List (Nat × Reply)) (final : BootstrapState)
    (hrun : process.machine.run (process.main chains) schedule = some final)
    (hexit : final.phase = .exited 0) :
    (∃ workerCount, parseWorkerCount process.PARALLEL_WORKERS = some workerCount ∧
      ∀ label ∈ process.targets, ∀ workerId < workerCount,
        (process.hasProxy label = true →
          (final.chains label).isAdmin (workerAdminWallet workerId) = true) ∧
        FUND_MIN_WEI ≤ (final.chains label).balance (workerAdminWallet workerId)) ∧
      ∀ again last, process.machine.run (process.main final.chains) again = some last →
        last.sent = [] := by
  obtain ⟨addresses, haddresses, hsettled⟩ := process.settled_of_exited hrun hexit
  constructor
  · obtain ⟨workerCount, hcount, hworkers⟩ := Option.bind_eq_some_iff.mp haddresses
    refine ⟨workerCount, hcount, fun label hlabel workerId hworkerId => ?_⟩
    have haddress := mem_workerAddresses hworkers hworkerId
    exact ⟨fun hproxy => hsettled.isAdmin hlabel hproxy haddress, hsettled.funds hlabel haddress⟩
  · intro again last hagain
    have hquiet := Machine.run_invariant (process.Quiet addresses final.chains)
      (fun _ _ _ hquiet hstep => hquiet.step hsettled hstep)
      (process.quiet_main haddresses hsettled) hagain
    exact hquiet.sent_eq

/-- One node and the hub, where one worker has nothing. -/
theorem BootstrapProcess.exited_settled_oneWorker :
    ∃ final, (machine ⟨some "1", ["A"], fun _ => some "0xA1"⟩).run
        (main ⟨some "1", ["A"], fun _ => some "0xA1"⟩ fun _ => ⟨fun _ => false, fun _ => 0⟩)
        [(0, .ok), (1, .ok), (1, .ok), (0, .ok), (0, .ok), (1, .ok),
          (0, .ok), (1, .ok), (0, .ok), (1, .ok)] = some final ∧
      final.phase = .exited 0 ∧ final.sent.length = 4 ∧
      (final.chains "PNH").isAdmin (workerAdminWallet 0) = true ∧
      ∀ again last, (machine ⟨some "1", ["A"], fun _ => some "0xA1"⟩).run
        (main ⟨some "1", ["A"], fun _ => some "0xA1"⟩ final.chains) again = some last →
        last.sent = [] := by
  refine ⟨Option.get _ (by decide), (Option.some_get _).symm, by decide, by decide, by decide, ?_⟩
  exact (exited_settled _ _ _ _ (Option.some_get _).symm (by decide)).2

/-- A node without a registry address: the process exits with code 0 and the worker is not ADMIN
there. -/
theorem BootstrapProcess.not_isAdmin_withoutProxy :
    ∃ final,
      (machine ⟨some "1", ["A"], fun label => if label = "PNH" then some "0xA1" else none⟩).run
        (main ⟨some "1", ["A"], fun label => if label = "PNH" then some "0xA1" else none⟩
          fun _ => ⟨fun _ => false, fun _ => 0⟩)
        [(1, .ok), (1, .ok), (1, .ok), (0, .ok), (1, .ok), (0, .ok), (1, .ok)] = some final ∧
      final.phase = .exited 0 ∧ (final.chains "A").isAdmin (workerAdminWallet 0) = false :=
  ⟨Option.get _ (by decide), (Option.some_get _).symm, by decide, by decide⟩

end RaylsSuite.Runner
