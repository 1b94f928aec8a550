import RaylsSuite.Foundation.Machine

/-! # The token-id counter

A mint without an id takes the next id of the wrapper before its first await,
and the counter advances after the last one. An id of the caller bypasses the
counter but advances it. The mint is sent by `submitTx`, which may send it
again, and each transaction that was sent may be executed at any later time,
also when the call that sent it has failed.
-/

namespace RaylsSuite.Tokens

open Foundation

/-! ## The wrapper and its calls -/

structure ERC721Wrapper where
  currentTokenId : Nat
  nextTokenId : Nat
deriving DecidableEq, Repr

def ERC721Wrapper.new : ERC721Wrapper := ⟨0, 1⟩

/-- `none` is the error of a counter that has overtaken itself. -/
def ERC721Wrapper.incrementTokenId (wrapper : ERC721Wrapper) : Option ERC721Wrapper :=
  if wrapper.nextTokenId ≤ wrapper.currentTokenId then none
  else some ⟨wrapper.nextTokenId, wrapper.nextTokenId + 1⟩

/-- The await that a call of `mintAndAwait` is suspended in. -/
inductive MintPhase where
  | getBalanceOf
  | callContractMint
  | waitForBalance
  | settled
deriving DecidableEq, Repr

/-- A call; `given` is the id of its caller, `pending` counts its mints that were sent and have
not been executed. -/
structure MintCall where
  given : Option Nat
  tokenId : Nat
  phase : MintPhase
  pending : Nat
  executed : Bool
deriving DecidableEq, Repr

/-- What a successful call leaves behind. -/
structure MintReturn where
  tokenId : Nat
  wrapper : ERC721Wrapper
  minted : List Nat
deriving DecidableEq, Repr

/-- The wrapper, its calls, the ids that were minted, and for each mint attempted without an
id of the caller the ids that were minted before. -/
structure Minting where
  wrapper : ERC721Wrapper
  calls : List MintCall
  minted : List Nat
  attempts : List (Nat × List Nat)
  returns : List MintReturn
deriving DecidableEq, Repr

def Minting.initial : Minting := ⟨.new, [], [], [], []⟩

/-- A call begins, an await of one ends, `submitTx` calls its factory again, or the chain executes
a mint that a call has sent. -/
inductive MintEvent where
  | mintAndAwait (tokenId : Option Nat)
  | resolved (call : Nat)
  | resubmitted (call : Nat)
  | executed (call : Nat)
  | rejected (call : Nat)
deriving DecidableEq, Repr

namespace Minting

def move (state : Minting) (position : Nat) (moved : MintCall) : Minting :=
  { state with calls := state.calls.set position moved }

/-- The call at a position sends a mint of its id. -/
def attempt (state : Minting) (position : Nat) (call : MintCall) : Minting :=
  { state.move position { call with phase := .callContractMint, pending := call.pending + 1 } with
    attempts := if call.given = none then
      state.attempts ++ [(call.tokenId, state.minted)] else state.attempts }

def step (state : Minting) : MintEvent → Option Minting
  | .mintAndAwait tokenId =>
      -- `args.tokenId ?? this._nextTokenId`
      some { state with calls := state.calls ++
        [⟨tokenId, tokenId.getD state.wrapper.nextTokenId, .getBalanceOf, 0, false⟩] }
  | .resolved position =>
      state.calls[position]?.bind fun call =>
        match call.phase with
        | .getBalanceOf => some (state.attempt position call)
        -- `submitTx` resolves with the receipt of a mint that was executed
        | .callContractMint =>
            if call.executed then some (state.move position { call with phase := .waitForBalance })
            else none
        | .waitForBalance =>
            match state.wrapper.incrementTokenId with
            | none => some (state.move position { call with phase := .settled })
            | some wrapper => some { state.move position { call with phase := .settled } with
                wrapper
                returns := state.returns ++ [⟨call.tokenId, wrapper, state.minted⟩] }
        | .settled => none
  | .resubmitted position =>
      state.calls[position]?.bind fun call =>
        if call.phase = .callContractMint then some (state.attempt position call) else none
  | .executed position =>
      state.calls[position]?.bind fun call =>
        match call.pending with
        | 0 => none
        | pending + 1 => some { state.move position { call with pending, executed := true } with
            minted := state.minted ++ [call.tokenId] }
  | .rejected position =>
      state.calls[position]?.bind fun call =>
        if call.phase = .settled then none
        else some (state.move position { call with phase := .settled })

def machine : Machine Minting MintEvent := ⟨step⟩

end Minting

/-! ## What the ids are for -/

/-- The call is in flight. -/
def MintCall.Open (call : MintCall) : Prop := call.phase ≠ .settled

instance (call : MintCall) : Decidable call.Open :=
  inferInstanceAs (Decidable (call.phase ≠ .settled))

/-- A call without an id of its caller is in flight. -/
def MintCall.Picking (call : MintCall) : Prop := call.given = none ∧ call.Open

/-- Concurrent calls without ids of their callers have picked ids of their own. -/
def DistinctPicks (calls : List MintCall) : Prop :=
  ∀ (i j : Nat) (first second : MintCall), calls[i]? = some first → calls[j]? = some second →
    i ≠ j → first.Picking → second.Picking → first.tokenId ≠ second.tokenId

/-- The returned id is the current one, and the next one is above every minted one. -/
def MintReturn.Current (returned : MintReturn) : Prop :=
  returned.wrapper.currentTokenId = returned.tokenId ∧
    ∀ tokenId ∈ returned.minted, tokenId < returned.wrapper.nextTokenId

/-- No attempt without an id of the caller is for a minted id, concurrent ones are for different
ids, and each return leaves the counter at its id. -/
structure Minting.Unique (state : Minting) : Prop where
  attempts : ∀ attempt ∈ state.attempts, attempt.1 ∉ attempt.2
  picks : DistinctPicks state.calls
  returns : ∀ returned ∈ state.returns, returned.Current

/-! ## When they are unique -/

/-- A call begins when no other is in flight, with no id of its caller but the next one. The mint
is sent again, and a call fails, only while none of its mints has been executed, and no mint is
executed when its call has failed. -/
def Minting.Orderly (state : Minting) : MintEvent → Prop
  | .mintAndAwait tokenId => (∀ call ∈ state.calls, ¬call.Open) ∧
      ∀ given ∈ tokenId, given = state.wrapper.nextTokenId
  | .resolved _ => True
  | .resubmitted position | .rejected position => ∀ call ∈ state.calls[position]?,
      call.executed = false
  | .executed position => ∀ call ∈ state.calls[position]?, call.Open ∨ call.executed = true

instance (state : Minting) : ∀ event, Decidable (state.Orderly event)
  | .mintAndAwait tokenId => inferInstanceAs (Decidable ((∀ call ∈ state.calls, ¬call.Open) ∧
      ∀ given ∈ tokenId, given = state.wrapper.nextTokenId))
  | .resolved _ => instDecidableTrue
  | .resubmitted position | .rejected position =>
      inferInstanceAs (Decidable (∀ call ∈ state.calls[position]?, call.executed = false))
  | .executed position =>
      inferInstanceAs (Decidable (∀ call ∈ state.calls[position]?,
        call.Open ∨ call.executed = true))

/-- At most one call is in flight, and it is for the id after as many as have succeeded. Every
minted id is among these, but for that of the call in flight. -/
structure Minting.Counted (state : Minting) : Prop where
  wrapper : state.wrapper = ⟨state.returns.length, state.returns.length + 1⟩
  alone : ∀ (i j : Nat) (first second : MintCall), state.calls[i]? = some first →
    state.calls[j]? = some second → first.Open → second.Open → i = j
  fresh : ∀ call ∈ state.calls, call.phase = .getBalanceOf → call.executed = false ∧
    call.pending = 0
  tokenId : ∀ call ∈ state.calls, call.Open → call.tokenId = state.returns.length + 1
  done : ∀ call ∈ state.calls, ¬call.Open → call.executed = true →
    call.tokenId ≤ state.returns.length
  minted : ∀ tokenId ∈ state.minted, tokenId ≤ state.returns.length + 1
  free : (∀ call ∈ state.calls, call.Open → call.executed = false) →
    ∀ tokenId ∈ state.minted, tokenId ≤ state.returns.length

theorem Minting.counted_initial : Minting.initial.Counted where
  wrapper := rfl
  alone _ _ _ _ hfirst := by cases hfirst
  fresh _ hmem := absurd hmem List.not_mem_nil
  tokenId _ hmem := absurd hmem List.not_mem_nil
  done _ hmem := absurd hmem List.not_mem_nil
  minted _ hmem := absurd hmem List.not_mem_nil
  free _ _ hmem := absurd hmem List.not_mem_nil

theorem Minting.unique_initial : Minting.initial.Unique where
  attempts _ hmem := absurd hmem List.not_mem_nil
  picks _ _ _ _ hfirst := by cases hfirst
  returns _ hmem := absurd hmem List.not_mem_nil

variable {state next : Minting} {event : MintEvent} {position : Nat} {call : MintCall}

/-- What a step can do while the counter is the number of successes. -/
inductive Minting.StepCase (state : Minting) : MintEvent → Minting → Prop where
  | began (tokenId : Option Nat) : StepCase state (.mintAndAwait tokenId) { state with
      calls := state.calls ++
        [⟨tokenId, tokenId.getD (state.returns.length + 1), .getBalanceOf, 0, false⟩] }
  | sent {position : Nat} {call : MintCall} (hcall : state.calls[position]? = some call)
      (hphase : call.phase = .getBalanceOf) :
      StepCase state (.resolved position) (state.attempt position call)
  | resent {position : Nat} {call : MintCall} (hcall : state.calls[position]? = some call)
      (hphase : call.phase = .callContractMint) :
      StepCase state (.resubmitted position) (state.attempt position call)
  | confirmed {position : Nat} {call : MintCall} (hcall : state.calls[position]? = some call)
      (hphase : call.phase = .callContractMint) (hexecuted : call.executed = true) :
      StepCase state (.resolved position)
        (state.move position { call with phase := .waitForBalance })
  | returned {position : Nat} {call : MintCall} (hcall : state.calls[position]? = some call)
      (hphase : call.phase = .waitForBalance) : StepCase state (.resolved position)
        { state.move position { call with phase := .settled } with
          wrapper := ⟨state.returns.length + 1, state.returns.length + 2⟩
          returns := state.returns ++
            [⟨call.tokenId, ⟨state.returns.length + 1, state.returns.length + 2⟩, state.minted⟩] }
  | minted {position : Nat} {call : MintCall} {pending : Nat}
      (hcall : state.calls[position]? = some call) (hpending : call.pending = pending + 1) :
      StepCase state (.executed position)
        { state.move position { call with pending, executed := true } with
          minted := state.minted ++ [call.tokenId] }
  | failed {position : Nat} {call : MintCall} (hcall : state.calls[position]? = some call)
      (hopen : call.Open) : StepCase state (.rejected position)
        (state.move position { call with phase := .settled })

theorem incrementTokenId_of_counted (hcounted : state.Counted) :
    state.wrapper.incrementTokenId =
      some ⟨state.returns.length + 1, state.returns.length + 2⟩ := by
  rw [hcounted.wrapper, ERC721Wrapper.incrementTokenId, if_neg (by simp)]

/-- Every step of the minting machine is one that `StepCase` lists. -/
theorem Minting.step_cases (hcounted : state.Counted) (hstep : state.step event = some next) :
    state.StepCase event next := by
  cases event with
  | mintAndAwait tokenId =>
      have hnext : state.wrapper.nextTokenId = state.returns.length + 1 := by rw [hcounted.wrapper]
      simp only [step, hnext] at hstep
      exact Option.some.inj hstep ▸ .began tokenId
  | resolved position =>
      obtain ⟨call, hcall, hstep⟩ := Option.bind_eq_some_iff.mp hstep
      cases hphase : call.phase <;>
        simp only [hphase, incrementTokenId_of_counted hcounted] at hstep
      case getBalanceOf => exact Option.some.inj hstep ▸ .sent hcall hphase
      case callContractMint =>
        split at hstep
        next hexecuted => exact Option.some.inj hstep ▸ .confirmed hcall hphase hexecuted
        next => cases hstep
      case waitForBalance => exact Option.some.inj hstep ▸ .returned hcall hphase
      case settled => cases hstep
  | resubmitted position =>
      obtain ⟨call, hcall, hstep⟩ := Option.bind_eq_some_iff.mp hstep
      split at hstep
      next hphase => exact Option.some.inj hstep ▸ .resent hcall hphase
      next => cases hstep
  | executed position =>
      obtain ⟨call, hcall, hstep⟩ := Option.bind_eq_some_iff.mp hstep
      split at hstep
      next => cases hstep
      next hpending => exact Option.some.inj hstep ▸ .minted hcall hpending
  | rejected position =>
      obtain ⟨call, hcall, hstep⟩ := Option.bind_eq_some_iff.mp hstep
      split at hstep
      next => cases hstep
      next hopen => exact Option.some.inj hstep ▸ .failed hcall hopen

/-! ## One step of an orderly run -/

/-- The call in flight is the only one. -/
theorem Minting.Counted.only (hcounted : state.Counted)
    (hcall : state.calls[position]? = some call) (hopen : call.Open) :
    ∀ other ∈ state.calls, other.Open → other = call := by
  intro other hmem hother
  obtain ⟨i, hi⟩ := List.mem_iff_getElem?.mp hmem
  obtain rfl := hcounted.alone i position other call hi hcall hother hopen
  exact Option.some.inj (hi.symm.trans hcall)

/-- While the call in flight has not minted, only the ids of the successes are minted. -/
theorem Minting.Counted.minted_le (hcounted : state.Counted)
    (hcall : state.calls[position]? = some call) (hopen : call.Open)
    (hexecuted : call.executed = false) : ∀ tokenId ∈ state.minted,
      tokenId ≤ state.returns.length := by
  apply hcounted.free
  intro other hmem hother
  exact hcounted.only hcall hopen other hmem hother ▸ hexecuted

/-- A call that does not become open leaves at most one call open. -/
theorem Minting.Counted.alone_set (hcounted : state.Counted)
    (hcall : state.calls[position]? = some call) {moved : MintCall}
    (hopen : moved.Open → call.Open) (i j : Nat) (first second : MintCall)
    (hfirst : (state.calls.set position moved)[i]? = some first)
    (hsecond : (state.calls.set position moved)[j]? = some second)
    (hfirstOpen : first.Open) (hsecondOpen : second.Open) : i = j := by
  have hposition := (List.getElem?_eq_some_iff.mp hcall).1
  have hbefore : ∀ (k : Nat) (found : MintCall),
      (state.calls.set position moved)[k]? = some found → found.Open →
        ∃ old, state.calls[k]? = some old ∧ old.Open := by
    intro k found hfound hfoundOpen
    rcases (lookup_set hposition).mp hfound with ⟨rfl, rfl⟩ | ⟨_, hold⟩
    · exact ⟨call, hcall, hopen hfoundOpen⟩
    · exact ⟨found, hold, hfoundOpen⟩
  obtain ⟨old, hold, holdOpen⟩ := hbefore i first hfirst hfirstOpen
  obtain ⟨old', hold', holdOpen'⟩ := hbefore j second hsecond hsecondOpen
  exact hcounted.alone i j old old' hold hold' holdOpen holdOpen'

/-- When the call in flight settles, none is in flight. -/
theorem Minting.Counted.closed (hcounted : state.Counted)
    (hcall : state.calls[position]? = some call) (hopen : call.Open) :
    ∀ other ∈ state.calls.set position { call with phase := .settled }, ¬other.Open := by
  intro other hmem hother
  obtain ⟨i, hi⟩ := List.mem_iff_getElem?.mp hmem
  rcases (lookup_set (List.getElem?_eq_some_iff.mp hcall).1).mp hi with ⟨_, rfl⟩ | ⟨hne, hold⟩
  · exact hother rfl
  · exact hne (hcounted.alone i position other call hold hcall hother hopen)

/-- What holds of the moved call and of all calls before the move holds of all after it. -/
theorem all_moved {property : MintCall → Prop} {calls : List MintCall} {moved : MintCall}
    (hmoved : property moved) (hall : ∀ other ∈ calls, property other) :
    ∀ other ∈ calls.set position moved, property other := by
  intro other hmem
  cases List.mem_or_eq_of_mem_set hmem with
  | inl hold => exact hall other hold
  | inr heq => exact heq ▸ hmoved

/-- Sending a mint that has not been executed yet keeps count. -/
theorem Minting.Counted.attempt (hcounted : state.Counted)
    (hcall : state.calls[position]? = some call) (hopen : call.Open)
    (hexecuted : call.executed = false) : (state.attempt position call).Counted where
  wrapper := hcounted.wrapper
  alone := hcounted.alone_set hcall fun _ => hopen
  fresh := all_moved (fun hphase => by cases hphase) hcounted.fresh
  tokenId := all_moved (fun _ => hcounted.tokenId call (List.mem_of_getElem? hcall) hopen)
    hcounted.tokenId
  done := all_moved (fun hclosed => absurd MintPhase.noConfusion hclosed) hcounted.done
  minted := hcounted.minted
  free _ := hcounted.minted_le hcall hopen hexecuted

/-- An executed mint is that of the call in flight, or the repeated one of a success. -/
theorem Minting.Counted.executed {pending : Nat} (hcounted : state.Counted)
    (hcall : state.calls[position]? = some call) (hpending : call.pending = pending + 1)
    (horderly : call.Open ∨ call.executed = true) :
    { state.move position { call with pending, executed := true } with
      minted := state.minted ++ [call.tokenId] }.Counted := by
  have hmem := List.mem_of_getElem? hcall
  have hposition := (List.getElem?_eq_some_iff.mp hcall).1
  have hclosed : ¬call.Open → call.tokenId ≤ state.returns.length := fun hclosed =>
    hcounted.done call hmem hclosed (horderly.resolve_left hclosed)
  constructor
  case wrapper => exact hcounted.wrapper
  case alone => exact hcounted.alone_set hcall id
  case fresh =>
    refine all_moved (fun hphase => ?_) hcounted.fresh
    have hnone := (hcounted.fresh call hmem hphase).2
    rw [hpending] at hnone
    cases hnone
  case tokenId => exact all_moved (hcounted.tokenId call hmem) hcounted.tokenId
  case done => exact all_moved (fun hclosed' _ => hclosed hclosed') hcounted.done
  case minted =>
    refine List.forall_mem_append.mpr ⟨hcounted.minted, List.forall_mem_singleton.mpr ?_⟩
    by_cases hopen : call.Open
    · exact Nat.le_of_eq (hcounted.tokenId call hmem hopen)
    · exact Nat.le_succ_of_le (hclosed hopen)
  case free =>
    intro hfree
    have hnotOpen : ¬call.Open := by
      intro hopen
      cases hfree _ (List.mem_set hposition _) hopen
    refine List.forall_mem_append.mpr ⟨hcounted.free fun other hother hopen => ?_,
      List.forall_mem_singleton.mpr (hclosed hnotOpen)⟩
    obtain ⟨i, hi⟩ := List.mem_iff_getElem?.mp hother
    have hne : i ≠ position := by
      rintro rfl
      obtain rfl := Option.some.inj (hcall.symm.trans hi)
      exact hnotOpen hopen
    apply hfree other _ hopen
    exact List.mem_of_getElem? ((lookup_set hposition).mpr (Or.inr ⟨hne, hi⟩))

/-- An orderly step keeps count. -/
theorem Minting.Counted.step (hcounted : state.Counted) (hstep : state.step event = some next)
    (horderly : state.Orderly event) : next.Counted := by
  cases Minting.step_cases hcounted hstep with
  | began tokenId =>
      obtain ⟨hidle, hgiven⟩ := horderly
      have hid : tokenId.getD (state.returns.length + 1) = state.returns.length + 1 := by
        cases tokenId with
        | none => rfl
        | some given => exact (hgiven given rfl).trans (by rw [hcounted.wrapper])
      have hfree := hcounted.free fun call hmem hopen => absurd hopen (hidle call hmem)
      constructor
      case wrapper => exact hcounted.wrapper
      case alone =>
        intro i j first second hfirst hsecond hopen hopen'
        rcases lookup_concat.mp hfirst with hold | ⟨hi, _⟩
        · exact absurd hopen (hidle first (List.mem_of_getElem? hold))
        rcases lookup_concat.mp hsecond with hold | ⟨hj, _⟩
        · exact absurd hopen' (hidle second (List.mem_of_getElem? hold))
        exact hi.trans hj.symm
      case fresh =>
        exact List.forall_mem_append.mpr ⟨hcounted.fresh,
          List.forall_mem_singleton.mpr fun _ => ⟨rfl, rfl⟩⟩
      case tokenId =>
        exact List.forall_mem_append.mpr ⟨hcounted.tokenId,
          List.forall_mem_singleton.mpr fun _ => hid⟩
      case done =>
        refine List.forall_mem_append.mpr ⟨hcounted.done, List.forall_mem_singleton.mpr ?_⟩
        intro _ hexecuted
        cases hexecuted
      case minted => exact hcounted.minted
      case free => exact fun _ => hfree
  | @sent position call hcall hphase =>
      have hfresh := hcounted.fresh call (List.mem_of_getElem? hcall) hphase
      exact hcounted.attempt hcall (by rw [MintCall.Open, hphase]; decide) hfresh.1
  | @resent position call hcall hphase =>
      exact hcounted.attempt hcall (by rw [MintCall.Open, hphase]; decide) (horderly call hcall)
  | @confirmed position call hcall hphase hexecuted =>
      have hmem := List.mem_of_getElem? hcall
      have hopen : call.Open := by rw [MintCall.Open, hphase]; decide
      constructor
      case wrapper => exact hcounted.wrapper
      case alone => exact hcounted.alone_set hcall fun _ => hopen
      case fresh => exact all_moved (fun hphase => by cases hphase) hcounted.fresh
      case tokenId =>
        exact all_moved (fun _ => hcounted.tokenId call hmem hopen) hcounted.tokenId
      case done =>
        exact all_moved (fun hclosed => absurd MintPhase.noConfusion hclosed) hcounted.done
      case minted => exact hcounted.minted
      case free =>
        intro hfree
        have hnone := hfree _ (List.mem_set (List.getElem?_eq_some_iff.mp hcall).1 _)
          MintPhase.noConfusion
        rw [hexecuted] at hnone
        cases hnone
  | @returned position call hcall hphase =>
      have hmem := List.mem_of_getElem? hcall
      have hopen : call.Open := by rw [MintCall.Open, hphase]; decide
      have hid := hcounted.tokenId call hmem hopen
      have hclosed := hcounted.closed hcall hopen
      constructor
      case wrapper => simp only [List.length_append, List.length_singleton]
      case alone => exact hcounted.alone_set hcall fun _ => hopen
      case fresh => exact all_moved (fun hphase => by cases hphase) hcounted.fresh
      case tokenId => exact fun other hother hopen => absurd hopen (hclosed other hother)
      case done =>
        rw [List.length_append, List.length_singleton]
        refine all_moved (fun _ _ => Nat.le_of_eq hid) fun other hother hclosed hexecuted => ?_
        exact Nat.le_succ_of_le (hcounted.done other hother hclosed hexecuted)
      case minted =>
        rw [List.length_append]
        exact fun tokenId hminted => Nat.le_succ_of_le (hcounted.minted tokenId hminted)
      case free =>
        rw [List.length_append]
        exact fun _ => hcounted.minted
  | minted hcall hpending => exact hcounted.executed hcall hpending (horderly _ hcall)
  | @failed position call hcall hopen =>
      have hexecuted := horderly call hcall
      have hclosed := hcounted.closed hcall hopen
      constructor
      case wrapper => exact hcounted.wrapper
      case alone => exact hcounted.alone_set hcall fun _ => hopen
      case fresh => exact all_moved (fun hphase => by cases hphase) hcounted.fresh
      case tokenId => exact fun other hother hopen => absurd hopen (hclosed other hother)
      case done =>
        refine all_moved (fun _ hminted => ?_) hcounted.done
        rw [hexecuted] at hminted
        cases hminted
      case minted => exact hcounted.minted
      case free => exact fun _ => hcounted.minted_le hcall hopen hexecuted

/-- With one call in flight at most, no two of them pick an id. -/
theorem Minting.Counted.picks (hcounted : state.Counted) : DistinctPicks state.calls :=
  fun i j first second hfirst hsecond hne hpicking hpicking' =>
    absurd (hcounted.alone i j first second hfirst hsecond hpicking.2 hpicking'.2) hne

/-- A mint that has not been executed yet is attempted with an id that nobody has minted. -/
theorem Minting.Unique.attempt (hunique : state.Unique) (hcounted : state.Counted)
    (hcall : state.calls[position]? = some call) (hopen : call.Open)
    (hexecuted : call.executed = false) : (state.attempt position call).Unique where
  attempts := by
    change ∀ attempt ∈ (if call.given = none then state.attempts ++ [(call.tokenId, state.minted)]
      else state.attempts), attempt.1 ∉ attempt.2
    split
    · refine List.forall_mem_append.mpr ⟨hunique.attempts, List.forall_mem_singleton.mpr ?_⟩
      intro hminted
      have hle := hcounted.minted_le hcall hopen hexecuted call.tokenId hminted
      rw [hcounted.tokenId call (List.mem_of_getElem? hcall) hopen] at hle
      exact absurd hle (Nat.not_succ_le_self _)
    · exact hunique.attempts
  picks := (hcounted.attempt hcall hopen hexecuted).picks
  returns := hunique.returns

/-- An orderly step leaves the ids unique. -/
theorem Minting.Unique.step (hunique : state.Unique) (hcounted : state.Counted)
    (hstep : state.step event = some next) (horderly : state.Orderly event) : next.Unique := by
  have hpicks := (hcounted.step hstep horderly).picks
  cases Minting.step_cases hcounted hstep with
  | began | confirmed | minted | failed => exact ⟨hunique.attempts, hpicks, hunique.returns⟩
  | @sent position call hcall hphase =>
      have hfresh := hcounted.fresh call (List.mem_of_getElem? hcall) hphase
      exact hunique.attempt hcounted hcall (by rw [MintCall.Open, hphase]; decide) hfresh.1
  | @resent position call hcall hphase =>
      exact hunique.attempt hcounted hcall (by rw [MintCall.Open, hphase]; decide)
        (horderly call hcall)
  | @returned position call hcall hphase =>
      refine ⟨hunique.attempts, hpicks,
        List.forall_mem_append.mpr ⟨hunique.returns, List.forall_mem_singleton.mpr ?_⟩⟩
      constructor
      · exact (hcounted.tokenId call (List.mem_of_getElem? hcall)
          (by rw [MintCall.Open, hphase]; decide)).symm
      · exact fun tokenId hminted => Nat.lt_succ_of_le (hcounted.minted tokenId hminted)

/-- Over every orderly interleaving of calls, mints and failures, the ids are unique and the
counter is at the last of them in every state. -/
theorem mintAndAwait_orderly_unique (schedule : List MintEvent)
    (horderly : Minting.machine.Guarded Minting.Orderly .initial schedule) :
    Minting.machine.Always Minting.Unique .initial schedule := by
  have hsound : Minting.machine.Always (fun state => state.Counted ∧ state.Unique) .initial
      schedule := by
    refine horderly.always ?_ ⟨Minting.counted_initial, Minting.unique_initial⟩
    intro state event next hgood hstep hallowed
    exact ⟨hgood.1.step hstep hallowed, hgood.2.step hgood.1 hstep hallowed⟩
  exact hsound.mono fun _ hgood => hgood.2

/-- A call whose first mint is never executed sends it again; the next call comes after it. -/
def twoMints : List MintEvent :=
  [.mintAndAwait none, .resolved 0, .resubmitted 0, .executed 0, .resolved 0, .resolved 0,
    .mintAndAwait none, .resolved 1, .executed 1, .resolved 1, .resolved 1]

theorem mintAndAwait_orderly_unique_two :
    Minting.machine.Always Minting.Unique .initial twoMints := by
  apply mintAndAwait_orderly_unique
  decide

/-- Two concurrent calls without ids pick the same one. -/
theorem not_unique_concurrentCalls : ¬Minting.machine.Always Minting.Unique .initial
    [.mintAndAwait none, .mintAndAwait none] := by
  intro halways
  have hpicks := (halways.final rfl).picks
  exact hpicks 0 1 _ _ rfl rfl (by decide) ⟨rfl, MintPhase.noConfusion⟩
    ⟨rfl, MintPhase.noConfusion⟩ rfl

end RaylsSuite.Tokens
