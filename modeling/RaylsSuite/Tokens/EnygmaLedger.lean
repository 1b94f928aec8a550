import RaylsSuite.Foundation.Ledger
import RaylsSuite.Foundation.Machine
import RaylsSuite.Tokens.DbBalance

/-! # What the database check is asked for

The stored balance and the commitment of a node are for all that its accounts
hold of a token outside DvP. A mint asks the check for the minted amount, and a
withdrawal for the balance of the wrapper's own user.
-/

namespace RaylsSuite.Tokens

open Foundation

/-! ## The balances of a token on a node -/

/-- The balances outside DvP. Each of them is a `uint256`. -/
structure EnygmaBalances where
  movements : Movements String
  uint256 : ∀ account, 0 ≤ movements.balanceOf account ∧ movements.balanceOf account < 2 ^ 256

namespace EnygmaBalances

def empty : EnygmaBalances := ⟨[], fun _ => ⟨le_rfl, by simp [Movements.balanceOf]⟩⟩

def balanceOf (balances : EnygmaBalances) (account : String) : Int :=
  balances.movements.balanceOf account

/-- The node's finalized balance. -/
def total (balances : EnygmaBalances) : Int := balances.movements.total

/-- A movement of an account; the contract reverts when the new balance is no `uint256`. -/
def move (balances : EnygmaBalances) (account : String) (change : Int) : Option EnygmaBalances :=
  if hfits : 0 ≤ change + balances.balanceOf account ∧
      change + balances.balanceOf account < 2 ^ 256 then
    some ⟨(account, change) :: balances.movements, by
      intro other
      by_cases hother : account = other
      · subst hother
        rw [Movements.balanceOf_cons_self]
        exact hfits
      · rw [Movements.balanceOf_cons_ne _ hother]
        exact balances.uint256 other⟩
  else none

end EnygmaBalances

/-! ## The operations of a wrapper -/

/-- An operation on the wrapper with how its transaction and its waits end: resolved, or rejected
with the transaction executed or not. `privateHub` tells whether a mint is given a hub. -/
inductive EnygmaOperation where
  | mintAndAwait (toAddress : String) (amount : Nat) (privateHub : Bool) (reply : Reply)
  | withdrawEnygmaFromDvp (withdrawAmount : Nat) (reply : Reply)
  | depositEnygmaToDvp (depositAmount : Nat) (reply : Reply)
deriving DecidableEq, Repr

/-- The balances of the token, and the checks that mints and withdrawals asked for with the node's
balance at that time. -/
structure EnygmaState where
  balances : EnygmaBalances
  checks : List (Number × Int)

namespace EnygmaState

/-- The balances after the operation. -/
def moved (userWallet : String) (state : EnygmaState) :
    EnygmaOperation → Option EnygmaBalances
  | .mintAndAwait toAddress amount _ .ok | .mintAndAwait toAddress amount _ (.error true) =>
      state.balances.move toAddress amount
  | .withdrawEnygmaFromDvp withdrawAmount .ok
  | .withdrawEnygmaFromDvp withdrawAmount (.error true) =>
      state.balances.move userWallet withdrawAmount
  | .depositEnygmaToDvp depositAmount .ok | .depositEnygmaToDvp depositAmount (.error true) =>
      state.balances.move userWallet (-depositAmount)
  | .mintAndAwait _ _ _ (.error false) | .withdrawEnygmaFromDvp _ (.error false)
  | .depositEnygmaToDvp _ (.error false) => some state.balances

/-- The expected balance that the operation passes to `checkDbBalance`, with database checks on.
A deposit passes one of its caller, which is left out. -/
def expectedBalance (userWallet : String) (state : EnygmaState) : EnygmaOperation → Option Number
  | .mintAndAwait _ amount true .ok => some (toNumber amount)
  | .withdrawEnygmaFromDvp withdrawAmount .ok =>
      some (toNumber (state.balances.balanceOf userWallet + withdrawAmount).toNat)
  | _ => none

def step (userWallet : String) (state : EnygmaState) (operation : EnygmaOperation) :
    Option EnygmaState :=
  (state.moved userWallet operation).map fun balances =>
    ⟨balances, state.checks ++
      ((state.expectedBalance userWallet operation).map fun expected =>
        (expected, balances.total)).toList⟩

def machine (userWallet : String) : Machine EnygmaState EnygmaOperation := ⟨step userWallet⟩

/-- Every check was asked for the node's balance. -/
def AsksForTotal (state : EnygmaState) : Prop :=
  ∀ check ∈ state.checks, check.1 = .finite check.2

end EnygmaState

/-! ## When it is the right value -/

/-- What rounding to a number adds to an integer; nothing below `2 ^ 53`. -/
def roundingError (value : Int) : Int := Significand.round 52 value.toNat - value

theorem roundingError_of_lt {value : Nat} (hvalue : value < 2 ^ 53) : roundingError value = 0 := by
  rw [roundingError, Int.toNat_natCast, Significand.round_of_lt hvalue, sub_self]

/-- A mint that is checked starts from a node that holds nothing, and a withdrawal from one where
nobody else does, up to rounding. -/
def EnygmaState.Alone (userWallet : String) (state : EnygmaState) : EnygmaOperation → Prop
  | .mintAndAwait _ amount true .ok => state.balances.total = roundingError amount
  | .withdrawEnygmaFromDvp withdrawAmount .ok =>
      state.balances.movements.others userWallet =
        roundingError (state.balances.balanceOf userWallet + withdrawAmount)
  | _ => True

/-- A move changes the total by its amount and does not overflow. -/
theorem EnygmaBalances.move_eq_some {balances after : EnygmaBalances} {account : String}
    {change : Int} (hmove : balances.move account change = some after) :
    after.total = change + balances.total ∧ change + balances.balanceOf account < 2 ^ 256 := by
  unfold move at hmove
  split at hmove
  next hfits =>
    obtain rfl := Option.some.inj hmove
    exact ⟨Movements.total_cons _ _ _, hfits.2⟩
  next => cases hmove

theorem toNumber_eq_finite_iff {value : Nat} (hvalue : value < 2 ^ 256) (total : Int) :
    toNumber value = .finite total ↔ (Significand.round 52 value : Int) = total := by
  rw [toNumber_of_uint256 hvalue, Number.finite.injEq, ← Rat.intCast_natCast, Rat.intCast_inj]

namespace EnygmaState

variable {userWallet : String} {state next : EnygmaState} {operation : EnygmaOperation}

/-- What an operation adds to the checks. -/
theorem step_checks (hstep : step userWallet state operation = some next) :
    state.moved userWallet operation = some next.balances ∧
      (next.AsksForTotal ↔ state.AsksForTotal ∧ ∀ expected,
        state.expectedBalance userWallet operation = some expected →
          expected = .finite next.balances.total) := by
  obtain ⟨balances, hmoved, rfl⟩ := Option.map_eq_some_iff.mp hstep
  refine ⟨hmoved, ?_⟩
  rw [AsksForTotal, List.forall_mem_append]
  refine and_congr_right fun _ => ?_
  cases state.expectedBalance userWallet operation <;> simp

/-- A step keeps every check at the total exactly when the wallet is alone in it. -/
theorem asksForTotal_step (hgood : state.AsksForTotal)
    (hstep : step userWallet state operation = some next) :
    next.AsksForTotal ↔ state.Alone userWallet operation := by
  obtain ⟨hmoved, hchecks⟩ := step_checks hstep
  rw [hchecks, and_iff_right hgood]
  unfold expectedBalance Alone
  split
  next toAddress amount =>
    obtain ⟨htotal, hbound⟩ := EnygmaBalances.move_eq_some hmoved
    have hbalance := (state.balances.uint256 toAddress).1
    have hamount : amount < 2 ^ 256 := by
      unfold EnygmaBalances.balanceOf at hbound
      omega
    simp only [Option.some.injEq, forall_eq', toNumber_eq_finite_iff hamount, htotal,
      roundingError, Int.toNat_natCast]
    omega
  next withdrawAmount =>
    obtain ⟨htotal, hbound⟩ := EnygmaBalances.move_eq_some hmoved
    have hbalance := (state.balances.uint256 userWallet).1
    have hamount : (state.balances.balanceOf userWallet + withdrawAmount).toNat < 2 ^ 256 := by
      omega
    simp only [Option.some.injEq, forall_eq', toNumber_eq_finite_iff hamount, htotal,
      roundingError, Movements.others]
    unfold EnygmaBalances.total EnygmaBalances.balanceOf
    omega
  next => simp

end EnygmaState

/-- Over every sequence of operations, the checks are asked for the node's balance exactly if every
mint that is checked and every withdrawal starts from a node where nobody else holds the token, up
to rounding. -/
theorem checkDbBalance_asksForTotal_iff (userWallet : String) (balances : EnygmaBalances)
    (operations : List EnygmaOperation) :
    (EnygmaState.machine userWallet).Always EnygmaState.AsksForTotal ⟨balances, []⟩ operations ↔
      (EnygmaState.machine userWallet).Guarded (EnygmaState.Alone userWallet) ⟨balances, []⟩
        operations :=
  Machine.always_iff_guarded (fun _ _ _ => EnygmaState.asksForTotal_step)
    (fun _ hmem => absurd hmem List.not_mem_nil) operations

/-- Two mints of 5 to one user: the second check is asked for 5 when the node holds 10. -/
theorem not_asksForTotal_secondMint :
    ¬(EnygmaState.machine "0xU").Always EnygmaState.AsksForTotal ⟨.empty, []⟩
      [.mintAndAwait "0xU" 5 true .ok, .mintAndAwait "0xU" 5 true .ok] := by
  intro halways
  have hasked : toNumber 5 = .finite ((10 : Int) : ℚ) :=
    (halways.final rfl) (_, 10) (List.mem_append_right _ List.mem_cons_self)
  have hround := (toNumber_eq_finite_iff (show 5 < 2 ^ 256 by decide) 10).mp hasked
  rw [Significand.round_of_lt (by decide)] at hround
  cases hround

end RaylsSuite.Tokens
