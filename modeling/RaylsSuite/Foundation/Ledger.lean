import Mathlib.Algebra.BigOperators.Group.Finset.Piecewise
import Mathlib.Algebra.Order.Ring.Int
import Mathlib.Data.Finset.Dedup

/-! # Ledgers of movements

A ledger lists what was credited to and debited from its accounts. The balances
of the accounts add up to the sum of the movements.
-/

namespace RaylsSuite.Foundation

universe u

/-- The movements of a ledger, the last one first. -/
abbrev Movements (Account : Type u) : Type u := List (Account × Int)

namespace Movements

variable {Account : Type u} [DecidableEq Account]

def balanceOf : Movements Account → Account → Int
  | [], _ => 0
  | movement :: rest, account =>
      (if movement.1 = account then movement.2 else 0) + balanceOf rest account

def holders (movements : Movements Account) : Finset Account :=
  (movements.map Prod.fst).toFinset

/-- The sum of all balances. -/
def total (movements : Movements Account) : Int :=
  ∑ account ∈ movements.holders, movements.balanceOf account

/-- What all accounts but one hold. -/
def others (movements : Movements Account) (account : Account) : Int :=
  movements.total - movements.balanceOf account

@[simp] theorem balanceOf_cons_self (rest : Movements Account) (account : Account) (change : Int) :
    balanceOf ((account, change) :: rest) account = change + balanceOf rest account := by
  simp [balanceOf]

theorem balanceOf_cons_ne (rest : Movements Account) {account other : Account}
    (hne : account ≠ other) (change : Int) :
    balanceOf ((account, change) :: rest) other = balanceOf rest other := by
  simp [balanceOf, hne]

/-- The balances of any accounts that include the holders add up to the movements. -/
theorem sum_balanceOf (movements : Movements Account) (accounts : Finset Account)
    (hmem : ∀ movement ∈ movements, movement.1 ∈ accounts) :
    ∑ account ∈ accounts, movements.balanceOf account = (movements.map Prod.snd).sum := by
  induction movements with
  | nil => simp [balanceOf]
  | cons movement rest ih =>
      obtain ⟨hfirst, hrest⟩ := List.forall_mem_cons.mp hmem
      simp only [balanceOf, Finset.sum_add_distrib, ih hrest, Finset.sum_ite_eq, hfirst, if_true,
        List.map_cons, List.sum_cons]

theorem total_eq (movements : Movements Account) :
    movements.total = (movements.map Prod.snd).sum :=
  sum_balanceOf movements _ fun _ hmem => List.mem_toFinset.mpr (List.mem_map_of_mem hmem)

@[simp] theorem total_cons (rest : Movements Account) (account : Account) (change : Int) :
    total ((account, change) :: rest) = change + rest.total := by
  rw [total_eq, total_eq, List.map_cons, List.sum_cons]

end Movements

end RaylsSuite.Foundation
