import RaylsSuite.Foundation.Machine
import RaylsSuite.Foundation.Parcels

/-! # Stress tests of cross transfers

Several loops send transfers of a token in both directions at the same time.
When all of them have returned, a check reads the balances of each token on its
chains one after another, while the relayers go on delivering, until they add up
to what was minted.
-/

namespace RaylsSuite.Performance

open Foundation

/-! ## The tests -/

/-- The signer's balance of a token on a node. -/
structure StressAccount where
  token : String
  node : String
deriving DecidableEq, Repr

/-- A call of `sendMultipleTransfers`. -/
structure TransferLoop where
  totalTxs : Nat
  sender : StressAccount
  receiver : StressAccount
  amount : Nat
deriving DecidableEq, Repr

/-- What one `crossTransfer` of the loop sends. -/
def TransferLoop.parcel (loop : TransferLoop) : Parcel StressAccount :=
  ⟨loop.sender, loop.receiver, loop.amount⟩

/-- The loops that run together, and for each token the balances that are added up, in the order
in which they are read. -/
structure StressTest where
  loops : List TransferLoop
  balances : List (List StressAccount)
  MINT_AMOUNT : Nat
deriving DecidableEq, Repr

/-- `Simultaneous Cross transfer A -> B, and B -> A` of separate tokens. -/
def duplex : StressTest where
  loops := [⟨100, ⟨"token1", "A"⟩, ⟨"token1", "B"⟩, 1⟩, ⟨100, ⟨"token2", "B"⟩, ⟨"token2", "A"⟩, 1⟩]
  balances := [[⟨"token1", "B"⟩, ⟨"token1", "A"⟩], [⟨"token2", "B"⟩, ⟨"token2", "A"⟩]]
  MINT_AMOUNT := 1000

/-- `Simultaneous Cross transfer A -> B, B -> A, and C -> A`. -/
def triplex : StressTest where
  loops := [⟨50, ⟨"token1", "A"⟩, ⟨"token1", "B"⟩, 19⟩, ⟨50, ⟨"token2", "B"⟩, ⟨"token2", "A"⟩, 19⟩,
    ⟨50, ⟨"token3", "C"⟩, ⟨"token3", "A"⟩, 19⟩]
  balances := [[⟨"token1", "B"⟩, ⟨"token1", "A"⟩], [⟨"token2", "B"⟩, ⟨"token2", "A"⟩],
    [⟨"token3", "C"⟩, ⟨"token3", "A"⟩]]
  MINT_AMOUNT := 1000

/-- `Simultaneous Cross transfer A -> B, and B -> A` of a single token. -/
def duplexSingleToken : StressTest where
  loops := [⟨100, ⟨"token1", "A"⟩, ⟨"token1", "B"⟩, 20⟩, ⟨100, ⟨"token1", "B"⟩, ⟨"token1", "A"⟩, 5⟩]
  balances := [[⟨"token1", "B"⟩, ⟨"token1", "A"⟩]]
  MINT_AMOUNT := 7000

/-- `Simultaneous Cross transfer A -> C and B -> C`. -/
def singleTokenToC : StressTest where
  loops := [⟨100, ⟨"token1", "A"⟩, ⟨"token1", "C"⟩, 20⟩, ⟨100, ⟨"token1", "B"⟩, ⟨"token1", "C"⟩, 5⟩]
  balances := [[⟨"token1", "A"⟩, ⟨"token1", "B"⟩, ⟨"token1", "C"⟩]]
  MINT_AMOUNT := 7000

def stressTests : List StressTest := [duplex, triplex, duplexSingleToken, singleTokenToC]

/-! ## A run -/

/-- The `attempts` of the final wait. -/
def BALANCE_ATTEMPTS : Nat := 500000000000

/-- A loop with its counter, which may have thrown. -/
structure SenderLoop where
  loop : TransferLoop
  i : Nat
  threw : Bool
deriving DecidableEq, Repr

def SenderLoop.done (sender : SenderLoop) : Bool := decide (sender.loop.totalTxs ≤ sender.i)

def SenderLoop.running (sender : SenderLoop) : Bool := !sender.threw && !sender.done

inductive StressPhase where
  /-- `Promise.all` waits for the loops. -/
  | sending
  /-- An attempt of the wait with the balances that it has still to read, and those that it has
  read. -/
  | polling (attempts : Nat) (left : List StressAccount) (read : StressAccount → Nat)
  | passed
  | failed

structure StressState where
  holdings : Holdings StressAccount
  senders : List SenderLoop
  phase : StressPhase

inductive StressLabel where
  /-- The next transfer of a loop is mined with status 1. -/
  | mined (position : Nat)
  /-- The next transfer of a loop is rejected, reverts, or has no receipt. -/
  | threw (position : Nat)
  /-- A relayer delivers a transfer, or credits it back. -/
  | settle (position : Nat) (fate : Fate)
  /-- The next `balanceOf` of the check is answered. -/
  | read
  /-- It throws, which the wait tolerates. -/
  | readThrows
  /-- The balances that were read are added up. -/
  | compare

namespace StressTest

variable (test : StressTest)

/-- The next attempt of the wait, if one is left. -/
def nextAttempt : Nat → StressPhase
  | 0 => .failed
  | attempts + 1 => .polling attempts test.balances.flatten fun _ => 0

/-- `Promise.all` resolves with the last loop. -/
def awaitLoops (senders : List SenderLoop) : StressPhase :=
  if senders.all SenderLoop.done then test.nextAttempt BALANCE_ATTEMPTS else .sending

def afterMined (senders : List SenderLoop) : StressPhase → StressPhase
  | .sending => test.awaitLoops senders
  | phase => phase

/-- `Promise.all` rejects with the first loop that throws; the others go on. -/
def afterThrow : StressPhase → StressPhase
  | .sending => .failed
  | phase => phase

/-- `balanceA + balanceB == MINT_AMOUNT` for every token. -/
def addsUp (read : StressAccount → Nat) : Bool :=
  test.balances.all fun accounts => decide ((accounts.map read).sum = test.MINT_AMOUNT)

def start (holdings : Holdings StressAccount) : StressState :=
  let senders := test.loops.map fun loop => ⟨loop, 0, false⟩
  ⟨holdings, senders, test.awaitLoops senders⟩

def step (state : StressState) : StressLabel → Option StressState
  | .mined position => do
      let sender ← state.senders[position]?
      if sender.running then
        let holdings ← state.holdings.send sender.loop.parcel
        let senders := state.senders.set position { sender with i := sender.i + 1 }
        some ⟨holdings, senders, test.afterMined senders state.phase⟩
      else none
  | .threw position => do
      let sender ← state.senders[position]?
      if sender.running then
        some { state with
          senders := state.senders.set position { sender with threw := true }
          phase := afterThrow state.phase }
      else none
  | .settle position fate =>
      (state.holdings.settle position fate).map fun holdings => { state with holdings }
  | .read =>
      match state.phase with
      | .polling attempts (account :: left) read => some { state with
          phase := .polling attempts left
            (Function.update read account (state.holdings.held account)) }
      | _ => none
  | .readThrows =>
      match state.phase with
      | .polling attempts (_ :: _) _ => some { state with phase := test.nextAttempt attempts }
      | _ => none
  | .compare =>
      match state.phase with
      | .polling attempts [] read => some { state with
          phase := if test.addsUp read then .passed else test.nextAttempt attempts }
      | _ => none

def machine : Machine StressState StressLabel := ⟨test.step⟩

end StressTest

end RaylsSuite.Performance
