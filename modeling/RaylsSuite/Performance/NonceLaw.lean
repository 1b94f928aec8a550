import RaylsSuite.Performance.NonceSenders

/-! # When the nonces leave no gap

The signer of every transaction is the node's own wallet, to which the node
binds a contract that it is asked for without a signer. The transactions are
therefore gap-free only when that wallet's pending nonce is the one that was
fetched for the token's wallet; the sequential sender must in addition meet no
failure before its last transaction.
-/

namespace RaylsSuite.Performance

open Foundation Foundation.Submission Common Entities

/-- The transactions of an account, in the order in which the node saw them. -/
def submissionsOf (account : String) (handed : List HandedTransaction) : List Submission :=
  (handed.filter (·.account = account)).map HandedTransaction.toSubmission

/-- Every account hands over its transactions in turn, and those accepted leave no gap. -/
def GapFreeAccounts (counts : TransactionCounts) (handed : List HandedTransaction) : Prop :=
  ∀ account, GapFree (counts.pending account) (submissionsOf account handed)

/-- The transactions of one account, numbered by a local counter. -/
structure Numbered (account : String) (advances : Attempt → Bool) (nonce : Nat)
    (attempts : List Attempt) (handed : List HandedTransaction) : Prop where
  signed : ∀ transaction ∈ handed, transaction.account = account
  counted : handed.map HandedTransaction.toSubmission = counted advances nonce attempts

section Loops

variable {account : String} {advances : Attempt → Bool} {nonce : Nat} {attempt : Attempt}
  {attempts : List Attempt} {first others handed : List HandedTransaction}

theorem Numbered.submissionsOf_self (hnumbered : Numbered account advances nonce attempts handed) :
    submissionsOf account handed = Submission.counted advances nonce attempts := by
  have hall : handed.filter (·.account = account) = handed :=
    List.filter_eq_self.mpr fun transaction hmem => decide_eq_true (hnumbered.signed _ hmem)
  rw [submissionsOf, hall, hnumbered.counted]

theorem Numbered.submissionsOf_other {other : String}
    (hnumbered : Numbered account advances nonce attempts handed) (hne : account ≠ other) :
    submissionsOf other handed = [] := by
  have hnone : handed.filter (·.account = other) = [] :=
    List.filter_eq_nil_iff.mpr fun transaction hmem => by
      rw [hnumbered.signed _ hmem]
      simpa using hne
  rw [submissionsOf, hnone, List.map_nil]

/-- Numbered transactions leave no gap on any account exactly when they are in turn on their
own. -/
theorem Numbered.gapFreeAccounts_iff {counts : TransactionCounts}
    (hnumbered : Numbered account advances nonce attempts handed) :
    GapFreeAccounts counts handed ↔
      InTurn (counts.pending account) (Submission.counted advances nonce attempts) := by
  constructor
  · intro hfree
    rw [← hnumbered.submissionsOf_self]
    exact (hfree account).inTurn
  · intro hturn other
    rw [gapFree_iff]
    by_cases hsame : account = other
    · subst hsame
      rwa [hnumbered.submissionsOf_self]
    · rw [hnumbered.submissionsOf_other hsame]
      trivial

theorem Numbered.of_none (hnone : ∀ attempt ∈ attempts, attempt = none) :
    Numbered account advances nonce attempts [] :=
  ⟨fun _ hmem => absurd hmem List.not_mem_nil, (counted_of_none hnone).symm⟩

/-- One more attempt in front of numbered attempts. -/
theorem Numbered.cons (hfirst : Numbered account advances nonce [attempt] first)
    (hothers : Numbered account advances (if advances attempt then nonce + 1 else nonce)
      attempts others) :
    Numbered account advances nonce (attempt :: attempts) (first ++ others) where
  signed transaction hmem :=
    (List.mem_append.mp hmem).elim (hfirst.signed transaction) (hothers.signed transaction)
  counted := by
    rw [List.map_append, hfirst.counted, hothers.counted]
    simp [Submission.counted]

/-- A pass hands over what one attempt numbers and moves its counter as `advances` says. -/
structure Pass {State Item : Type} (account : String) (advances : Attempt → Bool)
    (currentNonce : State → Nat) (attempt : State → Item → Attempt)
    (pass : State → Item → State × List HandedTransaction) (state : State) (item : Item) :
    Prop where
  numbered : Numbered account advances (currentNonce state) [attempt state item]
    (pass state item).2
  advanced : currentNonce (pass state item).1 =
    if advances (attempt state item) then currentNonce state + 1 else currentNonce state
  settled : attempt (pass state item).1 = attempt state

/-- A loop whose passes are numbered is numbered as a whole. -/
theorem sendEach_numbered {State Item : Type} {currentNonce : State → Nat}
    {attempt : State → Item → Attempt} {pass : State → Item → State × List HandedTransaction}
    (hpass : ∀ state item, Pass account advances currentNonce attempt pass state item)
    (state : State) (items : List Item) :
    Numbered account advances (currentNonce state) (items.map (attempt state))
      (sendEach pass state items).2 := by
  induction items generalizing state with
  | nil => exact Numbered.of_none (by simp)
  | cons item rest ih =>
      obtain ⟨hnumbered, hadvanced, hsettled⟩ := hpass state item
      refine hnumbered.cons ?_
      rw [← hadvanced, ← hsettled]
      exact ih _

end Loops

/-! ## One call -/

section Calls

variable {Signer : Type} {getAddress : Signer → String} {contract : Contract Signer}
  {signer : Signer} (hrunner : contract.runner = some signer) (method : String) (nonce : Nat)
  (call : MethodCall)

include hrunner

theorem callMethod_numbered (gasLimit : Nat) (advances : Attempt → Bool) :
    Numbered (getAddress signer) advances nonce [call.attempt]
      (callMethod getAddress contract method gasLimit nonce call).2 := by
  cases call <;> simp only [callMethod, hrunner] <;>
    exact ⟨by simp, rfl⟩

theorem sendSingle_numbered (advances : Attempt → Bool) :
    Numbered (getAddress signer) advances nonce [call.attempt]
      (sendSingle getAddress contract method nonce call).2 := by
  rw [sendSingle_handed]
  exact callMethod_numbered hrunner method nonce call 1000000 advances

/-- A send gives a hash exactly for an accepted transaction, so the counter moves with it. -/
theorem record_sendSingle (state : CountedSends) :
    (state.record (sendSingle getAddress contract method nonce call).1).currentNonce =
      if call.attempt == some true then state.currentNonce + 1 else state.currentNonce := by
  cases call with
  | accepted hash =>
      simp [sendSingle, callMethod, hrunner, CountedSends.record, hash.property, MethodCall.attempt]
  | refused err => simp [sendSingle, callMethod, hrunner, CountedSends.record, MethodCall.attempt]
  | unsent err => simp [sendSingle, callMethod, hrunner, CountedSends.record, MethodCall.attempt]

/-- The sequential sender advances its nonce on every attempt. -/
theorem SequentialSends.pass_numbered (state : SequentialSends) :
    Pass (getAddress signer) (fun _ => true) SequentialSends.currentNonce
      (fun _ call => MethodCall.attempt call) (SequentialSends.pass getAddress contract) state
      call where
  numbered := by
    rw [SequentialSends.pass_handed]
    exact callMethod_numbered hrunner "crossTransfer" state.currentNonce call 5000000 _
  advanced := SequentialSends.pass_currentNonce getAddress contract state call
  settled := rfl

variable (getAddress) in
/-- The counting sender advances its nonce only on a success. -/
theorem CountedSends.pass_numbered (state : CountedSends) :
    Pass (getAddress signer) (· == some true) CountedSends.currentNonce
      (fun _ call => MethodCall.attempt call)
      (fun state call =>
        (state.record (sendSingle getAddress contract method state.currentNonce call).1,
          (sendSingle getAddress contract method state.currentNonce call).2))
      state call where
  numbered := sendSingle_numbered hrunner method state.currentNonce call _
  advanced := record_sendSingle hrunner method state.currentNonce call state
  settled := rfl

end Calls

/-! ## The loops -/

section Tests

variable {Signer : Type} [DecidableEq Signer] (services : Services Signer)
  (node : PrivacyNode Signer) (counts : TransactionCounts) (store : ContractStore Signer)

/-- The account of the node's own wallet. -/
def signingAccount : String := services.getAddress node.userWallet

/-- What the node sees of a call, given how its contract was bound. -/
def MethodCall.reaching (bound : Except JsError (Contract Signer)) (call : MethodCall) : Attempt :=
  match bound with
  | .error _ => none
  | .ok _ => call.attempt

/-- The attempts of a test that binds the token's contract once. -/
def tokenAttempts (token : TokenWrapper Signer) (calls : List MethodCall) : List Attempt :=
  let bound := tokenContract services node token "ProductionEnygmaToken__factory" store
  calls.map (MethodCall.reaching bound.1)

/-- The attempt of a swap, whose send binds the contract itself. -/
def swapAttempt (factoryName : String) (swap : TokenWrapper Signer × MethodCall) : Attempt :=
  swap.2.reaching (tokenContract services node swap.1 factoryName store).1

variable {services node store}

theorem tokenContract_runner {token : TokenWrapper Signer} {factoryName : String}
    {contract : Contract Signer}
    (hbound : (tokenContract services node token factoryName store).1 = .ok contract) :
    contract.runner = some node.userWallet :=
  ContractStore.connectAt_runner hbound

theorem tokenAttempts_of_error {token : TokenWrapper Signer} {calls : List MethodCall}
    {err : JsError}
    (hbound : (tokenContract services node token "ProductionEnygmaToken__factory" store).1 =
      .error err) :
    ∀ attempt ∈ tokenAttempts services node store token calls, attempt = none := by
  rw [tokenAttempts, hbound]
  simp [MethodCall.reaching]

/-- Whether a contract can be bound depends on its artifact or on an entry that is there
before the first swap. -/
theorem swapAttempt_settled (factoryName : String) (token : TokenWrapper Signer) :
    swapAttempt services node (tokenContract services node token factoryName store).2 factoryName =
      swapAttempt services node store factoryName := by
  cases hartifact : services.artifacts (formatFactoryName factoryName) with
  | error err =>
      have hstore : (tokenContract services node token factoryName store).2 = store :=
        ContractStore.connectAt_store_of_error hartifact
      rw [hstore]
  | ok _ =>
      have hbound (other : TokenWrapper Signer) (store : ContractStore Signer) :
          ∃ contract, (tokenContract services node other factoryName store).1 = .ok contract :=
        ContractStore.connectAt_isOk hartifact
      funext swap
      obtain ⟨_, hafter⟩ := hbound swap.1 (tokenContract services node token factoryName store).2
      obtain ⟨_, hbefore⟩ := hbound swap.1 store
      simp only [swapAttempt, hafter, hbefore, MethodCall.reaching]

/-- The sequential sends of a token are numbered from its starting nonce. -/
theorem EnygmaSequential.sends_numbered (token : TokenWrapper Signer) (calls : List MethodCall) :
    Numbered (signingAccount services node) (fun _ => true) (startNonce services counts token)
      (tokenAttempts services node store token calls)
      (EnygmaSequential.sends services node counts store token calls).2 := by
  unfold EnygmaSequential.sends
  split
  next hbound => exact Numbered.of_none (tokenAttempts_of_error hbound)
  next tokenOnPNA hbound =>
    have hpass (state : SequentialSends) (call : MethodCall) :
        Pass (signingAccount services node) (fun _ => true) SequentialSends.currentNonce
          (fun _ call => MethodCall.attempt call)
          (SequentialSends.pass services.getAddress tokenOnPNA) state call :=
      SequentialSends.pass_numbered (tokenContract_runner hbound) call state
    rw [tokenAttempts, hbound]
    exact sendEach_numbered hpass ⟨startNonce services counts token, []⟩ calls

/-- The counted sends of a token are numbered from its starting nonce. -/
theorem countedSends_numbered (method : String) (token : TokenWrapper Signer)
    (calls : List MethodCall) :
    Numbered (signingAccount services node) (· == some true) (startNonce services counts token)
      (tokenAttempts services node store token calls)
      (countedSends services node counts store
        (fun getAddress contract => sendSingle getAddress contract method) token calls).2 := by
  unfold countedSends
  split
  next hbound => exact Numbered.of_none (tokenAttempts_of_error hbound)
  next tokenOnPNA hbound =>
    have hpass (state : CountedSends) (call : MethodCall) :=
      CountedSends.pass_numbered services.getAddress (tokenContract_runner hbound) method call state
    rw [tokenAttempts, hbound]
    exact sendEach_numbered hpass ⟨startNonce services counts token, 0, 0⟩ calls

/-- A swap of one side advances the nonce only on a success. -/
theorem sideSwaps_pass (factoryName method : String) (state : CountedSends × ContractStore Signer)
    (swap : TokenWrapper Signer × MethodCall) :
    Pass (signingAccount services node) (· == some true) (fun state => state.1.currentNonce)
      (fun state => swapAttempt services node state.2 factoryName)
      (fun state swap =>
        let result := sendSideSwap services node factoryName method swap.1 state.1.currentNonce
          swap.2 state.2
        ((state.1.record result.1.1, result.2), result.1.2))
      state swap := by
  have hsettled :
      swapAttempt services node (sendSideSwap services node factoryName method swap.1
          state.1.currentNonce swap.2 state.2).2 factoryName =
        swapAttempt services node state.2 factoryName := by
    rw [sendSideSwap_store, swapAttempt_settled]
  cases hbound : (tokenContract services node swap.1 factoryName state.2).1 with
  | error err =>
      have hattempt : swapAttempt services node state.2 factoryName swap = none := by
        simp only [swapAttempt, hbound, MethodCall.reaching]
      refine ⟨?_, ?_, hsettled⟩ <;> dsimp only <;>
        rw [sendSideSwap_of_error _ _ _ hbound, hattempt]
      · exact Numbered.of_none (by simp)
      · rfl
  | ok contract =>
      have hrunner := tokenContract_runner hbound
      have hattempt : swapAttempt services node state.2 factoryName swap = swap.2.attempt := by
        simp only [swapAttempt, hbound, MethodCall.reaching]
      refine ⟨?_, ?_, hsettled⟩ <;> dsimp only <;>
        rw [sendSideSwap_of_ok _ _ _ hbound, hattempt]
      · exact sendSingle_numbered hrunner method state.1.currentNonce swap.2 _
      · exact record_sendSingle hrunner method state.1.currentNonce swap.2 state.1

/-- The swaps of one side are numbered from the starting nonce of the first. -/
theorem sideSwaps_numbered (factoryName method : String)
    {swaps : List (TokenWrapper Signer × MethodCall)} {first : TokenWrapper Signer × MethodCall}
    (hfirst : swaps.head? = some first) :
    Numbered (signingAccount services node) (· == some true) (startNonce services counts first.1)
      (swaps.map (swapAttempt services node store factoryName))
      (sideSwaps services counts store (sendSideSwap services node factoryName method)
        swaps).2 := by
  obtain ⟨rest, rfl⟩ := List.head?_eq_some_iff.mp hfirst
  exact sendEach_numbered (sideSwaps_pass factoryName method)
    (⟨startNonce services counts first.1, 0, 0⟩, store) (first :: rest)

/-! ## The condition -/

/-- Nothing reaches the node, or the counter starts in place. -/
def StartsInPlace (start pending : Nat) (attempts : List Attempt) : Prop :=
  (∀ attempt ∈ attempts, attempt = none) ∨ start = pending

/-- Nothing reaches the node, or the counter is in place at the first attempt that does and
all before the last such attempt are accepted. -/
def KeepsPace (start pending : Nat) (attempts : List Attempt) : Prop :=
  (∀ attempt ∈ attempts, attempt = none) ∨
    start + (attempts.takeWhile Option.isNone).length = pending ∧
      Unbroken (attempts.dropWhile Option.isNone)

theorem sideSwaps_gapFree_iff (factoryName method : String)
    (swaps : List (TokenWrapper Signer × MethodCall)) :
    GapFreeAccounts counts
        (sideSwaps services counts store (sendSideSwap services node factoryName method) swaps).2 ↔
      ∀ first ∈ swaps.head?, StartsInPlace (startNonce services counts first.1)
        (counts.pending (signingAccount services node))
        (swaps.map (swapAttempt services node store factoryName)) := by
  cases hfirst : swaps.head? with
  | none =>
      obtain rfl := List.head?_eq_none_iff.mp hfirst
      exact iff_of_true (fun _ => gapFree_iff.mpr trivial) (by simp)
  | some first =>
      rw [(sideSwaps_numbered counts factoryName method hfirst).gapFreeAccounts_iff,
        inTurn_accepted_iff]
      simp [StartsInPlace]

theorem senders_gapFree_iff (services : Services Signer) (node : PrivacyNode Signer)
    (store : ContractStore Signer) (token : TokenWrapper Signer) (calls : List MethodCall)
    (swaps : List (TokenWrapper Signer × MethodCall)) :
    let pending := counts.pending (signingAccount services node)
    let attempts := tokenAttempts services node store token calls
    (GapFreeAccounts counts (EnygmaSequential.sends services node counts store token calls).2 ↔
        KeepsPace (startNonce services counts token) pending attempts) ∧
      (GapFreeAccounts counts (EnygmaDeposit.sends services node counts store token calls).2 ↔
        StartsInPlace (startNonce services counts token) pending attempts) ∧
      (GapFreeAccounts counts (EnygmaWithdrawal.sends services node counts store token calls).2 ↔
        StartsInPlace (startNonce services counts token) pending attempts) ∧
      (GapFreeAccounts counts (DvpSwapOnly.nftSends services node counts store swaps).2 ↔
        ∀ first ∈ swaps.head?, StartsInPlace (startNonce services counts first.1) pending
          (swaps.map (swapAttempt services node store "ProductionErc721Dvp"))) ∧
      (GapFreeAccounts counts (DvpSwapOnly.enygmaSends services node counts store swaps).2 ↔
        ∀ first ∈ swaps.head?, StartsInPlace (startNonce services counts first.1) pending
          (swaps.map (swapAttempt services node store "ProductionEnygmaToken"))) := by
  intro pending attempts
  refine ⟨?_, ?_, ?_, sideSwaps_gapFree_iff counts _ _ swaps,
    sideSwaps_gapFree_iff counts _ _ swaps⟩
  · rw [(EnygmaSequential.sends_numbered counts token calls).gapFreeAccounts_iff]
    exact inTurn_always_iff
  · exact (countedSends_numbered counts _ token calls).gapFreeAccounts_iff.trans inTurn_accepted_iff
  · exact (countedSends_numbered counts _ token calls).gapFreeAccounts_iff.trans inTurn_accepted_iff

end Tests

/-! ## Two failing runs -/

section Failing

def nodeWallet : Wallet := .child (createUserOperator 7)

def performanceNode : PrivacyNode Wallet := ⟨"A", "600", nodeWallet, none, "0xE1", "0xE2"⟩

def performanceToken : TokenWrapper Wallet :=
  ⟨.child (createUserOperator 8), "ab12", fun _ => "0xC0"⟩

def performanceServices : Services Wallet where
  artifacts _ := .ok ()
  getAddress wallet := if wallet = nodeWallet then "0xA1" else "0xA2"
  getAddressByResourceId _ _ := .ok "0xC0"

/-- No transaction is pending; the wallets have sent `node` and `token` before. -/
def minedCounts (node token : Nat) : TransactionCounts where
  latest account := if account = "0xA1" then node else token
  pending account := if account = "0xA1" then node else token
  latest_le _ := Nat.le_refl _

/-- The node refuses the first of two transfers; the only deposit is numbered from a wallet
that has sent three transactions, but signed by one that has sent none. -/
theorem not_gapFree_refusedTransfer :
    ¬GapFreeAccounts (minedCounts 3 3)
        (EnygmaSequential.sends performanceServices performanceNode (minedCounts 3 3)
          ContractStore.new performanceToken
          [.refused (JsError.new "connection reset"), .accepted ⟨"0x02", by decide⟩]).2 ∧
      ¬GapFreeAccounts (minedCounts 0 3)
        (EnygmaDeposit.sends performanceServices performanceNode (minedCounts 0 3)
          ContractStore.new performanceToken [.accepted ⟨"0x01", by decide⟩]).2 := by
  constructor
  · intro hfree
    exact absurd (hfree "0xA1").inTurn (by decide)
  · intro hfree
    exact absurd (hfree "0xA1").inTurn (by decide)

end Failing

end RaylsSuite.Performance
