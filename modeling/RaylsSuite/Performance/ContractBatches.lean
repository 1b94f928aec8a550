import Mathlib.Algebra.BigOperators.Ring.List
import RaylsSuite.Common.JsVal
import RaylsSuite.Foundation.Binary64
import RaylsSuite.Foundation.Portions
import RaylsSuite.TestUtils.TransactionBuilder

/-! # Transactions that carry many transfers

`createBatchTransactions` shares the transfers of a test out among transactions
of one size and signs these with a running nonce. The provider, the contract and
the wallet are any at all; a record of what they are given is kept beside them.
-/

namespace RaylsSuite.Performance

open Foundation Common TestUtils

/-! ## What is signed -/

/-- The arguments of `crossTransfer`, which hold one entry each for a transfer. -/
structure CrossTransferArgs where
  recipients : List String
  amounts : List Nat
  chainIds : List String
  payloads : List (List JsVal)

def amountPerTransfer : Nat := 1

/-- The arguments of transfers to one receiver, without further steps on the destination. -/
def batchArguments (transfersInThisBatch : Nat) (receiverAddress destinationChainId : String) :
    CrossTransferArgs where
  recipients := List.replicate transfersInThisBatch receiverAddress
  amounts := List.replicate transfersInThisBatch amountPerTransfer
  chainIds := List.replicate transfersInThisBatch destinationChainId
  payloads := List.replicate transfersInThisBatch []

/-- A request has the fields that a signed transaction is known by. -/
abbrev TransactionRequest (Call : Type) : Type := RawTransaction Call

/-! ## The loop -/

/-- The calls of the provider, of the contract's `crossTransfer` and of the wallet. -/
structure BatchSigning (σ Call Raw : Type) where
  getNetwork : Async σ JsError Nat
  getTransactionCount : String → Async σ JsError Nat
  populateTransaction : CrossTransferArgs → Async σ JsError Call
  address : String
  signTransaction : TransactionRequest Call → Async σ JsError Raw

/-- `Math.ceil(totalTransfers / batchSize)`, of batches that are not empty. -/
def numBatches (totalTransfers batchSize : Nat) : Nat := ⌈(totalTransfers : ℚ) / batchSize⌉₊

/-- The difference is not negative at the indices that the loop reaches. -/
def transfersInBatch (totalTransfers batchSize batchIndex : Nat) : Nat :=
  min batchSize (totalTransfers - batchIndex * batchSize)

namespace BatchSigning

variable {σ Call Raw : Type} (signing : BatchSigning σ Call Raw) (totalTransfers batchSize : Nat)
  (receiverAddress destinationChainId : String)

def request (chainId currentNonce transfersInThisBatch : Nat) (call : Call) :
    TransactionRequest Call where
  call
  sender := signing.address
  nonce := currentNonce
  gasPrice := 0
  gasLimit := 5000000 + transfersInThisBatch * 100000
  chainId

/-- The body of the loop, up to the signed transaction. -/
def signBatch (chainId currentNonce transfersInThisBatch : Nat) : Async σ JsError Raw :=
  fun world =>
    match signing.populateTransaction
        (batchArguments transfersInThisBatch receiverAddress destinationChainId) world with
    | (.error err, world) => (.error err, world)
    | (.ok call, world) => signing.signTransaction
        (signing.request chainId currentNonce transfersInThisBatch call) world

/-- The loop, with `left` batches still to sign. -/
def signBatches (chainId : Nat) : Nat → Nat → Nat → List Raw → Async σ JsError (List Raw)
  | 0, _, _, signedBatchTxs => fun world => (.ok signedBatchTxs, world)
  | left + 1, batchIndex, currentNonce, signedBatchTxs => fun world =>
      match signing.signBatch receiverAddress destinationChainId chainId currentNonce
          (transfersInBatch totalTransfers batchSize batchIndex) world with
      | (.error err, world) => (.error err, world)
      | (.ok signed, world) => signBatches chainId left (batchIndex + 1) (currentNonce + 1)
          (signedBatchTxs ++ [signed]) world

def createBatchTransactions : Async σ JsError (List Raw) := fun world =>
  match signing.getNetwork world with
  | (.error err, world) => (.error err, world)
  | (.ok chainId, world) =>
      match signing.getTransactionCount signing.address world with
      | (.error err, world) => (.error err, world)
      | (.ok currentNonce, world) =>
          signing.signBatches totalTransfers batchSize receiverAddress destinationChainId chainId
            (numBatches totalTransfers batchSize) 0 currentNonce [] world

end BatchSigning

/-! ## The numbers -/

section Numbers

variable {totalTransfers batchSize : Nat}

theorem numBatches_needs (hbatchSize : 1 ≤ batchSize) :
    Needs batchSize totalTransfers (numBatches totalTransfers batchSize) :=
  ceil_div_needs hbatchSize totalTransfers

/-- Doubles give the same numbers, as long as the total is one that they count exactly. -/
theorem numBatches_double (htotal : totalTransfers < 2 ^ 53) (hbatchSize : 1 ≤ batchSize) :
    ⌈binary64 ((totalTransfers : ℚ) / batchSize)⌉₊ = numBatches totalTransfers batchSize ∧
      ∀ batchIndex < numBatches totalTransfers batchSize,
        binary64 ((batchIndex * batchSize : Nat) : ℚ) = (batchIndex * batchSize : Nat) := by
  refine ⟨ceil_binary64_div htotal hbatchSize, fun batchIndex hindex => ?_⟩
  exact binary64_natCast (((numBatches_needs hbatchSize batchIndex).mp hindex).trans htotal)

end Numbers

/-! ## A record of the calls -/

/-- A world with what has been recorded in it. -/
structure Traced (σ Event : Type) where
  world : σ
  events : List Event

section Trace

variable {σ ε α Event : Type}

/-- A call that is not recorded. -/
def untraced (call : Async σ ε α) : Async (Traced σ Event) ε α := fun seen =>
  ((call seen.world).1, { seen with world := (call seen.world).2 })

/-- A call that is recorded when it resolves. -/
def traced (event : α → Event) (call : Async σ ε α) : Async (Traced σ Event) ε α := fun seen =>
  match call seen.world with
  | (.error err, world) => (.error err, { seen with world })
  | (.ok value, world) => (.ok value, ⟨world, seen.events ++ [event value]⟩)

variable {call : Async σ ε α} {world after : σ} {value : α}

theorem untraced_of_ok (hcall : call world = (.ok value, after)) (events : List Event) :
    untraced call ⟨world, events⟩ = (.ok value, ⟨after, events⟩) := by
  simp [untraced, hcall]

theorem traced_of_ok (hcall : call world = (.ok value, after)) (event : α → Event)
    (events : List Event) :
    traced event call ⟨world, events⟩ = (.ok value, ⟨after, events ++ [event value]⟩) := by
  simp [traced, hcall]

end Trace

/-- A call that the loop makes, with its result. -/
inductive SigningEvent (Call Raw : Type) where
  | populated (args : CrossTransferArgs) (call : Call)
  | signed (txReq : TransactionRequest Call) (signed : Raw)

variable {σ Call Raw : Type}

def BatchSigning.tracing (signing : BatchSigning σ Call Raw) :
    BatchSigning (Traced σ (SigningEvent Call Raw)) Call Raw where
  getNetwork := untraced signing.getNetwork
  getTransactionCount account := untraced (signing.getTransactionCount account)
  populateTransaction args := traced (.populated args) (signing.populateTransaction args)
  address := signing.address
  signTransaction txReq := traced (.signed txReq) (signing.signTransaction txReq)

/-- A batch transaction, from the arguments of its call to its signature. -/
structure SignedBatch (Call Raw : Type) where
  args : CrossTransferArgs
  txReq : TransactionRequest Call
  signed : Raw

namespace SignedBatch

def transfers (batch : SignedBatch Call Raw) : Nat := batch.args.recipients.length

def events (batch : SignedBatch Call Raw) : List (SigningEvent Call Raw) :=
  [.populated batch.args batch.txReq.call, .signed batch.txReq batch.signed]

end SignedBatch

/-! ## What the loop signs -/

namespace BatchSigning

variable {signing : BatchSigning σ Call Raw} {totalTransfers batchSize : Nat}
  {receiverAddress destinationChainId : String}

/-- A body that resolves has populated one call and signed it. -/
theorem signBatch_spec {chainId currentNonce transfersInThisBatch : Nat} {world after : σ}
    {signed : Raw}
    (hresolved : signing.signBatch receiverAddress destinationChainId chainId currentNonce
      transfersInThisBatch world = (.ok signed, after))
    (events : List (SigningEvent Call Raw)) :
    ∃ batch : SignedBatch Call Raw,
      batch.args = batchArguments transfersInThisBatch receiverAddress destinationChainId ∧
      batch.txReq.nonce = currentNonce ∧ batch.signed = signed ∧
      signing.tracing.signBatch receiverAddress destinationChainId chainId currentNonce
        transfersInThisBatch ⟨world, events⟩ = (.ok signed, ⟨after, events ++ batch.events⟩) := by
  unfold signBatch at hresolved
  split at hresolved
  next => cases hresolved
  next call middle hpopulated =>
    refine ⟨⟨_, signing.request chainId currentNonce transfersInThisBatch call, signed⟩, rfl, rfl,
      rfl, ?_⟩
    simp only [signBatch, tracing, traced_of_ok hpopulated]
    refine (traced_of_ok hresolved _ _).trans ?_
    rw [List.append_assoc]
    rfl

/-- The batches of the loop from an index and a nonce on, in order. -/
structure Signs (totalTransfers batchSize : Nat) (receiverAddress destinationChainId : String)
    (left batchIndex currentNonce : Nat) (batches : List (SignedBatch Call Raw)) : Prop where
  args : batches.map SignedBatch.args = (List.range' batchIndex left).map fun index =>
    batchArguments (transfersInBatch totalTransfers batchSize index) receiverAddress
      destinationChainId
  nonces : batches.map (fun batch => batch.txReq.nonce) = List.range' currentNonce left

/-- A resolved signing loop has signed some batches in a row from the current nonce on. -/
theorem signBatches_spec {chainId left batchIndex currentNonce : Nat}
    {signedBatchTxs resolved : List Raw} {world after : σ}
    (hresolved : signing.signBatches totalTransfers batchSize receiverAddress destinationChainId
      chainId left batchIndex currentNonce signedBatchTxs world = (.ok resolved, after))
    (events : List (SigningEvent Call Raw)) :
    ∃ batches : List (SignedBatch Call Raw),
      resolved = signedBatchTxs ++ batches.map SignedBatch.signed ∧
      signing.tracing.signBatches totalTransfers batchSize receiverAddress destinationChainId
        chainId left batchIndex currentNonce signedBatchTxs ⟨world, events⟩ =
          (.ok resolved, ⟨after, events ++ batches.flatMap SignedBatch.events⟩) ∧
      Signs totalTransfers batchSize receiverAddress destinationChainId left batchIndex
        currentNonce batches := by
  induction left generalizing batchIndex currentNonce signedBatchTxs world events with
  | zero =>
      obtain ⟨hsigned, rfl⟩ := Prod.mk.inj hresolved
      obtain rfl := Except.ok.inj hsigned
      exact ⟨[], (List.append_nil _).symm, by simp [signBatches], rfl, rfl⟩
  | succ left ih =>
      simp only [signBatches] at hresolved
      split at hresolved
      next => cases hresolved
      next signed middle hsigned =>
        obtain ⟨batch, hargs, hnonce, rfl, htraced⟩ := signBatch_spec hsigned events
        obtain ⟨batches, rfl, hrest, hrestArgs, hrestNonces⟩ :=
          ih hresolved (events ++ batch.events)
        refine ⟨batch :: batches, ?_, ?_, ?_, ?_⟩
        · rw [List.map_cons, List.append_assoc, List.singleton_append]
        · simp only [signBatches, htraced, hrest, List.flatMap_cons, List.append_assoc]
        · rw [List.map_cons, hargs, hrestArgs, List.range'_succ, List.map_cons]
        · rw [List.map_cons, hnonce, hrestNonces, List.range'_succ]

/-- Resolved batches are signed from the starting nonce on and split the total. -/
theorem createBatchTransactions_spec {startingNonce : Nat} {world after : σ}
    {signedBatchTxs : List Raw}
    (hnonce : (signing.getTransactionCount signing.address (signing.getNetwork world).2).1 =
      .ok startingNonce)
    (hresolved : signing.createBatchTransactions totalTransfers batchSize receiverAddress
      destinationChainId world = (.ok signedBatchTxs, after)) :
    ∃ batches : List (SignedBatch Call Raw),
      batches.map SignedBatch.signed = signedBatchTxs ∧
      signing.tracing.createBatchTransactions totalTransfers batchSize receiverAddress
        destinationChainId ⟨world, []⟩ =
          (.ok signedBatchTxs, ⟨after, batches.flatMap SignedBatch.events⟩) ∧
      Signs totalTransfers batchSize receiverAddress destinationChainId
        (numBatches totalTransfers batchSize) 0 startingNonce batches := by
  unfold createBatchTransactions at hresolved
  split at hresolved
  next => cases hresolved
  next chainId middle hnetwork =>
    rw [hnetwork] at hnonce
    split at hresolved
    next => cases hresolved
    next currentNonce begun hcount =>
      rw [hcount] at hnonce
      obtain rfl := Except.ok.inj hnonce
      obtain ⟨batches, rfl, htraced, hsigns⟩ := signBatches_spec hresolved []
      refine ⟨batches, rfl, ?_, hsigns⟩
      simp only [createBatchTransactions, tracing, untraced_of_ok hnetwork, untraced_of_ok hcount]
      exact htraced

/-- The provider, the contract and the wallet reject nothing. -/
structure Answers (signing : BatchSigning σ Call Raw) : Prop where
  getNetwork : ∀ world, ∃ chainId after, signing.getNetwork world = (.ok chainId, after)
  getTransactionCount : ∀ account world, ∃ count after,
    signing.getTransactionCount account world = (.ok count, after)
  populateTransaction : ∀ args world, ∃ call after,
    signing.populateTransaction args world = (.ok call, after)
  signTransaction : ∀ txReq world, ∃ signed after,
    signing.signTransaction txReq world = (.ok signed, after)

/-- The signing loop resolves when every call that it makes is answered. -/
theorem Answers.signBatches (hanswers : signing.Answers)
    (chainId left batchIndex currentNonce : Nat) (signedBatchTxs : List Raw) (world : σ) :
    ∃ resolved after, signing.signBatches totalTransfers batchSize receiverAddress
      destinationChainId chainId left batchIndex currentNonce signedBatchTxs world =
        (.ok resolved, after) := by
  induction left generalizing batchIndex currentNonce signedBatchTxs world with
  | zero => exact ⟨signedBatchTxs, world, rfl⟩
  | succ left ih =>
      obtain ⟨call, middle, hpopulated⟩ := hanswers.populateTransaction
        (batchArguments (transfersInBatch totalTransfers batchSize batchIndex) receiverAddress
          destinationChainId) world
      obtain ⟨signed, next, hsigned⟩ := hanswers.signTransaction
        (signing.request chainId currentNonce
          (transfersInBatch totalTransfers batchSize batchIndex) call) middle
      simp only [BatchSigning.signBatches, signBatch, hpopulated, hsigned]
      exact ih (batchIndex + 1) (currentNonce + 1) (signedBatchTxs ++ [signed]) next

theorem Answers.createBatchTransactions (hanswers : signing.Answers) (world : σ) :
    ∃ signedBatchTxs after, signing.createBatchTransactions totalTransfers batchSize
      receiverAddress destinationChainId world = (.ok signedBatchTxs, after) := by
  obtain ⟨chainId, middle, hnetwork⟩ := hanswers.getNetwork world
  obtain ⟨currentNonce, begun, hcount⟩ := hanswers.getTransactionCount signing.address middle
  simp only [BatchSigning.createBatchTransactions, hnetwork, hcount]
  exact hanswers.signBatches chainId _ 0 currentNonce [] begun

end BatchSigning

/-! ## The partition -/

/-- The arguments hold the same number of entries each. -/
structure CrossTransferArgs.Aligned (args : CrossTransferArgs) (transfers : Nat) : Prop where
  recipients : args.recipients.length = transfers
  amounts : args.amounts.length = transfers
  chainIds : args.chainIds.length = transfers
  payloads : args.payloads.length = transfers

/-- The batches hold the transfers once each: none is empty, all but the last are full, and their
nonces leave no gap. -/
structure Partitions (totalTransfers batchSize startingNonce : Nat)
    (batches : List (SignedBatch Call Raw)) : Prop where
  total : (batches.map SignedBatch.transfers).sum = totalTransfers
  bounds : ∀ batch ∈ batches, 1 ≤ batch.transfers ∧ batch.transfers ≤ batchSize
  full : ∀ batch ∈ batches.dropLast, batch.transfers = batchSize
  aligned : ∀ batch ∈ batches, batch.args.Aligned batch.transfers
  nonces : batches.map (fun batch => batch.txReq.nonce) =
    List.range' startingNonce batches.length
  amount : (batches.map fun batch => batch.args.amounts.sum).sum =
    totalTransfers * amountPerTransfer

section Partition

open BatchSigning

variable {totalTransfers batchSize left batchIndex startingNonce : Nat}
  {receiverAddress destinationChainId : String} {batches : List (SignedBatch Call Raw)}

theorem batchArguments_aligned (transfersInThisBatch : Nat)
    (receiverAddress destinationChainId : String) :
    (batchArguments transfersInThisBatch receiverAddress destinationChainId).Aligned
      transfersInThisBatch :=
  ⟨List.length_replicate, List.length_replicate, List.length_replicate, List.length_replicate⟩

theorem SignedBatch.transfers_of_args {batch : SignedBatch Call Raw} {transfersInThisBatch : Nat}
    (hargs : batch.args = batchArguments transfersInThisBatch receiverAddress destinationChainId) :
    batch.transfers = transfersInThisBatch := by
  rw [SignedBatch.transfers, hargs, (batchArguments_aligned ..).recipients]

namespace BatchSigning.Signs

variable (hsigns : Signs totalTransfers batchSize receiverAddress destinationChainId left
  batchIndex startingNonce batches)

include hsigns

theorem length : batches.length = left := by
  have hlengths := congrArg List.length hsigns.nonces
  simpa using hlengths

/-- The transfers of the batches are the portions of the total. -/
theorem transfers : batches.map SignedBatch.transfers =
    (List.range' batchIndex left).map (portion batchSize totalTransfers) := by
  have hrecipients := congrArg (List.map fun args => args.recipients.length) hsigns.args
  simp only [List.map_map] at hrecipients
  refine hrecipients.trans (List.map_congr_left fun index _ => ?_)
  exact List.length_replicate

theorem mem_batch {batch : SignedBatch Call Raw} (hmem : batch ∈ batches) :
    batch.args = batchArguments batch.transfers receiverAddress destinationChainId := by
  have hargs : batch.args ∈ batches.map SignedBatch.args := List.mem_map_of_mem hmem
  rw [hsigns.args] at hargs
  obtain ⟨index, -, heq⟩ := List.mem_map.mp hargs
  rw [SignedBatch.transfers_of_args heq.symm]
  exact heq.symm

theorem mem_transfers {batch : SignedBatch Call Raw} (hmem : batch ∈ batches) :
    ∃ index, index < batchIndex + left ∧
      batch.transfers = portion batchSize totalTransfers index := by
  have htransfers : batch.transfers ∈ batches.map SignedBatch.transfers :=
    List.mem_map_of_mem hmem
  rw [hsigns.transfers] at htransfers
  obtain ⟨index, hindex, heq⟩ := List.mem_map.mp htransfers
  exact ⟨index, (List.mem_range'_1.mp hindex).2, heq.symm⟩

/-- All but the last. -/
theorem dropLast : Signs totalTransfers batchSize receiverAddress destinationChainId (left - 1)
    batchIndex startingNonce batches.dropLast := by
  cases left with
  | zero =>
      obtain rfl := List.length_eq_zero_iff.mp hsigns.length
      exact ⟨rfl, rfl⟩
  | succ left =>
      have hargs := congrArg List.dropLast hsigns.args
      have hnonces := congrArg List.dropLast hsigns.nonces
      simp only [List.range'_1_concat, List.map_append, List.map_singleton,
        List.dropLast_concat, ← List.map_dropLast] at hargs hnonces
      exact ⟨hargs, hnonces⟩

end BatchSigning.Signs

/-- The batches of the whole loop partition the transfers. -/
theorem partitions_of_signs (hbatchSize : 1 ≤ batchSize)
    (hsigns : Signs totalTransfers batchSize receiverAddress destinationChainId
      (numBatches totalTransfers batchSize) 0 startingNonce batches) :
    Partitions totalTransfers batchSize startingNonce batches := by
  have hneeds : Needs batchSize totalTransfers (numBatches totalTransfers batchSize) :=
    numBatches_needs hbatchSize
  have htotal : (batches.map SignedBatch.transfers).sum = totalTransfers := by
    rw [hsigns.transfers, hneeds.sum_portions]
  refine ⟨htotal, fun batch hmem => ?_, fun batch hmem => ?_, fun batch hmem => ?_, ?_, ?_⟩
  · obtain ⟨index, hindex, htransfers⟩ := hsigns.mem_transfers hmem
    rw [htransfers]
    exact ⟨hneeds.portion_pos hbatchSize (by omega), portion_le ..⟩
  · obtain ⟨index, hindex, htransfers⟩ := hsigns.dropLast.mem_transfers hmem
    rw [htransfers]
    exact hneeds.portion_full (by omega)
  · rw [hsigns.mem_batch hmem]
    exact batchArguments_aligned ..
  · rw [hsigns.length]
    exact hsigns.nonces
  · have hamounts : ∀ batch ∈ batches,
        batch.args.amounts.sum = batch.transfers * amountPerTransfer := by
      intro batch hmem
      rw [hsigns.mem_batch hmem, batchArguments, List.sum_replicate_nat]
    rw [List.map_congr_left hamounts, List.sum_map_mul_right, htotal]

end Partition

/-- For every total, every size of the batches and every nonce that the provider answers: the
batches that are populated and signed partition the transfers. All of them are signed unless one
of the calls rejects. -/
theorem createBatchTransactions_partitions (signing : BatchSigning σ Call Raw)
    (totalTransfers batchSize : Nat) (hbatchSize : 1 ≤ batchSize)
    (receiverAddress destinationChainId : String) :
    (∀ (startingNonce : Nat) (world after : σ) (signedBatchTxs : List Raw),
      (signing.getTransactionCount signing.address (signing.getNetwork world).2).1 =
        .ok startingNonce →
      signing.createBatchTransactions totalTransfers batchSize receiverAddress destinationChainId
        world = (.ok signedBatchTxs, after) →
      ∃ batches : List (SignedBatch Call Raw),
        batches.map SignedBatch.signed = signedBatchTxs ∧
        signing.tracing.createBatchTransactions totalTransfers batchSize receiverAddress
          destinationChainId ⟨world, []⟩ =
            (.ok signedBatchTxs, ⟨after, batches.flatMap SignedBatch.events⟩) ∧
        Partitions totalTransfers batchSize startingNonce batches) ∧
    (signing.Answers → ∀ world, ∃ signedBatchTxs after,
      signing.createBatchTransactions totalTransfers batchSize receiverAddress destinationChainId
        world = (.ok signedBatchTxs, after)) := by
  refine ⟨fun startingNonce world after signedBatchTxs hnonce hresolved => ?_,
    fun hanswers world => hanswers.createBatchTransactions world⟩
  obtain ⟨batches, hsigned, htraced, hsigns⟩ :=
    BatchSigning.createBatchTransactions_spec hnonce hresolved
  exact ⟨batches, hsigned, htraced, partitions_of_signs hbatchSize hsigns⟩

/-- A wallet with 7 transactions, which signs what a contract gives back as it was called. -/
def openSigning : BatchSigning Unit CrossTransferArgs (TransactionRequest CrossTransferArgs) where
  getNetwork world := (.ok 1, world)
  getTransactionCount _ world := (.ok 7, world)
  populateTransaction args world := (.ok args, world)
  address := "0xa"
  signTransaction txReq world := (.ok txReq, world)

/-- Two full batches, and one for the rest. -/
theorem createBatchTransactions_partitions_rest :
    ∃ batches : List (SignedBatch CrossTransferArgs (TransactionRequest CrossTransferArgs)),
      Partitions 25 10 7 batches ∧
      batches.map (fun batch => batch.signed.call.recipients.length) = [10, 10, 5] := by
  have hcount : numBatches 25 10 = 3 := by decide +kernel
  obtain ⟨signedBatchTxs, hresolved, hlengths⟩ : ∃ signedBatchTxs,
      openSigning.createBatchTransactions 25 10 "0xb" "2" () = (.ok signedBatchTxs, ()) ∧
      signedBatchTxs.map (fun txReq => txReq.call.recipients.length) = [10, 10, 5] := by
    simp only [BatchSigning.createBatchTransactions, hcount]
    exact ⟨_, rfl, rfl⟩
  obtain ⟨batches, rfl, -, hpartitions⟩ :=
    (createBatchTransactions_partitions openSigning 25 10 (by decide) "0xb" "2").1 7 () () _ rfl
      hresolved
  rw [List.map_map] at hlengths
  exact ⟨batches, hpartitions, hlengths⟩

end RaylsSuite.Performance
