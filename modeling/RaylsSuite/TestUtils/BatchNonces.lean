import RaylsSuite.TestUtils.BatchCount

/-! # What an attempt posts

An attempt signs the whole batch with a running nonce and posts it in slices of
the list. The slices join to the batch again, so the nonces that the endpoint
gets are those that were signed, one after the other, whatever the size of the
batch. The endpoint is any one at all; a record of the posts is kept beside it.
-/

namespace RaylsSuite.TestUtils

open Common Entities Foundation

variable {σ Raw Value Call : Type}

/-! ## A record of the posts -/

/-- A payload that was posted, and how the endpoint answered. -/
structure Post (Raw : Type) where
  payload : List (RpcRequest Raw)
  answer : Except JsError HttpResponse

/-- The answer to one item reports an error that mentions a nonce or a replacement. -/
def BatchRpcResult.ReportsNonce (r : BatchRpcResult) : Prop :=
  ∃ error, r.error = some error ∧
    (Text.includes (Text.toLowerCase error.message) "nonce" = true ∨
      Text.includes (Text.toLowerCase error.message) "replacement transaction" = true)

/-- The endpoint rejects a chunk: the call fails, it is answered with another status than 200,
or some item reports a nonce error. -/
inductive Post.Rejected (posted : Post Raw) : Prop where
  | failed {err : JsError} : posted.answer = .error err → Post.Rejected posted
  | status {response : HttpResponse} : posted.answer = .ok response → response.status ≠ 200 →
      Post.Rejected posted
  | nonce {response : HttpResponse} {r : BatchRpcResult} : posted.answer = .ok response →
      r ∈ response.data → r.ReportsNonce → Post.Rejected posted

/-- A world with what was posted in it. -/
structure Recorded (σ Raw : Type) where
  world : σ
  posts : List (Post Raw)

instance [Host σ] : Host (Recorded σ Raw) where
  delay ms recorded := { recorded with world := Host.delay ms recorded.world }
  logger recorded := Host.logger recorded.world
  setLogger logger recorded := { recorded with world := Host.setLogger logger recorded.world }

/-- A call that posts nothing. -/
def unrecorded {α : Type} (call : Async σ JsError α) : Async (Recorded σ Raw) JsError α :=
  fun recorded =>
    ((call recorded.world).1, { recorded with world := (call recorded.world).2 })

/-- `axios.post` to the endpoint, with a record of it. -/
def recording (post : List (RpcRequest Raw) → Async σ JsError HttpResponse)
    (payload : List (RpcRequest Raw)) : Async (Recorded σ Raw) JsError HttpResponse :=
  fun recorded => ((post payload recorded.world).1, ⟨(post payload recorded.world).2,
    recorded.posts ++ [⟨payload, (post payload recorded.world).1⟩]⟩)

/-! ## Signing -/

/-- A signed batch has consecutive nonces from the given one on. -/
theorem signBatch_nonces (builder : TransactionBuilder Value Call) (txCount : Nat)
    (method : String) (argsList : List Value) (nonce : Nat) (overrides : Option Overrides) :
    (builder.signBatch txCount method argsList nonce overrides).map RawTransaction.nonce =
      List.range' nonce txCount := by
  induction txCount generalizing nonce with
  | zero => rfl
  | succ txCount ih =>
      rw [TransactionBuilder.signBatch, List.map_cons, ih, List.range'_succ]
      rfl

/-! ## Slicing -/

/-- The slices from one on hold the transactions from there on. -/
theorem flatMap_chunkAt (transactions : List Raw) (left chunk : Nat)
    (hend : chunk + left = chunkCount transactions.length) :
    (List.range' chunk left).flatMap (fun i => chunkAt transactions (i * JSON_RPC_BATCH_SIZE)) =
      transactions.drop (chunk * JSON_RPC_BATCH_SIZE) := by
  induction left generalizing chunk with
  | zero =>
      rw [List.range'_zero, List.flatMap_nil, eq_comm, List.drop_eq_nil_iff]
      simp only [chunkCount, JSON_RPC_BATCH_SIZE] at hend ⊢
      omega
  | succ left ih =>
      have hnext : (chunk + 1) * JSON_RPC_BATCH_SIZE =
          chunk * JSON_RPC_BATCH_SIZE + JSON_RPC_BATCH_SIZE := Nat.succ_mul _ _
      rw [List.range'_succ, List.flatMap_cons, ih (chunk + 1) (by omega), hnext, ← List.drop_drop]
      exact List.take_append_drop _ _

theorem batchPayload_ids (batch : List Raw) :
    (batchPayload batch).map RpcRequest.id = List.range' 1 batch.length := by
  refine List.ext_getElem (by simp) fun i hi hrange => ?_
  simp [batchPayload, Nat.add_comm]

/-- A payload of one JSON-RPC call: neither empty nor longer than the limit, with ids that
count from 1. -/
structure Bounded (payload : List (RpcRequest Raw)) : Prop where
  pos : 1 ≤ payload.length
  le_size : payload.length ≤ 100
  ids : payload.map RpcRequest.id = List.range' 1 payload.length

theorem bounded_chunkAt {transactions : List (RawTransaction Call)} {chunk : Nat}
    (hchunk : chunk < chunkCount transactions.length) :
    Bounded (batchPayload (chunkAt transactions (chunk * JSON_RPC_BATCH_SIZE))) where
  pos := by
    rw [batchPayload_length, chunkAt_length]
    exact chunkSize_pos hchunk
  le_size := by
    rw [batchPayload_length, chunkAt_length]
    exact Nat.min_le_left _ _
  ids := by rw [batchPayload_ids, batchPayload_length]

/-! ## Posting -/

variable {post : List (RpcRequest (RawTransaction Call)) → Async σ JsError HttpResponse}

/-- A result is a nonce error exactly when its answer reports the nonce. -/
theorem isNonceError_iff (r : BatchRpcResult) : r.isNonceError = true ↔ r.ReportsNonce := by
  unfold BatchRpcResult.isNonceError BatchRpcResult.ReportsNonce
  cases r.error with
  | none => decide
  | some error =>
      -- an empty text stands in for an empty message
      have hmessage : Text.orElse (some error.message) "" = error.message := by
        rw [Text.orElse, ite_eq_right_iff]
        exact Eq.symm
      simp [hmessage]

/-- `hasNonceError` looks for the reports of a nonce error. -/
theorem hasNonceError_iff (results : List BatchRpcResult) :
    hasNonceError results = true ↔ ∃ r ∈ results, r.ReportsNonce := by
  rw [hasNonceError, List.any_eq_true]
  apply exists_congr
  intro r
  rw [isNonceError_iff]

/-- A chunk is posted once, and it ends the loop only if the endpoint rejects it. -/
theorem postChunk_posts {batch : List (RawTransaction Call)} (hbatch : batch ≠ [])
    {recorded next : Recorded σ (RawTransaction Call)} {outcome : Except JsError Unit}
    (hsettled : postChunk (recording post) batch recorded = (outcome, next)) :
    ∃ posted, next.posts = recorded.posts ++ [posted] ∧
      posted.payload = batchPayload batch ∧ (¬posted.Rejected → outcome = .ok ()) := by
  have hlength : batch.length ≠ 0 := mt List.length_eq_zero_iff.mp hbatch
  refine ⟨⟨batchPayload batch, (post (batchPayload batch) recorded.world).1⟩, ?_, rfl, ?_⟩
  · have hnext : (postChunk (recording post) batch recorded).2 = next :=
      congrArg Prod.snd hsettled
    rw [← hnext]
    simp only [postChunk, sendBatchRawTransactions, if_neg hlength, recording]
    cases (post (batchPayload batch) recorded.world).1 with
    | error err => rfl
    | ok response =>
        by_cases hstatus : response.status = 200
        · simp only [hstatus, ne_eq, not_true_eq_false, if_false]
          split_ifs <;> rfl
        · simp only [ne_eq, hstatus, not_false_eq_true, if_true]
  · intro haccepted
    have houtcome : (postChunk (recording post) batch recorded).1 = outcome :=
      congrArg Prod.fst hsettled
    rw [← houtcome]
    simp only [postChunk, sendBatchRawTransactions, if_neg hlength, recording]
    cases hanswer : (post (batchPayload batch) recorded.world).1 with
    | error err => exact absurd (.failed hanswer) haccepted
    | ok response =>
        have hstatus : response.status = 200 := by
          by_contra hother
          exact haccepted (.status hanswer hother)
        have hnonce : hasNonceError response.data = false := by
          rw [Bool.eq_false_iff, ne_eq, hasNonceError_iff]
          intro hreports
          obtain ⟨r, hmem, hreported⟩ := hreports
          exact haccepted (.nonce hanswer hmem hreported)
        simp [hstatus, hnonce]

/-- The loop over the slices that are still to come: they are posted one after the other if
nothing that was posted is rejected. -/
theorem postChunks_posts (transactions : List (RawTransaction Call)) (left chunk : Nat)
    (hend : chunk + left = chunkCount transactions.length)
    {recorded next : Recorded σ (RawTransaction Call)} {outcome : Except JsError Unit}
    (hsettled : postChunks (recording post) transactions
      ((List.range' chunk left).map (· * JSON_RPC_BATCH_SIZE)) recorded = (outcome, next))
    (haccepted : ∀ posted ∈ next.posts, ¬posted.Rejected) :
    outcome = .ok () ∧ next.posts.map Post.payload = recorded.posts.map Post.payload ++
      (List.range' chunk left).map fun i =>
        batchPayload (chunkAt transactions (i * JSON_RPC_BATCH_SIZE)) := by
  induction left generalizing chunk recorded with
  | zero =>
      obtain ⟨rfl, rfl⟩ := Prod.mk.inj hsettled
      simp
  | succ left ih =>
      simp only [List.range'_succ, List.map_cons, postChunks] at hsettled
      have hbatch : chunkAt transactions (chunk * JSON_RPC_BATCH_SIZE) ≠ [] := by
        have hpositive : 0 < chunkSize transactions.length chunk := chunkSize_pos (by omega)
        rw [← chunkAt_length] at hpositive
        exact List.ne_nil_of_length_pos hpositive
      generalize hchunk : postChunk (recording post) (chunkAt transactions
        (chunk * JSON_RPC_BATCH_SIZE)) recorded = settled at hsettled
      obtain ⟨result, middle⟩ := settled
      obtain ⟨posted, hmiddle, hpayload, hresult⟩ := postChunk_posts hbatch hchunk
      cases result with
      | error err =>
          obtain ⟨rfl, rfl⟩ := Prod.mk.inj hsettled
          have hmem : posted ∈ middle.posts := by rw [hmiddle]; simp
          cases hresult (haccepted posted hmem)
      | ok value =>
          obtain ⟨houtcome, hposts⟩ := ih (chunk + 1) (by omega) hsettled
          refine ⟨houtcome, ?_⟩
          rw [hposts, hmiddle, List.map_append, List.map_singleton, hpayload, List.range'_succ,
            List.map_cons, List.append_assoc]
          rfl

/-! ## The attempt -/

/-- What an attempt has posted: each nonce from the pending one on, once and in order, in
payloads that an endpoint takes. -/
structure PostedBatch (count pendingNonce : Nat)
    (posted : List (List (RpcRequest (RawTransaction Call)))) : Prop where
  nonces : (posted.flatMap (List.flatMap RpcRequest.params)).map RawTransaction.nonce =
    List.range' pendingNonce count
  bounded : ∀ payload ∈ posted, Bounded payload

/-- An attempt none of whose chunks is rejected ends well and posts the batch. -/
theorem signAndSend_posts {getTransactionCount : Async σ JsError Nat}
    (builder : TransactionBuilder Value Call) (count : Nat) (args : List Value)
    {world : σ} {next : Recorded σ (RawTransaction Call)} {outcome : Except JsError Unit}
    {pendingNonce : Nat} (hpending : (getTransactionCount world).1 = .ok pendingNonce)
    (hsettled : signAndSend builder (unrecorded getTransactionCount) (recording post) count args
      ⟨world, []⟩ = (outcome, next))
    (haccepted : ∀ posted ∈ next.posts, ¬posted.Rejected) :
    outcome = .ok () ∧ PostedBatch count pendingNonce (next.posts.map Post.payload) := by
  simp only [signAndSend, unrecorded, hpending, builder.signBatch_length] at hsettled
  generalize htransactions :
    builder.signBatch count "crossTransfer" args pendingNonce none = transactions at hsettled
  have hlength : transactions.length = count := by rw [← htransactions, builder.signBatch_length]
  rw [← hlength, List.range_eq_range'] at hsettled
  obtain ⟨houtcome, hposts⟩ := postChunks_posts transactions _ 0 (Nat.zero_add _) hsettled haccepted
  rw [hposts, List.map_nil, List.nil_append]
  refine ⟨houtcome, ?_, ?_⟩
  · rw [List.flatMap_map]
    simp only [batchPayload_params]
    rw [flatMap_chunkAt transactions _ 0 (Nat.zero_add _), Nat.zero_mul, List.drop_zero,
      ← htransactions, signBatch_nonces]
  · intro payload hmem
    obtain ⟨chunk, hchunk, rfl⟩ := List.mem_map.mp hmem
    rw [List.mem_range'_1, Nat.zero_add] at hchunk
    exact bounded_chunkAt hchunk.2

/-- For every size of the batch, every pending nonce and every endpoint: an attempt of which the
endpoint rejects no chunk succeeds and ends the call, and it has posted the nonces from the
pending one on, in payloads that an endpoint takes. -/
theorem sendBatchTransactions_posts [Host σ] {getTransactionCount : Async σ JsError Nat}
    (builder : TransactionBuilder Value Call) (count : Nat)
    (destinationAddresses amounts destinationChainIds payloads : Value)
    (world : σ) (next : Recorded σ (RawTransaction Call)) (outcome : Except JsError Unit)
    (pendingNonce : Nat) (hpending : (getTransactionCount world).1 = .ok pendingNonce)
    (hattempt : signAndSend builder (unrecorded getTransactionCount) (recording post) count
      [destinationAddresses, amounts, destinationChainIds, payloads] ⟨world, []⟩ =
        (outcome, next))
    (haccepted : ∀ posted ∈ next.posts, ¬posted.Rejected) :
    outcome = .ok () ∧
      sendBatchTransactions builder (unrecorded getTransactionCount) (recording post) count
        destinationAddresses amounts destinationChainIds payloads ⟨world, []⟩ = (.ok (), next) ∧
      PostedBatch count pendingNonce (next.posts.map Post.payload) := by
  obtain ⟨rfl, hposted⟩ := signAndSend_posts builder count _ hpending hattempt haccepted
  exact ⟨rfl, retryLoop_ok batchRetry 4 1 default hattempt, hposted⟩

/-- A node that accepts everything. -/
def acceptingSchedule : NodeSchedule := fun _ _ => ⟨fun _ => .accepted "0xc0", .ok (200, "OK")⟩

theorem acceptingSchedule_accepts (payload : List (RpcRequest (RawTransaction Call)))
    (session : BatchSession Call) :
    ¬(Post.mk payload (nodePost acceptingSchedule payload session).1).Rejected := by
  intro hrejected
  cases hrejected with
  | failed hanswer => cases hanswer
  | status hanswer hother =>
      cases hanswer
      exact hother rfl
  | nonce hanswer hmem hreported =>
      cases hanswer
      obtain ⟨entry, -, rfl⟩ := List.mem_map.mp hmem
      obtain ⟨error, herror, -⟩ := hreported
      cases herror

/-- A pending nonce of 7, and one transaction more than fits into a chunk. -/
theorem sendBatchTransactions_posts_twice :
    ∃ next : Recorded (BatchSession String) (RawTransaction String),
      sendBatchTransactions ⟨1, "0xa", fun method _ => method⟩ (unrecorded getTransactionCount)
        (recording (nodePost acceptingSchedule)) 101 () () () () ⟨.start 7, []⟩ =
          (.ok (), next) ∧
      next.posts.length = 2 ∧ PostedBatch 101 7 (next.posts.map Post.payload) := by
  generalize hattempt : signAndSend ⟨1, "0xa", fun method _ => method⟩
    (unrecorded getTransactionCount) (recording (nodePost acceptingSchedule)) 101
    [(), (), (), ()] (⟨.start 7, []⟩ : Recorded (BatchSession String) (RawTransaction String)) =
      settled
  obtain ⟨outcome, next⟩ := settled
  have hposts : ∃ first middle second last, next.posts =
      [⟨first, (nodePost acceptingSchedule first middle).1⟩,
        ⟨second, (nodePost acceptingSchedule second last).1⟩] := by
    rw [← show _ = next from congrArg Prod.snd hattempt]
    exact ⟨_, _, _, _, rfl⟩
  obtain ⟨first, middle, second, last, hposts⟩ := hposts
  have haccepted : ∀ posted ∈ next.posts, ¬posted.Rejected := by
    simp only [hposts, List.forall_mem_cons, acceptingSchedule_accepts, List.not_mem_nil,
      not_false_eq_true, true_and, false_imp_iff, implies_true]
  obtain ⟨-, hsent, hposted⟩ := sendBatchTransactions_posts _ 101 () () () () _ next outcome 7 rfl
    hattempt haccepted
  exact ⟨next, hsent, congrArg List.length hposts, hposted⟩

end RaylsSuite.TestUtils
