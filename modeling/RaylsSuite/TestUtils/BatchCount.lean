import Mathlib.Algebra.Ring.Nat
import Mathlib.Data.List.Range
import Mathlib.Data.List.Count
import RaylsSuite.Foundation.Portions
import RaylsSuite.TestUtils.BatchTransactions

/-! # How many transactions of a batch the node accepts

A schedule of the node says how it answers every item of every chunk of every
attempt, and what becomes of the HTTP exchange. An accepted transaction raises
the pending nonce, so a later attempt signs other transactions.
-/

namespace RaylsSuite.TestUtils

open Foundation Entities Common

/-! ## The node -/

/-- The answer to one raw transaction. -/
inductive ItemReply where
  | accepted (hash : String)
  | rejected (code : Int) (message : String)
deriving DecidableEq, Repr

def ItemReply.isAccepted : ItemReply → Bool
  | .accepted _ => true
  | .rejected _ _ => false

def ItemReply.result (reply : ItemReply) (id : Nat) : BatchRpcResult :=
  match reply with
  | .accepted hash => ⟨"2.0", id, some hash, none⟩
  | .rejected code message => ⟨"2.0", id, none, some ⟨code, message⟩⟩

/-- The answer to a chunk. The exchange may fail after items were accepted. -/
structure ChunkReply where
  item : Nat → ItemReply
  exchange : Except JsError (Nat × String)

/-- The answer to each chunk of each attempt, both counted from 0. -/
abbrev NodeSchedule : Type := Nat → Nat → ChunkReply

/-- `attempt` counts the attempts begun, `chunk` the chunks posted in the last one. -/
structure BatchSession (Call : Type) where
  attempt : Nat
  chunk : Nat
  pendingNonce : Nat
  posted : List (RawTransaction Call)
  accepted : List (RawTransaction Call)
  clock : Nat
  logger : Logger

variable {Value Call : Type}

instance : Host (BatchSession Call) where
  delay ms session := { session with clock := session.clock + ms }
  logger := BatchSession.logger
  setLogger logger session := { session with logger := logger }

def BatchSession.start (pendingNonce : Nat) : BatchSession Call :=
  ⟨0, 0, pendingNonce, [], [], 0, Logger.new⟩

def getTransactionCount : Async (BatchSession Call) JsError Nat := fun session =>
  (.ok session.pendingNonce, { session with attempt := session.attempt + 1, chunk := 0 })

/-- `axios.post` to a node that follows the schedule. -/
def nodePost (schedule : NodeSchedule) (payload : List (RpcRequest (RawTransaction Call))) :
    Async (BatchSession Call) JsError HttpResponse := fun session =>
  let reply := schedule (session.attempt - 1) session.chunk
  let raw := payload.flatMap RpcRequest.params
  let accepted := (raw.zipIdx.filter fun entry => (reply.item entry.2).isAccepted).map Prod.fst
  let session := { session with
    chunk := session.chunk + 1
    pendingNonce := session.pendingNonce + accepted.length
    posted := session.posted ++ raw
    accepted := session.accepted ++ accepted }
  match reply.exchange with
  | .error err => (.error err, session)
  | .ok (status, statusText) =>
      (.ok ⟨status, statusText, payload.zipIdx.map fun entry =>
        (reply.item entry.2).result entry.1.id⟩, session)

/-! ## What a schedule makes of an attempt -/

/-- The size of a chunk of a batch of `count` transactions. -/
def chunkSize (count chunk : Nat) : Nat :=
  min JSON_RPC_BATCH_SIZE (count - chunk * JSON_RPC_BATCH_SIZE)

theorem chunkCount_needs (count : Nat) : Needs JSON_RPC_BATCH_SIZE count (chunkCount count) := by
  intro chunk
  simp only [chunkCount, JSON_RPC_BATCH_SIZE]
  omega

theorem chunkSize_pos {count chunk : Nat} (hchunk : chunk < chunkCount count) :
    0 < chunkSize count chunk :=
  (chunkCount_needs count).portion_pos (Nat.succ_pos 99) hchunk

namespace ChunkReply

variable (reply : ChunkReply) (size : Nat)

/-- The chunk's items that the node accepts. -/
def accepted : Nat := (List.range size).countP fun i => (reply.item i).isAccepted

/-- The chunk's items that the node does not accept. -/
def rejected : Nat := (List.range size).countP fun i => !(reply.item i).isAccepted

/-- How the loop body ends on this answer. -/
def ending : Except JsError Unit :=
  match reply.exchange with
  | .error err => .error err
  | .ok (status, statusText) =>
      if status ≠ 200 then .error (statusError status statusText)
      else if (List.range size).any fun i => ((reply.item i).result 0).isNonceError then
        .error (JsError.new NONCE_CONFLICT)
      else .ok ()

theorem accepted_add_rejected : reply.accepted size + reply.rejected size = size := by
  have hsplit := (List.range size).length_eq_countP_add_countP fun i => (reply.item i).isAccepted
  rw [List.length_range] at hsplit
  simpa [accepted, rejected] using hsplit.symm

end ChunkReply

namespace NodeSchedule

variable (schedule : NodeSchedule) (count attempt : Nat)

/-- How an attempt ends that has these chunks still to post. -/
def endingFrom : List Nat → Except JsError Unit
  | [] => .ok ()
  | chunk :: rest =>
      match (schedule attempt chunk).ending (chunkSize count chunk) with
      | .error err => .error err
      | .ok () => endingFrom rest

/-- The transactions of these chunks that the node accepts; the chunks after one
that ends the attempt are not posted. -/
def acceptedFrom : List Nat → Nat
  | [] => 0
  | chunk :: rest =>
      (schedule attempt chunk).accepted (chunkSize count chunk) +
        match (schedule attempt chunk).ending (chunkSize count chunk) with
        | .error _ => 0
        | .ok () => acceptedFrom rest

/-- The transactions of these chunks that the node rejects or never sees. -/
def missedFrom : List Nat → Nat
  | [] => 0
  | chunk :: rest =>
      (schedule attempt chunk).rejected (chunkSize count chunk) +
        match (schedule attempt chunk).ending (chunkSize count chunk) with
        | .error _ => (rest.map (chunkSize count)).sum
        | .ok () => missedFrom rest

/-- How an attempt to send `count` transactions ends. -/
def ending : Except JsError Unit :=
  schedule.endingFrom count attempt (List.range (chunkCount count))

/-- How many of an attempt's transactions the node accepts. -/
def accepted : Nat := schedule.acceptedFrom count attempt (List.range (chunkCount count))

/-- How many of an attempt's transactions the node rejects or never sees. -/
def missed : Nat := schedule.missedFrom count attempt (List.range (chunkCount count))

/-- The attempt ends in an error that starts another one. -/
def Conflicts : Prop := ∃ err, schedule.ending count attempt = .error err ∧
  err.message = some NONCE_CONFLICT

/-- The transactions accepted in the attempts before this one. -/
def acceptedBefore : Nat := ((List.range attempt).map (schedule.accepted count)).sum

/-- Every item of the chunks is accepted or missed. -/
theorem acceptedFrom_add_missedFrom (chunks : List Nat) :
    schedule.acceptedFrom count attempt chunks + schedule.missedFrom count attempt chunks =
      (chunks.map (chunkSize count)).sum := by
  induction chunks with
  | nil => rfl
  | cons chunk rest ih =>
      have hchunk := (schedule attempt chunk).accepted_add_rejected (chunkSize count chunk)
      rw [acceptedFrom, missedFrom, List.map_cons, List.sum_cons]
      cases (schedule attempt chunk).ending (chunkSize count chunk) with
      | error err =>
          -- the chunks after this one are never posted
          simp only
          omega
      | ok value =>
          simp only
          omega

theorem sum_chunkSize :
    ((List.range' 0 (chunkCount count)).map (chunkSize count)).sum = count :=
  (chunkCount_needs count).sum_portions

/-- Each of the `count` transactions of an attempt is accepted or missed. -/
theorem accepted_add_missed :
    schedule.accepted count attempt + schedule.missed count attempt = count := by
  rw [accepted, missed, acceptedFrom_add_missedFrom, List.range_eq_range', sum_chunkSize]

end NodeSchedule

/-! ## One chunk, one attempt -/

theorem flatMap_mapIdx_singleton {α β : Type} (list : List α) (image : Nat → α → β)
    (back : β → List α) (hback : ∀ i a, back (image i a) = [a]) :
    (list.mapIdx image).flatMap back = list := by
  induction list generalizing image with
  | nil => rfl
  | cons head tail ih =>
      rw [List.mapIdx_cons, List.flatMap_cons, hback, ih _ fun i a => hback (i + 1) a]
      rfl

@[simp] theorem batchPayload_params {Raw : Type} (batch : List Raw) :
    (batchPayload batch).flatMap RpcRequest.params = batch :=
  flatMap_mapIdx_singleton batch _ _ fun _ _ => rfl

@[simp] theorem batchPayload_length {Raw : Type} (batch : List Raw) :
    (batchPayload batch).length = batch.length := List.length_mapIdx

theorem accepted_length (reply : ChunkReply) {Raw : Type} (batch : List Raw) :
    ((batch.zipIdx.filter fun entry => (reply.item entry.2).isAccepted).map Prod.fst).length =
      reply.accepted batch.length := by
  rw [List.length_map, ← List.countP_eq_length_filter, ChunkReply.accepted, List.range_eq_range',
    ← List.zipIdx_map_snd 0 batch, List.countP_map]
  rfl

theorem result_isNonceError (reply : ItemReply) (id : Nat) :
    (reply.result id).isNonceError = (reply.result 0).isNonceError := by
  cases reply <;> rfl

theorem hasNonceError_results (reply : ChunkReply) {Raw : Type} (payload : List (RpcRequest Raw)) :
    hasNonceError (payload.zipIdx.map fun entry => (reply.item entry.2).result entry.1.id) =
      (List.range payload.length).any fun i => ((reply.item i).result 0).isNonceError := by
  rw [hasNonceError, List.any_map, List.range_eq_range', ← List.zipIdx_map_snd 0 payload,
    List.any_map]
  simp only [Function.comp_def, result_isNonceError]

/-- One chunk, under the answer that the schedule holds for it. -/
theorem postChunk_spec (schedule : NodeSchedule) (batch : List (RawTransaction Call))
    (session : BatchSession Call) (hbatch : batch ≠ []) :
    ∃ next, postChunk (nodePost schedule) batch session =
        ((schedule (session.attempt - 1) session.chunk).ending batch.length, next) ∧
      next.attempt = session.attempt ∧ next.chunk = session.chunk + 1 ∧
      next.accepted.length = session.accepted.length +
        (schedule (session.attempt - 1) session.chunk).accepted batch.length := by
  have hlength : batch.length ≠ 0 := mt List.length_eq_zero_iff.mp hbatch
  generalize hreply : schedule (session.attempt - 1) session.chunk = reply
  refine ⟨(nodePost schedule (batchPayload batch) session).2, ?_, ?_, ?_, ?_⟩
  · simp only [postChunk, sendBatchRawTransactions, if_neg hlength, nodePost, hreply,
      ChunkReply.ending]
    -- a failed exchange and a bad status end the attempt before any item is read
    cases reply.exchange with
    | error err => rfl
    | ok exchange =>
        obtain ⟨status, statusText⟩ := exchange
        by_cases hstatus : status = 200
        · simp only [hstatus, ne_eq, not_true_eq_false, if_false, hasNonceError_results,
            batchPayload_length]
          split <;> rfl
        · simp only [ne_eq, hstatus, not_false_eq_true, if_true]
  · simp only [nodePost, hreply]
    cases reply.exchange <;> rfl
  · simp only [nodePost, hreply]
    cases reply.exchange <;> rfl
  · have haccepted := accepted_length reply batch
    simp only [nodePost, hreply, batchPayload_params]
    cases reply.exchange <;> simp only [List.length_append, haccepted]

theorem chunkAt_length (transactions : List (RawTransaction Call)) (chunk : Nat) :
    (chunkAt transactions (chunk * JSON_RPC_BATCH_SIZE)).length =
      chunkSize transactions.length chunk := by
  simp [chunkAt, chunkSize]

/-- The loop over the chunks that are still to come. -/
theorem postChunks_spec (schedule : NodeSchedule) (transactions : List (RawTransaction Call))
    (left : Nat) (session : BatchSession Call)
    (hend : session.chunk + left = chunkCount transactions.length) :
    ∃ next, postChunks (nodePost schedule) transactions
        ((List.range' session.chunk left).map (· * JSON_RPC_BATCH_SIZE)) session =
        (schedule.endingFrom transactions.length (session.attempt - 1)
          (List.range' session.chunk left), next) ∧
      next.attempt = session.attempt ∧
      next.accepted.length = session.accepted.length +
        schedule.acceptedFrom transactions.length (session.attempt - 1)
          (List.range' session.chunk left) := by
  -- induction on the chunks that are left; the session counts those already posted
  induction left generalizing session with
  | zero => exact ⟨session, rfl, rfl, rfl⟩
  | succ left ih =>
      have hbatch : chunkAt transactions (session.chunk * JSON_RPC_BATCH_SIZE) ≠ [] := by
        intro hempty
        have hsize := chunkAt_length transactions session.chunk
        have hpositive : 0 < chunkSize transactions.length session.chunk :=
          chunkSize_pos (by omega)
        rw [← hsize, hempty] at hpositive
        exact absurd hpositive (Nat.lt_irrefl 0)
      obtain ⟨next, hpost, hattempt, hchunk, haccepted⟩ :=
        postChunk_spec schedule _ session hbatch
      rw [chunkAt_length] at hpost haccepted
      simp only [List.range'_succ, List.map_cons, postChunks, hpost, NodeSchedule.endingFrom,
        NodeSchedule.acceptedFrom]
      cases hending : (schedule (session.attempt - 1) session.chunk).ending
          (chunkSize transactions.length session.chunk) with
      | error err => exact ⟨next, rfl, hattempt, haccepted⟩
      | ok value =>
          obtain ⟨final, hrest, hfinal, htotal⟩ := ih next (by omega)
          rw [hchunk, hattempt] at hrest htotal
          exact ⟨final, hrest, hfinal.trans hattempt,
            htotal.trans (by rw [haccepted, Nat.add_assoc])⟩

/-- One attempt, under the answers that the schedule holds for it. -/
theorem signAndSend_spec (schedule : NodeSchedule) (builder : TransactionBuilder Value Call)
    (count : Nat) (args : List Value) (session : BatchSession Call) :
    ∃ next, signAndSend builder getTransactionCount (nodePost schedule) count args session =
        (schedule.ending count session.attempt, next) ∧
      next.attempt = session.attempt + 1 ∧
      next.accepted.length =
        session.accepted.length + schedule.accepted count session.attempt := by
  obtain ⟨next, hchunks, hattempt, haccepted⟩ := postChunks_spec schedule
    (builder.signBatch count "crossTransfer" args session.pendingNonce none) (chunkCount count)
    { session with attempt := session.attempt + 1, chunk := 0 } (by simp)
  simp only [builder.signBatch_length, Nat.add_sub_cancel,
    ← List.range_eq_range'] at hchunks haccepted
  refine ⟨next, ?_, hattempt, haccepted⟩
  simp only [signAndSend, getTransactionCount, builder.signBatch_length]
  exact hchunks

/-! ## The whole call -/

/-- The call of `sendBatchTransactions`, against a node that follows the schedule. -/
def sendBatch (schedule : NodeSchedule) (builder : TransactionBuilder Value Call) (count : Nat)
    (destinationAddresses amounts destinationChainIds payloads : Value) (pendingNonce : Nat) :
    Except JsError Unit × BatchSession Call :=
  sendBatchTransactions builder getTransactionCount (nodePost schedule) count
    destinationAddresses amounts destinationChainIds payloads (.start pendingNonce)

/-- A call that resolves had `count` transactions accepted, and no call more. -/
structure ExactlyCount (count : Nat) (settled : Except JsError Unit × BatchSession Call) :
    Prop where
  resolved : settled.1 = .ok () → settled.2.accepted.length = count
  at_most : settled.2.accepted.length ≤ count

namespace NodeSchedule

/-- No attempt that ends in a nonce conflict and is followed by another one has an
accepted transaction, and an attempt that ends without an error misses none. -/
structure CleanAttempts (schedule : NodeSchedule) (count : Nat) : Prop where
  conflict_unaccepted : ∀ attempt < 4, (∀ earlier ≤ attempt, schedule.Conflicts count earlier) →
    schedule.accepted count attempt = 0
  resolved_unmissed : ∀ last < 5, (∀ attempt < last, schedule.Conflicts count attempt) →
    schedule.ending count last = .ok () → schedule.missed count last = 0

/-- Attempt `last` is the one that the call ends with. -/
def EndsWith (schedule : NodeSchedule) (count last : Nat) : Prop :=
  last < 5 ∧ (∀ attempt < last, schedule.Conflicts count attempt) ∧
    (schedule.Conflicts count last → last = 4)

theorem acceptedBefore_succ (schedule : NodeSchedule) (count attempt : Nat) :
    schedule.acceptedBefore count (attempt + 1) =
      schedule.acceptedBefore count attempt + schedule.accepted count attempt := by
  simp [acceptedBefore, List.range_succ]

theorem acceptedBefore_eq_zero_iff (schedule : NodeSchedule) (count last : Nat) :
    schedule.acceptedBefore count last = 0 ↔
      ∀ attempt < last, schedule.accepted count attempt = 0 := by
  simp [acceptedBefore, List.sum_eq_zero_iff_forall_eq_nat]

theorem EndsWith.unique {schedule : NodeSchedule} {count last other : Nat}
    (hlast : schedule.EndsWith count last) (hother : schedule.EndsWith count other) :
    last = other :=
  lastTry_unique hlast.1 hother.1 hlast.2.1 hother.2.1
    (fun hagain => congrArg Nat.succ (hlast.2.2 hagain))
    (fun hagain => congrArg Nat.succ (hother.2.2 hagain))

end NodeSchedule

theorem batchRetry_retries_iff (Call : Type) (schedule : NodeSchedule) (count attempt : Nat) :
    (batchRetry (σ := BatchSession Call)).Retries (schedule.ending count attempt) ↔
      schedule.Conflicts count attempt := by
  simp [RetryOptions.Retries, RetryOptions.refuses, batchRetry, NodeSchedule.Conflicts]

section Call

variable (schedule : NodeSchedule) (builder : TransactionBuilder Value Call) (count : Nat)

theorem signAndSend_oracle (args : List Value) :
    Oracle (signAndSend builder getTransactionCount (nodePost schedule) count args)
      BatchSession.attempt (schedule.ending count) := by
  constructor <;> intro session <;>
    obtain ⟨next, hattempt, hcalls, -⟩ := signAndSend_spec schedule builder count args session
  · rw [hattempt]
  · rw [hattempt, hcalls]

/-- The session has accepted what the schedule accepts in the attempts made so far. -/
def BatchSession.Counted (session : BatchSession Call) : Prop :=
  session.accepted.length = schedule.acceptedBefore count session.attempt

theorem signAndSend_counted (args : List Value) (session : BatchSession Call)
    (hcounted : session.Counted schedule count) :
    (signAndSend builder getTransactionCount (nodePost schedule) count args session).2.Counted
      schedule count := by
  obtain ⟨next, hattempt, hcalls, haccepted⟩ := signAndSend_spec schedule builder count args session
  rw [hattempt, BatchSession.Counted, haccepted, hcalls, NodeSchedule.acceptedBefore_succ, hcounted]

variable (destinationAddresses amounts destinationChainIds payloads : Value) (pendingNonce : Nat)

/-- The call ends with its first attempt that is no nonce conflict, or with the
fifth, and the node has accepted what it accepted in each of them. -/
theorem sendBatch_spec :
    ∃ last, schedule.EndsWith count last ∧
      (sendBatch schedule builder count destinationAddresses amounts destinationChainIds payloads
        pendingNonce).1 = schedule.ending count last ∧
      (sendBatch schedule builder count destinationAddresses amounts destinationChainIds payloads
        pendingNonce).2.accepted.length =
          schedule.acceptedBefore count last + schedule.accepted count last := by
  obtain ⟨last, htrace⟩ := retry_trace batchRetry
    (signAndSend_oracle schedule builder count
      [destinationAddresses, amounts, destinationChainIds, payloads])
    (fun _ _ _ => rfl) (Nat.succ_pos 4) (BatchSession.start pendingNonce)
  have hcounted := retry_invariant batchRetry (BatchSession.Counted schedule count)
    (signAndSend_counted schedule builder count
      [destinationAddresses, amounts, destinationChainIds, payloads])
    (fun _ _ _ hinv => hinv) (BatchSession.start pendingNonce) rfl
  have hfirst : ∀ attempt,
      (BatchSession.start pendingNonce : BatchSession Call).attempt + attempt = attempt :=
    Nat.zero_add
  have hretries := fun attempt => batchRetry_retries_iff Call schedule count attempt
  refine ⟨last, ⟨htrace.lt_limit, fun attempt hlt => ?_, fun hconflict => ?_⟩, ?_, ?_⟩
  · have hretried := htrace.retried attempt hlt
    rwa [hfirst, hretries] at hretried
  · have hstopped := htrace.stopped
    rw [hfirst, hretries] at hstopped
    exact Nat.succ.inj (hstopped hconflict)
  · have houtcome := htrace.outcome_eq
    rwa [hfirst] at houtcome
  · have hcalls := htrace.calls_eq
    rw [hfirst] at hcalls
    rw [BatchSession.Counted, hcalls, NodeSchedule.acceptedBefore_succ] at hcounted
    exact hcounted

/-- Clean attempts leave the count to the last one, which reaches it if it resolves. -/
theorem NodeSchedule.CleanAttempts.exactlyCount {schedule : NodeSchedule} {count : Nat}
    (hclean : schedule.CleanAttempts count) :
    ExactlyCount count (sendBatch schedule builder count destinationAddresses amounts
      destinationChainIds payloads pendingNonce) := by
  obtain ⟨last, ⟨hlast, hbefore, _⟩, hresult, htotal⟩ := sendBatch_spec schedule builder count
    destinationAddresses amounts destinationChainIds payloads pendingNonce
  have hsplit := schedule.accepted_add_missed count last
  have hnone : schedule.acceptedBefore count last = 0 := by
    apply (schedule.acceptedBefore_eq_zero_iff count last).mpr
    intro attempt hattempt
    apply hclean.conflict_unaccepted attempt (by omega)
    exact fun earlier hearlier => hbefore earlier (Nat.lt_of_le_of_lt hearlier hattempt)
  constructor
  · intro hok
    have hmissed := hclean.resolved_unmissed last hlast hbefore (hresult ▸ hok)
    omega
  · omega

/-- If the attempt that the call ends with misses nothing, an earlier attempt with an
accepted transaction is one too many. -/
theorem ExactlyCount.cleanAttempts {schedule : NodeSchedule} {count last : Nat}
    (hexact : ExactlyCount count (sendBatch schedule builder count destinationAddresses amounts
      destinationChainIds payloads pendingNonce))
    (hends : schedule.EndsWith count last) (hfull : schedule.missed count last = 0) :
    schedule.CleanAttempts count := by
  obtain ⟨reached, hreached, _, htotal⟩ := sendBatch_spec schedule builder count
    destinationAddresses amounts destinationChainIds payloads pendingNonce
  obtain rfl : reached = last := hreached.unique hends
  have hsplit := schedule.accepted_add_missed count reached
  have hatMost := hexact.at_most
  have hnone := (schedule.acceptedBefore_eq_zero_iff count reached).mp (by omega)
  constructor
  · intro attempt hattempt hconflicts
    apply hnone attempt
    by_contra hge
    have hfifth := hends.2.2 (hconflicts reached (Nat.le_of_not_lt hge))
    omega
  · intro other hother hbefore hok
    have hotherEnds : schedule.EndsWith count other := by
      refine ⟨hother, hbefore, fun hconflicts => ?_⟩
      obtain ⟨err, herr, _⟩ := hconflicts
      cases hok.symm.trans herr
    rw [hotherEnds.unique hends, hfull]

/-- `sendBatchTransactions` gets exactly its count of transactions accepted if its
attempts are clean, and only then if the attempt that it ends with misses nothing. -/
theorem cleanAttempts_exactlyCount :
    (schedule.CleanAttempts count →
      ExactlyCount count (sendBatch schedule builder count destinationAddresses amounts
        destinationChainIds payloads pendingNonce)) ∧
      ((∃ last, schedule.EndsWith count last ∧ schedule.missed count last = 0) →
        (ExactlyCount count (sendBatch schedule builder count destinationAddresses amounts
          destinationChainIds payloads pendingNonce) ↔ schedule.CleanAttempts count)) := by
  have hsufficient : schedule.CleanAttempts count →
      ExactlyCount count (sendBatch schedule builder count destinationAddresses amounts
        destinationChainIds payloads pendingNonce) := fun hclean =>
    hclean.exactlyCount builder destinationAddresses amounts destinationChainIds payloads
      pendingNonce
  refine ⟨hsufficient, ?_⟩
  intro hfull
  obtain ⟨last, hends, hmissed⟩ := hfull
  constructor
  · exact fun hexact => hexact.cleanAttempts builder destinationAddresses amounts
      destinationChainIds payloads pendingNonce hends hmissed
  · exact hsufficient

end Call

/-! ## A batch that is half accepted -/

/-- The first attempt has its first transaction accepted and its second one refused
for its nonce; every transaction of the next attempt is accepted. -/
def halfAccepted : NodeSchedule
  | 0, _ => ⟨fun i => if i = 0 then .accepted "0xc0" else .rejected (-32000) "nonce too low",
      .ok (200, "OK")⟩
  | _, _ => ⟨fun _ => .accepted "0xc1", .ok (200, "OK")⟩

/-- A builder whose calls are the method with its arguments. -/
def plainBuilder : TransactionBuilder String (String × List String) :=
  ⟨600123, "0x5e11e4", Prod.mk⟩

theorem not_exactlyCount_halfAccepted :
    ¬ExactlyCount 2 (sendBatch halfAccepted plainBuilder 2 "[0xb0b]" "[1]" "[600124]" "[]" 7) := by
  intro hexact
  have htotal : (sendBatch halfAccepted plainBuilder 2 "[0xb0b]" "[1]" "[600124]" "[]"
      7).2.accepted.length = 3 := by rfl
  exact absurd (htotal ▸ hexact.at_most) (by decide)

end RaylsSuite.TestUtils
