import RaylsSuite.Performance.BatchSenders

/-! # When the totals are right

The ring is right when its POSTs succeed exactly for the accepted transactions.
The stability test reads the pending nonce before every batch, so it survives a
lost answer, but not a rejected transaction before another one; what it lost and
what it counted too much may only cancel out.
-/

namespace RaylsSuite.Performance

open Foundation Foundation.Submission Common TestUtils

variable {Value Call : Type}

/-- The account's transactions leave no gap, and as many were accepted as were counted. -/
structure Accounted (pending : Nat) (handed : List Submission) (total : Nat) : Prop where
  total : total = acceptedCount handed
  gapFree : GapFree pending handed

theorem accounted_iff {pending total : Nat} {handed : List Submission} :
    Accounted pending handed total ↔ total = acceptedCount handed ∧ InTurn pending handed :=
  ⟨fun ⟨htotal, hfree⟩ => ⟨htotal, hfree.inTurn⟩,
    fun ⟨htotal, hturn⟩ => ⟨htotal, gapFree_iff.mpr hturn⟩⟩

/-! ## One POST -/

def Delivery.reply? : Delivery → Option ChunkReply
  | .unreached _ => none
  | .reached reply => some reply

def accepts (reply : ChunkReply) (position : Nat) : Bool := (reply.item position).isAccepted

/-- The POST resolves. -/
def answered (reply : ChunkReply) : Bool :=
  match reply.exchange with
  | .error _ => false
  | .ok _ => true

/-- The POST resolves with the status that `TransactionSender` asks for. -/
def confirmed (reply : ChunkReply) : Bool :=
  match reply.exchange with
  | .error _ => false
  | .ok (status, _) => status == 200

/-- The chunk that was posted is the batch of consecutive nonces. -/
theorem zipIdx_submissions (reply : ChunkReply) {signed : List (RawTransaction Call)}
    {nonce size : Nat} (hnonces : signed.map RawTransaction.nonce = List.range' nonce size) :
    signed.zipIdx.map (fun entry => (⟨entry.1.nonce, accepts reply entry.2⟩ : Submission)) =
      batch (accepts reply) nonce size := by
  have hlength : signed.length = size := by simpa using congrArg List.length hnonces
  refine List.ext_getElem (by simp [batch, hlength]) fun i hi _ => ?_
  have hi : i < signed.length := by simpa using hi
  have hnonce : signed[i].nonce = nonce + i := by
    have hget := congrArg (·[i]?) hnonces
    simpa [hi, hlength ▸ hi] using hget
  simp [batch, hnonce]

theorem Delivery.post_handed (reply : ChunkReply) {signed : List (RawTransaction Call)}
    {nonce size : Nat} (hnonces : signed.map RawTransaction.nonce = List.range' nonce size)
    (handed : List Submission) :
    ((Delivery.reached reply).post (batchPayload signed) handed).2 =
      handed ++ batch (accepts reply) nonce size := by
  simp only [Delivery.post, batchPayload_params, ← zipIdx_submissions reply hnonces]
  split <;> rfl

/-- The POST resolves with the status of the exchange, or throws its error. -/
theorem Delivery.post_result (reply : ChunkReply)
    (payload : List (RpcRequest (RawTransaction Call))) (handed : List Submission) :
    ((Delivery.reached reply).post payload handed).1.map
        (fun response => (response.status, response.statusText)) = reply.exchange := by
  cases hexchange : reply.exchange with
  | error err => simp [Delivery.post, hexchange, Except.map]
  | ok answer => simp [Delivery.post, hexchange, Except.map]

/-! ## The lanes of the ring -/

/-- The entries of one source. -/
structure Lane where
  nonce : Nat
  total : Nat
  handed : List Submission

def RingSends.lane (state : RingSends) (source : String) : Lane :=
  ⟨state.nonces source, state.totalSent source, state.handed source⟩

def Lane.send (lane : Lane) (delivery : Delivery) : Lane :=
  match delivery with
  | .unreached _ => lane
  | .reached reply =>
      let handed := lane.handed ++ batch (accepts reply) lane.nonce 1
      if confirmed reply then ⟨lane.nonce + 1, lane.total + 1, handed⟩ else { lane with handed }

section Ring

variable (builders : String → TransactionBuilder Value Call) (args : Direction → List Value)

theorem signBatch_one_nonce (builder : TransactionBuilder Value Call) (argsList : List Value)
    (nonce : Nat) :
    (builder.signBatch 1 "crossTransfer" argsList nonce none).map RawTransaction.nonce =
      List.range' nonce 1 := rfl

/-- The sender resolves exactly for a confirmed batch. -/
theorem sendBatchRawTransactions_reached (reply : ChunkReply)
    (signed : List (RawTransaction Call)) (hsome : signed.length ≠ 0) (handed : List Submission) :
    ∃ result, sendBatchRawTransactions (Delivery.reached reply).post signed handed =
        (result, ((Delivery.reached reply).post (batchPayload signed) handed).2) ∧
      result.toBool = confirmed reply := by
  have hresult := Delivery.post_result reply (batchPayload signed) handed
  rw [sendBatchRawTransactions, if_neg hsome, confirmed, ← hresult]
  cases hpost : (Delivery.reached reply).post (batchPayload signed) handed with
  | mk settled after =>
      cases settled with
      | error err => exact ⟨.error err, rfl, rfl⟩
      | ok response =>
          dsimp only
          split
          next hstatus => exact ⟨_, rfl, by simp [Except.map, Except.toBool, hstatus]⟩
          next hstatus =>
            have hstatus : response.status = 200 := Decidable.not_not.mp hstatus
            exact ⟨_, rfl, by simp [Except.map, Except.toBool, hstatus]⟩

theorem RingSends.send_lane_self (state : RingSends) (direction : Direction)
    (delivery : Delivery) :
    (state.send builders args direction delivery).lane direction.source =
      (state.lane direction.source).send delivery := by
  cases delivery with
  | unreached err =>
      simp [RingSends.send, sendBatchRawTransactions, Delivery.post, RingSends.lane, Lane.send]
  | reached reply =>
      obtain ⟨result, hsend, hbool⟩ := sendBatchRawTransactions_reached reply
        ((builders direction.source).signBatch 1 "crossTransfer" (args direction)
          (state.nonces direction.source) none)
        (by simp) (state.handed direction.source)
      rw [Delivery.post_handed reply (signBatch_one_nonce _ _ _)] at hsend
      simp only [RingSends.send, hsend, Lane.send, RingSends.lane, ← hbool]
      cases result <;> simp [Except.toBool]

theorem RingSends.send_lane_other (state : RingSends) {direction : Direction} {source : String}
    (hne : source ≠ direction.source) (delivery : Delivery) :
    (state.send builders args direction delivery).lane source = state.lane source := by
  simp only [RingSends.send]
  split <;> simp [RingSends.lane, Function.update_of_ne hne]

/-- Among directions of different sources a lane only moves with its own. -/
theorem foldl_send_lane {ring : List Direction} (hnodup : (ring.map Direction.source).Nodup)
    (state : RingSends) (deliveries : String → Delivery) (source : String) :
    (ring.foldl (fun state direction =>
        state.send builders args direction (deliveries direction.source)) state).lane source =
      if source ∈ ring.map Direction.source then (state.lane source).send (deliveries source)
      else state.lane source := by
  induction ring generalizing state with
  | nil => rfl
  | cons direction rest ih =>
      obtain ⟨hnot, hrest⟩ := List.nodup_cons.mp hnodup
      rw [List.foldl_cons, ih hrest, List.map_cons]
      by_cases hsame : source = direction.source
      · subst hsame
        rw [if_neg hnot, if_pos List.mem_cons_self, RingSends.send_lane_self]
      · simp only [List.mem_cons, hsame, false_or,
          RingSends.send_lane_other builders args state hsame]

theorem Participants.ring_sources_nodup (participants : Participants) :
    (participants.ring.map Direction.source).Nodup := participants.nodup

/-- The rounds act on each source as sends on its own lane. -/
theorem EnygmaMesh.sends_lane (participants : Participants) (counts : String → TransactionCounts)
    (rounds : List (String → Delivery)) {direction : Direction}
    (hmem : direction ∈ participants.ring) :
    (EnygmaMesh.sends builders args participants counts rounds).lane direction.source =
      (rounds.map (· direction.source)).foldl Lane.send
        ((RingSends.initial builders counts).lane direction.source) := by
  have hsource : direction.source ∈ participants.ring.map Direction.source :=
    List.mem_map_of_mem hmem
  unfold EnygmaMesh.sends
  generalize RingSends.initial builders counts = state
  induction rounds generalizing state with
  | nil => rfl
  | cons deliveries rest ih =>
      rw [List.foldl_cons, ih, List.map_cons, List.foldl_cons, RingSends.round,
        foldl_send_lane builders args participants.ring_sources_nodup, if_pos hsource]

end Ring

/-- The submissions of a lane that meets these replies, from `nonce` on. -/
def laneSubmissions : Nat → List ChunkReply → List Submission
  | _, [] => []
  | nonce, reply :: rest =>
      ⟨nonce, accepts reply 0⟩ ::
        laneSubmissions (if confirmed reply then nonce + 1 else nonce) rest

/-- What a lane has handed over and counted after a run of deliveries. -/
theorem Lane.foldl_send (lane : Lane) (deliveries : List Delivery) :
    (deliveries.foldl Lane.send lane).handed =
        lane.handed ++ laneSubmissions lane.nonce (deliveries.filterMap Delivery.reply?) ∧
      (deliveries.foldl Lane.send lane).total =
        lane.total + (deliveries.filterMap Delivery.reply?).countP confirmed := by
  induction deliveries generalizing lane with
  | nil => simp [laneSubmissions]
  | cons delivery rest ih =>
      rw [List.foldl_cons]
      cases delivery with
      | unreached err => exact ih lane
      | reached reply =>
          obtain ⟨hhanded, htotal⟩ := ih (lane.send (.reached reply))
          rw [hhanded, htotal]
          cases hconfirmed : confirmed reply <;>
            simp [Lane.send, Delivery.reply?, laneSubmissions, batch, hconfirmed, Nat.add_assoc,
              Nat.add_comm 1]

/-- A lane that is not in place errs with the first reply that it meets. -/
theorem inTurn_laneSubmissions_of_ne {nonce next : Nat} (hne : nonce ≠ next)
    {replies : List ChunkReply} (hturn : InTurn next (laneSubmissions nonce replies)) :
    replies = [] := by
  cases replies with
  | nil => rfl
  | cons reply rest => exact absurd hturn.1 hne

/-- A lane is accounted for exactly when it starts at the pending nonce and every reply is
confirmed if and only if its transaction was accepted. -/
theorem lane_accounted_iff (nonce next : Nat) (replies : List ChunkReply) :
    Accounted next (laneSubmissions nonce replies) (replies.countP confirmed) ↔
      replies = [] ∨ nonce = next ∧ ∀ reply ∈ replies, accepts reply 0 = confirmed reply := by
  rw [accounted_iff]
  induction replies generalizing nonce next with
  | nil => simp [laneSubmissions, InTurn]
  | cons reply rest ih =>
      rw [laneSubmissions, InTurn, List.countP_cons, acceptedCount, List.countP_cons,
        List.forall_mem_cons]
      by_cases hplace : nonce = next
      · subst hplace
        by_cases hsame : accepts reply 0 = confirmed reply
        · have hrest := ih (if confirmed reply then nonce + 1 else nonce)
            (if confirmed reply then nonce + 1 else nonce)
          have hquiet : (rest = [] ∨ ∀ reply ∈ rest, accepts reply 0 = confirmed reply) ↔
              ∀ reply ∈ rest, accepts reply 0 = confirmed reply :=
            or_iff_right_of_imp (by rintro rfl; simp)
          simp only [acceptedCount, true_and, hquiet] at hrest
          simpa [hsame] using hrest
        · -- the local nonce and the node's differ from here on
          have hne : (if confirmed reply then nonce + 1 else nonce) ≠
              if accepts reply 0 then nonce + 1 else nonce := by
            cases haccepts : accepts reply 0 <;> cases hconfirmed : confirmed reply <;>
              simp_all
          simp only [reduceCtorEq, false_or, hsame, false_and, and_false, iff_false]
          rintro ⟨htotal, -, hturn⟩
          obtain rfl := inTurn_laneSubmissions_of_ne hne hturn
          cases haccepts : accepts reply 0 <;> cases hconfirmed : confirmed reply <;>
            simp_all [laneSubmissions]
      · simp [hplace]

/-- Whatever of the rounds reaches the source, the lane starts in place and its POSTs succeed
exactly for the accepted transactions. -/
def LaneInStep (start pending : Nat) (deliveries : List Delivery) : Prop :=
  deliveries.filterMap Delivery.reply? = [] ∨
    start = pending ∧
      ∀ reply ∈ deliveries.filterMap Delivery.reply?, accepts reply 0 = confirmed reply

theorem EnygmaMesh.sends_accounted_iff (builders : String → TransactionBuilder Value Call)
    (args : Direction → List Value) (participants : Participants)
    (counts : String → TransactionCounts) (rounds : List (String → Delivery))
    {direction : Direction} (hmem : direction ∈ participants.ring) :
    let source := direction.source
    let address := (builders source).address
    let final := EnygmaMesh.sends builders args participants counts rounds
    Accounted ((counts source).pending address) (final.handed source) (final.totalSent source) ↔
      LaneInStep ((counts source).latest address) ((counts source).pending address)
        (rounds.map (· source)) := by
  intro source address final
  have hlane := EnygmaMesh.sends_lane builders args participants counts rounds hmem
  obtain ⟨hhanded, htotal⟩ := Lane.foldl_send ((RingSends.initial builders counts).lane source)
    (rounds.map (· source))
  rw [← hlane] at hhanded htotal
  have hhanded : final.handed source = laneSubmissions ((counts source).latest address)
      ((rounds.map (· source)).filterMap Delivery.reply?) := by
    simpa [RingSends.lane, RingSends.initial] using hhanded
  have htotal : final.totalSent source =
      ((rounds.map (· source)).filterMap Delivery.reply?).countP confirmed := by
    simpa [RingSends.lane, RingSends.initial] using htotal
  rw [hhanded, htotal, lane_accounted_iff, LaneInStep]

end RaylsSuite.Performance
