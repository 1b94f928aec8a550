import Mathlib.Algebra.Order.BigOperators.Group.List
import RaylsSuite.Performance.BatchLaw

/-! # The batches of the stability test

A run of the loop is the sequence of the replies to the batches that reach the
node. While the transactions come in turn, the pending nonce that is read before
a batch is the node's next one, so the local nonce is in place or ahead of it;
once it is ahead it stays there.
-/

namespace RaylsSuite.Performance

open Foundation Foundation.Submission Common TestUtils

variable {Call : Type}

/-! ## One pass -/

/-- The balance is read and does not cover the batch. -/
def StabilityRound.stops (batchSize : Nat) (round : StabilityRound Call) : Bool :=
  match round.latestNonce, round.currentBalance with
  | .ok _, .ok currentBalance => decide (currentBalance < batchSize * amountPerTx)
  | _, _ => false

/-- The node's reply to the batch of a round that does not stop. -/
def StabilityRound.reply? (round : StabilityRound Call) : Option ChunkReply :=
  match round.latestNonce, round.currentBalance, round.populated with
  | .ok _, .ok _, .ok _ => round.delivery.reply?
  | _, _, _ => none

/-- The node's replies to the batches that reach it. -/
def stabilityReplies (batchSize : Nat) (rounds : List (StabilityRound Call)) : List ChunkReply :=
  (rounds.takeWhile fun round => !round.stops batchSize).filterMap StabilityRound.reply?

theorem signTransferBatch_nonces (totalTxs : Nat) (signer : TransferSigner) (call : Call)
    (estimatedGas : Except JsError Nat) (startingNonce : Nat) :
    (signTransferBatch totalTxs signer call estimatedGas startingNonce).map RawTransaction.nonce =
      List.range' startingNonce totalTxs := by
  simp [signTransferBatch, List.range'_eq_map_range, Function.comp_def]

section Pass

variable {batchSize : Nat} {signer : TransferSigner} {counts : TransactionCounts}
  {state : StabilitySends} {round : StabilityRound Call}

/-- The nonce of a batch that is signed in this state. -/
def StabilitySends.batchNonce (state : StabilitySends) (pending : Nat) : Nat :=
  max state.currentNonce (pendingNonce pending state.handed)

/-- What a reply adds to the nonce and the total. -/
def advance (batchSize : Nat) (reply : ChunkReply) : Nat := if answered reply then batchSize else 0

/-- The states that agree on what the totals and nonces are about. -/
structure Posted (batchSize pending : Nat) (reply : ChunkReply) (state after : StabilitySends) :
    Prop where
  handed : after.handed = state.handed ++ batch (accepts reply) (state.batchNonce pending) batchSize
  nonce : after.currentNonce = state.batchNonce pending + advance batchSize reply
  total : after.totalTransactions = state.totalTransactions + advance batchSize reply

structure Unposted (pending : Nat) (state after : StabilitySends) : Prop where
  handed : after.handed = state.handed
  nonce : after.currentNonce = state.currentNonce ∨ after.currentNonce = state.batchNonce pending
  total : after.totalTransactions = state.totalTransactions

@[simp] theorem StabilitySends.adjustNonce_handed (latestNonce : Nat) :
    (state.adjustNonce latestNonce).handed = state.handed := by
  unfold StabilitySends.adjustNonce
  split <;> rfl

@[simp] theorem StabilitySends.adjustNonce_total (latestNonce : Nat) :
    (state.adjustNonce latestNonce).totalTransactions = state.totalTransactions := by
  unfold StabilitySends.adjustNonce
  split <;> rfl

@[simp] theorem StabilitySends.adjustNonce_nonce (latestNonce : Nat) :
    (state.adjustNonce latestNonce).currentNonce = max state.currentNonce latestNonce := by
  unfold StabilitySends.adjustNonce
  split
  next hlt => exact (Nat.max_eq_right (Nat.le_of_lt hlt)).symm
  next hle => exact (Nat.max_eq_left (Nat.le_of_not_gt hle)).symm

theorem StabilitySends.sendBatch_of_none {delivery : Delivery} (hunseen : delivery.reply? = none)
    (signedTxs : List (RawTransaction Call)) :
    state.sendBatch batchSize signedTxs delivery = state := by
  cases delivery with
  | unreached err => rfl
  | reached reply => cases hunseen

/-- A batch that reached the node hands over consecutive nonces and advances the nonce and the
total by the reply. -/
theorem StabilitySends.sendBatch_of_some {delivery : Delivery} {reply : ChunkReply}
    (hseen : delivery.reply? = some reply) {signedTxs : List (RawTransaction Call)} {nonce : Nat}
    (hnonces : signedTxs.map RawTransaction.nonce = List.range' nonce batchSize) :
    state.sendBatch batchSize signedTxs delivery =
      { state with
        handed := state.handed ++ batch (accepts reply) nonce batchSize
        currentNonce := state.currentNonce + advance batchSize reply
        totalTransactions := state.totalTransactions + advance batchSize reply } := by
  obtain rfl : delivery = .reached reply := by
    cases delivery with
    | unreached err => cases hseen
    | reached other => rw [Option.some.inj hseen]
  have hresult := Delivery.post_result reply (batchPayload signedTxs) state.handed
  have hhanded := Delivery.post_handed reply hnonces state.handed
  unfold StabilitySends.sendBatch sendSignedBatchTransactions
  cases hpost : (Delivery.reached reply).post (batchPayload signedTxs) state.handed with
  | mk settled after =>
      rw [hpost] at hresult hhanded
      obtain rfl := hhanded
      cases settled with
      | error err =>
          have hanswered : answered reply = false := by
            rw [answered, ← hresult]
            rfl
          simp [advance, hanswered]
      | ok response =>
          have hanswered : answered reply = true := by
            rw [answered, ← hresult]
            rfl
          simp [advance, hanswered]

/-- A pass that hands nothing over may still adjust the nonce. -/
theorem Unposted.adjustNonce {pending : Nat} (totalBatches : Nat) :
    Unposted pending state (({ state with totalBatches } : StabilitySends).adjustNonce
      (pendingNonce pending state.handed)) where
  handed := StabilitySends.adjustNonce_handed _
  nonce := .inr (StabilitySends.adjustNonce_nonce _)
  total := StabilitySends.adjustNonce_total _

variable (signer counts state)

/-- A pass that stops the loop hands nothing over. -/
theorem StabilitySends.pass_stops (hstops : round.stops batchSize = true) :
    Unposted (counts.pending signer.address) state
        (state.pass batchSize signer counts round).1 ∧
      (state.pass batchSize signer counts round).2 = false := by
  unfold StabilityRound.stops at hstops
  split at hstops
  next hlatest hbalance =>
    simp only [StabilitySends.pass, hlatest, hbalance, if_pos (of_decide_eq_true hstops)]
    have hadjusted : Unposted (counts.pending signer.address) state _ :=
      Unposted.adjustNonce (state.totalBatches + 1)
    exact ⟨⟨hadjusted.handed, hadjusted.nonce, hadjusted.total⟩, trivial⟩
  next => cases hstops

/-- Nor does one whose batch does not reach the node, behind which the loop goes on. -/
theorem StabilitySends.pass_quiet (hgoes : round.stops batchSize = false)
    (hquiet : round.reply? = none) :
    Unposted (counts.pending signer.address) state
        (state.pass batchSize signer counts round).1 ∧
      (state.pass batchSize signer counts round).2 = true := by
  cases hlatest : round.latestNonce with
  | error err =>
      simp only [StabilitySends.pass, hlatest]
      exact ⟨⟨rfl, .inl rfl, rfl⟩, trivial⟩
  | ok _ =>
      cases hbalance : round.currentBalance with
      | error err =>
          simp only [StabilitySends.pass, hlatest, hbalance]
          exact ⟨Unposted.adjustNonce _, trivial⟩
      | ok currentBalance =>
          simp only [StabilityRound.stops, hlatest, hbalance, decide_eq_false_iff_not] at hgoes
          cases hpopulated : round.populated with
          | error err =>
              simp only [StabilitySends.pass, hlatest, hbalance, hpopulated, if_neg hgoes]
              exact ⟨Unposted.adjustNonce _, trivial⟩
          | ok call =>
              simp only [StabilityRound.reply?, hlatest, hbalance, hpopulated] at hquiet
              simp only [StabilitySends.pass, hlatest, hbalance, hpopulated, if_neg hgoes,
                StabilitySends.sendBatch_of_none hquiet]
              exact ⟨Unposted.adjustNonce _, trivial⟩

/-- A pass whose batch reaches the node hands it over from the nonce in place. -/
theorem StabilitySends.pass_posts {reply : ChunkReply} (hgoes : round.stops batchSize = false)
    (hreply : round.reply? = some reply) :
    Posted batchSize (counts.pending signer.address) reply state
        (state.pass batchSize signer counts round).1 ∧
      (state.pass batchSize signer counts round).2 = true := by
  unfold StabilityRound.reply? at hreply
  split at hreply
  next hlatest hbalance hpopulated =>
    simp only [StabilityRound.stops, hlatest, hbalance, decide_eq_false_iff_not] at hgoes
    simp only [StabilitySends.pass, hlatest, hbalance, hpopulated, if_neg hgoes,
      StabilitySends.sendBatch_of_some hreply (signTransferBatch_nonces _ _ _ _ _)]
    refine ⟨⟨?_, ?_, ?_⟩, trivial⟩ <;> simp [StabilitySends.batchNonce]
  next => cases hreply

end Pass

/-! ## The loop -/

/-- A run of the loop, by the replies to the batches that reach the node. -/
inductive StabilityRun (batchSize pending : Nat) :
    StabilitySends → List ChunkReply → StabilitySends → Prop
  | nil (state : StabilitySends) : StabilityRun batchSize pending state [] state
  | unposted {state after final : StabilitySends} {replies : List ChunkReply}
      (pass : Unposted pending state after)
      (rest : StabilityRun batchSize pending after replies final) :
      StabilityRun batchSize pending state replies final
  | posted {state after final : StabilitySends} {reply : ChunkReply} {replies : List ChunkReply}
      (pass : Posted batchSize pending reply state after)
      (rest : StabilityRun batchSize pending after replies final) :
      StabilityRun batchSize pending state (reply :: replies) final

/-- The loop is such a run. -/
theorem StabilitySends.loop_run (batchSize : Nat) (signer : TransferSigner)
    (counts : TransactionCounts) (state : StabilitySends) (rounds : List (StabilityRound Call)) :
    StabilityRun batchSize (counts.pending signer.address) state
      (stabilityReplies batchSize rounds) (state.loop batchSize signer counts rounds) := by
  induction rounds generalizing state with
  | nil => exact .nil state
  | cons round rest ih =>
      have hsplit : state.loop batchSize signer counts (round :: rest) =
          if (state.pass batchSize signer counts round).2 then
            (state.pass batchSize signer counts round).1.loop batchSize signer counts rest
          else (state.pass batchSize signer counts round).1 := by
        rw [StabilitySends.loop]
        split
        next hpass => rw [hpass, if_pos rfl]
        next hpass => rw [hpass, if_neg Bool.false_ne_true]
      rw [hsplit, stabilityReplies]
      cases hstops : round.stops batchSize with
      | true =>
          obtain ⟨hunposted, hends⟩ :=
            StabilitySends.pass_stops signer counts state hstops
          rw [hends, List.takeWhile_cons_of_neg (by simp [hstops])]
          exact .unposted hunposted (.nil _)
      | false =>
          rw [List.takeWhile_cons_of_pos (by simp [hstops]), List.filterMap_cons]
          cases hreply : round.reply? with
          | none =>
              obtain ⟨hunposted, hgoes⟩ :=
                StabilitySends.pass_quiet signer counts state hstops hreply
              rw [hgoes]
              exact .unposted hunposted (ih _)
          | some reply =>
              obtain ⟨hposted, hgoes⟩ :=
                StabilitySends.pass_posts signer counts state hstops hreply
              rw [hgoes]
              exact .posted hposted (ih _)

namespace StabilityRun

variable {batchSize pending : Nat} {state final : StabilitySends} {replies : List ChunkReply}

/-- The total of a run is what its replies add. -/
theorem total (hrun : StabilityRun batchSize pending state replies final) :
    final.totalTransactions = state.totalTransactions + (replies.map (advance batchSize)).sum := by
  induction hrun with
  | nil state => rfl
  | unposted pass rest ih => rw [ih, pass.total]
  | posted pass rest ih => rw [ih, pass.total, List.map_cons, List.sum_cons, Nat.add_assoc]

/-- The node has accepted what its replies accept. -/
theorem accepted (hrun : StabilityRun batchSize pending state replies final) :
    acceptedCount final.handed =
      acceptedCount state.handed + (replies.map (ChunkReply.accepted · batchSize)).sum := by
  induction hrun with
  | nil state => rfl
  | unposted pass rest ih => rw [ih, pass.handed]
  | posted pass rest ih =>
      rw [ih, pass.handed, acceptedCount_append, acceptedCount_batch, List.map_cons, List.sum_cons,
        Nat.add_assoc]
      rfl

/-- What was in turn at the end was so before. -/
theorem inTurn_before (hrun : StabilityRun batchSize pending state replies final)
    (hturn : InTurn pending final.handed) : InTurn pending state.handed := by
  induction hrun with
  | nil state => exact hturn
  | unposted pass rest ih => exact pass.handed ▸ ih hturn
  | posted pass rest ih =>
      have hafter := ih hturn
      rw [pass.handed, inTurn_append] at hafter
      exact hafter.1

theorem handed_of_nil (hrun : StabilityRun batchSize pending state [] final) :
    final.handed = state.handed := by
  generalize hreplies : ([] : List ChunkReply) = replies at hrun
  induction hrun with
  | nil state => rfl
  | unposted pass rest ih => rw [ih hreplies, pass.handed]
  | posted pass rest ih => cases hreplies

theorem handed_of_empty (hrun : StabilityRun 0 pending state replies final) :
    final.handed = state.handed := by
  induction hrun with
  | nil state => rfl
  | unposted pass rest ih => rw [ih, pass.handed]
  | posted pass rest ih =>
      rw [ih, pass.handed, batch, List.range_zero, List.map_nil, List.append_nil]

/-- A nonce that is ahead of the node's is never set back. -/
theorem replies_eq_nil (hrun : StabilityRun batchSize pending state replies final)
    (hsize : 0 < batchSize) (hturn : InTurn pending state.handed)
    (hahead : pending + acceptedCount state.handed < state.currentNonce)
    (hfinal : InTurn pending final.handed) : replies = [] := by
  induction hrun with
  | nil state => rfl
  | @unposted state after final replies pass rest ih =>
      have hnonce : state.currentNonce ≤ after.currentNonce := by
        rcases pass.nonce with heq | heq
        · exact Nat.le_of_eq heq.symm
        · exact heq ▸ Nat.le_max_left _ _
      rw [← pass.handed] at hturn hahead
      exact ih hturn (Nat.lt_of_lt_of_le hahead hnonce) hfinal
  | @posted state after final reply replies pass rest ih =>
      have hafter := rest.inTurn_before hfinal
      rw [pass.handed, inTurn_append, inTurn_batch_iff] at hafter
      rcases hafter.2 with hzero | ⟨hnonce, -⟩
      · exact absurd hzero (Nat.ne_of_gt hsize)
      · have hmax : state.currentNonce ≤ state.batchNonce pending := Nat.le_max_left _ _
        omega

end StabilityRun

/-! ## The condition -/

/-- Of a batch only the last transaction may be rejected, and in an answered batch only when
no other batch reaches the node after it. -/
def OrderKept (batchSize : Nat) (replies : List ChunkReply) : Prop :=
  (∀ reply ∈ replies, ∀ position, position + 1 < batchSize → accepts reply position) ∧
    replies.Pairwise fun earlier _ => answered earlier → accepts earlier (batchSize - 1)

/-- The batches for which the total is right. -/
inductive Balanced (batchSize : Nat) (replies : List ChunkReply) : Prop where
  /-- The answered batches do not lose their last transaction, and of the batches that threw
  nothing is accepted. -/
  | even : (∀ reply ∈ replies, answered reply → accepts reply (batchSize - 1)) →
      (∀ reply ∈ replies, answered reply = false → reply.accepted batchSize = 0) →
      Balanced batchSize replies
  /-- The last batch of all is answered and loses its last transaction, for which one transaction
  is accepted of one batch that threw. -/
  | swapped {earlier later : List ChunkReply} {gainer last : ChunkReply} :
      replies = (earlier ++ gainer :: later) ++ [last] →
      answered last → accepts last (batchSize - 1) = false →
      answered gainer = false → gainer.accepted batchSize = 1 →
      (∀ reply ∈ earlier ++ later, answered reply = false → reply.accepted batchSize = 0) →
      Balanced batchSize replies

/-- All but the last transaction accepted leaves at most the last one out. -/
theorem acceptedCount_batch_of_inner {batchSize nonce : Nat} {reply : ChunkReply}
    (hsize : 0 < batchSize)
    (hinner : ∀ position, position + 1 < batchSize → accepts reply position) :
    acceptedCount (batch (accepts reply) nonce batchSize) + 1 =
      batchSize + if accepts reply (batchSize - 1) then 1 else 0 := by
  obtain ⟨last, rfl⟩ := Nat.exists_eq_succ_of_ne_zero (Nat.ne_of_gt hsize)
  have hall : (List.range last).countP (accepts reply) = last := by
    have hmem : ∀ position ∈ List.range last, accepts reply position := fun position hmem =>
      hinner position (Nat.succ_lt_succ (List.mem_range.mp hmem))
    simpa using List.countP_eq_length.mpr hmem
  rw [acceptedCount_batch, List.range_succ, List.countP_append, hall]
  simp [Nat.add_right_comm]

/-- Order is kept when no reply rejects an inner transaction, no answered reply but the last
rejects its last one, and the rest keeps it too. -/
theorem orderKept_cons_iff {batchSize : Nat} {reply : ChunkReply} {replies : List ChunkReply} :
    OrderKept batchSize (reply :: replies) ↔
      (∀ position, position + 1 < batchSize → accepts reply position) ∧
        (replies ≠ [] → answered reply → accepts reply (batchSize - 1)) ∧
          OrderKept batchSize replies := by
  have hlater : (∀ later ∈ replies, answered reply → accepts reply (batchSize - 1)) ↔
      (replies ≠ [] → answered reply → accepts reply (batchSize - 1)) := by
    cases replies with
    | nil => simp
    | cons head tail =>
        exact ⟨fun hall _ => hall head List.mem_cons_self, fun hlast _ _ => hlast (by simp)⟩
  rw [OrderKept, OrderKept, List.forall_mem_cons, List.pairwise_cons, hlater]
  constructor
  · rintro ⟨⟨hfirst, hinner⟩, hlast, hrest⟩
    exact ⟨hfirst, hlast, hinner, hrest⟩
  · rintro ⟨hfirst, hlast, hinner, hrest⟩
    exact ⟨⟨hfirst, hinner⟩, hlast, hrest⟩

namespace StabilityRun

variable {batchSize pending : Nat} {state final : StabilitySends} {replies : List ChunkReply}

/-- A run that starts in turn, with the nonce not ahead, ends so exactly when its batches keep their
order. -/
theorem inTurn_iff (hrun : StabilityRun batchSize pending state replies final)
    (hsize : 0 < batchSize) (hturn : InTurn pending state.handed)
    (hplace : state.currentNonce ≤ pending + acceptedCount state.handed) :
    InTurn pending final.handed ↔ OrderKept batchSize replies := by
  induction hrun with
  | nil state => simp [hturn, OrderKept]
  | @unposted state after final replies pass rest ih =>
      have hnonce : after.currentNonce ≤ pending + acceptedCount state.handed := by
        rcases pass.nonce with heq | heq
        · exact heq ▸ hplace
        · rw [heq, StabilitySends.batchNonce, hturn.pendingNonce]
          exact Nat.max_le.mpr ⟨hplace, Nat.le_refl _⟩
      rw [← pass.handed] at hturn hnonce
      exact ih hturn hnonce
  | @posted state after final reply replies pass rest ih =>
      have hbatch : state.batchNonce pending = pending + acceptedCount state.handed := by
        rw [StabilitySends.batchNonce, hturn.pendingNonce]
        exact Nat.max_eq_right hplace
      rw [orderKept_cons_iff]
      by_cases hinner : ∀ position, position + 1 < batchSize → accepts reply position
      · have hafter : InTurn pending after.handed := by
          rw [pass.handed, inTurn_append]
          exact ⟨hturn, inTurn_batch_iff.mpr (.inr ⟨hbatch, hinner⟩)⟩
        have hcount : acceptedCount after.handed + 1 = acceptedCount state.handed +
            (batchSize + if accepts reply (batchSize - 1) then 1 else 0) := by
          rw [pass.handed, acceptedCount_append, Nat.add_assoc,
            acceptedCount_batch_of_inner hsize hinner]
        have hnonce := pass.nonce
        rw [hbatch, advance] at hnonce
        by_cases hlast : answered reply → accepts reply (batchSize - 1)
        · -- the node's nonce is where the next batch starts, or behind it
          have hplace : after.currentNonce ≤ pending + acceptedCount after.handed := by
            cases hanswered : answered reply with
            | false =>
                rw [if_neg (by simp [hanswered])] at hnonce
                omega
            | true =>
                rw [if_pos (hlast hanswered)] at hcount
                rw [if_pos hanswered] at hnonce
                omega
          rw [ih hafter hplace]
          exact ⟨fun hkept => ⟨hinner, fun _ => hlast, hkept⟩, fun hkept => hkept.2.2⟩
        · obtain ⟨hanswered, hrejected⟩ := Classical.not_imp.mp hlast
          rw [if_neg hrejected] at hcount
          rw [if_pos hanswered] at hnonce
          constructor
          · intro hfinal
            obtain rfl := rest.replies_eq_nil hsize hafter (by omega) hfinal
            exact ⟨hinner, by simp, by simp [OrderKept]⟩
          · rintro ⟨-, hlater, -⟩
            obtain rfl : replies = [] := Decidable.byContradiction fun hne => hlast (hlater hne)
            exact rest.handed_of_nil ▸ hafter
      · refine iff_of_false (fun hfinal => ?_) fun hkept => hinner hkept.1
        have hafter := rest.inTurn_before hfinal
        rw [pass.handed, inTurn_append, inTurn_batch_iff] at hafter
        rcases hafter.2 with hzero | ⟨-, haccepts⟩
        · exact Nat.ne_of_gt hsize hzero
        · exact hinner haccepts

end StabilityRun

/-! ## The total -/

/-- What a reply adds to the total and the node did not accept. -/
def lost (batchSize : Nat) (reply : ChunkReply) : Nat :=
  if answered reply then reply.rejected batchSize else 0

/-- What a reply does not add to the total and the node accepted. -/
def gained (batchSize : Nat) (reply : ChunkReply) : Nat :=
  if answered reply then 0 else reply.accepted batchSize

/-- The total is the number of accepted transactions exactly when as many were lost as gained. -/
theorem sum_advance_eq_iff (batchSize : Nat) (replies : List ChunkReply) :
    (replies.map (advance batchSize)).sum = (replies.map (ChunkReply.accepted · batchSize)).sum ↔
      (replies.map (lost batchSize)).sum = (replies.map (gained batchSize)).sum := by
  have hsums : (replies.map (advance batchSize)).sum + (replies.map (gained batchSize)).sum =
      (replies.map (ChunkReply.accepted · batchSize)).sum +
        (replies.map (lost batchSize)).sum := by
    induction replies with
    | nil => rfl
    | cons reply rest ih =>
        have hsplit := reply.accepted_add_rejected batchSize
        have hreply : advance batchSize reply + gained batchSize reply =
            reply.accepted batchSize + lost batchSize reply := by
          cases hanswered : answered reply with
          | false => simp [advance, lost, gained, hanswered]
          | true =>
              simp only [advance, lost, gained, hanswered, if_true]
              omega
        simp only [List.map_cons, List.sum_cons]
        omega
  omega

/-- A sum is one when one summand is one and the others are zero. -/
theorem sum_map_eq_one_iff {α : Type} (value : α → Nat) (members : List α) :
    (members.map value).sum = 1 ↔ ∃ earlier one later, members = earlier ++ one :: later ∧
      value one = 1 ∧ ∀ member ∈ earlier ++ later, value member = 0 := by
  induction members with
  | nil => simp
  | cons first rest ih =>
      rw [List.map_cons, List.sum_cons]
      constructor
      · intro hsum
        rcases Nat.eq_zero_or_pos (value first) with hfirst | hfirst
        · obtain ⟨earlier, one, later, rfl, hone, hzero⟩ := ih.mp (by omega)
          exact ⟨first :: earlier, one, later, rfl, hone,
            List.forall_mem_cons.mpr ⟨hfirst, hzero⟩⟩
        · have hrest : (rest.map value).sum = 0 := by omega
          refine ⟨[], first, rest, rfl, by omega, ?_⟩
          intro member hmember
          exact List.sum_eq_zero_iff.mp hrest _ (List.mem_map_of_mem hmember)
      · intro hsplit
        obtain ⟨earlier, one, later, hmembers, hone, hzero⟩ := hsplit
        cases earlier with
        | nil =>
            obtain ⟨rfl, rfl⟩ := List.cons.inj hmembers
            have hrest : (rest.map value).sum = 0 := List.sum_eq_zero (by simpa using hzero)
            omega
        | cons head earlier =>
            obtain ⟨rfl, rfl⟩ := List.cons.inj hmembers
            obtain ⟨hfirst, hzero⟩ := List.forall_mem_cons.mp hzero
            have hrest := ih.mpr ⟨earlier, one, later, rfl, hone, hzero⟩
            omega

section Total

variable {batchSize : Nat} {reply : ChunkReply} {replies : List ChunkReply}

/-- An answered batch in order loses its last transaction or nothing. -/
theorem lost_eq (hsize : 0 < batchSize)
    (hinner : ∀ position, position + 1 < batchSize → accepts reply position) :
    lost batchSize reply =
      if answered reply ∧ accepts reply (batchSize - 1) = false then 1 else 0 := by
  have haccepted : acceptedCount (batch (accepts reply) 0 batchSize) + 1 =
      batchSize + if accepts reply (batchSize - 1) then 1 else 0 :=
    acceptedCount_batch_of_inner hsize hinner
  rw [acceptedCount_batch] at haccepted
  change reply.accepted batchSize + 1 = _ at haccepted
  have hsplit := reply.accepted_add_rejected batchSize
  cases hanswered : answered reply <;> cases hlast : accepts reply (batchSize - 1) <;>
    simp [lost, hanswered, hlast] at haccepted ⊢ <;> omega

theorem gained_eq_zero_iff :
    gained batchSize reply = 0 ↔ (answered reply = false → reply.accepted batchSize = 0) := by
  cases hanswered : answered reply <;> simp [gained, hanswered]

theorem gained_eq_one_iff :
    gained batchSize reply = 1 ↔ answered reply = false ∧ reply.accepted batchSize = 1 := by
  cases hanswered : answered reply <;> simp [gained, hanswered]

theorem sum_gained_eq_zero_iff : (replies.map (gained batchSize)).sum = 0 ↔
    ∀ reply ∈ replies, answered reply = false → reply.accepted batchSize = 0 := by
  simp only [List.sum_eq_zero_iff, List.forall_mem_map, gained_eq_zero_iff]

/-- Batches that keep their order lose a transaction only at the very end. -/
theorem sum_lost_concat (hsize : 0 < batchSize) {before : List ChunkReply} {last : ChunkReply}
    (hkept : OrderKept batchSize (before ++ [last])) :
    ((before ++ [last]).map (lost batchSize)).sum =
      if answered last ∧ accepts last (batchSize - 1) = false then 1 else 0 := by
  obtain ⟨hinner, hlater⟩ := hkept
  obtain ⟨-, -, hbetween⟩ := List.pairwise_append.mp hlater
  have hbefore : (before.map (lost batchSize)).sum = 0 := by
    apply List.sum_eq_zero
    intro amount hmem
    obtain ⟨reply, hreply, rfl⟩ := List.mem_map.mp hmem
    rw [lost_eq hsize (hinner reply (List.mem_append_left _ hreply)), if_neg]
    rintro ⟨hanswered, hrejected⟩
    have haccepts := hbetween reply hreply last List.mem_cons_self hanswered
    rw [hrejected] at haccepts
    cases haccepts
  rw [List.map_append, List.sum_append, hbefore, Nat.zero_add, List.map_singleton,
    List.sum_singleton]
  exact lost_eq hsize (hinner last (List.mem_append_right _ List.mem_cons_self))

/-- Where the order is kept, the total is right exactly for the balanced batches. -/
theorem balanced_iff (hsize : 0 < batchSize) (hkept : OrderKept batchSize replies) :
    (replies.map (advance batchSize)).sum = (replies.map (ChunkReply.accepted · batchSize)).sum ↔
      Balanced batchSize replies := by
  rw [sum_advance_eq_iff]
  rcases List.eq_nil_or_concat' replies with rfl | ⟨before, last, rfl⟩
  · exact iff_of_true rfl (.even (fun _ hmem => absurd hmem List.not_mem_nil)
      fun _ hmem => absurd hmem List.not_mem_nil)
  · have hlost := sum_lost_concat hsize hkept
    obtain ⟨-, -, hbetween⟩ := List.pairwise_append.mp hkept.2
    rw [hlost]
    constructor
    · intro hsum
      by_cases hloses : answered last ∧ accepts last (batchSize - 1) = false
      · rw [if_pos hloses, List.map_append, List.sum_append, List.map_singleton,
          List.sum_singleton] at hsum
        have hlast : gained batchSize last = 0 := by simp [gained, hloses.1]
        obtain ⟨earlier, gainer, later, rfl, hone, hzero⟩ :=
          (sum_map_eq_one_iff (gained batchSize) before).mp (by omega)
        obtain ⟨hthrew, haccepted⟩ := gained_eq_one_iff.mp hone
        exact .swapped rfl hloses.1 hloses.2 hthrew haccepted
          fun reply hreply => gained_eq_zero_iff.mp (hzero reply hreply)
      · rw [if_neg hloses] at hsum
        refine .even ?_ (sum_gained_eq_zero_iff.mp hsum.symm)
        intro reply hreply hanswered
        rcases List.mem_append.mp hreply with hbefore | hlast
        · exact hbetween reply hbefore last List.mem_cons_self hanswered
        · obtain rfl := List.mem_singleton.mp hlast
          simpa [hanswered] using hloses
    · intro hbalanced
      cases hbalanced with
      | even hanswered hthrew =>
          rw [sum_gained_eq_zero_iff.mpr hthrew, if_neg]
          rintro ⟨hlast, hrejected⟩
          have haccepts := hanswered last (List.mem_append_right _ List.mem_cons_self) hlast
          rw [hrejected] at haccepts
          cases haccepts
      | @swapped earlier later gainer final hreplies hlast hrejected hthrew haccepted hzero =>
          obtain ⟨rfl, hsame⟩ := List.append_inj' hreplies rfl
          obtain rfl := List.singleton_inj.mp hsame
          have hone : ((earlier ++ gainer :: later).map (gained batchSize)).sum = 1 :=
            (sum_map_eq_one_iff _ _).mpr ⟨earlier, gainer, later, rfl,
              gained_eq_one_iff.mpr ⟨hthrew, haccepted⟩,
              fun reply hreply => gained_eq_zero_iff.mpr (hzero reply hreply)⟩
          rw [if_pos ⟨hlast, hrejected⟩, List.map_append, List.sum_append, hone]
          simp [gained, hlast]

end Total

/-- The transactions of the test are gap-free and fully counted exactly when the batches that
reach the node keep their order and are balanced. -/
theorem EnygmaBatchStability.sends_accounted_iff (batchSize : Nat) (signer : TransferSigner)
    (counts : TransactionCounts) (rounds : List (StabilityRound Call)) :
    let final := EnygmaBatchStability.sends batchSize signer counts rounds
    let replies := stabilityReplies batchSize rounds
    Accounted (counts.pending signer.address) final.handed final.totalTransactions ↔
      batchSize = 0 ∨ OrderKept batchSize replies ∧ Balanced batchSize replies := by
  intro final replies
  have hrun : StabilityRun batchSize (counts.pending signer.address)
      ⟨counts.latest signer.address, 0, 0, []⟩ replies final :=
    StabilitySends.loop_run batchSize signer counts _ rounds
  have htotals : final.totalTransactions = acceptedCount final.handed ↔
      (replies.map (advance batchSize)).sum =
        (replies.map (ChunkReply.accepted · batchSize)).sum := by
    rw [hrun.total, hrun.accepted]
    simp
  rw [accounted_iff, htotals]
  rcases Nat.eq_zero_or_pos batchSize with rfl | hsize
  · have hadvance : advance 0 = fun _ => 0 := funext fun _ => ite_self 0
    rw [hrun.handed_of_empty]
    simp [hadvance, ChunkReply.accepted, InTurn]
  · have hplace : counts.latest signer.address ≤ counts.pending signer.address + acceptedCount [] :=
      counts.latest_le signer.address
    rw [hrun.inTurn_iff hsize trivial hplace, and_comm,
      and_congr_right fun hkept => balanced_iff hsize hkept]
    simp [Nat.ne_of_gt hsize]

/-- Both senders, each under its own condition. -/
theorem batchSenders_accounted_iff {Value : Type}
    (builders : String → TransactionBuilder Value Call) (args : Direction → List Value)
    (participants : Participants) (ringCounts : String → TransactionCounts)
    (ringRounds : List (String → Delivery)) (batchSize : Nat) (signer : TransferSigner)
    (counts : TransactionCounts) (rounds : List (StabilityRound Call)) :
    let ring := EnygmaMesh.sends builders args participants ringCounts ringRounds
    let batches := EnygmaBatchStability.sends batchSize signer counts rounds
    let replies := stabilityReplies batchSize rounds
    ((∀ direction ∈ participants.ring,
        Accounted ((ringCounts direction.source).pending (builders direction.source).address)
          (ring.handed direction.source) (ring.totalSent direction.source)) ↔
      ∀ direction ∈ participants.ring,
        LaneInStep ((ringCounts direction.source).latest (builders direction.source).address)
          ((ringCounts direction.source).pending (builders direction.source).address)
          (ringRounds.map (· direction.source))) ∧
    (Accounted (counts.pending signer.address) batches.handed batches.totalTransactions ↔
      batchSize = 0 ∨ OrderKept batchSize replies ∧ Balanced batchSize replies) := by
  intro ring batches replies
  refine ⟨forall₂_congr fun direction hmem => ?_,
    EnygmaBatchStability.sends_accounted_iff batchSize signer counts rounds⟩
  exact EnygmaMesh.sends_accounted_iff builders args participants ringCounts ringRounds hmem

/-! ## Two failing runs -/

section Failing

/-- The node rejects the first transaction of a batch, and the POST ends with status 200. -/
def firstRejected : ChunkReply where
  item
    | 0 => .rejected (-32000) "txpool is full"
    | _ => .accepted "0xc0"
  exchange := .ok (200, "OK")

def ringParticipants : Participants := ⟨"A", "B", "C", "D", by decide⟩

def freshCounts : TransactionCounts := ⟨fun _ => 0, fun _ => 0, fun _ => Nat.le_refl 0⟩

def fundedRound : StabilityRound String where
  latestNonce := .ok ()
  currentBalance := .ok 10
  populated := .ok "crossTransfer"
  estimatedGas := .ok 100000
  delivery := .reached firstRejected

theorem not_accounted_firstRejected :
    (¬∀ direction ∈ ringParticipants.ring,
      let final := EnygmaMesh.sends (fun _ => plainBuilder) (fun _ => []) ringParticipants
        (fun _ => freshCounts) [fun _ => .reached firstRejected]
      Accounted (freshCounts.pending plainBuilder.address) (final.handed direction.source)
        (final.totalSent direction.source)) ∧
    ¬(let final := EnygmaBatchStability.sends 2 ⟨"0xA1", 600⟩ freshCounts [fundedRound]
      Accounted (freshCounts.pending "0xA1") final.handed final.totalTransactions) := by
  constructor
  · intro hall
    have htotal := (hall ⟨"A", "B"⟩ (by decide)).total
    exact absurd htotal (by decide)
  · intro haccounted
    exact absurd haccounted.total (by decide)

end Failing

end RaylsSuite.Performance
