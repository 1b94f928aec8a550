import Mathlib.Data.List.Basic

/-! # Runs of nonces

The transactions of one account reach a node one after another and are accepted
or rejected there. They come in turn when each carries the nonce after the last
accepted one; the accepted ones then leave no gap.
-/

namespace RaylsSuite.Foundation

structure Submission where
  nonce : Nat
  accepted : Bool
deriving DecidableEq, Repr

namespace Submission

def acceptedNonces (submissions : List Submission) : List Nat :=
  (submissions.filter Submission.accepted).map Submission.nonce

def acceptedCount (submissions : List Submission) : Nat :=
  submissions.countP Submission.accepted

/-- `next` is the nonce that the first submission has to carry. -/
def InTurn : Nat → List Submission → Prop
  | _, [] => True
  | next, submission :: rest =>
      submission.nonce = next ∧
        InTurn (if submission.accepted then submission.nonce + 1 else next) rest

instance : (next : Nat) → (submissions : List Submission) → Decidable (InTurn next submissions)
  | _, [] => inferInstanceAs (Decidable True)
  | next, submission :: rest =>
      have := instDecidableInTurn (if submission.accepted then submission.nonce + 1 else next) rest
      inferInstanceAs (Decidable (_ ∧ _))

/-- Every submission comes in turn after the nonces below `pending`, and the accepted ones
can all be executed because none is missing between them. -/
structure GapFree (pending : Nat) (submissions : List Submission) : Prop where
  inTurn : InTurn pending submissions
  run : acceptedNonces submissions = List.range' pending (acceptedCount submissions)

variable {next : Nat} {first second submissions : List Submission}

@[simp] theorem acceptedCount_nil : acceptedCount [] = 0 := rfl

@[simp] theorem acceptedCount_append :
    acceptedCount (first ++ second) = acceptedCount first + acceptedCount second :=
  List.countP_append

/-- Submissions in turn take the next nonces in a row. -/
theorem InTurn.run (hturn : InTurn next submissions) :
    acceptedNonces submissions = List.range' next (acceptedCount submissions) := by
  induction submissions generalizing next with
  | nil => rfl
  | cons submission rest ih =>
      obtain ⟨rfl, hrest⟩ := hturn
      cases haccepted : submission.accepted with
      | false =>
          rw [haccepted] at hrest
          simpa [acceptedNonces, acceptedCount, haccepted] using ih hrest
      | true =>
          rw [haccepted] at hrest
          have hrun := ih hrest
          simp only [acceptedNonces, acceptedCount] at hrun
          simp [acceptedNonces, acceptedCount, haccepted, List.range'_succ, hrun]

theorem gapFree_iff : GapFree next submissions ↔ InTurn next submissions :=
  ⟨GapFree.inTurn, fun hturn => ⟨hturn, hturn.run⟩⟩

/-- Two batches are in turn exactly if the second starts where the first has ended. -/
theorem inTurn_append :
    InTurn next (first ++ second) ↔
      InTurn next first ∧ InTurn (next + acceptedCount first) second := by
  induction first generalizing next with
  | nil => simp [InTurn]
  | cons submission rest ih =>
      simp only [List.cons_append, InTurn, ih, and_assoc]
      refine and_congr_right ?_
      rintro rfl
      cases haccepted : submission.accepted with
      | false => simp [acceptedCount, haccepted]
      | true => simp [acceptedCount, haccepted, Nat.add_assoc, Nat.add_comm 1]

/-! ## The node's side -/

/-- The first nonce from `start` on that no accepted submission carries. -/
def pendingNonce (start : Nat) (submissions : List Submission) : Nat :=
  let taken := acceptedNonces submissions
  let free := (List.range (taken.length + 1)).find? fun offset => start + offset ∉ taken
  start + free.getD taken.length

/-- The pending nonce of submissions in turn is behind those that were accepted. -/
theorem InTurn.pendingNonce (hturn : InTurn next submissions) :
    pendingNonce next submissions = next + acceptedCount submissions := by
  have hfree : (List.range (acceptedCount submissions + 1)).find?
      (fun offset => next + offset ∉ List.range' next (acceptedCount submissions)) =
        some (acceptedCount submissions) := by
    rw [List.find?_range_eq_some]
    simp
  simp only [Submission.pendingNonce, hturn.run, List.length_range', hfree, Option.getD_some]

/-- Consecutive nonces, each accepted or not as `accepts` says for its position. -/
def batch (accepts : Nat → Bool) (nonce size : Nat) : List Submission :=
  (List.range size).map fun position => ⟨nonce + position, accepts position⟩

variable {accepts : Nat → Bool} {size : Nat}

theorem acceptedCount_batch (nonce : Nat) :
    acceptedCount (batch accepts nonce size) = (List.range size).countP accepts := by
  rw [acceptedCount, batch, List.countP_map]
  rfl

/-- A batch in its turn can only lose its last submission. -/
theorem inTurn_batch_iff {nonce : Nat} :
    InTurn next (batch accepts nonce size) ↔
      size = 0 ∨ nonce = next ∧ ∀ position, position + 1 < size → accepts position := by
  induction size with
  | zero => simp [batch, InTurn]
  | succ size ih =>
      have hsplit : batch accepts nonce (size + 1) =
          batch accepts nonce size ++ [⟨nonce + size, accepts size⟩] := by
        simp [batch, List.range_succ]
      have hall : (List.range size).countP accepts = size ↔
          ∀ position < size, accepts position := by
        simpa using List.countP_eq_length (p := accepts) (l := List.range size)
      rw [hsplit, inTurn_append, ih, acceptedCount_batch]
      constructor
      · rintro ⟨hbefore, hnonce, -⟩
        rcases hbefore with rfl | ⟨rfl, -⟩
        · exact .inr ⟨by simpa using hnonce, by simp⟩
        · refine .inr ⟨rfl, fun position hlt => ?_⟩
          exact hall.mp (Nat.add_left_cancel hnonce).symm position (Nat.lt_of_succ_lt_succ hlt)
      · rintro (hzero | ⟨rfl, haccepts⟩)
        · exact absurd hzero (Nat.succ_ne_zero size)
        · refine ⟨.inr ⟨rfl, fun position hlt => ?_⟩, ?_, trivial⟩
          · exact haccepts position (Nat.lt_succ_of_lt hlt)
          · rw [hall.mpr fun position hlt => haccepts position (Nat.succ_lt_succ hlt)]

/-! ## Local counters -/

/-- An attempt is handed to the node, which accepts it or not, or fails before. -/
abbrev Attempt : Type := Option Bool

/-- The submissions of a counter that moves on after the attempts that `advances` names. -/
def counted (advances : Attempt → Bool) : Nat → List Attempt → List Submission
  | _, [] => []
  | nonce, attempt :: rest =>
      (attempt.map (⟨nonce, ·⟩)).toList ++
        counted advances (if advances attempt then nonce + 1 else nonce) rest

/-- Before an attempt that is handed over every other one is accepted. -/
def Unbroken (attempts : List Attempt) : Prop :=
  attempts.Pairwise fun earlier later => later ≠ none → earlier = some true

instance (attempts : List Attempt) : Decidable (Unbroken attempts) :=
  inferInstanceAs (Decidable (List.Pairwise _ attempts))

variable {advances : Attempt → Bool} {nonce : Nat} {attempts : List Attempt}

theorem counted_of_none (hnone : ∀ attempt ∈ attempts, attempt = none) :
    counted advances nonce attempts = [] := by
  induction attempts generalizing nonce with
  | nil => rfl
  | cons attempt rest ih =>
      obtain ⟨rfl, hrest⟩ := List.forall_mem_cons.mp hnone
      exact ih hrest

/-- A counter that is ahead only moves further ahead. -/
theorem inTurn_ahead_iff (hahead : next < nonce) :
    InTurn next (counted (fun _ => true) nonce attempts) ↔
      ∀ attempt ∈ attempts, attempt = none := by
  induction attempts generalizing nonce with
  | nil => simp [counted, InTurn]
  | cons attempt rest ih =>
      rw [List.forall_mem_cons]
      cases attempt with
      | none => simpa [counted] using ih (Nat.lt_succ_of_lt hahead)
      | some accepted =>
          have hne : nonce ≠ next := Nat.ne_of_gt hahead
          simp [counted, InTurn, hne]

theorem unbroken_of_none (hnone : ∀ attempt ∈ attempts, attempt = none) : Unbroken attempts :=
  List.pairwise_iff_forall_sublist.mpr fun {_ later} hsub hlater =>
    absurd (hnone later (hsub.subset (by simp))) hlater

/-- After an attempt that is not accepted nothing may be handed over. -/
theorem unbroken_cons_iff {attempt : Attempt} (hfailed : attempt ≠ some true) :
    Unbroken (attempt :: attempts) ↔ ∀ later ∈ attempts, later = none := by
  rw [Unbroken, List.pairwise_cons]
  constructor
  · rintro ⟨hlater, -⟩ later hmem
    by_contra hhanded
    exact hfailed (hlater later hmem hhanded)
  · intro hnone
    exact ⟨fun later hmem hhanded => absurd (hnone later hmem) hhanded, unbroken_of_none hnone⟩

theorem inTurn_always_iff_unbroken :
    InTurn nonce (counted (fun _ => true) nonce attempts) ↔ Unbroken attempts := by
  induction attempts generalizing nonce with
  | nil => simp [counted, InTurn, Unbroken]
  | cons attempt rest ih =>
      have hahead : InTurn nonce (counted (fun _ => true) (nonce + 1) rest) ↔
          ∀ attempt ∈ rest, attempt = none :=
        inTurn_ahead_iff (Nat.lt_succ_self nonce)
      match attempt with
      | none => simpa [counted, unbroken_cons_iff] using hahead
      | some false => simpa [counted, InTurn, unbroken_cons_iff] using hahead
      | some true => simpa [counted, InTurn, Unbroken] using ih

/-- The first attempt that is handed over must find the counter in place, and those from it
on must be unbroken. -/
theorem inTurn_always_iff :
    InTurn next (counted (fun _ => true) nonce attempts) ↔
      (∀ attempt ∈ attempts, attempt = none) ∨
        nonce + (attempts.takeWhile Option.isNone).length = next ∧
          Unbroken (attempts.dropWhile Option.isNone) := by
  induction attempts generalizing nonce with
  | nil => simp [counted, InTurn]
  | cons attempt rest ih =>
      cases attempt with
      | none =>
          rw [List.forall_mem_cons, List.takeWhile_cons_of_pos rfl, List.dropWhile_cons_of_pos rfl]
          have hrest := @ih (nonce + 1)
          simpa [counted, Nat.add_assoc, Nat.add_comm 1] using hrest
      | some accepted =>
          rw [List.takeWhile_cons_of_neg (by simp), List.dropWhile_cons_of_neg (by simp)]
          by_cases hplace : nonce = next
          · subst hplace
            simp [inTurn_always_iff_unbroken]
          · simp [counted, InTurn, hplace]

/-- A counter that moves with the accepted submissions stays as it started. -/
theorem inTurn_accepted_iff :
    InTurn next (counted (· == some true) nonce attempts) ↔
      (∀ attempt ∈ attempts, attempt = none) ∨ nonce = next := by
  induction attempts generalizing nonce next with
  | nil => simp [counted, InTurn]
  | cons attempt rest ih =>
      match attempt with
      | none => simpa [counted] using ih
      | some false => simpa [counted, InTurn] using fun hplace => ih.mpr (.inr hplace)
      | some true =>
          have hrest := ih.mpr (.inr (Eq.refl (nonce + 1)))
          simpa [counted, InTurn] using fun _ => hrest

end Submission

end RaylsSuite.Foundation
