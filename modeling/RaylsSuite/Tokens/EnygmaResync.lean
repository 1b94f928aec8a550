import RaylsSuite.Common.Conversation
import RaylsSuite.Foundation.SharedStore

/-! # Rolling a relayer's database back

A test sets the tables of a relayer back to the block at which a token was
created, while the relayer goes on writing to them, and then expects that the
relayer recreates what it lost.
-/

namespace RaylsSuite.Tokens

open Common Foundation Foundation.Dialogue Foundation.SharedStore

structure EnygmaTableRow where
  resource_id : String
  finalized_r : Option String
  finalized_balance : Option String
  finalized_block_number : Option Nat
deriving DecidableEq, Repr

structure EnygmaHistoryRow where
  resource_id : String
  event_type : Nat
  block_number_private_hub : Option Nat
  balance_change : Option String
  r_factor : Option String
deriving DecidableEq, Repr

structure EnygmaCheckpointRow where
  resource_id : String
  status : Nat
  finalized_block_number : Option Nat
  updated_at : Nat
deriving DecidableEq, Repr

/-- The tables of one relayer. -/
structure EnygmaDb where
  enygma : List EnygmaTableRow
  enygma_history : List EnygmaHistoryRow
  enygma_checkpoints : List EnygmaCheckpointRow
deriving DecidableEq, Repr

/-- `column > $2`, which is unknown for NULL. -/
def After (column : Option Nat) (block : Nat) : Prop := ∃ value, column = some value ∧ block < value

instance (column : Option Nat) (block : Nat) : Decidable (After column block) :=
  match column with
  | none => .isFalse fun hafter => by obtain ⟨_, hvalue, _⟩ := hafter; cases hvalue
  | some value => decidable_of_iff (block < value)
      ⟨fun hlt => ⟨value, rfl, hlt⟩, fun ⟨_, hvalue, hlt⟩ => Option.some.inj hvalue ▸ hlt⟩

/-- `ORDER BY column ASC`, with NULL last. -/
def ascending : Option Nat → Option Nat → Bool
  | _, none => true
  | none, some _ => false
  | some first, some second => decide (first ≤ second)

section Statements

variable (resourceId : String)

def selectEarliestHistory (db : EnygmaDb) : Option EnygmaHistoryRow :=
  ((db.enygma_history.filter fun row => row.resource_id = resourceId ∧ row.event_type = 0).mergeSort
    fun first second =>
      ascending first.block_number_private_hub second.block_number_private_hub).head?

def selectFinalization (block : Nat) (db : EnygmaDb) : Option EnygmaHistoryRow :=
  db.enygma_history.find? fun row => row.resource_id = resourceId ∧
    row.block_number_private_hub = some block ∧ row.event_type = 3

/-- The number of rows is only logged. -/
def updateEnygma (revertRFactor : String) (revertBalance : Option String) (block : Nat)
    (db : EnygmaDb) : Unit × EnygmaDb :=
  ((), { db with enygma := db.enygma.map fun row =>
    if row.resource_id = resourceId then
      { row with
        finalized_r := some revertRFactor
        finalized_balance := revertBalance
        finalized_block_number := some block }
    else row })

def deleteHistorys (block : Nat) (db : EnygmaDb) : Unit × EnygmaDb :=
  ((), { db with enygma_history := db.enygma_history.filter fun row =>
    ¬(row.resource_id = resourceId ∧ After row.block_number_private_hub block) })

def updateCheckPoints (block : Nat) (db : EnygmaDb) : Unit × EnygmaDb :=
  ((), { db with enygma_checkpoints := db.enygma_checkpoints.map fun row =>
    if row.resource_id = resourceId ∧ After row.finalized_block_number block then
      { row with status := 0 }
    else row })

def selectLastFinalizedCheckpoint (db : EnygmaDb) : Option EnygmaCheckpointRow :=
  ((db.enygma_checkpoints.filter fun row => row.resource_id = resourceId ∧ row.status = 1).mergeSort
    fun first second => decide (second.updated_at ≤ first.updated_at)).head?

/-- `COUNT(*)` comes back as a text. -/
def countHistory (db : EnygmaDb) : String :=
  (db.enygma_history.countP fun row => row.resource_id = resourceId).repr

def countHistoryAfter (block : Nat) (db : EnygmaDb) : String :=
  (db.enygma_history.countP fun row => row.resource_id = resourceId ∧
    After row.block_number_private_hub block).repr

end Statements

/-- A statement of the test, or a request to the hub. -/
inductive ResyncEvent where
  | transaction (transaction : Transaction EnygmaDb)
  | getBlockNumber (answer : Except JsError Nat)

variable {σ : Type}

abbrev Resync (σ α : Type) := Async (Dialogue σ ResyncEvent) JsError α

section Test

variable [Host σ] [SharedStore σ EnygmaDb JsError] (PARALLEL_WORKERS : Option String)
  (getBlockNumber : Async σ JsError Nat)

def blockOptions (targetBlockNumber : Nat) :
    PollOptions (Dialogue σ ResyncEvent) JsError Bool where
  check := ask .getBlockNumber getBlockNumber fun currentBlockNumber =>
    .ok (decide (targetBlockNumber ≤ currentBlockNumber))
  interval := some 1000
  attempts := some 300

def waitForNumberOfBlocks (numberOfBlocks : Nat) : Resync σ Bool :=
  andThen (ask .getBlockNumber getBlockNumber .ok) fun initialBlockNumber =>
    eventually PARALLEL_WORKERS (blockOptions getBlockNumber (initialBlockNumber + numberOfBlocks))
      s!"Waiting for block {initialBlockNumber + numberOfBlocks} (from {initialBlockNumber})"

/-- `enygma.resourceId.replace(/^0x/, '')`. -/
def withoutPrefix (resourceId : String) : String :=
  if Text.startsWith resourceId "0x" then String.ofList (resourceId.toList.drop 2) else resourceId

/-- The block of the earliest row, unless there is none or it is falsy. -/
def revertToBlock (falsy : Nat → Bool) (earliestHistory : Option EnygmaHistoryRow) :
    Resync σ Nat :=
  match earliestHistory.bind EnygmaHistoryRow.block_number_private_hub with
  | some block =>
      if falsy block then throws (.new missing) else returns block
  | none => throws (.new missing)
where
  missing := "No history found with event_type 0 or block_number_private_hub is missing"

/-- The factor and the balance of the row; the log cuts the factor, which throws on NULL. -/
def revertState (block : Nat) : Option EnygmaHistoryRow → Resync σ (String × Option String)
  | none => throws (.new s!"No history entry found with event_type 3 at block {block}")
  | some nextHistory =>
      match nextHistory.r_factor with
      | none => throws (.new "Cannot read properties of null (reading 'substring')")
      | some revertRFactor => returns (revertRFactor, nextHistory.balance_change)

/-- `expect(condition, message).to.be.true`. -/
def expectTrue (condition : Bool) (message : String) : Resync σ Unit :=
  if condition then returns ()
  else throws ⟨.assertionError, some s!"{message}: expected false to be true", none, none⟩

/-- `parseInt(result?.count ?? '0', 10) > 0`. -/
def positiveCount (count : String) : Bool :=
  match Text.parseInt count with
  | some value => decide (0 < value)
  | none => false

variable (resourceId : String)

def lookUpRevert (falsy : Nat → Bool) : Resync σ (Nat × String × Option String) :=
  andThen (read .transaction (selectEarliestHistory resourceId)) fun earliestHistory =>
    andThen (revertToBlock falsy earliestHistory) fun block =>
      andThen (read .transaction (selectFinalization resourceId block)) fun nextHistory =>
        andThen (revertState block nextHistory) fun state => returns (block, state)

def rollBack (block : Nat) (revertRFactor : String) (revertBalance : Option String) :
    Resync σ Unit :=
  andThen (transact .transaction (updateEnygma resourceId revertRFactor revertBalance block))
    fun _ => andThen (transact .transaction (deleteHistorys resourceId block)) fun _ =>
      transact .transaction (updateCheckPoints resourceId block)

def verifyResync (block : Nat) : Resync σ Unit :=
  andThen (read .transaction (selectLastFinalizedCheckpoint resourceId))
    fun lastFinalizedCheckpoint =>
      andThen (read .transaction (countHistory resourceId)) fun totalHistory =>
        andThen (read .transaction (countHistoryAfter resourceId block)) fun historyAfterRevert =>
          andThen (expectTrue (positiveCount totalHistory) "EnygmaHistory is not resynced")
            fun _ => andThen (expectTrue lastFinalizedCheckpoint.isSome
              "No checkpoint with status 1") fun _ =>
                expectTrue (positiveCount historyAfterRevert)
                  "No history recreated after revert block"

/-- The test on the token's resource; `falsy` tells which block numbers are falsy as they come
back from the database. -/
def shouldChangeDBAndSystemWillRecover (falsy : Nat → Bool) : Resync σ Unit :=
  let resourceId := withoutPrefix resourceId
  andThen (waitForNumberOfBlocks PARALLEL_WORKERS getBlockNumber 10) fun _ =>
    andThen (lookUpRevert resourceId falsy) fun (block, revertRFactor, revertBalance) =>
      andThen (rollBack resourceId block revertRFactor revertBalance) fun _ =>
        andThen (waitForNumberOfBlocks PARALLEL_WORKERS getBlockNumber 20) fun _ =>
          verifyResync resourceId block

end Test

/-! ## What the test does to the database -/

/-- The rows of other resources. -/
def EnygmaDb.others (db : EnygmaDb) (resourceId : String) : EnygmaDb where
  enygma := db.enygma.filter fun row => row.resource_id ≠ resourceId
  enygma_history := db.enygma_history.filter fun row => row.resource_id ≠ resourceId
  enygma_checkpoints := db.enygma_checkpoints.filter fun row => row.resource_id ≠ resourceId

/-- The transaction leaves the other resources alone and adds no history. -/
def Frames (resourceId : String) (transaction : Transaction EnygmaDb) : Prop :=
  transaction.after.others resourceId = transaction.before.others resourceId ∧
    transaction.after.enygma_history.Sublist transaction.before.enygma_history

/-- There is history after the block. -/
def HasHistoryAfter (resourceId : String) (block : Nat) (db : EnygmaDb) : Prop :=
  ∃ row ∈ db.enygma_history, row.resource_id = resourceId ∧
    After row.block_number_private_hub block

/-- The block is the one of the token's creation, and the state the one that was finalized
there. -/
structure Found (resourceId : String) (block : Nat) (revertRFactor : String)
    (revertBalance : Option String) (said : List ResyncEvent) : Prop where
  creation : ∃ db : EnygmaDb, .transaction ⟨db, db⟩ ∈ said ∧
    (∃ row ∈ db.enygma_history, row.resource_id = resourceId ∧ row.event_type = 0 ∧
      row.block_number_private_hub = some block) ∧
    ∀ row ∈ db.enygma_history, row.resource_id = resourceId → row.event_type = 0 →
      ∀ other, row.block_number_private_hub = some other → block ≤ other
  finalization : ∃ db : EnygmaDb, .transaction ⟨db, db⟩ ∈ said ∧
    ∃ row ∈ db.enygma_history, row.resource_id = resourceId ∧ row.event_type = 3 ∧
      row.block_number_private_hub = some block ∧ row.r_factor = some revertRFactor ∧
      row.balance_change = revertBalance

/-- What the test may write, once it has found the state to go back to. -/
def Writes (resourceId : String) (block : Nat) (revertRFactor : String)
    (revertBalance : Option String) (transaction : Transaction EnygmaDb) : Prop :=
  transaction.after =
      (updateEnygma resourceId revertRFactor revertBalance block transaction.before).2 ∨
    transaction.after = (deleteHistorys resourceId block transaction.before).2 ∨
    transaction.after = (updateCheckPoints resourceId block transaction.before).2

/-- What the test promises of the relayer's database, whatever the relayer does meanwhile. -/
structure Resyncs (resourceId : String) (outcome : Except JsError Unit) (said : List ResyncEvent) :
    Prop where
  framed : ∀ transaction, .transaction transaction ∈ said → Frames resourceId transaction
  /-- Nothing is changed before the state to go back to was found. -/
  guarded : ∀ earlier transaction later, said = earlier ++ .transaction transaction :: later →
    ¬transaction.Quiet → ∃ block revertRFactor revertBalance,
      Found resourceId block revertRFactor revertBalance earlier ∧
        Writes resourceId block revertRFactor revertBalance transaction
  /-- The test passes only if the history was recreated after it was deleted. -/
  recovered : outcome = .ok () → ∃ block revertRFactor revertBalance lookups reverted deleted reset
      waits checks,
    said = lookups ++ (.transaction reverted :: .transaction deleted :: .transaction reset ::
      (waits ++ checks)) ∧
    Found resourceId block revertRFactor revertBalance lookups ∧
    (∀ row ∈ reverted.after.enygma, row.resource_id = resourceId → row =
      ⟨resourceId, some revertRFactor, revertBalance, some block⟩) ∧
    ¬HasHistoryAfter resourceId block deleted.after ∧
    (∀ row ∈ reset.after.enygma_checkpoints, row.resource_id = resourceId →
      After row.finalized_block_number block → row.status = 0) ∧
    (∃ initial final, waits.head? = some (.getBlockNumber (.ok initial)) ∧
      waits.getLast? = some (.getBlockNumber (.ok final)) ∧ initial + 20 ≤ final) ∧
    ∃ db, checks.getLast? = some (.transaction ⟨db, db⟩) ∧ HasHistoryAfter resourceId block db

section Statements

variable {resourceId : String} {block : Nat} {db : EnygmaDb}

theorem filter_map_of_forall {α : Type} {keep : α → Bool} {change : α → α} {rows : List α}
    (hsame : ∀ row, keep row = true → change row = row)
    (hkeep : ∀ row, keep (change row) = keep row) :
    (rows.map change).filter keep = rows.filter keep := by
  rw [List.filter_map]
  have hpred : keep ∘ change = keep := funext hkeep
  rw [hpred]
  exact (List.map_congr_left fun row hrow => hsame row (List.mem_filter.mp hrow).2).trans
    (List.map_id _)

/-- `updateEnygma` writes no other token's rows. -/
theorem updateEnygma_frames (revertRFactor : String) (revertBalance : Option String) :
    Frames resourceId
      ⟨db, (updateEnygma resourceId revertRFactor revertBalance block db).2⟩ := by
  refine ⟨?_, List.Sublist.refl _⟩
  unfold EnygmaDb.others updateEnygma
  congr 1
  apply filter_map_of_forall
  · intro row hother
    exact if_neg (of_decide_eq_true hother)
  · intro row
    split <;> simp_all

theorem updateEnygma_finalized {revertRFactor : String} {revertBalance : Option String}
    {row : EnygmaTableRow}
    (hrow : row ∈ (updateEnygma resourceId revertRFactor revertBalance block db).2.enygma)
    (hresource : row.resource_id = resourceId) :
    row = ⟨resourceId, some revertRFactor, revertBalance, some block⟩ := by
  obtain ⟨before, _, rfl⟩ := List.mem_map.mp hrow
  split at hresource
  next hsame => rw [if_pos hsame, hsame]
  next hother => exact absurd hresource hother

theorem deleteHistorys_frames : Frames resourceId ⟨db, (deleteHistorys resourceId block db).2⟩ := by
  refine ⟨?_, List.filter_sublist⟩
  unfold EnygmaDb.others deleteHistorys
  congr 1
  rw [List.filter_filter]
  refine List.filter_congr fun row _ => ?_
  by_cases hother : row.resource_id = resourceId <;> simp [hother]

theorem not_hasHistoryAfter_deleteHistorys :
    ¬HasHistoryAfter resourceId block (deleteHistorys resourceId block db).2 := by
  rintro ⟨row, hrow, hafter⟩
  exact absurd hafter (of_decide_eq_true (List.mem_filter.mp hrow).2)

/-- `updateCheckPoints` writes no other token's rows. -/
theorem updateCheckPoints_frames :
    Frames resourceId ⟨db, (updateCheckPoints resourceId block db).2⟩ := by
  refine ⟨?_, List.Sublist.refl _⟩
  unfold EnygmaDb.others updateCheckPoints
  congr 1
  apply filter_map_of_forall
  · intro row hother
    exact if_neg fun hsame => of_decide_eq_true hother hsame.1
  · intro row
    split <;> rfl

theorem updateCheckPoints_status {row : EnygmaCheckpointRow}
    (hrow : row ∈ (updateCheckPoints resourceId block db).2.enygma_checkpoints)
    (hresource : row.resource_id = resourceId) (hafter : After row.finalized_block_number block) :
    row.status = 0 := by
  obtain ⟨before, _, rfl⟩ := List.mem_map.mp hrow
  by_cases hreset : before.resource_id = resourceId ∧ After before.finalized_block_number block
  · rw [if_pos hreset]
  · rw [if_neg hreset] at hresource hafter
    exact absurd ⟨hresource, hafter⟩ hreset

/-- None of the statements of the rollback writes another token's rows. -/
theorem Writes.frames {revertRFactor : String} {revertBalance : Option String}
    {transaction : Transaction EnygmaDb}
    (hwrites : Writes resourceId block revertRFactor revertBalance transaction) :
    Frames resourceId transaction := by
  obtain ⟨before, after⟩ := transaction
  change after = (updateEnygma resourceId revertRFactor revertBalance block before).2 ∨
    after = (deleteHistorys resourceId block before).2 ∨
    after = (updateCheckPoints resourceId block before).2 at hwrites
  rcases hwrites with rfl | rfl | rfl
  · exact updateEnygma_frames revertRFactor revertBalance
  · exact deleteHistorys_frames
  · exact updateCheckPoints_frames

theorem Frames.of_quiet {transaction : Transaction EnygmaDb} (hquiet : transaction.Quiet) :
    Frames resourceId transaction := by
  unfold Frames
  rw [hquiet]
  exact ⟨rfl, List.Sublist.refl _⟩

theorem ascending_trans (first second third : Option Nat) (hfirst : ascending first second = true)
    (hsecond : ascending second third = true) : ascending first third = true := by
  cases first <;> cases second <;> cases third <;> simp_all [ascending]
  omega

theorem ascending_total (first second : Option Nat) :
    (ascending first second || ascending second first) = true := by
  cases first <;> cases second <;> simp [ascending]
  omega

theorem selectEarliestHistory_spec {row : EnygmaHistoryRow}
    (hselected : selectEarliestHistory resourceId db = some row)
    (hblock : row.block_number_private_hub = some block) :
    (row ∈ db.enygma_history ∧ row.resource_id = resourceId ∧ row.event_type = 0) ∧
      ∀ other ∈ db.enygma_history, other.resource_id = resourceId → other.event_type = 0 →
        ∀ number, other.block_number_private_hub = some number → block ≤ number := by
  unfold selectEarliestHistory at hselected
  generalize hsorted : List.mergeSort _ _ = rows at hselected
  have hmem : ∀ other, other ∈ rows ↔ other ∈ db.enygma_history ∧
      other.resource_id = resourceId ∧ other.event_type = 0 := by
    intro other
    rw [← hsorted, List.mem_mergeSort, List.mem_filter, decide_eq_true_eq]
  have hordered : rows.Pairwise fun first second =>
      ascending first.block_number_private_hub second.block_number_private_hub = true := by
    rw [← hsorted]
    apply List.pairwise_mergeSort
    · intro first second third
      exact ascending_trans _ _ _
    · intro first second
      exact ascending_total _ _
  cases rows with
  | nil => cases hselected
  | cons first rest =>
      obtain rfl := Option.some.inj hselected
      refine ⟨(hmem first).mp List.mem_cons_self, ?_⟩
      intro other hother hresource htype number hnumber
      rcases List.mem_cons.mp ((hmem other).mpr ⟨hother, hresource, htype⟩) with rfl | hrest
      · exact Nat.le_of_eq (Option.some.inj (hblock.symm.trans hnumber))
      · have hle := (List.pairwise_cons.mp hordered).1 other hrest
        rw [hblock, hnumber] at hle
        exact of_decide_eq_true hle

theorem selectFinalization_spec {row : EnygmaHistoryRow}
    (hselected : selectFinalization resourceId block db = some row) :
    row ∈ db.enygma_history ∧ row.resource_id = resourceId ∧ row.event_type = 3 ∧
      row.block_number_private_hub = some block := by
  unfold selectFinalization at hselected
  have hmatches := List.find?_some hselected
  obtain ⟨hresource, hblock, htype⟩ := of_decide_eq_true hmatches
  exact ⟨List.mem_of_find?_eq_some hselected, hresource, htype, hblock⟩

theorem hasHistoryAfter_of_count
    (hcount : positiveCount (countHistoryAfter resourceId block db) = true) :
    HasHistoryAfter resourceId block db := by
  unfold positiveCount countHistoryAfter at hcount
  rw [Text.parseInt_repr] at hcount
  have hpositive := of_decide_eq_true hcount
  obtain ⟨row, hrow, hmatches⟩ := List.countP_pos_iff.mp (Int.natCast_pos.mp hpositive)
  exact ⟨row, hrow, of_decide_eq_true hmatches⟩

end Statements

/-- The event is a transaction with the property, or none. -/
def ResyncEvent.Satisfies (property : Transaction EnygmaDb → Prop) : ResyncEvent → Prop
  | .transaction change => property change
  | .getBlockNumber _ => True

theorem ResyncEvent.Satisfies.imp {event : ResyncEvent} {first second : Transaction EnygmaDb → Prop}
    (hfirst : event.Satisfies first)
    (himp : ∀ transaction, first transaction → second transaction) : event.Satisfies second := by
  cases event with
  | transaction change => exact himp change hfirst
  | getBlockNumber answer => trivial

/-- The transactions of a part change nothing. -/
def AllQuiet (said : List ResyncEvent) : Prop :=
  ∀ event ∈ said, event.Satisfies Transaction.Quiet

/-- A change comes after a part that changes nothing. -/
theorem AllQuiet.exists_split {part rest earlier later : List ResyncEvent}
    {change : Transaction EnygmaDb} (hquiet : AllQuiet part) (hloud : ¬change.Quiet)
    (hsplit : part ++ rest = earlier ++ .transaction change :: later) :
    ∃ between, earlier = part ++ between ∧ rest = between ++ .transaction change :: later := by
  rcases List.append_eq_append_iff.mp hsplit with hfound | ⟨tail, hpart, htail⟩
  · exact hfound
  · cases tail with
    | nil => exact ⟨[], by simp [hpart], htail.symm⟩
    | cons event tail =>
        obtain ⟨rfl, _⟩ := List.cons.inj htail
        exact absurd (hquiet (.transaction change) (by simp [hpart])) hloud

theorem AllQuiet.satisfies {part : List ResyncEvent} {property : Transaction EnygmaDb → Prop}
    (hquiet : AllQuiet part) (hproperty : ∀ transaction, transaction.Quiet → property transaction) :
    ∀ event ∈ part, event.Satisfies property :=
  fun event hevent => (hquiet event hevent).imp hproperty

theorem Found.mono {resourceId revertRFactor : String} {block : Nat}
    {revertBalance : Option String} {part said : List ResyncEvent}
    (hfound : Found resourceId block revertRFactor revertBalance part) (hpart : part ⊆ said) :
    Found resourceId block revertRFactor revertBalance said where
  creation := hfound.creation.imp fun _ hcreation => ⟨hpart hcreation.1, hcreation.2⟩
  finalization := hfound.finalization.imp fun _ hfinal => ⟨hpart hfinal.1, hfinal.2⟩

/-- What is said while blocks are awaited. -/
structure Waited (numberOfBlocks : Nat) (outcome : Except JsError Bool)
    (said : List ResyncEvent) : Prop where
  quiet : AllQuiet said
  mined : ∀ value, outcome = .ok value → ∃ initial final,
    said.head? = some (.getBlockNumber (.ok initial)) ∧
      said.getLast? = some (.getBlockNumber (.ok final)) ∧ initial + numberOfBlocks ≤ final

/-- What is said while the state to go back to is looked up. -/
structure LookedUp (resourceId : String) (outcome : Except JsError (Nat × String × Option String))
    (said : List ResyncEvent) : Prop where
  quiet : AllQuiet said
  found : ∀ block revertRFactor revertBalance,
    outcome = .ok (block, revertRFactor, revertBalance) →
      Found resourceId block revertRFactor revertBalance said

structure RolledBack (resourceId : String) (block : Nat) (revertRFactor : String)
    (revertBalance : Option String) (outcome : Except JsError Unit) (said : List ResyncEvent) :
    Prop where
  written : ∀ event ∈ said, event.Satisfies fun transaction =>
    transaction.Quiet ∨ Writes resourceId block revertRFactor revertBalance transaction
  returned : outcome = .ok () → ∃ first second third,
    said = [
      .transaction ⟨first, (updateEnygma resourceId revertRFactor revertBalance block first).2⟩,
      .transaction ⟨second, (deleteHistorys resourceId block second).2⟩,
      .transaction ⟨third, (updateCheckPoints resourceId block third).2⟩]

theorem RolledBack.framed {resourceId revertRFactor : String} {block : Nat}
    {revertBalance : Option String} {outcome : Except JsError Unit} {said : List ResyncEvent}
    (hrolled : RolledBack resourceId block revertRFactor revertBalance outcome said) :
    ∀ event ∈ said, event.Satisfies (Frames resourceId) := by
  intro event hevent
  apply (hrolled.written event hevent).imp
  intro transaction hwritten
  exact hwritten.elim .of_quiet Writes.frames

structure Verified (resourceId : String) (block : Nat) (outcome : Except JsError Unit)
    (said : List ResyncEvent) : Prop where
  quiet : AllQuiet said
  recovered : outcome = .ok () → ∃ db, said.getLast? = some (.transaction ⟨db, db⟩) ∧
    HasHistoryAfter resourceId block db

section Laws

variable [Host σ] [SharedStore σ EnygmaDb JsError] {PARALLEL_WORKERS : Option String}
  {getBlockNumber : Async σ JsError Nat} {resourceId : String} {block : Nat}

theorem quiet_of_reads {α : Type} {query : EnygmaDb → α} {outcome : Except JsError α}
    {said : List ResyncEvent} (hreads : Reads .transaction query outcome said) :
    AllQuiet said := by
  obtain ⟨current, rfl, _⟩ := hreads
  intro event hevent
  rw [List.mem_singleton.mp hevent]
  exact rfl

theorem quiet_of_settles {α : Type} {property : α → Prop} {outcome : Except JsError α}
    {said : List ResyncEvent} (hsettles : Law.settles property outcome said) : AllQuiet said :=
  hsettles.1 ▸ fun _ hevent => absurd hevent List.not_mem_nil

omit [SharedStore σ EnygmaDb JsError] in
/-- A wait for blocks ends when they are mined. -/
theorem waitForNumberOfBlocks_obeys (numberOfBlocks : Nat) :
    Obeys (waitForNumberOfBlocks PARALLEL_WORKERS getBlockNumber numberOfBlocks)
      (Waited numberOfBlocks) := by
  refine ((obeys_ask _ _ _).andThen fun initialBlockNumber =>
    obeys_eventually PARALLEL_WORKERS
      (blockOptions getBlockNumber (initialBlockNumber + numberOfBlocks)) rfl _).imp ?_
  intro outcome said hlaw
  refine ⟨hlaw.forall_mem ?_ ?_, fun value hok => ?_⟩
  · intro outcome said hasks event hevent
    obtain ⟨answer, rfl, _⟩ := hasks
    rw [List.mem_singleton.mp hevent]
    trivial
  · intro initial outcome said hasked event hevent
    obtain ⟨answers, rfl⟩ := hasked.exists_answers
    obtain ⟨answer, _, rfl⟩ := List.mem_map.mp hevent
    trivial
  · subst hok
    cases hlaw with
    | went hasks hasked =>
        obtain ⟨answer, rfl, hanswer⟩ := hasks
        rw [bind_ok] at hanswer
        subst hanswer
        obtain ⟨undecided, final, hread, htruthy, rfl⟩ := hasked.of_ok
        obtain rfl := Except.ok.inj hread
        refine ⟨_, final, rfl, ?_, of_decide_eq_true htruthy⟩
        rw [List.map_append, ← List.append_assoc]
        exact List.getLast?_concat

omit [Host σ] [SharedStore σ EnygmaDb JsError] in
/-- The block to revert to is that of the earliest row. -/
theorem revertToBlock_obeys (falsy : Nat → Bool) (earliest : Option EnygmaHistoryRow) :
    Obeys (revertToBlock falsy earliest : Resync σ Nat) (Law.settles fun block =>
      ∃ row, earliest = some row ∧ row.block_number_private_hub = some block) := by
  unfold revertToBlock
  split
  next block hfound =>
    split
    · exact settles_throws _ _
    · exact settles_returns (Option.bind_eq_some_iff.mp hfound)
  next => exact settles_throws _ _

omit [Host σ] [SharedStore σ EnygmaDb JsError] in
/-- The state to revert to is that of the finalization's row. -/
theorem revertState_obeys (block : Nat) (next : Option EnygmaHistoryRow) :
    Obeys (revertState block next : Resync σ _) (Law.settles fun state =>
      ∃ row, next = some row ∧ row.r_factor = some state.1 ∧ row.balance_change = state.2) := by
  unfold revertState
  split
  next => exact settles_throws _ _
  next row =>
    split
    next => exact settles_throws _ _
    next revertRFactor hfactor => exact settles_returns ⟨row, rfl, hfactor, rfl⟩

omit [Host σ] in
/-- Looking up the revert point obeys its law. -/
theorem lookUpRevert_obeys (falsy : Nat → Bool) :
    Obeys (lookUpRevert resourceId falsy : Resync σ _) (LookedUp resourceId) := by
  refine ((obeys_read _).andThen fun earliest => (revertToBlock_obeys falsy earliest).andThen
    fun block => (obeys_read _).andThen fun next => (revertState_obeys block next).andThen
      fun state => settles_returns (rfl : (block, state) = (block, state))).imp ?_
  intro outcome said hlaw
  refine ⟨hlaw.forall_mem (fun _ _ => quiet_of_reads) fun _ _ _ hrest =>
    hrest.forall_mem (fun _ _ => quiet_of_settles) fun _ _ _ hrest =>
      hrest.forall_mem (fun _ _ => quiet_of_reads) fun _ _ _ hrest =>
        hrest.forall_mem (fun _ _ => quiet_of_settles) fun _ _ _ => quiet_of_settles, ?_⟩
  intro block revertRFactor revertBalance hok
  subst hok
  cases hlaw with
  | went hearliest hrest =>
      cases hrest with
      | went hblock hrest =>
          cases hrest with
          | went hnext hrest =>
              cases hrest with
              | went hstate hreturned =>
                  obtain ⟨rfl, hreturned⟩ := hreturned
                  obtain ⟨rfl, rfl⟩ := Prod.mk.inj (hreturned _ rfl)
                  obtain ⟨first, rfl, hearliest⟩ := hearliest
                  obtain ⟨second, rfl, hnext⟩ := hnext
                  obtain ⟨row, hrow, hnumber⟩ := hblock.2 _ rfl
                  obtain ⟨final, hfinal, hfactor, hbalance⟩ := hstate.2 _ rfl
                  obtain ⟨hcreated, hleast⟩ :=
                    selectEarliestHistory_spec ((hearliest _ rfl).trans hrow) hnumber
                  obtain ⟨hmem, hresource, htype, hsame⟩ :=
                    selectFinalization_spec ((hnext _ rfl).trans hfinal)
                  exact ⟨⟨first, by simp, ⟨row, hcreated.1, hcreated.2.1, hcreated.2.2, hnumber⟩,
                    hleast⟩, second, by simp, final, hmem, hresource, htype, hsame, hfactor,
                    hbalance⟩

omit [Host σ] in
/-- The rollback obeys its law on every database. -/
theorem rollBack_obeys (revertRFactor : String) (revertBalance : Option String) :
    Obeys (rollBack resourceId block revertRFactor revertBalance : Resync σ Unit)
      (RolledBack resourceId block revertRFactor revertBalance) := by
  have hwritten : ∀ {run : EnygmaDb → Unit × EnygmaDb} {outcome : Except JsError Unit}
      {said : List ResyncEvent},
      (∀ db, Writes resourceId block revertRFactor revertBalance ⟨db, (run db).2⟩) →
      Transacts .transaction run outcome said → ∀ event ∈ said,
        event.Satisfies fun transaction => transaction.Quiet ∨
          Writes resourceId block revertRFactor revertBalance transaction := by
    intro run outcome said hrun htransacts event hevent
    cases htransacts with
    | refused => exact List.mem_singleton.mp hevent ▸ .inl rfl
    | lost | done => exact List.mem_singleton.mp hevent ▸ .inr (hrun _)
  refine ((obeys_transact _).andThen fun _ => (obeys_transact _).andThen fun _ =>
    obeys_transact _).imp ?_
  intro outcome said hlaw
  refine ⟨hlaw.forall_mem (fun _ _ => hwritten fun _ => .inl rfl) fun _ _ _ hrest =>
    hrest.forall_mem (fun _ _ => hwritten fun _ => .inr (.inl rfl)) fun _ _ _ =>
      hwritten fun _ => .inr (.inr rfl), fun hok => ?_⟩
  subst hok
  cases hlaw with
  | went hfirst hrest =>
      cases hrest with
      | went hsecond hthird =>
          cases hfirst with
          | done => cases hsecond with
            | done => cases hthird with
              | done => exact ⟨_, _, _, rfl⟩

omit [Host σ] in
/-- The verification obeys its law on every database. -/
theorem verifyResync_obeys :
    Obeys (verifyResync resourceId block : Resync σ Unit) (Verified resourceId block) := by
  have hexpect : ∀ (condition : Bool) (message : String),
      Obeys (expectTrue condition message : Resync σ Unit)
        (Law.settles fun _ => condition = true) := by
    intro condition message
    unfold expectTrue
    split
    next htrue => exact settles_returns htrue
    next => exact settles_throws _ _
  refine ((obeys_read _).andThen fun (checkpoint : Option EnygmaCheckpointRow) =>
    (obeys_read _).andThen fun total => (obeys_read _).andThen fun after =>
      ((hexpect (positiveCount total) _).andThen fun _ => ((hexpect checkpoint.isSome _).andThen
        fun _ => hexpect (positiveCount after) _).imp fun _ _ => Law.Then.settles).imp
          fun _ _ => Law.Then.settles).imp ?_
  intro outcome said hlaw
  refine ⟨hlaw.forall_mem (fun _ _ => quiet_of_reads) fun _ _ _ hrest =>
    hrest.forall_mem (fun _ _ => quiet_of_reads) fun _ _ _ hrest =>
      hrest.forall_mem (fun _ _ => quiet_of_reads) fun _ _ _ => quiet_of_settles, fun hok => ?_⟩
  subst hok
  cases hlaw with
  | went hcheckpoint hrest =>
      cases hrest with
      | went htotal hrest =>
          cases hrest with
          | went hafter hexpected =>
              obtain ⟨rfl, hpositive⟩ := hexpected
              obtain ⟨db, rfl, hafter⟩ := hafter
              refine ⟨db, ?_, hasHistoryAfter_of_count ((hafter _ rfl).symm ▸ hpositive () rfl)⟩
              rw [List.append_nil, ← List.append_assoc]
              exact List.getLast?_concat

end Laws

/-- Whatever the relayer does between the statements of the test and which of them fail: other
resources are left alone and no history is added, nothing is changed before the creation's
state was found, and the test passes only when the relayer recreated the history after it was
deleted. -/
theorem shouldChangeDBAndSystemWillRecover_resyncs [Host σ] [SharedStore σ EnygmaDb JsError]
    (PARALLEL_WORKERS : Option String) (getBlockNumber : Async σ JsError Nat) (resourceId : String)
    (falsy : Nat → Bool) :
    Obeys (shouldChangeDBAndSystemWillRecover PARALLEL_WORKERS getBlockNumber resourceId falsy)
      (Resyncs (withoutPrefix resourceId)) := by
  refine ((waitForNumberOfBlocks_obeys 10).andThen fun _ => (lookUpRevert_obeys falsy).andThen
    fun (state : Nat × String × Option String) => (rollBack_obeys state.2.1 state.2.2).andThen
      fun _ => (waitForNumberOfBlocks_obeys 20).andThen fun _ => verifyResync_obeys).imp ?_
  intro outcome said hlaw
  have hquiet : ∀ {said : List ResyncEvent}, AllQuiet said →
      ∀ event ∈ said, event.Satisfies (Frames (withoutPrefix resourceId)) :=
    fun hsaid => hsaid.satisfies fun _ => .of_quiet
  refine ⟨fun change => hlaw.forall_mem (fun _ _ hwaited => hquiet hwaited.quiet)
    (fun _ _ _ hrest => hrest.forall_mem (fun _ _ hlooked => hquiet hlooked.quiet)
      fun _ _ _ hrest => hrest.forall_mem (fun _ _ hrolled => hrolled.framed)
        fun _ _ _ hrest => hrest.forall_mem (fun _ _ hwaited => hquiet hwaited.quiet)
          fun _ _ _ hverified => hquiet hverified.quiet) (.transaction change), ?_, ?_⟩
  · intro earlier change later hsplit hloud
    have hmem : .transaction change ∈ said := by simp [hsplit]
    cases hlaw with
    | failed hwaited => exact absurd (hwaited.quiet _ hmem) hloud
    | @went _ _ waited rest hwaited hrest =>
        obtain ⟨between, rfl, hlater⟩ := hwaited.quiet.exists_split hloud hsplit
        have hmem : .transaction change ∈ rest := by simp [hlater]
        cases hrest with
        | failed hlooked => exact absurd (hlooked.quiet _ hmem) hloud
        | @went state _ looked rest hlooked hrest =>
            obtain ⟨between, rfl, hlast⟩ := hlooked.quiet.exists_split hloud hlater
            have hmem : .transaction change ∈ rest := by simp [hlast]
            refine ⟨state.1, state.2.1, state.2.2, (hlooked.found _ _ _ rfl).mono ?_, ?_⟩
            · exact fun event hevent =>
                List.mem_append_right waited (List.mem_append_left _ hevent)
            · refine (hrest.forall_mem (fun _ _ hrolled => hrolled.written)
                (fun _ _ _ hrest => hrest.forall_mem (fun _ _ hwaited => ?_)
                  fun _ _ _ hverified => ?_) _ hmem).resolve_left hloud
              · exact hwaited.quiet.satisfies fun _ => .inl
              · exact hverified.quiet.satisfies fun _ => .inl
  · intro hok
    subst hok
    cases hlaw with
    | @went _ _ waited _ _ hrest =>
        cases hrest with
        | @went state _ looked _ hlooked hrest =>
            cases hrest with
            | went hrolled hrest =>
                cases hrest with
                | @went _ _ mined checks hmined hverified =>
                    obtain ⟨first, second, third, rfl⟩ := hrolled.returned rfl
                    refine ⟨state.1, state.2.1, state.2.2, waited ++ looked, _, _, _, mined,
                      checks, (List.append_assoc waited looked _).symm,
                      (hlooked.found _ _ _ rfl).mono (List.subset_append_right _ _), ?_, ?_, ?_,
                      hmined.mined _ rfl, hverified.recovered rfl⟩
                    · exact fun row => updateEnygma_finalized
                    · exact not_hasHistoryAfter_deleteHistorys
                    · exact fun row => updateCheckPoints_status

end RaylsSuite.Tokens
