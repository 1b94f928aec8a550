import Mathlib.Data.List.Nodup
import RaylsSuite.Foundation.Grouping

/-! # Teleports across a mesh of nodes

A batch is teleported in one transaction, and each of its items arrives on its
own. What is waited for are the balances of the receivers, one for each
destination and account, as the sums of the items that they get.
-/

namespace RaylsSuite.Performance

open Foundation

/-- A privacy node as the mesh tests see it. -/
structure MeshNode where
  node : String
  chainId : String
deriving DecidableEq, Repr

/-- The values of the tests are whole numbers, and so are their sums below `2 ^ 53`. -/
structure TokenSendTx where
  source : MeshNode
  destination : MeshNode
  to_ : String
  value : Nat
  resourceId : String
deriving DecidableEq, Repr

/-- An item of the payload of `batchTeleport` and `batchTeleportAtomic`. -/
structure BatchItem where
  to_ : String
  value : Nat
  chainId : String
deriving DecidableEq, Repr

/-! ## Batches -/

def prepareBatchTokenSendTx (getBatchTokenResourceId : MeshNode → String)
    (source destination : MeshNode) (value : Nat) (to_ : String) : TokenSendTx :=
  ⟨source, destination, to_, value, getBatchTokenResourceId source⟩

/-- The condition by which `combineBatchTxWithSameDest` finds an existing entry. -/
def TokenSendTx.sameDest (x tx : TokenSendTx) : Bool :=
  x.source.node = tx.source.node ∧ x.destination.node = tx.destination.node ∧ x.to_ = tx.to_

/-- The reducer: the first entry with the destination grows, or a new one is added. -/
def combineTx : List TokenSendTx → TokenSendTx → List TokenSendTx
  | [], tx => [tx]
  | existing :: rest, tx =>
      if existing.sameDest tx then { existing with value := existing.value + tx.value } :: rest
      else existing :: combineTx rest tx

def combineBatchTxWithSameDest (batch : List TokenSendTx) : List TokenSendTx :=
  batch.foldl combineTx []

def teleportPayload (batch : List TokenSendTx) : List BatchItem :=
  batch.map fun tx => ⟨tx.to_, tx.value, tx.destination.chainId⟩

/-- The balance that a wait reads: a chain, a resource and an account. -/
structure BalanceKey where
  chainId : String
  resourceId : String
  account : String
deriving DecidableEq, Repr

def TokenSendTx.balanceKey (tx : TokenSendTx) : BalanceKey :=
  ⟨tx.destination.chainId, tx.resourceId, tx.to_⟩

/-- What a combined transfer stands for. -/
def TokenSendTx.weighing : Weighing TokenSendTx BalanceKey := ⟨balanceKey, value⟩

/-- What arrives for an item that is sent through the token with the resource. -/
def BatchItem.weighing (resourceId : String) : Weighing BatchItem BalanceKey :=
  ⟨fun item => ⟨item.chainId, resourceId, item.to_⟩, value⟩

/-- The balances after some deliveries. -/
def balancesAfter {Item : Type} (weighing : Weighing Item BalanceKey)
    (receiverBalanceBefore : BalanceKey → Nat) (items : List Item) (place : BalanceKey) : Nat :=
  receiverBalanceBefore place + totalAt weighing.key weighing.amount items place

/-- The condition of `waitUntilTokensAreTransferred`. -/
def Transferred (receiverBalanceBefore balances : BalanceKey → Nat) (tx : TokenSendTx) : Prop :=
  balances tx.balanceKey = receiverBalanceBefore tx.balanceKey + tx.value

/-! ## Combining -/

/-- The transfers of a batch start from one node, and node names stand for chains. -/
structure OneSource (source : MeshNode) (resourceId : String) (batch : List TokenSendTx) :
    Prop where
  source : ∀ tx ∈ batch, tx.source = source
  resourceId : ∀ tx ∈ batch, tx.resourceId = resourceId
  chains : ∀ tx ∈ batch, ∀ other ∈ batch,
    tx.destination.node = other.destination.node ↔
      tx.destination.chainId = other.destination.chainId

section Combine

variable {source : MeshNode} {resourceId : String} {batch groups : List TokenSendTx}
  {tx : TokenSendTx}

theorem OneSource.sameDest_iff (hbatch : OneSource source resourceId batch) {x : TokenSendTx}
    (hx : x ∈ batch) (htx : tx ∈ batch) : x.sameDest tx = true ↔ x.balanceKey = tx.balanceKey := by
  simp only [TokenSendTx.sameDest, TokenSendTx.balanceKey, decide_eq_true_eq, BalanceKey.mk.injEq,
    hbatch.source x hx, hbatch.source tx htx, hbatch.resourceId x hx, hbatch.resourceId tx htx,
    hbatch.chains x hx tx htx, true_and]

/-- A transfer opens a group of its own or is added to the first group of its destination. -/
theorem combineTx_cases (acc : List TokenSendTx) (tx : TokenSendTx) :
    (combineTx acc tx = acc ++ [tx] ∧ ∀ x ∈ acc, x.sameDest tx = false) ∨
      ∃ first existing rest, acc = first ++ existing :: rest ∧ existing.sameDest tx = true ∧
        combineTx acc tx =
          first ++ { existing with value := existing.value + tx.value } :: rest := by
  induction acc with
  | nil => exact .inl ⟨rfl, fun _ hmem => absurd hmem List.not_mem_nil⟩
  | cons existing acc ih =>
      cases hsame : existing.sameDest tx with
      | true => exact .inr ⟨[], existing, acc, rfl, hsame, by simp [combineTx, hsame]⟩
      | false =>
          rcases ih with ⟨hnew, hnone⟩ | ⟨first, found, rest, rfl, hfound, hgrown⟩
          · exact .inl ⟨by simp [combineTx, hsame, hnew], List.forall_mem_cons.mpr ⟨hsame, hnone⟩⟩
          · exact .inr ⟨existing :: first, found, rest, rfl, hfound,
              by simp [combineTx, hsame, hgrown]⟩

/-- An entry is a transfer of the batch but for its value. -/
def Copies (batch groups : List TokenSendTx) : Prop :=
  ∀ group ∈ groups, ∃ x ∈ batch, group = { x with value := group.value }

def TokenSendTx.item (tx : TokenSendTx) : BatchItem := ⟨tx.to_, tx.value, tx.destination.chainId⟩

theorem OneSource.item_key (hbatch : OneSource source resourceId batch) (htx : tx ∈ batch) :
    (BatchItem.weighing resourceId).key tx.item = tx.balanceKey := by
  simp [BatchItem.weighing, TokenSendTx.item, TokenSendTx.balanceKey, hbatch.resourceId tx htx]

/-- Combining one more transfer keeps the groups' totals in step with the transfers. -/
theorem OneSource.combineTx (hbatch : OneSource source resourceId batch) {done : List BatchItem}
    (htx : tx ∈ batch) (hcopies : Copies batch groups)
    (hgroups : Groups (BatchItem.weighing resourceId) TokenSendTx.weighing done groups) :
    Copies batch (combineTx groups tx) ∧
      Groups (BatchItem.weighing resourceId) TokenSendTx.weighing (done ++ [tx.item])
        (combineTx groups tx) := by
  have hkey := hbatch.item_key htx
  have hsame : ∀ group ∈ groups,
      group.sameDest tx = true ↔ group.balanceKey = tx.balanceKey := by
    intro group hgroup
    obtain ⟨x, hx, heq⟩ := hcopies group hgroup
    have hiff := hbatch.sameDest_iff hx htx
    rw [heq]
    exact hiff
  rcases combineTx_cases groups tx with
    ⟨hnew, hnone⟩ | ⟨first, existing, rest, rfl, hexisting, hgrown⟩
  · rw [hnew]
    constructor
    · intro group hgroup
      rcases List.mem_append.mp hgroup with hgroup | hgroup
      · exact hcopies group hgroup
      · rw [List.mem_singleton.mp hgroup]
        exact ⟨tx, htx, rfl⟩
    · refine hgroups.push (fun group hgroup heq => ?_) hkey.symm rfl
      have hfound := (hsame group hgroup).mpr (heq.trans hkey)
      rw [hnone group hgroup] at hfound
      cases hfound
  · rw [hgrown]
    have hmem : existing ∈ first ++ existing :: rest := by simp
    constructor
    · intro group hgroup
      rcases List.mem_append.mp hgroup with hgroup | hgroup
      · exact hcopies group (List.mem_append_left _ hgroup)
      · rcases List.mem_cons.mp hgroup with rfl | hgroup
        · obtain ⟨x, hx, heq⟩ := hcopies existing hmem
          exact ⟨x, hx, by rw [heq]⟩
        · exact hcopies group (by simp [hgroup])
    · exact hgroups.grow (((hsame existing hmem).mp hexisting).trans hkey.symm) rfl rfl

/-- The groups of a whole batch carry the totals of its transfers. -/
theorem OneSource.foldl_combineTx (hbatch : OneSource source resourceId batch)
    {done : List BatchItem} (rest : List TokenSendTx) (hrest : ∀ tx ∈ rest, tx ∈ batch)
    (hcopies : Copies batch groups)
    (hgroups : Groups (BatchItem.weighing resourceId) TokenSendTx.weighing done groups) :
    Groups (BatchItem.weighing resourceId) TokenSendTx.weighing
      (done ++ rest.map TokenSendTx.item) (rest.foldl Performance.combineTx groups) := by
  induction rest generalizing done groups with
  | nil => simpa using hgroups
  | cons tx rest ih =>
      obtain ⟨hcopies, hgroups⟩ := hbatch.combineTx (hrest tx List.mem_cons_self) hcopies hgroups
      have hfolded := ih (fun other hother => hrest other (List.mem_cons_of_mem tx hother))
        hcopies hgroups
      rwa [List.append_assoc, List.singleton_append] at hfolded

/-- The combined batch has one entry for each balance that the payload changes. -/
theorem OneSource.groups_payload (hbatch : OneSource source resourceId batch) :
    Groups (BatchItem.weighing resourceId) TokenSendTx.weighing (teleportPayload batch)
      (combineBatchTxWithSameDest batch) :=
  hbatch.foldl_combineTx batch (fun _ => id) (fun _ hmem => absurd hmem List.not_mem_nil)
    Groups.nil

end Combine

/-- Whatever the order in which the items of a batch arrive, no balance goes beyond the one that
is waited for, and all the waits are met exactly when only items of value zero are missing. -/
theorem batch_transferred_iff {source : MeshNode} {resourceId : String} {batch : List TokenSendTx}
    (hbatch : OneSource source resourceId batch) (receiverBalanceBefore : BalanceKey → Nat)
    {state : Deliveries BatchItem} (hreach : delivering.Reaches ⟨[], teleportPayload batch⟩ state) :
    let balances := balancesAfter (BatchItem.weighing resourceId) receiverBalanceBefore
      state.delivered
    (∀ tx ∈ combineBatchTxWithSameDest batch,
        balances tx.balanceKey ≤ receiverBalanceBefore tx.balanceKey + tx.value) ∧
      ((∀ tx ∈ combineBatchTxWithSameDest batch, Transferred receiverBalanceBefore balances tx) ↔
        ∀ item ∈ state.pending, item.value = 0) := by
  refine ⟨fun tx htx => Nat.add_le_add_left (hbatch.groups_payload.delivered_le hreach htx) _, ?_⟩
  exact (forall₂_congr fun tx _ => Nat.add_left_cancel_iff).trans
    (hbatch.groups_payload.complete_iff hreach)

/-- Two items for one account on one chain, of which one has arrived. -/
theorem batch_transferred_iff_late :
    let batch : List TokenSendTx := [100, 100].map fun value =>
      prepareBatchTokenSendTx (fun _ => "0x1") ⟨"A", "1"⟩ ⟨"B", "2"⟩ value "0xacc"
    ¬∀ tx ∈ combineBatchTxWithSameDest batch, Transferred (fun _ => 0)
      (balancesAfter (BatchItem.weighing "0x1") (fun _ => 0) [⟨"0xacc", 100, "2"⟩]) tx := by
  intro batch hwaits
  have hbatch : OneSource ⟨"A", "1"⟩ "0x1" batch := by
    constructor <;> simp [batch, prepareBatchTokenSendTx]
  have hreach : delivering.Reaches ⟨[], batch.map (·.item)⟩
      ⟨[⟨"0xacc", 100, "2"⟩], [⟨"0xacc", 100, "2"⟩]⟩ := ⟨[0], rfl⟩
  have hworthless := (batch_transferred_iff hbatch (fun _ => 0) hreach).2.mp hwaits
  exact absurd (hworthless _ (List.mem_singleton.mpr rfl)) (by decide)

/-! ## Everyone to everyone -/

/-- The calls of the callback, in order: a source with its destinations. -/
def everyoneToAllParticipants (participants : List MeshNode) : List (MeshNode × List MeshNode) :=
  participants.map fun source =>
    (source, participants.filter fun x => x.node ≠ source.node)

/-- One call of `executeBulkTeleports`. -/
structure BulkTeleports where
  source : MeshNode
  destination : MeshNode
  nonce : Nat
deriving DecidableEq, Repr

/-- A signed `teleport` or `teleportAtomic` of one unit. -/
structure RawTeleport where
  source : MeshNode
  destination : MeshNode
  nonce : Nat
deriving DecidableEq, Repr

/-- The loop over the destinations, with the variable `nonce`. -/
def bulksFrom (performanceTxCount : Nat) (source : MeshNode) :
    Nat → List MeshNode → List BulkTeleports
  | _, [] => []
  | nonce, destination :: rest =>
      ⟨source, destination, nonce⟩ ::
        bulksFrom performanceTxCount source (nonce + performanceTxCount) rest

/-- The loop of `transferTokensInBulk`. -/
def BulkTeleports.signed (txCount : Nat) (bulk : BulkTeleports) : List RawTeleport :=
  (List.range txCount).map fun i => ⟨bulk.source, bulk.destination, bulk.nonce + i⟩

section Everyone

variable (getNonce : MeshNode → Nat) (performanceTxCount : Nat)

def meshBulks (participants : List MeshNode) : List BulkTeleports :=
  (everyoneToAllParticipants participants).flatMap fun call =>
    bulksFrom performanceTxCount call.1 (getNonce call.1) call.2

def meshTeleports (participants : List MeshNode) : List RawTeleport :=
  (meshBulks getNonce performanceTxCount participants).flatMap
    (BulkTeleports.signed performanceTxCount)

end Everyone

/-- The tokens and wallets of the participants. -/
structure MeshTokens where
  getSingleTokenResourceId : MeshNode → String
  userWallet : MeshNode → String

namespace MeshTokens

variable (tokens : MeshTokens)

/-- The transfer that a bulk waits for. -/
def finalTx (performanceTxCount : Nat) (bulk : BulkTeleports) : TokenSendTx where
  source := bulk.source
  destination := bulk.destination
  to_ := tokens.userWallet bulk.destination
  value := performanceTxCount * 1
  resourceId := tokens.getSingleTokenResourceId bulk.source

def weighing : Weighing RawTeleport BalanceKey where
  key raw := ⟨raw.destination.chainId, tokens.getSingleTokenResourceId raw.source,
    tokens.userWallet raw.destination⟩
  amount _ := 1

/-- The participants differ in their names, their chains and their tokens. -/
structure Distinct (participants : List MeshNode) : Prop where
  nodes : (participants.map MeshNode.node).Nodup
  chains : (participants.map MeshNode.chainId).Nodup
  resources : (participants.map tokens.getSingleTokenResourceId).Nodup

end MeshTokens

section Bulks

variable {performanceTxCount : Nat} {source : MeshNode}

/-- The bulks of a source take the nonces from its first one on, in a row. -/
theorem bulksFrom_nonces (nonce : Nat) (destinations : List MeshNode) :
    ((bulksFrom performanceTxCount source nonce destinations).flatMap
        (BulkTeleports.signed performanceTxCount)).map (fun raw => (raw.source, raw.nonce)) =
      (List.range' nonce (destinations.length * performanceTxCount)).map (source, ·) := by
  induction destinations generalizing nonce with
  | nil => simp [bulksFrom]
  | cons first rest ih =>
      have hsigned : (BulkTeleports.signed performanceTxCount ⟨source, first, nonce⟩).map
          (fun raw => (raw.source, raw.nonce)) =
            (List.range' nonce performanceTxCount).map (source, ·) := by
        simp [BulkTeleports.signed, Function.comp_def, List.range'_eq_map_range]
      rw [bulksFrom, List.flatMap_cons, List.map_append, hsigned, ih, List.length_cons,
        ← List.map_append, Nat.succ_mul, Nat.add_comm (rest.length * performanceTxCount),
        List.range'_append_1]

theorem bulksFrom_pairs (nonce : Nat) (destinations : List MeshNode) :
    (bulksFrom performanceTxCount source nonce destinations).map
        (fun bulk => (bulk.source, bulk.destination)) =
      destinations.map fun destination => (source, destination) := by
  induction destinations generalizing nonce with
  | nil => rfl
  | cons first rest ih => rw [bulksFrom, List.map_cons, List.map_cons, ih]

end Bulks

section Mesh

variable {tokens : MeshTokens} {participants : List MeshNode} {source destination : MeshNode}

theorem MeshTokens.Distinct.length_destinations (hdistinct : tokens.Distinct participants)
    (hsource : source ∈ participants) :
    (participants.filter fun x => x.node ≠ source.node).length = participants.length - 1 := by
  have hone : participants.countP (fun x => x.node = source.node) = 1 := by
    have hcount := List.count_eq_one_of_mem hdistinct.nodes (List.mem_map_of_mem hsource)
    rw [List.count, List.countP_map] at hcount
    rw [← hcount]
    exact List.countP_congr fun x _ => by simp
  have hsplit := List.length_eq_countP_add_countP
    (fun x : MeshNode => decide (x.node = source.node)) (l := participants)
  rw [hone] at hsplit
  rw [← List.countP_eq_length_filter]
  simp only [decide_not, decide_eq_true_eq] at hsplit ⊢
  omega

/-- Each participant signs with the nonces from the one on that `getNonce()` reads, each of them
once. -/
theorem meshTeleports_nonces (hdistinct : tokens.Distinct participants)
    (getNonce : MeshNode → Nat) (performanceTxCount : Nat) :
    (meshTeleports getNonce performanceTxCount participants).map
        (fun raw => (raw.source, raw.nonce)) =
      participants.flatMap fun source => (List.range' (getNonce source)
        ((participants.length - 1) * performanceTxCount)).map (source, ·) := by
  rw [meshTeleports, meshBulks, everyoneToAllParticipants, List.flatMap_map, List.flatMap_assoc,
    List.map_flatMap]
  refine List.flatMap_congr fun source hsource => ?_
  rw [bulksFrom_nonces, hdistinct.length_destinations hsource]

/-- The pairs that the bulks connect. -/
theorem mem_meshBulks {getNonce : MeshNode → Nat} {performanceTxCount : Nat}
    {bulk : BulkTeleports} (hbulk : bulk ∈ meshBulks getNonce performanceTxCount participants) :
    bulk.source ∈ participants ∧ bulk.destination ∈ participants := by
  obtain ⟨call, hcall, hmem⟩ := List.mem_flatMap.mp hbulk
  obtain ⟨source, hsource, rfl⟩ := List.mem_map.mp hcall
  have hpair : (bulk.source, bulk.destination) ∈
      (participants.filter fun x => x.node ≠ source.node).map fun destination =>
        (source, destination) := by
    rw [← bulksFrom_pairs (getNonce source)]
    exact List.mem_map_of_mem hmem
  obtain ⟨destination, hdestination, heq⟩ := List.mem_map.mp hpair
  obtain ⟨hfrom, hto⟩ := Prod.mk.inj heq
  rw [← hfrom, ← hto]
  exact ⟨hsource, List.mem_of_mem_filter hdestination⟩

/-- No ordered pair of participants is sent to twice. -/
theorem meshBulks_nodup (hdistinct : tokens.Distinct participants) (getNonce : MeshNode → Nat)
    (performanceTxCount : Nat) : ((meshBulks getNonce performanceTxCount participants).map
      fun bulk => (bulk.source, bulk.destination)).Nodup := by
  have hpairs : (meshBulks getNonce performanceTxCount participants).map
      (fun bulk => (bulk.source, bulk.destination)) = participants.flatMap fun source =>
        (participants.filter fun x => x.node ≠ source.node).map fun destination =>
          (source, destination) := by
    rw [meshBulks, everyoneToAllParticipants, List.flatMap_map, List.map_flatMap]
    exact List.flatMap_congr fun source _ => bulksFrom_pairs _ _
  have hnodup := List.Nodup.of_map _ hdistinct.nodes
  rw [hpairs, List.nodup_flatMap]
  constructor
  · intro source _
    exact (hnodup.filter _).map fun first second heq => (Prod.mk.inj heq).2
  · refine hnodup.imp fun hne => ?_
    intro pair hfirst hsecond
    obtain ⟨_, _, rfl⟩ := List.mem_map.mp hfirst
    obtain ⟨_, _, heq⟩ := List.mem_map.mp hsecond
    exact hne (Prod.mk.inj heq).1.symm

/-- No two bulks wait for one balance. -/
theorem MeshTokens.Distinct.groups (hdistinct : tokens.Distinct participants)
    (getNonce : MeshNode → Nat) (performanceTxCount : Nat) :
    Groups tokens.weighing
      ⟨fun bulk => (tokens.finalTx performanceTxCount bulk).balanceKey,
        fun bulk => (tokens.finalTx performanceTxCount bulk).value⟩
      (meshTeleports getNonce performanceTxCount participants)
      (meshBulks getNonce performanceTxCount participants) := by
  refine Groups.flatMap ?_ ?_ ?_
  · have hpairs := meshBulks_nodup hdistinct getNonce performanceTxCount
    have hbulks := List.Nodup.of_map _ hpairs
    refine (List.nodup_map_iff_inj_on hbulks).mpr fun first hfirst second hsecond heq => ?_
    obtain ⟨hchain, hresource, _⟩ := BalanceKey.mk.inj heq
    refine List.inj_on_of_nodup_map hpairs hfirst hsecond (Prod.ext ?_ ?_)
    · exact List.inj_on_of_nodup_map hdistinct.resources (mem_meshBulks hfirst).1
        (mem_meshBulks hsecond).1 hresource
    · exact List.inj_on_of_nodup_map hdistinct.chains (mem_meshBulks hfirst).2
        (mem_meshBulks hsecond).2 hchain
  · intro bulk raw hraw
    obtain ⟨i, _, rfl⟩ := List.mem_map.mp hraw
    rfl
  · intro bulk
    simp [BulkTeleports.signed, MeshTokens.weighing, MeshTokens.finalTx, Function.comp_def]

end Mesh

/-- Everyone to everyone: each participant's transactions carry the nonces from its latest one on,
each of them once; and whatever the order in which they arrive, no receiver's balance goes beyond
the one that is waited for, and all the waits are met exactly when all have arrived. -/
theorem everyoneToEveryone_transferred {tokens : MeshTokens} {participants : List MeshNode}
    (hdistinct : tokens.Distinct participants) (getNonce : MeshNode → Nat)
    (performanceTxCount : Nat) (receiverBalanceBefore : BalanceKey → Nat) :
    (meshTeleports getNonce performanceTxCount participants).map
        (fun raw => (raw.source, raw.nonce)) =
      participants.flatMap (fun source => (List.range' (getNonce source)
        ((participants.length - 1) * performanceTxCount)).map (source, ·)) ∧
      ∀ state : Deliveries RawTeleport, delivering.Reaches
          ⟨[], meshTeleports getNonce performanceTxCount participants⟩ state →
        let balances := balancesAfter tokens.weighing receiverBalanceBefore state.delivered
        let waits := (meshBulks getNonce performanceTxCount participants).map
          (tokens.finalTx performanceTxCount)
        (∀ tx ∈ waits, balances tx.balanceKey ≤ receiverBalanceBefore tx.balanceKey + tx.value) ∧
          ((∀ tx ∈ waits, Transferred receiverBalanceBefore balances tx) ↔ state.pending = []) := by
  refine ⟨meshTeleports_nonces hdistinct getNonce performanceTxCount, fun state hreach => ?_⟩
  have hgroups := hdistinct.groups getNonce performanceTxCount
  refine ⟨List.forall_mem_map.mpr fun bulk hbulk =>
    Nat.add_le_add_left (hgroups.delivered_le hreach hbulk) _, ?_⟩
  rw [List.forall_mem_map]
  refine ((forall₂_congr fun bulk _ => Nat.add_left_cancel_iff).trans
    (hgroups.complete_iff hreach)).trans ?_
  rw [List.eq_nil_iff_forall_not_mem]
  exact forall₂_congr fun raw _ => iff_false_intro Nat.one_ne_zero

/-- One transaction to each of two others, of which two have arrived: some wait is not met. -/
theorem everyoneToEveryone_transferred_three :
    let participants : List MeshNode := [⟨"A", "1"⟩, ⟨"B", "2"⟩, ⟨"C", "3"⟩]
    let tokens : MeshTokens := ⟨MeshNode.node, MeshNode.chainId⟩
    ∃ state : Deliveries RawTeleport, state.delivered.length = 2 ∧
      ¬∀ tx ∈ (meshBulks (fun _ => 7) 1 participants).map (tokens.finalTx 1),
        Transferred (fun _ => 0) (balancesAfter tokens.weighing (fun _ => 0) state.delivered)
          tx := by
  intro participants tokens
  have hdistinct : tokens.Distinct participants := by
    constructor <;> decide
  obtain ⟨state, hrun, harrived, hleft⟩ : ∃ state, delivering.run
      ⟨[], meshTeleports (fun _ => 7) 1 participants⟩ [1, 0] = some state ∧
        state.delivered.length = 2 ∧ state.pending.length = 4 :=
    ⟨_, rfl, rfl, rfl⟩
  refine ⟨state, harrived, ?_⟩
  intro hwaits
  have hempty := ((everyoneToEveryone_transferred hdistinct (fun _ => 7) 1 fun _ => 0).2
    state ⟨_, hrun⟩).2.mp hwaits
  rw [hempty] at hleft
  cases hleft

end RaylsSuite.Performance
