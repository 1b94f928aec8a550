import RaylsSuite.Common.PollingLaw

/-! # Who holds a minted token of an ERC1155

The hub does not say who holds the supply of an nft. `waitForPNHMintRelay` takes
the recipients of the transfers in a window of blocks, the latest first, and
settles for the first of them whose balance covers the expected amount.
-/

namespace RaylsSuite.Tokens

open Common Config Entities Foundation

/-! ## The hub -/

/-- The arguments of a `TransferSingle` event that the wait reads; `recipient` is its `to`. -/
structure TransferSingle where
  id : Int
  recipient : String
deriving DecidableEq, Repr

/-- What `queryFilter` gives for a log, which it may be unable to decode. -/
inductive HubLog where
  | undecoded
  | eventLog (args : TransferSingle)
deriving DecidableEq, Repr

/-- The hub's contract of the token and its provider. -/
structure Erc1155Hub (σ : Type) where
  vaultAddress : Async σ JsError String
  getBlockNumber : Async σ JsError Nat
  queryFilter : Nat → Nat → Async σ JsError (List HubLog)
  balanceOf : String → Int → Async σ JsError Int

/-- `ZeroAddress.toLowerCase()`. -/
def zero : String := Text.toLowerCase ZERO_ADDRESS

/-! ## The wait -/

/-- The loop over the events, from the last one on. -/
def scanCandidates (nftId : Int) (vaultAddr : String) : List String → List HubLog → List String
  | _, [] => []
  | seen, .undecoded :: rest => scanCandidates nftId vaultAddr seen rest
  | seen, .eventLog args :: rest =>
      if args.id ≠ nftId then scanCandidates nftId vaultAddr seen rest
      else
        let toLower := Text.toLowerCase args.recipient
        if toLower = zero ∨ toLower = vaultAddr then scanCandidates nftId vaultAddr seen rest
        else if toLower ∈ seen then scanCandidates nftId vaultAddr seen rest
        else args.recipient :: scanCandidates nftId vaultAddr (toLower :: seen) rest

def candidates (nftId : Int) (vaultAddr : String) (events : List HubLog) : List String :=
  scanCandidates nftId vaultAddr [] events.reverse

variable {σ : Type}

/-- The loop over the candidates, up to the first whose balance covers the amount. -/
def firstCovering (hub : Erc1155Hub σ) (nftId expectedAmount : Int) :
    List String → Async σ JsError (Option String)
  | [] => fun world => (.ok none, world)
  | candidate :: rest => fun world =>
      match hub.balanceOf candidate nftId world with
      | (.error err, world) => (.error err, world)
      | (.ok bal, world) =>
          if expectedAmount ≤ bal then (.ok (some candidate), world)
          else firstCovering hub nftId expectedAmount rest world

/-- The world of the wait with its variable `owner`. -/
structure Relayed (σ : Type) where
  world : σ
  owner : String

instance [Host σ] : Host (Relayed σ) where
  delay ms relayed := { relayed with world := Host.delay ms relayed.world }
  logger relayed := Host.logger relayed.world
  setLogger logger relayed := { relayed with world := Host.setLogger logger relayed.world }

def mintRelayCheck (hub : Erc1155Hub σ) (nftId expectedAmount : Int) (vaultAddr : String)
    (fromBlock : Nat) : Async (Relayed σ) JsError Bool := fun relayed =>
  match hub.getBlockNumber relayed.world with
  | (.error err, world) => (.error err, { relayed with world })
  | (.ok tip, world) =>
      match hub.queryFilter fromBlock tip world with
      | (.error err, world) => (.error err, { relayed with world })
      | (.ok events, world) =>
          match firstCovering hub nftId expectedAmount (candidates nftId vaultAddr events)
              world with
          | (.error err, world) => (.error err, { relayed with world })
          | (.ok none, world) => (.ok false, { relayed with world })
          | (.ok (some owner), world) => (.ok true, ⟨world, owner⟩)

def mintRelayPoll (hub : Erc1155Hub σ) (nftId expectedAmount : Int) (vaultAddr : String)
    (fromBlock : Nat) : PollOptions (Relayed σ) JsError Bool :=
  { check := mintRelayCheck hub nftId expectedAmount vaultAddr fromBlock }

/-- Below the range of logs that the hub's node answers. -/
def lookback : Nat := 4000

def waitForPNHMintRelay [Host σ] (PARALLEL_WORKERS : Option String) (symbol : String)
    (hub : Erc1155Hub σ) (nftId expectedAmount : Int) : Async σ JsError String := fun world =>
  match hub.getBlockNumber world with
  | (.error err, world) => (.error err, world)
  | (.ok tipAtCall, world) =>
      match hub.vaultAddress world with
      | (.error err, world) => (.error err, world)
      | (.ok vault, world) =>
          match eventually PARALLEL_WORKERS
              (mintRelayPoll hub nftId expectedAmount (Text.toLowerCase vault)
                (tipAtCall - lookback))
              s!"Waiting for CC {symbol} mint relay #{nftId}" ⟨world, ""⟩ with
          | (.error err, relayed) => (.error err, relayed.world)
          | (.ok _, relayed) => (.ok relayed.owner, relayed.world)

/-! ## What the hub shows -/

/-- The state of the hub at a poll. Its balances are those of addresses, whatever the case of
their letters: the map is read at lower-case ones. -/
structure HubView where
  tip : Nat
  logs : Nat → Nat → List HubLog
  balance : String → Int → Int

/-- A hub that shows the next view at each reading of its tip, and keeps to it until the next
reading. Neither its vault nor the wait's delays change what it shows. -/
structure Shows [Host σ] (hub : Erc1155Hub σ) (vault : String) (readings : σ → Nat)
    (views : Nat → HubView) : Prop where
  tip : ∀ world, ∃ after, hub.getBlockNumber world = (.ok (views (readings world)).tip, after) ∧
    readings after = readings world + 1
  vaultAddress : ∀ world, ∃ after, hub.vaultAddress world = (.ok vault, after) ∧
    readings after = readings world
  logs : ∀ fromBlock tip reading world, readings world = reading + 1 → ∃ after,
    hub.queryFilter fromBlock tip world = (.ok ((views reading).logs fromBlock tip), after) ∧
      readings after = readings world
  balance : ∀ address nftId reading world, readings world = reading + 1 → ∃ after,
    hub.balanceOf address nftId world =
        (.ok ((views reading).balance (Text.toLowerCase address) nftId), after) ∧
      readings after = readings world
  delayed : ∀ ms world, readings (Host.delay ms world) = readings world
  logged : ∀ logger world, readings (Host.setLogger logger world) = readings world

/-- A request for the holder of an nft, and what the poll sees of the hub. -/
structure HolderQuery where
  nftId : Int
  expectedAmount : Int
  vaultAddr : String
  window : List HubLog
  balance : String → Int → Int

namespace HolderQuery

variable (query : HolderQuery)

/-- The log credits the address, in lower case, with the nft. -/
def Credits (address : String) (log : HubLog) : Prop :=
  ∃ args, log = .eventLog args ∧ args.id = query.nftId ∧ Text.toLowerCase args.recipient = address

/-- A recipient of the nft in the window that may be its holder. -/
structure Eligible (address : String) : Prop where
  credited : ∃ log ∈ query.window, query.Credits address log
  ne_zero : address ≠ zero
  ne_vault : address ≠ query.vaultAddr
  covers : query.expectedAmount ≤ query.balance address query.nftId

/-- The last log of the window that credits the address stands at this position. -/
def LastCredit (address : String) (position : Nat) : Prop :=
  (∃ log, query.window[position]? = some log ∧ query.Credits address log) ∧
    ∀ later, position < later → ∀ log, query.window[later]? = some log →
      ¬query.Credits address log

/-- The eligible recipient whose last credit comes last, spelled as in that credit. -/
structure LatestHolder (owner : String) : Prop where
  eligible : query.Eligible (Text.toLowerCase owner)
  latest : ∃ position args, query.window[position]? = some (.eventLog args) ∧
    args.recipient = owner ∧ query.LastCredit (Text.toLowerCase owner) position ∧
    ∀ address, query.Eligible address → address ≠ Text.toLowerCase owner →
      ∀ other, query.LastCredit address other → other < position

/-! ## The scan and the probes -/

def covers (recipient : String) : Bool :=
  decide (query.expectedAmount ≤ query.balance (Text.toLowerCase recipient) query.nftId)

/-- The holder that the poll finds. -/
def holder : Option String :=
  (candidates query.nftId query.vaultAddr query.window).find? query.covers

/-- The recipient of a log, if it is eligible. -/
def eligibleRecipient : HubLog → Option String
  | .undecoded => none
  | .eventLog args =>
      if args.id = query.nftId ∧ Text.toLowerCase args.recipient ≠ zero ∧
          Text.toLowerCase args.recipient ≠ query.vaultAddr ∧
          query.covers args.recipient = true then
        some args.recipient
      else none

variable {query}

/-- A recipient that was seen before has been found short already, so leaving it out changes
nothing. -/
theorem find_scanCandidates (logs : List HubLog) {seen : List String}
    (hseen : ∀ recipient, Text.toLowerCase recipient ∈ seen → query.covers recipient = false) :
    (scanCandidates query.nftId query.vaultAddr seen logs).find? query.covers =
      logs.findSome? query.eligibleRecipient := by
  induction logs generalizing seen with
  | nil => rfl
  | cons log rest ih =>
      cases log with
      | undecoded =>
          rw [scanCandidates, ih hseen]
          rfl
      | eventLog args =>
          rw [scanCandidates, List.findSome?_cons, eligibleRecipient]
          by_cases hid : args.id = query.nftId
          · by_cases hskipped : Text.toLowerCase args.recipient = zero ∨
                Text.toLowerCase args.recipient = query.vaultAddr
            · simp only [hid, ne_eq, not_true_eq_false, if_false, hskipped, if_true, ih hseen]
              rw [if_neg fun hall => hskipped.elim hall.2.1 hall.2.2.1]
            · simp only [hid, ne_eq, not_true_eq_false, if_false, hskipped]
              rw [not_or] at hskipped
              by_cases hmem : Text.toLowerCase args.recipient ∈ seen
              · simp [hmem, hseen _ hmem, ih hseen]
              · rw [if_neg hmem, List.find?_cons]
                cases hcovers : query.covers args.recipient with
                | true => simp [hskipped]
                | false =>
                    -- the next ones of this address are short as well
                    have hshort : ∀ recipient, Text.toLowerCase recipient ∈
                        Text.toLowerCase args.recipient :: seen →
                          query.covers recipient = false := by
                      intro recipient hrecipient
                      rcases List.mem_cons.mp hrecipient with heq | hold
                      · rw [covers, heq]
                        exact hcovers
                      · exact hseen recipient hold
                    simp [ih hshort]
          · simp [hid, ih hseen]

theorem holder_eq : query.holder = query.window.reverse.findSome? query.eligibleRecipient :=
  find_scanCandidates query.window.reverse fun _ hmem => absurd hmem List.not_mem_nil

theorem eligibleRecipient_eq_some {log : HubLog} {recipient : String} :
    query.eligibleRecipient log = some recipient ↔
      (∃ args, log = .eventLog args ∧ args.id = query.nftId ∧ args.recipient = recipient) ∧
        Text.toLowerCase recipient ≠ zero ∧ Text.toLowerCase recipient ≠ query.vaultAddr ∧
        query.expectedAmount ≤ query.balance (Text.toLowerCase recipient) query.nftId := by
  cases log with
  | undecoded => simp [eligibleRecipient]
  | eventLog args =>
      simp only [eligibleRecipient, covers, decide_eq_true_eq, Option.ite_none_right_eq_some,
        Option.some.injEq, HubLog.eventLog.injEq]
      constructor
      · rintro ⟨⟨hid, hzero, hvault, hcovers⟩, rfl⟩
        exact ⟨⟨args, rfl, hid, rfl⟩, hzero, hvault, hcovers⟩
      · rintro ⟨⟨found, rfl, hid, rfl⟩, hzero, hvault, hcovers⟩
        exact ⟨⟨hid, hzero, hvault, hcovers⟩, rfl⟩

/-- A credit to an eligible address is one that the scan stops at. -/
theorem Eligible.recipient {address : String} (heligible : query.Eligible address) {log : HubLog}
    (hcredits : query.Credits address log) :
    ∃ recipient, query.eligibleRecipient log = some recipient ∧
      Text.toLowerCase recipient = address := by
  obtain ⟨args, rfl, hid, rfl⟩ := hcredits
  exact ⟨args.recipient, eligibleRecipient_eq_some.mpr ⟨⟨args, rfl, hid, rfl⟩, heligible.ne_zero,
    heligible.ne_vault, heligible.covers⟩, rfl⟩

/-- The poll finds a holder exactly if some recipient is eligible. -/
theorem holder_isSome_iff : query.holder.isSome = true ↔ ∃ address, query.Eligible address := by
  rw [holder_eq, List.findSome?_isSome_iff]
  simp only [List.mem_reverse, Option.isSome_iff_exists, eligibleRecipient_eq_some]
  constructor
  · rintro ⟨log, hmem, recipient, ⟨args, rfl, hid, rfl⟩, hzero, hvault, hcovers⟩
    exact ⟨_, ⟨_, hmem, args, rfl, hid, rfl⟩, hzero, hvault, hcovers⟩
  · rintro ⟨address, ⟨log, hmem, args, rfl, hid, rfl⟩, hzero, hvault, hcovers⟩
    exact ⟨_, hmem, _, ⟨args, rfl, hid, rfl⟩, hzero, hvault, hcovers⟩

/-- The holder is the eligible recipient that was credited last. -/
theorem latestHolder_of_holder {owner : String} (hholder : query.holder = some owner) :
    query.LatestHolder owner := by
  rw [holder_eq, List.findSome?_eq_some_iff] at hholder
  obtain ⟨later, log, earlier, hsplit, hlog, hnone⟩ := hholder
  obtain ⟨⟨args, rfl, hid, rfl⟩, hzero, hvault, hcovers⟩ := eligibleRecipient_eq_some.mp hlog
  have hwindow : query.window = earlier.reverse ++ HubLog.eventLog args :: later.reverse := by
    rw [← List.reverse_reverse query.window, hsplit]
    simp
  have hat : query.window[earlier.length]? = some (HubLog.eventLog args) := by
    rw [hwindow, List.getElem?_append_right (by simp)]
    simp
  have hcredits : query.Credits (Text.toLowerCase args.recipient) (.eventLog args) :=
    ⟨args, rfl, hid, rfl⟩
  have heligible : query.Eligible (Text.toLowerCase args.recipient) :=
    ⟨⟨_, List.mem_of_getElem? hat, hcredits⟩, hzero, hvault, hcovers⟩
  -- no log behind this one credits an eligible address
  have hlast : ∀ address, query.Eligible address → ∀ position, earlier.length < position →
      ∀ found, query.window[position]? = some found → ¬query.Credits address found := by
    intro address haddress position hposition found hfound hfoundCredits
    rw [hwindow, List.getElem?_append_right (by simpa using hposition.le), List.length_reverse]
      at hfound
    obtain ⟨offset, rfl⟩ := Nat.exists_eq_add_of_lt hposition
    rw [show earlier.length + offset + 1 - earlier.length = offset + 1 by omega,
      List.getElem?_cons_succ] at hfound
    obtain ⟨recipient, hrecipient, -⟩ := haddress.recipient hfoundCredits
    rw [hnone found (by simpa using List.mem_of_getElem? hfound)] at hrecipient
    cases hrecipient
  refine ⟨heligible, earlier.length, args, hat, rfl, ⟨⟨_, hat, hcredits⟩, hlast _ heligible⟩, ?_⟩
  intro address haddress hne other hother
  obtain ⟨⟨found, hfound, hfoundCredits⟩, -⟩ := hother
  by_contra hlt
  rcases Nat.lt_or_eq_of_le (Nat.le_of_not_lt hlt) with hbehind | rfl
  · exact hlast address haddress other hbehind found hfound hfoundCredits
  · obtain rfl := Option.some.inj (hat.symm.trans hfound)
    obtain ⟨same, heq, -, hlower⟩ := hfoundCredits
    cases heq
    exact hne hlower.symm

end HolderQuery

/-! ## A poll, and the wait -/

/-- What a poll asks of the hub that it sees. -/
def HubView.query (view : HubView) (nftId expectedAmount : Int) (vaultAddr : String)
    (fromBlock : Nat) : HolderQuery :=
  ⟨nftId, expectedAmount, vaultAddr, view.logs fromBlock view.tip, view.balance⟩

section Poll

variable [Host σ] {hub : Erc1155Hub σ} {vault : String} {readings : σ → Nat}
  {views : Nat → HubView} {nftId expectedAmount : Int} {vaultAddr : String} {fromBlock : Nat}

/-- `firstCovering` answers the first recipient whose balance covers the amount in the current
view. -/
theorem firstCovering_spec (hshows : Shows hub vault readings views) {reading : Nat}
    (query : HolderQuery) (hbalance : (views reading).balance = query.balance)
    (recipients : List String) (world : σ) (hreading : readings world = reading + 1) :
    ∃ after, firstCovering hub query.nftId query.expectedAmount recipients world =
      (.ok (recipients.find? query.covers), after) ∧ readings after = reading + 1 := by
  induction recipients generalizing world with
  | nil => exact ⟨world, rfl, hreading⟩
  | cons candidate rest ih =>
      obtain ⟨after, hread, hkept⟩ := hshows.balance candidate query.nftId reading world hreading
      obtain ⟨final, hrest, hfinal⟩ := ih after (hkept.trans hreading)
      rw [hbalance] at hread
      by_cases hcovers : query.expectedAmount ≤
          query.balance (Text.toLowerCase candidate) query.nftId
      · exact ⟨after, by simp [firstCovering, hread, HolderQuery.covers, hcovers],
          hkept.trans hreading⟩
      · exact ⟨final, by simp [firstCovering, hread, HolderQuery.covers, hcovers, hrest], hfinal⟩

/-- A poll succeeds if it finds a holder in the view that it reads, and makes it the owner. -/
theorem mintRelayCheck_spec (hshows : Shows hub vault readings views) (relayed : Relayed σ)
    {query : HolderQuery}
    (hquery : (views (readings relayed.world)).query nftId expectedAmount vaultAddr fromBlock =
      query) :
    ∃ after, mintRelayCheck hub nftId expectedAmount vaultAddr fromBlock relayed =
        (.ok query.holder.isSome, ⟨after, query.holder.getD relayed.owner⟩) ∧
      readings after = readings relayed.world + 1 := by
  subst hquery
  generalize hreading : readings relayed.world = reading
  obtain ⟨middle, htip, hmiddle⟩ := hshows.tip relayed.world
  rw [hreading] at htip hmiddle
  obtain ⟨last, hlogs, hlast⟩ := hshows.logs fromBlock (views reading).tip reading middle hmiddle
  obtain ⟨after, hprobe, hafter⟩ := firstCovering_spec hshows
    ((views reading).query nftId expectedAmount vaultAddr fromBlock) rfl
    (candidates nftId vaultAddr ((views reading).logs fromBlock (views reading).tip)) last
    (hlast.trans hmiddle)
  refine ⟨after, ?_, hafter⟩
  simp only [mintRelayCheck, htip, hlogs]
  simp only [HubView.query, HolderQuery.holder] at hprobe ⊢
  rw [hprobe]
  cases (candidates nftId vaultAddr
    ((views reading).logs fromBlock (views reading).tip)).find? _ <;> rfl

/-- A poll succeeds exactly if some recipient is eligible, and finds the one credited last. -/
theorem mintRelayCheck_latestHolder (hshows : Shows hub vault readings views)
    {before after : Relayed σ} {outcome : Except JsError Bool} {query : HolderQuery}
    (hquery : (views (readings before.world)).query nftId expectedAmount vaultAddr fromBlock =
      query)
    (hsettled : mintRelayCheck hub nftId expectedAmount vaultAddr fromBlock before =
      (outcome, after)) :
    (outcome = .ok true ↔ ∃ address, query.Eligible address) ∧
      (outcome = .ok true → query.LatestHolder after.owner) := by
  rw [← HolderQuery.holder_isSome_iff]
  obtain ⟨world, hcheck, _⟩ := mintRelayCheck_spec hshows before hquery
  obtain ⟨rfl, rfl⟩ := Prod.mk.inj (hcheck.symm.trans hsettled)
  refine ⟨⟨Except.ok.inj, congrArg Except.ok⟩, fun hfound => ?_⟩
  obtain ⟨owner, howner⟩ := Option.isSome_iff_exists.mp (Except.ok.inj hfound)
  simp only [howner, Option.getD_some]
  exact HolderQuery.latestHolder_of_holder howner

end Poll

/-- How the wait ends, whose polls ask these queries in turn: with the owner that its first
successful poll finds, or with an error when none of them succeeds. -/
structure RelayLaw (queries : Nat → HolderQuery) (attempts : Nat) (polls : Nat)
    (result : Except JsError String) : Prop where
  resolves : ∀ i < attempts, (∃ address, (queries i).Eligible address) →
    (∀ j < i, ∀ address, ¬(queries j).Eligible address) →
    polls = i + 1 ∧ ∃ owner, result = .ok owner ∧ (queries i).LatestHolder owner
  rejects : (∀ i < attempts, ∀ address, ¬(queries i).Eligible address) →
    polls = attempts ∧ ∃ err, result = .error err

/-- For every log and every balance map that the hub shows at each poll: a poll succeeds exactly
if some recipient is eligible, and then its owner is the one credited last. The wait polls until
a poll succeeds, returns the owner of that poll, and throws when its attempts are used up. -/
theorem waitForPNHMintRelay_latestHolder [Host σ] (hub : Erc1155Hub σ) (vault : String)
    (readings : σ → Nat) (views : Nat → HubView) (hshows : Shows hub vault readings views)
    (nftId expectedAmount : Int) :
    (∀ (vaultAddr : String) (fromBlock : Nat) (before after : Relayed σ)
        (outcome : Except JsError Bool),
      mintRelayCheck hub nftId expectedAmount vaultAddr fromBlock before = (outcome, after) →
      (outcome = .ok true ↔ ∃ address, ((views (readings before.world)).query nftId
        expectedAmount vaultAddr fromBlock).Eligible address) ∧
      (outcome = .ok true → ((views (readings before.world)).query nftId expectedAmount vaultAddr
        fromBlock).LatestHolder after.owner)) ∧
    ∀ (PARALLEL_WORKERS : Option String) (symbol : String) (world final : σ)
        (result : Except JsError String),
      waitForPNHMintRelay PARALLEL_WORKERS symbol hub nftId expectedAmount world =
        (result, final) →
      RelayLaw (fun i => (views (readings world + 1 + i)).query nftId expectedAmount
          (Text.toLowerCase vault) ((views (readings world)).tip - lookback))
        (DEFAULT_TIMEOUT PARALLEL_WORKERS / SECOND)
        (readings final - (readings world + 1)) result := by
  constructor
  · intro vaultAddr fromBlock before after outcome hsettled
    exact mintRelayCheck_latestHolder hshows rfl hsettled
  · intro PARALLEL_WORKERS symbol world final result hsettled
    generalize hqueries : (fun i => (views (readings world + 1 + i)).query nftId expectedAmount
      (Text.toLowerCase vault) ((views (readings world)).tip - lookback)) = queries
    obtain ⟨middle, htip, hmiddle⟩ := hshows.tip world
    obtain ⟨last, hvault, hlast⟩ := hshows.vaultAddress middle
    simp only [waitForPNHMintRelay, htip, hvault] at hsettled
    have hquery : ∀ i (relayed : Relayed σ), readings relayed.world = readings world + 1 + i →
        (views (readings relayed.world)).query nftId expectedAmount (Text.toLowerCase vault)
          ((views (readings world)).tip - lookback) = queries i := by
      intro i relayed hreading
      rw [hreading, ← hqueries]
    -- before its `i`-th poll the wait has seen no recipient that is eligible
    have hwaiting : Waiting
        (mintRelayPoll hub nftId expectedAmount (Text.toLowerCase vault)
          ((views (readings world)).tip - lookback))
        fun i (relayed : Relayed σ) => readings relayed.world = readings world + 1 + i ∧
          ∀ j < i, ∀ address, ¬(queries j).Eligible address := by
      constructor
      · intro i relayed hbefore hundecided
        obtain ⟨hreading, hnone⟩ := hbefore
        obtain ⟨after, hcheck, hafter⟩ := mintRelayCheck_spec hshows relayed
          (hquery i relayed hreading)
        simp only [mintRelayPoll, hcheck] at hundecided ⊢
        refine ⟨by rw [hafter, hreading, Nat.add_assoc], ?_⟩
        intro j hj address heligible
        rcases Nat.lt_or_eq_of_le (Nat.le_of_lt_succ hj) with hearlier | rfl
        · exact hnone j hearlier address heligible
        · have hfound := HolderQuery.holder_isSome_iff.mpr ⟨address, heligible⟩
          rw [hfound] at hundecided
          cases hundecided
      · intro i relayed ms hbefore
        exact ⟨(hshows.delayed ms relayed.world).trans hbefore.1, hbefore.2⟩
    have hawaited := eventually_awaited PARALLEL_WORKERS hwaiting
      (fun relayed logger hbefore =>
        ⟨(hshows.logged logger relayed.world).trans hbefore.1, hbefore.2⟩)
      s!"Waiting for CC {symbol} mint relay #{nftId}" ⟨last, ""⟩
      ⟨hlast.trans hmiddle, fun j hj => absurd hj (Nat.not_lt_zero j)⟩
    generalize eventually PARALLEL_WORKERS (mintRelayPoll hub nftId expectedAmount
      (Text.toLowerCase vault) ((views (readings world)).tip - lookback)) _ _ = settled
      at hawaited hsettled
    cases hawaited with
    | @resolved i before after value logger hlt hbefore hcheck htruthy =>
        obtain rfl : value = true := htruthy
        obtain ⟨rfl, rfl⟩ := Prod.mk.inj hsettled
        have hpoll := mintRelayCheck_latestHolder hshows (hquery i before hbefore.1) hcheck
        obtain ⟨address, heligible⟩ := hpoll.1.mp rfl
        obtain ⟨polled, hspec, hreading⟩ := mintRelayCheck_spec hshows before
          (hquery i before hbefore.1)
        obtain ⟨_, rfl⟩ := Prod.mk.inj (hspec.symm.trans hcheck)
        have hpolls : readings (Host.setLogger logger polled) - (readings world + 1) = i + 1 := by
          rw [hshows.logged, hreading, hbefore.1]
          omega
        constructor
        · intro j hj hfound hnone
          have hsame : j = i := by
            rcases Nat.lt_trichotomy j i with hearlier | heq | hlater
            · obtain ⟨other, hother⟩ := hfound
              exact absurd hother (hbefore.2 j hearlier other)
            · exact heq
            · exact absurd heligible (hnone i hlater address)
          subst hsame
          exact ⟨hpolls, _, rfl, hpoll.2 rfl⟩
        · intro hnone
          exact absurd heligible (hnone i hlt address)
    | @rejected i before after err hlt hbefore hcheck htolerated =>
        obtain ⟨_, hspec, _⟩ := mintRelayCheck_spec hshows before (hquery i before hbefore.1)
        cases (Prod.mk.inj (hspec.symm.trans hcheck)).1
    | @exhausted after err logger hafter =>
        obtain ⟨rfl, rfl⟩ := Prod.mk.inj hsettled
        constructor
        · intro i hlt hfound
          obtain ⟨address, heligible⟩ := hfound
          exact absurd heligible (hafter.2 i hlt address)
        · intro _
          have hpolls : readings (Host.setLogger logger after.world) - (readings world + 1) =
              DEFAULT_TIMEOUT PARALLEL_WORKERS / SECOND := by
            rw [hshows.logged, hafter.1, Nat.add_sub_cancel_left]
            rfl
          exact ⟨hpolls, err, rfl⟩

/-- Two relayers were credited with nft 7, and the vault after them. -/
def creditedView : HubView where
  tip := 5000
  logs _ _ := [.eventLog ⟨7, "0xA"⟩, .eventLog ⟨7, "0xB"⟩, .eventLog ⟨7, "0xa"⟩, .undecoded,
    .eventLog ⟨8, "0xB"⟩, .eventLog ⟨7, "0xFe"⟩]
  balance address _ := if address = "0xb" then 3 else 0

/-- What the hub shows at the call and at the polls: the first poll comes before the mints. -/
def mintedViews : Nat → HubView
  | 0 | 1 => { creditedView with logs := fun _ _ => [] }
  | _ + 2 => creditedView

/-- A hub that has been read as often as the probe holds checks. -/
def mintedHub : Erc1155Hub Probe where
  vaultAddress probe := (.ok "0xFE", probe)
  getBlockNumber probe := (.ok (mintedViews (checks probe.trace)).tip,
    { probe with trace := probe.trace ++ [.check] })
  queryFilter fromBlock tip probe :=
    (.ok ((mintedViews (checks probe.trace - 1)).logs fromBlock tip), probe)
  balanceOf address nftId probe :=
    (.ok ((mintedViews (checks probe.trace - 1)).balance (Text.toLowerCase address) nftId), probe)

theorem mintedHub_shows :
    Shows mintedHub "0xFE" (fun probe => checks probe.trace) mintedViews where
  tip probe := ⟨_, rfl, by simp [checks]⟩
  vaultAddress probe := ⟨probe, rfl, rfl⟩
  logs fromBlock tip reading probe hreading :=
    ⟨probe, by simp [mintedHub, hreading], rfl⟩
  balance address nftId reading probe hreading :=
    ⟨probe, by simp [mintedHub, hreading], rfl⟩
  delayed ms probe := by simp [Host.delay, checks]
  logged logger probe := rfl

/-- The relayer credited later has passed its supply on, so the other one is the holder, which
the second poll finds. -/
theorem waitForPNHMintRelay_latestHolder_second :
    ∃ owner, (waitForPNHMintRelay none "NFT" mintedHub 7 3 ⟨[], Logger.new⟩).1 = .ok owner ∧
      (creditedView.query 7 3 "0xfe" 1000).LatestHolder owner := by
  have hlaw := (waitForPNHMintRelay_latestHolder mintedHub "0xFE" _ mintedViews mintedHub_shows
    7 3).2 none "NFT" ⟨[], Logger.new⟩ _ _ rfl
  have hfound : (creditedView.query 7 3 "0xfe" 1000).Eligible "0xb" := by
    apply HolderQuery.Eligible.mk
    · exact ⟨.eventLog ⟨7, "0xB"⟩, by decide, ⟨7, "0xB"⟩, rfl, rfl, by decide⟩
    all_goals decide
  obtain ⟨-, owner, howner, hlatest⟩ := hlaw.resolves 1 (by decide) ⟨"0xb", hfound⟩ (by
    intro j hj address heligible
    obtain rfl : j = 0 := by omega
    obtain ⟨log, hmem, -⟩ := heligible.credited
    exact absurd hmem List.not_mem_nil)
  exact ⟨owner, howner, hlatest⟩

end RaylsSuite.Tokens
