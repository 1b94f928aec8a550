import RaylsSuite.Foundation.Machine

/-! # Grants made by holders of a warrant

A ledger holds facts, and a signer may add a fact while a warrant for it, which
is a fact as well, is in the ledger. Parties make their grants in order. A
checked grant is sent only if its fact was missing when the party looked. A
grant that was sent is mined at some later time, if at all; the party may send
it again, and it may be mined after the party has given up on it.
-/

namespace RaylsSuite.Foundation

universe u v w

/-- A ledger of facts; a grant that is refused reverts. -/
structure FactLedger (World : Type u) (Fact : Type v) (Signer : Type w) where
  holds : World → Fact → Bool
  grant : World → Signer → Fact → Option World

/-- What the ledger promises: a grant adds its fact and no other, takes none back, and is
not refused to a signer with a warrant. -/
structure FactLedger.Lawful {World : Type u} {Fact : Type v} {Signer : Type w}
    (ledger : FactLedger World Fact Signer) (warrant : Signer → Fact → Fact) : Prop where
  granted : ∀ world signer fact next, ledger.grant world signer fact = some next →
    ledger.holds next fact = true
  kept : ∀ world signer fact next other, ledger.grant world signer fact = some next →
    ledger.holds world other = true → ledger.holds next other = true
  added : ∀ world signer fact next other, ledger.grant world signer fact = some next →
    ledger.holds next other = true → ledger.holds world other = true ∨ other = fact
  accepted : ∀ world signer fact, ledger.holds world (warrant signer fact) = true →
    ∃ next, ledger.grant world signer fact = some next

/-- A checked grant is left out when its fact is found in the ledger. -/
structure FactGrant (Fact : Type v) (Signer : Type w) where
  signer : Signer
  fact : Fact
  checked : Bool
deriving DecidableEq, Repr

inductive GrantStage where
  /-- About to look at the next grant, or done. -/
  | ready
  /-- Waiting for the grant that was sent; `mined` is whether its receipt is there. -/
  | sending (mined : Bool)
  | threw
deriving DecidableEq, Repr

structure Grantor (Fact : Type v) (Signer : Type w) where
  /-- All the grants that the party was given. -/
  program : List (FactGrant Fact Signer)
  /-- Those from the one at hand on. -/
  rest : List (FactGrant Fact Signer)
  stage : GrantStage
deriving DecidableEq, Repr

def Grantor.of {Fact : Type v} {Signer : Type w} (program : List (FactGrant Fact Signer)) :
    Grantor Fact Signer :=
  ⟨program, program, .ready⟩

def Grantor.returned {Fact : Type v} {Signer : Type w} (party : Grantor Fact Signer) : Prop :=
  party.rest = [] ∧ party.stage = .ready

structure GrantState (World : Type u) (Fact : Type v) (Signer : Type w) where
  world : World
  parties : List (Grantor Fact Signer)
  /-- The grants that were sent and not mined, with the positions of their senders. -/
  mempool : List (Nat × FactGrant Fact Signer)
  mined : List (FactGrant Fact Signer)
  reverted : List (FactGrant Fact Signer)
deriving DecidableEq, Repr

inductive GrantLabel where
  /-- The party looks for the fact of its next grant and goes past it or sends it. -/
  | look (position : Nat)
  | resend (position : Nat)
  /-- A grant of the mempool is mined. -/
  | mine (index : Nat)
  /-- The party's wait ends with a receipt. -/
  | confirm (position : Nat)
  /-- A call of the party throws. -/
  | throw (position : Nat)
deriving DecidableEq, Repr

variable {World : Type u} {Fact : Type v} {Signer : Type w} [DecidableEq Fact] [DecidableEq Signer]

namespace Grantor

/-- The party after its grant at hand was mined. -/
def receipt (party : Grantor Fact Signer) (grant : FactGrant Fact Signer) : Grantor Fact Signer :=
  if party.stage = .sending false ∧ party.rest.head? = some grant then
    { party with stage := .sending true }
  else party

end Grantor

namespace GrantState

def start (world : World) (programs : List (List (FactGrant Fact Signer))) :
    GrantState World Fact Signer :=
  ⟨world, programs.map Grantor.of, [], [], []⟩

/-- The state with the party at a position replaced. -/
def move (state : GrantState World Fact Signer) (position : Nat) (party : Grantor Fact Signer) :
    GrantState World Fact Signer :=
  { state with parties := state.parties.set position party }

def send (state : GrantState World Fact Signer) (position : Nat) (grant : FactGrant Fact Signer) :
    GrantState World Fact Signer :=
  { state with mempool := state.mempool ++ [(position, grant)] }

variable (ledger : FactLedger World Fact Signer)

def look (state : GrantState World Fact Signer) (position : Nat) :
    Option (GrantState World Fact Signer) :=
  match state.parties[position]? with
  | some ⟨program, grant :: rest, .ready⟩ =>
      if grant.checked && ledger.holds state.world grant.fact then
        some (state.move position ⟨program, rest, .ready⟩)
      else some ((state.move position ⟨program, grant :: rest, .sending false⟩).send position grant)
  | _ => none

def resend (state : GrantState World Fact Signer) (position : Nat) :
    Option (GrantState World Fact Signer) :=
  match state.parties[position]? with
  | some ⟨_, grant :: _, .sending _⟩ => some (state.send position grant)
  | _ => none

def mine (state : GrantState World Fact Signer) (index : Nat) :
    Option (GrantState World Fact Signer) :=
  match state.mempool[index]? with
  | none => none
  | some (sender, grant) =>
      let left := { state with mempool := state.mempool.eraseIdx index }
      match ledger.grant state.world grant.signer grant.fact with
      | none => some { left with reverted := state.reverted ++ [grant] }
      | some world => some
          { left with
            world := world
            parties := state.parties.modify sender fun party => party.receipt grant
            mined := state.mined ++ [grant] }

def confirm (state : GrantState World Fact Signer) (position : Nat) :
    Option (GrantState World Fact Signer) :=
  match state.parties[position]? with
  | some ⟨program, _ :: rest, .sending true⟩ =>
      some (state.move position ⟨program, rest, .ready⟩)
  | _ => none

def throw (state : GrantState World Fact Signer) (position : Nat) :
    Option (GrantState World Fact Signer) :=
  match state.parties[position]? with
  | some ⟨program, grant :: rest, _⟩ =>
      some (state.move position ⟨program, grant :: rest, .threw⟩)
  | _ => none

end GrantState

def grantMachine (ledger : FactLedger World Fact Signer) :
    Machine (GrantState World Fact Signer) GrantLabel where
  step state
    | .look position => state.look ledger position
    | .resend position => state.resend position
    | .mine index => state.mine ledger index
    | .confirm position => state.confirm position
    | .throw position => state.throw position

/-! ## What a step does -/

section Moves

variable {ledger : FactLedger World Fact Signer} {state next : GrantState World Fact Signer}

/-- How a party moves by itself. -/
inductive GrantorMoves (ledger : FactLedger World Fact Signer) (world : World) :
    Grantor Fact Signer → Grantor Fact Signer → Option (FactGrant Fact Signer) → Prop where
  | passed {program rest : List (FactGrant Fact Signer)} {grant : FactGrant Fact Signer} :
      grant.checked = true → ledger.holds world grant.fact = true →
      GrantorMoves ledger world ⟨program, grant :: rest, .ready⟩ ⟨program, rest, .ready⟩ none
  | sent {program rest : List (FactGrant Fact Signer)} {grant : FactGrant Fact Signer} :
      (grant.checked = true → ledger.holds world grant.fact = false) →
      GrantorMoves ledger world ⟨program, grant :: rest, .ready⟩
        ⟨program, grant :: rest, .sending false⟩ (some grant)
  | resent {program rest : List (FactGrant Fact Signer)} {grant : FactGrant Fact Signer}
      {mined : Bool} :
      GrantorMoves ledger world ⟨program, grant :: rest, .sending mined⟩
        ⟨program, grant :: rest, .sending mined⟩ (some grant)
  | confirmed {program rest : List (FactGrant Fact Signer)} {grant : FactGrant Fact Signer} :
      GrantorMoves ledger world ⟨program, grant :: rest, .sending true⟩ ⟨program, rest, .ready⟩ none
  | threw {program rest : List (FactGrant Fact Signer)} {stage : GrantStage} :
      GrantorMoves ledger world ⟨program, rest, stage⟩ ⟨program, rest, .threw⟩ none

/-- A step moves one party, which may send its grant at hand, or mines a grant. -/
inductive GrantMoves (ledger : FactLedger World Fact Signer)
    (state : GrantState World Fact Signer) : GrantState World Fact Signer → Prop where
  | moved {position : Nat} {old new : Grantor Fact Signer} {sent : Option (FactGrant Fact Signer)} :
      state.parties[position]? = some old → GrantorMoves ledger state.world old new sent →
      GrantMoves ledger state
        { state with
          parties := state.parties.set position new
          mempool := state.mempool ++ sent.toList.map fun grant => (position, grant) }
  | reverted {index sender : Nat} {grant : FactGrant Fact Signer} :
      state.mempool[index]? = some (sender, grant) →
      ledger.grant state.world grant.signer grant.fact = none →
      GrantMoves ledger state
        { state with
          mempool := state.mempool.eraseIdx index
          reverted := state.reverted ++ [grant] }
  | mined {index sender : Nat} {grant : FactGrant Fact Signer} {world : World} :
      state.mempool[index]? = some (sender, grant) →
      ledger.grant state.world grant.signer grant.fact = some world →
      GrantMoves ledger state
        { state with
          world := world
          parties := state.parties.modify sender fun party => party.receipt grant
          mempool := state.mempool.eraseIdx index
          mined := state.mined ++ [grant] }

/-- Each step is one of these moves. -/
theorem grantMachine_moves {label : GrantLabel}
    (hstep : (grantMachine ledger).step state label = some next) :
    GrantMoves ledger state next := by
  cases label with
  | look position =>
      simp only [grantMachine, GrantState.look] at hstep
      split at hstep
      next program grant rest hparty =>
        split at hstep
        next hheld =>
          obtain rfl := Option.some.inj hstep
          obtain ⟨hchecked, hheld⟩ := Bool.and_eq_true_iff.mp hheld
          simpa [GrantState.move] using GrantMoves.moved hparty (.passed hchecked hheld)
        next hmissing =>
          obtain rfl := Option.some.inj hstep
          simp only [Bool.and_eq_true, not_and, Bool.not_eq_true] at hmissing
          simpa [GrantState.move, GrantState.send] using
            GrantMoves.moved hparty (.sent hmissing)
      next => cases hstep
  | resend position =>
      simp only [grantMachine, GrantState.resend] at hstep
      split at hstep
      next program grant rest mined hparty =>
        obtain rfl := Option.some.inj hstep
        obtain ⟨hposition, hself⟩ := List.getElem?_eq_some_iff.mp hparty
        -- the party itself does not change
        have hsame : state.parties.set position ⟨program, grant :: rest, .sending mined⟩ =
            state.parties := by
          rw [← hself]
          exact List.set_getElem_self hposition
        have hmoved : GrantMoves ledger state _ := .moved hparty .resent
        rw [hsame] at hmoved
        simpa [GrantState.send] using hmoved
      next => cases hstep
  | mine index =>
      simp only [grantMachine, GrantState.mine] at hstep
      split at hstep
      next => cases hstep
      next sender grant hpending =>
        split at hstep
        next hrefused =>
          obtain rfl := Option.some.inj hstep
          exact .reverted hpending hrefused
        next world hgranted =>
          obtain rfl := Option.some.inj hstep
          exact .mined hpending hgranted
  | confirm position =>
      simp only [grantMachine, GrantState.confirm] at hstep
      split at hstep
      next program grant rest hparty =>
        obtain rfl := Option.some.inj hstep
        simpa [GrantState.move] using
          (GrantMoves.moved hparty .confirmed : GrantMoves ledger state _)
      next => cases hstep
  | throw position =>
      simp only [grantMachine, GrantState.throw] at hstep
      split at hstep
      next program grant rest stage hparty =>
        obtain rfl := Option.some.inj hstep
        simpa [GrantState.move] using
          (GrantMoves.moved hparty .threw : GrantMoves ledger state _)
      next => cases hstep

end Moves

/-! ## Warranted programs -/

/-- Each grant of the program has its warrant by the time the grants before it were made. -/
def Warranted (warrant : Signer → Fact → Fact) :
    (Fact → Prop) → List (FactGrant Fact Signer) → Prop
  | _, [] => True
  | known, grant :: rest => known (warrant grant.signer grant.fact) ∧
      Warranted warrant (fun fact => known fact ∨ fact = grant.fact) rest

variable {ledger : FactLedger World Fact Signer} {warrant : Signer → Fact → Fact}
  {world later : World}

omit [DecidableEq Fact] [DecidableEq Signer] in
/-- A program that was warranted stays so when more is known. -/
theorem Warranted.mono {known more : Fact → Prop} (hmore : ∀ fact, known fact → more fact)
    {program : List (FactGrant Fact Signer)} (hwarranted : Warranted warrant known program) :
    Warranted warrant more program := by
  induction program generalizing known more with
  | nil => trivial
  | cons grant rest ih =>
      obtain ⟨hhead, hrest⟩ := hwarranted
      exact ⟨hmore _ hhead, ih (fun fact hfact => hfact.imp_left (hmore fact)) hrest⟩

/-- What is in the ledger stays in it. -/
def FactLedger.Grows (ledger : FactLedger World Fact Signer) (world later : World) : Prop :=
  ∀ fact, ledger.holds world fact = true → ledger.holds later fact = true

/-- The party has the grants from the one at hand on left to make, and each with its warrant. -/
structure Grantor.Sound (ledger : FactLedger World Fact Signer) (warrant : Signer → Fact → Fact)
    (world : World) (party : Grantor Fact Signer) : Prop where
  settled : ∀ grant ∈ party.program, ledger.holds world grant.fact = true ∨ grant ∈ party.rest
  listed : ∀ grant ∈ party.rest, grant ∈ party.program
  warranted : Warranted warrant (fun fact => ledger.holds world fact = true) party.rest
  mined : party.stage = .sending true → ∀ grant rest, party.rest = grant :: rest →
    ledger.holds world grant.fact = true
  busy : ∀ mined, party.stage = .sending mined → party.rest ≠ []

variable {party old new : Grantor Fact Signer} {sent : Option (FactGrant Fact Signer)}

omit [DecidableEq Fact] [DecidableEq Signer] in
theorem Grantor.Sound.mono (hsound : party.Sound ledger warrant world)
    (hgrows : ledger.Grows world later) : party.Sound ledger warrant later where
  settled grant hgrant := (hsound.settled grant hgrant).imp_left (hgrows _)
  listed := hsound.listed
  warranted := hsound.warranted.mono hgrows
  mined hstage grant rest hrest := hgrows _ (hsound.mined hstage grant rest hrest)
  busy := hsound.busy

omit [DecidableEq Fact] [DecidableEq Signer] in
/-- A party goes past a grant whose fact is in the ledger. -/
theorem Grantor.Sound.past {program rest : List (FactGrant Fact Signer)}
    {grant : FactGrant Fact Signer} {stage : GrantStage}
    (hsound : Grantor.Sound ledger warrant world ⟨program, grant :: rest, stage⟩)
    (hheld : ledger.holds world grant.fact = true) :
    Grantor.Sound ledger warrant world ⟨program, rest, .ready⟩ where
  settled other hother := by
    rcases hsound.settled other hother with hdone | hrest
    · exact .inl hdone
    · rcases List.mem_cons.mp hrest with rfl | hrest
      · exact .inl hheld
      · exact .inr hrest
  listed other hother := hsound.listed other (List.mem_cons_of_mem grant hother)
  warranted := by
    apply hsound.warranted.2.mono
    rintro fact (hfact | rfl)
    · exact hfact
    · exact hheld
  mined hstage := by cases hstage
  busy _ hstage := by cases hstage

omit [DecidableEq Fact] [DecidableEq Signer] in
/-- A party that moves stays sound. -/
theorem Grantor.Sound.moves (hsound : old.Sound ledger warrant world)
    (hmoves : GrantorMoves ledger world old new sent) : new.Sound ledger warrant world := by
  cases hmoves with
  | passed hchecked hheld => exact hsound.past hheld
  | sent hmissing =>
      exact ⟨hsound.settled, hsound.listed, hsound.warranted, fun hstage => (by cases hstage),
        fun _ _ => List.cons_ne_nil _ _⟩
  | resent => exact hsound
  | confirmed => exact hsound.past (hsound.mined rfl _ _ rfl)
  | threw =>
      exact ⟨hsound.settled, hsound.listed, hsound.warranted, fun hstage => (by cases hstage),
        fun _ hstage => (by cases hstage)⟩

omit [DecidableEq Fact] [DecidableEq Signer] in
/-- A grant that a sound party sends is one of its program and has its warrant. -/
theorem Grantor.Sound.sends {grant : FactGrant Fact Signer}
    (hsound : old.Sound ledger warrant world)
    (hmoves : GrantorMoves ledger world old new (some grant)) :
    grant ∈ old.program ∧ ledger.holds world (warrant grant.signer grant.fact) = true := by
  cases hmoves with
  | sent hmissing => exact ⟨hsound.listed _ List.mem_cons_self, hsound.warranted.1⟩
  | resent => exact ⟨hsound.listed _ List.mem_cons_self, hsound.warranted.1⟩

/-- So does one whose grant was mined and holds. -/
theorem Grantor.Sound.receipt (hsound : party.Sound ledger warrant world)
    {grant : FactGrant Fact Signer} (hheld : ledger.holds world grant.fact = true) :
    (party.receipt grant).Sound ledger warrant world := by
  unfold Grantor.receipt
  split
  next hmatch =>
    refine ⟨hsound.settled, hsound.listed, hsound.warranted, fun _ other rest hrest => ?_,
      fun _ _ => hsound.busy false hmatch.1⟩
    simp only at hrest
    rw [hrest] at hmatch
    obtain rfl := Option.some.inj hmatch.2
    exact hheld
  next => exact hsound

omit [DecidableEq Fact] [DecidableEq Signer] in
theorem GrantorMoves.program_eq (hmoves : GrantorMoves ledger world old new sent) :
    new.program = old.program := by
  cases hmoves <;> rfl

theorem Grantor.receipt_program (party : Grantor Fact Signer) (grant : FactGrant Fact Signer) :
    (party.receipt grant).program = party.program := by
  unfold Grantor.receipt
  split <;> rfl

/-! ## Runs of warranted programs -/

/-- What holds in every run of warranted programs from a world. -/
structure GrantState.Inv (ledger : FactLedger World Fact Signer)
    (warrant : Signer → Fact → Fact) (before : World)
    (programs : List (List (FactGrant Fact Signer))) (state : GrantState World Fact Signer) :
    Prop where
  given : state.parties.map Grantor.program = programs
  sound : ∀ party ∈ state.parties, party.Sound ledger warrant state.world
  pending : ∀ entry ∈ state.mempool, (∃ program ∈ programs, entry.2 ∈ program) ∧
    ledger.holds state.world (warrant entry.2.signer entry.2.fact) = true
  accepted : state.reverted = []
  grows : ledger.Grows before state.world
  added : ∀ fact, ledger.holds state.world fact = true → ledger.holds before fact = true ∨
    ∃ program ∈ programs, ∃ grant ∈ program, grant.fact = fact

variable {before : World} {programs : List (List (FactGrant Fact Signer))}
  {state next : GrantState World Fact Signer}

omit [DecidableEq Fact] [DecidableEq Signer] in
/-- The invariant holds before the first move. -/
theorem GrantState.Inv.start
    (hwarranted : ∀ program ∈ programs,
      Warranted warrant (fun fact => ledger.holds before fact = true) program) :
    (GrantState.start before programs).Inv ledger warrant before programs where
  given := by simp [GrantState.start, Function.comp_def, Grantor.of]
  sound party hparty := by
    obtain ⟨program, hprogram, rfl⟩ := List.mem_map.mp hparty
    exact ⟨fun grant hgrant => .inr hgrant, fun grant hgrant => hgrant,
      hwarranted program hprogram, fun hstage => (by cases hstage),
      fun _ hstage => (by cases hstage)⟩
  pending _ hentry := absurd hentry List.not_mem_nil
  accepted := rfl
  grows _ hfact := hfact
  added _ hfact := .inl hfact

/-- Every move keeps the invariant. -/
theorem GrantState.Inv.moves (hlawful : ledger.Lawful warrant)
    (hinv : state.Inv ledger warrant before programs) (hmoves : GrantMoves ledger state next) :
    next.Inv ledger warrant before programs := by
  cases hmoves with
  | @moved position old new sent hold hmoves =>
      have hmem : old ∈ state.parties := List.mem_of_getElem? hold
      have hsound := hinv.sound old hmem
      refine ⟨?_, ?_, ?_, hinv.accepted, hinv.grows, hinv.added⟩
      · rw [← hinv.given, List.map_set, hmoves.program_eq]
        obtain ⟨hposition, hself⟩ := List.getElem?_eq_some_iff.mp hold
        rw [← hself, ← List.getElem_map (f := Grantor.program) (h := by simpa using hposition)]
        exact List.set_getElem_self _
      · exact (forall_mem_set_iff hold hsound).mpr ⟨hsound.moves hmoves, hinv.sound⟩
      · intro entry hentry
        rcases List.mem_append.mp hentry with hentry | hentry
        · exact hinv.pending entry hentry
        · obtain ⟨grant, hgrant, rfl⟩ := List.mem_map.mp hentry
          obtain rfl := Option.mem_toList.mp hgrant
          obtain ⟨hlisted, hwarrant⟩ := hsound.sends hmoves
          refine ⟨⟨old.program, ?_, hlisted⟩, hwarrant⟩
          rw [← hinv.given]
          exact List.mem_map_of_mem hmem
  | @reverted index sender grant hentry hrefused =>
      obtain ⟨_, hwarrant⟩ := hinv.pending _ (List.mem_of_getElem? hentry)
      obtain ⟨world, hgranted⟩ := hlawful.accepted _ _ _ hwarrant
      cases hrefused.symm.trans hgranted
  | @mined index sender grant world hentry hgranted =>
      obtain ⟨⟨program, hprogram, hlisted⟩, _⟩ := hinv.pending _ (List.mem_of_getElem? hentry)
      have hgrows : ledger.Grows state.world world :=
        fun fact hfact => hlawful.kept _ _ _ _ fact hgranted hfact
      have hheld := hlawful.granted _ _ _ _ hgranted
      refine ⟨?_, ?_, ?_, hinv.accepted, fun fact hfact => hgrows fact (hinv.grows fact hfact), ?_⟩
      · rw [← hinv.given]
        apply List.ext_getElem? fun position => ?_
        simp only [List.getElem?_map, List.getElem?_modify]
        cases state.parties[position]? with
        | none => simp
        | some party =>
            by_cases hsender : sender = position <;> simp [hsender, Grantor.receipt_program]
      · intro party hparty
        rcases List.mem_iff_getElem?.mp hparty with ⟨position, hposition⟩
        rw [List.getElem?_modify] at hposition
        obtain ⟨old, hold, hnew⟩ := Option.map_eq_some_iff.mp hposition
        have hsound := (hinv.sound old (List.mem_of_getElem? hold)).mono hgrows
        by_cases hsender : sender = position
        · rw [if_pos hsender] at hnew
          exact hnew ▸ hsound.receipt hheld
        · rw [if_neg hsender] at hnew
          exact hnew ▸ hsound
      · intro entry hentry
        obtain ⟨hrequested, hwarrant⟩ := hinv.pending entry (List.mem_of_mem_eraseIdx hentry)
        exact ⟨hrequested, hgrows _ hwarrant⟩
      · intro fact hfact
        rcases hlawful.added _ _ _ _ fact hgranted hfact with hbefore | rfl
        · exact hinv.added fact hbefore
        · exact .inr ⟨program, hprogram, grant, hlisted, rfl⟩

theorem GrantState.Inv.reaches (hlawful : ledger.Lawful warrant)
    (hinv : state.Inv ledger warrant before programs)
    (hreach : (grantMachine ledger).Reaches state next) : next.Inv ledger warrant before programs :=
  hreach.invariant (GrantState.Inv ledger warrant before programs)
    (fun _ _ _ hinv hstep => hinv.moves hlawful (grantMachine_moves hstep)) hinv

theorem GrantState.Inv.of_reaches (hlawful : ledger.Lawful warrant)
    (hwarranted : ∀ program ∈ programs,
      Warranted warrant (fun fact => ledger.holds before fact = true) program)
    (hreach : (grantMachine ledger).Reaches (GrantState.start before programs) state) :
    state.Inv ledger warrant before programs :=
  (GrantState.Inv.start hwarranted).reaches hlawful hreach

omit [DecidableEq Fact] [DecidableEq Signer] in
/-- The facts of a party that has returned are in the ledger. -/
theorem GrantState.Inv.returned (hinv : state.Inv ledger warrant before programs)
    {position : Nat} {program : List (FactGrant Fact Signer)}
    (hparty : state.parties[position]? = some party) (hprogram : programs[position]? = some program)
    (hreturned : party.returned) :
    ∀ grant ∈ program, ledger.holds state.world grant.fact = true := by
  intro grant hgrant
  have hsame : program = party.program := by
    rw [← hinv.given, List.getElem?_map, hparty] at hprogram
    exact (Option.some.inj hprogram).symm
  subst hsame
  rcases (hinv.sound party (List.mem_of_getElem? hparty)).settled grant hgrant with hheld | hrest
  · exact hheld
  · rw [hreturned.1] at hrest
    exact absurd hrest List.not_mem_nil

/-! ## A party can always finish -/

/-- Some schedule lets the party return. -/
def GrantState.CanReturn (ledger : FactLedger World Fact Signer)
    (state : GrantState World Fact Signer) (position : Nat) : Prop :=
  ∃ final party, (grantMachine ledger).Reaches state final ∧
    final.parties[position]? = some party ∧ party.returned

theorem GrantState.CanReturn.of_reaches {position : Nat} (hreturn : next.CanReturn ledger position)
    (hreach : (grantMachine ledger).Reaches state next) : state.CanReturn ledger position := by
  obtain ⟨final, party, hfinal, hreturned⟩ := hreturn
  exact ⟨final, party, hreach.trans hfinal, hreturned⟩

section Finish

variable {position : Nat} {program rest : List (FactGrant Fact Signer)}
  {grant : FactGrant Fact Signer}

/-- A party with its receipt gets past its grant. -/
theorem confirm_reaches
    (hparty : state.parties[position]? = some ⟨program, grant :: rest, .sending true⟩) :
    ∃ final, (grantMachine ledger).Reaches state final ∧
      final.parties[position]? = some ⟨program, rest, .ready⟩ := by
  have hconfirm : (grantMachine ledger).step state (.confirm position) =
      some (state.move position ⟨program, rest, .ready⟩) := by
    simp [grantMachine, GrantState.confirm, hparty]
  exact ⟨_, .of_step _ hconfirm, List.getElem?_set_self (List.getElem?_eq_some_iff.mp hparty).1⟩

/-- A party that waits for its grant gets past it once the grant is sent again and mined. -/
theorem GrantState.Inv.sending_reaches (hlawful : ledger.Lawful warrant)
    (hinv : state.Inv ledger warrant before programs) {mined : Bool}
    (hparty : state.parties[position]? = some ⟨program, grant :: rest, .sending mined⟩) :
    ∃ final, (grantMachine ledger).Reaches state final ∧
      final.parties[position]? = some ⟨program, rest, .ready⟩ := by
  cases mined with
  | true => exact confirm_reaches hparty
  | false =>
      have hresend : (grantMachine ledger).step state (.resend position) =
          some (state.send position grant) := by
        simp [grantMachine, GrantState.resend, hparty]
      have hentry : (state.send position grant).mempool[state.mempool.length]? =
          some (position, grant) := by
        simp [GrantState.send]
      -- the copy that was just sent is accepted, whatever happened to the earlier ones
      obtain ⟨_, hwarrant⟩ := (hinv.moves hlawful (grantMachine_moves hresend)).pending _
        (List.mem_of_getElem? hentry)
      obtain ⟨world, hgranted⟩ := hlawful.accepted _ _ _ hwarrant
      obtain ⟨mined, hmine, hsending⟩ : ∃ mined, (grantMachine ledger).step
          (state.send position grant) (.mine state.mempool.length) = some mined ∧
          mined.parties[position]? = some ⟨program, grant :: rest, .sending true⟩ := by
        refine ⟨_, by simp only [grantMachine, GrantState.mine, hentry, hgranted]; rfl, ?_⟩
        simp [GrantState.send, hparty, Grantor.receipt]
      obtain ⟨final, hfinal, hready⟩ := confirm_reaches hsending
      exact ⟨final, (Machine.Reaches.of_step _ hresend).trans
        ((Machine.Reaches.of_step _ hmine).trans hfinal), hready⟩

/-- A party that is ready can still return. -/
theorem GrantState.Inv.ready_canReturn (hlawful : ledger.Lawful warrant)
    (hinv : state.Inv ledger warrant before programs)
    (hparty : state.parties[position]? = some ⟨program, rest, .ready⟩) :
    state.CanReturn ledger position := by
  induction rest generalizing state with
  | nil => exact ⟨state, _, .refl _ state, hparty, rfl, rfl⟩
  | cons grant rest ih =>
      have hposition := (List.getElem?_eq_some_iff.mp hparty).1
      by_cases hfound : grant.checked && ledger.holds state.world grant.fact
      · have hlook : (grantMachine ledger).step state (.look position) =
            some (state.move position ⟨program, rest, .ready⟩) := by
          simp only [grantMachine, GrantState.look, hparty]
          exact if_pos hfound
        have hreach := Machine.Reaches.of_step _ hlook
        have hreturn := ih (hinv.reaches hlawful hreach) (List.getElem?_set_self hposition)
        exact hreturn.of_reaches hreach
      · have hlook : (grantMachine ledger).step state (.look position) =
            some ((state.move position ⟨program, grant :: rest, .sending false⟩).send position
              grant) := by
          simp only [grantMachine, GrantState.look, hparty]
          exact if_neg hfound
        have hreach := Machine.Reaches.of_step _ hlook
        have hinv' := hinv.reaches hlawful hreach
        obtain ⟨middle, hmiddle, hready⟩ := hinv'.sending_reaches hlawful
          (List.getElem?_set_self hposition)
        exact (ih (hinv'.reaches hlawful hmiddle) hready).of_reaches (hreach.trans hmiddle)

/-- A party that has not thrown can still return. -/
theorem GrantState.Inv.canReturn (hlawful : ledger.Lawful warrant)
    (hinv : state.Inv ledger warrant before programs)
    (hparty : state.parties[position]? = some party) (hstage : party.stage ≠ .threw) :
    state.CanReturn ledger position := by
  obtain ⟨program, rest, stage⟩ := party
  cases stage with
  | ready => exact hinv.ready_canReturn hlawful hparty
  | threw => exact absurd rfl hstage
  | sending mined =>
      cases rest with
      | nil => exact absurd rfl ((hinv.sound _ (List.mem_of_getElem? hparty)).busy mined rfl)
      | cons grant rest =>
          obtain ⟨middle, hmiddle, hready⟩ := hinv.sending_reaches hlawful hparty
          exact ((hinv.reaches hlawful hmiddle).ready_canReturn hlawful hready).of_reaches hmiddle

end Finish

/-! ## Over a ledger that has everything -/

/-- The grant is one that may be sent, or it is checked and its fact is in the ledger. -/
def FactGrant.Spared (ledger : FactLedger World Fact Signer)
    (allowed : FactGrant Fact Signer → Prop) (world : World)
    (grant : FactGrant Fact Signer) : Prop :=
  allowed grant ∨ grant.checked = true ∧ ledger.holds world grant.fact = true

/-- Of the grants that are left no other than an allowed one needs to be sent, and no other one
was sent. -/
structure GrantState.Quiet (ledger : FactLedger World Fact Signer)
    (allowed : FactGrant Fact Signer → Prop) (state : GrantState World Fact Signer) : Prop where
  spared : ∀ party ∈ state.parties, ∀ grant ∈ party.rest, grant.Spared ledger allowed state.world
  pending : ∀ entry ∈ state.mempool, allowed entry.2
  mined : ∀ grant ∈ state.mined, allowed grant
  reverted : ∀ grant ∈ state.reverted, allowed grant
  sending : ∀ party ∈ state.parties, ∀ mined grant rest, party.stage = .sending mined →
    party.rest = grant :: rest → allowed grant

variable {allowed : FactGrant Fact Signer → Prop}

omit [DecidableEq Fact] [DecidableEq Signer] in
theorem GrantorMoves.rest_subset (hmoves : GrantorMoves ledger world old new sent) :
    ∀ grant ∈ new.rest, grant ∈ old.rest := by
  cases hmoves with
  | passed | confirmed => exact fun grant hgrant => List.mem_cons_of_mem _ hgrant
  | sent | resent | threw => exact fun grant hgrant => hgrant

omit [DecidableEq Fact] [DecidableEq Signer] in
/-- A party that spares what it need not send sends what is allowed. -/
theorem GrantorMoves.sends_allowed (hmoves : GrantorMoves ledger world old new sent)
    (hspared : ∀ grant ∈ old.rest, grant.Spared ledger allowed world)
    (hsending : ∀ mined grant rest, old.stage = .sending mined → old.rest = grant :: rest →
      allowed grant) :
    (∀ grant ∈ sent, allowed grant) ∧
      ∀ mined grant rest, new.stage = .sending mined → new.rest = grant :: rest →
        allowed grant := by
  cases hmoves with
  | passed hchecked hfound => exact ⟨fun _ hsent => (by cases hsent), fun _ _ _ h => (by cases h)⟩
  | @sent program rest grant hmissing =>
      have hallowed : allowed grant := by
        rcases hspared grant List.mem_cons_self with hallowed | ⟨hchecked, hheld⟩
        · exact hallowed
        · rw [hmissing hchecked] at hheld
          cases hheld
      refine ⟨fun other hother => ?_, fun _ other others _ hrest => ?_⟩
      · obtain rfl := Option.some.inj hother
        exact hallowed
      · obtain ⟨rfl, _⟩ := List.cons.inj hrest
        exact hallowed
  | resent =>
      refine ⟨fun other hother => ?_, hsending⟩
      obtain rfl := Option.some.inj hother
      exact hsending _ _ _ rfl rfl
  | confirmed => exact ⟨fun _ hsent => (by cases hsent), fun _ _ _ h => (by cases h)⟩
  | threw => exact ⟨fun _ hsent => (by cases hsent), fun _ _ _ h => (by cases h)⟩

theorem Grantor.receipt_rest (party : Grantor Fact Signer) (grant : FactGrant Fact Signer) :
    (party.receipt grant).rest = party.rest := by
  unfold Grantor.receipt
  split <;> rfl

theorem Grantor.sending_of_receipt {grant : FactGrant Fact Signer} {mined : Bool}
    (hstage : (party.receipt grant).stage = .sending mined) :
    ∃ earlier, party.stage = .sending earlier := by
  unfold Grantor.receipt at hstage
  split at hstage
  next hmatch => exact ⟨false, hmatch.1⟩
  next => exact ⟨mined, hstage⟩

/-- A quiet state stays quiet. -/
theorem GrantState.Quiet.moves (hlawful : ledger.Lawful warrant)
    (hquiet : state.Quiet ledger allowed) (hmoves : GrantMoves ledger state next) :
    next.Quiet ledger allowed := by
  cases hmoves with
  | @moved position old new sent hold hmoves =>
      have hmem : old ∈ state.parties := List.mem_of_getElem? hold
      obtain ⟨hsent, hsending⟩ :=
        hmoves.sends_allowed (hquiet.spared old hmem) (hquiet.sending old hmem)
      refine ⟨?_, ?_, hquiet.mined, hquiet.reverted, ?_⟩
      · apply (forall_mem_set_iff hold (hquiet.spared old hmem)).mpr ⟨?_, hquiet.spared⟩
        exact fun grant hgrant => hquiet.spared old hmem grant (hmoves.rest_subset grant hgrant)
      · intro entry hentry
        rcases List.mem_append.mp hentry with hentry | hentry
        · exact hquiet.pending entry hentry
        · obtain ⟨grant, hgrant, rfl⟩ := List.mem_map.mp hentry
          exact hsent grant (Option.mem_toList.mp hgrant)
      · exact (forall_mem_set_iff hold (hquiet.sending old hmem)).mpr ⟨hsending, hquiet.sending⟩
  | @reverted index sender grant hentry hrefused =>
      refine ⟨hquiet.spared, fun entry hentry => hquiet.pending entry
        (List.mem_of_mem_eraseIdx hentry), hquiet.mined, ?_, hquiet.sending⟩
      intro other hother
      rcases List.mem_append.mp hother with hother | hother
      · exact hquiet.reverted other hother
      · obtain rfl := List.mem_singleton.mp hother
        exact hquiet.pending _ (List.mem_of_getElem? hentry)
  | @mined index sender grant world hentry hgranted =>
      have hparties : ∀ party ∈ state.parties.modify sender fun party => party.receipt grant,
          ∃ old ∈ state.parties, party = old ∨ party = old.receipt grant := by
        intro party hparty
        obtain ⟨position, hposition⟩ := List.mem_iff_getElem?.mp hparty
        rw [List.getElem?_modify] at hposition
        obtain ⟨old, hold, hnew⟩ := Option.map_eq_some_iff.mp hposition
        refine ⟨old, List.mem_of_getElem? hold, ?_⟩
        split at hnew
        · exact .inr hnew.symm
        · exact .inl hnew.symm
      refine ⟨?_, fun entry hentry => hquiet.pending entry (List.mem_of_mem_eraseIdx hentry), ?_,
        hquiet.reverted, ?_⟩
      · intro party hparty other hother
        have hspared : other.Spared ledger allowed state.world := by
          obtain ⟨old, hold, rfl | rfl⟩ := hparties party hparty
          · exact hquiet.spared party hold other hother
          · rw [Grantor.receipt_rest] at hother
            exact hquiet.spared old hold other hother
        exact hspared.imp_right fun hheld => ⟨hheld.1, hlawful.kept _ _ _ _ _ hgranted hheld.2⟩
      · intro other hother
        rcases List.mem_append.mp hother with hother | hother
        · exact hquiet.mined other hother
        · obtain rfl := List.mem_singleton.mp hother
          exact hquiet.pending _ (List.mem_of_getElem? hentry)
      · intro party hparty mined other rest hstage hrest
        obtain ⟨old, hold, rfl | rfl⟩ := hparties party hparty
        · exact hquiet.sending party hold mined other rest hstage hrest
        · obtain ⟨earlier, hearlier⟩ := Grantor.sending_of_receipt hstage
          rw [Grantor.receipt_rest] at hrest
          exact hquiet.sending old hold earlier other rest hearlier hrest

/-- From a ledger that spares the programs all but the allowed grants, no other one is sent. -/
theorem GrantState.Quiet.of_reaches (hlawful : ledger.Lawful warrant)
    (hspared : ∀ program ∈ programs, ∀ grant ∈ program, grant.Spared ledger allowed before)
    (hreach : (grantMachine ledger).Reaches (GrantState.start before programs) state) :
    state.Quiet ledger allowed := by
  apply hreach.invariant (GrantState.Quiet ledger allowed)
    (fun _ _ _ hquiet hstep => hquiet.moves hlawful (grantMachine_moves hstep))
  refine ⟨?_, fun _ hentry => absurd hentry List.not_mem_nil,
    fun _ hgrant => absurd hgrant List.not_mem_nil,
    fun _ hgrant => absurd hgrant List.not_mem_nil, ?_⟩
  · intro party hparty grant hgrant
    obtain ⟨program, hprogram, rfl⟩ := List.mem_map.mp hparty
    exact hspared program hprogram grant hgrant
  · intro party hparty mined grant rest hstage
    obtain ⟨program, hprogram, rfl⟩ := List.mem_map.mp hparty
    cases hstage

/-! ## A ledger that lists its facts -/

/-- A ledger that grants to signers with a warrant only. -/
def FactLedger.listed (warrant : Signer → Fact → Fact) : FactLedger (List Fact) Fact Signer where
  holds facts fact := decide (fact ∈ facts)
  grant facts signer fact := if warrant signer fact ∈ facts then some (fact :: facts) else none

omit [DecidableEq Signer] in
/-- The ledger that lists its facts is lawful. -/
theorem FactLedger.listed_lawful (warrant : Signer → Fact → Fact) :
    (FactLedger.listed warrant).Lawful warrant := by
  have hgrant : ∀ facts signer fact next,
      (FactLedger.listed warrant).grant facts signer fact = some next → next = fact :: facts := by
    intro facts signer fact next hgrant
    simp only [FactLedger.listed] at hgrant
    split at hgrant
    · exact (Option.some.inj hgrant).symm
    · cases hgrant
  refine ⟨?_, ?_, ?_, ?_⟩
  · intro facts signer fact next hnext
    obtain rfl := hgrant facts signer fact next hnext
    simp [FactLedger.listed]
  · intro facts signer fact next other hnext hother
    obtain rfl := hgrant facts signer fact next hnext
    simp only [FactLedger.listed, decide_eq_true_eq] at hother ⊢
    exact List.mem_cons_of_mem fact hother
  · intro facts signer fact next other hnext hother
    obtain rfl := hgrant facts signer fact next hnext
    simp only [FactLedger.listed, decide_eq_true_eq] at hother ⊢
    exact (List.mem_cons.mp hother).symm
  · intro facts signer fact hwarrant
    exact ⟨fact :: facts, if_pos (of_decide_eq_true hwarrant)⟩

end RaylsSuite.Foundation
