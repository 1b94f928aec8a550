import RaylsSuite.Foundation.LiveMap
import RaylsSuite.Foundation.Machine

/-! # Connection pools

The pools of the databases are created on demand and kept by connection string.
`closeAllPools` ends them one after the other, and tests that go on querying at
its awaits may create pools that it has not seen yet.
-/

namespace RaylsSuite.Common

open Foundation

inductive CloserStatus where
  /-- Suspended at `await pool.end()`. -/
  | ending
  | threw
  /-- Returned, when so many pools had been created. -/
  | returned (created : Nat)
deriving DecidableEq, Repr

def CloserStatus.hasReturned : CloserStatus → Bool
  | .returned _ => true
  | .ending | .threw => false

/-- A call of `closeAllPools`. -/
structure Closer where
  /-- The position of its iterator over `pools.values()`. -/
  position : Nat
  /-- The pools on which it called `end()`, the last one first. -/
  ended : List Nat
  status : CloserStatus
deriving DecidableEq, Repr

/-- The module's state. A pool is known by its number, in the order of creation. -/
structure PgClient where
  pools : LiveMap String Nat
  created : Nat
  closers : List Closer
deriving DecidableEq, Repr

inductive PgLabel where
  | getPool (connectionString : String)
  | closeAllPools
  /-- The promise of the closer's `pool.end()` has settled. -/
  | settled (closer : Nat) (resolved : Bool)
deriving DecidableEq, Repr

namespace PgClient

def start : PgClient := ⟨.empty, 0, []⟩

variable (client : PgClient)

/-- `getPool`, with the pool that it returns. -/
def getPool (connectionString : String) : Nat × PgClient :=
  match client.pools.get connectionString with
  | some pool => (pool, client)
  | none =>
      (client.created,
        { client with
          pools := client.pools.add connectionString client.created
          created := client.created + 1 })

/-- The loop of `closeAllPools` up to its next await or to its end. -/
def proceed (closer : Closer) : Closer × LiveMap String Nat :=
  match client.pools.next closer.position with
  | some ((_, pool), position) =>
      (⟨position, pool :: closer.ended, .ending⟩, client.pools)
  | none => ({ closer with status := .returned client.created }, client.pools.clear)

def closeAllPools : PgClient :=
  let (closer, pools) := client.proceed ⟨0, [], .ending⟩
  { client with pools := pools, closers := client.closers ++ [closer] }

def settled (index : Nat) (resolved : Bool) : Option PgClient :=
  match client.closers[index]? with
  | some ⟨position, ended, .ending⟩ =>
      if resolved then
        let (closer, pools) := client.proceed ⟨position, ended, .ending⟩
        some { client with pools := pools, closers := client.closers.set index closer }
      else some { client with closers := client.closers.set index ⟨position, ended, .threw⟩ }
  | _ => none

def machine : Machine PgClient PgLabel where
  step client
    | .getPool connectionString => some (client.getPool connectionString).2
    | .closeAllPools => some client.closeAllPools
    | .settled index resolved => client.settled index resolved

/-- How many calls of `closeAllPools` have returned. -/
def returns : Nat := client.closers.countP fun closer => closer.status.hasReturned

/-- A closer ended the pool. -/
def Ended (pool : Nat) : Prop := ∃ closer ∈ client.closers, pool ∈ closer.ended

/-! ## The closers of a client -/

/-- What a closer knows of the pools. -/
structure CloserInv (client : PgClient) (closer : Closer) : Prop where
  bounded : closer.position ≤ client.pools.slots.length
  created : ∀ pool ∈ closer.ended, pool < client.created
  once : closer.ended.Nodup
  /-- It has ended the pools behind its iterator. -/
  behind : ∀ index < closer.position, ∀ key pool,
    client.pools.slots[index]? = some (some (key, pool)) → pool ∈ closer.ended
  /-- It has not ended the pools that its iterator is yet to reach. -/
  ahead : ∀ pool ∈ closer.ended, ∀ index, closer.position ≤ index → ∀ key,
    client.pools.slots[index]? ≠ some (some (key, pool))
  /-- When it has returned, the pools that it ended are not in the map. -/
  gone : ∀ created, closer.status = .returned created → ∀ pool ∈ closer.ended, ∀ key,
    ¬client.pools.Holds key pool

structure Inv (client : PgClient) : Prop where
  closers : ∀ closer ∈ client.closers, CloserInv client closer
  numbered : ∀ key pool, client.pools.Holds key pool → pool < client.created
  /-- A pool that is not in the map was ended. -/
  kept : ∀ pool < client.created, (∃ key, client.pools.Holds key pool) ∨ client.Ended pool
  /-- The pools that had been created when a closer returned were ended. -/
  closed : ∀ closer ∈ client.closers, ∀ created, closer.status = .returned created →
    ∀ pool < created, client.Ended pool
  /-- No two slots hold one pool, and no two pools are held for one connection string. -/
  single : ∀ (i j : Nat) (key other : String) (pool found : Nat),
    client.pools.slots[i]? = some (some (key, pool)) →
    client.pools.slots[j]? = some (some (other, found)) → (key = other ∨ pool = found) → i = j

variable {client} {closer : Closer} {pool : Nat} {key : String}

theorem Inv.start : start.Inv where
  closers _ hcloser := absurd hcloser List.not_mem_nil
  numbered _ _ hholds := absurd hholds LiveMap.not_holds_empty
  kept _ hpool := absurd hpool (Nat.not_lt_zero _)
  closed _ hcloser := absurd hcloser List.not_mem_nil
  single _ _ _ _ _ _ hslot := by cases hslot

/-- At most one pool is held for a connection string. -/
theorem Inv.holds_unique (hinv : client.Inv) {first second : Nat}
    (hfirst : client.pools.Holds key first) (hsecond : client.pools.Holds key second) :
    first = second := by
  obtain ⟨i, hi⟩ := LiveMap.holds_iff_getElem?.mp hfirst
  obtain ⟨j, hj⟩ := LiveMap.holds_iff_getElem?.mp hsecond
  obtain rfl := hinv.single i j key key first second hi hj (.inl rfl)
  rw [hi] at hj
  exact (Prod.mk.inj (Option.some.inj (Option.some.inj hj))).2

/-! ## A pool is created -/

/-- The client with a new pool. -/
def create (client : PgClient) (key : String) : PgClient :=
  { client with pools := client.pools.add key client.created, created := client.created + 1 }

/-- A new pool is ahead of every iterator. -/
theorem CloserInv.create (hcloser : client.CloserInv closer) (key : String) :
    (client.create key).CloserInv closer where
  bounded := by
    simpa [PgClient.create, LiveMap.add] using Nat.le_succ_of_le hcloser.bounded
  created pool hpool := Nat.lt_succ_of_lt (hcloser.created pool hpool)
  once := hcloser.once
  behind index hindex other pool hslot := by
    rcases LiveMap.getElem?_add.mp hslot with hslot | ⟨rfl, rfl, rfl⟩
    · exact hcloser.behind index hindex other pool hslot
    · exact absurd hcloser.bounded (Nat.not_le_of_lt hindex)
  ahead pool hpool index hindex other hslot := by
    rcases LiveMap.getElem?_add.mp hslot with hslot | ⟨rfl, rfl, rfl⟩
    · exact hcloser.ahead pool hpool index hindex other hslot
    · exact Nat.lt_irrefl _ (hcloser.created client.created hpool)
  gone created hstatus pool hpool other hholds := by
    rcases LiveMap.holds_add.mp hholds with hholds | ⟨rfl, rfl⟩
    · exact hcloser.gone created hstatus pool hpool other hholds
    · exact Nat.lt_irrefl _ (hcloser.created client.created hpool)

/-- A pool that is created for a new connection string keeps the invariant. -/
theorem Inv.create (hinv : client.Inv) (hnew : ∀ pool, ¬client.pools.Holds key pool) :
    (client.create key).Inv where
  closers closer hcloser := (hinv.closers closer hcloser).create key
  numbered other pool hholds := by
    rcases LiveMap.holds_add.mp hholds with hholds | ⟨rfl, rfl⟩
    · exact Nat.lt_succ_of_lt (hinv.numbered other pool hholds)
    · exact Nat.lt_succ_self _
  kept pool hpool := by
    rcases Nat.lt_succ_iff_lt_or_eq.mp hpool with hpool | rfl
    · exact (hinv.kept pool hpool).imp_left fun ⟨other, hholds⟩ =>
        ⟨other, LiveMap.holds_add.mpr (.inl hholds)⟩
    · exact .inl ⟨key, LiveMap.holds_add.mpr (.inr ⟨rfl, rfl⟩)⟩
  closed := hinv.closed
  single i j first second pool found hi hj hsame := by
    have hslot : ∀ (index : Nat) (other : String) (found : Nat),
        client.pools.slots[index]? = some (some (other, found)) →
        index < client.pools.slots.length ∧ other ≠ key ∧ found ≠ client.created := by
      intro index other found hindex
      have hholds : client.pools.Holds other found := LiveMap.holds_iff_getElem?.mpr ⟨index, hindex⟩
      refine ⟨(List.getElem?_eq_some_iff.mp hindex).1, ?_, ?_⟩
      · rintro rfl
        exact hnew found hholds
      · exact Nat.ne_of_lt (hinv.numbered other found hholds)
    rcases LiveMap.getElem?_add.mp hi with hi | ⟨hlast, hfirst, hcreated⟩ <;>
      rcases LiveMap.getElem?_add.mp hj with hj | ⟨hlast', hsecond, hcreated'⟩
    · exact hinv.single i j first second pool found hi hj hsame
    · obtain ⟨_, hkey, hpool⟩ := hslot i first pool hi
      exact (hsame.elim (fun h => hkey (h.trans hsecond)) fun h =>
        hpool (h.trans hcreated')).elim
    · obtain ⟨_, hkey, hpool⟩ := hslot j second found hj
      exact (hsame.elim (fun h => hkey (h.symm.trans hfirst)) fun h =>
        hpool (h.symm.trans hcreated)).elim
    · exact hlast.trans hlast'.symm

/-- A query gets the pool that is held, or a new one. -/
theorem getPool_eq (connectionString : String) :
    (client.pools.get connectionString = some (client.getPool connectionString).1 ∧
        (client.getPool connectionString).2 = client) ∨
      client.pools.get connectionString = none ∧
        client.getPool connectionString = (client.created, client.create connectionString) := by
  unfold getPool
  split
  next pool hfound => exact .inl ⟨hfound, rfl⟩
  next hmissing => exact .inr ⟨hmissing, rfl⟩

theorem Inv.getPool (hinv : client.Inv) (connectionString : String) :
    (client.getPool connectionString).2.Inv := by
  rcases client.getPool_eq connectionString with ⟨_, hsame⟩ | ⟨hmissing, hcreated⟩
  · rw [hsame]
    exact hinv
  · rw [hcreated]
    exact hinv.create (LiveMap.not_holds_of_get hmissing)

/-! ## A closer proceeds -/

/-- The client with a closer replaced, which does not touch the pools. -/
def advance (client : PgClient) (index : Nat) (closer : Closer) : PgClient :=
  { client with closers := client.closers.set index closer }

/-- The client whose pools are cleared. -/
def cleared (client : PgClient) : PgClient := { client with pools := client.pools.clear }

/-- Clearing the map leaves nothing behind any iterator. -/
theorem CloserInv.cleared (hcloser : client.CloserInv closer) :
    client.cleared.CloserInv closer where
  bounded := by simpa [PgClient.cleared, LiveMap.clear] using hcloser.bounded
  created := hcloser.created
  once := hcloser.once
  behind index _ other pool hslot :=
    absurd (LiveMap.holds_iff_getElem?.mpr ⟨index, hslot⟩) LiveMap.not_holds_clear
  ahead pool _ index _ other hslot :=
    absurd (LiveMap.holds_iff_getElem?.mpr ⟨index, hslot⟩) LiveMap.not_holds_clear
  gone _ _ _ _ _ := LiveMap.not_holds_clear

/-- What a closer knows is about the pools. -/
theorem CloserInv.withClosers (hcloser : client.CloserInv closer) (closers : List Closer) :
    ({ client with closers := closers } : PgClient).CloserInv closer :=
  ⟨hcloser.bounded, hcloser.created, hcloser.once, hcloser.behind, hcloser.ahead, hcloser.gone⟩

section Advance

variable {index : Nat} {old new : Closer}

/-- A closer that proceeds has ended what it had ended. -/
theorem ended_advance (hold : client.closers[index]? = some old)
    (hmore : ∀ pool ∈ old.ended, pool ∈ new.ended) (hended : client.Ended pool) :
    (client.advance index new).Ended pool := by
  obtain ⟨closer, hcloser, hpool⟩ := hended
  obtain ⟨other, hother⟩ := List.mem_iff_getElem?.mp hcloser
  have hindex := (List.getElem?_eq_some_iff.mp hold).1
  by_cases hsame : other = index
  · subst hsame
    obtain rfl := Option.some.inj (hold.symm.trans hother)
    exact ⟨new, List.mem_set hindex new, hmore pool hpool⟩
  · exact ⟨closer, List.mem_iff_getElem?.mpr ⟨other, (lookup_set hindex).mpr
      (.inr ⟨hsame, hother⟩)⟩, hpool⟩

/-- A closer that moves on keeps the invariant when what it returned over was ended. -/
theorem Inv.advance (hinv : client.Inv) (hold : client.closers[index]? = some old)
    (hmore : ∀ pool ∈ old.ended, pool ∈ new.ended) (hnew : client.CloserInv new)
    (hclosed : ∀ created, new.status = .returned created → ∀ pool < created,
      (client.advance index new).Ended pool) :
    (client.advance index new).Inv where
  closers closer hcloser :=
    ((forall_mem_set_iff hold (hinv.closers old (List.mem_of_getElem? hold))).mpr
      ⟨hnew, hinv.closers⟩ closer hcloser).withClosers _
  numbered := hinv.numbered
  kept pool hpool := (hinv.kept pool hpool).imp_right (ended_advance hold hmore)
  closed closer hcloser := by
    rcases List.mem_or_eq_of_mem_set hcloser with hmem | rfl
    · exact fun created hstatus pool hpool =>
        ended_advance hold hmore (hinv.closed closer hmem created hstatus pool hpool)
    · exact hclosed
  single := hinv.single

end Advance

/-- When all the pools of the map were ended, it can be cleared. -/
theorem Inv.cleared (hinv : client.Inv)
    (hended : ∀ key pool, client.pools.Holds key pool → client.Ended pool) :
    client.cleared.Inv where
  closers closer hcloser := (hinv.closers closer hcloser).cleared
  numbered _ _ hholds := absurd hholds LiveMap.not_holds_clear
  kept pool hpool := .inr <| by
    rcases hinv.kept pool hpool with ⟨key, hholds⟩ | hended'
    · exact hended key pool hholds
    · exact hended'
  closed := hinv.closed
  single i _ _ _ _ _ hslot :=
    absurd (LiveMap.holds_iff_getElem?.mpr ⟨i, hslot⟩) LiveMap.not_holds_clear

section Proceed

variable {position after : Nat} {ended : List Nat}

/-- The closer after `pool.end()` on the pool that its iterator yields. -/
theorem CloserInv.next (hinv : client.Inv)
    (hcloser : client.CloserInv ⟨position, ended, .ending⟩)
    (hnext : client.pools.next position = some ((key, pool), after)) :
    client.CloserInv ⟨after, pool :: ended, .ending⟩ := by
  obtain ⟨hlt, hslot, hempty⟩ := LiveMap.next_eq_some hnext
  have hholds : client.pools.Holds key pool := LiveMap.holds_iff_getElem?.mpr ⟨_, hslot⟩
  have hlength := (List.getElem?_eq_some_iff.mp hslot).1
  refine ⟨?_, ?_, ?_, ?_, ?_, fun _ hstatus => by cases hstatus⟩
  · change after ≤ client.pools.slots.length
    omega
  · intro other hother
    rcases List.mem_cons.mp hother with rfl | hother
    · exact hinv.numbered key other hholds
    · exact hcloser.created other hother
  · refine List.nodup_cons.mpr ⟨fun hmem => ?_, hcloser.once⟩
    exact hcloser.ahead pool hmem (after - 1) (Nat.le_sub_one_of_lt hlt) key hslot
  · intro index (hindex : index < after) other found hfound
    rcases Nat.lt_or_ge index position with hbehind | hahead
    · exact List.mem_cons_of_mem pool (hcloser.behind index hbehind other found hfound)
    · rcases Nat.lt_or_ge index (after - 1) with hbetween | hlast
      · rw [hempty index hahead hbetween] at hfound
        cases hfound
      · obtain rfl : index = after - 1 := by omega
        rw [hslot] at hfound
        obtain ⟨_, rfl⟩ := Prod.mk.inj (Option.some.inj (Option.some.inj hfound))
        exact List.mem_cons_self
  · intro other hother index (hindex : after ≤ index) found hfound
    rcases List.mem_cons.mp hother with rfl | hother
    · have := hinv.single _ _ _ _ _ _ hfound hslot (.inr rfl)
      omega
    · exact hcloser.ahead other hother index (Nat.le_trans (Nat.le_of_lt hlt) hindex) found hfound

/-- A closer whose iterator is done has ended all the pools of the map. -/
theorem CloserInv.mem_ended (hcloser : client.CloserInv ⟨position, ended, .ending⟩)
    (hnext : client.pools.next position = none) (hholds : client.pools.Holds key pool) :
    pool ∈ ended := by
  obtain ⟨index, hslot⟩ := LiveMap.holds_iff_getElem?.mp hholds
  rcases Nat.lt_or_ge index position with hbehind | hahead
  · exact hcloser.behind index hbehind key pool hslot
  · exact absurd hslot (LiveMap.next_eq_none hnext hahead _)

end Proceed

/-- Each settled `pool.end()` keeps the invariant. -/
theorem Inv.settled (hinv : client.Inv) {index : Nat} {resolved : Bool} {next : PgClient}
    (hstep : client.settled index resolved = some next) : next.Inv := by
  unfold PgClient.settled at hstep
  split at hstep
  next position ended hold =>
    have hcloser := hinv.closers _ (List.mem_of_getElem? hold)
    cases resolved with
    | false =>
        obtain rfl := Option.some.inj hstep
        change (client.advance index ⟨position, ended, .threw⟩).Inv
        exact hinv.advance hold (fun _ hpool => hpool)
          ⟨hcloser.bounded, hcloser.created, hcloser.once, hcloser.behind, hcloser.ahead,
            fun _ hstatus => by cases hstatus⟩ (fun _ hstatus => by cases hstatus)
    | true =>
        cases hnext : client.pools.next position with
        | some found =>
            obtain ⟨⟨key, pool⟩, after⟩ := found
            simp only [proceed, hnext, if_true] at hstep
            obtain rfl := Option.some.inj hstep
            exact hinv.advance hold (fun _ hpool => List.mem_cons_of_mem pool hpool)
              (CloserInv.next hinv hcloser hnext) (fun _ hstatus => by cases hstatus)
        | none =>
            simp only [proceed, hnext, if_true] at hstep
            obtain rfl := Option.some.inj hstep
            have hended : ∀ key pool, client.pools.Holds key pool → client.Ended pool :=
              fun key pool hholds =>
                ⟨_, List.mem_of_getElem? hold, hcloser.mem_ended hnext hholds⟩
            have hcleared := hcloser.cleared
            -- all the pools that were created by now are ended, in the map or not
            have hall : ∀ pool < client.created, client.Ended pool := fun pool hpool => by
              rcases hinv.kept pool hpool with ⟨key, hholds⟩ | hended'
              · exact hended key pool hholds
              · exact hended'
            change (client.cleared.advance index ⟨position, ended, .returned client.created⟩).Inv
            exact (hinv.cleared hended).advance hold (fun _ hpool => hpool)
              ⟨hcleared.bounded, hcleared.created, hcleared.once, hcleared.behind, hcleared.ahead,
                fun _ _ _ _ _ => LiveMap.not_holds_clear⟩
              (fun created hstatus pool hpool => by
                cases hstatus
                have hended : client.cleared.Ended pool := hall pool hpool
                exact ended_advance hold (fun _ hpool => hpool) hended)
  next => cases hstep

/-- The client at the start of a call of `closeAllPools`. -/
def enter (client : PgClient) : PgClient :=
  { client with closers := client.closers ++ [⟨0, [], .ending⟩] }

theorem settled_enter (client : PgClient) :
    client.enter.settled client.closers.length true = some client.closeAllPools := by
  simp [PgClient.settled, closeAllPools, proceed, enter]

/-- A new call has ended nothing yet. -/
theorem Inv.enter (hinv : client.Inv) : client.enter.Inv where
  closers closer hcloser := by
    rcases List.mem_append.mp hcloser with hcloser | hcloser
    · exact (hinv.closers closer hcloser).withClosers _
    · obtain rfl := List.mem_singleton.mp hcloser
      exact ⟨Nat.zero_le _, fun _ hpool => absurd hpool List.not_mem_nil, List.nodup_nil,
        fun _ hindex => absurd hindex (Nat.not_lt_zero _),
        fun _ hpool => absurd hpool List.not_mem_nil, fun _ hstatus => by cases hstatus⟩
  numbered := hinv.numbered
  kept pool hpool := (hinv.kept pool hpool).imp_right fun ⟨closer, hcloser, hended⟩ =>
    ⟨closer, List.mem_append_left _ hcloser, hended⟩
  closed closer hcloser created hstatus pool hpool := by
    rcases List.mem_append.mp hcloser with hcloser | hcloser
    · obtain ⟨other, hother, hended⟩ := hinv.closed closer hcloser created hstatus pool hpool
      exact ⟨other, List.mem_append_left _ hother, hended⟩
    · obtain rfl := List.mem_singleton.mp hcloser
      cases hstatus
  single := hinv.single

/-- Each step keeps the invariant. -/
theorem Inv.step (hinv : client.Inv) {label : PgLabel} {next : PgClient}
    (hstep : machine.step client label = some next) : next.Inv := by
  cases label with
  | getPool connectionString =>
      obtain rfl := Option.some.inj hstep
      exact hinv.getPool connectionString
  | closeAllPools =>
      obtain rfl := Option.some.inj hstep
      exact hinv.enter.settled client.settled_enter
  | settled index resolved => exact hinv.settled hstep

/-! ## Between two returns -/

/-- What a query gets is held. -/
theorem holds_getPool (connectionString : String) :
    (client.getPool connectionString).2.pools.Holds connectionString
      (client.getPool connectionString).1 := by
  rcases client.getPool_eq connectionString with ⟨hfound, hsame⟩ | ⟨_, hcreated⟩
  · rw [hsame]
    exact LiveMap.holds_of_get hfound
  · rw [hcreated]
    exact LiveMap.holds_add.mpr (.inr ⟨rfl, rfl⟩)

/-- A query gets what is held. -/
theorem getPool_of_holds (hinv : client.Inv) (hholds : client.pools.Holds key pool) :
    (client.getPool key).1 = pool := by
  rcases client.getPool_eq key with ⟨hfound, _⟩ | ⟨hmissing, _⟩
  · exact hinv.holds_unique (LiveMap.holds_of_get hfound) hholds
  · exact absurd hholds (LiveMap.not_holds_of_get hmissing pool)

/-- The map of a later client holds what that of an earlier one held, unless a call of
`closeAllPools` returned between them. -/
structure Grows (client later : PgClient) : Prop where
  returns_le : client.returns ≤ later.returns
  holds : later.returns = client.returns → ∀ key pool, client.pools.Holds key pool →
    later.pools.Holds key pool

theorem Grows.refl (client : PgClient) : client.Grows client :=
  ⟨Nat.le_refl _, fun _ _ _ hholds => hholds⟩

theorem Grows.trans {middle later : PgClient} (hfirst : client.Grows middle)
    (hsecond : middle.Grows later) : client.Grows later where
  returns_le := Nat.le_trans hfirst.returns_le hsecond.returns_le
  holds hsame key pool hholds := by
    have hbetween := hfirst.returns_le
    have hbehind := hsecond.returns_le
    exact hsecond.holds (by omega) key pool (hfirst.holds (by omega) key pool hholds)

theorem grows_getPool (connectionString : String) :
    client.Grows (client.getPool connectionString).2 := by
  rcases client.getPool_eq connectionString with ⟨_, hsame⟩ | ⟨_, hcreated⟩
  · rw [hsame]
    exact .refl client
  · rw [hcreated]
    exact ⟨Nat.le_refl _, fun _ _ _ hholds => LiveMap.holds_add.mpr (.inl hholds)⟩

/-- The map is cleared only by a call that returns. -/
theorem grows_settled {index : Nat} {resolved : Bool} {next : PgClient}
    (hstep : client.settled index resolved = some next) : client.Grows next := by
  unfold PgClient.settled at hstep
  split at hstep
  next position ended hold =>
    have hreturns : ∀ (pools : LiveMap String Nat) (closer : Closer),
        ({ client with pools, closers := client.closers.set index closer } : PgClient).returns =
          client.returns + if closer.status.hasReturned then 1 else 0 := by
      intro pools closer
      obtain ⟨hindex, hget⟩ := List.getElem?_eq_some_iff.mp hold
      have hending : CloserStatus.ending.hasReturned = false := rfl
      simp [returns, List.countP_set hindex, hget, hending]
    cases resolved with
    | false =>
        obtain rfl := Option.some.inj hstep
        exact ⟨Nat.le_trans (Nat.le_add_right _ _) (Nat.le_of_eq (hreturns _ _).symm),
          fun _ _ _ hholds => hholds⟩
    | true =>
        cases hnext : client.pools.next position with
        | some found =>
            simp only [proceed, hnext, if_true] at hstep
            obtain rfl := Option.some.inj hstep
            exact ⟨Nat.le_trans (Nat.le_add_right _ _) (Nat.le_of_eq (hreturns _ _).symm),
              fun _ _ _ hholds => hholds⟩
        | none =>
            simp only [proceed, hnext, if_true] at hstep
            obtain rfl := Option.some.inj hstep
            have hmore := hreturns client.pools.clear ⟨position, ended, .returned client.created⟩
            rw [CloserStatus.hasReturned, if_pos rfl] at hmore
            exact ⟨hmore ▸ Nat.le_succ _, fun hsame => by omega⟩
  next => cases hstep

theorem grows_enter (client : PgClient) : client.Grows client.enter := by
  have hreturns : client.enter.returns = client.returns := by
    simp [returns, enter, CloserStatus.hasReturned]
  exact ⟨Nat.le_of_eq hreturns.symm, fun _ _ _ hholds => hholds⟩

/-- Each step adds to the map, unless it is the return of a call. -/
theorem grows_step {label : PgLabel} {next : PgClient}
    (hstep : machine.step client label = some next) : client.Grows next := by
  cases label with
  | getPool connectionString =>
      obtain rfl := Option.some.inj hstep
      exact grows_getPool connectionString
  | closeAllPools =>
      obtain rfl := Option.some.inj hstep
      exact (grows_enter client).trans (grows_settled client.settled_enter)
  | settled index resolved => exact grows_settled hstep

/-- So does every run without such a return. -/
theorem grows_run {labels : List PgLabel} {later : PgClient}
    (hrun : machine.run client labels = some later) : client.Grows later :=
  Machine.run_invariant client.Grows (fun _ _ _ hgrows hstep => hgrows.trans (grows_step hstep))
    (.refl client) hrun

/-! ## Every interleaving -/

/-- What the module promises of its pools. -/
structure PoolsSafe (client : PgClient) : Prop where
  /-- At most one pool is held for a connection string. -/
  held : ∀ connectionString first second, client.pools.Holds connectionString first →
    client.pools.Holds connectionString second → first = second
  /-- Two queries on one database share one pool, whatever happens between them, unless a call
  of `closeAllPools` returns there. -/
  shared : ∀ connectionString labels later,
    machine.run (client.getPool connectionString).2 labels = some later →
    later.returns = client.returns →
    (later.getPool connectionString).1 = (client.getPool connectionString).1
  /-- A call of `closeAllPools` that returned left no pool open that there was. -/
  closed : ∀ closer ∈ client.closers, ∀ created, closer.status = .returned created →
    ∀ pool < created, client.Ended pool
  /-- No call ends a pool twice. -/
  once : ∀ closer ∈ client.closers, closer.ended.Nodup
  /-- With no call of `closeAllPools` under way or failed, a query gets a pool that is open. -/
  opened : (∀ closer ∈ client.closers, ∃ created, closer.status = .returned created) →
    ∀ connectionString, ¬client.Ended (client.getPool connectionString).1

/-- The pools are shared and none is leaked, however queries and `closeAllPools` interleave. -/
theorem reaches_poolsSafe (hreach : machine.Reaches start client) : client.PoolsSafe := by
  have hinv : client.Inv := hreach.invariant Inv (fun _ _ _ hinv hstep => hinv.step hstep) .start
  refine ⟨fun _ _ _ => hinv.holds_unique, ?_, hinv.closed,
    fun closer hcloser => (hinv.closers closer hcloser).once, ?_⟩
  · intro connectionString labels later hrun hreturns
    have hlater : later.Inv := Machine.run_invariant Inv
      (fun _ _ _ hinv hstep => hinv.step hstep) (hinv.getPool connectionString) hrun
    have hgrows := grows_run hrun
    have hqueried := (client.grows_getPool connectionString).returns_le
    have hkept := hgrows.returns_le
    exact getPool_of_holds hlater
      (hgrows.holds (by omega) connectionString _ (client.holds_getPool connectionString))
  · rintro hreturned connectionString ⟨closer, hcloser, hended⟩
    rcases client.getPool_eq connectionString with ⟨hfound, _⟩ | ⟨_, hcreated⟩
    · obtain ⟨created, hstatus⟩ := hreturned closer hcloser
      exact (hinv.closers closer hcloser).gone created hstatus _ hended connectionString
        (LiveMap.holds_of_get hfound)
    · rw [hcreated] at hended
      exact Nat.lt_irrefl _ ((hinv.closers closer hcloser).created _ hended)

/-- A query creates a pool while the first one ends: the call ends both, then returns. -/
theorem reaches_poolsSafe_late :
    ∃ client : PgClient, client.PoolsSafe ∧ client.created = 2 ∧
      client.closers = [⟨2, [1, 0], .returned 2⟩] :=
  ⟨_, reaches_poolsSafe ⟨[.getPool "backend", .closeAllPools, .getPool "relayer",
      .settled 0 true, .settled 0 true], rfl⟩, rfl, rfl⟩

end PgClient

end RaylsSuite.Common
