import Mathlib.Data.List.Perm.Basic

/-! # A table of child processes

A parent spawns children and is told when each one closes. The table records
the children in flight and the history of spawns and closings.
-/

namespace RaylsSuite.Foundation

universe u v

/-- The exit code of a closed child; `none` is null, a child ended by a signal. -/
abbrev ExitCode : Type := Option Int

structure Processes (Child : Type u) where
  inFlight : List Child
  spawned : List Child
  closed : List (Child × ExitCode)
deriving DecidableEq

namespace Processes

variable {Child : Type u}

def empty : Processes Child := ⟨[], [], []⟩

def spawn (table : Processes Child) (child : Child) : Processes Child :=
  { table with
    inFlight := table.inFlight ++ [child]
    spawned := table.spawned ++ [child] }

def close [DecidableEq Child] (table : Processes Child) (child : Child) (code : ExitCode) :
    Processes Child :=
  { table with
    inFlight := table.inFlight.erase child
    closed := table.closed ++ [(child, code)] }

/-- The children that did not exit with code 0. -/
def failed (table : Processes Child) : List Child :=
  (table.closed.filter fun entry => entry.2 ≠ some 0).map Prod.fst

/-- Every spawned child is either in flight or closed, and only once. -/
def Accounted (table : Processes Child) : Prop :=
  table.spawned.Perm (table.inFlight ++ table.closed.map Prod.fst)

theorem empty_accounted : (empty : Processes Child).Accounted := List.Perm.nil

theorem Accounted.spawn {table : Processes Child} (haccounted : table.Accounted) (child : Child) :
    (table.spawn child).Accounted := by
  have hmove : (table.inFlight ++ table.closed.map Prod.fst ++ [child]).Perm
      (table.inFlight ++ [child] ++ table.closed.map Prod.fst) := by
    rw [List.append_assoc, List.append_assoc]
    exact List.perm_append_comm.append_left _
  exact (haccounted.append_right [child]).trans hmove

/-- A child that closes stays accounted for. -/
theorem Accounted.close [DecidableEq Child] {table : Processes Child}
    (haccounted : table.Accounted) {child : Child} (hmem : child ∈ table.inFlight)
    (code : ExitCode) : (table.close child code).Accounted := by
  have hfront : (table.inFlight ++ table.closed.map Prod.fst).Perm
      (child :: (table.inFlight.erase child ++ table.closed.map Prod.fst)) :=
    (List.perm_cons_erase hmem).append_right _
  refine haccounted.trans (hfront.trans ?_)
  simp only [Processes.close, List.map_append, List.map_cons, List.map_nil]
  rw [← List.append_assoc]
  exact (List.perm_append_singleton child _).symm

/-- With no child in flight, the closings list every spawned child once. -/
theorem Accounted.perm_closed {table : Processes Child} (haccounted : table.Accounted)
    (hidle : table.inFlight = []) : table.spawned.Perm (table.closed.map Prod.fst) := by
  simpa [Accounted, hidle] using haccounted

theorem failed_close [DecidableEq Child] (table : Processes Child) (child : Child)
    (code : ExitCode) :
    (table.close child code).failed =
      if code = some 0 then table.failed else table.failed ++ [child] := by
  by_cases hcode : code = some 0 <;> simp [failed, close, List.filter_append, hcode]

/-! ## Tables of several parents -/

/-- The table of children that all exited with code 0. -/
def settled (children : List Child) : Processes Child :=
  ⟨[], children, children.map fun child => (child, some 0)⟩

def map {Image : Type v} (image : Child → Image) (table : Processes Child) : Processes Image :=
  ⟨table.inFlight.map image, table.spawned.map image,
    table.closed.map fun entry => (image entry.1, entry.2)⟩

def append (first second : Processes Child) : Processes Child :=
  ⟨first.inFlight ++ second.inFlight, first.spawned ++ second.spawned,
    first.closed ++ second.closed⟩

theorem settled_accounted (children : List Child) : (settled children).Accounted := by
  simp [Accounted, settled, Function.comp_def]

theorem Accounted.map {Image : Type v} {table : Processes Child} (haccounted : table.Accounted)
    (image : Child → Image) : (table.map image).Accounted := by
  simpa [Accounted, Processes.map, Function.comp_def] using List.Perm.map image haccounted

/-- Tables that account for their children do so together. -/
theorem Accounted.append {first second : Processes Child} (hfirst : first.Accounted)
    (hsecond : second.Accounted) : (first.append second).Accounted := by
  simp only [Accounted, Processes.append, List.map_append]
  refine (List.Perm.append hfirst hsecond).trans ?_
  rw [List.append_assoc, List.append_assoc]
  refine List.Perm.append_left _ ?_
  rw [← List.append_assoc, ← List.append_assoc]
  exact List.perm_append_comm.append_right _

/-- Every child that was spawned is in flight or has closed. -/
theorem Accounted.mem_or {table : Processes Child} (haccounted : table.Accounted) {child : Child}
    (hspawned : child ∈ table.spawned) :
    child ∈ table.inFlight ∨ child ∈ table.closed.map Prod.fst :=
  List.mem_append.mp (haccounted.mem_iff.mp hspawned)

theorem close_spawn_settled [DecidableEq Child] (children : List Child) (child : Child) :
    ((settled children).spawn child).close child (some 0) = settled (children ++ [child]) := by
  simp [settled, spawn, close]

theorem close_spawn_inFlight [DecidableEq Child] {table : Processes Child}
    (hidle : table.inFlight = []) (child : Child) (code : ExitCode) :
    ((table.spawn child).close child code).inFlight = [] := by
  simp [spawn, close, hidle]

/-- No child is left, and each one exited with code 0. -/
structure Succeeded (table : Processes Child) : Prop where
  accounted : table.spawned.Perm (table.closed.map Prod.fst)
  code_eq : ∀ entry ∈ table.closed, entry.2 = some 0

theorem settled_succeeded (children : List Child) : (settled children).Succeeded where
  accounted := by simp [settled, Function.comp_def]
  code_eq entry hmem := by
    obtain ⟨child, -, rfl⟩ := List.mem_map.mp hmem
    rfl

theorem Succeeded.append {first second : Processes Child} (hfirst : first.Succeeded)
    (hsecond : second.Succeeded) : (first.append second).Succeeded where
  accounted := by
    simp only [Processes.append, List.map_append]
    exact hfirst.accounted.append hsecond.accounted
  code_eq entry hmem :=
    (List.mem_append.mp hmem).elim (hfirst.code_eq entry) (hsecond.code_eq entry)

theorem Succeeded.map {Image : Type v} {table : Processes Child} (hsucceeded : table.Succeeded)
    (image : Child → Image) : (table.map image).Succeeded where
  accounted := by
    simpa [Processes.map, Function.comp_def] using hsucceeded.accounted.map image
  code_eq entry hmem := by
    obtain ⟨original, horiginal, rfl⟩ := List.mem_map.mp hmem
    exact hsucceeded.code_eq original horiginal

theorem Accounted.succeeded {table : Processes Child} (haccounted : table.Accounted)
    (hidle : table.inFlight = []) (hfailed : table.failed = []) : table.Succeeded where
  accounted := haccounted.perm_closed hidle
  code_eq entry hmem := by
    have hnone := List.filter_eq_nil_iff.mp (List.map_eq_nil_iff.mp hfailed) entry hmem
    simpa using hnone

/-- Of any kind of child, every one that was spawned has a closing with code 0. -/
theorem Succeeded.filter {table : Processes Child} (hsucceeded : table.Succeeded)
    (kind : Child → Bool) :
    (table.spawned.filter kind).Perm
      ((table.closed.filter fun entry => kind entry.1 && entry.2 = some 0).map Prod.fst) := by
  have hclosed : (table.closed.filter fun entry => kind entry.1 && entry.2 = some 0) =
      table.closed.filter fun entry => kind entry.1 :=
    List.filter_congr fun entry hmem => by simp [hsucceeded.code_eq entry hmem]
  rw [hclosed, ← Function.comp_def kind Prod.fst, ← List.filter_map]
  exact hsucceeded.accounted.filter kind

end Processes

end RaylsSuite.Foundation
