import RaylsSuite.Foundation.Dialogue

/-! # A store that a program shares

Before each transaction of a program the others may have changed the store in
any way. A transaction may be refused, or its reply lost after it was executed.
-/

namespace RaylsSuite.Foundation

universe u

/-- The store that a transaction found and the one that it left. -/
structure Transaction (Store : Type u) where
  before : Store
  after : Store

namespace Transaction

variable {Store : Type u}

/-- A transaction that changed nothing. -/
def Quiet (transaction : Transaction Store) : Prop := transaction.after = transaction.before

end Transaction

/-- What the others do before a transaction, and what becomes of it. -/
structure Interference (Store ε : Type u) where
  others : Store → Store
  refused : Option ε
  lost : Option ε

/-- A world with a store that others change. -/
class SharedStore (World Store ε : Type u) where
  store : World → Store
  interfere : World → Interference Store ε × World
  write : Store → World → World

namespace SharedStore

open Dialogue

variable {World Store ε α Event : Type u} [SharedStore World Store ε]
  {embed : Transaction Store → Event}

/-- A transaction of the program, recorded with the store before and after it. -/
def transact (embed : Transaction Store → Event) (run : Store → α × Store) :
    Program World Event ε α := fun dialogue =>
  let (interference, world) : Interference Store ε × World := interfere dialogue.world
  let before := interference.others (store ε dialogue.world)
  match interference.refused with
  | some err => (.error err, ⟨write ε before world, dialogue.said ++ [embed ⟨before, before⟩]⟩)
  | none =>
      let (value, after) := run before
      let outcome := match interference.lost with
        | some err => .error err
        | none => .ok value
      (outcome, ⟨write ε after world, dialogue.said ++ [embed ⟨before, after⟩]⟩)

/-- A transaction that only reads. -/
def read (embed : Transaction Store → Event) (query : Store → α) : Program World Event ε α :=
  transact embed fun current => (query current, current)

/-- The law of a transaction. -/
inductive Transacts (embed : Transaction Store → Event) (run : Store → α × Store) :
    Law Event ε α where
  | refused {err : ε} {current : Store} :
      Transacts embed run (.error err) [embed ⟨current, current⟩]
  | lost {err : ε} {current : Store} :
      Transacts embed run (.error err) [embed ⟨current, (run current).2⟩]
  | done {current : Store} :
      Transacts embed run (.ok (run current).1) [embed ⟨current, (run current).2⟩]

/-- A transaction on the shared store is one event. -/
theorem obeys_transact (run : Store → α × Store) :
    Obeys (transact embed run : Program World Event ε α) (Transacts embed run) := by
  intro dialogue
  unfold transact
  rcases interfere dialogue.world with ⟨⟨others, _ | err, _ | lost⟩, world⟩
  · exact ⟨_, rfl, .done⟩
  · exact ⟨_, rfl, .lost⟩
  · exact ⟨_, rfl, .refused⟩
  · exact ⟨_, rfl, .refused⟩

/-- The law of a transaction that only reads. -/
def Reads (embed : Transaction Store → Event) (query : Store → α) : Law Event ε α :=
  fun outcome said => ∃ current, said = [embed ⟨current, current⟩] ∧
    ∀ value, outcome = .ok value → query current = value

theorem obeys_read (query : Store → α) :
    Obeys (read embed query : Program World Event ε α) (Reads embed query) := by
  refine (obeys_transact fun current => (query current, current)).imp fun outcome said hlaw => ?_
  cases hlaw with
  | refused => exact ⟨_, rfl, fun _ hok => by cases hok⟩
  | lost => exact ⟨_, rfl, fun _ hok => by cases hok⟩
  | done => exact ⟨_, rfl, fun _ hok => Except.ok.inj hok⟩

end SharedStore

end RaylsSuite.Foundation
