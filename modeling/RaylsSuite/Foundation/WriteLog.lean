import Mathlib.Logic.Function.Basic
import Mathlib.Data.List.Basic

/-! # Maps and the writes behind them

A map is faithful to a log of writes when it reads, under every key, the value
that was written there last.
-/

namespace RaylsSuite.Foundation

universe u v

variable {Key : Type u} {Value : Type v} [DecidableEq Key]

/-- The value last written under a key. -/
def latest (log : List (Key × Value)) (key : Key) : Option Value :=
  (log.reverse.find? fun write => write.1 = key).map Prod.snd

/-- The map reads what the log wrote last. -/
def Represents (read : Key → Option Value) (log : List (Key × Value)) : Prop :=
  ∀ key, read key = latest log key

/-- The last write decides. -/
theorem latest_append_write (log : List (Key × Value)) (key : Key) (value : Value) :
    latest (log ++ [(key, value)]) = Function.update (latest log) key (some value) := by
  funext other
  rw [latest, List.reverse_append, List.reverse_singleton, List.singleton_append,
    List.find?_cons, Function.update_apply]
  by_cases heq : key = other
  · simp [heq]
  · simp [heq, Ne.symm heq, latest]

theorem represents_nil : Represents (fun _ => none) ([] : List (Key × Value)) := fun _ => rfl

variable {read next : Key → Option Value} {log : List (Key × Value)}

/-- After a write the map is faithful exactly if that write is all that changed it. -/
theorem Represents.write_iff (hread : Represents read log) (key : Key) (value : Value) :
    Represents next (log ++ [(key, value)]) ↔ next = Function.update read key (some value) := by
  have hlatest : latest log = read := funext fun other => (hread other).symm
  rw [Represents, latest_append_write, hlatest, ← funext_iff]

theorem Represents.write (hread : Represents read log) (key : Key) (value : Value) :
    Represents (Function.update read key (some value)) (log ++ [(key, value)]) :=
  (hread.write_iff key value).mpr rfl

/-- A write that leaves the map as it was is one that it already held. -/
theorem Represents.unchanged_iff (hread : Represents read log) (key : Key) (value : Value) :
    Represents read (log ++ [(key, value)]) ↔ read key = some value := by
  rw [hread.write_iff, Function.eq_update_iff]
  exact and_iff_left fun _ _ => rfl

/-- A write under another key is faithful only if the map held the value under both. -/
theorem Represents.misplaced_iff (hread : Represents read log) (key place : Key) (value : Value) :
    Represents (Function.update read place (some value)) (log ++ [(key, value)]) ↔
      place = key ∨ (read place = some value ∧ read key = some value) := by
  rw [hread.write_iff]
  constructor
  · intro heq
    by_cases hplace : place = key
    · exact Or.inl hplace
    · have hatPlace := congrFun heq place
      have hatKey := congrFun heq key
      rw [Function.update_self, Function.update_of_ne hplace] at hatPlace
      rw [Function.update_self, Function.update_of_ne (Ne.symm hplace)] at hatKey
      exact Or.inr ⟨hatPlace.symm, hatKey⟩
  · rintro (rfl | ⟨hplace, hkey⟩)
    · rfl
    · rw [← hplace, Function.update_eq_self, hplace, ← hkey, Function.update_eq_self]

end RaylsSuite.Foundation
