import Mathlib.Data.List.Basic

/-! # The load bookkeeping of the logger

Every other method of the logger only prints.
-/

namespace RaylsSuite.Entities

/-- The logger's state; an active load keeps its message. -/
structure Logger where
  activeLoads : List (Nat × String)
  nextLoadId : Nat
deriving DecidableEq, Repr

namespace Logger

def new : Logger := ⟨[], 0⟩

def load (logger : Logger) (message : String) : Nat × Logger :=
  (logger.nextLoadId, ⟨logger.activeLoads ++ [(logger.nextLoadId, message)], logger.nextLoadId + 1⟩)

/-- Forget the load; an unknown id changes nothing. -/
def finishLoad (logger : Logger) (loadId : Nat) : Logger :=
  { logger with activeLoads := logger.activeLoads.filter fun entry => entry.1 ≠ loadId }

def loadSuccess (logger : Logger) (loadId : Nat) : Logger := logger.finishLoad loadId

def loadError (logger : Logger) (loadId : Nat) : Logger := logger.finishLoad loadId

end Logger

end RaylsSuite.Entities
