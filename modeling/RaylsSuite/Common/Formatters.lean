import RaylsSuite.Foundation.Text

/-! # Names of contracts and factories -/

namespace RaylsSuite.Common

open Foundation

/-- The name of a contract, given its own name or its factory's. -/
def formatFactoryName (name : String) : String :=
  if Text.endsWith name "__factory" then Text.dropRight name "__factory".length else name

/-- A name with another ending is kept. -/
theorem formatFactoryName_append (name suffix : String) {last : Char}
    (hlast : suffix.toList.getLast? = some last) (hother : last ≠ 'y') :
    formatFactoryName (name ++ suffix) = name ++ suffix := by
  refine if_neg ?_
  rw [Text.endsWith, decide_eq_true_eq]
  rintro ⟨front, heq⟩
  have hfactory := congrArg List.getLast? heq
  rw [String.toList_append, List.getLast?_append, List.getLast?_append, hlast] at hfactory
  exact hother (Option.some.inj hfactory).symm

/-- `shortHex` with its default window, which every caller takes. -/
def shortHex (s : String) : String :=
  if Text.startsWith s "0x" = false then s
  else if s.toList.length ≤ 2 + 8 + 4 + 1 then s
  else s!"{Text.takeLeft s 10}…{Text.takeRight s 4}"

example : shortHex "0x0123456789abcdef" = "0x01234567…cdef" := by decide

end RaylsSuite.Common
