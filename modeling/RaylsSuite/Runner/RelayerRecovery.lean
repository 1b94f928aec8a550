import RaylsSuite.Foundation.Text
import Mathlib.Algebra.Order.Ring.Int
import Mathlib.Tactic.FinCases

/-! # Waiting for the relayers

`awaitRelayerRecovery` lists the running containers with `docker ps` until no
relayer in the list shows an uptime below a threshold. It reads the uptime with
a regular expression from the status column, which docker renders for humans.
-/

namespace RaylsSuite.Runner

open Foundation

/-! ## Reading a listing -/

/-- `MIN_UPTIME_MS`; `none` is NaN. -/
def MIN_UPTIME_MS (MIN_RELAYER_UPTIME_MS : Option String) : Option Int :=
  Text.parseInt (Text.orElse MIN_RELAYER_UPTIME_MS "120000")

def UNIT_MS : List (String × Int) :=
  [("second", 1000), ("minute", 60000), ("hour", 3600000), ("day", 86400000)]

/-- The match of `/Up (\d+) (second|minute|hour|day)/` at the start of a text: its digits, and
the milliseconds of its unit. No digit is a blank, so the longest run of digits is the only one
that can match. -/
def uptimeAt : List Char → Option (List Char × Int)
  | 'U' :: 'p' :: ' ' :: rest =>
      match rest.takeWhile Char.isDigit, rest.dropWhile Char.isDigit with
      | [], _ => none
      | digits, ' ' :: tail =>
          (UNIT_MS.find? fun unit => unit.1.toList.isPrefixOf tail).map fun unit =>
            (digits, unit.2)
      | _, _ => none
  | _ => none

/-- The first match in a text. -/
def matchUptime : List Char → Option (List Char × Int)
  | [] => none
  | char :: rest => (uptimeAt (char :: rest)).or (matchUptime rest)

/-- `parseInt(m[1]) * UNIT_MS[m[2]]`, when the status matches. -/
def uptimeMs (status : String) : Option Int :=
  (matchUptime status.toList).bind fun found =>
    (Text.parseInt (String.ofList found.1)).map fun count => count * found.2

structure Recent where
  name : String
  uptimeMs : Int
deriving DecidableEq, Repr

/-- One line of the listing; a comparison with a NaN threshold is false. -/
def recentOf (minUptimeMs : Option Int) (line : String) : Option Recent :=
  match Text.split line '\t' with
  | name :: status :: _ =>
      match uptimeMs status with
      | none => none
      | some uptime =>
          if minUptimeMs.any (uptime < ·) then some ⟨Text.trim name, uptime⟩ else none
  | _ => none

/-- `getRecent`, where no output is a failure of `docker ps`. -/
def getRecent (minUptimeMs : Option Int) : Option String → List Recent
  | none => []
  | some out =>
      ((Text.split out '\n').filter (Text.includes · "relayer-")).filterMap (recentOf minUptimeMs)

/-- The loop from a listing on: the number of the listing after which the function returns,
within a bound on the listings. -/
def pollFrom (recent : Nat → List Recent) : Nat → Nat → Option Nat
  | 0, _ => none
  | fuel + 1, listing =>
      if (recent listing).length = 0 then some listing else pollFrom recent fuel (listing + 1)

/-- The listing after which the function returns, when `docker ps` answers in turn with the
given outputs. -/
def awaitRelayerRecovery (MIN_RELAYER_UPTIME_MS : Option String) (outputs : Nat → Option String)
    (fuel : Nat) : Option Nat :=
  pollFrom (fun listing => getRecent (MIN_UPTIME_MS MIN_RELAYER_UPTIME_MS) (outputs listing))
    fuel 0

/-! ## What docker lists -/

/-- The hours of a duration, rounded to the nearest. -/
def roundedHours (ms : Nat) : Nat := (ms + 1800000) / 3600000

/-- Docker's text for a duration in milliseconds. -/
inductive HumanText (ms : Nat) : String → Prop where
  | lessThanASecond (hms : ms < 1000) : HumanText ms "Less than a second"
  | second (hlow : 1000 ≤ ms) (hhigh : ms < 2000) : HumanText ms "1 second"
  | seconds (hlow : 2000 ≤ ms) (hhigh : ms < 60000) : HumanText ms s!"{ms / 1000} seconds"
  | aboutAMinute (hlow : 60000 ≤ ms) (hhigh : ms < 120000) : HumanText ms "About a minute"
  | minutes (hlow : 120000 ≤ ms) (hhigh : ms < 3600000) : HumanText ms s!"{ms / 60000} minutes"
  | aboutAnHour (hlow : 3600000 ≤ ms) (hhigh : ms < 5400000) : HumanText ms "About an hour"
  | hours (hlow : 5400000 ≤ ms) (hhigh : roundedHours ms < 48) :
      HumanText ms s!"{roundedHours ms} hours"
  | days (hlow : 48 ≤ roundedHours ms) (hhigh : roundedHours ms < 336) :
      HumanText ms s!"{roundedHours ms / 24} days"
  | later (hlow : 336 ≤ roundedHours ms) (count : Nat) (unit : String)
      (hunit : unit ∈ ["weeks", "months", "years"]) : HumanText ms s!"{count} {unit}"

/-- Docker's rendering of durations. -/
structure HumanDuration where
  text : Nat → String
  human : ∀ ms, HumanText ms (text ms)

/-- What docker puts behind the uptime of a container that is up. -/
inductive StatusSuffix where
  | plain
  | healthy
  | unhealthy
  | starting
  | paused
deriving DecidableEq, Repr

def StatusSuffix.text : StatusSuffix → String
  | .plain => ""
  | .healthy => " (healthy)"
  | .unhealthy => " (unhealthy)"
  | .starting => " (health: starting)"
  | .paused => " (Paused)"

/-- A text that fits into one column of the listing. -/
structure Column where
  text : String
  noTab : '\t' ∉ text.toList
  noNewline : '\n' ∉ text.toList

/-- A container is up for some milliseconds, or has a status that does not say `Up`. -/
inductive ContainerState where
  | up (uptime : Nat) (suffix : StatusSuffix)
  | notUp (status : Column) (hstatus : Text.includes status.text "Up " = false)

structure Container where
  name : Column
  state : ContainerState

def Container.isRelayer (container : Container) : Bool :=
  Text.includes container.name.text "relayer-"

/-- At least the threshold has gone by since the container was started. -/
def ContainerState.Ready (minimum : Nat) : ContainerState → Prop
  | .up uptime _ => minimum ≤ uptime
  | .notUp _ _ => False

namespace HumanDuration

variable (docker : HumanDuration)

def status : ContainerState → String
  | .up uptime suffix => "Up " ++ docker.text uptime ++ suffix.text
  | .notUp status _ => status.text

def line (container : Container) : String :=
  container.name.text ++ "\t" ++ docker.status container.state

/-- `docker ps --format "\x7b\x7b.Names\x7d\x7d\t\x7b\x7b.Status\x7d\x7d"`. -/
def ps (containers : List Container) : String :=
  containers.foldr (fun container rest => docker.line container ++ "\n" ++ rest) ""

end HumanDuration

/-- The uptime that a plain count of seconds, minutes, hours or days stands for; other forms
have none. -/
def countedMs (ms : Nat) : Option Nat :=
  if 1000 ≤ ms ∧ ms < 60000 then some (ms / 1000 * 1000)
  else if 120000 ≤ ms ∧ ms < 3600000 then some (ms / 60000 * 60000)
  else if 5400000 ≤ ms ∧ roundedHours ms < 48 then some (roundedHours ms * 3600000)
  else if 48 ≤ roundedHours ms ∧ roundedHours ms < 336 then
    some (roundedHours ms / 24 * 86400000)
  else none

/-! ## What the regular expression reads -/

theorem uptimeAt_begins {chars : List Char} (hmatch : (uptimeAt chars).isSome = true) :
    "Up ".toList <:+: chars := by
  unfold uptimeAt at hmatch
  split at hmatch
  next rest => exact (List.prefix_append "Up ".toList rest).isInfix
  next => cases hmatch

/-- A status without `Up ` has no uptime. -/
theorem matchUptime_eq_none {chars : List Char} (hnone : ¬"Up ".toList <:+: chars) :
    matchUptime chars = none := by
  induction chars with
  | nil => rfl
  | cons char rest ih =>
      have hhead : uptimeAt (char :: rest) = none :=
        Option.not_isSome_iff_eq_none.mp fun hmatch => hnone (uptimeAt_begins hmatch)
      rw [matchUptime, hhead, Option.none_or]
      exact ih fun htail => hnone (htail.trans (List.suffix_cons char rest).isInfix)

/-- The search goes on after the first word only if there is another capital letter. -/
theorem matchUptime_up {rest : List Char} (hrest : 'U' ∉ rest) :
    matchUptime ('U' :: 'p' :: ' ' :: rest) = uptimeAt ('U' :: 'p' :: ' ' :: rest) := by
  have hnone : matchUptime ('p' :: ' ' :: rest) = none := by
    apply matchUptime_eq_none
    intro hpart
    have hmem : 'U' ∈ 'p' :: ' ' :: rest := hpart.subset (by decide)
    simp [hrest] at hmem
  rw [matchUptime, hnone, Option.or_none]

theorem uptimeAt_count (count : Nat) (tail : List Char) :
    uptimeAt ('U' :: 'p' :: ' ' :: (count.repr.toList ++ ' ' :: tail)) =
      (UNIT_MS.find? fun unit => unit.1.toList.isPrefixOf tail).map fun unit =>
        (count.repr.toList, unit.2) := by
  have hdigits : ∀ char ∈ count.repr.toList, char.isDigit = true :=
    fun _ => Text.isDigit_of_mem_repr
  have htake : (count.repr.toList ++ ' ' :: tail).takeWhile Char.isDigit =
      count.repr.toList := by
    rw [List.takeWhile_append_of_pos hdigits, List.takeWhile_cons_of_neg (by decide),
      List.append_nil]
  have hdrop : (count.repr.toList ++ ' ' :: tail).dropWhile Char.isDigit = ' ' :: tail := by
    rw [List.dropWhile_append_of_pos hdigits, List.dropWhile_cons_of_neg (by decide)]
  simp only [uptimeAt, htake, hdrop]
  split
  next hempty => exact absurd (Nat.toList_repr ▸ hempty) Nat.toDigits_ne_nil
  next other heq _ =>
    obtain rfl : tail = other := (List.cons.inj heq).2
    rfl
  next hother => exact absurd rfl (hother tail)

theorem capital_notMem_repr (count : Nat) : 'U' ∉ count.repr.toList := by
  intro hmem
  have hdigit := Text.isDigit_of_mem_repr hmem
  simp [Char.isDigit] at hdigit

/-- A count is read as the milliseconds of its unit. -/
theorem uptimeMs_count (count : Nat) (tail : String) (htail : 'U' ∉ tail.toList) :
    uptimeMs ("Up " ++ (toString count ++ " " ++ tail)) =
      (UNIT_MS.find? fun unit => unit.1.toList.isPrefixOf tail.toList).map fun unit =>
        (count : Int) * unit.2 := by
  have hchars : ("Up " ++ (toString count ++ " " ++ tail)).toList =
      'U' :: 'p' :: ' ' :: (count.repr.toList ++ ' ' :: tail.toList) := by
    simp only [String.toList_append, toString, List.append_assoc]
    rfl
  have hrest : 'U' ∉ count.repr.toList ++ ' ' :: tail.toList := by
    rw [List.mem_append, List.mem_cons, not_or, not_or]
    exact ⟨capital_notMem_repr count, by decide, htail⟩
  rw [uptimeMs, hchars, matchUptime_up hrest, uptimeAt_count]
  cases UNIT_MS.find? fun unit => unit.1.toList.isPrefixOf tail.toList with
  | none => rfl
  | some unit =>
      simp only [Option.map_some, Option.bind_some, String.ofList_toList, Text.parseInt_repr]

/-- What docker puts behind a text brings no capital letter in that begins another match. -/
theorem capital_notMem_tail {words : String} (hwords : 'U' ∉ words.toList)
    (suffix : StatusSuffix) : 'U' ∉ (words ++ suffix.text).toList := by
  rw [String.toList_append, List.mem_append, not_or]
  refine ⟨hwords, ?_⟩
  cases suffix <;> decide

/-- A phrase without a count is not read, whatever docker puts behind it. -/
theorem uptimeMs_phrase {phrase : String}
    (hphrase : phrase = "Less than a second" ∨ phrase = "About a minute" ∨
      phrase = "About an hour") (suffix : StatusSuffix) :
    uptimeMs ("Up " ++ phrase ++ suffix.text) = none := by
  have hrest : 'U' ∉ (phrase ++ suffix.text).toList := by
    rcases hphrase with rfl | rfl | rfl <;> exact capital_notMem_tail (by decide) suffix
  have hchars : ("Up " ++ phrase ++ suffix.text).toList =
      'U' :: 'p' :: ' ' :: (phrase ++ suffix.text).toList := by
    rw [String.append_assoc, String.toList_append]
    rfl
  rw [uptimeMs, hchars, matchUptime_up hrest, String.toList_append]
  -- the first character is not a digit
  rcases hphrase with rfl | rfl | rfl <;> rfl

theorem uptimeMs_unit (count : Nat) {unit : String} {factor : Int}
    (hunit : (unit, factor) ∈ [("second", 1000), ("seconds", 1000), ("minutes", 60000),
      ("hours", 3600000), ("days", 86400000)]) (suffix : StatusSuffix) :
    uptimeMs ("Up " ++ (toString count ++ " " ++ (unit ++ suffix.text))) =
      some (count * factor) := by
  simp only [List.mem_cons, Prod.mk.injEq, List.not_mem_nil, or_false] at hunit
  rw [uptimeMs_count, String.toList_append]
  · rcases hunit with ⟨rfl, rfl⟩ | ⟨rfl, rfl⟩ | ⟨rfl, rfl⟩ | ⟨rfl, rfl⟩ | ⟨rfl, rfl⟩ <;> rfl
  · rcases hunit with ⟨rfl, -⟩ | ⟨rfl, -⟩ | ⟨rfl, -⟩ | ⟨rfl, -⟩ | ⟨rfl, -⟩ <;>
      exact capital_notMem_tail (by decide) suffix

theorem uptimeMs_later (count : Nat) {unit : String} (hunit : unit ∈ ["weeks", "months", "years"])
    (suffix : StatusSuffix) :
    uptimeMs ("Up " ++ (toString count ++ " " ++ (unit ++ suffix.text))) = none := by
  simp only [List.mem_cons, List.not_mem_nil, or_false] at hunit
  rw [uptimeMs_count, String.toList_append]
  · rcases hunit with rfl | rfl | rfl <;> rfl
  · rcases hunit with rfl | rfl | rfl <;> exact capital_notMem_tail (by decide) suffix

theorem countedText (count : Nat) (unit : String) (suffix : StatusSuffix) :
    "Up " ++ (toString count ++ (" " ++ unit)) ++ suffix.text =
      "Up " ++ (toString count ++ " " ++ (unit ++ suffix.text)) := by
  simp only [String.append_assoc]

/-- The code reads the counts of docker's texts and nothing else. -/
theorem uptimeMs_up (docker : HumanDuration) (ms : Nat) (suffix : StatusSuffix) :
    uptimeMs (docker.status (.up ms suffix)) = (countedMs ms).map Int.ofNat := by
  have hhours : roundedHours ms = (ms + 1800000) / 3600000 := rfl
  have hcounted : ∀ (count : Nat) (unit : String) (factor : Nat),
      (unit, (factor : Int)) ∈ [("second", (1000 : Int)), ("seconds", 1000), ("minutes", 60000),
        ("hours", 3600000), ("days", 86400000)] →
      countedMs ms = some (count * factor) →
      uptimeMs ("Up " ++ (toString count ++ (" " ++ unit)) ++ suffix.text) =
        (countedMs ms).map Int.ofNat := by
    intro count unit factor hunit heq
    rw [countedText, uptimeMs_unit count hunit, heq, Option.map_some]
    simp
  simp only [HumanDuration.status]
  generalize docker.text ms = text, docker.human ms = htext
  cases htext with
  | lessThanASecond hms =>
      rw [uptimeMs_phrase (Or.inl rfl), countedMs, if_neg (by omega), if_neg (by omega),
        if_neg (by omega), if_neg (by omega), Option.map_none]
  | second hlow hhigh =>
      have hsecond : ms / 1000 * 1000 = 1 * 1000 := by omega
      refine hcounted 1 "second" 1000 (by decide) ?_
      rw [countedMs, if_pos (by omega), hsecond]
  | seconds hlow hhigh =>
      apply hcounted (ms / 1000) "seconds" 1000 (by decide)
      rw [countedMs, if_pos (by omega)]
  | aboutAMinute hlow hhigh =>
      rw [uptimeMs_phrase (Or.inr (Or.inl rfl)), countedMs, if_neg (by omega), if_neg (by omega),
        if_neg (by omega), if_neg (by omega), Option.map_none]
  | minutes hlow hhigh =>
      apply hcounted (ms / 60000) "minutes" 60000 (by decide)
      rw [countedMs, if_neg (by omega), if_pos (by omega)]
  | aboutAnHour hlow hhigh =>
      rw [uptimeMs_phrase (Or.inr (Or.inr rfl)), countedMs, if_neg (by omega), if_neg (by omega),
        if_neg (by omega), if_neg (by omega), Option.map_none]
  | hours hlow hhigh =>
      apply hcounted (roundedHours ms) "hours" 3600000 (by decide)
      rw [countedMs, if_neg (by omega), if_neg (by omega), if_pos (by omega)]
  | days hlow hhigh =>
      apply hcounted (roundedHours ms / 24) "days" 86400000 (by decide)
      rw [countedMs, if_neg (by omega), if_neg (by omega), if_neg (by omega), if_pos (by omega)]
  | later hlow count unit hunit =>
      rw [countedMs, if_neg (by omega), if_neg (by omega), if_neg (by omega), if_neg (by omega)]
      refine (congrArg uptimeMs ?_).trans (uptimeMs_later count hunit suffix)
      exact (congrArg (fun text => "Up " ++ text ++ suffix.text) (String.append_assoc ..)).trans
        (countedText count unit suffix)

theorem uptimeMs_notUp (docker : HumanDuration) (status : Column)
    (hstatus : Text.includes status.text "Up " = false) :
    uptimeMs (docker.status (.notUp status hstatus)) = none := by
  rw [uptimeMs, HumanDuration.status, matchUptime_eq_none (of_decide_eq_false hstatus)]
  rfl

/-! ## Lines and columns -/

theorem plain_of_lacks {words : String}
    (hlacks : '\t' ∉ words.toList ∧ '\n' ∉ words.toList ∧ '-' ∉ words.toList) {char : Char}
    (hchar : char ∈ ['\t', '\n', '-']) : char ∉ words.toList := by
  simp only [List.mem_cons, List.not_mem_nil, or_false] at hchar
  rcases hchar with rfl | rfl | rfl
  · exact hlacks.1
  · exact hlacks.2.1
  · exact hlacks.2.2

/-- What separates columns and lines, and what the name of a relayer ends its role with. -/
theorem HumanText.plain {ms : Nat} {text : String} (htext : HumanText ms text) {char : Char}
    (hchar : char ∈ ['\t', '\n', '-']) : char ∉ text.toList := by
  have hcounted : ∀ (count : Nat) (unit : String), char ∉ unit.toList →
      char ∉ (toString count ++ unit).toList := by
    intro count unit hunit hmem
    rw [String.toList_append] at hmem
    rcases List.mem_append.mp hmem with hdigit | htail
    · have hisDigit := Text.isDigit_of_mem_repr hdigit
      fin_cases hchar <;> cases hisDigit
    · exact hunit htail
  cases htext with
  | lessThanASecond => exact plain_of_lacks (by decide) hchar
  | second => exact plain_of_lacks (by decide) hchar
  | aboutAMinute => exact plain_of_lacks (by decide) hchar
  | aboutAnHour => exact plain_of_lacks (by decide) hchar
  | seconds => exact hcounted _ " seconds" (plain_of_lacks (by decide) hchar)
  | minutes => exact hcounted _ " minutes" (plain_of_lacks (by decide) hchar)
  | hours => exact hcounted _ " hours" (plain_of_lacks (by decide) hchar)
  | days => exact hcounted _ " days" (plain_of_lacks (by decide) hchar)
  | later hlow count unit hunit =>
      refine (String.append_assoc .. : _ = toString count ++ (" " ++ unit)) ▸
        hcounted count (" " ++ unit) ?_
      simp only [List.mem_cons, List.not_mem_nil, or_false] at hunit
      rcases hunit with rfl | rfl | rfl <;> exact plain_of_lacks (by decide) hchar

theorem status_up_plain (docker : HumanDuration) (ms : Nat) (suffix : StatusSuffix) {char : Char}
    (hchar : char ∈ ['\t', '\n', '-']) :
    char ∉ (docker.status (.up ms suffix)).toList := by
  simp only [HumanDuration.status, String.toList_append, List.mem_append, not_or]
  refine ⟨⟨?_, (docker.human ms).plain hchar⟩, ?_⟩
  · exact plain_of_lacks (by decide) hchar
  · cases suffix <;> exact plain_of_lacks (by decide) hchar

theorem status_plain (docker : HumanDuration) (state : ContainerState) :
    '\t' ∉ (docker.status state).toList ∧ '\n' ∉ (docker.status state).toList := by
  cases state with
  | up ms suffix =>
      exact ⟨status_up_plain docker ms suffix (by decide),
        status_up_plain docker ms suffix (by decide)⟩
  | notUp status hstatus => exact ⟨status.noTab, status.noNewline⟩

theorem split_line (docker : HumanDuration) (container : Container) :
    Text.split (docker.line container) '\t' =
      [container.name.text, docker.status container.state] := by
  refine (Text.split_append_cons container.name.noTab _).trans ?_
  rw [Text.split_eq_singleton (status_plain docker container.state).1]

theorem newline_notMem_line (docker : HumanDuration) (container : Container) :
    '\n' ∉ (docker.line container).toList := by
  simp only [HumanDuration.line, String.toList_append, List.mem_append, not_or]
  exact ⟨⟨container.name.noNewline, by decide⟩, (status_plain docker container.state).2⟩

theorem split_ps (docker : HumanDuration) (containers : List Container) :
    Text.split (docker.ps containers) '\n' = containers.map docker.line ++ [""] := by
  induction containers with
  | nil => rfl
  | cons container rest ih =>
      refine (Text.split_append_cons (newline_notMem_line docker container) _).trans ?_
      rw [List.map_cons, List.cons_append]
      exact congrArg _ ih

end RaylsSuite.Runner
