import Mathlib.Algebra.Order.Ring.Rat
import Mathlib.Order.WithBot
import RaylsSuite.Foundation.StableSort
import RaylsSuite.Runner.Configuration

/-! # The order of the queue

The comparator of `_sortByExpectedDuration` subtracts durations of which some
are infinite: it gives NaN for two files without a hint, and an infinity for one
of them and a hinted file. It orders all files even so, and a stable sort with it
puts the files without a hint first and the others by falling duration.
-/

namespace RaylsSuite.Runner

open Foundation

variable {hints : DurationHints} {files : List String}

/-- The comparator that `_sortByExpectedDuration` passes to `sort`. -/
def compareDurations (hints : DurationHints) (a b : String) : Number :=
  hints.expected b - hints.expected a

theorem sortByExpectedDuration_eq (hints : DurationHints) (files : List String) :
    sortByExpectedDuration hints files = sortBy (compareDurations hints) files := rfl

def DurationHints.hint (hints : DurationHints) (file : String) : Option ℚ := hints (basename file)

/-- The duration that a file is ordered by, where a missing one exceeds the others. -/
def DurationHints.key (hints : DurationHints) (file : String) : WithTop ℚ :=
  match hints.hint file with
  | some duration => duration
  | none => ⊤

theorem compareDurations_isPositive (a b : String) :
    (compareDurations hints a b).isPositive = true ↔ hints.key a < hints.key b := by
  simp only [compareDurations, DurationHints.expected, DurationHints.key, DurationHints.hint]
  cases hints (basename a) <;> cases hints (basename b) <;>
    simp [HSub.hSub, Sub.sub, Number.sub, Number.isPositive]
  exact sub_pos

theorem compareDurations_isNegative (a b : String) :
    (compareDurations hints a b).isNegative = true ↔ hints.key b < hints.key a := by
  simp only [compareDurations, DurationHints.expected, DurationHints.key, DurationHints.hint]
  cases hints (basename a) <;> cases hints (basename b) <;>
    simp [HSub.hSub, Sub.sub, Number.sub, Number.isNegative]
  exact sub_neg

theorem compareDurations_consistent (hints : DurationHints) :
    ConsistentComparator (compareDurations hints) :=
  .of_key (fun file => OrderDual.toDual (hints.key file)) compareDurations_isPositive
    compareDurations_isNegative

/-- Two files tie exactly when the hints say the same of both. -/
theorem ties_compareDurations (a b : String) :
    ties (compareDurations hints) a b = true ↔ hints.hint a = hints.hint b := by
  have hties : ties (compareDurations hints) a b = true ↔ hints.key a = hints.key b := by
    rw [ties, Bool.and_eq_true, Bool.not_eq_true', Bool.not_eq_true', ← Bool.not_eq_true,
      ← Bool.not_eq_true, compareDurations_isPositive, compareDurations_isPositive, not_lt, not_lt]
    exact ⟨fun hle => le_antisymm hle.2 hle.1, fun heq => ⟨heq.ge, heq.le⟩⟩
  rw [hties, DurationHints.key, DurationHints.key]
  cases hints.hint a <;> cases hints.hint b <;> simp

/-! ## Longest first -/

/-- The files of a queue stand in the order of their hints: those without a hint first, as
they were listed, then the others from the longest to the shortest, and files of one
duration as they were listed. -/
structure LongestFirst (hints : DurationHints) (files queue : List String) : Prop where
  perm : queue.Perm files
  split : queue = queue.filter (fun file => (hints.hint file).isNone) ++
    queue.filter fun file => (hints.hint file).isSome
  unknown : queue.filter (fun file => (hints.hint file).isNone) =
    files.filter fun file => (hints.hint file).isNone
  falling : (queue.filterMap hints.hint).Pairwise (· ≥ ·)
  equal : ∀ duration, queue.filter (fun file => hints.hint file = some duration) =
    files.filter fun file => hints.hint file = some duration

/-- A list with no element of one kind behind one of the other. -/
theorem eq_filter_append_filter {α : Type} {p : α → Bool} {list : List α}
    (hsorted : list.Pairwise fun a b => p b = true → p a = true) :
    list = list.filter p ++ list.filter fun a => !p a := by
  induction list with
  | nil => rfl
  | cons a rest ih =>
      rw [List.pairwise_cons] at hsorted
      cases hp : p a with
      | true => simpa [hp] using ih hsorted.2
      | false =>
          have hnone : ∀ b ∈ rest, p b = false := by
            intro b hmem
            rw [← Bool.not_eq_true]
            exact fun hpb => Bool.false_ne_true (hp.symm.trans (hsorted.1 b hmem hpb))
          simp only [List.filter_cons, hp, Bool.false_eq_true, if_false, Bool.not_false, if_true,
            List.filter_eq_nil_iff.mpr fun b hmem => (Bool.not_eq_true _).mpr (hnone b hmem)]
          rw [List.filter_eq_self.mpr fun b hmem => by simp [hnone b hmem]]
          rfl

/-- What a stable sort with the comparator makes of the files. -/
theorem longestFirst_of_stablySorted {queue : List String}
    (hsorted : StablySorted (compareDurations hints) files queue) :
    LongestFirst hints files queue := by
  have hkeys : queue.Pairwise fun a b => hints.key b ≤ hints.key a := by
    refine hsorted.sorted.imp fun {a b} hbehind => ?_
    rw [← Bool.not_eq_true, compareDurations_isPositive, not_lt] at hbehind
    exact hbehind
  have hclass : ∀ hint : Option ℚ, queue.filter (fun file => hints.hint file = hint) =
      files.filter fun file => hints.hint file = hint := by
    intro hint
    by_cases hheld : ∃ file ∈ files, hints.hint file = hint
    · obtain ⟨file, -, rfl⟩ := hheld
      have hties : (fun other => decide (hints.hint other = hints.hint file)) =
          ties (compareDurations hints) file := by
        funext other
        rw [Bool.eq_iff_iff, decide_eq_true_iff, ties_compareDurations, eq_comm]
      rw [hties]
      exact hsorted.stable file
    · -- no file has this hint, so both classes are empty
      have hnone : ∀ file ∈ files, ¬hints.hint file = hint :=
        fun file hmem heq => hheld ⟨file, hmem, heq⟩
      rw [List.filter_eq_nil_iff.mpr fun file hmem => by
          simpa using hnone file (hsorted.perm.mem_iff.mp hmem),
        List.filter_eq_nil_iff.mpr fun file hmem => by simpa using hnone file hmem]
  refine ⟨hsorted.perm, ?_, ?_, ?_, fun duration => hclass (some duration)⟩
  · have hfront : queue.Pairwise fun a b =>
        (hints.hint b).isNone = true → (hints.hint a).isNone = true := by
      refine hkeys.imp fun {a b} hle hb => ?_
      simp only [DurationHints.key, Option.isNone_iff_eq_none.mp hb, top_le_iff] at hle
      cases ha : hints.hint a with
      | none => rfl
      | some duration => simp [ha] at hle
    simpa using eq_filter_append_filter hfront
  · have hnone : (fun file => (hints.hint file).isNone) = fun file => hints.hint file = none := by
      funext file
      rw [Bool.eq_iff_iff, Option.isNone_iff_eq_none, decide_eq_true_iff]
    rw [hnone]
    exact hclass none
  · rw [List.pairwise_filterMap]
    refine hkeys.imp fun {a b} hle first hfirst second hsecond => ?_
    simpa [DurationHints.key, hfirst, hsecond] using hle

/-- For every list of files and all hints: the comparator orders the files, and the queue, as
every stable sort with the comparator, has the longest first. -/
theorem sortByExpectedDuration_longestFirst (hints : DurationHints) (files : List String) :
    ConsistentComparator (compareDurations hints) ∧
      StablySorted (compareDurations hints) files (sortByExpectedDuration hints files) ∧
      LongestFirst hints files (sortByExpectedDuration hints files) ∧
      ∀ queue, StablySorted (compareDurations hints) files queue →
        queue = sortByExpectedDuration hints files := by
  have hconsistent := compareDurations_consistent hints
  have hsorted := sortBy_stablySorted hconsistent files
  rw [sortByExpectedDuration_eq]
  refine ⟨hconsistent, hsorted, longestFirst_of_stablySorted hsorted, fun queue hqueue => ?_⟩
  exact StablySorted.unique hconsistent hqueue hsorted

end RaylsSuite.Runner
