import Mathlib.Data.List.SplitBy

/-! # Maximal runs of a value

A list falls apart into maximal runs of equal elements. Counting those of one
value takes no more than the last element: the count grows when the value comes
and the list does not end in it already.
-/

namespace RaylsSuite.Foundation

universe u

variable {α : Type u} [DecidableEq α]

/-- How many maximal runs of the value the list has. -/
def runsOf (a : α) (list : List α) : Nat :=
  (list.splitBy (· == ·)).countP fun run => run.head? = some a

variable {a b : α} {list : List α}

/-- Another value than the last one begins a run. -/
theorem splitBy_concat_of_ne (hlast : list.getLast? ≠ some b) :
    (list ++ [b]).splitBy (· == ·) = list.splitBy (· == ·) ++ [[b]] := by
  refine List.splitBy_append_cons [] ?_
  intro c hc
  rw [beq_eq_false_iff_ne]
  rintro rfl
  exact hlast hc

/-- The last value again makes the last run longer. -/
theorem splitBy_concat_of_eq (hlast : list.getLast? = some b) :
    ∃ front run, run ≠ [] ∧ list.splitBy (· == ·) = front ++ [run] ∧
      (list ++ [b]).splitBy (· == ·) = front ++ [run ++ [b]] := by
  have hne : list ≠ [] := by
    rintro rfl
    cases hlast
  have hruns : list.splitBy (· == ·) ≠ [] := List.splitBy_ne_nil.mpr hne
  obtain ⟨hflat, hnil, hchain, hbetween⟩ :=
    List.splitBy_eq_iff.mp (rfl : list.splitBy (· == ·) = list.splitBy (· == ·))
  generalize list.splitBy (· == ·) = runs at hruns hflat hnil hchain hbetween ⊢
  obtain ⟨front, run, rfl⟩ := (List.eq_nil_or_concat' runs).resolve_left hruns
  have hrun : run ≠ [] := by
    rintro rfl
    exact hnil (by simp)
  have hend : run.getLast? = some b := by
    rw [hflat, List.flatten_append, List.flatten_singleton,
      List.getLast?_append_of_ne_nil _ hrun] at hlast
    exact hlast
  refine ⟨front, run, hrun, rfl, List.splitBy_eq_iff.mpr ⟨?_, ?_, ?_, ?_⟩⟩
  · rw [hflat]
    simp
  · simpa [hrun] using hnil
  · intro member hmember
    rcases List.mem_append.mp hmember with hfront | hsingle
    · exact hchain member (List.mem_append_left _ hfront)
    · obtain rfl := List.mem_singleton.mp hsingle
      refine List.isChain_append.mpr ⟨hchain run (by simp), List.isChain_singleton _, ?_⟩
      intro last hmem next hnext
      obtain rfl := Option.some.inj (hend.symm.trans hmem)
      obtain rfl := Option.some.inj hnext
      exact beq_self_eq_true _
  · -- the head of the last run stays, and with it what it differs from
    rw [List.isChain_append] at hbetween ⊢
    refine ⟨hbetween.1, List.isChain_singleton _, fun last hmem next hnext => ?_⟩
    obtain rfl := Option.some.inj hnext
    obtain ⟨hleft, _, hdiffers⟩ := hbetween.2.2 last hmem run rfl
    refine ⟨hleft, by simp, ?_⟩
    rw [List.head_append_of_ne_nil hrun]
    exact hdiffers

/-- A value starts a run where the last one was another. -/
theorem runsOf_concat (a b : α) (list : List α) :
    runsOf a (list ++ [b]) =
      runsOf a list + if b = a ∧ list.getLast? ≠ some a then 1 else 0 := by
  by_cases hlast : list.getLast? = some b
  · obtain ⟨front, run, hrun, hsplit, hconcat⟩ := splitBy_concat_of_eq hlast
    have hhead : (run ++ [b]).head? = run.head? := List.head?_append_of_ne_nil _ hrun
    have hgoes : ¬(b = a ∧ list.getLast? ≠ some a) := by
      rintro ⟨rfl, hne⟩
      exact hne hlast
    rw [runsOf, runsOf, hsplit, hconcat, List.countP_append, List.countP_append,
      List.countP_singleton, List.countP_singleton, hhead, if_neg hgoes, Nat.add_zero]
  · have hfirst : (b = a ∧ list.getLast? ≠ some a) ↔ b = a := by
      refine and_iff_left_of_imp ?_
      rintro rfl
      exact hlast
    rw [runsOf, splitBy_concat_of_ne hlast, List.countP_append, List.countP_singleton]
    simp only [hfirst, List.head?_cons, Option.some.injEq, decide_eq_true_eq]
    rfl

end RaylsSuite.Foundation
