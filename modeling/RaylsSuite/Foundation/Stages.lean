import RaylsSuite.Foundation.Dialogue

/-! # Staged dialogues

The requests of a program fall into stages that follow one another, and within
a stage a request is repeated only while it changes nothing.
-/

namespace RaylsSuite.Foundation

universe u v w

/-- The stage to which an event belongs, and whether it changed something. -/
structure Staging (Event : Type u) where
  stage : Event → Nat
  Changes : Event → Prop

namespace Staging

variable {Event : Type u} {Other : Type v} {staging : Staging Event} {other : Staging Other}
  {said rest : List Event} {event : Event} {low middle high n : Nat}

/-- An event may come before another one: it belongs to an earlier stage, or it changed nothing
and is tried again. -/
def Precedes (staging : Staging Event) (earlier later : Event) : Prop :=
  staging.stage earlier < staging.stage later ∨
    staging.stage earlier = staging.stage later ∧ ¬staging.Changes earlier

/-- A part of a dialogue with the stages from `low` to before `high`, in order. -/
structure Within (staging : Staging Event) (low high : Nat) (said : List Event) : Prop where
  staged : said.Pairwise staging.Precedes
  bounds : ∀ event ∈ said, low ≤ staging.stage event ∧ staging.stage event < high

/-- Attempts of one stage that change nothing. -/
def Idle (staging : Staging Event) (n : Nat) (said : List Event) : Prop :=
  ∀ event ∈ said, staging.stage event = n ∧ ¬staging.Changes event

theorem Within.nil : staging.Within low high [] :=
  ⟨List.Pairwise.nil, fun _ hevent => absurd hevent List.not_mem_nil⟩

theorem Within.singleton (hevent : staging.stage event = n) :
    staging.Within n (n + 1) [event] := by
  refine ⟨List.pairwise_singleton _ _, fun _ hmem => ?_⟩
  rw [List.mem_singleton.mp hmem, hevent]
  exact ⟨Nat.le_refl n, Nat.lt_succ_self n⟩

theorem Within.mono {low' high' : Nat} (hsaid : staging.Within low high said) (hlow : low' ≤ low)
    (hhigh : high ≤ high') : staging.Within low' high' said :=
  ⟨hsaid.staged, fun event hevent => ⟨Nat.le_trans hlow (hsaid.bounds event hevent).1,
    Nat.lt_of_lt_of_le (hsaid.bounds event hevent).2 hhigh⟩⟩

/-- The stages of two parts of a dialogue follow one another. -/
theorem Within.append (hsaid : staging.Within low middle said)
    (hrest : staging.Within middle high rest) (hlow : low ≤ middle) (hhigh : middle ≤ high) :
    staging.Within low high (said ++ rest) where
  staged := by
    refine List.pairwise_append.mpr ⟨hsaid.staged, hrest.staged, ?_⟩
    intro earlier hearlier later hlater
    exact .inl (Nat.lt_of_lt_of_le (hsaid.bounds earlier hearlier).2
      (hrest.bounds later hlater).1)
  bounds event hevent := by
    rcases List.mem_append.mp hevent with hevent | hevent
    · exact (hsaid.mono (Nat.le_refl low) hhigh).bounds event hevent
    · exact (hrest.mono hlow (Nat.le_refl high)).bounds event hevent

/-- What is idle stays within its stage. -/
theorem Idle.within (hidle : staging.Idle n said) : staging.Within n (n + 1) said where
  staged := by
    refine List.pairwise_of_forall_mem_list fun earlier hearlier later hlater => ?_
    obtain ⟨hstage, hsilent⟩ := hidle earlier hearlier
    exact .inr ⟨hstage.trans (hidle later hlater).1.symm, hsilent⟩
  bounds event hevent := by
    rw [(hidle event hevent).1]
    exact ⟨Nat.le_refl n, Nat.lt_succ_self n⟩

/-- Attempts of a stage may be followed by one that changes something. -/
theorem Idle.concat (hidle : staging.Idle n said) (hevent : staging.stage event = n) :
    staging.Within n (n + 1) (said ++ [event]) where
  staged := by
    refine List.pairwise_append.mpr ⟨hidle.within.staged, List.pairwise_singleton _ _, ?_⟩
    intro earlier hearlier later hlater
    rw [List.mem_singleton.mp hlater]
    obtain ⟨hstage, hsilent⟩ := hidle earlier hearlier
    exact .inr ⟨hstage.trans hevent.symm, hsilent⟩
  bounds later hlater := by
    rcases List.mem_append.mp hlater with hlater | hlater
    · exact hidle.within.bounds later hlater
    · exact (Within.singleton hevent).bounds later hlater

/-- The part of a dialogue within one with more stages before it. -/
theorem Within.map {embed : Event → Other} {shift : Nat} (hsaid : staging.Within low high said)
    (hstage : ∀ event, other.stage (embed event) = shift + staging.stage event)
    (hchanges : ∀ event, other.Changes (embed event) → staging.Changes event) :
    other.Within (shift + low) (shift + high) (said.map embed) where
  staged := by
    refine List.pairwise_map.mpr (hsaid.staged.imp fun {earlier later} hprecedes => ?_)
    unfold Precedes at hprecedes ⊢
    rw [hstage, hstage]
    rcases hprecedes with hearlier | ⟨hsame, hsilent⟩
    · exact .inl (Nat.add_lt_add_left hearlier shift)
    · exact .inr ⟨congrArg _ hsame, fun hchanged => hsilent (hchanges earlier hchanged)⟩
  bounds event hevent := by
    obtain ⟨inner, hinner, rfl⟩ := List.mem_map.mp hevent
    obtain ⟨hlow, hhigh⟩ := hsaid.bounds inner hinner
    rw [hstage]
    exact ⟨Nat.add_le_add_left hlow shift, Nat.add_lt_add_left hhigh shift⟩

/-- After an event that changed something come only later stages. -/
theorem exists_split (hstaged : said.Pairwise staging.Precedes) (hevent : event ∈ said)
    (hchanged : staging.Changes event) : ∃ before after, said = before ++ event :: after ∧
      ∀ later ∈ after, staging.stage event < staging.stage later := by
  obtain ⟨before, after, rfl⟩ := List.append_of_mem hevent
  refine ⟨before, after, rfl, fun later hlater => ?_⟩
  have hafter := (List.pairwise_cons.mp (List.pairwise_append.mp hstaged).2.1).1 later hlater
  exact hafter.resolve_right fun hagain => hagain.2 hchanged

/-- Two programs in sequence have the stages of the first one before those of the second. -/
theorem Within.of_then {ε α β : Type w} {first : Dialogue.Law Event ε α}
    {second : α → Dialogue.Law Event ε β} {outcome : Except ε β}
    (hlaw : first.Then second outcome said)
    (hfirst : ∀ outcome said, first outcome said → staging.Within low middle said)
    (hsecond : ∀ value outcome said, second value outcome said →
      staging.Within middle high said) (hlow : low ≤ middle) (hhigh : middle ≤ high) :
    staging.Within low high said := by
  cases hlaw with
  | failed herror => exact (hfirst _ _ herror).mono (Nat.le_refl low) hhigh
  | went hvalue hrest =>
      exact (hfirst _ _ hvalue).append (hsecond _ _ _ hrest) hlow hhigh

end Staging

end RaylsSuite.Foundation
