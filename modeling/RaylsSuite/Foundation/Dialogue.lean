import Mathlib.Data.List.Basic

/-! # Dialogues

A program that talks to its surroundings records what was said. A law relates
the outcome of a program with what it said, whatever the surroundings answer;
the laws of a program's parts compose to one of the program.
-/

namespace RaylsSuite.Foundation

universe u v w

/-- The surroundings of a program and what was said to them so far. -/
structure Dialogue (World : Type u) (Event : Type v) where
  world : World
  said : List Event

namespace Dialogue

variable {World : Type u} {Event Other : Type v} {ε : Type w} {α β : Type w}

/-- A program of a dialogue: it ends with a value or an error. -/
abbrev Program (World : Type u) (Event : Type v) (ε α : Type w) :=
  Dialogue World Event → Except ε α × Dialogue World Event

abbrev Law (Event : Type v) (ε α : Type w) := Except ε α → List Event → Prop

/-- In every dialogue the program's outcome and what it says satisfy the law. -/
def Obeys (program : Program World Event ε α) (law : Law Event ε α) : Prop :=
  ∀ dialogue, ∃ said, (program dialogue).2.said = dialogue.said ++ said ∧
    law (program dialogue).1 said

/-- A request to the surroundings, recorded with its answer, from which the program reads its
value. -/
def ask (event : Except ε α → Event) (serve : World → Except ε α × World)
    (read : α → Except ε β) : Program World Event ε β := fun dialogue =>
  let (answer, world) := serve dialogue.world
  (answer.bind read, ⟨world, dialogue.said ++ [event answer]⟩)

def returns (value : α) : Program World Event ε α := fun dialogue => (.ok value, dialogue)

def throws (err : ε) : Program World Event ε α := fun dialogue => (.error err, dialogue)

/-- `await` of a program: an error ends the program around it. -/
def andThen (program : Program World Event ε α) (next : α → Program World Event ε β) :
    Program World Event ε β := fun dialogue =>
  match program dialogue with
  | (.error err, dialogue) => (.error err, dialogue)
  | (.ok value, dialogue) => next value dialogue

/-- A program whose errors are only recorded. -/
def caught (program : Program World Event ε PUnit) (log : ε → Event) :
    Program World Event ε PUnit := fun dialogue =>
  match program dialogue with
  | (.error err, dialogue) => (.ok ⟨⟩, { dialogue with said := dialogue.said ++ [log err] })
  | (.ok _, dialogue) => (.ok ⟨⟩, dialogue)

def forEach {ι : Type u} (items : List ι) (body : ι → Program World Event ε PUnit) :
    Program World Event ε PUnit :=
  match items with
  | [] => returns ⟨⟩
  | item :: rest => andThen (body item) fun _ => forEach rest body

/-- A program as a part of one with more kinds of events. -/
def lifted (embed : Event → Other) (program : Program World Event ε α) :
    Program World Other ε α := fun dialogue =>
  let (outcome, inner) := program ⟨dialogue.world, []⟩
  (outcome, ⟨inner.world, dialogue.said ++ inner.said.map embed⟩)

/-- The law of a request. -/
def Law.asks (event : Except ε α → Event) (read : α → Except ε β) : Law Event ε β :=
  fun outcome said => ∃ answer, said = [event answer] ∧ outcome = answer.bind read

/-- The law of a program that says nothing and returns a value. -/
def Law.silent (value : α) : Law Event ε α := fun outcome said => outcome = .ok value ∧ said = []

/-- The law of a program that says nothing and whose value is such. -/
def Law.settles (property : α → Prop) : Law Event ε α := fun outcome said =>
  said = [] ∧ ∀ value, outcome = .ok value → property value

/-- The law of two programs in sequence. -/
inductive Law.Then (first : Law Event ε α) (second : α → Law Event ε β) : Law Event ε β where
  | failed {err : ε} {said : List Event} : first (.error err) said →
      Law.Then first second (.error err) said
  | went {value : α} {outcome : Except ε β} {said rest : List Event} : first (.ok value) said →
      second value outcome rest → Law.Then first second outcome (said ++ rest)

/-- The law of a program as a part of another one. -/
def Law.Lifted (law : Law Event ε α) (embed : Event → Other) : Law Other ε α :=
  fun outcome said => ∃ inner, law outcome inner ∧ said = inner.map embed

inductive Law.Caught (law : Law Event ε PUnit) (log : ε → Event) : Law Event ε PUnit where
  | went {said : List Event} : law (.ok ⟨⟩) said → Law.Caught law log (.ok ⟨⟩) said
  | failed {err : ε} {said : List Event} : law (.error err) said →
      Law.Caught law log (.ok ⟨⟩) (said ++ [log err])

/-- What holds of all that either program says. -/
theorem Law.Then.forall_mem {first : Law Event ε α} {second : α → Law Event ε β}
    {outcome : Except ε β} {said : List Event} {property : Event → Prop}
    (hlaw : first.Then second outcome said)
    (hfirst : ∀ outcome said, first outcome said → ∀ event ∈ said, property event)
    (hsecond : ∀ value outcome said, second value outcome said → ∀ event ∈ said, property event) :
    ∀ event ∈ said, property event := by
  intro event hevent
  cases hlaw with
  | failed herror => exact hfirst _ _ herror event hevent
  | went hvalue hrest =>
      rcases List.mem_append.mp hevent with hevent | hevent
      · exact hfirst _ _ hvalue event hevent
      · exact hsecond _ _ _ hrest event hevent

theorem Law.Then.settles {outcome : Except ε β} {said : List Event} {first : α → Prop}
    {second : β → Prop}
    (hlaw : (Law.settles first).Then (fun _ => Law.settles second) outcome said) :
    Law.settles second outcome said := by
  cases hlaw with
  | failed hfirst => exact ⟨hfirst.1, fun _ hok => by cases hok⟩
  | went hfirst hsecond =>
      obtain ⟨rfl, _⟩ := hfirst
      exact hsecond

variable {program : Program World Event ε α} {law other : Law Event ε α}

theorem Obeys.imp (hobeys : Obeys program law)
    (himp : ∀ outcome said, law outcome said → other outcome said) : Obeys program other := by
  intro dialogue
  obtain ⟨said, hsaid, hlaw⟩ := hobeys dialogue
  exact ⟨said, hsaid, himp _ _ hlaw⟩

theorem obeys_ask (event : Except ε α → Event) (serve : World → Except ε α × World)
    (read : α → Except ε β) : Obeys (ask event serve read) (Law.asks event read) :=
  fun dialogue => ⟨_, rfl, (serve dialogue.world).1, rfl, rfl⟩

theorem obeys_returns (value : α) :
    Obeys (returns value : Program World Event ε α) (Law.silent value) :=
  fun dialogue => ⟨[], (List.append_nil dialogue.said).symm, rfl, rfl⟩

theorem settles_throws (err : ε) (property : α → Prop) :
    Obeys (throws err : Program World Event ε α) (Law.settles property) :=
  fun dialogue => ⟨[], (List.append_nil dialogue.said).symm, rfl, fun _ hok => by cases hok⟩

theorem settles_returns {property : α → Prop} {value : α} (hvalue : property value) :
    Obeys (returns value : Program World Event ε α) (Law.settles property) :=
  (obeys_returns value).imp fun _ _ hsilent => ⟨hsilent.2, fun _ hok =>
    Except.ok.inj (hsilent.1.symm.trans hok) ▸ hvalue⟩

theorem Obeys.lifted (hobeys : Obeys program law) (embed : Event → Other) :
    Obeys (lifted embed program) (law.Lifted embed) := by
  intro dialogue
  obtain ⟨said, hsaid, hlaw⟩ := hobeys ⟨dialogue.world, []⟩
  refine ⟨said.map embed, ?_, said, hlaw, rfl⟩
  exact congrArg (fun inner => dialogue.said ++ inner.map embed) hsaid

/-- A program obeys its parts' laws one after the other. -/
theorem Obeys.andThen {next : α → Program World Event ε β} {laws : α → Law Event ε β}
    (hobeys : Obeys program law) (hnext : ∀ value, Obeys (next value) (laws value)) :
    Obeys (andThen program next) (law.Then laws) := by
  intro dialogue
  obtain ⟨said, hsaid, hlaw⟩ := hobeys dialogue
  unfold Dialogue.andThen
  rcases hprogram : program dialogue with ⟨err | value, after⟩ <;> rw [hprogram] at hsaid hlaw
  · exact ⟨said, hsaid, .failed hlaw⟩
  · obtain ⟨rest, hrest, hlaws⟩ := hnext value after
    refine ⟨said ++ rest, ?_, .went hlaw hlaws⟩
    rw [hrest, hsaid, List.append_assoc]

/-- A program whose errors are logged obeys its law up to there. -/
theorem Obeys.caught {program : Program World Event ε PUnit} {law : Law Event ε PUnit}
    (hobeys : Obeys program law) (log : ε → Event) :
    Obeys (caught program log) (law.Caught log) := by
  intro dialogue
  obtain ⟨said, hsaid, hlaw⟩ := hobeys dialogue
  unfold Dialogue.caught
  rcases hprogram : program dialogue with ⟨err | _, after⟩ <;> rw [hprogram] at hsaid hlaw
  · refine ⟨said ++ [log err], ?_, .failed hlaw⟩
    change after.said ++ [log err] = _
    rw [hsaid, List.append_assoc]
  · exact ⟨said, hsaid, .went hlaw⟩

/-- A loop whose body never throws says one part for each item, in order. -/
theorem Obeys.forEach {ι : Type u} {body : ι → Program World Event ε PUnit}
    {laws : ι → List Event → Prop}
    (hbody : ∀ item, Obeys (body item) fun outcome said => outcome = .ok ⟨⟩ ∧ laws item said)
    (items : List ι) :
    Obeys (forEach items body) fun outcome said => outcome = .ok ⟨⟩ ∧
      ∃ parts : List (List Event), List.Forall₂ laws items parts ∧ said = parts.flatten := by
  induction items with
  | nil => exact fun dialogue => ⟨[], (List.append_nil _).symm, rfl, [], .nil, rfl⟩
  | cons item rest ih =>
      refine ((hbody item).andThen fun _ => ih).imp fun outcome said hlaw => ?_
      cases hlaw with
      | failed hitem => cases hitem.1
      | @went _ _ part _ hitem hrest =>
          obtain ⟨houtcome, parts, hparts, rfl⟩ := hrest
          exact ⟨houtcome, part :: parts, .cons hitem.2 hparts, rfl⟩

end Dialogue

end RaylsSuite.Foundation
