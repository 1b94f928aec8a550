import RaylsSuite.Runner.RelayerRecovery

/-! # Whether the relayers are ready

The wait ends with the first listing that shows no plain count of an uptime
below the threshold. Docker shows none for a container that is down, and in the
first second, the second minute and around the first hour of one that is up, so
such a relayer is taken for ready.
-/

namespace RaylsSuite.Runner

open Foundation

/-! ## Who is waited for -/

/-- Docker shows a plain count that is below the threshold. -/
def ContainerState.HeldBack (minimum : Nat) : ContainerState → Prop
  | .up uptime _ => ∃ shown, countedMs uptime = some shown ∧ shown < minimum
  | .notUp _ _ => False

/-- The container is down or too young, and docker shows neither: it is no plain count of an
uptime below the threshold. -/
def ContainerState.Misread (minimum : Nat) : ContainerState → Prop
  | .up uptime _ => uptime < minimum ∧ ∀ shown, countedMs uptime = some shown → minimum ≤ shown
  | .notUp _ _ => True

/-- A container the function does not hold back is ready exactly when its status is not misread. -/
theorem ContainerState.ready_iff {minimum : Nat} {state : ContainerState}
    (hfree : ¬state.HeldBack minimum) : state.Ready minimum ↔ ¬state.Misread minimum := by
  cases state with
  | up uptime suffix =>
      simp only [HeldBack, not_exists, not_and, not_lt] at hfree
      simp only [Ready, Misread, not_and, not_forall]
      constructor
      · intro hready hyoung
        omega
      · intro hread
        by_contra hyoung
        obtain ⟨shown, hshown, hlow⟩ := hread (not_le.mp hyoung)
        exact hlow (hfree shown hshown)
  | notUp status hstatus => simp [Ready, Misread]

/-- The line that docker prints of a container is counted as recent exactly when the container is
held back. -/
theorem recentOf_line (docker : HumanDuration) (minimum : Nat) (container : Container) :
    (recentOf (some minimum) (docker.line container)).isSome = true ↔
      container.state.HeldBack minimum := by
  obtain ⟨name, state⟩ := container
  simp only [recentOf, split_line]
  cases state with
  | up uptime suffix =>
      rw [uptimeMs_up]
      cases hcounted : countedMs uptime with
      | none => simp [ContainerState.HeldBack, hcounted]
      | some shown => by_cases hlow : shown < minimum <;>
          simp [ContainerState.HeldBack, hcounted, hlow]
  | notUp status hstatus => simp [uptimeMs_notUp, ContainerState.HeldBack]

/-- A line of a container that is held back counts exactly if it is a relayer's. -/
theorem includes_line (docker : HumanDuration) {minimum : Nat} {container : Container}
    (hheld : container.state.HeldBack minimum) :
    Text.includes (docker.line container) "relayer-" = container.isRelayer := by
  obtain ⟨name, state⟩ := container
  cases state with
  | notUp status hstatus => exact hheld.elim
  | up uptime suffix =>
      apply Bool.eq_iff_iff.mpr
      constructor
      · intro hline
        have hname : '\t' ∉ "relayer-".toList := by decide
        refine (Text.includes_separated hname hline).resolve_right ?_
        intro hstatus
        have hpart : "relayer-".toList <:+: (docker.status (.up uptime suffix)).toList :=
          of_decide_eq_true hstatus
        exact status_up_plain docker uptime suffix (by decide) (hpart.subset (by decide : '-' ∈ _))
      · intro hname
        exact Text.includes_append_left (Text.includes_append_left hname _) _

/-- Docker answered, and some relayer is held back. -/
def HeldBack (minimum : Nat) : Option (List Container) → Prop
  | none => False
  | some containers => ∃ container ∈ containers, container.isRelayer = true ∧
      container.state.HeldBack minimum

/-- No line of a listing is recent exactly when nothing in the listing is held back. -/
theorem getRecent_eq_nil (docker : HumanDuration) (minimum : Nat)
    (listing : Option (List Container)) :
    (getRecent (some minimum) (listing.map docker.ps)).length = 0 ↔ ¬HeldBack minimum listing := by
  cases listing with
  | none => simp [getRecent, HeldBack]
  | some containers =>
      have hempty : recentOf (some minimum) "" = none := rfl
      simp only [Option.map_some, getRecent, split_ps, List.length_eq_zero_iff,
        List.filterMap_eq_nil_iff, List.mem_filter, HeldBack, not_exists, not_and]
      constructor
      · intro hnone container hmem hrelayer hheld
        have hline := hnone (docker.line container)
          ⟨List.mem_append_left _ (List.mem_map_of_mem hmem),
            (includes_line docker hheld).trans hrelayer⟩
        have hsome := (recentOf_line docker minimum container).mpr hheld
        rw [hline] at hsome
        cases hsome
      · rintro hfree line ⟨hmem, hrelayer⟩
        rcases List.mem_append.mp hmem with hlisted | hlast
        · obtain ⟨container, hcontainer, rfl⟩ := List.mem_map.mp hlisted
          refine Option.not_isSome_iff_eq_none.mp fun hsome => ?_
          have hheld := (recentOf_line docker minimum container).mp hsome
          exact hfree container hcontainer ((includes_line docker hheld).symm.trans hrelayer) hheld
        · exact List.mem_singleton.mp hlast ▸ hempty

/-- The loop returns after the first listing without a recent relayer. -/
theorem pollFrom_eq_some {recent : Nat → List Recent} {start last : Nat} :
    (∃ fuel, pollFrom recent fuel start = some last) ↔
      start ≤ last ∧ (recent last).length = 0 ∧
        ∀ listing, start ≤ listing → listing < last → (recent listing).length ≠ 0 := by
  constructor
  · rintro ⟨fuel, hpoll⟩
    induction fuel generalizing start with
    | zero => cases hpoll
    | succ fuel ih =>
        rw [pollFrom] at hpoll
        split at hpoll
        next hempty =>
          obtain rfl := Option.some.inj hpoll
          exact ⟨le_rfl, hempty, fun _ hlow hhigh => absurd hlow (not_le.mpr hhigh)⟩
        next hrecent =>
          obtain ⟨hle, hempty, hwait⟩ := ih hpoll
          refine ⟨by omega, hempty, fun listing hlow hhigh => ?_⟩
          rcases hlow.eq_or_lt with rfl | hlt
          · exact hrecent
          · exact hwait listing hlt hhigh
  · rintro ⟨hle, hempty, hwait⟩
    -- induction on the listings still to be waited through
    obtain ⟨offset, rfl⟩ := Nat.exists_eq_add_of_le hle
    induction offset generalizing start with
    | zero => exact ⟨1, if_pos hempty⟩
    | succ offset ih =>
        obtain ⟨fuel, hpoll⟩ := @ih (start + 1) (by omega)
          (by rwa [Nat.add_right_comm]) fun listing hlow hhigh =>
            hwait listing (by omega) (by omega)
        refine ⟨fuel + 1, ?_⟩
        rw [pollFrom, if_neg (hwait start le_rfl (by omega)), hpoll, Nat.add_right_comm,
          Nat.add_assoc]

/-! ## The law of the wait -/

/-- Docker answered, and every relayer has been up for the threshold. -/
def AllReady (minimum : Nat) : Option (List Container) → Prop
  | none => False
  | some containers => ∀ container ∈ containers, container.isRelayer = true →
      container.state.Ready minimum

/-- The listing that the function returns after shows every relayer ready, or all of its listings
have failed. -/
def ReturnsWhenReady (docker : HumanDuration) (MIN_RELAYER_UPTIME_MS : Option String)
    (minimum : Nat) (listings : Nat → Option (List Container)) : Prop :=
  ∀ fuel last, awaitRelayerRecovery MIN_RELAYER_UPTIME_MS
      (fun listing => (listings listing).map docker.ps) fuel = some last →
    AllReady minimum (listings last) ∨ ∀ listing ≤ last, listings listing = none

/-- The first listing that holds no relayer back is the first one at all if docker fails, and
otherwise has no relayer that is misread. -/
def NeverMisled (minimum : Nat) (listings : Nat → Option (List Container)) : Prop :=
  ∀ last, (∀ listing < last, HeldBack minimum (listings listing)) →
    ¬HeldBack minimum (listings last) →
    match listings last with
    | none => last = 0
    | some containers => ∀ container ∈ containers, container.isRelayer = true →
        ¬container.state.Misread minimum

theorem returns_iff (docker : HumanDuration) {MIN_RELAYER_UPTIME_MS : Option String}
    {minimum : Nat} (hminimum : MIN_UPTIME_MS MIN_RELAYER_UPTIME_MS = some (minimum : Int))
    (listings : Nat → Option (List Container)) (last : Nat) :
    (∃ fuel, awaitRelayerRecovery MIN_RELAYER_UPTIME_MS
      (fun listing => (listings listing).map docker.ps) fuel = some last) ↔
      (∀ listing < last, HeldBack minimum (listings listing)) ∧
        ¬HeldBack minimum (listings last) := by
  simp only [awaitRelayerRecovery, hminimum]
  rw [pollFrom_eq_some, getRecent_eq_nil]
  constructor
  · rintro ⟨-, hfree, hwait⟩
    refine ⟨fun listing hlt => ?_, hfree⟩
    exact not_not.mp (mt (getRecent_eq_nil docker minimum _).mpr (hwait listing (by omega) hlt))
  · rintro ⟨hwait, hfree⟩
    refine ⟨Nat.zero_le _, hfree, fun listing _ hlt hempty => ?_⟩
    exact (getRecent_eq_nil docker minimum _).mp hempty (hwait listing hlt)

/-- At the listing it returns after, the relayers that hold nobody back are ready exactly if
none of them is misread. -/
theorem allReady_iff {minimum : Nat} {containers : List Container}
    (hfree : ¬HeldBack minimum (some containers)) :
    AllReady minimum (some containers) ↔
      ∀ container ∈ containers, container.isRelayer = true →
        ¬container.state.Misread minimum := by
  simp only [HeldBack, not_exists, not_and] at hfree
  simp only [AllReady]
  exact forall₃_congr fun container hmem hrelayer =>
    ContainerState.ready_iff (hfree container hmem hrelayer)

/-- For every threshold, every sequence of listings and every pattern of failures, the function
returns only when the relayers are ready exactly if no text of docker's misleads it and docker
does not fail once a relayer is being waited for. -/
theorem awaitRelayerRecovery_returnsWhenReady_iff (docker : HumanDuration)
    (MIN_RELAYER_UPTIME_MS : Option String) (minimum : Nat)
    (listings : Nat → Option (List Container))
    (hminimum : MIN_UPTIME_MS MIN_RELAYER_UPTIME_MS = some (minimum : Int)) :
    ReturnsWhenReady docker MIN_RELAYER_UPTIME_MS minimum listings ↔
      NeverMisled minimum listings := by
  have hreturns := returns_iff docker hminimum listings
  constructor
  · intro hready last hwait hfree
    obtain ⟨fuel, hlast⟩ := (hreturns last).mpr ⟨hwait, hfree⟩
    have hreturned := hready fuel last hlast
    cases hlisting : listings last with
    | none =>
        rw [hlisting] at hreturned
        have hfailed := hreturned.resolve_left id
        -- a failed listing holds nobody back, so the first one has ended the wait
        by_contra hlate
        have hfirst := hwait 0 (Nat.pos_of_ne_zero hlate)
        rw [hfailed 0 (Nat.zero_le _)] at hfirst
        exact hfirst
    | some containers =>
        rw [hlisting] at hfree hreturned
        have hall := hreturned.resolve_right fun hfailed => by
          cases hlisting.symm.trans (hfailed last le_rfl)
        exact (allReady_iff hfree).mp hall
  · intro hmisled fuel last hlast
    obtain ⟨hwait, hfree⟩ := (hreturns last).mp ⟨fuel, hlast⟩
    have hend := hmisled last hwait hfree
    cases hlisting : listings last with
    | none =>
        rw [hlisting] at hend
        obtain rfl : last = 0 := hend
        right
        intro listing hle
        obtain rfl := Nat.le_zero.mp hle
        exact hlisting
    | some containers =>
        rw [hlisting] at hend hfree
        exact Or.inl ((allReady_iff hfree).mpr hend)

/-! ## Docker's own texts -/

def laterText (count : Nat) (unit : String) : String := s!"{count} {unit}"

def humanDuration (ms : Nat) : String :=
  if ms < 1000 then "Less than a second"
  else if ms < 2000 then "1 second"
  else if ms < 60000 then s!"{ms / 1000} seconds"
  else if ms < 120000 then "About a minute"
  else if ms < 3600000 then s!"{ms / 60000} minutes"
  else if ms < 5400000 then "About an hour"
  else if roundedHours ms < 48 then s!"{roundedHours ms} hours"
  else if roundedHours ms < 336 then s!"{roundedHours ms / 24} days"
  else if roundedHours ms < 1440 then laterText (roundedHours ms / 24 / 7) "weeks"
  else if roundedHours ms < 17520 then laterText (roundedHours ms / 24 / 30) "months"
  else laterText (ms / 3600000 / 24 / 365) "years"

/-- `humanDuration` is one of the texts that docker gives the duration. -/
theorem humanDuration_human (ms : Nat) : HumanText ms (humanDuration ms) := by
  unfold humanDuration
  by_cases hmilliseconds : ms < 1000
  · rw [if_pos hmilliseconds]
    exact .lessThanASecond hmilliseconds
  rw [if_neg hmilliseconds]
  by_cases hsecond : ms < 2000
  · rw [if_pos hsecond]
    exact .second (by omega) hsecond
  rw [if_neg hsecond]
  by_cases hseconds : ms < 60000
  · rw [if_pos hseconds]
    exact .seconds (by omega) hseconds
  rw [if_neg hseconds]
  by_cases hminute : ms < 120000
  · rw [if_pos hminute]
    exact .aboutAMinute (by omega) hminute
  rw [if_neg hminute]
  by_cases hminutes : ms < 3600000
  · rw [if_pos hminutes]
    exact .minutes (by omega) hminutes
  rw [if_neg hminutes]
  by_cases hhour : ms < 5400000
  · rw [if_pos hhour]
    exact .aboutAnHour (by omega) hhour
  rw [if_neg hhour]
  by_cases hhours : roundedHours ms < 48
  · rw [if_pos hhours]
    exact .hours (by omega) hhours
  rw [if_neg hhours]
  by_cases hdays : roundedHours ms < 336
  · rw [if_pos hdays]
    exact .days (by omega) hdays
  rw [if_neg hdays]
  split
  next => exact .later (by omega) _ _ (by decide)
  next => split <;> exact .later (by omega) _ _ (by decide)

/-- The rendering of docker itself. -/
def dockerDuration : HumanDuration := ⟨humanDuration, humanDuration_human⟩

/-- A relayer that has been up for five seconds, and two minutes later. -/
theorem awaitRelayerRecovery_returnsWhenReady_iff_restarted :
    awaitRelayerRecovery none (fun listing =>
        (if listing = 0 then some [⟨⟨"relayer-a", by decide, by decide⟩, .up 5000 .healthy⟩]
          else some [⟨⟨"relayer-a", by decide, by decide⟩, .up 125000 .healthy⟩]).map
            dockerDuration.ps) 2 = some 1 ∧
      ReturnsWhenReady dockerDuration none 120000 fun listing =>
        if listing = 0 then some [⟨⟨"relayer-a", by decide, by decide⟩, .up 5000 .healthy⟩]
        else some [⟨⟨"relayer-a", by decide, by decide⟩, .up 125000 .healthy⟩] := by
  refine ⟨by decide, (awaitRelayerRecovery_returnsWhenReady_iff dockerDuration none 120000 _
    (by decide)).mpr ?_⟩
  intro last hwait hfree
  cases last with
  | zero =>
      refine absurd ⟨_, List.mem_cons_self, by decide, 5000, by decide, by decide⟩ hfree
  | succ last =>
      simp only [Nat.add_eq_zero_iff, one_ne_zero, and_false, if_false, List.mem_singleton]
      rintro container rfl - ⟨hyoung, -⟩
      omega

/-- A relayer that was restarted a minute ago, in the first listing: docker shows
`Up About a minute`. -/
theorem not_returnsWhenReady_aboutAMinute :
    ¬ReturnsWhenReady dockerDuration none 120000 fun _ =>
      some [⟨⟨"relayer-a", by decide, by decide⟩, .up 61000 .healthy⟩] := by
  intro hready
  rcases hready 1 0 (by decide) with hall | hfailed
  · have hyoung : 120000 ≤ 61000 := hall _ List.mem_cons_self (by decide)
    omega
  · cases hfailed 0 le_rfl

end RaylsSuite.Runner
