import KuksaServices.Feeder.Feeder

/-!
# Unrecoverable errors

After an RPC has failed with an unrecoverable code the feeder is to leave the
broker alone. `handleError` deactivates it, and `Run` tests this before most
calls; but when `GetMetadata` fails so, `registerDatapoints` goes on and calls
`RegisterDatapoints`. For every other failure the feeder stops.
-/

namespace KuksaServices.Feeder

open Atomic (Along Throughout throughout_iff_along_of_keeps)

variable {D : Type} {dpConfig : DatapointConfiguration D} {s s' : State D} {e : Event D}

-- ---------------------------------------------------------------------------
-- Failures
-- ---------------------------------------------------------------------------

def Event.fails : Event D → Bool
  | .run (.metadata (.error code)) | .run (.registered (.error code))
  | .run (.updated (.error code)) => code.unrecoverable
  | _ => false

/-- The feeder, and whether an RPC of it has failed so. -/
structure Watch (D : Type) where
  state : State D
  failed : Bool

def Watch.initial : Watch D := ⟨.initial, false⟩

def watchStep (dpConfig : DatapointConfiguration D) (w : Watch D) (e : Event D) : Option (Watch D) :=
  (step dpConfig w.state e).map fun s => ⟨s, w.failed || e.fails⟩

def Place.calling : Place D → Bool
  | .metadata | .registering | .sending _ => true
  | _ => false

/-- After such a failure the feeder is inactive and not ready, calls nobody,
and calls that feed values change nothing. -/
structure Stopped (dpConfig : DatapointConfiguration D) (s : State D) : Prop where
  inactive : s.feederActive = false
  unready : s.ready = false
  silent : s.place.calling = false
  deaf : ∀ call, step dpConfig s (.feed call) = some s

def StopsAfterFailure (dpConfig : DatapointConfiguration D) (w : Watch D) : Prop :=
  w.failed = true → Stopped dpConfig w.state

def MetadataRecovers (_ : Watch D) : Event D → Prop
  | .run (.metadata (.error code)) => code.unrecoverable = false
  | _ => True

-- ---------------------------------------------------------------------------
-- Invariants
-- ---------------------------------------------------------------------------

/-- The broker is called from here, without a further test. -/
def Place.commits : Place D → Bool
  | .metadata | .registering | .taking _ | .sending _ => true
  | _ => false

structure Halted (s : State D) : Prop where
  inactive : s.feederActive = false
  place : s.place.commits = false

theorem Halted.stopped (h : Halted s) : Stopped dpConfig s := by
  have hplace := h.place
  refine ⟨h.inactive, by simp [State.ready, h.inactive], ?_, ?_⟩
  · cases hp : s.place <;> simp [hp, Place.commits, Place.calling] at hplace ⊢
  · intro call
    simp [step, h.inactive]

theorem Halted.runStep (h : Halted s) (hs : runStep dpConfig s input = some s') : Halted s' := by
  obtain ⟨hactive, hplace⟩ := h
  cases line_of_runStep hs with
  | outer => exact ⟨hactive, by simp [hactive, Place.commits]⟩
  | connecting => exact ⟨hactive, rfl⟩
  | connectedTest =>
    rw [if_neg (by simp [hactive])]
    exact ⟨hactive, rfl⟩
  | metadata _ hp => simp [hp, Place.commits] at hplace
  | registered _ hp => simp [hp, Place.commits] at hplace
  | refused _ hp => simp [hp, Place.commits] at hplace
  | ready => exact ⟨hactive, rfl⟩
  | inner => exact ⟨hactive, by simp [hactive, Place.commits]⟩
  | taking _ hp => simp [hp, Place.commits] at hplace
  | sending _ _ hp => simp [hp, Place.commits] at hplace
  | restoring => exact ⟨hactive, rfl⟩
  | waitTest => exact ⟨hactive, by simp [hactive, Place.commits]⟩
  | emptyTest => exact ⟨hactive, by simp [hactive, Place.commits]⟩
  | waiting => exact ⟨hactive, by simp [hactive, Place.commits]⟩
  | tail =>
    refine ⟨hactive, ?_⟩
    simp only
    split <;> rfl
  | cleanup => exact ⟨hactive, rfl⟩
  | unready => exact ⟨hactive, rfl⟩

theorem Halted.step (h : Halted s) (hs : step dpConfig s e = some s') : Halted s' := by
  cases e with
  | feed call =>
    obtain rfl := Option.some.inj hs
    simpa [h.inactive] using h
  | store i =>
    obtain ⟨call, -, rfl⟩ := Option.map_eq_some_iff.mp hs
    exact ⟨h.inactive, h.place⟩
  | shutdown =>
    obtain rfl := Option.some.inj hs
    simpa [h.inactive] using h
  | stop =>
    obtain ⟨-, hs⟩ := Option.ite_none_right_eq_some.mp hs
    obtain rfl := Option.some.inj hs
    exact ⟨rfl, h.place⟩
  | client connected =>
    obtain rfl := Option.some.inj hs
    exact ⟨h.inactive, h.place⟩
  | run input => exact h.runStep hs

def Place.early : Place D → Bool
  | .outer | .connecting | .connectedTest | .metadata | .registering | .unready => true
  | _ => false

/-- Before a registration the metadata at hand does not cover a configuration;
it is asked for when there is one. -/
structure Uncovered (dpConfig : DatapointConfiguration D) (s : State D) : Prop where
  check : s.place.early = true → dpConfig.isEmpty = false → checkDatapoints dpConfig s.dpMeta = false
  asked : s.place = .metadata → dpConfig.isEmpty = false

theorem checkDatapoints_empty (h : dpConfig.isEmpty = false) : checkDatapoints dpConfig ∅ = false := by
  cases dpConfig with
  | nil => simp at h
  | cons dp dpConfig => simp [checkDatapoints, AList.lookup]

theorem uncovered_of_late (h : s.place.early = false) : Uncovered dpConfig s := by
  constructor
  · intro hearly
    rw [h] at hearly
    cases hearly
  · intro hp
    rw [hp] at h
    cases h

theorem Uncovered.moves (h : Uncovered dpConfig s) (hearly : s.place.early = true)
    (hmeta : s'.dpMeta = s.dpMeta) (hasked : s'.place = .metadata → dpConfig.isEmpty = false) :
    Uncovered dpConfig s' := by
  refine ⟨fun _ => ?_, hasked⟩
  rw [hmeta]
  exact h.check hearly

theorem Uncovered.stays (h : Uncovered dpConfig s) (hplace : s'.place = s.place)
    (hmeta : s'.dpMeta = s.dpMeta) : Uncovered dpConfig s' := by
  obtain ⟨hcheck, hasked⟩ := h
  constructor
  · rw [hplace, hmeta]
    exact hcheck
  · rw [hplace]
    exact hasked

theorem uncovered_afterMetadata (dpConfig : DatapointConfiguration D) (s : State D) :
    Uncovered dpConfig (afterMetadata dpConfig s) := by
  unfold afterMetadata
  split_ifs with hcheck
  · exact uncovered_of_late rfl
  · exact ⟨fun _ _ => by simpa using hcheck, fun hp => by cases hp⟩

theorem Uncovered.runStep (h : Uncovered dpConfig s) (hs : runStep dpConfig s input = some s') :
    Uncovered dpConfig s' := by
  cases line_of_runStep hs with
  | outer hp =>
    refine h.moves (by simp [hp, Place.early]) rfl fun hp => ?_
    simp only at hp
    split at hp <;> cases hp
  | connecting _ hp => exact h.moves (by simp [hp, Place.early]) rfl fun hp => by cases hp
  | connectedTest hp =>
    split_ifs with hgo hconfig
    · exact uncovered_afterMetadata dpConfig s
    · exact h.moves (by simp [hp, Place.early]) rfl fun _ => by simpa using hconfig
    · exact uncovered_of_late rfl
  | metadata => exact uncovered_afterMetadata dpConfig _
  | registered => exact uncovered_of_late rfl
  | refused _ hp => exact h.moves (by simp [hp, Place.early]) rfl fun hp => by cases hp
  | ready => exact uncovered_of_late rfl
  | inner => exact uncovered_of_late (by simp only; split <;> rfl)
  | taking => exact uncovered_of_late rfl
  | sending => exact uncovered_of_late (by unfold delivered; simp only; split <;> rfl)
  | restoring => exact uncovered_of_late rfl
  | waitTest => exact uncovered_of_late (by simp only; split <;> rfl)
  | emptyTest => exact uncovered_of_late (by simp only; split <;> rfl)
  | waiting => exact uncovered_of_late (by simp only; split <;> rfl)
  | tail => exact uncovered_of_late (by simp only; split <;> rfl)
  | cleanup => exact ⟨fun _ hconfig => checkDatapoints_empty hconfig, fun hp => by cases hp⟩
  | unready hp => exact h.moves (by simp [hp, Place.early]) rfl fun hp => by cases hp

theorem Uncovered.step (h : Uncovered dpConfig s) (hs : step dpConfig s e = some s') :
    Uncovered dpConfig s' := by
  cases e with
  | feed call =>
    obtain rfl := Option.some.inj hs
    split
    · exact h.stays rfl rfl
    · exact h
  | store i =>
    obtain ⟨call, -, rfl⟩ := Option.map_eq_some_iff.mp hs
    exact h.stays rfl rfl
  | shutdown =>
    obtain rfl := Option.some.inj hs
    split
    · exact h.stays rfl rfl
    · exact h
  | stop =>
    obtain ⟨-, hs⟩ := Option.ite_none_right_eq_some.mp hs
    obtain rfl := Option.some.inj hs
    exact h.stays rfl rfl
  | client connected =>
    obtain rfl := Option.some.inj hs
    exact h.stays rfl rfl
  | run input => exact h.runStep hs

-- ---------------------------------------------------------------------------
-- Runs
-- ---------------------------------------------------------------------------

theorem runStep_metadata (hs : runStep dpConfig s (.metadata reply) = some s') :
    s.place = .metadata ∧ s' = afterMetadata dpConfig (getMetadata reply s) := by
  cases line_of_runStep hs with
  | metadata _ hp => exact ⟨hp, rfl⟩

theorem runStep_registered (hs : runStep dpConfig s (.registered (.error code)) = some s') :
    s' = { handleError code s with place := .outer } := by
  cases line_of_runStep hs with
  | refused => rfl

theorem runStep_updated (hs : runStep dpConfig s (.updated reply) = some s') :
    ∃ values, s' = delivered values reply s := by
  cases line_of_runStep hs with
  | sending values => exact ⟨values, rfl⟩

/-- A reply that fails the feeder halts it, except for one of `GetMetadata`. -/
theorem halted_of_fails (hs : step dpConfig s e = some s') (hfails : e.fails = true)
    (hmeta : ∀ reply, e ≠ .run (.metadata reply)) : Halted s' := by
  match e, hfails with
  | .run (.metadata reply), _ => exact absurd rfl (hmeta reply)
  | .run (.registered (.error code)), hcode =>
    obtain rfl := runStep_registered hs
    exact ⟨by simp [handleError, show code.unrecoverable = true from hcode], rfl⟩
  | .run (.updated (.error code)), hcode =>
    obtain ⟨values, rfl⟩ := runStep_updated hs
    exact ⟨by simp [delivered, handleError, show code.unrecoverable = true from hcode], rfl⟩

theorem Uncovered.registers (h : Uncovered dpConfig s)
    (hs : Feeder.step dpConfig s (.run (.metadata (.error code))) = some s') :
    s'.place = .registering := by
  obtain ⟨hp, rfl⟩ := runStep_metadata hs
  have hcheck := h.check (by simp [hp, Place.early]) (h.asked hp)
  simp [afterMetadata, getMetadata, handleError, hcheck]

def Sound (dpConfig : DatapointConfiguration D) (w : Watch D) : Prop :=
  Uncovered dpConfig w.state ∧ (w.failed = true → Halted w.state)

theorem Sound.stops {w : Watch D} (h : Sound dpConfig w) : StopsAfterFailure dpConfig w :=
  fun hfailed => (h.2 hfailed).stopped

theorem Sound.step {w w' : Watch D} (h : Sound dpConfig w) (hs : watchStep dpConfig w e = some w') :
    (StopsAfterFailure dpConfig w' ↔ MetadataRecovers w e) ∧
      (StopsAfterFailure dpConfig w' → Sound dpConfig w') := by
  obtain ⟨huncovered, hhalted⟩ := h
  obtain ⟨s', hstep, rfl⟩ := Option.map_eq_some_iff.mp hs
  have huncovered' := huncovered.step hstep
  -- a failed `GetMetadata` is the one way to go on
  by_cases hbad : ∃ code, e = .run (.metadata (.error code)) ∧ code.unrecoverable = true
  · obtain ⟨code, rfl, hcode⟩ := hbad
    have hplace := huncovered.registers hstep
    have hnot : ¬StopsAfterFailure dpConfig ⟨s', w.failed || Event.fails (D := D) (.run (.metadata (.error code)))⟩ := by
      intro hstops
      have hsilent := (hstops (by simp [Event.fails, hcode])).silent
      simp [hplace, Place.calling] at hsilent
    refine ⟨iff_of_false hnot ?_, fun hstops => absurd hstops hnot⟩
    simp [MetadataRecovers, hcode]
  · have hrecovers : MetadataRecovers w e := by
      unfold MetadataRecovers
      split
      · rename_i code
        cases hcode : code.unrecoverable with
        | false => rfl
        | true => exact absurd ⟨code, rfl, hcode⟩ hbad
      · trivial
    have hsound : Sound dpConfig ⟨s', w.failed || e.fails⟩ := by
      refine ⟨huncovered', fun hfailed => ?_⟩
      rcases Bool.or_eq_true_iff.mp hfailed with hbefore | hnow
      · exact (hhalted hbefore).step hstep
      · refine halted_of_fails hstep hnow ?_
        rintro (list | code) rfl
        · cases hnow
        · exact hbad ⟨code, rfl, hnow⟩
    exact ⟨iff_of_true hsound.stops hrecovers, fun _ => hsound⟩

/-- For every configuration and every run of the feeder and its callers. -/
theorem stops_after_failure_iff (dpConfig : DatapointConfiguration D) (events : List (Event D)) :
    Throughout (watchStep dpConfig) (StopsAfterFailure dpConfig) .initial events ↔
      Along (watchStep dpConfig) MetadataRecovers .initial events := by
  refine throughout_iff_along_of_keeps (Q := Sound dpConfig) (fun _ h => h.stops)
    (fun _ _ _ h hs => h.step hs) ⟨⟨fun _ hconfig => checkDatapoints_empty hconfig, ?_⟩, ?_⟩
  · intro hp
    cases hp
  · intro hfailed
    cases hfailed

/-- The broker answers `GetMetadata` with UNAUTHENTICATED and is then asked to
register. -/
def benchUnauthenticated : List (Event Nat) :=
  [.run .go, .run (.waitForConnected true), .run .go, .run (.metadata (.error .unauthenticated))]

theorem registers_unauthenticated :
    ∃ w, Atomic.run (watchStep [⟨"Vehicle.Cabin.Seat.Row1.Pos1.Position", .uint32, 0⟩]) .initial
        benchUnauthenticated = some w ∧
      w.failed = true ∧ w.state.feederActive = false ∧ w.state.place.calling = true ∧
      ¬StopsAfterFailure [⟨"Vehicle.Cabin.Seat.Row1.Pos1.Position", .uint32, 0⟩] w := by
  refine ⟨_, rfl, rfl, rfl, rfl, fun h => ?_⟩
  have hsilent := (h rfl).silent
  cases hsilent

end KuksaServices.Feeder
