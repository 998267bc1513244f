import KuksaServices.Atomic.Progress
import KuksaServices.Feeder.Delivery

/-!
# The end of the feeder

`main.cc` joins the thread of `Run` after `Shutdown`. From then on `Run` goes
to its end: it has returned once it has taken nine more steps, whatever state
it was in, whatever its calls return and whatever the other threads do. Until
then the broker gets one update at most (`finishes_when_inactive`).
-/

namespace KuksaServices.Feeder

variable {D : Type} {dpConfig : DatapointConfiguration D} {s s' : State D} {e : Event D}

def Event.ofRun : Event D → Bool
  | .run _ => true
  | _ => false

/-- How many steps an inactive `Run` takes before the one that ends it. -/
def Place.leaving : Place D → Nat
  | .outer | .finished => 0
  | .unready => 1
  | .cleanup => 2
  | .inner _ => 3
  | .tail | .ready => 4
  | .waiting | .emptyTest | .waitTest | .registering | .connectedTest => 5
  | .restoring _ | .metadata | .connecting => 6
  | .sending _ => 7
  | .taking _ => 8

def Place.updates : Place D → Nat
  | .taking _ | .sending _ => 1
  | _ => 0

theorem Place.leaving_le (p : Place D) : p.leaving ≤ 8 := by
  cases p <;> simp [Place.leaving]

theorem Place.updates_le (p : Place D) : p.updates ≤ 1 := by
  cases p <;> simp [Place.updates]

structure Leaves (s s' : State D) : Prop where
  inactive : s'.feederActive = false
  nearer : s'.place = .finished ∨ s'.place.leaving < s.place.leaving
  updates : s'.sent.length + s'.place.updates ≤ s.sent.length + s.place.updates

theorem afterMetadata_leaving (dpConfig : DatapointConfiguration D) (s : State D) :
    (afterMetadata dpConfig s).feederActive = s.feederActive ∧ (afterMetadata dpConfig s).sent = s.sent ∧
      (afterMetadata dpConfig s).place.leaving ≤ 5 ∧ (afterMetadata dpConfig s).place.updates = 0 := by
  unfold afterMetadata
  split
  · exact ⟨rfl, rfl, by simp [Place.leaving], rfl⟩
  · exact ⟨rfl, rfl, by simp [Place.leaving], rfl⟩

theorem Leaves.run (h : s.feederActive = false) (hs : runStep dpConfig s input = some s') : Leaves s s' := by
  cases line_of_runStep hs with
  | outer hp => exact ⟨h, .inl (by simp [h]), by simp [h, hp, Place.updates]⟩
  | connectedTest hp =>
    simp only [h, Bool.false_and, Bool.false_eq_true, if_false]
    exact ⟨rfl, .inr (by simp [hp, Place.leaving]), by simp [hp, Place.updates]⟩
  | metadata reply hp =>
    have hget : (getMetadata reply s).feederActive = false ∧ (getMetadata reply s).sent = s.sent := by
      cases reply with
      | ok list => exact ⟨h, rfl⟩
      | error code => exact ⟨by simp [getMetadata, handleError, h], rfl⟩
    obtain ⟨hactive, hsent, hnear, hupdates⟩ := afterMetadata_leaving dpConfig (getMetadata reply s)
    refine ⟨hactive.trans hget.1, .inr (Nat.lt_of_le_of_lt hnear ?_), ?_⟩
    · simp [hp, Place.leaving]
    · rw [hsent, hget.2, hupdates]
      exact Nat.le_add_right ..
  | refused code hp =>
    exact ⟨by simp [handleError, h], .inr (by simp [hp, Place.leaving]), by simp [hp, handleError, Place.updates]⟩
  | sending values reply hp =>
    obtain ⟨-, -, -, hsent, hplace⟩ := delivered_eq values reply s
    refine ⟨?_, .inr ?_, ?_⟩
    · cases reply <;> simp [delivered, handleError, h]
    · rw [hplace, hp]
      split <;> simp [Place.leaving]
    · rw [hplace, hp, hsent]
      split <;> simp [Place.updates]
  | inner init hp =>
    simp only [h, Bool.false_and, Bool.false_eq_true, if_false]
    exact ⟨rfl, .inr (by simp [hp, Place.leaving]), by simp [hp, Place.updates]⟩
  | taking init hp => exact ⟨h, .inr (by simp [hp, Place.leaving]), by simp [hp, Place.updates]⟩
  | restoring values hp => exact ⟨h, .inr (by simp [hp, Place.leaving]), by simp [hp, Place.updates]⟩
  | registered results hp => exact ⟨h, .inr (by simp [hp, Place.leaving]), by simp [hp, Place.updates]⟩
  | connecting connected hp => exact ⟨h, .inr (by simp [hp, Place.leaving]), by simp [hp, Place.updates]⟩
  | waiting timeout hp =>
    simp only [h, Bool.false_and, Bool.false_eq_true, if_false]
    exact ⟨rfl, .inr (by simp [hp, Place.leaving]), by simp [hp, Place.updates]⟩
  | tail hp =>
    refine ⟨h, .inr ?_, ?_⟩
    · dsimp only
      split <;> simp [hp, Place.leaving]
    · dsimp only
      split <;> simp [hp, Place.updates]
  | _ hp => exact ⟨h, .inr (by simp [hp, h, Place.leaving]), by simp [hp, h, Place.updates]⟩

theorem others_leave (h : s.feederActive = false) (he : e.ofRun = false) (hs : step dpConfig s e = some s') :
    s'.feederActive = false ∧ s'.place = s.place ∧ s'.sent = s.sent := by
  rcases step_cases hs with ⟨input, rfl, -⟩ | ⟨hsent, -, hplace⟩
  · cases he
  · refine ⟨?_, hplace, hsent⟩
    cases e with
    | run input => cases he
    | feed call =>
      obtain rfl := Option.some.inj hs
      split <;> exact h
    | store i =>
      obtain ⟨call, -, rfl⟩ := Option.map_eq_some_iff.mp hs
      exact h
    | shutdown =>
      obtain rfl := Option.some.inj hs
      split <;> exact h
    | stop =>
      obtain ⟨-, hs⟩ := Option.ite_none_right_eq_some.mp hs
      obtain rfl := Option.some.inj hs
      rfl
    | client connected =>
      obtain rfl := Option.some.inj hs
      exact h

theorem step_leaves (h : s.feederActive = false) (hs : step dpConfig s e = some s') :
    s'.feederActive = false ∧ s'.sent.length + s'.place.updates ≤ s.sent.length + s.place.updates := by
  cases he : e.ofRun with
  | false =>
    obtain ⟨hinactive, hplace, hsent⟩ := others_leave h he hs
    exact ⟨hinactive, by rw [hplace, hsent]⟩
  | true =>
    cases e with
    | run input =>
      have hleaves := Leaves.run h hs
      exact ⟨hleaves.inactive, hleaves.updates⟩
    | _ => cases he

/-- Wherever `Run` stands, something can make it go on. -/
theorem run_goes_on (s : State D) (hp : s.place ≠ .finished) : ∃ input, (runStep dpConfig s input).isSome := by
  cases hplace : s.place with
  | finished => exact absurd hplace hp
  | connecting => exact ⟨.waitForConnected true, by simp [runStep, hplace]⟩
  | metadata => exact ⟨.metadata (.ok []), by simp [runStep, hplace]⟩
  | registering => exact ⟨.registered (.ok ∅), by simp [runStep, hplace]⟩
  | sending values => exact ⟨.updated (.ok []), by simp [runStep, hplace]⟩
  | waiting => exact ⟨.wakes true, by simp [runStep, hplace]⟩
  | _ => exact ⟨.go, by simp [runStep, hplace]⟩

theorem finished_stays (hp : s.place = .finished) (hs : step dpConfig s e = some s') : s'.place = .finished := by
  rcases step_cases hs with ⟨input, rfl, hrun⟩ | ⟨-, -, hplace⟩
  · simp [runStep, hp] at hrun
  · exact hplace.trans hp

/-- From any state, as soon as the feeder is inactive. -/
theorem finishes_when_inactive (dpConfig : DatapointConfiguration D) (s s' : State D)
    (hinactive : s.feederActive = false) (events : List (Event D))
    (hrun : Atomic.run (step dpConfig) s events = some s') :
    s'.sent.length ≤ s.sent.length + 1 ∧
      (9 ≤ events.countP Event.ofRun → s'.place = .finished) ∧
      (s'.place ≠ .finished → ∃ input, (step dpConfig s' (.run input)).isSome) := by
  refine ⟨?_, ?_, run_goes_on s'⟩
  · have hkept : Atomic.Throughout (step dpConfig) (fun t => t.feederActive = false ∧
        t.sent.length + t.place.updates ≤ s.sent.length + s.place.updates) s events := by
      refine Atomic.throughout_of_keeps ?_ ⟨hinactive, Nat.le_refl _⟩
      rintro t e u ⟨ht, hle⟩ hs
      obtain ⟨hu, hle'⟩ := step_leaves ht hs
      exact ⟨hu, hle'.trans hle⟩
    have hlast := (hkept.last hrun).2
    have hbound := s.place.updates_le
    omega
  · intro hsteps
    have hnear := s.place.leaving_le
    refine Atomic.ends_within_rank (C := fun _ _ => True) (fun t => t.place = .finished) (fun t => t.place.leaving)
      Event.ofRun (fun _ _ _ h _ hs => (step_leaves h hs).1) (fun _ _ _ hp hs => finished_stays hp hs) ?_ ?_
      hinactive (Atomic.along_of_forall fun _ _ => trivial) hrun (by omega)
    · intro t e u ht _ _ hown hs
      cases e with
      | run input => exact (Leaves.run ht hs).nearer
      | _ => cases hown
    · intro t e u ht _ hother hs
      rw [(others_leave ht hother hs).2.1]

def benchStopped : List (Event (Option Nat)) :=
  List.flatten [benchConnect, benchFeed 20, [.shutdown, .stop]]

def benchLeaving : List (Event (Option Nat)) :=
  [.run .go, .run (.updated (.error .unavailable)), .run .go, .run .go, .client true, .run .go, .run .go,
    .run .go, .run .go, .run .go]

theorem finishes_when_inactive_bench :
    ∃ s s', Atomic.run (step benchConfig) .initial benchStopped = some s ∧ s.sent.length = 0 ∧
      Atomic.run (step benchConfig) s benchLeaving = some s' ∧ s'.sent.length = 1 ∧ s'.place = .finished := by
  let s := (Atomic.run (step benchConfig) .initial benchStopped).get rfl
  refine ⟨s, _, rfl, rfl, rfl, rfl, ?_⟩
  exact (finishes_when_inactive benchConfig s _ rfl benchLeaving rfl).2.1 (by decide)

end KuksaServices.Feeder
