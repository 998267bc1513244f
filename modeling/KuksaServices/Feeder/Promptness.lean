import KuksaServices.Atomic.Progress
import KuksaServices.Feeder.Waiting

/-!
# How soon a fed value is delivered

While the connection holds, the broker takes what it is sent and no wait
misses a value, a fed value is accepted within fifteen steps of `Run`, or a
newer one of its name in its place (`delivered_promptly`). The calls that
feed values, the ends of the waits and everything that the other threads do
may come between those steps in any order.
-/

namespace KuksaServices.Feeder

open Atomic (Origin Slot Along Throughout)

variable {D : Type} {dpConfig : DatapointConfiguration D} {s s' : State D} {w w' : Waiter D}
  {i : Signal D} {n : Nat} {name : String}

-- ---------------------------------------------------------------------------
-- Runs without a disturbance
-- ---------------------------------------------------------------------------

def Signal.event? : Signal D → Option (Event D)
  | .event e => some e
  | _ => none

def Signal.ofRun : Signal D → Bool
  | .event (.run _) => true
  | _ => false

/-- The connection is lost or does not come, or a call fails. -/
def Event.disturbs : Event D → Bool
  | .client connected | .run (.waitForConnected connected) => !connected
  | .run (.metadata reply) => !reply.isOk
  | .run (.registered reply) => !reply.isOk
  | .run (.updated reply) => !reply.isOk
  | _ => false

def Attentive (w : Waiter D) (i : Signal D) : Prop :=
  NothingMissed w i ∧ ∀ e ∈ i.event?, Careful w.state e

def Smooth (w : Waiter D) (i : Signal D) : Prop :=
  Attentive w i ∧ ∀ e ∈ i.event?, e.disturbs = false

instance (w : Waiter D) : DecidablePred (NothingMissed w)
  | .event (.run (.wakes true)) => inferInstanceAs (Decidable (_ → _))
  | .event (.run (.wakes false)) | .event (.run .go) | .event (.run (.waitForConnected _))
  | .event (.run (.metadata _)) | .event (.run (.registered _)) | .event (.run (.updated _))
  | .event (.feed _) | .event (.store _) | .event .shutdown | .event .stop | .event (.client _)
  | .timeout | .wakeup => inferInstanceAs (Decidable True)

instance (w : Waiter D) (i : Signal D) : Decidable (Attentive w i) := inferInstanceAs (Decidable (_ ∧ _))

instance (w : Waiter D) (i : Signal D) : Decidable (Smooth w i) := inferInstanceAs (Decidable (_ ∧ _))

-- ---------------------------------------------------------------------------
-- The way to the broker
-- ---------------------------------------------------------------------------

def OnItsWay (n : Nat) (name : String) (s : State D) : Bool :=
  ((slot s name).flight.bind Origin.put?).any (n ≤ ·)

def Arrived (n : Nat) (name : String) (s : State D) : Prop :=
  ∃ m ∈ acceptedPuts s.sent name, n ≤ m

/-- How many steps of `Run` come before the one that delivers the value;
`carries` tells that it is in flight. -/
def Place.distance (carries connected : Bool) : Place D → Nat
  | .sending _ => if carries then 0 else if connected then 6 else 13
  | .taking _ => 1
  | .inner _ => if connected then 2 else 11
  | .tail => if connected then 3 else 11
  | .ready => if connected then 3 else 12
  | .emptyTest | .waiting => if connected then 4 else 12
  | .registering => if connected then 4 else 13
  | .waitTest => if connected then 5 else 12
  | .metadata => if connected then 5 else 14
  | .restoring _ | .connectedTest => if connected then 6 else 13
  | .connecting => 7
  | .outer => 8
  | .unready => 9
  | .cleanup => 10
  | .finished => 0

def distance (n : Nat) (name : String) (s : State D) : Nat :=
  s.place.distance (OnItsWay n name s) s.connected

theorem distance_le (n : Nat) (name : String) (s : State D) : distance n name s ≤ 14 := by
  unfold distance
  cases s.place <;> simp only [Place.distance] <;> (try split_ifs) <;> omega

structure Attended (w : Waiter D) : Prop where
  orderly : Orderly w.state
  inLine : ∀ name, (slot w.state name).InLine
  drained : Drained w

structure Eager (n : Nat) (name : String) (w : Waiter D) : Prop extends Attended w where
  active : w.state.feederActive = true
  latest : ∃ m, latestFed w.state.fed name = some m ∧ n ≤ m

theorem Eager.queued (h : Eager n name w) (hno : ¬Arrived n name w.state)
    (hway : OnItsWay n name w.state = false) :
    ∃ v, w.state.storedValues.lookup name = some v ∧ ∃ m, v.origin = .put m ∧ n ≤ m := by
  obtain ⟨m, hm, hle⟩ := h.latest
  rcases (h.inLine name).latest_cases hm with hstored | hflight | hlast
  · obtain ⟨v, hv, ho⟩ := Option.map_eq_some_iff.mp hstored
    exact ⟨v, hv, m, ho, hle⟩
  · simp [OnItsWay, hflight, Origin.put?, hle] at hway
  · exact absurd ⟨m, List.mem_of_getLast? hlast, hle⟩ hno

theorem Eager.nonempty (h : Eager n name w) (hno : ¬Arrived n name w.state)
    (hbatch : w.state.place.batch? = none) : w.state.storedValues.entries.isEmpty = false := by
  obtain ⟨v, hv, -⟩ := h.queued hno (by simp [OnItsWay, slot, hbatch])
  refine Bool.eq_false_iff.mpr fun hempty => ?_
  cases ((isEmpty_iff_lookup _).mp hempty name).symm.trans hv

-- ---------------------------------------------------------------------------
-- The steps of `Run`
-- ---------------------------------------------------------------------------

theorem distance_afterMetadata : distance n name (afterMetadata dpConfig s) ≤
    if s.connected then 4 else 13 := by
  unfold afterMetadata
  split
  · change (if s.connected then 3 else 12) ≤ _
    split <;> omega
  · exact Nat.le_refl _

theorem arrived_delivered (hline : (slot s name).InLine) (hr : Registered s)
    (hp : s.place = .sending values) (hway : OnItsWay n name s = true) :
    Arrived n name (delivered values (.ok errors) s) := by
  obtain ⟨m, hm, hle⟩ := (Option.any_eq_true ..).mp hway
  obtain ⟨-, -, -, hsent, -⟩ := delivered_eq values (.ok errors) s
  refine ⟨m, ?_, of_decide_eq_true hle⟩
  have hcarried := carried_puts hr hline (by rw [hp]; rfl)
  rw [hm] at hcarried
  rw [hsent, acceptedPuts_snoc]
  refine List.mem_append_right _ (Option.mem_toList.mpr ?_)
  exact hcarried

theorem Eager.wakes (h : Eager n name w) (hno : ¬Arrived n name w.state)
    (ha : w.allows (.run (.wakes timeout)) = true) (hc : NothingMissed w (.event (.run (.wakes timeout))))
    (hp : w.state.place = .waiting) :
    (w.state.feederActive && w.state.connected && timeout) = false := by
  cases timeout with
  | false => exact Bool.and_false _
  | true =>
    have htimedOut : w.wake = .timedOut := by simpa [Waiter.allows] using ha
    have hempty := h.drained.timedOut (by rw [hp]; rfl) htimedOut h.active
    rw [h.nonempty hno (by rw [hp]; rfl)] at hempty
    rw [Bool.and_true, Bool.eq_false_iff]
    intro hup
    cases hempty.mpr (hc hup)

/-- A step of `Run` delivers the value or brings it nearer. -/
theorem Eager.runs (h : Eager n name w) (hno : ¬Arrived n name w.state)
    (ha : w.allows (.run input) = true) (hc : Smooth w (.event (.run input)))
    (hs : runStep dpConfig w.state input = some s') :
    Arrived n name s' ∨ distance n name s' < distance n name w.state := by
  obtain ⟨⟨hmissed, hcare⟩, hsmooth⟩ := hc
  have hcare := hcare _ rfl
  have hsmooth := hsmooth _ rfl
  have hactive := h.active
  unfold distance
  cases line_of_runStep hs with
  | sending values reply hp =>
    cases reply with
    | error code => cases hsmooth
    | ok errors =>
      cases hway : OnItsWay n name w.state with
      | true => exact .inl (arrived_delivered (h.inLine name) hcare hp hway)
      | false => cases hup : w.state.connected <;> simp [Place.distance, hp, delivered, hup]
  | metadata reply hp =>
    cases reply with
    | error code => cases hsmooth
    | ok list =>
      refine .inr (Nat.lt_of_le_of_lt distance_afterMetadata ?_)
      cases hup : w.state.connected <;> simp [Place.distance, hp, getMetadata, hup]
  | refused code hp => cases hsmooth
  | connectedTest hp =>
    right
    cases hup : w.state.connected with
    | false => simp [Place.distance, hp]
    | true =>
      simp only [hactive, hp, Bool.and_self, if_true]
      split
      · refine Nat.lt_of_le_of_lt distance_afterMetadata ?_
        simp [hup, Place.distance]
      · simp [Place.distance]
  | waiting timeout hp =>
    right
    simp only [h.wakes hno ha hmissed hp, hp]
    cases w.state.connected <;> simp [Place.distance]
  | connecting connected hp =>
    obtain rfl : connected = true := by simpa [Event.disturbs] using hsmooth
    right
    simp [Place.distance, hp]
  | emptyTest hp =>
    right
    simp only [h.nonempty hno (by rw [hp]; rfl), hp]
    cases w.state.connected <;> simp [Place.distance]
  | taking init hp =>
    -- the queued value goes into the batch
    obtain ⟨v, hv, m, ho, hle⟩ := h.queued hno (by simp [OnItsWay, slot, hp, Place.batch?])
    right
    have htaken : (if init then addInitialValues dpConfig w.state.storedValues
        else w.state.storedValues).lookup name = some v := by
      cases init with
      | true => exact (lookup_addInitialValues _ name).trans (by rw [hv]; rfl)
      | false => exact hv
    simp [Place.distance, OnItsWay, slot, Place.batch?, hp, htaken, ho, Origin.put?, hle]
  | inner init hp =>
    right
    cases w.state.connected <;> simp [Place.distance, hp, hactive]
  | registered results hp =>
    right
    cases w.state.connected <;> simp [Place.distance, hp]
  | restoring values hp =>
    right
    cases w.state.connected <;> simp [Place.distance, hp]
  | _ hp =>
    right
    cases w.state.connected <;> simp [Place.distance, hp, hactive]

-- ---------------------------------------------------------------------------
-- The steps of the others
-- ---------------------------------------------------------------------------

theorem Arrived.event (h : Arrived n name s) (hs : step dpConfig s e = some s') : Arrived n name s' := by
  obtain ⟨m, hm, hle⟩ := h
  refine ⟨m, ?_, hle⟩
  rcases step_sent hs with ⟨hsent, -⟩ | ⟨values, reply, -, -, hsent⟩
  · rw [hsent]
    exact hm
  · rw [hsent, acceptedPuts_snoc]
    exact List.mem_append_left _ hm

theorem waiterStep_cases (hw : waiterStep dpConfig w i = some w') :
    (∃ e, i = .event e ∧ w.allows e = true ∧ step dpConfig w.state e = some w'.state) ∨
      i.event? = none ∧ w'.state = w.state := by
  cases i with
  | event e =>
    obtain ⟨ha, hw⟩ := Option.ite_none_right_eq_some.mp hw
    obtain ⟨s', hs, rfl⟩ := Option.map_eq_some_iff.mp hw
    have hstate : (w.after s' e).state = s' := by cases e <;> rfl
    exact .inl ⟨e, rfl, ha, hs.trans (congrArg some hstate.symm)⟩
  | timeout =>
    obtain ⟨-, hw⟩ := Option.ite_none_right_eq_some.mp hw
    obtain rfl := Option.some.inj hw
    exact .inr ⟨rfl, rfl⟩
  | wakeup =>
    obtain ⟨-, hw⟩ := Option.ite_none_right_eq_some.mp hw
    obtain rfl := Option.some.inj hw
    exact .inr ⟨rfl, rfl⟩

theorem Arrived.step (h : Arrived n name w.state) (hw : waiterStep dpConfig w i = some w') :
    Arrived n name w'.state := by
  rcases waiterStep_cases hw with ⟨e, -, -, hs⟩ | ⟨-, hstate⟩
  · exact h.event hs
  · rw [hstate]
    exact h

theorem Place.distance_connected (p : Place D) (carries connected : Bool) :
    p.distance carries true ≤ p.distance carries connected := by
  cases connected with
  | true => exact Nat.le_refl _
  | false => cases p <;> cases carries <;> simp [Place.distance]

theorem distance_of_others (hc : Smooth w i) (hi : i.ofRun = false)
    (hw : waiterStep dpConfig w i = some w') : distance n name w'.state ≤ distance n name w.state := by
  rcases waiterStep_cases hw with ⟨e, rfl, -, hs⟩ | ⟨-, hstate⟩
  · cases e with
    | run input => cases hi
    | feed call =>
      obtain hs := Option.some.inj hs
      rw [← hs]
      split <;> exact Nat.le_refl _
    | store i =>
      obtain ⟨call, -, hs⟩ := Option.map_eq_some_iff.mp hs
      rw [← hs]
      exact Nat.le_refl _
    | shutdown => exact (hc.1.2 _ rfl).elim
    | stop => exact (hc.1.2 _ rfl).elim
    | client connected =>
      have hup : connected = true := by simpa [Event.disturbs] using hc.2 _ rfl
      obtain hs := Option.some.inj hs
      rw [← hs, hup]
      exact Place.distance_connected ..
  · rw [hstate]

-- ---------------------------------------------------------------------------
-- Every run
-- ---------------------------------------------------------------------------

theorem Attended.step (h : Attended w) (hc : Attentive w i) (hw : waiterStep dpConfig w i = some w') :
    Attended w' := by
  obtain ⟨hmissed, hcare⟩ := hc
  obtain ⟨hiff, hkeep⟩ := h.drained.step hw
  have hdrained := hkeep (hiff.mpr hmissed)
  rcases waiterStep_cases hw with ⟨e, rfl, -, hs⟩ | ⟨-, hstate⟩
  · refine ⟨h.orderly.step hs, fun name => ?_, hdrained⟩
    exact (h.inLine name).step (h.orderly.filled name)
      (step_slot h.orderly.sessions hs fun _ => ⟨hcare e rfl, h.inLine name⟩)
  · exact ⟨hstate ▸ h.orderly, hstate ▸ h.inLine, hdrained⟩

theorem active_of_smooth (hs : step dpConfig s e = some s') (hcare : Careful s e)
    (hd : e.disturbs = false) : s'.feederActive = s.feederActive := by
  cases e with
  | feed call =>
    obtain rfl := Option.some.inj hs
    split <;> rfl
  | store i =>
    obtain ⟨call, -, rfl⟩ := Option.map_eq_some_iff.mp hs
    rfl
  | shutdown => exact hcare.elim
  | stop => exact hcare.elim
  | client connected =>
    obtain rfl := Option.some.inj hs
    rfl
  | run input =>
    have hafter : ∀ s : State D, (afterMetadata dpConfig s).feederActive = s.feederActive := by
      intro s
      unfold afterMetadata
      split <;> rfl
    cases line_of_runStep hs with
    | connectedTest hp =>
      split_ifs
      · exact hafter s
      · rfl
      · rfl
    | metadata reply hp =>
      cases reply with
      | ok list => exact hafter _
      | error code => cases hd
    | refused code hp => cases hd
    | sending values reply hp =>
      cases reply with
      | ok errors => rfl
      | error code => cases hd
    | _ => rfl

theorem latest_bound (h : (slot s name).InLine) (hm : latestFed s.fed name = some m) : m < s.fed.length := by
  have hlast : (slot s name).line.getLast? = some m := h.latest.symm.trans hm
  exact h.bound m (List.mem_of_getLast? hlast)

theorem latest_kept (h : (slot s name).InLine) (hs : step dpConfig s e = some s')
    (hm : latestFed s.fed name = some m) : ∃ m', latestFed s'.fed name = some m' ∧ m ≤ m' := by
  cases e with
  | store i =>
    obtain ⟨call, -, rfl⟩ := Option.map_eq_some_iff.mp hs
    simp only [latestFed_snoc]
    split
    · exact ⟨_, rfl, Nat.le_of_lt (latest_bound h hm)⟩
    · exact ⟨m, hm, Nat.le_refl m⟩
  | feed call =>
    obtain rfl := Option.some.inj hs
    exact ⟨m, by split <;> exact hm, Nat.le_refl m⟩
  | shutdown =>
    obtain rfl := Option.some.inj hs
    exact ⟨m, by split <;> exact hm, Nat.le_refl m⟩
  | stop =>
    obtain ⟨-, hs⟩ := Option.ite_none_right_eq_some.mp hs
    obtain rfl := Option.some.inj hs
    exact ⟨m, hm, Nat.le_refl m⟩
  | client connected =>
    obtain rfl := Option.some.inj hs
    exact ⟨m, hm, Nat.le_refl m⟩
  | run input =>
    have hfed : s'.fed = s.fed := by
      rcases runStep_cases hs with hp | ⟨-, rfl⟩ | ⟨init, -, rfl⟩ | ⟨values, reply, -, -, rfl⟩ |
        ⟨values, -, rfl⟩
      · exact hp.fed
      · rfl
      · rfl
      · exact (delivered_eq values reply s).2.1
      · rfl
    exact ⟨m, hfed ▸ hm, Nat.le_refl m⟩

theorem Eager.step (h : Eager n name w) (hc : Smooth w i) (hw : waiterStep dpConfig w i = some w') :
    Eager n name w' := by
  refine ⟨h.toAttended.step hc.1 hw, ?_, ?_⟩
  · rcases waiterStep_cases hw with ⟨e, rfl, -, hs⟩ | ⟨-, hstate⟩
    · exact (active_of_smooth hs (hc.1.2 e rfl) (hc.2 e rfl)).trans h.active
    · exact hstate ▸ h.active
  · obtain ⟨m, hm, hle⟩ := h.latest
    rcases waiterStep_cases hw with ⟨e, rfl, -, hs⟩ | ⟨-, hstate⟩
    · obtain ⟨m', hm', hle'⟩ := latest_kept (h.inLine name) hs hm
      exact ⟨m', hm', hle.trans hle'⟩
    · exact ⟨m, hstate ▸ hm, hle⟩

theorem Eager.step_own (h : Eager n name w) (hno : ¬Arrived n name w.state) (hc : Smooth w i)
    (hi : i.ofRun = true) (hw : waiterStep dpConfig w i = some w') :
    Arrived n name w'.state ∨ distance n name w'.state < distance n name w.state := by
  rcases waiterStep_cases hw with ⟨e, rfl, ha, hs⟩ | ⟨hnone, -⟩
  · cases e with
    | run input => exact h.runs hno ha hc hs
    | _ => cases hi
  · cases i with
    | event e => cases hnone
    | _ => cases hi

/-- `smooth` is any stretch of a run with care, from when the value was the
latest of its name; what happens before it may be disturbed. -/
theorem delivered_promptly (dpConfig : DatapointConfiguration D) (before smooth : List (Signal D))
    (w w' : Waiter D) (hcare : Along (waiterStep dpConfig) Attentive .initial before)
    (hrun : Atomic.run (waiterStep dpConfig) .initial before = some w)
    (hactive : w.state.feederActive = true) (hfed : latestFed w.state.fed name = some n)
    (hsmooth : Along (waiterStep dpConfig) Smooth w smooth)
    (hrun' : Atomic.run (waiterStep dpConfig) w smooth = some w')
    (hsteps : 15 ≤ smooth.countP Signal.ofRun) :
    ∃ m ∈ acceptedPuts w'.state.sent name, n ≤ m := by
  have hstart : Attended (Waiter.initial : Waiter D) := by
    refine ⟨orderly_initial, fun _ => ⟨List.Pairwise.nil, nofun, rfl⟩, drained_of_awake (.inl rfl)⟩
  have hattended : Attended w :=
    (hcare.throughout (fun _ _ _ h hc hw => Attended.step h hc hw) hstart).last hrun
  have heager : Eager n name w := ⟨hattended, hactive, n, hfed, Nat.le_refl n⟩
  have hnear := distance_le n name w.state
  refine Atomic.ends_within_rank (fun w => Arrived n name w.state) (fun w => distance n name w.state)
    Signal.ofRun (fun _ _ _ h hc hw => Eager.step h hc hw) (fun _ _ _ h hw => Arrived.step h hw) ?_ ?_
    heager hsmooth hrun' (by omega)
  · exact fun _ _ _ h hno hc hi hw => h.step_own hno hc hi hw
  · exact fun _ _ _ _ hc hi hw => distance_of_others hc hi hw

def benchAway : List (Signal (Option Nat)) :=
  (List.flatten [benchConnect, benchFeed 20, [.run .go, .run (.updated (.error .unavailable))]]).map .event

def benchBack : List (Signal (Option Nat)) :=
  (List.flatten [[.run .go, .run .go], benchFeed 30, [.run .go, .run .go, .run .go], benchConnect,
    [.run .go, .run (.updated (.ok [])), .run .go, .run .go]]).map .event

theorem delivered_promptly_bench :
    ∃ w w', Atomic.run (waiterStep benchConfig) .initial benchAway = some w ∧
      acceptedPuts w.state.sent "Position" = [] ∧
      Atomic.run (waiterStep benchConfig) w benchBack = some w' ∧
      acceptedPuts w'.state.sent "Position" = [1] ∧
      ∃ m ∈ acceptedPuts w'.state.sent "Position", 0 ≤ m := by
  refine ⟨_, _, rfl, rfl, rfl, rfl, ?_⟩
  exact delivered_promptly benchConfig benchAway benchBack _ _ (by decide) rfl rfl rfl (by decide) rfl
    (by decide)

end KuksaServices.Feeder
