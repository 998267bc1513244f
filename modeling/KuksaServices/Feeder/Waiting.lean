import KuksaServices.Feeder.Delivery

/-!
# The wait of the feeder

`Run` waits for values in `wait_for`, which gives up the lock and takes it
again before it returns. `Waiter` adds what a wait goes through: it is blocked
until a notification or the end of the five seconds, and only then asks for
the lock. The queue is tested once, before the first wait; `Run` blocks on an
empty queue unless a value was stored after the five seconds and before `Run`
had the lock again (`blocked_on_empty`).
-/

namespace KuksaServices.Feeder

open Atomic (Dict Along Throughout)

variable {D : Type} {dpConfig : DatapointConfiguration D} {s s' : State D}

-- ---------------------------------------------------------------------------
-- A wait
-- ---------------------------------------------------------------------------

inductive Wake where
  | blocked
  | notified
  | timedOut
  deriving DecidableEq, Repr

def Place.waits : Place D → Bool
  | .waiting => true
  | _ => false

def FeedCall.isEmpty : FeedCall D → Bool
  | .feedValue _ _ => false
  | .feedValues values => values.entries.isEmpty

/-- The feeder and the wait it is in; `missed` when a value was stored since
the wait timed out. The code has no such note. -/
structure Waiter (D : Type) where
  state : State D
  wake : Wake
  missed : Bool

def Waiter.initial : Waiter D := ⟨.initial, .blocked, false⟩

def Waiter.isBlocked (w : Waiter D) : Bool := w.state.place.waits && w.wake == .blocked

/-- A step of the feeder, the end of the five seconds, or a notification that
stores nothing: the one of `Shutdown`, or a spurious one. -/
inductive Signal (D : Type) where
  | event (e : Event D)
  | timeout
  | wakeup

def Waiter.allows (w : Waiter D) : Event D → Bool
  | .run (.wakes timeout) => w.wake == if timeout then .timedOut else .notified
  | _ => true

/-- A call notifies while it holds the lock. Where `Run` goes into `wait_for`
it is blocked. -/
def Waiter.after (w : Waiter D) (s' : State D) : Event D → Waiter D
  | .store i => {
      state := s'
      wake := if w.wake = .blocked then .notified else w.wake
      missed := w.missed || w.state.calls[i]?.any (!·.isEmpty) }
  | .run _ => ⟨s', .blocked, false⟩
  | _ => { w with state := s' }

def waiterStep (dpConfig : DatapointConfiguration D) (w : Waiter D) : Signal D → Option (Waiter D)
  | .event e => if w.allows e then (step dpConfig w.state e).map fun s => w.after s e else none
  | .timeout => if w.isBlocked then some { w with wake := .timedOut, missed := false } else none
  | .wakeup => if w.isBlocked then some { w with wake := .notified } else none

def BlockedOnEmpty (w : Waiter D) : Prop :=
  w.isBlocked = true → w.state.storedValues.entries.isEmpty = true

/-- A wait that has timed out goes on only if nothing was stored before `Run`
had the lock again. -/
def NothingMissed (w : Waiter D) : Signal D → Prop
  | .event (.run (.wakes true)) =>
    (w.state.feederActive && w.state.connected) = true → w.missed = false
  | _ => True

-- ---------------------------------------------------------------------------
-- What a store does to the queue
-- ---------------------------------------------------------------------------

theorem isEmpty_iff_lookup {K V : Type} [DecidableEq K] (m : Dict K V) :
    m.entries.isEmpty = true ↔ ∀ k, m.lookup k = none := by
  refine ⟨fun h k => ?_, fun h => ?_⟩
  · rw [AList.lookup, List.isEmpty_iff.mp h]
    rfl
  · refine List.isEmpty_iff.mpr (List.eq_nil_iff_forall_not_mem.mpr fun e he => ?_)
    cases (h e.1).symm.trans (AList.mem_lookup_iff.mpr he)

theorem FeedCall.isEmpty_iff (call : FeedCall D) :
    call.isEmpty = true ↔ ∀ name, call.value? name = none := by
  cases call with
  | feedValue name value =>
    refine ⟨nofun, fun h => ?_⟩
    have hname := h name
    simp [FeedCall.value?] at hname
  | feedValues values => exact isEmpty_iff_lookup values

theorem isEmpty_store (call : FeedCall D) (n : Nat) (stored : DatapointValues D) :
    (call.store n stored).entries.isEmpty = true ↔
      stored.entries.isEmpty = true ∧ call.isEmpty = true := by
  rw [isEmpty_iff_lookup, isEmpty_iff_lookup, call.isEmpty_iff, ← forall_and]
  refine forall_congr' fun name => ?_
  rw [lookup_store, Option.or_eq_none_iff, Option.map_eq_none_iff, and_comm]

-- ---------------------------------------------------------------------------
-- The invariant
-- ---------------------------------------------------------------------------

variable {w w' : Waiter D}

structure Drained (w : Waiter D) : Prop where
  blocked : BlockedOnEmpty w
  timedOut : w.state.place.waits = true → w.wake = .timedOut → w.state.feederActive = true →
    (w.state.storedValues.entries.isEmpty = true ↔ w.missed = false)

theorem drained_of_awake (h : w.state.place.waits = false ∨ w.wake = .notified) : Drained w := by
  refine ⟨fun hb => ?_, fun hp ht => ?_⟩
  · simp only [Waiter.isBlocked, Bool.and_eq_true, beq_iff_eq] at hb
    rcases h with h | h
    · cases h.symm.trans hb.1
    · cases h.symm.trans hb.2
  · rcases h with h | h
    · cases h.symm.trans hp
    · cases h.symm.trans ht

theorem runStep_wakes (hs : runStep dpConfig s (.wakes timeout) = some s') :
    s.place.waits = true ∧ s' = { s with
      place := if s.feederActive && s.connected && timeout then .waiting else .tail } := by
  cases line_of_runStep hs with
  | waiting _ hp => exact ⟨by rw [hp]; rfl, rfl⟩

/-- Other than from a wait, `Run` goes into `wait_for` from the test of the
queue. -/
theorem runStep_waits (hs : runStep dpConfig s input = some s') (hi : ∀ t, input ≠ .wakes t)
    (hp : s'.place.waits = true) : s'.storedValues.entries.isEmpty = true := by
  cases line_of_runStep hs with
  | emptyTest =>
    dsimp only at hp
    split at hp
    · rename_i hc
      exact (Bool.and_eq_true_iff.mp hc).1
    · cases hp
  | waiting => exact absurd rfl (hi _)
  | _ =>
    -- no other line ends in a wait
    try simp only [afterMetadata, delivered] at hp
    repeat' split at hp
    all_goals cases hp

theorem blockedOnEmpty_run : BlockedOnEmpty ⟨s', .blocked, false⟩ ↔
    (s'.place.waits = true → s'.storedValues.entries.isEmpty = true) := by
  simp [BlockedOnEmpty, Waiter.isBlocked]

theorem Drained.wakes (h : Drained w) (ha : w.allows (.run (.wakes timeout)) = true)
    (hs : runStep dpConfig w.state (.wakes timeout) = some s') :
    BlockedOnEmpty ⟨s', .blocked, false⟩ ↔ NothingMissed w (.event (.run (.wakes timeout))) := by
  obtain ⟨hwaits, rfl⟩ := runStep_wakes hs
  rw [blockedOnEmpty_run]
  cases timeout with
  | false => simp [NothingMissed, Place.waits]
  | true =>
    have htimedOut : w.wake = .timedOut := by simpa [Waiter.allows] using ha
    have hqueue := h.timedOut hwaits htimedOut
    cases hactive : w.state.feederActive && w.state.connected with
    | false => simp [NothingMissed, hactive, Place.waits]
    | true =>
      have hqueue := hqueue (Bool.and_eq_true_iff.mp hactive).1
      simp [NothingMissed, hactive, Place.waits, ← hqueue]

theorem Drained.runs (h : Drained w) (ha : w.allows (.run input) = true)
    (hs : runStep dpConfig w.state input = some s') :
    BlockedOnEmpty ⟨s', .blocked, false⟩ ↔ NothingMissed w (.event (.run input)) := by
  cases input with
  | wakes timeout => exact h.wakes ha hs
  | go => exact iff_of_true (blockedOnEmpty_run.mpr (runStep_waits hs nofun)) trivial
  | waitForConnected connected =>
    exact iff_of_true (blockedOnEmpty_run.mpr (runStep_waits hs nofun)) trivial
  | metadata reply => exact iff_of_true (blockedOnEmpty_run.mpr (runStep_waits hs nofun)) trivial
  | registered reply => exact iff_of_true (blockedOnEmpty_run.mpr (runStep_waits hs nofun)) trivial
  | updated reply => exact iff_of_true (blockedOnEmpty_run.mpr (runStep_waits hs nofun)) trivial

theorem Drained.stores (h : Drained w) (hcall : w.state.calls[i]? = some call)
    (hplace : s'.place = w.state.place) (hactive : s'.feederActive = w.state.feederActive)
    (hstored : s'.storedValues = call.store n w.state.storedValues) :
    Drained (w.after s' (.store i)) := by
  cases hwake : w.wake with
  | blocked => exact drained_of_awake (.inr (by simp [Waiter.after, hwake]))
  | notified => exact drained_of_awake (.inr (by simp [Waiter.after, hwake]))
  | timedOut =>
    refine ⟨?_, fun hp _ ha => ?_⟩
    · intro hb
      simp [Waiter.after, Waiter.isBlocked, hwake] at hb
    · have hp : w.state.place.waits = true := hplace ▸ hp
      have hqueue := h.timedOut hp hwake (hactive ▸ ha)
      simp only [Waiter.after, hcall, hstored, isEmpty_store, hqueue, Option.any_some,
        Bool.or_eq_false_iff, Bool.not_eq_false']

theorem Drained.calls (h : Drained w) (hplace : s'.place = w.state.place)
    (hstored : s'.storedValues = w.state.storedValues)
    (hactive : s'.feederActive = w.state.feederActive) : Drained { w with state := s' } := by
  obtain ⟨hblocked, htimedOut⟩ := h
  refine ⟨fun hb => ?_, fun hp ht ha => ?_⟩
  · dsimp only
    rw [hstored]
    exact hblocked (by simpa [Waiter.isBlocked, hplace] using hb)
  · dsimp only at hp ha ⊢
    rw [hstored]
    exact htimedOut (hplace ▸ hp) ht (hactive ▸ ha)

theorem Drained.others (h : Drained w) (hs : step dpConfig w.state e = some s')
    (he : ∀ input, e ≠ .run input) : Drained (w.after s' e) := by
  cases e with
  | run input => exact absurd rfl (he input)
  | store i =>
    obtain ⟨call, hcall, rfl⟩ := Option.map_eq_some_iff.mp hs
    exact h.stores hcall rfl rfl rfl
  | feed call =>
    obtain rfl := Option.some.inj hs
    split <;> exact h.calls rfl rfl rfl
  | shutdown =>
    obtain rfl := Option.some.inj hs
    split <;> exact h.calls rfl rfl rfl
  | client connected =>
    obtain rfl := Option.some.inj hs
    exact h.calls rfl rfl rfl
  | stop =>
    -- the queue is cleared
    obtain ⟨-, hs⟩ := Option.ite_none_right_eq_some.mp hs
    obtain rfl := Option.some.inj hs
    exact ⟨fun _ => rfl, fun _ _ ha => nomatch ha⟩

theorem Drained.keeps (h : Drained w') (hc : NothingMissed w i) :
    (BlockedOnEmpty w' ↔ NothingMissed w i) ∧ (BlockedOnEmpty w' → Drained w') :=
  ⟨iff_of_true h.blocked hc, fun _ => h⟩

theorem Drained.event (h : Drained w) (ha : w.allows e = true)
    (hs : step dpConfig w.state e = some s') :
    (BlockedOnEmpty (w.after s' e) ↔ NothingMissed w (.event e)) ∧
      (BlockedOnEmpty (w.after s' e) → Drained (w.after s' e)) := by
  cases e with
  | run input => exact ⟨h.runs ha hs, fun hb => ⟨hb, fun _ ht => nomatch ht⟩⟩
  | store i => exact (h.others hs nofun).keeps trivial
  | feed call => exact (h.others hs nofun).keeps trivial
  | shutdown => exact (h.others hs nofun).keeps trivial
  | client connected => exact (h.others hs nofun).keeps trivial
  | stop => exact (h.others hs nofun).keeps trivial

theorem Drained.step (h : Drained w) (hw : waiterStep dpConfig w i = some w') :
    (BlockedOnEmpty w' ↔ NothingMissed w i) ∧ (BlockedOnEmpty w' → Drained w') := by
  cases i with
  | event e =>
    obtain ⟨ha, hw⟩ := Option.ite_none_right_eq_some.mp hw
    obtain ⟨s', hs, rfl⟩ := Option.map_eq_some_iff.mp hw
    exact h.event ha hs
  | timeout =>
    obtain ⟨hb, hw⟩ := Option.ite_none_right_eq_some.mp hw
    obtain rfl := Option.some.inj hw
    have hkeep : Drained { w with wake := .timedOut, missed := false } := by
      refine ⟨fun hb' => ?_, fun _ _ _ => iff_of_true (h.blocked hb) rfl⟩
      simp [Waiter.isBlocked] at hb'
    exact hkeep.keeps trivial
  | wakeup =>
    obtain ⟨-, hw⟩ := Option.ite_none_right_eq_some.mp hw
    obtain rfl := Option.some.inj hw
    have hkeep : Drained { w with wake := .notified } := drained_of_awake (.inr rfl)
    exact hkeep.keeps trivial

/-- In exactly the runs in which no value falls between the end of the five
seconds and the lock, `Run` is never blocked while a value is queued. -/
theorem blocked_on_empty (dpConfig : DatapointConfiguration D) (signals : List (Signal D)) :
    Throughout (waiterStep dpConfig) BlockedOnEmpty .initial signals ↔
      Along (waiterStep dpConfig) NothingMissed .initial signals := by
  have hstart : Drained (Waiter.initial : Waiter D) := drained_of_awake (.inl rfl)
  exact Atomic.throughout_iff_along_of_keeps (fun _ h => Drained.blocked h)
    (fun _ _ _ h hs => Drained.step h hs) hstart

/-- The first batch is accepted and `Run` waits; the five seconds are over, a
value is stored, and only then `Run` has the lock. -/
def benchLateValue : List (Signal (Option Nat)) :=
  List.flatten [
    benchConnect.map .event,
    [.event (.run .go), .event (.run (.updated (.ok []))), .event (.run .go), .event (.run .go)],
    [.timeout], (benchFeed 20).map .event, [.event (.run (.wakes true))]]

/-- `Run` waits again, connected and active, with the value in its queue. -/
theorem waits_with_value :
    ∃ w, Atomic.run (waiterStep benchConfig) .initial benchLateValue = some w ∧
      w.isBlocked = true ∧ w.state.feederActive = true ∧ w.state.connected = true ∧
      w.state.storedValues.lookup "Position" = some ⟨some 20, .put 0⟩ ∧ ¬BlockedOnEmpty w := by
  refine ⟨_, rfl, rfl, rfl, rfl, rfl, fun h => ?_⟩
  cases h rfl

end KuksaServices.Feeder
