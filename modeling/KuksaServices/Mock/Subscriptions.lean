import KuksaServices.Atomic.Fanout
import KuksaServices.Mock.Loading
import KuksaServices.Mock.Rounds

/-!
# Subscriptions

Every load of mocks subscribes to their paths, once for target values and
once for current values, and hands the two streams to threads of their own.
The streams of earlier loads are never closed, so that an update of the broker
arrives once for every load that knew its path. It becomes one event exactly
when the path is in one subscription only (`one_event_iff`).
-/

namespace KuksaServices.Mock

open Atomic (Raise Frame Channel Throughout Along)

variable {script : Script} {s t : Service}

-- ---------------------------------------------------------------------------
-- Subscriptions only grow
-- ---------------------------------------------------------------------------

def growing : Frame Service where
  on _ := True
  does s t := s.subscriptions <+: t.subscriptions
  refl _ := List.prefix_rfl
  trans := List.IsPrefix.trans
  keeps _ _ := trivial

theorem growing_setDatapoint (path : Path) (value : Value) :
    Raise.Within growing (setDatapoint path value) := by
  refine .bind (fun s _ => List.prefix_rfl) fun _ => fun s _ => ?_
  change s.subscriptions <+: (discardEvent path s).subscriptions
  unfold discardEvent
  cases lastMatch .value path s.pending with
  | none => exact List.prefix_rfl
  | some e => exact List.prefix_rfl

theorem growing_setValue (r : Ref) (value : Value) : Raise.Within growing (setValue r value) := by
  refine .bind (fun s _ => ?_) fun heard => ?_
  · change s.subscriptions <+: (assignValue r value s).2.subscriptions
    unfold assignValue
    dsimp only
    split <;> exact List.prefix_rfl
  · split
    · exact .bind (.peek _ _) fun d => growing_setDatapoint _ _
    · exact .pure _

theorem growing_of_touches {p : Py α} (h : ∀ s, Touches F s (p.exec s).2) : Raise.Within growing p := by
  intro s _
  change s.subscriptions <+: (p.exec s).2.subscriptions
  simp [(h s).subscriptions]

theorem growing_of_loading {p : Py α} (h : Raise.Within (loadingFrame 0) p) : Raise.Within growing p :=
  growing_of_touches fun s => h s (Nat.zero_le _)

theorem growing_executeAction (b : Behavior) (trigger : TriggerResult) (r : Ref) (path : Path) :
    Raise.Within growing (executeAction script b trigger r path) :=
  executeAction_within (fun _ _ _ => List.prefix_rfl) (growing_setValue r)
    (fun _ _ _ _ _ _ => List.prefix_rfl) trigger path

theorem growing_visit (path : Path) (r : Ref) (deltaTime : ℚ) (b : Behavior) :
    Raise.Within growing (visitBehavior script path r deltaTime b) := by
  refine visitBehavior_within (fun _ _ _ => List.prefix_rfl) (fun s _ => ?_)
    (fun _ _ => List.prefix_rfl) fun result => growing_executeAction b result r path
  change s.subscriptions <+: (checkTriggerOf b path deltaTime s).2.subscriptions
  unfold checkTriggerOf
  dsimp only
  split <;> exact List.prefix_rfl

theorem growing_execute (deltaTime : ℚ) : Raise.Within growing (execute script deltaTime) := by
  refine .bind (.peek _ _) fun mocked => .forEach fun e _ => ?_
  exact .forUntil fun b _ => growing_visit _ _ _ b

theorem growing_animate (deltaTime : ℚ) : Raise.Within growing (animate script deltaTime) := by
  refine .bind (.peek _ _) fun mocked => .forEach fun e _ => .forEach fun b _ => ?_
  refine .bind (.peek _ _) fun action => ?_
  split
  · exact .pure _
  · split
    · exact .raise
    · split
      · exact .pure _
      · exact .bind (fun s _ => List.prefix_rfl) fun _ => growing_setValue _ _

theorem growing_reload : Raise.Within growing (reload script) := by
  refine .bind ?_ fun mocked => fun s _ => ?_
  · refine .bind (fun s _ => List.prefix_rfl) fun _ => ?_
    exact loadRegistry_within (fun _ _ _ _ => List.prefix_rfl) fun d dataType b =>
      growing_of_loading (within_forceBehavior d dataType b)
  · change s.subscriptions <+: (adopt mocked s).subscriptions
    unfold adopt
    dsimp only
    split
    · exact List.prefix_rfl
    · exact List.prefix_append _ _

theorem growing_tick (deltaTime : ℚ) : Raise.Within growing (tick script deltaTime) := by
  refine .bind ?_ fun _ => .bind (growing_execute deltaTime) fun _ => growing_animate deltaTime
  refine .bind (.peek _ _) fun changed => ?_
  split
  · exact growing_reload
  · exact .pure _

-- ---------------------------------------------------------------------------
-- Updates on their way
-- ---------------------------------------------------------------------------

/-- An update of one field of a path. -/
structure Update where
  id : Nat
  field : EventType
  path : Path
  value : Value
  deriving DecidableEq, Repr

def Update.event (u : Update) : Event := ⟨u.field, u.path, u.value⟩

abbrev Topic := EventType × List Path

def Topic.covers (field : EventType) (path : Path) (topic : Topic) : Bool :=
  topic.1 == field && topic.2.contains path

/-- The two streams of a subscription. -/
def subscribe (subscriptions : List (List Path)) : List (Channel Topic Update) :=
  subscriptions.flatMap fun paths => [⟨(.actuatorTarget, paths), []⟩, ⟨(.value, paths), []⟩]

/-- The service with its streams. `published` has the updates of subscribed
paths, and `received` the events that came of updates. -/
structure Wired where
  running : Running
  streams : List (Channel Topic Update)
  next : Nat
  published : List Update
  received : List (Nat × Event)

def Wired.start (service : Service) : Wired where
  running := ⟨service, false⟩
  streams := subscribe service.subscriptions
  next := 0
  published := []
  received := []

inductive WireInput where
  | edit (e : Edit)
  | tick (deltaTime : ℚ)
  | setExternally (path : Path) (value : Value)
  | publish (field : EventType) (path : Path) (value : Value)
  /-- The thread of a stream handles its next update. -/
  | deliver (i : Nat)
  deriving DecidableEq, Repr

def Wired.tick (script : Script) (s : Wired) (deltaTime : ℚ) : Wired :=
  let (result, t) := (Mock.tick script deltaTime).exec s.running.service
  { s with
    running := ⟨t, result.isNone⟩
    streams := s.streams ++ subscribe (t.subscriptions.drop s.running.service.subscriptions.length) }

def Wired.publish (s : Wired) (field : EventType) (path : Path) (value : Value) : Wired :=
  let u : Update := ⟨s.next, field, path, value⟩
  { s with
    streams := Channel.publish (Topic.covers field path) u s.streams
    next := s.next + 1
    published := if s.running.service.subscriptions.any (·.contains path) then s.published ++ [u]
      else s.published }

def Wired.receive (s : Wired) (field : EventType) (u : Update) : Wired :=
  let t := Mock.receive field u.path u.value s.running.service
  { s with
    running := { s.running with service := t }
    received := s.received ++ (t.pending.drop s.running.service.pending.length).map fun e => (u.id, e) }

def wireStep (script : Script) (s : Wired) : WireInput → Option Wired
  | .edit e => some { s with running := { s.running with service := edit e s.running.service } }
  | .tick deltaTime => if s.running.raised then none else some (s.tick script deltaTime)
  | .setExternally path value =>
    some { s with running := { s.running with service := setExternally path value s.running.service } }
  | .publish field path value => some (s.publish field path value)
  | .deliver i => (Channel.deliver i s.streams).map fun (topic, u, streams) =>
    { s with streams := streams }.receive topic.1 u

-- ---------------------------------------------------------------------------
-- One event for one update
-- ---------------------------------------------------------------------------

/-- Every update is one event, received or still to come. -/
def ExactlyOne (s : Wired) : Prop :=
  ∀ u ∈ s.published, u.value ≠ .none →
    s.received.count (u.id, u.event) + Channel.inFlight u s.streams = 1

/-- An update is published while its path is in one subscription at most. -/
def OneSubscription (s : Wired) : WireInput → Prop
  | .publish _ path value =>
    value = .none ∨ s.running.service.subscriptions.countP (·.contains path) ≤ 1
  | _ => True

instance (s : Wired) : DecidablePred (OneSubscription s)
  | .publish .. => inferInstanceAs (Decidable (_ ∨ _))
  | .edit _ | .tick _ | .setExternally .. | .deliver _ => inferInstanceAs (Decidable True)

def topics (subscriptions : List (List Path)) : List Topic :=
  subscriptions.flatMap fun paths => [(.actuatorTarget, paths), (.value, paths)]

theorem keys_subscribe (subscriptions : List (List Path)) :
    Channel.keys (subscribe subscriptions) = topics subscriptions := by
  simp [Channel.keys, subscribe, topics, List.map_flatMap]

theorem each_subscribe (Q : Topic → Update → Prop) (subscriptions : List (List Path)) :
    Channel.Each Q (subscribe subscriptions) := by
  simp only [Channel.Each, subscribe, List.mem_flatMap, List.mem_cons, List.not_mem_nil, or_false]
  rintro stream ⟨paths, -, rfl | rfl⟩ u hu <;> cases hu

theorem countP_topics (field : EventType) (path : Path) (subscriptions : List (List Path)) :
    (topics subscriptions).countP (Topic.covers field path) =
      subscriptions.countP (·.contains path) := by
  induction subscriptions with
  | nil => rfl
  | cons paths subscriptions ih =>
    simp only [topics, List.flatMap_cons, List.countP_append] at ih ⊢
    rw [ih]
    cases field <;> simp [Topic.covers, List.countP_cons, Nat.add_comm]

/-- The streams belong to the subscriptions, and updates are told by their
ids. -/
structure Tracked (s : Wired) : Prop where
  topics : Channel.keys s.streams = topics s.running.service.subscriptions
  fields : Channel.Each (fun topic u => u.field = topic.1) s.streams
  queued : Channel.Each (fun _ u => u.id < s.next) s.streams
  published : ∀ u ∈ s.published, u.id < s.next
  received : ∀ x ∈ s.received, x.1 < s.next
  known : Channel.Each (fun _ u => ∀ u' ∈ s.published, u'.id = u.id → u' = u) s.streams

theorem tracked_start (service : Service) : Tracked (.start service) where
  topics := keys_subscribe _
  fields := each_subscribe _ _
  queued := each_subscribe _ _
  published := by simp [Wired.start]
  received := by simp [Wired.start]
  known := each_subscribe _ _

theorem tick_streams (script : Script) (s : Wired) (deltaTime : ℚ) :
    ∃ more, (s.tick script deltaTime).streams = s.streams ++ subscribe more ∧
      (s.tick script deltaTime).running.service.subscriptions =
        s.running.service.subscriptions ++ more := by
  have hgrows : s.running.service.subscriptions <+:
      ((Mock.tick script deltaTime).exec s.running.service).2.subscriptions :=
    growing_tick deltaTime s.running.service trivial
  obtain ⟨more, hmore⟩ := hgrows
  refine ⟨more, ?_, hmore.symm⟩
  simp [Wired.tick, ← hmore]

theorem Tracked.tick {s : Wired} (h : Tracked s) (deltaTime : ℚ) : Tracked (s.tick script deltaTime) := by
  obtain ⟨more, hstreams, hsubscriptions⟩ := tick_streams script s deltaTime
  refine ⟨?_, ?_, ?_, h.published, h.received, ?_⟩
  · rw [hstreams, hsubscriptions]
    have hkeys := congrArg₂ (· ++ ·) h.topics (keys_subscribe more)
    simpa [Channel.keys, Mock.topics] using hkeys
  · rw [hstreams]
    exact h.fields.append (each_subscribe _ _)
  · rw [hstreams]
    exact h.queued.append (each_subscribe _ _)
  · rw [hstreams]
    exact h.known.append (each_subscribe _ _)

theorem mem_publish {s : Wired} (hu : u ∈ (s.publish field path value).published) :
    u ∈ s.published ∨ u = ⟨s.next, field, path, value⟩ := by
  simp only [Wired.publish] at hu
  split at hu
  · simpa using hu
  · exact .inl hu

theorem Tracked.publish {s : Wired} (h : Tracked s) (field : EventType) (path : Path) (value : Value) :
    Tracked (s.publish field path value) := by
  have hnext : ∀ n, n < s.next → n < s.next + 1 := fun n hn => Nat.lt_succ_of_lt hn
  refine ⟨?_, ?_, ?_, ?_, ?_, ?_⟩
  · exact (Channel.keys_publish _ _ _).trans h.topics
  · refine h.fields.publish fun topic htopic => ?_
    simp only [Topic.covers, Bool.and_eq_true, beq_iff_eq] at htopic
    exact htopic.1.symm
  · exact (h.queued.mono fun _ u hu => hnext u.id hu).publish fun _ _ => Nat.lt_succ_self _
  · intro u hu
    rcases mem_publish hu with hu | rfl
    · exact hnext u.id (h.published u hu)
    · exact Nat.lt_succ_self _
  · exact fun x hx => hnext x.1 (h.received x hx)
  · -- an id that is new tells the new update from all others
    refine Channel.Each.publish (fun stream hs u hu u' hu' hid => ?_) fun topic _ u' hu' hid => ?_
    · rcases mem_publish hu' with hu' | rfl
      · exact h.known stream hs u hu u' hu' hid
      · exact absurd (h.queued stream hs u hu) (Nat.not_lt_of_le (Nat.le_of_eq hid))
    · rcases mem_publish hu' with hu' | rfl
      · exact absurd (h.published u' hu') (Nat.not_lt_of_le (Nat.le_of_eq hid.symm))
      · rfl

theorem receive_pending (field : EventType) (path : Path) (value : Value) (s : Service) :
    (receive field path value s).pending.drop s.pending.length =
      if value ≠ .none then [⟨field, path, value⟩] else [] := by
  unfold receive
  split
  · simp
  · simp

theorem receive_subscriptions (field : EventType) (path : Path) (value : Value) (s : Service) :
    (receive field path value s).subscriptions = s.subscriptions := by
  unfold receive
  split <;> rfl

theorem Wired.receive_received (s : Wired) (field : EventType) (u : Update) (hf : u.field = field) :
    (s.receive field u).received =
      s.received ++ if u.value ≠ .none then [(u.id, u.event)] else [] := by
  subst hf
  simp only [Wired.receive, receive_pending]
  split <;> rfl

theorem Tracked.deliver {s : Wired} (h : Tracked s)
    (hd : Channel.deliver i s.streams = some (topic, u, streams)) :
    Tracked ({ s with streams := streams }.receive topic.1 u) := by
  obtain ⟨hfield, hfields⟩ := h.fields.deliver hd
  obtain ⟨hid, hqueued⟩ := h.queued.deliver hd
  obtain ⟨-, hknown⟩ := h.known.deliver hd
  refine ⟨?_, hfields, hqueued, h.published, fun x hx => ?_, hknown⟩
  · have hkeys := (Channel.keys_deliver hd).trans h.topics
    simpa [Wired.receive, receive_subscriptions] using hkeys
  · rw [Wired.receive_received _ _ _ hfield] at hx
    rcases List.mem_append.mp hx with hx | hx
    · exact h.received x hx
    · split at hx
      · simp only [List.mem_singleton] at hx
        rw [hx]
        exact hid
      · cases hx

theorem Tracked.step {s t : Wired} (h : Tracked s) (hs : wireStep script s input = some t) :
    Tracked t := by
  cases input with
  | edit e =>
    cases hs
    exact ⟨h.topics, h.fields, h.queued, h.published, h.received, h.known⟩
  | tick deltaTime =>
    simp only [wireStep] at hs
    split at hs
    · cases hs
    · cases hs
      exact h.tick deltaTime
  | setExternally path value =>
    cases hs
    exact ⟨h.topics, h.fields, h.queued, h.published, h.received, h.known⟩
  | publish field path value =>
    cases hs
    exact h.publish field path value
  | deliver i =>
    simp only [wireStep, Option.map_eq_some_iff] at hs
    obtain ⟨⟨topic, u, streams⟩, hd, rfl⟩ := hs
    exact h.deliver hd

-- ---------------------------------------------------------------------------
-- Counting
-- ---------------------------------------------------------------------------

def Wired.total (s : Wired) (u : Update) : Nat :=
  s.received.count (u.id, u.event) + Channel.inFlight u s.streams

theorem total_tick (s : Wired) (deltaTime : ℚ) (u : Update) :
    (s.tick script deltaTime).total u = s.total u := by
  obtain ⟨more, hstreams, -⟩ := tick_streams script s deltaTime
  have hnone : Channel.inFlight u (subscribe more) = 0 :=
    Channel.inFlight_eq_zero (each_subscribe _ _)
  simp only [Wired.total, hstreams, Channel.inFlight_append, hnone]
  rfl

theorem total_publish_old {s : Wired} (h : Tracked s) (hu : u ∈ s.published) :
    (s.publish field path value).total u = s.total u := by
  have hne : (⟨s.next, field, path, value⟩ : Update) ≠ u := by
    rintro rfl
    exact Nat.lt_irrefl _ (h.published _ hu)
  simp only [Wired.total, Wired.publish, Channel.inFlight_publish, hne, if_false, Nat.add_zero]

theorem total_publish_new {s : Wired} (h : Tracked s) :
    (s.publish field path value).total ⟨s.next, field, path, value⟩ =
      s.running.service.subscriptions.countP (·.contains path) := by
  have hreceived : s.received.count (s.next, (⟨s.next, field, path, value⟩ : Update).event) = 0 :=
    List.count_eq_zero.mpr fun hmem => Nat.lt_irrefl _ (h.received _ hmem)
  have hqueued : Channel.inFlight (⟨s.next, field, path, value⟩ : Update) s.streams = 0 := by
    refine Channel.inFlight_eq_zero (h.queued.mono fun _ u hu => ?_)
    rintro rfl
    exact Nat.lt_irrefl _ hu
  simp only [Wired.total, Wired.publish, Channel.inFlight_publish, hreceived, hqueued, if_true,
    h.topics, countP_topics, Nat.zero_add]

theorem total_deliver {s : Wired} (h : Tracked s)
    (hd : Channel.deliver i s.streams = some (topic, u, streams)) (hu : u' ∈ s.published)
    (hv : u'.value ≠ .none) :
    ({ s with streams := streams }.receive topic.1 u).total u' = s.total u' := by
  obtain ⟨hfield, -⟩ := h.fields.deliver hd
  obtain ⟨hknown, -⟩ := h.known.deliver hd
  have hflight := Channel.inFlight_deliver hd u'
  simp only [Wired.total, Wired.receive_received _ _ _ hfield, List.count_append, hflight]
  change _ + Channel.inFlight u' streams = _
  by_cases heq : u = u'
  · subst heq
    simp [hv, Nat.add_assoc, Nat.add_comm 1]
  · have hid : u.id ≠ u'.id := fun hid => heq (hknown u' hu hid.symm).symm
    by_cases hvalue : u.value = .none
    · simp [hvalue, heq]
    · simp [hvalue, heq, hid]

theorem exactlyOne_publish {s : Wired} (h : Tracked s) (hs : ExactlyOne s) (field : EventType)
    (path : Path) (value : Value) :
    ExactlyOne (s.publish field path value) ↔ OneSubscription s (.publish field path value) := by
  constructor
  · intro ht
    by_cases hv : value = .none
    · exact .inl hv
    refine .inr ?_
    by_cases hany : s.running.service.subscriptions.any (·.contains path) = true
    · have hmem : (⟨s.next, field, path, value⟩ : Update) ∈ (s.publish field path value).published := by
        simp only [Wired.publish, hany, if_true]
        exact List.mem_append_right _ List.mem_cons_self
      have hone : (s.publish field path value).total ⟨s.next, field, path, value⟩ = 1 := ht _ hmem hv
      rw [total_publish_new h] at hone
      exact Nat.le_of_eq hone
    · have hzero : s.running.service.subscriptions.countP (·.contains path) = 0 := by
        simpa [List.countP_eq_zero] using hany
      exact hzero.trans_le (Nat.zero_le 1)
  · intro hc u hu hv
    change (s.publish field path value).total u = 1
    simp only [Wired.publish] at hu
    split at hu
    · rename_i hany
      rcases List.mem_append.mp hu with hu | hu
      · exact (total_publish_old h hu).trans (hs u hu hv)
      · rw [List.mem_singleton.mp hu] at hv ⊢
        rw [total_publish_new h]
        have hle := hc.resolve_left hv
        have hpos : 0 < s.running.service.subscriptions.countP (·.contains path) := by
          simpa [List.countP_pos_iff] using hany
        omega
    · exact (total_publish_old h hu).trans (hs u hu hv)

theorem exactlyOne_step {s t : Wired} (h : Tracked s) (hs : ExactlyOne s)
    (hstep : wireStep script s input = some t) : ExactlyOne t ↔ OneSubscription s input := by
  cases input with
  | edit e =>
    cases hstep
    exact iff_of_true hs trivial
  | tick deltaTime =>
    simp only [wireStep] at hstep
    split at hstep
    · cases hstep
    · cases hstep
      refine iff_of_true (fun u hu hv => ?_) trivial
      exact (total_tick s deltaTime u).trans (hs u hu hv)
  | setExternally path value =>
    cases hstep
    exact iff_of_true hs trivial
  | publish field path value =>
    cases hstep
    exact exactlyOne_publish h hs field path value
  | deliver i =>
    simp only [wireStep, Option.map_eq_some_iff] at hstep
    obtain ⟨⟨topic, u, streams⟩, hd, rfl⟩ := hstep
    refine iff_of_true (fun u' hu' hv => ?_) trivial
    exact (total_deliver h hd hu' hv).trans (hs u' hu' hv)

/-- In every run from every state of the service: every update of a
subscribed path is one event, received or on its way, exactly when no path
is in two subscriptions at the time of an update. -/
theorem one_event_iff (script : Script) (service : Service) (inputs : List WireInput) :
    Throughout (wireStep script) ExactlyOne (.start service) inputs ↔
      Along (wireStep script) OneSubscription (.start service) inputs := by
  refine Atomic.throughout_iff_along (I := Tracked) (fun s i t hi hs => hi.step hs)
    (fun s i t hi hp hs => exactlyOne_step hi hp hs) (tracked_start service) ?_
  simp [ExactlyOne, Wired.start]

-- ---------------------------------------------------------------------------
-- A second load
-- ---------------------------------------------------------------------------

def Service.benchBlank : Service :=
  { Service.bench with
    registry := ⟨[], fun _ => [], []⟩
    mocked := []
    subscriptions := [] }

def benchReloads : List WireInput :=
  [.edit (.mockDatapoint "Lamp" (.number 0) 0), .tick 1, .edit (.mockDatapoint "Horn" (.number 0) 1),
    .tick 1, .publish .actuatorTarget "Lamp" (.number 5), .deliver 0, .deliver 2]

/-- After a reload one update becomes two events. -/
theorem update_received_twice :
    ∃ s, Atomic.run (wireStep .bench) (.start .benchBlank) benchReloads = some s ∧
      s.published = [⟨0, .actuatorTarget, "Lamp", .number 5⟩] ∧
      s.running.service.pending =
        [⟨.actuatorTarget, "Lamp", .number 5⟩, ⟨.actuatorTarget, "Lamp", .number 5⟩] ∧
      ¬ ExactlyOne s := by
  refine ⟨_, rfl, by decide, by decide, fun hone => ?_⟩
  have htwo := hone ⟨0, .actuatorTarget, "Lamp", .number 5⟩ (by decide) (by decide)
  exact absurd htwo (by decide)

end KuksaServices.Mock
