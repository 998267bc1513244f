import KuksaServices.Mock.Animation
import KuksaServices.Mock.Binding
import KuksaServices.Mock.Session

/-!
# Contracts of mocked datapoints

A contract says what the mock may write to each path, given what the broker
may hold and what events may bring. Behaviors are checked against it one by
one (`Contract.Types`): a literal must be allowed, a reference must read
allowed values only, and so must the 0 that `get_datapoint_value` gives for a
path without a value; what an animation runs between must be an interval.

When the registered behaviors, the edits and the environment keep to the
contract, so does everything that the service writes, in every run and with
every order of its threads (`contract_kept`).
-/

namespace KuksaServices.Mock

open Atomic (Raise Along Throughout)

/-- `carries` is what the events of a trigger object may bring to the
behaviors that share it. -/
structure Contract where
  writes : Path → Value → Prop
  holds : Path → Value → Prop
  events : EventType → Path → Value → Prop
  carries : Ref → Value → Prop
  writes_holds : ∀ p v, writes p v → holds p v

-- ---------------------------------------------------------------------------
-- The rules
-- ---------------------------------------------------------------------------

section
variable (C : Contract)

/-- What the value is resolved to fits. -/
inductive Contract.Resolves (path : Path) (trigger : Ref) (fits : Value → Prop) (value : Value) : Prop
  | reads {q : Path} (h : pathRead path value = some q) (hholds : ∀ v, C.holds q v → fits v)
    (hdefault : fits (.number 0)) : Contract.Resolves path trigger fits value
  | event (h : value = .text "$event.value") (hcarries : ∀ v, C.carries trigger v → fits v) :
    Contract.Resolves path trigger fits value
  | literal (h : pathRead path value = none) (hno : value ≠ .text "$event.value") (hfits : fits value) :
    Contract.Resolves path trigger fits value

def Contract.Yields (path : Path) (trigger : Ref) (dynamic : Bool) (fits : Value → Prop)
    (value : Value) : Prop :=
  if dynamic then C.Resolves path trigger fits value else fits value

/-- A `SetAction` does not set `None`. -/
def Contract.Sets (path : Path) (value : Value) : Prop := value ≠ .none → C.writes path value

structure Contract.Interval (path : Path) : Prop where
  number : ∀ v, C.writes path v → ∃ q, v = .number q
  between : ∀ lo q hi, C.writes path (.number lo) → C.writes path (.number hi) → lo ≤ q → q ≤ hi →
    C.writes path (.number q)

structure Contract.Types (h : Heap) (path : Path) (b : Behavior) : Prop where
  event : ∀ t, h.triggers b.trigger = .event t →
    ∀ v, C.events t.eventType (t.bound path) v → C.carries b.trigger v
  set : ∀ a, h.actions b.action = .set a → C.Yields path b.trigger a.dynamic (C.Sets path) a.value
  animation : ∀ a, h.actions b.action = .animation a → C.Interval path ∧
    ∀ v ∈ a.values, C.Yields path b.trigger a.dynamic (C.writes path) v

def Contract.TypesRegistry (h : Heap) (r : Registry) : Prop :=
  ∀ d ∈ r.mocked, C.writes d.path d.initialValue ∧ ∀ b ∈ r.behaviors d, C.Types h d.path b

/-- An edit brings in what keeps to the contract. A behavior goes to every
registration that shares the list. -/
def Contract.TypesEdit (h : Heap) (r : Registry) : Edit → Prop
  | .mockDatapoint path initialValue behaviors =>
    C.writes path initialValue ∧ ∀ b ∈ r.lists behaviors, C.Types h path b
  | .addBehavior b path => ∀ d ∈ r.mocked, d.path = path →
    ∀ d' ∈ r.mocked, d'.behaviors = d.behaviors → C.Types h d'.path b
  | _ => True

def Contract.TypesEdits (h : Heap) : Registry → List Edit → Prop
  | _, [] => True
  | r, e :: es => C.TypesEdit h r e ∧ Contract.TypesEdits h (e.apply h r) es

/-- The animator plays on a datapoint that nobody listens to, or between values
that may be written. -/
def Contract.Follows (script : Script) (s : Service) (a : ValueAnimator) : Prop :=
  s.Unheard a.datapoint ∨ C.Interval (s.datapoints a.datapoint).path ∧
    (∀ v ∈ a.values, C.writes (s.datapoints a.datapoint).path v) ∧
    (script.interp1d a.values a.duration).isSome = true

structure Contract.Kept (script : Script) (s : Service) : Prop where
  grounded : Grounded s
  registry : C.TypesRegistry s.heap s.registry
  mocked : ∀ e ∈ s.mocked, ∀ b ∈ e.2.behaviors, C.Types s.heap e.1 b
  broker : ∀ p v, s.broker p = some v → C.holds p v
  pending : ∀ e ∈ s.pending, C.events e.name e.path e.value
  written : ∀ p, ∀ v ∈ writtenTo p s.log, C.writes p v
  datapoints : ∀ r < s.fresh, (s.datapoints r).hasListener = true → (s.datapoints r).dataType.isSome = true →
    C.writes (s.datapoints r).path (s.datapoints r).value
  animators : ∀ r a, (s.heap.actions r).animator? = some a → C.Follows script s a

end

/-- On numbers, the interpolation stays between two of them. -/
def Interp1d.Between (interp1d : Interp1d) : Prop :=
  ∀ (numbers : List ℚ) duration f, interp1d (numbers.map .number) duration = some f →
    ∀ t, ∃ q, f t = .number q ∧ (∃ lo ∈ numbers, lo ≤ q) ∧ ∃ hi ∈ numbers, q ≤ hi

variable {C : Contract} {script : Script} {s t u : Service} {h h' : Heap} {r r' : Registry}
  {b b' : Behavior} {path p : Path} {F : Footprint} {x : Ref}

-- ---------------------------------------------------------------------------
-- Edits
-- ---------------------------------------------------------------------------

theorem Contract.TypesRegistry.of_subset (ht : C.TypesRegistry h r) (hm : ∀ d ∈ r'.mocked, d ∈ r.mocked)
    (hl : ∀ x, ∀ b ∈ r'.lists x, b ∈ r.lists x) : C.TypesRegistry h r' := by
  intro d hd
  obtain ⟨hinitial, hbehaviors⟩ := ht d (hm d hd)
  exact ⟨hinitial, fun b hb => hbehaviors b (hl d.behaviors b hb)⟩

theorem Contract.TypesRegistry.reads (ht : C.TypesRegistry h r) (hr : r.Reads r') :
    C.TypesRegistry h r' := by
  refine ht.of_subset ?_ ?_
  · rw [hr.mocked]
    exact fun d hd => hd
  · rw [hr.lists]
    exact fun x b hb => hb

theorem deleteBehavior_subset (h : Heap) (r : Registry) (b : Behavior) (path : Path) :
    (r.deleteBehaviorOfMockedDatapoint h b path).mocked = r.mocked ∧
      ∀ x, ∀ c ∈ (r.deleteBehaviorOfMockedDatapoint h b path).lists x, c ∈ r.lists x := by
  unfold Registry.deleteBehaviorOfMockedDatapoint
  refine List.foldlRecOn (motive := fun r' : Registry => r'.mocked = r.mocked ∧
    ∀ x, ∀ c ∈ r'.lists x, c ∈ r.lists x) _ _ ⟨rfl, fun x c hc => hc⟩ ?_
  rintro r' ⟨hm, hl⟩ d -
  split
  · refine ⟨hm, fun x c hc => hl x c ?_⟩
    by_cases hx : x = d.behaviors
    · subst hx
      simp only [Function.update_self] at hc
      exact (removeFrom_sublist _ _ _ _).subset hc
    · simpa only [Function.update_of_ne hx] using hc
  · exact ⟨hm, hl⟩

theorem Contract.TypesRegistry.edit {e : Edit} (ht : C.TypesRegistry h r) (he : C.TypesEdit h r e) :
    C.TypesRegistry h (e.apply h r) := by
  cases e with
  | mockDatapoint path initialValue behaviors =>
    simp only [Edit.apply, Registry.mockDatapoint]
    split
    · exact ht
    · intro d hd
      rcases List.mem_append.mp hd with hd | hd
      · exact ht d hd
      · obtain rfl := List.mem_singleton.mp hd
        exact he
  | addBehavior b path =>
    simp only [Edit.apply, Registry.addBehavior]
    cases hfind : r.mocked.find? (·.path == path) with
    | none => exact ht
    | some d =>
      have hd := List.mem_of_find?_eq_some hfind
      have hpath : d.path = path := by simpa using List.find?_some hfind
      intro d' hd'
      obtain ⟨hinitial, hbehaviors⟩ := ht d' hd'
      refine ⟨hinitial, fun c hc => ?_⟩
      by_cases hx : d'.behaviors = d.behaviors
      · simp only [Option.elim_some, Registry.behaviors, hx, Function.update_self] at hc
        rcases List.mem_append.mp hc with hc | hc
        · exact hbehaviors c (by rw [Registry.behaviors, hx]; exact hc)
        · obtain rfl := List.mem_singleton.mp hc
          exact he d hd hpath d' hd' hx
      · refine hbehaviors c ?_
        simpa only [Option.elim_some, Registry.behaviors, Function.update_of_ne hx] using hc
  | deleteBehaviorOfMockedDatapoint b path =>
    obtain ⟨hm, hl⟩ := deleteBehavior_subset h r b path
    exact ht.of_subset (fun d hd => hm ▸ hd) hl
  | deleteMockedDatapoint path =>
    exact ht.of_subset (fun d hd => (removeFrom_sublist _ _ _ _).subset hd) fun x b hb => hb
  | deleteAllMockedDatapoints => exact fun d hd => by cases hd
  | createEventTrigger path =>
    cases path with
    | none => exact ht
    | some path => exact ht.reads (reads_require r path)

theorem Contract.TypesRegistry.edits {es : List Edit} (ht : C.TypesRegistry h r)
    (hes : C.TypesEdits h r es) : C.TypesRegistry h (es.foldl (Edit.apply h) r) := by
  induction es generalizing r with
  | nil => exact ht
  | cons e es ih => exact ih (ht.edit hes.1) hes.2

-- ---------------------------------------------------------------------------
-- Objects under change
-- ---------------------------------------------------------------------------

theorem Contract.Types.congr (ht : C.Types h p b) (htrigger : h'.triggers b.trigger = h.triggers b.trigger)
    (hblank : (h'.actions b.action).blank = (h.actions b.action).blank) : C.Types h' p b := by
  refine ⟨fun t hevent => ht.event t (htrigger ▸ hevent), fun a ha => ?_, fun a ha => ?_⟩
  · rw [ha] at hblank
    cases ha' : h.actions b.action with
    | set a' =>
      rw [ha'] at hblank
      obtain rfl := Action.set.inj hblank
      exact ht.set a ha'
    | animation a' =>
      rw [ha'] at hblank
      cases hblank
  · rw [ha] at hblank
    cases ha' : h.actions b.action with
    | set a' =>
      rw [ha'] at hblank
      cases hblank
    | animation a' =>
      rw [ha'] at hblank
      have hsame := AnimationAction.mk.inj (Action.animation.inj hblank)
      rw [hsame.2.2.1, hsame.2.2.2.1]
      exact ht.animation a' ha'

/-- A trigger that takes the path of a behavior brings what that behavior
allows. -/
theorem Contract.Types.bind (ht : C.Types h p b) (ht' : C.Types h path b')
    (htriggers : h'.triggers = Function.update h.triggers b'.trigger trigger)
    (hevolves : (h.triggers b'.trigger).Evolves path trigger) (hactions : h'.actions = h.actions) :
    C.Types h' p b := by
  by_cases hsame : b.trigger = b'.trigger
  · refine ⟨fun t hevent => ?_, fun a ha => ht.set a (hactions ▸ ha), fun a ha => ht.animation a (hactions ▸ ha)⟩
    have htrigger : trigger = .event t := by
      rw [← hevent, htriggers, hsame, Function.update_self]
    subst htrigger
    cases hbefore : h.triggers b'.trigger with
    | clock t₀ =>
      rw [hbefore] at hevolves
      exact hevolves.elim
    | event t₀ =>
      rw [hbefore] at hevolves
      rcases hevolves with rfl | rfl
      · exact ht.event t (hsame ▸ hbefore)
      · rw [hsame]
        exact ht'.event t₀ hbefore
  · refine ht.congr ?_ (by rw [hactions])
    rw [htriggers, Function.update_of_ne hsame]

-- ---------------------------------------------------------------------------
-- What a step of the service keeps
-- ---------------------------------------------------------------------------

theorem Contract.Kept.registered {registry : Registry} (hk : C.Kept script s) (hd : registry.Distinct)
    (ht : C.TypesRegistry s.heap registry) : C.Kept script { s with registry := registry } :=
  ⟨hk.grounded.environment s.pending s.broker hd, ht, hk.mocked, hk.broker, hk.pending, hk.written,
    hk.datapoints, hk.animators⟩

theorem Contract.Kept.reads {registry : Registry} (hk : C.Kept script s) (hr : s.registry.Reads registry) :
    C.Kept script { s with registry := registry } :=
  hk.registered (hr.distinct hk.grounded.distinct) (hk.registry.reads hr)

theorem Contract.Kept.record (hk : C.Kept script s) (d : Deed) (hd : ∀ p, d.wroteTo? p = none) :
    C.Kept script (s.record d) := by
  refine ⟨⟨hk.grounded.loaded.onward (onward_record s d), hk.grounded.distinct, hk.grounded.animators⟩,
    hk.registry, hk.mocked, hk.broker, hk.pending, fun p => ?_, hk.datapoints, hk.animators⟩
  rw [writtenTo_record_none p s d (hd p)]
  exact hk.written p

theorem Contract.Follows.onward {a : ValueAnimator} (hf : C.Follows script s a) (ho : Onward s t) :
    C.Follows script t a := by
  refine hf.imp ?_ ?_
  · rintro ⟨hlt, hsilent⟩
    exact ⟨ho.fresh.symm ▸ hlt, (ho.hasListener _).trans hsilent⟩
  · rw [ho.path]
    exact id

theorem check_pending (trigger : Trigger) (path : Path) (deltaTime : ℚ) (pending : List Event) :
    ∀ e ∈ (trigger.check path deltaTime pending).2.2, e ∈ pending := by
  cases trigger with
  | clock t => exact fun e he => he
  | event t =>
    simp only [Trigger.check, EventTrigger.check, removeLastMatch]
    cases lastMatch t.eventType (t.bound path) pending with
    | none => exact fun e he => he
    | some e' => exact fun e he => List.mem_of_mem_erase he

theorem check_event {trigger : Trigger} {e : Event}
    (h : (trigger.check path deltaTime pending).1 = .event (some e)) :
    ∃ t, trigger = .event t ∧ e ∈ pending ∧ e.name = t.eventType ∧ e.path = t.bound path := by
  cases trigger with
  | clock t => cases h
  | event t =>
    have hmatch : lastMatch t.eventType (t.bound path) pending = some e := TriggerResult.event.inj h
    obtain ⟨hname, hpath⟩ := lastMatch_isFor hmatch
    exact ⟨t, rfl, lastMatch_mem hmatch, hname, hpath⟩

theorem Contract.Kept.check_carries (hk : C.Kept script s) (hb : C.Types s.heap path b)
    (he : (checkTriggerOf b path deltaTime s).1 = .event (some e)) : C.carries b.trigger e.value := by
  rw [checkTriggerOf_result] at he
  obtain ⟨t, ht, hmem, hname, hpath⟩ := check_event he
  refine hb.event t ht e.value ?_
  rw [← hname, ← hpath]
  exact hk.pending e hmem

theorem Contract.Kept.check (hk : C.Kept script s) (hb : C.Types s.heap path b) (deltaTime : ℚ) :
    C.Kept script (checkTriggerOf b path deltaTime s).2 := by
  have hevolves := check_evolves path deltaTime s.pending (s.heap.triggers b.trigger)
  have hpending := check_pending (s.heap.triggers b.trigger) path deltaTime s.pending
  unfold checkTriggerOf
  rcases hcheck : (s.heap.triggers b.trigger).check path deltaTime s.pending with ⟨result, trigger, pending⟩
  rw [hcheck] at hevolves hpending
  have hchecked : C.Kept script { s.setTrigger b.trigger trigger with pending := pending } := by
    have ho : Onward s { s.setTrigger b.trigger trigger with pending := pending } :=
      onward_of_eq rfl rfl rfl rfl
    have hbind : ∀ p c, C.Types s.heap p c → C.Types (s.setTrigger b.trigger trigger).heap p c :=
      fun p c hc => hc.bind hb rfl hevolves rfl
    refine ⟨⟨hk.grounded.loaded.onward ho, hk.grounded.distinct, hk.grounded.animators⟩, ?_, ?_,
      hk.broker, fun e he => hk.pending e (hpending e he), hk.written, hk.datapoints, hk.animators⟩
    · exact fun d hd => ⟨(hk.registry d hd).1, fun c hc => hbind d.path c ((hk.registry d hd).2 c hc)⟩
    · exact fun e he c hc => hbind e.1 c (hk.mocked e he c hc)
  rcases result with active | _ | e
  · exact hchecked
  · exact hchecked
  · exact hchecked.record (.consumed e) fun _ => rfl

theorem Contract.Kept.setDatapoint (hk : C.Kept script s) (hv : C.writes path value) :
    C.Kept script ((setDatapoint path value).exec s).2 := by
  have hgrounded := hk.grounded.setDatapoint path value
  have hwritten := writtenTo_setDatapoint path value s
  have hpending : ∀ e ∈ ((Mock.setDatapoint path value).exec s).2.pending, e ∈ s.pending := by
    rw [exec_setDatapoint, discardEvent]
    cases lastMatch .value path (writeBroker path value s).pending with
    | none => exact fun e he => he
    | some e' =>
      simp only [Option.elim_some, Service.record, removeLastMatch]
      cases lastMatch .value path (writeBroker path value s).pending with
      | none => exact fun e he => he
      | some e' => exact fun e he => List.mem_of_mem_erase he
  have hbroker : ((Mock.setDatapoint path value).exec s).2.broker =
      Function.update s.broker path (some value) := by
    rw [exec_setDatapoint, discardEvent]
    cases lastMatch .value path (writeBroker path value s).pending <;> rfl
  obtain ⟨pending, broker, log, hframe⟩ := setDatapoint_frame path value s
  rw [hframe] at hgrounded hwritten hpending hbroker ⊢
  replace hbroker : broker = Function.update s.broker path (some value) := hbroker
  refine ⟨hgrounded, hk.registry, hk.mocked, fun p v hp => ?_, fun e he => hk.pending e (hpending e he),
    fun p v hp => ?_, hk.datapoints, hk.animators⟩
  · simp only [hbroker] at hp
    by_cases heq : p = path
    · subst heq
      rw [Function.update_self] at hp
      obtain rfl := Option.some.inj hp
      exact C.writes_holds _ _ hv
    · rw [Function.update_of_ne heq] at hp
      exact hk.broker p v hp
  · rw [hwritten] at hp
    rcases List.mem_append.mp hp with hp | hp
    · exact hk.written p v hp
    · split at hp
      · rename_i heq
        obtain rfl := List.mem_singleton.mp hp
        exact heq ▸ hv
      · cases hp

theorem Contract.Kept.assignValue (hk : C.Kept script s)
    (hv : (s.datapoints x).hasListener = true → C.writes (s.datapoints x).path value) :
    C.Kept script (assignValue x value s).2 := by
  have hrecord := hk.record (.assigned (s.datapoints x).path (s.datapoints x).hasListener value) fun _ => rfl
  unfold Mock.assignValue
  dsimp only
  split
  · generalize hu : s.record (.assigned (s.datapoints x).path (s.datapoints x).hasListener value) = u at *
    have hd : u.datapoints = s.datapoints := by rw [← hu, Service.record]
    rw [← hd] at hv ⊢
    have ho : Onward u { u with
        datapoints := Function.update u.datapoints x { u.datapoints x with value := value } } := by
      refine ⟨rfl, rfl, fun r => ?_, fun p => List.prefix_rfl⟩
      by_cases hr : r = x
      · subst hr
        simp [DataPoint.kind]
      · simp [hr]
    refine ⟨⟨hrecord.grounded.loaded.onward ho, hrecord.grounded.distinct, hrecord.grounded.animators⟩,
      hrecord.registry, hrecord.mocked, hrecord.broker, hrecord.pending, hrecord.written, fun r hr' hl ht => ?_,
      fun r a ha => (hrecord.animators r a ha).onward ho⟩
    by_cases hr : r = x
    · subst hr
      simp only [Function.update_self] at hl ⊢
      exact hv hl
    · simp only [Function.update_of_ne hr] at hl ht ⊢
      exact hrecord.datapoints r hr' hl ht
  · exact hrecord

theorem Contract.Kept.setValue (hk : C.Kept script s)
    (hv : (s.datapoints x).hasListener = true → C.writes (s.datapoints x).path value) :
    C.Kept script ((setValue x value).exec s).2 := by
  have hassign := hk.assignValue hv
  simp only [Mock.setValue, Raise.exec_bind, Raise.exec_atomic, Option.elim_some, Raise.exec_ite,
    Raise.exec_peek, Raise.exec_pure]
  split
  · rename_i hheard
    have hl := assignValue_heard hheard
    refine hassign.setDatapoint ?_
    have hvalue : (Mock.assignValue x value s).2.datapoints x = { s.datapoints x with value := value } := by
      unfold Mock.assignValue at hheard ⊢
      dsimp only at hheard ⊢
      split at hheard
      · rename_i hne
        rw [if_pos hne]
        exact Function.update_self ..
      · cases hheard
    rw [hvalue]
    exact hv hl
  · exact hassign

theorem Contract.Kept.setAnimator (hk : C.Kept script s) (ha : s.heap.actions x = .animation a)
    (hf : C.Follows script s animator) (hlt : animator.datapoint < s.fresh) :
    C.Kept script (s.setAnimator x a animator) := by
  have ho : Onward s (s.setAnimator x a animator) := onward_of_eq rfl rfl rfl rfl
  have hblank : ∀ r, ((s.setAnimator x a animator).heap.actions r).blank = (s.heap.actions r).blank := by
    intro r
    by_cases hr : r = x
    · subst hr
      simp [Service.setAnimator, Service.setAction, Action.blank, ha]
    · simp [Service.setAnimator, Service.setAction, hr]
  have htypes : ∀ p b, C.Types s.heap p b → C.Types (s.setAnimator x a animator).heap p b :=
    fun p b hb => hb.congr rfl (hblank b.action)
  have hanimators : ∀ r a', ((s.setAnimator x a animator).heap.actions r).animator? = some a' →
      a' = animator ∨ (s.heap.actions r).animator? = some a' := by
    intro r a' ha'
    by_cases hr : r = x
    · subst hr
      simp only [Service.setAnimator, Service.setAction, Function.update_self, Action.animator?,
        Option.some.injEq] at ha'
      exact .inl ha'.symm
    · simp only [Service.setAnimator, Service.setAction, Function.update_of_ne hr] at ha'
      exact .inr ha'
  refine ⟨⟨hk.grounded.loaded.onward ho, hk.grounded.distinct, fun r a' ha' => ?_⟩, ?_, ?_, hk.broker,
    hk.pending, hk.written, hk.datapoints, fun r a' ha' => ?_⟩
  · rcases hanimators r a' ha' with rfl | hold
    · exact hlt
    · exact hk.grounded.animators r a' hold
  · exact fun d hd => ⟨(hk.registry d hd).1, fun b hb => htypes d.path b ((hk.registry d hd).2 b hb)⟩
  · exact fun e he b hb => htypes e.1 b (hk.mocked e he b hb)
  · rcases hanimators r a' ha' with rfl | hold
    · exact hf.onward ho
    · exact (hk.animators r a' hold).onward ho

-- ---------------------------------------------------------------------------
-- Values of actions
-- ---------------------------------------------------------------------------

/-- The program only reads, and what it returns fits. -/
def Looks (s : Service) (p : Py α) (fits : α → Prop) : Prop :=
  ∃ registry, s.registry.Reads registry ∧ (p.exec s).2 = { s with registry := registry } ∧
    ∀ a, (p.exec s).1 = some a → fits a

theorem Looks.pure (s : Service) {fits : α → Prop} (h : fits a) : Looks s (pure a) fits := by
  refine ⟨s.registry, .refl _, rfl, ?_⟩
  rintro _ ⟨⟩
  exact h

theorem Looks.bind {p : Py α} {f : α → Py β} {fits : α → Prop} {fits' : β → Prop} (hp : Looks s p fits)
    (hf : ∀ a registry, fits a → s.registry.Reads registry →
      Looks { s with registry := registry } (f a) fits') : Looks s (p >>= f) fits' := by
  obtain ⟨registry, hreads, hstate, hfits⟩ := hp
  simp only [Looks, Raise.exec_bind, hstate]
  cases hresult : (p.exec s).1 with
  | none => exact ⟨registry, hreads, rfl, fun _ h => by cases h⟩
  | some a =>
    obtain ⟨registry', hreads', hstate', hfits'⟩ := hf a registry (hfits a hresult) hreads
    exact ⟨registry', hreads.trans hreads', hstate', hfits'⟩

theorem Looks.ends {p : Py α} {f : α → Py β} {J : Service → Prop} (fits : α → Prop) (hp : Looks s p fits)
    (hraise : ∀ registry, s.registry.Reads registry → J { s with registry := registry })
    (hf : ∀ a registry, fits a → s.registry.Reads registry →
      J ((f a).exec { s with registry := registry }).2) : J ((p >>= f).exec s).2 := by
  obtain ⟨registry, hreads, hstate, hfits⟩ := hp
  simp only [Raise.exec_bind, hstate]
  cases hresult : (p.exec s).1 with
  | none => exact hraise registry hreads
  | some a => exact hf a registry (hfits a hresult) hreads

theorem exec_resolve_read (s : Service) (trigger : TriggerResult) {value : Value} {q : Path}
    (h : pathRead path value = some q) : (resolveValue trigger path value).exec s =
      (some ((s.broker q).getD (.number 0)), s.require q) := by
  cases value with
  | none => cases h
  | number _ => cases h
  | text text =>
    obtain ⟨name, hname⟩ : ∃ name, text.toList = '$' :: name := by
      simp only [pathRead] at h
      split at h
      · exact ⟨_, ‹_›⟩
      · cases h
    simp only [pathRead, hname] at h
    simp only [resolveValue, Raise.exec_attempt, hname]
    split_ifs at h with hself hevent
    · obtain rfl := Option.some.inj h
      simp only [if_pos hself]
      rfl
    · obtain rfl := Option.some.inj h
      simp only [if_neg hself, if_neg hevent]
      rfl

theorem looks_read {trigger : TriggerResult} {value : Value} {q : Path} {fits : Value → Prop}
    (h : pathRead path value = some q) (hfits : fits ((s.broker q).getD (.number 0))) :
    Looks s (resolveValue trigger path value) fits := by
  have hread := exec_resolve_read s trigger h
  refine ⟨s.registry.require q, reads_require _ _, by rw [hread]; rfl, fun v hv => ?_⟩
  rw [hread] at hv
  obtain rfl := Option.some.inj hv
  exact hfits

theorem looks_event {trigger : TriggerResult} {fits : Value → Prop}
    (hfits : ∀ e, trigger = .event (some e) → fits e.value) :
    Looks s (resolveValue trigger path (.text "$event.value")) fits := by
  refine ⟨s.registry, .refl _, ?_, ?_⟩
  · rcases trigger with _ | _ | e <;> rfl
  · rcases trigger with _ | _ | e
    · rintro v ⟨⟩
    · rintro v ⟨⟩
    · intro v hv
      obtain rfl : e.value = v := Option.some.inj hv
      exact hfits e rfl

theorem exec_resolve_literal (s : Service) (trigger : TriggerResult) {value : Value}
    (h : pathRead path value = none) (hno : value ≠ .text "$event.value") :
    (resolveValue trigger path value).exec s = (some value, s) := by
  cases value with
  | none => rfl
  | number _ => rfl
  | text text =>
    have hplain : ∀ name, text.toList ≠ '$' :: name := by
      intro name hname
      have hno : text ≠ "$event.value" := fun heq => hno (congrArg Value.text heq)
      simp only [pathRead, hname] at h
      split_ifs at h
    simp only [resolveValue, Raise.exec_attempt]

theorem looks_literal {trigger : TriggerResult} {value : Value} {fits : Value → Prop}
    (h : pathRead path value = none) (hno : value ≠ .text "$event.value") (hfits : fits value) :
    Looks s (resolveValue trigger path value) fits := by
  have hsame := exec_resolve_literal s trigger h hno
  refine ⟨s.registry, .refl _, congrArg Prod.snd hsame, fun v hv => ?_⟩
  rw [hsame] at hv
  obtain rfl := Option.some.inj hv
  exact hfits

def Contract.Brings (C : Contract) (x : Ref) (trigger : TriggerResult) : Prop :=
  ∀ e, trigger = .event (some e) → C.carries x e.value

theorem Contract.Kept.resolve {trigger : TriggerResult} {value : Value} {fits : Value → Prop}
    (hk : C.Kept script s) (ht : C.Brings x trigger) (hr : C.Resolves path x fits value) :
    Looks s (resolveValue trigger path value) fits := by
  cases hr with
  | @reads q h hholds hdefault =>
    refine looks_read h ?_
    cases hbroker : s.broker q with
    | none => exact hdefault
    | some v => exact hholds v (hk.broker q v hbroker)
  | event h hcarries =>
    subst h
    exact looks_event fun e he => hcarries _ (ht e he)
  | literal h hno hfits => exact looks_literal h hno hfits

theorem Contract.Kept.resolveAll {trigger : TriggerResult} {values : List Value} {fits : Value → Prop}
    (hk : C.Kept script s) (ht : C.Brings x trigger) (hr : ∀ v ∈ values, C.Resolves path x fits v) :
    Looks s (resolveValues trigger path values) fun vs => ∀ v ∈ vs, fits v := by
  induction values generalizing s with
  | nil => exact .pure s fun v hv => by cases hv
  | cons value values ih =>
    refine .bind (hk.resolve ht (hr value List.mem_cons_self)) fun v registry hv hreads => ?_
    refine .bind (ih (hk.reads hreads) fun w hw => hr w (List.mem_cons_of_mem _ hw)) fun vs registry hvs _ => ?_
    exact .pure _ (List.forall_mem_cons.mpr ⟨hv, hvs⟩)

-- ---------------------------------------------------------------------------
-- Visits
-- ---------------------------------------------------------------------------

theorem Contract.Kept.set {a : SetAction} {trigger : TriggerResult} (hk : C.Kept script s)
    (ht : C.Brings y trigger) (hpath : (s.datapoints x).path = path)
    (ha : C.Yields path y a.dynamic (C.Sets path) a.value) :
    C.Kept script ((a.execute trigger x path).exec s).2 := by
  unfold SetAction.execute
  refine Looks.ends (C.Sets path) ?_ (fun registry => hk.reads) fun v registry hv hreads => ?_
  · unfold Contract.Yields at ha
    split
    · rename_i hdynamic
      rw [if_pos hdynamic] at ha
      exact hk.resolve ht ha
    · rename_i hdynamic
      rw [if_neg hdynamic] at ha
      exact .pure s ha
  · split
    · rename_i hnone
      refine (hk.reads hreads).setValue fun _ => ?_
      simp only [hpath]
      exact hv hnone
    · exact hk.reads hreads

theorem Contract.Kept.start {a : AnimationAction} {values : List Value} (hk : C.Kept script s)
    (ha : s.heap.actions y = .animation a) (hlt : x < s.fresh)
    (hinterval : C.Interval (s.datapoints x).path) (hvalues : ∀ v ∈ values, C.writes (s.datapoints x).path v) :
    C.Kept script ((startAnimator script y a values x).exec s).2 := by
  simp only [startAnimator, Raise.exec_attempt]
  split
  · rename_i animator hnew
    obtain ⟨f, hf, hnew⟩ := Option.bind_eq_some_iff.mp hnew
    obtain ⟨value, -, rfl⟩ := Option.map_eq_some_iff.mp hnew
    exact hk.setAnimator ha (.inr ⟨hinterval, hvalues, by simp [hf]⟩) hlt
  · exact hk

theorem Contract.Kept.animation {a : AnimationAction} {trigger : TriggerResult} (hk : C.Kept script s)
    (ht : C.Brings y trigger) (ha : s.heap.actions action = .animation a) (hlt : x < s.fresh)
    (hpath : (s.datapoints x).path = path) (hinterval : C.Interval path)
    (hvalues : ∀ v ∈ a.values, C.Yields path y a.dynamic (C.writes path) v) :
    C.Kept script ((a.execute script action trigger x path).exec s).2 := by
  simp only [AnimationAction.execute, Raise.exec_bind, Raise.exec_peek, Option.elim_some]
  split
  · exact hk
  · refine Looks.ends (fun vs => ∀ v ∈ vs, C.writes path v) ?_ (fun registry => hk.reads)
      fun vs registry hvs hreads => ?_
    · unfold Contract.Yields at hvalues
      split
      · rename_i hdynamic
        simp only [hdynamic, if_true] at hvalues
        exact hk.resolveAll ht hvalues
      · rename_i hdynamic
        simp only [hdynamic] at hvalues
        exact .pure s hvalues
    · subst hpath
      exact (hk.reads hreads).start ha hlt hinterval hvs

theorem Contract.Kept.execute {trigger : TriggerResult} (hk : C.Kept script s)
    (ht : C.Brings b.trigger trigger) (hb : C.Types s.heap path b) (hlt : x < s.fresh)
    (hpath : (s.datapoints x).path = path) :
    C.Kept script ((executeAction script b trigger x path).exec s).2 := by
  simp only [executeAction, Raise.exec_bind, Raise.exec_peek, Option.elim_some]
  cases haction : s.heap.actions b.action with
  | set a => exact hk.set ht hpath (hb.set a haction)
  | animation a =>
    obtain ⟨hinterval, hvalues⟩ := hb.animation a haction
    exact hk.animation ht haction hlt hpath hinterval hvalues

theorem Contract.Kept.visit (hk : C.Kept script s) {element : Path × MockedDataPoint}
    (he : element ∈ s.mocked) (hb : b ∈ element.2.behaviors) (deltaTime : ℚ) :
    C.Kept script ((visitBehavior script element.1 element.2.datapoint deltaTime b).exec s).2 := by
  obtain ⟨registry, hreads, hcondition⟩ : ∃ registry, s.registry.Reads registry ∧
      (isConditionFulfilled script b element.1 deltaTime).exec s =
        (some (script.condition b.condition ⟨element.1, s.pending, deltaTime, s.broker⟩).1,
          { s with registry := registry }) := ⟨_, reads_requireAll _ _, rfl⟩
  have hread := hk.reads hreads
  have hchecked := hread.check (hk.mocked element he b hb) deltaTime
  have hbrings : C.Brings b.trigger (checkTriggerOf b element.1 deltaTime { s with registry := registry }).1 :=
    fun e => hread.check_carries (hk.mocked element he b hb)
  have ho := onward_check b element.1 deltaTime { s with registry := registry }
  simp only [visitBehavior, checkTrigger, runBehavior, Raise.exec_bind, hcondition, Raise.exec_atomic,
    Raise.exec_ite, Option.elim_some, Raise.exec_pure]
  generalize checkTriggerOf b element.1 deltaTime { s with registry := registry } = checked at *
  obtain ⟨result, u⟩ := checked
  split
  · split
    · have hmem : element ∈ u.mocked := ho.mocked.symm ▸ he
      have hrecorded := hchecked.record (.executed element.1 b) fun _ => rfl
      have hexecuted : C.Kept script ((executeAction script b result element.2.datapoint element.1).exec
          (u.record (.executed element.1 b))).2 :=
        hrecorded.execute hbrings (hchecked.mocked element hmem b hb)
          (hchecked.grounded.loaded.allocated element hmem) (hchecked.grounded.loaded.path element hmem)
      generalize (executeAction script b result element.2.datapoint element.1).exec
        (u.record (.executed element.1 b)) = final at *
      obtain ⟨_ | _, t⟩ := final <;> exact hexecuted
    · exact hchecked
  · exact hread

-- ---------------------------------------------------------------------------
-- Animations
-- ---------------------------------------------------------------------------

theorem Contract.Interval.tick {a : ValueAnimator} (hinterval : C.Interval path)
    (hbetween : script.interp1d.Between) (hvalues : ∀ v ∈ a.values, C.writes path v)
    (hsome : (script.interp1d a.values a.duration).isSome = true) (deltaTime : ℚ) :
    C.writes path (a.tick script.interp1d deltaTime).value := by
  obtain ⟨f, hf⟩ := Option.isSome_iff_exists.mp hsome
  obtain ⟨numbers, hnumbers⟩ : ∃ numbers : List ℚ, a.values = numbers.map .number := by
    have hrange : a.values ∈ Set.range (List.map Value.number) := by
      rw [Set.range_list_map]
      intro v hv
      obtain ⟨q, rfl⟩ := hinterval.number v (hvalues v hv)
      exact ⟨q, rfl⟩
    obtain ⟨numbers, hnumbers⟩ := hrange
    exact ⟨numbers, hnumbers.symm⟩
  rw [hnumbers] at hf hvalues
  obtain ⟨q, hq, ⟨lo, hlo, hle⟩, hi, hhi, hle'⟩ := hbetween numbers a.duration f hf (a.advance deltaTime).1
  have hvalue : (a.tick script.interp1d deltaTime).value = .number q := by
    simp [ValueAnimator.tick, hnumbers, hf, hq]
  rw [hvalue]
  exact hinterval.between lo q hi (hvalues _ (List.mem_map_of_mem hlo)) (hvalues _ (List.mem_map_of_mem hhi)) hle hle'

theorem Contract.Kept.play (hk : C.Kept script s) (hbetween : script.interp1d.Between) (b : Behavior)
    (deltaTime : ℚ) : C.Kept script ((animateBehavior script deltaTime b).exec s).2 := by
  rcases animateBehavior_cases script deltaTime b s with ⟨-, hsame⟩ | ⟨a, animator, ha, hsome, -, hexec⟩
  · rw [hsame]
    exact hk
  · rw [hexec]
    have hanimator : (s.heap.actions b.action).animator? = some animator := by
      simpa [ha, Action.animator?] using hsome
    have hfollows := hk.animators _ _ hanimator
    have hlt := hk.grounded.animators _ _ hanimator
    have hticked : C.Kept script (s.setAnimator b.action a (animator.tick script.interp1d deltaTime)) :=
      hk.setAnimator ha hfollows hlt
    refine hticked.setValue fun hheard => ?_
    rcases hfollows with ⟨-, hsilent⟩ | ⟨hinterval, hvalues, hinterp⟩
    · cases hheard.symm.trans hsilent
    · exact hinterval.tick hbetween hvalues hinterp deltaTime

-- ---------------------------------------------------------------------------
-- Loads
-- ---------------------------------------------------------------------------

theorem Contract.Kept.loading (hk : C.Kept script s)
    (hedits : C.TypesEdits s.heap s.registry (script.mockPy s.loads))
    (ht : Touches (.loading s.fresh) (runMockPy script s) t)
    (hw : ∀ p, writtenTo p t.log = writtenTo p s.log) : C.Kept script t := by
  have hpending : t.pending = s.pending := by
    simpa [runMockPy] using ht.pending (fun _ => true) fun e _ hmem => hmem.elim
  have htypes : ∀ p b, C.Types s.heap p b → C.Types t.heap p b := fun p b hb =>
    hb.congr (ht.triggers _ fun hmem => hmem) (ht.blank _)
  have hregistry : C.TypesRegistry s.heap t.registry := (hk.registry.edits hedits).reads ht.registry
  have hgrounded : Grounded (runMockPy script s) :=
    ⟨⟨hk.grounded.loaded.paths, hk.grounded.loaded.refs, hk.grounded.loaded.allocated,
      hk.grounded.loaded.path, hk.grounded.loaded.hasListener⟩, hk.grounded.distinct.edits _ _, hk.grounded.animators⟩
  refine ⟨hgrounded.touched ht, fun d hd => ?_, fun e he b hb => ?_, fun p v hp => ?_, ?_, fun p v hp => ?_,
    fun r hr hl htyped => ?_, fun r a ha => ?_⟩
  · obtain ⟨hinitial, hbehaviors⟩ := hregistry d hd
    exact ⟨hinitial, fun b hb => htypes d.path b (hbehaviors b hb)⟩
  · exact htypes e.1 b (hk.mocked e (ht.mocked ▸ he) b hb)
  · rw [ht.broker p fun hmem => hmem] at hp
    exact hk.broker p v hp
  · rw [hpending]
    exact hk.pending
  · rw [hw] at hp
    exact hk.written p v hp
  · by_cases hold : r < s.fresh
    · rw [ht.datapoints r (Nat.not_le_of_lt hold) hold] at hl htyped ⊢
      exact hk.datapoints r hold hl htyped
    · cases hl.symm.trans (ht.silent r (Nat.le_of_not_lt hold) hr)
  · rcases ht.animators r with hsame | ⟨a', ha', hnew, hlt⟩
    · rw [hsame] at ha
      have hlt := hk.grounded.animators r a ha
      refine (hk.animators r a ha).imp (fun hunheard => ?_) fun hfollows => ?_
      · have hrun : (runMockPy script s).Unheard a.datapoint := hunheard
        exact hrun.touched ht
      · rw [ht.path hlt]
        exact hfollows
    · cases ha'.symm.trans ha
      exact .inl ⟨hlt, ht.silent _ hnew hlt⟩

theorem Contract.Kept.adopt (hk : C.Kept script u) (hs : Grounded s) (hload : Load script s made others u) :
    C.Kept script (adopt (loadedMocks script u.registry made others) u) := by
  have hrefs : (loadedMocks script u.registry made others).map (·.2.datapoint) =
      made.map Prod.snd ++ others.map Prod.snd := by
    simp [loadedMocks, Function.comp_def]
  refine ⟨⟨hload.loaded hs.distinct, hk.grounded.distinct, hk.grounded.animators⟩, hk.registry,
    fun e he b hb => ?_, hk.broker, hk.pending, hk.written, fun r hr hl htyped => ?_, fun r a ha => ?_⟩
  · simp only [Mock.adopt, loadedMocks, List.mem_append, List.mem_map] at he
    rcases he with ⟨x, hx, rfl⟩ | ⟨x, hx, rfl⟩
    · have hd : x.1 ∈ u.registry.mocked := hload.registrations ▸ List.mem_map_of_mem hx
      refine (hk.registry x.1 hd).2 b ?_
      simp only [loadedBehaviors] at hb
      split at hb
      · exact hb
      · cases hb
    · cases hb
  · simp only [Mock.adopt, listenTo_eq, hrefs] at hl htyped ⊢
    by_cases hmem : r ∈ made.map Prod.snd ++ others.map Prod.snd
    · simp only [if_pos hmem] at htyped ⊢
      rcases List.mem_append.mp hmem with hmade | hother
      · obtain ⟨x, hx, rfl⟩ := List.mem_map.mp hmade
        have hd : x.1 ∈ u.registry.mocked := hload.registrations ▸ List.mem_map_of_mem hx
        rw [hload.datapoints x hx]
        exact (hk.registry x.1 hd).1
      · obtain ⟨x, hx, rfl⟩ := List.mem_map.mp hother
        rw [hload.requiredDatapoints x hx] at htyped
        cases htyped
    · simp only [if_neg hmem] at hl htyped ⊢
      exact hk.datapoints r hr hl htyped
  · -- the new datapoints are none that an animation plays on
    have hold : a.datapoint ∉ made.map Prod.snd ++ others.map Prod.snd := by
      have ha : (u.heap.actions r).animator? = some a := ha
      rcases hload.animators r with hsame | ⟨a', ha', hnot, -⟩
      · rw [hsame] at ha
        exact fun hmem => Nat.not_lt_of_le (hload.allocated _ hmem).1 (hs.animators r a ha)
      · cases ha'.symm.trans ha
        exact hnot
    refine (hk.animators r a ha).imp (fun hunheard => hunheard.adopted hold) fun hfollows => ?_
    simp only [Mock.adopt, listenTo_eq, hrefs, if_neg hold]
    exact hfollows

/-- A reload, whether it raises or not. -/
theorem Contract.Kept.reload (hk : C.Kept script s)
    (hedits : C.TypesEdits s.heap s.registry (script.mockPy s.loads))
    (h : (reload script).exec s = (result, t)) : C.Kept script t := by
  have htouches : Touches (.loading s.fresh) (runMockPy script s) ((load script).exec s).2 := by
    rw [exec_load]
    exact within_loadRegistry s.fresh (runMockPy script s) (Nat.le_refl _)
  have hload := hk.loading hedits htouches (load_unwritten script s).written
  cases result with
  | none =>
    rw [load_of_raise h] at hload
    exact hload
  | some _ =>
    simp only [Mock.reload, Raise.bind_some, Raise.exec_atomic, Prod.mk.injEq, true_and] at h
    obtain ⟨mocked, u, hexec, rfl⟩ := h
    obtain ⟨made, others, rfl, hloaded⟩ := load_some hexec
    rw [hexec] at hload
    exact hload.adopt hk.grounded hloaded

-- ---------------------------------------------------------------------------
-- Runs
-- ---------------------------------------------------------------------------

/-- What the environment and the programmer of the mocks may do. -/
def Contract.AcceptsTurn (C : Contract) (script : Script) (s : Service) : TurnInput → Prop
  | .edit e => C.TypesEdit s.heap s.registry e
  | .check => isChanged s = true → C.TypesEdits s.heap s.registry (script.mockPy s.loads)
  | .receive name path value => value ≠ .none → C.events name path value
  | .setExternally path value => C.holds path value
  | _ => True

def Contract.Accepts (C : Contract) (script : Script) (s : Session) : SessionInput → Prop
  | .connect => C.TypesEdits s.service.heap s.service.registry (script.mockPy s.service.loads)
  | .turn input => C.AcceptsTurn script s.service input
  | _ => True

theorem Contract.Kept.edit {e : Edit} (hk : C.Kept script s) (he : C.TypesEdit s.heap s.registry e) :
    C.Kept script (edit e s) :=
  hk.registered (hk.grounded.distinct.edit _ e) (hk.registry.edit he)

theorem Contract.Kept.receive (hk : C.Kept script s) (he : value ≠ .none → C.events name path value) :
    C.Kept script (receive name path value s) := by
  unfold Mock.receive
  split
  · rename_i hnone
    refine ⟨hk.grounded.environment _ s.broker hk.grounded.distinct, hk.registry, hk.mocked, hk.broker,
      fun e hmem => ?_, hk.written, hk.datapoints, hk.animators⟩
    rcases List.mem_append.mp hmem with hmem | hmem
    · exact hk.pending e hmem
    · obtain rfl := List.mem_singleton.mp hmem
      exact he hnone
  · exact hk

theorem Contract.Kept.setExternally (hk : C.Kept script s) (hv : C.holds path value) :
    C.Kept script (setExternally path value s) := by
  refine ⟨hk.grounded.environment s.pending _ hk.grounded.distinct, hk.registry, hk.mocked, fun p v hp => ?_,
    hk.pending, hk.written, hk.datapoints, hk.animators⟩
  simp only [Mock.setExternally] at hp
  by_cases heq : p = path
  · subst heq
    rw [Function.update_self] at hp
    obtain rfl := Option.some.inj hp
    exact hv
  · rw [Function.update_of_ne heq] at hp
    exact hk.broker p v hp

theorem Contract.Kept.turn {s t : Running} (hk : C.Kept script s.service) (hbetween : script.interp1d.Between)
    (hc : C.AcceptsTurn script s.service input) (h : turnStep script s input = some t) :
    C.Kept script t.service := by
  obtain ⟨-, henabled, rfl⟩ := turnStep_some h
  cases input with
  | edit e => exact hk.edit hc
  | check =>
    cases hchanged : isChanged s.service with
    | false =>
      have hexec : (TurnInput.program script .check).exec s.service = (some (), s.service) :=
        exec_check_unchanged hchanged
      rw [hexec]
      exact hk
    | true =>
      have hexec : (TurnInput.program script .check).exec s.service = (Mock.reload script).exec s.service :=
        exec_check_changed hchanged
      rw [hexec]
      exact hk.reload (hc hchanged) rfl
  | visit element b deltaTime =>
    simp only [TurnInput.enabled, Bool.and_eq_true, decide_eq_true_eq] at henabled
    rw [exec_visit]
    exact hk.visit henabled.1 henabled.2 deltaTime
  | play element b deltaTime => exact hk.play hbetween b deltaTime
  | receive name path value => exact hk.receive hc
  | setExternally path value => exact hk.setExternally hc

def Audible (s t : Service) : Prop :=
  ∀ r < s.fresh, (s.datapoints r).hasListener = true → r < t.fresh ∧ (t.datapoints r).hasListener = true

theorem Touches.audible (h : Touches F s t) : Audible s t := fun _ hr hl =>
  ⟨Nat.lt_of_lt_of_le hr h.fresh, (h.hasListener hr).trans hl⟩

theorem audible_reload (h : (reload script).exec s = (result, t)) : Audible s t := by
  have htouches : Touches (.loading s.fresh) (runMockPy script s) ((load script).exec s).2 := by
    rw [exec_load]
    exact within_loadRegistry s.fresh (runMockPy script s) (Nat.le_refl _)
  cases result with
  | none =>
    rw [load_of_raise h] at htouches
    exact htouches.audible
  | some _ =>
    obtain ⟨u, made, others, hload, rfl⟩ := reload_some h
    intro r hr hl
    obtain ⟨hlt, hl⟩ := hload.touches.audible r hr hl
    refine ⟨hlt, ?_⟩
    simp only [adopt, listenTo_eq]
    split
    · rfl
    · exact hl

theorem Contract.Kept.audible {s t : Running} (hk : C.Kept script s.service)
    (h : turnStep script s input = some t) : Audible s.service t.service := by
  cases turned_of_step h with
  | unchanged => exact fun r hr hl => ⟨hr, hl⟩
  | loaded _ hexec => exact audible_reload hexec
  | raised _ hexec => exact audible_reload hexec
  | visit deltaTime _ he => exact (hk.grounded.touches_visit he script _ deltaTime).audible
  | play deltaTime _ _ _ =>
    rcases hk.grounded.play_cases script _ deltaTime with hsame | ⟨a, -, -, ht⟩
    · rw [hsame]
      exact fun r hr hl => ⟨hr, hl⟩
    · exact ht.audible
  | outside => exact fun r hr hl => ⟨hr, hl⟩

/-- With the initial values that are still to be fed. -/
structure Contract.Upheld (C : Contract) (script : Script) (s : Session) : Prop where
  kept : C.Kept script s.service
  left : ∀ e ∈ s.left, e.2.datapoint < s.service.fresh ∧
    (s.service.datapoints e.2.datapoint).hasListener = true

theorem Contract.Upheld.step {s t : Session} (hu : C.Upheld script s) (hbetween : script.interp1d.Between)
    (hc : C.Accepts script s input) (h : sessionStep script s input = some t) : C.Upheld script t := by
  obtain ⟨hk, hleft⟩ := hu
  have haudible : ∀ {u : Service}, Audible s.service u → ∀ e ∈ s.left, e.2.datapoint < u.fresh ∧
      (u.datapoints e.2.datapoint).hasListener = true := fun ha e he => ha _ (hleft e he).1 (hleft e he).2
  cases input with
  | connect =>
    simp only [sessionStep] at h
    split at h
    · cases h
    · split at h
      · obtain rfl := Option.some.inj h
        exact ⟨hk, hleft⟩
      · have hexec : (checkForNewMocks script true).exec s.service = (reload script).exec s.service := by
          simp [checkForNewMocks]
        rw [hexec] at h
        split at h
        · rename_i u hreload
          obtain rfl := Option.some.inj h
          have hkept := hk.reload hc hreload
          exact ⟨hkept, fun e he =>
            ⟨hkept.grounded.loaded.allocated e he, hkept.grounded.loaded.hasListener e he⟩⟩
        · rename_i u hreload
          obtain rfl := Option.some.inj h
          exact ⟨hk.reload hc hreload, haudible (audible_reload hreload)⟩
  | feed =>
    simp only [sessionStep] at h
    split at h
    · cases h
    · rename_i element left heq
      obtain rfl := Option.some.inj h
      obtain ⟨hlt, hheard⟩ := hleft element (heq ▸ List.mem_cons_self)
      have hrest : ∀ e ∈ left, e ∈ s.left := fun e he => heq ▸ List.mem_cons_of_mem _ he
      simp only [exec_feedElement]
      split
      · rename_i htyped
        refine ⟨hk.setDatapoint (hk.datapoints _ hlt hheard htyped), fun e he => ?_⟩
        have ho := onward_setDatapoint (s.service.datapoints element.2.datapoint).path
          (s.service.datapoints element.2.datapoint).value s.service
        simp only [ho.fresh, ho.hasListener]
        exact hleft e (hrest e he)
      · exact ⟨hk, fun e he => hleft e (hrest e he)⟩
  | start =>
    simp only [sessionStep] at h
    split at h
    · obtain rfl := Option.some.inj h
      exact ⟨hk, hleft⟩
    · cases h
  | turn input =>
    simp only [sessionStep] at h
    split at h
    · cases h
    · obtain ⟨u, hturn, rfl⟩ := Option.map_eq_some_iff.mp h
      have haccepts : C.AcceptsTurn script s.service input := hc
      exact ⟨Contract.Kept.turn hk hbetween haccepts hturn, haudible (Contract.Kept.audible hk hturn)⟩

/-- Before the first load. -/
theorem Unloaded.kept (h : Unloaded s) (hregistry : C.TypesRegistry s.heap s.registry)
    (hbroker : ∀ p v, s.broker p = some v → C.holds p v) (hpending : s.pending = []) (hlog : s.log = [])
    (hdatapoints : ∀ r < s.fresh, (s.datapoints r).hasListener = true →
      (s.datapoints r).dataType.isSome = true → C.writes (s.datapoints r).path (s.datapoints r).value) :
    C.Kept script s := by
  have hno : ∀ e, e ∉ s.mocked := fun e he => by simp [h.mocked] at he
  have hloaded : Loaded s := by
    refine ⟨?_, ?_, fun e he => (hno e he).elim, fun e he => (hno e he).elim, fun e he => (hno e he).elim⟩
    · simp [h.mocked]
    · simp [h.mocked]
  refine ⟨⟨hloaded, h.distinct, h.anchored⟩, hregistry, fun e he => (hno e he).elim, hbroker, ?_, ?_,
    hdatapoints, ?_⟩
  · simp [hpending]
  · simp [hlog, writtenTo]
  · intro r a ha
    rw [h.animators] at ha
    cases ha

/-- In every run from a service that keeps to the contract, in which all edits
and the environment do, whatever comes between the steps of its threads. -/
theorem contract_kept (C : Contract) (script : Script) (hbetween : script.interp1d.Between) (s : Service)
    (hs : C.Kept script s) (inputs : List SessionInput)
    (hc : Along (sessionStep script) (C.Accepts script) (.initial s) inputs) :
    Throughout (sessionStep script) (fun t => C.Kept script t.service) (.initial s) inputs := by
  have hstart : C.Upheld script (.initial s) := ⟨hs, fun e he => by cases he⟩
  refine (Along.throughout (P := C.Upheld script) ?_ hstart hc).mono fun _ hu => hu.kept
  exact fun _ _ _ hu hc hstep => hu.step hbetween hc hstep

def Service.benchPassing : Service :=
  { Service.benchParked with
    heap := { Service.benchParked.heap with
      actions := fun r => if r = 0 then Service.benchParked.heap.actions 0
        else .set ⟨.text "$event.value", true⟩ } }

def benchPassing : List SessionInput :=
  benchMoving ++ [.turn (.receive .actuatorTarget "Stop" (.number 3)), .turn (.visit benchWiper ⟨1, 0, 1⟩ 1),
    .turn (.setExternally "Wiper" (.number 4))]

def Value.OnScale (v : Value) : Prop := ∃ q : ℚ, v = .number q ∧ 0 ≤ q ∧ q ≤ 10

theorem onScale_number (hlo : 0 ≤ q) (hhi : q ≤ 10) : (Value.number q).OnScale := ⟨q, rfl, hlo, hhi⟩

def Contract.bench : Contract where
  writes _ v := v.OnScale
  holds p v := p = "Wiper" → v.OnScale
  events name p v := name = .actuatorTarget → p = "Wiper" ∨ p = "Stop" → v.OnScale
  carries _ v := v.OnScale
  writes_holds _ _ h _ := h

theorem types_bench (p : Path) (b : Behavior) : Contract.bench.Types Service.benchPassing.heap p b := by
  refine ⟨fun t ht v hv => ?_, fun a ha => ?_, fun a ha => ?_⟩
  · obtain rfl := Trigger.event.inj ht
    refine hv rfl ?_
    by_cases hb : b.trigger = 0
    · exact .inl (by simp [EventTrigger.bound, hb])
    · exact .inr (by simp [EventTrigger.bound, hb])
  · simp only [Service.benchPassing] at ha
    split at ha
    · cases ha
    · cases ha
      exact .event rfl fun v hv _ => hv
  · refine ⟨⟨?_, ?_⟩, ?_⟩
    · rintro v ⟨q, rfl, -⟩
      exact ⟨q, rfl⟩
    · rintro lo q hi ⟨_, ⟨⟩, hlo, -⟩ ⟨_, ⟨⟩, -, hhi⟩ hle hle'
      exact onScale_number (hlo.trans hle) (hle'.trans hhi)
    · simp only [Service.benchPassing] at ha
      split at ha
      · cases ha
        intro v hv
        simp only [List.mem_cons, List.not_mem_nil, or_false] at hv
        rcases hv with rfl | rfl
        · exact onScale_number (by norm_num) (by norm_num)
        · exact onScale_number (by norm_num) (by norm_num)
      · cases ha

theorem between_benchFade : Script.benchFade.interp1d.Between := by
  intro numbers duration f hf t
  simp only [Script.benchFade] at hf
  split at hf
  · rename_i hvalues
    obtain rfl := Option.some.inj hf
    have hmem : (0 : ℚ) ∈ numbers ∧ (10 : ℚ) ∈ numbers := by
      have hzero : Value.number 0 ∈ numbers.map .number := hvalues.1 ▸ by simp
      have hten : Value.number 10 ∈ numbers.map .number := hvalues.1 ▸ by simp
      exact ⟨by simpa using hzero, by simpa using hten⟩
    refine ⟨_, rfl, ⟨0, hmem.1, ?_⟩, 10, hmem.2, ?_⟩
    · split_ifs <;> linarith
    · split_ifs <;> linarith
  · cases hf

theorem contract_kept_bench :
    Throughout (sessionStep .benchFade) (fun t => Contract.bench.Kept .benchFade t.service)
        (.initial .benchPassing) benchPassing ∧
      (Atomic.run (sessionStep .benchFade) (.initial .benchPassing) benchPassing).map
        (fun s => (s.raised, writtenTo "Wiper" s.service.log)) =
          some (false, [.number 0, .number 1, .number 3]) := by
  have hzero : (Value.number 0).OnScale := onScale_number (by norm_num) (by norm_num)
  refine ⟨contract_kept .bench .benchFade between_benchFade .benchPassing ?_ _ ?_, by decide +kernel⟩
  · have hunloaded : Unloaded .benchPassing := by
      refine ⟨rfl, fun r => ?_, by decide, List.nodup_nil⟩
      by_cases hr : r = 0
      · rw [hr]
        rfl
      · simp [Service.benchPassing, hr, Action.animator?]
    refine hunloaded.kept ?_ (fun p v hp => by cases hp) rfl rfl fun r _ _ _ => hzero
    intro d hd
    obtain rfl := List.mem_singleton.mp hd
    exact ⟨hzero, fun b _ => types_bench _ b⟩
  · have hfive : (Value.number 5).OnScale := onScale_number (by norm_num) (by norm_num)
    have hthree : (Value.number 3).OnScale := onScale_number (by norm_num) (by norm_num)
    have hfour : (Value.number 4).OnScale := onScale_number (by norm_num) (by norm_num)
    have hall : ∀ input ∈ benchPassing, ∀ s, Contract.bench.Accepts .benchFade s input := by
      intro input hinput s
      simp only [benchPassing, benchMoving, List.cons_append, List.nil_append, List.mem_cons, List.not_mem_nil,
        or_false] at hinput
      rcases hinput with rfl | rfl | rfl | rfl | rfl | rfl | rfl | rfl | rfl | rfl
      · trivial
      · trivial
      · trivial
      · exact fun _ => trivial
      · exact fun _ _ _ => hfive
      · trivial
      · trivial
      · exact fun _ _ _ => hthree
      · trivial
      · exact fun _ => hfour
    exact (Atomic.along_of_forall hall).mono fun s _ h => h s

end KuksaServices.Mock
