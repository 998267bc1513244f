import KuksaServices.Mock.Footprint

/-!
# What a group of mocks sees

Two states look alike to a group of mocked datapoints when their triggers,
their actions as far as they play on them, their pending events and the
values they read are the same, and they were assigned the same values
(`View`). The datapoint objects themselves may be different ones. Executing
or animating a member of the group in two such states assigns it the same
values again.
-/

namespace KuksaServices.Mock

open Atomic (Raise)
open Atomic.Raise (Lockstep)

-- ---------------------------------------------------------------------------
-- The group
-- ---------------------------------------------------------------------------

/-- Registered datapoints with their behaviors, the paths these read and the
events they wait for. -/
structure Group where
  registrations : List Registration
  behaviors : Path → List Behavior
  reads : Set Path
  events : Set (EventType × Path)

variable {G : Group} {ρ ρ' ρ'' : Path → Ref} {s t u : Service} {p q : Path} {b : Behavior}
  {script : Script}

def Group.paths (G : Group) : List Path := G.registrations.map (·.path)

def Group.Has (G : Group) (b : Behavior) : Prop := ∃ p ∈ G.paths, b ∈ G.behaviors p

/-- The value of a path comes back to the group. -/
def Group.Watches (G : Group) (p : Path) : Prop := p ∈ G.reads ∨ (.value, p) ∈ G.events

def Group.Sees (G : Group) (k : Event → Bool) : Prop := ∀ e, k e = true → e.key ∈ G.events

/-- The conditions of the behaviors look at the group's events and values
only. -/
def Group.Local (G : Group) (script : Script) : Prop :=
  ∀ b, G.Has b → ∀ c c' : ExecutionContext, c.callingSignalPath = c'.callingSignalPath →
    c.deltaTime = c'.deltaTime → (∀ q ∈ G.reads, c.client q = c'.client q) →
    (∀ k, G.Sees k → c.pendingEventList.filter k = c'.pendingEventList.filter k) →
    (script.condition b.condition c).1 = (script.condition b.condition c').1

/-- The path that resolving a value reads. -/
def pathRead (path : Path) : Value → Option Path
  | .text t => match t.toList with
    | '$' :: name =>
      if t = "$self" then some path
      else if t = "$event.value" then none
      else some (String.ofList name)
    | _ => none
  | _ => none

def Action.resolved : Action → List Value
  | .set a => if a.dynamic then [a.value] else []
  | .animation a => if a.dynamic then a.values else []

/-- The animation that the action plays on the datapoint at `r`, wherever
that is. -/
def Action.playing (r : Ref) (action : Action) : Option ValueAnimator :=
  action.animator?.bind fun a =>
    if a.datapoint = r ∧ a.done = false then some { a with datapoint := 0 } else none

/-- The two states look alike to the group, whose datapoints are at `ρ` and
at `ρ'`. -/
structure View (G : Group) (ρ ρ' : Path → Ref) (s t : Service) : Prop where
  triggers : ∀ b, G.Has b → s.heap.triggers b.trigger = t.heap.triggers b.trigger
  blank : ∀ b, G.Has b → (s.heap.actions b.action).blank = (t.heap.actions b.action).blank
  playing : ∀ b, G.Has b → ∀ p ∈ G.paths,
    (s.heap.actions b.action).playing (ρ p) = (t.heap.actions b.action).playing (ρ' p)
  kind : ∀ p ∈ G.paths, (s.datapoints (ρ p)).kind = (t.datapoints (ρ' p)).kind
  value : ∀ p ∈ G.paths, G.Watches p → (s.datapoints (ρ p)).value = (t.datapoints (ρ' p)).value
  pending : ∀ k, G.Sees k → s.pending.filter k = t.pending.filter k
  broker : ∀ q ∈ G.reads, s.broker q = t.broker q
  assigned : ∀ p ∈ G.paths, assignedTo p s.log = assignedTo p t.log

theorem View.refl (G : Group) (ρ : Path → Ref) (s : Service) : View G ρ ρ s s where
  triggers _ _ := rfl
  blank _ _ := rfl
  playing _ _ _ _ := rfl
  kind _ _ := rfl
  value _ _ _ := rfl
  pending _ _ := rfl
  broker _ _ := rfl
  assigned _ _ := rfl

theorem View.symm (h : View G ρ ρ' s t) : View G ρ' ρ t s where
  triggers b hb := (h.triggers b hb).symm
  blank b hb := (h.blank b hb).symm
  playing b hb p hp := (h.playing b hb p hp).symm
  kind p hp := (h.kind p hp).symm
  value p hp hv := (h.value p hp hv).symm
  pending k hk := (h.pending k hk).symm
  broker q hq := (h.broker q hq).symm
  assigned p hp := (h.assigned p hp).symm

theorem View.trans (h : View G ρ ρ' s t) (h' : View G ρ' ρ'' t u) : View G ρ ρ'' s u where
  triggers b hb := (h.triggers b hb).trans (h'.triggers b hb)
  blank b hb := (h.blank b hb).trans (h'.blank b hb)
  playing b hb p hp := (h.playing b hb p hp).trans (h'.playing b hb p hp)
  kind p hp := (h.kind p hp).trans (h'.kind p hp)
  value p hp hv := (h.value p hp hv).trans (h'.value p hp hv)
  pending k hk := (h.pending k hk).trans (h'.pending k hk)
  broker q hq := (h.broker q hq).trans (h'.broker q hq)
  assigned p hp := (h.assigned p hp).trans (h'.assigned p hp)

def Group.Covers (G : Group) (p : Path) (action : Action) : Prop :=
  ∀ v ∈ action.blank.resolved, ∀ q, pathRead p v = some q → q ∈ G.reads

structure Group.Bounded (G : Group) (s : Service) : Prop where
  listens : ∀ p ∈ G.paths, ∀ b ∈ G.behaviors p, ∀ t, s.heap.triggers b.trigger = .event t →
    (t.eventType, t.bound p) ∈ G.events
  reads : ∀ p ∈ G.paths, ∀ b ∈ G.behaviors p, G.Covers p (s.heap.actions b.action)

structure Grip (G : Group) (ρ : Path → Ref) (s : Service) : Prop extends G.Bounded s where
  path : ∀ p ∈ G.paths, (s.datapoints (ρ p)).path = p
  hasListener : ∀ p ∈ G.paths, (s.datapoints (ρ p)).hasListener = true

theorem Grip.ref_inj (h : Grip G ρ s) (hp : p ∈ G.paths) (hq : q ∈ G.paths) (heq : ρ p = ρ q) :
    p = q := by
  rw [← h.path p hp, heq, h.path q hq]

def Alike (G : Group) (ρ ρ' : Path → Ref) (s t : Service) : Prop := View G ρ ρ' s t ∧ Grip G ρ s

theorem View.grip (h : View G ρ ρ' s t) (hg : Grip G ρ s) : Grip G ρ' t where
  path p hp := (congrArg Prod.fst (h.kind p hp)).symm.trans (hg.path p hp)
  hasListener p hp := (congrArg (fun k => k.2.2) (h.kind p hp)).symm.trans (hg.hasListener p hp)
  listens p hp b hb trigger ht := hg.listens p hp b hb trigger ((h.triggers b ⟨p, hp, hb⟩).trans ht)
  reads p hp b hb := by
    unfold Group.Covers
    rw [← h.blank b ⟨p, hp, hb⟩]
    exact hg.reads p hp b hb

-- ---------------------------------------------------------------------------
-- Single actions, in both states
-- ---------------------------------------------------------------------------

theorem Alike.registry {registry registry' : Registry} (h : Alike G ρ ρ' s t) :
    Alike G ρ ρ' { s with registry := registry } { t with registry := registry' } :=
  ⟨⟨h.1.triggers, h.1.blank, h.1.playing, h.1.kind, h.1.value, h.1.pending, h.1.broker, h.1.assigned⟩,
    ⟨⟨h.2.listens, h.2.reads⟩, h.2.path, h.2.hasListener⟩⟩

theorem Alike.record (h : Alike G ρ ρ' s t) (d : Deed) : Alike G ρ ρ' (s.record d) (t.record d) := by
  refine ⟨⟨h.1.triggers, h.1.blank, h.1.playing, h.1.kind, h.1.value, h.1.pending, h.1.broker,
    fun p hp => ?_⟩, ⟨⟨h.2.listens, h.2.reads⟩, h.2.path, h.2.hasListener⟩⟩
  simp [Service.record, assignedTo_snoc, h.1.assigned p hp]

theorem Alike.pending {pending pending' : List Event} (h : Alike G ρ ρ' s t)
    (hp : ∀ k, G.Sees k → pending.filter k = pending'.filter k) :
    Alike G ρ ρ' { s with pending := pending } { t with pending := pending' } :=
  ⟨⟨h.1.triggers, h.1.blank, h.1.playing, h.1.kind, h.1.value, hp, h.1.broker, h.1.assigned⟩,
    ⟨⟨h.2.listens, h.2.reads⟩, h.2.path, h.2.hasListener⟩⟩

theorem Alike.setTrigger (h : Alike G ρ ρ' s t) (x : Ref) (trigger : Trigger)
    (hl : ∀ e, trigger = .event e → ∀ p ∈ G.paths, (e.eventType, e.bound p) ∈ G.events) :
    Alike G ρ ρ' (s.setTrigger x trigger) (t.setTrigger x trigger) := by
  refine ⟨⟨fun b hb => ?_, h.1.blank, h.1.playing, h.1.kind, h.1.value, h.1.pending, h.1.broker,
    h.1.assigned⟩, ⟨⟨fun p hp b hb e he => ?_, h.2.reads⟩, h.2.path, h.2.hasListener⟩⟩
  · by_cases heq : b.trigger = x
    · simp [Service.setTrigger, heq]
    · simpa [Service.setTrigger, heq] using h.1.triggers b hb
  · by_cases heq : b.trigger = x
    · exact hl e (by simpa [Service.setTrigger, heq] using he) p hp
    · exact h.2.listens p hp b hb e (by simpa [Service.setTrigger, heq] using he)

theorem View.lastMatch_eq (h : View G ρ ρ' s t) (hk : (name, path) ∈ G.events) :
    lastMatch name path s.pending = lastMatch name path t.pending := by
  refine congrArg List.getLast? (h.pending _ fun e he => ?_)
  simp only [Event.isFor, Bool.and_eq_true, beq_iff_eq] at he
  simpa [Event.key, he.1, he.2] using hk

theorem Alike.remove (h : Alike G ρ ρ' s t) (hk : (name, path) ∈ G.events) :
    Alike G ρ ρ' { s with pending := removeLastMatch name path s.pending }
      { t with pending := removeLastMatch name path t.pending } := by
  refine h.pending fun k hsees => ?_
  simp only [filter_removeLastMatch_eq, h.1.lastMatch_eq hk, h.1.pending k hsees]

theorem lockstep_condition (hl : G.Local script) (hb : G.Has b) (path : Path) (deltaTime : ℚ) :
    Lockstep (Alike G ρ ρ') (isConditionFulfilled script b path deltaTime)
      (isConditionFulfilled script b path deltaTime) := by
  refine .atomic _ fun s t h => ⟨?_, h.registry⟩
  exact hl b hb _ _ rfl rfl h.1.broker h.1.pending

theorem lockstep_check (hp : p ∈ G.paths) (hb : b ∈ G.behaviors p) (deltaTime : ℚ) :
    Lockstep (Alike G ρ ρ') (checkTrigger b p deltaTime) (checkTrigger b p deltaTime) := by
  refine .atomic _ fun s t h => ?_
  have htrigger := h.1.triggers b ⟨p, hp, hb⟩
  unfold checkTriggerOf
  rw [← htrigger]
  cases hs : s.heap.triggers b.trigger with
  | clock c => exact ⟨rfl, h.setTrigger b.trigger _ fun e he => by cases he⟩
  | event e =>
    have hk := h.2.listens p hp b hb e hs
    have hset := (h.setTrigger b.trigger (.event { e with datapointPath := some (e.bound p) })
      fun e' he' q hq => ?_).remove hk
    · simp only [Trigger.check, EventTrigger.check, h.1.lastMatch_eq hk] at hset ⊢
      cases lastMatch e.eventType (e.bound p) t.pending with
      | none => exact ⟨rfl, hset⟩
      | some found => exact ⟨rfl, hset.record _⟩
    · cases he'
      exact hk

theorem lockstep_resolve (trigger : TriggerResult) (value : Value)
    (hr : ∀ q, pathRead p value = some q → q ∈ G.reads) :
    Lockstep (Alike G ρ ρ') (resolveValue trigger p value) (resolveValue trigger p value) := by
  refine .attempt _ fun s t h => ?_
  have hread : ∀ q, pathRead p value = some q →
      (some (getDatapointValue q s).1 : Option Value) = some (getDatapointValue q t).1 ∧
        Alike G ρ ρ' (getDatapointValue q s).2 (getDatapointValue q t).2 := by
    intro q hq
    exact ⟨by simp [getDatapointValue, h.1.broker q (hr q hq)], h.registry⟩
  cases value with
  | none => exact ⟨rfl, h⟩
  | number q => exact ⟨rfl, h⟩
  | text text =>
    dsimp only
    unfold pathRead at hread
    dsimp only at hread
    split
    · rename_i name hname
      rw [hname] at hread
      split
      · rename_i hself
        exact hread _ (by simp [hself])
      · rename_i hself
        split
        · split
          · exact ⟨rfl, h⟩
          · exact ⟨rfl, h⟩
        · rename_i hevent
          exact hread _ (by simp [hself, hevent])
    · exact ⟨rfl, h⟩

theorem lockstep_resolveValues (trigger : TriggerResult) (values : List Value)
    (hr : ∀ v ∈ values, ∀ q, pathRead p v = some q → q ∈ G.reads) :
    Lockstep (Alike G ρ ρ') (resolveValues trigger p values) (resolveValues trigger p values) := by
  induction values with
  | nil => exact .pure _
  | cons value values ih =>
    refine .bind (lockstep_resolve trigger value (hr value List.mem_cons_self)) fun v => ?_
    exact .bind (ih fun v hv => hr v (List.mem_cons_of_mem _ hv)) fun vs => .pure _

-- ---------------------------------------------------------------------------
-- Assigned values
-- ---------------------------------------------------------------------------

theorem View.discard (G : Group) (ρ : Path → Ref) (hk : (.value, q) ∉ G.events) (s : Service) :
    View G ρ ρ s (discardEvent q s) := by
  unfold discardEvent
  cases lastMatch .value q s.pending with
  | none => exact .refl G ρ s
  | some e =>
    refine { View.refl G ρ s with
      pending := fun k hsees => (filter_removeLastMatch _ fun e he heq => hk ?_).symm
      assigned := fun p _ => (assignedTo_record p _ _ rfl).symm }
    rw [← heq]
    exact hsees e he

theorem Alike.unseen (h : Alike G ρ ρ' s t) (hs : View G ρ ρ s s') (ht : View G ρ' ρ' t t') :
    Alike G ρ ρ' s' t' := ⟨(hs.symm.trans h.1).trans ht, hs.grip h.2⟩

theorem Alike.discard (h : Alike G ρ ρ' s t) (q : Path) :
    Alike G ρ ρ' (discardEvent q s) (discardEvent q t) := by
  by_cases hk : (.value, q) ∈ G.events
  · have hremove := h.remove hk
    unfold discardEvent
    rw [h.1.lastMatch_eq hk]
    cases lastMatch .value q t.pending with
    | none => exact h
    | some e => exact hremove.record _
  · exact h.unseen (.discard G ρ hk s) (.discard G ρ' hk t)

theorem Alike.broker {broker broker' : Path → Option Value} (h : Alike G ρ ρ' s t)
    (hb : ∀ q ∈ G.reads, broker q = broker' q) :
    Alike G ρ ρ' { s with broker := broker } { t with broker := broker' } :=
  ⟨⟨h.1.triggers, h.1.blank, h.1.playing, h.1.kind, h.1.value, h.1.pending, hb, h.1.assigned⟩,
    ⟨⟨h.2.listens, h.2.reads⟩, h.2.path, h.2.hasListener⟩⟩

theorem Alike.write (h : Alike G ρ ρ' s t) (q : Path) (value : Value) :
    Alike G ρ ρ' (writeBroker q value s) (writeBroker q value t) := by
  refine (h.broker fun q' hq => ?_).record _
  by_cases heq : q' = q
  · simp [heq]
  · simpa [heq] using h.1.broker q' hq

theorem kind_assign (s : Service) (r r' : Ref) (value : Value) :
    ((s.assign r value).datapoints r').kind = (s.datapoints r').kind := by
  by_cases h : r' = r
  · simp [Service.assign, h, DataPoint.kind]
  · simp [Service.assign, h]

theorem Alike.assign (h : Alike G ρ ρ' s t) (hp : p ∈ G.paths) (value : Value) :
    Alike G ρ ρ' (s.assign (ρ p) value) (t.assign (ρ' p) value) := by
  have hg' := h.1.grip h.2
  have hkind : ∀ q, ((s.assign (ρ p) value).datapoints (ρ q)).kind = (s.datapoints (ρ q)).kind :=
    fun q => kind_assign s (ρ p) (ρ q) value
  refine ⟨⟨h.1.triggers, h.1.blank, h.1.playing, fun q hq => ?_, fun q hq hv => ?_, h.1.pending,
    h.1.broker, fun q hq => ?_⟩, ⟨⟨h.2.listens, h.2.reads⟩, fun q hq => ?_, fun q hq => ?_⟩⟩
  · rw [kind_assign, kind_assign]
    exact h.1.kind q hq
  · by_cases heq : q = p
    · simp [Service.assign, heq]
    · have hne : ρ q ≠ ρ p := fun he => heq (h.2.ref_inj hq hp he)
      have hne' : ρ' q ≠ ρ' p := fun he => heq (hg'.ref_inj hq hp he)
      simpa [Service.assign, hne, hne'] using h.1.value q hq hv
  · simp [Service.assign, Service.record, assignedTo_snoc, h.1.assigned q hq, h.2.path p hp,
      hg'.path p hp]
  · exact (congrArg Prod.fst (hkind q)).trans (h.2.path q hq)
  · exact (congrArg (fun k => k.2.2) (hkind q)).trans (h.2.hasListener q hq)

/-- Where nobody in the group watches the path, an assignment is no more than
the record of it. -/
theorem View.setValue (hn : ¬ G.Watches p) (hp : p ∈ G.paths) (hg : Grip G ρ s) (value : Value) :
    View G ρ ρ (s.record (.assigned p true value)) ((Mock.setValue (ρ p) value).exec s).2 := by
  have hread : p ∉ G.reads := fun h => hn (.inl h)
  have hevent : (.value, p) ∉ G.events := fun h => hn (.inr h)
  by_cases hv : (s.datapoints (ρ p)).value = value
  · rw [exec_setValue_same (hg.hasListener p hp) hv, hg.path p hp]
    exact .refl G ρ _
  · rw [exec_setValue_other (hg.hasListener p hp) hv, hg.path p hp]
    refine View.trans (t := writeBroker p value (s.assign (ρ p) value)) ?_ (.discard G ρ hevent _)
    refine { View.refl G ρ s with
      kind := fun q _ => (kind_assign s (ρ p) (ρ q) value).symm
      value := fun q hq hw => ?_
      broker := fun q hq => ?_
      assigned := fun q hq => ?_ }
    · have hne : ρ q ≠ ρ p := fun he => hn (hg.ref_inj hq hp he ▸ hw)
      simp [writeBroker, Service.record, Service.assign, hne]
    · have hne : q ≠ p := fun heq => hread (heq ▸ hq)
      simp [writeBroker, Service.record, Service.assign, hne]
    · refine Eq.trans ?_ (assignedTo_record q (s.assign (ρ p) value) (.wrote p value) rfl).symm
      simp [Service.assign, Service.record, hg.path p hp]

theorem lockstep_setValue (hp : p ∈ G.paths) (value : Value) :
    Lockstep (Alike G ρ ρ') (Mock.setValue (ρ p) value) (Mock.setValue (ρ' p) value) := by
  intro s t a b s' t' h hs ht
  refine ⟨rfl, ?_⟩
  have hg' := h.1.grip h.2
  have hlistener := h.2.hasListener p hp
  have hlistener' := hg'.hasListener p hp
  by_cases hn : G.Watches p
  · have hvalue := h.1.value p hp hn
    by_cases hv : (s.datapoints (ρ p)).value = value
    · rw [exec_setValue_same hlistener hv, h.2.path p hp] at hs
      rw [exec_setValue_same hlistener' (hvalue ▸ hv), hg'.path p hp] at ht
      cases hs
      cases ht
      exact h.record _
    · rw [exec_setValue_other hlistener hv, h.2.path p hp] at hs
      rw [exec_setValue_other hlistener' (hvalue ▸ hv), hg'.path p hp] at ht
      cases hs
      cases ht
      exact ((h.assign hp value).write _ _).discard _
  · have hs' := View.setValue hn hp h.2 value
    have ht' := View.setValue hn hp hg' value
    rw [hs] at hs'
    rw [ht] at ht'
    exact (h.record (.assigned p true value)).unseen hs' ht'

-- ---------------------------------------------------------------------------
-- Executing a member
-- ---------------------------------------------------------------------------

def Group.CoversAt (G : Group) (x : Ref) (action : Action) : Prop :=
  ∀ p ∈ G.paths, ∀ b ∈ G.behaviors p, b.action = x → G.Covers p action

theorem Alike.setAction {action action' : Action} (h : Alike G ρ ρ' s t) (x : Ref)
    (hblank : action.blank = action'.blank)
    (hplaying : ∀ p ∈ G.paths, action.playing (ρ p) = action'.playing (ρ' p))
    (hcovers : G.CoversAt x action) :
    Alike G ρ ρ' (s.setAction x action) (t.setAction x action') := by
  refine ⟨⟨h.1.triggers, fun b hb => ?_, fun b hb p hp => ?_, h.1.kind, h.1.value, h.1.pending,
    h.1.broker, h.1.assigned⟩, ⟨⟨h.2.listens, fun p hp b hb => ?_⟩, h.2.path, h.2.hasListener⟩⟩
  · by_cases heq : b.action = x
    · simpa [Service.setAction, heq] using hblank
    · simpa [Service.setAction, heq] using h.1.blank b hb
  · by_cases heq : b.action = x
    · simpa [Service.setAction, heq] using hplaying p hp
    · simpa [Service.setAction, heq] using h.1.playing b hb p hp
  · by_cases heq : b.action = x
    · simpa [Service.setAction, heq] using hcovers p hp b hb heq
    · simpa [Service.setAction, heq] using h.2.reads p hp b hb

theorem Alike.setAnimator {a a' : AnimationAction} (h : Alike G ρ ρ' s t) (x : Ref)
    (hblank : (Action.animation a).blank = (Action.animation a').blank)
    (hcovers : G.CoversAt x (.animation a)) (hp : p ∈ G.paths) (animator : ValueAnimator) :
    Alike G ρ ρ' (s.setAnimator x a { animator with datapoint := ρ p })
      (t.setAnimator x a' { animator with datapoint := ρ' p }) := by
  have hg' := h.1.grip h.2
  refine h.setAction x hblank (fun q hq => ?_) hcovers
  have hiff : ρ p = ρ q ↔ ρ' p = ρ' q := by
    constructor
    · intro heq
      rw [h.2.ref_inj hp hq heq]
    · intro heq
      rw [hg'.ref_inj hp hq heq]
  simp [Action.playing, Action.animator?, hiff]

theorem new?_eq (interp1d : Interp1d) (values : List Value) (duration : ℚ) (repeatMode : RepeatMode)
    (r : Ref) : ValueAnimator.new? interp1d values duration repeatMode r =
      (ValueAnimator.new? interp1d values duration repeatMode 0).map ({ · with datapoint := r }) := by
  unfold ValueAnimator.new?
  cases interp1d values duration with
  | none => rfl
  | some f => cases values <;> rfl

theorem lockstep_startAnimator {a a' : AnimationAction} (x : Ref)
    (hblank : (Action.animation a).blank = (Action.animation a').blank)
    (hcovers : G.CoversAt x (.animation a)) (hp : p ∈ G.paths) (values : List Value) :
    Lockstep (Alike G ρ ρ') (startAnimator script x a values (ρ p))
      (startAnimator script x a' values (ρ' p)) := by
  have hfields : a.duration = a'.duration ∧ a.repeatMode = a'.repeatMode := by
    simp only [Action.blank, Action.animation.injEq, AnimationAction.mk.injEq] at hblank
    exact ⟨hblank.1, hblank.2.1⟩
  refine .attempt _ fun s t h => ?_
  have hnew := new?_eq script.interp1d values a.duration a.repeatMode (ρ p)
  have hnew' : ValueAnimator.new? script.interp1d values a'.duration a'.repeatMode (ρ' p) =
      (ValueAnimator.new? script.interp1d values a.duration a.repeatMode 0).map
        ({ · with datapoint := ρ' p }) := by
    rw [hfields.1, hfields.2]
    exact new?_eq ..
  rw [hnew, hnew']
  cases ValueAnimator.new? script.interp1d values a.duration a.repeatMode 0 with
  | none => exact ⟨rfl, h⟩
  | some animator => exact ⟨rfl, h.setAnimator x hblank hcovers hp animator⟩

theorem lockstep_set (hp : p ∈ G.paths) (a : SetAction) (trigger : TriggerResult)
    (hcovers : G.Covers p (.set a)) :
    Lockstep (Alike G ρ ρ') (a.execute trigger (ρ p) p) (a.execute trigger (ρ' p) p) := by
  refine .bind ?_ fun value => ?_
  · split
    · rename_i hdynamic
      refine lockstep_resolve trigger a.value fun q hq => hcovers a.value ?_ q hq
      simp [Action.blank, Action.resolved, hdynamic]
    · exact .pure _
  · split
    · exact lockstep_setValue hp value
    · exact .pure _

theorem lockstep_animation {a a' : AnimationAction} (x : Ref) (hp : p ∈ G.paths)
    (hb : b ∈ G.behaviors p) (hx : b.action = x) (trigger : TriggerResult)
    (hblank : (Action.animation a).blank = (Action.animation a').blank)
    (hcovers : G.CoversAt x (.animation a)) :
    Lockstep (Alike G ρ ρ') (a.execute script x trigger (ρ p) p)
      (a'.execute script x trigger (ρ' p) p) := by
  have hfields : a.dynamic = a'.dynamic ∧ a.values = a'.values := by
    simp only [Action.blank, Action.animation.injEq, AnimationAction.mk.injEq] at hblank
    exact ⟨hblank.2.2.2.1, hblank.2.2.1⟩
  refine .bind (.atomic _ fun s t h => ⟨?_, h⟩) fun discrete => ?_
  · have htype := congrArg (fun k => k.2.1) (h.1.kind p hp)
    simp only [DataPoint.kind] at htype
    simp [DataPoint.hasDiscreteValueType, htype]
  · split
    · exact .pure _
    · refine .bind ?_ fun values => lockstep_startAnimator x hblank hcovers hp values
      rw [← hfields.1, ← hfields.2]
      split
      · rename_i hdynamic
        refine lockstep_resolveValues trigger a.values fun v hv => hcovers p hp b hb hx v ?_
        simpa [Action.blank, Action.resolved, hdynamic] using hv
      · exact .pure _

theorem Grip.coversAt (h : Grip G ρ s) (x : Ref) : G.CoversAt x (s.heap.actions x) := by
  rintro p hp b hb rfl
  exact h.reads p hp b hb

theorem lockstep_executeAction (hp : p ∈ G.paths) (hb : b ∈ G.behaviors p) (trigger : TriggerResult) :
    Lockstep (Alike G ρ ρ') (executeAction script b trigger (ρ p) p)
      (executeAction script b trigger (ρ' p) p) := by
  refine .look _ fun s t h x y s' t' hs ht => ?_
  have hblank := h.1.blank b ⟨p, hp, hb⟩
  have hcovers := h.2.coversAt b.action
  cases ha : s.heap.actions b.action with
  | set a =>
    rw [ha] at hs hblank hcovers
    cases ha' : t.heap.actions b.action with
    | set a' =>
      rw [ha'] at ht hblank
      cases hblank
      exact lockstep_set hp a trigger (hcovers p hp b hb rfl) _ _ _ _ _ _ h hs ht
    | animation a' =>
      rw [ha'] at hblank
      cases hblank
  | animation a =>
    rw [ha] at hs hblank hcovers
    cases ha' : t.heap.actions b.action with
    | set a' =>
      rw [ha'] at hblank
      cases hblank
    | animation a' =>
      rw [ha'] at ht hblank
      exact lockstep_animation b.action hp hb rfl trigger hblank hcovers _ _ _ _ _ _ h hs ht

theorem lockstep_executeElement (hl : G.Local script) (hp : p ∈ G.paths) (isMocked isMocked' : Bool)
    (deltaTime : ℚ) :
    Lockstep (Alike G ρ ρ') (executeElement script deltaTime (p, ⟨ρ p, isMocked, G.behaviors p⟩))
      (executeElement script deltaTime (p, ⟨ρ' p, isMocked', G.behaviors p⟩)) := by
  refine .forUntil fun b hb => .bind (lockstep_condition hl ⟨p, hp, hb⟩ p deltaTime) fun fulfilled => ?_
  split
  · refine .bind (lockstep_check hp hb deltaTime) fun result => ?_
    split
    · refine .bind (.bind (.atomic _ fun s t h => ⟨rfl, h.record _⟩) fun _ => ?_) fun _ => .pure _
      exact lockstep_executeAction hp hb result
    · exact .pure _
  · exact .pure _

-- ---------------------------------------------------------------------------
-- Out of sight
-- ---------------------------------------------------------------------------

structure Footprint.Misses (F : Footprint) (G : Group) (ρ : Path → Ref) (s : Service) : Prop where
  triggers : ∀ b, G.Has b → b.trigger ∉ F.triggers
  actions : ∀ b, G.Has b → b.action ∈ F.actions → ∀ p ∈ G.paths,
    (s.heap.actions b.action).playing (ρ p) = none
  datapoints : ∀ p ∈ G.paths, ρ p ∉ F.datapoints
  events : ∀ k ∈ G.events, k ∉ F.events
  paths : ∀ p ∈ G.paths, p ∉ F.paths
  reads : ∀ q ∈ G.reads, q ∉ F.paths

theorem Action.playing_elsewhere {action : Action} (h : action.animator? = some a)
    (hne : a.datapoint ≠ r) : action.playing r = none := by
  simp [Action.playing, h, hne]

theorem Touches.view (h : Touches F s t) (hm : F.Misses G ρ s) (hr : ∀ p ∈ G.paths, ρ p < s.fresh) :
    View G ρ ρ s t where
  triggers b hb := (h.triggers _ (hm.triggers b hb)).symm
  blank b hb := (h.blank _).symm
  playing b hb p hp := by
    rcases h.animators b.action with heq | ⟨a, ha, hmem, -⟩
    · rw [heq]
    · by_cases hb' : b.action ∈ F.actions
      · have hne : a.datapoint ≠ ρ p := fun heq => hm.datapoints p hp (heq ▸ hmem)
        rw [hm.actions b hb hb' p hp, Action.playing_elsewhere ha hne]
      · rw [h.actions _ hb']
  kind p hp := (h.kinds _ (hr p hp)).symm
  value p hp _ := by rw [h.datapoints _ (hm.datapoints p hp) (hr p hp)]
  pending k hk := (h.pending k fun e he => hm.events _ (hk e he)).symm
  broker q hq := (h.broker q (hm.reads q hq)).symm
  assigned p hp := (h.assigned p (hm.paths p hp)).symm

-- ---------------------------------------------------------------------------
-- Playing the group's animations
-- ---------------------------------------------------------------------------

def Service.Unheard (s : Service) (r : Ref) : Prop := r < s.fresh ∧ (s.datapoints r).hasListener = false

theorem Service.Unheard.touched (h : s.Unheard r) (ht : Touches F s t) : t.Unheard r :=
  ⟨Nat.lt_of_lt_of_le h.1 ht.fresh, (ht.hasListener h.1).trans h.2⟩

def Group.At (G : Group) (ρ : Path → Ref) (r : Ref) : Prop := ∃ p ∈ G.paths, ρ p = r

/-- The group's animations play on its own datapoints, or unheard. -/
structure Tied (G : Group) (ρ : Path → Ref) (s : Service) : Prop where
  allocated : ∀ p ∈ G.paths, ρ p < s.fresh
  animators : ∀ b, G.Has b → ∀ a, (s.heap.actions b.action).animator? = some a → a.done = false →
    G.At ρ a.datapoint ∨ s.Unheard a.datapoint

def Group.footprint (G : Group) (ρ : Path → Ref) (s : Service) (path : Path) : Footprint where
  path := path
  triggers := {x | ∃ b, G.Has b ∧ b.trigger = x}
  actions := {x | ∃ b, G.Has b ∧ b.action = x}
  datapoints := {x | G.At ρ x ∨ s.Unheard x}
  events := {k | k ∈ G.events ∨ ∃ p ∈ G.paths, k = (.value, p)}
  paths := {p | p ∈ G.paths}

theorem Tied.touched (h : Tied G ρ s) (ht : Touches F s t)
    (hd : ∀ b, G.Has b → b.action ∈ F.actions → ∀ d ∈ F.datapoints, G.At ρ d ∨ s.Unheard d) :
    Tied G ρ t := by
  refine ⟨fun p hp => Nat.lt_of_lt_of_le (h.allocated p hp) ht.fresh, fun b hb a ha hdone => ?_⟩
  have hold : t.heap.actions b.action = s.heap.actions b.action →
      G.At ρ a.datapoint ∨ s.Unheard a.datapoint := by
    intro heq
    exact h.animators b hb a (heq ▸ ha) hdone
  have htied : G.At ρ a.datapoint ∨ s.Unheard a.datapoint := by
    rcases ht.animators b.action with heq | ⟨a', ha', hmem, -⟩
    · exact hold heq
    · by_cases hb' : b.action ∈ F.actions
      · rw [ha] at ha'
        cases ha'
        exact hd b hb hb' a.datapoint hmem
      · exact hold (ht.actions _ hb')
  exact htied.imp_right (·.touched ht)

theorem Tied.own (h : Tied G ρ s) (ht : Touches (G.footprint ρ s path) s t) : Tied G ρ t :=
  h.touched ht fun _ _ _ _ hd => hd

theorem Tied.owns (h : Tied G ρ s) (hg : Grip G ρ s) (hp : p ∈ G.paths) (path : Path) :
    Owns (G.footprint ρ s path) (ρ p) s := by
  refine ⟨.inl ⟨p, hp, rfl⟩, h.allocated p hp, fun _ => ?_⟩
  rw [hg.path p hp]
  exact ⟨hp, .inr ⟨p, hp, rfl⟩⟩

theorem Grip.serves (h : Grip G ρ s) (hp : p ∈ G.paths) (hb : b ∈ G.behaviors p) :
    Serves (G.footprint ρ s p) b s :=
  ⟨⟨b, ⟨p, hp, hb⟩, rfl⟩, ⟨b, ⟨p, hp, hb⟩, rfl⟩, fun t ht => .inl (h.listens p hp b hb t ht)⟩

theorem Tied.plays (h : Tied G ρ s) (hg : Grip G ρ s) (hb : G.Has b) (path : Path) :
    Plays (G.footprint ρ s path) b s := by
  refine ⟨⟨b, hb, rfl⟩, fun a ha hdone => ?_⟩
  rcases h.animators b hb a ha hdone with ⟨q, hq, heq⟩ | hunheard
  · rw [← heq]
    exact h.owns hg hq path
  · exact ⟨.inr hunheard, hunheard.1, fun hl => absurd hl (by simp [hunheard.2])⟩

theorem Tied.touches_animate (h : Tied G ρ s) (hg : Grip G ρ s) (hb : G.Has b) (path : Path)
    (hexec : (animateBehavior script deltaTime b).exec s = (x, s')) :
    Touches (G.footprint ρ s path) s s' := by
  have htouches : Touches _ s ((animateBehavior script deltaTime b).exec s).2 :=
    touches_animateBehavior (h.plays hg hb path) deltaTime
  rw [hexec] at htouches
  exact htouches

theorem Tied.turn (h : Tied G ρ s) (hb : G.Has b)
    (hexec : (animateBehavior script deltaTime b).exec s = (x, s')) :
    ((∀ p ∈ G.paths, (s.heap.actions b.action).playing (ρ p) = none) ∧ View G ρ ρ s s') ∨
    ∃ a p animator, s.heap.actions b.action = .animation a ∧ p ∈ G.paths ∧
      (s.heap.actions b.action).playing (ρ p) = some animator ∧
      (setValue (ρ p) (animator.tick script.interp1d deltaTime).value).exec
        (s.setAnimator b.action a { animator.tick script.interp1d deltaTime with datapoint := ρ p }) =
          (x, s') := by
  rcases animateBehavior_cases script deltaTime b s with
    ⟨hall, hsame⟩ | ⟨a, animator, ha, hsome, hdone, hplays⟩
  · rw [hexec] at hsame
    subst hsame
    refine .inl ⟨fun p _ => ?_, .refl G ρ _⟩
    simp only [Action.playing, Option.bind_eq_none_iff]
    intro a ha
    simp [hall a ha]
  · have hanimator : (s.heap.actions b.action).animator? = some animator := by
      simpa [ha, Action.animator?] using hsome
    by_cases hr : G.At ρ animator.datapoint
    · obtain ⟨p, hp, hr⟩ := hr
      refine .inr ⟨a, p, { animator with datapoint := 0 }, ha, hp, ?_, ?_⟩
      · simp [Action.playing, hanimator, hr, hdone]
      · rw [← hexec, hplays, hr]
        rfl
    · have hne : ∀ p ∈ G.paths, animator.datapoint ≠ ρ p := fun p hp heq => hr ⟨p, hp, heq.symm⟩
      have hnone : ∀ p ∈ G.paths, (s.heap.actions b.action).playing (ρ p) = none := fun p hp =>
        Action.playing_elsewhere hanimator (hne p hp)
      have hunheard := (h.animators b hb animator hanimator hdone).resolve_left hr
      let F : Footprint := ⟨"", ∅, {b.action}, {animator.datapoint}, ∅, ∅⟩
      have htouches : Touches F s ((animateBehavior script deltaTime b).exec s).2 := by
        refine touches_animateBehavior (F := F) ⟨rfl, fun a' ha' _ => ?_⟩ deltaTime
        rw [hanimator] at ha'
        cases ha'
        exact ⟨rfl, hunheard.1, fun hl => absurd hl (by simp [hunheard.2])⟩
      rw [hexec] at htouches
      refine .inl ⟨hnone, htouches.view ⟨?_, ?_, ?_, ?_, ?_, ?_⟩ h.allocated⟩
      · exact fun _ _ => id
      · rintro c - hc
        rw [hc]
        exact hnone
      · exact fun p hp hmem => hne p hp hmem.symm
      · exact fun _ _ => id
      · exact fun _ _ => id
      · exact fun _ _ => id

theorem Action.playing_ref {action : Action} (h : action.playing r = some animator) :
    ∃ a, action.animator? = some a ∧ a.datapoint = r := by
  simp only [Action.playing, Option.bind_eq_some_iff] at h
  obtain ⟨a, ha, hif⟩ := h
  split at hif
  · rename_i hr
    exact ⟨a, ha, hr.1⟩
  · cases hif

theorem Action.playing_unique {action : Action} (h : action.playing r = some animator)
    (h' : action.playing r' = some animator') : r = r' := by
  obtain ⟨a, ha, rfl⟩ := Action.playing_ref h
  obtain ⟨a', ha', rfl⟩ := Action.playing_ref h'
  rw [ha] at ha'
  cases ha'
  rfl

/-- An animation of the group, in both states. -/
theorem Alike.animate (h : Alike G ρ ρ' s t) (hs : Tied G ρ s) (ht : Tied G ρ' t) (hb : G.Has b)
    (hexec : (animateBehavior script deltaTime b).exec s = (some (), s'))
    (hexec' : (animateBehavior script deltaTime b).exec t = (some (), t')) : Alike G ρ ρ' s' t' := by
  have hg' := h.1.grip h.2
  have hplaying := h.1.playing b hb
  rcases hs.turn hb hexec with ⟨hnone, hview⟩ | ⟨a, p, animator, ha, hp, hsome, hset⟩
  · rcases ht.turn hb hexec' with ⟨-, hview'⟩ | ⟨_, q, _, -, hq, hsome', -⟩
    · exact h.unseen hview hview'
    · have heq := hplaying q hq
      rw [hnone q hq, hsome'] at heq
      cases heq
  · have hsame := hplaying p hp
    rcases ht.turn hb hexec' with ⟨hnone', -⟩ | ⟨a', q, animator', ha', hq, hsome', hset'⟩
    · rw [hsome, hnone' p hp] at hsame
      cases hsame
    · rw [hsome] at hsame
      obtain rfl := hg'.ref_inj hp hq (Action.playing_unique hsame.symm hsome')
      rw [hsome'] at hsame
      cases hsame
      have hblank := h.1.blank b hb
      have hcovers := h.2.coversAt b.action
      rw [ha, ha'] at hblank
      rw [ha] at hcovers
      exact (lockstep_setValue hp _ _ _ _ _ _ _ (h.setAnimator _ hblank hcovers hp _) hset hset').2

end KuksaServices.Mock
