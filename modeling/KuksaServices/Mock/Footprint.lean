import KuksaServices.Mock.Programs

/-!
# What a mocked datapoint touches

Executing the behaviors of one datapoint changes the objects they refer to,
takes the events they listen to and writes the datapoint's own path. Nothing
else changes (`Touches`), and no object becomes another one: a trigger at
most gets the path it listens to, an action at most an animator.
-/

namespace KuksaServices.Mock

open Atomic (Raise Frame)

-- ---------------------------------------------------------------------------
-- Assigned values
-- ---------------------------------------------------------------------------

def Deed.assignedTo? (path : Path) : Deed → Option Value
  | .assigned p true value => if p = path then some value else none
  | _ => none

/-- The values assigned to the datapoint of a path that the service listens
to, in order. -/
def assignedTo (path : Path) (log : List Deed) : List Value := log.filterMap (·.assignedTo? path)

theorem assignedTo_snoc (path : Path) (log : List Deed) (d : Deed) :
    assignedTo path (log ++ [d]) = assignedTo path log ++ (d.assignedTo? path).toList := by
  cases h : d.assignedTo? path <;> simp [assignedTo, h]

theorem assignedTo_record (path : Path) (s : Service) (d : Deed) (h : d.assignedTo? path = none) :
    assignedTo path (s.record d).log = assignedTo path s.log := by
  simp [Service.record, assignedTo_snoc, h]

-- ---------------------------------------------------------------------------
-- Objects under change
-- ---------------------------------------------------------------------------

/-- A clock runs; an event trigger takes the path of its caller. -/
def Trigger.Evolves (path : Path) : Trigger → Trigger → Prop
  | .clock t, .clock t' => t'.intervalSec = t.intervalSec ∧ t'.isRecurring = t.isRecurring
  | .event t, .event t' => t' = t ∨ t' = { t with datapointPath := some (t.bound path) }
  | _, _ => False

theorem Trigger.Evolves.refl (path : Path) (t : Trigger) : t.Evolves path t := by
  cases t with
  | clock t => exact ⟨rfl, rfl⟩
  | event t => exact .inl rfl

theorem Trigger.Evolves.trans {a b c : Trigger} (h : a.Evolves path b) (h' : b.Evolves path c) :
    a.Evolves path c := by
  cases a with
  | clock a =>
    cases b with
    | event b => exact h.elim
    | clock b =>
      cases c with
      | event c => exact h'.elim
      | clock c => exact ⟨h'.1.trans h.1, h'.2.trans h.2⟩
  | event a =>
    cases b with
    | clock b => exact h.elim
    | event b =>
      cases c with
      | clock c => exact h'.elim
      | event c =>
        rcases h with rfl | rfl
        · exact h'
        · rcases h' with rfl | rfl
          · exact .inr rfl
          · exact .inr rfl

def Action.blank : Action → Action
  | .set a => .set a
  | .animation a => .animation { a with animator := none }

def Action.animator? : Action → Option ValueAnimator
  | .set _ => none
  | .animation a => a.animator

def DataPoint.kind (d : DataPoint) : Path × Option DataType × Bool := (d.path, d.dataType, d.hasListener)

-- ---------------------------------------------------------------------------
-- The registry
-- ---------------------------------------------------------------------------

structure Registry.Distinct (r : Registry) : Prop where
  paths : r.paths.Nodup
  required : r.required.Nodup

theorem Registry.Distinct.require {r : Registry} (h : r.Distinct) (path : Path) :
    (r.require path).Distinct := by
  unfold Registry.require
  split
  · exact h
  · rename_i hpath
    refine ⟨h.paths, List.nodup_append.mpr ⟨h.required, by simp, ?_⟩⟩
    simp only [List.mem_singleton]
    rintro a ha b rfl rfl
    exact hpath ha

structure Registry.Reads (r r' : Registry) : Prop where
  mocked : r'.mocked = r.mocked
  lists : r'.lists = r.lists
  distinct : r.Distinct → r'.Distinct

theorem Registry.Reads.refl (r : Registry) : r.Reads r := ⟨rfl, rfl, id⟩

theorem Registry.Reads.trans {r r' r'' : Registry} (h : r.Reads r') (h' : r'.Reads r'') : r.Reads r'' :=
  ⟨h'.mocked.trans h.mocked, h'.lists.trans h.lists, h'.distinct ∘ h.distinct⟩

theorem reads_require (r : Registry) (path : Path) : r.Reads (r.require path) := by
  refine ⟨?_, ?_, (·.require path)⟩ <;>
  · unfold Registry.require
    split <;> rfl

theorem reads_requireAll (r : Registry) (paths : List Path) : r.Reads (r.requireAll paths) := by
  induction paths generalizing r with
  | nil => exact .refl r
  | cons path paths ih => exact (reads_require r path).trans (ih _)

-- ---------------------------------------------------------------------------
-- Footprints
-- ---------------------------------------------------------------------------

def Event.key (e : Event) : EventType × Path := (e.name, e.path)

/-- The caller's path, the objects that may change, the events that may be
taken, and the paths that may be written. -/
structure Footprint where
  path : Path
  triggers : Set Ref
  actions : Set Ref
  datapoints : Set Ref
  events : Set (EventType × Path)
  paths : Set Path

structure Touches (F : Footprint) (s t : Service) : Prop where
  triggers : ∀ r, r ∉ F.triggers → t.heap.triggers r = s.heap.triggers r
  evolves : ∀ r, (s.heap.triggers r).Evolves F.path (t.heap.triggers r)
  actions : ∀ r, r ∉ F.actions → t.heap.actions r = s.heap.actions r
  blank : ∀ r, (t.heap.actions r).blank = (s.heap.actions r).blank
  animators : ∀ r, t.heap.actions r = s.heap.actions r ∨ ∃ a, (t.heap.actions r).animator? = some a ∧
    a.datapoint ∈ F.datapoints ∧ a.datapoint < t.fresh
  datapoints : ∀ r, r ∉ F.datapoints → r < s.fresh → t.datapoints r = s.datapoints r
  kinds : ∀ r, r < s.fresh → (t.datapoints r).kind = (s.datapoints r).kind
  fresh : s.fresh ≤ t.fresh
  silent : ∀ r, s.fresh ≤ r → r < t.fresh → (t.datapoints r).hasListener = false
  pending : ∀ k : Event → Bool, (∀ e, k e = true → e.key ∉ F.events) →
    t.pending.filter k = s.pending.filter k
  mocked : t.mocked = s.mocked
  subscriptions : t.subscriptions = s.subscriptions
  registry : s.registry.Reads t.registry
  broker : ∀ p, p ∉ F.paths → t.broker p = s.broker p
  assigned : ∀ p, p ∉ F.paths → assignedTo p t.log = assignedTo p s.log

variable {F : Footprint} {s t u : Service}

theorem Touches.refl (F : Footprint) (s : Service) : Touches F s s where
  triggers _ _ := rfl
  evolves _ := .refl F.path _
  actions _ _ := rfl
  blank _ := rfl
  animators _ := .inl rfl
  datapoints _ _ _ := rfl
  kinds _ _ := rfl
  fresh := Nat.le_refl _
  silent _ hr hr' := absurd hr' (Nat.not_lt_of_le hr)
  pending _ _ := rfl
  mocked := rfl
  subscriptions := rfl
  registry := .refl _
  broker _ _ := rfl
  assigned _ _ := rfl

theorem Touches.trans (h : Touches F s t) (h' : Touches F t u) : Touches F s u where
  triggers r hr := (h'.triggers r hr).trans (h.triggers r hr)
  evolves r := (h.evolves r).trans (h'.evolves r)
  actions r hr := (h'.actions r hr).trans (h.actions r hr)
  blank r := (h'.blank r).trans (h.blank r)
  animators r := by
    rcases h'.animators r with heq | hnew
    · rcases h.animators r with heq' | ⟨a, ha, hr, hf⟩
      · exact .inl (heq.trans heq')
      · exact .inr ⟨a, heq ▸ ha, hr, Nat.lt_of_lt_of_le hf h'.fresh⟩
    · exact .inr hnew
  datapoints r hr hf :=
    (h'.datapoints r hr (Nat.lt_of_lt_of_le hf h.fresh)).trans (h.datapoints r hr hf)
  kinds r hf := (h'.kinds r (Nat.lt_of_lt_of_le hf h.fresh)).trans (h.kinds r hf)
  fresh := Nat.le_trans h.fresh h'.fresh
  silent r hr hr' := by
    by_cases ht : r < t.fresh
    · rw [← h.silent r hr ht]
      exact congrArg (fun k => k.2.2) (h'.kinds r ht)
    · exact h'.silent r (Nat.le_of_not_lt ht) hr'
  pending k hk := (h'.pending k hk).trans (h.pending k hk)
  mocked := h'.mocked.trans h.mocked
  subscriptions := h'.subscriptions.trans h.subscriptions
  registry := h.registry.trans h'.registry
  broker p hp := (h'.broker p hp).trans (h.broker p hp)
  assigned p hp := (h'.assigned p hp).trans (h.assigned p hp)

-- ---------------------------------------------------------------------------
-- Single actions
-- ---------------------------------------------------------------------------

theorem touches_require (path : Path) : Touches F s (s.require path) :=
  { Touches.refl F s with registry := reads_require _ _ }

theorem touches_evaluate (script : Script) (b : Behavior) (context : ExecutionContext) :
    Touches F s (evaluateCondition script b context s).2 :=
  { Touches.refl F s with registry := reads_requireAll _ _ }

theorem touches_record (d : Deed) (h : ∀ p, p ∉ F.paths → d.assignedTo? p = none) :
    Touches F s (s.record d) :=
  { Touches.refl F s with assigned := fun p hp => assignedTo_record p s d (h p hp) }

theorem filter_erase_of_not {k : Event → Bool} (h : k e = false) (l : List Event) :
    (l.erase e).filter k = l.filter k := by
  rw [← List.erase_filter]
  exact List.erase_of_not_mem (by simp [h])

theorem filter_removeLastMatch {k : Event → Bool} (pending : List Event)
    (h : ∀ e, k e = true → e.key ≠ (name, path)) :
    (removeLastMatch name path pending).filter k = pending.filter k := by
  unfold removeLastMatch
  cases hl : lastMatch name path pending with
  | none => rfl
  | some e =>
    obtain ⟨rfl, rfl⟩ := lastMatch_isFor hl
    refine filter_erase_of_not (Bool.eq_false_iff.mpr fun hk => ?_) pending
    exact h e hk rfl

theorem touches_pending (hk : (name, path) ∈ F.events) :
    Touches F s { s with pending := removeLastMatch name path s.pending } := by
  refine { Touches.refl F s with pending := fun k hkey => ?_ }
  refine filter_removeLastMatch s.pending fun e he heq => hkey e he ?_
  rw [heq]
  exact hk

theorem touches_write (hp : path ∈ F.paths) : Touches F s (writeBroker path value s) := by
  refine Touches.trans (t := { s with broker := Function.update s.broker path (some value) }) ?_
    (touches_record _ fun _ _ => rfl)
  refine { Touches.refl F s with broker := fun p hne => ?_ }
  refine Function.update_of_ne ?_ _ _
  rintro rfl
  exact hne hp

theorem touches_discard (hk : (.value, path) ∈ F.events) : Touches F s (discardEvent path s) := by
  unfold discardEvent
  cases lastMatch .value path s.pending with
  | none => exact .refl F s
  | some e => exact (touches_pending hk).trans (touches_record _ fun _ _ => rfl)

theorem touches_trigger (hr : r ∈ F.triggers) (he : (s.heap.triggers r).Evolves F.path trigger) :
    Touches F s (s.setTrigger r trigger) := by
  refine { Touches.refl F s with triggers := fun r' hr' => ?_, evolves := fun r' => ?_ }
  · refine Function.update_of_ne ?_ _ _
    rintro rfl
    exact hr' hr
  · by_cases h : r' = r
    · subst h
      simpa [Service.setTrigger] using he
    · simpa [Service.setTrigger, h] using Trigger.Evolves.refl F.path (s.heap.triggers r')

theorem touches_action (hr : r ∈ F.actions) (hb : action.blank = (s.heap.actions r).blank)
    (ha : ∃ a, action.animator? = some a ∧ a.datapoint ∈ F.datapoints ∧ a.datapoint < s.fresh) :
    Touches F s (s.setAction r action) := by
  have hset : ∀ r', r' ≠ r → (s.setAction r action).heap.actions r' = s.heap.actions r' := by
    intro r' h
    exact Function.update_of_ne h _ _
  refine { Touches.refl F s with
    actions := fun r' hr' => hset r' fun heq => hr' (heq ▸ hr)
    blank := fun r' => ?_
    animators := fun r' => ?_ }
  · by_cases h : r' = r
    · subst h
      simpa [Service.setAction] using hb
    · rw [hset r' h]
  · by_cases h : r' = r
    · subst h
      exact .inr (by simpa [Service.setAction] using ha)
    · exact .inl (hset r' h)

-- ---------------------------------------------------------------------------
-- Assigning a value
-- ---------------------------------------------------------------------------

/-- The datapoint at `r` may change, and its path may be written if the
service listens to it. -/
structure Owns (F : Footprint) (r : Ref) (s : Service) : Prop where
  datapoint : r ∈ F.datapoints
  allocated : r < s.fresh
  written : (s.datapoints r).hasListener = true →
    (s.datapoints r).path ∈ F.paths ∧ (.value, (s.datapoints r).path) ∈ F.events

theorem Touches.path (h : Touches F s t) (hr : r < s.fresh) :
    (t.datapoints r).path = (s.datapoints r).path := congrArg Prod.fst (h.kinds r hr)

theorem Touches.hasListener (h : Touches F s t) (hr : r < s.fresh) :
    (t.datapoints r).hasListener = (s.datapoints r).hasListener :=
  congrArg (fun k => k.2.2) (h.kinds r hr)

theorem Owns.touched (h : Owns F r s) (ht : Touches F s t) : Owns F r t := by
  refine ⟨h.datapoint, Nat.lt_of_lt_of_le h.allocated ht.fresh, fun hl => ?_⟩
  rw [ht.path h.allocated]
  rw [ht.hasListener h.allocated] at hl
  exact h.written hl

theorem touches_datapoint (hr : r ∈ F.datapoints) (value : Value) :
    Touches F s { s with
      datapoints := Function.update s.datapoints r { s.datapoints r with value := value } } := by
  refine { Touches.refl F s with
    datapoints := fun r' hr' _ => ?_
    kinds := fun r' _ => ?_
    silent := fun r' hr' hlt => absurd hlt (Nat.not_lt_of_le hr') }
  · refine Function.update_of_ne ?_ _ _
    rintro rfl
    exact hr' hr
  · by_cases h : r' = r
    · subst h
      simp [DataPoint.kind]
    · simp [h]

theorem touches_assign (h : Owns F r s) (value : Value) : Touches F s (assignValue r value s).2 := by
  have hrecord : Touches F s
      (s.record (.assigned (s.datapoints r).path (s.datapoints r).hasListener value)) := by
    refine touches_record _ fun p hp => ?_
    cases hl : (s.datapoints r).hasListener with
    | false => rfl
    | true =>
      have hne : (s.datapoints r).path ≠ p := fun heq => hp (heq ▸ (h.written hl).1)
      simp [Deed.assignedTo?, hne]
  unfold assignValue
  dsimp only
  split
  · exact hrecord.trans (touches_datapoint h.datapoint value)
  · exact hrecord

theorem assignValue_heard (h : (assignValue r value s).1 = true) :
    (s.datapoints r).hasListener = true := by
  unfold assignValue at h
  dsimp only at h
  split at h
  · exact h
  · exact absurd h Bool.false_ne_true

theorem exec_setDatapoint (path : Path) (value : Value) (s : Service) :
    (setDatapoint path value).exec s = (some (), discardEvent path (writeBroker path value s)) := by
  simp [setDatapoint]

def Service.assign (s : Service) (r : Ref) (value : Value) : Service :=
  { s.record (.assigned (s.datapoints r).path true value) with
    datapoints := Function.update s.datapoints r { s.datapoints r with value := value } }

theorem exec_setValue_same (hl : (s.datapoints r).hasListener = true)
    (hv : (s.datapoints r).value = value) :
    (setValue r value).exec s = (some (), s.record (.assigned (s.datapoints r).path true value)) := by
  simp [setValue, assignValue, hv, hl]

theorem exec_setValue_other (hl : (s.datapoints r).hasListener = true)
    (hv : (s.datapoints r).value ≠ value) :
    (setValue r value).exec s = (some (), discardEvent (s.datapoints r).path
      (writeBroker (s.datapoints r).path value (s.assign r value))) := by
  simp [setValue, assignValue, hv, hl, exec_setDatapoint, Service.assign, Service.record]

theorem touches_setDatapoint (hp : path ∈ F.paths) (hk : (.value, path) ∈ F.events) :
    Touches F s ((setDatapoint path value).exec s).2 := by
  simpa [setDatapoint] using (touches_write hp).trans (touches_discard hk)

theorem touches_setValue (h : Owns F r s) (value : Value) :
    Touches F s ((setValue r value).exec s).2 := by
  have hassign := touches_assign h value
  simp only [setValue, Raise.exec_bind, Raise.exec_atomic, Option.elim_some]
  split
  · rename_i hheard
    obtain ⟨hp, hk⟩ := (h.touched hassign).written
      ((hassign.hasListener h.allocated).trans (assignValue_heard hheard))
    simpa using hassign.trans (touches_setDatapoint hp hk)
  · exact hassign

-- ---------------------------------------------------------------------------
-- Actions
-- ---------------------------------------------------------------------------

def Footprint.frame (F : Footprint) (on : Service → Prop)
    (keeps : ∀ {s t}, on s → Touches F s t → on t) : Frame Service :=
  ⟨on, Touches F, Touches.refl F, Touches.trans, keeps⟩

theorem touches_set (h : Owns F r s) (a : SetAction) (trigger : TriggerResult) (path : Path) :
    Touches F s ((a.execute trigger r path).exec s).2 := by
  have hwithin : Raise.Within (F.frame (Owns F r) Owns.touched) (a.execute trigger r path) :=
    a.execute_within (fun _ _ _ => touches_require _) (fun value _ hs => touches_setValue hs value) trigger path
  exact hwithin s h

/-- The action at `action` may change and play on the datapoint at `r`; it is
`a` but for its animator. -/
structure Animates (F : Footprint) (action : Ref) (a : AnimationAction) (r : Ref) (s : Service) :
    Prop where
  mem : action ∈ F.actions
  blank : (s.heap.actions action).blank = (Action.animation a).blank
  datapoint : r ∈ F.datapoints
  allocated : r < s.fresh

theorem Animates.touched (h : Animates F action a r s) (ht : Touches F s t) :
    Animates F action a r t :=
  ⟨h.mem, (ht.blank action).trans h.blank, h.datapoint, Nat.lt_of_lt_of_le h.allocated ht.fresh⟩

theorem new?_datapoint {interp1d : Interp1d} {animator : ValueAnimator}
    (h : ValueAnimator.new? interp1d values duration repeatMode r = some animator) :
    animator.datapoint = r := by
  simp only [ValueAnimator.new?, Option.bind_eq_some_iff, Option.map_eq_some_iff] at h
  obtain ⟨_, _, _, _, rfl⟩ := h
  rfl

variable {script : Script}

theorem touches_animation (h : Animates F action a r s) (trigger : TriggerResult) (path : Path) :
    Touches F s ((a.execute script action trigger r path).exec s).2 := by
  have hwithin : Raise.Within (F.frame (Animates F action a r) Animates.touched)
      (a.execute script action trigger r path) := by
    refine AnimationAction.execute_within (fun _ _ _ => touches_require _) ?_ trigger path
    intro s values animator hs hnew
    exact touches_action hs.mem hs.blank.symm
      ⟨animator, rfl, new?_datapoint hnew ▸ hs.datapoint, new?_datapoint hnew ▸ hs.allocated⟩
  exact hwithin s h

theorem touches_executeAction (h : Owns F r s) (hb : b.action ∈ F.actions) (trigger : TriggerResult)
    (path : Path) : Touches F s ((executeAction script b trigger r path).exec s).2 := by
  simp only [executeAction, Raise.exec_bind, Raise.exec_peek, Option.elim_some]
  cases ha : s.heap.actions b.action with
  | set a => exact touches_set h a trigger path
  | animation a => exact touches_animation ⟨hb, by rw [ha], h.datapoint, h.allocated⟩ trigger path

-- ---------------------------------------------------------------------------
-- Visits
-- ---------------------------------------------------------------------------

structure Serves (F : Footprint) (b : Behavior) (s : Service) : Prop where
  trigger : b.trigger ∈ F.triggers
  action : b.action ∈ F.actions
  listens : ∀ t, s.heap.triggers b.trigger = .event t → (t.eventType, t.bound F.path) ∈ F.events

theorem Touches.event_of (h : Touches F s t) (ht : t.heap.triggers r = .event e) :
    ∃ e₀, s.heap.triggers r = .event e₀ ∧ e.eventType = e₀.eventType ∧
      e.bound F.path = e₀.bound F.path := by
  have hevolves := h.evolves r
  rw [ht] at hevolves
  cases hs : s.heap.triggers r with
  | clock c =>
    rw [hs] at hevolves
    exact hevolves.elim
  | event e₀ =>
    rw [hs] at hevolves
    rcases hevolves with rfl | rfl
    · exact ⟨e, rfl, rfl, rfl⟩
    · exact ⟨e₀, rfl, rfl, rfl⟩

theorem Serves.touched (h : Serves F b s) (ht : Touches F s t) : Serves F b t := by
  refine ⟨h.trigger, h.action, fun e he => ?_⟩
  obtain ⟨e₀, hs, htype, hbound⟩ := ht.event_of he
  rw [htype, hbound]
  exact h.listens e₀ hs

theorem check_evolves (path : Path) (deltaTime : ℚ) (pending : List Event) (trigger : Trigger) :
    trigger.Evolves path (trigger.check path deltaTime pending).2.1 := by
  cases trigger with
  | event t => exact .inr rfl
  | clock t =>
    simp only [Trigger.check, Trigger.Evolves, ClockTrigger.check]
    split_ifs <;> exact ⟨rfl, rfl⟩

theorem touches_check (h : Serves F b s) (deltaTime : ℚ) :
    Touches F s (checkTriggerOf b F.path deltaTime s).2 := by
  have htrigger : Touches F s (s.setTrigger b.trigger
      ((s.heap.triggers b.trigger).check F.path deltaTime s.pending).2.1) :=
    touches_trigger h.trigger (check_evolves F.path deltaTime s.pending _)
  unfold checkTriggerOf
  cases hs : s.heap.triggers b.trigger with
  | clock t =>
    rw [hs] at htrigger
    exact htrigger
  | event t =>
    rw [hs] at htrigger
    have hboth := htrigger.trans (touches_pending (h.listens t hs))
    simp only [Trigger.check, EventTrigger.check]
    cases lastMatch t.eventType (t.bound F.path) s.pending with
    | none => exact hboth
    | some e => exact hboth.trans (touches_record _ fun _ _ => rfl)

def Element (F : Footprint) (r : Ref) (bs : List Behavior) (s : Service) : Prop :=
  Owns F r s ∧ ∀ b ∈ bs, Serves F b s

theorem Element.touched (h : Element F r bs s) (ht : Touches F s t) : Element F r bs t :=
  ⟨h.1.touched ht, fun b hb => (h.2 b hb).touched ht⟩

def Footprint.elementFrame (F : Footprint) (r : Ref) (bs : List Behavior) : Frame Service :=
  F.frame (Element F r bs) Element.touched

theorem within_visit (hb : b ∈ bs) (deltaTime : ℚ) :
    Raise.Within (F.elementFrame r bs) (visitBehavior script F.path r deltaTime b) := by
  refine visitBehavior_within (fun s context _ => touches_evaluate script b context)
    (fun s hs => touches_check (hs.2 b hb) deltaTime) (fun s _ => touches_record _ fun _ _ => rfl) ?_
  intro result s hs
  exact touches_executeAction hs.1 (hs.2 b hb).action result F.path

theorem touches_executeElement {m : MockedDataPoint} (h : Element F m.datapoint m.behaviors s)
    (deltaTime : ℚ) : Touches F s ((executeElement script deltaTime (F.path, m)).exec s).2 := by
  have hwithin : Raise.Within (F.elementFrame m.datapoint m.behaviors)
      (executeElement script deltaTime (F.path, m)) :=
    .forUntil fun b hb => within_visit hb deltaTime
  exact hwithin s h

-- ---------------------------------------------------------------------------
-- Animations
-- ---------------------------------------------------------------------------

def Service.setAnimator (s : Service) (action : Ref) (a : AnimationAction) (animator : ValueAnimator) :
    Service := s.setAction action (.animation { a with animator := some animator })

theorem animateBehavior_cases (script : Script) (deltaTime : ℚ) (b : Behavior) (s : Service) :
    ((∀ a, (s.heap.actions b.action).animator? = some a → a.done = true) ∧
      ((animateBehavior script deltaTime b).exec s).2 = s) ∨
    ∃ a animator, s.heap.actions b.action = .animation a ∧ a.animator = some animator ∧
      animator.done = false ∧ (animateBehavior script deltaTime b).exec s =
        (setValue animator.datapoint (animator.tick script.interp1d deltaTime).value).exec
          (s.setAnimator b.action a (animator.tick script.interp1d deltaTime)) := by
  simp only [animateBehavior, Raise.exec_bind, Raise.exec_peek, Option.elim_some]
  cases s.heap.actions b.action with
  | set a => exact .inl ⟨by simp [Action.animator?], rfl⟩
  | animation a =>
    obtain ⟨duration, repeatMode, values, dynamic, animator⟩ := a
    cases animator with
    | none => exact .inl ⟨by simp [Action.animator?], rfl⟩
    | some animator =>
      cases hdone : animator.done with
      | true => exact .inl ⟨by simp [Action.animator?, hdone], by simp [hdone]⟩
      | false =>
        refine .inr ⟨_, animator, rfl, rfl, hdone, ?_⟩
        simp [hdone, Service.setAnimator, ValueAnimator.tick]

structure Plays (F : Footprint) (b : Behavior) (s : Service) : Prop where
  action : b.action ∈ F.actions
  owns : ∀ a, (s.heap.actions b.action).animator? = some a → a.done = false → Owns F a.datapoint s

theorem touches_animateBehavior (h : Plays F b s) (deltaTime : ℚ) :
    Touches F s ((animateBehavior script deltaTime b).exec s).2 := by
  rcases animateBehavior_cases script deltaTime b s with ⟨-, hsame⟩ | ⟨a, animator, ha, hsome, hdone, hexec⟩
  · rw [hsame]
    exact .refl F s
  · have howns := h.owns animator (by simpa [ha, Action.animator?] using hsome) hdone
    have hset : Touches F s
        (s.setAnimator b.action a (animator.tick script.interp1d deltaTime)) :=
      touches_action h.action (by simp [ha, Action.blank]) ⟨_, rfl, howns.datapoint, howns.allocated⟩
    rw [hexec]
    exact hset.trans (touches_setValue (howns.touched hset) _)

end KuksaServices.Mock
