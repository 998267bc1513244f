import KuksaServices.Atomic.Log
import KuksaServices.Mock.Turns

/-!
# Triggers without a path

An `EventTrigger` that was made without a path is to listen to the datapoint
whose behavior it belongs to. It takes its path from the first datapoint it is
checked for and keeps it in the trigger, which behaviors of several datapoints
may share. `OwnEvents` says that these triggers listen to their own
datapoints; it is kept in a run of visits exactly when no such trigger is
checked that another datapoint has too (`own_events_iff`). The rounds of
`execute` are such runs (`run_of_rounds`).
-/

namespace KuksaServices.Mock

open Atomic (Raise Linked Throughout Along)

variable {script : Script} {s t u : Service} {b : Behavior} {path : Path}

-- ---------------------------------------------------------------------------
-- Listening
-- ---------------------------------------------------------------------------

/-- Checked for a datapoint, the trigger is active for the events of that
path, and for no others. -/
def Trigger.ListensTo (type : EventType) (path : Path) (t : Trigger) : Prop :=
  ∀ deltaTime pending, (t.check path deltaTime pending).1 = .event (lastMatch type path pending)

def Trigger.PathlessFor (type : EventType) (t : Trigger) : Prop := t = .event ⟨type, none⟩

section
variable (made : Ref → Trigger)

/-- A behavior whose trigger was made without a path is executed right after an
event of its own datapoint was consumed. -/
def ForOwnEvent (before : Option Deed) : Deed → Prop
  | .executed path b => ∀ type, (made b.trigger).PathlessFor type →
    ∃ e, before = some (.consumed e) ∧ e.name = type ∧ e.path = path
  | _ => True

/-- Every behavior that is loaded with such a trigger can be activated by the
events of its own datapoint, and by no others. -/
def Listening (s : Service) : Prop :=
  ∀ element ∈ s.mocked, ∀ b ∈ element.2.behaviors, ∀ type, (made b.trigger).PathlessFor type →
    (s.heap.triggers b.trigger).ListensTo type element.1

/-- `made` has the triggers as they were made. -/
structure OwnEvents (s : Service) : Prop where
  executed : Linked (ForOwnEvent made) s.log
  listening : Listening made s

/-- A trigger that was made without a path has at most got one. -/
def Made (s : Service) : Prop :=
  ∀ r type, (made r).PathlessFor type → ∃ path, s.heap.triggers r = .event ⟨type, path⟩

/-- Where the trigger of the behavior was made without a path, no other
datapoint has it. -/
def Alone (s : Service) (path : Path) (b : Behavior) : Prop :=
  ∀ type, (made b.trigger).PathlessFor type →
    ∀ other ∈ s.mocked, ∀ c ∈ other.2.behaviors, c.trigger = b.trigger → other.1 = path

/-- A visit that comes to check such a trigger is to a datapoint that has it
alone. -/
def ChecksOwn (script : Script) (s : Running) : TurnInput → Prop
  | .visit element b deltaTime =>
    (script.condition b.condition ⟨element.1, s.service.pending, deltaTime, s.service.broker⟩).1 = true →
      Alone made s.service element.1 b
  | _ => True

end

def roundsStep (script : Script) (s : Running) : TurnInput → Option Running
  | .check => none
  | input => turnStep script s input

theorem listensTo_iff (type : EventType) (path : Path) (p : Option Path) :
    (Trigger.event ⟨type, p⟩).ListensTo type path ↔ p.getD path = path := by
  constructor
  · intro h
    have hmatch : lastMatch type path [⟨type, path, .none⟩] = some ⟨type, path, .none⟩ := by
      simp [lastMatch, Event.isFor]
    have hcheck := h 0 [⟨type, path, .none⟩]
    simp only [Trigger.check, EventTrigger.check, EventTrigger.bound, hmatch,
      TriggerResult.event.injEq] at hcheck
    exact (lastMatch_isFor hcheck).2.symm
  · intro h deltaTime pending
    simp only [Trigger.check, EventTrigger.check, EventTrigger.bound, h]

-- ---------------------------------------------------------------------------
-- What a step does to the triggers
-- ---------------------------------------------------------------------------

structure Quiet (s t : Service) : Prop where
  triggers : t.heap.triggers = s.heap.triggers
  mocked : t.mocked = s.mocked
  log : ∃ deeds, t.log = s.log ++ deeds ∧ ∀ d ∈ deeds, d.executed? = none

theorem Quiet.same (ht : t.heap.triggers = s.heap.triggers) (hm : t.mocked = s.mocked)
    (hl : t.log = s.log) : Quiet s t :=
  ⟨ht, hm, [], by rw [hl, List.append_nil], nofun⟩

theorem Quiet.one (ht : t.heap.triggers = s.heap.triggers) (hm : t.mocked = s.mocked)
    (hl : t.log = s.log ++ [d]) (hd : d.executed? = none) : Quiet s t := by
  refine ⟨ht, hm, [d], hl, fun d' hd' => ?_⟩
  rw [List.mem_singleton.mp hd', hd]

theorem Quiet.refl (s : Service) : Quiet s s := .same rfl rfl rfl

theorem Quiet.trans (h : Quiet s t) (h' : Quiet t u) : Quiet s u := by
  obtain ⟨deeds, hlog, hdeeds⟩ := h.log
  obtain ⟨deeds', hlog', hdeeds'⟩ := h'.log
  refine ⟨h'.triggers.trans h.triggers, h'.mocked.trans h.mocked, deeds ++ deeds', ?_, ?_⟩
  · rw [hlog', hlog, List.append_assoc]
  · intro d hd
    rcases List.mem_append.mp hd with hd | hd
    · exact hdeeds d hd
    · exact hdeeds' d hd

theorem quiet_setDatapoint (path : Path) (value : Value) (s : Service) :
    Quiet s ((setDatapoint path value).exec s).2 := by
  rw [exec_setDatapoint]
  have hwrite : Quiet s (writeBroker path value s) := .one rfl rfl rfl rfl
  unfold discardEvent
  cases lastMatch .value path (writeBroker path value s).pending with
  | none => exact hwrite
  | some e => exact hwrite.trans (.one rfl rfl rfl rfl)

theorem quiet_setValue (r : Ref) (value : Value) (s : Service) : Quiet s ((setValue r value).exec s).2 := by
  have hassign : Quiet s (assignValue r value s).2 := by
    unfold assignValue
    dsimp only
    split
    · exact .one rfl rfl rfl rfl
    · exact .one rfl rfl rfl rfl
  simp only [setValue, Raise.exec_bind, Raise.exec_atomic, Option.elim_some, Raise.exec_ite,
    Raise.exec_peek, Raise.exec_pure]
  split
  · exact hassign.trans (quiet_setDatapoint _ _ _)
  · exact hassign

theorem carried_quiet (s : Service) (r action : Ref) : Carried (Quiet s) r action where
  require _ _ h := h.trans (.same rfl rfl rfl)
  animator _ _ _ h _ _ := h.trans (.same rfl rfl rfl)
  setValue _ value h := h.trans (quiet_setValue r value _)

theorem quiet_executeAction (script : Script) (b : Behavior) (result : TriggerResult) (r : Ref)
    (path : Path) (s : Service) : Quiet s ((executeAction script b result r path).exec s).2 :=
  executeAction_carried (carried_quiet s r b.action) result path (.refl s)

theorem quiet_play (script : Script) (deltaTime : ℚ) (b : Behavior) (s : Service) :
    Quiet s ((animateBehavior script deltaTime b).exec s).2 := by
  refine play_keeps script deltaTime b (fun a animator _ _ _ => ?_) (.refl s)
  have hanimator : Quiet s (s.setAnimator b.action a (animator.tick script.interp1d deltaTime)) :=
    .same rfl rfl rfl
  exact hanimator.trans (quiet_setValue animator.datapoint _ _)

structure TriggerChecked (s : Service) (path : Path) (deltaTime : ℚ) (b : Behavior) (u : Service) :
    Prop where
  triggers : u.heap.triggers = Function.update s.heap.triggers b.trigger
    ((s.heap.triggers b.trigger).check path deltaTime s.pending).2.1
  mocked : u.mocked = s.mocked
  log : u.log = s.log ++ match ((s.heap.triggers b.trigger).check path deltaTime s.pending).1 with
    | .event (some e) => [.consumed e]
    | _ => []

theorem triggerChecked_of (s : Service) (path : Path) (deltaTime : ℚ) (b : Behavior) :
    TriggerChecked s path deltaTime b (checkTriggerOf b path deltaTime s).2 := by
  unfold checkTriggerOf
  rcases hcheck : (s.heap.triggers b.trigger).check path deltaTime s.pending with ⟨result, trigger, pending⟩
  rcases result with active | _ | e
  · exact ⟨by simp [hcheck, Service.setTrigger], rfl, by simp [hcheck, Service.setTrigger]⟩
  · exact ⟨by simp [hcheck, Service.setTrigger], rfl, by simp [hcheck, Service.setTrigger]⟩
  · exact ⟨by simp [hcheck, Service.setTrigger, Service.record], rfl,
      by simp [hcheck, Service.setTrigger, Service.record]⟩

theorem checkTriggerOf_result (s : Service) (path : Path) (deltaTime : ℚ) (b : Behavior) :
    (checkTriggerOf b path deltaTime s).1 =
      ((s.heap.triggers b.trigger).check path deltaTime s.pending).1 := by
  unfold checkTriggerOf
  rcases (s.heap.triggers b.trigger).check path deltaTime s.pending with ⟨_ | _ | _, trigger, pending⟩ <;> rfl

/-- What a visit comes to: nothing, a check, or an execution after the
check. -/
inductive Visited (script : Script) (s : Service) (path : Path) (deltaTime : ℚ) (b : Behavior) :
    Service → Prop
  | unfulfilled {t : Service}
    (h : (script.condition b.condition ⟨path, s.pending, deltaTime, s.broker⟩).1 = false)
    (ht : Quiet s t) : Visited script s path deltaTime b t
  | inactive {t : Service}
    (h : (script.condition b.condition ⟨path, s.pending, deltaTime, s.broker⟩).1 = true)
    (hr : ((s.heap.triggers b.trigger).check path deltaTime s.pending).1.isActive = false)
    (ht : TriggerChecked s path deltaTime b t) : Visited script s path deltaTime b t
  | executed {u t : Service}
    (h : (script.condition b.condition ⟨path, s.pending, deltaTime, s.broker⟩).1 = true)
    (hr : ((s.heap.triggers b.trigger).check path deltaTime s.pending).1.isActive = true)
    (hu : TriggerChecked s path deltaTime b u) (ht : Quiet (u.record (.executed path b)) t) :
    Visited script s path deltaTime b t

theorem visited_visitBehavior (script : Script) (path : Path) (r : Ref) (deltaTime : ℚ) (b : Behavior)
    (s : Service) : Visited script s path deltaTime b ((visitBehavior script path r deltaTime b).exec s).2 := by
  obtain ⟨fulfilled, v, heq⟩ : ∃ fulfilled v,
      evaluateCondition script b ⟨path, s.pending, deltaTime, s.broker⟩ s = (fulfilled, v) := ⟨_, _, rfl⟩
  have heval : (isConditionFulfilled script b path deltaTime).exec s = (some fulfilled, v) := by
    simp [isConditionFulfilled, heq]
  have hfulfilled : (script.condition b.condition ⟨path, s.pending, deltaTime, s.broker⟩).1 = fulfilled :=
    congrArg Prod.fst heq
  -- the condition changes the registry only, which a check does not look at
  obtain ⟨registry, rfl⟩ : ∃ registry, v = { s with registry := registry } :=
    ⟨_, (congrArg Prod.snd heq).symm⟩
  have hcheck : (checkTrigger b path deltaTime).exec { s with registry := registry } =
      (some (checkTriggerOf b path deltaTime { s with registry := registry }).1,
        (checkTriggerOf b path deltaTime { s with registry := registry }).2) := by
    simp [checkTrigger]
  have hchecked : TriggerChecked s path deltaTime b
      (checkTriggerOf b path deltaTime { s with registry := registry }).2 := by
    obtain ⟨htriggers, hmocked, hlog⟩ :=
      triggerChecked_of { s with registry := registry } path deltaTime b
    exact ⟨htriggers, hmocked, hlog⟩
  have hresult : (checkTriggerOf b path deltaTime { s with registry := registry }).1 =
      ((s.heap.triggers b.trigger).check path deltaTime s.pending).1 := checkTriggerOf_result ..
  rcases hchecking : checkTriggerOf b path deltaTime { s with registry := registry } with ⟨result, u⟩
  rw [hchecking] at hcheck hchecked hresult
  cases fulfilled with
  | false =>
    have hend : ((visitBehavior script path r deltaTime b).exec s).2 = { s with registry := registry } := by
      simp [visitBehavior, heval]
    rw [hend]
    exact .unfulfilled hfulfilled (.same rfl rfl rfl)
  | true =>
    cases hactive : result.isActive with
    | false =>
      have hend : ((visitBehavior script path r deltaTime b).exec s).2 = u := by
        simp [visitBehavior, heval, hcheck, hactive]
      rw [hend]
      exact .inactive hfulfilled (hresult ▸ hactive) hchecked
    | true =>
      have hend : ((visitBehavior script path r deltaTime b).exec s).2 =
          ((executeAction script b result r path).exec (u.record (.executed path b))).2 := by
        simp only [visitBehavior, runBehavior, Raise.exec_bind, heval, hcheck, hactive, Raise.exec_atomic,
          Option.elim_some, if_true]
        rcases (executeAction script b result r path).exec _ with ⟨_ | _, t⟩ <;> rfl
      rw [hend]
      exact .executed hfulfilled (hresult ▸ hactive) hchecked (quiet_executeAction ..)

-- ---------------------------------------------------------------------------
-- What a step does to what is listened to
-- ---------------------------------------------------------------------------

section
variable {made : Ref → Trigger} {deltaTime : ℚ}

theorem Quiet.keeps_made (h : Quiet s t) (hm : Made made s) : Made made t := by
  intro r type hr
  rw [h.triggers]
  exact hm r type hr

theorem Quiet.ownEvents (h : Quiet s t) (ho : OwnEvents made s) : OwnEvents made t := by
  constructor
  · obtain ⟨deeds, hlog, hdeeds⟩ := h.log
    rw [hlog]
    refine ho.executed.append fun d hd before => ?_
    have hnone := hdeeds d hd
    cases d with
    | executed path b => cases hnone
    | _ => trivial
  · intro element he b hb type htype
    rw [h.mocked] at he
    rw [h.triggers]
    exact ho.listening element he b hb type htype

theorem Listening.check (ho : Listening made s) (hm : Made made s) (he : element ∈ s.mocked)
    (hb : b ∈ element.2.behaviors) (htype : (made b.trigger).PathlessFor type) (pending : List Event) :
    (s.heap.triggers b.trigger).check element.1 deltaTime pending =
      (.event (lastMatch type element.1 pending), .event ⟨type, some element.1⟩,
        removeLastMatch type element.1 pending) := by
  have hlistens := ho element he b hb type htype
  obtain ⟨path, htrigger⟩ := hm b.trigger type htype
  rw [htrigger, listensTo_iff] at hlistens
  rw [htrigger]
  simp only [Trigger.check, EventTrigger.check, EventTrigger.bound, hlistens]

theorem TriggerChecked.keeps_made (hc : TriggerChecked s path deltaTime b u) (hm : Made made s) :
    Made made u := by
  intro r type hr
  rw [hc.triggers]
  by_cases heq : r = b.trigger
  · subst heq
    obtain ⟨path', htrigger⟩ := hm b.trigger type hr
    rw [htrigger, Function.update_self]
    exact ⟨_, rfl⟩
  · rw [Function.update_of_ne heq]
    exact hm r type hr

theorem TriggerChecked.listening_iff (hc : TriggerChecked s element.1 deltaTime b u) (hm : Made made s)
    (ho : Listening made s) (he : element ∈ s.mocked) (hb : b ∈ element.2.behaviors) :
    Listening made u ↔ Alone made s element.1 b := by
  have hbound : ∀ type, (made b.trigger).PathlessFor type →
      u.heap.triggers b.trigger = .event ⟨type, some element.1⟩ := by
    intro type htype
    rw [hc.triggers, Function.update_self, ho.check hm he hb htype]
  constructor
  · intro hlistening type htype other hother c hcmem heq
    rw [← hc.mocked] at hother
    have hlistens := hlistening other hother c hcmem type (heq ▸ htype)
    rw [heq, hbound type htype, listensTo_iff] at hlistens
    exact hlistens.symm
  · intro halone other hother c hcmem type htype
    rw [hc.mocked] at hother
    by_cases heq : c.trigger = b.trigger
    · rw [heq] at htype ⊢
      rw [hbound type htype, listensTo_iff, halone type htype other hother c hcmem heq]
      rfl
    · rw [hc.triggers, Function.update_of_ne heq]
      exact ho other hother c hcmem type htype

theorem TriggerChecked.log_linked (hc : TriggerChecked s path deltaTime b u)
    (hl : Linked (ForOwnEvent made) s.log) : Linked (ForOwnEvent made) u.log := by
  rw [hc.log]
  refine hl.append fun d hd before => ?_
  split at hd
  · rw [List.mem_singleton.mp hd]
    trivial
  · cases hd

theorem TriggerChecked.forOwnEvent (hc : TriggerChecked s element.1 deltaTime b u) (hm : Made made s)
    (ho : Listening made s) (he : element ∈ s.mocked) (hb : b ∈ element.2.behaviors)
    (hactive : ((s.heap.triggers b.trigger).check element.1 deltaTime s.pending).1.isActive = true) :
    ForOwnEvent made u.log.getLast? (.executed element.1 b) := by
  intro type htype
  have hlog := hc.log
  rw [ho.check hm he hb htype] at hlog hactive
  cases hmatch : lastMatch type element.1 s.pending with
  | none => simp [TriggerResult.isActive, hmatch] at hactive
  | some e =>
    obtain ⟨hname, hpath⟩ := lastMatch_isFor hmatch
    refine ⟨e, ?_, hname, hpath⟩
    simp [hlog, hmatch]

theorem Visited.keeps_made (hv : Visited script s path deltaTime b t) (hm : Made made s) : Made made t := by
  cases hv with
  | unfulfilled _ ht => exact ht.keeps_made hm
  | inactive _ _ ht => exact ht.keeps_made hm
  | executed _ _ hu ht => exact ht.keeps_made (hu.keeps_made hm)

theorem Visited.ownEvents_iff (hv : Visited script s element.1 deltaTime b t) (hm : Made made s)
    (ho : OwnEvents made s) (he : element ∈ s.mocked) (hb : b ∈ element.2.behaviors) :
    OwnEvents made t ↔
      ((script.condition b.condition ⟨element.1, s.pending, deltaTime, s.broker⟩).1 = true →
        Alone made s element.1 b) := by
  cases hv with
  | unfulfilled hf ht => simp [hf, ht.ownEvents ho]
  | inactive hf _ ht =>
    rw [imp_iff_right hf, ← ht.listening_iff hm ho.listening he hb]
    exact ⟨fun h => h.listening, fun h => ⟨ht.log_linked ho.executed, h⟩⟩
  | executed hf hactive hu ht =>
    have hiff := hu.listening_iff hm ho.listening he hb
    rw [imp_iff_right hf, ← hiff]
    constructor
    · intro h element he c hc type htype
      have hlistens := h.listening element (ht.mocked ▸ he) c hc type htype
      rwa [ht.triggers] at hlistens
    · intro h
      have hexecuted := hu.forOwnEvent hm ho.listening he hb hactive
      exact ht.ownEvents ⟨(hu.log_linked ho.executed).snoc hexecuted, h⟩

end

theorem quiet_outside (s : Service) (registry : Registry) (pending : List Event)
    (broker : Path → Option Value) :
    Quiet s { s with registry := registry, pending := pending, broker := broker } :=
  .same rfl rfl rfl

theorem roundsStep_cases {s t : Running} (h : roundsStep script s input = some t) :
    Quiet s.service t.service ∧ (∀ made, ChecksOwn made script s input) ∨
      ∃ element b deltaTime, input = .visit element b deltaTime ∧ element ∈ s.service.mocked ∧
        b ∈ element.2.behaviors ∧ Visited script s.service element.1 deltaTime b t.service := by
  have hturn : turnStep script s input = some t := by
    cases input with
    | check => cases h
    | _ => exact h
  obtain ⟨-, henabled, rfl⟩ := turnStep_some hturn
  cases input with
  | check => cases h
  | visit element b deltaTime =>
    simp only [TurnInput.enabled, Bool.and_eq_true, decide_eq_true_eq] at henabled
    refine .inr ⟨element, b, deltaTime, rfl, henabled.1, henabled.2, ?_⟩
    rw [exec_visit]
    exact visited_visitBehavior ..
  | play element b deltaTime =>
    exact .inl ⟨quiet_play .., fun _ => trivial⟩
  | edit e =>
    exact .inl ⟨quiet_outside .., fun _ => trivial⟩
  | receive name path value =>
    refine .inl ⟨?_, fun _ => trivial⟩
    simp only [TurnInput.program, LoopInput.program, Raise.exec_atomic, receive]
    split
    · exact quiet_outside ..
    · exact .refl _
  | setExternally path value =>
    exact .inl ⟨quiet_outside .., fun _ => trivial⟩

theorem made_step {made : Ref → Trigger} {s t : Running} (h : roundsStep script s input = some t)
    (hm : Made made s.service) : Made made t.service := by
  obtain ⟨hquiet, -⟩ | ⟨_, _, _, -, -, -, hvisited⟩ := roundsStep_cases h
  · exact hquiet.keeps_made hm
  · exact hvisited.keeps_made hm

theorem ownEvents_step_iff {made : Ref → Trigger} {s t : Running} (h : roundsStep script s input = some t)
    (hm : Made made s.service) (ho : OwnEvents made s.service) :
    OwnEvents made t.service ↔ ChecksOwn made script s input := by
  obtain ⟨hquiet, hchecks⟩ | ⟨element, b, deltaTime, rfl, he, hb, hvisited⟩ := roundsStep_cases h
  · exact iff_of_true (hquiet.ownEvents ho) (hchecks made)
  · exact hvisited.ownEvents_iff hm ho he hb

-- ---------------------------------------------------------------------------
-- Runs
-- ---------------------------------------------------------------------------

theorem made_start (s : Service) : Made s.heap.triggers s := fun _ _ h => ⟨none, h⟩

theorem ownEvents_start (s : Service) : OwnEvents s.heap.triggers { s with log := [] } := by
  refine ⟨.nil, fun element _ b _ type htype => ?_⟩
  have htrigger : s.heap.triggers b.trigger = .event ⟨type, none⟩ := htype
  simp only [htrigger, listensTo_iff, Option.getD_none]

/-- In every run of rounds, whatever comes between the visits. -/
theorem own_events_iff (script : Script) (s : Service) (inputs : List TurnInput) :
    Throughout (roundsStep script) (fun w => OwnEvents s.heap.triggers w.service)
        ⟨{ s with log := [] }, false⟩ inputs ↔
      Along (roundsStep script) (ChecksOwn s.heap.triggers script) ⟨{ s with log := [] }, false⟩ inputs := by
  refine Atomic.throughout_iff_along (I := fun w => Made s.heap.triggers w.service) ?_ ?_ ?_ ?_
  · intro w input w' hm hstep
    exact made_step hstep hm
  · intro w input w' hm ho hstep
    exact ownEvents_step_iff hstep hm ho
  · exact made_start s
  · exact ownEvents_start s

-- ---------------------------------------------------------------------------
-- Rounds of the executor
-- ---------------------------------------------------------------------------

theorem run_of_roundStep {s t : Running} (h : roundStep (execute script) s input = some t) :
    ∃ inputs, Atomic.run (roundsStep script) s inputs = some t := by
  obtain ⟨s, raised⟩ := s
  cases raised with
  | true => simp [roundStep] at h
  | false =>
    cases input with
    | round deltaTime =>
      obtain rfl := Option.some.inj h
      have hround : Raise.Unrolls (roundsStep script) Running.mk (fun t => t.mocked = s.mocked)
          (Raise.forEach s.mocked (executeElement script deltaTime)) :=
        .forEach fun element he => .forUntil fun b hb => unrolls_visit he hb deltaTime fun _ => rfl
      exact (hround s rfl).2
    | receive name path value => exact ⟨[.receive name path value], h⟩
    | setExternally path value => exact ⟨[.setExternally path value], h⟩

theorem run_of_rounds {s t : Running} (h : Atomic.run (roundStep (execute script)) s inputs = some t) :
    ∃ visits, Atomic.run (roundsStep script) s visits = some t :=
  Atomic.run_of_steps (fun _ _ _ => run_of_roundStep) h

-- ---------------------------------------------------------------------------
-- A trigger of two datapoints
-- ---------------------------------------------------------------------------

/-- "Lamp" and "Horn" have one behavior, whose trigger was made for target
values without a path. -/
def Service.horn : Service where
  heap := ⟨fun _ => .event ⟨.actuatorTarget, none⟩, fun _ => .set ⟨.text "$event.value", true⟩⟩
  datapoints r := ⟨if r = 0 then "Lamp" else "Horn", some .uint8, .number 0, true⟩
  fresh := 2
  registry := ⟨[⟨"Lamp", .number 0, 0⟩, ⟨"Horn", .number 0, 1⟩], fun _ => [⟨0, 0, 0⟩], []⟩
  mocked := [("Lamp", ⟨0, true, [⟨0, 0, 0⟩]⟩), ("Horn", ⟨1, true, [⟨0, 0, 0⟩]⟩)]
  pending := []
  registered := true
  loads := 1
  subscriptions := [["Lamp", "Horn"]]
  broker _ := none
  log := []

/-- Two requests for the lamp activate the horn too, and one for the horn
activates nothing. -/
theorem horn_listens_to_lamp :
    (Atomic.run (roundStep (execute .bench)) ⟨.horn, false⟩
        [.receive .actuatorTarget "Lamp" (.number 5), .receive .actuatorTarget "Lamp" (.number 6),
          .round 1]).map (fun s => executedOf s.service.log) = some [("Lamp", ⟨0, 0, 0⟩), ("Horn", ⟨0, 0, 0⟩)] ∧
      (Atomic.run (roundStep (execute .bench)) ⟨.horn, false⟩
        [.receive .actuatorTarget "Horn" (.number 5), .round 1, .round 1]).map
          (fun s => (executedOf s.service.log, s.service.pending)) =
        some ([], [⟨.actuatorTarget, "Horn", .number 5⟩]) ∧
      ¬Throughout (roundsStep .bench) (fun w => OwnEvents Service.horn.heap.triggers w.service)
        ⟨{ Service.horn with log := [] }, false⟩ [.visit ("Lamp", ⟨0, true, [⟨0, 0, 0⟩]⟩) ⟨0, 0, 0⟩ 1] := by
  refine ⟨by decide, by decide, fun h => ?_⟩
  obtain ⟨t, hrun, hmocked, htrigger⟩ : ∃ t, Atomic.run (roundsStep .bench)
      ⟨{ Service.horn with log := [] }, false⟩ [.visit ("Lamp", ⟨0, true, [⟨0, 0, 0⟩]⟩) ⟨0, 0, 0⟩ 1] = some t ∧
      t.service.mocked = Service.horn.mocked ∧
      t.service.heap.triggers 0 = .event ⟨.actuatorTarget, some "Lamp"⟩ := ⟨_, rfl, rfl, rfl⟩
  have hhorn : ("Horn", ⟨1, true, [⟨0, 0, 0⟩]⟩) ∈ t.service.mocked := by
    rw [hmocked]
    decide
  have hlistens := (h.last hrun).listening _ hhorn ⟨0, 0, 0⟩ (by decide) .actuatorTarget rfl
  rw [htrigger, listensTo_iff] at hlistens
  exact absurd hlistens (by decide)

end KuksaServices.Mock
