import KuksaServices.Atomic.Unrolls
import KuksaServices.Mock.Isolation

/-!
# Turns of the main loop, behavior by behavior

A finer view of the main loop: one behavior is visited by the executor or has
its animation played, and events, edits and external writes may come before
the next one. Every run of the main loop is a run of these steps
(`run_of_loop`). What a visit and an animation keep is told by what their
single actions keep (`Carried`).
-/

namespace KuksaServices.Mock

open Atomic (Raise)

inductive TurnInput where
  | edit (e : Edit)
  | check
  /-- The executor comes to a behavior of a mocked datapoint. -/
  | visit (element : Path × MockedDataPoint) (b : Behavior) (deltaTime : ℚ)
  /-- The animation pass comes to it. -/
  | play (element : Path × MockedDataPoint) (b : Behavior) (deltaTime : ℚ)
  | receive (name : EventType) (path : Path) (value : Value)
  | setExternally (path : Path) (value : Value)
  deriving DecidableEq, Repr

def TurnInput.program (script : Script) : TurnInput → Py Unit
  | .edit e => LoopInput.program script (.edit e)
  | .check => LoopInput.program script .check
  | .visit element b deltaTime => do
    let _ ← visitBehavior script element.1 element.2.datapoint deltaTime b
    pure ()
  | .play _ b deltaTime => animateBehavior script deltaTime b
  | .receive name path value => LoopInput.program script (.receive name path value)
  | .setExternally path value => LoopInput.program script (.setExternally path value)

/-- The behaviors are those of the mocks. -/
def TurnInput.enabled (s : Service) : TurnInput → Bool
  | .visit element b _ | .play element b _ => element ∈ s.mocked && b ∈ element.2.behaviors
  | _ => true

def turnStep (script : Script) (s : Running) (input : TurnInput) : Option Running :=
  if s.raised || !input.enabled s.service then none
  else
    let (result, t) := (input.program script).exec s.service
    some ⟨t, result.isNone⟩

variable {script : Script} {J : Service → Prop} {s t u : Service} {b : Behavior} {r action : Ref}
  {path : Path} {element : Path × MockedDataPoint}

theorem turnStep_some {s t : Running} (h : turnStep script s input = some t) :
    s.raised = false ∧ input.enabled s.service = true ∧
      t = ⟨((input.program script).exec s.service).2,
        ((input.program script).exec s.service).1.isNone⟩ := by
  unfold turnStep at h
  split at h
  · cases h
  · rename_i hnot
    simp only [Bool.or_eq_true, Bool.not_eq_true', not_or, Bool.not_eq_true, Bool.not_eq_false] at hnot
    exact ⟨hnot.1, hnot.2, (Option.some.inj h).symm⟩

theorem turnStep_of_enabled (script : Script) {input : TurnInput} (h : input.enabled s = true) :
    turnStep script ⟨s, false⟩ input =
      some ⟨((input.program script).exec s).2, ((input.program script).exec s).1.isNone⟩ := by
  simp [turnStep, h]

-- ---------------------------------------------------------------------------
-- What the actions keep
-- ---------------------------------------------------------------------------

/-- Kept by what the execution of an action on the datapoint at `r` does. -/
structure Carried (J : Service → Prop) (r action : Ref) : Prop where
  require : ∀ s path, J s → J (s.require path)
  animator : ∀ s a animator, J s → animator.datapoint = r → animator.done = false →
    J (s.setAnimator action a animator)
  setValue : ∀ s value, J s → J ((setValue r value).exec s).2

structure Prepared (J : Service → Prop) : Prop where
  requireAll : ∀ s paths, J s → J { s with registry := s.registry.requireAll paths }
  check : ∀ s b path deltaTime, J s → J (checkTriggerOf b path deltaTime s).2

def Keeping (J : Service → Prop) : Atomic.Frame Service where
  on := J
  does s t := J s → J t
  refl _ h := h
  trans h h' hj := h' (h hj)
  keeps hs h := h hs

theorem new?_done {interp1d : Interp1d} {animator : ValueAnimator}
    (h : ValueAnimator.new? interp1d values duration repeatMode r = some animator) :
    animator.done = false := by
  obtain ⟨_, -, h⟩ := Option.bind_eq_some_iff.mp h
  obtain ⟨_, -, rfl⟩ := Option.map_eq_some_iff.mp h
  rfl

theorem executeAction_carried (hc : Carried J r b.action) (trigger : TriggerResult) (path : Path)
    (hs : J s) : J ((executeAction script b trigger r path).exec s).2 := by
  have hset : ∀ value, Raise.Within (Keeping J) (setValue r value) :=
    fun value s hs _ => hc.setValue s value hs
  have hwithin : Raise.Within (Keeping J) (executeAction script b trigger r path) := by
    refine executeAction_within (fun s path hs _ => hc.require s path hs) hset ?_ trigger path
    intro s a values animator hs hnew _
    exact hc.animator s a animator hs (new?_datapoint hnew) (new?_done hnew)
  exact hwithin s hs hs

def fires (script : Script) (path : Path) (deltaTime : ℚ) (b : Behavior) (s : Service) : Bool :=
  let (fulfilled, s) := evaluateCondition script b ⟨path, s.pending, deltaTime, s.broker⟩ s
  fulfilled && (checkTriggerOf b path deltaTime s).1.isActive

/-- A visit looks at the condition and the trigger and executes a behavior
that fires. -/
theorem visit_cases (script : Script) (path : Path) (r : Ref) (deltaTime : ℚ) (b : Behavior)
    (hc : Prepared J) (hs : J s) : ∃ u, J u ∧
      (fires script path deltaTime b s = false ∧
          ((visitBehavior script path r deltaTime b).exec s).2 = u ∨
        fires script path deltaTime b s = true ∧
          ∃ result, ((visitBehavior script path r deltaTime b).exec s).2 =
            ((executeAction script b result r path).exec (u.record (.executed path b))).2) := by
  obtain ⟨fulfilled, v, heq⟩ : ∃ fulfilled v,
      evaluateCondition script b ⟨path, s.pending, deltaTime, s.broker⟩ s = (fulfilled, v) := ⟨_, _, rfl⟩
  have hv : J v := by
    obtain rfl := congrArg Prod.snd heq
    exact hc.requireAll s _ hs
  have heval : (isConditionFulfilled script b path deltaTime).exec s = (some fulfilled, v) := by
    simp [isConditionFulfilled, heq]
  obtain ⟨result, u, hcheck⟩ : ∃ result u, checkTriggerOf b path deltaTime v = (result, u) := ⟨_, _, rfl⟩
  have hu : J u := by
    have hchecked := hc.check v b path deltaTime hv
    rwa [hcheck] at hchecked
  have hexec : (checkTrigger b path deltaTime).exec v = (some result, u) := by
    simp [checkTrigger, hcheck]
  cases fulfilled with
  | false => exact ⟨v, hv, .inl ⟨by simp [fires, heq], by simp [visitBehavior, heval]⟩⟩
  | true =>
    cases hactive : result.isActive with
    | false =>
      exact ⟨u, hu, .inl ⟨by simp [fires, heq, hcheck, hactive],
        by simp [visitBehavior, heval, hexec, hactive]⟩⟩
    | true =>
      refine ⟨u, hu, .inr ⟨by simp [fires, heq, hcheck, hactive], result, ?_⟩⟩
      simp only [visitBehavior, runBehavior, Raise.exec_bind, heval, hexec, hactive, Raise.exec_atomic,
        Option.elim_some, if_true]
      rcases (executeAction script b result r path).exec _ with ⟨_ | _, t⟩ <;> rfl

theorem visit_keeps (script : Script) (path : Path) (r : Ref) (deltaTime : ℚ) (b : Behavior)
    (hc : Prepared J) (hrecord : ∀ s, J s → J (s.record (.executed path b)))
    (hcarried : Carried J r b.action) (hs : J s) :
    J ((visitBehavior script path r deltaTime b).exec s).2 := by
  obtain ⟨u, hu, ⟨-, h⟩ | ⟨-, result, h⟩⟩ := visit_cases script path r deltaTime b hc hs
  · rw [h]
    exact hu
  · rw [h]
    exact executeAction_carried hcarried result path (hrecord u hu)

theorem play_keeps (script : Script) (deltaTime : ℚ) (b : Behavior)
    (h : ∀ a animator, s.heap.actions b.action = .animation a → a.animator = some animator →
      animator.done = false →
      J ((setValue animator.datapoint (animator.tick script.interp1d deltaTime).value).exec
        (s.setAnimator b.action a (animator.tick script.interp1d deltaTime))).2) (hs : J s) :
    J ((animateBehavior script deltaTime b).exec s).2 := by
  rcases animateBehavior_cases script deltaTime b s with ⟨-, hsame⟩ | ⟨a, animator, ha, hsome, hdone, hexec⟩
  · rw [hsame]
    exact hs
  · rw [hexec]
    exact h a animator ha hsome hdone

theorem exec_visit (element : Path × MockedDataPoint) (b : Behavior) (deltaTime : ℚ) :
    (TurnInput.program script (.visit element b deltaTime)).exec s =
      (((visitBehavior script element.1 element.2.datapoint deltaTime b).exec s).1.map fun _ => (),
        ((visitBehavior script element.1 element.2.datapoint deltaTime b).exec s).2) := by
  simp only [TurnInput.program, Raise.exec_bind, Raise.exec_pure]
  cases ((visitBehavior script element.1 element.2.datapoint deltaTime b).exec s).1 <;> rfl

-- ---------------------------------------------------------------------------
-- What a step can do
-- ---------------------------------------------------------------------------

def TurnInput.ofLoop : TurnInput → Bool
  | .check | .visit .. | .play .. => true
  | _ => false

/-- The ways from a service to where a step ends. The other threads change
the registry, the events and the values at the broker. -/
inductive Turned (script : Script) (s : Service) : TurnInput → Running → Prop
  | unchanged (hc : isChanged s = false) : Turned script s .check ⟨s, false⟩
  | loaded {t : Service} (hc : isChanged s = true) (h : (reload script).exec s = (some (), t)) :
    Turned script s .check ⟨t, false⟩
  | raised {t : Service} (hc : isChanged s = true) (h : (reload script).exec s = (none, t)) :
    Turned script s .check ⟨t, true⟩
  | visit {element : Path × MockedDataPoint} {b : Behavior} (deltaTime : ℚ) (raised : Bool)
    (he : element ∈ s.mocked) (hb : b ∈ element.2.behaviors) :
    Turned script s (.visit element b deltaTime)
      ⟨((visitBehavior script element.1 element.2.datapoint deltaTime b).exec s).2, raised⟩
  | play {element : Path × MockedDataPoint} {b : Behavior} (deltaTime : ℚ) (raised : Bool)
    (he : element ∈ s.mocked) (hb : b ∈ element.2.behaviors) :
    Turned script s (.play element b deltaTime) ⟨((animateBehavior script deltaTime b).exec s).2, raised⟩
  | outside {input : TurnInput} {registry : Registry} (pending : List Event)
    (broker : Path → Option Value) (hl : input.ofLoop = false)
    (hd : s.registry.Distinct → registry.Distinct) :
    Turned script s input
      ⟨{ s with registry := registry, pending := pending, broker := broker }, false⟩

theorem turned_of_step {s t : Running} (h : turnStep script s input = some t) :
    Turned script s.service input t := by
  obtain ⟨-, henabled, rfl⟩ := turnStep_some h
  cases input with
  | edit e => exact .outside s.service.pending s.service.broker rfl fun hd => hd.edit _ e
  | check =>
    cases hc : isChanged s.service with
    | false =>
      have hexec : (TurnInput.program script .check).exec s.service = (some (), s.service) :=
        exec_check_unchanged hc
      rw [hexec]
      exact .unchanged hc
    | true =>
      have hexec : (TurnInput.program script .check).exec s.service = (reload script).exec s.service :=
        exec_check_changed hc
      rw [hexec]
      rcases hreload : (reload script).exec s.service with ⟨_ | _, u⟩
      · exact .raised hc hreload
      · exact .loaded hc hreload
  | visit element b deltaTime =>
    simp only [TurnInput.enabled, Bool.and_eq_true, decide_eq_true_eq] at henabled
    rw [exec_visit]
    exact .visit deltaTime _ henabled.1 henabled.2
  | play element b deltaTime =>
    simp only [TurnInput.enabled, Bool.and_eq_true, decide_eq_true_eq] at henabled
    exact .play deltaTime _ henabled.1 henabled.2
  | receive name path value =>
    simp only [TurnInput.program, LoopInput.program, Raise.exec_atomic, receive]
    split
    · exact .outside _ s.service.broker rfl id
    · exact .outside s.service.pending s.service.broker rfl id
  | setExternally path value => exact .outside s.service.pending _ rfl id

-- ---------------------------------------------------------------------------
-- The mocks stay
-- ---------------------------------------------------------------------------

def OfMocks (J : Service → Prop) : Prop :=
  ∀ s t : Service, t.mocked = s.mocked → t.loads = s.loads → t.subscriptions = s.subscriptions →
    J s → J t

theorem check_mocks (b : Behavior) (path : Path) (deltaTime : ℚ) (s : Service) :
    (checkTriggerOf b path deltaTime s).2.mocked = s.mocked ∧
      (checkTriggerOf b path deltaTime s).2.loads = s.loads ∧
      (checkTriggerOf b path deltaTime s).2.subscriptions = s.subscriptions := by
  unfold checkTriggerOf
  dsimp only
  split <;> exact ⟨rfl, rfl, rfl⟩

theorem setDatapoint_frame (path : Path) (value : Value) (s : Service) :
    ∃ pending broker log, ((setDatapoint path value).exec s).2 =
      { s with pending := pending, broker := broker, log := log } := by
  rw [exec_setDatapoint]
  unfold discardEvent
  cases lastMatch .value path (writeBroker path value s).pending with
  | none => exact ⟨s.pending, _, _, rfl⟩
  | some e => exact ⟨_, _, _, rfl⟩

theorem setValue_frame (r : Ref) (value : Value) (s : Service) :
    ∃ datapoints pending broker log, ((setValue r value).exec s).2 =
      { s with datapoints := datapoints, pending := pending, broker := broker, log := log } := by
  have hassign : ∃ datapoints log, (assignValue r value s).2 =
      { s with datapoints := datapoints, log := log } := by
    unfold assignValue
    dsimp only
    split
    · exact ⟨_, _, rfl⟩
    · exact ⟨s.datapoints, _, rfl⟩
  obtain ⟨datapoints, log, hassign⟩ := hassign
  simp only [setValue, Raise.exec_bind, Raise.exec_atomic, Option.elim_some, Raise.exec_ite,
    Raise.exec_peek, Raise.exec_pure, hassign]
  split
  · obtain ⟨pending, broker, log', hwrite⟩ := setDatapoint_frame (datapoints r).path (datapoints r).value
      { s with datapoints := datapoints, log := log }
    exact ⟨datapoints, pending, broker, log', hwrite⟩
  · exact ⟨datapoints, s.pending, s.broker, log, rfl⟩

theorem setValue_mocks (r : Ref) (value : Value) (s : Service) :
    ((setValue r value).exec s).2.mocked = s.mocked ∧ ((setValue r value).exec s).2.loads = s.loads ∧
      ((setValue r value).exec s).2.subscriptions = s.subscriptions := by
  obtain ⟨_, _, _, _, h⟩ := setValue_frame r value s
  rw [h]
  exact ⟨rfl, rfl, rfl⟩

theorem OfMocks.prepared (hJ : OfMocks J) : Prepared J where
  requireAll s _ hs := hJ s _ rfl rfl rfl hs
  check s b path deltaTime hs := by
    obtain ⟨hmocked, hloads, hsubscriptions⟩ := check_mocks b path deltaTime s
    exact hJ s _ hmocked hloads hsubscriptions hs

theorem OfMocks.setValue (hJ : OfMocks J) (r : Ref) (value : Value) (hs : J s) :
    J ((setValue r value).exec s).2 := by
  obtain ⟨hmocked, hloads, hsubscriptions⟩ := setValue_mocks r value s
  exact hJ s _ hmocked hloads hsubscriptions hs

theorem OfMocks.carried (hJ : OfMocks J) : Carried J r action where
  require s _ hs := hJ s _ rfl rfl rfl hs
  animator s _ _ hs _ _ := hJ s _ rfl rfl rfl hs
  setValue _ value hs := hJ.setValue _ value hs

theorem OfMocks.visit (hJ : OfMocks J) (script : Script) (path : Path) (r : Ref) (deltaTime : ℚ)
    (b : Behavior) (hs : J s) : J ((visitBehavior script path r deltaTime b).exec s).2 :=
  visit_keeps script path r deltaTime b hJ.prepared (fun s hs => hJ s _ rfl rfl rfl hs) hJ.carried hs

theorem OfMocks.play (hJ : OfMocks J) (script : Script) (deltaTime : ℚ) (b : Behavior) (hs : J s) :
    J ((animateBehavior script deltaTime b).exec s).2 := by
  refine play_keeps script deltaTime b (fun a animator _ _ _ => hJ.setValue _ _ ?_) hs
  exact hJ s _ rfl rfl rfl hs

-- ---------------------------------------------------------------------------
-- The main loop in steps
-- ---------------------------------------------------------------------------

/-- The program is a run of steps that leaves the mocks `ms` in place. -/
def Stepwise (script : Script) (ms : List (Path × MockedDataPoint)) (p : Py α) : Prop :=
  ∀ s, s.mocked = ms → (p.exec s).2.mocked = ms ∧
    ∃ inputs, Atomic.run (turnStep script) ⟨s, false⟩ inputs = some ⟨(p.exec s).2, (p.exec s).1.isNone⟩

section
variable {ms : List (Path × MockedDataPoint)}

theorem Stepwise.forEach {xs : List β} {f : β → Py Unit} (h : ∀ x ∈ xs, Stepwise script ms (f x)) :
    Stepwise script ms (Raise.forEach xs f) :=
  Raise.Unrolls.forEach h

theorem Stepwise.forUntil {xs : List β} {f : β → Py Bool} (h : ∀ x ∈ xs, Stepwise script ms (f x)) :
    Stepwise script ms (Raise.forUntil xs f) :=
  Raise.Unrolls.forUntil h

theorem unrolls_visit {step : Running → TurnInput → Option Running} (he : element ∈ ms)
    (hb : b ∈ element.2.behaviors) (deltaTime : ℚ)
    (hstep : ∀ s, step s (.visit element b deltaTime) = turnStep script s (.visit element b deltaTime)) :
    Raise.Unrolls step Running.mk (fun s => s.mocked = ms)
      (visitBehavior script element.1 element.2.datapoint deltaTime b) := by
  refine .single ?_
  rintro s rfl
  have hmocks : OfMocks fun t => t.mocked = s.mocked := fun _ _ hm _ _ h => hm.trans h
  refine ⟨hmocks.visit script _ _ deltaTime b rfl, .visit element b deltaTime, ?_⟩
  rw [hstep, turnStep_of_enabled script (by simp [TurnInput.enabled, he, hb]), exec_visit, Option.isNone_map]

theorem stepwise_visit (he : element ∈ ms) (hb : b ∈ element.2.behaviors) (deltaTime : ℚ) :
    Stepwise script ms (visitBehavior script element.1 element.2.datapoint deltaTime b) :=
  unrolls_visit he hb deltaTime fun _ => rfl

theorem stepwise_play (he : element ∈ ms) (hb : b ∈ element.2.behaviors) (deltaTime : ℚ) :
    Stepwise script ms (animateBehavior script deltaTime b) := by
  rintro s rfl
  have hmocks : OfMocks fun t => t.mocked = s.mocked := fun _ _ hm _ _ h => hm.trans h
  refine ⟨hmocks.play script deltaTime b rfl, [.play element b deltaTime], ?_⟩
  rw [Atomic.run_cons (turnStep_of_enabled script (by simp [TurnInput.enabled, he, hb]))]
  rfl

theorem stepwise_round (f : ℚ → Path × MockedDataPoint → Py Unit) (deltaTime : ℚ)
    (h : ∀ element ∈ s.mocked, Stepwise script s.mocked (f deltaTime element)) :
    ∃ inputs, Atomic.run (turnStep script) ⟨s, false⟩ inputs =
      some ⟨((Raise.forEach s.mocked (f deltaTime)).exec s).2,
        ((Raise.forEach s.mocked (f deltaTime)).exec s).1.isNone⟩ :=
  (Stepwise.forEach h s rfl).2

end

theorem run_of_loopStep {s t : Running} {input : LoopInput} (h : loopStep script s input = some t) :
    ∃ inputs, Atomic.run (turnStep script) s inputs = some t := by
  obtain ⟨s, raised⟩ := s
  cases raised with
  | true => simp [loopStep] at h
  | false =>
    simp only [loopStep, Bool.false_eq_true, if_false, Option.some.injEq] at h
    subst h
    cases input with
    | edit e => exact ⟨[.edit e], rfl⟩
    | check => exact ⟨[.check], rfl⟩
    | receive name path value => exact ⟨[.receive name path value], rfl⟩
    | setExternally path value => exact ⟨[.setExternally path value], rfl⟩
    | execute deltaTime =>
      simp only [LoopInput.program, execute, Raise.exec_bind, Raise.exec_peek, Option.elim_some]
      refine stepwise_round (executeElement script) deltaTime fun element he => ?_
      exact .forUntil fun b hb => stepwise_visit he hb deltaTime
    | animate deltaTime =>
      simp only [LoopInput.program, animate, Raise.exec_bind, Raise.exec_peek, Option.elim_some]
      refine stepwise_round
        (fun deltaTime element => Raise.forEach element.2.behaviors (animateBehavior script deltaTime))
        deltaTime fun element he => ?_
      exact .forEach fun b hb => stepwise_play he hb deltaTime

/-- Every run of the main loop is a run of the steps. -/
theorem run_of_loop {s t : Running} (h : Atomic.run (loopStep script) s inputs = some t) :
    ∃ steps, Atomic.run (turnStep script) s steps = some t :=
  Atomic.run_of_steps (fun _ _ _ => run_of_loopStep) h

end KuksaServices.Mock
