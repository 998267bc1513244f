import KuksaServices.Mock.Contracts

/-!
# Animations in the service

A behavior with an animation of mode ONCE fires, and from then on the
animation pass plays it, between the visits to other behaviors, events, edits
and writes of others. As long as its datapoint and its action are left alone,
the datapoint and the broker have the value of the animation at the time it
has been played, and the last of its values once this time reaches the
duration (`animation_arrives`). The values that the action refers to are those
of the event and at the broker when the behavior fires.
-/

namespace KuksaServices.Mock

open Atomic (Raise Along run)

def TriggerResult.event? : TriggerResult → Option Event
  | .clock _ => none
  | .event event? => event?

def firing (path : Path) (deltaTime : ℚ) (b : Behavior) (s : Service) : TriggerResult :=
  ((s.heap.triggers b.trigger).check path deltaTime s.pending).1

/-- What a value of an action is resolved to, if that does not raise. -/
def standsFor? (trigger : TriggerResult) (broker : Path → Option Value) (path : Path) (dynamic : Bool)
    (value : Value) : Option Value :=
  if dynamic then
    if value = .text "$event.value" then trigger.event?.map (·.value)
    else some ((pathRead path value).elim value fun q => (broker q).getD (.number 0))
  else some value

def TurnInput.playsOf (r : Ref) : TurnInput → Bool
  | .play _ b _ => b.action == r
  | _ => false

def TurnInput.playTime (r : Ref) : TurnInput → ℚ
  | .play _ b deltaTime => if b.action = r then deltaTime else 0
  | _ => 0

def playedTime (r : Ref) : List TurnInput → ℚ
  | [] => 0
  | input :: inputs => input.playTime r + playedTime r inputs

/-- No behavior of the path is executed nor the action anywhere else, no other
animation plays on the path, nothing is loaded, and nobody else writes the
path at the broker. -/
def LeftAlone (script : Script) (r : Ref) (p : Path) (s : Running) : TurnInput → Prop
  | .visit element b deltaTime =>
    fires script element.1 deltaTime b s.service = true → b.action ≠ r ∧ element.1 ≠ p
  | .play _ b deltaTime => if b.action = r then 0 ≤ deltaTime else ¬Playing s.service b.action p
  | .check => isChanged s.service = false
  | .setExternally path _ => path ≠ p
  | _ => True

instance Playing.decidable (s : Service) (r : Ref) (p : Path) : Decidable (Playing s r p) :=
  inferInstanceAs (Decidable (∃ a ∈ (s.heap.actions r).animator?, _))

instance LeftAlone.decidable (script : Script) (r : Ref) (p : Path) (s : Running) :
    DecidablePred (LeftAlone script r p s)
  | .visit .. => inferInstanceAs (Decidable (_ → _))
  | .play _ b deltaTime =>
    inferInstanceAs (Decidable (if b.action = r then 0 ≤ deltaTime else ¬Playing s.service b.action p))
  | .check => inferInstanceAs (Decidable (_ = false))
  | .setExternally .. => inferInstanceAs (Decidable (_ ≠ p))
  | .receive .. | .edit .. => inferInstanceAs (Decidable True)

def Stands (s : Service) (d : Ref) (p : Path) (q : ℚ) : Prop :=
  (s.datapoints d).value = .number q ∧ s.broker p = some (.number q)

-- ---------------------------------------------------------------------------
-- The animation
-- ---------------------------------------------------------------------------

/-- The action plays the animation on the datapoint, and has done so for the
time. -/
structure Animated (an : Animation) (r d : Ref) (p : Path) (played : Bool) (elapsed : ℚ) (s : Service) :
    Prop where
  grounded : Grounded s
  animator : ∃ a calls, (s.heap.actions r).animator? = some a ∧ a.datapoint = d ∧
    Shows an .once ⟨a, calls, elapsed⟩ ∧ Ends an ⟨a, calls, elapsed⟩
  hasListener : (s.datapoints d).hasListener = true
  path : (s.datapoints d).path = p
  synced : s.broker p = some (s.datapoints d).value
  value : played = true → (s.datapoints d).value = .number (an.valueAt (min elapsed an.duration))
  unplayed : played = false → elapsed = 0

section
variable {script : Script} {s t : Service} {an : Animation} {r d : Ref} {p path : Path} {played : Bool}
  {elapsed deltaTime : ℚ} {element : Path × MockedDataPoint} {b : Behavior}

theorem Animated.congr (h : Animated an r d p played elapsed s) (hg : Grounded t)
    (ha : t.heap.actions r = s.heap.actions r) (hd : t.datapoints d = s.datapoints d)
    (hb : t.broker p = s.broker p) : Animated an r d p played elapsed t := by
  obtain ⟨a, calls, hsome, hdatapoint, hshows, hends⟩ := h.animator
  refine ⟨hg, ⟨a, calls, ha ▸ hsome, hdatapoint, hshows, hends⟩, ?_, ?_, ?_, ?_, h.unplayed⟩
  · rw [hd]
    exact h.hasListener
  · rw [hd]
    exact h.path
  · rw [hb, hd]
    exact h.synced
  · rw [hd]
    exact h.value

theorem Animated.allocated (h : Animated an r d p played elapsed s) : d < s.fresh := by
  obtain ⟨a, -, hsome, rfl, -⟩ := h.animator
  exact h.grounded.animators r a hsome

def SameValues (s t : Service) : Prop :=
  t.heap.actions = s.heap.actions ∧ t.datapoints = s.datapoints ∧ t.broker = s.broker

theorem sameValues_prepared (s : Service) : Prepared (SameValues s) where
  requireAll _ _ h := h
  check u b path deltaTime h := by
    obtain ⟨ha, hd, hb⟩ := h
    refine ⟨(check_actions b path deltaTime u).trans ha, Eq.trans ?_ hd, Eq.trans ?_ hb⟩
    · unfold checkTriggerOf
      dsimp only
      split <;> rfl
    · unfold checkTriggerOf
      dsimp only
      split <;> rfl

theorem visit_idle_frame (hfires : fires script element.1 deltaTime b s = false) :
    SameValues s ((visitBehavior script element.1 element.2.datapoint deltaTime b).exec s).2 := by
  obtain ⟨u, hu, ⟨-, h⟩ | ⟨hyes, -⟩⟩ :=
    visit_cases script element.1 element.2.datapoint deltaTime b (sameValues_prepared s) ⟨rfl, rfl, rfl⟩
  · rw [h]
    exact hu
  · rw [hfires] at hyes
    cases hyes

theorem Animated.visit (h : Animated an r d p played elapsed s) (he : element ∈ s.mocked)
    (halone : fires script element.1 deltaTime b s = true → b.action ≠ r ∧ element.1 ≠ p) :
    Animated an r d p played elapsed
      ((visitBehavior script element.1 element.2.datapoint deltaTime b).exec s).2 := by
  have ht := h.grounded.touches_visit he script b deltaTime
  have hg := h.grounded.touched ht
  cases hfires : fires script element.1 deltaTime b s with
  | false =>
    obtain ⟨ha, hd, hb⟩ := visit_idle_frame hfires
    exact h.congr hg (congrFun ha r) (congrFun hd d) (congrFun hb p)
  | true =>
    obtain ⟨haction, hpath⟩ := halone hfires
    have hother : element.2.datapoint ≠ d := by
      rintro rfl
      exact hpath ((h.grounded.loaded.path element he).symm.trans h.path)
    exact h.congr hg (ht.actions r fun hr => haction hr.symm) (ht.datapoints d (fun hd => hother hd.symm) h.allocated)
      (ht.broker p fun hp => hpath hp.symm)

-- ---------------------------------------------------------------------------
-- Playing
-- ---------------------------------------------------------------------------

theorem setValue_synced (s : Service) (d : Ref) (value : Value) (hl : (s.datapoints d).hasListener = true)
    (hsync : s.broker (s.datapoints d).path = some (s.datapoints d).value) :
    let t := ((setValue d value).exec s).2
    t.heap = s.heap ∧ t.datapoints d = { s.datapoints d with value := value } ∧
      t.broker (s.datapoints d).path = some value := by
  by_cases hv : (s.datapoints d).value = value
  · rw [exec_setValue_same hl hv]
    subst hv
    exact ⟨rfl, rfl, hsync⟩
  · rw [exec_setValue_other hl hv]
    unfold discardEvent
    cases lastMatch .value (s.datapoints d).path
        (writeBroker (s.datapoints d).path value (s.assign d value)).pending with
    | none => exact ⟨rfl, by simp [writeBroker, Service.assign, Service.record], by simp [writeBroker, Service.record]⟩
    | some e => exact ⟨rfl, by simp [writeBroker, Service.assign, Service.record], by simp [writeBroker, Service.record]⟩

theorem Animated.play (hlinear : script.interp1d.Linear) (h : Animated an r d p played elapsed s)
    (hr : b.action = r) (htime : 0 ≤ deltaTime) :
    Animated an r d p true (elapsed + deltaTime) ((animateBehavior script deltaTime b).exec s).2 := by
  obtain ⟨a, calls, hsome, hdatapoint, hshows, hends⟩ := h.animator
  have hg := h.grounded.play script b deltaTime
  have hshows' := hshows.tick hlinear ⟨deltaTime, htime⟩
  have hends' := hends.tick hlinear hshows ⟨deltaTime, htime⟩
  rcases animateBehavior_cases script deltaTime b s with ⟨hdone, hsame⟩ | ⟨action, animator, ha, hanimator, hdone, hexec⟩
  · -- the animation is over, and the datapoint keeps its last value
    have hover := hdone a (hr ▸ hsome)
    have hlong : an.duration < elapsed := hends.done.mp hover
    have hplayed : played = true := by
      rw [← Bool.not_eq_false]
      intro hunplayed
      rw [h.unplayed hunplayed] at hlong
      exact absurd an.pos hlong.asymm
    rw [Playback.tick_done hover] at hshows' hends'
    rw [hsame]
    refine ⟨h.grounded, ⟨a, calls, hsome, hdatapoint, hshows', hends'⟩, h.hasListener, h.path, h.synced,
      fun _ => ?_, by simp⟩
    rw [h.value hplayed, min_eq_right hlong.le, min_eq_right (by linarith)]
  · obtain rfl : animator = a := by
      rw [← hr, ha] at hsome
      exact Option.some.inj (hanimator.symm.trans hsome)
    have htick : (Playback.mk animator calls elapsed).tick script.interp1d deltaTime =
        ⟨animator.tick script.interp1d deltaTime, calls ++ [(animator.tick script.interp1d deltaTime).value],
          elapsed + deltaTime⟩ := by
      simp [Playback.tick, hdone]
    rw [NNRat.coe_mk, htick] at hshows' hends'
    rw [hexec] at hg ⊢
    obtain ⟨hheap, hset, hbroker⟩ := setValue_synced
      (s.setAnimator b.action action (animator.tick script.interp1d deltaTime)) animator.datapoint
      (animator.tick script.interp1d deltaTime).value (hdatapoint ▸ h.hasListener)
      (by rw [hdatapoint]; exact h.path ▸ h.synced)
    generalize ((setValue animator.datapoint (animator.tick script.interp1d deltaTime).value).exec _).2 = u at *
    rw [hdatapoint] at hset hbroker
    have hvalue : (animator.tick script.interp1d deltaTime).value =
        .number (an.valueAt (min (elapsed + deltaTime) an.duration)) := by
      rw [hshows'.value, hends'.time]
    refine ⟨hg, ⟨animator.tick script.interp1d deltaTime, _, ?_, ?_, hshows', hends'⟩, ?_, ?_, ?_, fun _ => ?_,
      by simp⟩
    · rw [hheap, ← hr]
      simp [Service.setAnimator, Service.setAction, Action.animator?]
    · exact hdatapoint
    · rw [hset]
      exact h.hasListener
    · rw [hset]
      exact h.path
    · rw [hset, ← h.path]
      exact hbroker
    · rw [hset]
      exact hvalue

theorem Animated.play_other (h : Animated an r d p played elapsed s) (hr : b.action ≠ r)
    (halone : ¬Playing s b.action p) :
    Animated an r d p played elapsed ((animateBehavior script deltaTime b).exec s).2 := by
  rcases h.grounded.play_cases script b deltaTime with hsame | ⟨a, ha, hdone, ht⟩
  · rw [hsame]
    exact h
  · have hother : a.datapoint ≠ d := by
      rintro rfl
      exact halone ⟨a, ha, hdone, h.hasListener, h.path⟩
    refine h.congr (h.grounded.touched ht) (ht.actions r fun heq => hr heq.symm)
      (ht.datapoints d (fun heq => hother heq.symm) h.allocated) (ht.broker p fun hp => ?_)
    exact halone ⟨a, ha, hdone, hp.1, hp.2⟩

theorem broker_outside {s t : Running} (hl : input.ofLoop = false) (halone : LeftAlone script r p s input)
    (hs : turnStep script s input = some t) : t.service.broker p = s.service.broker p := by
  obtain ⟨-, -, rfl⟩ := turnStep_some hs
  cases input with
  | edit e => rfl
  | receive name path value =>
    simp only [TurnInput.program, LoopInput.program, Raise.exec_atomic, receive]
    split <;> rfl
  | setExternally path value => exact Function.update_of_ne (fun hp => halone hp.symm) _ _
  | check => cases hl
  | visit element b deltaTime => cases hl
  | play element b deltaTime => cases hl

theorem Animated.step {s t : Running} (hlinear : script.interp1d.Linear)
    (h : Animated an r d p played elapsed s.service) (halone : LeftAlone script r p s input)
    (hs : turnStep script s input = some t) :
    Animated an r d p (input.playsOf r || played) (input.playTime r + elapsed) t.service := by
  have houtside : input.ofLoop = false → input.playsOf r = false ∧ input.playTime r = 0 := by
    intro hl
    cases input <;> simp [TurnInput.ofLoop, TurnInput.playsOf, TurnInput.playTime] at hl ⊢
  cases hturned : turned_of_step hs with
  | unchanged => simpa [TurnInput.playsOf, TurnInput.playTime] using h
  | loaded hc =>
    have hsame : isChanged s.service = false := halone
    rw [hsame] at hc
    cases hc
  | raised hc =>
    have hsame : isChanged s.service = false := halone
    rw [hsame] at hc
    cases hc
  | visit deltaTime raised he hb =>
    simpa [TurnInput.playsOf, TurnInput.playTime] using h.visit he halone
  | @play element b deltaTime raised he hb =>
    by_cases hr : b.action = r
    · have htime : 0 ≤ deltaTime := by
        simpa [LeftAlone, hr] using halone
      simpa [TurnInput.playsOf, TurnInput.playTime, hr, add_comm] using h.play hlinear hr htime
    · have hother : ¬Playing s.service b.action p := by
        simpa [LeftAlone, hr] using halone
      simpa [TurnInput.playsOf, TurnInput.playTime, hr, beq_eq_false_iff_ne.mpr hr] using h.play_other hr hother
  | outside pending broker hl hd =>
    obtain ⟨hplays, htime⟩ := houtside hl
    rw [hplays, htime, Bool.false_or, zero_add]
    exact h.congr (h.grounded.environment pending broker (hd h.grounded.distinct)) rfl rfl
      (broker_outside hl halone hs)

-- ---------------------------------------------------------------------------
-- The start
-- ---------------------------------------------------------------------------

theorem exec_resolve_event (s : Service) (path : Path) {trigger : TriggerResult} {e : Event}
    (h : trigger.event? = some e) :
    (resolveValue trigger path (.text "$event.value")).exec s = (some e.value, s) := by
  cases trigger with
  | clock active => cases h
  | event event? =>
    obtain rfl : event? = some e := h
    rfl

theorem exec_resolve (s : Service) (trigger : TriggerResult) (path : Path) {value v : Value}
    (h : standsFor? trigger s.broker path true value = some v) : ∃ registry,
    (resolveValue trigger path value).exec s = (some v, { s with registry := registry }) := by
  by_cases hevent : value = .text "$event.value"
  · subst hevent
    simp only [standsFor?, if_true] at h
    obtain ⟨e, he, rfl⟩ := Option.map_eq_some_iff.mp h
    exact ⟨s.registry, exec_resolve_event s path he⟩
  · simp only [standsFor?, if_true, if_neg hevent, Option.some.injEq] at h
    subst h
    cases hread : pathRead path value with
    | none => exact ⟨s.registry, by simp [exec_resolve_literal s trigger hread hevent]⟩
    | some q => exact ⟨s.registry.require q, by simp [exec_resolve_read s trigger hread, Service.require]⟩

theorem exec_resolveAll (s : Service) (trigger : TriggerResult) (path : Path) {values vs : List Value}
    (h : values.map (standsFor? trigger s.broker path true) = vs.map some) : ∃ registry,
    (resolveValues trigger path values).exec s = (some vs, { s with registry := registry }) := by
  induction values generalizing s vs with
  | nil =>
    obtain rfl : vs = [] := by simpa using h.symm
    exact ⟨s.registry, rfl⟩
  | cons value values ih =>
    cases vs with
    | nil => simp at h
    | cons v vs =>
      obtain ⟨hvalue, hvalues⟩ := List.cons.inj h
      obtain ⟨registry, hfirst⟩ := exec_resolve s trigger path hvalue
      obtain ⟨registry', hrest⟩ := ih { s with registry := registry } hvalues
      exact ⟨registry', by simp [resolveValues, Raise.exec_bind, hfirst, hrest]⟩

/-- The animation starts with what its values stand for. -/
theorem exec_animation (hlinear : script.interp1d.Linear) (an : Animation) {a : AnimationAction} (action : Ref)
    (trigger : TriggerResult) (hdiscrete : (s.datapoints d).hasDiscreteValueType = false)
    (honce : a.repeatMode = .once) (hduration : a.duration = an.duration)
    (hvalues : a.values.map (standsFor? trigger s.broker path a.dynamic) = (an.values.map .number).map some) :
    ∃ registry, ((a.execute script action trigger d path).exec s).2 =
      Service.setAnimator { s with registry := registry } action a (an.animator .once d) := by
  obtain ⟨registry, hresolve⟩ : ∃ registry, (if a.dynamic then resolveValues trigger path a.values
      else pure a.values : Py (List Value)).exec s = (some (an.values.map .number), { s with registry := registry }) := by
    cases hdynamic : a.dynamic with
    | true =>
      rw [hdynamic] at hvalues
      exact exec_resolveAll s trigger path hvalues
    | false =>
      have hstatic : standsFor? trigger s.broker path false = some := rfl
      rw [hdynamic, hstatic] at hvalues
      have hsame := List.map_injective_iff.mpr (Option.some_injective Value) hvalues
      exact ⟨s.registry, by rw [← hsame]; rfl⟩
  refine ⟨registry, ?_⟩
  have hnew : ValueAnimator.new? script.interp1d (an.values.map .number) a.duration a.repeatMode d =
      some (an.animator .once d) := by
    rw [hduration, honce]
    exact hlinear.new? an .once d
  simp only [AnimationAction.execute, Raise.exec_bind, Raise.exec_peek, Option.elim_some, hdiscrete,
    Bool.false_eq_true, if_false, hresolve, startAnimator, Raise.exec_attempt, hnew]
  rfl

theorem checkTriggerOf_fst (path : Path) (deltaTime : ℚ) (b : Behavior) (s : Service) :
    (checkTriggerOf b path deltaTime s).1 = firing path deltaTime b s := by
  unfold checkTriggerOf firing
  dsimp only
  split
  · next h => rw [h]
  · rfl

/-- A behavior that fires is executed with what its trigger answered. -/
theorem visit_fired (hfires : fires script path deltaTime b s = true) : ∃ u, SameValues s u ∧
    ((visitBehavior script path d deltaTime b).exec s).2 =
      ((executeAction script b (firing path deltaTime b s) d path).exec (u.record (.executed path b))).2 := by
  obtain ⟨hfulfilled, hactive⟩ := Bool.and_eq_true_iff.mp hfires
  obtain ⟨v, hcondition, hsame, hfiring, hactive⟩ : ∃ v,
      evaluateCondition script b ⟨path, s.pending, deltaTime, s.broker⟩ s = (true, v) ∧ SameValues s v ∧
        firing path deltaTime b v = firing path deltaTime b s ∧
          (checkTriggerOf b path deltaTime v).1.isActive = true :=
    ⟨_, Prod.ext hfulfilled rfl, ⟨rfl, rfl, rfl⟩, rfl, hactive⟩
  rw [checkTriggerOf_fst, hfiring] at hactive
  have heval : (isConditionFulfilled script b path deltaTime).exec s = (some true, v) := by
    simp [isConditionFulfilled, hcondition]
  have hexec : (checkTrigger b path deltaTime).exec v =
      (some (firing path deltaTime b s), (checkTriggerOf b path deltaTime v).2) := by
    simp [checkTrigger, checkTriggerOf_fst, hfiring]
  refine ⟨_, (sameValues_prepared s).check v b path deltaTime hsame, ?_⟩
  simp only [visitBehavior, runBehavior, Raise.exec_bind, heval, hexec, hactive, Raise.exec_atomic,
    Option.elim_some, if_true]
  rcases (executeAction script b (firing path deltaTime b s) d path).exec _ with ⟨_ | _, t⟩ <;> rfl

theorem animated_of_visit (hlinear : script.interp1d.Linear) (an : Animation) {a : AnimationAction}
    (hg : Grounded s) (he : element ∈ s.mocked) (hfires : fires script element.1 deltaTime b s = true)
    (ha : s.heap.actions b.action = .animation a)
    (hdiscrete : (s.datapoints element.2.datapoint).hasDiscreteValueType = false)
    (honce : a.repeatMode = .once) (hduration : a.duration = an.duration)
    (hvalues : a.values.map (standsFor? (firing element.1 deltaTime b s) s.broker element.1 a.dynamic) =
      (an.values.map .number).map some)
    (hsync : s.broker element.1 = some (s.datapoints element.2.datapoint).value) :
    Animated an b.action element.2.datapoint element.1 false 0
      ((visitBehavior script element.1 element.2.datapoint deltaTime b).exec s).2 := by
  have hg' := hg.touched (hg.touches_visit he script b deltaTime)
  obtain ⟨u, ⟨hactions, hdatapoints, hbroker⟩, h⟩ := visit_fired hfires (d := element.2.datapoint)
  have haction : (u.record (.executed element.1 b)).heap.actions b.action = .animation a := by
    rw [← ha, ← hactions]
    rfl
  have hdatapoints' : (u.record (.executed element.1 b)).datapoints = s.datapoints := hdatapoints
  have hbroker' : (u.record (.executed element.1 b)).broker = s.broker := hbroker
  obtain ⟨registry, hexec⟩ := exec_animation hlinear an b.action (firing element.1 deltaTime b s)
    (hdatapoints' ▸ hdiscrete) honce hduration (hbroker' ▸ hvalues)
  have hrun : (executeAction script b (firing element.1 deltaTime b s) element.2.datapoint element.1).exec
      (u.record (.executed element.1 b)) =
        (a.execute script b.action (firing element.1 deltaTime b s) element.2.datapoint element.1).exec
          (u.record (.executed element.1 b)) := by
    simp [executeAction, haction]
  rw [h, hrun, hexec] at hg' ⊢
  refine ⟨hg', ⟨an.animator .once element.2.datapoint, [], ?_, rfl, shows_start an .once _, ends_start an _⟩,
    ?_, ?_, ?_, by simp, fun _ => rfl⟩
  · simp [Service.setAnimator, Service.setAction, Action.animator?]
  · exact hdatapoints' ▸ hg.loaded.hasListener element he
  · exact hdatapoints' ▸ hg.loaded.path element he
  · change (u.record (.executed element.1 b)).broker element.1 =
      some ((u.record (.executed element.1 b)).datapoints element.2.datapoint).value
    rw [hdatapoints', hbroker']
    exact hsync

-- ---------------------------------------------------------------------------
-- Runs
-- ---------------------------------------------------------------------------

theorem Animated.run {s t : Running} (hlinear : script.interp1d.Linear)
    (h : Animated an r d p played elapsed s.service)
    (halone : Along (turnStep script) (LeftAlone script r p) s inputs)
    (hrun : run (turnStep script) s inputs = some t) :
    Animated an r d p (played || inputs.any (TurnInput.playsOf r)) (elapsed + playedTime r inputs) t.service := by
  induction inputs generalizing s played elapsed with
  | nil =>
    obtain rfl := Option.some.inj hrun
    simpa [playedTime] using h
  | cons input inputs ih =>
    obtain ⟨u, hs, hrest⟩ := Option.bind_eq_some_iff.mp hrun
    rw [Atomic.along_cons hs] at halone
    have hu := ih (h.step hlinear halone.1 hs) halone.2 hrest
    simpa [playedTime, Bool.or_assoc, Bool.or_left_comm, add_assoc, add_left_comm] using hu

theorem Animated.stands (h : Animated an r d p true elapsed s) :
    Stands s d p (an.valueAt (min elapsed an.duration)) := by
  have hvalue := h.value rfl
  exact ⟨hvalue, by rw [h.synced, hvalue]⟩

end

/-- From the firing of the behavior on, in every run that leaves it alone. -/
theorem animation_arrives (script : Script) (hlinear : script.interp1d.Linear) (an : Animation) (s u t : Running)
    (hg : Grounded s.service) (element : Path × MockedDataPoint) (b : Behavior) (deltaTime : ℚ)
    (hfires : fires script element.1 deltaTime b s.service = true) (a : AnimationAction)
    (ha : s.service.heap.actions b.action = .animation a)
    (hdiscrete : (s.service.datapoints element.2.datapoint).hasDiscreteValueType = false)
    (honce : a.repeatMode = .once) (hduration : a.duration = an.duration)
    (hvalues : a.values.map (standsFor? (firing element.1 deltaTime b s.service) s.service.broker element.1 a.dynamic) =
      (an.values.map .number).map some)
    (hsync : s.service.broker element.1 = some (s.service.datapoints element.2.datapoint).value)
    (hvisit : turnStep script s (.visit element b deltaTime) = some u) (inputs : List TurnInput)
    (halone : Along (turnStep script) (LeftAlone script b.action element.1) u inputs)
    (hrun : run (turnStep script) u inputs = some t) :
    ((∃ input ∈ inputs, input.playsOf b.action = true) →
        Stands t.service element.2.datapoint element.1
          (an.valueAt (min (playedTime b.action inputs) an.duration))) ∧
      (an.duration ≤ playedTime b.action inputs →
        Stands t.service element.2.datapoint element.1 (an.values.getLast an.ne_nil)) := by
  have hstart : Animated an b.action element.2.datapoint element.1 false 0 u.service := by
    cases turned_of_step hvisit with
    | visit _ _ he => exact animated_of_visit hlinear an hg he hfires ha hdiscrete honce hduration hvalues hsync
    | outside _ _ hl => cases hl
  have hend := hstart.run hlinear halone hrun
  rw [zero_add, Bool.false_or] at hend
  constructor
  · intro hplayed
    rw [List.any_eq_true.mpr hplayed] at hend
    exact hend.stands
  · intro hlong
    have hplayed : inputs.any (TurnInput.playsOf b.action) = true := by
      rw [← Bool.not_eq_false]
      intro hunplayed
      rw [hend.unplayed hunplayed] at hlong
      exact absurd an.pos hlong.not_gt
    rw [hplayed] at hend
    have hstands := hend.stands
    rwa [min_eq_right hlong, an.valueAt_end] at hstands

/-- A missing value is no number to scipy, which does not mind it. -/
def Script.benchSweep : Script :=
  { Script.benchFade with
    interp1d := fun values duration =>
      if .none ∈ values then some fun _ => .none else linearInterp1d values duration }

theorem linear_benchSweep : Script.benchSweep.interp1d.Linear := by
  intro an
  have hnumbers : Value.none ∉ an.values.map Value.number := by simp
  simp only [Script.benchSweep, if_neg hnumbers]
  exact linearInterp1d_linear an

/-- A wiper that goes from where it is past its target to where it is asked to
go; still to be loaded. -/
def Service.benchSweep : Service :=
  { Service.benchWiper with
    heap := { Service.benchWiper.heap with
      actions := fun r => if r = 0 then .animation ⟨10, .once, [.text "$self", .text "$Target", .text "$event.value"], true, none⟩
        else .set ⟨.number 0, false⟩ } }

def Service.benchAsked : Service :=
  { ((reload .benchSweep).exec .benchSweep).2 with
    broker := fun p => if p = "Wiper" then some (.number 0) else if p = "Target" then some (.number 45) else none
    pending := [⟨.actuatorTarget, "Wiper", .number 60⟩] }

def benchSweep : List TurnInput :=
  [.play benchWiper ⟨0, 0, 0⟩ 4, .setExternally "Target" (.number 90), .check, .visit benchWiper ⟨0, 0, 0⟩ 4,
    .play benchWiper ⟨0, 0, 0⟩ 7]

theorem animation_arrives_sweep :
    ∃ u t, turnStep .benchSweep ⟨.benchAsked, false⟩ (.visit benchWiper ⟨0, 0, 0⟩ 1) = some u ∧
      run (turnStep .benchSweep) u benchSweep = some t ∧ Stands t.service 1 "Wiper" 60 := by
  have hunloaded : Unloaded .benchSweep := by
    refine ⟨rfl, fun r => ?_, by decide, List.nodup_nil⟩
    by_cases hr : r = 0 <;> simp [Service.benchSweep, hr, Action.animator?]
  have hg : Grounded .benchAsked := by
    have hload : (reload .benchSweep).exec .benchSweep = (some (), ((reload .benchSweep).exec .benchSweep).2) := rfl
    have hgrounded := hunloaded.grounded hload
    exact hgrounded.environment _ _ hgrounded.distinct
  have hruns : ∃ u ∈ turnStep .benchSweep ⟨.benchAsked, false⟩ (.visit benchWiper ⟨0, 0, 0⟩ 1),
      Along (turnStep .benchSweep) (LeftAlone .benchSweep 0 "Wiper") u benchSweep ∧
        (run (turnStep .benchSweep) u benchSweep).isSome = true := by
    decide +kernel
  obtain ⟨u, hvisit, halone, hsome⟩ := hruns
  obtain ⟨t, hrun⟩ := Option.isSome_iff_exists.mp hsome
  have harrives := animation_arrives .benchSweep linear_benchSweep ⟨[0, 45, 60], 10, by decide, by decide +kernel⟩
    ⟨.benchAsked, false⟩ u t hg benchWiper ⟨0, 0, 0⟩ 1 (by decide +kernel)
    ⟨10, .once, [.text "$self", .text "$Target", .text "$event.value"], true,
      some ⟨[.number 0, .number 0, .none], 10, .once, 0, false, .number 0, 2⟩⟩
    (by decide +kernel) (by decide +kernel) rfl rfl (by decide +kernel) (by decide +kernel) hvisit benchSweep halone hrun
  exact ⟨u, t, hvisit, hrun, harrives.2 (by decide +kernel)⟩

end KuksaServices.Mock
