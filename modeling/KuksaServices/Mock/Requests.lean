import Mathlib.Data.List.Nodup
import Mathlib.Data.Set.Insert
import KuksaServices.Mock.Loading
import KuksaServices.Mock.Rounds

/-!
# Target requests in turn

A datapoint that takes what is requested of it: its one behavior waits for
target requests of its own path and sets the requested value. Every round
takes one request that is pending, and the scan of the trigger ends with the
last one, so that requests which pile up before a round are taken in reverse.
As long as the first and the last request that a round finds are the same,
requests take effect in the order of their arrival (`requests_in_order`).
-/

namespace KuksaServices.Mock

open Atomic (Raise Frame Along)

variable {script : Script} {p : Path} {r : Ref} {b : Behavior} {s t : Service}

-- ---------------------------------------------------------------------------
-- Requests
-- ---------------------------------------------------------------------------

def requestEvents (path : Path) (pending : List Event) : List Event :=
  pending.filter (·.isFor .actuatorTarget path)

/-- The values requested of a path, in the order of their arrival. -/
def requests (path : Path) (pending : List Event) : List Value :=
  (requestEvents path pending).map (·.value)

def RoundInput.request? (path : Path) : RoundInput → Option Value
  | .receive .actuatorTarget q value => if q = path ∧ value ≠ .none then some value else none
  | _ => none

def requestsOf (path : Path) (inputs : List RoundInput) : List Value :=
  inputs.filterMap (·.request? path)

theorem requests_touched (h : Touches F s t) (hk : (.actuatorTarget, p) ∉ F.events) :
    requestEvents p t.pending = requestEvents p s.pending := by
  refine h.pending _ fun e he => ?_
  simp only [Event.isFor, Bool.and_eq_true, beq_iff_eq] at he
  obtain ⟨hname, hpath⟩ := he
  simpa [Event.key, hname, hpath] using hk

theorem request_ext (he : e ∈ requestEvents p pending) (he' : e' ∈ requestEvents p pending')
    (h : e.value = e'.value) : e = e' := by
  simp only [requestEvents, List.mem_filter, Event.isFor, Bool.and_eq_true, beq_iff_eq] at he he'
  obtain ⟨name, path, value⟩ := e
  obtain ⟨name', path', value'⟩ := e'
  simp_all

theorem requestEvents_remove (pending : List Event) :
    requestEvents p (removeLastMatch .actuatorTarget p pending) =
      (lastMatch .actuatorTarget p pending).elim (requestEvents p pending)
        fun e => (requestEvents p pending).erase e :=
  filter_removeLastMatch_eq ..

-- ---------------------------------------------------------------------------
-- The datapoint and its behavior
-- ---------------------------------------------------------------------------

/-- The datapoint `r` of path `p`, whose one behavior `b` passes target
requests on. -/
structure Relay (script : Script) (p : Path) (r : Ref) (b : Behavior) (s : Service) : Prop where
  loaded : Loaded s
  element : ∃ isMocked, (p, ⟨r, isMocked, [b]⟩) ∈ s.mocked
  condition : ∀ context, (script.condition b.condition context).1 = true
  trigger : s.heap.triggers b.trigger = .event ⟨.actuatorTarget, none⟩ ∨
    s.heap.triggers b.trigger = .event ⟨.actuatorTarget, some p⟩
  action : s.heap.actions b.action = .set ⟨.text "$event.value", true⟩

def Trigger.Avoids (p : Path) (trigger : Trigger) : Prop :=
  trigger ≠ .event ⟨.actuatorTarget, some p⟩

/-- No behavior of another datapoint takes target requests of `p`. -/
structure Unrivalled (p : Path) (b : Behavior) (s : Service) : Prop where
  trigger : ∀ e ∈ s.mocked, e.1 ≠ p → ∀ c ∈ e.2.behaviors, c.trigger ≠ b.trigger
  avoids : ∀ e ∈ s.mocked, e.1 ≠ p → ∀ c ∈ e.2.behaviors, (s.heap.triggers c.trigger).Avoids p

theorem Trigger.Avoids.evolves {trigger trigger' : Trigger} (h : trigger.Avoids p)
    (he : trigger.Evolves q trigger') (hq : q ≠ p) : trigger'.Avoids p := by
  rintro rfl
  cases trigger with
  | clock t => exact he
  | event t =>
    obtain ⟨eventType, datapointPath⟩ := t
    rcases he with heq | heq
    · exact h (by rw [heq])
    · cases datapointPath with
      | none => simp_all [EventTrigger.bound]
      | some path => simp_all [EventTrigger.bound, Trigger.Avoids]

theorem Action.set_of_blank {action : Action} (h : action.blank = .set a) : action = .set a := by
  cases action with
  | set a' => exact h
  | animation a' => simp [Action.blank] at h

theorem Relay.touched (h : Relay script p r b s) (ht : Touches F s t)
    (htrigger : t.heap.triggers b.trigger = .event ⟨.actuatorTarget, none⟩ ∨
      t.heap.triggers b.trigger = .event ⟨.actuatorTarget, some p⟩) : Relay script p r b t := by
  refine ⟨h.loaded.touched ht, ?_, h.condition, htrigger, Action.set_of_blank ?_⟩
  · rw [ht.mocked]
    exact h.element
  · rw [ht.blank, h.action]
    rfl

-- ---------------------------------------------------------------------------
-- The other datapoints
-- ---------------------------------------------------------------------------

def Footprint.beside (p : Path) (r : Ref) (b : Behavior) (q : Path) : Footprint :=
  ⟨q, {x | x ≠ b.trigger}, Set.univ, {x | x ≠ r}, {k | k ≠ (.actuatorTarget, p)}, {x | x ≠ p}⟩

theorem Loaded.ref_ne (h : Loaded s) (he : e ∈ s.mocked) (he' : e' ∈ s.mocked) (hne : e.1 ≠ e'.1) :
    e.2.datapoint ≠ e'.2.datapoint := fun heq =>
  hne (congrArg Prod.fst (List.inj_on_of_nodup_map h.refs he he' heq))

theorem Relay.element_beside {e : Path × MockedDataPoint} (h : Relay script p r b s)
    (hu : Unrivalled p b s) (he : e ∈ s.mocked) (hne : e.1 ≠ p) :
    Element (.beside p r b e.1) e.2.datapoint e.2.behaviors s := by
  obtain ⟨isMocked, hmem⟩ := h.element
  constructor
  · refine ⟨h.loaded.ref_ne he hmem hne, h.loaded.allocated e he, fun _ => ⟨?_, ?_⟩⟩
    · simpa [Footprint.beside, h.loaded.path e he] using hne
    · simp [Footprint.beside]
  · intro c hc
    refine ⟨hu.trigger e he hne c hc, trivial, fun t ht => ?_⟩
    have havoids := hu.avoids e he hne c hc
    obtain ⟨eventType, datapointPath⟩ := t
    cases datapointPath with
    | none => simp [Footprint.beside, EventTrigger.bound, hne]
    | some path =>
      simp only [Footprint.beside, EventTrigger.bound, Option.getD_some, Set.mem_ofPred_eq, ne_eq,
        Prod.mk.injEq]
      rintro ⟨rfl, rfl⟩
      exact havoids ht

structure Passed (script : Script) (p : Path) (r : Ref) (b : Behavior) (s t : Service) : Prop where
  relay : Relay script p r b s → Relay script p r b t
  unrivalled : Unrivalled p b s → Unrivalled p b t
  mocked : t.mocked = s.mocked
  events : requestEvents p t.pending = requestEvents p s.pending
  assigned : assignedTo p t.log = assignedTo p s.log
  value : Relay script p r b s → (t.datapoints r).value = (s.datapoints r).value

theorem Passed.refl (s : Service) : Passed script p r b s s := ⟨id, id, rfl, rfl, rfl, fun _ => rfl⟩

theorem Passed.trans (h : Passed script p r b s t) (h' : Passed script p r b t u) :
    Passed script p r b s u :=
  ⟨h'.relay ∘ h.relay, h'.unrivalled ∘ h.unrivalled, h'.mocked.trans h.mocked,
    h'.events.trans h.events, h'.assigned.trans h.assigned,
    fun hr => (h'.value (h.relay hr)).trans (h.value hr)⟩

theorem Relay.allocated (h : Relay script p r b s) : r < s.fresh := by
  obtain ⟨isMocked, hmem⟩ := h.element
  exact h.loaded.allocated _ hmem

theorem passed_of_touches (h : Touches (.beside p r b q) s t) (hq : q ≠ p) : Passed script p r b s t := by
  refine ⟨fun hr => hr.touched h ?_, fun hu => ⟨?_, fun e he hne c hc => ?_⟩, h.mocked, ?_, ?_, ?_⟩
  · rw [h.triggers b.trigger (by simp [Footprint.beside])]
    exact hr.trigger
  · rw [h.mocked]
    exact hu.trigger
  · rw [h.mocked] at he
    exact (hu.avoids e he hne c hc).evolves (h.evolves c.trigger) hq
  · exact requests_touched h (by simp [Footprint.beside])
  · exact h.assigned p (by simp [Footprint.beside])
  · intro hr
    rw [h.datapoints r (by simp [Footprint.beside]) hr.allocated]

def passedFrame (script : Script) (p : Path) (r : Ref) (b : Behavior)
    (mocked : List (Path × MockedDataPoint)) : Frame Service where
  on s := Relay script p r b s ∧ Unrivalled p b s ∧ s.mocked = mocked
  does := Passed script p r b
  refl := Passed.refl
  trans := Passed.trans
  keeps h h' := ⟨h'.relay h.1, h'.unrivalled h.2.1, h'.mocked.trans h.2.2⟩

theorem passed_others {elements : List (Path × MockedDataPoint)} (deltaTime : ℚ)
    (h : ∀ e ∈ elements, e ∈ mocked ∧ e.1 ≠ p) :
    Raise.Within (passedFrame script p r b mocked)
      (Raise.forEach elements (executeElement script deltaTime)) := by
  refine .forEach fun e he => ?_
  rintro s ⟨hr, hu, rfl⟩
  obtain ⟨hmem, hne⟩ := h e he
  exact passed_of_touches (touches_executeElement (hr.element_beside hu hmem hne) deltaTime) hne

-- ---------------------------------------------------------------------------
-- The datapoint's turn
-- ---------------------------------------------------------------------------

theorem discardEvent_keeps (path : Path) (s : Service) :
    (discardEvent path s).datapoints = s.datapoints ∧
      assignedTo p (discardEvent path s).log = assignedTo p s.log := by
  unfold discardEvent
  cases lastMatch .value path s.pending with
  | none => exact ⟨rfl, rfl⟩
  | some e => exact ⟨rfl, assignedTo_record p _ _ rfl⟩

theorem setValue_listened (hpath : (s.datapoints r).path = p)
    (hlistener : (s.datapoints r).hasListener = true) (value : Value) :
    ((setValue r value).exec s).1 = some () ∧
      assignedTo p ((setValue r value).exec s).2.log = assignedTo p s.log ++ [value] ∧
      (((setValue r value).exec s).2.datapoints r).value = value := by
  have hassigned : assignedTo p (s.record (.assigned p true value)).log =
      assignedTo p s.log ++ [value] := by
    simp [Service.record, assignedTo_snoc, Deed.assignedTo?]
  by_cases hv : (s.datapoints r).value = value
  · rw [exec_setValue_same hlistener hv, hpath]
    exact ⟨rfl, hassigned, hv⟩
  · rw [exec_setValue_other hlistener hv, hpath]
    obtain ⟨hdatapoints, hlog⟩ := discardEvent_keeps (p := p) p (writeBroker p value (s.assign r value))
    refine ⟨rfl, hlog.trans ?_, ?_⟩
    · rw [← hassigned, ← hpath]
      exact assignedTo_record _ _ _ rfl
    · rw [hdatapoints]
      simp [writeBroker, Service.record, Service.assign]

theorem Relay.check (h : Relay script p r b s) (deltaTime : ℚ) (pending : List Event) :
    (s.heap.triggers b.trigger).check p deltaTime pending =
      (.event (lastMatch .actuatorTarget p pending), .event ⟨.actuatorTarget, some p⟩,
        removeLastMatch .actuatorTarget p pending) := by
  rcases h.trigger with htrigger | htrigger
  · simp [htrigger, Trigger.check, EventTrigger.check, EventTrigger.bound]
  · simp [htrigger, Trigger.check, EventTrigger.check, EventTrigger.bound]

structure Turn (p : Path) (r : Ref) (e? : Option Event) (s : Service) (result : Option Unit × Service) :
    Prop where
  returns : result.1 = some ()
  assigned : assignedTo p result.2.log = assignedTo p s.log ++ (e?.map (·.value)).toList
  events : requestEvents p result.2.pending = requestEvents p s.pending
  value : (result.2.datapoints r).value = e?.elim (s.datapoints r).value (·.value)

theorem setValue_turn (hr : r < s.fresh) (hpath : (s.datapoints r).path = p)
    (hlistener : (s.datapoints r).hasListener = true) (e : Event) :
    Turn p r (some e) s ((setValue r e.value).exec s) := by
  obtain ⟨hreturns, hassigned, hvalue⟩ := setValue_listened hpath hlistener e.value
  have howns : Owns ⟨p, ∅, ∅, {r}, {(.value, p)}, {p}⟩ r s :=
    ⟨rfl, hr, fun _ => ⟨hpath, by simp [hpath]⟩⟩
  exact ⟨hreturns, hassigned, requests_touched (touches_setValue howns e.value) (by simp), hvalue⟩

theorem Relay.datapoint (h : Relay script p r b s) :
    (s.datapoints r).path = p ∧ (s.datapoints r).hasListener = true := by
  obtain ⟨isMocked, hmem⟩ := h.element
  exact ⟨h.loaded.path _ hmem, h.loaded.hasListener _ hmem⟩

def Service.taken (script : Script) (s : Service) (p : Path) (b : Behavior) (deltaTime : ℚ) : Service :=
  { (evaluateCondition script b ⟨p, s.pending, deltaTime, s.broker⟩ s).2.setTrigger b.trigger
      (.event ⟨.actuatorTarget, some p⟩) with
    pending := removeLastMatch .actuatorTarget p s.pending }

theorem exec_passOn (ha : s.heap.actions b.action = .set ⟨.text "$event.value", true⟩)
    (hne : e.value ≠ .none) (path : Path) :
    (executeAction script b (.event (some e)) r path).exec s = (setValue r e.value).exec s := by
  have hresolve : (resolveValue (.event (some e)) path (.text "$event.value")).exec s =
      (some e.value, s) := by
    simp [resolveValue]
  simp [executeAction, ha, SetAction.execute, hresolve, hne]

theorem exec_visit_inactive {s₁ s₂ : Service}
    (hc : evaluateCondition script b ⟨p, s.pending, deltaTime, s.broker⟩ s = (true, s₁))
    (hk : checkTriggerOf b p deltaTime s₁ = (result, s₂)) (ha : result.isActive = false) :
    (visitBehavior script p r deltaTime b).exec s = (some false, s₂) := by
  simp [visitBehavior, isConditionFulfilled, checkTrigger, hc, hk, ha]

theorem exec_visit_active {s₁ s₂ : Service}
    (hc : evaluateCondition script b ⟨p, s.pending, deltaTime, s.broker⟩ s = (true, s₁))
    (hk : checkTriggerOf b p deltaTime s₁ = (result, s₂)) (ha : result.isActive = true)
    (hx : (runBehavior script b result r p).exec s₂ = (done, t)) :
    (visitBehavior script p r deltaTime b).exec s = (done.map fun _ => true, t) := by
  simp only [visitBehavior, isConditionFulfilled, checkTrigger, Raise.exec_bind, Raise.exec_atomic, hc,
    Option.elim_some, if_true, hk, ha, hx]
  cases done <;> rfl

theorem exec_executeElement_one (isMocked : Bool)
    (h : (visitBehavior script p r deltaTime b).exec s = (stop, t)) :
    (executeElement script deltaTime (p, ⟨r, isMocked, [b]⟩)).exec s = (stop.map fun _ => (), t) := by
  simp only [executeElement, Raise.forUntil, Raise.exec_bind, h]
  rcases stop with _ | _ | _ <;> rfl

theorem Relay.turn (h : Relay script p r b s) (hv : ∀ e ∈ requestEvents p s.pending, e.value ≠ .none)
    (isMocked : Bool) (deltaTime : ℚ) :
    Turn p r (lastMatch .actuatorTarget p s.pending) (s.taken script p b deltaTime)
      ((executeElement script deltaTime (p, ⟨r, isMocked, [b]⟩)).exec s) := by
  have hcheck := h.check deltaTime s.pending
  have hc : evaluateCondition script b ⟨p, s.pending, deltaTime, s.broker⟩ s = (true, _) :=
    Prod.ext (h.condition _) rfl
  cases hlast : lastMatch .actuatorTarget p s.pending with
  | none =>
    rw [hlast] at hcheck
    have hk : checkTriggerOf b p deltaTime
        (evaluateCondition script b ⟨p, s.pending, deltaTime, s.broker⟩ s).2 =
          (.event none, s.taken script p b deltaTime) := by
      simp [checkTriggerOf, evaluateCondition, hcheck, Service.taken]
    rw [exec_executeElement_one isMocked (exec_visit_inactive hc hk rfl)]
    exact ⟨rfl, by simp, rfl, rfl⟩
  | some e =>
    rw [hlast] at hcheck
    have hk : checkTriggerOf b p deltaTime
        (evaluateCondition script b ⟨p, s.pending, deltaTime, s.broker⟩ s).2 =
          (.event (some e), (s.taken script p b deltaTime).record (.consumed e)) := by
      simp [checkTriggerOf, evaluateCondition, hcheck, Service.taken]
    obtain ⟨hpath, hlistener⟩ := h.datapoint
    have hne : e.value ≠ .none := hv e (List.mem_of_getLast? hlast)
    let u := ((s.taken script p b deltaTime).record (.consumed e)).record (.executed p b)
    obtain ⟨hreturns, hassigned, hrequests, hvalue⟩ :=
      setValue_turn (s := u) h.allocated hpath hlistener e
    have hrun : (runBehavior script b (.event (some e)) r p).exec
        ((s.taken script p b deltaTime).record (.consumed e)) =
          (some (), ((setValue r e.value).exec u).2) := by
      simp only [runBehavior, Raise.exec_bind, Raise.exec_atomic, Option.elim_some]
      exact (exec_passOn (s := u) h.action hne p).trans (Prod.ext hreturns rfl)
    rw [exec_executeElement_one isMocked (exec_visit_active hc hk rfl hrun)]
    refine ⟨rfl, hassigned.trans ?_, hrequests, hvalue⟩
    rw [assignedTo_record p _ _ rfl, assignedTo_record p _ _ rfl]

def Footprint.relay (p : Path) (r : Ref) (b : Behavior) : Footprint :=
  ⟨p, {b.trigger}, {b.action}, {r}, {(.actuatorTarget, p), (.value, p)}, {p}⟩

theorem Relay.touches (h : Relay script p r b s) (isMocked : Bool) (deltaTime : ℚ) :
    Touches (.relay p r b) s ((executeElement script deltaTime (p, ⟨r, isMocked, [b]⟩)).exec s).2 := by
  obtain ⟨hpath, -⟩ := h.datapoint
  refine touches_executeElement (F := .relay p r b) ⟨?_, ?_⟩ deltaTime
  · exact ⟨rfl, h.allocated, fun _ => by simp [hpath, Footprint.relay]⟩
  · simp only [List.mem_singleton]
    rintro c rfl
    refine ⟨rfl, rfl, fun t ht => ?_⟩
    rcases h.trigger with htrigger | htrigger
    · rw [htrigger] at ht
      cases ht
      simp [Footprint.relay, EventTrigger.bound]
    · rw [htrigger] at ht
      cases ht
      simp [Footprint.relay, EventTrigger.bound]

theorem Relay.kept (h : Relay script p r b s) (ht : Touches (.relay p r b) s t) :
    Relay script p r b t := by
  refine h.touched ht ?_
  have hevolves := ht.evolves b.trigger
  cases htrigger : t.heap.triggers b.trigger with
  | clock t =>
    rcases h.trigger with hs | hs <;> simp [hs, htrigger, Trigger.Evolves] at hevolves
  | event t =>
    rcases h.trigger with hs | hs
    · rw [hs, htrigger] at hevolves
      rcases hevolves with rfl | rfl
      · exact .inl rfl
      · exact .inr rfl
    · rw [hs, htrigger] at hevolves
      rcases hevolves with rfl | rfl
      · exact .inr rfl
      · exact .inr rfl

theorem Unrivalled.kept (h : Unrivalled p b s) (ht : Touches (.relay p r b) s t) : Unrivalled p b t := by
  refine ⟨?_, fun e he hne c hc => ?_⟩
  · rw [ht.mocked]
    exact h.trigger
  · rw [ht.mocked] at he
    rw [ht.triggers c.trigger (h.trigger e he hne c hc)]
    exact h.avoids e he hne c hc

-- ---------------------------------------------------------------------------
-- A round
-- ---------------------------------------------------------------------------

/-- A round takes the last request, or raises before the datapoint has its
turn. -/
structure RoundTakes (p : Path) (r : Ref) (e? : Option Event) (s : Service)
    (result : Option Unit × Service) : Prop where
  last : e? = lastMatch .actuatorTarget p s.pending ∨ e? = none ∧ result.1 = none
  assigned : assignedTo p result.2.log = assignedTo p s.log ++ (e?.map (·.value)).toList
  events : requestEvents p result.2.pending =
    e?.elim (requestEvents p s.pending) fun e => (requestEvents p s.pending).erase e
  value : (result.2.datapoints r).value = e?.elim (s.datapoints r).value (·.value)

theorem Relay.round (h : Relay script p r b s) (hu : Unrivalled p b s)
    (hv : ∀ e ∈ requestEvents p s.pending, e.value ≠ .none) (deltaTime : ℚ) :
    ∃ e?, RoundTakes p r e? s ((execute script deltaTime).exec s) ∧
      Relay script p r b ((execute script deltaTime).exec s).2 ∧
      Unrivalled p b ((execute script deltaTime).exec s).2 := by
  obtain ⟨isMocked, hmem⟩ := h.element
  obtain ⟨before, behind, hsplit, hbefore, hbehind⟩ := h.loaded.split hmem
  have hexec : (execute script deltaTime).exec s =
      (Raise.forEach (before ++ (p, ⟨r, isMocked, [b]⟩) :: behind) (executeElement script deltaTime)).exec s := by
    simp [execute, hsplit]
  rw [hexec, Raise.exec_forEach_append, Raise.exec_bind]
  have hpassed : Passed script p r b s _ := passed_others deltaTime hbefore s ⟨h, hu, rfl⟩
  rcases hfirst : (Raise.forEach before (executeElement script deltaTime)).exec s with ⟨_ | _, s₁⟩
  · -- a datapoint in front of this one raises
    rw [hfirst] at hpassed
    refine ⟨none, ⟨.inr ⟨rfl, rfl⟩, ?_, ?_, ?_⟩, hpassed.relay h, hpassed.unrivalled hu⟩
    · simpa using hpassed.assigned
    · exact hpassed.events
    · exact hpassed.value h
  · rw [hfirst] at hpassed
    have h₁ := hpassed.relay h
    have hu₁ := hpassed.unrivalled hu
    have hlast : lastMatch .actuatorTarget p s₁.pending = lastMatch .actuatorTarget p s.pending :=
      congrArg List.getLast? hpassed.events
    have hturn := h₁.turn (hpassed.events ▸ hv) isMocked deltaTime
    have htouches := h₁.touches isMocked deltaTime
    simp only [Option.elim_some, Raise.forEach, Raise.exec_bind]
    rcases hown : (executeElement script deltaTime (p, ⟨r, isMocked, [b]⟩)).exec s₁ with ⟨_ | _, s₂⟩
    · rw [hown] at hturn
      exact absurd hturn.returns (by simp)
    · rw [hown] at hturn htouches
      have h₂ := h₁.kept htouches
      have hu₂ := hu₁.kept htouches
      have hrest : Passed script p r b s₂ _ := passed_others deltaTime hbehind s₂
        ⟨h₂, hu₂, htouches.mocked.trans hpassed.mocked⟩
      refine ⟨lastMatch .actuatorTarget p s.pending, ⟨.inl rfl, ?_, ?_, ?_⟩, hrest.relay h₂,
        hrest.unrivalled hu₂⟩
      · have hassigned := hturn.assigned
        rw [hlast] at hassigned
        exact hrest.assigned.trans (hassigned.trans (congrArg (· ++ _) hpassed.assigned))
      · have hrequests := hturn.events.trans (requestEvents_remove s₁.pending)
        rw [hlast, hpassed.events] at hrequests
        exact hrest.events.trans hrequests
      · have hvalue := hturn.value
        rw [hlast] at hvalue
        refine (hrest.value h₂).trans (hvalue.trans ?_)
        exact congrArg (fun v => Option.elim _ v _) (hpassed.value h)

-- ---------------------------------------------------------------------------
-- Runs
-- ---------------------------------------------------------------------------

/-- A round begins with its first pending request equal to the last one. -/
def InTurn (p : Path) (s : Running) : RoundInput → Prop
  | .round _ => (requests p s.service.pending).head? = (requests p s.service.pending).getLast?
  | _ => True

instance (p : Path) (s : Running) : DecidablePred (InTurn p s)
  | .round _ => inferInstanceAs (Decidable (_ = _))
  | .receive .. | .setExternally .. => inferInstanceAs (Decidable True)

structure Attended (script : Script) (p : Path) (r : Ref) (b : Behavior) (s : Service) : Prop where
  relay : Relay script p r b s
  unrivalled : Unrivalled p b s
  requested : ∀ e ∈ requestEvents p s.pending, e.value ≠ .none
  current : ∀ v, (assignedTo p s.log).getLast? = some v → (s.datapoints r).value = v

def account (p : Path) (s : Service) : List Value := assignedTo p s.log ++ requests p s.pending

theorem RoundTakes.account_eq (h : RoundTakes p r e? s result)
    (hturn : (requests p s.pending).head? = (requests p s.pending).getLast?) :
    account p result.2 = account p s := by
  unfold account requests
  rw [h.assigned, h.events]
  cases e? with
  | none => simp
  | some e =>
    have hlast : (requestEvents p s.pending).getLast? = some e := by
      rcases h.last with hlast | ⟨hnone, -⟩
      · exact hlast.symm
      · cases hnone
    cases hevents : requestEvents p s.pending with
    | nil => simp [hevents] at hlast
    | cons e' events =>
      have hvalue : e'.value = e.value := by
        rw [requests, List.getLast?_map, hlast, hevents] at hturn
        simpa using hturn
      have hmem : e' ∈ requestEvents p s.pending := by simp [hevents]
      obtain rfl := request_ext hmem (List.mem_of_getLast? hlast) hvalue
      simp

theorem RoundTakes.length (h : RoundTakes p r e? s result) (hreturns : result.1 = some ()) :
    (requests p result.2.pending).length = (requests p s.pending).length - 1 := by
  have hlast : e? = (requestEvents p s.pending).getLast? := by
    rcases h.last with hlast | ⟨-, hnone⟩
    · exact hlast
    · simp [hreturns] at hnone
  simp only [requests, List.length_map, h.events]
  cases e? with
  | none =>
    have hnil := List.getLast?_eq_none_iff.mp hlast.symm
    simp [hnil]
  | some e => exact List.length_erase_of_mem (List.mem_of_getLast? hlast.symm)

theorem Attended.round (h : Attended script p r b s) (deltaTime : ℚ) :
    ∃ e?, RoundTakes p r e? s ((execute script deltaTime).exec s) ∧
      Attended script p r b ((execute script deltaTime).exec s).2 := by
  obtain ⟨e?, htakes, hrelay, hunrivalled⟩ := h.relay.round h.unrivalled h.requested deltaTime
  refine ⟨e?, htakes, hrelay, hunrivalled, fun e he => ?_, fun v hv => ?_⟩
  · rw [htakes.events] at he
    cases e? with
    | none => exact h.requested e he
    | some e' => exact h.requested e (List.mem_of_mem_erase he)
  · rw [htakes.assigned] at hv
    rw [htakes.value]
    cases e? with
    | none => exact h.current v (by simpa using hv)
    | some e' => simpa using hv

theorem Attended.environment {pending : List Event} (h : Attended script p r b s)
    (broker : Path → Option Value) (hv : ∀ e ∈ requestEvents p pending, e.value ≠ .none) :
    Attended script p r b { s with pending := pending, broker := broker } where
  relay := ⟨⟨h.relay.loaded.paths, h.relay.loaded.refs, h.relay.loaded.allocated, h.relay.loaded.path,
    h.relay.loaded.hasListener⟩, h.relay.element, h.relay.condition, h.relay.trigger, h.relay.action⟩
  unrivalled := ⟨h.unrivalled.trigger, h.unrivalled.avoids⟩
  requested := hv
  current := h.current

theorem receive_requests (p : Path) (name : EventType) (path : Path) (value : Value) (s : Service) :
    requests p (receive name path value s).pending =
      requests p s.pending ++ ((RoundInput.receive name path value).request? p).toList := by
  by_cases hvalue : value = .none
  · cases name <;> simp [receive, hvalue, RoundInput.request?]
  · cases name with
    | value => simp [receive, hvalue, RoundInput.request?, requests, requestEvents, Event.isFor]
    | actuatorTarget =>
      by_cases hpath : path = p
      · simp [receive, hvalue, RoundInput.request?, requests, requestEvents, Event.isFor, hpath]
      · simp [receive, hvalue, RoundInput.request?, requests, requestEvents, Event.isFor, hpath]

theorem Attended.received (h : Attended script p r b s) (name : EventType) (path : Path)
    (value : Value) : Attended script p r b (receive name path value s) := by
  unfold receive
  split
  · rename_i hvalue
    refine h.environment s.broker fun e he => ?_
    simp only [requestEvents, List.filter_append, List.mem_append] at he
    rcases he with he | he
    · exact h.requested e he
    · simp only [List.mem_filter, List.mem_singleton] at he
      rw [he.1]
      exact hvalue
  · exact h

/-- One step: requests are assigned in turn, and new ones join at the end. -/
theorem Attended.step {s t : Running} (h : Attended script p r b s.service) (hc : InTurn p s input)
    (hs : roundStep (execute script) s input = some t) :
    Attended script p r b t.service ∧
      account p t.service = account p s.service ++ (input.request? p).toList := by
  unfold roundStep at hs
  split at hs
  · cases hs
  · cases input with
    | round deltaTime =>
      simp only [Option.some.injEq] at hs
      subst hs
      obtain ⟨e?, htakes, hattended⟩ := h.round deltaTime
      exact ⟨hattended, by simpa [RoundInput.request?] using htakes.account_eq hc⟩
    | receive name path value =>
      simp only [Option.some.injEq] at hs
      subst hs
      refine ⟨h.received name path value, ?_⟩
      have hlog : (receive name path value s.service).log = s.service.log := by
        unfold receive
        split <;> rfl
      simp [account, receive_requests, hlog]
    | setExternally path value =>
      simp only [Option.some.injEq] at hs
      subst hs
      exact ⟨h.environment _ h.requested, by simp [account, setExternally, RoundInput.request?]⟩

theorem Attended.run {s t : Running} (h : Attended script p r b s.service)
    (hc : Along (roundStep (execute script)) (InTurn p) s inputs)
    (hrun : Atomic.run (roundStep (execute script)) s inputs = some t) :
    Attended script p r b t.service ∧
      account p t.service = account p s.service ++ requestsOf p inputs := by
  induction inputs generalizing s with
  | nil =>
    simp only [Atomic.run, Option.some.injEq] at hrun
    subst hrun
    exact ⟨h, by simp [requestsOf]⟩
  | cons input inputs ih =>
    cases hs : roundStep (execute script) s input with
    | none => simp [Atomic.run, hs] at hrun
    | some u =>
      rw [Atomic.along_cons hs] at hc
      rw [Atomic.run_cons hs] at hrun
      obtain ⟨hu, haccount⟩ := h.step hc.1 hs
      obtain ⟨ht, haccount'⟩ := ih hu hc.2 hrun
      refine ⟨ht, haccount'.trans ?_⟩
      rw [haccount, List.append_assoc]
      cases hr : input.request? p <;> simp [requestsOf, hr]

/-- In every run from a state without requests, in which nobody else takes
the path's requests and every round begins with its first request equal to
the last one: what was assigned and what is pending are the requests in the
order of their arrival, the last one is the value once none is pending, and a
round that returns takes one. -/
theorem requests_in_order (script : Script) (p : Path) (r : Ref) (b : Behavior)
    (inputs : List RoundInput) (s t : Running) (hrelay : Relay script p r b s.service)
    (hunrivalled : Unrivalled p b s.service) (hpending : requests p s.service.pending = [])
    (hlog : assignedTo p s.service.log = [])
    (hc : Along (roundStep (execute script)) (InTurn p) s inputs)
    (hrun : Atomic.run (roundStep (execute script)) s inputs = some t) :
    assignedTo p t.service.log ++ requests p t.service.pending = requestsOf p inputs ∧
      (requests p t.service.pending = [] → ∀ v, (requestsOf p inputs).getLast? = some v →
        (t.service.datapoints r).value = v) ∧
      ∀ deltaTime u, roundStep (execute script) t (.round deltaTime) = some u → u.raised = false →
        (requests p u.service.pending).length = (requests p t.service.pending).length - 1 := by
  have hnone : requestEvents p s.service.pending = [] := by simpa [requests] using hpending
  have hstart : Attended script p r b s.service :=
    ⟨hrelay, hunrivalled, by simp [hnone], by simp [hlog]⟩
  obtain ⟨hattended, haccount⟩ := hstart.run hc hrun
  simp only [account, hlog, hpending, List.append_nil, List.nil_append] at haccount
  refine ⟨haccount, fun hempty v hv => ?_, fun deltaTime u hu hreturns => ?_⟩
  · rw [hempty, List.append_nil] at haccount
    exact hattended.current v (haccount ▸ hv)
  · obtain ⟨e?, htakes, -⟩ := hattended.round deltaTime
    unfold roundStep at hu
    split at hu
    · cases hu
    · simp only [Option.some.injEq] at hu
      subst hu
      exact htakes.length (congrArg Prod.fst (Raise.exec_returned hreturns))

-- ---------------------------------------------------------------------------
-- Requests that pile up
-- ---------------------------------------------------------------------------

def Service.benchRelay : Service :=
  { Service.bench with
    heap := ⟨fun r => .event ⟨.actuatorTarget, if r = 0 then none else some "Horn"⟩,
      fun r => .set (if r = 0 then ⟨.text "$event.value", true⟩ else ⟨.number 1, false⟩)⟩
    datapoints := fun r => ⟨if r = 0 then "Lamp" else "Horn", some .uint8, .number 0, true⟩
    fresh := 2
    mocked := [("Lamp", ⟨0, true, [⟨0, 0, 0⟩]⟩), ("Horn", ⟨1, true, [⟨1, 0, 1⟩]⟩)] }

theorem relay_bench : Relay .bench "Lamp" 0 ⟨0, 0, 0⟩ .benchRelay where
  loaded := ⟨by decide, by decide, by decide, by decide, by decide⟩
  element := ⟨true, by decide⟩
  condition _ := rfl
  trigger := .inl rfl
  action := rfl

theorem unrivalled_bench : Unrivalled "Lamp" ⟨0, 0, 0⟩ .benchRelay where
  trigger := by decide
  avoids := by
    simp only [Service.benchRelay, Trigger.Avoids]
    decide

def benchInTurn : List RoundInput :=
  [.receive .actuatorTarget "Lamp" (.number 1), .receive .actuatorTarget "Horn" (.number 9), .round 1,
    .receive .actuatorTarget "Lamp" (.number 2), .round 1]

theorem requests_in_order_bench :
    ∃ t, Atomic.run (roundStep (execute .bench)) ⟨.benchRelay, false⟩ benchInTurn = some t ∧
      assignedTo "Lamp" t.service.log ++ requests "Lamp" t.service.pending = [.number 1, .number 2] ∧
      (t.service.datapoints 0).value = .number 2 := by
  refine ⟨_, rfl, ?_⟩
  obtain ⟨haccount, hvalue, -⟩ := requests_in_order .bench "Lamp" 0 ⟨0, 0, 0⟩ benchInTurn
    ⟨.benchRelay, false⟩ _ relay_bench unrivalled_bench rfl rfl (by decide) rfl
  exact ⟨haccount, hvalue rfl _ rfl⟩

/-- Two requests arrive before a round. -/
def benchPiledUp : List RoundInput :=
  [.receive .actuatorTarget "Lamp" (.number 1), .receive .actuatorTarget "Lamp" (.number 2), .round 1,
    .round 1]

/-- The second one is assigned first, and the lamp ends with the first. -/
theorem last_request_first :
    Relay .bench "Lamp" 0 ⟨0, 0, 0⟩ .benchRelay ∧ Unrivalled "Lamp" ⟨0, 0, 0⟩ .benchRelay ∧
    ∃ t, Atomic.run (roundStep (execute .bench)) ⟨.benchRelay, false⟩ benchPiledUp = some t ∧
      requestsOf "Lamp" benchPiledUp = [.number 1, .number 2] ∧
      requests "Lamp" t.service.pending = [] ∧
      assignedTo "Lamp" t.service.log = [.number 2, .number 1] ∧
      (t.service.datapoints 0).value = .number 1 := by
  exact ⟨relay_bench, unrivalled_bench, _, rfl, by decide, by decide, by decide, by decide⟩

end KuksaServices.Mock
