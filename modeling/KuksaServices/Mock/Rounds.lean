import KuksaServices.Mock.Loader

/-!
# Rounds of the executor

The DSL documents that a condition is looked at after its trigger has become
active. `executeReference` is an executor that does so: every trigger is
checked in every round. `BehaviorExecutor.execute` looks at the condition
first and leaves a datapoint at its first active behavior, and so skips
checks. As long as the skipped checks would have done nothing it agrees with
the reference in every round (`execute_follows_reference`).
-/

namespace KuksaServices.Mock

open Atomic (Raise Along)

-- ---------------------------------------------------------------------------
-- The documented executor
-- ---------------------------------------------------------------------------

section
variable (script : Script)

/-- Checks the trigger in any case; `executed` once a behavior of the
datapoint has run. -/
def visitReference (path : Path) (r : Ref) (deltaTime : ℚ) (b : Behavior) (executed : Bool) :
    Py Bool := do
  let result ← checkTrigger b path deltaTime
  if executed then pure true
  else do
    let fulfilled ← isConditionFulfilled script b path deltaTime
    if result.isActive && fulfilled then do
      runBehavior script b result r path
      pure true
    else pure false

def visitAll (path : Path) (r : Ref) (deltaTime : ℚ) : List Behavior → Bool → Py Unit
  | [], _ => pure ()
  | b :: bs, executed => do
    let executed ← visitReference script path r deltaTime b executed
    visitAll path r deltaTime bs executed

def executeReference (deltaTime : ℚ) : Py Unit := do
  let mocked ← Raise.peek .loop (·.mocked)
  Raise.forEach mocked fun element =>
    visitAll script element.1 element.2.datapoint deltaTime element.2.behaviors false

end

-- ---------------------------------------------------------------------------
-- Checks that may be skipped
-- ---------------------------------------------------------------------------

variable {script : Script} {path : Path} {deltaTime : ℚ} {s : Service} {b : Behavior}

/-- The check of the trigger would change neither it nor the events. -/
def Idle (path : Path) (deltaTime : ℚ) (s : Service) (b : Behavior) : Prop :=
  ((s.heap.triggers b.trigger).check path deltaTime s.pending).2 = (s.heap.triggers b.trigger, s.pending)

instance (path : Path) (deltaTime : ℚ) (s : Service) : DecidablePred (Idle path deltaTime s) :=
  fun _ => inferInstanceAs (Decidable (_ = _))

def contextOf (path : Path) (deltaTime : ℚ) (s : Service) : ExecutionContext :=
  ⟨path, s.pending, deltaTime, s.broker⟩

/-- A condition that is not fulfilled skips an idle check only, and one that
is fulfilled does not depend on the event that its trigger takes. -/
def Harmless (script : Script) (path : Path) (deltaTime : ℚ) (s : Service) (b : Behavior) : Prop :=
  let answer := script.condition b.condition (contextOf path deltaTime s)
  let checked := (checkTriggerOf b path deltaTime s).2
  (answer.1 = true → script.condition b.condition (contextOf path deltaTime checked) = answer) ∧
    (answer.1 = false → Idle path deltaTime s b)

instance (path : Path) (deltaTime : ℚ) (s : Service) :
    DecidablePred (Harmless script path deltaTime s) :=
  fun _ => inferInstanceAs (Decidable (_ ∧ _))

/-- Along the behaviors of one datapoint, in the states that the executor
comes to them in. After its `break` all checks left are idle. -/
def HarmlessVisits (script : Script) (path : Path) (r : Ref) (deltaTime : ℚ) :
    List Behavior → Service → Prop
  | [], _ => True
  | b :: bs, s => Harmless script path deltaTime s b ∧
    match (visitBehavior script path r deltaTime b).exec s with
    | (some true, t) => ∀ c ∈ bs, Idle path deltaTime t c
    | (some false, t) => HarmlessVisits script path r deltaTime bs t
    | (none, _) => True

def HarmlessElements (script : Script) (deltaTime : ℚ) :
    List (Path × MockedDataPoint) → Service → Prop
  | [], _ => True
  | element :: elements, s =>
    HarmlessVisits script element.1 element.2.datapoint deltaTime element.2.behaviors s ∧
      match (executeElement script deltaTime element).exec s with
      | (some _, t) => HarmlessElements script deltaTime elements t
      | (none, _) => True

-- ---------------------------------------------------------------------------
-- One datapoint
-- ---------------------------------------------------------------------------

theorem lastMatch_of_removed (h : removeLastMatch name path pending = pending) :
    lastMatch name path pending = none := by
  cases hl : lastMatch name path pending with
  | none => rfl
  | some e =>
    simp only [removeLastMatch, hl, Option.elim_some] at h
    have hlength := List.length_erase_of_mem (lastMatch_mem hl)
    have hpos := List.length_pos_of_mem (lastMatch_mem hl)
    rw [h] at hlength
    omega

theorem setTrigger_self (s : Service) (r : Ref) : s.setTrigger r (s.heap.triggers r) = s := by
  simp [Service.setTrigger, Function.update_eq_self]

theorem checkTriggerOf_idle (h : Idle path deltaTime s b) :
    (checkTriggerOf b path deltaTime s).2 = s := by
  unfold Idle at h
  unfold checkTriggerOf
  cases ht : s.heap.triggers b.trigger with
  | clock t =>
    rw [ht] at h
    simp only [Trigger.check, Prod.mk.injEq, Trigger.clock.injEq, and_true] at h
    simp only [Trigger.check, h]
    rw [← ht, setTrigger_self]
  | event t =>
    rw [ht] at h
    simp only [Trigger.check, EventTrigger.check, Prod.mk.injEq] at h
    have hnone := lastMatch_of_removed h.2
    simp only [Trigger.check, EventTrigger.check, h, hnone]
    rw [← ht, setTrigger_self]

/-- A check and a look at a condition that gives the same either way can
change places. -/
theorem checkTriggerOf_evaluate (b : Behavior) (path : Path) (deltaTime : ℚ) (registry : Registry)
    (s : Service) : checkTriggerOf b path deltaTime { s with registry := registry } =
      ((checkTriggerOf b path deltaTime s).1,
        { (checkTriggerOf b path deltaTime s).2 with registry := registry }) := by
  unfold checkTriggerOf
  dsimp only
  split <;> rfl

theorem checkTriggerOf_registry : (checkTriggerOf b path deltaTime s).2.registry = s.registry := by
  unfold checkTriggerOf
  dsimp only
  split <;> rfl

theorem visit_eq (r : Ref) (h : Harmless script path deltaTime s b) :
    (visitBehavior script path r deltaTime b).exec s =
      (visitReference script path r deltaTime b false).exec s := by
  obtain ⟨hsame, hidle⟩ := h
  cases hc : (script.condition b.condition (contextOf path deltaTime s)).1 with
  | false =>
    have hchecked := checkTriggerOf_idle (hidle hc)
    simp only [contextOf] at hc
    simp [visitBehavior, visitReference, isConditionFulfilled, checkTrigger, evaluateCondition,
      hchecked, hc]
  | true =>
    have hsame := hsame hc
    simp only [contextOf] at hc hsame
    simp [visitBehavior, visitReference, isConditionFulfilled, checkTrigger, evaluateCondition,
      hsame, hc, checkTriggerOf_evaluate, checkTriggerOf_registry]

theorem visitAll_idle (r : Ref) (h : ∀ c ∈ bs, Idle path deltaTime s c) :
    (visitAll script path r deltaTime bs true).exec s = (some (), s) := by
  induction bs with
  | nil => rfl
  | cons c bs ih =>
    have hchecked := checkTriggerOf_idle (h c List.mem_cons_self)
    have hrest := ih fun c hc => h c (List.mem_cons_of_mem _ hc)
    simp [visitAll, visitReference, checkTrigger, hchecked, hrest]

theorem visits_eq (r : Ref) (h : HarmlessVisits script path r deltaTime bs s) :
    (Raise.forUntil bs (visitBehavior script path r deltaTime)).exec s =
      (visitAll script path r deltaTime bs false).exec s := by
  induction bs generalizing s with
  | nil => rfl
  | cons b bs ih =>
    obtain ⟨hb, hbs⟩ := h
    have hvisit := visit_eq r hb
    rw [Raise.forUntil, visitAll, Raise.exec_bind, Raise.exec_bind, ← hvisit]
    rcases hv : (visitBehavior script path r deltaTime b).exec s with ⟨_ | stop, t⟩
    · rfl
    · rw [hv] at hbs
      cases stop with
      | true => exact (visitAll_idle r hbs).symm
      | false => exact ih hbs

-- ---------------------------------------------------------------------------
-- Rounds
-- ---------------------------------------------------------------------------

theorem elements_eq (h : HarmlessElements script deltaTime elements s) :
    (Raise.forEach elements (executeElement script deltaTime)).exec s =
      (Raise.forEach elements fun element => visitAll script element.1 element.2.datapoint deltaTime
        element.2.behaviors false).exec s := by
  induction elements generalizing s with
  | nil => rfl
  | cons element elements ih =>
    obtain ⟨helement, hrest⟩ := h
    have hvisits : (executeElement script deltaTime element).exec s = _ := visits_eq _ helement
    rw [Raise.forEach, Raise.forEach, Raise.exec_bind, Raise.exec_bind, ← hvisits]
    rcases hv : (executeElement script deltaTime element).exec s with ⟨_ | _, t⟩
    · rfl
    · rw [hv] at hrest
      exact ih hrest

/-- Between two rounds events arrive and others set values at the broker. -/
inductive RoundInput where
  | round (deltaTime : ℚ)
  | receive (name : EventType) (path : Path) (value : Value)
  | setExternally (path : Path) (value : Value)
  deriving DecidableEq, Repr

structure Running where
  service : Service
  raised : Bool

def roundStep (executor : ℚ → Py Unit) (s : Running) (input : RoundInput) : Option Running :=
  if s.raised then none
  else match input with
    | .round deltaTime =>
      let (result, t) := (executor deltaTime).exec s.service
      some ⟨t, result.isNone⟩
    | .receive name path value => some { s with service := receive name path value s.service }
    | .setExternally path value => some { s with service := setExternally path value s.service }

def HarmlessRound (script : Script) (s : Running) : RoundInput → Prop
  | .round deltaTime => HarmlessElements script deltaTime s.service.mocked s.service
  | _ => True

theorem execute_eq (h : HarmlessElements script deltaTime s.mocked s) :
    (execute script deltaTime).exec s = (executeReference script deltaTime).exec s := by
  simp [execute, executeReference, elements_eq h]

theorem roundStep_eq {s : Running} (h : HarmlessRound script s input) :
    roundStep (execute script) s input = roundStep (executeReference script) s input := by
  cases input with
  | round deltaTime => simp only [roundStep, execute_eq h]
  | receive name path value => rfl
  | setExternally path value => rfl

/-- From every state, in every run whose rounds skip idle checks only. -/
theorem execute_follows_reference (script : Script) (inputs : List RoundInput) (s : Running)
    (h : Along (roundStep (execute script)) (HarmlessRound script) s inputs) :
    Atomic.run (roundStep (execute script)) s inputs =
      Atomic.run (roundStep (executeReference script)) s inputs := by
  refine h.run_eq (fun s input t hc hs => ?_) (fun s input hs => ?_)
  · rw [← roundStep_eq hc]
    exact hs
  · cases hr : s.raised with
    | true => simp [roundStep, hr]
    | false => cases input <;> simp [roundStep, hr] at hs

-- ---------------------------------------------------------------------------
-- A condition that opens late
-- ---------------------------------------------------------------------------

/-- Condition 0 always holds, and 1 while the gate is open. -/
def Script.bench : Script where
  condition r context :=
    if r = 1 then (context.client "Gate" == some (.number 1), ["Gate"]) else (true, [])
  interp1d _ _ := none
  dataType _ := some .uint8
  mockPy _ := []

def Service.bench : Service where
  heap := ⟨fun _ => .event ⟨.actuatorTarget, some "Lamp"⟩, fun _ => .set ⟨.text "$event.value", true⟩⟩
  datapoints _ := ⟨"Lamp", some .uint8, .number 0, true⟩
  fresh := 1
  registry := ⟨[⟨"Lamp", .number 0, 0⟩], fun _ => [⟨0, 1, 0⟩], ["Gate"]⟩
  mocked := [("Lamp", ⟨0, true, [⟨0, 1, 0⟩]⟩)]
  pending := []
  registered := true
  loads := 1
  subscriptions := [["Lamp", "Gate"]]
  broker _ := none
  log := []

def Deed.executed? : Deed → Option (Path × Behavior)
  | .executed path b => some (path, b)
  | _ => none

def executedOf (log : List Deed) : List (Path × Behavior) := log.filterMap Deed.executed?

def benchOpenGate : List RoundInput :=
  [.round 1, .setExternally "Gate" (.number 1), .receive .actuatorTarget "Lamp" (.number 5), .round 1,
    .setExternally "Gate" (.number 0), .round 1]

instance HarmlessVisits.decidable (path : Path) (r : Ref) (deltaTime : ℚ) :
    (bs : List Behavior) → (s : Service) →
      Decidable (HarmlessVisits script path r deltaTime bs s)
  | [], _ => inferInstanceAs (Decidable True)
  | b :: bs, s =>
    have : Decidable (match (visitBehavior script path r deltaTime b).exec s with
        | (some true, t) => ∀ c ∈ bs, Idle path deltaTime t c
        | (some false, t) => HarmlessVisits script path r deltaTime bs t
        | (none, _) => True) :=
      match (visitBehavior script path r deltaTime b).exec s with
      | (some true, t) => inferInstanceAs (Decidable (∀ c ∈ bs, Idle path deltaTime t c))
      | (some false, t) => HarmlessVisits.decidable path r deltaTime bs t
      | (none, _) => inferInstanceAs (Decidable True)
    inferInstanceAs (Decidable (_ ∧ _))

instance HarmlessElements.decidable (deltaTime : ℚ) :
    (elements : List (Path × MockedDataPoint)) → (s : Service) →
      Decidable (HarmlessElements script deltaTime elements s)
  | [], _ => inferInstanceAs (Decidable True)
  | element :: elements, s =>
    have : Decidable (match (executeElement script deltaTime element).exec s with
        | (some _, t) => HarmlessElements script deltaTime elements t
        | (none, _) => True) :=
      match (executeElement script deltaTime element).exec s with
      | (some _, t) => HarmlessElements.decidable deltaTime elements t
      | (none, _) => inferInstanceAs (Decidable True)
    inferInstanceAs (Decidable (_ ∧ _))

instance (s : Running) : DecidablePred (HarmlessRound script s)
  | .round _ => HarmlessElements.decidable ..
  | .receive .. | .setExternally .. => inferInstanceAs (Decidable True)

theorem execute_follows_reference_bench :
    Along (roundStep (execute .bench)) (HarmlessRound .bench) ⟨.bench, false⟩ benchOpenGate ∧
      Atomic.run (roundStep (execute .bench)) ⟨.bench, false⟩ benchOpenGate =
        Atomic.run (roundStep (executeReference .bench)) ⟨.bench, false⟩ benchOpenGate ∧
      (Atomic.run (roundStep (execute .bench)) ⟨.bench, false⟩ benchOpenGate).map
        (fun s => executedOf s.service.log) = some [("Lamp", ⟨0, 1, 0⟩)] :=
  ⟨by decide, execute_follows_reference _ _ _ (by decide), by decide⟩

/-- The request comes while the gate is closed. -/
def benchLateGate : List RoundInput :=
  [.receive .actuatorTarget "Lamp" (.number 5), .round 1, .setExternally "Gate" (.number 1), .round 1]

/-- The behavior is executed a round later; the reference has taken the event
in the first round and executes nothing. -/
theorem event_outlives_condition :
    ∃ s t, Atomic.run (roundStep (execute .bench)) ⟨.bench, false⟩ benchLateGate = some s ∧
      Atomic.run (roundStep (executeReference .bench)) ⟨.bench, false⟩ benchLateGate = some t ∧
      executedOf s.service.log = [("Lamp", ⟨0, 1, 0⟩)] ∧ executedOf t.service.log = [] ∧
      s.service.pending = t.service.pending := by
  exact ⟨_, _, rfl, rfl, by decide, by decide, by decide⟩

end KuksaServices.Mock
