import KuksaServices.Mock.Loader

/-!
# Rules for the programs of the service

A program made of others keeps to a frame when its parts do. There is one rule
for each such program; what is asked for are the single actions.
-/

namespace KuksaServices.Mock

open Atomic (Raise Frame)

variable {script : Script} {F : Frame Service} {r action : Ref} {b : Behavior}

-- ---------------------------------------------------------------------------
-- Actions
-- ---------------------------------------------------------------------------

theorem resolveValue_within (hrequire : ∀ s path, F.on s → F.does s (s.require path))
    (trigger : TriggerResult) (path : Path) (value : Value) :
    Raise.Within F (resolveValue trigger path value) := by
  intro s hs
  simp only [resolveValue, Raise.exec_attempt]
  split
  · split
    · split_ifs
      · exact hrequire s _ hs
      · split <;> exact F.refl s
      · exact hrequire s _ hs
    · exact F.refl s
  · exact F.refl s

theorem resolveValues_within (hrequire : ∀ s path, F.on s → F.does s (s.require path))
    (trigger : TriggerResult) (path : Path) (values : List Value) :
    Raise.Within F (resolveValues trigger path values) := by
  induction values with
  | nil => exact .pure _
  | cons value values ih =>
    refine .bind (resolveValue_within hrequire trigger path value) fun _ => ?_
    exact .bind ih fun _ => .pure _

theorem SetAction.execute_within (hrequire : ∀ s path, F.on s → F.does s (s.require path))
    (hset : ∀ value, Raise.Within F (setValue r value)) (a : SetAction) (trigger : TriggerResult)
    (path : Path) : Raise.Within F (a.execute trigger r path) := by
  refine .bind ?_ fun value => ?_
  · split
    · exact resolveValue_within hrequire trigger path a.value
    · exact .pure _
  · split
    · exact hset value
    · exact .pure _

theorem AnimationAction.values_within (hrequire : ∀ s path, F.on s → F.does s (s.require path))
    (a : AnimationAction) (trigger : TriggerResult) (path : Path) : Raise.Within F
      (if a.dynamic then resolveValues trigger path a.values else pure a.values) := by
  split
  · exact resolveValues_within hrequire trigger path a.values
  · exact .pure _

theorem AnimationAction.execute_within {a : AnimationAction}
    (hrequire : ∀ s path, F.on s → F.does s (s.require path))
    (hstart : ∀ s values animator, F.on s →
      ValueAnimator.new? script.interp1d values a.duration a.repeatMode r = some animator →
      F.does s (s.setAction action (.animation { a with animator := some animator })))
    (trigger : TriggerResult) (path : Path) : Raise.Within F (a.execute script action trigger r path) := by
  refine .bind (.peek _ _) fun discrete => ?_
  split
  · exact .pure _
  · refine .bind (a.values_within hrequire trigger path) fun values => fun s hs => ?_
    simp only [startAnimator, Raise.exec_attempt]
    split
    · rename_i animator hnew
      exact hstart s values animator hs hnew
    · exact F.refl s

theorem executeAction_within (hrequire : ∀ s path, F.on s → F.does s (s.require path))
    (hset : ∀ value, Raise.Within F (setValue r value))
    (hstart : ∀ s (a : AnimationAction) values animator, F.on s →
      ValueAnimator.new? script.interp1d values a.duration a.repeatMode r = some animator →
      F.does s (s.setAction b.action (.animation { a with animator := some animator })))
    (trigger : TriggerResult) (path : Path) : Raise.Within F (executeAction script b trigger r path) := by
  refine .bind (.peek _ _) fun action => ?_
  cases action with
  | set a => exact a.execute_within hrequire hset trigger path
  | animation a => exact AnimationAction.execute_within hrequire (fun s => hstart s a) trigger path

-- ---------------------------------------------------------------------------
-- The executor
-- ---------------------------------------------------------------------------

theorem visitBehavior_within {path : Path} {deltaTime : ℚ}
    (hcondition : ∀ s context, F.on s → F.does s (evaluateCondition script b context s).2)
    (hcheck : ∀ s, F.on s → F.does s (checkTriggerOf b path deltaTime s).2)
    (hrecord : ∀ s, F.on s → F.does s (s.record (.executed path b)))
    (haction : ∀ result, Raise.Within F (executeAction script b result r path)) :
    Raise.Within F (visitBehavior script path r deltaTime b) := by
  refine .bind (fun s hs => hcondition s _ hs) fun fulfilled => ?_
  split
  · refine .bind (fun s hs => hcheck s hs) fun result => ?_
    split
    · refine .bind ?_ fun _ => .pure _
      exact .bind (fun s hs => hrecord s hs) fun _ => haction result
    · exact .pure _
  · exact .pure _

-- ---------------------------------------------------------------------------
-- Loading
-- ---------------------------------------------------------------------------

theorem loadMockedDatapoints_within
    (hallocate : ∀ s d, d.hasListener = false → F.on s → F.does s (s.allocate d))
    (ds : List Registration) : Raise.Within F (loadMockedDatapoints script ds) := by
  induction ds with
  | nil => exact .pure _
  | cons d ds ih =>
    refine .bind (fun s _ => F.refl s) fun dataType => ?_
    refine .bind (fun s hs => hallocate s _ rfl hs) fun r => ?_
    exact .bind ih fun rest => .pure _

theorem loadBehaviors_within (hforce : ∀ d dataType b, Raise.Within F (forceBehavior script d dataType b))
    (d : Registration) : Raise.Within F (loadBehaviors script d) := by
  refine .bind (fun s _ => F.refl s) fun dataType => ?_
  split
  · refine .bind (.peek _ _) fun behaviors => .bind ?_ fun _ => .pure _
    exact .forEach fun b _ => hforce d dataType b
  · exact .pure _

theorem loadAllBehaviors_within
    (hforce : ∀ d dataType b, Raise.Within F (forceBehavior script d dataType b))
    (l : List (Registration × (Path × MockedDataPoint))) : Raise.Within F (loadAllBehaviors script l) := by
  induction l with
  | nil => exact .pure _
  | cons x l ih =>
    refine .bind (loadBehaviors_within hforce x.1) fun behaviors => ?_
    exact .bind ih fun rest => .pure _

theorem loadRequired_within (hallocate : ∀ s d, d.hasListener = false → F.on s → F.does s (s.allocate d))
    (known paths : List Path) : Raise.Within F (loadRequired known paths) := by
  induction paths with
  | nil => exact .pure _
  | cons path paths ih =>
    unfold loadRequired
    split
    · exact ih
    · refine .bind (fun s hs => hallocate s _ rfl hs) fun r => ?_
      exact .bind ih fun rest => .pure _

/-- `load` once `mock.py` was executed. -/
def loadRegistry (script : Script) : Py (List (Path × MockedDataPoint)) := do
  let registrations ← Raise.peek .load (·.registry.mocked)
  let mocked ← loadMockedDatapoints script registrations
  let mocked ← loadAllBehaviors script (registrations.zip mocked)
  let required ← Raise.peek .load (·.registry.required)
  let others ← loadRequired (registrations.map (·.path)) required
  pure (mocked ++ others)

theorem exec_load (script : Script) (s : Service) :
    (load script).exec s = (loadRegistry script).exec (runMockPy script s) := rfl

theorem loadRegistry_within
    (hallocate : ∀ s d, d.hasListener = false → F.on s → F.does s (s.allocate d))
    (hforce : ∀ d dataType b, Raise.Within F (forceBehavior script d dataType b)) :
    Raise.Within F (loadRegistry script) := by
  refine .bind (.peek _ _) fun registrations => ?_
  refine .bind (loadMockedDatapoints_within hallocate _) fun mocked => ?_
  refine .bind (loadAllBehaviors_within hforce _) fun mocked => ?_
  refine .bind (.peek _ _) fun required => ?_
  exact .bind (loadRequired_within hallocate _ _) fun others => .pure _

end KuksaServices.Mock
