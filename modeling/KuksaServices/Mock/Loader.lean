import KuksaServices.Mock.Service

/-!
# Loading and the main loop

`PythonDslLoader.load` builds the mocked datapoints from the registry and
executes every behavior once, on a datapoint of its own that nobody listens
to, so as to learn which paths it reads. `check_for_new_mocks` loads when it
finds the registry changed, and `main_loop` calls it before every round.
-/

namespace KuksaServices.Mock

open Atomic (Raise)

variable (script : Script)

-- ---------------------------------------------------------------------------
-- Loading
-- ---------------------------------------------------------------------------

def runMockPy (s : Service) : Service :=
  { s with
    registry := (script.mockPy s.loads).foldl (Edit.apply s.heap) s.registry
    loads := s.loads + 1 }

def getMetadata (path : Path) : Py DataType :=
  Raise.attempt .load fun s => (script.dataType path, s)

def newDatapoint (path : Path) (dataType : Option DataType) (value : Value) : Py Ref :=
  Raise.atomic .load fun s => (s.fresh, s.allocate ⟨path, dataType, value, false⟩)

def loadMockedDatapoints : List Registration → Py (List (Path × MockedDataPoint))
  | [] => pure []
  | d :: ds => do
    let dataType ← getMetadata script d.path
    let r ← newDatapoint d.path (some dataType) d.initialValue
    let rest ← loadMockedDatapoints ds
    pure ((d.path, ⟨r, true, []⟩) :: rest)

def forcedResult (path : Path) : Trigger → TriggerResult
  | .clock _ => .clock true
  | .event _ => .event (some ⟨.actuatorTarget, path, .none⟩)

def forceBehavior (d : Registration) (dataType : DataType) (b : Behavior) : Py Unit := do
  let _ ← Raise.atomic .condition fun s =>
    evaluateCondition script b ⟨d.path, [], 0, s.broker⟩ s
  let trigger ← Raise.peek .load fun s => forcedResult d.path (s.heap.triggers b.trigger)
  let r ← newDatapoint d.path (some dataType) d.initialValue
  executeAction script b trigger r d.path

def loadBehaviors (d : Registration) : Py (List Behavior) := do
  let dataType ← getMetadata script d.path
  if dataType.isSupported then do
    let behaviors ← Raise.peek .load fun s => s.registry.behaviors d
    Raise.forEach behaviors (forceBehavior script d dataType)
    pure behaviors
  else pure []

def loadAllBehaviors : List (Registration × (Path × MockedDataPoint)) →
    Py (List (Path × MockedDataPoint))
  | [] => pure []
  | (d, path, m) :: rest => do
    let behaviors ← loadBehaviors script d
    let rest ← loadAllBehaviors rest
    pure ((path, { m with behaviors := behaviors }) :: rest)

def loadRequired (known : List Path) : List Path → Py (List (Path × MockedDataPoint))
  | [] => pure []
  | path :: paths =>
    if path ∈ known then loadRequired known paths
    else do
      let r ← newDatapoint path none .none
      let rest ← loadRequired known paths
      pure ((path, ⟨r, false, []⟩) :: rest)

def load : Py (List (Path × MockedDataPoint)) := do
  Raise.atomic .load fun s => ((), runMockPy script s)
  let registrations ← Raise.peek .load (·.registry.mocked)
  let mocked ← loadMockedDatapoints script registrations
  let mocked ← loadAllBehaviors script (registrations.zip mocked)
  let required ← Raise.peek .load (·.registry.required)
  let others ← loadRequired (registrations.map (·.path)) required
  pure (mocked ++ others)

-- ---------------------------------------------------------------------------
-- Looking for changes
-- ---------------------------------------------------------------------------

/-- The first comparison of `check_for_new_mocks`, of two sets of paths. -/
def samePaths (s : Service) : Bool :=
  let new := s.registry.paths ++ s.registry.required
  let old := s.mocked.map (·.1)
  old.all (· ∈ new) && new.all (· ∈ old)

/-- The second one, of the behaviors of every registration. -/
def sameMocks (s : Service) : Bool :=
  s.registry.mocked.all fun d => match s.mocked.lookup d.path with
    | some m => s.heap.sameBehaviors (s.registry.behaviors d) m.behaviors
    | none => false

def isChanged (s : Service) : Bool := !(samePaths s && sameMocks s)

def listenTo (s : Service) (mocked : List (Path × MockedDataPoint)) : Ref → DataPoint :=
  mocked.foldl (fun datapoints m =>
    Function.update datapoints m.2.datapoint { datapoints m.2.datapoint with hasListener := true })
    s.datapoints

def adopt (mocked : List (Path × MockedDataPoint)) (s : Service) : Service :=
  { s with
    mocked := mocked
    datapoints := listenTo s mocked
    subscriptions := if mocked.isEmpty then s.subscriptions
      else s.subscriptions ++ [mocked.map (·.1)]
    registered := true }

def reload : Py Unit := do
  let mocked ← load script
  Raise.atomic .load fun s => ((), adopt mocked s)

def checkForNewMocks (changed : Bool) : Py Unit := do
  let changed ← Raise.peek .load fun s => changed || isChanged s
  if changed then reload script else pure ()

-- ---------------------------------------------------------------------------
-- The main loop
-- ---------------------------------------------------------------------------

/-- The part of the main loop that plays the animation of a behavior. -/
def animateBehavior (deltaTime : ℚ) (b : Behavior) : Py Unit := do
  let action ← Raise.peek .animator fun s => s.heap.actions b.action
  match action with
  | .set _ => pure ()
  | .animation a => match a.animator with
    | none => Raise.raise
    | some animator =>
      if animator.done then pure ()
      else do
        let animator := animator.tick script.interp1d deltaTime
        Raise.atomic .animator fun s =>
          ((), s.setAction b.action (.animation { a with animator := some animator }))
        setValue animator.datapoint animator.value

def animate (deltaTime : ℚ) : Py Unit := do
  let mocked ← Raise.peek .loop (·.mocked)
  Raise.forEach mocked fun element => Raise.forEach element.2.behaviors (animateBehavior script deltaTime)

/-- One turn of `main_loop`. -/
def tick (deltaTime : ℚ) : Py Unit := do
  checkForNewMocks script false
  execute script deltaTime
  animate script deltaTime

def feedInitialValues : Py Unit := do
  let mocked ← Raise.peek .loop (·.mocked)
  Raise.forEach mocked fun element => do
    let d ← Raise.peek .loop fun s => s.datapoints element.2.datapoint
    if d.dataType.isSome then setDatapoint d.path d.value else pure ()

def onDatabrokerConnected : Py Unit := do
  let registered ← Raise.peek .load (·.registered)
  if registered then pure ()
  else do
    checkForNewMocks script true
    feedInitialValues

-- ---------------------------------------------------------------------------
-- The other threads
-- ---------------------------------------------------------------------------

/-- `_mock_update_request_handler` for one update. -/
def receive (name : EventType) (path : Path) (value : Value) (s : Service) : Service :=
  if value ≠ .none then { s with pending := s.pending ++ [⟨name, path, value⟩] } else s

def setExternally (path : Path) (value : Value) (s : Service) : Service :=
  { s with broker := Function.update s.broker path (some value) }

def edit (e : Edit) (s : Service) : Service := { s with registry := e.apply s.heap s.registry }

end KuksaServices.Mock
