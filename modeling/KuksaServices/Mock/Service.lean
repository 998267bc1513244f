import KuksaServices.Atomic.Raise
import KuksaServices.Mock.Dsl

/-!
# The mock service

`BehaviorExecutor`, the actions, `PythonDslLoader` and `MockService`: the
methods are programs of atomic actions on the service, in the order of the
source, and other threads may come between two actions. A program that raises
ends the main loop; so does an RPC that fails, and what follows here is about
calls that succeed.

What the service meets outside is a `Script`: the condition functions, scipy,
the metadata of the broker, and `mock.py`, which is executed anew with every
load. The state also keeps a log of what was done; the code reads none of it.
-/

namespace KuksaServices.Mock

open Atomic (Raise)

-- ---------------------------------------------------------------------------
-- State
-- ---------------------------------------------------------------------------

structure ExecutionContext where
  callingSignalPath : Path
  pendingEventList : List Event
  deltaTime : ℚ
  client : Path → Option Value

structure Script where
  /-- The value of a condition and the paths it reads. -/
  condition : Ref → ExecutionContext → Bool × List Path
  interp1d : Interp1d
  dataType : Path → Option DataType
  /-- The calls made by the `n`-th execution of `mock.py`. -/
  mockPy : Nat → List Edit

structure MockedDataPoint where
  datapoint : Ref
  isMocked : Bool
  behaviors : List Behavior
  deriving DecidableEq, Repr

inductive Deed where
  | consumed (event : Event)
  | executed (path : Path) (behavior : Behavior)
  /-- `set_value`, on a datapoint with or without a listener. -/
  | assigned (path : Path) (listened : Bool) (value : Value)
  | wrote (path : Path) (value : Value)
  | discarded (event : Event)
  deriving DecidableEq, Repr

/-- `subscriptions` has the paths of each subscription made so far. -/
structure Service where
  heap : Heap
  datapoints : Ref → DataPoint
  fresh : Ref
  registry : Registry
  mocked : List (Path × MockedDataPoint)
  pending : List Event
  registered : Bool
  loads : Nat
  subscriptions : List (List Path)
  broker : Path → Option Value
  log : List Deed

def Service.record (s : Service) (deed : Deed) : Service := { s with log := s.log ++ [deed] }

def Service.setTrigger (s : Service) (r : Ref) (t : Trigger) : Service :=
  { s with heap := { s.heap with triggers := Function.update s.heap.triggers r t } }

def Service.setAction (s : Service) (r : Ref) (a : Action) : Service :=
  { s with heap := { s.heap with actions := Function.update s.heap.actions r a } }

def Service.require (s : Service) (path : Path) : Service :=
  { s with registry := s.registry.require path }

def Service.allocate (s : Service) (d : DataPoint) : Service :=
  { s with datapoints := Function.update s.datapoints s.fresh d, fresh := s.fresh + 1 }

inductive Site where
  | loop
  | condition
  | check
  | execute
  | resolve
  | animator
  | assign
  | write
  | scan
  | load
  deriving DecidableEq, Repr

abbrev Py := Raise Site Service

-- ---------------------------------------------------------------------------
-- Datapoints and the broker
-- ---------------------------------------------------------------------------

def writeBroker (path : Path) (value : Value) (s : Service) : Service :=
  { s with broker := Function.update s.broker path (some value) }.record (.wrote path value)

/-- The end of `_set_datapoint`. -/
def discardEvent (path : Path) (s : Service) : Service :=
  (lastMatch .value path s.pending).elim s fun e =>
    { s with pending := removeLastMatch .value path s.pending }.record (.discarded e)

def setDatapoint (path : Path) (value : Value) : Py Unit := do
  Raise.atomic .write fun s => ((), writeBroker path value s)
  Raise.atomic .scan fun s => ((), discardEvent path s)

/-- The assignment of `set_value`, and whether a listener hears of it. -/
def assignValue (r : Ref) (value : Value) (s : Service) : Bool × Service :=
  let d := s.datapoints r
  let s := s.record (.assigned d.path d.hasListener value)
  if d.value ≠ value then
    (d.hasListener, { s with datapoints := Function.update s.datapoints r { d with value := value } })
  else (false, s)

/-- `DataPoint.set_value`; the listener is `_on_datapoint_updated`. -/
def setValue (r : Ref) (newValue : Value) : Py Unit := do
  let heard ← Raise.atomic .assign (assignValue r newValue)
  if heard then do
    let d ← Raise.peek .assign fun s => s.datapoints r
    setDatapoint d.path d.value
  else pure ()

def getDatapointValue (path : Path) (s : Service) : Value × Service :=
  ((s.broker path).getD (.number 0), s.require path)

-- ---------------------------------------------------------------------------
-- Actions
-- ---------------------------------------------------------------------------

def resolveValue (trigger : TriggerResult) (path : Path) (value : Value) : Py Value :=
  Raise.attempt .resolve fun s => match value with
    | .text t => match t.toList with
      | '$' :: name =>
        if t = "$self" then
          let (value, s) := getDatapointValue path s
          (some value, s)
        else if t = "$event.value" then match trigger with
          | .event (some e) => (some e.value, s)
          | _ => (none, s)
        else
          let (value, s) := getDatapointValue (String.ofList name) s
          (some value, s)
      | _ => (some value, s)
    | value => (some value, s)

def resolveValues (trigger : TriggerResult) (path : Path) : List Value → Py (List Value)
  | [] => pure []
  | value :: values => do
    let value ← resolveValue trigger path value
    let values ← resolveValues trigger path values
    pure (value :: values)

def SetAction.execute (a : SetAction) (trigger : TriggerResult) (r : Ref) (path : Path) : Py Unit := do
  let value ← (if a.dynamic then resolveValue trigger path a.value else pure a.value)
  if value ≠ .none then setValue r value else pure ()

variable (script : Script)

def startAnimator (action : Ref) (a : AnimationAction) (values : List Value) (r : Ref) : Py Unit :=
  Raise.attempt .animator fun s =>
    match ValueAnimator.new? script.interp1d values a.duration a.repeatMode r with
    | some animator => (some (), s.setAction action (.animation { a with animator := some animator }))
    | none => (none, s)

def AnimationAction.execute (a : AnimationAction) (action : Ref) (trigger : TriggerResult) (r : Ref)
    (path : Path) : Py Unit := do
  let discrete ← Raise.peek .animator fun s => (s.datapoints r).hasDiscreteValueType
  -- for a discrete type the error is only logged
  if discrete then pure ()
  else do
    let values ← (if a.dynamic then resolveValues trigger path a.values else pure a.values)
    startAnimator script action a values r

/-- `Behavior.execute` on the datapoint at `r`. -/
def executeAction (b : Behavior) (trigger : TriggerResult) (r : Ref) (path : Path) : Py Unit := do
  let action ← Raise.peek .execute fun s => s.heap.actions b.action
  match action with
  | .set a => a.execute trigger r path
  | .animation a => a.execute script b.action trigger r path

-- ---------------------------------------------------------------------------
-- The executor
-- ---------------------------------------------------------------------------

def evaluateCondition (b : Behavior) (context : ExecutionContext) (s : Service) : Bool × Service :=
  let (value, reads) := script.condition b.condition context
  (value, { s with registry := s.registry.requireAll reads })

def isConditionFulfilled (b : Behavior) (path : Path) (deltaTime : ℚ) : Py Bool :=
  Raise.atomic .condition fun s =>
    evaluateCondition script b ⟨path, s.pending, deltaTime, s.broker⟩ s

def checkTriggerOf (b : Behavior) (path : Path) (deltaTime : ℚ) (s : Service) :
    TriggerResult × Service :=
  let (result, trigger, pending) := (s.heap.triggers b.trigger).check path deltaTime s.pending
  let s := { s.setTrigger b.trigger trigger with pending := pending }
  match result with
  | .event (some e) => (result, s.record (.consumed e))
  | _ => (result, s)

def checkTrigger (b : Behavior) (path : Path) (deltaTime : ℚ) : Py TriggerResult :=
  Raise.atomic .check (checkTriggerOf b path deltaTime)

def runBehavior (b : Behavior) (trigger : TriggerResult) (r : Ref) (path : Path) : Py Unit := do
  Raise.atomic .execute fun s => ((), s.record (.executed path b))
  executeAction script b trigger r path

/-- The body of the inner loop of `BehaviorExecutor.execute`; true for its
`break`. -/
def visitBehavior (path : Path) (r : Ref) (deltaTime : ℚ) (b : Behavior) : Py Bool := do
  let fulfilled ← isConditionFulfilled script b path deltaTime
  if fulfilled then do
    let result ← checkTrigger b path deltaTime
    if result.isActive then do
      runBehavior script b result r path
      pure true
    else pure false
  else pure false

def executeElement (deltaTime : ℚ) (element : Path × MockedDataPoint) : Py Unit :=
  Raise.forUntil element.2.behaviors
    (visitBehavior script element.1 element.2.datapoint deltaTime)

def execute (deltaTime : ℚ) : Py Unit := do
  let mocked ← Raise.peek .loop (·.mocked)
  Raise.forEach mocked (executeElement script deltaTime)

end KuksaServices.Mock
