import Mathlib.Data.Rat.Defs

/-!
# The objects of the mock service

The classes of `lib/`: triggers, actions with their animators, behaviors and
datapoints, each with the methods that touch the object alone. Objects that
are shared are referred to by a `Ref`. Python values are numbers (booleans
too, which compare as 0 and 1), strings and `None`; times are rationals.
-/

namespace KuksaServices.Mock

abbrev Path := String
abbrev Ref := Nat

inductive Value where
  | none
  | number (q : ℚ)
  | text (s : String)
  deriving DecidableEq, Repr

-- ---------------------------------------------------------------------------
-- Events
-- ---------------------------------------------------------------------------

inductive EventType where
  | actuatorTarget
  | value
  deriving DecidableEq, Repr

structure Event where
  name : EventType
  path : Path
  value : Value
  deriving DecidableEq, Repr

def Event.isFor (name : EventType) (path : Path) (e : Event) : Bool :=
  e.name == name && e.path == path

/-- The loops of `EventTrigger.check` and `_set_datapoint` end with the last
event they match, and remove the first one equal to it. -/
def lastMatch (name : EventType) (path : Path) (pending : List Event) : Option Event :=
  (pending.filter (·.isFor name path)).getLast?

def removeLastMatch (name : EventType) (path : Path) (pending : List Event) : List Event :=
  (lastMatch name path pending).elim pending fun e => pending.erase e

theorem lastMatch_mem (h : lastMatch name path pending = some e) : e ∈ pending :=
  (List.mem_filter.mp (List.mem_of_getLast? h)).1

theorem lastMatch_isFor (h : lastMatch name path pending = some e) :
    e.name = name ∧ e.path = path := by
  have hfor := (List.mem_filter.mp (List.mem_of_getLast? h)).2
  simpa [Event.isFor] using hfor

theorem lastMatch_none (h : lastMatch name path pending = none) (he : e ∈ pending) :
    e.isFor name path = false := by
  simp only [lastMatch, List.getLast?_eq_none_iff, List.filter_eq_nil_iff] at h
  simpa using h e he

theorem filter_removeLastMatch_eq (name : EventType) (path : Path) (pending : List Event)
    (k : Event → Bool) : (removeLastMatch name path pending).filter k =
      (lastMatch name path pending).elim (pending.filter k) fun e => (pending.filter k).erase e := by
  unfold removeLastMatch
  cases lastMatch name path pending with
  | none => rfl
  | some e => exact (List.erase_filter ..).symm

-- ---------------------------------------------------------------------------
-- Triggers
-- ---------------------------------------------------------------------------

structure ClockTrigger where
  intervalSec : ℚ
  isRecurring : Bool
  timeLeft : ℚ
  expired : Bool
  deriving DecidableEq, Repr

def ClockTrigger.reset (t : ClockTrigger) : ClockTrigger :=
  { t with timeLeft := t.intervalSec, expired := false }

def ClockTrigger.new (intervalSec : ℚ) (isRecurring : Bool) : ClockTrigger :=
  ClockTrigger.reset ⟨intervalSec, isRecurring, 0, false⟩

def ClockTrigger.check (deltaTime : ℚ) (t : ClockTrigger) : Bool × ClockTrigger :=
  if t.expired then (false, t)
  else
    let timeLeft := t.timeLeft - deltaTime
    if timeLeft ≤ 0 then
      if t.isRecurring then (true, { t with timeLeft := t.intervalSec - timeLeft })
      else (true, { t with timeLeft := 0, expired := true })
    else (false, { t with timeLeft := timeLeft })

/-- The source compares the interval with itself. -/
def ClockTrigger.eq (t other : ClockTrigger) : Bool :=
  t.isRecurring == other.isRecurring && t.intervalSec == t.intervalSec

structure EventTrigger where
  eventType : EventType
  datapointPath : Option Path
  deriving DecidableEq, Repr

/-- Without a path the trigger takes the one of its first caller. -/
def EventTrigger.bound (callingSignalPath : Path) (t : EventTrigger) : Path :=
  t.datapointPath.getD callingSignalPath

def EventTrigger.check (callingSignalPath : Path) (pending : List Event) (t : EventTrigger) :
    Option Event × EventTrigger × List Event :=
  let path := t.bound callingSignalPath
  (lastMatch t.eventType path pending, { t with datapointPath := some path },
    removeLastMatch t.eventType path pending)

/-- The source compares the event type with itself. -/
def EventTrigger.eq (t other : EventTrigger) : Bool :=
  t.datapointPath == other.datapointPath && t.eventType == t.eventType

inductive Trigger where
  | clock (t : ClockTrigger)
  | event (t : EventTrigger)
  deriving DecidableEq, Repr

inductive TriggerResult where
  | clock (active : Bool)
  | event (event? : Option Event)
  deriving DecidableEq, Repr

def TriggerResult.isActive : TriggerResult → Bool
  | .clock active => active
  | .event event? => event?.isSome

def Trigger.check (path : Path) (deltaTime : ℚ) (pending : List Event) :
    Trigger → TriggerResult × Trigger × List Event
  | .clock t => (.clock (t.check deltaTime).1, .clock (t.check deltaTime).2, pending)
  | .event t =>
    let (event?, t, pending) := t.check path pending
    (.event event?, .event t, pending)

def Trigger.eq : Trigger → Trigger → Bool
  | .clock t, .clock other => t.eq other
  | .event t, .event other => t.eq other
  | _, _ => false

-- ---------------------------------------------------------------------------
-- Datapoints
-- ---------------------------------------------------------------------------

inductive DataType where
  | unspecified | string | boolean | int8 | int16 | int32 | int64 | uint8 | uint16 | uint32
  | uint64 | float | double | timestamp | stringArray | booleanArray | int8Array | int16Array
  | int32Array | int64Array | uint8Array | uint16Array | uint32Array | uint64Array | floatArray
  | doubleArray | timestampArray
  deriving DecidableEq, Repr

def DataType.isSupported : DataType → Bool
  | .boolean | .float | .double | .int8 | .uint8 | .int16 | .uint16 | .int32 | .uint32 | .int64
  | .uint64 | .string => true
  | _ => false

/-- A `DataPoint`; the only listener there is writes to the broker. -/
structure DataPoint where
  path : Path
  dataType : Option DataType
  value : Value
  hasListener : Bool
  deriving DecidableEq, Repr

def DataPoint.hasDiscreteValueType (d : DataPoint) : Bool :=
  d.dataType == some .boolean || d.dataType == some .string

-- ---------------------------------------------------------------------------
-- Animators
-- ---------------------------------------------------------------------------

inductive RepeatMode where
  | once
  | repeats
  deriving DecidableEq, Repr

/-- `interpolate.interp1d` over `numpy.linspace(0, duration, len(values))`
with the first and the last value outside; `none` when it raises. -/
abbrev Interp1d := List Value → ℚ → Option (ℚ → Value)

/-- A `ValueAnimator` whose callback sets the value of a datapoint. -/
structure ValueAnimator where
  values : List Value
  duration : ℚ
  repeatMode : RepeatMode
  animTime : ℚ
  done : Bool
  value : Value
  datapoint : Ref
  deriving DecidableEq, Repr

def ValueAnimator.new? (interp1d : Interp1d) (values : List Value) (duration : ℚ)
    (repeatMode : RepeatMode) (datapoint : Ref) : Option ValueAnimator :=
  (interp1d values duration).bind fun _ => values.head?.map fun value =>
    ⟨values, duration, repeatMode, 0, false, value, datapoint⟩

def ValueAnimator.advance (deltaTime : ℚ) (a : ValueAnimator) : ℚ × Bool :=
  let animTime := a.animTime + deltaTime
  if animTime > a.duration then
    match a.repeatMode with
    | .once => (a.duration, true)
    | .repeats => (animTime - a.duration, a.done)
  else (animTime, a.done)

/-- A tick of an animator that is not done; the callback gets the value. -/
def ValueAnimator.tick (interp1d : Interp1d) (deltaTime : ℚ) (a : ValueAnimator) : ValueAnimator :=
  let (animTime, done) := a.advance deltaTime
  { a with
    animTime := animTime
    done := done
    value := (interp1d a.values a.duration).elim a.value fun f => f animTime }

-- ---------------------------------------------------------------------------
-- Actions and behaviors
-- ---------------------------------------------------------------------------

structure AnimationAction where
  duration : ℚ
  repeatMode : RepeatMode
  values : List Value
  /-- The action has the resolver of `dsl.py`. -/
  dynamic : Bool
  animator : Option ValueAnimator
  deriving DecidableEq, Repr

structure SetAction where
  value : Value
  dynamic : Bool
  deriving DecidableEq, Repr

inductive Action where
  | set (a : SetAction)
  | animation (a : AnimationAction)
  deriving DecidableEq, Repr

def Action.eq : Action → Action → Bool
  | .set a, .set other => a.value == other.value && a.dynamic == other.dynamic
  | .animation a, .animation other =>
    a.duration == other.duration && a.values == other.values && a.repeatMode == other.repeatMode &&
      a.dynamic == other.dynamic
  | _, _ => false

/-- A behavior refers to its objects; a condition is a function object. -/
structure Behavior where
  trigger : Ref
  condition : Ref
  action : Ref
  deriving DecidableEq, Repr

end KuksaServices.Mock
