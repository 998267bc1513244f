import KuksaServices.Atomic.Dict
import KuksaServices.Atomic.Prog

/-!
# The HVAC service

`hvacservice.py` as programs of atomic actions: the connectivity callback of
the gRPC channel, one iteration of `_run`, and the handlers of `SetTemperature`
and `SetAcStatus`. They share the attributes of one `HvacService` without a
lock. What the databroker answers to a call is an argument of the program
that makes it; `time.sleep` and log output are left out.
-/

namespace KuksaServices.Hvac

open Atomic

-- ---------------------------------------------------------------------------
-- gRPC
-- ---------------------------------------------------------------------------

inductive StatusCode where
  | cancelled
  | unknown
  | invalidArgument
  | deadlineExceeded
  | notFound
  | alreadyExists
  | permissionDenied
  | unauthenticated
  | resourceExhausted
  | failedPrecondition
  | aborted
  | outOfRange
  | unimplemented
  | internal
  | unavailable
  | dataLoss
  deriving DecidableEq, Repr

def isGrpcFatalError (code : StatusCode) : Bool :=
  code == .unavailable || code == .unknown || code == .unauthenticated || code == .internal

inductive Connectivity where
  | idle
  | connecting
  | ready
  | transientFailure
  | shutdown
  deriving DecidableEq, Repr

/-- The states that the callback takes as connected. -/
def Connectivity.up (c : Connectivity) : Bool := c == .ready || c == .idle

-- ---------------------------------------------------------------------------
-- Messages
-- ---------------------------------------------------------------------------

inductive DataType where
  | bool
  | float
  deriving DecidableEq, Repr

inductive ChangeType where
  | onChange
  deriving DecidableEq, Repr

structure RegistrationMetadata where
  name : String
  dataType : DataType
  description : String
  changeType : ChangeType
  deriving DecidableEq, Repr

/-- What a `RegisterDatapoints` call for one name comes to: its id (0, the
default of a protobuf map, where the answer leaves the name out), an
`RpcError`, or another exception. -/
inductive RegisterOutcome where
  | id (id : Int)
  | rpcError (code : StatusCode)
  | exception
  deriving DecidableEq, Repr

/-- A float is kept as its bits. -/
inductive DatapointValue where
  | floatValue (bits : UInt32)
  | boolValue (value : Bool)
  deriving DecidableEq, Repr

structure UpdateDatapointsRequest where
  id : Int
  value : DatapointValue
  deriving DecidableEq, Repr

inductive UpdateOutcome where
  | ok
  | rpcError (code : StatusCode)
  deriving DecidableEq, Repr

-- ---------------------------------------------------------------------------
-- The service
-- ---------------------------------------------------------------------------

/-- An entry of `_ids`, with the call of `register_datapoints` it comes from. -/
structure StoredId where
  id : Int
  call : Nat
  deriving DecidableEq, Repr

/-- What happened so far; the code keeps no such notes. `up` is what the last
notification was, `fatal` whether a fatal RPC error came since, `epoch` counts
the changes from a disconnected to a connected state, `calls` the calls of
`register_datapoints`, and `completed` has those that succeeded, with the
epoch in which they did. -/
structure Notes where
  up : Bool
  fatal : Bool
  epoch : Nat
  calls : Nat
  completed : List (Nat × Nat)
  sent : List UpdateDatapointsRequest
  deriving DecidableEq, Repr

structure HvacService where
  ids : Dict String StoredId
  connected : Bool
  registered : Bool
  shutdown : Bool
  notes : Notes

def HvacService.initial : HvacService where
  ids := ∅
  connected := false
  registered := false
  shutdown := false
  notes := ⟨false, false, 0, 0, [], []⟩

/-- Where a program stands. `notified true` and the sites from `beginCall` to
`setConnected` belong to a reconnect or a registration. -/
inductive Site where
  | notify (up : Bool)
  | notified (changed : Bool)
  | whileTest
  | connectedTest
  | registeredTest
  | beginCall
  | rpcAc
  | storeAc
  | rpcTemp
  | storeTemp
  | complete
  | setRegistered
  | setConnected
  | clearConnected
  | clearRegistered
  | lookup
  | send
  | failed
  deriving DecidableEq, Repr

abbrev Py := Prog Site HvacService

-- ---------------------------------------------------------------------------
-- Registration
-- ---------------------------------------------------------------------------

def isAirConditioningActive : RegistrationMetadata :=
  ⟨"Vehicle.Cabin.IsAirConditioningActive", .bool, "", .onChange⟩

def desiredAmbientAirTemperature : RegistrationMetadata :=
  ⟨"Vehicle.Cabin.DesiredAmbientAirTemperature", .float, "", .onChange⟩

def HvacService.storeId (s : HvacService) (name : String) (id : StoredId) : HvacService :=
  { s with ids := s.ids.insert name id }

/-- `_register`: the call, and the store of its id. `false` is an exception. -/
def register (rpc store : Site) (datapoint : RegistrationMetadata) (call : Nat)
    (outcome : RegisterOutcome) : Py Bool := do
  .pause rpc
  match outcome with
  | .id id => do
    .atomic store fun s => ((), s.storeId datapoint.name ⟨id, call⟩)
    pure true
  | .rpcError _ | .exception => pure false

structure RegisterOutcomes where
  ac : RegisterOutcome
  temp : RegisterOutcome
  deriving DecidableEq, Repr

def registerDatapoints (outcomes : RegisterOutcomes) : Py Bool := do
  let call ← .atomic .beginCall fun s =>
    (s.notes.calls, { s with notes := { s.notes with calls := s.notes.calls + 1 } })
  let ac ← register .rpcAc .storeAc isAirConditioningActive call outcomes.ac
  if ac then do
    let temp ← register .rpcTemp .storeTemp desiredAmbientAirTemperature call outcomes.temp
    if temp then do
      .atomic .complete fun s => ((), { s with notes := { s.notes with
        completed := s.notes.completed ++ [(call, s.notes.epoch)] } })
      pure true
    else pure false
  else pure false

def setRegistered : Py Unit := .atomic .setRegistered fun s => ((), { s with registered := true })

def tryRegister (outcomes : RegisterOutcomes) : Py Unit := do
  let ok ← registerDatapoints outcomes
  if ok then setRegistered else pure ()

-- ---------------------------------------------------------------------------
-- The callback and the thread
-- ---------------------------------------------------------------------------

def HvacService.notified (s : HvacService) (c : Connectivity) : HvacService :=
  { s with notes := { s.notes with
      up := c.up
      fatal := false
      epoch := if c.up && !s.notes.up then s.notes.epoch + 1 else s.notes.epoch } }

def onBrokerConnectivityChange (c : Connectivity) (outcomes : RegisterOutcomes) : Py Unit := do
  let changed ← .atomic (.notify c.up) fun s => (c.up && !s.notes.up, s.notified c)
  if c.up then do
    let connected ← .peek (.notified changed) (·.connected)
    if connected then pure ()
    else do
      tryRegister outcomes
      .atomic .setConnected fun s => ((), { s with connected := true })
  else do
    .atomic .clearConnected fun s => ((), { s with connected := false })
    .atomic .clearRegistered fun s => ((), { s with registered := false })

def runIteration (outcomes : RegisterOutcomes) : Py Unit := do
  let shutdown ← .peek .whileTest (·.shutdown)
  if shutdown then pure ()
  else do
    let connected ← .peek .connectedTest (·.connected)
    if !connected then pure ()
    else do
      let registered ← .peek .registeredTest (·.registered)
      if !registered then tryRegister outcomes else pure ()

-- ---------------------------------------------------------------------------
-- The handlers
-- ---------------------------------------------------------------------------

/-- `set_float_datapoint` and `set_bool_datapoint`: a name without an id is a
`KeyError`, and an `RpcError` sets the flag before it is raised again. -/
def setDatapoint (name : String) (value : DatapointValue) (outcome : UpdateOutcome) : Py Bool := do
  let id ← .peek .lookup (·.ids.lookup name)
  match id with
  | none => pure false
  | some stored => do
    .atomic .send fun s => ((), { s with notes := { s.notes with
      sent := s.notes.sent ++ [⟨stored.id, value⟩] } })
    match outcome with
    | .ok => pure true
    | .rpcError code => do
      .atomic .failed fun s => ((), { s with
        connected := isGrpcFatalError code
        notes := { s.notes with fatal := s.notes.fatal || isGrpcFatalError code } })
      pure false

def setFloatDatapoint (name : String) (bits : UInt32) : UpdateOutcome → Py Bool :=
  setDatapoint name (.floatValue bits)

def setBoolDatapoint (name : String) (value : Bool) : UpdateOutcome → Py Bool :=
  setDatapoint name (.boolValue value)

def setTemperature (temperature : UInt32) : UpdateOutcome → Py Bool :=
  setFloatDatapoint desiredAmbientAirTemperature.name temperature

def setAcStatus (status : Bool) : UpdateOutcome → Py Bool :=
  setBoolDatapoint isAirConditioningActive.name status

-- ---------------------------------------------------------------------------
-- Tasks
-- ---------------------------------------------------------------------------

/-- The thread of the channel's callbacks, `databroker-connector`, and the
threads of the server. -/
inductive Thread where
  | channel
  | connector
  | handler (n : Nat)
  deriving DecidableEq, Repr

inductive Task where
  | notify (c : Connectivity) (outcomes : RegisterOutcomes)
  | iterate (outcomes : RegisterOutcomes)
  | setTemperature (temperature : UInt32) (outcome : UpdateOutcome)
  | setAcStatus (status : Bool) (outcome : UpdateOutcome)
  deriving DecidableEq, Repr

def Task.code : Task → Py Unit
  | .notify c outcomes => onBrokerConnectivityChange c outcomes
  | .iterate outcomes => runIteration outcomes
  | .setTemperature temperature outcome => Prog.void (Hvac.setTemperature temperature outcome)
  | .setAcStatus status outcome => Prog.void (Hvac.setAcStatus status outcome)

end KuksaServices.Hvac
