import KuksaServices.Atomic.Dict
import KuksaServices.Atomic.Runs
import KuksaServices.Atomic.Slot

/-!
# The data broker feeder

`DataBrokerFeederImpl` of `data_broker_feeder.cc`: the `Run` thread as a
machine over the places where another thread can come between, the calls
that feed values, and `Shutdown`. The broker's replies and the connection are
inputs. `connected` is the flag of the `KuksaClient`, which other users of
the client change too.

Every value carries where it came from: the configuration, or the `n`-th call
that stored values. The state also keeps the calls and the deliveries made so
far; the code reads none of this. A `Dict` stands for `std::unordered_map`,
`std::map` and the maps of protobuf.
-/

namespace KuksaServices.Feeder

open Atomic (Dict Origin)

-- ---------------------------------------------------------------------------
-- Data
-- ---------------------------------------------------------------------------

inductive DataType where
  | string | bool | int8 | int16 | int32 | int64 | uint8 | uint16 | uint32 | uint64 | float | double
  | stringArray | boolArray | int8Array | int16Array | int32Array | int64Array | uint8Array
  | uint16Array | uint32Array | uint64Array | floatArray | doubleArray
  deriving DecidableEq, Repr

inductive StatusCode where
  | cancelled | unknown | invalidArgument | deadlineExceeded | notFound | alreadyExists
  | permissionDenied | resourceExhausted | failedPrecondition | aborted | outOfRange
  | unimplemented | internal | unavailable | dataLoss | unauthenticated
  deriving DecidableEq, Repr

def StatusCode.unrecoverable : StatusCode → Bool
  | .internal | .unauthenticated | .unimplemented => true
  | _ => false

inductive Reply (α : Type) where
  | ok (a : α)
  | error (code : StatusCode)
  deriving DecidableEq, Repr

def Reply.isOk : Reply α → Bool
  | .ok _ => true
  | .error _ => false

abbrev DatapointId := Int

structure Metadata where
  id : DatapointId
  name : String
  dataType : DataType
  deriving DecidableEq, Repr

structure DatapointMetadata (D : Type) where
  name : String
  dataType : DataType
  initialValue : D
  deriving DecidableEq, Repr

abbrev DatapointConfiguration (D : Type) := List (DatapointMetadata D)

structure Value (D : Type) where
  datapoint : D
  origin : Origin
  deriving DecidableEq, Repr

abbrev DatapointValues (D : Type) := Dict String (Value D)

inductive FeedCall (D : Type) where
  | feedValue (name : String) (value : D)
  | feedValues (values : Dict String D)

/-- An `UpdateDatapoints` call: the session and the ids it was made under,
the request and the reply, which lists the ids of rejected datapoints. -/
structure Delivery (D : Type) where
  session : Nat
  ids : Dict String DatapointId
  request : Dict DatapointId (Value D)
  reply : Reply (List DatapointId)

/-- Where `Run` stands; the local variables that are alive there. -/
inductive Place (D : Type) where
  | outer
  | connecting
  | connectedTest
  | metadata
  | registering
  | ready
  | inner (alsoFeedInitialValues : Bool)
  | taking (feedInitialValues : Bool)
  | sending (valuesToFeed : DatapointValues D)
  | restoring (valuesToFeed : DatapointValues D)
  | waitTest
  | emptyTest
  | waiting
  | tail
  | cleanup
  | unready
  | finished

structure State (D : Type) where
  storedValues : DatapointValues D
  idMap : Dict String DatapointId
  dpMeta : Dict String Metadata
  feederActive : Bool
  feederReady : Bool
  connected : Bool
  place : Place D
  /-- Calls that have found the feeder active and wait for the lock. -/
  calls : List (FeedCall D)
  /-- How many of `Shutdown` do. -/
  shutdowns : Nat
  session : Nat
  fed : List (FeedCall D)
  sent : List (Delivery D)

def State.initial : State D where
  storedValues := ∅
  idMap := ∅
  dpMeta := ∅
  feederActive := true
  feederReady := false
  connected := false
  place := .outer
  calls := []
  shutdowns := 0
  session := 0
  fed := []
  sent := []

-- ---------------------------------------------------------------------------
-- Feeding
-- ---------------------------------------------------------------------------

section
variable {D : Type}

def storeValue (n : Nat) (name : String) (value : D) (stored : DatapointValues D) :
    DatapointValues D :=
  stored.insert name ⟨value, .put n⟩

def storeValues (n : Nat) (values : Dict String D) (stored : DatapointValues D) :
    DatapointValues D :=
  values.entries.foldl (fun stored value => storeValue n value.1 value.2 stored) stored

def FeedCall.store (n : Nat) : FeedCall D → DatapointValues D → DatapointValues D
  | .feedValue name value => storeValue n name value
  | .feedValues values => storeValues n values

/-- `insert` with one pair: a present key keeps its value. -/
def insertNew (values : DatapointValues D) (name : String) (value : Value D) : DatapointValues D :=
  values ∪ AList.singleton name value

def addInitialValues (dpConfig : DatapointConfiguration D) (values : DatapointValues D) :
    DatapointValues D :=
  dpConfig.foldl (fun values dp => insertNew values dp.name ⟨dp.initialValue, .filler⟩) values

def restoreValues (values stored : DatapointValues D) : DatapointValues D := stored ∪ values

/-- The request of `feedToBroker`; names without an id are left out. -/
def updateRequest (idMap : Dict String DatapointId) (values : DatapointValues D) :
    Dict DatapointId (Value D) :=
  values.entries.foldl (fun request value =>
    (idMap.lookup value.1).elim request fun id => request.insert id value.2) ∅

def handleError (code : StatusCode) (s : State D) : State D :=
  { s with feederActive := s.feederActive && !code.unrecoverable, connected := false }

-- ---------------------------------------------------------------------------
-- Registration
-- ---------------------------------------------------------------------------

variable (dpConfig : DatapointConfiguration D)

def checkDatapoints (dpMeta : Dict String Metadata) : Bool :=
  dpConfig.all fun dp => match dpMeta.lookup dp.name with
    | some md => dp.dataType == md.dataType
    | none => false

def afterMetadata (s : State D) : State D :=
  if checkDatapoints dpConfig s.dpMeta then { s with
    idMap := s.dpMeta.entries.foldl (fun ids m => ids.insert m.1 m.2.id) s.idMap
    place := .ready }
  else { s with place := .registering }

def getMetadata (reply : Reply (List Metadata)) (s : State D) : State D :=
  match reply with
  | .ok list => { s with dpMeta := list.foldl (fun dpMeta m => dpMeta.insert m.name m) s.dpMeta }
  | .error code => handleError code s

-- ---------------------------------------------------------------------------
-- The `Run` thread
-- ---------------------------------------------------------------------------

/-- What `Run` meets: nothing, the end of a wait for the connection, a reply
of the broker, or the end of `wait_for`. -/
inductive Input where
  | go
  | waitForConnected (connected : Bool)
  | metadata (reply : Reply (List Metadata))
  | registered (reply : Reply (Dict String DatapointId))
  | updated (reply : Reply (List DatapointId))
  | wakes (timeout : Bool)

def delivered (values : DatapointValues D) (reply : Reply (List DatapointId)) (s : State D) :
    State D :=
  let s := { s with
    sent := s.sent ++ [⟨s.session, s.idMap, updateRequest s.idMap values, reply⟩] }
  match reply with
  | .ok _ => { s with place := .waitTest }
  | .error code => { handleError code s with place := .restoring values }

def runStep (s : State D) (input : Input) : Option (State D) :=
  match s.place, input with
  | .outer, .go => some { s with place := if s.feederActive then .connecting else .finished }
  | .connecting, .waitForConnected connected =>
    some { s with connected := connected, place := .connectedTest }
  | .connectedTest, .go => some (
    if s.feederActive && s.connected then
      -- without a configuration the metadata is not asked for
      if dpConfig.isEmpty then afterMetadata dpConfig s else { s with place := .metadata }
    else { s with place := .ready })
  | .metadata, .metadata reply => some (afterMetadata dpConfig (getMetadata reply s))
  | .registering, .registered (.ok results) => some { s with idMap := results, place := .ready }
  | .registering, .registered (.error code) => some { handleError code s with place := .outer }
  | .ready, .go => some { s with
      feederReady := true, place := .inner true, session := s.session + 1 }
  | .inner init, .go =>
    some { s with place := if s.feederActive && s.connected then .taking init else .cleanup }
  | .taking init, .go => some { s with
      storedValues := ∅
      place := .sending (if init then addInitialValues dpConfig s.storedValues else s.storedValues) }
  | .sending values, .updated reply => some (delivered values reply s)
  | .restoring values, .go => some { s with
      storedValues := restoreValues values s.storedValues, place := .waitTest }
  | .waitTest, .go =>
    some { s with place := if s.feederActive && s.connected then .emptyTest else .tail }
  | .emptyTest, .go => some { s with
      place := if s.storedValues.entries.isEmpty && s.feederActive then .waiting else .tail }
  | .waiting, .wakes timeout => some { s with
      place := if s.feederActive && s.connected && timeout then .waiting else .tail }
  | .tail, .go => some { s with place := if s.connected then .inner false else .cleanup }
  | .cleanup, .go => some { s with idMap := ∅, dpMeta := ∅, place := .unready }
  | .unready, .go => some { s with feederReady := false, place := .outer }
  | _, _ => none

/-- The lines of `Run`: where it stands, what it meets and where it goes. -/
inductive Line (s : State D) : Input → State D → Prop
  | outer (hp : s.place = .outer) :
    Line s .go { s with place := if s.feederActive then .connecting else .finished }
  | connecting (connected : Bool) (hp : s.place = .connecting) :
    Line s (.waitForConnected connected) { s with connected := connected, place := .connectedTest }
  | connectedTest (hp : s.place = .connectedTest) : Line s .go
    (if s.feederActive && s.connected then
      if dpConfig.isEmpty then afterMetadata dpConfig s else { s with place := .metadata }
    else { s with place := .ready })
  | metadata (reply : Reply (List Metadata)) (hp : s.place = .metadata) :
    Line s (.metadata reply) (afterMetadata dpConfig (getMetadata reply s))
  | registered (results : Dict String DatapointId) (hp : s.place = .registering) :
    Line s (.registered (.ok results)) { s with idMap := results, place := .ready }
  | refused (code : StatusCode) (hp : s.place = .registering) :
    Line s (.registered (.error code)) { handleError code s with place := .outer }
  | ready (hp : s.place = .ready) :
    Line s .go { s with feederReady := true, place := .inner true, session := s.session + 1 }
  | inner (init : Bool) (hp : s.place = .inner init) :
    Line s .go { s with place := if s.feederActive && s.connected then .taking init else .cleanup }
  | taking (init : Bool) (hp : s.place = .taking init) : Line s .go { s with
      storedValues := ∅
      place := .sending (if init then addInitialValues dpConfig s.storedValues else s.storedValues) }
  | sending (values : DatapointValues D) (reply : Reply (List DatapointId)) (hp : s.place = .sending values) :
    Line s (.updated reply) (delivered values reply s)
  | restoring (values : DatapointValues D) (hp : s.place = .restoring values) : Line s .go { s with
      storedValues := restoreValues values s.storedValues, place := .waitTest }
  | waitTest (hp : s.place = .waitTest) :
    Line s .go { s with place := if s.feederActive && s.connected then .emptyTest else .tail }
  | emptyTest (hp : s.place = .emptyTest) : Line s .go { s with
      place := if s.storedValues.entries.isEmpty && s.feederActive then .waiting else .tail }
  | waiting (timeout : Bool) (hp : s.place = .waiting) : Line s (.wakes timeout) { s with
      place := if s.feederActive && s.connected && timeout then .waiting else .tail }
  | tail (hp : s.place = .tail) :
    Line s .go { s with place := if s.connected then .inner false else .cleanup }
  | cleanup (hp : s.place = .cleanup) : Line s .go { s with idMap := ∅, dpMeta := ∅, place := .unready }
  | unready (hp : s.place = .unready) : Line s .go { s with feederReady := false, place := .outer }

variable {dpConfig} in
theorem line_of_runStep {s s' : State D} (h : runStep dpConfig s input = some s') :
    Line dpConfig s input s' := by
  unfold runStep at h
  split at h <;> rename_i hp <;> cases h
  · exact .outer hp
  · exact .connecting _ hp
  · exact .connectedTest hp
  · exact .metadata _ hp
  · exact .registered _ hp
  · exact .refused _ hp
  · exact .ready hp
  · exact .inner _ hp
  · exact .taking _ hp
  · exact .sending _ _ hp
  · exact .restoring _ hp
  · exact .waitTest hp
  · exact .emptyTest hp
  · exact .waiting _ hp
  · exact .tail hp
  · exact .cleanup hp
  · exact .unready hp

-- ---------------------------------------------------------------------------
-- All threads
-- ---------------------------------------------------------------------------

inductive Event (D : Type) where
  | feed (call : FeedCall D)
  | store (i : Nat)
  | shutdown
  | stop
  | client (connected : Bool)
  | run (input : Input)

def step (s : State D) : Event D → Option (State D)
  | .feed call => some (if s.feederActive then { s with calls := s.calls ++ [call] } else s)
  | .store i => s.calls[i]?.map fun call => { s with
      storedValues := call.store s.fed.length s.storedValues
      calls := s.calls.eraseIdx i
      fed := s.fed ++ [call] }
  | .shutdown => some (if s.feederActive then { s with shutdowns := s.shutdowns + 1 } else s)
  | .stop =>
    if 0 < s.shutdowns then some { s with
      storedValues := ∅, feederActive := false, shutdowns := s.shutdowns - 1 }
    else none
  | .client connected => some { s with connected := connected }
  | .run input => runStep dpConfig s input

def State.ready (s : State D) : Bool := s.feederActive && s.connected && s.feederReady

end

end KuksaServices.Feeder
