import Mathlib.Data.List.Destutter
import KuksaServices.Seat.Published

/-!
# Positions in and out of the service

Whatever frames the bus brings, `handle_secu_stat` lets through positions
from 0 to 100 and the unknown position only, and its callback tells every
change of the position once (`position_stream`).

Outside the controller a position is a number from 0 to 1000. Three functions
turn it into a percentage, two turn a percentage into it, each with a range
check, a rounding and integer types of its own; they agree on one scale
(`one_position_scale`).
-/

namespace KuksaServices.Seat

open Atomic

-- ---------------------------------------------------------------------------
-- The stream of positions
-- ---------------------------------------------------------------------------

def heard (plat : Platform) (w : World) (frames : List CanFrame) : World :=
  frames.foldl (fun w frame => ((handleSecuStat plat frame).exec w).2) w

def positionCalls (w : World) : List Nat :=
  w.events.filterMap fun e => if e.1 = .motor1Pos then some e.2.toNat else none

def acceptedPositions (plat : Platform) (frames : List CanFrame) : List Nat :=
  (frames.filterMap (acceptedStat plat)).map fun stat => stat.motor1Pos.toNat

def Session.listening (s : Session) : World := (threadStart.exec s.opened).2

section
variable {plat : Platform} {w : World} {frame : CanFrame}

theorem exec_handleSecuStat_accepted (h : acceptedStat plat frame = some stat) :
    (handleSecuStat plat frame).exec w = (seatCtrlOk, applyStat stat w) := by
  simp [handleSecuStat, h]

theorem exec_handleSecuStat_rejected (h : acceptedStat plat frame = none) :
    (handleSecuStat plat frame).exec w = (rejectedStat plat frame, w) := by
  simp [handleSecuStat, h]

theorem heard_cons_accepted (h : acceptedStat plat frame = some stat) :
    heard plat w (frame :: frames) = heard plat (applyStat stat w) frames := by
  rw [heard, List.foldl_cons, exec_handleSecuStat_accepted h, heard]

theorem heard_cons_rejected (h : acceptedStat plat frame = none) :
    heard plat w (frame :: frames) = heard plat w frames := by
  rw [heard, List.foldl_cons, exec_handleSecuStat_rejected h, heard]

theorem handleSecuStat_failed (h : ((handleSecuStat plat frame).exec w).1 ≠ seatCtrlOk) :
    ((handleSecuStat plat frame).exec w).2 = w := by
  cases hstat : acceptedStat plat frame with
  | some stat =>
    rw [exec_handleSecuStat_accepted hstat] at h
    exact absurd rfl h
  | none => rw [exec_handleSecuStat_rejected hstat]

structure Listens (w : World) : Prop where
  magic : w.ctx.magic = seatCtrlContextMagic
  running : w.ctx.running = true
  eventCb : w.ctx.eventCb = true

theorem Listens.applyStat (h : Listens w) (stat : Secu1Stat) : Listens (applyStat stat w) := by
  obtain ⟨hm, hr, hcb⟩ := h
  constructor <;> rw [applyStat_ctx] <;> assumption

theorem positionCalls_applyStat (h : Listens w) (stat : Secu1Stat) :
    positionCalls (applyStat stat w) = positionCalls w ++
      if w.ctx.motor1Pos ≠ stat.motor1Pos.toNat then [stat.motor1Pos.toNat] else [] := by
  unfold Seat.applyStat World.eventCb
  by_cases hpos : w.ctx.motor1Pos = stat.motor1Pos.toNat <;>
    simp [h.running, h.eventCb, hpos, positionCalls]

/-- Where the context listens and knows `pos`: the calls are the changes of
the accepted positions, and the last of them is known. -/
theorem heard_stream (plat : Platform) (h : Listens w) (frames : List CanFrame) :
    Listens (heard plat w frames) ∧ ∃ calls,
      positionCalls (heard plat w frames) = positionCalls w ++ calls ∧
      w.ctx.motor1Pos :: calls = (acceptedPositions plat frames).destutter' (· ≠ ·) w.ctx.motor1Pos ∧
      (heard plat w frames).ctx.motor1Pos = calls.getLast?.getD w.ctx.motor1Pos := by
  induction frames generalizing w with
  | nil => exact ⟨h, [], by simp [heard], by simp [acceptedPositions], rfl⟩
  | cons frame frames ih =>
    cases hstat : acceptedStat plat frame with
    | none =>
      have hacc : acceptedPositions plat (frame :: frames) = acceptedPositions plat frames := by
        simp [acceptedPositions, hstat]
      rw [heard_cons_rejected hstat, hacc]
      exact ih h
    | some stat =>
      have hacc : acceptedPositions plat (frame :: frames) =
          stat.motor1Pos.toNat :: acceptedPositions plat frames := by
        simp [acceptedPositions, hstat]
      have hpos : (applyStat stat w).ctx.motor1Pos = stat.motor1Pos.toNat := by
        rw [applyStat_ctx]
      obtain ⟨hl, calls, hcalls, hdest, hlast⟩ := ih (h.applyStat stat)
      rw [hpos] at hdest hlast
      rw [heard_cons_accepted hstat, hacc]
      by_cases hne : w.ctx.motor1Pos = stat.motor1Pos.toNat
      · refine ⟨hl, calls, ?_, ?_, ?_⟩
        · simpa [positionCalls_applyStat h, hne] using hcalls
        · rw [List.destutter'_cons_neg (h := by simpa using hne), hne]
          exact hdest
        · rw [hlast, hne]
      · refine ⟨hl, stat.motor1Pos.toNat :: calls, ?_, ?_, ?_⟩
        · simpa [positionCalls_applyStat h, hne] using hcalls
        · rw [List.destutter'_cons_pos (h := hne), hdest]
        · rw [hlast, List.getLast?_cons, Option.getD_some]

theorem Session.listening_listens (s : Session) (hcb : s.eventCb = true) : Listens s.listening := by
  simp only [listening, opened_eq, context_eq]
  exact ⟨rfl, rfl, hcb⟩

theorem acceptedPositions_range (h : pos ∈ acceptedPositions plat frames) :
    pos ≤ 100 ∨ pos = motorPosInvalid := by
  obtain ⟨stat, hstat, rfl⟩ := List.mem_map.mp h
  obtain ⟨frame, -, hframe⟩ := List.mem_filterMap.mp hstat
  exact acceptedStat_position hframe

theorem positionDatapoint_ne_invalid (h : pos ≤ 100 ∨ pos = motorPosInvalid) :
    positionDatapoint (percent pos) ≠ .invalidValue := by
  rcases h with h | rfl
  · have hne : pos ≠ motorPosInvalid := by
      simp only [motorPosInvalid]
      omega
    have h100 : (pos : Int) ≤ 100 := by omega
    simp [positionDatapoint, percent, hne, h100]
  · decide

end

/-- The CTL thread of a session with a callback has taken any frames at all.
The callbacks are the changes of the accepted positions, from the unknown
one on. -/
structure PositionStream (plat : Platform) (frames : List CanFrame) (w : World) : Prop where
  range : w.ctx.motor1Pos ≤ 100 ∨ w.ctx.motor1Pos = motorPosInvalid
  rejected : ∀ frame, ((handleSecuStat plat frame).exec w).1 ≠ seatCtrlOk →
    ((handleSecuStat plat frame).exec w).2 = w
  calls : motorPosInvalid :: positionCalls w =
    (motorPosInvalid :: acceptedPositions plat frames).destutter (· ≠ ·)
  last : seatctrlGetPosition w.ctx = (positionCalls w).getLast?.getD motorPosInvalid
  mapped : ∀ value ∈ positionCalls w, positionDatapoint (percent value) ≠ .invalidValue

theorem position_stream (plat : Platform) (s : Session) (hcb : s.eventCb = true)
    (frames : List CanFrame) : PositionStream plat frames (heard plat s.listening frames) := by
  obtain ⟨hl, calls, hcalls, hdest, hlast⟩ :=
    heard_stream plat (s.listening_listens hcb) frames
  have hstart : s.listening.ctx.motor1Pos = motorPosInvalid ∧ positionCalls s.listening = [] := by
    simp only [Session.listening, s.opened_eq, s.context_eq]
    exact ⟨rfl, rfl⟩
  rw [hstart.1] at hdest hlast
  rw [hstart.2, List.nil_append] at hcalls
  have hrange : ∀ pos ∈ calls, pos ≤ 100 ∨ pos = motorPosInvalid := by
    intro pos hpos
    have hmem : pos ∈ motorPosInvalid :: acceptedPositions plat frames := by
      have hsub := List.destutter'_sublist (R := (· ≠ ·)) (acceptedPositions plat frames) motorPosInvalid
      rw [← hdest] at hsub
      exact hsub.subset (List.mem_cons_of_mem _ hpos)
    rcases List.mem_cons.mp hmem with rfl | hacc
    · exact .inr rfl
    · exact acceptedPositions_range hacc
  refine ⟨?_, fun frame => handleSecuStat_failed, ?_, ?_, ?_⟩
  · rw [hlast]
    cases hget : calls.getLast? with
    | none => exact .inr rfl
    | some pos => exact hrange pos (List.mem_of_getLast? hget)
  · rw [hcalls]
    exact hdest
  · rw [hcalls, seatctrlGetPosition, hl.magic, hl.running, hlast]
    simp
  · rw [hcalls]
    exact fun pos hpos => positionDatapoint_ne_invalid (hrange pos hpos)

/-- A frame of another id, one that is too short, one out of range, and a
repeated position among the accepted ones. -/
def strayTraffic : List CanFrame := [
  ⟨secu1StatFrameId, 8, #v[4, 0, 20, 0, 0, 0, 0, 0]⟩, ⟨0x123, 8, #v[4, 0, 30, 0, 0, 0, 0, 0]⟩,
  ⟨secu1StatFrameId, 7, #v[4, 0, 30, 0, 0, 0, 0, 0]⟩, ⟨secu1StatFrameId, 8, #v[4, 0, 101, 0, 0, 0, 0, 0]⟩,
  ⟨secu1StatFrameId, 8, #v[6, 0, 20, 0, 0, 0, 0, 0]⟩, ⟨secu1StatFrameId, 8, #v[6, 0, 21, 0, 0, 0, 0, 0]⟩]

theorem position_stream_stray : Session.bench.eventCb = true ∧
    PositionStream (.ticking 100 fun _ => none) strayTraffic
      (heard (.ticking 100 fun _ => none) Session.bench.listening strayTraffic) ∧
    positionCalls (heard (.ticking 100 fun _ => none) Session.bench.listening strayTraffic) = [20, 21] :=
  ⟨rfl, position_stream _ _ rfl _, by decide⟩

-- ---------------------------------------------------------------------------
-- The seat adjuster
-- ---------------------------------------------------------------------------

inductive SetResult where
  | ok
  | unspecificError
  | noCan
  | canIfIndexError
  | canBindError
  | canIoError
  | invalidArg
  | noFrames
  deriving DecidableEq, Repr

/-- The interface `SeatAdjuster`, on states of type `σ`. -/
structure SeatAdjuster (σ : Type) where
  getSeatPosition : σ → Int
  setSeatPosition : Int → σ → SetResult × σ

def seatCtrlErrIfr : Int := -3

def setResult (rc : Int) : SetResult :=
  if rc = seatCtrlOk then .ok
  else if rc = seatCtrlErr then .unspecificError
  else if rc = seatCtrlErrNoCan then .noCan
  else if rc = seatCtrlErrIfr then .canIfIndexError
  else if rc = seatCtrlErrCanBind then .canBindError
  else if rc = seatCtrlErrCanIo then .canIoError
  else if rc = seatCtrlErrInvalid then .invalidArg
  else if rc = seatCtrlErrNoFrames then .noFrames
  else .unspecificError

def seatAdjusterImpl (plat : Platform) (n : Nat) : SeatAdjuster World where
  getSeatPosition w := getSeatPosition w.ctx
  setSeatPosition positionInPercent w :=
    let r := (seatctrlSetPosition plat (.caller n) positionInPercent).exec w
    (setResult r.1, r.2)

def SeatAdjuster.recording (adj : SeatAdjuster σ) : SeatAdjuster (σ × List Int) where
  getSeatPosition s := adj.getSeatPosition s.1
  setSeatPosition p s :=
    let r := adj.setSeatPosition p s.1
    (r.1, (r.2, s.2 ++ [p]))

-- ---------------------------------------------------------------------------
-- The seat service
-- ---------------------------------------------------------------------------

inductive StatusCode where
  | ok
  | invalidArgument
  | notFound
  | outOfRange
  | internal
  deriving DecidableEq, Repr

structure Status where
  code : StatusCode
  message : String := ""
  deriving DecidableEq, Repr

def setResult2grpcStatus : SetResult → Status
  | .ok => ⟨.ok, ""⟩
  | .unspecificError => ⟨.internal, "Unspecific error"⟩
  | .noCan => ⟨.internal, "SocketCAN not available"⟩
  | .canIfIndexError => ⟨.internal, "CAN interface index error"⟩
  | .canBindError => ⟨.internal, "SocketCAN bind() error"⟩
  | .canIoError => ⟨.internal, "SocketCAN i/o error"⟩
  | .invalidArg => ⟨.internal, "Invalid argument(s)"⟩
  | .noFrames => ⟨.internal, "Can signals not coming from ECU"⟩

structure SeatLocation where
  row : UInt32
  index : UInt32
  deriving DecidableEq, Repr

structure Position where
  base : Int32
  cushion : Int32
  lumbar : Int32
  sideBolster : Int32
  headRestraint : Int32
  deriving DecidableEq, Repr

/-- The message `Seat`, which is also all of a `MoveRequest`. -/
structure SeatMessage where
  location : SeatLocation
  position : Position
  deriving DecidableEq, Repr

/-- An open enumeration: a request may hold any number. -/
inductive SeatComponent where
  | base
  | cushion
  | lumbar
  | sideBolster
  | headRestraint
  | unrecognized (value : Int32)
  deriving DecidableEq, Repr

structure MoveComponentRequest where
  seat : SeatLocation
  component : SeatComponent
  position : Int32
  deriving DecidableEq, Repr

namespace SeatServiceImpl

variable (adj : SeatAdjuster σ)

def move (request : SeatMessage) (s : σ) : Status × σ :=
  if request.location.row ≠ 1 ∨ request.location.index ≠ 1 then
    (⟨.outOfRange, "Unknown seat location"⟩, s)
  else if request.position.base < 0 ∨ 1000 < request.position.base then
    (⟨.invalidArgument, "Invalid base position"⟩, s)
  else
    let r := adj.setSeatPosition ((request.position.base + 5) / 10).toInt s
    (setResult2grpcStatus r.1, r.2)

def moveComponent (request : MoveComponentRequest) (s : σ) : Status × σ :=
  if request.seat.row ≠ 1 ∨ request.seat.index ≠ 1 then
    (⟨.outOfRange, "Unknown seat location"⟩, s)
  else if request.component ≠ .base then
    (⟨.notFound, "Unsupported seat component"⟩, s)
  else if request.position < 0 ∨ 1000 < request.position then
    (⟨.invalidArgument, "Invalid base position"⟩, s)
  else
    let r := adj.setSeatPosition ((request.position + 5) / 10).toInt s
    (setResult2grpcStatus r.1, r.2)

def currentPosition (request : SeatLocation) (s : σ) : Status × Option SeatMessage :=
  if request.row ≠ 1 ∨ request.index ≠ 1 then (⟨.outOfRange, "Unknown seat location"⟩, none)
  else
    let pos := adj.getSeatPosition s
    let base : Int32 := if pos ≠ seatPositionInvalid then .ofInt (pos * 10) else -1
    (⟨.ok, ""⟩, some ⟨request, ⟨base, -1, -1, -1, -1⟩⟩)

end SeatServiceImpl

-- ---------------------------------------------------------------------------
-- The subscriber of actuator targets
-- ---------------------------------------------------------------------------

/-- `actuator_target().value_case()`: every case but `uint32` is passed over. -/
inductive ActuatorTarget where
  | uint32 (value : UInt32)
  | other
  deriving DecidableEq, Repr

structure EntryUpdate where
  path : String
  actuatorTarget : ActuatorTarget
  deriving DecidableEq, Repr

namespace SeatPositionSubscriber

variable (adj : SeatAdjuster σ)

def onUpdate (seatPosName : String) (s : σ) (update : EntryUpdate) : σ :=
  if update.path = seatPosName then
    match update.actuatorTarget with
    | .uint32 position =>
      if position < 0 ∨ 1000 < position then s
      else (adj.setSeatPosition ((position + 5) / 10).toNat s).2
    | .other => s
  else s

def onUpdates (seatPosName : String) (s : σ) (updates : List EntryUpdate) : σ :=
  updates.foldl (onUpdate adj seatPosName) s

end SeatPositionSubscriber

-- ---------------------------------------------------------------------------
-- One scale
-- ---------------------------------------------------------------------------

def percentOf (p : Int) : Int := (p + 5) / 10

def SeatLocation.Known (location : SeatLocation) : Prop := location.row = 1 ∧ location.index = 1

instance (location : SeatLocation) : Decidable location.Known := inferInstanceAs (Decidable (_ ∧ _))

/-- A position that is `p` for its sender takes the adjuster and the list of
its requests from `s` to `s'`: one request for the percentage where it is
valid, and nothing otherwise. -/
structure Requests (adj : SeatAdjuster σ) (valid : Prop) (p : Int) (s s' : σ × List Int) : Prop where
  once : valid → 0 ≤ p → p ≤ 1000 →
    s' = ((adj.setSeatPosition (percentOf p) s.1).2, s.2 ++ [percentOf p])
  untouched : ¬(valid ∧ 0 ≤ p ∧ p ≤ 1000) → s' = s

theorem percentOf_range (h0 : 0 ≤ p) (h : p ≤ 1000) :
    0 ≤ percentOf p ∧ percentOf p ≤ 100 ∧ (10 * percentOf p - p).natAbs ≤ 5 := by
  unfold percentOf
  omega

theorem percentOf_ten (k : Nat) : percentOf (10 * k) = k := by
  unfold percentOf
  omega

theorem int32_outside (p : Int32) : p < 0 ∨ 1000 < p ↔ ¬(0 ≤ p.toInt ∧ p.toInt ≤ 1000) := by
  rw [Int32.lt_iff_toInt_lt, Int32.lt_iff_toInt_lt]
  simp only [Int32.reduceToInt]
  omega

theorem int32_percent (p : Int32) (h0 : 0 ≤ p.toInt) (h : p.toInt ≤ 1000) :
    ((p + 5) / 10).toInt = percentOf p.toInt := by
  rw [Int32.toInt_div_of_ne_right _ _ (by decide), Int32.toInt_add]
  simp only [Int32.reduceToInt]
  have hsum : (p.toInt + 5).bmod (2 ^ 32) = p.toInt + 5 :=
    Int.bmod_eq_of_le (by omega) (by omega)
  rw [hsum, Int.tdiv_eq_ediv_of_nonneg (by omega)]
  rfl

theorem uint32_outside (p : UInt32) :
    p < 0 ∨ 1000 < p ↔ ¬(0 ≤ (p.toNat : Int) ∧ (p.toNat : Int) ≤ 1000) := by
  rw [UInt32.lt_iff_toNat_lt, UInt32.lt_iff_toNat_lt]
  simp only [UInt32.reduceToNat]
  omega

theorem uint32_percent (p : UInt32) (h : p.toNat ≤ 1000) :
    (((p + 5) / 10).toNat : Int) = percentOf p.toNat := by
  rw [UInt32.toNat_div, UInt32.toNat_add]
  simp only [UInt32.reduceToNat]
  rw [Nat.mod_eq_of_lt (by omega)]
  unfold percentOf
  omega

section
variable (adj : SeatAdjuster σ) (s : σ × List Int)

theorem move_requests (request : SeatMessage) :
    Requests adj request.location.Known request.position.base.toInt s
      (SeatServiceImpl.move adj.recording request s).2 := by
  have hout := int32_outside request.position.base
  constructor
  · rintro ⟨hrow, hindex⟩ h0 h
    have hin : ¬(request.position.base < 0 ∨ 1000 < request.position.base) := fun hp => hout.mp hp ⟨h0, h⟩
    simp [SeatServiceImpl.move, hrow, hindex, hin, int32_percent _ h0 h, SeatAdjuster.recording]
  · intro hinvalid
    unfold SeatServiceImpl.move
    split_ifs with hloc hpos
    · rfl
    · rfl
    · rw [not_or, not_not, not_not] at hloc
      exact absurd ⟨hloc, not_not.mp (mt hout.mpr hpos)⟩ hinvalid

theorem move_fails (request : SeatMessage)
    (h : ¬(request.location.Known ∧ 0 ≤ request.position.base.toInt ∧ request.position.base.toInt ≤ 1000)) :
    (SeatServiceImpl.move adj.recording request s).1.code ≠ .ok := by
  unfold SeatServiceImpl.move
  split_ifs with hloc hpos
  · simp
  · simp
  · rw [not_or, not_not, not_not] at hloc
    exact absurd ⟨hloc, not_not.mp (mt (int32_outside _).mpr hpos)⟩ h

theorem moveComponent_requests (seat : SeatLocation) (p : Int32) :
    Requests adj seat.Known p.toInt s
      (SeatServiceImpl.moveComponent adj.recording ⟨seat, .base, p⟩ s).2 := by
  have hout := int32_outside p
  constructor
  · rintro ⟨hrow, hindex⟩ h0 h
    have hin : ¬(p < 0 ∨ 1000 < p) := fun hp => hout.mp hp ⟨h0, h⟩
    simp [SeatServiceImpl.moveComponent, hrow, hindex, hin, int32_percent _ h0 h, SeatAdjuster.recording]
  · intro hinvalid
    unfold SeatServiceImpl.moveComponent
    split_ifs with hloc hcomp hpos
    · rfl
    · rfl
    · rfl
    · rw [not_or, not_not, not_not] at hloc
      exact absurd ⟨hloc, not_not.mp (mt hout.mpr hpos)⟩ hinvalid

/-- `MoveComponent` fails for an invalid position, and without touching the
adjuster for every other component. -/
theorem moveComponent_fails (request : MoveComponentRequest)
    (h : ¬(request.seat.Known ∧ request.component = .base ∧ 0 ≤ request.position.toInt ∧
      request.position.toInt ≤ 1000)) :
    (SeatServiceImpl.moveComponent adj.recording request s).1.code ≠ .ok ∧
      (SeatServiceImpl.moveComponent adj.recording request s).2 = s := by
  unfold SeatServiceImpl.moveComponent
  split_ifs with hloc hcomp hpos
  · simp
  · simp
  · simp
  · rw [not_or, not_not, not_not] at hloc
    exact absurd ⟨hloc, not_not.mp hcomp, not_not.mp (mt (int32_outside _).mpr hpos)⟩ h

theorem onUpdate_requests (seatPosName : String) (p : UInt32) :
    Requests adj True p.toNat s
      (SeatPositionSubscriber.onUpdate adj.recording seatPosName s ⟨seatPosName, .uint32 p⟩) := by
  have hout := uint32_outside p
  constructor
  · intro _ h0 h
    have hin : ¬(p < 0 ∨ 1000 < p) := fun hp => hout.mp hp ⟨h0, h⟩
    simp only [SeatPositionSubscriber.onUpdate, if_true, if_neg hin,
      uint32_percent p (by omega), SeatAdjuster.recording]
  · intro hinvalid
    have hp : p < 0 ∨ 1000 < p := hout.mpr fun h => hinvalid ⟨trivial, h⟩
    simp only [SeatPositionSubscriber.onUpdate, if_true, if_pos hp]

end

def EntryUpdate.requested (seatPosName : String) (update : EntryUpdate) : Option Int :=
  match update.actuatorTarget with
  | .uint32 p => if update.path = seatPosName ∧ p.toNat ≤ 1000 then some (percentOf p.toNat) else none
  | .other => none

theorem onUpdates_requests (adj : SeatAdjuster σ) (s : σ × List Int) (seatPosName : String)
    (updates : List EntryUpdate) :
    (SeatPositionSubscriber.onUpdates adj.recording seatPosName s updates).2 =
      s.2 ++ updates.filterMap (·.requested seatPosName) := by
  induction updates generalizing s with
  | nil => simp [SeatPositionSubscriber.onUpdates]
  | cons update updates ih =>
    have hone : (SeatPositionSubscriber.onUpdate adj.recording seatPosName s update).2 =
        s.2 ++ (update.requested seatPosName).toList := by
      obtain ⟨path, target⟩ := update
      cases target with
      | other => simp [SeatPositionSubscriber.onUpdate, EntryUpdate.requested]
      | uint32 p =>
        by_cases hpath : path = seatPosName
        · subst hpath
          have hreq := onUpdate_requests adj s path p
          by_cases hp : p.toNat ≤ 1000
          · rw [hreq.once trivial (by omega) (by omega)]
            simp [EntryUpdate.requested, hp]
          · rw [hreq.untouched (by omega)]
            simp [EntryUpdate.requested, hp]
        · simp [SeatPositionSubscriber.onUpdate, EntryUpdate.requested, hpath]
    rw [SeatPositionSubscriber.onUpdates, List.foldl_cons]
    refine (ih _).trans ?_
    rw [hone, List.append_assoc]
    cases hr : update.requested seatPosName <;> simp [hr]

structure CommandScale (adj : SeatAdjuster σ) (s : σ × List Int) : Prop where
  move : ∀ request : SeatMessage, Requests adj request.location.Known request.position.base.toInt s
    (SeatServiceImpl.move adj.recording request s).2
  move_fails : ∀ request : SeatMessage,
    ¬(request.location.Known ∧ 0 ≤ request.position.base.toInt ∧ request.position.base.toInt ≤ 1000) →
      (SeatServiceImpl.move adj.recording request s).1.code ≠ .ok
  moveComponent : ∀ seat p, Requests adj seat.Known p.toInt s
    (SeatServiceImpl.moveComponent adj.recording ⟨seat, .base, p⟩ s).2
  moveComponent_fails : ∀ request : MoveComponentRequest,
    ¬(request.seat.Known ∧ request.component = .base ∧ 0 ≤ request.position.toInt ∧
        request.position.toInt ≤ 1000) →
      (SeatServiceImpl.moveComponent adj.recording request s).1.code ≠ .ok
  subscriber : ∀ seatPosName p, Requests adj True p.toNat s
    (SeatPositionSubscriber.onUpdate adj.recording seatPosName s ⟨seatPosName, .uint32 p⟩)
  updates : ∀ seatPosName updates,
    (SeatPositionSubscriber.onUpdates adj.recording seatPosName s updates).2 =
      s.2 ++ updates.filterMap (·.requested seatPosName)
  percent : ∀ p : Int, 0 ≤ p → p ≤ 1000 →
    0 ≤ percentOf p ∧ percentOf p ≤ 100 ∧ (10 * percentOf p - p).natAbs ≤ 5

structure AtPercent (w : World) (k : Nat) : Prop where
  magic : w.ctx.magic = seatCtrlContextMagic
  running : w.ctx.running = true
  motor1Pos : w.ctx.motor1Pos = k
  range : k ≤ 100

/-- Both read-outs of a seat at `k` percent give `10 * k`, and this value asks
for `k` again on every command path. -/
structure ReadBack (plat : Platform) (n : Nat) (w : World) (k : Nat) (adj : SeatAdjuster σ)
    (s : σ × List Int) : Prop where
  published : positionDatapoint (percent w.ctx.motor1Pos) = .uint32 (10 * k)
  current : (SeatServiceImpl.currentPosition (seatAdjusterImpl plat n) ⟨1, 1⟩ w) =
    (⟨.ok, ""⟩, some ⟨⟨1, 1⟩, ⟨.ofNat (10 * k), -1, -1, -1, -1⟩⟩)
  move : ∀ cushion lumbar sideBolster headRestraint, (SeatServiceImpl.move adj.recording
    ⟨⟨1, 1⟩, ⟨.ofNat (10 * k), cushion, lumbar, sideBolster, headRestraint⟩⟩ s).2.2 = s.2 ++ [(k : Int)]
  moveComponent : (SeatServiceImpl.moveComponent adj.recording
    ⟨⟨1, 1⟩, .base, .ofNat (10 * k)⟩ s).2.2 = s.2 ++ [(k : Int)]
  subscriber : ∀ seatPosName, (SeatPositionSubscriber.onUpdate adj.recording seatPosName s
    ⟨seatPosName, .uint32 (.ofNat (10 * k))⟩).2 = s.2 ++ [(k : Int)]

theorem commandScale (adj : SeatAdjuster σ) (s : σ × List Int) : CommandScale adj s where
  move := move_requests adj s
  move_fails := move_fails adj s
  moveComponent := moveComponent_requests adj s
  moveComponent_fails request h := (moveComponent_fails adj s request h).1
  subscriber := onUpdate_requests adj s
  updates := onUpdates_requests adj s
  percent _ := percentOf_range

theorem AtPercent.getSeatPosition (h : AtPercent w k) : getSeatPosition w.ctx = k := by
  have hk := h.range
  have hpos : seatctrlGetPosition w.ctx = k := by
    simp [seatctrlGetPosition, h.magic, h.running, h.motor1Pos]
  simp only [Seat.getSeatPosition, hpos, motorPosInvalid]
  rw [if_neg (by omega)]

theorem AtPercent.readBack (h : AtPercent w k) (plat : Platform) (n : Nat) (adj : SeatAdjuster σ)
    (s : σ × List Int) : ReadBack plat n w k adj s := by
  have hk := h.range
  have hint : (Int32.ofNat (10 * k)).toInt = 10 * k := by
    rw [Int32.toInt_ofNat_of_lt (by omega)]
    omega
  have huint : ((UInt32.ofNat (10 * k)).toNat : Int) = 10 * k := by
    rw [UInt32.toNat_ofNat_of_lt' (by simp only [UInt32.size]; omega)]
    omega
  constructor
  · have hne : k ≠ motorPosInvalid := by
      simp only [motorPosInvalid]
      omega
    simp only [h.motor1Pos, percent, if_neg hne, positionDatapoint]
    rw [if_pos (by omega)]
    congr 1
    omega
  · have hpos : (seatAdjusterImpl plat n).getSeatPosition w = k := h.getSeatPosition
    have hne : (k : Int) ≠ seatPositionInvalid := by
      simp only [seatPositionInvalid]
      omega
    simp only [SeatServiceImpl.currentPosition, hpos, if_pos hne]
    rw [if_neg (by decide), show (k : Int) * 10 = ((10 * k : Nat) : Int) by omega]
    rfl
  · intro cushion lumbar sideBolster headRestraint
    rw [((commandScale adj s).move _).once ⟨rfl, rfl⟩ (by simp only [hint]; omega) (by simp only [hint]; omega)]
    simp only [hint, percentOf_ten]
  · rw [((commandScale adj s).moveComponent _ _).once ⟨rfl, rfl⟩ (by rw [hint]; omega) (by rw [hint]; omega)]
    simp only [hint, percentOf_ten]
  · intro seatPosName
    rw [((commandScale adj s).subscriber _ _).once trivial (by omega) (by omega)]
    simp only [huint, percentOf_ten]

/-- For every position and location, every adjuster, and every state of the
controller. -/
theorem one_position_scale (adj : SeatAdjuster σ) (s : σ × List Int) :
    CommandScale adj s ∧
      ∀ plat n w k, AtPercent w k → ReadBack plat n w k adj s :=
  ⟨commandScale adj s, fun plat n _ _ h => h.readBack plat n adj s⟩

theorem one_position_scale_bench :
    AtPercent (heard (.ticking 100 fun _ => none) Session.bench.listening
        [⟨secu1StatFrameId, 8, #v[4, 0, 42, 0, 0, 0, 0, 0]⟩]) 42 ∧
      ReadBack (.ticking 100 fun _ => none) 1
        (heard (.ticking 100 fun _ => none) Session.bench.listening
          [⟨secu1StatFrameId, 8, #v[4, 0, 42, 0, 0, 0, 0, 0]⟩]) 42
        (seatAdjusterImpl (.ticking 100 fun _ => none) 1) (Session.bench.listening, []) := by
  have h : AtPercent (heard (.ticking 100 fun _ => none) Session.bench.listening
      [⟨secu1StatFrameId, 8, #v[4, 0, 42, 0, 0, 0, 0, 0]⟩]) 42 :=
    ⟨by decide, by decide, by decide, by decide⟩
  exact ⟨h, (one_position_scale _ _).2 _ _ _ _ h⟩

end KuksaServices.Seat
