import Mathlib.Algebra.Group.Int.Defs
import Mathlib.Algebra.Group.Nat.Defs
import KuksaServices.Atomic.Prog

/-!
# The seat controller's data

The types of `seat_controller.h`, the file-level variables of
`seat_controller.cc`, and what the controller reads from outside: the code
cantools generates from `seat_ecu.dbc`, the clock, and the outcome of every
`write` on the CAN socket. Bytes and 32-bit values are kept as `Nat` and
`Int`; the conversions of the source stand where the source makes them.

The world also keeps a log of what the controller did, in order and with the
thread that did it: the CAN writes, the updates of the command triple, and
the decisions that end a command.
-/

namespace KuksaServices.Seat

-- ---------------------------------------------------------------------------
-- Constants
-- ---------------------------------------------------------------------------

def seatCtrlOk : Int := 0
def seatCtrlErr : Int := -1
def seatCtrlErrNoCan : Int := -2
def seatCtrlErrCanBind : Int := -4
def seatCtrlErrCanIo : Int := -5
def seatCtrlErrInvalid : Int := -22
def seatCtrlErrNoFrames : Int := -42

def motorPosInvalid : Nat := 0xFF
def defaultRpm : Int := 80
def defaultOperationTimeout : Int := 15000
def seatCtrlContextMagic : Nat := 0xDEC0DE00

def secu1StatFrameId : Nat := 1810
def secu1Cmd1FrameId : Nat := 1797

def eintr : Nat := 4
def eagain : Nat := 11
def enetdown : Nat := 100

inductive MotorDirection where
  | off
  | dec
  | inc
  | inv
  deriving DecidableEq, Repr

def MotorDirection.code : MotorDirection → Nat
  | .off => 0
  | .dec => 1
  | .inc => 2
  | .inv => 3

/-- Values of `motor1_learning_state` with a name; 3 has none. -/
inductive LearningState where
  | notLearned
  | learned
  | invalid
  deriving DecidableEq, Repr

def LearningState.code : LearningState → Nat
  | .notLearned => 0
  | .learned => 1
  | .invalid => 2

-- ---------------------------------------------------------------------------
-- CAN frames and the generated codec
-- ---------------------------------------------------------------------------

structure CanFrame where
  canId : Nat
  canDlc : Nat
  data : Vector UInt8 8
  deriving DecidableEq, Repr

def CanFrame.byte (frame : CanFrame) (i : Nat) : UInt8 := frame.data.getD i 0

theorem CanFrame.byte_eq (frame : CanFrame) (i : Fin 8) : frame.byte i = frame.data.get i := by
  simp [CanFrame.byte, Vector.getD, Vector.get]

/-- `CAN_secu1_stat_t`; every member is a `uint8_t`. -/
structure Secu1Stat where
  motor1Pos : UInt8
  motor1MovState : UInt8
  motor1LearningState : UInt8
  motor2Pos : UInt8
  motor2MovState : UInt8
  motor2LearningState : UInt8
  motor3Pos : UInt8
  motor3MovState : UInt8
  motor3LearningState : UInt8
  motor4Pos : UInt8
  motor4MovState : UInt8
  motor4LearningState : UInt8
  deriving DecidableEq, Repr

/-- `CAN_secu1_cmd_1_t` after its `memset`. -/
structure Secu1Cmd1 where
  motor1ManualCmd : Nat := 0
  motor1SetRpm : Nat := 0
  motor2ManualCmd : Nat := 0
  motor2SetRpm : Nat := 0
  motor3ManualCmd : Nat := 0
  motor3SetRpm : Nat := 0
  motor4ManualCmd : Nat := 0
  motor4SetRpm : Nat := 0
  deriving DecidableEq, Repr

def sizeofSecu1Cmd1 : Nat := 8

/-- The functions of the generated `CAN.h` that the controller calls. The
file is made by the build, so it stands here by its interface: `none` is a
negative (or, for unpacking, nonzero) return code. -/
structure CanCodec where
  secu1StatUnpack : Vector UInt8 8 → Nat → Option Secu1Stat
  motor1PosIsInRange : UInt8 → Bool
  motor1MovStateIsInRange : UInt8 → Bool
  motor1LearningStateIsInRange : UInt8 → Bool
  secu1Cmd1Pack : Secu1Cmd1 → Nat → Option (Vector UInt8 8)
  /-- Packing fails on a buffer shorter than the message's five bytes only. -/
  secu1Cmd1Pack_isSome : ∀ cmd size, 5 ≤ size → (secu1Cmd1Pack cmd size).isSome

def seatEcuDbc : CanCodec where
  secu1StatUnpack data size :=
    if size < 8 then none
    else some {
      motor1Pos := data[2], motor1MovState := data[0] &&& 3, motor1LearningState := data[0] >>> 2 &&& 3
      motor2Pos := data[3], motor2MovState := data[0] >>> 4 &&& 3, motor2LearningState := data[0] >>> 6 &&& 3
      motor3Pos := data[4], motor3MovState := data[1] &&& 3, motor3LearningState := data[1] >>> 2 &&& 3
      motor4Pos := data[5], motor4MovState := data[1] >>> 4 &&& 3, motor4LearningState := data[1] >>> 6 &&& 3 }
  motor1PosIsInRange _ := true
  motor1MovStateIsInRange v := v ≤ 3
  motor1LearningStateIsInRange v := v ≤ 3
  secu1Cmd1Pack cmd size :=
    if size < 5 then none
    else some #v[
      (cmd.motor1ManualCmd % 4 + cmd.motor2ManualCmd % 4 * 4 + cmd.motor3ManualCmd % 4 * 16 +
        cmd.motor4ManualCmd % 4 * 64).toUInt8,
      cmd.motor1SetRpm.toUInt8, cmd.motor2SetRpm.toUInt8, cmd.motor3SetRpm.toUInt8,
      cmd.motor4SetRpm.toUInt8, 0, 0, 0]
  secu1Cmd1Pack_isSome cmd size h := by simp [Nat.not_lt.mpr h]

/-- What the controller meets outside its own memory. `clock n` is the
`n`-th result of `get_ts`; `write n` is the `errno` of the `n`-th `write`
on the CAN socket, `none` when the whole frame was written. -/
structure Platform where
  codec : CanCodec
  clock : Nat → Int
  clock_pos : ∀ n, 0 < clock n
  clock_mono : ∀ m n, m ≤ n → clock m ≤ clock n
  write : Nat → Option Int

-- ---------------------------------------------------------------------------
-- Configuration and context
-- ---------------------------------------------------------------------------

structure Config where
  canDevice : Option String
  debugRaw : Bool
  debugCtl : Bool
  debugStats : Bool
  debugVerbose : Bool
  commandTimeout : Int
  motorRpm : Int
  deriving DecidableEq, Repr

structure Command where
  position : Nat
  direction : MotorDirection
  ts : Int
  deriving DecidableEq, Repr

def Command.idle : Command := ⟨motorPosInvalid, .off, 0⟩

/-- `seatctrl_context_t`. `SOCKET_INVALID` and a zero `pthread_t` are `none`;
`eventCb` tells whether a callback is set. -/
structure Context where
  magic : Nat
  config : Config
  socket : Option Nat
  running : Bool
  threadId : Option Nat
  command : Command
  motor1Pos : Nat
  motor1MovState : Nat
  motor1LearningState : Nat
  eventCb : Bool
  deriving DecidableEq, Repr

structure Statics where
  lastCtlPos : Nat
  lastCtlDir : Nat
  learnedMode : Bool
  learnedModeChanged : Int
  deriving DecidableEq, Repr

def Statics.initial : Statics := ⟨motorPosInvalid, 0, true, 0⟩

inductive SeatCtrlEvent where
  | canError
  | motor1Pos
  deriving DecidableEq, Repr

-- ---------------------------------------------------------------------------
-- The world and its log
-- ---------------------------------------------------------------------------

inductive Thread where
  | ctl
  | caller (n : Nat)
  deriving DecidableEq, Repr

inductive Ending where
  | target (pos : Nat)
  | timeout (elapsed : Int)
  deriving DecidableEq, Repr

structure Sent where
  cmd : Secu1Cmd1
  frame : CanFrame
  written : Bool
  deriving DecidableEq, Repr

inductive Deed where
  /-- A `write` of a SECU1_CMD_1 frame. -/
  | send (sent : Sent)
  /-- An update of the command triple. -/
  | command (c : Command)
  /-- `seatctrl_set_position` read `current_pos`. -/
  | current (pos : Nat)
  /-- The control loop found the command finished or timed out. -/
  | ended (c : Command) (why : Ending)
  deriving DecidableEq, Repr

structure Entry where
  thread : Thread
  deed : Deed
  deriving DecidableEq, Repr

/-- The CTL thread as the operating system sees it. -/
inductive ThreadStatus where
  | absent
  | created
  | looping
  | exited
  deriving DecidableEq, Repr

inductive LearnedMessage where
  | notLearnedState
  | learnedState
  deriving DecidableEq, Repr

structure World where
  ctx : Context
  statics : Statics
  ctl : ThreadStatus
  ticks : Nat
  writes : Nat
  log : List Entry
  events : List (SeatCtrlEvent × Int)
  console : List LearnedMessage
  deriving DecidableEq, Repr

def World.record (w : World) (me : Thread) (deed : Deed) : World :=
  { w with log := w.log ++ [⟨me, deed⟩] }

def World.eventCb (w : World) (event : SeatCtrlEvent) (value : Int) : World :=
  if w.ctx.eventCb then { w with events := w.events ++ [(event, value)] } else w

def World.setCommand (w : World) (me : Thread) (c : Command) : World :=
  { w with ctx := { w.ctx with command := c } }.record me (.command c)

def World.getTs (w : World) (plat : Platform) : Int × World :=
  (plat.clock w.ticks, { w with ticks := w.ticks + 1 })

def Deed.sent? : Deed → Option Sent
  | .send sent => some sent
  | _ => none

def Entry.sent? (e : Entry) : Option Sent := e.deed.sent?

/-- Every SECU1_CMD_1 frame a `write` was attempted for, in order. -/
def attempts (log : List Entry) : List Sent := log.filterMap Entry.sent?

def written (log : List Entry) : List Secu1Cmd1 :=
  ((attempts log).filter (·.written)).map (·.cmd)

def Secu1Cmd1.IsOff (cmd : Secu1Cmd1) : Prop := cmd.motor1ManualCmd = MotorDirection.off.code

def Secu1Cmd1.Moves (cmd : Secu1Cmd1) : Prop :=
  cmd.motor1ManualCmd = MotorDirection.inc.code ∨ cmd.motor1ManualCmd = MotorDirection.dec.code

instance (cmd : Secu1Cmd1) : Decidable cmd.IsOff := inferInstanceAs (Decidable (_ = _))

instance (cmd : Secu1Cmd1) : Decidable cmd.Moves := inferInstanceAs (Decidable (_ ∨ _))

-- ---------------------------------------------------------------------------
-- Default configuration and initial context
-- ---------------------------------------------------------------------------

def isSpace (c : Char) : Bool := [' ', '\t', '\n', '\x0b', '\x0c', '\r'].contains c

def toInt32 (n : Int) : Int := n.bmod (2 ^ 32)

/-- `atoi`: `strtol` in base ten, which stops at the bounds of a `long`,
converted to `int`. -/
def atoi (s : String) : Int :=
  let digits (cs : List Char) : Int :=
    (cs.takeWhile Char.isDigit).foldl (fun n c => 10 * n + (c.toNat - '0'.toNat : Nat)) 0
  let value := match s.toList.dropWhile isSpace with
    | '-' :: cs => -digits cs
    | '+' :: cs => digits cs
    | cs => digits cs
  toInt32 (max (-2 ^ 63) (min (2 ^ 63 - 1) value))

def seatctrlDefaultConfig (getenv : String → Option String) : Int × Config :=
  let flag (name : String) (default : Bool) : Bool := ((getenv name).map (atoi · != 0)).getD default
  let config : Config := {
    canDevice := (getenv "SC_CAN").or (some "can0")
    debugRaw := flag "SC_RAW" false
    debugCtl := flag "SC_CTL" true
    debugStats := flag "SC_STAT" true
    debugVerbose := flag "SC_VERBOSE" false
    motorRpm := ((getenv "SC_RPM").map atoi).getD defaultRpm
    commandTimeout := ((getenv "SC_TIMEOUT").map atoi).getD defaultOperationTimeout }
  if config.motorRpm < 1 ∨ config.motorRpm > 254 then
    (seatCtrlErrInvalid, { config with motorRpm := defaultRpm })
  else (seatCtrlOk, config)

theorem seatctrlDefaultConfig_motorRpm (getenv : String → Option String) :
    1 ≤ (seatctrlDefaultConfig getenv).2.motorRpm ∧ (seatctrlDefaultConfig getenv).2.motorRpm ≤ 254 := by
  simp only [seatctrlDefaultConfig]
  split
  · simp [defaultRpm]
  · rename_i h
    constructor <;> simp only <;> omega

theorem seatctrlDefaultConfig_canDevice (getenv : String → Option String) :
    (seatctrlDefaultConfig getenv).2.canDevice.isSome := by
  simp only [seatctrlDefaultConfig]
  split <;> cases getenv "SC_CAN" <;> simp

def seatctrlInitCtx (ctx : Context) (config : Config) : Int × Context :=
  if config.canDevice.isNone then (seatCtrlErrInvalid, ctx)
  else (seatCtrlOk, {
    magic := seatCtrlContextMagic
    config := config
    socket := none
    running := false
    threadId := none
    command := .idle
    motor1Pos := motorPosInvalid
    motor1MovState := MotorDirection.inv.code
    motor1LearningState := LearningState.invalid.code
    eventCb := false })

def World.boot (statics : Statics) (ctx : Context) : World where
  ctx := ctx
  statics := statics
  ctl := .absent
  ticks := 0
  writes := 0
  log := []
  events := []
  console := []

end KuksaServices.Seat
