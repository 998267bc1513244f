import KuksaServices.Seat.Context

/-!
# The functions of `seat_controller.cc`

Each function is a program of atomic actions on the world, in the order of
the source. A CAN write is one action, and so are an update of the command
triple, a decision of the control loop, and each read that another thread
may come before. `me` is the thread that runs the function; it goes to the
log only. `printf` output is left out, except the messages about the learned
state.
-/

namespace KuksaServices.Seat

open Atomic (Prog)

/-- Where a program stands. The sites up to `decide` come before a thread
touches the bus or the command triple; those from `write` to `reset` belong
to a change of the two; the rest opens or closes the context. -/
inductive Site where
  | poll
  | retryWait (n : Nat)
  | start
  | whileTest
  | readTimeout
  | readFailed
  | handle
  | decide
  | write
  | triple
  | settle
  | current
  | movState
  | arguments
  | resendWait
  | check
  | reset
  | openTest
  | socket
  | bind
  | create
  | closeTest
  | stopRunning
  | closeWait
  | closeSocket
  | joinTest
  | join
  | joined
  deriving DecidableEq, Repr

abbrev Ctl := Prog Site World

def toUint8 (n : Int) : Nat := (n % 256).toNat

/-- A `read` on the CAN socket: a frame, or -1 with an `errno`. -/
inductive ReadResult where
  | frame (frame : CanFrame)
  | error (err : Nat)
  deriving DecidableEq, Repr

def readError : Int := -1

section
variable (plat : Platform) (me : Thread)

-- ---------------------------------------------------------------------------
-- Status frames
-- ---------------------------------------------------------------------------

def acceptedStat (frame : CanFrame) : Option Secu1Stat :=
  if frame.canId ≠ secu1StatFrameId then none
  else (plat.codec.secu1StatUnpack frame.data frame.canDlc).filter fun stat =>
    plat.codec.motor1PosIsInRange stat.motor1Pos &&
      (stat.motor1Pos.toNat ≤ 100 || stat.motor1Pos.toNat == motorPosInvalid) &&
      plat.codec.motor1MovStateIsInRange stat.motor1MovState &&
      plat.codec.motor1LearningStateIsInRange stat.motor1LearningState

def rejectedStat (frame : CanFrame) : Int :=
  if frame.canId ≠ secu1StatFrameId then seatCtrlErrInvalid
  else if (plat.codec.secu1StatUnpack frame.data frame.canDlc).isNone then seatCtrlErr
  else seatCtrlErrInvalid

def applyStat (stat : Secu1Stat) (w : World) : World :=
  let w := if w.ctx.running ∧ w.ctx.motor1Pos ≠ stat.motor1Pos.toNat then
      w.eventCb .motor1Pos stat.motor1Pos.toNat
    else w
  { w with ctx := { w.ctx with
      motor1MovState := stat.motor1MovState.toNat
      motor1LearningState := stat.motor1LearningState.toNat
      motor1Pos := stat.motor1Pos.toNat } }

def handleSecuStat (frame : CanFrame) : Ctl Int :=
  .atomic .handle fun w => match acceptedStat plat frame with
    | some stat => (seatCtrlOk, applyStat stat w)
    | none => (rejectedStat plat frame, w)

def seatctrlGetPosition (ctx : Context) : Int :=
  if ctx.magic ≠ seatCtrlContextMagic then seatCtrlErrInvalid
  else if !ctx.running then seatCtrlErr
  else ctx.motor1Pos

-- ---------------------------------------------------------------------------
-- Commands
-- ---------------------------------------------------------------------------

def isCtlRunning (ctx : Context) : Bool :=
  ctx.socket.isSome && ctx.command.ts > 0 && ctx.command.direction != .off &&
    ctx.command.position != motorPosInvalid

def motor1Cmd (dir : MotorDirection) (rpm : Int) : Secu1Cmd1 :=
  { motor1ManualCmd := dir.code, motor1SetRpm := toUint8 rpm }

def seatctrlSendCmd1 (dir : MotorDirection) (rpm : Int) : Ctl Int :=
  .atomic .write fun w =>
    if w.ctx.socket.isNone then (seatCtrlErr, w)
    else match plat.codec.secu1Cmd1Pack (motor1Cmd dir rpm) sizeofSecu1Cmd1 with
      | none => (seatCtrlErr, w)
      | some data =>
        let sent (ok : Bool) : Sent := ⟨motor1Cmd dir rpm, ⟨secu1Cmd1FrameId, 8, data⟩, ok⟩
        let w' := { w with writes := w.writes + 1 }
        match plat.write w.writes with
        | none => (seatCtrlOk, w'.record me (.send (sent true)))
        | some err => (seatCtrlErrCanIo, (w'.record me (.send (sent false))).eventCb .canError err)

def setCommand (c : World → Command × World) : Ctl Unit :=
  .atomic .triple fun w => ((), (c w).2.setCommand me (c w).1)

def seatctrlStopMovement : Ctl Int := do
  let rc ← seatctrlSendCmd1 plat me .off 0
  setCommand me fun w => (.idle, w)
  pure rc

/-- `for (int retries = 0; retries < 30; retries++)`, `n` turns left. -/
def waitForPosition : Nat → Ctl Unit
  | 0 => pure ()
  | n + 1 => do
    let pos ← .peek .poll (·.ctx.motor1Pos)
    if pos ≠ motorPosInvalid then pure ()
    else do
      .pause (.retryWait n)
      waitForPosition n

/-- The sanity check of the position, which waits up to three seconds. -/
def positionKnown : Ctl Bool := do
  let pos ← .peek .poll (·.ctx.motor1Pos)
  if pos ≠ motorPosInvalid then pure true
  else do
    waitForPosition 30
    let pos ← .peek .poll (·.ctx.motor1Pos)
    pure (pos ≠ motorPosInvalid)

def directionTo (currentPos : Nat) (desiredPosition : Int) : MotorDirection :=
  if (currentPos : Int) < desiredPosition then .inc else .dec

/-- `seatctrl_set_position` from its decision on. -/
def decidePosition (desiredPosition : Int) : Ctl Int := do
  let currentPos ← .atomic .current fun w => (w.ctx.motor1Pos, w.record me (.current w.ctx.motor1Pos))
  if (currentPos : Int) = desiredPosition then do
    let movState ← .peek .movState (·.ctx.motor1MovState)
    if movState ≠ MotorDirection.off.code then do
      let _ ← seatctrlStopMovement plat me
      pure seatCtrlOk
    else do
      setCommand me fun w => (.idle, w)
      pure seatCtrlOk
  else do
    let direction := directionTo currentPos desiredPosition
    setCommand me fun w =>
      let (now, w) := w.getTs plat
      (⟨toUint8 desiredPosition, direction, now⟩, w)
    let rpm ← .peek .arguments (·.ctx.config.motorRpm)
    seatctrlSendCmd1 plat me direction rpm

/-- `seatctrl_set_position` from its first motor-off command on. -/
def commandPosition (desiredPosition : Int) : Ctl Int := do
  let _ ← seatctrlStopMovement plat me
  .pause .settle
  decidePosition plat me desiredPosition

def seatctrlSetPosition (desiredPosition : Int) : Ctl Int := do
  let magic ← .peek .poll (·.ctx.magic)
  if magic ≠ seatCtrlContextMagic then pure seatCtrlErrInvalid
  else if desiredPosition < 0 ∨ desiredPosition > 100 then pure seatCtrlErrInvalid
  else do
    let known ← positionKnown
    if known then commandPosition plat me desiredPosition
    else pure seatCtrlErrNoFrames

-- ---------------------------------------------------------------------------
-- The control loop
-- ---------------------------------------------------------------------------

def learnedModeRate : Int := 10 * 1000

/-- The learned mode flips; the message is rate limited, and its time is an
`int`. -/
def flipLearnedMode (message : LearnedMessage) (w : World) : World :=
  let (now, w) := w.getTs plat
  let ts := toInt32 now
  let statics := { w.statics with learnedMode := !w.statics.learnedMode }
  if ts - w.statics.learnedModeChanged > learnedModeRate then
    { w with statics := { statics with learnedModeChanged := ts }, console := w.console ++ [message] }
  else { w with statics := statics }

def trackLearnedMode (w : World) : World :=
  if w.statics.learnedMode ∧ w.ctx.motor1LearningState = LearningState.notLearned.code then
    flipLearnedMode plat .notLearnedState w
  else if !w.statics.learnedMode ∧ w.ctx.motor1LearningState = LearningState.learned.code then
    flipLearnedMode plat .learnedState w
  else w

/-- The first 500 ms, in which the motor may not move yet. -/
def awaitsMovement (ctx : Context) (elapsed : Int) : Bool :=
  elapsed < 500 && ctx.motor1MovState == MotorDirection.off.code &&
    ctx.motor1Pos != ctx.command.position

/-- The motor stands still short of the target: the workaround sends the
command again. -/
def stoppedShort (ctx : Context) : Bool :=
  ctx.motor1MovState != ctx.command.direction.code && ctx.motor1Pos != ctx.command.position &&
    ctx.motor1MovState == MotorDirection.off.code

def reachedTarget (ctx : Context) : Bool :=
  ctx.motor1Pos != motorPosInvalid &&
    (ctx.command.direction == .inc && ctx.motor1Pos ≥ ctx.command.position ||
      ctx.command.direction == .dec && ctx.motor1Pos ≤ ctx.command.position)

structure Pursuit where
  elapsed : Int
  changed : Bool
  resend : Bool
  deriving DecidableEq, Repr

/-- The control loop up to its first write: `none` when no command is
active or its motor may not move yet. -/
def pursue (w : World) : Option Pursuit × World :=
  let w := trackLearnedMode plat w
  if isCtlRunning w.ctx then
    let (now, w) := w.getTs plat
    let elapsed := now - w.ctx.command.ts
    if awaitsMovement w.ctx elapsed then (none, w)
    else
      let changed := w.statics.lastCtlPos ≠ w.ctx.motor1Pos ∨ w.statics.lastCtlDir ≠ w.ctx.motor1MovState
      (some ⟨elapsed, changed, changed && stoppedShort w.ctx⟩, w)
  else (none, w)

/-- The motor state is cached when it was found changed. -/
def cacheMotorState (pursuit : Pursuit) (w : World) : World :=
  if pursuit.changed then
    { w with statics := { w.statics with
        lastCtlDir := w.ctx.motor1MovState, lastCtlPos := w.ctx.motor1Pos } }
  else w

def endingOf (elapsed : Int) (ctx : Context) : Option Ending :=
  if reachedTarget ctx then some (.target ctx.motor1Pos)
  else if elapsed > ctx.config.commandTimeout then some (.timeout elapsed)
  else none

def checkEnding (pursuit : Pursuit) (w : World) : Option Ending × World :=
  let w := cacheMotorState pursuit w
  match endingOf pursuit.elapsed w.ctx with
  | some why => (some why, w.record me (.ended w.ctx.command why))
  | none => (none, w)

def resendCommand : Ctl Unit := do
  let _ ← seatctrlSendCmd1 plat me .off 0
  .pause .resendWait
  let (direction, rpm) ← .peek .arguments fun w => (w.ctx.command.direction, w.ctx.config.motorRpm)
  let _ ← seatctrlSendCmd1 plat me direction rpm
  pure ()

def invalidateCtlCache (w : World) : World :=
  { w with statics := { w.statics with lastCtlDir := 0, lastCtlPos := motorPosInvalid } }

def checkCommand (pursuit : Pursuit) : Ctl Int := do
  let ending ← .atomic .check (checkEnding me pursuit)
  if ending.isSome then do
    let _ ← seatctrlStopMovement plat me
    .atomic .reset fun w => ((), invalidateCtlCache w)
    pure seatCtrlOk
  else pure seatCtrlOk

def pursueCommand (pursuit : Pursuit) : Ctl Int := do
  if pursuit.resend then resendCommand plat me
  checkCommand plat me pursuit

def seatctrlControlLoop : Ctl Int := do
  let pursuit ← .atomic .decide (pursue plat)
  match pursuit with
  | some pursuit => pursueCommand plat me pursuit
  | none => pure seatCtrlOk

-- ---------------------------------------------------------------------------
-- The CTL thread
-- ---------------------------------------------------------------------------

/-- The thread leaves its loop. It touches nothing shared afterwards, so this
is one action with the read that decides it. -/
def World.leaveLoop (w : World) : World := { w with ctl := .exited }

/-- The body of the `while` loop of `seatctrl_threadFunc` for one result of
`read`. -/
def threadBody : ReadResult → Ctl Unit
  | .error err =>
    if err = eagain then .atomic .readTimeout fun w => ((), if w.ctx.running then w else w.leaveLoop)
    else if err = eintr then pure ()
    else .atomic .readFailed fun w =>
      let w := w.eventCb .canError err
      -- the source compares what `read` returned with `ENETDOWN`, not `errno`
      ((), if readError = enetdown then w else w.leaveLoop)
  | .frame frame =>
    if frame.canId = secu1StatFrameId then do
      let rc ← handleSecuStat plat frame
      if rc = seatCtrlOk then do
        let _ ← seatctrlControlLoop plat me
        pure ()
      else pure ()
    else pure ()

def threadStart : Ctl Unit :=
  .atomic .start fun w => ((), { w with ctx := { w.ctx with running := true }, ctl := .looping })

/-- One turn of `seatctrl_threadFunc`: the loop test, a `read` and the body. -/
def threadTurn (result : ReadResult) : Ctl Unit := do
  let go ← .atomic .whileTest fun w =>
    let go := w.ctx.running && w.ctx.socket.isSome
    (go, if go then w else w.leaveLoop)
  if go then threadBody plat me result else pure ()

-- ---------------------------------------------------------------------------
-- Opening and closing
-- ---------------------------------------------------------------------------

/-- What the system calls of `seatctrl_open` return. A failed `ioctl` or
`setsockopt` is only reported. -/
structure OpenCalls where
  socket : Option Nat
  ioctl : Bool
  bind : Bool
  setsockopt : Bool
  pthreadCreate : Option Nat
  deriving DecidableEq, Repr

def openRefused (ctx : Context) : Option Int :=
  if ctx.magic ≠ seatCtrlContextMagic ∨ ctx.config.canDevice.isNone then some seatCtrlErrInvalid
  else if ctx.socket.isSome then some seatCtrlErr
  else if ctx.running ∨ ctx.threadId.isSome then some seatCtrlErr
  else none

/-- `seatctrl_open` once it has passed its checks. -/
def openContext (calls : OpenCalls) : Ctl Int := do
  .atomic .socket fun w => ((), { w with ctx := { w.ctx with socket := calls.socket } })
  if calls.socket.isNone then pure seatCtrlErrNoCan
  else do
    .pause .bind
    if !calls.bind then pure seatCtrlErrCanBind
    else do
      .atomic .create fun w => ((), { w with
        ctx := { w.ctx with threadId := calls.pthreadCreate }
        ctl := if calls.pthreadCreate.isSome then .created else w.ctl })
      if calls.pthreadCreate.isNone then pure seatCtrlErr
      else pure seatCtrlOk

def seatctrlOpen (calls : OpenCalls) : Ctl Int := do
  let refused ← .peek .openTest fun w => openRefused w.ctx
  match refused with
  | some rc => pure rc
  | none => openContext calls

def seatctrlSetEventCallback (cb : Bool) (ctx : Context) : Int × Context :=
  if ctx.magic ≠ seatCtrlContextMagic then (seatCtrlErrInvalid, ctx)
  else (seatCtrlOk, { ctx with eventCb := cb })

structure CloseCalls where
  close : Bool
  pthreadJoin : Bool
  deriving DecidableEq, Repr

/-- `pthread_join`, unless it is the CTL thread that closes. When it does
not fail it waits for the thread to exit. -/
def joinThread (calls : CloseCalls) : Ctl Bool := do
  let joins ← .peek .joinTest fun w => w.ctx.threadId.isSome && decide (me ≠ .ctl)
  if joins && calls.pthreadJoin then do
    .pause .join
    pure joins
  else pure joins

/-- `seatctrl_close` once it has passed its check. -/
def closeContext (calls : CloseCalls) : Ctl Int := do
  .atomic .stopRunning fun w => ((), { w with ctx := { w.ctx with running := false } })
  .pause .closeWait
  let closed ← .atomic .closeSocket fun w =>
    (w.ctx.socket.isNone || calls.close, { w with ctx := { w.ctx with socket := none } })
  let joins ← joinThread me calls
  .atomic .joined fun w => ((), { w with ctx := { w.ctx with threadId := none } })
  pure (if closed && (!joins || calls.pthreadJoin) then seatCtrlOk else seatCtrlErr)

def seatctrlClose (calls : CloseCalls) : Ctl Int := do
  let magic ← .peek .closeTest (·.ctx.magic)
  if magic ≠ seatCtrlContextMagic then pure seatCtrlErrInvalid
  else closeContext me calls

end

end KuksaServices.Seat
