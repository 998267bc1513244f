import KuksaServices.Seat.Operations

/-!
# What the functions leave behind

The functions that write, run without interruption and with any outcome of
every write: which fields of the context they change, how many writes they
make and what the last frame on the bus is afterwards. The `n`-th write from
now on is `plat.write (w.writes + n)`.
-/

namespace KuksaServices.Seat

open Atomic

section
variable {plat : Platform} {me : Thread} {w : World}

-- ---------------------------------------------------------------------------
-- One write
-- ---------------------------------------------------------------------------

@[simp] theorem eventCb_ctx : (w.eventCb event value).ctx = w.ctx := by
  unfold World.eventCb
  split <;> rfl

@[simp] theorem eventCb_log : (w.eventCb event value).log = w.log := by
  unfold World.eventCb
  split <;> rfl

@[simp] theorem eventCb_writes : (w.eventCb event value).writes = w.writes := by
  unfold World.eventCb
  split <;> rfl

@[simp] theorem eventCb_ticks : (w.eventCb event value).ticks = w.ticks := by
  unfold World.eventCb
  split <;> rfl

@[simp] theorem eventCb_ctl : (w.eventCb event value).ctl = w.ctl := by
  unfold World.eventCb
  split <;> rfl

def sentBy (plat : Platform) (dir : MotorDirection) (rpm : Int) (w : World) : Sent :=
  ⟨motor1Cmd dir rpm, cmdFrame plat dir rpm, (plat.write w.writes).isNone⟩

def sendEntry (plat : Platform) (me : Thread) (dir : MotorDirection) (rpm : Int) (w : World) :
    Entry :=
  ⟨me, .send (sentBy plat dir rpm w)⟩

theorem sendCmd1_rc (hs : w.ctx.socket.isSome) :
    ((seatctrlSendCmd1 plat me dir rpm).exec w).1 =
      if (plat.write w.writes).isNone then seatCtrlOk else seatCtrlErrCanIo := by
  rw [exec_sendCmd1 hs]
  cases plat.write w.writes <;> rfl

theorem sendCmd1_frame :
    ((seatctrlSendCmd1 plat me dir rpm).exec w).2.ctx = w.ctx ∧
      ((seatctrlSendCmd1 plat me dir rpm).exec w).2.ticks = w.ticks ∧
      ((seatctrlSendCmd1 plat me dir rpm).exec w).2.ctl = w.ctl := by
  cases hs : w.ctx.socket with
  | none => simp [exec_sendCmd1_closed hs]
  | some fd =>
    rw [exec_sendCmd1 (by simp [hs])]
    cases plat.write w.writes <;> simp [afterWrite, World.record]

@[simp] theorem sendCmd1_ctx : ((seatctrlSendCmd1 plat me dir rpm).exec w).2.ctx = w.ctx :=
  sendCmd1_frame.1

@[simp] theorem sendCmd1_ticks : ((seatctrlSendCmd1 plat me dir rpm).exec w).2.ticks = w.ticks :=
  sendCmd1_frame.2.1

@[simp] theorem sendCmd1_ctl : ((seatctrlSendCmd1 plat me dir rpm).exec w).2.ctl = w.ctl :=
  sendCmd1_frame.2.2

theorem sendCmd1_writes (hs : w.ctx.socket.isSome) :
    ((seatctrlSendCmd1 plat me dir rpm).exec w).2.writes = w.writes + 1 := by
  rw [exec_sendCmd1 hs]
  cases plat.write w.writes <;> simp [afterWrite, World.record]

theorem sendCmd1_log (hs : w.ctx.socket.isSome) :
    ((seatctrlSendCmd1 plat me dir rpm).exec w).2.log = w.log ++ [sendEntry plat me dir rpm w] := by
  rw [exec_sendCmd1 hs]
  cases h : plat.write w.writes <;> simp [afterWrite, World.record, sendEntry, sentBy, h]

theorem sendCmd1_lastCmd (hs : w.ctx.socket.isSome) :
    lastCmd ((seatctrlSendCmd1 plat me dir rpm).exec w).2.log =
      if (plat.write w.writes).isNone then some dir.code else lastCmd w.log := by
  rw [sendCmd1_log hs, sendEntry, sentBy, lastCmd_sent]
  rfl

-- ---------------------------------------------------------------------------
-- Stopping
-- ---------------------------------------------------------------------------

theorem exec_stopMovement : (seatctrlStopMovement plat me).exec w =
    (((seatctrlSendCmd1 plat me .off 0).exec w).1,
      ((seatctrlSendCmd1 plat me .off 0).exec w).2.setCommand me .idle) := by
  simp [seatctrlStopMovement, setCommand]

@[simp] theorem stopMovement_ctx :
    ((seatctrlStopMovement plat me).exec w).2.ctx = { w.ctx with command := .idle } := by
  simp [exec_stopMovement, World.setCommand, World.record]

@[simp] theorem stopMovement_ticks :
    ((seatctrlStopMovement plat me).exec w).2.ticks = w.ticks := by
  simp [exec_stopMovement, World.setCommand, World.record]

@[simp] theorem stopMovement_status :
    ((seatctrlStopMovement plat me).exec w).2.ctl = w.ctl := by
  simp [exec_stopMovement, World.setCommand, World.record]

theorem stopMovement_writes (hs : w.ctx.socket.isSome) :
    ((seatctrlStopMovement plat me).exec w).2.writes = w.writes + 1 := by
  simpa [exec_stopMovement, World.setCommand, World.record] using sendCmd1_writes hs

theorem stopMovement_log (hs : w.ctx.socket.isSome) :
    ((seatctrlStopMovement plat me).exec w).2.log =
      w.log ++ [sendEntry plat me .off 0 w, ⟨me, .command .idle⟩] := by
  simp [exec_stopMovement, World.setCommand, World.record, sendCmd1_log hs]

theorem stopMovement_lastCmd (hs : w.ctx.socket.isSome) :
    lastCmd ((seatctrlStopMovement plat me).exec w).2.log =
      if (plat.write w.writes).isNone then some MotorDirection.off.code else lastCmd w.log := by
  rw [exec_stopMovement, lastCmd_setCommand, sendCmd1_lastCmd hs]

-- ---------------------------------------------------------------------------
-- Commanding a position
-- ---------------------------------------------------------------------------

def deciding (plat : Platform) (me : Thread) (w : World) : World :=
  ((seatctrlStopMovement plat me).exec w).2.record me (.current w.ctx.motor1Pos)

theorem exec_commandPosition_moving (hpos : (w.ctx.motor1Pos : Int) = desired)
    (hmov : w.ctx.motor1MovState ≠ MotorDirection.off.code) :
    (commandPosition plat me desired).exec w =
      (seatCtrlOk, ((seatctrlStopMovement plat me).exec (deciding plat me w)).2) := by
  simp [commandPosition, decidePosition, hpos, hmov, deciding, World.record]

theorem exec_commandPosition_there (hpos : (w.ctx.motor1Pos : Int) = desired)
    (hmov : w.ctx.motor1MovState = MotorDirection.off.code) :
    (commandPosition plat me desired).exec w =
      (seatCtrlOk, (deciding plat me w).setCommand me .idle) := by
  simp [commandPosition, decidePosition, hpos, hmov, deciding, World.record, setCommand]

def commandFor (plat : Platform) (w : World) (desired : Int) : Command :=
  ⟨toUint8 desired, directionTo w.ctx.motor1Pos desired, plat.clock w.ticks⟩

def commanding (plat : Platform) (me : Thread) (w : World) (desired : Int) : World :=
  { deciding plat me w with ticks := w.ticks + 1 }.setCommand me (commandFor plat w desired)

theorem exec_commandPosition_away (hpos : (w.ctx.motor1Pos : Int) ≠ desired) :
    (commandPosition plat me desired).exec w =
      (seatctrlSendCmd1 plat me (directionTo w.ctx.motor1Pos desired) w.ctx.config.motorRpm).exec
        (commanding plat me w desired) := by
  simp [commandPosition, decidePosition, hpos, deciding, commanding, commandFor, World.record, setCommand,
    World.getTs, World.setCommand]

@[simp] theorem deciding_ctx :
    (deciding plat me w).ctx = { w.ctx with command := .idle } := by
  simp [deciding, World.record]

@[simp] theorem deciding_ctl : (deciding plat me w).ctl = w.ctl := by
  simp [deciding, World.record]

theorem deciding_writes (hs : w.ctx.socket.isSome) :
    (deciding plat me w).writes = w.writes + 1 := stopMovement_writes hs

theorem deciding_lastCmd (hs : w.ctx.socket.isSome) : lastCmd (deciding plat me w).log =
    if (plat.write w.writes).isNone then some MotorDirection.off.code else lastCmd w.log := by
  rw [deciding, World.record, lastCmd_current, stopMovement_lastCmd hs]

theorem commandFor_active (plat : Platform) (w : World) (h0 : 0 ≤ desired) (h100 : desired ≤ 100) :
    (commandFor plat w desired).Active := by
  have hpos := toUint8_of_lt h0 (by omega : desired < 256)
  refine ⟨?_, directionTo_cases _ _, plat.clock_pos _⟩
  simp only [commandFor]
  omega

-- ---------------------------------------------------------------------------
-- The control loop
-- ---------------------------------------------------------------------------

def resent (plat : Platform) (me : Thread) (pursuit : Pursuit) (w : World) : World :=
  if pursuit.resend then ((resendCommand plat me).exec w).2 else w

theorem exec_pursueCommand : (pursueCommand plat me pursuit).exec w =
    (checkCommand plat me pursuit).exec (resent plat me pursuit w) := by
  unfold pursueCommand resent
  split <;> simp

theorem exec_resendCommand : ((resendCommand plat me).exec w).2 =
    ((seatctrlSendCmd1 plat me w.ctx.command.direction w.ctx.config.motorRpm).exec
      ((seatctrlSendCmd1 plat me .off 0).exec w).2).2 := by
  simp [resendCommand]

@[simp] theorem resent_ctx : (resent plat me pursuit w).ctx = w.ctx := by
  unfold resent
  split
  · rw [exec_resendCommand]
    simp
  · rfl

theorem resent_writes (hs : w.ctx.socket.isSome) : (resent plat me pursuit w).writes =
    if pursuit.resend then w.writes + 2 else w.writes := by
  unfold resent
  split
  · rw [exec_resendCommand, sendCmd1_writes (by simpa using hs), sendCmd1_writes hs]
  · rfl

theorem resent_lastCmd (plat : Platform) (me : Thread) (hs : w.ctx.socket.isSome)
    (hr : pursuit.resend = true) :
    lastCmd (resent plat me pursuit w).log =
      if (plat.write (w.writes + 1)).isNone then some w.ctx.command.direction.code
      else if (plat.write w.writes).isNone then some MotorDirection.off.code
      else lastCmd w.log := by
  rw [resent, if_pos hr, exec_resendCommand, sendCmd1_lastCmd (by simpa using hs),
    sendCmd1_writes hs, sendCmd1_lastCmd hs]

def resendEntries (plat : Platform) (me : Thread) (pursuit : Pursuit) (w : World) : List Entry :=
  if pursuit.resend then
    [sendEntry plat me .off 0 w, sendEntry plat me w.ctx.command.direction w.ctx.config.motorRpm
      ((seatctrlSendCmd1 plat me .off 0).exec w).2]
  else []

theorem resent_log (plat : Platform) (me : Thread) (pursuit : Pursuit)
    (hs : w.ctx.socket.isSome) :
    (resent plat me pursuit w).log = w.log ++ resendEntries plat me pursuit w := by
  unfold resent resendEntries
  split
  · rw [exec_resendCommand, sendCmd1_log (by simpa using hs), sendCmd1_log hs, List.append_assoc]
    rfl
  · simp

@[simp] theorem cacheMotorState_ctx : (cacheMotorState pursuit w).ctx = w.ctx := by
  unfold cacheMotorState
  split <;> rfl

def ending (me : Thread) (pursuit : Pursuit) (why : Ending) (w : World) : World :=
  (cacheMotorState pursuit w).record me (.ended w.ctx.command why)

theorem exec_checkCommand_ends (h : endingOf pursuit.elapsed w.ctx = some why) :
    ((checkCommand plat me pursuit).exec w).2 =
      invalidateCtlCache ((seatctrlStopMovement plat me).exec (ending me pursuit why w)).2 := by
  simp [checkCommand, checkEnding, h, ending]

theorem exec_checkCommand_goes (h : endingOf pursuit.elapsed w.ctx = none) :
    ((checkCommand plat me pursuit).exec w).2 = cacheMotorState pursuit w := by
  simp [checkCommand, checkEnding, h]

@[simp] theorem ending_ctx : (ending me pursuit why w).ctx = w.ctx := by
  simp [ending, World.record]

@[simp] theorem ending_writes : (ending me pursuit why w).writes = w.writes :=
  (calm_cacheMotorState pursuit w).writes

theorem ending_log : (ending me pursuit why w).log = w.log ++ [⟨me, .ended w.ctx.command why⟩] := by
  rw [ending, World.record, (calm_cacheMotorState pursuit w).log]

/-- A command that has ended is idle afterwards, whether or not the last
motor-off frame reached the bus. -/
theorem pursueCommand_ends (plat : Platform) (me : Thread)
    (h : endingOf pursuit.elapsed w.ctx = some why)
    (hs : w.ctx.socket.isSome) :
    ((pursueCommand plat me pursuit).exec w).2.ctx = { w.ctx with command := .idle } ∧
      lastCmd ((pursueCommand plat me pursuit).exec w).2.log =
        if (plat.write (resent plat me pursuit w).writes).isNone then some MotorDirection.off.code
        else lastCmd (resent plat me pursuit w).log := by
  rw [exec_pursueCommand, exec_checkCommand_ends (by simpa using h)]
  constructor
  · simp [invalidateCtlCache]
  · simp only [invalidateCtlCache]
    rw [stopMovement_lastCmd (by simpa using hs), ending_log, lastCmd_ended, ending_writes]

theorem pursueCommand_ends_log (plat : Platform) (me : Thread)
    (h : endingOf pursuit.elapsed w.ctx = some why) (hs : w.ctx.socket.isSome) :
    ∃ entries v, ((pursueCommand plat me pursuit).exec w).2.log =
      w.log ++ entries ++ [sendEntry plat me .off 0 v, ⟨me, .command .idle⟩] := by
  rw [exec_pursueCommand, exec_checkCommand_ends (by simpa using h)]
  simp only [invalidateCtlCache]
  rw [stopMovement_log (by simpa using hs), ending_log, resent_log plat me pursuit hs]
  exact ⟨_, _, by rw [List.append_assoc w.log]⟩

theorem pursueCommand_goes (plat : Platform) (me : Thread)
    (h : endingOf pursuit.elapsed w.ctx = none) :
    ((pursueCommand plat me pursuit).exec w).2.ctx = w.ctx := by
  rw [exec_pursueCommand, exec_checkCommand_goes (by simpa using h)]
  simp

-- ---------------------------------------------------------------------------
-- An open context stays open
-- ---------------------------------------------------------------------------

structure Open (w : World) : Prop where
  magic : w.ctx.magic = seatCtrlContextMagic
  socket : w.ctx.socket.isSome
  command : w.ctx.command = .idle ∨ w.ctx.command.Active

theorem Session.opened_open (s : Session) : Open s.opened := by
  rw [opened_eq, context_eq]
  exact ⟨rfl, s.socket_isSome, .inl rfl⟩

theorem Open.congr (h : Open w) (hctx : w'.ctx = w.ctx) : Open w' :=
  ⟨hctx ▸ h.magic, hctx ▸ h.socket, hctx ▸ h.command⟩

theorem Open.withCommand (h : Open w) (hctx : w'.ctx = { w.ctx with command := c })
    (hc : c = .idle ∨ c.Active) : Open w' :=
  ⟨by rw [hctx]; exact h.magic, by rw [hctx]; exact h.socket, by rw [hctx]; exact hc⟩

theorem Open.calm (h : Open w) (hc : Calm w w') : Open w' :=
  ⟨hc.magic.trans h.magic, hc.socket ▸ h.socket, hc.command ▸ h.command⟩

theorem isCtlRunning_of_active (hs : w.ctx.socket.isSome) (ha : w.ctx.command.Active) :
    isCtlRunning w.ctx = true := by
  obtain ⟨hpos, hdir, hts⟩ := ha
  have hne : w.ctx.command.position ≠ motorPosInvalid := by
    simp only [motorPosInvalid]
    omega
  rcases hdir with hd | hd <;> simp [isCtlRunning, hs, hts, hd, hne]

theorem Open.idle_iff (h : Open w) : isCtlRunning w.ctx = false ↔ w.ctx.command = .idle := by
  constructor
  · intro hrun
    refine h.command.resolve_right fun ha => ?_
    rw [isCtlRunning_of_active h.socket ha] at hrun
    cases hrun
  · intro hi
    simp [isCtlRunning, hi, Command.idle]

theorem calm_turnBegins (w : World) : Calm w (turnBegins w) := ⟨rfl, rfl, rfl, rfl, rfl, rfl⟩

theorem Calm.isCtlRunning (h : Calm w w') : isCtlRunning w'.ctx = isCtlRunning w.ctx := by
  unfold Seat.isCtlRunning
  rw [h.socket, h.command]

theorem Open.active (h : Open w) (hrun : Seat.isCtlRunning w.ctx) : w.ctx.command.Active := by
  refine h.command.resolve_left fun hi => ?_
  rw [h.idle_iff.mpr hi] at hrun
  cases hrun

def turnEnding (plat : Platform) (w : World) (result : ReadResult) : Option Pursuit :=
  (heardStat plat (turnBegins w) result).bind fun stat =>
    let v := applyStat stat (turnBegins w)
    (pursue plat v).1.filter fun pursuit => (endingOf pursuit.elapsed v.ctx).isSome

theorem turn_ends (me : Thread) (h : turnEnding plat w result = some pursuit) :
    ∃ v why, Calm w v ∧ isCtlRunning v.ctx ∧ endingOf pursuit.elapsed v.ctx = some why ∧
      ((threadTurn plat me result).exec (turnBegins w)).2 =
        ((pursueCommand plat me pursuit).exec v).2 := by
  obtain ⟨stat, hstat, hp⟩ := Option.bind_eq_some_iff.mp h
  obtain ⟨hp, he⟩ := Option.filter_eq_some_iff.mp hp
  obtain ⟨why, hwhy⟩ := Option.isSome_iff_exists.mp he
  have hspec := pursue_spec plat (applyStat stat (turnBegins w))
  simp only [hp] at hspec
  refine ⟨(pursue plat (applyStat stat (turnBegins w))).2, why, ?_, ?_, ?_, ?_⟩
  · exact ((calm_turnBegins w).trans (calm_applyStat stat _)).trans hspec.1.calm
  · exact hspec.1.ctx ▸ hspec.2.running
  · rw [hspec.1.ctx]
    exact hwhy
  · rw [exec_turn_heard hstat, exec_controlLoop_pursues hp]

/-- A turn that does not end a command keeps it, and without a command it
does not write. -/
theorem turn_goes (me : Thread) (hopen : Open w) (h : turnEnding plat w result = none) :
    Open ((threadTurn plat me result).exec (turnBegins w)).2 ∧
      ((threadTurn plat me result).exec (turnBegins w)).2.ctx.command = w.ctx.command ∧
      (isCtlRunning w.ctx = false →
        ((threadTurn plat me result).exec (turnBegins w)).2.log = w.log) := by
  cases hstat : heardStat plat (turnBegins w) result with
  | none =>
    obtain ⟨events, he⟩ := exec_turn_deaf me hstat
    rw [he]
    exact ⟨hopen.congr rfl, rfl, fun _ => rfl⟩
  | some stat =>
    have hspec := pursue_spec plat (applyStat stat (turnBegins w))
    have hcalm := (calm_turnBegins w).trans (calm_applyStat stat _)
    rw [exec_turn_heard hstat]
    cases hp : (pursue plat (applyStat stat (turnBegins w))).1 with
    | none =>
      have hall := hcalm.trans hspec.1.calm
      rw [exec_controlLoop_idle hp]
      exact ⟨hopen.calm hall, hall.command, fun _ => hall.log⟩
    | some pursuit =>
      simp only [hp] at hspec
      have hnone : endingOf pursuit.elapsed (pursue plat (applyStat stat (turnBegins w))).2.ctx =
          none := by
        rw [hspec.1.ctx]
        simpa [turnEnding, hstat, hp, Option.filter_some] using h
      have hctx := pursueCommand_goes plat me hnone
      have hall := hcalm.trans hspec.1.calm
      rw [exec_controlLoop_pursues hp]
      refine ⟨(hopen.calm hall).congr hctx, by rw [hctx]; exact hall.command, fun hidle => ?_⟩
      rw [← hcalm.isCtlRunning, hspec.2.running] at hidle
      cases hidle

theorem Open.turn_ends (hopen : Open w) (h : turnEnding plat w result = some pursuit) :
    Open ((threadTurn plat me result).exec (turnBegins w)).2 := by
  obtain ⟨v, why, hc, -, hend, he⟩ := Seat.turn_ends me h
  rw [he]
  exact (hopen.calm hc).withCommand (pursueCommand_ends plat me hend (hc.socket ▸ hopen.socket)).1 (.inl rfl)

theorem setPosition_ctx (plat : Platform) (me : Thread) (desired : Int) (w : World) :
    ∃ c, ((seatctrlSetPosition plat me desired).exec w).2.ctx = { w.ctx with command := c } ∧
      ((seatctrlSetPosition plat me desired).exec w).2.ctl = w.ctl ∧
      (c = w.ctx.command ∨ c = .idle ∨ c.Active) := by
  by_cases hr : Refused w desired
  · obtain ⟨rc, -, he⟩ := exec_setPosition_refused plat me hr
    rw [he]
    exact ⟨w.ctx.command, rfl, rfl, .inl rfl⟩
  · rw [exec_setPosition_accepted hr]
    simp only [Refused, not_or, Int.not_lt] at hr
    by_cases hpos : (w.ctx.motor1Pos : Int) = desired
    · by_cases hmov : w.ctx.motor1MovState = MotorDirection.off.code
      · rw [exec_commandPosition_there hpos hmov]
        exact ⟨.idle, by simp [World.setCommand, World.record],
          by simp [World.setCommand, World.record], .inr (.inl rfl)⟩
      · rw [exec_commandPosition_moving hpos hmov]
        exact ⟨.idle, by simp, by simp, .inr (.inl rfl)⟩
    · rw [exec_commandPosition_away hpos]
      refine ⟨commandFor plat w desired, ?_, ?_,
        .inr (.inr (commandFor_active plat w hr.2.1 (by omega)))⟩
      · simp [commanding, World.setCommand, World.record]
      · simp [commanding, World.setCommand, World.record]

theorem Open.setPosition (hopen : Open w) :
    Open ((seatctrlSetPosition plat me desired).exec w).2 := by
  obtain ⟨c, hctx, -, hc⟩ := setPosition_ctx plat me desired w
  refine hopen.withCommand hctx ?_
  rcases hc with rfl | hc | hc
  · exact hopen.command
  · exact .inl hc
  · exact .inr hc

theorem Open.opStep (hopen : Open w) (hs : opStep plat w op = some w') : Open w' := by
  cases op with
  | setPosition n desired =>
    obtain rfl := Option.some.inj hs
    exact hopen.setPosition
  | stopMovement n =>
    obtain rfl := Option.some.inj hs
    exact hopen.withCommand stopMovement_ctx (.inl rfl)
  | start =>
    obtain ⟨-, hs⟩ := Option.ite_none_right_eq_some.mp hs
    obtain rfl := Option.some.inj hs
    exact hopen.calm ⟨rfl, rfl, rfl, rfl, rfl, rfl⟩
  | turn result =>
    obtain ⟨-, hs⟩ := Option.ite_none_right_eq_some.mp hs
    obtain rfl := Option.some.inj hs
    cases h : turnEnding plat w result with
    | none => exact (turn_goes .ctl hopen h).1
    | some pursuit => exact hopen.turn_ends h

end

end KuksaServices.Seat
