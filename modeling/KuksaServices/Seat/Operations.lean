import KuksaServices.Seat.Agreement

/-!
# Runs of operations

A run is a sequence of operations that do not overlap: calls of
`seatctrl_set_position` and `seatctrl_stop_movement`, the start of the CTL
thread and its turns. Each function gets the equation its callers use:
`exec_setPosition_*`, `exec_turn_*` and `exec_controlLoop_*`. When every
write succeeds, bus and context agree in every state of a run
(`bus_context_agreement`).
-/

namespace KuksaServices.Seat

open Atomic

inductive Op where
  | setPosition (caller : Nat) (desired : Int)
  | stopMovement (caller : Nat)
  | start
  | turn (result : ReadResult)
  deriving DecidableEq, Repr

/-- The clock is looked at once when a turn begins, so that a turn has a
time even when it does not ask for it. -/
def turnBegins (w : World) : World := { w with ticks := w.ticks + 1 }

def opStep (plat : Platform) (w : World) : Op → Option World
  | .setPosition n desired => some ((seatctrlSetPosition plat (.caller n) desired).exec w).2
  | .stopMovement n => some ((seatctrlStopMovement plat (.caller n)).exec w).2
  | .start => if w.ctl = .created then some (threadStart.exec w).2 else none
  | .turn result =>
    if w.ctl = .looping then some ((threadTurn plat .ctl result).exec (turnBegins w)).2 else none

/-- A context initialised with a default configuration, and the calls of a
successful `seatctrl_open` on it. -/
structure Session where
  getenv : String → Option String
  statics : Statics
  memory : Context
  eventCb : Bool
  calls : OpenCalls
  socket_isSome : calls.socket.isSome
  bind_ok : calls.bind = true
  pthreadCreate_isSome : calls.pthreadCreate.isSome

namespace Session

def context (s : Session) : Context :=
  (seatctrlSetEventCallback s.eventCb
    (seatctrlInitCtx s.memory (seatctrlDefaultConfig s.getenv).2).2).2

def opened (s : Session) : World := ((seatctrlOpen s.calls).exec (.boot s.statics s.context)).2

theorem context_eq (s : Session) : s.context = {
    magic := seatCtrlContextMagic
    config := (seatctrlDefaultConfig s.getenv).2
    socket := none
    running := false
    threadId := none
    command := .idle
    motor1Pos := motorPosInvalid
    motor1MovState := MotorDirection.inv.code
    motor1LearningState := LearningState.invalid.code
    eventCb := s.eventCb } := by
  obtain ⟨device, hd⟩ := Option.isSome_iff_exists.mp (seatctrlDefaultConfig_canDevice s.getenv)
  simp [context, seatctrlInitCtx, seatctrlSetEventCallback, hd]

theorem exec_open (s : Session) : (seatctrlOpen s.calls).exec (.boot s.statics s.context) =
    (seatCtrlOk, { World.boot s.statics { s.context with
        socket := s.calls.socket, threadId := s.calls.pthreadCreate } with ctl := .created }) := by
  obtain ⟨device, hd⟩ := Option.isSome_iff_exists.mp (seatctrlDefaultConfig_canDevice s.getenv)
  obtain ⟨fd, hfd⟩ := Option.isSome_iff_exists.mp s.socket_isSome
  obtain ⟨id, hid⟩ := Option.isSome_iff_exists.mp s.pthreadCreate_isSome
  simp [seatctrlOpen, openContext, openRefused, World.boot, context_eq, hd, hfd, hid, s.bind_ok]

theorem opened_eq (s : Session) : s.opened = { World.boot s.statics { s.context with
    socket := s.calls.socket, threadId := s.calls.pthreadCreate } with ctl := .created } := by
  rw [opened, exec_open]

theorem opened_agrees (s : Session) : Agrees plat s.opened := by
  have hrpm := seatctrlDefaultConfig_motorRpm s.getenv
  have htidy : Tidy [] := ⟨Preceded.nil, by simp [written, attempts]⟩
  rw [opened_eq, context_eq]
  exact ⟨⟨rfl, s.socket_isSome, hrpm, htidy⟩, .inl rfl, .inr ⟨rfl, rfl⟩, rfl⟩

end Session

-- ---------------------------------------------------------------------------
-- Setting a position
-- ---------------------------------------------------------------------------

section
variable {plat : Platform} {me : Thread} {w : World}

def Refused (w : World) (desired : Int) : Prop :=
  w.ctx.magic ≠ seatCtrlContextMagic ∨ desired < 0 ∨ desired > 100 ∨
    w.ctx.motor1Pos = motorPosInvalid

instance (w : World) (desired : Int) : Decidable (Refused w desired) :=
  inferInstanceAs (Decidable (_ ∨ _))

theorem exec_waitForPosition (n : Nat) : (waitForPosition n).exec w = ((), w) := by
  induction n with
  | zero => rfl
  | succ n ih => simp [waitForPosition, ih]

theorem exec_positionKnown :
    positionKnown.exec w = (decide (w.ctx.motor1Pos ≠ motorPosInvalid), w) := by
  by_cases h : w.ctx.motor1Pos = motorPosInvalid <;>
    simp [positionKnown, exec_waitForPosition, h]

theorem exec_setPosition_refused (plat : Platform) (me : Thread) (h : Refused w desired) :
    ∃ rc, rc ≠ seatCtrlOk ∧ (seatctrlSetPosition plat me desired).exec w = (rc, w) := by
  unfold seatctrlSetPosition
  simp only [Prog.exec_bind, Prog.exec_peek, Prog.exec_ite, Prog.exec_pure, exec_positionKnown]
  split_ifs with hm hr hpos
  · exact ⟨seatCtrlErrInvalid, by decide, rfl⟩
  · exact ⟨seatCtrlErrInvalid, by decide, rfl⟩
  · rcases h with h | h | h | h
    · exact absurd h hm
    · exact absurd (.inl h) hr
    · exact absurd (.inr h) hr
    · simp [h] at hpos
  · exact ⟨seatCtrlErrNoFrames, by decide, rfl⟩

theorem exec_setPosition_accepted (h : ¬Refused w desired) :
    (seatctrlSetPosition plat me desired).exec w = (commandPosition plat me desired).exec w := by
  simp only [Refused, not_or, not_not] at h
  obtain ⟨hm, h0, h100, hpos⟩ := h
  simp [seatctrlSetPosition, exec_positionKnown, hm, h0, h100, hpos]

-- ---------------------------------------------------------------------------
-- A turn of the CTL thread
-- ---------------------------------------------------------------------------

def acceptedRead (plat : Platform) : ReadResult → Option Secu1Stat
  | .frame frame => acceptedStat plat frame
  | .error _ => none

theorem canId_of_acceptedStat (h : acceptedStat plat frame = some stat) :
    frame.canId = secu1StatFrameId := by
  unfold acceptedStat at h
  split at h
  · cases h
  · exact not_not.mp ‹_›

theorem acceptedStat_position (h : acceptedStat plat frame = some stat) :
    stat.motor1Pos.toNat ≤ 100 ∨ stat.motor1Pos.toNat = motorPosInvalid := by
  unfold acceptedStat at h
  split at h
  · cases h
  · obtain ⟨-, h⟩ := Option.filter_eq_some_iff.mp h
    simp only [Bool.and_eq_true, Bool.or_eq_true, decide_eq_true_eq, beq_iff_eq] at h
    exact h.1.1.2

theorem acceptedRead_position (h : acceptedRead plat result = some stat) :
    stat.motor1Pos.toNat ≤ 100 ∨ stat.motor1Pos.toNat = motorPosInvalid := by
  cases result with
  | error err => cases h
  | frame frame => exact acceptedStat_position (show acceptedStat plat frame = some stat from h)

theorem rejectedStat_ne_ok : rejectedStat plat frame ≠ seatCtrlOk := by
  unfold rejectedStat
  split_ifs <;> decide

theorem eventCb_eq (w : World) (event : SeatCtrlEvent) (value : Int) :
    ∃ events, w.eventCb event value = { w with events := events } := by
  unfold World.eventCb
  split
  · exact ⟨_, rfl⟩
  · exact ⟨w.events, rfl⟩

theorem exec_body_heard (h : acceptedRead plat result = some stat) :
    ((threadBody plat me result).exec w).2 =
      ((seatctrlControlLoop plat me).exec (applyStat stat w)).2 := by
  cases result with
  | error err => cases h
  | frame frame =>
    have h : acceptedStat plat frame = some stat := h
    simp [threadBody, handleSecuStat, canId_of_acceptedStat h, h]

def ReadResult.recoverable : ReadResult → Bool
  | .frame _ => true
  | .error err => err == eagain || err == eintr

theorem exec_body_deaf (me : Thread) (w : World) (h : acceptedRead plat result = none) :
    ∃ ctl events, ((threadBody plat me result).exec w).2 = { w with ctl := ctl, events := events } ∧
      (w.ctx.running = true → ctl = if result.recoverable then w.ctl else .exited) := by
  cases result with
  | error err =>
    obtain ⟨events, he⟩ := eventCb_eq w .canError err
    by_cases hagain : err = eagain
    · refine ⟨if w.ctx.running then w.ctl else .exited, w.events, ?_, ?_⟩
      · cases hr : w.ctx.running <;> simp [threadBody, hagain, hr, World.leaveLoop]
      · intro hr
        simp [ReadResult.recoverable, hagain, hr]
    · by_cases hintr : err = eintr
      · exact ⟨w.ctl, w.events, by simp [threadBody, hintr, eagain, eintr],
          fun _ => by simp [ReadResult.recoverable, hintr]⟩
      · refine ⟨.exited, events, ?_, fun _ => by simp [ReadResult.recoverable, hagain, hintr]⟩
        simp [threadBody, hagain, hintr, readError, enetdown, he, World.leaveLoop]
  | frame frame =>
    have h : acceptedStat plat frame = none := h
    exact ⟨w.ctl, w.events, by simp [threadBody, handleSecuStat, h, rejectedStat_ne_ok],
      fun _ => rfl⟩

def heardStat (plat : Platform) (w : World) (result : ReadResult) : Option Secu1Stat :=
  if w.ctx.running && w.ctx.socket.isSome then acceptedRead plat result else none

theorem exec_turn_heard (h : heardStat plat w result = some stat) :
    ((threadTurn plat me result).exec w).2 =
      ((seatctrlControlLoop plat me).exec (applyStat stat w)).2 := by
  obtain ⟨hgo, h⟩ := Option.ite_none_right_eq_some.mp h
  rw [Bool.and_eq_true] at hgo
  simp [threadTurn, hgo, exec_body_heard h]

theorem exec_turn_deaf (me : Thread) (h : heardStat plat w result = none) :
    ∃ events, ((threadTurn plat me result).exec w).2 = { w with
      ctl := if w.ctx.running && w.ctx.socket.isSome && result.recoverable then w.ctl else .exited
      events := events } := by
  by_cases hgo : w.ctx.running = true ∧ w.ctx.socket.isSome = true
  · have hread : acceptedRead plat result = none := by simpa [heardStat, hgo] using h
    obtain ⟨ctl, events, he, hctl⟩ := exec_body_deaf me w hread
    exact ⟨events, by simp [threadTurn, hgo, he, hctl hgo.1]⟩
  · refine ⟨w.events, ?_⟩
    rw [not_and_or, Bool.not_eq_true, Bool.not_eq_true] at hgo
    rcases hgo with hgo | hgo <;> simp [threadTurn, hgo, World.leaveLoop]

-- ---------------------------------------------------------------------------
-- The control loop
-- ---------------------------------------------------------------------------

theorem calm_applyStat (stat : Secu1Stat) (w : World) : Calm w (applyStat stat w) := by
  unfold applyStat World.eventCb
  split_ifs <;> exact ⟨rfl, rfl, rfl, rfl, rfl, rfl⟩

theorem applyStat_ctx (stat : Secu1Stat) (w : World) : (applyStat stat w).ctx = { w.ctx with
    motor1MovState := stat.motor1MovState.toNat
    motor1LearningState := stat.motor1LearningState.toNat
    motor1Pos := stat.motor1Pos.toNat } := by
  unfold applyStat World.eventCb
  split_ifs <;> rfl

theorem applyStat_ctl (stat : Secu1Stat) (w : World) : (applyStat stat w).ctl = w.ctl := by
  unfold applyStat World.eventCb
  split_ifs <;> rfl

theorem applyStat_ticks (stat : Secu1Stat) (w : World) : (applyStat stat w).ticks = w.ticks := by
  unfold applyStat World.eventCb
  split_ifs <;> rfl

/-- A look of the control loop moves the clock and the learned mode only. -/
structure Looked (w w' : World) : Prop where
  ctx : w'.ctx = w.ctx
  log : w'.log = w.log
  writes : w'.writes = w.writes
  ticks : w.ticks ≤ w'.ticks
  lastCtlPos : w'.statics.lastCtlPos = w.statics.lastCtlPos
  lastCtlDir : w'.statics.lastCtlDir = w.statics.lastCtlDir
  ctl : w'.ctl = w.ctl

theorem Looked.calm (h : Looked w w') : Calm w w' :=
  ⟨by rw [h.ctx], by rw [h.ctx], by rw [h.ctx], by rw [h.ctx], h.log, h.writes⟩

theorem flipLearnedMode_looked : Looked w (flipLearnedMode plat message w) := by
  unfold flipLearnedMode World.getTs
  simp only
  split <;> exact ⟨rfl, rfl, rfl, Nat.le_succ _, rfl, rfl, rfl⟩

theorem trackLearnedMode_looked : Looked w (trackLearnedMode plat w) := by
  unfold trackLearnedMode
  split_ifs
  · exact flipLearnedMode_looked
  · exact flipLearnedMode_looked
  · exact ⟨rfl, rfl, rfl, Nat.le_refl _, rfl, rfl, rfl⟩

structure Pursues (plat : Platform) (w : World) (pursuit : Pursuit) : Prop where
  running : isCtlRunning w.ctx
  elapsed : ∃ n, w.ticks ≤ n ∧ pursuit.elapsed = plat.clock n - w.ctx.command.ts
  moves : awaitsMovement w.ctx pursuit.elapsed = false
  resend : pursuit.resend = ((w.statics.lastCtlPos ≠ w.ctx.motor1Pos ∨
    w.statics.lastCtlDir ≠ w.ctx.motor1MovState) && stoppedShort w.ctx)

theorem pursue_spec (plat : Platform) (w : World) :
    Looked w (pursue plat w).2 ∧ match (pursue plat w).1 with
    | some pursuit => Pursues plat w pursuit
    | none => isCtlRunning w.ctx = false ∨
      ∃ n, w.ticks ≤ n ∧ awaitsMovement w.ctx (plat.clock n - w.ctx.command.ts) := by
  have hl : Looked w (trackLearnedMode plat w) := trackLearnedMode_looked
  unfold pursue
  generalize trackLearnedMode plat w = v at hl
  obtain ⟨hctx, hlog, hwrites, hticks, hpos, hdir, hctl⟩ := hl
  have hlook : Looked w { v with ctx := w.ctx, ticks := v.ticks + 1 } :=
    ⟨rfl, hlog, hwrites, Nat.le_succ_of_le hticks, hpos, hdir, hctl⟩
  simp only [World.getTs, hctx, hpos, hdir]
  split_ifs with hrun hawait
  · exact ⟨hlook, .inr ⟨v.ticks, hticks, hawait⟩⟩
  · refine ⟨hlook, hrun, ⟨v.ticks, hticks, rfl⟩, ?_, rfl⟩
    simpa using hawait
  · exact ⟨⟨hctx, hlog, hwrites, hticks, hpos, hdir, hctl⟩, .inl (by simpa using hrun)⟩

theorem exec_controlLoop_idle (h : (pursue plat w).1 = none) :
    ((seatctrlControlLoop plat me).exec w).2 = (pursue plat w).2 := by
  simp [seatctrlControlLoop, h]

theorem exec_controlLoop_pursues (h : (pursue plat w).1 = some pursuit) :
    ((seatctrlControlLoop plat me).exec w).2 =
      ((pursueCommand plat me pursuit).exec (pursue plat w).2).2 := by
  simp [seatctrlControlLoop, h]

end

-- ---------------------------------------------------------------------------
-- Agreement in every run
-- ---------------------------------------------------------------------------

section
variable {plat : Platform} {w : World}

theorem Agrees.active (h : Agrees plat w) (hrun : isCtlRunning w.ctx) : w.ctx.command.Active := by
  rcases h.command with hi | ha
  · simp [isCtlRunning, hi, Command.idle] at hrun
  · exact ha

theorem Agrees.setPosition (hok : ∀ n, plat.write n = none) (h : Agrees plat w) :
    Agrees plat ((seatctrlSetPosition plat (.caller n) desired).exec w).2 := by
  by_cases hr : Refused w desired
  · obtain ⟨rc, -, he⟩ := exec_setPosition_refused plat (.caller n) hr
    rw [he]
    exact h
  · rw [exec_setPosition_accepted hr]
    simp only [Refused, not_or, Int.not_lt] at hr
    exact (commandPosition_keeps hok hr.2.1 (by omega) w h).exec fun _ _ => trivial

theorem Agrees.stopMovement (hok : ∀ n, plat.write n = none) (h : Agrees plat w) :
    Agrees plat ((seatctrlStopMovement plat (.caller n)).exec w).2 :=
  ((stopMovement_caller hok w h.sound).exec fun _ _ => trivial).agrees

theorem Agrees.pursueCommand_holds (hok : ∀ n, plat.write n = none) (h : Agrees plat w)
    (hp : (pursue plat w).1 = some pursuit) :
    (pursueCommand plat .ctl pursuit).Holds changes (fun _ => Agrees plat) (pursue plat w).2 := by
  have hspec := pursue_spec plat w
  have hcalm := h.calm hspec.1.calm
  simp only [hp] at hspec
  obtain ⟨hlook, hrun, ⟨n, -, hel⟩, -, -⟩ := hspec
  refine pursueCommand_keeps hok _ ⟨hcalm, ?_, ?_⟩
  · exact hcalm.active (hlook.ctx ▸ hrun)
  · exact ⟨n, by rw [hlook.ctx]; exact hel⟩

theorem Agrees.controlLoop (hok : ∀ n, plat.write n = none) (h : Agrees plat w) :
    Agrees plat ((seatctrlControlLoop plat .ctl).exec w).2 := by
  cases hp : (pursue plat w).1 with
  | none =>
    rw [exec_controlLoop_idle hp]
    exact h.calm (pursue_spec plat w).1.calm
  | some pursuit =>
    rw [exec_controlLoop_pursues hp]
    exact (h.pursueCommand_holds hok hp).exec fun _ _ => trivial

theorem Agrees.turn (hok : ∀ n, plat.write n = none) (h : Agrees plat w) :
    Agrees plat ((threadTurn plat .ctl result).exec w).2 := by
  cases hs : heardStat plat w result with
  | none =>
    obtain ⟨events, he⟩ := exec_turn_deaf .ctl hs
    rw [he]
    exact h.calm ⟨rfl, rfl, rfl, rfl, rfl, rfl⟩
  | some stat =>
    rw [exec_turn_heard hs]
    exact (h.calm (calm_applyStat stat w)).controlLoop hok

theorem Agrees.opStep (hok : ∀ n, plat.write n = none) (h : Agrees plat w)
    (hs : opStep plat w op = some w') : Agrees plat w' := by
  cases op with
  | setPosition n desired =>
    obtain rfl := Option.some.inj hs
    exact h.setPosition hok
  | stopMovement n =>
    obtain rfl := Option.some.inj hs
    exact h.stopMovement hok
  | start =>
    obtain ⟨-, hs⟩ := Option.ite_none_right_eq_some.mp hs
    obtain rfl := Option.some.inj hs
    exact h.calm ⟨rfl, rfl, rfl, rfl, rfl, rfl⟩
  | turn result =>
    obtain ⟨-, hs⟩ := Option.ite_none_right_eq_some.mp hs
    obtain rfl := Option.some.inj hs
    exact Agrees.turn hok (h.calm ⟨rfl, rfl, rfl, rfl, rfl, rfl⟩)

end

structure BusAgrees (w : World) : Prop where
  command : w.ctx.command = .idle ∨ w.ctx.command.Active
  last : lastCmd w.log = some w.ctx.command.direction.code ∨
    written w.log = [] ∧ w.ctx.command = .idle
  tidy : Tidy w.log

theorem Agrees.busAgrees (h : Agrees plat w) : BusAgrees w := by
  refine ⟨h.command, ?_, h.sound.tidy⟩
  rcases h.last with hl | ⟨hl, hi⟩
  · exact .inl hl
  · exact .inr ⟨by simpa [lastCmd] using hl, hi⟩

/-- In every run from a successful open, when every write succeeds. -/
theorem bus_context_agreement (plat : Platform) (hok : ∀ n, plat.write n = none) (s : Session)
    (ops : List Op) : Throughout (opStep plat) BusAgrees s.opened ops := by
  have h : Throughout (opStep plat) (Agrees plat) s.opened ops :=
    throughout_of_keeps (fun _ _ _ h hs => h.opStep hok hs) s.opened_agrees
  exact h.mono fun w hw => hw.busAgrees

-- ---------------------------------------------------------------------------
-- A bench
-- ---------------------------------------------------------------------------

/-- The messages of `seat_ecu.dbc`, and a clock that moves on by `period`
at every reading. -/
def Platform.ticking (period : Nat) (write : Nat → Option Int) : Platform where
  codec := seatEcuDbc
  clock n := (1 + n * period : Nat)
  clock_pos n := by omega
  clock_mono m n h := by
    have := Nat.mul_le_mul_right period h
    omega
  write := write

def Session.bench : Session where
  getenv _ := none
  statics := .initial
  memory := {
    magic := 0, config := (seatctrlDefaultConfig fun _ => none).2, socket := none, running := false
    threadId := none, command := .idle, motor1Pos := 0, motor1MovState := 0
    motor1LearningState := 0, eventCb := false }
  eventCb := true
  calls := ⟨some 3, true, true, true, some 1⟩
  socket_isSome := rfl
  bind_ok := rfl
  pthreadCreate_isSome := rfl

def statFrame (pos : UInt8) (mov : MotorDirection) : ReadResult :=
  .frame ⟨secu1StatFrameId, 8, #v[mov.code.toUInt8 + 4, 0, pos, 0, 0, 0, 0, 0]⟩

theorem bus_context_agreement_bench :
    (∀ n, (Platform.ticking 100 fun _ => none).write n = none) ∧
      Throughout (opStep (.ticking 100 fun _ => none)) BusAgrees Session.bench.opened
        [.start, .turn (statFrame 20 .off), .setPosition 1 50, .turn (statFrame 30 .inc),
          .setPosition 2 10, .turn (statFrame 10 .dec), .stopMovement 1] :=
  ⟨fun _ => rfl, bus_context_agreement _ (fun _ => rfl) _ _⟩

end KuksaServices.Seat
