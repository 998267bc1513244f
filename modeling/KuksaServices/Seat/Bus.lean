import KuksaServices.Atomic.Log
import KuksaServices.Seat.Controller

/-!
# The bus and the command triple

What the log says about the bus (`lastCmd`, `Tidy`) and about the last
command a caller stored (`issued`), and the agreement of both with the
command triple. The two parts of the controller that change the bus or the
triple, `commandPosition` and `pursueCommand`, keep the agreement when every
write succeeds, whatever status frames arrive meanwhile (`Calm`).
-/

namespace KuksaServices.Seat

open Atomic (Prog Preceded)

-- ---------------------------------------------------------------------------
-- The bus in the log
-- ---------------------------------------------------------------------------

def lastCmd (log : List Entry) : Option Nat := (written log).getLast?.map (·.motor1ManualCmd)

/-- Every movement follows a motor-off frame at once and has a speed; a
motor-off frame has none. -/
structure Tidy (log : List Entry) : Prop where
  preceded : Preceded Secu1Cmd1.Moves Secu1Cmd1.IsOff (written log)
  rpm : ∀ f ∈ written log, (f.Moves → 1 ≤ f.motor1SetRpm ∧ f.motor1SetRpm ≤ 254) ∧
    (f.IsOff → f.motor1SetRpm = 0)

theorem attempts_snoc (log : List Entry) (e : Entry) :
    attempts (log ++ [e]) = attempts log ++ e.sent?.toList := by
  cases h : e.sent? <;> simp [attempts, h]

theorem written_snoc_sent (log : List Entry) (me : Thread) (cmd : Secu1Cmd1) (frame : CanFrame)
    (ok : Bool) : written (log ++ [⟨me, .send ⟨cmd, frame, ok⟩⟩]) =
      if ok then written log ++ [cmd] else written log := by
  cases ok <;> simp [written, attempts_snoc, Entry.sent?, Deed.sent?]

theorem attempts_snoc_other (log : List Entry) {e : Entry} (h : e.sent? = none) :
    attempts (log ++ [e]) = attempts log := by
  simp [attempts_snoc, h]

theorem written_snoc_other (log : List Entry) {e : Entry} (h : e.sent? = none) :
    written (log ++ [e]) = written log := by
  simp [written, attempts_snoc_other log h]

@[simp] theorem lastCmd_sent (log : List Entry) (me : Thread) (cmd : Secu1Cmd1) (frame : CanFrame)
    (ok : Bool) : lastCmd (log ++ [⟨me, .send ⟨cmd, frame, ok⟩⟩]) =
      if ok then some cmd.motor1ManualCmd else lastCmd log := by
  cases ok <;> simp [lastCmd, written_snoc_sent]

@[simp] theorem lastCmd_command (log : List Entry) (me : Thread) (c : Command) :
    lastCmd (log ++ [⟨me, .command c⟩]) = lastCmd log := by
  rw [lastCmd, written_snoc_other _ rfl, lastCmd]

@[simp] theorem lastCmd_current (log : List Entry) (me : Thread) (pos : Nat) :
    lastCmd (log ++ [⟨me, .current pos⟩]) = lastCmd log := by
  rw [lastCmd, written_snoc_other _ rfl, lastCmd]

@[simp] theorem lastCmd_ended (log : List Entry) (me : Thread) (c : Command) (why : Ending) :
    lastCmd (log ++ [⟨me, .ended c why⟩]) = lastCmd log := by
  rw [lastCmd, written_snoc_other _ rfl, lastCmd]

theorem Tidy.other (h : Tidy log) {e : Entry} (he : e.sent? = none) : Tidy (log ++ [e]) := by
  have hw := written_snoc_other log he
  exact ⟨hw ▸ h.preceded, hw ▸ h.rpm⟩

theorem Tidy.snoc (h : Tidy log) {cmd : Secu1Cmd1}
    (hpre : cmd.Moves → ∃ f, (written log).getLast? = some f ∧ f.IsOff)
    (hrpm : (cmd.Moves → 1 ≤ cmd.motor1SetRpm ∧ cmd.motor1SetRpm ≤ 254) ∧
      (cmd.IsOff → cmd.motor1SetRpm = 0)) :
    Tidy (log ++ [⟨me, .send ⟨cmd, frame, true⟩⟩]) := by
  constructor
  · rw [written_snoc_sent]
    exact h.preceded.snoc hpre
  · rw [written_snoc_sent]
    intro f hf
    rcases List.mem_append.mp hf with hf | hf
    · exact h.rpm f hf
    · obtain rfl : f = cmd := by simpa using hf
      exact hrpm

theorem Tidy.off (h : Tidy log) : Tidy (log ++ [⟨me, .send ⟨motor1Cmd .off 0, frame, true⟩⟩]) := by
  refine h.snoc ?_ ?_ <;> simp [motor1Cmd, Secu1Cmd1.Moves, MotorDirection.code, toUint8]

theorem toUint8_of_lt (h0 : 0 ≤ n) (h : n < 256) : (toUint8 n : Int) = n := by
  unfold toUint8
  omega

theorem Tidy.move {rpm : Int} (h : Tidy log) (hlast : lastCmd log = some MotorDirection.off.code)
    (hdir : dir = .inc ∨ dir = .dec) (hrpm : 1 ≤ rpm ∧ rpm ≤ 254) :
    Tidy (log ++ [⟨me, .send ⟨motor1Cmd dir rpm, frame, true⟩⟩]) := by
  have hr : (toUint8 rpm : Int) = rpm := toUint8_of_lt (by omega) (by omega)
  refine h.snoc ?_ ⟨?_, ?_⟩
  · intro _
    simpa [lastCmd, Secu1Cmd1.IsOff] using hlast
  · intro _
    simp only [motor1Cmd]
    omega
  · rcases hdir with rfl | rfl <;> simp [motor1Cmd, Secu1Cmd1.IsOff, MotorDirection.code]

-- ---------------------------------------------------------------------------
-- The last command of a caller
-- ---------------------------------------------------------------------------

/-- The triple as the last caller that updated it left it, and how the
control loop ended that command, if it did. -/
def issuedNext (issued : Command × Option Ending) (e : Entry) : Command × Option Ending :=
  match e with
  | ⟨.caller _, .command c⟩ => (c, none)
  | ⟨_, .ended c why⟩ => if c = issued.1 then (issued.1, some why) else issued
  | _ => issued

def issued (log : List Entry) : Command × Option Ending := log.foldl issuedNext (.idle, none)

@[simp] theorem issued_snoc (log : List Entry) (e : Entry) :
    issued (log ++ [e]) = issuedNext (issued log) e := by
  simp [issued]

/-- The reason is the command's own: its target is reached, or its own time
is over at some reading of the clock. -/
def Caused (plat : Platform) (timeout : Int) (c : Command) : Ending → Prop
  | .target pos => pos ≠ motorPosInvalid ∧
    (c.direction = .inc ∧ c.position ≤ pos ∨ c.direction = .dec ∧ pos ≤ c.position)
  | .timeout elapsed => timeout < elapsed ∧ ∃ n, elapsed = plat.clock n - c.ts

-- ---------------------------------------------------------------------------
-- Agreement
-- ---------------------------------------------------------------------------

def Command.Active (c : Command) : Prop :=
  c.position ≤ 100 ∧ (c.direction = .inc ∨ c.direction = .dec) ∧ 0 < c.ts

theorem directionTo_cases (pos : Nat) (desired : Int) :
    directionTo pos desired = .inc ∨ directionTo pos desired = .dec := by
  unfold directionTo
  split <;> simp

/-- The parts of an open context that no operation changes, and the bus. -/
structure Sound (w : World) : Prop where
  magic : w.ctx.magic = seatCtrlContextMagic
  socket : w.ctx.socket.isSome
  rpm : 1 ≤ w.ctx.config.motorRpm ∧ w.ctx.config.motorRpm ≤ 254
  tidy : Tidy w.log

/-- The stored command is the one the last caller left, or it is idle
because the control loop ended that one for its own reason. -/
def Ledger (plat : Platform) (w : World) : Prop :=
  match issued w.log with
  | (c, none) => w.ctx.command = c
  | (c, some why) => w.ctx.command = .idle ∧ Caused plat w.ctx.config.commandTimeout c why

structure Agrees (plat : Platform) (w : World) : Prop where
  sound : Sound w
  command : w.ctx.command = .idle ∨ w.ctx.command.Active
  last : lastCmd w.log = some w.ctx.command.direction.code ∨
    lastCmd w.log = none ∧ w.ctx.command = .idle
  ledger : Ledger plat w

/-- Nothing happened to the bus or the triple: a status frame or a look of
the control loop without consequence. -/
structure Calm (w w' : World) : Prop where
  magic : w'.ctx.magic = w.ctx.magic
  socket : w'.ctx.socket = w.ctx.socket
  config : w'.ctx.config = w.ctx.config
  command : w'.ctx.command = w.ctx.command
  log : w'.log = w.log
  writes : w'.writes = w.writes

theorem Calm.refl (w : World) : Calm w w := ⟨rfl, rfl, rfl, rfl, rfl, rfl⟩

theorem Calm.trans (h : Calm a b) (h' : Calm b c) : Calm a c :=
  ⟨h'.magic.trans h.magic, h'.socket.trans h.socket, h'.config.trans h.config,
    h'.command.trans h.command, h'.log.trans h.log, h'.writes.trans h.writes⟩

theorem Sound.calm (h : Sound w) (hc : Calm w w') : Sound w' :=
  ⟨hc.magic.trans h.magic, hc.socket ▸ h.socket, hc.config ▸ h.rpm, hc.log ▸ h.tidy⟩

theorem Agrees.calm (h : Agrees plat w) (hc : Calm w w') : Agrees plat w' := by
  refine ⟨h.sound.calm hc, hc.command ▸ h.command, ?_, ?_⟩
  · rw [hc.command, hc.log]
    exact h.last
  · unfold Ledger
    rw [hc.command, hc.log, hc.config]
    exact h.ledger

-- ---------------------------------------------------------------------------
-- Sending
-- ---------------------------------------------------------------------------

def cmdFrame (plat : Platform) (dir : MotorDirection) (rpm : Int) : CanFrame :=
  ⟨secu1Cmd1FrameId, 8,
    (plat.codec.secu1Cmd1Pack (motor1Cmd dir rpm) sizeofSecu1Cmd1).getD (Vector.replicate 8 0)⟩

def afterWrite (plat : Platform) (me : Thread) (dir : MotorDirection) (rpm : Int) (w : World) :
    World :=
  { w with writes := w.writes + 1 }.record me
    (.send ⟨motor1Cmd dir rpm, cmdFrame plat dir rpm, (plat.write w.writes).isNone⟩)

theorem exec_sendCmd1 (hs : w.ctx.socket.isSome) :
    (seatctrlSendCmd1 plat me dir rpm).exec w = match plat.write w.writes with
      | none => (seatCtrlOk, afterWrite plat me dir rpm w)
      | some err => (seatCtrlErrCanIo, (afterWrite plat me dir rpm w).eventCb .canError err) := by
  obtain ⟨data, hd⟩ := Option.isSome_iff_exists.mp
    (plat.codec.secu1Cmd1Pack_isSome (motor1Cmd dir rpm) sizeofSecu1Cmd1 (by decide))
  obtain ⟨fd, hfd⟩ := Option.isSome_iff_exists.mp hs
  cases hw : plat.write w.writes <;>
    simp [seatctrlSendCmd1, hfd, hd, hw, afterWrite, cmdFrame, World.record]

theorem exec_sendCmd1_closed (hs : w.ctx.socket = none) :
    (seatctrlSendCmd1 plat me dir rpm).exec w = (seatCtrlErr, w) := by
  simp [seatctrlSendCmd1, hs]

def Site.changing : Site → Bool
  | .write | .triple | .settle | .current | .movState | .arguments | .resendWait | .check
  | .reset => true
  | _ => false

end KuksaServices.Seat
