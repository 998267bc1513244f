import KuksaServices.Atomic.Progress
import KuksaServices.Seat.ClosedLoop

/-!
# Arrival

Every command of the closed loop comes to its end: while its motor moves, an
iteration brings the seat one step nearer, and when the engine has stopped the
motor at a threshold the control loop sends the movement again
(`command_ends`). A request whose time is long enough leaves the seat at the
requested position (`request_fulfilled`).

The workaround sends a movement again only when the motor state differs from
the cached one. What makes it work is `Lively`: where the caches know of a
standing motor, the engine has taken the stop of that threshold already and
does not stop there again.
-/

namespace KuksaServices.Seat

open Atomic

-- ---------------------------------------------------------------------------
-- The engine on its way
-- ---------------------------------------------------------------------------

/-- The seat is beyond a threshold where the motor has been stopped. -/
def Arrested (ctx : SaeContext) : Prop :=
  InRange ctx.motor1.pos ∧
    (ctx.motor1ThresholdHiStop = true ∧ 85 ≤ saePosPercent ctx.motor1.pos ∨
      ctx.motor1ThresholdLoStop = true ∧ saePosPercent ctx.motor1.pos ≤ 14)

section
variable {delay rpm : Int} {ctx : SaeContext}

theorem Arrested.congr (h : Arrested ctx) (hpos : ctx'.motor1.pos = ctx.motor1.pos)
    (hhi : ctx'.motor1ThresholdHiStop = ctx.motor1ThresholdHiStop)
    (hlo : ctx'.motor1ThresholdLoStop = ctx.motor1ThresholdLoStop) : Arrested ctx' := by
  unfold Arrested
  rw [hpos, hhi, hlo]
  exact h

theorem leaveInvalid_inRange (h : InRange ctx.motor1.pos) : leaveInvalid ctx = ctx := by
  unfold leaveInvalid
  rw [if_neg]
  intro hi
  rw [hi] at h
  exact absurd h.1 (by decide)

theorem Arrested.reset (h : Arrested ctx) : Arrested (resetThresholdStops ctx) := by
  obtain ⟨hrange, hstop⟩ := h
  unfold resetThresholdStops
  split
  · refine ⟨hrange, hstop.imp ?_ ?_⟩
    · rintro ⟨hhi, hge⟩
      refine ⟨?_, hge⟩
      have hlt : ¬saePosPercent ctx.motor1.pos < 85 := by omega
      simp [hhi, hlt]
    · rintro ⟨hlo, hle⟩
      refine ⟨?_, hle⟩
      have hgt : ¬saePosPercent ctx.motor1.pos > 14 := by omega
      simp [hlo, hgt]
  · exact ⟨hrange, hstop⟩

theorem Engine.read_eq (h : Engine delay rpm ctx) (hrange : InRange ctx.motor1.pos) :
    (saeReadCb ctx).2 = moveMotor1 (resetThresholdStops ctx) := by
  simp [saeReadCb, h.fd, h.active, leaveInvalid_inRange hrange]

theorem Engine.read_held (h : Engine delay rpm ctx) (hs : ctx.motor1.status = .off) (hheld : Arrested ctx) :
    Arrested (saeReadCb ctx).2 := by
  rw [h.read_eq hheld.1, moveMotor1_still (by rw [(resetThresholdStops_engine h).2]; exact hs)]
  exact hheld.reset

/-- A motor with room for a step takes it. It stops only at a threshold, and
only where it has not been stopped yet. -/
structure Advanced (ctx ctx' : SaeContext) (dir : MotorDirection) (pos : Int) : Prop where
  pos : ctx'.motor1.pos = pos
  status : ctx'.motor1.status = dir ∨ ctx'.motor1.status = .off ∧ ¬Arrested ctx ∧ Arrested ctx'

theorem moveMotor1_advances_inc (hs : ctx.motor1.status = .inc) (hrange : InRange ctx.motor1.pos)
    (h0 : 0 ≤ ctx.motor1Inc) (h1 : ctx.motor1Inc ≤ posShiftVal)
    (hroom : saePosPercent ctx.motor1.pos < 100) :
    (moveMotor1 ctx).motor1.pos = ctx.motor1.pos + ctx.motor1Inc ∧
      ((moveMotor1 ctx).motor1.status = .inc ∨ (moveMotor1 ctx).motor1.status = .off ∧
        ctx.motor1ThresholdHiStop = false ∧ (moveMotor1 ctx).motor1ThresholdHiStop = true ∧
        85 ≤ saePosPercent (ctx.motor1.pos + ctx.motor1Inc)) := by
  have hlow := hrange.1
  simp only [saePosPercent, posShiftVal] at hroom h1
  have hnext : toInt32 (ctx.motor1.pos + ctx.motor1Inc) = ctx.motor1.pos + ctx.motor1Inc :=
    toInt32_of_range (by omega) (by omega)
  have hfits : saePosPercent (ctx.motor1.pos + ctx.motor1Inc) ≤ 100 := by
    simp only [saePosPercent, posShiftVal]
    omega
  simp only [moveMotor1, hs, hnext, stepTo, hfits, decide_true, if_true]
  split
  · rename_i hstop
    simp only [Bool.and_eq_true, decide_eq_true_eq, Bool.not_eq_true'] at hstop
    exact ⟨rfl, .inr ⟨rfl, hstop.2, rfl, hstop.1.2⟩⟩
  · exact ⟨rfl, .inl rfl⟩

theorem moveMotor1_advances_dec (hs : ctx.motor1.status = .dec) (hrange : InRange ctx.motor1.pos)
    (h0 : ctx.motor1Inc ≤ 0) (h1 : -posShiftVal ≤ ctx.motor1Inc)
    (hroom : 0 < saePosPercent ctx.motor1.pos) :
    (moveMotor1 ctx).motor1.pos = ctx.motor1.pos + ctx.motor1Inc ∧
      ((moveMotor1 ctx).motor1.status = .dec ∨ (moveMotor1 ctx).motor1.status = .off ∧
        ctx.motor1ThresholdLoStop = false ∧ (moveMotor1 ctx).motor1ThresholdLoStop = true ∧
        saePosPercent (ctx.motor1.pos + ctx.motor1Inc) ≤ 14) := by
  have hhigh := hrange.2
  simp only [saePosPercent, posShiftVal] at hroom h1 hhigh
  have hnext : toInt32 (ctx.motor1.pos + ctx.motor1Inc) = ctx.motor1.pos + ctx.motor1Inc :=
    toInt32_of_range (by omega) (by omega)
  have hfits : saePosPercent (ctx.motor1.pos + ctx.motor1Inc) ≥ 0 := by
    simp only [saePosPercent, posShiftVal]
    omega
  simp only [moveMotor1, hs, hnext, stepTo, hfits, decide_true, if_true]
  split
  · rename_i hstop
    simp only [Bool.and_eq_true, decide_eq_true_eq, Bool.not_eq_true'] at hstop
    exact ⟨rfl, .inr ⟨rfl, hstop.2, rfl, hstop.1.2⟩⟩
  · exact ⟨rfl, .inl rfl⟩

theorem resetThresholdStops_inc : (resetThresholdStops ctx).motor1Inc = ctx.motor1Inc := by
  unfold resetThresholdStops
  split <;> rfl

theorem Engine.read_inc (h : Engine delay rpm ctx) (hsmall : saeStep delay rpm ≤ posShiftVal)
    (h0 : 0 ≤ saeStep delay rpm) (hrange : InRange ctx.motor1.pos) (hs : ctx.motor1.status = .inc)
    (hroom : saePosPercent ctx.motor1.pos < 100) :
    Advanced ctx (saeReadCb ctx).2 .inc (ctx.motor1.pos + saeStep delay rpm) := by
  obtain ⟨hreset, hmotor⟩ := resetThresholdStops_engine h
  have hinc : (resetThresholdStops ctx).motor1Inc = saeStep delay rpm := by
    rw [resetThresholdStops_inc]
    rcases h.drive with hd | ⟨-, hd⟩ | ⟨hd, -⟩
    · simp [hs] at hd
    · exact hd
    · simp [hs] at hd
  have hs' : (resetThresholdStops ctx).motor1.status = .inc := by rw [hmotor, hs]
  obtain ⟨hpos, hstatus⟩ := moveMotor1_advances_inc hs' (by rw [hmotor]; exact hrange) (hinc ▸ h0)
    (hinc ▸ hsmall) (by rw [hmotor]; exact hroom)
  rw [hmotor, hinc] at hpos hstatus
  rw [h.read_eq hrange]
  refine ⟨hpos, hstatus.imp_right ?_⟩
  rintro ⟨hoff, hhi, hhi', hge⟩
  have hlow := hrange.1
  simp only [saePosPercent, posShiftVal] at hge hroom hsmall
  refine ⟨hoff, ?_, ?_, .inl ⟨hhi', ?_⟩⟩
  · rintro hheld
    rcases hheld.reset.2 with ⟨hhi'', -⟩ | ⟨-, hle⟩
    · rw [hhi] at hhi''
      cases hhi''
    · rw [hmotor] at hle
      simp only [saePosPercent, posShiftVal] at hle
      omega
  · rw [hpos]
    simp only [InRange, saePosPercent, posShiftVal]
    omega
  · rw [hpos]
    simp only [saePosPercent, posShiftVal]
    omega

theorem Engine.read_dec (h : Engine delay rpm ctx) (hsmall : saeStep delay rpm ≤ posShiftVal)
    (h0 : 0 ≤ saeStep delay rpm) (hrange : InRange ctx.motor1.pos) (hs : ctx.motor1.status = .dec)
    (hroom : 0 < saePosPercent ctx.motor1.pos) :
    Advanced ctx (saeReadCb ctx).2 .dec (ctx.motor1.pos - saeStep delay rpm) := by
  obtain ⟨hreset, hmotor⟩ := resetThresholdStops_engine h
  have hinc : (resetThresholdStops ctx).motor1Inc = -saeStep delay rpm := by
    rw [resetThresholdStops_inc]
    rcases h.drive with hd | ⟨hd, -⟩ | ⟨-, hd⟩
    · simp [hs] at hd
    · simp [hs] at hd
    · exact hd
  have hs' : (resetThresholdStops ctx).motor1.status = .dec := by rw [hmotor, hs]
  obtain ⟨hpos, hstatus⟩ := moveMotor1_advances_dec hs' (by rw [hmotor]; exact hrange) (by omega)
    (by omega) (by rw [hmotor]; exact hroom)
  rw [hmotor, hinc, ← Int.sub_eq_add_neg] at hpos hstatus
  rw [h.read_eq hrange]
  refine ⟨hpos, hstatus.imp_right ?_⟩
  rintro ⟨hoff, hlo, hlo', hle⟩
  have hhigh := hrange.2
  simp only [saePosPercent, posShiftVal] at hle hroom hsmall hhigh
  refine ⟨hoff, ?_, ?_, .inr ⟨hlo', ?_⟩⟩
  · rintro hheld
    rcases hheld.reset.2 with ⟨-, hge⟩ | ⟨hlo'', -⟩
    · rw [hmotor] at hge
      simp only [saePosPercent, posShiftVal] at hge
      omega
    · rw [hlo] at hlo''
      cases hlo''
  · rw [hpos]
    simp only [InRange, saePosPercent, posShiftVal]
    omega
  · rw [hpos]
    simp only [saePosPercent, posShiftVal]
    omega

theorem saeWriteCb_keeps (ctx : SaeContext) (frame : CanFrame) :
    (saeWriteCb ctx frame).2.motor1.pos = ctx.motor1.pos ∧
      (saeWriteCb ctx frame).2.motor1ThresholdHiStop = ctx.motor1ThresholdHiStop ∧
      (saeWriteCb ctx frame).2.motor1ThresholdLoStop = ctx.motor1ThresholdLoStop := by
  unfold saeWriteCb commandMotor1
  split_ifs <;> exact ⟨rfl, rfl, rfl⟩

theorem Arrested.fed (h : Arrested ctx) (sents : List Sent) : Arrested (feed ctx sents) := by
  unfold feed
  induction sents generalizing ctx with
  | nil => exact h
  | cons sent sents ih =>
    obtain ⟨hpos, hhi, hlo⟩ := saeWriteCb_keeps ctx sent.frame
    exact ih (h.congr hpos hhi hlo)

end

-- ---------------------------------------------------------------------------
-- How far it is
-- ---------------------------------------------------------------------------

def remaining (c : Command) (pos : Int) : Int :=
  match c.direction with
  | .inc => saePosRaw c.position - pos
  | .dec => pos - (saePosRaw (c.position + 1) - 1)
  | .off | .inv => 0

def stepsLeft (step : Int) (c : Command) (pos : Int) : Nat := (-(-remaining c pos / step)).toNat

/-- A motor that stands still takes an iteration to be sent again. -/
def iterationsLeft (step : Int) (c : Command) (m : SaeMotor) : Nat :=
  stepsLeft step c m.pos + if m.status = .off then 1 else 0

theorem Short.remaining_pos (h : Short c pos) (hdir : c.direction = .inc ∨ c.direction = .dec) :
    0 < remaining c pos := by
  unfold remaining
  rcases hdir with hd | hd
  · have hlt := h.inc hd
    simp only [saePosPercent, posShiftVal] at hlt
    simp only [hd, saePosRaw, posShiftVal]
    omega
  · have hlt := h.dec hd
    simp only [saePosPercent, posShiftVal] at hlt
    simp only [hd, saePosRaw, posShiftVal]
    omega

theorem stepsLeft_step (hstep : 0 < step) (hleft : 0 < remaining c pos)
    (hnext : remaining c pos' = remaining c pos - step) :
    stepsLeft step c pos' + 1 = stepsLeft step c pos := by
  have hceil : -remaining c pos' / step = -remaining c pos / step + 1 := by
    rw [hnext, show -(remaining c pos - step) = -remaining c pos + step * 1 by omega,
      Int.add_mul_ediv_left _ _ (by omega)]
  have hneg : -remaining c pos / step < 0 := Int.ediv_neg_of_neg_of_pos (by omega) hstep
  unfold stepsLeft
  omega

-- ---------------------------------------------------------------------------
-- The controller on its way
-- ---------------------------------------------------------------------------

def Cleared (w : World) : Prop :=
  w.statics.lastCtlDir = MotorDirection.off.code → w.statics.lastCtlPos = motorPosInvalid

structure Lively (r : Rig) : Prop where
  idle : r.world.ctx.command = .idle → r.sim.motor1.status = .off
  cached : Cleared r.world ∨ Arrested r.sim
  stopped : r.world.ctx.command ≠ .idle → r.sim.motor1.status = .off → Cleared r.world ∧ Arrested r.sim

section
variable {plat : Platform} {me : Thread} {w w' v : World}

theorem Cleared.congr (h : Cleared w) (hc : w'.caches = w.caches) : Cleared w' := by
  obtain ⟨hpos, hdir⟩ := Prod.mk.inj hc
  unfold Cleared
  rw [hpos, hdir]
  exact h

theorem commandPosition_statics :
    ((commandPosition plat me desired).exec w).2.statics = w.statics := by
  have hstop : ∀ w, ((seatctrlStopMovement plat me).exec w).2.statics = w.statics := by
    intro w
    simp [seatctrlStopMovement, setCommand, World.setCommand, World.record]
  have hdeciding : (deciding plat me w).statics = w.statics := hstop w
  by_cases hthere : (w.ctx.motor1Pos : Int) = desired
  · by_cases hmov : w.ctx.motor1MovState = MotorDirection.off.code
    · rw [exec_commandPosition_there hthere hmov]
      exact hdeciding
    · rw [exec_commandPosition_moving hthere hmov, hstop]
      exact hdeciding
  · rw [exec_commandPosition_away hthere, sendCmd1_statics]
    exact hdeciding

theorem trackLearnedMode_ticks (plat : Platform) (v : World) :
    v.ticks ≤ (trackLearnedMode plat v).ticks ∧ (trackLearnedMode plat v).ticks ≤ v.ticks + 1 := by
  unfold trackLearnedMode flipLearnedMode World.getTs
  dsimp only
  split_ifs <;> simp

theorem resent_ticks : (resent plat me pursuit w).ticks = w.ticks := by
  unfold resent
  split
  · rw [exec_resendCommand]
    simp
  · rfl

theorem checkCommand_ticks : ((checkCommand plat me pursuit).exec w).2.ticks = w.ticks := by
  have hcache : (cacheMotorState pursuit w).ticks = w.ticks := by
    unfold cacheMotorState
    split <;> rfl
  cases he : endingOf pursuit.elapsed w.ctx with
  | none => rw [exec_checkCommand_goes he, hcache]
  | some why =>
    rw [exec_checkCommand_ends he]
    simp [invalidateCtlCache, ending, World.record, hcache]

/-- The control loop looks at the clock at most twice. -/
theorem controlLoop_ticks (plat : Platform) (me : Thread) (v : World) :
    v.ticks ≤ ((seatctrlControlLoop plat me).exec v).2.ticks ∧
      ((seatctrlControlLoop plat me).exec v).2.ticks ≤ v.ticks + 2 := by
  have htrack := trackLearnedMode_ticks plat v
  have hpursue : (pursue plat v).2.ticks = (trackLearnedMode plat v).ticks ∨
      (pursue plat v).2.ticks = (trackLearnedMode plat v).ticks + 1 := by
    unfold pursue World.getTs
    dsimp only
    split_ifs
    · exact .inr rfl
    · exact .inr rfl
    · exact .inl rfl
  have hloop : ((seatctrlControlLoop plat me).exec v).2.ticks = (pursue plat v).2.ticks := by
    cases hp : (pursue plat v).1 with
    | none => rw [exec_controlLoop_idle hp]
    | some pursuit =>
      rw [exec_controlLoop_pursues hp, exec_pursueCommand, checkCommand_ticks, resent_ticks]
  omega

variable {delay rpm : Int} {r : Rig} {sim : SaeContext}

/-- The commands of the controller, and what they leave of the engine. -/
theorem Joint.setPosition_sends (h : Joint delay rpm r) (hcodec : plat.codec.FollowsDbc)
    (hrpm : 1 ≤ rpm ∧ rpm ≤ 254) (n : Nat) (hr : ¬Refused r.world desired) :
    ∃ c, (r.step plat (.setPosition n desired)).world.ctx = { r.world.ctx with command := c } ∧
      (r.step plat (.setPosition n desired)).world.statics = r.world.statics ∧
      (r.step plat (.setPosition n desired)).sim.motor1.pos = r.sim.motor1.pos ∧
      (r.step plat (.setPosition n desired)).sim.motor1.status = c.direction ∧
      ((r.world.ctx.motor1Pos : Int) = desired ∧ c = .idle ∨
        (r.world.ctx.motor1Pos : Int) ≠ desired ∧ c = commandFor plat r.world desired) := by
  obtain ⟨sends, c, hsent, hctx, hlast, hcase⟩ :=
    commandPosition_sends plat.simulated (.caller n) desired h.isOpen.socket
  have hknown := hr
  simp only [Refused, not_or] at hknown
  obtain ⟨hpos, -⟩ := h.seen.resolve_left fun hi => hknown.2.2.2 hi.1
  have hsends : ∀ s ∈ sends, Sends rpm s := by
    intro s hs
    rcases hcase with ⟨-, -, hoff⟩ | ⟨-, -, rfl⟩
    · exact .inl (hoff s hs)
    · rw [h.motorRpm] at hs
      exact sends_movement (directionTo_cases _ _) hs
  have hcodec' : plat.simulated.codec.FollowsDbc := hcodec
  obtain ⟨-, hfpos, hfstatus⟩ := h.engine.fed hcodec' hrpm hpos hsent hsends
  rw [hlast, Option.getD_some] at hfstatus
  refine ⟨c, ?_, ?_, ?_, ?_, ?_⟩
  · simp only [Rig.step, exec_setPosition_accepted hr]
    exact hctx
  · simp only [Rig.step, exec_setPosition_accepted hr]
    exact commandPosition_statics
  · simp only [Rig.step, exec_setPosition_accepted hr]
    exact hfpos
  · simp only [Rig.step, exec_setPosition_accepted hr]
    exact hfstatus
  · rcases hcase with ⟨hthere, hc, -⟩ | ⟨haway, hc, -⟩
    · exact .inl ⟨hthere, hc⟩
    · exact .inr ⟨haway, hc⟩

theorem Joint.setPosition_refused (h : Refused r.world desired) (n : Nat) :
    r.step plat (.setPosition n desired) = r := by
  obtain ⟨rc, -, he⟩ := exec_setPosition_refused plat.simulated (.caller n) h
  simp only [Rig.step, he]
  rw [sentSince_of_log_eq rfl]
  rfl

theorem Lively.setPosition (h : Lively r) (hj : Joint delay rpm r) (hcodec : plat.codec.FollowsDbc)
    (hrpm : 1 ≤ rpm ∧ rpm ≤ 254) (n : Nat) (desired : Int) :
    Lively (r.step plat (.setPosition n desired)) := by
  by_cases hr : Refused r.world desired
  · rw [Joint.setPosition_refused hr]
    exact h
  obtain ⟨c, hctx, hstatics, -, hstatus, hcase⟩ := hj.setPosition_sends hcodec hrpm n hr
  have hcommand : (r.step plat (.setPosition n desired)).world.ctx.command = c := by rw [hctx]
  constructor
  · intro hidle
    rw [hstatus, ← hcommand, hidle]
    rfl
  · rcases h.cached with hcleared | hheld
    · exact .inl (hcleared.congr (by rw [World.caches, hstatics, World.caches]))
    · exact .inr (hheld.fed _)
  · intro hactive hoff
    rw [hcommand] at hactive
    rcases hcase with ⟨-, rfl⟩ | ⟨-, rfl⟩
    · exact absurd rfl hactive
    · rw [hstatus] at hoff
      rcases directionTo_cases r.world.ctx.motor1Pos desired with hd | hd
      · simp [commandFor, hd] at hoff
      · simp [commandFor, hd] at hoff

/-- A motor on its way is short of the target and takes its step. -/
theorem Joint.advances (h : Joint delay rpm r) (hdelay : 0 ≤ delay ∧ delay ≤ 20000)
    (hsmall : saeStep delay rpm ≤ posShiftVal) (hactive : r.world.ctx.command ≠ .idle)
    (hmoves : r.sim.motor1.status ≠ .off) :
    ∃ pos, Advanced r.sim (saeReadCb r.sim).2 r.world.ctx.command.direction pos ∧
      0 < remaining r.world.ctx.command r.sim.motor1.pos ∧
      remaining r.world.ctx.command pos =
        remaining r.world.ctx.command r.sim.motor1.pos - saeStep delay rpm := by
  have hstep := (saeStep_range hdelay.1 hdelay.2 rpm).1
  obtain ⟨hposition, hdir, -⟩ := h.isOpen.command.resolve_left hactive
  obtain ⟨hrange, -⟩ := h.seen.resolve_left fun hi => hactive hi.2
  have hshort := h.course.short.resolve_left hmoves
  have hleft := hshort.remaining_pos hdir
  rcases hdir with hd | hd
  · have hs := ((h.course.near.inc hd).1).resolve_right hmoves
    have hlt := hshort.inc hd
    rw [hd]
    refine ⟨_, h.engine.read_inc hsmall hstep hrange hs (by omega), hleft, ?_⟩
    simp only [remaining, hd]
    omega
  · have hs := ((h.course.near.dec hd).1).resolve_right hmoves
    have hlt := hshort.dec hd
    rw [hd]
    refine ⟨_, h.engine.read_dec hsmall hstep hrange hs (by omega), hleft, ?_⟩
    simp only [remaining, hd]
    omega

/-- The control loop is about to run in `v`, after a read that has brought the
engine to `sim`. -/
structure Looking (step : Int) (r : Rig) (v : World) (sim : SaeContext) : Prop where
  still : r.sim.motor1.status = .off → sim.motor1.status = .off
  cached : sim.motor1.status = .off → Cleared v ∨ Arrested sim
  stopped : v.ctx.command ≠ .idle → sim.motor1.status = .off → Cleared v ∧ Arrested sim
  nearer : v.ctx.command ≠ .idle →
    stepsLeft step v.ctx.command sim.motor1.pos + 1 = iterationsLeft step v.ctx.command r.sim.motor1

theorem Lively.looking (h : Lively r) (hj : Joint delay rpm r) (hdelay : 0 ≤ delay ∧ delay ≤ 20000)
    (hstep : 0 < saeStep delay rpm ∧ saeStep delay rpm ≤ posShiftVal) (hv : Applied r.world v) :
    Looking (saeStep delay rpm) r v (saeReadCb r.sim).2 := by
  have hcommand : v.ctx.command = r.world.ctx.command := hv.calm.command
  have hcaches : v.caches = r.world.caches := by rw [World.caches, hv.statics, World.caches]
  obtain ⟨-, -, hmoved⟩ := hj.engine.read hdelay.1 hdelay.2
  have hleave := (leaveInvalid_engine hj.engine).2.2
  by_cases hoff : r.sim.motor1.status = .off
  · obtain ⟨hstill, hpos⟩ := hmoved.off (hleave.trans hoff)
    constructor
    · exact fun _ => hstill
    · intro _
      rcases h.cached with hcleared | hheld
      · exact .inl (hcleared.congr hcaches)
      · exact .inr (hj.engine.read_held hoff hheld)
    · intro hactive _
      rw [hcommand] at hactive
      obtain ⟨hcleared, hheld⟩ := h.stopped hactive hoff
      exact ⟨hcleared.congr hcaches, hj.engine.read_held hoff hheld⟩
    · intro hactive
      rw [hcommand] at hactive ⊢
      obtain ⟨hrange, -⟩ := hj.seen.resolve_left fun hi => hactive hi.2
      rw [hpos, leaveInvalid_inRange hrange, iterationsLeft, if_pos hoff]
  · have hactive : r.world.ctx.command ≠ .idle := fun hidle => hoff (h.idle hidle)
    obtain ⟨pos, hadvanced, hleft, hnext⟩ := hj.advances hdelay hstep.2 hactive hoff
    have hdir : r.world.ctx.command.direction ≠ .off := by
      rcases (hj.isOpen.command.resolve_left hactive).2.1 with hd | hd <;> simp [hd]
    have hstopped : (saeReadCb r.sim).2.motor1.status = .off →
        Cleared v ∧ Arrested (saeReadCb r.sim).2 := by
      intro hs
      obtain ⟨-, hfree, hheld⟩ := hadvanced.status.resolve_left fun hd => hdir (hd.symm.trans hs)
      exact ⟨(h.cached.resolve_right hfree).congr hcaches, hheld⟩
    constructor
    · exact fun hs => absurd hs hoff
    · exact fun hs => .inr (hstopped hs).2
    · exact fun _ hs => hstopped hs
    · intro _
      rw [hcommand, hadvanced.pos, iterationsLeft, if_neg hoff]
      exact stepsLeft_step hstep.1 hleft hnext

-- ---------------------------------------------------------------------------
-- The control loop on its way
-- ---------------------------------------------------------------------------

def looped (plat : Platform) (v : World) (sim : SaeContext) : Rig where
  world := ((seatctrlControlLoop plat .ctl).exec v).2
  sim := feed sim (sentSince v ((seatctrlControlLoop plat .ctl).exec v).2)

theorem Reading.fed (h : Reading delay rpm r v sim) (hcodec : plat.codec.FollowsDbc)
    (hrpm : 1 ≤ rpm ∧ rpm ≤ 254) :
    (looped plat v sim).sim.motor1.pos = sim.motor1.pos ∧
      (looped plat v sim).sim.motor1.status = ((((pursuitOf v.statics v.ctx (lookTime plat v)).map
        (pursuitSends v.ctx)).getD []).getLast?.map Prod.fst).getD sim.motor1.status := by
  obtain ⟨sends, hcarry, hsends, rfl⟩ := h.carry plat
  exact (h.engine.fed hcodec hrpm h.inRange hcarry hsends).2

theorem Reading.waits (h : Reading delay rpm r v sim) (hcodec : plat.codec.FollowsDbc)
    (hrpm : 1 ≤ rpm ∧ rpm ≤ 254) (hp : pursuitOf v.statics v.ctx (lookTime plat v) = none) :
    (looped plat v sim).world.ctx = v.ctx ∧ (looped plat v sim).world.caches = v.caches ∧
      (looped plat v sim).sim.motor1.pos = sim.motor1.pos ∧
      (looped plat v sim).sim.motor1.status = sim.motor1.status ∧
      (v.ctx.command ≠ .idle →
        sim.motor1.status = .off ∧ lookTime plat v - v.ctx.command.ts < 500) := by
  have hctx := controlLoop_ctx plat .ctl v
  have hcaches := controlLoop_caches plat .ctl v
  obtain ⟨hpos, hstatus⟩ := h.fed hcodec hrpm
  rw [pursue_eq, hp] at hctx hcaches
  rw [hp] at hstatus
  refine ⟨hctx, hcaches, hpos, hstatus, fun hactive => ?_⟩
  have hrun : isCtlRunning v.ctx = true := by
    cases hrun : isCtlRunning v.ctx with
    | true => rfl
    | false => exact absurd (h.isOpen.idle_iff.mp hrun) hactive
  have hawaits : awaitsMovement v.ctx (lookTime plat v - v.ctx.command.ts) = true := by
    simpa [pursuitOf, hrun] using hp
  simp only [awaitsMovement, Bool.and_eq_true, beq_iff_eq, decide_eq_true_eq] at hawaits
  exact ⟨off_of_code (h.movState.symm.trans hawaits.1.2), hawaits.1.1⟩

theorem Reading.goes (h : Reading delay rpm r v sim) (hcodec : plat.codec.FollowsDbc)
    (hrpm : 1 ≤ rpm ∧ rpm ≤ 254)
    (hp : pursuitOf v.statics v.ctx (lookTime plat v) = some pursuit)
    (he : endingOf pursuit.elapsed v.ctx = none) :
    (looped plat v sim).world.ctx = v.ctx ∧
      (looped plat v sim).world.caches = (v.ctx.motor1Pos, v.ctx.motor1MovState) ∧
      (looped plat v sim).sim.motor1.pos = sim.motor1.pos ∧
      (looped plat v sim).sim.motor1.status =
        if pursuit.resend then v.ctx.command.direction else sim.motor1.status := by
  have hctx := controlLoop_ctx plat .ctl v
  have hcaches := controlLoop_caches plat .ctl v
  obtain ⟨hpos, hstatus⟩ := h.fed hcodec hrpm
  rw [pursue_eq, hp] at hctx hcaches
  rw [hp] at hstatus
  simp only [Option.any_some, he, Option.isSome_none, Bool.false_eq_true, if_false] at hctx hcaches
  refine ⟨hctx, hcaches, hpos, ?_⟩
  rw [hstatus, Option.map_some, Option.getD_some, pursuitSends, he]
  cases pursuit.resend <;> rfl

theorem controlLoop_ends (hp : pursuitOf v.statics v.ctx (lookTime plat v) = some pursuit)
    (he : endingOf pursuit.elapsed v.ctx = some why) :
    ⟨.ctl, .ended v.ctx.command why⟩ ∈ newEntries v ((seatctrlControlLoop plat .ctl).exec v).2 := by
  have hspec := pursue_spec plat v
  rw [← pursue_eq] at hp
  simp only [hp] at hspec
  have hs : (pursue plat v).2.ctx.socket.isSome := hspec.1.ctx ▸ isSome_of_running hspec.2.running
  rw [exec_controlLoop_pursues hp, exec_pursueCommand,
    exec_checkCommand_ends (by rw [resent_ctx, hspec.1.ctx]; exact he)]
  simp only [newEntries, invalidateCtlCache]
  rw [stopMovement_log (by simpa using hs), ending_log, resent_log plat .ctl pursuit hs, hspec.1.log,
    List.append_assoc, List.append_assoc, List.drop_left, resent_ctx, hspec.1.ctx]
  simp

theorem Reading.ends (h : Reading delay rpm r v sim) (hcodec : plat.codec.FollowsDbc)
    (hrpm : 1 ≤ rpm ∧ rpm ≤ 254)
    (hp : pursuitOf v.statics v.ctx (lookTime plat v) = some pursuit)
    (he : endingOf pursuit.elapsed v.ctx = some why) :
    (looped plat v sim).world.ctx = { v.ctx with command := .idle } ∧
      Cleared (looped plat v sim).world ∧ (looped plat v sim).sim.motor1.status = .off := by
  have hctx := controlLoop_ctx plat .ctl v
  have hcaches := controlLoop_caches plat .ctl v
  obtain ⟨-, hstatus⟩ := h.fed hcodec hrpm
  rw [pursue_eq, hp] at hctx hcaches
  rw [hp] at hstatus
  simp only [Option.any_some, he, Option.isSome_some, if_true] at hctx hcaches
  refine ⟨hctx, fun _ => (Prod.mk.inj hcaches).1, ?_⟩
  rw [hstatus, Option.map_some, Option.getD_some, pursuitSends, he]
  simp

-- ---------------------------------------------------------------------------
-- One iteration
-- ---------------------------------------------------------------------------

/-- The command `c` has ended in the iteration that leads from `r` to `r'`: at
its target, or after its time. -/
structure Ended (plat : Platform) (c : Command) (r r' : Rig) : Prop where
  idle : r'.world.ctx.command = .idle
  off : r'.sim.motor1.status = .off
  why : ⟨.ctl, .ended c (.target c.position)⟩ ∈ newEntries r.world r'.world ∧
      r'.world.ctx.motor1Pos = c.position ∧ saePosPercent r'.sim.motor1.pos = c.position ∨
    ∃ n ≤ 2, let elapsed := plat.clock (r.world.ticks + n) - c.ts
      ⟨.ctl, .ended c (.timeout elapsed)⟩ ∈ newEntries r.world r'.world ∧
        elapsed > r.world.ctx.config.commandTimeout

/-- The command `c` goes on: it is an iteration nearer to its end, or waits for
its motor. -/
structure Onward (plat : Platform) (step : Int) (c : Command) (r r' : Rig) : Prop where
  command : r'.world.ctx.command = c
  config : r'.world.ctx.config = r.world.ctx.config
  nearer : iterationsLeft step c r'.sim.motor1 + 1 = iterationsLeft step c r.sim.motor1 ∨
    iterationsLeft step c r'.sim.motor1 = iterationsLeft step c r.sim.motor1 ∧
      plat.clock (r.world.ticks + 1) - c.ts < 500

theorem lookTime_ticks (plat : Platform) (hv : v.ticks = w.ticks + 1) :
    ∃ n, 1 ≤ n ∧ n ≤ 2 ∧ lookTime plat v = plat.clock (w.ticks + n) := by
  obtain ⟨hlow, hhigh⟩ := trackLearnedMode_ticks plat v
  refine ⟨(trackLearnedMode plat v).ticks - w.ticks, by omega, by omega, ?_⟩
  rw [lookTime, Nat.add_sub_cancel' (by omega)]

theorem Looking.resends (hl : Looking (saeStep delay rpm) r v sim) (hread : Reading delay rpm r v sim)
    (hactive : v.ctx.command ≠ .idle) (hoff : sim.motor1.status = .off)
    (hr : reachedTarget v.ctx = false) : (motorChanged v.statics v.ctx && stoppedShort v.ctx) = true := by
  obtain ⟨hcleared, -⟩ := hl.stopped hactive hoff
  have hmov : v.ctx.motor1MovState = MotorDirection.off.code := by rw [hread.movState, hoff]
  have hvalid : v.ctx.motor1Pos ≠ motorPosInvalid := by
    have hpos := hread.position
    have hle := hread.inRange.2
    simp only [motorPosInvalid]
    omega
  have hdir := (hread.isOpen.command.resolve_left hactive).2.1
  have haway : v.ctx.motor1Pos ≠ v.ctx.command.position := by
    have hpos := hread.position
    rcases hdir with hd | hd
    · have hlt := (hread.short hr).inc hd
      omega
    · have hlt := (hread.short hr).dec hd
      omega
  have hchanged : motorChanged v.statics v.ctx = true := by
    refine decide_eq_true (Decidable.or_iff_not_imp_right.mpr fun hdir' => ?_)
    rw [not_not] at hdir'
    rw [hcleared (hdir'.trans hmov)]
    exact hvalid.symm
  rw [hchanged, Bool.true_and]
  rcases hdir with hd | hd <;> simp [stoppedShort, hmov, haway, hd, MotorDirection.code]

theorem Looking.goes (hl : Looking (saeStep delay rpm) r v sim) (hread : Reading delay rpm r v sim)
    (hcodec : plat.codec.FollowsDbc) (hrpm : 1 ≤ rpm ∧ rpm ≤ 254)
    (hactive : v.ctx.command ≠ .idle)
    (hp : pursuitOf v.statics v.ctx (lookTime plat v) = some pursuit)
    (he : endingOf pursuit.elapsed v.ctx = none) :
    Lively (looped plat v sim) ∧ (looped plat v sim).world.ctx = v.ctx ∧
      iterationsLeft (saeStep delay rpm) v.ctx.command (looped plat v sim).sim.motor1 + 1 =
        iterationsLeft (saeStep delay rpm) v.ctx.command r.sim.motor1 := by
  obtain ⟨hctx, hcaches, hpos, hstatus⟩ := hread.goes hcodec hrpm hp he
  have hr : reachedTarget v.ctx = false := by
    cases hr : reachedTarget v.ctx with
    | false => rfl
    | true => simp [endingOf, hr] at he
  have hdir : v.ctx.command.direction ≠ .off := by
    rcases (hread.isOpen.command.resolve_left hactive).2.1 with hd | hd <;> simp [hd]
  have hmoves : (looped plat v sim).sim.motor1.status ≠ .off := by
    by_cases hoff : sim.motor1.status = .off
    · have hresend := hl.resends hread hactive hoff hr
      rw [hstatus, (pursuitOf_some hp).2.2]
      simp only [hresend, if_true]
      exact hdir
    · rw [hstatus]
      split
      · exact hdir
      · exact hoff
  refine ⟨⟨?_, ?_, fun _ hs => absurd hs hmoves⟩, hctx, ?_⟩
  · intro hidle
    rw [hctx] at hidle
    exact absurd hidle hactive
  · by_cases hoff : sim.motor1.status = .off
    · exact .inr ((hl.stopped hactive hoff).2.fed _)
    · refine .inl fun hdir' => ?_
      rw [show (looped plat v sim).world.statics.lastCtlDir = v.ctx.motor1MovState from
        (Prod.mk.inj hcaches).2, hread.movState] at hdir'
      exact absurd (off_of_code hdir') hoff
  · rw [iterationsLeft, if_neg hmoves, hpos]
    exact hl.nearer hactive

theorem Looking.waits (hl : Looking (saeStep delay rpm) r v sim) (hread : Reading delay rpm r v sim)
    (hlively : Lively r) (hv : Applied r.world v) (hcodec : plat.codec.FollowsDbc)
    (hrpm : 1 ≤ rpm ∧ rpm ≤ 254)
    (hp : pursuitOf v.statics v.ctx (lookTime plat v) = none) :
    Lively (looped plat v sim) ∧ (looped plat v sim).world.ctx = v.ctx ∧
      (v.ctx.command ≠ .idle →
        iterationsLeft (saeStep delay rpm) v.ctx.command (looped plat v sim).sim.motor1 =
            iterationsLeft (saeStep delay rpm) v.ctx.command r.sim.motor1 ∧
          lookTime plat v - v.ctx.command.ts < 500) := by
  obtain ⟨hctx, hcaches, hpos, hstatus, hawaits⟩ := hread.waits hcodec hrpm hp
  have hoff : sim.motor1.status = .off := by
    by_cases hidle : v.ctx.command = .idle
    · exact hl.still (hlively.idle (hv.calm.command.symm.trans hidle))
    · exact (hawaits hidle).1
  refine ⟨⟨fun _ => hstatus.trans hoff, ?_, fun hactive _ => ?_⟩, hctx, fun hactive => ⟨?_, (hawaits hactive).2⟩⟩
  · rcases hl.cached hoff with hcleared | hheld
    · exact .inl (hcleared.congr hcaches)
    · exact .inr (hheld.fed _)
  · rw [hctx] at hactive
    obtain ⟨hcleared, hheld⟩ := hl.stopped hactive hoff
    exact ⟨hcleared.congr hcaches, hheld.fed _⟩
  · rw [iterationsLeft, if_pos (hstatus.trans hoff), hpos]
    exact hl.nearer hactive

theorem lively_of_ended (hidle : r.world.ctx.command = .idle) (hcleared : Cleared r.world)
    (hoff : r.sim.motor1.status = .off) : Lively r :=
  ⟨fun _ => hoff, .inl hcleared, fun hactive _ => absurd hidle hactive⟩

structure Functioning (delay rpm : Int) (r : Rig) : Prop where
  joint : Joint delay rpm r
  lively : Lively r

theorem Functioning.iteration (h : Functioning delay rpm r) (hcodec : plat.codec.FollowsDbc)
    (hrpm : 1 ≤ rpm ∧ rpm ≤ 254) (hdelay : 0 ≤ delay ∧ delay ≤ 20000)
    (hstep : 0 < saeStep delay rpm ∧ saeStep delay rpm ≤ posShiftVal) :
    Functioning delay rpm (r.step plat .iteration) ∧
      r.world.ticks < (r.step plat .iteration).world.ticks ∧
      (r.step plat .iteration).world.ticks ≤ r.world.ticks + 3 ∧
      (r.world.ctx.command ≠ .idle →
        Ended plat r.world.ctx.command r (r.step plat .iteration) ∨
          Onward plat (saeStep delay rpm) r.world.ctx.command r (r.step plat .iteration)) := by
  obtain ⟨hjoint, hbounded⟩ := h.joint.step hcodec hrpm hdelay .iteration
  have hbounded := hbounded rfl
  have hcodec' : plat.simulated.codec.FollowsDbc := hcodec
  obtain ⟨v, hv, hread, heq⟩ := h.joint.heard hcodec hdelay.1 hdelay.2
  replace heq : r.step plat .iteration = looped plat.simulated v (saeReadCb r.sim).2 := heq
  have hl := h.lively.looking h.joint hdelay hstep hv
  have hticks := controlLoop_ticks plat.simulated .ctl v
  have hworld : (r.step plat .iteration).world.ticks =
      ((seatctrlControlLoop plat.simulated .ctl).exec v).2.ticks := by rw [heq, looped]
  have hcommand : v.ctx.command = r.world.ctx.command := hv.calm.command
  obtain ⟨n, hn1, hn2, hlook⟩ := lookTime_ticks plat.simulated hv.ticks
  rw [hv.ticks] at hticks
  suffices hmain : Lively (r.step plat .iteration) ∧ (r.world.ctx.command ≠ .idle →
      Ended plat r.world.ctx.command r (r.step plat .iteration) ∨
        Onward plat (saeStep delay rpm) r.world.ctx.command r (r.step plat .iteration)) by
    exact ⟨⟨hjoint, hmain.1⟩, by omega, by omega, hmain.2⟩
  cases hp : pursuitOf v.statics v.ctx (lookTime plat.simulated v) with
  | none =>
    obtain ⟨hlively, hctx, hwaits⟩ := hl.waits hread h.lively hv hcodec' hrpm hp
    rw [heq]
    refine ⟨hlively, fun hactive => .inr ?_⟩
    obtain ⟨hleft, hearly⟩ := hwaits (hcommand ▸ hactive)
    rw [hcommand] at hleft hearly
    refine ⟨by rw [hctx, hcommand], by rw [hctx, hv.calm.config], .inr ⟨hleft, ?_⟩⟩
    have hmono := plat.clock_mono (r.world.ticks + 1) (r.world.ticks + n) (by omega)
    rw [hlook] at hearly
    exact Int.lt_of_le_of_lt (Int.sub_le_sub_right hmono _) hearly
  | some pursuit =>
    have hactive : v.ctx.command ≠ .idle := fun hidle => by
      have hrun := (pursuitOf_some hp).1
      rw [hread.isOpen.idle_iff.mpr hidle] at hrun
      cases hrun
    cases he : endingOf pursuit.elapsed v.ctx with
    | none =>
      obtain ⟨hlively, hctx, hleft⟩ := hl.goes hread hcodec' hrpm hactive hp he
      rw [heq]
      refine ⟨hlively, fun _ => .inr ⟨by rw [hctx, hcommand], by rw [hctx, hv.calm.config], .inl ?_⟩⟩
      rw [← hcommand]
      exact hleft
    | some why =>
      obtain ⟨hctx, hcleared, hoff⟩ := hread.ends hcodec' hrpm hp he
      have hidle : (looped plat.simulated v (saeReadCb r.sim).2).world.ctx.command = .idle := by rw [hctx]
      have hended := controlLoop_ends hp he
      have hentry : ⟨.ctl, .ended r.world.ctx.command why⟩ ∈
          newEntries r.world (r.step plat .iteration).world := by
        rw [← hcommand, heq, newEntries, ← hread.log]
        exact hended
      refine ⟨by rw [heq]; exact lively_of_ended hidle hcleared hoff, fun _ => .inl ?_⟩
      refine ⟨by rw [heq]; exact hidle, by rw [heq]; exact hoff, ?_⟩
      have helapsed : pursuit.elapsed = plat.clock (r.world.ticks + n) - r.world.ctx.command.ts := by
        rw [(pursuitOf_some hp).2.2, hlook, hcommand]
        rfl
      unfold endingOf at he
      split at he
      · obtain rfl := Option.some.inj he
        have hsmall : saeStep (r.step plat .iteration).sim.simDelay
            (r.step plat .iteration).world.ctx.config.motorRpm ≤ posShiftVal := by
          rw [hjoint.engine.simDelay, hjoint.motorRpm]
          exact hstep.2
        have htarget := (hbounded.target _ _ hentry).2.2.2 hsmall
        have hpos : v.ctx.motor1Pos = (r.step plat .iteration).world.ctx.motor1Pos := by rw [heq, hctx]
        rw [hpos, htarget] at hentry
        refine .inl ⟨hentry, htarget, ?_⟩
        rw [← hbounded.position, htarget]
      · obtain ⟨hlate, he⟩ := Option.ite_none_right_eq_some.mp he
        obtain rfl := Option.some.inj he
        rw [helapsed] at hentry hlate
        rw [hv.calm.config] at hlate
        exact .inr ⟨n, hn2, hentry, hlate⟩

theorem Functioning.step (h : Functioning delay rpm r) (hcodec : plat.codec.FollowsDbc)
    (hrpm : 1 ≤ rpm ∧ rpm ≤ 254) (hdelay : 0 ≤ delay ∧ delay ≤ 20000)
    (hstep : 0 < saeStep delay rpm ∧ saeStep delay rpm ≤ posShiftVal) (input : RigInput) :
    Functioning delay rpm (r.step plat input) := by
  cases input with
  | setPosition n desired =>
    exact ⟨h.joint.setPosition hcodec hrpm (saeStep_range hdelay.1 hdelay.2 rpm).1 n desired,
      h.lively.setPosition h.joint hcodec hrpm n desired⟩
  | iteration => exact (h.iteration hcodec hrpm hdelay hstep).1

-- ---------------------------------------------------------------------------
-- Runs
-- ---------------------------------------------------------------------------

/-- The iterations that the command of `r` can take, when the 500 ms for its
motor are over at tick `n`. -/
def Rig.rank (step : Int) (c : Command) (n : Nat) (r : Rig) : Nat :=
  n - r.world.ticks + iterationsLeft step c r.sim.motor1

theorem Onward.rank_lt (h : Onward plat step c r r') (hlater : r.world.ticks < r'.world.ticks)
    (hclock : c.ts + 500 ≤ plat.clock n) : r'.rank step c n < r.rank step c n := by
  unfold Rig.rank
  rcases h.nearer with hnearer | ⟨hleft, hearly⟩
  · omega
  · have hbefore : r.world.ticks + 1 < n := by
      by_contra hafter
      have hmono := plat.clock_mono n (r.world.ticks + 1) (by omega)
      omega
    omega

structure Underway (delay rpm : Int) (n : Nat) (r s : Rig) : Prop where
  live : Functioning delay rpm s
  command : s.world.ctx.command = r.world.ctx.command
  config : s.world.ctx.config = r.world.ctx.config
  ticks : s.world.ticks + 3 * s.rank (saeStep delay rpm) r.world.ctx.command n ≤
    r.world.ticks + 3 * r.rank (saeStep delay rpm) r.world.ctx.command n

/-- The command of `r` comes to its end. -/
theorem Functioning.ends (h : Functioning delay rpm r) (hcodec : plat.codec.FollowsDbc)
    (hrpm : 1 ≤ rpm ∧ rpm ≤ 254) (hdelay : 0 ≤ delay ∧ delay ≤ 20000)
    (hstep : 0 < saeStep delay rpm ∧ saeStep delay rpm ≤ posShiftVal)
    (hactive : r.world.ctx.command ≠ .idle) (hclock : r.world.ctx.command.ts + 500 ≤ plat.clock n) :
    ∃ k r', k ≤ r.rank (saeStep delay rpm) r.world.ctx.command n ∧
      run (rigStep plat) r (List.replicate k .iteration) = some r' ∧ Underway delay rpm n r r' ∧
      Ended plat r.world.ctx.command r' (r'.step plat .iteration) := by
  have hnext : ∀ s, Underway delay rpm n r s →
      ¬Ended plat r.world.ctx.command s (s.step plat .iteration) →
      ∃ t, rigStep plat s .iteration = some t ∧ Underway delay rpm n r t ∧
        t.rank (saeStep delay rpm) r.world.ctx.command n <
          s.rank (saeStep delay rpm) r.world.ctx.command n := by
    rintro s ⟨hlive, hcommand, hconfig, hticks⟩ hends
    obtain ⟨hlive', hlater, hsoon, hcase⟩ := hlive.iteration hcodec hrpm hdelay hstep
    rw [hcommand] at hcase
    have honward := (hcase hactive).resolve_left hends
    have hlt := honward.rank_lt hlater hclock
    exact ⟨_, rfl, ⟨hlive', honward.command, honward.config.trans hconfig, by omega⟩, hlt⟩
  exact reaches_of_rank hnext ⟨h, rfl, rfl, Nat.le_refl _⟩

theorem live_start (s : Session) (hstatics : s.statics = .initial) (getenv : String → Option String)
    (hpos : Placed (saeInit getenv)) :
    Functioning (saeInit getenv).simDelay (seatctrlDefaultConfig s.getenv).2.motorRpm (Rig.start s getenv) := by
  have hidle : (Rig.start s getenv).world.ctx.command = .idle := by
    rw [Rig.start, Session.listening, s.opened_eq, s.context_eq]
    rfl
  have hcached : (Rig.start s getenv).world.statics = .initial := by
    rw [Rig.start, Session.listening, s.opened_eq]
    exact hstatics
  refine ⟨joint_start s getenv hpos, lively_of_ended hidle ?_ rfl⟩
  intro _
  rw [hcached]
  rfl

theorem live_run (hcodec : plat.codec.FollowsDbc) (s : Session) (hstatics : s.statics = .initial)
    (getenv : String → Option String)
    (hdelay : 0 ≤ (saeInit getenv).simDelay ∧ (saeInit getenv).simDelay ≤ 20000)
    (hpos : Placed (saeInit getenv))
    (hstep : 0 < saeStep (saeInit getenv).simDelay (seatctrlDefaultConfig s.getenv).2.motorRpm ∧
      saeStep (saeInit getenv).simDelay (seatctrlDefaultConfig s.getenv).2.motorRpm ≤ posShiftVal)
    (hrun : run (rigStep plat) (Rig.start s getenv) inputs = some r) :
    Functioning (saeInit getenv).simDelay (seatctrlDefaultConfig s.getenv).2.motorRpm r := by
  have hrpm := seatctrlDefaultConfig_motorRpm s.getenv
  have hall : Throughout (rigStep plat) (Functioning (saeInit getenv).simDelay
      (seatctrlDefaultConfig s.getenv).2.motorRpm) (Rig.start s getenv) inputs := by
    refine throughout_of_keeps ?_ (live_start s hstatics getenv hpos)
    intro r input r' h hs
    obtain rfl := Option.some.inj hs
    exact h.step hcodec hrpm hdelay hstep input
  exact hall.last hrun

end

/-- From every state that requests and iterations lead to, in a step of at most
one percent at a time. The time of the command may be short or long. -/
theorem command_ends (plat : Platform) (hcodec : plat.codec.FollowsDbc) (s : Session)
    (hstatics : s.statics = .initial) (getenv : String → Option String)
    (hdelay : 0 ≤ (saeInit getenv).simDelay ∧ (saeInit getenv).simDelay ≤ 20000)
    (hpos : Placed (saeInit getenv))
    (hstep : 0 < saeStep (saeInit getenv).simDelay (seatctrlDefaultConfig s.getenv).2.motorRpm ∧
      saeStep (saeInit getenv).simDelay (seatctrlDefaultConfig s.getenv).2.motorRpm ≤ posShiftVal)
    (inputs : List RigInput) (r : Rig) (hrun : run (rigStep plat) (.start s getenv) inputs = some r)
    (hactive : r.world.ctx.command ≠ .idle) (n : Nat)
    (hclock : r.world.ctx.command.ts + 500 ≤ plat.clock (r.world.ticks + n)) :
    ∃ k r', k ≤ n + iterationsLeft
          (saeStep (saeInit getenv).simDelay (seatctrlDefaultConfig s.getenv).2.motorRpm)
          r.world.ctx.command r.sim.motor1 ∧
      run (rigStep plat) r (List.replicate k .iteration) = some r' ∧
      r'.world.ctx.command = r.world.ctx.command ∧
      Ended plat r.world.ctx.command r' (r'.step plat .iteration) := by
  have hlive := live_run hcodec s hstatics getenv hdelay hpos hstep hrun
  have hrpm := seatctrlDefaultConfig_motorRpm s.getenv
  obtain ⟨k, r', hk, hruns, hway, hended⟩ := hlive.ends hcodec hrpm hdelay hstep hactive hclock
  refine ⟨k, r', ?_, hruns, hway.command, hended⟩
  rw [Rig.rank, Nat.add_sub_cancel_left] at hk
  exact hk

def thresholdEnv : String → Option String
  | "SAE_POS" => some "84"
  | _ => none

def Rig.underway : Rig :=
  ((Rig.start .bench thresholdEnv).step (.ticking 5 fun _ => none) .iteration).step
    (.ticking 5 fun _ => none) (.setPosition 1 88)

theorem command_ends_underway :
    run (rigStep (.ticking 5 fun _ => none)) (.start .bench thresholdEnv)
        [.iteration, .setPosition 1 88] = some .underway ∧
      Rig.underway.world.ctx.command = ⟨88, .inc, 6⟩ ∧
      ∃ k r', k ≤ 100 + iterationsLeft (saeStep 10 80) ⟨88, .inc, 6⟩ Rig.underway.sim.motor1 ∧
        run (rigStep (.ticking 5 fun _ => none)) .underway (List.replicate k .iteration) = some r' ∧
        r'.world.ctx.command = ⟨88, .inc, 6⟩ ∧
        Ended (.ticking 5 fun _ => none) ⟨88, .inc, 6⟩ r'
          (r'.step (.ticking 5 fun _ => none) .iteration) := by
  have hpos : Placed (saeInit thresholdEnv) := .inr ⟨84, by decide, by decide, by decide +kernel⟩
  have hcommand : Rig.underway.world.ctx.command = ⟨88, .inc, 6⟩ := by decide +kernel
  have h := command_ends (.ticking 5 fun _ => none) seatEcuDbc_followsDbc .bench rfl thresholdEnv
    (by decide) hpos (by decide) [.iteration, .setPosition 1 88] .underway rfl
    (by rw [hcommand]; decide) 100 (by decide +kernel)
  rw [hcommand] at h
  exact ⟨rfl, hcommand, h⟩

def stepsAcross (step : Int) : Nat := (-(-saePosRaw 100 / step)).toNat

/-- The seat stands at `desired` percent, and controller and engine agree about it. -/
structure AtRest (desired : Int) (r : Rig) : Prop where
  idle : r.world.ctx.command = .idle
  off : r.sim.motor1.status = .off
  position : saePosPercent r.sim.motor1.pos = desired
  known : (r.world.ctx.motor1Pos : Int) = desired

section
variable {plat : Platform} {delay rpm : Int} {r : Rig}

theorem stepsLeft_le (hstep : 0 < step) (hc : c.Active) (hpos : InRange pos) :
    stepsLeft step c pos ≤ stepsAcross step := by
  have hleft : remaining c pos ≤ saePosRaw 100 := by
    obtain ⟨hposition, hdir, -⟩ := hc
    obtain ⟨hlow, hhigh⟩ := hpos
    simp only [saePosPercent, posShiftVal] at hhigh
    rcases hdir with hd | hd
    · simp only [remaining, hd, saePosRaw, posShiftVal]
      omega
    · simp only [remaining, hd, saePosRaw, posShiftVal]
      omega
  have hdiv : -saePosRaw 100 / step ≤ -remaining c pos / step :=
    Int.ediv_le_ediv hstep (Int.neg_le_neg hleft)
  unfold stepsLeft stepsAcross
  omega

theorem Functioning.rests (h : Functioning delay rpm r) (hcodec : plat.codec.FollowsDbc)
    (hrpm : 1 ≤ rpm ∧ rpm ≤ 254) (hdelay : 0 ≤ delay ∧ delay ≤ 20000)
    (hrest : AtRest desired r) (hdesired : desired ≤ 100) : AtRest desired (r.step plat .iteration) := by
  have hcodec' : plat.simulated.codec.FollowsDbc := hcodec
  obtain ⟨v, hv, hread, heq⟩ := h.joint.heard hcodec hdelay.1 hdelay.2
  replace heq : r.step plat .iteration = looped plat.simulated v (saeReadCb r.sim).2 := heq
  have hidle : v.ctx.command = .idle := hv.calm.command.trans hrest.idle
  have hp : pursuitOf v.statics v.ctx (lookTime plat.simulated v) = none := by
    simp [pursuitOf, hread.isOpen.idle_iff.mpr hidle]
  obtain ⟨hctx, -, hpos, hstatus, -⟩ := hread.waits hcodec' hrpm hp
  obtain ⟨hrange, -⟩ := h.joint.seen.resolve_left fun hi => by
    have hknown := hrest.known
    rw [hi.1] at hknown
    simp only [motorPosInvalid] at hknown
    omega
  obtain ⟨-, -, hmoved⟩ := h.joint.engine.read hdelay.1 hdelay.2
  rw [leaveInvalid_inRange hrange] at hmoved
  obtain ⟨hoff, hstill⟩ := hmoved.off hrest.off
  rw [heq]
  refine ⟨by rw [hctx, hidle], hstatus.trans hoff, ?_, ?_⟩
  · rw [hpos, hstill]
    exact hrest.position
  · rw [hctx, hread.position, hstill]
    exact hrest.position

theorem Functioning.rests_on (hcodec : plat.codec.FollowsDbc) (hrpm : 1 ≤ rpm ∧ rpm ≤ 254)
    (hdelay : 0 ≤ delay ∧ delay ≤ 20000)
    (hstep : 0 < saeStep delay rpm ∧ saeStep delay rpm ≤ posShiftVal) (hdesired : desired ≤ 100)
    (h : Functioning delay rpm r) (hrest : AtRest desired r) (k : Nat) :
    ∃ r', run (rigStep plat) r (List.replicate k .iteration) = some r' ∧ AtRest desired r' := by
  induction k generalizing r with
  | zero => exact ⟨r, rfl, hrest⟩
  | succ k ih =>
    rw [List.replicate_succ, run_cons (show rigStep plat r .iteration = some _ from rfl)]
    exact ih (h.iteration hcodec hrpm hdelay hstep).1 (h.rests hcodec hrpm hdelay hrest hdesired)

theorem Ended.atRest (h : Ended plat c r r') (hticks : r.world.ticks + 2 ≤ n)
    (hlong : plat.clock n - c.ts ≤ r.world.ctx.config.commandTimeout) : AtRest c.position r' := by
  rcases h.why with ⟨-, hknown, hposition⟩ | ⟨m, hm, -, hlate⟩
  · exact ⟨h.idle, h.off, hposition, by rw [hknown]⟩
  · have hmono := plat.clock_mono (r.world.ticks + m) n (by omega)
    omega

theorem commandPosition_ticks (plat : Platform) (me : Thread) (haway : (w.ctx.motor1Pos : Int) ≠ desired) :
    ((commandPosition plat me desired).exec w).2.ticks = w.ticks + 1 := by
  rw [exec_commandPosition_away haway, sendCmd1_ticks]
  rfl

/-- A request is accepted and fulfilled. -/
theorem Functioning.fulfills (h : Functioning delay rpm r) (hcodec : plat.codec.FollowsDbc)
    (hrpm : 1 ≤ rpm ∧ rpm ≤ 254) (hdelay : 0 ≤ delay ∧ delay ≤ 20000)
    (hstep : 0 < saeStep delay rpm ∧ saeStep delay rpm ≤ posShiftVal) (caller : Nat)
    (hdesired : 0 ≤ desired ∧ desired ≤ 100) (hknown : r.world.ctx.motor1Pos ≠ motorPosInvalid)
    (hclock : plat.clock r.world.ticks + 500 ≤ plat.clock (r.world.ticks + n))
    (hlong : plat.clock (r.world.ticks + 3 * (n + stepsAcross (saeStep delay rpm) + 1)) -
      plat.clock r.world.ticks ≤ r.world.ctx.config.commandTimeout) :
    ∃ k r', k ≤ n + stepsAcross (saeStep delay rpm) + 1 ∧
      run (rigStep plat) (r.step plat (.setPosition caller desired)) (List.replicate k .iteration) =
        some r' ∧ Functioning delay rpm r' ∧ AtRest desired r' := by
  have hr : ¬Refused r.world desired := by
    simp only [Refused, not_or, not_not]
    exact ⟨h.joint.isOpen.magic, by omega, by omega, hknown⟩
  have hlive := h.step hcodec hrpm hdelay hstep (.setPosition caller desired)
  obtain ⟨hrange, hseen⟩ := h.joint.seen.resolve_left fun hi => hknown hi.1
  obtain ⟨c, hctx, -, hpos, hstatus, hcase⟩ := h.joint.setPosition_sends hcodec hrpm caller hr
  rcases hcase with ⟨hthere, rfl⟩ | ⟨haway, rfl⟩
  · refine ⟨0, _, Nat.zero_le _, rfl, hlive, by rw [hctx], hstatus, ?_, ?_⟩
    · rw [hpos, ← hseen]
      exact hthere
    · rw [hctx]
      exact hthere
  have hactive := commandFor_active plat r.world hdesired.1 hdesired.2
  have hposition : ((commandFor plat r.world desired).position : Int) = desired := by
    simp only [commandFor, toUint8]
    omega
  have hticks : (r.step plat (.setPosition caller desired)).world.ticks = r.world.ticks + 1 := by
    simp only [Rig.step, exec_setPosition_accepted hr]
    exact commandPosition_ticks plat.simulated (.caller caller) haway
  have hmoves : (r.step plat (.setPosition caller desired)).sim.motor1.status ≠ .off := by
    rw [hstatus]
    rcases hactive.2.1 with hd | hd <;> simp [hd]
  have hleft := stepsLeft_le hstep.1 hactive hrange
  generalize r.step plat (.setPosition caller desired) = r₁ at *
  have hcommand : r₁.world.ctx.command = commandFor plat r.world desired := by rw [hctx]
  have hrank : r₁.rank (saeStep delay rpm) r₁.world.ctx.command (r.world.ticks + n) ≤
      n + stepsAcross (saeStep delay rpm) := by
    rw [Rig.rank, iterationsLeft, if_neg hmoves, hpos, hcommand]
    omega
  obtain ⟨k, r', hk, hrun, hway, hended⟩ := hlive.ends hcodec hrpm hdelay hstep
    (by rw [hcommand]; exact fun hi => by simp [hi, Command.idle, Command.Active] at hactive)
    (by rw [hcommand]; exact hclock)
  refine ⟨k + 1, _, by omega, ?_, (hway.live.iteration hcodec hrpm hdelay hstep).1, ?_⟩
  · rw [List.replicate_succ', run_append, hrun]
    rfl
  · rw [hcommand] at hended
    rw [← hposition]
    have hafter := hway.ticks
    refine hended.atRest (n := r.world.ticks + 3 * (n + stepsAcross (saeStep delay rpm) + 1)) ?_ ?_
    · omega
    · rw [hway.config, hctx]
      exact hlong

end

/-- From every state in which the position is known, a request with enough time
leaves the seat at the requested position, where it stays. -/
theorem request_fulfilled (plat : Platform) (hcodec : plat.codec.FollowsDbc) (s : Session)
    (hstatics : s.statics = .initial) (getenv : String → Option String)
    (hdelay : 0 ≤ (saeInit getenv).simDelay ∧ (saeInit getenv).simDelay ≤ 20000)
    (hpos : Placed (saeInit getenv))
    (hstep : 0 < saeStep (saeInit getenv).simDelay (seatctrlDefaultConfig s.getenv).2.motorRpm ∧
      saeStep (saeInit getenv).simDelay (seatctrlDefaultConfig s.getenv).2.motorRpm ≤ posShiftVal)
    (inputs : List RigInput) (r : Rig) (hrun : run (rigStep plat) (.start s getenv) inputs = some r)
    (hknown : r.world.ctx.motor1Pos ≠ motorPosInvalid) (caller : Nat) (desired : Int)
    (hdesired : 0 ≤ desired ∧ desired ≤ 100) (n : Nat)
    (hclock : plat.clock r.world.ticks + 500 ≤ plat.clock (r.world.ticks + n))
    (hlong : plat.clock (r.world.ticks + 3 * (n + stepsAcross
          (saeStep (saeInit getenv).simDelay (seatctrlDefaultConfig s.getenv).2.motorRpm) + 1)) -
        plat.clock r.world.ticks ≤ r.world.ctx.config.commandTimeout) :
    ∃ k ≤ n + stepsAcross
          (saeStep (saeInit getenv).simDelay (seatctrlDefaultConfig s.getenv).2.motorRpm) + 1,
      ∀ j, ∃ r', run (rigStep plat) r (.setPosition caller desired :: List.replicate (k + j) .iteration) =
        some r' ∧ AtRest desired r' := by
  have hlive := live_run hcodec s hstatics getenv hdelay hpos hstep hrun
  have hrpm := seatctrlDefaultConfig_motorRpm s.getenv
  obtain ⟨k, r', hk, hrun', hlive', hrest⟩ :=
    hlive.fulfills hcodec hrpm hdelay hstep caller hdesired hknown hclock hlong
  refine ⟨k, hk, fun j => ?_⟩
  obtain ⟨r'', hrun'', hrest'⟩ := hlive'.rests_on hcodec hrpm hdelay hstep hdesired.2 hrest j
  refine ⟨r'', ?_, hrest'⟩
  rw [run_cons (show rigStep plat r (.setPosition caller desired) = some _ from rfl),
    List.replicate_add, run_append, hrun']
  exact hrun''

theorem request_fulfilled_underway :
    ∃ k ≤ 100 + stepsAcross (saeStep 10 80) + 1, ∀ j, ∃ r',
      run (rigStep (.ticking 5 fun _ => none)) .underway
          (.setPosition 2 0 :: List.replicate (k + j) .iteration) = some r' ∧ AtRest 0 r' := by
  have hpos : Placed (saeInit thresholdEnv) := .inr ⟨84, by decide, by decide, by decide +kernel⟩
  exact request_fulfilled (.ticking 5 fun _ => none) seatEcuDbc_followsDbc .bench rfl thresholdEnv
    (by decide) hpos (by decide) [.iteration, .setPosition 1 88] .underway rfl
    (by decide +kernel) 2 0 (by decide) 100 (by decide +kernel) (by decide +kernel)

end KuksaServices.Seat
