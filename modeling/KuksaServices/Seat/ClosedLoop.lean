import KuksaServices.Seat.Faults
import KuksaServices.Seat.Positions
import KuksaServices.Seat.Simulator

/-!
# Controller and engine

The controller with the simulated ECU as its CAN bus: a turn of the CTL thread
reads one frame from the engine, and all that the controller writes goes back
to it. After every turn the controller knows the position of the engine, and a
command that ends at its target has overshot it by less than one step
(`overshoot_bounded`).

The invariant is `OnCourse`. On its way a motor is short of the target, or it
has stopped less than one step behind it: in the first 500 ms the control loop
does not look for the target while the motor stands still.
-/

namespace KuksaServices.Seat

open Atomic

-- ---------------------------------------------------------------------------
-- The closed loop
-- ---------------------------------------------------------------------------

structure Rig where
  world : World
  sim : SaeContext

/-- The engine takes every frame. -/
def Platform.simulated (plat : Platform) : Platform := { plat with write := fun _ => none }

def feed (sim : SaeContext) (sents : List Sent) : SaeContext :=
  sents.foldl (fun sim sent => (saeWriteCb sim sent.frame).2) sim

inductive RigInput where
  | setPosition (caller : Nat) (desired : Int)
  | iteration
  deriving DecidableEq, Repr

def Rig.step (plat : Platform) (r : Rig) : RigInput → Rig
  | .setPosition n desired =>
    let w := ((seatctrlSetPosition plat.simulated (.caller n) desired).exec r.world).2
    ⟨w, feed r.sim (sentSince r.world w)⟩
  | .iteration =>
    let (result, sim) := saeReadCb r.sim
    let w := ((threadTurn plat.simulated .ctl result).exec (turnBegins r.world)).2
    ⟨w, feed sim (sentSince r.world w)⟩

def rigStep (plat : Platform) (r : Rig) (input : RigInput) : Option Rig := some (r.step plat input)

def Rig.start (s : Session) (getenv : String → Option String) : Rig where
  world := s.listening
  sim := saeStart (saeInit getenv) (s.calls.socket.getD 0)

def ceilPercent (step : Int) : Int := -(-step / posShiftVal)

/-- What holds after an iteration that leads from `r` to `r'`. -/
structure Bounded (r r' : Rig) : Prop where
  position : (r'.world.ctx.motor1Pos : Int) = saePosPercent r'.sim.motor1.pos
  target : ∀ c pos, ⟨.ctl, .ended c (.target pos)⟩ ∈ newEntries r.world r'.world →
    let step := saeStep r'.sim.simDelay r'.world.ctx.config.motorRpm
    r'.sim.motor1.status = .off ∧ 0 < step ∧
      ((r'.world.ctx.motor1Pos : Int) - c.position).natAbs ≤ ceilPercent step - 1 ∧
      (step ≤ posShiftVal → r'.world.ctx.motor1Pos = c.position)

-- ---------------------------------------------------------------------------
-- What is written
-- ---------------------------------------------------------------------------

section
variable {plat : Platform} {me : Thread} {w : World} {sim : SaeContext} {delay rpm : Int}

theorem feed_eq (h : Carry plat sends sents) : feed sim sents =
    sends.foldl (fun sim s => (saeWriteCb sim (cmdFrame plat s.1 s.2)).2) sim := by
  have hframes : sents.map Sent.frame = sends.map fun s => cmdFrame plat s.1 s.2 := by
    simpa [Function.comp_def] using congrArg (List.map Prod.snd) h
  unfold feed
  rw [← List.foldl_map (f := Sent.frame) (g := fun sim frame => (saeWriteCb sim frame).2), hframes,
    List.foldl_map]

def Sends (rpm : Int) (s : MotorDirection × Int) : Prop :=
  s = (.off, 0) ∨ s = (.inc, rpm) ∨ s = (.dec, rpm)

theorem sends_movement (hdir : dir = .inc ∨ dir = .dec)
    (hs : s ∈ [(MotorDirection.off, 0), (dir, rpm)]) : Sends rpm s := by
  rcases List.mem_cons.mp hs with rfl | hs
  · exact .inl rfl
  · obtain rfl := List.mem_singleton.mp hs
    rcases hdir with rfl | rfl
    · exact .inr (.inl rfl)
    · exact .inr (.inr rfl)

/-- After commands of the controller the position is the same, and the last
one holds. -/
theorem Engine.fed (h : Engine delay rpm sim) (hcodec : plat.codec.FollowsDbc)
    (hrpm : 1 ≤ rpm ∧ rpm ≤ 254) (hpos : InRange sim.motor1.pos) (hc : Carry plat sends sents)
    (hs : ∀ s ∈ sends, Sends rpm s) :
    Engine delay rpm (feed sim sents) ∧ (feed sim sents).motor1.pos = sim.motor1.pos ∧
      (feed sim sents).motor1.status = (sends.getLast?.map Prod.fst).getD sim.motor1.status := by
  rw [feed_eq hc]
  clear hc
  induction sends using List.reverseRecOn with
  | nil => exact ⟨h, rfl, rfl⟩
  | append_singleton sends s ih =>
    obtain ⟨he, hp, -⟩ := ih fun s hs' => hs s (List.mem_append_left _ hs')
    rw [List.foldl_append]
    generalize List.foldl _ sim sends = sim' at he hp
    have hpos' : InRange sim'.motor1.pos := hp ▸ hpos
    simp only [List.foldl_cons, List.foldl_nil, List.getLast?_concat, Option.map_some,
      Option.getD_some]
    rcases hs s (List.mem_append_right _ List.mem_cons_self) with rfl | rfl | rfl
    · obtain ⟨he', hp', hs'⟩ := he.write_off hcodec
      exact ⟨he', hp'.trans hp, hs'⟩
    · obtain ⟨he', hp', hs'⟩ := he.write_move hcodec hpos' hrpm (.inl rfl)
      exact ⟨he', hp'.trans hp, hs'⟩
    · obtain ⟨he', hp', hs'⟩ := he.write_move hcodec hpos' hrpm (.inr rfl)
      exact ⟨he', hp'.trans hp, hs'⟩

theorem not_mem_resendEntries (pursuit : Pursuit) (v : World) :
    ⟨t, .ended c why⟩ ∉ resendEntries plat me pursuit v := by
  unfold resendEntries
  split <;> simp [sendEntry]

theorem commandPosition_sends (plat : Platform) (me : Thread) (desired : Int)
    (hs : w.ctx.socket.isSome) :
    ∃ sends c, Carry plat sends (sentSince w ((commandPosition plat me desired).exec w).2) ∧
      ((commandPosition plat me desired).exec w).2.ctx = { w.ctx with command := c } ∧
      sends.getLast?.map Prod.fst = some c.direction ∧
      ((w.ctx.motor1Pos : Int) = desired ∧ c = .idle ∧ (∀ s ∈ sends, s = (.off, 0)) ∨
        (w.ctx.motor1Pos : Int) ≠ desired ∧ c = commandFor plat w desired ∧
          sends = [(.off, 0), (directionTo w.ctx.motor1Pos desired, w.ctx.config.motorRpm)]) := by
  by_cases hthere : (w.ctx.motor1Pos : Int) = desired
  · by_cases hmov : w.ctx.motor1MovState = MotorDirection.off.code
    · rw [exec_commandPosition_there hthere hmov]
      refine ⟨[(.off, 0)], .idle, ?_, by simp [World.setCommand, World.record], rfl,
        .inl ⟨hthere, rfl, by simp⟩⟩
      rw [sentSince_of_log (by rw [World.setCommand, World.record, deciding_log hs, List.append_assoc])]
      rfl
    · rw [exec_commandPosition_moving hthere hmov]
      refine ⟨[(.off, 0), (.off, 0)], .idle, ?_, by simp, rfl, .inl ⟨hthere, rfl, by simp⟩⟩
      rw [sentSince_of_log (by rw [stopMovement_log (by simpa using hs), deciding_log hs, List.append_assoc])]
      rfl
  · rw [exec_commandPosition_away hthere]
    refine ⟨_, commandFor plat w desired, ?_, ?_, rfl, .inr ⟨hthere, rfl, rfl⟩⟩
    · rw [sentSince_of_log (by rw [sendCmd1_log (commanding_socket hs), commanding_log hs,
        List.append_assoc])]
      rfl
    · simp [commanding, World.setCommand, World.record]

theorem controlLoop_ended (plat : Platform) (v : World)
    (h : ⟨.ctl, .ended c why⟩ ∈ newEntries v ((seatctrlControlLoop plat .ctl).exec v).2) :
    c = v.ctx.command ∧ ∃ pursuit, pursuitOf v.statics v.ctx (lookTime plat v) = some pursuit ∧
      endingOf pursuit.elapsed v.ctx = some why := by
  have hspec := pursue_spec plat v
  cases hp : (pursue plat v).1 with
  | none =>
    rw [exec_controlLoop_idle hp, newEntries, hspec.1.log, List.drop_length] at h
    cases h
  | some pursuit =>
    simp only [hp] at hspec
    have hs : (pursue plat v).2.ctx.socket.isSome := hspec.1.ctx ▸ isSome_of_running hspec.2.running
    have hlog := resent_log plat .ctl pursuit hs
    rw [exec_controlLoop_pursues hp, exec_pursueCommand] at h
    cases he : endingOf pursuit.elapsed v.ctx with
    | none =>
      rw [exec_checkCommand_goes (by rw [resent_ctx, hspec.1.ctx]; exact he), newEntries,
        (calm_cacheMotorState pursuit _).log, hlog, hspec.1.log, List.drop_left] at h
      exact absurd h (not_mem_resendEntries pursuit _)
    | some why' =>
      rw [exec_checkCommand_ends (by rw [resent_ctx, hspec.1.ctx]; exact he)] at h
      simp only [newEntries, invalidateCtlCache] at h
      rw [stopMovement_log (by simpa using hs), ending_log, hlog, hspec.1.log, List.append_assoc,
        List.append_assoc, List.drop_left, resent_ctx, hspec.1.ctx] at h
      rcases List.mem_append.mp h with h | h
      · exact absurd h (not_mem_resendEntries pursuit _)
      · have hend : c = v.ctx.command ∧ why = why' := by simpa [sendEntry] using h
        exact ⟨hend.1, pursuit, by rw [← pursue_eq]; exact hp, by rw [hend.2]; exact he⟩

end

-- ---------------------------------------------------------------------------
-- On course
-- ---------------------------------------------------------------------------

/-- The motor moves in the direction of the command or not at all, and is not
a whole step past the target. -/
structure Near (step : Int) (c : Command) (m : SaeMotor) : Prop where
  inc : c.direction = .inc → (m.status = .inc ∨ m.status = .off) ∧
    saePosPercent m.pos < c.position + ceilPercent step
  dec : c.direction = .dec → (m.status = .dec ∨ m.status = .off) ∧
    c.position - ceilPercent step < saePosPercent m.pos

structure Short (c : Command) (pos : Int) : Prop where
  inc : c.direction = .inc → saePosPercent pos < c.position
  dec : c.direction = .dec → c.position < saePosPercent pos

structure OnCourse (step : Int) (c : Command) (m : SaeMotor) : Prop where
  near : Near step c m
  short : m.status = .off ∨ Short c m.pos

section
variable {step : Int} {c : Command} {m m' : SaeMotor}

theorem near_idle : Near step .idle m := by
  constructor
  · intro h
    cases h
  · intro h
    cases h

theorem onCourse_idle : OnCourse step .idle m := by
  refine ⟨near_idle, .inr ?_⟩
  constructor
  · intro h
    cases h
  · intro h
    cases h

/-- One step from short of the target does not lead a whole step past it. -/
theorem OnCourse.moved (h : OnCourse step c m) (hm : Moved step m m') : Near step c m' := by
  have hpercent : ∀ pos, saePosPercent (pos + step) ≤ saePosPercent pos + ceilPercent step ∧
      saePosPercent pos - ceilPercent step ≤ saePosPercent (pos - step) := by
    intro pos
    unfold saePosPercent ceilPercent posShiftVal
    omega
  refine ⟨fun hd => ?_, fun hd => ?_⟩
  · obtain ⟨hstatus, hpos⟩ := h.near.inc hd
    rcases hstatus with hs | hs
    · have hshort := (h.short.resolve_left (by simp [hs])).inc hd
      obtain ⟨hs', hpos'⟩ := hm.inc hs
      refine ⟨hs', ?_⟩
      rcases hpos' with heq | heq
      · rw [heq]
        exact hpos
      · rw [heq]
        have hle := (hpercent m.pos).1
        omega
    · obtain ⟨hs', hpos'⟩ := hm.off hs
      exact ⟨.inr hs', by rw [hpos']; exact hpos⟩
  · obtain ⟨hstatus, hpos⟩ := h.near.dec hd
    rcases hstatus with hs | hs
    · have hshort := (h.short.resolve_left (by simp [hs])).dec hd
      obtain ⟨hs', hpos'⟩ := hm.dec hs
      refine ⟨hs', ?_⟩
      rcases hpos' with heq | heq
      · rw [heq]
        exact hpos
      · rw [heq]
        have hle := (hpercent m.pos).2
        omega
    · obtain ⟨hs', hpos'⟩ := hm.off hs
      exact ⟨.inr hs', by rw [hpos']; exact hpos⟩

theorem onCourse_command (hstep : 0 ≤ step) (hs : m.status = c.direction) (h : Short c m.pos) :
    OnCourse step c m := by
  have hceil : 0 ≤ ceilPercent step := by
    unfold ceilPercent posShiftVal
    omega
  refine ⟨⟨fun hd => ⟨.inl (hs.trans hd), ?_⟩, fun hd => ⟨.inl (hs.trans hd), ?_⟩⟩, .inr h⟩
  · have hlt := h.inc hd
    omega
  · have hlt := h.dec hd
    omega

end

-- ---------------------------------------------------------------------------
-- What every step keeps
-- ---------------------------------------------------------------------------

/-- The controller has seen the position of the engine, or none yet; it then
has no command. -/
structure Joint (delay rpm : Int) (r : Rig) : Prop where
  isOpen : Open r.world
  running : r.world.ctx.running = true
  motorRpm : r.world.ctx.config.motorRpm = rpm
  engine : Engine delay rpm r.sim
  seen : r.world.ctx.motor1Pos = motorPosInvalid ∧ r.world.ctx.command = .idle ∨
    InRange r.sim.motor1.pos ∧ (r.world.ctx.motor1Pos : Int) = saePosPercent r.sim.motor1.pos
  course : OnCourse (saeStep delay rpm) r.world.ctx.command r.sim.motor1

section
variable {plat : Platform} {delay rpm : Int} {r : Rig}

theorem Engine.joint (h : Engine delay rpm sim) (hcodec : plat.codec.FollowsDbc)
    (hrpm : 1 ≤ rpm ∧ rpm ≤ 254) (hpos : InRange sim.motor1.pos) (hc : Carry plat sends sents)
    (hs : ∀ s ∈ sends, Sends rpm s) (hopen : Open w') (hrun : w'.ctx.running = true)
    (hmotor : w'.ctx.config.motorRpm = rpm)
    (hseen : (w'.ctx.motor1Pos : Int) = saePosPercent sim.motor1.pos)
    (hcourse : ∀ m : SaeMotor, m.pos = sim.motor1.pos →
      m.status = (sends.getLast?.map Prod.fst).getD sim.motor1.status →
      OnCourse (saeStep delay rpm) w'.ctx.command m) :
    Joint delay rpm ⟨w', feed sim sents⟩ := by
  obtain ⟨he, hp, hstatus⟩ := h.fed hcodec hrpm hpos hc hs
  refine ⟨hopen, hrun, hmotor, he, .inr ⟨?_, ?_⟩, hcourse _ hp hstatus⟩
  · rw [hp]
    exact hpos
  · rw [hp]
    exact hseen

theorem short_commandFor (hdesired : 0 ≤ desired ∧ desired ≤ 100)
    (haway : (w.ctx.motor1Pos : Int) ≠ desired)
    (hseen : (w.ctx.motor1Pos : Int) = saePosPercent pos) : Short (commandFor plat w desired) pos := by
  have htarget : (toUint8 desired : Int) = desired := by
    simp only [toUint8]
    omega
  refine ⟨?_, ?_⟩
  · intro hd
    have hlt : (w.ctx.motor1Pos : Int) < desired := by
      by_contra hlt
      simp [commandFor, directionTo, hlt] at hd
    rw [← hseen]
    simp only [commandFor]
    omega
  · intro hd
    have hlt : ¬(w.ctx.motor1Pos : Int) < desired := by
      intro hlt
      simp [commandFor, directionTo, hlt] at hd
    rw [← hseen]
    simp only [commandFor]
    omega

theorem Joint.setPosition (h : Joint delay rpm r) (hcodec : plat.codec.FollowsDbc)
    (hrpm : 1 ≤ rpm ∧ rpm ≤ 254) (hstep : 0 ≤ saeStep delay rpm) (n : Nat) (desired : Int) :
    Joint delay rpm (r.step plat (.setPosition n desired)) := by
  have hopen : Open ((seatctrlSetPosition plat.simulated (.caller n) desired).exec r.world).2 :=
    h.isOpen.setPosition
  simp only [Rig.step]
  by_cases hr : Refused r.world desired
  · obtain ⟨rc, -, he⟩ := exec_setPosition_refused plat.simulated (.caller n) hr
    rw [he, sentSince_of_log_eq rfl]
    exact h
  rw [exec_setPosition_accepted hr] at hopen ⊢
  simp only [Refused, not_or, Int.not_lt] at hr
  obtain ⟨-, h0, h100, hknown⟩ := hr
  obtain ⟨hpos, hseen⟩ := h.seen.resolve_left fun hi => hknown hi.1
  obtain ⟨sends, c, hsent, hctx, -, hcase⟩ :=
    commandPosition_sends plat.simulated (.caller n) desired h.isOpen.socket
  refine h.engine.joint hcodec hrpm hpos hsent ?_ hopen ?_ ?_ ?_ ?_
  · intro s hs
    rcases hcase with ⟨-, -, hoff⟩ | ⟨-, -, rfl⟩
    · exact .inl (hoff s hs)
    · rw [h.motorRpm] at hs
      exact sends_movement (directionTo_cases _ _) hs
  · rw [hctx]
    exact h.running
  · rw [hctx]
    exact h.motorRpm
  · rw [hctx]
    exact hseen
  · intro m hm hstatus
    rw [hctx]
    rcases hcase with ⟨-, rfl, -⟩ | ⟨haway, rfl, rfl⟩
    · exact onCourse_idle
    · refine onCourse_command hstep hstatus ?_
      rw [hm]
      exact short_commandFor ⟨h0, h100⟩ haway hseen

/-- The control loop is about to run in `v`, on what the engine in `sim` has
sent. -/
structure Reading (delay rpm : Int) (r : Rig) (v : World) (sim : SaeContext) : Prop where
  log : v.log = r.world.log
  isOpen : Open v
  running : v.ctx.running = true
  motorRpm : v.ctx.config.motorRpm = rpm
  engine : Engine delay rpm sim
  inRange : InRange sim.motor1.pos
  position : (v.ctx.motor1Pos : Int) = saePosPercent sim.motor1.pos
  movState : v.ctx.motor1MovState = sim.motor1.status.code
  near : Near (saeStep delay rpm) v.ctx.command sim.motor1

/-- The controller in `v` has taken a frame into account, and nothing else has
happened to it since `w`. -/
structure Applied (w v : World) : Prop where
  calm : Calm w v
  statics : v.statics = w.statics
  ticks : v.ticks = w.ticks + 1

theorem Joint.heard (h : Joint delay rpm r) (hcodec : plat.codec.FollowsDbc) (h0 : 0 ≤ delay)
    (h1 : delay ≤ 20000) : ∃ v, Applied r.world v ∧ Reading delay rpm r v (saeReadCb r.sim).2 ∧
      r.step plat .iteration = ⟨((seatctrlControlLoop plat.simulated .ctl).exec v).2,
        feed (saeReadCb r.sim).2
          (sentSince v ((seatctrlControlLoop plat.simulated .ctl).exec v).2)⟩ := by
  obtain ⟨he, hp, hm⟩ := h.engine.read h0 h1
  obtain ⟨stat, hstat, hpos, hmov⟩ :=
    secu1StatFrame_accepted (show plat.simulated.codec.FollowsDbc from hcodec) hp
  have hheard : heardStat plat.simulated (turnBegins r.world)
      (.frame (secu1StatFrame (saeReadCb r.sim).2)) = some stat := by
    simp [heardStat, turnBegins, h.running, h.isOpen.socket, acceptedRead, hstat]
  have hcalm := (calm_turnBegins r.world).trans (calm_applyStat stat (turnBegins r.world))
  have hctx := applyStat_ctx stat (turnBegins r.world)
  refine ⟨applyStat stat (turnBegins r.world), ⟨hcalm, applyStat_statics, applyStat_ticks _ _⟩, ?_, ?_⟩
  · refine ⟨hcalm.log, h.isOpen.calm hcalm, ?_, ?_, he, hp, ?_, ?_, ?_⟩
    · rw [hctx]
      exact h.running
    · rw [hctx]
      exact h.motorRpm
    · rw [hctx]
      exact hpos
    · rw [hctx]
      exact hmov
    · rw [hcalm.command]
      rcases h.seen with ⟨-, hidle⟩ | ⟨hrange, -⟩
      · rw [hidle]
        exact near_idle
      · have hleft : leaveInvalid r.sim = r.sim := by
          unfold leaveInvalid
          rw [if_neg]
          intro hi
          rw [hi] at hrange
          exact absurd hrange.1 (by decide)
        rw [hleft] at hm
        exact h.course.moved hm
  · simp only [Rig.step]
    rw [saeReadCb_eq h.engine]
    simp only
    rw [exec_turn_heard hheard]
    simp only [sentSince, hcalm.log]

theorem Joint.iteration (h : Joint delay rpm r) (hcodec : plat.codec.FollowsDbc) (h0 : 0 ≤ delay)
    (h1 : delay ≤ 20000) : ∃ v sim, Reading delay rpm r v sim ∧
      r.step plat .iteration = ⟨((seatctrlControlLoop plat.simulated .ctl).exec v).2,
        feed sim (sentSince v ((seatctrlControlLoop plat.simulated .ctl).exec v).2)⟩ := by
  obtain ⟨v, -, hread, heq⟩ := h.heard hcodec h0 h1
  exact ⟨v, (saeReadCb r.sim).2, hread, heq⟩

variable {v : World} {sim : SaeContext}

theorem Near.congr (h : Near step c m) (hp : m'.pos = m.pos) (hs : m'.status = m.status) :
    Near step c m' :=
  ⟨by rw [hp, hs]; exact h.inc, by rw [hp, hs]; exact h.dec⟩

theorem Reading.sends (h : Reading delay rpm r v sim)
    (hp : pursuitOf v.statics v.ctx now = some pursuit) (hs : s ∈ pursuitSends v.ctx pursuit) :
    Sends rpm s := by
  have hactive := h.isOpen.active (pursuitOf_some hp).1
  unfold pursuitSends at hs
  rcases List.mem_append.mp hs with hs | hs
  · split at hs
    · rw [h.motorRpm] at hs
      exact sends_movement hactive.2.1 hs
    · cases hs
  · split at hs
    · exact .inl (List.mem_singleton.mp hs)
    · cases hs

/-- A target that is not reached is still ahead. -/
theorem Reading.short (h : Reading delay rpm r v sim) (hr : reachedTarget v.ctx = false) :
    Short v.ctx.command sim.motor1.pos := by
  have hvalid : v.ctx.motor1Pos ≠ motorPosInvalid := by
    have hle := h.inRange.2
    have hpos := h.position
    simp only [motorPosInvalid]
    omega
  simp only [reachedTarget, Bool.and_eq_false_iff, Bool.or_eq_false_iff, bne_eq_false_iff_eq,
    hvalid, false_or, beq_eq_false_iff_ne, decide_eq_false_iff_not] at hr
  refine ⟨fun hd => ?_, fun hd => ?_⟩
  · have hlt := hr.1.resolve_left (not_not.mpr hd)
    rw [← h.position]
    omega
  · have hlt := hr.2.resolve_left (not_not.mpr hd)
    rw [← h.position]
    omega

theorem off_of_code {dir : MotorDirection} (h : dir.code = MotorDirection.off.code) : dir = .off := by
  cases dir with
  | off => rfl
  | dec => cases h
  | inc => cases h
  | inv => cases h

def commandAfter (ctx : Context) (pursuit? : Option Pursuit) : Command :=
  if pursuit?.any fun pursuit => (endingOf pursuit.elapsed ctx).isSome then .idle else ctx.command

/-- Whatever the control loop does, the seat is on course afterwards. -/
theorem Reading.course (h : Reading delay rpm r v sim) (hstep : 0 ≤ saeStep delay rpm) (m : SaeMotor)
    (hm : m.pos = sim.motor1.pos)
    (hstatus : m.status = (((((pursuitOf v.statics v.ctx now).map (pursuitSends v.ctx)).getD
      []).getLast?).map Prod.fst).getD sim.motor1.status) :
    OnCourse (saeStep delay rpm) (commandAfter v.ctx (pursuitOf v.statics v.ctx now)) m := by
  unfold commandAfter
  cases hp : pursuitOf v.statics v.ctx now with
  | none =>
    have hs : m.status = sim.motor1.status := by simpa [hp] using hstatus
    simp only [Option.any_none, Bool.false_eq_true, if_false]
    cases hrun : isCtlRunning v.ctx with
    | false =>
      rw [h.isOpen.idle_iff.mp hrun]
      exact onCourse_idle
    | true =>
      -- the command waits for its motor, which stands still
      refine ⟨h.near.congr hm hs, .inl ?_⟩
      have hawaits : awaitsMovement v.ctx (now - v.ctx.command.ts) = true := by
        simpa [pursuitOf, hrun] using hp
      simp only [awaitsMovement, Bool.and_eq_true, beq_iff_eq] at hawaits
      rw [hs]
      exact off_of_code (h.movState.symm.trans hawaits.1.2)
  | some pursuit =>
    simp only [Option.any_some]
    by_cases he : (endingOf pursuit.elapsed v.ctx).isSome = true
    · rw [if_pos he]
      exact onCourse_idle
    · rw [if_neg he]
      have hr : reachedTarget v.ctx = false := by
        cases hr : reachedTarget v.ctx with
        | false => rfl
        | true => simp [endingOf, hr] at he
      have hshort := h.short hr
      rw [← hm] at hshort
      simp only [hp, Option.map_some, Option.getD_some, pursuitSends, he, Bool.false_eq_true,
        if_false, List.append_nil] at hstatus
      split at hstatus
      · exact onCourse_command hstep hstatus hshort
      · exact ⟨h.near.congr hm hstatus, .inr hshort⟩

theorem Reading.carry (h : Reading delay rpm r v sim) (plat : Platform) : ∃ sends,
    Carry plat sends (sentSince v ((seatctrlControlLoop plat .ctl).exec v).2) ∧
      (∀ s ∈ sends, Sends rpm s) ∧
      sends = ((pursuitOf v.statics v.ctx (lookTime plat v)).map (pursuitSends v.ctx)).getD [] := by
  have hsends := controlLoop_sends plat .ctl v
  rw [pursue_eq] at hsends
  refine ⟨_, hsends, ?_, rfl⟩
  intro s hs
  cases hp : pursuitOf v.statics v.ctx (lookTime plat v) with
  | none => simp [hp] at hs
  | some pursuit =>
    rw [hp] at hs
    exact h.sends hp hs

theorem Reading.joint (h : Reading delay rpm r v sim) (hcodec : plat.codec.FollowsDbc)
    (hrpm : 1 ≤ rpm ∧ rpm ≤ 254) (hstep : 0 ≤ saeStep delay rpm) :
    Joint delay rpm ⟨((seatctrlControlLoop plat .ctl).exec v).2,
      feed sim (sentSince v ((seatctrlControlLoop plat .ctl).exec v).2)⟩ := by
  obtain ⟨sends, hcarry, hsends, heq⟩ := h.carry plat
  have hctx : ((seatctrlControlLoop plat .ctl).exec v).2.ctx = { v.ctx with
      command := commandAfter v.ctx (pursuitOf v.statics v.ctx (lookTime plat v)) } := by
    rw [controlLoop_ctx, pursue_eq, commandAfter]
    split <;> rfl
  have hopen : Open ((seatctrlControlLoop plat .ctl).exec v).2 := by
    refine h.isOpen.withCommand hctx ?_
    unfold commandAfter
    split
    · exact .inl rfl
    · exact h.isOpen.command
  refine h.engine.joint hcodec hrpm h.inRange hcarry hsends hopen ?_ ?_ ?_ ?_
  · rw [hctx]
    exact h.running
  · rw [hctx]
    exact h.motorRpm
  · rw [hctx]
    exact h.position
  · intro m hm hstatus
    rw [hctx]
    rw [heq] at hstatus
    exact h.course hstep m hm hstatus

theorem Reading.overshoot (h : Reading delay rpm r v sim) (hr : reachedTarget v.ctx = true) :
    0 < saeStep delay rpm ∧ ((v.ctx.motor1Pos : Int) - v.ctx.command.position).natAbs ≤
      ceilPercent (saeStep delay rpm) - 1 := by
  have hceil : 0 < ceilPercent (saeStep delay rpm) → 0 < saeStep delay rpm := by
    unfold ceilPercent posShiftVal
    omega
  have hpos := h.position
  simp only [reachedTarget, Bool.and_eq_true, Bool.or_eq_true, beq_iff_eq, decide_eq_true_eq] at hr
  rcases hr.2 with ⟨hd, hge⟩ | ⟨hd, hle⟩
  · have hlt := (h.near.inc hd).2
    exact ⟨hceil (by omega), by omega⟩
  · have hlt := (h.near.dec hd).2
    exact ⟨hceil (by omega), by omega⟩

theorem Reading.bounded (h : Reading delay rpm r v sim) (hcodec : plat.codec.FollowsDbc)
    (hrpm : 1 ≤ rpm ∧ rpm ≤ 254) :
    Bounded r ⟨((seatctrlControlLoop plat .ctl).exec v).2,
      feed sim (sentSince v ((seatctrlControlLoop plat .ctl).exec v).2)⟩ := by
  obtain ⟨sends, hcarry, hsends, heq⟩ := h.carry plat
  obtain ⟨he, hp, hstatus⟩ := h.engine.fed hcodec hrpm h.inRange hcarry hsends
  have hctx : ((seatctrlControlLoop plat .ctl).exec v).2.ctx.motor1Pos = v.ctx.motor1Pos ∧
      ((seatctrlControlLoop plat .ctl).exec v).2.ctx.config = v.ctx.config := by
    rw [controlLoop_ctx]
    split <;> exact ⟨rfl, rfl⟩
  refine ⟨?_, ?_⟩
  · simp only [hctx.1, hp]
    exact h.position
  · intro c pos hended
    have hnew : newEntries r.world = newEntries v := by
      funext w'
      rw [newEntries, newEntries, h.log]
    rw [hnew] at hended
    obtain ⟨rfl, pursuit, hpursuit, hend⟩ := controlLoop_ended plat v hended
    have hr : reachedTarget v.ctx = true := by
      cases hr : reachedTarget v.ctx with
      | true => rfl
      | false =>
        simp only [endingOf, hr, Bool.false_eq_true, if_false] at hend
        split at hend <;> cases hend
    obtain ⟨hstep, hbound⟩ := h.overshoot hr
    have hoff : sends.getLast?.map Prod.fst = some .off := by
      rw [heq, hpursuit, Option.map_some, Option.getD_some, pursuitSends, hend]
      simp
    rw [hoff] at hstatus
    simp only [hctx.1, hctx.2, he.simDelay, h.motorRpm]
    refine ⟨hstatus, hstep, hbound, ?_⟩
    intro hsmall
    have hone : ceilPercent (saeStep delay rpm) ≤ 1 := by
      unfold ceilPercent posShiftVal at *
      omega
    omega

theorem Joint.step (h : Joint delay rpm r) (hcodec : plat.codec.FollowsDbc)
    (hrpm : 1 ≤ rpm ∧ rpm ≤ 254) (hdelay : 0 ≤ delay ∧ delay ≤ 20000) (input : RigInput) :
    Joint delay rpm (r.step plat input) ∧ (input = .iteration → Bounded r (r.step plat input)) := by
  have hstep := (saeStep_range hdelay.1 hdelay.2 rpm).1
  have hcodec' : plat.simulated.codec.FollowsDbc := hcodec
  cases input with
  | setPosition n desired => exact ⟨h.setPosition hcodec hrpm hstep n desired, nofun⟩
  | iteration =>
    obtain ⟨v, sim, hread, heq⟩ := h.iteration hcodec hdelay.1 hdelay.2
    rw [heq]
    exact ⟨hread.joint hcodec' hrpm hstep, fun _ => hread.bounded hcodec' hrpm⟩

/-- The initial position: 0 to 100 percent, or invalid. -/
def Placed (ctx : SaeContext) : Prop :=
  ctx.motor1.pos = saePosInvalid ∨
    ∃ percent, 0 ≤ percent ∧ percent ≤ 100 ∧ ctx.motor1.pos = saePosRaw percent

theorem threadStart_calm (w : World) : Calm w (threadStart.exec w).2 := ⟨rfl, rfl, rfl, rfl, rfl, rfl⟩

theorem joint_start (s : Session) (getenv : String → Option String) (hpos : Placed (saeInit getenv)) :
    Joint (saeInit getenv).simDelay (seatctrlDefaultConfig s.getenv).2.motorRpm
      (Rig.start s getenv) := by
  have hengine : Engine (saeInit getenv).simDelay (seatctrlDefaultConfig s.getenv).2.motorRpm
      (Rig.start s getenv).sim := by
    refine ⟨?_, rfl, rfl, ?_, .inl rfl⟩
    · simp only [Rig.start, saeStart]
      omega
    · rcases hpos with hinvalid | ⟨percent, h0, h100, hraw⟩
      · exact .inl ⟨hinvalid, rfl⟩
      · refine .inr ?_
        change InRange (saeInit getenv).motor1.pos
        rw [hraw]
        unfold InRange saePosPercent saePosRaw posShiftVal
        omega
  have hworld : (Rig.start s getenv).world = s.listening := rfl
  have hopen : Open s.listening := s.opened_open.calm (threadStart_calm s.opened)
  refine ⟨hopen, rfl, ?_, hengine, .inl ?_, ?_⟩
  · rw [hworld, Session.listening, s.opened_eq, s.context_eq]
    rfl
  · rw [hworld, Session.listening, s.opened_eq, s.context_eq]
    exact ⟨rfl, rfl⟩
  · have hidle : (Rig.start s getenv).world.ctx.command = .idle := by
      rw [hworld, Session.listening, s.opened_eq, s.context_eq]
      rfl
    rw [hidle]
    exact onCourse_idle

end

/-- For every delay up to 20 seconds, every speed that a configuration can
have and every initial position, in every run of requests and iterations. -/
theorem overshoot_bounded (plat : Platform) (hcodec : plat.codec.FollowsDbc) (s : Session)
    (getenv : String → Option String)
    (hdelay : 0 ≤ (saeInit getenv).simDelay ∧ (saeInit getenv).simDelay ≤ 20000)
    (hpos : Placed (saeInit getenv)) (inputs : List RigInput) :
    Along (rigStep plat) (fun r input => input = .iteration → Bounded r (r.step plat input))
      (Rig.start s getenv) inputs := by
  have hrpm := seatctrlDefaultConfig_motorRpm s.getenv
  refine along_of_keeps ?_ (fun r input h => (Joint.step h hcodec hrpm hdelay input).2)
    (joint_start s getenv hpos)
  intro r input r' h hstep
  obtain rfl := Option.some.inj hstep
  exact (h.step hcodec hrpm hdelay input).1

/-- The engine starts at 40 percent and moves by more than eight percent at a
time. -/
def benchEnv : String → Option String
  | "SAE_POS" => some "40"
  | "SAE_DELAY" => some "1000"
  | _ => none

theorem overshoot_bounded_bench :
    seatEcuDbc.FollowsDbc ∧ (saeInit benchEnv).simDelay = 1000 ∧ Placed (saeInit benchEnv) ∧
      Along (rigStep (.ticking 100 fun _ => none)) (fun r input => input = .iteration →
          Bounded r (r.step (.ticking 100 fun _ => none) input)) (.start .bench benchEnv)
        [.iteration, .setPosition 1 50, .iteration, .iteration] ∧
      (run (rigStep (.ticking 100 fun _ => none)) (.start .bench benchEnv)
          [.iteration, .setPosition 1 50, .iteration, .iteration]).map
        (fun r => (r.world.ctx.command, r.world.ctx.motor1Pos, r.sim.motor1.status)) =
          some (.idle, 56, .off) := by
  have hpos : Placed (saeInit benchEnv) := .inr ⟨40, by decide, by decide, by decide +kernel⟩
  refine ⟨seatEcuDbc_followsDbc, by decide +kernel, hpos, ?_, by decide +kernel⟩
  exact overshoot_bounded _ seatEcuDbc_followsDbc _ _ (by decide) hpos _

end KuksaServices.Seat
