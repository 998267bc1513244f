import KuksaServices.Seat.Iterations

/-!
# The seat adjuster engine

`seatadjuster_engine.c`, the simulated ECU behind the mocked CAN socket of the
integration tests. Positions are fixed-point numbers with ten fractional bits.
The engine moves its motor by one step whenever a frame is read, and takes
commands as they are written. Debug dumps, and the two fields that only they
read, are left out.

`Engine` is what holds between two calls: the position is in range and the
motor moves by one step, up or down. What a read and a write do to it is said
in `Engine.read` and `Engine.write_*`.
-/

namespace KuksaServices.Seat

def einval : Nat := 22

def sizeofCanFrame : Int := 16

def saePosInvalid : Int := -1

def posShiftVal : Int := 1024

def saePosRaw (percent : Int) : Int := percent * posShiftVal

/-- The shift rounds down. -/
def saePosPercent (raw : Int) : Int := raw / posShiftVal

structure SaeMotor where
  pos : Int
  rpm : Int
  lrn : Int
  status : MotorDirection
  deriving DecidableEq, Repr

/-- `sae_context_t`, and the global flag `_sae_all_motors`. -/
structure SaeContext where
  simFd : Int
  simActive : Bool
  simDelay : Int
  motor1 : SaeMotor
  motor2 : SaeMotor
  motor3 : SaeMotor
  motor4 : SaeMotor
  thresholdEnabled : Bool
  motor1ThresholdHiStop : Bool
  motor1ThresholdLoStop : Bool
  motor1Inc : Int
  allMotors : Bool
  deriving DecidableEq, Repr

-- ---------------------------------------------------------------------------
-- Starting
-- ---------------------------------------------------------------------------

def SaeMotor.initial : SaeMotor := ⟨saePosInvalid, 0, LearningState.learned.code, .off⟩

def saeInit (getenv : String → Option String) : SaeContext where
  simFd := -1
  simActive := false
  simDelay := ((getenv "SAE_DELAY").map atoi).getD 10
  motor1 := { SaeMotor.initial with
    pos := ((getenv "SAE_POS").map fun value =>
      let pos := atoi value
      if pos = -1 ∨ pos = 255 then saePosInvalid else saePosRaw pos).getD saePosInvalid
    lrn := ((getenv "SAE_LRN").map atoi).getD LearningState.learned.code }
  motor2 := .initial
  motor3 := .initial
  motor4 := .initial
  thresholdEnabled := ((getenv "SAE_STOP").map (atoi · != 0)).getD true
  motor1ThresholdHiStop := false
  motor1ThresholdLoStop := false
  motor1Inc := 0
  allMotors := ((getenv "SAE_ALL").map (atoi · != 0)).getD false

def saeStart (ctx : SaeContext) (fd : Int) : SaeContext := { ctx with simFd := fd, simActive := true }

-- ---------------------------------------------------------------------------
-- Steps
-- ---------------------------------------------------------------------------

def saeEstimateMoveTime (rpm : Int) : Int :=
  if rpm < 30 then 0
  else if rpm > 130 then 1000
  else 8000 + 200 * (100 - rpm)

/-- The result of `sae_pos_increment` for a delay and a speed; the product is
an `int`. -/
def saeStep (delay rpm : Int) : Int :=
  let moveTime := saeEstimateMoveTime rpm
  if moveTime = 0 then 0
  else (toInt32 (posShiftVal * 100 * (delay + 10))).tdiv moveTime

def saePosIncrement (ctx : SaeContext) : Int :=
  if ctx.simFd = -1 then 0
  else if !ctx.simActive then 0
  else saeStep ctx.simDelay ctx.motor1.rpm

-- ---------------------------------------------------------------------------
-- Reading
-- ---------------------------------------------------------------------------

def leaveInvalid (ctx : SaeContext) : SaeContext :=
  if ctx.motor1.pos = saePosInvalid then { ctx with motor1.pos := saePosRaw 42 } else ctx

def resetThresholdStops (ctx : SaeContext) : SaeContext :=
  if ctx.thresholdEnabled then
    let percent := saePosPercent ctx.motor1.pos
    { ctx with
      motor1ThresholdLoStop := if ctx.motor1ThresholdLoStop && percent > 14 then false
        else ctx.motor1ThresholdLoStop
      motor1ThresholdHiStop := if ctx.motor1ThresholdHiStop && percent < 85 then false
        else ctx.motor1ThresholdHiStop }
  else ctx

def stepTo (nextPos : Int) (inRange : Bool) (ctx : SaeContext) : SaeContext :=
  if inRange then { ctx with motor1.pos := nextPos } else { ctx with motor1.status := .off }

/-- A motor that moves stops once at 85 percent on its way up and once at 14
percent on its way down. -/
def moveMotor1 (ctx : SaeContext) : SaeContext :=
  let nextPos := toInt32 (ctx.motor1.pos + ctx.motor1Inc)
  match ctx.motor1.status with
  | .inc =>
    let ctx := stepTo nextPos (saePosPercent nextPos ≤ 100) ctx
    if ctx.thresholdEnabled && saePosPercent ctx.motor1.pos ≥ 85 && !ctx.motor1ThresholdHiStop then
      { ctx with motor1.status := .off, motor1ThresholdHiStop := true }
    else ctx
  | .dec =>
    let ctx := stepTo nextPos (saePosPercent nextPos ≥ 0) ctx
    if ctx.thresholdEnabled && saePosPercent ctx.motor1.pos ≤ 14 && !ctx.motor1ThresholdLoStop then
      { ctx with motor1.status := .off, motor1ThresholdLoStop := true }
    else ctx
  | .off | .inv => ctx

/-- The two bits of a motor's status and the two of its learning state. They
do not overlap, so that the `|` of the source is a sum. -/
def SaeMotor.bits (m : SaeMotor) : Nat := m.status.code % 4 + (m.lrn % 4).toNat * 4

def SaeMotor.posByte (m : SaeMotor) : UInt8 := (toUint8 (saePosPercent m.pos)).toUInt8

def secu1StatFrame (ctx : SaeContext) : CanFrame :=
  let others (m : SaeMotor) : UInt8 := if ctx.allMotors then ctx.motor1.posByte else m.posByte
  ⟨0x712, 8, #v[
    (ctx.motor1.bits + ctx.motor2.bits * 16).toUInt8, (ctx.motor3.bits + ctx.motor4.bits * 16).toUInt8,
    ctx.motor1.posByte, others ctx.motor2, others ctx.motor3, others ctx.motor4, 0, 0]⟩

def saeReadCb (ctx : SaeContext) : ReadResult × SaeContext :=
  if ctx.simFd = -1 then (.error einval, ctx)
  else if !ctx.simActive then (.error eagain, ctx)
  else
    let ctx := moveMotor1 (resetThresholdStops (leaveInvalid ctx))
    (.frame (secu1StatFrame ctx), ctx)

-- ---------------------------------------------------------------------------
-- Writing
-- ---------------------------------------------------------------------------

/-- A SECU1_CMD_1 for motor 1, once the speeds are stored. -/
def commandMotor1 (dir : UInt8) (ctx : SaeContext) : SaeContext :=
  let motorInc := saePosIncrement ctx
  if dir.toNat = MotorDirection.off.code then
    { ctx with motor1.status := .off, motor1.rpm := 0, motor1Inc := 0 }
  else if dir.toNat = MotorDirection.inc.code ∧ ctx.motor1.rpm > 0 then
    { ctx with motor1.status := .inc, motor1Inc := motorInc }
  else if dir.toNat = MotorDirection.dec.code ∧ ctx.motor1.rpm > 0 then
    { ctx with motor1.status := .dec, motor1Inc := -motorInc }
  else ctx

def saeWriteCb (ctx : SaeContext) (frame : CanFrame) : Int × SaeContext :=
  if ctx.simFd = -1 then (-1, ctx)
  else if frame.canId = 0x705 then
    (sizeofCanFrame, commandMotor1 (frame.data.get 0 &&& 3) { ctx with
      motor1.rpm := (frame.data.get 1).toNat
      motor2.rpm := (frame.data.get 2).toNat
      motor3.rpm := (frame.data.get 3).toNat
      motor4.rpm := (frame.data.get 4).toNat })
  else (sizeofCanFrame, ctx)

-- ---------------------------------------------------------------------------
-- Steps in range
-- ---------------------------------------------------------------------------

theorem toInt32_of_range (h0 : -2147483648 ≤ n) (h1 : n < 2147483648) : toInt32 n = n := by
  have hsize : ((2 ^ 32 : Nat) : Int) = 4294967296 := rfl
  unfold toInt32
  refine Int.bmod_eq_of_le_mul_two ?_ ?_
  · omega
  · omega

/-- With a delay of up to 20 seconds the product fits an `int`. -/
theorem saeStep_range (h0 : 0 ≤ delay) (h1 : delay ≤ 20000) (rpm : Int) :
    0 ≤ saeStep delay rpm ∧ saeStep delay rpm ≤ 2049024000 := by
  have hproduct : toInt32 (posShiftVal * 100 * (delay + 10)) = 102400 * (delay + 10) := by
    refine toInt32_of_range ?_ ?_ <;> unfold posShiftVal <;> omega
  have htime : 0 ≤ saeEstimateMoveTime rpm := by
    unfold saeEstimateMoveTime
    split_ifs <;> omega
  unfold saeStep
  dsimp only
  split
  · omega
  · rw [hproduct]
    constructor
    · exact Int.tdiv_nonneg (by omega) htime
    · refine Int.le_trans (Int.tdiv_le_self _ (by omega)) ?_
      omega

-- ---------------------------------------------------------------------------
-- Between two calls
-- ---------------------------------------------------------------------------

def InRange (pos : Int) : Prop := 0 ≤ pos ∧ saePosPercent pos ≤ 100

/-- The engine runs, with this delay; a motor that moves does so by the step
of this speed. -/
structure Engine (delay rpm : Int) (ctx : SaeContext) : Prop where
  fd : ctx.simFd ≠ -1
  active : ctx.simActive = true
  simDelay : ctx.simDelay = delay
  pos : ctx.motor1.pos = saePosInvalid ∧ ctx.motor1.status = .off ∨ InRange ctx.motor1.pos
  drive : ctx.motor1.status = .off ∨
    ctx.motor1.status = .inc ∧ ctx.motor1Inc = saeStep delay rpm ∨
    ctx.motor1.status = .dec ∧ ctx.motor1Inc = -saeStep delay rpm

structure Moved (step : Int) (m m' : SaeMotor) : Prop where
  off : m.status = .off → m'.status = .off ∧ m'.pos = m.pos
  inc : m.status = .inc → (m'.status = .inc ∨ m'.status = .off) ∧
    (m'.pos = m.pos ∨ m'.pos = m.pos + step)
  dec : m.status = .dec → (m'.status = .dec ∨ m'.status = .off) ∧
    (m'.pos = m.pos ∨ m'.pos = m.pos - step)

theorem moveMotor1_still (h : ctx.motor1.status = .off) : moveMotor1 ctx = ctx := by
  simp [moveMotor1, h]

theorem stepTo_eq (nextPos : Int) (inRange : Bool) (ctx : SaeContext) : ∃ status pos,
    stepTo nextPos inRange ctx = { ctx with motor1.status := status, motor1.pos := pos } ∧
      (status = ctx.motor1.status ∨ status = .off) ∧
      (pos = ctx.motor1.pos ∨ pos = nextPos ∧ inRange = true) := by
  unfold stepTo
  split
  · exact ⟨ctx.motor1.status, nextPos, rfl, .inl rfl, .inr ⟨rfl, ‹_›⟩⟩
  · exact ⟨.off, ctx.motor1.pos, rfl, .inr rfl, .inl rfl⟩

theorem moveMotor1_inc (h : ctx.motor1.status = .inc) :
    ∃ status pos hi, moveMotor1 ctx = { ctx with
        motor1.status := status, motor1.pos := pos, motor1ThresholdHiStop := hi } ∧
      (status = .inc ∨ status = .off) ∧ (pos = ctx.motor1.pos ∨
        pos = toInt32 (ctx.motor1.pos + ctx.motor1Inc) ∧ saePosPercent pos ≤ 100) := by
  simp only [moveMotor1, h]
  generalize toInt32 (ctx.motor1.pos + ctx.motor1Inc) = nextPos
  obtain ⟨status, pos, heq, hstatus, hpos⟩ := stepTo_eq nextPos (saePosPercent nextPos ≤ 100) ctx
  have hpos' : pos = ctx.motor1.pos ∨ pos = nextPos ∧ saePosPercent pos ≤ 100 := by
    refine hpos.imp_right ?_
    rintro ⟨rfl, hle⟩
    exact ⟨rfl, of_decide_eq_true hle⟩
  rw [heq]
  split
  · exact ⟨.off, pos, true, rfl, .inr rfl, hpos'⟩
  · exact ⟨status, pos, _, rfl, h ▸ hstatus, hpos'⟩

theorem moveMotor1_dec (h : ctx.motor1.status = .dec) :
    ∃ status pos lo, moveMotor1 ctx = { ctx with
        motor1.status := status, motor1.pos := pos, motor1ThresholdLoStop := lo } ∧
      (status = .dec ∨ status = .off) ∧ (pos = ctx.motor1.pos ∨
        pos = toInt32 (ctx.motor1.pos + ctx.motor1Inc) ∧ saePosPercent pos ≥ 0) := by
  simp only [moveMotor1, h]
  generalize toInt32 (ctx.motor1.pos + ctx.motor1Inc) = nextPos
  obtain ⟨status, pos, heq, hstatus, hpos⟩ := stepTo_eq nextPos (saePosPercent nextPos ≥ 0) ctx
  have hpos' : pos = ctx.motor1.pos ∨ pos = nextPos ∧ saePosPercent pos ≥ 0 := by
    refine hpos.imp_right ?_
    rintro ⟨rfl, hge⟩
    exact ⟨rfl, of_decide_eq_true hge⟩
  rw [heq]
  split
  · exact ⟨.off, pos, true, rfl, .inr rfl, hpos'⟩
  · exact ⟨status, pos, _, rfl, h ▸ hstatus, hpos'⟩

theorem moveMotor1_up (h : ctx.motor1.status = .inc) (hrange : InRange ctx.motor1.pos)
    (h0 : 0 ≤ ctx.motor1Inc) (h1 : ctx.motor1Inc ≤ 2049024000) :
    ∃ status pos hi, moveMotor1 ctx = { ctx with
        motor1.status := status, motor1.pos := pos, motor1ThresholdHiStop := hi } ∧
      (status = .inc ∨ status = .off) ∧
      (pos = ctx.motor1.pos ∨ pos = ctx.motor1.pos + ctx.motor1Inc) ∧ InRange pos := by
  have hr := hrange
  simp only [InRange, saePosPercent, posShiftVal] at hr
  have hnext : toInt32 (ctx.motor1.pos + ctx.motor1Inc) = ctx.motor1.pos + ctx.motor1Inc :=
    toInt32_of_range (by omega) (by omega)
  obtain ⟨status, pos, hi, heq, hstatus, hpos⟩ := moveMotor1_inc h
  rw [hnext] at hpos
  refine ⟨status, pos, hi, heq, hstatus, hpos.imp_right And.left, ?_⟩
  rcases hpos with rfl | ⟨rfl, hle⟩
  · exact hrange
  · exact ⟨by omega, hle⟩

theorem moveMotor1_down (h : ctx.motor1.status = .dec) (hrange : InRange ctx.motor1.pos)
    (h0 : ctx.motor1Inc ≤ 0) (h1 : -2049024000 ≤ ctx.motor1Inc) :
    ∃ status pos lo, moveMotor1 ctx = { ctx with
        motor1.status := status, motor1.pos := pos, motor1ThresholdLoStop := lo } ∧
      (status = .dec ∨ status = .off) ∧
      (pos = ctx.motor1.pos ∨ pos = ctx.motor1.pos + ctx.motor1Inc) ∧ InRange pos := by
  have hr := hrange
  simp only [InRange, saePosPercent, posShiftVal] at hr
  have hnext : toInt32 (ctx.motor1.pos + ctx.motor1Inc) = ctx.motor1.pos + ctx.motor1Inc :=
    toInt32_of_range (by omega) (by omega)
  obtain ⟨status, pos, lo, heq, hstatus, hpos⟩ := moveMotor1_dec h
  rw [hnext] at hpos
  refine ⟨status, pos, lo, heq, hstatus, hpos.imp_right And.left, ?_⟩
  rcases hpos with rfl | ⟨rfl, hge⟩
  · exact hrange
  · simp only [InRange, saePosPercent, posShiftVal] at hge ⊢
    omega

section
variable {delay rpm : Int} {ctx : SaeContext}

theorem saeReadCb_eq (h : Engine delay rpm ctx) :
    saeReadCb ctx = (.frame (secu1StatFrame (saeReadCb ctx).2), (saeReadCb ctx).2) := by
  simp [saeReadCb, h.fd, h.active]

theorem leaveInvalid_engine (h : Engine delay rpm ctx) :
    Engine delay rpm (leaveInvalid ctx) ∧ InRange (leaveInvalid ctx).motor1.pos ∧
      (leaveInvalid ctx).motor1.status = ctx.motor1.status := by
  unfold leaveInvalid
  split
  · have hrange : InRange (saePosRaw 42) := by
      unfold InRange saePosRaw saePosPercent posShiftVal
      omega
    exact ⟨⟨h.fd, h.active, h.simDelay, .inr hrange, h.drive⟩, hrange, rfl⟩
  · rename_i hpos
    exact ⟨h, h.pos.resolve_left fun hi => hpos hi.1, rfl⟩

theorem resetThresholdStops_engine (h : Engine delay rpm ctx) :
    Engine delay rpm (resetThresholdStops ctx) ∧ (resetThresholdStops ctx).motor1 = ctx.motor1 := by
  unfold resetThresholdStops
  split
  · exact ⟨⟨h.fd, h.active, h.simDelay, h.pos, h.drive⟩, rfl⟩
  · exact ⟨h, rfl⟩

theorem Engine.move (h : Engine delay rpm ctx) (hrange : InRange ctx.motor1.pos) (h0 : 0 ≤ delay)
    (h1 : delay ≤ 20000) :
    Engine delay rpm (moveMotor1 ctx) ∧ InRange (moveMotor1 ctx).motor1.pos ∧
      Moved (saeStep delay rpm) ctx.motor1 (moveMotor1 ctx).motor1 := by
  have hstep := saeStep_range h0 h1 rpm
  rcases h.drive with hs | ⟨hs, hinc⟩ | ⟨hs, hinc⟩
  · rw [moveMotor1_still hs]
    refine ⟨h, hrange, fun _ => ⟨hs, rfl⟩, ?_, ?_⟩
    · exact fun hs' => by simp [hs] at hs'
    · exact fun hs' => by simp [hs] at hs'
  · obtain ⟨status, pos, hi, heq, hstatus, hpos, hrange'⟩ :=
      moveMotor1_up hs hrange (by omega) (by omega)
    rw [heq]
    refine ⟨⟨h.fd, h.active, h.simDelay, .inr hrange', ?_⟩, hrange', ?_, ?_, ?_⟩
    · rcases hstatus with rfl | rfl
      · exact .inr (.inl ⟨rfl, hinc⟩)
      · exact .inl rfl
    · exact fun hs' => by simp [hs] at hs'
    · rw [← hinc]
      exact fun _ => ⟨hstatus, hpos⟩
    · exact fun hs' => by simp [hs] at hs'
  · obtain ⟨status, pos, lo, heq, hstatus, hpos, hrange'⟩ :=
      moveMotor1_down hs hrange (by omega) (by omega)
    rw [heq]
    refine ⟨⟨h.fd, h.active, h.simDelay, .inr hrange', ?_⟩, hrange', ?_, ?_, ?_⟩
    · rcases hstatus with rfl | rfl
      · exact .inr (.inr ⟨rfl, hinc⟩)
      · exact .inl rfl
    · exact fun hs' => by simp [hs] at hs'
    · exact fun hs' => by simp [hs] at hs'
    · rw [hinc] at hpos
      exact fun _ => ⟨hstatus, hpos⟩

theorem Engine.read (h : Engine delay rpm ctx) (h0 : 0 ≤ delay) (h1 : delay ≤ 20000) :
    Engine delay rpm (saeReadCb ctx).2 ∧ InRange (saeReadCb ctx).2.motor1.pos ∧
      Moved (saeStep delay rpm) (leaveInvalid ctx).motor1 (saeReadCb ctx).2.motor1 := by
  obtain ⟨hleft, hrange, -⟩ := leaveInvalid_engine h
  obtain ⟨hreset, hmotor⟩ := resetThresholdStops_engine hleft
  have hread : (saeReadCb ctx).2 = moveMotor1 (resetThresholdStops (leaveInvalid ctx)) := by
    simp [saeReadCb, h.fd, h.active]
  rw [hread, ← hmotor]
  exact hreset.move (hmotor ▸ hrange) h0 h1

theorem Engine.write_ok (h : Engine delay rpm ctx) (frame : CanFrame) :
    (saeWriteCb ctx frame).1 = sizeofCanFrame := by
  unfold saeWriteCb
  rw [if_neg h.fd]
  split <;> rfl

-- ---------------------------------------------------------------------------
-- Frames of the controller and of the engine
-- ---------------------------------------------------------------------------

/-- The codec reads and writes the signals of motor 1 where `seat_ecu.dbc`
has them. -/
structure CanCodec.FollowsDbc (codec : CanCodec) : Prop where
  unpack : ∀ data, ∃ stat, codec.secu1StatUnpack data 8 = some stat ∧ stat.motor1Pos = data.get 2 ∧
    stat.motor1MovState = data.get 0 &&& 3 ∧ stat.motor1LearningState = data.get 0 >>> 2 &&& 3
  posInRange : ∀ v, codec.motor1PosIsInRange v = true
  movStateInRange : ∀ v, v ≤ 3 → codec.motor1MovStateIsInRange v = true
  learningStateInRange : ∀ v, v ≤ 3 → codec.motor1LearningStateIsInRange v = true
  pack : ∀ cmd, ∃ data, codec.secu1Cmd1Pack cmd sizeofSecu1Cmd1 = some data ∧
    (data.get 0 &&& 3).toNat = cmd.motor1ManualCmd % 4 ∧ (data.get 1).toNat = cmd.motor1SetRpm % 256

theorem and_three_toNat (v : UInt8) : (v &&& 3).toNat = v.toNat % 4 :=
  Nat.and_two_pow_sub_one_eq_mod v.toNat 2

theorem and_three_le (v : UInt8) : v &&& 3 ≤ 3 := by
  rw [UInt8.le_iff_toNat_le, and_three_toNat]
  have hlt := Nat.mod_lt v.toNat (show 4 > 0 by decide)
  exact Nat.le_of_lt_succ hlt

theorem seatEcuDbc_followsDbc : seatEcuDbc.FollowsDbc where
  unpack data := ⟨_, rfl, rfl, rfl, rfl⟩
  posInRange _ := rfl
  movStateInRange v h := by simpa [seatEcuDbc] using h
  learningStateInRange v h := by simpa [seatEcuDbc] using h
  pack cmd := by
    refine ⟨_, rfl, ?_, rfl⟩
    rw [and_three_toNat]
    change (cmd.motor1ManualCmd % 4 + cmd.motor2ManualCmd % 4 * 4 + cmd.motor3ManualCmd % 4 * 16 +
      cmd.motor4ManualCmd % 4 * 64) % 256 % 4 = cmd.motor1ManualCmd % 4
    omega

variable {plat : Platform}

/-- The controller accepts what the engine sends, and reads it right. -/
theorem secu1StatFrame_accepted (hcodec : plat.codec.FollowsDbc) (hpos : InRange ctx.motor1.pos) :
    ∃ stat, acceptedStat plat (secu1StatFrame ctx) = some stat ∧
      (stat.motor1Pos.toNat : Int) = saePosPercent ctx.motor1.pos ∧
      stat.motor1MovState.toNat = ctx.motor1.status.code := by
  obtain ⟨stat, hunpack, hp, hm, hl⟩ := hcodec.unpack (secu1StatFrame ctx).data
  have hpos' : (stat.motor1Pos.toNat : Int) = saePosPercent ctx.motor1.pos := by
    rw [hp]
    change ((toUint8 (saePosPercent ctx.motor1.pos) % 256 : Nat) : Int) = _
    simp only [InRange, saePosPercent, posShiftVal, toUint8] at hpos ⊢
    omega
  refine ⟨stat, ?_, hpos', ?_⟩
  · have hle : stat.motor1Pos.toNat ≤ 100 := by
      have hpercent := hpos.2
      omega
    have hmov := hcodec.movStateInRange stat.motor1MovState (hm ▸ and_three_le _)
    have hlrn := hcodec.learningStateInRange stat.motor1LearningState (hl ▸ and_three_le _)
    have hid : (secu1StatFrame ctx).canId = secu1StatFrameId := rfl
    have hdlc : (secu1StatFrame ctx).canDlc = 8 := rfl
    simp only [acceptedStat, hid, ne_eq, not_true_eq_false, if_false, hdlc, hunpack]
    simp [Option.filter_some, hcodec.posInRange, hle, hmov, hlrn]
  · rw [hm, and_three_toNat]
    change (ctx.motor1.bits + ctx.motor2.bits * 16) % 256 % 4 = _
    unfold SaeMotor.bits
    cases ctx.motor1.status <;> simp only [MotorDirection.code] <;> omega

/-- The engine understands a command of the controller. -/
theorem saeWriteCb_cmdFrame (hcodec : plat.codec.FollowsDbc) (hfd : ctx.simFd ≠ -1)
    (dir : MotorDirection) (speed : Int) : ∃ code : UInt8, code.toNat = dir.code ∧
      ∃ rpm2 rpm3 rpm4, (saeWriteCb ctx (cmdFrame plat dir speed)).2 = commandMotor1 code { ctx with
        motor1.rpm := toUint8 speed, motor2.rpm := rpm2, motor3.rpm := rpm3, motor4.rpm := rpm4 } := by
  obtain ⟨data, hpack, hdir, hspeed⟩ := hcodec.pack (motor1Cmd dir speed)
  have hdata : (cmdFrame plat dir speed).data = data := by
    simp [cmdFrame, hpack]
  refine ⟨data.get 0 &&& 3, ?_, (data.get 2).toNat, (data.get 3).toNat, (data.get 4).toNat, ?_⟩
  · rw [hdir]
    cases dir <;> rfl
  · have hrpm : (data.get 1).toNat = toUint8 speed := by
      rw [hspeed]
      simp only [motor1Cmd, toUint8]
      omega
    have hid : (cmdFrame plat dir speed).canId = 0x705 := rfl
    simp only [saeWriteCb, hfd, hid, if_true, if_false, hdata, hrpm]

theorem Engine.write_off (h : Engine delay rpm ctx) (hcodec : plat.codec.FollowsDbc) :
    Engine delay rpm (saeWriteCb ctx (cmdFrame plat .off 0)).2 ∧
      (saeWriteCb ctx (cmdFrame plat .off 0)).2.motor1.pos = ctx.motor1.pos ∧
      (saeWriteCb ctx (cmdFrame plat .off 0)).2.motor1.status = .off := by
  obtain ⟨code, hcode, rpm2, rpm3, rpm4, heq⟩ := saeWriteCb_cmdFrame hcodec h.fd .off 0
  rw [heq, commandMotor1, if_pos hcode]
  exact ⟨⟨h.fd, h.active, h.simDelay, h.pos.imp_left fun hp => ⟨hp.1, rfl⟩, .inl rfl⟩, rfl, rfl⟩

theorem Engine.write_move (h : Engine delay rpm ctx) (hcodec : plat.codec.FollowsDbc)
    (hpos : InRange ctx.motor1.pos) (hrpm : 1 ≤ rpm ∧ rpm ≤ 254) (hdir : dir = .inc ∨ dir = .dec) :
    Engine delay rpm (saeWriteCb ctx (cmdFrame plat dir rpm)).2 ∧
      (saeWriteCb ctx (cmdFrame plat dir rpm)).2.motor1.pos = ctx.motor1.pos ∧
      (saeWriteCb ctx (cmdFrame plat dir rpm)).2.motor1.status = dir := by
  obtain ⟨code, hcode, rpm2, rpm3, rpm4, heq⟩ := saeWriteCb_cmdFrame hcodec h.fd dir rpm
  have hspeed : (toUint8 rpm : Int) = rpm := by
    simp only [toUint8]
    omega
  have hpositive : (toUint8 rpm : Int) > 0 := by omega
  have hstep : saePosIncrement { ctx with
      motor1.rpm := toUint8 rpm, motor2.rpm := rpm2, motor3.rpm := rpm3, motor4.rpm := rpm4 } =
        saeStep delay rpm := by
    simp [saePosIncrement, h.fd, h.active, h.simDelay, hspeed]
  rw [heq]
  unfold commandMotor1
  rcases hdir with rfl | rfl
  · rw [if_neg (by rw [hcode]; decide), if_pos ⟨hcode, hpositive⟩]
    exact ⟨⟨h.fd, h.active, h.simDelay, .inr hpos, .inr (.inl ⟨rfl, hstep⟩)⟩, rfl, rfl⟩
  · rw [if_neg (by rw [hcode]; decide), if_neg (by rw [hcode]; simp [MotorDirection.code]),
      if_pos ⟨hcode, hpositive⟩]
    exact ⟨⟨h.fd, h.active, h.simDelay, .inr hpos, .inr (.inr ⟨rfl, congrArg Neg.neg hstep⟩)⟩, rfl, rfl⟩

end

end KuksaServices.Seat
