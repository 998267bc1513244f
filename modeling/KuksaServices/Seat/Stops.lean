import KuksaServices.Atomic.Log
import KuksaServices.Atomic.Runs
import KuksaServices.Seat.Simulator

/-!
# The engine under any commands

What `seatadjuster_engine.c` keeps up whatever frames are written to it and
whenever it is read. The calls are made with checked arithmetic here: a call
whose `int`s overflow, or that divides by zero, has no result. The invariant
is `Held`: it links the sign of the step to the direction of the motor.

Main result: no run of calls gets stuck; once a frame was read the position
stays between 0 and 100 percent; it moves in the direction of the motor; and
the motor does not stop twice at a threshold without leaving it in between
(`engine_keeps_range`).
-/

namespace KuksaServices.Seat

open Atomic (run Separated Pending)

-- ---------------------------------------------------------------------------
-- Checked arithmetic
-- ---------------------------------------------------------------------------

/-- An `int`, unless it overflows. -/
def int32 (n : Int) : Option Int := if -2147483648 ≤ n ∧ n < 2147483648 then some n else none

def int32Div (a b : Int) : Option Int := if b = 0 then none else int32 (a.tdiv b)

theorem int32_of_range (h0 : -2147483648 ≤ n) (h1 : n < 2147483648) : int32 n = some n := if_pos ⟨h0, h1⟩

def checkedEstimateMoveTime (rpm : Int) : Option Int :=
  if rpm < 30 then some 0
  else if rpm > 130 then some 1000
  else do
    let slower ← int32 (100 - rpm)
    let extra ← int32 (200 * slower)
    int32 (8000 + extra)

def checkedPosIncrement (ctx : SaeContext) : Option Int :=
  if ctx.simFd = -1 then some 0
  else if !ctx.simActive then some 0
  else do
    let moveTime ← checkedEstimateMoveTime ctx.motor1.rpm
    if moveTime = 0 then some 0
    else do
      let percent ← int32 (posShiftVal * 100)
      let delay ← int32 (ctx.simDelay + 10)
      let product ← int32 (percent * delay)
      int32Div product moveTime

def checkedReadCb (ctx : SaeContext) : Option (ReadResult × SaeContext) :=
  if ctx.simFd = -1 ∨ !ctx.simActive then some (saeReadCb ctx)
  else (int32 ((leaveInvalid ctx).motor1.pos + ctx.motor1Inc)).map fun _ => saeReadCb ctx

def checkedWriteCb (ctx : SaeContext) (frame : CanFrame) : Option (Int × SaeContext) :=
  if ctx.simFd = -1 ∨ frame.canId ≠ 0x705 then some (saeWriteCb ctx frame)
  else do
    let motorInc ← checkedPosIncrement { ctx with motor1.rpm := (frame.byte 1).toNat }
    (int32 (-motorInc)).map fun _ => saeWriteCb ctx frame

-- ---------------------------------------------------------------------------
-- Calls
-- ---------------------------------------------------------------------------

inductive SaeCall where
  | read
  | write (frame : CanFrame)
  deriving DecidableEq, Repr

structure SaeEntry where
  report : Option CanFrame
  before : SaeContext
  after : SaeContext
  deriving DecidableEq, Repr

structure SaeTrace where
  ctx : SaeContext
  log : List SaeEntry
  deriving DecidableEq, Repr

def ReadResult.frame? : ReadResult → Option CanFrame
  | .frame f => some f
  | .error _ => none

def SaeTrace.record (t : SaeTrace) (report : Option CanFrame) (ctx : SaeContext) : SaeTrace :=
  ⟨ctx, t.log ++ [⟨report, t.ctx, ctx⟩]⟩

def SaeTrace.step (t : SaeTrace) : SaeCall → Option SaeTrace
  | .read => (checkedReadCb t.ctx).map fun r => t.record r.1.frame? r.2
  | .write frame => (checkedWriteCb t.ctx frame).map fun r => t.record none r.2

def SaeEntry.Reports (p : Nat → Prop) (e : SaeEntry) : Prop :=
  ∃ frame, e.report = some frame ∧ p (frame.byte 2).toNat

inductive Threshold where
  | hi
  | lo
  deriving DecidableEq, Repr

def Threshold.flag : Threshold → SaeContext → Bool
  | .hi, ctx => ctx.motor1ThresholdHiStop
  | .lo, ctx => ctx.motor1ThresholdLoStop

/-- The percentages where the motor stops. -/
def Threshold.Beyond : Threshold → Int → Prop
  | .hi, percent => percent ≥ 85
  | .lo, percent => percent ≤ 14

instance : (threshold : Threshold) → (percent : Int) → Decidable (threshold.Beyond percent)
  | .hi, percent => inferInstanceAs (Decidable (percent ≥ 85))
  | .lo, percent => inferInstanceAs (Decidable (percent ≤ 14))

/-- The read stops the motor at the threshold: this is where the flag is set. -/
def SaeEntry.StopsAt (threshold : Threshold) (e : SaeEntry) : Prop :=
  e.report.isSome ∧ threshold.flag (resetThresholdStops (leaveInvalid e.before)) = false ∧
    threshold.flag e.after = true

/-- The position that a call starts from: a read takes an invalid one to be 42
percent. -/
def SaeEntry.startPos (e : SaeEntry) : Int :=
  if e.report.isSome then (leaveInvalid e.before).motor1.pos else e.before.motor1.pos

structure SaeEntry.Directed (e : SaeEntry) : Prop where
  inc : e.before.motor1.status = .inc → e.startPos ≤ e.after.motor1.pos
  dec : e.before.motor1.status = .dec → e.after.motor1.pos ≤ e.startPos

-- ---------------------------------------------------------------------------
-- Between two calls
-- ---------------------------------------------------------------------------

structure Held (ctx : SaeContext) : Prop where
  simDelay : 0 ≤ ctx.simDelay ∧ ctx.simDelay ≤ 20000
  pos : ctx.motor1.pos = saePosInvalid ∨ InRange ctx.motor1.pos
  bound : -2049024000 ≤ ctx.motor1Inc ∧ ctx.motor1Inc ≤ 2049024000
  inc : ctx.motor1.status = .inc → 0 ≤ ctx.motor1Inc
  dec : ctx.motor1.status = .dec → ctx.motor1Inc ≤ 0

theorem inRange_iff : InRange pos ↔ 0 ≤ pos ∧ pos < 101 * 1024 := by
  unfold InRange saePosPercent posShiftVal
  omega

theorem checkedEstimateMoveTime_eq (rpm : Int) :
    checkedEstimateMoveTime rpm = some (saeEstimateMoveTime rpm) := by
  unfold checkedEstimateMoveTime saeEstimateMoveTime
  by_cases hlow : rpm < 30
  · simp [hlow]
  · by_cases hhigh : rpm > 130
    · simp [hlow, hhigh]
    · have hslower : int32 (100 - rpm) = some (100 - rpm) := int32_of_range (by omega) (by omega)
      have hextra : int32 (200 * (100 - rpm)) = some (200 * (100 - rpm)) :=
        int32_of_range (by omega) (by omega)
      have htime : int32 (8000 + 200 * (100 - rpm)) = some (8000 + 200 * (100 - rpm)) :=
        int32_of_range (by omega) (by omega)
      simp [hlow, hhigh, hslower, hextra, htime]

theorem saePosIncrement_range (h0 : 0 ≤ ctx.simDelay) (h1 : ctx.simDelay ≤ 20000) :
    0 ≤ saePosIncrement ctx ∧ saePosIncrement ctx ≤ 2049024000 := by
  have hstep := saeStep_range h0 h1 ctx.motor1.rpm
  unfold saePosIncrement
  split_ifs
  · omega
  · omega
  · exact hstep

theorem checkedPosIncrement_eq (h0 : 0 ≤ ctx.simDelay) (h1 : ctx.simDelay ≤ 20000) :
    checkedPosIncrement ctx = some (saePosIncrement ctx) := by
  have hrange := saeStep_range h0 h1 ctx.motor1.rpm
  have hproduct : posShiftVal * 100 * (ctx.simDelay + 10) = 102400 * (ctx.simDelay + 10) := rfl
  have hwrap : toInt32 (102400 * (ctx.simDelay + 10)) = 102400 * (ctx.simDelay + 10) :=
    toInt32_of_range (by omega) (by omega)
  unfold checkedPosIncrement saePosIncrement
  by_cases hfd : ctx.simFd = -1
  · simp [hfd]
  · by_cases hactive : ctx.simActive = true
    · simp only [hfd, hactive, if_false, Bool.not_true, Bool.false_eq_true, checkedEstimateMoveTime_eq,
        Option.bind_eq_bind, Option.bind_some]
      simp only [saeStep, hproduct, hwrap] at hrange ⊢
      by_cases hstop : saeEstimateMoveTime ctx.motor1.rpm = 0
      · simp [hstop]
      · simp only [hstop, if_false] at hrange ⊢
        have hpercent : int32 (posShiftVal * 100) = some 102400 := rfl
        have hdelay : int32 (ctx.simDelay + 10) = some (ctx.simDelay + 10) :=
          int32_of_range (by omega) (by omega)
        have hmul : int32 (102400 * (ctx.simDelay + 10)) = some (102400 * (ctx.simDelay + 10)) :=
          int32_of_range (by omega) (by omega)
        rw [hpercent, hdelay, Option.bind_some, Option.bind_some, hmul, Option.bind_some, int32Div,
          if_neg hstop]
        exact int32_of_range (by omega) (by omega)
    · simp [hfd, hactive]

theorem Held.move (h : Held ctx) (hrange : InRange ctx.motor1.pos) :
    Held (moveMotor1 ctx) ∧ InRange (moveMotor1 ctx).motor1.pos ∧
      (ctx.motor1.status = .inc → ctx.motor1.pos ≤ (moveMotor1 ctx).motor1.pos) ∧
      (ctx.motor1.status = .dec → (moveMotor1 ctx).motor1.pos ≤ ctx.motor1.pos) := by
  cases hs : ctx.motor1.status with
  | off =>
    rw [moveMotor1_still hs]
    refine ⟨h, hrange, ?_, ?_⟩ <;> rintro ⟨⟩
  | inv =>
    have hstill : moveMotor1 ctx = ctx := by simp [moveMotor1, hs]
    rw [hstill]
    refine ⟨h, hrange, ?_, ?_⟩ <;> rintro ⟨⟩
  | inc =>
    have hinc := h.inc hs
    obtain ⟨status, pos, hi, heq, hstatus, hmoved, hrange'⟩ := moveMotor1_up hs hrange hinc h.bound.2
    have hup : ctx.motor1.pos ≤ pos := by
      rcases hmoved with rfl | rfl <;> omega
    rw [heq]
    refine ⟨⟨h.simDelay, .inr hrange', h.bound, fun _ => hinc, ?_⟩, hrange', fun _ => hup, ?_⟩
    · rcases hstatus with rfl | rfl <;> rintro ⟨⟩
    · rintro ⟨⟩
  | dec =>
    have hdec := h.dec hs
    obtain ⟨status, pos, lo, heq, hstatus, hmoved, hrange'⟩ := moveMotor1_down hs hrange hdec h.bound.1
    have hdown : pos ≤ ctx.motor1.pos := by
      rcases hmoved with rfl | rfl <;> omega
    rw [heq]
    refine ⟨⟨h.simDelay, .inr hrange', h.bound, ?_, fun _ => hdec⟩, hrange', ?_, fun _ => hdown⟩
    · rcases hstatus with rfl | rfl <;> rintro ⟨⟩
    · rintro ⟨⟩

theorem Held.known (h : Held ctx) : Held (leaveInvalid ctx) ∧ InRange (leaveInvalid ctx).motor1.pos := by
  unfold leaveInvalid
  split
  · have hrange : InRange (saePosRaw 42) := by
      unfold InRange saePosRaw saePosPercent posShiftVal
      omega
    exact ⟨⟨h.simDelay, .inr hrange, h.bound, h.inc, h.dec⟩, hrange⟩
  · rename_i hpos
    exact ⟨h, h.pos.resolve_left hpos⟩

theorem leaveInvalid_status (ctx : SaeContext) :
    (leaveInvalid ctx).motor1.status = ctx.motor1.status := by
  unfold leaveInvalid
  split <;> rfl

theorem leaveInvalid_known (h : InRange ctx.motor1.pos) : leaveInvalid ctx = ctx := by
  refine if_neg ?_
  intro hinvalid
  have hpos := h.1
  rw [hinvalid] at hpos
  exact absurd hpos (by decide)

theorem resetThresholdStops_eq (ctx : SaeContext) : ∃ lo hi, resetThresholdStops ctx =
    { ctx with motor1ThresholdLoStop := lo, motor1ThresholdHiStop := hi } := by
  unfold resetThresholdStops
  split
  · exact ⟨_, _, rfl⟩
  · exact ⟨_, _, rfl⟩

theorem Held.reset (h : Held ctx) : Held (resetThresholdStops ctx) := by
  obtain ⟨lo, hi, heq⟩ := resetThresholdStops_eq ctx
  rw [heq]
  exact ⟨h.simDelay, h.pos, h.bound, h.inc, h.dec⟩

theorem saeReadCb_cases (ctx : SaeContext) :
    (∃ err, saeReadCb ctx = (.error err, ctx)) ∧ (ctx.simFd = -1 ∨ !ctx.simActive) ∨
      ¬(ctx.simFd = -1 ∨ !ctx.simActive) ∧
        saeReadCb ctx = (.frame (secu1StatFrame (moveMotor1 (resetThresholdStops (leaveInvalid ctx)))),
          moveMotor1 (resetThresholdStops (leaveInvalid ctx))) := by
  unfold saeReadCb
  by_cases hfd : ctx.simFd = -1
  · exact .inl ⟨⟨einval, by simp [hfd]⟩, .inl hfd⟩
  · by_cases hactive : ctx.simActive = true
    · exact .inr ⟨by simp [hfd, hactive], by simp [hfd, hactive]⟩
    · exact .inl ⟨⟨eagain, by simp [hfd, hactive]⟩, .inr (by simpa using hactive)⟩

theorem Held.read (h : Held ctx) :
    Held (moveMotor1 (resetThresholdStops (leaveInvalid ctx))) ∧
      InRange (moveMotor1 (resetThresholdStops (leaveInvalid ctx))).motor1.pos ∧
      (ctx.motor1.status = .inc → (leaveInvalid ctx).motor1.pos ≤
        (moveMotor1 (resetThresholdStops (leaveInvalid ctx))).motor1.pos) ∧
      (ctx.motor1.status = .dec → (moveMotor1 (resetThresholdStops (leaveInvalid ctx))).motor1.pos ≤
        (leaveInvalid ctx).motor1.pos) := by
  obtain ⟨hleft, hrange⟩ := h.known
  have hreset := hleft.reset
  have hstatus := leaveInvalid_status ctx
  obtain ⟨lo, hi, heq⟩ := resetThresholdStops_eq (leaveInvalid ctx)
  rw [heq] at hreset ⊢
  have hmove := hreset.move hrange
  rw [← hstatus]
  exact hmove

theorem Held.checkedReadCb_eq (h : Held ctx) : checkedReadCb ctx = some (saeReadCb ctx) := by
  have hpos := inRange_iff.mp h.known.2
  have hbound := h.bound
  have hnext : int32 ((leaveInvalid ctx).motor1.pos + ctx.motor1Inc) =
      some ((leaveInvalid ctx).motor1.pos + ctx.motor1Inc) := int32_of_range (by omega) (by omega)
  unfold checkedReadCb
  split
  · rfl
  · rw [hnext, Option.map_some]

-- ---------------------------------------------------------------------------
-- Commands
-- ---------------------------------------------------------------------------

theorem Held.command (h : Held ctx) (dir : UInt8) : Held (commandMotor1 dir ctx) ∧
    (commandMotor1 dir ctx).motor1.pos = ctx.motor1.pos := by
  have hstep := saePosIncrement_range h.simDelay.1 h.simDelay.2
  unfold commandMotor1
  dsimp only
  split_ifs
  · exact ⟨⟨h.simDelay, h.pos, by simp, nofun, nofun⟩, rfl⟩
  · exact ⟨⟨h.simDelay, h.pos, by simp only; omega, fun _ => hstep.1, nofun⟩, rfl⟩
  · exact ⟨⟨h.simDelay, h.pos, by simp only; omega, nofun, fun _ => by simp only; omega⟩, rfl⟩
  · exact ⟨h, rfl⟩

theorem Held.write (h : Held ctx) (frame : CanFrame) : Held (saeWriteCb ctx frame).2 ∧
    (saeWriteCb ctx frame).2.motor1.pos = ctx.motor1.pos := by
  unfold saeWriteCb
  split
  · exact ⟨h, rfl⟩
  · split
    · have hstored : Held { ctx with
          motor1.rpm := (frame.data.get 1).toNat
          motor2.rpm := (frame.data.get 2).toNat
          motor3.rpm := (frame.data.get 3).toNat
          motor4.rpm := (frame.data.get 4).toNat } := ⟨h.simDelay, h.pos, h.bound, h.inc, h.dec⟩
      exact hstored.command (frame.data.get 0 &&& 3)
    · exact ⟨h, rfl⟩

theorem flag_command (threshold : Threshold) (dir : UInt8) (ctx : SaeContext) :
    threshold.flag (commandMotor1 dir ctx) = threshold.flag ctx := by
  unfold commandMotor1
  dsimp only
  split_ifs <;> cases threshold <;> rfl

theorem flag_write (threshold : Threshold) (frame : CanFrame) (ctx : SaeContext) :
    threshold.flag (saeWriteCb ctx frame).2 = threshold.flag ctx := by
  unfold saeWriteCb
  split
  · rfl
  · split
    · rw [flag_command]
      cases threshold <;> rfl
    · rfl

theorem checkedPosIncrement_neg (ctx : SaeContext) (h0 : 0 ≤ ctx.simDelay) (h1 : ctx.simDelay ≤ 20000) :
    ∃ motorInc, checkedPosIncrement ctx = some motorInc ∧ int32 (-motorInc) = some (-motorInc) := by
  have hrange := saePosIncrement_range h0 h1
  refine ⟨saePosIncrement ctx, checkedPosIncrement_eq h0 h1, ?_⟩
  exact int32_of_range (by omega) (by omega)

theorem Held.checkedWriteCb_eq (h : Held ctx) (frame : CanFrame) :
    checkedWriteCb ctx frame = some (saeWriteCb ctx frame) := by
  unfold checkedWriteCb
  split
  · rfl
  · obtain ⟨motorInc, hinc, hneg⟩ := checkedPosIncrement_neg { ctx with
      motor1.rpm := (frame.byte 1).toNat } h.simDelay.1 h.simDelay.2
    refine Option.bind_eq_some_iff.mpr ⟨motorInc, hinc, ?_⟩
    rw [hneg, Option.map_some]

-- ---------------------------------------------------------------------------
-- Thresholds
-- ---------------------------------------------------------------------------

/-- A stop is forgotten once the motor has left the threshold. -/
theorem flag_resetThresholdStops (threshold : Threshold) (ctx : SaeContext)
    (h : threshold.Beyond (saePosPercent ctx.motor1.pos)) :
    threshold.flag (resetThresholdStops ctx) = threshold.flag ctx := by
  unfold resetThresholdStops
  split
  · cases threshold with
    | hi =>
      have hnear : ¬saePosPercent ctx.motor1.pos < 85 := Int.not_lt.mpr h
      simp [Threshold.flag, hnear]
    | lo =>
      have hnear : ¬saePosPercent ctx.motor1.pos > 14 := Int.not_lt.mpr h
      simp [Threshold.flag, hnear]
  · rfl

theorem flag_stepTo (threshold : Threshold) (nextPos : Int) (inRange : Bool) (ctx : SaeContext) :
    threshold.flag (stepTo nextPos inRange ctx) = threshold.flag ctx := by
  unfold stepTo
  split <;> cases threshold <;> rfl

theorem flag_moveMotor1 (threshold : Threshold) (ctx : SaeContext) :
    (threshold.flag ctx = true → threshold.flag (moveMotor1 ctx) = true) ∧
      (threshold.flag ctx = false → threshold.flag (moveMotor1 ctx) = true →
        threshold.Beyond (saePosPercent (moveMotor1 ctx).motor1.pos)) := by
  have hstep (inRange : Bool) := flag_stepTo threshold (toInt32 (ctx.motor1.pos + ctx.motor1Inc)) inRange ctx
  unfold moveMotor1
  dsimp only
  generalize toInt32 (ctx.motor1.pos + ctx.motor1Inc) = nextPos at hstep ⊢
  cases ctx.motor1.status with
  | off => simp +contextual
  | inv => simp +contextual
  | inc =>
    dsimp only
    split
    · rename_i hstop
      simp only [Bool.and_eq_true, decide_eq_true_eq] at hstop
      cases threshold with
      | hi => exact ⟨fun _ => rfl, fun _ _ => hstop.1.2⟩
      | lo =>
        simp only [Threshold.flag] at hstep ⊢
        rw [hstep]
        simp +contextual
    · rw [hstep]
      simp +contextual
  | dec =>
    dsimp only
    split
    · rename_i hstop
      simp only [Bool.and_eq_true, decide_eq_true_eq] at hstop
      cases threshold with
      | hi =>
        simp only [Threshold.flag] at hstep ⊢
        rw [hstep]
        simp +contextual
      | lo => exact ⟨fun _ => rfl, fun _ _ => hstop.1.2⟩
    · rw [hstep]
      simp +contextual

-- ---------------------------------------------------------------------------
-- Runs
-- ---------------------------------------------------------------------------

theorem secu1StatFrame_percent (h : InRange ctx.motor1.pos) :
    (((secu1StatFrame ctx).byte 2).toNat : Int) = saePosPercent ctx.motor1.pos := by
  change ((toUint8 (saePosPercent ctx.motor1.pos) % 256 : Nat) : Int) = _
  simp only [InRange, saePosPercent, posShiftVal, toUint8] at h ⊢
  omega

def Threshold.Left (threshold : Threshold) (percent : Nat) : Prop := ¬threshold.Beyond percent

structure Kept (t : SaeTrace) : Prop where
  held : Held t.ctx
  known : (∃ e ∈ t.log, e.report.isSome) → InRange t.ctx.motor1.pos
  entries : ∀ e ∈ t.log, e.Reports (· ≤ 100) ∨ e.report = none
  directed : ∀ e ∈ t.log, e.Directed
  separated : ∀ threshold : Threshold,
    Separated (SaeEntry.StopsAt threshold) (SaeEntry.Reports threshold.Left) t.log
  pending : ∀ threshold : Threshold,
    Pending (SaeEntry.StopsAt threshold) (SaeEntry.Reports threshold.Left) t.log →
      threshold.flag t.ctx = true ∧ threshold.Beyond (saePosPercent t.ctx.motor1.pos)

section
variable {t : SaeTrace} {ctx : SaeContext}

theorem SaeTrace.forall_record {Q : SaeEntry → Prop} (h : ∀ e ∈ t.log, Q e) (hnew : Q ⟨report, t.ctx, ctx⟩) :
    ∀ e ∈ (t.record report ctx).log, Q e := by
  intro e he
  rcases List.mem_append.mp he with he | he
  · exact h e he
  · rw [List.mem_singleton.mp he]
    exact hnew

theorem Kept.silent (h : Kept t) (held : Held ctx) (hpos : ctx.motor1.pos = t.ctx.motor1.pos)
    (hflag : ∀ threshold : Threshold, threshold.flag ctx = threshold.flag t.ctx) :
    Kept (t.record none ctx) := by
  refine ⟨held, ?_, ?_, ?_, ?_, ?_⟩
  · rintro ⟨e, he, hreport⟩
    have hrange := h.known
    rw [← hpos] at hrange
    rcases List.mem_append.mp he with he | he
    · exact hrange ⟨e, he, hreport⟩
    · obtain rfl := List.mem_singleton.mp he
      cases hreport
  · exact SaeTrace.forall_record h.entries (.inr rfl)
  · apply SaeTrace.forall_record h.directed
    exact ⟨fun _ => Int.le_of_eq hpos.symm, fun _ => Int.le_of_eq hpos⟩
  · intro threshold
    refine (h.separated threshold).snoc ?_
    rintro ⟨hreport, -⟩
    cases hreport
  · intro threshold hpending
    simp only [SaeTrace.record, hflag, hpos] at hpending ⊢
    rcases hpending.of_snoc with ⟨hreport, -⟩ | ⟨hpending, -⟩
    · cases hreport
    · exact h.pending threshold hpending

/-- After a stop the flag stays until the motor has reported that it left. -/
theorem Kept.flag_reset (h : Kept t)
    (hpending : Pending (SaeEntry.StopsAt threshold) (SaeEntry.Reports threshold.Left) t.log) :
    threshold.flag (resetThresholdStops (leaveInvalid t.ctx)) = true := by
  obtain ⟨hflag, hbeyond⟩ := h.pending threshold hpending
  have hknown : leaveInvalid t.ctx = t.ctx := by
    obtain ⟨before, e, after, hlog, ⟨hreport, -⟩, -⟩ := hpending
    exact leaveInvalid_known (h.known ⟨e, by simp [hlog], hreport⟩)
  rw [hknown, flag_resetThresholdStops threshold t.ctx hbeyond]
  exact hflag

theorem Kept.reading (h : Kept t)
    (hctx : ctx = moveMotor1 (resetThresholdStops (leaveInvalid t.ctx))) :
    Kept (t.record (some (secu1StatFrame ctx)) ctx) := by
  have hread := h.held.read
  rw [← hctx] at hread
  obtain ⟨held, hrange, hinc, hdec⟩ := hread
  have hpercent := secu1StatFrame_percent hrange
  refine ⟨held, fun _ => hrange, ?_, ?_, ?_, ?_⟩
  · apply SaeTrace.forall_record h.entries
    have hle := hrange.2
    exact .inl ⟨_, rfl, by omega⟩
  · exact SaeTrace.forall_record h.directed ⟨hinc, hdec⟩
  · intro threshold
    refine (h.separated threshold).snoc ?_
    rintro ⟨-, hreset, -⟩ hpending
    rw [h.flag_reset hpending] at hreset
    cases hreset
  · intro threshold hpending
    obtain ⟨hkeeps, hsets⟩ := flag_moveMotor1 threshold (resetThresholdStops (leaveInvalid t.ctx))
    rw [← hctx] at hkeeps hsets
    rcases hpending.of_snoc with ⟨-, hreset, hflag⟩ | ⟨hpending, hnone⟩
    · exact ⟨hflag, hsets hreset hflag⟩
    · refine ⟨hkeeps (h.flag_reset hpending), ?_⟩
      by_contra hleft
      refine hnone ⟨_, rfl, ?_⟩
      rw [Threshold.Left, hpercent]
      exact hleft

theorem Kept.step (h : Kept t) (call : SaeCall) : ∃ t', t.step call = some t' ∧ Kept t' := by
  cases call with
  | read =>
    rcases saeReadCb_cases t.ctx with ⟨⟨err, heq⟩, -⟩ | ⟨-, heq⟩
    · refine ⟨_, by rw [SaeTrace.step, h.held.checkedReadCb_eq, heq, Option.map_some], ?_⟩
      exact h.silent h.held rfl fun _ => rfl
    · refine ⟨_, by rw [SaeTrace.step, h.held.checkedReadCb_eq, heq, Option.map_some], ?_⟩
      exact h.reading rfl
  | write frame =>
    obtain ⟨hheld, hpos⟩ := h.held.write frame
    refine ⟨_, by rw [SaeTrace.step, h.held.checkedWriteCb_eq, Option.map_some], ?_⟩
    exact h.silent hheld hpos fun threshold => flag_write threshold frame t.ctx

theorem Kept.run (h : Kept t) (calls : List SaeCall) :
    ∃ t', run SaeTrace.step t calls = some t' ∧ Kept t' := by
  induction calls generalizing t with
  | nil => exact ⟨t, rfl, h⟩
  | cons call calls ih =>
    obtain ⟨u, hstep, hu⟩ := h.step call
    obtain ⟨t', hrun, ht'⟩ := ih hu
    exact ⟨t', by rw [Atomic.run_cons hstep, hrun], ht'⟩

end

/-- The environment that `sae_init` reads: SAE_DELAY and SAE_POS in range, if
they are set. -/
structure SaeEnv (getenv : String → Option String) : Prop where
  delay : ∀ value, getenv "SAE_DELAY" = some value → 0 ≤ atoi value ∧ atoi value ≤ 20000
  pos : ∀ value, getenv "SAE_POS" = some value →
    atoi value = -1 ∨ atoi value = 255 ∨ 0 ≤ atoi value ∧ atoi value ≤ 100

theorem held_saeInit (h : SaeEnv getenv) : Held (saeInit getenv) := by
  refine ⟨?_, ?_, by simp [saeInit], nofun, nofun⟩
  · simp only [saeInit]
    cases hdelay : getenv "SAE_DELAY" with
    | none => simp
    | some value => simpa using h.delay value hdelay
  · simp only [saeInit]
    cases hpos : getenv "SAE_POS" with
    | none => exact .inl rfl
    | some value =>
      simp only [Option.map_some, Option.getD_some]
      split
      · exact .inl rfl
      · rename_i hvalid
        have hrange := h.pos value hpos
        refine .inr (inRange_iff.mpr ?_)
        unfold saePosRaw posShiftVal
        omega

theorem kept_saeStart (h : SaeEnv getenv) (fd : Int) : Kept ⟨saeStart (saeInit getenv) fd, []⟩ := by
  have hinit := held_saeInit h
  have held : Held (saeStart (saeInit getenv) fd) :=
    ⟨hinit.simDelay, hinit.pos, hinit.bound, hinit.inc, hinit.dec⟩
  refine ⟨held, ?_, List.forall_mem_nil _, List.forall_mem_nil _, ?_, ?_⟩
  · rintro ⟨e, he, -⟩
    cases he
  · exact fun _ => .nil
  · exact fun _ hpending => absurd hpending Atomic.not_pending_nil

/-- Whatever is written to the engine and whenever it is read: every call has
a result, the position stays in range once a frame was read, it follows the
direction of the motor, and between two stops at a threshold the motor has
reported a percentage on its other side. -/
theorem engine_keeps_range (h : SaeEnv getenv) (fd : Int) (calls : List SaeCall) :
    ∃ t, run SaeTrace.step ⟨saeStart (saeInit getenv) fd, []⟩ calls = some t ∧
      ((∃ e ∈ t.log, e.report.isSome) → 0 ≤ t.ctx.motor1.pos ∧ t.ctx.motor1.pos < 101 * 1024) ∧
      (∀ e ∈ t.log, (e.Reports (· ≤ 100) ∨ e.report = none) ∧ e.Directed) ∧
      Separated (SaeEntry.StopsAt .hi) (SaeEntry.Reports (· < 85)) t.log ∧
      Separated (SaeEntry.StopsAt .lo) (SaeEntry.Reports (· > 14)) t.log := by
  obtain ⟨t, hrun, hkept⟩ := (kept_saeStart h fd).run calls
  refine ⟨t, hrun, ?_, ?_, ?_, ?_⟩
  · exact fun hreport => inRange_iff.mp (hkept.known hreport)
  · exact fun e he => ⟨hkept.entries e he, hkept.directed e he⟩
  · refine (hkept.separated .hi).mono ?_
    rintro e ⟨frame, hreport, hleft⟩
    refine ⟨frame, hreport, ?_⟩
    simp only [Threshold.Left, Threshold.Beyond] at hleft
    omega
  · refine (hkept.separated .lo).mono ?_
    rintro e ⟨frame, hreport, hleft⟩
    refine ⟨frame, hreport, ?_⟩
    simp only [Threshold.Left, Threshold.Beyond] at hleft
    omega

def sweepEnv : String → Option String
  | "SAE_POS" => some "90"
  | "SAE_DELAY" => some "2000"
  | _ => none

def motor1Frame (dir rpm : UInt8) : CanFrame := ⟨0x705, 8, #v[dir, rpm, 0, 0, 0, 0, 0, 0]⟩

theorem engine_keeps_range_sweep :
    atoi "90" = 90 ∧ atoi "2000" = 2000 ∧
      ∃ t, run SaeTrace.step ⟨saeStart (saeInit sweepEnv) 3, []⟩
          [.write (motor1Frame 2 80), .read, .write (motor1Frame 1 200), .read, .read] = some t ∧
        ((∃ e ∈ t.log, e.report.isSome) → 0 ≤ t.ctx.motor1.pos ∧ t.ctx.motor1.pos < 101 * 1024) ∧
        (∀ e ∈ t.log, (e.Reports (· ≤ 100) ∨ e.report = none) ∧ e.Directed) ∧
        Separated (SaeEntry.StopsAt .hi) (SaeEntry.Reports (· < 85)) t.log ∧
        Separated (SaeEntry.StopsAt .lo) (SaeEntry.Reports (· > 14)) t.log := by
  refine ⟨by decide, by decide, engine_keeps_range ⟨?_, ?_⟩ 3 _⟩
  · rintro value hvalue
    obtain rfl : "2000" = value := Option.some.inj hvalue
    decide
  · rintro value hvalue
    obtain rfl : "90" = value := Option.some.inj hvalue
    decide

end KuksaServices.Seat
