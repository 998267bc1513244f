import KuksaServices.Seat.Iterations

/-!
# Messages about the learned mode

The control loop tracks whether the ECU is in learned mode and prints a
message when that changes, but not within ten seconds of the last message.
The time of a message passes through an `int`. After 2^31 ms the `int` is
negative and no message is due to it for another 2^32 ms, so that the
messages are right as long as no wrap of the `int` lies between two of them
(`learned_messages_iff`).
-/

namespace KuksaServices.Seat

open Atomic (Prog Throughout Along run)

-- ---------------------------------------------------------------------------
-- What is to be printed
-- ---------------------------------------------------------------------------

def flipMessage (learnedMode : Bool) (learningState : Nat) : Option LearnedMessage :=
  if learnedMode ∧ learningState = LearningState.notLearned.code then some .notLearnedState
  else if !learnedMode ∧ learningState = LearningState.learned.code then some .learnedState
  else none

structure Notices where
  learnedMode : Bool
  printed : Int
  console : List LearnedMessage
  deriving DecidableEq, Repr

def Notices.report (learningState : Nat) (now : Int) (n : Notices) : Notices :=
  match flipMessage n.learnedMode learningState with
  | none => n
  | some message =>
    if now - n.printed > learnedModeRate then ⟨!n.learnedMode, now, n.console ++ [message]⟩
    else { n with learnedMode := !n.learnedMode }

/-- The control loop over frames at given times, and beside it what is to be
printed. -/
structure Watch where
  world : World
  due : Notices
  now : Int

/-- The process starts: learned mode, no message yet, and 0 as the first time
of reference. -/
def Watch.start (w : World) : Watch where
  world := { w with
    statics := { w.statics with learnedMode := true, learnedModeChanged := 0 }, console := [] }
  due := ⟨true, 0, []⟩
  now := 0

def watchStep (plat : Platform) (s : Watch) (m : Moment) : Option Watch :=
  if m.ts < s.now then none
  else some {
    world := m.iteration plat s.world
    due := (acceptedStat plat m.frame).elim s.due fun stat =>
      s.due.report stat.motor1LearningState.toNat m.ts
    now := m.ts }

def Watch.Told (s : Watch) : Prop := s.world.console = s.due.console

/-- How many times the clock has passed an odd multiple of 2^31 ms, where an
`int` goes from its largest to its smallest value. -/
def intWraps (ts : Int) : Int := (ts + 2 ^ 31) / 2 ^ 32

/-- A flip more than ten seconds after the last message is as much later again
as the `int` has wrapped since. -/
def Unwrapped (plat : Platform) (s : Watch) (m : Moment) : Prop :=
  ∀ stat, acceptedStat plat m.frame = some stat →
    (flipMessage s.due.learnedMode stat.motor1LearningState.toNat).isSome →
    m.ts - s.due.printed > learnedModeRate →
    m.ts - s.due.printed > learnedModeRate + 2 ^ 32 * (intWraps m.ts - intWraps s.due.printed)

-- ---------------------------------------------------------------------------
-- Time in an int
-- ---------------------------------------------------------------------------

theorem toInt32_eq (n : Int) : toInt32 n = n - 2 ^ 32 * intWraps n := by
  have hsize : ((2 ^ 32 : Nat) : Int) = 4294967296 := rfl
  simp only [toInt32, intWraps, Int.bmod, hsize]
  split
  · omega
  · omega

/-- The two differences tell the same just when no wrap shortens one that is
long enough. -/
theorem int_difference_iff {printed now : Int} (h : printed ≤ now) :
    (toInt32 now - toInt32 printed > learnedModeRate ↔ now - printed > learnedModeRate) ↔
      (now - printed > learnedModeRate →
        now - printed > learnedModeRate + 2 ^ 32 * (intWraps now - intWraps printed)) := by
  have hwraps : intWraps printed ≤ intWraps now := by
    unfold intWraps
    omega
  rw [toInt32_eq, toInt32_eq]
  omega

-- ---------------------------------------------------------------------------
-- What an iteration prints
-- ---------------------------------------------------------------------------

def World.notices (w : World) : Notices :=
  ⟨w.statics.learnedMode, w.statics.learnedModeChanged, w.console⟩

section
variable {plat : Platform} {me : Thread} {w : World}

def Noticed (n : Notices) (w : World) : Prop := w.notices = n

theorem Noticed.congr (h : Noticed n w) (hstatics : w'.statics.learnedMode = w.statics.learnedMode)
    (hchanged : w'.statics.learnedModeChanged = w.statics.learnedModeChanged)
    (hconsole : w'.console = w.console) : Noticed n w' := by
  rw [← (show w.notices = n from h)]
  simp [Noticed, World.notices, hstatics, hchanged, hconsole]

theorem eventCb_notices (event : SeatCtrlEvent) (value : Int) (w : World) :
    (w.eventCb event value).notices = w.notices := by
  unfold World.eventCb
  split <;> rfl

theorem sendCmd1_noticed (n : Notices) (dir : MotorDirection) (rpm : Int) :
    Prog.Preserves (Noticed n) (seatctrlSendCmd1 plat me dir rpm) := by
  refine .atomic fun w h => ?_
  split
  · exact h
  · split
    · exact h
    · split
      · exact h
      · exact (eventCb_notices _ _ _).trans h

theorem stopMovement_noticed (n : Notices) :
    Prog.Preserves (Noticed n) (seatctrlStopMovement plat me) := by
  refine .bind (sendCmd1_noticed n .off 0) fun rc => ?_
  exact .bind (.atomic fun w h => h) fun _ => .pure _

theorem resendCommand_noticed (n : Notices) :
    Prog.Preserves (Noticed n) (resendCommand plat me) := by
  refine .bind (sendCmd1_noticed n .off 0) fun _ => .bind (.pause _) fun _ => ?_
  exact .bind (.peek _ _) fun _ => .bind (sendCmd1_noticed n _ _) fun _ => .pure _

theorem checkCommand_noticed (n : Notices) (pursuit : Pursuit) :
    Prog.Preserves (Noticed n) (checkCommand plat me pursuit) := by
  refine .bind (.atomic fun w h => ?_) fun ending => ?_
  · unfold checkEnding cacheMotorState
    simp only
    split_ifs <;> split <;> exact h.congr rfl rfl rfl
  · split
    · refine .bind (stopMovement_noticed n) fun _ => ?_
      exact .bind (.atomic fun w h => h.congr rfl rfl rfl) fun _ => .pure _
    · exact .pure _

theorem pursueCommand_noticed (n : Notices) (pursuit : Pursuit) :
    Prog.Preserves (Noticed n) (pursueCommand plat me pursuit) := by
  unfold pursueCommand
  split
  · exact .bind (resendCommand_noticed n) fun _ => checkCommand_noticed n pursuit
  · exact checkCommand_noticed n pursuit

theorem pursue_notices (plat : Platform) (w : World) :
    (pursue plat w).2.notices = (trackLearnedMode plat w).notices := by
  unfold pursue World.getTs
  simp only
  split_ifs <;> rfl

/-- After the learned mode is tracked the control loop prints nothing more. -/
theorem controlLoop_notices (plat : Platform) (me : Thread) (w : World) :
    ((seatctrlControlLoop plat me).exec w).2.notices = (trackLearnedMode plat w).notices := by
  rw [← pursue_notices]
  simp only [seatctrlControlLoop, Prog.exec_bind, Prog.exec_atomic]
  cases (pursue plat w).1 with
  | none => rfl
  | some pursuit => exact (pursueCommand_noticed (pursue plat w).2.notices pursuit).exec rfl

/-- As `Notices.report`, but with an `int` for the time. -/
theorem flipLearnedMode_notices (plat : Platform) (message : LearnedMessage) (w : World) :
    (flipLearnedMode plat message w).notices =
      if toInt32 (plat.clock w.ticks) - w.statics.learnedModeChanged > learnedModeRate then
        ⟨!w.statics.learnedMode, toInt32 (plat.clock w.ticks), w.console ++ [message]⟩
      else ⟨!w.statics.learnedMode, w.statics.learnedModeChanged, w.console⟩ := by
  unfold flipLearnedMode World.getTs
  by_cases hlate : toInt32 (plat.clock w.ticks) - w.statics.learnedModeChanged > learnedModeRate
  · simp only [hlate, if_true]
    rfl
  · simp only [hlate, if_false]
    rfl

theorem trackLearnedMode_notices (plat : Platform) (w : World) :
    (trackLearnedMode plat w).notices =
      (flipMessage w.statics.learnedMode w.ctx.motor1LearningState).elim w.notices fun message =>
        (flipLearnedMode plat message w).notices := by
  unfold trackLearnedMode flipMessage
  split_ifs <;> rfl

theorem Moment.iteration_notices (m : Moment) (w : World) (h : acceptedStat plat m.frame = some stat) :
    (m.iteration plat w).notices =
      (flipMessage w.statics.learnedMode stat.motor1LearningState.toNat).elim w.notices fun message =>
        if toInt32 m.ts - w.statics.learnedModeChanged > learnedModeRate then
          ⟨!w.statics.learnedMode, toInt32 m.ts, w.console ++ [message]⟩
        else ⟨!w.statics.learnedMode, w.statics.learnedModeChanged, w.console⟩ := by
  have hconsole : (applyStat stat w).console = w.console := by
    unfold applyStat World.eventCb
    split_ifs <;> rfl
  have hnotices : (applyStat stat w).notices = w.notices := by
    simp [World.notices, hconsole]
  have hstate : (applyStat stat w).ctx.motor1LearningState = stat.motor1LearningState.toNat := rfl
  have hclock : (plat.at m.ts m.ts_pos).clock (applyStat stat w).ticks = m.ts := rfl
  rw [m.iteration_eq w h, controlLoop_notices, trackLearnedMode_notices]
  simp only [flipLearnedMode_notices, hnotices, applyStat_statics, hconsole, hstate, hclock]

end

-- ---------------------------------------------------------------------------
-- Over a run
-- ---------------------------------------------------------------------------

/-- The loop has printed what is due so far and tracks the same mode; its
reference is the time of the last message as an `int`. -/
structure InStep (s : Watch) : Prop where
  notices : s.world.notices = ⟨s.due.learnedMode, toInt32 s.due.printed, s.due.console⟩
  printed : s.due.printed ≤ s.now

theorem InStep.told (h : InStep s) : s.Told := congrArg Notices.console h.notices

theorem inStep_start (w : World) : InStep (.start w) := ⟨rfl, Int.le_refl _⟩

theorem flip_console_iff {p q : Prop} [Decidable p] [Decidable q] :
    (if p then (⟨mode, now, console ++ [message]⟩ : Notices) else ⟨mode, printed, console⟩).console =
        (if q then (⟨mode', now', console ++ [message]⟩ : Notices) else ⟨mode', printed', console⟩).console ↔
      (p ↔ q) := by
  split_ifs with hp hq hq
  · exact iff_of_true rfl (iff_of_true hp hq)
  · exact iff_of_false (by simp) fun h => hq (h.mp hp)
  · exact iff_of_false (by simp) fun h => hp (h.mpr hq)
  · exact iff_of_true rfl (iff_of_false hp hq)

section
variable {plat : Platform} {s t : Watch} {m : Moment}

theorem InStep.same (h : InStep s) (hlate : s.due.printed ≤ m.ts)
    (hstat : acceptedStat plat m.frame = some stat)
    (hflip : flipMessage s.due.learnedMode stat.motor1LearningState.toNat = none) :
    InStep ⟨m.iteration plat s.world, s.due, m.ts⟩ := by
  have hmode := congrArg Notices.learnedMode h.notices
  have hiter := m.iteration_notices s.world hstat
  rw [show s.world.statics.learnedMode = s.due.learnedMode from hmode, hflip, Option.elim_none] at hiter
  exact ⟨hiter.trans h.notices, hlate⟩

theorem InStep.flip (h : InStep s) (hlate : s.due.printed ≤ m.ts)
    (hstat : acceptedStat plat m.frame = some stat)
    (hflip : flipMessage s.due.learnedMode stat.motor1LearningState.toNat = some message)
    (ht : t = ⟨m.iteration plat s.world, if m.ts - s.due.printed > learnedModeRate then
        ⟨!s.due.learnedMode, m.ts, s.due.console ++ [message]⟩
      else { s.due with learnedMode := !s.due.learnedMode }, m.ts⟩) :
    (t.Told ↔ (toInt32 m.ts - toInt32 s.due.printed > learnedModeRate ↔
      m.ts - s.due.printed > learnedModeRate)) ∧ (t.Told → InStep t) := by
  have hmode : s.world.statics.learnedMode = s.due.learnedMode := congrArg Notices.learnedMode h.notices
  have hchanged : s.world.statics.learnedModeChanged = toInt32 s.due.printed :=
    congrArg Notices.printed h.notices
  have hconsole : s.world.console = s.due.console := h.told
  have hiter := m.iteration_notices s.world hstat
  rw [hmode, hchanged, hconsole, hflip, Option.elim_some] at hiter
  have htold : t.Told ↔ (toInt32 m.ts - toInt32 s.due.printed > learnedModeRate ↔
      m.ts - s.due.printed > learnedModeRate) := by
    subst ht
    change (m.iteration plat s.world).notices.console = _ ↔ _
    rw [hiter]
    exact flip_console_iff
  refine ⟨htold, fun hprinted => ?_⟩
  have hagree := htold.mp hprinted
  subst ht
  by_cases hdue : m.ts - s.due.printed > learnedModeRate
  · have hcode := hagree.mpr hdue
    rw [if_pos hdue]
    refine ⟨?_, Int.le_refl _⟩
    rw [hiter, if_pos hcode]
  · have hcode : ¬toInt32 m.ts - toInt32 s.due.printed > learnedModeRate := fun hl => hdue (hagree.mp hl)
    rw [if_neg hdue]
    refine ⟨?_, hlate⟩
    rw [hiter, if_neg hcode]

theorem unwrapped_iff (hstat : acceptedStat plat m.frame = some stat)
    (hflip : flipMessage s.due.learnedMode stat.motor1LearningState.toNat = some message) :
    Unwrapped plat s m ↔ (m.ts - s.due.printed > learnedModeRate →
      m.ts - s.due.printed > learnedModeRate + 2 ^ 32 * (intWraps m.ts - intWraps s.due.printed)) := by
  constructor
  · intro hu
    exact hu stat hstat (by simp [hflip])
  · intro hu _ _ _
    exact hu

theorem InStep.step (h : InStep s) (hstep : watchStep plat s m = some t) :
    (t.Told ↔ Unwrapped plat s m) ∧ (t.Told → InStep t) := by
  unfold watchStep at hstep
  split at hstep
  · cases hstep
  rename_i hback
  obtain rfl := Option.some.inj hstep
  have hlate : s.due.printed ≤ m.ts := Int.le_trans h.printed (Int.not_lt.mp hback)
  cases hstat : acceptedStat plat m.frame with
  | none =>
    have hsame : m.iteration plat s.world = s.world := iteration_rejected s.world hstat
    have hin : InStep ⟨m.iteration plat s.world, s.due, m.ts⟩ := by
      rw [hsame]
      exact ⟨h.notices, hlate⟩
    exact ⟨iff_of_true hin.told fun stat hs => by simp [hstat] at hs, fun _ => hin⟩
  | some stat =>
    simp only [Option.elim_some, Notices.report]
    cases hflip : flipMessage s.due.learnedMode stat.motor1LearningState.toNat with
    | none =>
      have hin := h.same hlate hstat hflip
      refine ⟨iff_of_true hin.told fun stat' hs hf => ?_, fun _ => hin⟩
      cases hstat.symm.trans hs
      simp [hflip] at hf
    | some message =>
      rw [unwrapped_iff hstat hflip, ← int_difference_iff hlate]
      exact h.flip hlate hstat hflip rfl

end

/-- For every process and every sequence of status frames at times that do not
go back. -/
theorem learned_messages_iff (plat : Platform) (w : World) (ms : List Moment) :
    Throughout (watchStep plat) Watch.Told (.start w) ms ↔
      Along (watchStep plat) (Unwrapped plat) (.start w) ms :=
  Atomic.throughout_iff_along_of_keeps (Q := InStep) (fun _ h => h.told) (fun _ _ _ h hstep => h.step hstep)
    (inStep_start w)

instance (s : Watch) : Decidable s.Told := inferInstanceAs (Decidable (_ = _))

def notLearnedFrame : CanFrame := ⟨secu1StatFrameId, 8, .replicate 8 0⟩

/-- The first warning would be due after 2^31 ms of uptime. -/
theorem warning_lost_after_weeks :
    (run (watchStep (.ticking 300 fun _ => none)) (.start Session.bench.opened)
        [⟨notLearnedFrame, 2147483648, by decide⟩]).map
          (fun s => (s.world.console, s.due.console)) = some ([], [.notLearnedState]) ∧
      ¬Throughout (watchStep (.ticking 300 fun _ => none)) Watch.Told (.start Session.bench.opened)
        [⟨notLearnedFrame, 2147483648, by decide⟩] := by
  constructor
  · decide +kernel
  · decide +kernel

end KuksaServices.Seat
