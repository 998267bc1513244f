import KuksaServices.Seat.Bus

/-!
# Changes of the bus keep the agreement

Rules of pre- and postconditions for the parts of the controller that change
the bus or the command triple, with `Calm` interference before every action:
from agreement `commandPosition` and `pursueCommand` end in agreement when
every write succeeds. The assertions between the actions say which of bus,
triple and ledger is ahead of the others.
-/

namespace KuksaServices.Seat

open Atomic (Prog Discipline)
open Atomic.Prog (Triple Stable)

/-- A thread that changes the bus or the triple, alone in that. -/
def changes : Discipline Site World where
  site l := l.changing = true
  rely := Calm
  rely_refl := Calm.refl
  rely_trans := Calm.trans
  may _ _ _ := True
  on _ _ := True

abbrev Keeps (A : World → Prop) (p : Ctl α) (B : α → World → Prop) : Prop := Triple changes A p B

theorem Keeps.bind {p : Ctl α} {f : α → Ctl β} (hp : Keeps A p B)
    (hf : ∀ a, Keeps (B a) (f a) C) : Keeps A (p >>= f) C :=
  Triple.bind hp hf

theorem Keeps.atomic {f : World → α × World} (hl : l.changing = true) (ha : Stable changes A)
    (hb : ∀ a, Stable changes (B a)) (h : ∀ w, A w → B (f w).1 (f w).2) :
    Keeps A (Prog.atomic l f) B :=
  Triple.atomic hl ha hb fun w hw _ => ⟨trivial, h w hw⟩

theorem stable_agrees : Stable changes (Agrees plat) := fun _ _ h hc => h.calm hc

theorem stable_sound : Stable changes Sound := fun _ _ h hc => h.calm hc

-- ---------------------------------------------------------------------------
-- The assertions
-- ---------------------------------------------------------------------------

/-- The motor is commanded off and no command is stored. -/
structure Stopped (plat : Platform) (w : World) : Prop where
  agrees : Agrees plat w
  idle : w.ctx.command = .idle
  last : lastCmd w.log = some MotorDirection.off.code

/-- A new command is stored, its frame not yet sent. -/
structure Armed (dir : MotorDirection) (w : World) : Prop where
  sound : Sound w
  active : w.ctx.command.Active
  direction : w.ctx.command.direction = dir
  last : lastCmd w.log = some MotorDirection.off.code
  issued : issued w.log = (w.ctx.command, none)

/-- The control loop looks after the stored command. -/
structure Pursued (plat : Platform) (elapsed : Int) (w : World) : Prop where
  agrees : Agrees plat w
  active : w.ctx.command.Active
  elapsed : ∃ n, elapsed = plat.clock n - w.ctx.command.ts

/-- The control loop has commanded the motor off to send the command again. -/
structure Resending (plat : Platform) (elapsed : Int) (w : World) : Prop where
  sound : Sound w
  active : w.ctx.command.Active
  last : lastCmd w.log = some MotorDirection.off.code
  ledger : Ledger plat w
  elapsed : ∃ n, elapsed = plat.clock n - w.ctx.command.ts

/-- The control loop has found the caller's command ended. -/
structure Finished (plat : Platform) (w : World) : Prop where
  sound : Sound w
  issued : ∃ c why, issued w.log = (c, some why) ∧ Caused plat w.ctx.config.commandTimeout c why

theorem Ledger.calm (h : Ledger plat w) (hc : Calm w w') : Ledger plat w' := by
  unfold Ledger
  rw [hc.command, hc.log, hc.config]
  exact h

theorem stable_stopped : Stable changes (Stopped plat) := fun _ _ h hc =>
  ⟨h.agrees.calm hc, hc.command ▸ h.idle, hc.log ▸ h.last⟩

theorem stable_armed : Stable changes (Armed dir) := fun _ _ h hc =>
  ⟨h.sound.calm hc, hc.command ▸ h.active, hc.command ▸ h.direction, hc.log ▸ h.last,
    by rw [hc.log, hc.command]; exact h.issued⟩

theorem stable_pursued : Stable changes (Pursued plat elapsed) := fun _ _ h hc =>
  ⟨h.agrees.calm hc, hc.command ▸ h.active, by rw [hc.command]; exact h.elapsed⟩

theorem stable_resending : Stable changes (Resending plat elapsed) := fun _ _ h hc =>
  ⟨h.sound.calm hc, hc.command ▸ h.active, hc.log ▸ h.last, h.ledger.calm hc,
    by rw [hc.command]; exact h.elapsed⟩

theorem stable_finished : Stable changes (Finished plat) := fun _ _ h hc =>
  ⟨h.sound.calm hc, by rw [hc.log, hc.config]; exact h.issued⟩

-- ---------------------------------------------------------------------------
-- What a write and an update of the triple do to the assertions
-- ---------------------------------------------------------------------------

section
variable {plat : Platform} {me : Thread} {w : World}

theorem Sound.afterOff (h : Sound w) (hok : plat.write w.writes = none) :
    Sound (afterWrite plat me .off 0 w) := by
  refine ⟨h.magic, h.socket, h.rpm, ?_⟩
  simpa [afterWrite, World.record, hok] using h.tidy.off

theorem Sound.afterMove (h : Sound w) (hok : plat.write w.writes = none)
    (hlast : lastCmd w.log = some MotorDirection.off.code) (hdir : dir = .inc ∨ dir = .dec) :
    Sound (afterWrite plat me dir w.ctx.config.motorRpm w) := by
  refine ⟨h.magic, h.socket, h.rpm, ?_⟩
  simpa [afterWrite, World.record, hok] using h.tidy.move hlast hdir h.rpm

theorem lastCmd_afterWrite (hok : plat.write w.writes = none) :
    lastCmd (afterWrite plat me dir rpm w).log = some dir.code := by
  simp [afterWrite, World.record, hok, motor1Cmd]

theorem issued_afterWrite : issued (afterWrite plat me dir rpm w).log = issued w.log := by
  simp [afterWrite, World.record, issuedNext]

theorem Ledger.afterWrite (h : Ledger plat w) : Ledger plat (afterWrite plat me dir rpm w) := by
  unfold Ledger
  rw [issued_afterWrite]
  exact h

theorem Sound.setCommand (h : Sound w) : Sound (w.setCommand me c) :=
  ⟨h.magic, h.socket, h.rpm, h.tidy.other rfl⟩

theorem lastCmd_setCommand : lastCmd (w.setCommand me c).log = lastCmd w.log := by
  simp [World.setCommand, World.record]

theorem issued_setCommand_caller :
    issued (w.setCommand (.caller n) c).log = (c, none) := by
  simp [World.setCommand, World.record, issuedNext]

theorem issued_setCommand_ctl : issued (w.setCommand .ctl c).log = issued w.log := by
  simp [World.setCommand, World.record, issuedNext]

theorem Stopped.ofCaller (h : Sound w) (hlast : lastCmd w.log = some MotorDirection.off.code) :
    Stopped plat (w.setCommand (.caller n) .idle) := by
  refine ⟨⟨h.setCommand, .inl rfl, .inl ?_, ?_⟩, rfl, ?_⟩
  · rw [lastCmd_setCommand]
    exact hlast
  · unfold Ledger
    rw [issued_setCommand_caller]
    rfl
  · rw [lastCmd_setCommand]
    exact hlast

theorem Stopped.current (h : Stopped plat w) : Stopped plat (w.record (.caller n) (.current pos)) := by
  obtain ⟨ha, hi, hl⟩ := h
  have hlast : lastCmd (w.record (.caller n) (.current pos)).log = some MotorDirection.off.code := by
    simpa [World.record] using hl
  have hledger : Ledger plat (w.record (.caller n) (.current pos)) := by
    have hledger := ha.ledger
    simp only [Ledger, World.record, issued_snoc, issuedNext] at hledger ⊢
    exact hledger
  have hsound : Sound (w.record (.caller n) (.current pos)) :=
    ⟨ha.sound.magic, ha.sound.socket, ha.sound.rpm, ha.sound.tidy.other rfl⟩
  refine ⟨⟨hsound, ha.command, .inl ?_, hledger⟩, hi, hlast⟩
  rw [hlast, show (w.record _ _).ctx.command = .idle from hi]
  rfl

theorem Stopped.arms (h : Stopped plat w) (hpos : c.position ≤ 100)
    (hdir : c.direction = .inc ∨ c.direction = .dec) (hts : 0 < c.ts) :
    Armed c.direction (World.setCommand { w with ticks := ticks } (.caller n) c) := by
  obtain ⟨ha, -, hl⟩ := h
  refine ⟨⟨ha.sound.magic, ha.sound.socket, ha.sound.rpm, ha.sound.tidy.other rfl⟩,
    ⟨hpos, hdir, hts⟩, rfl, ?_, issued_setCommand_caller⟩
  rw [lastCmd_setCommand]
  exact hl

theorem Armed.agrees (h : Armed dir w) (hok : plat.write w.writes = none) :
    Agrees plat (afterWrite plat me dir w.ctx.config.motorRpm w) := by
  have hdir : dir = .inc ∨ dir = .dec := h.direction ▸ h.active.2.1
  refine ⟨h.sound.afterMove hok h.last hdir, .inr h.active, .inl ?_, ?_⟩
  · rw [lastCmd_afterWrite hok]
    exact congrArg _ (congrArg _ h.direction.symm)
  · unfold Ledger
    rw [issued_afterWrite, h.issued]
    rfl

theorem Finished.agrees (h : Finished plat w) (hlast : lastCmd w.log = some MotorDirection.off.code) :
    Agrees plat (w.setCommand .ctl .idle) := by
  refine ⟨h.sound.setCommand, .inl rfl, .inl ?_, ?_⟩
  · rw [lastCmd_setCommand]
    exact hlast
  · obtain ⟨c, why, hi, hc⟩ := h.issued
    unfold Ledger
    rw [issued_setCommand_ctl, hi]
    exact ⟨rfl, hc⟩

theorem calm_statics (w : World) (statics : Statics) : Calm w { w with statics := statics } :=
  ⟨rfl, rfl, rfl, rfl, rfl, rfl⟩

theorem Ledger.issued_active (h : Ledger plat w) (ha : w.ctx.command.Active) :
    Seat.issued w.log = (w.ctx.command, none) := by
  unfold Ledger at h
  split at h
  · rename_i hi
    rw [hi, h]
  · exact absurd (h.1 ▸ ha.2.2) (by simp [Command.idle])

theorem calm_cacheMotorState (pursuit : Pursuit) (w : World) :
    Calm w (cacheMotorState pursuit w) := by
  unfold cacheMotorState
  split
  · exact calm_statics w _
  · exact Calm.refl w

theorem endingOf_caused (h : endingOf elapsed w.ctx = some why)
    (hel : ∃ n, elapsed = plat.clock n - w.ctx.command.ts) :
    Caused plat w.ctx.config.commandTimeout w.ctx.command why := by
  unfold endingOf at h
  split_ifs at h with hr ht
  · obtain rfl := Option.some.inj h
    simpa [reachedTarget, Caused] using hr
  · obtain rfl := Option.some.inj h
    exact ⟨ht, hel⟩

def Checked (plat : Platform) : Option Ending → World → Prop
  | none => Agrees plat
  | some _ => Finished plat

theorem Finished.ofEnded (h : Agrees plat w) (ha : w.ctx.command.Active)
    (hc : Caused plat w.ctx.config.commandTimeout w.ctx.command why) :
    Finished plat (w.record .ctl (.ended w.ctx.command why)) := by
  have hs := h.sound
  refine ⟨⟨hs.magic, hs.socket, hs.rpm, hs.tidy.other rfl⟩, w.ctx.command, why, ?_, hc⟩
  simp [World.record, issuedNext, h.ledger.issued_active ha]

theorem Pursued.checkEnding (h : Pursued plat pursuit.elapsed w) :
    Checked plat (checkEnding .ctl pursuit w).1 (checkEnding .ctl pursuit w).2 := by
  have hc := stable_pursued _ _ h (calm_cacheMotorState pursuit w)
  unfold Seat.checkEnding
  cases he : endingOf pursuit.elapsed (cacheMotorState pursuit w).ctx with
  | none =>
    simp only [he]
    exact hc.agrees
  | some why =>
    simp only [he]
    exact Finished.ofEnded hc.agrees hc.active (endingOf_caused he hc.elapsed)

end

-- ---------------------------------------------------------------------------
-- The functions
-- ---------------------------------------------------------------------------

section
variable {plat : Platform} (hok : ∀ n, plat.write n = none)
include hok

theorem sendCmd1_keeps {A B : World → Prop} (ha : Stable changes A) (hb : Stable changes B)
    (hs : ∀ w, A w → w.ctx.socket.isSome) (h : ∀ w, A w → B (afterWrite plat me dir rpm w)) :
    Keeps A (seatctrlSendCmd1 plat me dir rpm) (fun _ => B) := by
  refine Keeps.atomic rfl ha (fun _ => hb) fun w hw => ?_
  change B ((seatctrlSendCmd1 plat me dir rpm).exec w).2
  rw [exec_sendCmd1 (hs w hw)]
  simp only [hok]
  exact h w hw

theorem stopMovement_caller :
    Keeps Sound (seatctrlStopMovement plat (.caller n)) (fun _ => Stopped plat) := by
  let Off (w : World) : Prop := Sound w ∧ lastCmd w.log = some MotorDirection.off.code
  have hoff : Stable changes Off := fun _ _ h hc => ⟨h.1.calm hc, hc.log ▸ h.2⟩
  refine Keeps.bind (B := fun _ => Off) (sendCmd1_keeps hok stable_sound hoff
    (fun w h => h.socket) fun w h => ⟨h.afterOff (hok _), lastCmd_afterWrite (hok _)⟩) ?_
  intro rc
  refine Keeps.bind (B := fun _ => Stopped plat) (Keeps.atomic rfl hoff (fun _ => stable_stopped)
    fun w h => Stopped.ofCaller h.1 h.2) ?_
  intro _
  exact Triple.pure (B := fun _ => Stopped plat) stable_stopped

theorem stopMovement_ctl :
    Keeps (Finished plat) (seatctrlStopMovement plat .ctl) (fun _ => Agrees plat) := by
  let Off (w : World) : Prop := Finished plat w ∧ lastCmd w.log = some MotorDirection.off.code
  have hoff : Stable changes Off := fun s t h hc => ⟨stable_finished s t h.1 hc, hc.log ▸ h.2⟩
  refine Keeps.bind (B := fun _ => Off) (sendCmd1_keeps hok stable_finished hoff
    (fun w h => h.sound.socket) fun w h => ⟨⟨h.sound.afterOff (hok _), ?_⟩,
      lastCmd_afterWrite (hok _)⟩) ?_
  · rw [issued_afterWrite]
    exact h.issued
  · intro rc
    refine Keeps.bind (B := fun _ => Agrees plat) (Keeps.atomic rfl hoff (fun _ => stable_agrees)
      fun w h => h.1.agrees h.2) ?_
    intro _
    exact Triple.pure (B := fun _ => Agrees plat) stable_agrees

theorem decidePosition_keeps (h0 : 0 ≤ desired) (h100 : desired ≤ 100) :
    Keeps (Stopped plat) (decidePosition plat (.caller n) desired) (fun _ => Agrees plat) := by
  have hpos : toUint8 desired ≤ 100 := by
    have := toUint8_of_lt h0 (by omega : desired < 256)
    omega
  unfold decidePosition
  refine Keeps.bind (B := fun _ => Stopped plat) (Keeps.atomic rfl stable_stopped
    (fun _ => stable_stopped) fun w h => h.current) ?_
  intro currentPos
  split
  · -- already there
    refine Keeps.bind (B := fun _ => Stopped plat) (Keeps.atomic rfl stable_stopped
      (fun _ => stable_stopped) fun w h => h) ?_
    intro movState
    split
    · refine Keeps.bind ((stopMovement_caller hok).conseq (fun w h => h.agrees.sound)
        fun _ _ h => h) ?_
      intro _
      exact (Triple.pure (B := fun _ => Agrees plat) stable_agrees).conseq
        (fun w h => h.agrees) fun _ _ h => h
    · refine Keeps.bind (B := fun _ => Stopped plat) (Keeps.atomic rfl stable_stopped
        (fun _ => stable_stopped) fun w h => Stopped.ofCaller h.agrees.sound h.last) ?_
      intro _
      exact (Triple.pure (B := fun _ => Agrees plat) stable_agrees).conseq
        (fun w h => h.agrees) fun _ _ h => h
  · -- the command is stored first, then sent
    have hdir := directionTo_cases currentPos desired
    refine Keeps.bind (B := fun _ => Armed (directionTo currentPos desired))
      (Keeps.atomic rfl stable_stopped (fun _ => stable_armed)
        fun w h => Stopped.arms (c := ⟨toUint8 desired, directionTo currentPos desired,
          plat.clock w.ticks⟩) h hpos hdir (plat.clock_pos _)) ?_
    intro _
    let Ready (rpm : Int) (w : World) : Prop :=
      Armed (directionTo currentPos desired) w ∧ rpm = w.ctx.config.motorRpm
    have hready : ∀ rpm, Stable changes (Ready rpm) := fun rpm s t h hc =>
      ⟨stable_armed s t h.1 hc, by rw [hc.config]; exact h.2⟩
    refine Keeps.bind (B := Ready) (Keeps.atomic rfl stable_armed hready
      fun w h => ⟨h, rfl⟩) ?_
    intro rpm
    refine sendCmd1_keeps hok (hready rpm) stable_agrees (fun w h => h.1.sound.socket) ?_
    rintro w ⟨h, rfl⟩
    exact h.agrees (hok _)

/-- From its first motor-off command on, `seatctrl_set_position` ends in
agreement. -/
theorem commandPosition_keeps (h0 : 0 ≤ desired) (h100 : desired ≤ 100) :
    Keeps (Agrees plat) (commandPosition plat (.caller n) desired) (fun _ => Agrees plat) := by
  unfold commandPosition
  refine Keeps.bind ((stopMovement_caller hok).conseq (fun w h => h.sound) fun _ _ h => h) ?_
  intro _
  refine Keeps.bind (B := fun _ => Stopped plat) (Keeps.atomic rfl stable_stopped
    (fun _ => stable_stopped) fun w h => h) ?_
  intro _
  exact decidePosition_keeps hok h0 h100

theorem resendCommand_keeps :
    Keeps (Pursued plat elapsed) (resendCommand plat .ctl) (fun _ => Pursued plat elapsed) := by
  unfold resendCommand
  refine Keeps.bind (B := fun _ => Resending plat elapsed) (sendCmd1_keeps hok stable_pursued
    stable_resending (fun w h => h.agrees.sound.socket) fun w h =>
      ⟨h.agrees.sound.afterOff (hok _), h.active, lastCmd_afterWrite (hok _),
        h.agrees.ledger.afterWrite, h.elapsed⟩) ?_
  intro _
  refine Keeps.bind (B := fun _ => Resending plat elapsed) (Keeps.atomic rfl stable_resending
    (fun _ => stable_resending) fun w h => h) ?_
  intro _
  let Ready (args : MotorDirection × Int) (w : World) : Prop :=
    Resending plat elapsed w ∧ args = (w.ctx.command.direction, w.ctx.config.motorRpm)
  have hready : ∀ args, Stable changes (Ready args) := fun args s t h hc =>
    ⟨stable_resending s t h.1 hc, by rw [hc.command, hc.config]; exact h.2⟩
  refine Keeps.bind (B := Ready) (Keeps.atomic rfl stable_resending hready
    fun w h => ⟨h, rfl⟩) ?_
  rintro ⟨direction, rpm⟩
  refine Keeps.bind (B := fun _ => Pursued plat elapsed) (sendCmd1_keeps hok (hready _)
    stable_pursued (fun w h => h.1.sound.socket) ?_) ?_
  · rintro w ⟨h, hargs⟩
    obtain ⟨rfl, rfl⟩ := Prod.mk.inj hargs
    refine ⟨⟨h.sound.afterMove (hok _) h.last h.active.2.1, .inr h.active, .inl ?_,
      h.ledger.afterWrite⟩, h.active, h.elapsed⟩
    exact lastCmd_afterWrite (hok _)
  · intro _
    exact Triple.pure (B := fun _ => Pursued plat elapsed) stable_pursued

theorem checkCommand_keeps :
    Keeps (Pursued plat pursuit.elapsed) (checkCommand plat .ctl pursuit)
      (fun _ => Agrees plat) := by
  have hcheck : ∀ ending, Stable changes (Checked plat ending) := by
    intro ending
    cases ending with
    | none => exact stable_agrees
    | some why => exact stable_finished
  unfold checkCommand
  refine Keeps.bind (B := Checked plat) (Keeps.atomic rfl stable_pursued hcheck
    fun w h => h.checkEnding) ?_
  intro ending
  cases ending with
  | none => exact Triple.pure (B := fun _ => Agrees plat) stable_agrees
  | some why =>
    refine Keeps.bind (stopMovement_ctl hok) ?_
    intro _
    refine Keeps.bind (B := fun _ => Agrees plat) (Keeps.atomic rfl stable_agrees
      (fun _ => stable_agrees) fun w h => h.calm (calm_statics w _)) ?_
    intro _
    exact Triple.pure (B := fun _ => Agrees plat) stable_agrees

theorem pursueCommand_keeps :
    Keeps (Pursued plat pursuit.elapsed) (pursueCommand plat .ctl pursuit)
      (fun _ => Agrees plat) := by
  unfold pursueCommand
  split
  · exact Keeps.bind (resendCommand_keeps hok) fun _ => checkCommand_keeps hok
  · exact checkCommand_keeps hok

end

end KuksaServices.Seat
