import KuksaServices.Seat.Outcomes

/-!
# Failed writes and a silent bus

What becomes of the controller's promises when the bus does not do its part.
A motor-off frame that is not written leaves the controller idle while the
motor moves; the runs without such a state are exactly those along `Heard`
(`moving_never_forgotten_iff`). A timeout is only noticed by a turn that
accepts a status frame (`timeout_enforced_iff`). The return code of
`seatctrl_set_position` tells what happened exactly when the request is
`Told` (`set_position_faithful_iff`).
-/

namespace KuksaServices.Seat

open Atomic

section
variable {plat : Platform} {w : World}

-- ---------------------------------------------------------------------------
-- A motor that is forgotten
-- ---------------------------------------------------------------------------

def MotorMoving (w : World) : Prop :=
  lastCmd w.log = some MotorDirection.inc.code ∨ lastCmd w.log = some MotorDirection.dec.code

instance (w : World) : Decidable (MotorMoving w) := inferInstanceAs (Decidable (_ ∨ _))

def NotForgotten (w : World) : Prop := isCtlRunning w.ctx = false → ¬MotorMoving w

instance : DecidablePred NotForgotten := fun _ => inferInstanceAs (Decidable (_ → _))

def WriteOk (plat : Platform) (w : World) (n : Nat) : Prop := plat.write (w.writes + n) = none

/-- An operation that leaves no command behind has got a motor-off frame
through, after any other, or it found the motor off. -/
def Heard (plat : Platform) (w : World) : Op → Prop
  | .setPosition _ desired => Refused w desired ∨ (w.ctx.motor1Pos : Int) ≠ desired ∨
    WriteOk plat w 0 ∨ w.ctx.motor1MovState ≠ MotorDirection.off.code ∧ WriteOk plat w 1 ∨
    ¬MotorMoving w
  | .stopMovement _ => WriteOk plat w 0 ∨ ¬MotorMoving w
  | .start => True
  | .turn result => ∀ pursuit, turnEnding plat w result = some pursuit →
    if pursuit.resend then
      WriteOk plat w 2 ∨ ¬WriteOk plat w 1 ∧ (WriteOk plat w 0 ∨ ¬MotorMoving w)
    else WriteOk plat w 0 ∨ ¬MotorMoving w

theorem not_motorMoving_off (h : lastCmd w.log = some MotorDirection.off.code) : ¬MotorMoving w := by
  unfold MotorMoving
  rw [h]
  decide

/-- One more motor-off frame was attempted, as the `n`-th write. -/
def OffAttempt (plat : Platform) (n : Nat) (w w' : World) : Prop :=
  lastCmd w'.log =
    if (plat.write n).isNone then some MotorDirection.off.code else lastCmd w.log

theorem OffAttempt.moving (h : OffAttempt plat n w w') :
    ¬MotorMoving w' ↔ plat.write n = none ∨ ¬MotorMoving w := by
  unfold OffAttempt at h
  cases hw : plat.write n with
  | none =>
    simp only [hw, Option.isNone_none, if_true] at h
    exact iff_of_true (not_motorMoving_off h) (.inl rfl)
  | some err =>
    simp only [hw, Option.isNone_some, Bool.false_eq_true, if_false] at h
    simp [MotorMoving, h]

theorem OffAttempt.stopMovement (hs : w.ctx.socket.isSome) :
    OffAttempt plat w.writes w ((seatctrlStopMovement plat me).exec w).2 := stopMovement_lastCmd hs

theorem notForgotten_idle (hopen : Open w) (hi : w.ctx.command = .idle) :
    NotForgotten w ↔ ¬MotorMoving w := by
  have := hopen.idle_iff.mpr hi
  exact ⟨fun h => h this, fun h _ => h⟩

theorem notForgotten_active (hopen : Open w) (ha : w.ctx.command.Active) : NotForgotten w := by
  intro hrun
  rw [isCtlRunning_of_active hopen.socket ha] at hrun
  cases hrun

theorem notForgotten_congr (hopen : Open w) (hopen' : Open w')
    (hc : w'.ctx.command = w.ctx.command) (hlog : isCtlRunning w.ctx = false → w'.log = w.log)
    (h : NotForgotten w) : NotForgotten w' := by
  intro hidle
  have hrun : isCtlRunning w.ctx = false := by
    rw [hopen.idle_iff, ← hc, ← hopen'.idle_iff]
    exact hidle
  unfold MotorMoving
  rw [hlog hrun]
  exact h hrun

theorem heard_setPosition (hopen : Open w) (h : NotForgotten w) :
    NotForgotten ((seatctrlSetPosition plat (.caller n) desired).exec w).2 ↔
      Heard plat w (.setPosition n desired) := by
  have hnext : Open ((seatctrlSetPosition plat (.caller n) desired).exec w).2 := hopen.setPosition
  unfold Heard
  by_cases hr : Refused w desired
  · obtain ⟨rc, -, he⟩ := exec_setPosition_refused plat (.caller n) hr
    rw [he]
    exact iff_of_true h (.inl hr)
  · rw [exec_setPosition_accepted hr] at hnext ⊢
    have hdecide : OffAttempt plat w.writes w (deciding plat (.caller n) w) :=
      deciding_lastCmd hopen.socket
    by_cases hpos : (w.ctx.motor1Pos : Int) = desired
    · by_cases hmov : w.ctx.motor1MovState = MotorDirection.off.code
      · rw [exec_commandPosition_there hpos hmov] at hnext ⊢
        have hidle : OffAttempt plat w.writes w ((deciding plat (.caller n) w).setCommand (.caller n) .idle) :=
          lastCmd_setCommand.trans hdecide
        rw [notForgotten_idle hnext rfl, hidle.moving]
        simp [hr, hpos, hmov, WriteOk]
      · rw [exec_commandPosition_moving hpos hmov] at hnext ⊢
        have hagain : OffAttempt plat (deciding plat (.caller n) w).writes (deciding plat (.caller n) w)
            ((seatctrlStopMovement plat (.caller n)).exec (deciding plat (.caller n) w)).2 :=
          .stopMovement (by simpa using hopen.socket)
        rw [notForgotten_idle hnext (by simp), hagain.moving, hdecide.moving,
          deciding_writes hopen.socket]
        simp only [hr, hpos, hmov, WriteOk, ne_eq, not_true_eq_false, not_false_eq_true, true_and,
          false_or, Nat.add_zero]
        exact or_left_comm
    · rw [exec_commandPosition_away hpos] at hnext ⊢
      refine iff_of_true (notForgotten_active hnext ?_) (.inr (.inl hpos))
      simp only [Refused, not_or, Int.not_lt] at hr
      simpa [commanding, World.setCommand, World.record] using
        commandFor_active plat w hr.2.1 (by omega)

theorem resent_moving (hopen : Open w) (hrun : isCtlRunning w.ctx) (hr : pursuit.resend = true) :
    ¬MotorMoving (resent plat me pursuit w) ↔
      ¬WriteOk plat w 1 ∧ (WriteOk plat w 0 ∨ ¬MotorMoving w) := by
  have hlast := resent_lastCmd plat me hopen.socket hr
  unfold WriteOk
  cases h1 : plat.write (w.writes + 1) with
  | none =>
    have hmove : MotorMoving (resent plat me pursuit w) := by
      obtain ⟨-, hdir, -⟩ := hopen.active hrun
      unfold MotorMoving
      rcases hdir with hd | hd <;> simp [hlast, h1, hd]
    simp [hmove]
  | some err =>
    have hoff : OffAttempt plat w.writes w (resent plat me pursuit w) := by
      simpa [OffAttempt, h1] using hlast
    rw [hoff.moving]
    simp

theorem heard_turn (hopen : Open w) (h : NotForgotten w) :
    NotForgotten ((threadTurn plat .ctl result).exec (turnBegins w)).2 ↔
      Heard plat w (.turn result) := by
  unfold Heard
  cases hend : turnEnding plat w result with
  | none =>
    obtain ⟨hopen', hc, hlog⟩ := turn_goes .ctl hopen hend
    exact iff_of_true (notForgotten_congr hopen hopen' hc hlog h) (by simp [hend])
  | some pursuit =>
    have hopen' : Open ((threadTurn plat .ctl result).exec (turnBegins w)).2 := hopen.turn_ends hend
    obtain ⟨v, why, hcalm, hrun, hwhy, he⟩ := turn_ends .ctl hend
    have hv := hopen.calm hcalm
    obtain ⟨hctx, hlast⟩ := pursueCommand_ends plat .ctl hwhy hv.socket
    have hoff : OffAttempt plat (resent plat .ctl pursuit v).writes (resent plat .ctl pursuit v)
        ((pursueCommand plat .ctl pursuit).exec v).2 := hlast
    have hsame : MotorMoving v ↔ MotorMoving w := by
      unfold MotorMoving
      rw [hcalm.log]
    rw [he] at hopen' ⊢
    rw [notForgotten_idle hopen' (by rw [hctx]), hoff.moving, resent_writes hv.socket]
    cases hr : pursuit.resend with
    | false => simp [hend, resent, hr, WriteOk, hcalm.writes, hsame]
    | true =>
      rw [resent_moving hv hrun hr]
      simp [hend, hr, WriteOk, hcalm.writes, hsame]

theorem heard_step (hopen : Open w) (h : NotForgotten w) (hs : opStep plat w op = some w') :
    NotForgotten w' ↔ Heard plat w op := by
  cases op with
  | setPosition n desired =>
    obtain rfl := Option.some.inj hs
    exact heard_setPosition hopen h
  | stopMovement n =>
    obtain rfl := Option.some.inj hs
    have hopen' : Open ((seatctrlStopMovement plat (.caller n)).exec w).2 :=
      hopen.withCommand stopMovement_ctx (.inl rfl)
    rw [notForgotten_idle hopen' (by simp), (OffAttempt.stopMovement hopen.socket).moving]
    rfl
  | start =>
    obtain ⟨-, hs⟩ := Option.ite_none_right_eq_some.mp hs
    obtain rfl := Option.some.inj hs
    exact iff_of_true h trivial
  | turn result =>
    obtain ⟨-, hs⟩ := Option.ite_none_right_eq_some.mp hs
    obtain rfl := Option.some.inj hs
    exact heard_turn hopen h

end

/-- Between operations an idle controller's motor is off, exactly in the
runs in which every operation that leaves no command is heard. -/
theorem moving_never_forgotten_iff (plat : Platform) (s : Session) (ops : List Op) :
    Throughout (opStep plat) NotForgotten s.opened ops ↔
      Along (opStep plat) (Heard plat) s.opened ops := by
  have hstart : NotForgotten s.opened := by
    intro _
    rw [s.opened_eq]
    simp [MotorMoving, World.boot, lastCmd, written, attempts]
  exact throughout_iff_along (fun _ _ _ h hs => h.opStep hs)
    (fun _ _ _ hopen h hs => heard_step hopen h hs) s.opened_open hstart

theorem moving_forgotten_at_target :
    ¬Throughout (opStep (.ticking 100 fun n => if n = 2 then some 105 else none)) NotForgotten
      Session.bench.opened
      [.start, .turn (statFrame 20 .off), .setPosition 1 50, .turn (statFrame 50 .inc)] := by
  decide

-- ---------------------------------------------------------------------------
-- The movement timeout
-- ---------------------------------------------------------------------------

def newEntries (w w' : World) : List Entry := w'.log.drop w.log.length

theorem newEntries_eq (h : w'.log = w.log ++ entries) : newEntries w w' = entries := by
  rw [newEntries, h, List.drop_left]

def Late (plat : Platform) (w : World) : Prop :=
  w.ctl = .looping ∧ w.ctx.running = true ∧ isCtlRunning w.ctx = true ∧
    plat.clock w.ticks - w.ctx.command.ts > max w.ctx.config.commandTimeout 500

instance (w : World) : Decidable (Late plat w) := inferInstanceAs (Decidable (_ ∧ _))

def StopsCommand (plat : Platform) (w : World) (result : ReadResult) : Prop :=
  let w' := ((threadTurn plat .ctl result).exec (turnBegins w)).2
  (∃ sent ∈ attempts (newEntries w w'), sent.cmd.IsOff) ∧ w'.ctx.command = .idle

instance (w : World) (result : ReadResult) : Decidable (StopsCommand plat w result) :=
  inferInstanceAs (Decidable (_ ∧ _))

def TimeoutEnforced (plat : Platform) (w : World) : Op → Prop
  | .turn result => Late plat w → StopsCommand plat w result
  | _ => True

instance (w : World) (op : Op) : Decidable (TimeoutEnforced plat w op) :=
  match op with
  | .turn _ => inferInstanceAs (Decidable (_ → _))
  | .setPosition .. | .stopMovement _ | .start => inferInstanceAs (Decidable True)

def HearsStatus (plat : Platform) (result : ReadResult) : Prop := (acceptedRead plat result).isSome

def HearsWhenLate (plat : Platform) (w : World) : Op → Prop
  | .turn result => Late plat w → HearsStatus plat result
  | _ => True

section
variable {plat : Platform} {w : World}

theorem late_not_awaiting (hl : Late plat w) (hn : w.ticks ≤ n) :
    500 < plat.clock n - w.ctx.command.ts ∧
      w.ctx.config.commandTimeout < plat.clock n - w.ctx.command.ts := by
  have hclock := plat.clock_mono _ _ hn
  obtain ⟨-, -, -, hlate⟩ := hl
  omega

theorem late_turnEnding (hl : Late plat w) (hs : heardStat plat (turnBegins w) result = some stat) :
    ∃ pursuit, turnEnding plat w result = some pursuit := by
  have hcalm := (calm_turnBegins w).trans (calm_applyStat stat _)
  have hspec := pursue_spec plat (applyStat stat (turnBegins w))
  have hticks : w.ticks ≤ (applyStat stat (turnBegins w)).ticks := by
    rw [applyStat_ticks]
    exact Nat.le_succ w.ticks
  cases hp : (pursue plat (applyStat stat (turnBegins w))).1 with
  | none =>
    simp only [hp] at hspec
    rcases hspec.2 with hidle | ⟨n, hn, hawait⟩
    · rw [hcalm.isCtlRunning, hl.2.2.1] at hidle
      cases hidle
    · -- the start-up phase is over
      have := (late_not_awaiting hl (Nat.le_trans hticks hn)).1
      simp only [awaitsMovement, hcalm.command, Bool.and_eq_true, decide_eq_true_eq] at hawait
      omega
  | some pursuit =>
    simp only [hp] at hspec
    obtain ⟨n, hn, hel⟩ := hspec.2.elapsed
    have hover : pursuit.elapsed > (applyStat stat (turnBegins w)).ctx.config.commandTimeout := by
      rw [hel, hcalm.command, hcalm.config]
      exact (late_not_awaiting hl (Nat.le_trans hticks hn)).2
    refine ⟨pursuit, ?_⟩
    simp only [turnEnding, hs, Option.bind_some, hp, Option.filter_some, endingOf, hover]
    split <;> simp

theorem heardStat_late (result : ReadResult) (hl : Late plat w) :
    heardStat plat (turnBegins w) result = acceptedRead plat result := by
  obtain ⟨-, hrun, hactive, -⟩ := hl
  have hsocket : w.ctx.socket.isSome = true := by
    simp only [isCtlRunning, Bool.and_eq_true] at hactive
    exact hactive.1.1.1
  simp [heardStat, turnBegins, hrun, hsocket]

theorem late_stops (hl : Late plat w) (hs : heardStat plat (turnBegins w) result = some stat) :
    StopsCommand plat w result := by
  obtain ⟨pursuit, hend⟩ := late_turnEnding hl hs
  obtain ⟨v, why, hcalm, hrun, hwhy, he⟩ := turn_ends .ctl hend
  have hsocket : v.ctx.socket.isSome = true := by
    simp only [isCtlRunning, Bool.and_eq_true] at hrun
    exact hrun.1.1.1
  obtain ⟨entries, u, hlog⟩ := pursueCommand_ends_log plat .ctl hwhy hsocket
  unfold StopsCommand
  rw [he]
  constructor
  · rw [hcalm.log, List.append_assoc] at hlog
    rw [newEntries_eq hlog]
    exact ⟨sentBy plat .off 0 u, by simp [attempts, sendEntry, Entry.sent?, Deed.sent?], rfl⟩
  · rw [(pursueCommand_ends plat .ctl hwhy hsocket).1]

theorem late_deaf (hl : Late plat w) (hs : heardStat plat (turnBegins w) result = none) :
    ¬StopsCommand plat w result := by
  rintro ⟨-, hidle⟩
  obtain ⟨events, he⟩ := exec_turn_deaf .ctl hs
  rw [he] at hidle
  obtain ⟨-, -, hactive, -⟩ := hl
  simp [isCtlRunning, show w.ctx.command = .idle from hidle, Command.idle] at hactive

theorem late_stops_iff (hl : Late plat w) :
    StopsCommand plat w result ↔ HearsStatus plat result := by
  have hheard := heardStat_late result hl
  unfold HearsStatus
  cases hs : acceptedRead plat result with
  | none => exact iff_of_false (late_deaf hl (hheard.trans hs)) (by simp)
  | some stat => exact iff_of_true (late_stops hl (hheard.trans hs)) rfl

end

/-- A late iteration stops its command exactly when its `read` brings an
accepted status frame, so the runs that enforce the timeout are those in
which every late iteration hears one. -/
theorem timeout_enforced_iff (plat : Platform) :
    (∀ w result, Late plat w → (StopsCommand plat w result ↔ HearsStatus plat result)) ∧
      ∀ w ops, Along (opStep plat) (TimeoutEnforced plat) w ops ↔
        Along (opStep plat) (HearsWhenLate plat) w ops := by
  refine ⟨fun w result hl => late_stops_iff hl, fun w ops => along_congr fun w op => ?_⟩
  cases op with
  | turn result => exact forall_congr' fun hl => late_stops_iff hl
  | setPosition | stopMovement | start => rfl

/-- The ECU falls silent while the motor moves. -/
theorem timeout_missed_without_frames :
    ¬Along (opStep (.ticking 20000 fun _ => none)) (TimeoutEnforced (.ticking 20000 fun _ => none))
      Session.bench.opened
      [.start, .turn (statFrame 20 .off), .setPosition 1 50, .turn (.error eagain)] := by
  decide

-- ---------------------------------------------------------------------------
-- The result of setting a position
-- ---------------------------------------------------------------------------

def Faithful (w : World) (result : Int × World) : Prop :=
  (result.1 = seatCtrlOk → ∃ sent ∈ (attempts (newEntries w result.2)).getLast?,
    sent.written = true ∧ sent.cmd.motor1ManualCmd = result.2.ctx.command.direction.code) ∧
  (result.1 ≠ seatCtrlOk →
    result.2.ctx.command = w.ctx.command ∨ result.2.ctx.command = .idle)

instance (w : World) (result : Int × World) : Decidable (Faithful w result) :=
  inferInstanceAs (Decidable (_ ∧ _))

/-- The request is refused, or its last write succeeds: the second one,
unless the seat already stands still at the position. A failed movement
does no harm only when it stores the command that was there before. -/
def Told (plat : Platform) (w : World) (desired : Int) : Prop :=
  Refused w desired ∨
  (w.ctx.motor1Pos : Int) = desired ∧ w.ctx.motor1MovState = MotorDirection.off.code ∧
    WriteOk plat w 0 ∨
  (w.ctx.motor1Pos : Int) = desired ∧ w.ctx.motor1MovState ≠ MotorDirection.off.code ∧
    WriteOk plat w 1 ∨
  (w.ctx.motor1Pos : Int) ≠ desired ∧ (WriteOk plat w 1 ∨
    w.ctx.command = ⟨toUint8 desired, directionTo w.ctx.motor1Pos desired, plat.clock w.ticks⟩)

section
variable {plat : Platform} {me : Thread} {w : World}

theorem faithful_ok {result : Int × World} (hrc : result.1 = seatCtrlOk)
    (h : (attempts (newEntries w result.2)).getLast? = some sent) : Faithful w result ↔
      sent.written = true ∧ sent.cmd.motor1ManualCmd = result.2.ctx.command.direction.code := by
  simp [Faithful, hrc, h]

theorem faithful_err {result : Int × World} (hrc : result.1 ≠ seatCtrlOk) : Faithful w result ↔
    result.2.ctx.command = w.ctx.command ∨ result.2.ctx.command = .idle := by
  simp [Faithful, hrc]

theorem deciding_log (hs : w.ctx.socket.isSome) : (deciding plat me w).log =
    w.log ++ [sendEntry plat me .off 0 w, ⟨me, .command .idle⟩, ⟨me, .current w.ctx.motor1Pos⟩] := by
  simp [deciding, World.record, stopMovement_log hs]

theorem faithful_there (hs : w.ctx.socket.isSome) (hpos : (w.ctx.motor1Pos : Int) = desired)
    (hmov : w.ctx.motor1MovState = MotorDirection.off.code) :
    Faithful w ((commandPosition plat me desired).exec w) ↔ WriteOk plat w 0 := by
  rw [exec_commandPosition_there hpos hmov]
  have hlog : ((deciding plat me w).setCommand me .idle).log = w.log ++
      [sendEntry plat me .off 0 w, ⟨me, .command .idle⟩, ⟨me, .current w.ctx.motor1Pos⟩,
        ⟨me, .command .idle⟩] := by
    simp [World.setCommand, World.record, deciding_log hs]
  have hidle : ((deciding plat me w).setCommand me .idle).ctx.command = .idle := rfl
  generalize (deciding plat me w).setCommand me .idle = w' at hlog hidle
  have hsent : (attempts (newEntries w w')).getLast? = some (sentBy plat .off 0 w) := by
    rw [newEntries_eq hlog]
    rfl
  rw [faithful_ok rfl hsent]
  simp [sentBy, WriteOk, motor1Cmd, hidle, Command.idle]

theorem faithful_moving (hs : w.ctx.socket.isSome) (hpos : (w.ctx.motor1Pos : Int) = desired)
    (hmov : w.ctx.motor1MovState ≠ MotorDirection.off.code) :
    Faithful w ((commandPosition plat me desired).exec w) ↔ WriteOk plat w 1 := by
  rw [exec_commandPosition_moving hpos hmov]
  have hlog : ((seatctrlStopMovement plat me).exec (deciding plat me w)).2.log = w.log ++
      [sendEntry plat me .off 0 w, ⟨me, .command .idle⟩, ⟨me, .current w.ctx.motor1Pos⟩,
        sendEntry plat me .off 0 (deciding plat me w), ⟨me, .command .idle⟩] := by
    rw [stopMovement_log (by simpa using hs), deciding_log hs]
    simp
  generalize hend : ((seatctrlStopMovement plat me).exec (deciding plat me w)).2 = w' at hlog
  have hsent : (attempts (newEntries w w')).getLast? =
      some (sentBy plat .off 0 (deciding plat me w)) := by
    rw [newEntries_eq hlog]
    rfl
  rw [faithful_ok rfl hsent, ← hend]
  simp [sentBy, WriteOk, motor1Cmd, deciding_writes hs, Command.idle]

theorem commanding_socket (hs : w.ctx.socket.isSome) :
    (commanding plat me w desired).ctx.socket.isSome := by
  simpa [commanding, World.setCommand, World.record] using hs

theorem commanding_log (hs : w.ctx.socket.isSome) : (commanding plat me w desired).log = w.log ++
    [sendEntry plat me .off 0 w, ⟨me, .command .idle⟩, ⟨me, .current w.ctx.motor1Pos⟩,
      ⟨me, .command (commandFor plat w desired)⟩] := by
  simp [commanding, World.setCommand, World.record, deciding_log hs]

theorem commanding_writes (hs : w.ctx.socket.isSome) :
    (commanding plat me w desired).writes = w.writes + 1 := deciding_writes hs

theorem faithful_sent (hs : w.ctx.socket.isSome) (hw : plat.write (w.writes + 1) = none) :
    Faithful w ((seatctrlSendCmd1 plat me (directionTo w.ctx.motor1Pos desired) rpm).exec
      (commanding plat me w desired)) := by
  have hs' : (commanding plat me w desired).ctx.socket.isSome := commanding_socket hs
  have hwrites : (commanding plat me w desired).writes = w.writes + 1 := commanding_writes hs
  have hsent : (attempts (newEntries w ((seatctrlSendCmd1 plat me (directionTo w.ctx.motor1Pos desired)
      rpm).exec (commanding plat me w desired)).2)).getLast? =
        some (sentBy plat (directionTo w.ctx.motor1Pos desired) rpm (commanding plat me w desired)) := by
    rw [newEntries_eq (by rw [sendCmd1_log hs', commanding_log hs, List.append_assoc])]
    rfl
  have hrc : ((seatctrlSendCmd1 plat me (directionTo w.ctx.motor1Pos desired) rpm).exec
      (commanding plat me w desired)).1 = seatCtrlOk := by
    rw [sendCmd1_rc hs', hwrites, hw]
    rfl
  refine (faithful_ok hrc hsent).mpr ⟨by simp [sentBy, hwrites, hw], ?_⟩
  rw [sendCmd1_ctx]
  rfl

theorem faithful_away (hs : w.ctx.socket.isSome) (h0 : 0 ≤ desired) (h100 : desired ≤ 100)
    (hpos : (w.ctx.motor1Pos : Int) ≠ desired) :
    Faithful w ((commandPosition plat me desired).exec w) ↔
      WriteOk plat w 1 ∨ w.ctx.command = commandFor plat w desired := by
  have hs' : (commanding plat me w desired).ctx.socket.isSome := commanding_socket hs
  have hwrites : (commanding plat me w desired).writes = w.writes + 1 := commanding_writes hs
  have hcommand : (commanding plat me w desired).ctx.command = commandFor plat w desired := rfl
  rw [exec_commandPosition_away hpos]
  unfold WriteOk
  cases hw : plat.write (w.writes + 1) with
  | none => exact iff_of_true (faithful_sent hs hw) (.inl rfl)
  | some err =>
    have hrc : ((seatctrlSendCmd1 plat me (directionTo w.ctx.motor1Pos desired)
        w.ctx.config.motorRpm).exec (commanding plat me w desired)).1 ≠ seatCtrlOk := by
      rw [sendCmd1_rc hs', hwrites, hw]
      simp [seatCtrlErrCanIo, seatCtrlOk]
    have hidle : commandFor plat w desired ≠ .idle := by
      intro h
      have hts := (commandFor_active plat w h0 h100).2.2
      simp [h, Command.idle] at hts
    rw [faithful_err hrc, sendCmd1_ctx, hcommand]
    simp [hidle, eq_comm]

theorem faithful_setPosition (hopen : Open w) :
    Faithful w ((seatctrlSetPosition plat me desired).exec w) ↔ Told plat w desired := by
  unfold Told
  by_cases hr : Refused w desired
  · obtain ⟨rc, hrc, he⟩ := exec_setPosition_refused plat me hr
    rw [he]
    exact iff_of_true ((faithful_err hrc).mpr (.inl rfl)) (.inl hr)
  · rw [exec_setPosition_accepted hr]
    by_cases hpos : (w.ctx.motor1Pos : Int) = desired
    · by_cases hmov : w.ctx.motor1MovState = MotorDirection.off.code
      · rw [faithful_there hopen.socket hpos hmov]
        simp [hr, hpos, hmov]
      · rw [faithful_moving hopen.socket hpos hmov]
        simp [hr, hpos, hmov]
    · have hrange := hr
      simp only [Refused, not_or, Int.not_lt] at hrange
      rw [faithful_away hopen.socket hrange.2.1 (by omega) hpos]
      simp [hr, hpos, commandFor]

end

/-- In every state of every run, for every request. -/
theorem set_position_faithful_iff (plat : Platform) (s : Session) (ops : List Op) :
    Throughout (opStep plat) (fun w => ∀ n desired,
      Faithful w ((seatctrlSetPosition plat (.caller n) desired).exec w) ↔ Told plat w desired)
      s.opened ops := by
  have h : Throughout (opStep plat) Open s.opened ops :=
    throughout_of_keeps (fun _ _ _ h hs => h.opStep hs) s.opened_open
  exact h.mono fun w hopen n desired => faithful_setPosition hopen

/-- The movement frame is lost: the caller gets an error and the command
stays active. -/
theorem set_position_error_leaves_command :
    ¬Throughout (opStep (.ticking 100 fun n => if n = 1 then some 105 else none)) (fun w =>
      Faithful w ((seatctrlSetPosition (.ticking 100 fun n => if n = 1 then some 105 else none)
        (.caller 1) 50).exec w)) Session.bench.opened [.start, .turn (statFrame 20 .off)] := by
  decide

end KuksaServices.Seat
