import KuksaServices.Seat.Outcomes

/-!
# Iterations of the control loop

An iteration takes one status frame: `handle_secu_stat`, then
`seatctrl_control_loop` when the frame is accepted. What the control loop
does is a function of the context, the two cached values and one reading of
the clock (`pursuitOf`), and its effect on bus, context and caches is said
once (`controlLoop_sends`, `controlLoop_ctx`, `controlLoop_caches`).

From this: which iteration ends a command, whatever was cached or sent again
before (`command_ends_at_first`); when a movement is sent again although the
seat is not short of its target (`resends_towards_iff`); and when the caches
that an earlier command left show in the frames of a later one
(`same_frames_iff`).
-/

namespace KuksaServices.Seat

open Atomic

-- ---------------------------------------------------------------------------
-- The look of the control loop
-- ---------------------------------------------------------------------------

def lookTime (plat : Platform) (w : World) : Int := plat.clock (trackLearnedMode plat w).ticks

def motorChanged (statics : Statics) (ctx : Context) : Bool :=
  statics.lastCtlPos ≠ ctx.motor1Pos ∨ statics.lastCtlDir ≠ ctx.motor1MovState

def pursuitOf (statics : Statics) (ctx : Context) (now : Int) : Option Pursuit :=
  if isCtlRunning ctx && !awaitsMovement ctx (now - ctx.command.ts) then
    some ⟨now - ctx.command.ts, motorChanged statics ctx, motorChanged statics ctx && stoppedShort ctx⟩
  else none

section
variable {plat : Platform} {me : Thread} {v w : World}

theorem pursue_eq : (pursue plat v).1 = pursuitOf v.statics v.ctx (lookTime plat v) := by
  have hl : Looked v (trackLearnedMode plat v) := trackLearnedMode_looked
  unfold pursue pursuitOf lookTime motorChanged
  generalize trackLearnedMode plat v = u at hl
  simp only [World.getTs, hl.ctx, hl.lastCtlPos, hl.lastCtlDir]
  cases isCtlRunning v.ctx <;> cases awaitsMovement v.ctx (plat.clock u.ticks - v.ctx.command.ts) <;>
    simp

theorem pursuitOf_some (h : pursuitOf statics ctx now = some pursuit) :
    isCtlRunning ctx = true ∧ awaitsMovement ctx (now - ctx.command.ts) = false ∧
      pursuit = ⟨now - ctx.command.ts, motorChanged statics ctx,
        motorChanged statics ctx && stoppedShort ctx⟩ := by
  obtain ⟨hc, h⟩ := Option.ite_none_right_eq_some.mp h
  rw [Bool.and_eq_true, Bool.not_eq_true'] at hc
  exact ⟨hc.1, hc.2, (Option.some.inj h).symm⟩

-- ---------------------------------------------------------------------------
-- What the control loop does
-- ---------------------------------------------------------------------------

def pursuitSends (ctx : Context) (pursuit : Pursuit) : List (MotorDirection × Int) :=
  (if pursuit.resend then [(.off, 0), (ctx.command.direction, ctx.config.motorRpm)] else []) ++
    if (endingOf pursuit.elapsed ctx).isSome then [(.off, 0)] else []

def sentSince (w w' : World) : List Sent := attempts (w'.log.drop w.log.length)

theorem sentSince_of_log (h : w'.log = w.log ++ entries) : sentSince w w' = attempts entries := by
  simp [sentSince, h]

theorem sentSince_of_log_eq (h : w'.log = w.log) : sentSince w w' = [] := by
  simp [sentSince, h, attempts]

def Carry (plat : Platform) (sends : List (MotorDirection × Int)) (sents : List Sent) : Prop :=
  sents.map (fun s => (s.cmd, s.frame)) =
    sends.map fun s => (motor1Cmd s.1 s.2, cmdFrame plat s.1 s.2)

theorem isSome_of_running (h : isCtlRunning ctx = true) : ctx.socket.isSome := by
  simp only [isCtlRunning, Bool.and_eq_true] at h
  exact h.1.1.1

theorem resendEntries_carry (plat : Platform) (me : Thread) (pursuit : Pursuit) (w : World) :
    Carry plat (if pursuit.resend then [(.off, 0), (w.ctx.command.direction, w.ctx.config.motorRpm)] else [])
      (attempts (resendEntries plat me pursuit w)) := by
  unfold resendEntries
  split <;> rfl

theorem checkCommand_sends (plat : Platform) (me : Thread) (pursuit : Pursuit)
    (hs : w.ctx.socket.isSome) : ∃ entries,
    ((checkCommand plat me pursuit).exec w).2.log = w.log ++ entries ∧
      Carry plat (if (endingOf pursuit.elapsed w.ctx).isSome then [(.off, 0)] else [])
        (attempts entries) := by
  cases he : endingOf pursuit.elapsed w.ctx with
  | none =>
    rw [exec_checkCommand_goes he, (calm_cacheMotorState pursuit w).log]
    exact ⟨[], by simp, rfl⟩
  | some why =>
    rw [exec_checkCommand_ends he]
    simp only [invalidateCtlCache]
    rw [stopMovement_log (by simpa using hs), ending_log, List.append_assoc]
    exact ⟨_, rfl, rfl⟩

theorem Carry.append (h : Carry plat as xs) (h' : Carry plat bs ys) :
    Carry plat (as ++ bs) (xs ++ ys) := by
  unfold Carry at *
  simp [h, h']

theorem attempts_append (a b : List Entry) : attempts (a ++ b) = attempts a ++ attempts b := by
  simp [attempts]

theorem controlLoop_sends (plat : Platform) (me : Thread) (v : World) :
    Carry plat (((pursue plat v).1.map (pursuitSends v.ctx)).getD [])
      (sentSince v ((seatctrlControlLoop plat me).exec v).2) := by
  have hspec := pursue_spec plat v
  cases hp : (pursue plat v).1 with
  | none =>
    rw [exec_controlLoop_idle hp, sentSince_of_log_eq hspec.1.log]
    rfl
  | some pursuit =>
    simp only [hp] at hspec
    have hs : (pursue plat v).2.ctx.socket.isSome := hspec.1.ctx ▸ isSome_of_running hspec.2.running
    have hxs := resent_log plat me pursuit hs
    have hx := resendEntries_carry plat me pursuit (pursue plat v).2
    obtain ⟨ys, hys, hy⟩ := checkCommand_sends plat me pursuit
      (w := resent plat me pursuit (pursue plat v).2) (by simpa using hs)
    have hlog : ((seatctrlControlLoop plat me).exec v).2.log =
        v.log ++ (resendEntries plat me pursuit (pursue plat v).2 ++ ys) := by
      rw [exec_controlLoop_pursues hp, exec_pursueCommand, hys, hxs, hspec.1.log, List.append_assoc]
    rw [sentSince_of_log hlog, attempts_append]
    rw [hspec.1.ctx] at hx
    rw [resent_ctx, hspec.1.ctx] at hy
    exact hx.append hy

theorem controlLoop_ctx (plat : Platform) (me : Thread) (v : World) :
    ((seatctrlControlLoop plat me).exec v).2.ctx =
      if ((pursue plat v).1.any fun pursuit => (endingOf pursuit.elapsed v.ctx).isSome) then
        { v.ctx with command := .idle }
      else v.ctx := by
  have hspec := pursue_spec plat v
  cases hp : (pursue plat v).1 with
  | none =>
    rw [exec_controlLoop_idle hp]
    simpa using hspec.1.ctx
  | some pursuit =>
    simp only [hp] at hspec
    rw [exec_controlLoop_pursues hp]
    cases he : endingOf pursuit.elapsed v.ctx with
    | none =>
      rw [pursueCommand_goes plat me (by rw [hspec.1.ctx]; exact he)]
      simpa [he] using hspec.1.ctx
    | some why =>
      have hend : endingOf pursuit.elapsed (pursue plat v).2.ctx = some why := by
        rw [hspec.1.ctx]
        exact he
      rw [(pursueCommand_ends plat me hend (hspec.1.ctx ▸ isSome_of_running hspec.2.running)).1,
        hspec.1.ctx]
      simp [he]

@[simp] theorem eventCb_statics : (w.eventCb event value).statics = w.statics := by
  unfold World.eventCb
  split <;> rfl

@[simp] theorem sendCmd1_statics :
    ((seatctrlSendCmd1 plat me dir rpm).exec w).2.statics = w.statics := by
  cases hs : w.ctx.socket with
  | none => simp [exec_sendCmd1_closed hs]
  | some fd =>
    rw [exec_sendCmd1 (by simp [hs])]
    cases plat.write w.writes <;> simp [afterWrite, World.record]

@[simp] theorem resent_statics : (resent plat me pursuit w).statics = w.statics := by
  unfold resent
  split
  · rw [exec_resendCommand]
    simp
  · rfl

def World.caches (w : World) : Nat × Nat := (w.statics.lastCtlPos, w.statics.lastCtlDir)

theorem motorChanged_congr (h : w.caches = v.caches) (ctx : Context) :
    motorChanged w.statics ctx = motorChanged v.statics ctx := by
  obtain ⟨hpos, hdir⟩ := Prod.mk.inj h
  simp only [motorChanged, hpos, hdir]

/-- After an iteration that looks after a command, the caches hold the motor
state, or nothing when the command has ended. -/
theorem controlLoop_caches (plat : Platform) (me : Thread) (v : World) :
    ((seatctrlControlLoop plat me).exec v).2.caches = match (pursue plat v).1 with
      | none => v.caches
      | some pursuit =>
        if (endingOf pursuit.elapsed v.ctx).isSome then (motorPosInvalid, 0)
        else (v.ctx.motor1Pos, v.ctx.motor1MovState) := by
  have hspec := pursue_spec plat v
  cases hp : (pursue plat v).1 with
  | none =>
    rw [exec_controlLoop_idle hp]
    simp only [World.caches, hspec.1.lastCtlPos, hspec.1.lastCtlDir]
  | some pursuit =>
    simp only [hp] at hspec
    rw [exec_controlLoop_pursues hp, exec_pursueCommand]
    have hctx : (resent plat me pursuit (pursue plat v).2).ctx = v.ctx := by
      rw [resent_ctx, hspec.1.ctx]
    cases he : endingOf pursuit.elapsed v.ctx with
    | some why =>
      rw [exec_checkCommand_ends (by rw [hctx]; exact he)]
      simp [he, World.caches, invalidateCtlCache]
    | none =>
      rw [exec_checkCommand_goes (by rw [hctx]; exact he)]
      have hch : pursuit.changed = motorChanged v.statics v.ctx := by
        rw [pursue_eq] at hp
        rw [(pursuitOf_some hp).2.2]
      cases hc : motorChanged v.statics v.ctx with
      | true => simp [cacheMotorState, hch, hc, World.caches, hspec.1.ctx, he]
      | false =>
        -- nothing is stored, and the caches hold the motor state already
        simp only [motorChanged, decide_eq_false_iff_not, not_or, not_not] at hc
        simp [cacheMotorState, hch, motorChanged, World.caches, hspec.1.lastCtlPos,
          hspec.1.lastCtlDir, hc, he]

-- ---------------------------------------------------------------------------
-- Iterations
-- ---------------------------------------------------------------------------

def iteration (plat : Platform) (w : World) (frame : CanFrame) : World :=
  ((threadBody plat .ctl (.frame frame)).exec w).2

def iterationStep (plat : Platform) (w : World) (frame : CanFrame) : Option World :=
  (acceptedStat plat frame).map fun _ => iteration plat w frame

theorem iteration_eq (w : World) (h : acceptedStat plat frame = some stat) :
    iteration plat w frame = ((seatctrlControlLoop plat .ctl).exec (applyStat stat w)).2 :=
  exec_body_heard (show acceptedRead plat (.frame frame) = some stat from h)

theorem iterationStep_some (h : iterationStep plat w frame = some w') :
    ∃ stat, acceptedStat plat frame = some stat ∧
      w' = ((seatctrlControlLoop plat .ctl).exec (applyStat stat w)).2 := by
  obtain ⟨stat, hstat, rfl⟩ := Option.map_eq_some_iff.mp h
  exact ⟨stat, hstat, iteration_eq w hstat⟩

@[simp] theorem applyStat_statics : (applyStat stat w).statics = w.statics := by
  unfold applyStat World.eventCb
  split_ifs <;> rfl

theorem isCtlRunning_applyStat (stat : Secu1Stat) (w : World) :
    isCtlRunning (applyStat stat w).ctx = isCtlRunning w.ctx :=
  (calm_applyStat stat w).isCtlRunning

theorem sentSince_applyStat : sentSince (applyStat stat w) w' = sentSince w w' := by
  simp [sentSince, (calm_applyStat stat w).log]

-- ---------------------------------------------------------------------------
-- The end of a command
-- ---------------------------------------------------------------------------

/-- A status at `now` ends the command `c`: the command is not waiting for
its motor to start, and the target is reached or the time is over. -/
def EndsCommand (c : Command) (timeout : Int) (stat : Secu1Stat) (now : Int) : Prop :=
  ¬(now - c.ts < 500 ∧ stat.motor1MovState.toNat = MotorDirection.off.code ∧
      stat.motor1Pos.toNat ≠ c.position) ∧
    (stat.motor1Pos.toNat ≠ motorPosInvalid ∧
        (c.direction = .inc ∧ c.position ≤ stat.motor1Pos.toNat ∨
          c.direction = .dec ∧ stat.motor1Pos.toNat ≤ c.position) ∨
      now - c.ts > timeout)

instance (c : Command) (timeout : Int) (stat : Secu1Stat) (now : Int) :
    Decidable (EndsCommand c timeout stat now) :=
  inferInstanceAs (Decidable (_ ∧ _))

def EndsAt (plat : Platform) (c : Command) (w : World) (frame : CanFrame) : Prop :=
  ∃ stat, acceptedStat plat frame = some stat ∧
    EndsCommand c w.ctx.config.commandTimeout stat (lookTime plat (applyStat stat w))

theorem pursuitOf_ends_iff (statics : Statics) (now : Int) (hrun : isCtlRunning ctx = true) :
    ((pursuitOf statics ctx now).any fun pursuit => (endingOf pursuit.elapsed ctx).isSome) = true ↔
      awaitsMovement ctx (now - ctx.command.ts) = false ∧
        (reachedTarget ctx = true ∨ now - ctx.command.ts > ctx.config.commandTimeout) := by
  unfold pursuitOf endingOf
  cases awaitsMovement ctx (now - ctx.command.ts) with
  | true => simp
  | false =>
    cases reachedTarget ctx with
    | true => simp [hrun]
    | false => by_cases ht : now - ctx.command.ts > ctx.config.commandTimeout <;> simp [hrun, ht]

theorem endsCommand_iff (w : World) (stat : Secu1Stat) (now : Int) :
    EndsCommand w.ctx.command w.ctx.config.commandTimeout stat now ↔
      awaitsMovement (applyStat stat w).ctx (now - w.ctx.command.ts) = false ∧
        (reachedTarget (applyStat stat w).ctx = true ∨
          now - w.ctx.command.ts > w.ctx.config.commandTimeout) := by
  unfold EndsCommand awaitsMovement reachedTarget
  rw [applyStat_ctx]
  simp only [Bool.and_eq_false_iff, Bool.and_eq_true, Bool.or_eq_true, decide_eq_false_iff_not,
    decide_eq_true_eq, bne_iff_ne, beq_iff_eq, beq_eq_false_iff_ne, bne_eq_false_iff_eq, ge_iff_le]
  tauto

theorem iteration_spec (hrun : isCtlRunning w.ctx = true)
    (h : iterationStep plat w frame = some w') :
    (EndsAt plat w.ctx.command w frame →
      w'.ctx.command = .idle ∧
        ∃ sent, (sentSince w w').getLast? = some sent ∧ sent.cmd = motor1Cmd .off 0) ∧
    (¬EndsAt plat w.ctx.command w frame →
      w'.ctx.command = w.ctx.command ∧ w'.ctx.config = w.ctx.config ∧ isCtlRunning w'.ctx = true) := by
  obtain ⟨stat, hstat, rfl⟩ := iterationStep_some h
  have hrun' := (isCtlRunning_applyStat stat w).trans hrun
  have hctx := controlLoop_ctx plat .ctl (applyStat stat w)
  have hends := pursuitOf_ends_iff (applyStat stat w).statics (lookTime plat (applyStat stat w)) hrun'
  have hc : (applyStat stat w).ctx.command = w.ctx.command := (calm_applyStat stat w).command
  rw [hc, show (applyStat stat w).ctx.config = w.ctx.config from (calm_applyStat stat w).config,
    ← endsCommand_iff] at hends
  rw [pursue_eq] at hctx
  constructor
  · rintro ⟨stat', hstat', he⟩
    obtain rfl := Option.some.inj (hstat.symm.trans hstat')
    have hany := hends.mpr he
    rw [if_pos hany] at hctx
    refine ⟨by rw [hctx], ?_⟩
    have hsends := controlLoop_sends plat .ctl (applyStat stat w)
    obtain ⟨pursuit, hp, hend⟩ := (Option.any_eq_true _ _).mp hany
    rw [pursue_eq, hp, sentSince_applyStat, Option.map_some, Option.getD_some, pursuitSends,
      if_pos hend] at hsends
    have hlast := congrArg List.getLast? hsends
    simp only [List.getLast?_map, List.map_append, List.map_cons, List.map_nil,
      List.getLast?_append, List.getLast?_singleton, Option.some_or, Option.map_eq_some_iff] at hlast
    obtain ⟨sent, hsent, heq⟩ := hlast
    exact ⟨sent, hsent, (Prod.mk.inj heq).1⟩
  · intro he
    have hany := mt hends.mp fun hec => he ⟨stat, hstat, hec⟩
    rw [if_neg hany] at hctx
    rw [hctx]
    exact ⟨hc, (calm_applyStat stat w).config, hrun'⟩

/-- From a context with an active command, over every sequence of accepted
frames: as long as no iteration ends it the command stays as it is, and the
first that does leaves the context idle with a motor-off frame sent. -/
theorem command_ends_at_first (plat : Platform) (w : World) (hrun : isCtlRunning w.ctx = true)
    (frames : List CanFrame)
    (hgoes : Along (iterationStep plat) (fun v f => ¬EndsAt plat w.ctx.command v f) w frames) :
    Throughout (iterationStep plat)
        (fun v => v.ctx.command = w.ctx.command ∧ isCtlRunning v.ctx = true) w frames ∧
      ∀ v, run (iterationStep plat) w frames = some v →
        ∀ frame v', iterationStep plat v frame = some v' → EndsAt plat w.ctx.command v frame →
          v'.ctx.command = .idle ∧
            ∃ sent, (sentSince v v').getLast? = some sent ∧ sent.cmd = motor1Cmd .off 0 := by
  have hkeeps : ∀ v f v', (v.ctx.command = w.ctx.command ∧ isCtlRunning v.ctx = true) →
      ¬EndsAt plat w.ctx.command v f → iterationStep plat v f = some v' →
      v'.ctx.command = w.ctx.command ∧ isCtlRunning v'.ctx = true := by
    rintro v f v' ⟨hc, hr⟩ hne hs
    rw [← hc] at hne
    obtain ⟨hc', -, hr'⟩ := (iteration_spec hr hs).2 hne
    exact ⟨hc'.trans hc, hr'⟩
  have hall := hgoes.throughout hkeeps ⟨rfl, hrun⟩
  refine ⟨hall, fun v hv frame v' hs he => ?_⟩
  obtain ⟨hc, hr⟩ := hall.last hv
  exact (iteration_spec hr hs).1 (hc.symm ▸ he)

end

def statCanFrame (pos : UInt8) (mov : MotorDirection) : CanFrame :=
  ⟨secu1StatFrameId, 8,
    ((Vector.replicate 8 0).setIfInBounds 0 (mov.code.toUInt8 + 4)).setIfInBounds 2 pos⟩

instance (plat : Platform) (c : Command) (w : World) (frame : CanFrame) :
    Decidable (EndsAt plat c w frame) :=
  decidable_of_iff ((acceptedStat plat frame).any fun stat =>
      decide (EndsCommand c w.ctx.config.commandTimeout stat (lookTime plat (applyStat stat w)))) (by
    simp [EndsAt, Option.any_eq_true])

def Session.bench50 : World :=
  (run (opStep (.ticking 300 fun _ => none)) Session.bench.opened
    [.start, .turn (statFrame 20 .off), .setPosition 1 50]).getD Session.bench.opened

theorem command_ends_at_first_bench :
    ∃ v v', isCtlRunning Session.bench50.ctx = true ∧
      run (iterationStep (.ticking 300 fun _ => none)) Session.bench50
        [statCanFrame 20 .off, statCanFrame 20 .off] = some v ∧
      iterationStep (.ticking 300 fun _ => none) v (statCanFrame 52 .inc) = some v' ∧
      EndsAt (.ticking 300 fun _ => none) Session.bench50.ctx.command v (statCanFrame 52 .inc) ∧
      v'.ctx.command = .idle := by
  refine ⟨_, _, by decide, rfl, rfl, by decide, ?_⟩
  exact ((command_ends_at_first (.ticking 300 fun _ => none) Session.bench50 (by decide)
    [statCanFrame 20 .off, statCanFrame 20 .off] (by decide)).2 _ rfl (statCanFrame 52 .inc) _ rfl
      (by decide)).1

section
variable {plat : Platform} {me : Thread} {v w : World}

-- ---------------------------------------------------------------------------
-- Sending a movement again
-- ---------------------------------------------------------------------------

/-- The frame `cmd` moves the seat from `pos` towards `target`, if it moves it
at all. -/
def Secu1Cmd1.Towards (cmd : Secu1Cmd1) (pos target : Nat) : Prop :=
  (cmd.motor1ManualCmd = MotorDirection.inc.code → pos ≤ 100 ∧ pos < target) ∧
    (cmd.motor1ManualCmd = MotorDirection.dec.code → pos ≤ 100 ∧ target < pos)

instance (cmd : Secu1Cmd1) (pos target : Nat) : Decidable (cmd.Towards pos target) :=
  inferInstanceAs (Decidable (_ ∧ _))

def ResendsTowards (plat : Platform) (w : World) (frame : CanFrame) (stat : Secu1Stat) : Prop :=
  ∀ sent ∈ sentSince w (iteration plat w frame),
    sent.cmd.Towards stat.motor1Pos.toNat w.ctx.command.position

instance (plat : Platform) (w : World) (frame : CanFrame) (stat : Secu1Stat) :
    Decidable (ResendsTowards plat w frame stat) :=
  inferInstanceAs (Decidable (∀ _ ∈ _, _))

/-- After the first 500 ms the motor is reported off, at an unknown position
or past the target, and not as it was cached. -/
def StoppedAstray (plat : Platform) (w : World) (stat : Secu1Stat) : Prop :=
  500 ≤ lookTime plat (applyStat stat w) - w.ctx.command.ts ∧
    stat.motor1MovState.toNat = MotorDirection.off.code ∧
    (w.statics.lastCtlPos ≠ stat.motor1Pos.toNat ∨ w.statics.lastCtlDir ≠ MotorDirection.off.code) ∧
    (stat.motor1Pos.toNat = motorPosInvalid ∨
      w.ctx.command.direction = .inc ∧ w.ctx.command.position < stat.motor1Pos.toNat ∨
      w.ctx.command.direction = .dec ∧ stat.motor1Pos.toNat < w.ctx.command.position)

theorem Carry.cmds (h : Carry plat sends sents) :
    sents.map (·.cmd) = sends.map fun s => motor1Cmd s.1 s.2 := by
  simpa [Function.comp_def] using congrArg (List.map Prod.fst) h

theorem Carry.forall_cmd (h : Carry plat sends sents) (P : Secu1Cmd1 → Prop) :
    (∀ sent ∈ sents, P sent.cmd) ↔ ∀ s ∈ sends, P (motor1Cmd s.1 s.2) := by
  have hsents : (∀ cmd ∈ sents.map (·.cmd), P cmd) ↔ ∀ sent ∈ sents, P sent.cmd :=
    List.forall_mem_map
  rw [← hsents, h.cmds, List.forall_mem_map]

theorem towards_off (pos target : Nat) : (motor1Cmd .off 0).Towards pos target := by
  simp [Secu1Cmd1.Towards, motor1Cmd, MotorDirection.code]

theorem sends_towards_iff (pursuit : Option Pursuit) (ctx : Context) (pos target : Nat) :
    (∀ s ∈ (pursuit.map (pursuitSends ctx)).getD [], (motor1Cmd s.1 s.2).Towards pos target) ↔
      ((∃ p, pursuit = some p ∧ p.resend = true) →
        (motor1Cmd ctx.command.direction ctx.config.motorRpm).Towards pos target) := by
  cases pursuit with
  | none => simp
  | some p =>
    simp only [Option.map_some, Option.getD_some, pursuitSends]
    cases hr : p.resend <;> cases (endingOf p.elapsed ctx).isSome <;> simp [towards_off, hr]

theorem pursuitOf_resends_iff (hrun : isCtlRunning ctx = true) :
    (∃ pursuit, pursuitOf statics ctx now = some pursuit ∧ pursuit.resend = true) ↔
      500 ≤ now - ctx.command.ts ∧ motorChanged statics ctx = true ∧ stoppedShort ctx = true := by
  have hshort : stoppedShort ctx = true → (awaitsMovement ctx (now - ctx.command.ts) = false ↔
      500 ≤ now - ctx.command.ts) := by
    intro h
    simp only [stoppedShort, Bool.and_eq_true] at h
    simp [awaitsMovement, h.1.2, h.2]
  constructor
  · rintro ⟨pursuit, hp, hr⟩
    obtain ⟨-, haw, rfl⟩ := pursuitOf_some hp
    rw [Bool.and_eq_true] at hr
    exact ⟨(hshort hr.2).mp haw, hr⟩
  · rintro ⟨hel, hch, hst⟩
    exact ⟨⟨_, _, _⟩, by simp only [pursuitOf, hrun, (hshort hst).mpr hel]; rfl, by simp [hch, hst]⟩

theorem stoppedShort_applyStat (ha : w.ctx.command.Active) :
    stoppedShort (applyStat stat w).ctx = true ↔
      stat.motor1MovState.toNat = MotorDirection.off.code ∧
        stat.motor1Pos.toNat ≠ w.ctx.command.position := by
  have hdir : w.ctx.command.direction.code ≠ MotorDirection.off.code := by
    rcases ha.2.1 with h | h <;> simp [h, MotorDirection.code]
  unfold stoppedShort
  rw [applyStat_ctx]
  simp only [Bool.and_eq_true, bne_iff_ne, beq_iff_eq]
  constructor
  · rintro ⟨⟨-, hpos⟩, hoff⟩
    exact ⟨hoff, hpos⟩
  · rintro ⟨hoff, hpos⟩
    exact ⟨⟨by rw [hoff]; exact hdir.symm, hpos⟩, hoff⟩

theorem motorChanged_applyStat :
    motorChanged (applyStat stat w).statics (applyStat stat w).ctx = true ↔
      w.statics.lastCtlPos ≠ stat.motor1Pos.toNat ∨ w.statics.lastCtlDir ≠ stat.motor1MovState.toNat := by
  rw [applyStat_statics, applyStat_ctx]
  simp [motorChanged]

/-- A position other than the target is towards it from the command's side,
or the position is unknown or past it. -/
theorem towards_iff (ha : w.ctx.command.Active)
    (hpos : pos ≤ 100 ∨ pos = motorPosInvalid) (hne : pos ≠ w.ctx.command.position) :
    (motor1Cmd w.ctx.command.direction rpm).Towards pos w.ctx.command.position ↔
      ¬(pos = motorPosInvalid ∨
        w.ctx.command.direction = .inc ∧ w.ctx.command.position < pos ∨
        w.ctx.command.direction = .dec ∧ pos < w.ctx.command.position) := by
  obtain ⟨h100, hdir, -⟩ := ha
  simp only [motorPosInvalid] at hpos ⊢
  rcases hdir with hd | hd
  · simp [hd, Secu1Cmd1.Towards, motor1Cmd, MotorDirection.code]
    omega
  · simp [hd, Secu1Cmd1.Towards, motor1Cmd, MotorDirection.code]
    omega

theorem resendsTowards_iff (hs : w.ctx.socket.isSome) (ha : w.ctx.command.Active)
    (hstat : acceptedStat plat frame = some stat) :
    ResendsTowards plat w frame stat ↔ ¬StoppedAstray plat w stat := by
  have hrun := (isCtlRunning_applyStat stat w).trans (isCtlRunning_of_active hs ha)
  have hc : (applyStat stat w).ctx.command = w.ctx.command := (calm_applyStat stat w).command
  have hsends := (controlLoop_sends plat .ctl (applyStat stat w)).forall_cmd
    (·.Towards stat.motor1Pos.toNat w.ctx.command.position)
  rw [sends_towards_iff, pursue_eq, pursuitOf_resends_iff hrun, stoppedShort_applyStat ha, hc,
    motorChanged_applyStat, sentSince_applyStat, ← iteration_eq w hstat] at hsends
  refine hsends.trans ⟨?_, ?_⟩
  · rintro h ⟨hel, hoff, hch, hastray⟩
    have hne : stat.motor1Pos.toNat ≠ w.ctx.command.position := by
      have := ha.1
      simp only [motorPosInvalid] at hastray
      omega
    rw [← hoff] at hch
    exact (towards_iff ha (acceptedStat_position hstat) hne).mp (h ⟨hel, hch, hoff, hne⟩) hastray
  · rintro h ⟨hel, hch, hoff, hne⟩
    rw [hoff] at hch
    exact (towards_iff ha (acceptedStat_position hstat) hne).mpr fun hastray =>
      h ⟨hel, hoff, hch, hastray⟩

end

/-- In every state of every run with an active command, and for every accepted
frame: the iteration sends movements towards the target only, unless it finds
the motor stopped elsewhere. -/
theorem resends_towards_iff (plat : Platform) (s : Session) (ops : List Op) :
    Throughout (opStep plat) (fun w => isCtlRunning w.ctx = true →
      ∀ frame stat, acceptedStat plat frame = some stat →
        (ResendsTowards plat w frame stat ↔ ¬StoppedAstray plat w stat)) s.opened ops := by
  have h : Throughout (opStep plat) Open s.opened ops :=
    throughout_of_keeps (fun _ _ _ h hs => h.opStep hs) s.opened_open
  refine h.mono fun w hw hrun frame stat hstat => ?_
  exact resendsTowards_iff hw.socket (hw.active hrun) hstat

/-- On the way up to 50 the motor is reported off at 60, or at an unknown
position: the movement up is sent again. -/
theorem resends_past_target :
    ∃ w stat stat', run (opStep (.ticking 600 fun _ => none)) Session.bench.opened
        [.start, .turn (statFrame 20 .off), .setPosition 1 50, .turn (statFrame 30 .inc)] = some w ∧
      isCtlRunning w.ctx = true ∧
      acceptedStat (.ticking 600 fun _ => none) (statCanFrame 60 .off) = some stat ∧
      ¬ResendsTowards (.ticking 600 fun _ => none) w (statCanFrame 60 .off) stat ∧
      acceptedStat (.ticking 600 fun _ => none) (statCanFrame 255 .off) = some stat' ∧
      ¬ResendsTowards (.ticking 600 fun _ => none) w (statCanFrame 255 .off) stat' := by
  refine ⟨_, _, _, rfl, by decide, rfl, ?_, rfl, ?_⟩
  · decide
  · decide

-- ---------------------------------------------------------------------------
-- The caches of an earlier command
-- ---------------------------------------------------------------------------

def Platform.at (plat : Platform) (now : Int) (h : 0 < now) : Platform :=
  { plat with clock := fun _ => now, clock_pos := fun _ => h, clock_mono := fun _ _ _ => Int.le_refl _ }

structure Moment where
  frame : CanFrame
  ts : Int
  ts_pos : 0 < ts

def Moment.iteration (plat : Platform) (w : World) (m : Moment) : World :=
  Seat.iteration (plat.at m.ts m.ts_pos) w m.frame

def framesOver (plat : Platform) : World → List Moment → List CanFrame
  | _, [] => []
  | w, m :: ms =>
    (sentSince w (m.iteration plat w)).map (·.frame) ++ framesOver plat (m.iteration plat w) ms

/-- The first accepted status for which `c` is not waiting for its motor to
start. -/
def firstPursued (plat : Platform) (c : Command) : List Moment → Option Secu1Stat
  | [] => none
  | m :: ms => match acceptedStat plat m.frame with
    | none => firstPursued plat c ms
    | some stat =>
      if m.ts - c.ts < 500 ∧ stat.motor1MovState.toNat = MotorDirection.off.code ∧
          stat.motor1Pos.toNat ≠ c.position then
        firstPursued plat c ms
      else some stat

/-- If the first status after the start of the movement tells that the motor
is off away from the target, then both caches hold it or none does. -/
def CachesHarmless (plat : Platform) (w w' : World) (ms : List Moment) : Prop :=
  ∀ stat, firstPursued plat w.ctx.command ms = some stat →
    stat.motor1MovState.toNat = MotorDirection.off.code →
    stat.motor1Pos.toNat ≠ w.ctx.command.position →
    (w.caches = (stat.motor1Pos.toNat, MotorDirection.off.code) ↔
      w'.caches = (stat.motor1Pos.toNat, MotorDirection.off.code))

section
variable {plat : Platform} {w w' : World}

theorem iteration_rejected (w : World) (h : acceptedStat plat frame = none) :
    iteration plat w frame = w := by
  unfold iteration threadBody
  by_cases hid : frame.canId = secu1StatFrameId <;>
    simp [hid, handleSecuStat, h, rejectedStat_ne_ok]

def Moment.pursuit (m : Moment) (w : World) (stat : Secu1Stat) : Option Pursuit :=
  pursuitOf w.statics (applyStat stat w).ctx m.ts

theorem Moment.pursue_eq (plat : Platform) (m : Moment) (w : World) (stat : Secu1Stat) :
    (pursue (plat.at m.ts m.ts_pos) (applyStat stat w)).1 = m.pursuit w stat := by
  rw [Seat.pursue_eq, applyStat_statics]
  rfl

theorem Moment.iteration_eq (m : Moment) (w : World) (h : acceptedStat plat m.frame = some stat) :
    m.iteration plat w =
      ((seatctrlControlLoop (plat.at m.ts m.ts_pos) .ctl).exec (applyStat stat w)).2 :=
  Seat.iteration_eq w h

theorem Moment.iteration_frames (m : Moment) (w : World) (h : acceptedStat plat m.frame = some stat) :
    (sentSince w (m.iteration plat w)).map (·.frame) =
      (((m.pursuit w stat).map (pursuitSends (applyStat stat w).ctx)).getD []).map
        fun s => cmdFrame plat s.1 s.2 := by
  have hs := controlLoop_sends (plat.at m.ts m.ts_pos) .ctl (applyStat stat w)
  rw [sentSince_applyStat, ← m.iteration_eq w h, m.pursue_eq] at hs
  have hframes := congrArg (List.map Prod.snd) hs
  rw [List.map_map, List.map_map] at hframes
  exact hframes

theorem Moment.iteration_ctx (m : Moment) (w : World) (h : acceptedStat plat m.frame = some stat) :
    (m.iteration plat w).ctx =
      if ((m.pursuit w stat).any fun p => (endingOf p.elapsed (applyStat stat w).ctx).isSome) then
        { (applyStat stat w).ctx with command := .idle }
      else (applyStat stat w).ctx := by
  have hc := controlLoop_ctx (plat.at m.ts m.ts_pos) .ctl (applyStat stat w)
  rwa [← m.iteration_eq w h, m.pursue_eq] at hc

theorem Moment.iteration_caches (m : Moment) (w : World)
    (h : acceptedStat plat m.frame = some stat) :
    (m.iteration plat w).caches = match m.pursuit w stat with
      | none => w.caches
      | some p =>
        if (endingOf p.elapsed (applyStat stat w).ctx).isSome then (motorPosInvalid, 0)
        else ((applyStat stat w).ctx.motor1Pos, (applyStat stat w).ctx.motor1MovState) := by
  have hc := controlLoop_caches (plat.at m.ts m.ts_pos) .ctl (applyStat stat w)
  have hcaches : (applyStat stat w).caches = w.caches := by
    simp [World.caches]
  rwa [← m.iteration_eq w h, m.pursue_eq, hcaches] at hc

theorem framesOver_rejected (h : acceptedStat plat m.frame = none) (w : World) (ms : List Moment) :
    framesOver plat w (m :: ms) = framesOver plat w ms := by
  have hi : m.iteration plat w = w := iteration_rejected w h
  simp only [framesOver, hi, sentSince_of_log_eq rfl, List.map_nil, List.nil_append]

theorem framesOver_idle (hidle : isCtlRunning w.ctx = false) (ms : List Moment) :
    framesOver plat w ms = [] := by
  induction ms generalizing w with
  | nil => rfl
  | cons m ms ih =>
    cases hstat : acceptedStat plat m.frame with
    | none =>
      rw [framesOver_rejected hstat]
      exact ih hidle
    | some stat =>
      have hidle' := (isCtlRunning_applyStat stat w).trans hidle
      have hp : m.pursuit w stat = none := by
        simp [Moment.pursuit, pursuitOf, hidle']
      have hctx := m.iteration_ctx w hstat
      simp only [hp, Option.any_none, Bool.false_eq_true, if_false] at hctx
      simp only [framesOver, m.iteration_frames w hstat, hp, Option.map_none, Option.getD_none,
        List.map_nil, List.nil_append]
      exact ih (by rw [hctx]; exact hidle')

theorem acceptedStat_congr {plat' : Platform} (hcodec : plat'.codec = plat.codec) (frame : CanFrame) :
    acceptedStat plat' frame = acceptedStat plat frame := by
  simp only [acceptedStat, hcodec]

theorem cmdFrame_congr {plat' : Platform} (hcodec : plat'.codec = plat.codec) :
    cmdFrame plat' = cmdFrame plat := by
  funext dir rpm
  simp only [cmdFrame, hcodec]

theorem applyStat_ctx_congr (stat : Secu1Stat) (hctx : w'.ctx = w.ctx) :
    (applyStat stat w').ctx = (applyStat stat w).ctx := by
  rw [applyStat_ctx, applyStat_ctx, hctx]

theorem framesOver_congr {plat' : Platform} (hcodec : plat'.codec = plat.codec)
    (hctx : w'.ctx = w.ctx) (hcaches : w'.caches = w.caches) (ms : List Moment) :
    framesOver plat' w' ms = framesOver plat w ms := by
  induction ms generalizing w w' with
  | nil => rfl
  | cons m ms ih =>
    have hacc := acceptedStat_congr hcodec m.frame
    cases hstat : acceptedStat plat m.frame with
    | none =>
      rw [framesOver_rejected hstat, framesOver_rejected (hacc.trans hstat)]
      exact ih hctx hcaches
    | some stat =>
      have hstat' := hacc.trans hstat
      have hctx' := applyStat_ctx_congr stat hctx
      have hp : m.pursuit w' stat = m.pursuit w stat := by
        simp only [Moment.pursuit, pursuitOf, hctx', motorChanged_congr hcaches]
      simp only [framesOver]
      rw [m.iteration_frames w hstat, m.iteration_frames w' hstat', hp, hctx', cmdFrame_congr hcodec, ih]
      · rw [m.iteration_ctx w hstat, m.iteration_ctx w' hstat', hp, hctx']
      · rw [m.iteration_caches w hstat, m.iteration_caches w' hstat', hp, hctx', hcaches]

/-- Two pursuits that differ at most in the cache send the same frames exactly
when both send the movement again or none does. -/
theorem pursuitSends_eq_iff (frame : MotorDirection × Int → CanFrame) (ctx : Context) (elapsed : Int)
    (changed changed' resend resend' : Bool) :
    (pursuitSends ctx ⟨elapsed, changed, resend⟩).map frame =
        (pursuitSends ctx ⟨elapsed, changed', resend'⟩).map frame ↔ resend = resend' := by
  constructor
  · intro h
    have hlen := congrArg List.length h
    simp only [pursuitSends, List.length_map, List.length_append] at hlen
    cases resend <;> cases resend' <;> simp at hlen ⊢
  · rintro rfl
    rfl

theorem awaitsMovement_applyStat : awaitsMovement (applyStat stat w).ctx (now - w.ctx.command.ts) = true ↔
    now - w.ctx.command.ts < 500 ∧ stat.motor1MovState.toNat = MotorDirection.off.code ∧
      stat.motor1Pos.toNat ≠ w.ctx.command.position := by
  unfold awaitsMovement
  rw [applyStat_ctx]
  simp only [Bool.and_eq_true, decide_eq_true_eq, beq_iff_eq, bne_iff_ne, and_assoc]

theorem motorChanged_eq_false :
    motorChanged w.statics ctx = false ↔ w.caches = (ctx.motor1Pos, ctx.motor1MovState) := by
  simp [motorChanged, World.caches]

theorem resends_eq_iff (hrun : isCtlRunning w.ctx = true) :
    (motorChanged w'.statics (applyStat stat w).ctx && stoppedShort (applyStat stat w).ctx) =
        (motorChanged w.statics (applyStat stat w).ctx && stoppedShort (applyStat stat w).ctx) ↔
      (stat.motor1MovState.toNat = MotorDirection.off.code →
        stat.motor1Pos.toNat ≠ w.ctx.command.position →
        (w.caches = (stat.motor1Pos.toNat, MotorDirection.off.code) ↔
          w'.caches = (stat.motor1Pos.toNat, MotorDirection.off.code))) := by
  have hctx := applyStat_ctx stat w
  have hpos : (applyStat stat w).ctx.motor1Pos = stat.motor1Pos.toNat := by rw [hctx]
  have hmov : (applyStat stat w).ctx.motor1MovState = stat.motor1MovState.toNat := by rw [hctx]
  cases hshort : stoppedShort (applyStat stat w).ctx with
  | false =>
    refine iff_of_true (by simp) fun hoff hne => ?_
    have hdir : w.ctx.command.direction ≠ .off := by
      simp only [isCtlRunning, Bool.and_eq_true, bne_iff_ne] at hrun
      exact hrun.1.2
    have hcode : MotorDirection.off.code ≠ w.ctx.command.direction.code := by
      cases hd : w.ctx.command.direction <;> simp_all [MotorDirection.code]
    simp [stoppedShort, hctx, hoff, hne, hcode] at hshort
  | true =>
    simp only [stoppedShort, Bool.and_eq_true, bne_iff_ne, beq_iff_eq, hpos, hmov] at hshort
    obtain ⟨⟨-, hne⟩, hoff⟩ := hshort
    rw [(calm_applyStat stat w).command] at hne
    simp only [Bool.and_true, hoff, hne, ne_eq, not_false_eq_true, true_implies]
    rw [← hoff, ← hpos, ← hmov, ← motorChanged_eq_false, ← motorChanged_eq_false]
    cases motorChanged w.statics (applyStat stat w).ctx <;>
      cases motorChanged w'.statics (applyStat stat w).ctx <;> simp

theorem Moment.iteration_ctx_congr {plat' : Platform} (m : Moment) (hctx : w'.ctx = w.ctx)
    (h : acceptedStat plat m.frame = some stat) (h' : acceptedStat plat' m.frame = some stat) :
    (m.iteration plat' w').ctx = (m.iteration plat w).ctx := by
  have hctx' := applyStat_ctx_congr stat hctx
  have hends : ((m.pursuit w' stat).any fun p => (endingOf p.elapsed (applyStat stat w').ctx).isSome) =
      (m.pursuit w stat).any fun p => (endingOf p.elapsed (applyStat stat w).ctx).isSome := by
    unfold Moment.pursuit pursuitOf
    rw [hctx']
    split <;> rfl
  rw [m.iteration_ctx w h, m.iteration_ctx w' h', hends, hctx']

theorem framesOver_eq_iff {plat' : Platform} (hcodec : plat'.codec = plat.codec)
    (hctx : w'.ctx = w.ctx) (hrun : isCtlRunning w.ctx = true) (ms : List Moment) :
    framesOver plat' w' ms = framesOver plat w ms ↔ CachesHarmless plat w w' ms := by
  induction ms generalizing w w' with
  | nil => simp [framesOver, CachesHarmless, firstPursued]
  | cons m ms ih =>
    have hacc := acceptedStat_congr hcodec m.frame
    cases hstat : acceptedStat plat m.frame with
    | none =>
      rw [framesOver_rejected hstat, framesOver_rejected (hacc.trans hstat), ih hctx hrun]
      simp only [CachesHarmless, firstPursued, hstat]
    | some stat =>
      have hstat' := hacc.trans hstat
      have hrun' := (isCtlRunning_applyStat stat w).trans hrun
      have hctx' := applyStat_ctx_congr stat hctx
      have hc : (applyStat stat w).ctx.command = w.ctx.command := (calm_applyStat stat w).command
      have hnext := m.iteration_ctx_congr hctx hstat hstat'
      simp only [framesOver]
      rw [m.iteration_frames w hstat, m.iteration_frames w' hstat', hctx', cmdFrame_congr hcodec]
      by_cases haw : awaitsMovement (applyStat stat w).ctx (m.ts - w.ctx.command.ts) = true
      · -- both wait: nothing is sent, and the caches stay
        have hp : m.pursuit w stat = none := by
          simp [Moment.pursuit, pursuitOf, hc, haw]
        have hp' : m.pursuit w' stat = none := by
          simp [Moment.pursuit, pursuitOf, hctx', hc, haw]
        have hw : (m.iteration plat w).ctx = (applyStat stat w).ctx := by
          simp [m.iteration_ctx w hstat, hp]
        have hcaches : (m.iteration plat w).caches = w.caches := by
          simp [m.iteration_caches w hstat, hp]
        have hcaches' : (m.iteration plat' w').caches = w'.caches := by
          simp [m.iteration_caches w' hstat', hp']
        simp only [hp, hp', Option.map_none, Option.getD_none, List.map_nil, List.nil_append]
        rw [ih hnext (by rw [hw]; exact hrun')]
        simp only [CachesHarmless, firstPursued, hstat, hw, hc, hcaches, hcaches',
          if_pos (awaitsMovement_applyStat.mp haw)]
      · -- both look after the command, and have the same caches afterwards
        have hp : m.pursuit w stat = some ⟨m.ts - w.ctx.command.ts, motorChanged w.statics (applyStat stat w).ctx,
            motorChanged w.statics (applyStat stat w).ctx && stoppedShort (applyStat stat w).ctx⟩ := by
          simp [Moment.pursuit, pursuitOf, hrun', hc, haw]
        have hp' : m.pursuit w' stat = some ⟨m.ts - w.ctx.command.ts, motorChanged w'.statics (applyStat stat w).ctx,
            motorChanged w'.statics (applyStat stat w).ctx && stoppedShort (applyStat stat w).ctx⟩ := by
          simp [Moment.pursuit, pursuitOf, hctx', hrun', hc, haw]
        have hcaches : (m.iteration plat' w').caches = (m.iteration plat w).caches := by
          simp [m.iteration_caches w hstat, m.iteration_caches w' hstat', hp, hp', hctx']
        rw [framesOver_congr hcodec hnext hcaches, List.append_left_inj, hp, hp']
        simp only [Option.map_some, Option.getD_some]
        rw [pursuitSends_eq_iff, resends_eq_iff hrun]
        simp [CachesHarmless, firstPursued, hstat, if_neg (mt awaitsMovement_applyStat.mpr haw)]

end

/-- Two histories that end with a request for the position `d`, in equal
contexts. -/
structure SameEnd (plat plat' : Platform) (d : Int) (w w' : World) : Prop where
  codec : plat'.codec = plat.codec
  history : ∃ (s : Session) (ops : List Op) (n : Nat),
    run (opStep plat) s.opened (ops ++ [.setPosition n d]) = some w
  history' : ∃ (s : Session) (ops : List Op) (n : Nat),
    run (opStep plat') s.opened (ops ++ [.setPosition n d]) = some w'
  ctx : w'.ctx = w.ctx

theorem SameEnd.open (h : SameEnd plat plat' d w w') : Open w := by
  obtain ⟨s, ops, n, hw⟩ := h.history
  have hall : Throughout (opStep plat) Open s.opened (ops ++ [.setPosition n d]) :=
    throughout_of_keeps (fun _ _ _ h hs => h.opStep hs) s.opened_open
  exact hall.last hw

/-- For any two such histories and any frames at common times: the later
iterations send the same frames exactly when no command is active or the
caches cannot tell. -/
theorem same_frames_iff (plat plat' : Platform) (d : Int) (w w' : World)
    (h : SameEnd plat plat' d w w') (ms : List Moment) :
    framesOver plat' w' ms = framesOver plat w ms ↔
      (w.ctx.command ≠ .idle → CachesHarmless plat w w' ms) := by
  by_cases hidle : w.ctx.command = .idle
  · have hrun := h.open.idle_iff.mpr hidle
    have hrun' : isCtlRunning w'.ctx = false := by
      rw [h.ctx]
      exact hrun
    refine iff_of_true ?_ fun hne => absurd hidle hne
    rw [framesOver_idle hrun, framesOver_idle hrun']
  · have hrun : isCtlRunning w.ctx = true := by
      rw [← Bool.not_eq_false]
      exact fun hr => hidle (h.open.idle_iff.mp hr)
    rw [framesOver_eq_iff h.codec h.ctx hrun]
    exact ⟨fun hc _ => hc, fun hc => hc hidle⟩

def autoStopped : List Op :=
  [.start, .turn (statFrame 30 .off), .setPosition 1 50, .turn (statFrame 30 .off)]

def unburdened : List Op :=
  [.start, .turn (statFrame 30 .off), .turn (.error eagain), .turn (.error eagain),
    .turn (.error eagain)]

theorem same_frames_moving :
    ∃ w w', SameEnd (.ticking 600 fun _ => none) (.ticking 600 fun _ => none) 60 w w' ∧
      framesOver (.ticking 600 fun _ => none) w' [⟨statCanFrame 31 .inc, 10000, by decide⟩] =
        framesOver (.ticking 600 fun _ => none) w [⟨statCanFrame 31 .inc, 10000, by decide⟩] := by
  have hend : ∃ w w', SameEnd (.ticking 600 fun _ => none) (.ticking 600 fun _ => none) 60 w w' :=
    ⟨_, _, rfl, ⟨.bench, autoStopped, 1, rfl⟩, ⟨.bench, unburdened, 1, rfl⟩, by decide⟩
  obtain ⟨w, w', h⟩ := hend
  refine ⟨w, w', h, (same_frames_iff _ _ _ w w' h _).mpr fun _ stat hstat hoff => ?_⟩
  simp only [firstPursued, show acceptedStat (.ticking 600 fun _ => none) (statCanFrame 31 .inc) =
    some ⟨31, 2, 1, 0, 0, 0, 0, 0, 0, 0, 0, 0⟩ by decide] at hstat
  rw [if_neg (by simp [MotorDirection.code])] at hstat
  obtain rfl := Option.some.inj hstat
  simp [MotorDirection.code] at hoff

/-- The motor stays off at the position where it stopped for the earlier
command: the later one is not sent again. -/
theorem caches_leak :
    ∃ w w', SameEnd (.ticking 600 fun _ => none) (.ticking 600 fun _ => none) 60 w w' ∧
      framesOver (.ticking 600 fun _ => none) w [⟨statCanFrame 30 .off, 10000, by decide⟩] = [] ∧
      framesOver (.ticking 600 fun _ => none) w' [⟨statCanFrame 30 .off, 10000, by decide⟩] ≠
        framesOver (.ticking 600 fun _ => none) w [⟨statCanFrame 30 .off, 10000, by decide⟩] := by
  refine ⟨_, _, ⟨rfl, ⟨.bench, autoStopped, 1, rfl⟩, ⟨.bench, unburdened, 1, rfl⟩, ?_⟩, ?_, ?_⟩
  · decide
  · decide
  · decide

end KuksaServices.Seat
