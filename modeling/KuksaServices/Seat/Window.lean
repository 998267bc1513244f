import KuksaServices.Seat.Faults

/-!
# Status frames while a position is being set

`seatctrl_set_position` looks at the position twice: when it checks that the
position is known, and 100 ms later when it decides on a direction. The CTL
thread goes on in between. `Ear` follows what the thread hears without
running it, and the call starts from a known position exactly when the last
thing heard before the decision is not an unknown position
(`set_position_starts_known_iff`).
-/

namespace KuksaServices.Seat

open Atomic

def deedsOf (n : Nat) (log : List Entry) : List Deed :=
  (log.filter (·.thread = .caller n)).map (·.deed)

@[simp] theorem deedsOf_append (n : Nat) (log log' : List Entry) :
    deedsOf n (log ++ log') = deedsOf n log ++ deedsOf n log' := by
  simp [deedsOf]

@[simp] theorem deedsOf_nil (n : Nat) : deedsOf n [] = [] := rfl

@[simp] theorem deedsOf_ctl (n : Nat) (deed : Deed) (log : List Entry) :
    deedsOf n (⟨.ctl, deed⟩ :: log) = deedsOf n log := by
  simp [deedsOf]

@[simp] theorem deedsOf_caller (n : Nat) (deed : Deed) (log : List Entry) :
    deedsOf n (⟨.caller n, deed⟩ :: log) = deed :: deedsOf n log := by
  simp [deedsOf]

-- ---------------------------------------------------------------------------
-- What the control loop leaves alone
-- ---------------------------------------------------------------------------

/-- The control loop may change the command and speak for itself, no more. -/
structure LeavesAlone (n : Nat) (v w : World) : Prop where
  ctx : { w.ctx with command := v.ctx.command } = v.ctx
  ctl : w.ctl = v.ctl
  deeds : deedsOf n w.log = deedsOf n v.log

section
variable {plat : Platform} {v w : World}

theorem LeavesAlone.refl (n : Nat) (v : World) : LeavesAlone n v v := ⟨rfl, rfl, rfl⟩

theorem LeavesAlone.send (h : LeavesAlone n v w) :
    LeavesAlone n v ((seatctrlSendCmd1 plat .ctl dir rpm).exec w).2 := by
  refine ⟨by rw [sendCmd1_ctx]; exact h.ctx, by rw [sendCmd1_ctl]; exact h.ctl, ?_⟩
  cases hs : w.ctx.socket with
  | none =>
    rw [exec_sendCmd1_closed hs]
    exact h.deeds
  | some fd =>
    rw [sendCmd1_log (by simp [hs])]
    simpa [sendEntry] using h.deeds

theorem sendCmd1_leaves : Prog.Preserves (LeavesAlone n v) (seatctrlSendCmd1 plat .ctl dir rpm) :=
  .atomic fun _ h => h.send

theorem stopMovement_leaves : Prog.Preserves (LeavesAlone n v) (seatctrlStopMovement plat .ctl) := by
  refine .bind sendCmd1_leaves fun rc => .bind (.atomic fun w h => ?_) fun _ => .pure _
  exact ⟨h.ctx, h.ctl, by simpa [World.setCommand, World.record] using h.deeds⟩

theorem resendCommand_leaves : Prog.Preserves (LeavesAlone n v) (resendCommand plat .ctl) :=
  .bind sendCmd1_leaves fun _ => .bind (.pause _) fun _ => .bind (.peek _ _) fun _ =>
    .bind sendCmd1_leaves fun _ => .pure _

theorem LeavesAlone.statics (h : LeavesAlone n v w) (statics : Statics) :
    LeavesAlone n v { w with statics := statics } := ⟨h.ctx, h.ctl, h.deeds⟩

theorem LeavesAlone.checkEnding (h : LeavesAlone n v w) :
    LeavesAlone n v (checkEnding .ctl pursuit w).2 := by
  have hc : LeavesAlone n v (cacheMotorState pursuit w) := by
    unfold cacheMotorState
    split
    · exact h.statics _
    · exact h
  unfold Seat.checkEnding
  simp only
  split
  · exact ⟨hc.ctx, hc.ctl, by simpa [World.record] using hc.deeds⟩
  · exact hc

theorem pursueCommand_leaves :
    Prog.Preserves (LeavesAlone n v) (pursueCommand plat .ctl pursuit) := by
  have hcheck : Prog.Preserves (LeavesAlone n v) (checkCommand plat .ctl pursuit) := by
    unfold checkCommand
    refine .bind (.atomic fun _ h => h.checkEnding) fun ending => ?_
    split
    · exact .bind stopMovement_leaves fun _ => .bind (.atomic fun _ h => h.statics _) fun _ => .pure _
    · exact .pure _
  unfold pursueCommand
  split
  · exact .bind resendCommand_leaves fun _ => hcheck
  · exact hcheck

theorem controlLoop_leaves : Prog.Preserves (LeavesAlone n v) (seatctrlControlLoop plat .ctl) := by
  unfold seatctrlControlLoop
  refine .bind (.atomic fun w h => ?_) fun pursuit => ?_
  · have hl := (pursue_spec plat w).1
    exact ⟨by rw [hl.ctx]; exact h.ctx, hl.ctl.trans h.ctl, by rw [hl.log]; exact h.deeds⟩
  · cases pursuit with
    | none => exact .pure _
    | some pursuit => exact pursueCommand_leaves

theorem LeavesAlone.controlLoop (plat : Platform) (n : Nat) (w : World) :
    LeavesAlone n w ((seatctrlControlLoop plat .ctl).exec w).2 :=
  controlLoop_leaves.exec (.refl n w)

theorem LeavesAlone.motor1Pos (h : LeavesAlone n v w) : w.ctx.motor1Pos = v.ctx.motor1Pos := by
  have hpos := congrArg Context.motor1Pos h.ctx
  exact hpos

end

-- ---------------------------------------------------------------------------
-- What the CTL thread hears
-- ---------------------------------------------------------------------------

structure Ear where
  pos : Nat
  alive : Bool
  deriving DecidableEq, Repr

def Ear.of (w : World) : Ear := ⟨w.ctx.motor1Pos, w.ctl == .looping⟩

def Ear.hear (plat : Platform) (ear : Ear) (result : ReadResult) : Ear :=
  if ear.alive then
    ⟨((acceptedRead plat result).map (·.motor1Pos.toNat)).getD ear.pos, result.recoverable⟩
  else ear

def Ear.listen (plat : Platform) (ear : Ear) (results : List ReadResult) : Ear :=
  results.foldl (hear plat) ear

def Ear.retry (plat : Platform) (turns : Site → List ReadResult) : Nat → Ear → Ear
  | 0, ear => ear
  | n + 1, ear =>
    if ear.pos ≠ motorPosInvalid then ear
    else retry plat turns n (ear.listen plat (turns (.retryWait n)))

def ctlTurn (plat : Platform) (w : World) (result : ReadResult) : World :=
  (opStep plat w (.turn result)).getD w

/-- The CTL thread takes its turns during the retry wait and the 100 ms
sleep of `seatctrl_set_position`. -/
def windowEnv (plat : Platform) (turns : Site → List ReadResult) (l : Site) (w : World) : World :=
  match l with
  | .retryWait _ | .settle => (turns l).foldl (ctlTurn plat) w
  | _ => w

structure Live (w : World) : Prop where
  magic : w.ctx.magic = seatCtrlContextMagic
  socket : w.ctx.socket.isSome
  running : w.ctl = .looping → w.ctx.running = true
  position : w.ctx.motor1Pos ≤ 100 ∨ w.ctx.motor1Pos = motorPosInvalid

section
variable {plat : Platform} {v w : World} {ear : Ear}

theorem LeavesAlone.live (h : LeavesAlone n v w) (hv : Live v) : Live w := by
  have hctx := h.ctx
  refine ⟨?_, ?_, ?_, ?_⟩
  · rw [← hv.magic, ← hctx]
  · have := hv.socket
    rw [← hctx] at this
    exact this
  · have := hv.running
    rw [← hctx, ← h.ctl] at this
    exact this
  · have := hv.position
    rw [← hctx] at this
    exact this

theorem recoverable_of_accepted (h : acceptedRead plat result = some stat) :
    result.recoverable = true := by
  cases result with
  | error err => cases h
  | frame frame => rfl

theorem Live.applyStat (h : Live w) (hs : acceptedRead plat result = some stat) :
    Live (applyStat stat w) := by
  have hctx := applyStat_ctx stat w
  refine ⟨?_, ?_, ?_, ?_⟩
  · rw [hctx]
    exact h.magic
  · rw [hctx]
    exact h.socket
  · rw [hctx, applyStat_ctl]
    exact h.running
  · rw [hctx]
    exact acceptedRead_position hs

/-- The world is where the ear says, and the `n`-th caller did nothing since `v`. -/
structure Tracks (n : Nat) (v : World) (ear : Ear) (w : World) : Prop where
  live : Live w
  ear : Ear.of w = ear
  deeds : deedsOf n w.log = deedsOf n v.log

theorem Tracks.turn (plat : Platform) (h : Tracks n v ear w) (result : ReadResult) :
    Tracks n v (ear.hear plat result) (ctlTurn plat w result) := by
  obtain ⟨hlive, rfl, hdeeds⟩ := h
  unfold ctlTurn opStep Ear.hear
  by_cases hloop : w.ctl = .looping
  · have hgo : (w.ctx.running && w.ctx.socket.isSome) = true := by
      simp [hlive.running hloop, hlive.socket]
    simp only [hloop, if_true, Option.getD_some, Ear.of, beq_self_eq_true]
    have hheard : heardStat plat (turnBegins w) result = acceptedRead plat result := by
      simp only [heardStat, turnBegins, hgo, if_true]
    cases hs : acceptedRead plat result with
    | none =>
      obtain ⟨events, he⟩ := exec_turn_deaf .ctl (hheard.trans hs)
      have hgo' : ((turnBegins w).ctx.running && (turnBegins w).ctx.socket.isSome) = true := hgo
      rw [he, hgo']
      refine ⟨⟨hlive.magic, hlive.socket, fun _ => hlive.running hloop, hlive.position⟩, ?_, hdeeds⟩
      cases hr : result.recoverable <;> simp [Ear.of, turnBegins, hloop]
    | some stat =>
      rw [exec_turn_heard (hheard.trans hs)]
      have hbegin : Live (turnBegins w) := ⟨hlive.magic, hlive.socket, hlive.running, hlive.position⟩
      have hleaves := LeavesAlone.controlLoop plat n (Seat.applyStat stat (turnBegins w))
      refine ⟨hleaves.live (hbegin.applyStat hs), ?_, ?_⟩
      · have hctl : (turnBegins w).ctl = .looping := hloop
        rw [Ear.of, hleaves.motor1Pos, hleaves.ctl, applyStat_ctx, applyStat_ctl, hctl,
          recoverable_of_accepted hs]
        rfl
      · rw [hleaves.deeds, (calm_applyStat stat _).log]
        exact hdeeds
  · have hdead : (Ear.of w).alive = false := by simp [Ear.of, hloop]
    simp only [hloop, if_false, Option.getD_none, hdead]
    exact ⟨hlive, by simp, hdeeds⟩

theorem Tracks.turns (h : Tracks n v ear w) (results : List ReadResult) :
    Tracks n v (ear.listen plat results) (results.foldl (ctlTurn plat) w) := by
  induction results generalizing w ear with
  | nil => exact h
  | cons result results ih => exact ih (h.turn plat result)

theorem Tracks.pos (h : Tracks n v ear w) : w.ctx.motor1Pos = ear.pos := congrArg Ear.pos h.ear

theorem Tracks.position (h : Tracks n v ear w) : ear.pos ≤ 100 ∨ ear.pos = motorPosInvalid := by
  have hpos := h.live.position
  rw [h.pos] at hpos
  exact hpos

-- ---------------------------------------------------------------------------
-- The check of the position
-- ---------------------------------------------------------------------------

section
variable {turns : Site → List ReadResult}

theorem Tracks.waitForPosition (plat : Platform) (turns : Site → List ReadResult)
    (h : Tracks n v ear w) (k : Nat) :
    Tracks n v (ear.retry plat turns k)
      ((Seat.waitForPosition k).execAmid (windowEnv plat turns) w).2 := by
  induction k generalizing w ear with
  | zero => exact h
  | succ k ih =>
    simp only [Seat.waitForPosition, Ear.retry, Prog.execAmid_bind, Prog.execAmid_peek,
      Prog.execAmid_ite, Prog.execAmid_pause, Prog.execAmid_pure, windowEnv, h.pos]
    split
    · exact h
    · exact ih (h.turns _)

theorem Tracks.positionKnown (plat : Platform) (turns : Site → List ReadResult)
    (h : Tracks n v ear w) :
    Tracks n v (ear.retry plat turns 30)
        (Seat.positionKnown.execAmid (windowEnv plat turns) w).2 ∧
      (Seat.positionKnown.execAmid (windowEnv plat turns) w).1 =
        decide ((ear.retry plat turns 30).pos ≠ motorPosInvalid) := by
  have hwait := h.waitForPosition plat turns 30
  unfold Seat.positionKnown
  simp only [Prog.execAmid_bind, Prog.execAmid_peek, Prog.execAmid_ite, Prog.execAmid_pure,
    windowEnv, h.pos]
  split
  · rename_i hpos
    have hretry : ear.retry plat turns 30 = ear := by
      simp [Ear.retry, hpos]
    rw [hretry]
    exact ⟨h, by simpa using hpos⟩
  · exact ⟨hwait, by rw [hwait.pos]⟩

-- ---------------------------------------------------------------------------
-- The decision
-- ---------------------------------------------------------------------------

def Deed.current? : Deed → Option Nat
  | .current pos => some pos
  | _ => none

def decisions (deeds : List Deed) : List Nat := deeds.filterMap Deed.current?

/-- A movement was decided once, at a known position on the right side of
the desired one. -/
def StartsKnown (desired : Int) (deeds : List Deed) : Prop :=
  ∀ sent ∈ deeds.filterMap Deed.sent?,
    (sent.cmd.motor1ManualCmd = MotorDirection.inc.code →
      ∃ pos ∈ decisions deeds, decisions deeds = [pos] ∧ pos ≤ 100 ∧ (pos : Int) < desired) ∧
    (sent.cmd.motor1ManualCmd = MotorDirection.dec.code →
      ∃ pos ∈ decisions deeds, decisions deeds = [pos] ∧ pos ≤ 100 ∧ desired < (pos : Int))

instance (desired : Int) (deeds : List Deed) : Decidable (StartsKnown desired deeds) :=
  inferInstanceAs (Decidable (∀ _ ∈ _, _ ∧ _))

/-- What the call itself did, with the turns of the CTL thread in its waits. -/
def callDeeds (plat : Platform) (n : Nat) (desired : Int) (turns : Site → List ReadResult)
    (w : World) : List Deed :=
  (deedsOf n ((seatctrlSetPosition plat (.caller n) desired).execAmid (windowEnv plat turns) w).2.log).drop
    (deedsOf n w.log).length

/-- The call gives up in the retry wait, or the last position heard before
its decision is known. -/
def PositionKept (plat : Platform) (w : World) (turns : Site → List ReadResult) : Prop :=
  let ear := (Ear.of w).retry plat turns 30
  ear.pos = motorPosInvalid ∨ (ear.listen plat (turns .settle)).pos ≠ motorPosInvalid

theorem amid_sendCmd1 : (seatctrlSendCmd1 plat me dir rpm).execAmid (windowEnv plat turns) w =
    (seatctrlSendCmd1 plat me dir rpm).exec w := rfl

theorem amid_stopMovement : (seatctrlStopMovement plat me).execAmid (windowEnv plat turns) w =
    (seatctrlStopMovement plat me).exec w := rfl

theorem Live.withCommand (h : Live w) (hctx : w'.ctx = { w.ctx with command := c })
    (hctl : w'.ctl = w.ctl) : Live w' := by
  refine ⟨?_, ?_, ?_, ?_⟩
  · rw [hctx]
    exact h.magic
  · rw [hctx]
    exact h.socket
  · rw [hctx, hctl]
    exact h.running
  · rw [hctx]
    exact h.position

theorem Live.stopMovement (h : Live w) : Live ((seatctrlStopMovement plat me).exec w).2 :=
  h.withCommand stopMovement_ctx stopMovement_status

theorem stopMovement_deeds (plat : Platform) (n : Nat) (hs : w.ctx.socket.isSome) :
    deedsOf n ((seatctrlStopMovement plat (.caller n)).exec w).2.log =
      deedsOf n w.log ++ [.send (sentBy plat .off 0 w), .command .idle] := by
  rw [stopMovement_log hs, deedsOf_append]
  simp [sendEntry]

inductive Decided (pos : Nat) (desired : Int) : List Deed → Prop
  | there (h : (pos : Int) = desired) : Decided pos desired [.command .idle]
  | moving (h : (pos : Int) = desired) (sent : Sent) (hoff : sent.cmd.IsOff) :
    Decided pos desired [.send sent, .command .idle]
  | away (h : (pos : Int) ≠ desired) (c : Command) (sent : Sent)
    (hdir : sent.cmd.motor1ManualCmd = (directionTo pos desired).code) :
    Decided pos desired [.command c, .send sent]

theorem amid_decidePosition : (decidePosition plat me desired).execAmid (windowEnv plat turns) w =
    (decidePosition plat me desired).exec w := by
  unfold decidePosition
  simp only [Prog.execAmid_bind, Prog.exec_bind, Prog.execAmid_atomic, Prog.exec_atomic, windowEnv,
    Prog.execAmid_ite, Prog.exec_ite, Prog.execAmid_peek, Prog.exec_peek, amid_stopMovement,
    amid_sendCmd1, setCommand, Prog.execAmid_pure, Prog.exec_pure]

theorem decidePosition_deeds (plat : Platform) (hs : w.ctx.socket.isSome) (n : Nat) (desired : Int) :
    ∃ rest, deedsOf n ((decidePosition plat (.caller n) desired).exec w).2.log =
        deedsOf n w.log ++ .current w.ctx.motor1Pos :: rest ∧
      Decided w.ctx.motor1Pos desired rest := by
  have hs' : (w.record (.caller n) (.current w.ctx.motor1Pos)).ctx.socket.isSome := hs
  by_cases hpos : (w.ctx.motor1Pos : Int) = desired
  · by_cases hmov : w.ctx.motor1MovState = MotorDirection.off.code
    · refine ⟨_, ?_, .there hpos⟩
      simp [decidePosition, hpos, hmov, World.record, setCommand, World.setCommand]
    · refine ⟨_, ?_, .moving hpos
        (sentBy plat .off 0 (w.record (.caller n) (.current w.ctx.motor1Pos))) rfl⟩
      have hstop := stopMovement_deeds plat n hs'
      simpa [decidePosition, hpos, hmov, World.record] using hstop
  · let ready : World := { w.record (.caller n) (.current w.ctx.motor1Pos) with
      ticks := w.ticks + 1 }.setCommand (.caller n) (commandFor plat w desired)
    have hsend : (decidePosition plat (.caller n) desired).exec w =
        (seatctrlSendCmd1 plat (.caller n) (directionTo w.ctx.motor1Pos desired)
          w.ctx.config.motorRpm).exec ready := by
      simp [decidePosition, hpos, World.record, setCommand, World.setCommand, World.getTs, ready,
        commandFor]
    refine ⟨_, ?_, .away hpos (commandFor plat w desired)
      (sentBy plat (directionTo w.ctx.motor1Pos desired) w.ctx.config.motorRpm ready) rfl⟩
    rw [hsend, sendCmd1_log (show ready.ctx.socket.isSome from hs)]
    simp [ready, World.record, World.setCommand, sendEntry]

theorem commandPosition_deeds (plat : Platform) (turns : Site → List ReadResult) (h : Live w) (n : Nat) (desired : Int) :
    ∃ rest, deedsOf n ((commandPosition plat (.caller n) desired).execAmid (windowEnv plat turns) w).2.log =
        deedsOf n w.log ++ ([.send (sentBy plat .off 0 w), .command .idle,
          .current ((Ear.of w).listen plat (turns .settle)).pos] ++ rest) ∧
      Decided ((Ear.of w).listen plat (turns .settle)).pos desired rest := by
  have hear : Ear.of ((seatctrlStopMovement plat (.caller n)).exec w).2 = Ear.of w := by
    simp [Ear.of]
  have hslept : Tracks n ((seatctrlStopMovement plat (.caller n)).exec w).2
      ((Ear.of w).listen plat (turns .settle))
      ((turns .settle).foldl (ctlTurn plat) ((seatctrlStopMovement plat (.caller n)).exec w).2) :=
    Tracks.turns ⟨h.stopMovement, hear, rfl⟩ _
  obtain ⟨rest, hdeeds, hdec⟩ := decidePosition_deeds plat hslept.live.socket n desired
  rw [hslept.deeds, stopMovement_deeds plat n h.socket, hslept.pos] at hdeeds
  rw [hslept.pos] at hdec
  refine ⟨rest, ?_, hdec⟩
  simp only [commandPosition, Prog.execAmid_bind, amid_stopMovement, Prog.execAmid_pause,
    amid_decidePosition]
  simpa [windowEnv] using hdeeds

/-- After its decision a call starts from a known position, unless it decided
at an unknown one. -/
theorem startsKnown_iff (hrange : pos ≤ 100 ∨ pos = motorPosInvalid) (h100 : desired ≤ 100)
    (hoff : off.cmd.IsOff) (hdec : Decided pos desired rest) :
    StartsKnown desired ([.send off, .command .idle, .current pos] ++ rest) ↔
      pos ≠ motorPosInvalid := by
  have hno : ∀ sent : Sent, sent.cmd.IsOff → sent.cmd.motor1ManualCmd ≠ MotorDirection.inc.code ∧
      sent.cmd.motor1ManualCmd ≠ MotorDirection.dec.code := by
    intro sent hs
    rw [show sent.cmd.motor1ManualCmd = _ from hs]
    decide
  cases hdec with
  | there hpos =>
    refine iff_of_true ?_ (by simp only [motorPosInvalid]; omega)
    simp [StartsKnown, Deed.sent?, hno off hoff]
  | moving hpos sent hsent =>
    refine iff_of_true ?_ (by simp only [motorPosInvalid]; omega)
    simp [StartsKnown, Deed.sent?, hno off hoff, hno sent hsent]
  | away hpos c sent hdir =>
    have hone : decisions ([.send off, .command .idle, .current pos] ++ [.command c, .send sent]) =
        [pos] := rfl
    have hsends : List.filterMap Deed.sent?
        ([.send off, .command .idle, .current pos] ++ [.command c, .send sent]) = [off, sent] := rfl
    unfold StartsKnown
    rw [hone, hsends]
    simp only [List.forall_mem_cons, IsEmpty.forall_iff, List.mem_singleton, forall_eq,
      exists_eq_left, true_and, and_true, hno off hoff, hdir]
    simp only [motorPosInvalid] at hrange ⊢
    by_cases hlt : (pos : Int) < desired
    · simp [directionTo, hlt, MotorDirection.code]
      omega
    · simp [directionTo, hlt, MotorDirection.code]
      omega

theorem exec_setPosition_amid (hlive : Live w) (h0 : 0 ≤ desired) (h100 : desired ≤ 100) :
    (seatctrlSetPosition plat me desired).execAmid (windowEnv plat turns) w =
      let known := positionKnown.execAmid (windowEnv plat turns) w
      if known.1 then (commandPosition plat me desired).execAmid (windowEnv plat turns) known.2
      else (seatCtrlErrNoFrames, known.2) := by
  have hrange : ¬(desired < 0 ∨ desired > 100) := by omega
  simp [seatctrlSetPosition, windowEnv, hlive.magic, hrange]

theorem callDeeds_spec (hlive : Live w) (h0 : 0 ≤ desired) (h100 : desired ≤ 100) :
    StartsKnown desired (callDeeds plat n desired turns w) ↔ PositionKept plat w turns := by
  have hstart : Tracks n w (Ear.of w) w := ⟨hlive, rfl, rfl⟩
  obtain ⟨htracks, hknown⟩ := hstart.positionKnown plat turns
  unfold callDeeds PositionKept
  rw [exec_setPosition_amid hlive h0 h100]
  simp only [hknown]
  generalize positionKnown.execAmid (windowEnv plat turns) w = known at htracks
  by_cases hpos : ((Ear.of w).retry plat turns 30).pos = motorPosInvalid
  · -- it gives up without a deed of its own
    simp [hpos, htracks.deeds, StartsKnown]
  · obtain ⟨rest, hdeeds, hdec⟩ := commandPosition_deeds plat turns htracks.live n desired
    rw [htracks.ear, htracks.deeds] at hdeeds
    rw [htracks.ear] at hdec
    simp only [hpos, ne_eq, not_false_eq_true, decide_true, if_true, false_or]
    rw [hdeeds, List.drop_left]
    exact startsKnown_iff (htracks.turns (turns .settle)).position h100 rfl hdec

end

theorem Live.opStep (h : Live w) (hs : opStep plat w op = some w') : Live w' := by
  cases op with
  | setPosition n desired =>
    obtain rfl := Option.some.inj hs
    obtain ⟨c, hctx, hctl, -⟩ := setPosition_ctx plat (.caller n) desired w
    exact h.withCommand hctx hctl
  | stopMovement n =>
    obtain rfl := Option.some.inj hs
    exact h.stopMovement
  | start =>
    obtain ⟨-, hs⟩ := Option.ite_none_right_eq_some.mp hs
    obtain rfl := Option.some.inj hs
    exact ⟨h.magic, h.socket, fun _ => rfl, h.position⟩
  | turn result =>
    have htracks : Tracks 0 w (Ear.of w) w := ⟨h, rfl, rfl⟩
    have hlive := (htracks.turn plat result).live
    unfold ctlTurn at hlive
    rw [hs] at hlive
    exact hlive

theorem Session.opened_live (s : Session) : Live s.opened := by
  rw [opened_eq, context_eq]
  exact ⟨rfl, s.socket_isSome, (fun h => nomatch h), .inr rfl⟩

end

/-- In every state of every run, for every request in range and all turns of
the CTL thread during its waits. -/
theorem set_position_starts_known_iff (plat : Platform) (s : Session) (ops : List Op) :
    Throughout (opStep plat) (fun w => ∀ n desired turns, 0 ≤ desired → desired ≤ 100 →
      (StartsKnown desired (callDeeds plat n desired turns w) ↔ PositionKept plat w turns))
      s.opened ops := by
  have h : Throughout (opStep plat) Live s.opened ops :=
    throughout_of_keeps (fun _ _ _ h hs => h.opStep hs) s.opened_live
  exact h.mono fun w hlive n desired turns h0 h100 => callDeeds_spec hlive h0 h100

/-- A frame without a position arrives during the 100 ms. -/
theorem set_position_starts_unknown :
    ¬Throughout (opStep (.ticking 100 fun _ => none)) (fun w => StartsKnown 50
      (callDeeds (.ticking 100 fun _ => none) 1 50 (fun _ => [statFrame 255 .off]) w))
      Session.bench.opened [.start, .turn (statFrame 20 .off)] := by
  decide

end KuksaServices.Seat
