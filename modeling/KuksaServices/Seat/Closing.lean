import KuksaServices.Seat.Faults

/-!
# Opening and closing the context

`seatctrl_close` stops the CTL thread and closes the socket. It writes no
frame and does not touch the command triple: a movement that is under way at
the close goes on. Closed without an active command, the context is left
with the motor off and nothing to do, and opened again it stays so until a
position is requested (`close_without_command`).

`seatctrl_open` keeps the socket when it fails after it has got one, and
then no later call can open the context (`failed_open_restores_iff`).
-/

namespace KuksaServices.Seat

open Atomic

/-- What the CTL thread does while another thread is closing: it may start
late, or finish the body of a turn that it had begun. -/
inductive CtlWork where
  | start
  | body (result : ReadResult)
  deriving DecidableEq, Repr

def ctlWork (plat : Platform) (w : World) : CtlWork → World
  | .start => (threadStart.exec w).2
  | .body result => ((threadBody plat .ctl result).exec w).2

/-- The work of the CTL thread before each action of `seatctrl_close`. Its
`join` returns when the thread has exited. -/
def closeEnv (plat : Platform) (work : Site → List CtlWork) (l : Site) (w : World) : World :=
  let w := (work l).foldl (ctlWork plat) w
  if l = .join then w.leaveLoop else w

def closed (plat : Platform) (n : Nat) (calls : CloseCalls) (work : Site → List CtlWork)
    (w : World) : World :=
  ((seatctrlClose (.caller n) calls).execAmid (closeEnv plat work) w).2

def Same (v w : World) : Prop := w.log = v.log ∧ w.ctx.command = v.ctx.command

theorem Same.congr (h : Same v w) (hlog : w'.log = w.log)
    (hc : w'.ctx.command = w.ctx.command) : Same v w' :=
  ⟨hlog.trans h.1, hc.trans h.2⟩

theorem Same.calm (h : Same v w) (hc : Calm w w') : Same v w' := h.congr hc.log hc.command

-- ---------------------------------------------------------------------------
-- The CTL thread without a command
-- ---------------------------------------------------------------------------

section
variable {plat : Platform} {v w : World} (hv : v.ctx.command = .idle)
include hv

theorem Same.controlLoop (h : Same v w) :
    Same v ((seatctrlControlLoop plat .ctl).exec w).2 := by
  have hspec := pursue_spec plat w
  cases hp : (pursue plat w).1 with
  | none =>
    rw [exec_controlLoop_idle hp]
    exact h.calm hspec.1.calm
  | some pursuit =>
    simp only [hp] at hspec
    have hrun := hspec.2.running
    simp [isCtlRunning, h.2.trans hv, Command.idle] at hrun

theorem Same.body (h : Same v w) : Same v ((threadBody plat .ctl result).exec w).2 := by
  cases hs : acceptedRead plat result with
  | none =>
    obtain ⟨ctl, events, he, -⟩ := exec_body_deaf .ctl w hs
    rw [he]
    exact h.congr rfl rfl
  | some stat =>
    rw [exec_body_heard hs]
    exact (h.calm (calm_applyStat stat w)).controlLoop hv

theorem Same.turn (h : Same v w) : Same v ((threadTurn plat .ctl result).exec w).2 := by
  cases hs : heardStat plat w result with
  | none =>
    obtain ⟨events, he⟩ := exec_turn_deaf .ctl hs
    rw [he]
    exact h.congr rfl rfl
  | some stat =>
    rw [exec_turn_heard hs]
    exact (h.calm (calm_applyStat stat w)).controlLoop hv

theorem Same.ctlWork (h : Same v w) : Same v (ctlWork plat w work) := by
  cases work with
  | start => exact h.congr rfl rfl
  | body result => exact h.body hv

theorem Same.closeEnv (h : Same v w) : Same v (closeEnv plat work l w) := by
  have hwork : ∀ acts w, Same v w → Same v (List.foldl (Seat.ctlWork plat) w acts) := by
    intro acts
    induction acts with
    | nil => exact fun w h => h
    | cons act acts ih => exact fun w h => ih _ (h.ctlWork hv)
  unfold Seat.closeEnv
  simp only
  split
  · exact (hwork _ w h).congr rfl rfl
  · exact hwork _ w h

end

-- ---------------------------------------------------------------------------
-- Opening and closing leave the bus and the triple alone
-- ---------------------------------------------------------------------------

theorem joinThread_preserves (v : World) (me : Thread) (calls : CloseCalls) :
    Prog.Preserves (Same v) (joinThread me calls) := by
  unfold joinThread
  refine .bind (.peek _ _) fun joins => ?_
  split
  · exact .bind (.pause _) fun _ => .pure _
  · exact .pure _

theorem close_preserves (v : World) (me : Thread) (calls : CloseCalls) :
    Prog.Preserves (Same v) (seatctrlClose me calls) := by
  unfold seatctrlClose
  refine .bind (.peek _ _) fun magic => ?_
  split
  · exact .pure _
  · refine .bind (.atomic fun _ h => h) fun _ => ?_
    refine .bind (.pause _) fun _ => ?_
    refine .bind (.atomic fun _ h => h) fun closed => ?_
    refine .bind (joinThread_preserves v me calls) fun joins => ?_
    exact .bind (.atomic fun _ h => h) fun _ => .pure _

theorem open_preserves (v : World) (calls : OpenCalls) :
    Prog.Preserves (Same v) (seatctrlOpen calls) := by
  unfold seatctrlOpen
  refine .bind (.peek _ _) fun refused => ?_
  cases refused with
  | some rc => exact .pure _
  | none =>
    refine .bind (.atomic fun _ h => h) fun _ => ?_
    split
    · exact .pure _
    refine .bind (.pause _) fun _ => ?_
    split
    · exact .pure _
    refine .bind (.atomic fun _ h => h) fun _ => ?_
    split <;> exact .pure _

def Op.isCtl : Op → Bool
  | .start | .turn _ => true
  | .setPosition .. | .stopMovement _ => false

theorem Same.opStep (hv : v.ctx.command = .idle) (h : Same v w) (hop : op.isCtl = true)
    (hs : opStep plat w op = some w') : Same v w' := by
  cases op with
  | setPosition | stopMovement => cases hop
  | start =>
    obtain ⟨-, hs⟩ := Option.ite_none_right_eq_some.mp hs
    obtain rfl := Option.some.inj hs
    exact h.congr rfl rfl
  | turn result =>
    obtain ⟨-, hs⟩ := Option.ite_none_right_eq_some.mp hs
    obtain rfl := Option.some.inj hs
    exact Same.turn hv (h.calm (calm_turnBegins w))

-- ---------------------------------------------------------------------------
-- Closing without a command
-- ---------------------------------------------------------------------------

/-- After the close the motor is off and no command is stored. Opened again,
the context has no command, and as long as only the CTL thread acts nothing
is sent or stored. -/
def ClosesAtRest (plat : Platform) (w : World) : Prop :=
  ∀ n calls work, ¬MotorMoving (closed plat n calls work w) ∧
    (closed plat n calls work w).ctx.command = .idle ∧
    ∀ calls' w'', (seatctrlOpen calls').exec (closed plat n calls work w) = (seatCtrlOk, w'') →
      isCtlRunning w''.ctx = false ∧
      ∀ ops, Along (opStep plat) (fun _ op => op.isCtl = true) w'' ops →
        Throughout (opStep plat) (Same (closed plat n calls work w)) w'' ops

theorem Agrees.closesAtRest (h : Agrees plat w) (hidle : isCtlRunning w.ctx = false) :
    ClosesAtRest plat w := by
  intro n calls work
  have hopen : Open w := ⟨h.sound.magic, h.sound.socket, h.command⟩
  have hi : w.ctx.command = .idle := hopen.idle_iff.mp hidle
  have hclosed : Same w (closed plat n calls work w) :=
    (close_preserves w (.caller n) calls).execAmid (fun _ _ hw => hw.closeEnv hi) ⟨rfl, rfl⟩
  have hmotor : ¬MotorMoving w := by
    rcases h.last with hl | ⟨hl, -⟩ <;> simp [MotorMoving, hl, hi, Command.idle, MotorDirection.code]
  refine ⟨?_, hclosed.2.trans hi, fun calls' w'' hopened => ?_⟩
  · unfold MotorMoving
    rw [hclosed.1]
    exact hmotor
  · have hrest := hclosed.2.trans hi
    have hsame : Same (closed plat n calls work w) w'' := by
      have := (open_preserves (closed plat n calls work w) calls').exec ⟨rfl, rfl⟩
      rw [hopened] at this
      exact this
    refine ⟨by simp [isCtlRunning, hsame.2.trans hrest, Command.idle], fun ops hctl => ?_⟩
    exact hctl.throughout (fun _ _ _ hw hop hs => hw.opStep hrest hop hs) hsame

/-- In every state of every run when every write succeeds: without an active
command the close is at rest, and by itself a close neither writes a frame
nor touches the triple. -/
theorem close_without_command (plat : Platform) (hok : ∀ n, plat.write n = none) (s : Session)
    (ops : List Op) : Throughout (opStep plat) (fun w =>
      (isCtlRunning w.ctx = false → ClosesAtRest plat w) ∧
        ∀ n calls, Same w ((seatctrlClose (.caller n) calls).exec w).2) s.opened ops := by
  have h : Throughout (opStep plat) (Agrees plat) s.opened ops :=
    throughout_of_keeps (fun _ _ _ h hs => h.opStep hok hs) s.opened_agrees
  refine h.mono fun w hw => ⟨hw.closesAtRest, fun n calls => ?_⟩
  exact (close_preserves w (.caller n) calls).exec ⟨rfl, rfl⟩

theorem close_without_command_bench :
    (∀ n, (Platform.ticking 100 fun _ => none).write n = none) ∧
      Throughout (opStep (.ticking 100 fun _ => none)) (fun w =>
        (isCtlRunning w.ctx = false → ClosesAtRest (.ticking 100 fun _ => none) w) ∧
          ∀ n calls, Same w ((seatctrlClose (.caller n) calls).exec w).2) Session.bench.opened
        [.start, .turn (statFrame 20 .off), .setPosition 1 50, .turn (statFrame 50 .inc)] :=
  ⟨fun _ => rfl, close_without_command _ (fun _ => rfl) _ _⟩

/-- Closed in the middle of a movement, the motor goes on. -/
theorem close_leaves_movement :
    ¬Throughout (opStep (.ticking 100 fun _ => none)) (fun w =>
      ¬MotorMoving (closed (.ticking 100 fun _ => none) 1 ⟨true, true⟩ (fun _ => []) w) ∧
        (closed (.ticking 100 fun _ => none) 1 ⟨true, true⟩ (fun _ => []) w).ctx.command = .idle)
      Session.bench.opened [.start, .turn (statFrame 20 .off), .setPosition 1 50] := by
  decide

-- ---------------------------------------------------------------------------
-- A failed open
-- ---------------------------------------------------------------------------

def OpenCalls.succeed (calls : OpenCalls) : Bool :=
  calls.socket.isSome && calls.bind && calls.pthreadCreate.isSome

theorem exec_open_refused (h : openRefused w.ctx = some rc) :
    (seatctrlOpen calls).exec w = (rc, w) := by
  simp [seatctrlOpen, h]

theorem exec_open_noSocket (h : openRefused w.ctx = none) (hs : calls.socket = none) :
    (seatctrlOpen calls).exec w =
      (seatCtrlErrNoCan, { w with ctx := { w.ctx with socket := none } }) := by
  simp [seatctrlOpen, h, openContext, hs]

theorem exec_open_unbound (h : openRefused w.ctx = none) (hs : calls.socket = some fd)
    (hb : calls.bind = false) : (seatctrlOpen calls).exec w =
      (seatCtrlErrCanBind, { w with ctx := { w.ctx with socket := some fd } }) := by
  simp [seatctrlOpen, h, openContext, hs, hb]

theorem exec_open_noThread (h : openRefused w.ctx = none) (hs : calls.socket = some fd)
    (hb : calls.bind = true) (ht : calls.pthreadCreate = none) : (seatctrlOpen calls).exec w =
      (seatCtrlErr, { w with ctx := { w.ctx with socket := some fd, threadId := none } }) := by
  simp [seatctrlOpen, h, openContext, hs, hb, ht]

theorem exec_open_ok (h : openRefused w.ctx = none) (hc : calls.succeed = true) :
    ((seatctrlOpen calls).exec w).1 = seatCtrlOk := by
  simp only [OpenCalls.succeed, Bool.and_eq_true, Option.isSome_iff_exists] at hc
  obtain ⟨⟨⟨fd, hfd⟩, hb⟩, id, hid⟩ := hc
  simp [seatctrlOpen, h, openContext, hfd, hb, hid]

theorem socket_of_openRefused (h : openRefused ctx = none) : ctx.socket = none := by
  unfold openRefused at h
  split_ifs at h with _ hs
  simpa using hs

/-- If `seatctrl_open` fails it leaves the context as it was, so that a later
call succeeds once its cause is gone. -/
def FailedOpenRestores (calls : OpenCalls) (w : World) : Prop :=
  ((seatctrlOpen calls).exec w).1 ≠ seatCtrlOk →
    ((seatctrlOpen calls).exec w).2.ctx = w.ctx ∧
    (openRefused w.ctx = none → ∀ later : OpenCalls, later.succeed = true →
      ((seatctrlOpen later).exec ((seatctrlOpen calls).exec w).2).1 = seatCtrlOk)

theorem failedOpenRestores_of_ctx (h : ((seatctrlOpen calls).exec w).2.ctx = w.ctx) :
    FailedOpenRestores calls w := by
  intro _
  refine ⟨h, fun hr later hl => exec_open_ok ?_ hl⟩
  rw [h]
  exact hr

theorem not_failedOpenRestores (he : (seatctrlOpen calls).exec w = (rc, v)) (hrc : rc ≠ seatCtrlOk)
    (hs : v.ctx.socket ≠ w.ctx.socket) : ¬FailedOpenRestores calls w := by
  intro h
  simp only [FailedOpenRestores, he] at h
  exact hs (by rw [(h hrc).1])

/-- For every context and every outcome of the system calls. Once the checks
are passed and a socket is there, the context is restored only when nothing
fails any more. -/
theorem failed_open_restores_iff (calls : OpenCalls) (w : World) :
    FailedOpenRestores calls w ↔
      (openRefused w.ctx = none → calls.socket.isSome = true →
        calls.bind = true ∧ calls.pthreadCreate.isSome = true) := by
  cases hr : openRefused w.ctx with
  | some rc =>
    refine iff_of_true (failedOpenRestores_of_ctx ?_) (fun h => by cases h)
    rw [exec_open_refused hr]
  | none =>
    have hsock := socket_of_openRefused hr
    cases hs : calls.socket with
    | none =>
      refine iff_of_true (failedOpenRestores_of_ctx ?_) (fun _ h => by cases h)
      rw [exec_open_noSocket hr hs, ← hsock]
    | some fd =>
      cases hb : calls.bind with
      | false =>
        refine iff_of_false (not_failedOpenRestores (exec_open_unbound hr hs hb) ?_ ?_) (by simp)
        · decide
        · simp [hsock]
      | true =>
        cases ht : calls.pthreadCreate with
        | none =>
          refine iff_of_false (not_failedOpenRestores (exec_open_noThread hr hs hb ht) ?_ ?_) (by simp)
          · decide
          · simp [hsock]
        | some id =>
          refine iff_of_true (fun hrc => absurd (exec_open_ok hr ?_) hrc) (by simp)
          simp [OpenCalls.succeed, hs, hb, ht]

/-- A device that cannot be bound: the socket stays, and the next call is
refused although its system calls would all succeed. -/
theorem failed_bind_blocks_open :
    ¬FailedOpenRestores ⟨some 3, false, false, true, some 1⟩
        (.boot .initial Session.bench.context) ∧
      ((seatctrlOpen ⟨some 4, true, true, true, some 1⟩).exec
        ((seatctrlOpen ⟨some 3, false, false, true, some 1⟩).exec
          (.boot .initial Session.bench.context)).2).1 = seatCtrlErr := by
  refine ⟨not_failedOpenRestores rfl ?_ ?_, ?_⟩ <;> decide

end KuksaServices.Seat
