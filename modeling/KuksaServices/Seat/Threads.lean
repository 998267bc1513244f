import KuksaServices.Atomic.Pool
import KuksaServices.Seat.Operations

/-!
# Concurrent requests

The CTL thread and any number of callers in one pool, action by action. A
change of the bus or the triple is a section: a call's, from its first
motor-off frame to its return, and an iteration's, from the moment it finds
an active command to its end. The source has no lock for it. Runs whose
sections do not overlap keep every command (`commands_kept`); two overlapping
calls leave the motor running against the stored direction.
-/

namespace KuksaServices.Seat

open Atomic
open Atomic.Prog (void)

inductive Task where
  | setPosition (desired : Int)
  | stopMovement
  | start
  | turn (result : ReadResult)
  deriving DecidableEq, Repr

/-- The CTL thread starts once and takes turns; the others call. -/
def taskCode (plat : Platform) : Task → Thread → World → Option (Ctl Unit)
  | .setPosition desired, .caller n, _ => some (void (seatctrlSetPosition plat (.caller n) desired))
  | .stopMovement, .caller n, _ => some (void (seatctrlStopMovement plat (.caller n)))
  | .start, .ctl, w => if w.ctl = .created then some threadStart else none
  | .turn result, .ctl, w => if w.ctl = .looping then some (threadTurn plat .ctl result) else none
  | _, _, _ => none

theorem taskCode_cases {P : Ctl Unit → Prop}
    (hset : ∀ n desired, P (void (seatctrlSetPosition plat (.caller n) desired)))
    (hstop : ∀ n, P (void (seatctrlStopMovement plat (.caller n)))) (hstart : P threadStart)
    (hturn : ∀ result, P (threadTurn plat .ctl result)) (h : taskCode plat task t w = some c) :
    P c := by
  cases task with
  | setPosition desired =>
    cases t with
    | ctl => cases h
    | caller n =>
      obtain rfl := Option.some.inj h
      exact hset n desired
  | stopMovement =>
    cases t with
    | ctl => cases h
    | caller n =>
      obtain rfl := Option.some.inj h
      exact hstop n
  | start =>
    cases t with
    | caller n => cases h
    | ctl =>
      obtain ⟨-, h⟩ := Option.ite_none_right_eq_some.mp h
      obtain rfl := Option.some.inj h
      exact hstart
  | turn result =>
    cases t with
    | caller n => cases h
    | ctl =>
      obtain ⟨-, h⟩ := Option.ite_none_right_eq_some.mp h
      obtain rfl := Option.some.inj h
      exact hturn result

/-- The CTL thread starts after it was created and acts until it has left its
loop; then `pthread_join` returns. -/
def Site.enabled (l : Site) (w : World) : Bool :=
  match l with
  | .start => w.ctl = .created
  | .whileTest | .readTimeout | .readFailed => w.ctl = .looping
  | .join => w.ctl = .exited
  | _ => true

def Site.changes (l : Site) : Bool := l == .decide || l.changing

def changeSections (plat : Platform) : Sections Thread Site World Task where
  code := taskCode plat
  enabled := Site.enabled
  opens := Site.changes
  inner := Site.changing
  disc := changes
  inv := Agrees plat
  out _ := Calm
  proper _ _ := True
  inv_stable := stable_agrees
  rely_of_out _ _ _ h := h
  inner_of_site _ h := h
  opens_of_inner l h := by simp [Site.changes, h]
  on_of_proper _ _ _ _ := trivial

instance (plat : Platform) (l : Site) (w : World) : Decidable ((changeSections plat).proper l w) :=
  inferInstanceAs (Decidable True)

-- ---------------------------------------------------------------------------
-- The code outside the sections
-- ---------------------------------------------------------------------------

structure WaitsOutside (X : Sections Thread Site World ι) : Prop where
  poll : X.opens .poll = false
  retryWait : ∀ n, X.opens (.retryWait n) = false
  idle : ∀ l w, X.out l w w

section
variable {X : Sections Thread Site World ι}

theorem waitForPosition_quiet (hX : WaitsOutside X) (n : Nat) : X.Quiet (waitForPosition n) := by
  induction n with
  | zero => trivial
  | succ n ih =>
    refine Sections.Quiet.bind (.atomic hX.poll fun w _ => hX.idle _ w) fun pos => ?_
    split
    · trivial
    · exact .bind (.atomic (hX.retryWait n) fun w _ => hX.idle _ w) fun _ => ih

theorem positionKnown_quiet (hX : WaitsOutside X) : X.Quiet positionKnown := by
  refine Sections.Quiet.bind (.atomic hX.poll fun w _ => hX.idle _ w) fun pos => ?_
  split
  · trivial
  · refine .bind (waitForPosition_quiet hX 30) fun _ => ?_
    exact .bind (.atomic hX.poll fun w _ => hX.idle _ w) fun _ => trivial

end

section
variable {plat : Platform}

theorem calm_leaveLoop (w : World) : Calm w w.leaveLoop := ⟨rfl, rfl, rfl, rfl, rfl, rfl⟩

theorem calm_eventCb (w : World) (event : SeatCtrlEvent) (value : Int) :
    Calm w (w.eventCb event value) := by
  obtain ⟨events, he⟩ := eventCb_eq w event value
  rw [he]
  exact ⟨rfl, rfl, rfl, rfl, rfl, rfl⟩

theorem Keeps.void {p : Ctl α} (h : Keeps A p fun _ => Agrees plat) :
    Keeps A (void p) fun _ => Agrees plat :=
  Keeps.bind h fun _ => Prog.Triple.pure (B := fun _ => Agrees plat) stable_agrees

variable (hok : ∀ n, plat.write n = none)
include hok

theorem stopMovement_outside (n : Nat) :
    (changeSections plat).Outside (void (seatctrlStopMovement plat (.caller n))) := by
  refine Sections.Outside.ofTriple (X := changeSections plat) ?_ fun _ => rfl
  exact Keeps.void ((stopMovement_caller hok).conseq (fun w h => h.sound) fun _ _ h => h.agrees)

theorem commandPosition_outside (n : Nat) (h0 : 0 ≤ desired) (h100 : desired ≤ 100) :
    (changeSections plat).Outside (void (commandPosition plat (.caller n) desired)) := by
  refine Sections.Outside.ofTriple (X := changeSections plat) ?_ fun _ => rfl
  exact Keeps.void (commandPosition_keeps hok h0 h100)

theorem setPosition_outside (n : Nat) (desired : Int) :
    (changeSections plat).Outside (void (seatctrlSetPosition plat (.caller n) desired)) := by
  unfold seatctrlSetPosition
  rw [Prog.void_bind]
  refine .bind (.atomic rfl fun w _ => Calm.refl w) fun magic => ?_
  split_ifs with hm hr
  · trivial
  · trivial
  · rw [Prog.void_bind]
    refine .bind (positionKnown_quiet ⟨rfl, fun _ => rfl, fun _ => Calm.refl⟩) fun known => ?_
    split
    · exact commandPosition_outside hok n (by omega) (by omega)
    · trivial

omit hok in
theorem pursueCommand_within (pursuit : Pursuit) :
    (changeSections plat).within .decide (void (pursueCommand plat .ctl pursuit)) = true := by
  unfold pursueCommand
  split <;> rfl

theorem controlLoop_outside : (changeSections plat).Outside (void (seatctrlControlLoop plat .ctl)) := by
  unfold seatctrlControlLoop
  rw [Prog.void_bind]
  refine .atomic (fun w _ hw h => ⟨trivial, ?_⟩) fun w _ hw => ?_
  · cases hp : (pursue plat w).1 with
    | none =>
      rw [hp] at hw
      cases hw
    | some pursuit =>
      refine Prog.Holds.bind ((Agrees.pursueCommand_holds hok h hp).mono fun _ v hv => ?_)
      exact fun t ht => hv.calm ht
  · cases hp : (pursue plat w).1 with
    | none => exact ⟨(pursue_spec plat w).1.calm, trivial⟩
    | some pursuit =>
      simp only [hp] at hw
      rw [pursueCommand_within] at hw
      cases hw

theorem threadBody_outside (result : ReadResult) :
    (changeSections plat).Outside (threadBody plat .ctl result) := by
  cases result with
  | error err =>
    simp only [threadBody]
    split_ifs with hagain hintr hdown
    · refine Sections.Quiet.outside (.atomic rfl fun w _ => ?_)
      simp only
      split
      · exact Calm.refl w
      · exact calm_leaveLoop w
    · trivial
    · exact Sections.Quiet.outside (.atomic rfl fun w _ => calm_eventCb w _ _)
    · refine Sections.Quiet.outside (.atomic rfl fun w _ => ?_)
      exact (calm_eventCb w _ _).trans (calm_leaveLoop _)
  | frame frame =>
    simp only [threadBody]
    split
    · refine .bind (.atomic rfl fun w _ => ?_) fun rc => ?_
      · cases acceptedStat plat frame with
        | none => exact Calm.refl w
        | some stat => exact calm_applyStat stat w
      · split
        · exact controlLoop_outside hok
        · trivial
    · trivial

theorem threadTurn_outside (result : ReadResult) :
    (changeSections plat).Outside (threadTurn plat .ctl result) := by
  refine .bind (.atomic rfl fun w _ => ?_) fun go => ?_
  · simp only
    split
    · exact Calm.refl w
    · exact calm_leaveLoop w
  · split
    · exact threadBody_outside hok result
    · trivial

theorem taskCode_outside (h : taskCode plat task t w = some c) : (changeSections plat).Outside c := by
  refine taskCode_cases (setPosition_outside hok) (stopMovement_outside hok) ?_
    (threadTurn_outside hok) h
  refine Sections.Quiet.outside (.atomic rfl fun w _ => ?_)
  exact ⟨rfl, rfl, rfl, rfl, rfl, rfl⟩

end

-- ---------------------------------------------------------------------------
-- What becomes of the commands
-- ---------------------------------------------------------------------------

def NoReversal (frames : List Secu1Cmd1) : Prop :=
  ∀ before a b after, frames = before ++ a :: b :: after → a.Moves → ¬b.Moves

/-- The bus agrees with the stored command, and that is the one the last
caller left unless the control loop ended it for its own target or timeout. -/
structure CommandsKept (plat : Platform) (w : World) : Prop where
  last : lastCmd w.log = some w.ctx.command.direction.code ∨
    written w.log = [] ∧ w.ctx.command = .idle
  noReversal : NoReversal (written w.log)
  ledger : Ledger plat w

theorem Tidy.noReversal (h : Tidy log) : NoReversal (written log) := by
  intro before a b after heq ha hb
  obtain ⟨c, hc, hoff⟩ := h.preceded (before ++ [a]) b after (by simpa using heq) hb
  obtain rfl : a = c := by simpa using hc
  rcases ha with ha | ha <;> simp [Secu1Cmd1.IsOff, ha, MotorDirection.code] at hoff

theorem Agrees.commandsKept (h : Agrees plat w) : CommandsKept plat w :=
  ⟨h.busAgrees.last, h.sound.tidy.noReversal, h.ledger⟩

/-- Whatever the interleaving, when no two sections overlap and every write
succeeds. -/
theorem commands_kept (plat : Platform) (hok : ∀ n, plat.write n = none) (s : Session)
    (moves : List (Move Thread Task))
    (hrun : Along (changeSections plat).step ((changeSections plat).Orderly fun _ _ => True)
      (.idle s.opened) moves) :
    Throughout (changeSections plat).step (fun p => p.Quiescent → CommandsKept plat p.shared)
      (.idle s.opened) moves := by
  have hord := Sections.ordered (fun t task w c _ hc => taskCode_outside hok hc)
    (Sections.ordered_idle s.opened_agrees) hrun
  refine hord.mono fun p hp hq => ?_
  exact Agrees.commandsKept (hp.inv_of_quiescent hq)

-- ---------------------------------------------------------------------------
-- Two callers
-- ---------------------------------------------------------------------------

def steps (t : Thread) (n : Nat) : List (Move Thread ι) := List.replicate n (.step t)

def benchKnown : List (Move Thread Task) :=
  .start .ctl .start :: .step .ctl :: .start .ctl (.turn (statFrame 20 .off)) :: steps .ctl 3

/-- Caller 2 waits for the position while caller 1 changes the command, and
calls only after an iteration has found that command active. Other iterations
read in between: status frames, and nothing. -/
def benchInTurn : List (Move Thread Task) :=
  List.flatten [
    benchKnown,
    [.start (.caller 1) (.setPosition 50), .start .ctl (.turn (statFrame 20 .off)), .step (.caller 1)],
    steps .ctl 3,
    steps (.caller 1) 2,
    [.start (.caller 2) (.setPosition 10), .start .ctl (.turn (statFrame 20 .off)), .step (.caller 2)],
    steps .ctl 2,
    steps (.caller 1) 6,
    .step .ctl :: .start .ctl (.turn (statFrame 30 .inc)) :: steps .ctl 2,
    .step (.caller 2) :: steps .ctl 2,
    steps (.caller 2) 3,
    .start .ctl (.turn (.error eagain)) :: steps .ctl 2,
    steps (.caller 2) 4,
    .start .ctl (.turn (statFrame 10 .dec)) :: steps .ctl 7]

/-- Caller 1's increase, the turn to caller 2's decrease, and its end. -/
theorem commands_kept_bench :
    Along (changeSections (.ticking 100 fun _ => none)).step
      ((changeSections (.ticking 100 fun _ => none)).Orderly fun _ _ => True)
      (.idle Session.bench.opened) benchInTurn ∧
    Throughout (changeSections (.ticking 100 fun _ => none)).step
      (fun p => p.Quiescent → CommandsKept (.ticking 100 fun _ => none) p.shared)
      (.idle Session.bench.opened) benchInTurn ∧
    (run (changeSections (.ticking 100 fun _ => none)).step (.idle Session.bench.opened)
      benchInTurn).map (fun p => ([.ctl, .caller 1, .caller 2].map fun t => (p.thread t).site?,
        p.shared.ctx.command.direction, written p.shared.log)) =
      some ([none, none, none], .off,
        [motor1Cmd .off 0, motor1Cmd .inc 80, motor1Cmd .off 0, motor1Cmd .dec 80, motor1Cmd .off 0]) :=
  ⟨by decide, commands_kept _ (fun _ => rfl) _ _ (by decide), by decide⟩

/-- Caller 1 has stored its command and not sent it yet when caller 2 comes
in between with a request in the other direction. -/
def benchOverlap : List (Move Thread Task) :=
  List.flatten [
    benchKnown,
    .start (.caller 1) (.setPosition 50) :: steps (.caller 1) 7,
    .start (.caller 2) (.setPosition 10) :: steps (.caller 2) 9,
    steps (.caller 1) 2]

/-- Both callers have returned: a decrease is stored and the motor increases,
without a motor-off frame after the decrease. -/
theorem overlapping_calls_lose_command :
    ∃ p, run (changeSections (.ticking 100 fun _ => none)).step (.idle Session.bench.opened)
        benchOverlap = some p ∧ p.Quiescent ∧
      p.shared.ctx.command.direction = .dec ∧ lastCmd p.shared.log = some MotorDirection.inc.code ∧
      ¬NoReversal (written p.shared.log) ∧ ¬CommandsKept (.ticking 100 fun _ => none) p.shared := by
  have hend : (run (changeSections (.ticking 100 fun _ => none)).step (.idle Session.bench.opened)
      benchOverlap).map (fun p => ([.ctl, .caller 1, .caller 2].map fun t => (p.thread t).site?,
        p.shared.ctx.command.direction, written p.shared.log)) =
      some ([none, none, none], .dec,
        [motor1Cmd .off 0, motor1Cmd .off 0, motor1Cmd .dec 80, motor1Cmd .inc 80]) := by
    decide
  obtain ⟨p, hrun, hp⟩ := Option.map_eq_some_iff.mp hend
  simp only [List.map_cons, List.map_nil, Prod.mk.injEq, List.cons.injEq, and_true] at hp
  obtain ⟨⟨hctl, hone, htwo⟩, hdir, hlog⟩ := hp
  have hlast : lastCmd p.shared.log = some MotorDirection.inc.code := by
    rw [lastCmd, hlog]
    rfl
  have hreversal : ¬NoReversal (written p.shared.log) := by
    intro h
    exact h [motor1Cmd .off 0, motor1Cmd .off 0] _ _ [] hlog (by decide) (by decide)
  refine ⟨p, hrun, fun t => ?_, hdir, hlast, hreversal, fun h => hreversal h.noReversal⟩
  by_cases ht : t = .ctl ∨ t = .caller 1 ∨ t = .caller 2
  · rcases ht with rfl | rfl | rfl
    · exact hctl
    · exact hone
    · exact htwo
  · rw [Rules.run_thread _ ?_ hrun]
    · rfl
    · intro m hm heq
      have hmoved : ∀ m ∈ benchOverlap, m.thread ∈ [Thread.ctl, .caller 1, .caller 2] := by decide
      exact ht (by simpa [heq] using hmoved m hm)

end KuksaServices.Seat
