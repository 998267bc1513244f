import Mathlib.Data.List.TakeWhile
import KuksaServices.Seat.Outcomes

/-!
# The reader of the CAN socket

The life of `seatctrl_threadFunc` over any results of `read`, with anything
the other threads do in between. What it passes to `handle_secu_stat` and
when it runs the control loop are read off the actions it takes. It goes on
after `EAGAIN` and `EINTR`. The source means to go on after `ENETDOWN` too,
but compares the result of `read` with it, so the first `ENETDOWN` ends the
thread.
-/

namespace KuksaServices.Seat

open Atomic

-- ---------------------------------------------------------------------------
-- Runs of the reader
-- ---------------------------------------------------------------------------

def World.isOpen (w : World) : Bool := w.ctx.running && w.ctx.socket.isSome

/-- One result of `read`, with what the other threads do before each action
of the turn. The state of the CTL thread is its own. -/
structure Turn where
  result : ReadResult
  others : Site → World → World
  keeps_ctl : ∀ l w, (others l w).ctl = w.ctl

structure OpenTurn extends Turn where
  keeps_open : ∀ l w, w.isOpen = true → (others l w).isOpen = true

inductive Call where
  | handleSecuStat (frame : CanFrame)
  | controlLoop
  deriving DecidableEq, Repr

def callAt (result : ReadResult) : Site → Option Call
  | .handle => match result with
    | .frame frame => some (.handleSecuStat frame)
    | .error _ => none
  | .decide => some .controlLoop
  | _ => none

theorem callAt_handle (frame : CanFrame) :
    callAt (.frame frame) .handle = some (.handleSecuStat frame) := rfl

theorem callAt_decide (result : ReadResult) : callAt result .decide = some .controlLoop := rfl

/-- The world, and what `seatctrl_threadFunc` has done so far. `closed` tells
that one of its actions found the context closed. -/
structure Reader where
  world : World
  reads : List ReadResult
  calls : List Call
  closed : Bool

def Reader.start (w : World) : Reader := ⟨(threadStart.exec w).2, [], [], false⟩

def readerStep (plat : Platform) (s : Reader) (turn : Turn) : Option Reader :=
  if s.world.ctl = .looping then
    let visits := (threadTurn plat .ctl turn.result).visits turn.others s.world
    some {
      world := ((threadTurn plat .ctl turn.result).execAmid turn.others s.world).2
      -- `read` comes after a loop test that has passed
      reads := s.reads ++ if visits.any fun v => v.1 == .whileTest && v.2.isOpen then [turn.result] else []
      calls := s.calls ++ visits.filterMap fun v => callAt turn.result v.1
      closed := s.closed || visits.any fun v => !v.2.isOpen }
  else none

-- ---------------------------------------------------------------------------
-- What the reader is to do
-- ---------------------------------------------------------------------------

/-- A frame, or an error after which reading goes on. -/
def ReadResult.survivable : ReadResult → Bool
  | .frame _ => true
  | .error err => err == eagain || err == eintr || err == enetdown

def ReadResult.calls (plat : Platform) : ReadResult → List Call
  | .error _ => []
  | .frame received =>
    if received.canId = secu1StatFrameId then
      .handleSecuStat received :: if (acceptedStat plat received).isSome then [.controlLoop] else []
    else []

structure Survives (plat : Platform) (s : Reader) : Prop where
  calls : s.calls = (s.reads.takeWhile ReadResult.survivable).flatMap (ReadResult.calls plat)
  exited : s.world.ctl = .exited → s.closed = true ∨ ∃ result ∈ s.reads, result.survivable = false

section
variable {plat : Platform} {me : Thread} {A : World → Prop} {s t : Reader} {turn : Turn}

-- ---------------------------------------------------------------------------
-- The actions of a turn
-- ---------------------------------------------------------------------------

def OfThread (A : World → Prop) : Prop :=
  ∀ w w' : World, w'.ctl = w.ctl → w'.ctx.running = w.ctx.running → w'.ctx.socket = w.ctx.socket →
    A w → A w'

section
variable {S : Site → Prop} (hS : ∀ l, l.changing = true → S l) (hA : OfThread A)
include hS hA

theorem sendCmd1_within : Prog.Within S A (seatctrlSendCmd1 plat me dir rpm) :=
  .atomic (hS _ rfl) fun w h => hA w _ sendCmd1_ctl (congrArg Context.running sendCmd1_ctx)
    (congrArg Context.socket sendCmd1_ctx) h

theorem stopMovement_within : Prog.Within S A (seatctrlStopMovement plat me) := by
  refine .bind (sendCmd1_within hS hA) fun _ => ?_
  exact .bind (.atomic (hS _ rfl) fun w h => hA w _ rfl rfl rfl h) fun _ => .pure _

theorem resendCommand_within : Prog.Within S A (resendCommand plat me) := by
  refine .bind (sendCmd1_within hS hA) fun _ => ?_
  refine .bind (.atomic (hS _ rfl) fun _ h => h) fun _ => ?_
  refine .bind (.atomic (hS _ rfl) fun _ h => h) fun _ => ?_
  exact .bind (sendCmd1_within hS hA) fun _ => .pure _

theorem checkCommand_within (pursuit : Pursuit) : Prog.Within S A (checkCommand plat me pursuit) := by
  refine .bind (.atomic (hS _ rfl) fun w h => ?_) fun ending => ?_
  · unfold checkEnding cacheMotorState
    simp only
    split_ifs <;> split <;> exact hA w _ rfl rfl rfl h
  · split
    · refine .bind (stopMovement_within hS hA) fun _ => ?_
      exact .bind (.atomic (hS _ rfl) fun w h => hA w _ rfl rfl rfl h) fun _ => .pure _
    · exact .pure _

theorem pursueCommand_within_sites (pursuit : Pursuit) :
    Prog.Within S A (pursueCommand plat me pursuit) := by
  unfold pursueCommand
  split
  · exact .bind (resendCommand_within hS hA) fun _ => checkCommand_within hS hA pursuit
  · exact checkCommand_within hS hA pursuit

end

theorem pursue_keeps (hA : OfThread A) (h : A w) : A (pursue plat w).2 := by
  have hlook := (pursue_spec plat w).1
  exact hA w _ hlook.ctl (congrArg Context.running hlook.ctx) (congrArg Context.socket hlook.ctx) h

theorem controlLoop_amid (plat : Platform) (me : Thread) (result : ReadResult) (hA : OfThread A)
    (henv : ∀ l w, A w → A (env l w)) (h : A w) :
    ((seatctrlControlLoop plat me).visits env w).filterMap (fun v => callAt result v.1) =
        [.controlLoop] ∧
      A ((seatctrlControlLoop plat me).execAmid env w).2 := by
  have hlook : A (pursue plat (env .decide w)).2 := pursue_keeps hA (henv _ _ h)
  simp only [seatctrlControlLoop, Prog.visits_bind, Prog.visits_atomic, Prog.execAmid_bind,
    Prog.execAmid_atomic, List.filterMap_append, List.filterMap_cons, callAt_decide, List.filterMap_nil]
  cases (pursue plat (env .decide w)).1 with
  | none => exact ⟨rfl, hlook⟩
  | some pursuit =>
    have hwithin : Prog.Within (fun l => l.changing = true) A (pursueCommand plat me pursuit) :=
      pursueCommand_within_sites (fun _ hl => hl) hA pursuit
    refine ⟨?_, hwithin.execAmid henv hlook⟩
    have hnone : ∀ v ∈ (pursueCommand plat me pursuit).visits env (pursue plat (env .decide w)).2,
        callAt result v.1 = none := by
      intro v hv
      have hsite := (hwithin.visits henv hlook v hv).1
      cases hl : v.1 <;> simp_all [Site.changing, callAt]
    rw [List.filterMap_eq_nil_iff.mpr hnone]
    rfl

structure BodyDone (plat : Platform) (result : ReadResult) (visits : List (Site × World))
    (w : World) : Prop where
  calls : visits.filterMap (fun v => callAt result v.1) = result.calls plat
  recoverable : result.recoverable = true →
    w.ctl = .looping ∨ w.ctl = .exited ∧ ∃ v ∈ visits, v.2.isOpen = false
  fatal : result.recoverable = false → w.ctl = .exited

section
variable {env : Site → World → World} {w : World} (henv : ∀ l w, (env l w).ctl = w.ctl)
  (hw : w.ctl = .looping)
include henv hw

theorem error_amid (plat : Platform) (me : Thread) (err : Nat) : BodyDone plat (.error err)
    ((threadBody plat me (.error err)).visits env w)
    ((threadBody plat me (.error err)).execAmid env w).2 := by
  by_cases hagain : err = eagain
  · have hctl := (henv .readTimeout w).trans hw
    refine ⟨by simp [threadBody, hagain, callAt, ReadResult.calls], fun _ => ?_,
      fun h => by simp [ReadResult.recoverable, hagain] at h⟩
    cases hr : (env .readTimeout w).ctx.running with
    | true => exact .inl (by simp [threadBody, hagain, hr, hctl])
    | false =>
      refine .inr ⟨by simp [threadBody, hagain, hr, World.leaveLoop], (.readTimeout, env .readTimeout w), ?_⟩
      simp [threadBody, hagain, World.isOpen, hr]
  · by_cases hintr : err = eintr
    · refine ⟨by simp [threadBody, hintr, eagain, eintr, ReadResult.calls], fun _ => .inl ?_,
        fun h => by simp [ReadResult.recoverable, hintr] at h⟩
      simpa [threadBody, hintr, eagain, eintr] using hw
    · refine ⟨by simp [threadBody, hagain, hintr, callAt, ReadResult.calls],
        fun h => by simp [ReadResult.recoverable, hagain, hintr] at h, fun _ => ?_⟩
      simp [threadBody, hagain, hintr, readError, enetdown, World.leaveLoop]

theorem frame_amid (plat : Platform) (me : Thread) (frame : CanFrame) : BodyDone plat (.frame frame)
    ((threadBody plat me (.frame frame)).visits env w)
    ((threadBody plat me (.frame frame)).execAmid env w).2 := by
  by_cases hid : frame.canId = secu1StatFrameId
  · have hctl := (henv .handle w).trans hw
    cases hstat : acceptedStat plat frame with
    | none =>
      refine ⟨?_, fun _ => .inl ?_, fun h => by cases h⟩
      · simp [threadBody, handleSecuStat, hid, hstat, rejectedStat_ne_ok, callAt, ReadResult.calls]
      · simpa [threadBody, handleSecuStat, hid, hstat, rejectedStat_ne_ok] using hctl
    | some stat =>
      have hloop := controlLoop_amid (A := fun w => w.ctl = .looping) plat me (.frame frame)
        (fun _ _ hc _ _ h => hc.trans h) (fun l w h => (henv l w).trans h)
        ((applyStat_ctl stat (env .handle w)).trans hctl)
      refine ⟨?_, fun _ => .inl ?_, fun h => by cases h⟩
      · simp [threadBody, handleSecuStat, hid, hstat, callAt_handle, hloop.1, ReadResult.calls]
      · simpa [threadBody, handleSecuStat, hid, hstat] using hloop.2
  · refine ⟨by simp [threadBody, hid, ReadResult.calls], fun _ => .inl ?_, fun h => by cases h⟩
    simpa [threadBody, hid] using hw

theorem body_amid (plat : Platform) (me : Thread) (result : ReadResult) : BodyDone plat result
    ((threadBody plat me result).visits env w) ((threadBody plat me result).execAmid env w).2 := by
  cases result with
  | error err => exact error_amid henv hw plat me err
  | frame frame => exact frame_amid henv hw plat me frame

end

-- ---------------------------------------------------------------------------
-- A turn
-- ---------------------------------------------------------------------------

section
variable {env : Site → World → World} {w : World}

theorem turn_closed (plat : Platform) (me : Thread) (result : ReadResult)
    (h : (env .whileTest w).isOpen = false) :
    (threadTurn plat me result).visits env w = [(.whileTest, env .whileTest w)] ∧
      ((threadTurn plat me result).execAmid env w).2 = (env .whileTest w).leaveLoop := by
  have hgo : ¬((env .whileTest w).ctx.running = true ∧ (env .whileTest w).ctx.socket.isSome = true) := by
    simpa [World.isOpen] using h
  simp [threadTurn, hgo]

theorem turn_open (plat : Platform) (me : Thread) (result : ReadResult)
    (h : (env .whileTest w).isOpen = true) :
    (threadTurn plat me result).visits env w =
        (.whileTest, env .whileTest w) :: (threadBody plat me result).visits env (env .whileTest w) ∧
      ((threadTurn plat me result).execAmid env w).2 =
        ((threadBody plat me result).execAmid env (env .whileTest w)).2 := by
  have hgo : (env .whileTest w).ctx.running = true ∧ (env .whileTest w).ctx.socket.isSome = true := by
    simpa [World.isOpen] using h
  simp [threadTurn, hgo]

end

structure TurnDone (plat : Platform) (s : Reader) (result : ReadResult) (t : Reader) : Prop where
  looping : s.world.ctl = .looping
  closed : s.closed = true → t.closed = true
  done : t.closed = true ∧ t.world.ctl = .exited ∧ t.reads = s.reads ∧ t.calls = s.calls ∨
    t.reads = s.reads ++ [result] ∧ t.calls = s.calls ++ result.calls plat ∧
      (result.recoverable = true →
        t.world.ctl = .looping ∨ t.world.ctl = .exited ∧ t.closed = true) ∧
      (result.recoverable = false → t.world.ctl = .exited)

theorem readerStep_done (h : readerStep plat s turn = some t) : TurnDone plat s turn.result t := by
  obtain ⟨hloop, h⟩ := Option.ite_none_right_eq_some.mp h
  obtain rfl := Option.some.inj h
  refine ⟨hloop, fun hc => by simp [hc], ?_⟩
  have hctl := (turn.keeps_ctl .whileTest s.world).trans hloop
  cases hopen : (turn.others .whileTest s.world).isOpen with
  | false =>
    left
    obtain ⟨hvisits, hexec⟩ := turn_closed plat .ctl turn.result hopen
    simp only [hvisits, hexec]
    simp [hopen, callAt, World.leaveLoop]
  | true =>
    right
    obtain ⟨hvisits, hexec⟩ := turn_open plat .ctl turn.result hopen
    have hbody := body_amid turn.keeps_ctl hctl plat .ctl turn.result
    simp only [hvisits, hexec]
    refine ⟨by simp [hopen], ?_, ?_, hbody.fatal⟩
    · rw [List.filterMap_cons, hbody.calls]
      rfl
    · intro hr
      rcases hbody.recoverable hr with hc | ⟨hc, v, hv, hclosed⟩
      · exact .inl hc
      · refine .inr ⟨hc, ?_⟩
        rw [Bool.or_eq_true, List.any_eq_true]
        exact .inr ⟨v, List.mem_cons_of_mem _ hv, by simp [hclosed]⟩

-- ---------------------------------------------------------------------------
-- A context that stays open
-- ---------------------------------------------------------------------------

theorem isOpen_congr (w w' : World) (hr : w'.ctx.running = w.ctx.running)
    (hs : w'.ctx.socket = w.ctx.socket) (h : w.isOpen = true) : w'.isOpen = true := by
  unfold World.isOpen at h ⊢
  rw [hr, hs]
  exact h

theorem isOpen_eventCb (event : SeatCtrlEvent) (value : Int) (h : World.isOpen w = true) :
    (w.eventCb event value).isOpen = true := by
  obtain ⟨events, he⟩ := eventCb_eq w event value
  rw [he]
  exact h

theorem controlLoop_open : Prog.Within (fun _ => True) (fun w => w.isOpen = true)
    (seatctrlControlLoop plat me) := by
  have hopen : OfThread fun w => w.isOpen = true := fun w w' _ hr hs h => isOpen_congr w w' hr hs h
  refine .bind (.atomic trivial fun w h => pursue_keeps hopen h) fun pursuit => ?_
  cases pursuit with
  | none => exact .pure _
  | some pursuit => exact pursueCommand_within_sites (fun _ _ => trivial) hopen pursuit

theorem threadBody_open (result : ReadResult) :
    Prog.Within (fun _ => True) (fun w => w.isOpen = true) (threadBody plat me result) := by
  cases result with
  | error err =>
    simp only [threadBody]
    split_ifs
    · refine .atomic trivial fun w h => ?_
      simp only
      split
      · exact h
      · exact h
    · exact .pure _
    · exact .atomic trivial fun w h => isOpen_eventCb _ _ h
    · exact .atomic trivial fun w h => isOpen_eventCb _ _ h
  | frame frame =>
    simp only [threadBody]
    split
    · refine .bind (.atomic trivial fun w h => ?_) fun rc => ?_
      · cases acceptedStat plat frame with
        | none => exact h
        | some stat =>
          apply isOpen_congr w (applyStat stat w) _ _ h
          · rw [applyStat_ctx]
          · rw [applyStat_ctx]
      · split
        · exact .bind controlLoop_open fun _ => .pure _
        · exact .pure _
    · exact .pure _

theorem threadTurn_open (plat : Platform) (me : Thread) (result : ReadResult) :
    Prog.Within (fun _ => True) (fun w => w.isOpen = true) (threadTurn plat me result) := by
  refine .bind (.atomic trivial fun w h => ?_) fun go => ?_
  · simp only
    split
    · exact h
    · exact h
  · split
    · exact threadBody_open result
    · exact .pure _

theorem readerStep_open {turn : OpenTurn} (h : readerStep plat s turn.toTurn = some t)
    (hopen : s.world.isOpen = true) : t.closed = s.closed ∧ t.world.isOpen = true := by
  obtain ⟨-, h⟩ := Option.ite_none_right_eq_some.mp h
  obtain rfl := Option.some.inj h
  have hturn := threadTurn_open plat .ctl turn.result
  refine ⟨?_, hturn.execAmid turn.keeps_open hopen⟩
  have hvisits := hturn.visits turn.keeps_open hopen
  have hany : ((threadTurn plat .ctl turn.result).visits turn.others s.world).any
      (fun v => !v.2.isOpen) = false := by
    simpa using fun l w hv => (hvisits (l, w) hv).2
  simp [hany]

-- ---------------------------------------------------------------------------
-- Runs
-- ---------------------------------------------------------------------------

theorem ReadResult.survivable_of_recoverable (h : ReadResult.recoverable result = true) :
    result.survivable = true := by
  cases result with
  | frame received => rfl
  | error err =>
    simp only [ReadResult.recoverable, ReadResult.survivable] at h ⊢
    rw [h]
    rfl

/-- `ENETDOWN` is the only error that the source means to survive and does
not. -/
theorem ReadResult.survivable_iff :
    ReadResult.survivable result = true ↔ result.recoverable = true ∨ result = .error enetdown := by
  cases result with
  | frame received => simp [ReadResult.recoverable, ReadResult.survivable]
  | error err => simp [ReadResult.recoverable, ReadResult.survivable]

/-- While the thread loops it has read nothing that ends it, and made the
calls for what it has read. -/
structure ReadSoFar (plat : Platform) (s : Reader) : Prop where
  recoverable : s.world.ctl = .looping → ∀ result ∈ s.reads, result.recoverable = true
  calls : s.calls = (s.reads.takeWhile ReadResult.survivable).flatMap (ReadResult.calls plat)

theorem readSoFar_start (w : World) : ReadSoFar plat (.start w) :=
  ⟨fun _ _ h => by simp [Reader.start] at h, rfl⟩

theorem ReadSoFar.readAll (h : ReadSoFar plat s) (hl : s.world.ctl = .looping) :
    ∀ result ∈ s.reads, result.survivable = true :=
  fun result hr => ReadResult.survivable_of_recoverable (h.recoverable hl result hr)

theorem ReadSoFar.taken (h : ReadSoFar plat s) (hd : TurnDone plat s result t) : ReadSoFar plat t := by
  have hall := h.readAll hd.looping
  rcases hd.done with ⟨-, hexited, hreads, hcalls⟩ | ⟨hreads, hcalls, -, hfatal⟩
  · refine ⟨fun hl => ?_, ?_⟩
    · rw [hexited] at hl
      cases hl
    · rw [hcalls, hreads]
      exact h.calls
  · refine ⟨fun hl r hr => ?_, ?_⟩
    · rw [hreads] at hr
      rcases List.mem_append.mp hr with hr | hr
      · exact h.recoverable hd.looping r hr
      · obtain rfl := List.mem_singleton.mp hr
        by_contra hne
        rw [hfatal (by simpa using hne)] at hl
        cases hl
    · rw [hcalls, hreads, h.calls, List.takeWhile_append_of_pos hall, List.flatMap_append,
        List.takeWhile_eq_self_iff.mpr hall]
      cases hr : result.survivable with
      | true => simp [hr]
      | false =>
        cases result with
        | frame received => cases hr
        | error err => simp [hr, ReadResult.calls]

theorem ReadSoFar.survives (h : ReadSoFar plat s) (hd : TurnDone plat s result t)
    (hdown : result ≠ .error enetdown) : Survives plat t := by
  refine ⟨(h.taken hd).calls, fun hexited => ?_⟩
  rcases hd.done with ⟨hclosed, -⟩ | ⟨hreads, -, hrecoverable, -⟩
  · exact .inl hclosed
  · cases hr : result.survivable with
    | false => exact .inr ⟨result, by simp [hreads], hr⟩
    | true =>
      rcases ReadResult.survivable_iff.mp hr with hr | hr
      · rcases hrecoverable hr with hl | ⟨-, hclosed⟩
        · rw [hexited] at hl
          cases hl
        · exact .inl hclosed
      · exact absurd hr hdown

theorem ReadSoFar.dies (h : ReadSoFar plat s) (hd : TurnDone plat s (.error enetdown) t)
    (hclosed : t.closed = false) : ¬Survives plat t := by
  intro hsurvives
  rcases hd.done with ⟨htrue, -⟩ | ⟨hreads, -, -, hfatal⟩
  · simp [hclosed] at htrue
  · rcases hsurvives.exited (hfatal rfl) with htrue | ⟨result, hr, hnot⟩
    · simp [hclosed] at htrue
    · rw [hreads] at hr
      rcases List.mem_append.mp hr with hr | hr
      · rw [h.readAll hd.looping result hr] at hnot
        cases hnot
      · obtain rfl := List.mem_singleton.mp hr
        cases hnot

end

/-- Over a context that stays open, exactly the runs without `ENETDOWN`
survive; over any context they do too. -/
theorem reader_survives_iff (plat : Platform) (w : World) (hsocket : w.ctx.socket.isSome) :
    (∀ turns : List OpenTurn,
      Throughout (fun s turn => readerStep plat s turn.toTurn) (Survives plat) (.start w) turns ↔
        Along (fun s turn => readerStep plat s turn.toTurn) (fun _ turn => turn.result ≠ .error enetdown)
          (.start w) turns) ∧
    ∀ turns : List Turn,
      Along (readerStep plat) (fun _ turn => turn.result ≠ .error enetdown) (.start w) turns →
        Throughout (readerStep plat) (Survives plat) (.start w) turns := by
  have hstart : Survives plat (.start w) := ⟨rfl, fun h => by cases h⟩
  constructor
  · intro turns
    refine throughout_iff_along
      (I := fun s => ReadSoFar plat s ∧ s.closed = false ∧ s.world.isOpen = true) ?_ ?_ ?_ hstart
    · rintro s turn t ⟨h, hclosed, hopen⟩ hs
      obtain ⟨hsame, hopen⟩ := readerStep_open hs hopen
      exact ⟨h.taken (readerStep_done hs), hsame.trans hclosed, hopen⟩
    · rintro s turn t ⟨h, hclosed, hopen⟩ - hs
      obtain ⟨hsame, -⟩ := readerStep_open hs hopen
      have hd := readerStep_done hs
      constructor
      · intro hsurvives hdown
        rw [hdown] at hd
        exact h.dies hd (hsame.trans hclosed) hsurvives
      · exact h.survives hd
    · exact ⟨readSoFar_start w, rfl, by simpa [Reader.start, threadStart, World.isOpen] using hsocket⟩
  · intro turns hc
    have hboth := Along.throughout (P := fun s => ReadSoFar plat s ∧ Survives plat s) ?_
      ⟨readSoFar_start w, hstart⟩ hc
    · exact hboth.mono fun _ h => h.2
    · rintro s turn t ⟨h, -⟩ hdown hs
      exact ⟨h.taken (readerStep_done hs), h.survives (readerStep_done hs) hdown⟩

def OpenTurn.alone (result : ReadResult) : OpenTurn where
  result := result
  others _ w := w
  keeps_ctl _ _ := rfl
  keeps_open _ _ h := h

def benchReads : List ReadResult :=
  [statFrame 20 .off, .error eagain, .error eintr, statFrame 20 .off, .error 19]

theorem reader_survives_bench :
    Session.bench.opened.ctx.socket.isSome ∧
      Throughout (fun s turn => readerStep (.ticking 100 fun _ => none) s turn.toTurn)
        (Survives (.ticking 100 fun _ => none)) (.start Session.bench.opened)
        (benchReads.map OpenTurn.alone) :=
  ⟨rfl, ((reader_survives_iff _ _ rfl).1 _).mpr
    (by refine ⟨?_, ?_, ?_, ?_, ?_, trivial⟩ <;> decide)⟩

/-- The network comes up again, but nobody reads the frame. -/
theorem netdown_ends_reader :
    ∃ s, run (fun s turn => readerStep (.ticking 100 fun _ => none) s turn.toTurn)
        (.start Session.bench.opened) [OpenTurn.alone (.error enetdown)] = some s ∧
      s.world.ctl = .exited ∧ s.closed = false ∧ s.reads = [.error enetdown] ∧
      readerStep (.ticking 100 fun _ => none) s (OpenTurn.alone (statFrame 20 .off)).toTurn = none ∧
      ¬Survives (.ticking 100 fun _ => none) s := by
  refine ⟨_, rfl, rfl, rfl, rfl, rfl, fun h => ?_⟩
  rcases h.exited rfl with hclosed | ⟨result, hr, hnot⟩
  · cases hclosed
  · obtain rfl := List.mem_singleton.mp hr
    cases hnot

end KuksaServices.Seat
