import KuksaServices.Seat.Outcomes

/-!
# The two published positions

The service publishes the seat position twice: `CurrentPosition` reads it
from the context, and the data feeder gets it from a callback whenever it
changes. `SeatAdjusterImpl` opens the context before the feeder subscribes,
so a position that the CTL thread hears before is published to the readers
only, until the next change (`views_agree_iff`).

A status frame is handled in two actions, the callback and then the update of
the context, and anything may come between them.
-/

namespace KuksaServices.Seat

open Atomic (Prog Throughout)

-- ---------------------------------------------------------------------------
-- Datapoints and positions
-- ---------------------------------------------------------------------------

inductive PositionDatapoint where
  | uint32 (value : Nat)
  | notAvailable
  | invalidValue
  deriving DecidableEq, Repr

def seatPositionInvalid : Int := -1

def positionDatapoint (positionInPercent : Int) : PositionDatapoint :=
  if 0 ≤ positionInPercent ∧ positionInPercent ≤ 100 then .uint32 (positionInPercent * 10).toNat
  else if positionInPercent = -1 then .notAvailable
  else .invalidValue

def getSeatPosition (ctx : Context) : Int :=
  let pos := seatctrlGetPosition ctx
  if pos = motorPosInvalid ∨ pos < 0 then seatPositionInvalid else pos

def currentPosition (ctx : Context) : Int :=
  if getSeatPosition ctx ≠ seatPositionInvalid then getSeatPosition ctx * 10 else -1

def PositionDatapoint.base? : PositionDatapoint → Option Int
  | .uint32 value => some value
  | .notAvailable => some (-1)
  | .invalidValue => none

-- ---------------------------------------------------------------------------
-- The service
-- ---------------------------------------------------------------------------

/-- The context, whether the feeder has subscribed, what it was given, and
the frame whose callback has run. `before` and `since` are the position last
accepted before the subscription and those accepted after it; the code keeps
no such notes. -/
structure SeatService where
  world : World
  cb : Bool
  fed : List PositionDatapoint
  handling : Option Secu1Stat
  before : Nat
  since : List Nat

def SeatService.createInstance (getenv : String → Option String) (canIfName : String)
    (memory : Context) (statics : Statics) (calls : OpenCalls) : SeatService :=
  let config := { (seatctrlDefaultConfig getenv).2 with canDevice := some canIfName }
  let ctx := (seatctrlSetEventCallback true (seatctrlInitCtx memory config).2).2
  { world := ((seatctrlOpen calls).exec (.boot statics ctx)).2
    cb := false
    fed := []
    handling := none
    before := motorPosInvalid
    since := [] }

def SeatService.lastFed (s : SeatService) : PositionDatapoint := s.fed.getLast?.getD .notAvailable

def seatctrlEventCb (value : Nat) (s : SeatService) : SeatService :=
  if s.cb then
    let pos : Int := if value = motorPosInvalid then -1 else value
    { s with fed := s.fed ++ [positionDatapoint pos] }
  else s

/-- `handle_secu_stat` up to the callback. -/
def announce (stat : Secu1Stat) (s : SeatService) : SeatService :=
  let pos := stat.motor1Pos.toNat
  let changed := s.world.ctx.running ∧ s.world.ctx.motor1Pos ≠ pos
  let s := { s with
    world := if changed then s.world.eventCb .motor1Pos pos else s.world
    handling := some stat
    before := if s.cb then s.before else pos
    since := if s.cb then s.since ++ [pos] else s.since }
  if changed ∧ s.world.ctx.eventCb then seatctrlEventCb pos s else s

def storeStat (stat : Secu1Stat) (w : World) : World :=
  { w with ctx := { w.ctx with
      motor1MovState := stat.motor1MovState.toNat
      motor1LearningState := stat.motor1LearningState.toNat
      motor1Pos := stat.motor1Pos.toNat } }

def Unseen (v w : World) : Prop := { w.ctx with command := v.ctx.command } = v.ctx ∧ w.ctl = v.ctl

instance (v w : World) : Decidable (Unseen v w) := inferInstanceAs (Decidable (_ ∧ _))

/-- `other` is an action of a caller or of the control loop. -/
inductive Happening where
  | start
  | read (result : ReadResult)
  | store
  | subscribe
  | other (w : World)

def serviceStep (plat : Platform) (s : SeatService) : Happening → Option SeatService
  | .start => if s.world.ctl = .created then some { s with world := (threadStart.exec s.world).2 } else none
  | .read result =>
    if s.world.ctl = .looping ∧ s.handling = none then
      match heardStat plat s.world result with
      | some stat => some (announce stat s)
      | none => some { s with world := ((threadTurn plat .ctl result).exec s.world).2 }
    else none
  | .store => s.handling.map fun stat =>
      { s with world := storeStat stat s.world, handling := none }
  | .subscribe => some { s with cb := true }
  | .other w => if Unseen s.world w then some { s with world := w } else none

/-- After the subscription, between frames, with the context running. -/
def SeatService.settled (s : SeatService) : Prop :=
  s.cb = true ∧ s.handling = none ∧ s.world.ctx.running = true

def ViewsAgree (s : SeatService) : Prop := s.lastFed.base? = some (currentPosition s.world.ctx)

instance (s : SeatService) : Decidable (ViewsAgree s) := inferInstanceAs (Decidable (_ = _))

/-- Before the subscription no position was known, or another one was
accepted since. -/
def Caught (s : SeatService) : Prop := s.before = motorPosInvalid ∨ ∃ pos ∈ s.since, pos ≠ s.before

section
variable {plat : Platform} {me : Thread} {v w : World} {s s' : SeatService} {stat : Secu1Stat}

-- ---------------------------------------------------------------------------
-- The halves of a turn and what comes between
-- ---------------------------------------------------------------------------

theorem announce_world : (announce stat s).world =
    if s.world.ctx.running ∧ s.world.ctx.motor1Pos ≠ stat.motor1Pos.toNat then
      s.world.eventCb .motor1Pos stat.motor1Pos.toNat
    else s.world := by
  unfold announce seatctrlEventCb
  simp only
  split_ifs <;> rfl

theorem turn_halves (h : heardStat plat s.world result = some stat) :
    ((threadTurn plat .ctl result).exec s.world).2 =
      ((seatctrlControlLoop plat .ctl).exec (storeStat stat (announce stat s).world)).2 := by
  rw [exec_turn_heard h, announce_world]
  rfl

theorem Unseen.congr (h : Unseen v w) (hctx : w'.ctx = w.ctx) (hctl : w'.ctl = w.ctl) :
    Unseen v w' := by
  unfold Unseen
  rw [hctx, hctl]
  exact h

theorem Unseen.view (h : Unseen v w) : w.ctx.magic = v.ctx.magic ∧
    w.ctx.eventCb = v.ctx.eventCb ∧ w.ctx.motor1Pos = v.ctx.motor1Pos := by
  obtain ⟨hctx, -⟩ := h
  rw [← hctx]
  exact ⟨rfl, rfl, rfl⟩

theorem sendCmd1_unseen : Prog.Preserves (Unseen v) (seatctrlSendCmd1 plat me dir rpm) :=
  .atomic fun _ h => h.congr sendCmd1_ctx sendCmd1_ctl

theorem setCommand_unseen (c : World → Command × World)
    (hc : ∀ w, (c w).2.ctx = w.ctx ∧ (c w).2.ctl = w.ctl) :
    Prog.Preserves (Unseen v) (setCommand me c) := by
  refine .atomic fun w h => ?_
  have hw := h.congr (hc w).1 (hc w).2
  exact ⟨hw.1, hw.2⟩

theorem stopMovement_unseen : Prog.Preserves (Unseen v) (seatctrlStopMovement plat me) :=
  .bind sendCmd1_unseen fun _ => .bind (setCommand_unseen _ fun _ => ⟨rfl, rfl⟩) fun _ => .pure _

theorem waitForPosition_unseen (n : Nat) : Prog.Preserves (Unseen v) (waitForPosition n) := by
  induction n with
  | zero => exact .pure _
  | succ n ih =>
    refine .bind (.peek _ _) fun pos => ?_
    split
    · exact .pure _
    · exact .bind (.pause _) fun _ => ih

theorem positionKnown_unseen : Prog.Preserves (Unseen v) positionKnown := by
  refine .bind (.peek _ _) fun pos => ?_
  split
  · exact .pure _
  · exact .bind (waitForPosition_unseen 30) fun _ => .bind (.peek _ _) fun _ => .pure _

theorem decidePosition_unseen (desired : Int) :
    Prog.Preserves (Unseen v) (decidePosition plat me desired) := by
  refine .bind (.atomic fun w h => h.congr rfl rfl) fun currentPos => ?_
  split
  · refine .bind (.peek _ _) fun movState => ?_
    split
    · exact .bind stopMovement_unseen fun _ => .pure _
    · exact .bind (setCommand_unseen _ fun _ => ⟨rfl, rfl⟩) fun _ => .pure _
  · refine .bind (setCommand_unseen _ fun _ => ⟨rfl, rfl⟩) fun _ => ?_
    exact .bind (.peek _ _) fun _ => sendCmd1_unseen

theorem setPosition_unseen (desired : Int) :
    Prog.Preserves (Unseen v) (seatctrlSetPosition plat me desired) := by
  refine .bind (.peek _ _) fun magic => ?_
  split
  · exact .pure _
  split
  · exact .pure _
  refine .bind positionKnown_unseen fun known => ?_
  split
  · refine .bind stopMovement_unseen fun _ => .bind (.pause _) fun _ => ?_
    exact decidePosition_unseen desired
  · exact .pure _

theorem checkEnding_unseen (h : Unseen v w) : Unseen v (checkEnding me pursuit w).2 := by
  unfold checkEnding cacheMotorState
  simp only
  split_ifs <;> split <;> exact h.congr rfl rfl

theorem pursueCommand_unseen : Prog.Preserves (Unseen v) (pursueCommand plat me pursuit) := by
  have hcheck : Prog.Preserves (Unseen v) (checkCommand plat me pursuit) := by
    refine .bind (.atomic fun _ h => checkEnding_unseen h) fun ending => ?_
    split
    · refine .bind stopMovement_unseen fun _ => ?_
      exact .bind (.atomic fun _ h => h.congr rfl rfl) fun _ => .pure _
    · exact .pure _
  unfold pursueCommand
  split
  · refine .bind ?_ fun _ => hcheck
    exact .bind sendCmd1_unseen fun _ => .bind (.pause _) fun _ => .bind (.peek _ _) fun _ =>
      .bind sendCmd1_unseen fun _ => .pure _
  · exact hcheck

theorem controlLoop_unseen : Prog.Preserves (Unseen v) (seatctrlControlLoop plat me) := by
  refine .bind (.atomic fun w h => ?_) fun pursuit => ?_
  · have hl := (pursue_spec plat w).1
    exact h.congr hl.ctx hl.ctl
  · cases pursuit with
    | none => exact .pure _
    | some pursuit => exact pursueCommand_unseen

-- ---------------------------------------------------------------------------
-- What the feeder knows
-- ---------------------------------------------------------------------------

def SeatService.known (s : SeatService) : Nat :=
  s.handling.elim s.world.ctx.motor1Pos fun stat => stat.motor1Pos.toNat

def percent (pos : Nat) : Int := if pos = motorPosInvalid then -1 else pos

structure Informed (s : SeatService) : Prop where
  magic : s.world.ctx.magic = seatCtrlContextMagic
  eventCb : s.world.ctx.eventCb = true
  range : s.known ≤ 100 ∨ s.known = motorPosInvalid
  unsubscribed : s.cb = false → s.fed = [] ∧ s.since = []
  untold : s.fed = [] → s.known = s.before ∧ ∀ pos ∈ s.since, pos = s.before
  told : s.fed ≠ [] → s.lastFed = positionDatapoint (percent s.known) ∧
    ∃ pos ∈ s.since, pos ≠ s.before

theorem Informed.moves (h : Informed s) (hmagic : w.ctx.magic = s.world.ctx.magic)
    (hcb : w.ctx.eventCb = s.world.ctx.eventCb)
    (hknown : { s with world := w, handling := r }.known = s.known) :
    Informed { s with world := w, handling := r } := by
  refine ⟨hmagic.trans h.magic, hcb.trans h.eventCb, ?_, h.unsubscribed, ?_, ?_⟩
  · rw [hknown]
    exact h.range
  · rw [hknown]
    exact h.untold
  · rw [hknown]
    exact h.told

theorem heardStat_range (h : heardStat plat w result = some stat) :
    stat.motor1Pos.toNat ≤ 100 ∨ stat.motor1Pos.toNat = motorPosInvalid := by
  obtain ⟨-, h⟩ := Option.ite_none_right_eq_some.mp h
  exact acceptedRead_position h

theorem Informed.created (getenv : String → Option String) (canIfName : String) (memory : Context)
    (statics : Statics) (calls : OpenCalls) :
    Informed (.createInstance getenv canIfName memory statics calls) := by
  let A : World → Prop := fun w => w.ctx.magic = seatCtrlContextMagic ∧ w.ctx.eventCb = true ∧
    w.ctx.motor1Pos = motorPosInvalid
  have hopen : Prog.Preserves A (seatctrlOpen calls) := by
    refine .bind (.peek _ _) fun refused => ?_
    cases refused with
    | some rc => exact .pure _
    | none =>
      refine .bind (.atomic fun _ h => h) fun _ => ?_
      split
      · exact .pure _
      refine .bind (.pause _) fun _ => ?_
      split
      · exact .pure _
      refine .bind (.atomic fun _ h => h) fun _ => ?_
      split <;> exact .pure _
  have hworld : A (SeatService.createInstance getenv canIfName memory statics calls).world :=
    hopen.exec ⟨rfl, rfl, rfl⟩
  obtain ⟨hmagic, hcb, hpos⟩ := hworld
  exact ⟨hmagic, hcb, .inr hpos, fun _ => ⟨rfl, rfl⟩, fun _ => ⟨hpos, nofun⟩, fun h => absurd rfl h⟩

-- ---------------------------------------------------------------------------
-- Every step
-- ---------------------------------------------------------------------------

theorem announce_eq (hrun : s.world.ctx.running = true) (hcb : s.world.ctx.eventCb = true) :
    announce stat s = { s with
      world := (announce stat s).world
      handling := some stat
      before := if s.cb then s.before else stat.motor1Pos.toNat
      since := if s.cb then s.since ++ [stat.motor1Pos.toNat] else s.since
      fed := if s.cb ∧ s.world.ctx.motor1Pos ≠ stat.motor1Pos.toNat then
          s.fed ++ [positionDatapoint (percent stat.motor1Pos.toNat)]
        else s.fed } := by
  unfold announce seatctrlEventCb percent
  simp only [hrun, true_and]
  by_cases hc : s.world.ctx.motor1Pos = stat.motor1Pos.toNat
  · simp [hc]
  · cases hs : s.cb <;> simp [hc, hcb, World.eventCb]

theorem Informed.announce (h : Informed s) (hhandling : s.handling = none)
    (hheard : heardStat plat s.world result = some stat) : Informed (announce stat s) := by
  have hrun : s.world.ctx.running = true := by
    obtain ⟨hgo, -⟩ := Option.ite_none_right_eq_some.mp hheard
    exact (Bool.and_eq_true_iff.mp hgo).1
  have hknown : s.known = s.world.ctx.motor1Pos := by simp [SeatService.known, hhandling]
  have hctx : (Seat.announce stat s).world.ctx = s.world.ctx := by
    rw [announce_world]
    unfold World.eventCb
    split_ifs <;> rfl
  have hrange := heardStat_range hheard
  rw [announce_eq hrun h.eventCb]
  have hmagic := (congrArg Context.magic hctx).trans h.magic
  have heventCb := (congrArg Context.eventCb hctx).trans h.eventCb
  cases hcb : s.cb with
  | false =>
    obtain ⟨hfed, hsince⟩ := h.unsubscribed hcb
    refine ⟨hmagic, heventCb, hrange, fun _ => ?_, fun _ => ?_, fun hne => ?_⟩
    · simpa [hcb] using And.intro hfed hsince
    · simp [SeatService.known, hsince]
    · exact absurd hfed (by simpa [hcb] using hne)
  | true =>
    by_cases hpos : s.world.ctx.motor1Pos = stat.motor1Pos.toNat
    · -- the position of before
      refine ⟨hmagic, heventCb, hrange, nofun, fun hnil => ?_, fun hne => ?_⟩
      · obtain ⟨hbefore, hsince⟩ := h.untold (by simpa [hpos] using hnil)
        rw [hknown, hpos] at hbefore
        refine ⟨hbefore, fun pos hmem => ?_⟩
        rcases List.mem_append.mp hmem with hmem | hmem
        · exact hsince pos hmem
        · exact (List.mem_singleton.mp hmem).trans hbefore
      · obtain ⟨hlast, pos, hmem, hne⟩ := h.told (by simpa [hpos] using hne)
        rw [hknown, hpos] at hlast
        refine ⟨by simpa [SeatService.known, SeatService.lastFed, hpos] using hlast, pos, ?_, hne⟩
        exact List.mem_append_left _ hmem
    · refine ⟨hmagic, heventCb, hrange, nofun, fun hnil => ?_, fun _ => ?_⟩
      · simp [hpos] at hnil
      · refine ⟨by simp [SeatService.lastFed, SeatService.known, hpos], ?_⟩
        by_cases hfed : s.fed = []
        · -- the first change since the subscription
          obtain ⟨hbefore, -⟩ := h.untold hfed
          refine ⟨stat.motor1Pos.toNat, by simp, fun heq => hpos ?_⟩
          exact (hknown.symm.trans hbefore).trans (by simpa using heq.symm)
        · obtain ⟨-, pos, hmem, hne⟩ := h.told hfed
          exact ⟨pos, List.mem_append_left _ hmem, hne⟩

theorem Informed.step (h : Informed s) (hs : serviceStep plat s i = some s') : Informed s' := by
  cases i with
  | start =>
    obtain ⟨-, hs⟩ := Option.ite_none_right_eq_some.mp hs
    obtain rfl := Option.some.inj hs
    exact h.moves rfl rfl rfl
  | read result =>
    obtain ⟨⟨-, hhandling⟩, hs⟩ := Option.ite_none_right_eq_some.mp hs
    cases hheard : heardStat plat s.world result with
    | some stat =>
      rw [hheard] at hs
      obtain rfl := Option.some.inj hs
      exact h.announce hhandling hheard
    | none =>
      rw [hheard] at hs
      obtain rfl := Option.some.inj hs
      obtain ⟨events, he⟩ := exec_turn_deaf .ctl hheard
      rw [he]
      exact h.moves rfl rfl rfl
  | store =>
    obtain ⟨stat, hstat, rfl⟩ := Option.map_eq_some_iff.mp hs
    exact h.moves rfl rfl (by simp [SeatService.known, hstat, storeStat])
  | subscribe =>
    obtain rfl := Option.some.inj hs
    exact ⟨h.magic, h.eventCb, h.range, nofun, h.untold, h.told⟩
  | other w =>
    obtain ⟨hunseen, hs⟩ := Option.ite_none_right_eq_some.mp hs
    obtain rfl := Option.some.inj hs
    obtain ⟨hmagic, hcb, hpos⟩ := hunseen.view
    exact h.moves hmagic hcb (by simp [SeatService.known, hpos])

-- ---------------------------------------------------------------------------
-- Agreement
-- ---------------------------------------------------------------------------

theorem currentPosition_eq (hmagic : ctx.magic = seatCtrlContextMagic) (hrun : ctx.running = true) :
    currentPosition ctx = if ctx.motor1Pos = motorPosInvalid then -1 else (ctx.motor1Pos : Int) * 10 := by
  have hget : getSeatPosition ctx = percent ctx.motor1Pos := by
    have hnonneg : ¬((ctx.motor1Pos : Int) < 0) := by omega
    have hinvalid : (ctx.motor1Pos : Int) = motorPosInvalid ↔ ctx.motor1Pos = motorPosInvalid :=
      Int.natCast_inj
    simp [getSeatPosition, seatctrlGetPosition, percent, hmagic, hrun, seatPositionInvalid, hnonneg,
      hinvalid]
  unfold currentPosition
  rw [hget]
  unfold percent seatPositionInvalid
  split_ifs <;> first | rfl | omega

theorem base?_positionDatapoint (h : pos ≤ 100 ∨ pos = motorPosInvalid) :
    (positionDatapoint (percent pos)).base? =
      some (if pos = motorPosInvalid then -1 else (pos : Int) * 10) := by
  rcases h with h | rfl
  · have hpos : pos ≠ motorPosInvalid := fun hinv => by simp [hinv, motorPosInvalid] at h
    have hbounds : 0 ≤ (pos : Int) ∧ (pos : Int) ≤ 100 := by omega
    simp only [percent, hpos, if_false, positionDatapoint, hbounds, and_self, if_true,
      PositionDatapoint.base?, Option.some.injEq]
    omega
  · rfl

theorem Informed.views (h : Informed s) (hs : s.settled) : ViewsAgree s ↔ Caught s := by
  obtain ⟨-, hhandling, hrun⟩ := hs
  have hknown : s.known = s.world.ctx.motor1Pos := by simp [SeatService.known, hhandling]
  have hcurrent := currentPosition_eq h.magic hrun
  rw [← hknown] at hcurrent
  unfold ViewsAgree Caught
  rw [hcurrent]
  by_cases hfed : s.fed = []
  · obtain ⟨hbefore, hsince⟩ := h.untold hfed
    have hlast : s.lastFed = .notAvailable := by simp [SeatService.lastFed, hfed]
    rw [hlast, hbefore]
    constructor
    · intro ha
      left
      by_contra hne
      simp only [PositionDatapoint.base?, hne, if_false, Option.some.injEq] at ha
      omega
    · rintro (hinv | ⟨pos, hmem, hne⟩)
      · simp [PositionDatapoint.base?, hinv]
      · exact absurd (hsince pos hmem) hne
  · obtain ⟨hlast, hsince⟩ := h.told hfed
    rw [hlast]
    exact iff_of_true (base?_positionDatapoint h.range) (.inr hsince)

/-- For every order of frames, subscription and other work: the two views
agree exactly when nothing was known before the subscription, or the position
has changed since. -/
theorem views_agree_iff (plat : Platform) (getenv : String → Option String) (canIfName : String)
    (memory : Context) (statics : Statics) (calls : OpenCalls) (happenings : List Happening) :
    Throughout (serviceStep plat) (fun s => s.settled → (ViewsAgree s ↔ Caught s))
      (.createInstance getenv canIfName memory statics calls) happenings := by
  have hinformed : Throughout (serviceStep plat) Informed
      (.createInstance getenv canIfName memory statics calls) happenings :=
    Atomic.throughout_of_keeps (fun _ _ _ h hs => Informed.step h hs)
      (.created getenv canIfName memory statics calls)
  exact hinformed.mono fun _ h => h.views

end

def SeatService.bench : SeatService :=
  .createInstance (fun _ => none) "can0" Session.bench.memory .initial Session.bench.calls

def benchSubscribesLate : List Happening :=
  [.start, .read (statFrame 50 .off), .store, .subscribe, .read (statFrame 50 .off), .store]

/-- `CurrentPosition` returns 500, and the feeder was given nothing. -/
theorem late_subscription_disagrees :
    ∃ s, Atomic.run (serviceStep (.ticking 100 fun _ => none)) .bench benchSubscribesLate = some s ∧
      s.settled ∧ currentPosition s.world.ctx = 500 ∧ s.lastFed = .notAvailable ∧ ¬ViewsAgree s := by
  refine ⟨_, rfl, ⟨rfl, rfl, rfl⟩, rfl, rfl, ?_⟩
  decide

end KuksaServices.Seat
