import KuksaServices.Seat.Journey

/-!
# The command line client

`seat_svc_client --wait` asks for a position with `MoveComponent` and then
polls `CurrentPosition`, 151 times at most, until the position it reads has the
tens of the one it asked for. The service moves the seat to the nearest
percentage. So for a position of the upper half of its ten the client is not
told that the seat has arrived, unless one of its polls sees the seat on its
way pass the percentage below (`client_reached_iff`).
-/

namespace KuksaServices.Seat

open Atomic

namespace SeatSvcClient

abbrev Reply := Status × Option SeatMessage

def currentSeatPosition : Reply → Status × Position
  | (⟨.ok, message⟩, some seat) => (⟨.ok, message⟩, seat.position)
  | (status, _) => (status, ⟨-1, -1, -1, -1, -1⟩)

def getComponentPosition (component : SeatComponent) (position : Position) : Int32 :=
  match component with
  | .base => position.base
  | .cushion => position.cushion
  | .lumbar => position.lumbar
  | .sideBolster => position.sideBolster
  | .headRestraint => position.headRestraint
  | .unrecognized _ => -1

/-- How the waiting ends; it goes on while there is no reply. -/
inductive Waiting where
  | reached (position : Int32)
  | aborted (status : Status)
  | timeout
  | goesOn
  deriving DecidableEq, Repr

def Waiting.isReached : Waiting → Bool
  | .reached _ => true
  | _ => false

def wait (component : SeatComponent) (pos : Int32) (retries : Nat) : List Reply → Waiting
  | [] => .goesOn
  | reply :: replies =>
    let (result, position) := currentSeatPosition reply
    let currentPos := getComponentPosition component position
    if result.code ≠ .ok then .aborted result
    else if pos / 10 = currentPos / 10 then .reached currentPos
    else if (retries + 1) * 100 > 15000 then .timeout
    else wait component pos (retries + 1) replies

/-- `main` with `--wait`, from the reply to `MoveComponent` on. -/
def moveAndWait (component : SeatComponent) (pos : Int32) (moveResult : Status) (replies : List Reply) :
    Option Waiting :=
  if moveResult.code = .ok then some (wait component pos 0 replies) else none

/-- The poll finds the tens of the position. -/
def Finds (component : SeatComponent) (pos : Int32) (reply : Reply) : Prop :=
  pos / 10 = getComponentPosition component (currentSeatPosition reply).2 / 10

/-- Only the first 151 polls count. -/
theorem wait_reached_iff {retries : Nat} (hretries : retries ≤ 150) {replies : List Reply}
    (hok : ∀ reply ∈ replies, (currentSeatPosition reply).1.code = .ok) (component : SeatComponent) (pos : Int32) :
    (wait component pos retries replies).isReached = true ↔
      ∃ reply ∈ replies.take (151 - retries), Finds component pos reply := by
  induction replies generalizing retries with
  | nil => simp [wait, Waiting.isReached]
  | cons reply replies ih =>
    obtain ⟨hfirst, hrest⟩ := List.forall_mem_cons.mp hok
    obtain ⟨left, hleft⟩ : ∃ left, 151 - retries = left + 1 := ⟨150 - retries, by omega⟩
    rw [hleft, List.take_succ_cons]
    simp only [wait, hfirst, ne_eq, not_true_eq_false, if_false]
    by_cases hfinds : pos / 10 = getComponentPosition component (currentSeatPosition reply).2 / 10
    · rw [if_pos hfinds]
      exact iff_of_true rfl ⟨reply, List.mem_cons_self, hfinds⟩
    · rw [if_neg hfinds]
      replace hfinds : ¬Finds component pos reply := hfinds
      by_cases hlast : (retries + 1) * 100 > 15000
      · obtain rfl : left = 0 := by omega
        rw [if_pos hlast]
        simpa [Waiting.isReached] using hfinds
      · obtain rfl : left = 151 - (retries + 1) := by omega
        rw [if_neg hlast, ih (by omega) hrest]
        simp [hfinds]

end SeatSvcClient

def Rig.after (plat : Platform) (r : Rig) : Nat → Rig
  | 0 => r
  | j + 1 => (r.after plat j).step plat .iteration

open SeatSvcClient in
def pollAt (plat : Platform) (n : Nat) (r : Rig) (j : Nat) : Reply :=
  SeatServiceImpl.currentPosition (rigAdjuster plat n) ⟨1, 1⟩ (r.after plat j)

section
variable {plat : Platform} {delay rpm : Int} {r : Rig} {w : World} {k : Nat}

theorem run_after (plat : Platform) (r : Rig) (j : Nat) :
    run (rigStep plat) r (List.replicate j .iteration) = some (r.after plat j) := by
  induction j with
  | zero => rfl
  | succ j ih =>
    rw [List.replicate_succ', run_append, ih]
    rfl

-- ---------------------------------------------------------------------------
-- What a poll reads
-- ---------------------------------------------------------------------------

theorem Functioning.atPercent (h : Functioning delay rpm r) (hknown : r.world.ctx.motor1Pos ≠ motorPosInvalid) :
    AtPercent r.world r.world.ctx.motor1Pos := by
  obtain ⟨hrange, hseen⟩ := h.joint.seen.resolve_left fun hi => hknown hi.1
  have hhundred := hrange.2
  exact ⟨h.joint.isOpen.magic, h.joint.running, rfl, by omega⟩

theorem Functioning.reads (h : Functioning delay rpm r) (hcodec : plat.codec.FollowsDbc)
    (hdelay : 0 ≤ delay ∧ delay ≤ 20000) : (r.step plat .iteration).world.ctx.motor1Pos ≠ motorPosInvalid := by
  obtain ⟨v, sim, hread, heq⟩ := h.joint.iteration hcodec hdelay.1 hdelay.2
  have hsame : ((seatctrlControlLoop plat.simulated .ctl).exec v).2.ctx.motor1Pos = v.ctx.motor1Pos := by
    rw [controlLoop_ctx]
    split_ifs <;> rfl
  have hposition := hread.position
  have hhundred := hread.inRange.2
  rw [heq, hsame, motorPosInvalid]
  omega

theorem Functioning.after (h : Functioning delay rpm r) (hcodec : plat.codec.FollowsDbc)
    (hrpm : 1 ≤ rpm ∧ rpm ≤ 254) (hdelay : 0 ≤ delay ∧ delay ≤ 20000)
    (hstep : 0 < saeStep delay rpm ∧ saeStep delay rpm ≤ posShiftVal)
    (hknown : r.world.ctx.motor1Pos ≠ motorPosInvalid) (j : Nat) :
    Functioning delay rpm (r.after plat j) ∧ (r.after plat j).world.ctx.motor1Pos ≠ motorPosInvalid := by
  induction j with
  | zero => exact ⟨h, hknown⟩
  | succ j ih => exact ⟨(ih.1.iteration hcodec hrpm hdelay hstep).1, ih.1.reads hcodec hdelay⟩

open SeatSvcClient in
/-- A poll finds the tens of a valid position where the seat is at their
percentage. -/
theorem AtPercent.finds_iff (h : AtPercent w k) (plat : Platform) (n : Nat) {pos : Int32}
    (h0 : 0 ≤ pos.toInt) :
    Finds .base pos (SeatServiceImpl.currentPosition (seatAdjusterImpl plat n) ⟨1, 1⟩ w) ↔
      pos.toInt / 10 = k := by
  have hk := h.range
  have hcurrent := (h.readBack plat n (seatAdjusterImpl plat n) (w, [])).current
  have hint : (Int32.ofNat (10 * k)).toInt = 10 * k := by
    rw [Int32.toInt_ofNat_of_lt (by omega)]
    omega
  rw [hcurrent]
  simp only [Finds, getComponentPosition, currentSeatPosition]
  rw [← Int32.toInt_inj, Int32.toInt_div_of_ne_right _ _ (by decide), Int32.toInt_div_of_ne_right _ _ (by decide), hint]
  simp only [Int32.reduceToInt]
  rw [Int.tdiv_eq_ediv_of_nonneg h0, Int.tdiv_eq_ediv_of_nonneg (by omega)]
  omega

open SeatSvcClient in
theorem AtPercent.pollAt_ok {j : Nat} (h : AtPercent (r.after plat j).world k) (n : Nat) :
    (currentSeatPosition (pollAt plat n r j)).1.code = .ok := by
  have hcurrent := (h.readBack plat.simulated n (seatAdjusterImpl plat.simulated n) ((r.after plat j).world, [])).current
  rw [show pollAt plat n r j = _ from hcurrent]
  rfl

-- ---------------------------------------------------------------------------
-- The request
-- ---------------------------------------------------------------------------

theorem Joint.setPosition_ok (h : Joint delay rpm r) (plat : Platform) {desired : Int}
    (hr : ¬Refused r.world desired) (n : Nat) :
    ((seatctrlSetPosition plat.simulated (.caller n) desired).exec r.world).1 = seatCtrlOk := by
  rw [exec_setPosition_accepted hr]
  by_cases hthere : (r.world.ctx.motor1Pos : Int) = desired
  · by_cases hmov : r.world.ctx.motor1MovState = MotorDirection.off.code
    · rw [exec_commandPosition_there hthere hmov]
    · rw [exec_commandPosition_moving hthere hmov]
  · rw [exec_commandPosition_away hthere, exec_sendCmd1 (commanding_socket h.isOpen.socket)]
    rfl

/-- A valid request is accepted. -/
theorem Functioning.moves (h : Functioning delay rpm r) (hknown : r.world.ctx.motor1Pos ≠ motorPosInvalid)
    (caller : Nat) {pos : Int32} (hrange : 0 ≤ pos.toInt ∧ pos.toInt ≤ 1000) :
    SeatServiceImpl.moveComponent (rigAdjuster plat caller) ⟨⟨1, 1⟩, .base, pos⟩ r =
      (⟨.ok, ""⟩, r.step plat (.setPosition caller (percentOf pos.toInt))) := by
  obtain ⟨hpercent, hhundred, -⟩ := percentOf_range hrange.1 hrange.2
  have hr : ¬Refused r.world (percentOf pos.toInt) := by
    simp only [Refused, not_or, not_not]
    exact ⟨h.joint.isOpen.magic, by omega, by omega, hknown⟩
  have hok := h.joint.setPosition_ok plat hr caller
  have hinside : ¬(pos < 0 ∨ 1000 < pos) := by
    rw [int32_outside]
    exact not_not.mpr hrange
  simp only [SeatServiceImpl.moveComponent, ne_eq, not_true_eq_false, or_self, if_false, if_neg hinside,
    int32_percent pos hrange.1 hrange.2, rigAdjuster, seatAdjusterImpl, hok]
  rfl

end

open SeatSvcClient in
/-- From every state in which the position is known, whenever the polls come:
one of those that count comes after the time that the seat needs. -/
theorem client_reached_iff (plat : Platform) (hcodec : plat.codec.FollowsDbc) (s : Session)
    (hstatics : s.statics = .initial) (getenv : String → Option String)
    (hdelay : 0 ≤ (saeInit getenv).simDelay ∧ (saeInit getenv).simDelay ≤ 20000)
    (hpos : Placed (saeInit getenv))
    (hstep : 0 < saeStep (saeInit getenv).simDelay (seatctrlDefaultConfig s.getenv).2.motorRpm ∧
      saeStep (saeInit getenv).simDelay (seatctrlDefaultConfig s.getenv).2.motorRpm ≤ posShiftVal)
    (inputs : List RigInput) (r : Rig) (hrun : run (rigStep plat) (.start s getenv) inputs = some r)
    (hknown : r.world.ctx.motor1Pos ≠ motorPosInvalid) (caller : Nat) (pos : Int32)
    (hrange : 0 ≤ pos.toInt ∧ pos.toInt ≤ 1000) (n : Nat)
    (hclock : plat.clock r.world.ticks + 500 ≤ plat.clock (r.world.ticks + n))
    (hlong : plat.clock (r.world.ticks + 3 * (n + stepsAcross
          (saeStep (saeInit getenv).simDelay (seatctrlDefaultConfig s.getenv).2.motorRpm) + 1)) -
        plat.clock r.world.ticks ≤ r.world.ctx.config.commandTimeout)
    (polls : List Nat) (hlate : ∃ j ∈ polls.take 151, n + stepsAcross
        (saeStep (saeInit getenv).simDelay (seatctrlDefaultConfig s.getenv).2.motorRpm) + 1 ≤ j) :
    ∃ status r', SeatServiceImpl.moveComponent (rigAdjuster plat caller) ⟨⟨1, 1⟩, .base, pos⟩ r = (status, r') ∧
      ∃ outcome, moveAndWait .base pos status (polls.map (pollAt plat caller r')) = some outcome ∧
        ∃ k ≤ n + stepsAcross
            (saeStep (saeInit getenv).simDelay (seatctrlDefaultConfig s.getenv).2.motorRpm) + 1,
          (∀ j, AtRest (percentOf pos.toInt) (r'.after plat (k + j))) ∧
            (outcome.isReached = true ↔ pos.toInt % 10 < 5 ∨
              ∃ j ∈ polls.take 151, j < k ∧ ((r'.after plat j).world.ctx.motor1Pos : Int) = pos.toInt / 10) := by
  have hrpm := seatctrlDefaultConfig_motorRpm s.getenv
  obtain ⟨hpercent, hhundred, -⟩ := percentOf_range hrange.1 hrange.2
  have hlive := live_run hcodec s hstatics getenv hdelay hpos hstep hrun
  refine ⟨_, _, hlive.moves hknown caller hrange, _, rfl, ?_⟩
  obtain ⟨k, r', hk, hrun', hlive', hrest⟩ :=
    hlive.fulfills hcodec hrpm hdelay hstep caller ⟨hpercent, hhundred⟩ hknown hclock hlong
  have hserved := hlive.step hcodec hrpm hdelay hstep (.setPosition caller (percentOf pos.toInt))
  have hstill : (r.step plat (.setPosition caller (percentOf pos.toInt))).world.ctx.motor1Pos ≠ motorPosInvalid := by
    have hr : ¬Refused r.world (percentOf pos.toInt) := by
      simp only [Refused, not_or, not_not]
      exact ⟨hlive.joint.isOpen.magic, by omega, by omega, hknown⟩
    obtain ⟨c, hctx, -⟩ := hlive.joint.setPosition_sends hcodec hrpm caller hr
    rw [hctx]
    exact hknown
  generalize r.step plat (.setPosition caller (percentOf pos.toInt)) = served at hrun' hserved hstill ⊢
  have hafter := hserved.after hcodec hrpm hdelay hstep hstill
  have hseat := fun j => (hafter j).1.atPercent (hafter j).2
  have hrests : ∀ j, AtRest (percentOf pos.toInt) (served.after plat (k + j)) := by
    intro j
    induction j with
    | zero =>
      rw [run_after] at hrun'
      rw [Nat.add_zero, Option.some.inj hrun']
      exact hrest
    | succ j ih => exact (hafter (k + j)).1.rests hcodec hrpm hdelay ih hhundred
  refine ⟨k, hk, hrests, ?_⟩
  have hok : ∀ reply ∈ polls.map (pollAt plat caller served), (currentSeatPosition reply).1.code = .ok := by
    intro reply hreply
    obtain ⟨j, -, rfl⟩ := List.mem_map.mp hreply
    exact (hseat j).pollAt_ok caller
  have hfinds : ∀ j, Finds .base pos (pollAt plat caller served j) ↔
      pos.toInt / 10 = (served.after plat j).world.ctx.motor1Pos :=
    fun j => (hseat j).finds_iff plat.simulated caller hrange.1
  have harrived : ∀ j, k ≤ j → ((served.after plat j).world.ctx.motor1Pos : Int) = (pos.toInt + 5) / 10 := by
    intro j hj
    obtain ⟨i, rfl⟩ := Nat.exists_eq_add_of_le hj
    exact (hrests i).known
  rw [wait_reached_iff (Nat.zero_le _) hok, Nat.sub_zero, ← List.map_take]
  simp only [List.mem_map, exists_exists_and_eq_and, hfinds]
  constructor
  · rintro ⟨j, hj, htens⟩
    by_cases hearly : j < k
    · exact .inr ⟨j, hj, hearly, htens.symm⟩
    · have hthere := harrived j (Nat.le_of_not_lt hearly)
      exact .inl (by omega)
  · rintro (hlower | ⟨j, hj, -, htens⟩)
    · obtain ⟨j, hj, hlast⟩ := hlate
      have hthere := harrived j (by omega)
      exact ⟨j, hj, by omega⟩
    · exact ⟨j, hj, htens.symm⟩

open SeatSvcClient in
theorem client_reached_iff_underway : ∃ status r',
    SeatServiceImpl.moveComponent (rigAdjuster (.ticking 5 fun _ => none) 2) ⟨⟨1, 1⟩, .base, 427⟩ .underway =
        (status, r') ∧
      ∃ outcome, moveAndWait .base 427 status
          ([100 + stepsAcross (saeStep 10 80) + 1].map (pollAt (.ticking 5 fun _ => none) 2 r')) =
        some outcome ∧ outcome.isReached = false := by
  have hpos : Placed (saeInit thresholdEnv) := .inr ⟨84, by decide, by decide, by decide +kernel⟩
  obtain ⟨status, r', hmove, outcome, hwait, k, hk, -, hiff⟩ :=
    client_reached_iff (.ticking 5 fun _ => none) seatEcuDbc_followsDbc .bench rfl thresholdEnv (by decide) hpos
      (by decide) [.iteration, .setPosition 1 88] .underway rfl (by decide +kernel) 2 427 (by decide) 100
      (by decide +kernel) (by decide +kernel) [100 + stepsAcross (saeStep 10 80) + 1]
      ⟨_, List.mem_singleton.mpr rfl, Nat.le_refl _⟩
  refine ⟨status, r', hmove, outcome, hwait, ?_⟩
  rw [← Bool.not_eq_true, hiff]
  rintro (hlower | ⟨j, hj, hearly, -⟩)
  · revert hlower
    decide
  · obtain rfl := List.mem_singleton.mp hj
    exact absurd hk (Nat.not_le.mpr hearly)

/-- Where the position is unknown, the client takes a position below 10 for
reached. -/
example : SeatSvcClient.wait .base 0 0 [(⟨.ok, ""⟩, some ⟨⟨1, 1⟩, ⟨-1, -1, -1, -1, -1⟩⟩)] = .reached (-1) := by
  decide

end KuksaServices.Seat
