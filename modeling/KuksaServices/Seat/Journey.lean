import KuksaServices.Seat.Arrival

/-!
# From a request to the read-outs

A position from 0 to 1000 may be asked for with `Move`, with `MoveComponent`
or as an actuator target. Whichever of them brings it, the seat comes to rest
at the nearest percentage with enough time, and `CurrentPosition` and the
published value then both give a position at most 5 away from it
(`goes_where_asked`).
-/

namespace KuksaServices.Seat

open Atomic

inductive SeatRequest where
  | move (request : SeatMessage)
  | moveComponent (request : MoveComponentRequest)
  | actuatorTarget (update : EntryUpdate)

variable (seatPosName : String)

def SeatRequest.position? : SeatRequest → Option Int
  | .move request =>
    if request.location.Known ∧ 0 ≤ request.position.base.toInt ∧ request.position.base.toInt ≤ 1000 then
      some request.position.base.toInt
    else none
  | .moveComponent request =>
    if request.seat.Known ∧ request.component = .base ∧ 0 ≤ request.position.toInt ∧
        request.position.toInt ≤ 1000 then
      some request.position.toInt
    else none
  | .actuatorTarget update =>
    match update.actuatorTarget with
    | .uint32 p => if update.path = seatPosName ∧ p.toNat ≤ 1000 then some p.toNat else none
    | .other => none

def SeatRequest.serve (adj : SeatAdjuster σ) (s : σ) : SeatRequest → σ
  | .move request => (SeatServiceImpl.move adj request s).2
  | .moveComponent request => (SeatServiceImpl.moveComponent adj request s).2
  | .actuatorTarget update => SeatPositionSubscriber.onUpdate adj seatPosName s update

/-- `SeatAdjusterImpl` of the `n`-th caller, with the engine on its bus. -/
def rigAdjuster (plat : Platform) (n : Nat) : SeatAdjuster Rig where
  getSeatPosition r := (seatAdjusterImpl plat.simulated n).getSeatPosition r.world
  setSeatPosition positionInPercent r :=
    (((seatAdjusterImpl plat.simulated n).setSeatPosition positionInPercent r.world).1,
      r.step plat (.setPosition n positionInPercent))

structure Shows (plat : Platform) (n : Nat) (percentage : Int) (r : Rig) : Prop where
  rest : AtRest percentage r
  current : ∃ position : Int32, position.toInt = 10 * percentage ∧
    SeatServiceImpl.currentPosition (rigAdjuster plat n) ⟨1, 1⟩ r =
      (⟨.ok, ""⟩, some ⟨⟨1, 1⟩, ⟨position, -1, -1, -1, -1⟩⟩)
  published : ∃ value : Nat, (value : Int) = 10 * percentage ∧
    positionDatapoint (percent r.world.ctx.motor1Pos) = .uint32 value

section
variable {seatPosName : String} {adj : SeatAdjuster σ} {s : σ} {request : SeatRequest} {p : Int}

-- ---------------------------------------------------------------------------
-- Requests
-- ---------------------------------------------------------------------------

theorem recording_move (s : σ × List Int) (request : SeatMessage) :
    (SeatServiceImpl.move adj.recording request s).2.1 = (SeatServiceImpl.move adj request s.1).2 := by
  unfold SeatServiceImpl.move
  split_ifs <;> rfl

theorem recording_moveComponent (s : σ × List Int) (request : MoveComponentRequest) :
    (SeatServiceImpl.moveComponent adj.recording request s).2.1 =
      (SeatServiceImpl.moveComponent adj request s.1).2 := by
  unfold SeatServiceImpl.moveComponent
  split_ifs <;> rfl

theorem recording_onUpdate (s : σ × List Int) (update : EntryUpdate) :
    (SeatPositionSubscriber.onUpdate adj.recording seatPosName s update).1 =
      SeatPositionSubscriber.onUpdate adj seatPosName s.1 update := by
  unfold SeatPositionSubscriber.onUpdate
  split_ifs
  · cases update.actuatorTarget with
    | other => rfl
    | uint32 p =>
      dsimp only
      split_ifs <;> rfl
  · rfl

/-- A valid request asks the adjuster for the percentage of its position. -/
theorem SeatRequest.serve_valid (adj : SeatAdjuster σ) (s : σ) (h : request.position? seatPosName = some p) :
    request.serve seatPosName adj s = (adj.setSeatPosition (percentOf p) s).2 ∧ 0 ≤ p ∧ p ≤ 1000 := by
  cases request with
  | move request =>
    obtain ⟨⟨hknown, hlow, hhigh⟩, hp⟩ := Option.ite_none_right_eq_some.mp h
    obtain rfl := Option.some.inj hp
    have honce := (move_requests adj (s, []) request).once hknown hlow hhigh
    exact ⟨(recording_move (s, []) request).symm.trans (congrArg Prod.fst honce), hlow, hhigh⟩
  | moveComponent request =>
    obtain ⟨seat, component, position⟩ := request
    obtain ⟨⟨hknown, hbase, hlow, hhigh⟩, hp⟩ := Option.ite_none_right_eq_some.mp h
    obtain rfl := Option.some.inj hp
    obtain rfl := hbase
    have honce := (moveComponent_requests adj (s, []) seat position).once hknown hlow hhigh
    exact ⟨(recording_moveComponent (s, []) _).symm.trans (congrArg Prod.fst honce), hlow, hhigh⟩
  | actuatorTarget update =>
    obtain ⟨path, target⟩ := update
    cases target with
    | other => cases h
    | uint32 q =>
      obtain ⟨⟨hpath, hhigh⟩, hp⟩ := Option.ite_none_right_eq_some.mp h
      obtain rfl := Option.some.inj hp
      obtain rfl := hpath
      have honce := (onUpdate_requests adj (s, []) path q).once trivial (Int.natCast_nonneg _) (by omega)
      refine ⟨?_, Int.natCast_nonneg _, by omega⟩
      exact (recording_onUpdate (s, []) _).symm.trans (congrArg Prod.fst honce)

end

-- ---------------------------------------------------------------------------
-- The way there
-- ---------------------------------------------------------------------------

theorem AtRest.shows (h : AtRest percentage r) (hlive : Functioning delay rpm r) (hrange : 0 ≤ percentage ∧ percentage ≤ 100)
    (plat : Platform) (n : Nat) : Shows plat n percentage r := by
  obtain ⟨k, rfl⟩ := Int.eq_ofNat_of_zero_le hrange.1
  have hpercent : AtPercent r.world k := by
    refine ⟨hlive.joint.isOpen.magic, hlive.joint.running, ?_, by omega⟩
    have hknown := h.known
    omega
  obtain ⟨hpublished, hcurrent, -⟩ := hpercent.readBack plat.simulated n (rigAdjuster plat n) (r, [])
  refine ⟨h, ⟨.ofNat (10 * k), ?_, hcurrent⟩, ⟨10 * k, by simp, hpublished⟩⟩
  rw [Int32.toInt_ofNat_of_lt (by omega)]
  simp

/-- From every state in which the position is known. -/
theorem goes_where_asked (plat : Platform) (hcodec : plat.codec.FollowsDbc) (s : Session)
    (hstatics : s.statics = .initial) (getenv : String → Option String)
    (hdelay : 0 ≤ (saeInit getenv).simDelay ∧ (saeInit getenv).simDelay ≤ 20000)
    (hpos : Placed (saeInit getenv))
    (hstep : 0 < saeStep (saeInit getenv).simDelay (seatctrlDefaultConfig s.getenv).2.motorRpm ∧
      saeStep (saeInit getenv).simDelay (seatctrlDefaultConfig s.getenv).2.motorRpm ≤ posShiftVal)
    (inputs : List RigInput) (r : Rig) (hrun : run (rigStep plat) (.start s getenv) inputs = some r)
    (hknown : r.world.ctx.motor1Pos ≠ motorPosInvalid) (caller : Nat) (seatPosName : String)
    (request : SeatRequest) (p : Int) (hp : request.position? seatPosName = some p) (n : Nat)
    (hclock : plat.clock r.world.ticks + 500 ≤ plat.clock (r.world.ticks + n))
    (hlong : plat.clock (r.world.ticks + 3 * (n + stepsAcross
          (saeStep (saeInit getenv).simDelay (seatctrlDefaultConfig s.getenv).2.motorRpm) + 1)) -
        plat.clock r.world.ticks ≤ r.world.ctx.config.commandTimeout) :
    (10 * percentOf p - p).natAbs ≤ 5 ∧
      ∃ k ≤ n + stepsAcross
          (saeStep (saeInit getenv).simDelay (seatctrlDefaultConfig s.getenv).2.motorRpm) + 1,
        ∀ j, ∃ r', run (rigStep plat) (request.serve seatPosName (rigAdjuster plat caller) r)
            (List.replicate (k + j) .iteration) = some r' ∧ Shows plat caller (percentOf p) r' := by
  have hrpm := seatctrlDefaultConfig_motorRpm s.getenv
  obtain ⟨hserve, hlow, hhigh⟩ := SeatRequest.serve_valid (rigAdjuster plat caller) r hp
  obtain ⟨hpercent, hhundred, hnear⟩ := percentOf_range hlow hhigh
  have hlive := live_run hcodec s hstatics getenv hdelay hpos hstep hrun
  obtain ⟨k, r', hk, hrun', hlive', hrest⟩ :=
    hlive.fulfills hcodec hrpm hdelay hstep caller ⟨hpercent, hhundred⟩ hknown hclock hlong
  refine ⟨hnear, k, hk, fun j => ?_⟩
  obtain ⟨r'', hrun'', hrest'⟩ := hlive'.rests_on hcodec hrpm hdelay hstep hhundred hrest j
  have hall : run (rigStep plat) (r.step plat (.setPosition caller (percentOf p)))
      (List.replicate (k + j) .iteration) = some r'' := by
    rw [List.replicate_add, run_append, hrun']
    exact hrun''
  refine ⟨r'', ?_, ?_⟩
  · rw [hserve]
    exact hall
  · have hreached : run (rigStep plat) (.start s getenv)
        (inputs ++ .setPosition caller (percentOf p) :: List.replicate (k + j) .iteration) = some r'' := by
      rw [run_append, hrun]
      exact hall
    exact hrest'.shows (live_run hcodec s hstatics getenv hdelay hpos hstep hreached) ⟨hpercent, hhundred⟩ plat caller

theorem goes_where_asked_underway :
    ∃ k ≤ 100 + stepsAcross (saeStep 10 80) + 1, ∀ j, ∃ r',
      run (rigStep (.ticking 5 fun _ => none)) (SeatRequest.serve "Position"
          (rigAdjuster (.ticking 5 fun _ => none) 2) .underway (.actuatorTarget ⟨"Position", .uint32 427⟩))
        (List.replicate (k + j) .iteration) = some r' ∧ Shows (.ticking 5 fun _ => none) 2 43 r' := by
  have hpos : Placed (saeInit thresholdEnv) := .inr ⟨84, by decide, by decide, by decide +kernel⟩
  exact (goes_where_asked (.ticking 5 fun _ => none) seatEcuDbc_followsDbc .bench rfl thresholdEnv
    (by decide) hpos (by decide) [.iteration, .setPosition 1 88] .underway rfl (by decide +kernel) 2
    "Position" (.actuatorTarget ⟨"Position", .uint32 427⟩) 427 (by decide) 100 (by decide +kernel)
    (by decide +kernel)).2

end KuksaServices.Seat
