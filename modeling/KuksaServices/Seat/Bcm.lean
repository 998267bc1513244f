import KuksaServices.Seat.Context

/-!
# Subscriptions at the broadcast manager

`CanBcmInterface` of `can_bcm_interface.cc` asks the kernel's broadcast
manager to report a cyclic CAN message when it changes or stays away. The
request carries the data mask and the timeout. The timeout is divided by the
number of nanoseconds in a second instead of that of microseconds, so that it
is right below one second only (`subscription_encodes_iff`).
-/

namespace KuksaServices.Seat

-- ---------------------------------------------------------------------------
-- Messages
-- ---------------------------------------------------------------------------

structure BcmTimeval where
  tvSec : Int
  tvUsec : Int
  deriving DecidableEq, Repr

structure BcmMsgHead where
  opcode : Nat
  flags : Nat
  count : Nat
  ival1 : BcmTimeval
  ival2 : BcmTimeval
  canId : Nat
  nframes : Nat
  deriving DecidableEq, Repr

structure BcmMessageRaw where
  msgHead : BcmMsgHead
  frame : CanFrame
  deriving DecidableEq, Repr

/-- `RX_SETUP` and `SETTIMER` of `linux/can/bcm.h`. -/
def rxSetup : Nat := 5
def settimer : Nat := 1

def CanFrame.zero : CanFrame := ⟨0, 0, .replicate 8 0⟩

def BcmMessageRaw.zero : BcmMessageRaw := ⟨⟨0, 0, 0, ⟨0, 0⟩, ⟨0, 0⟩, 0, 0⟩, .zero⟩

-- ---------------------------------------------------------------------------
-- The request
-- ---------------------------------------------------------------------------

/-- `duration_cast<microseconds>` of milliseconds, in 64 bits. -/
def toMicroseconds (timeout : Int) : Int := (timeout * 1000).bmod (2 ^ 64)

/-- The interval of the request; without a timeout it stays zero. -/
def intervalOf (timeout : Int) : BcmTimeval :=
  let usecs := toMicroseconds timeout
  if usecs > 0 then ⟨usecs.tdiv 1000000000, usecs.tmod 1000000000⟩ else ⟨0, 0⟩

def copyMask : List UInt8 → Nat → Vector UInt8 8 → Vector UInt8 8
  | [], _, data => data
  | byte :: mask, i, data => copyMask mask (i + 1) (data.setIfInBounds i byte)

def subscribeCyclicChange (canId : UInt32) (dataMask : List UInt8) (timeout : Int) : BcmMessageRaw where
  msgHead := { BcmMessageRaw.zero.msgHead with
    nframes := 1
    canId := canId.toNat
    opcode := rxSetup
    flags := settimer
    ival1 := intervalOf timeout }
  frame := {
    canId := canId.toNat
    canDlc := dataMask.length % 256
    data := copyMask dataMask 0 BcmMessageRaw.zero.frame.data }

-- ---------------------------------------------------------------------------
-- What the request says
-- ---------------------------------------------------------------------------

/-- The message asks for just this; the timeout is in milliseconds. -/
structure EncodesRequest (canId : UInt32) (dataMask : List UInt8) (timeout : Nat)
    (msg : BcmMessageRaw) : Prop where
  setup : msg.msgHead.opcode = rxSetup ∧ msg.msgHead.nframes = 1
  canId : msg.msgHead.canId = canId.toNat ∧ msg.frame.canId = canId.toNat
  canDlc : msg.frame.canDlc = dataMask.length
  data : msg.frame.data.toList = dataMask ++ List.replicate (8 - dataMask.length) 0
  normalised : 0 ≤ msg.msgHead.ival1.tvUsec ∧ msg.msgHead.ival1.tvUsec < 1000000
  interval : msg.msgHead.ival1.tvSec * 1000000 + msg.msgHead.ival1.tvUsec = timeout * 1000

theorem copyMask_toList (mask : List UInt8) (i : Nat) (data : Vector UInt8 8) (h : i + mask.length ≤ 8) :
    (copyMask mask i data).toList = data.toList.take i ++ mask ++ data.toList.drop (i + mask.length) := by
  induction mask generalizing i data with
  | nil => simp [copyMask]
  | cons byte mask ih =>
    simp only [List.length_cons] at h
    have hlength : data.toList.length = 8 := Vector.length_toList
    have hi : i < data.toList.length := by omega
    have hset : (data.setIfInBounds i byte).toList = data.toList.set i byte := by
      simp [Vector.toList]
    rw [copyMask, ih (i + 1) (data.setIfInBounds i byte) (by omega), hset, List.drop_set_of_lt (by omega),
      List.take_add_one, List.take_set_of_le (Nat.le_refl i), List.getElem?_set_self hi, List.length_cons]
    have hend : i + 1 + mask.length = i + (mask.length + 1) := by omega
    simp [hend]

theorem subscribeCyclicChange_data (canId : UInt32) (timeout : Int) (h : mask.length ≤ 8) :
    (subscribeCyclicChange canId mask timeout).frame.data.toList =
      mask ++ List.replicate (8 - mask.length) 0 := by
  have hzero : BcmMessageRaw.zero.frame.data.toList = List.replicate 8 0 := rfl
  change (copyMask mask 0 BcmMessageRaw.zero.frame.data).toList = _
  rw [copyMask_toList mask 0 _ (by omega), hzero, List.drop_replicate]
  simp

/-- The number of microseconds is right as far as it fits 64 bits, and is too
small beyond. -/
theorem toMicroseconds_cases (timeout : Nat) :
    toMicroseconds timeout = timeout * 1000 ∨
      toMicroseconds timeout < timeout * 1000 ∧ 1000 ≤ timeout := by
  unfold toMicroseconds
  by_cases h : (timeout : Int) * 1000 < 2 ^ 63
  · left
    refine Int.bmod_eq_of_le_mul_two ?_ ?_
    · omega
    · omega
  · right
    have hlt : ((timeout : Int) * 1000).bmod (2 ^ 64) < 2 ^ 63 := by
      have hbound := Int.bmod_lt (x := (timeout : Int) * 1000) (m := 2 ^ 64) (by decide)
      omega
    constructor
    · omega
    · omega

/-- The interval is normalised and exact just below a second. -/
theorem intervalOf_exact_iff (timeout : Nat) :
    ((0 ≤ (intervalOf timeout).tvUsec ∧ (intervalOf timeout).tvUsec < 1000000) ∧
      (intervalOf timeout).tvSec * 1000000 + (intervalOf timeout).tvUsec = timeout * 1000) ↔
      timeout < 1000 := by
  have hcases := toMicroseconds_cases timeout
  by_cases hpos : toMicroseconds timeout > 0
  · have hdiv : (toMicroseconds timeout).tdiv 1000000000 = toMicroseconds timeout / 1000000000 :=
      Int.tdiv_eq_ediv_of_nonneg (Int.le_of_lt hpos)
    have hmod : (toMicroseconds timeout).tmod 1000000000 = toMicroseconds timeout % 1000000000 :=
      Int.tmod_eq_emod_of_nonneg (Int.le_of_lt hpos)
    simp only [intervalOf, hpos, if_true, hdiv, hmod]
    omega
  · simp only [intervalOf, hpos, if_false]
    omega

/-- For every id, every mask that fits a frame and every timeout. -/
theorem subscription_encodes_iff (canId : UInt32) (dataMask : List UInt8) (timeout : Nat)
    (h : dataMask.length ≤ 8) :
    EncodesRequest canId dataMask timeout (subscribeCyclicChange canId dataMask timeout) ↔
      timeout < 1000 := by
  rw [← intervalOf_exact_iff timeout]
  constructor
  · intro hencodes
    exact ⟨hencodes.normalised, hencodes.interval⟩
  · rintro ⟨hnormalised, hinterval⟩
    refine ⟨⟨rfl, rfl⟩, ⟨rfl, rfl⟩, ?_, subscribeCyclicChange_data canId timeout h, hnormalised, hinterval⟩
    exact Nat.mod_eq_of_lt (by omega)

theorem subscription_encodes_half :
    EncodesRequest 0x712 [0, 0, 0xff] 500 (subscribeCyclicChange 0x712 [0, 0, 0xff] 500) :=
  (subscription_encodes_iff 0x712 [0, 0, 0xff] 500 (by decide)).mpr (by decide)

/-- A second becomes no seconds and a million microseconds. -/
theorem second_not_normalised :
    (subscribeCyclicChange 0x712 [0, 0, 0xff] 1000).msgHead.ival1 = ⟨0, 1000000⟩ ∧
      ¬EncodesRequest 0x712 [0, 0, 0xff] 1000 (subscribeCyclicChange 0x712 [0, 0, 0xff] 1000) := by
  have hival : (subscribeCyclicChange 0x712 [0, 0, 0xff] 1000).msgHead.ival1 = ⟨0, 1000000⟩ := by decide
  refine ⟨hival, fun h => ?_⟩
  have hlt := h.normalised.2
  rw [hival] at hlt
  simp at hlt

end KuksaServices.Seat
