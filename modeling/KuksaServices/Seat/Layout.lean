import KuksaServices.Atomic.Signals
import KuksaServices.Seat.Simulator

/-!
# The layout of the messages

`seat_ecu.dbc` gives every signal of SECU1_STAT and SECU1_CMD_1 its place in
the payload, and cantools generates the controller's codec from it
(`seatEcuDbc_pack`, `seatEcuDbc_unpack`). The simulator packs and unpacks the
same frames by hand, with shifts and masks. Both have every signal at the same
place (`codec_agrees`).

The `int`s of the simulator are taken as 32 bits here, since its bit
operations work on whatever they hold.
-/

namespace KuksaServices.Seat

open Atomic (Signal pack payload byteSignal byteOf byteOf_toNat decode_pack decode_pack_apart decode_payload
  decode_byteOf pack_lt)

-- ---------------------------------------------------------------------------
-- The signals of `seat_ecu.dbc`
-- ---------------------------------------------------------------------------

inductive Motor where
  | motor1
  | motor2
  | motor3
  | motor4
  deriving DecidableEq, Repr

def Motor.pos : Motor → Signal
  | .motor1 => ⟨16, 8⟩
  | .motor2 => ⟨24, 8⟩
  | .motor3 => ⟨32, 8⟩
  | .motor4 => ⟨40, 8⟩

def Motor.movState : Motor → Signal
  | .motor1 => ⟨0, 2⟩
  | .motor2 => ⟨4, 2⟩
  | .motor3 => ⟨8, 2⟩
  | .motor4 => ⟨12, 2⟩

def Motor.learningState : Motor → Signal
  | .motor1 => ⟨2, 2⟩
  | .motor2 => ⟨6, 2⟩
  | .motor3 => ⟨10, 2⟩
  | .motor4 => ⟨14, 2⟩

def Motor.manualCmd : Motor → Signal
  | .motor1 => ⟨0, 2⟩
  | .motor2 => ⟨2, 2⟩
  | .motor3 => ⟨4, 2⟩
  | .motor4 => ⟨6, 2⟩

def Motor.setRpm : Motor → Signal
  | .motor1 => ⟨8, 8⟩
  | .motor2 => ⟨16, 8⟩
  | .motor3 => ⟨24, 8⟩
  | .motor4 => ⟨32, 8⟩

def CanFrame.signal (frame : CanFrame) (s : Signal) : Nat := s.decode (payload frame.data.toList)

theorem CanFrame.signal_byte {s : Signal} {frame : CanFrame} (hb : frame.data.toList[i]? = some b)
    (hstart : s.start = 8 * i + k) (hlength : k + s.length ≤ 8) :
    frame.signal s = (⟨k, s.length⟩ : Signal).decode b.toNat :=
  decode_payload hb hstart hlength

-- ---------------------------------------------------------------------------
-- Status frames of the simulator
-- ---------------------------------------------------------------------------

/-- The `int`s `_sim_motorN_status`, `_sim_motorN_lrn` and `_sim_motorN_pos`. -/
structure SaeFields where
  status : BitVec 32
  lrn : BitVec 32
  pos : BitVec 32
  deriving DecidableEq, Repr

/-- `data[0]` and `data[1]`, for two motors each. -/
def saeStatByte (a b : SaeFields) : UInt8 :=
  let bits : BitVec 32 := (a.status &&& 3#32) ||| ((a.lrn &&& 3#32) <<< 2) |||
    ((b.status &&& 3#32) <<< 4) ||| ((b.lrn &&& 3#32) <<< 6)
  .ofBitVec (bits.setWidth 8)

def saePosByte (m : SaeFields) : UInt8 := .ofBitVec ((m.pos.sshiftRight 10).setWidth 8)

/-- The frame that `sae_read_cb` builds, with SAE_ALL off. -/
def saeStatFrame (m : Motor → SaeFields) : CanFrame :=
  ⟨0x712, 8, #v[saeStatByte (m .motor1) (m .motor2), saeStatByte (m .motor3) (m .motor4),
    saePosByte (m .motor1), saePosByte (m .motor2), saePosByte (m .motor3), saePosByte (m .motor4), 0, 0]⟩

theorem toInt_cases (x : BitVec 32) : x.toInt = x.toNat ∨ x.toInt = x.toNat - 4294967296 := by
  rw [BitVec.toInt_eq_toNat_cond]
  split
  · exact .inl rfl
  · exact .inr rfl

theorem toNat_and_three (x : BitVec 32) : (x &&& 3#32).toNat = x.toNat % 4 :=
  Nat.and_two_pow_sub_one_eq_mod x.toNat 2

theorem toNat_masked (x : BitVec 32) (h : k ≤ 6) :
    ((x &&& 3#32) <<< k).toNat = (⟨k, 2⟩ : Signal).place x.toNat := by
  have hlt : (⟨k, 2⟩ : Signal).place x.toNat < 2 ^ 32 := Signal.place_lt (by simp only; omega) x.toNat
  rw [BitVec.toNat_shiftLeft, toNat_and_three]
  exact Nat.mod_eq_of_lt hlt

def statSignals (a b : SaeFields) : List (Signal × Nat) :=
  [(⟨0, 2⟩, a.status.toNat), (⟨2, 2⟩, a.lrn.toNat), (⟨4, 2⟩, b.status.toNat), (⟨6, 2⟩, b.lrn.toNat)]

theorem saeStatByte_toNat (a b : SaeFields) : (saeStatByte a b).toNat = pack (statSignals a b) := by
  have hlt : pack (statSignals a b) < 2 ^ 8 := by
    refine pack_lt ?_
    simp [statSignals]
  have hzero : (a.status &&& 3#32).toNat = (⟨0, 2⟩ : Signal).place a.status.toNat :=
    toNat_and_three a.status
  have hbits : ((a.status &&& 3#32) ||| ((a.lrn &&& 3#32) <<< 2) ||| ((b.status &&& 3#32) <<< 4) |||
      ((b.lrn &&& 3#32) <<< 6)).toNat = pack (statSignals a b) := by
    rw [BitVec.toNat_or, BitVec.toNat_or, BitVec.toNat_or, hzero, toNat_masked _ (by decide),
      toNat_masked _ (by decide), toNat_masked _ (by decide)]
    simp only [statSignals, pack, Nat.or_zero, Nat.or_assoc]
  simp only [saeStatByte, UInt8.toNat_ofBitVec, BitVec.toNat_setWidth, hbits]
  exact Nat.mod_eq_of_lt hlt

theorem decode_saeStatByte (a b : SaeFields) (x : BitVec 32)
    (hm : ((⟨k, 2⟩ : Signal), x.toNat) ∈ statSignals a b) :
    ((⟨k, 2⟩ : Signal).decode (saeStatByte a b).toNat : Int) = x.toInt % 4 := by
  have happart : (statSignals a b).Pairwise fun f g => f.1.Apart g.1 := by
    simp [statSignals, Signal.Apart]
  have hvalue : (⟨k, 2⟩ : Signal).decode (saeStatByte a b).toNat = x.toNat % 4 := by
    rw [saeStatByte_toNat]
    exact decode_pack happart hm
  rw [hvalue]
  rcases toInt_cases x with h | h <;> omega

theorem decode_saePosByte (m : SaeFields) :
    ((⟨0, 8⟩ : Signal).decode (saePosByte m).toNat : Int) = saePosPercent m.pos.toInt % 256 := by
  have hshift : (m.pos.sshiftRight 10).toInt = saePosPercent m.pos.toInt := by
    rw [BitVec.toInt_sshiftRight, Int.shiftRight_eq_div_pow]
    rfl
  have hbyte : (⟨0, 8⟩ : Signal).decode (saePosByte m).toNat = (m.pos.sshiftRight 10).toNat % 256 := by
    simp [Signal.decode, saePosByte]
  rw [hbyte, ← hshift]
  rcases toInt_cases (m.pos.sshiftRight 10) with h | h <;> omega

/-- A motor shares a byte with another one, at the same place in the frame
and in the layout. -/
theorem saeStatFrame_bits (m : Motor → SaeFields) (motor : Motor) : ∃ i k a b,
    (saeStatFrame m).data.toList[i]? = some (saeStatByte a b) ∧ k ≤ 4 ∧
      motor.movState = ⟨8 * i + k, 2⟩ ∧ ((⟨k, 2⟩ : Signal), (m motor).status.toNat) ∈ statSignals a b ∧
      motor.learningState = ⟨8 * i + (k + 2), 2⟩ ∧
      ((⟨k + 2, 2⟩ : Signal), (m motor).lrn.toNat) ∈ statSignals a b := by
  cases motor with
  | motor1 => exact ⟨0, 0, _, _, rfl, by decide, rfl, by simp [statSignals], rfl, by simp [statSignals]⟩
  | motor2 => exact ⟨0, 4, _, _, rfl, by decide, rfl, by simp [statSignals], rfl, by simp [statSignals]⟩
  | motor3 => exact ⟨1, 0, _, _, rfl, by decide, rfl, by simp [statSignals], rfl, by simp [statSignals]⟩
  | motor4 => exact ⟨1, 4, _, _, rfl, by decide, rfl, by simp [statSignals], rfl, by simp [statSignals]⟩

theorem saeStatFrame_posByte (m : Motor → SaeFields) (motor : Motor) : ∃ i,
    (saeStatFrame m).data.toList[i]? = some (saePosByte (m motor)) ∧ motor.pos = ⟨8 * i, 8⟩ := by
  cases motor with
  | motor1 => exact ⟨2, rfl, rfl⟩
  | motor2 => exact ⟨3, rfl, rfl⟩
  | motor3 => exact ⟨4, rfl, rfl⟩
  | motor4 => exact ⟨5, rfl, rfl⟩

/-- What the layout says of the simulator's frame. -/
theorem signal_saeStatFrame (m : Motor → SaeFields) (motor : Motor) :
    ((saeStatFrame m).signal motor.movState : Int) = (m motor).status.toInt % 4 ∧
      ((saeStatFrame m).signal motor.learningState : Int) = (m motor).lrn.toInt % 4 ∧
      ((saeStatFrame m).signal motor.pos : Int) = saePosPercent (m motor).pos.toInt % 256 := by
  obtain ⟨i, k, a, b, hbyte, hk, hmov, hstatus, hlrn, hlearning⟩ := saeStatFrame_bits m motor
  obtain ⟨j, hposByte, hpos⟩ := saeStatFrame_posByte m motor
  refine ⟨?_, ?_, ?_⟩
  · rw [hmov, CanFrame.signal_byte hbyte rfl (by simp only; omega)]
    exact decode_saeStatByte a b _ hstatus
  · rw [hlrn, CanFrame.signal_byte hbyte rfl (by simp only; omega)]
    exact decode_saeStatByte a b _ hlearning
  · rw [hpos, CanFrame.signal_byte (k := 0) hposByte rfl (by simp)]
    exact decode_saePosByte (m motor)

-- ---------------------------------------------------------------------------
-- Commands
-- ---------------------------------------------------------------------------

def Secu1Cmd1.manualCmd (cmd : Secu1Cmd1) : Motor → Nat
  | .motor1 => cmd.motor1ManualCmd
  | .motor2 => cmd.motor2ManualCmd
  | .motor3 => cmd.motor3ManualCmd
  | .motor4 => cmd.motor4ManualCmd

def Secu1Cmd1.setRpm (cmd : Secu1Cmd1) : Motor → Nat
  | .motor1 => cmd.motor1SetRpm
  | .motor2 => cmd.motor2SetRpm
  | .motor3 => cmd.motor3SetRpm
  | .motor4 => cmd.motor4SetRpm

def Secu1Cmd1.signals (cmd : Secu1Cmd1) : List (Signal × Nat) :=
  [Motor.motor4, .motor3, .motor2, .motor1].flatMap fun motor =>
    [(motor.setRpm, cmd.setRpm motor), (motor.manualCmd, cmd.manualCmd motor)]

def secu1Cmd1Frame (cmd : Secu1Cmd1) : CanFrame :=
  ⟨secu1Cmd1FrameId, 8, .ofFn fun i => byteOf (pack cmd.signals) i⟩

/-- The variables of `sae_write_cb` that take a command apart. -/
structure SaeCommand where
  motor1Dir : UInt8
  motor2Dir : UInt8
  motor3Dir : UInt8
  motor4Dir : UInt8
  motor1Rpm : UInt8
  motor2Rpm : UInt8
  motor3Rpm : UInt8
  motor4Rpm : UInt8
  deriving DecidableEq, Repr

def saeCommand (frame : CanFrame) : SaeCommand where
  motor1Dir := frame.byte 0 >>> 0 &&& 0x3
  motor2Dir := frame.byte 0 >>> 2 &&& 0x3
  motor3Dir := frame.byte 0 >>> 4 &&& 0x3
  motor4Dir := frame.byte 0 >>> 6 &&& 0x3
  motor1Rpm := frame.byte 1
  motor2Rpm := frame.byte 2
  motor3Rpm := frame.byte 3
  motor4Rpm := frame.byte 4

def SaeCommand.dir (c : SaeCommand) : Motor → UInt8
  | .motor1 => c.motor1Dir
  | .motor2 => c.motor2Dir
  | .motor3 => c.motor3Dir
  | .motor4 => c.motor4Dir

def SaeCommand.rpm (c : SaeCommand) : Motor → UInt8
  | .motor1 => c.motor1Rpm
  | .motor2 => c.motor2Rpm
  | .motor3 => c.motor3Rpm
  | .motor4 => c.motor4Rpm

theorem signals_apart (cmd : Secu1Cmd1) : cmd.signals.Pairwise fun f g => f.1.Apart g.1 := by
  simp [Secu1Cmd1.signals, Motor.setRpm, Motor.manualCmd, Signal.Apart]

theorem mem_signals (cmd : Secu1Cmd1) (motor : Motor) :
    (motor.setRpm, cmd.setRpm motor) ∈ cmd.signals ∧ (motor.manualCmd, cmd.manualCmd motor) ∈ cmd.signals := by
  cases motor <;> simp [Secu1Cmd1.signals]

theorem decode_shifted (b : UInt8) {k : Nat} (h : k < 8) :
    (b >>> UInt8.ofNat k &&& 0x3).toNat = (⟨k, 2⟩ : Signal).decode b.toNat := by
  have hk : (UInt8.ofNat k).toNat % 8 = k := by
    rw [UInt8.toNat_ofNat']
    omega
  rw [and_three_toNat, UInt8.toNat_shiftRight, hk]
  rfl

theorem saeCommand_dir (frame : CanFrame) (motor : Motor) : ∃ k, k + 2 ≤ 8 ∧
    motor.manualCmd = ⟨k, 2⟩ ∧ (saeCommand frame).dir motor = frame.byte 0 >>> UInt8.ofNat k &&& 0x3 := by
  cases motor with
  | motor1 => exact ⟨0, by decide, rfl, rfl⟩
  | motor2 => exact ⟨2, by decide, rfl, rfl⟩
  | motor3 => exact ⟨4, by decide, rfl, rfl⟩
  | motor4 => exact ⟨6, by decide, rfl, rfl⟩

theorem saeCommand_rpm (frame : CanFrame) (motor : Motor) : ∃ i : Fin 8,
    motor.setRpm = ⟨8 * i, 8⟩ ∧ (saeCommand frame).rpm motor = frame.byte i := by
  cases motor with
  | motor1 => exact ⟨1, rfl, rfl⟩
  | motor2 => exact ⟨2, rfl, rfl⟩
  | motor3 => exact ⟨3, rfl, rfl⟩
  | motor4 => exact ⟨4, rfl, rfl⟩

theorem secu1Cmd1Frame_byte (cmd : Secu1Cmd1) (i : Fin 8) :
    (secu1Cmd1Frame cmd).byte i = byteOf (pack cmd.signals) i := by
  rw [CanFrame.byte_eq]
  change (Array.ofFn fun i : Fin 8 => byteOf (pack cmd.signals) i)[i.val] = _
  rw [Array.getElem_ofFn]

/-- The simulator takes from a command what the layout has put there. -/
theorem saeCommand_secu1Cmd1Frame (cmd : Secu1Cmd1) (motor : Motor) :
    ((saeCommand (secu1Cmd1Frame cmd)).dir motor).toNat = cmd.manualCmd motor % 4 ∧
      ((saeCommand (secu1Cmd1Frame cmd)).rpm motor).toNat = cmd.setRpm motor % 256 := by
  have hapart := signals_apart cmd
  obtain ⟨hrpm, hdir⟩ := mem_signals cmd motor
  obtain ⟨k, hk, hcmd, hshift⟩ := saeCommand_dir (secu1Cmd1Frame cmd) motor
  obtain ⟨i, hset, hget⟩ := saeCommand_rpm (secu1Cmd1Frame cmd) motor
  constructor
  · have hvalue := decode_pack hapart hdir
    rw [hcmd] at hvalue
    have hbyte : (secu1Cmd1Frame cmd).byte 0 = byteOf (pack cmd.signals) 0 := secu1Cmd1Frame_byte cmd 0
    rw [hshift, decode_shifted _ (by omega), hbyte,
      decode_byteOf (s := ⟨k, 2⟩) (i := 0) (by simp) hk]
    exact hvalue
  · have hvalue := decode_pack hapart hrpm
    rw [hset] at hvalue
    rw [hget, secu1Cmd1Frame_byte, byteOf_toNat]
    exact hvalue

-- ---------------------------------------------------------------------------
-- The engine and the codec
-- ---------------------------------------------------------------------------

def SaeContext.motor (ctx : SaeContext) : Motor → SaeMotor
  | .motor1 => ctx.motor1
  | .motor2 => ctx.motor2
  | .motor3 => ctx.motor3
  | .motor4 => ctx.motor4

def SaeMotor.fields (m : SaeMotor) : SaeFields :=
  ⟨.ofNat 32 m.status.code, .ofInt 32 m.lrn, .ofInt 32 m.pos⟩

theorem byte_of_pairs (h : n < 256) : n = (⟨0, 2⟩ : Signal).decode n + (⟨2, 2⟩ : Signal).decode n * 4 +
    ((⟨4, 2⟩ : Signal).decode n + (⟨6, 2⟩ : Signal).decode n * 4) * 16 := by
  simp only [Signal.decode, Nat.shiftRight_eq_div_pow]
  omega

theorem SaeMotor.fields_bits (m : SaeMotor) :
    m.fields.status.toInt % 4 = m.status.code % 4 ∧ m.fields.lrn.toInt % 4 = m.lrn % 4 := by
  constructor
  · cases hs : m.status <;> simp [SaeMotor.fields, hs, MotorDirection.code]
  · have hmod : m.fields.lrn.toInt % 4294967296 = m.lrn % 4294967296 := by
      rw [SaeMotor.fields, BitVec.toInt_ofInt]
      exact Int.bmod_emod
    omega

theorem saeStatByte_fields (a b : SaeMotor) :
    saeStatByte a.fields b.fields = (a.bits + b.bits * 16).toUInt8 := by
  have hbyte := byte_of_pairs (saeStatByte a.fields b.fields).toNat_lt
  have ha := a.fields_bits
  have hb := b.fields_bits
  have h0 := decode_saeStatByte (k := 0) a.fields b.fields a.fields.status (by simp [statSignals])
  have h2 := decode_saeStatByte (k := 2) a.fields b.fields a.fields.lrn (by simp [statSignals])
  have h4 := decode_saeStatByte (k := 4) a.fields b.fields b.fields.status (by simp [statSignals])
  have h6 := decode_saeStatByte (k := 6) a.fields b.fields b.fields.lrn (by simp [statSignals])
  apply UInt8.toNat.inj
  rw [Nat.toUInt8_eq, UInt8.toNat_ofNat', SaeMotor.bits, SaeMotor.bits]
  omega

theorem saePosByte_fields (m : SaeMotor) (h0 : -2147483648 ≤ m.pos) (h1 : m.pos < 2147483648) :
    saePosByte m.fields = m.posByte := by
  have hint : m.fields.pos.toInt = m.pos := by
    rw [SaeMotor.fields, BitVec.toInt_ofInt]
    exact toInt32_of_range h0 h1
  have hbyte := decode_saePosByte m.fields
  have hlt := (saePosByte m.fields).toNat_lt
  rw [hint] at hbyte
  simp only [Signal.decode, Nat.shiftRight_zero] at hbyte
  apply UInt8.toNat.inj
  rw [SaeMotor.posByte, Nat.toUInt8_eq, UInt8.toNat_ofNat', toUint8]
  omega

theorem secu1StatFrame_eq (h : ctx.allMotors = false)
    (hpos : ∀ motor, -2147483648 ≤ (ctx.motor motor).pos ∧ (ctx.motor motor).pos < 2147483648) :
    secu1StatFrame ctx = saeStatFrame fun motor => (ctx.motor motor).fields := by
  have hbyte (motor : Motor) : saePosByte (ctx.motor motor).fields = (ctx.motor motor).posByte :=
    saePosByte_fields _ (hpos motor).1 (hpos motor).2
  simp only [saeStatFrame, saeStatByte_fields, hbyte]
  simp [secu1StatFrame, h, SaeContext.motor]

/-- `saeWriteCb` takes a command apart with `saeCommand`. -/
theorem saeWriteCb_command (hfd : ctx.simFd ≠ -1) (hid : frame.canId = 0x705) :
    saeWriteCb ctx frame = (sizeofCanFrame, commandMotor1 (saeCommand frame).motor1Dir { ctx with
      motor1.rpm := (saeCommand frame).motor1Rpm.toNat
      motor2.rpm := (saeCommand frame).motor2Rpm.toNat
      motor3.rpm := (saeCommand frame).motor3Rpm.toNat
      motor4.rpm := (saeCommand frame).motor4Rpm.toNat }) := by
  have h0 : frame.byte 0 = frame.data.get 0 := frame.byte_eq 0
  have h1 : frame.byte 1 = frame.data.get 1 := frame.byte_eq 1
  have h2 : frame.byte 2 = frame.data.get 2 := frame.byte_eq 2
  have h3 : frame.byte 3 = frame.data.get 3 := frame.byte_eq 3
  have h4 : frame.byte 4 = frame.data.get 4 := frame.byte_eq 4
  have hdir : (saeCommand frame).motor1Dir = frame.data.get 0 &&& 3 := by
    simp [saeCommand, h0]
  rw [saeWriteCb, if_neg hfd, if_pos hid, hdir]
  simp only [saeCommand, h1, h2, h3, h4]

theorem byteOf_setRpm (cmd : Secu1Cmd1) (motor : Motor) (h : motor.setRpm = byteSignal i) :
    byteOf (pack cmd.signals) i = (cmd.setRpm motor).toUInt8 := by
  have hvalue := decode_pack (signals_apart cmd) (mem_signals cmd motor).1
  apply UInt8.toNat.inj
  rw [byteOf_toNat, ← h, hvalue, h]
  rfl

theorem byteOf_manualCmd (cmd : Secu1Cmd1) : byteOf (pack cmd.signals) 0 =
    (cmd.motor1ManualCmd % 4 + cmd.motor2ManualCmd % 4 * 4 + cmd.motor3ManualCmd % 4 * 16 +
      cmd.motor4ManualCmd % 4 * 64).toUInt8 := by
  have hvalue (motor : Motor) {k : Nat} (hk : k + 2 ≤ 8) (hcmd : motor.manualCmd = ⟨k, 2⟩) :
      (⟨k, 2⟩ : Signal).decode (byteOf (pack cmd.signals) 0).toNat = cmd.manualCmd motor % 4 := by
    rw [decode_byteOf (s := ⟨k, 2⟩) (i := 0) (by simp) hk, ← hcmd]
    have hdecode := decode_pack (signals_apart cmd) (mem_signals cmd motor).2
    rw [hdecode, hcmd]
    rfl
  have hbyte := byte_of_pairs (byteOf (pack cmd.signals) 0).toNat_lt
  rw [hvalue .motor1 (by decide) rfl, hvalue .motor2 (by decide) rfl, hvalue .motor3 (by decide) rfl,
    hvalue .motor4 (by decide) rfl] at hbyte
  simp only [Secu1Cmd1.manualCmd] at hbyte
  apply UInt8.toNat.inj
  rw [Nat.toUInt8_eq, UInt8.toNat_ofNat']
  omega

theorem byteOf_padding (cmd : Secu1Cmd1) (h : 5 ≤ i) : byteOf (pack cmd.signals) i = 0 := by
  have hapart : ∀ f ∈ cmd.signals, (byteSignal i).Apart f.1 := by
    simp only [Secu1Cmd1.signals, List.flatMap_cons, List.flatMap_nil, List.cons_append, List.nil_append,
      List.forall_mem_cons, Motor.setRpm, Motor.manualCmd, Signal.Apart, byteSignal]
    simp
    omega
  apply UInt8.toNat.inj
  rw [byteOf_toNat, decode_pack_apart hapart]
  rfl

/-- The codec packs a command into the payload of the layout. -/
theorem seatEcuDbc_pack (cmd : Secu1Cmd1) :
    seatEcuDbc.secu1Cmd1Pack cmd sizeofSecu1Cmd1 = some (secu1Cmd1Frame cmd).data := by
  have hdata : (secu1Cmd1Frame cmd).data = #v[byteOf (pack cmd.signals) 0, byteOf (pack cmd.signals) 1,
      byteOf (pack cmd.signals) 2, byteOf (pack cmd.signals) 3, byteOf (pack cmd.signals) 4,
      byteOf (pack cmd.signals) 5, byteOf (pack cmd.signals) 6, byteOf (pack cmd.signals) 7] := rfl
  rw [hdata, byteOf_manualCmd, byteOf_setRpm cmd .motor1 rfl, byteOf_setRpm cmd .motor2 rfl,
    byteOf_setRpm cmd .motor3 rfl, byteOf_setRpm cmd .motor4 rfl, byteOf_padding cmd (by decide),
    byteOf_padding cmd (by decide), byteOf_padding cmd (by decide)]
  rfl

def Secu1Stat.movState (stat : Secu1Stat) : Motor → UInt8
  | .motor1 => stat.motor1MovState
  | .motor2 => stat.motor2MovState
  | .motor3 => stat.motor3MovState
  | .motor4 => stat.motor4MovState

def Secu1Stat.learningState (stat : Secu1Stat) : Motor → UInt8
  | .motor1 => stat.motor1LearningState
  | .motor2 => stat.motor2LearningState
  | .motor3 => stat.motor3LearningState
  | .motor4 => stat.motor4LearningState

def Secu1Stat.pos (stat : Secu1Stat) : Motor → UInt8
  | .motor1 => stat.motor1Pos
  | .motor2 => stat.motor2Pos
  | .motor3 => stat.motor3Pos
  | .motor4 => stat.motor4Pos

theorem CanFrame.signal_shifted {frame : CanFrame} (hb : frame.data.toList[i]? = some b)
    (hstart : s = ⟨8 * i + k, 2⟩) (hk : k + 2 ≤ 8) :
    (b >>> UInt8.ofNat k &&& 0x3).toNat = frame.signal s := by
  subst hstart
  rw [decode_shifted b (by omega), CanFrame.signal_byte hb rfl hk]

theorem CanFrame.signal_whole {frame : CanFrame} (hb : frame.data.toList[i]? = some b)
    (hstart : s = ⟨8 * i, 8⟩) : b.toNat = frame.signal s := by
  subst hstart
  rw [CanFrame.signal_byte (k := 0) hb rfl (by simp)]
  exact (Nat.mod_eq_of_lt b.toNat_lt).symm

theorem seatEcuDbc_unpack (frame : CanFrame) : ∃ stat,
    seatEcuDbc.secu1StatUnpack frame.data 8 = some stat ∧ ∀ motor : Motor,
      (stat.movState motor).toNat = frame.signal motor.movState ∧
      (stat.learningState motor).toNat = frame.signal motor.learningState ∧
      (stat.pos motor).toNat = frame.signal motor.pos := by
  have hbyte (i : Fin 8) : frame.data.toList[i.val]? = some frame.data[i.val] := by simp
  have hlow {i : Fin 8} {s : Signal} (hs : s = ⟨8 * i, 2⟩) :
      (frame.data[i.val] &&& 0x3).toNat = frame.signal s := by
    have hshifted := CanFrame.signal_shifted (k := 0) (hbyte i) hs (by decide)
    simpa using hshifted
  refine ⟨_, rfl, ?_⟩
  intro motor
  cases motor with
  | motor1 =>
    exact ⟨hlow (i := 0) rfl, CanFrame.signal_shifted (k := 2) (hbyte 0) rfl (by decide),
      CanFrame.signal_whole (hbyte 2) rfl⟩
  | motor2 =>
    exact ⟨CanFrame.signal_shifted (k := 4) (hbyte 0) rfl (by decide),
      CanFrame.signal_shifted (k := 6) (hbyte 0) rfl (by decide), CanFrame.signal_whole (hbyte 3) rfl⟩
  | motor3 =>
    exact ⟨hlow (i := 1) rfl, CanFrame.signal_shifted (k := 2) (hbyte 1) rfl (by decide),
      CanFrame.signal_whole (hbyte 4) rfl⟩
  | motor4 =>
    exact ⟨CanFrame.signal_shifted (k := 4) (hbyte 1) rfl (by decide),
      CanFrame.signal_shifted (k := 6) (hbyte 1) rfl (by decide), CanFrame.signal_whole (hbyte 5) rfl⟩

/-- The messages of both directions arrive as they were meant, each signal at
its own motor. -/
theorem codec_agrees :
    (∀ (m : Motor → SaeFields) (motor : Motor),
      ((saeStatFrame m).signal motor.movState : Int) = (m motor).status.toInt % 4 ∧
        ((saeStatFrame m).signal motor.learningState : Int) = (m motor).lrn.toInt % 4 ∧
        ((saeStatFrame m).signal motor.pos : Int) = saePosPercent (m motor).pos.toInt % 256) ∧
      ∀ (cmd : Secu1Cmd1) (motor : Motor),
        ((saeCommand (secu1Cmd1Frame cmd)).dir motor).toNat = cmd.manualCmd motor % 4 ∧
          ((saeCommand (secu1Cmd1Frame cmd)).rpm motor).toNat = cmd.setRpm motor % 256 := by
  constructor
  · exact signal_saeStatFrame
  · exact saeCommand_secu1Cmd1Frame

end KuksaServices.Seat
