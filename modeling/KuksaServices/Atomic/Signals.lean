import Mathlib.Data.List.Basic
import Mathlib.Data.Nat.Bitwise

/-!
# Signals in a payload

A signal is a range of bits in a little-endian payload. Values are put into
their signals side by side (`pack`), and as long as no two signals overlap
each one is read back from its own (`decode_pack`). The bytes of a payload are
signals too; a signal within one byte is read from that byte
(`decode_payload`).
-/

namespace Atomic

structure Signal where
  start : Nat
  length : Nat
  deriving DecidableEq, Repr

def Signal.decode (s : Signal) (payload : Nat) : Nat := payload >>> s.start % 2 ^ s.length

def Signal.place (s : Signal) (v : Nat) : Nat := (v % 2 ^ s.length) <<< s.start

def pack : List (Signal × Nat) → Nat
  | [] => 0
  | f :: fields => f.1.place f.2 ||| pack fields

def Signal.Apart (s t : Signal) : Prop := s.start + s.length ≤ t.start ∨ t.start + t.length ≤ s.start

instance (s t : Signal) : Decidable (s.Apart t) := inferInstanceAs (Decidable (_ ∨ _))

variable {s t : Signal} {fields : List (Signal × Nat)}

theorem Signal.Apart.symm (h : s.Apart t) : t.Apart s := Or.symm h

-- ---------------------------------------------------------------------------
-- Bits
-- ---------------------------------------------------------------------------

theorem Signal.testBit_decode (s : Signal) (payload i : Nat) :
    (s.decode payload).testBit i = (decide (i < s.length) && payload.testBit (s.start + i)) := by
  simp [Signal.decode]

theorem Signal.testBit_place (s : Signal) (v i : Nat) : (s.place v).testBit i =
    (decide (s.start ≤ i) && (decide (i - s.start < s.length) && v.testBit (i - s.start))) := by
  simp [Signal.place]

theorem Signal.Apart.testBit (h : s.Apart t) (v : Nat) (hi : i < s.length) :
    (t.place v).testBit (s.start + i) = false := by
  rw [Signal.testBit_place]
  rcases h with h | h
  · have hlow : ¬t.start ≤ s.start + i := by omega
    simp [hlow]
  · have hhigh : ¬s.start + i - t.start < t.length := by omega
    simp [hhigh]

theorem Signal.decode_place (s : Signal) (v : Nat) : s.decode (s.place v) = v % 2 ^ s.length := by
  apply Nat.eq_of_testBit_eq
  intro i
  rw [Signal.testBit_decode, Signal.testBit_place, Nat.testBit_mod_two_pow, Nat.add_sub_cancel_left]
  simp

theorem Signal.decode_or (s : Signal) (p q : Nat) : s.decode (p ||| q) = s.decode p ||| s.decode q := by
  apply Nat.eq_of_testBit_eq
  intro i
  simp only [Signal.testBit_decode, Nat.testBit_or]
  cases decide (i < s.length) <;> rfl

theorem Signal.Apart.decode_place (h : s.Apart t) (v : Nat) : s.decode (t.place v) = 0 := by
  apply Nat.eq_of_testBit_eq
  intro i
  rw [Signal.testBit_decode, Nat.zero_testBit]
  by_cases hi : i < s.length
  · rw [h.testBit v hi, Bool.and_false]
  · simp [hi]

-- ---------------------------------------------------------------------------
-- Packing
-- ---------------------------------------------------------------------------

theorem decode_pack_apart (h : ∀ f ∈ fields, s.Apart f.1) : s.decode (pack fields) = 0 := by
  induction fields with
  | nil => simp [pack, Signal.decode]
  | cons f fields ih =>
    have hrest := ih fun g hg => h g (List.mem_cons_of_mem _ hg)
    rw [pack, Signal.decode_or, (h f List.mem_cons_self).decode_place, hrest, Nat.zero_or]

/-- Every signal gives its value back. -/
theorem decode_pack (h : fields.Pairwise fun f g => f.1.Apart g.1) (hm : (s, v) ∈ fields) :
    s.decode (pack fields) = v % 2 ^ s.length := by
  induction fields with
  | nil => cases hm
  | cons f fields ih =>
    obtain ⟨hf, hfields⟩ := List.pairwise_cons.mp h
    rw [pack, Signal.decode_or]
    rcases List.mem_cons.mp hm with rfl | hm
    · rw [Signal.decode_place, decode_pack_apart hf, Nat.or_zero]
    · have happart : s.Apart f.1 := (hf _ hm).symm
      rw [happart.decode_place, ih hfields hm, Nat.zero_or]

theorem Signal.place_lt (h : s.start + s.length ≤ n) (v : Nat) : s.place v < 2 ^ n := by
  apply Nat.lt_pow_two_of_testBit
  intro i hi
  have hhigh : ¬i - s.start < s.length := by omega
  simp [Signal.testBit_place, hhigh]

theorem pack_lt (h : ∀ f ∈ fields, f.1.start + f.1.length ≤ n) : pack fields < 2 ^ n := by
  induction fields with
  | nil => exact Nat.two_pow_pos n
  | cons f fields ih =>
    refine Nat.or_lt_two_pow (Signal.place_lt (h f List.mem_cons_self) _) (ih fun g hg => ?_)
    exact h g (List.mem_cons_of_mem _ hg)

theorem Signal.decode_within (hstart : t.start = s.start + k) (hlength : k + t.length ≤ s.length)
    (payload : Nat) : t.decode payload = (⟨k, t.length⟩ : Signal).decode (s.decode payload) := by
  apply Nat.eq_of_testBit_eq
  intro i
  simp only [Signal.testBit_decode, hstart, Nat.add_assoc]
  by_cases hi : i < t.length
  · have hin : k + i < s.length := by omega
    simp [hi, hin]
  · simp [hi]

-- ---------------------------------------------------------------------------
-- Bytes
-- ---------------------------------------------------------------------------

def byteSignal (i : Nat) : Signal := ⟨8 * i, 8⟩

theorem byteSignal_apart (h : i ≠ j) : (byteSignal i).Apart (byteSignal j) := by
  unfold Signal.Apart byteSignal
  simp only
  omega

def payload (bytes : List UInt8) : Nat :=
  pack (bytes.zipIdx.map fun b => (byteSignal b.2, b.1.toNat))

theorem decode_byte {bytes : List UInt8} (h : bytes[i]? = some b) :
    (byteSignal i).decode (payload bytes) = b.toNat := by
  have hpairs : (bytes.zipIdx.map fun b => (byteSignal b.2, b.1.toNat)).Pairwise
      fun f g => f.1.Apart g.1 := by
    rw [List.pairwise_map, List.pairwise_iff_getElem]
    intro m n hm hn hlt
    apply byteSignal_apart
    simp only [List.getElem_zipIdx]
    omega
  have hmem : (byteSignal i, b.toNat) ∈ bytes.zipIdx.map fun b => (byteSignal b.2, b.1.toNat) :=
    List.mem_map.mpr ⟨(b, i), List.mk_mem_zipIdx_iff_getElem?.mpr h, rfl⟩
  rw [payload, decode_pack hpairs hmem]
  exact Nat.mod_eq_of_lt b.toNat_lt

theorem decode_payload {bytes : List UInt8} (hb : bytes[i]? = some b) (hstart : s.start = 8 * i + k)
    (hlength : k + s.length ≤ 8) :
    s.decode (payload bytes) = (⟨k, s.length⟩ : Signal).decode b.toNat := by
  rw [Signal.decode_within (s := byteSignal i) hstart hlength, decode_byte hb]

def byteOf (payload i : Nat) : UInt8 := ((byteSignal i).decode payload).toUInt8

theorem byteOf_toNat (payload i : Nat) : (byteOf payload i).toNat = (byteSignal i).decode payload := by
  have hlt : (byteSignal i).decode payload < 2 ^ 8 := Nat.mod_lt _ (Nat.two_pow_pos 8)
  exact Nat.mod_eq_of_lt hlt

theorem decode_byteOf (hstart : s.start = 8 * i + k) (hlength : k + s.length ≤ 8) (payload : Nat) :
    (⟨k, s.length⟩ : Signal).decode (byteOf payload i).toNat = s.decode payload := by
  rw [byteOf_toNat, ← Signal.decode_within (s := byteSignal i) hstart hlength]

end Atomic
