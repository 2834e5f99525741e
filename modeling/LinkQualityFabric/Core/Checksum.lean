import LinkQualityFabric.Core.Hash
import LinkQualityFabric.Foundations.ShiftRegister

/-! What `crc32c` computes: the reflected cyclic redundancy check with the polynomial `0x82F63B78`, over
the bits of the message, least significant bit of each byte first. The table of the source holds eight
shifts at once. -/
namespace Lqf
open Foundations ShiftRegister
set_option autoImplicit false

def crc32cPolynomial : BitVec 32 := 0x82F63B78

def byteBits (byte : UInt8) : List Bool := (List.range 8).map byte.toBitVec.getLsbD

def messageBits (data : Bytes) : List Bool := data.flatMap byteBits

/-- The checksum without a table, one bit after the other. -/
def crc32cBitwise (data : Bytes) (seed : UInt32 := 0) : UInt32 :=
  ~~~⟨feed crc32cPolynomial (~~~seed).toBitVec (messageBits data)⟩

theorem crc32cTableEntry_toBitVec (index : UInt32) :
    (crc32cTableEntry index).toBitVec = (shift crc32cPolynomial)^[8] index.toBitVec := by
  have hturn (value : UInt32) :
      (if value &&& 1 ≠ 0 then (value >>> 1) ^^^ 0x82F63B78 else value >>> 1).toBitVec =
        shift crc32cPolynomial value.toBitVec := by
    have hlow : value &&& 1 ≠ 0 ↔ value.toBitVec.getLsbD 0 = true := by
      have hbit : (value &&& 1).toBitVec = (BitVec.ofBool (value.toBitVec.getLsbD 0)).setWidth 32 :=
        BitVec.and_one_eq_setWidth_ofBool_getLsbD
      rw [ne_eq, ← UInt32.toBitVec_inj, hbit]
      cases value.toBitVec.getLsbD 0 <;> decide
    rw [shift, apply_ite UInt32.toBitVec]
    simp only [hlow]
    rfl
  simp only [crc32cTableEntry, List.range, List.range.loop, List.foldl_cons, List.foldl_nil, hturn,
    Function.iterate_succ_apply, Function.iterate_zero, id]

theorem word_byteBits (byte : UInt8) : (word (byteBits byte) : BitVec 32) = byte.toUInt32.toBitVec := by
  refine BitVec.eq_of_getLsbD_eq fun i hi => ?_
  rw [getLsbD_word, UInt8.toBitVec_toUInt32, BitVec.getLsbD_setWidth]
  by_cases hbyte : i < 8
  · simp [byteBits, hbyte]
  · simp [byteBits, hbyte, BitVec.getLsbD_of_ge byte.toBitVec i (by omega)]

theorem crc32cByte_toBitVec (crc : UInt32) (byte : UInt8) :
    (crc32cByte crc byte).toBitVec = feed crc32cPolynomial crc.toBitVec (byteBits byte) := by
  rw [feed_eq _ (by simp [byteBits]), word_byteBits, crc32cByte, UInt32.toBitVec_xor, crc32cTableEntry_toBitVec]
  have hhigh : (crc >>> 8).toBitVec = (crc.toBitVec ^^^ byte.toUInt32.toBitVec) >>> 8 := by
    have hpast : byte.toUInt32.toBitVec >>> 8 = 0#32 := by
      refine BitVec.eq_of_getLsbD_eq fun i _ => ?_
      simp
    rw [BitVec.ushiftRight_xor_distrib, hpast, BitVec.xor_zero]
    rfl
  have hmask : ∀ i < 32, (255#32).getLsbD i = decide (i < 8) := by decide
  have hsplit (z : BitVec 32) : z = (z &&& 255#32) ^^^ ((z >>> 8) <<< 8) := by
    refine BitVec.eq_of_getLsbD_eq fun i hi => ?_
    rw [BitVec.getLsbD_xor, BitVec.getLsbD_and, hmask i hi]
    by_cases hlow : i < 8
    · simp [hlow, hi]
    · simp [hlow, hi, show 8 + (i - 8) = i by omega]
  have hshifts := @shifts_xor_shiftLeft 32 crc32cPolynomial 8
    ((crc.toBitVec ^^^ byte.toUInt32.toBitVec) &&& 255#32) ((crc.toBitVec ^^^ byte.toUInt32.toBitVec) >>> 8)
    fun i hi => by rw [BitVec.getLsbD_ushiftRight]; exact BitVec.getLsbD_of_ge _ _ (by omega)
  rw [← hsplit] at hshifts
  exact hhigh ▸ hshifts.symm

theorem crc32c_fold (data : Bytes) (crc : UInt32) :
    (data.foldl crc32cByte crc).toBitVec = feed crc32cPolynomial crc.toBitVec (messageBits data) := by
  induction data generalizing crc with
  | nil => rfl
  | cons byte rest ih =>
    rw [List.foldl_cons, ih, crc32cByte_toBitVec, ← feed_append]
    rfl

theorem messageBits_inj {a b : Bytes} (hlength : a.length = b.length) (h : messageBits a = messageBits b) :
    a = b := by
  induction a generalizing b with
  | nil => exact (List.length_eq_zero_iff.mp hlength.symm).symm
  | cons byte rest ih =>
    cases b with
    | nil => simp at hlength
    | cons other rest' =>
      obtain ⟨hbyte, hrest⟩ := List.append_inj h (by simp [byteBits])
      have hword := (word_byteBits byte).symm.trans ((congrArg word hbyte).trans (word_byteBits other))
      rw [ih (Nat.succ.inj hlength) hrest, UInt8.toUInt32_inj.mp (UInt32.toBitVec_inj.mp hword)]

/-! ## The checksum -/

/-- The positions, counted in bits, at which two messages differ lie within 32 consecutive ones. -/
def DifferInBurst (a b : Bytes) : Prop :=
  ∃ start, ∀ i, (messageBits a)[i]? ≠ (messageBits b)[i]? → start ≤ i ∧ i < start + 32

theorem crc32c_ne_of_burst {a b : Bytes} (hlength : a.length = b.length) (hne : a ≠ b) (hburst : DifferInBurst a b)
    (seed : UInt32) : crc32c a seed ≠ crc32c b seed := by
  obtain ⟨start, hburst⟩ := hburst
  intro h
  have hbits : (messageBits a).length = (messageBits b).length := by simp [messageBits, byteBits, hlength]
  have hfeed := congrArg UInt32.toBitVec (UInt32.not_inj.mp h)
  rw [crc32c_fold, crc32c_fold] at hfeed
  exact feed_ne_of_burst (by decide) hbits (fun heq => hne (messageBits_inj hlength heq)) hburst hfeed

theorem crc32c_standard_and_detects_bursts :
    (∀ (data : Bytes) (seed : UInt32), crc32c data seed = crc32cBitwise data seed) ∧
      (∀ (a b : Bytes) (seed : UInt32), crc32c (a ++ b) seed = crc32c b (crc32c a seed)) ∧
      ∀ (a b : Bytes) (seed : UInt32), a.length = b.length → a ≠ b → DifferInBurst a b →
        crc32c a seed ≠ crc32c b seed := by
  refine ⟨fun data seed => ?_, fun a b seed => ?_, fun a b seed hlength hne hburst => ?_⟩
  · rw [crc32c, crc32cBitwise, ← crc32c_fold]
  · simp [crc32c]
  · exact crc32c_ne_of_burst hlength hne hburst seed

theorem bytes_one_bit_apart : crc32c [1, 2] ≠ crc32c [1, 3] := by
  refine crc32c_standard_and_detects_bursts.2.2 [1, 2] [1, 3] 0 rfl (by decide) ⟨0, fun i hdiffer => ?_⟩
  refine ⟨Nat.zero_le i, Nat.lt_of_not_le fun hi => hdiffer ?_⟩
  rw [List.getElem?_eq_none, List.getElem?_eq_none] <;> simp [messageBits, byteBits] <;> omega

end Lqf
