import LinkQualityFabric.Core.Hash

/-! SHA-256 as FIPS 180-4 defines it, and the streaming hasher of `src/core/hash.cpp` against it.

The standard pads the whole message and folds a compression function over its blocks of 64 bytes. The
hasher keeps the bytes after the last complete block and compresses a block when it is complete: what it
was given is always `whole ++ buffer` with a state that belongs to the blocks of `whole`. -/
namespace Lqf
open Foundations
set_option autoImplicit false

/-! ## The standard -/

namespace Fips

abbrev Word := BitVec 32

def ch (x y z : Word) : Word := (x &&& y) ^^^ (~~~x &&& z)
def maj (x y z : Word) : Word := (x &&& y) ^^^ (x &&& z) ^^^ (y &&& z)
def upperSigma0 (x : Word) : Word := x.rotateRight 2 ^^^ x.rotateRight 13 ^^^ x.rotateRight 22
def upperSigma1 (x : Word) : Word := x.rotateRight 6 ^^^ x.rotateRight 11 ^^^ x.rotateRight 25
def lowerSigma0 (x : Word) : Word := x.rotateRight 7 ^^^ x.rotateRight 18 ^^^ x >>> 3
def lowerSigma1 (x : Word) : Word := x.rotateRight 17 ^^^ x.rotateRight 19 ^^^ x >>> 10

def primes : List ℕ :=
  [2, 3, 5, 7, 11, 13, 17, 19, 23, 29, 31, 37, 41, 43, 47, 53, 59, 61, 67, 71, 73, 79, 83, 89, 97, 101, 103, 107, 109,
    113, 127, 131, 137, 139, 149, 151, 157, 163, 167, 173, 179, 181, 191, 193, 197, 199, 211, 223, 227, 229, 233, 239,
    241, 251, 257, 263, 269, 271, 277, 281, 283, 293, 307, 311]

/-- The first 32 bits of the fractional part of a root of `n`: the root of `n` times a power of two, found bit by
bit from the top. -/
def rootFraction (degree n : ℕ) : Word :=
  BitVec.ofNat 32 ((List.range 40).foldr
    (fun i root => if (root + 2 ^ i) ^ degree ≤ n * 2 ^ (32 * degree) then root + 2 ^ i else root) 0)

def constants : List Word := primes.map (rootFraction 3)

def initial : List Word := (primes.take 8).map (rootFraction 2)

/-- The `t`-th word of a block: four bytes in a row, the first one at the top. -/
def word (block : Bytes) (t : ℕ) : Word :=
  (block.getD (4 * t) 0).toBitVec ++ (block.getD (4 * t + 1) 0).toBitVec ++ (block.getD (4 * t + 2) 0).toBitVec ++
    (block.getD (4 * t + 3) 0).toBitVec

def octets {width : ℕ} (count : ℕ) (x : BitVec width) : Bytes :=
  (List.range count).reverse.map fun i => ⟨x.extractLsb' (8 * i) 8⟩

def schedule (block : Bytes) (t : ℕ) : Word :=
  if t < 16 then word block t
  else lowerSigma1 (schedule block (t - 2)) + schedule block (t - 7) + lowerSigma0 (schedule block (t - 15)) +
    schedule block (t - 16)

def step (block : Bytes) : List Word → ℕ → List Word
  | [a, b, c, d, e, f, g, h], t =>
    let t1 := h + upperSigma1 e + ch e f g + constants.getD t 0 + schedule block t
    let t2 := upperSigma0 a + maj a b c
    [t1 + t2, a, b, c, d + t1, e, f, g]
  | other, _ => other

def compress (hash : List Word) (block : Bytes) : List Word :=
  List.zipWith (· + ·) hash ((List.range 64).foldl (step block) hash)

/-- A one bit, the least number of zeros, and the length in bits: the padded message ends with a block. -/
def pad (message : Bytes) : Bytes :=
  message ++ 0x80 :: List.replicate ((119 - message.length % 64) % 64) 0 ++
    octets 8 (BitVec.ofNat 64 (8 * message.length))

def blocks (message : Bytes) : List Bytes :=
  (List.range (message.length / 64)).map fun i => (message.drop (64 * i)).take 64

def sha256 (message : Bytes) : Bytes := ((blocks (pad message)).foldl compress initial).flatMap (octets 4)

theorem blocks_append {whole block : Bytes} (hwhole : 64 ∣ whole.length) (hblock : block.length = 64) :
    blocks (whole ++ block) = blocks whole ++ [block] := by
  obtain ⟨count, hcount⟩ := hwhole
  have hnext : (whole ++ block).length / 64 = count + 1 := by simp; omega
  have hold : whole.length / 64 = count := by omega
  rw [blocks, blocks, hnext, hold, List.range_succ, List.map_append, List.map_singleton]
  congr 1
  · refine List.map_congr_left fun i hi => ?_
    have hlt := List.mem_range.mp hi
    rw [List.drop_append_of_le_length (by omega), List.take_append_of_le_length (by simp; omega)]
  · rw [← hcount, List.drop_left, ← hblock, List.take_length]

/-! ## The words of the hasher -/

theorem bigEndianWord_eq (block : Bytes) (t : ℕ) : (bigEndianWord block t).toBitVec = word block t := by
  unfold bigEndianWord word
  generalize block.getD (4 * t) 0 = a
  generalize block.getD (4 * t + 1) 0 = b
  generalize block.getD (4 * t + 2) 0 = c
  generalize block.getD (4 * t + 3) 0 = d
  apply BitVec.eq_of_getLsbD_eq
  intro i hi
  rw [BitVec.getLsbD_append, BitVec.getLsbD_append, BitVec.getLsbD_append]
  interval_cases i <;> simp

theorem bigEndianBytes_eq {width : ℕ} (count : ℕ) (x : BitVec width) :
    Sha256.bigEndianBytes count x.toNat = octets count x := by
  have hbytes : ∀ value, leBytes count value = (List.range count).map fun i => UInt8.ofNat (value / 256 ^ i) := by
    induction count with
    | zero => exact fun _ => rfl
    | succ count ih =>
      intro value
      rw [leBytes, ih, List.range_succ_eq_map, List.map_cons, List.map_map]
      simp [Function.comp_def, Nat.div_div_eq_div_mul, pow_succ', UInt8.ofNat_eq_iff_mod_eq_toNat]
  rw [Sha256.bigEndianBytes, hbytes, octets, List.map_reverse]
  congr 2
  funext i
  apply UInt8.toBitVec_inj.mp
  apply BitVec.eq_of_toNat_eq
  simp [Nat.shiftRight_eq_div_pow, pow_mul]

theorem extendSchedule_eq (block : Bytes) :
    extendSchedule ((List.range 16).map (bigEndianWord block)) =
      (List.range 64).map fun t => UInt32.ofBitVec (schedule block t) := by
  have hfirst : (List.range 16).map (bigEndianWord block) =
      (List.range 16).map fun t => UInt32.ofBitVec (schedule block t) := by
    refine List.map_congr_left fun t ht => ?_
    rw [schedule, if_pos (List.mem_range.mp ht), ← bigEndianWord_eq]
  rw [hfirst]
  unfold extendSchedule
  suffices h : ∀ count, (List.range count).foldl _ ((List.range 16).map fun t => UInt32.ofBitVec (schedule block t)) =
      (List.range (16 + count)).map fun t => UInt32.ofBitVec (schedule block t) from h 48
  intro count
  induction count with
  | zero => rfl
  | succ count ih =>
    have hget : ∀ i < 16 + count, ((List.range (16 + count)).map fun t => UInt32.ofBitVec (schedule block t)).getD i 0 =
        UInt32.ofBitVec (schedule block i) := by
      intro i hi
      simp [hi]
    rw [@List.range_succ count, List.foldl_append, ih, ← Nat.add_assoc, @List.range_succ (16 + count),
      List.map_append]
    simp only [List.foldl_cons, List.foldl_nil, List.map_cons, List.map_nil]
    rw [hget _ (by omega), hget _ (by omega), hget _ (by omega), hget _ (by omega)]
    conv_rhs => rw [schedule, if_neg (by omega)]
    congr 2
    change UInt32.ofBitVec (_ + lowerSigma0 _ + _ + lowerSigma1 _) = _
    congr 1
    ac_rfl

/-- The state of the hasher as the hash value of the standard. -/
def wordsOf (state : Sha256Words) : List Word := state.toList.map UInt32.toBitVec

theorem transform_eq_compress (state : Sha256Words) (block : Bytes) :
    wordsOf (sha256Transform state block) = compress (wordsOf state) block := by
  have hconstants : sha256Constants = (List.range 64).map fun t => UInt32.ofBitVec (constants.getD t 0) := by
    decide +kernel
  have hround : ∀ (indices : List ℕ) (v : Sha256Words),
      wordsOf (indices.foldl (fun w t => w.round (.ofBitVec (constants.getD t 0)) (.ofBitVec (schedule block t))) v) =
        indices.foldl (step block) (wordsOf v) := by
    intro indices
    induction indices with
    | nil => exact fun _ => rfl
    | cons t rest ih => exact fun v => ih _
  rw [sha256Transform, extendSchedule_eq, hconstants, List.zip_map', List.foldl_map, compress, ← hround]
  rfl

end Fips

/-! ## The hasher -/

namespace Sha256
open Fips

/-- What the hasher was given, until it is finished: the blocks it has compressed and the bytes it keeps. -/
def Holds (hasher : Sha256) (message : Bytes) : Prop :=
  hasher.finalized = false ∧ ∃ whole, message = whole ++ hasher.buffer ∧ 64 ∣ whole.length ∧
    wordsOf hasher.state = (blocks whole).foldl compress initial

variable {hasher : Sha256} {message : Bytes}

theorem Holds.buffer_length (h : hasher.Holds message) : hasher.buffer.length = message.length % 64 := by
  obtain ⟨-, whole, rfl, hwhole, -⟩ := h
  have hlt := hasher.buffered
  rw [List.length_append]
  omega

theorem Holds.absorb (h : hasher.Holds message) (data : Bytes) :
    (hasher.absorb data).Holds (message ++ data.take (64 - hasher.buffer.length)) ∧
      (hasher.absorb data).totalBytes = hasher.totalBytes := by
  obtain ⟨hactive, whole, rfl, hwhole, hstate⟩ := h
  unfold Sha256.absorb
  extract_lets room block
  split
  · next hfull =>
    refine ⟨⟨hactive, whole ++ block, by simp [block, room], by simp only [List.length_append]; omega, ?_⟩, rfl⟩
    rw [blocks_append hwhole hfull, List.foldl_append, ← hstate]
    exact transform_eq_compress _ _
  · exact ⟨⟨hactive, whole, by simp [block, room], hwhole, hstate⟩, rfl⟩

theorem Holds.updateLoop {bound : ℕ} {data : Bytes} (h : hasher.Holds message) (hbound : data.length ≤ bound) :
    (updateLoop bound hasher data).Holds (message ++ data) ∧
      (Sha256.updateLoop bound hasher data).totalBytes = hasher.totalBytes := by
  induction bound generalizing hasher message data with
  | zero => simpa [Sha256.updateLoop, List.length_eq_zero_iff.mp (Nat.le_zero.mp hbound)] using h
  | succ bound ih =>
    unfold Sha256.updateLoop
    split
    · next hempty => simpa [List.isEmpty_iff.mp hempty] using h
    · have hroom := hasher.buffered
      obtain ⟨habsorbed, htotal⟩ := h.absorb data
      have hrest := ih habsorbed (show (data.drop (64 - hasher.buffer.length)).length ≤ bound by simp; omega)
      rwa [List.append_assoc, List.take_append_drop, htotal] at hrest

theorem Holds.update (h : hasher.Holds message) (data : Bytes) : (hasher.update data).Holds (message ++ data) ∧
      (hasher.update data).totalBytes = hasher.totalBytes + UInt64.ofNat data.length := by
  have hcounted : Holds { hasher with totalBytes := hasher.totalBytes + UInt64.ofNat data.length } message := h
  rw [Sha256.update, if_neg (Bool.eq_false_iff.mp h.1)]
  exact hcounted.updateLoop (Nat.le_refl _)

theorem Holds.updates (h : hasher.Holds message) (htotal : hasher.totalBytes = UInt64.ofNat message.length)
    (chunks : List Bytes) : (chunks.foldl Sha256.update hasher).Holds (message ++ chunks.flatten) ∧
      (chunks.foldl Sha256.update hasher).totalBytes = UInt64.ofNat (message ++ chunks.flatten).length := by
  induction chunks generalizing hasher message with
  | nil => simpa using ⟨h, htotal⟩
  | cons chunk rest ih =>
    obtain ⟨hnext, htotal'⟩ := h.update chunk
    rw [List.flatten_cons, ← List.append_assoc]
    refine ih hnext ?_
    rw [htotal', htotal, List.length_append, UInt64.ofNat_add]

theorem Holds.padZeros {bound zeros : ℕ} (h : hasher.Holds message) (hbound : zeros < bound) (hzeros : zeros < 64)
    (hends : (message.length + zeros) % 64 = 56) :
    (padZeros bound hasher).Holds (message ++ List.replicate zeros 0) := by
  induction bound generalizing hasher message zeros with
  | zero => omega
  | succ bound ih =>
    unfold Sha256.padZeros
    rw [h.buffer_length]
    split
    · obtain rfl : zeros = 0 := by omega
      simpa using h
    · obtain ⟨more, rfl⟩ : ∃ more, zeros = more + 1 := ⟨zeros - 1, by omega⟩
      have hrest := ih (h.update [0]).1 (show more < bound by omega) (by omega)
        (by rw [← hends, List.length_append, List.length_singleton]; omega)
      rwa [List.append_assoc] at hrest

theorem Holds.finish (h : hasher.Holds message) (htotal : hasher.totalBytes = UInt64.ofNat message.length)
    (hlength : message.length < 2 ^ 61) : hasher.finish.1 = sha256 message := by
  have hbits : (hasher.totalBytes * 8).toNat = 8 * message.length := by
    rw [htotal]
    simp
    omega
  have hpadded := (h.update [0x80]).1.padZeros (show (119 - message.length % 64) % 64 < 64 by omega) (by omega)
    (by simp; omega)
  have hbytes : bigEndianBytes 8 (8 * message.length) = octets 8 (BitVec.ofNat 64 (8 * message.length)) := by
    rw [← bigEndianBytes_eq, BitVec.toNat_ofNat, Nat.mod_eq_of_lt (by omega)]
  obtain ⟨hfinal, -⟩ := hpadded.update (bigEndianBytes 8 (8 * message.length))
  rw [show message ++ [0x80] ++ _ ++ _ = pad message by simp [pad, hbytes]] at hfinal
  have hempty := hfinal.buffer_length
  rw [show (pad message).length % 64 = 0 by simp [pad, octets]; omega, List.length_eq_zero_iff] at hempty
  obtain ⟨-, whole, hmessage, -, hstate⟩ := hfinal
  rw [hempty, List.append_nil] at hmessage
  rw [sha256, hmessage, ← hstate, wordsOf, List.flatMap_map]
  simp only [Sha256.finish, h.1, Bool.false_eq_true, if_false, hbits, ← bigEndianBytes_eq, UInt32.toNat_toBitVec]

theorem streaming_digest_is_standard (chunks : List Bytes) (hlength : chunks.flatten.length < 2 ^ 61) :
    (chunks.foldl update start).finish.1 = sha256 chunks.flatten := by
  have hstart : start.Holds [] := ⟨rfl, [], rfl, ⟨0, rfl⟩, by decide +kernel⟩
  obtain ⟨hholds, htotal⟩ := hstart.updates rfl chunks
  exact hholds.finish htotal hlength

theorem digest_of_split_message : ([[97], [], [98, 99]].foldl update start).finish.1 = sha256 [97, 98, 99] :=
  streaming_digest_is_standard [[97], [], [98, 99]] (by decide)

-- The digest of `abc` that the standard's test vectors give.
example : hexDigest (text "abc") = text "ba7816bf8f01cfea414140de5dae2223b00361a396177a9cb410ff61f20015ad" := by
  decide +kernel

end Sha256

end Lqf
