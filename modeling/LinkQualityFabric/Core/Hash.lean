import LinkQualityFabric.Core.Number

/-! Checksums and digests: `src/core/hash.cpp`.

`crc32c` guards journal records, `fnv1a64` fingerprints an observation for the dedup window, and
SHA-256 names the content of a policy document. -/
namespace Lqf
open Foundations
set_option autoImplicit false

/-! ## CRC-32C -/

-- One entry of the lookup table: eight shifts by the reflected polynomial.
def crc32cTableEntry (index : UInt32) : UInt32 :=
  (List.range 8).foldl
    (fun value _ => if value &&& 1 ≠ 0 then (value >>> 1) ^^^ 0x82F63B78 else value >>> 1) index

def crc32cByte (crc : UInt32) (byte : UInt8) : UInt32 :=
  crc32cTableEntry ((crc ^^^ byte.toUInt32) &&& 0xFF) ^^^ (crc >>> 8)

def crc32c (data : Bytes) (seed : UInt32 := 0) : UInt32 := ~~~(data.foldl crc32cByte (~~~seed))

/-! ## FNV-1a -/

def fnv1a64 (data : Bytes) (seed : UInt64 := 0xCBF29CE484222325) : UInt64 :=
  data.foldl (fun hash byte => (hash ^^^ byte.toUInt64) * 0x100000001B3) seed

/-! ## SHA-256 -/

def sha256Constants : List UInt32 :=
  [0x428a2f98, 0x71374491, 0xb5c0fbcf, 0xe9b5dba5, 0x3956c25b, 0x59f111f1, 0x923f82a4,
   0xab1c5ed5, 0xd807aa98, 0x12835b01, 0x243185be, 0x550c7dc3, 0x72be5d74, 0x80deb1fe,
   0x9bdc06a7, 0xc19bf174, 0xe49b69c1, 0xefbe4786, 0x0fc19dc6, 0x240ca1cc, 0x2de92c6f,
   0x4a7484aa, 0x5cb0a9dc, 0x76f988da, 0x983e5152, 0xa831c66d, 0xb00327c8, 0xbf597fc7,
   0xc6e00bf3, 0xd5a79147, 0x06ca6351, 0x14292967, 0x27b70a85, 0x2e1b2138, 0x4d2c6dfc,
   0x53380d13, 0x650a7354, 0x766a0abb, 0x81c2c92e, 0x92722c85, 0xa2bfe8a1, 0xa81a664b,
   0xc24b8b70, 0xc76c51a3, 0xd192e819, 0xd6990624, 0xf40e3585, 0x106aa070, 0x19a4c116,
   0x1e376c08, 0x2748774c, 0x34b0bcb5, 0x391c0cb3, 0x4ed8aa4a, 0x5b9cca4f, 0x682e6ff3,
   0x748f82ee, 0x78a5636f, 0x84c87814, 0x8cc70208, 0x90befffa, 0xa4506ceb, 0xbef9a3f7,
   0xc67178f2]

def rotr (value bits : UInt32) : UInt32 := (value >>> bits) ||| (value <<< (32 - bits))

structure Sha256Words where
  a : UInt32
  b : UInt32
  c : UInt32
  d : UInt32
  e : UInt32
  f : UInt32
  g : UInt32
  h : UInt32
  deriving DecidableEq, Repr

namespace Sha256Words

def initial : Sha256Words :=
  ⟨0x6a09e667, 0xbb67ae85, 0x3c6ef372, 0xa54ff53a, 0x510e527f, 0x9b05688c, 0x1f83d9ab, 0x5be0cd19⟩

def round (w : Sha256Words) (constant word : UInt32) : Sha256Words :=
  let s1 := rotr w.e 6 ^^^ rotr w.e 11 ^^^ rotr w.e 25
  let choice := (w.e &&& w.f) ^^^ (~~~w.e &&& w.g)
  let temp1 := w.h + s1 + choice + constant + word
  let s0 := rotr w.a 2 ^^^ rotr w.a 13 ^^^ rotr w.a 22
  let majority := (w.a &&& w.b) ^^^ (w.a &&& w.c) ^^^ (w.b &&& w.c)
  let temp2 := s0 + majority
  { a := temp1 + temp2, b := w.a, c := w.b, d := w.c, e := w.d + temp1, f := w.e, g := w.f, h := w.g }

def add (w v : Sha256Words) : Sha256Words :=
  ⟨w.a + v.a, w.b + v.b, w.c + v.c, w.d + v.d, w.e + v.e, w.f + v.f, w.g + v.g, w.h + v.h⟩

def toList (w : Sha256Words) : List UInt32 := [w.a, w.b, w.c, w.d, w.e, w.f, w.g, w.h]

end Sha256Words

def bigEndianWord (block : Bytes) (index : ℕ) : UInt32 :=
  ((block.getD (4 * index) 0).toUInt32 <<< 24) ||| ((block.getD (4 * index + 1) 0).toUInt32 <<< 16) |||
    ((block.getD (4 * index + 2) 0).toUInt32 <<< 8) ||| (block.getD (4 * index + 3) 0).toUInt32

-- `words[16..63]` of the message schedule, each from the words before it.
def extendSchedule (words : List UInt32) : List UInt32 :=
  (List.range 48).foldl
    (fun words offset =>
      let index := 16 + offset
      let w15 := words.getD (index - 15) 0
      let w2 := words.getD (index - 2) 0
      let s0 := rotr w15 7 ^^^ rotr w15 18 ^^^ (w15 >>> 3)
      let s1 := rotr w2 17 ^^^ rotr w2 19 ^^^ (w2 >>> 10)
      words ++ [words.getD (index - 16) 0 + s0 + words.getD (index - 7) 0 + s1]) words

def sha256Transform (state : Sha256Words) (block : Bytes) : Sha256Words :=
  let words := extendSchedule ((List.range 16).map (bigEndianWord block))
  state.add ((sha256Constants.zip words).foldl (fun w entry => w.round entry.1 entry.2) state)

/-- The hasher between calls: the block under construction is never complete. -/
structure Sha256 where
  state : Sha256Words
  totalBytes : UInt64
  buffer : Bytes
  finalized : Bool
  buffered : buffer.length < 64

namespace Sha256

def start : Sha256 := ⟨Sha256Words.initial, 0, [], false, by decide⟩

/-- One turn of the copy loop of `update`: as many bytes as the block has room for. -/
def absorb (hasher : Sha256) (data : Bytes) : Sha256 :=
  let room := 64 - hasher.buffer.length
  let block := hasher.buffer ++ data.take room
  if h : block.length = 64 then
    { hasher with state := sha256Transform hasher.state block, buffer := [], buffered := by decide }
  else
    { hasher with
      buffer := block
      buffered := by
        have hlt := hasher.buffered
        simp only [block, room, List.length_append, List.length_take] at h ⊢
        omega }

-- The bound is the number of bytes left: every turn copies at least one.
def updateLoop : ℕ → Sha256 → Bytes → Sha256
  | 0, hasher, _ => hasher
  | bound + 1, hasher, data =>
    if data.isEmpty then hasher
    else updateLoop bound (hasher.absorb data) (data.drop (64 - hasher.buffer.length))

def update (hasher : Sha256) (data : Bytes) : Sha256 :=
  if hasher.finalized then hasher
  else updateLoop data.length
    { hasher with totalBytes := hasher.totalBytes + UInt64.ofNat data.length } data

-- The zero bytes of `finish`, until eight bytes of the block are left. At most 63 are needed.
def padZeros : ℕ → Sha256 → Sha256
  | 0, hasher => hasher
  | bound + 1, hasher => if hasher.buffer.length = 56 then hasher else padZeros bound (hasher.update [0])

def bigEndianBytes (width value : ℕ) : Bytes := (leBytes width value).reverse

/-- `finish`: padding, the bit length, and the state in big-endian order. -/
def finish (hasher : Sha256) : Bytes × Sha256 :=
  let final :=
    if hasher.finalized then hasher
    else
      let bitLength := hasher.totalBytes * 8
      let padded := padZeros 64 (hasher.update [0x80])
      { padded.update (bigEndianBytes 8 bitLength.toNat) with finalized := true }
  (final.state.toList.flatMap fun word => bigEndianBytes 4 word.toNat, final)

def digest (data : Bytes) : Bytes := (start.update data).finish.1

/-- `Sha256::hex(Sha256::digest(data))`. -/
def hexDigest (data : Bytes) : Text := hexBytes (digest data)

@[simp] theorem hexDigest_length (data : Bytes) : (hexDigest data).length = 64 := by
  simp [hexDigest, digest, finish, Sha256Words.toList, bigEndianBytes]

end Sha256

end Lqf
