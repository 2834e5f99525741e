import LinkQualityFabric.Persist.Archive

/-! Codecs as bijections between values and the byte strings they read.

A codec reads back what it writes, and writes what it has read. The one thing that stands against the first is the
count in front of a vector: it is four bytes wide, and the writer compares the length with the item limit only. A
vector of 2 ^ 32 elements, where the limit allows it, is written under the count 0. -/
namespace Lqf
open Foundations
set_option autoImplicit false

theorem Writer.wrote_inj (writer : Writer) {first second : Bytes} (h : writer.wrote first = writer.wrote second) :
    first = second :=
  List.append_cancel_left (congrArg Writer.buffer h)

/-- All but the last bytes, `unchecked` in number, have been held against the limit. -/
def Writer.Within (writer : Writer) (unchecked : ℕ) : Prop :=
  unchecked ≤ writer.buffer.length ∧ writer.buffer.length ≤ writer.limits.maxTotalBytes + unchecked

theorem Writer.Within.putLe {writer : Writer} {before : ℕ} (h : writer.Within before) (width value : ℕ) :
    (writer.putLe width value).Within (before + width) := by
  obtain ⟨hlow, hhigh⟩ := h
  simp only [Writer.Within, Writer.putLe, List.length_append, leBytes_length]
  omega

theorem Writer.raw_within {writer : Writer} {data : Bytes} (h : (writer.raw data).status = none) :
    (writer.raw data).Within 0 := by
  obtain ⟨-, hfits, -, hnext⟩ := Writer.guarded_ok h
  rw [show writer.raw data = _ from hnext]
  exact ⟨Nat.zero_le _, by simpa using hfits⟩

/-! ## What a reader has read -/

namespace Reader
variable {reader : Reader}

theorem fail_status (reader : Reader) (code : StatusCode) (message : Text) :
    (reader.fail code message).status ≠ none := by
  simp [fail]

theorem eq_start (h : reader.status = none) : reader = .start reader.limits reader.rest := by
  cases reader
  cases h
  rfl

theorem getLe_bytes {bytes : Bytes} {width : ℕ} (hlength : bytes.length = width) (limits : CodecLimits) (rest : Bytes) :
    (Reader.start limits (bytes ++ rest)).getLe width = (some (leValue bytes), .start limits rest) := by
  subst hlength
  simp [getLe, start]

theorem split_start {size : ℕ} (hstatus : reader.status = none) (hlong : ¬ reader.rest.length < size) :
    ∃ bytes rest, bytes.length = size ∧ reader = .start reader.limits (bytes ++ rest) := by
  refine ⟨reader.rest.take size, reader.rest.drop size, ?_, ?_⟩
  · rw [List.length_take]
    omega
  · rw [List.take_append_drop]
    exact eq_start hstatus

theorem getLe_read {width : ℕ} (h : (reader.getLe width).2.status = none) :
    ∃ bytes rest, bytes.length = width ∧ reader = .start reader.limits (bytes ++ rest) := by
  unfold getLe at h
  split at h
  · exact (fail_status _ _ _ h).elim
  · next hlong => exact split_start h hlong

theorem raw_read {size : ℕ} (h : (reader.raw size).2.status = none) :
    ∃ bytes rest, bytes.length = size ∧ reader = .start reader.limits (bytes ++ rest) := by
  unfold raw at h
  split at h
  · next hfailed =>
    have hnone : reader.status = none := h
    simp [hnone] at hfailed
  next hok =>
  split at h
  · exact (fail_status _ _ _ h).elim
  · next hlong => exact split_start (by simpa using hok) hlong

theorem getU8_read (h : reader.getU8.2.status = none) :
    ∃ byte rest, reader = .start reader.limits ([byte] ++ rest) := by
  have hraw : (reader.raw 1).2.status = none := by
    unfold getU8 at h
    split at h
    · next bytes after hread => rw [hread]; exact h
    · next after hread => rw [hread]; exact h
  obtain ⟨bytes, rest, hlength, hreader⟩ := raw_read hraw
  obtain ⟨byte, rfl⟩ := List.length_eq_one_iff.mp hlength
  exact ⟨byte, rest, hreader⟩

theorem getBytes_read {size : ℕ} (h : (reader.getBytes size).2.status = none) :
    size ≤ reader.limits.maxTotalBytes ∧
      ∃ bytes rest, bytes.length = size ∧ reader = .start reader.limits (bytes ++ rest) := by
  unfold getBytes at h
  split at h
  · next hfailed =>
    have hnone : reader.status = none := h
    simp [hnone] at hfailed
  next hok =>
  split at h
  · exact (fail_status _ _ _ h).elim
  next hfits =>
  split at h
  · exact (fail_status _ _ _ h).elim
  · next hlong => exact ⟨Nat.not_lt.mp hfits, split_start (by simpa using hok) hlong⟩

theorem getText_read (h : reader.getText.2.status = none) :
    ∃ value rest, value.length ≤ reader.limits.maxStringBytes ∧ value.length ≤ reader.limits.maxTotalBytes ∧
      value.length < 2 ^ 32 ∧ reader = .start reader.limits (leBytes 4 value.length ++ value ++ rest) := by
  have hlength : (reader.getLe 4).2.status = none := by
    unfold getText at h
    split at h
    · next after hread => rw [hread]; exact h
    · next length after hread =>
      rw [hread]
      split at h
      · cases h
      · obtain ⟨-, bytes, rest, -, hafter⟩ := getBytes_read h
        rw [hafter]
        rfl
  obtain ⟨bytes, rest, hwidth, hreader⟩ := getLe_read hlength
  have hread : reader.getLe 4 = (some (leValue bytes), .start reader.limits rest) :=
    (congrArg (·.getLe 4) hreader).trans (getLe_bytes hwidth _ _)
  unfold getText at h
  simp only [hread] at h
  split at h
  · cases h
  next hfits =>
  obtain ⟨htotal, value, more, hvalue, hafter⟩ := getBytes_read h
  have hcount : leValue bytes < 2 ^ 32 := by
    have hlt := leValue_lt bytes
    rw [hwidth] at hlt
    norm_num at hlt
    exact hlt
  have hrest : rest = value ++ more := congrArg Reader.rest hafter
  rw [← hvalue] at hfits htotal hcount
  refine ⟨value, more, Nat.not_lt.mp hfits, htotal, hcount, ?_⟩
  rw [hvalue, ← hwidth, leBytes_leValue, List.append_assoc, ← hrest]
  exact hreader

end Reader

namespace Codec
variable {α β : Type}

/-- A codec reads back what it writes, unless it is too long for a count, and writes what it reads. -/
structure Exact (codec : Codec α) where
  /-- No vector has more elements than a count can tell. -/
  Short : α → Prop
  /-- The bytes of fixed-width fields behind the last write that looks at the limit, with `before` of them in front. -/
  unchecked : α → (before : ℕ) → ℕ
  reads : ∀ (value : α) (writer : Writer) (bytes : Bytes), writer.status = none →
    codec.put value writer = writer.wrote bytes → codec.Valid value → Short value →
    ∀ rest, codec.get (.start writer.limits (bytes ++ rest)) = (some value, .start writer.limits rest)
  /-- What is read is decided by the bytes it is read from, whatever stands behind them. -/
  writes : ∀ reader : Reader, (codec.get reader).2.status = none →
    ∃ value bytes rest, reader = .start reader.limits (bytes ++ rest) ∧ bytes ≠ [] ∧
      (∀ more, codec.get (.start reader.limits (bytes ++ more)) = (some value, .start reader.limits more)) ∧
      codec.Valid value ∧ Short value ∧ codec.Fits reader.limits value ∧
      ∀ writer : Writer, writer.limits = reader.limits → writer.status = none →
        writer.buffer.length + bytes.length ≤ writer.limits.maxTotalBytes →
        codec.put value writer = writer.wrote bytes
  checks : ∀ (value : α) (writer : Writer) (before : ℕ), (codec.put value writer).status = none →
    writer.Within before → (codec.put value writer).Within (unchecked value before)

namespace Exact
variable {codec : Codec α} {reader : Reader}

theorem get_eq {value : α} {bytes rest : Bytes} (hreader : reader = .start reader.limits (bytes ++ rest))
    (hget : ∀ more, codec.get (.start reader.limits (bytes ++ more)) = (some value, .start reader.limits more)) :
    codec.get reader = (some value, .start reader.limits rest) :=
  (congrArg codec.get hreader).trans (hget rest)

def fixedWidth {width : ℕ} {hwidth : 0 < width} {toNat : α → ℕ} {ofNat : ℕ → α}
    {hbound : ∀ value, toNat value < 256 ^ width} {hinv : ∀ value, ofNat (toNat value) = value}
    (hcode : ∀ n < 256 ^ width, toNat (ofNat n) = n) :
    Exact (Codec.fixedWidth width hwidth toNat ofNat hbound hinv) where
  Short _ := True
  unchecked _ before := before + width
  checks _ _ _ _ hwithin := hwithin.putLe _ _
  reads value writer bytes _ hput _ _ rest := by
    obtain rfl : leBytes width (toNat value) = bytes := Writer.wrote_inj writer hput
    show Prod.map (Option.map ofNat) id (Reader.getLe _ width) = _
    rw [Reader.getLe_start _ _ (hbound value)]
    simp [hinv]
  writes reader h := by
    obtain ⟨bytes, rest, hlength, hreader⟩ := Reader.getLe_read h
    have hlt : leValue bytes < 256 ^ width := hlength ▸ leValue_lt bytes
    refine ⟨ofNat (leValue bytes), bytes, rest, hreader, List.ne_nil_of_length_pos (by omega), fun more => ?_, trivial,
      trivial, trivial, fun writer _ _ _ => ?_⟩
    · show Prod.map (Option.map ofNat) id (Reader.getLe _ width) = _
      rw [Reader.getLe_bytes hlength]
      rfl
    · show writer.putLe width (toNat (ofNat (leValue bytes))) = _
      rw [hcode _ hlt, Writer.putLe_eq, ← hlength, leBytes_leValue]

def byteCoded {code : α → UInt8} {decode : UInt8 → Option α} {message : Text}
    (hcode : ∀ raw value, decode raw = some value → code value = raw) :
    Exact (Codec.byteCoded code decode message) where
  Short _ := True
  unchecked _ _ := 0
  checks _ _ _ h _ := Writer.raw_within h
  reads value writer bytes hok hput hvalid _ rest := by
    have hraw : (writer.raw [code value]).status = none := by
      rw [show writer.raw [code value] = writer.wrote bytes from hput]
      exact hok
    obtain rfl : [code value] = bytes := Writer.wrote_inj writer ((Writer.raw_ok hraw).2.symm.trans hput)
    have hdecode : decode (code value) = some value := hvalid
    simp only [Codec.byteCoded, Reader.getU8_start, hdecode]
  writes reader h := by
    have hbyte : reader.getU8.2.status = none := by
      simp only [Codec.byteCoded] at h
      split at h
      · next after hread => rw [hread]; exact h
      · next raw after hread =>
        rw [hread]
        split at h
        · exact h
        · exact (Reader.fail_status _ _ _ h).elim
    obtain ⟨raw, rest, hreader⟩ := Reader.getU8_read hbyte
    rw [hreader] at h
    simp only [Codec.byteCoded, Reader.getU8_start] at h ⊢
    cases hdecode : decode raw with
    | none =>
      simp only [hdecode] at h
      exact (Reader.fail_status _ _ _ h).elim
    | some value =>
      refine ⟨value, [raw], rest, hreader, List.cons_ne_nil _ _, fun more => ?_, ?_, trivial, trivial,
        fun writer _ hok hroom => ?_⟩
      · simp only [Reader.getU8_start, hdecode]
      · show decode (code value) = some value
        rw [hcode raw value hdecode, hdecode]
      · show writer.raw [code value] = _
        rw [hcode raw value hdecode]
        exact (Writer.raw_ok (Writer.raw_status hok hroom)).2

def text : Exact Codec.text where
  Short _ := True
  unchecked _ _ := 0
  checks value writer _ h _ := by
    obtain ⟨-, -, hput, htext⟩ := Writer.guarded_ok h
    obtain ⟨-, -, hraw, hbytes⟩ := Writer.guarded_ok hput
    rw [show Codec.text.put value writer = _ from htext.trans hbytes]
    exact Writer.raw_within hraw
  reads value writer bytes hok hput _ _ rest := by
    have hstatus : (writer.putText value).status = none := by
      rw [show writer.putText value = writer.wrote bytes from hput]
      exact hok
    obtain ⟨-, hstring, htotal, hfield, hbytes⟩ := Writer.putText_ok hstatus
    obtain rfl : leBytes 4 value.length ++ value = bytes := Writer.wrote_inj writer (hbytes.symm.trans hput)
    exact Reader.getText_start _ rest hstring htotal hfield
  writes reader h := by
    obtain ⟨value, rest, hstring, htotal, hfield, hreader⟩ := Reader.getText_read h
    refine ⟨value, leBytes 4 value.length ++ value, rest, hreader, List.ne_nil_of_length_pos (by simp),
      fun more => Reader.getText_start _ more hstring htotal hfield, trivial, trivial, ⟨hstring, hfield⟩,
      fun writer hlimits hok hroom => ?_⟩
    rw [List.length_append, leBytes_length] at hroom
    exact (Writer.putText_ok (Writer.putText_status hok (by rw [hlimits]; exact hstring) hfield hroom)).2.2.2.2

variable {writer : Writer} {byte : UInt8} {bytes : Bytes}

theorem put_split {value : α} (h : (codec.put value writer).status = none) :
    writer.status = none ∧ ∃ bytes, bytes.length = codec.size value ∧ bytes ≠ [] ∧
      codec.put value writer = writer.wrote bytes := by
  obtain ⟨bytes, hsize, hne, hok, hput, -⟩ := codec.round_trip value writer h
  exact ⟨hok, bytes, hsize, hne, hput⟩

def pair {first : Codec α} {second : Codec β} (hfirst : Exact first) (hsecond : Exact second) :
    Exact (first.pair second) where
  Short value := hfirst.Short value.1 ∧ hsecond.Short value.2
  unchecked value before := hsecond.unchecked value.2 (hfirst.unchecked value.1 before)
  checks value writer before h hwithin :=
    hsecond.checks value.2 _ _ h (hfirst.checks value.1 writer before (@put_split _ second _ _ h).1 hwithin)
  reads value writer bytes hok hput hvalid hshort rest := by
    have hstatus : (second.put value.2 (first.put value.1 writer)).status = none := by
      rw [show second.put value.2 (first.put value.1 writer) = writer.wrote bytes from hput]
      exact hok
    obtain ⟨hmiddle, right, -, -, hright⟩ := put_split hstatus
    obtain ⟨-, left, -, -, hleft⟩ := put_split hmiddle
    have hbytes : left ++ right = bytes := by
      refine Writer.wrote_inj writer (Eq.trans ?_ hput)
      show _ = second.put value.2 (first.put value.1 writer)
      rw [hright, hleft, Writer.wrote_wrote]
    have hlater := hsecond.reads value.2 _ right hmiddle hright hvalid.2 hshort.2 rest
    rw [hleft, Writer.wrote_limits] at hlater
    rw [← hbytes, List.append_assoc]
    simp only [Codec.pair, hfirst.reads value.1 writer left hok hleft hvalid.1 hshort.1, hlater]
    rfl
  writes reader h := by
    obtain ⟨right, last, rest, hmiddle, -, hright, hvalidRight, hshortRight, hfitsRight, hputRight⟩ :=
      hsecond.writes (first.get reader).2 h
    have hstatus : (first.get reader).2.status = none := by
      rw [hmiddle]
      rfl
    obtain ⟨left, begin_, later, hreader, hne, hleft, hvalidLeft, hshortLeft, hfitsLeft, hputLeft⟩ :=
      hfirst.writes reader hstatus
    rw [get_eq hreader hleft] at hmiddle hright hfitsRight hputRight
    have hrest : later = last ++ rest := congrArg Reader.rest hmiddle
    refine ⟨(left, right), begin_ ++ last, rest, ?_, by simp [hne], fun more => ?_, ⟨hvalidLeft, hvalidRight⟩,
      ⟨hshortLeft, hshortRight⟩, ⟨hfitsLeft, hfitsRight⟩, fun writer hlimits hok hroom => ?_⟩
    · rw [List.append_assoc, ← hrest]
      exact hreader
    · have hlast : second.get (.start reader.limits (last ++ more)) = _ := hright more
      simp only [Codec.pair, List.append_assoc, hleft, hlast]
      rfl
    · rw [List.length_append] at hroom
      have hone := hputLeft writer hlimits hok (by omega)
      show second.put right (first.put left writer) = _
      rw [hone, hputRight (writer.wrote begin_) hlimits hok (by
        rw [Writer.wrote_length, Writer.wrote_limits]
        omega), Writer.wrote_wrote]

def map {fields : Codec α} (h : Exact fields) {split : β → α} {join : α → β}
    {hinv : ∀ value, join (split value) = value} (hsplit : ∀ value, split (join value) = value) :
    Exact (fields.map split join hinv) where
  Short value := h.Short (split value)
  unchecked value := h.unchecked (split value)
  checks value := h.checks (split value)
  reads value writer bytes hok hput hvalid hshort rest := by
    show Prod.map (Option.map join) id (fields.get _) = _
    rw [h.reads (split value) writer bytes hok hput hvalid hshort rest]
    simp [hinv]
  writes reader hstatus := by
    obtain ⟨value, bytes, rest, hreader, hne, hread, hvalid, hshort, hfits, hput⟩ := h.writes reader hstatus
    refine ⟨join value, bytes, rest, hreader, hne, fun more => ?_, ?_, ?_, ?_, fun writer hlimits hok hroom => ?_⟩
    · show Prod.map (Option.map join) id (fields.get _) = _
      rw [hread]
      rfl
    · show fields.Valid (split (join value))
      rw [hsplit]
      exact hvalid
    · rw [hsplit]
      exact hshort
    · show fields.Fits _ (split (join value))
      rw [hsplit]
      exact hfits
    · show fields.put (split (join value)) writer = _
      rw [hsplit]
      exact hput writer hlimits hok hroom

theorem reads_behind (h : Exact codec) {value : α} (hok : writer.status = none)
    (hput : codec.put value (writer.putU8 byte) = writer.wrote bytes) (hvalid : codec.Valid value)
    (hshort : h.Short value) : ∃ tail, bytes = [byte] ++ tail ∧
      ∀ rest, codec.get (.start writer.limits (tail ++ rest)) = (some value, .start writer.limits rest) := by
  have hstatus : (codec.put value (writer.putU8 byte)).status = none := by
    rw [hput]
    exact hok
  obtain ⟨hflag, tail, -, -, htail⟩ := put_split hstatus
  have hraw : writer.putU8 byte = writer.wrote [byte] := (Writer.raw_ok hflag).2
  have hread := h.reads value _ tail hflag htail hvalid hshort
  rw [hraw, Writer.wrote_limits] at hread
  refine ⟨tail, Writer.wrote_inj writer ?_, hread⟩
  rw [← hput, htail, hraw, Writer.wrote_wrote]

theorem put_behind {value : α} (hok : writer.status = none)
    (hroom : writer.buffer.length + ([byte] ++ bytes).length ≤ writer.limits.maxTotalBytes)
    (hput : ∀ next : Writer, next.limits = writer.limits → next.status = none →
      next.buffer.length + bytes.length ≤ next.limits.maxTotalBytes → codec.put value next = next.wrote bytes) :
    codec.put value (writer.putU8 byte) = writer.wrote ([byte] ++ bytes) := by
  rw [List.length_append, List.length_singleton] at hroom
  have hraw : writer.putU8 byte = writer.wrote [byte] :=
    (Writer.raw_ok (Writer.raw_status hok (by rw [List.length_singleton]; omega))).2
  rw [hraw, hput (writer.wrote [byte]) rfl hok (by
    rw [Writer.wrote_length, Writer.wrote_limits, List.length_singleton]
    omega), Writer.wrote_wrote]

def option {element : Codec α} (h : Exact element) : Exact element.option where
  Short value := ∀ inner ∈ value, h.Short inner
  unchecked value _ := value.elim 0 (h.unchecked · 0)
  checks value writer _ hstatus _ := by
    cases value with
    | none => exact Writer.raw_within hstatus
    | some inner => exact h.checks inner _ 0 hstatus (Writer.raw_within (@put_split _ element _ _ hstatus).1)
  reads value writer bytes hok hput hvalid hshort rest := by
    cases value with
    | none =>
      have hstatus : (writer.putU8 0).status = none := by
        rw [show writer.putU8 0 = writer.wrote bytes from hput]
        exact hok
      obtain rfl : [0] = bytes := Writer.wrote_inj writer ((Writer.raw_ok hstatus).2.symm.trans hput)
      simp only [Codec.option, Reader.getU8_start, if_true]
    | some inner =>
      obtain ⟨tail, rfl, hread⟩ := h.reads_behind hok hput (hvalid inner rfl) (hshort inner rfl)
      simp only [Codec.option, List.append_assoc, Reader.getU8_start]
      exact congrArg (Prod.map (Option.map some) id) (hread rest)
  writes reader hstatus := by
    have hflag : reader.getU8.2.status = none := by
      simp only [Codec.option] at hstatus
      split at hstatus
      · next after hread => rw [hread]; exact hstatus
      · next present after hread =>
        rw [hread]
        split at hstatus
        · exact hstatus
        split at hstatus
        · exact (Reader.fail_status _ _ _ hstatus).elim
        · obtain ⟨value, bytes, rest, hafter, -⟩ := h.writes after hstatus
          rw [hafter]
          rfl
    obtain ⟨present, rest, hreader⟩ := Reader.getU8_read hflag
    rw [hreader] at hstatus
    simp only [Codec.option, Reader.getU8_start] at hstatus
    by_cases hzero : present = 0
    · subst hzero
      refine ⟨none, [0], rest, hreader, List.cons_ne_nil _ _, fun more => ?_, (fun _ hinner => nomatch hinner),
        (fun _ hinner => nomatch hinner), (fun _ hinner => nomatch hinner), fun writer _ hok hroom => ?_⟩
      · simp only [Codec.option, Reader.getU8_start, if_true]
      exact (Writer.raw_ok (Writer.raw_status hok hroom)).2
    · rw [if_neg hzero] at hstatus
      by_cases hmany : 1 < present
      · rw [if_pos hmany] at hstatus
        exact (Reader.fail_status _ _ _ hstatus).elim
      · rw [if_neg hmany] at hstatus
        obtain ⟨value, bytes, later, hafter, -, hget, hvalid, hshort, hfits, hput⟩ := h.writes _ hstatus
        have hone : present = 1 := by
          refine UInt8.le_antisymm (UInt8.not_lt.mp hmany) ?_
          rw [UInt8.le_iff_toNat_le]
          have hne : present.toNat ≠ 0 := fun h0 => hzero (UInt8.toNat.inj h0)
          show 1 ≤ present.toNat
          omega
        have hrest : rest = bytes ++ later := congrArg Reader.rest hafter
        refine ⟨some value, [1] ++ bytes, later, ?_, by simp, fun more => ?_, ?_, ?_, ?_,
          fun writer hlimits hok hroom => ?_⟩
        · rw [List.append_assoc, ← hrest, ← hone]
          exact hreader
        · simp only [Codec.option, List.append_assoc, Reader.getU8_start]
          exact congrArg (Prod.map (Option.map some) id) (hget more)
        · intro inner hinner
          exact Option.some.inj hinner ▸ hvalid
        · intro inner hinner
          exact Option.some.inj hinner ▸ hshort
        · intro inner hinner
          exact Option.some.inj hinner ▸ hfits
        · exact put_behind hok hroom fun next hnext => hput next (hnext.trans hlimits)

def sum {first : Codec α} {second : Codec β} (hfirst : Exact first) (hsecond : Exact second) :
    Exact (first.sum second) where
  Short := Sum.elim hfirst.Short hsecond.Short
  unchecked value _ := value.elim (hfirst.unchecked · 0) (hsecond.unchecked · 0)
  checks value writer _ hstatus _ := by
    cases value with
    | inl inner => exact hfirst.checks inner _ 0 hstatus (Writer.raw_within (@put_split _ first _ _ hstatus).1)
    | inr inner => exact hsecond.checks inner _ 0 hstatus (Writer.raw_within (@put_split _ second _ _ hstatus).1)
  reads value writer bytes hok hput hvalid hshort rest := by
    cases value with
    | inl inner =>
      obtain ⟨tail, rfl, hread⟩ := hfirst.reads_behind hok hput hvalid hshort
      simp only [Codec.sum, List.append_assoc, Reader.getU8_start]
      exact congrArg (Prod.map (Option.map Sum.inl) id) (hread rest)
    | inr inner =>
      obtain ⟨tail, rfl, hread⟩ := hsecond.reads_behind hok hput hvalid hshort
      simp only [Codec.sum, List.append_assoc, Reader.getU8_start]
      exact congrArg (Prod.map (Option.map Sum.inr) id) (hread rest)
  writes reader hstatus := by
    have hindex : reader.getU8.2.status = none := by
      simp only [Codec.sum] at hstatus
      split at hstatus
      · next after hread => rw [hread]; exact hstatus
      · next index after hread =>
        rw [hread]
        split at hstatus
        · obtain ⟨value, bytes, rest, hafter, -⟩ := hfirst.writes after hstatus
          rw [hafter]
          rfl
        split at hstatus
        · obtain ⟨value, bytes, rest, hafter, -⟩ := hsecond.writes after hstatus
          rw [hafter]
          rfl
        · exact (Reader.fail_status _ _ _ hstatus).elim
    obtain ⟨index, rest, hreader⟩ := Reader.getU8_read hindex
    rw [hreader] at hstatus
    simp only [Codec.sum, Reader.getU8_start] at hstatus
    by_cases hzero : index = 0
    · subst hzero
      rw [if_pos rfl] at hstatus
      obtain ⟨value, bytes, later, hafter, -, hget, hvalid, hshort, hfits, hput⟩ := hfirst.writes _ hstatus
      have hrest : rest = bytes ++ later := congrArg Reader.rest hafter
      refine ⟨.inl value, [0] ++ bytes, later, ?_, by simp, fun more => ?_, hvalid, hshort, hfits,
        fun writer hlimits hok hroom => ?_⟩
      · rw [List.append_assoc, ← hrest]
        exact hreader
      · simp only [Codec.sum, List.append_assoc, Reader.getU8_start]
        exact congrArg (Prod.map (Option.map Sum.inl) id) (hget more)
      · exact put_behind hok hroom fun next hnext => hput next (hnext.trans hlimits)
    · rw [if_neg hzero] at hstatus
      by_cases hone : index = 1
      · subst hone
        rw [if_pos rfl] at hstatus
        obtain ⟨value, bytes, later, hafter, -, hget, hvalid, hshort, hfits, hput⟩ := hsecond.writes _ hstatus
        have hrest : rest = bytes ++ later := congrArg Reader.rest hafter
        refine ⟨.inr value, [1] ++ bytes, later, ?_, by simp, fun more => ?_, hvalid, hshort, hfits,
          fun writer hlimits hok hroom => ?_⟩
        · rw [List.append_assoc, ← hrest]
          exact hreader
        · simp only [Codec.sum, List.append_assoc, Reader.getU8_start]
          exact congrArg (Prod.map (Option.map Sum.inr) id) (hget more)
        · exact put_behind hok hroom fun next hnext => hput next (hnext.trans hlimits)
      · rw [if_neg hone] at hstatus
        exact (Reader.fail_status _ _ _ hstatus).elim

/-! ### Elements in a row -/

section Rows
variable {element : Codec α} (h : Exact element)
include h

theorem putAll_reads (values : List α) (writer : Writer) (bytes : Bytes) (hok : writer.status = none)
    (hput : element.putAll values writer = writer.wrote bytes) (hvalid : ∀ value ∈ values, element.Valid value)
    (hshort : ∀ value ∈ values, h.Short value) (rest : Bytes) :
    element.getAll values.length (.start writer.limits (bytes ++ rest)) =
      (some values, .start writer.limits rest) := by
  induction values generalizing writer bytes with
  | nil =>
    obtain rfl : [] = bytes := Writer.wrote_inj writer (by rw [← hput]; simp [putAll, Writer.wrote])
    rfl
  | cons value later ih =>
    have hstep : element.putAll (value :: later) writer = element.putAll later (element.put value writer) := rfl
    have hstatus : (element.putAll later (element.put value writer)).status = none := by
      rw [← hstep, hput]
      exact hok
    obtain ⟨tail, -, -, hfirst, htail, -⟩ := element.putAll_round_trip later _ hstatus
    obtain ⟨-, head, -, -, hhead⟩ := put_split hfirst
    have hlater := ih _ tail hfirst htail (fun other hother => hvalid other (List.mem_cons_of_mem _ hother))
      fun other hother => hshort other (List.mem_cons_of_mem _ hother)
    rw [hhead, Writer.wrote_limits] at hlater
    have hbytes : head ++ tail = bytes := by
      refine Writer.wrote_inj writer (Eq.trans ?_ hput)
      rw [hstep, htail, hhead, Writer.wrote_wrote]
    rw [← hbytes, List.append_assoc, List.length_cons, getAll,
      h.reads value writer head hok hhead (hvalid value List.mem_cons_self) (hshort value List.mem_cons_self)]
    simp only [Reader.start] at hlater ⊢
    simp [hlater]

def uncheckedAll (values : List α) (before : ℕ) : ℕ := values.foldl (fun count value => h.unchecked value count) before

theorem putAll_checks (values : List α) (writer : Writer) (before : ℕ)
    (hstatus : (element.putAll values writer).status = none) (hwithin : writer.Within before) :
    (element.putAll values writer).Within (h.uncheckedAll values before) := by
  induction values generalizing writer before with
  | nil => exact hwithin
  | cons value rest ih =>
    obtain ⟨-, -, -, hfirst, -⟩ := element.putAll_round_trip rest (element.put value writer) hstatus
    exact ih _ _ hstatus (h.checks value writer before hfirst hwithin)

theorem getAll_writes (count : ℕ) (reader : Reader) (hstatus : (element.getAll count reader).2.status = none) :
    ∃ values bytes rest, values.length = count ∧ reader = .start reader.limits (bytes ++ rest) ∧
      count ≤ bytes.length ∧
      (∀ more, element.getAll count (.start reader.limits (bytes ++ more)) =
        (some values, .start reader.limits more)) ∧
      (∀ value ∈ values, element.Valid value) ∧ (∀ value ∈ values, h.Short value) ∧
      (∀ value ∈ values, element.Fits reader.limits value) ∧
      ∀ writer : Writer, writer.limits = reader.limits → writer.status = none →
        writer.buffer.length + bytes.length ≤ writer.limits.maxTotalBytes →
        element.putAll values writer = writer.wrote bytes := by
  induction count generalizing reader with
  | zero =>
    exact ⟨[], [], reader.rest, rfl, Reader.eq_start hstatus, le_rfl, fun _ => rfl, (fun _ hmem => nomatch hmem),
      (fun _ hmem => nomatch hmem), (fun _ hmem => nomatch hmem), fun writer _ _ _ => by simp [putAll, Writer.wrote]⟩
  | succ count ih =>
    have hhead : (element.get reader).2.status = none := by
      rw [getAll] at hstatus
      cases hcase : (element.get reader).2.status with
      | none => rfl
      | some status =>
        simp only [hcase, Option.isSome_some, if_true] at hstatus
        cases hstatus
    have hunfold : element.getAll (count + 1) reader =
        ((element.get reader).1.bind fun value => (element.getAll count (element.get reader).2).1.map (value :: ·),
          (element.getAll count (element.get reader).2).2) := by
      rw [getAll]
      simp [hhead]
    rw [hunfold] at hstatus
    obtain ⟨head, first, middle, hreader, hne, hget, hvalid, hshort, hfits, hput⟩ := h.writes reader hhead
    rw [get_eq hreader hget] at hstatus
    obtain ⟨tail, last, rest, hlength, hmiddle, hcount, hgetTail, hvalidTail, hshortTail, hfitsTail, hputTail⟩ :=
      ih _ hstatus
    have hrest : middle = last ++ rest := congrArg Reader.rest hmiddle
    have hpos : 0 < first.length := List.length_pos_iff.mpr hne
    refine ⟨head :: tail, first ++ last, rest, by rw [List.length_cons, hlength], ?_, by simp; omega, fun more => ?_,
      ?_, ?_, ?_, fun writer hlimits hok hroom => ?_⟩
    · rw [List.append_assoc, ← hrest]
      exact hreader
    · have hlast : element.getAll count (.start reader.limits (last ++ more)) = _ := hgetTail more
      rw [getAll, List.append_assoc, hget]
      simp only [Reader.start] at hlast ⊢
      simp [hlast]
    · exact List.forall_mem_cons.mpr ⟨hvalid, hvalidTail⟩
    · exact List.forall_mem_cons.mpr ⟨hshort, hshortTail⟩
    · exact List.forall_mem_cons.mpr ⟨hfits, hfitsTail⟩
    · rw [List.length_append] at hroom
      show element.putAll tail (element.put head writer) = _
      rw [hput writer hlimits hok (by omega), hputTail (writer.wrote first) hlimits hok (by
        rw [Writer.wrote_length, Writer.wrote_limits]
        omega), Writer.wrote_wrote]

end Rows

def list {element : Codec α} (h : Exact element) : Exact element.list where
  Short values := values.length < 2 ^ 32 ∧ ∀ value ∈ values, h.Short value
  unchecked values before := h.uncheckedAll values (before + 4)
  checks values writer before hstatus hwithin := by
    have hmany : ¬ writer.limits.maxItems < values.length := by
      intro hmany
      rw [show element.list.put values writer = _ from if_pos hmany] at hstatus
      exact Writer.fail_status_ne_none _ _ _ hstatus
    rw [show element.list.put values writer = _ from if_neg hmany] at hstatus ⊢
    exact h.putAll_checks values _ _ hstatus (hwithin.putLe _ _)
  reads values writer bytes hok hput hvalid hshort rest := by
    have hunfold : element.list.put values writer = if writer.limits.maxItems < values.length then
        writer.fail .limitExceeded (Lqf.text "item count exceeds the encoder limit")
      else element.putAll values (writer.putLe 4 values.length) := rfl
    by_cases hmany : writer.limits.maxItems < values.length
    · rw [hunfold, if_pos hmany] at hput
      have hstatus := congrArg Writer.status hput
      rw [Writer.wrote_status, hok] at hstatus
      exact absurd hstatus (Writer.fail_status_ne_none _ _ _)
    · rw [hunfold, if_neg hmany, Writer.putLe_eq] at hput
      have hstatus : (element.putAll values (writer.wrote (leBytes 4 values.length))).status = none := by
        rw [hput]
        exact hok
      obtain ⟨tail, -, hlength, hcount, htail, -⟩ := element.putAll_round_trip values _ hstatus
      have hread := h.putAll_reads values _ tail hcount htail hvalid hshort.2 rest
      have hbytes : leBytes 4 values.length ++ tail = bytes := by
        refine Writer.wrote_inj writer (Eq.trans ?_ hput)
        rw [htail, Writer.wrote_wrote]
      have hfits : values.length < 256 ^ 4 := by
        norm_num
        exact hshort.1
      have hroom : ¬ (tail ++ rest).length < values.length := by
        rw [List.length_append]
        omega
      rw [← hbytes, List.append_assoc]
      simp only [Codec.list, Reader.getLe_start _ _ hfits]
      exact (if_neg hmany).trans ((if_neg hroom).trans hread)
  writes reader hstatus := by
    have hcount : (reader.getLe 4).2.status = none := by
      simp only [Codec.list] at hstatus
      split at hstatus
      · next after hread => rw [hread]; exact hstatus
      · next count after hread =>
        rw [hread]
        split at hstatus
        · exact (Reader.fail_status _ _ _ hstatus).elim
        split at hstatus
        · exact (Reader.fail_status _ _ _ hstatus).elim
        · obtain ⟨values, bytes, rest, -, hafter, -⟩ := h.getAll_writes count after hstatus
          rw [hafter]
          rfl
    obtain ⟨count, rest, hwidth, hreader⟩ := Reader.getLe_read hcount
    rw [hreader] at hstatus
    simp only [Codec.list, Reader.getLe_bytes hwidth] at hstatus
    by_cases hmany : (Reader.start reader.limits rest).limits.maxItems < leValue count
    · rw [if_pos hmany] at hstatus
      exact (Reader.fail_status _ _ _ hstatus).elim
    rw [if_neg hmany] at hstatus
    by_cases hlong : (Reader.start reader.limits rest).rest.length < leValue count
    · rw [if_pos hlong] at hstatus
      exact (Reader.fail_status _ _ _ hstatus).elim
    rw [if_neg hlong] at hstatus
    obtain ⟨values, bytes, later, hlength, hafter, hroom, hget, hvalid, hshort, hfits, hput⟩ :=
      h.getAll_writes _ _ hstatus
    have hrest : rest = bytes ++ later := congrArg Reader.rest hafter
    have hlt : leValue count < 2 ^ 32 := by
      have hvalue := leValue_lt count
      rw [hwidth] at hvalue
      norm_num at hvalue
      exact hvalue
    refine ⟨values, count ++ bytes, later, ?_, List.ne_nil_of_length_pos (by simp; omega), fun more => ?_, hvalid,
      ⟨hlength ▸ hlt, hshort⟩, ⟨hlength ▸ Nat.not_lt.mp hmany, hfits⟩, fun writer hlimits hok hroom => ?_⟩
    · rw [List.append_assoc, ← hrest]
      exact hreader
    · simp only [Codec.list, List.append_assoc, Reader.getLe_bytes hwidth]
      refine (if_neg hmany).trans ((if_neg ?_).trans (hget more))
      show ¬ (bytes ++ more).length < leValue count
      rw [List.length_append]
      omega
    · have hitems : ¬ writer.limits.maxItems < values.length := by
        rw [hlimits, hlength]
        exact hmany
      have hbytes : writer.putLe 4 values.length = writer.wrote count := by
        rw [Writer.putLe_eq, hlength, ← hwidth, leBytes_leValue]
      rw [List.length_append] at hroom
      refine (if_neg hitems).trans ?_
      rw [hbytes, hput (writer.wrote count) hlimits hok (by
        rw [Writer.wrote_length, Writer.wrote_limits]
        omega), Writer.wrote_wrote]

def array {element : Codec α} (h : Exact element) (count : ℕ) (hcount : 0 < count) :
    Exact (element.array count hcount) where
  Short values := ∀ value ∈ values.1, h.Short value
  unchecked values := h.uncheckedAll values.1
  checks values := h.putAll_checks values.1
  reads values writer bytes hok hput hvalid hshort rest := by
    have hread := h.putAll_reads values.1 writer bytes hok hput hvalid hshort rest
    rw [values.2] at hread
    simp only [Codec.array, hread]
    simp [values.2]
  writes reader hstatus := by
    obtain ⟨values, bytes, rest, hlength, hreader, hroom, hget, hvalid, hshort, hfits, hput⟩ :=
      h.getAll_writes count reader hstatus
    refine ⟨⟨values, hlength⟩, bytes, rest, hreader, List.ne_nil_of_length_pos (by omega), fun more => ?_, hvalid,
      hshort, hfits, hput⟩
    simp only [Codec.array, hget]
    simp [hlength]

/-! ### Enumerations -/

section Enumerations
variable [DecidableEq α] [Enumeration α]

theorem code_of_ofBoundedCode (hnodup : (Enumeration.values : List α).Nodup) {bound raw : ℕ} {value : α}
    (h : ofBoundedCode bound raw = some value) : raw < bound ∧ Enumeration.code value = raw := by
  unfold ofBoundedCode at h
  split at h
  · cases h
  · next hbound =>
    obtain ⟨hlt, hvalue⟩ := List.getElem?_eq_some_iff.mp h
    refine ⟨by omega, ?_⟩
    rw [Enumeration.code, ← hvalue]
    exact hnodup.idxOf_getElem raw hlt

def enum8 {bound : ℕ} (hnodup : (Enumeration.values : List α).Nodup) : Exact (Codec.enum8 bound : Codec α) :=
  byteCoded fun raw value hdecode => by
    rw [(code_of_ofBoundedCode hnodup hdecode).2]
    exact UInt8.ofNat_toNat

def enum16 {bound : ℕ} (hnodup : (Enumeration.values : List α).Nodup) : Exact (Codec.enum16 bound : Codec α) where
  Short _ := True
  unchecked _ before := before + 2
  checks _ _ _ _ hwithin := hwithin.putLe _ _
  reads value writer bytes _ hput hvalid _ rest := by
    obtain rfl : leBytes 2 (Enumeration.code value) = bytes := Writer.wrote_inj writer hput
    have hfits : Enumeration.code value < 256 ^ 2 := hvalid.2
    simp only [Codec.enum16, Reader.getLe_start _ _ hfits, ofBoundedCode_code hvalid.1]
  writes reader hstatus := by
    have hraw : (reader.getLe 2).2.status = none := by
      simp only [Codec.enum16] at hstatus
      split at hstatus
      · next after hread => rw [hread]; exact hstatus
      · next raw after hread =>
        rw [hread]
        split at hstatus
        · exact hstatus
        · exact (Reader.fail_status _ _ _ hstatus).elim
    obtain ⟨bytes, rest, hwidth, hreader⟩ := Reader.getLe_read hraw
    rw [hreader] at hstatus
    simp only [Codec.enum16, Reader.getLe_bytes hwidth] at hstatus
    cases hdecode : (ofBoundedCode bound (leValue bytes) : Option α) with
    | none =>
      simp only [hdecode] at hstatus
      exact (Reader.fail_status _ _ _ hstatus).elim
    | some value =>
      obtain ⟨hbound, hcode⟩ := code_of_ofBoundedCode hnodup hdecode
      have hlt : leValue bytes < 65536 := by
        have hvalue := leValue_lt bytes
        rw [hwidth] at hvalue
        exact hvalue
      refine ⟨value, bytes, rest, hreader, List.ne_nil_of_length_pos (by omega), fun more => ?_,
        ⟨hcode ▸ hbound, hcode ▸ hlt⟩, trivial, trivial, fun writer _ _ _ => ?_⟩
      · simp only [Codec.enum16, Reader.getLe_bytes hwidth, hdecode]
      show writer.putLe 2 (Enumeration.code value) = _
      rw [hcode, Writer.putLe_eq, ← hwidth, leBytes_leValue]

end Enumerations

def u8 : Exact Codec.u8 := byteCoded fun _ _ hdecode => (Option.some.inj hdecode).symm

def bool : Exact Codec.bool := byteCoded fun raw value hdecode => by
  split at hdecode
  · next hzero => rw [hzero, ← Option.some.inj hdecode]; rfl
  split at hdecode
  · next hone => rw [hone, ← Option.some.inj hdecode]; rfl
  · cases hdecode

def u32 : Exact Codec.u32 := fixedWidth fun n hn => by
  rw [UInt32.toNat_ofNat', Nat.mod_eq_of_lt (by norm_num at hn ⊢; exact hn)]

def u64 : Exact Codec.u64 := fixedWidth fun n hn => by
  rw [UInt64.toNat_ofNat', Nat.mod_eq_of_lt (by norm_num at hn ⊢; exact hn)]

end Exact

end Codec

end Lqf
