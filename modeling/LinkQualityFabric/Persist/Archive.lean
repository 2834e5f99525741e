import LinkQualityFabric.Core.Number
import LinkQualityFabric.Foundations.KeyOrder

/-! Field archives: `lqf/persist/archive.hpp` and the readers and writers of `src/persist/codec.cpp`.

A writer and a reader keep the first thing that went wrong in their status and go on. The source has one
description of the fields of a type for both directions; here that is a `Codec`, which carries the proof
that what it writes it reads back. Codecs are only built by the constructions of this module. -/
namespace Lqf
open Foundations
set_option autoImplicit false

structure CodecLimits where
  maxStringBytes : ℕ := 4096
  maxItems : ℕ := 4096
  maxTotalBytes : ℕ := 8388608
  deriving DecidableEq, Repr, Inhabited

/-! ## Writer -/

structure Writer where
  limits : CodecLimits
  buffer : Bytes
  status : Option Status
  deriving DecidableEq, Repr

namespace Writer

def start (limits : CodecLimits) : Writer := ⟨limits, [], none⟩

/-- Only the first failure is kept. -/
def fail (writer : Writer) (code : StatusCode) (message : Text) : Writer :=
  { writer with status := writer.status.or (some ⟨code, message⟩) }

def raw (writer : Writer) (data : Bytes) : Writer :=
  if writer.status.isSome then writer
  else if writer.limits.maxTotalBytes < writer.buffer.length + data.length then
    writer.fail .limitExceeded (text "encoded message exceeds the byte limit")
  else { writer with buffer := writer.buffer ++ data }

/-- `put_u16`, `put_u32`, `put_u64`: neither the status nor the byte limit is looked at. -/
def putLe (writer : Writer) (width value : ℕ) : Writer :=
  { writer with buffer := writer.buffer ++ leBytes width value }

def putU8 (writer : Writer) (value : UInt8) : Writer := writer.raw [value]

def putBytes (writer : Writer) (value : Bytes) : Writer :=
  if writer.status.isSome then writer
  else if writer.limits.maxTotalBytes < value.length ∨ 0xFFFFFFFF < value.length then
    writer.fail .limitExceeded (text "byte string length does not fit the wire format")
  else (writer.putLe 4 value.length).raw value

def putText (writer : Writer) (value : Text) : Writer :=
  if writer.status.isSome then writer
  else if writer.limits.maxStringBytes < value.length then
    writer.fail .limitExceeded (text "text exceeds the declared field limit")
  else writer.putBytes value

def wrote (writer : Writer) (bytes : Bytes) : Writer := { writer with buffer := writer.buffer ++ bytes }

variable {data : Bytes} {value : Text} (writer : Writer) (bytes : Bytes)

@[simp] theorem wrote_status : (writer.wrote bytes).status = writer.status := rfl

@[simp] theorem wrote_limits : (writer.wrote bytes).limits = writer.limits := rfl

@[simp] theorem wrote_length :
    (writer.wrote bytes).buffer.length = writer.buffer.length + bytes.length := List.length_append

@[simp] theorem wrote_wrote (first second : Bytes) :
    (writer.wrote first).wrote second = writer.wrote (first ++ second) := by
  simp [wrote, List.append_assoc]

@[simp] theorem fail_status_ne_none (code : StatusCode) (message : Text) :
    (writer.fail code message).status ≠ none := by
  simp [fail]

theorem putLe_eq (width value : ℕ) : writer.putLe width value = writer.wrote (leBytes width value) :=
  rfl

theorem guarded_ok {writer next : Writer} {exceeds : Prop} [Decidable exceeds] {code : StatusCode} {message : Text}
    (h : (if writer.status.isSome then writer
      else if exceeds then writer.fail code message else next).status = none) :
    writer.status = none ∧ ¬ exceeds ∧ next.status = none ∧
      (if writer.status.isSome then writer else if exceeds then writer.fail code message else next) = next := by
  split at h
  · next hfailed =>
    rw [h] at hfailed
    cases hfailed
  · next hok =>
    split at h
    · exact absurd h (fail_status_ne_none _ _ _)
    · next hfits => exact ⟨by simpa using hok, hfits, h, by rw [if_neg hok, if_neg hfits]⟩

theorem raw_ok {writer : Writer} (h : (writer.raw data).status = none) :
    writer.status = none ∧ writer.raw data = writer.wrote data := by
  obtain ⟨hok, -, -, hnext⟩ := guarded_ok h
  exact ⟨hok, hnext⟩

theorem raw_status {writer : Writer} (hok : writer.status = none)
    (hroom : writer.buffer.length + data.length ≤ writer.limits.maxTotalBytes) : (writer.raw data).status = none := by
  rw [raw, hok, if_neg (by simp), if_neg (by omega)]

theorem putBytes_ok {writer : Writer} {value : Bytes} (h : (writer.putBytes value).status = none) :
    writer.status = none ∧ value.length ≤ writer.limits.maxTotalBytes ∧ value.length < 2 ^ 32 ∧
      writer.putBytes value = writer.wrote (leBytes 4 value.length ++ value) := by
  obtain ⟨hok, hfits, hraw, hnext⟩ := guarded_ok h
  refine ⟨hok, by omega, by omega, hnext.trans ?_⟩
  rw [(raw_ok hraw).2, putLe_eq, wrote_wrote]

theorem putText_ok {writer : Writer} (h : (writer.putText value).status = none) :
    writer.status = none ∧ value.length ≤ writer.limits.maxStringBytes ∧
      value.length ≤ writer.limits.maxTotalBytes ∧ value.length < 2 ^ 32 ∧
      writer.putText value = writer.wrote (leBytes 4 value.length ++ value) := by
  obtain ⟨hok, hstring, hput, hnext⟩ := guarded_ok h
  obtain ⟨-, htotal, hfield, hbytes⟩ := putBytes_ok hput
  exact ⟨hok, by omega, htotal, hfield, hnext.trans hbytes⟩

theorem putText_status {writer : Writer} (hok : writer.status = none)
    (hstring : value.length ≤ writer.limits.maxStringBytes) (hfield : value.length < 2 ^ 32)
    (hroom : writer.buffer.length + (4 + value.length) ≤ writer.limits.maxTotalBytes) :
    (writer.putText value).status = none := by
  rw [putText, hok, if_neg (by simp), if_neg (by omega), putBytes, hok, if_neg (by simp), if_neg (by omega)]
  refine raw_status hok ?_
  simp only [putLe, List.length_append, leBytes_length]
  omega

end Writer

/-! ## Reader -/

structure Reader where
  limits : CodecLimits
  rest : Bytes
  status : Option Status
  deriving DecidableEq, Repr

namespace Reader

def start (limits : CodecLimits) (data : Bytes) : Reader := ⟨limits, data, none⟩

def fail (reader : Reader) (code : StatusCode) (message : Text) : Reader :=
  { reader with status := reader.status.or (some ⟨code, message⟩) }

def raw (reader : Reader) (size : ℕ) : Option Bytes × Reader :=
  if reader.status.isSome then (none, reader)
  else if reader.rest.length < size then
    (none, reader.fail .protocol (text "message ended before the field was complete"))
  else (some (reader.rest.take size), { reader with rest := reader.rest.drop size })

/-- `get_u16`, `get_u32`, `get_u64`: these read on after a failure. -/
def getLe (reader : Reader) (width : ℕ) : Option ℕ × Reader :=
  if reader.rest.length < width then
    (none, reader.fail .protocol (text "message ended before the field was complete"))
  else (some (leValue (reader.rest.take width)), { reader with rest := reader.rest.drop width })

def getU8 (reader : Reader) : Option UInt8 × Reader :=
  match reader.raw 1 with
  | (some bytes, after) => (some (bytes.headD 0), after)
  | (none, after) => (none, after)

def getBytes (reader : Reader) (size : ℕ) : Option Bytes × Reader :=
  if reader.status.isSome then (none, reader)
  else if reader.limits.maxTotalBytes < size then
    (none, reader.fail .limitExceeded (text "byte string exceeds the decoder limit"))
  else if reader.rest.length < size then
    (none, reader.fail .protocol (text "byte string length exceeds the remaining input"))
  else (some (reader.rest.take size), { reader with rest := reader.rest.drop size })

/-- A length over the limit replaces an earlier failure. -/
def getText (reader : Reader) : Option Text × Reader :=
  match reader.getLe 4 with
  | (none, after) => (none, after)
  | (some length, after) =>
    if after.limits.maxStringBytes < length then
      (none, { after with
        status := some ⟨.limitExceeded, text "text field exceeds the declared limit"⟩ })
    else after.getBytes length

variable (limits : CodecLimits) (rest : Bytes)

theorem raw_start (bytes : Bytes) :
    (Reader.start limits (bytes ++ rest)).raw bytes.length = (some bytes, .start limits rest) := by
  simp [raw, start]

theorem getLe_start {width value : ℕ} (h : value < 256 ^ width) :
    (Reader.start limits (leBytes width value ++ rest)).getLe width = (some value, .start limits rest) := by
  have hshort : ¬ (leBytes width value ++ rest).length < width := by simp
  have hdrop : (leBytes width value ++ rest).drop width = rest := List.drop_left' (leBytes_length width value)
  rw [getLe, start, if_neg hshort, leValue_take_append h, hdrop]
  rfl

theorem getU8_start (value : UInt8) :
    (Reader.start limits ([value] ++ rest)).getU8 = (some value, .start limits rest) := by
  have hraw := raw_start limits rest [value]
  rw [List.length_singleton] at hraw
  rw [getU8, hraw]
  rfl

theorem getBytes_start {bytes : Bytes} (h : bytes.length ≤ limits.maxTotalBytes) :
    (Reader.start limits (bytes ++ rest)).getBytes bytes.length = (some bytes, .start limits rest) := by
  have hlimit : ¬ limits.maxTotalBytes < bytes.length := by omega
  simp [getBytes, start, hlimit]

theorem getText_start {value : Text} (hstring : value.length ≤ limits.maxStringBytes)
    (htotal : value.length ≤ limits.maxTotalBytes) (hfield : value.length < 2 ^ 32) :
    (Reader.start limits (leBytes 4 value.length ++ value ++ rest)).getText = (some value, .start limits rest) := by
  rw [List.append_assoc, getText, getLe_start limits _ (by norm_num; exact hfield)]
  have hlimit : ¬ limits.maxStringBytes < value.length := by omega
  exact (if_neg hlimit).trans (getBytes_start limits rest htotal)

end Reader

/-! ## Codecs -/

/-- One description of a type for both directions. `Valid` says that its enumeration fields are within
the range a decoder accepts, `Fits` that its texts and vectors are within the limits. -/
structure Codec (α : Type) where
  put : α → Writer → Writer
  get : Reader → Option α × Reader
  Valid : α → Prop
  Fits : CodecLimits → α → Prop
  size : α → ℕ
  /-- Writing goes through under the limits. -/
  put_status : ∀ (value : α) (writer : Writer), writer.status = none → Fits writer.limits value →
    writer.buffer.length + size value ≤ writer.limits.maxTotalBytes → (put value writer).status = none
  /-- What has gone through is read back. -/
  round_trip : ∀ (value : α) (writer : Writer), (put value writer).status = none →
    ∃ bytes, bytes.length = size value ∧ bytes ≠ [] ∧ writer.status = none ∧ put value writer = writer.wrote bytes ∧
      (Valid value → writer.limits.maxItems < 2 ^ 32 → ∀ rest,
        get (.start writer.limits (bytes ++ rest)) = (some value, .start writer.limits rest))

namespace Codec
variable {α β : Type}

def fixedWidth (width : ℕ) (hwidth : 0 < width) (toNat : α → ℕ) (ofNat : ℕ → α)
    (hbound : ∀ value, toNat value < 256 ^ width) (hinv : ∀ value, ofNat (toNat value) = value) : Codec α where
  put value writer := writer.putLe width (toNat value)
  get reader := Prod.map (Option.map ofNat) id (reader.getLe width)
  Valid _ := True
  Fits _ _ := True
  size _ := width
  put_status _ _ hok _ _ := hok
  round_trip value writer h := by
    refine ⟨leBytes width (toNat value), leBytes_length _ _, ?_, h, rfl, fun _ _ rest => ?_⟩
    · exact List.ne_nil_of_length_pos (by rw [leBytes_length]; exact hwidth)
    · rw [Reader.getLe_start _ _ (hbound value)]
      simp [hinv]

def u32 : Codec UInt32 :=
  fixedWidth 4 (by decide) UInt32.toNat UInt32.ofNat (fun value => value.toNat_lt) (fun _ => UInt32.ofNat_toNat)

def u64 : Codec UInt64 :=
  fixedWidth 8 (by decide) UInt64.toNat UInt64.ofNat (fun value => value.toNat_lt) (fun _ => UInt64.ofNat_toNat)

def byteCoded (code : α → UInt8) (decode : UInt8 → Option α) (message : Text) : Codec α where
  put value writer := writer.putU8 (code value)
  get reader :=
    match reader.getU8 with
    | (none, after) => (none, after)
    | (some raw, after) =>
      match decode raw with
      | some value => (some value, after)
      | none => (none, after.fail .protocol message)
  Valid value := decode (code value) = some value
  Fits _ _ := True
  size _ := 1
  put_status _ _ hok _ hroom := Writer.raw_status hok hroom
  round_trip value writer h := by
    obtain ⟨hok, hraw⟩ := Writer.raw_ok h
    refine ⟨[code value], rfl, List.cons_ne_nil _ _, hok, hraw, fun hvalid _ rest => ?_⟩
    rw [Reader.getU8_start]
    simp only [hvalid]

def u8 : Codec UInt8 := byteCoded id some []

def bool : Codec Bool :=
  byteCoded (fun value => if value then 1 else 0)
    (fun raw => if raw = 0 then some false else if raw = 1 then some true else none)
    (text "boolean field is not 0 or 1")

def text : Codec Text where
  put value writer := writer.putText value
  get reader := reader.getText
  Valid _ := True
  Fits limits value := value.length ≤ limits.maxStringBytes ∧ value.length < 2 ^ 32
  size value := 4 + value.length
  put_status _ _ hok hfits hroom := Writer.putText_status hok hfits.1 hfits.2 hroom
  round_trip value writer h := by
    obtain ⟨hok, hstring, htotal, hfield, hput⟩ := Writer.putText_ok h
    refine ⟨leBytes 4 value.length ++ value, by simp, ?_, hok, hput, fun _ _ rest => ?_⟩
    · exact List.ne_nil_of_length_pos (by simp)
    · exact Reader.getText_start _ rest hstring htotal hfield

/-- Two fields after each other; the second is read even when the first has failed. -/
def pair (first : Codec α) (second : Codec β) : Codec (α × β) where
  put value writer := second.put value.2 (first.put value.1 writer)
  get reader :=
    let (left, middle) := first.get reader
    let (right, after) := second.get middle
    (left.bind fun l => right.map fun r => (l, r), after)
  Valid value := first.Valid value.1 ∧ second.Valid value.2
  Fits limits value := first.Fits limits value.1 ∧ second.Fits limits value.2
  size value := first.size value.1 + second.size value.2
  put_status value writer hok hfits hroom := by
    have hfirst := first.put_status value.1 writer hok hfits.1 (by omega)
    obtain ⟨bytes, hsize, -, -, hput, -⟩ := first.round_trip value.1 writer hfirst
    refine second.put_status value.2 _ hfirst ?_ ?_
    · rw [hput]
      exact hfits.2
    · rw [hput, Writer.wrote_length, Writer.wrote_limits, hsize]
      omega
  round_trip value writer h := by
    obtain ⟨right, hrsize, hrne, hfirst, hrput, hrget⟩ := second.round_trip value.2 _ h
    obtain ⟨left, hlsize, hlne, hok, hlput, hlget⟩ := first.round_trip value.1 writer hfirst
    rw [hlput, Writer.wrote_limits] at hrget
    refine ⟨left ++ right, by simp [hlsize, hrsize], by simp [hlne], hok, ?_, fun hvalid hitems rest => ?_⟩
    · rw [hrput, hlput, Writer.wrote_wrote]
    · rw [List.append_assoc, hlget hvalid.1 hitems]
      simp only [hrget hvalid.2 hitems]
      rfl

/-- A record is the codec of its fields in a tuple. -/
def map (fields : Codec α) (split : β → α) (join : α → β) (hinv : ∀ value, join (split value) = value) : Codec β where
  put value writer := fields.put (split value) writer
  get reader := Prod.map (Option.map join) id (fields.get reader)
  Valid value := fields.Valid (split value)
  Fits limits value := fields.Fits limits (split value)
  size value := fields.size (split value)
  put_status value writer := fields.put_status (split value) writer
  round_trip value writer h := by
    obtain ⟨bytes, hsize, hne, hok, hput, hget⟩ := fields.round_trip (split value) writer h
    refine ⟨bytes, hsize, hne, hok, hput, fun hvalid hitems rest => ?_⟩
    rw [hget hvalid hitems]
    simp [hinv]

/-! ### A byte in front -/

section Behind
variable (element : Codec α) {value : α} {writer : Writer} (byte : UInt8)

theorem put_status_behind (hok : writer.status = none) (hfits : element.Fits writer.limits value)
    (hroom : writer.buffer.length + (1 + element.size value) ≤ writer.limits.maxTotalBytes) :
    (element.put value (writer.putU8 byte)).status = none := by
  have hbyte : (writer.putU8 byte).status = none := Writer.raw_status hok (by simp; omega)
  have hraw : writer.putU8 byte = writer.wrote [byte] := (Writer.raw_ok hbyte).2
  rw [hraw] at hbyte ⊢
  refine element.put_status value _ hbyte hfits ?_
  rw [Writer.wrote_length, Writer.wrote_limits, List.length_singleton]
  omega

theorem round_trip_behind (h : (element.put value (writer.putU8 byte)).status = none) :
    ∃ bytes, bytes.length = element.size value ∧ writer.status = none ∧
      element.put value (writer.putU8 byte) = writer.wrote ([byte] ++ bytes) ∧
      (element.Valid value → writer.limits.maxItems < 2 ^ 32 → ∀ rest,
        element.get (.start writer.limits (bytes ++ rest)) = (some value, .start writer.limits rest)) := by
  obtain ⟨bytes, hsize, -, hbyte, hput, hget⟩ := element.round_trip value _ h
  obtain ⟨hok, hraw⟩ := Writer.raw_ok hbyte
  rw [Writer.putU8, hraw] at hput hget ⊢
  exact ⟨bytes, hsize, hok, hput.trans (Writer.wrote_wrote ..), hget⟩

end Behind

def option (element : Codec α) : Codec (Option α) where
  put
    | none, writer => writer.putU8 0
    | some value, writer => element.put value (writer.putU8 1)
  get reader :=
    match reader.getU8 with
    | (none, after) => (none, after)
    | (some present, after) =>
      if present = 0 then (some none, after)
      else if 1 < present then
        (none, after.fail .protocol (Lqf.text "optional presence flag is not 0 or 1"))
      else Prod.map (Option.map some) id (element.get after)
  Valid value := ∀ inner ∈ value, element.Valid inner
  Fits limits value := ∀ inner ∈ value, element.Fits limits inner
  size value := 1 + value.elim 0 element.size
  put_status value writer hok hfits hroom := by
    cases value with
    | none => exact Writer.raw_status hok hroom
    | some inner => exact element.put_status_behind 1 hok (hfits inner rfl) hroom
  round_trip value writer h := by
    cases value with
    | none =>
      obtain ⟨hok, hraw⟩ := Writer.raw_ok h
      refine ⟨[0], rfl, List.cons_ne_nil _ _, hok, hraw, fun _ _ rest => ?_⟩
      rw [Reader.getU8_start]
      rfl
    | some inner =>
      obtain ⟨bytes, hsize, hok, hput, hget⟩ := element.round_trip_behind 1 h
      refine ⟨[1] ++ bytes, by simp [hsize]; omega, by simp, hok, hput, fun hvalid hitems rest => ?_⟩
      rw [List.append_assoc, Reader.getU8_start]
      exact congrArg (Prod.map (Option.map some) id) (hget (hvalid inner rfl) hitems rest)

def sum (first : Codec α) (second : Codec β) : Codec (α ⊕ β) where
  put
    | .inl value, writer => first.put value (writer.putU8 0)
    | .inr value, writer => second.put value (writer.putU8 1)
  get reader :=
    match reader.getU8 with
    | (none, after) => (none, after)
    | (some index, after) =>
      if index = 0 then Prod.map (Option.map .inl) id (first.get after)
      else if index = 1 then Prod.map (Option.map .inr) id (second.get after)
      else (none, after.fail .protocol (Lqf.text "variant index out of range"))
  Valid := Sum.elim first.Valid second.Valid
  Fits limits := Sum.elim (first.Fits limits) (second.Fits limits)
  size value := 1 + value.elim first.size second.size
  put_status value writer hok hfits hroom := by
    cases value with
    | inl inner => exact first.put_status_behind 0 hok hfits hroom
    | inr inner => exact second.put_status_behind 1 hok hfits hroom
  round_trip value writer h := by
    cases value with
    | inl inner =>
      obtain ⟨bytes, hsize, hok, hput, hget⟩ := first.round_trip_behind 0 h
      refine ⟨[0] ++ bytes, by simp [hsize]; omega, by simp, hok, hput, fun hvalid hitems rest => ?_⟩
      rw [List.append_assoc, Reader.getU8_start]
      exact congrArg (Prod.map (Option.map Sum.inl) id) (hget hvalid hitems rest)
    | inr inner =>
      obtain ⟨bytes, hsize, hok, hput, hget⟩ := second.round_trip_behind 1 h
      refine ⟨[1] ++ bytes, by simp [hsize]; omega, by simp, hok, hput, fun hvalid hitems rest => ?_⟩
      rw [List.append_assoc, Reader.getU8_start]
      exact congrArg (Prod.map (Option.map Sum.inr) id) (hget hvalid hitems rest)

/-! ### Elements in a row -/

section Rows
variable (element : Codec α)

def putAll (values : List α) (writer : Writer) : Writer := values.foldl (fun w value => element.put value w) writer

/-- Reading stops behind the first element that failed. -/
def getAll : ℕ → Reader → Option (List α) × Reader
  | 0, reader => (some [], reader)
  | count + 1, reader =>
    match element.get reader with
    | (head, after) =>
      if after.status.isSome then (none, after)
      else
        match getAll count after with
        | (tail, last) => (head.bind fun value => tail.map (value :: ·), last)

def sizeAll (values : List α) : ℕ := (values.map element.size).sum

variable (values : List α) (writer : Writer)

theorem putAll_status (hok : writer.status = none) (hfits : ∀ value ∈ values, element.Fits writer.limits value)
    (hroom : writer.buffer.length + element.sizeAll values ≤ writer.limits.maxTotalBytes) :
    (element.putAll values writer).status = none := by
  induction values generalizing writer with
  | nil => exact hok
  | cons value rest ih =>
    simp only [sizeAll, List.map_cons, List.sum_cons] at hroom ih
    have hfirst := element.put_status value writer hok (hfits value List.mem_cons_self) (by omega)
    obtain ⟨bytes, hsize, -, -, hput, -⟩ := element.round_trip value writer hfirst
    refine ih (element.put value writer) hfirst ?_ ?_
    · rw [hput]
      exact fun other hother => hfits other (List.mem_cons_of_mem _ hother)
    · rw [hput, Writer.wrote_length, Writer.wrote_limits, hsize]
      omega

theorem putAll_round_trip (h : (element.putAll values writer).status = none) :
    ∃ bytes, bytes.length = element.sizeAll values ∧ values.length ≤ bytes.length ∧ writer.status = none ∧
      element.putAll values writer = writer.wrote bytes ∧
      ((∀ value ∈ values, element.Valid value) → writer.limits.maxItems < 2 ^ 32 → ∀ rest,
        element.getAll values.length (.start writer.limits (bytes ++ rest)) =
          (some values, .start writer.limits rest)) := by
  induction values generalizing writer with
  | nil => exact ⟨[], rfl, le_rfl, h, by simp [putAll, Writer.wrote], fun _ _ rest => rfl⟩
  | cons value rest ih =>
    obtain ⟨tail, htsize, htlen, hfirst, htput, htget⟩ := ih (element.put value writer) h
    obtain ⟨head, hhsize, hhne, hok, hhput, hhget⟩ := element.round_trip value writer hfirst
    have hpos : 0 < head.length := List.length_pos_iff.mpr hhne
    refine ⟨head ++ tail, ?_, ?_, hok, ?_, fun hvalid hitems more => ?_⟩
    · simp [sizeAll, hhsize, htsize]
    · simp only [List.length_cons, List.length_append]
      omega
    · have hstep : element.putAll (value :: rest) writer = element.putAll rest (element.put value writer) := rfl
      rw [hstep, htput, hhput, Writer.wrote_wrote]
    · rw [hhput, Writer.wrote_limits] at htget
      have hhead := hhget (hvalid value List.mem_cons_self) hitems (tail ++ more)
      have htail := htget (fun other hother => hvalid other (List.mem_cons_of_mem _ hother)) hitems more
      rw [List.append_assoc, List.length_cons, getAll, hhead]
      simp only [Reader.start] at htail ⊢
      simp [htail]

end Rows

def list (element : Codec α) : Codec (List α) where
  put values writer :=
    if writer.limits.maxItems < values.length then
      writer.fail .limitExceeded (Lqf.text "item count exceeds the encoder limit")
    else element.putAll values (writer.putLe 4 values.length)
  get reader :=
    match reader.getLe 4 with
    | (none, after) => (none, after)
    | (some count, after) =>
      if after.limits.maxItems < count then
        (none, after.fail .limitExceeded (Lqf.text "item count exceeds the decoder limit"))
      else if after.rest.length < count then
        (none, after.fail .protocol (Lqf.text "item count exceeds the remaining input"))
      else element.getAll count after
  Valid values := ∀ value ∈ values, element.Valid value
  Fits limits values := values.length ≤ limits.maxItems ∧ ∀ value ∈ values, element.Fits limits value
  size values := 4 + element.sizeAll values
  put_status values writer hok hfits hroom := by
    rw [if_neg (by have := hfits.1; omega), Writer.putLe_eq]
    refine element.putAll_status values _ hok hfits.2 ?_
    rw [Writer.wrote_length, Writer.wrote_limits, leBytes_length]
    omega
  round_trip values writer h := by
    split at h
    · exact absurd h (Writer.fail_status_ne_none _ _ _)
    · next hcount =>
      obtain ⟨bytes, hsize, hlen, hok, hput, hget⟩ := element.putAll_round_trip values _ h
      refine ⟨leBytes 4 values.length ++ bytes, by simp [hsize], ?_, hok, ?_, fun hvalid hitems rest => ?_⟩
      · exact List.ne_nil_of_length_pos (by simp)
      · rw [if_neg hcount, hput, Writer.putLe_eq, Writer.wrote_wrote]
      · have hbound : values.length < 256 ^ 4 := by norm_num; omega
        have hread := hget hvalid hitems rest
        rw [Writer.putLe_eq, Writer.wrote_limits] at hread
        rw [List.append_assoc, Reader.getLe_start _ _ hbound]
        have hmany : ¬ (bytes ++ rest).length < values.length := by
          rw [List.length_append]
          omega
        exact (if_neg hcount).trans ((if_neg hmany).trans hread)

def array (element : Codec α) (count : ℕ) (hcount : 0 < count) : Codec { values : List α // values.length = count } where
  put values writer := element.putAll values.1 writer
  get reader :=
    let (values, after) := element.getAll count reader
    (values.bind fun list => if h : list.length = count then some ⟨list, h⟩ else none, after)
  Valid values := ∀ value ∈ values.1, element.Valid value
  Fits limits values := ∀ value ∈ values.1, element.Fits limits value
  size values := element.sizeAll values.1
  put_status values writer := element.putAll_status values.1 writer
  round_trip values writer h := by
    obtain ⟨bytes, hsize, hlen, hok, hput, hget⟩ := element.putAll_round_trip values.1 writer h
    refine ⟨bytes, hsize, ?_, hok, hput, fun hvalid hitems rest => ?_⟩
    · exact List.ne_nil_of_length_pos (by rw [values.2] at hlen; omega)
    · have hread := hget hvalid hitems rest
      rw [values.2] at hread
      dsimp only
      rw [hread]
      simp [values.2]

/-! ### Bodies -/

def encodeBody (codec : Codec α) (limits : CodecLimits) (value : α) : Outcome Bytes :=
  match codec.put value (.start limits) with
  | ⟨_, _, some status⟩ => .error status
  | ⟨_, buffer, none⟩ => .ok buffer

def decodeBody [Inhabited α] (codec : Codec α) (limits : CodecLimits) (body : Bytes) : Outcome α :=
  match codec.get (.start limits body) with
  | (_, ⟨_, _, some status⟩) => .error status
  | (value, ⟨_, rest, none⟩) =>
    if rest ≠ [] then fail .protocol (Lqf.text "record has trailing bytes") else .ok (value.getD default)

variable {codec : Codec α} {limits : CodecLimits} {body : Bytes}
variable {value : α}

theorem encodeBody_ok (h : codec.encodeBody limits value = .ok body) :
    (codec.put value (.start limits)).status = none ∧ (codec.put value (.start limits)).buffer = body := by
  unfold encodeBody at h
  split at h
  · cases h
  · next hput =>
    rw [hput]
    exact ⟨rfl, Except.ok.inj h⟩

theorem encodeBody_length (h : codec.encodeBody limits value = .ok body) : body.length = codec.size value := by
  obtain ⟨hstatus, hbuffer⟩ := encodeBody_ok h
  obtain ⟨bytes, hsize, -, -, hput, -⟩ := codec.round_trip value (.start limits) hstatus
  rw [hput] at hbuffer
  obtain rfl : bytes = body := hbuffer
  exact hsize

theorem decodeBody_encodeBody [Inhabited α] (codec : Codec α) (hencode : codec.encodeBody limits value = .ok body)
    (hvalid : codec.Valid value) (hitems : limits.maxItems < 2 ^ 32) : codec.decodeBody limits body = .ok value := by
  obtain ⟨hstatus, hbuffer⟩ := encodeBody_ok hencode
  obtain ⟨bytes, -, -, -, hput, hget⟩ := codec.round_trip value (.start limits) hstatus
  rw [hput] at hbuffer
  obtain rfl : bytes = body := hbuffer
  have hread := hget hvalid hitems []
  rw [List.append_nil] at hread
  rw [decodeBody, show Reader.start limits bytes = .start (Writer.start limits).limits bytes from rfl, hread]
  simp [Reader.start]

theorem encodeBody_of_fits (codec : Codec α) (hfits : codec.Fits limits value)
    (hroom : codec.size value ≤ limits.maxTotalBytes) : ∃ body, codec.encodeBody limits value = .ok body := by
  have hstatus := codec.put_status value (.start limits) rfl hfits (by simpa [Writer.start] using hroom)
  obtain ⟨bytes, -, -, -, hput, -⟩ := codec.round_trip value (.start limits) hstatus
  refine ⟨bytes, ?_⟩
  rw [encodeBody, hput]
  rfl

/-! ### Enumerations -/

section Enumerations
variable [DecidableEq α] [Enumeration α]

/-- The value of a code below `bound`; a sentinel behind the last value is out of range. -/
def ofBoundedCode (bound raw : ℕ) : Option α := if bound ≤ raw then none else Enumeration.ofCode? raw

variable {bound : ℕ} {value : α}

theorem ofBoundedCode_code (h : Enumeration.code value < bound) :
    ofBoundedCode bound (Enumeration.code value) = some value := by
  rw [ofBoundedCode, if_neg (by omega), Enumeration.ofCode?_code]

def enum8 (bound : ℕ) : Codec α :=
  byteCoded (fun value => UInt8.ofNat (Enumeration.code value)) (fun raw => ofBoundedCode bound raw.toNat)
    (Lqf.text "enum value is outside the declared range")

def enum16 (bound : ℕ) : Codec α where
  put value writer := writer.putLe 2 (Enumeration.code value)
  get reader :=
    match reader.getLe 2 with
    | (none, after) => (none, after)
    | (some raw, after) =>
      match ofBoundedCode bound raw with
      | some value => (some value, after)
      | none => (none, after.fail .protocol (Lqf.text "enum value is outside the declared range"))
  Valid value := Enumeration.code value < bound ∧ Enumeration.code value < 65536
  Fits _ _ := True
  size _ := 2
  put_status _ _ hok _ _ := hok
  round_trip value writer h := by
    refine ⟨leBytes 2 (Enumeration.code value), leBytes_length _ _, ?_, h, rfl, fun hvalid _ rest => ?_⟩
    · exact List.ne_nil_of_length_pos (by simp)
    · rw [Reader.getLe_start _ _ (by norm_num; exact hvalid.2)]
      simp only [ofBoundedCode_code hvalid.1]

theorem enum8_valid (h : Enumeration.code value < bound) (hbyte : bound ≤ 256) :
    (enum8 bound : Codec α).Valid value := by
  have hcode : (UInt8.ofNat (Enumeration.code value)).toNat = Enumeration.code value := by
    rw [UInt8.toNat_ofNat', Nat.mod_eq_of_lt (by omega)]
  change ofBoundedCode bound (UInt8.ofNat (Enumeration.code value)).toNat = some value
  rw [hcode, ofBoundedCode_code h]

end Enumerations

end Codec

end Lqf
