import LinkQualityFabric.Persist.Archive
import LinkQualityFabric.Persist.JournalFormat

/-! Record bundles, the body of a snapshot: `encode_record_bundle` and `decode_record_bundle` of
`src/persist/journal.cpp`. -/
namespace Lqf
open Foundations
set_option autoImplicit false

def bundleLimits (maxBytes : ℕ) : CodecLimits := ⟨2 ^ 20, 2 ^ 20, maxBytes⟩

def putRecord (writer : Writer) (record : JournalRecord) : Writer :=
  ((writer.putLe 8 record.ordinal.toNat).putU8 record.kind.code).putBytes record.body

/-- The loop ends at the first record that does not go through. -/
def putRecords : List JournalRecord → Writer → Writer
  | [], writer => writer
  | record :: rest, writer =>
    if (putRecord writer record).status.isSome then putRecord writer record
    else putRecords rest (putRecord writer record)

def encodeRecordBundle (records : List JournalRecord) (maxBytes : ℕ) : Outcome Bytes :=
  if 0xFFFFFFFF < records.length then fail .limitExceeded (text "record bundle count does not fit")
  else
    match putRecords records ((Writer.start (bundleLimits maxBytes)).putLe 4 records.length) with
    | ⟨_, _, some status⟩ => .error status
    | ⟨_, buffer, none⟩ => .ok buffer

/-- A read that delivered, or the status of the reader it failed in. -/
def delivered {α : Type} : Option α × Reader → Outcome (α × Reader)
  | (some value, after) => .ok (value, after)
  | (none, after) => .error (after.status.getD ⟨.protocol, []⟩)

def parseKind (raw : UInt8) : Outcome JournalRecordKind :=
  match JournalRecordKind.parse raw with
  | some kind => .ok kind
  | none => fail .protocol (text "journal record kind is out of range")

def getRecord (maxBytes : ℕ) (reader : Reader) : Outcome (JournalRecord × Reader) := do
  let (ordinal, afterOrdinal) ← delivered (reader.getLe 8)
  let (raw, afterKind) ← delivered afterOrdinal.getU8
  let kind ← parseKind raw
  let (length, afterLength) ← delivered (afterKind.getLe 4)
  refuseIf (maxBytes < length) .limitExceeded (text "record body exceeds the byte limit")
  let (body, afterBody) ← delivered (afterLength.getBytes length)
  return (⟨kind, UInt64.ofNat ordinal, body⟩, afterBody)

def getRecords (maxBytes : ℕ) : ℕ → Reader → Outcome (List JournalRecord × Reader)
  | 0, reader => .ok ([], reader)
  | count + 1, reader => do
    let (record, afterRecord) ← getRecord maxBytes reader
    let (rest, afterRest) ← getRecords maxBytes count afterRecord
    return (record :: rest, afterRest)

def decodeRecordBundle (body : Bytes) (maxRecords maxBytes : ℕ) : Outcome (List JournalRecord) := do
  let (count, afterCount) ← delivered ((Reader.start (bundleLimits maxBytes) body).getLe 4)
  refuseIf (maxRecords < count) .limitExceeded (text "record bundle exceeds the record limit")
  let (records, afterRecords) ← getRecords maxBytes count afterCount
  refuseIf (afterRecords.rest ≠ []) .protocol (text "record bundle has trailing bytes")
  return records

end Lqf
