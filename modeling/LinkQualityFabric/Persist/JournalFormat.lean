import LinkQualityFabric.Foundations.ByteFile
import LinkQualityFabric.Runtime.Config

/-! The bytes of a journal file: `src/persist/journal.cpp`, `docs/formats.md`.

A file is a header of 40 bytes and a sequence of records. A record is the length and the checksum of a
payload, followed by the payload: ordinal, kind and body. `frameAt` is what a reader finds at an offset
before it looks into the payload. -/
namespace Lqf
open Foundations
set_option autoImplicit false

inductive JournalRecordKind where
  | capability | policy | linkObserved | linkGenerationAdvanced | evidence | snapshot | dedupWindow | count
  deriving DecidableEq, Repr, Inhabited

namespace JournalRecordKind

def code : JournalRecordKind → UInt8
  | .capability => 1
  | .policy => 2
  | .linkObserved => 3
  | .linkGenerationAdvanced => 4
  | .evidence => 5
  | .snapshot => 6
  | .dedupWindow => 7
  | .count => 8

/-- `parse_journal_record_kind`: the sentinel is out of range. -/
def parse (raw : UInt8) : Option JournalRecordKind :=
  match raw with
  | 1 => some .capability
  | 2 => some .policy
  | 3 => some .linkObserved
  | 4 => some .linkGenerationAdvanced
  | 5 => some .evidence
  | 6 => some .snapshot
  | 7 => some .dedupWindow
  | _ => none

theorem parse_code (kind : JournalRecordKind) : parse kind.code = if kind = .count then none else some kind := by
  cases kind <;> rfl

end JournalRecordKind

structure JournalRecord where
  kind : JournalRecordKind
  ordinal : UInt64
  body : Bytes
  deriving DecidableEq, Repr, Inhabited

def fileHeaderBytes : ℕ := 40
def recordHeaderBytes : ℕ := 8
def recordPrefixBytes : ℕ := 9
def journalFormatVersion : ℕ := 1

/-! ## File header -/

def headerFields (producerEpoch : UInt64) (createdWallNanos : Int64) : Bytes :=
  text "LQFJRNL1" ++ (leBytes 4 journalFormatVersion ++ (leBytes 4 0 ++
    (leBytes 8 producerEpoch.toNat ++ leBytes 8 createdWallNanos.toUInt64.toNat)))

def buildFileHeader (producerEpoch : UInt64) (createdWallNanos : Int64) : Bytes :=
  headerFields producerEpoch createdWallNanos ++
    (leBytes 4 (crc32c (headerFields producerEpoch createdWallNanos)).toNat ++ leBytes 4 0)

def validateFileHeader (header : Bytes) : Outcome Unit := do
  refuseIf (header.length ≠ fileHeaderBytes) .corrupt (text "journal header is truncated")
  refuseIf (header.take 8 ≠ text "LQFJRNL1") .corrupt (text "journal magic does not match")
  refuseIf (leValue (readAt header 8 4) ≠ journalFormatVersion) .unsupported
    (text "journal format version " ++ formatNat (leValue (readAt header 8 4)) ++
      text " is not supported by this build")
  refuseIf (leValue (readAt header 32 4) ≠ (crc32c (header.take 32)).toNat) .corrupt
    (text "journal header checksum does not match")

variable {contents : Bytes} {offset : ℕ} {payload : Bytes} (producerEpoch : UInt64) (config : JournalConfig)
  (record : JournalRecord) (createdWallNanos : Int64)

theorem headerFields_length : (headerFields producerEpoch createdWallNanos).length = 32 := by
  have hmagic : (text "LQFJRNL1").length = 8 := by decide
  simp [headerFields, hmagic]

theorem buildFileHeader_length : (buildFileHeader producerEpoch createdWallNanos).length = fileHeaderBytes := by
  simp [buildFileHeader, headerFields_length, fileHeaderBytes]

theorem validateFileHeader_build : validateFileHeader (buildFileHeader producerEpoch createdWallNanos) = .ok () := by
  have hmagic : (text "LQFJRNL1").length = 8 := by decide
  have hfields := headerFields_length producerEpoch createdWallNanos
  have htake : (buildFileHeader producerEpoch createdWallNanos).take 8 = text "LQFJRNL1" := by
    rw [buildFileHeader, headerFields, List.append_assoc, List.take_left' hmagic]
  have hversion : leValue (readAt (buildFileHeader producerEpoch createdWallNanos) 8 4) = journalFormatVersion := by
    rw [buildFileHeader, headerFields, List.append_assoc, ← hmagic, readAt_append, List.append_assoc]
    exact leValue_take_append (by decide) _
  have hchecked : (buildFileHeader producerEpoch createdWallNanos).take 32 =
      headerFields producerEpoch createdWallNanos := by
    rw [buildFileHeader, List.take_left' hfields]
  have hcrc : leValue (readAt (buildFileHeader producerEpoch createdWallNanos) 32 4) =
      (crc32c (headerFields producerEpoch createdWallNanos)).toNat := by
    rw [buildFileHeader, ← hfields, readAt_append]
    exact leValue_take_append (by norm_num; exact UInt32.toNat_lt _) _
  simp only [validateFileHeader, Outcome.check_bind_eq_ok, Outcome.refuseIf_eq_ok, htake, hversion, hchecked, hcrc,
    buildFileHeader_length, ne_eq, not_true_eq_false, not_false_eq_true, and_self]

/-! ## Records -/

def recordPayload (record : JournalRecord) : Bytes :=
  leBytes 8 record.ordinal.toNat ++ [record.kind.code] ++ record.body

def encodeRecordBytes (record : JournalRecord) : Bytes :=
  leBytes 4 (recordPayload record).length ++ leBytes 4 (crc32c (recordPayload record)).toNat ++
    recordPayload record

def encodeRecords (records : List JournalRecord) : Bytes := records.flatMap encodeRecordBytes

@[simp] theorem recordPayload_length : (recordPayload record).length = recordPrefixBytes + record.body.length := by
  simp [recordPayload, recordPrefixBytes]
  omega

@[simp] theorem encodeRecordBytes_length :
    (encodeRecordBytes record).length = recordHeaderBytes + (recordPrefixBytes + record.body.length) := by
  simp [encodeRecordBytes, recordHeaderBytes]
  omega

@[simp] theorem encodeRecords_nil : encodeRecords [] = [] := rfl

@[simp] theorem encodeRecords_cons (rest : List JournalRecord) :
    encodeRecords (record :: rest) = encodeRecordBytes record ++ encodeRecords rest := rfl

theorem encodeRecords_append (first second : List JournalRecord) :
    encodeRecords (first ++ second) = encodeRecords first ++ encodeRecords second := by
  simp [encodeRecords]

theorem encodeRecords_length_le (records : List JournalRecord) : records.length ≤ (encodeRecords records).length := by
  induction records with
  | nil => exact Nat.zero_le _
  | cons record rest ih =>
    rw [encodeRecords_cons, List.length_append, encodeRecordBytes_length, List.length_cons, recordHeaderBytes]
    omega

def payloadOrdinal (payload : Bytes) : UInt64 := UInt64.ofNat (leValue (payload.take 8))

def payloadKind (payload : Bytes) : Option JournalRecordKind := JournalRecordKind.parse (payload.getD 8 0)

theorem payloadOrdinal_recordPayload : payloadOrdinal (recordPayload record) = record.ordinal := by
  rw [payloadOrdinal, recordPayload, List.append_assoc, leValue_u64]

theorem payloadKind_recordPayload :
    payloadKind (recordPayload record) = if record.kind = .count then none else some record.kind := by
  have hbyte : (recordPayload record).getD 8 0 = record.kind.code := by
    rw [recordPayload, List.append_assoc, List.getD_append_right _ _ _ _ (by simp)]
    simp
  rw [payloadKind, hbyte, JournalRecordKind.parse_code]

theorem body_recordPayload : (recordPayload record).drop recordPrefixBytes = record.body := by
  have hlen : (leBytes 8 record.ordinal.toNat ++ [record.kind.code]).length = recordPrefixBytes := by
    simp [recordPrefixBytes]
  rw [recordPayload, List.drop_left' hlen]

/-! ## Frames -/

/-- What stands at an offset of a journal file. -/
inductive Frame where
  | atEnd
  | shortHeader
  | badLength
  | shortBody
  | badChecksum
  | intact (payload : Bytes)
  deriving DecidableEq, Repr

/-- The checks of a reader on one record, up to the checksum. -/
def frameAt (config : JournalConfig) (contents : Bytes) (offset : ℕ) : Frame :=
  let header := readAt contents offset recordHeaderBytes
  if header = [] then .atEnd
  else if header.length < recordHeaderBytes then .shortHeader
  else
    let payloadLength := leValue (header.take 4)
    let expectedCrc := leValue (header.drop 4)
    if payloadLength < recordPrefixBytes ∨ config.maxRecordBytes < payloadLength then .badLength
    else
      let payload := readAt contents (offset + recordHeaderBytes) payloadLength
      if payload.length < payloadLength then .shortBody
      else if (crc32c payload).toNat ≠ expectedCrc then .badChecksum
      else .intact payload

def lengthField (contents : Bytes) (offset : ℕ) : ℕ := leValue (readAt contents offset 4)

def checksumField (contents : Bytes) (offset : ℕ) : ℕ := leValue (readAt contents (offset + 4) 4)

theorem frameAt_of_header (h : offset + recordHeaderBytes ≤ contents.length) : frameAt config contents offset =
      if lengthField contents offset < recordPrefixBytes ∨ config.maxRecordBytes < lengthField contents offset then
        .badLength else if contents.length < offset + recordHeaderBytes + lengthField contents offset then .shortBody
      else if (crc32c (readAt contents (offset + recordHeaderBytes) (lengthField contents offset))).toNat ≠
          checksumField contents offset then .badChecksum
      else .intact (readAt contents (offset + recordHeaderBytes) (lengthField contents offset)) := by
  have hlen : (readAt contents offset recordHeaderBytes).length = recordHeaderBytes := by
    rw [readAt_length]
    omega
  have hnonempty : readAt contents offset recordHeaderBytes ≠ [] := by
    intro hnil
    rw [hnil] at hlen
    cases hlen
  have hlength : leValue ((readAt contents offset recordHeaderBytes).take 4) = lengthField contents offset := by
    simp [lengthField, readAt, List.take_take, recordHeaderBytes]
  have hchecksum : leValue ((readAt contents offset recordHeaderBytes).drop 4) = checksumField contents offset := by
    simp [checksumField, readAt, List.drop_take, recordHeaderBytes]
  have hbody : (readAt contents (offset + recordHeaderBytes) (lengthField contents offset)).length <
      lengthField contents offset ↔ contents.length < offset + recordHeaderBytes + lengthField contents offset := by
    rw [readAt_length]
    omega
  simp only [frameAt, if_neg hnonempty, hlen, lt_irrefl, if_false, hlength, hchecksum, hbody]

theorem header_of_frameAt {config : JournalConfig} (hend : frameAt config contents offset ≠ .atEnd)
    (hshort : frameAt config contents offset ≠ .shortHeader) : offset + recordHeaderBytes ≤ contents.length := by
  have hread := readAt_length contents offset recordHeaderBytes
  by_contra hlong
  have hless : (readAt contents offset recordHeaderBytes).length < recordHeaderBytes := by
    simp only [recordHeaderBytes] at hread hlong ⊢
    omega
  simp only [frameAt, hless, if_true] at hend hshort
  by_cases hnil : readAt contents offset recordHeaderBytes = []
  · exact hend (if_pos hnil)
  · exact hshort (if_neg hnil)

theorem frameAt_append (before after : Bytes) (offset : ℕ) :
    frameAt config (before ++ after) (before.length + offset) = frameAt config after offset := by
  simp only [frameAt, Nat.add_assoc, readAt_append_add]

theorem frameAt_nil (offset : ℕ) : frameAt config [] offset = .atEnd := by
  simp [frameAt, readAt]

theorem frameAt_encodeRecordBytes (rest : Bytes) (hsize : (recordPayload record).length < 2 ^ 32) :
    frameAt config (encodeRecordBytes record ++ rest) 0 =
      if config.maxRecordBytes < recordPrefixBytes + record.body.length then .badLength
      else .intact (recordPayload record) := by
  have hheader : readAt (encodeRecordBytes record ++ rest) 0 recordHeaderBytes =
      leBytes 4 (recordPayload record).length ++ leBytes 4 (crc32c (recordPayload record)).toNat := by
    rw [readAt, List.drop_zero, encodeRecordBytes, List.append_assoc, List.take_left']
    simp [recordHeaderBytes]
  have hpayload : readAt (encodeRecordBytes record ++ rest) recordHeaderBytes (recordPayload record).length =
      recordPayload record := by
    have hlen : (leBytes 4 (recordPayload record).length ++
        leBytes 4 (crc32c (recordPayload record)).toNat).length = recordHeaderBytes := by simp [recordHeaderBytes]
    rw [readAt, encodeRecordBytes, List.append_assoc, List.drop_left' hlen, List.take_left]
  have hlength : leValue ((leBytes 4 (recordPayload record).length ++
      leBytes 4 (crc32c (recordPayload record)).toNat).take 4) = (recordPayload record).length :=
    leValue_take_append (lt_of_lt_of_eq hsize (by norm_num)) _
  have hcrc : leValue ((leBytes 4 (recordPayload record).length ++
      leBytes 4 (crc32c (recordPayload record)).toNat).drop 4) = (crc32c (recordPayload record)).toNat := by
    rw [List.drop_left' (leBytes_length 4 _)]
    exact leValue_leBytes_of_lt (by norm_num; exact (crc32c (recordPayload record)).toNat_lt)
  have hnonempty : leBytes 4 (recordPayload record).length ++
      leBytes 4 (crc32c (recordPayload record)).toNat ≠ [] := by
    intro hnil
    have hlen := congrArg List.length hnil
    simp at hlen
  have hlong : ¬ (leBytes 4 (recordPayload record).length ++
      leBytes 4 (crc32c (recordPayload record)).toNat).length < recordHeaderBytes := by
    simp [recordHeaderBytes]
  simp only [frameAt, hheader, if_neg hnonempty, if_neg hlong, hlength, hcrc, Nat.zero_add, hpayload, lt_irrefl,
    if_false, ne_eq, not_true_eq_false]
  rw [recordPayload_length]
  split
  · next h => rw [if_pos (by omega)]
  · next h => rw [if_neg (by omega)]

theorem frameAt_eq_intact_iff {config : JournalConfig} : frameAt config contents offset = .intact payload ↔
      recordPrefixBytes ≤ lengthField contents offset ∧ lengthField contents offset ≤ config.maxRecordBytes ∧
      offset + recordHeaderBytes + lengthField contents offset ≤ contents.length ∧
      (crc32c (readAt contents (offset + recordHeaderBytes) (lengthField contents offset))).toNat =
        checksumField contents offset ∧
      payload = readAt contents (offset + recordHeaderBytes) (lengthField contents offset) := by
  constructor
  · intro h
    rw [frameAt_of_header config (header_of_frameAt (by rw [h]; simp) (by rw [h]; simp))] at h
    split at h
    · cases h
    · next hlength =>
      split at h
      · cases h
      · next hbody =>
        split at h
        · cases h
        · next hcrc => exact ⟨by omega, by omega, by omega, not_not.mp hcrc, (Frame.intact.inj h).symm⟩
  · rintro ⟨hlow, hhigh, hinside, hcrc, rfl⟩
    rw [frameAt_of_header config (by omega), if_neg (by omega), if_neg (by omega), if_neg (not_not.mpr hcrc)]

theorem frameAt_intact {config : JournalConfig} (h : frameAt config contents offset = .intact payload) :
    recordPrefixBytes ≤ payload.length ∧ offset + recordHeaderBytes + payload.length ≤ contents.length := by
  obtain ⟨hlow, -, hinside, -, rfl⟩ := frameAt_eq_intact_iff.mp h
  rw [readAt_length]
  omega

end Lqf
