import LinkQualityFabric.Persist.JournalRoundTrip

/-! What a reader makes of an interrupted append.

A crash leaves the journal cut at some byte. Every cut of a well-formed file is the header, whole records and
a part of one more, which is empty exactly at the end of a record. The reader walks over the whole records and
meets the part as the end of the file, a short header or a short body; none of these is damage, and truncating
the part away leaves a file that is read without complaint. -/
namespace Lqf
open Foundations
set_option autoImplicit false

/-! ## A cut of the records -/

/-- The records that lie wholly within the first `room` bytes. -/
def wholeRecords : ℕ → List JournalRecord → List JournalRecord
  | _, [] => []
  | room, record :: rest =>
    if (encodeRecordBytes record).length ≤ room then
      record :: wholeRecords (room - (encodeRecordBytes record).length) rest
    else []

/-- The cut is behind one of the records, or in front of all of them. -/
def AtBoundary (records : List JournalRecord) (room : ℕ) : Prop :=
  ∃ kept, kept <+: records ∧ room = (encodeRecords kept).length

variable {part : ℕ} (room : ℕ) (records : List JournalRecord)

theorem wholeRecords_begins : wholeRecords room records <+: records := by
  induction records generalizing room with
  | nil => exact List.prefix_rfl
  | cons record rest ih =>
    rw [wholeRecords]
    split
    · exact List.cons_prefix_cons.mpr ⟨rfl, ih _⟩
    · exact List.nil_prefix

theorem take_encodeRecords (hroom : room ≤ (encodeRecords records).length) :
    ((encodeRecords records).take room = encodeRecords (wholeRecords room records) ∧
        room = (encodeRecords (wholeRecords room records)).length) ∨
      ∃ next part, wholeRecords room records ++ [next] <+: records ∧ 0 < part ∧
        part < (encodeRecordBytes next).length ∧ (encodeRecords records).take room =
          encodeRecords (wholeRecords room records) ++ (encodeRecordBytes next).take part ∧
        room = (encodeRecords (wholeRecords room records)).length + part := by
  induction records generalizing room with
  | nil =>
    have hzero : room = 0 := by simpa using hroom
    exact .inl (by simp [hzero, wholeRecords])
  | cons record rest ih =>
    rw [wholeRecords, encodeRecords_cons]
    rw [encodeRecords_cons, List.length_append] at hroom
    split
    · next hfits =>
      have htake : (encodeRecordBytes record ++ encodeRecords rest).take room =
          encodeRecordBytes record ++ (encodeRecords rest).take (room - (encodeRecordBytes record).length) := by
        rw [List.take_append, List.take_of_length_le hfits]
      rw [htake, encodeRecords_cons, List.length_append]
      rcases ih (room - (encodeRecordBytes record).length) (by omega) with
        ⟨hrest, hlength⟩ | ⟨next, part, hbegins, hpos, hpart, hrest, hlength⟩
      · exact .inl ⟨by rw [hrest], by omega⟩
      · refine .inr ⟨next, part, ?_, hpos, hpart, by rw [hrest, List.append_assoc], by omega⟩
        exact List.cons_prefix_cons.mpr ⟨rfl, hbegins⟩
    · next hlong =>
      have htake : (encodeRecordBytes record ++ encodeRecords rest).take room = (encodeRecordBytes record).take room := by
        rw [List.take_append, Nat.sub_eq_zero_of_le (by omega), List.take_zero, List.append_nil]
      rcases Nat.eq_zero_or_pos room with hzero | hpos
      · exact .inl (by simp [hzero])
      · refine .inr ⟨record, room, ?_, hpos, by omega, by rw [htake]; rfl, by simp⟩
        exact List.cons_prefix_cons.mpr ⟨rfl, List.nil_prefix⟩

theorem encodeRecords_length_mono {first second : List JournalRecord} (h : first <+: second) :
    (encodeRecords first).length ≤ (encodeRecords second).length := by
  obtain ⟨more, rfl⟩ := h
  rw [encodeRecords_append, List.length_append]
  omega

theorem not_atBoundary {records kept : List JournalRecord} {next : JournalRecord}
    (hbegins : kept ++ [next] <+: records) (hpos : 0 < part) (hpart : part < (encodeRecordBytes next).length) :
    ¬ AtBoundary records ((encodeRecords kept).length + part) := by
  rintro ⟨other, hother, hlength⟩
  rcases List.prefix_or_prefix_of_prefix hbegins hother with hlonger | hshorter
  · have hle := encodeRecords_length_mono hlonger
    rw [encodeRecords_append, List.length_append, encodeRecords_cons, encodeRecords_nil, List.append_nil] at hle
    omega
  · rcases List.prefix_concat_iff.mp hshorter with rfl | hkept
    · rw [encodeRecords_append, List.length_append, encodeRecords_cons, encodeRecords_nil, List.append_nil] at hlength
      omega
    · have hle := encodeRecords_length_mono hkept
      omega

/-! ## The frame at the cut -/

theorem frameAt_part {config : JournalConfig} {record : JournalRecord} (hfits : JournalReader.Fits config record)
    (hpos : 0 < part) (hpart : part < (encodeRecordBytes record).length) :
    frameAt config ((encodeRecordBytes record).take part) 0 = .shortHeader ∨
      frameAt config ((encodeRecordBytes record).take part) 0 = .shortBody := by
  obtain ⟨hsize, hfield, -⟩ := hfits
  have hlength : ((encodeRecordBytes record).take part).length = part := by
    rw [List.length_take]
    omega
  by_cases hheader : part < recordHeaderBytes
  · left
    have hread : readAt ((encodeRecordBytes record).take part) 0 recordHeaderBytes =
        (encodeRecordBytes record).take part := by
      rw [readAt, List.drop_zero, List.take_of_length_le (by omega)]
    have hsome : (encodeRecordBytes record).take part ≠ [] := by
      intro hnil
      rw [hnil] at hlength
      exact absurd hlength.symm (Nat.ne_of_gt hpos)
    simp only [frameAt, hread, if_neg hsome, hlength, if_pos hheader]
  · right
    have hpayload := recordPayload_length record
    have hfour : readAt ((encodeRecordBytes record).take part) 0 4 = leBytes 4 (recordPayload record).length := by
      rw [readAt, List.drop_zero, List.take_take, Nat.min_eq_left (by simp only [recordHeaderBytes] at hheader; omega),
        encodeRecordBytes, List.append_assoc, List.take_left' (leBytes_length 4 _)]
    have hlengthField : lengthField ((encodeRecordBytes record).take part) 0 = (recordPayload record).length := by
      rw [lengthField, hfour]
      exact leValue_leBytes_of_lt (by norm_num; omega)
    rw [frameAt_of_header config (by omega), hlengthField, if_neg (by omega), if_pos ?_]
    rw [encodeRecordBytes_length] at hpart
    omega

namespace JournalReader

variable (records : List JournalRecord)

theorem readable_of_consecutive {config : JournalConfig} (expected : Option UInt64)
    (hfits : ∀ record ∈ records, Fits config record) (hchain : Consecutive records)
    (horder : ∀ record ∈ records.head?, InOrder expected record.ordinal) : Readable config expected records := by
  induction records generalizing expected with
  | nil => trivial
  | cons record rest ih =>
    obtain ⟨hnext, hrest⟩ := List.isChain_cons.mp hchain
    refine ⟨hfits record List.mem_cons_self, horder record rfl, ?_⟩
    exact ih (some (record.ordinal + 1)) (fun other hother => hfits other (List.mem_cons_of_mem _ hother)) hrest
      (fun second hsecond => inOrder_succ (hnext second hsecond))

/-! ## Opening and reading a cut -/

section Cut
variable {config : JournalConfig} {header : Bytes}

theorem openReader_valid (config : JournalConfig) (temporary : Option Bytes) (rest : Bytes)
    (hlength : header.length = fileHeaderBytes) (hvalid : validateFileHeader header = .ok ()) :
    (openReader {} config ⟨some (header ++ rest), temporary⟩).1 =
      .inr (freshReader config temporary (header ++ rest)) := by
  have hsome := header_append_ne_nil hlength rest
  have hread : readAt (header ++ rest) 0 fileHeaderBytes = header := by
    rw [readAt, List.drop_zero, List.take_left' hlength]
  simp only [openReader, Option.getD_some, hsome, if_false, Bool.true_eq_false, and_false, openExisting, hread, hlength,
    lt_irrefl, hvalid]
  rfl

variable {whole : List JournalRecord} {rest : Bytes} {reader : JournalReader} (temporary : Option Bytes)

/-- The reading of `contents` has returned `records`, without damage or a limit, and says whether a part of one more
record follows. -/
structure Reads (contents : Bytes) (records : List JournalRecord) (torn : Bool)
    (outcome : List JournalRecord × JournalReader) : Prop where
  contents_eq : outcome.2.contents = contents
  records_eq : outcome.1 = records
  tornTail : outcome.2.report.tornTail = torn
  degraded : outcome.2.report.degraded = false
  limitReached : outcome.2.report.limitReached = false
  lastGoodOffset : outcome.2.lastGoodOffset = fileHeaderBytes + (encodeRecords records).length
  expectedOrdinal : outcome.2.expectedOrdinal = records.getLast?.map (fun last => last.ordinal + 1)

theorem reads_fresh {torn : Bool} (hlength : header.length = fileHeaderBytes) (hreadable : Readable config none whole)
    (hrecords : whole.length < config.maxRecoveryRecords)
    (hbytes : (encodeRecords whole).length < config.maxRecoveryBytes)
    (hrest : frameAt config rest 0 = .atEnd ∧ torn = false ∨
      (frameAt config rest 0 = .shortHeader ∨ frameAt config rest 0 = .shortBody) ∧ torn = true) :
    Reads (header ++ (encodeRecords whole ++ rest)) whole torn
      (freshReader config temporary (header ++ (encodeRecords whole ++ rest))).readAll := by
  have hlong := encodeRecords_length_le whole
  obtain ⟨hreturned, -, htorn, hdegraded, hlimited, hoffset⟩ := drain_ends whole
    ((header ++ (encodeRecords whole ++ rest)).length + 1) (freshReader config temporary _) header rfl rfl rfl rfl
    hlength.symm hrest hreadable (by simp only [List.length_append]; omega)
    (.inr ⟨by simpa [freshReader] using hrecords, by simpa [freshReader] using hbytes⟩)
  have hscanned := drain_scanned ((header ++ (encodeRecords whole ++ rest)).length + 1)
    (freshReader config temporary (header ++ (encodeRecords whole ++ rest)))
  refine ⟨hscanned.contents_eq, hreturned, htorn, hdegraded, hlimited, hoffset, hscanned.expected.trans ?_⟩
  rw [hreturned]
  cases whole.getLast? <;> rfl

theorem readAll_whole (hlength : header.length = fileHeaderBytes) (hreadable : Readable config none whole)
    (hrecords : whole.length < config.maxRecoveryRecords)
    (hbytes : (encodeRecords whole).length < config.maxRecoveryBytes) :
    Reads (header ++ encodeRecords whole) whole false
      (freshReader config temporary (header ++ encodeRecords whole)).readAll := by
  have hreads := reads_fresh temporary hlength hreadable hrecords hbytes (.inl ⟨frameAt_nil config 0, rfl⟩)
  rwa [List.append_nil] at hreads

theorem repair_torn (hlength : header.length = fileHeaderBytes)
    (h : Reads (header ++ (encodeRecords whole ++ rest)) whole true reader.readAll) :
    ∃ after, reader.readAll.2.repairTornTail {} = (.ok (), after) ∧
      after.contents = header ++ encodeRecords whole ∧ after.expectedOrdinal = reader.readAll.2.expectedOrdinal := by
  have hrepair : reader.readAll.2.repairTornTail {} = truncateTail {} reader.readAll.2 := by
    simp [repairTornTail, h.tornTail]
  rw [hrepair, truncateTail]
  simp only [syncFile_granted]
  refine ⟨_, rfl, ?_, rfl⟩
  show reader.readAll.2.contents.take reader.readAll.2.lastGoodOffset = _
  rw [h.contents_eq, h.lastGoodOffset, ← List.append_assoc, List.take_left' (by rw [List.length_append, hlength])]

end Cut

/-- What a reader makes of a file that was cut `room` bytes behind its header. -/
structure Recovers (config : JournalConfig) (header : Bytes) (records : List JournalRecord) (room : ℕ)
    (reader : JournalReader) : Prop where
  returned : reader.readAll.1 = wholeRecords room records
  undamaged : reader.readAll.2.report.degraded = false
  torn_iff : reader.readAll.2.report.tornTail = true ↔ ¬ AtBoundary records room
  nextOrdinal : ∀ last ∈ (wholeRecords room records).getLast?,
    reader.readAll.2.expectedOrdinal = some (last.ordinal + 1)
  /-- The repair of a torn file, and the reading of what it leaves. -/
  repaired : reader.readAll.2.report.tornTail = true → ∃ after,
    reader.readAll.2.repairTornTail {} = (.ok (), after) ∧
      after.contents = header ++ encodeRecords (wholeRecords room records) ∧
      after.expectedOrdinal = reader.readAll.2.expectedOrdinal ∧
      ∃ again, (openReader {} config ⟨some after.contents, none⟩).1 = .inr again ∧
        Reads after.contents (wholeRecords room records) false again.readAll

/-- A journal of consecutive records that is cut anywhere behind its header is recovered up to the cut. -/
theorem crash_prefix_recovered (config : JournalConfig) (hfield : config.maxRecordBytes < 2 ^ 32) (header : Bytes)
    (hlength : header.length = fileHeaderBytes) (hheader : validateFileHeader header = .ok ())
    (records : List JournalRecord)
    (hkinds : ∀ record ∈ records, record.kind ≠ .count ∧ (recordPayload record).length ≤ config.maxRecordBytes)
    (hconsecutive : Consecutive records) (cut : ℕ) (hcut : fileHeaderBytes ≤ cut)
    (hinside : cut ≤ (header ++ encodeRecords records).length)
    (hrecords : (wholeRecords (cut - fileHeaderBytes) records).length < config.maxRecoveryRecords)
    (hbytes : (encodeRecords (wholeRecords (cut - fileHeaderBytes) records)).length < config.maxRecoveryBytes)
    (temporary : Option Bytes) :
    ∃ reader, (openReader {} config ⟨some ((header ++ encodeRecords records).take cut), temporary⟩).1 = .inr reader ∧
      Recovers config header records (cut - fileHeaderBytes) reader := by
  have hbegins := wholeRecords_begins (cut - fileHeaderBytes) records
  have hfits : ∀ record ∈ records, Fits config record := by
    intro record hrecord
    obtain ⟨hkind, hsize⟩ := hkinds record hrecord
    rw [recordPayload_length] at hsize
    exact ⟨hsize, by omega, hkind⟩
  have hchain : Consecutive (wholeRecords (cut - fileHeaderBytes) records) := by
    obtain ⟨rest, hrest⟩ := hbegins
    rw [← hrest] at hconsecutive
    exact List.IsChain.left_of_append hconsecutive
  have hreadable : Readable config none (wholeRecords (cut - fileHeaderBytes) records) :=
    readable_of_consecutive _ none (fun record hrecord => hfits record (hbegins.subset hrecord))
      hchain (fun _ _ _ hnone => nomatch hnone)
  have htake : (header ++ encodeRecords records).take cut =
      header ++ (encodeRecords records).take (cut - fileHeaderBytes) := by
    rw [List.take_append, List.take_of_length_le (by omega), hlength]
  rw [List.length_append, hlength] at hinside
  rw [htake]
  refine ⟨_, openReader_valid config temporary _ hlength hheader, ?_⟩
  obtain ⟨rest, torn, hwhole, hrest, htorn⟩ : ∃ rest torn,
      (encodeRecords records).take (cut - fileHeaderBytes) =
        encodeRecords (wholeRecords (cut - fileHeaderBytes) records) ++ rest ∧
      (frameAt config rest 0 = .atEnd ∧ torn = false ∨
        (frameAt config rest 0 = .shortHeader ∨ frameAt config rest 0 = .shortBody) ∧ torn = true) ∧
      (torn = true ↔ ¬ AtBoundary records (cut - fileHeaderBytes)) := by
    rcases take_encodeRecords (cut - fileHeaderBytes) records (by omega) with
      ⟨hwhole, hroom⟩ | ⟨next, part, hnext, hpos, hpart, hwhole, hroom⟩
    · exact ⟨[], false, by rw [hwhole, List.append_nil], .inl ⟨frameAt_nil config 0, rfl⟩,
        iff_of_false Bool.false_ne_true (not_not.mpr ⟨_, hbegins, hroom⟩)⟩
    · have hfit := hfits next (hnext.subset (List.mem_append_right _ List.mem_cons_self))
      refine ⟨_, true, hwhole, .inr ⟨frameAt_part hfit hpos hpart, rfl⟩, iff_of_true rfl ?_⟩
      rw [hroom]
      exact not_atBoundary hnext hpos hpart
  have hreads := reads_fresh temporary hlength hreadable hrecords hbytes hrest
  rw [hwhole]
  refine ⟨hreads.records_eq, hreads.degraded, by rw [hreads.tornTail]; exact htorn, ?_, ?_⟩
  · intro last hlast
    rw [hreads.expectedOrdinal, Option.mem_def.mp hlast]
    rfl
  · intro htail
    obtain rfl := hreads.tornTail.symm.trans htail
    obtain ⟨after, hrepair, hcontents, hexpected⟩ := repair_torn hlength hreads
    have hagain := openReader_valid config none
      (encodeRecords (wholeRecords (cut - fileHeaderBytes) records)) hlength hheader
    have hclean := readAll_whole none hlength hreadable hrecords hbytes
    rw [← hcontents] at hagain hclean
    exact ⟨after, hrepair, hcontents, hexpected, _, hagain, hclean⟩

/-- Two records, cut within the second. -/
theorem cut_second_record :
    ∃ reader, (openReader {} .defaults ⟨some ((buildFileHeader 1 0 ++
        encodeRecords [⟨.evidence, 7, [1, 2, 3]⟩, ⟨.policy, 8, [4]⟩]).take 65), none⟩).1 = .inr reader ∧
      Recovers .defaults (buildFileHeader 1 0) [⟨.evidence, 7, [1, 2, 3]⟩, ⟨.policy, 8, [4]⟩] 25 reader :=
  crash_prefix_recovered .defaults (by decide) (buildFileHeader 1 0) (buildFileHeader_length 1 0)
    (validateFileHeader_build 1 0) _ (by decide) (by unfold Consecutive; decide) 65 (by decide)
    (by decide +kernel) (by decide +kernel) (by decide +kernel) none

end JournalReader

end Lqf
