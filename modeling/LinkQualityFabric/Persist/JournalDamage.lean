import LinkQualityFabric.Persist.JournalReader

/-! Damage inside a journal file.

A file that was cut off in the middle of an append may lose its torn end; a file damaged in the middle
must keep what stands behind the damage. The reader only sees one frame at a time, so which of the two
it reports depends on where the walk over intact records ends. -/
namespace Lqf.JournalReader
open Foundations
set_option autoImplicit false

/-! ## Walking the file -/

/-- The offsets a reader reaches from one offset over intact records in order. -/
inductive Reaches (config : JournalConfig) (contents : Bytes) : ℕ → Option UInt64 → ℕ → Prop where
  | here (offset : ℕ) (expected : Option UInt64) : Reaches config contents offset expected offset
  | past (offset : ℕ) (expected : Option UInt64) (payload : Bytes) (stop : ℕ)
      (hframe : frameAt config contents offset = .intact payload) (hknown : Recognised expected payload)
      (hrest : Reaches config contents (offset + (recordHeaderBytes + payload.length))
        (some (payloadOrdinal payload + 1)) stop) : Reaches config contents offset expected stop

/-- No frame the walk from `offset` comes to looks like an interrupted append. -/
def Untorn (config : JournalConfig) (contents : Bytes) (offset : ℕ) (expected : Option UInt64) : Prop :=
  ∀ stop, Reaches config contents offset expected stop → ¬ TornAt config contents stop

section Walk
variable {config : JournalConfig} {contents : Bytes} {offset : ℕ} {expected : Option UInt64}

theorem untorn_past {payload : Bytes} (hframe : frameAt config contents offset = .intact payload)
    (hknown : Recognised expected payload) : Untorn config contents offset expected ↔
      Untorn config contents (offset + (recordHeaderBytes + payload.length)) (some (payloadOrdinal payload + 1)) := by
  constructor
  · intro h stop hreach
    exact h stop (.past offset expected payload stop hframe hknown hreach)
  · intro h stop hreach
    cases hreach with
    | here => simp [TornAt, hframe]
    | past _ _ payload' _ hframe' _ hrest =>
      obtain rfl : payload = payload' := Frame.intact.inj (hframe.symm.trans hframe')
      exact h stop hrest

theorem untorn_here (hframe : ∀ payload, frameAt config contents offset = .intact payload →
      ¬ Recognised expected payload) : Untorn config contents offset expected ↔ ¬ TornAt config contents offset := by
  constructor
  · intro h
    exact h offset (.here offset expected)
  · intro h stop hreach
    cases hreach with
    | here => exact h
    | past _ _ payload _ hframe' hknown _ => exact absurd hknown (hframe payload hframe')

end Walk

theorem drain_untorn_iff (fuel : ℕ) (reader : JournalReader) (hgoing : reader.reachedEnd = false)
    (hclean : reader.report.tornTail = false) (hfuel : reader.contents.length < reader.lastGoodOffset + fuel)
    (hlimit : (drain fuel reader).2.report.limitReached = false) : (drain fuel reader).2.contents = reader.contents ∧
      ((drain fuel reader).2.report.tornTail = false ↔
        Untorn reader.config reader.contents reader.lastGoodOffset reader.expectedOrdinal) := by
  induction fuel generalizing reader with
  | zero =>
    have hend : frameAt reader.config reader.contents reader.lastGoodOffset = .atEnd := by
      have hnil : readAt reader.contents reader.lastGoodOffset recordHeaderBytes = [] := by
        rw [readAt, List.drop_eq_nil_of_le (by omega), List.take_nil]
      simp only [frameAt, hnil, if_true]
    refine ⟨rfl, ?_⟩
    rw [untorn_here (by intro payload hpayload; rw [hend] at hpayload; cases hpayload), TornAt, hend]
    simpa [drain] using hclean
  | succ fuel ih =>
    rcases next_cases hgoing with
      ⟨hat, -⟩ | ⟨payload, kind, hframe, hkind, horder, hnext⟩ | ⟨hframe, after, hnext, hstops⟩
    · exact absurd hat (not_atLimit hgoing hlimit)
    · rw [drain, hnext] at hlimit ⊢
      rw [untorn_past hframe ⟨by rw [hkind]; rfl, horder⟩]
      refine ih (reader.advance kind payload) hgoing hclean ?_ hlimit
      simp only [advance, recordHeaderBytes]
      omega
    · rw [drain, hnext, untorn_here hframe]
      refine ⟨hstops.contents_eq, ?_⟩
      rw [← Bool.not_eq_true, hstops.torn_iff, hclean]
      simp

theorem readAll_untorn_iff (reader : JournalReader) (hgoing : reader.reachedEnd = false)
    (hclean : reader.report.tornTail = false) (hlimit : reader.readAll.2.report.limitReached = false) :
    reader.readAll.2.contents = reader.contents ∧ (reader.readAll.2.report.tornTail = false ↔
        Untorn reader.config reader.contents reader.lastGoodOffset reader.expectedOrdinal) :=
  drain_untorn_iff (reader.contents.length + 1) reader hgoing hclean (by omega) hlimit

/-! ## A damaged record between intact ones -/

/-- The record is one a reader returns when it is in order; its length fits the field for it. -/
def Fits (config : JournalConfig) (record : JournalRecord) : Prop :=
  recordPrefixBytes + record.body.length ≤ config.maxRecordBytes ∧ recordPrefixBytes + record.body.length < 2 ^ 32 ∧
    record.kind ≠ .count

instance (config : JournalConfig) (record : JournalRecord) : Decidable (Fits config record) :=
  inferInstanceAs (Decidable (_ ∧ _ ∧ _))

def Consecutive (records : List JournalRecord) : Prop :=
  records.IsChain (fun first second => second.ordinal.toNat = first.ordinal.toNat + 1)

variable {config : JournalConfig} {record : JournalRecord} {offset : ℕ} {contents : Bytes}

theorem recognised_recordPayload {expected : Option UInt64} (hfits : Fits config record)
    (horder : InOrder expected record.ordinal) : Recognised expected (recordPayload record) := by
  refine ⟨?_, ?_⟩
  · rw [payloadKind_recordPayload, if_neg hfits.2.2]
    rfl
  · rw [payloadOrdinal_recordPayload]
    exact horder

theorem frameAt_record (hfits : Fits config record) (before after : Bytes) :
    frameAt config (before ++ (encodeRecordBytes record ++ after)) before.length = .intact (recordPayload record) := by
  obtain ⟨hsize, hfield, -⟩ := hfits
  have hframe := frameAt_append config before (encodeRecordBytes record ++ after) 0
  rw [Nat.add_zero] at hframe
  rw [hframe, frameAt_encodeRecordBytes config record after (by rw [recordPayload_length]; exact hfield),
    if_neg (by omega)]

theorem inOrder_succ {first second : UInt64} (h : second.toNat = first.toNat + 1) :
    InOrder (some (first + 1)) second := by
  have hsum : first + 1 = second := by
    apply UInt64.toNat_inj.mp
    have hlt := second.toNat_lt
    rw [UInt64.toNat_add]
    have hone : (1 : UInt64).toNat = 1 := rfl
    omega
  intro next hnext
  obtain rfl : first + 1 = next := Option.some.inj hnext
  refine ⟨?_, hsum.symm⟩
  rw [hsum]
  intro hzero
  rw [hzero] at h
  have : (0 : UInt64).toNat = 0 := rfl
  omega

theorem untorn_records (damaged : JournalRecord) (records : List JournalRecord) (before after : Bytes)
    (expected : Option UInt64) (hfits : ∀ record ∈ records, Fits config record)
    (hchain : Consecutive (records ++ [damaged]))
    (horder : ∀ record ∈ (records ++ [damaged]).head?, InOrder expected record.ordinal) :
    Untorn config (before ++ (encodeRecords records ++ after)) before.length expected ↔
      Untorn config (before ++ (encodeRecords records ++ after)) (before.length + (encodeRecords records).length)
        (if records = [] then expected else some damaged.ordinal) := by
  induction records generalizing before expected with
  | nil => simp
  | cons record rest ih =>
    have hrecord := hfits record List.mem_cons_self
    have hknown := recognised_recordPayload hrecord (horder record rfl)
    have hframe := frameAt_record hrecord before (encodeRecords rest ++ after)
    have hnext : ∀ second ∈ (rest ++ [damaged]).head?, InOrder (some (record.ordinal + 1)) second.ordinal := by
      intro second hsecond
      exact inOrder_succ ((List.isChain_cons.mp hchain).1 second hsecond)
    have hrest := ih (before ++ encodeRecordBytes record) (some (record.ordinal + 1))
      (fun other hother => hfits other (List.mem_cons_of_mem _ hother)) (List.isChain_cons.mp hchain).2 hnext
    have hlast : (if rest = [] then some (record.ordinal + 1) else some damaged.ordinal) = some damaged.ordinal := by
      split
      · next hnil =>
        subst hnil
        exact congrArg some (hnext damaged rfl _ rfl).2.symm
      · rfl
    simp only [encodeRecords_cons, List.append_assoc, reduceCtorEq, if_false] at hrest ⊢
    rw [untorn_past hframe hknown, payloadOrdinal_recordPayload, hlast] at *
    simp only [List.length_append, encodeRecordBytes_length, recordPayload_length, Nat.add_assoc] at hrest ⊢
    exact hrest

theorem untorn_tail (records : List JournalRecord) (before : Bytes) (expected : Option UInt64)
    (hfits : ∀ record ∈ records, Fits config record) :
    Untorn config (before ++ encodeRecords records) before.length expected := by
  induction records generalizing before expected with
  | nil =>
    have hframe : frameAt config (before ++ encodeRecords []) before.length = .atEnd := by
      rw [encodeRecords_nil, ← Nat.add_zero before.length, frameAt_append, frameAt_nil]
    rw [untorn_here (by intro payload hpayload; rw [hframe] at hpayload; cases hpayload), TornAt, hframe]
    exact not_false
  | cons record rest ih =>
    have hframe := frameAt_record (hfits record List.mem_cons_self) before (encodeRecords rest)
    rw [encodeRecords_cons]
    by_cases hknown : Recognised expected (recordPayload record)
    · have hrest := ih (before ++ encodeRecordBytes record) (some (payloadOrdinal (recordPayload record) + 1))
        (fun other hother => hfits other (List.mem_cons_of_mem _ hother))
      rw [untorn_past hframe hknown]
      simpa using hrest
    · rw [untorn_here (by
        intro payload hpayload
        obtain rfl : recordPayload record = payload := Frame.intact.inj (hframe.symm.trans hpayload)
        exact hknown), TornAt, hframe]
      exact not_false

/-! ## The scan for an intact record -/

theorem scanBuffer_eq (contents : Bytes) (limit fuel position total : ℕ) (hfuel : contents.length < position + fuel) :
    ∃ count, scanBuffer contents limit fuel position total = readAt contents position count ∧
      (limit ≤ total + count ∨ contents.length ≤ position + count) := by
  induction fuel generalizing position total with
  | zero => exact ⟨0, by simp [scanBuffer, readAt], .inr (by omega)⟩
  | succ fuel ih =>
    rw [scanBuffer]
    have hlen := readAt_length contents position scanChunkBytes
    split
    · next h =>
      have hpos : 0 < (readAt contents position scanChunkBytes).length := List.length_pos_iff.mpr h.2
      obtain ⟨count, heq, hcover⟩ := ih (position + (readAt contents position scanChunkBytes).length)
        (total + (readAt contents position scanChunkBytes).length) (by omega)
      refine ⟨(readAt contents position scanChunkBytes).length + count, ?_, by omega⟩
      rw [heq, readAt_add, readAt_self]
    · next h =>
      refine ⟨0, by simp [readAt], ?_⟩
      by_cases hlimit : total < limit
      · have hnil : readAt contents position scanChunkBytes = [] := by
          by_contra hne
          exact h ⟨hlimit, hne⟩
        rw [hnil, List.length_nil] at hlen
        simp only [scanChunkBytes] at hlen
        omega
      · omega

theorem intactAt_of_frame {buffer payload : Bytes} (h : frameAt config buffer offset = .intact payload) :
    intactAt config buffer offset = true := by
  obtain ⟨hlow, hhigh, hinside, hcrc, -⟩ := frameAt_eq_intact_iff.mp h
  exact decide_eq_true ⟨hlow, hhigh, hinside, hcrc⟩

theorem intactRecordFollows_record (hfits : Fits config record) (before after : Bytes) (fromOffset : ℕ)
    (hfrom : fromOffset ≤ before.length)
    (hwindow : before.length + (encodeRecordBytes record).length ≤ fromOffset + config.maxRecoveryBytes) :
    intactRecordFollows config (before ++ (encodeRecordBytes record ++ after)) fromOffset = true := by
  obtain ⟨count, hbuffer, hcover⟩ := scanBuffer_eq (before ++ (encodeRecordBytes record ++ after))
    config.maxRecoveryBytes ((before ++ (encodeRecordBytes record ++ after)).length + 1) fromOffset 0 (by omega)
  have hcount : (before.drop fromOffset).length + (encodeRecordBytes record).length ≤ count := by
    simp only [List.length_append, List.length_drop] at hcover ⊢
    omega
  have hsplit : readAt (before ++ (encodeRecordBytes record ++ after)) fromOffset count =
      before.drop fromOffset ++ (encodeRecordBytes record ++ after.take
        (count - (before.drop fromOffset).length - (encodeRecordBytes record).length)) := by
    rw [readAt, List.drop_append_of_le_length hfrom, List.take_append, List.take_append,
      List.take_of_length_le (by omega), List.take_of_length_le (by omega)]
  have hframe := frameAt_record hfits (before.drop fromOffset) (after.take
    (count - (before.drop fromOffset).length - (encodeRecordBytes record).length))
  simp only [intactRecordFollows, hbuffer, hsplit, List.any_eq_true, List.mem_range]
  refine ⟨(before.drop fromOffset).length, ?_, intactAt_of_frame hframe⟩
  simp only [List.length_append, encodeRecordBytes_length]
  omega

def freshReader (config : JournalConfig) (temporary : Option Bytes) (contents : Bytes) : JournalReader where
  config := config
  contents := contents
  report := { tempDiscarded := temporary.isSome, opened := true, headerValid := true }
  lastGoodOffset := fileHeaderBytes
  expectedOrdinal := none
  reachedEnd := false

theorem openReader_existing {io : OpenIo} {disk after : Disk} {reader : JournalReader}
    (hopen : openReader io config disk = (.inr reader, after)) (hdisk : disk.journal = some contents)
    (hsome : contents ≠ []) : reader = freshReader config disk.temporary contents := by
  simp only [openReader, hdisk, Option.getD_some, hsome, if_false] at hopen
  split at hopen
  · cases hopen
  · split at hopen
    · cases hopen
    · have hresult := (Prod.mk.inj hopen).1
      simp only [openExisting] at hresult
      split at hresult
      · cases hresult
      · split at hresult
        · cases hresult
        · exact (Sum.inr.inj hresult).symm

theorem header_append_ne_nil {header : Bytes} (hheader : header.length = fileHeaderBytes) (rest : Bytes) :
    header ++ rest ≠ [] := by
  intro hnil
  have hlen := congrArg List.length hnil
  simp [hheader, fileHeaderBytes] at hlen

/-! ## When damage is kept out of a repair -/

/-- The record at `offset`, which had a payload of `originalLength`, does not look like an interrupted
append to a reader that comes to it. -/
structure Contained (config : JournalConfig) (contents : Bytes) (offset : ℕ) (expected : Option UInt64)
    (originalLength : ℕ) : Prop where
  length_permitted : recordPrefixBytes ≤ lengthField contents offset ∧
    lengthField contents offset ≤ config.maxRecordBytes
  body_inside : offset + recordHeaderBytes + lengthField contents offset ≤ contents.length
  scan_finds : (crc32c (readAt contents (offset + recordHeaderBytes) (lengthField contents offset))).toNat ≠
      checksumField contents offset → intactRecordFollows config contents (offset + recordHeaderBytes) = true
  /-- A checksum that is right for another length sends the reader to an offset between records. -/
  walk_untorn : lengthField contents offset ≠ originalLength →
    ∀ payload, frameAt config contents offset = .intact payload → Recognised expected payload →
      Untorn config contents (offset + (recordHeaderBytes + payload.length)) (some (payloadOrdinal payload + 1))

theorem not_tornAt_iff (hheader : offset + recordHeaderBytes ≤ contents.length) : ¬ TornAt config contents offset ↔
      (recordPrefixBytes ≤ lengthField contents offset ∧ lengthField contents offset ≤ config.maxRecordBytes) ∧
      offset + recordHeaderBytes + lengthField contents offset ≤ contents.length ∧
      ((crc32c (readAt contents (offset + recordHeaderBytes) (lengthField contents offset))).toNat ≠
        checksumField contents offset → intactRecordFollows config contents (offset + recordHeaderBytes) = true) := by
  rw [TornAt, frameAt_of_header config hheader]
  by_cases hlength : lengthField contents offset < recordPrefixBytes ∨
      config.maxRecordBytes < lengthField contents offset
  · rw [if_pos hlength]
    simp only [not_true_eq_false, false_iff, not_and]
    omega
  · rw [if_neg hlength]
    by_cases hbody : contents.length < offset + recordHeaderBytes + lengthField contents offset
    · rw [if_pos hbody]
      simp only [not_true_eq_false, false_iff, not_and]
      omega
    · rw [if_neg hbody]
      have hpermitted : recordPrefixBytes ≤ lengthField contents offset ∧
          lengthField contents offset ≤ config.maxRecordBytes := by omega
      by_cases hcrc : (crc32c (readAt contents (offset + recordHeaderBytes) (lengthField contents offset))).toNat ≠
          checksumField contents offset
      · simp [hcrc, hpermitted, Nat.le_of_not_lt hbody]
      · simp [hcrc, hpermitted, Nat.le_of_not_lt hbody]

theorem untorn_iff_contained {expected : Option UInt64} (originalLength : ℕ)
    (hheader : offset + recordHeaderBytes ≤ contents.length)
    (hbehind : ∀ ordinal, Untorn config contents (offset + (recordHeaderBytes + originalLength)) (some ordinal)) :
    Untorn config contents offset expected ↔ Contained config contents offset expected originalLength := by
  constructor
  · intro h
    obtain ⟨hlength, hbody, hscan⟩ := (not_tornAt_iff hheader).mp (h offset (.here offset expected))
    exact ⟨hlength, hbody, hscan, fun _ payload hpayload hknown => (untorn_past hpayload hknown).mp h⟩
  · rintro ⟨hlength, hbody, hscan, hwalk⟩
    by_cases hknown : ∃ payload, frameAt config contents offset = .intact payload ∧ Recognised expected payload
    · obtain ⟨payload, hframe, hrec⟩ := hknown
      rw [untorn_past hframe hrec]
      by_cases hsame : lengthField contents offset = originalLength
      · obtain ⟨-, -, -, -, rfl⟩ := frameAt_eq_intact_iff.mp hframe
        have hlen : (readAt contents (offset + recordHeaderBytes) (lengthField contents offset)).length =
            originalLength := by
          rw [readAt_length]
          omega
        rw [hlen]
        exact hbehind _
      · exact hwalk hsame payload hframe hrec
    · rw [untorn_here (fun payload hframe hrec => hknown ⟨payload, hframe, hrec⟩), not_tornAt_iff hheader]
      exact ⟨hlength, hbody, hscan⟩

/-- Damage to one record is never repaired away, and nothing behind it is lost, exactly when the damaged
record keeps a length the reader permits, its payload ends inside the file, a wrong checksum has an intact
record within the scan behind it, and a right checksum for another length leads to no torn frame. -/
theorem damage_kept_iff (config : JournalConfig) (io : OpenIo)
    (disk opened : Disk) (reader : JournalReader) (header bytes : Bytes) (before after : List JournalRecord)
    (damaged : JournalRecord) (hheader : header.length = fileHeaderBytes)
    (hfits : ∀ record ∈ before ++ damaged :: after, Fits config record)
    (hchain : Consecutive (before ++ damaged :: after))
    (hbytes : bytes.length = (encodeRecordBytes damaged).length)
    (hdisk : disk.journal = some (header ++ (encodeRecords before ++ (bytes ++ encodeRecords after))))
    (hopen : openReader io config disk = (.inr reader, opened))
    (hlimit : reader.readAll.2.report.limitReached = false) :
    (reader.readAll.2.report.tornTail = false ∧
      (∀ repair, repairTornTail repair reader.readAll.2 =
        (fail .refused (text "the journal tail is intact; no repair is performed"), reader.readAll.2)) ∧
      reader.readAll.2.contents = header ++ (encodeRecords before ++ (bytes ++ encodeRecords after))) ↔
      Contained config (header ++ (encodeRecords before ++ (bytes ++ encodeRecords after)))
        (fileHeaderBytes + (encodeRecords before).length)
        (if before = [] then none else some damaged.ordinal) (recordPayload damaged).length := by
  obtain rfl := openReader_existing hopen hdisk (header_append_ne_nil hheader _)
  obtain ⟨hkept, huntorn⟩ : _ ∧ (_ ↔ Untorn config (header ++ (encodeRecords before ++ (bytes ++ encodeRecords after)))
      fileHeaderBytes none) := readAll_untorn_iff _ rfl rfl hlimit
  have hprefix : Consecutive (before ++ [damaged]) := by
    have hsplit : before ++ damaged :: after = (before ++ [damaged]) ++ after := by simp
    rw [hsplit] at hchain
    exact hchain.left_of_append
  have hwalk := untorn_records damaged before header (bytes ++ encodeRecords after) none
    (fun record hrecord => hfits record (List.mem_append_left _ hrecord)) hprefix
    (fun record _ next hnext => by cases hnext)
  rw [← hheader, hwalk] at huntorn
  have htail : ∀ ordinal, Untorn config (header ++ (encodeRecords before ++ bytes) ++ encodeRecords after)
      (header ++ (encodeRecords before ++ bytes)).length (some ordinal) := fun ordinal =>
    untorn_tail after _ (some ordinal)
      (fun record hrecord => hfits record (List.mem_append_right _ (List.mem_cons_of_mem _ hrecord)))
  have hcontained : Untorn config (header ++ (encodeRecords before ++ (bytes ++ encodeRecords after)))
      (header.length + (encodeRecords before).length) (if before = [] then none else some damaged.ordinal) ↔ _ :=
    untorn_iff_contained (recordPayload damaged).length (by
      simp only [List.length_append, hbytes, encodeRecordBytes_length]
      omega) (by
      intro ordinal
      simpa [hbytes, List.append_assoc, Nat.add_assoc] using htail ordinal)
  rw [← hheader, ← hcontained, ← huntorn]
  constructor
  · exact fun h => h.1
  · intro h
    exact ⟨h, fun repair => by rw [repairTornTail, if_pos h], hkept⟩

theorem contained_of_length_kept (config : JournalConfig) (before bytes rest : Bytes)
    (damaged following : JournalRecord) (expected : Option UInt64)
    (hdamaged : Fits config damaged) (hfollowing : Fits config following)
    (hbytes : bytes.length = (encodeRecordBytes damaged).length)
    (hkept : bytes.take 4 = (encodeRecordBytes damaged).take 4)
    (hwindow : (recordPayload damaged).length + (encodeRecordBytes following).length ≤ config.maxRecoveryBytes) :
    Contained config (before ++ (bytes ++ (encodeRecordBytes following ++ rest))) before.length expected
      (recordPayload damaged).length := by
  have hlength : lengthField (before ++ (bytes ++ (encodeRecordBytes following ++ rest))) before.length =
      (recordPayload damaged).length := by
    have hlong : 4 ≤ bytes.length := by
      rw [hbytes, encodeRecordBytes_length, recordHeaderBytes]
      omega
    rw [lengthField, readAt_append, List.take_append_of_le_length hlong, hkept, encodeRecordBytes, List.append_assoc]
    exact leValue_take_append (lt_of_lt_of_eq (by rw [recordPayload_length]; exact hdamaged.2.1) (by norm_num)) _
  have hscan := intactRecordFollows_record hfollowing (before ++ bytes) rest
    (before.length + recordHeaderBytes)
  refine ⟨?_, ?_, fun _ => ?_, fun hne => absurd hlength hne⟩
  · rw [hlength, recordPayload_length]
    exact ⟨Nat.le_add_right _ _, hdamaged.1⟩
  · rw [hlength]
    simp only [List.length_append, hbytes, encodeRecordBytes_length, recordPayload_length]
    omega
  · simp only [List.append_assoc] at hscan
    apply hscan
    · simp only [List.length_append, hbytes, encodeRecordBytes_length]
      omega
    · simp only [List.length_append, hbytes, encodeRecordBytes_length, recordPayload_length] at hwindow ⊢
      omega

def changedBodyBytes : Bytes :=
  leBytes 4 10 ++ leBytes 4 (crc32c (recordPayload ⟨.policy, 1, [7]⟩)).toNat ++ recordPayload ⟨.policy, 1, [9]⟩

def changedBodyFile : Bytes :=
  buildFileHeader 0 0 ++ (encodeRecords [] ++ (changedBodyBytes ++ encodeRecords [⟨.policy, 2, [8]⟩]))

def changedBodyReader : JournalReader :=
  { config := .defaults, contents := changedBodyFile, report := { opened := true, headerValid := true },
    lastGoodOffset := fileHeaderBytes, expectedOrdinal := none, reachedEnd := false }

theorem changedBodyFile_contained : Contained .defaults changedBodyFile (fileHeaderBytes + (encodeRecords []).length)
    none (recordPayload ⟨.policy, 1, [7]⟩).length := by
  have hcontained := contained_of_length_kept .defaults (buildFileHeader 0 0) changedBodyBytes [] ⟨.policy, 1, [7]⟩
    ⟨.policy, 2, [8]⟩ none (by decide) (by decide) (by decide +kernel) (by decide +kernel) (by decide +kernel)
  rw [buildFileHeader_length] at hcontained
  simpa only [changedBodyFile, encodeRecords_nil, encodeRecords_cons, List.nil_append, List.length_nil,
    Nat.add_zero] using hcontained

theorem damaged_body_kept :
    changedBodyReader.readAll.2.report.tornTail = false ∧
      (∀ repair, repairTornTail repair changedBodyReader.readAll.2 =
        (fail .refused (text "the journal tail is intact; no repair is performed"), changedBodyReader.readAll.2)) ∧
      changedBodyReader.readAll.2.contents = changedBodyFile :=
  (damage_kept_iff .defaults {} ⟨some changedBodyFile, none⟩ ⟨some changedBodyFile, none⟩ changedBodyReader
    (buildFileHeader 0 0) changedBodyBytes [] [⟨.policy, 2, [8]⟩] ⟨.policy, 1, [7]⟩ (buildFileHeader_length 0 0)
    (by decide) (by simp [Consecutive]) (by decide +kernel) rfl (by decide +kernel) (by decide +kernel)).mpr
    changedBodyFile_contained

/-- With the length field of the first record cleared the file is read as torn at its first record, and the
repair throws both records away. -/
theorem damaged_length_truncated :
    let first : JournalRecord := ⟨.policy, 1, [7]⟩
    let second : JournalRecord := ⟨.policy, 2, [8]⟩
    let bytes := leBytes 4 0 ++ (encodeRecordBytes first).drop 4
    let disk : Disk := ⟨some (buildFileHeader 0 0 ++ (bytes ++ encodeRecordBytes second)), none⟩
    Consecutive [first, second] ∧ Fits .defaults first ∧ Fits .defaults second ∧
      bytes.length = (encodeRecordBytes first).length ∧
      (openReader {} .defaults disk).1.getRight?.map (fun reader =>
        (reader.readAll.2.report.limitReached, reader.readAll.2.report.tornTail,
          (repairTornTail {} reader.readAll.2).1, (repairTornTail {} reader.readAll.2).2.contents)) =
        some (false, true, .ok (), buildFileHeader 0 0) := by
  intro first second bytes disk
  exact ⟨by simp [Consecutive, first, second], by decide, by decide, by decide +kernel, by decide +kernel⟩

end Lqf.JournalReader
