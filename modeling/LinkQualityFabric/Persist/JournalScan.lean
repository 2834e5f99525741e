import LinkQualityFabric.Persist.JournalDamage

/-! What a reader has read, for any file.

Every record that a reader returns stands in the file just as `encode_record_bytes` writes it, so the part of
the file that was read is the header and the encoding of the records, whoever wrote it. A reading that has
seen no torn tail, no damage and no limit has come to the end of the file. -/
namespace Lqf
open Foundations
set_option autoImplicit false

variable {kind : JournalRecordKind} {payload : Bytes}

theorem JournalRecordKind.code_of_parse {raw : UInt8} (h : parse raw = some kind) :
    kind.code = raw ∧ kind ≠ .count := by
  unfold parse at h
  split at h <;> cases h <;> exact ⟨rfl, by decide⟩

theorem recordPayload_of_payload (hlength : recordPrefixBytes ≤ payload.length)
    (hkind : payloadKind payload = some kind) :
    recordPayload ⟨kind, payloadOrdinal payload, payload.drop recordPrefixBytes⟩ = payload := by
  obtain ⟨hcode, -⟩ := JournalRecordKind.code_of_parse hkind
  have hlong : 8 < payload.length := hlength
  have height : (payload.take 8).length = 8 := by
    rw [List.length_take]
    omega
  have hordinal : leBytes 8 (payloadOrdinal payload).toNat = payload.take 8 := by
    have hvalue := leValue_lt (payload.take 8)
    rw [height] at hvalue
    rw [payloadOrdinal, UInt64.toNat_ofNat_of_lt' (lt_of_lt_of_eq hvalue (by decide))]
    have hbytes := leBytes_leValue (payload.take 8)
    rwa [height] at hbytes
  have hbyte : payload.getD 8 0 = payload[8] := by
    rw [List.getD_eq_getElem?_getD, List.getElem?_eq_getElem hlong]
    rfl
  rw [recordPayload, hordinal, hcode, hbyte]
  show payload.take 8 ++ [payload[8]] ++ payload.drop 9 = payload
  rw [List.take_append_getElem hlong, List.take_append_drop]

theorem encodeRecordBytes_of_frame {config : JournalConfig} {contents : Bytes} {offset : ℕ}
    (hframe : frameAt config contents offset = .intact payload) (hkind : payloadKind payload = some kind) :
    encodeRecordBytes ⟨kind, payloadOrdinal payload, payload.drop recordPrefixBytes⟩ =
      readAt contents offset (recordHeaderBytes + payload.length) := by
  obtain ⟨hlong, hinside⟩ := frameAt_intact hframe
  obtain ⟨-, -, hwithin, hcrc, hpayload⟩ := frameAt_eq_intact_iff.mp hframe
  have hlength : lengthField contents offset = payload.length := by
    rw [hpayload, readAt_length]
    omega
  have hfield : ∀ position, position + 4 ≤ contents.length →
      leBytes 4 (leValue (readAt contents position 4)) = readAt contents position 4 := by
    intro position hposition
    have hfour : (readAt contents position 4).length = 4 := by
      rw [readAt_length]
      omega
    have hbytes := leBytes_leValue (readAt contents position 4)
    rwa [hfour] at hbytes
  simp only [recordHeaderBytes] at hinside hwithin
  have hheader : readAt contents offset recordHeaderBytes =
      leBytes 4 payload.length ++ leBytes 4 (crc32c payload).toNat := by
    rw [show recordHeaderBytes = 4 + 4 from rfl, readAt_add, ← hlength, ← hfield offset (by omega),
      ← hfield (offset + 4) (by omega)]
    rw [← hpayload] at hcrc
    rw [hcrc]
    rfl
  have hbody : readAt contents (offset + recordHeaderBytes) payload.length = payload := by
    rw [← hlength]
    exact hpayload.symm
  rw [encodeRecordBytes, recordPayload_of_payload hlong hkind, readAt_add, hheader, hbody]

namespace JournalReader

def Readable (config : JournalConfig) : Option UInt64 → List JournalRecord → Prop
  | _, [] => True
  | expected, record :: rest =>
    Fits config record ∧ InOrder expected record.ordinal ∧ Readable config (some (record.ordinal + 1)) rest

/-! ## One record -/

variable {reader after : JournalReader} {record : JournalRecord} {records : List JournalRecord}
  {config : JournalConfig} {expected : Option UInt64} (fuel : ℕ)

theorem next_eq_some (h : reader.next = (some record, after)) :
    reader.reachedEnd = false ∧ ∃ payload, frameAt reader.config reader.contents reader.lastGoodOffset = .intact payload ∧
      payloadKind payload = some record.kind ∧ InOrder reader.expectedOrdinal (payloadOrdinal payload) ∧
      record = ⟨record.kind, payloadOrdinal payload, payload.drop recordPrefixBytes⟩ ∧
      after = reader.advance record.kind payload := by
  cases hgoing : reader.reachedEnd with
  | true => simp [next, hgoing] at h
  | false =>
    rcases next_cases hgoing with
      ⟨-, hnext⟩ | ⟨payload, kind, hframe, hkind, horder, hnext⟩ | ⟨-, stopped, hnext, -⟩
    · rw [hnext] at h
      cases h
    · rw [hnext] at h
      obtain ⟨hrecord, rfl⟩ := Prod.mk.inj h
      obtain rfl := Option.some.inj hrecord
      exact ⟨rfl, payload, hframe, hkind, horder, rfl, rfl⟩
    · rw [hnext] at h
      cases h

theorem next_eq_none (hgoing : reader.reachedEnd = false) (h : reader.next = (none, after))
    (htorn : after.report.tornTail = false) (hdegraded : after.report.degraded = false)
    (hlimited : after.report.limitReached = false) :
    frameAt reader.config reader.contents reader.lastGoodOffset = .atEnd := by
  rcases next_cases hgoing with ⟨-, hnext⟩ | ⟨_, _, -, -, -, hnext⟩ | ⟨-, stopped, hnext, hstops⟩
  · rw [hnext] at h
    obtain ⟨-, rfl⟩ := Prod.mk.inj h
    cases hlimited
  · rw [hnext] at h
    cases h
  · rw [hnext] at h
    obtain ⟨-, rfl⟩ := Prod.mk.inj h
    by_contra hframe
    by_cases hat : TornAt reader.config reader.contents reader.lastGoodOffset
    · rw [hstops.torn_iff.mpr (.inr hat)] at htorn
      cases htorn
    · rw [hstops.degraded_iff.mpr (.inr ⟨hframe, hat⟩)] at hdegraded
      cases hdegraded

/-! ## The whole reading -/

structure Scanned (reader : JournalReader) (records : List JournalRecord) (after : JournalReader) : Prop where
  contents_eq : after.contents = reader.contents
  readable : Readable reader.config reader.expectedOrdinal records
  bytes : reader.contents.take after.lastGoodOffset =
    reader.contents.take reader.lastGoodOffset ++ encodeRecords records
  expected : after.expectedOrdinal = records.getLast?.elim reader.expectedOrdinal (fun last => some (last.ordinal + 1))
  counted : after.report.recordsRead = reader.report.recordsRead + records.length

theorem next_stays (h : reader.next = (none, after)) :
    after.contents = reader.contents ∧ after.lastGoodOffset = reader.lastGoodOffset ∧
      after.expectedOrdinal = reader.expectedOrdinal ∧ after.report.recordsRead = reader.report.recordsRead := by
  cases hgoing : reader.reachedEnd with
  | true =>
    simp only [next, hgoing, if_true] at h
    obtain ⟨-, rfl⟩ := Prod.mk.inj h
    exact ⟨rfl, rfl, rfl, rfl⟩
  | false =>
    rcases next_cases hgoing with ⟨-, hnext⟩ | ⟨_, _, -, -, -, hnext⟩ | ⟨-, stopped, hnext, hstops⟩
    · rw [hnext] at h
      obtain ⟨-, rfl⟩ := Prod.mk.inj h
      exact ⟨rfl, rfl, rfl, rfl⟩
    · rw [hnext] at h
      cases h
    · rw [hnext] at h
      obtain ⟨-, rfl⟩ := Prod.mk.inj h
      exact ⟨hstops.contents_eq, hstops.lastGoodOffset, hstops.expectedOrdinal, hstops.recordsRead⟩

theorem scanned_nothing (hcontents : after.contents = reader.contents)
    (hoffset : after.lastGoodOffset = reader.lastGoodOffset)
    (hexpected : after.expectedOrdinal = reader.expectedOrdinal)
    (hcount : after.report.recordsRead = reader.report.recordsRead) : Scanned reader [] after :=
  ⟨hcontents, trivial, by rw [hoffset, encodeRecords_nil, List.append_nil], hexpected, hcount⟩

theorem Scanned.cons {middle : JournalReader} (hnext : reader.next = (some record, middle))
    (h : Scanned middle records after) : Scanned reader (record :: records) after := by
  obtain ⟨-, payload, hframe, hkind, horder, hrecord, rfl⟩ := next_eq_some hnext
  obtain ⟨hlong, hinside⟩ := frameAt_intact hframe
  have hencoded := encodeRecordBytes_of_frame hframe hkind
  rw [← hrecord] at hencoded
  have hordinal : record.ordinal = payloadOrdinal payload := congrArg JournalRecord.ordinal hrecord
  have hbody : record.body = payload.drop recordPrefixBytes := congrArg JournalRecord.body hrecord
  have hfits : Fits reader.config record := by
    obtain ⟨-, hmax, hwithin, -, hpayload⟩ := frameAt_eq_intact_iff.mp hframe
    have hlength : lengthField reader.contents reader.lastGoodOffset = payload.length := by
      rw [hpayload, readAt_length]
      omega
    have hfield := leValue_lt (readAt reader.contents reader.lastGoodOffset 4)
    have hwidth := readAt_length_le reader.contents reader.lastGoodOffset 4
    have hbound : leValue (readAt reader.contents reader.lastGoodOffset 4) < 2 ^ 32 :=
      lt_of_lt_of_le hfield (le_trans (Nat.pow_le_pow_right (by decide) hwidth) (by decide))
    rw [← lengthField, hlength] at hbound
    rw [hlength] at hmax
    refine ⟨?_, ?_, (JournalRecordKind.code_of_parse hkind).2⟩
    · rw [hbody, List.length_drop]
      omega
    · rw [hbody, List.length_drop]
      omega
  refine ⟨h.contents_eq, ⟨hfits, hordinal ▸ horder, ?_⟩, ?_, ?_, ?_⟩
  · have hreadable := h.readable
    rw [hordinal]
    exact hreadable
  · have hbytes := h.bytes
    have hstep : reader.contents.take (reader.lastGoodOffset + (recordHeaderBytes + payload.length)) =
        reader.contents.take reader.lastGoodOffset ++ encodeRecordBytes record := by
      rw [hencoded, List.take_add]
      rfl
    have hmiddle : (reader.advance record.kind payload).lastGoodOffset =
        reader.lastGoodOffset + (recordHeaderBytes + payload.length) := rfl
    rw [hmiddle] at hbytes
    rw [encodeRecords_cons, ← List.append_assoc, ← hstep]
    exact hbytes
  · refine h.expected.trans ?_
    cases records with
    | nil =>
      show some (payloadOrdinal payload + 1) = _
      rw [← hordinal]
      rfl
    | cons second rest =>
      rw [List.getLast?_cons_cons, List.getLast?_eq_some_getLast (List.cons_ne_nil second rest)]
      rfl
  · refine h.counted.trans ?_
    show reader.report.recordsRead + 1 + _ = _
    rw [List.length_cons]
    omega

theorem drain_scanned (reader : JournalReader) : Scanned reader (drain fuel reader).1 (drain fuel reader).2 := by
  induction fuel generalizing reader with
  | zero => exact scanned_nothing rfl rfl rfl rfl
  | succ fuel ih =>
    rw [drain]
    cases hnext : reader.next with
    | mk returned after =>
      cases returned with
      | none =>
        obtain ⟨hcontents, hoffset, hexpected, hcount⟩ := next_stays hnext
        exact scanned_nothing hcontents hoffset hexpected hcount
      | some record => exact (ih after).cons hnext

theorem drain_end (reader : JournalReader) (hgoing : reader.reachedEnd = false)
    (hfuel : reader.contents.length < reader.lastGoodOffset + fuel)
    (htorn : (drain fuel reader).2.report.tornTail = false)
    (hdegraded : (drain fuel reader).2.report.degraded = false)
    (hlimited : (drain fuel reader).2.report.limitReached = false) :
    reader.contents.length ≤ (drain fuel reader).2.lastGoodOffset := by
  induction fuel generalizing reader with
  | zero =>
    rw [drain]
    dsimp only
    omega
  | succ fuel ih =>
    rw [drain] at htorn hdegraded hlimited ⊢
    cases hnext : reader.next with
    | mk returned after =>
      rw [hnext] at htorn hdegraded hlimited
      cases returned with
      | none =>
        have hframe := next_eq_none hgoing hnext htorn hdegraded hlimited
        have hempty : readAt reader.contents reader.lastGoodOffset recordHeaderBytes = [] := by
          by_contra hsome
          simp only [frameAt, if_neg hsome] at hframe
          split at hframe
          · cases hframe
          · split at hframe
            · cases hframe
            · split at hframe
              · cases hframe
              · split at hframe
                · cases hframe
                · cases hframe
        have hlength := congrArg List.length hempty
        rw [readAt_length, List.length_nil, recordHeaderBytes] at hlength
        dsimp only
        rw [(next_stays hnext).2.1]
        omega
      | some record =>
        obtain ⟨-, payload, hframe, -, -, -, rfl⟩ := next_eq_some hnext
        refine ih (reader.advance record.kind payload) hgoing ?_ htorn hdegraded hlimited
        show reader.contents.length < reader.lastGoodOffset + (recordHeaderBytes + payload.length) + fuel
        have hheader : 1 ≤ recordHeaderBytes := by decide
        omega

theorem consecutive_of_readable (h : Readable config expected records) : Consecutive records := by
  induction records generalizing expected with
  | nil => exact List.isChain_nil
  | cons record rest ih =>
    obtain ⟨-, -, hrest⟩ := h
    refine List.isChain_cons.mpr ⟨?_, ih hrest⟩
    intro second hsecond
    cases rest with
    | nil => cases hsecond
    | cons other more =>
      obtain rfl : other = second := Option.some.inj hsecond
      obtain ⟨hne, heq⟩ := hrest.2.1 _ rfl
      rw [heq, UInt64.toNat_add]
      have hlt := record.ordinal.toNat_lt
      have hzero : (record.ordinal + 1).toNat ≠ 0 := fun hzero => hne (UInt64.toNat_inj.mp hzero)
      rw [UInt64.toNat_add] at hzero
      have hone : (1 : UInt64).toNat = 1 := rfl
      omega

theorem known_of_readable (h : Readable config expected records) : ∀ record ∈ records, record.kind ≠ .count := by
  induction records generalizing expected with
  | nil => exact fun _ hrecord => nomatch hrecord
  | cons first rest ih =>
    obtain ⟨hfits, -, hrest⟩ := h
    exact List.forall_mem_cons.mpr ⟨hfits.2.2, ih hrest⟩

/-! ## Any file that can be opened -/

/-- A reader before its first record. One that has written the header itself is at the end already. -/
structure JustOpened (reader : JournalReader) : Prop where
  lastGoodOffset : reader.lastGoodOffset = fileHeaderBytes
  expectedOrdinal : reader.expectedOrdinal = none
  recordsRead : reader.report.recordsRead = 0
  header : (reader.contents.take fileHeaderBytes).length = fileHeaderBytes ∧
    validateFileHeader (reader.contents.take fileHeaderBytes) = .ok ()
  reachedEnd : reader.reachedEnd = true → reader.contents.length = fileHeaderBytes

theorem openReader_justOpened {io : OpenIo} {disk : Disk} (h : (openReader io config disk).1 = .inr reader) :
    reader.JustOpened := by
  unfold openReader at h
  dsimp only at h
  split at h
  · cases h
  · split at h
    · cases h
    · split at h
      · have hlength := buildFileHeader_length 0 0
        unfold openFresh at h
        dsimp only at h
        split at h
        · cases h
        · split at h
          · cases h
          · obtain rfl := Sum.inr.inj h
            refine ⟨rfl, rfl, rfl, ?_, fun _ => hlength⟩
            show ((buildFileHeader 0 0).take fileHeaderBytes).length = _ ∧
              validateFileHeader ((buildFileHeader 0 0).take fileHeaderBytes) = _
            rw [List.take_of_length_le hlength.le]
            exact ⟨hlength, validateFileHeader_build 0 0⟩
      · unfold openExisting at h
        dsimp only at h
        split at h
        · cases h
        · next hlong =>
          split at h
          · cases h
          · next hvalid =>
            obtain rfl := Sum.inr.inj h
            rw [readAt, List.drop_zero] at hlong hvalid
            refine ⟨rfl, rfl, rfl, ⟨?_, hvalid⟩, by simp⟩
            exact le_antisymm (List.length_take_le _ _) (not_lt.mp hlong)

theorem JustOpened.readAll_end (h : reader.JustOpened) (htorn : reader.readAll.2.report.tornTail = false)
    (hdegraded : reader.readAll.2.report.degraded = false) (hlimited : reader.readAll.2.report.limitReached = false) :
    reader.contents.length ≤ reader.readAll.2.lastGoodOffset := by
  cases hgoing : reader.reachedEnd with
  | true =>
    have hdrain : reader.readAll = ([], reader) := by simp [readAll, drain, next, hgoing]
    rw [hdrain, h.lastGoodOffset, h.reachedEnd hgoing]
  | false => exact drain_end _ reader hgoing (by omega) htorn hdegraded hlimited

theorem repairTornTail_contents {io : RepairIo} {repaired : JournalReader}
    (h : reader.repairTornTail io = (.ok (), repaired)) :
    repaired.contents = reader.contents.take reader.lastGoodOffset := by
  unfold repairTornTail at h
  split at h
  · cases h
  · split at h
    · cases h
    · split at h
      · cases h
      · split at h
        · cases h
        · split at h
          · cases h
          · unfold truncateTail at h
            dsimp only at h
            split at h
            · cases h
            · obtain ⟨-, rfl⟩ := Prod.mk.inj h
              rfl

end JournalReader

end Lqf
