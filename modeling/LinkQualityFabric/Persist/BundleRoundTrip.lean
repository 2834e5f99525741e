import LinkQualityFabric.Persist.RecordBundle

/-! Which record bundles are encoded, and that they are read back.

A bundle is refused for its size only: each record ends in a check of the byte limit against all that was written
before, and a count that does not fit belongs to a bundle that is too long anyway. -/
namespace Lqf
open Foundations
set_option autoImplicit false

def bundledBytes (record : JournalRecord) : Bytes :=
  leBytes 8 record.ordinal.toNat ++ [record.kind.code] ++ leBytes 4 record.body.length ++ record.body

def bundledSize (record : JournalRecord) : ℕ := 13 + record.body.length

def bundleSize (records : List JournalRecord) : ℕ := 4 + (records.map bundledSize).sum

theorem bundledBytes_length (record : JournalRecord) : (bundledBytes record).length = bundledSize record := by
  simp [bundledBytes, bundledSize]
  omega

section Writing
variable {writer : Writer} {record : JournalRecord}

theorem putRecord_ok (h : (putRecord writer record).status = none) :
    writer.status = none ∧ record.body.length < 2 ^ 32 ∧
      writer.buffer.length + bundledSize record ≤ writer.limits.maxTotalBytes ∧
      putRecord writer record = writer.wrote (bundledBytes record) := by
  unfold putRecord at h ⊢
  obtain ⟨hkind, -, hshort, hbytes⟩ := Writer.putBytes_ok h
  obtain ⟨hok, hraw⟩ := Writer.raw_ok hkind
  have hall : ((writer.putLe 8 record.ordinal.toNat).putU8 record.kind.code).putBytes record.body =
      writer.wrote (bundledBytes record) := by
    rw [hbytes, Writer.putU8, hraw, Writer.putLe_eq, Writer.wrote_wrote, Writer.wrote_wrote, bundledBytes,
      List.append_assoc, List.append_assoc]
  refine ⟨hok, hshort, ?_, hall⟩
  -- The last check of `raw` compares everything written so far with the limit.
  unfold Writer.putBytes at h
  split at h
  · next hfailed =>
    rw [h] at hfailed
    cases hfailed
  split at h
  · exact absurd h (Writer.fail_status_ne_none _ _ _)
  unfold Writer.raw at h
  split at h
  · next hfailed =>
    rw [h] at hfailed
    cases hfailed
  split at h
  · exact absurd h (Writer.fail_status_ne_none _ _ _)
  next hroom =>
  rw [Writer.putU8, hraw, Writer.putLe_eq, Writer.putLe_eq] at hroom
  simp only [Writer.wrote_length, Writer.wrote_limits, leBytes_length, List.length_singleton] at hroom
  unfold bundledSize
  omega

theorem putRecord_status (hok : writer.status = none) (hlimit : writer.limits.maxTotalBytes < 2 ^ 32)
    (hroom : writer.buffer.length + bundledSize record ≤ writer.limits.maxTotalBytes) :
    (putRecord writer record).status = none := by
  unfold bundledSize at hroom
  have hkind : ((writer.putLe 8 record.ordinal.toNat).putU8 record.kind.code).status = none := by
    refine Writer.raw_status hok ?_
    rw [Writer.putLe_eq, Writer.wrote_length, Writer.wrote_limits, leBytes_length, List.length_singleton]
    omega
  have hraw := (Writer.raw_ok hkind).2
  unfold putRecord Writer.putBytes
  rw [hkind, if_neg (by simp)]
  rw [Writer.putU8, hraw, if_neg (by
    rw [Writer.wrote_limits, Writer.putLe_eq, Writer.wrote_limits]
    omega)]
  refine Writer.raw_status ?_ ?_
  · exact hok
  · rw [Writer.putLe_eq, Writer.putLe_eq]
    simp only [Writer.wrote_length, Writer.wrote_limits, leBytes_length, List.length_singleton]
    omega

end Writing

variable {maxBytes : ℕ} {limits : CodecLimits} (records : List JournalRecord)

theorem putRecords_status (writer : Writer) (hok : writer.status = none)
    (hlimit : writer.limits.maxTotalBytes < 2 ^ 32) (hfits : writer.buffer.length ≤ writer.limits.maxTotalBytes) :
    (putRecords records writer).status = none ↔
      writer.buffer.length + (records.map bundledSize).sum ≤ writer.limits.maxTotalBytes := by
  induction records generalizing writer with
  | nil => simpa [putRecords, hok] using hfits
  | cons record rest ih =>
    rw [List.map_cons, List.sum_cons]
    unfold putRecords
    by_cases hroom : writer.buffer.length + bundledSize record ≤ writer.limits.maxTotalBytes
    · have hstatus := putRecord_status hok hlimit hroom
      obtain ⟨-, -, -, hput⟩ := putRecord_ok hstatus
      rw [hstatus, if_neg (by simp), hput]
      have hlength : (writer.wrote (bundledBytes record)).buffer.length = writer.buffer.length + bundledSize record := by
        rw [Writer.wrote_length, bundledBytes_length]
      have hrest : _ ↔ (writer.wrote (bundledBytes record)).buffer.length + _ ≤ _ :=
        ih (writer.wrote (bundledBytes record)) hok hlimit (hlength.trans_le hroom)
      rw [hlength, Nat.add_assoc] at hrest
      exact hrest
    · have hfailed : (putRecord writer record).status ≠ none := fun hstatus =>
        hroom (putRecord_ok hstatus).2.2.1
      rw [if_pos (Option.isSome_iff_ne_none.mpr hfailed)]
      refine iff_of_false hfailed ?_
      omega

theorem putRecords_ok {writer : Writer} (h : (putRecords records writer).status = none) :
    writer.status = none ∧ putRecords records writer = writer.wrote (records.flatMap bundledBytes) ∧
      ∀ record ∈ records, record.body.length < 2 ^ 32 ∧ record.body.length ≤ writer.limits.maxTotalBytes := by
  induction records generalizing writer with
  | nil =>
    refine ⟨h, ?_, fun _ hrecord => nomatch hrecord⟩
    simp [putRecords, Writer.wrote]
  | cons record rest ih =>
    unfold putRecords at h ⊢
    split at h
    · next hfailed =>
      rw [h] at hfailed
      cases hfailed
    next hfirst =>
    obtain ⟨hok, hshort, hroom, hput⟩ := putRecord_ok (by simpa using hfirst)
    rw [if_neg hfirst]
    rw [hput] at h ⊢
    obtain ⟨-, hrest, hbodies⟩ := ih h
    refine ⟨hok, ?_, ?_⟩
    · rw [hrest, Writer.wrote_wrote, List.flatMap_cons]
    · intro other hother
      rcases List.mem_cons.mp hother with rfl | hlater
      · unfold bundledSize at hroom
        exact ⟨hshort, by omega⟩
      · exact hbodies other hlater

theorem encodeRecordBundle_ok_iff (hlow : 4 ≤ maxBytes) (hhigh : maxBytes < 2 ^ 32) :
    (∃ bundle, encodeRecordBundle records maxBytes = .ok bundle) ↔ bundleSize records ≤ maxBytes := by
  have hsum : records.length ≤ (records.map bundledSize).sum := by
    induction records with
    | nil => exact Nat.zero_le _
    | cons record rest ih =>
      rw [List.length_cons, List.map_cons, List.sum_cons]
      unfold bundledSize at ih ⊢
      omega
  have hstart : ((Writer.start (bundleLimits maxBytes)).putLe 4 records.length).buffer.length = 4 := leBytes_length 4 _
  have hstatus := putRecords_status records ((Writer.start (bundleLimits maxBytes)).putLe 4 records.length) rfl hhigh
    (by rw [hstart]; exact hlow)
  rw [hstart] at hstatus
  unfold encodeRecordBundle bundleSize
  by_cases hmany : 0xFFFFFFFF < records.length
  · rw [if_pos hmany]
    refine iff_of_false (by simp [fail]) ?_
    omega
  · rw [if_neg hmany]
    refine Iff.trans ?_ hstatus
    split
    · next heq =>
      rw [heq]
      simp
    · next heq =>
      rw [heq]
      simp

/-! ## Reading back -/

theorem getRecord_bundled {record : JournalRecord} (hkind : record.kind ≠ .count)
    (hshort : record.body.length < 2 ^ 32) (hlimit : record.body.length ≤ limits.maxTotalBytes)
    (hbytes : record.body.length ≤ maxBytes) (rest : Bytes) :
    getRecord maxBytes (.start limits (bundledBytes record ++ rest)) = .ok (record, .start limits rest) := by
  have hordinal : record.ordinal.toNat < 256 ^ 8 := record.ordinal.toNat_lt
  have hlength : record.body.length < 256 ^ 4 := by
    norm_num
    exact hshort
  have hparse : parseKind record.kind.code = .ok record.kind := by
    rw [parseKind, JournalRecordKind.parse_code, if_neg hkind]
  have hbody : ¬ maxBytes < record.body.length := by omega
  unfold getRecord bundledBytes
  simp only [List.append_assoc]
  rw [Reader.getLe_start _ _ hordinal]
  simp only [delivered, Outcome.ok_bind]
  rw [Reader.getU8_start]
  simp only [Outcome.ok_bind, hparse]
  rw [Reader.getLe_start _ _ hlength]
  simp only [Outcome.ok_bind, Outcome.refuseIf_of_not hbody]
  rw [Reader.getBytes_start _ _ hlimit]
  simp only [Outcome.ok_bind, UInt64.ofNat_toNat]
  rfl

theorem getRecords_bundled (h : ∀ record ∈ records, record.kind ≠ .count ∧ record.body.length < 2 ^ 32 ∧
      record.body.length ≤ limits.maxTotalBytes ∧ record.body.length ≤ maxBytes) (rest : Bytes) :
    getRecords maxBytes records.length (.start limits (records.flatMap bundledBytes ++ rest)) =
      .ok (records, .start limits rest) := by
  induction records with
  | nil => rfl
  | cons record later ih =>
    obtain ⟨hkind, hshort, hlimit, hbytes⟩ := h record List.mem_cons_self
    rw [List.length_cons, getRecords, List.flatMap_cons, List.append_assoc,
      getRecord_bundled hkind hshort hlimit hbytes]
    simp only [Outcome.ok_bind]
    rw [ih fun other hother => h other (List.mem_cons_of_mem _ hother)]
    rfl

theorem decodeRecordBundle_encode {records : List JournalRecord} {maxRecords : ℕ} {bundle : Bytes}
    (h : encodeRecordBundle records maxBytes = .ok bundle) (hkinds : ∀ record ∈ records, record.kind ≠ .count) :
    decodeRecordBundle bundle maxRecords maxBytes = .ok records ↔ records.length ≤ maxRecords := by
  unfold encodeRecordBundle at h
  split at h
  · cases h
  next hcount =>
  have hfew : records.length < 256 ^ 4 := by
    norm_num
    omega
  split at h
  · cases h
  next hput =>
  have hstatus : (putRecords records ((Writer.start (bundleLimits maxBytes)).putLe 4 records.length)).status = none := by
    rw [hput]
  obtain ⟨-, hwrote, hbodies⟩ := putRecords_ok records hstatus
  have hbundle : bundle = leBytes 4 records.length ++ (records.flatMap bundledBytes ++ []) := by
    rw [List.append_nil, ← Except.ok.inj h]
    have hbuffer := congrArg Writer.buffer (hput.symm.trans hwrote)
    exact hbuffer
  rw [hbundle]
  unfold decodeRecordBundle
  rw [Reader.getLe_start _ _ hfew]
  simp only [delivered, Outcome.ok_bind]
  have hread : getRecords maxBytes records.length
      (.start (bundleLimits maxBytes) (records.flatMap bundledBytes ++ [])) =
      .ok (records, .start (bundleLimits maxBytes) []) :=
    getRecords_bundled records (fun record hrecord =>
      ⟨hkinds record hrecord, (hbodies record hrecord).1, (hbodies record hrecord).2, (hbodies record hrecord).2⟩) []
  rw [hread]
  simp only [Outcome.ok_bind]
  by_cases hmany : maxRecords < records.length
  · rw [refuseIf, if_pos hmany]
    refine iff_of_false (by simp [fail]) ?_
    omega
  · rw [Outcome.refuseIf_of_not hmany]
    refine iff_of_true ?_ (by omega)
    simp only [Outcome.ok_bind, Reader.start, ne_eq, not_true_eq_false, Outcome.refuseIf_of_not, not_false_eq_true]
    rfl

/-- A snapshot that was encoded under a journal's limits is loaded under them exactly if its records are not more than
a recovery takes. -/
theorem snapshot_loads_iff (config : JournalConfig) {records : List JournalRecord} {bundle : Bytes}
    (hkinds : ∀ record ∈ records, record.kind ≠ .count)
    (hencoded : encodeRecordBundle records config.maxRecordBytes = .ok bundle) :
    decodeRecordBundle bundle config.maxRecoveryRecords config.maxRecordBytes = .ok records ↔
      records.length ≤ config.maxRecoveryRecords :=
  decodeRecordBundle_encode hencoded hkinds

/-- A policy and an observed link, with bodies, under a recovery of two records. -/
theorem two_records_load :
    { JournalConfig.defaults with maxRecoveryRecords := 2 }.validate = .ok () ∧
      (encodeRecordBundle [⟨.policy, 1, [7, 8]⟩, ⟨.linkObserved, 2, [9]⟩] JournalConfig.defaults.maxRecordBytes >>=
        fun bundle => decodeRecordBundle bundle 2 JournalConfig.defaults.maxRecordBytes) =
          .ok [⟨.policy, 1, [7, 8]⟩, ⟨.linkObserved, 2, [9]⟩] :=
  ⟨by decide +kernel, (@snapshot_loads_iff { JournalConfig.defaults with maxRecoveryRecords := 2 }
    [⟨.policy, 1, [7, 8]⟩, ⟨.linkObserved, 2, [9]⟩] _ (by decide) rfl).mpr (by decide)⟩

/-- A recovery of one record, and a snapshot of two. -/
theorem two_records_too_many :
    { JournalConfig.defaults with maxRecoveryRecords := 1 }.validate = .ok () ∧
      encodeRecordBundle [⟨.policy, 1, []⟩, ⟨.policy, 2, []⟩] JournalConfig.defaults.maxRecordBytes =
        .ok ([2, 0, 0, 0] ++ ([1, 0, 0, 0, 0, 0, 0, 0, 2, 0, 0, 0, 0] ++ [2, 0, 0, 0, 0, 0, 0, 0, 2, 0, 0, 0, 0])) ∧
      decodeRecordBundle
          ([2, 0, 0, 0] ++ ([1, 0, 0, 0, 0, 0, 0, 0, 2, 0, 0, 0, 0] ++ [2, 0, 0, 0, 0, 0, 0, 0, 2, 0, 0, 0, 0])) 1
          JournalConfig.defaults.maxRecordBytes =
        .error ⟨.limitExceeded, text "record bundle exceeds the record limit"⟩ := by
  decide +kernel

end Lqf
