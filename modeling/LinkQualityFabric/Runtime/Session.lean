import LinkQualityFabric.Persist.CrashPrefix
import LinkQualityFabric.Runtime.FiledJournal

/-! One session of a journal, from the opening of a fabric to its close.

The reader hands the ordinal behind the last record it has read to the fabric, and the writer appends behind
the last byte of the file. The two are the same place when the reader has come to the end of the file; then
the records of the session continue the numbering of the file, also across compactions, and the file can be
read again from its first record to its last. -/
namespace Lqf
open Foundations
set_option autoImplicit false
set_option maxRecDepth 10000

namespace BackgroundJournal
open JournalReader (Consecutive)

/-! ## A journal without gaps -/

/-- Until the journal fails, its file and its writer hold these records behind a valid header, numbered one by one. -/
structure Ordered (records : List JournalRecord) (journal : BackgroundJournal) : Prop where
  filed : ∃ header : Bytes, header.length = fileHeaderBytes ∧ validateFileHeader header = .ok () ∧
    Intact header records journal
  consecutive : Consecutive records
  known : ∀ record ∈ records, record.kind ≠ .count

section Ordered
variable {records : List JournalRecord} {journal : BackgroundJournal}

variable {after : BackgroundJournal} {base : Bytes}

theorem Ordered.step (h : Ordered records journal)
    (hstep : ∀ header : Bytes, Intact header records journal → Intact header records after) :
    Ordered records after := by
  obtain ⟨header, hlength, hvalid, hintact⟩ := h.filed
  exact ⟨⟨header, hlength, hvalid, hstep header hintact⟩, h.consecutive, h.known⟩

theorem Ordered.append {kind : JournalRecordKind} {ordinal : UInt64} {body : Bytes} (h : Ordered records journal)
    (happend : journal.append kind ordinal body = .ok after) (hkind : kind ≠ .count)
    (hnext : ∀ last ∈ records.getLast?, ordinal.toNat = last.ordinal.toNat + 1) :
    Ordered (records ++ [⟨kind, ordinal, body⟩]) after := by
  obtain ⟨header, hlength, hvalid, hintact⟩ := h.filed
  refine ⟨⟨header, hlength, hvalid, hintact.append happend⟩, ?_, ?_⟩
  · refine List.isChain_append.mpr ⟨h.consecutive, List.isChain_singleton _, ?_⟩
    intro last hlast next hfirst
    obtain rfl : ⟨kind, ordinal, body⟩ = next := by simpa using hfirst
    exact hnext last hlast
  · intro record hrecord
    rcases List.mem_append.mp hrecord with hold | hnew
    · exact h.known record hold
    · obtain rfl := List.mem_singleton.mp hnew
      exact hkind

theorem Intact.flush (h : Intact base records journal) (io : FlushIo) : Intact base records (journal.flush io).2 := by
  unfold BackgroundJournal.flush
  split
  · exact h
  · unfold flushIdle
    split
    · exact h.awaitIdle _
    · split
      · exact h.awaitIdle _
      · exact fun hfailure => nomatch hfailure
      · exact h.awaitIdle _

theorem Ordered.compact (h : Ordered records journal) (ordinal : UInt64) (body : Bytes) :
    Ordered records (journal.compact {} ordinal body).2 ∨
      Ordered [⟨.snapshot, ordinal, body⟩] (journal.compact {} ordinal body).2 := by
  rcases compact_cases {} ordinal body journal with ⟨_, _, hcompact, rfl | rfl⟩ | ⟨-, hpending, hcompact⟩
  · rw [hcompact]
    exact .inl h
  · rw [hcompact]
    exact .inl (h.step fun _ hintact => hintact.awaitIdle [])
  · rw [hcompact, replaceFile_granted]
    refine .inr ⟨⟨buildFileHeader 0 0, buildFileHeader_length 0 0, validateFileHeader_build 0 0, ?_⟩,
      List.isChain_singleton _, ?_⟩
    · intro _
      refine ⟨rfl, [⟨.snapshot, ordinal, body⟩], by simp, ?_⟩
      rw [pending] at hpending
      simp [pending, hpending]
    · intro record hrecord
      obtain rfl := List.mem_singleton.mp hrecord
      simp

theorem ordered_started (config : JournalConfig) {header : Bytes} (hlength : header.length = fileHeaderBytes)
    (hvalid : validateFileHeader header = .ok ()) (hconsecutive : Consecutive records)
    (hknown : ∀ record ∈ records, record.kind ≠ .count) :
    Ordered records (started config (header ++ encodeRecords records)) :=
  ⟨⟨header, hlength, hvalid, fun _ => ⟨rfl, records, rfl, (List.append_nil records).symm⟩⟩, hconsecutive, hknown⟩

end Ordered

end BackgroundJournal

namespace Fabric
open BackgroundJournal
open JournalReader (Consecutive)

/-! ## The ordinals of a fabric -/

/-- The journal holds `records` without a gap, and the fabric goes on with the ordinal behind them. -/
structure Sequenced (records : List JournalRecord) (fabric : Fabric) : Prop where
  ordered : ∀ journal ∈ fabric.journal, Ordered records journal
  next : ∀ last ∈ records.getLast?, fabric.nextOrdinal.toNat = last.ordinal.toNat + 1

section Sequenced
variable {records more : List JournalRecord} {fabric after : Fabric}

theorem Sequenced.letWriterRun (h : Sequenced records fabric) (steps : List WriterStep) :
    Sequenced records (fabric.letWriterRun steps) := by
  refine ⟨?_, h.next⟩
  intro journal hjournal
  obtain ⟨before, hbefore, rfl⟩ := Option.map_eq_some_iff.mp hjournal
  exact (h.ordered before hbefore).step fun _ hintact => hintact.progress steps

theorem Sequenced.trail (h : Sequenced records fabric) (htrail : Trail fabric more after)
    (hleft : fabric.nextOrdinal.toNat + more.length < 2 ^ 64) : Sequenced (records ++ more) after := by
  induction htrail with
  | start => rwa [List.append_nil]
  | beside _ hsame ih =>
    have hbefore := ih hleft
    refine ⟨fun journal hjournal => hbefore.ordered journal (hsame.journal ▸ hjournal), ?_⟩
    rw [hsame.ordinal]
    exact hbefore.next
  | writer steps _ ih => exact (ih hleft).letWriterRun steps
  | @taken earlier before journal appended kind body htrail hactive happend hkind ih =>
    rw [List.length_append, List.length_singleton] at hleft
    have hbefore := ih (by omega)
    have hordinal : before.nextOrdinal.toNat = fabric.nextOrdinal.toNat + earlier.length := by
      rw [htrail.enqueues.ordinal, UInt64.toNat_add, UInt64.toNat_ofNat_of_lt' (by simp only [UInt64.size]; omega)]
      omega
    rw [← List.append_assoc]
    refine ⟨?_, ?_⟩
    · intro other hother
      obtain rfl : appended = other := Option.some.inj hother
      exact (hbefore.ordered journal (activeJournal_enabled hactive).1).append happend hkind hbefore.next
    · intro last hlast
      obtain rfl : ⟨kind, before.nextOrdinal, body⟩ = last := by simpa using hlast
      show (before.nextOrdinal + 1).toNat = before.nextOrdinal.toNat + 1
      rw [UInt64.toNat_add]
      have hone : (1 : UInt64).toNat = 1 := rfl
      omega

theorem snapshotOrdinal_next (h : fabric.nextOrdinal ≠ 0) :
    fabric.nextOrdinal.toNat = fabric.snapshotOrdinal.toNat + 1 := by
  have hpos : fabric.nextOrdinal.toNat ≠ 0 := fun hzero => h (UInt64.toNat_inj.mp hzero)
  have hle : (1 : UInt64) ≤ fabric.nextOrdinal := UInt64.le_iff_toNat_le.mpr (by
    show 1 ≤ _
    omega)
  rw [snapshotOrdinal, if_neg h, UInt64.toNat_sub_of_le _ _ hle]
  show _ = _ - 1 + 1
  omega

section
variable (h : Sequenced records fabric) (hsome : records ≠ [])
include h hsome

theorem Sequenced.compactJournal {journal : BackgroundJournal} (hjournal : fabric.journal = some journal) :
    ∃ left, left ≠ [] ∧ Sequenced left (fabric.compactJournal {} journal).2 := by
  have hzero : fabric.nextOrdinal ≠ 0 := by
    intro hzero
    have hnext := h.next (records.getLast hsome) (List.getLast?_eq_some_getLast hsome)
    rw [hzero] at hnext
    exact absurd hnext (by simp)
  unfold Fabric.compactJournal
  split
  · exact ⟨records, hsome, h⟩
  · next body _ =>
    have hordered := (h.ordered journal hjournal).compact fabric.snapshotOrdinal body
    cases hcompact : journal.compact {} fabric.snapshotOrdinal body with
    | mk answer compacted =>
      rw [hcompact] at hordered
      have hplain : ∀ changed : Fabric, changed.journal = some compacted → changed.nextOrdinal = fabric.nextOrdinal →
          ∃ left, left ≠ [] ∧ Sequenced left changed := by
        intro changed hchanged hordinal
        rcases hordered with hkept | hreplaced
        · refine ⟨records, hsome, ?_, by rw [hordinal]; exact h.next⟩
          intro other hother
          obtain rfl : compacted = other := Option.some.inj (hchanged.symm.trans hother)
          exact hkept
        · refine ⟨[⟨.snapshot, fabric.snapshotOrdinal, body⟩], nofun, ?_, ?_⟩
          · intro other hother
            obtain rfl : compacted = other := Option.some.inj (hchanged.symm.trans hother)
            exact hreplaced
          · intro last hlast
            obtain rfl : ⟨.snapshot, fabric.snapshotOrdinal, body⟩ = last := Option.some.inj hlast
            rw [hordinal]
            exact snapshotOrdinal_next hzero
      cases answer with
      | ok u => exact hplain _ rfl rfl
      | error status => exact hplain _ rfl rfl

theorem Sequenced.compact : ∃ left, left ≠ [] ∧ Sequenced left (fabric.compact {}).2 := by
  unfold Fabric.compact
  split
  · exact ⟨records, hsome, h⟩
  · next journal hactive => exact h.compactJournal hsome (activeJournal_enabled hactive).1

theorem Sequenced.maybeCompact : ∃ left, left ≠ [] ∧ Sequenced left (fabric.maybeCompact {}) := by
  unfold Fabric.maybeCompact
  split
  · exact ⟨records, hsome, h⟩
  · next journal hactive =>
    split
    · exact h.compactJournal hsome (activeJournal_enabled hactive).1
    · exact ⟨records, hsome, h⟩

end

theorem Sequenced.flush (h : Sequenced records fabric) (io : FlushIo) : Sequenced records (fabric.flush io).2 := by
  unfold Fabric.flush
  split
  · exact h
  · next journal hactive =>
    refine ⟨?_, h.next⟩
    intro other hother
    obtain rfl : (journal.flush io).2 = other := Option.some.inj hother
    exact (h.ordered journal (activeJournal_enabled hactive).1).step fun _ hintact => hintact.flush io

theorem Sequenced.works {io : CallIo} (h : Sequenced records fabric) (hsome : records ≠ [])
    (hworks : Works io fabric more after) (hio : io.compaction = {}) (hleft : fabric.OrdinalsLeft) :
    ∃ left, left ≠ [] ∧ Sequenced left after := by
  obtain ⟨hfew, last, htrail, hafter⟩ := hworks
  unfold OrdinalsLeft at hleft
  have hlast := h.trail htrail (by omega)
  have hmore : records ++ more ≠ [] := fun hnil => hsome (List.append_eq_nil_iff.mp hnil).1
  rcases hafter with rfl | rfl
  · exact ⟨_, hmore, hlast⟩
  · rw [hio]
    exact hlast.maybeCompact hmore

end Sequenced

/-! ## Opening -/

section Opening
variable {io : InitializeIo}

variable {reader repaired : JournalReader} {records : List JournalRecord} {fabric : Fabric}

theorem repaired_contents {after : List JournalRecord × JournalReader} (hfresh : JournalReader.JustOpened reader)
    (hafter : after = reader.readAll) (hrepaired : Repaired io after.2 repaired)
    (hdegraded : after.2.report.degraded = false)
    (hend : after.2.report.limitReached = true → reader.contents.length ≤ after.2.lastGoodOffset) :
    repaired.contents = reader.contents.take fileHeaderBytes ++ encodeRecords after.1 := by
  subst hafter
  have hscanned := JournalReader.drain_scanned (reader.contents.length + 1) reader
  have hbytes := hscanned.bytes
  rw [hfresh.lastGoodOffset] at hbytes
  rcases hrepaired with ⟨htorn, rfl⟩ | ⟨-, hrepair⟩
  · have hwhole : reader.contents.length ≤ reader.readAll.2.lastGoodOffset := by
      cases hlimited : reader.readAll.2.report.limitReached with
      | true => exact hend hlimited
      | false => exact hfresh.readAll_end htorn hdegraded hlimited
    refine Eq.trans ?_ hbytes
    refine hscanned.contents_eq.trans (List.take_of_length_le hwhole).symm
  · refine Eq.trans ?_ hbytes
    rw [JournalReader.repairTornTail_contents hrepair]
    exact congrArg (List.take _) hscanned.contents_eq

/-- No limit stops the reader before the end of the file, and there is an ordinal behind its last record. -/
def ReadsThrough (config : FabricConfig) (io : InitializeIo) (disk : Disk) : Prop :=
  ∀ reader, (JournalReader.openReader io.reader config.journal disk).1 = .inr reader →
    (reader.readAll.2.report.limitReached = true → reader.contents.length ≤ reader.readAll.2.lastGoodOffset) ∧
      reader.readAll.2.expectedOrdinal ≠ some 0

theorem Sequenced.journalInitialPolicy {appended : Fabric} {initial : PolicyGenerationRecord} {fresh : Bool}
    (h : Sequenced records fabric) (hjournaling : fabric.Journaling) (hfresh : fresh = true → fabric.nextOrdinal = 0)
    (hold : fresh = false → records ≠ [])
    (hinitial : fabric.journalInitialPolicy io initial fresh = (.ok (), appended)) :
    ∃ left, left ≠ [] ∧ Sequenced left appended := by
  unfold Fabric.journalInitialPolicy at hinitial
  split at hinitial
  · next hon =>
    split at hinitial
    · cases hinitial
    · next body _ =>
      have happends := journalAppend_appends io.record .policy body hjournaling (by decide)
      rw [hinitial] at happends
      cases happends with
      | taken htrail _ => exact ⟨_, by simp, h.trail htrail (by rw [hfresh hon]; simp)⟩
  · next hoff =>
    cases hinitial
    exact ⟨records, hold (by simpa using hoff), h⟩

theorem Sequenced.compactOnOpen (h : Sequenced records fabric) (hsome : records ≠ []) (hio : io.compaction = {}) :
    ∃ left, left ≠ [] ∧ Sequenced left (fabric.compactOnOpen io).2 := by
  unfold Fabric.compactOnOpen
  split
  · rw [hio]
    have hcompacted := h.compact hsome
    split
    · next hresult =>
      rw [hresult] at hcompacted
      split <;> exact hcompacted
    · next hresult =>
      rw [hresult] at hcompacted
      exact hcompacted
  · exact ⟨records, hsome, h⟩

theorem sequenced_started {journal : BackgroundJournal} {start : StartIo} {startedNanos : Int64}
    (hfresh : reader.JustOpened) (hrepaired : Repaired io reader.readAll.2 repaired)
    (hdegraded : reader.readAll.2.report.degraded = false)
    (hend : reader.readAll.2.report.limitReached = true → reader.contents.length ≤ reader.readAll.2.lastGoodOffset)
    (hwraps : reader.readAll.2.expectedOrdinal ≠ some 0)
    (hordinal : fabric.nextOrdinal = reader.readAll.2.expectedOrdinal.getD 0)
    (hstart : BackgroundJournal.start start fabric.config.journal ⟨some repaired.contents, none⟩ fabric.epoch
      startedNanos = .ok journal) : Sequenced reader.readAll.1 (fabric.startedWith journal) := by
  have hscanned : JournalReader.Scanned reader reader.readAll.1 reader.readAll.2 := JournalReader.drain_scanned _ reader
  have hcontents := repaired_contents hfresh rfl hrepaired hdegraded hend
  obtain ⟨-, rfl⟩ := start_eq_ok hstart
  have hsome : repaired.contents ≠ [] := by
    intro hnil
    have hlength := congrArg List.length (hcontents.symm.trans hnil)
    rw [List.length_append, hfresh.header.1] at hlength
    exact absurd hlength (by simp [fileHeaderBytes])
  refine ⟨?_, ?_⟩
  · intro other hother
    rw [Option.getD_some, if_neg hsome, hcontents] at hother
    obtain rfl := Option.some.inj hother
    exact ordered_started _ hfresh.header.1 hfresh.header.2 (JournalReader.consecutive_of_readable hscanned.readable)
      (JournalReader.known_of_readable hscanned.readable)
  · intro last hlast
    have hexpected := hscanned.expected
    rw [Option.mem_def.mp hlast] at hexpected
    rw [hexpected] at hwraps hordinal
    have hne : last.ordinal + 1 ≠ 0 := fun hzero => hwraps (congrArg some hzero)
    have hpos : (last.ordinal + 1).toNat ≠ 0 := fun hzero => hne (UInt64.toNat_inj.mp hzero)
    show fabric.nextOrdinal.toNat = _
    rw [hordinal]
    show (last.ordinal + 1).toNat = _
    rw [UInt64.toNat_add] at hpos ⊢
    have hlt := last.ordinal.toNat_lt
    have hone : (1 : UInt64).toNat = 1 := rfl
    omega

theorem opened_sequenced {config : FabricConfig} {derived : UInt64} {publishedAt : Int64} {disk : Disk}
    (henabled : config.journal.enabled = true)
    (h : ((new config derived publishedAt).initializeFabric io disk).1 = .ok ()) (hio : io.compaction = {})
    (hthrough : ReadsThrough config io disk) :
    ∃ records, records ≠ [] ∧ Sequenced records ((new config derived publishedAt).initializeFabric io disk).2 := by
  obtain ⟨reader, hreplays⟩ := replays_of_opened henabled h
  obtain ⟨hend, hwraps⟩ := hthrough reader hreplays.opened
  have hfresh := JournalReader.openReader_justOpened hreplays.opened
  have hscanned : JournalReader.Scanned reader reader.readAll.1 reader.readAll.2 := JournalReader.drain_scanned _ reader
  rw [initializeFabric_of_replays hreplays] at h ⊢
  obtain ⟨hdegraded, repaired, recovery, hrepaired, hstarted⟩ := afterReplay_ok rfl h
  rw [hstarted] at h ⊢
  obtain ⟨journal, appended, compacted, hstart, hinitial, hcompact, hfinal⟩ := startJournal_ok h
  rw [hfinal]
  have hbegin := sequenced_started hfresh hrepaired hdegraded hend hwraps rfl hstart
  have hread : reader.readAll.2.report.recordsRead = reader.readAll.1.length := by
    rw [hscanned.counted, hfresh.recordsRead, Nat.zero_add]
  obtain ⟨left, hleft, happended⟩ := hbegin.journalInitialPolicy ⟨journal, rfl, start_enabled hstart⟩
    (fun hempty => by
      have hnone : reader.readAll.1 = [] := List.length_eq_zero_iff.mp (hread.symm.trans (of_decide_eq_true hempty))
      have hexpected := hscanned.expected
      rw [hnone, List.getLast?_nil, Option.elim_none, hfresh.expectedOrdinal] at hexpected
      show reader.readAll.2.expectedOrdinal.getD 0 = 0
      rw [hexpected]
      rfl)
    (fun hsome hnil => of_decide_eq_false hsome (hread.trans (congrArg List.length hnil)))
    hinitial
  have hcompacted := happended.compactOnOpen hleft hio
  rw [hcompact] at hcompacted
  obtain ⟨last, hlast, hsequenced⟩ := hcompacted
  exact ⟨last, hlast, hsequenced.ordered, hsequenced.next⟩

end Opening

/-! ## Sessions -/

inductive SessionEvent where
  | call (call : FabricCall) (io : CallIo)
  | compact (io : CompactIo)
  | flush (io : FlushIo)
  | write (steps : List WriterStep)

def sessionStep (fabric : Fabric) : SessionEvent → Fabric
  | .call call io => (fabric.respond (call, io)).2
  | .compact io => (fabric.compact io).2
  | .flush io => (fabric.flush io).2
  | .write steps => fabric.letWriterRun steps

def session : Machine Fabric SessionEvent Unit := ⟨fun fabric event => ((), fabric.sessionStep event)⟩

/-- The file system grants every step of a compaction. -/
def SessionEvent.Granted : SessionEvent → Prop
  | .call _ io => io.compaction = {}
  | .compact io => io = {}
  | _ => True

/-- A call finds ordinals left for the records it can append. -/
def Numbered (fabric : Fabric) : SessionEvent → Prop
  | .call _ _ => fabric.OrdinalsLeft
  | _ => True

/-- The limits of a reader that none of these records reaches. -/
structure LargeEnough (records : List JournalRecord) (contents : Bytes) (config : JournalConfig) : Prop where
  width : config.maxRecordBytes < 2 ^ 32
  sizes : ∀ record ∈ records, recordPrefixBytes + record.body.length ≤ config.maxRecordBytes
  count : records.length < config.maxRecoveryRecords
  bytes : contents.length < config.maxRecoveryBytes

/-- The file reads as `records`, which have consecutive ordinals, up to its last byte, and no opening that can read
all of them refuses it as degraded. -/
structure Rereadable (contents : Bytes) (records : List JournalRecord) : Prop where
  filed : ∃ header : Bytes, header.length = fileHeaderBytes ∧ contents = header ++ encodeRecords records
  consecutive : Consecutive records
  read : ∀ config, LargeEnough records contents config →
    ∃ reader, (JournalReader.openReader {} config ⟨some contents, none⟩).1 = .inr reader ∧
      JournalReader.Reads contents records false reader.readAll
  opens : ∀ (config : FabricConfig) (reader : JournalReader) (derived : UInt64) (publishedAt : Int64),
    LargeEnough records contents config.journal → Replays config {} ⟨some contents, none⟩ reader →
      ¬ RefusedAsCorrupt ((new config derived publishedAt).initializeFabric {} ⟨some contents, none⟩)

structure InSession (fabric : Fabric) : Prop where
  reachable : Reachable fabric
  journaling : fabric.Journaling
  sequenced : ∃ records, records ≠ [] ∧ Sequenced records fabric

section Session
variable {fabric : Fabric}

section
variable (h : InSession fabric)
include h

theorem InSession.call {call : FabricCall} {io : CallIo} (hio : io.compaction = {}) (hleft : fabric.OrdinalsLeft) :
    InSession (fabric.respond (call, io)).2 := by
  obtain ⟨records, hworks⟩ := respond_works io h.reachable.sound h.journaling h.reachable.globalHistory call
  obtain ⟨earlier, hsome, hsequenced⟩ := h.sequenced
  refine ⟨h.reachable.called call io, ?_, hsequenced.works hsome hworks hio hleft⟩
  obtain ⟨-, last, htrail, hafter | hafter⟩ := hworks
  · rw [hafter]
    exact htrail.enqueues.journaling h.journaling
  · rw [hafter]
    exact (htrail.enqueues.journaling h.journaling).of_only (maybeCompact_only _ _)

theorem InSession.compact : InSession (fabric.compact {}).2 := by
  obtain ⟨earlier, hsome, hsequenced⟩ := h.sequenced
  exact ⟨h.reachable.compacted {}, h.journaling.of_only (compact_only _ _), hsequenced.compact hsome⟩

theorem InSession.flush (io : FlushIo) : InSession (fabric.flush io).2 := by
  obtain ⟨earlier, hsome, hsequenced⟩ := h.sequenced
  exact ⟨h.reachable.flushed io, h.journaling.of_only (flush_only _ _), earlier, hsome, hsequenced.flush io⟩

theorem InSession.write (steps : List WriterStep) : InSession (fabric.letWriterRun steps) := by
  obtain ⟨earlier, hsome, hsequenced⟩ := h.sequenced
  exact ⟨h.reachable.wrote steps, h.journaling.of_only (letWriterRun_only _ _), earlier, hsome,
    hsequenced.letWriterRun steps⟩

theorem InSession.step (event : SessionEvent) (hgranted : event.Granted) (hnumbered : fabric.Numbered event) :
    InSession (fabric.sessionStep event) := by
  cases event with
  | call call io => exact h.call hgranted hnumbered
  | compact io =>
    obtain rfl : io = {} := hgranted
    exact h.compact
  | flush io => exact h.flush io
  | write steps => exact h.write steps

end

theorem rereadable_of_ordered {records : List JournalRecord} {header : Bytes} (hlength : header.length = fileHeaderBytes)
    (hvalid : validateFileHeader header = .ok ()) (hconsecutive : Consecutive records)
    (hknown : ∀ record ∈ records, record.kind ≠ .count) : Rereadable (header ++ encodeRecords records) records := by
  have hread : ∀ config, LargeEnough records (header ++ encodeRecords records) config →
      ∃ reader, (JournalReader.openReader {} config ⟨some (header ++ encodeRecords records), none⟩).1 = .inr reader ∧
        JournalReader.Reads (header ++ encodeRecords records) records false reader.readAll := by
    intro config hlarge
    have hbytes := hlarge.bytes
    rw [List.length_append] at hbytes
    refine ⟨_, JournalReader.openReader_valid config none _ hlength hvalid, ?_⟩
    refine JournalReader.readAll_whole none hlength ?_ hlarge.count (by omega)
    refine JournalReader.readable_of_consecutive records none ?_ hconsecutive (fun _ _ _ hnone => nomatch hnone)
    intro record hrecord
    have hsize := hlarge.sizes record hrecord
    have hwidth := hlarge.width
    exact ⟨hsize, by omega, hknown record hrecord⟩
  refine ⟨⟨header, hlength, rfl⟩, hconsecutive, hread, ?_⟩
  intro config reader derived publishedAt hlarge hreplays hrefused
  obtain ⟨other, hopened, hreads⟩ := hread config.journal hlarge
  obtain rfl : other = reader := Sum.inr.inj (hopened.symm.trans hreplays.opened)
  have hdegraded := (refusedAsCorrupt_iff hreplays derived publishedAt).mp hrefused
  rw [hreads.degraded] at hdegraded
  cases hdegraded

theorem InSession.close (h : InSession fabric) {io : StopIo}
    (hclose : (stopDetached io fabric.detachJournal.1).1 = .ok ()) :
    ∃ journal records, (stopDetached io fabric.detachJournal.1).2 = some journal ∧
      Rereadable journal.contents records := by
  obtain ⟨journal, hjournal, -⟩ := h.journaling
  have hdetached : fabric.detachJournal.1 = some journal := by
    unfold detachJournal
    rw [if_neg (by simp [hjournal])]
    exact hjournal
  rw [hdetached] at hclose ⊢
  obtain ⟨records, -, hsequenced⟩ := h.sequenced
  have hordered := hsequenced.ordered journal hjournal
  obtain ⟨header, hlength, hvalid, hintact⟩ := hordered.filed
  refine ⟨_, records, rfl, ?_⟩
  rw [hintact.stop hclose]
  exact rereadable_of_ordered hlength hvalid hordered.consecutive hordered.known

end Session

/-- A session that begins behind the last record of its file leaves a file that can be read to its end. -/
theorem session_rereadable (config : FabricConfig) (henabled : config.journal.enabled = true) (derived : UInt64)
    (publishedAt : Int64) (io : InitializeIo) (disk : Disk)
    (hopen : ((new config derived publishedAt).initializeFabric io disk).1 = .ok ()) (hio : io.compaction = {})
    (hthrough : ReadsThrough config io disk) (events : List SessionEvent) (hgranted : ∀ event ∈ events, event.Granted)
    (hnumbered : session.Meets Numbered ((new config derived publishedAt).initializeFabric io disk).2 events)
    (stop : StopIo)
    (hclose : (stopDetached stop (session.final ((new config derived publishedAt).initializeFabric io disk).2
      events).detachJournal.1).1 = .ok ()) :
    ∃ journal records, (stopDetached stop (session.final ((new config derived publishedAt).initializeFabric io disk).2
      events).detachJournal.1).2 = some journal ∧ Rereadable journal.contents records := by
  have hstart : InSession ((new config derived publishedAt).initializeFabric io disk).2 :=
    ⟨.opened config derived publishedAt io disk hopen, opened_journaling henabled hopen,
      opened_sequenced henabled hopen hio hthrough⟩
  have hmeets := session.meets_and (session.meets_of_forall _ hgranted) hnumbered
  exact (session.invariant (fun fabric event hin hboth => hin.step event hboth.1 hboth.2) hstart hmeets).close hclose

/-! ## A reader that stops before the end -/

theorem Rereadable.verified {contents : Bytes} {records : List JournalRecord} (h : Rereadable contents records)
    (config : JournalConfig) (hwidth : config.maxRecordBytes < 2 ^ 32) (hsizes : contents.length ≤ config.maxRecordBytes)
    (hcount : contents.length < config.maxRecoveryRecords) (hbytes : contents.length < config.maxRecoveryBytes)
    {reader : JournalReader} (hopened : (JournalReader.openReader {} config ⟨some contents, none⟩).1 = .inr reader) :
    reader.readAll.2.report.degraded = false := by
  obtain ⟨header, -, hcontents⟩ := h.filed
  have hlength := congrArg List.length hcontents
  rw [List.length_append] at hlength
  have hmany := encodeRecords_length_le records
  have hlarge : LargeEnough records contents config := by
    refine ⟨hwidth, ?_, by omega, hbytes⟩
    intro record hrecord
    obtain ⟨before, after, rfl⟩ := List.append_of_mem hrecord
    rw [encodeRecords_append, encodeRecords_cons, List.length_append, List.length_append, encodeRecordBytes_length]
      at hlength
    omega
  obtain ⟨other, hother, hreads⟩ := h.read config hlarge
  obtain rfl : other = reader := Sum.inr.inj (hother.symm.trans hopened)
  exact hreads.degraded

def registration : List SessionEvent :=
  [.call (.registerLink ⟨text "a", 1⟩ ⟨0, true⟩) { now := ⟨0, 0⟩ }, .compact {}, .flush {}]

theorem readsThrough_of_opened {config : FabricConfig} {io : InitializeIo} {disk : Disk} (reader : JournalReader)
    (hopened : (JournalReader.openReader io.reader config.journal disk).1 = .inr reader)
    (hend : reader.readAll.2.report.limitReached = true → reader.contents.length ≤ reader.readAll.2.lastGoodOffset)
    (hwraps : reader.readAll.2.expectedOrdinal ≠ some 0) : ReadsThrough config io disk := by
  intro other hother
  obtain rfl : reader = other := Sum.inr.inj (hopened.symm.trans hother)
  exact ⟨hend, hwraps⟩

theorem one_record_rereadable :
    (stopDetached {} (session.final ((new plainConfig 1 0).initializeFabric {} emptyDeclarationDisk).2
        registration).detachJournal.1).1 = .ok () ∧
      ∃ journal records, (stopDetached {} (session.final ((new plainConfig 1 0).initializeFabric {}
        emptyDeclarationDisk).2 registration).detachJournal.1).2 = some journal ∧
          Rereadable journal.contents records := by
  have hordinals : ((new plainConfig 1 0).initializeFabric {} emptyDeclarationDisk).2.OrdinalsLeft := by decide +kernel
  exact ⟨by decide +kernel, session_rereadable plainConfig (by decide) 1 0 {} emptyDeclarationDisk (by decide +kernel) rfl
    (readsThrough_of_opened emptyDeclarationReader (by decide +kernel) (by decide +kernel) (by decide +kernel))
    registration (by simp [registration, SessionEvent.Granted]) ⟨hordinals, trivial, trivial, trivial⟩ {}
    (by decide +kernel)⟩

def singleConfig : FabricConfig :=
  { plainConfig with journal := { plainConfig.journal with maxRecoveryRecords := 1 } }

def twoRecords : Disk :=
  ⟨some (buildFileHeader 1 0 ++ encodeRecords [⟨.capability, 0, []⟩, ⟨.capability, 1, []⟩]), none⟩

def singleSession : Fabric :=
  session.final ((new singleConfig 1 0).initializeFabric {} twoRecords).2
    [.call (.registerLink ⟨text "a", 1⟩ ⟨0, true⟩) { now := ⟨0, 0⟩ }]

def singleFile : Bytes := ((stopDetached {} singleSession.detachJournal.1).2.map (·.contents)).getD []

/-- The reader stops behind the first of two records, and the next record takes the ordinal of the second. -/
theorem ordinal_used_twice :
    ((new singleConfig 1 0).initializeFabric {} twoRecords).1 = .ok () ∧
      (stopDetached {} singleSession.detachJournal.1).1 = .ok () ∧
      ∀ journal records, (stopDetached {} singleSession.detachJournal.1).2 = some journal →
        ¬ Rereadable journal.contents records := by
  refine ⟨by decide +kernel, by decide +kernel, ?_⟩
  intro journal records hjournal hreadable
  have hfile : journal.contents = singleFile := by rw [singleFile, hjournal]; rfl
  rw [hfile] at hreadable
  have hlength : singleFile.length < 2 ^ 10 := by decide +kernel
  have hdegraded : (JournalReader.freshReader plainConfig.journal none singleFile).readAll.2.report.degraded = true := by
    decide +kernel
  have hopened : (JournalReader.openReader {} plainConfig.journal ⟨some singleFile, none⟩).1 =
      .inr (JournalReader.freshReader plainConfig.journal none singleFile) := by decide +kernel
  have hverified := hreadable.verified plainConfig.journal (by decide) (hlength.le.trans (by decide))
    (hlength.trans (by decide)) (hlength.trans (by decide)) hopened
  exact Bool.noConfusion (hverified.symm.trans hdegraded)

end Fabric

end Lqf
