import LinkQualityFabric.Runtime.Ledger

/-! The records of a fabric and the file of its journal.

While the journal has not failed, its file and its writer hold every record the fabric has handed over behind
what the file began with. Trails and the writer keep this, a stop that succeeds leaves all of the records in
the file, and a fabric that has opened starts with its journal at the end of the file. -/
namespace Lqf
open Foundations
set_option autoImplicit false

namespace Fabric
open BackgroundJournal

/-! ## The calls -/

/-- A trail of at most two records, and perhaps a compaction behind it. -/
def Works (io : CallIo) (before : Fabric) (records : List JournalRecord) (after : Fabric) : Prop :=
  records.length ≤ 2 ∧ ∃ last, Trail before records last ∧ (after = last ∨ after = last.maybeCompact io.compaction)

section Calls
variable {fabric : Fabric} {io : CallIo}

variable {after : Fabric} {records : List JournalRecord} {changed : Fabric} {body : Bytes}
  {linked : List JournalRecord}

theorem works_of_trail (hfew : records.length ≤ 2) (h : Trail fabric records after) :
    Works io fabric records after := ⟨hfew, after, h, .inl rfl⟩

theorem works_beside (h : SameJournal fabric after) : Works io fabric [] after :=
  works_of_trail (by simp) h.trail

theorem Ends.works {result : Outcome FabricReply × Fabric} {call : FabricCall} (h : Ends fabric io call result)
    (hjournaling : fabric.Journaling) : ∃ records, Works io fabric records result.2 := by
  cases h with
  | kept stats degraded _ => exact ⟨[], works_beside ⟨rfl, rfl, rfl, rfl, rfl⟩⟩
  | unencoded _ hplan => exact ⟨[], works_beside hplan.sameJournal⟩
  | @appended changed kind body _ _ _ hplan _ _ =>
    have hchanged := hplan.sameJournal
    have happends := journalAppend_appends io.record kind body (hchanged.journaling hjournaling) hplan.ownKind.2
    generalize changed.journalAppend io.record kind body = appended at happends ⊢
    cases happends with
    | taken htrail _ | refused _ _ htrail _ =>
      exact ⟨_, works_of_trail (by simp) (.beside (.after_beside hchanged htrail) ⟨rfl, rfl, rfl, rfl, rfl⟩)⟩

/-- The answer says that the observation is stored, and does not say that it is not durable. -/
def Acknowledged (answer : Outcome IngestOutcome) : Prop :=
  ∃ outcome, answer = .ok outcome ∧ outcome.accepted = true ∧ outcome.reason ≠ .persistenceDegraded

instance (answer : Outcome IngestOutcome) : Decidable (Acknowledged answer) :=
  decidable_of_iff (answer.toOption.any fun outcome => outcome.accepted && outcome.reason != .persistenceDegraded) (by
    cases answer <;> simp [Acknowledged, Except.toOption])

/-- What `ingest` has done: an acknowledged observation is the last one of the history, and its record is on
the trail. -/
def IngestWorks (io : CallIo) (before : Fabric) (result : Outcome IngestOutcome × Fabric) : Prop :=
  ∃ records, Works io before records result.2 ∧ (Acknowledged result.1 →
    ∃ stored ∈ result.2.evidence.history.getLast?, ∃ record ∈ records, Carries before.codecLimits stored record)

theorem ingestWorks_error {status : Status} (h : Works io fabric records after) :
    IngestWorks io fabric (.error status, after) :=
  ⟨records, h, fun ⟨_, houtcome, _⟩ => nomatch houtcome⟩

theorem Settles.works {observation : Observation} {received : ReceiveStamp} {fenced : Bool}
    {result : Outcome IngestOutcome × Fabric} (h : Settles changed io observation received fenced result)
    (hlinked : linked.length ≤ 1) (hfirst : Trail fabric linked changed)
    (hhistory : 1 ≤ changed.evidence.limits.maxGlobalHistory) : IngestWorks io fabric result := by
  have hlimits : changed.codecLimits = fabric.codecLimits := by
    unfold codecLimits
    rw [hfirst.config]
  cases h with
  | refused _ => exact ingestWorks_error (works_of_trail (by omega) (.beside hfirst ⟨rfl, rfl, rfl, rfl, rfl⟩))
  | @taken outcome evidence body after hstored hbody _ honly htrail =>
    refine ⟨linked ++ [⟨.evidence, changed.nextOrdinal, body⟩], ⟨?_, after.tally (countOutcome outcome), ?_, .inr rfl⟩, ?_⟩
    · rw [List.length_append, List.length_singleton]
      omega
    · exact .beside (hfirst.trans htrail) ⟨rfl, rfl, rfl, rfl, rfl⟩
    · rintro ⟨answered, hanswer, haccepted, -⟩
      have hkept : outcome.accepted = true := by
        obtain rfl := Except.ok.inj hanswer
        cases fenced <;> exact haccepted
      have hlast := EvidenceStore.append_last (congrArg Prod.fst hstored) hkept hhistory
      rw [hstored] at hlast
      refine ⟨_, ?_, _, List.mem_append_right _ List.mem_cons_self, rfl, rfl, hlimits ▸ hbody⟩
      show ((after.tally (countOutcome outcome)).maybeCompact io.compaction).evidence.history.getLast? = some _
      rw [(maybeCompact_only _ _).state, (after.tally_only _).state, honly.state]
      exact hlast
  | @lost outcome _ after _ _ htrail _ =>
    have hwhole := hfirst.trans htrail
    rw [List.append_nil] at hwhole
    refine ⟨linked, works_of_trail (by omega) (.beside hwhole ⟨rfl, rfl, rfl, rfl, rfl⟩), ?_⟩
    rintro ⟨answered, hanswer, -, hreason⟩
    obtain rfl := Except.ok.inj hanswer
    exact absurd rfl hreason

theorem ingest_works (io : CallIo) (hsound : fabric.Sound) (hjournaling : fabric.Journaling)
    (hhistory : 1 ≤ fabric.evidence.limits.maxGlobalHistory) (observation : Observation) :
    IngestWorks io fabric (fabric.ingestLocked io observation) := by
  have hoffers := ingestLocked_offers io hsound hjournaling observation
  generalize fabric.ingestLocked io observation = result at hoffers ⊢
  cases hoffers with
  | kept status stats => exact ingestWorks_error (works_beside ⟨rfl, rfl, rfl, rfl, rfl⟩)
  | unlinked status htrail _ =>
    exact ingestWorks_error (works_of_trail (by simp) (.beside htrail ⟨rfl, rfl, rfl, rfl, rfl⟩))
  | @linked links linked _ _ _ hpart htrail _ hsettles =>
    refine hsettles.works hpart.spec.2.1 htrail ?_
    rw [(fabric.entered_only io observation links).state]
    exact (EvidenceStore.dropLinks_limits _ _).symm ▸ hhistory

theorem respondLocked_works (io : CallIo) (hsound : fabric.Sound) (hjournaling : fabric.Journaling)
    (hhistory : 1 ≤ fabric.evidence.limits.maxGlobalHistory) (call : FabricCall) :
    ∃ records, Works io fabric records (fabric.respondLocked (call, io)).2 := by
  cases call with
  | ingest observation =>
    obtain ⟨records, hworks, -⟩ := ingest_works io hsound hjournaling hhistory observation
    exact ⟨records, hworks⟩
  | _ => exact (respondLocked_ends fabric _ io (by simp)).works hjournaling

theorem Works.letWriterRun {steps : List WriterStep} (h : Works io (fabric.letWriterRun steps) records after) :
    Works io fabric records after := by
  obtain ⟨hfew, last, htrail, hafter⟩ := h
  refine ⟨hfew, last, ?_, hafter⟩
  have hrun : Trail fabric [] (fabric.letWriterRun steps) := .writer steps .start
  have hwhole := hrun.trans htrail
  rwa [List.nil_append] at hwhole

theorem respond_works (io : CallIo) (hsound : fabric.Sound) (hjournaling : fabric.Journaling)
    (hhistory : 1 ≤ fabric.evidence.limits.maxGlobalHistory) (call : FabricCall) :
    ∃ records, Works io fabric records (fabric.respond (call, io)).2 := by
  rw [respond_eq]
  split
  · exact ⟨[], works_beside ⟨rfl, rfl, rfl, rfl, rfl⟩⟩
  · obtain ⟨records, hworks⟩ := respondLocked_works io (hsound.of_only (letWriterRun_only _ _))
      (hjournaling.of_only (letWriterRun_only _ _)) hhistory call
    exact ⟨records, hworks.letWriterRun⟩

end Calls

end Fabric

namespace BackgroundJournal

/-! ## A journal that has not failed -/

/-- Until it fails, the journal stands at the end of its file. -/
def AtEnd (journal : BackgroundJournal) : Prop :=
  journal.failure = none → journal.position = some journal.contents.length

def Intact (base : Bytes) (records : List JournalRecord) (journal : BackgroundJournal) : Prop :=
  journal.failure = none → Holds base records journal

theorem take_failure (journal : BackgroundJournal) : journal.take.failure = journal.failure := by
  unfold take
  split <;> rfl

variable {journal : BackgroundJournal} (io : CompactIo)

theorem finish_unfailed {short : Option ℕ} (h : (journal.finish short).failure = none) :
    journal.failure = none ∧ journal.finish short = journal.finish none := by
  cases hwriting : journal.writing with
  | none =>
    have hsame : ∀ short, journal.finish short = journal := fun short => by simp [finish, hwriting]
    rw [hsame] at h
    exact ⟨h, by rw [hsame, hsame]⟩
  | some record =>
    cases hposition : journal.position with
    | none => simp [finish, hwriting, hposition, failWith] at h
    | some position =>
      cases short with
      | none =>
        simp only [finish, hwriting, hposition] at h
        exact ⟨h, rfl⟩
      | some count => simp [finish, hwriting, hposition, failWith] at h

section Intact
variable {base : Bytes} {records : List JournalRecord} {journal : BackgroundJournal}

section
variable (h : Intact base records journal)
include h

theorem Intact.take : Intact base records journal.take := by
  intro hfailure
  rw [take_failure] at hfailure
  exact (h hfailure).take

theorem Intact.finish (short : Option ℕ) : Intact base records (journal.finish short) := by
  intro hfailure
  obtain ⟨hbefore, hsame⟩ := finish_unfailed hfailure
  rw [hsame]
  exact (h hbefore).finish

theorem Intact.progress (steps : List WriterStep) : Intact base records (journal.progress steps) := by
  induction steps generalizing journal with
  | nil => exact h
  | cons step rest ih =>
    cases step with
    | take => exact ih h.take
    | finish short => exact ih (h.finish short)

theorem Intact.drainQueue (count : ℕ) (shorts : List (Option ℕ)) :
    Intact base records (drainQueue count shorts journal) := by
  induction count generalizing journal shorts with
  | zero => exact h
  | succ count ih => exact ih (h.take.finish _) shorts.tail

theorem Intact.awaitIdle (shorts : List (Option ℕ)) : Intact base records (journal.awaitIdle shorts) := by
  unfold BackgroundJournal.awaitIdle
  split
  · exact h.drainQueue _ shorts
  · exact h

end

theorem Intact.append {after : BackgroundJournal} {kind : JournalRecordKind} {ordinal : UInt64} {body : Bytes}
    (h : Intact base records journal) (happend : journal.append kind ordinal body = .ok after) :
    Intact base (records ++ [⟨kind, ordinal, body⟩]) after := by
  intro _
  obtain ⟨-, -, -, -, hfailure, -, -, -⟩ := append_eq_ok.mp happend
  exact (h hfailure).append happend

theorem closeResult_unfailed {io : StopIo} (h : closeResult io journal = .ok ()) : journal.failure = none := by
  unfold closeResult at h
  split at h
  · cases h
  · cases h
  · assumption

theorem joinWriter_unfailed {io : StopIo} (h : (joinWriter io journal).failure = none) :
    joinWriter io journal = journal.settle io.writes := by
  unfold joinWriter at h ⊢
  dsimp only at h ⊢
  split at h
  · cases h
  · rfl

theorem Intact.settle (h : Intact base records journal) {shorts : List (Option ℕ)}
    (hfailure : (journal.settle shorts).failure = none) :
    (journal.settle shorts).contents = base ++ encodeRecords records := by
  have hholds : Holds base records (journal.settle shorts) := h.drainQueue _ shorts hfailure
  exact hholds.contents (drainQueue_pending _ _ _ le_rfl)

theorem Intact.stop (h : Intact base records journal) {io : StopIo} (hok : (journal.stop io).1 = .ok ()) :
    (journal.stop io).2.contents = base ++ encodeRecords records := by
  have hstopping : Intact base records { journal with stopping := true, accepting := false } := fun hfailure =>
    ⟨(h hfailure).position_eq, (h hfailure).written⟩
  have hfailure := closeResult_unfailed hok
  have hsettled := joinWriter_unfailed hfailure
  show (joinWriter io { journal with stopping := true, accepting := false }).contents = _
  rw [hsettled] at hfailure ⊢
  exact hstopping.settle hfailure

end Intact

theorem AtEnd.intact (h : journal.AtEnd) :
    Intact journal.contents journal.pending journal := fun hfailure => holds_start (h hfailure)

theorem Intact.atEnd {base : Bytes} {records : List JournalRecord} (h : Intact base records journal) :
    journal.AtEnd := fun hfailure => (h hfailure).position_eq

theorem fallBack_status (status : Status) (journal : BackgroundJournal) :
    (fallBack io status journal).1 = .error status := by
  unfold fallBack
  split <;> rfl

theorem replaceFile_atEnd (snapshot : JournalRecord) (journal : BackgroundJournal) :
    (replaceFile io snapshot journal).2.AtEnd ∨
      ∃ status, (replaceFile io snapshot journal).1 = .error status ∧ status.code ≠ .refused := by
  unfold replaceFile
  split
  · next hwrite => exact .inr ⟨_, fallBack_status _ _ _, writeTemporary_code hwrite⟩
  · exact .inr ⟨_, fallBack_status _ _ _, by decide⟩
  · unfold reopen
    split
    · exact .inl fun _ => rfl
    · exact .inr ⟨_, fallBack_status _ _ _, by decide⟩

theorem compact_atEnd (h : journal.AtEnd) (io : CompactIo) (ordinal : UInt64) (body : Bytes) :
    (journal.compact io ordinal body).2.AtEnd ∨
      ∃ status, (journal.compact io ordinal body).1 = .error status ∧ status.code ≠ .refused := by
  rcases compact_cases io ordinal body journal with ⟨_, _, hcompact, rfl | rfl⟩ | ⟨-, -, hcompact⟩
  · rw [hcompact]
    exact .inl h
  · rw [hcompact]
    exact .inl (h.intact.awaitIdle io.writes).atEnd
  · rw [hcompact]
    exact replaceFile_atEnd io _ _

end BackgroundJournal

namespace Fabric
open BackgroundJournal

/-! ## The records of a fabric and its file -/

/-- Until it fails, the journal of the fabric holds these records behind `base`. -/
def Filed (base : Bytes) (records : List JournalRecord) (fabric : Fabric) : Prop :=
  ∀ journal ∈ fabric.journal, Intact base records journal

section Filed
variable {base : Bytes} {records more : List JournalRecord} {fabric after : Fabric}

theorem Filed.letWriterRun (h : Filed base records fabric) (steps : List WriterStep) :
    Filed base records (fabric.letWriterRun steps) := by
  intro journal hjournal
  obtain ⟨before, hbefore, rfl⟩ := Option.map_eq_some_iff.mp hjournal
  exact (h before hbefore).progress steps

theorem Filed.trail (h : Filed base records fabric) (htrail : Trail fabric more after) :
    Filed base (records ++ more) after := by
  induction htrail with
  | start =>
    rw [List.append_nil]
    exact h
  | beside _ hsame ih => exact fun journal hjournal => ih journal (hsame.journal ▸ hjournal)
  | writer steps _ ih => exact ih.letWriterRun steps
  | @taken _ before journal appended kind body _ hactive happend _ ih =>
    intro other hother
    obtain rfl : appended = other := Option.some.inj hother
    rw [← List.append_assoc]
    exact (ih journal (activeJournal_enabled hactive).1).append happend

/-- No compaction comes due within the next two records. -/
def Calm (fabric : Fabric) : Prop :=
  fabric.config.journal.compactAfterRecords = 0 ∨
    fabric.recordsSinceCompaction.toNat + 2 < fabric.config.journal.compactAfterRecords.toNat

instance (fabric : Fabric) : Decidable fabric.Calm := inferInstanceAs (Decidable (_ ∨ _))

theorem Calm.not_due (h : fabric.Calm) (htrail : Trail fabric records after) (hfew : records.length ≤ 2) :
    ¬ after.CompactionDue := by
  rintro ⟨hafter, hdue⟩
  rw [htrail.config] at hafter hdue
  rw [htrail.since] at hdue
  rcases h with hzero | hless
  · exact hafter hzero
  · have hlength : (UInt64.ofNat records.length).toNat = records.length :=
      UInt64.toNat_ofNat_of_lt' (lt_of_le_of_lt hfew (by decide))
    rw [UInt64.le_iff_toNat_le, UInt64.toNat_add, hlength] at hdue
    omega

theorem maybeCompact_idle (h : ¬ fabric.CompactionDue) (io : CompactIo) : fabric.maybeCompact io = fabric := by
  unfold Fabric.maybeCompact
  split
  · rfl
  · rw [if_neg h]

theorem Works.trail {io : CallIo} (h : Works io fabric records after) (hcalm : fabric.Calm) :
    Trail fabric records after := by
  obtain ⟨hfew, last, htrail, rfl | rfl⟩ := h
  · exact htrail
  · rw [maybeCompact_idle (hcalm.not_due htrail hfew)]
    exact htrail

theorem filed_of_atEnd {journal : BackgroundJournal} (hjournal : fabric.journal = some journal) (h : journal.AtEnd) :
    Filed journal.contents journal.pending fabric := by
  intro other hother
  obtain rfl : journal = other := Option.some.inj (hjournal.symm.trans hother)
  exact h.intact

theorem Filed.atEnd (h : Filed base records fabric) : ∀ journal ∈ fabric.journal, journal.AtEnd :=
  fun journal hjournal => (h journal hjournal).atEnd

end Filed

/-! ## Opening -/

section Opening
variable {fabric : Fabric} {io : InitializeIo}

variable {journal : BackgroundJournal} {disk : Disk}

theorem compactJournal_atEnd (compaction : CompactIo) (hjournal : fabric.journal = some journal) (h : journal.AtEnd) :
    (∀ after ∈ (fabric.compactJournal compaction journal).2.journal, after.AtEnd) ∨
      ∃ status, (fabric.compactJournal compaction journal).1 = .error status ∧ status.code ≠ .refused := by
  have hcompacted := fun body => compact_atEnd h compaction fabric.snapshotOrdinal body
  unfold compactJournal
  split
  · refine .inl ?_
    intro other hother
    obtain rfl : journal = other := Option.some.inj (hjournal.symm.trans hother)
    exact h
  · next body _ =>
    have hbody := hcompacted body
    split
    · next after hcompact =>
      rw [hcompact] at hbody
      rcases hbody with hatEnd | ⟨status, hstatus, -⟩
      · exact .inl fun other hother => Option.some.inj hother ▸ hatEnd
      · cases hstatus
    · next status after hcompact =>
      rw [hcompact] at hbody
      rcases hbody with hatEnd | ⟨other, hstatus, hcode⟩
      · exact .inl fun other hother => Option.some.inj hother ▸ hatEnd
      · obtain rfl := Except.error.inj hstatus
        exact .inr ⟨status, rfl, hcode⟩

theorem compactOnOpen_atEnd (h : ∀ journal ∈ fabric.journal, journal.AtEnd) (hok : (fabric.compactOnOpen io).1 = .ok ()) :
    ∀ journal ∈ (fabric.compactOnOpen io).2.journal, journal.AtEnd := by
  unfold compactOnOpen compact at hok ⊢
  split
  · next hon =>
    rw [if_pos hon] at hok
    cases hactive : fabric.activeJournal with
    | none => exact h
    | some journal =>
      obtain ⟨hjournal, -⟩ := activeJournal_enabled hactive
      have hcompacted := compactJournal_atEnd io.compaction hjournal (h journal hjournal)
      rw [hactive] at hok
      dsimp only at hok ⊢
      cases hresult : fabric.compactJournal io.compaction journal with
      | mk answer after =>
        rw [hresult] at hok hcompacted
        rcases hcompacted with hatEnd | ⟨status, hstatus, hcode⟩
        · cases answer with
          | ok u => exact hatEnd
          | error status =>
            dsimp only
            split <;> exact hatEnd
        · obtain rfl : answer = .error status := hstatus
          simp only [if_neg hcode] at hok
          cases hok
  · exact h

theorem journalInitialPolicy_atEnd {initial : PolicyGenerationRecord} {fresh : Bool}
    (hjournal : fabric.journal = some journal) (henabled : journal.config.enabled = true) (h : journal.AtEnd) :
    ∀ after ∈ (fabric.journalInitialPolicy io initial fresh).2.journal, after.AtEnd := by
  have hfiled := filed_of_atEnd hjournal h
  unfold journalInitialPolicy
  split
  · split
    · exact hfiled.atEnd
    · next body _ =>
      have happends := journalAppend_appends io.record .policy body ⟨journal, hjournal, henabled⟩ (by decide)
      generalize fabric.journalAppend io.record .policy body = result at happends ⊢
      cases happends with
      | taken htrail _ | refused _ _ htrail _ => exact (hfiled.trail htrail).atEnd
  · exact hfiled.atEnd

theorem start_atEnd {io : StartIo} {config : JournalConfig} {epoch : UInt64} {wallNanos : Int64}
    (h : start io config disk epoch wallNanos = .ok journal) : journal.AtEnd := by
  obtain ⟨-, rfl⟩ := start_eq_ok h
  exact fun _ => rfl

theorem opened_atEnd {config : FabricConfig} {derived : UInt64} {publishedAt : Int64}
    (henabled : config.journal.enabled = true)
    (h : ((new config derived publishedAt).initializeFabric io disk).1 = .ok ()) :
    ∀ journal ∈ ((new config derived publishedAt).initializeFabric io disk).2.journal, journal.AtEnd := by
  obtain ⟨reader, hreplays⟩ := replays_of_opened henabled h
  rw [initializeFabric_of_replays hreplays] at h ⊢
  obtain ⟨-, repaired, recovery, -, hstarted⟩ := afterReplay_ok rfl h
  rw [hstarted] at h ⊢
  obtain ⟨journal, appended, compacted, hstart, hinitial, hcompact, hfinal⟩ := startJournal_ok h
  rw [hfinal]
  have happended : ∀ after ∈ appended.journal, after.AtEnd := by
    rw [← show _ = appended from congrArg Prod.snd hinitial]
    exact journalInitialPolicy_atEnd rfl (start_enabled hstart) (start_atEnd hstart)
  have hcompacted := compactOnOpen_atEnd happended (congrArg Prod.fst hcompact)
  rw [hcompact] at hcompacted
  exact hcompacted

end Opening

end Fabric

end Lqf
