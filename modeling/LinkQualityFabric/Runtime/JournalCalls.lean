import LinkQualityFabric.Runtime.Recovery

/-! What a call makes of the journal.

A call is its unlocked part and its locked part. Inside the locked part the only thing that touches the
journal is `journal_append`; whether it takes a record is decided by the state of the queue and by the
size of the body. -/
namespace Lqf
open Foundations
set_option autoImplicit false

namespace BackgroundJournal

/-- The checks of `append`, over a body of `size` bytes. -/
def CanTake (journal : BackgroundJournal) (ordinal : UInt64) (size : ℕ) : Prop :=
  size ≤ journal.config.maxRecordBytes ∧ journal.isOpen = true ∧ journal.accepting = true ∧ journal.failure = none ∧
    journal.queue.length < journal.config.maxQueueDepth ∧ ∀ last ∈ journal.lastEnqueued, ordinal = last + 1

instance (journal : BackgroundJournal) (ordinal : UInt64) (size : ℕ) : Decidable (journal.CanTake ordinal size) :=
  inferInstanceAs (Decidable (_ ∧ _))

def queued (journal : BackgroundJournal) (record : JournalRecord) : BackgroundJournal :=
  { journal with lastEnqueued := some record.ordinal, queue := journal.queue ++ [record] }

variable {journal : BackgroundJournal} {ordinal : UInt64} {body : Bytes} (kind : JournalRecordKind)

theorem append_of_canTake (henabled : journal.config.enabled = true) (h : journal.CanTake ordinal body.length) :
    journal.append kind ordinal body = .ok (journal.queued ⟨kind, ordinal, body⟩) := by
  obtain ⟨hsize, hopen, haccepting, hfailure, hroom, hordinal⟩ := h
  exact append_eq_ok.mpr ⟨henabled, hsize, hopen, haccepting, hfailure, hroom, hordinal, rfl⟩

theorem append_of_not_canTake (h : ¬ journal.CanTake ordinal body.length) :
    ∃ status, journal.append kind ordinal body = .error status := by
  cases happend : journal.append kind ordinal body with
  | error status => exact ⟨status, rfl⟩
  | ok after =>
    obtain ⟨-, hsize, hopen, haccepting, hfailure, hroom, hordinal, -⟩ := append_eq_ok.mp happend
    exact absurd ⟨hsize, hopen, haccepting, hfailure, hroom, hordinal⟩ h

theorem append_avoids_refused (henabled : journal.config.enabled = true) (h : journal.Unrefused)
    (kind : JournalRecordKind) (ordinal : UInt64) (body : Bytes) :
    Outcome.Avoids .refused (journal.append kind ordinal body) := by
  unfold append
  rw [Outcome.refuseIf_of_not (by simp [henabled]), Outcome.ok_bind]
  refine Outcome.avoids_check (by decide) ?_
  refine Outcome.avoids_check (by decide) ?_
  refine Outcome.avoids_bind ?_ fun _ => ?_
  · intro status hstatus
    cases hfailure : journal.failure with
    | none => simp [hfailure] at hstatus
    | some failure =>
      rw [hfailure] at hstatus
      obtain rfl : failure = status := Except.error.inj hstatus
      exact h failure hfailure
  · refine Outcome.avoids_check (by decide) ?_
    refine Outcome.avoids_check (by decide) ?_
    exact Outcome.avoids_ok _

end BackgroundJournal

namespace Fabric
open BackgroundJournal

/-! ## The two parts of a call -/

variable (fabric : Fabric) (io : InitializeIo)

theorem respond_eq (call : FabricCall) (io : CallIo) :
    fabric.respond (call, io) =
      match fabric.passes call with
      | .error status => (.error status, fabric)
      | .ok () => (fabric.letWriterRun io.writer).respondLocked (call, io) := by
  cases hopen : fabric.isOpen with
  | false => cases call <;> simp [respond, passes, replyWith, declareCapability, registerLink, advanceLinkGeneration,
      publishPolicy, ingest, hopen, refuseIf, fail, fabricClosed] <;> rfl
  | true =>
    cases call with
    | declareCapability declaration =>
      simp only [respond, passes, declareCapability, hopen, refuseIf, respondLocked]
      cases validateCapability declaration fabric.catalog fabric.observationLimits
        fabric.config.limits.maxMetricsPerCapability <;> rfl
    | registerLink link observedAt =>
      simp only [respond, passes, registerLink, hopen, refuseIf, respondLocked]
      cases validateLinkIdentity link <;> rfl
    | advanceLinkGeneration link reason => simp [respond, passes, advanceLinkGeneration, hopen, refuseIf, respondLocked]
    | publishPolicy document => simp [respond, passes, publishPolicy, hopen, refuseIf, respondLocked]
    | ingest observation => simp [respond, passes, ingest, hopen, refuseIf, respondLocked]

theorem flush_only (io : FlushIo) : JournalRuns fabric (fabric.flush io).2 := by
  unfold Fabric.flush
  split
  · exact .refl fabric
  · next journal hactive =>
    exact ⟨⟨rfl, rfl, rfl, rfl, rfl, rfl⟩, (activeJournal_enabled hactive).1 ▸ .some (.flush journal io)⟩

theorem journalInitialPolicy_only (initial : PolicyGenerationRecord) (fresh : Bool) :
    JournalRuns fabric (fabric.journalInitialPolicy io initial fresh).2 := by
  unfold journalInitialPolicy
  split
  · split
    · exact .refl fabric
    · exact journalAppend_only _ _ _ _
  · exact .refl fabric

theorem compactOnOpen_only : JournalRuns fabric (fabric.compactOnOpen io).2 := by
  have honly := fabric.compact_only io.compaction
  unfold compactOnOpen
  split
  · split
    · next hresult =>
      rw [hresult] at honly
      split <;> exact honly
    · next hresult =>
      rw [hresult] at honly
      exact honly
  · exact .refl fabric

/-! ## What the journal takes -/

def Takes (io : AppendIo) (size : ℕ) (fabric : Fabric) : Prop :=
  ∀ journal ∈ (fabric.letWriterRun io.beforeProbe).activeJournal,
    journal.hasCapacity = true ∧ (journal.progress io.beforeAppend).CanTake fabric.nextOrdinal size

instance (io : AppendIo) (size : ℕ) (fabric : Fabric) : Decidable (fabric.Takes io size) :=
  inferInstanceAs (Decidable (∀ journal ∈ (fabric.letWriterRun io.beforeProbe).activeJournal, _))

section Append
variable {io : AppendIo} {kind : JournalRecordKind} {body : Bytes} {fabric : Fabric}

theorem journalAppend_unjournaled (h : (fabric.letWriterRun io.beforeProbe).activeJournal = none) :
    fabric.journalAppend io kind body = (.ok (), fabric.letWriterRun io.beforeProbe) := by
  rw [journalAppend, appendProbed, h]

theorem journalAppend_taken {journal : BackgroundJournal}
    (hjournal : (fabric.letWriterRun io.beforeProbe).activeJournal = some journal) (h : fabric.Takes io body.length) :
    fabric.journalAppend io kind body = (.ok (), (fabric.letWriterRun io.beforeProbe).enqueued kind body
      ((journal.progress io.beforeAppend).queued ⟨kind, fabric.nextOrdinal, body⟩)) := by
  obtain ⟨hroom, htake⟩ := h journal hjournal
  have henabled : (journal.progress io.beforeAppend).config.enabled = true := by
    rw [progress_config]
    exact (activeJournal_enabled hjournal).2
  have happend := append_of_canTake kind henabled htake
  rw [journalAppend, appendProbed, hjournal]
  dsimp only
  rw [if_pos hroom, appendRecord]
  rw [show (fabric.letWriterRun io.beforeProbe).nextOrdinal = fabric.nextOrdinal from rfl, happend]

theorem journalAppend_refused (kind : JournalRecordKind) (h : ¬ fabric.Takes io body.length) :
    ∃ status, (fabric.journalAppend io kind body).1 = .error status := by
  simp only [Takes, Option.mem_def, not_forall] at h
  obtain ⟨journal, hjournal, hnot⟩ := h
  rw [journalAppend, appendProbed, hjournal]
  dsimp only
  by_cases hroom : journal.hasCapacity = true
  · obtain ⟨status, hstatus⟩ := append_of_not_canTake kind (fun htake => hnot ⟨hroom, htake⟩)
    rw [if_pos hroom, appendRecord]
    rw [show (fabric.letWriterRun io.beforeProbe).nextOrdinal = fabric.nextOrdinal from rfl, hstatus]
    exact ⟨status, rfl⟩
  · rw [if_neg hroom]
    exact ⟨_, rfl⟩

theorem journalAppend_ok_iff : (fabric.journalAppend io kind body).1 = .ok () ↔ fabric.Takes io body.length := by
  constructor
  · intro hok
    by_contra hnot
    obtain ⟨status, hstatus⟩ := journalAppend_refused kind hnot
    rw [hok] at hstatus
    cases hstatus
  · intro htakes
    cases hjournal : (fabric.letWriterRun io.beforeProbe).activeJournal with
    | none => rw [journalAppend_unjournaled hjournal]
    | some journal => rw [journalAppend_taken hjournal htakes]

theorem journalAppend_avoids_refused (io : AppendIo) (kind : JournalRecordKind) (body : Bytes)
    (h : ∀ journal ∈ fabric.journal, journal.Unrefused) :
    Outcome.Avoids .refused (fabric.journalAppend io kind body).1 := by
  rw [journalAppend, appendProbed]
  split
  · exact Outcome.avoids_ok ()
  · next journal hjournal =>
    obtain ⟨hsome, henabled⟩ := activeJournal_enabled hjournal
    have hunrefused := (fabric.letWriterRun_only io.beforeProbe).unrefused h journal hsome
    split
    · unfold appendRecord
      have havoids := append_avoids_refused (by rw [progress_config]; exact henabled)
        ((Continues.progress journal io.beforeAppend).unrefused hunrefused) kind
        (fabric.letWriterRun io.beforeProbe).nextOrdinal body
      split
      · next status hstatus =>
        intro other hother
        obtain rfl := Except.error.inj hother
        exact havoids status hstatus
      · exact Outcome.avoids_ok ()
    · exact Outcome.avoids_fail _ (by decide)

end Append

end Fabric

end Lqf
