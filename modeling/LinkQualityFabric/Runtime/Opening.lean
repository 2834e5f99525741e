import LinkQualityFabric.Runtime.ReplayMirror

/-! What a fabric that has opened went through.

An answer of success pins down every phase of `initialize`: the reader came to the end of what it could
verify, the tail was repaired if it was torn, the journal was started behind it, and the initial policy
was journaled if the journal was empty. -/
namespace Lqf.Fabric
set_option autoImplicit false

open BackgroundJournal

section Phases
variable {io : InitializeIo} {initial : PolicyGenerationRecord} {fabric : Fabric}

variable {config : FabricConfig} {derived : UInt64} {publishedAt : Int64} {disk : Disk}

theorem replays_of_opened (henabled : config.journal.enabled = true)
    (h : ((new config derived publishedAt).initializeFabric io disk).1 = .ok ()) :
    ∃ reader, Replays config io disk reader := by
  unfold initializeFabric at h
  split at h
  · cases h
  · next hchecked =>
    unfold bringUp at h
    split at h
    · cases h
    · next hpolicy =>
      rw [if_pos (show (new config derived publishedAt).config.journal.enabled = true from henabled)] at h
      unfold recover at h
      split at h
      · cases h
      · next reader hopened => exact ⟨reader, hchecked, henabled, hpolicy, hopened⟩

def Repaired (io : InitializeIo) (reader repaired : JournalReader) : Prop :=
  reader.report.tornTail = false ∧ repaired = reader ∨
    reader.report.tornTail = true ∧ reader.repairTornTail io.repair = (.ok (), repaired)

theorem afterReplay_ok {reader : JournalReader} (hreport : fabric.recovery = reader.report)
    (h : (fabric.afterReplay io initial reader).1 = .ok ()) :
    reader.report.degraded = false ∧ ∃ repaired recovery, Repaired io reader repaired ∧
      fabric.afterReplay io initial reader = ({ fabric with recovery := recovery } : Fabric).startJournal io initial
        (fabric.recovery.recordsRead = 0) ⟨some repaired.contents, none⟩ := by
  unfold afterReplay at h ⊢
  cases hdegraded : fabric.recovery.degraded with
  | true =>
    rw [if_pos hdegraded] at h
    cases h
  | false =>
    refine ⟨by rw [← hreport]; exact hdegraded, ?_⟩
    simp only [hdegraded, Bool.false_eq_true, if_false] at h ⊢
    cases htail : fabric.repairTail io reader with
    | error failed =>
      rw [htail] at h
      cases h
    | ok result =>
      obtain ⟨repaired, after⟩ := result
      unfold repairTail at htail
      cases htorn : fabric.recovery.tornTail with
      | false =>
        simp only [htorn, Bool.false_eq_true, if_false] at htail
        cases htail
        exact ⟨reader, _, .inl ⟨by rw [← hreport]; exact htorn, rfl⟩, rfl⟩
      | true =>
        simp only [htorn, if_true] at htail
        split at htail
        · cases htail
        · next hrepaired =>
          cases htail
          exact ⟨repaired, _, .inr ⟨by rw [← hreport]; exact htorn, hrepaired⟩, rfl⟩

theorem startJournal_ok {fresh : Bool} (h : (fabric.startJournal io initial fresh disk).1 = .ok ()) :
    ∃ journal appended compacted,
      start io.start fabric.config.journal disk fabric.epoch io.startedNanos = .ok journal ∧
        (fabric.startedWith journal).journalInitialPolicy io initial fresh = (.ok (), appended) ∧
        appended.compactOnOpen io = (.ok (), compacted) ∧
        fabric.startJournal io initial fresh disk = (.ok (), { compacted with isOpen := true }) := by
  unfold startJournal at h ⊢
  split at h
  · cases h
  · next journal hstart =>
    split at h
    · cases h
    · next appended hinitial =>
      cases hcompact : appended.compactOnOpen io with
      | mk answer compacted =>
        rw [hcompact] at h
        cases answer with
        | error status => cases h
        | ok u =>
          exact ⟨journal, appended, compacted, hstart, hinitial, hcompact, rfl⟩

theorem compactOnOpen_journaled (fabric : Fabric) (io : InitializeIo) :
    (fabric.compactOnOpen io).2.journaled = fabric.journaled := by
  have hjournaled : (fabric.compact io.compaction).2.journaled = fabric.journaled := by
    unfold compact
    split
    · rfl
    · next journal _ => exact (fabric.compactJournal_journaled io.compaction journal).1
  unfold compactOnOpen
  split
  · split
    · next hresult =>
      rw [hresult] at hjournaled
      split <;> exact hjournaled
    · next hresult =>
      rw [hresult] at hjournaled
      exact hjournaled
  · rfl

theorem opened_journaling (henabled : config.journal.enabled = true)
    (h : ((new config derived publishedAt).initializeFabric io disk).1 = .ok ()) :
    ((new config derived publishedAt).initializeFabric io disk).2.Journaling := by
  obtain ⟨reader, hreplays⟩ := replays_of_opened henabled h
  rw [initializeFabric_of_replays hreplays] at h ⊢
  obtain ⟨-, repaired, recovery, -, hstarted⟩ := afterReplay_ok rfl h
  rw [hstarted] at h ⊢
  obtain ⟨journal, appended, compacted, hstart, hinitial, hcompact, hfinal⟩ := startJournal_ok h
  rw [hfinal]
  have hbegin : (({ ((replayStart config derived publishedAt).replay reader.readAll.1).adoptReport reader.readAll.2 with
      recovery := recovery } : Fabric).startedWith journal).Journaling := ⟨journal, rfl, start_enabled hstart⟩
  have happended : appended.Journaling := by
    rw [← show _ = appended from congrArg Prod.snd hinitial]
    exact hbegin.of_only (journalInitialPolicy_only _ _ _ _)
  have hcompacted := happended.of_only (appended.compactOnOpen_only io)
  rw [hcompact] at hcompacted
  exact hcompacted

end Phases

end Lqf.Fabric
