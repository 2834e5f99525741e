import LinkQualityFabric.Persist.JournalRoundTrip

/-! What a failed compaction leaves behind.

A compaction that is refused at once leaves the journal as it found it. One that fails later has already
closed the stream on the journal; it opens the file again at offset 0, so the next record that is
accepted is written over the header and the records behind it. -/
namespace Lqf.BackgroundJournal
open Foundations
set_option autoImplicit false

/-- The journal a compaction finds when it starts: the writer is idle unless the call returns before. -/
def found (io : CompactIo) (snapshotBody : Bytes) (journal : BackgroundJournal) : BackgroundJournal :=
  if journal.config.enabled = true ∧ snapshotBody.length ≤ journal.config.maxRecordBytes then
    journal.awaitIdle io.writes
  else journal

/-- The compaction returns before it closes the stream. -/
def RefusedEarly (io : CompactIo) (snapshotOrdinal : UInt64) (snapshotBody : Bytes) (journal : BackgroundJournal) :
    Prop :=
  journal.config.enabled = false ∨ journal.config.maxRecordBytes < snapshotBody.length ∨
    (journal.found io snapshotBody).isOpen = false ∨ (journal.found io snapshotBody).failure.isSome ∨
    (journal.found io snapshotBody).Superseded snapshotOrdinal

def FailsBeforeReplace (io : CompactIo) (snapshotOrdinal : UInt64) (snapshotBody : Bytes) (config : JournalConfig) :
    Prop :=
  (∃ failed, writeTemporary io config ⟨.snapshot, snapshotOrdinal, snapshotBody⟩ = .error failed) ∨
    io.renameOk = false

def CanAccept (journal : BackgroundJournal) : Prop :=
  journal.config.enabled = true ∧ journal.isOpen = true ∧ journal.accepting = true ∧ journal.failure = none

def Quiet : JournalEvent → Prop
  | .append _ _ _ => True
  | .take => True
  | .finish short => short = none
  | .compact _ _ _ => False

/-- The file is still `base`, and everything accepted from here on is written behind it. -/
def Harmless (base : Bytes) (journal : BackgroundJournal) : Prop :=
  journal.contents = base ∧ ∀ events : List JournalEvent, (∀ event ∈ events, Quiet event) →
    ((machine.final journal events).settle []).contents =
      base ++ encodeRecords (journal.pending ++ accepted (machine.trace journal events))

/-! ## The stream of a journal -/

/-- The journal has an open stream inside a file that is not empty. -/
structure Placed (journal : BackgroundJournal) : Prop where
  stream : ∃ position, journal.position = some position ∧ position ≤ journal.contents.length
  nonempty : journal.contents ≠ []

variable {journal : BackgroundJournal} {position : ℕ} {io : CompactIo} {snapshotOrdinal : UInt64}

theorem Placed.putBytes (hplaced : Placed journal) (hinside : position ≤ journal.contents.length) (data : Bytes) :
    Placed (journal.putBytes position data) := by
  have hlen := writeAt_length journal.contents position data hinside
  have hpos := List.length_pos_iff.mpr hplaced.nonempty
  refine ⟨⟨position + data.length, rfl, ?_⟩, ?_⟩
  · simp only [BackgroundJournal.putBytes, hlen]
    omega
  · intro hnil
    have hzero : (writeAt journal.contents position data).length = 0 := List.length_eq_zero_iff.mpr hnil
    omega

theorem Placed.finish (hplaced : Placed journal) (short : Option ℕ) : Placed (journal.take.finish short) := by
  have htaken : Placed journal.take := by
    obtain ⟨⟨position, hposition, hinside⟩, hsome⟩ := hplaced
    exact ⟨⟨position, by simpa using hposition, by simpa using hinside⟩, by simpa using hsome⟩
  obtain ⟨position, hposition, hinside⟩ := htaken.stream
  unfold BackgroundJournal.finish
  split
  · exact htaken
  · next hnone =>
    rw [hposition] at hnone
    cases hnone
  · next hat =>
    obtain rfl := Option.some.inj (hposition.symm.trans hat)
    obtain ⟨hstream, hsome⟩ := htaken.putBytes hinside _
    exact ⟨hstream, hsome⟩
  · next hat =>
    obtain rfl := Option.some.inj (hposition.symm.trans hat)
    obtain ⟨hstream, hsome⟩ := htaken.putBytes hinside _
    exact ⟨hstream, hsome⟩

theorem Placed.drainQueue (count : ℕ) (shorts : List (Option ℕ)) (hplaced : Placed journal) :
    Placed (drainQueue count shorts journal) := by
  induction count generalizing journal shorts with
  | zero => exact hplaced
  | succ count ih => exact ih shorts.tail (hplaced.finish _)

theorem Placed.found (hplaced : Placed journal) (io : CompactIo) (snapshotBody : Bytes) :
    Placed (journal.found io snapshotBody) := by
  unfold BackgroundJournal.found BackgroundJournal.awaitIdle
  split
  · split
    · exact hplaced.drainQueue _ _
    · exact hplaced
  · exact hplaced

theorem found_config (io : CompactIo) (snapshotBody : Bytes) (journal : BackgroundJournal) :
    (journal.found io snapshotBody).config = journal.config := by
  unfold found
  split
  · exact (Continues.awaitIdle _ _).config
  · rfl

/-! ## Harmless journals -/

theorem harmless_of_end (hposition : journal.position = some journal.contents.length) :
    Harmless journal.contents journal := by
  refine ⟨rfl, fun events hquiet => ?_⟩
  have hrun := machine.history_invariant
    (P := fun trace state => Holds journal.contents (journal.pending ++ accepted trace) state)
    ?_ (by simpa [accepted] using holds_start hposition)
    (machine.meets_of_forall journal hquiet)
  · exact hrun.settle
  · intro past state event hholds hevent
    rw [accepted_snoc]
    cases event with
    | append kind ordinal body =>
      cases happend : state.append kind ordinal body with
      | ok after => simpa [machine, respond, happend, keep] using hholds.append happend
      | error status => simpa [machine, respond, happend, keep] using hholds
    | take => exact hholds.take
    | finish short =>
      obtain rfl : short = none := hevent
      exact hholds.finish
    | compact io snapshotOrdinal snapshotBody => exact absurd hevent not_false

theorem harmless_of_closed (hpending : journal.pending = []) (hclosed : ¬ journal.CanAccept) :
    Harmless journal.contents journal := by
  refine ⟨rfl, fun events hquiet => ?_⟩
  have hrun := machine.history_invariant
    (P := fun trace state => state = journal ∧ accepted trace = [])
    ?_ ⟨rfl, rfl⟩ (machine.meets_of_forall journal hquiet)
  · rw [hrun.1, hrun.2, settle, hpending]
    simp [drainQueue]
  · rintro past state event ⟨rfl, haccepted⟩ hevent
    rw [accepted_snoc, haccepted]
    cases event with
    | append kind ordinal body =>
      cases happend : state.append kind ordinal body with
      | ok after =>
        obtain ⟨henabled, -, hopen, haccepting, hfailure, -⟩ := append_eq_ok.mp happend
        exact absurd ⟨henabled, hopen, haccepting, hfailure⟩ hclosed
      | error status => simp [machine, respond, happend, keep]
    | take => exact ⟨take_idle hpending, rfl⟩
    | finish short => exact ⟨finish_idle hpending short, rfl⟩
    | compact io snapshotOrdinal snapshotBody => exact absurd hevent not_false

theorem drainQueue_length_le (hplaced : Placed journal) (count : ℕ) :
    (drainQueue count [] journal).contents.length + (encodeRecords (drainQueue count [] journal).pending).length ≤
      journal.contents.length + (encodeRecords journal.pending).length := by
  induction count generalizing journal with
  | zero => exact le_rfl
  | succ count ih =>
    refine (ih (hplaced.finish none)).trans ?_
    obtain ⟨position, hposition, hinside⟩ := hplaced.stream
    cases hpending : journal.pending with
    | nil => rw [take_idle hpending, finish_idle hpending, hpending]
    | cons record rest =>
      obtain ⟨hrest, hcontents⟩ := take_finish hpending hposition
      rw [hrest, hcontents, writeAt_length _ _ _ hinside, encodeRecords_cons, List.length_append]
      omega

theorem settle_overwrites (journal : BackgroundJournal) (hposition : journal.position = some position)
    (hinside : position < journal.contents.length) (hpending : journal.pending ≠ []) :
    (journal.settle []).contents ≠ journal.contents ++ encodeRecords journal.pending := by
  obtain ⟨record, rest, hpending⟩ := List.exists_cons_of_ne_nil hpending
  have hplaced : Placed journal := ⟨⟨position, hposition, hinside.le⟩, List.ne_nil_of_length_pos (by omega)⟩
  obtain ⟨hrest, hcontents⟩ := take_finish hpending hposition
  intro hsettled
  have hless := drainQueue_length_le (hplaced.finish none) rest.length
  have hsame : drainQueue rest.length [] (journal.take.finish none) = journal.settle [] := by
    rw [settle, hpending]
    rfl
  rw [hsame, hsettled, hrest, hcontents, writeAt_length _ _ _ hinside.le, hpending, encodeRecords_cons] at hless
  simp only [List.length_append, encodeRecordBytes_length, recordHeaderBytes] at hless
  omega

theorem not_harmless_of_inside (journal : BackgroundJournal) (position : ℕ)
    (hdepth : 1 ≤ journal.config.maxQueueDepth)
    (hposition : journal.position = some position) (hinside : position < journal.contents.length)
    (hactive : journal.pending ≠ [] ∨ journal.CanAccept) : ¬ Harmless journal.contents journal := by
  rintro ⟨-, hbehind⟩
  by_cases hpending : journal.pending = []
  · have haccept := hactive.resolve_left (not_not.mpr hpending)
    have hqueue : journal.queue = [] := (List.append_eq_nil_iff.mp hpending).2
    have hwriting : journal.writing.toList = [] := (List.append_eq_nil_iff.mp hpending).1
    have happend : journal.append .evidence (journal.lastEnqueued.elim 0 (· + 1)) [] = .ok { journal with
        lastEnqueued := some (journal.lastEnqueued.elim 0 (· + 1))
        queue := journal.queue ++ [⟨.evidence, journal.lastEnqueued.elim 0 (· + 1), []⟩] } := by
      refine append_eq_ok.mpr ⟨haccept.1, Nat.zero_le _, haccept.2.1, haccept.2.2.1, haccept.2.2.2, ?_, ?_, rfl⟩
      · rw [hqueue]
        exact hdepth
      · intro last hlast
        rw [hlast]
        rfl
    have hwritten := hbehind [.append .evidence (journal.lastEnqueued.elim 0 (· + 1)) []] (by simp [Quiet])
    simp only [machine, Machine.final_cons, Machine.final_nil, Machine.trace_cons, Machine.trace_nil, respond, happend,
      accepted, List.foldl_cons, List.foldl_nil, keep, List.nil_append, hpending] at hwritten
    refine settle_overwrites { journal with
      lastEnqueued := some (journal.lastEnqueued.elim 0 (· + 1))
      queue := journal.queue ++ [⟨.evidence, journal.lastEnqueued.elim 0 (· + 1), []⟩] } hposition hinside
      (by simp [pending]) ?_
    simpa [pending, hqueue, hwriting] using hwritten
  · have hwritten := hbehind [] (by simp)
    simp only [Machine.final_nil, Machine.trace_nil, accepted, List.foldl_nil, List.append_nil] at hwritten
    exact settle_overwrites journal hposition hinside hpending hwritten

/-! ## Failed compactions -/

theorem compact_of_refusedEarly {snapshotBody : Bytes} (h : journal.RefusedEarly io snapshotOrdinal snapshotBody) :
    (journal.compact io snapshotOrdinal snapshotBody).2 = journal.found io snapshotBody := by
  rw [compact, found]
  split
  · next hdisabled => rw [if_neg (by simp [hdisabled])]
  · next henabled =>
    split
    · next hbody => rw [if_neg (by omega)]
    · next hbody =>
      have hwaits : journal.config.enabled = true ∧ snapshotBody.length ≤ journal.config.maxRecordBytes :=
        ⟨by simpa using henabled, by omega⟩
      rw [RefusedEarly, found, if_pos hwaits] at h
      rw [if_pos hwaits, compactIdle]
      split
      · rfl
      · next hopen =>
        split
        · rfl
        · next hfailure =>
          split
          · rfl
          · next hsuperseded =>
            rw [hfailure] at h
            simp [henabled, hbody, hopen, hsuperseded] at h

theorem compact_of_not_refusedEarly {snapshotBody : Bytes}
    (h : ¬ journal.RefusedEarly io snapshotOrdinal snapshotBody) : (journal.found io snapshotBody).pending = [] ∧
      journal.compact io snapshotOrdinal snapshotBody =
        replaceFile io ⟨.snapshot, snapshotOrdinal, snapshotBody⟩ (journal.found io snapshotBody) := by
  simp only [RefusedEarly, not_or, Bool.not_eq_false, not_lt, Bool.not_eq_true, Option.isSome_eq_false_iff,
    Option.isNone_iff_eq_none] at h
  obtain ⟨henabled, hbody, hopen, hfailure, hsuperseded⟩ := h
  have hfound : journal.found io snapshotBody = journal.awaitIdle io.writes := if_pos ⟨henabled, hbody⟩
  rw [hfound] at hopen hfailure hsuperseded ⊢
  refine ⟨awaitIdle_pending hopen hfailure, ?_⟩
  rw [compact, if_neg (by simp [henabled]), if_neg (by omega), compactIdle, if_neg (by simp [hopen])]
  simp only [hfailure, if_neg hsuperseded]

theorem replaceFile_fails {snapshot : JournalRecord}
    (hpoint : (∃ failed, writeTemporary io journal.config snapshot = .error failed) ∨ io.renameOk = false)
    (hopen : (replaceFile io snapshot journal).2.isOpen = true) :
    ∃ temporary, (replaceFile io snapshot journal).2 = { journal with temporary, position := some 0 } := by
  have hfallback : ∀ (status : Status) (closed : BackgroundJournal), (fallBack io status closed).2.isOpen = true →
      (fallBack io status closed).2 = { closed with position := some 0 } := by
    intro status closed hclosed
    unfold fallBack at hclosed ⊢
    split
    · rfl
    · next hbad =>
      rw [if_neg hbad] at hclosed
      cases hclosed
  unfold replaceFile at hopen ⊢
  split at hopen
  · exact ⟨_, hfallback _ _ hopen⟩
  · exact ⟨_, hfallback _ _ hopen⟩
  · next fresh htemporary hrename =>
    rcases hpoint with ⟨failed, hfailed⟩ | hfalse
    · rw [hfailed] at htemporary
      cases htemporary
    · rw [hfalse] at hrename
      cases hrename

/-- A compaction that fails and leaves the journal open is harmless exactly when it was refused before it
closed a stream that stood at the end of the file, or when nothing can be written any more. -/
theorem failed_compaction_harmless_iff (journal : BackgroundJournal) (hconfig : journal.config.validate = .ok ())
    (hplaced : journal.Placed) (io : CompactIo) (snapshotOrdinal : UInt64) (snapshotBody : Bytes) (status : Status)
    (after : BackgroundJournal) (hcompact : journal.compact io snapshotOrdinal snapshotBody = (.error status, after))
    (hopen : after.isOpen = true)
    (hpoint : journal.RefusedEarly io snapshotOrdinal snapshotBody ∨
      FailsBeforeReplace io snapshotOrdinal snapshotBody (journal.found io snapshotBody).config) :
    Harmless (journal.found io snapshotBody).contents after ↔
      (journal.RefusedEarly io snapshotOrdinal snapshotBody ∧
        (journal.found io snapshotBody).position = some (journal.found io snapshotBody).contents.length) ∨
      ((journal.found io snapshotBody).pending = [] ∧ ¬ (journal.found io snapshotBody).CanAccept) := by
  have hdepth : 1 ≤ (journal.found io snapshotBody).config.maxQueueDepth := by
    rw [found_config]
    exact (JournalConfig.bounds_of_validate hconfig).2.2.1
  obtain ⟨⟨position, hposition, hinside⟩, hsome⟩ := hplaced.found io snapshotBody
  by_cases hearly : journal.RefusedEarly io snapshotOrdinal snapshotBody
  · have hafter := compact_of_refusedEarly hearly
    rw [hcompact] at hafter
    obtain rfl : after = journal.found io snapshotBody := hafter
    constructor
    · intro hharmless
      by_contra hnot
      rw [not_or, not_and, not_and, not_not] at hnot
      have hend := hnot.1 hearly
      have hless : position < (journal.found io snapshotBody).contents.length := by
        rw [hposition] at hend
        exact lt_of_le_of_ne hinside (fun heq => hend (congrArg some heq))
      refine not_harmless_of_inside _ position hdepth hposition hless ?_ hharmless
      by_cases hpending : (journal.found io snapshotBody).pending = []
      · exact .inr (hnot.2 hpending)
      · exact .inl hpending
    · rintro (⟨-, hend⟩ | ⟨hpending, hclosed⟩)
      · exact harmless_of_end hend
      · exact harmless_of_closed hpending hclosed
  · obtain ⟨hpending, hreplace⟩ := compact_of_not_refusedEarly hearly
    have hfails := hpoint.resolve_left hearly
    have hresult : (replaceFile io ⟨.snapshot, snapshotOrdinal, snapshotBody⟩ (journal.found io snapshotBody)).2 =
        after := by rw [← hreplace, hcompact]
    obtain ⟨temporary, hafter⟩ := replaceFile_fails hfails (by rw [hresult]; exact hopen)
    rw [hresult] at hafter
    subst hafter
    constructor
    · intro hharmless
      refine .inr ⟨hpending, fun haccept => ?_⟩
      exact not_harmless_of_inside { journal.found io snapshotBody with temporary, position := some 0 } 0 hdepth rfl
        (List.length_pos_iff.mpr hsome) (.inr haccept) hharmless
    · rintro (⟨hrefused, -⟩ | ⟨-, hclosed⟩)
      · exact absurd hrefused hearly
      · exact harmless_of_closed hpending hclosed

def oneRecordJournal : BackgroundJournal :=
  { started smallJournal (buildFileHeader 0 0 ++ encodeRecordBytes ⟨.policy, 1, [7]⟩) with
    lastEnqueued := some 1, expected := some 2 }

def stoppedJournal : BackgroundJournal := { oneRecordJournal with accepting := false }

/-- A snapshot that the written record has overtaken is refused at once. A temporary file that cannot be created is
harmless only where nothing is accepted any more. -/
theorem failed_compactions_harmless : Harmless oneRecordJournal.contents oneRecordJournal ∧
    Harmless oneRecordJournal.contents (stoppedJournal.compact { createOk := false } 1 []).2 :=
  ⟨(failed_compaction_harmless_iff oneRecordJournal rfl
    ⟨⟨_, rfl, le_rfl⟩, by decide +kernel⟩ {} 0 [] _ oneRecordJournal rfl rfl
    (.inl (.inr (.inr (.inr (.inr (by decide +kernel))))))).mpr
    (.inl ⟨.inr (.inr (.inr (.inr (by decide +kernel)))), rfl⟩),
  (failed_compaction_harmless_iff stoppedJournal rfl ⟨⟨_, rfl, le_rfl⟩, by decide +kernel⟩ { createOk := false } 1 [] _ _
    rfl rfl (.inr (.inl ⟨_, rfl⟩))).mpr (.inr ⟨rfl, by unfold CanAccept; decide +kernel⟩)⟩

/-- When the temporary file cannot be created, the next record is written over the header, and the file
cannot be opened any more. -/
theorem failed_create_overwrites :
    let after := (oneRecordJournal.compact { createOk := false } 1 []).2
    let event := JournalEvent.append .evidence 2 [8]
    let settled := (machine.final after [event]).settle []
    oneRecordJournal.config.validate = .ok () ∧
      (oneRecordJournal.compact { createOk := false } 1 []).1 =
        .error ⟨.io, text "compaction temporary file could not be created"⟩ ∧
      after.isOpen = true ∧ after.contents = oneRecordJournal.contents ∧
      machine.trace after [event] = [(event, .ok ())] ∧
      settled.contents ≠ oneRecordJournal.contents ++ encodeRecords [⟨.evidence, 2, [8]⟩] ∧
      (JournalReader.openReader {} smallJournal ⟨some settled.contents, none⟩).1.getLeft?.map (·.1) =
        some ⟨.corrupt, text "journal magic does not match"⟩ := by
  decide +kernel

end Lqf.BackgroundJournal
