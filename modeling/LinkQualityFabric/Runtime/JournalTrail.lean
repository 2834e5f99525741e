import LinkQualityFabric.Runtime.Refusal

/-! What the calls of a fabric do to its journal.

Between the beginning and the end of a call the journal is touched in two ways only: the writer runs, and
records are appended under the next ordinal. A `Trail` lists the records appended on the way; at the end
of an ingest a compaction may follow. What is said of the file, or of the ordinals in it, is proved over
the steps of a trail. -/
namespace Lqf.Fabric
open Foundations
set_option autoImplicit false

open BackgroundJournal

/-! ## A journal that refuses nothing -/

def Journaling (fabric : Fabric) : Prop := ∃ journal, fabric.journal = some journal ∧ journal.config.enabled = true

variable {fabric after : Fabric}

theorem Journaling.active (h : fabric.Journaling) : ∃ journal, fabric.activeJournal = some journal := by
  obtain ⟨journal, hjournal, henabled⟩ := h
  exact ⟨journal, Option.filter_eq_some_iff.mpr ⟨hjournal, henabled⟩⟩

theorem Journaling.of_only (h : fabric.Journaling) (honly : JournalRuns fabric after) : after.Journaling := by
  obtain ⟨journal, hjournal, henabled⟩ := h
  have hcontinues := honly.journal
  rw [hjournal] at hcontinues
  generalize hlater : after.journal = later at hcontinues
  cases hcontinues with
  | some hcontinues => exact ⟨_, hlater, by rw [hcontinues.config]; exact henabled⟩

theorem advanceUnjournaled_of_journaling (h : fabric.Journaling) : fabric.advanceUnjournaled = fabric := by
  obtain ⟨journal, hactive⟩ := h.active
  unfold advanceUnjournaled
  rw [hactive]
  simp

def Steady (before after : Fabric) : Prop := after.stats.journalRejections = before.stats.journalRejections

instance (before after : Fabric) : Decidable (Steady before after) := inferInstanceAs (Decidable (_ = _))

theorem add_one_ne_self (count : UInt64) : count + 1 ≠ count := by
  intro h
  have hsub := congrArg (· - count) h
  simp at hsub

/-! ## Trails -/

inductive Trail (start : Fabric) : List JournalRecord → Fabric → Prop where
  | start : Trail start [] start
  | beside {records : List JournalRecord} {before after : Fabric} :
    Trail start records before → SameJournal before after → Trail start records after
  | writer {records : List JournalRecord} {before : Fabric} (steps : List WriterStep) :
    Trail start records before → Trail start records (before.letWriterRun steps)
  | taken {records : List JournalRecord} {before : Fabric} {journal after : BackgroundJournal}
    {kind : JournalRecordKind} {body : Bytes} : Trail start records before → before.activeJournal = some journal →
    journal.append kind before.nextOrdinal body = .ok after → kind ≠ .count →
    Trail start (records ++ [⟨kind, before.nextOrdinal, body⟩]) (before.enqueued kind body after)

section Trails
variable {first second third : Fabric} {records more : List JournalRecord}

theorem SameJournal.journaling {before after : Fabric} (h : SameJournal before after) (hbefore : before.Journaling) :
    after.Journaling := by
  obtain ⟨journal, hjournal, henabled⟩ := hbefore
  exact ⟨journal, h.journal.trans hjournal, henabled⟩

theorem SameJournal.trail (h : SameJournal first second) : Trail first [] second := .beside .start h

theorem Trail.trans (h : Trail first records second) (h' : Trail second more third) :
    Trail first (records ++ more) third := by
  induction h' with
  | start => simpa using h
  | beside _ hsame ih => exact .beside ih hsame
  | writer steps _ ih => exact .writer steps ih
  | taken _ hactive happend hkind ih =>
    rw [← List.append_assoc]
    exact .taken ih hactive happend hkind

theorem Trail.after_beside (h : SameJournal first second) (h' : Trail second records third) :
    Trail first records third := by
  have htrail := h.trail.trans h'
  rwa [List.nil_append] at htrail

theorem Trail.config (h : Trail first records second) : second.config = first.config := by
  induction h with
  | start => rfl
  | beside _ hsame ih => exact hsame.config.trans ih
  | writer steps _ ih => exact ih
  | taken _ _ _ _ ih => exact ih

theorem Trail.since (h : Trail first records second) :
    second.recordsSinceCompaction = first.recordsSinceCompaction + UInt64.ofNat records.length := by
  induction h with
  | start => exact (UInt64.add_zero _).symm
  | beside _ hsame ih => rw [hsame.since, ih]
  | writer steps _ ih => exact ih
  | @taken records before journal after kind body _ _ _ _ ih =>
    show before.recordsSinceCompaction + 1 = _
    rw [ih, List.length_append, UInt64.ofNat_add, ← UInt64.add_assoc]
    rfl

structure Enqueues (records : List JournalRecord) (before after : Fabric) : Prop where
  journaled : after.journaled = before.journaled ++ records
  ordinal : after.nextOrdinal = before.nextOrdinal + UInt64.ofNat records.length
  journaling : before.Journaling → after.Journaling

theorem SameJournal.enqueues (h : SameJournal first second) : Enqueues [] first second :=
  ⟨by rw [h.journaled, List.append_nil], h.ordinal.trans (UInt64.add_zero _).symm, h.journaling⟩

theorem Enqueues.trans (h : Enqueues records first second) (h' : Enqueues more second third) :
    Enqueues (records ++ more) first third := by
  refine ⟨by rw [h'.journaled, h.journaled, List.append_assoc], ?_, fun hfirst => h'.journaling (h.journaling hfirst)⟩
  rw [h'.ordinal, h.ordinal, List.length_append, UInt64.ofNat_add, UInt64.add_assoc]

theorem Trail.enqueues (h : Trail first records second) : Enqueues records first second := by
  induction h with
  | start => exact SameJournal.enqueues ⟨rfl, rfl, rfl, rfl, rfl⟩
  | beside _ hsame ih =>
    have hboth := ih.trans hsame.enqueues
    rwa [List.append_nil] at hboth
  | writer steps _ ih =>
    exact ⟨ih.journaled, ih.ordinal, fun hfirst => (ih.journaling hfirst).of_only (letWriterRun_only _ _)⟩
  | taken _ hactive happend _ ih =>
    refine ih.trans ⟨rfl, rfl, fun _ => ?_⟩
    obtain ⟨-, -, -, -, -, -, -, rfl⟩ := append_eq_ok.mp happend
    exact ⟨_, rfl, (activeJournal_enabled hactive).2⟩

end Trails

/-! ## The append of a call -/

/-- What the append of a record comes to for a fabric that journals: the record is taken, or it is refused and the
refusal is counted. -/
inductive Appends (fabric : Fabric) (io : AppendIo) (kind : JournalRecordKind) (body : Bytes) :
    Outcome Unit × Fabric → Prop
  | taken {after : Fabric} (htrail : Trail fabric [⟨kind, fabric.nextOrdinal, body⟩] after)
      (hsteady : Steady fabric after) : Appends fabric io kind body (.ok (), after)
  | refused (status : Status) {after : Fabric} (hmisses : ¬ fabric.Takes io body.length)
      (htrail : Trail fabric [] after) (hcounted : ¬ Steady fabric after) :
      Appends fabric io kind body (.error status, after)

theorem journalAppend_appends {fabric : Fabric} (io : AppendIo) (kind : JournalRecordKind) (body : Bytes)
    (h : fabric.Journaling) (hkind : kind ≠ .count) :
    Appends fabric io kind body (fabric.journalAppend io kind body) := by
  obtain ⟨journal, hactive⟩ := (h.of_only (letWriterRun_only _ io.beforeProbe)).active
  obtain ⟨hjournal, henabled⟩ := activeJournal_enabled hactive
  have hstill : (journal.progress io.beforeAppend).config.enabled = true := by
    rw [progress_config]
    exact henabled
  have hran : ((fabric.letWriterRun io.beforeProbe).letWriterRun io.beforeAppend).journal =
      some (journal.progress io.beforeAppend) := congrArg (Option.map _) hjournal
  have htrail : Trail fabric [] ((fabric.letWriterRun io.beforeProbe).letWriterRun io.beforeAppend) :=
    .writer io.beforeAppend (.writer io.beforeProbe .start)
  unfold journalAppend appendProbed
  simp only [hactive]
  split
  · unfold appendRecord
    split
    · next status happend =>
      refine .refused status (fun htakes => ?_) (.beside htrail ⟨hran.symm, rfl, rfl, rfl, rfl⟩) (add_one_ne_self _)
      have htaken := append_of_canTake kind hstill (htakes journal hactive).2
      cases htaken.symm.trans happend
    · next after happend =>
      exact .taken (.taken htrail (Option.filter_eq_some_iff.mpr ⟨hran, hstill⟩) happend hkind) rfl
  · next hfull =>
    exact .refused _ (fun htakes => hfull (htakes journal hactive).1)
      (.beside (.writer io.beforeProbe .start) ⟨rfl, rfl, rfl, rfl, rfl⟩) (add_one_ne_self _)

/-! ## The evidence of a call -/

/-- What may stand in front of the evidence: nothing, or the record of its link. -/
def LinkPart (fabric : Fabric) (io : CallIo) (observation : Observation) (linked : List JournalRecord) : Prop :=
  fabric.links.contains observation.link = true ∧ linked = [] ∨
    fabric.links.contains observation.link = false ∧ ∃ body, Codec.linkObservedBody.encodeBody fabric.codecLimits
      ⟨observation.link, observation.observedAt, fabric.receiveStamp io.now⟩ = .ok body ∧
      linked = [⟨.linkObserved, fabric.nextOrdinal, body⟩]

/-- How evidence ends at the store of a fabric that journals: it is refused, or stored and journaled, or stored only. -/
inductive Settles (fabric : Fabric) (io : CallIo) (observation : Observation) (received : ReceiveStamp)
    (fenced : Bool) : Outcome IngestOutcome × Fabric → Prop
  | refused {status : Status} {evidence : EvidenceStore}
      (hstored : fabric.evidence.append observation received fabric.nextOrdinal .live
        (counterConfigFor fabric.policies.current.document observation.metric) = (.error status, evidence)) :
      Settles fabric io observation received fenced
        (.error status, { fabric with evidence := evidence }.rejectObservation)
  | taken {outcome : IngestOutcome} {evidence : EvidenceStore} {body : Bytes} {after : Fabric}
      (hstored : fabric.evidence.append observation received fabric.nextOrdinal .live
        (counterConfigFor fabric.policies.current.document observation.metric) = (.ok outcome, evidence))
      (hbody : Codec.evidenceRecord.encodeBody fabric.codecLimits
        ⟨observation, received, fabric.nextOrdinal, .live⟩ = .ok body)
      (htakes : fabric.Takes io.record
        (Codec.evidenceRecord.size ⟨observation, received, fabric.nextOrdinal, .live⟩))
      (honly : JournalRuns { fabric with evidence := evidence } after)
      (htrail : Trail fabric [⟨.evidence, fabric.nextOrdinal, body⟩] after) :
      Settles fabric io observation received fenced (after.answerStored io outcome fenced)
  | lost {outcome : IngestOutcome} {evidence : EvidenceStore} {after : Fabric}
      (hstored : fabric.evidence.append observation received fabric.nextOrdinal .live
        (counterConfigFor fabric.policies.current.document observation.metric) = (.ok outcome, evidence))
      (hmisses : ¬ fabric.Takes io.record
        (Codec.evidenceRecord.size ⟨observation, received, fabric.nextOrdinal, .live⟩))
      (htrail : Trail fabric [] after) (hcounted : ¬ Steady fabric after) :
      Settles fabric io observation received fenced (after.answerDegraded outcome)

variable (io : CallIo) {observation : Observation}

theorem storeEvidence_settles (hsound : fabric.Sound) (hjournaling : fabric.Journaling) (io : CallIo)
    {descriptor : Option MetricDescriptor}
    (hvalid : validateObservation observation descriptor fabric.observationLimits = .ok ())
    (received : ReceiveStamp) (fenced : Bool) :
    Settles fabric io observation received fenced (fabric.storeEvidence io observation received fenced) := by
  cases hstored : fabric.evidence.append observation received fabric.nextOrdinal .live
      (counterConfigFor fabric.policies.current.document observation.metric) with
  | mk answer evidence =>
    cases answer with
    | error status =>
      rw [storeEvidence, hstored]
      exact .refused hstored
    | ok outcome =>
      obtain ⟨body, hbody, hresult⟩ := storeEvidence_eq hsound io hvalid fenced hstored
      rw [hresult]
      have hstill : ({ fabric with evidence := evidence } : Fabric).Journaling := hjournaling
      have hbeside : SameJournal fabric { fabric with evidence := evidence } := ⟨rfl, rfl, rfl, rfl, rfl⟩
      have hunrefused : ∀ journal ∈ ({ fabric with evidence := evidence } : Fabric).journal, journal.Unrefused :=
        hsound.journal
      have happends := journalAppend_appends io.record .evidence body hstill (by decide)
      have havoids := journalAppend_avoids_refused io.record .evidence body hunrefused
      have honly := ({ fabric with evidence := evidence } : Fabric).journalAppend_only io.record .evidence body
      have htakes : (({ fabric with evidence := evidence } : Fabric).journalAppend io.record .evidence body).1 = .ok () ↔
          fabric.Takes io.record body.length := journalAppend_ok_iff
      generalize ({ fabric with evidence := evidence } : Fabric).journalAppend io.record .evidence body = result
        at happends havoids honly htakes ⊢
      rw [Codec.encodeBody_length hbody] at htakes
      have hadvance := advanceUnjournaled_of_journaling (hstill.of_only honly)
      cases happends with
      | taken htrail _ =>
        simp only [finishIngest, hadvance]
        exact .taken hstored hbody (htakes.mp rfl) honly (.after_beside hbeside htrail)
      | refused status hmisses htrail hcounted =>
        simp only [finishIngest, hadvance, if_neg (havoids status rfl)]
        rw [Codec.encodeBody_length hbody] at hmisses
        exact .lost hstored hmisses (.after_beside hbeside htrail) hcounted

/-- How an ingest ends for a fabric that journals: in front of the registries, at a record of its link that the
journal refuses, or at the store, behind the record of its link. -/
inductive Offers (fabric : Fabric) (io : CallIo) (observation : Observation) : Outcome IngestOutcome × Fabric → Prop
  | kept (status : Status) (stats : FabricStats) :
      Offers fabric io observation (.error status, { fabric with stats := stats })
  | unlinked {links : LinkRegistry} (status : Status) (htrail : Trail fabric [] (fabric.entered io observation links))
      (hcounted : ¬ Steady fabric (fabric.entered io observation links)) :
      Offers fabric io observation (.error status, (fabric.entered io observation links).rejectObservation)
  | linked {links : LinkRegistry} {linked : List JournalRecord} {result : Outcome IngestOutcome × Fabric}
      (hcheck : fabric.checkObservation io.now observation = .ok ())
      (hobserve : fabric.links.observe observation.link observation.observedAt (fabric.receiveStamp io.now) = .ok links)
      (hpart : fabric.LinkPart io observation linked) (htrail : Trail fabric linked (fabric.entered io observation links))
      (hsteady : Steady fabric (fabric.entered io observation links))
      (hsettles : Settles (fabric.entered io observation links) io observation (fabric.receiveStamp io.now)
        (fabric.fences observation.link) result) : Offers fabric io observation result

theorem entered_settles (hsound : fabric.Sound) (hjournaling : fabric.Journaling) {links : LinkRegistry}
    (hcheck : fabric.checkObservation io.now observation = .ok ())
    (hobserve : fabric.links.observe observation.link observation.observedAt (fabric.receiveStamp io.now) = .ok links) :
    Settles (fabric.entered io observation links) io observation (fabric.receiveStamp io.now)
      (fabric.fences observation.link) ((fabric.entered io observation links).storeEvidence io observation
        (fabric.receiveStamp io.now) (fabric.fences observation.link)) := by
  have honly := fabric.entered_only io observation links
  have hstill : (fabric.observed links).Journaling := hjournaling
  have hvalid : validateObservation observation (fabric.catalog.find observation.metric)
      (fabric.entered io observation links).observationLimits = .ok () := by
    rw [observationLimits, honly.config]
    exact checkObservation_valid hcheck
  exact storeEvidence_settles ((hsound.observed hobserve).of_only honly) (hstill.of_only honly) io hvalid _ _

theorem ingestLocked_offers (hsound : fabric.Sound) (hjournaling : fabric.Journaling) (observation : Observation) :
    Offers fabric io observation (fabric.ingestLocked io observation) := by
  unfold ingestLocked
  split
  · exact .kept _ _
  · next hcheck =>
    split
    · exact .kept _ _
    · unfold ingestChecked
      split
      · exact .kept _ _
      · next links hobserve =>
        have hsame : SameJournal fabric (fabric.observed links) := ⟨rfl, rfl, rfl, rfl, rfl⟩
        have hsettles := entered_settles io hsound hjournaling hcheck hobserve
        split
        · next hcontains =>
          have hentered : fabric.entered io observation links = fabric.observed links := if_pos hcontains
          rw [← hentered] at hsame ⊢
          exact .linked hcheck hobserve (.inl ⟨hcontains, rfl⟩) hsame.trail (by rw [hentered]; rfl) hsettles
        · next hcontains =>
          obtain ⟨body, hbody, hlinked⟩ := journalNewLink_eq (hsound.observed hobserve) io
            ⟨observation.link, observation.observedAt, fabric.receiveStamp io.now⟩
            (LinkRegistry.observe_eq_ok.mp hobserve).1
          have hentered : fabric.entered io observation links =
              ((fabric.observed links).journalAppend io.link .linkObserved body).2 := by
            rw [entered, if_neg hcontains, hlinked]
          have hstill : (fabric.observed links).Journaling := hjournaling
          have happends := journalAppend_appends io.link .linkObserved body hstill (by decide)
          unfold ingestNewLink
          rw [hlinked]
          generalize (fabric.observed links).journalAppend io.link .linkObserved body = result at happends hentered ⊢
          cases happends with
          | taken htrail hsteady =>
            obtain rfl : fabric.entered io observation links = _ := hentered
            exact .linked hcheck hobserve (.inr ⟨Bool.eq_false_iff.mpr hcontains, body, hbody, rfl⟩)
              (.after_beside hsame htrail) hsteady hsettles
          | refused status _ htrail hcounted =>
            obtain rfl : fabric.entered io observation links = _ := hentered
            exact .unlinked status (.after_beside hsame htrail) hcounted

end Lqf.Fabric
