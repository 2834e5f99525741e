import LinkQualityFabric.Domain.CounterBaseline
import LinkQualityFabric.Store.Restore

/-! Counter continuity across a snapshot.

A live stream feeds its tracker in order of arrival and passes over late readings; a replay feeds it what the ring
still holds, in order of the numbers. The two agree on what follows when they agree on the last two counter
readings, so the ring must keep those two, and a late reading must be below them. -/
namespace Lqf
open Foundations
set_option autoImplicit false

namespace EvidenceRecord

def counterReading? (record : EvidenceRecord) : Option CounterObservation :=
  match record.observation.reading with
  | .gauge _ => none
  | .counter counter => some (StreamState.counterObservation record.observation record.received counter)

def isCounter (record : EvidenceRecord) : Bool := record.counterReading?.isSome

def inRange (record : EvidenceRecord) : Bool := record.counterReading?.any CounterContinuity.inRange

variable {record : EvidenceRecord}

theorem isCounter_of_inRange (h : record.inRange = true) : record.isCounter = true := by
  unfold inRange at h
  unfold isCounter
  cases hreading : record.counterReading? with
  | none => rw [hreading] at h; cases h
  | some reading => rfl

theorem counterReading?_spec {reading : CounterObservation} (h : record.counterReading? = some reading) :
    reading.sequence = record.observation.sequence ∧
      reading.From record.observation.source.incarnation record.observation.link.generation := by
  unfold counterReading? at h
  split at h
  · cases h
  · rw [← Option.some.inj h]
    exact ⟨rfl, rfl, rfl⟩

end EvidenceRecord

def counterReadings (records : List EvidenceRecord) : List CounterObservation :=
  records.filterMap EvidenceRecord.counterReading?

variable (records : List EvidenceRecord)

theorem counterReadings_append (others : List EvidenceRecord) :
    counterReadings (records ++ others) = counterReadings records ++ counterReadings others :=
  List.filterMap_append

theorem counterReadings_singleton (record : EvidenceRecord) :
    counterReadings [record] = record.counterReading?.toList := by
  cases hreading : record.counterReading? <;> simp [counterReadings, hreading]

theorem any_counterReadings :
    (counterReadings records).any CounterContinuity.inRange = records.any EvidenceRecord.inRange := by
  unfold counterReadings
  rw [List.any_filterMap]
  rfl

theorem counterReadings_filter :
    counterReadings (records.filter EvidenceRecord.isCounter) = counterReadings records := by
  unfold counterReadings
  rw [List.filterMap_filter]
  refine List.filterMap_congr fun record _ => ?_
  unfold EvidenceRecord.isCounter
  cases record.counterReading? <;> rfl

namespace StreamState
open CounterContinuity
variable {limits : FabricLimits} {stream : StreamState} {config : CounterContinuityConfig}

/-! ## What the tracker of a stream has seen -/

def fedReading? (stream : StreamState) (record : EvidenceRecord) : Option CounterObservation :=
  if stream.feeds record.observation.sequence then record.counterReading? else none

def responded (stream : StreamState) (reading : CounterObservation) (config : CounterContinuityConfig) : StreamState :=
  { stream with
    counter := (stream.counter.observe reading config).2
    lastCounterEvent := (stream.counter.observe reading config).1.event
    lastCounterReason := (stream.counter.observe reading config).1.reason
    lastDelta := (stream.counter.observe reading config).1.delta
    rateAdmissible := (stream.counter.observe reading config).2.rateAdmissible }

def respondedTo (stream : StreamState) (record : EvidenceRecord) (config : CounterContinuityConfig) : StreamState :=
  match stream.fedReading? record with
  | none => stream
  | some reading => stream.responded reading config

structure TracksAlike (stream other : StreamState) : Prop where
  counter : other.counter = stream.counter
  event : other.lastCounterEvent = stream.lastCounterEvent
  reason : other.lastCounterReason = stream.lastCounterReason
  delta : other.lastDelta = stream.lastDelta
  rate : other.rateAdmissible = stream.rateAdmissible

theorem TracksAlike.trans {first second third : StreamState} (h : TracksAlike first second)
    (h' : TracksAlike second third) : TracksAlike first third :=
  ⟨h'.counter.trans h.counter, h'.event.trans h.event, h'.reason.trans h.reason, h'.delta.trans h.delta,
    h'.rate.trans h.rate⟩

theorem accept_tracksAlike (limits : FabricLimits) (stream : StreamState) (record : EvidenceRecord)
    (config : CounterContinuityConfig) (reordered : Bool) :
    TracksAlike (stream.respondedTo record config) (stream.accept limits record config reordered).2 := by
  have hmark : ∀ other : StreamState, TracksAlike other (other.markFed record) := by
    intro other
    unfold markFed
    split <;> exact ⟨rfl, rfl, rfl, rfl, rfl⟩
  have hfed : ∀ (other : StreamState) (outcome : IngestOutcome), other.fedSequence = stream.fedSequence →
      TracksAlike stream other →
      TracksAlike (stream.respondedTo record config) ((other.feedCounter record config outcome).1.markFed record) := by
    intro other outcome hsequence hother
    refine .trans ?_ (hmark _)
    unfold feedCounter respondedTo fedReading? EvidenceRecord.counterReading?
    rw [feeds_congr hsequence]
    cases record.observation.reading with
    | gauge gauge => simpa using hother
    | counter counter =>
      cases stream.feeds record.observation.sequence with
      | false => simpa using hother
      | true =>
        simp only [if_true, responded, ← hother.counter]
        exact ⟨rfl, rfl, rfl, rfl, rfl⟩
  unfold accept
  cases reordered with
  | false =>
    refine .trans (hfed (stream.admitSequence limits.maxDedupWindow record.observation.sequence
      (evidenceDigest record.observation)) { IngestOutcome.none with reordered := false } rfl ?_) ?_ <;>
    exact ⟨rfl, rfl, rfl, rfl, rfl⟩
  | true =>
    refine .trans (hfed ({ stream with stats := { stream.stats with reordered := stream.stats.reordered + 1 } }
      |>.admitSequence limits.maxDedupWindow record.observation.sequence (evidenceDigest record.observation))
      { IngestOutcome.none with reordered := true } rfl ?_) ?_ <;>
    exact ⟨rfl, rfl, rfl, rfl, rfl⟩

def lastStep (config : CounterContinuityConfig) (readings : List CounterObservation) : CounterStep :=
  match readings.getLast? with
  | none => ⟨.baseline, .none, none, true⟩
  | some last => ((tracked config readings.dropLast).observe last config).1

theorem lastStep_snoc (config : CounterContinuityConfig) (readings : List CounterObservation)
    (reading : CounterObservation) :
    lastStep config (readings ++ [reading]) = ((tracked config readings).observe reading config).1 := by
  unfold lastStep
  rw [List.getLast?_concat, List.dropLast_concat]

structure Tracks (config : CounterContinuityConfig) (readings : List CounterObservation) (stream : StreamState) :
    Prop where
  counter : stream.counter = tracked config readings
  event : stream.lastCounterEvent = (lastStep config readings).event
  delta : stream.lastDelta = (lastStep config readings).delta
  rate : stream.rateAdmissible = (lastStep config readings).rateAdmissible

theorem tracks_fresh (config : CounterContinuityConfig) : Tracks config [] StreamState.fresh := ⟨rfl, rfl, rfl, rfl⟩

variable {other : StreamState} {readings : List CounterObservation} {last : EvidenceRecord} {window : ℕ}
  {sequence : UInt64}

theorem Tracks.congr (h : Tracks config readings stream) (halike : TracksAlike stream other) :
    Tracks config readings other :=
  ⟨halike.counter.trans h.counter, halike.event.trans h.event, halike.delta.trans h.delta, halike.rate.trans h.rate⟩

theorem Tracks.accept (h : Tracks config readings stream) (limits : FabricLimits) (record : EvidenceRecord)
    (reordered : Bool) :
    Tracks config (readings ++ (stream.fedReading? record).toList) (stream.accept limits record config reordered).2 := by
  have halike := accept_tracksAlike limits stream record config reordered
  unfold respondedTo at halike
  cases hfed : stream.fedReading? record with
  | none =>
    rw [hfed] at halike
    rw [Option.toList_none, List.append_nil]
    exact h.congr halike
  | some reading =>
    rw [hfed] at halike
    have hresponded : Tracks config (readings ++ [reading]) (stream.responded reading config) := by
      unfold responded
      rw [h.counter]
      refine ⟨(tracked_snoc ..).symm, ?_, ?_, ?_⟩ <;> rw [lastStep_snoc]
      exact observe_rateAdmissible ..
    exact hresponded.congr halike

theorem tracks_ascending (hwindow : limits.maxDedupWindow < 2 ^ 64) (calls : List AppendCall)
    (h : calls.Pairwise fun a b => a.observation.sequence < b.observation.sequence)
    (hconfig : ∀ call ∈ calls, call.config = config) :
    Tracks config (counterReadings (calls.map AppendCall.record)) ((streamMachine limits).final .fresh calls) := by
  induction calls using List.reverseRecOn with
  | nil => exact tracks_fresh config
  | append_singleton calls call ih =>
    obtain ⟨hinit, -, habove⟩ := List.pairwise_append.mp h
    have hearlier := ih hinit fun other hother => hconfig other (List.mem_append_left _ hother)
    obtain ⟨hfeeds, haccept⟩ := (ascended hwindow calls hinit).next fun other hother =>
      habove other hother call (List.mem_singleton_self _)
    have hown : call.config = config := hconfig call (List.mem_append_right _ (List.mem_singleton_self _))
    rw [Machine.final_append, Machine.final_cons, Machine.final_nil]
    show Tracks _ _ ((StreamState.append limits _ call.record call.config).2)
    rw [haccept, hown]
    have hnext := hearlier.accept limits call.record false
    rw [fedReading?, show (call.record).observation.sequence = call.observation.sequence from rfl, hfeeds,
      if_pos rfl] at hnext
    rw [List.map_append, counterReadings_append, List.map_singleton, counterReadings_singleton]
    exact hnext

/-! ## The last two counter readings -/

def lastTwo (fed : List EvidenceRecord) : List EvidenceRecord := fed.drop (fed.length - 2)

def Ascending (records : List EvidenceRecord) : Prop :=
  records.Pairwise fun a b => a.observation.sequence < b.observation.sequence

/-- Two counter readings of the ring are above this record, and one of them is in range if this one is. -/
def Covered (ring : List EvidenceRecord) (record : EvidenceRecord) : Prop :=
  ∃ a ∈ ring, ∃ b ∈ ring, a.isCounter = true ∧ b.isCounter = true ∧
    record.observation.sequence < a.observation.sequence ∧ a.observation.sequence < b.observation.sequence ∧
    (record.inRange = true → a.inRange = true ∨ b.inRange = true)

instance (ring : List EvidenceRecord) (record : EvidenceRecord) : Decidable (Covered ring record) := by
  unfold Covered
  infer_instance

theorem Covered.inRange {ring : List EvidenceRecord} {record : EvidenceRecord} (h : Covered ring record)
    (hrange : record.inRange = true) : ∃ other ∈ ring, other.inRange = true := by
  obtain ⟨a, ha, b, hb, -, -, -, -, hone⟩ := h
  rcases hone hrange with hrangeA | hrangeB
  · exact ⟨a, ha, hrangeA⟩
  · exact ⟨b, hb, hrangeB⟩

variable {fed ring : List EvidenceRecord} {record : EvidenceRecord}

theorem mem_of_lastTwo (h : record ∈ lastTwo fed) : record ∈ fed := List.mem_of_mem_drop h

theorem lastTwo_snoc_snoc (init : List EvidenceRecord) (previous last : EvidenceRecord) :
    lastTwo (init ++ [previous] ++ [last]) = [previous, last] := by
  unfold lastTwo
  rw [List.append_assoc, show (init ++ ([previous] ++ [last])).length - 2 = init.length by simp]
  exact List.drop_left

theorem mem_lastTwo_snoc : record ∈ lastTwo (fed ++ [last]) ↔ fed.getLast? = some record ∨ record = last := by
  rcases List.eq_nil_or_concat fed with rfl | ⟨init, previous, rfl⟩
  · simp [lastTwo]
  · rw [List.concat_eq_append, lastTwo_snoc_snoc, List.getLast?_concat]
    simp [eq_comm]

theorem getLast?_mem_lastTwo (h : fed.getLast? = some record) : record ∈ lastTwo fed := by
  obtain ⟨init, rfl⟩ := List.getLast?_eq_some_iff.mp h
  exact mem_lastTwo_snoc.mpr (.inr rfl)

theorem lt_getLast? (hfed : Ascending fed) (hlast : fed.getLast? = some last) (hrecord : record ∈ fed) :
    record = last ∨ record.observation.sequence < last.observation.sequence := by
  obtain ⟨init, rfl⟩ := List.getLast?_eq_some_iff.mp hlast
  rcases List.mem_append.mp hrecord with hearlier | hsame
  · exact .inr ((List.pairwise_append.mp hfed).2.2 record hearlier last (List.mem_singleton_self _))
  · exact .inl (List.mem_singleton.mp hsame)

variable {records : List EvidenceRecord}

theorem length_le_of_subset_lastTwo (hrecords : Ascending records) (h : records ⊆ lastTwo fed) :
    records.length ≤ min 2 fed.length := by
  have hnodup : records.Nodup := by
    refine hrecords.imp ?_
    rintro a _ hlt rfl
    exact UInt64.lt_irrefl _ hlt
  have hle := (List.subperm_of_subset hnodup h).length_le
  rw [lastTwo, List.length_drop] at hle
  omega

theorem not_three {a b c : EvidenceRecord} (ha : a ∈ lastTwo fed) (hb : b ∈ lastTwo fed) (hc : c ∈ lastTwo fed)
    (hab : a.observation.sequence < b.observation.sequence)
    (hbc : b.observation.sequence < c.observation.sequence) : False := by
  have hascending : Ascending [a, b, c] := by simp [Ascending, hab, hbc, UInt64.lt_trans hab hbc]
  have hle := length_le_of_subset_lastTwo hascending (by simpa using ⟨ha, hb, hc⟩)
  exact absurd (le_trans hle (min_le_left ..)) (by simp)

/-- The ring holds the last two counter readings that were fed, and every other one is below them. -/
structure Ring (fed ring : List EvidenceRecord) : Prop where
  top : ∀ record ∈ lastTwo fed, record ∈ ring
  others : ∀ record ∈ ring, record.isCounter = true → record ∈ lastTwo fed ∨
    2 ≤ fed.length ∧ ∀ last ∈ lastTwo fed, record.observation.sequence < last.observation.sequence
  first : ring.Pairwise fun a b => b.isCounter = true → a.observation.sequence ≠ b.observation.sequence
  range : (∃ record ∈ ring, record.inRange = true) ↔ ∃ record ∈ fed, record.inRange = true

theorem ring_nil : Ring [] [] := by
  refine ⟨fun _ h => ?_, fun _ h => ?_, .nil, Iff.rfl⟩
  · cases h
  · cases h

section
variable (h : Ring fed ring)
include h

theorem Ring.above (hlast : last ∈ lastTwo fed) (hrecord : record ∈ ring) (hcounter : record.isCounter = true)
    (hlt : last.observation.sequence < record.observation.sequence) : record ∈ lastTwo fed := by
  rcases h.others record hrecord hcounter with htop | ⟨-, hbelow⟩
  · exact htop
  · exact absurd (hbelow last hlast) (UInt64.lt_asymm hlt)

theorem Ring.drop (hcounters : ∀ record ∈ fed, record.isCounter = true) (count : ℕ)
    (hcovered : ∀ record ∈ ring.take count, record.isCounter = true → Covered (ring.drop count) record) :
    Ring fed (ring.drop count) where
  top := by
    intro record hrecord
    have hmem := h.top record hrecord
    rw [← List.take_append_drop count ring] at hmem
    rcases List.mem_append.mp hmem with hdropped | hkept
    · obtain ⟨a, ha, b, hb, hcounterA, hcounterB, hlow, hhigh, -⟩ :=
        hcovered record hdropped (hcounters record (mem_of_lastTwo hrecord))
      have htopA := h.above hrecord (List.mem_of_mem_drop ha) hcounterA hlow
      have htopB := h.above hrecord (List.mem_of_mem_drop hb) hcounterB (UInt64.lt_trans hlow hhigh)
      exact absurd (not_three hrecord htopA htopB hlow hhigh) id
    · exact hkept
  others := fun record hrecord => h.others record (List.mem_of_mem_drop hrecord)
  first := h.first.sublist (List.drop_sublist ..)
  range := by
    rw [← h.range]
    refine ⟨fun ⟨record, hrecord, hrange⟩ => ⟨record, List.mem_of_mem_drop hrecord, hrange⟩, ?_⟩
    rintro ⟨record, hrecord, hrange⟩
    rw [← List.take_append_drop count ring] at hrecord
    rcases List.mem_append.mp hrecord with hdropped | hkept
    · exact (hcovered record hdropped (EvidenceRecord.isCounter_of_inRange hrange)).inRange hrange
    · exact ⟨record, hkept, hrange⟩

theorem Ring.gauge (hgauge : record.isCounter = false) : Ring fed (ring ++ [record]) where
  top := fun last hlast => List.mem_append_left _ (h.top last hlast)
  others := by
    refine List.forall_mem_append.mpr ⟨h.others, List.forall_mem_singleton.mpr fun hcounter => ?_⟩
    rw [hgauge] at hcounter
    cases hcounter
  first := by
    refine List.pairwise_append.mpr ⟨h.first, List.pairwise_singleton .., fun a _ b hb hcounter => ?_⟩
    rw [List.mem_singleton.mp hb, hgauge] at hcounter
    cases hcounter
  range := by
    have hrange : record.inRange = false := by
      cases hcase : record.inRange with
      | false => rfl
      | true => rw [EvidenceRecord.isCounter_of_inRange hcase] at hgauge; cases hgauge
    simpa [or_and_right, exists_or, hrange] using h.range

theorem Ring.below (hcovered : Covered ring record) :
    2 ≤ fed.length ∧ ∀ last ∈ lastTwo fed, record.observation.sequence < last.observation.sequence := by
  obtain ⟨a, ha, b, hb, hcounterA, hcounterB, hlow, hhigh, -⟩ := hcovered
  rcases h.others a ha hcounterA with htopA | ⟨hlength, hbelow⟩
  · have htopB := h.above htopA hb hcounterB hhigh
    refine ⟨?_, fun last hlast => ?_⟩
    · have hascending : Ascending [a, b] := by simpa [Ascending] using hhigh
      exact le_trans (length_le_of_subset_lastTwo hascending (by simpa using ⟨htopA, htopB⟩)) (min_le_right ..)
    · by_contra hnot
      exact not_three hlast htopA htopB (UInt64.lt_of_le_of_lt (UInt64.not_lt.mp hnot) hlow) hhigh
  · exact ⟨hlength, fun last hlast => UInt64.lt_trans hlow (hbelow last hlast)⟩

theorem Ring.late (hcovered : Covered ring record)
    (hnew : ∀ other ∈ ring, other.observation.sequence ≠ record.observation.sequence) :
    Ring fed (ring ++ [record]) where
  top := fun last hlast => List.mem_append_left _ (h.top last hlast)
  others := List.forall_mem_append.mpr ⟨h.others, List.forall_mem_singleton.mpr fun _ => .inr (h.below hcovered)⟩
  first := by
    refine List.pairwise_append.mpr ⟨h.first, List.pairwise_singleton .., fun a ha b hb _ => ?_⟩
    rw [List.mem_singleton.mp hb]
    exact hnew a ha
  range := by
    rw [← h.range]
    refine ⟨?_, fun ⟨other, hother, hrange⟩ => ⟨other, List.mem_append_left _ hother, hrange⟩⟩
    rintro ⟨other, hother, hrange⟩
    rcases List.mem_append.mp hother with hearlier | hsame
    · exact ⟨other, hearlier, hrange⟩
    · rw [List.mem_singleton.mp hsame] at hrange
      exact hcovered.inRange hrange

theorem Ring.feed (hfed : Ascending fed)
    (habove : ∀ other ∈ ring, other.observation.sequence < record.observation.sequence) :
    Ring (fed ++ [record]) (ring ++ [record]) where
  top := by
    intro last hlast
    rcases mem_lastTwo_snoc.mp hlast with hprevious | rfl
    · exact List.mem_append_left _ (h.top last (getLast?_mem_lastTwo hprevious))
    · exact List.mem_append_right _ (List.mem_singleton_self _)
  others := by
    intro other hother hcounter
    rcases List.mem_append.mp hother with hearlier | hsame
    · have hsome : fed ≠ [] := by
        rintro rfl
        rcases h.others other hearlier hcounter with htop | ⟨hlength, -⟩
        · cases htop
        · cases hlength
      have hprevious := List.getLast?_eq_some_getLast hsome
      generalize fed.getLast hsome = previous at hprevious
      have hbelow : other = previous ∨ other.observation.sequence < previous.observation.sequence := by
        rcases h.others other hearlier hcounter with htop | ⟨-, hbelow⟩
        · exact lt_getLast? hfed hprevious (mem_of_lastTwo htop)
        · exact .inr (hbelow previous (getLast?_mem_lastTwo hprevious))
      rcases hbelow with rfl | hlt
      · exact .inl (mem_lastTwo_snoc.mpr (.inl hprevious))
      · refine .inr ⟨?_, fun last hlast => ?_⟩
        · have hpositive := List.length_pos_iff.mpr hsome
          rw [List.length_append, List.length_singleton]
          omega
        · rcases mem_lastTwo_snoc.mp hlast with hsame | rfl
          · rw [← Option.some.inj (hprevious.symm.trans hsame)]
            exact hlt
          · exact habove other hearlier
    · exact .inl (mem_lastTwo_snoc.mpr (.inr (List.mem_singleton.mp hsame)))
  first := by
    refine List.pairwise_append.mpr ⟨h.first, List.pairwise_singleton .., fun a ha b hb _ hsame => ?_⟩
    have hlt := habove a ha
    rw [hsame, List.mem_singleton.mp hb] at hlt
    exact UInt64.lt_irrefl _ hlt
  range := by
    simpa [or_and_right, exists_or] using or_congr_left h.range

end

/-! ## Appends -/

/-- A late counter reading is below two of the ring and its number is new to it, and the ring keeps two above each
counter reading that it drops. -/
structure Sustains (limits : FabricLimits) (stream : StreamState) (record : EvidenceRecord) : Prop where
  late : record.isCounter = true → stream.feeds record.observation.sequence = false → Covered stream.recent record ∧
    ∀ other ∈ stream.recent, other.observation.sequence ≠ record.observation.sequence
  dropped : ∀ other ∈ (stream.recent ++ [record]).take ((stream.recent ++ [record]).length - limits.maxStreamHistory),
    other.isCounter = true →
      Covered ((stream.recent ++ [record]).drop ((stream.recent ++ [record]).length - limits.maxStreamHistory)) other

instance (limits : FabricLimits) (stream : StreamState) (record : EvidenceRecord) :
    Decidable (Sustains limits stream record) :=
  decidable_of_iff (_ ∧ _) ⟨fun h => ⟨h.1, h.2⟩, fun h => ⟨h.late, h.dropped⟩⟩

/-- The tracker has taken the counter readings `fed`, and the ring keeps what matters of them. -/
structure Carries (config : CounterContinuityConfig) (key : StreamKey) (fed : List EvidenceRecord)
    (stream : StreamState) : Prop where
  ascending : Ascending fed
  keyed : ∀ record ∈ fed, record.observation.streamKey = key
  counters : ∀ record ∈ fed, record.isCounter = true
  tracks : Tracks config (counterReadings fed) stream
  ring : Ring fed stream.recent

variable {key : StreamKey}

theorem carries_fresh (config : CounterContinuityConfig) (key : StreamKey) : Carries config key [] StreamState.fresh :=
  ⟨.nil, (fun _ h => nomatch h), (fun _ h => nomatch h), tracks_fresh config, ring_nil⟩

theorem Carries.congr (h : Carries config key fed stream) (halike : TracksAlike stream other)
    (hrecent : other.recent = stream.recent) : Carries config key fed other :=
  ⟨h.ascending, h.keyed, h.counters, h.tracks.congr halike, hrecent ▸ h.ring⟩

theorem counterReading?_of_gauge (h : record.isCounter = false) : record.counterReading? = none := by
  unfold EvidenceRecord.isCounter at h
  exact Option.isSome_eq_false_iff.mp h |> Option.isNone_iff_eq_none.mp

section Carries
variable (h : Carries config key fed stream) (hsustains : Sustains limits stream record) (reordered : Bool)
include h hsustains

theorem Carries.pass (hnone : stream.fedReading? record = none) (hring : Ring fed (stream.recent ++ [record])) :
    Carries config key fed (stream.accept limits record config reordered).2 := by
  have htracks := h.tracks.accept limits record reordered
  rw [hnone, Option.toList_none, List.append_nil] at htracks
  refine ⟨h.ascending, h.keyed, h.counters, htracks, ?_⟩
  rw [accept_recent]
  exact hring.drop h.counters _ hsustains.dropped

theorem Carries.gauge (hgauge : record.isCounter = false) :
    Carries config key fed (stream.accept limits record config reordered).2 := by
  refine h.pass hsustains reordered ?_ (h.ring.gauge hgauge)
  rw [fedReading?, counterReading?_of_gauge hgauge, ite_self]

theorem Carries.late (hfeeds : stream.feeds record.observation.sequence = false) (hcounter : record.isCounter = true) :
    Carries config key fed (stream.accept limits record config reordered).2 := by
  obtain ⟨hcovered, hnew⟩ := hsustains.late hcounter hfeeds
  refine h.pass hsustains reordered ?_ (h.ring.late hcovered hnew)
  rw [fedReading?, hfeeds]
  rfl

theorem Carries.feed (hkey : record.observation.streamKey = key) (hfeeds : stream.feeds record.observation.sequence = true)
    (hcounter : record.isCounter = true)
    (hring : ∀ other ∈ stream.recent, other.observation.sequence < record.observation.sequence)
    (hfed : ∀ other ∈ fed, other.observation.sequence < record.observation.sequence) :
    Carries config key (fed ++ [record]) (stream.accept limits record config reordered).2 := by
  have hcounters : ∀ other ∈ fed ++ [record], other.isCounter = true :=
    List.forall_mem_append.mpr ⟨h.counters, List.forall_mem_singleton.mpr hcounter⟩
  refine ⟨?_, ?_, hcounters, ?_, ?_⟩
  · refine List.pairwise_append.mpr ⟨h.ascending, List.pairwise_singleton .., fun a ha b hb => ?_⟩
    rw [List.mem_singleton.mp hb]
    exact hfed a ha
  · exact List.forall_mem_append.mpr ⟨h.keyed, List.forall_mem_singleton.mpr hkey⟩
  · have htracks := h.tracks.accept limits record reordered
    rw [fedReading?, hfeeds] at htracks
    rwa [counterReadings_append, counterReadings_singleton]
  · rw [accept_recent]
    exact (h.ring.feed h.ascending hring).drop hcounters _ hsustains.dropped

end Carries

/-- The record fed last is the last counter reading or above it. -/
structure Continues (config : CounterContinuityConfig) (key : StreamKey) (newest : EvidenceRecord)
    (fed : List EvidenceRecord) (stream : StreamState) : Prop extends Carries config key fed stream where
  below : ∀ record ∈ fed, record = newest ∨ record.observation.sequence < newest.observation.sequence
  newestFed : newest.isCounter = true → newest ∈ fed

theorem Continues.le {newest : EvidenceRecord} (h : Continues config key newest fed stream) (hrecord : record ∈ fed) :
    record.observation.sequence ≤ newest.observation.sequence := by
  rcases h.below record hrecord with rfl | hlt
  · exact UInt64.le_refl _
  · exact UInt64.le_of_lt hlt

theorem Carries.next (h : Carries config key fed stream) (hsustains : Sustains limits stream record)
    (hkey : record.observation.streamKey = key) (hfeeds : stream.feeds record.observation.sequence = true)
    (hring : ∀ other ∈ stream.recent, other.observation.sequence < record.observation.sequence)
    (hfed : ∀ other ∈ fed, other.observation.sequence < record.observation.sequence) (reordered : Bool) :
    ∃ fed', Continues config key record fed' (stream.accept limits record config reordered).2 := by
  cases hcounter : record.isCounter with
  | false =>
    refine ⟨fed, h.gauge hsustains reordered hcounter, fun other hother => .inr (hfed other hother), fun hsame => ?_⟩
    rw [hcounter] at hsame
    cases hsame
  | true =>
    refine ⟨fed ++ [record], h.feed hsustains reordered hkey hfeeds hcounter hring hfed, fun other hother => ?_, fun _ =>
      List.mem_append_right _ (List.mem_singleton_self _)⟩
    rcases List.mem_append.mp hother with hearlier | hsame
    · exact .inr (hfed other hearlier)
    · exact .inl (List.mem_singleton.mp hsame)

/-- The window neither remembers this number nor has moved past it. -/
def NewToWindow (window : ℕ) (stream : StreamState) (sequence : UInt64) : Prop :=
  stream.dedup[sequence]? = none ∧
    ∀ watermark ∈ stream.watermark, sequence < watermark → watermark - sequence ≤ UInt64.ofNat window

theorem newToWindow_iff : NewToWindow window stream sequence ↔ stream.dedup[sequence]? = none ∧
      (stream.watermark.all fun watermark =>
        decide (sequence < watermark → watermark - sequence ≤ UInt64.ofNat window)) = true := by
  unfold NewToWindow
  refine and_congr_right fun _ => ?_
  cases stream.watermark with
  | none => exact ⟨fun _ => rfl, fun _ _ h => nomatch h⟩
  | some watermark =>
    rw [Option.all_some, decide_eq_true_iff]
    exact ⟨fun h => h watermark rfl, fun h other hother => Option.some.inj hother ▸ h⟩

-- Decided from the watermark itself: the instance found for the quantifier runs over every number.
instance (window : ℕ) (stream : StreamState) (sequence : UInt64) : Decidable (NewToWindow window stream sequence) :=
  decidable_of_iff' _ newToWindow_iff

theorem newToWindow_of_accept {digest watermark : UInt64} {reordered : Bool}
    (hmark : stream.watermark = some watermark) (h : stream.verdict window sequence digest = .accept reordered) :
    NewToWindow window stream sequence := by
  unfold verdict at h
  simp only [hmark] at h
  split at h
  · split at h <;> cases h
  next hnone =>
  refine ⟨hnone, fun other hother hlt => ?_⟩
  obtain rfl := Option.some.inj (hmark.symm.trans hother)
  rw [if_pos hlt] at h
  split at h
  · cases h
  · next hinside => exact UInt64.not_lt.mp hinside

def Sustained (window : ℕ) (config : CounterContinuityConfig) (key : StreamKey) (stream : StreamState) : Prop :=
  ∃ newest fed, Kept window key stream newest ∧ Continues config key newest fed stream

theorem sustained_append (hwindow : limits.maxDedupWindow < 2 ^ 64)
    (h : stream = .fresh ∨ Sustained limits.maxDedupWindow config key stream)
    (hkey : record.observation.streamKey = key)
    (hsustains : NewToWindow limits.maxDedupWindow stream record.observation.sequence →
      Sustains limits stream record) :
    Sustained limits.maxDedupWindow config key (stream.append limits record config).2 := by
  subst hkey
  rcases h with rfl | ⟨newest, fed, hkept, hcontinues⟩
  · obtain ⟨fed, hfed⟩ := (carries_fresh config _).next (hsustains ⟨rfl, fun _ h => nomatch h⟩) rfl rfl
      (fun _ h => nomatch h) (fun _ h => nomatch h) false
    rw [(topped_first hwindow record config).1]
    exact ⟨record, fed, kept_first hwindow record config, hfed⟩
  rcases append_cases limits stream record config with ⟨reordered, hverdict, hresult⟩ | ⟨-, stats, hresult⟩
  · rw [hresult]
    have hmeets := hsustains (newToWindow_of_accept hkept.mark hverdict)
    have hnext := hkept.accept hwindow rfl config reordered
    have hfeeds : stream.feeds record.observation.sequence =
        decide (newest.observation.sequence < record.observation.sequence) := by
      unfold feeds
      rw [hkept.fed]
    by_cases hlt : newest.observation.sequence < record.observation.sequence
    · obtain ⟨fed', hfed'⟩ := hcontinues.toCarries.next hmeets rfl (hfeeds.trans (decide_eq_true hlt))
        (fun other hother => UInt64.lt_of_le_of_lt (hkept.below other hother) hlt)
        (fun other hother => UInt64.lt_of_le_of_lt (hcontinues.le hother) hlt) reordered
      rw [newer, if_pos hlt] at hnext
      exact ⟨record, fed', hnext, hfed'⟩
    · rw [newer, if_neg hlt] at hnext
      rw [decide_eq_false hlt] at hfeeds
      refine ⟨newest, fed, hnext, ?_, hcontinues.below, hcontinues.newestFed⟩
      cases hcounter : record.isCounter with
      | false => exact hcontinues.toCarries.gauge hmeets reordered hcounter
      | true => exact hcontinues.toCarries.late hmeets reordered hfeeds hcounter
  · rw [hresult]
    exact ⟨newest, fed, ⟨⟨hkept.latest, hkept.fed, hkept.mark⟩, hkept.keyed, hkept.below, hkept.remembered, hkept.range⟩,
      hcontinues.toCarries.congr ⟨rfl, rfl, rfl, rfl, rfl⟩ rfl, hcontinues.below, hcontinues.newestFed⟩

theorem eq_append_lastTwo (hrecords : Ascending records) (hfed : Ascending fed)
    (htop : ∀ record ∈ lastTwo fed, record ∈ records) (hothers : ∀ record ∈ records, record ∈ lastTwo fed ∨
      2 ≤ fed.length ∧ ∀ last ∈ lastTwo fed, record.observation.sequence < last.observation.sequence) :
    ∃ earlier, records = earlier ++ lastTwo fed ∧ (fed.length < 2 → earlier = []) := by
  have hasymm : Std.Antisymm fun a b : EvidenceRecord => a.observation.sequence < b.observation.sequence :=
    ⟨fun a b hab hba => absurd hba (UInt64.lt_asymm hab)⟩
  have hirrefl : Std.Irrefl fun a b : EvidenceRecord => a.observation.sequence < b.observation.sequence :=
    ⟨fun a => UInt64.lt_irrefl _⟩
  classical
  have hbelow : ∀ record ∈ records.filter fun record => record ∉ lastTwo fed,
      2 ≤ fed.length ∧ ∀ last ∈ lastTwo fed, record.observation.sequence < last.observation.sequence := by
    intro record hrecord
    obtain ⟨hmem, hnot⟩ := List.mem_filter.mp hrecord
    exact (hothers record hmem).resolve_left (of_decide_eq_true hnot)
  refine ⟨records.filter fun record => record ∉ lastTwo fed, ?_, fun hshort => ?_⟩
  · refine List.Subset.antisymm_of_pairwise hrecords ?_ ?_ ?_
    · exact List.pairwise_append.mpr ⟨hrecords.filter _, hfed.sublist (List.drop_sublist ..),
        fun record hrecord => (hbelow record hrecord).2⟩
    · intro record hrecord
      by_cases hlast : record ∈ lastTwo fed
      · exact List.mem_append_right _ hlast
      · exact List.mem_append_left _ (List.mem_filter.mpr ⟨hrecord, decide_eq_true hlast⟩)
    · intro record hrecord
      rcases List.mem_append.mp hrecord with hearlier | hlast
      · exact List.mem_of_mem_filter hearlier
      · exact htop record hlast
  · refine List.eq_nil_iff_forall_not_mem.mpr fun record hrecord => ?_
    have hlong := (hbelow record hrecord).1
    omega

section Retained
variable {newest : EvidenceRecord}

theorem Continues.newest_mem (h : Continues config key newest fed stream) (hcounter : newest.isCounter = true) :
    newest ∈ stream.recent := by
  have hfed := h.newestFed hcounter
  have hlast := List.getLast?_eq_some_getLast (List.ne_nil_of_mem hfed)
  rcases lt_getLast? h.ascending hlast hfed with hsame | hlt
  · refine h.ring.top newest (getLast?_mem_lastTwo ?_)
    rw [hlast, ← hsame]
  · exact absurd hlt (UInt64.not_lt.mpr (h.le (List.getLast_mem _)))

theorem Continues.eq_of_number (h : Continues config key newest fed stream) (hrecord : record ∈ stream.recent)
    (hcounter : record.isCounter = true) (hsame : newest.observation.sequence = record.observation.sequence) :
    record = newest := by
  rcases h.ring.others record hrecord hcounter with htop | ⟨hlong, hbelow⟩
  · refine (h.below record (mem_of_lastTwo htop)).resolve_right fun hlt => ?_
    rw [hsame] at hlt
    exact UInt64.lt_irrefl _ hlt
  · have hsome : fed ≠ [] := by
      rintro rfl
      cases hlong
    have hlt := hbelow _ (getLast?_mem_lastTwo (List.getLast?_eq_some_getLast hsome))
    rw [← hsame] at hlt
    exact absurd hlt (UInt64.not_lt.mpr (h.le (List.getLast_mem _)))

end Retained

end StreamState

namespace EvidenceStore
open StreamState CounterContinuity
variable {store : EvidenceStore} {key : StreamKey} {stream : StreamState} {config : CounterContinuityConfig}
  {newest : EvidenceRecord} {fed : List EvidenceRecord}

/-! ## The replay -/

variable {record : EvidenceRecord}

theorem mem_foldl_keepNew {kept before after : List EvidenceRecord}
    (hkept : (kept.map fun record => record.observation.sequence).Nodup)
    (hnew : ∀ other, other ∈ kept ∨ other ∈ before → other.observation.sequence ≠ record.observation.sequence) :
    record ∈ (before ++ record :: after).foldl keepNew kept := by
  obtain ⟨hnodup, -, hfrom⟩ := foldl_keepNew before kept hkept
  have hmore : keepNew (before.foldl keepNew kept) record = before.foldl keepNew kept ++ [record] := by
    refine if_neg fun hany => ?_
    obtain ⟨other, hother, hsame⟩ := List.any_eq_true.mp hany
    exact hnew other (List.mem_append.mp (hfrom hother)) (of_decide_eq_true hsame)
  rw [List.foldl_append, List.foldl_cons]
  refine (foldl_keepNew after _ (keepNew_nodup record hnodup)).2.1 ?_
  rw [hmore]
  exact List.mem_append_right _ (List.mem_singleton_self _)

theorem counter_mem_retainedOf (hlatest : stream.latestFed = some newest) (h : Continues config key newest fed stream)
    (hcounter : record.isCounter = true) : record ∈ retainedOf stream ↔ record ∈ stream.recent := by
  constructor
  · intro hrecord
    have hmem := mem_of_retainedOf hrecord
    rw [held, hlatest] at hmem
    rcases List.mem_append.mp hmem with hnewest | hrecent
    · obtain rfl := Option.some.inj (Option.mem_toList.mp hnewest)
      exact h.newest_mem hcounter
    · exact hrecent
  · intro hrecord
    by_cases hsame : newest.observation.sequence = record.observation.sequence
    · rw [h.eq_of_number hrecord hcounter hsame]
      exact latestFed_mem_retainedOf hlatest
    · obtain ⟨before, after, hrecent⟩ := List.append_of_mem hrecord
      have hfirst := h.ring.first
      rw [hrecent] at hfirst
      have hfold : retainedOf stream = (before ++ record :: after).foldl keepNew [newest] := by
        rw [retainedOf, held, hlatest, hrecent]
        rfl
      rw [hfold]
      refine mem_foldl_keepNew (List.nodup_singleton _) fun other hother => ?_
      rcases hother with hnewest | hearlier
      · rw [List.mem_singleton.mp hnewest]
        exact hsame
      · exact (List.pairwise_append.mp hfirst).2.2 other hearlier record List.mem_cons_self hcounter

/-- The streams agree on what was fed last and respond alike to every further reading. -/
structure SameContinuity (stream other : StreamState) : Prop where
  fedSequence : other.fedSequence = stream.fedSequence
  lastDelta : other.lastDelta = stream.lastDelta
  lastCounterEvent : other.lastCounterEvent = stream.lastCounterEvent
  rateAdmissible : other.rateAdmissible = stream.rateAdmissible
  responses : ∀ entries, responseMachine.trace other.counter entries = responseMachine.trace stream.counter entries

theorem sameContinuity_of_tracks {other : StreamState} {readings others : List CounterObservation}
    (hfed : other.fedSequence = stream.fedSequence) (h : Tracks config readings stream)
    (hother : Tracks config others other) (hstep : lastStep config others = lastStep config readings)
    (halike : Alike (tracked config readings) (tracked config others)) : SameContinuity stream other where
  fedSequence := hfed
  lastDelta := by rw [h.delta, hother.delta, hstep]
  lastCounterEvent := by rw [h.event, hother.event, hstep]
  rateAdmissible := by rw [h.rate, hother.rate, hstep]
  responses := by
    rw [h.counter, hother.counter]
    exact halike.responses

theorem alike_refl (tracker : CounterContinuity) : Alike tracker tracker :=
  ⟨⟨rfl, fun _ => rfl, fun _ => rfl, fun _ => rfl, fun _ => rfl⟩, rfl, fun _ => rfl, fun _ => rfl⟩

theorem ordered_readings {records : List EvidenceRecord} (hascending : Ascending records)
    (hkeyed : ∀ record ∈ records, record.observation.streamKey = key) :
    Ordered key.source.incarnation key.link.generation (counterReadings records) := by
  refine ⟨?_, fun reading hreading => ?_⟩
  · refine List.pairwise_filterMap.mpr (hascending.imp fun hlt a ha b hb => ?_)
    rw [(EvidenceRecord.counterReading?_spec ha).1, (EvidenceRecord.counterReading?_spec hb).1]
    exact hlt
  · obtain ⟨record, hrecord, hsome⟩ := List.mem_filterMap.mp hreading
    rw [← hkeyed record hrecord]
    exact (EvidenceRecord.counterReading?_spec hsome).2

theorem counterReading?_of_counter (h : record.isCounter = true) :
    ∃ reading, record.counterReading? = some reading := Option.isSome_iff_exists.mp h

theorem readings_replay (origin : EvidenceOrigin) (config : CounterContinuityConfig) (records : List EvidenceRecord) :
    counterReadings ((records.map (replayCall origin fun _ => config)).map AppendCall.record) =
      counterReadings records := by
  unfold counterReadings
  rw [List.map_map, List.filterMap_map]
  rfl

theorem Settled.retained_counters (h : Settled store) (hstream : store.streams[key]? = some stream)
    (hlatest : stream.latestFed = some newest) (hcontinues : Continues config key newest fed stream) :
    (∃ earlier, (recordsFor key store.retainedRecords).filter EvidenceRecord.isCounter = earlier ++ lastTwo fed ∧
        (fed.length < 2 → earlier = [])) ∧
      (recordsFor key store.retainedRecords).any EvidenceRecord.inRange = fed.any EvidenceRecord.inRange := by
  have hmem : ∀ record : EvidenceRecord, record.isCounter = true →
      (record ∈ recordsFor key store.retainedRecords ↔ record ∈ stream.recent) := fun record hcounter =>
    (recordsFor_retained h.keyed hstream).mem_iff.trans (counter_mem_retainedOf hlatest hcontinues hcounter)
  constructor
  · refine eq_append_lastTwo ((recordsFor_ascending h.keyed hstream).filter _) hcontinues.ascending ?_ ?_
    · intro record hrecord
      have hcounter := hcontinues.counters record (mem_of_lastTwo hrecord)
      exact List.mem_filter.mpr ⟨(hmem record hcounter).mpr (hcontinues.ring.top record hrecord), hcounter⟩
    · intro record hrecord
      obtain ⟨hretained, hcounter⟩ := List.mem_filter.mp hrecord
      exact hcontinues.ring.others record ((hmem record hcounter).mp hretained) hcounter
  · rw [Bool.eq_iff_iff, List.any_eq_true, List.any_eq_true, ← hcontinues.ring.range]
    refine exists_congr fun record => and_congr_left fun hrange => ?_
    exact hmem record (EvidenceRecord.isCounter_of_inRange hrange)

theorem Settled.replayed_continuity (h : Settled store) (hstream : store.streams[key]? = some stream)
    (hkept : Kept store.limits.maxDedupWindow key stream newest) (hcontinues : Continues config key newest fed stream)
    (origin : EvidenceOrigin) : SameContinuity stream (store.replayedStream origin (fun _ => config) key) := by
  have hascending := recordsFor_ascending h.keyed hstream
  have htracks : Tracks config (counterReadings (recordsFor key store.retainedRecords))
      (store.replayedStream origin (fun _ => config) key) := by
    rw [← readings_replay origin config]
    refine tracks_ascending h.window _ (List.pairwise_map.mpr hascending) fun call hcall => ?_
    obtain ⟨record, -, rfl⟩ := List.mem_map.mp hcall
    rfl
  have hfed : (store.replayedStream origin (fun _ => config) key).fedSequence = stream.fedSequence := by
    rw [(h.replayed_ascended origin (fun _ => config) hstream).fed, (h.replayed_window origin (fun _ => config)
      hstream hkept).1, hkept.fed]
  obtain ⟨⟨earlier, hsplit, hshort⟩, hrange⟩ := h.retained_counters hstream hkept.latest hcontinues
  by_cases hlong : fed.length < 2
  · have hall : lastTwo fed = fed := by
      unfold lastTwo
      rw [show fed.length - 2 = 0 by omega, List.drop_zero]
    rw [← counterReadings_filter, hsplit, hshort hlong, hall, List.nil_append] at htracks
    exact sameContinuity_of_tracks hfed hcontinues.tracks htracks rfl (alike_refl _)
  · obtain ⟨init, previous, last, hlast⟩ : ∃ init previous last, fed = init ++ [previous] ++ [last] := by
      obtain ⟨front, last, rfl⟩ := (List.eq_nil_or_concat fed).resolve_left (by rintro rfl; exact hlong (by decide))
      obtain ⟨init, previous, rfl⟩ := (List.eq_nil_or_concat front).resolve_left (by rintro rfl; exact hlong (by simp))
      exact ⟨init, previous, last, by simp⟩
    have hcounters : ∀ record ∈ [previous, last], record.isCounter = true := by
      intro record hrecord
      refine hcontinues.counters record ?_
      rw [hlast]
      simp only [List.mem_cons, List.not_mem_nil, or_false] at hrecord
      rcases hrecord with rfl | rfl <;> simp
    obtain ⟨before, hbefore⟩ := counterReading?_of_counter (hcounters previous (by simp))
    obtain ⟨after, hafter⟩ := counterReading?_of_counter (hcounters last (by simp))
    have hreadings : ∀ front : List EvidenceRecord, counterReadings (front ++ [previous] ++ [last]) =
        counterReadings front ++ [before] ++ [after] := by
      intro front
      rw [counterReadings_append, counterReadings_append, counterReadings_singleton, counterReadings_singleton,
        hbefore, hafter]
      rfl
    have hretained : counterReadings (recordsFor key store.retainedRecords) =
        counterReadings earlier ++ [before] ++ [after] := by
      rw [← counterReadings_filter, hsplit, hlast, lastTwo_snoc_snoc, ← hreadings, List.append_assoc]
      rfl
    have hordered := ordered_readings hcontinues.ascending hcontinues.keyed
    have horderedRetained := ordered_readings hascending fun record hrecord =>
      of_decide_eq_true (List.mem_filter.mp hrecord).2
    have hlive := hcontinues.tracks
    have hsameRange : (counterReadings (recordsFor key store.retainedRecords)).any CounterContinuity.inRange =
        (counterReadings fed).any CounterContinuity.inRange := by
      rw [any_counterReadings, any_counterReadings, hrange]
    rw [hlast, hreadings] at hordered hlive hsameRange
    rw [hretained] at horderedRetained htracks hsameRange
    refine sameContinuity_of_tracks hfed hlive htracks ?_ (tracked_alike hordered horderedRetained config hsameRange)
    rw [lastStep_snoc, lastStep_snoc]
    exact tracked_last_two hordered horderedRetained config

/-! ## Snapshots of a run -/

/-- An append to the stream of a number that is new to its window keeps its continuity in the ring. -/
def KeepsContinuity (limits : FabricLimits) (key : StreamKey) (store : EvidenceStore) (call : AppendCall) : Prop :=
  call.observation.streamKey = key →
    NewToWindow limits.maxDedupWindow (store.streamAt call.observation.streamKey) call.observation.sequence →
      Sustains limits (store.streamAt call.observation.streamKey) call.record

instance (limits : FabricLimits) (key : StreamKey) (store : EvidenceStore) (call : AppendCall) :
    Decidable (KeepsContinuity limits key store call) :=
  inferInstanceAs (Decidable (_ → _ → _))

/-- **A snapshot rebuilds counter continuity** where the ring keeps what the trackers rest on: after such appends with
one configuration, the retained records rebuild the stream with the same continuity, whatever the others do. -/
theorem continuity_survives_snapshot (limits : FabricLimits) (hwindow : limits.maxDedupWindow < 2 ^ 64)
    (config : CounterContinuityConfig) (calls : List AppendCall) (key : StreamKey)
    (hconfig : ∀ call ∈ calls, call.observation.streamKey = key → call.config = config)
    (hkeeps : appendMachine.Meets (KeepsContinuity limits key) (empty limits) calls) (store : EvidenceStore)
    (hstore : store = appendMachine.final (empty limits) calls) (origin : EvidenceOrigin) :
    Option.Rel SameContinuity (store.find key) ((store.replayed origin fun _ => config).find key) := by
  subst hstore
  obtain ⟨hsettled, hlimits⟩ := settled_of_run hwindow calls
  have hsustained := streams_invariant (fun stream call => (call.observation.streamKey = key →
      NewToWindow limits.maxDedupWindow stream call.observation.sequence → Sustains limits stream call.record) ∧
        (call.observation.streamKey = key → call.config = config))
    (Q := fun other stream => other = key → Sustained limits.maxDedupWindow config other stream) (by
      rintro stream call hstream ⟨hsustains, hconfig⟩ hkey
      obtain rfl := hconfig hkey
      exact sustained_append hwindow (hstream.imp_right fun h => h hkey) rfl (hsustains hkey))
    (appendMachine.meets_and hkeeps (appendMachine.meets_of_forall (empty limits) hconfig))
  unfold find
  rw [hsettled.replayed_streams]
  cases hstream : (appendMachine.final (empty limits) calls).streams[key]? with
  | none => exact .none
  | some stream =>
    obtain ⟨newest, fed, hkept, hcontinues⟩ := hsustained key stream hstream rfl
    rw [← hlimits] at hkept
    exact .some (hsettled.replayed_continuity hstream hkept hcontinues origin)

/-! A counter that is read with 10 under the number 1, and so on. -/

def counterCall (sequence : UInt64) : AppendCall :=
  { gaugeCall sequence with
    observation := { (gaugeCall sequence).observation with
      metric := ⟨.errorCounter, text "crc"⟩
      unit := .count
      reading := .counter ⟨10 * sequence, .bits64, false⟩ } }

def counterRun (limits : FabricLimits) (sequences : List UInt64) : EvidenceStore :=
  appendMachine.final (empty limits) (sequences.map counterCall)

def counterKey : StreamKey := (counterCall 1).observation.streamKey

def counterReplay (limits : FabricLimits) (sequences : List UInt64) : EvidenceStore :=
  (counterRun limits sequences).replayed .recovered fun _ => .defaults

/-- A late reading, and a ring of one that drops the reading before the last: the replay compares with others. -/
theorem late_and_dropped_readings :
    FabricLimits.defaults.validate = .ok () ∧ smallWindow.validate = .ok () ∧
      ((counterRun .defaults [1, 3, 2]).find counterKey).map StreamState.lastDelta =
        some (some ⟨20, 0, true, false⟩) ∧
      ((counterReplay .defaults [1, 3, 2]).find counterKey).map StreamState.lastDelta =
        some (some ⟨10, 0, true, false⟩) ∧
      ((counterRun smallWindow [1, 2]).find counterKey).map StreamState.lastCounterEvent = some .advance ∧
      ((counterReplay smallWindow [1, 2]).find counterKey).map StreamState.lastCounterEvent = some .baseline := by
  decide +kernel

theorem late_reading_below_two :
    appendMachine.Meets (KeepsContinuity .defaults counterKey) (empty .defaults) ([2, 3, 4, 1].map counterCall) ∧
      Option.Rel SameContinuity ((counterRun .defaults [2, 3, 4, 1]).find counterKey)
        ((counterReplay .defaults [2, 3, 4, 1]).find counterKey) := by
  have hkeeps : appendMachine.Meets (KeepsContinuity .defaults counterKey) (empty .defaults)
      ([2, 3, 4, 1].map counterCall) :=
    by decide +kernel
  exact ⟨hkeeps, continuity_survives_snapshot .defaults (by decide) .defaults _ _ (by decide) hkeeps _ rfl .recovered⟩

end EvidenceStore

end Lqf
