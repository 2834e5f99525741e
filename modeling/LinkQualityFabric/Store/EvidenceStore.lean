import LinkQualityFabric.Domain.Counter
import LinkQualityFabric.Runtime.Config

/-! The evidence store: `src/store/evidence_store.cpp`.

Each stream keeps a ring of recent records, a watermark and a window of accepted sequence numbers with
their digests. A sequence number in the window is answered from it; one that is too far below the
watermark is fenced; anything else is accepted. -/
namespace Lqf
open Foundations Std
set_option autoImplicit false

structure StreamStats where
  accepted : UInt64
  duplicates : UInt64
  reordered : UInt64
  rejected : UInt64
  evicted : UInt64
  continuityBreaks : UInt64
  deriving DecidableEq, Repr, Inhabited

structure StreamState where
  recent : List EvidenceRecord
  dedup : ExtTreeMap UInt64 UInt64
  watermark : Option UInt64
  fedSequence : Option UInt64
  counter : CounterContinuity
  lastCounterEvent : CounterEvent
  lastCounterReason : ReasonCode
  lastDelta : Option CounterDelta
  rateAdmissible : Bool
  latestFed : Option EvidenceRecord
  stats : StreamStats

def StreamState.fresh : StreamState :=
  ⟨[], ∅, none, none, .initial, .baseline, .none, none, false, none, ⟨0, 0, 0, 0, 0, 0⟩⟩

structure IngestOutcome where
  accepted : Bool
  duplicate : Bool
  reordered : Bool
  reason : ReasonCode
  counterEvent : CounterEvent
  continuityBroken : Bool
  rateAdmissible : Bool
  streamDepth : ℕ
  evicted : ℕ
  deriving DecidableEq, Repr, Inhabited

def IngestOutcome.none : IngestOutcome := ⟨false, false, false, .none, .baseline, false, false, 0, 0⟩

structure EvidenceStore where
  limits : FabricLimits
  streams : ExtTreeMap StreamKey StreamState
  history : List EvidenceRecord
  streamsPerLink : ExtTreeMap LinkIdentity ℕ

/-! ## Digest -/

def renderReading (reading : Reading) (unit : MeasurementUnit) : Text :=
  match reading with
  | .gauge gauge => formatDouble gauge.value ++ text " " ++ unit.name
  | .counter counter =>
    formatU64 counter.value ++ text " " ++ unit.name ++ text " (" ++ counter.width.name ++ text ")" ++
      if counter.resetDeclared then text " reset-declared" else []

def EvidenceClass.name : EvidenceClass → Text
  | .real => text "real"
  | .synthetic => text "synthetic"
  | .simulated => text "simulated"
  | .count => text "invalid"

/-- The text `evidence_digest` hashes. -/
def canonicalText (observation : Observation) : Text :=
  observation.metric.render ++ text "|" ++
    formatU64 (if observation.lane.aggregate then 0xFFFFFFFFFFFFFFFF else observation.lane.lane.toUInt64) ++
    text "|" ++ observation.unit.name ++ text "|" ++ renderReading observation.reading observation.unit ++
    text "|" ++ formatI64 observation.observedAt.unixNanos ++ text "|" ++ formatU64 observation.authority ++
    text "|" ++ observation.provenance.evidenceClass.name

@[irreducible] def evidenceDigest (observation : Observation) : UInt64 := fnv1a64 (canonicalText observation)

/-! ## The dedup window -/

/-- The pruning test of `append`: at least a whole window below the watermark. -/
def outOfWindow (watermark : UInt64) (window : ℕ) (sequence : UInt64) : Bool :=
  sequence ≤ watermark && UInt64.ofNat window ≤ watermark - sequence

/-- The pruning loop, over the keys in map order: it stops at the first one that stays. -/
def pruneLoop (watermark : UInt64) (window : ℕ) :
    List UInt64 → ExtTreeMap UInt64 UInt64 → ExtTreeMap UInt64 UInt64
  | [], dedup => dedup
  | oldest :: rest, dedup =>
    if outOfWindow watermark window oldest then pruneLoop watermark window rest (dedup.erase oldest) else dedup

def pruneDedup (watermark : UInt64) (window : ℕ) (dedup : ExtTreeMap UInt64 UInt64) :
    ExtTreeMap UInt64 UInt64 :=
  pruneLoop watermark window dedup.keys dedup

/-! ## Appending to a stream -/

def EvidenceStore.isAccepted : Outcome IngestOutcome → Bool
  | .ok outcome => outcome.accepted
  | .error _ => false

namespace StreamState

def held (stream : StreamState) : List EvidenceRecord := stream.latestFed.toList ++ stream.recent

/-- What `append` decides before it stores anything. -/
inductive Verdict where
  | duplicate
  | idMismatch
  | fenced
  | accept (reordered : Bool)
  deriving DecidableEq, Repr

def verdict (window : ℕ) (stream : StreamState) (sequence digest : UInt64) : Verdict :=
  match stream.watermark with
  | none => .accept false
  | some watermark =>
    match stream.dedup[sequence]? with
    | some known => if known = digest then .duplicate else .idMismatch
    | none =>
      if sequence < watermark then
        (if UInt64.ofNat window < watermark - sequence then .fenced else .accept true)
      else .accept false

def counterObservation (observation : Observation) (received : ReceiveStamp) (counter : CounterReading) :
    CounterObservation where
  value := counter.value
  width := counter.width
  resetDeclared := counter.resetDeclared
  observedNanos := observation.observedAt.unixNanos
  receivedSteadyNanos := received.steadyNanos
  sequence := observation.sequence
  incarnation := observation.source.incarnation
  linkGeneration := observation.link.generation

/-- The watermark and the window behind an accepted sequence number. -/
def admitSequence (window : ℕ) (stream : StreamState) (sequence digest : UInt64) : StreamState :=
  let watermark :=
    match stream.watermark with
    | none => sequence
    | some watermark => if watermark < sequence then sequence else watermark
  { stream with
    dedup := pruneDedup watermark window (stream.dedup.insertIfNew sequence digest)
    watermark := some watermark }

/-- Only a sequence number above everything fed before reaches the continuity tracker. -/
def feeds (stream : StreamState) (sequence : UInt64) : Bool :=
  match stream.fedSequence with
  | none => true
  | some fed => fed < sequence

def feedCounter (stream : StreamState) (record : EvidenceRecord) (config : CounterContinuityConfig)
    (outcome : IngestOutcome) : StreamState × IngestOutcome :=
  match record.observation.reading with
  | .gauge _ => (stream, outcome)
  | .counter counter =>
    if stream.feeds record.observation.sequence then
      let stepped := stream.counter.observe
        (counterObservation record.observation record.received counter) config
      let broken := !counterEventPreservesContinuity stepped.1.event
      ({ stream with
          counter := stepped.2
          lastCounterEvent := stepped.1.event
          lastCounterReason := stepped.1.reason
          lastDelta := stepped.1.delta
          rateAdmissible := stepped.2.rateAdmissible
          stats := { stream.stats with
            continuityBreaks := if broken then stream.stats.continuityBreaks + 1 else stream.stats.continuityBreaks } },
        { outcome with counterEvent := stepped.1.event, continuityBroken := broken })
    else (stream, outcome)

def markFed (stream : StreamState) (record : EvidenceRecord) : StreamState :=
  if stream.feeds record.observation.sequence then
    { stream with latestFed := some record, fedSequence := some record.observation.sequence }
  else stream

/-- The ring of recent records, bounded from the front. -/
def pushRecent (maxHistory : ℕ) (stream : StreamState) (record : EvidenceRecord) (outcome : IngestOutcome) :
    StreamState × IngestOutcome :=
  let recent := stream.recent ++ [record]
  let evicted := recent.length - maxHistory
  ({ stream with
      recent := recent.drop evicted
      stats := { stream.stats with
        evicted := stream.stats.evicted + UInt64.ofNat evicted, accepted := stream.stats.accepted + 1 } },
    { outcome with evicted := evicted })

/-- Everything behind the decision to accept. -/
def accept (limits : FabricLimits) (stream : StreamState) (record : EvidenceRecord)
    (config : CounterContinuityConfig) (reordered : Bool) : IngestOutcome × StreamState :=
  let stream :=
    if reordered then { stream with stats := { stream.stats with reordered := stream.stats.reordered + 1 } }
    else stream
  let stream := stream.admitSequence limits.maxDedupWindow record.observation.sequence
    (evidenceDigest record.observation)
  let fed := stream.feedCounter record config { IngestOutcome.none with reordered := reordered }
  let pushed := (fed.1.markFed record).pushRecent limits.maxStreamHistory record fed.2
  ({ pushed.2 with
      accepted := true, rateAdmissible := pushed.1.rateAdmissible, streamDepth := pushed.1.recent.length },
    pushed.1)

def countDuplicate (stream : StreamState) : StreamState :=
  { stream with stats := { stream.stats with duplicates := stream.stats.duplicates + 1 } }

def countRejected (stream : StreamState) : StreamState :=
  { stream with stats := { stream.stats with rejected := stream.stats.rejected + 1 } }

/-- `append` on the stream of the observation, once that stream exists. -/
def append (limits : FabricLimits) (stream : StreamState) (record : EvidenceRecord)
    (config : CounterContinuityConfig) : Outcome IngestOutcome × StreamState :=
  let sequence := record.observation.sequence
  match stream.verdict limits.maxDedupWindow sequence (evidenceDigest record.observation) with
  | .duplicate =>
    (.ok { IngestOutcome.none with duplicate := true, streamDepth := stream.recent.length },
      stream.countDuplicate)
  | .idMismatch =>
    (fail .idMismatch (text "sequence " ++ formatU64 sequence ++
      text " was already accepted with different content"), stream.countRejected)
  | .fenced =>
    (fail .fenced (text "sequence " ++ formatU64 sequence ++
      text " is older than the verification window of " ++ formatNat limits.maxDedupWindow),
      stream.countRejected)
  | .accept reordered =>
    let accepted := stream.accept limits record config reordered
    (.ok accepted.1, accepted.2)

/-! What is behind the admission of a sequence number does not touch the watermark and the window. -/

variable (limits : FabricLimits) (stream : StreamState) (record : EvidenceRecord) (config : CounterContinuityConfig)
  (outcome : IngestOutcome) (reordered : Bool)

@[simp] theorem feedCounter_rest : (stream.feedCounter record config outcome).1.dedup = stream.dedup ∧
      (stream.feedCounter record config outcome).1.watermark = stream.watermark ∧
      (stream.feedCounter record config outcome).1.recent = stream.recent ∧
      (stream.feedCounter record config outcome).1.fedSequence = stream.fedSequence ∧
      (stream.feedCounter record config outcome).1.latestFed = stream.latestFed ∧
      (stream.feedCounter record config outcome).1.stats.evicted = stream.stats.evicted := by
  unfold feedCounter
  split
  · exact ⟨rfl, rfl, rfl, rfl, rfl, rfl⟩
  · split <;> exact ⟨rfl, rfl, rfl, rfl, rfl, rfl⟩

@[simp] theorem markFed_rest :
    (stream.markFed record).dedup = stream.dedup ∧ (stream.markFed record).watermark = stream.watermark ∧
      (stream.markFed record).recent = stream.recent ∧ (stream.markFed record).stats = stream.stats := by
  unfold markFed
  split <;> exact ⟨rfl, rfl, rfl, rfl⟩

theorem feeds_congr {stream other : StreamState} (h : other.fedSequence = stream.fedSequence) (sequence : UInt64) :
    other.feeds sequence = stream.feeds sequence := by
  unfold feeds
  rw [h]

theorem accept_dedup : (stream.accept limits record config reordered).2.dedup =
      (stream.admitSequence limits.maxDedupWindow record.observation.sequence
        (evidenceDigest record.observation)).dedup := by
  cases reordered <;> simp [accept, pushRecent, admitSequence]

theorem accept_watermark : (stream.accept limits record config reordered).2.watermark =
      (stream.admitSequence limits.maxDedupWindow record.observation.sequence
        (evidenceDigest record.observation)).watermark := by
  cases reordered <;> simp [accept, pushRecent, admitSequence]

theorem accept_recent : (stream.accept limits record config reordered).2.recent =
      (stream.recent ++ [record]).drop ((stream.recent ++ [record]).length - limits.maxStreamHistory) := by
  cases reordered <;> simp [accept, pushRecent, admitSequence]

theorem accept_evicted : (stream.accept limits record config reordered).2.stats.evicted =
      stream.stats.evicted + UInt64.ofNat ((stream.recent ++ [record]).length - limits.maxStreamHistory) := by
  cases reordered <;> simp [accept, pushRecent, admitSequence]

theorem accept_fed : (stream.accept limits record config reordered).2.latestFed =
        (if stream.feeds record.observation.sequence then some record else stream.latestFed) ∧
      (stream.accept limits record config reordered).2.fedSequence =
        if stream.feeds record.observation.sequence then some record.observation.sequence
        else stream.fedSequence := by
  have hfeeds : ∀ (other : StreamState) (outcome : IngestOutcome), other.fedSequence = stream.fedSequence →
      (other.feedCounter record config outcome).1.feeds record.observation.sequence =
        stream.feeds record.observation.sequence := by
    intro other outcome hother
    exact feeds_congr ((feedCounter_rest other record config outcome).2.2.2.1.trans hother) _
  cases reordered <;>
    cases hfed : stream.feeds record.observation.sequence <;>
    simp [accept, pushRecent, markFed, admitSequence, hfeeds, hfed]

theorem append_cases : (∃ reordered, stream.verdict limits.maxDedupWindow record.observation.sequence
        (evidenceDigest record.observation) = .accept reordered ∧ stream.append limits record config =
        (.ok (stream.accept limits record config reordered).1, (stream.accept limits record config reordered).2)) ∨
    (EvidenceStore.isAccepted (stream.append limits record config).1 = false ∧
      ∃ stats, (stream.append limits record config).2 = { stream with stats := stats }) := by
  unfold append
  dsimp only
  cases hverdict : stream.verdict limits.maxDedupWindow record.observation.sequence
      (evidenceDigest record.observation) with
  | duplicate => exact .inr ⟨rfl, _, rfl⟩
  | idMismatch => exact .inr ⟨rfl, _, rfl⟩
  | fenced => exact .inr ⟨rfl, _, rfl⟩
  | accept reordered => exact .inl ⟨reordered, rfl, rfl⟩

end StreamState

/-! ## The store -/

def EvidenceStore.seedEntry (stream : StreamState) (entry : UInt64 × UInt64) : StreamState :=
  { stream with
    dedup := stream.dedup.insert entry.1 entry.2
    watermark :=
      match stream.watermark with
      | none => some entry.1
      | some watermark => if watermark < entry.1 then some entry.1 else some watermark }

/-- The loop behind the entries drops the smallest keys over the window. -/
def StreamState.seed (window : ℕ) (stream : StreamState) (entries : List (UInt64 × UInt64)) : StreamState :=
  let seeded := entries.foldl EvidenceStore.seedEntry stream
  { seeded with
    dedup := (seeded.dedup.keys.take (seeded.dedup.size - window)).foldl ExtTreeMap.erase seeded.dedup }

namespace EvidenceStore

def empty (limits : FabricLimits) : EvidenceStore := ⟨limits, ∅, [], ∅⟩

def streamsOf (store : EvidenceStore) (link : LinkIdentity) : ℕ := store.streamsPerLink.getD link 0

/-- `admit_stream`: the counter of the link is created by reading it, also when the stream is refused. -/
def admitStream (store : EvidenceStore) (key : StreamKey) : Bool × EvidenceStore :=
  if store.limits.maxStreamsPerLink ≤ store.streamsOf key.link then
    (false, { store with streamsPerLink := store.streamsPerLink.insert key.link (store.streamsOf key.link) })
  else
    (true, { store with streamsPerLink := store.streamsPerLink.insert key.link (store.streamsOf key.link + 1) })

/-- The stream of `key`, created when there is none and the link has room for it. -/
def openStream (store : EvidenceStore) (key : StreamKey) : Option StreamState × EvidenceStore :=
  match store.streams[key]? with
  | some stream => (some stream, store)
  | none =>
    let admitted := store.admitStream key
    (if admitted.1 then some StreamState.fresh else none, admitted.2)

def pushHistory (store : EvidenceStore) (record : EvidenceRecord) : EvidenceStore :=
  let history := store.history ++ [record]
  { store with history := history.drop (history.length - store.limits.maxGlobalHistory) }

def putStream (store : EvidenceStore) (key : StreamKey) (stream : StreamState) : EvidenceStore :=
  { store with streams := store.streams.insert key stream }

def append (store : EvidenceStore) (observation : Observation) (received : ReceiveStamp) (ordinal : UInt64)
    (origin : EvidenceOrigin) (config : CounterContinuityConfig) : Outcome IngestOutcome × EvidenceStore :=
  let record : EvidenceRecord := ⟨observation, received, ordinal, origin⟩
  let key := observation.streamKey
  let opened := store.openStream key
  match opened.1 with
  | none =>
    (fail .limitExceeded (text "stream capacity of " ++ formatNat store.limits.maxStreamsPerLink ++
      text " reached for this link"), opened.2)
  | some stream =>
    let appended := stream.append store.limits record config
    let stored := opened.2.putStream key appended.2
    match appended.1 with
    | .ok outcome => (.ok outcome, if outcome.accepted then stored.pushHistory record else stored)
    | .error status => (.error status, stored)

/-- The stream of `key`, or the one that would be created for it. -/
def streamAt (store : EvidenceStore) (key : StreamKey) : StreamState := store.streams[key]?.getD .fresh

def Admits (store : EvidenceStore) (key : StreamKey) : Prop :=
  key ∈ store.streams ∨ store.streamsOf key.link < store.limits.maxStreamsPerLink

variable {config : CounterContinuityConfig} {limits : FabricLimits} {stream : StreamState} {record : EvidenceRecord}
  {status : Status} {outcome : IngestOutcome} (dropped : List LinkIdentity) (store : EvidenceStore)
  (observation : Observation) (key : StreamKey) (received : ReceiveStamp) (link : LinkIdentity) (ordinal : UInt64)
  (origin : EvidenceOrigin)

@[simp] theorem admitStream_streams : (store.admitStream key).2.streams = store.streams := by
  unfold admitStream
  split <;> rfl

@[simp] theorem admitStream_limits : (store.admitStream key).2.limits = store.limits := by
  unfold admitStream
  split <;> rfl

@[simp] theorem openStream_streams : (store.openStream key).2.streams = store.streams := by
  unfold openStream
  split <;> simp

@[simp] theorem openStream_limits : (store.openStream key).2.limits = store.limits := by
  unfold openStream
  split <;> simp

theorem openStream_of_admits {store : EvidenceStore} {key : StreamKey} (h : store.Admits key) :
    (store.openStream key).1 = some (store.streamAt key) := by
  unfold openStream streamAt
  cases hfind : store.streams[key]? with
  | some stream => rfl
  | none =>
    rcases h with hmem | hroom
    · rw [ExtTreeMap.mem_iff_isSome_getElem?, hfind] at hmem
      exact absurd hmem (by simp)
    · simp [admitStream, Nat.not_le.mpr hroom]

theorem openStream_of_not_admits {store : EvidenceStore} {key : StreamKey} (h : ¬ store.Admits key) :
    store.openStream key = (none, (store.admitStream key).2) := by
  unfold Admits at h
  rw [not_or, Nat.not_lt] at h
  unfold openStream
  rw [ExtTreeMap.getElem?_eq_none h.1]
  simp [admitStream, h.2]

section Append
variable (store : EvidenceStore) (observation : Observation) (received : ReceiveStamp) (ordinal : UInt64)
  (origin : EvidenceOrigin) (config : CounterContinuityConfig)

theorem append_of_not_admits (h : ¬ store.Admits observation.streamKey) :
    store.append observation received ordinal origin config =
      (fail .limitExceeded (text "stream capacity of " ++ formatNat store.limits.maxStreamsPerLink ++
        text " reached for this link"), (store.admitStream observation.streamKey).2) := by
  unfold append
  simp only [openStream_of_not_admits h]

theorem append_of_admits (h : store.Admits observation.streamKey) :
    (store.append observation received ordinal origin config).1 =
        ((store.streamAt observation.streamKey).append store.limits
          ⟨observation, received, ordinal, origin⟩ config).1 ∧
      (store.append observation received ordinal origin config).2.streams = store.streams.insert observation.streamKey
          ((store.streamAt observation.streamKey).append store.limits
            ⟨observation, received, ordinal, origin⟩ config).2 := by
  unfold append
  simp only [openStream_of_admits h]
  cases (store.streamAt observation.streamKey).append store.limits ⟨observation, received, ordinal, origin⟩ config with
  | mk outcome stream =>
    cases outcome with
    | error status => simp [putStream]
    | ok outcome =>
      refine ⟨rfl, ?_⟩
      simp only
      split <;> simp [putStream, pushHistory]

@[simp] theorem append_limits :
    (store.append observation received ordinal origin config).2.limits = store.limits := by
  unfold append
  simp only
  split
  · simp
  · split
    · split <;> simp [putStream, pushHistory]
    · simp [putStream]

end Append

def find (store : EvidenceStore) (key : StreamKey) : Option StreamState := store.streams[key]?

def streamKeys (store : EvidenceStore) : List StreamKey := store.streams.keys

def dedupWindow (store : EvidenceStore) (key : StreamKey) : List (UInt64 × UInt64) :=
  match store.streams[key]? with
  | none => []
  | some stream => stream.dedup.toList

/-- The order of `retained_records`: stream by stream, then by sequence number. -/
def recordOrder (a b : EvidenceRecord) : Ordering :=
  (compare a.observation.streamKey b.observation.streamKey).then
    (compare a.observation.sequence b.observation.sequence)

def keepNew (kept : List EvidenceRecord) (record : EvidenceRecord) : List EvidenceRecord :=
  if kept.any fun other => other.observation.sequence = record.observation.sequence then kept else kept ++ [record]

/-- The records of one stream for a snapshot: the one fed last, then the ring without repetitions. -/
def retainedOf (stream : StreamState) : List EvidenceRecord := stream.held.foldl keepNew []

def retainedRecords (store : EvidenceStore) : List EvidenceRecord :=
  ((store.streams.toList.flatMap fun entry => retainedOf entry.2).insertionSort
    fun a b => (recordOrder a b).isLE)

def seedDedupWindow (store : EvidenceStore) (key : StreamKey) (entries : List (UInt64 × UInt64)) :
    Outcome Unit × EvidenceStore :=
  let opened := store.openStream key
  match opened.1 with
  | none => (fail .limitExceeded (text "stream capacity reached for this link"), opened.2)
  | some stream => (.ok (), opened.2.putStream key (stream.seed store.limits.maxDedupWindow entries))

def dropLink (store : EvidenceStore) (link : LinkIdentity) : EvidenceStore :=
  { store with
    streams := store.streams.filter fun key _ => key.link ≠ link
    streamsPerLink := store.streamsPerLink.erase link
    history := store.history.filter fun record => record.observation.link ≠ link }

def clear (store : EvidenceStore) : EvidenceStore :=
  { store with streams := ∅, history := [], streamsPerLink := ∅ }

theorem dropLink_getElem? (key : StreamKey) :
    (store.dropLink link).streams[key]? = if key.link = link then none else store.streams[key]? := by
  simp only [dropLink, ExtTreeMap.getElem?_filter]
  have hall : ∀ stream : Option StreamState, stream.filter (fun _ => true) = stream := by
    intro stream
    cases stream <;> rfl
  by_cases hlink : key.link = link <;> simp [hlink, hall]

theorem dropLinks_getElem? :
    (dropped.foldl dropLink store).streams[key]? = if key.link ∈ dropped then none else store.streams[key]? := by
  induction dropped generalizing store with
  | nil => simp
  | cons link rest ih =>
    rw [List.foldl_cons, ih, dropLink_getElem?]
    by_cases hrest : key.link ∈ rest
    · simp [hrest]
    · by_cases hlink : key.link = link <;> simp [hrest, hlink]

@[simp] theorem dropLinks_limits : (dropped.foldl dropLink store).limits = store.limits := by
  induction dropped generalizing store with
  | nil => rfl
  | cons link rest ih => exact ih _

/-! ## Counting streams -/

theorem openStream_streamsOf : (store.openStream key).2.streamsOf link =
      if key ∉ store.streams ∧ store.streamsOf key.link < store.limits.maxStreamsPerLink ∧ key.link = link then
        store.streamsOf link + 1 else store.streamsOf link := by
  unfold openStream
  cases hfind : store.streams[key]? with
  | some stream =>
    have hmem : key ∈ store.streams := by simp [ExtTreeMap.mem_iff_isSome_getElem?, hfind]
    simp [hmem]
  | none =>
    have hmem : key ∉ store.streams := by simp [ExtTreeMap.mem_iff_isSome_getElem?, hfind]
    unfold admitStream
    by_cases hfull : store.limits.maxStreamsPerLink ≤ store.streamsOf key.link
    · simp only [hfull, if_true, Nat.not_lt.mpr hfull, false_and, and_false, if_false]
      simp only [streamsOf, ExtTreeMap.getD_insert, LawfulEqCmp.compare_eq_iff_eq]
      split
      · next hlink => rw [hlink]
      · rfl
    · simp only [hfull, if_false, hmem, not_false_eq_true, Nat.not_le.mp hfull, true_and]
      simp only [streamsOf, ExtTreeMap.getD_insert, LawfulEqCmp.compare_eq_iff_eq]
      split
      · next hlink => rw [hlink]
      · rfl

theorem append_streamsOf (config : CounterContinuityConfig) (link : LinkIdentity) :
    (store.append observation received ordinal origin config).2.streamsOf link =
      (store.openStream observation.streamKey).2.streamsOf link := by
  unfold append
  dsimp only
  split
  · rfl
  · split
    · split <;> rfl
    · rfl

theorem dropLinks_streamsOf :
    (dropped.foldl dropLink store).streamsOf link = if link ∈ dropped then 0 else store.streamsOf link := by
  induction dropped generalizing store with
  | nil => simp
  | cons first rest ih =>
    have hone : (store.dropLink first).streamsOf link = if first = link then 0 else store.streamsOf link := by
      simp only [streamsOf, dropLink, ExtTreeMap.getD_erase, LawfulEqCmp.compare_eq_iff_eq]
    rw [List.foldl_cons, ih, hone]
    by_cases hrest : link ∈ rest
    · simp [hrest]
    · by_cases hfirst : first = link
      · simp [hfirst]
      · simp [hrest, hfirst, Ne.symm hfirst]

/-! ## Refused evidence -/

def content (stream : StreamState) : StreamState := { stream with stats := ⟨0, 0, 0, 0, 0, 0⟩ }

theorem stream_append_error (h : (stream.append limits record config).1 = .error status) :
    stream.watermark ≠ none ∧ (stream.append limits record config).2 = stream.countRejected := by
  have hwatermark : stream.watermark ≠ none := by
    intro hnone
    unfold StreamState.append StreamState.verdict at h
    simp only [hnone] at h
    cases h
  refine ⟨hwatermark, ?_⟩
  unfold StreamState.append at h ⊢
  dsimp only at h ⊢
  split
  · next hverdict => simp [hverdict] at h
  · rfl
  · rfl
  · next hverdict => simp [hverdict] at h

def Answers (limits : FabricLimits) (stream : StreamState) (observation : Observation) : Prop :=
  stream.verdict limits.maxDedupWindow observation.sequence (evidenceDigest observation) ≠ .idMismatch ∧
    stream.verdict limits.maxDedupWindow observation.sequence (evidenceDigest observation) ≠ .fenced

theorem stream_append_ok_iff :
    (∃ outcome, (stream.append limits record config).1 = .ok outcome) ↔ Answers limits stream record.observation := by
  unfold StreamState.append Answers
  dsimp only
  split <;> next hverdict => simp [hverdict, fail]

theorem append_ok_iff (config : CounterContinuityConfig) :
    (∃ outcome, (store.append observation received ordinal origin config).1 = .ok outcome) ↔
      store.Admits observation.streamKey ∧
        Answers store.limits (store.streamAt observation.streamKey) observation := by
  by_cases hadmits : store.Admits observation.streamKey
  · rw [(store.append_of_admits observation received ordinal origin config hadmits).1, stream_append_ok_iff]
    exact (and_iff_right hadmits).symm
  · rw [store.append_of_not_admits observation received ordinal origin config hadmits]
    simp [hadmits, fail]

theorem append_error_content {store : EvidenceStore} {observation : Observation} {received : ReceiveStamp}
    {ordinal : UInt64} {origin : EvidenceOrigin}
    (h : (store.append observation received ordinal origin config).1 = .error status) (key : StreamKey) :
    ((store.append observation received ordinal origin config).2.streams[key]?).map content =
      (store.streams[key]?).map content := by
  by_cases hadmits : store.Admits observation.streamKey
  · obtain ⟨hanswer, hstreams⟩ := store.append_of_admits observation received ordinal origin config hadmits
    rw [hanswer] at h
    obtain ⟨hwatermark, hstate⟩ := stream_append_error h
    rw [hstreams, hstate, ExtTreeMap.getElem?_insert]
    by_cases hkey : compare observation.streamKey key = .eq
    · obtain rfl := Std.LawfulEqCmp.eq_of_compare hkey
      unfold streamAt at hwatermark ⊢
      cases hfind : store.streams[observation.streamKey]? with
      | none =>
        rw [hfind] at hwatermark
        exact absurd rfl hwatermark
      | some stream => simp [StreamState.countRejected, content]
    · simp [hkey]
  · rw [store.append_of_not_admits observation received ordinal origin config hadmits, admitStream_streams]

/-! ## Accepted evidence -/

section Appended
variable {store : EvidenceStore} {observation : Observation} {received : ReceiveStamp} {ordinal : UInt64}
  {origin : EvidenceOrigin}

theorem append_last (h : (store.append observation received ordinal origin config).1 = .ok outcome)
    (haccepted : outcome.accepted = true) (hhistory : 1 ≤ store.limits.maxGlobalHistory) :
    (store.append observation received ordinal origin config).2.history.getLast? =
      some ⟨observation, received, ordinal, origin⟩ := by
  have hadmits := ((store.append_ok_iff observation received ordinal origin config).mp ⟨outcome, h⟩).1
  have hstream := (store.append_of_admits observation received ordinal origin config hadmits).1.symm.trans h
  unfold append
  simp only [openStream_of_admits hadmits, hstream, haccepted, if_true, pushHistory, putStream]
  rw [List.getLast?_drop, if_neg (by simp; omega), List.getLast?_concat]

end Appended

theorem seedDedupWindow_limits (entries : List (UInt64 × UInt64)) :
    (store.seedDedupWindow key entries).2.limits = store.limits := by
  unfold seedDedupWindow
  dsimp only
  split
  · exact openStream_limits _ _
  · exact openStream_limits _ _

end EvidenceStore

end Lqf
