import LinkQualityFabric.Classify.Classifier

/-! The queries of a fabric: `query` and `window` of `src/runtime/fabric.cpp`, and `EvidenceStore::window`.

A query is answered from the registries and the clock; it changes nothing but its own counter. The window query may
ask for the assessment of an earlier instant, which is the same classification with an earlier clock. -/
namespace Lqf
set_option autoImplicit false

/-! ## The window over the history -/

structure WindowScan where
  records : List EvidenceRecord := []
  matched : UInt64 := 0
  truncated : Bool := false
  earliest : Int64 := 0
  latest : Int64 := 0
  hasRange : Bool := false

def axisTime (record : EvidenceRecord) (axis : WindowAxis) : Int64 :=
  if axis = .observationTime then record.observation.observedAt.unixNanos else record.received.wallNanos

def recordMatches (record : EvidenceRecord) (query : WindowQuery) : Bool :=
  (query.link.all fun link => record.observation.link = link) &&
    (query.metric.all fun metric => record.observation.metric = metric) &&
    (query.lane.all fun lane => record.observation.lane = lane) &&
    (query.source.all fun source => record.observation.source.id = source) &&
    (query.fromNanos ≤ axisTime record query.axis && axisTime record query.axis < query.toNanos)

def WindowScan.extend (time : Int64) (scan : WindowScan) : WindowScan :=
  if scan.hasRange then
    { scan with
      earliest := if time < scan.earliest then time else scan.earliest
      latest := if scan.latest < time then time else scan.latest }
  else { scan with earliest := time, latest := time, hasRange := true }

def scanRecord (query : WindowQuery) (scan : WindowScan) (record : EvidenceRecord) : WindowScan :=
  let scan := scan.extend (axisTime record query.axis)
  if recordMatches record query then
    let scan := { scan with matched := scan.matched + 1 }
    if scan.records.length < query.limit.toNat then { scan with records := scan.records ++ [record] }
    else { scan with truncated := true }
  else scan

def windowOrder (axis : WindowAxis) (a b : EvidenceRecord) : Bool :=
  if axisTime a axis ≠ axisTime b axis then axisTime a axis < axisTime b axis else a.ordinal ≤ b.ordinal

def EvidenceStore.window (store : EvidenceStore) (query : WindowQuery) : WindowScan :=
  let scan := store.history.foldl (scanRecord query) {}
  { scan with records := scan.records.insertionSort fun a b => windowOrder query.axis a b }

/-! ## The queries -/

namespace Fabric

def contextAt (now : ClockReading) (fabric : Fabric) : ClassifierContext where
  links := fabric.links
  store := fabric.evidence
  capabilities := fabric.capabilities
  policy := fabric.policies.current
  now := now
  epoch := fabric.epoch

def query (now : ClockReading) (request : QualityQuery) (fabric : Fabric) : Outcome LinkQualityReport := do
  validateLinkIdentity request.link
  return classifyLink (fabric.contextAt now) request

/-- The clock as it was, as far as the steady clock tells. -/
def asOfInstant (now : ClockReading) (asOfSteadyNanos : Int64) : ClockReading :=
  if 0 < asOfSteadyNanos then ⟨now.wallNanos - (now.steadyNanos - asOfSteadyNanos), asOfSteadyNanos⟩ else now

def asOfQuery (request : WindowQuery) (link : LinkIdentity) : QualityQuery where
  link := link
  lane := request.lane
  metrics := request.metric.toList
  maxMetrics := request.maxMetrics
  maxEvidencePerMetric := request.maxEvidencePerMetric

def asOfReport (now : ClockReading) (request : WindowQuery) (fabric : Fabric) : Option LinkQualityReport :=
  if request.assessAsOf then
    request.link.map fun link =>
      classifyLink (fabric.contextAt (asOfInstant now request.asOfSteadyNanos)) (asOfQuery request link)
  else none

def window (now : ClockReading) (request : WindowQuery) (fabric : Fabric) : Outcome WindowResult := do
  refuseIf (request.limit = 0 ∨ fabric.config.limits.maxWindowRecords < request.limit.toNat) .limitExceeded
    (text "window limit must be within [1, " ++ formatNat fabric.config.limits.maxWindowRecords ++ text "]")
  refuseIf (request.toNanos ≤ request.fromNanos) .invalid (text "window range is empty or inverted")
  validateScope request.link
  refuseIf (request.assessAsOf ∧ now.steadyNanos < request.asOfSteadyNanos) .invalid
    (text "as-of instant is in the future")
  let scan := fabric.evidence.window request
  return {
    records := if request.includeEvidence then scan.records else []
    matched := scan.matched
    returned := UInt64.ofNat scan.records.length
    truncated := scan.truncated
    earliestAvailableNanos := scan.earliest
    latestAvailableNanos := scan.latest
    hasAvailableRange := scan.hasRange
    asOfReport := fabric.asOfReport now request }

theorem asOfReport_of_window {now : ClockReading} {request : WindowQuery} {fabric : Fabric} {result : WindowResult}
    (h : fabric.window now request = .ok result) : result.asOfReport = fabric.asOfReport now request := by
  rw [window, Outcome.check_bind_eq_ok, Outcome.check_bind_eq_ok, Outcome.check_bind_eq_ok,
    Outcome.check_bind_eq_ok] at h
  obtain ⟨-, -, -, -, hresult⟩ := h
  rw [← Except.ok.inj hresult]

end Fabric

/-! ## What a window shows -/

/-- The records of a history that a query asks for. -/
def hits (query : WindowQuery) (history : List EvidenceRecord) : List EvidenceRecord :=
  history.filter fun record => recordMatches record query

namespace WindowScan

/-- The range is that of the axis times seen so far. -/
structure Spans (times : List Int64) (scan : WindowScan) : Prop where
  range : scan.hasRange = true ↔ times ≠ []
  earliest : times ≠ [] → scan.earliest ∈ times ∧ ∀ time ∈ times, scan.earliest ≤ time
  latest : times ≠ [] → scan.latest ∈ times ∧ ∀ time ∈ times, time ≤ scan.latest

/-- The first matches are kept and all are counted. -/
structure Counts (limit : ℕ) (found : List EvidenceRecord) (scan : WindowScan) : Prop where
  records : scan.records = found.take limit
  matched : scan.matched = UInt64.ofNat found.length
  truncated : scan.truncated = true ↔ limit < found.length

variable {scan : WindowScan} {query : WindowQuery} {times : List Int64} {found : List EvidenceRecord}

theorem Spans.extend (h : scan.Spans times) (time : Int64) : (scan.extend time).Spans (times ++ [time]) := by
  unfold WindowScan.extend
  split
  · next hrange =>
    obtain ⟨hfirst, hearliest⟩ := h.earliest (h.range.mp hrange)
    obtain ⟨hlast, hlatest⟩ := h.latest (h.range.mp hrange)
    exact ⟨by simpa, fun _ => by grind, fun _ => by grind⟩
  · next hrange =>
    obtain rfl : times = [] := by simpa using mt h.range.mpr hrange
    exact ⟨by simp, by simp, by simp⟩

theorem Counts.scanRecord (h : scan.Counts query.limit.toNat found) (record : EvidenceRecord) :
    (scanRecord query scan record).Counts query.limit.toNat (found ++ hits query [record]) := by
  have hextend : ∀ time, scan.extend time = { scan with
      earliest := (scan.extend time).earliest, latest := (scan.extend time).latest, hasRange := true } := by
    intro time
    unfold WindowScan.extend
    split <;> simp [*]
  have hlength := congrArg List.length h.records
  rw [List.length_take] at hlength
  have htruncated := h.truncated
  unfold Lqf.scanRecord
  rw [hextend]
  dsimp only
  split
  · next hmatches =>
    rw [show hits query [record] = [record] by simp [hits, hmatches]]
    have hmatched : scan.matched + 1 = UInt64.ofNat (found ++ [record]).length := by
      rw [h.matched, List.length_append, UInt64.ofNat_add]
      rfl
    split
    · refine ⟨?_, hmatched, ?_⟩
      · rw [h.records, List.take_of_length_le (by omega), List.take_of_length_le (by simp; omega)]
      · simp only [List.length_append, List.length_singleton, htruncated]
        omega
    · refine ⟨?_, hmatched, ?_⟩
      · rw [h.records, List.take_append_of_le_length (by omega)]
      · simp only [List.length_append, List.length_singleton, true_iff]
        omega
  · next hmatches =>
    rw [show hits query [record] = [] by simp [hits, hmatches], List.append_nil]
    exact ⟨h.records, h.matched, h.truncated⟩

end WindowScan

/-- **A window is exact.** Everything that matches is counted, the first matches up to the limit are shown in order of
time and ordinal, and the range is that of the whole history. -/
theorem window_exact (store : EvidenceStore) (query : WindowQuery) :
    (store.window query).records.Perm ((hits query store.history).take query.limit.toNat) ∧
      (store.window query).records.Pairwise (fun a b => windowOrder query.axis a b = true) ∧
      (store.window query).matched = UInt64.ofNat (hits query store.history).length ∧
      ((store.window query).truncated = true ↔ query.limit.toNat < (hits query store.history).length) ∧
      (store.window query).Spans (store.history.map fun record => axisTime record query.axis) := by
  have hscan : ∀ history : List EvidenceRecord,
      (history.foldl (scanRecord query) {}).Counts query.limit.toNat (hits query history) ∧
        (history.foldl (scanRecord query) {}).Spans (history.map fun record => axisTime record query.axis) := by
    intro history
    induction history using List.reverseRecOn with
    | nil => exact ⟨⟨by simp [hits], rfl, by simp [hits]⟩, by simp, by simp, by simp⟩
    | append_singleton earlier record ih =>
      rw [List.foldl_append, List.map_append]
      constructor
      · have hcounts := ih.1.scanRecord record
        rwa [hits, hits, ← List.filter_append] at hcounts
      · have hspans := ih.2.extend (axisTime record query.axis)
        show (scanRecord query _ record).Spans _
        unfold scanRecord
        dsimp only
        split
        · split <;> exact { hspans with }
        · exact hspans
  obtain ⟨hcounts, hspans⟩ := hscan store.history
  have htotal : Std.Total fun a b : EvidenceRecord => windowOrder query.axis a b = true := ⟨fun a b => by
    unfold windowOrder
    grind⟩
  have htrans : IsTrans EvidenceRecord fun a b => windowOrder query.axis a b = true := ⟨fun a b c => by
    unfold windowOrder
    grind⟩
  refine ⟨?_, List.pairwise_insertionSort .., hcounts.matched, hcounts.truncated, { hspans with }⟩
  rw [← hcounts.records]
  exact List.perm_insertionSort ..

end Lqf
