import LinkQualityFabric.Domain.CounterThresholds
import LinkQualityFabric.Store.ContinuityRestore

/-! The differences a stream reports.

A stream passes a counter reading to its tracker only above everything it was fed before. In order and in range, every
reading becomes the one to compare with, so a difference lies between two readings that were fed one after the other,
and the differences of a run add up. -/
namespace Lqf
set_option autoImplicit false

/-- A reading that reached the tracker, with what the stream keeps of the response. -/
structure FedReading where
  reading : CounterReading
  event : CounterEvent
  delta : Option CounterDelta

def FedReading.number (entry : FedReading) : ℤ := entry.reading.value.toNat

def FedReading.difference (entry : FedReading) : ℤ := ((entry.delta.map fun delta => delta.delta.toNat).getD 0 : ℕ)

def AppendCall.fedReading? (call : AppendCall) (answer : Outcome IngestOutcome) (before after : StreamState) :
    Option FedReading :=
  match call.observation.reading with
  | .gauge _ => none
  | .counter reading =>
    if EvidenceStore.isAccepted answer ∧ before.feeds call.observation.sequence then
      some ⟨reading, after.lastCounterEvent, after.lastDelta⟩
    else none

namespace StreamState
variable {limits : FabricLimits} {stream : StreamState} {key : StreamKey}

def fedReadings (limits : FabricLimits) : StreamState → List AppendCall → List FedReading
  | _, [] => []
  | stream, call :: rest =>
    let stepped := (streamMachine limits).step stream call
    (call.fedReading? stepped.1 stream stepped.2).toList ++ fedReadings limits stepped.2 rest

end StreamState

namespace EvidenceStore

def fedReadings (key : StreamKey) : EvidenceStore → List AppendCall → List FedReading
  | _, [] => []
  | store, call :: rest =>
    let stepped := appendMachine.step store call
    (if AppendCall.For key call then
      call.fedReading? stepped.1 (store.streamAt key) (stepped.2.streamAt key) else none).toList ++
      fedReadings key stepped.2 rest

end EvidenceStore

/-! ## One reading -/

/-- The difference lies between the reading and the one before it. -/
structure FedReading.Exact (previous : Option FedReading) (entry : FedReading) : Prop where
  yields : entry.delta.isSome = true ↔ entry.event = .advance ∨ entry.event = .wrap
  difference : entry.delta.isSome = true → ∃ earlier, previous = some earlier ∧
    earlier.reading.width = entry.reading.width ∧
    entry.difference = (entry.number - earlier.number) % entry.reading.width.modulus ∧
    (entry.event = .advance → entry.difference = entry.number - earlier.number)

variable {width : CounterWidth} {previous current : UInt64}

theorem value_lt_modulus {value : UInt64} (h : counterValueInRange value width = true) :
    width.modulus = 0 ∨ value.toNat < width.modulus := by
  cases width with
  | unspecified => exact .inl rfl
  | bits32 => exact .inr (CounterContinuity.value_lt_of_bits32 h)
  | bits64 => exact .inr value.toNat_lt

theorem advance_emod (hle : previous ≤ current) (h : counterValueInRange current width = true) :
    ((current - previous).toNat : ℤ) = (current.toNat - previous.toNat : ℤ) ∧
      ((current - previous).toNat : ℤ) = (current.toNat - previous.toNat : ℤ) % width.modulus := by
  have hnat := UInt64.le_iff_toNat_le.mp hle
  have hdifference : ((current - previous).toNat : ℤ) = (current.toNat - previous.toNat : ℤ) := by
    rw [UInt64.toNat_sub_of_le _ _ hle]
    omega
  refine ⟨hdifference, hdifference.trans ?_⟩
  rcases value_lt_modulus h with hnone | hlt
  · rw [hnone, Nat.cast_zero, Int.emod_zero]
  · rw [Int.emod_eq_of_lt (by omega) (by omega)]

theorem wrap_emod {delta : UInt64} {config : CounterContinuityConfig} (hlt : current < previous)
    (hprevious : counterValueInRange previous width = true)
    (h : classifyDecrease previous current width config = some delta) :
    (delta.toNat : ℤ) = (current.toNat - previous.toNat : ℤ) % width.modulus := by
  have hnat := UInt64.lt_iff_toNat_lt.mp hlt
  rcases CounterContinuity.classifyDecrease_some h with ⟨rfl, rfl⟩ | ⟨rfl, rfl⟩
  · have hrange := CounterContinuity.value_lt_of_bits32 hprevious
    rw [CounterContinuity.wrap32_toNat hrange hnat]
    simp only [CounterWidth.modulus]
    omega
  · have hrange := previous.toNat_lt
    rw [UInt64.toNat_sub]
    simp only [CounterWidth.modulus]
    omega

namespace StreamState
open CounterContinuity
variable {limits : FabricLimits} {stream : StreamState} {key : StreamKey} {previous : Option FedReading}

structure Resumes (key : StreamKey) (previous : Option FedReading) (stream : StreamState) : Prop where
  follows : stream.counter.Follows key.source.incarnation key.link.generation
  baseline : stream.counter.hasBaseline = previous.isSome
  last : ∀ earlier, previous = some earlier → stream.counter.lastValue = earlier.reading.value ∧
    stream.counter.lastWidth = earlier.reading.width ∧
    counterValueInRange earlier.reading.value earlier.reading.width = true
  sequence : stream.counter.hasBaseline = true → ∃ fed, stream.fedSequence = some fed ∧
    stream.counter.lastSequence ≤ fed

theorem resumes_fresh (key : StreamKey) : Resumes key none fresh where
  follows := fun hbound => nomatch hbound
  baseline := rfl
  last := fun _ hnone => nomatch hnone
  sequence := fun hbaseline => nomatch hbaseline

theorem Resumes.rebases (h : Resumes key previous stream) {reading : CounterObservation}
    (hsource : reading.From key.source.incarnation key.link.generation)
    (hrange : counterValueInRange reading.value reading.width = true) (hfeeds : stream.feeds reading.sequence = true) :
    (stream.counter.reception reading).rebases = true := by
  have hfollows : stream.counter.Follows reading.incarnation reading.linkGeneration := by
    rw [hsource.1, hsource.2]
    exact h.follows
  refine (reception_rebases_iff hfollows).mpr ⟨hrange, fun hbaseline => .inr ?_⟩
  obtain ⟨fed, hfed, hle⟩ := h.sequence hbaseline
  unfold feeds at hfeeds
  rw [hfed] at hfeeds
  exact UInt64.le_trans hle (UInt64.le_of_lt (of_decide_eq_true hfeeds))

theorem Resumes.exact (h : Resumes key previous stream) (reading : CounterObservation) (declared : Bool)
    (config : CounterContinuityConfig) :
    FedReading.Exact previous ⟨⟨reading.value, reading.width, declared⟩,
      (stream.counter.observe reading config).1.event, (stream.counter.observe reading config).1.delta⟩ where
  yields := observe_isSome_iff ..
  difference := by
    intro hsome
    obtain ⟨delta, hdelta⟩ := Option.isSome_iff_exists.mp hsome
    dsimp only at hdelta
    obtain ⟨hcomparable, hcomparison⟩ := comparable_of_delta hdelta
    have hprevious : previous.isSome = true := h.baseline.symm.trans hcomparable.baseline
    obtain ⟨earlier, rfl⟩ := Option.isSome_iff_exists.mp hprevious
    obtain ⟨hvalue, hwidth, hfits⟩ := h.last earlier rfl
    have hsame : earlier.reading.width = reading.width := by rw [hcomparable.width, hwidth]
    rw [hvalue] at hcomparison
    refine ⟨earlier, rfl, hsame, ?_⟩
    simp only [FedReading.difference, FedReading.number, hdelta, Option.map_some, Option.getD_some]
    rcases comparison_delta hcomparison with ⟨-, hle, hdifference⟩ | ⟨hevent, hlt, hdecrease⟩
    · rw [hdifference]
      have hexact := advance_emod hle hcomparable.inRange
      exact ⟨hexact.2, fun _ => hexact.1⟩
    · refine ⟨wrap_emod hlt (hsame ▸ hfits) hdecrease, fun hadvance => ?_⟩
      rw [(observe_compared (reception_compared.mpr hcomparable) config).1, hvalue, hevent] at hadvance
      cases hadvance

theorem Resumes.of_counter {other : StreamState} (h : Resumes key previous stream)
    (hcounter : other.counter = stream.counter)
    (hsequence : ∀ fed, stream.fedSequence = some fed → ∃ next, other.fedSequence = some next ∧ fed ≤ next) :
    Resumes key previous other where
  follows := hcounter ▸ h.follows
  baseline := hcounter ▸ h.baseline
  last := hcounter ▸ h.last
  sequence := by
    rw [hcounter]
    intro hbaseline
    obtain ⟨fed, hfed, hle⟩ := h.sequence hbaseline
    obtain ⟨next, hnext, hgrows⟩ := hsequence fed hfed
    exact ⟨next, hnext, UInt64.le_trans hle hgrows⟩

theorem accept_fedSequence_le (limits : FabricLimits) (record : EvidenceRecord) (config : CounterContinuityConfig)
    (reordered : Bool) {fed : UInt64} (hfed : stream.fedSequence = some fed) :
    ∃ next, (stream.accept limits record config reordered).2.fedSequence = some next ∧ fed ≤ next := by
  rw [(accept_fed limits stream record config reordered).2]
  split
  · next hfeeds =>
    unfold feeds at hfeeds
    rw [hfed] at hfeeds
    exact ⟨_, rfl, UInt64.le_of_lt (of_decide_eq_true hfeeds)⟩
  · exact ⟨fed, hfed, UInt64.le_refl _⟩

theorem Resumes.append (h : Resumes key previous stream) (limits : FabricLimits) {call : AppendCall}
    (hown : call.For key)
    (hrange : ∀ reading, call.observation.reading = .counter reading →
      counterValueInRange reading.value reading.width = true) :
    match call.fedReading? (stream.append limits call.record call.config).1 stream
        (stream.append limits call.record call.config).2 with
    | none => Resumes key previous (stream.append limits call.record call.config).2
    | some entry => FedReading.Exact previous entry ∧
        Resumes key (some entry) (stream.append limits call.record call.config).2 := by
  rcases append_cases limits stream call.record call.config with ⟨reordered, -, happend⟩ | ⟨hrefused, stats, hcounted⟩
  · have hsequence := fun fed => @accept_fedSequence_le stream limits call.record call.config reordered fed
    have halike := accept_tracksAlike limits stream call.record call.config reordered
    have hfed := (accept_fed limits stream call.record call.config reordered).2
    have haccepted : (stream.accept limits call.record call.config reordered).1.accepted = true := rfl
    rw [happend]
    unfold AppendCall.fedReading?
    cases hreading : call.observation.reading with
    | gauge gauge =>
      have hnone : stream.fedReading? call.record = none := by
        simp [fedReading?, EvidenceRecord.counterReading?, AppendCall.record, hreading]
      rw [respondedTo, hnone] at halike
      exact h.of_counter halike.counter hsequence
    | counter counter =>
      cases hfeeds : stream.feeds call.observation.sequence with
      | false =>
        have hnone : stream.fedReading? call.record = none := by
          simp [fedReading?, AppendCall.record, hfeeds]
        rw [respondedTo, hnone] at halike
        simp only [Bool.false_eq_true, and_false, if_false]
        exact h.of_counter halike.counter hsequence
      | true =>
        have hsome : stream.fedReading? call.record =
            some (counterObservation call.observation call.received counter) := by
          simp [fedReading?, EvidenceRecord.counterReading?, AppendCall.record, hreading, hfeeds]
        rw [respondedTo, hsome] at halike
        obtain ⟨hcounter, hevent, -, hdelta, -⟩ := halike
        have hsource : (counterObservation call.observation call.received counter).From key.source.incarnation
            key.link.generation := by
          rw [← hown]
          exact ⟨rfl, rfl⟩
        have hrests := observe_rests (h.rebases hsource (hrange counter hreading) hfeeds) call.config
        simp only [EvidenceStore.isAccepted, haccepted, and_self, if_true]
        refine ⟨?_, ?_⟩
        · rw [hevent, hdelta]
          exact h.exact (counterObservation call.observation call.received counter) counter.resetDeclared call.config
        · refine ⟨?_, ?_, ?_, ?_⟩
          · rw [hcounter]
            exact h.follows.observe hsource call.config
          · rw [hcounter]
            exact hrests.baseline
          · intro earlier hearlier
            obtain rfl := Option.some.inj hearlier
            rw [hcounter]
            exact ⟨hrests.value, hrests.width, hrange counter hreading⟩
          · intro _
            refine ⟨call.observation.sequence, ?_, ?_⟩
            · rw [hfed, show call.record.observation.sequence = call.observation.sequence from rfl, hfeeds]
              rfl
            · rw [hcounter]
              exact hrests.sequence ▸ UInt64.le_refl _
  · have hnone : call.fedReading? (stream.append limits call.record call.config).1 stream
        (stream.append limits call.record call.config).2 = none := by
      unfold AppendCall.fedReading?
      rw [hrefused]
      split <;> simp
    rw [hnone, hcounted]
    exact h.of_counter rfl fun fed hfed => ⟨fed, hfed, UInt64.le_refl _⟩

end StreamState

/-! ## Readings one after the other -/

namespace FedReading

def Chained : Option FedReading → List FedReading → Prop
  | _, [] => True
  | previous, entry :: rest => Exact previous entry ∧ Chained (some entry) rest

theorem chained_append {previous : Option FedReading} {entries rest : List FedReading} :
    Chained previous (entries ++ rest) ↔ Chained previous entries ∧ Chained (entries.getLast?.or previous) rest := by
  induction entries generalizing previous with
  | nil => simp [Chained]
  | cons entry entries ih =>
    rw [List.cons_append, Chained, Chained, ih, and_assoc, List.getLast?_cons]
    cases entries.getLast? <;> rfl

theorem Chained.sum {first : FedReading} {run : List FedReading} (h : Chained (some first) run)
    (hevents : ∀ entry ∈ run, entry.event = .advance ∨ entry.event = .wrap) :
    (run.map difference).sum ≡ (run.getLast?.getD first).number - first.number [ZMOD first.reading.width.modulus] ∧
      ((∀ entry ∈ run, entry.event ≠ .wrap) →
        (run.map difference).sum = (run.getLast?.getD first).number - first.number) := by
  induction run generalizing first with
  | nil => simp
  | cons entry rest ih =>
    obtain ⟨hexact, hrest⟩ := h
    have hevent := hevents entry List.mem_cons_self
    obtain ⟨earlier, hearlier, hwidth, hremainder, hplain⟩ := hexact.difference (hexact.yields.mpr hevent)
    obtain rfl := Option.some.inj hearlier
    obtain ⟨hcongruent, hequal⟩ := ih hrest fun other hother => hevents other (List.mem_cons_of_mem _ hother)
    have hlast : ((entry :: rest).getLast?.getD first).number = (rest.getLast?.getD entry).number := by
      rw [List.getLast?_cons]
      rfl
    rw [hlast, List.map_cons, List.sum_cons]
    constructor
    · have hsplit : (rest.getLast?.getD entry).number - first.number =
          (entry.number - first.number) + ((rest.getLast?.getD entry).number - entry.number) := by ring
      rw [hsplit, hwidth]
      refine Int.ModEq.add ?_ hcongruent
      rw [hremainder]
      exact Int.mod_modEq _ _
    · intro hno
      rw [hplain (hevent.resolve_right (hno entry List.mem_cons_self)),
        hequal fun other hother => hno other (List.mem_cons_of_mem _ hother)]
      ring

end FedReading

theorem StreamState.Resumes.chained {limits : FabricLimits} {key : StreamKey} {stream : StreamState}
    {previous : Option FedReading} (h : Resumes key previous stream) {calls : List AppendCall}
    (hown : ∀ call ∈ calls, AppendCall.For key call)
    (hrange : ∀ call ∈ calls, ∀ reading, call.observation.reading = .counter reading →
      counterValueInRange reading.value reading.width = true) :
    FedReading.Chained previous (fedReadings limits stream calls) := by
  induction calls generalizing stream previous with
  | nil => trivial
  | cons call rest ih =>
    have hstep := h.append limits (hown call List.mem_cons_self) (hrange call List.mem_cons_self)
    have hothers := fun other hother => hown other (List.mem_cons_of_mem call hother)
    have hranges := fun other hother => hrange other (List.mem_cons_of_mem call hother)
    rw [fedReadings]
    dsimp only [streamMachine]
    revert hstep
    cases call.fedReading? (stream.append limits call.record call.config).1 stream
        (stream.append limits call.record call.config).2 with
    | none => exact fun hstep => ih hstep hothers hranges
    | some entry => exact fun hstep => ⟨hstep.1, ih hstep.2 hothers hranges⟩

namespace EvidenceStore
variable {store : EvidenceStore} {key : StreamKey}

theorem fedReadings_stream (store : EvidenceStore) (key : StreamKey) (calls : List AppendCall) :
    ∃ own, List.Sublist own (callsFor key calls) ∧
      store.fedReadings key calls = (store.streamAt key).fedReadings store.limits own := by
  induction calls generalizing store with
  | nil => exact ⟨[], .slnil, rfl⟩
  | cons call rest ih =>
    obtain ⟨own, hsublist, hown⟩ := ih (appendMachine.step store call).2
    have hlimits : (appendMachine.step store call).2.limits = store.limits := append_limits ..
    rw [hlimits] at hown
    rw [fedReadings]
    rcases step_cases store call key with ⟨hfor, hanswer, hstream⟩ | ⟨hrefused, hstream⟩
    · refine ⟨call :: own, ?_, ?_⟩
      · simpa [callsFor, hfor] using hsublist
      · rw [if_pos hfor, hown, streamAt_of_some hstream, hanswer]
        rfl
    · refine ⟨own, hsublist.trans ((List.sublist_cons_self call rest).filter _), ?_⟩
      rw [hown, streamAt_of_getElem? hstream]
      split
      · next hfor =>
        unfold AppendCall.fedReading?
        rw [hrefused hfor]
        split <;> simp
      · rfl

structure DeltasExact (fed : List FedReading) : Prop where
  yields : ∀ entry ∈ fed, entry.delta.isSome = true ↔ entry.event = .advance ∨ entry.event = .wrap
  difference : ∀ (before : List FedReading) (entry : FedReading) (after : List FedReading),
    fed = before ++ entry :: after → entry.delta.isSome = true →
      ∃ earlier, before.getLast? = some earlier ∧ earlier.reading.width = entry.reading.width ∧
        entry.difference = (entry.number - earlier.number) % entry.reading.width.modulus
  sum : ∀ (before : List FedReading) (first : FedReading) (run after : List FedReading),
    fed = before ++ first :: (run ++ after) → (∀ entry ∈ run, entry.event = .advance ∨ entry.event = .wrap) →
      (run.map FedReading.difference).sum ≡ (run.getLast?.getD first).number - first.number
          [ZMOD first.reading.width.modulus] ∧
        ((∀ entry ∈ run, entry.event ≠ .wrap) →
          (run.map FedReading.difference).sum = (run.getLast?.getD first).number - first.number)

theorem deltasExact_of_chained {fed : List FedReading} (h : FedReading.Chained none fed) : DeltasExact fed where
  yields := by
    intro entry hentry
    obtain ⟨before, after, rfl⟩ := List.append_of_mem hentry
    exact (FedReading.chained_append.mp h).2.1.yields
  difference := by
    rintro before entry after rfl hsome
    obtain ⟨earlier, hearlier, hwidth, hremainder, -⟩ := (FedReading.chained_append.mp h).2.1.difference hsome
    rw [Option.or_none] at hearlier
    exact ⟨earlier, hearlier, hwidth, hremainder⟩
  sum := by
    rintro before first run after rfl hevents
    have hfrom := (FedReading.chained_append.mp h).2.2
    exact (FedReading.chained_append.mp hfrom).1.sum hevents

/-- **Differences are exact.** In every run of the store whose counter readings fit their widths, each stream reports
differences between readings fed one after the other, and they add up. -/
theorem deltas_exact (limits : FabricLimits) (key : StreamKey) {calls : List AppendCall}
    (hrange : ∀ call ∈ calls, AppendCall.For key call → ∀ reading, call.observation.reading = .counter reading →
      counterValueInRange reading.value reading.width = true) :
    DeltasExact ((empty limits).fedReadings key calls) := by
  obtain ⟨own, hsublist, hfed⟩ := fedReadings_stream (empty limits) key calls
  have hstream : (empty limits).streamAt key = .fresh := by simp [streamAt, empty]
  have hown : ∀ call ∈ own, call ∈ calls ∧ AppendCall.For key call := by
    intro call hcall
    obtain ⟨hmem, hfor⟩ := List.mem_filter.mp (hsublist.subset hcall)
    exact ⟨hmem, of_decide_eq_true hfor⟩
  rw [hfed, hstream]
  refine deltasExact_of_chained ((StreamState.resumes_fresh key).chained (fun call hcall => (hown call hcall).2) ?_)
  exact fun call hcall => hrange call (hown call hcall).1 (hown call hcall).2

/-- A late reading between two others is not fed. -/
theorem late_reading_apart :
    DeltasExact ((empty .defaults).fedReadings counterKey ([1, 3, 2, 4].map counterCall)) ∧
      ((empty .defaults).fedReadings counterKey ([1, 3, 2, 4].map counterCall)).map FedReading.difference =
        [0, 20, 10] := by
  refine ⟨deltas_exact .defaults counterKey ?_, by decide +kernel⟩
  simp only [List.map_cons, List.map_nil, List.forall_mem_cons]
  refine ⟨?_, ?_, ?_, ?_, fun _ hnone => nomatch hnone⟩ <;>
  · intro _ reading hreading
    obtain rfl := Reading.counter.inj hreading
    decide

end EvidenceStore

end Lqf
