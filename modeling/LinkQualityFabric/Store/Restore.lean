import LinkQualityFabric.Store.StreamRuns

/-! A store restored from a snapshot: the retained records are appended in order to an empty store, and then the
window of every stream is seeded.

The retained records of a stream ascend and end with its newest, so the replay puts the watermark where it was.
What the replay remembers was remembered before, so the seeded window is the old one. -/
namespace Lqf
open Foundations
open Std (ExtTreeMap)
set_option autoImplicit false

namespace EvidenceStore

/-! ## Restoring -/

def replayCall (origin : EvidenceOrigin) (config : EvidenceRecord → CounterContinuityConfig) (record : EvidenceRecord) :
    AppendCall :=
  ⟨record.observation, record.received, record.ordinal, origin, config record⟩

def replayed (store : EvidenceStore) (origin : EvidenceOrigin) (config : EvidenceRecord → CounterContinuityConfig) :
    EvidenceStore :=
  appendMachine.final (empty store.limits) (store.retainedRecords.map (replayCall origin config))

def seedFrom (source store : EvidenceStore) (key : StreamKey) : EvidenceStore :=
  (store.seedDedupWindow key (source.dedupWindow key)).2

def restored (store : EvidenceStore) (origin : EvidenceOrigin) (config : EvidenceRecord → CounterContinuityConfig) :
    EvidenceStore :=
  store.streamKeys.foldl (seedFrom store) (store.replayed origin config)

/-! ## The retained records of a stream -/

theorem keepNew_nodup {kept : List EvidenceRecord} (record : EvidenceRecord)
    (hkept : (kept.map fun record => record.observation.sequence).Nodup) :
    ((keepNew kept record).map fun record => record.observation.sequence).Nodup := by
  unfold keepNew
  split
  · exact hkept
  · next hnone =>
    rw [List.map_append, List.map_singleton]
    refine List.nodup_append.mpr ⟨hkept, List.nodup_singleton _, fun a ha b hb hab => hnone ?_⟩
    obtain ⟨other, hother, rfl⟩ := List.mem_map.mp ha
    exact List.any_eq_true.mpr ⟨other, hother, decide_eq_true (hab.trans (List.mem_singleton.mp hb))⟩

theorem foldl_keepNew (records kept : List EvidenceRecord)
    (hkept : (kept.map fun record => record.observation.sequence).Nodup) :
    ((records.foldl keepNew kept).map fun record => record.observation.sequence).Nodup ∧
      kept ⊆ records.foldl keepNew kept ∧ records.foldl keepNew kept ⊆ kept ++ records := by
  induction records generalizing kept with
  | nil => exact ⟨hkept, List.Subset.refl _, List.subset_append_left _ _⟩
  | cons first rest ih =>
    obtain ⟨hnodup, hold, hfrom⟩ := ih (keepNew kept first) (keepNew_nodup first hkept)
    refine ⟨hnodup, fun record hrecord => hold ?_, fun record hrecord => ?_⟩
    · unfold keepNew
      split
      · exact hrecord
      · exact List.mem_append_left _ hrecord
    · have hmem := hfrom hrecord
      unfold keepNew at hmem
      split at hmem <;> grind

theorem retainedOf_nodup (stream : StreamState) :
    ((retainedOf stream).map fun record => record.observation.sequence).Nodup :=
  (foldl_keepNew stream.held [] List.nodup_nil).1

variable {stream : StreamState} {record : EvidenceRecord}

theorem mem_of_retainedOf (h : record ∈ retainedOf stream) : record ∈ stream.held :=
  (foldl_keepNew stream.held [] List.nodup_nil).2.2 h

theorem latestFed_mem_retainedOf (h : stream.latestFed = some record) : record ∈ retainedOf stream := by
  have hfold : retainedOf stream = stream.recent.foldl keepNew [record] := by
    rw [retainedOf, StreamState.held, h]
    rfl
  rw [hfold]
  exact (foldl_keepNew stream.recent [record] (List.nodup_singleton _)).2.1 (List.mem_singleton_self _)

/-! ## The retained records of a store -/

def recordsFor (key : StreamKey) (records : List EvidenceRecord) : List EvidenceRecord :=
  records.filter fun record => record.observation.streamKey = key

def Keyed (store : EvidenceStore) : Prop :=
  ∀ (key : StreamKey) (stream : StreamState), store.streams[key]? = some stream →
    ∀ record ∈ stream.held, record.observation.streamKey = key

variable {store : EvidenceStore} {key : StreamKey}

theorem recordsFor_flatMap (hkeyed : store.Keyed) (key : StreamKey) (entries : List (StreamKey × StreamState))
    (hentries : ∀ entry ∈ entries, store.streams[entry.1]? = some entry.2) :
    recordsFor key (entries.flatMap fun entry => retainedOf entry.2) =
      entries.flatMap fun entry => if entry.1 = key then retainedOf entry.2 else [] := by
  induction entries with
  | nil => rfl
  | cons entry rest ih =>
    have hrest := ih fun other hother => hentries other (List.mem_cons_of_mem _ hother)
    have hown : ∀ record ∈ retainedOf entry.2, record.observation.streamKey = entry.1 := fun record hrecord =>
      hkeyed entry.1 entry.2 (hentries entry List.mem_cons_self) record (mem_of_retainedOf hrecord)
    unfold recordsFor at hrest ⊢
    rw [List.flatMap_cons, List.flatMap_cons, List.filter_append, hrest]
    congr 1
    by_cases hkey : entry.1 = key
    · rw [if_pos hkey]
      exact List.filter_eq_self.mpr fun record hrecord => decide_eq_true ((hown record hrecord).trans hkey)
    · rw [if_neg hkey]
      exact List.filter_eq_nil_iff.mpr fun record hrecord hsame =>
        hkey ((hown record hrecord).symm.trans (of_decide_eq_true hsame))

theorem flatMap_of_key {entries : List (StreamKey × StreamState)} (hnodup : (entries.map Prod.fst).Nodup)
    (hmem : (key, stream) ∈ entries) :
    (entries.flatMap fun entry => if entry.1 = key then retainedOf entry.2 else []) = retainedOf stream := by
  induction entries with
  | nil => cases hmem
  | cons entry rest ih =>
    rw [List.map_cons, List.nodup_cons] at hnodup
    rw [List.flatMap_cons]
    rcases List.mem_cons.mp hmem with rfl | hlater
    · have hnone : (rest.flatMap fun entry => if entry.1 = key then retainedOf entry.2 else []) = [] := by
        rw [List.flatMap_eq_nil_iff]
        intro other hother
        exact if_neg fun hsame => hnodup.1 (List.mem_map.mpr ⟨other, hother, hsame⟩)
      rw [hnone, if_pos rfl, List.append_nil]
    · have hne : entry.1 ≠ key := by
        rintro rfl
        exact hnodup.1 (List.mem_map.mpr ⟨_, hlater, rfl⟩)
      rw [if_neg hne, List.nil_append]
      exact ih hnodup.2 hlater

theorem perm_retainedRecords (store : EvidenceStore) :
    store.retainedRecords.Perm (store.streams.toList.flatMap fun entry => retainedOf entry.2) :=
  List.perm_insertionSort ..

theorem recordsFor_retained (hkeyed : store.Keyed) (hstream : store.streams[key]? = some stream) :
    (recordsFor key store.retainedRecords).Perm (retainedOf stream) := by
  have hperm := (perm_retainedRecords store).filter fun record => decide (record.observation.streamKey = key)
  have hflat := recordsFor_flatMap hkeyed key store.streams.toList fun entry hentry =>
    ExtTreeMap.mem_toList_iff_getElem?_eq_some.mp hentry
  have hnodup : (store.streams.toList.map Prod.fst).Nodup := by
    rw [ExtTreeMap.map_fst_toList_eq_keys]
    exact keys_nodup _
  unfold recordsFor at hflat ⊢
  rw [hflat, flatMap_of_key hnodup (ExtTreeMap.mem_toList_iff_getElem?_eq_some.mpr hstream)] at hperm
  exact hperm

theorem key_of_mem_retained (hkeyed : store.Keyed) (h : record ∈ store.retainedRecords) :
    record.observation.streamKey ∈ store.streams := by
  rw [(perm_retainedRecords store).mem_iff, List.mem_flatMap] at h
  obtain ⟨⟨key, stream⟩, hentry, hrecord⟩ := h
  have hstream := ExtTreeMap.mem_toList_iff_getElem?_eq_some.mp hentry
  rw [hkeyed key stream hstream record (mem_of_retainedOf hrecord), ExtTreeMap.mem_iff_isSome_getElem?, hstream]
  rfl

instance : Std.TransCmp recordOrder :=
  inferInstanceAs (Std.TransCmp (compareLex (compareOn fun record : EvidenceRecord => record.observation.streamKey)
    (compareOn fun record : EvidenceRecord => record.observation.sequence)))

theorem sorted_retainedRecords (store : EvidenceStore) :
    store.retainedRecords.Pairwise fun a b => (recordOrder a b).isLE = true := by
  have htotal : Std.Total fun a b : EvidenceRecord => (recordOrder a b).isLE = true := by
    refine ⟨fun a b => ?_⟩
    rw [← Std.OrientedCmp.isGE_eq_isLE (a := a) (b := b)]
    cases recordOrder a b <;> decide
  have htrans : IsTrans EvidenceRecord fun a b => (recordOrder a b).isLE = true :=
    ⟨fun a b c hab hbc => Std.TransCmp.isLE_trans hab hbc⟩
  exact List.pairwise_insertionSort _ _

theorem recordsFor_ascending (hkeyed : store.Keyed) (hstream : store.streams[key]? = some stream) :
    (recordsFor key store.retainedRecords).Pairwise fun a b => a.observation.sequence < b.observation.sequence := by
  have hsorted := (sorted_retainedRecords store).filter fun record => decide (record.observation.streamKey = key)
  have hnodup : ((recordsFor key store.retainedRecords).map fun record => record.observation.sequence).Nodup :=
    ((recordsFor_retained hkeyed hstream).map _).nodup_iff.mpr (retainedOf_nodup stream)
  have hdistinct := List.pairwise_map.mp hnodup
  refine (hsorted.and hdistinct).imp_of_mem ?_
  rintro a b ha hb ⟨hle, hne⟩
  have hkeys : compare a.observation.streamKey b.observation.streamKey = .eq := by
    rw [Std.compare_eq_iff_eq, of_decide_eq_true (List.mem_filter.mp ha).2, of_decide_eq_true (List.mem_filter.mp hb).2]
  have hcompare : (compare a.observation.sequence b.observation.sequence).isLE = true := by
    simpa [recordOrder, hkeys] using hle
  rw [Std.isLE_compare] at hcompare
  exact UInt64.lt_of_le_of_ne hcompare hne

end EvidenceStore

/-! ## What an append-only stream keeps -/

namespace StreamState
variable {limits : FabricLimits} {stream : StreamState}

/-- The stream of `key` with its newest record; the window is what was accepted within a window of it. -/
structure Kept (window : ℕ) (key : StreamKey) (stream : StreamState) (newest : EvidenceRecord) : Prop
    extends Topped stream newest where
  keyed : ∀ record ∈ stream.held, record.observation.streamKey = key
  below : ∀ record ∈ stream.recent, record.observation.sequence ≤ newest.observation.sequence
  remembered : ∀ record ∈ stream.held,
    newest.observation.sequence.toNat < record.observation.sequence.toNat + window →
    record.observation.sequence ∈ stream.dedup
  range : ∀ sequence, sequence ∈ stream.dedup →
    newest.observation.sequence.toNat < sequence.toNat + window ∧ sequence ≤ newest.observation.sequence

variable {record : EvidenceRecord} {key : StreamKey} {watermark : UInt64}

theorem mem_accept_recent {other : EvidenceRecord} {config : CounterContinuityConfig} {reordered : Bool}
    (h : other ∈ (stream.accept limits record config reordered).2.recent) :
    other ∈ stream.recent ∨ other = record := by
  rw [accept_recent] at h
  have hpushed := List.mem_of_mem_drop h
  rwa [List.mem_append, List.mem_singleton] at hpushed

section Held
variable {other : EvidenceRecord} {config : CounterContinuityConfig}

theorem mem_held_accept {reordered : Bool} (h : other ∈ (stream.accept limits record config reordered).2.held) :
    other ∈ stream.held ∨ other = record := by
  unfold held at h ⊢
  rw [List.mem_append, Option.mem_toList] at h
  rcases h with hfed | hrecent
  · rw [(accept_fed limits stream record config reordered).1] at hfed
    split at hfed
    · exact .inr (Option.some.inj hfed).symm
    · exact .inl (List.mem_append_left _ (Option.mem_toList.mpr hfed))
  · exact (mem_accept_recent hrecent).imp_left (List.mem_append_right _)

theorem mem_held_append (h : other ∈ (stream.append limits record config).2.held) :
    other ∈ stream.held ∨ other = record := by
  rcases append_cases limits stream record config with ⟨reordered, -, hresult⟩ | ⟨-, stats, hresult⟩
  · rw [hresult] at h
    exact mem_held_accept h
  · rw [hresult] at h
    exact .inl h

end Held

theorem kept_first (hwindow : limits.maxDedupWindow < 2 ^ 64) (record : EvidenceRecord)
    (config : CounterContinuityConfig) : Kept limits.maxDedupWindow record.observation.streamKey
      (StreamState.fresh.accept limits record config false).2 record := by
  obtain ⟨-, htop, hmem⟩ := topped_first hwindow record config
  have honly : ∀ other ∈ (StreamState.fresh.accept limits record config false).2.held, other = record :=
    fun other hother => (mem_held_accept hother).resolve_left List.not_mem_nil
  refine ⟨htop, fun other hother => by rw [honly other hother], ?_, ?_, ?_⟩
  · intro other hother
    rw [honly other (List.mem_append_right _ hother)]
    exact UInt64.le_refl _
  · intro other hother hinside
    rw [honly other hother] at hinside ⊢
    exact (hmem _).mpr ⟨rfl, hinside⟩
  · intro sequence hsequence
    obtain ⟨rfl, hinside⟩ := (hmem sequence).mp hsequence
    exact ⟨hinside, UInt64.le_refl _⟩

theorem Kept.accept {newest : EvidenceRecord} (h : Kept limits.maxDedupWindow key stream newest)
    (hwindow : limits.maxDedupWindow < 2 ^ 64) (hkey : record.observation.streamKey = key)
    (config : CounterContinuityConfig) (reordered : Bool) :
    Kept limits.maxDedupWindow key (stream.accept limits record config reordered).2 (newer newest record) := by
  obtain ⟨htop, hmem⟩ := h.toTopped.accept hwindow record config reordered
  obtain ⟨hleft, hright⟩ := le_newer newest record
  refine ⟨htop, ?_, ?_, ?_, ?_⟩
  · intro other hother
    rcases mem_held_accept hother with hearlier | rfl
    · exact h.keyed other hearlier
    · exact hkey
  · intro other hother
    rcases mem_accept_recent hother with hearlier | rfl
    · exact UInt64.le_trans (h.below other hearlier) hleft
    · exact hright
  · intro other hother hinside
    rw [hmem]
    refine ⟨?_, hinside⟩
    rcases mem_held_accept hother with hearlier | rfl
    · exact .inr (h.remembered other hearlier (lt_of_le_of_lt (UInt64.le_iff_toNat_le.mp hleft) hinside))
    · exact .inl rfl
  · intro sequence hsequence
    obtain ⟨hsource, hinside⟩ := (hmem sequence).mp hsequence
    refine ⟨hinside, ?_⟩
    rcases hsource with rfl | hearlier
    · exact hright
    · exact UInt64.le_trans (h.range sequence hearlier).2 hleft

theorem kept_append (h : stream = .fresh ∨ ∃ newest, Kept limits.maxDedupWindow key stream newest)
    (hwindow : limits.maxDedupWindow < 2 ^ 64) (hkey : record.observation.streamKey = key)
    (config : CounterContinuityConfig) :
    ∃ newest, Kept limits.maxDedupWindow key (stream.append limits record config).2 newest := by
  rcases h with rfl | ⟨newest, h⟩
  · rw [(topped_first hwindow record config).1, ← hkey]
    exact ⟨record, kept_first hwindow record config⟩
  rcases append_cases limits stream record config with ⟨reordered, -, hresult⟩ | ⟨-, stats, hresult⟩
  · rw [hresult]
    exact ⟨_, h.accept hwindow hkey config reordered⟩
  · rw [hresult]
    exact ⟨newest, ⟨h.latest, h.fed, h.mark⟩, h.keyed, h.below, h.remembered, h.range⟩

/-! ## Ascending appends -/

/-- A stream that has taken ascending numbers only. -/
structure Ascended (window : ℕ) (calls : List AppendCall) (stream : StreamState) : Prop where
  mark : stream.watermark = calls.getLast?.map fun call => call.observation.sequence
  fed : stream.fedSequence = stream.watermark
  window : ∀ sequence, sequence ∈ stream.dedup → (∃ call ∈ calls, call.observation.sequence = sequence) ∧
    ∀ watermark, stream.watermark = some watermark → watermark.toNat < sequence.toNat + window

variable {calls : List AppendCall} {call : AppendCall}

theorem getLast?_le (h : calls.Pairwise fun a b => a.observation.sequence < b.observation.sequence)
    {last : AppendCall} (hlast : calls.getLast? = some last) (hcall : call ∈ calls) :
    call.observation.sequence ≤ last.observation.sequence := by
  obtain ⟨init, rfl⟩ := List.getLast?_eq_some_iff.mp hlast
  rcases List.mem_append.mp hcall with hearlier | hsame
  · exact UInt64.le_of_lt ((List.pairwise_append.mp h).2.2 call hearlier last (List.mem_singleton_self _))
  · rw [List.mem_singleton.mp hsame]
    exact UInt64.le_refl _

theorem Ascended.next (h : Ascended limits.maxDedupWindow calls stream)
    (habove : ∀ other ∈ calls, other.observation.sequence < call.observation.sequence) :
    stream.feeds call.observation.sequence = true ∧ stream.append limits call.record call.config =
        (.ok (stream.accept limits call.record call.config false).1,
          (stream.accept limits call.record call.config false).2) := by
  have hmark : ∀ watermark, stream.watermark = some watermark → watermark < call.observation.sequence := by
    intro watermark hwatermark
    rw [h.mark, Option.map_eq_some_iff] at hwatermark
    obtain ⟨last, hlast, rfl⟩ := hwatermark
    exact habove last (List.mem_of_getLast? hlast)
  have hnew : stream.dedup[call.observation.sequence]? = none := by
    refine ExtTreeMap.getElem?_eq_none fun hmem => ?_
    obtain ⟨other, hother, hsame⟩ := (h.window _ hmem).1
    have hlt := habove other hother
    rw [hsame] at hlt
    exact UInt64.lt_irrefl _ hlt
  have hverdict : stream.verdict limits.maxDedupWindow call.observation.sequence
      (evidenceDigest call.observation) = .accept false := by
    unfold verdict
    cases hcase : stream.watermark with
    | none => rfl
    | some watermark => simp [hnew, UInt64.lt_asymm (hmark watermark hcase)]
  constructor
  · unfold feeds
    rw [h.fed]
    cases hcase : stream.watermark with
    | none => rfl
    | some watermark => exact decide_eq_true (hmark watermark hcase)
  · unfold StreamState.append
    simp only [AppendCall.record, hverdict]

theorem ascended (hwindow : limits.maxDedupWindow < 2 ^ 64) (calls : List AppendCall)
    (h : calls.Pairwise fun a b => a.observation.sequence < b.observation.sequence) :
    Ascended limits.maxDedupWindow calls ((streamMachine limits).final .fresh calls) := by
  induction calls using List.reverseRecOn with
  | nil => exact ⟨rfl, rfl, fun sequence hmem => absurd hmem ExtTreeMap.not_mem_empty⟩
  | append_singleton calls call ih =>
    obtain ⟨hinit, -, habove⟩ := List.pairwise_append.mp h
    have hprevious := ih hinit
    have hlast : ∀ other ∈ calls, other.observation.sequence < call.observation.sequence :=
      fun other hother => habove other hother call (List.mem_singleton_self _)
    obtain ⟨hfeeds, haccept⟩ := hprevious.next hlast
    rw [Machine.final_append, Machine.final_cons, Machine.final_nil]
    show Ascended _ _ ((StreamState.append limits _ call.record call.config).2)
    rw [haccept]
    obtain ⟨-, hfed⟩ := accept_fed limits ((streamMachine limits).final .fresh calls) call.record call.config false
    obtain ⟨watermark, hmark, hself, hold, hmem⟩ := mem_admitSequence ((streamMachine limits).final .fresh calls)
      hwindow call.observation.sequence (evidenceDigest call.observation)
    have hwatermark : watermark = call.observation.sequence := by
      unfold admitSequence at hmark
      refine (Option.some.inj hmark).symm.trans ?_
      cases hcase : ((streamMachine limits).final .fresh calls).watermark with
      | none => rfl
      | some old =>
        rw [hprevious.mark, Option.map_eq_some_iff] at hcase
        obtain ⟨last, hfound, rfl⟩ := hcase
        exact if_pos (hlast last (List.mem_of_getLast? hfound))
    subst hwatermark
    have hmark' := (accept_watermark limits ((streamMachine limits).final .fresh calls) call.record call.config
      false).trans hmark
    refine ⟨?_, ?_, ?_⟩
    · rw [hmark', List.getLast?_concat]
      rfl
    · rw [hmark', hfed]
      exact if_pos hfeeds
    · intro sequence hsequence
      rw [accept_dedup] at hsequence
      obtain ⟨hsource, hinside⟩ := (hmem sequence).mp hsequence
      refine ⟨?_, fun watermark hsome => ?_⟩
      · rcases hsource with rfl | hearlier
        · exact ⟨call, List.mem_append_right _ (List.mem_singleton_self _), rfl⟩
        · obtain ⟨other, hother, hsame⟩ := (hprevious.window sequence hearlier).1
          exact ⟨other, List.mem_append_left _ hother, hsame⟩
      · obtain rfl := Option.some.inj (hmark'.symm.trans hsome)
        exact hinside

/-! ## Seeding -/

theorem seedEntries_dedup (entries : List (UInt64 × UInt64)) (stream : StreamState) :
    (entries.foldl EvidenceStore.seedEntry stream).dedup = stream.dedup.insertMany entries := by
  rw [ExtTreeMap.insertMany_list_eq_foldl]
  induction entries generalizing stream with
  | nil => rfl
  | cons entry rest ih => exact ih _

theorem seedEntries_watermark {entries : List (UInt64 × UInt64)} {stream : StreamState}
    (hmark : stream.watermark = some watermark) (hle : ∀ entry ∈ entries, entry.1 ≤ watermark) :
    (entries.foldl EvidenceStore.seedEntry stream).watermark = some watermark := by
  induction entries generalizing stream with
  | nil => exact hmark
  | cons entry rest ih =>
    refine ih ?_ fun other hother => hle other (List.mem_cons_of_mem _ hother)
    have hnot : ¬ watermark < entry.1 := UInt64.not_lt.mpr (hle entry List.mem_cons_self)
    simp [EvidenceStore.seedEntry, hmark, hnot]

theorem seed_window {window : ℕ} {stream source : StreamState} (hmark : stream.watermark = some watermark)
    (hsub : ∀ sequence, sequence ∈ stream.dedup → sequence ∈ source.dedup)
    (hle : ∀ sequence, sequence ∈ source.dedup → sequence ≤ watermark) (hsize : source.dedup.size ≤ window) :
    (stream.seed window source.dedup.toList).watermark = some watermark ∧
      (stream.seed window source.dedup.toList).dedup = source.dedup := by
  have hdedup : (source.dedup.toList.foldl EvidenceStore.seedEntry stream).dedup = source.dedup := by
    rw [seedEntries_dedup]
    refine ExtTreeMap.ext_getElem? fun sequence => ?_
    cases hfind : source.dedup[sequence]? with
    | some digest =>
      exact ExtTreeMap.getElem?_insertMany_list_of_mem Std.compare_self ExtTreeMap.distinct_keys_toList
        (ExtTreeMap.mem_toList_iff_getElem?_eq_some.mpr hfind)
    | none =>
      have hnot : sequence ∉ source.dedup := by simp [ExtTreeMap.mem_iff_isSome_getElem?, hfind]
      rw [ExtTreeMap.getElem?_insertMany_list_of_contains_eq_false]
      · exact ExtTreeMap.getElem?_eq_none fun hmem => hnot (hsub sequence hmem)
      · rw [ExtTreeMap.map_fst_toList_eq_keys, Bool.eq_false_iff, ne_eq, List.contains_iff_mem, ExtTreeMap.mem_keys]
        exact hnot
  refine ⟨seedEntries_watermark hmark fun entry hentry => hle entry.1 ?_, ?_⟩
  · rw [ExtTreeMap.mem_iff_isSome_getElem?, ExtTreeMap.mem_toList_iff_getElem?_eq_some.mp hentry]
    rfl
  · show List.foldl ExtTreeMap.erase _ _ = _
    rw [hdedup, Nat.sub_eq_zero_of_le hsize]
    rfl

end StreamState

namespace EvidenceStore
open StreamState
variable {store other : EvidenceStore} {key : StreamKey}

/-! ## Room for the replay -/

theorem admits_within (h : Counted store) (hother : Counted other) (hlimits : other.limits = store.limits)
    (hsub : ∀ key, key ∈ other.streams → key ∈ store.streams) (hkey : key ∈ store.streams) : other.Admits key := by
  by_cases hmem : key ∈ other.streams
  · exact .inl hmem
  right
  have hlt : ((keySet other.streams).filter fun found => found.link = key.link).card <
      ((keySet store.streams).filter fun found => found.link = key.link).card := by
    refine Finset.card_lt_card (Finset.ssubset_iff_of_subset ?_ |>.mpr ⟨key, ?_, ?_⟩)
    · intro found hfound
      rw [Finset.mem_filter, mem_keySet] at hfound ⊢
      exact ⟨hsub found hfound.1, hfound.2⟩
    · rw [Finset.mem_filter, mem_keySet]
      exact ⟨hkey, rfl⟩
    · rw [Finset.mem_filter, mem_keySet]
      exact fun hfound => hmem hfound.1
  rw [hother.counted, linkStreams_length, hlimits]
  refine lt_of_lt_of_le hlt ?_
  rw [← linkStreams_length, ← h.counted]
  exact h.room key.link

theorem mem_step {call : AppendCall} (h : key ∈ (appendMachine.step store call).2.streams) :
    key ∈ store.streams ∨ key = call.observation.streamKey := by
  by_cases hown : AppendCall.For key call
  · exact .inr hown.symm
  · rw [ExtTreeMap.mem_iff_isSome_getElem?, step_other hown, ← ExtTreeMap.mem_iff_isSome_getElem?] at h
    exact .inl h

theorem hasRoom_within (h : Counted store) (hother : Counted other) (hlimits : other.limits = store.limits)
    (hsub : ∀ key, key ∈ other.streams → key ∈ store.streams) {calls : List AppendCall}
    (hcalls : ∀ call ∈ calls, call.observation.streamKey ∈ store.streams) (key : StreamKey) :
    appendMachine.Meets (HasRoom key) other calls := by
  induction calls generalizing other with
  | nil => trivial
  | cons call rest ih =>
    have hcall := hcalls call List.mem_cons_self
    refine ⟨fun hown => admits_within h hother hlimits hsub (hown ▸ hcall),
      ih (hother.append ..) ((append_limits ..).trans hlimits) ?_ fun later hlater =>
        hcalls later (List.mem_cons_of_mem _ hlater)⟩
    intro found hfound
    rcases mem_step hfound with hearlier | rfl
    · exact hsub found hearlier
    · exact hcall

/-! ## Stores reached by appends -/

structure Settled (store : EvidenceStore) : Prop extends Represented store where
  window : store.limits.maxDedupWindow < 2 ^ 64
  kept : ∀ (key : StreamKey) (stream : StreamState), store.streams[key]? = some stream →
    ∃ newest, stream.Kept store.limits.maxDedupWindow key newest

variable {limits : FabricLimits} (source : EvidenceStore)

theorem settled_of_run (hwindow : limits.maxDedupWindow < 2 ^ 64) (calls : List AppendCall) :
    (appendMachine.final (empty limits) calls).Settled ∧
      (appendMachine.final (empty limits) calls).limits = limits := by
  obtain ⟨hrepresented, hlimits⟩ := (represented_empty limits).appends hwindow calls
  refine ⟨⟨hrepresented, hlimits.symm ▸ hwindow, ?_⟩, hlimits⟩
  rw [hlimits]
  refine streams_invariant (fun _ _ => True) (Q := fun key stream =>
    ∃ newest, stream.Kept limits.maxDedupWindow key newest) ?_ (appendMachine.meets_of_forall _ fun _ _ => trivial)
  intro stream call hstream _
  exact kept_append hstream hwindow rfl call.config

theorem Settled.keyed (h : Settled store) : store.Keyed := by
  intro key stream hstream
  obtain ⟨newest, hkept⟩ := h.kept key stream hstream
  exact hkept.keyed

theorem callsFor_replay (key : StreamKey) (origin : EvidenceOrigin) (config : EvidenceRecord → CounterContinuityConfig)
    (records : List EvidenceRecord) :
    callsFor key (records.map (replayCall origin config)) = (recordsFor key records).map (replayCall origin config) := by
  unfold callsFor recordsFor
  rw [List.filter_map]
  rfl

section Replay
variable (origin : EvidenceOrigin) (config : EvidenceRecord → CounterContinuityConfig)

def replayedStream (store : EvidenceStore) (key : StreamKey) : StreamState :=
  (streamMachine store.limits).final .fresh ((recordsFor key store.retainedRecords).map (replayCall origin config))

theorem Settled.replayed_streams (h : Settled store) (key : StreamKey) :
    (store.replayed origin config).streams[key]? =
      (store.streams[key]?).map fun _ => store.replayedStream origin config key := by
  have hroom : appendMachine.Meets (HasRoom key) (empty store.limits)
      (store.retainedRecords.map (replayCall origin config)) := by
    refine hasRoom_within h.toCounted (counted_empty _) rfl (fun key hkey => absurd hkey ExtTreeMap.not_mem_empty) ?_ key
    intro call hcall
    obtain ⟨record, hrecord, rfl⟩ := List.mem_map.mp hcall
    exact key_of_mem_retained h.keyed hrecord
  have hrun := (run_stream hroom).2
  rw [callsFor_replay] at hrun
  unfold replayed
  rw [hrun]
  cases hfind : store.streams[key]? with
  | none =>
    have hnone : recordsFor key store.retainedRecords = [] := by
      refine List.filter_eq_nil_iff.mpr fun record hrecord hsame => ?_
      have hmem := key_of_mem_retained h.keyed hrecord
      rw [of_decide_eq_true hsame, ExtTreeMap.mem_iff_isSome_getElem?, hfind] at hmem
      cases hmem
    rw [hnone]
    exact ExtTreeMap.getElem?_empty
  | some stream =>
    obtain ⟨newest, hkept⟩ := h.kept key stream hfind
    have hmem := (recordsFor_retained h.keyed hfind).mem_iff.mpr (latestFed_mem_retainedOf hkept.latest)
    rw [if_neg fun hnil => List.ne_nil_of_mem hmem (List.map_eq_nil_iff.mp hnil)]
    rfl

variable {stream : StreamState}

theorem Settled.replayed_ascended (h : Settled store) (hstream : store.streams[key]? = some stream) :
    Ascended store.limits.maxDedupWindow ((recordsFor key store.retainedRecords).map (replayCall origin config))
      (store.replayedStream origin config key) :=
  ascended h.window _ (List.pairwise_map.mpr (recordsFor_ascending h.keyed hstream))

theorem Settled.replayed_window (h : Settled store) {newest : EvidenceRecord}
    (hstream : store.streams[key]? = some stream) (hkept : stream.Kept store.limits.maxDedupWindow key newest) :
    (store.replayedStream origin config key).watermark = some newest.observation.sequence ∧
      ∀ sequence, sequence ∈ (store.replayedStream origin config key).dedup → sequence ∈ stream.dedup := by
  have hascended := h.replayed_ascended origin config hstream
  have hperm := recordsFor_retained h.keyed hstream
  have hascending := recordsFor_ascending h.keyed hstream
  have hnewest := hperm.mem_iff.mpr (latestFed_mem_retainedOf hkept.latest)
  have hfrom : ∀ record ∈ recordsFor key store.retainedRecords,
      record ∈ stream.held := fun record hrecord => mem_of_retainedOf (hperm.mem_iff.mp hrecord)
  have hbelow : ∀ record ∈ recordsFor key store.retainedRecords,
      record.observation.sequence ≤ newest.observation.sequence := by
    intro record hrecord
    have hmem := hfrom record hrecord
    rw [StreamState.held, hkept.latest] at hmem
    rcases List.mem_append.mp hmem with hlatest | hrecent
    · rw [Option.some.inj (Option.mem_toList.mp hlatest)]
      exact UInt64.le_refl _
    · exact hkept.below record hrecent
  have hmark : (store.replayedStream origin config key).watermark = some newest.observation.sequence := by
    rw [hascended.mark, List.getLast?_map, List.getLast?_eq_some_getLast (List.ne_nil_of_mem hnewest)]
    refine congrArg some (UInt64.le_antisymm (hbelow _ (List.getLast_mem _)) ?_)
    exact getLast?_le (List.pairwise_map.mpr hascending)
      (by rw [List.getLast?_map, List.getLast?_eq_some_getLast (List.ne_nil_of_mem hnewest)]; rfl)
      (List.mem_map_of_mem (f := replayCall origin config) hnewest)
  refine ⟨hmark, fun sequence hsequence => ?_⟩
  obtain ⟨⟨call, hcall, rfl⟩, hinside⟩ := hascended.window sequence hsequence
  obtain ⟨record, hrecord, rfl⟩ := List.mem_map.mp hcall
  exact hkept.remembered record (hfrom record hrecord) (hinside _ hmark)

end Replay

/-! ## Seeding every stream -/

theorem seedFrom_streams (hmem : key ∈ store.streams) (found : StreamKey) :
    (seedFrom source store key).streams[found]? =
      if found = key then (store.streams[found]?).map (seed store.limits.maxDedupWindow · (source.dedupWindow key))
      else store.streams[found]? := by
  unfold seedFrom
  rw [seedDedupWindow_of_admits (.inl hmem), putStream_open_streams, ExtTreeMap.getElem?_insert]
  by_cases hkey : found = key
  · subst hkey
    obtain ⟨stream, hstream⟩ := Option.isSome_iff_exists.mp (ExtTreeMap.isSome_getElem?_iff_mem.mpr hmem)
    rw [if_pos Std.compare_self, if_pos rfl, hstream, streamAt, hstream]
    rfl
  · rw [if_neg (fun heq => hkey (Std.compare_eq_iff_eq.mp heq).symm), if_neg hkey]

theorem seedAll_streams {keys : List StreamKey} (hnodup : keys.Nodup) (hkeys : ∀ key ∈ keys, key ∈ store.streams)
    (found : StreamKey) : (keys.foldl (seedFrom source) store).streams[found]? = if found ∈ keys then
        (store.streams[found]?).map (seed store.limits.maxDedupWindow · (source.dedupWindow found))
      else store.streams[found]? := by
  induction keys generalizing store with
  | nil => simp
  | cons key rest ih =>
    rw [List.nodup_cons] at hnodup
    have hkey := hkeys key List.mem_cons_self
    have hrest : ∀ later ∈ rest, later ∈ (seedFrom source store key).streams := by
      intro later hlater
      rw [ExtTreeMap.mem_iff_isSome_getElem?, seedFrom_streams source hkey]
      have hmem := hkeys later (List.mem_cons_of_mem _ hlater)
      rw [ExtTreeMap.mem_iff_isSome_getElem?] at hmem
      split
      · rwa [Option.isSome_map]
      · exact hmem
    rw [List.foldl_cons, ih hnodup.2 hrest, seedFrom_streams source hkey,
      show (seedFrom source store key).limits = store.limits from seedDedupWindow_limits ..]
    by_cases hfound : found = key
    · subst hfound
      simp [hnodup.1]
    · simp [hfound]

theorem seedAll_counted (keys : List StreamKey) (h : Counted store) :
    Counted (keys.foldl (seedFrom source) store) ∧ (keys.foldl (seedFrom source) store).limits = store.limits := by
  induction keys generalizing store with
  | nil => exact ⟨h, rfl⟩
  | cons key rest ih =>
    obtain ⟨hcounted, hlimits⟩ := ih (h.seed key (source.dedupWindow key))
    exact ⟨hcounted, hlimits.trans (seedDedupWindow_limits ..)⟩

/-! ## Verdicts -/

/-- What an append decides. -/
inductive AppendVerdict where
  | accepted
  | reordered
  | duplicate
  | refused (code : StatusCode)
  deriving DecidableEq, Repr

def verdictOf : Outcome IngestOutcome → AppendVerdict
  | .error status => .refused status.code
  | .ok outcome => if outcome.duplicate then .duplicate else if outcome.reordered then .reordered else .accepted

theorem accept_verdict (limits : FabricLimits) (stream : StreamState) (record : EvidenceRecord)
    (config : CounterContinuityConfig) (reordered : Bool) :
    verdictOf (.ok (stream.accept limits record config reordered).1) = if reordered then .reordered else .accepted := by
  have hfed : ∀ (stream : StreamState) (outcome : IngestOutcome),
      (stream.feedCounter record config outcome).2.duplicate = outcome.duplicate ∧
        (stream.feedCounter record config outcome).2.reordered = outcome.reordered := by
    intro stream outcome
    unfold feedCounter
    split
    · exact ⟨rfl, rfl⟩
    · split <;> exact ⟨rfl, rfl⟩
  simp only [verdictOf, accept, pushRecent, (hfed _ _).1, (hfed _ _).2]
  rfl

theorem stream_verdict_congr {stream source : StreamState} (record : EvidenceRecord)
    (config : CounterContinuityConfig) (hmark : stream.watermark = source.watermark)
    (hdedup : stream.dedup = source.dedup) :
    verdictOf (stream.append limits record config).1 = verdictOf (source.append limits record config).1 := by
  have hverdict : stream.verdict limits.maxDedupWindow record.observation.sequence
      (evidenceDigest record.observation) = source.verdict limits.maxDedupWindow record.observation.sequence
      (evidenceDigest record.observation) := by
    unfold verdict
    rw [hmark, hdedup]
  unfold StreamState.append
  simp only [hverdict]
  cases source.verdict limits.maxDedupWindow record.observation.sequence (evidenceDigest record.observation) with
  | duplicate => rfl
  | idMismatch => rfl
  | fenced => rfl
  | accept reordered =>
    show verdictOf (.ok _) = verdictOf (.ok _)
    rw [accept_verdict, accept_verdict]

structure SameFence (store other : EvidenceStore) : Prop where
  limits : other.limits = store.limits
  counts : ∀ link, other.streamsOf link = store.streamsOf link
  streams : ∀ key : StreamKey, (other.streams[key]?).map (fun stream => (stream.watermark, stream.dedup)) =
    (store.streams[key]?).map fun stream => (stream.watermark, stream.dedup)

theorem SameFence.verdict (h : SameFence store other) (call : AppendCall) :
    verdictOf (appendMachine.step other call).1 = verdictOf (appendMachine.step store call).1 := by
  have hmem : ∀ key, key ∈ other.streams ↔ key ∈ store.streams := by
    intro key
    have hsame := congrArg Option.isSome (h.streams key)
    rw [Option.isSome_map, Option.isSome_map] at hsame
    rw [ExtTreeMap.mem_iff_isSome_getElem?, ExtTreeMap.mem_iff_isSome_getElem?, hsame]
  have hadmits : other.Admits call.observation.streamKey ↔ store.Admits call.observation.streamKey := by
    unfold Admits
    rw [hmem, h.counts, h.limits]
  have hat : (other.streamAt call.observation.streamKey).watermark =
        (store.streamAt call.observation.streamKey).watermark ∧
      (other.streamAt call.observation.streamKey).dedup = (store.streamAt call.observation.streamKey).dedup := by
    have hsame := h.streams call.observation.streamKey
    unfold streamAt
    cases hother : other.streams[call.observation.streamKey]? <;>
      cases hstore : store.streams[call.observation.streamKey]? <;> simp_all
  rw [appendMachine_step, appendMachine_step]
  by_cases hroom : store.Admits call.observation.streamKey
  · rw [(store.append_of_admits _ call.received call.ordinal call.origin call.config hroom).1,
      (other.append_of_admits _ call.received call.ordinal call.origin call.config (hadmits.mpr hroom)).1, h.limits]
    exact stream_verdict_congr _ call.config hat.1 hat.2
  · rw [store.append_of_not_admits _ call.received call.ordinal call.origin call.config hroom,
      other.append_of_not_admits _ call.received call.ordinal call.origin call.config (mt hadmits.mp hroom)]
    rfl

/-! ## The restored store -/

theorem Settled.restored_sameFence (h : Settled store) (origin : EvidenceOrigin)
    (config : EvidenceRecord → CounterContinuityConfig) : SameFence store (store.restored origin config) := by
  have hreplayed : (store.replayed origin config).Represented ∧
      (store.replayed origin config).limits = store.limits := (represented_empty _).appends h.window _
  obtain ⟨hcounted, hlimits⟩ := seedAll_counted store store.streamKeys hreplayed.1.toCounted
  have hkeys : ∀ key ∈ store.streamKeys, key ∈ (store.replayed origin config).streams := by
    intro key hkey
    rw [ExtTreeMap.mem_iff_isSome_getElem?, h.replayed_streams, Option.isSome_map,
      ← ExtTreeMap.mem_iff_isSome_getElem?]
    exact ExtTreeMap.mem_keys.mp hkey
  have hstreams : ∀ key : StreamKey, ((store.restored origin config).streams[key]?).map
      (fun stream => (stream.watermark, stream.dedup)) =
      (store.streams[key]?).map fun stream => (stream.watermark, stream.dedup) := by
    intro key
    have hnodup : store.streamKeys.Nodup := keys_nodup _
    unfold restored
    rw [seedAll_streams store hnodup hkeys, h.replayed_streams, hreplayed.2]
    cases hfind : store.streams[key]? with
    | none => simp
    | some stream =>
      have hmem : key ∈ store.streamKeys := by
        rw [streamKeys, ExtTreeMap.mem_keys, ExtTreeMap.mem_iff_isSome_getElem?, hfind]
        rfl
      obtain ⟨newest, hkept⟩ := h.kept key stream hfind
      obtain ⟨hmark, hsub⟩ := h.replayed_window origin config hfind hkept
      obtain ⟨hwatermark, hdedup⟩ := seed_window hmark hsub (fun sequence hsequence => (hkept.range sequence hsequence).2)
        (h.streams key stream hfind).window
      have hwindow : store.dedupWindow key = stream.dedup.toList := by
        unfold dedupWindow
        rw [hfind]
      rw [if_pos hmem, hwindow, Option.map_some, Option.map_some, Option.map_some, Option.map_some, hwatermark, hdedup,
        hkept.mark]
  refine ⟨hlimits.trans hreplayed.2, fun link => ?_, hstreams⟩
  have hset : keySet (store.restored origin config).streams = keySet store.streams := by
    ext key
    have hsame := congrArg Option.isSome (hstreams key)
    rw [Option.isSome_map, Option.isSome_map] at hsame
    rw [mem_keySet, mem_keySet, ExtTreeMap.mem_iff_isSome_getElem?, ExtTreeMap.mem_iff_isSome_getElem?, hsame]
  rw [show (store.restored origin config).streamsOf link = _ from hcounted.counted link, linkStreams_length,
    h.counted, linkStreams_length]
  exact congrArg (fun keys : Finset StreamKey => (keys.filter fun key => key.link = link).card) hset

/-- **Fencing decisions survive a snapshot.** After any appends, the store restored from the retained records and the
windows has the watermark and the window of every stream, and decides about every observation as the store does. -/
theorem fencing_survives_snapshot (limits : FabricLimits) (hwindow : limits.maxDedupWindow < 2 ^ 64)
    (calls : List AppendCall) (store : EvidenceStore) (hstore : store = appendMachine.final (empty limits) calls)
    (origin : EvidenceOrigin) (config : EvidenceRecord → CounterContinuityConfig) :
    (∀ key, ((store.restored origin config).find key).map (fun stream => (stream.watermark, stream.dedup)) =
        (store.find key).map fun stream => (stream.watermark, stream.dedup)) ∧
      ∀ call : AppendCall, verdictOf (appendMachine.step (store.restored origin config) call).1 =
        verdictOf (appendMachine.step store call).1 := by
  obtain rfl := hstore
  have hfence := (settled_of_run hwindow calls).1.restored_sameFence origin config
  exact ⟨hfence.streams, hfence.verdict⟩

theorem late_reading_still_fenced :
    smallWindow.maxDedupWindow < 2 ^ 64 ∧
      verdictOf (appendMachine.step ((appendMachine.final (empty smallWindow) [gaugeCall 1, gaugeCall 3]).restored
        .recovered fun _ => .defaults) (gaugeCall 1)).1 = .refused .fenced := by
  refine ⟨by decide, ?_⟩
  rw [(fencing_survives_snapshot smallWindow (by decide) [gaugeCall 1, gaugeCall 3] _ rfl .recovered
    fun _ => .defaults).2]
  decide +kernel

end EvidenceStore

end Lqf
