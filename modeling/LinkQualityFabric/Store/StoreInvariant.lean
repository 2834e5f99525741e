import LinkQualityFabric.Store.ReplayFence

/-! What every reachable evidence store keeps: bounded rings, windows and history, exact counts of the streams
of each link, and, as long as no window is seeded, one newest record in each stream.

The window of a stream is bounded because its pruning leaves only numbers of one range behind, and the counts
because a stream is counted when it is created and dropped with its link. -/
namespace Lqf
open Foundations
open Std (ExtTreeMap)
set_option autoImplicit false

/-! ## Calls -/

inductive StoreCall where
  | append (call : AppendCall)
  | seedDedupWindow (key : StreamKey) (entries : List (UInt64 × UInt64))
  | dropLink (link : LinkIdentity)
  | clear

inductive StoreAnswer where
  | appended (answer : Outcome IngestOutcome)
  | seeded (answer : Outcome Unit)
  | dropped (streams : ℕ)
  | cleared

namespace EvidenceStore

def linkStreams (store : EvidenceStore) (link : LinkIdentity) : List StreamKey :=
  store.streamKeys.filter fun key => key.link = link

def storeMachine : Machine EvidenceStore StoreCall StoreAnswer where
  step store
    | .append call =>
      let result := store.append call.observation call.received call.ordinal call.origin call.config
      (.appended result.1, result.2)
    | .seedDedupWindow key entries =>
      let result := store.seedDedupWindow key entries
      (.seeded result.1, result.2)
    | .dropLink link => (.dropped (store.linkStreams link).length, store.dropLink link)
    | .clear => (.cleared, store.clear)

end EvidenceStore

/-! ## One stream -/

namespace StreamState

structure Bounded (limits : FabricLimits) (stream : StreamState) : Prop where
  recent : stream.recent.length ≤ limits.maxStreamHistory
  window : stream.dedup.size ≤ limits.maxDedupWindow
  marked : ∀ sequence, sequence ∈ stream.dedup → ∃ watermark, stream.watermark = some watermark ∧ sequence ≤ watermark

variable {limits : FabricLimits} {stream : StreamState}

theorem bounded_fresh (limits : FabricLimits) : Bounded limits StreamState.fresh where
  recent := Nat.zero_le _
  window := by
    show (∅ : ExtTreeMap UInt64 UInt64).size ≤ _
    rw [ExtTreeMap.size_empty]
    exact Nat.zero_le _
  marked := fun sequence hmem => absurd hmem ExtTreeMap.not_mem_empty

variable {dedup : ExtTreeMap UInt64 UInt64} {window : ℕ} {newest : EvidenceRecord} {accepted : List EvidenceRecord}
  (entries : List (UInt64 × UInt64))

theorem size_le_of_range {watermark : ℕ}
    (h : ∀ sequence : UInt64, sequence ∈ dedup → watermark < sequence.toNat + window ∧ sequence.toNat ≤ watermark) :
    dedup.size ≤ window := by
  have hsub : (keySet dedup).image UInt64.toNat ⊆ Finset.Ico (watermark + 1 - window) (watermark + 1) := by
    intro number hnumber
    obtain ⟨sequence, hmem, rfl⟩ := Finset.mem_image.mp hnumber
    obtain ⟨hlow, hhigh⟩ := h sequence (mem_keySet.mp hmem)
    rw [Finset.mem_Ico]
    omega
  have hcard := Finset.card_le_card hsub
  rw [Finset.card_image_of_injective _ (fun a b hab => UInt64.toNat_inj.mp hab), card_keySet, Nat.card_Ico] at hcard
  omega

section
variable (h : Bounded limits stream) (hwindow : limits.maxDedupWindow < 2 ^ 64) (record : EvidenceRecord)
  (config : CounterContinuityConfig)
include h hwindow record config

theorem Bounded.accept (reordered : Bool) : Bounded limits (stream.accept limits record config reordered).2 := by
  obtain ⟨watermark, hmark, hself, hold, hmem⟩ := mem_admitSequence stream hwindow
    record.observation.sequence (evidenceDigest record.observation)
  have hrange : ∀ other, other ∈ (stream.accept limits record config reordered).2.dedup →
      watermark.toNat < other.toNat + limits.maxDedupWindow ∧ other.toNat ≤ watermark.toNat := by
    intro other hother
    rw [accept_dedup, hmem] at hother
    refine ⟨hother.2, ?_⟩
    rcases hother.1 with rfl | hknown
    · exact hself
    · obtain ⟨old, hprevious, hle⟩ := h.marked other hknown
      exact (UInt64.le_iff_toNat_le.mp hle).trans (hold old hprevious)
  refine ⟨?_, size_le_of_range hrange, ?_⟩
  · rw [accept_recent, List.length_drop]
    omega
  · intro other hother
    refine ⟨watermark, ?_, UInt64.le_iff_toNat_le.mpr (hrange other hother).2⟩
    rw [accept_watermark, hmark]

theorem Bounded.append : Bounded limits (stream.append limits record config).2 := by
  rcases append_cases limits stream record config with ⟨reordered, -, hresult⟩ | ⟨-, stats, hresult⟩
  · rw [hresult]
    exact h.accept hwindow record config reordered
  · rw [hresult]
    exact ⟨h.recent, h.window, h.marked⟩

end

theorem seedEntry_marked {entry : UInt64 × UInt64} (h : ∀ sequence, sequence ∈ stream.dedup →
      ∃ watermark, stream.watermark = some watermark ∧ sequence ≤ watermark) :
    ∀ sequence, sequence ∈ (EvidenceStore.seedEntry stream entry).dedup →
      ∃ watermark, (EvidenceStore.seedEntry stream entry).watermark = some watermark ∧ sequence ≤ watermark := by
  intro sequence hmem
  unfold EvidenceStore.seedEntry at hmem ⊢
  rw [ExtTreeMap.mem_insert, Std.compare_eq_iff_eq] at hmem
  cases hmark : stream.watermark with
  | none =>
    rcases hmem with rfl | hknown
    · exact ⟨entry.1, rfl, UInt64.le_refl _⟩
    · obtain ⟨watermark, hsome, -⟩ := h sequence hknown
      rw [hmark] at hsome
      cases hsome
  | some old =>
    have hle : sequence ≤ old ∨ sequence = entry.1 := by
      rcases hmem with rfl | hknown
      · exact .inr rfl
      · obtain ⟨watermark, hsome, hle⟩ := h sequence hknown
        obtain rfl := Option.some.inj (hmark.symm.trans hsome)
        exact .inl hle
    by_cases hraise : old < entry.1
    · refine ⟨entry.1, by simp [hraise], ?_⟩
      rcases hle with hle | rfl
      · exact UInt64.le_trans hle (UInt64.le_of_lt hraise)
      · exact UInt64.le_refl _
    · refine ⟨old, by simp [hraise], ?_⟩
      rcases hle with hle | rfl
      · exact hle
      · exact UInt64.not_lt.mp hraise

theorem seedEntries_marked (h : ∀ sequence, sequence ∈ stream.dedup →
      ∃ watermark, stream.watermark = some watermark ∧ sequence ≤ watermark) :
    ∀ sequence, sequence ∈ (entries.foldl EvidenceStore.seedEntry stream).dedup →
      ∃ watermark, (entries.foldl EvidenceStore.seedEntry stream).watermark = some watermark ∧
        sequence ≤ watermark := by
  induction entries generalizing stream with
  | nil => exact h
  | cons entry rest ih => exact ih (seedEntry_marked h)

theorem seedEntries_records (stream : StreamState) :
    (entries.foldl EvidenceStore.seedEntry stream).recent = stream.recent ∧
      (entries.foldl EvidenceStore.seedEntry stream).latestFed = stream.latestFed := by
  induction entries generalizing stream with
  | nil => exact ⟨rfl, rfl⟩
  | cons entry rest ih => exact ih _

theorem foldl_erase (dropped : List UInt64) (hnodup : dropped.Nodup) (hsub : ∀ key ∈ dropped, key ∈ dedup) :
    (dropped.foldl ExtTreeMap.erase dedup).size = dedup.size - dropped.length ∧
      ∀ key, key ∈ dropped.foldl ExtTreeMap.erase dedup → key ∈ dedup := by
  induction dropped generalizing dedup with
  | nil => exact ⟨rfl, fun key hkey => hkey⟩
  | cons first rest ih =>
    rw [List.nodup_cons] at hnodup
    have hfirst : first ∈ dedup := hsub first List.mem_cons_self
    have hrest : ∀ key ∈ rest, key ∈ dedup.erase first := by
      intro key hkey
      rw [ExtTreeMap.mem_erase, ne_eq, Std.compare_eq_iff_eq]
      refine ⟨?_, hsub key (List.mem_cons_of_mem _ hkey)⟩
      rintro rfl
      exact hnodup.1 hkey
    obtain ⟨hsize, hmem⟩ := ih hnodup.2 hrest
    refine ⟨?_, fun key hkey => (ExtTreeMap.mem_erase.mp (hmem key hkey)).2⟩
    rw [List.foldl_cons, hsize, ExtTreeMap.size_erase, if_pos (ExtTreeMap.contains_iff_mem.mpr hfirst),
      List.length_cons]
    omega

theorem Bounded.seed (h : Bounded limits stream) (entries : List (UInt64 × UInt64)) :
    Bounded limits (stream.seed limits.maxDedupWindow entries) := by
  have hmarked := seedEntries_marked entries h.marked
  obtain ⟨hsize, hmem⟩ := foldl_erase
    ((entries.foldl EvidenceStore.seedEntry stream).dedup.keys.take
      ((entries.foldl EvidenceStore.seedEntry stream).dedup.size - limits.maxDedupWindow))
    ((keys_nodup _).sublist (List.take_sublist _ _))
    (fun key hkey => ExtTreeMap.mem_keys.mp (List.mem_of_mem_take hkey))
  refine ⟨?_, ?_, fun sequence hsequence => hmarked sequence (hmem sequence hsequence)⟩
  · show (entries.foldl EvidenceStore.seedEntry stream).recent.length ≤ _
    rw [(seedEntries_records entries stream).1]
    exact h.recent
  · show (List.foldl ExtTreeMap.erase _ _).size ≤ _
    rw [hsize, List.length_take, ExtTreeMap.length_keys]
    omega

/-! ## The newest record -/

structure Topped (stream : StreamState) (newest : EvidenceRecord) : Prop where
  latest : stream.latestFed = some newest
  fed : stream.fedSequence = some newest.observation.sequence
  mark : stream.watermark = some newest.observation.sequence

def newer (newest record : EvidenceRecord) : EvidenceRecord :=
  if newest.observation.sequence < record.observation.sequence then record else newest

theorem le_newer (newest record : EvidenceRecord) :
    newest.observation.sequence ≤ (newer newest record).observation.sequence ∧
      record.observation.sequence ≤ (newer newest record).observation.sequence := by
  unfold newer
  split
  · next hlt => exact ⟨UInt64.le_of_lt hlt, UInt64.le_refl _⟩
  · next hlt => exact ⟨UInt64.le_refl _, UInt64.not_lt.mp hlt⟩

theorem Topped.accept (h : Topped stream newest) (hwindow : limits.maxDedupWindow < 2 ^ 64) (record : EvidenceRecord)
    (config : CounterContinuityConfig) (reordered : Bool) :
    Topped (stream.accept limits record config reordered).2 (newer newest record) ∧
      ∀ other, other ∈ (stream.accept limits record config reordered).2.dedup ↔
        (other = record.observation.sequence ∨ other ∈ stream.dedup) ∧
          (newer newest record).observation.sequence.toNat < other.toNat + limits.maxDedupWindow := by
  obtain ⟨hlatest, hfed⟩ := accept_fed limits stream record config reordered
  obtain ⟨watermark, hmark, -, -, hmem⟩ := mem_admitSequence stream hwindow record.observation.sequence
    (evidenceDigest record.observation)
  have hfeeds : stream.feeds record.observation.sequence =
      decide (newest.observation.sequence < record.observation.sequence) := by
    unfold feeds
    rw [h.fed]
  have hwatermark : watermark = (newer newest record).observation.sequence := by
    unfold admitSequence at hmark
    rw [h.mark] at hmark
    refine (Option.some.inj hmark).symm.trans ?_
    exact (apply_ite (fun other : EvidenceRecord => other.observation.sequence) _ record newest).symm
  subst hwatermark
  rw [hfeeds, h.latest] at hlatest
  rw [hfeeds, h.fed] at hfed
  refine ⟨⟨hlatest.trans ?_, hfed.trans ?_, (accept_watermark ..).trans hmark⟩, fun other => by rw [accept_dedup, hmem]⟩
  · unfold newer
    by_cases hlt : newest.observation.sequence < record.observation.sequence <;> simp [hlt]
  · unfold newer
    by_cases hlt : newest.observation.sequence < record.observation.sequence <;> simp [hlt]

theorem topped_first (hwindow : limits.maxDedupWindow < 2 ^ 64) (record : EvidenceRecord)
    (config : CounterContinuityConfig) : StreamState.fresh.append limits record config =
        (.ok (StreamState.fresh.accept limits record config false).1,
          (StreamState.fresh.accept limits record config false).2) ∧
      Topped (StreamState.fresh.accept limits record config false).2 record ∧
      ∀ other, other ∈ (StreamState.fresh.accept limits record config false).2.dedup ↔
        other = record.observation.sequence ∧
          record.observation.sequence.toNat < other.toNat + limits.maxDedupWindow := by
  obtain ⟨hlatest, hfed⟩ := accept_fed limits .fresh record config false
  obtain ⟨watermark, hmark, -, -, hmem⟩ := mem_admitSequence .fresh hwindow record.observation.sequence
    (evidenceDigest record.observation)
  obtain rfl : record.observation.sequence = watermark := Option.some.inj hmark
  refine ⟨rfl, ⟨hlatest, hfed, accept_watermark ..⟩, fun other => ?_⟩
  have hnone : other ∉ StreamState.fresh.dedup := ExtTreeMap.not_mem_empty
  rw [accept_dedup, hmem, or_iff_left hnone]

/-- Of the records a stream has accepted, the one fed last has the largest number, and no other has that number. -/
structure Newest (accepted : List EvidenceRecord) (stream : StreamState) (record : EvidenceRecord) : Prop
    extends Topped stream record where
  mem : record ∈ accepted
  remembered : record.observation.sequence ∈ stream.dedup
  largest : ∀ other ∈ accepted, other.observation.sequence ≤ record.observation.sequence
  only : ∀ other ∈ accepted, other.observation.sequence = record.observation.sequence → other = record

theorem newest_first (hwindow : limits.maxDedupWindow < 2 ^ 64) (hpositive : 1 ≤ limits.maxDedupWindow)
    (record : EvidenceRecord) (config : CounterContinuityConfig) :
    Newest [record] (StreamState.fresh.accept limits record config false).2 record := by
  obtain ⟨-, htop, hmem⟩ := topped_first hwindow record config
  refine ⟨htop, List.mem_singleton_self _, (hmem _).mpr ⟨rfl, by omega⟩, ?_, ?_⟩
  · intro other hother
    rw [List.mem_singleton.mp hother]
    exact UInt64.le_refl _
  · intro other hother _
    exact List.mem_singleton.mp hother

theorem Newest.verdict_ne (h : Newest accepted stream newest) {sequence digest : UInt64} {reordered : Bool}
    (hverdict : stream.verdict window sequence digest = .accept reordered) :
    sequence ≠ newest.observation.sequence := by
  rintro rfl
  obtain ⟨known, hknown⟩ := Option.isSome_iff_exists.mp (ExtTreeMap.isSome_getElem?_iff_mem.mpr h.remembered)
  simp only [verdict, h.mark, hknown] at hverdict
  split at hverdict <;> cases hverdict

theorem Newest.accept (h : Newest accepted stream newest) (hwindow : limits.maxDedupWindow < 2 ^ 64)
    (hpositive : 1 ≤ limits.maxDedupWindow) {record : EvidenceRecord} {reordered : Bool}
    (hverdict : stream.verdict limits.maxDedupWindow record.observation.sequence
      (evidenceDigest record.observation) = .accept reordered) (config : CounterContinuityConfig) :
    Newest (accepted ++ [record]) (stream.accept limits record config reordered).2 (newer newest record) := by
  obtain ⟨htop, hmem⟩ := h.toTopped.accept hwindow record config reordered
  obtain ⟨hleft, hright⟩ := le_newer newest record
  have hne := h.verdict_ne hverdict
  refine ⟨htop, ?_, (hmem _).mpr ⟨?_, by omega⟩, ?_, ?_⟩
  · unfold newer
    split
    · exact List.mem_append_right _ (List.mem_singleton_self _)
    · exact List.mem_append_left _ h.mem
  · unfold newer
    split
    · exact .inl rfl
    · exact .inr h.remembered
  · intro other hother
    rcases List.mem_append.mp hother with hearlier | hlast
    · exact UInt64.le_trans (h.largest other hearlier) hleft
    · rw [List.mem_singleton.mp hlast]
      exact hright
  · intro other hother hsame
    unfold newer at hsame ⊢
    rcases List.mem_append.mp hother with hearlier | hlast
    · split at hsame
      · next hlt =>
        have hle := h.largest other hearlier
        rw [hsame] at hle
        exact absurd hlt (UInt64.not_lt.mpr hle)
      · next hlt =>
        rw [if_neg hlt]
        exact h.only other hearlier hsame
    · obtain rfl := List.mem_singleton.mp hlast
      split at hsame
      · next hlt => rw [if_pos hlt]
      · exact absurd hsame hne

end StreamState

/-! ## The streams of a link -/

namespace EvidenceStore
variable {store after : EvidenceStore}

theorem linkStreams_length (store : EvidenceStore) (link : LinkIdentity) :
    (store.linkStreams link).length = ((keySet store.streams).filter fun key => key.link = link).card :=
  length_filter_keys store.streams fun key => key.link = link

/-- The count of a link is the number of its streams, within the bound. -/
structure Counted (store : EvidenceStore) : Prop where
  counted : ∀ link, store.streamsOf link = (store.linkStreams link).length
  room : ∀ link, store.streamsOf link ≤ store.limits.maxStreamsPerLink

variable {stream : StreamState} {past : List (StoreCall × StoreAnswer)} (limits : FabricLimits)

theorem counted_empty : Counted (empty limits) := by
  have hnone : ∀ link, (empty limits).streamsOf link = 0 := fun link => ExtTreeMap.getD_empty
  refine ⟨fun link => ?_, fun link => ?_⟩
  · have hkeys : (empty limits).streamKeys = [] := by
      rw [streamKeys, ← List.length_eq_zero_iff, ExtTreeMap.length_keys]
      exact ExtTreeMap.size_empty
    rw [hnone, linkStreams, hkeys]
    rfl
  · rw [hnone]
    exact Nat.zero_le _

theorem Counted.congr (h : Counted store) (hstreams : after.streams = store.streams)
    (hcounts : ∀ link, after.streamsOf link = store.streamsOf link) (hlimits : after.limits = store.limits) :
    Counted after := by
  refine ⟨fun link => ?_, fun link => ?_⟩
  · rw [hcounts, h.counted, linkStreams, linkStreams, streamKeys, streamKeys, hstreams]
  · rw [hcounts, hlimits]
    exact h.room link

variable {key : StreamKey}

theorem Counted.put (h : Counted store) (hadmits : store.Admits key)
    (hstreams : after.streams = store.streams.insert key stream)
    (hcounts : ∀ link, after.streamsOf link = (store.openStream key).2.streamsOf link)
    (hlimits : after.limits = store.limits) : Counted after := by
  have hset : keySet after.streams = insert key (keySet store.streams) := by rw [hstreams, keySet_insert]
  by_cases hmem : key ∈ store.streams
  · have hsame : ∀ link, after.streamsOf link = store.streamsOf link := by
      intro link
      rw [hcounts, openStream_streamsOf, if_neg (fun hnew => hnew.1 hmem)]
    refine ⟨fun link => ?_, fun link => ?_⟩
    · rw [hsame, h.counted, linkStreams_length, linkStreams_length, hset,
        Finset.insert_eq_of_mem (mem_keySet.mpr hmem)]
    · rw [hsame, hlimits]
      exact h.room link
  · have hroom : store.streamsOf key.link < store.limits.maxStreamsPerLink := hadmits.resolve_left hmem
    have hnew : ∀ link, after.streamsOf link =
        if key.link = link then store.streamsOf link + 1 else store.streamsOf link := by
      intro link
      rw [hcounts, openStream_streamsOf]
      simp only [hmem, not_false_eq_true, hroom, true_and]
    refine ⟨fun link => ?_, fun link => ?_⟩
    · rw [hnew, linkStreams_length, hset, Finset.filter_insert]
      split
      · rw [Finset.card_insert_of_notMem (fun hfound => hmem (mem_keySet.mp (Finset.mem_filter.mp hfound).1)),
          ← linkStreams_length, h.counted]
      · rw [← linkStreams_length, h.counted]
    · rw [hnew, hlimits]
      split
      · next hlink => exact hlink ▸ hroom
      · exact h.room link

theorem Counted.append (h : Counted store) (observation : Observation) (received : ReceiveStamp) (ordinal : UInt64)
    (origin : EvidenceOrigin) (config : CounterContinuityConfig) :
    Counted (store.append observation received ordinal origin config).2 := by
  by_cases hadmits : store.Admits observation.streamKey
  · exact h.put hadmits (store.append_of_admits observation received ordinal origin config hadmits).2
      (fun link => append_streamsOf ..) (append_limits ..)
  · refine h.congr ?_ (fun link => ?_) (append_limits ..)
    · rw [store.append_of_not_admits observation received ordinal origin config hadmits, admitStream_streams]
    · rw [append_streamsOf, openStream_streamsOf, if_neg (fun hnew => hadmits (.inr hnew.2.1))]

theorem seedDedupWindow_of_admits (hadmits : store.Admits key) (entries : List (UInt64 × UInt64)) :
    store.seedDedupWindow key entries = (.ok (), (store.openStream key).2.putStream key
      ((store.streamAt key).seed store.limits.maxDedupWindow entries)) := by
  unfold seedDedupWindow
  simp only [openStream_of_admits hadmits]

theorem seedDedupWindow_of_not_admits (hadmits : ¬ store.Admits key) (entries : List (UInt64 × UInt64)) :
    (store.seedDedupWindow key entries).2 = (store.openStream key).2 := by
  unfold seedDedupWindow
  simp only [openStream_of_not_admits hadmits]

theorem Counted.refuse (h : Counted store) (hadmits : ¬ store.Admits key) : Counted (store.openStream key).2 := by
  refine h.congr (openStream_streams ..) (fun link => ?_) (openStream_limits ..)
  rw [openStream_streamsOf, if_neg (fun hnew => hadmits (.inr hnew.2.1))]

theorem putStream_open_streams (store : EvidenceStore) (key : StreamKey) (stream : StreamState) :
    ((store.openStream key).2.putStream key stream).streams = store.streams.insert key stream := by
  rw [putStream, openStream_streams]

theorem Counted.seed (h : Counted store) (key : StreamKey) (entries : List (UInt64 × UInt64)) :
    Counted (store.seedDedupWindow key entries).2 := by
  by_cases hadmits : store.Admits key
  · rw [seedDedupWindow_of_admits hadmits]
    exact h.put hadmits (putStream_open_streams ..) (fun link => rfl) (openStream_limits ..)
  · rw [seedDedupWindow_of_not_admits hadmits]
    exact h.refuse hadmits

theorem Counted.drop (h : Counted store) (link : LinkIdentity) : Counted (store.dropLink link) := by
  have hcounts : ∀ other, (store.dropLink link).streamsOf other = if other = link then 0 else store.streamsOf other := by
    intro other
    simpa only [List.mem_singleton, List.foldl_cons, List.foldl_nil] using dropLinks_streamsOf [link] store other
  have hmem : ∀ key, key ∈ (store.dropLink link).streams ↔ key ∈ store.streams ∧ key.link ≠ link := by
    intro key
    rw [← ExtTreeMap.isSome_getElem?_iff_mem, dropLink_getElem?, ← ExtTreeMap.isSome_getElem?_iff_mem]
    split <;> simp_all
  refine ⟨fun other => ?_, fun other => ?_⟩
  · rw [hcounts, linkStreams_length]
    split
    · next hlink =>
      symm
      rw [Finset.card_eq_zero, Finset.filter_eq_empty_iff]
      intro key hkey
      rw [mem_keySet, hmem] at hkey
      rw [hlink]
      exact hkey.2
    · next hlink =>
      rw [h.counted, linkStreams_length]
      refine congrArg Finset.card (Finset.ext fun key => ?_)
      simp only [Finset.mem_filter, mem_keySet, hmem]
      constructor
      · rintro ⟨hkey, rfl⟩
        exact ⟨⟨hkey, hlink⟩, rfl⟩
      · rintro ⟨⟨hkey, -⟩, hother⟩
        exact ⟨hkey, hother⟩
  · rw [hcounts]
    split
    · exact Nat.zero_le _
    · exact h.room other

/-! ## The representation invariant -/

structure Represented (store : EvidenceStore) : Prop extends Counted store where
  streams : ∀ (key : StreamKey) (stream : StreamState), store.streams[key]? = some stream →
    stream.Bounded store.limits
  history : store.history.length ≤ store.limits.maxGlobalHistory

def Each (Q : StreamKey → StreamState → Prop) (store : EvidenceStore) : Prop :=
  ∀ (key : StreamKey) (stream : StreamState), store.streams[key]? = some stream → Q key stream

variable {Q : StreamKey → StreamState → Prop}

theorem each_empty : (empty limits).Each Q := by
  intro key stream hstream
  simp [empty] at hstream

theorem Each.streamAt (h : store.Each Q) (key : StreamKey) : store.streamAt key = .fresh ∨ Q key (store.streamAt key) := by
  unfold EvidenceStore.streamAt
  cases hfind : store.streams[key]? with
  | none => exact .inl rfl
  | some stream => exact .inr (h key stream hfind)

theorem Each.insert (h : store.Each Q) (hstreams : after.streams = store.streams.insert key stream)
    (hstream : Q key stream) : after.Each Q := by
  intro other found hfound
  rw [hstreams, ExtTreeMap.getElem?_insert] at hfound
  split at hfound
  · next hkey =>
    obtain rfl := Std.compare_eq_iff_eq.mp hkey
    exact Option.some.inj hfound ▸ hstream
  · exact h other found hfound

theorem Each.append (h : store.Each Q) (observation : Observation) (received : ReceiveStamp) (ordinal : UInt64)
    (origin : EvidenceOrigin) (config : CounterContinuityConfig)
    (hstream : ∀ stream, stream = .fresh ∨ Q observation.streamKey stream →
      Q observation.streamKey (stream.append store.limits ⟨observation, received, ordinal, origin⟩ config).2) :
    (store.append observation received ordinal origin config).2.Each Q := by
  by_cases hadmits : store.Admits observation.streamKey
  · exact h.insert (store.append_of_admits observation received ordinal origin config hadmits).2
      (hstream _ (h.streamAt _))
  · rw [store.append_of_not_admits observation received ordinal origin config hadmits]
    intro key stream hfound
    rw [admitStream_streams] at hfound
    exact h key stream hfound

theorem Each.seed (h : store.Each Q) (key : StreamKey) (entries : List (UInt64 × UInt64))
    (hstream : ∀ stream, stream = .fresh ∨ Q key stream → Q key (stream.seed store.limits.maxDedupWindow entries)) :
    (store.seedDedupWindow key entries).2.Each Q := by
  by_cases hadmits : store.Admits key
  · rw [seedDedupWindow_of_admits hadmits]
    exact h.insert (putStream_open_streams ..) (hstream _ (h.streamAt key))
  · rw [seedDedupWindow_of_not_admits hadmits]
    intro other stream hfound
    rw [openStream_streams] at hfound
    exact h other stream hfound

theorem Each.drops (h : store.Each Q) (dropped : List LinkIdentity) : (dropped.foldl dropLink store).Each Q := by
  intro key stream hfound
  rw [dropLinks_getElem?] at hfound
  split at hfound
  · cases hfound
  · exact h key stream hfound

theorem represented_empty : Represented (empty limits) where
  toCounted := counted_empty limits
  streams := each_empty limits
  history := Nat.zero_le _

theorem bounded_of_fresh_or {limits : FabricLimits} (h : stream = .fresh ∨ stream.Bounded limits) :
    stream.Bounded limits := by
  rcases h with rfl | h
  · exact StreamState.bounded_fresh limits
  · exact h

theorem bounded_streamAt (h : Represented store) (key : StreamKey) : (store.streamAt key).Bounded store.limits :=
  bounded_of_fresh_or (Each.streamAt h.streams key)

theorem openStream_history (store : EvidenceStore) (key : StreamKey) :
    (store.openStream key).2.history = store.history := by
  unfold openStream admitStream
  split
  · rfl
  · split <;> rfl

theorem append_history_length (store : EvidenceStore) (observation : Observation) (received : ReceiveStamp)
    (ordinal : UInt64) (origin : EvidenceOrigin) (config : CounterContinuityConfig)
    (h : store.history.length ≤ store.limits.maxGlobalHistory) :
    (store.append observation received ordinal origin config).2.history.length ≤ store.limits.maxGlobalHistory := by
  have hopened := openStream_history store observation.streamKey
  have hpushed : ∀ other : EvidenceStore, other.limits = store.limits → ∀ record,
      (other.pushHistory record).history.length ≤ store.limits.maxGlobalHistory := by
    intro other hlimits record
    rw [pushHistory, List.length_drop, hlimits]
    omega
  unfold append
  dsimp only
  split
  · rw [hopened]
    exact h
  · split
    · split
      · exact hpushed _ (openStream_limits ..) _
      · exact (congrArg List.length hopened).trans_le h
    · exact (congrArg List.length hopened).trans_le h

theorem Represented.append (h : Represented store) (hwindow : store.limits.maxDedupWindow < 2 ^ 64)
    (observation : Observation) (received : ReceiveStamp) (ordinal : UInt64) (origin : EvidenceOrigin)
    (config : CounterContinuityConfig) :
    Represented (store.append observation received ordinal origin config).2 where
  toCounted := h.toCounted.append observation received ordinal origin config
  history := by
    rw [append_limits]
    exact append_history_length store observation received ordinal origin config h.history
  streams := by
    rw [append_limits]
    exact Each.append h.streams observation received ordinal origin config fun stream hstream =>
      (bounded_of_fresh_or hstream).append hwindow _ config

theorem Represented.seed (h : Represented store) (key : StreamKey) (entries : List (UInt64 × UInt64)) :
    Represented (store.seedDedupWindow key entries).2 where
  toCounted := h.toCounted.seed key entries
  history := by
    rw [seedDedupWindow_limits]
    by_cases hadmits : store.Admits key
    · rw [seedDedupWindow_of_admits hadmits]
      exact (congrArg List.length (openStream_history store key)).trans_le h.history
    · rw [seedDedupWindow_of_not_admits hadmits, openStream_history]
      exact h.history
  streams := by
    rw [seedDedupWindow_limits]
    exact Each.seed h.streams key entries fun stream hstream => (bounded_of_fresh_or hstream).seed entries

theorem Represented.drop (h : Represented store) (link : LinkIdentity) : Represented (store.dropLink link) where
  toCounted := h.toCounted.drop link
  history := (List.length_filter_le _ _).trans h.history
  streams := Each.drops h.streams [link]

theorem Represented.step (h : Represented store) (hwindow : store.limits.maxDedupWindow < 2 ^ 64) (call : StoreCall) :
    Represented (storeMachine.step store call).2 ∧ (storeMachine.step store call).2.limits = store.limits := by
  cases call with
  | append call => exact ⟨h.append hwindow .., append_limits ..⟩
  | seedDedupWindow key entries => exact ⟨h.seed key entries, seedDedupWindow_limits ..⟩
  | dropLink link => exact ⟨h.drop link, rfl⟩
  | clear => exact ⟨represented_empty store.limits, rfl⟩

theorem represented_final {limits : FabricLimits} (hwindow : limits.maxDedupWindow < 2 ^ 64) (calls : List StoreCall) :
    (storeMachine.final (empty limits) calls).Represented ∧
      (storeMachine.final (empty limits) calls).limits = limits := by
  have hmeets : storeMachine.Meets (fun _ _ => True) (empty limits) calls :=
    storeMachine.meets_of_forall (empty limits) fun _ _ => trivial
  refine storeMachine.invariant (P := fun store => store.Represented ∧ store.limits = limits) ?_
    ⟨represented_empty limits, rfl⟩ hmeets
  rintro store call ⟨hstore, rfl⟩ -
  exact hstore.step hwindow call

theorem Represented.appends (h : Represented store) (hwindow : store.limits.maxDedupWindow < 2 ^ 64)
    (calls : List AppendCall) :
    Represented (appendMachine.final store calls) ∧ (appendMachine.final store calls).limits = store.limits := by
  induction calls generalizing store with
  | nil => exact ⟨h, rfl⟩
  | cons call rest ih =>
    have hlimits : (appendMachine.step store call).2.limits = store.limits := append_limits ..
    exact (ih (h.append hwindow ..) (hlimits.symm ▸ hwindow)).imp_right (·.trans hlimits)

/-! ## Accepted since the stream was created -/

/-- One call, as the stream of `key` sees it. -/
def sinceCreated (key : StreamKey) (accepted : List EvidenceRecord) : StoreCall × StoreAnswer → List EvidenceRecord
  | (.append call, .appended answer) =>
    if call.observation.streamKey = key ∧ isAccepted answer then accepted ++ [call.record] else accepted
  | (.dropLink link, _) => if key.link = link then [] else accepted
  | (.clear, _) => []
  | _ => accepted

/-- The records a run has accepted on the stream of `key` since it was created, in order. -/
def acceptedSince (key : StreamKey) (trace : List (StoreCall × StoreAnswer)) : List EvidenceRecord :=
  trace.foldl (sinceCreated key) []

def Tracked (past : List (StoreCall × StoreAnswer)) (store : EvidenceStore) : Prop :=
  ∀ key, match store.streams[key]? with
    | none => acceptedSince key past = []
    | some stream => ∃ record, stream.Newest (acceptedSince key past) record

def StoreCall.Unseeded : StoreCall → Prop
  | .seedDedupWindow _ _ => False
  | _ => True

theorem acceptedSince_snoc (key : StreamKey) (past : List (StoreCall × StoreAnswer)) (entry : StoreCall × StoreAnswer) :
    acceptedSince key (past ++ [entry]) = sinceCreated key (acceptedSince key past) entry := by
  simp [acceptedSince]

theorem newest_append {limits : FabricLimits} {accepted : List EvidenceRecord}
    (h : accepted = [] ∧ stream = .fresh ∨ ∃ newest, stream.Newest accepted newest)
    (hwindow : limits.maxDedupWindow < 2 ^ 64) (hpositive : 1 ≤ limits.maxDedupWindow) (record : EvidenceRecord)
    (config : CounterContinuityConfig) : ∃ latest, (stream.append limits record config).2.Newest
      (if isAccepted (stream.append limits record config).1 then accepted ++ [record] else accepted) latest := by
  rcases h with ⟨rfl, rfl⟩ | ⟨newest, hnewest⟩
  · exact ⟨record, StreamState.newest_first hwindow hpositive record config⟩
  rcases StreamState.append_cases limits stream record config with ⟨reordered, hverdict, hresult⟩ |
    ⟨hrefused, stats, hresult⟩
  · have haccepted : isAccepted (stream.append limits record config).1 = true := by
      rw [hresult]
      rfl
    rw [if_pos haccepted, hresult]
    exact ⟨_, hnewest.accept hwindow hpositive hverdict config⟩
  · rw [hrefused, if_neg Bool.false_ne_true, hresult]
    exact ⟨newest, ⟨hnewest.latest, hnewest.fed, hnewest.mark⟩, hnewest.mem, hnewest.remembered, hnewest.largest,
      hnewest.only⟩

theorem Tracked.append (h : Tracked past store) (hwindow : store.limits.maxDedupWindow < 2 ^ 64)
    (hpositive : 1 ≤ store.limits.maxDedupWindow) (call : AppendCall) :
    Tracked (past ++ [(.append call, (storeMachine.step store (.append call)).1)])
      (storeMachine.step store (.append call)).2 := by
  intro key
  rw [acceptedSince_snoc]
  show match (appendMachine.step store call).2.streams[key]? with
    | none => (if call.observation.streamKey = key ∧ isAccepted (appendMachine.step store call).1 then
        acceptedSince key past ++ [call.record] else acceptedSince key past) = []
    | some stream => ∃ record, stream.Newest (if call.observation.streamKey = key ∧
        isAccepted (appendMachine.step store call).1 then acceptedSince key past ++ [call.record]
        else acceptedSince key past) record
  rcases step_cases store call key with ⟨rfl, hanswer, hafter⟩ | ⟨hrefused, hsame⟩
  · rw [hafter, hanswer]
    simp only [true_and]
    refine newest_append ?_ hwindow hpositive call.record call.config
    have hstream := h call.observation.streamKey
    unfold streamAt
    cases hfind : store.streams[call.observation.streamKey]? with
    | none =>
      rw [hfind] at hstream
      exact .inl ⟨hstream, rfl⟩
    | some stream =>
      rw [hfind] at hstream
      exact .inr hstream
  · rw [hsame, if_neg fun hboth => Bool.false_ne_true ((hrefused hboth.1).symm.trans hboth.2)]
    exact h key

theorem Tracked.drop (h : Tracked past store) (link : LinkIdentity) :
    Tracked (past ++ [(.dropLink link, (storeMachine.step store (.dropLink link)).1)]) (store.dropLink link) := by
  intro key
  rw [acceptedSince_snoc, dropLink_getElem?]
  show match if key.link = link then none else store.streams[key]? with
    | none => (if key.link = link then [] else acceptedSince key past) = []
    | some stream => ∃ record, stream.Newest (if key.link = link then [] else acceptedSince key past) record
  by_cases hlink : key.link = link
  · simp only [hlink, if_true]
  · simp only [hlink, if_false]
    exact h key

theorem Tracked.clear (store : EvidenceStore) : Tracked (past ++ [(.clear, .cleared)]) store.clear := by
  intro key
  rw [acceptedSince_snoc]
  simp [EvidenceStore.clear, sinceCreated]

/-- **The representation of every reachable evidence store.** Rings, windows, history and stream counts are within
their bounds and exact; without seeded windows the record fed last of each stream is its newest. -/
theorem store_represented (limits : FabricLimits) (hlimits : limits.validate = .ok ()) (calls : List StoreCall) :
    (storeMachine.final (empty limits) calls).Represented ∧
      ((∀ call ∈ calls, StoreCall.Unseeded call) → ∀ (key : StreamKey) (stream : StreamState),
        (storeMachine.final (empty limits) calls).streams[key]? = some stream →
        ∃ record, stream.Newest (acceptedSince key (storeMachine.trace (empty limits) calls)) record) := by
  have hvalid := FabricLimits.valid_of_validate hlimits
  have hwindow : limits.maxDedupWindow < 2 ^ 64 := by
    have hle := hvalid.dedupWindowLe
    omega
  constructor
  · exact (represented_final hwindow calls).1
  · intro hunseeded key stream hstream
    have hmeets := storeMachine.meets_of_forall (empty limits) hunseeded
    have hrun := storeMachine.history_invariant (P := fun past store => Tracked past store ∧ store.limits = limits) ?_
      ⟨fun key => by simp [empty, acceptedSince], rfl⟩ hmeets
    · have hkey := hrun.1 key
      rw [hstream] at hkey
      exact hkey
    · rintro past store call ⟨hstore, rfl⟩ hcall
      cases call with
      | append call => exact ⟨hstore.append hwindow hvalid.dedupWindow call, append_limits ..⟩
      | seedDedupWindow key entries => exact absurd hcall id
      | dropLink link => exact ⟨hstore.drop link, rfl⟩
      | clear => exact ⟨Tracked.clear store, rfl⟩

theorem two_records_represented :
    smallWindow.validate = .ok () ∧
      (storeMachine.final (empty smallWindow) [.append (gaugeCall 1), .append (gaugeCall 2)]).Represented ∧
      ∀ (key : StreamKey) (stream : StreamState),
        (storeMachine.final (empty smallWindow) [.append (gaugeCall 1), .append (gaugeCall 2)]).streams[key]? =
          some stream →
        ∃ record, stream.Newest (acceptedSince key
          (storeMachine.trace (empty smallWindow) [.append (gaugeCall 1), .append (gaugeCall 2)])) record := by
  have hvalid : smallWindow.validate = .ok () := by decide +kernel
  obtain ⟨hrepresented, hnewest⟩ := store_represented smallWindow hvalid [.append (gaugeCall 1), .append (gaugeCall 2)]
  exact ⟨hvalid, hrepresented, hnewest (by simp [StoreCall.Unseeded])⟩

end EvidenceStore

end Lqf
