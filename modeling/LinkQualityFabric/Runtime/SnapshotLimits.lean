import LinkQualityFabric.Persist.BundleRoundTrip
import LinkQualityFabric.Runtime.LiveReplay
import LinkQualityFabric.Runtime.StateInvariant
import LinkQualityFabric.Transport.Bijection

/-! Compaction and the limits of the codec: `build_snapshot` and `codec_limits_for`.

Everything a call accepts was encoded under the limits of the codec when it was accepted. Three things a snapshot
collects were not: the initial policy, the replay windows, which grow entry by entry, and the sentinels a declaration
may hold, which are encoded and not decoded. Where these are within the limits a snapshot is refused for its size
only. -/
namespace Lqf
open Foundations
open Std (ExtTreeMap LawfulEqCmp)
set_option autoImplicit false

def Storable {α : Type} (codec : Codec α) (limits : CodecLimits) (value : α) : Prop :=
  (∃ body, codec.encodeBody limits value = .ok body) ∧ codec.Valid value

namespace Codec
variable {α : Type} [Inhabited α] {codec : Codec α} {limits : CodecLimits} {value : α} {body : Bytes}

theorem Exact.decodeBody_fits (exact : Exact codec) (h : codec.decodeBody limits body = .ok value) :
    codec.Fits limits value ∧ codec.Valid value := by
  unfold decodeBody at h
  split at h
  · cases h
  next found _ rest hget =>
  have hstatus : (codec.get (.start limits body)).2.status = none := by rw [hget]
  obtain ⟨decoded, _, _, hreader, -, hreads, hvalid, _, hfits, _⟩ := exact.writes _ hstatus
  have hread := Exact.get_eq hreader hreads
  rw [hget] at hread
  have hfound : found = some decoded := congrArg Prod.fst hread
  split at h
  · cases h
  · rw [hfound] at h
    obtain rfl : decoded = value := Except.ok.inj h
    exact ⟨hfits, hvalid⟩

theorem Exact.storable_of_decodeBody (exact : Exact codec) (h : codec.decodeBody limits body = .ok value)
    (hsize : codec.size value ≤ limits.maxTotalBytes) : Storable codec limits value := by
  obtain ⟨hfits, hvalid⟩ := exact.decodeBody_fits h
  exact ⟨codec.encodeBody_of_fits hfits hsize, hvalid⟩

end Codec

/-! ## The bodies of a snapshot -/

namespace Fabric

variable {α : Type} {codec : Codec α} {limits : CodecLimits} {kind : JournalRecordKind} {values : List α}
  {bodies : List (JournalRecordKind × Bytes)}

theorem encodeEach_eq_ok : encodeEach codec limits kind values = .ok bodies ↔
      List.Forall₂ (fun value entry => entry.1 = kind ∧ codec.encodeBody limits value = .ok entry.2) values bodies := by
  unfold encodeEach
  induction values generalizing bodies with
  | nil =>
    rw [List.mapM_nil, List.forall₂_nil_left_iff]
    exact ⟨fun h => (Except.ok.inj h).symm, fun h => congrArg Except.ok h.symm⟩
  | cons value rest ih =>
    rw [List.mapM_cons, List.forall₂_cons_left_iff, Outcome.bind_eq_ok]
    constructor
    · rintro ⟨entry, hentry, hrest⟩
      obtain ⟨body, hbody, hpair⟩ := Outcome.bind_eq_ok.mp hentry
      obtain ⟨later, hlater, hall⟩ := Outcome.bind_eq_ok.mp hrest
      obtain rfl := Except.ok.inj hpair
      exact ⟨_, later, ⟨rfl, hbody⟩, ih.mp hlater, (Except.ok.inj hall).symm⟩
    · rintro ⟨⟨entryKind, body⟩, later, ⟨rfl, hbody⟩, hlater, rfl⟩
      refine ⟨_, Outcome.bind_eq_ok.mpr ⟨body, hbody, rfl⟩, ?_⟩
      exact Outcome.bind_eq_ok.mpr ⟨later, ih.mpr hlater, rfl⟩

theorem encodeEach_of_storable (kind : JournalRecordKind)
    (h : ∀ value ∈ values, ∃ body, codec.encodeBody limits value = .ok body) :
    ∃ bodies, encodeEach codec limits kind values = .ok bodies := by
  induction values with
  | nil => exact ⟨[], rfl⟩
  | cons value rest ih =>
    obtain ⟨body, hbody⟩ := h value List.mem_cons_self
    obtain ⟨bodies, hbodies⟩ := ih fun other hother => h other (List.mem_cons_of_mem _ hother)
    exact ⟨(kind, body) :: bodies, encodeEach_eq_ok.mpr (.cons ⟨rfl, hbody⟩ (encodeEach_eq_ok.mp hbodies))⟩

theorem exists_of_forall₂ {β : Type} {R : α → β → Prop} {others : List β} (h : List.Forall₂ R values others)
    {other : β} (hother : other ∈ others) : ∃ value ∈ values, R value other := by
  induction h with
  | nil => cases hother
  | cons hfirst _ ih =>
    rcases List.mem_cons.mp hother with rfl | hlater
    · exact ⟨_, List.mem_cons_self, hfirst⟩
    · obtain ⟨value, hvalue, hrelated⟩ := ih hlater
      exact ⟨value, List.mem_cons_of_mem _ hvalue, hrelated⟩

def decodesBody (limits : CodecLimits) : JournalRecordKind × Bytes → Bool
  | (.capability, body) => (Codec.capabilityDeclaration.decodeBody limits body).isOk
  | (.policy, body) => (Codec.policyGenerationRecord.decodeBody limits body).isOk
  | (.linkObserved, body) => (Codec.linkObservedBody.decodeBody limits body).isOk
  | (.linkGenerationAdvanced, body) => (Codec.generationBody.decodeBody limits body).isOk
  | (.evidence, body) => (Codec.evidenceRecord.decodeBody limits body).isOk
  | (.dedupWindow, body) => (Codec.dedupBody.decodeBody limits body).isOk
  | (.snapshot, _) => false
  | (.count, _) => false

theorem isOk_decodeBody [Inhabited α] (hitems : limits.maxItems < 2 ^ 32) {value : α} {body : Bytes}
    (h : codec.encodeBody limits value = .ok body) (hvalid : codec.Valid value) :
    (codec.decodeBody limits body).isOk = true := by
  rw [codec.decodeBody_encodeBody h hvalid hitems]
  rfl

theorem decodesBody_of_encodeEach [Inhabited α] (hitems : limits.maxItems < 2 ^ 32)
    (hencode : encodeEach codec limits kind values = .ok bodies)
    (hkind : ∀ body, decodesBody limits (kind, body) = (codec.decodeBody limits body).isOk)
    (hvalid : ∀ value ∈ values, codec.Valid value) : ∀ entry ∈ bodies, decodesBody limits entry = true := by
  rintro ⟨entryKind, body⟩ hentry
  obtain ⟨value, hvalue, rfl, hbody⟩ := exists_of_forall₂ (encodeEach_eq_ok.mp hencode) hentry
  rw [hkind]
  exact isOk_decodeBody hitems hbody (hvalid value hvalue)

/-- What a snapshot collects is encoded and decoded, and its size alone decides. -/
def SizeDecides (fabric : Fabric) : Prop :=
  ∃ bodies, fabric.snapshotBodies = .ok bodies ∧ (∀ entry ∈ bodies, decodesBody fabric.codecLimits entry = true) ∧
    ((∃ snapshot, fabric.buildSnapshot = .ok snapshot) ↔
      bundleSize (numberBodies bodies) ≤ fabric.config.journal.maxRecordBytes)

end Fabric

/-! ## Registries that can be encoded -/

def KeyStorable (limits : CodecLimits) (key : StreamKey) : Prop :=
  Codec.streamKey.Fits limits key ∧ Codec.streamKey.Valid key

/-- A change that brings in what can be encoded and decoded. -/
def Change.Storable (limits : CodecLimits) : Change → Prop
  | .declare declaration => Lqf.Storable Codec.capabilityDeclaration limits declaration
  | .publish record => Lqf.Storable Codec.policyGenerationRecord limits record
  | .restore record => Lqf.Storable Codec.policyGenerationRecord limits (PolicyRegistry.rehash record)
  | .append _ _ _ origin => origin ≠ .count
  | .seed key _ => KeyStorable limits key
  | _ => True

namespace PolicyRegistry

theorem mem_of_snapshotRecords {registry : PolicyRegistry} {record : PolicyGenerationRecord}
    (h : record ∈ registry.snapshotRecords) : record ∈ registry.generations := by
  obtain ⟨stamp, -, hget⟩ := List.mem_filterMap.mp h
  exact List.mem_of_find?_eq_some hget

end PolicyRegistry

namespace FabricState

structure Encodable (limits : CodecLimits) (state : FabricState) : Prop where
  policies : ∀ record ∈ state.policies.generations, Storable Codec.policyGenerationRecord limits record
  declarations : ∀ (key : ScopedKey) (declaration : CapabilityDeclaration),
    state.capabilities.entries[key]? = some declaration → Storable Codec.capabilityDeclaration limits declaration
  keys : state.evidence.Each fun key _ => KeyStorable limits key

variable {config : FabricConfig} {catalog : MetricCatalog} {before after : FabricState} {limits : CodecLimits}

theorem Encodable.changed (h : Encodable limits before) (hwide : Codec.Wide limits) {change : Change}
    (hstorable : change.Storable limits) (hchanged : Changed config catalog change before after) :
    Encodable limits after := by
  cases hchanged with
  | declare hdeclare =>
    obtain ⟨-, rfl⟩ := CapabilityRegistry.declare_eq_ok hdeclare
    refine ⟨h.policies, ?_, h.keys⟩
    intro key found hfound
    simp only [CapabilityRegistry.store, ExtTreeMap.getElem?_insert] at hfound
    split at hfound
    · obtain rfl := Option.some.inj hfound
      exact hstorable
    · exact h.declarations key found hfound
  | publish hpublish =>
    refine ⟨fun record hrecord => ?_, h.declarations, h.keys⟩
    rcases PolicyRegistry.publish_mem hpublish record hrecord with hearlier | ⟨rfl, -⟩
    · exact h.policies record hearlier
    · exact hstorable
  | restore hrestore =>
    refine ⟨fun record hrecord => ?_, h.declarations, h.keys⟩
    rcases PolicyRegistry.recoverRecord_mem hrestore record hrecord with hearlier | ⟨rfl, -⟩
    · exact h.policies record hearlier
    · exact hstorable
  | observe | advance => exact ⟨h.policies, h.declarations, h.keys⟩
  | drain => exact ⟨h.policies, h.declarations, h.keys.drops _⟩
  | append hvalid received ordinal origin =>
    exact ⟨h.policies, h.declarations, h.keys.append _ received ordinal origin _ fun _ _ =>
      ⟨Codec.streamKey_fits hwide hvalid, Codec.streamKey_valid hvalid⟩⟩
  | seed _ key entries => exact ⟨h.policies, h.declarations, h.keys.seed key entries fun _ _ => hstorable⟩

end FabricState

namespace Fabric
open FabricState

section Snapshot
variable {fabric : Fabric}

/-- The replay window of every stream is within the item limit of the codec. -/
def WindowsFit (fabric : Fabric) : Prop :=
  ∀ key ∈ fabric.evidence.streamKeys, (fabric.evidence.dedupWindow key).length ≤ fabric.codecLimits.maxItems

instance (fabric : Fabric) : Decidable fabric.WindowsFit := by
  unfold WindowsFit
  infer_instance

theorem Sound.stringBytes (h : fabric.Sound) : fabric.codecLimits.maxStringBytes ≤ 4096 :=
  max_le h.limits.stringBytes.2 le_rfl

theorem Sound.recordBytes (h : fabric.Sound) :
    64 ≤ fabric.config.journal.maxRecordBytes ∧ fabric.config.journal.maxRecordBytes ≤ 2 ^ 26 := by
  have hchecked := h.checked
  rw [checkConfig, Outcome.check_bind_eq_ok] at hchecked
  obtain ⟨hlow, hhigh, -⟩ := JournalConfig.bounds_of_validate hchecked.2
  exact ⟨hlow, hhigh⟩

theorem storable_declarations (h : Encodable fabric.codecLimits fabric.toFabricState) :
    ∀ declaration ∈ fabric.capabilities.declarations,
      Storable Codec.capabilityDeclaration fabric.codecLimits declaration := by
  intro declaration hmem
  obtain ⟨key, hkey⟩ := mem_values.mp hmem
  exact h.declarations key declaration hkey

theorem storable_links (h : Vetted fabric.config fabric.catalog fabric.toFabricState) :
    ∀ body ∈ linkBodies fabric.links, Storable Codec.linkObservedBody fabric.codecLimits body := by
  intro body hbody
  obtain ⟨state, hstate, rfl⟩ := List.mem_map.mp hbody
  obtain ⟨key, hkey⟩ := mem_values.mp hstate
  obtain ⟨hidentity, hvalid⟩ := h.links key state hkey
  rw [← hidentity] at hvalid
  exact ⟨Codec.linkObservedBody_encodes fabric.codecLimits_wide _ hvalid, Codec.linkObservedBody_valid _⟩

variable {store : EvidenceStore} {key : StreamKey}

theorem mem_retainedRecords {record : EvidenceRecord} (h : record ∈ store.retainedRecords) :
    ∃ (key : StreamKey) (stream : StreamState), store.streams[key]? = some stream ∧ record ∈ stream.held := by
  have hentry := (EvidenceStore.perm_retainedRecords store).mem_iff.mp h
  obtain ⟨⟨key, stream⟩, hstream, hrecord⟩ := List.mem_flatMap.mp hentry
  exact ⟨key, stream, ExtTreeMap.mem_toList_iff_getElem?_eq_some.mp hstream, EvidenceStore.mem_of_retainedOf hrecord⟩

theorem storable_evidence (hsound : fabric.Sound) (h : Vetted fabric.config fabric.catalog fabric.toFabricState) :
    ∀ record ∈ fabric.evidence.retainedRecords, Storable Codec.evidenceRecord fabric.codecLimits record := by
  intro record hrecord
  obtain ⟨key, stream, hstream, hheld⟩ := mem_retainedRecords hrecord
  have hadmitted := h.records key stream hstream record hheld
  exact ⟨Codec.evidenceRecord_encodes fabric.codecLimits_wide record hsound.originBytes hadmitted.valid,
    Codec.evidenceRecord_valid hadmitted.valid hadmitted.origin⟩

theorem mem_streamKeys (h : key ∈ store.streamKeys) : ∃ stream, store.streams[key]? = some stream := by
  have hmem : key ∈ store.streams := ExtTreeMap.mem_keys.mp h
  rw [← ExtTreeMap.isSome_getElem?_iff_mem] at hmem
  exact Option.isSome_iff_exists.mp hmem

theorem encodes_window_iff (hsound : fabric.Sound) (h : Encodable fabric.codecLimits fabric.toFabricState)
    (hkey : key ∈ fabric.evidence.streamKeys) :
    (∃ body, Codec.dedupBody.encodeBody fabric.codecLimits ⟨key, fabric.evidence.dedupWindow key⟩ = .ok body) ↔
      (fabric.evidence.dedupWindow key).length ≤ fabric.codecLimits.maxItems := by
  obtain ⟨stream, hstream⟩ := mem_streamKeys hkey
  exact Codec.dedupBody_encodes_iff fabric.codecLimits_wide hsound.stringBytes (h.keys key stream hstream).1

section
variable (hsound : fabric.Sound) (h : Encodable fabric.codecLimits fabric.toFabricState)
  (hvetted : Vetted fabric.config fabric.catalog fabric.toFabricState)
include hsound h hvetted

theorem snapshotBodies_ok_iff : (∃ bodies, fabric.snapshotBodies = .ok bodies) ↔ fabric.WindowsFit := by
  constructor
  · rintro ⟨bodies, hbodies⟩ key hkey
    simp only [snapshotBodies, Outcome.bind_eq_ok] at hbodies
    obtain ⟨-, -, -, -, -, -, -, -, windows, hwindows, -⟩ := hbodies
    have hmem : (⟨key, fabric.evidence.dedupWindow key⟩ : DedupBody) ∈ dedupBodies fabric.evidence :=
      List.mem_map.mpr ⟨key, hkey, rfl⟩
    refine (encodes_window_iff hsound h hkey).mp ?_
    obtain ⟨entry, -, -, hencode⟩ := exists_of_forall₂ (encodeEach_eq_ok.mp hwindows).flip hmem
    exact ⟨entry.2, hencode⟩
  · intro hwindows
    obtain ⟨policies, hpolicies⟩ := encodeEach_of_storable .policy fun record hrecord =>
      (h.policies record (PolicyRegistry.mem_of_snapshotRecords hrecord)).1
    obtain ⟨capabilities, hcapabilities⟩ := encodeEach_of_storable .capability fun declaration hmem =>
      (storable_declarations h declaration hmem).1
    obtain ⟨links, hlinks⟩ := encodeEach_of_storable .linkObserved fun body hbody =>
      (storable_links hvetted body hbody).1
    obtain ⟨evidence, hevidence⟩ := encodeEach_of_storable .evidence fun record hrecord =>
      (storable_evidence hsound hvetted record hrecord).1
    obtain ⟨windows, hdedup⟩ : ∃ windows, encodeEach Codec.dedupBody fabric.codecLimits .dedupWindow
        (dedupBodies fabric.evidence) = .ok windows := by
      refine encodeEach_of_storable .dedupWindow fun body hbody => ?_
      obtain ⟨key, hkey, rfl⟩ := List.mem_map.mp hbody
      exact (encodes_window_iff hsound h hkey).mpr (hwindows key hkey)
    refine ⟨policies ++ capabilities ++ links ++ evidence ++ windows, ?_⟩
    simp only [snapshotBodies, hpolicies, hcapabilities, hlinks, hevidence, hdedup, Outcome.ok_bind]
    rfl

theorem decodes_snapshotBodies {bodies : List (JournalRecordKind × Bytes)}
    (hbodies : fabric.snapshotBodies = .ok bodies) : ∀ entry ∈ bodies, decodesBody fabric.codecLimits entry = true := by
  simp only [snapshotBodies, Outcome.bind_eq_ok] at hbodies
  obtain ⟨policies, hpolicies, capabilities, hcapabilities, links, hlinks, evidence, hevidence, windows, hwindows,
    hall⟩ := hbodies
  obtain rfl := Except.ok.inj hall
  have hitems := hsound.maxItems
  intro entry hentry
  simp only [List.mem_append] at hentry
  rcases hentry with (((hentry | hentry) | hentry) | hentry) | hentry
  · exact decodesBody_of_encodeEach hitems hpolicies (fun _ => by rw [decodesBody])
      (fun record hrecord => (h.policies record (PolicyRegistry.mem_of_snapshotRecords hrecord)).2) entry hentry
  · exact decodesBody_of_encodeEach hitems hcapabilities (fun _ => by rw [decodesBody])
      (fun declaration hmem => (storable_declarations h declaration hmem).2) entry hentry
  · exact decodesBody_of_encodeEach hitems hlinks (fun _ => by rw [decodesBody])
      (fun body hbody => (storable_links hvetted body hbody).2) entry hentry
  · exact decodesBody_of_encodeEach hitems hevidence (fun _ => by rw [decodesBody])
      (fun record hrecord => (storable_evidence hsound hvetted record hrecord).2) entry hentry
  · refine decodesBody_of_encodeEach hitems hwindows (fun _ => by rw [decodesBody]) (fun body hbody => ?_) entry hentry
    obtain ⟨key, hkey, rfl⟩ := List.mem_map.mp hbody
    obtain ⟨stream, hstream⟩ := mem_streamKeys hkey
    exact Codec.dedupBody_valid (h.keys key stream hstream).2

theorem sizeDecides_of_encodable : fabric.SizeDecides ↔ fabric.WindowsFit := by
  rw [← snapshotBodies_ok_iff hsound h hvetted]
  constructor
  · rintro ⟨bodies, hbodies, -⟩
    exact ⟨bodies, hbodies⟩
  · rintro ⟨bodies, hbodies⟩
    refine ⟨bodies, hbodies, decodes_snapshotBodies hsound h hvetted hbodies, ?_⟩
    obtain ⟨hlow, hhigh⟩ := hsound.recordBytes
    have hbundle : fabric.buildSnapshot =
        encodeRecordBundle (numberBodies bodies) fabric.config.journal.maxRecordBytes := by
      rw [buildSnapshot, hbodies]
      rfl
    rw [hbundle]
    exact encodeRecordBundle_ok_iff _ (by omega) (by omega)

end

end Snapshot

end Fabric

/-! ## Accepted runs -/

theorem contentHash_length (document : PolicyDocument) : (contentHash document).length = 64 := by
  unfold contentHash
  exact Sha256.hexDigest_length _

namespace Codec

theorem policyGenerationRecord_fits {limits : CodecLimits} (hwide : Wide limits) {document : PolicyDocument}
    (h : policyDocument.Fits limits document) (publishedAt : Timestamp) (generation : UInt64) (id : Text)
    (hid : text.Fits limits id) :
    policyGenerationRecord.Fits limits ⟨⟨id, generation, contentHash document⟩, publishedAt, document⟩ := by
  have hhash := contentHash_length document
  exact ⟨⟨hid, trivial, text_fits hwide (hhash.le.trans (by decide))⟩, ⟨trivial, trivial⟩, h⟩

end Codec

/-- What is declared and restored takes no more bytes than a body may have. -/
def Change.Short (limits : CodecLimits) : Change → Prop
  | .declare declaration => Codec.capabilityDeclaration.size declaration ≤ limits.maxTotalBytes
  | .restore record => Codec.policyGenerationRecord.size (PolicyRegistry.rehash record) ≤ limits.maxTotalBytes
  | _ => True

namespace Fabric
open FabricState

def FabricCall.Unmarked : FabricCall → Prop
  | .declareCapability declaration => declaration.transport ≠ .count ∧ declaration.evidenceClass ≠ .count
  | _ => True

/-- The states of a fabric whose opening and calls were accepted and meet a condition. -/
inductive AcceptedRun (opens : FabricConfig → Int64 → InitializeIo → Disk → Prop) (admits : FabricCall → Prop) :
    Fabric → Prop
  | opened (config : FabricConfig) (derived : UInt64) (publishedAt : Int64) (io : InitializeIo) (disk : Disk)
      (hopens : opens config publishedAt io disk)
      (h : ((new config derived publishedAt).initializeFabric io disk).1 = .ok ()) :
      AcceptedRun opens admits ((new config derived publishedAt).initializeFabric io disk).2
  | called {fabric : Fabric} (call : FabricCall) (io : CallIo) (h : AcceptedRun opens admits fabric)
      (hadmits : admits call) (haccepted : (fabric.respond (call, io)).1.isOk = true) :
      AcceptedRun opens admits (fabric.respond (call, io)).2
  | raced {fabric : Fabric} (call : FabricCall) (io : CallIo) (h : AcceptedRun opens admits fabric)
      (hadmits : admits call) (haccepted : (fabric.respondLocked (call, io)).1.isOk = true) :
      AcceptedRun opens admits (fabric.respondLocked (call, io)).2
  | wrote {fabric : Fabric} (steps : List WriterStep) (h : AcceptedRun opens admits fabric) :
      AcceptedRun opens admits (fabric.letWriterRun steps)
  | flushed {fabric : Fabric} (io : BackgroundJournal.FlushIo) (h : AcceptedRun opens admits fabric) :
      AcceptedRun opens admits (fabric.flush io).2
  | compacted {fabric : Fabric} (io : BackgroundJournal.CompactIo) (h : AcceptedRun opens admits fabric) :
      AcceptedRun opens admits (fabric.compact io).2
  | closed {fabric : Fabric} (h : AcceptedRun opens admits fabric) : AcceptedRun opens admits fabric.detachJournal.2

/-- The initial policy is within the limits of the codec, and so are the lengths of what the journal restores. -/
def OpensWithin (config : FabricConfig) (publishedAt : Int64) (io : InitializeIo) (disk : Disk) : Prop :=
  Codec.policyDocument.Fits (codecLimitsFor config.limits) config.firstPolicy ∧
    Codec.text.Fits (codecLimitsFor config.limits) config.firstPolicy.id ∧
    Codec.policyGenerationRecord.size (generationRecord config.firstPolicy ⟨publishedAt, true⟩ 1) ≤
      (codecLimitsFor config.limits).maxTotalBytes ∧
    PermitsJournal (Change.Short (codecLimitsFor config.limits)) config (.withBuiltinDescriptors 256) io disk

section Accepted
variable {opens : FabricConfig → Int64 → InitializeIo → Disk → Prop} {admits : FabricCall → Prop} {fabric : Fabric}

theorem AcceptedRun.reachable (h : AcceptedRun opens admits fabric) : Reachable fabric := by
  induction h with
  | opened config derived publishedAt io disk _ h => exact .opened config derived publishedAt io disk h
  | called call io _ _ _ ih => exact ih.called call io
  | raced call io _ _ _ ih => exact ih.raced call io
  | wrote steps _ ih => exact ih.wrote steps
  | flushed io _ ih => exact ih.flushed io
  | compacted io _ ih => exact ih.compacted io
  | closed _ ih => exact ih.closed

theorem storable_declaration (io : CallIo) {declaration : CapabilityDeclaration}
    (hunmarked : FabricCall.Unmarked (.declareCapability declaration))
    (haccepted : (fabric.declareLocked io declaration).1.isOk = true) {capabilities : CapabilityRegistry}
    (hroom : fabric.queueFull = false)
    (hdeclare : fabric.capabilities.declare fabric.catalog declaration = .ok capabilities) :
    Storable Codec.capabilityDeclaration fabric.codecLimits declaration := by
  obtain ⟨hvalid, -⟩ := CapabilityRegistry.declare_eq_ok hdeclare
  refine ⟨?_, Codec.capabilityDeclaration_valid hvalid hunmarked.1 hunmarked.2⟩
  simp only [declareLocked, hroom, Bool.false_eq_true, if_false, hdeclare, journalDeclaration] at haccepted
  split at haccepted
  · cases haccepted
  · next body hbody => exact ⟨body, hbody⟩

theorem storable_publication (io : CallIo) {document : PolicyDocument}
    (haccepted : (fabric.publishLocked io document).1.isOk = true) {result : PolicyGenerationRecord × PolicyRegistry}
    (hroom : fabric.queueFull = false)
    (hpublish : fabric.policies.publish fabric.policyChecks document ⟨io.now.wallNanos, true⟩ = .ok result) :
    Storable Codec.policyGenerationRecord fabric.codecLimits result.1 := by
  obtain ⟨hvalid, hresult⟩ := PolicyRegistry.publish_eq_ok.mp hpublish
  have hdocument : result.1.document = document := by rw [hresult]; rfl
  rw [← hdocument] at hvalid
  refine ⟨?_, Codec.policyGenerationRecord_valid hvalid⟩
  simp only [publishLocked, hroom, Bool.false_eq_true, if_false, hpublish, journalPolicy] at haccepted
  split at haccepted
  · cases haccepted
  · next body hbody => exact ⟨body, hbody⟩

theorem isOk_of_replyWith {α : Type} {reply : α → FabricReply} {result : Outcome α × Fabric}
    (h : (replyWith reply result).1.isOk = true) : result.1.isOk = true := by
  obtain ⟨answer, after⟩ := result
  cases answer <;> exact h

theorem permits_of_accepted {call : FabricCall} {io : CallIo} (hunmarked : call.Unmarked)
    (haccepted : (fabric.respondLocked (call, io)).1.isOk = true) :
    fabric.Permits (Change.Storable fabric.codecLimits) (call, io) := by
  cases call with
  | declareCapability declaration =>
    intro capabilities hroom hdeclare
    exact storable_declaration io hunmarked (isOk_of_replyWith haccepted) hroom hdeclare
  | publishPolicy document =>
    intro result hroom hpublish
    exact storable_publication io (isOk_of_replyWith haccepted) hroom hpublish
  | registerLink link observedAt => exact fun _ _ => trivial
  | advanceLinkGeneration link reason => exact fun _ _ => trivial
  | ingest observation => exact fun _ => ⟨trivial, fun _ horigin => nomatch horigin⟩

variable {config : FabricConfig} {catalog : MetricCatalog} {io : InitializeIo} {disk : Disk} {publishedAt : Int64}

theorem permitsRecord_storable {record : JournalRecord}
    (hshort : PermitsRecord config catalog (Change.Short (codecLimitsFor config.limits)) record) :
    PermitsRecord config catalog (Change.Storable (codecLimitsFor config.limits)) record := by
  have hwide : Codec.Wide (codecLimitsFor config.limits) := ⟨le_max_right _ _, rfl⟩
  unfold PermitsRecord at hshort ⊢
  split
  · next hkind =>
    simp only [hkind] at hshort
    exact fun declaration hdecode =>
      Codec.Exact.capabilityDeclaration.storable_of_decodeBody hdecode (hshort declaration hdecode)
  · next hkind =>
    simp only [hkind] at hshort
    intro policy hdecode
    obtain ⟨⟨⟨hid, -⟩, -, hdocument⟩, -, htimestamp, hvalid⟩ :=
      Codec.Exact.policyGenerationRecord.decodeBody_fits hdecode
    exact ⟨Codec.encodeBody_of_fits _ (Codec.policyGenerationRecord_fits hwide hdocument _ _ _ hid)
      (hshort policy hdecode), ⟨trivial, trivial, trivial⟩, htimestamp, hvalid⟩
  · exact fun _ _ => trivial
  · exact fun _ _ => trivial
  · exact fun _ _ _ => ⟨(fun horigin => nomatch horigin), trivial⟩
  · intro body hdecode
    obtain ⟨⟨hfits, -⟩, hvalid, -⟩ := Codec.Exact.dedupBody.decodeBody_fits hdecode
    exact ⟨hfits, hvalid⟩
  · trivial
  · trivial

theorem permitsJournal_storable
    (h : PermitsJournal (Change.Short (codecLimitsFor config.limits)) config catalog io disk) :
    PermitsJournal (Change.Storable (codecLimitsFor config.limits)) config catalog io disk := by
  intro reader hreader record hrecord
  obtain ⟨hshort, hnested⟩ := h reader hreader record hrecord
  exact ⟨permitsRecord_storable hshort, fun hkind records hdecode nested hmem =>
    permitsRecord_storable (hnested hkind records hdecode nested hmem)⟩

theorem RunsBy.encodable {allowed : Change → Prop} {before after : Fabric} (hmoves : RunsBy allowed before after)
    (hallowed : ∀ change, allowed change → change.Storable before.codecLimits)
    (h : Encodable before.codecLimits before.toFabricState) : Encodable after.codecLimits after.toFabricState := by
  have hlimits : after.codecLimits = before.codecLimits := by rw [codecLimits, hmoves.config]; rfl
  rw [hlimits]
  exact hmoves.steps.invariant (fun change _ _ hchange hbefore hchanged =>
    hbefore.changed before.codecLimits_wide (hallowed change hchange) hchanged) h

theorem encodable_new (h : OpensWithin config publishedAt io disk) {maxRules maxBands : ℕ}
    (hvalid : validatePolicy config.firstPolicy catalog maxRules maxBands = .ok ()) (derived : UInt64) :
    Encodable (codecLimitsFor config.limits) (new config derived publishedAt).toFabricState where
  policies := by
    intro record hrecord
    obtain rfl := List.mem_singleton.mp hrecord
    obtain ⟨hfits, hid, hsize, -⟩ := h
    have hwide : Codec.Wide (codecLimitsFor config.limits) := ⟨le_max_right _ _, rfl⟩
    exact ⟨Codec.encodeBody_of_fits _ (Codec.policyGenerationRecord_fits hwide hfits _ _ _ hid) hsize,
      Codec.policyGenerationRecord_valid hvalid⟩
  declarations := by
    intro key declaration hfound
    simp [new, CapabilityRegistry.empty] at hfound
  keys := EvidenceStore.each_empty _

theorem encodable_initializeFabric {derived : UInt64} (hopens : OpensWithin config publishedAt io disk)
    (h : ((new config derived publishedAt).initializeFabric io disk).1 = .ok ()) :
    Encodable ((new config derived publishedAt).initializeFabric io disk).2.codecLimits
      ((new config derived publishedAt).initializeFabric io disk).2.toFabricState := by
  unfold initializeFabric at h ⊢
  split
  · next hchecked =>
    rw [hchecked] at h
    cases h
  · next hchecked =>
    rw [hchecked] at h
    have hmoves : RunsBy (Change.Storable (codecLimitsFor config.limits)) _ _ := RunsBy.bringUp trivial
      { new config derived publishedAt with catalog := .withBuiltinDescriptors 256 }
      (permitsJournal_storable hopens.2.2.2)
    refine hmoves.encodable (fun _ hchange => hchange) ?_
    dsimp only at h
    unfold bringUp at h
    split at h
    · cases h
    · next hvalid => exact encodable_new hopens hvalid derived

theorem AcceptedRun.encodable (h : AcceptedRun OpensWithin FabricCall.Unmarked fabric) :
    Encodable fabric.codecLimits fabric.toFabricState := by
  have honly : ∀ {before after : Fabric}, Encodable before.codecLimits before.toFabricState →
      RunsBy (Change.Storable before.codecLimits) before after → Encodable after.codecLimits after.toFabricState :=
    fun hbefore hmoves => hmoves.encodable (fun _ hchange => hchange) hbefore
  induction h with
  | opened config derived publishedAt io disk hopens h => exact encodable_initializeFabric hopens h
  | @called before call io _ hadmits haccepted ih =>
    rw [respond_eq] at haccepted ⊢
    split at haccepted
    · cases haccepted
    · have hrun := honly ih (.of_only (before.letWriterRun_only io.writer))
      exact honly hrun (RunsBy.respondLocked trivial (permits_of_accepted hadmits haccepted))
  | raced call io _ hadmits haccepted ih =>
    exact honly ih (RunsBy.respondLocked trivial (permits_of_accepted hadmits haccepted))
  | wrote steps _ ih => exact honly ih (.of_only (letWriterRun_only _ _))
  | flushed io _ ih => exact honly ih (RunsBy.of_only (flush_only _ _))
  | compacted io _ ih => exact honly ih (.of_only (compact_only _ _))
  | closed _ ih => exact honly ih (RunsBy.detachJournal _)

end Accepted

/-- Where the initial policy is within the limits of the codec and no declaration holds a sentinel, compaction is
refused for size only exactly while every replay window is within the item limit. -/
theorem refused_for_size_iff {fabric : Fabric} (h : AcceptedRun OpensWithin FabricCall.Unmarked fabric) :
    fabric.SizeDecides ↔ fabric.WindowsFit :=
  sizeDecides_of_encodable h.reachable.sound h.encodable h.reachable.vetted

/-! ## A window over the item limit -/

def windowConfig : FabricConfig :=
  { narrowConfig with
    limits := { FabricLimits.defaults with
      maxEvidenceBatch := 1
      maxMetricsPerQuery := 1
      maxGlobalHistory := 1
      maxStreamHistory := 1
      maxDedupWindow := 2 } }

def windowFabric : Fabric := ((new windowConfig 1 0).initializeFabric {} oneLinkDisk).2

def oneLinkReader : JournalReader where
  config := windowConfig.journal
  contents := buildFileHeader 1 0 ++ encodeRecordBytes (linkRecord 0 ⟨text "a", 1⟩)
  report := { opened := true, headerValid := true }
  lastGoodOffset := fileHeaderBytes
  expectedOrdinal := none
  reachedEnd := false

theorem windowConfig_opensWithin : OpensWithin windowConfig 0 {} oneLinkDisk := by
  refine ⟨⟨⟨by decide, by decide⟩, ⟨by decide, nofun⟩, ⟨trivial, ⟨by decide, nofun⟩, trivial, trivial⟩,
    ⟨fun _ _ => trivial, trivial⟩, ⟨by decide, nofun⟩, trivial⟩, ⟨by decide, by decide⟩, ?_, ?_⟩
  · change _ + (_ + (4 + (contentHash windowConfig.firstPolicy).length)) + _ ≤ _
    rw [contentHash_length]
    decide
  · intro reader hreader record hrecord
    have hopened : (JournalReader.openReader {} windowConfig.journal oneLinkDisk).1 = .inr oneLinkReader := by
      decide +kernel
    obtain rfl := Sum.inr.inj (hopened.symm.trans hreader)
    have hkinds : ∀ record ∈ oneLinkReader.readAll.1, record.kind = .linkObserved := by decide +kernel
    have hkind := hkinds record hrecord
    constructor
    · simp only [PermitsRecord, hkind]
      exact fun _ _ => trivial
    · intro hsnapshot
      rw [hkind] at hsnapshot
      cases hsnapshot

theorem firstSample_accepted : AcceptedRun OpensWithin FabricCall.Unmarked (windowFabric.respond (sampling 1 10)).2 :=
  .called _ _ (.opened windowConfig 1 0 {} oneLinkDisk windowConfig_opensWithin (by decide +kernel)) trivial
    (by decide +kernel)

theorem firstSample_decided : (windowFabric.respond (sampling 1 10)).2.evidence.history.length = 1 ∧
    (windowFabric.respond (sampling 1 10)).2.SizeDecides :=
  ⟨by decide +kernel, (refused_for_size_iff firstSample_accepted).mpr (by decide +kernel)⟩

def windowRun : List (FabricCall × CallIo) := [sampling 1 10, sampling 2 20]

/-- Two samples of one stream are accepted, and no snapshot can be built. -/
theorem window_over_item_limit :
    AcceptedRun OpensWithin FabricCall.Unmarked (machine.final windowFabric windowRun) ∧
      (∃ status, (machine.final windowFabric windowRun).buildSnapshot = .error status) ∧
      ¬ (machine.final windowFabric windowRun).SizeDecides := by
  have hrun : AcceptedRun OpensWithin FabricCall.Unmarked (machine.final windowFabric windowRun) :=
    firstSample_accepted.called (sampling 2 20).1 (sampling 2 20).2 trivial (by decide +kernel)
  have hover : ¬ (machine.final windowFabric windowRun).WindowsFit := by decide +kernel
  have hbodies : ∀ bodies, (machine.final windowFabric windowRun).snapshotBodies ≠ .ok bodies := fun bodies h =>
    hover ((snapshotBodies_ok_iff hrun.reachable.sound hrun.encodable hrun.reachable.vetted).mp ⟨bodies, h⟩)
  refine ⟨hrun, ?_, fun ⟨bodies, h, _⟩ => hbodies bodies h⟩
  unfold buildSnapshot
  cases hsnapshot : (machine.final windowFabric windowRun).snapshotBodies with
  | error status => exact ⟨status, rfl⟩
  | ok bodies => exact absurd hsnapshot (hbodies bodies)

end Fabric

end Lqf
