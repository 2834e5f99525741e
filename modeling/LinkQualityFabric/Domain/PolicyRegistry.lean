import LinkQualityFabric.Foundations.Sequence
import LinkQualityFabric.Domain.Policy

/-! The registry of policy generations: `PolicyRegistry` of `src/domain/policy.cpp`.

Publishing numbers a document with the next generation and forgets the oldest ones over the retention
bound. Recovery starts from a fresh registry, whose only generation is the initial document, and
restores the retained records one by one; `restore` takes a record only when it is already there or is
the next generation. The two paths meet exactly when retention has dropped at most the initial
document. -/
namespace Lqf
open Foundations
set_option autoImplicit false

structure PolicyStamp where
  id : Text
  generation : UInt64
  contentHash : Text
  deriving DecidableEq, Repr, Inhabited

structure PolicyGenerationRecord where
  stamp : PolicyStamp
  publishedAt : Timestamp
  document : PolicyDocument
  deriving DecidableEq, Repr, Inhabited

/-- A registry always has a current generation and room for one. -/
structure PolicyRegistry where
  generations : List PolicyGenerationRecord
  maxGenerations : ℕ
  nonempty : generations ≠ []
  positive : 0 < maxGenerations
  deriving DecidableEq

/-- What `publish` and `restore` validate a document against. -/
structure PolicyChecks where
  catalog : MetricCatalog
  maxRules : ℕ
  maxBandsPerRule : ℕ

def PolicyChecks.validate (checks : PolicyChecks) (document : PolicyDocument) : Outcome Unit :=
  validatePolicy document checks.catalog checks.maxRules checks.maxBandsPerRule

def generationRecord (document : PolicyDocument) (publishedAt : Timestamp) (generation : UInt64) :
    PolicyGenerationRecord :=
  ⟨⟨document.id, generation, contentHash document⟩, publishedAt, document⟩

/-- The eviction loop: from the front, until the bound is met. -/
def evict (maxGenerations : ℕ) : List PolicyGenerationRecord → List PolicyGenerationRecord
  | [] => []
  | oldest :: rest => if maxGenerations < (oldest :: rest).length then evict maxGenerations rest else oldest :: rest

variable (maxGenerations : ℕ) (records : List PolicyGenerationRecord)

theorem evict_eq_drop : evict maxGenerations records = records.drop (records.length - maxGenerations) := by
  induction records with
  | nil => simp [evict]
  | cons oldest rest ih =>
    rw [evict]
    split
    · next h =>
      have hlen : (oldest :: rest).length - maxGenerations = rest.length - maxGenerations + 1 := by
        rw [List.length_cons] at h ⊢; omega
      rw [ih, hlen, List.drop_succ_cons]
    · next h =>
      have hlen : (oldest :: rest).length - maxGenerations = 0 := by omega
      rw [hlen, List.drop_zero]

theorem evict_of_le {maxGenerations : ℕ} {records : List PolicyGenerationRecord}
    (h : records.length ≤ maxGenerations) : evict maxGenerations records = records := by
  rw [evict_eq_drop, Nat.sub_eq_zero_of_le h, List.drop_zero]

theorem evict_length : (evict maxGenerations records).length = min records.length maxGenerations := by
  rw [evict_eq_drop, List.length_drop]
  omega

namespace PolicyRegistry

def start (initial : PolicyDocument) (publishedAt : Timestamp) (maxGenerations : ℕ) : PolicyRegistry where
  generations := [generationRecord initial publishedAt 1]
  maxGenerations := if maxGenerations = 0 then 1 else maxGenerations
  nonempty := by simp
  positive := by split <;> omega

def current (registry : PolicyRegistry) : PolicyGenerationRecord :=
  registry.generations.getLast registry.nonempty

def get (registry : PolicyRegistry) (generation : UInt64) : Option PolicyGenerationRecord :=
  registry.generations.find? fun record => record.stamp.generation = generation

def history (registry : PolicyRegistry) : List PolicyStamp := registry.generations.map (·.stamp)

/-- `generations_.push_back(record)` and the eviction loop behind it. -/
def push (registry : PolicyRegistry) (record : PolicyGenerationRecord) : PolicyRegistry where
  generations := evict registry.maxGenerations (registry.generations ++ [record])
  maxGenerations := registry.maxGenerations
  nonempty := by
    have hpos := registry.positive
    rw [← List.length_pos_iff, evict_length, List.length_append, List.length_singleton]
    omega
  positive := registry.positive

def publish (checks : PolicyChecks) (registry : PolicyRegistry) (document : PolicyDocument)
    (publishedAt : Timestamp) : Outcome (PolicyGenerationRecord × PolicyRegistry) := do
  checks.validate document
  let record := generationRecord document publishedAt (registry.current.stamp.generation + 1)
  return (record, registry.push record)

@[simp] theorem push_generations (registry : PolicyRegistry) (record : PolicyGenerationRecord) :
    (registry.push record).generations = evict registry.maxGenerations (registry.generations ++ [record]) := rfl

@[simp] theorem push_maxGenerations (registry : PolicyRegistry) (record : PolicyGenerationRecord) :
    (registry.push record).maxGenerations = registry.maxGenerations := rfl

variable {registry : PolicyRegistry} {record : PolicyGenerationRecord} {document : PolicyDocument} {first : UInt64}
  {records : List PolicyGenerationRecord} (restartedAt publishedAt : Timestamp) (maxGenerations : ℕ)

theorem publish_eq_ok {checks : PolicyChecks} {publishedAt : Timestamp}
    {result : PolicyGenerationRecord × PolicyRegistry} : registry.publish checks document publishedAt = .ok result ↔
      checks.validate document = .ok () ∧
        result = (generationRecord document publishedAt (registry.current.stamp.generation + 1),
          registry.push (generationRecord document publishedAt (registry.current.stamp.generation + 1))) := by
  rw [publish, Outcome.check_bind_eq_ok]
  constructor
  · rintro ⟨hvalid, hresult⟩
    exact ⟨hvalid, (Except.ok.inj hresult).symm⟩
  · rintro ⟨hvalid, rfl⟩
    exact ⟨hvalid, rfl⟩

def restore (checks : PolicyChecks) (registry : PolicyRegistry) (record : PolicyGenerationRecord) :
    Outcome PolicyRegistry := do
  checks.validate record.document
  let hash := contentHash record.document
  match registry.get record.stamp.generation with
  | some existing =>
    if existing.stamp.contentHash = hash then fail .duplicate (text "policy generation already restored")
    else fail .idMismatch (text "policy generation number was re-used with different content")
  | none =>
    refuseIf (record.stamp.generation ≠ registry.current.stamp.generation + 1) .corrupt
      (text "recovered policy generation is not the next generation")
    return registry.push { record with stamp := { record.stamp with contentHash := hash } }

def publishAll (checks : PolicyChecks) :
    PolicyRegistry → List (PolicyDocument × Timestamp) → Outcome PolicyRegistry
  | registry, [] => .ok registry
  | registry, (document, publishedAt) :: rest => do
    let published ← registry.publish checks document publishedAt
    publishAll checks published.2 rest

/-- The records a snapshot carries: one for every stamp of the history. -/
def snapshotRecords (registry : PolicyRegistry) : List PolicyGenerationRecord :=
  registry.history.filterMap fun stamp => registry.get stamp.generation

/-- `restore` with a duplicate counted as success, as recovery does. -/
def recoverRecord (checks : PolicyChecks) (registry : PolicyRegistry) (record : PolicyGenerationRecord) :
    Outcome PolicyRegistry :=
  match registry.restore checks record with
  | .ok restored => .ok restored
  | .error status => if status.code = .duplicate then .ok registry else .error status

def recoverAll (checks : PolicyChecks) :
    PolicyRegistry → List PolicyGenerationRecord → Outcome PolicyRegistry
  | registry, [] => .ok registry
  | registry, record :: rest => do
    let recovered ← registry.recoverRecord checks record
    recoverAll checks recovered rest

/-! ## The numbering of generations -/

def numbers (records : List PolicyGenerationRecord) : List UInt64 := records.map (·.stamp.generation)

def NumberedFrom (first : UInt64) (records : List PolicyGenerationRecord) : Prop :=
  numbers records = countFrom first records.length

theorem NumberedFrom.drop (h : NumberedFrom first records) (count : ℕ) (hcount : count ≤ records.length) :
    NumberedFrom (first + UInt64.ofNat count) (records.drop count) := by
  have hlen : records.length = count + (records.length - count) := by omega
  unfold NumberedFrom numbers at h ⊢
  rw [hlen, countFrom_add] at h
  rw [List.map_drop, h, List.length_drop]
  exact List.drop_left' (countFrom_length first count)

theorem NumberedFrom.snoc (h : NumberedFrom first records)
    (hrecord : record.stamp.generation = first + UInt64.ofNat records.length) :
    NumberedFrom first (records ++ [record]) := by
  unfold NumberedFrom numbers at h ⊢
  rw [List.map_append, h, List.length_append, List.length_singleton, countFrom_snoc, List.map_singleton,
    hrecord]

theorem numbers_getLast? (registry : PolicyRegistry) :
    (numbers registry.generations).getLast? = some registry.current.stamp.generation := by
  rw [numbers, List.getLast?_map, List.getLast?_eq_getLast_of_ne_nil registry.nonempty]
  rfl

theorem NumberedFrom.current (h : NumberedFrom first registry.generations) :
    registry.current.stamp.generation + 1 = first + UInt64.ofNat registry.generations.length := by
  obtain ⟨count, hcount⟩ : ∃ count, registry.generations.length = count + 1 :=
    ⟨registry.generations.length - 1, by have := List.length_pos_iff.mpr registry.nonempty; omega⟩
  have hlast := registry.numbers_getLast?
  rw [h, hcount, countFrom_snoc, List.getLast?_concat] at hlast
  rw [← Option.some.inj hlast, hcount, ofNat_add_succ]

theorem NumberedFrom.oldest {rest : List PolicyGenerationRecord} (h : NumberedFrom first (record :: rest)) :
    record.stamp.generation = first := by
  unfold NumberedFrom numbers at h
  rw [List.map_cons, List.length_cons, countFrom_succ] at h
  exact (List.cons.inj h).1

theorem get_eq_none {generation : UInt64} (h : generation ∉ numbers registry.generations) :
    registry.get generation = none := by
  unfold get
  rw [List.find?_eq_none]
  intro record hrecord hgen
  exact h (List.mem_map.mpr ⟨record, hrecord, by simpa using hgen⟩)

theorem get_of_mem (hnodup : (numbers registry.generations).Nodup) (hmem : record ∈ registry.generations) :
    registry.get record.stamp.generation = some record := by
  unfold get
  cases hfind : registry.generations.find? (fun other => other.stamp.generation = record.stamp.generation) with
  | none =>
    rw [List.find?_eq_none] at hfind
    exact absurd (by simp) (hfind record hmem)
  | some found =>
    have hgen : found.stamp.generation = record.stamp.generation := by
      simpa using List.find?_some hfind
    have hfound : found ∈ registry.generations := List.mem_of_find?_eq_some hfind
    rw [List.inj_on_of_nodup_map hnodup hfound hmem hgen]

theorem snapshotRecords_eq (hnodup : (numbers registry.generations).Nodup) :
    registry.snapshotRecords = registry.generations := by
  unfold snapshotRecords history
  rw [List.filterMap_map]
  have h : ∀ record ∈ registry.generations,
      ((fun stamp => registry.get stamp.generation) ∘ fun record : PolicyGenerationRecord => record.stamp) record =
        some record := by
    intro record hrecord
    exact get_of_mem hnodup hrecord
  rw [List.filterMap_congr h, List.filterMap_some]

/-! ## Publication -/

/-- What every registry reached by publications has: consecutive numbers within the bound, hashes of
the documents they stand beside, and documents that passed validation unless they are the initial one
in its own generation. -/
structure Published (checks : PolicyChecks) (initial : PolicyDocument) (registry : PolicyRegistry) : Prop where
  numbered : ∃ dropped, NumberedFrom (1 + UInt64.ofNat dropped) registry.generations ∧
    (0 < dropped → registry.generations.length = registry.maxGenerations)
  bounded : registry.generations.length ≤ registry.maxGenerations
  hashed : ∀ record ∈ registry.generations, record.stamp.contentHash = contentHash record.document
  valid : ∀ record ∈ registry.generations,
    checks.validate record.document = .ok () ∨ (record.stamp.generation = 1 ∧ record.document = initial)

variable {checks : PolicyChecks} {initial : PolicyDocument}

theorem published_start :
    Published checks initial (start initial publishedAt maxGenerations) where
  numbered := ⟨0, rfl, by simp⟩
  bounded := (start initial publishedAt maxGenerations).positive
  hashed := by
    intro record hrecord
    obtain rfl : record = generationRecord initial publishedAt 1 := List.mem_singleton.mp hrecord
    rfl
  valid := by
    intro record hrecord
    obtain rfl : record = generationRecord initial publishedAt 1 := List.mem_singleton.mp hrecord
    exact Or.inr ⟨rfl, rfl⟩

theorem mem_push {other : PolicyGenerationRecord} (h : other ∈ (registry.push record).generations) :
    other ∈ registry.generations ∨ other = record := by
  rw [push_generations, evict_eq_drop] at h
  have hmem := List.mem_of_mem_drop h
  rwa [List.mem_append, List.mem_singleton] at hmem

theorem current_push (registry : PolicyRegistry) (record : PolicyGenerationRecord) :
    (registry.push record).current = record := by
  have hpositive := registry.positive
  have hlast : (registry.push record).generations.getLast? = some record := by
    rw [push_generations, evict_eq_drop, List.getLast?_drop, List.getLast?_concat, if_neg]
    rw [List.length_append, List.length_singleton]
    omega
  rw [List.getLast?_eq_some_getLast (registry.push record).nonempty] at hlast
  exact Option.some.inj hlast

theorem Published.push (h : Published checks initial registry) (hvalid : checks.validate document = .ok ())
    (publishedAt : Timestamp) :
    Published checks initial
      (registry.push (generationRecord document publishedAt (registry.current.stamp.generation + 1))) where
  numbered := by
    obtain ⟨dropped, hnumbered, hfull⟩ := h.numbered
    have hbound := h.bounded
    have hsnoc : NumberedFrom (1 + UInt64.ofNat dropped) (registry.generations ++
        [generationRecord document publishedAt (registry.current.stamp.generation + 1)]) :=
      hnumbered.snoc hnumbered.current
    rw [push_generations, push_maxGenerations, evict_length, List.length_append, List.length_singleton,
      evict_eq_drop]
    have hdrop := hsnoc.drop ((registry.generations ++ [generationRecord document publishedAt
      (registry.current.stamp.generation + 1)]).length - registry.maxGenerations) (Nat.sub_le _ _)
    rw [UInt64.add_assoc, ← UInt64.ofNat_add] at hdrop
    refine ⟨_, hdrop, ?_⟩
    rw [List.length_append, List.length_singleton]
    omega
  bounded := by
    rw [push_generations, push_maxGenerations, evict_length]
    exact Nat.min_le_right _ _
  hashed := by
    intro record hrecord
    rcases mem_push hrecord with hold | rfl
    · exact h.hashed record hold
    · rfl
  valid := by
    intro record hrecord
    rcases mem_push hrecord with hold | rfl
    · exact h.valid record hold
    · exact Or.inl hvalid

theorem Published.publishAll {result : PolicyRegistry} (h : Published checks initial registry)
    {published : List (PolicyDocument × Timestamp)} (hrun : registry.publishAll checks published = .ok result) :
    Published checks initial result ∧ result.maxGenerations = registry.maxGenerations := by
  induction published generalizing registry with
  | nil =>
    obtain rfl := Except.ok.inj hrun
    exact ⟨h, rfl⟩
  | cons entry rest ih =>
    rw [PolicyRegistry.publishAll, Outcome.bind_eq_ok] at hrun
    obtain ⟨step, hstep, hrest⟩ := hrun
    obtain ⟨hvalid, rfl⟩ := publish_eq_ok.mp hstep
    have htail := ih (h.push hvalid entry.2) hrest
    exact ⟨htail.1, htail.2⟩

/-! ## Recovery -/

def rehash (record : PolicyGenerationRecord) : PolicyGenerationRecord :=
  { record with stamp := { record.stamp with contentHash := contentHash record.document } }

theorem rehash_eq (h : record.stamp.contentHash = contentHash record.document) : rehash record = record := by
  unfold rehash
  rw [← h]

theorem recoverRecord_next (hfirst : NumberedFrom first registry.generations)
    (hroom : registry.generations.length < 2 ^ 64) (hvalid : checks.validate record.document = .ok ())
    (hnext : record.stamp.generation = first + UInt64.ofNat registry.generations.length) :
    registry.recoverRecord checks record = .ok (registry.push (rehash record)) := by
  have hnone : registry.get record.stamp.generation = none := by
    apply get_eq_none
    rw [hfirst, hnext]
    exact next_not_mem_countFrom first _ hroom
  have hgen : ¬ record.stamp.generation ≠ registry.current.stamp.generation + 1 := by
    rw [hfirst.current, hnext]
    exact fun h => h rfl
  simp only [recoverRecord, restore, hvalid, hnone, Outcome.ok_bind, Outcome.refuseIf_of_not hgen]
  rfl

theorem recoverAll_consecutive (hfirst : NumberedFrom first registry.generations) (hnumbers : numbers records =
      countFrom (first + UInt64.ofNat registry.generations.length) records.length)
    (hvalid : ∀ record ∈ records, checks.validate record.document = .ok ())
    (hbound : registry.generations.length ≤ registry.maxGenerations)
    (htotal : registry.generations.length + records.length ≤ registry.maxGenerations + 1)
    (hroom : registry.maxGenerations < 2 ^ 64) : ∃ recovered, registry.recoverAll checks records = .ok recovered ∧
      recovered.generations = evict registry.maxGenerations (registry.generations ++ records.map rehash) := by
  induction records generalizing registry with
  | nil =>
    refine ⟨registry, rfl, ?_⟩
    rw [List.map_nil, List.append_nil, evict_of_le hbound]
  | cons record rest ih =>
    rw [numbers, List.map_cons, List.length_cons, countFrom_succ] at hnumbers
    obtain ⟨hnext, hrest⟩ := List.cons.inj hnumbers
    have hstep := recoverRecord_next hfirst (by omega) (hvalid record List.mem_cons_self) hnext
    have hlist : (registry.push (rehash record)).generations =
        evict registry.maxGenerations (registry.generations ++ [rehash record]) := rfl
    cases rest with
    | nil => exact ⟨registry.push (rehash record), by simp [recoverAll, hstep], by simp⟩
    | cons second rest =>
      rw [List.length_cons, List.length_cons] at htotal
      have hlen : (registry.generations ++ [rehash record]).length = registry.generations.length + 1 := by simp
      rw [evict_of_le (by omega)] at hlist
      have hnumbered : NumberedFrom first (registry.push (rehash record)).generations := by
        rw [hlist]
        exact hfirst.snoc hnext
      obtain ⟨recovered, hrun, hfinal⟩ := ih hnumbered
        (by rw [hlist, hlen, ← ofNat_add_succ]; exact hrest)
        (fun other hother => hvalid other (List.mem_cons_of_mem _ hother))
        (by rw [hlist, hlen]; show _ ≤ registry.maxGenerations; omega)
        (by rw [hlist, hlen, List.length_cons]; show _ ≤ registry.maxGenerations + 1; omega) hroom
      refine ⟨recovered, ?_, ?_⟩
      · rw [recoverAll, hstep, Outcome.ok_bind, hrun]
      · rw [hfinal, hlist, push_maxGenerations, List.append_assoc]
        rfl

theorem recoverRecord_gap (hvalid : checks.validate record.document = .ok ()) (hone : record.stamp.generation ≠ 1)
    (htwo : record.stamp.generation ≠ 2) :
    ∃ status, (start initial restartedAt maxGenerations).recoverRecord checks record = .error status := by
  have hnone : (start initial restartedAt maxGenerations).get record.stamp.generation = none := by
    apply get_eq_none
    intro hmem
    exact hone (List.mem_singleton.mp hmem)
  have hgap : record.stamp.generation ≠ (start initial restartedAt maxGenerations).current.stamp.generation + 1 :=
    htwo
  refine ⟨⟨.corrupt, text "recovered policy generation is not the next generation"⟩, ?_⟩
  simp only [recoverRecord, restore, hvalid, hnone, Outcome.ok_bind, refuseIf, if_pos hgap, fail,
    Outcome.error_bind]
  rfl

theorem get_start_one :
    (start initial restartedAt maxGenerations).get 1 = some (generationRecord initial restartedAt 1) := by
  simp [get, start, generationRecord]

theorem recoverRecord_first (hone : record.stamp.generation = 1) (result : PolicyRegistry) :
    (start initial restartedAt maxGenerations).recoverRecord checks record = .ok result ↔
      checks.validate record.document = .ok () ∧ contentHash initial = contentHash record.document ∧
        result = start initial restartedAt maxGenerations := by
  unfold recoverRecord restore
  rw [hone, get_start_one]
  cases hvalid : checks.validate record.document with
  | error status =>
    have hcode : status.code ≠ .duplicate :=
      validatePolicy_avoids record.document checks.catalog checks.maxRules checks.maxBandsPerRule status hvalid
    simp [hcode]
  | ok u =>
    by_cases hhash : contentHash initial = contentHash record.document
    · simp [generationRecord, hhash, fail, eq_comm]
    · simp [generationRecord, hhash, fail]

def oldest (registry : PolicyRegistry) : PolicyGenerationRecord :=
  registry.generations.head registry.nonempty

/-- Recovery from the snapshot of `registry` into `fresh` succeeds for every record and ends with the
same current generation, the same retained numbers and the same documents. -/
def PreservesHistory (checks : PolicyChecks) (fresh registry : PolicyRegistry) : Prop :=
  ∃ recovered, fresh.recoverAll checks registry.snapshotRecords = .ok recovered ∧
    recovered.current.stamp.generation = registry.current.stamp.generation ∧
    numbers recovered.generations = numbers registry.generations ∧
    recovered.generations.map (·.document) = registry.generations.map (·.document)

theorem current_of_numbers {a b : PolicyRegistry} (h : numbers a.generations = numbers b.generations) :
    a.current.stamp.generation = b.current.stamp.generation := by
  have ha := a.numbers_getLast?
  rw [h, b.numbers_getLast?] at ha
  exact (Option.some.inj ha).symm

section Reached
variable {registry : PolicyRegistry} (restartedAt : Timestamp) (maxGenerations : ℕ)

theorem one_not_mem_countFrom_two (count : ℕ) (h : count < 2 ^ 64) : (1 : UInt64) ∉ countFrom 2 count := by
  have hnodup := countFrom_nodup 1 (count + 1) (by omega)
  rw [countFrom_succ] at hnodup
  exact (List.nodup_cons.mp hnodup).1

theorem Published.nodup (h : Published checks initial registry) (hroom : registry.maxGenerations < 2 ^ 64) :
    (numbers registry.generations).Nodup := by
  obtain ⟨dropped, hnumbered, -⟩ := h.numbered
  have hbound := h.bounded
  rw [hnumbered]
  exact countFrom_nodup _ _ (by omega)

variable {records : List PolicyGenerationRecord}

theorem Published.behind_first (h : Published checks initial registry) (hroom : registry.maxGenerations < 2 ^ 64)
    (hsub : ∀ record ∈ records, record ∈ registry.generations) (hnumbered : NumberedFrom 2 records)
    (hlength : records.length ≤ registry.maxGenerations) :
    (∀ record ∈ records, checks.validate record.document = .ok ()) ∧ records.map rehash = records := by
  constructor
  · intro record hrecord
    rcases h.valid record (hsub record hrecord) with hvalid | ⟨hone, -⟩
    · exact hvalid
    · have hmem : record.stamp.generation ∈ numbers records := List.mem_map.mpr ⟨record, hrecord, rfl⟩
      rw [hnumbered, hone] at hmem
      exact absurd hmem (one_not_mem_countFrom_two _ (by omega))
  · have hid : ∀ record ∈ records, rehash record = record := fun record hrecord =>
      rehash_eq (h.hashed record (hsub record hrecord))
    rw [List.map_congr_left hid, List.map_id']

theorem Published.recoverAll_behind_first (h : Published checks initial registry)
    (hmax : registry.maxGenerations = (start initial restartedAt maxGenerations).maxGenerations)
    (hroom : registry.maxGenerations < 2 ^ 64) (hsub : ∀ record ∈ records, record ∈ registry.generations)
    (hnumbered : NumberedFrom 2 records) (hlength : records.length ≤ registry.maxGenerations) :
    ∃ recovered, (start initial restartedAt maxGenerations).recoverAll checks records = .ok recovered ∧
      recovered.generations = evict registry.maxGenerations (generationRecord initial restartedAt 1 :: records) := by
  obtain ⟨hvalid, hrehash⟩ := h.behind_first hroom hsub hnumbered hlength
  have hfresh : NumberedFrom 1 (start initial restartedAt maxGenerations).generations := rfl
  have hpos := registry.positive
  obtain ⟨recovered, hrun, hfinal⟩ := recoverAll_consecutive hfresh hnumbered hvalid
    (by rw [← hmax]; exact hpos) (by rw [← hmax]; show 1 + _ ≤ _; omega) (by rw [← hmax]; exact hroom)
  refine ⟨recovered, hrun, ?_⟩
  rw [hfinal, hrehash, hmax]
  rfl

theorem generations_eq_oldest_cons (registry : PolicyRegistry) :
    registry.generations = registry.oldest :: registry.generations.tail :=
  (List.cons_head_tail registry.nonempty).symm

theorem Published.behind_oldest (h : Published checks initial registry) :
    NumberedFrom (registry.oldest.stamp.generation + 1) registry.generations.tail := by
  obtain ⟨dropped, hnumbered, -⟩ := h.numbered
  rw [generations_eq_oldest_cons registry] at hnumbered
  have hfirst := hnumbered.oldest
  have hpos : 1 ≤ (registry.oldest :: registry.generations.tail).length := by simp
  have hdrop := hnumbered.drop 1 hpos
  rw [hfirst]
  exact hdrop

section
variable (h : Published checks initial registry)
  (hmax : registry.maxGenerations = (start initial restartedAt maxGenerations).maxGenerations)
  (hroom : registry.maxGenerations < 2 ^ 64)
include h hmax hroom

theorem Published.preserves_of_second (htwo : registry.oldest.stamp.generation = 2) :
    PreservesHistory checks (start initial restartedAt maxGenerations) registry := by
  obtain ⟨dropped, hnumbered, hfull⟩ := h.numbered
  have hfirst : registry.oldest.stamp.generation = 1 + UInt64.ofNat dropped := by
    rw [generations_eq_oldest_cons registry] at hnumbered
    exact hnumbered.oldest
  have hdropped : 0 < dropped := by
    rcases Nat.eq_zero_or_pos dropped with hzero | hpos
    · rw [hzero, htwo] at hfirst
      exact absurd hfirst (by decide)
    · exact hpos
  have hlength := hfull hdropped
  rw [← hfirst, htwo] at hnumbered
  obtain ⟨recovered, hrun, hfinal⟩ := h.recoverAll_behind_first restartedAt maxGenerations hmax hroom
    (fun _ hrecord => hrecord) hnumbered hlength.le
  have hlist : recovered.generations = registry.generations := by
    rw [hfinal, evict_eq_drop, List.length_cons, hlength, Nat.add_sub_cancel_left, List.drop_one, List.tail_cons]
  refine ⟨recovered, ?_, ?_, ?_, ?_⟩
  · rw [snapshotRecords_eq (h.nodup hroom), hrun]
  · exact current_of_numbers (by rw [hlist])
  · rw [hlist]
  · rw [hlist]

theorem Published.preserves_first_iff (hone : registry.oldest.stamp.generation = 1) :
    PreservesHistory checks (start initial restartedAt maxGenerations) registry ↔
      registry.oldest.document = initial ∧ checks.validate initial = .ok () := by
  have hgens := generations_eq_oldest_cons registry
  have hlength : registry.generations.tail.length + 1 ≤ registry.maxGenerations := by
    have hbound := h.bounded
    rw [hgens, List.length_cons] at hbound
    exact hbound
  have htail : NumberedFrom 2 registry.generations.tail := by
    have hbehind := h.behind_oldest
    rw [hone] at hbehind
    exact hbehind
  obtain ⟨recovered, hrun, hfinal⟩ := h.recoverAll_behind_first restartedAt maxGenerations hmax hroom
    (fun _ hrecord => List.mem_of_mem_tail hrecord) htail (by omega)
  rw [evict_of_le (by rw [List.length_cons]; exact hlength)] at hfinal
  have hsnap : registry.snapshotRecords = registry.oldest :: registry.generations.tail := by
    rw [snapshotRecords_eq (h.nodup hroom), ← hgens]
  constructor
  · rintro ⟨result, hresult, -, -, hdocuments⟩
    rw [hsnap, recoverAll, Outcome.bind_eq_ok] at hresult
    obtain ⟨step, hstep, hrest⟩ := hresult
    obtain ⟨hvalid, -, rfl⟩ := (recoverRecord_first restartedAt maxGenerations hone step).mp hstep
    obtain rfl : recovered = result := Except.ok.inj (hrun.symm.trans hrest)
    rw [hfinal, hgens, List.map_cons, List.map_cons] at hdocuments
    have hdocument : initial = registry.oldest.document := (List.cons.inj hdocuments).1
    rw [← hdocument] at hvalid
    exact ⟨hdocument.symm, hvalid⟩
  · rintro ⟨hdocument, hvalid⟩
    have hfirst : (start initial restartedAt maxGenerations).recoverRecord checks registry.oldest =
        .ok (start initial restartedAt maxGenerations) :=
      (recoverRecord_first restartedAt maxGenerations hone _).mpr
        ⟨by rw [hdocument]; exact hvalid, by rw [hdocument], rfl⟩
    have hnumbers : numbers recovered.generations = numbers registry.generations := by
      rw [hfinal, hgens, numbers, numbers, List.map_cons, List.map_cons, hone]
      rfl
    refine ⟨recovered, ?_, current_of_numbers hnumbers, hnumbers, ?_⟩
    · rw [hsnap, recoverAll, hfirst, Outcome.ok_bind, hrun]
    · rw [hfinal, hgens, List.map_cons, List.map_cons, hdocument]
      rfl

end

theorem Published.not_preserves_of_gap (h : Published checks initial registry)
    (hroom : registry.maxGenerations < 2 ^ 64) (hone : registry.oldest.stamp.generation ≠ 1)
    (htwo : registry.oldest.stamp.generation ≠ 2) :
    ¬ PreservesHistory checks (start initial restartedAt maxGenerations) registry := by
  rintro ⟨result, hresult, -⟩
  have hgens := generations_eq_oldest_cons registry
  have hvalid : checks.validate registry.oldest.document = .ok () := by
    have hmem : registry.oldest ∈ registry.generations := List.head_mem registry.nonempty
    rcases h.valid registry.oldest hmem with hvalid | ⟨hgen, -⟩
    · exact hvalid
    · exact absurd hgen hone
  obtain ⟨status, hstatus⟩ : ∃ status,
      (start initial restartedAt maxGenerations).recoverRecord checks registry.oldest = .error status :=
    recoverRecord_gap restartedAt maxGenerations hvalid hone htwo
  rw [snapshotRecords_eq (h.nodup hroom), hgens, recoverAll, hstatus] at hresult
  cases hresult

end Reached

theorem start_maxGenerations_lt {maxGenerations : ℕ} (h : maxGenerations < 2 ^ 64) :
    (start initial publishedAt maxGenerations).maxGenerations < 2 ^ 64 := by
  show (if maxGenerations = 0 then 1 else maxGenerations) < 2 ^ 64
  split <;> omega

/-- **Compaction and recovery of the policy history.** After any publications, recovery from the
snapshot reproduces the history exactly when the oldest retained generation is 2, or is 1 and is still
the initial document and that document passes validation. -/
theorem snapshot_preserves_history_iff (checks : PolicyChecks) (initial : PolicyDocument)
    (publishedAt restartedAt : Timestamp) (maxGenerations : ℕ) (hsize : maxGenerations < 2 ^ 64)
    (published : List (PolicyDocument × Timestamp)) (registry : PolicyRegistry)
    (hrun : (start initial publishedAt maxGenerations).publishAll checks published = .ok registry) :
    PreservesHistory checks (start initial restartedAt maxGenerations) registry ↔
      registry.oldest.stamp.generation = 2 ∨
        (registry.oldest.stamp.generation = 1 ∧ registry.oldest.document = initial ∧
          checks.validate initial = .ok ()) := by
  obtain ⟨h, hmax⟩ := (published_start publishedAt maxGenerations).publishAll hrun
  have hroom : registry.maxGenerations < 2 ^ 64 := by
    rw [hmax]
    exact start_maxGenerations_lt publishedAt hsize
  have hfresh : registry.maxGenerations = (start initial restartedAt maxGenerations).maxGenerations := hmax
  by_cases htwo : registry.oldest.stamp.generation = 2
  · exact iff_of_true (h.preserves_of_second restartedAt maxGenerations hfresh hroom htwo) (Or.inl htwo)
  · by_cases hone : registry.oldest.stamp.generation = 1
    · rw [h.preserves_first_iff restartedAt maxGenerations hfresh hroom hone]
      simp [hone]
    · refine iff_of_false (h.not_preserves_of_gap restartedAt maxGenerations hroom hone htwo) ?_
      rintro (h2 | ⟨h1, -⟩)
      · exact htwo h2
      · exact hone h1

/-! Two publications of a valid document, with room for one generation and with room for three. -/

def builtinChecks : PolicyChecks := ⟨MetricCatalog.withBuiltinDescriptors 256, 128, 16⟩

def plainDocument : PolicyDocument := PolicyDocument.named (text "default")

theorem plainDocument_valid : builtinChecks.validate plainDocument = .ok () := by
  decide +kernel

theorem publishAll_plainDocument (registry : PolicyRegistry) :
    registry.publishAll builtinChecks [(plainDocument, default), (plainDocument, default)] =
      .ok ((registry.push (generationRecord plainDocument default (registry.current.stamp.generation + 1))).push
        (generationRecord plainDocument default ((registry.push (generationRecord plainDocument default
          (registry.current.stamp.generation + 1))).current.stamp.generation + 1))) := by
  simp [publishAll, publish, plainDocument_valid]

/-- With room for one generation, the two publications cannot be recovered. -/
theorem two_publications_lost : ∃ registry,
    (start plainDocument default 1).publishAll builtinChecks
        [(plainDocument, default), (plainDocument, default)] = .ok registry ∧
      ¬ PreservesHistory builtinChecks (start plainDocument default 1) registry := by
  refine ⟨_, publishAll_plainDocument _, ?_⟩
  have h := (published_start default 1).publishAll (publishAll_plainDocument (start plainDocument default 1))
  exact h.1.not_preserves_of_gap default 1 (by decide) (by decide) (by decide)

theorem two_publications_kept : ∃ registry,
    (start plainDocument default 3).publishAll builtinChecks
        [(plainDocument, default), (plainDocument, default)] = .ok registry ∧
      PreservesHistory builtinChecks (start plainDocument default 3) registry :=
  ⟨_, publishAll_plainDocument _,
    (snapshot_preserves_history_iff builtinChecks plainDocument default default 3 (by decide) _ _
      (publishAll_plainDocument _)).mpr (Or.inr ⟨by decide, by decide, plainDocument_valid⟩)⟩

end PolicyRegistry

end Lqf
