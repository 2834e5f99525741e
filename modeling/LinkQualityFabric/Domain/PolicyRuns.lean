import LinkQualityFabric.Foundations.Run
import LinkQualityFabric.Domain.PolicyRegistry

/-! Runs of the policy registry.

Publishing takes the number behind the current one, and restoring accepts no other. So the retained numbers stay
consecutive whatever the two are mixed with, and a number that was given away is not given again. -/
namespace Lqf
open Foundations
set_option autoImplicit false

inductive PolicyCall where
  | publish (checks : PolicyChecks) (document : PolicyDocument) (publishedAt : Timestamp)
  | restore (checks : PolicyChecks) (record : PolicyGenerationRecord)

namespace PolicyRegistry

def apply (registry : PolicyRegistry) : PolicyCall → Outcome PolicyRegistry
  | .publish checks document publishedAt => (registry.publish checks document publishedAt).map Prod.snd
  | .restore checks record => registry.restore checks record

def policyMachine : Machine PolicyRegistry PolicyCall (Outcome Unit) where
  step registry call :=
    match registry.apply call with
    | .error status => (.error status, registry)
    | .ok after => (.ok (), after)

def Unexhausted (registry : PolicyRegistry) (_ : PolicyCall) : Prop :=
  registry.current.stamp.generation.toNat + 1 < 2 ^ 64

instance (registry : PolicyRegistry) (call : PolicyCall) : Decidable (registry.Unexhausted call) :=
  inferInstanceAs (Decidable (_ < _))

variable {registry : PolicyRegistry}

/-! ## One call -/

def Next (before after : PolicyGenerationRecord) : Prop :=
  after.stamp.generation.toNat = before.stamp.generation.toNat + 1

theorem apply_eq_push {call : PolicyCall} {after : PolicyRegistry} (hroom : registry.Unexhausted call)
    (h : registry.apply call = .ok after) : ∃ record, after = registry.push record ∧ Next registry.current record ∧
      record.stamp.contentHash = contentHash record.document := by
  have hnext : (registry.current.stamp.generation + 1).toNat = registry.current.stamp.generation.toNat + 1 := by
    rw [UInt64.toNat_add, UInt64.toNat_one]
    exact Nat.mod_eq_of_lt hroom
  cases call with
  | publish checks document publishedAt =>
    cases hpublish : registry.publish checks document publishedAt with
    | error status =>
      rw [apply, hpublish] at h
      cases h
    | ok result =>
      rw [apply, hpublish] at h
      obtain ⟨-, rfl⟩ := publish_eq_ok.mp hpublish
      exact ⟨_, (Except.ok.inj h).symm, hnext, rfl⟩
  | restore checks record =>
    rw [apply, restore, Outcome.check_bind_eq_ok] at h
    obtain ⟨-, h⟩ := h
    cases hget : registry.get record.stamp.generation with
    | some existing =>
      simp only [hget] at h
      split at h <;> cases h
    | none =>
      simp only [hget, Outcome.check_bind_eq_ok, Outcome.refuseIf_eq_ok, ne_eq, not_not] at h
      obtain ⟨hnumber, h⟩ := h
      refine ⟨_, (Except.ok.inj h).symm, ?_, rfl⟩
      unfold Next
      rw [← hnext, ← hnumber]

/-! ## The invariant -/

/-- The retained generations are consecutive and within the bound, the current one is the highest, and each hash is
the one of its own document. -/
structure Gapless (registry : PolicyRegistry) : Prop where
  consecutive : registry.generations.IsChain Next
  count : 1 ≤ registry.generations.length ∧ registry.generations.length ≤ registry.maxGenerations
  highest : ∀ record ∈ registry.generations, record = registry.current ∨
    record.stamp.generation < registry.current.stamp.generation
  hashed : ∀ record ∈ registry.generations, record.stamp.contentHash = contentHash record.document

theorem generations_eq_concat (registry : PolicyRegistry) :
    registry.generations = registry.generations.dropLast ++ [registry.current] :=
  (List.dropLast_append_getLast registry.nonempty).symm

variable {before after record : PolicyGenerationRecord} {later : PolicyRegistry} {generation : UInt64}

theorem next_lt (h : Next before after) : before.stamp.generation < after.stamp.generation := by
  rw [UInt64.lt_iff_toNat_lt, h]
  omega

theorem Gapless.push (h : registry.Gapless) (hnext : Next registry.current record)
    (hhash : record.stamp.contentHash = contentHash record.document) : (registry.push record).Gapless := by
  refine ⟨?_, ⟨List.length_pos_iff.mpr (registry.push record).nonempty, ?_⟩, fun other hother => ?_,
    fun other hother => ?_⟩
  · rw [push_generations, evict_eq_drop]
    refine (h.consecutive.append (List.IsChain.singleton record) fun last hlast first hfirst => ?_).drop _
    rw [generations_eq_concat registry, List.getLast?_concat] at hlast
    rw [← Option.some.inj hlast, ← Option.some.inj hfirst]
    exact hnext
  · rw [push_generations, push_maxGenerations, evict_length]
    exact Nat.min_le_right _ _
  · rw [current_push]
    rcases mem_push hother with hold | rfl
    · refine .inr ?_
      rcases h.highest other hold with rfl | hlt
      · exact next_lt hnext
      · exact UInt64.lt_trans hlt (next_lt hnext)
    · exact .inl rfl
  · rcases mem_push hother with hold | rfl
    · exact h.hashed other hold
    · exact hhash

theorem gapless_start (initial : PolicyDocument) (publishedAt : Timestamp) (maxGenerations : ℕ) :
    (start initial publishedAt maxGenerations).Gapless := by
  refine ⟨List.IsChain.singleton _, ⟨Nat.le_refl _, (start initial publishedAt maxGenerations).positive⟩,
    fun record hrecord => .inl (List.mem_singleton.mp hrecord), fun record hrecord => ?_⟩
  rw [List.mem_singleton.mp hrecord]
  rfl

/-! ## Runs -/

structure Extends (registry later : PolicyRegistry) : Prop extends Gapless later where
  bound : later.maxGenerations = registry.maxGenerations
  current : registry.current.stamp.generation ≤ later.current.stamp.generation
  kept : ∀ record ∈ later.generations, record ∈ registry.generations ∨
    registry.current.stamp.generation < record.stamp.generation

theorem Gapless.extends (h : registry.Gapless) : registry.Extends registry :=
  ⟨h, rfl, UInt64.le_refl _, fun _ hrecord => .inl hrecord⟩

theorem Extends.step (h : registry.Extends later) (call : PolicyCall) (hroom : later.Unexhausted call) :
    registry.Extends (policyMachine.step later call).2 := by
  dsimp only [policyMachine]
  cases happly : later.apply call with
  | error status => exact h
  | ok after =>
    obtain ⟨record, rfl, hnext, hhash⟩ := apply_eq_push hroom happly
    have habove : registry.current.stamp.generation < record.stamp.generation :=
      UInt64.lt_of_le_of_lt h.current (next_lt hnext)
    refine ⟨h.toGapless.push hnext hhash, h.bound, ?_, fun other hother => ?_⟩
    · rw [current_push]
      exact UInt64.le_of_lt habove
    · rcases mem_push hother with hold | rfl
      · exact h.kept other hold
      · exact .inr habove

theorem Gapless.run (h : registry.Gapless) {calls : List PolicyCall}
    (hroom : policyMachine.Meets Unexhausted registry calls) : registry.Extends (policyMachine.final registry calls) :=
  policyMachine.invariant (P := fun later => registry.Extends later) (fun _ call hlater => hlater.step call)
    h.extends hroom

theorem get_spec (h : registry.get generation = some record) :
    record ∈ registry.generations ∧ record.stamp.generation = generation :=
  ⟨List.mem_of_find?_eq_some h, by simpa using List.find?_some h⟩

theorem Gapless.ascending (h : registry.Gapless) :
    registry.generations.Pairwise fun a b => a.stamp.generation < b.stamp.generation := by
  have htrans : Trans (fun a b : PolicyGenerationRecord => a.stamp.generation < b.stamp.generation)
      (fun a b : PolicyGenerationRecord => a.stamp.generation < b.stamp.generation)
      fun a b : PolicyGenerationRecord => a.stamp.generation < b.stamp.generation :=
    ⟨fun hab hbc => UInt64.lt_trans hab hbc⟩
  exact List.isChain_iff_pairwise.mp (h.consecutive.imp fun _ _ hnext => next_lt hnext)

theorem Gapless.nodup (h : registry.Gapless) : (numbers registry.generations).Nodup := by
  refine List.pairwise_map.mpr (h.ascending.imp fun hlt hsame => ?_)
  rw [hsame] at hlt
  exact UInt64.lt_irrefl _ hlt

theorem Extends.get_eq (hregistry : registry.Gapless) (h : registry.Extends later)
    (hbefore : registry.get generation = some before) (hafter : later.get generation = some after) :
    after = before := by
  obtain ⟨hmem, hnumber⟩ := get_spec hbefore
  obtain ⟨hlater, hsame⟩ := get_spec hafter
  rcases h.kept after hlater with hold | habove
  · exact List.inj_on_of_nodup_map hregistry.nodup hold hmem (hsame.trans hnumber.symm)
  · rw [hsame, ← hnumber] at habove
    rcases hregistry.highest before hmem with rfl | hlt
    · exact absurd habove (UInt64.lt_irrefl _)
    · exact absurd habove (UInt64.lt_asymm hlt)

/-- **Policy generations are gap-free and immutable.** In every registry that calls of `publish` and `restore` lead to
the retained generations are as `Gapless` says; what is stored under a number stays the same in every later registry
that retains it; and a call that fails changes nothing. -/
theorem generations_gapless (initial : PolicyDocument) (publishedAt : Timestamp) (maxGenerations : ℕ)
    (calls rest : List PolicyCall)
    (hroom : policyMachine.Meets Unexhausted (start initial publishedAt maxGenerations) (calls ++ rest))
    (registry : PolicyRegistry)
    (hregistry : registry = policyMachine.final (start initial publishedAt maxGenerations) calls) :
    registry.Gapless ∧ registry.maxGenerations = (if maxGenerations = 0 then 1 else maxGenerations) ∧
      (∀ generation before after, registry.get generation = some before →
        (policyMachine.final registry rest).get generation = some after → after = before) ∧
      ∀ call status, (policyMachine.step registry call).1 = .error status →
        (policyMachine.step registry call).2 = registry := by
  obtain ⟨hcalls, hrest⟩ := (policyMachine.meets_append _ calls rest).mp hroom
  have hrun := (gapless_start initial publishedAt maxGenerations).run hcalls
  rw [← hregistry] at hrun hrest
  refine ⟨hrun.toGapless, hrun.bound, fun generation before after hbefore hafter =>
    (hrun.toGapless.run hrest).get_eq hrun.toGapless hbefore hafter, fun call status hstatus => ?_⟩
  dsimp only [policyMachine] at hstatus ⊢
  cases happly : registry.apply call with
  | error status => rfl
  | ok after =>
    rw [happly] at hstatus
    cases hstatus

/-- A registry of two generations, after three publications of the plain document. -/
theorem three_publications_gapless :
    policyMachine.Meets Unexhausted (start plainDocument ⟨0, false⟩ 2)
      (List.replicate 3 (.publish builtinChecks plainDocument ⟨0, false⟩) ++ []) ∧
    (policyMachine.final (start plainDocument ⟨0, false⟩ 2)
      (List.replicate 3 (.publish builtinChecks plainDocument ⟨0, false⟩))).Gapless := by
  have hroom : policyMachine.Meets Unexhausted (start plainDocument ⟨0, false⟩ 2)
      (List.replicate 3 (.publish builtinChecks plainDocument ⟨0, false⟩) ++ []) := by decide +kernel
  exact ⟨hroom, (generations_gapless plainDocument ⟨0, false⟩ 2 _ [] hroom _ rfl).1⟩

end PolicyRegistry

end Lqf
