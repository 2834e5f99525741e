import LinkQualityFabric.Foundations.Fairness
import LinkQualityFabric.Persist.ThreadMotion

/-! Which calls of a journal return, in every weakly fair run and whatever the file system does.

No wake-up is lost: a call that has the compaction lock waits for the writer only, and the writer works until the
queue is empty. What a call can wait for without end is other calls: a flush for a queue that appends keep filling,
and every call for a lock that others keep taking. A call returns unless such calls are begun again and again. -/
namespace Lqf.ThreadedJournal
open Foundations
set_option autoImplicit false

open BackgroundJournal

/-! ## Runs -/

structure FairRun (run : machine.Run) : Prop where
  sane : ∀ n, (run.state n).Sane
  fair : run.Fair ThreadEvent.Acts Enabled

theorem fairRun_of_start {run : machine.Run} {io : StartIo} {config : JournalConfig} {disk : Disk} {epoch : UInt64}
    {wallNanos : Int64} {journal : BackgroundJournal}
    (hstart : BackgroundJournal.start io config disk epoch wallNanos = .ok journal) (hfirst : run.state 0 = start journal)
    (hfair : run.Fair ThreadEvent.Acts Enabled) : FairRun run :=
  ⟨run.invariant (hfirst ▸ start_sane hstart) fun _ event hsane => hsane.step event, hfair⟩

section Runs
variable {run : machine.Run} {index n : ℕ} {place : CallPlace}

def Returns (run : machine.Run) (index n : ℕ) : Prop :=
  ∃ m, n ≤ m ∧ ∃ place, (run.state m).calls[index]? = some place ∧ place.returned = true

theorem run_step (run : machine.Run) (n : ℕ) : run.state (n + 1) = (run.state n).step (run.event n) := run.step n

variable {m : ℕ} {state : ThreadedJournal} {kind : CallKind} {k : ℕ}

theorem run_forward (hold : (run.state n).calls[index]? = some place) (hm : n ≤ m) :
    ∃ new, (run.state m).calls[index]? = some new ∧ new.kind = place.kind ∧ place.phase ≤ new.phase ∧
      (place.returned = true → new = place) := by
  refine run.stays (P := fun state => ∃ new, state.calls[index]? = some new ∧ new.kind = place.kind ∧
    place.phase ≤ new.phase ∧ (place.returned = true → new = place)) ⟨place, hold, rfl, le_rfl, fun _ => rfl⟩ ?_ hm
  rintro m - ⟨middle, hmiddle, hkind, hphase, hreturned⟩
  obtain ⟨new, hnew, hkind', hphase', hreturned'⟩ := step_forward hmiddle (run.event m)
  refine ⟨new, by rw [run_step]; exact hnew, hkind'.trans hkind, hphase.trans hphase', fun hyes => ?_⟩
  have hsame := hreturned hyes
  rw [hsame] at hreturned'
  exact hreturned' hyes

theorem Returns.mono (h : Returns run index n) (hm : m ≤ n) : Returns run index m := by
  obtain ⟨k, hk, hplace⟩ := h
  exact ⟨k, hm.trans hk, hplace⟩

theorem FairRun.leaves (h : FairRun run) (hold : (run.state n).calls[index]? = some place) (hwake : place.wake = place)
    (hcan : ∀ m, n ≤ m → (run.state m).calls[index]? = some place → ((run.state m).act {} place).isSome = true) :
    ∃ m io result, n ≤ m ∧ (run.state m).calls[index]? = some place ∧ (run.state m).act io place = some result ∧
      (run.state (m + 1)).calls[index]? = some result.2 ∧ run.event m = .caller index io := by
  obtain ⟨m, hm, hplace, hacts⟩ := run.acts_of_fair h.fair (P := fun state => state.calls[index]? = some place)
    (.caller index) hold (fun m hm hplace => ⟨place, hplace, hcan m hm hplace⟩) (fun m _ hplace hnot => by
      rw [run_step]
      rcases step_other hplace hnot with hsame | hwoken
      · exact hsame
      · rw [hwoken, hwake])
  cases hevent : run.event m with
  | caller other io =>
    rw [hevent] at hacts
    obtain rfl : other = index := hacts
    have hsome := (act_isSome (run.state m) {} io place).symm.trans (hcan m hm hplace)
    obtain ⟨result, hact⟩ := Option.isSome_iff_exists.mp hsome
    exact ⟨m, io, result, hm, hplace, hact, by rw [run_step, hevent]; exact step_own hplace hact, hevent⟩
  | _ => rw [hevent] at hacts; cases hacts

theorem FairRun.goes_on (h : FairRun run) (hold : (run.state n).calls[index]? = some place) (hgoes : place.goes = true) :
    ∃ m io result, n ≤ m ∧ (run.state m).calls[index]? = some place ∧ (run.state m).act io place = some result ∧
      (run.state (m + 1)).calls[index]? = some result.2 ∧ run.event m = .caller index io :=
  h.leaves hold (CallPlace.wake_of_goes hgoes) fun _ _ _ => act_of_goes hgoes

/-! ### Calls that wait for nobody -/

theorem returns_here (hold : (run.state n).calls[index]? = some place) (hreturned : place.returned = true) :
    Returns run index n := ⟨n, le_rfl, place, hold, hreturned⟩

theorem going_of_never (hnever : ¬ Returns run index n) (hm : n ≤ m) (hold : (run.state m).calls[index]? = some place) :
    place.returned = false := by
  by_contra hreturned
  exact hnever ((returns_here hold (by simpa using hreturned)).mono hm)

section
variable (h : FairRun run) (hold : (run.state n).calls[index]? = some place)
include h hold

theorem FairRun.returns_behind (hwake : place.wake = place)
    (hact : ∀ m, n ≤ m → ∀ io, ∃ result, (run.state m).act io place = some result ∧
      ∀ k, (run.state k).calls[index]? = some result.2 → Returns run index k) : Returns run index n := by
  obtain ⟨m, io, result, hm, -, hresult, hnext, -⟩ := h.leaves hold hwake fun m hm _ => by
    obtain ⟨result, hresult, -⟩ := hact m hm {}
    rw [hresult]
    rfl
  obtain ⟨other, hother, hreturns⟩ := hact m hm io
  obtain rfl : other = result := Option.some.inj (hother.symm.trans hresult)
  exact (hreturns _ hnext).mono (Nat.le_succ_of_le hm)

theorem FairRun.append_returns (hkind : place.kind = .append) (hholds : place.holds = true) : Returns run index n := by
  have hnotifies : ∀ n, (run.state n).calls[index]? = some .appendNotifies → Returns run index n := fun n hold =>
    h.returns_behind hold rfl fun _ _ _ => ⟨_, rfl, fun _ hnext => returns_here hnext rfl⟩
  cases place with
  | appendHolds record =>
    refine h.returns_behind hold rfl fun _ _ _ => ⟨_, rfl, fun k hnext => ?_⟩
    unfold appendSection at hnext
    split at hnext
    · exact returns_here hnext rfl
    · exact hnotifies _ hnext
  | appendNotifies => exact hnotifies n hold
  | appendWaits record => cases hholds
  | appended answer => cases hholds
  | _ => cases hkind

theorem FairRun.replace_returns (hkind : place.kind = .compact) (hphase : 2 ≤ place.phase) : Returns run index n := by
  have hnotifies : ∀ answer n, (run.state n).calls[index]? = some (.compactNotifies answer) → Returns run index n :=
    fun _ n hold => h.returns_behind hold rfl fun _ _ _ => ⟨_, rfl, fun _ hnext => returns_here hnext rfl⟩
  have hresumes : ∀ answer n, (run.state n).calls[index]? = some (.compactResumes answer) → Returns run index n :=
    fun _ n hold => h.returns_behind hold rfl fun _ _ _ => ⟨_, rfl, hnotifies _⟩
  cases place with
  | compactReplaces snapshot =>
    refine h.returns_behind hold rfl fun _ _ _ => ⟨_, rfl, fun k hnext => ?_⟩
    unfold compactReplace at hnext
    split at hnext <;> exact hresumes _ _ hnext
  | compactResumes answer => exact hresumes answer n hold
  | compactNotifies answer => exact hnotifies answer n hold
  | compacted answer => exact returns_here hold rfl
  | compactWaits snapshot => exact absurd hphase (by simp [CallPlace.phase])
  | compactTests snapshot => exact absurd hphase (by simp [CallPlace.phase])
  | compactSleeps snapshot => exact absurd hphase (by simp [CallPlace.phase])
  | _ => cases hkind

end

/-! ### The writer works -/

theorem FairRun.writer_works (h : FairRun run) (hwork : (run.state n).work ≠ 0)
    (hpaused : ∀ m, n ≤ m → (run.state m).paused = false) (hrest : ∀ m, n ≤ m → (run.state m).work = (run.state n).work) :
    False := by
  have hbusy : ∀ m, n ≤ m → (run.state m).writer.left = false := by
    intro m hm
    by_contra hleft
    have hleft : (run.state m).writer.left = true := by simpa using hleft
    have hqueue := ((h.sane m).core.left hleft).1
    refine hwork ((hrest m hm).symm.trans ?_)
    rw [work, hqueue]
    cases hwriter : (run.state m).writer <;> rw [hwriter] at hleft <;> first | rfl | cases hleft
  obtain ⟨first, hfirst, hawake⟩ : ∃ m, n ≤ m ∧ (run.state m).writer ≠ .asleep := by
    by_cases hasleep : (run.state n).writer = .asleep
    · have hqueue : (run.state n).journal.queue ≠ [] := by
        intro hnil
        exact hwork (by rw [work, hnil, hasleep]; rfl)
      rcases (h.sane n).pending hasleep hqueue with hon | ⟨place, hplace, hnotifies⟩
      · rw [hpaused n le_rfl] at hon
        cases hon
      · obtain ⟨index, hold⟩ := List.mem_iff_getElem?.mp hplace
        have hgoes : place.goes = true := by
          cases place <;> first | rfl | cases hnotifies
        obtain ⟨m, io, result, hm, hthere, hact, -, hevent⟩ := h.goes_on hold hgoes
        refine ⟨m + 1, Nat.le_succ_of_le hm, ?_⟩
        rw [run_step, hevent]
        simp only [step, callerStep, hthere, Option.bind_some, hact]
        exact act_notifies hnotifies hact
    · exact ⟨n, le_rfl, hasleep⟩
  have hended : ∀ m, first ≤ m → (run.state m).writer ≠ .ended := by
    intro m hm hend
    have hleft := hbusy m (hfirst.trans hm)
    rw [hend] at hleft
    cases hleft
  obtain ⟨m, hm, hsame, hacts⟩ := run.acts_of_fair h.fair
    (P := fun state => state.writer = (run.state first).writer) .writer rfl
    (fun m hm hsame => ⟨by rw [hsame]; exact hawake, hended m hm⟩) (fun m hm hsame hnot => by
      rw [run_step, step_writer hnot (by rw [hsame]; exact hawake)]
      exact hsame)
  cases hevent : run.event m with
  | writer io =>
    have hconstant := hrest (m + 1) (hfirst.trans (Nat.le_succ_of_le hm))
    rw [run_step, hevent] at hconstant
    have hless : ((run.state m).writerStep io).work < (run.state m).work := by
      refine writerStep_progress (h.sane m).core io (hpaused m (hfirst.trans hm)) ?_ ?_ (hbusy m (hfirst.trans hm))
      · rw [hrest m (hfirst.trans hm)]
        exact hwork
      · rw [hsame]
        exact hawake
    rw [hrest m (hfirst.trans hm)] at hless
    exact hless.ne hconstant
  | _ => rw [hevent] at hacts; cases hacts

theorem FairRun.comes_idle (h : FairRun run) (hquiet : ∀ m, n ≤ m → ¬ (run.state m).Enqueues (run.event m))
    (hpaused : ∀ m, n ≤ m → (run.state m).paused = false) : ∃ k, n ≤ k ∧ ∀ m, k ≤ m → (run.state m).work = 0 := by
  have hfalls : ∀ m, n ≤ m → (run.state (m + 1)).work ≤ (run.state m).work := by
    intro m hm
    rw [run_step]
    exact step_work (h.sane m).core (hquiet m hm)
  obtain ⟨k, hk, hrest⟩ : ∃ k, n ≤ k ∧ ∀ m, k ≤ m → (run.state m).work = (run.state k).work :=
    comes_to_rest (f := fun m => (run.state m).work) hfalls
  refine ⟨k, hk, fun m hm => ?_⟩
  rw [hrest m hm]
  by_contra hwork
  exact h.writer_works hwork (fun m hm => hpaused m (hk.trans hm)) hrest

theorem idle_of_work (h : state.Core) (hwork : state.work = 0) : state.Idle := by
  have hqueue : state.journal.queue = [] := by
    rw [work] at hwork
    exact List.length_eq_zero_iff.mp (by omega)
  refine ⟨hqueue, h.not_writing ?_⟩
  rw [work] at hwork
  cases hwriter : state.writer <;> rw [hwriter] at hwork <;> first | rfl | simp at hwork

/-! ### Calls that wait for the writer -/

theorem FairRun.still_awaits (h : FairRun run) (hold : (run.state n).calls[index]? = some place)
    (hawaits : place.awaits = true) (hnever : ¬ Returns run index n) (hm : n ≤ m) :
    ∃ now, (run.state m).calls[index]? = some now ∧ now.awaits = true ∧ now.kind = place.kind := by
  obtain ⟨now, hnow, hkind, hphase, -⟩ := run_forward hold hm
  refine ⟨now, hnow, ?_, hkind⟩
  rw [CallPlace.phase_of_awaits hawaits] at hphase
  have hgoing := going_of_never hnever hm hnow
  rcases CallPlace.kind_of_awaits hawaits with hflush | hcompact
  · exact CallPlace.awaits_of_flush (hkind.trans hflush) hphase hgoing
  · have hearly : now.phase < 2 := by
      by_contra hlate
      exact hnever ((h.replace_returns hnow (hkind.trans hcompact) (not_lt.mp hlate)).mono hm)
    exact CallPlace.awaits_of_compact (hkind.trans hcompact) (by omega)

theorem not_paused (h : state.Sane) (hold : state.calls[index]? = some place) (hawaits : place.awaits = true) :
    state.paused = false := by
  by_contra hon
  obtain ⟨pauser, hpauser, hpauses⟩ := h.paused (by simpa using hon)
  obtain ⟨i, hi⟩ := List.mem_iff_getElem?.mp hpauser
  obtain rfl := h.exclusive i index pauser place hi hold (CallPlace.unique_of_pauses hpauses)
    (CallPlace.holds_of_awaits hawaits)
  obtain rfl : pauser = place := Option.some.inj (hi.symm.trans hold)
  rw [CallPlace.not_pauses_of_awaits hawaits] at hpauses
  cases hpauses

theorem act_quiescent {io : ThreadIo} (hquiet : state.journal.Quiescent) (hawaits : place.awaits = true)
    {result : ThreadedJournal × CallPlace} (h : state.act io place = some result) : result.2.awaits = false := by
  cases place with
  | flushTests before =>
    obtain rfl := Option.some.inj h
    unfold flushSection
    rw [if_pos hquiet]
    rfl
  | compactTests snapshot =>
    obtain rfl := Option.some.inj h
    unfold compactSection
    rw [if_neg (not_not.mpr hquiet)]
    split
    · rfl
    · split
      · rfl
      · split <;> rfl
  | flushSleeps before => cases h
  | compactSleeps snapshot => cases h
  | _ => cases hawaits

theorem FairRun.awaiting_returns (h : FairRun run) (hold : (run.state n).calls[index]? = some place)
    (hawaits : place.awaits = true)
    (hquiet : ¬ Returns run index n → ∃ k, ∀ m, k ≤ m → ¬ (run.state m).Enqueues (run.event m)) :
    Returns run index n := by
  by_contra hnever
  obtain ⟨k, hk⟩ := hquiet hnever
  have hpaused : ∀ m, n ≤ m → (run.state m).paused = false := by
    intro m hm
    obtain ⟨now, hnow, hstill, -⟩ := h.still_awaits hold hawaits hnever hm
    exact not_paused (h.sane m) hnow hstill
  obtain ⟨last, hlast, hidle⟩ := h.comes_idle (n := max n k) (fun m hm => hk m ((le_max_right n k).trans hm))
    (fun m hm => hpaused m ((le_max_left n k).trans hm))
  have hafter : n ≤ last := (le_max_left n k).trans hlast
  have hquiescent : ∀ m, last ≤ m → (run.state m).journal.Quiescent := fun m hm =>
    .inl (idle_of_work (h.sane m).core (hidle m hm))
  obtain ⟨now, hnow, hstill, -⟩ := h.still_awaits hold hawaits hnever hafter
  have hok := (h.sane last).places now (List.mem_of_getElem? hnow)
  have hgoes : now.goes = true := by
    cases now with
    | flushTests before => rfl
    | compactTests snapshot => rfl
    | flushSleeps before => exact absurd (hquiescent last le_rfl) hok
    | compactSleeps snapshot => exact absurd (hquiescent last le_rfl) hok
    | _ => cases hstill
  obtain ⟨m, io, result, hm, -, hact, hnext, -⟩ := h.goes_on hnow hgoes
  obtain ⟨later, hlater, hwaits, -⟩ := h.still_awaits hold hawaits hnever (hafter.trans (Nat.le_succ_of_le hm))
  obtain rfl : result.2 = later := Option.some.inj (hnext.symm.trans hlater)
  rw [act_quiescent (hquiescent m hm) hstill hact] at hwaits
  cases hwaits

theorem FairRun.unique_returns (h : FairRun run) (hold : (run.state n).calls[index]? = some place)
    (hunique : place.unique = true) : Returns run index n := by
  have hkind := CallPlace.kind_of_unique hunique
  by_cases hphase : 2 ≤ place.phase
  · exact h.replace_returns hold hkind hphase
  · have hawaits := CallPlace.awaits_of_unique hunique (not_le.mp hphase)
    refine h.awaiting_returns hold hawaits fun hnever => ⟨n, ?_⟩
    rintro m hm ⟨other, io, record, journal, -, hother, -⟩
    obtain ⟨now, hnow, hstill, hsame⟩ := h.still_awaits hold hawaits hnever hm
    obtain rfl := (h.sane m).exclusive index other now _ hnow hother
      (CallPlace.unique_of_awaits hstill (hsame.trans hkind)) rfl
    obtain rfl : now = .appendHolds record := Option.some.inj (hnow.symm.trans hother)
    cases hstill

/-! ### Calls that are begun no more -/

theorem enter_kind (state : ThreadedJournal) (call : JournalCall) : (state.enter call).kind = call.kind := by
  cases call with
  | stop => rfl
  | _ =>
    dsimp only [enter]
    split_ifs <;> rfl

theorem step_new {event : ThreadEvent} (hbefore : state.calls[index]? = none)
    (hafter : (state.step event).calls[index]? = some place) :
    ∃ call, event = .call call ∧ place.kind = call.kind := by
  have hlength := List.getElem?_eq_none_iff.mp hbefore
  have hshort : (state.step event).calls.length ≤ state.calls.length → False := fun hshort => by
    rw [List.getElem?_eq_none_iff.mpr (hshort.trans hlength)] at hafter
    cases hafter
  cases event with
  | call call =>
    refine ⟨call, rfl, ?_⟩
    dsimp only [step] at hafter
    split at hafter
    · rw [hbefore] at hafter
      cases hafter
    · rw [List.getElem?_append_right hlength] at hafter
      obtain rfl := List.mem_singleton.mp (List.mem_of_getElem? hafter)
      exact state.enter_kind call
  | caller other io =>
    refine (hshort ?_).elim
    dsimp only [step, callerStep]
    split
    · exact le_rfl
    · next after new hact =>
      obtain ⟨old, -, hact⟩ := Option.bind_eq_some_iff.mp hact
      rw [List.length_set, (act_forward hact).calls]
  | writer io =>
    refine (hshort ?_).elim
    dsimp only [step]
    rcases state.writerStep_calls io with hsame | hwoken
    · rw [hsame]
    · rw [hwoken, List.length_map]
  | wakeCaller other =>
    refine (hshort ?_).elim
    dsimp only [step, wakeCaller]
    split
    · exact le_rfl
    · rw [List.length_set]
  | wakeWriter => exact (hshort le_rfl).elim

/-- From `n` on no call is begun that competes with one of this kind. -/
def QuietFrom (run : machine.Run) (kind : CallKind) (n : ℕ) : Prop :=
  ∀ m, n ≤ m → ∀ call, run.event m = .call call → call.kind.competes kind = false

theorem QuietFrom.begun_before (h : QuietFrom run kind n) (hm : n ≤ m)
    (hold : (run.state m).calls[index]? = some place) (hcompetes : place.kind.competes kind = true) :
    index < (run.state n).calls.length := by
  have hbegun := run.stays (P := fun state => ∀ (index : ℕ) (place : CallPlace), state.calls[index]? = some place →
    place.kind.competes kind = true → index < (run.state n).calls.length)
    (fun index place hold _ => (List.getElem?_eq_some_iff.mp hold).1) ?_ hm
  · exact hbegun index place hold hcompetes
  · intro m hm ih index place hold hcompetes
    rw [run_step] at hold
    cases hbefore : (run.state m).calls[index]? with
    | none =>
      obtain ⟨call, hevent, hkind⟩ := step_new hbefore hold
      rw [hkind, h m hm call hevent] at hcompetes
      cases hcompetes
    | some old =>
      obtain ⟨new, hnew, hkind, -⟩ := step_forward hbefore (run.event m)
      obtain rfl : new = place := Option.some.inj (hnew.symm.trans hold)
      rw [hkind] at hcompetes
      exact ih index old hbefore hcompetes

theorem QuietFrom.seen_no_more (h : QuietFrom run kind n) {φ : CallPlace → Bool}
    (hcompetes : ∀ place, φ place = true → place.kind.competes kind = true)
    (hgoing : ∀ place, φ place = true → place.returned = false)
    (hreturns : ∀ m index place, n ≤ m → (run.state m).calls[index]? = some place → φ place = true →
      Returns run index m) : ∃ k, n ≤ k ∧ ∀ m, k ≤ m → ∀ place ∈ (run.state m).calls, φ place = false := by
  have heach : ∀ index, index < (run.state n).calls.length → ∃ k, ∀ m, k ≤ m →
      ∀ place, (run.state m).calls[index]? = some place → φ place = false := by
    intro index _
    by_cases hseen : ∃ m place, n ≤ m ∧ (run.state m).calls[index]? = some place ∧ φ place = true
    · obtain ⟨m, place, hm, hold, hφ⟩ := hseen
      obtain ⟨k, -, last, hlast, hreturned⟩ := hreturns m index place hm hold hφ
      refine ⟨k, fun later hlater now hnow => ?_⟩
      obtain ⟨new, hnew, -, -, hsame⟩ := run_forward hlast hlater
      obtain rfl : new = now := Option.some.inj (hnew.symm.trans hnow)
      obtain rfl := hsame hreturned
      by_contra hyes
      rw [hgoing new (by simpa using hyes)] at hreturned
      cases hreturned
    · refine ⟨n, fun m hm place hold => ?_⟩
      by_contra hyes
      exact hseen ⟨m, place, hm, hold, by simpa using hyes⟩
  obtain ⟨k, hk, hrest⟩ := rest_together (n := n) heach
  refine ⟨k, hk, fun m hm place hplace => ?_⟩
  obtain ⟨index, hold⟩ := List.mem_iff_getElem?.mp hplace
  by_contra hyes
  have hφ : φ place = true := by simpa using hyes
  exact hyes (hrest index (h.begun_before (hk.trans hm) hold (hcompetes place hφ)) m hm place hold)

theorem FairRun.unlocked (h : FairRun run) (hquiet : QuietFrom run kind n) :
    ∃ k, n ≤ k ∧ ∀ m, k ≤ m → ∀ place ∈ (run.state m).calls, place.unique = false := by
  refine hquiet.seen_no_more ?_ ?_ fun m index place _ hold hunique => h.unique_returns hold hunique
  · intro place hunique
    rw [CallPlace.kind_of_unique hunique]
    rfl
  · intro place hunique
    cases place <;> first | rfl | cases hunique

theorem QuietFrom.enqueued (hquiet : QuietFrom run .flush n ∨ QuietFrom run .compact n) :
    ∃ k, n ≤ k ∧ ∀ m, k ≤ m → ¬ (run.state m).Enqueues (run.event m) := by
  have heach : ∀ index, index < (run.state n).calls.length → ∃ k, ∀ m, k ≤ m → ∀ io record journal,
      run.event m = .caller index io → (run.state m).calls[index]? = some (.appendHolds record) →
        (run.state m).journal.append record.kind record.ordinal record.body ≠ .ok journal := by
    intro index _
    by_cases hseen : ∃ m io record journal, run.event m = .caller index io ∧
        (run.state m).calls[index]? = some (.appendHolds record) ∧
        (run.state m).journal.append record.kind record.ordinal record.body = .ok journal
    · obtain ⟨m, io, record, journal, hevent, hold, happend⟩ := hseen
      have hnext : (run.state (m + 1)).calls[index]? = some .appendNotifies := by
        rw [run_step, hevent]
        refine (step_own hold rfl).trans ?_
        rw [appendSection, happend]
      refine ⟨m + 1, fun later hlater io record journal _ hnow _ => ?_⟩
      obtain ⟨new, hnew, -, hphase, -⟩ := run_forward hnext hlater
      obtain rfl : new = .appendHolds record := Option.some.inj (hnew.symm.trans hnow)
      exact absurd hphase (by simp [CallPlace.phase])
    · exact ⟨0, fun m _ io record journal hevent hold happend => hseen ⟨m, io, record, journal, hevent, hold, happend⟩⟩
  obtain ⟨k, hk, hrest⟩ := rest_together (n := n) heach
  refine ⟨k, hk, ?_⟩
  rintro m hm ⟨index, io, record, journal, hevent, hold, happend⟩
  have hbefore : index < (run.state n).calls.length := by
    rcases hquiet with hquiet | hquiet
    · exact hquiet.begun_before (hk.trans hm) hold rfl
    · exact hquiet.begun_before (hk.trans hm) hold rfl
  exact hrest index hbefore m hm io record journal hevent hold happend

/-! ### Calls that wait for a lock -/

theorem FairRun.append_total (h : FairRun run) (hold : (run.state n).calls[index]? = some place)
    (hkind : place.kind = .append) (hquiet : QuietFrom run .append k) : Returns run index n := by
  obtain ⟨last, -, hfree⟩ := h.unlocked hquiet
  obtain ⟨now, hnow, hsame, -⟩ := run_forward hold (le_max_left n last)
  refine Returns.mono ?_ (le_max_left n last)
  rw [hkind] at hsame
  cases now with
  | appendWaits record =>
    refine h.returns_behind hnow rfl fun m hm _ => ⟨_, if_neg ?_, fun _ hnext => h.append_returns hnext rfl rfl⟩
    simpa using hfree m ((le_max_right n last).trans hm)
  | appendHolds record => exact h.append_returns hnow rfl rfl
  | appendNotifies => exact h.append_returns hnow rfl rfl
  | appended answer => exact returns_here hnow rfl
  | _ => cases hsame

theorem FairRun.flush_total (h : FairRun run) (hold : (run.state n).calls[index]? = some place)
    (hkind : place.kind = .flush) (hquiet : QuietFrom run .flush k) : Returns run index n := by
  obtain ⟨last, -, hfree⟩ := h.unlocked hquiet
  obtain ⟨rest, -, hrest⟩ := QuietFrom.enqueued (.inl hquiet)
  obtain ⟨now, hnow, hsame, -⟩ := run_forward hold (le_max_left n last)
  refine Returns.mono ?_ (le_max_left n last)
  rw [hkind] at hsame
  cases now with
  | flushWaits before =>
    refine h.returns_behind hnow rfl fun m hm _ =>
      ⟨_, if_neg ?_, fun _ hnext => h.awaiting_returns hnext rfl fun _ => ⟨rest, hrest⟩⟩
    simpa using hfree m ((le_max_right n last).trans hm)
  | flushTests before => exact h.awaiting_returns hnow rfl fun _ => ⟨rest, hrest⟩
  | flushSleeps before => exact h.awaiting_returns hnow rfl fun _ => ⟨rest, hrest⟩
  | flushed before answer => exact returns_here hnow rfl
  | _ => cases hsame

theorem FairRun.released (h : FairRun run) (hquiet : QuietFrom run .compact n) :
    ∃ k, n ≤ k ∧ ∀ m, k ≤ m → ∀ place ∈ (run.state m).calls, place.holds = false := by
  obtain ⟨rest, -, hrest⟩ := QuietFrom.enqueued (.inr hquiet)
  refine hquiet.seen_no_more ?_ ?_ ?_
  · intro place hholds
    cases place <;> first | rfl | cases hholds
  · intro place hholds
    cases place <;> first | rfl | cases hholds
  · intro m index place _ hold hholds
    cases hkind : place.kind with
    | append => exact h.append_returns hold hkind hholds
    | flush =>
      have hawaits : place.awaits = true := by
        cases place <;> simp_all [CallPlace.awaits, CallPlace.kind, CallPlace.holds, CallPlace.unique, CallPlace.shared]
      exact h.awaiting_returns hold hawaits fun _ => ⟨rest, hrest⟩
    | compact =>
      have hunique : place.unique = true := by
        cases place <;> simp_all [CallPlace.kind, CallPlace.holds, CallPlace.unique, CallPlace.shared]
      exact h.unique_returns hold hunique
    | stop =>
      cases place <;> simp_all [CallPlace.kind, CallPlace.holds, CallPlace.unique, CallPlace.shared]

theorem FairRun.compact_total (h : FairRun run) (hold : (run.state n).calls[index]? = some place)
    (hkind : place.kind = .compact) (hquiet : QuietFrom run .compact k) : Returns run index n := by
  obtain ⟨last, -, hfree⟩ := h.released hquiet
  obtain ⟨now, hnow, hsame, -⟩ := run_forward hold (le_max_left n last)
  refine Returns.mono ?_ (le_max_left n last)
  rw [hkind] at hsame
  by_cases hunique : now.unique = true
  · exact h.unique_returns hnow hunique
  · cases now with
    | compactWaits snapshot =>
      refine h.returns_behind hnow rfl fun m hm _ => ⟨_, if_neg ?_, fun _ hnext => h.unique_returns hnext rfl⟩
      simpa [CallPlace.holds] using hfree m ((le_max_right n last).trans hm)
    | compacted answer => exact returns_here hnow rfl
    | _ => first | exact absurd rfl hunique | cases hsame

/-! ### `stop` -/

/-- The steps that are left to a writer with nothing to write. -/
def leavesIn : WriterPlace → ℕ
  | .leaving => 3
  | .failing _ => 2
  | .closing => 1
  | .ended => 0
  | _ => 4

theorem writerStep_leaves (h : state.Core) (io : ThreadIo) (hwork : state.work = 0) (hpaused : state.paused = false)
    (hstop : state.journal.stopping = true) (hawake : state.writer ≠ .asleep) (hended : state.writer ≠ .ended) :
    leavesIn (state.writerStep io).writer < leavesIn state.writer := by
  have hidle := idle_of_work h hwork
  have hwanted : state.journal.Wanted false := .inr (.inl hstop)
  cases hwriter : state.writer with
  | ready =>
    have hstep : state.writerStep io = { state with writer := .leaving } := by
      simp [writerStep, hwriter, writerTest, hwanted, hpaused, hidle.1, hstop]
    rw [hstep]
    simp [leavesIn]
  | asleep => exact absurd hwriter hawake
  | taken =>
    rw [work, hwriter] at hwork
    exact absurd hwork (by simp)
  | wrote result =>
    rw [work, hwriter] at hwork
    exact absurd hwork (by simp)
  | leaving =>
    simp only [writerStep, hwriter, writerSync]
    split <;> simp [leavesIn]
  | failing status => simp [writerStep, hwriter, leavesIn]
  | closing => simp [writerStep, hwriter, leavesIn, notifyIdle]
  | ended => exact absurd hwriter hended

theorem FairRun.writer_ends (h : FairRun run) (hstop : ∀ m, n ≤ m → (run.state m).journal.stopping = true)
    (hawake : ∀ m, n ≤ m → (run.state m).writer ≠ .asleep) (hpaused : ∀ m, n ≤ m → (run.state m).paused = false) :
    ∃ m, n ≤ m ∧ (run.state m).writer = .ended := by
  by_contra hnever
  have hended : ∀ m, n ≤ m → (run.state m).writer ≠ .ended := fun m hm hend => hnever ⟨m, hm, hend⟩
  have hquiet : ∀ m, n ≤ m → ¬ (run.state m).Enqueues (run.event m) := by
    rintro m hm ⟨_, _, _, _, -, -, happend⟩
    have haccepting := (append_eq_ok.mp happend).2.2.2.1
    rw [(h.sane m).core.stopping (hstop m hm)] at haccepting
    cases haccepting
  obtain ⟨k, hk, hwork⟩ := h.comes_idle hquiet hpaused
  have hfalls : ∀ m, k ≤ m → leavesIn (run.state (m + 1)).writer ≤ leavesIn (run.state m).writer := by
    intro m hm
    have hn := hk.trans hm
    rw [run_step]
    by_cases hacts : (run.event m).Acts .writer
    · cases hevent : run.event m with
      | writer io =>
        exact (writerStep_leaves (h.sane m).core io (hwork m hm) (hpaused m hn) (hstop m hn) (hawake m hn)
          (hended m hn)).le
      | _ => rw [hevent] at hacts; cases hacts
    · rw [step_writer hacts (hawake m hn)]
  obtain ⟨last, hlast, hrest⟩ : ∃ last, k ≤ last ∧
      ∀ m, last ≤ m → leavesIn (run.state m).writer = leavesIn (run.state last).writer :=
    comes_to_rest (f := fun m => leavesIn (run.state m).writer) hfalls
  obtain ⟨m, hm, hacts⟩ := h.fair .writer last fun m hm =>
    ⟨hawake m (hk.trans (hlast.trans hm)), hended m (hk.trans (hlast.trans hm))⟩
  have hn := hk.trans (hlast.trans hm)
  cases hevent : run.event m with
  | writer io =>
    have hless := writerStep_leaves (h.sane m).core io (hwork m (hlast.trans hm)) (hpaused m hn) (hstop m hn)
      (hawake m hn) (hended m hn)
    have hnext := hrest (m + 1) (Nat.le_succ_of_le hm)
    rw [run_step, hevent] at hnext
    rw [hrest m hm] at hless
    exact hless.ne hnext
  | _ => rw [hevent] at hacts; cases hacts

theorem step_ended (h : state.writer = .ended) (event : ThreadEvent) : (state.step event).writer = .ended := by
  by_cases hacts : event.Acts .writer
  · cases event with
    | writer io =>
      dsimp only [step]
      simp [writerStep, h]
    | _ => cases hacts
  · rw [step_writer hacts (by simp [h])]
    exact h

theorem FairRun.close_returns (h : FairRun run) (hold : (run.state n).calls[index]? = some .stopCloses) :
    Returns run index n :=
  h.returns_behind hold rfl fun _ _ _ => ⟨_, rfl, fun _ hnext => returns_here hnext rfl⟩

theorem FairRun.join_returns (h : FairRun run) (hold : (run.state n).calls[index]? = some .stopJoins)
    (hquiet : QuietFrom run .stop k) : Returns run index n := by
  by_contra hnever
  have hjoins : ∀ m, n ≤ m → (run.state m).calls[index]? = some .stopJoins := by
    intro m hm
    obtain ⟨now, hnow, hkind, hphase, -⟩ := run_forward hold hm
    have hgoing := going_of_never hnever hm hnow
    cases now with
    | stopJoins => exact hnow
    | stopCloses => exact absurd ((h.close_returns hnow).mono hm) hnever
    | stopped answer => cases hgoing
    | stopMarks => exact absurd hphase (by simp [CallPlace.phase])
    | stopNotifies join => exact absurd hphase (by simp [CallPlace.phase])
    | _ => cases hkind
  have hok : ∀ m, n ≤ m → (run.state m).PlaceOk .stopJoins := fun m hm =>
    (h.sane m).places _ (List.mem_of_getElem? (hjoins m hm))
  obtain ⟨last, -, hfree⟩ := h.unlocked hquiet
  obtain ⟨m, hm, hended⟩ := h.writer_ends (n := max n last) (fun m hm => (hok m ((le_max_left n last).trans hm)).1)
    (fun m hm => (hok m ((le_max_left n last).trans hm)).2) (fun m hm => by
      by_contra hon
      obtain ⟨pauser, hpauser, hpauses⟩ := (h.sane m).paused (by simpa using hon)
      have hunique := CallPlace.unique_of_pauses hpauses
      rw [hfree m ((le_max_right n last).trans hm) pauser hpauser] at hunique
      cases hunique)
  have hafter := (le_max_left n last).trans hm
  have hstays : ∀ k, m ≤ k → (run.state k).writer = .ended := fun k hk =>
    run.stays (P := fun state => state.writer = .ended) hended
      (fun k _ hend => by rw [run_step]; exact step_ended hend _) hk
  obtain ⟨k, io, result, hk, -, hact, hnext, -⟩ := h.leaves (hjoins m hafter) rfl fun k hk _ => by
    simp [act, hstays k hk]
  have hstill := hjoins (k + 1) (hafter.trans (Nat.le_succ_of_le hk))
  rw [hnext] at hstill
  dsimp only [act] at hact
  split at hact <;> cases hact
  cases hstill

theorem FairRun.stop_total (h : FairRun run) (hold : (run.state n).calls[index]? = some place)
    (hkind : place.kind = .stop) (hquiet : QuietFrom run .stop k) : Returns run index n := by
  have hnotifies : ∀ join n, (run.state n).calls[index]? = some (.stopNotifies join) → Returns run index n := by
    intro join n hold
    refine h.returns_behind hold rfl fun _ _ _ => ⟨_, rfl, fun k hnext => ?_⟩
    cases join with
    | true => exact h.join_returns hnext hquiet
    | false => exact h.close_returns hnext
  cases place with
  | stopMarks => exact h.returns_behind hold rfl fun _ _ _ => ⟨_, rfl, hnotifies _⟩
  | stopNotifies join => exact hnotifies join n hold
  | stopJoins => exact h.join_returns hold hquiet
  | stopCloses => exact h.close_returns hold
  | stopped answer => exact returns_here hold rfl
  | _ => cases hkind

/-- A call returns unless calls that compete with it are begun again and again while it waits, and once `stop` has
returned the writer has ended with an empty queue. -/
theorem calls_return (io : StartIo) (config : JournalConfig) (disk : Disk) (epoch : UInt64) (wallNanos : Int64)
    (journal : BackgroundJournal) (hstart : BackgroundJournal.start io config disk epoch wallNanos = .ok journal)
    (run : machine.Run) (hfirst : run.state 0 = start journal) (hfair : run.Fair ThreadEvent.Acts Enabled) (index n : ℕ)
    (place : CallPlace) (hold : (run.state n).calls[index]? = some place)
    (hquiet : ∃ k, ∀ m, k ≤ m → ∀ last, (run.state m).calls[index]? = some last → last.returned = false →
      ∀ call, run.event m = .call call → call.kind.competes place.kind = false) :
    ∃ m, n ≤ m ∧ ∀ k, m ≤ k → ∃ last, (run.state k).calls[index]? = some last ∧ last.returned = true ∧
      (place.kind = .stop → (run.state k).writer = .ended ∧ (run.state k).journal.queue = []) := by
  have h := fairRun_of_start hstart hfirst hfair
  obtain ⟨k, hquiet⟩ := hquiet
  have hreturns : Returns run index n := by
    by_contra hnever
    have hquiet : QuietFrom run place.kind (max n k) := by
      intro m hm call hevent
      have hn := le_of_max_le_left hm
      obtain ⟨last, hlast, -⟩ := run_forward hold hn
      exact hquiet m (le_of_max_le_right hm) last hlast (going_of_never hnever hn hlast) call hevent
    apply hnever
    cases hkind : place.kind with
    | append => exact h.append_total hold hkind (hkind ▸ hquiet)
    | flush => exact h.flush_total hold hkind (hkind ▸ hquiet)
    | compact => exact h.compact_total hold hkind (hkind ▸ hquiet)
    | stop => exact h.stop_total hold hkind (hkind ▸ hquiet)
  obtain ⟨m, hm, last, hlast, hreturned⟩ := hreturns
  refine ⟨m, hm, fun k hk => ?_⟩
  obtain ⟨now, hnow, -, -, hsame⟩ := run_forward hlast hk
  obtain rfl := hsame hreturned
  refine ⟨now, hnow, hreturned, fun hstop => ?_⟩
  obtain ⟨other, hother, hkind, -⟩ := run_forward hold hm
  obtain rfl : other = now := Option.some.inj (hother.symm.trans hlast)
  have hok := (h.sane k).places other (List.mem_of_getElem? hnow)
  rw [hstop] at hkind
  cases other with
  | stopped answer => exact ⟨hok, ((h.sane k).core.idle hok).1⟩
  | stopMarks => cases hreturned
  | stopNotifies join => cases hreturned
  | stopJoins => cases hreturned
  | stopCloses => cases hreturned
  | _ => cases hkind

end Runs

/-! ## Two runs -/

def nextRecord (count : ℕ) : JournalRecord := ⟨.evidence, UInt64.ofNat count, []⟩

def appending (n : ℕ) : ThreadEvent :=
  [.call (.append (nextRecord 0)), .caller 0 {}, .caller 0 {}, .caller 0 {}].getD n (.writer {})

def appendingRun : machine.Run := machine.follow (start (started threadConfig (buildFileHeader 1 0))) appending

variable {n : ℕ} (count : ℕ) (contents : Bytes) (expected : Option UInt64) (accepted : List JournalRecord)

theorem appending_writer (h : 4 ≤ n) : appendingRun.event n = .writer {} := by
  show appending n = .writer {}
  rw [appending, List.getD_eq_default _ _ h]

theorem appending_state (h : 4 ≤ n) : (appendingRun.state n).calls = [.appended (.ok ())] := by
  refine appendingRun.stays (P := fun state => state.calls = [.appended (.ok ())]) (by decide +kernel) ?_ h
  intro m hm hcalls
  rw [run_step, appending_writer hm]
  rcases writerStep_calls (appendingRun.state m) {} with hsame | hwoken
  · exact hsame.trans hcalls
  · rw [hcalls] at hwoken
    exact hwoken

theorem appending_fair : appendingRun.Fair ThreadEvent.Acts Enabled := by
  intro actor n henabled
  rcases actor with _ | index
  · refine ⟨n + 4, by omega, ?_⟩
    rw [appending_writer (by omega)]
    trivial
  obtain ⟨place, hplace, hcan⟩ := henabled (n + 4) (by omega)
  rw [appending_state (by omega)] at hplace
  obtain rfl := List.mem_singleton.mp (List.mem_of_getElem? hplace)
  cases hcan

theorem one_append_returns :
    (appendingRun.state 1).calls[0]? = some (.appendWaits (nextRecord 0)) ∧
      ∃ m, 1 ≤ m ∧ ∀ k, m ≤ k → ∃ last, (appendingRun.state k).calls[0]? = some last ∧ last.returned = true ∧
        (CallKind.append = .stop → (appendingRun.state k).writer = .ended ∧ (appendingRun.state k).journal.queue = []) :=
  ⟨by decide +kernel, calls_return {} threadConfig ⟨none, none⟩ 1 0 (started threadConfig (buildFileHeader 1 0))
    (by decide +kernel) appendingRun rfl appending_fair 0 1 (.appendWaits (nextRecord 0)) (by decide +kernel)
    ⟨4, fun m hm _ _ _ call hcall => by rw [appending_writer hm] at hcall; cases hcall⟩⟩

def beginning : List ThreadEvent :=
  [.call (.append (nextRecord 0)), .caller 0 {}, .caller 0 {}, .caller 0 {}, .call .flush, .caller 1 {}, .caller 1 {}]

def turn (count : ℕ) : List ThreadEvent :=
  [.writer {}, .call (.append (nextRecord (count + 1))), .caller (count + 2) {}, .caller (count + 2) {},
    .caller (count + 2) {}, .writer {}, .writer {}, .caller 1 {}]

def busyState (journal : BackgroundJournal) (writer : WriterPlace) (flush : CallPlace) (later : List CallPlace)
    (accepted : List JournalRecord) : ThreadedJournal where
  journal := journal
  paused := false
  writer := writer
  joined := false
  calls := .appended (.ok ()) :: flush :: later
  opened := buildFileHeader 1 0
  accepted := accepted
  snapshot := none
  covered := 0

def busyJournal (contents : Bytes) (queue : List JournalRecord) (writing : Option JournalRecord) (last : ℕ)
    (expected : Option UInt64) : BackgroundJournal :=
  { started threadConfig contents with
    queue := queue, writing := writing, lastEnqueued := some (UInt64.ofNat last), expected := expected }

def turnState (count : ℕ) (contents : Bytes) (expected : Option UInt64) (accepted : List JournalRecord) :
    ThreadedJournal :=
  busyState (busyJournal contents [nextRecord count] none count expected) .ready (.flushSleeps 1)
    (List.replicate count (.appended (.ok ()))) accepted

theorem append_next (writing : Option JournalRecord) (expected : Option UInt64) :
    (busyJournal contents [] writing count expected).append (nextRecord (count + 1)).kind
        (nextRecord (count + 1)).ordinal (nextRecord (count + 1)).body =
      .ok (busyJournal contents [nextRecord (count + 1)] writing (count + 1) expected) := by
  refine append_eq_ok.mpr ⟨rfl, Nat.zero_le _, rfl, rfl, rfl, show 0 < 8192 by decide, ?_, rfl⟩
  intro last hlast
  obtain rfl := Option.some.inj hlast
  show UInt64.ofNat (count + 1) = UInt64.ofNat count + 1
  rw [UInt64.ofNat_add]
  rfl

/-- The append begun last stands at `place`, and those before it have returned. -/
def lastAt (journal : BackgroundJournal) (count : ℕ) (place : CallPlace) (accepted : List JournalRecord) :
    ThreadedJournal :=
  busyState journal .taken (.flushSleeps 1) (List.replicate count (.appended (.ok ())) ++ [place]) accepted

theorem step_last {journal after : BackgroundJournal} {accepted more : List JournalRecord} {old new : CallPlace}
    (hact : (lastAt journal count old accepted).act {} old = some (lastAt after count old more, new)) :
    (lastAt journal count old accepted).step (.caller (count + 2) {}) = lastAt after count new more := by
  have hold : (lastAt journal count old accepted).calls[count + 2]? = some old := by
    simp [lastAt, busyState]
  simp only [step, callerStep, hold, Option.bind_some, hact]
  simp [lastAt, busyState]

theorem final_append {journal after : BackgroundJournal} {record : JournalRecord} {before : ThreadedJournal}
    (hcall : before.step (.call (.append record)) = lastAt journal count (.appendWaits record) accepted)
    (happend : journal.append record.kind record.ordinal record.body = .ok after) : machine.final before
        [.call (.append record), .caller (count + 2) {}, .caller (count + 2) {}, .caller (count + 2) {}] =
      lastAt after count (.appended (.ok ())) (accepted ++ [record]) := by
  have hlock : (lastAt journal count (.appendWaits record) accepted).step (.caller (count + 2) {}) =
      lastAt journal count (.appendHolds record) accepted :=
    step_last count (by rw [act, if_neg (by simp [lastAt, busyState, CallPlace.unique])])
  have henqueue : (lastAt journal count (.appendHolds record) accepted).step (.caller (count + 2) {}) =
      lastAt after count .appendNotifies (accepted ++ [record]) :=
    step_last count (by simp only [act, appendSection, lastAt, busyState, happend])
  have hnotify : (lastAt after count .appendNotifies (accepted ++ [record])).step (.caller (count + 2) {}) =
      lastAt after count (.appended (.ok ())) (accepted ++ [record]) := step_last count rfl
  simp only [machine, Machine.final]
  rw [hcall, hlock, henqueue, hnotify]

theorem final_turn : machine.final (turnState count contents expected accepted) (turn count) =
      turnState (count + 1) (contents ++ encodeRecordBytes (nextRecord count)) (some (UInt64.ofNat count + 1))
        (accepted ++ [nextRecord (count + 1)]) := by
  have happend := @final_append count accepted _ _ _ ((turnState count contents expected accepted).step (.writer {})) rfl
    (append_next count contents (some (nextRecord count)) expected)
  rw [lastAt, ← List.replicate_succ'] at happend
  have hwrite : ∀ later more, (busyState (busyJournal contents [nextRecord (count + 1)] (some (nextRecord count))
        (count + 1) expected) .taken (.flushSleeps 1) later more).step (.writer {}) =
      busyState (busyJournal (contents ++ encodeRecordBytes (nextRecord count)) [nextRecord (count + 1)]
        (some (nextRecord count)) (count + 1) expected) (.wrote (.ok ())) (.flushSleeps 1) later more := by
    intro later more
    simp [step, writerStep, writerWrite, busyState, busyJournal, started, putBytes, writeAt_end]
  have hbook : ∀ contents more, (busyState (busyJournal contents [nextRecord (count + 1)] (some (nextRecord count))
        (count + 1) expected) (.wrote (.ok ())) (.flushSleeps 1) (List.replicate (count + 1) (.appended (.ok ())))
        more).step (.writer {}) =
      busyState (busyJournal contents [nextRecord (count + 1)] none (count + 1) (some (UInt64.ofNat count + 1))) .ready
        (.flushTests 1) (List.replicate (count + 1) (.appended (.ok ()))) more := by
    intro contents more
    simp [step, writerStep, writerBook, busyState, busyJournal, started, bookWritten, notifyIdle, CallPlace.wake,
      nextRecord]
  have htest : ∀ contents later more, (busyState (busyJournal contents [nextRecord (count + 1)] none (count + 1)
        (some (UInt64.ofNat count + 1))) .ready (.flushTests 1) later more).step (.caller 1 {}) =
      busyState (busyJournal contents [nextRecord (count + 1)] none (count + 1) (some (UInt64.ofNat count + 1))) .ready
        (.flushSleeps 1) later more := fun _ _ _ => rfl
  have hsplit : turn count = .writer {} :: ([.call (.append (nextRecord (count + 1))), .caller (count + 2) {},
      .caller (count + 2) {}, .caller (count + 2) {}] ++ [.writer {}, .writer {}, .caller 1 {}]) := rfl
  rw [hsplit, Machine.final, Machine.final_append]
  refine (congrArg (machine.final · _) happend).trans ?_
  simp only [machine, Machine.final]
  rw [hwrite, hbook, htest]
  rfl

def starving (n : ℕ) : ThreadEvent :=
  if n < 7 then beginning.getD n .wakeWriter else (turn ((n - 7) / 8)).getD ((n - 7) % 8) .wakeWriter

def starvingRun : machine.Run := machine.follow (start (started threadConfig (buildFileHeader 1 0))) starving

theorem starving_turn {count i : ℕ} {event : ThreadEvent} (h : (turn count)[i]? = some event) :
    starvingRun.event (7 + 8 * count + i) = event := by
  have hi : i < 8 := (List.getElem?_eq_some_iff.mp h).1
  show starving (7 + 8 * count + i) = event
  rw [starving, if_neg (by omega), show (7 + 8 * count + i - 7) / 8 = count by omega,
    show (7 + 8 * count + i - 7) % 8 = i by omega, List.getD_eq_getElem?_getD, h]
  rfl

theorem starving_state :
    ∃ contents expected accepted, starvingRun.state (7 + 8 * count) = turnState count contents expected accepted := by
  induction count with
  | zero =>
    refine ⟨buildFileHeader 1 0, none, [nextRecord 0], ?_⟩
    have hbegin : starvingRun.state (0 + 7) = machine.final (starvingRun.state 0) beginning := by
      refine starvingRun.state_add 0 beginning fun i event h => ?_
      have hi : i < 7 := (List.getElem?_eq_some_iff.mp h).1
      show starving (0 + i) = event
      rw [Nat.zero_add, starving, if_pos hi, List.getD_eq_getElem?_getD, h]
      rfl
    exact hbegin.trans (by decide +kernel)
  | succ count ih =>
    obtain ⟨contents, expected, accepted, hstate⟩ := ih
    have hturn := starvingRun.state_add (7 + 8 * count) (turn count) fun i event h => starving_turn h
    rw [hstate, final_turn] at hturn
    exact ⟨_, _, _, hturn⟩

theorem starving_fair : starvingRun.Fair ThreadEvent.Acts Enabled := by
  intro actor n henabled
  rcases actor with _ | index
  · have hevent : starvingRun.event (7 + 8 * n + 0) = .writer {} := starving_turn rfl
    refine ⟨7 + 8 * n + 0, by omega, ?_⟩
    rw [hevent]
    trivial
  by_cases hflush : index = 1
  · have hevent : starvingRun.event (7 + 8 * n + 7) = .caller 1 {} := starving_turn rfl
    refine ⟨7 + 8 * n + 7, by omega, ?_⟩
    rw [hevent]
    exact hflush.symm
  -- every other call is an append, and it has returned once the turns have come to its number
  obtain ⟨contents, expected, accepted, hstate⟩ := starving_state (n + index)
  obtain ⟨place, hplace, hcan⟩ := henabled (7 + 8 * (n + index)) (by omega)
  rw [hstate] at hplace
  obtain rfl : place = .appended (.ok ()) := by
    match index with
    | 0 => exact (Option.some.inj hplace).symm
    | later + 2 => exact List.eq_of_mem_replicate (List.mem_of_getElem? hplace)
  cases hcan

/-- A flush that never returns, though every thread takes its steps: each time it looks at the queue, the next record
is there. -/
theorem flush_starved :
    ∃ run : machine.Run, (∃ journal, BackgroundJournal.start {} threadConfig ⟨none, none⟩ 1 0 = .ok journal ∧
        run.state 0 = start journal) ∧
      run.Fair ThreadEvent.Acts Enabled ∧ (run.state 5).calls[1]? = some (.flushWaits 1) ∧
      ∀ n place, (run.state n).calls[1]? = some place → place.returned = false := by
  refine ⟨starvingRun, ⟨started threadConfig (buildFileHeader 1 0), by decide +kernel, rfl⟩, starving_fair,
    by decide +kernel, fun n place hplace => ?_⟩
  obtain ⟨contents, expected, accepted, hstate⟩ := starving_state n
  obtain ⟨new, hnew, -, -, hsame⟩ := run_forward hplace (show n ≤ 7 + 8 * n by omega)
  rw [hstate] at hnew
  obtain rfl := Option.some.inj hnew
  cases hreturned : place.returned with
  | false => rfl
  | true =>
    rw [← hsame hreturned] at hreturned
    cases hreturned

end Lqf.ThreadedJournal
