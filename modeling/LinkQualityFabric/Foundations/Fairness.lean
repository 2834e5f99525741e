import LinkQualityFabric.Foundations.Run

/-! Infinite runs of a machine and weak fairness.

An actor of a run takes the steps of its events. A run is weakly fair when an actor that can act from some moment
on acts again. The progress rule follows an actor through a condition that only its own steps end; the other
rules turn quantities that only fall, and finitely many things that each come to rest, into a moment from which
on nothing of it changes. -/
namespace Foundations
set_option autoImplicit false

variable {State Event Answer Actor : Type}

structure Machine.Run (M : Machine State Event Answer) where
  state : ℕ → State
  event : ℕ → Event
  step : ∀ n, state (n + 1) = (M.step (state n) (event n)).2

def Machine.follow (M : Machine State Event Answer) (start : State) (event : ℕ → Event) : M.Run where
  state n := Nat.rec start (fun n state => (M.step state (event n)).2) n
  event := event
  step _ := rfl

namespace Machine.Run
variable {M : Machine State Event Answer} (run : M.Run)

/-- Weak fairness towards every actor. -/
def Fair (acts : Event → Actor → Prop) (enabled : State → Actor → Prop) : Prop :=
  ∀ actor n, (∀ m, n ≤ m → enabled (run.state m) actor) → ∃ m, n ≤ m ∧ acts (run.event m) actor

variable {P : State → Prop}

theorem invariant (hstart : P (run.state 0)) (hstep : ∀ state event, P state → P (M.step state event).2) (n : ℕ) :
    P (run.state n) := by
  induction n with
  | zero => exact hstart
  | succ n ih =>
    rw [run.step]
    exact hstep _ _ ih

theorem state_add (n : ℕ) (events : List Event) (h : ∀ i event, events[i]? = some event → run.event (n + i) = event) :
    run.state (n + events.length) = M.final (run.state n) events := by
  induction events generalizing n with
  | nil => rfl
  | cons event rest ih =>
    have hlater := ih (n + 1) fun i other hother => by
      rw [Nat.add_right_comm]
      exact h (i + 1) other hother
    have hlength : n + (event :: rest).length = n + 1 + rest.length := by
      rw [List.length_cons]
      omega
    rw [hlength, hlater, run.step, show run.event n = event from h 0 event rfl]
    rfl

theorem stays {n : ℕ} (hstart : P (run.state n)) (hstep : ∀ m, n ≤ m → P (run.state m) → P (run.state (m + 1)))
    {m : ℕ} (hm : n ≤ m) : P (run.state m) := by
  induction m, hm using Nat.le_induction with
  | base => exact hstart
  | succ m hm ih => exact hstep m hm ih

/-- The progress rule: an actor that can act as long as `P` holds, which no other step ends, acts in `P`. -/
theorem acts_of_fair {acts : Event → Actor → Prop} {enabled : State → Actor → Prop} (hfair : run.Fair acts enabled)
    (actor : Actor) {n : ℕ} (hstart : P (run.state n))
    (henabled : ∀ m, n ≤ m → P (run.state m) → enabled (run.state m) actor)
    (hkeep : ∀ m, n ≤ m → P (run.state m) → ¬ acts (run.event m) actor → P (run.state (m + 1))) :
    ∃ m, n ≤ m ∧ P (run.state m) ∧ acts (run.event m) actor := by
  by_contra hnever
  have hnone : ∀ m, n ≤ m → P (run.state m) → ¬ acts (run.event m) actor :=
    fun m hm hP hacts => hnever ⟨m, hm, hP, hacts⟩
  have hP : ∀ m, n ≤ m → P (run.state m) := fun m hm =>
    run.stays hstart (fun k hk hPk => hkeep k hk hPk (hnone k hk hPk)) hm
  obtain ⟨m, hm, hacts⟩ := hfair actor n fun m hm => henabled m hm (hP m hm)
  exact hnone m hm (hP m hm) hacts

end Machine.Run

theorem comes_to_rest {f : ℕ → ℕ} {n : ℕ} (hfalls : ∀ m, n ≤ m → f (m + 1) ≤ f m) :
    ∃ k, n ≤ k ∧ ∀ m, k ≤ m → f m = f k := by
  obtain ⟨k, hk, hleast⟩ : ∃ k, n ≤ k ∧ ∀ m, n ≤ m → f k ≤ f m := by
    obtain ⟨k, hk, hmin⟩ := WellFounded.has_min (measure f).wf { m | n ≤ m } ⟨n, Nat.le_refl n⟩
    exact ⟨k, hk, fun m hm => not_lt.mp (hmin m hm)⟩
  refine ⟨k, hk, fun m hm => le_antisymm ?_ (hleast m (hk.trans hm))⟩
  induction m, hm using Nat.le_induction with
  | base => exact le_rfl
  | succ m hm ih => exact (hfalls m (hk.trans hm)).trans ih

theorem rest_together {P : ℕ → ℕ → Prop} {count n : ℕ} (h : ∀ i, i < count → ∃ k, ∀ m, k ≤ m → P i m) :
    ∃ k, n ≤ k ∧ ∀ i, i < count → ∀ m, k ≤ m → P i m := by
  induction count with
  | zero => exact ⟨n, le_rfl, fun i hi => absurd hi (Nat.not_lt_zero i)⟩
  | succ count ih =>
    obtain ⟨first, hfirst, hearlier⟩ := ih fun i hi => h i (Nat.lt_succ_of_lt hi)
    obtain ⟨second, hlast⟩ := h count (Nat.lt_succ_self count)
    refine ⟨max first second, hfirst.trans (le_max_left _ _), fun i hi m hm => ?_⟩
    rcases Nat.lt_succ_iff_lt_or_eq.mp hi with hless | rfl
    · exact hearlier i hless m ((le_max_left _ _).trans hm)
    · exact hlast m ((le_max_right _ _).trans hm)

end Foundations
