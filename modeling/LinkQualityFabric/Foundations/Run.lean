import Mathlib

/-! Runs of a deterministic machine that answers every event.

A machine takes a state and an event to an answer and a next state. A run is a list of events; its
trace pairs every event with the answer it got. The rules below are the inductions every property of
runs is proved by: an invariant of the state, an invariant that also speaks about the trace so far,
and a simulation between two machines that take the same events. -/
namespace Foundations
set_option autoImplicit false

structure Machine (State Event Answer : Type) where
  step : State → Event → Answer × State

namespace Machine
variable {State Event Answer : Type} (M : Machine State Event Answer)

def final : State → List Event → State
  | state, [] => state
  | state, event :: rest => final (M.step state event).2 rest

/-- Every event of a run with the answer it got. -/
def trace : State → List Event → List (Event × Answer)
  | _, [] => []
  | state, event :: rest => (event, (M.step state event).1) :: trace (M.step state event).2 rest

/-- Every step of the run is taken in a state that meets `condition` for its event. -/
def Meets (condition : State → Event → Prop) : State → List Event → Prop
  | _, [] => True
  | state, event :: rest => condition state event ∧ Meets condition (M.step state event).2 rest

instance decidableMeets (condition : State → Event → Prop) [∀ state event, Decidable (condition state event)] :
    (state : State) → (events : List Event) → Decidable (M.Meets condition state events)
  | _, [] => .isTrue trivial
  | state, event :: rest =>
    have := decidableMeets condition (M.step state event).2 rest
    inferInstanceAs (Decidable (_ ∧ _))

variable (state : State) (event : Event) (rest before after : List Event) {events : List Event}
  {first second condition : State → Event → Prop} {P : State → Prop}

@[simp] theorem final_nil : M.final state [] = state := rfl

@[simp] theorem final_cons : M.final state (event :: rest) = M.final (M.step state event).2 rest := rfl

@[simp] theorem trace_nil : M.trace state [] = [] := rfl

@[simp] theorem trace_cons : M.trace state (event :: rest) =
      (event, (M.step state event).1) :: M.trace (M.step state event).2 rest := rfl

theorem final_append : M.final state (before ++ after) = M.final (M.final state before) after := by
  induction before generalizing state with
  | nil => rfl
  | cons event rest ih => simpa using ih _

theorem trace_append :
    M.trace state (before ++ after) = M.trace state before ++ M.trace (M.final state before) after := by
  induction before generalizing state with
  | nil => rfl
  | cons event rest ih => simpa using ih _

theorem map_fst_trace (events : List Event) : (M.trace state events).map Prod.fst = events := by
  induction events generalizing state with
  | nil => rfl
  | cons event rest ih => simp [ih]

theorem meets_of_forall {condition : Event → Prop} (h : ∀ event ∈ events, condition event) :
    M.Meets (fun _ event => condition event) state events := by
  induction events generalizing state with
  | nil => trivial
  | cons event rest ih =>
    exact ⟨h event List.mem_cons_self, ih _ (fun other hother => h other (List.mem_cons_of_mem _ hother))⟩

theorem meets_and {state : State} (hfirst : M.Meets first state events) (hsecond : M.Meets second state events) :
    M.Meets (fun state event => first state event ∧ second state event) state events := by
  induction events generalizing state with
  | nil => trivial
  | cons event rest ih => exact ⟨⟨hfirst.1, hsecond.1⟩, ih hfirst.2 hsecond.2⟩

theorem meets_append : M.Meets condition state (before ++ after) ↔
      M.Meets condition state before ∧ M.Meets condition (M.final state before) after := by
  induction before generalizing state with
  | nil => exact ⟨fun h => ⟨trivial, h⟩, fun h => h.2⟩
  | cons event rest ih =>
    refine (and_congr_right fun _ => ih _).trans ?_
    exact (and_assoc).symm

theorem meets_iff (hstep : ∀ state event, P state → (first state event ↔ second state event))
    (hnext : ∀ state event, P state → first state event → P (M.step state event).2) {state : State} (h0 : P state) :
    M.Meets first state events ↔ M.Meets second state events := by
  induction events generalizing state with
  | nil => exact Iff.rfl
  | cons event rest ih =>
    constructor
    · intro h
      exact ⟨(hstep state event h0).mp h.1, (ih (hnext state event h0 h.1)).mp h.2⟩
    · intro h
      have hfirst := (hstep state event h0).mpr h.1
      exact ⟨hfirst, (ih (hnext state event h0 hfirst)).mpr h.2⟩

/-- What holds of every answer under an invariant and a condition that keeps it holds along the trace. -/
theorem trace_of_meets {Q : Event → Answer → Prop}
    (hanswer : ∀ state event, P state → condition state event → Q event (M.step state event).1)
    (hnext : ∀ state event, P state → condition state event → P (M.step state event).2) {state : State}
    (h0 : P state) (hmeets : M.Meets condition state events) : ∀ entry ∈ M.trace state events, Q entry.1 entry.2 := by
  induction events generalizing state with
  | nil => simp
  | cons event rest ih =>
    intro entry hentry
    rcases List.mem_cons.mp hentry with rfl | hrest
    · exact hanswer state event h0 hmeets.1
    · exact ih (hnext state event h0 hmeets.1) hmeets.2 entry hrest

theorem invariant (hstep : ∀ state event, P state → condition state event → P (M.step state event).2)
    {state : State} (h0 : P state) (hmeets : M.Meets condition state events) : P (M.final state events) := by
  induction events generalizing state with
  | nil => exact h0
  | cons event rest ih => exact ih (hstep state event h0 hmeets.1) hmeets.2

/-- The same, for an invariant that relates the state to the trace that led to it. -/
theorem history_invariant {P : List (Event × Answer) → State → Prop}
    (hstep : ∀ past state event, P past state → condition state event →
      P (past ++ [(event, (M.step state event).1)]) (M.step state event).2) {state : State} (h0 : P [] state)
    (hmeets : M.Meets condition state events) : P (M.trace state events) (M.final state events) := by
  have key : ∀ (events : List Event) (past : List (Event × Answer)) (state : State), P past state →
      M.Meets condition state events → P (past ++ M.trace state events) (M.final state events) := by
    intro events
    induction events with
    | nil => intro past state hP _; simpa using hP
    | cons event rest ih =>
      intro past state hP hm
      have h := ih (past ++ [(event, (M.step state event).1)]) _ (hstep past state event hP hm.1) hm.2
      simpa [List.append_assoc] using h
  simpa using key events [] state h0 hmeets

/-- Two runs of which the second leaves out the events that are not kept. A relation of their states that a kept
event preserves with the same answer, and that an event of the first run alone preserves, holds at the end, and the
kept events are answered alike. -/
theorem purged {R : State → State → Prop} {keep : Event → Bool}
    (hkeep : ∀ first second event, keep event = true → R first second → condition first event →
      (M.step second event).1 = (M.step first event).1 ∧ R (M.step first event).2 (M.step second event).2)
    (hskip : ∀ first second event, keep event = false → R first second → condition first event →
      R (M.step first event).2 second) {first second : State} (h0 : R first second)
    (hmeets : M.Meets condition first events) :
    M.trace second (events.filter keep) = (M.trace first events).filter (fun entry => keep entry.1) ∧
      R (M.final first events) (M.final second (events.filter keep)) := by
  induction events generalizing first second with
  | nil => exact ⟨rfl, h0⟩
  | cons event rest ih =>
    rw [trace_cons, final_cons]
    cases hevent : keep event with
    | true =>
      obtain ⟨hanswer, hnext⟩ := hkeep first second event hevent h0 hmeets.1
      obtain ⟨htrace, hfinal⟩ := ih hnext hmeets.2
      simp only [List.filter_cons, hevent, if_true, trace_cons, final_cons, hanswer, htrace]
      exact ⟨trivial, hfinal⟩
    | false =>
      simp only [List.filter_cons, hevent, Bool.false_eq_true, if_false]
      exact ih (hskip first second event hevent h0 hmeets.1) hmeets.2

theorem meets_of_final (hback : ∀ state event, P (M.step state event).2 → P state) {state : State}
    (h : P (M.final state events)) : M.Meets (fun state event => P (M.step state event).2) state events := by
  have hstart : ∀ (events : List Event) (state : State), P (M.final state events) → P state := by
    intro events
    induction events with
    | nil => exact fun _ h => h
    | cons event rest ih => exact fun state h => hback state event (ih _ h)
  induction events generalizing state with
  | nil => trivial
  | cons event rest ih => exact ⟨hstart rest _ h, ih h⟩

theorem meets_of_states {state : State} (h : ∀ past : List Event, past <+: events → P (M.final state past)) :
    M.Meets (fun state event => P state ∧ P (M.step state event).2) state events := by
  induction events generalizing state with
  | nil => trivial
  | cons event rest ih =>
    have hnext : ∀ past : List Event, past <+: rest → P (M.final (M.step state event).2 past) := fun past hpast =>
      h (event :: past) (List.cons_prefix_cons.mpr ⟨rfl, hpast⟩)
    exact ⟨⟨h [] List.nil_prefix, hnext [] List.nil_prefix⟩, ih hnext⟩

theorem meets_of_trace {P : Event → Answer → Prop} {state : State}
    (h : ∀ entry ∈ M.trace state events, P entry.1 entry.2) :
    M.Meets (fun state event => P event (M.step state event).1) state events := by
  induction events generalizing state with
  | nil => trivial
  | cons event rest ih =>
    exact ⟨h _ List.mem_cons_self, ih fun entry hentry => h entry (List.mem_cons_of_mem _ hentry)⟩

end Machine

end Foundations
