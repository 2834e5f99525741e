import Mathlib.Logic.Unique
import LinkQualityFabric.Foundations.LittleEndian

/-! Outcomes of fallible entry points: `lqf/core/status.hpp`.

`StatusCode::Ok` is the success side of `Except`; every other code names a refusal together with its
message. A check of the source that returns early is `refuseIf`, and a function is the sequence of its
checks in source order, so the first check that holds decides the answer. -/
namespace Lqf
open Foundations
set_option autoImplicit false

/-- `std::string`: bytes, without an encoding. -/
abbrev Text := Bytes

/-- The bytes of a string literal of the source. -/
def text (literal : String) : Text := literal.toUTF8.data.toList

inductive StatusCode where
  | invalid | notFound | unsupported | conflict | stale | fenced | rejected | duplicate | idMismatch
  | overflow | limitExceeded | corrupt | unavailable | busy | cancelled | refused | protocol | io
  | internal
  deriving DecidableEq, Repr

structure Status where
  code : StatusCode
  message : Text
  deriving DecidableEq, Repr

abbrev Outcome (α : Type) := Except Status α

def fail {α : Type} (code : StatusCode) (message : Text) : Outcome α := .error ⟨code, message⟩

/-- One early return of the source. -/
def refuseIf (condition : Prop) [Decidable condition] (code : StatusCode) (message : Text) :
    Outcome Unit :=
  if condition then fail code message else .ok ()

namespace Outcome
variable {α β : Type}
variable {first : Outcome α} {value : β} {next : Unit → Outcome β} {condition : Prop} {code : StatusCode}
  {message : Text} {u : Unit} {other : StatusCode} {check : α → Outcome Unit}

theorem bind_eq_ok {next : α → Outcome β} :
    (first >>= next) = .ok value ↔ ∃ a, first = .ok a ∧ next a = .ok value := by
  cases first <;> simp [bind, Except.bind]

-- A check returns nothing, so what comes after it does not depend on its value.
theorem check_bind_eq_ok {check : Outcome Unit} :
    (check >>= next) = .ok value ↔ check = .ok () ∧ next () = .ok value := by
  rw [bind_eq_ok]
  exact Unique.exists_iff

@[simp] theorem ok_bind (a : α) (next : α → Outcome β) : ((.ok a : Outcome α) >>= next) = next a := rfl

@[simp] theorem error_bind (status : Status) (next : α → Outcome β) :
    ((.error status : Outcome α) >>= next) = .error status := rfl

@[simp] theorem refuseIf_eq_ok [Decidable condition] : refuseIf condition code message = .ok u ↔ ¬ condition := by
  unfold refuseIf fail
  split <;> simp_all

theorem refuseIf_of_not [Decidable condition] (h : ¬ condition) : refuseIf condition code message = .ok () := by
  simp [h]

def Avoids (code : StatusCode) (outcome : Outcome α) : Prop :=
  ∀ status, outcome = .error status → status.code ≠ code

theorem avoids_ok (a : α) : Avoids code (.ok a : Outcome α) := by
  intro status h
  cases h

theorem avoids_fail (message : Text) (h : other ≠ code) : Avoids code (fail other message : Outcome α) := by
  intro status hstatus
  obtain rfl := Except.error.inj hstatus
  exact h

theorem avoids_refuseIf [Decidable condition] (message : Text) (h : other ≠ code) :
    Avoids code (refuseIf condition other message) := by
  unfold refuseIf
  split
  · exact avoids_fail message h
  · exact avoids_ok ()

theorem avoids_bind {next : α → Outcome β} (hfirst : Avoids code first) (hnext : ∀ a, Avoids code (next a)) :
    Avoids code (first >>= next) := by
  intro status h
  cases first with
  | error failure =>
    obtain rfl : failure = status := Except.error.inj h
    exact hfirst failure rfl
  | ok a => exact hnext a status h

theorem avoids_check [Decidable condition] (h : other ≠ code) (hnext : Avoids code (next ())) :
    Avoids code (refuseIf condition other message >>= next) :=
  avoids_bind (avoids_refuseIf message h) fun _ => hnext

/-- The checks of a loop, in order: the first that refuses decides. -/
def each (check : α → Outcome Unit) : List α → Outcome Unit
  | [] => .ok ()
  | a :: rest => do
    check a
    each check rest

@[simp] theorem each_eq_ok {items : List α} : each check items = .ok u ↔ ∀ a ∈ items, check a = .ok () := by
  induction items with
  | nil => simp [each]
  | cons a rest ih => simp [each, ih, check_bind_eq_ok]

theorem avoids_each (h : ∀ a, Avoids code (check a)) (items : List α) : Avoids code (each check items) := by
  induction items with
  | nil => exact avoids_ok ()
  | cons a rest ih => exact avoids_bind (h a) fun _ => ih

instance (x : Outcome α) (P : α → Prop) [DecidablePred P] : Decidable (∀ a, x = .ok a → P a) :=
  match x with
  | .ok a => decidable_of_iff (P a) ⟨fun h b hb => by cases hb; exact h, fun h => h a rfl⟩
  | .error _ => isTrue (fun _ h => nomatch h)

end Outcome

end Lqf
