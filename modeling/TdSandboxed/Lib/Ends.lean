/-
TdSandboxed.Lib.Ends — how a computation that may raise ends.

`Ends C P x` says of `x : Except ε α` that it returns a value with `P` or
raises an error with `C`. It is the weakest precondition of `x` for a pair
of postconditions, one for each way out: `ends_bind` takes a sequence
apart, and an operation that is described by one `Ends` equation never has
to be unfolded again.

`catching` is a handler that returns a fixed value for some errors.
-/
import Mathlib.Logic.Basic

namespace TdSandboxed.Lib

universe u v

variable {ε : Type v} {α β : Type u} {C : ε → Prop} {P : α → Prop}

/-- `x` returns a value with `P` or raises an error with `C`. -/
def Ends (C : ε → Prop) (P : α → Prop) : Except ε α → Prop
  | .ok a => P a
  | .error e => C e

@[simp] theorem ends_ok (a : α) : Ends C P (.ok a) ↔ P a := Iff.rfl

@[simp] theorem ends_error (e : ε) : Ends C P (.error e : Except ε α) ↔ C e := Iff.rfl

@[simp] theorem ends_pure (a : α) : Ends C P (pure a) ↔ P a := Iff.rfl

@[simp] theorem ends_throw (e : ε) : Ends C P (throw e : Except ε α) ↔ C e := Iff.rfl

/-- **Sequence.** What follows has to end well for every value it is
reached with. -/
@[simp] theorem ends_bind (x : Except ε α) (f : α → Except ε β) {R : β → Prop} :
    Ends C R (x >>= f) ↔ Ends C (fun a => Ends C R (f a)) x := by
  cases x <;> rfl

@[simp] theorem ends_ite (c : Prop) [Decidable c] (x y : Except ε α) :
    Ends C P (if c then x else y) ↔ (c → Ends C P x) ∧ (¬ c → Ends C P y) := by
  by_cases h : c <;> simp [h]

/-- A handler: for a caught error, `a` is returned. -/
def catching (caught : ε → Bool) (a : α) : Except ε α → Except ε α
  | .ok b => .ok b
  | .error e => if caught e then .ok a else .error e

/-- A handler turns the errors it catches into a return. -/
theorem ends_catching (caught : ε → Bool) (a : α) (x : Except ε α) :
    Ends C P (catching caught a x) ↔ Ends (fun e => if caught e then P a else C e) P x := by
  cases x with
  | ok b => rfl
  | error e =>
    simp only [catching, ends_error]
    split <;> rfl

/-- When anything may be returned, what a handler catches is as good as a
return. -/
theorem ends_catching_true (caught : ε → Bool) (a : α) (x : Except ε α) :
    Ends C (fun _ => True) (catching caught a x) ↔ Ends (fun e => caught e ∨ C e) (fun _ => True) x := by
  rw [ends_catching]
  cases x with
  | ok b => exact Iff.rfl
  | error e => cases h : caught e <;> simp [h]

/-- To return at all is to end with anything, and without an error. -/
theorem exists_ok_iff (x : Except ε α) :
    (∃ a, x = .ok a) ↔ Ends (fun _ => False) (fun _ => True) x := by
  cases x <;> simp

end TdSandboxed.Lib
