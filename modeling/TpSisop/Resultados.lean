/-
**Computations that end in a result or in an error.**

A handler of a server is a sequence of steps, each of which may stop it.  What is asked of it is
that it does not stop for one of certain reasons, and that where it reaches its end its result is as
it should be.  This module supplies that judgement for `Except`, and the rules by which it goes
through a sequence.

Main definitions:

* `Resultado.Cumple` — no error of one kind, and every result as it should be.

Main results:

* `Resultado.bind_eq_ok`, `Resultado.map_eq_ok` — the result of a sequence;
* `Resultado.Cumple.bind`, `Resultado.Cumple.mono` — the rules of sequencing and of consequence.
-/

import Mathlib.Logic.Basic

set_option relaxedAutoImplicit false
set_option autoImplicit false

namespace Resultado

variable {ε α β : Type}

theorem bind_eq_ok {r : Except ε α} {f : α → Except ε β} {b : β} :
    (r >>= f) = .ok b ↔ ∃ a, r = .ok a ∧ f a = .ok b := by
  cases r with
  | error c => simp [bind, Except.bind]
  | ok a => simp [bind, Except.bind]

theorem map_eq_ok {r : Except ε α} {f : α → β} {b : β} :
    r.map f = .ok b ↔ ∃ a, r = .ok a ∧ f a = b := by
  cases r with
  | error c => simp [Except.map]
  | ok a => simp [Except.map]

theorem eq_ok_of_toOption {r : Except ε α} {a : α} (h : r.toOption = some a) : r = .ok a := by
  cases r with
  | error c => cases h
  | ok b =>
      cases h
      rfl

/-- It does not end in an error of `falla`, and its result satisfies `Q`. -/
def Cumple (falla : ε → Prop) (Q : α → Prop) : Except ε α → Prop
  | .ok a => Q a
  | .error c => ¬falla c

variable {falla : ε → Prop} {P Q : α → Prop} {R : β → Prop} {r : Except ε α}

@[simp] theorem cumple_ok {a : α} : Cumple falla Q (.ok a) ↔ Q a := Iff.rfl

@[simp] theorem cumple_error {c : ε} : Cumple falla Q (.error c : Except ε α) ↔ ¬falla c := Iff.rfl

theorem Cumple.of_eq_ok {a : α} (h : Cumple falla Q r) (hr : r = .ok a) : Q a := by
  rwa [hr] at h

theorem Cumple.of_eq_error {c : ε} (h : Cumple falla Q r) (hr : r = .error c) : ¬falla c := by
  rwa [hr] at h

/-- The rule of consequence. -/
theorem Cumple.mono (h : Cumple falla P r) (hPQ : ∀ a, r = .ok a → P a → Q a) :
    Cumple falla Q r := by
  cases r with
  | error c => exact h
  | ok a => exact hPQ a rfl h

/-- The rule of sequencing: the second step starts where the first one ends. -/
theorem Cumple.bind {f : α → Except ε β} (h : Cumple falla P r)
    (hf : ∀ a, r = .ok a → P a → Cumple falla R (f a)) : Cumple falla R (r >>= f) := by
  cases r with
  | error c => exact h
  | ok a => exact hf a rfl h

end Resultado
