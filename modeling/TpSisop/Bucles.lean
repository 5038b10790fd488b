/-
**Loops that have to be shown to end.**

A loop is given by one of its iterations, a partial function on the variables that it changes which
has no value where the test of the loop fails; `StateTransition.eval` runs it, and has no value
where it goes on for ever.  The rule of total correctness asks for an invariant and for a variant,
and the loop that moves a number from one variable to another of any width is a case of it.

Main definitions:

* `Bucle.iterarConteo` — one variable goes down to zero while another goes up.

Main results:

* `Bucle.termina` — the rule of total correctness;
* `Bucle.eval_iterarConteo` — the loop ends, with the sum modulo the width of the second variable.
-/

import Mathlib.Tactic
import Mathlib.Computability.StateTransition

set_option relaxedAutoImplicit false
set_option autoImplicit false

namespace Bucle

open StateTransition (eval mem_eval reaches_eval)

/-! ### Rules -/

section

variable {σ : Type*} {iterar : σ → Option σ} {s s' : σ}

/-- Where the test fails, the loop is over. -/
theorem eval_of_none (h : iterar s = none) : eval iterar s = Part.some s :=
  Part.eq_some_iff.2 (mem_eval.2 ⟨.refl, h⟩)

/-- Otherwise it goes on from where the iteration leaves. -/
theorem eval_of_some (h : iterar s = some s') : eval iterar s = eval iterar s' :=
  reaches_eval (.single h)

/-- A loop whose iterations keep an invariant and lower a variant ends, with the invariant and where
its test fails. -/
theorem termina {α : Type*} [Preorder α] [WellFoundedLT α] (I : σ → Prop) (variante : σ → α)
    (hpaso : ∀ s s', I s → iterar s = some s' → I s' ∧ variante s' < variante s) (hs : I s) :
    ∃ s', eval iterar s = Part.some s' ∧ I s' ∧ iterar s' = none := by
  induction hv : variante s using WellFoundedLT.induction generalizing s with
  | _ v ih =>
      cases hi : iterar s with
      | none => exact ⟨s, eval_of_none hi, hs, hi⟩
      | some s₁ =>
          obtain ⟨hs₁, hlt⟩ := hpaso s s₁ hs hi
          obtain ⟨s', heval, hs', hfin⟩ := ih _ (hv ▸ hlt) hs₁ rfl
          exact ⟨s', (eval_of_some hi).trans heval, hs', hfin⟩

end

/-! ### Counting -/

section

variable {n m : ℕ}

/-- One iteration of `while (valor > 0) { cuenta++; valor--; }`. -/
def iterarConteo : BitVec n × BitVec m → Option (BitVec n × BitVec m)
  | (valor, cuenta) => if 0#n < valor then some (valor - 1#n, cuenta + 1#m) else none

theorem iterarConteo_eq_some {s s' : BitVec n × BitVec m} (h : iterarConteo s = some s') :
    s'.1.toNat + 1 = s.1.toNat ∧ s'.2 = s.2 + 1#m := by
  obtain ⟨valor, cuenta⟩ := s
  rw [iterarConteo, Option.ite_none_right_eq_some, Option.some.injEq] at h
  obtain ⟨hpos, rfl⟩ := h
  refine ⟨?_, rfl⟩
  rw [BitVec.lt_def, BitVec.toNat_zero] at hpos
  have huno : (1#n).toNat = 1 :=
    Nat.mod_eq_of_lt ((Nat.succ_le_of_lt hpos).trans_lt valor.isLt)
  have hle : 1#n ≤ valor := by rwa [BitVec.le_def, huno]
  rw [BitVec.toNat_sub_of_le hle, huno]
  exact Nat.sub_add_cancel hpos

theorem iterarConteo_eq_none {s : BitVec n × BitVec m} (h : iterarConteo s = none) : s.1 = 0#n := by
  obtain ⟨valor, cuenta⟩ := s
  by_contra hne
  rw [iterarConteo, if_pos ((BitVec.pos_iff_ne_zero valor).2 hne)] at h
  cases h

/-- The loop adds the first number to the second, modulo the width of the second. -/
theorem eval_iterarConteo (valor : BitVec n) (cuenta : BitVec m) :
    eval iterarConteo (valor, cuenta) = Part.some (0#n, cuenta + BitVec.ofNat m valor.toNat) := by
  have hpaso : ∀ s s' : BitVec n × BitVec m,
      s.2 + BitVec.ofNat m s.1.toNat = cuenta + BitVec.ofNat m valor.toNat →
      iterarConteo s = some s' →
      s'.2 + BitVec.ofNat m s'.1.toNat = cuenta + BitVec.ofNat m valor.toNat ∧
        s'.1.toNat < s.1.toNat := by
    intro s s' hs h
    obtain ⟨hvalor, hcuenta⟩ := iterarConteo_eq_some h
    refine ⟨?_, by omega⟩
    rw [← hs, ← hvalor, hcuenta, BitVec.ofNat_add, BitVec.add_assoc, BitVec.add_comm (1#m)]
  obtain ⟨⟨v, a⟩, heval, hsuma, hfin⟩ := termina _ _ hpaso (s := (valor, cuenta)) rfl
  obtain rfl : v = 0#n := iterarConteo_eq_none hfin
  rw [heval, ← hsuma]
  simp

end

end Bucle
