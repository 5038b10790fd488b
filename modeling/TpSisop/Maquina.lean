/-
**Machines of registers of fixed widths.**

The reference for an instruction set with immediate loads, additions, subtractions and a
conditional jump: a register of width `w` holds a bit vector of that width, arithmetic is done on
the numbers and reduced to the width of the destination, and the program counter, one of the
registers, goes on by one unless the instruction sets it.

The second part is about any two machines that run in lockstep: they stay in agreement exactly as
long as each step keeps it.

Main definitions:

* `Maquina.Estado` — a bit vector for each register;
* `Maquina.Instr`, `Maquina.paso` — the instructions and what they do;
* `Maquina.avanzar` — the instruction under the program counter, or nothing.

Main results:

* `Maquina.acuerdo_iff` — two runs agree up to a step exactly when the steps before it keep the
  agreement.
-/

import Mathlib.Tactic
import Mathlib.Logic.Function.Iterate

set_option relaxedAutoImplicit false
set_option autoImplicit false

namespace Maquina

/-! ### The reference machine -/

section

variable {R : Type} [DecidableEq R] {ancho : R → ℕ}

/-- The contents of the registers. -/
abbrev Estado (ancho : R → ℕ) := (r : R) → BitVec (ancho r)

/-- The instructions: immediate load, addition, subtraction, and jump if not zero. -/
inductive Instr (R : Type)
  | set (destino : R) (valor : ℤ)
  | sum (destino origen : R)
  | sub (destino origen : R)
  | jnz (registro : R) (instruccion : ℤ)
  deriving DecidableEq, Repr

/-- Replaces the contents of one register. -/
def poner (σ : Estado ancho) (r : R) (n : ℤ) : Estado ancho :=
  Function.update σ r (BitVec.ofInt (ancho r) n)

variable (pc : R)

def incrementar (σ : Estado ancho) : Estado ancho := poner σ pc ((σ pc).toNat + 1)

/-- What an instruction does. -/
def paso (σ : Estado ancho) : Instr R → Estado ancho
  | .set d v => if d = pc then poner σ d v else incrementar pc (poner σ d v)
  | .sum d s => incrementar pc (poner σ d ((σ d).toNat + (σ s).toNat))
  | .sub d s => incrementar pc (poner σ d ((σ d).toNat - (σ s).toNat))
  | .jnz r k => if σ r ≠ 0 then poner σ pc k else incrementar pc σ

/-- One step of a program; without an instruction under the program counter it stays. -/
def avanzar (programa : BitVec (ancho pc) → Option (Instr R)) (σ : Estado ancho) : Estado ancho :=
  ((programa (σ pc)).map (paso pc σ)).getD σ

@[simp] theorem poner_self (σ : Estado ancho) (r : R) (n : ℤ) :
    poner σ r n r = BitVec.ofInt (ancho r) n :=
  Function.update_self ..

@[simp] theorem poner_of_ne (σ : Estado ancho) {r r' : R} (h : r' ≠ r) (n : ℤ) :
    poner σ r n r' = σ r' :=
  Function.update_of_ne h ..

/-- Two literals give a register of width `w` the same contents when they differ by a multiple of
`2 ^ w`. -/
theorem ofInt_eq_iff (w : ℕ) (a b : ℤ) :
    BitVec.ofInt w a = BitVec.ofInt w b ↔ (2 : ℤ) ^ w ∣ a - b := by
  have hpos : (0 : ℤ) < 2 ^ w := by positivity
  have ha := Int.emod_nonneg a hpos.ne'
  have hb := Int.emod_nonneg b hpos.ne'
  have hnat : (a % 2 ^ w).toNat = (b % 2 ^ w).toNat ↔ a % 2 ^ w = b % 2 ^ w := by omega
  rw [← BitVec.toNat_inj, BitVec.toNat_ofInt, BitVec.toNat_ofInt, Nat.cast_pow, Nat.cast_ofNat,
    hnat, Int.emod_eq_emod_iff_emod_sub_eq_zero, Int.dvd_iff_emod_eq_zero]

theorem poner_inj (σ : Estado ancho) (r : R) (a b : ℤ) :
    poner σ r a = poner σ r b ↔ (2 : ℤ) ^ ancho r ∣ a - b := by
  rw [← ofInt_eq_iff]
  constructor
  · intro h
    simpa using congrFun h r
  · intro h
    rw [poner, poner, h]

/-- What follows the load does not hide a difference between the literals. -/
theorem paso_set_inj (σ : Estado ancho) (d : R) (a b : ℤ) :
    paso pc σ (.set d a) = paso pc σ (.set d b) ↔ (2 : ℤ) ^ ancho d ∣ a - b := by
  rw [← poner_inj σ d a b]
  simp only [paso]
  by_cases hd : d = pc
  · rw [if_pos hd, if_pos hd]
  rw [if_neg hd, if_neg hd]
  constructor
  · intro h
    rw [poner_inj, ← ofInt_eq_iff]
    simpa [incrementar, hd] using congrFun h d
  · intro h
    rw [h]

end

/-! ### Machines in lockstep -/

section

variable {α β : Type}

/-- If the steps that keep the agreement are those of the states in `C`, then two runs agree up to
a step exactly when the first one is in `C` before it. -/
theorem acuerdo_iff {f : α → α} {g : β → β} {abs : α → β} {C : α → Prop}
    (h : ∀ a, abs (f a) = g (abs a) ↔ C a) (a : α) (n : ℕ) :
    (∀ m ≤ n, abs (f^[m] a) = g^[m] (abs a)) ↔ ∀ m < n, C (f^[m] a) := by
  induction n with
  | zero =>
      constructor
      · intro _ m hm
        exact absurd hm (Nat.not_lt_zero m)
      · intro _ m hm
        rw [Nat.le_zero.mp hm]
        rfl
  | succ n ih =>
      -- up to `n` the induction hypothesis speaks; the last step is the one that `h` is about
      have hstep (hn : abs (f^[n] a) = g^[n] (abs a)) :
          abs (f^[n + 1] a) = g^[n + 1] (abs a) ↔ C (f^[n] a) := by
        rw [Function.iterate_succ_apply', Function.iterate_succ_apply', ← hn]
        exact h _
      constructor
      · intro hall m hm
        have hprev := ih.mp fun k hk => hall k (by omega)
        rcases Nat.lt_succ_iff_lt_or_eq.mp hm with hlt | rfl
        · exact hprev m hlt
        · exact (hstep (hall m (Nat.le_succ m))).mp (hall (m + 1) (Nat.le_refl _))
      · intro hall m hm
        have hprev := ih.mpr fun k hk => hall k (by omega)
        rcases Nat.le_succ_iff.mp hm with hle | rfl
        · exact hprev m hle
        · exact (hstep (hprev n (Nat.le_refl n))).mpr (hall n (Nat.lt_succ_self n))

end

end Maquina
