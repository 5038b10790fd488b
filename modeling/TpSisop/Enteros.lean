/-
**Machine integers: conversions, and the quotient rounded up.**

The programs mix `int`, `uint32_t` and `uint64_t` and rely on the conversions between them, and they
count pages and blocks by a division that truncates towards zero followed by one more when there is
a remainder.  This module has the conversions and that quotient, with the facts that make it a
ceiling on sizes that are not negative.

Main definitions:

* `Entero.aInt`, `Entero.aUint32`, `Entero.aUint64` — conversions modulo a power of two;
* `Entero.techo` — the quotient the programs compute.

Main results:

* `Entero.le_techo_mul`, `Entero.techo_mul_lt` — the ceiling property;
* `Entero.techo_mono`, `Entero.techo_eq_zero` — monotonicity, and the empty size.
-/

import Mathlib.Tactic

set_option relaxedAutoImplicit false
set_option autoImplicit false

namespace Entero

/-! ### Conversions -/

/-- The conversion of a number to `int`. -/
def aInt (n : ℕ) : ℤ := Int.bmod n (2 ^ 32)

/-- The conversion of an `int` to `uint32_t`. -/
def aUint32 (n : ℤ) : ℤ := n % 2 ^ 32

/-- The conversion of an `int` to `uint64_t`. -/
def aUint64 (n : ℤ) : ℕ := (n % 2 ^ 64).toNat

/-- A number that an `int` can hold is converted to itself. -/
theorem aInt_of_lt {n : ℕ} (h : n < 2 ^ 31) : aInt n = n := by
  unfold aInt
  rw [Int.bmod_def]
  omega

/-- No other number is. -/
theorem aInt_eq_iff {n : ℕ} : aInt n = n ↔ n < 2 ^ 31 := by
  refine ⟨fun h => ?_, aInt_of_lt⟩
  unfold aInt at h
  rw [Int.bmod_def] at h
  omega

theorem aUint32_of_nonneg {n : ℤ} (h₀ : 0 ≤ n) (h : n < 2 ^ 32) : aUint32 n = n :=
  Int.emod_eq_of_lt h₀ h

/-! ### The quotient rounded up -/

/-- `n / d`, plus one when `n % d` is not zero; both truncate towards zero, as in C. -/
def techo (d : ℕ) (n : ℤ) : ℤ := n.tdiv d + if n.tmod d = 0 then 0 else 1

variable {d : ℕ} {n m : ℤ}

theorem techo_of_nonneg (h : 0 ≤ n) : techo d n = n / d + if n % d = 0 then 0 else 1 := by
  unfold techo
  rw [Int.tdiv_eq_ediv_of_nonneg h, Int.tmod_eq_emod_of_nonneg h]

theorem techo_nonneg (h : 0 ≤ n) : 0 ≤ techo d n := by
  have hdiv : 0 ≤ n / d := Int.ediv_nonneg h (Int.natCast_nonneg d)
  rw [techo_of_nonneg h]
  split <;> omega

/-- The ceiling is large enough. -/
theorem le_techo_mul (hd : 0 < d) (h : 0 ≤ n) : n ≤ techo d n * d := by
  have hmod := Int.emod_lt_of_pos n (show (0 : ℤ) < d by exact_mod_cast hd)
  have hdiv := Int.ediv_mul_add_emod n d
  rw [techo_of_nonneg h, Int.add_mul]
  split
  · omega
  · rw [Int.one_mul]
    omega

/-- The ceiling is not larger than needed. -/
theorem techo_mul_lt (hd : 0 < d) (h : 0 ≤ n) : techo d n * d < n + d := by
  have hd' : (0 : ℤ) < d := by exact_mod_cast hd
  have hmod := Int.emod_nonneg n hd'.ne'
  have hdiv := Int.ediv_mul_add_emod n d
  rw [techo_of_nonneg h, Int.add_mul]
  split
  · omega
  · rw [Int.one_mul]
    omega

theorem techo_le_iff (hd : 0 < d) (h : 0 ≤ n) {k : ℤ} : techo d n ≤ k ↔ n ≤ k * d := by
  have hd' : (0 : ℤ) < d := by exact_mod_cast hd
  constructor
  · intro hk
    have hmul := Int.mul_le_mul_of_nonneg_right hk hd'.le
    exact (le_techo_mul hd h).trans hmul
  · intro hk
    have hlt : techo d n * d < (k + 1) * d := by
      rw [Int.add_mul, Int.one_mul]
      exact (techo_mul_lt hd h).trans_le (by omega)
    exact Int.lt_add_one_iff.1 (lt_of_mul_lt_mul_right hlt hd'.le)

theorem techo_mono (hd : 0 < d) (h : 0 ≤ n) (hnm : n ≤ m) : techo d n ≤ techo d m :=
  (techo_le_iff hd h).2 (hnm.trans (le_techo_mul hd (h.trans hnm)))

theorem techo_eq_zero (hd : 0 < d) (h : 0 ≤ n) : techo d n = 0 ↔ n = 0 := by
  have hle := techo_le_iff hd h (k := 0)
  have hge := techo_nonneg (d := d) h
  omega

end Entero
