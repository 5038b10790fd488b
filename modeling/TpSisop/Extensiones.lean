/-
**Extents laid out one after another.**

A list of names, each with a size, is laid out from zero on without gaps: the extent of a name
begins where the extents of the names before it end.  This module has the start of each extent and
the facts a compaction needs: the extents are inside the total and pairwise disjoint.

Main definitions:

* `Extension.inicio` — where the extent of a name begins.

Main results:

* `Extension.inicio_add_le_sum` — an extent ends inside the total;
* `Extension.disjuntas` — two extents do not overlap;
* `Extension.sum_le_of_disjuntas` — extents that do not overlap, wherever they are, fit in what
  covers them.
-/

import Mathlib.Algebra.BigOperators.Group.List.Basic
import Mathlib.Algebra.Order.BigOperators.Group.List
import Mathlib.Order.Interval.Finset.Basic
import Mathlib.Data.Int.Interval
import Mathlib.Tactic

set_option relaxedAutoImplicit false
set_option autoImplicit false

namespace Extension

variable {α : Type*} [DecidableEq α] {t : α → ℤ} {l : List α} {a k : α}

/-- The sum of the sizes of the names before `k`. -/
def inicio (t : α → ℤ) (l : List α) (k : α) : ℤ :=
  ((l.takeWhile fun a => decide (a ≠ k)).map t).sum

@[simp] theorem inicio_cons_self : inicio t (k :: l) k = 0 := by
  simp [inicio]

theorem inicio_cons_of_ne (h : a ≠ k) : inicio t (a :: l) k = t a + inicio t l k := by
  simp [inicio, h]

/-- The extent of a name begins where those before it end. -/
theorem inicio_append_cons {l₁ l₂ : List α} (hk : k ∉ l₁) :
    inicio t (l₁ ++ k :: l₂) k = (l₁.map t).sum := by
  induction l₁ with
  | nil => simp
  | cons a l₁ ih =>
      have hak : a ≠ k := fun h => hk (by simp [h])
      rw [List.cons_append, inicio_cons_of_ne hak, ih fun h => hk (List.mem_cons_of_mem a h),
        List.map_cons, List.sum_cons]

variable (ht : ∀ a ∈ l, 0 ≤ t a)
include ht

theorem inicio_nonneg : 0 ≤ inicio t l k := by
  refine List.sum_nonneg fun x hx => ?_
  obtain ⟨a, ha, rfl⟩ := List.mem_map.1 hx
  exact ht a ((List.takeWhile_sublist _).subset ha)

/-- An extent ends inside the total. -/
theorem inicio_add_le_sum (hk : k ∈ l) : inicio t l k + t k ≤ (l.map t).sum := by
  induction l with
  | nil => cases hk
  | cons a l ih =>
      have hresto : ∀ b ∈ l, 0 ≤ t b := fun b hb => ht b (List.mem_cons_of_mem a hb)
      rw [List.map_cons, List.sum_cons]
      by_cases hak : a = k
      · subst hak
        have hsum : 0 ≤ (l.map t).sum := List.sum_nonneg fun x hx => by
          obtain ⟨b, hb, rfl⟩ := List.mem_map.1 hx
          exact hresto b hb
        rw [inicio_cons_self]
        omega
      · have hkl : k ∈ l := (List.mem_cons.1 hk).resolve_left (Ne.symm hak)
        have := ih hresto hkl
        rw [inicio_cons_of_ne hak]
        omega

/-- The extents leave no gap: every place below the total is in one of them. -/
theorem exists_of_lt_sum (hl : l.Nodup) {x : ℤ} (h₀ : 0 ≤ x) (hx : x < (l.map t).sum) :
    ∃ k ∈ l, inicio t l k ≤ x ∧ x < inicio t l k + t k := by
  induction l generalizing x with
  | nil =>
      rw [List.map_nil, List.sum_nil] at hx
      omega
  | cons a l ih =>
      have hresto : ∀ b ∈ l, 0 ≤ t b := fun b hb => ht b (List.mem_cons_of_mem a hb)
      obtain ⟨hal, hl⟩ := List.nodup_cons.1 hl
      rw [List.map_cons, List.sum_cons] at hx
      by_cases hxa : x < t a
      · exact ⟨a, List.mem_cons_self, by rw [inicio_cons_self]; omega⟩
      · obtain ⟨k, hk, h₁, h₂⟩ := ih hresto hl (x := x - t a) (by omega) (by omega)
        have hak : a ≠ k := by
          rintro rfl
          exact hal hk
        refine ⟨k, List.mem_cons_of_mem a hk, ?_⟩
        rw [inicio_cons_of_ne hak]
        omega

/-- Two extents do not overlap. -/
theorem disjuntas {j : α} (hj : j ∈ l) (hk : k ∈ l) (hne : j ≠ k) :
    inicio t l j + t j ≤ inicio t l k ∨ inicio t l k + t k ≤ inicio t l j := by
  induction l with
  | nil => cases hj
  | cons a l ih =>
      have hresto : ∀ b ∈ l, 0 ≤ t b := fun b hb => ht b (List.mem_cons_of_mem a hb)
      by_cases haj : a = j
      · subst haj
        rw [inicio_cons_self, inicio_cons_of_ne hne]
        have := inicio_nonneg (k := k) hresto
        omega
      by_cases hak : a = k
      · subst hak
        rw [inicio_cons_self, inicio_cons_of_ne haj]
        have := inicio_nonneg (k := j) hresto
        omega
      · rw [inicio_cons_of_ne haj, inicio_cons_of_ne hak]
        have := ih hresto ((List.mem_cons.1 hj).resolve_left (Ne.symm haj))
          ((List.mem_cons.1 hk).resolve_left (Ne.symm hak))
        omega

/-- Extents that are inside `[0, n)` and do not overlap are no larger together. -/
theorem sum_le_of_disjuntas {i : α → ℤ} {n : ℤ} (hn : 0 ≤ n) (hl : l.Nodup)
    (hr : ∀ a ∈ l, 0 ≤ i a ∧ i a + t a ≤ n)
    (hd : ∀ a ∈ l, ∀ b ∈ l, a ≠ b → ∀ x, i a ≤ x ∧ x < i a + t a →
      ¬(i b ≤ x ∧ x < i b + t b)) :
    (l.map t).sum ≤ n := by
  have hdisj : (l.toFinset : Set α).PairwiseDisjoint
      fun a => Finset.Ico (i a) (i a + t a) := by
    intro a ha b hb hne
    refine Finset.disjoint_left.2 fun x hx hx' => ?_
    exact hd a (by simpa using ha) b (by simpa using hb) hne x (Finset.mem_Ico.1 hx)
      (Finset.mem_Ico.1 hx')
  have hsub : (l.toFinset.biUnion fun a => Finset.Ico (i a) (i a + t a)) ⊆
      Finset.Ico 0 n := by
    intro x hx
    obtain ⟨a, ha, hx⟩ := Finset.mem_biUnion.1 hx
    have := hr a (by simpa using ha)
    rw [Finset.mem_Ico] at hx ⊢
    omega
  have hcard := Finset.card_le_card hsub
  rw [Finset.card_biUnion hdisj, Int.card_Ico, Int.sub_zero] at hcard
  have hsum : (l.map t).sum =
      ((∑ a ∈ l.toFinset, (Finset.Ico (i a) (i a + t a)).card : ℕ) : ℤ) := by
    rw [Nat.cast_sum, ← List.sum_toFinset t hl]
    refine Finset.sum_congr rfl fun a ha => ?_
    have := ht a (by simpa using ha)
    rw [Int.card_Ico]
    omega
  omega

end Extension
