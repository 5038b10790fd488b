/-
**Families of lists and the weights of their elements.**

A scheduler keeps its tasks in several queues and moves each task from one to another.  What such a
component has to maintain is mostly additive: how many tasks are in these queues, how many times
this task occurs in any of them, how many units of something the tasks of these queues hold.  All of
these are the weight of a family of lists, the sum of a function of its elements over some of its
lists, and this module says how appending and removing one element change it.

Main definitions:

* `Familia.agregar` — an element appended to one list of a family;
* `Familia.peso` — the weight of some lists of a family.

Main results:

* `Familia.peso_agregar`, `Familia.peso_quitar` — one element appended, one element removed;
* `Familia.peso_eq_zero`, `Familia.le_peso` — the weight against the weight of an element.
-/

import Mathlib.Algebra.BigOperators.Group.List.Basic
import Mathlib.Algebra.Order.BigOperators.Group.List
import Mathlib.Data.List.Basic
import Mathlib.Logic.Function.Basic
import Mathlib.Tactic

set_option relaxedAutoImplicit false
set_option autoImplicit false

namespace Familia

variable {ι α : Type*}

/-- The family in which `x` was appended to the list `l`. -/
def agregar [DecidableEq ι] (L : ι → List α) (l : ι) (x : α) : ι → List α :=
  Function.update L l (L l ++ [x])

/-- The weight of the lists `ls` of the family `L`, each element weighed by `f`. -/
def peso (f : α → ℕ) (ls : List ι) (L : ι → List α) : ℕ :=
  (ls.map fun l => ((L l).map f).sum).sum

variable {f : α → ℕ} {ls : List ι} {L : ι → List α} {l : ι} {x : α}

@[simp] theorem peso_nil : peso f [] L = 0 := rfl

@[simp] theorem peso_cons (l : ι) (ls : List ι) :
    peso f (l :: ls) L = ((L l).map f).sum + peso f ls L := by
  simp [peso]

section

@[simp] theorem peso_append (ls ms : List ι) : peso f (ls ++ ms) L = peso f ls L + peso f ms L := by
  simp [peso]

variable [DecidableEq ι]

@[simp] theorem agregar_self : agregar L l x l = L l ++ [x] := Function.update_self ..

@[simp] theorem agregar_of_ne {m : ι} (h : m ≠ l) : agregar L l x m = L m :=
  Function.update_of_ne h ..

theorem mem_agregar {m : ι} {y : α} : y ∈ agregar L l x m ↔ y ∈ L m ∨ m = l ∧ y = x := by
  by_cases h : m = l
  · subst h
    simp
  · simp [h]

/-- What is left of a list was in it. -/
theorem mem_of_quitar {m : ι} {a b : List α} {y : α} (hl : L l = a ++ x :: b)
    (h : y ∈ Function.update L l (a ++ b) m) : y ∈ L m := by
  by_cases hm : m = l
  · subst hm
    rw [Function.update_self, List.mem_append] at h
    rw [hl]
    simp only [List.mem_append, List.mem_cons]
    tauto
  · rwa [Function.update_of_ne hm] at h

/-- Another element stays where it was. -/
theorem mem_quitar {m : ι} {a b : List α} {y : α} (hl : L l = a ++ x :: b) (h : y ∈ L m)
    (hne : y ≠ x) : y ∈ Function.update L l (a ++ b) m := by
  by_cases hm : m = l
  · subst hm
    rw [hl] at h
    simp only [List.mem_append, List.mem_cons] at h
    simp only [Function.update_self, List.mem_append]
    tauto
  · rwa [Function.update_of_ne hm]

/-- Appending to a list and replacing another one commute. -/
theorem agregar_update {m : ι} (h : l ≠ m) (xs : List α) :
    agregar (Function.update L m xs) l x = Function.update (agregar L l x) m xs := by
  unfold agregar
  rw [Function.update_of_ne h, Function.update_comm h]

/-- A list that is not weighed does not count. -/
theorem peso_update_of_notMem (h : l ∉ ls) (xs : List α) :
    peso f ls (Function.update L l xs) = peso f ls L := by
  induction ls with
  | nil => rfl
  | cons m ls ih =>
      simp only [List.mem_cons, not_or] at h
      rw [peso_cons, peso_cons, ih h.2, Function.update_of_ne (Ne.symm h.1)]

/-- Replacing a list that is weighed replaces its weight. -/
theorem peso_update (hn : ls.Nodup) (h : l ∈ ls) (xs : List α) :
    peso f ls (Function.update L l xs) + ((L l).map f).sum = peso f ls L + (xs.map f).sum := by
  induction ls with
  | nil => cases h
  | cons m ls ih =>
      obtain ⟨hm, hn⟩ := List.nodup_cons.1 hn
      rcases List.mem_cons.1 h with rfl | h
      · rw [peso_cons, peso_cons, peso_update_of_notMem hm, Function.update_self]
        omega
      · have hne : m ≠ l := by
          rintro rfl
          exact hm h
        have := ih hn h
        rw [peso_cons, peso_cons, Function.update_of_ne hne]
        omega

/-- An element appended to a list adds its weight, if the list is weighed. -/
theorem peso_agregar (hn : ls.Nodup) (l : ι) (x : α) :
    peso f ls (agregar L l x) = peso f ls L + if l ∈ ls then f x else 0 := by
  unfold agregar
  split
  · rename_i h
    have := peso_update (f := f) (L := L) hn h (L l ++ [x])
    simp only [List.map_append, List.sum_append, List.map_cons, List.map_nil, List.sum_cons,
      List.sum_nil] at this
    omega
  · rename_i h
    rw [peso_update_of_notMem h, Nat.add_zero]

/-- An element removed from a list takes its weight away, if the list is weighed. -/
theorem peso_quitar (hn : ls.Nodup) {a b : List α} (hl : L l = a ++ x :: b) :
    peso f ls (Function.update L l (a ++ b)) + (if l ∈ ls then f x else 0) = peso f ls L := by
  split
  · rename_i h
    have := peso_update (f := f) (L := L) hn h (a ++ b)
    rw [hl] at this
    simp only [List.map_append, List.sum_append, List.map_cons, List.sum_cons] at this
    omega
  · rename_i h
    rw [peso_update_of_notMem h, Nat.add_zero]

end

/-- The weight is zero exactly when every element weighs nothing. -/
theorem peso_eq_zero : peso f ls L = 0 ↔ ∀ l ∈ ls, ∀ x ∈ L l, f x = 0 := by
  induction ls with
  | nil => simp
  | cons m ls ih =>
      rw [peso_cons, Nat.add_eq_zero_iff, ih, List.sum_eq_zero_iff]
      simp

/-- A list weighs at most as much as the lists it is one of. -/
theorem sum_le_peso (hl : l ∈ ls) : ((L l).map f).sum ≤ peso f ls L :=
  List.single_le_sum (by simp) _ (List.mem_map_of_mem (f := fun m => ((L m).map f).sum) hl)

/-- An element weighs at most as much as the lists it is in. -/
theorem le_peso (hl : l ∈ ls) (hx : x ∈ L l) : f x ≤ peso f ls L :=
  (List.single_le_sum (by simp) _ (List.mem_map_of_mem hx)).trans (sum_le_peso hl)

end Familia
