/-
**Lists and bit arrays as the C collections library offers them.**

The C collections address a list by an `int` index and answer `NULL` when the index is outside the
list; a search loop answers `-1` when it finds nothing, and that `-1` is then used as an index.  A
bit array is a block of memory read and written one bit at a time, searched from the front for a
clear bit.  This module gives both their lemmas, over arbitrary element types.

Main definitions:

* `Coleccion.obtener`, `Coleccion.remover` — `list_get` and `list_remove`, with `none` for `NULL`;
* `Coleccion.indice` — the search loop, `-1` when nothing is found;
* `Coleccion.alterar` — writing to the first match;
* `Coleccion.Diccionario` — a dictionary with string keys;
* `Bits.primerLibre`, `Bits.libres` — the first clear bit and the number of clear bits below a
  bound;
* `Bits.aBytes`, `Bits.deBytes` — the block of memory of a bit array, and its bits.

Main results:

* `Coleccion.remover_indice_eq_some` — removing at the index found splits the list at its first
  match;
* `Bits.primerLibre_eq_some`, `Bits.primerLibre_eq_none` — what the search for a clear bit finds;
* `Bits.libres_ocupar`, `Bits.libres_liberar` — one bit changes the count by one;
* `Bits.deBytes_aBytes` — the bits come back from memory.
-/

import Mathlib.Data.List.Basic
import Mathlib.Data.Int.Order.Basic
import Mathlib.Logic.Function.Basic
import Mathlib.Tactic

set_option relaxedAutoImplicit false
set_option autoImplicit false

namespace Coleccion

variable {α : Type*}

/-! ### Indexed access -/

/-- `list_get`: the element at an index, `none` (`NULL`) outside the list. -/
def obtener (l : List α) (i : ℤ) : Option α :=
  if i < 0 then none else l[i.toNat]?

/-- `list_remove`: the element at an index and the list without it, `none` outside the list. -/
def remover (l : List α) (i : ℤ) : Option (α × List α) :=
  (obtener l i).map fun x => (x, l.eraseIdx i.toNat)

/-- The search loop: the index of the first element that satisfies `q`, or `-1`. -/
def indice (q : α → Bool) (l : List α) : ℤ :=
  match l.findIdx? q with
  | some i => i
  | none => -1

@[simp] theorem obtener_natCast (l : List α) (i : ℕ) : obtener l (i : ℤ) = l[i]? := by
  simp [obtener]

theorem obtener_of_neg (l : List α) {i : ℤ} (h : i < 0) : obtener l i = none := by
  simp [obtener, h]

/-- An index that answers an element is a position of the list. -/
theorem obtener_eq_some_iff {l : List α} {i : ℤ} {x : α} :
    obtener l i = some x ↔ ∃ j : ℕ, (j : ℤ) = i ∧ l[j]? = some x := by
  constructor
  · intro h
    unfold obtener at h
    split at h
    · cases h
    · exact ⟨i.toNat, by omega, h⟩
  · rintro ⟨j, rfl, h⟩
    rwa [obtener_natCast]

@[simp] theorem remover_natCast (l : List α) (i : ℕ) :
    remover l (i : ℤ) = l[i]?.map fun x => (x, l.eraseIdx i) := by
  simp [remover]

theorem remover_of_neg (l : List α) {i : ℤ} (h : i < 0) : remover l i = none := by
  simp [remover, obtener_of_neg l h]

/-- What is written through the pointer to the first element that satisfies `q`. -/
def alterar (q : α → Bool) (f : α → α) : List α → List α
  | [] => []
  | x :: l => if q x then f x :: l else x :: alterar q f l

/-- What the change keeps is as it was. -/
theorem map_alterar {β : Type*} {g : α → β} {f : α → α} (hg : ∀ x, g (f x) = g x) (q : α → Bool)
    (l : List α) : (alterar q f l).map g = l.map g := by
  induction l with
  | nil => rfl
  | cons x l ih =>
      unfold alterar
      split
      · rw [List.map_cons, List.map_cons, hg]
      · rw [List.map_cons, List.map_cons, ih]

/-- Only the first match is written. -/
theorem alterar_append {q : α → Bool} {a : List α} (ha : ∀ y ∈ a, q y = false) {x : α}
    (hx : q x = true) (f : α → α) (b : List α) :
    alterar q f (a ++ x :: b) = a ++ f x :: b := by
  induction a with
  | nil => simp [alterar, hx]
  | cons y a ih =>
      have hy := ha y (by simp)
      simp [alterar, hy, ih fun z hz => ha z (by simp [hz])]

/-- Appended in the middle, an element is removed by its position. -/
theorem eraseIdx_length_append (a b : List α) (x : α) :
    (a ++ x :: b).eraseIdx a.length = a ++ b := by
  rw [List.eraseIdx_append_of_length_le le_rfl]
  simp

theorem insertIdx_length_append (a b : List α) (x : α) :
    (a ++ b).insertIdx a.length x = a ++ x :: b := by
  induction a with
  | nil => rfl
  | cons y a ih => simp [ih]

/-- A list that is not empty has a first element of the least value. -/
theorem exists_primer_minimo (f : α → ℕ) {l : List α} (h : l ≠ []) :
    ∃ pre x suf, l = pre ++ x :: suf ∧ (∀ y ∈ l, f x ≤ f y) ∧ ∀ y ∈ pre, f x < f y := by
  induction l with
  | nil => exact absurd rfl h
  | cons a l ih =>
      by_cases hl : l = []
      · exact ⟨[], a, [], by rw [hl]; rfl, by simp [hl], by simp⟩
      obtain ⟨pre, x, suf, rfl, hmin, hpre⟩ := ih hl
      by_cases ha : f a ≤ f x
      · refine ⟨[], a, pre ++ x :: suf, rfl, fun y hy => ?_, by simp⟩
        rcases List.mem_cons.1 hy with rfl | hy
        · exact le_rfl
        · exact ha.trans (hmin y hy)
      · refine ⟨a :: pre, x, suf, rfl, fun y hy => ?_, fun y hy => ?_⟩
        · rcases List.mem_cons.1 hy with rfl | hy
          · omega
          · exact hmin y hy
        · rcases List.mem_cons.1 hy with rfl | hy
          · omega
          · exact hpre y hy

/-- What is left of a queue without repetitions holds the elements from a position on. -/
theorem mem_drop_iff_le_idxOf [DecidableEq α] {l : List α} (hn : l.Nodup) {x : α} (hx : x ∈ l)
    (c : ℕ) : x ∈ l.drop c ↔ c ≤ l.idxOf x := by
  constructor
  · intro h
    obtain ⟨i, hi, rfl⟩ := List.mem_iff_getElem.1 h
    rw [List.getElem_drop, hn.idxOf_getElem]
    omega
  · intro h
    have hlt := List.idxOf_lt_length_of_mem hx
    refine List.mem_iff_getElem.2 ⟨l.idxOf x - c, by simp; omega, ?_⟩
    simp [List.getElem_drop, Nat.add_sub_cancel' h]

/-- An element that stands behind the first ones splits what follows them. -/
theorem exists_split_of_le_idxOf [DecidableEq α] {l : List α} {x : α} {d : ℕ}
    (h : d ≤ l.idxOf x) (hx : x ∈ l) :
    ∃ a b, l = a ++ x :: b ∧ x ∉ a ∧ l.erase x = a ++ b ∧ d ≤ a.length := by
  obtain ⟨a, b, ha, hl, he⟩ := List.exists_erase_eq hx
  refine ⟨a, b, hl, ha, he, ?_⟩
  rwa [hl, List.idxOf_append_of_notMem ha, List.idxOf_cons_self, add_zero] at h

theorem take_erase_of_le_idxOf [DecidableEq α] {l : List α} {x : α} {d : ℕ}
    (h : d ≤ l.idxOf x) : (l.erase x).take d = l.take d := by
  by_cases hx : x ∈ l
  · obtain ⟨a, b, hl, -, he, hd⟩ := exists_split_of_le_idxOf h hx
    rw [he, hl, List.take_append_of_le_length hd, List.take_append_of_le_length hd]
  · rw [List.erase_of_not_mem hx]

theorem drop_erase_of_le_idxOf [DecidableEq α] {l : List α} {x : α} {d : ℕ}
    (h : d ≤ l.idxOf x) : (l.erase x).drop d = (l.drop d).erase x := by
  by_cases hx : x ∈ l
  · obtain ⟨a, b, hl, ha, he, hd⟩ := exists_split_of_le_idxOf h hx
    have ha' : x ∉ a.drop d := fun h => ha (List.mem_of_mem_drop h)
    rw [he, hl, List.drop_append_of_le_length hd, List.drop_append_of_le_length hd,
      List.erase_append_right _ ha', List.erase_cons_head]
  · rw [List.erase_of_not_mem hx, List.erase_of_not_mem fun h => hx (List.mem_of_mem_drop h)]

/-- A search that finds something splits the list at its first match. -/
theorem findIdx?_split {q : α → Bool} {l : List α} {i : ℕ} (h : l.findIdx? q = some i) :
    ∃ a x b, l = a ++ x :: b ∧ a.length = i ∧ q x = true ∧ ∀ y ∈ a, q y = false := by
  obtain ⟨hi, hx, hlt⟩ := List.findIdx?_eq_some_iff_getElem.1 h
  refine ⟨l.take i, l[i], l.drop (i + 1), by simp, by simp; omega, hx, ?_⟩
  intro y hy
  obtain ⟨j, hj, rfl⟩ := List.mem_iff_getElem.1 hy
  have hji : j < i := by
    have := hj
    simp at this
    omega
  simpa using hlt j hji

/-- Removing at the index found by the search splits the list at its first match. -/
theorem remover_indice_eq_some {q : α → Bool} {l r : List α} {x : α}
    (h : remover l (indice q l) = some (x, r)) :
    ∃ a b, l = a ++ x :: b ∧ q x = true ∧ (∀ y ∈ a, q y = false) ∧ r = a ++ b := by
  unfold indice at h
  cases hf : l.findIdx? q with
  | none =>
      rw [hf, remover_of_neg l (by decide)] at h
      cases h
  | some i =>
      obtain ⟨a, y, b, rfl, rfl, hy, ha⟩ := findIdx?_split hf
      rw [hf] at h
      simp [eraseIdx_length_append] at h
      obtain ⟨rfl, rfl⟩ := h
      exact ⟨a, b, rfl, hy, ha, rfl⟩

/-- The first match is the one that is removed. -/
theorem remover_indice_append {q : α → Bool} {a : List α} (ha : ∀ y ∈ a, q y = false) {x : α}
    (hx : q x = true) (b : List α) :
    remover (a ++ x :: b) (indice q (a ++ x :: b)) = some (x, a ++ b) := by
  have hi : (a ++ x :: b).findIdx? q = some a.length := by
    have hn : a.findIdx? q = none := List.findIdx?_eq_none_iff.2 ha
    simp [List.findIdx?_append, List.findIdx?_cons, hn, hx]
  simp [indice, hi, eraseIdx_length_append]

@[simp] theorem remover_nil (i : ℤ) : remover ([] : List α) i = none := by
  simp [remover, obtener]

@[simp] theorem remover_cons_zero (x : α) (l : List α) : remover (x :: l) 0 = some (x, l) := rfl

/-- At index zero the removal takes the first element. -/
theorem remover_zero_eq_some {l : List α} {r : α × List α} :
    remover l 0 = some r ↔ l = r.1 :: r.2 := by
  cases l with
  | nil => simp
  | cons x l => rw [remover_cons_zero, Option.some.injEq, Prod.ext_iff, List.cons.injEq]

/-- The search fails, and the removal answers `NULL`, exactly when nothing matches. -/
theorem remover_indice_eq_none {q : α → Bool} {l : List α} :
    remover l (indice q l) = none ↔ ∀ y ∈ l, q y = false := by
  unfold indice
  cases hf : l.findIdx? q with
  | none => simpa [remover_of_neg] using hf
  | some i =>
      obtain ⟨a, y, b, rfl, rfl, hy, -⟩ := findIdx?_split hf
      simpa using ⟨y, by simp, hy⟩

/-! ### Dictionaries -/

/-- A value of a function that was changed in one place is the new one or an old one. -/
theorem update_eq_some {ι : Type*} [DecidableEq ι] {f : ι → Option α} {i j : ι} {t : Option α}
    {a : α} (h : Function.update f j t i = some a) :
    (i = j ∧ t = some a) ∨ (i ≠ j ∧ f i = some a) := by
  by_cases hi : i = j
  · subst hi
    rw [Function.update_self] at h
    exact .inl ⟨rfl, h⟩
  · rw [Function.update_of_ne hi] at h
    exact .inr ⟨hi, h⟩

/-- A dictionary with string keys: its entries, and the list of its keys.  The library lists the
keys in an order of its own, which is some permutation of this list. -/
structure Diccionario (α : Type*) where
  claves : List String
  valor : String → Option α
  nodup : claves.Nodup
  mem_claves : ∀ {n}, n ∈ claves ↔ valor n ≠ none

namespace Diccionario

/-- `dictionary_create`. -/
def vacio : Diccionario α where
  claves := []
  valor := fun _ => none
  nodup := List.nodup_nil
  mem_claves := by simp

/-- `dictionary_put`. -/
def poner (d : Diccionario α) (n : String) (a : α) : Diccionario α where
  claves := if n ∈ d.claves then d.claves else d.claves ++ [n]
  valor := Function.update d.valor n (some a)
  nodup := by
    split
    · exact d.nodup
    · rename_i hn
      refine List.nodup_append.2 ⟨d.nodup, List.nodup_singleton n, ?_⟩
      rintro b hb k hk rfl
      exact hn (List.mem_singleton.1 hk ▸ hb)
  mem_claves := by
    intro k
    by_cases hk : k = n
    · subst hk
      split <;> simp_all
    · have := d.mem_claves (n := k)
      split <;> simp_all

/-- `dictionary_remove`. -/
def quitar (d : Diccionario α) (n : String) : Diccionario α where
  claves := d.claves.erase n
  valor := Function.update d.valor n none
  nodup := d.nodup.erase n
  mem_claves := by
    intro k
    rw [d.nodup.mem_erase_iff]
    by_cases hk : k = n
    · subst hk
      simp
    · simp [hk, d.mem_claves]

@[simp] theorem vacio_valor (n : String) : (vacio : Diccionario α).valor n = none := rfl

@[simp] theorem poner_valor (d : Diccionario α) (n : String) (a : α) :
    (d.poner n a).valor = Function.update d.valor n (some a) := rfl

theorem poner_valor_self (d : Diccionario α) (n : String) (a : α) :
    (d.poner n a).valor n = some a := by
  simp

@[simp] theorem quitar_valor (d : Diccionario α) (n : String) :
    (d.quitar n).valor = Function.update d.valor n none := rfl

/-- The value of a key after one was put is the new one or an old one. -/
theorem poner_eq_some {d : Diccionario α} {n m : String} {a b : α}
    (h : (d.poner m a).valor n = some b) : (n = m ∧ a = b) ∨ (n ≠ m ∧ d.valor n = some b) := by
  rw [poner_valor] at h
  simpa using update_eq_some h

/-- Of two values for a key only the last one counts. -/
@[simp] theorem poner_poner (d : Diccionario α) (n : String) (a b : α) :
    (d.poner n a).poner n b = d.poner n b := by
  have hc : n ∈ (d.poner n a).claves := (d.poner n a).mem_claves.2 (by simp)
  have hcl : ((d.poner n a).poner n b).claves = (d.poner n b).claves := by
    show (if n ∈ (d.poner n a).claves then _ else _) = _
    rw [if_pos hc]
    rfl
  have hv : ((d.poner n a).poner n b).valor = (d.poner n b).valor := by simp
  cases h₁ : (d.poner n a).poner n b
  cases h₂ : d.poner n b
  simp_all

/-- Replacing the value of a key keeps the list of keys. -/
theorem poner_claves {d : Diccionario α} {n : String} (h : d.valor n ≠ none) (a : α) :
    (d.poner n a).claves = d.claves :=
  if_pos (d.mem_claves.2 h)

end Diccionario

end Coleccion

namespace Bits

/-! ### Searching and counting clear bits -/

/-- The first clear bit below `n`, found by the loop from zero. -/
def primerLibre (b : ℕ → Bool) (n : ℕ) : Option ℕ :=
  (List.range n).find? fun i => !b i

/-- The number of clear bits below `n`. -/
def libres (b : ℕ → Bool) (n : ℕ) : ℕ :=
  (List.range n).countP fun i => !b i

@[simp] theorem libres_zero (b : ℕ → Bool) : libres b 0 = 0 := rfl

theorem libres_succ (b : ℕ → Bool) (n : ℕ) :
    libres b (n + 1) = libres b n + if b n then 0 else 1 := by
  unfold libres
  rw [List.range_succ, List.countP_append]
  cases h : b n <;> simp [h]

theorem primerLibre_eq_some {b : ℕ → Bool} {n i : ℕ} (h : primerLibre b n = some i) :
    i < n ∧ b i = false := by
  have hmem := List.mem_of_find?_eq_some h
  have hlibre := List.find?_some h
  exact ⟨List.mem_range.1 hmem, by simpa using hlibre⟩

theorem primerLibre_eq_none {b : ℕ → Bool} {n : ℕ} (h : primerLibre b n = none) :
    ∀ i < n, b i = true := by
  intro i hi
  simpa using List.find?_eq_none.1 h i (List.mem_range.2 hi)

/-- As long as the count is positive the search finds a clear bit. -/
theorem primerLibre_of_libres_pos {b : ℕ → Bool} {n : ℕ} (h : 0 < libres b n) :
    ∃ i, primerLibre b n = some i := by
  obtain ⟨i, hi, hb⟩ := List.countP_pos_iff.1 h
  cases hp : primerLibre b n with
  | some j => exact ⟨j, rfl⟩
  | none =>
      have := primerLibre_eq_none hp i (List.mem_range.1 hi)
      simp [this] at hb

/-- Bits at or above the bound do not count. -/
theorem libres_update_of_le (b : ℕ → Bool) {n i : ℕ} (v : Bool) (h : n ≤ i) :
    libres (Function.update b i v) n = libres b n := by
  unfold libres
  refine List.countP_congr ?_
  intro j hj
  have hne : j ≠ i := by
    have := List.mem_range.1 hj
    omega
  rw [Function.update_of_ne hne]

/-- Setting a clear bit takes one from the count. -/
theorem libres_ocupar {b : ℕ → Bool} {n i : ℕ} (hi : i < n) (hb : b i = false) :
    libres (Function.update b i true) n + 1 = libres b n := by
  induction n with
  | zero => omega
  | succ n ih =>
      rw [libres_succ, libres_succ]
      rcases Nat.lt_succ_iff_lt_or_eq.1 hi with h | rfl
      · rw [Function.update_of_ne (by omega), ← ih h]
        omega
      · rw [libres_update_of_le b true le_rfl]
        simp [hb]

/-- Clearing a set bit adds one to the count. -/
theorem libres_liberar {b : ℕ → Bool} {n i : ℕ} (hi : i < n) (hb : b i = true) :
    libres (Function.update b i false) n = libres b n + 1 := by
  have h := libres_ocupar (b := Function.update b i false) hi (by simp)
  rw [Function.update_idem, ← hb, Function.update_eq_self] at h
  exact h.symm

/-! ### Bit arrays in memory -/

/-- Eight bits from the `k`-th on, the first of them the most significant (`MSB_FIRST`). -/
def byteDesde (b : ℕ → Bool) (k : ℕ) : UInt8 :=
  ⟨BitVec.ofBoolListBE [b k, b (k + 1), b (k + 2), b (k + 3), b (k + 4), b (k + 5), b (k + 6),
    b (k + 7)]⟩

/-- The bytes of a bit array. -/
def aBytes (b : ℕ → Bool) (n : ℕ) : List UInt8 := (List.range n).map fun k => byteDesde b (8 * k)

/-- One bit of a block of memory; clear outside it. -/
def deBytes (bs : List UInt8) (i : ℕ) : Bool := (bs.getD (i / 8) 0).toBitVec.getMsbD (i % 8)

theorem getMsbD_byteDesde (b : ℕ → Bool) (k : ℕ) {j : ℕ} (h : j < 8) :
    (byteDesde b k).toBitVec.getMsbD j = b (k + j) := by
  refine (BitVec.getMsbD_ofBoolListBE ..).trans ?_
  interval_cases j <;> rfl

/-- The bytes of a bit array that is clear. -/
theorem aBytes_false (n : ℕ) : aBytes (fun _ => false) n = List.replicate n 0 := by
  rw [aBytes, List.eq_replicate_iff]
  refine ⟨by simp, fun b hb => ?_⟩
  obtain ⟨k, -, rfl⟩ := List.mem_map.1 hb
  apply UInt8.toBitVec_inj.1
  apply BitVec.eq_of_getMsbD_eq
  intro j hj
  rw [getMsbD_byteDesde _ _ hj]
  simp

theorem deBytes_aBytes {b : ℕ → Bool} {n i : ℕ} (h : i < 8 * n) : deBytes (aBytes b n) i = b i := by
  have hbyte : i / 8 < n := by omega
  have hbit : i % 8 < 8 := Nat.mod_lt _ (by decide)
  rw [deBytes, aBytes, List.getD_eq_getElem?_getD, List.getElem?_map, List.getElem?_range hbyte,
    Option.map_some, Option.getD_some, getMsbD_byteDesde b _ hbit, Nat.div_add_mod]

end Bits
