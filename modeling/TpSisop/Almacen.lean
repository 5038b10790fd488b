/-
**Owners with places of their own in one store.**

A store holds a value in each place.  Owners have lists of places, in an order of their own, and no
two of them share a place.  What an owner sees is the list of the values in its places; it writes a
stretch of them, is given more or gives some back, and none of that shows in what another owner
sees.

Main definitions:

* `Almacen.reemplazar` — a list with some of its elements replaced;
* `Almacen.Escribe` — what a write does to the store;
* `Almacen.Colocacion`, `Almacen.Colocacion.vista` — the places of the owners, and what each
  one sees.

Main results:

* `Almacen.map_of_escribe` — what the owner of the places sees after a write;
* `Almacen.Colocacion.vista_escribir` — and what all of them see.
-/

import Mathlib.Tactic

set_option relaxedAutoImplicit false
set_option autoImplicit false

namespace Almacen

variable {O D V W : Type*}

/-! ### Replacing a stretch of a list -/

/-- The list with `vs` in the positions from `i` on. -/
def reemplazar (l : List V) (i : ℕ) (vs : List V) : List V :=
  l.take i ++ vs ++ l.drop (i + vs.length)

/-! ### Writing to the store -/

/-- `σ'` is `σ` with the values `vs` in the places `ds`; nothing else changes. -/
structure Escribe (σ σ' : D → V) (ds : List D) (vs : List V) : Prop where
  escritos : ds.map σ' = vs
  ajenos : ∀ a, a ∉ ds → σ' a = σ a

variable {σ σ' : D → V} {ds : List D} {vs : List V}

/-- Places that are not written look the same. -/
theorem Escribe.map_ajenos (h : Escribe σ σ' ds vs) {es : List D} (hes : ∀ a ∈ es, a ∉ ds) :
    es.map σ' = es.map σ :=
  List.map_congr_left fun a ha => h.ajenos a (hes a ha)

/-- Writing a stretch of some places replaces that stretch of what is seen there. -/
theorem map_of_escribe {i n : ℕ} (hds : ds.Nodup) (h : Escribe σ σ' ((ds.drop i).take n) vs)
    (hn : i + n ≤ ds.length) : ds.map σ' = reemplazar (ds.map σ) i vs := by
  have hpartes : ds = ds.take i ++ ((ds.drop i).take n ++ ds.drop (i + n)) := by
    rw [← List.drop_drop, List.take_append_drop, List.take_append_drop]
  have hlen : vs.length = n := by
    rw [← h.escritos, List.length_map, List.length_take, List.length_drop]
    omega
  have hnodup := hds
  rw [hpartes, List.nodup_append] at hnodup
  obtain ⟨-, hresto, hantes⟩ := hnodup
  have hdespues := (List.nodup_append.1 hresto).2.2
  have htake : (ds.take i).map σ' = (ds.map σ).take i := by
    rw [h.map_ajenos, List.map_take]
    exact fun a ha hin => hantes a ha a (List.mem_append_left _ hin) rfl
  have hdrop : (ds.drop (i + n)).map σ' = (ds.map σ).drop (i + n) := by
    rw [h.map_ajenos, List.map_drop]
    exact fun a ha hin => hdespues a hin a ha rfl
  calc ds.map σ'
      = (ds.take i).map σ' ++ (((ds.drop i).take n).map σ' ++ (ds.drop (i + n)).map σ') := by
        rw [← List.map_append, ← List.map_append, ← hpartes]
    _ = reemplazar (ds.map σ) i vs := by
        rw [htake, hdrop, h.escritos, reemplazar, hlen, List.append_assoc]

/-! ### The owners -/

/-- The places of each owner, in its order, and `none` for who is not an owner. -/
structure Colocacion (O D : Type*) where
  lugares : O → Option (List D)
  propios : ∀ {p ds}, lugares p = some ds → ds.Nodup
  ajenos : ∀ {p q ds es}, lugares p = some ds → lugares q = some es → p ≠ q → ∀ a ∈ ds, a ∉ es

namespace Colocacion

/-- What each owner sees. -/
def vista (C : Colocacion O D) (σ : D → V) (p : O) : Option (List V) :=
  (C.lugares p).map (List.map σ)

variable {C C' : Colocacion O D} {p : O}

@[simp] theorem vista_of_none (σ : D → V) (h : C.lugares p = none) : C.vista σ p = none := by
  rw [vista, h, Option.map_none]

@[simp] theorem vista_of_some (σ : D → V) (h : C.lugares p = some ds) :
    C.vista σ p = some (ds.map σ) := by
  rw [vista, h, Option.map_some]

/-- A write of a stretch of the places of an owner is seen by that owner alone. -/
theorem vista_escribir [DecidableEq O] {i n : ℕ} (h : C.lugares p = some ds)
    (hw : Escribe σ σ' ((ds.drop i).take n) vs) (hn : i + n ≤ ds.length) :
    C.vista σ' = Function.update (C.vista σ) p (some (reemplazar (ds.map σ) i vs)) := by
  funext q
  by_cases hq : q = p
  · subst hq
    rw [Function.update_self, vista_of_some σ' h, map_of_escribe (C.propios h) hw hn]
  rw [Function.update_of_ne hq]
  cases hqs : C.lugares q with
  | none => rw [vista_of_none σ' hqs, vista_of_none σ hqs]
  | some es =>
      rw [vista_of_some σ' hqs, vista_of_some σ hqs, hw.map_ajenos]
      intro a ha hin
      exact C.ajenos hqs h hq a ha (List.mem_of_mem_drop (List.mem_of_mem_take hin))

/-- Giving an owner other places is seen by that owner alone. -/
theorem vista_cambiar [DecidableEq O] {t : Option (List D)} (σ : D → V)
    (h : C'.lugares = Function.update C.lugares p t) :
    C'.vista σ = Function.update (C.vista σ) p (t.map (List.map σ)) := by
  funext q
  unfold vista
  rw [h]
  by_cases hq : q = p
  · subst hq
    rw [Function.update_self, Function.update_self]
  · rw [Function.update_of_ne hq, Function.update_of_ne hq]

end Colocacion

end Almacen
