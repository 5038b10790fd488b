/-
**Machines that take turns.**

Some machines advance one at a time, in an order that is left open, and each of them by itself: its
next state depends on its own state and on nothing else.  Whatever the order, what a machine goes
through is then the beginning of what it goes through alone.

Main definitions:

* `Intercalado.solo` — the states of a machine that runs alone, up to where it stops;
* `Intercalado.Tramo` — the beginnings of such a run;
* `Intercalado.sistema` — the machines, each with the states it has gone through;
* `Intercalado.Proyeccion` — a system whose events each belong to one of its parts;
* `Intercalado.producto` — the parts by themselves.

Main results:

* `Intercalado.Tramo.avanzar` — the next state of a machine makes its run longer;
* `Intercalado.tramo` — in every order of the turns, each machine runs as if it were alone;
* `Intercalado.Proyeccion.corrida` — the events of one part, in their order, are a run of that part.
-/

import Mathlib.Tactic
import TpSisop.Familias
import TpSisop.Transiciones

set_option relaxedAutoImplicit false
set_option autoImplicit false

namespace Intercalado

variable {ι σ ε : Type*}

/-! ### A machine that runs alone -/

/-- The state after a number of steps, unless the machine stops before. -/
def solo (siguiente : σ → Option σ) (x : σ) : ℕ → Option σ
  | 0 => some x
  | n + 1 => (solo siguiente x n).bind siguiente

/-- The states of a run from `x`, up to one of them. -/
def Tramo (siguiente : σ → Option σ) (x : σ) (t : List σ) : Prop :=
  ∀ n y, t[n]? = some y → solo siguiente x n = some y

variable {siguiente : σ → Option σ} {x y z : σ} {t : List σ}

theorem tramo_singleton (siguiente : σ → Option σ) (x : σ) : Tramo siguiente x [x] := by
  intro n y h
  cases n with
  | zero => exact h
  | succ n => simp at h

theorem Tramo.avanzar (h : Tramo siguiente x t) (hy : t.getLast? = some y)
    (hz : siguiente y = some z) : Tramo siguiente x (t ++ [z]) := by
  intro n w hw
  rcases Nat.lt_trichotomy n t.length with hn | rfl | hn
  · rw [List.getElem?_append_left hn] at hw
    exact h n w hw
  · rw [List.getElem?_concat_length] at hw
    cases hw
    have hne : t ≠ [] := by
      rintro rfl
      cases hy
    obtain ⟨n, hn⟩ := Nat.exists_eq_succ_of_ne_zero (List.length_pos_iff.2 hne).ne'
    rw [List.getLast?_eq_getElem?, hn] at hy
    rw [hn, solo, h n y hy]
    exact hz
  · rw [List.getElem?_eq_none (by simpa using hn)] at hw
    cases hw

/-! ### Several machines -/

/-- Each machine with the states it has gone through.  A step advances one machine, or none. -/
def sistema [DecidableEq ι] (ε : Type*) (siguiente : ι → σ → Option σ) (x : ι → σ) :
    Transicion.Sistema (ι → List σ) ε where
  inicial t := t = fun i => [x i]
  paso t _ t' :=
    t' = t ∨ ∃ i y z, (t i).getLast? = some y ∧ siguiente i y = some z ∧ t' = Familia.agregar t i z

/-- Each machine runs as if it were alone. -/
theorem tramo [DecidableEq ι] {siguiente : ι → σ → Option σ} {x : ι → σ} {t : ι → List σ}
    (h : Transicion.Alcanzable (sistema ε siguiente x) t) (i : ι) :
    Tramo (siguiente i) (x i) (t i) := by
  refine h.invariante (I := fun t => Tramo (siguiente i) (x i) (t i)) ?_ ?_
  · rintro _ rfl
    exact tramo_singleton _ _
  · rintro t e t' hI - (rfl | ⟨j, y, z, hy, hz, rfl⟩)
    · exact hI
    · by_cases hij : i = j
      · subst hij
        rw [Familia.agregar_self]
        exact hI.avanzar hy hz
      · rwa [Familia.agregar_of_ne hij]

/-! ### The events of one part -/

/-- Each event of `S` has an owner.  On what `f` shows of the owner it is a step of the owner's own
system, and of the others nothing changes. -/
structure Proyeccion {τ : Type*} (S : Transicion.Sistema σ ε) (C : σ → ε → Prop) (duenio : ε → ι)
    (A : ι → Transicion.Sistema τ ε) (f : σ → ι → τ) : Prop where
  inicial : ∀ s, S.inicial s → ∀ i, (A i).inicial (f s i)
  paso : ∀ s e s', C s e → S.paso s e s' →
    (A (duenio e)).paso (f s (duenio e)) e (f s' (duenio e))
  ajenos : ∀ s e s', C s e → S.paso s e s' → ∀ i, i ≠ duenio e → f s' i = f s i

/-- Whatever the others do in between, the events of one part are a run of it. -/
theorem Proyeccion.corrida [DecidableEq ι] {τ : Type*} {S : Transicion.Sistema σ ε}
    {C : σ → ε → Prop} {duenio : ε → ι} {A : ι → Transicion.Sistema τ ε} {f : σ → ι → τ}
    (h : Proyeccion S C duenio A f) {es : List ε} {s : σ} (hs : Transicion.Corrida S C es s)
    (i : ι) :
    Transicion.Corrida (A i) (fun _ _ => True) (es.filter fun e => duenio e = i) (f s i) := by
  induction hs with
  | inicio hs => exact .inicio (h.inicial _ hs i)
  | paso _ hC hp ih =>
      rename_i es s s' e _
      rw [List.filter_append]
      by_cases hi : duenio e = i
      · subst hi
        rw [List.filter_singleton, decide_eq_true rfl]
        exact .paso ih trivial (h.paso _ _ _ hC hp)
      · rw [List.filter_singleton, decide_eq_false hi, h.ajenos _ _ _ hC hp i (Ne.symm hi)]
        simpa using ih

/-- The parts by themselves: an event is a step of its owner. -/
def producto {τ : Type*} (A : ι → Transicion.Sistema τ ε) (duenio : ε → ι) :
    Transicion.Sistema (ι → τ) ε where
  inicial a := ∀ i, (A i).inicial (a i)
  paso a e a' :=
    (A (duenio e)).paso (a (duenio e)) e (a' (duenio e)) ∧ ∀ i, i ≠ duenio e → a' i = a i

theorem proyeccion_producto {τ : Type*} (A : ι → Transicion.Sistema τ ε) (duenio : ε → ι) :
    Proyeccion (producto A duenio) (fun _ _ => True) duenio A fun a => a :=
  ⟨fun _ h => h, fun _ _ _ _ h => h.1, fun _ _ _ _ h => h.2⟩

end Intercalado
