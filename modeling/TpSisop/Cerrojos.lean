/-
**Threads that share locks.**

A thread is what is left of its code: a list of instructions, each of which takes a lock, releases
one, or acts on the data that the threads share; an action may put more code in front of the rest.
Who holds each lock is kept beside the threads.  What a code may do is a discipline: a state that
goes from instruction to instruction, and the instructions that each state admits.  The discipline
of the locks has the locks that are held for its state: a code takes none that it holds, releases
only what it holds, and acts only where it is allowed to; this module shows that threads whose code
follows it go on doing so, in every order of their steps.

Main definitions:

* `Cerrojos.Disciplina`, `Cerrojos.Disciplina.Respeta` — a discipline, and the codes that follow it;
* `Cerrojos.Orden` — an instruction;
* `Cerrojos.Reglas`, `Cerrojos.Reglas.disciplina` — which actions are allowed with which locks, in
  which order the locks are taken, and the discipline that this is;
* `Cerrojos.Reglas.Sigue` — the codes that follow it, but for the order of a first wait;
* `Cerrojos.Reparto` — the code of every thread, and who holds every lock;
* `Cerrojos.Reparto.Abrazo` — two threads that wait for each other;
* `Cerrojos.Reparto.EnRegla` — every thread follows the rules with what it holds;
* `Cerrojos.Reparto.Cuadra` — each lock is a semaphore that is up exactly when nobody holds it.

Main results:

* `Cerrojos.Disciplina.Cubre.append`, `Cerrojos.Disciplina.Cubre.respeta` — the rules of sequencing;
* `Cerrojos.Reparto.EnRegla.tomar`, `Cerrojos.Reparto.EnRegla.soltar`,
  `Cerrojos.Reparto.EnRegla.hacer` — the steps;
* `Cerrojos.Reparto.Cuadra.tomar`, `Cerrojos.Reparto.Cuadra.soltar` — the semaphores.
-/

import Mathlib.Logic.Function.Basic
import Mathlib.Tactic

set_option relaxedAutoImplicit false
set_option autoImplicit false

namespace Cerrojos

/-! ### Disciplines -/

/-- Which instructions may come in which state, the state after each, and those in which a code may
end. -/
structure Disciplina (σ α : Type) where
  admite : σ → α → Prop
  tras : σ → α → σ
  final : σ → Prop

namespace Disciplina

variable {σ α : Type} {D : Disciplina σ α} {x y : σ} {a : α} {e r : List α}

/-- The code follows the discipline to its end. -/
def Respeta (D : Disciplina σ α) : σ → List α → Prop
  | x, [] => D.final x
  | x, a :: r => D.admite x a ∧ D.Respeta (D.tras x a) r

@[simp] theorem respeta_nil : D.Respeta x [] ↔ D.final x := Iff.rfl

@[simp] theorem respeta_cons :
    D.Respeta x (a :: r) ↔ D.admite x a ∧ D.Respeta (D.tras x a) r := Iff.rfl

/-- The code may come in the state `x`, and the state after it is `y`. -/
def Cubre (D : Disciplina σ α) : σ → List α → σ → Prop
  | x, [], y => x = y
  | x, a :: e, y => D.admite x a ∧ D.Cubre (D.tras x a) e y

@[simp] theorem cubre_nil : D.Cubre x [] y ↔ x = y := Iff.rfl

@[simp] theorem cubre_cons :
    D.Cubre x (a :: e) y ↔ D.admite x a ∧ D.Cubre (D.tras x a) e y := Iff.rfl

theorem Cubre.append {e₁ e₂ : List α} {z : σ} (h₁ : D.Cubre x e₁ y) (h₂ : D.Cubre y e₂ z) :
    D.Cubre x (e₁ ++ e₂) z := by
  induction e₁ generalizing x with
  | nil => exact (cubre_nil.1 h₁) ▸ h₂
  | cons a e₁ ih => exact ⟨h₁.1, ih h₁.2⟩

/-- The rule of sequencing. -/
theorem Cubre.respeta (h : D.Cubre x e y) (hr : D.Respeta y r) : D.Respeta x (e ++ r) := by
  induction e generalizing x with
  | nil => exact (cubre_nil.1 h) ▸ hr
  | cons a e ih => exact ⟨h.1, ih h.2⟩

end Disciplina

/-! ### Code that respects the locks -/

/-- An instruction of a thread. -/
inductive Orden (κ ω : Type)
  | esperar (c : κ)
  | avisar (c : κ)
  | hacer (o : ω)
  deriving DecidableEq, Repr

variable {ι κ ω : Type}

/-- Which locks may be taken, and which actions are allowed, while which others are held; the locks
that the code that an action stands for releases; and what may be held at the end. -/
structure Reglas (κ ω : Type) where
  toma : (κ → Prop) → κ → Prop
  permite : (κ → Prop) → ω → Prop
  suelta : ω → κ → Prop
  final : (κ → Prop) → Prop

namespace Reglas

variable {R : Reglas κ ω} {P : κ → Prop} {o : ω} {c : κ} {r e : List (Orden κ ω)}

/-- The locks that are held after an instruction. -/
def tras (R : Reglas κ ω) (P : κ → Prop) : Orden κ ω → κ → Prop
  | .esperar c => fun d => d = c ∨ P d
  | .avisar c => fun d => d ≠ c ∧ P d
  | .hacer o => fun d => P d ∧ ¬R.suelta o d

/-- An instruction may come while the locks of `P` are held. -/
def Admite (R : Reglas κ ω) (P : κ → Prop) : Orden κ ω → Prop
  | .esperar c => ¬P c ∧ R.toma P c
  | .avisar c => P c
  | .hacer o => R.permite P o

/-- The rules as a discipline, whose state is what is held. -/
def disciplina (R : Reglas κ ω) : Disciplina (κ → Prop) (Orden κ ω) where
  admite := R.Admite
  tras := R.tras
  final := R.final

/-- An action whose code releases nothing. -/
theorem tras_hacer (h : ∀ d, ¬R.suelta o d) : R.tras P (.hacer o) = P := by
  funext d
  simp [tras, h d]

/-- The code respects the locks, but perhaps for the order in which it takes the first one. -/
def Sigue (R : Reglas κ ω) (P : κ → Prop) (r : List (Orden κ ω)) : Prop :=
  R.disciplina.Respeta P r ∨
    ∃ c r', r = .esperar c :: r' ∧ ¬P c ∧ R.disciplina.Respeta (R.tras P (.esperar c)) r'

theorem Sigue.esperar (h : R.Sigue P (.esperar c :: r)) :
    ¬P c ∧ R.disciplina.Respeta (R.tras P (.esperar c)) r := by
  obtain h | ⟨d, r', hr, hd, h⟩ := h
  · exact ⟨h.1.1, h.2⟩
  · cases hr
    exact ⟨hd, h⟩

theorem Sigue.avisar (h : R.Sigue P (.avisar c :: r)) :
    P c ∧ R.disciplina.Respeta (R.tras P (.avisar c)) r := by
  obtain h | ⟨d, r', hr, -⟩ := h
  · exact h
  · cases hr

theorem Sigue.hacer (h : R.Sigue P (.hacer o :: r)) :
    R.permite P o ∧ R.disciplina.Respeta (R.tras P (.hacer o)) r := by
  obtain h | ⟨d, r', hr, -⟩ := h
  · exact h
  · cases hr

theorem Sigue.final (h : R.Sigue P []) : R.final P := by
  obtain h | ⟨d, r', hr, -⟩ := h
  · exact h
  · cases hr

/-- The code `e` may stand for the action `o`: where the action is allowed, the code may come before
what may come after the action. -/
def Desarrolla (R : Reglas κ ω) (o : ω) (e : List (Orden κ ω)) : Prop :=
  ∀ P r, R.permite P o → R.disciplina.Respeta (R.tras P (.hacer o)) r → R.Sigue P (e ++ r)

/-- It may if it comes where the action may, and releases the same. -/
theorem desarrolla_of_cubre
    (h : ∀ P, R.permite P o → R.disciplina.Cubre P e (R.tras P (.hacer o))) : R.Desarrolla o e :=
  fun P _ hP hr => .inl ((h P hP).respeta hr)

end Reglas

/-! ### Threads -/

/-- What is left of the code of every thread, and who holds every lock. -/
structure Reparto (ι κ ω : Type) where
  codigo : ι → List (Orden κ ω)
  dueno : κ → Option ι

namespace Reparto

/-- The locks that a thread holds. -/
def tiene (s : Reparto ι κ ω) (h : ι) : κ → Prop := fun c => s.dueno c = some h

/-- The next instruction of a thread takes the lock. -/
def espera (s : Reparto ι κ ω) (h : ι) (c : κ) : Prop := (s.codigo h).head? = some (.esperar c)

instance [DecidableEq ι] (s : Reparto ι κ ω) (h : ι) (c : κ) : Decidable (s.tiene h c) :=
  inferInstanceAs (Decidable (_ = _))

instance [DecidableEq κ] [DecidableEq ω] (s : Reparto ι κ ω) (h : ι) (c : κ) :
    Decidable (s.espera h c) :=
  inferInstanceAs (Decidable (_ = _))

/-- A thread waits for a lock while it holds another one, and whoever holds the first waits for the
second. -/
def Abrazo (s : Reparto ι κ ω) (h : ι) : Prop :=
  ∃ j c d, c ≠ d ∧ s.tiene h c ∧ s.espera h d ∧ s.tiene j d ∧ s.espera j c

/-- Every thread follows the rules with what it holds. -/
def EnRegla (R : ι → Reglas κ ω) (s : Reparto ι κ ω) : Prop :=
  ∀ h, (R h).Sigue (s.tiene h) (s.codigo h)

/-- Each lock is a semaphore that is up exactly when nobody holds it. -/
def Cuadra (cuenta : κ → ℕ) (s : Reparto ι κ ω) : Prop :=
  ∀ c, cuenta c = if s.dueno c = none then 1 else 0

section

variable {s : Reparto ι κ ω} {h : ι} {c : κ} {r : List (Orden κ ω)} {R : ι → Reglas κ ω}
  {cuenta : κ → ℕ}

/-- A thread releases only what it holds. -/
theorem EnRegla.dueno_of_avisar (hs : s.EnRegla R) (hh : s.codigo h = .avisar c :: r) :
    s.dueno c = some h :=
  (hh ▸ hs h).avisar.1

/-- What a thread does is allowed with the locks it holds. -/
theorem EnRegla.permite (hs : s.EnRegla R) {o : ω} (hh : s.codigo h = .hacer o :: r) :
    (R h).permite (s.tiene h) o :=
  (hh ▸ hs h).hacer.1

/-- Nobody holds a lock whose semaphore is up. -/
theorem Cuadra.dueno_eq_none (hs : s.Cuadra cuenta) (hc : 0 < cuenta c) : s.dueno c = none := by
  by_contra h
  have := hs c
  rw [if_neg h] at this
  omega

end

/-! ### The steps of a thread -/

variable [DecidableEq ι]

/-- A thread goes on with `r`. -/
def seguir (s : Reparto ι κ ω) (h : ι) (r : List (Orden κ ω)) : Reparto ι κ ω where
  codigo := Function.update s.codigo h r
  dueno := s.dueno

section

variable {s : Reparto ι κ ω} {h j : ι} {c d : κ} {r : List (Orden κ ω)} {R : ι → Reglas κ ω}
  {cuenta : κ → ℕ}

@[simp] theorem seguir_codigo_self : (s.seguir h r).codigo h = r := Function.update_self ..

theorem seguir_codigo_of_ne (hj : j ≠ h) : (s.seguir h r).codigo j = s.codigo j :=
  Function.update_of_ne hj ..

@[simp] theorem seguir_dueno : (s.seguir h r).dueno = s.dueno := rfl

@[simp] theorem seguir_tiene : (s.seguir h r).tiene j = s.tiene j := rfl

/-- A thread goes on with a code that follows the rules. -/
theorem EnRegla.seguir (hs : s.EnRegla R) (hr : (R h).Sigue (s.tiene h) r) :
    (s.seguir h r).EnRegla R := by
  intro j
  by_cases hj : j = h
  · subst hj
    rwa [seguir_tiene, seguir_codigo_self]
  · rw [seguir_tiene, seguir_codigo_of_ne hj]
    exact hs j

/-- A thread acts, with code that stands for the action. -/
theorem EnRegla.hacer (hs : s.EnRegla R) {o : ω} {e : List (Orden κ ω)}
    (hh : s.codigo h = .hacer o :: r) (he : (R h).Desarrolla o e) :
    (s.seguir h (e ++ r)).EnRegla R := by
  obtain ⟨hpermite, hr⟩ := (hh ▸ hs h).hacer
  exact hs.seguir (he _ _ hpermite hr)

theorem Cuadra.seguir (hs : s.Cuadra cuenta) : (s.seguir h r).Cuadra cuenta := hs

end

variable [DecidableEq κ]

/-- A thread takes a lock and goes on with `r`. -/
def tomar (s : Reparto ι κ ω) (h : ι) (c : κ) (r : List (Orden κ ω)) : Reparto ι κ ω where
  codigo := Function.update s.codigo h r
  dueno := Function.update s.dueno c (some h)

/-- A thread releases a lock and goes on with `r`. -/
def soltar (s : Reparto ι κ ω) (h : ι) (c : κ) (r : List (Orden κ ω)) : Reparto ι κ ω where
  codigo := Function.update s.codigo h r
  dueno := Function.update s.dueno c none

section

variable {s : Reparto ι κ ω} {h j : ι} {c d : κ} {r : List (Orden κ ω)} {R : ι → Reglas κ ω}
  {cuenta : κ → ℕ}

@[simp] theorem tomar_codigo_self : (s.tomar h c r).codigo h = r := Function.update_self ..

@[simp] theorem soltar_codigo_self : (s.soltar h c r).codigo h = r := Function.update_self ..

theorem tomar_codigo_of_ne (hj : j ≠ h) : (s.tomar h c r).codigo j = s.codigo j :=
  Function.update_of_ne hj ..

theorem soltar_codigo_of_ne (hj : j ≠ h) : (s.soltar h c r).codigo j = s.codigo j :=
  Function.update_of_ne hj ..

@[simp] theorem tomar_dueno_self : (s.tomar h c r).dueno c = some h := Function.update_self ..

@[simp] theorem soltar_dueno_self : (s.soltar h c r).dueno c = none := Function.update_self ..

theorem tomar_dueno_of_ne (hd : d ≠ c) : (s.tomar h c r).dueno d = s.dueno d :=
  Function.update_of_ne hd ..

theorem soltar_dueno_of_ne (hd : d ≠ c) : (s.soltar h c r).dueno d = s.dueno d :=
  Function.update_of_ne hd ..

/-- The locks that a thread holds after it takes one, and those of the others. -/
theorem tomar_tiene (hc : s.dueno c = none) :
    (s.tomar h c r).tiene j = if j = h then (R h).tras (s.tiene h) (.esperar c) else s.tiene j := by
  funext d
  by_cases hd : d = c
  · subst hd
    by_cases hj : j = h
    · simp [tiene, Reglas.tras, hj]
    · simp [tiene, hc, hj, Ne.symm hj]
  · by_cases hj : j = h <;> simp [tiene, Reglas.tras, tomar_dueno_of_ne hd, hd, hj]

theorem soltar_tiene (hc : s.dueno c = some h) :
    (s.soltar h c r).tiene j = if j = h then (R h).tras (s.tiene h) (.avisar c) else s.tiene j := by
  funext d
  by_cases hd : d = c
  · subst hd
    by_cases hj : j = h
    · simp [tiene, Reglas.tras, hj]
    · simp [tiene, hc, hj, Ne.symm hj]
  · by_cases hj : j = h <;> simp [tiene, Reglas.tras, soltar_dueno_of_ne hd, hd, hj]

theorem EnRegla.tomar (hs : s.EnRegla R) (hh : s.codigo h = .esperar c :: r)
    (hc : s.dueno c = none) : (s.tomar h c r).EnRegla R := by
  intro j
  rw [tomar_tiene (R := R) hc]
  by_cases hj : j = h
  · subst hj
    rw [if_pos rfl, tomar_codigo_self]
    exact .inl (hh ▸ hs j).esperar.2
  · rw [if_neg hj, tomar_codigo_of_ne hj]
    exact hs j

theorem EnRegla.soltar (hs : s.EnRegla R) (hh : s.codigo h = .avisar c :: r) :
    (s.soltar h c r).EnRegla R := by
  intro j
  rw [soltar_tiene (R := R) (hs.dueno_of_avisar hh)]
  by_cases hj : j = h
  · subst hj
    rw [if_pos rfl, soltar_codigo_self]
    exact .inl (hh ▸ hs j).avisar.2
  · rw [if_neg hj, soltar_codigo_of_ne hj]
    exact hs j

theorem Cuadra.tomar (hs : s.Cuadra cuenta) (hc : 0 < cuenta c) :
    (s.tomar h c r).Cuadra (Function.update cuenta c (cuenta c - 1)) := by
  intro d
  have hup := hs c
  rw [if_pos (hs.dueno_eq_none hc)] at hup
  by_cases hd : d = c
  · subst hd
    simp [hup]
  · simpa [Function.update_of_ne hd, tomar_dueno_of_ne hd] using hs d

theorem Cuadra.soltar (hs : s.Cuadra cuenta) (hc : s.dueno c = some j) :
    (s.soltar h c r).Cuadra (Function.update cuenta c (cuenta c + 1)) := by
  intro d
  have hdown := hs c
  rw [hc, if_neg (by simp)] at hdown
  by_cases hd : d = c
  · subst hd
    simp [hdown]
  · simpa [Function.update_of_ne hd, soltar_dueno_of_ne hd] using hs d

end

end Reparto

end Cerrojos
