/-
**The admission of processes as a balance of tokens.**

A process is admitted by a thread that takes two tokens: one for a process that memory has created,
one for a place under the degree of multiprogramming.  Each is posted by the answer of memory to a
request, so a token is on its way from the request to the thread, and the thread may not have used
yet the ones it took.  This module counts, without lists, processes or messages, and says when the
counts are in balance: the tokens of each kind, wherever they are, are at least as many as what they
are for.  A thread that has nothing to admit gives up both of its tokens, which is no step of the
balance.

Main definitions:

* `Kernel.Cupo` — the counts;
* `Kernel.Cupo.holguraCreacion`, `Kernel.Cupo.holguraGrado` — the tokens to spare of each kind;
* `Kernel.Cupo.Paso` — what may happen to the counts;
* `Kernel.Cupo.Equilibrado` — the invariant, and `Kernel.Cupo.Trabado`, what it excludes;
* `Kernel.Cupo.ConLugar` — a token of the degree that the thread holds is for a place.

Main results:

* `Kernel.Cupo.Paso.equilibrado`, `Kernel.Cupo.Paso.conLugar` — a step keeps both;
* `Kernel.Cupo.Equilibrado.not_trabado` — in balance, admission is not stuck.
-/

import TpSisop.KernelEstado

set_option relaxedAutoImplicit false
set_option autoImplicit false

namespace Kernel

/-- The tokens of `sem_proceso_se_creo_en_memoria` the thread has taken and not used. -/
def FaseLargo.creaciones : FaseLargo → ℕ
  | .esperaCreacion => 0
  | .esperaGrado => 1
  | .esperaPlanificacion => 1

/-- The tokens of `sem_grado_multiprogramacion` the thread has taken and not used. -/
def FaseLargo.lugares : FaseLargo → ℕ
  | .esperaCreacion => 0
  | .esperaGrado => 0
  | .esperaPlanificacion => 1

/-- What admission counts.  `pedidos` are the processes asked of memory and not in NEW yet,
`porCrear` and `porTerminar` the requests of each kind memory has to answer, `creados` and `lugares`
the tokens posted. -/
structure Cupo where
  grado : ℤ
  pedidos : ℕ
  nuevos : ℕ
  admitidos : ℕ
  porCrear : ℕ
  creados : ℕ
  porTerminar : ℕ
  lugares : ℕ
  largo : FaseLargo

namespace Cupo

/-- The tokens of creation beyond one for each process that waits to be admitted. -/
def holguraCreacion (c : Cupo) : ℤ :=
  c.porCrear + c.creados + c.largo.creaciones - (c.pedidos + c.nuevos)

/-- The tokens of the degree beyond one for each free place. -/
def holguraGrado (c : Cupo) : ℤ :=
  c.porTerminar + c.lugares + c.largo.lugares - (c.grado - c.admitidos)

/-- Nothing is on its way, the thread waits, and a process and a place for it are there. -/
structure Trabado (c : Cupo) : Prop where
  porCrear : c.porCrear = 0
  porTerminar : c.porTerminar = 0
  espera : (c.largo = .esperaCreacion ∧ c.creados = 0) ∨ (c.largo = .esperaGrado ∧ c.lugares = 0)
  nuevos : 0 < c.nuevos
  admitidos : c.admitidos < c.grado

/-- What may happen. -/
inductive Paso (c : Cupo) : Cupo → Prop
  | quieto : Paso c c
  | pedido : Paso c { c with pedidos := c.pedidos + 1, porCrear := c.porCrear + 1 }
  | llegada {n : ℕ} (h : c.pedidos = n + 1) :
      Paso c { c with pedidos := n, nuevos := c.nuevos + 1 }
  | creado {n : ℕ} (h : c.porCrear = n + 1) :
      Paso c { c with porCrear := n, creados := c.creados + 1 }
  | terminado {n : ℕ} (h : c.porTerminar = n + 1) :
      Paso c { c with porTerminar := n, lugares := c.lugares + 1 }
  | muerte {n : ℕ} (h : c.admitidos = n + 1) :
      Paso c { c with admitidos := n, porTerminar := c.porTerminar + 1 }
  | muerteNuevo {n : ℕ} (h : c.nuevos = n + 1) :
      Paso c { c with nuevos := n, porTerminar := c.porTerminar + 1 }
  | tomaCreacion {n : ℕ} (hf : c.largo = .esperaCreacion) (h : c.creados = n + 1) :
      Paso c { c with creados := n, largo := .esperaGrado }
  | descarte {n : ℕ} (hf : c.largo = .esperaGrado) (h : c.lugares = n + 1)
      (hg : c.grado ≤ c.admitidos) : Paso c { c with lugares := n }
  | tomaGrado {n : ℕ} (hf : c.largo = .esperaGrado) (h : c.lugares = n + 1)
      (hg : c.admitidos < c.grado) : Paso c { c with lugares := n, largo := .esperaPlanificacion }
  | admision {n : ℕ} (hf : c.largo = .esperaPlanificacion) (h : c.nuevos = n + 1) :
      Paso c { c with nuevos := n, admitidos := c.admitidos + 1, largo := .esperaCreacion }

/-- Every process that waits and every free place has its token. -/
structure Equilibrado (c : Cupo) : Prop where
  creacion : 0 ≤ c.holguraCreacion
  grado : 0 ≤ c.holguraGrado

/-- The thread holds a token of the degree only while there is a place. -/
def ConLugar (c : Cupo) : Prop :=
  c.largo = .esperaPlanificacion → c.admitidos < c.grado

variable {c c' : Cupo}

/-- What the thread waits for is there, or there is nothing to admit, or no place. -/
theorem Equilibrado.not_trabado (h : Equilibrado c) : ¬c.Trabado := by
  intro ht
  have hc := h.creacion
  have hg := h.grado
  have h₁ := ht.porCrear
  have h₂ := ht.porTerminar
  have h₃ := ht.nuevos
  have h₄ := ht.admitidos
  rcases ht.espera with ⟨hf, hs⟩ | ⟨hf, hs⟩
  · simp only [holguraCreacion, hf, FaseLargo.creaciones] at hc
    omega
  · simp only [holguraGrado, hf, FaseLargo.lugares] at hg
    omega

/-- A step gives each kind of token at least as much as it takes. -/
theorem Paso.equilibrado (h : Paso c c') (hI : Equilibrado c) : Equilibrado c' := by
  have hc := hI.creacion
  have hg := hI.grado
  unfold holguraCreacion at hc
  unfold holguraGrado at hg
  cases h with
  | quieto => exact hI
  | pedido =>
      constructor
      · simp only [holguraCreacion]
        omega
      · exact hg
  | llegada h =>
      constructor
      · simp only [holguraCreacion]
        omega
      · exact hg
  | creado h =>
      constructor
      · simp only [holguraCreacion]
        omega
      · exact hg
  | terminado h =>
      constructor
      · exact hc
      · simp only [holguraGrado]
        omega
  | muerte h =>
      constructor
      · exact hc
      · simp only [holguraGrado]
        omega
  | muerteNuevo h =>
      constructor
      · simp only [holguraCreacion]
        omega
      · simp only [holguraGrado]
        omega
  | tomaCreacion hf h =>
      rw [hf] at hc hg
      constructor
      · simp only [holguraCreacion, FaseLargo.creaciones] at hc ⊢
        omega
      · exact hg
  | descarte hf h hle =>
      -- the places are all taken, so the token was one to spare
      rw [hf] at hg
      constructor
      · exact hc
      · simp only [holguraGrado, hf, FaseLargo.lugares] at hg ⊢
        omega
  | tomaGrado hf h hlt =>
      rw [hf] at hc hg
      constructor
      · exact hc
      · simp only [holguraGrado, FaseLargo.lugares] at hg ⊢
        omega
  | admision hf h =>
      rw [hf] at hc hg
      constructor
      · simp only [holguraCreacion, FaseLargo.creaciones] at hc ⊢
        omega
      · simp only [holguraGrado, FaseLargo.lugares] at hg ⊢
        omega

/-- A place that was there when the thread took its token is there until it admits: nobody else
does. -/
theorem Paso.conLugar (h : Paso c c') (hI : c.ConLugar) : c'.ConLugar := by
  intro hf'
  cases h with
  | quieto => exact hI hf'
  | pedido => exact hI hf'
  | llegada h => exact hI hf'
  | creado h => exact hI hf'
  | terminado h => exact hI hf'
  | muerte h =>
      have := hI hf'
      simp only
      omega
  | muerteNuevo h => exact hI hf'
  | tomaCreacion hf h => cases hf'
  | descarte hf h hle => exact hI hf'
  | tomaGrado hf h hlt => exact hlt
  | admision hf h => cases hf'

end Cupo

end Kernel
