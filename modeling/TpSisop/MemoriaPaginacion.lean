/-
**The memory module: page tables, the frame bitmap and the user space.**

The memory module keeps a dictionary of page tables (one list of frames for each process), a bit
array with one bit for each frame, a cached count of the free frames, and the bytes of the user
space.  This module models the functions of `paginacion.c` and `operaciones.c` that create, resize
and destroy a process, and their lemmas: what each of them leaves alone.

The dictionary is keyed by the decimal string of the pid; two pids have the same string exactly
when they are equal, so the model keys it by the pid itself.  A `NULL` dereference, a bit index of
`-1` and a copy that runs past the user space are failures (`Fallo`), not values.

Main definitions:

* `Memoria.Estado` — the global state of the module;
* `Memoria.crearEstructurasMemoria`, `Memoria.crearProceso`, `Memoria.resizeProceso`,
  `Memoria.eliminarProceso`, `Memoria.accederATablaDePaginas` — the operations;
* `Memoria.ampliar`, `Memoria.reducir` — the two loops of `resize_proceso`;
* `Memoria.Evento`, `Memoria.sistema` — the module as a system driven by its requests.
-/

import Mathlib.Data.Int.Order.Basic
import Mathlib.Logic.Function.Basic
import Mathlib.Tactic
import TpSisop.Transiciones
import TpSisop.Colecciones
import TpSisop.Enteros

set_option relaxedAutoImplicit false
set_option autoImplicit false

namespace Memoria

/-- The ways a function of the module fails instead of returning. -/
inductive Fallo
  /-- A `NULL` pointer is dereferenced. -/
  | punteroNulo
  /-- The `-1` of `obtener_marco_libre` is used as a frame. -/
  | marcoInvalido
  /-- A `memcpy` reaches past the `tam_memoria` bytes of the user space. -/
  | fueraDeMemoria
  deriving DecidableEq, Repr

abbrev Pid := ℕ

/-- The global state of the memory module.  `cantidadDePaginas` is also the size given to the bit
array, hence the bound of the search for a free frame; `espacio` is the user space, of which only
the first `tamMemoria` bytes were allocated. -/
structure Estado where
  tamPagina : ℕ
  tamMemoria : ℕ
  cantidadDePaginas : ℕ
  marcos : ℕ → Bool
  cantidadMarcosLibres : ℤ
  tablaDePaginas : Pid → Option (List ℕ)
  dictInstrucciones : Pid → Option (List String)
  espacio : ℕ → UInt8

/-! ### The frames (`paginacion.c`) -/

def obtenerMarcoLibre (m : Estado) : Option ℕ :=
  Bits.primerLibre m.marcos m.cantidadDePaginas

def ocuparMarco (m : Estado) (marco : ℕ) : Estado :=
  { m with
    marcos := Function.update m.marcos marco true
    cantidadMarcosLibres := m.cantidadMarcosLibres - 1 }

def liberarMarco (m : Estado) (marco : ℕ) : Estado :=
  { m with
    marcos := Function.update m.marcos marco false
    cantidadMarcosLibres := m.cantidadMarcosLibres + 1 }

def liberarMarcosDeProceso (m : Estado) (pid : Pid) : Except Fallo Estado :=
  match m.tablaDePaginas pid with
  | none => .error .punteroNulo
  | some paginas => .ok (paginas.foldl liberarMarco m)

/-- The state before the first request: no page table, every frame free.  The user space is what
`malloc` hands out. -/
def crearEstructurasMemoria (tamPagina tamMemoria : ℕ) (espacio : ℕ → UInt8) : Estado where
  tamPagina := tamPagina
  tamMemoria := tamMemoria
  cantidadDePaginas := tamMemoria / tamPagina
  marcos := fun _ => false
  cantidadMarcosLibres := (tamMemoria / tamPagina : ℕ)
  tablaDePaginas := fun _ => none
  dictInstrucciones := fun _ => none
  espacio := espacio

def accederATablaDePaginas (m : Estado) (pid : Pid) (pagina : ℕ) : Except Fallo ℕ :=
  match m.tablaDePaginas pid with
  | none => .error .punteroNulo
  | some paginas =>
      match Coleccion.obtener paginas pagina with
      | none => .error .punteroNulo
      | some marco => .ok marco

/-! ### Creating, resizing and destroying a process (`operaciones.c`) -/

/-- Writes a page table back into the dictionary. -/
def ponerTabla (m : Estado) (pid : Pid) (paginas : List ℕ) : Estado :=
  { m with tablaDePaginas := Function.update m.tablaDePaginas pid (some paginas) }

/-- The number of pages `resize_proceso` computes for a size in bytes; `/` and `%` truncate
towards zero, as in C. -/
def cantidadPaginas (tamPagina : ℕ) (cantidadDeBytes : ℤ) : ℤ :=
  let resto : ℤ := if cantidadDeBytes.tmod tamPagina = 0 then 0 else 1
  cantidadDeBytes.tdiv tamPagina + resto

/-- The growing loop of `resize_proceso`: `n` more pages at the end of the table. -/
def ampliar (pid : Pid) : ℕ → Estado → List ℕ → Except Fallo Estado
  | 0, m, _ => .ok m
  | n + 1, m, paginas =>
      match obtenerMarcoLibre m with
      | none => .error .marcoInvalido
      | some pagina =>
          ampliar pid n (ocuparMarco (ponerTabla m pid (paginas ++ [pagina])) pagina)
            (paginas ++ [pagina])

/-- The shrinking loop of `resize_proceso`, for `i` from `hasta + n` down to `hasta + 1`: the page
at `i - 1` is freed and removed. -/
def reducir (pid : Pid) (hasta : ℤ) : ℕ → Estado → List ℕ → Except Fallo Estado
  | 0, m, _ => .ok m
  | n + 1, m, paginas =>
      match Coleccion.remover paginas (hasta + n) with
      | none => .error .punteroNulo
      | some (pagina, resto) =>
          reducir pid hasta n (ponerTabla (liberarMarco m pagina) pid resto) resto

/-- `resize_proceso`: answers 1, and changes nothing, when the free frames are not enough. -/
def resizeProceso (m : Estado) (pid : Pid) (cantidadDeBytes : ℤ) : Except Fallo (ℤ × Estado) :=
  let cantidad := cantidadPaginas m.tamPagina cantidadDeBytes
  match m.tablaDePaginas pid with
  | none => .error .punteroNulo
  | some paginas =>
      let actuales : ℤ := paginas.length
      if m.cantidadMarcosLibres < cantidad - actuales then
        .ok (1, m)
      else if actuales < cantidad then
        (ampliar pid (cantidad - actuales).toNat m paginas).map fun m' => (0, m')
      else if cantidad < actuales then
        (reducir pid cantidad (actuales - cantidad).toNat m paginas).map fun m' => (0, m')
      else
        .ok (0, m)

/-- `crear_proceso`: the instructions are what `leer_archivo` returned, `none` for `NULL`. -/
def crearProceso (m : Estado) (instrucciones : Option (List String)) (pid : Pid) : Estado :=
  ponerTabla
    { m with dictInstrucciones := Function.update m.dictInstrucciones pid instrucciones } pid []

def eliminarProceso (m : Estado) (pid : Pid) : Except Fallo Estado := do
  let m' ← liberarMarcosDeProceso m pid
  return { m' with
    tablaDePaginas := Function.update m'.tablaDePaginas pid none
    dictInstrucciones := Function.update m'.dictInstrucciones pid none }

/-! ### The fields each helper leaves alone -/

section Marcos

variable (m : Estado) (marco : ℕ) (pid : Pid) (paginas : List ℕ)

@[simp] theorem ocuparMarco_marcos :
    (ocuparMarco m marco).marcos = Function.update m.marcos marco true := rfl

@[simp] theorem ocuparMarco_libres :
    (ocuparMarco m marco).cantidadMarcosLibres = m.cantidadMarcosLibres - 1 := rfl

@[simp] theorem ocuparMarco_tabla :
    (ocuparMarco m marco).tablaDePaginas = m.tablaDePaginas := rfl

@[simp] theorem ocuparMarco_cantidad :
    (ocuparMarco m marco).cantidadDePaginas = m.cantidadDePaginas := rfl

@[simp] theorem ocuparMarco_tamPagina : (ocuparMarco m marco).tamPagina = m.tamPagina := rfl

@[simp] theorem liberarMarco_marcos :
    (liberarMarco m marco).marcos = Function.update m.marcos marco false := rfl

@[simp] theorem liberarMarco_libres :
    (liberarMarco m marco).cantidadMarcosLibres = m.cantidadMarcosLibres + 1 := rfl

@[simp] theorem liberarMarco_tabla :
    (liberarMarco m marco).tablaDePaginas = m.tablaDePaginas := rfl

@[simp] theorem liberarMarco_cantidad :
    (liberarMarco m marco).cantidadDePaginas = m.cantidadDePaginas := rfl

@[simp] theorem liberarMarco_tamPagina : (liberarMarco m marco).tamPagina = m.tamPagina := rfl

@[simp] theorem ponerTabla_marcos : (ponerTabla m pid paginas).marcos = m.marcos := rfl

@[simp] theorem ponerTabla_libres :
    (ponerTabla m pid paginas).cantidadMarcosLibres = m.cantidadMarcosLibres := rfl

@[simp] theorem ponerTabla_tabla :
    (ponerTabla m pid paginas).tablaDePaginas =
      Function.update m.tablaDePaginas pid (some paginas) := rfl

@[simp] theorem ponerTabla_cantidad :
    (ponerTabla m pid paginas).cantidadDePaginas = m.cantidadDePaginas := rfl

@[simp] theorem ponerTabla_tamPagina : (ponerTabla m pid paginas).tamPagina = m.tamPagina := rfl

end Marcos

/-! ### Reading a page table -/

/-- `acceder_a_tabla_de_paginas` answers exactly on the pages of the table. -/
theorem accederATablaDePaginas_eq_ok {m : Estado} {pid : Pid} {pagina marco : ℕ} :
    accederATablaDePaginas m pid pagina = .ok marco ↔
      ∃ ps, m.tablaDePaginas pid = some ps ∧ ps[pagina]? = some marco := by
  unfold accederATablaDePaginas
  cases h : m.tablaDePaginas pid with
  | none => simp
  | some ps =>
      simp only [Coleccion.obtener_natCast]
      cases h' : ps[pagina]? <;> simp [h']

/-! ### The number of pages -/

theorem cantidadPaginas_nonneg (tamPagina : ℕ) {n : ℤ} (h : 0 ≤ n) :
    0 ≤ cantidadPaginas tamPagina n :=
  Entero.techo_nonneg h

/-! ### The module as a system -/

/-- The requests the memory module serves: process creation and termination from the kernel, and
`EJECUTAR_RESIZE` from the CPU. -/
inductive Evento
  | crear (instrucciones : Option (List String)) (pid : Pid)
  | resize (pid : Pid) (cantidadDeBytes : ℤ)
  | eliminar (pid : Pid)

/-- What the callers guarantee of a request: the kernel creates a process under a pid that has no
page table yet, resizes and terminates processes that have one, and a size is not negative. -/
def Evento.admisible (m : Estado) : Evento → Prop
  | .crear _ pid => m.tablaDePaginas pid = none
  | .resize pid n => m.tablaDePaginas pid ≠ none ∧ 0 ≤ n
  | .eliminar pid => m.tablaDePaginas pid ≠ none

instance (m : Estado) : DecidablePred (Evento.admisible m)
  | .crear _ _ => inferInstanceAs (Decidable (_ = _))
  | .resize _ _ => inferInstanceAs (Decidable (_ ∧ _))
  | .eliminar _ => inferInstanceAs (Decidable (_ ≠ _))

def atender (m : Estado) : Evento → Except Fallo Estado
  | .crear instrucciones pid => .ok (crearProceso m instrucciones pid)
  | .resize pid n => (resizeProceso m pid n).map fun r => r.2
  | .eliminar pid => eliminarProceso m pid

/-- The memory module, started with the sizes of its configuration. -/
def sistema (tamPagina tamMemoria : ℕ) : Transicion.Sistema Estado Evento where
  inicial m := ∃ espacio, m = crearEstructurasMemoria tamPagina tamMemoria espacio
  paso m e m' := e.admisible m ∧ atender m e = .ok m'

end Memoria
