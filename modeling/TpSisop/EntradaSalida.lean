/-
**An interface and its queue in the kernel.**

An interface serves one request at a time.  Its receiver tests `pid_usando_interfaz` under the
mutex, releases it, and only then answers `IO_OCUPADA`, or starts a thread for the request.  The
threads clear `pid_usando_interfaz` and send `FIN_IO`, in an order that depends on the operation;
two of the operations leave the `FIN_IO` to the thread that attends memory.  The kernel queues a
request that was refused in `lista_bloqueados`, and sends the first of the queue again at each
`FIN_IO`.  What the operations do to files and to memory is left out.

Main definitions:

* `EntradaSalida.ioGenSleep`, …, `EntradaSalida.ioFsWrite` — what the thread of each operation does,
  and `EntradaSalida.acciones`, all of them;
* `EntradaSalida.Estado` — the interface, the queue of the kernel, and the channels;
* `EntradaSalida.atenderKernel`, `EntradaSalida.avanzar`, `EntradaSalida.atenderMemoria`,
  `EntradaSalida.atenderIo` — the steps of the receiver, of the threads and of the kernel;
* `EntradaSalida.sistema` — the whole as a transition system.

Main results:

* `EntradaSalida.ioOcupada_atenderIo`, `EntradaSalida.finIo_atenderIo` — the queue is the one the
  handlers of the kernel keep.
-/

import TpSisop.KernelConexion
import TpSisop.KernelRefinamiento

set_option relaxedAutoImplicit false
set_option autoImplicit false

namespace EntradaSalida

open Kernel (OperacionIo PeticionIo RespuestaIo IoPcb Nucleo reenvio)
open Resultado (bind_eq_ok)

/-! ### The threads -/

/-- What a thread does that others see. -/
inductive Accion
  /-- `pid_usando_interfaz = -1` -/
  | limpiar
  /-- `FIN_IO` is sent to the kernel. -/
  | avisar
  /-- A request is sent to memory. -/
  | pedirAMemoria
  /-- `sem_wait(sem_esperar_respuesta)` -/
  | esperarRespuesta
  deriving DecidableEq, Repr

def ioGenSleep : List Accion := [.limpiar, .avisar]

def ioStdinRead : List Accion := [.limpiar, .pedirAMemoria]

def ioStdoutWrite : List Accion := [.limpiar, .pedirAMemoria]

def ioFsCreate : List Accion := [.limpiar, .avisar]

def ioFsDelete : List Accion := [.limpiar, .avisar]

def ioFsTruncate : List Accion := [.limpiar, .avisar]

def ioFsRead : List Accion := [.pedirAMemoria, .esperarRespuesta, .limpiar, .avisar]

/-- The only one that sends `FIN_IO` first. -/
def ioFsWrite : List Accion := [.pedirAMemoria, .esperarRespuesta, .avisar, .limpiar]

/-- The function of the thread that `atender_kernel` starts. -/
def acciones : OperacionIo → List Accion
  | .genSleep => ioGenSleep
  | .stdinRead => ioStdinRead
  | .stdoutWrite => ioStdoutWrite
  | .fsCreate => ioFsCreate
  | .fsDelete => ioFsDelete
  | .fsTruncate => ioFsTruncate
  | .fsRead => ioFsRead
  | .fsWrite => ioFsWrite

/-- A thread, with what it has left to do. -/
structure Hilo where
  pet : PeticionIo
  pendientes : List Accion
  deriving DecidableEq, Repr

/-! ### The state -/

/-- A message of the interface to the kernel. -/
abbrev Mensaje := RespuestaIo × PeticionIo

/-- `aInterfaz`, `aKernel` and `aMemoria` are what is on its way on each channel; the answer of
memory is on its way with the request.  `receptor` is the answer the receiver is about to send. -/
structure Estado where
  tipoInterfaz : ℕ
  listaBloqueados : List PeticionIo := []
  aInterfaz : List PeticionIo := []
  aKernel : List Mensaje := []
  pidUsandoInterfaz : Option ℕ := none
  receptor : Option Mensaje := none
  hilos : List Hilo := []
  aMemoria : List PeticionIo := []
  semEsperarRespuesta : ℕ := 0
  deriving DecidableEq, Repr

/-! ### The steps -/

/-- `atender_kernel`, up to the answer: the type of the interface, the test of `pid_usando_interfaz`
and the start of a thread. -/
def atenderKernel (s : Estado) : Option Estado :=
  match s.receptor, s.aInterfaz with
  | none, pet :: resto =>
      let s := { s with aInterfaz := resto }
      if pet.operacion.tipoInterfaz = s.tipoInterfaz then
        match s.pidUsandoInterfaz with
        | some _ => some { s with receptor := some (.ioOcupada, pet) }
        | none => some { s with
            pidUsandoInterfaz := some pet.pid
            hilos := s.hilos ++ [⟨pet, acciones pet.operacion⟩] }
      else some { s with receptor := some (.errorIo, pet) }
  | _, _ => none

/-- The end of a turn of `atender_kernel` that answers. -/
def contestar (s : Estado) : Option Estado :=
  s.receptor.map fun m => { s with receptor := none, aKernel := s.aKernel ++ [m] }

def ejecutarAccion (s : Estado) (pet : PeticionIo) : Accion → Option Estado
  | .limpiar => some { s with pidUsandoInterfaz := none }
  | .avisar => some { s with aKernel := s.aKernel ++ [(.finIo, pet)] }
  | .pedirAMemoria => some { s with aMemoria := s.aMemoria ++ [pet] }
  | .esperarRespuesta =>
      if 0 < s.semEsperarRespuesta then
        some { s with semEsperarRespuesta := s.semEsperarRespuesta - 1 }
      else none

/-- The next step of a thread. -/
def avanzar (s : Estado) (n : ℕ) : Option Estado :=
  match s.hilos[n]? with
  | some ⟨pet, a :: resto⟩ =>
      ejecutarAccion { s with hilos := s.hilos.set n ⟨pet, resto⟩ } pet a
  | _ => none

/-- The operations whose `FIN_IO` the answer of memory brings. -/
def porMemoria : OperacionIo → Bool
  | .stdinRead | .stdoutWrite => true
  | _ => false

/-- `atender_memoria`: the answer to the first request. -/
def atenderMemoria (s : Estado) : Option Estado :=
  match s.aMemoria with
  | [] => none
  | pet :: resto =>
      let s := { s with aMemoria := resto }
      if porMemoria pet.operacion then some { s with aKernel := s.aKernel ++ [(.finIo, pet)] }
      else some { s with semEsperarRespuesta := s.semEsperarRespuesta + 1 }

/-- `atender_io` of the kernel: `lista_bloqueados` after a message, and the requests sent. -/
def atenderIo (tipoInterfaz : ℕ) (cola : List PeticionIo) :
    Mensaje → List PeticionIo × List PeticionIo
  | (.errorIo, _) => (cola, [])
  | (.ioOcupada, pet) => (cola ++ [pet], [])
  | (.finIo, _) =>
      match cola with
      | [] => ([], [])
      | pet :: cola =>
          (cola, ((reenvio tipoInterfaz pet.operacion).map fun o => ⟨pet.pid, o⟩).toList)

/-- The kernel takes the next message of the interface. -/
def atender (s : Estado) : Option Estado :=
  match s.aKernel with
  | [] => none
  | m :: resto =>
      let r := atenderIo s.tipoInterfaz s.listaBloqueados m
      some { s with
        aKernel := resto
        listaBloqueados := r.1
        aInterfaz := s.aInterfaz ++ r.2 }

/-! ### The system -/

/-- A request of a process, and the steps of the threads of the interface and of the kernel. -/
inductive Evento
  | pedir (pet : PeticionIo)
  | recibir
  | contestar
  | hilo (n : ℕ)
  | memoria
  | atender
  deriving DecidableEq, Repr

def manejar (s : Estado) : Evento → Option Estado
  | .pedir pet => some { s with aInterfaz := s.aInterfaz ++ [pet] }
  | .recibir => atenderKernel s
  | .contestar => contestar s
  | .hilo n => avanzar s n
  | .memoria => atenderMemoria s
  | .atender => atender s

/-- An interface of any type, from `crear_interfaz` on. -/
def sistema : Transicion.Sistema Estado Evento where
  inicial s := ∃ tipoInterfaz, s = { tipoInterfaz := tipoInterfaz }
  paso s e s' := manejar s e = some s'

/-! ### The queue of the kernel -/

/-- A request of a process of BLOCKED, in the queue of the kernel. -/
def encolado (pet : PeticionIo) : IoPcb := ⟨some pet.pid, pet.operacion⟩

section

variable {k k' : Nucleo} {nombre : String} {i : Kernel.Interfaz} {cola : List PeticionIo}
  (hi : k.interfaces.valor nombre = some i) (hc : i.listaBloqueados = cola.map encolado)

include hi hc

/-- The handler of `IO_OCUPADA` for a process that is in BLOCKED. -/
theorem ioOcupada_atenderIo {pet : PeticionIo} (hb : ∃ p ∈ k.listas .blocked, p.pid = pet.pid)
    (h : Kernel.ioOcupada k nombre pet = .ok k') :
    ∃ i', k'.interfaces.valor nombre = some i' ∧
      i'.listaBloqueados
        = (atenderIo i.tipoInterfaz cola (.ioOcupada, pet)).1.map encolado ∧
      i'.enviadas = i.enviadas ++ (atenderIo i.tipoInterfaz cola (.ioOcupada, pet)).2 := by
  simp only [Kernel.ioOcupada, hi, bind_eq_ok, Kernel.obtenido_eq_ok, Option.some.injEq] at h
  obtain ⟨i', rfl, h⟩ := h
  cases h
  obtain ⟨a, p, b, hl, hp, ha⟩ := Kernel.exists_split hb
  have hf : (k.listas .blocked).find? (fun p => p.pid == pet.pid) = some p := by
    rw [hl, List.find?_append, List.find?_eq_none.2 (by simpa using ha)]
    simp [hp]
  refine ⟨_, Coleccion.Diccionario.poner_valor_self .., ?_, by simp [atenderIo]⟩
  simp [atenderIo, hf, hc, hp, encolado]

/-- The handler of `FIN_IO`. -/
theorem finIo_atenderIo {pet : PeticionIo} (h : Kernel.finIo k nombre pet.pid = .ok k') :
    ∃ i', k'.interfaces.valor nombre = some i' ∧
      i'.listaBloqueados = (atenderIo i.tipoInterfaz cola (.finIo, pet)).1.map encolado ∧
      i'.enviadas = i.enviadas ++ (atenderIo i.tipoInterfaz cola (.finIo, pet)).2 := by
  simp only [Kernel.finIo, bind_eq_ok, Kernel.obtenido_eq_ok] at h
  obtain ⟨k₁, h₁, i₁, hi₁, h⟩ := h
  have hint : k₁.interfaces = k.interfaces := by
    obtain ⟨a, p, b, hl, hp, ha⟩ := Kernel.exists_split (Kernel.exists_of_desbloquearProceso h₁)
    rw [Kernel.desbloquearProceso_eq_ok hl ha hp h₁, Kernel.alistar_interfaces]
    rfl
  rw [hint, hi, Option.some.injEq] at hi₁
  subst hi₁
  cases cola with
  | nil =>
      rw [List.map_nil] at hc
      rw [hc] at h
      cases h
      exact ⟨i, by rw [hint, hi], by simp [atenderIo, hc], by simp [atenderIo]⟩
  | cons p cola =>
      rw [List.map_cons] at hc
      rw [hc] at h
      simp only [encolado] at h
      cases hre : reenvio i.tipoInterfaz p.operacion with
      | none =>
          rw [hre] at h
          cases h
          exact ⟨_, Coleccion.Diccionario.poner_valor_self .., by simp [atenderIo],
            by simp [atenderIo, hre]⟩
      | some operacion =>
          rw [hre] at h
          simp only [bind_eq_ok, Kernel.obtenido_eq_ok, Option.some.injEq] at h
          obtain ⟨pid, rfl, h⟩ := h
          cases h
          exact ⟨_, Coleccion.Diccionario.poner_valor_self .., by simp [atenderIo],
            by simp [atenderIo, hre]⟩

end

end EntradaSalida
