/-
**The short-term scheduler, blocking and unblocking.**

The functions of `planificacion.c`.  A `sem_wait` at the head of a thread's loop is a step of its
own, which leaves the thread at the next one; a `sem_wait` that the same function matches with a
`sem_post` only demands that the semaphore is not zero, since a handler runs to its end.

Main definitions:

* `Kernel.Nucleo.actualizarEstadoPcb`, `Kernel.Nucleo.enviarSiguientePcb`;
* `Kernel.bloquearProceso`, `Kernel.desbloquearProceso`;
* `Kernel.planificadorCortoPlazo`, `Kernel.contadorQuantumRr` — one step of each thread.
-/

import TpSisop.KernelEstado

set_option relaxedAutoImplicit false
set_option autoImplicit false

namespace Kernel

namespace Nucleo

/-! ### The operations -/

/-- `actualizar_estado_pcb`: the state of the process, in its PCB and in `estados_procesos`, and the
end of a list. -/
def actualizarEstadoPcb (k : Nucleo) (p : Pcb) (state : EstadoCode) (l : Lista) : Nucleo :=
  { k with
    listas := Familia.agregar k.listas l { p with estado := state }
    estadosProcesos := k.estadosProcesos.set (p.pid - 1) state }

/-- Replaces a list, from which a process was taken. -/
def conLista (k : Nucleo) (l : Lista) (xs : List Pcb) : Nucleo :=
  { k with listas := Function.update k.listas l xs }

@[simp] theorem conLista_conLista (k : Nucleo) (l : Lista) (xs ys : List Pcb) :
    (k.conLista l xs).conLista l ys = k.conLista l ys := by
  simp [conLista]

/-- `enviar_siguiente_pcb`, after the time is recorded. -/
def enviarSiguientePcb (k : Nucleo) (p : Pcb) : Nucleo :=
  { k with
    pidEjecutando := p.pid
    enCpu := some p
    dispatch := k.dispatch ++ [p] }

def interrumpirProceso (k : Nucleo) (pid : ℕ) : Nucleo :=
  { k with
    interrupt := k.interrupt ++ [⟨pid, .interrupcion⟩]
    sem := { k.sem with interruptionQuantum := k.sem.interruptionQuantum + 1 } }

/-- The end of `desbloquear_proceso`: under VRR, a process with some of its quantum left goes to
the priority queue. -/
def alistar (k : Nucleo) (p : Pcb) : Nucleo :=
  let k :=
    if k.config.algoritmo = .vrr ∧ p.quantum < k.config.quantum ∧ 0 < p.quantum then
      k.actualizarEstadoPcb p .readyAux .auxiliar
    else k.actualizarEstadoPcb p .ready .ready
  { k with sem := { k.sem with processInReady := k.sem.processInReady + 1 } }

/-- The end of a pass of the scheduler: the process goes to RUNNING and its PCB to the CPU. -/
def despachar (k : Nucleo) (p : Pcb) (ahora : ℤ) : Nucleo :=
  let p := if k.config.algoritmo = .vrr then { p with tiempoInicial := ahora } else p
  let p := { p with estado := EstadoCode.exec }
  (k.actualizarEstadoPcb p .exec .running).enviarSiguientePcb p

end Nucleo

/-- `bloquear_proceso`.  It resets `pid_ejecutando` before it waits for `sem_planificacion`. -/
def bloquearProceso (k : Nucleo) (p : Pcb) (esIo : Bool) (ahora : ℤ) : Except Corte Nucleo := do
  exigir (0 < k.sem.planificacion) .espera
  let r ← obtenido (sacar p.pid (k.listas .running))
  let p :=
    if esIo ∧ k.config.algoritmo = .vrr then
      { p with quantum := p.quantum - (ahora - p.tiempoInicial) }
    else p
  .ok (({ k with pidEjecutando := 0 }.conLista .running r.2).actualizarEstadoPcb p
    .blocked .blocked)

def desbloquearProceso (k : Nucleo) (pid : ℕ) : Except Corte Nucleo := do
  exigir (0 < k.sem.planificacion) .espera
  let r ← obtenido (sacar pid (k.listas .blocked))
  .ok ((k.conLista .blocked r.2).alistar r.1)

/-! ### The threads -/

/-- One turn of the loop of `contador_quantum_VRR`, at the time `ahora`. -/
def contadorQuantumVrr (k : Nucleo) (pidInicial : ℕ) (tiempoInicial quantum ahora : ℤ) :
    Except Corte Nucleo := do
  let estadoActual ← obtenido (Coleccion.obtener k.estadosProcesos (pidInicial - 1))
  if estadoActual = .blocked ∨ estadoActual = .exitt ∨ k.pidEjecutando = 0 then
    .ok { k with corto := .esperaCpu }
  else if quantum ≤ ahora - tiempoInicial then
    if pidInicial = k.pidEjecutando then
      .ok { k.interrumpirProceso k.pidEjecutando with corto := .esperaCpu }
    else .ok { k with corto := .esperaCpu }
  else .ok k

/-- The pass of `planificadorCortoPlazo` that starts once it has `sem_planificacion`. -/
def pasada (k : Nucleo) (ahora : ℤ) : Nucleo :=
  match k.config.algoritmo with
  | .fifo =>
      match k.listas .ready with
      | [] => { k with corto := .esperaCpu }
      | p :: ready => { (k.conLista .ready ready).despachar p ahora with corto := .esperaCpu }
  | .rr =>
      -- it keeps `sem_planificacion` while it waits for the end of the quantum before
      { k with
        sem := { k.sem with planificacion := k.sem.planificacion - 1 }
        corto := .esperaQuantum }
  | .vrr =>
      match k.listas .auxiliar with
      | p :: auxiliar =>
          { (k.conLista .auxiliar auxiliar).despachar p ahora with
            corto := .cuenta p.pid ahora p.quantum }
      | [] =>
          match k.listas .ready with
          | p :: ready =>
              let p := { p with quantum := k.config.quantum }
              { (k.conLista .ready ready).despachar p ahora with
                corto := .cuenta p.pid ahora k.config.quantum }
          | [] => { k with corto := .esperaCpu }
  | .otro => { k with corto := .esperaCpu }

/-- `planificadorCortoPlazo`: one step of its thread, at the time `ahora`. -/
def planificadorCortoPlazo (k : Nucleo) (ahora : ℤ) : Except Corte Nucleo :=
  match k.corto with
  | .esperaCpu => do
      exigir (0 < k.sem.cpuFreeToExecute) .espera
      .ok { k with
        sem := { k.sem with cpuFreeToExecute := k.sem.cpuFreeToExecute - 1 }
        corto := .esperaReady }
  | .esperaReady => do
      exigir (0 < k.sem.processInReady) .espera
      .ok { k with
        sem := { k.sem with processInReady := k.sem.processInReady - 1 }
        corto := .esperaPlanificacion }
  | .esperaPlanificacion => do
      exigir (0 < k.sem.planificacion) .espera
      .ok (pasada k ahora)
  | .esperaQuantum => do
      exigir (0 < k.sem.interruptionQuantum) .espera
      let r ← obtenido (Coleccion.remover (k.listas .ready) 0)
      let k := (k.conLista .ready r.2).despachar r.1 ahora
      .ok { k with
        sem := { k.sem with
          interruptionQuantum := k.sem.interruptionQuantum - 1
          begginQuantum := k.sem.begginQuantum + 1
          planificacion := k.sem.planificacion + 1 }
        corto := .esperaCpu }
  | .cuenta pidInicial tiempoInicial quantum =>
      contadorQuantumVrr k pidInicial tiempoInicial quantum ahora

/-- `contador_quantum_RR`: it takes the running process, or its quantum is over. -/
def contadorQuantumRr (k : Nucleo) : Except Corte Nucleo :=
  match k.reloj with
  | .espera => do
      exigir (0 < k.sem.begginQuantum) .espera
      .ok { k with
        sem := { k.sem with begginQuantum := k.sem.begginQuantum - 1 }
        reloj := .cuenta k.pidEjecutando }
  | .cuenta pidInicial =>
      if pidInicial = k.pidEjecutando then
        .ok { k.interrumpirProceso k.pidEjecutando with reloj := .espera }
      else .ok { k with reloj := .espera }

end Kernel
