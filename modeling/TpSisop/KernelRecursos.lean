/-
**Resources, and the end of a process.**

The functions of `recursos.c` and of `planificador-largo.c`.  A resource counts its free instances,
below zero when processes wait for it, and queues the pids of those.  A process records the
resources it holds by their names in its PCB, and gives them back one by one when it ends.

Main definitions:

* `Kernel.recursoIncrementar`, `Kernel.recursoDecrementar` — SIGNAL and WAIT on a resource;
* `Kernel.liberarRecursosTomados` — everything a process held or waited for is given back;
* `Kernel.hayarPcb`, `Kernel.eliminarProceso`, `Kernel.finalizarProceso`, `Kernel.crearProceso`.
-/

import TpSisop.KernelPlanificacion

set_option relaxedAutoImplicit false
set_option autoImplicit false

namespace Kernel

namespace Nucleo

def ponerRecurso (k : Nucleo) (nombre : String) (r : Recurso) : Nucleo :=
  { k with recursos := k.recursos.poner nombre r }

@[simp] theorem ponerRecurso_listas (k : Nucleo) (nombre : String) (r : Recurso) :
    (k.ponerRecurso nombre r).listas = k.listas := rfl

/-- `sem_post(sem_cpu_free_to_execute)`. -/
def liberarCpu (k : Nucleo) : Nucleo :=
  { k with sem := { k.sem with cpuFreeToExecute := k.sem.cpuFreeToExecute + 1 } }

def enviarInterrupcionCpu (k : Nucleo) (pid : ℕ) : Nucleo :=
  { k with interrupt := k.interrupt ++ [⟨pid, .terminarProceso⟩] }

end Nucleo

/-! ### Resources (`recursos.c`) -/

/-- What `recurso_incrementar` writes into the PCB of the process it wakes. -/
def Pcb.otorgar (recurso : String) (p : Pcb) : Pcb :=
  { p with recursosTomados := p.recursosTomados ++ [recurso], recursoEsperando := none }

/-- `recurso_incrementar`.  On an empty queue `recurso_obtener_bloqueado` leaves the pid it should
answer as it was, which is to say unwritten. -/
def recursoIncrementar (k : Nucleo) (recurso : String) : Except Corte Nucleo :=
  match k.recursos.valor recurso with
  | none => .ok k
  | some r =>
      if r.instancias + 1 ≤ 0 then
        match r.bloqueados with
        | [] => .error .indefinido
        | pid :: cola =>
            let k := k.ponerRecurso recurso
              { r with instancias := r.instancias + 1, bloqueados := cola }
            if ∃ p ∈ k.listas .blocked, p.pid = pid then
              desbloquearProceso (k.conLista .blocked
                (Coleccion.alterar (fun p => p.pid == pid) (Pcb.otorgar recurso)
                  (k.listas .blocked))) pid
            else .ok k
      else .ok (k.ponerRecurso recurso { r with instancias := r.instancias + 1 })

def recursoAgregarBloqueado (k : Nucleo) (recurso : String) (pid : ℕ) : Nucleo :=
  match k.recursos.valor recurso with
  | none => k
  | some r => k.ponerRecurso recurso { r with bloqueados := r.bloqueados ++ [pid] }

/-- `recurso_decrementar`: whether the instance was granted, and the state.  The PCB gets its
`recurso_esperando` from `recurso_agregar_bloqueado`, when it is already in BLOCKED. -/
def recursoDecrementar (k : Nucleo) (recurso : String) (p : Pcb) (ahora : ℤ) :
    Except Corte (Bool × Nucleo) :=
  match k.recursos.valor recurso with
  | none => .ok (false, k)
  | some r =>
      let k := k.ponerRecurso recurso { r with instancias := r.instancias - 1 }
      if r.instancias - 1 < 0 then do
        let k ← bloquearProceso k { p with recursoEsperando := some recurso } false ahora
        .ok (false, (recursoAgregarBloqueado k recurso p.pid).liberarCpu)
      else .ok (true, k)

/-- `recurso_modificar_instancias2`, with which a process that dies waiting leaves the queue.  The
queue holds pointers to `pid`, the first field of a PCB, so `obtener_index` searches it by pid. -/
def recursoModificarInstancias2 (k : Nucleo) (recurso : String) (pid : ℕ) : Nucleo :=
  match k.recursos.valor recurso with
  | none => k
  | some r =>
      k.ponerRecurso recurso
        { r with instancias := r.instancias + 1, bloqueados := r.bloqueados.erase pid }

/-- The loop of `liberar_recursos_tomados`: it increments the resource whose name is the `id` of the
one that was taken. -/
def liberarTomados (k : Nucleo) : List String → Except Corte Nucleo
  | [] => .ok k
  | recursoTomado :: tomados => do
      let r ← obtenido (k.recursos.valor recursoTomado)
      let k ← recursoIncrementar k r.id
      liberarTomados k tomados

def liberarRecursosTomados (k : Nucleo) (p : Pcb) : Except Corte Nucleo := do
  let k ← liberarTomados k p.recursosTomados
  match p.recursoEsperando with
  | none => .ok k
  | some recurso => .ok (recursoModificarInstancias2 k recurso p.pid)

/-! ### Processes (`planificador-largo.c`) -/

def procesoEnRunning (k : Nucleo) (p : Pcb) : Bool :=
  match k.listas .running with
  | [] => false
  | q :: _ => p.pid == q.pid

/-- A process that gave everything back goes to EXIT, and memory is told. -/
def Nucleo.salir (k : Nucleo) (p : Pcb) : Nucleo :=
  let k := k.actualizarEstadoPcb { p with recursoEsperando := none } .exitt .exit
  { k with memoria := k.memoria ++ [.finalizarProceso p.pid] }

def eliminarProceso (k : Nucleo) (p : Pcb) : Except Corte Nucleo :=
  if procesoEnRunning k p then .ok (k.enviarInterrupcionCpu p.pid)
  else do
    let k ← liberarRecursosTomados k p
    exigir (0 < k.sem.planificacionLargo) .espera
    .ok (k.salir p)

/-- `hayar_pcb`: the process, out of the list it was in, or nothing, after interrupting the CPU if
it is the process in execution. -/
def hayarPcb (k : Nucleo) (pid : ℕ) : Option Pcb × Nucleo :=
  match sacar pid (k.listas .new) with
  | some (p, new) => (some p, k.conLista .new new)
  | none =>
      match sacar pid (k.listas .ready) with
      | some (p, ready) => (some p, k.conLista .ready ready)
      | none =>
          match sacar pid (k.listas .blocked) with
          | some (p, blocked) => (some p, k.conLista .blocked blocked)
          | none =>
              match sacar pid (k.listas .auxiliar) with
              | some (p, auxiliar) => (some p, k.conLista .auxiliar auxiliar)
              | none =>
                  if k.pidEjecutando = pid then (none, k.enviarInterrupcionCpu pid)
                  else (none, k)

/-- `finalizar_proceso`; the first thing `hayar_pcb` does is to lock `m_list_NEW`. -/
def finalizarProceso (k : Nucleo) (pid : ℕ) : Except Corte Nucleo := do
  exigir (0 < k.sem.planificacionLargo) .espera
  exigir (k.mListNew = false) .espera
  match hayarPcb k pid with
  | (some p, k) => eliminarProceso k p
  | (none, k) => .ok k

/-- What `crear_proceso` leaves, with the PCB of `crear_pcb`. -/
def Nucleo.conProceso (k : Nucleo) : Nucleo :=
  { k with
    ultimoPid := k.ultimoPid + 1
    estadosProcesos := k.estadosProcesos ++ [.new]
    memoria := k.memoria ++ [.nuevoProceso k.ultimoPid]
    listas := Familia.agregar k.listas .new { pid := k.ultimoPid } }

/-- `crear_proceso`.  `agregar_a_lista_con_semaforos` gets `m_list_NEW` by value, and a copy that is
locked is never unlocked. -/
def crearProceso (k : Nucleo) : Except Corte Nucleo := do
  exigir (k.mListNew = false) .espera
  .ok k.conProceso

theorem crearProceso_eq_ok {k k' : Nucleo} :
    crearProceso k = .ok k' ↔ k.mListNew = false ∧ k.conProceso = k' := by
  unfold crearProceso
  rw [exigir_bind_eq_ok, Except.ok.injEq]

end Kernel
