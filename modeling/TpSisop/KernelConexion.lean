/-
**The kernel as a system driven by its console, the CPU, the interfaces and memory.**

The handlers of `conexion.c` and `consola.c`, and the kernel as a transition system: an event is a
command, a message, or one step of one of the kernel's threads, and each is handled to its end.
What the environment may send is limited by what it was sent: the CPU gives back the PCB it has,
with other registers, and an interface answers a request on its socket.

Main definitions:

* `Kernel.atenderCpuDispatch`, `Kernel.atenderIo`, `Kernel.atenderMemoria`, `Kernel.moverAReady`;
* `Kernel.Evento`, `Kernel.admite`, `Kernel.manejar` — the events, when each may come, and what it
  does;
* `Kernel.sistema` — the kernel as a transition system;
* `Kernel.correr` — the state in which a list of events ends.
-/

import TpSisop.KernelRecursos

set_option relaxedAutoImplicit false
set_option autoImplicit false

namespace Kernel

open Coleccion (Diccionario)

/-! ### The CPU (`atender_cpu_dispatch`) -/

/-- What the CPU says when it gives a PCB back: an I/O request, or the motive of its context. -/
inductive MensajeCpu
  | io (interfaz : String) (operacion : OperacionIo)
  | interrupcion
  | outOfMemory
  | terminarProceso
  | wait (recurso : String)
  | signal (recurso : String)
  deriving DecidableEq, Repr

namespace Nucleo

/-- `enviar_io_…_a_interfaz`. -/
def enviarAInterfaz (k : Nucleo) (nombre : String) (i : Interfaz) (pet : PeticionIo) : Nucleo :=
  { k with interfaces := k.interfaces.poner nombre { i with enviadas := i.enviadas ++ [pet] } }

end Nucleo

/-- The request named an interface or a resource that does not exist. -/
def expulsar (k : Nucleo) (p : Pcb) : Except Corte Nucleo := do
  let r ← obtenido (Coleccion.remover (k.listas .running) 0)
  let k ← eliminarProceso (k.conLista .running r.2) p
  .ok k.liberarCpu

/-- The seven I/O requests. -/
def peticionIo (k : Nucleo) (p : Pcb) (nombre : String) (operacion : OperacionIo) (ahora : ℤ) :
    Except Corte Nucleo :=
  match k.interfaces.valor nombre with
  | none => expulsar k p
  | some i => do
      let k ← bloquearProceso k p true ahora
      let k := k.enviarAInterfaz nombre i ⟨p.pid, operacion⟩
      let esRr := k.config.algoritmo = .rr ∨ k.config.algoritmo = .vrr
      .ok { k with
        pidEjecutando := 0
        sem := { k.sem with
          interruptionQuantum := k.sem.interruptionQuantum + if esRr then 1 else 0
          cpuFreeToExecute := k.sem.cpuFreeToExecute + 1 } }

def finDeQuantum (k : Nucleo) (p : Pcb) : Except Corte Nucleo := do
  exigir (0 < k.sem.planificacion) .espera
  let r ← obtenido (Coleccion.remover (k.listas .running) 0)
  let k := (k.conLista .running r.2).actualizarEstadoPcb p .ready .ready
  .ok { k with
    sem := { k.sem with
      processInReady := k.sem.processInReady + 1
      cpuFreeToExecute := k.sem.cpuFreeToExecute + 1 } }

/-- The handlers of `OUT_OF_MEMORY_ERROR` and `TERMINAR_PROCESO`, which differ in what they log. -/
def terminar (k : Nucleo) (p : Pcb) : Except Corte Nucleo := do
  exigir (0 < k.sem.planificacionLargo) .espera
  let k ← liberarRecursosTomados k p
  let r ← obtenido (Coleccion.remover (k.listas .running) 0)
  .ok ((k.conLista .running r.2).salir p).liberarCpu

/-- The end of WAIT and SIGNAL: the PCB takes the place of the old one and goes back to the CPU. -/
def reanudar (k : Nucleo) (p : Pcb) : Except Corte Nucleo := do
  let r ← obtenido (Coleccion.remover (k.listas .running) 0)
  .ok ((k.conLista .running (r.2 ++ [p])).enviarSiguientePcb p)

/-- `recibir_contexto_ejecucion_motivo_signal`. -/
def motivoSignal (k : Nucleo) (p : Pcb) (recurso : String) : Except Corte Nucleo := do
  let k ← recursoIncrementar k recurso
  reanudar k { p with recursosTomados := p.recursosTomados.erase recurso }

/-- `recibir_contexto_ejecucion_motivo_wait`. -/
def motivoWait (k : Nucleo) (p : Pcb) (recurso : String) (ahora : ℤ) : Except Corte Nucleo := do
  let r ← recursoDecrementar k recurso p ahora
  if r.1 then reanudar r.2 { p with recursosTomados := p.recursosTomados ++ [recurso] }
  else .ok r.2

def atenderCpuDispatch (k : Nucleo) (p : Pcb) (ahora : ℤ) : MensajeCpu → Except Corte Nucleo
  | .io nombre operacion => peticionIo k p nombre operacion ahora
  | .interrupcion => finDeQuantum k p
  | .outOfMemory => terminar k p
  | .terminarProceso => terminar k p
  | .wait recurso =>
      if k.recursos.valor recurso = none then expulsar k p else motivoWait k p recurso ahora
  | .signal recurso =>
      if k.recursos.valor recurso = none then expulsar k p else motivoSignal k p recurso

/-! ### The interfaces (`atender_io`) -/

/-- The answers of an interface to a request: `ERROR_IO`, `IO_OCUPADA_…`, `FIN_IO`. -/
inductive RespuestaIo
  | errorIo
  | ioOcupada
  | finIo
  deriving DecidableEq, Repr

/-- The operation that `FIN_IO` sends again for a queued request, by the type of the interface. -/
def reenvio (tipoInterfaz : ℕ) (operacion : OperacionIo) : Option OperacionIo :=
  match tipoInterfaz with
  | 1 => some .genSleep
  | 2 => some .stdinRead
  | 3 => some .stdoutWrite
  | 4 => if operacion.tipoInterfaz = 4 then some operacion else none
  | _ => none

def errorIo (k : Nucleo) (pid : ℕ) : Except Corte Nucleo := do
  let r ← obtenido (sacar pid (k.listas .blocked))
  eliminarProceso (k.conLista .blocked r.2) r.1

def ioOcupada (k : Nucleo) (nombre : String) (pet : PeticionIo) : Except Corte Nucleo := do
  let i ← obtenido (k.interfaces.valor nombre)
  let pcb := ((k.listas .blocked).find? fun p => p.pid == pet.pid).map Pcb.pid
  let i := { i with listaBloqueados := i.listaBloqueados ++ [⟨pcb, pet.operacion⟩] }
  .ok { k with interfaces := k.interfaces.poner nombre i }

def finIo (k : Nucleo) (nombre : String) (pid : ℕ) : Except Corte Nucleo := do
  let k ← desbloquearProceso k pid
  let i ← obtenido (k.interfaces.valor nombre)
  match i.listaBloqueados with
  | [] => .ok k
  | ioPcb :: cola =>
      let i := { i with listaBloqueados := cola }
      match reenvio i.tipoInterfaz ioPcb.operacion with
      | none => .ok { k with interfaces := k.interfaces.poner nombre i }
      | some operacion => do
          let pid ← obtenido ioPcb.pcb
          .ok (k.enviarAInterfaz nombre i ⟨pid, operacion⟩)

def atenderIo (k : Nucleo) (nombre : String) (pet : PeticionIo) : RespuestaIo → Except Corte Nucleo
  | .errorIo => errorIo k pet.pid
  | .ioOcupada => ioOcupada k nombre pet
  | .finIo => finIo k nombre pet.pid

/-! ### Memory and the admission of processes -/

/-- `atender_memoria`: `FIN_CREA_PRO` and `FIN_TERM_PRO`. -/
def atenderMemoria (k : Nucleo) : AMemoria → Nucleo
  | .nuevoProceso _ =>
      { k with
        sem := { k.sem with procesoSeCreoEnMemoria := k.sem.procesoSeCreoEnMemoria + 1 } }
  | .finalizarProceso _ =>
      { k with sem := { k.sem with gradoMultiprogramacion := k.sem.gradoMultiprogramacion + 1 } }

/-- `mover_a_ready`: one step of its thread.  A process in excess of the degree costs the token, and
where it finds NEW empty it does not unlock `m_list_NEW`. -/
def moverAReady (k : Nucleo) : Except Corte Nucleo :=
  match k.largo with
  | .esperaCreacion => do
      exigir (0 < k.sem.procesoSeCreoEnMemoria) .espera
      .ok { k with
        sem := { k.sem with procesoSeCreoEnMemoria := k.sem.procesoSeCreoEnMemoria - 1 }
        largo := .esperaGrado }
  | .esperaGrado => do
      exigir (0 < k.sem.gradoMultiprogramacion) .espera
      let k := { k with
        sem := { k.sem with gradoMultiprogramacion := k.sem.gradoMultiprogramacion - 1 } }
      let tamanio : ℤ := (k.listas .ready).length + (k.listas .running).length
        + (k.listas .blocked).length + (k.listas .auxiliar).length
      if k.config.gradoMultiprogramacion ≤ tamanio then .ok k
      else .ok { k with largo := .esperaPlanificacion }
  | .esperaPlanificacion => do
      exigir (0 < k.sem.planificacionLargo) .espera
      exigir (k.mListNew = false) .espera
      match k.listas .new with
      | [] => .ok { k with mListNew := true, largo := .esperaCreacion }
      | p :: new =>
          let k := (k.conLista .new new).actualizarEstadoPcb p .ready .ready
          .ok { k with
            sem := { k.sem with processInReady := k.sem.processInReady + 1 }
            largo := .esperaCreacion }

/-! ### The console -/

def iniciarPlanificacion (k : Nucleo) : Nucleo :=
  if k.pausar then k
  else
    { k with
      sem := { k.sem with
        planificacion := k.sem.planificacion + 1
        planificacionLargo := k.sem.planificacionLargo + 1 }
      pausar := true }

def detenerPlanificacion (k : Nucleo) : Except Corte Nucleo :=
  if k.pausar then do
    exigir (0 < k.sem.planificacion) .espera
    exigir (0 < k.sem.planificacionLargo) .espera
    .ok { k with
      sem := { k.sem with
        planificacion := k.sem.planificacion - 1
        planificacionLargo := k.sem.planificacionLargo - 1 }
      pausar := false }
  else .ok k

/-- `cambiar_multiprogramacion`: raising the degree adds tokens, lowering it takes none away. -/
def cambiarMultiprogramacion (k : Nucleo) (valor : ℤ) : Nucleo :=
  { k with
    sem := { k.sem with
      gradoMultiprogramacion := k.sem.gradoMultiprogramacion
        + (valor - k.config.gradoMultiprogramacion).toNat }
    config := { k.config with gradoMultiprogramacion := valor } }

/-! ### The system -/

inductive Evento
  | iniciarProceso
  | finalizarProceso (pid : ℕ)
  | iniciarPlanificacion
  | detenerPlanificacion
  | multiprogramacion (valor : ℤ)
  | cpu (p : Pcb) (m : MensajeCpu) (ahora : ℤ)
  | interfaz (nombre : String) (pet : PeticionIo) (r : RespuestaIo)
  | conexionIo (nombre : String) (tipoInterfaz : ℕ)
  | memoria (m : AMemoria)
  | corto (ahora : ℤ)
  | reloj
  | largo
  deriving DecidableEq, Repr

/-- The events that are messages of the CPU. -/
def Evento.deCpu : Evento → Prop
  | .cpu _ _ _ => True
  | _ => False

instance : DecidablePred Evento.deCpu
  | .cpu _ _ _ => .isTrue trivial
  | .iniciarProceso | .finalizarProceso _ | .iniciarPlanificacion | .detenerPlanificacion
  | .multiprogramacion _ | .interfaz _ _ _ | .conexionIo _ _ | .memoria _ | .corto _ | .reloj
  | .largo => .isFalse id

/-- The CPU gives back the PCB it has, with other registers; it does so with the motive of an
interruption only if it was sent one. -/
def admiteCpu (k : Nucleo) (p : Pcb) (m : MensajeCpu) : Prop :=
  k.enCpu.map (fun q => { q with pc := p.pc, registros := p.registros }) = some p ∧
    (m = .interrupcion → ⟨p.pid, .interrupcion⟩ ∈ k.interrupt)

/-- An interface answers a request it has, and refuses exactly those it does not support. -/
def admiteInterfaz (i : Interfaz) (pet : PeticionIo) (r : RespuestaIo) : Prop :=
  pet ∈ i.enviadas ∧ (r = .errorIo ↔ pet.operacion.tipoInterfaz ≠ i.tipoInterfaz)

instance (k : Nucleo) (p : Pcb) (m : MensajeCpu) : Decidable (admiteCpu k p m) :=
  inferInstanceAs (Decidable (_ ∧ _))

instance (i : Interfaz) (pet : PeticionIo) (r : RespuestaIo) : Decidable (admiteInterfaz i pet r) :=
  inferInstanceAs (Decidable (_ ∧ _))

/-- Which events may come.  No two interfaces have the same name. -/
def admite (k : Nucleo) : Evento → Prop
  | .cpu p m _ => admiteCpu k p m
  | .interfaz nombre pet r => ∃ i ∈ k.interfaces.valor nombre, admiteInterfaz i pet r
  | .conexionIo nombre _ => k.interfaces.valor nombre = none
  | .memoria m => k.memoria[k.respondidas]? = some m
  | .reloj => k.config.algoritmo = .rr
  | _ => True

instance (k : Nucleo) : DecidablePred (admite k)
  | .cpu p m _ => inferInstanceAs (Decidable (admiteCpu k p m))
  | .interfaz nombre pet r =>
      inferInstanceAs (Decidable (∃ i ∈ k.interfaces.valor nombre, admiteInterfaz i pet r))
  | .conexionIo nombre _ => inferInstanceAs (Decidable (k.interfaces.valor nombre = none))
  | .memoria _ => inferInstanceAs (Decidable (_ = _))
  | .reloj => inferInstanceAs (Decidable (_ = _))
  | .iniciarProceso | .finalizarProceso _ | .iniciarPlanificacion | .detenerPlanificacion
  | .multiprogramacion _ | .corto _ | .largo => .isTrue trivial

/-- The handling of an event, which starts by taking its message from its socket. -/
def manejar (k : Nucleo) : Evento → Except Corte Nucleo
  | .iniciarProceso => crearProceso k
  | .finalizarProceso pid => finalizarProceso k pid
  | .iniciarPlanificacion => .ok (iniciarPlanificacion k)
  | .detenerPlanificacion => detenerPlanificacion k
  | .multiprogramacion valor => .ok (cambiarMultiprogramacion k valor)
  | .cpu p m ahora => atenderCpuDispatch { k with enCpu := none } p ahora m
  | .interfaz nombre pet r => do
      let i ← obtenido (k.interfaces.valor nombre)
      let i := { i with enviadas := i.enviadas.erase pet }
      atenderIo { k with interfaces := k.interfaces.poner nombre i } nombre pet r
  | .conexionIo nombre tipoInterfaz =>
      .ok { k with interfaces := k.interfaces.poner nombre { tipoInterfaz := tipoInterfaz } }
  | .memoria m => .ok { atenderMemoria k m with respondidas := k.respondidas + 1 }
  | .corto ahora => planificadorCortoPlazo k ahora
  | .reloj => contadorQuantumRr k
  | .largo => moverAReady k

/-- The kernel: every event that may come is handled to its end, or not at all.  So a handler that
would wait for ever, at a semaphore or at `m_list_NEW`, takes no step. -/
def sistema : Transicion.Sistema Nucleo Evento where
  inicial k := ∃ config, k = iniciar config
  paso k e k' := admite k e ∧ manejar k e = .ok k'

/-- The state after an event, for runs that are computed. -/
def intentar (C : Nucleo → Evento → Prop) [∀ k e, Decidable (C k e)] (k : Nucleo) (e : Evento) :
    Option Nucleo :=
  if C k e ∧ admite k e then (manejar k e).toOption else none

theorem paso_of_intentar {C : Nucleo → Evento → Prop} [∀ k e, Decidable (C k e)] {k k' : Nucleo}
    {e : Evento} (h : intentar C k e = some k') : C k e ∧ sistema.paso k e k' := by
  unfold intentar at h
  split at h
  · rename_i hC
    exact ⟨hC.1, hC.2, Resultado.eq_ok_of_toOption h⟩
  · cases h

/-- The state in which a list of events ends, from the state `main` builds. -/
def correr (C : Nucleo → Evento → Prop) [∀ k e, Decidable (C k e)] (config : Config)
    (es : List Evento) (h : (Transicion.ejecutar (intentar C) (iniciar config) es).isSome = true) :
    Nucleo :=
  Transicion.estadoTras (intentar C) (iniciar config) es h

theorem alcanzable_correr {C : Nucleo → Evento → Prop} [∀ k e, Decidable (C k e)] {config : Config}
    {es : List Evento} (h : (Transicion.ejecutar (intentar C) (iniciar config) es).isSome = true) :
    Transicion.AlcanzableCon sistema C (correr C config es h) :=
  Transicion.alcanzableCon_estadoTras (fun _ _ _ => paso_of_intentar) ⟨config, rfl⟩ h

/-- Two processes are created and reach READY. -/
def dosAdmitidos : List Evento :=
  [.iniciarPlanificacion, .iniciarProceso, .iniciarProceso, .memoria (.nuevoProceso 1), .largo,
    .largo, .largo, .memoria (.nuevoProceso 2), .largo, .largo, .largo]

end Kernel
