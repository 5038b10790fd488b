/-
**The kernel, one semaphore operation at a time.**

In `KernelConexion` a handler runs to its end in one step.  Here every thread of the kernel runs its
code instruction by instruction, and the others come in between: each `sem_wait` and each `sem_post`
is a step, and so is each change that a function makes to a list, a resource or an interface under
one mutex.  What is left of the code of a thread is a list of instructions; a call, a branch or one
more turn of a loop puts the code of what comes next in front of the rest.

`sem_planificacion` and `sem_planificacion_largo`, which DETENER_PLANIFICACION takes, are told from
the semaphores that count something: next to the counters of the two, the state records which thread
took each of them, the console to begin with.  Of the mutexes only `m_list_NEW` is there, since
`mover_a_ready` may leave it locked; the others are locked and unlocked within a step.

Main definitions:

* `KernelHebras.Cerrojo`, `KernelHebras.Contador` — the two semaphores of a pause, and the others;
* `KernelHebras.Accion`, `KernelHebras.ejecutar` — the steps of the functions of the kernel;
* `KernelHebras.bloquearProceso`, …, `KernelHebras.cicloLargo` — their code;
* `KernelHebras.Estado`, `KernelHebras.Suceso`, `KernelHebras.avanzar`, `KernelHebras.sistema`;
* `KernelHebras.correr` — the state in which a list of steps ends.

Main results:

* `KernelHebras.paso_of_avanzar` — the steps, one by one.
-/

import TpSisop.Cerrojos
import TpSisop.KernelConexion

set_option relaxedAutoImplicit false
set_option autoImplicit false

namespace KernelHebras

open Kernel (Nucleo Pcb EstadoCode Lista Corte Evento MensajeCpu RespuestaIo PeticionIo AMemoria
  obtenido sacar)

/-! ### Semaphores -/

/-- `sem_planificacion` and `sem_planificacion_largo`. -/
inductive Cerrojo
  | planificacion
  | largo
  deriving DecidableEq, Repr

/-- The semaphores that count something. -/
inductive Contador
  | grado
  | processInReady
  | cpuFreeToExecute
  | begginQuantum
  | interruptionQuantum
  | procesoSeCreoEnMemoria
  deriving DecidableEq, Repr

/-- The value of a semaphore of a pause. -/
def cuenta (k : Nucleo) : Cerrojo → ℕ
  | .planificacion => k.sem.planificacion
  | .largo => k.sem.planificacionLargo

def conCuenta (k : Nucleo) (c : Cerrojo) (n : ℕ) : Nucleo :=
  match c with
  | .planificacion => { k with sem := { k.sem with planificacion := n } }
  | .largo => { k with sem := { k.sem with planificacionLargo := n } }

theorem cuenta_conCuenta {k : Nucleo} {c : Cerrojo} {n : ℕ} :
    cuenta (conCuenta k c n) = Function.update (cuenta k) c n := by
  funext d
  cases c <;> cases d <;> simp [cuenta, conCuenta]

@[simp] theorem conCuenta_listas (k : Nucleo) (c : Cerrojo) (n : ℕ) :
    (conCuenta k c n).listas = k.listas := by
  cases c <;> rfl

@[simp] theorem conCuenta_config (k : Nucleo) (c : Cerrojo) (n : ℕ) :
    (conCuenta k c n).config = k.config := by
  cases c <;> rfl

@[simp] theorem conCuenta_pausar (k : Nucleo) (c : Cerrojo) (n : ℕ) :
    (conCuenta k c n).pausar = k.pausar := by
  cases c <;> rfl

@[simp] theorem conCuenta_enCpu (k : Nucleo) (c : Cerrojo) (n : ℕ) :
    (conCuenta k c n).enCpu = k.enCpu := by
  cases c <;> rfl

@[simp] theorem conCuenta_cpuFreeToExecute (k : Nucleo) (c : Cerrojo) (n : ℕ) :
    (conCuenta k c n).sem.cpuFreeToExecute = k.sem.cpuFreeToExecute := by
  cases c <;> rfl

/-- The value of another semaphore. -/
def valor (k : Nucleo) : Contador → ℕ
  | .grado => k.sem.gradoMultiprogramacion
  | .processInReady => k.sem.processInReady
  | .cpuFreeToExecute => k.sem.cpuFreeToExecute
  | .begginQuantum => k.sem.begginQuantum
  | .interruptionQuantum => k.sem.interruptionQuantum
  | .procesoSeCreoEnMemoria => k.sem.procesoSeCreoEnMemoria

def conValor (k : Nucleo) (c : Contador) (n : ℕ) : Nucleo :=
  match c with
  | .grado => { k with sem := { k.sem with gradoMultiprogramacion := n } }
  | .processInReady => { k with sem := { k.sem with processInReady := n } }
  | .cpuFreeToExecute => { k with sem := { k.sem with cpuFreeToExecute := n } }
  | .begginQuantum => { k with sem := { k.sem with begginQuantum := n } }
  | .interruptionQuantum => { k with sem := { k.sem with interruptionQuantum := n } }
  | .procesoSeCreoEnMemoria => { k with sem := { k.sem with procesoSeCreoEnMemoria := n } }

/-! ### The steps of the functions -/

/-- What a thread does between two operations on the semaphores of a pause. -/
inductive Accion
  -- the other semaphores
  | semWait (c : Contador)
  | semPost (c : Contador)
  -- `consola.c` and `crear_proceso`
  | pausar (b : Bool)
  | crearPcb
  | copiarMListNew (p : Pcb)
  | agregarANew (p : Pcb)
  -- `planificacion.c`
  | sinEjecutar
  | actualizarEstadoPcb (p : Pcb) (state : EstadoCode) (l : Lista)
  | bloquear (p : Pcb) (esIo : Bool)
  | desbloquear (pid : ℕ)
  | pasada
  | despachar (l : Lista)
  | enviarSiguientePcb (p : Pcb) (vieneDePlanificacion : Bool)
  | contadorQuantumVrr (quantum : ℤ)
  | turnoQuantumVrr (pidInicial : ℕ) (tiempoInicial quantum : ℤ)
  -- `recursos.c`
  | recursoIncrementar (recurso : String)
  | recursoObtenerBloqueado (recurso : String)
  | otorgar (recurso : String) (pid : ℕ)
  | recursoDecrementar (recurso : String) (p : Pcb)
  | recursoAgregarBloqueado (recurso : String) (pid : ℕ)
  | liberarTomados (tomados : List String)
  | soltarEsperado (p : Pcb)
  -- `planificador-largo.c`
  | hayarPcb (ls : List Lista) (pid : ℕ)
  | eliminarProceso (p : Pcb)
  | aMemoria (m : AMemoria)
  -- `conexion.c`
  | mensajeCpu (p : Pcb) (m : MensajeCpu)
  | expulsar (p : Pcb)
  | dejarRunning (p : Pcb) (state : EstadoCode) (l : Lista)
  | reemplazar (p : Pcb)
  | enviarAInterfaz (nombre : String) (pet : PeticionIo)
  | errorIo (pid : ℕ)
  | ioOcupada (nombre : String) (pet : PeticionIo)
  | siguienteIo (nombre : String)
  | comparar
  | admitir
  deriving DecidableEq, Repr

abbrev Orden : Type := Cerrojos.Orden Cerrojo Accion

abbrev Codigo : Type := List Orden

/-- `sem_wait` of a semaphore that counts something. -/
def semWait (c : Contador) : Orden := .hacer (.semWait c)

/-- `sem_post` of one. -/
def semPost (c : Contador) : Orden := .hacer (.semPost c)

/-! ### Their code -/

/-- `bloquear_proceso`. -/
def bloquearProceso (p : Pcb) (esIo : Bool) : Codigo :=
  [.hacer .sinEjecutar, .esperar .planificacion, .hacer (.bloquear p esIo), .avisar .planificacion]

/-- `desbloquear_proceso`. -/
def desbloquearProceso (pid : ℕ) : Codigo :=
  [.esperar .planificacion, .hacer (.desbloquear pid), semPost .processInReady,
    .avisar .planificacion]

/-- `liberar_recursos_tomados`. -/
def liberarRecursosTomados (p : Pcb) : Codigo :=
  [.hacer (.liberarTomados p.recursosTomados), .hacer (.soltarEsperado p)]

/-- The end of `eliminar_proceso`, for a process that is not in RUNNING. -/
def eliminarAfuera (p : Pcb) : Codigo :=
  liberarRecursosTomados p ++
    [.esperar .largo,
      .hacer (.actualizarEstadoPcb { p with recursoEsperando := none } .exitt .exit),
      .avisar .largo, .hacer (.aMemoria (.finalizarProceso p.pid))]

/-- `finalizar_proceso`. -/
def finalizarProceso (pid : ℕ) : Codigo :=
  [.esperar .largo, .hacer (.hayarPcb [.new, .ready, .blocked, .auxiliar] pid)]

/-- The end of a quantum, in `atender_cpu_dispatch`. -/
def finDeQuantum (p : Pcb) : Codigo :=
  [.esperar .planificacion, .hacer (.dejarRunning p .ready .ready), semPost .processInReady,
    semPost .cpuFreeToExecute, .avisar .planificacion]

/-- `OUT_OF_MEMORY_ERROR` and `TERMINAR_PROCESO`. -/
def terminar (p : Pcb) : Codigo :=
  .esperar .largo :: (liberarRecursosTomados p ++
    [.hacer (.dejarRunning { p with recursoEsperando := none } .exitt .exit), .avisar .largo,
      .hacer (.aMemoria (.finalizarProceso p.pid)), semPost .cpuFreeToExecute])

/-- A request that names an interface or a resource that does not exist. -/
def rechazar (p : Pcb) : Codigo := [.hacer (.expulsar p), semPost .cpuFreeToExecute]

/-- A request to an interface. -/
def peticionIo (k : Nucleo) (p : Pcb) (nombre : String) (pet : PeticionIo) : Codigo :=
  bloquearProceso p true ++ [.hacer (.enviarAInterfaz nombre pet), .hacer .sinEjecutar] ++
    (if k.config.algoritmo = .rr ∨ k.config.algoritmo = .vrr then [semPost .interruptionQuantum]
      else []) ++
    [semPost .cpuFreeToExecute]

/-- The end of WAIT and SIGNAL. -/
def reanudar (p : Pcb) : Codigo := [.hacer (.reemplazar p), .hacer (.enviarSiguientePcb p false)]

/-- `atender_cpu_dispatch`, once the message is read. -/
def atenderCpuDispatch (k : Nucleo) (p : Pcb) : MensajeCpu → Codigo
  | .io nombre operacion =>
      if k.interfaces.valor nombre = none then rechazar p
      else peticionIo k p nombre ⟨p.pid, operacion⟩
  | .interrupcion => finDeQuantum p
  | .outOfMemory => terminar p
  | .terminarProceso => terminar p
  | .wait recurso =>
      if k.recursos.valor recurso = none then rechazar p
      else [.hacer (.recursoDecrementar recurso p)]
  | .signal recurso =>
      if k.recursos.valor recurso = none then rechazar p
      else .hacer (.recursoIncrementar recurso) ::
        reanudar { p with recursosTomados := p.recursosTomados.erase recurso }

/-- `atender_io`, once the answer is read. -/
def atenderIo (nombre : String) (pet : PeticionIo) : RespuestaIo → Codigo
  | .errorIo => [.hacer (.errorIo pet.pid)]
  | .ioOcupada => [.hacer (.ioOcupada nombre pet)]
  | .finIo => desbloquearProceso pet.pid ++ [.hacer (.siguienteIo nombre)]

/-- What `planificadorCortoPlazo` does between a dispatch and its next pass. -/
def trasDespachar (k : Nucleo) (quantum : ℤ) : Codigo :=
  match k.config.algoritmo with
  | .rr => [semPost .begginQuantum, .avisar .planificacion]
  | .vrr => [.avisar .planificacion, .hacer (.contadorQuantumVrr quantum)]
  | _ => [.avisar .planificacion]

/-- A pass of `planificadorCortoPlazo`. -/
def cicloCorto : Codigo :=
  [semWait .cpuFreeToExecute, semWait .processInReady, .esperar .planificacion, .hacer .pasada]

/-- A turn of the inner loop of `mover_a_ready`, up to where it compares. -/
def probarGrado : Codigo := [semWait .grado, .hacer .comparar]

/-- A turn of `mover_a_ready`. -/
def cicloLargo : Codigo :=
  semWait .procesoSeCreoEnMemoria :: (probarGrado ++
    [.esperar .largo, .hacer .admitir, .avisar .largo])

def iniciarPlanificacion (k : Nucleo) : Codigo :=
  if k.pausar then [] else [.avisar .planificacion, .avisar .largo, .hacer (.pausar true)]

def detenerPlanificacion (k : Nucleo) : Codigo :=
  if k.pausar then [.esperar .planificacion, .esperar .largo, .hacer (.pausar false)] else []

/-! ### What a step does -/

/-- How many processes the degree of multiprogramming counts. -/
def tamanioMultiprogramacion (k : Nucleo) : ℕ :=
  (k.listas .ready).length + (k.listas .running).length + (k.listas .blocked).length
    + (k.listas .auxiliar).length

/-- `recurso_incrementar` finds the process it wakes in BLOCKED. -/
def hayBloqueado (k : Nucleo) (pid : ℕ) : Prop := ∃ p ∈ k.listas .blocked, p.pid = pid

instance (k : Nucleo) (pid : ℕ) : Decidable (hayBloqueado k pid) :=
  inferInstanceAs (Decidable (∃ p ∈ k.listas .blocked, p.pid = pid))

/-- The state after a step at the time `ahora`, and the code that comes before the rest. -/
def ejecutar (k : Nucleo) (ahora : ℤ) : Accion → Except Corte (Nucleo × Codigo)
  | .semWait c =>
      if 0 < valor k c then .ok (conValor k c (valor k c - 1), []) else .error .espera
  | .semPost c => .ok (conValor k c (valor k c + 1), [])
  | .pausar b => .ok ({ k with pausar := b }, [])
  | .crearPcb =>
      .ok ({ k with
          ultimoPid := k.ultimoPid + 1
          estadosProcesos := k.estadosProcesos ++ [.new]
          memoria := k.memoria ++ [.nuevoProceso k.ultimoPid] },
        [.hacer (.copiarMListNew { pid := k.ultimoPid })])
  | .copiarMListNew p =>
      -- `agregar_a_lista_con_semaforos` locks a copy; nobody unlocks one that is locked
      if k.mListNew then .error .espera else .ok (k, [.hacer (.agregarANew p)])
  | .agregarANew p => .ok ({ k with listas := Familia.agregar k.listas .new p }, [])
  | .sinEjecutar => .ok ({ k with pidEjecutando := 0 }, [])
  | .actualizarEstadoPcb p state l => .ok (k.actualizarEstadoPcb p state l, [])
  | .bloquear p esIo => do
      let r ← obtenido (sacar p.pid (k.listas .running))
      let p :=
        if esIo ∧ k.config.algoritmo = .vrr then
          { p with quantum := p.quantum - (ahora - p.tiempoInicial) }
        else p
      .ok (k.conLista .running r.2, [.hacer (.actualizarEstadoPcb p .blocked .blocked)])
  | .desbloquear pid => do
      let r ← obtenido (sacar pid (k.listas .blocked))
      let p := r.1
      if k.config.algoritmo = .vrr ∧ p.quantum < k.config.quantum ∧ 0 < p.quantum then
        .ok (k.conLista .blocked r.2, [.hacer (.actualizarEstadoPcb p .readyAux .auxiliar)])
      else .ok (k.conLista .blocked r.2, [.hacer (.actualizarEstadoPcb p .ready .ready)])
  | .pasada =>
      match k.config.algoritmo with
      | .fifo =>
          if k.listas .ready = [] then .ok (k, [.avisar .planificacion])
          else .ok (k, [.hacer (.despachar .ready)])
      | .rr => .ok (k, [semWait .interruptionQuantum, .hacer (.despachar .ready)])
      | .vrr =>
          if k.listas .auxiliar ≠ [] then .ok (k, [.hacer (.despachar .auxiliar)])
          else if k.listas .ready ≠ [] then .ok (k, [.hacer (.despachar .ready)])
          else .ok (k, [.avisar .planificacion])
      | .otro => .ok (k, [.avisar .planificacion])
  | .despachar l => do
      let r ← obtenido (Coleccion.remover (k.listas l) 0)
      let p :=
        if k.config.algoritmo = .vrr ∧ l = .ready then
          { r.1 with quantum := k.config.quantum }
        else r.1
      .ok (k.conLista l r.2,
        [.hacer (.actualizarEstadoPcb p .exec .running),
          .hacer (.enviarSiguientePcb { p with estado := .exec } true)] ++
          trasDespachar k p.quantum)
  | .enviarSiguientePcb p vieneDePlanificacion =>
      if vieneDePlanificacion ∧ k.config.algoritmo = .vrr then
        let marcar := fun q : Pcb => { q with tiempoInicial := ahora }
        .ok ((k.conLista .running (Coleccion.alterar (fun q => q.pid == p.pid) marcar
          (k.listas .running))).enviarSiguientePcb (marcar p), [])
      else .ok (k.enviarSiguientePcb p, [])
  | .contadorQuantumVrr quantum =>
      .ok (k, [.hacer (.turnoQuantumVrr k.pidEjecutando ahora quantum)])
  | .turnoQuantumVrr pidInicial tiempoInicial quantum => do
      let estadoActual ← obtenido (Coleccion.obtener k.estadosProcesos (pidInicial - 1))
      if estadoActual = .blocked ∨ estadoActual = .exitt ∨ k.pidEjecutando = 0 then .ok (k, [])
      else if quantum ≤ ahora - tiempoInicial then
        if pidInicial = k.pidEjecutando then .ok (k.interrumpirProceso k.pidEjecutando, [])
        else .ok (k, [])
      else .ok (k, [.hacer (.turnoQuantumVrr pidInicial tiempoInicial quantum)])
  | .recursoIncrementar recurso =>
      match k.recursos.valor recurso with
      | none => .ok (k, [])
      | some r =>
          .ok (k.ponerRecurso recurso { r with instancias := r.instancias + 1 },
            if r.instancias + 1 ≤ 0 then [.hacer (.recursoObtenerBloqueado recurso)] else [])
  | .recursoObtenerBloqueado recurso => do
      let r ← obtenido (k.recursos.valor recurso)
      -- on an empty queue the pid is left unwritten
      match r.bloqueados with
      | [] => .error .indefinido
      | pid :: cola =>
          .ok (k.ponerRecurso recurso { r with bloqueados := cola },
            [.hacer (.otorgar recurso pid)])
  | .otorgar recurso pid =>
      if hayBloqueado k pid then
        .ok (k.conLista .blocked (Coleccion.alterar (fun p => p.pid == pid)
          (Kernel.Pcb.otorgar recurso) (k.listas .blocked)), desbloquearProceso pid)
      else .ok (k, [])
  | .recursoDecrementar recurso p =>
      match k.recursos.valor recurso with
      | none => .ok (k, [])
      | some r =>
          .ok (k.ponerRecurso recurso { r with instancias := r.instancias - 1 },
            if r.instancias - 1 < 0 then
              bloquearProceso p false ++
                [.hacer (.recursoAgregarBloqueado recurso p.pid), semPost .cpuFreeToExecute]
            else reanudar { p with recursosTomados := p.recursosTomados ++ [recurso] })
  | .recursoAgregarBloqueado recurso pid =>
      match k.recursos.valor recurso with
      | none => .ok (k, [])
      | some r =>
          let esperar := fun p : Pcb => { p with recursoEsperando := some recurso }
          .ok ((k.ponerRecurso recurso { r with bloqueados := r.bloqueados ++ [pid] }).conLista
            .blocked (Coleccion.alterar (fun p => p.pid == pid) esperar (k.listas .blocked)), [])
  | .liberarTomados [] => .ok (k, [])
  | .liberarTomados (recursoTomado :: tomados) => do
      let r ← obtenido (k.recursos.valor recursoTomado)
      .ok (k, [.hacer (.recursoIncrementar r.id), .hacer (.liberarTomados tomados)])
  | .soltarEsperado p =>
      match p.recursoEsperando with
      | none => .ok (k, [])
      | some recurso => .ok (Kernel.recursoModificarInstancias2 k recurso p.pid, [])
  | .hayarPcb [] pid =>
      if k.pidEjecutando = pid then .ok (k.enviarInterrupcionCpu pid, [.avisar .largo])
      else .ok (k, [.avisar .largo])
  | .hayarPcb (l :: ls) pid =>
      if l = .new ∧ k.mListNew then .error .espera
      else
        match sacar pid (k.listas l) with
        | some (p, resto) =>
            .ok (k.conLista l resto, [.avisar .largo, .hacer (.eliminarProceso p)])
        | none => .ok (k, [.hacer (.hayarPcb ls pid)])
  | .eliminarProceso p =>
      if Kernel.procesoEnRunning k p then .ok (k.enviarInterrupcionCpu p.pid, [])
      else .ok (k, eliminarAfuera p)
  | .aMemoria m => .ok ({ k with memoria := k.memoria ++ [m] }, [])
  | .mensajeCpu p m => .ok (k, atenderCpuDispatch k p m)
  | .expulsar p => do
      let r ← obtenido (Coleccion.remover (k.listas .running) 0)
      .ok (k.conLista .running r.2, [.hacer (.eliminarProceso p)])
  | .dejarRunning p state l => do
      let r ← obtenido (Coleccion.remover (k.listas .running) 0)
      .ok (k.conLista .running r.2, [.hacer (.actualizarEstadoPcb p state l)])
  | .reemplazar p => do
      let r ← obtenido (Coleccion.remover (k.listas .running) 0)
      .ok (k.conLista .running (r.2 ++ [p]), [])
  | .enviarAInterfaz nombre pet => do
      let i ← obtenido (k.interfaces.valor nombre)
      .ok (k.enviarAInterfaz nombre i pet, [])
  | .errorIo pid => do
      let r ← obtenido (sacar pid (k.listas .blocked))
      .ok (k.conLista .blocked r.2, [.hacer (.eliminarProceso r.1)])
  | .ioOcupada nombre pet => do
      let k ← Kernel.ioOcupada k nombre pet
      .ok (k, [])
  | .siguienteIo nombre => do
      let i ← obtenido (k.interfaces.valor nombre)
      match i.listaBloqueados with
      | [] => .ok (k, [])
      | ioPcb :: cola =>
          let i := { i with listaBloqueados := cola }
          match Kernel.reenvio i.tipoInterfaz ioPcb.operacion with
          | none => .ok ({ k with interfaces := k.interfaces.poner nombre i }, [])
          | some operacion => do
              let pid ← obtenido ioPcb.pcb
              .ok (k.enviarAInterfaz nombre i ⟨pid, operacion⟩, [])
  | .comparar =>
      -- the token is not given back
      if k.config.gradoMultiprogramacion ≤ tamanioMultiprogramacion k then .ok (k, probarGrado)
      else .ok (k, [])
  | .admitir =>
      if k.mListNew then .error .espera
      else
        match k.listas .new with
        | [] => .ok ({ k with mListNew := true }, [])
        | p :: new =>
            .ok (k.conLista .new new,
              [.hacer (.actualizarEstadoPcb p .ready .ready), semPost .processInReady])

/-! ### The threads -/

/-- The threads of the kernel: the console, the one of the dispatch socket, the short-term
scheduler, `mover_a_ready`, one for each interface, and those of the FINALIZAR_PROCESO commands. -/
inductive Hebra
  | consola
  | dispatch
  | corto
  | largo
  | io (nombre : String)
  | orden (n : ℕ)
  deriving DecidableEq, Repr

abbrev Reparto : Type := Cerrojos.Reparto Hebra Cerrojo Accion

/-- The kernel, what is left of the code of its threads, and who took each semaphore of a pause.
They are down when the kernel starts, and the console is the one that raises them. -/
structure Estado where
  nucleo : Nucleo
  reparto : Reparto := { codigo := fun _ => [], dueno := fun _ => some .consola }

namespace Estado

def codigo (s : Estado) (h : Hebra) : Codigo := s.reparto.codigo h

def dueno (s : Estado) (c : Cerrojo) : Option Hebra := s.reparto.dueno c

end Estado

/-- The code with which a thread starts to handle an event, and the state without the message that
it read. -/
def arrancar (k : Nucleo) : Hebra → Evento → Option (Nucleo × Codigo)
  | .consola, .iniciarProceso => some (k, [.hacer .crearPcb])
  | .consola, .iniciarPlanificacion => some (k, iniciarPlanificacion k)
  | .consola, .detenerPlanificacion => some (k, detenerPlanificacion k)
  | .orden _, .finalizarProceso pid => some (k, finalizarProceso pid)
  | .dispatch, .cpu p m _ => some ({ k with enCpu := none }, [.hacer (.mensajeCpu p m)])
  | .io n, .interfaz nombre pet r =>
      if n = nombre then
        (k.interfaces.valor nombre).map fun i =>
          let i := { i with enviadas := i.enviadas.erase pet }
          ({ k with interfaces := k.interfaces.poner nombre i }, atenderIo nombre pet r)
      else none
  | .corto, .corto _ => some (k, cicloCorto)
  | .largo, .largo => some (k, cicloLargo)
  | _, _ => none

/-- The events that are handled in one step: those that use neither semaphore of a pause nor the
lists. -/
def Directo : Evento → Prop
  | .multiprogramacion _ | .conexionIo _ _ | .memoria _ | .reloj => True
  | _ => False

instance : DecidablePred Directo
  | .multiprogramacion _ | .conexionIo _ _ | .memoria _ | .reloj => .isTrue trivial
  | .iniciarProceso | .finalizarProceso _ | .iniciarPlanificacion | .detenerPlanificacion
  | .cpu _ _ _ | .interfaz _ _ _ | .corto _ | .largo => .isFalse id

/-- The thread of a command that the console leaves to another one. -/
def Hebra.EsOrden : Hebra → Prop
  | .orden _ => True
  | _ => False

instance : DecidablePred Hebra.EsOrden
  | .orden _ => .isTrue trivial
  | .consola | .dispatch | .corto | .largo | .io _ => .isFalse id

/-- A thread that has nothing to do may start; the console is there to type a command. -/
def puedeArrancar (s : Estado) (h : Hebra) : Prop :=
  s.codigo h = [] ∧ (h.EsOrden → s.codigo .consola = [])

instance (s : Estado) (h : Hebra) : Decidable (puedeArrancar s h) :=
  inferInstanceAs (Decidable (_ ∧ (_ → _)))

/-! ### The system -/

/-- A thread reads a message or a command, an event that is handled in one step, and the next
instruction of a thread. -/
inductive Suceso
  | llega (h : Hebra) (e : Evento)
  | directo (e : Evento)
  | avanza (h : Hebra) (ahora : ℤ)
  deriving DecidableEq, Repr

/-- The thread that takes a step. -/
def Suceso.hebra : Suceso → Option Hebra
  | .llega h _ | .avanza h _ => some h
  | .directo _ => none

def avanzar (s : Estado) : Suceso → Option Estado
  | .llega h e =>
      if puedeArrancar s h ∧ Kernel.admite s.nucleo e then
        (arrancar s.nucleo h e).map fun r =>
          { nucleo := r.1, reparto := s.reparto.seguir h r.2 }
      else none
  | .directo e =>
      if Directo e ∧ Kernel.admite s.nucleo e then
        (Kernel.manejar s.nucleo e).toOption.map fun k => { s with nucleo := k }
      else none
  | .avanza h ahora =>
      match s.codigo h with
      | [] => none
      | .esperar c :: r =>
          if 0 < cuenta s.nucleo c then
            some
              { nucleo := conCuenta s.nucleo c (cuenta s.nucleo c - 1)
                reparto := s.reparto.tomar h c r }
          else none
      | .avisar c :: r =>
          some
            { nucleo := conCuenta s.nucleo c (cuenta s.nucleo c + 1)
              reparto := s.reparto.soltar h c r }
      | .hacer o :: r =>
          (ejecutar s.nucleo ahora o).toOption.map fun x =>
            { nucleo := x.1, reparto := s.reparto.seguir h (x.2 ++ r) }

def sistema : Transicion.Sistema Estado Suceso where
  inicial s := ∃ config, s = { nucleo := Kernel.iniciar config }
  paso s a s' := avanzar s a = some s'

/-- The steps that are taken, one by one. -/
inductive Paso (s : Estado) : Suceso → Estado → Prop
  | llega {h : Hebra} {e : Evento} {k : Nucleo} {r : Codigo} (hp : puedeArrancar s h)
      (ha : Kernel.admite s.nucleo e) (hr : arrancar s.nucleo h e = some (k, r)) :
      Paso s (.llega h e) { nucleo := k, reparto := s.reparto.seguir h r }
  | directo {e : Evento} {k : Nucleo} (he : Directo e) (ha : Kernel.admite s.nucleo e)
      (hm : Kernel.manejar s.nucleo e = .ok k) : Paso s (.directo e) { s with nucleo := k }
  | esperar {h : Hebra} {ahora : ℤ} {c : Cerrojo} {r : Codigo} (hh : s.codigo h = .esperar c :: r)
      (hc : 0 < cuenta s.nucleo c) :
      Paso s (.avanza h ahora)
        { nucleo := conCuenta s.nucleo c (cuenta s.nucleo c - 1)
          reparto := s.reparto.tomar h c r }
  | avisar {h : Hebra} {ahora : ℤ} {c : Cerrojo} {r : Codigo} (hh : s.codigo h = .avisar c :: r) :
      Paso s (.avanza h ahora)
        { nucleo := conCuenta s.nucleo c (cuenta s.nucleo c + 1)
          reparto := s.reparto.soltar h c r }
  | hacer {h : Hebra} {ahora : ℤ} {o : Accion} {r e : Codigo} {k : Nucleo}
      (hh : s.codigo h = .hacer o :: r) (ho : ejecutar s.nucleo ahora o = .ok (k, e)) :
      Paso s (.avanza h ahora) { nucleo := k, reparto := s.reparto.seguir h (e ++ r) }

theorem paso_of_avanzar {s s' : Estado} {a : Suceso} (h : avanzar s a = some s') : Paso s a s' := by
  cases a with
  | llega h e =>
      simp only [avanzar] at h
      split at h
      · rename_i hp
        obtain ⟨r, hr, rfl⟩ := Option.map_eq_some_iff.1 h
        exact .llega hp.1 hp.2 hr
      · cases h
  | directo e =>
      simp only [avanzar] at h
      split at h
      · rename_i he
        obtain ⟨k, hk, rfl⟩ := Option.map_eq_some_iff.1 h
        exact .directo he.1 he.2 (Resultado.eq_ok_of_toOption hk)
      · cases h
  | avanza h ahora =>
      simp only [avanzar] at h
      split at h
      · cases h
      · rename_i hh
        split at h
        · rename_i hc
          cases h
          exact .esperar hh hc
        · cases h
      · rename_i hh
        cases h
        exact .avisar hh
      · rename_i hh
        obtain ⟨x, hx, rfl⟩ := Option.map_eq_some_iff.1 h
        exact .hacer hh (Resultado.eq_ok_of_toOption hx)

/-- The state after a step that meets a condition, for runs that are computed. -/
def intentar (C : Estado → Suceso → Prop) [∀ s a, Decidable (C s a)] (s : Estado) (a : Suceso) :
    Option Estado :=
  if C s a then avanzar s a else none

theorem paso_of_intentar {C : Estado → Suceso → Prop} [∀ s a, Decidable (C s a)] {s s' : Estado}
    {a : Suceso} (h : intentar C s a = some s') : C s a ∧ sistema.paso s a s' := by
  unfold intentar at h
  split at h
  · rename_i hC
    exact ⟨hC, h⟩
  · cases h

/-- A thread reads a message or a command, and takes so many steps. -/
def atiende (h : Hebra) (e : Evento) (n : ℕ) : List Suceso :=
  .llega h e :: List.replicate n (.avanza h 0)

/-- The state in which a list of steps ends. -/
def correr (C : Estado → Suceso → Prop) [∀ s a, Decidable (C s a)] (config : Kernel.Config)
    (as : List Suceso)
    (h : (Transicion.ejecutar (intentar C) { nucleo := Kernel.iniciar config } as).isSome = true) :
    Estado :=
  Transicion.estadoTras (intentar C) { nucleo := Kernel.iniciar config } as h

theorem alcanzable_correr {C : Estado → Suceso → Prop} [∀ s a, Decidable (C s a)]
    {config : Kernel.Config} {as : List Suceso}
    (h : (Transicion.ejecutar (intentar C) { nucleo := Kernel.iniciar config } as).isSome = true) :
    Transicion.AlcanzableCon sistema C (correr C config as h) :=
  Transicion.alcanzableCon_estadoTras (fun _ _ _ => paso_of_intentar) ⟨config, rfl⟩ h

def conRaYRb : Kernel.Config := ⟨.fifo, 10, 3, [("RA", 1), ("RB", 0)]⟩

/-- Two processes are created and reach READY. -/
def dosEnReady : List Suceso :=
  atiende .consola .iniciarPlanificacion 3 ++ atiende .consola .iniciarProceso 3 ++
    atiende .consola .iniciarProceso 3 ++
    [.directo (.memoria (.nuevoProceso 1)), .directo (.memoria (.nuevoProceso 2))] ++
    atiende .largo .largo 8 ++ atiende .largo .largo 8

end KernelHebras
