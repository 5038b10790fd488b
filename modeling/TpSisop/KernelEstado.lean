/-
**The kernel: processes, queues, semaphores, resources and interfaces.**

The kernel keeps the PCB of every process in exactly one of six lists, which its threads edit under
mutexes, and counts work for its threads with semaphores.  This module gives the state of the whole
kernel as one record.  The sockets are logs of what was sent on them; the logs of the loggers, the
bytes of the messages and the mutexes are left out, but for `m_list_NEW`, which `mover_a_ready` may
leave locked.

The names of resources and interfaces are bytes, from the configuration and from the sockets.  Here
they are strings with one character for each byte (`Ensamblador.aString`), so that the length of a
name is what `strlen` answers and its first ten characters are its first ten bytes, whatever the
bytes stand for in UTF-8.

Main definitions:

* `Kernel.Corte`, `Kernel.exigir`, `Kernel.obtenido` — how a handler may stop short;
* `Kernel.Pcb`, `Kernel.Recurso`, `Kernel.Interfaz` — the records of the kernel;
* `Kernel.Nucleo` — the state of the kernel, and `Kernel.iniciar`, the one `main` builds;
* `Kernel.sacar`, `Kernel.veces` — the search for a process in a list, and how many PCBs of a
  process the lists hold.

Main results:

* `Kernel.sacar_eq_some`, `Kernel.sacar_eq_none` — what the search finds;
* `Kernel.veces_eq_zero`, `Kernel.veces_mover` — a process that is in no list, and one that moves.
-/

import TpSisop.Transiciones
import TpSisop.Resultados
import TpSisop.Colecciones
import TpSisop.Familias
import TpSisop.CpuRegistros

set_option relaxedAutoImplicit false
set_option autoImplicit false

namespace Kernel

open Coleccion (Diccionario)
open Resultado (Cumple)

/-! ### Results of a handler -/

/-- Why a handler does not reach its end: it waits at a semaphore, it uses a null pointer, or it
uses a variable nobody has written. -/
inductive Corte
  | espera
  | nulo
  | indefinido
  deriving DecidableEq, Repr

/-- Goes on if `b` holds. -/
def exigir (b : Prop) [Decidable b] (c : Corte) : Except Corte Unit :=
  if b then .ok () else .error c

/-- Uses a pointer. -/
def obtenido {α : Type} : Option α → Except Corte α
  | some a => .ok a
  | none => .error .nulo

section

variable {α : Type} {falla : Corte → Prop}

@[simp] theorem exigir_eq_ok {b : Prop} [Decidable b] {c : Corte} {u : Unit} :
    exigir b c = .ok u ↔ b := by
  unfold exigir
  split <;> simp_all

/-- What goes on has met the condition. -/
theorem exigir_bind_eq_ok {b : Prop} [Decidable b] {c : Corte} {f : Unit → Except Corte α} {a : α} :
    (exigir b c >>= f) = .ok a ↔ b ∧ f () = .ok a := by
  rw [Resultado.bind_eq_ok]
  constructor
  · rintro ⟨⟨⟩, hb, h⟩
    exact ⟨exigir_eq_ok.1 hb, h⟩
  · rintro ⟨hb, h⟩
    exact ⟨(), exigir_eq_ok.2 hb, h⟩

@[simp] theorem obtenido_eq_ok {o : Option α} {a : α} : obtenido o = .ok a ↔ o = some a := by
  cases o <;> simp [obtenido]

theorem exigir_cumple {b : Prop} [Decidable b] {c : Corte} (hc : ¬falla c) :
    Cumple falla (fun _ => b) (exigir b c) := by
  unfold exigir
  split
  · assumption
  · exact hc

theorem obtenido_cumple {o : Option α} (h : falla .nulo → o ≠ none) :
    Cumple falla (fun a => o = some a) (obtenido o) := by
  cases o with
  | none => exact fun hc => h hc rfl
  | some a => rfl

end

/-! ### Processes -/

/-- `estado_code`. -/
inductive EstadoCode
  | new
  | ready
  | exec
  | blocked
  | exitt
  | error
  | readyAux
  deriving DecidableEq, Repr

/-- `t_pcb`, less its mutex. -/
structure Pcb where
  pid : ℕ
  pc : ℕ := 0
  quantum : ℤ := 0
  registros : Cpu.Registros := {}
  recursosTomados : List String := []
  recursoEsperando : Option String := none
  estado : EstadoCode := .new
  tiempoInicial : ℤ := 0
  deriving DecidableEq, Repr

/-- Where a process is in its program, and what its registers hold. -/
structure Contexto where
  pc : ℕ := 0
  registros : Cpu.Registros := {}
  deriving DecidableEq, Repr

def Pcb.contexto (p : Pcb) : Contexto := ⟨p.pc, p.registros⟩

/-- The lists of the planner, `lista_new` to `lista_exit`. -/
inductive Lista
  | new
  | ready
  | auxiliar
  | blocked
  | running
  | exit
  deriving DecidableEq, Repr

/-- All the lists. -/
def Lista.todas : List Lista := [.new, .ready, .auxiliar, .blocked, .running, .exit]

/-- The lists of the processes that are alive. -/
def Lista.vivas : List Lista := [.new, .ready, .auxiliar, .blocked, .running]

/-- The lists the short-term scheduler takes its processes from. -/
def Lista.listos : List Lista := [.ready, .auxiliar]

theorem Lista.todas_nodup : Lista.todas.Nodup := by decide

theorem Lista.vivas_nodup : Lista.vivas.Nodup := by decide

theorem Lista.listos_nodup : Lista.listos.Nodup := by decide

@[simp] theorem Lista.mem_todas (l : Lista) : l ∈ Lista.todas := by
  cases l <;> decide

@[simp] theorem Lista.mem_vivas (l : Lista) : l ∈ Lista.vivas ↔ l ≠ .exit := by
  cases l <;> decide

@[simp] theorem Lista.mem_listos (l : Lista) : l ∈ Lista.listos ↔ l = .ready ∨ l = .auxiliar := by
  cases l <;> decide

/-! ### Resources and interfaces -/

/-- `ID_RECURSO_LONG_MAX`. -/
def idRecursoLongMax : ℕ := 10

/-- `t_recurso`; `id` holds the first bytes of the name it is known by. -/
structure Recurso where
  id : String
  instancias : ℤ
  bloqueados : List ℕ := []
  deriving DecidableEq, Repr

/-- The operations a process asks an interface for. -/
inductive OperacionIo
  | genSleep
  | stdinRead
  | stdoutWrite
  | fsCreate
  | fsDelete
  | fsTruncate
  | fsWrite
  | fsRead
  deriving DecidableEq, Repr

/-- The type of the interfaces that support an operation. -/
def OperacionIo.tipoInterfaz : OperacionIo → ℕ
  | .genSleep => 1
  | .stdinRead => 2
  | .stdoutWrite => 3
  | _ => 4

/-- A request sent to an interface. -/
structure PeticionIo where
  pid : ℕ
  operacion : OperacionIo
  deriving DecidableEq, Repr

/-- `t_io_pcb`; `pcb` is the process found in BLOCKED, or `NULL`. -/
structure IoPcb where
  pcb : Option ℕ
  operacion : OperacionIo
  deriving DecidableEq, Repr

/-- `t_interfaz`; `enviadas` are the requests on its socket without an answer. -/
structure Interfaz where
  tipoInterfaz : ℕ
  listaBloqueados : List IoPcb := []
  enviadas : List PeticionIo := []
  deriving DecidableEq, Repr

/-! ### The kernel -/

/-- `ALGORITMO_PLANIFICACION`: one of the three names the scheduler knows, or another one. -/
inductive Algoritmo
  | fifo
  | rr
  | vrr
  | otro
  deriving DecidableEq, Repr

/-- `t_config_kernel`, less its addresses; a resource with its number of instances. -/
structure Config where
  algoritmo : Algoritmo
  quantum : ℤ
  gradoMultiprogramacion : ℤ
  recursos : List (String × ℤ)
  deriving DecidableEq, Repr

structure Semaforos where
  gradoMultiprogramacion : ℕ
  processInReady : ℕ
  cpuFreeToExecute : ℕ
  begginQuantum : ℕ
  interruptionQuantum : ℕ
  planificacion : ℕ
  planificacionLargo : ℕ
  procesoSeCreoEnMemoria : ℕ
  deriving DecidableEq, Repr

/-- Where the thread of the short-term scheduler is: at one of its four `sem_wait`, or counting the
quantum of a process (VRR). -/
inductive FaseCorto
  | esperaCpu
  | esperaReady
  | esperaPlanificacion
  | esperaQuantum
  | cuenta (pidInicial : ℕ) (tiempoInicial quantum : ℤ)
  deriving DecidableEq, Repr

/-- Where the thread that counts the quantum under RR is. -/
inductive FaseReloj
  | espera
  | cuenta (pidInicial : ℕ)
  deriving DecidableEq, Repr

/-- At which `sem_wait` the thread of `mover_a_ready` is. -/
inductive FaseLargo
  | esperaCreacion
  | esperaGrado
  | esperaPlanificacion
  deriving DecidableEq, Repr

/-- `motivo_desalojo` of an interruption. -/
inductive Motivo
  | interrupcion
  | terminarProceso
  deriving DecidableEq, Repr

/-- A message on the interrupt socket: `INT_PROCESO` or `FINALIZAR_PROCESO_CPU`. -/
structure Interrupcion where
  pid : ℕ
  motivo : Motivo
  deriving DecidableEq, Repr

/-- The messages to memory. -/
inductive AMemoria
  | nuevoProceso (pid : ℕ)
  | finalizarProceso (pid : ℕ)
  deriving DecidableEq, Repr

/-- The state of the kernel.  `enCpu` is the PCB sent to the CPU and not yet given back; `dispatch`,
`interrupt` and `memoria` are what was sent on each socket, and `respondidas` is how many of the
messages to memory were answered.  `mListNew` says that `m_list_NEW` was left locked: no branch of
the code unlocks it again. -/
structure Nucleo where
  config : Config
  listas : Lista → List Pcb := fun _ => []
  sem : Semaforos
  recursos : Diccionario Recurso
  interfaces : Diccionario Interfaz := .vacio
  estadosProcesos : List EstadoCode := []
  ultimoPid : ℕ := 1
  pidEjecutando : ℕ := 0
  pausar : Bool := false
  mListNew : Bool := false
  corto : FaseCorto := .esperaCpu
  reloj : FaseReloj := .espera
  largo : FaseLargo := .esperaCreacion
  enCpu : Option Pcb := none
  dispatch : List Pcb := []
  interrupt : List Interrupcion := []
  memoria : List AMemoria := []
  respondidas : ℕ := 0

/-- `init_semaphores`. -/
def initSemaphores (config : Config) : Semaforos where
  gradoMultiprogramacion := config.gradoMultiprogramacion.toNat
  processInReady := 0
  cpuFreeToExecute := 1
  begginQuantum := 0
  interruptionQuantum := if config.algoritmo = .rr ∨ config.algoritmo = .vrr then 1 else 0
  planificacion := 0
  planificacionLargo := 0
  procesoSeCreoEnMemoria := 0

/-- The `id` of a resource: `strncpy` of its name, which stops after ten bytes. -/
def idRecurso (nombre : String) : String := String.ofList (nombre.toList.take idRecursoLongMax)

/-- `recursos_init`. -/
def recursosInit (recursos : List (String × ℤ)) : Diccionario Recurso :=
  recursos.foldl (fun d r => d.poner r.1 { id := idRecurso r.1, instancias := r.2 }) .vacio

/-- The state `main` builds. -/
def iniciar (config : Config) : Nucleo where
  config := config
  sem := initSemaphores config
  recursos := recursosInit config.recursos

/-! ### Looking for a process -/

/-- `obtener_index` followed by `list_remove`. -/
def sacar (pid : ℕ) (l : List Pcb) : Option (Pcb × List Pcb) :=
  Coleccion.remover l (Coleccion.indice (fun p => p.pid == pid) l)

/-- What is found splits the list. -/
theorem sacar_eq_some {pid : ℕ} {l r : List Pcb} {p : Pcb} (h : sacar pid l = some (p, r)) :
    ∃ a b, l = a ++ p :: b ∧ p.pid = pid ∧ (∀ q ∈ a, q.pid ≠ pid) ∧ r = a ++ b := by
  obtain ⟨a, b, hl, hp, ha, hr⟩ := Coleccion.remover_indice_eq_some h
  exact ⟨a, b, hl, by simpa using hp, fun q hq => by simpa using ha q hq, hr⟩

theorem sacar_eq_none {pid : ℕ} {l : List Pcb} : sacar pid l = none ↔ ∀ p ∈ l, p.pid ≠ pid := by
  simp [sacar, Coleccion.remover_indice_eq_none]

theorem sacar_append {pid : ℕ} {a : List Pcb} (ha : ∀ q ∈ a, q.pid ≠ pid) {p : Pcb}
    (hp : p.pid = pid) (b : List Pcb) : sacar pid (a ++ p :: b) = some (p, a ++ b) :=
  Coleccion.remover_indice_append (fun q hq => by simpa using ha q hq) (by simpa using hp) b

/-- A process that is in a list splits it at its first PCB. -/
theorem exists_split {pid : ℕ} {l : List Pcb} (h : ∃ p ∈ l, p.pid = pid) :
    ∃ a p b, l = a ++ p :: b ∧ p.pid = pid ∧ ∀ q ∈ a, q.pid ≠ pid := by
  cases hs : sacar pid l with
  | none =>
      obtain ⟨p, hp, hpid⟩ := h
      exact absurd hpid (sacar_eq_none.1 hs p hp)
  | some r =>
      obtain ⟨a, b, hl, hp, ha, -⟩ := sacar_eq_some (p := r.1) (r := r.2) hs
      exact ⟨a, r.1, b, hl, hp, ha⟩

/-- How many PCBs of a process there are in the lists. -/
def veces (L : Lista → List Pcb) (pid : ℕ) : ℕ :=
  Familia.peso (fun p => if p.pid = pid then 1 else 0) Lista.todas L

/-- A process without a PCB is in no list. -/
theorem veces_eq_zero {L : Lista → List Pcb} {pid : ℕ} :
    veces L pid = 0 ↔ ∀ l, ∀ p ∈ L l, p.pid ≠ pid := by
  simp [veces, Familia.peso_eq_zero]

theorem one_le_veces {L : Lista → List Pcb} {l : Lista} {p : Pcb} (h : p ∈ L l) :
    1 ≤ veces L p.pid := by
  have := Familia.le_peso (f := fun q => if q.pid = p.pid then 1 else 0) (Lista.mem_todas l) h
  simpa [veces] using this

theorem veces_agregar (L : Lista → List Pcb) (l : Lista) (p : Pcb) (x : ℕ) :
    veces (Familia.agregar L l p) x = veces L x + if p.pid = x then 1 else 0 := by
  simp [veces, Familia.peso_agregar Lista.todas_nodup]

theorem veces_quitar {L : Lista → List Pcb} {l : Lista} {a b : List Pcb} {p : Pcb}
    (h : L l = a ++ p :: b) (x : ℕ) :
    veces (Function.update L l (a ++ b)) x + (if p.pid = x then 1 else 0) = veces L x := by
  simpa [veces] using
    Familia.peso_quitar (f := fun q => if q.pid = x then 1 else 0) Lista.todas_nodup h

/-- Without its PCB, a process that is at most once in the lists is in none. -/
theorem veces_quitar_eq_zero {L : Lista → List Pcb} {l : Lista} {a b : List Pcb} {p : Pcb}
    (hu : veces L p.pid ≤ 1) (h : L l = a ++ p :: b) :
    veces (Function.update L l (a ++ b)) p.pid = 0 := by
  have := veces_quitar h p.pid
  rw [if_pos rfl] at this
  omega

/-- A process that is at most once in the lists has one PCB. -/
theorem eq_of_pid {L : Lista → List Pcb} {l m : Lista} {p q : Pcb} (hu : veces L p.pid ≤ 1)
    (hp : p ∈ L l) (hq : q ∈ L m) (h : q.pid = p.pid) : m = l ∧ q = p := by
  obtain ⟨a, b, hl⟩ := List.append_of_mem hp
  have hcero := veces_eq_zero.1 (veces_quitar_eq_zero hu hl)
  by_cases hm : m = l
  · subst hm
    refine ⟨rfl, ?_⟩
    by_contra hne
    refine hcero m q ?_ h
    rw [hl] at hq
    simp only [List.mem_append, List.mem_cons] at hq
    simp only [Function.update_self, List.mem_append]
    tauto
  · exact absurd h (hcero m q (by rwa [Function.update_of_ne hm]))

/-- Processes that are at most once in the lists have different pids in each of them. -/
theorem nodup_pids {L : Lista → List Pcb} (hu : ∀ x, veces L x ≤ 1) (l : Lista) :
    ((L l).map Pcb.pid).Nodup := by
  refine List.nodup_iff_count_le_one.2 fun x => ?_
  have hcount : ∀ ps : List Pcb,
      (ps.map Pcb.pid).count x = (ps.map fun p => if p.pid = x then 1 else 0).sum := by
    intro ps
    induction ps with
    | nil => rfl
    | cons p ps ih => simp [List.count_cons, ih, add_comm]
  rw [hcount]
  exact (Familia.sum_le_peso (Lista.mem_todas l)).trans (hu x)

/-- A process that moves from one list to another is as often in the lists as before. -/
theorem veces_mover {L : Lista → List Pcb} {l m : Lista} {a b : List Pcb} {p p' : Pcb}
    (h : L l = a ++ p :: b) (hp : p'.pid = p.pid) (x : ℕ) :
    veces (Familia.agregar (Function.update L l (a ++ b)) m p') x = veces L x := by
  rw [veces_agregar, hp, veces_quitar h]

end Kernel
