/-
**Scripts at the console of the kernel.**

`EJECUTAR_SCRIPT` reads the lines of a file and executes them one by one, each as if it had been
typed, so that a script may execute other scripts.  While the thread of the console does so the
other threads of the kernel go on, and so do those it starts: FINALIZAR_PROCESO and
MULTIPROGRAMACION are carried out by threads of their own, when these come to it.

Main definitions:

* `Consola.Disco`, `Consola.abrir` — the files of the scripts, and the lines a line stands for;
* `Consola.procesarComando`, `Consola.sistema` — the console and the rest of the kernel;
* `Consola.incluye` — the lines of the script that a line names;
* `Consola.Script`, `Consola.Script.archivo` — the scripts that can be written, and their files.

Main results:

* `Consola.procesos_de_los_guiones` — the processes, and which program each one has, are told by the
  lines that were typed, whatever the other threads do;
* `Consola.guion_acaba_iff` — when a script has finitely many lines to execute;
* `Consola.guion_como_tecleado` — a script does what its commands do when they are typed.
-/

import TpSisop.Guiones
import TpSisop.Consola
import TpSisop.LectorArchivoRuta
import TpSisop.KernelFilas

set_option relaxedAutoImplicit false
set_option autoImplicit false

namespace Consola

open Ensamblador (bytes)
open LectorArchivo (Bytes Ruta SistemaDeArchivos Nombre ParteNombres ParteLineas Resoluble barra
  leerArchivo leerTexto rutaDe)

/-! ### Scripts -/

/-- The files, and the functions of the commons library they are read with. -/
structure Disco where
  archivos : SistemaDeArchivos
  contenido : Ruta → Bytes
  stringSplit : Bytes → List Bytes
  stringNSplit : Bytes → List Bytes

/-- `leer_archivo("", path)`. -/
def Disco.leer (d : Disco) (cwd : Ruta) (path : Bytes) : Option (Option (List Bytes) × Ruta) :=
  leerArchivo d.stringSplit d.stringNSplit d.archivos d.contenido cwd [] path

/-- The lines that a command stands for, and the working directory after it.  A script that cannot
be opened has none, and neither has any other command: whether that one waits for other threads is
not said here, but by `Comando.procesar`. -/
def Comando.abrir (d : Disco) (cwd : Ruta) : Comando → Option (Ruta × List Bytes)
  | .ejecutarScript path => (d.leer cwd path).map fun r => (r.2, r.1.getD [])
  | _ => some (cwd, [])

def abrir (d : Disco) (cwd : Ruta) (linea : Bytes) : Option (Ruta × List Bytes) :=
  (leerComando linea).abrir d cwd

/-! ### The console and the rest of the kernel -/

/-- The kernel, the working directory, the lines left of each script, the inner one first, the
threads that were started, and what memory was asked to load. -/
structure Estado where
  nucleo : Kernel.Nucleo
  cwd : Ruta
  pila : List (List Bytes) := []
  hilos : List Kernel.Evento := []
  pedidos : List (Bytes × ℕ) := []

/-- What is done for a command.  The lines of a script are left to be executed. -/
def Comando.procesar (d : Disco) (s : Estado) : Comando → Option Estado
  | .ejecutarScript path =>
      (d.leer s.cwd path).map fun r =>
        match r.1 with
        | none => { s with cwd := r.2 }
        | some instrucciones => { s with cwd := r.2, pila := instrucciones :: s.pila }
  | .iniciarProceso path =>
      (Kernel.crearProceso s.nucleo).toOption.map fun k =>
        { s with nucleo := k, pedidos := s.pedidos ++ [(path, s.nucleo.ultimoPid)] }
  | .finalizarProceso pid => some { s with hilos := s.hilos ++ [.finalizarProceso pid.toNat] }
  | .detenerPlanificacion =>
      (Kernel.detenerPlanificacion s.nucleo).toOption.map fun k => { s with nucleo := k }
  | .iniciarPlanificacion => some { s with nucleo := Kernel.iniciarPlanificacion s.nucleo }
  | .multiprogramacion valor => some { s with hilos := s.hilos ++ [.multiprogramacion valor] }
  | .procesoEstado | .noExiste => some s

/-- `procesar_comando`. -/
def procesarComando (d : Disco) (s : Estado) (linea : Bytes) : Option Estado :=
  (leerComando linea).procesar d s

inductive Evento
  | teclear (linea : Bytes)
  | instruccion
  | finDeScript
  | hilo (e : Kernel.Evento)
  | kernel (e : Kernel.Evento)

/-- What only the console and its threads do. -/
def deConsola : Kernel.Evento → Bool
  | .iniciarProceso | .finalizarProceso _ | .iniciarPlanificacion | .detenerPlanificacion
  | .multiprogramacion _ => true
  | _ => false

/-- A line is typed, the inner script goes on or ends, a thread of the console does its work, or
another thread of the kernel does.  A line is typed when no script is left, and after `exit` none
is. -/
def avanzar (d : Disco) (s : Estado) : Evento → Option Estado
  | .teclear linea =>
      if s.pila = [] ∧ linea ≠ bytes "exit" then procesarComando d s linea else none
  | .instruccion =>
      match s.pila with
      | (linea :: instrucciones) :: pila =>
          procesarComando d { s with pila := instrucciones :: pila } linea
      | _ => none
  | .finDeScript =>
      match s.pila with
      | [] :: pila => some { s with pila := pila }
      | _ => none
  | .hilo e =>
      if e ∈ s.hilos then
        (Kernel.manejar s.nucleo e).toOption.map fun k =>
          { s with nucleo := k, hilos := s.hilos.erase e }
      else none
  | .kernel e =>
      if deConsola e = false ∧ Kernel.admite s.nucleo e then
        (Kernel.manejar s.nucleo e).toOption.map fun k => { s with nucleo := k }
      else none

def sistema (d : Disco) (cwd : Ruta) : Transicion.Sistema Estado Evento where
  inicial s := ∃ config, s = { nucleo := Kernel.iniciar config, cwd := cwd }
  paso s e s' := avanzar d s e = some s'

/-! ### What a line does -/

def Evento.tecleada : Evento → Option Bytes
  | .teclear linea => some linea
  | _ => none

def Evento.corrido : Evento → Option Kernel.Evento
  | .hilo e => some e
  | _ => none

/-- The program that a process is asked for. -/
def Comando.programa : Comando → Option Bytes
  | .iniciarProceso path => some path
  | _ => none

/-- What is left to a thread. -/
def Comando.encargo : Comando → Option Kernel.Evento
  | .finalizarProceso pid => some (.finalizarProceso pid.toNat)
  | .multiprogramacion valor => some (.multiprogramacion valor)
  | _ => none

variable {d : Disco} {cwd : Ruta} {s s' : Estado} {linea : Bytes} {c : Comando}
  {k k' : Kernel.Nucleo}

/-- What a command does, apart from what it does to the planner. -/
structure Procesado (d : Disco) (s : Estado) (c : Comando) (s' : Estado) : Prop where
  abre : ∃ ys, c.abrir d s.cwd = some (s'.cwd, ys) ∧ s'.pila.flatten = ys ++ s.pila.flatten
  hilos : s'.hilos = s.hilos ++ c.encargo.toList
  pedidos : s'.pedidos = s.pedidos ++ c.programa.toList.map fun p => (p, s.nucleo.ultimoPid)
  nucleo : s'.nucleo = s.nucleo ∧ c.programa = none ∨
    ∃ e, Kernel.sistema.paso s.nucleo e s'.nucleo ∧ (e = .iniciarProceso ↔ c.programa ≠ none)

theorem procesado_of_procesar (h : c.procesar d s = some s') : Procesado d s c s' := by
  cases c with
  | ejecutarScript path =>
      obtain ⟨⟨instrucciones, cwd'⟩, hlee, rfl⟩ := Option.map_eq_some_iff.1 h
      have habre : (Comando.ejecutarScript path).abrir d s.cwd =
          some (cwd', instrucciones.getD []) := by
        rw [Comando.abrir, hlee, Option.map_some]
      cases instrucciones with
      | none => exact ⟨⟨[], habre, rfl⟩, by simp [Comando.encargo], by simp [Comando.programa],
          .inl ⟨rfl, rfl⟩⟩
      | some instrucciones =>
          exact ⟨⟨instrucciones, habre, rfl⟩, by simp [Comando.encargo], by simp [Comando.programa],
            .inl ⟨rfl, rfl⟩⟩
  | iniciarProceso path =>
      obtain ⟨k, hk, rfl⟩ := Option.map_eq_some_iff.1 h
      have hpaso : Kernel.sistema.paso s.nucleo .iniciarProceso k :=
        ⟨trivial, Resultado.eq_ok_of_toOption hk⟩
      exact ⟨⟨[], rfl, rfl⟩, by simp [Comando.encargo], rfl,
        .inr ⟨_, hpaso, by simp [Comando.programa]⟩⟩
  | detenerPlanificacion =>
      obtain ⟨k, hk, rfl⟩ := Option.map_eq_some_iff.1 h
      have hpaso : Kernel.sistema.paso s.nucleo .detenerPlanificacion k :=
        ⟨trivial, Resultado.eq_ok_of_toOption hk⟩
      exact ⟨⟨[], rfl, rfl⟩, by simp [Comando.encargo], by simp [Comando.programa],
        .inr ⟨_, hpaso, by simp [Comando.programa]⟩⟩
  | iniciarPlanificacion =>
      cases h
      have hpaso : Kernel.sistema.paso s.nucleo .iniciarPlanificacion
          (Kernel.iniciarPlanificacion s.nucleo) := ⟨trivial, rfl⟩
      exact ⟨⟨[], rfl, rfl⟩, by simp [Comando.encargo], by simp [Comando.programa],
        .inr ⟨_, hpaso, by simp [Comando.programa]⟩⟩
  | finalizarProceso _ | multiprogramacion _ | procesoEstado | noExiste =>
      cases h
      exact ⟨⟨[], rfl, rfl⟩, by simp [Comando.encargo], by simp [Comando.programa],
        .inl ⟨rfl, rfl⟩⟩

/-! ### The processes -/

/-- Only `INICIAR_PROCESO` creates a process. -/
theorem ultimoPid_paso {e : Kernel.Evento} (hB : Kernel.Base k.vista)
    (h : Kernel.sistema.paso k e k') :
    k'.ultimoPid = k.ultimoPid + if e = .iniciarProceso then 1 else 0 := by
  by_cases he : e = .iniciarProceso
  · subst he
    obtain ⟨-, rfl⟩ := Kernel.crearProceso_eq_ok.1 h.2
    rfl
  · rw [if_neg he]
    rcases (Kernel.manejar_movimiento hB.unica h.1 h.2).conservada hB.unica with hc | ⟨he', -⟩
    · exact hc.ultimoPid
    · exact absurd he' he

/-- The programs that memory was asked to load, and the threads that were started, are told by the
lines that were executed. -/
structure Segun (d : Disco) (cwd : Ruta) (es : List Evento) (vs : List Bytes) (s : Estado) :
    Prop where
  corre : Guion.Corre (abrir d) cwd (es.filterMap Evento.tecleada) vs (s.cwd, s.pila.flatten)
  pedidos : s.pedidos = ((vs.map leerComando).filterMap Comando.programa).zipIdx 1
  ultimoPid : s.nucleo.ultimoPid =
    ((vs.map leerComando).filterMap Comando.programa).length + 1
  hilos : (es.filterMap Evento.corrido ++ s.hilos).Perm
    ((vs.map leerComando).filterMap Comando.encargo)
  nucleo : Transicion.Alcanzable Kernel.sistema s.nucleo

variable {es : List Evento} {vs : List Bytes} {e : Evento}

theorem filterMap_concat {α β : Type} (f : α → Option β) (xs : List α) (x : α) :
    (xs ++ [x]).filterMap f = xs.filterMap f ++ (f x).toList := by
  cases h : f x <;> simp [h]

theorem Comando.encargo_admitido {f : Kernel.Evento} (h : c.encargo = some f) :
    Kernel.admite k f ∧ f ≠ .iniciarProceso := by
  cases c with
  | finalizarProceso pid =>
      cases h
      exact ⟨trivial, by simp⟩
  | multiprogramacion valor =>
      cases h
      exact ⟨trivial, by simp⟩
  | _ => cases h

theorem Segun.ultimoPid_otro (hs : Segun d cwd es vs s) {f : Kernel.Evento}
    (h : Kernel.sistema.paso s.nucleo f k) (hf : f ≠ .iniciarProceso) :
    k.ultimoPid = ((vs.map leerComando).filterMap Comando.programa).length + 1 := by
  rw [ultimoPid_paso (Kernel.base_alcanzable hs.nucleo) h, if_neg hf, hs.ultimoPid]

/-- A line is executed, typed or from a script. -/
theorem Segun.procesar (hs : Segun d cwd es vs s) (pila : List (List Bytes))
    (hcorre : Guion.Corre (abrir d) cwd ((es ++ [e]).filterMap Evento.tecleada) vs
      (s.cwd, linea :: pila.flatten))
    (he : e.corrido = none) (h : procesarComando d { s with pila := pila } linea = some s') :
    Segun d cwd (es ++ [e]) (vs ++ [linea]) s' := by
  have hp := procesado_of_procesar h
  obtain ⟨ys, habre, hpila⟩ := hp.abre
  have hprogramas : ((vs ++ [linea]).map leerComando).filterMap Comando.programa =
      (vs.map leerComando).filterMap Comando.programa ++ (leerComando linea).programa.toList := by
    rw [List.map_append, List.map_singleton, filterMap_concat]
  have hencargos : ((vs ++ [linea]).map leerComando).filterMap Comando.encargo =
      (vs.map leerComando).filterMap Comando.encargo ++ (leerComando linea).encargo.toList := by
    rw [List.map_append, List.map_singleton, filterMap_concat]
  refine ⟨?_, ?_, ?_, ?_, ?_⟩
  · exact hcorre.paso trivial ⟨pila.flatten, ys, rfl, habre, hpila⟩
  · rw [hp.pedidos, hprogramas, List.zipIdx_append, ← hs.pedidos]
    have hpid := hs.ultimoPid
    cases hl : (leerComando linea).programa with
    | none => simp
    | some p => simp [hpid, add_comm]
  · rw [hprogramas, List.length_append]
    -- the next pid counts the processes, and only INICIAR_PROCESO creates one
    rcases hp.nucleo with ⟨hk, hno⟩ | ⟨f, hpaso, hf⟩
    · rw [hk, hno]
      exact hs.ultimoPid
    · rw [ultimoPid_paso (Kernel.base_alcanzable hs.nucleo) hpaso]
      have hpid := hs.ultimoPid
      cases hl : (leerComando linea).programa with
      | none =>
          have hno : f ≠ .iniciarProceso := fun heq => (hf.1 heq) hl
          simp [hno, hpid]
      | some p =>
          have hsi : f = .iniciarProceso := hf.2 (by simp [hl])
          simp [hsi, hpid]
  · rw [filterMap_concat, he, Option.toList_none, List.append_nil, hp.hilos, hencargos,
      ← List.append_assoc]
    exact hs.hilos.append_right _
  · rcases hp.nucleo with ⟨hk, -⟩ | ⟨f, hpaso, -⟩
    · rw [hk]
      exact hs.nucleo
    · exact hs.nucleo.paso trivial hpaso

/-- Another thread takes a step, or a script ends. -/
theorem Segun.otro (hs : Segun d cwd es vs s) (pila : List (List Bytes)) (ht : e.tecleada = none)
    (he : e.corrido = none) (hpila : pila.flatten = s.pila.flatten)
    (hk : k.ultimoPid = s.nucleo.ultimoPid) (hal : Transicion.Alcanzable Kernel.sistema k) :
    Segun d cwd (es ++ [e]) vs { s with nucleo := k, pila := pila } := by
  refine ⟨?_, hs.pedidos, hk.trans hs.ultimoPid, ?_, hal⟩
  · rw [filterMap_concat, ht, Option.toList_none, List.append_nil, hpila]
    exact hs.corre
  · rw [filterMap_concat, he, Option.toList_none, List.append_nil]
    exact hs.hilos

/-- A thread does what it was left. -/
theorem Segun.hilo {f : Kernel.Evento} (hs : Segun d cwd es vs s) (hf : f ∈ s.hilos)
    (hk : Kernel.manejar s.nucleo f = .ok k) :
    Segun d cwd (es ++ [.hilo f]) vs { s with nucleo := k, hilos := s.hilos.erase f } := by
  obtain ⟨c, -, hc⟩ := List.mem_filterMap.1 (hs.hilos.subset (List.mem_append_right _ hf))
  obtain ⟨hadmite, hno⟩ := Comando.encargo_admitido (k := s.nucleo) hc
  have hpaso : Kernel.sistema.paso s.nucleo f k := ⟨hadmite, hk⟩
  refine ⟨?_, hs.pedidos, hs.ultimoPid_otro hpaso hno, ?_, hs.nucleo.paso trivial hpaso⟩
  · have htecleada : (Evento.hilo f).tecleada = none := rfl
    rw [filterMap_concat, htecleada, Option.toList_none, List.append_nil]
    exact hs.corre
  · have hcorrido : (Evento.hilo f).corrido = some f := rfl
    rw [filterMap_concat, hcorrido, Option.toList_some, List.append_assoc, List.singleton_append]
    exact ((List.perm_cons_erase hf).symm.append_left _).trans hs.hilos

theorem segun_corrida (h : Transicion.Corrida (sistema d cwd) (fun _ _ => True) es s) :
    ∃ vs, Segun d cwd es vs s := by
  induction h with
  | inicio hs =>
      obtain ⟨config, rfl⟩ := hs
      exact ⟨[], .inicio rfl, rfl, rfl, .refl _, .inicio ⟨config, rfl⟩⟩
  | @paso es s s' e _ _ hpaso ih =>
      obtain ⟨vs, hs⟩ := ih
      have hpaso : avanzar d s e = some s' := hpaso
      cases e with
      | teclear linea =>
          obtain ⟨⟨hpila, -⟩, hproc⟩ := Option.ite_none_right_eq_some.1 hpaso
          refine ⟨_, hs.procesar [] ?_ rfl (by rw [← hproc, ← hpila])⟩
          -- no line is left, so the one that is typed is the next one
          have hmas := hs.corre.append [linea]
          rw [hpila] at hmas
          rw [filterMap_concat]
          exact hmas
      | instruccion =>
          simp only [avanzar] at hpaso
          split at hpaso
          · rename_i linea instrucciones pila hpila
            refine ⟨_, hs.procesar _ ?_ rfl hpaso⟩
            have htecleada : Evento.instruccion.tecleada = none := rfl
            rw [filterMap_concat, htecleada, Option.toList_none, List.append_nil]
            have hmismas := hs.corre
            rw [hpila] at hmismas
            exact hmismas
          · cases hpaso
      | finDeScript =>
          simp only [avanzar] at hpaso
          split at hpaso
          · rename_i pila hpila
            cases hpaso
            exact ⟨vs, hs.otro (k := s.nucleo) pila rfl rfl (by rw [hpila, List.flatten_cons,
              List.nil_append]) rfl hs.nucleo⟩
          · cases hpaso
      | hilo f =>
          obtain ⟨hf, hmaneja⟩ := Option.ite_none_right_eq_some.1 hpaso
          obtain ⟨k, hk, rfl⟩ := Option.map_eq_some_iff.1 hmaneja
          exact ⟨vs, hs.hilo hf (Resultado.eq_ok_of_toOption hk)⟩
      | kernel f =>
          obtain ⟨⟨hf, hadmite⟩, hmaneja⟩ := Option.ite_none_right_eq_some.1 hpaso
          obtain ⟨k, hk, rfl⟩ := Option.map_eq_some_iff.1 hmaneja
          have hkernel : Kernel.sistema.paso s.nucleo f k :=
            ⟨hadmite, Resultado.eq_ok_of_toOption hk⟩
          have hno : f ≠ .iniciarProceso := by
            rintro rfl
            cases hf
          have hpid := (hs.ultimoPid_otro hkernel hno).trans hs.ultimoPid.symm
          exact ⟨vs, hs.otro s.pila rfl rfl rfl hpid (hs.nucleo.paso trivial hkernel)⟩

/-- The processes of the kernel are those that memory was asked to load a program for. -/
theorem mem_pids_iff {xs : List Bytes} (hB : Kernel.Base k.vista)
    (hpid : k.ultimoPid = xs.length + 1) (x : ℕ) :
    (∃ l, x ∈ Kernel.pids k.listas l) ↔ ∃ path, (path, x) ∈ xs.zipIdx 1 := by
  have hesta : (∃ l, x ∈ Kernel.pids k.listas l) ↔ Kernel.veces k.listas x ≠ 0 := by
    rw [Ne, Kernel.veces_eq_zero]
    simp [Kernel.mem_pids]
  have hpedido : (∃ path, (path, x) ∈ xs.zipIdx 1) ↔ 1 ≤ x ∧ x - 1 < xs.length := by
    simp only [List.mk_mem_zipIdx_iff_le_and_getElem?_sub]
    constructor
    · rintro ⟨path, hx, hpath⟩
      exact ⟨hx, (List.getElem?_eq_some_iff.1 hpath).1⟩
    · rintro ⟨hx, hlen⟩
      exact ⟨xs[x - 1], hx, List.getElem?_eq_getElem hlen⟩
  have hveces : Kernel.veces k.listas x = if 1 ≤ x ∧ x < xs.length + 1 then 1 else 0 := by
    rw [← hpid]
    exact hB.repartidos x
  rw [hesta, hpedido, hveces]
  split
  · omega
  · omega

/-- When the console is at its prompt again it has executed the lines that were typed, each script
in the place of the line that names it.  The processes of the kernel are those that these lines
start, with the pids in that order, and each FINALIZAR_PROCESO and MULTIPROGRAMACION was carried out
once, or its thread has not come to it yet.  What the other threads did makes no difference. -/
theorem procesos_de_los_guiones
    (h : Transicion.Corrida (sistema d cwd) (fun _ _ => True) es s) (hpila : s.pila = []) :
    ∃ vs, Guion.Acaba (abrir d) cwd (es.filterMap Evento.tecleada) vs s.cwd ∧
      s.pedidos = ((vs.map leerComando).filterMap Comando.programa).zipIdx 1 ∧
      (∀ x, (∃ l, x ∈ Kernel.pids s.nucleo.listas l) ↔ ∃ path, (path, x) ∈ s.pedidos) ∧
      (es.filterMap Evento.corrido ++ s.hilos).Perm
        ((vs.map leerComando).filterMap Comando.encargo) := by
  obtain ⟨vs, hs⟩ := segun_corrida h
  have hcorre := hs.corre
  rw [hpila] at hcorre
  refine ⟨vs, Guion.corrida_iff_acaba.1 hcorre, hs.pedidos, ?_, hs.hilos⟩
  intro x
  rw [hs.pedidos]
  exact mem_pids_iff (Kernel.base_alcanzable hs.nucleo) hs.ultimoPid x

/-! ### Three scripts -/

/-- The file `a` starts a process and executes `b`, which kills it and starts another one; `s`
executes itself. -/
def disco : Disco where
  archivos :=
    { directorio := fun r => r = []
      archivo := fun r => r ∈ [[[97]], [[98]], [[115]]]
      enDirectorio := by
        intro r n h
        simp only [decide_eq_true_eq, List.mem_cons, List.not_mem_nil, or_false] at h ⊢
        rcases h with h | h | h
        · exact List.append_inj_left' h rfl
        · exact List.append_inj_left' h rfl
        · exact List.append_inj_left' h rfl }
  contenido := fun r =>
    if r = [[97]] then bytes "INICIAR_PROCESO p\nEJECUTAR_SCRIPT b"
    else if r = [[98]] then bytes "FINALIZAR_PROCESO 1\nINICIAR_PROCESO q"
    else bytes "EJECUTAR_SCRIPT s"
  stringSplit := LectorArchivo.partirNombre
  stringNSplit := LectorArchivo.partirEnDos

/-- While the script runs, the first process reaches READY and is killed. -/
def anidados : List Evento :=
  [.teclear (bytes "INICIAR_PLANIFICACION"), .teclear (bytes "EJECUTAR_SCRIPT a"), .instruccion,
    .kernel (.memoria (.nuevoProceso 1)), .kernel .largo, .instruccion, .kernel .largo,
    .kernel .largo, .instruccion, .hilo (.finalizarProceso 1), .instruccion, .finDeScript,
    .finDeScript]

def alArrancar : Estado where
  nucleo := Kernel.iniciar ⟨.fifo, 10, 3, []⟩
  cwd := []

theorem anidados_corre :
    (Transicion.ejecutar (avanzar disco) alArrancar anidados).isSome = true := by
  decide +kernel

def trasAnidados : Estado :=
  Transicion.estadoTras (avanzar disco) alArrancar anidados anidados_corre

theorem corrida_anidados :
    Transicion.Corrida (sistema disco []) (fun _ _ => True) anidados trasAnidados :=
  Transicion.corrida_estadoTras (S := sistema disco []) (fun _ _ _ h => ⟨trivial, h⟩) ⟨_, rfl⟩
    anidados_corre

/-- Process 1 has program `p` and process 2 has program `q`. -/
theorem procesos_de_los_guiones_anidados :
    trasAnidados.pedidos = [([112], 1), ([113], 2)] ∧
      ∃ l, 2 ∈ Kernel.pids trasAnidados.nucleo.listas l := by
  obtain ⟨vs, -, -, hprocesos, -⟩ := procesos_de_los_guiones corrida_anidados (by decide +kernel)
  have hpedidos : trasAnidados.pedidos = [([112], 1), ([113], 2)] := by decide +kernel
  refine ⟨hpedidos, (hprocesos 2).2 ⟨[113], ?_⟩⟩
  rw [hpedidos]
  simp

/-! ### Scripts that end -/

/-- The file with that path below the working directory. -/
def archivoDe (cwd : Ruta) (path : Bytes) : Ruta := cwd ++ (path.splitOn barra).filter (· ≠ [])

/-- The lines of the script that a line names, if it names one that is there. -/
def incluye (d : Disco) (cwd : Ruta) (linea : Bytes) : List Bytes :=
  match leerComando linea with
  | .ejecutarScript path =>
      if d.archivos.archivo (archivoDe cwd path) then
        (leerTexto d.stringNSplit (d.contenido (archivoDe cwd path))).getD []
      else []
  | _ => []

/-- The name of the script is one for which `leer_archivo` stays in the working directory. -/
def Resuelta (d : Disco) (cwd : Ruta) (linea : Bytes) : Prop :=
  ∀ path, leerComando linea = .ejecutarScript path →
    ∃ n : Nombre, path = n.texto ∧ Resoluble d.stringSplit d.archivos cwd none n

theorem resuelta_simple {n : Nombre}
    (hc : leerComando linea = .ejecutarScript n.texto)
    (hn : Resoluble d.stringSplit d.archivos cwd none n) : Resuelta d cwd linea := by
  intro path hpath
  cases hc.symm.trans hpath
  exact ⟨n, rfl, hn⟩

theorem rutaDe_eq (cwd : Ruta) (n : Nombre) : rutaDe cwd none n = archivoDe cwd n.texto := by
  have hpiezas : (LectorArchivo.nombres n.componentes).filter (· ≠ []) =
      LectorArchivo.nombres n.componentes := by
    refine List.filter_eq_self.2 fun p hp => ?_
    exact decide_eq_true (LectorArchivo.mem_nombres hp).noVacio
  have hparte := LectorArchivo.parteNombres_partirNombre
  have hsplit : (n.texto.splitOn barra).filter (· ≠ []) =
      LectorArchivo.nombres n.componentes := by
    cases hb : n.barraInicial with
    | false =>
        rw [show n.texto.splitOn barra = _ from hparte.relativo n hb]
        exact hpiezas
    | true =>
        rcases hparte.absoluto n hb with h | h
        · rw [show n.texto.splitOn barra = _ from h]
          exact hpiezas
        · rw [show n.texto.splitOn barra = _ from h]
          simpa using hpiezas
  rw [archivoDe, hsplit]
  rfl

/-- A line stands for the lines of the script it names. -/
theorem abrir_resuelta (hN : ParteNombres d.stringSplit) (hL : ParteLineas d.stringNSplit)
    (hleg : ∀ r, leerTexto d.stringNSplit (d.contenido r) ≠ none) (h : Resuelta d cwd linea) :
    abrir d cwd linea = some (cwd, incluye d cwd linea) := by
  unfold abrir incluye
  cases hc : leerComando linea with
  | ejecutarScript path =>
      obtain ⟨n, rfl, hn⟩ := h path hc
      have hlee := (LectorArchivo.resuelve_iff hN hL d.archivos cwd none n).2 hn d.contenido hleg
      rw [rutaDe_eq] at hlee
      have hdisco : d.leer cwd n.texto = _ := hlee
      rw [Comando.abrir, hdisco, Option.map_some]
      simp only
      split
      · rfl
      · rfl
  | _ => rfl

/-- Where every name can be resolved and every file can be read, a line has the console execute
finitely many lines exactly when there is no chain without end of scripts that name the next one.
The commands that may wait, DETENER_PLANIFICACION and INICIAR_PROCESO, are taken to come back. -/
theorem guion_acaba_iff (hN : ParteNombres d.stringSplit) (hL : ParteLineas d.stringNSplit)
    (hleg : ∀ r, leerTexto d.stringNSplit (d.contenido r) ≠ none)
    (hres : ∀ l, Relation.ReflTransGen (fun l l' => l' ∈ incluye d cwd l) linea l →
      Resuelta d cwd l) :
    (∃ vs cwd', Guion.Acaba (abrir d) cwd [linea] vs cwd') ↔
      Acc (fun l' l => l' ∈ incluye d cwd l) linea := by
  refine Guion.exists_acaba_iff_acc
    (I := Relation.ReflTransGen (fun l l' => l' ∈ incluye d cwd l) linea) ?_ ?_ .refl
  · intro l hl
    exact ⟨_, abrir_resuelta hN hL hleg (hres l hl), fun y => Iff.rfl⟩
  · intro l l' hl hl'
    exact hl.tail hl'

/-! ### Scripts that are written -/

/-- The line of a command in a file. -/
def Comando.enArchivo (c : Comando) (h : c.Escribible) : LectorArchivo.Linea where
  bytes := c.tecleado
  noVacia := tecleado_ne_nil h
  sinSalto := notMem_tecleado h (.inl rfl)
  sinNulo := notMem_tecleado h (.inr rfl)

/-- The commands of a script that can be written: there is one, and their lines fit in the buffer of
`leer_archivo`. -/
structure Script where
  comandos : List Comando
  noVacio : comandos ≠ []
  escribibles : ∀ c ∈ comandos, c.Escribible
  cortos : ∀ c ∈ comandos, c.tecleado.length ≤ 198

/-- Its file, without a newline at the end. -/
def Script.archivo (g : Script) : Bytes :=
  LectorArchivo.texto (g.comandos.attach.map fun c => c.1.enArchivo (g.escribibles c.1 c.2)) false

/-- Its lines are read as they were written. -/
theorem leerTexto_archivo {stringNSplit : Bytes → List Bytes} (hL : ParteLineas stringNSplit)
    (g : Script) : leerTexto stringNSplit g.archivo = some (g.comandos.map Comando.tecleado) := by
  have hnoVacio : (g.comandos.attach.map fun c => c.1.enArchivo (g.escribibles c.1 c.2)) ≠ [] := by
    simpa using g.noVacio
  have hcortos : ∀ l ∈ g.comandos.attach.map fun c => c.1.enArchivo (g.escribibles c.1 c.2),
      l.bytes.length ≤ 198 := by
    intro l hl
    obtain ⟨c, -, rfl⟩ := List.mem_map.1 hl
    exact g.cortos c.1 c.2
  have hlineas : g.comandos.map Comando.tecleado =
      g.comandos.attach.map fun c => c.1.tecleado := List.attach_map_val.symm
  rw [Script.archivo, LectorArchivo.leerTexto_texto hL hnoVacio hcortos, List.map_map, hlineas]
  rfl

/-- To execute a script that was written is to type its commands, one after the other: they are read
as they were written, the same lines are executed, also those of other scripts, and the working
directory is the same after them. -/
theorem guion_como_tecleado (hN : ParteNombres d.stringSplit) (hL : ParteLineas d.stringNSplit)
    (hleg : ∀ r, leerTexto d.stringNSplit (d.contenido r) ≠ none) {n : Nombre}
    (hn : Resoluble d.stringSplit d.archivos cwd none n)
    (hes : (Comando.ejecutarScript n.texto).Escribible) (g : Script)
    (harchivo : d.archivos.archivo (rutaDe cwd none n) = true)
    (hcontenido : d.contenido (rutaDe cwd none n) = g.archivo) :
    (g.comandos.map Comando.tecleado).map leerComando = g.comandos ∧
      ∀ vs cwd', Guion.Acaba (abrir d) cwd [(Comando.ejecutarScript n.texto).tecleado]
          ((Comando.ejecutarScript n.texto).tecleado :: vs) cwd' ↔
        Guion.Acaba (abrir d) cwd (g.comandos.map Comando.tecleado) vs cwd' := by
  have hlee := leerComando_tecleado hes
  have habre : abrir d cwd (Comando.ejecutarScript n.texto).tecleado =
      some (cwd, g.comandos.map Comando.tecleado) := by
    rw [abrir_resuelta hN hL hleg (resuelta_simple hlee hn), incluye, hlee]
    simp only
    rw [← rutaDe_eq, if_pos harchivo, hcontenido, leerTexto_archivo hL, Option.getD_some]
  refine ⟨?_, ?_⟩
  · rw [List.map_map]
    exact (List.map_congr_left fun c hc => leerComando_tecleado (g.escribibles c hc)).trans
      (List.map_id _)
  · intro vs cwd'
    rw [Guion.acaba_cons_iff habre, List.append_nil]

theorem disco_legible (r : Ruta) : leerTexto disco.stringNSplit (disco.contenido r) ≠ none := by
  simp only [disco]
  split
  · decide +kernel
  · split
    · decide +kernel
    · decide +kernel

/-- What can be reached through scripts stays in a list that is closed under them. -/
theorem mem_of_incluye {ls : List Bytes} (hls : ∀ l ∈ ls, ∀ l' ∈ incluye d cwd l, l' ∈ ls)
    {l : Bytes} (hl : linea ∈ ls)
    (h : Relation.ReflTransGen (fun l l' => l' ∈ incluye d cwd l) linea l) : l ∈ ls := by
  induction h with
  | refl => exact hl
  | tail _ hpaso ih => exact hls _ ih _ hpaso

/-- The script that executes itself has no end. -/
theorem guion_acaba_iff_sinFin :
    ¬∃ vs cwd', Guion.Acaba (abrir disco) [] [bytes "EJECUTAR_SCRIPT s"] vs cwd' := by
  rw [guion_acaba_iff LectorArchivo.parteNombres_partirNombre
    LectorArchivo.parteLineas_partirEnDos disco_legible ?_]
  · intro h
    have hciclo : bytes "EJECUTAR_SCRIPT s" ∈ incluye disco [] (bytes "EJECUTAR_SCRIPT s") := by
      decide +kernel
    generalize bytes "EJECUTAR_SCRIPT s" = l at h hciclo
    induction h with
    | intro l _ ih => exact ih l hciclo hciclo
  · intro l hl
    have hmem : l ∈ [bytes "EJECUTAR_SCRIPT s"] :=
      mem_of_incluye (by decide +kernel) List.mem_cons_self hl
    rw [List.mem_singleton.1 hmem]
    exact resuelta_simple (n := ⟨false, [⟨[115], by decide, by decide, by decide, by decide⟩],
      by simp⟩) (by decide +kernel) (by decide +kernel)

/-- The file `a` has the lines of a script. -/
def scriptA : Script where
  comandos := [.iniciarProceso [112], .ejecutarScript [98]]
  noVacio := by simp
  escribibles := by
    intro c hc
    simp only [List.mem_cons, List.not_mem_nil, or_false] at hc
    rcases hc with rfl | rfl
    · exact ⟨by simp, by simp, by decide +kernel, by decide⟩
    · exact ⟨by simp, by simp, by decide +kernel, by decide⟩
  cortos := by decide +kernel

def archivoA : Nombre where
  barraInicial := false
  componentes := [⟨[97], by decide, by decide, by decide, by decide⟩]
  noVacio := by simp

/-- It starts process `p` and executes the other script, as if that had been typed. -/
theorem guion_como_tecleado_scriptA :
    [bytes "INICIAR_PROCESO p", bytes "EJECUTAR_SCRIPT b"].map leerComando =
        [.iniciarProceso [112], .ejecutarScript [98]] ∧
      ∀ vs cwd', Guion.Acaba (abrir disco) [] [bytes "EJECUTAR_SCRIPT a"]
          (bytes "EJECUTAR_SCRIPT a" :: vs) cwd' ↔
        Guion.Acaba (abrir disco) [] [bytes "INICIAR_PROCESO p", bytes "EJECUTAR_SCRIPT b"]
          vs cwd' := by
  have hA : (Comando.ejecutarScript archivoA.texto).tecleado = bytes "EJECUTAR_SCRIPT a" := by
    decide +kernel
  have hlineas : scriptA.comandos.map Comando.tecleado =
      [bytes "INICIAR_PROCESO p", bytes "EJECUTAR_SCRIPT b"] := by
    decide +kernel
  rw [← hA, ← hlineas]
  exact guion_como_tecleado LectorArchivo.parteNombres_partirNombre
    LectorArchivo.parteLineas_partirEnDos disco_legible (n := archivoA) (by decide +kernel)
    ⟨by decide, by decide, by decide +kernel, by decide⟩ scriptA (by decide +kernel)
    (by decide +kernel)

end Consola
