/-
**The admission of processes in the kernel.**

`crear_proceso` asks memory for a process, copies `m_list_NEW` and only then puts the PCB in NEW, so
memory may answer, and `mover_a_ready` may look at NEW, in between.  This module drives the kernel
with these steps apart, under a constant degree of multiprogramming and with planning started, and
shows that its steps are steps of the balance of tokens until `mover_a_ready` finds NEW empty.  It
then gives up both of its tokens and leaves `m_list_NEW` locked for ever: nothing is admitted from
there on, and nothing reaches NEW either, except a PCB whose `crear_proceso` has its copy already.

Main definitions:

* `Kernel.Ingreso`, `Kernel.EventoIngreso`, `Kernel.sistemaIngreso` — the kernel, with the process
  that is asked of memory and not in NEW yet;
* `Kernel.Ingreso.cupo` — what admission counts;
* `Kernel.Traspaso` — what the functions of the planner do to these counts;
* `Kernel.pasadaLimpia` — the steps in which `mover_a_ready` does not find NEW empty while a PCB is
  about to be put in it.

Main results:

* `Kernel.conProceso_eq` — the two ends of `crear_proceso`;
* `Kernel.manejar_traspaso` — the handlers of the kernel, but those of admission;
* `Kernel.Ingreso.Ordenado.paso`, `Kernel.Ingreso.Saldado.paso` — a step keeps the invariants;
* `Kernel.admision_no_se_traba` — in every run whose steps meet the condition, admission is never
  stuck, and after a step that does not meet it, it can get stuck;
* `Kernel.admision_se_traba` — a PCB reaches NEW behind the lock, and is never admitted.
-/

import TpSisop.KernelCupo
import TpSisop.KernelRefinamiento

set_option relaxedAutoImplicit false
set_option autoImplicit false

namespace Kernel

open Familia (agregar peso)
open Resultado (Cumple bind_eq_ok)

variable {k k' k₁ : Nucleo} {p q : Pcb} {ahora : ℤ}

/-! ### The two ends of `crear_proceso` -/

/-- `crear_pcb`, its entry in `estados_procesos`, and `nuevo_proceso_a_memoria`. -/
def pedirProceso (k : Nucleo) : Pcb × Nucleo :=
  ({ pid := k.ultimoPid },
    { k with
      ultimoPid := k.ultimoPid + 1
      estadosProcesos := k.estadosProcesos ++ [.new]
      memoria := k.memoria ++ [.nuevoProceso k.ultimoPid] })

/-- `agregar_a_lista_con_semaforos(pcb_nuevo, lista_new, m_list_NEW)`. -/
def agregarANew (k : Nucleo) (p : Pcb) : Nucleo :=
  { k with listas := agregar k.listas .new p }

/-- With nothing in between they are `crear_proceso`. -/
theorem conProceso_eq (k : Nucleo) :
    k.conProceso = agregarANew (pedirProceso k).2 (pedirProceso k).1 := rfl

/-! ### The system -/

/-- Where the console is in `crear_proceso`: nowhere, after `nuevo_proceso_a_memoria`, or in
`agregar_a_lista_con_semaforos` with its copy of `m_list_NEW`, which `libre` says was unlocked. -/
inductive Creacion
  | ninguna
  | pedida (p : Pcb)
  | copiada (p : Pcb) (libre : Bool)

namespace Creacion

/-- The PCB that is not in NEW yet. -/
def pcb : Creacion → Option Pcb
  | .ninguna => none
  | .pedida p => some p
  | .copiada p _ => some p

@[simp] theorem pcb_ninguna : pcb .ninguna = none := rfl

@[simp] theorem pcb_pedida (p : Pcb) : pcb (.pedida p) = some p := rfl

@[simp] theorem pcb_copiada (p : Pcb) (libre : Bool) : pcb (.copiada p libre) = some p := rfl

def EsNinguna : Creacion → Prop
  | .ninguna => True
  | _ => False

def EsPedida : Creacion → Prop
  | .pedida _ => True
  | _ => False

/-- Its copy of `m_list_NEW` is unlocked, so nothing keeps it from NEW. -/
def PorAgregar : Creacion → Prop
  | .copiada _ true => True
  | _ => False

instance : DecidablePred EsNinguna
  | .ninguna => .isTrue trivial
  | .pedida _ | .copiada _ _ => .isFalse id

instance : DecidablePred EsPedida
  | .pedida _ => .isTrue trivial
  | .ninguna | .copiada _ _ => .isFalse id

instance : DecidablePred PorAgregar
  | .copiada _ true => .isTrue trivial
  | .ninguna | .pedida _ | .copiada _ false => .isFalse id

theorem EsNinguna.eq {c : Creacion} (h : c.EsNinguna) : c = .ninguna := by
  cases c with
  | ninguna => rfl
  | pedida p => exact h.elim
  | copiada p libre => exact h.elim

theorem EsPedida.exists_eq {c : Creacion} (h : c.EsPedida) : ∃ p, c = .pedida p := by
  cases c with
  | ninguna => exact h.elim
  | pedida p => exact ⟨p, rfl⟩
  | copiada p libre => exact h.elim

theorem PorAgregar.exists_eq {c : Creacion} (h : c.PorAgregar) : ∃ p, c = .copiada p true := by
  cases c with
  | ninguna => exact h.elim
  | pedida p => exact h.elim
  | copiada p libre =>
      cases libre with
      | true => exact ⟨p, rfl⟩
      | false => exact h.elim

end Creacion

/-- The kernel, and the process its console is creating. -/
structure Ingreso where
  nucleo : Nucleo
  creacion : Creacion := .ninguna

/-- The steps of INICIAR_PROCESO, a FINALIZAR_PROCESO that takes `sem_planificacion_largo` and then
waits for `m_list_NEW` for ever, and the other events of the kernel. -/
inductive EventoIngreso
  | pedir
  | copiar (libre : Bool)
  | agregar
  | tomarLargo
  | kernel (e : Evento)
  deriving DecidableEq, Repr

/-- The events of the kernel under which the degree is constant and planning goes on. -/
def Evento.constante : Evento → Prop
  | .iniciarProceso | .detenerPlanificacion | .multiprogramacion _ => False
  | _ => True

instance : DecidablePred Evento.constante
  | .iniciarProceso | .detenerPlanificacion | .multiprogramacion _ => .isFalse id
  | .finalizarProceso _ | .iniciarPlanificacion | .cpu _ _ _ | .interfaz _ _ _ | .conexionIo _ _
  | .memoria _ | .corto _ | .reloj | .largo => .isTrue trivial

/-- The console is one thread: it starts the next process when it is done with the one before.  A
copy of `m_list_NEW` may be a locked one at any time, since another thread may be holding it. -/
def Ingreso.admite (a : Ingreso) : EventoIngreso → Prop
  | .pedir => a.creacion.EsNinguna
  | .copiar libre => a.creacion.EsPedida ∧ (libre = true → a.nucleo.mListNew = false)
  | .agregar => a.creacion.PorAgregar
  | .tomarLargo => a.nucleo.mListNew = true
  | .kernel e => e.constante ∧ Kernel.admite a.nucleo e

instance (a : Ingreso) : DecidablePred a.admite
  | .pedir => inferInstanceAs (Decidable a.creacion.EsNinguna)
  | .copiar _ => inferInstanceAs (Decidable (_ ∧ _))
  | .agregar => inferInstanceAs (Decidable a.creacion.PorAgregar)
  | .tomarLargo => inferInstanceAs (Decidable (a.nucleo.mListNew = true))
  | .kernel e => inferInstanceAs (Decidable (e.constante ∧ Kernel.admite a.nucleo e))

/-- `sem_wait(sem_planificacion_largo)` with no post to follow. -/
def tomarLargo (k : Nucleo) : Except Corte Nucleo := do
  exigir (0 < k.sem.planificacionLargo) .espera
  .ok { k with sem := { k.sem with planificacionLargo := k.sem.planificacionLargo - 1 } }

theorem tomarLargo_eq_ok : tomarLargo k = .ok k' ↔ 0 < k.sem.planificacionLargo ∧
    { k with sem := { k.sem with planificacionLargo := k.sem.planificacionLargo - 1 } } = k' := by
  unfold tomarLargo
  rw [exigir_bind_eq_ok, Except.ok.injEq]

def Ingreso.manejar (a : Ingreso) : EventoIngreso → Except Corte Ingreso
  | .pedir => .ok ⟨(pedirProceso a.nucleo).2, .pedida (pedirProceso a.nucleo).1⟩
  | .copiar libre => do
      let p ← obtenido a.creacion.pcb
      .ok { a with creacion := .copiada p libre }
  | .agregar => do
      let p ← obtenido a.creacion.pcb
      .ok ⟨agregarANew a.nucleo p, .ninguna⟩
  | .tomarLargo => do
      let k ← Kernel.tomarLargo a.nucleo
      .ok { a with nucleo := k }
  | .kernel e => do
      let k ← Kernel.manejar a.nucleo e
      .ok { a with nucleo := k }

/-- The kernel with a degree of at least one, from the start of planning on. -/
def sistemaIngreso : Transicion.Sistema Ingreso EventoIngreso where
  inicial a := ∃ config : Config, 1 ≤ config.gradoMultiprogramacion ∧
    a = { nucleo := iniciarPlanificacion (iniciar config) }
  paso a e a' := a.admite e ∧ a.manejar e = .ok a'

/-! ### What admission counts -/

/-- The lists the degree of multiprogramming is about. -/
def Lista.admitidas : List Lista := [.ready, .running, .blocked, .auxiliar]

theorem Lista.admitidas_nodup : Lista.admitidas.Nodup := by decide

@[simp] theorem Lista.mem_admitidas (l : Lista) : l ∈ Lista.admitidas ↔ l ≠ .new ∧ l ≠ .exit := by
  cases l <;> decide

/-- `tamanio_multiprogramacion + tam_lista_auxiliar`. -/
def Nucleo.admitidos (k : Nucleo) : ℕ := peso (fun _ => 1) Lista.admitidas k.listas

theorem admitidos_eq (k : Nucleo) : k.admitidos = (k.listas .ready).length
    + (k.listas .running).length + (k.listas .blocked).length + (k.listas .auxiliar).length := by
  simp only [Nucleo.admitidos, Lista.admitidas, Familia.peso_cons, Familia.peso_nil,
    List.map_const', List.sum_replicate, smul_eq_mul, mul_one]
  omega

/-- The messages memory answers with `FIN_CREA_PRO`. -/
def AMemoria.esNuevo : AMemoria → Bool
  | .nuevoProceso _ => true
  | .finalizarProceso _ => false

@[simp] theorem AMemoria.esNuevo_nuevoProceso (pid : ℕ) : (nuevoProceso pid).esNuevo = true := rfl

@[simp] theorem AMemoria.esNuevo_finalizarProceso (pid : ℕ) :
    (finalizarProceso pid).esNuevo = false := rfl

/-- The messages to memory without an answer. -/
def Nucleo.sinResponder (k : Nucleo) : List AMemoria := k.memoria.drop k.respondidas

def Ingreso.cupo (a : Ingreso) : Cupo where
  grado := a.nucleo.config.gradoMultiprogramacion
  pedidos := a.creacion.pcb.toList.length
  nuevos := (a.nucleo.listas .new).length
  admitidos := a.nucleo.admitidos
  porCrear := a.nucleo.sinResponder.countP AMemoria.esNuevo
  creados := a.nucleo.sem.procesoSeCreoEnMemoria
  porTerminar := a.nucleo.sinResponder.countP (fun m => !m.esNuevo)
  lugares := a.nucleo.sem.gradoMultiprogramacion
  largo := a.nucleo.largo

/-! ### What the functions of the planner do to these counts -/

/-- The processes `pids` left for EXIT, memory was told, and there are `d` more in the lists of the
degree; NEW and the tokens of admission are as they were. -/
structure Traspaso (d : ℤ) (pids : List ℕ) (k k' : Nucleo) : Prop where
  config : k'.config = k.config
  largo : k'.largo = k.largo
  respondidas : k'.respondidas = k.respondidas
  creados : k'.sem.procesoSeCreoEnMemoria = k.sem.procesoSeCreoEnMemoria
  lugares : k'.sem.gradoMultiprogramacion = k.sem.gradoMultiprogramacion
  mListNew : k'.mListNew = k.mListNew
  planificacionLargo : k.sem.planificacionLargo ≤ k'.sem.planificacionLargo
  nuevos : k'.listas .new = k.listas .new
  memoria : k'.memoria = k.memoria ++ pids.map .finalizarProceso
  admitidos : (k'.admitidos : ℤ) = k.admitidos + d

/-- As a judgement on a handler, whatever it stops for. -/
abbrev Traspasa (d : ℤ) (pids : List ℕ) (k : Nucleo) : Except Corte Nucleo → Prop :=
  Cumple (fun _ => False) (Traspaso d pids k)

theorem Traspaso.refl (k : Nucleo) : Traspaso 0 [] k k :=
  ⟨rfl, rfl, rfl, rfl, rfl, rfl, le_rfl, rfl, by simp, by simp⟩

theorem Traspaso.trans {d d' : ℤ} {ps ps' : List ℕ} (h₁ : Traspaso d ps k k₁)
    (h₂ : Traspaso d' ps' k₁ k') : Traspaso (d + d') (ps ++ ps') k k' where
  config := h₂.config.trans h₁.config
  largo := h₂.largo.trans h₁.largo
  respondidas := h₂.respondidas.trans h₁.respondidas
  creados := h₂.creados.trans h₁.creados
  lugares := h₂.lugares.trans h₁.lugares
  mListNew := h₂.mListNew.trans h₁.mListNew
  planificacionLargo := h₁.planificacionLargo.trans h₂.planificacionLargo
  nuevos := h₂.nuevos.trans h₁.nuevos
  memoria := by rw [h₂.memoria, h₁.memoria, List.map_append, List.append_assoc]
  admitidos := by
    have := h₁.admitidos
    have := h₂.admitidos
    omega

section

variable {d : ℤ} {pids : List ℕ}

theorem Traspaso.luego (h₁ : Traspaso d pids k k₁) (h₂ : Traspaso 0 [] k₁ k') :
    Traspaso d pids k k' := by
  simpa using h₁.trans h₂

theorem Traspaso.tras (h₂ : Traspaso d pids k₁ k') (h₁ : Traspaso 0 [] k k₁) :
    Traspaso d pids k k' := by
  simpa using h₁.trans h₂

/-- A process that leaves one list of the degree for another. -/
theorem Traspaso.mudanza (h₁ : Traspaso (-1) [] k k₁) (h₂ : Traspaso 1 [] k₁ k') :
    Traspaso 0 [] k k' := by
  simpa using h₁.trans h₂

/-- A process that leaves a list of the degree for EXIT. -/
theorem Traspaso.muerte {pid : ℕ} (h₁ : Traspaso (-1) [] k k₁) (h₂ : Traspaso 0 [pid] k₁ k') :
    Traspaso (-1) [pid] k k' := by
  simpa using h₁.trans h₂

end

/-- A list of the degree that is replaced by one with `d` more processes. -/
theorem conLista_traspaso {l : Lista} {xs : List Pcb} {d : ℤ} (hl : l ∈ Lista.admitidas)
    (h : (xs.length : ℤ) = (k.listas l).length + d) : Traspaso d [] k (k.conLista l xs) := by
  have hp := Familia.peso_update (f := fun _ => 1) (L := k.listas) Lista.admitidas_nodup hl xs
  have hne : Lista.new ≠ l := by
    rintro rfl
    simp at hl
  refine ⟨rfl, rfl, rfl, rfl, rfl, rfl, le_rfl, ?_, by simp [Nucleo.conLista], ?_⟩
  · simp [Nucleo.conLista, hne]
  · simp only [List.map_const', List.sum_replicate, smul_eq_mul, mul_one] at hp
    simp only [Nucleo.admitidos, Nucleo.conLista]
    omega

theorem actualizarEstadoPcb_traspaso {l : Lista} (hl : l ∈ Lista.admitidas) (p : Pcb)
    (e : EstadoCode) : Traspaso 1 [] k (k.actualizarEstadoPcb p e l) := by
  have hne : Lista.new ≠ l := by
    rintro rfl
    simp at hl
  refine ⟨rfl, rfl, rfl, rfl, rfl, rfl, le_rfl, ?_, by simp [Nucleo.actualizarEstadoPcb], ?_⟩
  · simp [Nucleo.actualizarEstadoPcb, hne]
  · simp only [Nucleo.admitidos, Nucleo.actualizarEstadoPcb,
      Familia.peso_agregar Lista.admitidas_nodup, if_pos hl]
    omega

theorem salir_traspaso (k : Nucleo) (p : Pcb) : Traspaso 0 [p.pid] k (k.salir p) := by
  refine ⟨rfl, rfl, rfl, rfl, rfl, rfl, le_rfl, ?_, rfl, ?_⟩
  · simp [Nucleo.salir, Nucleo.actualizarEstadoPcb]
  · simp [Nucleo.admitidos, Nucleo.salir, Nucleo.actualizarEstadoPcb,
      Familia.peso_agregar Lista.admitidas_nodup]

/-- What the counts of admission are taken from. -/
def Nucleo.contado (k : Nucleo) :=
  (k.config, k.largo, k.respondidas, k.sem.procesoSeCreoEnMemoria, k.sem.gradoMultiprogramacion,
    k.mListNew, k.sem.planificacionLargo, k.listas, k.memoria)

/-- A change of what admission does not look at. -/
theorem traspaso_of_eq (h : k'.contado = k.contado) : Traspaso 0 [] k k' := by
  simp only [Nucleo.contado, Prod.mk.injEq] at h
  obtain ⟨hconfig, hlargo, hresp, hcreados, hlugares, hcerrojo, hplan, hlistas, hmem⟩ := h
  refine ⟨hconfig, hlargo, hresp, hcreados, hlugares, hcerrojo, hplan.ge, ?_, ?_, ?_⟩
  · rw [hlistas]
  · simp [hmem]
  · simp [Nucleo.admitidos, hlistas]

/-! ### Function by function -/

/-- What is taken out of a list leaves it one shorter. -/
theorem length_of_remover {α : Type} {l : List α} {i : ℤ} {r : α × List α}
    (h : Coleccion.remover l i = some r) : (r.2.length : ℤ) = l.length + -1 := by
  rcases lt_or_ge i 0 with hi | hi
  · rw [Coleccion.remover_of_neg l hi] at h
    cases h
  · obtain ⟨n, rfl⟩ := Int.eq_ofNat_of_zero_le hi
    rw [Coleccion.remover_natCast] at h
    obtain ⟨x, hx, rfl⟩ := Option.map_eq_some_iff.1 h
    have hn := (List.getElem?_eq_some_iff.1 hx).1
    simp only [List.length_eraseIdx_of_lt hn]
    omega

theorem remover_traspaso {l : Lista} {i : ℤ} {r : Pcb × List Pcb} (hl : l ∈ Lista.admitidas)
    (h : Coleccion.remover (k.listas l) i = some r) : Traspaso (-1) [] k (k.conLista l r.2) :=
  conLista_traspaso hl (length_of_remover h)

theorem alistar_traspaso (k : Nucleo) (p : Pcb) : Traspaso 1 [] k (k.alistar p) := by
  unfold Nucleo.alistar
  split
  · exact (actualizarEstadoPcb_traspaso (by simp) p .readyAux).luego (traspaso_of_eq rfl)
  · exact (actualizarEstadoPcb_traspaso (by simp) p .ready).luego (traspaso_of_eq rfl)

theorem ponerRecurso_traspaso (k : Nucleo) (n : String) (r : Recurso) :
    Traspaso 0 [] k (k.ponerRecurso n r) :=
  traspaso_of_eq rfl

theorem liberarCpu_traspaso (k : Nucleo) : Traspaso 0 [] k k.liberarCpu :=
  traspaso_of_eq rfl

theorem conInterfaces_traspaso (k : Nucleo) (d : Coleccion.Diccionario Interfaz) :
    Traspaso 0 [] k { k with interfaces := d } :=
  traspaso_of_eq rfl

theorem desbloquearProceso_traspaso (k : Nucleo) (pid : ℕ) :
    Traspasa 0 [] k (desbloquearProceso k pid) :=
  (exigir_cumple id).bind fun _ _ _ => (obtenido_cumple False.elim).bind fun _ _ hr =>
    (remover_traspaso (by simp) hr).mudanza (alistar_traspaso ..)

theorem bloquearProceso_traspaso (k : Nucleo) (p : Pcb) (esIo : Bool) (ahora : ℤ) :
    Traspasa 0 [] k (bloquearProceso k p esIo ahora) := by
  refine (exigir_cumple id).bind fun _ _ _ => (obtenido_cumple False.elim).bind fun r _ hr => ?_
  have h₁ : Traspaso 0 [] k { k with pidEjecutando := 0 } := traspaso_of_eq rfl
  have h₂ := remover_traspaso (k := { k with pidEjecutando := 0 }) (by simp) hr
  exact (h₂.tras h₁).mudanza (actualizarEstadoPcb_traspaso (by simp) ..)

theorem recursoIncrementar_traspaso (k : Nucleo) (recurso : String) :
    Traspasa 0 [] k (recursoIncrementar k recurso) := by
  refine recursoIncrementar_regla False.elim (.refl k) (fun r => ponerRecurso_traspaso ..) ?_
  intro r a p b hl
  refine (desbloquearProceso_traspaso _ _).mono fun k' _ h' => ?_
  refine ((ponerRecurso_traspaso ..).luego (conLista_traspaso (d := 0) ?_ ?_)).luego h'
  · simp
  · simp [hl]

theorem liberarRecursosTomados_traspaso (k : Nucleo) (p : Pcb) :
    Traspasa 0 [] k (liberarRecursosTomados k p) := by
  refine liberarRecursosTomados_regla id (fun k₁ n h₁ => ?_) (fun k₁ n r h₁ => ?_) (.refl k) p
  · exact (recursoIncrementar_traspaso k₁ n).mono fun k' _ h' => h₁.luego h'
  · exact h₁.luego (ponerRecurso_traspaso ..)

/-- A process that is in no list goes to EXIT. -/
theorem eliminarProceso_traspaso (hr : procesoEnRunning k p = false) :
    Traspasa 0 [p.pid] k (eliminarProceso k p) := by
  rw [eliminarProceso, hr, if_neg Bool.false_ne_true]
  refine (liberarRecursosTomados_traspaso k p).bind fun k₁ _ h₁ => ?_
  exact (exigir_cumple id).bind fun _ _ _ => (salir_traspaso ..).tras h₁

/-! ### The messages of the CPU and of the interfaces -/

/-- Nobody left, or one process of the lists of the degree. -/
def Traslado (k k' : Nucleo) : Prop :=
  Traspaso 0 [] k k' ∨ ∃ pid, Traspaso (-1) [pid] k k'

abbrev Traslada (k : Nucleo) : Except Corte Nucleo → Prop :=
  Cumple (fun _ => False) (Traslado k)

theorem Traspasa.traslada {r : Except Corte Nucleo} (h : Traspasa 0 [] k r) : Traslada k r :=
  h.mono fun _ _ => .inl

theorem Traspasa.traslada_muerte {r : Except Corte Nucleo} {pid : ℕ}
    (h : Traspasa (-1) [pid] k r) : Traslada k r :=
  h.mono fun _ _ h' => .inr ⟨pid, h'⟩

theorem Traspaso.traslado (h₁ : Traspaso 0 [] k k₁) (h₂ : Traslado k₁ k') : Traslado k k' := by
  rcases h₂ with h₂ | ⟨pid, h₂⟩
  · exact .inl (h₂.tras h₁)
  · exact .inr ⟨pid, h₂.tras h₁⟩

theorem finDeQuantum_traspaso (k : Nucleo) (p : Pcb) : Traspasa 0 [] k (finDeQuantum k p) := by
  refine (exigir_cumple id).bind fun _ _ _ => (obtenido_cumple False.elim).bind fun r _ hr => ?_
  have h₁ := (remover_traspaso (by simp) hr).mudanza
    (actualizarEstadoPcb_traspaso (l := .ready) (by simp) p .ready)
  exact h₁.luego (traspaso_of_eq rfl)

theorem reanudar_traspaso (k : Nucleo) (p : Pcb) : Traspasa 0 [] k (reanudar k p) := by
  refine (obtenido_cumple False.elim).bind fun r _ hr => ?_
  have hlen := length_of_remover hr
  have h₁ : Traspaso 0 [] k (k.conLista .running (r.2 ++ [p])) :=
    conLista_traspaso (by simp) (by simp only [List.length_append, List.length_singleton]; omega)
  exact h₁.luego (traspaso_of_eq rfl)

theorem motivoSignal_traspaso (k : Nucleo) (p : Pcb) (recurso : String) :
    Traspasa 0 [] k (motivoSignal k p recurso) :=
  (recursoIncrementar_traspaso k recurso).bind fun _ _ h₁ =>
    (reanudar_traspaso _ _).mono fun _ _ h' => h₁.luego h'

theorem recursoAgregarBloqueado_traspaso (k : Nucleo) (recurso : String) (pid : ℕ) :
    Traspaso 0 [] k (recursoAgregarBloqueado k recurso pid) := by
  unfold recursoAgregarBloqueado
  cases k.recursos.valor recurso with
  | none => exact .refl k
  | some r => exact ponerRecurso_traspaso ..

theorem recursoDecrementar_traspaso (k : Nucleo) (recurso : String) (p : Pcb) (ahora : ℤ) :
    Cumple (fun _ => False) (fun r => Traspaso 0 [] k r.2)
      (recursoDecrementar k recurso p ahora) := by
  unfold recursoDecrementar
  cases k.recursos.valor recurso with
  | none => exact .refl k
  | some r =>
      simp only
      split
      · refine (bloquearProceso_traspaso _ _ _ _).bind fun k₁ _ h₁ => ?_
        exact (((ponerRecurso_traspaso ..).luego h₁).luego
          (recursoAgregarBloqueado_traspaso k₁ recurso p.pid)).luego (liberarCpu_traspaso _)
      · exact ponerRecurso_traspaso ..

theorem motivoWait_traspaso (k : Nucleo) (p : Pcb) (recurso : String) (ahora : ℤ) :
    Traspasa 0 [] k (motivoWait k p recurso ahora) := by
  refine (recursoDecrementar_traspaso k recurso p ahora).bind fun r _ h => ?_
  split
  · exact (reanudar_traspaso _ _).mono fun _ _ h' => h.luego h'
  · exact h

theorem terminar_traspaso (k : Nucleo) (p : Pcb) : Traspasa (-1) [p.pid] k (terminar k p) := by
  refine (exigir_cumple id).bind fun _ _ _ => ?_
  refine (liberarRecursosTomados_traspaso k p).bind fun k₁ _ h₁ => ?_
  refine (obtenido_cumple False.elim).bind fun r _ hr => ?_
  exact (((remover_traspaso (by simp) hr).tras h₁).muerte (salir_traspaso ..)).luego
    (liberarCpu_traspaso _)

/-- The process at the CPU was the only one in RUNNING. -/
theorem expulsar_traspaso (hrun : k.listas .running = [q]) :
    Traspasa (-1) [p.pid] k (expulsar k p) := by
  refine (obtenido_cumple False.elim).bind fun r _ hr => ?_
  have h₁ := remover_traspaso (by simp) hr
  rw [hrun, Coleccion.remover_cons_zero, Option.some.injEq] at hr
  subst hr
  refine (eliminarProceso_traspaso (by simp [procesoEnRunning, Nucleo.conLista])).bind
    fun k₁ _ h₂ => ?_
  exact (h₁.muerte h₂).luego (liberarCpu_traspaso _)

theorem peticionIo_traslado {nombre : String} {operacion : OperacionIo}
    (hrun : k.listas .running = [q]) : Traslada k (peticionIo k p nombre operacion ahora) := by
  unfold peticionIo
  cases k.interfaces.valor nombre with
  | none => exact (expulsar_traspaso hrun).traslada_muerte
  | some i =>
      refine (bloquearProceso_traspaso k p true ahora).bind fun k₁ _ h₁ => .inl ?_
      exact h₁.luego (traspaso_of_eq rfl)

theorem atenderCpuDispatch_traslado (hrun : k.listas .running = [q]) (m : MensajeCpu) :
    Traslada k (atenderCpuDispatch k p ahora m) := by
  cases m with
  | io nombre operacion => exact peticionIo_traslado hrun
  | interrupcion => exact (finDeQuantum_traspaso k p).traslada
  | outOfMemory => exact (terminar_traspaso k p).traslada_muerte
  | terminarProceso => exact (terminar_traspaso k p).traslada_muerte
  | wait recurso =>
      simp only [atenderCpuDispatch]
      split
      · exact (expulsar_traspaso hrun).traslada_muerte
      · exact (motivoWait_traspaso k p recurso ahora).traslada
  | signal recurso =>
      simp only [atenderCpuDispatch]
      split
      · exact (expulsar_traspaso hrun).traslada_muerte
      · exact (motivoSignal_traspaso k p recurso).traslada

theorem errorIo_traspaso {pid : ℕ} (hu : ∀ x, veces k.listas x ≤ 1) :
    Traspasa (-1) [pid] k (errorIo k pid) := by
  refine (obtenido_cumple False.elim).bind fun r _ hr => ?_
  obtain ⟨a, b, hl, hp, -, hr₂⟩ := sacar_eq_some (p := r.1) (r := r.2) hr
  have h₁ : Traspaso (-1) [] k (k.conLista .blocked r.2) := remover_traspaso (by simp) hr
  have hv : veces (k.conLista .blocked r.2).listas r.1.pid = 0 := by
    rw [hr₂]
    exact veces_quitar_eq_zero (hu _) hl
  refine (eliminarProceso_traspaso (procesoEnRunning_eq_false hv)).mono fun k' _ h' => ?_
  rw [hp] at h'
  exact h₁.muerte h'

theorem ioOcupada_traspaso (k : Nucleo) (nombre : String) (pet : PeticionIo) :
    Traspasa 0 [] k (ioOcupada k nombre pet) :=
  (obtenido_cumple False.elim).bind fun _ _ _ => conInterfaces_traspaso ..

theorem finIo_traspaso (k : Nucleo) (nombre : String) (pid : ℕ) :
    Traspasa 0 [] k (finIo k nombre pid) := by
  refine finIo_regla id (desbloquearProceso_traspaso k pid) (fun k₁ d h₁ => ?_) nombre
  exact h₁.luego (conInterfaces_traspaso k₁ d)

theorem atenderIo_traslado (hu : ∀ x, veces k.listas x ≤ 1) (nombre : String) (pet : PeticionIo)
    (r : RespuestaIo) : Traslada k (atenderIo k nombre pet r) := by
  cases r with
  | errorIo => exact Traspasa.traslada_muerte (errorIo_traspaso hu)
  | ioOcupada => exact (ioOcupada_traspaso k nombre pet).traslada
  | finIo => exact (finIo_traspaso k nombre pet.pid).traslada

/-! ### The console and the threads -/

theorem iniciarPlanificacion_traspaso (k : Nucleo) : Traspaso 0 [] k (iniciarPlanificacion k) := by
  unfold iniciarPlanificacion
  split
  · exact .refl k
  · exact ⟨rfl, rfl, rfl, rfl, rfl, rfl, Nat.le_succ _, rfl, by simp, by simp [Nucleo.admitidos]⟩

theorem despachar_traspaso (k : Nucleo) (p : Pcb) (ahora : ℤ) :
    Traspaso 1 [] k (k.despachar p ahora) := by
  obtain ⟨p', -, hd⟩ := despachar_eq k p ahora
  rw [hd]
  exact (actualizarEstadoPcb_traspaso (l := .running) (by simp) p' p'.estado).luego
    (traspaso_of_eq rfl)

/-- A pass that takes the first process of a list. -/
theorem despachar_primero_traspaso {l : Lista} {resto : List Pcb} (hl : l ∈ Lista.admitidas)
    (h : k.listas l = p :: resto) (q : Pcb) (ahora : ℤ) :
    Traspaso 0 [] k ((k.conLista l resto).despachar q ahora) :=
  (conLista_traspaso hl (by simp [h])).mudanza (despachar_traspaso ..)

/-- Only the place of the scheduler changes. -/
theorem conCorto_traspaso (k : Nucleo) (f : FaseCorto) : Traspaso 0 [] k { k with corto := f } :=
  traspaso_of_eq rfl

theorem pasada_traspaso (k : Nucleo) (ahora : ℤ) : Traspaso 0 [] k (pasada k ahora) := by
  unfold pasada
  split
  · split
    · exact conCorto_traspaso ..
    · rename_i p ready hready
      exact (despachar_primero_traspaso (by simp) hready p ahora).luego (conCorto_traspaso ..)
  · exact traspaso_of_eq rfl
  · split
    · rename_i p auxiliar haux
      exact (despachar_primero_traspaso (by simp) haux p ahora).luego (conCorto_traspaso ..)
    · split
      · rename_i p ready hready
        exact (despachar_primero_traspaso (by simp) hready _ ahora).luego (conCorto_traspaso ..)
      · exact conCorto_traspaso ..
  · exact conCorto_traspaso ..

theorem contadorQuantumVrr_traspaso (k : Nucleo) (pid : ℕ) (t₀ quantum ahora : ℤ) :
    Traspasa 0 [] k (contadorQuantumVrr k pid t₀ quantum ahora) := by
  have hinterrumpe : Traspaso 0 [] k (k.interrumpirProceso k.pidEjecutando) := traspaso_of_eq rfl
  refine (obtenido_cumple False.elim).bind fun estado _ _ => ?_
  split
  · exact conCorto_traspaso ..
  · split
    · split
      · exact hinterrumpe.luego (conCorto_traspaso ..)
      · exact conCorto_traspaso ..
    · exact .refl k

theorem planificadorCortoPlazo_traspaso (k : Nucleo) (ahora : ℤ) :
    Traspasa 0 [] k (planificadorCortoPlazo k ahora) := by
  unfold planificadorCortoPlazo
  split
  · exact (exigir_cumple id).bind fun _ _ _ => traspaso_of_eq rfl
  · exact (exigir_cumple id).bind fun _ _ _ => traspaso_of_eq rfl
  · exact (exigir_cumple id).bind fun _ _ _ => pasada_traspaso ..
  · refine (exigir_cumple id).bind fun _ _ _ => (obtenido_cumple False.elim).bind fun r _ hr => ?_
    have h₁ := (remover_traspaso (by simp) hr).mudanza (despachar_traspaso _ r.1 ahora)
    exact h₁.luego (traspaso_of_eq rfl)
  · exact contadorQuantumVrr_traspaso ..

theorem contadorQuantumRr_traspaso (k : Nucleo) : Traspasa 0 [] k (contadorQuantumRr k) := by
  unfold contadorQuantumRr
  split
  · exact (exigir_cumple id).bind fun _ _ _ => traspaso_of_eq rfl
  · split
    · exact traspaso_of_eq rfl
    · exact traspaso_of_eq rfl

/-- A process of NEW goes to EXIT. -/
def MuereNuevo (k k' : Nucleo) : Prop :=
  ∃ a p b, k.listas .new = a ++ p :: b ∧ Traspaso 0 [p.pid] (k.conLista .new (a ++ b)) k'

theorem finalizarProceso_traspaso {pid : ℕ} (hu : ∀ x, veces k.listas x ≤ 1) :
    Cumple (fun _ => False) (fun k' => Traslado k k' ∨ MuereNuevo k k')
      (finalizarProceso k pid) := by
  refine (exigir_cumple id).bind fun _ _ _ => (exigir_cumple id).bind fun _ _ _ => ?_
  rcases hayarPcb_casos k pid with ⟨l, a, p, b, hlista, hl, -, hh⟩ | ⟨k₁, hh, hk₁, -⟩
  · rw [hh]
    have hv : veces (k.conLista l (a ++ b)).listas p.pid = 0 := veces_quitar_eq_zero (hu _) hl
    refine (eliminarProceso_traspaso (procesoEnRunning_eq_false hv)).mono fun k' _ h' => ?_
    by_cases hnew : l = .new
    · subst hnew
      exact .inr ⟨a, p, b, hl, h'⟩
    · have hadm : l ∈ Lista.admitidas := by
        rcases hlista with rfl | rfl | rfl | rfl
        · exact absurd rfl hnew
        · decide
        · decide
        · decide
      have h₁ : Traspaso (-1) [] k (k.conLista l (a ++ b)) :=
        conLista_traspaso hadm (by simp only [hl, List.length_append, List.length_cons]; omega)
      exact .inl (.inr ⟨p.pid, h₁.muerte h'⟩)
  · rw [hh]
    refine .inl (.inl ?_)
    rcases hk₁ with hk | ⟨-, hk⟩
    · exact hk ▸ .refl k
    · exact hk ▸ traspaso_of_eq rfl

/-- What is left is admission itself. -/
def Evento.deAdmision : Evento → Prop
  | .memoria _ | .largo => True
  | _ => False

/-- The handlers of the kernel, but those of admission. -/
theorem manejar_traspaso {e : Evento} (hU : Unica k.vista) (hc : e.constante)
    (hd : ¬e.deAdmision) (he : admite k e) (h : manejar k e = .ok k') :
    Traslado k k' ∨ MuereNuevo k k' := by
  have hu : ∀ x, veces k.listas x ≤ 1 := hU.veces_le
  cases e with
  | iniciarProceso => exact hc.elim
  | detenerPlanificacion => exact hc.elim
  | multiprogramacion valor => exact hc.elim
  | memoria m => exact absurd trivial hd
  | largo => exact absurd trivial hd
  | finalizarProceso pid => exact (finalizarProceso_traspaso hu).of_eq_ok h
  | iniciarPlanificacion =>
      cases h
      exact .inl (.inl (iniciarPlanificacion_traspaso k))
  | cpu p m ahora =>
      obtain ⟨q, hq⟩ := corre_of_admite hU he
      have h₁ : Traspaso 0 [] k k.sinCpu := traspaso_of_eq rfl
      exact .inl (h₁.traslado ((atenderCpuDispatch_traslado (running_sinCpu hq) m).of_eq_ok h))
  | interfaz nombre pet r =>
      simp only [manejar, bind_eq_ok, obtenido_eq_ok] at h
      obtain ⟨i, -, h⟩ := h
      have h₁ := conInterfaces_traspaso k
        (k.interfaces.poner nombre { i with enviadas := i.enviadas.erase pet })
      exact .inl (h₁.traslado ((atenderIo_traslado (by exact hu) nombre pet r).of_eq_ok h))
  | conexionIo nombre tipoInterfaz =>
      cases h
      exact .inl (.inl (conInterfaces_traspaso ..))
  | corto ahora => exact .inl (.inl ((planificadorCortoPlazo_traspaso k ahora).of_eq_ok h))
  | reloj => exact .inl (.inl ((contadorQuantumRr_traspaso k).of_eq_ok h))

/-! ### The steps of the balance -/

/-- The counts after a function of the planner. -/
theorem Traspaso.cupo {d : ℤ} {pids : List ℕ} (h : Traspaso d pids k k')
    (hr : k.respondidas ≤ k.memoria.length) (c : Creacion) :
    Ingreso.cupo ⟨k', c⟩ = { Ingreso.cupo ⟨k, c⟩ with
      admitidos := k'.admitidos
      porTerminar := (Ingreso.cupo ⟨k, c⟩).porTerminar + pids.length } := by
  have hs : k'.sinResponder = k.sinResponder ++ pids.map .finalizarProceso := by
    rw [Nucleo.sinResponder, h.respondidas, h.memoria, List.drop_append_of_le_length hr]
    rfl
  have h₁ : (pids.map AMemoria.finalizarProceso).countP AMemoria.esNuevo = 0 := by
    simp [List.countP_eq_zero, AMemoria.esNuevo]
  have h₂ : (pids.map AMemoria.finalizarProceso).countP (fun m => !m.esNuevo) = pids.length := by
    rw [List.countP_map, List.countP_eq_length.2 (by simp [AMemoria.esNuevo])]
  simp only [Ingreso.cupo, h.config, h.largo, h.creados, h.lugares, h.nuevos, hs,
    List.countP_append, h₁, h₂, add_zero]

/-- `m_list_NEW` is as it was, and the counts of admission take a step. -/
structure PasoDeCupo (c : Creacion) (k k' : Nucleo) : Prop where
  mListNew : k'.mListNew = k.mListNew
  paso : (Ingreso.cupo ⟨k, c⟩).Paso (Ingreso.cupo ⟨k', c⟩)

theorem Traslado.cupo (h : Traslado k k') (hr : k.respondidas ≤ k.memoria.length)
    (c : Creacion) : PasoDeCupo c k k' := by
  rcases h with h | ⟨pid, h⟩
  · have ha : k'.admitidos = k.admitidos := by
      have := h.admitidos
      omega
    refine ⟨h.mListNew, ?_⟩
    rw [h.cupo hr c, ha]
    exact .quieto
  · have ha : (Ingreso.cupo ⟨k, c⟩).admitidos = k'.admitidos + 1 := by
      have := h.admitidos
      simp only [Ingreso.cupo]
      omega
    refine ⟨h.mListNew, ?_⟩
    rw [h.cupo hr c]
    exact .muerte ha

theorem MuereNuevo.cupo (h : MuereNuevo k k') (hr : k.respondidas ≤ k.memoria.length)
    (c : Creacion) : PasoDeCupo c k k' := by
  obtain ⟨a, q, b, hl, h⟩ := h
  have ha : k'.admitidos = k.admitidos := by
    have h₁ := h.admitidos
    have h₂ : (k.conLista .new (a ++ b)).admitidos = k.admitidos :=
      Familia.peso_update_of_notMem (by simp) _
    omega
  have hn : (Ingreso.cupo ⟨k, c⟩).nuevos = (a ++ b).length + 1 := by
    simp [Ingreso.cupo, hl]
    omega
  have hc : Ingreso.cupo ⟨k.conLista .new (a ++ b), c⟩
      = { Ingreso.cupo ⟨k, c⟩ with nuevos := (a ++ b).length } := by
    simp [Ingreso.cupo, Nucleo.conLista, Nucleo.sinResponder, Nucleo.admitidos,
      Familia.peso_update_of_notMem]
  refine ⟨h.mListNew, ?_⟩
  rw [h.cupo (by exact hr) c, hc, ha]
  exact .muerteNuevo hn

/-- The kernel after it handles an answer of memory. -/
def Nucleo.respondida (k : Nucleo) (m : AMemoria) : Nucleo :=
  { atenderMemoria k m with respondidas := k.respondidas + 1 }

/-- It was the answer to the first request without one. -/
theorem sinResponder_eq {m : AMemoria} (h : k.memoria[k.respondidas]? = some m) :
    k.sinResponder = m :: (k.respondida m).sinResponder := by
  have hm' : (k.respondida m).memoria = k.memoria := by cases m <;> rfl
  obtain ⟨hlt, hm⟩ := List.getElem?_eq_some_iff.1 h
  rw [Nucleo.sinResponder, Nucleo.sinResponder, List.drop_eq_getElem_cons hlt, hm, hm']
  rfl

theorem memoria_cupo {m : AMemoria} (h : k.memoria[k.respondidas]? = some m) (c : Creacion) :
    (Ingreso.cupo ⟨k, c⟩).Paso (Ingreso.cupo ⟨k.respondida m, c⟩) := by
  have hs := sinResponder_eq h
  cases m with
  | nuevoProceso pid =>
      have h₁ : k.sinResponder.countP AMemoria.esNuevo
          = (k.respondida (.nuevoProceso pid)).sinResponder.countP AMemoria.esNuevo + 1 := by
        rw [hs, List.countP_cons_of_pos (AMemoria.esNuevo_nuevoProceso pid)]
      have h₂ : k.sinResponder.countP (fun m => !m.esNuevo)
          = (k.respondida (.nuevoProceso pid)).sinResponder.countP (fun m => !m.esNuevo) := by
        rw [hs, List.countP_cons_of_neg (by simp)]
      have hpaso := Cupo.Paso.creado (c := Ingreso.cupo ⟨k, c⟩) h₁
      simp only [Ingreso.cupo, h₂] at hpaso ⊢
      exact hpaso
  | finalizarProceso pid =>
      have h₁ : k.sinResponder.countP (fun m => !m.esNuevo)
          = (k.respondida (.finalizarProceso pid)).sinResponder.countP (fun m => !m.esNuevo)
            + 1 := by
        rw [hs, List.countP_cons_of_pos (by simp)]
      have h₂ : k.sinResponder.countP AMemoria.esNuevo
          = (k.respondida (.finalizarProceso pid)).sinResponder.countP AMemoria.esNuevo := by
        rw [hs, List.countP_cons_of_neg (by simp)]
      have hpaso := Cupo.Paso.terminado (c := Ingreso.cupo ⟨k, c⟩) h₁
      simp only [Ingreso.cupo, h₂] at hpaso ⊢
      exact hpaso

/-- `mover_a_ready` finds NEW empty and leaves `m_list_NEW` locked. -/
structure PasadaVacia (k k' : Nucleo) : Prop where
  largo : k.largo = .esperaPlanificacion
  abierta : k.mListNew = false
  nuevos : k.listas .new = []
  eq : k' = { k with mListNew := true, largo := .esperaCreacion }

theorem moverAReady_cupo {c : Creacion} (h : moverAReady k = .ok k') :
    PasoDeCupo c k k' ∨ PasadaVacia k k' := by
  have hcuenta : (Ingreso.cupo ⟨k, c⟩).admitidos = (k.listas .ready).length
      + (k.listas .running).length + (k.listas .blocked).length + (k.listas .auxiliar).length :=
    admitidos_eq k
  have hlargo : (Ingreso.cupo ⟨k, c⟩).largo = k.largo := rfl
  unfold moverAReady at h
  split at h
  · rename_i hf
    obtain ⟨hs, h⟩ := exigir_bind_eq_ok.1 h
    cases h
    obtain ⟨n, hn⟩ := Nat.exists_eq_succ_of_ne_zero hs.ne'
    have hpaso := Cupo.Paso.tomaCreacion (hlargo.trans hf) hn
    rw [show n = k.sem.procesoSeCreoEnMemoria - 1 by omega] at hpaso
    exact .inl ⟨rfl, hpaso⟩
  · rename_i hf
    obtain ⟨hs, h⟩ := exigir_bind_eq_ok.1 h
    obtain ⟨n, hn⟩ := Nat.exists_eq_succ_of_ne_zero hs.ne'
    have hm : n = k.sem.gradoMultiprogramacion - 1 := by omega
    simp only at h
    split at h
    · rename_i hg
      cases h
      have hpaso := Cupo.Paso.descarte (hlargo.trans hf) hn
        (by rw [hcuenta]; exact_mod_cast hg)
      rw [hm] at hpaso
      exact .inl ⟨rfl, hpaso⟩
    · rename_i hg
      cases h
      have hpaso := Cupo.Paso.tomaGrado (hlargo.trans hf) hn
        (by rw [hcuenta]; exact_mod_cast not_le.1 hg)
      rw [hm] at hpaso
      exact .inl ⟨rfl, hpaso⟩
  · rename_i hf
    obtain ⟨hs, h⟩ := exigir_bind_eq_ok.1 h
    obtain ⟨hcerrojo, h⟩ := exigir_bind_eq_ok.1 h
    split at h
    · rename_i hnew
      cases h
      exact .inr ⟨hf, hcerrojo, hnew, rfl⟩
    · rename_i q new hnew
      cases h
      have hn : (Ingreso.cupo ⟨k, c⟩).nuevos = new.length + 1 := by
        simp [Ingreso.cupo, hnew]
      refine .inl ⟨rfl, ?_⟩
      convert Cupo.Paso.admision (hlargo.trans hf) hn using 1
      simp [Ingreso.cupo, Nucleo.conLista, Nucleo.actualizarEstadoPcb, Nucleo.sinResponder,
        Nucleo.admitidos, Familia.peso_agregar Lista.admitidas_nodup,
        Familia.peso_update_of_notMem]

theorem pasadaVacia_of_nil (hf : k.largo = .esperaPlanificacion) (hn : k.listas .new = [])
    (h : moverAReady k = .ok k') : PasadaVacia k k' := by
  rw [moverAReady, hf] at h
  obtain ⟨-, h⟩ := exigir_bind_eq_ok.1 h
  obtain ⟨habierta, h⟩ := exigir_bind_eq_ok.1 h
  rw [hn] at h
  cases h
  exact ⟨hf, habierta, hn, rfl⟩

/-- The steps of the kernel are steps of the balance, or an empty pass. -/
theorem manejar_cupo {e : Evento} {c : Creacion} (hU : Unica k.vista) (hc : e.constante)
    (hr : k.respondidas ≤ k.memoria.length) (he : admite k e) (h : manejar k e = .ok k') :
    PasoDeCupo c k k' ∨ e = .largo ∧ PasadaVacia k k' := by
  by_cases hd : e.deAdmision
  · cases e with
    | memoria m =>
        cases h
        refine .inl ⟨?_, memoria_cupo he c⟩
        cases m <;> rfl
    | largo => exact (moverAReady_cupo h).imp_right fun hv => ⟨rfl, hv⟩
    | _ => exact hd.elim
  · rcases manejar_traspaso hU hc hd he h with h' | h'
    · exact .inl (h'.cupo hr c)
    · exact .inl (h'.cupo hr c)

/-! ### What the handlers leave to admission -/

/-- Memory answers no more than it was asked, planning is not stopped, and nothing is put in an
empty NEW. -/
structure Resguardo (k k' : Nucleo) : Prop where
  respondidas : k'.respondidas ≤ k'.memoria.length
  planificacionLargo : k.sem.planificacionLargo ≤ k'.sem.planificacionLargo
  nuevos : k.listas .new = [] → k'.listas .new = []

theorem Traspaso.resguardo {d : ℤ} {pids : List ℕ} (h : Traspaso d pids k k')
    (hr : k.respondidas ≤ k.memoria.length) : Resguardo k k' where
  respondidas := by
    rw [h.respondidas, h.memoria, List.length_append]
    omega
  planificacionLargo := h.planificacionLargo
  nuevos := h.nuevos.trans

theorem Traslado.resguardo (h : Traslado k k') (hr : k.respondidas ≤ k.memoria.length) :
    Resguardo k k' := by
  rcases h with h | ⟨pid, h⟩
  · exact h.resguardo hr
  · exact h.resguardo hr

theorem MuereNuevo.resguardo (h : MuereNuevo k k') (hr : k.respondidas ≤ k.memoria.length) :
    Resguardo k k' := by
  obtain ⟨a, p, b, hl, h⟩ := h
  have hR := h.resguardo (by exact hr)
  refine ⟨hR.respondidas, hR.planificacionLargo, fun hn => ?_⟩
  rw [hl] at hn
  exact absurd hn (by simp)

theorem moverAReady_resguardo (hr : k.respondidas ≤ k.memoria.length)
    (h : moverAReady k = .ok k') : Resguardo k k' := by
  unfold moverAReady at h
  split at h
  · obtain ⟨_, h⟩ := exigir_bind_eq_ok.1 h
    cases h
    exact ⟨hr, le_rfl, id⟩
  · obtain ⟨_, h⟩ := exigir_bind_eq_ok.1 h
    simp only at h
    split at h
    · cases h
      exact ⟨hr, le_rfl, id⟩
    · cases h
      exact ⟨hr, le_rfl, id⟩
  · obtain ⟨_, h⟩ := exigir_bind_eq_ok.1 h
    obtain ⟨_, h⟩ := exigir_bind_eq_ok.1 h
    split at h
    · cases h
      exact ⟨hr, le_rfl, id⟩
    · rename_i hnew
      cases h
      exact ⟨hr, le_rfl, fun hn => by simp [hnew] at hn⟩

theorem manejar_resguardo {e : Evento} (hU : Unica k.vista) (hc : e.constante)
    (hr : k.respondidas ≤ k.memoria.length) (he : admite k e) (h : manejar k e = .ok k') :
    Resguardo k k' := by
  by_cases hd : e.deAdmision
  · cases e with
    | memoria m =>
        cases h
        have hlt := (List.getElem?_eq_some_iff.1 he).1
        cases m with
        | nuevoProceso pid => exact ⟨hlt, le_rfl, id⟩
        | finalizarProceso pid => exact ⟨hlt, le_rfl, id⟩
    | largo => exact moverAReady_resguardo hr h
    | _ => exact hd.elim
  · rcases manejar_traspaso hU hc hd he h with h' | h'
    · exact h'.resguardo hr
    · exact h'.resguardo hr

/-! ### The invariants -/

/-- How many PCBs of a process there are: in the lists, or on its way to NEW. -/
def Ingreso.veces (a : Ingreso) (x : ℕ) : ℕ :=
  Kernel.veces a.nucleo.listas x + if a.creacion.pcb.map Pcb.pid = some x then 1 else 0

/-- Of every run: every process there is was asked for, once, and `mover_a_ready` took its token of
the degree for a place that is still there. -/
structure Ingreso.Ordenado (a : Ingreso) : Prop where
  enCpu : a.nucleo.listas .running = a.nucleo.enCpu.toList
  cpu : a.nucleo.vista.cpu + (a.nucleo.listas .running).length ≤ 1
  veces_le : ∀ x, a.veces x ≤ 1
  creados : ∀ x, a.nucleo.ultimoPid ≤ x → a.veces x = 0
  respondidas : a.nucleo.respondidas ≤ a.nucleo.memoria.length
  lugar : a.cupo.ConLugar

/-- Of the runs that meet the condition: until `m_list_NEW` is left locked, planning goes on and the
tokens of admission are in balance; after that, nothing is in NEW or will be. -/
structure Ingreso.Saldado (a : Ingreso) : Prop where
  planificacion : a.nucleo.mListNew = false → 0 < a.nucleo.sem.planificacionLargo
  cupo : a.nucleo.mListNew = false → a.cupo.Equilibrado
  nuevos : a.nucleo.mListNew = true → a.nucleo.listas .new = []
  porAgregar : a.nucleo.mListNew = true → ¬a.creacion.PorAgregar

variable {a a' : Ingreso}

theorem Ingreso.Ordenado.unica (h : a.Ordenado) : Unica a.nucleo.vista := by
  refine ⟨h.enCpu, h.cpu, fun x => ?_⟩
  exact (Nat.le_add_right _ _).trans (h.veces_le x)

/-- Every step is a step of the balance, or an empty pass. -/
theorem Ingreso.Ordenado.paso_cupo {e : EventoIngreso} (hO : a.Ordenado)
    (h : sistemaIngreso.paso a e a') :
    (a'.nucleo.mListNew = a.nucleo.mListNew ∧ a.cupo.Paso a'.cupo) ∨
      e = .kernel .largo ∧ PasadaVacia a.nucleo a'.nucleo ∧ a'.creacion = a.creacion := by
  obtain ⟨he, h⟩ := h
  obtain ⟨k, c⟩ := a
  cases e with
  | pedir =>
      obtain rfl : c = .ninguna := Creacion.EsNinguna.eq he
      cases h
      refine .inl ⟨rfl, ?_⟩
      convert Cupo.Paso.pedido (c := Ingreso.cupo ⟨k, .ninguna⟩) using 1
      simp [Ingreso.cupo, pedirProceso, Nucleo.sinResponder, Nucleo.admitidos,
        List.drop_append_of_le_length hO.respondidas]
  | copiar libre =>
      obtain ⟨q, rfl⟩ := Creacion.EsPedida.exists_eq he.1
      cases h
      exact .inl ⟨rfl, .quieto⟩
  | agregar =>
      obtain ⟨q, rfl⟩ := Creacion.PorAgregar.exists_eq he
      cases h
      refine .inl ⟨rfl, ?_⟩
      convert Cupo.Paso.llegada (c := Ingreso.cupo ⟨k, .copiada q true⟩) (n := 0) rfl using 1
      simp [Ingreso.cupo, agregarANew, Nucleo.sinResponder, Nucleo.admitidos,
        Familia.peso_agregar Lista.admitidas_nodup]
  | tomarLargo =>
      simp only [Ingreso.manejar, bind_eq_ok] at h
      obtain ⟨k', hm, h⟩ := h
      cases h
      obtain ⟨-, rfl⟩ := tomarLargo_eq_ok.1 hm
      exact .inl ⟨rfl, .quieto⟩
  | kernel e =>
      obtain ⟨hc, he⟩ := he
      simp only [Ingreso.manejar, bind_eq_ok] at h
      obtain ⟨k', hm, h⟩ := h
      cases h
      rcases manejar_cupo (c := c) hO.unica hc hO.respondidas he hm with h' | ⟨rfl, h'⟩
      · exact .inl ⟨h'.mListNew, h'.paso⟩
      · exact .inr ⟨rfl, h', rfl⟩

/-- A step keeps the order. -/
theorem Ingreso.Ordenado.paso {e : EventoIngreso} (hO : a.Ordenado)
    (h : sistemaIngreso.paso a e a') : a'.Ordenado := by
  have hlugar : a'.cupo.ConLugar := by
    rcases hO.paso_cupo h with ⟨-, hp⟩ | ⟨-, hv, -⟩
    · exact hp.conLugar hO.lugar
    · intro hf
      rw [Ingreso.cupo, hv.eq] at hf
      cases hf
  obtain ⟨he, h⟩ := h
  obtain ⟨k, c⟩ := a
  cases e with
  | pedir =>
      obtain rfl : c = .ninguna := Creacion.EsNinguna.eq he
      cases h
      have hv : ∀ x, Ingreso.veces ⟨(pedirProceso k).2, .pedida (pedirProceso k).1⟩ x
          = Ingreso.veces ⟨k, .ninguna⟩ x + if k.ultimoPid = x then 1 else 0 := by
        intro x
        simp [Ingreso.veces, pedirProceso]
      refine ⟨hO.enCpu, hO.cpu, fun x => ?_, fun x hx => ?_, ?_, hlugar⟩
      · rw [hv]
        split
        · rename_i hx
          rw [hO.creados x hx.le]
        · exact hO.veces_le x
      · have hx : k.ultimoPid < x := hx
        rw [hv, if_neg hx.ne, hO.creados x hx.le]
      · have := hO.respondidas
        simp only [pedirProceso, List.length_append, List.length_singleton] at this ⊢
        omega
  | copiar libre =>
      obtain ⟨q, rfl⟩ := Creacion.EsPedida.exists_eq he.1
      cases h
      exact ⟨hO.enCpu, hO.cpu, hO.veces_le, hO.creados, hO.respondidas, hlugar⟩
  | agregar =>
      obtain ⟨q, rfl⟩ := Creacion.PorAgregar.exists_eq he
      cases h
      have hv : ∀ x, Ingreso.veces ⟨agregarANew k q, .ninguna⟩ x
          = Ingreso.veces ⟨k, .copiada q true⟩ x := by
        intro x
        simp [Ingreso.veces, agregarANew, veces_agregar]
      refine ⟨?_, ?_, fun x => (hv x).trans_le (hO.veces_le x),
        fun x hx => (hv x).trans (hO.creados x hx), hO.respondidas, hlugar⟩
      · simpa [agregarANew] using hO.enCpu
      · simpa [agregarANew, Nucleo.vista] using hO.cpu
  | tomarLargo =>
      simp only [Ingreso.manejar, bind_eq_ok] at h
      obtain ⟨k', hm, h⟩ := h
      cases h
      obtain ⟨-, rfl⟩ := tomarLargo_eq_ok.1 hm
      exact ⟨hO.enCpu, hO.cpu, hO.veces_le, hO.creados, hO.respondidas, hlugar⟩
  | kernel e =>
      obtain ⟨hc, he⟩ := he
      simp only [Ingreso.manejar, bind_eq_ok] at h
      obtain ⟨k', hm, h⟩ := h
      cases h
      have hmov := manejar_movimiento hO.unica he hm
      have hcons : Conservada k.vista k'.vista := by
        rcases hmov.conservada hO.unica with h' | ⟨rfl, -⟩
        · exact h'
        · exact hc.elim
      have hR := manejar_resguardo hO.unica hc hO.respondidas he hm
      have hv : ∀ x, Ingreso.veces ⟨k', c⟩ x = Ingreso.veces ⟨k, c⟩ x :=
        fun x => congrArg (· + _) (hcons.veces x)
      exact ⟨hcons.enCpu, hcons.cpu, fun x => (hv x).trans_le (hO.veces_le x),
        fun x hx => (hv x).trans (hO.creados x (hcons.ultimoPid.ge.trans hx)), hR.respondidas,
        hlugar⟩

theorem ordenado_inicial (config : Config) :
    Ingreso.Ordenado { nucleo := iniciarPlanificacion (iniciar config) } := by
  have hv : ∀ x, Ingreso.veces { nucleo := iniciarPlanificacion (iniciar config) } x = 0 := by
    intro x
    have : Kernel.veces (fun _ => []) x = 0 := veces_eq_zero.2 (by simp)
    simp [Ingreso.veces, iniciarPlanificacion, iniciar, this]
  refine ⟨rfl, ?_, fun x => (hv x).trans_le Nat.one_pos.le, fun x _ => hv x, le_rfl, ?_⟩
  · simp [iniciarPlanificacion, Nucleo.vista, iniciar, initSemaphores, FaseCorto.cpu]
  · intro hf
    cases hf

/-- `mover_a_ready` does not find NEW empty while `crear_proceso` is about to put a PCB in it. -/
def pasadaLimpia (a : Ingreso) : EventoIngreso → Prop
  | .kernel .largo => a.nucleo.largo = .esperaPlanificacion → a.nucleo.listas .new = [] →
      ¬a.creacion.PorAgregar
  | _ => True

instance (a : Ingreso) : DecidablePred (pasadaLimpia a)
  | .kernel .largo => inferInstanceAs (Decidable (_ → _ → _))
  | .pedir | .copiar _ | .agregar | .tomarLargo | .kernel .iniciarProceso
  | .kernel (.finalizarProceso _) | .kernel .iniciarPlanificacion | .kernel .detenerPlanificacion
  | .kernel (.multiprogramacion _) | .kernel (.cpu _ _ _) | .kernel (.interfaz _ _ _)
  | .kernel (.conexionIo _ _) | .kernel (.memoria _) | .kernel (.corto _) | .kernel .reloj =>
      .isTrue trivial

/-- A step of the balance keeps the accounts: with `m_list_NEW` locked, nobody gets to NEW. -/
theorem Ingreso.Saldado.paso_cupo {e : EventoIngreso} (hO : a.Ordenado) (hS : a.Saldado)
    (h : sistemaIngreso.paso a e a') (hl : a'.nucleo.mListNew = a.nucleo.mListNew)
    (hp : a.cupo.Paso a'.cupo) : a'.Saldado := by
  obtain ⟨he, h⟩ := h
  obtain ⟨k, c⟩ := a
  have hcupo : a'.nucleo.mListNew = false → a'.cupo.Equilibrado := fun hm =>
    hp.equilibrado (hS.cupo (hl ▸ hm))
  cases e with
  | pedir =>
      cases h
      exact ⟨hS.planificacion, hcupo, hS.nuevos, fun _ => id⟩
  | copiar libre =>
      obtain ⟨q, rfl⟩ := Creacion.EsPedida.exists_eq he.1
      cases h
      refine ⟨hS.planificacion, hcupo, hS.nuevos, fun hm => ?_⟩
      cases libre with
      | false => exact id
      | true => exact absurd ((he.2 rfl).symm.trans hm) Bool.false_ne_true
  | agregar =>
      obtain ⟨q, rfl⟩ := Creacion.PorAgregar.exists_eq he
      cases h
      exact ⟨hS.planificacion, hcupo, fun hm => absurd he (hS.porAgregar hm), fun _ => id⟩
  | tomarLargo =>
      simp only [Ingreso.manejar, bind_eq_ok] at h
      obtain ⟨k', hm, h⟩ := h
      cases h
      obtain ⟨-, rfl⟩ := tomarLargo_eq_ok.1 hm
      have he : k.mListNew = true := he
      refine ⟨fun hm => ?_, hcupo, hS.nuevos, hS.porAgregar⟩
      exact absurd (hm.symm.trans he) Bool.false_ne_true
  | kernel e =>
      obtain ⟨hc, he⟩ := he
      simp only [Ingreso.manejar, bind_eq_ok] at h
      obtain ⟨k', hm, h⟩ := h
      cases h
      have hR := manejar_resguardo hO.unica hc hO.respondidas he hm
      have hl : k'.mListNew = k.mListNew := hl
      exact ⟨fun hm => (hS.planificacion (hl ▸ hm)).trans_le hR.planificacionLargo, hcupo,
        fun hm => hR.nuevos (hS.nuevos (hl ▸ hm)), fun hm => hS.porAgregar (hl ▸ hm)⟩

/-- A step that meets the condition keeps the accounts. -/
theorem Ingreso.Saldado.paso {e : EventoIngreso} (hO : a.Ordenado) (hS : a.Saldado)
    (hC : pasadaLimpia a e) (h : sistemaIngreso.paso a e a') : a'.Saldado := by
  rcases hO.paso_cupo h with ⟨hl, hp⟩ | ⟨rfl, hv, hcreacion⟩
  · exact hS.paso_cupo hO h hl hp
  · have hm : a'.nucleo.mListNew = true := by rw [hv.eq]
    refine ⟨fun hm' => ?_, fun hm' => ?_, fun _ => ?_, fun _ => ?_⟩
    · exact absurd (hm'.symm.trans hm) Bool.false_ne_true
    · exact absurd (hm'.symm.trans hm) Bool.false_ne_true
    · rw [hv.eq]
      exact hv.nuevos
    · rw [hcreacion]
      exact hC hv.largo hv.nuevos

theorem saldado_inicial (config : Config) :
    Ingreso.Saldado { nucleo := iniciarPlanificacion (iniciar config) } := by
  refine ⟨fun _ => Nat.one_pos, fun _ => ⟨?_, ?_⟩, fun _ => rfl, fun _ => id⟩
  · simp [Cupo.holguraCreacion, Ingreso.cupo, iniciarPlanificacion, iniciar, initSemaphores,
      Nucleo.sinResponder, FaseLargo.creaciones]
  · simp [Cupo.holguraGrado, Ingreso.cupo, iniciarPlanificacion, iniciar, initSemaphores,
      Nucleo.sinResponder, FaseLargo.lugares, Nucleo.admitidos, Lista.admitidas]

/-! ### Admission -/

/-- `mover_a_ready` is blocked on the semaphore it waits for. -/
def Nucleo.largoEspera (k : Nucleo) : Prop :=
  match k.largo with
  | .esperaCreacion => k.sem.procesoSeCreoEnMemoria = 0
  | .esperaGrado => k.sem.gradoMultiprogramacion = 0
  | .esperaPlanificacion => k.sem.planificacionLargo = 0

/-- All messages are handled, `mover_a_ready` is blocked, NEW is not empty, and the lists of the
degree are not full. -/
structure Ingreso.Trabado (a : Ingreso) : Prop where
  respondidas : a.nucleo.respondidas = a.nucleo.memoria.length
  espera : a.nucleo.largoEspera
  nuevos : a.nucleo.listas .new ≠ []
  lugar : ((a.nucleo.listas .ready).length + (a.nucleo.listas .auxiliar).length
    + (a.nucleo.listas .running).length + (a.nucleo.listas .blocked).length : ℤ)
      < a.nucleo.config.gradoMultiprogramacion

/-- Stuck in the kernel is stuck in the balance. -/
theorem Ingreso.Trabado.cupo (h : a.Trabado) (hp : 0 < a.nucleo.sem.planificacionLargo) :
    a.cupo.Trabado := by
  have hs : a.nucleo.sinResponder = [] := List.drop_of_length_le h.respondidas.ge
  have hespera := h.espera
  unfold Nucleo.largoEspera at hespera
  refine ⟨?_, ?_, ?_, List.length_pos_iff.2 h.nuevos, ?_⟩
  · rw [Ingreso.cupo, hs]
    rfl
  · rw [Ingreso.cupo, hs]
    rfl
  · split at hespera
    · exact .inl ⟨‹_›, hespera⟩
    · exact .inr ⟨‹_›, hespera⟩
    · omega
  · have h₁ := h.lugar
    have h₂ := admitidos_eq a.nucleo
    simp only [Ingreso.cupo]
    omega

theorem Ingreso.Saldado.not_trabado (h : a.Saldado) : ¬a.Trabado := by
  intro ht
  cases hm : a.nucleo.mListNew with
  | false => exact (h.cupo hm).not_trabado (ht.cupo (h.planificacion hm))
  | true => exact ht.nuevos (h.nuevos hm)

/-! ### Behind the lock -/

/-- The state after an event, for runs that are computed. -/
def Ingreso.intentar (C : Ingreso → EventoIngreso → Prop) [∀ a e, Decidable (C a e)] (a : Ingreso)
    (e : EventoIngreso) : Option Ingreso :=
  if C a e ∧ a.admite e then (a.manejar e).toOption else none

theorem Ingreso.intentar_eq_some {C : Ingreso → EventoIngreso → Prop} [∀ a e, Decidable (C a e)]
    {e : EventoIngreso} :
    Ingreso.intentar C a e = some a' ↔ C a e ∧ sistemaIngreso.paso a e a' := by
  unfold Ingreso.intentar
  constructor
  · intro h
    split at h
    · rename_i hC
      refine ⟨hC.1, hC.2, ?_⟩
      cases hm : a.manejar e with
      | error c =>
          rw [hm] at h
          cases h
      | ok a₁ =>
          rw [hm] at h
          cases h
          rfl
    · cases h
  · rintro ⟨hC, he, h⟩
    rw [if_pos ⟨hC, he⟩, h]
    rfl

/-- `m_list_NEW` is left locked with a PCB in NEW and a place for it. -/
structure Ingreso.Encerrado (a : Ingreso) : Prop where
  mListNew : a.nucleo.mListNew = true
  respondidas : a.nucleo.respondidas ≤ a.nucleo.memoria.length
  nuevos : a.nucleo.listas .new ≠ []
  admitidos : a.nucleo.admitidos < a.nucleo.config.gradoMultiprogramacion

/-- The answers of memory that are to come, and the tokens there are. -/
def Ingreso.restante (a : Ingreso) : ℕ :=
  2 * (a.nucleo.memoria.length - a.nucleo.respondidas) + a.nucleo.sem.procesoSeCreoEnMemoria
    + a.nucleo.sem.gradoMultiprogramacion + a.nucleo.sem.planificacionLargo

/-- What is left to happen when nobody starts anything else. -/
def EventoIngreso.restante : EventoIngreso → Prop
  | .tomarLargo | .kernel (.memoria _) | .kernel .largo => True
  | _ => False

/-- Nothing of that opens the lock, and there is only so much of it. -/
theorem Ingreso.Encerrado.paso {e : EventoIngreso} (hE : a.Encerrado) (hr : e.restante)
    (h : sistemaIngreso.paso a e a') : a'.Encerrado ∧ a'.restante < a.restante := by
  obtain ⟨he, h⟩ := h
  obtain ⟨k, c⟩ := a
  cases e with
  | pedir => exact hr.elim
  | copiar libre => exact hr.elim
  | agregar => exact hr.elim
  | tomarLargo =>
      simp only [Ingreso.manejar, bind_eq_ok] at h
      obtain ⟨k', hm, h⟩ := h
      cases h
      obtain ⟨hs, rfl⟩ := tomarLargo_eq_ok.1 hm
      refine ⟨⟨hE.mListNew, hE.respondidas, hE.nuevos, hE.admitidos⟩, ?_⟩
      simp only [Ingreso.restante]
      omega
  | kernel e =>
      simp only [Ingreso.manejar, bind_eq_ok] at h
      obtain ⟨k', hm, h⟩ := h
      cases h
      cases e with
      | memoria m =>
          cases hm
          have hlt : k.respondidas < k.memoria.length := (List.getElem?_eq_some_iff.1 he.2).1
          cases m with
          | nuevoProceso pid =>
              refine ⟨⟨hE.mListNew, hlt, hE.nuevos, hE.admitidos⟩, ?_⟩
              simp only [Ingreso.restante, atenderMemoria]
              omega
          | finalizarProceso pid =>
              refine ⟨⟨hE.mListNew, hlt, hE.nuevos, hE.admitidos⟩, ?_⟩
              simp only [Ingreso.restante, atenderMemoria]
              omega
      | largo =>
          simp only [Kernel.manejar, moverAReady] at hm
          split at hm
          · obtain ⟨hs, hm⟩ := exigir_bind_eq_ok.1 hm
            cases hm
            refine ⟨⟨hE.mListNew, hE.respondidas, hE.nuevos, hE.admitidos⟩, ?_⟩
            simp only [Ingreso.restante]
            omega
          · obtain ⟨hs, hm⟩ := exigir_bind_eq_ok.1 hm
            split at hm
            · cases hm
              refine ⟨⟨hE.mListNew, hE.respondidas, hE.nuevos, hE.admitidos⟩, ?_⟩
              simp only [Ingreso.restante]
              omega
            · cases hm
              refine ⟨⟨hE.mListNew, hE.respondidas, hE.nuevos, hE.admitidos⟩, ?_⟩
              simp only [Ingreso.restante]
              omega
          · obtain ⟨-, hm⟩ := exigir_bind_eq_ok.1 hm
            obtain ⟨habierta, -⟩ := exigir_bind_eq_ok.1 hm
            exact absurd (habierta.symm.trans hE.mListNew) Bool.false_ne_true
      | _ => exact hr.elim

/-- Where `mover_a_ready` is not blocked it takes a step, `m_list_NEW` apart. -/
theorem exists_moverAReady (h : ¬k.largoEspera) (hf : k.largo ≠ .esperaPlanificacion) :
    ∃ k', moverAReady k = .ok k' := by
  unfold Nucleo.largoEspera at h
  unfold moverAReady
  split
  · rename_i hl
    rw [hl] at h
    exact ⟨_, exigir_bind_eq_ok.2 ⟨Nat.pos_of_ne_zero h, rfl⟩⟩
  · rename_i hl
    rw [hl] at h
    simp only
    split
    · exact ⟨_, exigir_bind_eq_ok.2 ⟨Nat.pos_of_ne_zero h, rfl⟩⟩
    · exact ⟨_, exigir_bind_eq_ok.2 ⟨Nat.pos_of_ne_zero h, rfl⟩⟩
  · rename_i hl
    exact absurd hl hf

/-- When all of it has happened, admission is stuck. -/
theorem Ingreso.Encerrado.trabado (hE : a.Encerrado)
    (hfin : ∀ e : EventoIngreso, e.restante → ∀ a', ¬sistemaIngreso.paso a e a') : a.Trabado := by
  obtain ⟨k, c⟩ := a
  refine ⟨?_, ?_, hE.nuevos, ?_⟩
  · by_contra hne
    have hlt := lt_of_le_of_ne hE.respondidas hne
    exact hfin (.kernel (.memoria k.memoria[k.respondidas])) trivial _
      ⟨⟨trivial, List.getElem?_eq_getElem hlt⟩, rfl⟩
  · have hplan : k.sem.planificacionLargo = 0 := by
      by_contra hne
      have hm := tomarLargo_eq_ok.2 ⟨Nat.pos_of_ne_zero hne, rfl⟩
      exact hfin .tomarLargo trivial ⟨_, c⟩ ⟨hE.mListNew, bind_eq_ok.2 ⟨_, hm, rfl⟩⟩
    by_contra hespera
    have hf : k.largo ≠ .esperaPlanificacion := by
      intro hf
      exact hespera (by rw [Nucleo.largoEspera, hf]; exact hplan)
    obtain ⟨k', hm⟩ := exists_moverAReady hespera hf
    exact hfin (.kernel .largo) trivial ⟨k', c⟩
      ⟨⟨trivial, trivial⟩, bind_eq_ok.2 ⟨k', hm, rfl⟩⟩
  · have hadm := hE.admitidos
    rw [admitidos_eq] at hadm
    push_cast at hadm
    simp only
    omega

theorem Ingreso.Encerrado.exists_trabado (hE : a.Encerrado) :
    ∃ a', Transicion.Alcanzable (sistemaIngreso.desde a) a' ∧ a'.Trabado := by
  have hf : ∀ (b : Ingreso) e b', b.intentar (fun _ _ => True) e = some b' →
      True ∧ (sistemaIngreso.desde a).paso b e b' := fun _ _ _ => Ingreso.intentar_eq_some.1
  obtain ⟨es, a', -, hes, hE', hfin⟩ := Transicion.exists_ejecutar_fin
    (fun b e b' hE hr h => Ingreso.Encerrado.paso hE hr (hf b e b' h).2) hE
  refine ⟨a', ?_, hE'.trabado fun e he a'' h => ?_⟩
  · exact (Transicion.corrida_of_ejecutar hf (.inicio rfl) hes).alcanzableCon
  · have hsig := (Ingreso.intentar_eq_some (C := fun _ _ => True)).2 ⟨trivial, h⟩
    rw [hfin e he] at hsig
    cases hsig

theorem alcanzable_agregar {q : Pcb} :
    Transicion.AlcanzableCon (sistemaIngreso.desde ⟨k, .copiada q true⟩) (fun _ _ => True)
      ⟨agregarANew k q, .ninguna⟩ :=
  .paso (e := .agregar) (.inicio rfl) trivial ⟨trivial, rfl⟩

/-- An empty pass while a PCB is about to be put in NEW: it is put there behind the lock. -/
theorem Ingreso.Ordenado.exists_trabado {e : EventoIngreso} (hO : a.Ordenado)
    (hC : ¬pasadaLimpia a e) (h : sistemaIngreso.paso a e a') :
    ∃ a'', Transicion.Alcanzable (sistemaIngreso.desde a') a'' ∧ a''.Trabado := by
  cases e with
  | kernel e =>
      cases e with
      | largo =>
          simp only [pasadaLimpia, Classical.not_imp, not_not] at hC
          obtain ⟨hf, hnew, hagregar⟩ := hC
          obtain ⟨k, c⟩ := a
          obtain ⟨q, rfl⟩ := Creacion.PorAgregar.exists_eq hagregar
          obtain ⟨-, h⟩ := h
          simp only [Ingreso.manejar, bind_eq_ok] at h
          obtain ⟨k', hm, h⟩ := h
          cases h
          have hv := pasadaVacia_of_nil hf hnew hm
          have hE : Ingreso.Encerrado ⟨agregarANew k' q, .ninguna⟩ := by
            rw [hv.eq]
            refine ⟨rfl, hO.respondidas, by simp [agregarANew], ?_⟩
            have hlugar : (k.admitidos : ℤ) < k.config.gradoMultiprogramacion := hO.lugar hf
            simpa [agregarANew, Nucleo.admitidos, Familia.peso_agregar Lista.admitidas_nodup]
              using hlugar
          obtain ⟨a'', ha, ht⟩ := hE.exists_trabado
          exact ⟨a'', alcanzable_agregar.seguir ha, ht⟩
      | _ => exact absurd trivial hC
  | _ => exact absurd trivial hC

/-- In every run in which `mover_a_ready` does not find NEW empty while a PCB is about to be put in
it, admission is never stuck; and where it does, it can get stuck. -/
theorem admision_no_se_traba (h : Transicion.AlcanzableCon sistemaIngreso pasadaLimpia a) :
    ¬a.Trabado ∧ ∀ e a', ¬pasadaLimpia a e → sistemaIngreso.paso a e a' →
      ∃ a'', Transicion.Alcanzable (sistemaIngreso.desde a') a'' ∧ a''.Trabado := by
  have hI : a.Ordenado ∧ a.Saldado := by
    refine Transicion.AlcanzableCon.invariante (I := fun a => a.Ordenado ∧ a.Saldado) ?_ ?_ h
    · rintro _ ⟨config, -, rfl⟩
      exact ⟨ordenado_inicial config, saldado_inicial config⟩
    · intro a e a' hI hC hs
      exact ⟨hI.1.paso hs, hI.2.paso hI.1 hC hs⟩
  exact ⟨hI.2.not_trabado, fun e a' hC hs => hI.1.exists_trabado hC hs⟩

/-! ### Runs -/

instance (k : Nucleo) : Decidable k.largoEspera :=
  match h : k.largo with
  | .esperaCreacion =>
      decidable_of_iff (k.sem.procesoSeCreoEnMemoria = 0) (by rw [Nucleo.largoEspera, h])
  | .esperaGrado =>
      decidable_of_iff (k.sem.gradoMultiprogramacion = 0) (by rw [Nucleo.largoEspera, h])
  | .esperaPlanificacion =>
      decidable_of_iff (k.sem.planificacionLargo = 0) (by rw [Nucleo.largoEspera, h])

instance (a : Ingreso) : Decidable a.Trabado :=
  decidable_of_iff
    (a.nucleo.respondidas = a.nucleo.memoria.length ∧ a.nucleo.largoEspera ∧
      a.nucleo.listas .new ≠ [] ∧
      ((a.nucleo.listas .ready).length + (a.nucleo.listas .auxiliar).length
        + (a.nucleo.listas .running).length + (a.nucleo.listas .blocked).length : ℤ)
        < a.nucleo.config.gradoMultiprogramacion)
    ⟨fun ⟨h₁, h₂, h₃, h₄⟩ => ⟨h₁, h₂, h₃, h₄⟩,
      fun h => ⟨h.respondidas, h.espera, h.nuevos, h.lugar⟩⟩

/-- One processor, FIFO, and one place. -/
def unLugar : Config := ⟨.fifo, 10, 1, []⟩

/-- The state in which a list of events ends under one place. -/
def correrIngreso (C : Ingreso → EventoIngreso → Prop) [∀ a e, Decidable (C a e)]
    (es : List EventoIngreso)
    (h : (Transicion.ejecutar (Ingreso.intentar C)
      { nucleo := iniciarPlanificacion (iniciar unLugar) } es).isSome = true) : Ingreso :=
  Transicion.estadoTras (Ingreso.intentar C) _ es h

theorem alcanzable_correrIngreso {C : Ingreso → EventoIngreso → Prop} [∀ a e, Decidable (C a e)]
    {es : List EventoIngreso}
    (h : (Transicion.ejecutar (Ingreso.intentar C)
      { nucleo := iniciarPlanificacion (iniciar unLugar) } es).isSome = true) :
    Transicion.AlcanzableCon sistemaIngreso C (correrIngreso C es h) :=
  Transicion.alcanzableCon_estadoTras (fun _ _ _ => Ingreso.intentar_eq_some.1)
    ⟨unLugar, by decide, rfl⟩ h

/-- INICIAR_PROCESO, without a thread at `m_list_NEW` to be in its way. -/
def iniciarUno (pid : ℕ) : List EventoIngreso :=
  [.pedir, .copiar true, .agregar, .kernel (.memoria (.nuevoProceso pid))]

/-- A process is admitted and takes the only place, and one of the two that wait for it is killed
in NEW: the token its death posts is discarded, and that of the first admits the other. -/
def muerteEnNew : Ingreso :=
  correrIngreso pasadaLimpia
    (iniciarUno 1 ++ [.kernel .largo, .kernel .largo, .kernel .largo] ++ iniciarUno 2
      ++ iniciarUno 3 ++
      [.kernel .largo, .kernel (.finalizarProceso 2), .kernel (.memoria (.finalizarProceso 2)),
        .kernel .largo, .kernel (.finalizarProceso 1), .kernel (.memoria (.finalizarProceso 1)),
        .kernel .largo, .kernel .largo])
    (by decide +kernel)

theorem admision_no_se_traba_muerteEnNew : ¬muerteEnNew.Trabado :=
  (admision_no_se_traba (alcanzable_correrIngreso _)).1

/-- Memory answers and `mover_a_ready` finds NEW empty between the copy of `m_list_NEW` and the
`list_add` of `crear_proceso`. -/
def pasadaTemprana : Ingreso :=
  correrIngreso (fun _ _ => True)
    [.pedir, .copiar true, .kernel (.memoria (.nuevoProceso 1)), .kernel .largo, .kernel .largo,
      .kernel .largo, .agregar]
    (by decide +kernel)

/-- The process stays in NEW with nobody else in the kernel. -/
theorem admision_se_traba :
    ¬∀ a, Transicion.Alcanzable sistemaIngreso a → ¬a.Trabado := by
  intro h
  exact absurd (by decide +kernel) (h pasadaTemprana (alcanzable_correrIngreso _))

end Kernel
