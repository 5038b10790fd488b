/-
**What a handler may stop for, and what it leaves alone.**

Function by function: as long as the process a function is about is where it looks for it, the
function uses no null pointer; as long as the queue of a resource covers the instances it lacks, it
takes nobody out of an empty queue; and where it reaches its end, the threads are where they were
and nothing was sent to the CPU, but by the functions that do just that.

Main definitions:

* `Kernel.Ajeno` — what the functions of the planner leave alone;
* `Kernel.Hilada` — what the threads remember is about processes that exist;
* `Kernel.Vivos` — the requests to the interfaces are about processes of BLOCKED;
* `Kernel.Efecto` — what a handler does to the threads and sends to the CPU.

Main results:

* `Kernel.liberarRecursosTomados_cumple`, `Kernel.eliminarProceso_cumple` — the functions that
  several handlers share;
* `Kernel.manejar_cumple` — the handling of an event;
* `Kernel.Efecto.hilada` — the threads after an event.
-/

import TpSisop.KernelColas
import TpSisop.KernelSemaforos

set_option relaxedAutoImplicit false
set_option autoImplicit false

namespace Kernel

open Resultado (Cumple)

variable {k k' k₁ : Nucleo} {p q : Pcb} {ahora : ℤ} {falla : Corte → Prop}

/-! ### The functions of the planner -/

/-- The threads, and what was sent to the CPU, are as they were; at most nobody runs any more. -/
structure Ajeno (k k' : Nucleo) : Prop where
  corto : k'.corto = k.corto
  estados : k'.estadosProcesos.length = k.estadosProcesos.length
  ultimoPid : k'.ultimoPid = k.ultimoPid
  enCpu : k'.enCpu = k.enCpu
  dispatch : k'.dispatch = k.dispatch
  interrupt : k'.interrupt = k.interrupt
  pidEjecutando : k'.pidEjecutando = k.pidEjecutando ∨ k'.pidEjecutando = 0

theorem Ajeno.refl (k : Nucleo) : Ajeno k k := ⟨rfl, rfl, rfl, rfl, rfl, rfl, .inl rfl⟩

theorem Ajeno.trans (h₁ : Ajeno k k₁) (h₂ : Ajeno k₁ k') : Ajeno k k' where
  corto := h₂.corto.trans h₁.corto
  estados := h₂.estados.trans h₁.estados
  ultimoPid := h₂.ultimoPid.trans h₁.ultimoPid
  enCpu := h₂.enCpu.trans h₁.enCpu
  dispatch := h₂.dispatch.trans h₁.dispatch
  interrupt := h₂.interrupt.trans h₁.interrupt
  pidEjecutando := by
    rcases h₂.pidEjecutando with h | h
    · rw [h]
      exact h₁.pidEjecutando
    · exact .inr h

theorem actualizarEstadoPcb_ajeno (k : Nucleo) (p : Pcb) (e : EstadoCode) (l : Lista) :
    Ajeno k (k.actualizarEstadoPcb p e l) :=
  ⟨rfl, List.length_set, rfl, rfl, rfl, rfl, .inl rfl⟩

theorem conLista_ajeno (k : Nucleo) (l : Lista) (xs : List Pcb) : Ajeno k (k.conLista l xs) :=
  ⟨rfl, rfl, rfl, rfl, rfl, rfl, .inl rfl⟩

theorem conSem_ajeno (k : Nucleo) (s : Semaforos) : Ajeno k { k with sem := s } :=
  ⟨rfl, rfl, rfl, rfl, rfl, rfl, .inl rfl⟩

theorem conInterfaces_ajeno (k : Nucleo) (d : Coleccion.Diccionario Interfaz) :
    Ajeno k { k with interfaces := d } :=
  ⟨rfl, rfl, rfl, rfl, rfl, rfl, .inl rfl⟩

theorem ponerRecurso_ajeno (k : Nucleo) (n : String) (r : Recurso) : Ajeno k (k.ponerRecurso n r) :=
  ⟨rfl, rfl, rfl, rfl, rfl, rfl, .inl rfl⟩

theorem alistar_ajeno (k : Nucleo) (p : Pcb) : Ajeno k (k.alistar p) := by
  unfold Nucleo.alistar
  split
  · exact (actualizarEstadoPcb_ajeno ..).trans (conSem_ajeno ..)
  · exact (actualizarEstadoPcb_ajeno ..).trans (conSem_ajeno ..)

theorem salir_ajeno (k : Nucleo) (p : Pcb) : Ajeno k (k.salir p) :=
  ⟨rfl, List.length_set, rfl, rfl, rfl, rfl, .inl rfl⟩

section

variable (hF : ¬falla .espera)

include hF

theorem desbloquearProceso_cumple {pid : ℕ}
    (h : falla .nulo → ∃ p ∈ k.listas .blocked, p.pid = pid) :
    Cumple falla (Ajeno k) (desbloquearProceso k pid) := by
  refine (exigir_cumple hF).bind fun _ _ _ => (obtenido_cumple fun hc => ?_).bind fun r _ _ => ?_
  · obtain ⟨p, hp, hpid⟩ := h hc
    exact fun hs => sacar_eq_none.1 hs p hp hpid
  · exact (conLista_ajeno ..).trans (alistar_ajeno ..)

theorem bloquearProceso_cumple {esIo : Bool}
    (h : falla .nulo → ∃ q ∈ k.listas .running, q.pid = p.pid) :
    Cumple falla (Ajeno k) (bloquearProceso k p esIo ahora) := by
  refine (exigir_cumple hF).bind fun _ _ _ => (obtenido_cumple fun hc => ?_).bind fun r _ _ => ?_
  · obtain ⟨q, hq, hpid⟩ := h hc
    exact fun hs => sacar_eq_none.1 hs q hq hpid
  · exact ⟨rfl, List.length_set, rfl, rfl, rfl, rfl, .inr rfl⟩

theorem recursoIncrementar_cumple {recurso : String}
    (hS : falla .indefinido → Saldada k.vista recurso) :
    Cumple falla (Ajeno k) (recursoIncrementar k recurso) := by
  refine recursoIncrementar_regla (fun hc r hr hi hq => ?_) (.refl k)
    (ponerRecurso_ajeno k recurso) ?_
  · have := hS hc r hr
    rw [hq, List.length_nil] at this
    omega
  · intro r a p b hl
    refine (desbloquearProceso_cumple hF fun _ => ?_).mono fun k' _ h' => ?_
    · exact ⟨p.otorgar recurso, by simp [Nucleo.conLista], rfl⟩
    · exact ((ponerRecurso_ajeno ..).trans (conLista_ajeno ..)).trans h'

end

/-- No resource goes away. -/
theorem Incremento.existe {v v' : Vista} {m n : String} (h : Incremento v m v')
    (hn : v.recursos.valor n ≠ none) : v'.recursos.valor n ≠ none := by
  have hponer : ∀ r, (v.recursos.poner m r).valor n ≠ none := by
    intro r
    by_cases hm : n = m
    · simp [hm]
    · simpa [hm] using hn
  cases h with
  | ausente h => exact hn
  | libre hr hi => exact hponer _
  | huerfano hr hi hq hb => exact hponer _
  | entrega hr hi hq hb hal =>
      cases hal with
      | mk hl hvrr => exact hponer _

section

variable (hF : ¬falla .espera)

include hF

theorem liberarTomados_cumple {ts : List String}
    (hS : falla .indefinido → ∀ n, Saldada k.vista n)
    (ht : falla .nulo → ∀ t ∈ ts, k.recursos.valor t ≠ none) :
    Cumple falla (Ajeno k) (liberarTomados k ts) := by
  induction ts generalizing k with
  | nil => exact .refl k
  | cons t ts ih =>
      refine (obtenido_cumple fun hc => ht hc t (by simp)).bind fun r _ _ => ?_
      refine (recursoIncrementar_cumple hF fun hc => hS hc _).bind fun k₁ h₁ ha => ?_
      have hi := recursoIncrementar_vista h₁
      refine (ih (fun hc n => hi.saldada (hS hc n)) fun hc t' ht' => ?_).mono
        fun k' _ h' => ha.trans h'
      exact hi.existe (ht hc t' (by simp [ht']))

theorem liberarRecursosTomados_cumple (hS : falla .indefinido → ∀ n, Saldada k.vista n)
    (ht : falla .nulo → ∀ t ∈ p.recursosTomados, k.recursos.valor t ≠ none) :
    Cumple falla (Ajeno k) (liberarRecursosTomados k p) := by
  refine (liberarTomados_cumple hF hS ht).bind fun k₁ _ h₁ => ?_
  cases p.recursoEsperando with
  | none => exact h₁
  | some n =>
      exact h₁.trans (recursoModificarInstancias2_regla p.pid (.refl k₁)
        (ponerRecurso_ajeno k₁ n))

/-- A process that is in no list is not interrupted: it exits. -/
theorem eliminarProceso_cumple (hv : veces k.listas p.pid = 0)
    (hS : falla .indefinido → ∀ n, Saldada k.vista n)
    (ht : falla .nulo → ∀ t ∈ p.recursosTomados, k.recursos.valor t ≠ none) :
    Cumple falla (Ajeno k) (eliminarProceso k p) := by
  rw [eliminarProceso, procesoEnRunning_eq_false hv, if_neg Bool.false_ne_true]
  refine (liberarRecursosTomados_cumple hF hS ht).bind fun k₁ _ h₁ => ?_
  exact (exigir_cumple hF).bind fun _ _ _ => h₁.trans (salir_ajeno ..)

end

/-! ### The messages of the CPU -/

/-- The kernel sends a process to the CPU, from any of its threads. -/
structure Envia (k k' : Nucleo) (q : Pcb) : Prop where
  estados : k'.estadosProcesos.length = k.estadosProcesos.length
  ultimoPid : k'.ultimoPid = k.ultimoPid
  enCpu : k'.enCpu = some q
  dispatch : k'.dispatch = k.dispatch ++ [q]
  interrupt : k'.interrupt = k.interrupt
  pidEjecutando : k'.pidEjecutando = q.pid

/-- The kernel handled a message of the CPU, and sent a PCB back or did not. -/
inductive Contesta (k k' : Nucleo) : Prop
  | calla (h : Ajeno k k')
  | envia {q : Pcb} (h : Envia k k' q) (hc : k'.corto = k.corto)

theorem liberarCpu_ajeno (k : Nucleo) : Ajeno k k.liberarCpu := conSem_ajeno ..

theorem recursoAgregarBloqueado_ajeno (k : Nucleo) (recurso : String) (pid : ℕ) :
    Ajeno k (recursoAgregarBloqueado k recurso pid) := by
  unfold recursoAgregarBloqueado
  cases k.recursos.valor recurso with
  | none => exact .refl k
  | some r => exact ponerRecurso_ajeno ..

theorem reanudar_cumple (hrun : k.listas .running = [q]) :
    Cumple falla (Contesta k) (reanudar k p) := by
  refine (obtenido_cumple fun _ => by simp [hrun]).bind fun r _ _ => ?_
  exact .envia ⟨rfl, rfl, rfl, rfl, rfl, rfl⟩ rfl

theorem Ajeno.contesta (h : Ajeno k k₁) (h' : Contesta k₁ k') : Contesta k k' := by
  cases h' with
  | calla h' => exact .calla (h.trans h')
  | envia h' hc =>
      exact .envia ⟨h'.estados.trans h.estados, h'.ultimoPid.trans h.ultimoPid, h'.enCpu,
        h.dispatch ▸ h'.dispatch, h'.interrupt.trans h.interrupt, h'.pidEjecutando⟩
        (hc.trans h.corto)

section

variable (hF : ¬falla .espera) (hrun : k.listas .running = [q])

include hF hrun

theorem finDeQuantum_cumple : Cumple falla (Ajeno k) (finDeQuantum k p) := by
  refine (exigir_cumple hF).bind fun _ _ _ => ?_
  refine (obtenido_cumple fun _ => by simp [hrun]).bind fun r _ _ => ?_
  exact ((conLista_ajeno ..).trans (actualizarEstadoPcb_ajeno ..)).trans (conSem_ajeno ..)

theorem motivoSignal_cumple {recurso : String} (hS : falla .indefinido → ∀ n, Saldada k.vista n) :
    Cumple falla (Contesta k) (motivoSignal k p recurso) := by
  refine (recursoIncrementar_cumple hF fun hc => hS hc _).bind fun k₁ h₁ ha => ?_
  have := (recursoIncrementar_vista h₁).marco.listas .running (by simp) (by simp)
  exact (reanudar_cumple (q := q) (this.trans hrun)).mono fun k' _ h' => ha.contesta h'

/-- An instance is granted, and the process runs still, or the process is in the queue. -/
theorem recursoDecrementar_cumple {recurso : String} (hq : q.pid = p.pid) :
    Cumple falla (fun r => Ajeno k r.2 ∧ (r.1 = true → r.2.listas .running = [q]))
      (recursoDecrementar k recurso p ahora) := by
  unfold recursoDecrementar
  cases hr : k.recursos.valor recurso with
  | none => exact ⟨.refl k, fun h => by cases h⟩
  | some r =>
      simp only
      split
      · refine (bloquearProceso_cumple (k := k.ponerRecurso recurso _) hF fun _ => ?_).bind
          fun k₁ _ h₁ => ?_
        · exact ⟨q, by simp [hrun], hq⟩
        · have h₂ := (recursoAgregarBloqueado_ajeno k₁ recurso p.pid).trans (liberarCpu_ajeno _)
          exact ⟨((ponerRecurso_ajeno ..).trans h₁).trans h₂, fun h => by cases h⟩
      · exact ⟨ponerRecurso_ajeno .., fun _ => hrun⟩

theorem motivoWait_cumple {recurso : String} (hq : q.pid = p.pid) :
    Cumple falla (Contesta k) (motivoWait k p recurso ahora) := by
  refine (recursoDecrementar_cumple hF hrun hq).bind fun r _ h => ?_
  split
  · rename_i hr
    exact (reanudar_cumple (h.2 hr)).mono fun k' _ h' => h.1.contesta h'
  · exact .calla h.1

variable (hS : falla .indefinido → ∀ n, Saldada k.vista n)
  (ht : falla .nulo → ∀ t ∈ p.recursosTomados, k.recursos.valor t ≠ none)

include hS ht

theorem terminar_cumple : Cumple falla (Ajeno k) (terminar k p) := by
  refine (exigir_cumple hF).bind fun _ _ _ => ?_
  refine (liberarRecursosTomados_cumple hF hS ht).bind fun k₁ h₁ ha => ?_
  have hrun₁ : k₁.listas .running = [q] :=
    ((liberarRecursosTomados_vista h₁).marco.listas .running (by simp) (by simp)).trans hrun
  refine (obtenido_cumple fun _ => by simp [hrun₁]).bind fun r _ _ => ?_
  exact ha.trans (((conLista_ajeno ..).trans (salir_ajeno ..)).trans (liberarCpu_ajeno _))

variable (hv : veces (Function.update k.listas .running []) p.pid = 0)

include hv

theorem expulsar_cumple : Cumple falla (Ajeno k) (expulsar k p) := by
  rw [expulsar, hrun, Coleccion.remover_cons_zero]
  refine (obtenido_cumple fun _ => by simp).bind fun r _ hr => ?_
  cases hr
  refine (eliminarProceso_cumple (k := k.conLista .running []) hF hv hS ht).bind
    fun k₁ _ h₁ => ?_
  exact ((conLista_ajeno ..).trans h₁).trans (liberarCpu_ajeno _)

theorem peticionIo_cumple {nombre : String} {operacion : OperacionIo} (hq : q.pid = p.pid) :
    Cumple falla (Ajeno k) (peticionIo k p nombre operacion ahora) := by
  unfold peticionIo
  cases k.interfaces.valor nombre with
  | none => exact expulsar_cumple hF hrun hS ht hv
  | some i =>
      refine (bloquearProceso_cumple hF fun _ => ⟨q, ?_, hq⟩).bind fun k₁ _ h₁ => ?_
      · simp [hrun]
      · exact h₁.trans ⟨rfl, rfl, rfl, rfl, rfl, rfl, .inr rfl⟩

theorem atenderCpuDispatch_cumple {m : MensajeCpu} (hq : q.pid = p.pid) :
    Cumple falla (Contesta k) (atenderCpuDispatch k p ahora m) := by
  have hcalla : ∀ {r}, Cumple falla (Ajeno k) r → Cumple falla (Contesta k) r :=
    fun h => h.mono fun _ _ => .calla
  cases m with
  | io nombre operacion => exact hcalla (peticionIo_cumple hF hrun hS ht hv hq)
  | interrupcion => exact hcalla (finDeQuantum_cumple hF hrun)
  | outOfMemory => exact hcalla (terminar_cumple hF hrun hS ht)
  | terminarProceso => exact hcalla (terminar_cumple hF hrun hS ht)
  | wait recurso =>
      simp only [atenderCpuDispatch]
      split
      · exact hcalla (expulsar_cumple hF hrun hS ht hv)
      · exact motivoWait_cumple hF hrun hq
  | signal recurso =>
      simp only [atenderCpuDispatch]
      split
      · exact hcalla (expulsar_cumple hF hrun hS ht hv)
      · exact motivoSignal_cumple hF hrun hS

end

/-! ### The answers of the interfaces -/

theorem desbloquearProceso_interfaces {pid : ℕ} (h : desbloquearProceso k pid = .ok k') :
    k'.interfaces = k.interfaces := by
  obtain ⟨a, p, b, hl, hp, ha⟩ := exists_split (exists_of_desbloquearProceso h)
  rw [desbloquearProceso_eq_ok hl ha hp h, alistar_interfaces]
  rfl

section

variable {nombre : String} {i : Interfaz} {pet : PeticionIo} (hF : ¬falla .espera)
  (hi : k.interfaces.valor nombre = some i)
  (hb : falla .nulo → ∃ p ∈ k.listas .blocked, p.pid = pet.pid)

include hF hb

theorem errorIo_cumple (hu : ∀ x, veces k.listas x ≤ 1)
    (hS : falla .indefinido → ∀ n, Saldada k.vista n)
    (ht : falla .nulo → ∀ p ∈ k.listas .blocked, ∀ t ∈ p.recursosTomados,
      k.recursos.valor t ≠ none) :
    Cumple falla (Ajeno k) (errorIo k pet.pid) := by
  refine (obtenido_cumple fun hc hs => ?_).bind fun r _ hr => ?_
  · obtain ⟨p, hp, hpid⟩ := hb hc
    exact sacar_eq_none.1 hs p hp hpid
  · obtain ⟨a, b, hl, hp, -, hr⟩ := sacar_eq_some (p := r.1) (r := r.2) hr
    rw [hr]
    refine (eliminarProceso_cumple (k := k.conLista .blocked (a ++ b)) hF
      (veces_quitar_eq_zero (hu _) hl) hS fun hc => ?_).mono
      fun k' _ h' => (conLista_ajeno ..).trans h'
    exact ht hc r.1 (by simp [hl])

theorem finIo_cumple (hcola : falla .nulo → ∀ io ∈ i.listaBloqueados, io.pcb ≠ none)
    (hi : k.interfaces.valor nombre = some i) :
    Cumple falla (Ajeno k) (finIo k nombre pet.pid) := by
  refine (desbloquearProceso_cumple hF hb).bind fun k₁ h₁ ha => ?_
  have hi₁ : k₁.interfaces.valor nombre = some i := by
    rw [desbloquearProceso_interfaces h₁, hi]
  refine (obtenido_cumple fun _ => by simp [hi₁]).bind fun i' _ hi' => ?_
  obtain rfl : i = i' := by simpa [hi₁] using hi'
  split
  · exact ha
  · rename_i io cola hq
    simp only
    split
    · exact ha.trans (conInterfaces_ajeno ..)
    · refine (obtenido_cumple fun hc => hcola hc io (by simp [hq])).bind fun pid _ _ => ?_
      exact ha.trans (conInterfaces_ajeno ..)

end

theorem ioOcupada_cumple {nombre : String} {pet : PeticionIo}
    (hi : k.interfaces.valor nombre ≠ none) :
    Cumple falla (Ajeno k) (ioOcupada k nombre pet) :=
  (obtenido_cumple fun _ => hi).bind fun _ _ _ => conInterfaces_ajeno ..

/-! ### The console, memory and the threads -/

/-- What FINALIZAR_PROCESO does to a process that is in none of the lists it looks at. -/
structure Interrumpe (k : Nucleo) (pid : ℕ) (k' : Nucleo) : Prop where
  pidEjecutando : k.pidEjecutando = pid
  listas : ∀ l, l ≠ .running → l ≠ .exit → ∀ p ∈ k.listas l, p.pid ≠ pid
  estado : k' = k.enviarInterrupcionCpu pid

theorem finalizarProceso_cumple {pid : ℕ} (hF : ¬falla .espera) (hu : ∀ x, veces k.listas x ≤ 1)
    (hS : falla .indefinido → ∀ n, Saldada k.vista n)
    (ht : falla .nulo → ∀ l, l ≠ .exit → ∀ p ∈ k.listas l, ∀ t ∈ p.recursosTomados,
      k.recursos.valor t ≠ none) :
    Cumple falla (fun k' => Ajeno k k' ∨ Interrumpe k pid k') (finalizarProceso k pid) := by
  refine (exigir_cumple hF).bind fun _ _ _ => (exigir_cumple hF).bind fun _ _ _ => ?_
  rcases hayarPcb_casos k pid with ⟨l, a, p, b, hlista, hl, -, hh⟩ | ⟨k₁, hh, hk₁, hno⟩
  · rw [hh]
    have hne : l ≠ .exit := by
      rcases hlista with rfl | rfl | rfl | rfl <;> decide
    refine (eliminarProceso_cumple (k := k.conLista l (a ++ b)) hF
      (veces_quitar_eq_zero (hu _) hl) hS fun hc => ?_).mono
      fun k' _ h' => .inl ((conLista_ajeno ..).trans h')
    exact ht hc l hne p (by simp [hl])
  · rw [hh]
    rcases hk₁ with hk | ⟨hpid, hk⟩
    · exact .inl (hk ▸ .refl k)
    · exact .inr ⟨hpid, hno, hk⟩

theorem moverAReady_cumple (hF : ¬falla .espera) : Cumple falla (Ajeno k) (moverAReady k) := by
  unfold moverAReady
  split
  · exact (exigir_cumple hF).bind fun _ _ _ => ⟨rfl, rfl, rfl, rfl, rfl, rfl, .inl rfl⟩
  · refine (exigir_cumple hF).bind fun _ _ _ => ?_
    simp only
    split
    · exact ⟨rfl, rfl, rfl, rfl, rfl, rfl, .inl rfl⟩
    · exact ⟨rfl, rfl, rfl, rfl, rfl, rfl, .inl rfl⟩
  · refine (exigir_cumple hF).bind fun _ _ _ => (exigir_cumple hF).bind fun _ _ _ => ?_
    split
    · exact ⟨rfl, rfl, rfl, rfl, rfl, rfl, .inl rfl⟩
    · exact ⟨rfl, List.length_set, rfl, rfl, rfl, rfl, .inl rfl⟩

theorem detenerPlanificacion_cumple (hF : ¬falla .espera) :
    Cumple falla (Ajeno k) (detenerPlanificacion k) := by
  unfold detenerPlanificacion
  split
  · exact (exigir_cumple hF).bind fun _ _ _ => (exigir_cumple hF).bind fun _ _ _ =>
      ⟨rfl, rfl, rfl, rfl, rfl, rfl, .inl rfl⟩
  · exact .refl k

theorem iniciarPlanificacion_ajeno (k : Nucleo) : Ajeno k (iniciarPlanificacion k) := by
  unfold iniciarPlanificacion
  split
  · exact .refl k
  · exact ⟨rfl, rfl, rfl, rfl, rfl, rfl, .inl rfl⟩

/-- What the threads remember is about processes that exist. -/
structure Hilada (k : Nucleo) : Prop where
  estados : k.estadosProcesos.length + 1 = k.ultimoPid
  ejecutando : k.pidEjecutando < k.ultimoPid
  cuenta : ∀ pid t c, k.corto = .cuenta pid t c → 1 ≤ pid ∧ pid < k.ultimoPid
  quantum : k.corto = .esperaQuantum → k.config.algoritmo = .rr

/-- A step of the short-term scheduler: it sends nothing to the CPU, or an interruption, or, when
nobody is there, a process. -/
inductive Turno (k k' : Nucleo) : Prop
  | sigue (h : Ajeno { k with corto := k'.corto } k')
      (hc : ∀ pid t c, k'.corto = .cuenta pid t c → k.corto = .cuenta pid t c)
      (hq : k'.corto = .esperaQuantum → k.config.algoritmo = .rr)
  | interrumpe (h : k' = { k.interrumpirProceso k.pidEjecutando with corto := .esperaCpu })
  | despacha {q : Pcb} (h : Envia k k' q) (hcpu : 0 < k.vista.cpu)
      (hc : ∀ pid t c, k'.corto = .cuenta pid t c → pid = q.pid)
      (hq : k'.corto ≠ .esperaQuantum)

theorem despachar_envia (k : Nucleo) (p : Pcb) (ahora : ℤ) (l : Lista) (resto : List Pcb)
    (s : Semaforos) (f : FaseCorto) :
    ∃ q : Pcb, q.pid = p.pid ∧
      Envia k { (k.conLista l resto).despachar p ahora with sem := s, corto := f } q := by
  obtain ⟨p', hp', hd⟩ := despachar_eq (k.conLista l resto) p ahora
  refine ⟨p', hp'.pid, ?_⟩
  rw [hd]
  exact ⟨List.length_set, rfl, rfl, rfl, rfl, rfl⟩

theorem pasada_turno (hf : k.corto = .esperaPlanificacion) : Turno k (pasada k ahora) := by
  have hcpu : 0 < k.vista.cpu := by
    simp [Nucleo.vista, hf, FaseCorto.cpu]
  have hnada : Turno k { k with corto := .esperaCpu } :=
    .sigue (.refl _) (fun _ _ _ h => by cases h) fun h => by cases h
  unfold pasada
  split
  · split
    · exact hnada
    · rename_i p ready _
      obtain ⟨q, -, hq⟩ := despachar_envia k p ahora .ready ready k.sem .esperaCpu
      exact .despacha hq hcpu (fun _ _ _ h => by cases h) fun h => by cases h
  · rename_i halg
    exact .sigue ⟨rfl, rfl, rfl, rfl, rfl, rfl, .inl rfl⟩ (fun _ _ _ h => by cases h) fun _ => halg
  · split
    · rename_i p auxiliar _
      obtain ⟨q, hpid, hq⟩ := despachar_envia k p ahora .auxiliar auxiliar k.sem
        (.cuenta p.pid ahora p.quantum)
      exact .despacha hq hcpu (fun _ _ _ h => by cases h; exact hpid.symm) fun h => by cases h
    · split
      · rename_i p ready _
        obtain ⟨q, hpid, hq⟩ := despachar_envia k { p with quantum := k.config.quantum } ahora
          .ready ready k.sem (.cuenta p.pid ahora k.config.quantum)
        exact .despacha hq hcpu (fun _ _ _ h => by cases h; exact hpid.symm) fun h => by cases h
      · exact hnada
  · exact hnada

theorem contadorQuantumVrr_cumple {pid : ℕ} {t₀ quantum : ℤ} (hf : k.corto = .cuenta pid t₀ quantum)
    (hpid : falla .nulo → 1 ≤ pid ∧ pid ≤ k.estadosProcesos.length) :
    Cumple falla (Turno k) (contadorQuantumVrr k pid t₀ quantum ahora) := by
  have hnada : Turno k { k with corto := .esperaCpu } :=
    .sigue (.refl _) (fun _ _ _ h => by cases h) fun h => by cases h
  refine (obtenido_cumple fun hc => ?_).bind fun e _ _ => ?_
  · obtain ⟨h₁, h₂⟩ := hpid hc
    rw [show (pid : ℤ) - 1 = ((pid - 1 : ℕ) : ℤ) by omega, Coleccion.obtener_natCast]
    simp
    omega
  · split
    · exact hnada
    · split
      · split
        · exact .interrumpe rfl
        · exact hnada
      · exact .sigue (.refl k) (fun _ _ _ h => h) fun h => by rw [hf] at h; cases h

theorem planificadorCortoPlazo_cumple (hF : ¬falla .espera)
    (hpid : falla .nulo → ∀ pid t c, k.corto = .cuenta pid t c →
      1 ≤ pid ∧ pid ≤ k.estadosProcesos.length)
    (hready : falla .nulo → k.corto = .esperaQuantum → k.listas .ready ≠ []) :
    Cumple falla (Turno k) (planificadorCortoPlazo k ahora) := by
  unfold planificadorCortoPlazo
  split
  · exact (exigir_cumple hF).bind fun _ _ _ =>
      .sigue ⟨rfl, rfl, rfl, rfl, rfl, rfl, .inl rfl⟩ (fun _ _ _ h => by cases h)
        fun h => by cases h
  · exact (exigir_cumple hF).bind fun _ _ _ =>
      .sigue ⟨rfl, rfl, rfl, rfl, rfl, rfl, .inl rfl⟩ (fun _ _ _ h => by cases h)
        fun h => by cases h
  · rename_i hf
    exact (exigir_cumple hF).bind fun _ _ _ => pasada_turno hf
  · rename_i hf
    refine (exigir_cumple hF).bind fun _ _ _ => (obtenido_cumple fun hc => ?_).bind fun r _ _ => ?_
    · cases hl : k.listas .ready with
      | nil => exact absurd hl (hready hc hf)
      | cons p ready => simp
    · obtain ⟨q, -, hq⟩ := despachar_envia k r.1 ahora .ready r.2 _ .esperaCpu
      refine .despacha hq ?_ (fun _ _ _ h => by cases h) fun h => by cases h
      simp [Nucleo.vista, hf, FaseCorto.cpu]
  · rename_i pid t₀ quantum hf
    exact contadorQuantumVrr_cumple hf fun hc => hpid hc _ _ _ hf

theorem contadorQuantumRr_cumple (hF : ¬falla .espera) :
    Cumple falla (fun k' => Ajeno k k' ∨
      k' = { k.interrumpirProceso k.pidEjecutando with reloj := .espera })
      (contadorQuantumRr k) := by
  unfold contadorQuantumRr
  split
  · exact (exigir_cumple hF).bind fun _ _ _ => .inl ⟨rfl, rfl, rfl, rfl, rfl, rfl, .inl rfl⟩
  · split
    · exact .inr rfl
    · exact .inl ⟨rfl, rfl, rfl, rfl, rfl, rfl, .inl rfl⟩

/-! ### The handling of an event -/

/-- The requests that the interfaces have are about processes of BLOCKED. -/
def Vivos (v : Vista) : Prop :=
  ∀ n i, v.interfaces.valor n = some i →
    (∀ pet ∈ i.enviadas, ∃ p ∈ v.listas .blocked, p.pid = pet.pid) ∧
    ∀ io ∈ i.listaBloqueados, ∃ p ∈ v.listas .blocked, io.pcb = some p.pid

/-- What the handling of an event does to the threads, and what it sends to the CPU. -/
inductive Efecto (k : Nucleo) : Evento → Nucleo → Prop
  | ajeno {e : Evento} {k' : Nucleo} (he : ¬e.deCpu) (h : Ajeno k k') : Efecto k e k'
  | creacion : Efecto k .iniciarProceso k.conProceso
  | finaliza {pid : ℕ} {k' : Nucleo} (h : Interrumpe k pid k') : Efecto k (.finalizarProceso pid) k'
  | cpu {p : Pcb} {m : MensajeCpu} {ahora : ℤ} {k' : Nucleo} (h : Contesta k.sinCpu k') :
      Efecto k (.cpu p m ahora) k'
  | corto {ahora : ℤ} {k' : Nucleo} (h : Turno k k') : Efecto k (.corto ahora) k'
  | reloj : Efecto k .reloj { k.interrumpirProceso k.pidEjecutando with reloj := .espera }

/-- No handler fails for a reason of `falla`, as long as the queues are in order and, when a null
pointer is one, the processes that are waited for are in their lists. -/
theorem manejar_cumple {e : Evento} (hF : ¬falla .espera) (hB : Base k.vista)
    (hE : Encolados [] k.vista) (hS : falla .indefinido → ∀ n, Saldada k.vista n)
    (hV : falla .nulo → Vivos k.vista)
    (hpid : falla .nulo → ∀ pid t c, k.corto = .cuenta pid t c →
      1 ≤ pid ∧ pid ≤ k.estadosProcesos.length)
    (hready : falla .nulo → k.corto = .esperaQuantum → k.listas .ready ≠ [])
    (he : admite k e) : Cumple falla (Efecto k e) (manejar k e) := by
  have ht : ∀ l, l ≠ .exit → ∀ p ∈ k.listas l, ∀ t ∈ p.recursosTomados,
      k.recursos.valor t ≠ none := fun l hl p hp => (hE.enRegla hp).tomados hl
  have hu : ∀ x, veces k.listas x ≤ 1 := hB.veces_le
  cases e with
  | iniciarProceso => exact (exigir_cumple hF).bind fun _ _ _ => .creacion
  | finalizarProceso pid =>
      refine (finalizarProceso_cumple hF hu hS fun _ => ht).mono fun k' _ h => ?_
      rcases h with h | h
      · exact .ajeno id h
      · exact .finaliza h
  | iniciarPlanificacion => exact .ajeno id (iniciarPlanificacion_ajeno k)
  | detenerPlanificacion => exact (detenerPlanificacion_cumple hF).mono fun _ _ => .ajeno id
  | multiprogramacion valor => exact .ajeno id ⟨rfl, rfl, rfl, rfl, rfl, rfl, .inl rfl⟩
  | cpu p m ahora =>
      obtain ⟨q, hc⟩ := corre_of_admite hB.unica he
      have hv := hB.veces_quitar (a := []) (b := []) hc.running
      rw [hc.pid] at hv
      refine (atenderCpuDispatch_cumple (k := k.sinCpu) hF hc.running hS (fun _ t hp => ?_) hv
        hc.pid).mono fun _ _ => .cpu
      have hq : q ∈ k.listas .running := by
        rw [show k.listas .running = [q] from hc.running]
        simp
      exact ht .running (by decide) q hq t (hc.mismo.recursosTomados ▸ hp)
  | interfaz nombre pet r =>
      obtain ⟨i, hi, hpet, -⟩ := he
      have hi : k.interfaces.valor nombre = some i := hi
      have hi' : (k.recibida nombre i pet).interfaces.valor nombre
          = some { i with enviadas := i.enviadas.erase pet } := by
        simp [Nucleo.recibida]
      have ha : Ajeno k (k.recibida nombre i pet) := conInterfaces_ajeno ..
      have hb : falla .nulo → ∃ p ∈ k.listas .blocked, p.pid = pet.pid :=
        fun hc => (hV hc nombre i hi).1 pet hpet
      refine (obtenido_cumple fun _ => by simp [hi]).bind fun i' _ h => ?_
      obtain rfl : i = i' := by simpa [hi] using h
      cases r with
      | errorIo =>
          refine (errorIo_cumple (k := k.recibida nombre i pet) hF hb hu hS fun _ =>
            ht .blocked (by decide)).mono fun k' _ h => .ajeno id (ha.trans h)
      | ioOcupada =>
          exact (ioOcupada_cumple (k := k.recibida nombre i pet) (by simp [hi'])).mono
            fun k' _ h => .ajeno id (ha.trans h)
      | finIo =>
          refine (finIo_cumple (k := k.recibida nombre i pet) hF hb (fun hc io hio => ?_) hi').mono
            fun k' _ h => .ajeno id (ha.trans h)
          obtain ⟨p, -, hp⟩ := (hV hc nombre i hi).2 io hio
          simp [hp]
  | conexionIo nombre tipoInterfaz => exact .ajeno id (conInterfaces_ajeno ..)
  | memoria m =>
      cases m with
      | nuevoProceso pid => exact .ajeno id ⟨rfl, rfl, rfl, rfl, rfl, rfl, .inl rfl⟩
      | finalizarProceso pid => exact .ajeno id ⟨rfl, rfl, rfl, rfl, rfl, rfl, .inl rfl⟩
  | corto ahora => exact (planificadorCortoPlazo_cumple hF hpid hready).mono fun _ _ => .corto
  | reloj =>
      refine (contadorQuantumRr_cumple hF).mono fun k' _ h => ?_
      rcases h with h | rfl
      · exact .ajeno id h
      · exact .reloj
  | largo => exact (moverAReady_cumple hF).mono fun _ _ => .ajeno id

/-- What the handling of an event does, wherever it reaches its end. -/
theorem manejar_efecto {e : Evento} (hB : Base k.vista) (hE : Encolados [] k.vista)
    (he : admite k e) (h : manejar k e = .ok k') : Efecto k e k' := by
  have hcumple : Cumple (fun _ => False) (Efecto k e) (manejar k e) :=
    manejar_cumple id hB hE False.elim False.elim False.elim False.elim he
  exact hcumple.of_eq_ok h

/-- The process at the CPU exists. -/
theorem Base.enCpu_creado {v : Vista} (hB : Base v) (h : v.enCpu = some q) :
    1 ≤ q.pid ∧ q.pid < v.ultimoPid := by
  have hq : q ∈ v.listas .running := by simp [hB.enCpu, h]
  have := one_le_veces hq
  rw [hB.repartidos] at this
  by_contra hne
  rw [if_neg hne] at this
  omega

theorem Efecto.hilada {e : Evento} (h : Efecto k e k') (hH : Hilada k) (hB : Base k'.vista)
    (halg : k'.config.algoritmo = k.config.algoritmo) : Hilada k' := by
  have hajeno : ∀ k₁ : Nucleo, k₁.estadosProcesos = k.estadosProcesos →
      k₁.ultimoPid = k.ultimoPid → k₁.pidEjecutando = k.pidEjecutando → k₁.corto = k.corto →
      Ajeno k₁ k' → Hilada k' := by
    intro k₁ he hu hp hc h
    refine ⟨?_, ?_, ?_, ?_⟩
    · rw [h.estados, h.ultimoPid, he, hu]
      exact hH.estados
    · have := hH.ejecutando
      rw [h.ultimoPid, hu]
      rcases h.pidEjecutando with hp' | hp' <;> omega
    · intro pid t c h'
      rw [h.ultimoPid, hu]
      exact hH.cuenta pid t c (hc ▸ h.corto ▸ h')
    · intro h'
      rw [halg]
      exact hH.quantum (hc ▸ h.corto ▸ h')
  cases h with
  | ajeno he h => exact hajeno k rfl rfl rfl rfl h
  | creacion =>
      refine ⟨by simp [Nucleo.conProceso, hH.estados], ?_, fun pid t c h => ?_, hH.quantum⟩
      · have := hH.ejecutando
        simp only [Nucleo.conProceso]
        omega
      · have := hH.cuenta pid t c h
        simp only [Nucleo.conProceso]
        omega
  | finaliza h =>
      rw [h.estado]
      exact ⟨hH.estados, hH.ejecutando, hH.cuenta, hH.quantum⟩
  | cpu h =>
      cases h with
      | calla h => exact hajeno k.sinCpu rfl rfl rfl rfl h
      | @envia q h hc =>
          refine ⟨?_, ?_, ?_, ?_⟩
          · rw [h.estados, h.ultimoPid]
            exact hH.estados
          · rw [h.pidEjecutando]
            exact (hB.enCpu_creado h.enCpu).2
          · intro pid t c h'
            rw [h.ultimoPid]
            exact hH.cuenta pid t c (hc ▸ h')
          · intro h'
            rw [halg]
            exact hH.quantum (hc ▸ h')
  | corto h =>
      cases h with
      | sigue h hc hq =>
          refine ⟨?_, ?_, ?_, ?_⟩
          · rw [h.estados, h.ultimoPid]
            exact hH.estados
          · have := hH.ejecutando
            rw [h.ultimoPid]
            rcases h.pidEjecutando with hp' | hp' <;> simp only at hp' ⊢ <;> omega
          · intro pid t c h'
            rw [h.ultimoPid]
            exact hH.cuenta pid t c (hc pid t c h')
          · intro h'
            rw [halg]
            exact hq h'
      | interrumpe h =>
          rw [h]
          exact ⟨hH.estados, hH.ejecutando, (fun _ _ _ h => by cases h), (fun h => by cases h)⟩
      | @despacha q h hcpu hc hq =>
          have hcreado := hB.enCpu_creado h.enCpu
          refine ⟨?_, ?_, ?_, ?_⟩
          · rw [h.estados, h.ultimoPid]
            exact hH.estados
          · rw [h.pidEjecutando]
            exact hcreado.2
          · intro pid t c h'
            rw [hc pid t c h']
            exact hcreado
          · exact fun h' => absurd h' hq
  | reloj => exact ⟨hH.estados, hH.ejecutando, hH.cuenta, hH.quantum⟩

theorem hilada_iniciar (config : Config) : Hilada (iniciar config) :=
  ⟨rfl, Nat.zero_lt_one, (fun _ _ _ h => by cases h), (fun h => by cases h)⟩

/-- In every state what the threads remember is about processes that exist. -/
theorem hilada_alcanzable (h : Transicion.Alcanzable sistema k) : Hilada k := by
  refine (h.invariante (I := fun k => (Base k.vista ∧ Ordenada k.vista) ∧ Hilada k) ?_ ?_).2
  · rintro _ ⟨config, rfl⟩
    exact ⟨⟨base_iniciar config, ordenada_iniciar config⟩, hilada_iniciar config⟩
  · rintro k e k' ⟨⟨hB, hO⟩, hH⟩ - ⟨he, hm⟩
    have hmov := manejar_movimiento hB.unica he hm
    have hB' := hmov.base hB
    exact ⟨⟨hB', hmov.ordenada hB hO⟩,
      (manejar_efecto hB hO.encolados he hm).hilada hH hB' hmov.config.1⟩

end Kernel
