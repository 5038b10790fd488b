/-
**The semaphores of the scheduler count the processes and the processor.**

The short-term scheduler waits for a token of `sem_cpu_free_to_execute` and for one of
`sem_process_in_ready`.  Both semaphores are posted and consumed by about fifteen handlers.  As long
as nobody kills a process that is in READY or in the priority queue, they count exactly the
processes the scheduler can take and the processor it can give.  `hayar_pcb` takes such a process
out of its queue and leaves its token behind: the pass of the scheduler that uses it finds nothing,
and the token of the processor is lost with it.

Main definitions:

* `Kernel.sinMatarListos` — the steps that kill no process the scheduler has been told about;
* `Kernel.Contados` — the invariant.

Main results:

* `Kernel.Movimiento.contados` — a movement that meets the condition keeps the count;
* `Kernel.semaforos_cuentan` — in every run whose steps meet it the semaphores count the queues, and
  the scheduler is never left without its processor;
* `Kernel.semaforos_no_cuentan` — a process killed in READY, and the scheduler waits forever.
-/

import TpSisop.KernelRefinamiento

set_option relaxedAutoImplicit false
set_option autoImplicit false

namespace Kernel

open Familia (agregar peso)

variable {v v' : Vista} {p : Pcb}

/-- The steps that do not kill a process of one of the scheduler's queues. -/
def sinMatarListos (v : Vista) : Evento → Prop
  | .finalizarProceso pid => ∀ l ∈ Lista.listos, ∀ p ∈ v.listas l, p.pid ≠ pid
  | _ => True

instance (v : Vista) : DecidablePred (sinMatarListos v)
  | .finalizarProceso _ => inferInstanceAs (Decidable (∀ l ∈ Lista.listos, ∀ p ∈ v.listas l, _ ≠ _))
  | .iniciarProceso | .iniciarPlanificacion | .detenerPlanificacion | .multiprogramacion _
  | .cpu _ _ _ | .interfaz _ _ _ | .conexionIo _ _ | .memoria _ | .corto _ | .reloj | .largo =>
      .isTrue trivial

/-- The processes announced are the ones the scheduler can take, the processor is free or taken, and
only VRR uses the priority queue. -/
structure Contados (v : Vista) : Prop where
  listos : v.listos = v.enListos
  cpu : v.cpu + (v.listas .running).length = 1
  auxiliar : v.algoritmo ≠ .vrr → v.listas .auxiliar = []

/-! ### The number of processes the scheduler can take -/

theorem listos_agregar (L : Lista → List Pcb) (l : Lista) (p : Pcb) :
    peso (fun _ => 1) Lista.listos (agregar L l p)
      = peso (fun _ => 1) Lista.listos L + if l ∈ Lista.listos then 1 else 0 :=
  Familia.peso_agregar Lista.listos_nodup l p

theorem listos_quitar {L : Lista → List Pcb} {l : Lista} {a b : List Pcb} (h : L l = a ++ p :: b) :
    peso (fun _ => 1) Lista.listos (Function.update L l (a ++ b))
      + (if l ∈ Lista.listos then 1 else 0) = peso (fun _ => 1) Lista.listos L :=
  Familia.peso_quitar Lista.listos_nodup h

/-- A process that leaves a list the scheduler does not look at. -/
theorem listos_quitar_de_ne {L : Lista → List Pcb} {l : Lista} {xs : List Pcb}
    (h : l ∉ Lista.listos) :
    peso (fun _ => 1) Lista.listos (Function.update L l xs) = peso (fun _ => 1) Lista.listos L :=
  Familia.peso_update_of_notMem h xs

theorem enListos_eq (v : Vista) :
    v.enListos = (v.listas .ready).length + (v.listas .auxiliar).length := by
  simp [Vista.enListos, Lista.listos]

/-! ### The invariant -/

section

variable {w : Vista} {l : Lista} {xs : List Pcb} (hl : Liberacion w p v') (hne : l ∉ Lista.listos)
  (hw : w.listas = Function.update v.listas l xs)

include hl hne hw

/-- A process that dies out of a list the scheduler does not look at leaves the count alone. -/
theorem Contados.listos_salir (hI : Contados v) (hlis : w.listos = v.listos) :
    (v'.salir p).listos = (v'.salir p).enListos := by
  have h₁ := hl.marco.listos
  have h₂ : w.enListos = v.enListos := by
    rw [Vista.enListos, hw, listos_quitar_de_ne hne]
    rfl
  have h₃ : (v'.salir p).enListos = v'.enListos := by
    simp [Vista.enListos, Vista.salir, listos_agregar]
  have h₄ := hI.listos
  rw [h₃]
  show v'.listos = v'.enListos
  omega

theorem Contados.auxiliar_salir (hI : Contados v) (halg : w.algoritmo = v.algoritmo)
    (h : (v'.salir p).algoritmo ≠ .vrr) : (v'.salir p).listas .auxiliar = [] := by
  have hv : v.algoritmo ≠ .vrr := (hl.marco.algoritmo.trans halg) ▸ h
  have hla : Lista.auxiliar ≠ l := by
    rintro rfl
    simp at hne
  have h₁ := hl.marco.auxiliar (halg ▸ hv)
  rw [hw, Function.update_of_ne hla, hI.auxiliar hv] at h₁
  simpa [Vista.salir] using h₁

theorem Contados.muerte (hI : Contados v) (hrun : l ≠ .running) (hlis : w.listos = v.listos)
    (hcpu : w.cpu = v.cpu) (halg : w.algoritmo = v.algoritmo) : Contados (v'.salir p) := by
  refine ⟨hI.listos_salir hl hne hw hlis, ?_, hI.auxiliar_salir hl hne hw halg⟩
  have h₁ : (v'.salir p).listas .running = v.listas .running := by
    have := hl.marco.listas .running (by simp) (by simp)
    simpa [Vista.salir, hw, hrun.symm] using this
  rw [h₁, show (v'.salir p).cpu = v.cpu from hl.marco.cpu.trans hcpu]
  exact hI.cpu

end

/-- A movement that kills no process of the scheduler's queues keeps the count. -/
theorem Movimiento.contados {e : Evento} (hB : Base v) (hI : Contados v)
    (halg : v.algoritmo ≠ .otro) (hC : sinMatarListos v e) (h : Movimiento v e v') :
    Contados v' := by
  have ⟨hl, hc, ha⟩ := hI
  cases h with
  | quieto => exact hI
  | pasadaVacia hn hm hrr hfifo hvrr =>
      -- the scheduler holds a token for a process that is in neither queue
      exfalso
      rw [enListos_eq] at hl
      cases halgo : v.algoritmo with
      | fifo => simp [hfifo halgo, ha (by simp [halgo]), hn] at hl
      | rr => exact hrr halgo
      | vrr => simp [hvrr halgo, hn] at hl
      | otro => exact halg halgo
  | creacion =>
      refine ⟨?_, by simpa using hc, by simpa using ha⟩
      simpa [Vista.enListos, listos_agregar] using hl
  | admision h =>
      refine ⟨?_, by simpa using hc, by simpa using ha⟩
      simpa [Vista.enListos, listos_agregar, listos_quitar_de_ne] using hl
  | @despacho ahora l p p' resto n m hlis h hp hn hm =>
      have hne : Lista.running ≠ l := by
        rintro rfl
        simp at hlis
      refine ⟨?_, ?_, fun halgo => ?_⟩
      · have := listos_quitar (a := []) h
        rw [if_pos hlis, List.nil_append] at this
        simp only [Vista.enListos, listos_agregar, Lista.mem_listos, reduceCtorEq, or_self,
          if_false] at hl ⊢
        omega
      · simp only [Familia.agregar_self, Function.update_of_ne hne, List.length_append,
          List.length_singleton]
        omega
      · have haux := ha halgo
        have hla : Lista.auxiliar ≠ l := by
          rintro rfl
          simp [haux] at h
        simp [hla, haux]
  | finDeQuantum h =>
      refine ⟨?_, by simp [hB.cpu_eq_zero h], by simpa using ha⟩
      simpa [Vista.enListos, listos_agregar, listos_quitar_de_ne] using hl
  | bloqueoIo h hi hp =>
      refine ⟨?_, by simp [hB.cpu_eq_zero h], by simpa using ha⟩
      simpa [Vista.enListos, listos_agregar, listos_quitar_de_ne] using hl
  | bloqueoRecurso h hr hi =>
      refine ⟨?_, by simp [hB.cpu_eq_zero h], by simpa using ha⟩
      simpa [Vista.enListos, listos_agregar, listos_quitar_de_ne] using hl
  | concesion h hr hi hp =>
      refine ⟨?_, by simp [hB.cpu_eq_zero h], by simpa using ha⟩
      simpa [Vista.enListos, listos_quitar_de_ne] using hl
  | @signal q p p' recurso ahora v₁ h hr hi hp =>
      have hm := hi.marco
      have hcpu : v₁.cpu = 0 := hm.cpu.trans (hB.cpu_eq_zero h)
      refine ⟨?_, by simp [hcpu], fun halgo => ?_⟩
      · have h₁ : v₁.listos + v.enListos = v.listos + v₁.enListos := hm.listos
        simp only [Vista.enListos, listos_quitar_de_ne (show Lista.running ∉ Lista.listos by simp)]
          at h₁ hl ⊢
        omega
      · have halg₁ : v.algoritmo ≠ .vrr := hm.algoritmo ▸ halgo
        have h₁ : v₁.listas .auxiliar = v.listas .auxiliar := hm.auxiliar halg₁
        simp [h₁, ha halg₁]
  | @muerteCpu q p m ahora v₁ h hterm hlib =>
      have hne : Lista.running ∉ Lista.listos := by simp
      have hcpu : v₁.cpu = 0 := hlib.marco.cpu.trans (hB.cpu_eq_zero h)
      have hw : ({ v with enCpu := none }.conLista .running []).listas
          = Function.update v.listas .running [] := rfl
      have hlis := hI.listos_salir hlib hne hw rfl
      have haux := hI.auxiliar_salir hlib hne hw rfl
      refine ⟨hlis, ?_, haux⟩
      have := hlib.marco.listas .running (by simp) (by simp)
      simp [Vista.salir, this, hcpu, Vista.conLista]
  | muerteConsola hlista h hp hlib =>
      -- the condition leaves the processes in NEW and in BLOCKED
      rcases hlista with rfl | rfl | rfl | rfl
      · exact hI.muerte hlib (by simp) rfl (by simp) rfl rfl rfl
      · exact absurd hp (hC .ready (by simp) _ (by simp [h]))
      · exact hI.muerte hlib (by simp) rfl (by simp) rfl rfl rfl
      · exact absurd hp (hC .auxiliar (by simp) _ (by simp [h]))
  | errorIo hi hpet h hp hlib =>
      exact Contados.muerte (v := v) hlib (by simp) rfl hI (by simp) rfl rfl rfl
  | ioOcupada hi hpet => exact ⟨hl, hc, ha⟩
  | @finIo nombre pet i i' a b p v₁ hi hpet h hp hal hi' =>
      have hm := hal.marco h rfl
      refine ⟨?_, ?_, fun halgo => ?_⟩
      · have := hm.listos
        show v₁.listos = v₁.enListos
        omega
      · show v₁.cpu + (v₁.listas .running).length = 1
        rw [hm.cpu, hm.listas .running (by simp) (by simp)]
        exact hc
      · have halg₁ : v.algoritmo ≠ .vrr := hm.algoritmo ▸ halgo
        exact (hm.auxiliar halg₁).trans (ha halg₁)
  | conexionIo h => exact ⟨hl, hc, ha⟩

theorem contados_iniciar (config : Config) : Contados (iniciar config).vista := by
  refine ⟨?_, ?_, fun _ => rfl⟩
  · rw [enListos_eq]
    simp [Nucleo.vista, iniciar, initSemaphores, FaseCorto.listos]
  · simp [Nucleo.vista, iniciar, initSemaphores, FaseCorto.cpu]

/-! ### The semaphores -/

/-- The semaphores of the scheduler, each with the token the scheduler has taken from it and not
used, count the processes it can take and the free processor; and it does not wait for the processor
while no process runs and one is ready. -/
def SemaforosCuentan (k : Nucleo) : Prop :=
  k.sem.processInReady + k.corto.listos
      = (k.listas .ready).length + (k.listas .auxiliar).length ∧
    (k.sem.cpuFreeToExecute + k.corto.cpu : ℤ) = 1 - (k.listas .running).length ∧
    ¬(k.corto = .esperaCpu ∧ k.sem.cpuFreeToExecute = 0 ∧ k.listas .running = [] ∧
      k.listas .ready ++ k.listas .auxiliar ≠ [])

instance (k : Nucleo) : Decidable (SemaforosCuentan k) :=
  inferInstanceAs (Decidable (_ ∧ _ ∧ ¬_))

/-- In every run that kills no process of the scheduler's queues its semaphores count them. -/
theorem semaforos_cuentan {k : Nucleo}
    (h : Transicion.AlcanzableCon sistema (fun k e => sinMatarListos k.vista e) k)
    (halg : k.config.algoritmo ≠ .otro) : SemaforosCuentan k := by
  have hI := (invariante_vista (I := fun v => v.algoritmo ≠ .otro → Contados v)
    (fun config _ => contados_iniciar config) (fun v e v' hB hI hC hm halg' => by
      have hv : v.algoritmo ≠ .otro := hm.config.1 ▸ halg'
      exact hm.contados hB (hI hv) hv hC) h).2 halg
  have hl := hI.listos
  have hc := hI.cpu
  rw [enListos_eq] at hl
  simp only [Nucleo.vista] at hl hc
  refine ⟨hl, by omega, ?_⟩
  rintro ⟨hcorto, hcpu, hrun, -⟩
  simp [hcorto, hcpu, hrun, FaseCorto.cpu] at hc

/-- A process runs and another one is ready. -/
def dosProcesos : Nucleo :=
  correr (fun k e => sinMatarListos k.vista e) ⟨.rr, 10, 3, []⟩
    (dosAdmitidos ++ [.corto 0, .corto 0, .corto 0, .corto 0]) (by decide +kernel)

theorem semaforos_cuentan_dosProcesos : SemaforosCuentan dosProcesos :=
  semaforos_cuentan (alcanzable_correr _) (by decide +kernel)

/-- The process in READY is killed; when the running one ends, the scheduler uses its token and
finds nothing to run. -/
def muerteEnReady : Nucleo :=
  correr (fun _ _ => True) ⟨.fifo, 10, 3, []⟩
    (dosAdmitidos ++
      [.corto 0, .corto 0, .corto 0, .finalizarProceso 2,
        .cpu { pid := 1, pc := 1, estado := .exec } .terminarProceso 5, .corto 5, .corto 5,
        .corto 5, .iniciarProceso, .memoria (.finalizarProceso 2), .memoria (.finalizarProceso 1),
        .memoria (.nuevoProceso 3), .largo, .largo, .largo])
    (by decide +kernel)

/-- The third process stays in READY, and the scheduler waits for a processor nobody has. -/
theorem semaforos_no_cuentan :
    ¬∀ k, Transicion.Alcanzable sistema k → k.config.algoritmo ≠ .otro → SemaforosCuentan k := by
  intro h
  exact absurd (h muerteEnReady (alcanzable_correr _) (by decide +kernel)) (by decide +kernel)

end Kernel
