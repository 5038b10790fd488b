/-
**Who has the processor, one semaphore operation at a time.**

`sem_cpu_free_to_execute` counts one token.  `planificadorCortoPlazo` takes it, moves a process to
RUNNING and sends it to the CPU; `atender_cpu_dispatch` receives the process, and either sends it
back or takes it from RUNNING and gives the token back.  This module follows the token from thread
to thread: the code of each says what it may still do with it, and in every run at most one thread
may do something, with RUNNING as that thread expects it.

Main definitions:

* `KernelHebras.Papel`, `KernelHebras.turno` — what a thread has of the processor, and the
  discipline that its code follows;
* `KernelHebras.Casa` — where the token, RUNNING and the CPU are meanwhile;
* `KernelHebras.Turno` — the invariant.

Main results:

* `KernelHebras.Hace.turno` — the steps;
* `KernelHebras.turno_alcanzable`;
* `KernelHebras.Turno.reemplazar` — the process that comes back after WAIT or SIGNAL is alone in
  RUNNING.
-/

import TpSisop.KernelReglas

set_option relaxedAutoImplicit false
set_option autoImplicit false

namespace KernelHebras

open Kernel (Nucleo Pcb EstadoCode Lista Evento MensajeCpu)
open Cerrojos (Disciplina)

/-! ### Roles -/

/-- A thread has nothing of the processor, has the token, or has the process that is in RUNNING,
which it is to send to the CPU or to take from there. -/
inductive Papel
  | nada
  | ficha
  | proceso (pid : ℕ)
  deriving DecidableEq, Repr

namespace Papel

/-- What may be done with what a thread has. -/
def admite (π : Papel) : Orden → Prop
  | .hacer (.semPost c) => c = .cpuFreeToExecute → π = .ficha
  | .hacer .pasada | .hacer (.despachar _) => π = .ficha
  | .hacer (.actualizarEstadoPcb _ _ l) => l = .running → π = .ficha
  | .hacer (.enviarSiguientePcb p _) | .hacer (.bloquear p _) | .hacer (.dejarRunning p _ _)
  | .hacer (.expulsar p) | .hacer (.reemplazar p) | .hacer (.mensajeCpu p _)
  | .hacer (.recursoDecrementar _ p) => π = .proceso p.pid
  | _ => True

/-- What a thread has after an instruction. -/
def tras (π : Papel) : Orden → Papel
  | .hacer (.semWait c) => if c = .cpuFreeToExecute then .ficha else π
  | .hacer (.semPost c) => if c = .cpuFreeToExecute then .nada else π
  | .hacer (.actualizarEstadoPcb p _ l) => if l = .running then .proceso p.pid else π
  | .hacer .pasada | .hacer (.despachar _) | .hacer (.enviarSiguientePcb _ _)
  | .hacer (.mensajeCpu _ _) | .hacer (.recursoDecrementar _ _) => .nada
  | .hacer (.bloquear _ _) | .hacer (.dejarRunning _ _ _) | .hacer (.expulsar _) => .ficha
  | _ => π

end Papel

def turno : Disciplina Papel Orden where
  admite := Papel.admite
  tras := Papel.tras
  final _ := True

/-- The value of `sem_cpu_free_to_execute`, the pids in RUNNING, and the one in the CPU, while a
thread has something of the processor and the others nothing.  What a thread does not use is lost,
and nobody has it any more. -/
inductive Casa : ℕ → List ℕ → Option ℕ → Papel → Prop
  | libre : Casa 1 [] none .nada
  | enCpu (pid : ℕ) : Casa 0 [pid] (some pid) .nada
  | perdida (running : List ℕ) : Casa 0 running none .nada
  | ficha : Casa 0 [] none .ficha
  | proceso (pid : ℕ) : Casa 0 [pid] none (.proceso pid)

def Reparte (k : Nucleo) (π : Papel) : Prop :=
  Casa k.sem.cpuFreeToExecute ((k.listas .running).map Pcb.pid) (k.enCpu.map Pcb.pid) π

variable {k k' : Nucleo} {o : Accion} {e r : Codigo} {h : Hebra} {π : Papel} {P : Cerrojo → Prop}

/-- A thread forgets what it has. -/
theorem Reparte.pierde (hk : Reparte k π) : Reparte k .nada := by
  unfold Reparte at hk ⊢
  generalize k.sem.cpuFreeToExecute = n at hk ⊢
  generalize (k.listas .running).map Pcb.pid = running at hk ⊢
  generalize k.enCpu.map Pcb.pid = enCpu at hk ⊢
  cases hk with
  | libre => exact .libre
  | enCpu pid => exact .enCpu pid
  | perdida running => exact .perdida running
  | ficha => exact .perdida []
  | proceso pid => exact .perdida [pid]

theorem Reparte.ficha (hk : Reparte k .ficha) :
    k.sem.cpuFreeToExecute = 0 ∧ k.listas .running = [] ∧ k.enCpu = none := by
  unfold Reparte at hk
  generalize hn : k.sem.cpuFreeToExecute = n at hk
  generalize hr : (k.listas .running).map Pcb.pid = running at hk
  generalize he : k.enCpu.map Pcb.pid = enCpu at hk
  cases hk
  exact ⟨rfl, List.map_eq_nil_iff.1 hr, Option.map_eq_none_iff.1 he⟩

theorem Reparte.proceso {pid : ℕ} (hk : Reparte k (.proceso pid)) :
    k.sem.cpuFreeToExecute = 0 ∧ (k.listas .running).map Pcb.pid = [pid] ∧ k.enCpu = none := by
  unfold Reparte at hk
  generalize hn : k.sem.cpuFreeToExecute = n at hk
  generalize hr : (k.listas .running).map Pcb.pid = running at hk
  generalize he : k.enCpu.map Pcb.pid = enCpu at hk
  cases hk
  exact ⟨rfl, rfl, Option.map_eq_none_iff.1 he⟩

/-- While the token is there, or the CPU has a process, no thread has anything. -/
theorem Reparte.nada_of_pos (hk : Reparte k π) (hn : 0 < k.sem.cpuFreeToExecute) : π = .nada := by
  unfold Reparte at hk
  generalize k.sem.cpuFreeToExecute = n at hk hn
  generalize (k.listas .running).map Pcb.pid = running at hk
  generalize k.enCpu.map Pcb.pid = enCpu at hk
  cases hk with
  | libre | enCpu | perdida => rfl
  | ficha | proceso => cases hn

theorem Reparte.recibe {q : Pcb} (hk : Reparte k π) (he : k.enCpu = some q) :
    π = .nada ∧ Reparte { k with enCpu := none } (.proceso q.pid) := by
  unfold Reparte at hk ⊢
  rw [he, Option.map_some] at hk
  show _ ∧ Casa k.sem.cpuFreeToExecute ((k.listas .running).map Pcb.pid) none _
  generalize k.sem.cpuFreeToExecute = n at hk ⊢
  generalize (k.listas .running).map Pcb.pid = running at hk ⊢
  cases hk
  exact ⟨rfl, .proceso _⟩

theorem reparte_ficha (hn : k.sem.cpuFreeToExecute = 0) (hr : k.listas .running = [])
    (he : k.enCpu = none) : Reparte k .ficha := by
  rw [Reparte, hn, hr, he]
  exact .ficha

theorem reparte_congr (hn : k'.sem.cpuFreeToExecute = k.sem.cpuFreeToExecute)
    (hr : (k'.listas .running).map Pcb.pid = (k.listas .running).map Pcb.pid)
    (he : k'.enCpu = k.enCpu) : Reparte k' π ↔ Reparte k π := by
  rw [Reparte, Reparte, hn, hr, he]

theorem Marco.reparte (hm : Marco k k') : Reparte k' π ↔ Reparte k π :=
  reparte_congr hm.cpu (by rw [hm.listas]) hm.enCpu

theorem MarcoPids.reparte (hm : MarcoPids k k') (he : k'.enCpu = k.enCpu) :
    Reparte k' π ↔ Reparte k π :=
  reparte_congr hm.cpu (hm.pids _) he

theorem Saca.reparte {l : Lista} {p : Pcb} (hs : Saca k l p k') (hl : l ≠ .running) :
    Reparte k' π ↔ Reparte k π := by
  obtain ⟨a, b, -, hlistas⟩ := hs.sale
  refine reparte_congr hs.cpu ?_ hs.enCpu
  rw [hlistas, Function.update_of_ne (Ne.symm hl)]

/-- A process is taken from RUNNING, where it is alone. -/
theorem Saca.reparte_running {p : Pcb} {pid : ℕ} (hs : Saca k .running p k')
    (hk : Reparte k (.proceso pid)) : Reparte k' .ficha := by
  obtain ⟨hn, hr, he⟩ := hk.proceso
  obtain ⟨a, b, hlista, hlistas⟩ := hs.sale
  refine reparte_ficha (hs.cpu.trans hn) ?_ (hs.enCpu.trans he)
  rw [hlistas, Function.update_self]
  rw [hlista] at hr
  cases a <;> simp_all

theorem actualizarEstadoPcb_reparte {p : Pcb} {state : EstadoCode} {l : Lista} (hl : l ≠ .running) :
    Reparte (k.actualizarEstadoPcb p state l) π ↔ Reparte k π := by
  refine reparte_congr rfl ?_ rfl
  exact congrArg _ (Familia.agregar_of_ne (Ne.symm hl))

/-- A process is alone in RUNNING. -/
theorem Reparte.running {pid : ℕ} {q : Pcb} {b : List Pcb} (hk : Reparte k (.proceso pid))
    (hr : k.listas .running = q :: b) : q.pid = pid ∧ b = [] := by
  have := hk.proceso.2.1
  rw [hr] at this
  simpa using this

/-! ### The steps -/

section

attribute [local simp] turno Papel.admite Papel.tras semPost semWait permite

/-- What a thread may do without anything of the processor changes nothing about it, and calls
nothing that does. -/
theorem Hace.ajena (ho : Hace k o k' e) (hperm : permite h P o)
    (ha : Papel.admite .nada (.hacer o)) (hne : o ≠ .semWait .cpuFreeToExecute) (π : Papel) :
    turno.Cubre π e π ∧ (Reparte k' π ↔ Reparte k π) := by
  cases ho with
  | nada ho hm => exact ⟨rfl, hm.reparte⟩
  | semWaitCpu => exact absurd rfl hne
  | semPostCpu => simp at ha
  | pausar b => exact ⟨rfl, reparte_congr rfl rfl rfl⟩
  | crearPcb hm => exact ⟨by simp, hm.reparte⟩
  | copiarMListNew => exact ⟨by simp, Iff.rfl⟩
  | agregarANew p => exact ⟨rfl, reparte_congr rfl rfl rfl⟩
  | actualizarEstadoPcb p state l => exact ⟨rfl, actualizarEstadoPcb_reparte (by simpa using ha)⟩
  | desbloquear hs hl => exact ⟨by rcases hl with rfl | rfl <;> simp, hs.reparte (by simp)⟩
  | contadorQuantumVrr | turnoQuantumVrr => exact ⟨by simp, Iff.rfl⟩
  | recursoIncrementar hm | recursoObtenerBloqueado hm => exact ⟨by simp, hm.reparte⟩
  | otorgar hb hm he => exact ⟨by simp [desbloquearProceso], hm.reparte he⟩
  | recursoAgregarBloqueado hm he => exact ⟨rfl, hm.reparte he⟩
  | liberarTomados => exact ⟨by simp, Iff.rfl⟩
  | hayarFin hm => exact ⟨by simp, hm.reparte⟩
  | @hayar l ls p k' hs =>
      refine ⟨by simp, hs.reparte ?_⟩
      rintro rfl
      simp at hperm
  | hayarOtra => exact ⟨by simp, Iff.rfl⟩
  | eliminarProceso p =>
      exact ⟨by simp [eliminarAfuera, liberarRecursosTomados], Iff.rfl⟩
  | errorIo hs => exact ⟨by simp, hs.reparte (by simp)⟩
  | comparar => exact ⟨rfl, Iff.rfl⟩
  | compararOtraVez => exact ⟨by simp [probarGrado], Iff.rfl⟩
  | admitir => exact ⟨by simp, reparte_congr rfl rfl rfl⟩
  | _ => simp at ha

theorem cubre_atenderCpuDispatch (k : Nucleo) (p : Pcb) (m : MensajeCpu) :
    turno.Cubre (.proceso p.pid) (atenderCpuDispatch k p m) .nada := by
  cases m with
  | io nombre operacion =>
      simp only [atenderCpuDispatch]
      split
      · simp [rechazar]
      · unfold peticionIo
        split <;> simp [bloquearProceso]
  | interrupcion => simp [atenderCpuDispatch, finDeQuantum]
  | outOfMemory | terminarProceso =>
      simp [atenderCpuDispatch, terminar, liberarRecursosTomados]
  | wait recurso =>
      simp only [atenderCpuDispatch]
      split <;> simp [rechazar]
  | signal recurso =>
      simp only [atenderCpuDispatch]
      split <;> simp [rechazar, reanudar]

theorem cubre_trasDespachar_turno (k : Nucleo) (quantum : ℤ) :
    turno.Cubre .nada (trasDespachar k quantum) .nada := by
  unfold trasDespachar
  split <;> simp

/-- Such a step leaves what the thread has as it is. -/
theorem tras_of_ajena (ha : Papel.admite .nada (.hacer o)) (hne : o ≠ .semWait .cpuFreeToExecute) :
    Papel.tras π (.hacer o) = π := by
  cases o <;> simp_all

/-- What a thread that has something of the processor does. -/
theorem Hace.turno (ho : Hace k o k' e) (hperm : permite h P o)
    (hr : turno.Respeta π (.hacer o :: r)) (hk : Reparte k π) :
    ∃ ρ, turno.Respeta ρ (e ++ r) ∧ Reparte k' ρ := by
  obtain ⟨hadm, hr⟩ := hr
  by_cases ha : Papel.admite .nada (.hacer o) ∧ o ≠ .semWait .cpuFreeToExecute
  · obtain ⟨he, hk'⟩ := ho.ajena hperm ha.1 ha.2 π
    refine ⟨π, he.respeta ?_, hk'.2 hk⟩
    rwa [← tras_of_ajena (π := π) ha.1 ha.2]
  cases ho with
  | @semWaitCpu n hn =>
      -- the token is there, so the processor is free
      unfold Reparte at hk
      generalize hrun : (k.listas .running).map Pcb.pid = running at hk
      generalize hcpu : k.enCpu.map Pcb.pid = enCpu at hk
      rw [hn] at hk
      cases hk
      refine ⟨.ficha, by simpa using hr, reparte_ficha rfl (List.map_eq_nil_iff.1 hrun) ?_⟩
      exact Option.map_eq_none_iff.1 hcpu
  | semPostCpu =>
      obtain rfl : π = .ficha := hadm rfl
      obtain ⟨hn, hrun, hcpu⟩ := hk.ficha
      refine ⟨.nada, by simpa using hr, ?_⟩
      have : Reparte (conValor k .cpuFreeToExecute (k.sem.cpuFreeToExecute + 1)) .nada ↔
          Casa (k.sem.cpuFreeToExecute + 1) ((k.listas .running).map Pcb.pid)
            (k.enCpu.map Pcb.pid) .nada := Iff.rfl
      rw [this, hn, hrun, hcpu]
      exact .libre
  | actualizarEstadoPcb p state l =>
      obtain rfl : l = .running := by simpa using ha
      obtain rfl : π = .ficha := hadm rfl
      obtain ⟨hn, hrun, hcpu⟩ := hk.ficha
      refine ⟨.proceso p.pid, by simpa using hr, ?_⟩
      have hlista : (k.actualizarEstadoPcb p state .running).listas .running =
          [{ p with estado := state }] := by
        simp [Kernel.Nucleo.actualizarEstadoPcb, hrun]
      rw [Reparte, hlista]
      show Casa k.sem.cpuFreeToExecute [p.pid] (k.enCpu.map Pcb.pid) _
      rw [hn, hcpu]
      exact .proceso p.pid
  | bloquear hs hpid hp =>
      obtain rfl : π = _ := hadm
      exact ⟨.ficha, by simpa using hr, hs.reparte_running hk⟩
  | pasadaNada => exact ⟨.nada, by simpa using hr, hk.pierde⟩
  | pasada hl =>
      obtain rfl : π = .ficha := hadm
      exact ⟨.ficha, by simpa using hr, hk⟩
  | pasadaRr =>
      obtain rfl : π = .ficha := hadm
      exact ⟨.ficha, by simpa using hr, hk⟩
  | @despachar l p q k' hs hp =>
      obtain rfl : π = .ficha := hadm
      have hl : l ≠ .running := by rcases hperm.2.2 with rfl | rfl <;> simp
      refine ⟨.ficha, ?_, (hs.reparte hl).2 hk⟩
      refine Disciplina.Cubre.respeta (y := .nada) ?_ hr
      exact Disciplina.Cubre.append (y := .nada) (by simp) (cubre_trasDespachar_turno k p.quantum)
  | @enviarSiguientePcb p q b k' hm henCpu hq =>
      obtain rfl : π = .proceso p.pid := hadm
      obtain ⟨hn, hrun, hcpu⟩ := hk.proceso
      refine ⟨.nada, by simpa using hr, ?_⟩
      rw [Reparte, hm.cpu, hm.pids, hn, hrun, henCpu, Option.map_some, hq]
      exact .enCpu p.pid
  | @recursoEspera recurso p k' hm =>
      obtain rfl : π = .proceso p.pid := hadm
      refine ⟨.proceso p.pid, Disciplina.Cubre.respeta (y := .nada) ?_ hr, hm.reparte.2 hk⟩
      simp [bloquearProceso]
  | @recursoConcede recurso p p' k' hm hp =>
      obtain rfl : π = .proceso p.pid := hadm
      refine ⟨.proceso p.pid, Disciplina.Cubre.respeta (y := .nada) ?_ hr, hm.reparte.2 hk⟩
      simp [reanudar, hp]
  | mensajeCpu p m =>
      obtain rfl : π = .proceso p.pid := hadm
      exact ⟨.proceso p.pid, (cubre_atenderCpuDispatch k p m).respeta hr, hk⟩
  | @expulsar p q b hrun =>
      obtain rfl : π = .proceso p.pid := hadm
      obtain ⟨hn, -, hcpu⟩ := hk.proceso
      refine ⟨.ficha, by simpa using hr, reparte_ficha hn ?_ hcpu⟩
      simp [Kernel.Nucleo.conLista, (hk.running hrun).2]
  | @dejarRunning p q state l b hrun =>
      obtain rfl : π = .proceso p.pid := hadm
      obtain ⟨hn, -, hcpu⟩ := hk.proceso
      refine ⟨.ficha, ?_, reparte_ficha hn ?_ hcpu⟩
      · rcases hperm.1 with rfl | rfl <;> simpa using hr
      · simp [Kernel.Nucleo.conLista, (hk.running hrun).2]
  | @reemplazar p q b hrun =>
      obtain rfl : π = .proceso p.pid := hadm
      obtain ⟨hn, -, hcpu⟩ := hk.proceso
      refine ⟨.proceso p.pid, by simpa using hr, ?_⟩
      have hlista : (k.conLista .running (b ++ [p])).listas .running = [p] := by
        simp [Kernel.Nucleo.conLista, (hk.running hrun).2]
      rw [Reparte, hlista]
      show Casa k.sem.cpuFreeToExecute [p.pid] (k.enCpu.map Pcb.pid) _
      rw [hn, hcpu]
      exact .proceso p.pid
  | @nada o k' ho hm =>
      refine ⟨.nada, ?_, hm.reparte.2 hk.pierde⟩
      cases o <;> simp_all [Accion.Neutra]
  | _ => simp_all

/-- A thread that starts needs nothing of the processor, unless it is the one that the CPU sends a
process to. -/
theorem Arranca.turno {ev : Evento} (ha : Arranca k h ev k' r) (hh : h ≠ .dispatch) (π : Papel) :
    turno.Respeta π r ∧ (Reparte k' π ↔ Reparte k π) := by
  cases ha with
  | crear => exact ⟨by simp, Iff.rfl⟩
  | iniciar =>
      refine ⟨?_, Iff.rfl⟩
      unfold iniciarPlanificacion
      split <;> simp
  | detener =>
      refine ⟨?_, Iff.rfl⟩
      unfold detenerPlanificacion
      split <;> simp
  | finalizar n pid => exact ⟨by simp [finalizarProceso], Iff.rfl⟩
  | dispatch => exact absurd rfl hh
  | @io nombre pet re k' hm =>
      refine ⟨?_, hm.reparte⟩
      cases re <;> simp [atenderIo, desbloquearProceso]
  | corto ahora => exact ⟨by simp [cicloCorto], Iff.rfl⟩
  | largo => exact ⟨by simp [cicloLargo, probarGrado], Iff.rfl⟩

end

/-! ### Every run -/

/-- At most one thread has something of the processor, and RUNNING and the CPU are as it expects. -/
def Turno (s : Estado) : Prop :=
  ∃ h π, (∀ j, j ≠ h → turno.Respeta .nada (s.codigo j)) ∧ turno.Respeta π (s.codigo h) ∧
    Reparte s.nucleo π

variable {s s' : Estado} {a : Suceso}

/-- Nobody has more or less than before. -/
theorem Turno.igual (ht : Turno s)
    (hcodigo : ∀ j π, turno.Respeta π (s.codigo j) → turno.Respeta π (s'.codigo j))
    (hk : ∀ π, Reparte s.nucleo π → Reparte s'.nucleo π) : Turno s' := by
  obtain ⟨h, π, hotras, hh, hr⟩ := ht
  exact ⟨h, π, fun j hj => hcodigo j _ (hotras j hj), hcodigo h π hh, hk π hr⟩

/-- The code of one thread is replaced. -/
theorem respeta_update {f : Hebra → Codigo} {j : Hebra}
    (hr : turno.Respeta π (f h) → turno.Respeta π r) (hj : turno.Respeta π (f j)) :
    turno.Respeta π (Function.update f h r j) := by
  by_cases hjh : j = h
  · subst hjh
    rw [Function.update_self]
    exact hr hj
  · rwa [Function.update_of_ne hjh]

/-- One thread has something of the processor from now on. -/
theorem Turno.cambia {f : Hebra → Codigo} (hotras : ∀ j, j ≠ h → turno.Respeta .nada (f j))
    (hr : turno.Respeta π r) (hk : Reparte k π) (hcodigo : s.codigo = Function.update f h r)
    (hnucleo : s.nucleo = k) : Turno s := by
  refine ⟨h, π, fun j hj => ?_, ?_, hnucleo ▸ hk⟩
  · rw [hcodigo, Function.update_of_ne hj]
    exact hotras j hj
  · rwa [hcodigo, Function.update_self]

theorem turno_paso (hs : Ordenado s) (ht : Turno s) (hp : Paso s a s') : Turno s' := by
  cases hp with
  | @llega h ev k r hp ha hr =>
      have ha' := arranca_of_arrancar hr
      by_cases hh : h = .dispatch
      · subst hh
        cases ha' with
        | dispatch p m ahora =>
            obtain ⟨q, hq, hqp⟩ := Option.map_eq_some_iff.1 ha.1
            have hpid : q.pid = p.pid := by rw [← hqp]
            obtain ⟨j, π, hotras, hj, hk⟩ := ht
            obtain ⟨rfl, hk'⟩ := hk.recibe hq
            have hr : turno.Respeta (.proceso q.pid) [.hacer (.mensajeCpu p m)] :=
              ⟨congrArg _ hpid, trivial⟩
            refine Turno.cambia (f := s.codigo) (fun i hi => ?_) hr hk' rfl rfl
            by_cases hij : i = j
            · exact hij ▸ hj
            · exact hotras i hij
      · exact ht.igual (fun j π => respeta_update fun _ => (ha'.turno hh π).1)
          fun π => (ha'.turno hh π).2.2
  | directo he ha hm =>
      refine ht.igual (fun j π hj => hj) fun π hk => ?_
      cases haceDirecto_of_manejar he hm with
      | marco hm => exact hm.reparte.2 hk
      | multiprogramacion valor => exact (reparte_congr rfl rfl rfl).2 hk
  | @esperar h ahora c r hh hc =>
      refine ht.igual (fun j π => respeta_update fun hj => ?_) fun π hk => ?_
      · exact (hh ▸ hj : turno.Respeta π (.esperar c :: r)).2
      · exact (reparte_congr (by simp) (by simp) (by simp)).2 hk
  | @avisar h ahora c r hh =>
      refine ht.igual (fun j π => respeta_update fun hj => ?_) fun π hk => ?_
      · exact (hh ▸ hj : turno.Respeta π (.avisar c :: r)).2
      · exact (reparte_congr (by simp) (by simp) (by simp)).2 hk
  | @hacer h ahora o r e k hh ho =>
      have ho := hace_of_ejecutar ho
      have hperm : permite h (s.reparto.tiene h) o := hs.enRegla.permite hh
      by_cases ha : Papel.admite .nada (.hacer o) ∧ o ≠ .semWait .cpuFreeToExecute
      · refine ht.igual (fun j π => respeta_update fun hj => ?_) fun π hk => ?_
        · refine (ho.ajena hperm ha.1 ha.2 π).1.respeta ?_
          rw [← tras_of_ajena (π := π) ha.1 ha.2]
          exact (hh ▸ hj : turno.Respeta π (.hacer o :: r)).2
        · exact (ho.ajena hperm ha.1 ha.2 π).2.2 hk
      -- only the thread that has something may take such a step, or any one if nobody has
      obtain ⟨j, π, hotras, hj, hk⟩ := ht
      have hh' : turno.Respeta .nada (s.codigo h) → o = .semWait .cpuFreeToExecute := by
        intro hr
        rw [hh] at hr
        by_contra hne
        exact ha ⟨hr.1, hne⟩
      by_cases hjh : h = j
      · subst hjh
        obtain ⟨ρ, hr, hk'⟩ := ho.turno hperm (hh ▸ hj) hk
        exact Turno.cambia (f := s.codigo) hotras hr hk' rfl rfl
      · have hnada := hotras h hjh
        have hpos : 0 < s.nucleo.sem.cpuFreeToExecute := by
          obtain rfl := hh' hnada
          cases ho with
          | semWaitCpu hn => omega
          | nada hne => exact absurd rfl hne
        obtain rfl := hk.nada_of_pos hpos
        obtain ⟨ρ, hr, hk'⟩ := ho.turno hperm (hh ▸ hnada) hk
        refine Turno.cambia (f := s.codigo) (fun i hi => ?_) hr hk' rfl rfl
        by_cases hij : i = j
        · exact hij ▸ hj
        · exact hotras i hij

theorem turno_inicial (config : Kernel.Config) : Turno { nucleo := Kernel.iniciar config } :=
  ⟨.consola, .nada, fun _ _ => trivial, trivial, .libre⟩

theorem turno_alcanzable {C : Estado → Suceso → Prop} (hs : Transicion.AlcanzableCon sistema C s) :
    Turno s := by
  induction hs with
  | inicio hi =>
      obtain ⟨config, rfl⟩ := hi
      exact turno_inicial config
  | paso hs _ hp ih => exact turno_paso (ordenado_alcanzable hs) ih (paso_of_avanzar hp)

/-- The process that comes back after WAIT or SIGNAL is alone in RUNNING. -/
theorem Turno.reemplazar (ht : Turno s) {p : Pcb} (hh : s.codigo h = .hacer (.reemplazar p) :: r) :
    (s.nucleo.listas .running).map Pcb.pid = [p.pid] := by
  obtain ⟨j, π, hotras, hj, hk⟩ := ht
  by_cases hjh : h = j
  · subst hjh
    rw [hh] at hj
    obtain rfl : π = .proceso p.pid := hj.1
    exact hk.proceso.2.1
  · have hnada := hotras h hjh
    rw [hh] at hnada
    cases hnada.1

end KernelHebras
