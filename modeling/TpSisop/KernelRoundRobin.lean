/-
**Round Robin: who wakes the scheduler.**

Under RR the scheduler holds `sem_planificacion` while it waits for the end of the last quantum.
The timer ends it, but only if the process it started to count still runs, and the I/O requests do,
since they take their process off the CPU.  A WAIT that blocks takes its process off the CPU as well
and ends nothing.  As long as such a WAIT comes when another end of a quantum is on its way, the
scheduler is always woken; after one that does not, no process runs any more.

Main definitions:

* `Kernel.Hilos.Despertara` — an end of a quantum is there, or will be;
* `Kernel.Hilos.Perdido` — none will ever be;
* `Kernel.Trabado` — the scheduler waits for it, with a process in READY and nothing on its way;
* `Kernel.conQuantumPendiente` — the steps that do not lose it.

Main results:

* `Kernel.Avance.despertara`, `Kernel.Avance.perdido` — one step;
* `Kernel.rr_no_se_traba` — in every run whose steps meet the condition the scheduler is never
  stuck, and after a step that does not meet it nobody runs;
* `Kernel.rr_se_traba` — a process waits for a resource that has no instances.
-/

import TpSisop.KernelHilos

set_option relaxedAutoImplicit false
set_option autoImplicit false

namespace Kernel

variable {k k' : Nucleo} {e : Evento} {h' : Hilos}

/-! ### The process that runs -/

/-- `pid_ejecutando` names the process at the CPU, and only VRR times a process in the scheduler. -/
structure Hilos.EnTurno (h : Hilos) : Prop where
  enCpu : ∀ q, h.enCpu = some q → q.pid = h.pidEjecutando
  cuenta : ¬h.corto.sinCuenta → h.algoritmo = .vrr

theorem Avance.algoritmo (h : Avance k e h') : h'.algoritmo = k.config.algoritmo := by
  cases h <;> rfl

theorem Avance.enTurno (h : Avance k e h') (hT : k.hilos.EnTurno) : h'.EnTurno := by
  have hlibre : ∀ n q, (none : Option Pcb) = some q → q.pid = n := by simp
  have henviado : ∀ p q : Pcb, some p = some q → q.pid = p.pid := by
    rintro p _ ⟨⟩
    rfl
  cases h with
  | quieto he ht => exact hT
  | finaliza hpid => exact ⟨hT.enCpu, hT.cuenta⟩
  | corto hf hq hs => exact ⟨hT.enCpu, fun h => absurd hf h⟩
  | interrumpe hf hpid hq => exact ⟨hT.enCpu, fun h => absurd trivial h⟩
  | despacha hp hsin hf hrr =>
      refine ⟨henviado _, fun h => ?_⟩
      by_contra hvrr
      have hvrr : k.config.algoritmo ≠ .vrr := hvrr
      rw [hf, if_neg hvrr] at h
      exact h trivial
  | despachaRr hf hp hsin hn => exact ⟨henviado _, fun h => absurd trivial h⟩
  | arma hf hn => exact ⟨hT.enCpu, hT.cuenta⟩
  | suena hf => exact ⟨hT.enCpu, hT.cuenta⟩
  | calla hf hpid => exact ⟨hT.enCpu, hT.cuenta⟩
  | bloqueoIo => exact ⟨hlibre _, hT.cuenta⟩
  | bloqueoRecurso hb => exact ⟨hlibre _, hT.cuenta⟩
  | reanuda hb hpid hquantum htiempo => exact ⟨henviado _, hT.cuenta⟩
  | sale hb => exact ⟨hlibre _, hT.cuenta⟩

/-- The process whose message is handled is the one that `pid_ejecutando` names. -/
theorem Hilos.EnTurno.pid {p : Pcb} {m : MensajeCpu} {ahora : ℤ} (hT : k.hilos.EnTurno)
    (ha : admite k (.cpu p m ahora)) : p.pid = k.pidEjecutando := by
  obtain ⟨q, hq, hp⟩ := Option.map_eq_some_iff.1 ha.1
  rw [← hp]
  exact hT.enCpu q hq

theorem enTurno_alcanzable (h : Transicion.Alcanzable sistema k) : k.hilos.EnTurno := by
  refine (h.invariante (I := fun k => Transicion.Alcanzable sistema k ∧ k.hilos.EnTurno) ?_ ?_).2
  · rintro _ ⟨config, rfl⟩
    exact ⟨.inicio ⟨config, rfl⟩, by simp [Nucleo.hilos, iniciar], fun h => absurd trivial h⟩
  · rintro k e k' ⟨hk, hT⟩ - ⟨ha, hm⟩
    exact ⟨.paso hk trivial ⟨ha, hm⟩, (manejar_avance (base_alcanzable hk) ha hm).enTurno hT⟩

/-! ### The end of the quantum -/

/-- `sem_interruption_quantum` is up, or the timer will post it: it has a quantum to count, or the
one it counts is that of `pid_ejecutando`. -/
def Hilos.Despertara (h : Hilos) : Prop :=
  0 < h.interruptionQuantum ∨ 0 < h.begginQuantum ∨ h.reloj = .cuenta h.pidEjecutando

instance (h : Hilos) : Decidable h.Despertara := inferInstanceAs (Decidable (_ ∨ _ ∨ _))

/-- A WAIT that blocks its process under RR comes when the semaphore is up, or the timer has a
quantum to count, or counts one of nobody. -/
def conQuantumPendiente (k : Nucleo) : Evento → Prop
  | .cpu _ (.wait recurso) _ => k.config.algoritmo = .rr → k.bloquea recurso →
      0 < k.sem.interruptionQuantum ∨ 0 < k.sem.begginQuantum ∨ k.reloj = .cuenta 0
  | _ => True

instance (k : Nucleo) : DecidablePred (conQuantumPendiente k) := by
  intro e
  unfold conQuantumPendiente
  split <;> infer_instance

/-- Under RR a step that meets the condition leaves something to wake the scheduler. -/
theorem Avance.despertara (h : Avance k e h') (hT : k.hilos.EnTurno)
    (hrr : k.config.algoritmo = .rr) (ha : admite k e) (hC : conQuantumPendiente k e)
    (hD : k.hilos.Despertara) : h'.Despertara := by
  cases h with
  | quieto he ht => exact hD
  | finaliza hpid => exact hD
  | corto hf hq hs => exact hD
  | interrumpe hf hpid hq => exact .inl (Nat.succ_pos _)
  | despacha hp hlibre hf hne => exact absurd hrr hne
  | despachaRr hf hp hlibre hn => exact .inr (.inl (Nat.succ_pos _))
  | arma hf hn => exact .inr (.inr rfl)
  | suena hf => exact .inl (Nat.succ_pos _)
  | @calla pid hf hpid =>
      rcases hD with hD | hD | hD
      · exact .inl hD
      · exact .inr (.inl hD)
      · have hD : k.reloj = .cuenta k.pidEjecutando := hD
        rw [hf] at hD
        exact absurd (FaseReloj.cuenta.inj hD) hpid
  | bloqueoIo =>
      refine .inl ?_
      rw [if_pos (.inl hrr)]
      exact Nat.succ_pos _
  | bloqueoRecurso hb => exact hC hrr hb
  | reanuda hb hpid hquantum htiempo =>
      rcases hD with hD | hD | hD
      · exact .inl hD
      · exact .inr (.inl hD)
      · refine .inr (.inr ?_)
        rw [Hilos.enviar, hpid, hT.pid ha]
        exact hD
  | sale hb => exact hD

/-- RUNNING is empty, and nothing will post the semaphore. -/
structure Hilos.Perdido (h : Hilos) : Prop where
  algoritmo : h.algoritmo = .rr
  enCpu : h.enCpu = none
  pidEjecutando : h.pidEjecutando = 0
  interruptionQuantum : h.interruptionQuantum = 0
  begginQuantum : h.begginQuantum = 0
  reloj : h.reloj ≠ .cuenta 0
  corto : h.corto.sinCuenta

/-- A step that does not meet the condition loses the end of the quantum. -/
theorem Avance.perdido_of_not (h : Avance k e h') (hT : k.hilos.EnTurno)
    (hC : ¬conQuantumPendiente k e) : h'.Perdido := by
  unfold conQuantumPendiente at hC
  split at hC
  · rename_i p recurso ahora
    push Not at hC
    obtain ⟨hrr, hb, hiq, hbq, hreloj⟩ := hC
    have hcorto : k.corto.sinCuenta := by
      by_contra hcuenta
      have hvrr : k.config.algoritmo = .vrr := hT.cuenta hcuenta
      rw [hrr] at hvrr
      cases hvrr
    cases h with
    | quieto he ht => exact absurd trivial he
    | bloqueoRecurso hb =>
        exact ⟨hrr, rfl, rfl, Nat.le_zero.1 hiq, Nat.le_zero.1 hbq, hreloj, hcorto⟩
    | reanuda hnb hpid hquantum htiempo => exact absurd hb hnb
    | sale hnb => exact absurd hb hnb
  · exact absurd trivial hC

/-- What is lost stays lost. -/
theorem Avance.perdido (h : Avance k e h') (ha : admite k e) (hP : k.hilos.Perdido) :
    h'.Perdido := by
  have hcpu : ∀ {p m ahora}, ¬admite k (.cpu p m ahora) := by
    rintro p m ahora ⟨hq, -⟩
    rw [show k.enCpu = none from hP.enCpu] at hq
    cases hq
  have hpid : k.pidEjecutando = 0 := hP.pidEjecutando
  cases h with
  | quieto he ht => exact hP
  | finaliza hpid => exact { hP with }
  | corto hf hq hs => exact { hP with corto := hf }
  | interrumpe hf hpid hq =>
      have h := hP.corto
      rw [show k.hilos.corto = k.corto from rfl, hf] at h
      exact h.elim
  | despacha hp hlibre hf hrr => exact absurd hP.algoritmo hrr
  | despachaRr hf hp hlibre hn =>
      have h : k.sem.interruptionQuantum = 0 := hP.interruptionQuantum
      omega
  | arma hf hn =>
      have h : k.sem.begginQuantum = 0 := hP.begginQuantum
      omega
  | suena hf =>
      rw [hpid] at hf
      exact absurd hf hP.reloj
  | calla hf hpid => exact { hP with reloj := fun h => by cases h }
  | bloqueoIo => exact absurd ha hcpu
  | bloqueoRecurso hb => exact absurd ha hcpu
  | reanuda hb hpid hquantum htiempo => exact absurd ha hcpu
  | sale hb => exact absurd ha hcpu

/-! ### Every run -/

/-- READY has a process, nothing runs and nothing is on its way, and the scheduler waits, with
`sem_planificacion` in its hands, for an end of a quantum that nobody will post. -/
structure Trabado (k : Nucleo) : Prop where
  algoritmo : k.config.algoritmo = .rr
  pausar : k.pausar = true
  running : k.listas .running = []
  ready : k.listas .ready ≠ []
  enCpu : k.enCpu = none
  interfaces : ∀ n ∈ k.interfaces.claves, ∀ i ∈ k.interfaces.valor n, i.enviadas = []
  memoria : k.respondidas = k.memoria.length
  corto : k.corto = .esperaQuantum
  interruptionQuantum : k.sem.interruptionQuantum = 0
  reloj : ¬(0 < k.sem.begginQuantum ∨ k.reloj = .cuenta k.pidEjecutando)

/-- In a run whose steps meet the condition, the scheduler is never stuck; after a step that does
not meet it, in every state of every run, nothing runs and nothing will wake the scheduler. -/
theorem rr_no_se_traba (h : Transicion.AlcanzableCon sistema conQuantumPendiente k) :
    ¬Trabado k ∧
      ∀ e k₁ k', sistema.paso k e k₁ → ¬conQuantumPendiente k e →
        Transicion.Alcanzable (sistema.desde k₁) k' →
        k'.listas .running = [] ∧ ¬k'.hilos.Despertara := by
  have hI : Transicion.Alcanzable sistema k ∧ (k.config.algoritmo = .rr → k.hilos.Despertara) := by
    refine h.invariante (I := fun k => Transicion.Alcanzable sistema k ∧
      (k.config.algoritmo = .rr → k.hilos.Despertara)) ?_ ?_
    · rintro _ ⟨config, rfl⟩
      refine ⟨.inicio ⟨config, rfl⟩, fun hrr => .inl ?_⟩
      have hrr : config.algoritmo = .rr := hrr
      simp [Nucleo.hilos, iniciar, initSemaphores, hrr]
    · rintro k e k' ⟨hk, hD⟩ hC hpaso
      have hav := manejar_avance (base_alcanzable hk) hpaso.1 hpaso.2
      refine ⟨.paso hk trivial hpaso, fun hrr => ?_⟩
      have hrr : k.config.algoritmo = .rr := hav.algoritmo.symm.trans hrr
      exact hav.despertara (enTurno_alcanzable hk) hrr hpaso.1 hC (hD hrr)
  obtain ⟨hk, hD⟩ := hI
  refine ⟨fun hT => ?_, fun e k₁ k' hpaso hC h' => ?_⟩
  · rcases hD hT.algoritmo with h | h
    · exact absurd hT.interruptionQuantum (Nat.pos_iff_ne_zero.1 h)
    · exact hT.reloj h
  · have hP : Transicion.Alcanzable sistema k' ∧ k'.hilos.Perdido := by
      refine h'.invariante (I := fun k => Transicion.Alcanzable sistema k ∧ k.hilos.Perdido) ?_ ?_
      · rintro _ rfl
        have hav := manejar_avance (base_alcanzable hk) hpaso.1 hpaso.2
        exact ⟨.paso hk trivial hpaso, hav.perdido_of_not (enTurno_alcanzable hk) hC⟩
      · rintro k₂ e₂ k₃ ⟨hk₂, hP⟩ - hpaso₂
        have hav := manejar_avance (base_alcanzable hk₂) hpaso₂.1 hpaso₂.2
        exact ⟨.paso hk₂ trivial hpaso₂, hav.perdido hpaso₂.1 hP⟩
    obtain ⟨hk', hP⟩ := hP
    refine ⟨?_, ?_⟩
    · rw [show k'.listas .running = k'.vista.enCpu.toList from (base_alcanzable hk').enCpu,
        show k'.vista.enCpu = none from hP.enCpu]
      rfl
    · rintro (h | h | h)
      · exact absurd hP.interruptionQuantum (Nat.pos_iff_ne_zero.1 h)
      · exact absurd hP.begginQuantum (Nat.pos_iff_ne_zero.1 h)
      · exact hP.reloj (hP.pidEjecutando ▸ h)

/-- The first process asks for I/O, and the second one waits for a resource, with the semaphore up
each time; the interface wakes the first one, which is dispatched. -/
def vueltaDeTurno : Nucleo :=
  correr conQuantumPendiente ⟨.rr, 10, 3, [("RA", 0)]⟩
    (.conexionIo "GEN" 1 :: dosAdmitidos ++
      [.corto 0, .corto 0, .corto 0, .corto 0,
        .cpu { pid := 1, pc := 1, estado := .exec } (.io "GEN" .genSleep) 1,
        .corto 1, .corto 1, .corto 1, .corto 1,
        .cpu { pid := 2, pc := 1, estado := .exec } (.wait "RA") 2,
        .interfaz "GEN" ⟨1, .genSleep⟩ .finIo, .corto 3, .corto 3, .corto 3])
    (by decide +kernel)

theorem rr_no_se_traba_vueltaDeTurno :
    ¬Trabado vueltaDeTurno ∧
      ∀ e k₁ k', sistema.paso vueltaDeTurno e k₁ → ¬conQuantumPendiente vueltaDeTurno e →
        Transicion.Alcanzable (sistema.desde k₁) k' →
        k'.listas .running = [] ∧ ¬k'.hilos.Despertara :=
  rr_no_se_traba (alcanzable_correr _)

/-- The first process waits for a resource without instances while its quantum is counted. -/
def esperaSinQuantum : Nucleo :=
  correr (fun _ _ => True) ⟨.rr, 10, 3, [("RA", 0)]⟩
    (dosAdmitidos ++
      [.corto 0, .corto 0, .corto 0, .corto 0, .reloj,
        .cpu { pid := 1, pc := 1, estado := .exec } (.wait "RA") 1, .corto 1, .corto 1, .corto 1,
        .reloj])
    (by decide +kernel)

theorem rr_se_traba : ¬∀ k, Transicion.Alcanzable sistema k → ¬Trabado k := by
  intro h
  refine h esperaSinQuantum (alcanzable_correr _) ⟨?_, ?_, ?_, ?_, ?_, ?_, ?_, ?_, ?_, ?_⟩ <;>
    decide +kernel

end Kernel
