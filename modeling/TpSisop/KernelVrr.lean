/-
**Virtual Round Robin: what a process is charged for.**

Under VRR a process that comes back from a block with some of its quantum left goes to the priority
queue, and gets only that much the next time.  The kernel charges a process for a stretch at the CPU
when the stretch ends in an I/O request, and `bloquear_proceso` is told not to when it ends in a
WAIT.  Next to the kernel this module keeps the time that each process has really used since it was
last dispatched from READY, and shows what the PCB and the timer make of it.

Main definitions:

* `Kernel.Medido`, `Kernel.sistemaMedido` — the kernel and the time its processes used;
* `Kernel.Medido.cobrado` — the part of it that ended in I/O requests, or still runs;
* `Kernel.Medido.EnCuenta` — the PCBs and the timer agree with what was charged.

Main results:

* `Kernel.Medido.EnCuenta.paso` — one step;
* `Kernel.vrr_contabilidad` — in every run, whatever the clock;
* `Kernel.vrr_no_cobra_wait` — a process runs for three units and waits for a resource, and its PCB
  does not know.
-/

import TpSisop.KernelEncolado
import TpSisop.KernelRegistro
import TpSisop.KernelRoundRobin

set_option relaxedAutoImplicit false
set_option autoImplicit false

namespace Kernel

/-! ### The time that is used -/

/-- The kernel, the time every process used since it was last dispatched from READY, the part of it
that ended in a WAIT, when the process at the CPU was dispatched, and when the timer interrupted
it. -/
structure Medido where
  nucleo : Nucleo
  usado : ℕ → ℤ := fun _ => 0
  noCobrado : ℕ → ℤ := fun _ => 0
  inicio : ℤ := 0
  avisado : Option ℤ := none

namespace Medido

/-- What the process is charged for. -/
def cobrado (s : Medido) (pid : ℕ) : ℤ := s.usado pid - s.noCobrado pid

def quantum (s : Medido) : ℤ := s.nucleo.config.quantum

/-- A process goes to the CPU; if it comes from READY its account is new. -/
def despachar (s : Medido) (p : Pcb) (ahora : ℤ) : Medido :=
  if ∃ q ∈ s.nucleo.listas .ready, q.pid = p.pid then
    { s with
      usado := Function.update s.usado p.pid 0
      noCobrado := Function.update s.noCobrado p.pid 0
      inicio := ahora
      avisado := none }
  else { s with inicio := ahora, avisado := none }

/-- The process at the CPU blocks, and its stretch ends. -/
def bloquear (s : Medido) (p : Pcb) (m : MensajeCpu) (ahora : ℤ) : Medido :=
  let tramo := ahora - s.inicio
  { s with
    usado := Function.update s.usado p.pid (s.usado p.pid + tramo)
    noCobrado := Function.update s.noCobrado p.pid
      (s.noCobrado p.pid + if m.esIo then 0 else tramo) }

/-- The accounts after an event that leaves the kernel in `k'`. -/
def medir (s : Medido) (k' : Nucleo) : Evento → Medido
  | .corto ahora =>
      match s.nucleo.enCpu, k'.enCpu with
      | none, some p => s.despachar p ahora
      | _, _ => if k'.interrupt = s.nucleo.interrupt then s else { s with avisado := some ahora }
  | .cpu p m ahora =>
      if ∃ q ∈ k'.listas .blocked, q.pid = p.pid then s.bloquear p m ahora else s
  | _ => s

def conNucleo (s : Medido) (k : Nucleo) : Medido := { s with nucleo := k }

@[simp] theorem conNucleo_nucleo (s : Medido) (k : Nucleo) : (s.conNucleo k).nucleo = k := rfl

@[simp] theorem conNucleo_cobrado (s : Medido) (k : Nucleo) (pid : ℕ) :
    (s.conNucleo k).cobrado pid = s.cobrado pid := rfl

@[simp] theorem conNucleo_inicio (s : Medido) (k : Nucleo) : (s.conNucleo k).inicio = s.inicio :=
  rfl

@[simp] theorem conNucleo_avisado (s : Medido) (k : Nucleo) :
    (s.conNucleo k).avisado = s.avisado := rfl

theorem bloquear_cobrado (s : Medido) (p : Pcb) (m : MensajeCpu) (ahora : ℤ) :
    (s.bloquear p m ahora).cobrado p.pid
      = s.cobrado p.pid + if m.esIo then ahora - s.inicio else 0 := by
  simp only [bloquear, cobrado, Function.update_self]
  split <;> omega

theorem bloquear_cobrado_of_ne (s : Medido) (p : Pcb) (m : MensajeCpu) (ahora : ℤ) {pid : ℕ}
    (h : pid ≠ p.pid) : (s.bloquear p m ahora).cobrado pid = s.cobrado pid := by
  simp [bloquear, cobrado, h]

theorem despachar_cobrado_of_ne (s : Medido) (p : Pcb) (ahora : ℤ) {pid : ℕ} (h : pid ≠ p.pid) :
    (s.despachar p ahora).cobrado pid = s.cobrado pid := by
  unfold despachar cobrado
  split <;> simp [h]

theorem despachar_nuevo (s : Medido) (p : Pcb) (ahora : ℤ) :
    (s.despachar p ahora).inicio = ahora ∧ (s.despachar p ahora).avisado = none := by
  unfold despachar
  split <;> exact ⟨rfl, rfl⟩

end Medido

/-- The PCBs that wait, and the one that runs, have what is left of the quantum; the timer counts
down the one that runs, or has interrupted it when it had used all of its quantum. -/
structure Medido.EnCuenta (s : Medido) : Prop where
  vrr : s.nucleo.config.algoritmo = .vrr
  auxiliar : ∀ p ∈ s.nucleo.listas .auxiliar,
    p.quantum = s.quantum - s.cobrado p.pid ∧ 0 < p.quantum ∧ p.quantum < s.quantum
  blocked : ∀ p ∈ s.nucleo.listas .blocked, p.quantum = s.quantum - s.cobrado p.pid
  enCpu : ∀ p, s.nucleo.enCpu = some p →
    p.quantum = s.quantum - s.cobrado p.pid ∧ p.tiempoInicial = s.inicio
  cuenta : ∀ p, s.nucleo.enCpu = some p → s.avisado = none →
    s.nucleo.corto = .cuenta p.pid s.inicio p.quantum
  aviso : ∀ p, s.nucleo.enCpu = some p → ∀ t, s.avisado = some t →
    s.nucleo.corto.sinCuenta ∧ s.quantum ≤ s.cobrado p.pid + (t - s.inicio)

variable {s s' : Medido} {k k' : Nucleo} {e : Evento} {p q : Pcb}

theorem Avance.quantum {h' : Hilos} (h : Avance k e h') : h'.quantum = k.config.quantum := by
  cases h <;> rfl

/-- The queues, when the accounts of their processes are as they were. -/
theorem Medido.EnCuenta.colas {t : Medido} (hI : s.EnCuenta) (h : Encola s.nucleo k')
    (hc : ∀ l, l = .auxiliar ∨ l = .blocked → ∀ p ∈ s.nucleo.listas l,
      t.cobrado p.pid = s.cobrado p.pid) :
    (∀ p ∈ k'.listas .auxiliar,
      p.quantum = s.quantum - t.cobrado p.pid ∧ 0 < p.quantum ∧ p.quantum < s.quantum) ∧
    ∀ p ∈ k'.listas .blocked, p.quantum = s.quantum - t.cobrado p.pid := by
  have hb : ∀ {p q : Pcb}, q ∈ s.nucleo.listas .blocked → q.MismoQuantum p →
      p.quantum = s.quantum - t.cobrado p.pid := by
    intro p q hq hqp
    rw [← hqp.pid, hc .blocked (.inr rfl) q hq, ← hqp.quantum]
    exact hI.blocked q hq
  refine ⟨fun p hp => ?_, fun p hp => ?_⟩
  · rcases h.auxiliar p hp with hp | ⟨⟨q, hq, hqp⟩, hpos, hlt⟩
    · rw [hc .auxiliar (.inl rfl) p hp]
      exact hI.auxiliar p hp
    · exact ⟨hb hq hqp, hpos, hlt⟩
  · obtain ⟨q, hq, hqp⟩ := h.blocked p hp
    exact hb hq hqp

/-- A process that runs is in neither of the two queues, nor in any other list. -/
theorem Base.pid_ne (hB : Base k.vista) (hp : k.enCpu = some p) {l : Lista} (hl : l ≠ .running)
    (hq : q ∈ k.listas l) : q.pid ≠ p.pid := by
  have hrun : p ∈ k.vista.listas .running := by
    rw [hB.enCpu, show k.vista.enCpu = some p from hp]
    simp
  exact fun h => hl (eq_of_pid (hB.veces_le _) hrun hq h).1

/-- The process at the CPU stays there, with its account as it was: what is left to show is about
the timer. -/
theorem Medido.EnCuenta.sigue (hI : s.EnCuenta) (h : Encola s.nucleo k')
    (halg : k'.config.algoritmo = s.nucleo.config.algoritmo) (hcpu : k'.enCpu = s.nucleo.enCpu)
    (hcobrado : ∀ pid, s'.cobrado pid = s.cobrado pid) (hinicio : s'.inicio = s.inicio)
    (hcuenta : ∀ p, s.nucleo.enCpu = some p → s'.avisado = none →
      k'.corto = .cuenta p.pid s.inicio p.quantum)
    (haviso : ∀ p, s.nucleo.enCpu = some p → ∀ t, s'.avisado = some t →
      k'.corto.sinCuenta ∧ s.quantum ≤ s.cobrado p.pid + (t - s.inicio)) :
    (s'.conNucleo k').EnCuenta := by
  have hQ : (s'.conNucleo k').quantum = s.quantum := h.quantum
  obtain ⟨haux, hblo⟩ := hI.colas h (t := s'.conNucleo k') fun _ _ _ _ => hcobrado _
  refine ⟨halg.trans hI.vrr, hQ ▸ haux, hQ ▸ hblo, fun p hp => ?_, fun p hp => ?_, fun p hp => ?_⟩
  · rw [hQ, conNucleo_cobrado, hcobrado, conNucleo_inicio, hinicio]
    exact hI.enCpu p (hcpu ▸ hp)
  · rw [conNucleo_inicio, hinicio]
    exact hcuenta p (hcpu ▸ hp)
  · rw [hQ, conNucleo_cobrado, hcobrado, conNucleo_inicio, hinicio]
    exact haviso p (hcpu ▸ hp)

/-- Nothing happens to the process at the CPU, to the scheduler or to the accounts. -/
theorem Medido.EnCuenta.quieto (hI : s.EnCuenta) (h : Encola s.nucleo k')
    (halg : k'.config.algoritmo = s.nucleo.config.algoritmo)
    (hcpu : k'.enCpu = s.nucleo.enCpu) (hcorto : k'.corto = s.nucleo.corto) :
    (s.conNucleo k').EnCuenta :=
  hI.sigue h halg hcpu (fun _ => rfl) rfl (hcorto ▸ hI.cuenta) (hcorto ▸ hI.aviso)

/-- The process at the CPU gives it up without blocking. -/
theorem Medido.EnCuenta.sinNadie (hI : s.EnCuenta) (h : Encola s.nucleo k')
    (halg : k'.config.algoritmo = s.nucleo.config.algoritmo) (hcpu : k'.enCpu = none) :
    (s.conNucleo k').EnCuenta := by
  have hQ : (s.conNucleo k').quantum = s.quantum := h.quantum
  obtain ⟨haux, hblo⟩ := hI.colas h (t := s.conNucleo k') fun _ _ _ _ => rfl
  exact ⟨halg.trans hI.vrr, hQ ▸ haux, hQ ▸ hblo, by simp [hcpu], by simp [hcpu], by simp [hcpu]⟩

/-! ### The scheduler and the timer -/

theorem Medido.medir_corto (s : Medido) (ahora : ℤ) (hcpu : k'.enCpu = s.nucleo.enCpu) :
    s.medir k' (.corto ahora)
      = if k'.interrupt = s.nucleo.interrupt then s else { s with avisado := some ahora } := by
  unfold Medido.medir
  rw [hcpu]
  cases s.nucleo.enCpu <;> rfl

/-- The timer does not lose the process that runs. -/
theorem not_abandona (hA : Anotado k) (hB : Base k.vista) (hT : k.hilos.EnTurno)
    (hp : k.enCpu = some p) : ¬k.abandona p.pid := by
  have hrun : p ∈ k.listas .running := by
    rw [show k.listas .running = k.enCpu.toList from hB.enCpu, hp]
    simp
  have hpos := hA.pid_pos .running p hrun
  have hpid : p.pid = k.pidEjecutando := hT.enCpu p hp
  have hest : Coleccion.obtener k.estadosProcesos (p.pid - 1) = some .exec := by
    rw [show (p.pid : ℤ) - 1 = ((p.pid - 1 : ℕ) : ℤ) by omega, Coleccion.obtener_natCast]
    exact (hA.estados .running p hrun).2
  rintro (h | h | h | h)
  · rw [hest] at h
    cases h
  · rw [hest] at h
    cases h
  · omega
  · exact h hpid

/-- What the scheduler sends under VRR. -/
theorem proximo_vrr {ahora : ℤ} (halg : k.config.algoritmo = .vrr) (hH : Hilada k)
    (hp : k.proximo ahora = some p) : p.tiempoInicial = ahora ∧
      ((∃ q ∈ k.listas .auxiliar, q.MismoQuantum p) ∨
        ∃ q ∈ k.listas .ready, q.pid = p.pid ∧ p.quantum = k.config.quantum) := by
  unfold Nucleo.proximo at hp
  split at hp
  · rename_i hf
    have := hH.quantum hf
    rw [halg] at this
    cases this
  · simp only [halg, Nucleo.despachado, if_true] at hp
    split at hp
    · rename_i q aux haux
      cases hp
      exact ⟨rfl, .inl ⟨q, by simp [haux], rfl, rfl⟩⟩
    · obtain ⟨q, hq, rfl⟩ := Option.map_eq_some_iff.1 hp
      exact ⟨rfl, .inr ⟨q, List.mem_of_mem_head? hq, rfl, rfl⟩⟩
  · cases hp

/-- A dispatch begins a stretch with what is left of the quantum. -/
theorem Medido.EnCuenta.despacha {ahora : ℤ} (hI : s.EnCuenta) (hB : Base s.nucleo.vista)
    (hH : Hilada s.nucleo) (h : Encola s.nucleo k')
    (halg : k'.config.algoritmo = s.nucleo.config.algoritmo)
    (hp : s.nucleo.proximo ahora = some p) (hcpu : k'.enCpu = some p)
    (hcorto : k'.corto = .cuenta p.pid ahora p.quantum) :
    ((s.despachar p ahora).conNucleo k').EnCuenta := by
  obtain ⟨hinicio, havisado⟩ := s.despachar_nuevo p ahora
  obtain ⟨htiempo, hlista⟩ := proximo_vrr hI.vrr hH hp
  have hunica : ∀ {l m : Lista} {q r : Pcb}, q ∈ s.nucleo.listas l → r ∈ s.nucleo.listas m →
      r.pid = q.pid → m = l := fun hq hr h => (eq_of_pid (hB.veces_le _) hq hr h).1
  -- the account is new exactly when the process comes from READY
  have hcuenta : p.quantum = s.quantum - (s.despachar p ahora).cobrado p.pid ∧
      ∀ l, l = .auxiliar ∨ l = .blocked → ∀ r ∈ s.nucleo.listas l,
        (s.despachar p ahora).cobrado r.pid = s.cobrado r.pid := by
    rcases hlista with ⟨q, hq, hqp⟩ | ⟨q, hq, hpid, hquantum⟩
    · have hno : ¬∃ r ∈ s.nucleo.listas .ready, r.pid = p.pid := by
        rintro ⟨r, hr, hrp⟩
        cases hunica hq hr (hrp.trans hqp.pid.symm)
      have hsame : ∀ x, (s.despachar p ahora).cobrado x = s.cobrado x := by
        intro x
        rw [Medido.despachar, if_neg hno]
        rfl
      refine ⟨?_, fun _ _ _ _ => hsame _⟩
      rw [hsame, ← hqp.pid, ← hqp.quantum]
      exact (hI.auxiliar q hq).1
    · refine ⟨?_, fun l hl r hr => s.despachar_cobrado_of_ne p ahora fun hrp => ?_⟩
      · rw [Medido.despachar, if_pos ⟨q, hq, hpid⟩]
        simp only [Medido.cobrado, Function.update_self, hquantum, Medido.quantum]
        omega
      · have := hunica hq hr (hrp.trans hpid.symm)
        rcases hl with rfl | rfl <;> cases this
  have hQ : ((s.despachar p ahora).conNucleo k').quantum = s.quantum := h.quantum
  obtain ⟨haux, hblo⟩ := hI.colas h (t := (s.despachar p ahora).conNucleo k') hcuenta.2
  refine ⟨halg.trans hI.vrr, hQ ▸ haux, hQ ▸ hblo, ?_, ?_, ?_⟩
  · intro q hq
    rw [Medido.conNucleo_nucleo, hcpu, Option.some.injEq] at hq
    subst hq
    rw [hQ]
    exact ⟨hcuenta.1, htiempo.trans hinicio.symm⟩
  · intro q hq _
    rw [Medido.conNucleo_nucleo, hcpu, Option.some.injEq] at hq
    subst hq
    rw [Medido.conNucleo_nucleo, hcorto, Medido.conNucleo_inicio, hinicio]
  · intro q _ t ht
    rw [Medido.conNucleo_avisado, havisado] at ht
    cases ht

theorem Medido.EnCuenta.corto {ahora : ℤ} (hI : s.EnCuenta) (hA : Anotado s.nucleo)
    (hB : Base s.nucleo.vista) (hT : s.nucleo.hilos.EnTurno) (hH : Hilada s.nucleo)
    (h : Encola s.nucleo k') {hilos : Hilos} (hhilos : k'.hilos = hilos)
    (hav : Avance s.nucleo (.corto ahora) hilos) :
    ((s.medir k' (.corto ahora)).conNucleo k').EnCuenta := by
  have halg : k'.config.algoritmo = s.nucleo.config.algoritmo := by
    rw [← hhilos] at hav
    exact hav.algoritmo
  have hcpu := congrArg Hilos.enCpu hhilos
  have hcorto := congrArg Hilos.corto hhilos
  have hint := congrArg Hilos.interrupt hhilos
  have hQ : k'.config.quantum = s.quantum := h.quantum
  cases hav with
  | quieto he ht =>
      rw [s.medir_corto ahora hcpu, if_pos (by exact hint)]
      exact hI.quieto h halg hcpu hcorto
  | @corto _ f hf hq hs =>
      rw [s.medir_corto ahora hcpu, if_pos (by exact hint)]
      have hcorto : k'.corto = f := hcorto
      refine hI.sigue h halg hcpu (fun _ => rfl) rfl (fun p hp havisado => ?_) fun p hp t ht => ?_
      · exact absurd (hs _ _ _ (hI.cuenta p hp havisado)) (not_abandona hA hB hT hp)
      · exact ⟨hcorto ▸ hf, (hI.aviso p hp t ht).2⟩
  | @interrumpe _ pid t q hf hpid hq =>
      have hne : k'.interrupt ≠ s.nucleo.interrupt := by
        rw [show k'.interrupt = s.nucleo.interrupt ++ _ from hint]
        simp
      rw [s.medir_corto ahora hcpu, if_neg hne]
      have hcorto : k'.corto = .esperaCpu := hcorto
      refine hI.sigue h halg hcpu (fun _ => rfl) rfl (fun p hp havisado => ?_) fun p hp t' ht' => ?_
      · cases havisado
      · cases ht'
        refine ⟨by simp [hcorto, FaseCorto.sinCuenta], ?_⟩
        cases havisado : s.avisado with
        | none =>
            have hc := hI.cuenta p hp havisado
            rw [hf] at hc
            cases hc
            have := (hI.enCpu p hp).1
            omega
        | some t' =>
            have hsin := (hI.aviso p hp t' havisado).1
            rw [hf] at hsin
            exact hsin.elim
  | @despacha _ p f hp hlibre hf hrr =>
      rw [if_pos hI.vrr] at hf
      subst hf
      have hm : s.medir k' (.corto ahora) = s.despachar p ahora := by
        unfold Medido.medir
        rw [hlibre, show k'.enCpu = some p from hcpu]
      rw [hm]
      exact hI.despacha hB hH h halg hp hcpu hcorto
  | despachaRr hf hp hlibre hn =>
      have := hH.quantum hf
      rw [hI.vrr] at this
      cases this

/-! ### The messages of the CPU -/

/-- The process that the CPU gives back is the one it has, as far as the accounts go. -/
theorem Medido.EnCuenta.devuelto {m : MensajeCpu} {ahora : ℤ} (hI : s.EnCuenta)
    (ha : admite s.nucleo (.cpu p m ahora)) :
    ∃ q, s.nucleo.enCpu = some q ∧ p.pid = q.pid ∧ p.quantum = q.quantum ∧
      p.quantum = s.quantum - s.cobrado p.pid ∧ p.tiempoInicial = s.inicio := by
  obtain ⟨q, hq, hp⟩ := Option.map_eq_some_iff.1 ha.1
  have h := hI.enCpu q hq
  rw [← hp]
  exact ⟨q, hq, rfl, rfl, h.1, h.2⟩

/-- It blocks, and is charged for the stretch if it asks for I/O. -/
theorem Medido.EnCuenta.bloquea {m : MensajeCpu} {ahora : ℤ} {p' : Pcb} (hI : s.EnCuenta)
    (hB : Base s.nucleo.vista) (ha : admite s.nucleo (.cpu p m ahora)) (hpid : p'.pid = p.pid)
    (hq : p'.quantum = s.nucleo.quantumTras p m.esIo ahora) (h : Bloquea s.nucleo k' p')
    (halg : k'.config.algoritmo = s.nucleo.config.algoritmo) (hcpu : k'.enCpu = none) :
    ((s.bloquear p m ahora).conNucleo k').EnCuenta := by
  obtain ⟨q, hen, hqpid, -, hquantum, htiempo⟩ := hI.devuelto ha
  have hQ : ((s.bloquear p m ahora).conNucleo k').quantum = s.quantum := h.quantum
  have hotro : ∀ {l r}, l ≠ .running → r ∈ s.nucleo.listas l →
      (s.bloquear p m ahora).cobrado r.pid = s.cobrado r.pid := fun hl hr =>
    s.bloquear_cobrado_of_ne p m ahora (hqpid ▸ hB.pid_ne hen hl hr)
  refine ⟨halg.trans hI.vrr, fun r hr => ?_, fun r hr => ?_, by simp [hcpu], by simp [hcpu],
    by simp [hcpu]⟩
  · have hr := h.auxiliar r hr
    rw [hQ, conNucleo_cobrado, hotro (by decide) hr]
    exact hI.auxiliar r hr
  · rw [hQ, conNucleo_cobrado]
    rcases h.blocked r hr with hr | rfl
    · rw [hotro (by decide) hr]
      exact hI.blocked r hr
    · rw [hq, hpid, s.bloquear_cobrado, Nucleo.quantumTras, ← htiempo, hquantum]
      cases hio : m.esIo with
      | false => simp
      | true =>
          rw [if_pos ⟨rfl, hI.vrr⟩, if_pos rfl]
          omega

theorem Medido.EnCuenta.cpu {m : MensajeCpu} {ahora : ℤ} (hI : s.EnCuenta)
    (hB : Base s.nucleo.vista) (hB' : Base k'.vista) (ha : admite s.nucleo (.cpu p m ahora))
    (h : Encolado s.nucleo (.cpu p m ahora) k') {hilos : Hilos} (hhilos : k'.hilos = hilos)
    (hav : Avance s.nucleo (.cpu p m ahora) hilos) :
    ((s.medir k' (.cpu p m ahora)).conNucleo k').EnCuenta := by
  obtain ⟨q, hen, hqpid, hqquantum, -, htiempo⟩ := hI.devuelto ha
  have halg : k'.config.algoritmo = s.nucleo.config.algoritmo := by
    rw [← hhilos] at hav
    exact hav.algoritmo
  have hcpu := congrArg Hilos.enCpu hhilos
  have hcorto := congrArg Hilos.corto hhilos
  cases h with
  | nadie h =>
      have hno : ¬∃ r ∈ k'.listas .blocked, r.pid = p.pid := by
        rintro ⟨r, hr, hrp⟩
        obtain ⟨r', hr', hr'r⟩ := h.blocked r hr
        exact hB.pid_ne hen (by decide) hr' ((hr'r.pid.trans hrp).trans hqpid)
      rw [Medido.medir, if_neg hno]
      cases hav with
      | quieto he => exact absurd trivial he
      | bloqueoIo => exact hI.sinNadie h halg hcpu
      | bloqueoRecurso hb => exact hI.sinNadie h halg hcpu
      | sale hb => exact hI.sinNadie h halg hcpu
      | @reanuda _ p' _ _ hb hpid hquantum htiempo' =>
          have hcpu : k'.enCpu = some p' := hcpu
          have hcorto : k'.corto = s.nucleo.corto := hcorto
          have hQ : (s.conNucleo k').quantum = s.quantum := h.quantum
          obtain ⟨haux, hblo⟩ := hI.colas h (t := s.conNucleo k') fun _ _ _ _ => rfl
          have hp' : ∀ {r}, (s.conNucleo k').nucleo.enCpu = some r → r = p' := by
            intro r hr
            rw [conNucleo_nucleo, hcpu] at hr
            exact (Option.some.inj hr).symm
          refine ⟨halg.trans hI.vrr, hQ ▸ haux, hQ ▸ hblo, fun r hr => ?_, fun r hr => ?_,
            fun r hr => ?_⟩
          · rw [hp' hr, hQ, conNucleo_cobrado, hquantum, hpid, hqquantum, hqpid, htiempo', htiempo]
            exact ⟨(hI.enCpu q hen).1, rfl⟩
          · rw [hp' hr, conNucleo_nucleo, hcorto, hpid, hqpid, hquantum, hqquantum]
            exact hI.cuenta q hen
          · rw [hp' hr, conNucleo_nucleo, hcorto, hQ, conNucleo_cobrado, hpid, hqpid]
            exact hI.aviso q hen
  | @bloqueo _ p' _ _ _ hpid hq h =>
      rw [Medido.medir, if_pos ⟨p', h.mem, hpid⟩]
      have hnadie : k'.enCpu = none := by
        cases hav with
        | quieto he => exact absurd trivial he
        | bloqueoIo => exact hcpu
        | bloqueoRecurso hb => exact hcpu
        | sale hb => exact hcpu
        | @reanuda _ p₁ _ _ hb hpid₁ _ _ =>
            have hcpu : k'.enCpu = some p₁ := hcpu
            exact absurd (hpid.trans hpid₁.symm) (hB'.pid_ne hcpu (by decide) h.mem)
      exact hI.bloquea hB ha hpid hq h halg hnadie

/-! ### Every run -/

/-- A step keeps the accounts. -/
theorem Medido.EnCuenta.paso (hI : s.EnCuenta) (hk : Transicion.Alcanzable sistema s.nucleo)
    (h : sistema.paso s.nucleo e k') : ((s.medir k' e).conNucleo k').EnCuenta := by
  obtain ⟨ha, hm⟩ := h
  have hB := base_alcanzable hk
  have hB' : Base k'.vista := base_alcanzable (.paso hk trivial ⟨ha, hm⟩)
  have hT := enTurno_alcanzable hk
  have hav := manejar_avance hB ha hm
  have hen := manejar_encolado hB ha hm
  -- an event that is neither a turn of the scheduler nor a message of the CPU
  have hotro : ∀ {h' : Hilos}, k'.hilos = h' → h'.enCpu = s.nucleo.enCpu →
      h'.corto = s.nucleo.corto → Encola s.nucleo k' → (s.conNucleo k').EnCuenta := by
    rintro _ rfl hcpu hcorto h
    exact hI.quieto h hav.algoritmo hcpu hcorto
  have hnadie : ¬e.deCpu → Encola s.nucleo k' := by
    intro hne
    cases hen with
    | nadie h => exact h
    | bloqueo hpid hq h => exact absurd trivial hne
  generalize hhilos : k'.hilos = hilos at hav
  cases e with
  | cpu p m ahora => exact hI.cpu hB hB' ha hen hhilos hav
  | corto ahora =>
      exact hI.corto (anotado_alcanzable hk) hB hT (hilada_alcanzable hk) (hnadie id) hhilos hav
  | finalizarProceso pid => cases hav <;> exact hotro hhilos rfl rfl (hnadie id)
  | reloj => cases hav <;> exact hotro hhilos rfl rfl (hnadie id)
  | iniciarProceso | iniciarPlanificacion | detenerPlanificacion | multiprogramacion
  | interfaz | conexionIo | memoria | largo =>
      cases hav
      exact hotro hhilos rfl rfl (hnadie id)

end Kernel
