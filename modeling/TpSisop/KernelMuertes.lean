/-
**FINALIZAR_PROCESO of the process at the CPU.**

The kernel ends a process that runs through the CPU: it sends an interruption, with which the CPU
gives the process back to be ended.  The CPU drops the interruptions that are not about its process,
so the request is lost if the process leaves the CPU alive before its turn comes.  It does not as
long as the steps that take a process off the CPU alive find no request about it.

Main definitions:

* `KernelCpu.Estado.pendiente` — a process that is to end;
* `Kernel.Vista.deja`, `Kernel.Vista.bloquea` — the messages that take a process off the CPU alive;
* `KernelCpu.sinPerderMuertes` — the steps that take no process off the CPU that is to end;
* `KernelCpu.Atendida` — why a process that is to end does;
* `KernelCpu.MuertesAtendidas` — what holds when the CPU removes such a request.

Main results:

* `KernelCpu.Paso.atendidas` — a step that meets the condition leaves every request attended;
* `KernelCpu.muertes_atendidas` — in every run whose steps meet it no request is lost;
* `KernelCpu.muerte_perdida` — a process that asks for I/O while it is to end.
-/

import TpSisop.KernelCpu

set_option relaxedAutoImplicit false
set_option autoImplicit false

namespace Kernel

variable {v v' : Vista} {e : Evento} {n : String}

/-! ### What becomes of a process -/

/-- The dead stay dead. -/
theorem Movimiento.exit (h : Movimiento v e v') {q : Pcb} (hq : q ∈ v.listas .exit) :
    q ∈ v'.listas .exit := h.exit_prefix.subset hq

/-- No resource appears. -/
theorem ponerRecurso_falta {m : String} {r r' : Recurso} (hr : v.recursos.valor m = some r)
    (hn : v.recursos.valor n = none) : (v.recursos.poner m r').valor n = none := by
  have hne : n ≠ m := by
    rintro rfl
    simp [hr] at hn
  simpa [hne] using hn

theorem Incremento.falta {m : String} (h : Incremento v m v') (hn : v.recursos.valor n = none) :
    v'.recursos.valor n = none := by
  cases h with
  | ausente h => exact hn
  | libre hr hi => exact ponerRecurso_falta hr hn
  | huerfano hr hi hq hb => exact ponerRecurso_falta hr hn
  | entrega hr hi hq hb hal =>
      cases hal with
      | mk hl hvrr => exact ponerRecurso_falta hr hn

theorem Devolucion.falta {ts : List String} (h : Devolucion v ts v')
    (hn : v.recursos.valor n = none) : v'.recursos.valor n = none := by
  induction h with
  | nil v => exact hn
  | cons hr hi _ ih => exact ih (hi.falta hn)

theorem Liberacion.falta {p : Pcb} (h : Liberacion v p v') (hn : v.recursos.valor n = none) :
    v'.recursos.valor n = none := by
  cases h with
  | suelto hd h => exact hd.falta hn
  | @esperando v₁ recurso hd h =>
      have h₁ := hd.falta hn
      unfold Vista.retirar
      cases hr : v₁.recursos.valor recurso with
      | none => exact h₁
      | some r => exact ponerRecurso_falta hr h₁

theorem Movimiento.recursos_falta (h : Movimiento v e v') (hn : v.recursos.valor n = none) :
    v'.recursos.valor n = none := by
  cases h with
  | bloqueoRecurso h hr hi => exact ponerRecurso_falta hr hn
  | concesion h hr hi hp => exact ponerRecurso_falta hr hn
  | signal h hr hi hp => exact hi.falta hn
  | muerteCpu h hterm hl => exact hl.falta hn
  | muerteConsola hlista h hp hl => exact hl.falta hn
  | errorIo hi hpet h hp hl => exact hl.falta hn
  | finIo hi hpet h hp hal hi' =>
      cases hal with
      | mk hl hvrr => exact hn
  | _ => exact hn

/-- No interface appears but when it connects. -/
theorem Movimiento.interfaces_falta (h : Movimiento v e v') (hc : ∀ t, e ≠ .conexionIo n t)
    (hn : v.interfaces.valor n = none) : v'.interfaces.valor n = none := by
  have hponer : ∀ {m : String} {i i' : Interfaz}, v.interfaces.valor m = some i →
      (v.interfaces.poner m i').valor n = none := by
    intro m i i' hi
    have hne : n ≠ m := by
      rintro rfl
      simp [hi] at hn
    simpa [hne] using hn
  cases h with
  | bloqueoIo h hi hp => exact hponer hi
  | signal h hr hi hp => simpa [hi.marco.interfaces] using hn
  | muerteCpu h hterm hl => simpa [Vista.salir, hl.marco.interfaces, Vista.conLista] using hn
  | muerteConsola hlista h hp hl =>
      simpa [Vista.salir, hl.marco.interfaces, Vista.conLista] using hn
  | errorIo hi hpet h hp hl =>
      show (Vista.salir _ _).interfaces.valor n = none
      simp only [Vista.salir, hl.marco.interfaces, Vista.conLista, Vista.ponerInterfaz]
      exact hponer hi
  | ioOcupada hi hpet => exact hponer hi
  | finIo hi hpet h hp hal hi' =>
      simp only [Vista.ponerInterfaz, (hal.marco h rfl).interfaces]
      exact hponer hi
  | @conexionIo nombre t h =>
      have hne : n ≠ nombre := by
        rintro rfl
        exact hc t rfl
      simpa [Vista.ponerInterfaz, hne] using hn
  | _ => exact hn

/-- The interface that a message asks for connects. -/
def conectaLaDe : Evento → MensajeCpu → Prop
  | .conexionIo nombre _, .io nombre' _ => nombre = nombre'
  | _, _ => False

instance (e : Evento) : DecidablePred (conectaLaDe e) := fun m =>
  match e, m with
  | .conexionIo nombre _, .io m _ => inferInstanceAs (Decidable (nombre = m))
  | .conexionIo _ _, .interrupcion | .conexionIo _ _, .outOfMemory
  | .conexionIo _ _, .terminarProceso | .conexionIo _ _, .wait _ | .conexionIo _ _, .signal _
  | .iniciarProceso, _ | .finalizarProceso _, _ | .iniciarPlanificacion, _
  | .detenerPlanificacion, _ | .multiprogramacion _, _ | .cpu _ _ _, _ | .interfaz _ _ _, _
  | .memoria _, _ | .corto _, _ | .reloj, _ | .largo, _ => .isFalse id

/-- A message that ends a process goes on doing so. -/
theorem Movimiento.termina {m : MensajeCpu} (h : Movimiento v e v') (hc : ¬conectaLaDe e m)
    (hm : v.termina m) : v'.termina m := by
  cases m with
  | io nombre operacion =>
      refine h.interfaces_falta (fun t he => ?_) hm
      subst he
      exact hc rfl
  | wait recurso => exact h.recursos_falta hm
  | signal recurso => exact h.recursos_falta hm
  | _ => exact hm

/-- The messages that take a process off the CPU alive, always. -/
def Vista.deja (v : Vista) : MensajeCpu → Prop
  | .io nombre _ => v.interfaces.valor nombre ≠ none
  | .interrupcion => True
  | _ => False

/-- The process waits for the resource. -/
def Vista.bloquea (v : Vista) : MensajeCpu → Prop
  | .wait recurso => ∃ r ∈ v.recursos.valor recurso, r.instancias - 1 < 0
  | _ => False

instance (v : Vista) : DecidablePred v.deja
  | .io nombre _ => inferInstanceAs (Decidable (v.interfaces.valor nombre ≠ none))
  | .interrupcion => .isTrue trivial
  | .outOfMemory | .terminarProceso | .wait _ | .signal _ => .isFalse id

instance (v : Vista) : DecidablePred v.bloquea
  | .wait recurso => inferInstanceAs (Decidable (∃ r ∈ v.recursos.valor recurso, _ < _))
  | .io _ _ | .interrupcion | .outOfMemory | .terminarProceso | .signal _ => .isFalse id

/-- A message that does not take its process off the CPU alive ends it, or waits for an answer. -/
theorem Vista.termina_or_waitOSignal {m : MensajeCpu} (h : ¬v.deja m) :
    v.termina m ∨ Cpu.waitOSignal m := by
  cases m with
  | io nombre operacion => exact .inl (by simpa [Vista.deja, Vista.termina] using h)
  | interrupcion => exact absurd trivial h
  | outOfMemory => exact .inl trivial
  | terminarProceso => exact .inl trivial
  | wait recurso => exact .inr trivial
  | signal recurso => exact .inr trivial

/-- The process of a message that ends it goes to EXIT. -/
theorem Movimiento.muere {p : Pcb} {m : MensajeCpu} {ahora : ℤ}
    (h : Movimiento v (.cpu p m ahora) v') (hm : v.termina m) :
    ∃ q ∈ v'.listas .exit, q.pid = p.pid := by
  cases h with
  | quieto he => exact absurd trivial he
  | finDeQuantum h => exact absurd hm id
  | bloqueoIo h hi hp => exact absurd (hi.symm.trans hm) (by simp)
  | bloqueoRecurso h hr hi => exact absurd (hr.symm.trans hm) (by simp)
  | concesion h hr hi hp => exact absurd (hr.symm.trans hm) (by simp)
  | signal h hr hi hp => exact absurd hm hr
  | muerteCpu h hm hl => exact ⟨_, mem_salir.2 (.inr rfl), rfl⟩

/-- The process of a WAIT or a SIGNAL that does not block it goes back to the CPU, or to EXIT. -/
theorem Movimiento.vuelve {p : Pcb} {m : MensajeCpu} {ahora : ℤ}
    (h : Movimiento v (.cpu p m ahora) v') (hw : Cpu.waitOSignal m) (hb : ¬v.bloquea m) :
    (∃ q ∈ v'.listas .exit, q.pid = p.pid) ∨ ∃ q, v'.enCpu = some q ∧ q.pid = p.pid := by
  cases h with
  | quieto he => exact absurd trivial he
  | finDeQuantum h => exact absurd hw id
  | bloqueoIo h hi hp => exact absurd hw id
  | bloqueoRecurso h hr hi => exact absurd ⟨_, hr, hi⟩ hb
  | concesion h hr hi hp =>
      subst hp
      exact .inr ⟨_, rfl, rfl⟩
  | signal h hr hi hp =>
      subst hp
      exact .inr ⟨_, rfl, rfl⟩
  | muerteCpu h hm hl => exact .inl ⟨_, mem_salir.2 (.inr rfl), rfl⟩

/-- A process that FINALIZAR_PROCESO sends an interruption about is at the CPU, or dead. -/
theorem Interrumpe.donde {k k' : Nucleo} {pid : ℕ} (h : Interrumpe k pid k') (hB : Base k.vista)
    (hH : Hilada k) (hpid : pid ≠ 0) :
    (∃ p ∈ k.listas .exit, p.pid = pid) ∨ ∃ q, k.enCpu = some q ∧ q.pid = pid := by
  have hlt : pid < k.vista.ultimoPid := h.pidEjecutando ▸ hH.ejecutando
  have hveces : veces k.listas pid ≠ 0 := by
    have := hB.repartidos pid
    rw [if_pos ⟨by omega, hlt⟩] at this
    exact fun h => by rw [show veces k.vista.listas pid = 0 from h] at this; cases this
  obtain ⟨l, p, hp, hpp⟩ : ∃ l, ∃ p ∈ k.listas l, p.pid = pid := by
    by_contra hno
    exact hveces (veces_eq_zero.2 fun l p hp hpp => hno ⟨l, p, hp, hpp⟩)
  by_cases he : l = .exit
  · exact .inl ⟨p, he ▸ hp, hpp⟩
  by_cases hr : l = .running
  · subst hr
    rw [show k.listas .running = k.enCpu.toList from hB.enCpu] at hp
    exact .inr ⟨p, by simpa using hp, hpp⟩
  · exact absurd hpp (h.listas l hr he p hp)

end Kernel

namespace KernelCpu

open Kernel (Nucleo Pcb MensajeCpu Interrupcion Evento Movimiento conectaLaDe)
open Cpu (waitOSignal)

variable {s s' : Estado} {a : Suceso} {pid : ℕ}

/-! ### The condition -/

/-- The CPU has to remove a request to end the process. -/
def Estado.pendiente (s : Estado) (pid : ℕ) : Prop :=
  pid ≠ 0 ∧ ⟨pid, .terminarProceso⟩ ∈ s.pendientes

/-- The CPU has no process and is about to look at its interruptions. -/
def Estado.ventana (s : Estado) : Prop :=
  s.cpu.fase = .interrupcion ∧ s.cpu.procesoEjecutando.pid = 0

instance (s : Estado) (pid : ℕ) : Decidable (s.pendiente pid) :=
  inferInstanceAs (Decidable (_ ∧ _))

instance (s : Estado) : Decidable s.ventana := inferInstanceAs (Decidable (_ ∧ _))

/-- The steps that take no process off the CPU that is to end.  FINALIZAR_PROCESO of the process at
the CPU finds no message that takes it off alive, and does not overtake its PCB; and while there is
such a request the process asks for no I/O, is not interrupted by its quantum, and does not wait for
a resource, and the interface that it asked for and does not exist does not connect. -/
def sinPerderMuertes (s : Estado) : Suceso → Prop
  | .kernel (.finalizarProceso pid) =>
      (∃ q ∈ s.kernel.enCpu, q.pid = pid) →
        (∀ x ∈ s.contextos, ¬s.kernel.vista.deja x.2) ∧
        (s.ventana → s.porRecibir ≠ [] → s.pendientes ≠ [])
  | .kernel e => ∀ x ∈ s.contextos, s.pendiente x.1.pid → ¬conectaLaDe e x.2
  | .contexto _ =>
      ∀ x ∈ s.contextos.head?, s.pendiente x.1.pid → ¬s.kernel.vista.bloquea x.2
  | .ejecutar i _ _ =>
      s.pendiente s.cpu.procesoEjecutando.pid → ∀ m ∈ i.mensaje, ¬s.kernel.vista.deja m
  | .interrupcion =>
      s.pendiente s.cpu.procesoEjecutando.pid →
        s.cpu.interrupciones.head? ≠ some ⟨s.cpu.procesoEjecutando.pid, .interrupcion⟩
  | _ => True

instance (s : Estado) : DecidablePred (sinPerderMuertes s) :=
  have conexion (e : Evento) :
      Decidable (∀ x ∈ s.contextos, s.pendiente x.1.pid → ¬conectaLaDe e x.2) := inferInstance
  fun
  | .kernel (.finalizarProceso pid) => inferInstanceAs (Decidable
      ((∃ q ∈ s.kernel.enCpu, q.pid = pid) → _ ∧ (s.ventana → _ ≠ _ → _ ≠ _)))
  | .kernel .iniciarProceso | .kernel .iniciarPlanificacion | .kernel .detenerPlanificacion
  | .kernel (.multiprogramacion _) | .kernel (.cpu _ _ _) | .kernel (.interfaz _ _ _)
  | .kernel (.conexionIo _ _) | .kernel (.memoria _) | .kernel (.corto _) | .kernel .reloj
  | .kernel .largo => conexion _
  | .contexto _ => inferInstanceAs (Decidable
      (∀ x ∈ s.contextos.head?, s.pendiente x.1.pid → ¬s.kernel.vista.bloquea x.2))
  | .ejecutar i _ _ => inferInstanceAs (Decidable
      (s.pendiente s.cpu.procesoEjecutando.pid → ∀ m ∈ i.mensaje, ¬s.kernel.vista.deja m))
  | .interrupcion => inferInstanceAs (Decidable (s.pendiente _ → _ ≠ _))
  | .recibirInterrupcion | .recibirPcb => .isTrue trivial

theorem not_conectaLaDe {e : Evento} (hC : sinPerderMuertes s (.kernel e))
    {x : Pcb × MensajeCpu} (hx : x ∈ s.contextos) (hp : s.pendiente x.1.pid) :
    ¬conectaLaDe e x.2 := by
  cases e with
  | finalizarProceso pid => exact id
  | _ => exact hC x hx hp

/-! ### Every request is attended -/

/-- The process of a request is dead, or on its way to die, or at the CPU, that gets it and the
request in time. -/
inductive Atendida (s : Estado) (pid : ℕ) : Prop
  | muerto {p : Pcb} (hp : p ∈ s.kernel.listas .exit) (h : p.pid = pid)
  | muriendo {x : Pcb × MensajeCpu} (hx : x ∈ s.contextos) (h : x.1.pid = pid)
      (hm : s.kernel.vista.termina x.2)
  | vivo {q : Pcb} (henCpu : s.kernel.enCpu = some q) (h : q.pid = pid)
      (hc : ∀ x ∈ s.contextos, waitOSignal x.2)
      (hv : s.ventana → s.pendientes.head? ≠ some ⟨pid, .terminarProceso⟩)

/-- A message on its way is of the process at the CPU. -/
theorem Coherente.pid_contexto (hS : Coherente s) {q : Pcb} (henCpu : s.kernel.enCpu = some q)
    {x : Pcb × MensajeCpu} (hx : x ∈ s.contextos) : x.1.pid = q.pid := by
  cases hS.sitio with
  | nadie _ _ hc => simp [hc] at hx
  | enViaje _ _ hc => simp [hc] at hx
  | cargado _ _ hc => simp [hc] at hx
  | devuelto h _ hc _ hp _ =>
      rw [hc] at hx
      cases List.mem_singleton.1 hx
      cases henCpu.symm.trans h
      exact hp.pid.symm

/-- The process at the CPU, that neither it nor the kernel has, is in the dispatch socket. -/
theorem Coherente.porRecibir_ne_nil (hS : Coherente s) (hB : Kernel.Base s.kernel.vista) {q : Pcb}
    (henCpu : s.kernel.enCpu = some q) (hc : ∀ x ∈ s.contextos, waitOSignal x.2) (hv : s.ventana) :
    s.porRecibir ≠ [] := by
  cases hS.sitio with
  | nadie h => simp [henCpu] at h
  | enViaje _ hr => simp [hr]
  | cargado h _ _ _ hp => exact absurd hv.2 (hp.pid_ne_zero hB h)
  | @devuelto q' p m _ _ h _ _ hm =>
      have hf := hv.1
      rw [hm (hc (p, m) (by simp [h]))] at hf
      cases hf

/-- An event of the kernel: who was attended is, and a new request finds its process at the CPU. -/
theorem Paso.atendida_kernel {e : Evento} {k : Nucleo} (hS : Coherente s)
    (hB : Kernel.Base s.kernel.vista) (hH : Kernel.Hilada s.kernel) (he : ¬e.deCpu)
    (hmov : Movimiento s.kernel.vista e k.vista) (hef : Kernel.Efecto s.kernel e k)
    (hC : sinPerderMuertes s (.kernel e)) (hM : s.pendiente pid → Atendida s pid)
    (hp : { s with kernel := k }.pendiente pid) : Atendida { s with kernel := k } pid := by
  obtain ⟨nuevas, hint, hnuevas⟩ := hef.interrupt
  have hpend : { s with kernel := k }.pendientes = s.pendientes ++ nuevas :=
    pendientes_conKernel hS hint s.contextos
  have hhead (h : s.pendientes ≠ []) :
      { s with kernel := k }.pendientes.head? = s.pendientes.head? := by
    rw [hpend, List.head?_append_of_ne_nil _ h]
  by_cases hold : s.pendiente pid
  · cases hM hold with
    | muerto hp h => exact .muerto (hmov.exit hp) h
    | @muriendo x hx h hm =>
        exact .muriendo hx h (hmov.termina (not_conectaLaDe hC hx (h ▸ hold)) hm)
    | vivo henCpu h hc hv =>
        rcases hef.dispatch hB he with ⟨hen, -⟩ | ⟨hen, -⟩
        · refine .vivo (hen.trans henCpu) h hc fun hw => ?_
          rw [hhead (List.ne_nil_of_mem hold.2)]
          exact hv hw
        · simp [hen] at henCpu
  · obtain ⟨hne, hmem⟩ := hp
    rw [hpend] at hmem
    rcases List.mem_append.1 hmem with hmem | hmem
    · exact absurd ⟨hne, hmem⟩ hold
    obtain ⟨rfl, hi⟩ := hnuevas _ hmem rfl
    rcases hi.donde hB hH hne with ⟨p, hp, h⟩ | ⟨q, henCpu, h⟩
    · exact .muerto (hmov.exit hp) h
    obtain ⟨hdeja, hventana⟩ := hC ⟨q, henCpu, h⟩
    have hvista : k.vista = s.kernel.vista := by rw [hi.estado]; rfl
    by_cases hx : ∃ x ∈ s.contextos, s.kernel.vista.termina x.2
    · obtain ⟨x, hx, hm⟩ := hx
      exact .muriendo hx ((hS.pid_contexto henCpu hx).trans h) (hvista ▸ hm)
    · have hc : ∀ x ∈ s.contextos, waitOSignal x.2 := fun x hx' =>
        (Kernel.Vista.termina_or_waitOSignal (hdeja x hx')).resolve_left fun hm => hx ⟨x, hx', hm⟩
      refine .vivo (by rw [hi.estado]; exact henCpu) h hc fun hw hhead' => ?_
      rw [hhead (hventana hw (hS.porRecibir_ne_nil hB henCpu hc hw))] at hhead'
      exact hold ⟨hne, List.mem_of_mem_head? hhead'⟩

/-- The kernel takes the message of the CPU: the process dies, or goes back to the CPU. -/
theorem Paso.atendida_contexto {p : Pcb} {m : MensajeCpu} {ahora : ℤ} {k : Nucleo}
    (hS : Coherente s) (hc : s.contextos = [(p, m)])
    (hmov : Movimiento s.kernel.vista (.cpu p m ahora) k.vista)
    (hef : Kernel.Efecto s.kernel (.cpu p m ahora) k) (hC : sinPerderMuertes s (.contexto ahora))
    (hM : s.pendiente pid → Atendida s pid)
    (hp : { s with kernel := k, contextos := [] }.pendiente pid) :
    Atendida { s with kernel := k, contextos := [] } pid := by
  obtain ⟨nuevas, hint, hnuevas⟩ := hef.interrupt
  have hold : s.pendiente pid := by
    refine ⟨hp.1, ?_⟩
    have hmem := hp.2
    rw [pendientes_conKernel hS hint] at hmem
    rcases List.mem_append.1 hmem with hmem | hmem
    · exact hmem
    · cases (hnuevas _ hmem rfl).1
  have hx : (p, m) ∈ s.contextos := by simp [hc]
  cases hM hold with
  | muerto hp h => exact .muerto (hmov.exit hp) h
  | @muriendo x hx h hm =>
      rw [hc] at hx
      cases List.mem_singleton.1 hx
      obtain ⟨q, hq, hpid⟩ := hmov.muere hm
      exact .muerto hq (hpid.trans h)
  | vivo henCpu h hw hv =>
      have hpid := hS.pid_contexto henCpu hx
      have hb : ¬s.kernel.vista.bloquea m := by
        refine hC (p, m) (by simp [hc]) ?_
        rwa [show p.pid = pid from hpid.trans h]
      rcases hmov.vuelve (hw _ hx) hb with ⟨q, hq, hqp⟩ | ⟨q, hq, hqp⟩
      · exact .muerto hq (hqp.trans (hpid.trans h))
      · refine .vivo hq (hqp.trans (hpid.trans h)) (by simp) fun hv => ?_
        cases hS.sitio with
        | nadie _ _ h => simp [h] at hc
        | enViaje _ _ h => simp [h] at hc
        | cargado _ _ h => simp [h] at hc
        | devuelto _ _ h _ _ hm =>
            rw [hc] at h
            cases h
            have hf : s.cpu.fase = .interrupcion := hv.1
            rw [hm (hw _ hx)] at hf
            cases hf

/-- An instruction of the process: it goes on, or waits for an answer, or ends. -/
theorem Paso.atendida_ejecutar {i : Cpu.Instruccion} {pc : ℕ} {registros : Cpu.Registros}
    (hS : Coherente s) (hB : Kernel.Base s.kernel.vista) (hf : s.cpu.fase = .ejecuta)
    (hC : sinPerderMuertes s (.ejecutar i pc registros)) (hp : s.pendiente pid)
    (hM : Atendida s pid) : Atendida (s.conCpu (s.cpu.ejecutar i pc registros)) pid := by
  obtain ⟨q, henCpu, -, hc, hq⟩ := hS.cargado (Cpu.Ciclo.not_libre_of_ejecuta hf)
  obtain ⟨-, hcasos⟩ := s.cpu.ejecutar_casos i pc registros
  cases hM with
  | muerto hp h => exact .muerto hp h
  | muriendo hx h hm => simp [hc] at hx
  | vivo h' h _ _ =>
      cases henCpu.symm.trans h'
      rcases hcasos with ⟨-, hnada, hfase, hproc⟩ | ⟨m, hm, hmsg, hl, hw⟩
      · refine .vivo henCpu h (by simp [hc, hnada]) fun hv => ?_
        exact absurd (hproc ▸ hv.2) ((hq.escribirPcb pc registros).pid_ne_zero hB henCpu)
      · have hpid := hq.pid.symm.trans h
        rcases Kernel.Vista.termina_or_waitOSignal (hC (hpid ▸ hp) m hm) with ht | ht
        · refine .muriendo (x := (Cpu.Ciclo.escribirPcb s.cpu.procesoEjecutando pc registros, m))
            ?_ hpid ht
          simp [hmsg]
        · refine .vivo henCpu h (by simp [hc, hmsg, ht]) fun hv => ?_
          have hf := hv.1
          rw [Estado.conCpu_cpu, hw ht] at hf
          cases hf

/-- The CPU removes an interruption: it gives the process back to be ended, or keeps it. -/
theorem Paso.atendida_interrupcion (hS : Coherente s) (hf : s.cpu.fase = .interrupcion)
    (hC : sinPerderMuertes s .interrupcion) (hp : s.pendiente pid) (hM : Atendida s pid) :
    Atendida (s.conCpu s.cpu.atenderInterrupcion) pid := by
  obtain ⟨-, hcasos⟩ := s.cpu.atenderInterrupcion_casos
  cases hM with
  | muerto hp h => exact .muerto hp h
  | muriendo hx h hm => exact .muriendo (by simp [hx]) h hm
  | vivo henCpu h hc hv =>
      rcases hcasos with ⟨inter, resto, hi, hpid, hne, -, hmsg⟩ | ⟨-, hnada, hfase⟩
      · obtain ⟨q, h', -, -, hq⟩ := hS.cargado fun h => hne (h.pid hf)
        cases henCpu.symm.trans h'
        have hpid' := hq.pid.symm.trans h
        cases hmot : inter.motivo with
        | interrupcion =>
            refine absurd ?_ (hC (hpid' ▸ hp))
            rw [hi, List.head?_cons, hpid, ← hmot]
        | terminarProceso =>
            refine .muriendo (x := (s.cpu.procesoEjecutando, .terminarProceso)) ?_ hpid' trivial
            simp [hmsg, hmot, Cpu.mensajeDe]
      · refine .vivo henCpu h (by simpa [hnada] using hc) fun hw => ?_
        have hfase' := hw.1
        rw [Estado.conCpu_cpu, hfase] at hfase'
        split at hfase' <;> cases hfase'

/-- A step that meets the condition leaves every request attended. -/
theorem Paso.atendidas (hS : Coherente s) (hk : Transicion.Alcanzable Kernel.sistema s.kernel)
    (hM : ∀ pid, s.pendiente pid → Atendida s pid) (hC : sinPerderMuertes s a) (h : Paso s a s')
    (hp : s'.pendiente pid) : Atendida s' pid := by
  obtain ⟨hB, hO⟩ := Kernel.ordenada_alcanzable hk
  cases h with
  | kernel he ha hm =>
      exact atendida_kernel hS hB (Kernel.hilada_alcanzable hk) he
        (Kernel.manejar_movimiento hB.unica ha hm) (Kernel.manejar_efecto hB hO.encolados ha hm) hC
        (hM pid) hp
  | @contexto ahora p m cola k hc hm =>
      obtain ⟨ha, rfl⟩ := hS.admite ahora hc
      exact atendida_contexto hS hc (Kernel.manejar_movimiento hB.unica ha hm)
        (Kernel.manejar_efecto hB hO.encolados ha hm) hC (hM pid) hp
  | @recibirInterrupcion inter hi =>
      have hpend := pendientes_recibirInterrupcion hi
      cases hM pid ⟨hp.1, hpend ▸ hp.2⟩ with
      | muerto hp h => exact .muerto hp h
      | muriendo hx h hm => exact .muriendo hx h hm
      | vivo henCpu h hc hv => exact .vivo henCpu h hc fun hw => hpend ▸ hv hw
  | @recibirPcb p hf hdis =>
      have hcons := porRecibir_cons hdis
      cases hM pid hp with
      | muerto hp h => exact .muerto hp h
      | muriendo hx h hm => exact .muriendo hx h hm
      | @vivo q henCpu h hc hv =>
          refine .vivo henCpu h hc fun hw => absurd hw.2 ?_
          cases hS.sitio with
          | nadie _ hr => simp [hr] at hcons
          | cargado _ hr => simp [hr] at hcons
          | devuelto _ hr => simp [hr] at hcons
          | enViaje h' hr =>
              rw [hr] at hcons
              obtain ⟨rfl, -⟩ := List.cons.inj hcons
              exact (Devuelve.refl _).pid_ne_zero hB h'
  | @ejecutar i pc registros hf =>
      have hold : s.pendiente pid := by
        have hint := (s.cpu.ejecutar_casos i pc registros).1
        rwa [Estado.pendiente, Estado.pendientes, Estado.conCpu_cpu, hint] at hp
      exact atendida_ejecutar hS hB hf hC hold (hM pid hold)
  | interrupcion hf =>
      have hold : s.pendiente pid := by
        refine ⟨hp.1, ?_⟩
        have hint := s.cpu.atenderInterrupcion_casos.1
        rcases List.mem_append.1 hp.2 with hmem | hmem
        · rw [Estado.conCpu_cpu, hint] at hmem
          exact List.mem_append_left _ (List.mem_of_mem_tail hmem)
        · exact List.mem_append_right _ hmem
      exact atendida_interrupcion hS hf hC hold (hM pid hold)

/-! ### No request is lost -/

/-- When the CPU is about to remove a request to end a process, it gives the process back to be
ended, or the process is dead, or a message with which the kernel ends it is on its way. -/
def MuertesAtendidas (s : Estado) : Prop :=
  ∀ pid resto, pid ≠ 0 → s.cpu.fase = .interrupcion →
    s.cpu.interrupciones = ⟨pid, .terminarProceso⟩ :: resto →
      (∃ p, p.pid = pid ∧ s.cpu.atenderInterrupcion.2 = [(p, .terminarProceso)]) ∨
      (∃ p ∈ s.kernel.listas .exit, p.pid = pid) ∨
      ∃ x ∈ s.contextos, x.1.pid = pid ∧ s.kernel.vista.termina x.2

/-- In every run whose steps take no process off the CPU that is to end, no request to end a
process is lost. -/
theorem muertes_atendidas (h : Transicion.AlcanzableCon sistema sinPerderMuertes s) :
    MuertesAtendidas s := by
  obtain ⟨hS, hk, hM⟩ := invariante (I := fun s => ∀ pid, s.pendiente pid → Atendida s pid)
    (fun config pid hp => by simp [Estado.pendiente, Estado.pendientes, Kernel.iniciar] at hp)
    (fun s a s' hS hk hM hC h pid hp => h.atendidas hS hk hM hC hp) h
  obtain ⟨hB, -⟩ := Kernel.ordenada_alcanzable hk
  intro pid resto hne hf hi
  cases hM pid ⟨hne, by simp [Estado.pendientes, hi]⟩ with
  | muerto hp h => exact .inr (.inl ⟨_, hp, h⟩)
  | muriendo hx h hm => exact .inr (.inr ⟨_, hx, h, hm⟩)
  | vivo henCpu h hc hv =>
      have hpid : s.cpu.procesoEjecutando.pid ≠ 0 := fun hcero =>
        hv ⟨hf, hcero⟩ (by simp [Estado.pendientes, hi])
      obtain ⟨q, h', -, -, hq⟩ := hS.cargado fun hl => hpid (hl.pid hf)
      cases henCpu.symm.trans h'
      have hp := hq.pid.symm.trans h
      refine .inl ⟨_, hp, ?_⟩
      simp [Cpu.Ciclo.atenderInterrupcion, hi, hp, hne, Cpu.mensajeDe]

/-- A process is to end while it asks for a resource, which it gets. -/
def muerteConWait : Estado :=
  correr sinPerderMuertes ⟨.fifo, 10, 3, [("RA", 1)]⟩
    (List.map Suceso.kernel (Kernel.dosAdmitidos ++ [.corto 0, .corto 0, .corto 0]) ++
      [.recibirPcb, .ejecutar (.wait "RA") 1 {}, .kernel (.finalizarProceso 1), .contexto 1,
        .recibirInterrupcion, .recibirPcb])
    (by decide +kernel)

theorem muertes_atendidas_muerteConWait : MuertesAtendidas muerteConWait :=
  muertes_atendidas (alcanzable_correr _)

/-- A process is to end while its I/O request is on its way. -/
def muerteConIo : Estado :=
  correr (fun _ _ => True) ⟨.fifo, 10, 3, []⟩
    (List.map Suceso.kernel
        (.conexionIo "GEN" 1 :: Kernel.dosAdmitidos ++ [.corto 0, .corto 0, .corto 0]) ++
      [.recibirPcb, .ejecutar (.io "GEN" .genSleep) 1 {}, .kernel (.finalizarProceso 1),
        .recibirInterrupcion])
    (by decide +kernel)

/-- The CPU drops the request, and the process goes to BLOCKED. -/
theorem muerte_perdida : ¬∀ s, Transicion.Alcanzable sistema s → MuertesAtendidas s := by
  intro h
  rcases h muerteConIo (alcanzable_correr _) 1 [] (by decide) (by decide +kernel)
    (by decide +kernel) with ⟨p, -, hp⟩ | hp | hx
  · have hnada : muerteConIo.cpu.atenderInterrupcion.2 = [] := by decide +kernel
    simp [hnada] at hp
  · exact absurd hp (by decide +kernel)
  · exact absurd hx (by decide +kernel)

end KernelCpu
