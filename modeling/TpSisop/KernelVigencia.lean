/-
**The dispatch that an interruption was sent for.**

An interruption of the quantum says which process it is for, and not when it was sent.  It waits in
a socket and in a list of the CPU, of which the CPU looks at one entry after each instruction, while
the process may leave for I/O and come back.  Next to the two machines this module keeps how long
the log of the interrupt socket was when the scheduler last sent a process to the CPU, so that what
lies behind that place was sent for an earlier dispatch.

Main definitions:

* `KernelCpu.Marcado`, `KernelCpu.sistemaMarcado` — the kernel and the CPU, with the place of the
  last dispatch in the log;
* `KernelCpu.Estado.atendidas` — the place in the log of the first interruption not looked at;
* `KernelCpu.Marcado.Caduca` — an interruption from before the dispatch is the first about a
  process;
* `KernelCpu.Marcado.Vigente` — the CPU gives a process back for an interruption of its dispatch.

Main results:

* `KernelCpu.Marcado.EnFila.paso` — one step;
* `KernelCpu.exists_not_vigente` — an interruption from before the dispatch can always take effect;
* `KernelCpu.interrupciones_vigentes` — the runs in which none is there when the process arrives;
* `KernelCpu.interrupcion_caduca` — a process comes back from I/O and meets one.
-/

import TpSisop.KernelCpu

set_option relaxedAutoImplicit false
set_option autoImplicit false

namespace KernelCpu

open Kernel (Nucleo Pcb MensajeCpu Interrupcion Evento)

/-! ### Old interruptions -/

/-- How many interruptions of the log the CPU has looked at. -/
def Estado.atendidas (s : Estado) : ℕ := s.leidosInterrupt - s.cpu.interrupciones.length

/-- The kernel and the CPU, and how many interruptions the kernel had sent when the scheduler last
dispatched a process.  The answer to WAIT or SIGNAL is no dispatch. -/
structure Marcado where
  estado : Estado
  desde : ℕ := 0

namespace Marcado

/-- The place of the last dispatch, after a step to `s'`. -/
def marcar (s : Marcado) (s' : Estado) : ℕ :=
  if s.estado.kernel.enCpu = none ∧ s'.kernel.enCpu ≠ none then s.estado.kernel.interrupt.length
  else s.desde

/-- The interruptions that the CPU has not looked at and are older than the last dispatch. -/
def viejas (s : Marcado) : List Interrupcion :=
  s.estado.pendientes.take (s.desde - s.estado.atendidas)

/-- The first of them about the process is one of its quantum. -/
def Caduca (s : Marcado) (pid : ℕ) : Prop :=
  s.viejas.find? (fun i => i.pid = pid) = some ⟨pid, .interrupcion⟩

instance (s : Marcado) : DecidablePred s.Caduca := fun pid =>
  inferInstanceAs (Decidable (s.viejas.find? (fun i => i.pid = pid) = some ⟨pid, .interrupcion⟩))

/-- The process that the CPU is about to give back for an interruption of its quantum is the one
that the kernel has there, and the interruption is one of those sent since it was dispatched. -/
def Vigente (s : Marcado) : Prop :=
  s.estado.cpu.fase = .interrupcion →
    ∀ p, (p, .interrupcion) ∈ s.estado.cpu.atenderInterrupcion.2 →
      (∃ q, s.estado.kernel.enCpu = some q ∧ q.pid = p.pid) ∧
        s.estado.kernel.interrupt[s.estado.atendidas]? = some ⟨p.pid, .interrupcion⟩ ∧
        s.desde ≤ s.estado.atendidas

end Marcado

def sistemaMarcado : Transicion.Sistema Marcado Suceso where
  inicial s := ∃ config, s = { estado := { kernel := Kernel.iniciar config } }
  paso s a s' := sistema.paso s.estado a s'.estado ∧ s'.desde = s.marcar s'.estado

/-- The CPU receives no process with such an interruption about it. -/
def sinCaducas (s : Marcado) : Suceso → Prop
  | .recibirPcb => ∀ p ∈ s.estado.kernel.dispatch[s.estado.leidosDispatch]?, ¬s.Caduca p.pid
  | _ => True

instance (s : Marcado) : DecidablePred (sinCaducas s)
  | .recibirPcb => inferInstanceAs
      (Decidable (∀ p ∈ s.estado.kernel.dispatch[s.estado.leidosDispatch]?, ¬s.Caduca p.pid))
  | .kernel _ | .contexto _ | .recibirInterrupcion | .ejecutar _ _ _ | .interrupcion =>
      .isTrue trivial

variable {s s' : Marcado} {a : Suceso}

/-! ### The invariant -/

/-- What the CPU has not looked at is the end of the log, and the process that it has met no old
interruption about it. -/
structure Marcado.EnFila (s : Marcado) : Prop where
  leidas : s.estado.cpu.interrupciones.length ≤ s.estado.leidosInterrupt
  desde : s.desde ≤ s.estado.kernel.interrupt.length
  fila : s.estado.pendientes = s.estado.kernel.interrupt.drop s.estado.atendidas

/-- The process that the CPU has met no old interruption about it. -/
def Marcado.Limpio (s : Marcado) : Prop :=
  ¬s.estado.cpu.Libre → ¬s.Caduca s.estado.cpu.procesoEjecutando.pid

theorem Marcado.marcar_of_eq {r : Estado} (h : r.kernel.enCpu = s.estado.kernel.enCpu) :
    s.marcar r = s.desde := by
  unfold marcar
  rw [h]
  exact if_neg fun h => h.2 h.1

theorem Marcado.marcar_of_some {r : Estado} {q : Pcb} (h : s.estado.kernel.enCpu = some q) :
    s.marcar r = s.desde := by
  simp [marcar, h]

/-- The kernel sends interruptions, or none. -/
theorem Marcado.EnFila.conKernel (hF : s.EnFila) (hS : Coherente s.estado) {k : Nucleo}
    {nuevas : List Interrupcion} {cs : List (Pcb × MensajeCpu)}
    (hint : k.interrupt = s.estado.kernel.interrupt ++ nuevas)
    (hs : s'.estado = { s.estado with kernel := k, contextos := cs })
    (hd : s'.desde = s.marcar s'.estado) : s'.EnFila := by
  have hle : s.estado.atendidas ≤ s.estado.kernel.interrupt.length :=
    (Nat.sub_le ..).trans hS.leidosInterrupt
  refine ⟨hs ▸ hF.leidas, ?_, ?_⟩
  · rw [hd, hs]
    show s.marcar _ ≤ k.interrupt.length
    have := hF.desde
    unfold marcar
    rw [hint, List.length_append]
    split <;> omega
  · rw [hs, pendientes_conKernel hS hint, hF.fila]
    show _ = k.interrupt.drop s.estado.atendidas
    rw [hint, List.drop_append_of_le_length hle]

/-- Nothing is old that is sent after the dispatch. -/
theorem Marcado.EnFila.viejas_conKernel (hF : s.EnFila) (hS : Coherente s.estado) {k : Nucleo}
    {nuevas : List Interrupcion} {cs : List (Pcb × MensajeCpu)}
    (hint : k.interrupt = s.estado.kernel.interrupt ++ nuevas)
    (hs : s'.estado = { s.estado with kernel := k, contextos := cs }) (hd : s'.desde = s.desde) :
    s'.viejas = s.viejas := by
  have hle : s.desde - s.estado.atendidas ≤ s.estado.pendientes.length := by
    rw [hF.fila, List.length_drop]
    exact Nat.sub_le_sub_right hF.desde _
  unfold viejas
  rw [hd, hs, pendientes_conKernel hS hint]
  exact List.take_append_of_le_length hle

/-- An interruption goes from the socket to the list. -/
theorem atendidas_recibirInterrupcion (e : Estado) (inter : Interrupcion) :
    { e with
      cpu := e.cpu.recibirInterrupcion inter
      leidosInterrupt := e.leidosInterrupt + 1 }.atendidas = e.atendidas := by
  simp [Estado.atendidas, Cpu.Ciclo.recibirInterrupcion]

/-- A step that leaves the interruptions where they are. -/
theorem Marcado.EnFila.quieto (hF : s.EnFila) (hk : s'.estado.kernel = s.estado.kernel)
    (hd : s'.desde = s.desde) (hpend : s'.estado.pendientes = s.estado.pendientes)
    (hat : s'.estado.atendidas = s.estado.atendidas)
    (hle : s'.estado.cpu.interrupciones.length ≤ s'.estado.leidosInterrupt) :
    s'.EnFila ∧ s'.viejas = s.viejas := by
  refine ⟨⟨hle, ?_, ?_⟩, ?_⟩
  · rw [hd, hk]
    exact hF.desde
  · rw [hpend, hat, hk]
    exact hF.fila
  · rw [viejas, viejas, hpend, hd, hat]

theorem Marcado.EnFila.recibirInterrupcion (hF : s.EnFila) {inter : Interrupcion}
    (hi : s.estado.kernel.interrupt[s.estado.leidosInterrupt]? = some inter)
    (hs : s'.estado = { s.estado with
      cpu := s.estado.cpu.recibirInterrupcion inter
      leidosInterrupt := s.estado.leidosInterrupt + 1 })
    (hd : s'.desde = s.desde) : s'.EnFila ∧ s'.viejas = s.viejas := by
  refine hF.quieto (by rw [hs]) hd (by rw [hs, pendientes_recibirInterrupcion hi]) ?_ ?_
  · rw [hs, atendidas_recibirInterrupcion]
  · rw [hs]
    simpa [Cpu.Ciclo.recibirInterrupcion] using hF.leidas

theorem Marcado.EnFila.ejecutar (hF : s.EnFila) {i : Cpu.Instruccion} {pc : ℕ}
    {registros : Cpu.Registros}
    (hs : s'.estado = s.estado.conCpu (s.estado.cpu.ejecutar i pc registros))
    (hd : s'.desde = s.desde) : s'.EnFila ∧ s'.viejas = s.viejas := by
  have hint := (s.estado.cpu.ejecutar_casos i pc registros).1
  refine hF.quieto (by rw [hs, Estado.conCpu_kernel]) hd ?_ ?_ ?_
  · simp [hs, Estado.pendientes, Estado.conCpu, hint]
  · simp [hs, Estado.atendidas, Estado.conCpu, hint]
  · rw [hs, Estado.conCpu_cpu, hint]
    exact hF.leidas

/-- The CPU looks at its first interruption. -/
theorem Marcado.EnFila.interrupcion_cons (hF : s.EnFila) {i : Interrupcion}
    {resto : List Interrupcion} (hi : s.estado.cpu.interrupciones = i :: resto)
    (hs : s'.estado = s.estado.conCpu s.estado.cpu.atenderInterrupcion)
    (hd : s'.desde = s.desde) : s'.EnFila ∧ s'.viejas = s.viejas.tail := by
  have hint := s.estado.cpu.atenderInterrupcion_casos.1
  have hleidas := hF.leidas
  rw [hi, List.length_cons] at hleidas
  have hpend : s'.estado.pendientes = s.estado.pendientes.tail := by
    simp [hs, Estado.pendientes, Estado.conCpu, hint, hi]
  have hat : s'.estado.atendidas = s.estado.atendidas + 1 := by
    simp only [hs, Estado.atendidas, Estado.conCpu, hint, hi, List.tail_cons, List.length_cons]
    omega
  refine ⟨⟨?_, ?_, ?_⟩, ?_⟩
  · rw [hs, Estado.conCpu_cpu, hint, hi]
    exact (Nat.le_succ _).trans hleidas
  · rw [hd, hs]
    exact hF.desde
  · rw [hpend, hat, hs, hF.fila, Estado.conCpu_kernel, List.tail_drop]
  · rw [viejas, viejas, hpend, hd, hat, ← Nat.sub_sub]
    cases s.estado.pendientes with
    | nil => simp
    | cons j js => cases s.desde - s.estado.atendidas <;> simp

theorem Marcado.EnFila.interrupcion_nil (hF : s.EnFila) (hi : s.estado.cpu.interrupciones = [])
    (hs : s'.estado = s.estado.conCpu s.estado.cpu.atenderInterrupcion)
    (hd : s'.desde = s.desde) : s'.EnFila ∧ s'.viejas = s.viejas := by
  have hint := s.estado.cpu.atenderInterrupcion_casos.1
  refine hF.quieto (by rw [hs, Estado.conCpu_kernel]) hd ?_ ?_ ?_
  · simp only [hs, Estado.pendientes, Estado.conCpu, hint, hi, List.tail_nil]
  · simp [hs, Estado.atendidas, Estado.conCpu, hint, hi]
  · rw [hs, Estado.conCpu_cpu, hint, hi]
    exact Nat.zero_le _

/-- An interruption about another process says nothing about this one. -/
theorem Marcado.caduca_interrupcion {pid : ℕ} {i : Interrupcion} {resto : List Interrupcion}
    (hi : s.estado.cpu.interrupciones = i :: resto) (hv : s'.viejas = s.viejas.tail)
    (hne : i.pid ≠ pid) : s'.Caduca pid ↔ s.Caduca pid := by
  unfold Caduca
  rw [hv]
  have hpend : s.estado.pendientes
      = i :: (resto ++ s.estado.kernel.interrupt.drop s.estado.leidosInterrupt) := by
    rw [Estado.pendientes, hi, List.cons_append]
  rw [viejas, hpend]
  cases s.desde - s.estado.atendidas <;> simp [hne]

/-- A CPU that goes on with its process had no interruption about it before it. -/
theorem ne_of_atenderInterrupcion {c : Cpu.Ciclo} {i : Interrupcion} {resto : List Interrupcion}
    (hi : c.interrupciones = i :: resto) (hnada : c.atenderInterrupcion.2 = [])
    (hp : c.procesoEjecutando.pid ≠ 0) : i.pid ≠ c.procesoEjecutando.pid := by
  rintro hpid
  simp [Cpu.Ciclo.atenderInterrupcion, hi, hpid, hp] at hnada

/-- A step, with the condition where the CPU receives a process. -/
theorem Marcado.EnFila.paso (hF : s.EnFila) (hL : s.Limpio) (hS : Coherente s.estado)
    (hk : Transicion.Alcanzable Kernel.sistema s.estado.kernel) (hC : sinCaducas s a)
    (h : Paso s.estado a s'.estado) (hd : s'.desde = s.marcar s'.estado) :
    s'.EnFila ∧ s'.Limpio := by
  obtain ⟨hB, hO⟩ := Kernel.ordenada_alcanzable hk
  generalize hs : s'.estado = r at h
  rw [hs] at hd
  cases h with
  | @kernel e k he ha hm =>
      obtain ⟨nuevas, hint, -⟩ := (Kernel.manejar_efecto hB hO.encolados ha hm).interrupt
      have hs₁ : s'.estado = { s.estado with kernel := k, contextos := s.estado.contextos } := hs
      refine ⟨hF.conKernel hS hint hs₁ (hs.symm ▸ hd), fun hl => ?_⟩
      rw [hs] at hl ⊢
      obtain ⟨q, henCpu, -⟩ := hS.cargado hl
      unfold Caduca
      rw [hF.viejas_conKernel hS hint hs₁ (hd.trans (marcar_of_some henCpu))]
      exact hL hl
  | @contexto ahora p m cola k hc hm =>
      obtain ⟨ha, rfl⟩ := hS.admite ahora hc
      obtain ⟨nuevas, hint, -⟩ := (Kernel.manejar_efecto hB hO.encolados ha hm).interrupt
      refine ⟨hF.conKernel hS hint hs (hs.symm ▸ hd), fun hl => ?_⟩
      rw [hs] at hl
      obtain ⟨q, -, -, hc', -⟩ := hS.cargado hl
      simp [hc'] at hc
  | @recibirInterrupcion inter hi =>
      obtain ⟨hF', hv⟩ := hF.recibirInterrupcion hi hs (hd.trans (marcar_of_eq rfl))
      refine ⟨hF', fun hl => ?_⟩
      rw [hs] at hl ⊢
      unfold Caduca
      rw [hv]
      exact hL hl
  | @recibirPcb p hf hp =>
      obtain ⟨hF', hv⟩ : s'.EnFila ∧ s'.viejas = s.viejas :=
        hF.quieto (by rw [hs]) (hd.trans (marcar_of_eq rfl)) (by rw [hs]; rfl) (by rw [hs]; rfl)
          (hs ▸ hF.leidas)
      refine ⟨hF', fun _ => ?_⟩
      unfold Caduca
      rw [hv, hs]
      exact hC p hp
  | @ejecutar i pc registros hf =>
      obtain ⟨hF', hv⟩ := hF.ejecutar hs (hd.trans (marcar_of_eq rfl))
      refine ⟨hF', fun hl => ?_⟩
      rw [hs, Estado.conCpu_cpu] at hl
      rcases (s.estado.cpu.ejecutar_casos i pc registros).2 with
        ⟨-, -, -, hproc⟩ | ⟨m, -, -, hl', -⟩
      · unfold Caduca
        rw [hv, hs, Estado.conCpu_cpu, hproc]
        exact hL (Cpu.Ciclo.not_libre_of_ejecuta hf)
      · exact absurd hl' hl
  | interrupcion hf =>
      have hd := hd.trans (marcar_of_eq rfl)
      obtain ⟨hint, hcasos⟩ := s.estado.cpu.atenderInterrupcion_casos
      rcases hcasos with ⟨_, _, -, -, -, hl', -⟩ | ⟨hproc, hnada, hfase⟩
      · cases hi : s.estado.cpu.interrupciones with
        | nil => exact ⟨(hF.interrupcion_nil hi hs hd).1, fun hl => absurd (hs ▸ hl') hl⟩
        | cons i resto =>
            exact ⟨(hF.interrupcion_cons hi hs hd).1, fun hl => absurd (hs ▸ hl') hl⟩
      · have hproc' : s'.estado.cpu.procesoEjecutando = s.estado.cpu.procesoEjecutando := by
          rw [hs, Estado.conCpu_cpu, hproc]
        have hlimpio : ¬s'.estado.cpu.Libre → s.estado.cpu.procesoEjecutando.pid ≠ 0 ∧
            ¬s.Caduca s.estado.cpu.procesoEjecutando.pid := by
          intro hl
          have hpid : s.estado.cpu.procesoEjecutando.pid ≠ 0 := fun h =>
            hl (.inl (by rw [hs, Estado.conCpu_cpu, hfase, if_pos h]))
          exact ⟨hpid, hL fun h => hpid (h.pid hf)⟩
        cases hi : s.estado.cpu.interrupciones with
        | nil =>
            obtain ⟨hF', hv⟩ := hF.interrupcion_nil hi hs hd
            refine ⟨hF', fun hl => ?_⟩
            unfold Caduca
            rw [hv, hproc']
            exact (hlimpio hl).2
        | cons i resto =>
            obtain ⟨hF', hv⟩ := hF.interrupcion_cons hi hs hd
            refine ⟨hF', fun hl => ?_⟩
            obtain ⟨hpid, hno⟩ := hlimpio hl
            rw [hproc', caduca_interrupcion hi hv (ne_of_atenderInterrupcion hi hnada hpid)]
            exact hno

theorem Marcado.EnFila.alcanzable (h : Transicion.AlcanzableCon sistemaMarcado sinCaducas s) :
    Coherente s.estado ∧ Transicion.Alcanzable Kernel.sistema s.estado.kernel ∧ s.EnFila ∧
      s.Limpio := by
  refine h.invariante (I := fun s => Coherente s.estado ∧
    Transicion.Alcanzable Kernel.sistema s.estado.kernel ∧ s.EnFila ∧ s.Limpio) ?_ ?_
  · rintro _ ⟨config, rfl⟩
    refine ⟨coherente_iniciar config, .inicio ⟨config, rfl⟩, ⟨le_rfl, Nat.zero_le _, rfl⟩, ?_⟩
    exact fun hl => absurd (.inl rfl) hl
  · rintro s a s' ⟨hS, hk, hF, hL⟩ hC ⟨hpaso, hd⟩
    have hpaso := paso_of_avanzar hpaso
    exact ⟨hpaso.coherente hS hk, hpaso.alcanzable hS hk, hF.paso hL hS hk hC hpaso hd⟩

/-! ### An old interruption takes effect -/

/-- The states that the two machines may still reach. -/
abbrev Marcado.Lleva (s s' : Marcado) : Prop := Transicion.Alcanzable (sistemaMarcado.desde s) s'

theorem Marcado.Lleva.refl (s : Marcado) : s.Lleva s := .inicio rfl

theorem Marcado.Lleva.trans {r : Marcado} (h₁ : s.Lleva r) (h₂ : r.Lleva s') : s.Lleva s' :=
  h₁.seguir h₂

/-- A step of the CPU. -/
theorem Marcado.exists_lleva {r : Estado} (h : avanzar s.estado a = some r)
    (hk : r.kernel = s.estado.kernel) :
    ∃ s' : Marcado, s.Lleva s' ∧ s'.estado = r ∧ s'.desde = s.desde :=
  ⟨⟨r, s.desde⟩, .paso (Lleva.refl s) trivial ⟨h, (marcar_of_eq (by rw [hk])).symm⟩, rfl, rfl⟩

/-- The CPU takes an interruption from the socket, if its list is empty. -/
theorem Marcado.EnFila.exists_cons (hF : s.EnFila) {i : Interrupcion} {is : List Interrupcion}
    (hv : s.viejas = i :: is) :
    ∃ s', s.Lleva s' ∧ s'.EnFila ∧ s'.viejas = s.viejas ∧
      s'.estado.cpu.fase = s.estado.cpu.fase ∧
      s'.estado.cpu.procesoEjecutando = s.estado.cpu.procesoEjecutando ∧
      ∃ resto, s'.estado.cpu.interrupciones = i :: resto := by
  have hpend : ∃ js, s.estado.pendientes = i :: js := by
    obtain ⟨js, hjs⟩ : s.viejas <+: s.estado.pendientes := List.take_prefix ..
    exact ⟨is ++ js, by rw [← hjs, hv, List.cons_append]⟩
  obtain ⟨js, hjs⟩ := hpend
  cases hi : s.estado.cpu.interrupciones with
  | cons j resto =>
      rw [Estado.pendientes, hi, List.cons_append] at hjs
      obtain ⟨rfl, -⟩ := List.cons.inj hjs
      exact ⟨s, .refl s, hF, rfl, rfl, rfl, resto, hi⟩
  | nil =>
      have hget : s.estado.kernel.interrupt[s.estado.leidosInterrupt]? = some i := by
        rw [Estado.pendientes, hi, List.nil_append] at hjs
        rw [← List.head?_drop, hjs, List.head?_cons]
      have hpaso : avanzar s.estado .recibirInterrupcion = some { s.estado with
          cpu := s.estado.cpu.recibirInterrupcion i
          leidosInterrupt := s.estado.leidosInterrupt + 1 } := by
        rw [avanzar, hget, Option.map_some]
      obtain ⟨s', hlleva, hs, hd⟩ := exists_lleva hpaso rfl
      obtain ⟨hF', hv'⟩ := hF.recibirInterrupcion hget hs hd
      exact ⟨s', hlleva, hF', hv', by rw [hs]; rfl, by rw [hs]; rfl, [],
        by simp [hs, Cpu.Ciclo.recibirInterrupcion, hi]⟩

/-- The CPU executes an instruction, if it is about to. -/
theorem Marcado.EnFila.exists_interrupcion (hF : s.EnFila)
    (hf : s.estado.cpu.fase = .ejecuta ∨ s.estado.cpu.fase = .interrupcion) :
    ∃ s', s.Lleva s' ∧ s'.EnFila ∧ s'.viejas = s.viejas ∧ s'.estado.cpu.fase = .interrupcion ∧
      s'.estado.cpu.procesoEjecutando.pid = s.estado.cpu.procesoEjecutando.pid ∧
      s'.estado.cpu.interrupciones = s.estado.cpu.interrupciones := by
  rcases hf with hf | hf
  · have hpaso : avanzar s.estado (.ejecutar .interna 0 {})
        = some (s.estado.conCpu (s.estado.cpu.ejecutar .interna 0 {})) := if_pos hf
    obtain ⟨s', hlleva, hs, hd⟩ := exists_lleva hpaso rfl
    obtain ⟨hF', hv'⟩ := hF.ejecutar hs hd
    exact ⟨s', hlleva, hF', hv', by rw [hs]; rfl, by rw [hs]; rfl, by rw [hs]; rfl⟩
  · exact ⟨s, .refl s, hF, rfl, hf, rfl, rfl⟩

/-- The CPU looks at the interruptions before the old one, that are about others, and then at it. -/
theorem exists_not_vigente {pid : ℕ} {xs ys : List Interrupcion} (hF : s.EnFila)
    (hf : s.estado.cpu.fase = .ejecuta ∨ s.estado.cpu.fase = .interrupcion)
    (hproc : s.estado.cpu.procesoEjecutando.pid = pid) (hpid : pid ≠ 0)
    (hv : s.viejas = xs ++ ⟨pid, .interrupcion⟩ :: ys) (hxs : ∀ i ∈ xs, i.pid ≠ pid) :
    ∃ s', s.Lleva s' ∧ ¬s'.Vigente := by
  induction xs generalizing s with
  | nil =>
      obtain ⟨s₁, h₁, hF₁, hv₁, hf₁, hp₁, resto, hr₁⟩ := hF.exists_cons hv
      obtain ⟨s₂, h₂, hF₂, hv₂, hf₂, hp₂, hr₂⟩ := hF₁.exists_interrupcion (hf₁ ▸ hf)
      refine ⟨s₂, h₁.trans h₂, fun hvig => ?_⟩
      have hproc₂ : s₂.estado.cpu.procesoEjecutando.pid = pid := by rw [hp₂, hp₁, hproc]
      have hle := (hvig hf₂ s₂.estado.cpu.procesoEjecutando
        (by simp [Cpu.Ciclo.atenderInterrupcion, hr₂, hr₁, hproc₂, hpid, Cpu.mensajeDe])).2.2
      have hnil : s₂.viejas = [] := by
        rw [Marcado.viejas, Nat.sub_eq_zero_of_le hle, List.take_zero]
      simp [hv₂, hv₁, hv] at hnil
  | cons x xs ih =>
      obtain ⟨s₁, h₁, hF₁, hv₁, hf₁, hp₁, resto, hr₁⟩ := hF.exists_cons hv
      obtain ⟨s₂, h₂, hF₂, hv₂, hf₂, hp₂, hr₂⟩ := hF₁.exists_interrupcion (hf₁ ▸ hf)
      have hproc₂ : s₂.estado.cpu.procesoEjecutando.pid = pid := by rw [hp₂, hp₁, hproc]
      have hne : x.pid ≠ pid := hxs x (List.mem_cons_self ..)
      have hr : s₂.estado.cpu.interrupciones = x :: resto := hr₂.trans hr₁
      have hpaso : avanzar s₂.estado .interrupcion
          = some (s₂.estado.conCpu s₂.estado.cpu.atenderInterrupcion) := if_pos hf₂
      obtain ⟨s₃, hlleva, hs, hd⟩ := Marcado.exists_lleva hpaso rfl
      obtain ⟨hF₃, hv₃⟩ := hF₂.interrupcion_cons hr hs hd
      have hsigue : s₂.estado.cpu.atenderInterrupcion.1
          = ({ s₂.estado.cpu with interrupciones := resto } : Cpu.Ciclo).seguir := by
        simp [Cpu.Ciclo.atenderInterrupcion, hr, hproc₂, Ne.symm hne]
      have hf₃ : s₃.estado.cpu.fase = .ejecuta := by
        rw [hs, Estado.conCpu_cpu, hsigue]
        simp [Cpu.Ciclo.seguir, hproc₂, hpid]
      have hproc₃ : s₃.estado.cpu.procesoEjecutando.pid = pid := by
        rw [hs, Estado.conCpu_cpu, hsigue]
        exact hproc₂
      obtain ⟨s', h', hno⟩ := ih hF₃ (.inl hf₃) hproc₃
        (by rw [hv₃, hv₂, hv₁, hv, List.cons_append, List.tail_cons])
        (fun i hi => hxs i (List.mem_cons_of_mem _ hi))
      exact ⟨s', ((h₁.trans h₂).trans hlleva).trans h', hno⟩

/-! ### Runs -/

/-- Where the CPU receives no process with an interruption from before its dispatch about it, it
gives no process back for one; where it does, it may do so. -/
theorem interrupciones_vigentes (h : Transicion.AlcanzableCon sistemaMarcado sinCaducas s) :
    s.Vigente ∧
      ∀ a r, sistemaMarcado.paso s a r → ¬sinCaducas s a → ∃ s', r.Lleva s' ∧ ¬s'.Vigente := by
  obtain ⟨hS, hk, hF, hL⟩ := Marcado.EnFila.alcanzable h
  obtain ⟨hB, -⟩ := Kernel.ordenada_alcanzable hk
  refine ⟨fun hf p hp => ?_, fun a r hpaso hno => ?_⟩
  · obtain ⟨-, hcasos⟩ := s.estado.cpu.atenderInterrupcion_casos
    rcases hcasos with ⟨i, resto, hi, hpid, hne, -, hmsg⟩ | ⟨-, hnada, -⟩
    · rw [hmsg, List.mem_singleton, Prod.mk.injEq] at hp
      obtain ⟨rfl, hmot⟩ := hp
      have hl : ¬s.estado.cpu.Libre := fun hl => hne (hl.pid hf)
      obtain ⟨q, henCpu, -, -, hq⟩ := hS.cargado hl
      have hi' : i = ⟨s.estado.cpu.procesoEjecutando.pid, .interrupcion⟩ := by
        rw [hpid]
        cases i with
        | mk pid motivo => cases motivo <;> simp [Cpu.mensajeDe] at hmot ⊢
      have hpend : s.estado.pendientes
          = i :: (resto ++ s.estado.kernel.interrupt.drop s.estado.leidosInterrupt) := by
        rw [Estado.pendientes, hi, List.cons_append]
      refine ⟨⟨q, henCpu, hq.pid⟩, ?_, ?_⟩
      · rw [← hi', ← List.head?_drop, ← hF.fila, hpend, List.head?_cons]
      · by_contra hlt
        refine hL hl ?_
        obtain ⟨n, hn⟩ := Nat.exists_eq_add_of_lt (Nat.sub_pos_of_lt (not_le.1 hlt))
        rw [Marcado.Caduca, Marcado.viejas, hpend, hn, List.take_succ_cons, ← hi']
        simp [hpid]
    · simp [hnada] at hp
  · obtain ⟨hpaso, hd⟩ := hpaso
    cases a with
    | recibirPcb =>
        have hpaso := paso_of_avanzar hpaso
        generalize hs : r.estado = e at hpaso
        cases hpaso with
        | @recibirPcb p hf hp =>
            obtain ⟨hF', hv⟩ : r.EnFila ∧ r.viejas = s.viejas :=
              hF.quieto (by rw [hs]) (hd.trans (Marcado.marcar_of_eq (by rw [hs])))
                (by rw [hs]; rfl) (by rw [hs]; rfl) (hs ▸ hF.leidas)
            have hcad : s.Caduca p.pid := by simpa [sinCaducas, hp] using hno
            obtain ⟨xs, ys, hxs, hotros⟩ := (List.find?_eq_some_iff_append.1 hcad).2
            have hcons := porRecibir_cons hp
            have hpid : p.pid ≠ 0 := by
              cases hS.sitio with
              | nadie _ hr => simp [hr] at hcons
              | cargado _ hr => simp [hr] at hcons
              | devuelto _ hr => simp [hr] at hcons
              | enViaje henCpu hr =>
                  rw [hr] at hcons
                  obtain ⟨rfl, -⟩ := List.cons.inj hcons
                  exact (Devuelve.refl _).pid_ne_zero hB henCpu
            have hfase : r.estado.cpu.fase = .ejecuta ∨ r.estado.cpu.fase = .interrupcion := by
              rw [hs]
              simp only [Cpu.Ciclo.recibirPcbNuevo]
              split <;> simp
            exact exists_not_vigente hF' hfase (by rw [hs]; rfl) hpid (hv.trans hxs)
              (by simpa using hotros)
    | _ => exact absurd trivial hno

/-- The state after a step that meets a condition, for runs that are computed. -/
def intentarMarcado (C : Marcado → Suceso → Prop) [∀ s a, Decidable (C s a)] (s : Marcado)
    (a : Suceso) : Option Marcado :=
  if C s a then (avanzar s.estado a).map fun r => ⟨r, s.marcar r⟩ else none

theorem paso_of_intentarMarcado {C : Marcado → Suceso → Prop} [∀ s a, Decidable (C s a)]
    (h : intentarMarcado C s a = some s') : C s a ∧ sistemaMarcado.paso s a s' := by
  unfold intentarMarcado at h
  split at h
  · rename_i hC
    obtain ⟨r, hr, rfl⟩ := Option.map_eq_some_iff.1 h
    exact ⟨hC, hr, rfl⟩
  · cases h

/-- The first process is interrupted when it has used its quantum, and then the second one. -/
def dosQuantums : Marcado :=
  Transicion.estadoTras (intentarMarcado sinCaducas)
    { estado := { kernel := Kernel.iniciar ⟨.rr, 10, 3, []⟩ } }
    (List.map Suceso.kernel
        (Kernel.dosAdmitidos ++ [.corto 0, .corto 0, .corto 0, .corto 0, .reloj, .reloj]) ++
      [.recibirPcb, .recibirInterrupcion, .ejecutar .interna 1 {}, .interrupcion, .contexto 1] ++
      List.map Suceso.kernel [.corto 1, .corto 1, .corto 1, .corto 1, .reloj] ++
      [.recibirPcb, .kernel .reloj, .recibirInterrupcion, .ejecutar .interna 1 {}])
    (by decide +kernel)

theorem alcanzable_dosQuantums : Transicion.AlcanzableCon sistemaMarcado sinCaducas dosQuantums :=
  Transicion.alcanzableCon_estadoTras (fun _ _ _ => paso_of_intentarMarcado) ⟨_, rfl⟩ _

theorem interrupciones_vigentes_dosQuantums :
    dosQuantums.Vigente ∧
      ∀ a r, sistemaMarcado.paso dosQuantums a r → ¬sinCaducas dosQuantums a →
        ∃ s', r.Lleva s' ∧ ¬s'.Vigente :=
  interrupciones_vigentes alcanzable_dosQuantums

/-- The quantum of the first process ends when its I/O request is on its way; the process comes
back, and the interruption reaches the CPU before it. -/
def vueltaDeIo : Marcado :=
  Transicion.estadoTras (intentarMarcado fun _ _ => True)
    { estado := { kernel := Kernel.iniciar ⟨.rr, 10, 3, []⟩ } }
    (List.map Suceso.kernel
        (.conexionIo "GEN" 1 :: Kernel.dosAdmitidos ++
          [.corto 0, .corto 0, .corto 0, .corto 0, .reloj]) ++
      [.recibirPcb, .ejecutar (.io "GEN" .genSleep) 1 {}, .kernel .reloj, .contexto 1,
        .interrupcion] ++
      List.map Suceso.kernel
        [.interfaz "GEN" ⟨1, .genSleep⟩ .finIo, .corto 2, .corto 2, .corto 2, .corto 2] ++
      [.recibirPcb, .ejecutar .exit 1 {}, .contexto 3, .interrupcion] ++
      List.map Suceso.kernel [.corto 3, .corto 3, .corto 3, .corto 3] ++
      [.recibirInterrupcion, .recibirPcb, .ejecutar .interna 2 {}])
    (by decide +kernel)

theorem alcanzable_vueltaDeIo : Transicion.Alcanzable sistemaMarcado vueltaDeIo :=
  (Transicion.alcanzableCon_estadoTras (fun _ _ _ => paso_of_intentarMarcado) ⟨_, rfl⟩ _).alcanzable

theorem interrupcion_caduca : ¬∀ s, Transicion.Alcanzable sistemaMarcado s → s.Vigente := by
  intro h
  have hv := h vueltaDeIo alcanzable_vueltaDeIo (by decide +kernel)
    vueltaDeIo.estado.cpu.procesoEjecutando (by decide +kernel)
  exact absurd hv.2.2 (by decide +kernel)

end KernelCpu
