/-
**The kernel and the CPU, with the sockets between them.**

The CPU is no longer an environment that may give its process back at any time: it runs its cycle,
and each of its messages, and each of the kernel's, waits in a socket until the other side takes
it.  The steps of the two parties come in any order.  Of the sockets that the kernel writes, the
kernel keeps the whole log, and this system how much of it the CPU has read.

Main definitions:

* `KernelCpu.Estado`, `KernelCpu.Suceso`, `KernelCpu.avanzar`, `KernelCpu.sistema`;
* `KernelCpu.correr` — the state in which a list of steps ends;
* `KernelCpu.Sitio` — where the process that runs is: in a socket, or at the CPU;
* `KernelCpu.Coherente` — there is one such place, and the interruptions come from the kernel.

Main results:

* `KernelCpu.Paso.coherente` — a step keeps `Coherente`;
* `KernelCpu.alcanzable_kernel` — the CPU sends nothing that the kernel, on its own, does not
  expect: the states of its kernel are states of `Kernel.sistema`.
-/

import TpSisop.CpuCiclo
import TpSisop.KernelFallas

set_option relaxedAutoImplicit false
set_option autoImplicit false

namespace Kernel

variable {k k' : Nucleo} {e : Evento}

/-! ### What the kernel sends to the CPU -/

/-- The log of the interrupt socket grows; FINALIZAR_PROCESO is what ends a process. -/
theorem Efecto.interrupt (h : Efecto k e k') : ∃ nuevas, k'.interrupt = k.interrupt ++ nuevas ∧
    ∀ i ∈ nuevas, i.motivo = .terminarProceso →
      e = .finalizarProceso i.pid ∧ Interrumpe k i.pid k' := by
  have hnada : k'.interrupt = k.interrupt → ∃ nuevas, k'.interrupt = k.interrupt ++ nuevas ∧
      ∀ i ∈ nuevas, i.motivo = .terminarProceso →
        e = .finalizarProceso i.pid ∧ Interrumpe k i.pid k' :=
    fun h => ⟨[], by simp [h], by simp⟩
  cases h with
  | ajeno he h => exact hnada h.interrupt
  | creacion => exact hnada rfl
  | @finaliza pid _ h =>
      refine ⟨[⟨pid, .terminarProceso⟩], by rw [h.estado]; rfl, fun i hi _ => ?_⟩
      cases List.mem_singleton.1 hi
      exact ⟨rfl, h⟩
  | cpu h =>
      cases h with
      | calla h => exact hnada h.interrupt
      | envia h hc => exact hnada h.interrupt
  | corto h =>
      cases h with
      | sigue h hc hq => exact hnada h.interrupt
      | interrumpe h =>
          refine ⟨[⟨k.pidEjecutando, .interrupcion⟩], by rw [h]; rfl, fun i hi hm => ?_⟩
          cases List.mem_singleton.1 hi
          cases hm
      | despacha h hcpu hc hq => exact hnada h.interrupt
  | reloj =>
      refine ⟨[⟨k.pidEjecutando, .interrupcion⟩], rfl, fun i hi hm => ?_⟩
      cases List.mem_singleton.1 hi
      cases hm

/-- With nobody at the CPU, an event may send a process there. -/
theorem Efecto.dispatch (h : Efecto k e k') (hB : Base k.vista) (he : ¬e.deCpu) :
    (k'.enCpu = k.enCpu ∧ k'.dispatch = k.dispatch) ∨
      k.enCpu = none ∧ ∃ q, k'.enCpu = some q ∧ k'.dispatch = k.dispatch ++ [q] := by
  cases h with
  | ajeno _ h => exact .inl ⟨h.enCpu, h.dispatch⟩
  | creacion => exact .inl ⟨rfl, rfl⟩
  | finaliza h =>
      rw [h.estado]
      exact .inl ⟨rfl, rfl⟩
  | cpu h => exact absurd trivial he
  | corto h =>
      cases h with
      | sigue h hc hq => exact .inl ⟨h.enCpu, h.dispatch⟩
      | interrumpe h =>
          rw [h]
          exact .inl ⟨rfl, rfl⟩
      | @despacha q h hcpu hc hq =>
          refine .inr ⟨?_, q, h.enCpu, h.dispatch⟩
          have h₁ := hB.cpu
          have h₂ : k.vista.listas .running = [] := List.eq_nil_of_length_eq_zero (by omega)
          rw [hB.enCpu] at h₂
          exact Option.toList_eq_nil_iff.1 h₂
  | reloj => exact .inl ⟨rfl, rfl⟩

/-- The answer to a message of the CPU is a PCB, or nothing. -/
theorem Efecto.dispatch_cpu {p : Pcb} {m : MensajeCpu} {ahora : ℤ}
    (h : Efecto k (.cpu p m ahora) k') :
    (k'.enCpu = none ∧ k'.dispatch = k.dispatch) ∨
      ∃ q, k'.enCpu = some q ∧ k'.dispatch = k.dispatch ++ [q] := by
  cases h with
  | ajeno he h => exact absurd trivial he
  | cpu h =>
      cases h with
      | calla h => exact .inl ⟨h.enCpu, h.dispatch⟩
      | @envia q h hc => exact .inr ⟨q, h.enCpu, h.dispatch⟩

end Kernel

namespace KernelCpu

open Kernel (Nucleo Pcb MensajeCpu Interrupcion Evento admite manejar)
open Cpu (Ciclo Instruccion waitOSignal)
open Cpu.Ciclo (Libre)

/-! ### The system -/

/-- `contextos` is what the CPU sent on the dispatch socket and the kernel did not take yet;
`leidosDispatch` and `leidosInterrupt` are how many messages of the kernel the CPU has read. -/
structure Estado where
  kernel : Nucleo
  cpu : Ciclo := {}
  contextos : List (Pcb × MensajeCpu) := []
  leidosDispatch : ℕ := 0
  leidosInterrupt : ℕ := 0

namespace Estado

/-- The PCBs that the CPU did not read yet. -/
def porRecibir (s : Estado) : List Pcb := s.kernel.dispatch.drop s.leidosDispatch

/-- The interruptions that the CPU did not remove yet, in order. -/
def pendientes (s : Estado) : List Interrupcion :=
  s.cpu.interrupciones ++ s.kernel.interrupt.drop s.leidosInterrupt

/-- The CPU takes a step and sends what it has to. -/
def conCpu (s : Estado) (r : Ciclo × List (Pcb × MensajeCpu)) : Estado :=
  { s with cpu := r.1, contextos := s.contextos ++ r.2 }

variable (s : Estado) (r : Ciclo × List (Pcb × MensajeCpu))

@[simp] theorem conCpu_kernel : (s.conCpu r).kernel = s.kernel := rfl

@[simp] theorem conCpu_cpu : (s.conCpu r).cpu = r.1 := rfl

@[simp] theorem conCpu_contextos : (s.conCpu r).contextos = s.contextos ++ r.2 := rfl

@[simp] theorem conCpu_porRecibir : (s.conCpu r).porRecibir = s.porRecibir := rfl

end Estado

/-- The steps: an event of the kernel that is not a message of the CPU, the kernel taking such a
message, and the steps of the two threads of the CPU. -/
inductive Suceso
  | kernel (e : Evento)
  | contexto (ahora : ℤ)
  | recibirInterrupcion
  | recibirPcb
  | ejecutar (i : Instruccion) (pc : ℕ) (registros : Cpu.Registros)
  | interrupcion
  deriving DecidableEq, Repr

def avanzar (s : Estado) : Suceso → Option Estado
  | .kernel e =>
      if ¬e.deCpu ∧ admite s.kernel e then
        (manejar s.kernel e).toOption.map fun k => { s with kernel := k }
      else none
  | .contexto ahora =>
      match s.contextos with
      | [] => none
      | (p, m) :: cola =>
          (manejar s.kernel (.cpu p m ahora)).toOption.map fun k =>
            { s with kernel := k, contextos := cola }
  | .recibirInterrupcion =>
      s.kernel.interrupt[s.leidosInterrupt]?.map fun inter =>
        { s with
          cpu := s.cpu.recibirInterrupcion inter
          leidosInterrupt := s.leidosInterrupt + 1 }
  | .recibirPcb =>
      if s.cpu.fase = .esperaPcb ∨ s.cpu.fase = .esperaRespuesta then
        s.kernel.dispatch[s.leidosDispatch]?.map fun p =>
          { s with cpu := s.cpu.recibirPcbNuevo p, leidosDispatch := s.leidosDispatch + 1 }
      else none
  | .ejecutar i pc registros =>
      if s.cpu.fase = .ejecuta then some (s.conCpu (s.cpu.ejecutar i pc registros)) else none
  | .interrupcion =>
      if s.cpu.fase = .interrupcion then some (s.conCpu s.cpu.atenderInterrupcion) else none

def sistema : Transicion.Sistema Estado Suceso where
  inicial s := ∃ config, s = { kernel := Kernel.iniciar config }
  paso s a s' := avanzar s a = some s'

/-- The steps that are taken, one by one. -/
inductive Paso (s : Estado) : Suceso → Estado → Prop
  | kernel {e : Evento} {k : Nucleo} (he : ¬e.deCpu) (ha : admite s.kernel e)
      (hm : manejar s.kernel e = .ok k) : Paso s (.kernel e) { s with kernel := k }
  | contexto {ahora : ℤ} {p : Pcb} {m : MensajeCpu} {cola : List (Pcb × MensajeCpu)} {k : Nucleo}
      (hc : s.contextos = (p, m) :: cola) (hm : manejar s.kernel (.cpu p m ahora) = .ok k) :
      Paso s (.contexto ahora) { s with kernel := k, contextos := cola }
  | recibirInterrupcion {inter : Interrupcion}
      (hi : s.kernel.interrupt[s.leidosInterrupt]? = some inter) :
      Paso s .recibirInterrupcion
        { s with
          cpu := s.cpu.recibirInterrupcion inter
          leidosInterrupt := s.leidosInterrupt + 1 }
  | recibirPcb {p : Pcb} (hf : s.cpu.fase = .esperaPcb ∨ s.cpu.fase = .esperaRespuesta)
      (hp : s.kernel.dispatch[s.leidosDispatch]? = some p) :
      Paso s .recibirPcb
        { s with cpu := s.cpu.recibirPcbNuevo p, leidosDispatch := s.leidosDispatch + 1 }
  | ejecutar {i : Instruccion} {pc : ℕ} {registros : Cpu.Registros} (hf : s.cpu.fase = .ejecuta) :
      Paso s (.ejecutar i pc registros) (s.conCpu (s.cpu.ejecutar i pc registros))
  | interrupcion (hf : s.cpu.fase = .interrupcion) :
      Paso s .interrupcion (s.conCpu s.cpu.atenderInterrupcion)

theorem paso_of_avanzar {s s' : Estado} {a : Suceso} (h : avanzar s a = some s') : Paso s a s' := by
  cases a with
  | kernel e =>
      simp only [avanzar] at h
      split at h
      · rename_i he
        obtain ⟨k, hk, rfl⟩ := Option.map_eq_some_iff.1 h
        exact .kernel he.1 he.2 (Resultado.eq_ok_of_toOption hk)
      · cases h
  | contexto ahora =>
      simp only [avanzar] at h
      split at h
      · cases h
      · rename_i p m cola hc
        obtain ⟨k, hk, rfl⟩ := Option.map_eq_some_iff.1 h
        exact .contexto hc (Resultado.eq_ok_of_toOption hk)
  | recibirInterrupcion =>
      obtain ⟨inter, hi, rfl⟩ := Option.map_eq_some_iff.1 h
      exact .recibirInterrupcion hi
  | recibirPcb =>
      simp only [avanzar] at h
      split at h
      · rename_i hf
        obtain ⟨p, hp, rfl⟩ := Option.map_eq_some_iff.1 h
        exact .recibirPcb hf hp
      · cases h
  | ejecutar i pc registros =>
      simp only [avanzar] at h
      split at h
      · rename_i hf
        cases h
        exact .ejecutar hf
      · cases h
  | interrupcion =>
      simp only [avanzar] at h
      split at h
      · rename_i hf
        cases h
        exact .interrupcion hf
      · cases h

/-- The state after a step that meets a condition, for runs that are computed. -/
def intentar (C : Estado → Suceso → Prop) [∀ s a, Decidable (C s a)] (s : Estado) (a : Suceso) :
    Option Estado :=
  if C s a then avanzar s a else none

theorem paso_of_intentar {C : Estado → Suceso → Prop} [∀ s a, Decidable (C s a)] {s s' : Estado}
    {a : Suceso} (h : intentar C s a = some s') : C s a ∧ sistema.paso s a s' := by
  unfold intentar at h
  split at h
  · rename_i hC
    exact ⟨hC, h⟩
  · cases h

/-- The state in which a list of steps ends. -/
def correr (C : Estado → Suceso → Prop) [∀ s a, Decidable (C s a)] (config : Kernel.Config)
    (as : List Suceso)
    (h : (Transicion.ejecutar (intentar C) { kernel := Kernel.iniciar config } as).isSome = true) :
    Estado :=
  Transicion.estadoTras (intentar C) { kernel := Kernel.iniciar config } as h

theorem alcanzable_correr {C : Estado → Suceso → Prop} [∀ s a, Decidable (C s a)]
    {config : Kernel.Config} {as : List Suceso}
    (h : (Transicion.ejecutar (intentar C) { kernel := Kernel.iniciar config } as).isSome = true) :
    Transicion.AlcanzableCon sistema C (correr C config as h) :=
  Transicion.alcanzableCon_estadoTras (fun _ _ _ => paso_of_intentar) ⟨config, rfl⟩ h

/-! ### Where the running process is -/

/-- `p` is `q` with other registers. -/
def Devuelve (q p : Pcb) : Prop := { q with pc := p.pc, registros := p.registros } = p

theorem Devuelve.refl (p : Pcb) : Devuelve p p := rfl

theorem Devuelve.pid {q p : Pcb} (h : Devuelve q p) : q.pid = p.pid := by rw [← h]

theorem Devuelve.escribirPcb {q p : Pcb} (h : Devuelve q p) (pc : ℕ) (registros : Cpu.Registros) :
    Devuelve q (Cpu.Ciclo.escribirPcb p pc registros) := by
  rw [← h]
  rfl

/-- The running process is nowhere; or in the dispatch socket; or at the CPU; or on its way back. -/
inductive Sitio (s : Estado) : Prop
  | nadie (henCpu : s.kernel.enCpu = none) (hr : s.porRecibir = []) (hc : s.contextos = [])
      (hl : s.cpu.Libre)
  | enViaje {q : Pcb} (henCpu : s.kernel.enCpu = some q) (hr : s.porRecibir = [q])
      (hc : s.contextos = []) (hl : s.cpu.Libre)
  | cargado {q : Pcb} (henCpu : s.kernel.enCpu = some q) (hr : s.porRecibir = [])
      (hc : s.contextos = []) (hf : s.cpu.fase = .ejecuta ∨ s.cpu.fase = .interrupcion)
      (hp : Devuelve q s.cpu.procesoEjecutando)
  | devuelto {q p : Pcb} {m : MensajeCpu} (henCpu : s.kernel.enCpu = some q)
      (hr : s.porRecibir = []) (hc : s.contextos = [(p, m)]) (hl : s.cpu.Libre)
      (hp : Devuelve q p) (hm : waitOSignal m → s.cpu.fase = .esperaRespuesta)

/-- There is one such place, and the interruptions that the CPU has, and the motive of one, come
from the kernel. -/
structure Coherente (s : Estado) : Prop where
  leidosDispatch : s.leidosDispatch ≤ s.kernel.dispatch.length
  leidosInterrupt : s.leidosInterrupt ≤ s.kernel.interrupt.length
  sitio : Sitio s
  avisos : ∀ i ∈ s.cpu.interrupciones, i ∈ s.kernel.interrupt
  motivo : ∀ x ∈ s.contextos, x.2 = .interrupcion → ⟨x.1.pid, .interrupcion⟩ ∈ s.kernel.interrupt

variable {s s' : Estado} {a : Suceso} {p q : Pcb} {m : MensajeCpu}

theorem coherente_iniciar (config : Kernel.Config) :
    Coherente { kernel := Kernel.iniciar config } :=
  ⟨le_rfl, le_rfl, .nadie rfl rfl rfl (.inl rfl), by simp, by simp⟩

/-- A message on its way is one that the kernel expects. -/
theorem Coherente.admite (hS : Coherente s) {cola : List (Pcb × MensajeCpu)} (ahora : ℤ)
    (hc : s.contextos = (p, m) :: cola) : admite s.kernel (.cpu p m ahora) ∧ cola = [] := by
  cases hS.sitio with
  | nadie _ _ h => simp [h] at hc
  | enViaje _ _ h => simp [h] at hc
  | cargado _ _ h => simp [h] at hc
  | @devuelto q p' m' henCpu hr h hl hp hm =>
      rw [h] at hc
      cases hc
      refine ⟨⟨by rw [henCpu, Option.map_some, hp], fun hi => ?_⟩, rfl⟩
      exact hS.motivo (p, m) (by simp [h]) hi

/-- The CPU reads the first PCB of the dispatch socket. -/
theorem porRecibir_cons (hp : s.kernel.dispatch[s.leidosDispatch]? = some p) :
    s.porRecibir = p :: s.kernel.dispatch.drop (s.leidosDispatch + 1) := by
  obtain ⟨hlt, hp⟩ := List.getElem?_eq_some_iff.1 hp
  rw [Estado.porRecibir, List.drop_eq_getElem_cons hlt, hp]

theorem pendientes_conKernel (hS : Coherente s) {k : Nucleo} {nuevas : List Interrupcion}
    (hint : k.interrupt = s.kernel.interrupt ++ nuevas) (cs : List (Pcb × MensajeCpu)) :
    { s with kernel := k, contextos := cs }.pendientes = s.pendientes ++ nuevas := by
  simp only [Estado.pendientes, hint, List.append_assoc]
  rw [List.drop_append_of_le_length hS.leidosInterrupt]

/-- An interruption goes from the socket to the list. -/
theorem pendientes_recibirInterrupcion {inter : Interrupcion}
    (hi : s.kernel.interrupt[s.leidosInterrupt]? = some inter) :
    { s with
      cpu := s.cpu.recibirInterrupcion inter
      leidosInterrupt := s.leidosInterrupt + 1 }.pendientes = s.pendientes := by
  obtain ⟨hlt, rfl⟩ := List.getElem?_eq_some_iff.1 hi
  simp [Estado.pendientes, Cpu.Ciclo.recibirInterrupcion]

/-- The kernel sends a PCB to the CPU, that had read all of them. -/
theorem Coherente.porRecibir_enviar (hS : Coherente s) {k : Nucleo} (hr : s.porRecibir = [])
    (hk : k.dispatch = s.kernel.dispatch ++ [q]) : k.dispatch.drop s.leidosDispatch = [q] := by
  rw [hk, List.drop_append_of_le_length hS.leidosDispatch,
    show s.kernel.dispatch.drop _ = [] from hr, List.nil_append]

/-- The process at the CPU has a pid. -/
theorem Devuelve.pid_ne_zero (hp : Devuelve q p) (hB : Kernel.Base s.kernel.vista)
    (henCpu : s.kernel.enCpu = some q) : p.pid ≠ 0 := by
  have h₁ := hB.enCpu_creado henCpu
  have h₂ := hp.pid
  omega

/-- A CPU that has a process has the one that the kernel sent, and nothing is on its way. -/
theorem Coherente.cargado (hS : Coherente s) (hl : ¬s.cpu.Libre) :
    ∃ q, s.kernel.enCpu = some q ∧ s.porRecibir = [] ∧ s.contextos = [] ∧
      Devuelve q s.cpu.procesoEjecutando := by
  cases hS.sitio with
  | nadie _ _ _ h => exact absurd h hl
  | enViaje _ _ _ h => exact absurd h hl
  | cargado henCpu hr hc _ hp => exact ⟨_, henCpu, hr, hc, hp⟩
  | devuelto _ _ _ h _ _ => exact absurd h hl

/-- The kernel sends nothing to the CPU but to a process that is nowhere else. -/
theorem Coherente.conKernel (hS : Coherente s) {e : Evento} {k : Nucleo}
    (hB : Kernel.Base s.kernel.vista) (he : ¬e.deCpu) (h : Kernel.Efecto s.kernel e k) :
    Coherente { s with kernel := k } := by
  obtain ⟨nuevas, hint, -⟩ := h.interrupt
  have hmem : ∀ i ∈ s.kernel.interrupt, i ∈ k.interrupt := fun i hi => by simp [hint, hi]
  have havisos : ∀ i ∈ s.cpu.interrupciones, i ∈ k.interrupt := fun i hi => hmem i (hS.avisos i hi)
  have hmotivo := fun x hx hm => hmem _ (hS.motivo x hx hm)
  have hle : s.leidosInterrupt ≤ k.interrupt.length := by
    rw [hint, List.length_append]
    exact Nat.le_add_right_of_le hS.leidosInterrupt
  rcases h.dispatch hB he with ⟨hen, hdis⟩ | ⟨hen, q, hq, hdis⟩
  · have hr : k.dispatch.drop s.leidosDispatch = s.porRecibir := by rw [hdis]; rfl
    refine ⟨hdis ▸ hS.leidosDispatch, hle, ?_, havisos, hmotivo⟩
    cases hS.sitio with
    | nadie henCpu h hc hl => exact .nadie (hen.trans henCpu) (hr.trans h) hc hl
    | enViaje henCpu h hc hl => exact .enViaje (hen.trans henCpu) (hr.trans h) hc hl
    | cargado henCpu h hc hf hp => exact .cargado (hen.trans henCpu) (hr.trans h) hc hf hp
    | devuelto henCpu h hc hl hp hm =>
        exact .devuelto (hen.trans henCpu) (hr.trans h) hc hl hp hm
  · refine ⟨?_, hle, ?_, havisos, hmotivo⟩
    · rw [hdis, List.length_append]
      exact Nat.le_add_right_of_le hS.leidosDispatch
    · cases hS.sitio with
      | nadie _ hr hc hl =>
          exact .enViaje hq (hS.porRecibir_enviar hr hdis) hc hl
      | enViaje h => simp [hen] at h
      | cargado h => simp [hen] at h
      | devuelto h => simp [hen] at h

/-- The kernel takes the message of the CPU, and answers it with a PCB or does not. -/
theorem Coherente.conContexto (hS : Coherente s) {k : Nucleo} {ahora : ℤ}
    (hc : s.contextos = [(p, m)]) (h : Kernel.Efecto s.kernel (.cpu p m ahora) k) :
    Coherente { s with kernel := k, contextos := [] } := by
  obtain ⟨nuevas, hint, -⟩ := h.interrupt
  have havisos : ∀ i ∈ s.cpu.interrupciones, i ∈ k.interrupt := by
    intro i hi
    simp [hint, hS.avisos i hi]
  have hle : s.leidosInterrupt ≤ k.interrupt.length := by
    rw [hint, List.length_append]
    exact Nat.le_add_right_of_le hS.leidosInterrupt
  obtain ⟨hr, hl⟩ : s.porRecibir = [] ∧ s.cpu.Libre := by
    cases hS.sitio with
    | nadie _ hr _ hl => exact ⟨hr, hl⟩
    | enViaje _ _ h => simp [h] at hc
    | cargado _ _ h => simp [h] at hc
    | devuelto _ hr _ hl _ _ => exact ⟨hr, hl⟩
  rcases h.dispatch_cpu with ⟨hen, hdis⟩ | ⟨q, hq, hdis⟩
  · refine ⟨hdis ▸ hS.leidosDispatch, hle, .nadie hen ?_ rfl hl, havisos, by simp⟩
    exact (congrArg (List.drop s.leidosDispatch) hdis).trans hr
  · refine ⟨?_, hle, ?_, havisos, by simp⟩
    · rw [hdis, List.length_append]
      exact Nat.le_add_right_of_le hS.leidosDispatch
    · exact .enViaje hq (hS.porRecibir_enviar hr hdis) rfl hl

/-- The CPU takes an interruption from its socket. -/
theorem Coherente.recibirInterrupcion (hS : Coherente s) {inter : Interrupcion}
    (hi : s.kernel.interrupt[s.leidosInterrupt]? = some inter) :
    Coherente
      { s with
        cpu := s.cpu.recibirInterrupcion inter
        leidosInterrupt := s.leidosInterrupt + 1 } := by
  obtain ⟨hlt, rfl⟩ := List.getElem?_eq_some_iff.1 hi
  refine ⟨hS.leidosDispatch, hlt, ?_, fun i hi => ?_, hS.motivo⟩
  · cases hS.sitio with
    | nadie henCpu hr hc hl => exact .nadie henCpu hr hc hl
    | enViaje henCpu hr hc hl => exact .enViaje henCpu hr hc hl
    | cargado henCpu hr hc hf hp => exact .cargado henCpu hr hc hf hp
    | devuelto henCpu hr hc hl hp hm => exact .devuelto henCpu hr hc hl hp hm
  · rcases List.mem_append.1 hi with hi | hi
    · exact hS.avisos i hi
    · rw [List.mem_singleton.1 hi]
      exact List.getElem_mem hlt

/-- The CPU reads the PCB that was on its way. -/
theorem Coherente.recibirPcb (hS : Coherente s)
    (hp : s.kernel.dispatch[s.leidosDispatch]? = some p) :
    Coherente { s with
      cpu := s.cpu.recibirPcbNuevo p, leidosDispatch := s.leidosDispatch + 1 } := by
  have hcons := porRecibir_cons hp
  obtain ⟨hlt, -⟩ := List.getElem?_eq_some_iff.1 hp
  refine ⟨hlt, hS.leidosInterrupt, ?_, hS.avisos, hS.motivo⟩
  cases hS.sitio with
  | nadie _ hr => simp [hr] at hcons
  | cargado _ hr => simp [hr] at hcons
  | devuelto _ hr => simp [hr] at hcons
  | @enViaje q henCpu hr hc hl =>
      rw [hr] at hcons
      simp only [List.cons.injEq] at hcons
      obtain ⟨rfl, hnil⟩ := hcons
      refine .cargado henCpu hnil.symm hc ?_ (.refl q)
      simp only [Cpu.Ciclo.recibirPcbNuevo]
      split <;> simp

/-- The CPU executes an instruction, and keeps its process or gives it back. -/
theorem Coherente.ejecutar (hS : Coherente s) (hf : s.cpu.fase = .ejecuta) (i : Instruccion)
    (pc : ℕ) (registros : Cpu.Registros) :
    Coherente (s.conCpu (s.cpu.ejecutar i pc registros)) := by
  obtain ⟨q, henCpu, hr, hc, hp⟩ := hS.cargado (Cpu.Ciclo.not_libre_of_ejecuta hf)
  obtain ⟨hint, hcasos⟩ := s.cpu.ejecutar_casos i pc registros
  have hp' := hp.escribirPcb pc registros
  rcases hcasos with ⟨-, hnada, hfase, hproc⟩ | ⟨m, hm, hmsg, hl, hw⟩
  · refine ⟨hS.leidosDispatch, hS.leidosInterrupt, ?_, ?_, by simp [hc, hnada]⟩
    · exact .cargado henCpu hr (by simp [hc, hnada]) (.inr hfase) (hproc ▸ hp')
    · simpa [hint] using hS.avisos
  · refine ⟨hS.leidosDispatch, hS.leidosInterrupt, ?_, ?_, ?_⟩
    · exact .devuelto (m := m) henCpu hr (by rw [Estado.conCpu_contextos, hc, hmsg]; rfl) hl hp' hw
    · simpa [hint] using hS.avisos
    · rw [Estado.conCpu_contextos, hc, hmsg, List.nil_append]
      rintro x hx hmot
      rw [List.mem_singleton.1 hx] at hmot
      exact absurd (hmot ▸ hm) (Cpu.Ciclo.mensaje_ne_interrupcion i)

/-- The CPU looks at its first interruption, and gives its process back or goes on. -/
theorem Coherente.interrupcion (hS : Coherente s) (hB : Kernel.Base s.kernel.vista)
    (hf : s.cpu.fase = .interrupcion) : Coherente (s.conCpu s.cpu.atenderInterrupcion) := by
  obtain ⟨hint, hcasos⟩ := s.cpu.atenderInterrupcion_casos
  have havisos : ∀ i ∈ s.cpu.atenderInterrupcion.1.interrupciones, i ∈ s.kernel.interrupt :=
    fun i hi => hS.avisos i (List.mem_of_mem_tail (hint ▸ hi))
  rcases hcasos with ⟨inter, resto, hi, hpid, hne, hl, hmsg⟩ | ⟨hproc, hnada, hfase⟩
  · obtain ⟨q, henCpu, hr, hc, hp⟩ := hS.cargado fun h => hne (h.pid hf)
    refine ⟨hS.leidosDispatch, hS.leidosInterrupt, ?_, havisos, ?_⟩
    · refine .devuelto (m := Cpu.mensajeDe inter.motivo) henCpu hr ?_ hl hp fun hw => ?_
      · rw [Estado.conCpu_contextos, hc, hmsg]
        rfl
      · cases hmot : inter.motivo <;> simp [hmot, Cpu.mensajeDe, waitOSignal] at hw
    · rw [Estado.conCpu_contextos, hc, hmsg, List.nil_append]
      rintro x hx hmot
      rw [List.mem_singleton.1 hx] at hmot ⊢
      have hint : inter = ⟨s.cpu.procesoEjecutando.pid, .interrupcion⟩ := by
        rw [hpid]
        cases inter with
        | mk pid motivo => cases motivo <;> simp [Cpu.mensajeDe] at hmot ⊢
      exact hint ▸ hS.avisos inter (by simp [hi])
  · have hc {cs} (hc : s.contextos = cs) :
        (s.conCpu s.cpu.atenderInterrupcion).contextos = cs := by simp [hc, hnada]
    have hlibre (hl : s.cpu.Libre) : s.cpu.atenderInterrupcion.1.Libre :=
      .inl (by simpa [hl.pid hf] using hfase)
    refine ⟨hS.leidosDispatch, hS.leidosInterrupt, ?_, havisos, ?_⟩
    · cases hS.sitio with
      | nadie henCpu hr h hl => exact .nadie henCpu hr (hc h) (hlibre hl)
      | enViaje henCpu hr h hl => exact .enViaje henCpu hr (hc h) (hlibre hl)
      | cargado henCpu hr h _ hp =>
          refine .cargado henCpu hr (hc h) (.inl ?_) (hproc ▸ hp)
          rwa [if_neg (hp.pid_ne_zero hB henCpu)] at hfase
      | devuelto henCpu hr h hl hp hm =>
          refine .devuelto henCpu hr (hc h) (hlibre hl) hp fun hw => ?_
          rw [hm hw] at hf
          cases hf
    · simpa [hnada] using hS.motivo

/-- A step keeps the process that runs in one place. -/
theorem Paso.coherente (hS : Coherente s) (hk : Transicion.Alcanzable Kernel.sistema s.kernel)
    (h : Paso s a s') : Coherente s' := by
  obtain ⟨hB, hO⟩ := Kernel.ordenada_alcanzable hk
  cases h with
  | kernel he ha hm => exact hS.conKernel hB he (Kernel.manejar_efecto hB hO.encolados ha hm)
  | @contexto ahora p m cola k hc hm =>
      obtain ⟨ha, rfl⟩ := hS.admite ahora hc
      exact hS.conContexto hc (Kernel.manejar_efecto hB hO.encolados ha hm)
  | recibirInterrupcion hi => exact hS.recibirInterrupcion hi
  | recibirPcb hf hp => exact hS.recibirPcb hp
  | ejecutar hf => exact hS.ejecutar hf _ _ _
  | interrupcion hf => exact hS.interrupcion hB hf

/-- The kernel of the system is the kernel on its own: the CPU does what is expected of it. -/
theorem Paso.alcanzable (hS : Coherente s) (hk : Transicion.Alcanzable Kernel.sistema s.kernel)
    (h : Paso s a s') : Transicion.Alcanzable Kernel.sistema s'.kernel := by
  cases h with
  | kernel he ha hm => exact .paso hk trivial ⟨ha, hm⟩
  | @contexto ahora p m cola k hc hm => exact .paso hk trivial ⟨(hS.admite ahora hc).1, hm⟩
  | _ => exact hk

/-- The invariant rule for the system: next to an invariant, every state is coherent and its kernel
is one of those of `Kernel.sistema`. -/
theorem invariante {C : Estado → Suceso → Prop} {I : Estado → Prop}
    (h₀ : ∀ config, I { kernel := Kernel.iniciar config })
    (hp : ∀ s a s', Coherente s → Transicion.Alcanzable Kernel.sistema s.kernel → I s → C s a →
      Paso s a s' → I s')
    (h : Transicion.AlcanzableCon sistema C s) :
    Coherente s ∧ Transicion.Alcanzable Kernel.sistema s.kernel ∧ I s := by
  refine h.invariante
    (I := fun s => Coherente s ∧ Transicion.Alcanzable Kernel.sistema s.kernel ∧ I s) ?_ ?_
  · rintro _ ⟨config, rfl⟩
    exact ⟨coherente_iniciar config, .inicio ⟨config, rfl⟩, h₀ config⟩
  · rintro s a s' ⟨hS, hk, hI⟩ hC h
    have hpaso := paso_of_avanzar h
    exact ⟨hpaso.coherente hS hk, hpaso.alcanzable hS hk, hp s a s' hS hk hI hC hpaso⟩

/-- **The refinement.**  With the CPU of the source, the kernel reaches no state that it does not
reach with a CPU that may give its process back at any time. -/
theorem alcanzable_kernel (h : Transicion.Alcanzable sistema s) :
    Transicion.Alcanzable Kernel.sistema s.kernel :=
  (invariante (I := fun _ => True) (fun _ => trivial) (fun _ _ _ _ _ _ _ _ => trivial) h).2.1

end KernelCpu
