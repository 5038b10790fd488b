/-
**The context switches are transparent.**

Here the CPU executes the programs of the processes.  The context of a process lives in the global
registers of the CPU, in the PCB that the CPU has, and in the PCBs of the kernel, and it is copied
between them whenever the process gives up the CPU, for whatever reason, and whenever it gets it
back.  Beside the state stands what each process has gone through: its context after each of its
instructions, as the CPU left it.  However the processes take turns, each goes through the
beginning of what it goes through alone, and wherever its context is kept, it is the last one.

The sockets carry PCBs: that their bytes give the same PCB back is proved of the serializers.
`asignar_pcb_deserializado` makes a copy of each part of a PCB, which is the PCB again.

Main definitions:

* `Transparencia.Instruccion`, `Transparencia.siguiente` — the instructions, and a process that
  runs alone, to which every WAIT is granted at once;
* `Transparencia.Estado`, `Transparencia.avanzar`, `Transparencia.sistema` — the kernel and the CPU
  with the programs;
* `Transparencia.AlDia`, `Transparencia.Vigente` — a PCB with the last context of its process, and
  all of them are.

Main results:

* `Transparencia.Paso.vigente`, `Transparencia.Paso.intercalado` — what a step keeps, and the step
  of the machines that take turns that it is;
* `Transparencia.cambios_transparentes` — the processes run as if each were alone.
-/

import TpSisop.CpuInstrucciones
import TpSisop.Intercalado
import TpSisop.KernelContextos
import TpSisop.KernelCpu

set_option relaxedAutoImplicit false
set_option autoImplicit false

namespace KernelCpu

/-- The steps that execute an instruction. -/
def Suceso.ejecuta : Suceso → Prop
  | .ejecutar _ _ _ => True
  | _ => False

instance : DecidablePred Suceso.ejecuta
  | .ejecutar _ _ _ => .isTrue trivial
  | .kernel _ | .contexto _ | .recibirInterrupcion | .recibirPcb | .interrupcion => .isFalse id

end KernelCpu

namespace Transparencia

open Kernel (Nucleo Pcb Contexto MensajeCpu)
open Cpu (Registros incrementarPc)

/-! ### The programs -/

/-- The instructions: SET, SUM, SUB and JNZ; WAIT, SIGNAL, IO_GEN_SLEEP and EXIT.  The units of work
of a sleep are not kept. -/
inductive Instruccion
  | registros (i : Maquina.Instr Cpu.Registro)
  | wait (recurso : String)
  | signal (recurso : String)
  | ioGenSleep (interfaz : String)
  | exit
  deriving DecidableEq, Repr

namespace Instruccion

/-- What it says to the kernel. -/
def peticion : Instruccion → Cpu.Instruccion
  | .registros _ => .interna
  | .wait recurso => .wait recurso
  | .signal recurso => .signal recurso
  | .ioGenSleep interfaz => .io interfaz .genSleep
  | .exit => .exit

/-- `execute`: what it leaves in the registers before `escribir_pcb`, which EXIT does not reach. -/
def execute (r : Registros) : Instruccion → Option Registros
  | .registros i => some (Cpu.execute r i)
  | .wait _ => some (incrementarPc r)
  | .signal _ => some (incrementarPc r)
  | .ioGenSleep _ => some (incrementarPc r)
  | .exit => none

end Instruccion

/-- What `escribir_pcb` makes of the registers. -/
def contextoDe (r : Registros) : Contexto := ⟨r.pc.toNat, r⟩

/-- One instruction of a process that runs alone: WAIT goes on as SIGNAL does. -/
def siguiente (programa : List Instruccion) (c : Contexto) : Option Contexto :=
  (programa[c.pc]?).bind fun i => (i.execute c.registros).map contextoDe

/-! ### The system -/

/-- `registros` are the global registers of the CPU; `huellas`, what each process went through. -/
structure Estado where
  base : KernelCpu.Estado
  registros : Registros := {}
  huellas : ℕ → List Contexto := fun _ => [{}]

/-- The CPU executes the instruction that it fetched; or another step. -/
inductive Suceso
  | ejecutar
  | otro (a : KernelCpu.Suceso)
  deriving DecidableEq, Repr

/-- `asignar_registros`. -/
def asignarRegistros (registros news : Registros) : Registros :=
  { registros with
    ax := news.ax
    bx := news.bx
    cx := news.cx
    dx := news.dx
    eax := news.eax
    ebx := news.ebx
    ecx := news.ecx
    edx := news.edx
    si := news.si
    di := news.di
    pc := news.pc }

theorem asignarRegistros_eq (registros news : Registros) : asignarRegistros registros news = news :=
  rfl

/-- `fetch` asks for the instruction under the program counter of the PCB, and `execute` works on
the global registers.  `recibir_pcb_nuevo` is what fills these. -/
def avanzar (programas : ℕ → List Instruccion) (s : Estado) : Suceso → Option Estado
  | .ejecutar =>
      let p := s.base.cpu.procesoEjecutando
      match (programas p.pid)[p.pc]? with
      | none => none
      | some i =>
          match i.execute s.registros with
          | none =>
              (KernelCpu.avanzar s.base (.ejecutar i.peticion p.pc p.registros)).map fun base =>
                { s with base := base }
          | some r =>
              (KernelCpu.avanzar s.base (.ejecutar i.peticion r.pc.toNat r)).map fun base =>
                { base := base
                  registros := r
                  huellas := Familia.agregar s.huellas p.pid (contextoDe r) }
  | .otro a =>
      if a.ejecuta then none
      else
        (KernelCpu.avanzar s.base a).map fun base =>
          { s with
            base := base
            registros :=
              if a = .recibirPcb then
                asignarRegistros s.registros base.cpu.procesoEjecutando.registros
              else s.registros }

def sistema (programas : ℕ → List Instruccion) : Transicion.Sistema Estado Suceso where
  inicial s := ∃ config, s = { base := { kernel := Kernel.iniciar config } }
  paso s a s' := avanzar programas s a = some s'

/-- The steps that are taken, one by one. -/
inductive Paso (programas : ℕ → List Instruccion) (s : Estado) : Suceso → Estado → Prop
  | ejecutar {i : Instruccion} {r : Registros} {base : KernelCpu.Estado}
      (hi : (programas s.base.cpu.procesoEjecutando.pid)[s.base.cpu.procesoEjecutando.pc]? = some i)
      (hr : i.execute s.registros = some r)
      (hb : KernelCpu.avanzar s.base (.ejecutar i.peticion r.pc.toNat r) = some base) :
      Paso programas s .ejecutar
        { base := base
          registros := r
          huellas := Familia.agregar s.huellas s.base.cpu.procesoEjecutando.pid (contextoDe r) }
  | exit {i : Instruccion} {base : KernelCpu.Estado} (hr : i.execute s.registros = none)
      (hb : KernelCpu.avanzar s.base (.ejecutar i.peticion s.base.cpu.procesoEjecutando.pc
        s.base.cpu.procesoEjecutando.registros) = some base) :
      Paso programas s .ejecutar { s with base := base }
  | recibirPcb {base : KernelCpu.Estado} (hb : KernelCpu.avanzar s.base .recibirPcb = some base) :
      Paso programas s (.otro .recibirPcb)
        { s with base := base, registros := base.cpu.procesoEjecutando.registros }
  | otro {a : KernelCpu.Suceso} {base : KernelCpu.Estado} (ha : ¬a.ejecuta) (hp : a ≠ .recibirPcb)
      (hb : KernelCpu.avanzar s.base a = some base) :
      Paso programas s (.otro a) { s with base := base }

variable {programas : ℕ → List Instruccion} {s s' : Estado} {a : Suceso} {p q : Pcb}

theorem paso_of_avanzar (h : avanzar programas s a = some s') : Paso programas s a s' := by
  cases a with
  | ejecutar =>
      simp only [avanzar] at h
      split at h
      · cases h
      · rename_i i hi
        split at h
        · rename_i hr
          obtain ⟨base, hb, rfl⟩ := Option.map_eq_some_iff.1 h
          exact .exit hr hb
        · rename_i r hr
          obtain ⟨base, hb, rfl⟩ := Option.map_eq_some_iff.1 h
          exact .ejecutar hi hr hb
  | otro a =>
      simp only [avanzar] at h
      split at h
      · cases h
      · rename_i ha
        obtain ⟨base, hb, rfl⟩ := Option.map_eq_some_iff.1 h
        by_cases hp : a = .recibirPcb
        · subst hp
          rw [if_pos rfl, asignarRegistros_eq]
          exact .recibirPcb hb
        · rw [if_neg hp]
          exact .otro ha hp hb

/-- A step of the system is one of the kernel and the CPU. -/
theorem Paso.base (h : Paso programas s a s') :
    ∃ a', KernelCpu.avanzar s.base a' = some s'.base := by
  cases h with
  | ejecutar hi hr hb => exact ⟨_, hb⟩
  | exit hr hb => exact ⟨_, hb⟩
  | recibirPcb hb => exact ⟨_, hb⟩
  | otro ha hp hb => exact ⟨_, hb⟩

/-! ### The last context of a process -/

/-- A PCB with the last context of its process. -/
def AlDia (s : Estado) (p : Pcb) : Prop := (s.huellas p.pid).getLast? = some p.contexto

/-- The last context of a process is in its PCB outside of RUNNING, or in its PCB on the way to the
CPU or back, or at the CPU, which has it twice. -/
structure Vigente (s : Estado) : Prop where
  guardados : ∀ p, s.base.kernel.vista.guardado p → AlDia s p
  porRecibir : ∀ p ∈ s.base.porRecibir, AlDia s p
  contextos : ∀ x ∈ s.base.contextos, AlDia s x.1
  cargado : ¬s.base.cpu.Libre → AlDia s s.base.cpu.procesoEjecutando ∧
    s.registros = s.base.cpu.procesoEjecutando.registros
  nuevos : ∀ pid, s.base.kernel.ultimoPid ≤ pid → s.huellas pid = [{}]

theorem AlDia.copia (h : AlDia s p) (hq : q.Copia p) : AlDia s q := by
  unfold AlDia
  rw [hq.pid, hq.contexto]
  exact h

theorem vigente_iniciar (config : Kernel.Config) :
    Vigente { base := { kernel := Kernel.iniciar config } } := by
  refine ⟨?_, ?_, ?_, ?_, fun _ _ => rfl⟩
  · rintro p ⟨l, -, hp⟩
    cases hp
  · intro p hp
    cases hp
  · intro x hx
    cases hx
  · intro hl
    exact absurd (.inl rfl) hl

/-! ### What a step keeps -/

section

variable {e : Kernel.Evento} {k : Nucleo}

/-- Wherever the kernel takes a PCB from, it has the last context of its process. -/
theorem Vigente.procede (hV : Vigente s) (hdev : ∀ p m ahora, e = .cpu p m ahora → AlDia s p)
    (h : Kernel.Procede s.base.kernel.vista e q) : AlDia s q := by
  cases h with
  | guardado hp hq => exact (hV.guardados _ hp).copia hq
  | devuelto he hq => exact (hdev _ _ _ he).copia hq
  | nuevo he hq =>
      subst hq
      exact congrArg List.getLast? (hV.nuevos _ le_rfl)

/-- So does the PCB that it sends to the CPU. -/
theorem Vigente.enviado (hV : Vigente s) (hdev : ∀ p m ahora, e = .cpu p m ahora → AlDia s p)
    (hB : Kernel.Base s.base.kernel.vista) (hB' : Kernel.Base k.vista)
    (hm : Kernel.Movimiento s.base.kernel.vista e k.vista) (hq : k.enCpu = some q)
    (hnadie : s.base.kernel.enCpu = none ∨ e.deCpu) : AlDia s q := by
  have hrun : q ∈ k.vista.listas .running := by
    rw [hB'.enCpu]
    exact Option.mem_toList.2 hq
  rcases hm.procede_running hrun with ⟨he, hq⟩ | hq
  · rw [hB.enCpu] at hq
    rcases hnadie with hnadie | hcpu
    · rw [show s.base.kernel.vista.enCpu = none from hnadie] at hq
      cases hq
    · exact absurd hcpu he
  · exact hV.procede hdev hq

theorem ultimoPid_le (hB : Kernel.Base s.base.kernel.vista)
    (hm : Kernel.Movimiento s.base.kernel.vista e k.vista) :
    s.base.kernel.ultimoPid ≤ k.ultimoPid := by
  rcases hm.conservada hB.unica with h | ⟨-, h⟩
  · exact h.ultimoPid.ge
  · have := congrArg Kernel.Vista.ultimoPid h
    exact (Nat.le_succ _).trans this.ge

end

/-- A PCB that the kernel sends is read after the ones that it had sent. -/
theorem mem_porRecibir {k : Nucleo} (hS : KernelCpu.Coherente s.base)
    (hk : k.dispatch = s.base.kernel.dispatch ++ [q])
    (hp : p ∈ k.dispatch.drop s.base.leidosDispatch) :
    p ∈ s.base.porRecibir ∨ p = q := by
  rw [hk, List.drop_append_of_le_length hS.leidosDispatch, List.mem_append,
    List.mem_singleton] at hp
  exact hp

/-- The kernel takes a step that is not a message of the CPU. -/
theorem Vigente.kernel {e : Kernel.Evento} {k : Nucleo} (hV : Vigente s)
    (hB : Kernel.Base s.base.kernel.vista) (hB' : Kernel.Base k.vista) (he : ¬e.deCpu)
    (hS : KernelCpu.Coherente s.base) (hm : Kernel.Movimiento s.base.kernel.vista e k.vista)
    (hf : Kernel.Efecto s.base.kernel e k) :
    Vigente { s with base := { s.base with kernel := k } } := by
  have hdev : ∀ p m ahora, e = .cpu p m ahora → AlDia s p := by
    rintro p m ahora rfl
    exact absurd trivial he
  refine ⟨fun p hp => hV.procede hdev (hm.procede hp), ?_, hV.contextos, hV.cargado, ?_⟩
  · intro p hp
    rcases hf.dispatch hB he with ⟨-, hdis⟩ | ⟨hen, q, hq, hdis⟩
    · refine hV.porRecibir p ?_
      rwa [KernelCpu.Estado.porRecibir, ← hdis]
    · rcases mem_porRecibir hS hdis hp with hp | rfl
      · exact hV.porRecibir p hp
      · exact hV.enviado hdev hB hB' hm hq (.inl hen)
  · intro pid hpid
    exact hV.nuevos pid ((ultimoPid_le hB hm).trans hpid)

/-- The kernel takes the message of the CPU, with the last context of the process. -/
theorem Vigente.contexto {p : Pcb} {m : MensajeCpu} {ahora : ℤ} {k : Nucleo} (hV : Vigente s)
    (hB : Kernel.Base s.base.kernel.vista) (hB' : Kernel.Base k.vista)
    (hS : KernelCpu.Coherente s.base) (hc : s.base.contextos = [(p, m)])
    (hm : Kernel.Movimiento s.base.kernel.vista (.cpu p m ahora) k.vista)
    (hf : Kernel.Efecto s.base.kernel (.cpu p m ahora) k) :
    Vigente { s with base := { s.base with kernel := k, contextos := [] } } := by
  have hdev : ∀ p' m' ahora', Kernel.Evento.cpu p m ahora = .cpu p' m' ahora' → AlDia s p' := by
    rintro _ _ _ ⟨⟩
    exact hV.contextos (p, m) (by simp [hc])
  refine ⟨fun q hq => hV.procede hdev (hm.procede hq), ?_, by simp, hV.cargado, ?_⟩
  · intro q hq
    rcases hf.dispatch_cpu with ⟨-, hdis⟩ | ⟨q', hq', hdis⟩
    · refine hV.porRecibir q ?_
      rwa [KernelCpu.Estado.porRecibir, ← hdis]
    · rcases mem_porRecibir hS hdis hq with hq | rfl
      · exact hV.porRecibir q hq
      · exact hV.enviado hdev hB hB' hm hq' (.inr trivial)
  · intro pid hpid
    exact hV.nuevos pid ((ultimoPid_le hB hm).trans hpid)

/-- The CPU reads a PCB, which fills its registers. -/
theorem Vigente.recibirPcb (hV : Vigente s)
    (hp : s.base.kernel.dispatch[s.base.leidosDispatch]? = some p) :
    Vigente
      { s with
        base := { s.base with
          cpu := s.base.cpu.recibirPcbNuevo p
          leidosDispatch := s.base.leidosDispatch + 1 }
        registros := p.registros } := by
  have hcons := KernelCpu.porRecibir_cons hp
  refine ⟨hV.guardados, fun q hq => ?_, hV.contextos, fun _ => ⟨?_, rfl⟩, hV.nuevos⟩
  · exact hV.porRecibir q (hcons ▸ List.mem_cons_of_mem p hq)
  · exact hV.porRecibir p (hcons ▸ List.mem_cons_self)

/-- The CPU answers an interruption with the PCB that it has, or goes on with it. -/
theorem Vigente.interrupcion (hV : Vigente s) (hf : s.base.cpu.fase = .interrupcion) :
    Vigente { s with base := s.base.conCpu s.base.cpu.atenderInterrupcion } := by
  obtain ⟨-, hcasos⟩ := s.base.cpu.atenderInterrupcion_casos
  have hcargado (hpid : s.base.cpu.procesoEjecutando.pid ≠ 0) :=
    hV.cargado fun hl => hpid (hl.pid hf)
  rcases hcasos with ⟨inter, resto, -, -, hpid, hl, hmsg⟩ | ⟨hproc, hnada, hfase⟩
  · refine ⟨hV.guardados, hV.porRecibir, fun x hx => ?_, fun h => absurd hl h, hV.nuevos⟩
    rw [KernelCpu.Estado.conCpu_contextos, hmsg, List.mem_append, List.mem_singleton] at hx
    rcases hx with hx | rfl
    · exact hV.contextos x hx
    · exact (hcargado hpid).1
  · refine ⟨hV.guardados, hV.porRecibir, fun x hx => hV.contextos x ?_, fun h => ?_, hV.nuevos⟩
    · simpa [hnada] using hx
    · have hpid : s.base.cpu.procesoEjecutando.pid ≠ 0 := by
        intro hcero
        rw [if_pos hcero] at hfase
        exact h (.inl hfase)
      have hc := hcargado hpid
      rw [← hproc] at hc
      exact hc

/-- The process at the CPU is in no other list. -/
theorem pid_ne_cargado (hS : KernelCpu.Coherente s.base) (hB : Kernel.Base s.base.kernel.vista)
    (hl : ¬s.base.cpu.Libre) (hp : s.base.kernel.vista.guardado p) :
    p.pid ≠ s.base.cpu.procesoEjecutando.pid := by
  obtain ⟨q, henCpu, -, -, hq⟩ := hS.cargado hl
  obtain ⟨l, hl, hp⟩ := hp
  intro hpid
  have hrun : q ∈ s.base.kernel.vista.listas .running := by
    rw [hB.enCpu]
    exact Option.mem_toList.2 henCpu
  exact hl (Kernel.eq_of_pid (hB.veces_le _) hrun hp (hpid.trans hq.pid.symm)).1

/-- The CPU executes an instruction, after which its registers, its PCB and what the process went
through agree; of the other processes it touches nothing. -/
theorem Vigente.ejecutar {i : Cpu.Instruccion} {pc : ℕ} {r : Registros} (hV : Vigente s)
    (hS : KernelCpu.Coherente s.base) (hB : Kernel.Base s.base.kernel.vista)
    (hf : s.base.cpu.fase = .ejecuta)
    (hbase : s'.base = s.base.conCpu (s.base.cpu.ejecutar i pc r)) (hr : s'.registros = r)
    (hdia : AlDia s' (Cpu.Ciclo.escribirPcb s.base.cpu.procesoEjecutando pc r))
    (hajeno : ∀ pid, pid ≠ s.base.cpu.procesoEjecutando.pid → s'.huellas pid = s.huellas pid) :
    Vigente s' := by
  have hl := Cpu.Ciclo.not_libre_of_ejecuta hf
  obtain ⟨q, henCpu, hrec, hcon, hq⟩ := hS.cargado hl
  obtain ⟨-, hcasos⟩ := s.base.cpu.ejecutar_casos i pc r
  have hnuevos : ∀ pid, s.base.kernel.ultimoPid ≤ pid → s'.huellas pid = [{}] := by
    intro pid hpid
    have hlt : q.pid < s.base.kernel.ultimoPid := (hB.enCpu_creado henCpu).2
    rw [hajeno pid (by rw [← hq.pid]; omega)]
    exact hV.nuevos pid hpid
  have hguardados : ∀ p, s.base.kernel.vista.guardado p → AlDia s' p := by
    intro p hp
    unfold AlDia
    rw [hajeno p.pid (pid_ne_cargado hS hB hl hp)]
    exact hV.guardados p hp
  refine ⟨?_, ?_, ?_, ?_, ?_⟩
  · rwa [hbase]
  · rw [hbase, KernelCpu.Estado.conCpu_porRecibir, hrec]
    simp
  · rw [hbase, KernelCpu.Estado.conCpu_contextos, hcon, List.nil_append]
    rcases hcasos with ⟨-, hnada, -, -⟩ | ⟨m, -, hmsg, -, -⟩
    · simp [hnada]
    · simpa [hmsg] using hdia
  · rw [hbase, KernelCpu.Estado.conCpu_cpu]
    intro hl'
    rcases hcasos with ⟨-, -, -, hproc⟩ | ⟨m, -, -, hl, -⟩
    · rw [hproc]
      exact ⟨hdia, hr⟩
    · exact absurd hl hl'
  · rwa [hbase]

/-- A step keeps the last contexts where they belong. -/
theorem Paso.vigente (hV : Vigente s) (hS : KernelCpu.Coherente s.base)
    (hk : Transicion.Alcanzable Kernel.sistema s.base.kernel) (h : Paso programas s a s') :
    Vigente s' := by
  obtain ⟨hB, hO⟩ := Kernel.ordenada_alcanzable hk
  cases h with
  | ejecutar hi hr hb =>
      cases KernelCpu.paso_of_avanzar hb with
      | ejecutar hf =>
          refine hV.ejecutar hS hB hf rfl rfl ?_ fun pid hpid => Familia.agregar_of_ne hpid
          simp [AlDia, Cpu.Ciclo.escribirPcb, contextoDe, Pcb.contexto]
  | exit hr hb =>
      cases KernelCpu.paso_of_avanzar hb with
      | ejecutar hf =>
          have hc := hV.cargado (Cpu.Ciclo.not_libre_of_ejecuta hf)
          exact hV.ejecutar hS hB hf rfl hc.2 hc.1 fun pid _ => rfl
  | recibirPcb hb =>
      cases KernelCpu.paso_of_avanzar hb with
      | recibirPcb hf hp => exact hV.recibirPcb hp
  | otro ha hp hb =>
      cases KernelCpu.paso_of_avanzar hb with
      | kernel he had hm =>
          have hmov := Kernel.manejar_movimiento hB.unica had hm
          exact hV.kernel hB (hmov.base hB) he hS hmov
            (Kernel.manejar_efecto hB hO.encolados had hm)
      | contexto hc hm =>
          obtain ⟨had, rfl⟩ := hS.admite _ hc
          have hmov := Kernel.manejar_movimiento hB.unica had hm
          exact hV.contexto hB (hmov.base hB) hS hc hmov
            (Kernel.manejar_efecto hB hO.encolados had hm)
      | recibirInterrupcion hi =>
          exact ⟨hV.guardados, hV.porRecibir, hV.contextos, hV.cargado, hV.nuevos⟩
      | recibirPcb hf hr => exact absurd rfl hp
      | ejecutar hf => exact absurd trivial ha
      | interrupcion hf => exact hV.interrupcion hf

/-- The processes, as machines that take turns. -/
abbrev enTurnos (programas : ℕ → List Instruccion) :
    Transicion.Sistema (ℕ → List Contexto) Suceso :=
  Intercalado.sistema Suceso (fun pid => siguiente (programas pid)) fun _ => {}

/-- A step advances the process at the CPU by one instruction, or none. -/
theorem Paso.intercalado (hV : Vigente s) (h : Paso programas s a s') :
    (enTurnos programas).paso s.huellas a s'.huellas := by
  cases h with
  | @ejecutar i r base hi hr hb =>
      cases KernelCpu.paso_of_avanzar hb with
      | ejecutar hf =>
          obtain ⟨hdia, hreg⟩ := hV.cargado (Cpu.Ciclo.not_libre_of_ejecuta hf)
          refine .inr ⟨_, _, _, hdia, ?_, rfl⟩
          rw [hreg] at hr
          simp [siguiente, Pcb.contexto, hi, hr]
  | exit => exact .inl rfl
  | recibirPcb => exact .inl rfl
  | otro => exact .inl rfl

/-! ### Every run -/

/-- The processes run as if each were alone, and what is kept of them is where they are. -/
structure Transparente (programas : ℕ → List Instruccion) (s : Estado) : Prop where
  tramo : ∀ pid, Intercalado.Tramo (siguiente (programas pid)) {} (s.huellas pid)
  vigente : Vigente s

/-- **The context switches are transparent.**  In every run, under every algorithm, whatever the
order of the dispatches, the interruptions, the blocks and the wake-ups, each process goes through
the beginning of what it goes through alone, and its context is, wherever it is kept, the last one
it went through. -/
theorem cambios_transparentes (h : Transicion.Alcanzable (sistema programas) s) :
    Transparente programas s := by
  have hI : Transicion.Alcanzable KernelCpu.sistema s.base ∧ Vigente s ∧
      Transicion.Alcanzable (enTurnos programas) s.huellas := by
    refine h.invariante (I := fun s => Transicion.Alcanzable KernelCpu.sistema s.base ∧
      Vigente s ∧ Transicion.Alcanzable (enTurnos programas) s.huellas) ?_ ?_
    · rintro _ ⟨config, rfl⟩
      exact ⟨.inicio ⟨config, rfl⟩, vigente_iniciar config, .inicio rfl⟩
    · rintro s a s' ⟨hbase, hV, ht⟩ - h
      have hpaso := paso_of_avanzar h
      obtain ⟨a', hb⟩ := hpaso.base
      obtain ⟨hS, hk, -⟩ := KernelCpu.invariante (I := fun _ => True) (fun _ => trivial)
        (fun _ _ _ _ _ _ _ _ => trivial) hbase
      exact ⟨.paso hbase trivial hb, hpaso.vigente hV hS hk,
        .paso ht trivial (hpaso.intercalado hV)⟩
  exact ⟨fun pid => Intercalado.tramo hI.2.2 pid, hI.2.1⟩

/-! ### A run -/

/-- The first process doubles a register after it gets a resource; the second one doubles the same
register. -/
def dosProgramas : ℕ → List Instruccion
  | 1 =>
      [.registros (.set (.de8 .ax) 5), .wait "RA", .registros (.sum (.de8 .ax) (.de8 .ax)), .exit]
  | _ => [.registros (.set (.de8 .ax) 9), .registros (.sum (.de8 .ax) (.de8 .ax)), .exit]

/-- A process is sent to the CPU, under RR. -/
def despacho : List Suceso :=
  List.replicate 4 (.otro (.kernel (.corto 0))) ++ [.otro .recibirPcb]

/-- The quantum of the process at the CPU is over. -/
def finDeQuantum : List Suceso :=
  [.otro (.kernel .reloj), .otro (.kernel .reloj), .otro .recibirInterrupcion]

/-- The first process is interrupted after its WAIT, and the second one after its first
instruction. -/
def enTurnosDeUno : List Suceso :=
  Kernel.dosAdmitidos.map (fun e => .otro (.kernel e)) ++ despacho ++
    [.ejecutar, .otro .interrupcion] ++ finDeQuantum ++
    [.ejecutar, .otro (.contexto 0), .otro .recibirPcb, .otro .interrupcion, .otro (.contexto 0)] ++
    despacho ++ [.ejecutar] ++ finDeQuantum ++ [.otro .interrupcion, .otro (.contexto 0)] ++
    despacho ++ [.ejecutar]

/-- The first process has doubled its own register. -/
def dosEnTurnos : Estado :=
  Transicion.estadoTras (avanzar dosProgramas)
    { base := { kernel := Kernel.iniciar ⟨.rr, 10, 3, [("RA", 1)]⟩ } } enTurnosDeUno
    (by decide +kernel)

theorem cambios_transparentes_dosEnTurnos : Transparente dosProgramas dosEnTurnos ∧
    (dosEnTurnos.huellas 1).map (fun c => c.registros.ax) = [0, 5, 5, 10] ∧
      (dosEnTurnos.huellas 2).map (fun c => c.registros.ax) = [0, 9] := by
  have h : Transicion.Alcanzable (sistema dosProgramas) dosEnTurnos :=
    Transicion.alcanzableCon_estadoTras (S := sistema dosProgramas)
      (fun _ _ _ h => ⟨trivial, h⟩) ⟨_, rfl⟩ _
  exact ⟨cambios_transparentes h, by decide +kernel, by decide +kernel⟩

end Transparencia
