/-
**The instruction cycle of the CPU, as the kernel sees it.**

One thread of the CPU executes the instructions of the process it was given, one by one; what an
instruction does to the registers and to memory is left open here, so that a run may have any
program.  After each instruction it looks at the first of its interruptions, which another thread
of the CPU receives.  WAIT and SIGNAL give the process to the kernel and wait for a PCB, which may
be of another process; the other instructions that give the process up forget its pid.

Main definitions:

* `Cpu.Ciclo` — the process, the interruptions and the place in the cycle;
* `Cpu.Instruccion.mensaje` — what an instruction says to the kernel;
* `Cpu.Ciclo.recibirPcbNuevo`, `Cpu.Ciclo.ejecutar`, `Cpu.Ciclo.atenderInterrupcion`,
  `Cpu.Ciclo.recibirInterrupcion` — the steps of the two threads.

Main results:

* `Cpu.Ciclo.ejecutar_casos`, `Cpu.Ciclo.atenderInterrupcion_casos` — what the CPU sends, and
  whether it keeps its process.
-/

import TpSisop.KernelConexion

set_option relaxedAutoImplicit false
set_option autoImplicit false

namespace Cpu

open Kernel (Pcb MensajeCpu Interrupcion Motivo OperacionIo)

/-- Where the thread that executes is: in `recibir_pcb_nuevo` at the end of a cycle, at an
instruction, in `recibir_pcb_nuevo` after WAIT or SIGNAL, or about to look at `interrupciones`. -/
inductive Fase
  | esperaPcb
  | ejecuta
  | esperaRespuesta
  | interrupcion
  deriving DecidableEq, Repr

/-- `proceso_ejecutando`, which has pid 0 when there is no process, and `interrupciones`. -/
structure Ciclo where
  procesoEjecutando : Pcb := { pid := 0 }
  interrupciones : List Interrupcion := []
  fase : Fase := .esperaPcb
  deriving DecidableEq, Repr

/-- The instructions, by what they say to the kernel: nothing; an I/O request; WAIT; SIGNAL; a
RESIZE for which memory has no frames; EXIT. -/
inductive Instruccion
  | interna
  | io (interfaz : String) (operacion : OperacionIo)
  | wait (recurso : String)
  | signal (recurso : String)
  | resizeSinMarcos
  | exit
  deriving DecidableEq, Repr

def Instruccion.mensaje : Instruccion → Option MensajeCpu
  | .interna => none
  | .io interfaz operacion => some (.io interfaz operacion)
  | .wait recurso => some (.wait recurso)
  | .signal recurso => some (.signal recurso)
  | .resizeSinMarcos => some .outOfMemory
  | .exit => some .terminarProceso

/-- `wait_o_signal`: the CPU waits for the answer to the message. -/
def waitOSignal : MensajeCpu → Prop
  | .wait _ => True
  | .signal _ => True
  | _ => False

instance : DecidablePred waitOSignal
  | .wait _ | .signal _ => .isTrue trivial
  | .io _ _ | .interrupcion | .outOfMemory | .terminarProceso => .isFalse id

/-- The motive of the context that answers an interruption. -/
def mensajeDe : Motivo → MensajeCpu
  | .interrupcion => .interrupcion
  | .terminarProceso => .terminarProceso

namespace Ciclo

/-- `recibir_pcb_nuevo`. -/
def recibirPcbNuevo (c : Ciclo) (p : Pcb) : Ciclo :=
  { c with
    procesoEjecutando := p
    fase := if c.fase = .esperaRespuesta then .interrupcion else .ejecuta }

/-- `escribir_pcb`. -/
def escribirPcb (p : Pcb) (pc : ℕ) (registros : Registros) : Pcb :=
  { p with pc := pc, registros := registros }

/-- `execute` and `decode`: one instruction, after which the registers are `registros`. -/
def ejecutar (c : Ciclo) (i : Instruccion) (pc : ℕ) (registros : Registros) :
    Ciclo × List (Pcb × MensajeCpu) :=
  let p := escribirPcb c.procesoEjecutando pc registros
  match i.mensaje with
  | none => ({ c with procesoEjecutando := p, fase := .interrupcion }, [])
  | some m =>
      if waitOSignal m then ({ c with procesoEjecutando := p, fase := .esperaRespuesta }, [(p, m)])
      else ({ c with procesoEjecutando := { p with pid := 0 }, fase := .interrupcion }, [(p, m)])

/-- The end of a cycle: it waits for a PCB if it has no process. -/
def seguir (c : Ciclo) : Ciclo :=
  { c with fase := if c.procesoEjecutando.pid = 0 then .esperaPcb else .ejecuta }

/-- The end of `decode`: at most one interruption is taken, and one that is not about the process
is dropped. -/
def atenderInterrupcion (c : Ciclo) : Ciclo × List (Pcb × MensajeCpu) :=
  match c.interrupciones with
  | [] => (c.seguir, [])
  | inter :: resto =>
      let c := { c with interrupciones := resto }
      let p := c.procesoEjecutando
      if p.pid = inter.pid ∧ p.pid ≠ 0 then
        ({ c with procesoEjecutando := { p with pid := 0 } }.seguir, [(p, mensajeDe inter.motivo)])
      else (c.seguir, [])

/-- `abrirSocketKernelInterrupt`. -/
def recibirInterrupcion (c : Ciclo) (inter : Interrupcion) : Ciclo :=
  { c with interrupciones := c.interrupciones ++ [inter] }

/-! ### What the CPU sends, and what it keeps -/

/-- It has no process, or has given it to the kernel. -/
def Libre (c : Ciclo) : Prop :=
  c.fase = .esperaPcb ∨ c.fase = .esperaRespuesta ∨
    c.fase = .interrupcion ∧ c.procesoEjecutando.pid = 0

theorem not_libre_of_ejecuta {c : Ciclo} (hf : c.fase = .ejecuta) : ¬c.Libre := by
  simp [Libre, hf]

theorem Libre.pid {c : Ciclo} (h : c.Libre) (hf : c.fase = .interrupcion) :
    c.procesoEjecutando.pid = 0 := by
  simpa [Libre, hf] using h

theorem seguir_libre {c : Ciclo} (h : c.procesoEjecutando.pid = 0) : c.seguir.Libre := by
  simp [Libre, seguir, h]

/-- An instruction leaves the process where it is, or gives it up. -/
theorem ejecutar_casos (c : Ciclo) (i : Instruccion) (pc : ℕ) (registros : Registros) :
    (c.ejecutar i pc registros).1.interrupciones = c.interrupciones ∧
    ((i.mensaje = none ∧ (c.ejecutar i pc registros).2 = [] ∧
        (c.ejecutar i pc registros).1.fase = .interrupcion ∧
        (c.ejecutar i pc registros).1.procesoEjecutando
          = escribirPcb c.procesoEjecutando pc registros) ∨
      ∃ m, i.mensaje = some m ∧
        (c.ejecutar i pc registros).2 = [(escribirPcb c.procesoEjecutando pc registros, m)] ∧
        (c.ejecutar i pc registros).1.Libre ∧
        (waitOSignal m → (c.ejecutar i pc registros).1.fase = .esperaRespuesta)) := by
  unfold ejecutar
  cases hm : i.mensaje with
  | none => exact ⟨rfl, .inl ⟨rfl, rfl, rfl, rfl⟩⟩
  | some m =>
      simp only
      split
      · exact ⟨rfl, .inr ⟨m, rfl, rfl, .inr (.inl rfl), fun _ => rfl⟩⟩
      · rename_i hw
        exact ⟨rfl, .inr ⟨m, rfl, rfl, .inr (.inr ⟨rfl, rfl⟩), fun h => absurd h hw⟩⟩

/-- No instruction sends the motive of an interruption. -/
theorem mensaje_ne_interrupcion (i : Instruccion) : i.mensaje ≠ some .interrupcion := by
  cases i <;> simp [Instruccion.mensaje]

/-- The first interruption is about the process, which is given up, or nothing is sent. -/
theorem atenderInterrupcion_casos (c : Ciclo) :
    c.atenderInterrupcion.1.interrupciones = c.interrupciones.tail ∧
    ((∃ inter resto, c.interrupciones = inter :: resto ∧ c.procesoEjecutando.pid = inter.pid ∧
        c.procesoEjecutando.pid ≠ 0 ∧ c.atenderInterrupcion.1.Libre ∧
        c.atenderInterrupcion.2 = [(c.procesoEjecutando, mensajeDe inter.motivo)]) ∨
      c.atenderInterrupcion.1.procesoEjecutando = c.procesoEjecutando ∧
        c.atenderInterrupcion.2 = [] ∧
        c.atenderInterrupcion.1.fase
          = if c.procesoEjecutando.pid = 0 then .esperaPcb else .ejecuta) := by
  unfold atenderInterrupcion
  cases hi : c.interrupciones with
  | nil => exact ⟨hi, .inr ⟨rfl, rfl, rfl⟩⟩
  | cons inter resto =>
      simp only
      split
      · rename_i hp
        exact ⟨rfl, .inl ⟨inter, resto, rfl, hp.1, hp.2, seguir_libre rfl, rfl⟩⟩
      · exact ⟨rfl, .inr ⟨rfl, rfl, rfl⟩⟩

end Ciclo

end Cpu
