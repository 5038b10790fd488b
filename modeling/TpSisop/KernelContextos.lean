/-
**The contexts that the kernel keeps.**

The kernel copies the PCB of a process from list to list, out of the messages of the CPU and into
the ones to it.  Nowhere does it touch the program counter or the registers: a PCB outside of
RUNNING has the context of one that was there before, or of the one that the CPU has just given
back, or is new.

Main definitions:

* `Kernel.Guarda` — the PCBs outside of RUNNING have contexts that were there before;
* `Kernel.Procede` — where a PCB comes from.

Main results:

* `Kernel.Liberacion.guarda` — giving resources back wakes processes in the context they had;
* `Kernel.Movimiento.procede`, `Kernel.Movimiento.procede_running` — so it is with every event.
-/

import TpSisop.KernelRefinamiento

set_option relaxedAutoImplicit false
set_option autoImplicit false

namespace Kernel

open Familia (agregar mem_agregar mem_of_quitar)

/-- Two PCBs of one process, in the same context. -/
structure Pcb.Copia (q p : Pcb) : Prop where
  pid : q.pid = p.pid
  contexto : q.contexto = p.contexto

theorem Pcb.Copia.refl (p : Pcb) : p.Copia p := ⟨rfl, rfl⟩

theorem Pcb.Copia.trans {p q r : Pcb} (h₁ : p.Copia q) (h₂ : q.Copia r) : p.Copia r :=
  ⟨h₁.pid.trans h₂.pid, h₁.contexto.trans h₂.contexto⟩

theorem Pcb.Intacto.copia {p q : Pcb} (h : p.Intacto q) : p.Copia q := ⟨h.pid, h.contexto⟩

/-- `p` is in a list other than RUNNING. -/
def Vista.guardado (v : Vista) (p : Pcb) : Prop := ∃ l, l ≠ .running ∧ p ∈ v.listas l

/-- The PCBs outside of RUNNING are copies of those that were there. -/
def Guarda (v v' : Vista) : Prop := ∀ q, v'.guardado q → ∃ p, v.guardado p ∧ q.Copia p

section

variable {v v₁ v' : Vista} {p q : Pcb} {recurso : String}

theorem Guarda.of_listas (h : v'.listas = v.listas) : Guarda v v' := by
  rintro q ⟨l, hl, hq⟩
  exact ⟨q, ⟨l, hl, h ▸ hq⟩, .refl q⟩

theorem Guarda.trans (h₁ : Guarda v v₁) (h₂ : Guarda v₁ v') : Guarda v v' := by
  intro q hq
  obtain ⟨p, hp, hqp⟩ := h₂ q hq
  obtain ⟨r, hr, hpr⟩ := h₁ p hp
  exact ⟨r, hr, hqp.trans hpr⟩

/-- A process leaves a list. -/
theorem Guarda.quitar {l : Lista} {a b : List Pcb} (h : v.listas l = a ++ p :: b)
    (h' : v'.listas = Function.update v.listas l (a ++ b)) : Guarda v v' := by
  rintro q ⟨m, hm, hq⟩
  exact ⟨q, ⟨m, hm, mem_of_quitar h (h' ▸ hq)⟩, .refl q⟩

/-- Every PCB outside of RUNNING was there, but for the ones of a process that is woken. -/
theorem Alistar.guardado (h : Alistar v p v') (hq : v'.guardado q) : v.guardado q ∨ q.Copia p := by
  obtain ⟨l, hl, hq⟩ := hq
  cases h with
  | mk hlis hvrr =>
      rcases mem_agregar.1 hq with hq | ⟨-, rfl⟩
      · exact .inl ⟨l, hl, hq⟩
      · exact .inr ⟨rfl, rfl⟩

/-- A process goes from BLOCKED to the queues of the scheduler. -/
theorem Alistar.guarda {a b : List Pcb} {p' : Pcb}
    (h : Alistar (v.conLista .blocked (a ++ b)) p' v') (hb : v.listas .blocked = a ++ p :: b)
    (hp : p'.Copia p) : Guarda v v' := by
  intro q hq
  rcases h.guardado hq with hq | hq
  · exact Guarda.quitar hb rfl q hq
  · exact ⟨p, ⟨.blocked, by decide, by simp [hb]⟩, hq.trans hp⟩

theorem Incremento.guarda (h : Incremento v recurso v') : Guarda v v' := by
  cases h with
  | ausente h => exact .of_listas rfl
  | libre hr hi => exact .of_listas rfl
  | huerfano hr hi hq hb => exact .of_listas rfl
  | entrega hr hi hq hb hal =>
      exact (Guarda.of_listas rfl).trans
        (hal.guarda (v := v.ponerRecurso recurso _) hb ⟨rfl, rfl⟩)

theorem Devolucion.guarda {ts : List String} (h : Devolucion v ts v') : Guarda v v' := by
  induction h with
  | nil v => exact .of_listas rfl
  | cons hr hi _ ih => exact hi.guarda.trans ih

theorem retirar_listas (v : Vista) (recurso : String) (pid : ℕ) :
    (v.retirar recurso pid).listas = v.listas := by
  unfold Vista.retirar
  split <;> rfl

/-- What a process gives back wakes others, in the context they had. -/
theorem Liberacion.guarda (h : Liberacion v p v') : Guarda v v' := by
  cases h with
  | suelto hd h => exact hd.guarda
  | esperando hd h => exact hd.guarda.trans (.of_listas (retirar_listas _ _ _))

theorem salir_guardado (hq : (v.salir p).guardado q) : v.guardado q ∨ q.Copia p := by
  obtain ⟨l, hl, hq⟩ := hq
  rcases mem_agregar.1 hq with hq | ⟨-, rfl⟩
  · exact .inl ⟨l, hl, hq⟩
  · exact .inr ⟨rfl, rfl⟩

end

/-! ### Where a PCB comes from -/

/-- It is a copy of one that was outside of RUNNING, or of one that the CPU gives back, or is the
one of a new process. -/
inductive Procede (v : Vista) (e : Evento) (q : Pcb) : Prop
  | guardado {p : Pcb} (hp : v.guardado p) (h : q.Copia p)
  | devuelto {p : Pcb} {m : MensajeCpu} {ahora : ℤ} (he : e = .cpu p m ahora) (h : q.Copia p)
  | nuevo (he : e = .iniciarProceso) (h : q = { pid := v.ultimoPid })

section

variable {v v₁ v' : Vista} {e : Evento} {p q : Pcb}

theorem Guarda.procede (h : Guarda v v') (hq : v'.guardado q) : Procede v e q := by
  obtain ⟨p, hp, hqp⟩ := h q hq
  exact .guardado hp hqp

/-- A process dies outside of RUNNING. -/
theorem Guarda.procede_salir (h : Guarda v v') (hp : v.guardado p)
    (hq : (v'.salir p).guardado q) : Procede v e q := by
  rcases salir_guardado hq with hq | hq
  · exact h.procede hq
  · exact .guardado hp hq

/-- A process leaves RUNNING for the list `l`. -/
theorem procede_agregar {l : Lista} {xs : List Pcb} {p' : Pcb} {m : MensajeCpu} {ahora : ℤ}
    (hL : v'.listas = agregar (Function.update v.listas .running xs) l p') (hp : p'.Copia p)
    (hq : v'.guardado q) : Procede v (.cpu p m ahora) q := by
  obtain ⟨n, hn, hq⟩ := hq
  rw [hL] at hq
  rcases mem_agregar.1 hq with hq | ⟨-, rfl⟩
  · rw [Function.update_of_ne hn] at hq
    exact .guardado ⟨n, hn, hq⟩ (.refl q)
  · exact .devuelto rfl hp

/-- Only RUNNING changes. -/
theorem guarda_running {xs : List Pcb} (h : v'.listas = Function.update v.listas .running xs) :
    Guarda v v' := by
  rintro q ⟨l, hl, hq⟩
  rw [h, Function.update_of_ne hl] at hq
  exact ⟨q, ⟨l, hl, hq⟩, .refl q⟩

theorem Movimiento.procede (h : Movimiento v e v') (hq : v'.guardado q) : Procede v e q := by
  have hsame : v'.listas = v.listas → Procede v e q := fun h => (Guarda.of_listas h).procede hq
  cases h with
  | quieto => exact hsame rfl
  | pasadaVacia => exact hsame rfl
  | ioOcupada => exact hsame rfl
  | conexionIo => exact hsame rfl
  | creacion =>
      obtain ⟨l, hl, hq⟩ := hq
      rcases mem_agregar.1 hq with hq | ⟨-, rfl⟩
      · exact .guardado ⟨l, hl, hq⟩ (.refl q)
      · exact .nuevo rfl rfl
  | @admision p new h =>
      obtain ⟨l, hl, hq⟩ := hq
      rcases mem_agregar.1 hq with hq | ⟨-, rfl⟩
      · exact .guardado ⟨l, hl, mem_of_quitar (a := []) h hq⟩ (.refl q)
      · exact .guardado (p := p) ⟨.new, by decide, by simp [h]⟩ ⟨rfl, rfl⟩
  | @despacho ahora l p p' resto n m hl h hp hn hm =>
      obtain ⟨l', hl', hq⟩ := hq
      rcases mem_agregar.1 hq with hq | ⟨rfl, -⟩
      · exact .guardado ⟨l', hl', mem_of_quitar (a := []) h hq⟩ (.refl q)
      · exact absurd rfl hl'
  | finDeQuantum h =>
      refine procede_agregar rfl ?_ hq
      exact ⟨rfl, rfl⟩
  | bloqueoIo h hi hp => exact procede_agregar rfl hp.copia hq
  | bloqueoRecurso h hr hi =>
      refine procede_agregar rfl ?_ hq
      exact ⟨rfl, rfl⟩
  | concesion h hr hi hp => exact (guarda_running rfl).procede hq
  | signal h hr hi hp =>
      have hv₁ : Guarda v _ := Guarda.trans (.of_listas rfl) hi.guarda
      exact (hv₁.trans (guarda_running rfl)).procede hq
  | muerteCpu h hm hl =>
      rcases salir_guardado hq with hq | hq
      · exact ((guarda_running rfl).trans hl.guarda).procede hq
      · exact .devuelto rfl hq
  | @muerteConsola pid l a b p v₁ hlista h hp hl =>
      have hne : l ≠ .running := by
        rcases hlista with rfl | rfl | rfl | rfl <;> decide
      exact ((Guarda.quitar h rfl).trans hl.guarda).procede_salir ⟨l, hne, by simp [h]⟩ hq
  | errorIo hi hpet h hp hl =>
      refine ((Guarda.quitar h rfl).trans hl.guarda).procede_salir ⟨.blocked, by decide, ?_⟩ hq
      simp [h]
  | finIo hi hpet h hp hal hi' => exact (hal.guarda h (.refl _)).procede hq

/-- In RUNNING, the process was there, or comes from a list, or the CPU gets it back at once. -/
theorem Movimiento.procede_running (h : Movimiento v e v') (hq : q ∈ v'.listas .running) :
    (¬e.deCpu ∧ q ∈ v.listas .running) ∨ Procede v e q := by
  cases h with
  | quieto he => exact .inl ⟨he, hq⟩
  | pasadaVacia => exact .inl ⟨id, hq⟩
  | ioOcupada => exact .inl ⟨id, hq⟩
  | conexionIo => exact .inl ⟨id, hq⟩
  | creacion => exact .inl ⟨id, by simpa using hq⟩
  | admision h => exact .inl ⟨id, by simpa using hq⟩
  | @despacho ahora l p p' resto n m hl h hp hn hm =>
      have hne : l ≠ .running := by
        rintro rfl
        simp at hl
      change q ∈ agregar (Function.update v.listas l resto) .running p' .running at hq
      rcases mem_agregar.1 hq with hq | ⟨-, rfl⟩
      · rw [Function.update_of_ne hne.symm] at hq
        exact .inl ⟨id, hq⟩
      · exact .inr (.guardado ⟨l, hne, by simp [h]⟩ hp.copia)
  | finDeQuantum h => simp at hq
  | bloqueoIo h hi hp => simp at hq
  | bloqueoRecurso h hr hi => simp at hq
  | concesion h hr hi hp =>
      simp only [Function.update_self, List.mem_singleton] at hq
      subst hq hp
      exact .inr (.devuelto rfl ⟨rfl, rfl⟩)
  | signal h hr hi hp =>
      simp only [Function.update_self, List.mem_singleton] at hq
      subst hq hp
      exact .inr (.devuelto rfl ⟨rfl, rfl⟩)
  | muerteCpu h hm hl =>
      have := hl.marco.listas .running (by decide) (by decide)
      simp [Vista.salir, Vista.conLista, this] at hq
  | muerteConsola hlista h hp hl =>
      have := hl.marco.listas .running (by decide) (by decide)
      refine .inl ⟨id, ?_⟩
      rcases hlista with rfl | rfl | rfl | rfl <;>
        simpa [Vista.salir, Vista.conLista, this] using hq
  | errorIo hi hpet h hp hl =>
      have := hl.marco.listas .running (by decide) (by decide)
      exact .inl ⟨id, by simpa [Vista.salir, Vista.conLista, Vista.ponerInterfaz, this] using hq⟩
  | finIo hi hpet h hp hal hi' =>
      have := (hal.marco h rfl).listas .running (by decide) (by decide)
      exact .inl ⟨id, by simpa [Vista.ponerInterfaz, this] using hq⟩

end

end Kernel
