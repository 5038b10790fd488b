/-
**What the kernel records about its processes.**

The state of a process is written down three times: by the list its PCB is in, in the PCB, and in
`estados_procesos`.  Most handlers write the last two at once, in `actualizar_estado_pcb`, but WAIT
and SIGNAL put the copy of the PCB that comes from the CPU into RUNNING without it.  This module
shows that the three agree between handlers, and that memory is told of the end of a process when
the process goes to EXIT, which it does once.

Main definitions:

* `Kernel.Lista.estado` — the state a list stands for;
* `Kernel.Anotado` — what is recorded, also in the middle of a handler;
* `Kernel.Prolijo` — a handler keeps the processes where they are, as far as the records go.

Main results:

* `Kernel.Anotado.quitar`, `Kernel.Anotado.actualizar`, `Kernel.Anotado.salir` — a PCB is taken from
  a list, and put in another one;
* `Kernel.manejar_anotado` — the handling of an event;
* `Kernel.estados_coinciden` — in every state, for every process;
* `Kernel.exit_definitivo` — whoever is in EXIT stays there, and memory was told once.
-/

import TpSisop.KernelFallas

set_option relaxedAutoImplicit false
set_option autoImplicit false

namespace Kernel

open Familia (agregar)
open Resultado (Cumple bind_eq_ok)

variable {k k' k₁ : Nucleo} {p q : Pcb} {ahora : ℤ}

/-! ### The records -/

/-- The state of the processes of a list. -/
def Lista.estado : Lista → EstadoCode
  | .new => .new
  | .ready => .ready
  | .auxiliar => .readyAux
  | .blocked => .blocked
  | .running => .exec
  | .exit => .exitt

/-- How many PCBs of a process a list holds. -/
def cantidad (pid : ℕ) (l : List Pcb) : ℕ := (l.map fun p => if p.pid = pid then 1 else 0).sum

/-- Every PCB of a list is recorded as being there, and memory was told of those in EXIT.  A handler
may have one PCB in its hands. -/
structure Anotado (k : Nucleo) : Prop where
  veces_le : ∀ x, veces k.listas x ≤ 1
  pid_pos : ∀ l, ∀ p ∈ k.listas l, 1 ≤ p.pid
  estados : ∀ l, ∀ p ∈ k.listas l,
    p.estado = l.estado ∧ k.estadosProcesos[p.pid - 1]? = some l.estado
  memoria : ∀ x, k.memoria.count (.finalizarProceso x) = cantidad x (k.listas .exit)

/-- A PCB that was taken from its list and has its entry in `estados_procesos`. -/
structure EnMano (k : Nucleo) (p : Pcb) : Prop where
  veces : veces k.listas p.pid = 0
  pid_pos : 1 ≤ p.pid
  pid_le : p.pid ≤ k.estadosProcesos.length

/-- What is recorded is still right, and the same processes are in the lists. -/
structure Prolijo (k k' : Nucleo) : Prop where
  anotado : Anotado k'
  veces : ∀ x, veces k'.listas x = veces k.listas x
  entradas : k'.estadosProcesos.length = k.estadosProcesos.length

theorem Anotado.prolijo (hA : Anotado k) : Prolijo k k := ⟨hA, fun _ => rfl, rfl⟩

theorem Prolijo.trans (h₁ : Prolijo k k₁) (h₂ : Prolijo k₁ k') : Prolijo k k' :=
  ⟨h₂.anotado, fun x => (h₂.veces x).trans (h₁.veces x), h₂.entradas.trans h₁.entradas⟩

theorem EnMano.prolijo (h : EnMano k p) (hk : Prolijo k k') : EnMano k' p :=
  ⟨(hk.veces _).trans h.veces, h.pid_pos, hk.entradas.symm ▸ h.pid_le⟩

theorem EnMano.conPid (h : EnMano k p) (hq : q.pid = p.pid) : EnMano k q :=
  ⟨hq ▸ h.veces, hq ▸ h.pid_pos, hq ▸ h.pid_le⟩

/-- What else is in the kernel does not matter. -/
theorem Anotado.of_eq (hA : Anotado k) (hl : k'.listas = k.listas)
    (he : k'.estadosProcesos = k.estadosProcesos) (hm : k'.memoria = k.memoria) :
    Prolijo k k' := by
  refine ⟨⟨?_, ?_, ?_, ?_⟩, fun x => by rw [hl], by rw [he]⟩
  · exact hl ▸ hA.veces_le
  · exact hl ▸ hA.pid_pos
  · rw [hl, he]
    exact hA.estados
  · rw [hl, hm]
    exact hA.memoria

theorem Anotado.igual (hA : Anotado k) (hl : k'.listas = k.listas)
    (he : k'.estadosProcesos = k.estadosProcesos) (hm : k'.memoria = k.memoria) : Anotado k' :=
  (hA.of_eq hl he hm).anotado

theorem Anotado.pid_le (hA : Anotado k) {l : Lista} (h : p ∈ k.listas l) :
    p.pid ≤ k.estadosProcesos.length := by
  have hp := hA.pid_pos l p h
  have := (List.getElem?_eq_some_iff.1 (hA.estados l p h).2).1
  omega

/-! ### A PCB changes lists -/

/-- A PCB is taken from a list. -/
theorem Anotado.quitar (hA : Anotado k) {l : Lista} {a b : List Pcb} (hl : k.listas l = a ++ p :: b)
    (he : l ≠ .exit) : Anotado (k.conLista l (a ++ b)) ∧ EnMano (k.conLista l (a ++ b)) p := by
  have hp : p ∈ k.listas l := by simp [hl]
  refine ⟨⟨fun x => ?_, fun m q hq => ?_, fun m q hq => ?_, fun x => ?_⟩, ?_, ?_, ?_⟩
  · have h₁ := veces_quitar hl x
    have h₂ := hA.veces_le x
    simp only [Nucleo.conLista]
    omega
  · exact hA.pid_pos m q (Familia.mem_of_quitar hl hq)
  · exact hA.estados m q (Familia.mem_of_quitar hl hq)
  · rw [show (k.conLista l (a ++ b)).listas .exit = k.listas .exit from
      Function.update_of_ne he.symm ..]
    exact hA.memoria x
  · exact veces_quitar_eq_zero (hA.veces_le _) hl
  · exact hA.pid_pos l p hp
  · exact hA.pid_le hp

theorem Anotado.sacar (hA : Anotado k) {l : Lista} {pid : ℕ} {r : Pcb × List Pcb}
    (hr : sacar pid (k.listas l) = some r) (he : l ≠ .exit) :
    Anotado (k.conLista l r.2) ∧ EnMano (k.conLista l r.2) r.1 := by
  obtain ⟨a, b, hl, -, -, hr₂⟩ := sacar_eq_some (p := r.1) (r := r.2) hr
  rw [hr₂]
  exact hA.quitar hl he

/-- The records of a PCB that is put in a list. -/
theorem estados_actualizar (hA : Anotado k) (hm : EnMano k p) (l : Lista) :
    ∀ m, ∀ q ∈ (k.actualizarEstadoPcb p l.estado l).listas m, q.estado = m.estado ∧
      (k.actualizarEstadoPcb p l.estado l).estadosProcesos[q.pid - 1]? = some m.estado := by
  intro m q hq
  have hlen := hm.pid_le
  have hpos := hm.pid_pos
  rcases Familia.mem_agregar.1 hq with hq | ⟨rfl, rfl⟩
  · have hne : q.pid ≠ p.pid := veces_eq_zero.1 hm.veces m q hq
    have hqpos := hA.pid_pos m q hq
    obtain ⟨h₁, h₂⟩ := hA.estados m q hq
    refine ⟨h₁, ?_⟩
    rw [Nucleo.actualizarEstadoPcb, List.getElem?_set_ne (by omega)]
    exact h₂
  · refine ⟨rfl, ?_⟩
    rw [Nucleo.actualizarEstadoPcb, List.getElem?_set_self (by omega)]

theorem veces_actualizar_le (hA : Anotado k) (hm : EnMano k p) (e : EstadoCode) (l : Lista)
    (x : ℕ) : veces (k.actualizarEstadoPcb p e l).listas x ≤ 1 := by
  have h₁ := hA.veces_le x
  rw [Nucleo.actualizarEstadoPcb, veces_agregar]
  split
  · rename_i hx
    have h₂ := hm.veces
    simp only at hx
    rw [hx] at h₂
    omega
  · omega

theorem pid_pos_actualizar (hA : Anotado k) (hm : EnMano k p) (e : EstadoCode) (l : Lista) :
    ∀ m, ∀ q ∈ (k.actualizarEstadoPcb p e l).listas m, 1 ≤ q.pid := by
  intro m q hq
  rcases Familia.mem_agregar.1 hq with hq | ⟨-, rfl⟩
  · exact hA.pid_pos m q hq
  · exact hm.pid_pos

/-- `actualizar_estado_pcb`, with the state of a list of the living. -/
theorem Anotado.actualizar (hA : Anotado k) (hm : EnMano k p) {l : Lista} (he : l ≠ .exit) :
    Anotado (k.actualizarEstadoPcb p l.estado l) := by
  refine ⟨veces_actualizar_le hA hm _ l, pid_pos_actualizar hA hm _ l, estados_actualizar hA hm l,
    fun x => ?_⟩
  rw [show (k.actualizarEstadoPcb p l.estado l).listas .exit = k.listas .exit from
    Familia.agregar_of_ne he.symm]
  exact hA.memoria x

/-- A process goes to EXIT, and memory is told. -/
theorem Anotado.salir (hA : Anotado k) (hm : EnMano k p) : Anotado (k.salir p) := by
  have hm' : EnMano k { p with recursoEsperando := none } := hm.conPid rfl
  refine ⟨veces_actualizar_le hA hm' _ .exit, pid_pos_actualizar hA hm' _ .exit,
    estados_actualizar hA hm' .exit, fun x => ?_⟩
  have h := hA.memoria x
  simp only [Nucleo.salir, Nucleo.actualizarEstadoPcb, Familia.agregar_self, List.count_append,
    cantidad, List.map_append, List.sum_append, h]
  by_cases hx : p.pid = x
  · simp [hx]
  · simp [hx]

/-- The PCB of a process is replaced by another one of the same process. -/
theorem Anotado.reemplazar (hA : Anotado k) {l : Lista} {a b : List Pcb}
    (hl : k.listas l = a ++ p :: b) (he : l ≠ .exit) (hpid : q.pid = p.pid)
    (hest : q.estado = p.estado) : Prolijo k (k.conLista l (a ++ q :: b)) := by
  have hp : p ∈ k.listas l := by simp [hl]
  have hmem : ∀ m, ∀ r ∈ (k.conLista l (a ++ q :: b)).listas m, r ∈ k.listas m ∨ m = l ∧ r = q := by
    intro m r hr
    by_cases hm : m = l
    · subst hm
      simp only [Nucleo.conLista, Function.update_self, List.mem_append, List.mem_cons] at hr
      rw [hl]
      simp only [List.mem_append, List.mem_cons]
      tauto
    · simp only [Nucleo.conLista, Function.update_of_ne hm] at hr
      exact .inl hr
  have hveces : ∀ x, veces (k.conLista l (a ++ q :: b)).listas x = veces k.listas x := by
    intro x
    have h₁ := veces_quitar hl x
    have h₂ := veces_quitar (L := (k.conLista l (a ++ q :: b)).listas) (l := l) (a := a) (b := b)
      (p := q) (by simp [Nucleo.conLista]) x
    simp only [Nucleo.conLista, Function.update_idem, hpid] at h₂
    simp only [Nucleo.conLista]
    omega
  refine ⟨⟨fun x => ?_, fun m r hr => ?_, fun m r hr => ?_, fun x => ?_⟩, hveces, rfl⟩
  · exact (hveces x).le.trans (hA.veces_le x)
  · rcases hmem m r hr with hr | ⟨-, rfl⟩
    · exact hA.pid_pos m r hr
    · exact hpid ▸ hA.pid_pos l p hp
  · rcases hmem m r hr with hr | ⟨rfl, rfl⟩
    · exact hA.estados m r hr
    · rw [hpid, hest]
      exact hA.estados m p hp
  · rw [show (k.conLista l (a ++ q :: b)).listas .exit = k.listas .exit from
      Function.update_of_ne he.symm ..]
    exact hA.memoria x

/-- A PCB that is put in a list is there once more. -/
theorem prolijo_actualizar (hA : Anotado k) {l m : Lista} {a b : List Pcb}
    (hl : k.listas l = a ++ p :: b) (hle : l ≠ .exit) (hme : m ≠ .exit) (hpid : q.pid = p.pid) :
    Prolijo k ((k.conLista l (a ++ b)).actualizarEstadoPcb q m.estado m) := by
  obtain ⟨hA₁, hm₁⟩ := hA.quitar hl hle
  refine ⟨hA₁.actualizar (hm₁.conPid hpid) hme, fun x => ?_, ?_⟩
  · have hq : ({ q with estado := m.estado } : Pcb).pid = p.pid := hpid
    exact veces_mover hl hq x
  · simp [Nucleo.actualizarEstadoPcb, Nucleo.conLista]

/-! ### Waking, blocking and the resources -/

/-- A handler that reaches its end keeps the records in order. -/
abbrev Ordena (k : Nucleo) : Except Corte Nucleo → Prop :=
  Cumple (fun _ => False) (Prolijo k)

/-- A handler that reaches its end leaves the records in order. -/
abbrev Anota : Except Corte Nucleo → Prop := Cumple (fun _ => False) Anotado

theorem Ordena.anota {r : Except Corte Nucleo} (h : Ordena k r) : Anota r :=
  h.mono fun _ _ => Prolijo.anotado

theorem alistar_prolijo (hA : Anotado k) {a b : List Pcb} (hl : k.listas .blocked = a ++ p :: b) :
    Prolijo k ((k.conLista .blocked (a ++ b)).alistar p) := by
  unfold Nucleo.alistar
  split
  · have h := prolijo_actualizar hA hl (by decide) (m := .auxiliar) (by decide) (q := p) rfl
    exact h.trans (h.anotado.of_eq rfl rfl rfl)
  · have h := prolijo_actualizar hA hl (by decide) (m := .ready) (by decide) (q := p) rfl
    exact h.trans (h.anotado.of_eq rfl rfl rfl)

theorem desbloquearProceso_prolijo (hA : Anotado k) (pid : ℕ) :
    Ordena k (desbloquearProceso k pid) := by
  refine (exigir_cumple id).bind fun _ _ _ => (obtenido_cumple False.elim).bind fun r _ hr => ?_
  obtain ⟨a, b, hl, -, -, hr₂⟩ := sacar_eq_some (p := r.1) (r := r.2) hr
  rw [hr₂]
  exact alistar_prolijo hA hl

theorem bloquearProceso_prolijo (hA : Anotado k) (p : Pcb) (esIo : Bool) (ahora : ℤ) :
    Ordena k (bloquearProceso k p esIo ahora) := by
  refine (exigir_cumple id).bind fun _ _ _ => (obtenido_cumple False.elim).bind fun r _ hr => ?_
  obtain ⟨a, b, hl, hp, -, hr₂⟩ := sacar_eq_some (p := r.1) (r := r.2) hr
  have h₀ : Prolijo k { k with pidEjecutando := 0 } := hA.of_eq rfl rfl rfl
  rw [hr₂]
  refine h₀.trans (prolijo_actualizar h₀.anotado hl (by decide) (m := .blocked) (by decide) ?_)
  split <;> exact hp.symm

theorem ponerRecurso_prolijo (hA : Anotado k) (n : String) (r : Recurso) :
    Prolijo k (k.ponerRecurso n r) := hA.of_eq rfl rfl rfl

theorem recursoIncrementar_prolijo (hA : Anotado k) (recurso : String) :
    Ordena k (recursoIncrementar k recurso) := by
  refine recursoIncrementar_regla False.elim hA.prolijo (ponerRecurso_prolijo hA recurso) ?_
  intro r a p b hl
  have h₁ := ponerRecurso_prolijo hA recurso r
  have h₂ := h₁.anotado.reemplazar hl (q := p.otorgar recurso) (by decide) rfl rfl
  exact (desbloquearProceso_prolijo h₂.anotado p.pid).mono fun k' _ h' => (h₁.trans h₂).trans h'

theorem liberarRecursosTomados_prolijo (hA : Anotado k) (p : Pcb) :
    Ordena k (liberarRecursosTomados k p) := by
  refine liberarRecursosTomados_regla id (fun k₁ n h₁ => ?_) (fun k₁ n r h₁ => ?_) hA.prolijo p
  · exact (recursoIncrementar_prolijo h₁.anotado n).mono fun k' _ h' => h₁.trans h'
  · exact h₁.trans (ponerRecurso_prolijo h₁.anotado n r)

/-- A process that is in the hands of a handler gives everything back and exits. -/
theorem eliminarProceso_anota (hA : Anotado k) (hm : EnMano k p) : Anota (eliminarProceso k p) := by
  rw [eliminarProceso, procesoEnRunning_eq_false hm.veces, if_neg Bool.false_ne_true]
  refine (liberarRecursosTomados_prolijo hA p).bind fun k₁ _ h₁ => ?_
  exact (exigir_cumple id).bind fun _ _ _ => h₁.anotado.salir (hm.prolijo h₁)

/-! ### The messages of the CPU -/

theorem liberarCpu_prolijo (hA : Anotado k) : Prolijo k k.liberarCpu := hA.of_eq rfl rfl rfl

/-- The copy of the running PCB goes to RUNNING. -/
theorem reanudar_prolijo (hA : Anotado k) (hrun : k.listas .running = [q]) (hpid : p.pid = q.pid)
    (hest : p.estado = q.estado) : Ordena k (reanudar k p) := by
  refine (obtenido_cumple False.elim).bind fun r _ hr => ?_
  rw [hrun, Coleccion.remover_cons_zero, Option.some.injEq] at hr
  subst hr
  have h := hA.reemplazar (a := []) hrun (by decide) hpid hest
  exact h.trans (h.anotado.of_eq rfl rfl rfl)

theorem motivoSignal_prolijo (hA : Anotado k) (hrun : k.listas .running = [q])
    (hpid : p.pid = q.pid) (hest : p.estado = q.estado) (recurso : String) :
    Ordena k (motivoSignal k p recurso) := by
  refine (recursoIncrementar_prolijo hA recurso).bind fun k₁ h h₁ => ?_
  have hrun₁ : k₁.listas .running = [q] :=
    ((recursoIncrementar_vista h).marco.listas .running (by simp) (by simp)).trans hrun
  exact (reanudar_prolijo h₁.anotado hrun₁ (by exact hpid) (by exact hest)).mono fun k' _ h' =>
    h₁.trans h'

theorem recursoAgregarBloqueado_prolijo (hA : Anotado k) (recurso : String) (pid : ℕ) :
    Prolijo k (recursoAgregarBloqueado k recurso pid) := by
  unfold recursoAgregarBloqueado
  cases k.recursos.valor recurso with
  | none => exact hA.prolijo
  | some r => exact ponerRecurso_prolijo hA _ _

/-- Either the process was blocked, or RUNNING is as it was. -/
theorem recursoDecrementar_prolijo (hA : Anotado k) (recurso : String) (p : Pcb) (ahora : ℤ) :
    Cumple (fun _ => False)
      (fun r => Prolijo k r.2 ∧ (r.1 = true → r.2.listas .running = k.listas .running))
      (recursoDecrementar k recurso p ahora) := by
  unfold recursoDecrementar
  cases k.recursos.valor recurso with
  | none => exact ⟨hA.prolijo, fun _ => rfl⟩
  | some r =>
      have h₁ := ponerRecurso_prolijo hA recurso { r with instancias := r.instancias - 1 }
      simp only
      split
      · refine (bloquearProceso_prolijo h₁.anotado _ false ahora).bind fun k₁ _ h₂ => ?_
        have h₃ := recursoAgregarBloqueado_prolijo h₂.anotado recurso p.pid
        have h₄ := h₃.trans (liberarCpu_prolijo h₃.anotado)
        exact ⟨(h₁.trans h₂).trans h₄, by simp⟩
      · exact ⟨h₁, fun _ => rfl⟩

theorem motivoWait_prolijo (hA : Anotado k) (hrun : k.listas .running = [q])
    (hpid : p.pid = q.pid) (hest : p.estado = q.estado) (recurso : String) :
    Ordena k (motivoWait k p recurso ahora) := by
  refine (recursoDecrementar_prolijo hA recurso p ahora).bind fun r _ h => ?_
  split
  · rename_i hr
    exact (reanudar_prolijo h.1.anotado ((h.2 hr).trans hrun) (by exact hpid)
      (by exact hest)).mono fun k' _ h' => h.1.trans h'
  · exact h.1

theorem finDeQuantum_prolijo (hA : Anotado k) (hrun : k.listas .running = [q])
    (hpid : p.pid = q.pid) : Ordena k (finDeQuantum k p) := by
  refine (exigir_cumple id).bind fun _ _ _ => (obtenido_cumple False.elim).bind fun r _ hr => ?_
  rw [hrun, Coleccion.remover_cons_zero, Option.some.injEq] at hr
  subst hr
  have h := prolijo_actualizar (a := []) hA hrun (by decide) (m := .ready) (by decide) hpid
  exact h.trans (h.anotado.of_eq rfl rfl rfl)

theorem terminar_anota (hA : Anotado k) (hrun : k.listas .running = [q]) (hpid : p.pid = q.pid) :
    Anota (terminar k p) := by
  refine (exigir_cumple id).bind fun _ _ _ => ?_
  refine (liberarRecursosTomados_prolijo hA p).bind fun k₁ h h₁ => ?_
  have hrun₁ : k₁.listas .running = [q] :=
    ((liberarRecursosTomados_vista h).marco.listas .running (by simp) (by simp)).trans hrun
  refine (obtenido_cumple False.elim).bind fun r _ hr => ?_
  rw [hrun₁, Coleccion.remover_cons_zero, Option.some.injEq] at hr
  subst hr
  obtain ⟨hA₂, hm⟩ := h₁.anotado.quitar (a := []) hrun₁ (by decide)
  exact (liberarCpu_prolijo (hA₂.salir (hm.conPid hpid))).anotado

theorem expulsar_anota (hA : Anotado k) (hrun : k.listas .running = [q]) (hpid : p.pid = q.pid) :
    Anota (expulsar k p) := by
  refine (obtenido_cumple False.elim).bind fun r _ hr => ?_
  rw [hrun, Coleccion.remover_cons_zero, Option.some.injEq] at hr
  subst hr
  obtain ⟨hA₁, hm⟩ := hA.quitar (a := []) hrun (by decide)
  refine (eliminarProceso_anota hA₁ (hm.conPid hpid)).bind fun k₁ _ h₁ => ?_
  exact (liberarCpu_prolijo h₁).anotado

theorem peticionIo_anota (hA : Anotado k) (hrun : k.listas .running = [q]) (hpid : p.pid = q.pid)
    (nombre : String) (operacion : OperacionIo) :
    Anota (peticionIo k p nombre operacion ahora) := by
  unfold peticionIo
  cases k.interfaces.valor nombre with
  | none => exact expulsar_anota hA hrun hpid
  | some i =>
      refine (bloquearProceso_prolijo hA p true ahora).bind fun k₁ _ h₁ => ?_
      exact h₁.anotado.igual rfl rfl rfl

theorem atenderCpuDispatch_anota (hA : Anotado k) (hrun : k.listas .running = [q])
    (hpid : p.pid = q.pid) (hest : p.estado = q.estado) (m : MensajeCpu) :
    Anota (atenderCpuDispatch k p ahora m) := by
  cases m with
  | io nombre operacion => exact peticionIo_anota hA hrun hpid nombre operacion
  | interrupcion => exact (finDeQuantum_prolijo hA hrun hpid).anota
  | outOfMemory => exact terminar_anota hA hrun hpid
  | terminarProceso => exact terminar_anota hA hrun hpid
  | wait recurso =>
      simp only [atenderCpuDispatch]
      split
      · exact expulsar_anota hA hrun hpid
      · exact (motivoWait_prolijo hA hrun hpid hest recurso).anota
  | signal recurso =>
      simp only [atenderCpuDispatch]
      split
      · exact expulsar_anota hA hrun hpid
      · exact (motivoSignal_prolijo hA hrun hpid hest recurso).anota

/-! ### The interfaces, the console and the threads -/

theorem errorIo_anota (hA : Anotado k) (pid : ℕ) : Anota (errorIo k pid) := by
  refine (obtenido_cumple False.elim).bind fun r _ hr => ?_
  obtain ⟨hA₁, hm⟩ := hA.sacar hr (by decide)
  exact eliminarProceso_anota hA₁ hm

theorem conInterfaces_prolijo (hA : Anotado k) (d : Coleccion.Diccionario Interfaz) :
    Prolijo k { k with interfaces := d } := hA.of_eq rfl rfl rfl

theorem finIo_prolijo (hA : Anotado k) (nombre : String) (pid : ℕ) :
    Ordena k (finIo k nombre pid) := by
  refine finIo_regla id (desbloquearProceso_prolijo hA pid) (fun k₁ d h₁ => ?_) nombre
  exact h₁.trans (conInterfaces_prolijo h₁.anotado d)

theorem atenderIo_anota (hA : Anotado k) (nombre : String) (pet : PeticionIo) (r : RespuestaIo) :
    Anota (atenderIo k nombre pet r) := by
  cases r with
  | errorIo => exact errorIo_anota hA pet.pid
  | ioOcupada =>
      exact (obtenido_cumple False.elim).bind fun _ _ _ => (conInterfaces_prolijo hA _).anotado
  | finIo => exact (finIo_prolijo hA nombre pet.pid).anota

theorem finalizarProceso_anota (hA : Anotado k) (pid : ℕ) : Anota (finalizarProceso k pid) := by
  refine (exigir_cumple id).bind fun _ _ _ => (exigir_cumple id).bind fun _ _ _ => ?_
  rcases hayarPcb_casos k pid with ⟨l, a, p, b, hlista, hl, -, hh⟩ | ⟨k₁, hh, hk₁, -⟩
  · rw [hh]
    have hne : l ≠ .exit := by
      rcases hlista with rfl | rfl | rfl | rfl <;> decide
    obtain ⟨hA₁, hm⟩ := hA.quitar hl hne
    exact eliminarProceso_anota hA₁ hm
  · rw [hh]
    rcases hk₁ with rfl | ⟨-, rfl⟩
    · exact hA
    · exact hA.igual rfl rfl rfl

/-- A PCB with the number of the next process is in no list. -/
theorem conProceso_anotado (hA : Anotado k) (hpos : 1 ≤ k.ultimoPid)
    (hnadie : veces k.listas k.ultimoPid = 0) (hest : k.estadosProcesos.length = k.ultimoPid - 1) :
    Anotado k.conProceso := by
  refine ⟨fun x => ?_, fun l p hp => ?_, fun l p hp => ?_, fun x => ?_⟩
  · have h := hA.veces_le x
    rw [Nucleo.conProceso, veces_agregar]
    split
    · rename_i hx
      simp only at hx
      rw [← hx, hnadie]
    · omega
  · rcases Familia.mem_agregar.1 hp with hp | ⟨-, rfl⟩
    · exact hA.pid_pos l p hp
    · exact hpos
  · rcases Familia.mem_agregar.1 hp with hp | ⟨rfl, rfl⟩
    · obtain ⟨h₁, h₂⟩ := hA.estados l p hp
      refine ⟨h₁, ?_⟩
      rw [Nucleo.conProceso, List.getElem?_append_left (List.getElem?_eq_some_iff.1 h₂).1]
      exact h₂
    · refine ⟨rfl, ?_⟩
      rw [Nucleo.conProceso, ← hest, List.getElem?_concat_length]
      rfl
  · have h := hA.memoria x
    simp [Nucleo.conProceso, cantidad, h]

/-- The first PCB of a list is dispatched. -/
theorem despachar_anotado (hA : Anotado k) {l : Lista} {resto : List Pcb}
    (hl : k.listas l = p :: resto) (he : l ≠ .exit) (hpid : q.pid = p.pid) (ahora : ℤ) :
    Anotado ((k.conLista l resto).despachar q ahora) := by
  obtain ⟨hA₁, hm⟩ := hA.quitar (a := []) hl he
  unfold Nucleo.despachar
  simp only
  have hq : ∀ q' : Pcb, q'.pid = q.pid → Anotado
      (((k.conLista l resto).actualizarEstadoPcb q' .exec .running).enviarSiguientePcb q') :=
    fun q' hq' => Anotado.igual (hA₁.actualizar (l := .running) (hm.conPid (hq'.trans hpid))
      (by decide)) rfl rfl rfl
  refine hq _ ?_
  split <;> rfl

theorem pasada_anotado (hA : Anotado k) (ahora : ℤ) : Anotado (pasada k ahora) := by
  have hcorto : ∀ {k₁ : Nucleo} (f : FaseCorto), Anotado k₁ → Anotado { k₁ with corto := f } :=
    fun f h => h.igual rfl rfl rfl
  unfold pasada
  split
  · split
    · exact hcorto _ hA
    · rename_i p ready hready
      exact hcorto _ (despachar_anotado hA hready (by decide) rfl ahora)
  · exact hA.igual rfl rfl rfl
  · split
    · rename_i p auxiliar haux
      exact hcorto _ (despachar_anotado hA haux (by decide) rfl ahora)
    · split
      · rename_i p ready hready
        refine hcorto _ (despachar_anotado hA hready (by decide) ?_ ahora)
        rfl
      · exact hcorto _ hA
  · exact hcorto _ hA

theorem planificadorCortoPlazo_anota (hA : Anotado k) (ahora : ℤ) :
    Anota (planificadorCortoPlazo k ahora) := by
  unfold planificadorCortoPlazo
  split
  · exact (exigir_cumple id).bind fun _ _ _ => hA.igual rfl rfl rfl
  · exact (exigir_cumple id).bind fun _ _ _ => hA.igual rfl rfl rfl
  · exact (exigir_cumple id).bind fun _ _ _ => pasada_anotado hA ahora
  · refine (exigir_cumple id).bind fun _ _ _ => (obtenido_cumple False.elim).bind fun r _ hr => ?_
    have h := despachar_anotado hA (Coleccion.remover_zero_eq_some.1 hr) (by decide) rfl ahora
    exact h.igual rfl rfl rfl
  · refine (obtenido_cumple False.elim).bind fun estado _ _ => ?_
    split
    · exact hA.igual rfl rfl rfl
    · split
      · split
        · exact hA.igual rfl rfl rfl
        · exact hA.igual rfl rfl rfl
      · exact hA

theorem contadorQuantumRr_anota (hA : Anotado k) : Anota (contadorQuantumRr k) := by
  unfold contadorQuantumRr
  split
  · exact (exigir_cumple id).bind fun _ _ _ => hA.igual rfl rfl rfl
  · split
    · exact hA.igual rfl rfl rfl
    · exact hA.igual rfl rfl rfl

theorem moverAReady_anota (hA : Anotado k) : Anota (moverAReady k) := by
  unfold moverAReady
  split
  · exact (exigir_cumple id).bind fun _ _ _ => hA.igual rfl rfl rfl
  · refine (exigir_cumple id).bind fun _ _ _ => ?_
    simp only
    split
    · exact hA.igual rfl rfl rfl
    · exact hA.igual rfl rfl rfl
  · refine (exigir_cumple id).bind fun _ _ _ => (exigir_cumple id).bind fun _ _ _ => ?_
    split
    · exact hA.igual rfl rfl rfl
    · rename_i p new hnew
      have h := prolijo_actualizar (a := []) hA hnew (by decide) (m := .ready) (by decide)
        (q := p) rfl
      exact h.anotado.igual rfl rfl rfl

/-- The handling of an event leaves the records in order. -/
theorem manejar_anota {e : Evento} (hA : Anotado k) (hB : Base k.vista) (hH : Hilada k)
    (he : admite k e) : Anota (manejar k e) := by
  cases e with
  | iniciarProceso =>
      have hpos := hB.ultimoPid
      have hest := hH.estados
      refine (exigir_cumple id).bind fun _ _ _ => conProceso_anotado hA hpos ?_ (by omega)
      rw [show k.listas = k.vista.listas from rfl, hB.repartidos, if_neg]
      rw [show k.vista.ultimoPid = k.ultimoPid from rfl]
      omega
  | finalizarProceso pid => exact finalizarProceso_anota hA pid
  | iniciarPlanificacion =>
      simp only [manejar, iniciarPlanificacion]
      split
      · exact hA
      · exact hA.igual rfl rfl rfl
  | detenerPlanificacion =>
      simp only [manejar, detenerPlanificacion]
      split
      · exact (exigir_cumple id).bind fun _ _ _ => (exigir_cumple id).bind fun _ _ _ =>
          hA.igual rfl rfl rfl
      · exact hA
  | multiprogramacion valor => exact hA.igual rfl rfl rfl
  | cpu p m ahora =>
      obtain ⟨q, hc⟩ := corre_of_admite hB.unica he
      have hA₁ : Anotado k.sinCpu := hA.igual rfl rfl rfl
      refine atenderCpuDispatch_anota hA₁ hc.running hc.pid.symm ?_ m
      rw [← hc.devuelto]
  | interfaz nombre pet r =>
      refine (obtenido_cumple False.elim).bind fun i _ _ => ?_
      exact atenderIo_anota (conInterfaces_prolijo hA _).anotado nombre pet r
  | conexionIo nombre tipoInterfaz => exact (conInterfaces_prolijo hA _).anotado
  | memoria m =>
      cases m with
      | nuevoProceso pid => exact hA.igual rfl rfl rfl
      | finalizarProceso pid => exact hA.igual rfl rfl rfl
  | corto ahora => exact planificadorCortoPlazo_anota hA ahora
  | reloj => exact contadorQuantumRr_anota hA
  | largo => exact moverAReady_anota hA

/-! ### Every run -/

theorem anotado_iniciar (config : Config) : Anotado (iniciar config) := by
  refine ⟨fun x => ?_, fun l p hp => by simp [iniciar] at hp, fun l p hp => by simp [iniciar] at hp,
    fun x => rfl⟩
  have h₀ : veces (iniciar config).listas x = 0 := veces_eq_zero.2 (by simp [iniciar])
  omega

theorem anotado_alcanzable (h : Transicion.Alcanzable sistema k) : Anotado k := by
  refine (h.invariante (I := fun k => Transicion.Alcanzable sistema k ∧ Anotado k) ?_ ?_).2
  · rintro _ ⟨config, rfl⟩
    exact ⟨.inicio ⟨config, rfl⟩, anotado_iniciar config⟩
  · rintro k e k' ⟨hk, hA⟩ - ⟨he, hm⟩
    exact ⟨.paso hk trivial ⟨he, hm⟩,
      (manejar_anota hA (base_alcanzable hk) (hilada_alcanzable hk) he).of_eq_ok hm⟩

/-- In every state between handlers, each process that was created is in one list, and the list, its
PCB and `estados_procesos` name the same state. -/
theorem estados_coinciden (h : Transicion.Alcanzable sistema k) {x : ℕ} (hx : 1 ≤ x)
    (hcreado : x < k.ultimoPid) :
    ∃ l, ∃ p ∈ k.listas l, p.pid = x ∧ p.estado = l.estado ∧
      k.estadosProcesos[x - 1]? = some l.estado ∧
      ∀ m, ∀ q ∈ k.listas m, q.pid = x → m = l ∧ q = p := by
  have hB := base_alcanzable h
  have hA := anotado_alcanzable h
  have hv : veces k.listas x ≠ 0 := by
    rw [show k.listas = k.vista.listas from rfl, hB.repartidos, if_pos ⟨hx, hcreado⟩]
    exact Nat.one_ne_zero
  rw [Ne, veces_eq_zero] at hv
  push Not at hv
  obtain ⟨l, p, hp, rfl⟩ := hv
  obtain ⟨h₁, h₂⟩ := hA.estados l p hp
  exact ⟨l, p, hp, rfl, h₁, h₂, fun m q hq => eq_of_pid (hA.veces_le _) hp hq⟩

/-- A process gives its resource back, waits for an interface and is woken with some of its quantum
left. -/
def vueltaPrioritaria : Nucleo :=
  correr (fun _ _ => True) ⟨.vrr, 10, 3, [("RA", 1)]⟩
    (.conexionIo "GEN" 1 :: dosAdmitidos ++
      [.corto 0, .corto 0, .corto 0,
        .cpu { pid := 1, pc := 1, quantum := 10, estado := .exec } (.wait "RA") 1,
        .cpu { pid := 1, pc := 2, quantum := 10, estado := .exec, recursosTomados := ["RA"] }
          (.signal "RA") 2,
        .cpu { pid := 1, pc := 3, quantum := 10, estado := .exec } (.io "GEN" .genSleep) 4,
        .interfaz "GEN" ⟨1, .genSleep⟩ .finIo])
    (by decide +kernel)

theorem estados_coinciden_vueltaPrioritaria :
    ∃ l, ∃ p ∈ vueltaPrioritaria.listas l, p.pid = 1 ∧ p.estado = l.estado ∧
      vueltaPrioritaria.estadosProcesos[1 - 1]? = some l.estado ∧
      ∀ m, ∀ q ∈ vueltaPrioritaria.listas m, q.pid = 1 → m = l ∧ q = p :=
  estados_coinciden (alcanzable_correr _) (by decide) (by decide +kernel)

/-- A process that is in EXIT stays there as it is, nobody is in EXIT twice, and memory is told of
the end of exactly the processes in EXIT, once. -/
theorem exit_definitivo (h : Transicion.Alcanzable sistema k)
    (h' : Transicion.Alcanzable (sistema.desde k) k') :
    k.listas .exit <+: k'.listas .exit ∧
      (∀ p ∈ k.listas .exit, ∀ l, ∀ q ∈ k'.listas l, q.pid = p.pid → l = .exit ∧ q = p) ∧
      ∀ x, cantidad x (k'.listas .exit) ≤ 1 ∧
        k'.memoria.count (.finalizarProceso x) = cantidad x (k'.listas .exit) := by
  have hprefijo : Transicion.Alcanzable sistema k' ∧ k.listas .exit <+: k'.listas .exit := by
    refine h'.invariante (I := fun k' => Transicion.Alcanzable sistema k' ∧
      k.listas .exit <+: k'.listas .exit) ?_ ?_
    · rintro _ rfl
      exact ⟨h, List.prefix_rfl⟩
    · rintro k₁ e k₂ ⟨hk₁, hp⟩ - hpaso
      have hmov := manejar_movimiento (base_alcanzable hk₁).unica hpaso.1 hpaso.2
      exact ⟨.paso hk₁ trivial hpaso, hp.trans hmov.exit_prefix⟩
  have hA := anotado_alcanzable hprefijo.1
  refine ⟨hprefijo.2, fun p hp l q hq => ?_, fun x => ⟨?_, hA.memoria x⟩⟩
  · exact eq_of_pid (hA.veces_le _) (hprefijo.2.subset hp) hq
  · exact (Familia.sum_le_peso (Lista.mem_todas .exit)).trans (hA.veces_le x)

/-- A process asks for a resource that does not exist. -/
def primeraMuerte : Nucleo :=
  correr (fun _ _ => True) ⟨.fifo, 10, 3, [("RA", 1)]⟩
    (dosAdmitidos ++
      [.corto 0, .corto 0, .corto 0, .cpu { pid := 1, pc := 1, estado := .exec } (.wait "RB") 1])
    (by decide +kernel)

/-- The user ends both processes, and the one that was alive once more. -/
def segundaMuerte : Nucleo :=
  Transicion.estadoTras (intentar fun _ _ => True) primeraMuerte
    [.finalizarProceso 1, .memoria (.finalizarProceso 1), .finalizarProceso 2, .finalizarProceso 2]
    (by decide +kernel)

theorem exit_definitivo_segundaMuerte :
    primeraMuerte.listas .exit <+: segundaMuerte.listas .exit ∧
      (∀ p ∈ primeraMuerte.listas .exit, ∀ l, ∀ q ∈ segundaMuerte.listas l, q.pid = p.pid →
        l = .exit ∧ q = p) ∧
      ∀ x, cantidad x (segundaMuerte.listas .exit) ≤ 1 ∧
        segundaMuerte.memoria.count (.finalizarProceso x)
          = cantidad x (segundaMuerte.listas .exit) :=
  exit_definitivo (alcanzable_correr _)
    (Transicion.alcanzableCon_estadoTras (S := sistema.desde primeraMuerte) (C := fun _ _ => True)
      (fun _ _ _ => paso_of_intentar) rfl _)

end Kernel
