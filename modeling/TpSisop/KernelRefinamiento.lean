/-
**Every step of the kernel is a movement of the planner.**

Function by function, from the ones that move one process to the handlers of the events: what the
function does to the view of the kernel when it reaches its end.  In a state in which no process
is in two lists and RUNNING holds the process at the CPU, the handling of an event is one of the
movements.

Main results:

* `Kernel.recursoIncrementar_vista`, `Kernel.liberarRecursosTomados_vista`,
  `Kernel.eliminarProceso_vista` — the functions that several handlers share;
* `Kernel.manejar_movimiento` — the handling of an event;
* `Kernel.invariante_vista` — the invariant rule for the kernel.
-/

import TpSisop.KernelVista

set_option relaxedAutoImplicit false
set_option autoImplicit false

namespace Kernel

open Familia (agregar peso)
open Resultado (bind_eq_ok Cumple)

variable {k k' : Nucleo} {p q : Pcb} {ahora : ℤ}

/-! ### Waking and blocking a process -/

theorem alistar_vista (k : Nucleo) (p : Pcb) : Alistar k.vista p (k.alistar p).vista := by
  have h : ∀ l e, ({ k.actualizarEstadoPcb p e l with
      sem := { k.sem with processInReady := k.sem.processInReady + 1 } } : Nucleo).vista
        = { k.vista with
            listas := agregar k.vista.listas l { p with estado := e }
            listos := k.vista.listos + 1 } := by
    intro l e
    simp only [Nucleo.vista, Nucleo.actualizarEstadoPcb, Vista.mk.injEq, true_and, and_true]
    omega
  unfold Nucleo.alistar
  split
  · rename_i hvrr
    have := Alistar.mk (v := k.vista) (p := p) (l := .auxiliar) (e := .readyAux) (by simp)
      (fun _ => hvrr.1)
    rwa [← h] at this
  · have := Alistar.mk (v := k.vista) (p := p) (l := .ready) (e := .ready) (by simp)
      (fun h => by cases h)
    rwa [← h] at this

/-- Waking a process has nothing to do with the interfaces. -/
theorem alistar_conInterfaces (k : Nucleo) (p : Pcb) (d : Coleccion.Diccionario Interfaz) :
    { k.alistar p with interfaces := d } = { k with interfaces := d }.alistar p := by
  unfold Nucleo.alistar
  split <;> rfl

theorem alistar_interfaces (k : Nucleo) (p : Pcb) : (k.alistar p).interfaces = k.interfaces := by
  unfold Nucleo.alistar
  split <;> rfl

theorem desbloquearProceso_eq_ok {pid : ℕ} {a b : List Pcb} (hl : k.listas .blocked = a ++ p :: b)
    (ha : ∀ q ∈ a, q.pid ≠ pid) (hp : p.pid = pid) (h : desbloquearProceso k pid = .ok k') :
    k' = (k.conLista .blocked (a ++ b)).alistar p := by
  unfold desbloquearProceso at h
  rw [hl, sacar_append ha hp] at h
  simp only [bind_eq_ok, exigir_eq_ok, obtenido_eq_ok, Option.some.injEq] at h
  obtain ⟨_, _, r, rfl, h⟩ := h
  cases h
  rfl

/-- A process is unblocked only if it is in BLOCKED. -/
theorem exists_of_desbloquearProceso {pid : ℕ} (h : desbloquearProceso k pid = .ok k') :
    ∃ p ∈ k.listas .blocked, p.pid = pid := by
  unfold desbloquearProceso at h
  simp only [bind_eq_ok, exigir_eq_ok, obtenido_eq_ok] at h
  obtain ⟨_, _, ⟨p, r⟩, hs, _⟩ := h
  obtain ⟨a, b, hl, hp, -, -⟩ := sacar_eq_some hs
  exact ⟨p, by simp [hl], hp⟩

/-- Only an I/O request changes the PCB, and only its quantum. -/
theorem bloquearProceso_eq_ok {esIo : Bool} (hr : k.listas .running = [q]) (hq : q.pid = p.pid)
    (h : bloquearProceso k p esIo ahora = .ok k') :
    ∃ p' : Pcb, p'.Intacto p ∧ (esIo = false → p' = p) ∧
      k' = ({ k with pidEjecutando := 0 }.conLista .running []).actualizarEstadoPcb p'
        .blocked .blocked := by
  have hs : sacar p.pid (k.listas .running) = some (q, []) := by
    rw [hr]
    exact sacar_append (a := []) (by simp) hq []
  unfold bloquearProceso at h
  rw [hs] at h
  simp only [bind_eq_ok, exigir_eq_ok, obtenido_eq_ok, Option.some.injEq] at h
  obtain ⟨_, _, r, rfl, h⟩ := h
  cases h
  refine ⟨_, ?_, ?_, rfl⟩
  · split
    · exact ⟨⟨rfl, rfl, rfl⟩, rfl⟩
    · exact .refl p
  · rintro rfl
    simp

/-! ### The rules of giving back -/

section

variable {falla : Corte → Prop} {P : Nucleo → Prop}

/-- Nothing happens, or the resource changes, or after that the first process in its queue gets the
instance and is woken. -/
theorem recursoIncrementar_regla {recurso : String}
    (hvacia : falla .indefinido → ∀ r, k.recursos.valor recurso = some r →
      r.instancias + 1 ≤ 0 → r.bloqueados ≠ [])
    (hnada : P k) (hponer : ∀ r, P (k.ponerRecurso recurso r))
    (hdespierta : ∀ r a p b, k.listas .blocked = a ++ p :: b →
      Cumple falla P (desbloquearProceso
        ((k.ponerRecurso recurso r).conLista .blocked (a ++ p.otorgar recurso :: b)) p.pid)) :
    Cumple falla P (recursoIncrementar k recurso) := by
  unfold recursoIncrementar
  cases hr : k.recursos.valor recurso with
  | none => exact hnada
  | some r =>
      simp only
      split
      · rename_i hi
        cases hq : r.bloqueados with
        | nil => exact fun hc => hvacia hc r hr hi hq
        | cons pid cola =>
            simp only
            split
            · rename_i hb
              -- the PCB that is written keeps its pid
              obtain ⟨a, p, b, hl, rfl, ha⟩ := exists_split hb
              rw [hl, Coleccion.alterar_append (by simpa using ha) (by simp)]
              exact hdespierta _ a p b hl
            · exact hponer _
      · exact hponer _

theorem recursoModificarInstancias2_regla {recurso : String} (pid : ℕ) (hnada : P k)
    (hponer : ∀ r, P (k.ponerRecurso recurso r)) :
    P (recursoModificarInstancias2 k recurso pid) := by
  unfold recursoModificarInstancias2
  cases k.recursos.valor recurso with
  | none => exact hnada
  | some r => exact hponer _

/-- What is kept by one instance given back and by a change of one resource is kept by the whole
release. -/
theorem liberarRecursosTomados_regla {I : Nucleo → Prop} (hn : ¬falla .nulo)
    (hinc : ∀ k n, I k → Cumple falla I (recursoIncrementar k n))
    (hponer : ∀ k n r, I k → I (k.ponerRecurso n r)) (hk : I k) (p : Pcb) :
    Cumple falla I (liberarRecursosTomados k p) := by
  have htomados : ∀ (ts : List String) (k : Nucleo),
      I k → Cumple falla I (liberarTomados k ts) := by
    intro ts
    induction ts with
    | nil => exact fun k hk => hk
    | cons t ts ih =>
        intro k hk
        refine (obtenido_cumple fun hc => absurd hc hn).bind fun r _ _ => ?_
        exact (hinc k r.id hk).bind fun k₁ _ h₁ => ih k₁ h₁
  refine (htomados _ k hk).bind fun k₁ _ h₁ => ?_
  cases p.recursoEsperando with
  | none => exact h₁
  | some n => exact recursoModificarInstancias2_regla p.pid h₁ fun r => hponer k₁ n r h₁

/-- The end of an operation wakes the process, and then changes interfaces only. -/
theorem finIo_regla {I : Nucleo → Prop} {pid : ℕ} (hn : ¬falla .nulo)
    (hdes : Cumple falla I (desbloquearProceso k pid))
    (hint : ∀ k d, I k → I { k with interfaces := d }) (nombre : String) :
    Cumple falla I (finIo k nombre pid) := by
  refine hdes.bind fun k₁ _ h₁ => (obtenido_cumple fun hc => absurd hc hn).bind fun i _ _ => ?_
  split
  · exact h₁
  · simp only
    split
    · exact hint k₁ _ h₁
    · exact (obtenido_cumple fun hc => absurd hc hn).bind fun _ _ _ => hint k₁ _ h₁

end

/-! ### Resources -/

theorem recursoIncrementar_vista {recurso : String} (h : recursoIncrementar k recurso = .ok k') :
    Incremento k.vista recurso k'.vista := by
  unfold recursoIncrementar at h
  cases hr : k.recursos.valor recurso with
  | none =>
      rw [hr] at h
      cases h
      exact .ausente hr
  | some r =>
      rw [hr] at h
      simp only at h
      split at h
      · rename_i hi
        cases hq : r.bloqueados with
        | nil =>
            rw [hq] at h
            cases h
        | cons pid cola =>
            rw [hq] at h
            simp only at h
            split at h
            · rename_i hb
              rw [Nucleo.ponerRecurso_listas] at hb h
              obtain ⟨a, p, b, hl, hp, ha⟩ := exists_split hb
              rw [hl, Coleccion.alterar_append (by simpa using ha) (by simpa using hp)] at h
              rw [desbloquearProceso_eq_ok (a := a) (b := b) (p := p.otorgar recurso)
                (by simp [Nucleo.conLista]) ha hp h, Nucleo.conLista_conLista]
              exact .entrega hr hi (hp ▸ hq) hl (alistar_vista
                ((k.ponerRecurso recurso _).conLista .blocked (a ++ b)) (p.otorgar recurso))
            · rename_i hb
              cases h
              refine .huerfano hr hi hq ?_
              intro p hp hpid
              exact hb ⟨p, hp, hpid⟩
      · rename_i hi
        cases h
        exact .libre hr (by omega)

theorem liberarTomados_vista {ts : List String} (h : liberarTomados k ts = .ok k') :
    Devolucion k.vista ts k'.vista := by
  induction ts generalizing k with
  | nil =>
      cases h
      exact .nil _
  | cons t ts ih =>
      simp only [liberarTomados, bind_eq_ok, obtenido_eq_ok] at h
      obtain ⟨r, hr, k₁, h₁, h₂⟩ := h
      exact .cons hr (recursoIncrementar_vista h₁) (ih h₂)

theorem recursoModificarInstancias2_vista (k : Nucleo) (recurso : String) (pid : ℕ) :
    (recursoModificarInstancias2 k recurso pid).vista = k.vista.retirar recurso pid := by
  unfold recursoModificarInstancias2 Vista.retirar
  rw [show k.vista.recursos = k.recursos from rfl]
  cases k.recursos.valor recurso with
  | none => rfl
  | some r => rfl

theorem liberarRecursosTomados_vista (h : liberarRecursosTomados k p = .ok k') :
    Liberacion k.vista p k'.vista := by
  simp only [liberarRecursosTomados, bind_eq_ok] at h
  obtain ⟨k₁, h₁, h⟩ := h
  have hd := liberarTomados_vista h₁
  cases he : p.recursoEsperando with
  | none =>
      rw [he] at h
      cases h
      exact .suelto hd he
  | some recurso =>
      rw [he] at h
      cases h
      rw [recursoModificarInstancias2_vista]
      exact .esperando hd he

/-! ### The end of a process -/

theorem salir_vista (k : Nucleo) (p : Pcb) : (k.salir p).vista = k.vista.salir p := rfl

/-- A process that is in no list is not the running one. -/
theorem procesoEnRunning_eq_false (hv : veces k.listas p.pid = 0) :
    procesoEnRunning k p = false := by
  unfold procesoEnRunning
  cases hl : k.listas .running with
  | nil => rfl
  | cons q qs =>
      have := veces_eq_zero.1 hv .running q (by simp [hl])
      simpa using Ne.symm this

/-- It gives everything back and exits. -/
theorem eliminarProceso_vista (hv : veces k.listas p.pid = 0) (h : eliminarProceso k p = .ok k') :
    ∃ v₁, Liberacion k.vista p v₁ ∧ k'.vista = v₁.salir p := by
  rw [eliminarProceso, procesoEnRunning_eq_false hv] at h
  simp only [Bool.false_eq_true, if_false, bind_eq_ok, exigir_eq_ok] at h
  obtain ⟨k₁, h₁, _, _, h⟩ := h
  cases h
  exact ⟨k₁.vista, liberarRecursosTomados_vista h₁, salir_vista k₁ p⟩

/-- `hayar_pcb` takes a process out of its list, or it is in none of the lists it looks at. -/
theorem hayarPcb_casos (k : Nucleo) (pid : ℕ) :
    (∃ l a p b, (l = .new ∨ l = .ready ∨ l = .blocked ∨ l = .auxiliar) ∧
      k.listas l = a ++ p :: b ∧ p.pid = pid ∧
      hayarPcb k pid = (some p, k.conLista l (a ++ b))) ∨
    ∃ k', hayarPcb k pid = (none, k') ∧
      (k' = k ∨ k.pidEjecutando = pid ∧ k' = k.enviarInterrupcionCpu pid) ∧
      ∀ l, l ≠ .running → l ≠ .exit → ∀ p ∈ k.listas l, p.pid ≠ pid := by
  have hs : ∀ {l r p}, sacar pid (k.listas l) = some (p, r) →
      ∃ a b, k.listas l = a ++ p :: b ∧ p.pid = pid ∧ r = a ++ b := by
    intro l r p h
    obtain ⟨a, b, hl, hp, -, hr⟩ := sacar_eq_some h
    exact ⟨a, b, hl, hp, hr⟩
  unfold hayarPcb
  split
  · rename_i p r h
    obtain ⟨a, b, hl, hp, rfl⟩ := hs h
    exact .inl ⟨.new, a, p, b, by simp, hl, hp, rfl⟩
  rename_i hnew
  split
  · rename_i p r h
    obtain ⟨a, b, hl, hp, rfl⟩ := hs h
    exact .inl ⟨.ready, a, p, b, by simp, hl, hp, rfl⟩
  rename_i hready
  split
  · rename_i p r h
    obtain ⟨a, b, hl, hp, rfl⟩ := hs h
    exact .inl ⟨.blocked, a, p, b, by simp, hl, hp, rfl⟩
  rename_i hblocked
  split
  · rename_i p r h
    obtain ⟨a, b, hl, hp, rfl⟩ := hs h
    exact .inl ⟨.auxiliar, a, p, b, by simp, hl, hp, rfl⟩
  rename_i hauxiliar
  have hno : ∀ l, l ≠ .running → l ≠ .exit → ∀ p ∈ k.listas l, p.pid ≠ pid := by
    intro l hr he
    cases l with
    | new => exact sacar_eq_none.1 hnew
    | ready => exact sacar_eq_none.1 hready
    | auxiliar => exact sacar_eq_none.1 hauxiliar
    | blocked => exact sacar_eq_none.1 hblocked
    | running => exact absurd rfl hr
    | exit => exact absurd rfl he
  split
  · rename_i hpid
    exact .inr ⟨_, rfl, .inr ⟨hpid, rfl⟩, hno⟩
  · exact .inr ⟨_, rfl, .inl rfl, hno⟩

theorem finalizarProceso_movimiento {pid : ℕ} (hU : Unica k.vista)
    (h : finalizarProceso k pid = .ok k') :
    Movimiento k.vista (.finalizarProceso pid) k'.vista := by
  obtain ⟨-, h⟩ := exigir_bind_eq_ok.1 h
  obtain ⟨-, h⟩ := exigir_bind_eq_ok.1 h
  rcases hayarPcb_casos k pid with ⟨l, a, p, b, hlista, hl, hp, hh⟩ | ⟨k₁, hh, hk₁, -⟩
  · rw [hh] at h
    obtain ⟨v₁, hlib, hv⟩ := eliminarProceso_vista (hU.veces_quitar hl) h
    rw [hv]
    exact .muerteConsola hlista hl hp hlib
  · rw [hh] at h
    cases h
    rcases hk₁ with rfl | ⟨-, rfl⟩
    · exact .quieto id
    · exact .quieto id

/-! ### The messages of the CPU -/

/-- The kernel when it handles a message of the CPU. -/
def Nucleo.sinCpu (k : Nucleo) : Nucleo := { k with enCpu := none }

theorem running_sinCpu (hc : Corre k.vista q p) : k.sinCpu.listas .running = [q] := hc.running

theorem liberarCpu_vista (k : Nucleo) :
    k.liberarCpu.vista = { k.vista with cpu := k.vista.cpu + 1 } := by
  simp only [Nucleo.vista, Nucleo.liberarCpu, Vista.mk.injEq, true_and]
  omega

theorem expulsar_vista (hU : Unica k.vista) (hc : Corre k.vista q p)
    (h : expulsar k.sinCpu p = .ok k') :
    ∃ v₁, Liberacion ({ k.vista with enCpu := none }.conLista .running []) p v₁ ∧
      k'.vista = { v₁.salir p with cpu := v₁.cpu + 1 } := by
  simp only [expulsar, running_sinCpu hc, Coleccion.remover_cons_zero, bind_eq_ok, obtenido_eq_ok,
    Option.some.injEq] at h
  obtain ⟨r, rfl, k₁, h₁, h⟩ := h
  cases h
  have hv := hU.veces_quitar (a := []) (b := []) hc.running
  rw [hc.pid] at hv
  obtain ⟨v₁, hl, hk₁⟩ := eliminarProceso_vista hv h₁
  refine ⟨v₁, hl, ?_⟩
  rw [liberarCpu_vista, hk₁]
  rfl

theorem terminar_vista (hc : Corre k.vista q p) (h : terminar k.sinCpu p = .ok k') :
    ∃ v₁, Liberacion ({ k.vista with enCpu := none }.conLista .running []) p v₁ ∧
      k'.vista = { v₁.salir p with cpu := v₁.cpu + 1 } := by
  simp only [terminar, bind_eq_ok, exigir_eq_ok, obtenido_eq_ok] at h
  obtain ⟨_, _, k₁, h₁, r, hr, h⟩ := h
  cases h
  have hl := liberarRecursosTomados_vista h₁
  have hrun : k₁.listas .running = [q] :=
    (hl.marco.listas .running (by simp) (by simp)).trans hc.running
  rw [hrun, Coleccion.remover_cons_zero, Option.some.injEq] at hr
  subst hr
  exact ⟨_, hl.conRunning [], liberarCpu_vista _⟩

theorem peticionIo_movimiento {nombre : String} {operacion : OperacionIo} (hU : Unica k.vista)
    (hc : Corre k.vista q p) (h : peticionIo k.sinCpu p nombre operacion ahora = .ok k') :
    Movimiento k.vista (.cpu p (.io nombre operacion) ahora) k'.vista := by
  unfold peticionIo at h
  cases hi : k.interfaces.valor nombre with
  | none =>
      rw [show k.sinCpu.interfaces = k.interfaces from rfl, hi] at h
      obtain ⟨v₁, hl, hv⟩ := expulsar_vista hU hc h
      rw [hv]
      exact .muerteCpu hc hi hl
  | some i =>
      rw [show k.sinCpu.interfaces = k.interfaces from rfl, hi] at h
      simp only [bind_eq_ok] at h
      obtain ⟨k₁, h₁, h⟩ := h
      obtain ⟨p', hp', -, hk₁⟩ := bloquearProceso_eq_ok (running_sinCpu hc) hc.pid h₁
      subst hk₁
      cases h
      have hp'' : ({ p' with estado := .blocked } : Pcb).Intacto p :=
        ⟨⟨hp'.pid, hp'.recursosTomados, hp'.recursoEsperando⟩, hp'.contexto⟩
      have hmov : Movimiento k.vista (.cpu p (.io nombre operacion) ahora) _ :=
        .bloqueoIo hc hi hp''
      convert hmov using 1
      simp only [Nucleo.vista, Nucleo.actualizarEstadoPcb, Nucleo.conLista, Nucleo.sinCpu,
        Nucleo.enviarAInterfaz, Vista.mk.injEq, true_and]
      omega

theorem finDeQuantum_movimiento (hc : Corre k.vista q p) (h : finDeQuantum k.sinCpu p = .ok k') :
    Movimiento k.vista (.cpu p .interrupcion ahora) k'.vista := by
  simp only [finDeQuantum, running_sinCpu hc, Coleccion.remover_cons_zero, bind_eq_ok,
    exigir_eq_ok, obtenido_eq_ok, Option.some.injEq] at h
  obtain ⟨_, _, r, rfl, h⟩ := h
  cases h
  have hmov : Movimiento k.vista (.cpu p .interrupcion ahora) _ := .finDeQuantum hc
  convert hmov using 1
  simp only [Nucleo.vista, Nucleo.actualizarEstadoPcb, Nucleo.conLista, Nucleo.sinCpu,
    Vista.mk.injEq, true_and]
  omega

theorem reanudar_vista {k₁ : Nucleo} (hr : k₁.listas .running = [q])
    (h : reanudar k₁ p = .ok k') :
    k'.vista = { k₁.vista with
      listas := Function.update k₁.vista.listas .running [p]
      enCpu := some p } := by
  simp only [reanudar, hr, Coleccion.remover_cons_zero, bind_eq_ok, obtenido_eq_ok,
    Option.some.injEq] at h
  obtain ⟨r, rfl, h⟩ := h
  cases h
  rfl

theorem motivoSignal_movimiento {recurso : String} (hc : Corre k.vista q p)
    (hr : k.recursos.valor recurso ≠ none) (h : motivoSignal k.sinCpu p recurso = .ok k') :
    Movimiento k.vista (.cpu p (.signal recurso) ahora) k'.vista := by
  simp only [motivoSignal, bind_eq_ok] at h
  obtain ⟨k₁, h₁, h⟩ := h
  have hi := recursoIncrementar_vista h₁
  have hrun : k₁.listas .running = [q] :=
    (hi.marco.listas .running (by simp) (by simp)).trans hc.running
  rw [reanudar_vista hrun h]
  exact .signal hc hr hi rfl

theorem recursoAgregarBloqueado_eq {k₁ : Nucleo} {recurso : String} {r : Recurso}
    (hr : k₁.recursos.valor recurso = some r) (pid : ℕ) :
    recursoAgregarBloqueado k₁ recurso pid
      = k₁.ponerRecurso recurso { r with bloqueados := r.bloqueados ++ [pid] } := by
  unfold recursoAgregarBloqueado
  rw [hr]

theorem motivoWait_movimiento {recurso : String} (hc : Corre k.vista q p)
    (hr : k.recursos.valor recurso ≠ none) (h : motivoWait k.sinCpu p recurso ahora = .ok k') :
    Movimiento k.vista (.cpu p (.wait recurso) ahora) k'.vista := by
  obtain ⟨r, hr⟩ := Option.ne_none_iff_exists'.1 hr
  simp only [motivoWait, recursoDecrementar, bind_eq_ok] at h
  rw [show k.sinCpu.recursos = k.recursos from rfl, hr] at h
  simp only at h
  obtain ⟨s, hs, h⟩ := h
  split at hs
  · rename_i hi
    simp only [bind_eq_ok] at hs
    obtain ⟨k₁, h₁, hs⟩ := hs
    cases hs
    cases h
    have hrun : (k.sinCpu.ponerRecurso recurso
        { r with instancias := r.instancias - 1 }).listas .running = [q] := hc.running
    obtain ⟨p', -, hp', hk₁⟩ := bloquearProceso_eq_ok hrun (by exact hc.pid) h₁
    rw [hp' rfl] at hk₁
    subst hk₁
    have hr' : ((k.sinCpu.ponerRecurso recurso
        { r with instancias := r.instancias - 1 }).recursos.valor recurso)
          = some { r with instancias := r.instancias - 1 } := by
      simp [Nucleo.ponerRecurso]
    rw [recursoAgregarBloqueado_eq (by exact hr'), liberarCpu_vista]
    have hmov : Movimiento k.vista (.cpu p (.wait recurso) ahora) _ := .bloqueoRecurso hc hr hi
    convert hmov using 1
    simp [Nucleo.vista, Nucleo.actualizarEstadoPcb, Nucleo.conLista, Nucleo.sinCpu,
      Nucleo.ponerRecurso]
  · rename_i hi
    cases hs
    rw [if_pos rfl] at h
    have hrun : (k.sinCpu.ponerRecurso recurso
        { r with instancias := r.instancias - 1 }).listas .running = [q] := hc.running
    rw [reanudar_vista hrun h]
    exact .concesion hc hr (by omega) rfl

/-- The CPU gives back the process that RUNNING holds. -/
theorem corre_of_admite {m : MensajeCpu} (hU : Unica k.vista) (h : admiteCpu k p m) :
    ∃ q, Corre k.vista q p := by
  obtain ⟨q, hq, hp⟩ := Option.map_eq_some_iff.1 h.1
  refine ⟨q, hq, ?_, hp⟩
  rw [hU.enCpu, show k.vista.enCpu = some q from hq]
  rfl

theorem atenderCpuDispatch_movimiento {m : MensajeCpu} (hU : Unica k.vista)
    (hc : Corre k.vista q p) (h : atenderCpuDispatch k.sinCpu p ahora m = .ok k') :
    Movimiento k.vista (.cpu p m ahora) k'.vista := by
  cases m with
  | io nombre operacion => exact peticionIo_movimiento hU hc h
  | interrupcion => exact finDeQuantum_movimiento hc h
  | outOfMemory =>
      obtain ⟨v₁, hl, hv⟩ := terminar_vista hc h
      rw [hv]
      exact .muerteCpu hc trivial hl
  | terminarProceso =>
      obtain ⟨v₁, hl, hv⟩ := terminar_vista hc h
      rw [hv]
      exact .muerteCpu hc trivial hl
  | wait recurso =>
      simp only [atenderCpuDispatch] at h
      split at h
      · rename_i hr
        obtain ⟨v₁, hl, hv⟩ := expulsar_vista hU hc h
        rw [hv]
        exact .muerteCpu hc hr hl
      · rename_i hr
        exact motivoWait_movimiento hc hr h
  | signal recurso =>
      simp only [atenderCpuDispatch] at h
      split at h
      · rename_i hr
        obtain ⟨v₁, hl, hv⟩ := expulsar_vista hU hc h
        rw [hv]
        exact .muerteCpu hc hr hl
      · rename_i hr
        exact motivoSignal_movimiento hc hr h

/-! ### The answers of the interfaces -/

/-- The kernel when it handles an answer of an interface. -/
def Nucleo.recibida (k : Nucleo) (nombre : String) (i : Interfaz) (pet : PeticionIo) : Nucleo :=
  { k with interfaces := k.interfaces.poner nombre { i with enviadas := i.enviadas.erase pet } }

section

variable {nombre : String} {i : Interfaz} {pet : PeticionIo}

theorem errorIo_movimiento (hU : Unica k.vista) (hi : k.interfaces.valor nombre = some i)
    (hpet : pet ∈ i.enviadas) (h : errorIo (k.recibida nombre i pet) pet.pid = .ok k') :
    Movimiento k.vista (.interfaz nombre pet .errorIo) k'.vista := by
  simp only [errorIo, bind_eq_ok, obtenido_eq_ok] at h
  obtain ⟨⟨p, r⟩, hs, h⟩ := h
  obtain ⟨a, b, hl, hp, -, rfl⟩ := sacar_eq_some hs
  have hl : k.vista.listas .blocked = a ++ p :: b := hl
  obtain ⟨v₁, hlib, hv⟩ := eliminarProceso_vista (hU.veces_quitar hl) h
  rw [hv]
  exact .errorIo hi hpet hl hp hlib

theorem ioOcupada_movimiento (hi : k.interfaces.valor nombre = some i) (hpet : pet ∈ i.enviadas)
    (h : ioOcupada (k.recibida nombre i pet) nombre pet = .ok k') :
    Movimiento k.vista (.interfaz nombre pet .ioOcupada) k'.vista := by
  simp only [ioOcupada, bind_eq_ok, obtenido_eq_ok] at h
  obtain ⟨i', hi', h⟩ := h
  cases h
  simp only [Nucleo.recibida, Coleccion.Diccionario.poner_valor, Function.update_self,
    Option.some.injEq] at hi'
  subst hi'
  convert Movimiento.ioOcupada (v := k.vista) hi hpet using 1
  simp [Nucleo.vista, Nucleo.recibida, Vista.ponerInterfaz]

theorem finIo_movimiento (hi : k.interfaces.valor nombre = some i) (hpet : pet ∈ i.enviadas)
    (h : finIo (k.recibida nombre i pet) nombre pet.pid = .ok k') :
    Movimiento k.vista (.interfaz nombre pet .finIo) k'.vista := by
  simp only [finIo, bind_eq_ok, obtenido_eq_ok] at h
  obtain ⟨k₁, h₁, i', hi', h⟩ := h
  obtain ⟨a, p, b, hl, hp, ha⟩ := exists_split (exists_of_desbloquearProceso h₁)
  have hk₁ := desbloquearProceso_eq_ok hl ha hp h₁
  rw [show (k.recibida nombre i pet).conLista .blocked (a ++ b) =
      { k.conLista .blocked (a ++ b) with
        interfaces := k.interfaces.poner nombre { i with enviadas := i.enviadas.erase pet } } from
      rfl,
    ← alistar_conInterfaces] at hk₁
  subst hk₁
  simp only [Coleccion.Diccionario.poner_valor, Function.update_self, Option.some.injEq] at hi'
  subst hi'
  have hal : Alistar (k.vista.conLista .blocked (a ++ b)) p _ :=
    alistar_vista (k.conLista .blocked (a ++ b)) p
  have hl : k.vista.listas .blocked = a ++ p :: b := hl
  have hmov := fun i' => @Movimiento.finIo _ nombre pet i i' a b p _ hi hpet hl hp hal
  have hint : ((k.conLista .blocked (a ++ b)).alistar p).interfaces = k.interfaces :=
    alistar_interfaces ..
  split at h
  · rename_i hcola
    cases h
    convert hmov _ (.ninguna hcola) using 1
    simp [Nucleo.vista, Vista.ponerInterfaz, hint]
  · rename_i io cola hcola
    split at h
    · cases h
      convert hmov _ (.descartada hcola) using 1
      simp [Nucleo.vista, Vista.ponerInterfaz, hint]
    · rename_i operacion _
      simp only [bind_eq_ok, obtenido_eq_ok] at h
      obtain ⟨pid, hpid, h⟩ := h
      cases h
      convert hmov _ (.enviada operacion hcola hpid) using 1
      simp [Nucleo.vista, Vista.ponerInterfaz, Nucleo.enviarAInterfaz, hint]

end

/-! ### Memory, the console and the threads -/

theorem moverAReady_movimiento (h : moverAReady k = .ok k') :
    Movimiento k.vista .largo k'.vista := by
  unfold moverAReady at h
  split at h
  · obtain ⟨_, h⟩ := exigir_bind_eq_ok.1 h
    cases h
    exact .quieto id
  · obtain ⟨_, h⟩ := exigir_bind_eq_ok.1 h
    simp only at h
    split at h
    · cases h
      exact .quieto id
    · cases h
      exact .quieto id
  · obtain ⟨_, h⟩ := exigir_bind_eq_ok.1 h
    obtain ⟨_, h⟩ := exigir_bind_eq_ok.1 h
    split at h
    · cases h
      exact .quieto id
    · rename_i p new hnew
      cases h
      convert Movimiento.admision (v := k.vista) hnew using 1
      simp only [Nucleo.vista, Nucleo.actualizarEstadoPcb, Nucleo.conLista, Vista.mk.injEq,
        true_and, and_true]
      omega

theorem despachar_eq (k : Nucleo) (p : Pcb) (ahora : ℤ) :
    ∃ p' : Pcb, p'.Intacto p ∧ k.despachar p ahora = { k with
      listas := agregar k.listas .running p'
      estadosProcesos := k.estadosProcesos.set (p'.pid - 1) .exec
      pidEjecutando := p'.pid
      enCpu := some p'
      dispatch := k.dispatch ++ [p'] } := by
  refine ⟨_, ?_, rfl⟩
  split
  · exact ⟨⟨rfl, rfl, rfl⟩, rfl⟩
  · exact ⟨⟨rfl, rfl, rfl⟩, rfl⟩

/-- A pass that takes the first process of one of the scheduler's queues. -/
theorem despachar_movimiento {l : Lista} {p₁ : Pcb} {resto : List Pcb} (s : Semaforos)
    (f : FaseCorto) (hl : l ∈ Lista.listos) (h : k.listas l = p :: resto) (hp : p₁.Intacto p)
    (hk : k.corto.listos = 1 ∧ k.corto.cpu = 1) (hf : f.listos = 0 ∧ f.cpu = 0)
    (hs : s.processInReady = k.sem.processInReady ∧ s.cpuFreeToExecute = k.sem.cpuFreeToExecute) :
    Movimiento k.vista (.corto ahora)
      { (k.conLista l resto).despachar p₁ ahora with sem := s, corto := f }.vista := by
  have hn : k.vista.listos = k.sem.processInReady + 1 := by
    simp [Nucleo.vista, hk.1]
  have hm : k.vista.cpu = k.sem.cpuFreeToExecute + 1 := by
    simp [Nucleo.vista, hk.2]
  obtain ⟨p', hp', hd⟩ := despachar_eq (k.conLista l resto) p₁ ahora
  have hmov : Movimiento k.vista (.corto ahora) _ := .despacho hl h (hp'.trans hp) hn hm
  rw [hd]
  convert hmov using 1
  simp [Nucleo.vista, Nucleo.conLista, hf, hs]

theorem pasada_movimiento (hf : k.corto = .esperaPlanificacion) :
    Movimiento k.vista (.corto ahora) (pasada k ahora).vista := by
  have hk : k.corto.listos = 1 ∧ k.corto.cpu = 1 := by
    simp [hf, FaseCorto.listos, FaseCorto.cpu]
  have hn : k.vista.listos = k.sem.processInReady + 1 := by
    simp [Nucleo.vista, hk.1]
  have hm : k.vista.cpu = k.sem.cpuFreeToExecute + 1 := by
    simp [Nucleo.vista, hk.2]
  unfold pasada
  split
  · rename_i halg
    split
    · rename_i hready
      exact .pasadaVacia hn hm (by simp [Nucleo.vista, halg]) (fun _ => hready)
        (by simp [Nucleo.vista, halg])
    · rename_i p ready hready
      exact despachar_movimiento k.sem .esperaCpu (by simp) hready (.refl p) hk ⟨rfl, rfl⟩
        ⟨rfl, rfl⟩
  · convert Movimiento.quieto (v := k.vista) (e := .corto ahora) id using 1
    simp [Nucleo.vista, hf, FaseCorto.listos, FaseCorto.cpu]
  · rename_i halg
    split
    · rename_i p auxiliar haux
      exact despachar_movimiento k.sem (.cuenta p.pid ahora p.quantum) (by simp) haux (.refl p)
        hk ⟨rfl, rfl⟩ ⟨rfl, rfl⟩
    · rename_i haux
      split
      · rename_i p ready hready
        exact despachar_movimiento k.sem (.cuenta p.pid ahora k.config.quantum) (by simp) hready
          ⟨⟨rfl, rfl, rfl⟩, rfl⟩ hk ⟨rfl, rfl⟩ ⟨rfl, rfl⟩
      · rename_i hready
        exact .pasadaVacia hn hm (by simp [Nucleo.vista, halg]) (by simp [Nucleo.vista, halg])
          (fun _ => ⟨hready, haux⟩)
  · rename_i halg
    exact .pasadaVacia hn hm (by simp [Nucleo.vista, halg]) (by simp [Nucleo.vista, halg])
      (by simp [Nucleo.vista, halg])

theorem contadorQuantumVrr_vista {pid : ℕ} {t₀ quantum : ℤ} (hf : k.corto = .cuenta pid t₀ quantum)
    (h : contadorQuantumVrr k pid t₀ quantum ahora = .ok k') : k'.vista = k.vista := by
  simp only [contadorQuantumVrr, bind_eq_ok] at h
  obtain ⟨_, _, h⟩ := h
  have hlibre : ∀ k₁ : Nucleo, k₁.vista = k.vista → k₁.corto = k.corto →
      { k₁ with corto := .esperaCpu }.vista = k.vista := by
    intro k₁ hv hc
    rw [← hv]
    simp [Nucleo.vista, hc, hf, FaseCorto.listos, FaseCorto.cpu]
  split at h
  · cases h
    exact hlibre k rfl rfl
  · split at h
    · split at h
      · cases h
        exact hlibre (k.interrumpirProceso k.pidEjecutando) rfl rfl
      · cases h
        exact hlibre k rfl rfl
    · cases h
      rfl

theorem planificadorCortoPlazo_movimiento (h : planificadorCortoPlazo k ahora = .ok k') :
    Movimiento k.vista (.corto ahora) k'.vista := by
  unfold planificadorCortoPlazo at h
  split at h
  · rename_i hf
    obtain ⟨hs, h⟩ := exigir_bind_eq_ok.1 h
    cases h
    convert Movimiento.quieto (v := k.vista) (e := .corto ahora) id using 1
    simp [Nucleo.vista, hf, FaseCorto.listos, FaseCorto.cpu]
    omega
  · rename_i hf
    obtain ⟨hs, h⟩ := exigir_bind_eq_ok.1 h
    cases h
    convert Movimiento.quieto (v := k.vista) (e := .corto ahora) id using 1
    simp [Nucleo.vista, hf, FaseCorto.listos, FaseCorto.cpu]
    omega
  · rename_i hf
    obtain ⟨hs, h⟩ := exigir_bind_eq_ok.1 h
    cases h
    exact pasada_movimiento hf
  · rename_i hf
    simp only [bind_eq_ok, exigir_eq_ok, obtenido_eq_ok] at h
    obtain ⟨_, hs, ⟨p, r⟩, hr, h⟩ := h
    cases h
    have hready : k.listas .ready = p :: r := Coleccion.remover_zero_eq_some.1 hr
    refine despachar_movimiento _ .esperaCpu (by simp) hready (.refl p) ?_ ⟨rfl, rfl⟩ ⟨rfl, rfl⟩
    simp [hf, FaseCorto.listos, FaseCorto.cpu]
  · rename_i hf
    rw [contadorQuantumVrr_vista hf h]
    exact .quieto id

theorem contadorQuantumRr_vista (h : contadorQuantumRr k = .ok k') : k'.vista = k.vista := by
  unfold contadorQuantumRr at h
  split at h
  · obtain ⟨_, h⟩ := exigir_bind_eq_ok.1 h
    cases h
    rfl
  · split at h
    · cases h
      rfl
    · cases h
      rfl

theorem detenerPlanificacion_vista (h : detenerPlanificacion k = .ok k') : k'.vista = k.vista := by
  unfold detenerPlanificacion at h
  split at h
  · simp only [bind_eq_ok, exigir_eq_ok] at h
    obtain ⟨_, _, _, _, h⟩ := h
    cases h
    rfl
  · cases h
    rfl

theorem iniciarPlanificacion_vista (k : Nucleo) : (iniciarPlanificacion k).vista = k.vista := by
  unfold iniciarPlanificacion
  split <;> rfl

/-- **The refinement.**  The handling of an event is a movement of the planner. -/
theorem manejar_movimiento {e : Evento} (hU : Unica k.vista) (he : admite k e)
    (h : manejar k e = .ok k') : Movimiento k.vista e k'.vista := by
  cases e with
  | iniciarProceso =>
      obtain ⟨-, rfl⟩ := crearProceso_eq_ok.1 h
      exact .creacion
  | finalizarProceso pid => exact finalizarProceso_movimiento hU h
  | iniciarPlanificacion =>
      cases h
      rw [iniciarPlanificacion_vista]
      exact .quieto id
  | detenerPlanificacion =>
      rw [detenerPlanificacion_vista h]
      exact .quieto id
  | multiprogramacion valor =>
      cases h
      exact .quieto id
  | cpu p m ahora =>
      obtain ⟨q, hc⟩ := corre_of_admite hU he
      exact atenderCpuDispatch_movimiento hU hc h
  | interfaz nombre pet r =>
      obtain ⟨i, hi, hpet, -⟩ := he
      simp only [manejar, bind_eq_ok, obtenido_eq_ok] at h
      obtain ⟨i', hi', h⟩ := h
      rw [hi] at hi'
      cases hi'
      cases r with
      | errorIo => exact errorIo_movimiento hU hi hpet h
      | ioOcupada => exact ioOcupada_movimiento hi hpet h
      | finIo => exact finIo_movimiento hi hpet h
  | conexionIo nombre tipoInterfaz =>
      cases h
      exact .conexionIo he
  | memoria m =>
      cases h
      cases m <;> exact .quieto id
  | corto ahora => exact planificadorCortoPlazo_movimiento h
  | reloj =>
      rw [contadorQuantumRr_vista h]
      exact .quieto id
  | largo => exact moverAReady_movimiento h

/-- The invariant rule for the kernel: an invariant of the view that holds initially and is kept by
the movements under the condition holds of every state reached under it. -/
theorem invariante_vista {C : Vista → Evento → Prop} {I : Vista → Prop}
    (h₀ : ∀ config, I (iniciar config).vista)
    (hp : ∀ v e v', Base v → I v → C v e → Movimiento v e v' → I v')
    (h : Transicion.AlcanzableCon sistema (fun k e => C k.vista e) k) :
    Base k.vista ∧ I k.vista := by
  refine h.invariante (I := fun k => Base k.vista ∧ I k.vista) ?_ ?_
  · rintro _ ⟨config, rfl⟩
    exact ⟨base_iniciar config, h₀ config⟩
  · rintro k e k' ⟨hB, hI⟩ hC ⟨he, hm⟩
    have hmov := manejar_movimiento hB.unica he hm
    exact ⟨hmov.base hB, hp _ e _ hB hI hC hmov⟩

/-- In every state each process is in one list, and RUNNING holds the one at the CPU. -/
theorem base_alcanzable (h : Transicion.Alcanzable sistema k) : Base k.vista :=
  (invariante_vista (C := fun _ _ => True) (I := fun _ => True) (fun _ => trivial)
    (fun _ _ _ _ _ _ _ => trivial) h).1

end Kernel
