/-
**Who comes to BLOCKED and to the priority queue.**

The quantum of a PCB matters while its process is in BLOCKED or in the priority queue of VRR.  The
handlers that wake processes, kill them or send them to the CPU bring to these two lists nobody who
was not blocked; the process whose message is handled comes to BLOCKED, with its quantum as
`bloquear_proceso` leaves it.

Main definitions:

* `Kernel.Encola` — who comes to the two lists was blocked;
* `Kernel.Bloquea`, `Kernel.Nucleo.quantumTras` — a process is blocked, and what it is left with;
* `Kernel.Encolado` — what an event does to the two lists.

Main results:

* `Kernel.liberarRecursosTomados_encola`, `Kernel.bloquearProceso_bloquea` — the functions that
  several handlers share;
* `Kernel.manejar_encolado` — the handling of an event.
-/

import TpSisop.KernelRefinamiento

set_option relaxedAutoImplicit false
set_option autoImplicit false

namespace Kernel

open Familia (agregar)
open Resultado (Cumple bind_eq_ok)

variable {k k' k₁ : Nucleo} {p q : Pcb} {ahora : ℤ}

/-! ### Where the PCBs of the queues come from -/

/-- Two PCBs of the same process, with the same quantum. -/
structure Pcb.MismoQuantum (q p : Pcb) : Prop where
  pid : q.pid = p.pid
  quantum : q.quantum = p.quantum

theorem Pcb.MismoQuantum.trans {r : Pcb} (h₁ : q.MismoQuantum p) (h₂ : p.MismoQuantum r) :
    q.MismoQuantum r := ⟨h₁.pid.trans h₂.pid, h₁.quantum.trans h₂.quantum⟩

/-- Nobody is blocked, and whoever comes to the priority queue was blocked and has some of its
quantum left. -/
structure Encola (k k' : Nucleo) : Prop where
  quantum : k'.config.quantum = k.config.quantum
  auxiliar : ∀ p ∈ k'.listas .auxiliar, p ∈ k.listas .auxiliar ∨
    (∃ q ∈ k.listas .blocked, q.MismoQuantum p) ∧ 0 < p.quantum ∧ p.quantum < k.config.quantum
  blocked : ∀ p ∈ k'.listas .blocked, ∃ q ∈ k.listas .blocked, q.MismoQuantum p

theorem Encola.trans (h₁ : Encola k k₁) (h₂ : Encola k₁ k') : Encola k k' := by
  refine ⟨h₂.quantum.trans h₁.quantum, fun p hp => ?_, fun p hp => ?_⟩
  · rcases h₂.auxiliar p hp with hp | ⟨⟨q, hq, hqp⟩, hpos, hlt⟩
    · exact h₁.auxiliar p hp
    · obtain ⟨r, hr, hrq⟩ := h₁.blocked q hq
      exact .inr ⟨⟨r, hr, hrq.trans hqp⟩, hpos, h₁.quantum ▸ hlt⟩
  · obtain ⟨q, hq, hqp⟩ := h₂.blocked p hp
    obtain ⟨r, hr, hrq⟩ := h₁.blocked q hq
    exact ⟨r, hr, hrq.trans hqp⟩

/-- Nothing came to either queue. -/
theorem encola_of_subset (hq : k'.config.quantum = k.config.quantum)
    (ha : ∀ p ∈ k'.listas .auxiliar, p ∈ k.listas .auxiliar)
    (hb : ∀ p ∈ k'.listas .blocked, p ∈ k.listas .blocked) : Encola k k' :=
  ⟨hq, fun p hp => .inl (ha p hp), fun p hp => ⟨p, hb p hp, rfl, rfl⟩⟩

theorem encola_of_eq (hq : k'.config.quantum = k.config.quantum) (hl : k'.listas = k.listas) :
    Encola k k' :=
  encola_of_subset hq (by simp [hl]) (by simp [hl])

theorem Encola.refl (k : Nucleo) : Encola k k := encola_of_eq rfl rfl

/-- A PCB is taken from a list. -/
theorem conLista_encola {l : Lista} {a b : List Pcb} (hl : k.listas l = a ++ p :: b) :
    Encola k (k.conLista l (a ++ b)) :=
  encola_of_subset rfl (fun _ => Familia.mem_of_quitar hl) (fun _ => Familia.mem_of_quitar hl)

/-- A PCB is put in a list that is neither of the two. -/
theorem actualizarEstadoPcb_encola (k : Nucleo) (p : Pcb) (e : EstadoCode) {l : Lista}
    (ha : l ≠ .auxiliar) (hb : l ≠ .blocked) : Encola k (k.actualizarEstadoPcb p e l) :=
  encola_of_subset rfl
    (by simp [Nucleo.actualizarEstadoPcb, ha.symm]) (by simp [Nucleo.actualizarEstadoPcb, hb.symm])

theorem salir_encola (k : Nucleo) (p : Pcb) : Encola k (k.salir p) :=
  (actualizarEstadoPcb_encola k _ .exitt (l := .exit) (by decide) (by decide)).trans
    (encola_of_eq rfl rfl)

/-- A PCB of BLOCKED is replaced by one with the same quantum. -/
theorem reemplazar_encola {a b : List Pcb} (hl : k.listas .blocked = a ++ p :: b)
    (hp : p.MismoQuantum q) : Encola k (k.conLista .blocked (a ++ q :: b)) := by
  refine ⟨rfl, fun r hr => .inl (by simpa [Nucleo.conLista] using hr), fun r hr => ?_⟩
  simp only [Nucleo.conLista, Function.update_self, List.mem_append, List.mem_cons] at hr
  rw [hl]
  rcases hr with hr | rfl | hr
  · exact ⟨r, by simp [hr], rfl, rfl⟩
  · exact ⟨p, by simp, hp⟩
  · exact ⟨r, by simp [hr], rfl, rfl⟩

/-- A PCB of BLOCKED is woken. -/
theorem alistar_encola {a b : List Pcb} (hl : k.listas .blocked = a ++ p :: b) :
    Encola k ((k.conLista .blocked (a ++ b)).alistar p) := by
  have hp : p ∈ k.listas .blocked := by simp [hl]
  unfold Nucleo.alistar
  split
  · rename_i hvrr
    have hmem : ∀ (l : Lista) (r : Pcb),
        r ∈ agregar (Function.update k.listas .blocked (a ++ b)) .auxiliar
          { p with estado := .readyAux } l →
        r ∈ k.listas l ∨ l = .auxiliar ∧ r = { p with estado := .readyAux } := by
      intro l r hr
      exact (Familia.mem_agregar.1 hr).imp_left (Familia.mem_of_quitar hl)
    refine ⟨rfl, fun r hr => ?_, fun r hr => ?_⟩
    · rcases hmem .auxiliar r hr with hr | ⟨-, rfl⟩
      · exact .inl hr
      · exact .inr ⟨⟨p, hp, rfl, rfl⟩, hvrr.2.2, hvrr.2.1⟩
    · rcases hmem .blocked r hr with hr | ⟨hr, -⟩
      · exact ⟨r, hr, rfl, rfl⟩
      · cases hr
  · exact ((conLista_encola hl).trans (actualizarEstadoPcb_encola _ p .ready (l := .ready)
      (by decide) (by decide))).trans (encola_of_eq rfl rfl)

/-- A handler that reaches its end brings nobody else to the two queues. -/
abbrev Encolan (k : Nucleo) : Except Corte Nucleo → Prop := Cumple (fun _ => False) (Encola k)

theorem desbloquearProceso_encola (k : Nucleo) (pid : ℕ) :
    Encolan k (desbloquearProceso k pid) := by
  refine (exigir_cumple id).bind fun _ _ _ => (obtenido_cumple False.elim).bind fun r _ hr => ?_
  obtain ⟨a, b, hl, -, -, hr₂⟩ := sacar_eq_some (p := r.1) (r := r.2) hr
  rw [hr₂]
  exact alistar_encola hl

theorem ponerRecurso_encola (k : Nucleo) (n : String) (r : Recurso) :
    Encola k (k.ponerRecurso n r) := encola_of_eq rfl rfl

theorem recursoIncrementar_encola (k : Nucleo) (recurso : String) :
    Encolan k (recursoIncrementar k recurso) := by
  refine recursoIncrementar_regla False.elim (.refl k) (ponerRecurso_encola k recurso) ?_
  intro r a p b hl
  have h₁ := ponerRecurso_encola k recurso r
  have h₂ : Encola (k.ponerRecurso recurso r) _ :=
    reemplazar_encola hl (q := p.otorgar recurso) ⟨rfl, rfl⟩
  exact (desbloquearProceso_encola _ p.pid).mono fun k' _ h' => (h₁.trans h₂).trans h'

theorem liberarRecursosTomados_encola (k : Nucleo) (p : Pcb) :
    Encolan k (liberarRecursosTomados k p) := by
  refine liberarRecursosTomados_regla id (fun k₁ n h₁ => ?_) (fun k₁ n r h₁ => ?_) (.refl k) p
  · exact (recursoIncrementar_encola k₁ n).mono fun k' _ h' => h₁.trans h'
  · exact h₁.trans (ponerRecurso_encola k₁ n r)

theorem eliminarProceso_encola (k : Nucleo) (p : Pcb) : Encolan k (eliminarProceso k p) := by
  unfold eliminarProceso
  split
  · exact encola_of_eq rfl rfl
  · refine (liberarRecursosTomados_encola k p).bind fun k₁ _ h₁ => ?_
    exact (exigir_cumple id).bind fun _ _ _ => h₁.trans (salir_encola k₁ p)

theorem errorIo_encola (k : Nucleo) (pid : ℕ) : Encolan k (errorIo k pid) := by
  refine (obtenido_cumple False.elim).bind fun r _ hr => ?_
  obtain ⟨a, b, hl, -, -, hr₂⟩ := sacar_eq_some (p := r.1) (r := r.2) hr
  rw [hr₂]
  exact (eliminarProceso_encola _ _).mono fun k' _ h' => (conLista_encola hl).trans h'

theorem finIo_encola (k : Nucleo) (nombre : String) (pid : ℕ) :
    Encolan k (finIo k nombre pid) := by
  refine finIo_regla id (desbloquearProceso_encola k pid) (fun k₁ d h₁ => ?_) nombre
  exact h₁.trans (encola_of_eq rfl rfl)

theorem atenderIo_encola (k : Nucleo) (nombre : String) (pet : PeticionIo) (r : RespuestaIo) :
    Encolan k (atenderIo k nombre pet r) := by
  cases r with
  | errorIo => exact errorIo_encola k pet.pid
  | ioOcupada => exact (obtenido_cumple False.elim).bind fun _ _ _ => encola_of_eq rfl rfl
  | finIo => exact finIo_encola k nombre pet.pid

theorem finalizarProceso_encola (k : Nucleo) (pid : ℕ) : Encolan k (finalizarProceso k pid) := by
  refine (exigir_cumple id).bind fun _ _ _ => (exigir_cumple id).bind fun _ _ _ => ?_
  rcases hayarPcb_casos k pid with ⟨l, a, p, b, -, hl, -, hh⟩ | ⟨k₁, hh, hk₁, -⟩
  · rw [hh]
    exact (eliminarProceso_encola _ _).mono fun k' _ h' => (conLista_encola hl).trans h'
  · rw [hh]
    rcases hk₁ with rfl | ⟨-, rfl⟩
    · exact .refl _
    · exact encola_of_eq rfl rfl

theorem moverAReady_encola (k : Nucleo) : Encolan k (moverAReady k) := by
  unfold moverAReady
  split
  · exact (exigir_cumple id).bind fun _ _ _ => encola_of_eq rfl rfl
  · refine (exigir_cumple id).bind fun _ _ _ => ?_
    simp only
    split
    · exact encola_of_eq rfl rfl
    · exact encola_of_eq rfl rfl
  · refine (exigir_cumple id).bind fun _ _ _ => (exigir_cumple id).bind fun _ _ _ => ?_
    split
    · exact encola_of_eq rfl rfl
    · rename_i p new hnew
      exact ((conLista_encola (a := []) hnew).trans (actualizarEstadoPcb_encola _ p .ready
        (l := .ready) (by decide) (by decide))).trans (encola_of_eq rfl rfl)

/-! ### The messages of the CPU -/

/-- One PCB comes to BLOCKED. -/
structure Bloquea (k k' : Nucleo) (p : Pcb) : Prop where
  quantum : k'.config.quantum = k.config.quantum
  auxiliar : ∀ q ∈ k'.listas .auxiliar, q ∈ k.listas .auxiliar
  blocked : ∀ q ∈ k'.listas .blocked, q ∈ k.listas .blocked ∨ q = p
  mem : p ∈ k'.listas .blocked

theorem Bloquea.of_eq (h : Bloquea k k₁ p) (hq : k'.config = k₁.config)
    (hl : k'.listas = k₁.listas) : Bloquea k k' p :=
  ⟨hq ▸ h.quantum, hl ▸ h.auxiliar, hl ▸ h.blocked, hl ▸ h.mem⟩

/-- The quantum of a process that blocks. -/
def Nucleo.quantumTras (k : Nucleo) (p : Pcb) (esIo : Bool) (ahora : ℤ) : ℤ :=
  if esIo ∧ k.config.algoritmo = .vrr then p.quantum - (ahora - p.tiempoInicial) else p.quantum

theorem bloquearProceso_bloquea (k : Nucleo) (p : Pcb) (esIo : Bool) (ahora : ℤ) :
    Cumple (fun _ => False)
      (fun k' => ∃ p', p'.pid = p.pid ∧ p'.quantum = k.quantumTras p esIo ahora ∧ Bloquea k k' p')
      (bloquearProceso k p esIo ahora) := by
  refine (exigir_cumple id).bind fun _ _ _ => (obtenido_cumple False.elim).bind fun r _ hr => ?_
  obtain ⟨a, b, hl, -, -, hr₂⟩ := sacar_eq_some (p := r.1) (r := r.2) hr
  have hcob : ∀ q : Pcb, Bloquea k
      (({ k with pidEjecutando := 0 }.conLista .running r.2).actualizarEstadoPcb q .blocked
        .blocked) { q with estado := .blocked } := by
    intro q
    refine ⟨rfl, fun r hr => ?_, fun r hr => ?_, ?_⟩
    · simpa [Nucleo.actualizarEstadoPcb, Nucleo.conLista] using hr
    · simpa [Nucleo.actualizarEstadoPcb, Nucleo.conLista] using hr
    · simp [Nucleo.actualizarEstadoPcb]
  refine ⟨_, ?_, ?_, hcob _⟩
  · show Pcb.pid (if _ then _ else _) = _
    split <;> rfl
  · show Pcb.quantum (if _ then _ else _) = _
    rw [Nucleo.quantumTras]
    split <;> rfl

/-- The message is a request for I/O. -/
def MensajeCpu.esIo : MensajeCpu → Bool
  | .io _ _ => true
  | _ => false

/-- What an event brings to BLOCKED and to the priority queue: nobody new, or the process whose
message is handled. -/
inductive Encolado (k : Nucleo) : Evento → Nucleo → Prop
  | nadie {e : Evento} {k' : Nucleo} (h : Encola k k') : Encolado k e k'
  | bloqueo {p p' : Pcb} {m : MensajeCpu} {ahora : ℤ} {k' : Nucleo} (hpid : p'.pid = p.pid)
      (hq : p'.quantum = k.quantumTras p m.esIo ahora) (h : Bloquea k k' p') :
      Encolado k (.cpu p m ahora) k'

theorem reanudar_encola (hrun : k.listas .running = [q]) : Encolan k (reanudar k p) := by
  refine (obtenido_cumple False.elim).bind fun r _ hr => ?_
  rw [hrun, Coleccion.remover_cons_zero, Option.some.injEq] at hr
  subst hr
  exact encola_of_subset rfl (by simp [Nucleo.enviarSiguientePcb, Nucleo.conLista])
    (by simp [Nucleo.enviarSiguientePcb, Nucleo.conLista])

theorem motivoSignal_encola (hrun : k.listas .running = [q]) (recurso : String) :
    Encolan k (motivoSignal k p recurso) := by
  refine (recursoIncrementar_encola k recurso).bind fun k₁ h h₁ => ?_
  have hrun₁ : k₁.listas .running = [q] :=
    ((recursoIncrementar_vista h).marco.listas .running (by simp) (by simp)).trans hrun
  exact (reanudar_encola hrun₁).mono fun k' _ h' => h₁.trans h'

theorem motivoWait_encolado (hrun : k.listas .running = [q]) (recurso : String) :
    Cumple (fun _ => False) (fun k' => Encolado k (.cpu p (.wait recurso) ahora) k')
      (motivoWait k p recurso ahora) := by
  unfold motivoWait recursoDecrementar
  cases k.recursos.valor recurso with
  | none => exact .nadie (.refl k)
  | some r =>
      have h₁ := ponerRecurso_encola k recurso { r with instancias := r.instancias - 1 }
      simp only
      split
      · rw [bind_assoc]
        refine (bloquearProceso_bloquea _ _ false ahora).bind fun k₁ _ h => ?_
        obtain ⟨p', hpid, hq, hb⟩ := h
        have hb₁ : Bloquea k k₁ p' := ⟨hb.quantum, hb.auxiliar, hb.blocked, hb.mem⟩
        refine .bloqueo hpid hq (hb₁.of_eq ?_ ?_)
        · show (recursoAgregarBloqueado k₁ recurso p.pid).config = _
          unfold recursoAgregarBloqueado
          split <;> rfl
        · show (recursoAgregarBloqueado k₁ recurso p.pid).listas = _
          unfold recursoAgregarBloqueado
          split <;> rfl
      · have hrun₁ : (k.ponerRecurso recurso
            { r with instancias := r.instancias - 1 }).listas .running = [q] := hrun
        exact (reanudar_encola hrun₁).mono fun k' _ h' => .nadie (h₁.trans h')

theorem quitarRunning_encola (hrun : k.listas .running = [q]) :
    Encola k (k.conLista .running []) := conLista_encola (a := []) hrun

theorem expulsar_encola (hrun : k.listas .running = [q]) : Encolan k (expulsar k p) := by
  refine (obtenido_cumple False.elim).bind fun r _ hr => ?_
  rw [hrun, Coleccion.remover_cons_zero, Option.some.injEq] at hr
  subst hr
  exact (eliminarProceso_encola _ _).bind fun k₁ _ h₁ =>
    ((quitarRunning_encola hrun).trans h₁).trans (encola_of_eq rfl rfl)

theorem terminar_encola (hrun : k.listas .running = [q]) : Encolan k (terminar k p) := by
  refine (exigir_cumple id).bind fun _ _ _ => ?_
  refine (liberarRecursosTomados_encola k p).bind fun k₁ h h₁ => ?_
  have hrun₁ : k₁.listas .running = [q] :=
    ((liberarRecursosTomados_vista h).marco.listas .running (by simp) (by simp)).trans hrun
  refine (obtenido_cumple False.elim).bind fun r _ hr => ?_
  rw [hrun₁, Coleccion.remover_cons_zero, Option.some.injEq] at hr
  subst hr
  exact ((h₁.trans (quitarRunning_encola hrun₁)).trans (salir_encola ..)).trans
    (encola_of_eq rfl rfl)

theorem finDeQuantum_encola (hrun : k.listas .running = [q]) : Encolan k (finDeQuantum k p) := by
  refine (exigir_cumple id).bind fun _ _ _ => (obtenido_cumple False.elim).bind fun r _ hr => ?_
  rw [hrun, Coleccion.remover_cons_zero, Option.some.injEq] at hr
  subst hr
  exact ((quitarRunning_encola hrun).trans (actualizarEstadoPcb_encola _ p .ready (l := .ready)
    (by decide) (by decide))).trans (encola_of_eq rfl rfl)

theorem atenderCpuDispatch_encolado (hrun : k.listas .running = [q]) (m : MensajeCpu) :
    Cumple (fun _ => False) (Encolado k (.cpu p m ahora)) (atenderCpuDispatch k p ahora m) := by
  have hnadie : ∀ {r}, Encolan k r → Cumple (fun _ => False) (Encolado k (.cpu p m ahora)) r :=
    fun h => h.mono fun _ _ => .nadie
  cases m with
  | io nombre operacion =>
      simp only [atenderCpuDispatch, peticionIo]
      cases k.interfaces.valor nombre with
      | none => exact hnadie (expulsar_encola hrun)
      | some i =>
          refine (bloquearProceso_bloquea k p true ahora).bind fun k₁ _ h => ?_
          obtain ⟨p', hpid, hq, hb⟩ := h
          exact .bloqueo hpid hq (hb.of_eq rfl rfl)
  | interrupcion => exact hnadie (finDeQuantum_encola hrun)
  | outOfMemory => exact hnadie (terminar_encola hrun)
  | terminarProceso => exact hnadie (terminar_encola hrun)
  | wait recurso =>
      simp only [atenderCpuDispatch]
      split
      · exact hnadie (expulsar_encola hrun)
      · exact motivoWait_encolado hrun recurso
  | signal recurso =>
      simp only [atenderCpuDispatch]
      split
      · exact hnadie (expulsar_encola hrun)
      · exact hnadie (motivoSignal_encola hrun recurso)

/-! ### The scheduler -/

theorem despachar_encola (k : Nucleo) (p : Pcb) (ahora : ℤ) : Encola k (k.despachar p ahora) := by
  obtain ⟨p', -, hd⟩ := despachar_eq k p ahora
  rw [hd]
  exact encola_of_subset rfl (by simp) (by simp)

theorem despachar_primero_encola {l : Lista} {resto : List Pcb} (hl : k.listas l = p :: resto)
    (q : Pcb) (ahora : ℤ) (s : Semaforos) (f : FaseCorto) :
    Encola k { (k.conLista l resto).despachar q ahora with sem := s, corto := f } :=
  ((conLista_encola (a := []) hl).trans (despachar_encola ..)).trans (encola_of_eq rfl rfl)

theorem pasada_encola (k : Nucleo) (ahora : ℤ) : Encola k (pasada k ahora) := by
  unfold pasada
  split
  · split
    · exact encola_of_eq rfl rfl
    · rename_i p ready hready
      exact despachar_primero_encola hready p ahora k.sem _
  · exact encola_of_eq rfl rfl
  · split
    · rename_i p auxiliar haux
      exact despachar_primero_encola haux p ahora k.sem _
    · split
      · rename_i p ready hready
        exact despachar_primero_encola hready _ ahora k.sem _
      · exact encola_of_eq rfl rfl
  · exact encola_of_eq rfl rfl

theorem planificadorCortoPlazo_encola (k : Nucleo) (ahora : ℤ) :
    Encolan k (planificadorCortoPlazo k ahora) := by
  unfold planificadorCortoPlazo
  split
  · exact (exigir_cumple id).bind fun _ _ _ => encola_of_eq rfl rfl
  · exact (exigir_cumple id).bind fun _ _ _ => encola_of_eq rfl rfl
  · exact (exigir_cumple id).bind fun _ _ _ => pasada_encola k ahora
  · refine (exigir_cumple id).bind fun _ _ _ => (obtenido_cumple False.elim).bind fun r _ hr => ?_
    exact despachar_primero_encola (Coleccion.remover_zero_eq_some.1 hr) r.1 ahora _ _
  · refine (obtenido_cumple False.elim).bind fun estado _ _ => ?_
    split
    · exact encola_of_eq rfl rfl
    · split
      · split
        · exact encola_of_eq rfl rfl
        · exact encola_of_eq rfl rfl
      · exact .refl k

theorem contadorQuantumRr_encola (k : Nucleo) : Encolan k (contadorQuantumRr k) := by
  unfold contadorQuantumRr
  split
  · exact (exigir_cumple id).bind fun _ _ _ => encola_of_eq rfl rfl
  · split
    · exact encola_of_eq rfl rfl
    · exact encola_of_eq rfl rfl

/-- **Who comes to BLOCKED and to the priority queue.** -/
theorem manejar_encolado {e : Evento} (hB : Base k.vista) (he : admite k e)
    (h : manejar k e = .ok k') : Encolado k e k' := by
  cases e with
  | iniciarProceso =>
      obtain ⟨-, rfl⟩ := crearProceso_eq_ok.1 h
      exact .nadie
        (encola_of_subset rfl (by simp [Nucleo.conProceso]) (by simp [Nucleo.conProceso]))
  | finalizarProceso pid => exact .nadie ((finalizarProceso_encola k pid).of_eq_ok h)
  | iniciarPlanificacion =>
      cases h
      refine .nadie ?_
      unfold iniciarPlanificacion
      split
      · exact .refl k
      · exact encola_of_eq rfl rfl
  | detenerPlanificacion =>
      have hc : Encolan k (detenerPlanificacion k) := by
        unfold detenerPlanificacion
        split
        · exact (exigir_cumple id).bind fun _ _ _ => (exigir_cumple id).bind fun _ _ _ =>
            encola_of_eq rfl rfl
        · exact .refl k
      exact .nadie (hc.of_eq_ok h)
  | multiprogramacion valor =>
      cases h
      exact .nadie (encola_of_eq rfl rfl)
  | cpu p m ahora =>
      obtain ⟨q, hc⟩ := corre_of_admite hB.unica he
      have hm : Encolado k.sinCpu (.cpu p m ahora) k' :=
        (atenderCpuDispatch_encolado (running_sinCpu hc) m).of_eq_ok h
      cases hm with
      | nadie h => exact .nadie ⟨h.quantum, h.auxiliar, h.blocked⟩
      | bloqueo hpid hq h => exact .bloqueo hpid hq ⟨h.quantum, h.auxiliar, h.blocked, h.mem⟩
  | interfaz nombre pet r =>
      have hc : Encolan k (manejar k (.interfaz nombre pet r)) :=
        (obtenido_cumple False.elim).bind fun i _ _ =>
          (atenderIo_encola (k.recibida nombre i pet) nombre pet r).mono fun _ _ h' =>
            (encola_of_eq rfl rfl : Encola k (k.recibida nombre i pet)).trans h'
      exact .nadie (hc.of_eq_ok h)
  | conexionIo nombre tipoInterfaz =>
      cases h
      exact .nadie (encola_of_eq rfl rfl)
  | memoria m =>
      cases h
      cases m <;> exact .nadie (encola_of_eq rfl rfl)
  | corto ahora => exact .nadie ((planificadorCortoPlazo_encola k ahora).of_eq_ok h)
  | reloj => exact .nadie ((contadorQuantumRr_encola k).of_eq_ok h)
  | largo => exact .nadie ((moverAReady_encola k).of_eq_ok h)

end Kernel
