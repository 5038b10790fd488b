/-
**What a pause freezes.**

Once DETENER_PLANIFICACION has returned, the console has `sem_planificacion` and
`sem_planificacion_largo`, and no other thread gets past a wait for either.  Every list is changed
with one of the two in hand, with two exceptions: a process whose request names an interface or a
resource that does not exist is taken from RUNNING, and one whose request its interface refuses is
taken from BLOCKED, before `eliminar_proceso` waits for `sem_planificacion_largo`.  So a pause
freezes the lists as long as none of these comes, and each of them takes a process from its list.

Main definitions:

* `KernelHebras.EnPausa` — between DETENER_PLANIFICACION and INICIAR_PLANIFICACION;
* `KernelHebras.quita`, `KernelHebras.Desaloja` — the two steps;
* `KernelHebras.Congela` — the processes of each list stay in it, in their order.

Main results:

* `KernelHebras.Hace.congela`, `KernelHebras.congela_paso` — one step;
* `KernelHebras.congela_en_pausa`, `KernelHebras.pausa_congela` — a pause.
-/

import TpSisop.KernelTurno

set_option relaxedAutoImplicit false
set_option autoImplicit false

namespace KernelHebras

open Kernel (Nucleo Pcb Lista Evento)

variable {k k' k'' : Nucleo} {o : Accion} {e r : Codigo} {h : Hebra} {P : Cerrojo → Prop}
  {s s' s₀ : Estado} {a : Suceso}

/-- What INICIAR_PROCESO does. -/
def Crea : Orden → Prop
  | .hacer .crearPcb | .hacer (.copiarMListNew _) | .hacer (.agregarANew _) => True
  | _ => False

/-- The console has returned from DETENER_PLANIFICACION, and may be creating a process. -/
def EnPausa (s : Estado) : Prop := s.nucleo.pausar = false ∧ ∀ x ∈ s.codigo .consola, Crea x

/-- The instruction takes a process from RUNNING or BLOCKED without a semaphore. -/
def quita : Orden → Bool
  | .hacer (.expulsar _) | .hacer (.errorIo _) => true
  | _ => false

/-- A thread is about to do so. -/
def Desaloja (s : Estado) : Suceso → Prop
  | .avanza h _ => ∃ x ∈ (s.codigo h).head?, quita x = true
  | _ => False

instance (s : Estado) : DecidablePred (Desaloja s)
  | .avanza h _ => inferInstanceAs (Decidable (∃ x ∈ (s.codigo h).head?, _))
  | .llega _ _ | .directo _ => .isFalse id

/-- The steps of a pause in which no process is taken from its list like that. -/
def Pausado (s : Estado) (a : Suceso) : Prop :=
  a ≠ .llega .consola .iniciarPlanificacion ∧ ¬Desaloja s a

instance (s : Estado) : DecidablePred (Pausado s) :=
  fun a => inferInstanceAs (Decidable (_ ∧ ¬Desaloja s a))

/-- The processes of each list stay in it, in their order; others may come after them. -/
def Congela (k k' : Nucleo) : Prop :=
  ∀ l, (k.listas l).map Pcb.pid <+: (k'.listas l).map Pcb.pid

theorem Congela.refl (k : Nucleo) : Congela k k := fun _ => List.prefix_rfl

theorem Congela.trans (h₁ : Congela k k') (h₂ : Congela k' k'') : Congela k k'' :=
  fun l => (h₁ l).trans (h₂ l)

theorem congela_of_pids (hp : ∀ l, (k'.listas l).map Pcb.pid = (k.listas l).map Pcb.pid) :
    Congela k k' := by
  intro l
  rw [hp l]

theorem Marco.congela (hm : Marco k k') : Congela k k' :=
  congela_of_pids fun _ => by rw [hm.listas]

theorem Congela.mem (hc : Congela k k') {l : Lista} {p : Pcb} (hp : p ∈ k.listas l) :
    ∃ q ∈ k'.listas l, q.pid = p.pid :=
  List.mem_map.1 ((hc l).subset (List.mem_map_of_mem hp))

/-! ### One step -/

/-- The console has both semaphores during a pause. -/
theorem Ordenado.tiene_of_enPausa (hs : Ordenado s) (hp : EnPausa s) (c : Cerrojo) :
    s.reparto.tiene .consola c := by
  obtain ⟨hpausar, hcodigo⟩ := hp
  have hcons := hs.consola
  rw [hpausar] at hcons
  generalize s.codigo .consola = r at hcons hcodigo
  cases hcons with
  | quieta hP | crea hP | copia p hP | agrega p hP => exact (hP c).2 rfl
  | inicia | iniciaLargo | iniciada => simp [Crea] at hcodigo

/-- A process more comes after the others. -/
theorem congela_agregar {l : Lista} {p : Pcb} (hl : k'.listas = Familia.agregar k.listas l p) :
    Congela k k' := by
  intro m
  rw [hl]
  by_cases hm : m = l
  · subst hm
    rw [Familia.agregar_self, List.map_append]
    exact List.prefix_append ..
  · rw [Familia.agregar_of_ne hm]

/-- What a thread does without the semaphores leaves the processes where they are, but for those
two. -/
theorem Hace.congela (ho : Hace k o k' e) (hperm : permite h P o) (hP : ∀ c, ¬P c)
    (hno : quita (.hacer o) = false)
    (hreemplazar : ∀ p, o = .reemplazar p → (k.listas .running).map Pcb.pid = [p.pid]) :
    Congela k k' := by
  have hagrega : ∀ l, ¬agrega h P l := by
    intro l hl
    unfold agrega at hl
    split at hl
    · exact hP _ hl
    · exact hP _ hl
  cases ho with
  | nada _ hm | crearPcb hm | recursoIncrementar hm | recursoObtenerBloqueado hm | recursoEspera hm
  | recursoConcede hm | hayarFin hm => exact hm.congela
  | enviarSiguientePcb hm | otorgar _ hm | recursoAgregarBloqueado hm =>
      exact congela_of_pids hm.pids
  | agregarANew p => exact congela_agregar rfl
  | actualizarEstadoPcb p state l => exact absurd hperm (hagrega l)
  | dejarRunning => exact absurd hperm.2 (hagrega _)
  | bloquear | desbloquear => exact absurd hperm.2 (hP _)
  | despachar | hayar => exact absurd hperm.2.1 (hP _)
  | admitir => exact absurd hperm.2 (hP _)
  | expulsar | errorIo => cases hno
  | @reemplazar p q b hr =>
      -- the process that goes and the one that comes are the same
      have hpid := hreemplazar p rfl
      rw [hr, List.map_cons] at hpid
      obtain ⟨hq, hb⟩ := List.cons.inj hpid
      obtain rfl := List.map_eq_nil_iff.1 hb
      refine congela_of_pids fun l => ?_
      by_cases hl : l = .running
      · subst hl
        simp [Kernel.Nucleo.conLista, hr, hq]
      · simp [Kernel.Nucleo.conLista, Function.update_of_ne hl]
  | _ => exact congela_of_pids fun _ => rfl

theorem Hace.crea (ho : Hace k o k' e) (hx : Crea (.hacer o)) :
    Congela k k' ∧ k'.pausar = k.pausar ∧ ∀ x ∈ e, Crea x := by
  cases ho with
  | @nada o k' hn hm => cases o <;> first | exact hn.elim | exact hx.elim
  | crearPcb hm => exact ⟨hm.congela, hm.pausar, by simp [Crea]⟩
  | copiarMListNew p => exact ⟨congela_of_pids fun _ => rfl, rfl, by simp [Crea]⟩
  | agregarANew p => exact ⟨congela_agregar rfl, rfl, by simp⟩
  | _ => exact hx.elim

theorem HaceDirecto.congela {ev : Evento} (hd : HaceDirecto k ev k') : Congela k k' := by
  cases hd with
  | marco hm => exact hm.congela
  | multiprogramacion valor => exact congela_of_pids fun _ => rfl

theorem congela_paso (hs : Ordenado s) (ht : Turno s) (hp : Paso s a s') (hpausa : EnPausa s)
    (ha : Pausado s a) : Congela s.nucleo s'.nucleo := by
  cases hp with
  | llega hp hadm hr => exact congela_of_pids (arranca_of_arrancar hr).marcoPids.pids
  | directo he hadm hm => exact (haceDirecto_of_manejar he hm).congela
  | esperar | avisar => exact congela_of_pids fun _ => by simp
  | @hacer h ahora o r e k hh ho =>
      have ho := hace_of_ejecutar ho
      by_cases hcons : h = .consola
      · subst hcons
        exact (ho.crea (hpausa.2 _ (hh ▸ List.mem_cons_self ..))).1
      · refine ho.congela (hs.enRegla.permite hh) (fun c hc => hcons ?_) ?_ ?_
        · exact Option.some.inj (hc.symm.trans (hs.tiene_of_enPausa hpausa c))
        · rw [← Bool.not_eq_true]
          exact fun hq => ha.2 ⟨.hacer o, by rw [hh]; rfl, hq⟩
        · rintro p rfl
          exact ht.reemplazar hh

/-- A pause lasts until INICIAR_PLANIFICACION. -/
theorem enPausa_paso (hs : Ordenado s) (hp : Paso s a s') (hpausa : EnPausa s)
    (ha : a ≠ .llega .consola .iniciarPlanificacion) : EnPausa s' := by
  by_cases hj : a.hebra = some .consola
  · obtain ⟨hpausar, hcodigo⟩ := hpausa
    cases hp with
    | @llega h ev k r hp hadm hr =>
        cases hj
        refine ⟨(arranca_of_arrancar hr).marcoPids.pausar.trans hpausar, fun x hx => ?_⟩
        replace hx : x ∈ Function.update s.reparto.codigo .consola r .consola := hx
        rw [Function.update_self] at hx
        cases arranca_of_arrancar hr with
        | crear =>
            obtain rfl := List.mem_singleton.1 hx
            trivial
        | iniciar => exact absurd rfl ha
        | detener =>
            rw [detenerPlanificacion, if_neg (by simp [hpausar])] at hx
            cases hx
    | directo => cases hj
    | @esperar h ahora c r hh =>
        cases hj
        have hx : Crea (.esperar c) := hcodigo _ (hh ▸ List.mem_cons_self ..)
        exact hx.elim
    | @avisar h ahora c r hh =>
        cases hj
        have hx : Crea (.avisar c) := hcodigo _ (hh ▸ List.mem_cons_self ..)
        exact hx.elim
    | @hacer h ahora o r e k hh ho =>
        cases hj
        obtain ⟨-, hk, he⟩ := (hace_of_ejecutar ho).crea (hcodigo _ (hh ▸ List.mem_cons_self ..))
        refine ⟨hk.trans hpausar, fun x hx => ?_⟩
        replace hx : x ∈ Function.update s.reparto.codigo .consola (e ++ r) .consola := hx
        rw [Function.update_self, List.mem_append] at hx
        rcases hx with hx | hx
        · exact he x hx
        · exact hcodigo x (hh ▸ List.mem_cons_of_mem _ hx)
  · obtain ⟨htiene, hcodigo⟩ := hp.otra hs hj
    exact ⟨(hp.pausar hs hj).trans hpausa.1, fun x hx => hpausa.2 x (hcodigo ▸ hx)⟩

/-! ### A pause -/

theorem congela_en_pausa (h₀ : Transicion.Alcanzable sistema s₀) (hp : EnPausa s₀)
    (hs : Transicion.AlcanzableCon (sistema.desde s₀) Pausado s) :
    EnPausa s ∧ Congela s₀.nucleo s.nucleo := by
  induction hs with
  | inicio hi =>
      obtain rfl := hi
      exact ⟨hp, .refl _⟩
  | paso hs ha hpaso ih =>
      have hreach := h₀.seguir hs.alcanzable
      have hord := ordenado_alcanzable hreach
      have hpaso := paso_of_avanzar hpaso
      exact ⟨enPausa_paso hord hpaso ih.1 ha.1,
        ih.2.trans (congela_paso hord (turno_alcanzable hreach) hpaso ih.1 ha)⟩

/-- The step takes a process from its list. -/
theorem not_congela_of_desaloja (hp : Paso s a s') (ha : Desaloja s a) :
    ∃ l, (s'.nucleo.listas l).length < (s.nucleo.listas l).length := by
  cases hp with
  | llega | directo => exact ha.elim
  | esperar hh | avisar hh =>
      obtain ⟨x, hx, hq⟩ := ha
      rw [hh] at hx
      cases hx
      cases hq
  | @hacer h ahora o r e k hh ho =>
      obtain ⟨x, hx, hq⟩ := ha
      rw [hh] at hx
      cases hx
      cases hace_of_ejecutar ho with
      | nada hn => cases o <;> first | exact hn.elim | cases hq
      | expulsar hr => exact ⟨.running, by simp [Kernel.Nucleo.conLista, hr]⟩
      | errorIo hs =>
          obtain ⟨b, c, hb, hk⟩ := hs.sale
          exact ⟨.blocked, by simp [hk, hb]⟩
      | _ => cases hq

/-- **A pause freezes the lists, as long as no process is taken from its list without a
semaphore**; and a step that does so takes one. -/
theorem pausa_congela (h₀ : Transicion.Alcanzable sistema s₀) (hp : EnPausa s₀)
    (hs : Transicion.AlcanzableCon (sistema.desde s₀) Pausado s) :
    (∀ l, ∀ p ∈ s₀.nucleo.listas l, ∃ q ∈ s.nucleo.listas l, q.pid = p.pid) ∧
      ∀ a s', sistema.paso s a s' → Desaloja s a →
        ∃ l, (s'.nucleo.listas l).length < (s.nucleo.listas l).length :=
  ⟨fun _ _ hmem => (congela_en_pausa h₀ hp hs).2.mem hmem,
    fun _ _ hpaso ha => not_congela_of_desaloja (paso_of_avanzar hpaso) ha⟩

/-! ### Two pauses -/

/-- DETENER_PLANIFICACION has returned, with one process in READY and one in RUNNING. -/
def enPausa : Estado :=
  correr (fun _ _ => True) conRaYRb
    (dosEnReady ++ atiende .corto (.corto 0) 8 ++ atiende .consola .detenerPlanificacion 3)
    (by decide +kernel)

/-- The process in RUNNING ends, and another one is created. -/
def finEnPausa : Estado :=
  Transicion.estadoTras (intentar Pausado) enPausa
    (atiende .dispatch (.cpu { pid := 1, estado := .exec } .terminarProceso 0) 1 ++
      atiende .consola .iniciarProceso 3)
    (by decide +kernel)

theorem alcanzable_finEnPausa :
    Transicion.AlcanzableCon (sistema.desde enPausa) Pausado finEnPausa :=
  Transicion.alcanzableCon_estadoTras (S := sistema.desde enPausa)
    (fun _ _ _ => paso_of_intentar) rfl _

/-- It asks for a resource that does not exist. -/
def recursoEnPausa : Estado :=
  Transicion.estadoTras (intentar Pausado) enPausa
    (atiende .dispatch (.cpu { pid := 1, estado := .exec } (.wait "RZ") 0) 1)
    (by decide +kernel)

/-- It is taken from RUNNING. -/
def expulsado : Estado := (avanzar recursoEnPausa (.avanza .dispatch 0)).get (by decide +kernel)

theorem alcanzable_recursoEnPausa :
    Transicion.AlcanzableCon (sistema.desde enPausa) Pausado recursoEnPausa :=
  Transicion.alcanzableCon_estadoTras (S := sistema.desde enPausa)
    (fun _ _ _ => paso_of_intentar) rfl _

theorem paso_expulsado : sistema.paso recursoEnPausa (.avanza .dispatch 0) expulsado :=
  (Option.some_get _).symm

theorem enPausa_enPausa : EnPausa enPausa := by
  refine ⟨by decide +kernel, ?_⟩
  rw [show enPausa.codigo .consola = [] by decide +kernel]
  simp

theorem pausa_congela_enPausa :
    (∀ l, ∀ p ∈ enPausa.nucleo.listas l, ∃ q ∈ finEnPausa.nucleo.listas l, q.pid = p.pid) ∧
      ∃ l, (expulsado.nucleo.listas l).length < (recursoEnPausa.nucleo.listas l).length :=
  have hreach : Transicion.Alcanzable sistema enPausa := alcanzable_correr _
  ⟨(pausa_congela hreach enPausa_enPausa alcanzable_finEnPausa).1,
    (pausa_congela hreach enPausa_enPausa alcanzable_recursoEnPausa).2 _ _ paso_expulsado
      (by decide +kernel)⟩

theorem pausa_no_congela :
    ¬∀ s₀ s, Transicion.Alcanzable sistema s₀ → EnPausa s₀ →
        Transicion.AlcanzableCon (sistema.desde s₀)
          (fun _ a => a ≠ .llega .consola .iniciarPlanificacion) s →
        ∀ l, ∀ p ∈ s₀.nucleo.listas l, ∃ q ∈ s.nucleo.listas l, q.pid = p.pid := by
  intro h
  have hrun := alcanzable_recursoEnPausa.mono fun _ _ ha => ha.1
  have := h enPausa expulsado (alcanzable_correr _) enPausa_enPausa
    (.paso hrun (by decide) paso_expulsado) .running
  revert this
  decide +kernel

end KernelHebras
