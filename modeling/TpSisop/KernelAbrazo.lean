/-
**DETENER_PLANIFICACION against the end of a process.**

DETENER_PLANIFICACION takes `sem_planificacion` and then `sem_planificacion_largo`.  When a process
ends, `atender_cpu_dispatch` takes `sem_planificacion_largo` and, with it in hand, gives back what
the process had taken; where that wakes a process in BLOCKED, `desbloquear_proceso` waits for
`sem_planificacion`.  No other function takes them in that order, so the two can only wait for each
other when one wakes a process in the middle of the other.

Main definitions:

* `KernelHebras.Cruce` — the steps with which a wake-up meets DETENER_PLANIFICACION.

Main results:

* `KernelHebras.espera_paso` — how a thread comes to wait for `sem_planificacion` with the other in
  hand;
* `KernelHebras.detener_sin_abrazo` — a pause never deadlocks while they do not meet, and does so at
  once when they do.
-/

import TpSisop.KernelReglas

set_option relaxedAutoImplicit false
set_option autoImplicit false

namespace KernelHebras

open Kernel (Nucleo)
open Cerrojos (Reglas)

variable {s s' : Estado} {a : Suceso} {h : Hebra} {r : Codigo}

/-- The process that an instruction of `recurso_incrementar` is to wake. -/
def aDespertar : Orden → Option ℕ
  | .hacer (.otorgar _ pid) => some pid
  | _ => none

/-- The end of a process is about to wake another one, with `sem_planificacion_largo` in hand. -/
def Despierta (s : Estado) : Prop :=
  s.reparto.tiene .dispatch .largo ∧
    ∃ pid ∈ (s.codigo .dispatch).head?.bind aDespertar, hayBloqueado s.nucleo pid

/-- It has found it, and waits for `sem_planificacion`. -/
def Despertando (s : Estado) : Prop :=
  s.reparto.tiene .dispatch .largo ∧ s.reparto.espera .dispatch .planificacion

/-- DETENER_PLANIFICACION has taken the first semaphore and waits for the second. -/
def Deteniendo (s : Estado) : Prop :=
  s.reparto.tiene .consola .planificacion ∧ s.reparto.espera .consola .largo

/-- A wake-up meets DETENER_PLANIFICACION: one of the two is on its way, and the other starts. -/
def Cruce (s : Estado) : Suceso → Prop
  | .avanza .consola _ => s.reparto.espera .consola .planificacion ∧ Despertando s
  | .avanza .dispatch _ => Deteniendo s ∧ Despierta s
  | _ => False

instance (s : Estado) : Decidable (Despierta s) := inferInstanceAs (Decidable (_ ∧ _))

instance (s : Estado) : Decidable (Despertando s) := inferInstanceAs (Decidable (_ ∧ _))

instance (s : Estado) : Decidable (Deteniendo s) := inferInstanceAs (Decidable (_ ∧ _))

instance (s : Estado) : DecidablePred (Cruce s)
  | .avanza .consola _ => inferInstanceAs (Decidable (_ ∧ Despertando s))
  | .avanza .dispatch _ => inferInstanceAs (Decidable (Deteniendo s ∧ _))
  | .avanza .corto _ | .avanza .largo _ | .avanza (.io _) _ | .avanza (.orden _) _ | .llega _ _
  | .directo _ => .isFalse id

/-! ### Who waits with a semaphore in hand -/

/-- The console waits for the second semaphore of DETENER_PLANIFICACION, with the first in hand. -/
theorem Ordenado.deteniendo (hs : Ordenado s) {c d : Cerrojo} (hcd : c ≠ d)
    (hc : s.reparto.tiene .consola c) (hd : s.reparto.espera .consola d) :
    c = .planificacion ∧ d = .largo := by
  have hcons := hs.consola
  unfold Cerrojos.Reparto.espera at hd
  change (s.codigo .consola).head? = _ at hd
  generalize s.codigo .consola = r at hcons hd
  generalize s.nucleo.pausar = b at hcons
  cases hcons with
  | detiene hP => exact absurd hc (hP c)
  | detieneLargo hplan hlargo =>
      cases hd
      cases c with
      | planificacion => exact ⟨rfl, rfl⟩
      | largo => exact absurd rfl hcd
  | _ => cases hd

/-- Only DETENER_PLANIFICACION makes it wait for the first. -/
theorem Ordenado.codigo_of_detiene (hs : Ordenado s)
    (hd : s.reparto.espera .consola .planificacion) :
    s.codigo .consola = [.esperar .planificacion, .esperar .largo, .hacer (.pausar false)] := by
  have hcons := hs.consola
  unfold Cerrojos.Reparto.espera at hd
  change (s.codigo .consola).head? = _ at hd
  generalize s.codigo .consola = r at hcons hd ⊢
  generalize s.nucleo.pausar = b at hcons
  cases hcons with
  | detiene hP => rfl
  | _ => cases hd

/-- As written, no code waits for `sem_planificacion` with the other in hand. -/
theorem not_largo_of_respeta {P : Cerrojo → Prop}
    (hr : (reglas h).disciplina.Respeta P (.esperar .planificacion :: r)) : ¬P .largo := by
  intro hl
  obtain hP | ⟨-, hc⟩ := hr.1.2
  · exact hP _ hl
  · cases hc

/-- What calls nothing gives nothing back. -/
theorem Hace.not_suelta {k k' : Nucleo} {o : Accion} {e : Codigo} (ho : Hace k o k' e)
    (he : e = []) (c : Cerrojo) : ¬suelta o c := by
  cases ho with
  | @nada o k' ho hm => cases o <;> first | exact ho.elim | exact id
  | _ => first | exact id | cases he

/-- Only a wake-up puts such a wait in front of the code of a thread. -/
theorem Hace.otorgar_of_espera {k k' : Nucleo} {o : Accion} {e r' : Codigo} {P : Cerrojo → Prop}
    (ho : Hace k o k' e) (hP : P .largo) (hperm : permite h P o)
    (hr : (reglas h).disciplina.Respeta ((reglas h).tras P (.hacer o)) r)
    (he : e ++ r = .esperar .planificacion :: r') :
    h = .dispatch ∧ ∃ recurso pid, o = .otorgar recurso pid ∧ hayBloqueado k pid := by
  cases e with
  | nil =>
      rw [List.nil_append] at he
      rw [he, Reglas.tras_hacer (ho.not_suelta rfl)] at hr
      exact absurd hP (not_largo_of_respeta hr)
  | cons x e =>
      obtain rfl : x = .esperar .planificacion := (List.cons.inj he).1
      generalize hx : Cerrojos.Orden.esperar Cerrojo.planificacion :: e = e₀ at ho
      cases ho with
      | otorgar hb => exact ⟨hperm.2.2 hP, _, _, rfl, hb⟩
      | mensajeCpu => exact absurd hP (hperm.2 _)
      | _ => cases hx

/-- A thread that waits for `sem_planificacion` with the other in hand did so before, or wakes a
process. -/
theorem espera_paso (hs : Ordenado s) (hs' : Ordenado s') (hp : Paso s a s')
    (hl : s'.reparto.tiene h .largo) (hw : s'.reparto.espera h .planificacion) :
    (s.reparto.tiene h .largo ∧ s.reparto.espera h .planificacion) ∨
      (h = .dispatch ∧ (∃ ahora, a = .avanza .dispatch ahora) ∧ Despierta s) := by
  have hcons : h ≠ .consola := by
    rintro rfl
    cases (hs'.deteniendo (by simp) hl hw).1
  by_cases hj : a.hebra = some h
  swap
  · obtain ⟨htiene, hcodigo⟩ := hp.otra hs hj
    exact .inl ⟨htiene ▸ hl, (congrArg List.head? hcodigo).symm.trans hw⟩
  obtain ⟨r', hr'⟩ := List.head?_eq_some_iff.1 hw
  cases hp with
  | llega hp =>
      -- a thread with nothing to do holds nothing
      cases hj
      exact absurd hl ((hs.sigue hp.1).final hcons _)
  | directo => cases hj
  | @esperar j ahora c r hh hc =>
      cases hj
      rw [Cerrojos.Reparto.tomar_codigo_self] at hr'
      subst hr'
      rw [Cerrojos.Reparto.tomar_tiene (R := reglas) (hs.cuadra.dueno_eq_none hc), if_pos rfl] at hl
      exact absurd hl (not_largo_of_respeta (hs.sigue hh).esperar.2)
  | @avisar j ahora c r hh =>
      cases hj
      rw [Cerrojos.Reparto.soltar_codigo_self] at hr'
      subst hr'
      rw [Cerrojos.Reparto.soltar_tiene (R := reglas) (hs.enRegla.dueno_of_avisar hh), if_pos rfl]
        at hl
      exact absurd hl (not_largo_of_respeta (hs.sigue hh).avisar.2)
  | @hacer j ahora o r e k hh ho =>
      cases hj
      rw [Cerrojos.Reparto.seguir_codigo_self] at hr'
      obtain ⟨hperm, hr⟩ := (hs.sigue hh).hacer
      obtain ⟨rfl, recurso, pid, rfl, hb⟩ :=
        (hace_of_ejecutar ho).otorgar_of_espera hl hperm hr hr'
      refine .inr ⟨rfl, ⟨ahora, rfl⟩, hl, pid, ?_, hb⟩
      rw [hh]
      rfl

/-- DETENER_PLANIFICACION waits for its second semaphore since before, or has just taken the
first. -/
theorem deteniendo_paso (hs : Ordenado s) (hs' : Ordenado s') (hp : Paso s a s')
    (hd : Deteniendo s') :
    Deteniendo s ∨
      (∃ ahora, a = .avanza .consola ahora) ∧ s.reparto.espera .consola .planificacion := by
  by_cases hj : a.hebra = some .consola
  swap
  · obtain ⟨htiene, hcodigo⟩ := hp.otra hs hj
    exact .inl ⟨htiene ▸ hd.1, (congrArg List.head? hcodigo).symm.trans hd.2⟩
  have hlargo : ¬s'.reparto.tiene .consola .largo := by
    obtain ⟨r', hr'⟩ := List.head?_eq_some_iff.1 hd.2
    exact (hs'.sigue hr').esperar.1
  have hplan := hd.1
  have hcons := hs.consola
  generalize s.nucleo.pausar = b at hcons
  cases hp with
  | @llega j ev k r hp =>
      cases hj
      rw [hp.1] at hcons
      cases hcons with
      | quieta hP => exact absurd ((hP _).2 ((hP .planificacion).1 hplan)) hlargo
  | directo => cases hj
  | @esperar j ahora c r hh hc =>
      cases hj
      rw [hh] at hcons
      rw [Cerrojos.Reparto.tomar_tiene (R := reglas) (hs.cuadra.dueno_eq_none hc), if_pos rfl]
        at hlargo
      cases hcons with
      | detiene hP => exact .inr ⟨⟨ahora, rfl⟩, congrArg List.head? hh⟩
      | detieneLargo => exact absurd (.inl rfl) hlargo
  | @avisar j ahora c r hh =>
      cases hj
      rw [hh] at hcons
      rw [Cerrojos.Reparto.soltar_tiene (R := reglas) (hs.enRegla.dueno_of_avisar hh), if_pos rfl]
        at hplan
      cases hcons with
      | inicia hP => exact absurd rfl hplan.1
      | iniciaLargo hno => exact absurd hplan.2 hno
  | @hacer j ahora o r e k hh ho =>
      cases hj
      rw [hh] at hcons
      cases hcons with
      | crea hP | copia p hP | agrega p hP =>
          exact absurd ((hP _).2 ((hP .planificacion).1 hplan)) hlargo
      | detenida hP => exact absurd (hP _) hlargo
      | iniciada hP => exact absurd hplan (hP _)

/-! ### Every run -/

theorem not_abrazo_paso (hs : Ordenado s) (hs' : Ordenado s') (hp : Paso s a s')
    (hespera : ∀ h, s.reparto.tiene h .largo → s.reparto.espera h .planificacion → h = .dispatch)
    (hno : ¬s.reparto.Abrazo .consola) (ha : ¬Cruce s a) : ¬s'.reparto.Abrazo .consola := by
  rintro ⟨j, c, d, hcd, hc, hd, hjd, hjc⟩
  obtain ⟨rfl, rfl⟩ := hs'.deteniendo hcd hc hd
  obtain hantes | ⟨⟨ahora, rfl⟩, hcons⟩ := deteniendo_paso hs hs' hp ⟨hc, hd⟩
  · -- DETENER_PLANIFICACION was there already
    obtain hj | ⟨rfl, ⟨ahora, rfl⟩, hdesp⟩ := espera_paso hs hs' hp hjd hjc
    · exact hno ⟨j, _, _, hcd, hantes.1, hantes.2, hj.1, hj.2⟩
    · exact ha ⟨hantes, hdesp⟩
  · -- it has just got there, so the other one waited before
    obtain hj | ⟨-, ⟨_, hcons'⟩, -⟩ := espera_paso hs hs' hp hjd hjc
    · obtain rfl := hespera j hj.1 hj.2
      exact ha ⟨hcons, hj⟩
    · cases hcons'

theorem espera_alcanzable {C : Estado → Suceso → Prop}
    (hs : Transicion.AlcanzableCon sistema C s) (hl : s.reparto.tiene h .largo)
    (hw : s.reparto.espera h .planificacion) : h = .dispatch := by
  induction hs with
  | inicio hi =>
      obtain ⟨config, rfl⟩ := hi
      cases hw
  | paso hs hC hp ih =>
      have hp := paso_of_avanzar hp
      have hord := ordenado_alcanzable hs
      obtain hantes | ⟨rfl, -⟩ := espera_paso hord (ordenado_paso hord hp) hp hl hw
      · exact ih hantes.1 hantes.2
      · rfl

theorem Despierta.codigo (hd : Despierta s) :
    ∃ recurso pid r, s.codigo .dispatch = .hacer (.otorgar recurso pid) :: r ∧
      hayBloqueado s.nucleo pid := by
  obtain ⟨-, pid, hpid, hb⟩ := hd
  obtain ⟨x, hx, hpid⟩ := Option.bind_eq_some_iff.1 hpid
  obtain ⟨r, hr⟩ := List.head?_eq_some_iff.1 hx
  unfold aDespertar at hpid
  split at hpid
  · cases hpid
    exact ⟨_, pid, r, hr, hb⟩
  · cases hpid

/-- Where they meet, each waits for the other. -/
theorem abrazo_of_cruce (hs : Ordenado s) (hp : avanzar s a = some s') (ha : Cruce s a) :
    s'.reparto.Abrazo .consola := by
  unfold Cruce at ha
  split at ha
  · -- DETENER_PLANIFICACION takes the semaphore that the other one waits for
    obtain ⟨hcons, hlargo, hespera⟩ := ha
    simp only [avanzar, hs.codigo_of_detiene hcons] at hp
    split at hp
    · cases hp
      refine ⟨.dispatch, .planificacion, .largo, by simp, ?_, ?_, ?_, ?_⟩
      · exact Cerrojos.Reparto.tomar_dueno_self
      · exact congrArg List.head? Cerrojos.Reparto.tomar_codigo_self
      · exact (Cerrojos.Reparto.tomar_dueno_of_ne (by simp)).trans hlargo
      · exact (congrArg List.head? (Cerrojos.Reparto.tomar_codigo_of_ne (by simp))).trans hespera
    · cases hp
  · -- the end of a process wakes another one when DETENER_PLANIFICACION has its first semaphore
    obtain ⟨⟨hplan, hespera⟩, hdesp⟩ := ha
    obtain ⟨recurso, pid, r, hr, hb⟩ := hdesp.codigo
    simp only [avanzar, hr, ejecutar, if_pos hb] at hp
    cases hp
    refine ⟨.dispatch, .planificacion, .largo, by simp, hplan, ?_, hdesp.1, ?_⟩
    · exact (congrArg List.head? (Cerrojos.Reparto.seguir_codigo_of_ne (by simp))).trans hespera
    · exact congrArg List.head? Cerrojos.Reparto.seguir_codigo_self
  · exact ha.elim

theorem not_abrazo_alcanzable
    (hs : Transicion.AlcanzableCon sistema (fun s a => ¬Cruce s a) s) :
    ¬s.reparto.Abrazo .consola := by
  induction hs with
  | inicio hi =>
      obtain ⟨config, rfl⟩ := hi
      rintro ⟨j, c, d, hcd, hc, hd, -⟩
      cases hd
  | paso hs ha hp ih =>
      have hp := paso_of_avanzar hp
      have hord := ordenado_alcanzable hs
      exact not_abrazo_paso hord (ordenado_paso hord hp) hp
        (fun h hl hw => espera_alcanzable hs hl hw) ih ha

/-- **A pause never deadlocks while no wake-up meets DETENER_PLANIFICACION**, and the step with
which one does is the one that deadlocks. -/
theorem detener_sin_abrazo (hs : Transicion.AlcanzableCon sistema (fun s a => ¬Cruce s a) s) :
    ¬s.reparto.Abrazo .consola ∧
      ∀ a s', sistema.paso s a s' → (s'.reparto.Abrazo .consola ↔ Cruce s a) := by
  have hno := not_abrazo_alcanzable hs
  have hord := ordenado_alcanzable hs
  refine ⟨hno, fun a s' hp => ⟨fun habrazo => ?_, abrazo_of_cruce hord hp⟩⟩
  by_contra ha
  have hp := paso_of_avanzar hp
  exact not_abrazo_paso hord (ordenado_paso hord hp) hp
    (fun h hl hw => espera_alcanzable hs hl hw) hno ha habrazo

/-! ### The two threads meet -/

/-- The first process takes RA and waits for RB; the second one gives it RB and waits for RA; the
first one is about to end. -/
def conRecursosTomados : List Suceso :=
  dosEnReady ++ atiende .corto (.corto 0) 8 ++
    atiende .dispatch (.cpu { pid := 1, estado := .exec } (.wait "RA") 0) 4 ++
    atiende .dispatch
      (.cpu { pid := 1, estado := .exec, recursosTomados := ["RA"] } (.wait "RB") 0) 9 ++
    atiende .corto (.corto 0) 8 ++
    atiende .dispatch (.cpu { pid := 2, estado := .exec } (.signal "RB") 0) 11 ++
    atiende .dispatch (.cpu { pid := 2, estado := .exec } (.wait "RA") 0) 9 ++
    atiende .corto (.corto 0) 8

/-- So many steps of its end, and of DETENER_PLANIFICACION. -/
def alTerminar (n m : ℕ) : List Suceso :=
  conRecursosTomados ++
    atiende .dispatch
      (.cpu { pid := 1, estado := .exec, recursosTomados := ["RA", "RB"] } .terminarProceso 0) n ++
    atiende .consola .detenerPlanificacion m

/-- The process has ended when DETENER_PLANIFICACION comes. -/
def detenido : Estado :=
  correr (fun s a => ¬Cruce s a) conRaYRb (alTerminar 20 3) (by decide +kernel)

/-- It waits to wake the other process. -/
def porDetener : Estado :=
  correr (fun s a => ¬Cruce s a) conRaYRb (alTerminar 6 0) (by decide +kernel)

/-- DETENER_PLANIFICACION has taken the semaphore. -/
def abrazados : Estado := (avanzar porDetener (.avanza .consola 0)).get (by decide +kernel)

theorem paso_abrazados : sistema.paso porDetener (.avanza .consola 0) abrazados :=
  (Option.some_get _).symm

theorem detener_sin_abrazo_detenido :
    ¬detenido.reparto.Abrazo .consola ∧ abrazados.reparto.Abrazo .consola :=
  ⟨(detener_sin_abrazo (alcanzable_correr _)).1,
    ((detener_sin_abrazo (alcanzable_correr _)).2 _ _ paso_abrazados).2 (by decide +kernel)⟩

theorem abrazo_al_detener :
    ¬∀ s, Transicion.Alcanzable sistema s → ¬s.reparto.Abrazo .consola := by
  intro h
  have hreach : Transicion.AlcanzableCon sistema (fun s a => ¬Cruce s a) porDetener :=
    alcanzable_correr _
  refine h abrazados (.paso hreach.alcanzable trivial paso_abrazados)
    ⟨.dispatch, .planificacion, .largo, by simp, ?_⟩
  decide +kernel

end KernelHebras
