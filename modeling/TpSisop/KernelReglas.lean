/-
**Who holds the semaphores of a pause, and what for.**

Every function of the kernel that takes `sem_planificacion` or `sem_planificacion_largo` gives it
back, and all of them change the lists with one of the two in hand, but for the ends of processes
that `atender_cpu_dispatch` and `atender_io` start by taking them off RUNNING or BLOCKED.  This
module writes that down as rules for the code of the threads, and shows that they follow them in
every run; so the two are binary semaphores, and nobody has one that the console keeps.

Main definitions:

* `KernelHebras.permite`, `KernelHebras.reglas` — what may be done with which semaphores;
* `KernelHebras.Consola` — where the console is in DETENER_PLANIFICACION and INICIAR_PLANIFICACION;
* `KernelHebras.Ordenado` — the invariant.

Main results:

* `KernelHebras.Hace.desarrolla` — the code that comes next follows the rules;
* `KernelHebras.ordenado_alcanzable`.
-/

import TpSisop.KernelAcciones

set_option relaxedAutoImplicit false
set_option autoImplicit false

namespace KernelHebras

open Kernel (Nucleo Pcb EstadoCode Lista Evento MensajeCpu)
open Cerrojos (Disciplina Reglas)

variable {k k' : Nucleo} {ahora : ℤ} {o : Accion} {e : Codigo} {h : Hebra} {r : Codigo}
  {P : Cerrojo → Prop}

/-! ### The rules -/

/-- The two semaphores are taken one at a time, but for the console, which takes
`sem_planificacion_largo` second. -/
def toma (h : Hebra) (P : Cerrojo → Prop) (c : Cerrojo) : Prop :=
  (∀ d, ¬P d) ∨ (h = .consola ∧ c = .largo)

/-- A process goes to EXIT, and `mover_a_ready` puts one in READY, with `sem_planificacion_largo`;
to the other lists they go with `sem_planificacion`. -/
def agrega (h : Hebra) (P : Cerrojo → Prop) (l : Lista) : Prop :=
  if h = .largo ∨ l = .exit then P .largo else P .planificacion

/-- What a thread may do with the semaphores that it holds.  What a process has taken is given back
with `sem_planificacion_largo` in hand only in `atender_cpu_dispatch`. -/
def permite (h : Hebra) (P : Cerrojo → Prop) : Accion → Prop
  | .pausar _ | .crearPcb | .copiarMListNew _ | .agregarANew _ => h = .consola
  | .actualizarEstadoPcb _ _ l => agrega h P l
  | .dejarRunning _ _ l => (l = .ready ∨ l = .exit) ∧ agrega h P l
  | .bloquear _ _ | .desbloquear _ | .pasada => h ≠ .largo ∧ P .planificacion
  | .despachar l => h ≠ .largo ∧ P .planificacion ∧ (l = .ready ∨ l = .auxiliar)
  | .recursoIncrementar _ | .recursoObtenerBloqueado _ | .otorgar _ _ | .liberarTomados _ =>
      h ≠ .largo ∧ ¬P .planificacion ∧ (P .largo → h = .dispatch)
  | .hayarPcb ls _ => h ≠ .largo ∧ P .largo ∧ ¬P .planificacion ∧ .running ∉ ls
  | .eliminarProceso _ | .errorIo _ => h ≠ .largo ∧ ∀ c, ¬P c
  | .mensajeCpu _ _ | .expulsar _ | .recursoDecrementar _ _ => h = .dispatch ∧ ∀ c, ¬P c
  | .admitir => h = .largo ∧ P .largo
  | _ => True

/-- What is given back by the code of a pass of the scheduler, and by that of `hayar_pcb`. -/
def suelta : Accion → Cerrojo → Prop
  | .pasada, .planificacion | .despachar _, .planificacion | .hayarPcb _ _, .largo => True
  | _, _ => False

/-- Only the console keeps what it takes. -/
def reglas (h : Hebra) : Reglas Cerrojo Accion where
  toma := toma h
  permite := permite h
  suelta := suelta
  final P := h ≠ .consola → ∀ c, ¬P c

/-- There are two semaphores. -/
theorem forall_cerrojo {p : Cerrojo → Prop} : (∀ c, p c) ↔ p .planificacion ∧ p .largo :=
  ⟨fun hp => ⟨hp _, hp _⟩, fun hp c => by cases c <;> simp [hp]⟩

theorem eq_iff_cerrojo {P Q : Cerrojo → Prop} :
    P = Q ↔ (P .planificacion ↔ Q .planificacion) ∧ (P .largo ↔ Q .largo) := by
  rw [funext_iff, forall_cerrojo, eq_iff_iff, eq_iff_iff]

section

attribute [local simp] forall_cerrojo eq_iff_cerrojo reglas Reglas.disciplina Reglas.Admite
  Reglas.tras toma permite suelta agrega semPost semWait

/-- The code of a thread that starts without a semaphore, and ends so. -/
def Suelto (h : Hebra) (e : Codigo) : Prop :=
  ∀ P : Cerrojo → Prop, (∀ c, ¬P c) → (reglas h).disciplina.Cubre P e P

theorem suelto_bloquearProceso (p : Pcb) (esIo : Bool) (hh : h ≠ .largo) :
    Suelto h (bloquearProceso p esIo) := by
  intro P hP
  simp [bloquearProceso, hh, hP]

theorem suelto_eliminarAfuera (p : Pcb) (hh : h ≠ .largo) : Suelto h (eliminarAfuera p) := by
  intro P hP
  simp [eliminarAfuera, liberarRecursosTomados, hh, hP]

theorem suelto_finalizarProceso (pid : ℕ) (hh : h ≠ .largo) :
    Suelto h (finalizarProceso pid) := by
  intro P hP
  simp [finalizarProceso, hh, hP]

theorem suelto_terminar (p : Pcb) : Suelto .dispatch (terminar p) := by
  intro P hP
  simp [terminar, liberarRecursosTomados, hP]

theorem suelto_finDeQuantum (p : Pcb) : Suelto .dispatch (finDeQuantum p) := by
  intro P hP
  simp [finDeQuantum, hP]

theorem suelto_rechazar (p : Pcb) : Suelto .dispatch (rechazar p) := by
  intro P hP
  simp [rechazar, hP]

theorem suelto_peticionIo (k : Nucleo) (p : Pcb) (nombre : String) (pet : Kernel.PeticionIo) :
    Suelto .dispatch (peticionIo k p nombre pet) := by
  intro P hP
  unfold peticionIo
  split <;> simp [bloquearProceso, hP]

theorem suelto_atenderCpuDispatch (k : Nucleo) (p : Pcb) (m : MensajeCpu) :
    Suelto .dispatch (atenderCpuDispatch k p m) := by
  cases m with
  | io nombre operacion =>
      simp only [atenderCpuDispatch]
      split
      · exact suelto_rechazar p
      · exact suelto_peticionIo k p nombre _
  | interrupcion => exact suelto_finDeQuantum p
  | outOfMemory => exact suelto_terminar p
  | terminarProceso => exact suelto_terminar p
  | wait recurso =>
      simp only [atenderCpuDispatch]
      split
      · exact suelto_rechazar p
      · intro P hP
        simp [hP]
  | signal recurso =>
      simp only [atenderCpuDispatch]
      split
      · exact suelto_rechazar p
      · intro P hP
        simp [reanudar, hP]

theorem suelto_atenderIo (nombre : String) (pet : Kernel.PeticionIo) (r : Kernel.RespuestaIo)
    (hh : h ≠ .largo) : Suelto h (atenderIo nombre pet r) := by
  intro P hP
  cases r <;> simp [atenderIo, desbloquearProceso, hh, hP]

theorem suelto_cicloCorto (hh : h ≠ .largo) : Suelto h cicloCorto := by
  intro P hP
  simp [cicloCorto, hh, hP]

theorem suelto_cicloLargo : Suelto .largo cicloLargo := by
  intro P hP
  simp [cicloLargo, probarGrado, hP]

/-- What comes after a dispatch gives `sem_planificacion` back. -/
theorem cubre_trasDespachar (k : Nucleo) (quantum : ℤ) (l : Lista) (hP : P .planificacion) :
    (reglas h).disciplina.Cubre P (trasDespachar k quantum)
      ((reglas h).tras P (.hacer (.despachar l))) := by
  unfold trasDespachar
  split <;> simp [hP]

/-- The code that comes next follows the rules. -/
theorem Hace.desarrolla (ho : Hace k o k' e) : (reglas h).Desarrolla o e := by
  cases ho with
  | @otorgar recurso pid k' hb hm henCpu =>
      -- `desbloquear_proceso` may come with `sem_planificacion_largo` in hand
      intro P r hP hr
      refine .inr ⟨.planificacion, _, rfl, hP.2.1, ?_⟩
      refine Disciplina.Cubre.respeta (y := P) ?_ ?_
      · simp [hP.1, hP.2]
      · rwa [Reglas.tras_hacer (by simp)] at hr
  | nada ho hm =>
      refine Reglas.desarrolla_of_cubre fun P _ => ?_
      rw [Reglas.tras_hacer fun c => ?_]
      · exact rfl
      · cases o <;> first | exact ho.elim | exact id
  | despachar hs hp =>
      refine Reglas.desarrolla_of_cubre fun P hP => ?_
      refine Disciplina.Cubre.append (y := P) ?_ (cubre_trasDespachar k _ _ hP.2.1)
      simp [hP.1, hP.2]
  | mensajeCpu p m =>
      refine Reglas.desarrolla_of_cubre fun P hP => ?_
      rw [Reglas.tras_hacer (by simp)]
      obtain ⟨rfl, hP⟩ := hP
      exact suelto_atenderCpuDispatch k p m P hP
  | recursoEspera hm =>
      refine Reglas.desarrolla_of_cubre fun P hP => ?_
      rw [Reglas.tras_hacer (by simp)]
      refine (suelto_bloquearProceso _ false (by simp [hP.1]) P hP.2).append ?_
      simp
  | eliminarProceso p =>
      refine Reglas.desarrolla_of_cubre fun P hP => ?_
      rw [Reglas.tras_hacer (by simp)]
      exact suelto_eliminarAfuera p hP.1 P hP.2
  | desbloquear hs hl =>
      refine Reglas.desarrolla_of_cubre fun P hP => ?_
      rcases hl with rfl | rfl <;> simp [hP.1, hP.2]
  | pasada hl =>
      refine Reglas.desarrolla_of_cubre fun P hP => ?_
      rcases hl with rfl | rfl <;> simp [hP.1, hP.2]
  | dejarRunning hr =>
      refine Reglas.desarrolla_of_cubre fun P hP => ?_
      simpa using hP.2
  | _ =>
      refine Reglas.desarrolla_of_cubre fun P hP => ?_
      simp_all [reanudar, probarGrado]

/-! ### The console -/

/-- Where the console is: with nothing to do, creating a process, in DETENER_PLANIFICACION or in
INICIAR_PLANIFICACION, with the semaphores that it has in each of them. -/
inductive Consola : Bool → (Cerrojo → Prop) → Codigo → Prop
  | quieta {b : Bool} {P : Cerrojo → Prop} (hP : ∀ c, P c ↔ b = false) : Consola b P []
  | crea {b : Bool} {P : Cerrojo → Prop} (hP : ∀ c, P c ↔ b = false) :
      Consola b P [.hacer .crearPcb]
  | copia {b : Bool} {P : Cerrojo → Prop} (p : Pcb) (hP : ∀ c, P c ↔ b = false) :
      Consola b P [.hacer (.copiarMListNew p)]
  | agrega {b : Bool} {P : Cerrojo → Prop} (p : Pcb) (hP : ∀ c, P c ↔ b = false) :
      Consola b P [.hacer (.agregarANew p)]
  | detiene {P : Cerrojo → Prop} (hP : ∀ c, ¬P c) :
      Consola true P [.esperar .planificacion, .esperar .largo, .hacer (.pausar false)]
  | detieneLargo {P : Cerrojo → Prop} (hplan : P .planificacion) (hlargo : ¬P .largo) :
      Consola true P [.esperar .largo, .hacer (.pausar false)]
  | detenida {P : Cerrojo → Prop} (hP : ∀ c, P c) : Consola true P [.hacer (.pausar false)]
  | inicia {P : Cerrojo → Prop} (hP : ∀ c, P c) :
      Consola false P [.avisar .planificacion, .avisar .largo, .hacer (.pausar true)]
  | iniciaLargo {P : Cerrojo → Prop} (hplan : ¬P .planificacion) (hlargo : P .largo) :
      Consola false P [.avisar .largo, .hacer (.pausar true)]
  | iniciada {P : Cerrojo → Prop} (hP : ∀ c, ¬P c) : Consola false P [.hacer (.pausar true)]

variable {b : Bool} {c : Cerrojo}

theorem Consola.respeta (hc : Consola b P r) : (reglas .consola).disciplina.Respeta P r := by
  cases hc <;> simp_all

theorem Consola.esperar (hc : Consola b P (.esperar c :: r)) :
    Consola b ((reglas .consola).tras P (.esperar c)) r := by
  cases hc with
  | detiene hP => exact .detieneLargo (by simp) (by simp [hP])
  | detieneLargo hplan hlargo => exact .detenida (by simp [hplan])

theorem Consola.avisar (hc : Consola b P (.avisar c :: r)) :
    Consola b ((reglas .consola).tras P (.avisar c)) r := by
  cases hc with
  | inicia hP => exact .iniciaLargo (by simp) (by simp [hP])
  | iniciaLargo hplan hlargo => exact .iniciada (by simp [hplan])

theorem Consola.hacer (hc : Consola k.pausar P (.hacer o :: r)) (ho : Hace k o k' e) :
    Consola k'.pausar P (e ++ r) := by
  generalize hb : k.pausar = b at hc
  cases hc with
  | crea hP =>
      cases ho with
      | nada ho => exact ho.elim
      | crearPcb hm => exact .copia _ (by rwa [hm.pausar, hb])
  | copia p hP =>
      cases ho with
      | nada ho => exact ho.elim
      | copiarMListNew => exact .agrega _ (by rwa [hb])
  | agrega p hP =>
      cases ho with
      | nada ho => exact ho.elim
      | agregarANew => exact .quieta (by rwa [← hb] at hP)
  | detenida hP =>
      cases ho with
      | nada ho => exact ho.elim
      | pausar => exact .quieta (by simp [hP])
  | iniciada hP =>
      cases ho with
      | nada ho => exact ho.elim
      | pausar => exact .quieta (by simp [hP])

theorem Consola.arranca {ev : Evento} (hc : Consola k.pausar P [])
    (ha : Arranca k .consola ev k' r) : Consola k'.pausar P r := by
  rw [ha.marcoPids.pausar]
  generalize hb : k.pausar = b at hc ⊢
  cases hc with
  | quieta hP =>
      cases ha with
      | crear => exact .crea hP
      | iniciar =>
          unfold iniciarPlanificacion
          split
          · exact .quieta hP
          · rename_i hk
            obtain rfl : b = false := by rw [← hb, Bool.not_eq_true] at *; exact hk
            exact .inicia (by simpa using hP)
      | detener =>
          unfold detenerPlanificacion
          split
          · rename_i hk
            obtain rfl : b = true := hb ▸ hk
            exact .detiene (by simpa using hP)
          · exact .quieta hP

/-- What a thread starts with follows the rules. -/
theorem Arranca.suelto {ev : Evento} (ha : Arranca k h ev k' r) (hh : h ≠ .consola) :
    Suelto h r := by
  cases ha with
  | crear | iniciar | detener => exact absurd rfl hh
  | finalizar n pid => exact suelto_finalizarProceso pid (by simp)
  | dispatch p m ahora =>
      intro P hP
      simp [hP]
  | io hm => exact suelto_atenderIo _ _ _ (by simp)
  | corto ahora => exact suelto_cicloCorto (by simp)
  | largo => exact suelto_cicloLargo

end

/-! ### Every run -/

/-- Every thread follows the rules, the two semaphores are binary, and the console has both exactly
during a pause. -/
structure Ordenado (s : Estado) : Prop where
  enRegla : s.reparto.EnRegla reglas
  cuadra : s.reparto.Cuadra (cuenta s.nucleo)
  consola : Consola s.nucleo.pausar (s.reparto.tiene .consola) (s.codigo .consola)

theorem ordenado_inicial (config : Kernel.Config) :
    Ordenado { nucleo := Kernel.iniciar config } where
  enRegla h := by
    refine .inl fun hh c hc => hh ?_
    exact (Option.some.inj hc).symm
  cuadra c := by cases c <;> rfl
  consola := .quieta fun c => ⟨fun _ => rfl, fun _ => rfl⟩

variable {s s' : Estado} {a : Suceso}

/-- What is left of the code of a thread follows the rules. -/
theorem Ordenado.sigue (hs : Ordenado s) (hh : s.codigo h = r) :
    (reglas h).Sigue (s.reparto.tiene h) r := by
  rw [← hh]
  exact hs.enRegla h

/-- What the other threads hold, and what is left of their code, stays as it is. -/
theorem Paso.otra (hs : Ordenado s) (hp : Paso s a s') {j : Hebra} (hj : a.hebra ≠ some j) :
    s'.reparto.tiene j = s.reparto.tiene j ∧ s'.codigo j = s.codigo j := by
  have hne : ∀ h, a.hebra = some h → j ≠ h := by
    rintro h hh rfl
    exact hj hh
  cases hp with
  | llega hp ha hr => exact ⟨rfl, Cerrojos.Reparto.seguir_codigo_of_ne (hne _ rfl)⟩
  | directo he ha hm => exact ⟨rfl, rfl⟩
  | esperar hh hc =>
      refine ⟨?_, Cerrojos.Reparto.tomar_codigo_of_ne (hne _ rfl)⟩
      rw [Cerrojos.Reparto.tomar_tiene (R := reglas) (hs.cuadra.dueno_eq_none hc),
        if_neg (hne _ rfl)]
  | avisar hh =>
      refine ⟨?_, Cerrojos.Reparto.soltar_codigo_of_ne (hne _ rfl)⟩
      rw [Cerrojos.Reparto.soltar_tiene (R := reglas) (hs.enRegla.dueno_of_avisar hh),
        if_neg (hne _ rfl)]
  | hacer hh ho => exact ⟨rfl, Cerrojos.Reparto.seguir_codigo_of_ne (hne _ rfl)⟩

/-- Only the console starts and ends a pause. -/
theorem Paso.pausar (hs : Ordenado s) (hp : Paso s a s') (hj : a.hebra ≠ some .consola) :
    s'.nucleo.pausar = s.nucleo.pausar := by
  cases hp with
  | llega hp ha hr => exact (arranca_of_arrancar hr).marcoPids.pausar
  | directo he ha hm => exact (haceDirecto_of_manejar he hm).pausar
  | esperar | avisar => exact conCuenta_pausar ..
  | hacer hh ho =>
      refine (hace_of_ejecutar ho).fijo.2.2 ?_
      rintro b rfl
      exact hj (congrArg some (hs.enRegla.permite hh))

theorem enRegla_paso (hs : Ordenado s) (hp : Paso s a s') : s'.reparto.EnRegla reglas := by
  cases hp with
  | @llega h ev k r hp ha hr =>
      have ha := arranca_of_arrancar hr
      refine hs.enRegla.seguir (.inl ?_)
      by_cases hh : h = .consola
      · subst hh
        exact ((hp.1 ▸ hs.consola).arranca ha).respeta
      · have hnada := (hs.sigue hp.1).final hh
        have := (ha.suelto hh _ hnada).respeta (r := []) fun _ => hnada
        rwa [List.append_nil] at this
  | directo => exact hs.enRegla
  | esperar hh hc => exact hs.enRegla.tomar hh (hs.cuadra.dueno_eq_none hc)
  | avisar hh => exact hs.enRegla.soltar hh
  | hacer hh ho => exact hs.enRegla.hacer hh (hace_of_ejecutar ho).desarrolla

theorem cuadra_paso (hs : Ordenado s) (hp : Paso s a s') :
    s'.reparto.Cuadra (cuenta s'.nucleo) := by
  cases hp with
  | llega hp ha hr =>
      rw [(arranca_of_arrancar hr).marcoPids.cuenta]
      exact hs.cuadra.seguir
  | directo he ha hm =>
      rw [(haceDirecto_of_manejar he hm).cuenta]
      exact hs.cuadra
  | esperar hh hc =>
      rw [cuenta_conCuenta]
      exact hs.cuadra.tomar hc
  | avisar hh =>
      rw [cuenta_conCuenta]
      exact hs.cuadra.soltar (hs.enRegla.dueno_of_avisar hh)
  | hacer hh ho =>
      rw [(hace_of_ejecutar ho).fijo.1]
      exact hs.cuadra.seguir

theorem consola_paso (hs : Ordenado s) (hp : Paso s a s') :
    Consola s'.nucleo.pausar (s'.reparto.tiene .consola) (s'.codigo .consola) := by
  by_cases hj : a.hebra = some .consola
  swap
  · obtain ⟨htiene, hcodigo⟩ := hp.otra hs hj
    rw [hp.pausar hs hj, htiene, hcodigo]
    exact hs.consola
  cases hp with
  | llega hp ha hr =>
      cases hj
      simpa [Estado.codigo] using (hp.1 ▸ hs.consola).arranca (arranca_of_arrancar hr)
  | directo => cases hj
  | esperar hh hc =>
      cases hj
      rw [conCuenta_pausar, Cerrojos.Reparto.tomar_tiene (R := reglas) (hs.cuadra.dueno_eq_none hc)]
      simpa [Estado.codigo] using (hh ▸ hs.consola).esperar
  | avisar hh =>
      cases hj
      rw [conCuenta_pausar,
        Cerrojos.Reparto.soltar_tiene (R := reglas) (hs.enRegla.dueno_of_avisar hh)]
      simpa [Estado.codigo] using (hh ▸ hs.consola).avisar
  | hacer hh ho =>
      cases hj
      simpa [Estado.codigo] using (hh ▸ hs.consola).hacer (hace_of_ejecutar ho)

theorem ordenado_paso (hs : Ordenado s) (hp : Paso s a s') : Ordenado s' :=
  ⟨enRegla_paso hs hp, cuadra_paso hs hp, consola_paso hs hp⟩

theorem ordenado_alcanzable {C : Estado → Suceso → Prop}
    (hs : Transicion.AlcanzableCon sistema C s) : Ordenado s := by
  refine hs.invariante ?_ ?_
  · rintro s ⟨config, rfl⟩
    exact ordenado_inicial config
  · intro s a s' hs _ hp
    exact ordenado_paso hs (paso_of_avanzar hp)

end KernelHebras
