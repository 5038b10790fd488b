/-
**The handlers of the kernel in one step, and its threads.**

The kernel of `KernelConexion` handles an event to its end before the next one.  Every run of it is
a run of the threads of `KernelHebras` in which nobody interrupts the one that runs: between two
events the two schedulers are where they wait, in the middle of a pass, and the other threads have
nothing left.  So what holds of every state that the threads reach holds of every state that the
handlers reach.

Main definitions:

* `KernelHebras.codigoCorto`, `KernelHebras.codigoLargo` — what is left of a pass of a scheduler;
* `KernelHebras.Muestra` — the state of the threads that shows the kernel between two events.

Main results:

* `KernelHebras.solo_corto`, `KernelHebras.solo_largo` — a step of a scheduler;
* `KernelHebras.simulacionDebil` — every step of the kernel is a run of its threads;
* `KernelHebras.exists_alcanzable` — what the handlers reach, the threads reach.
-/

import TpSisop.KernelAcciones
import TpSisop.KernelFallas
import TpSisop.KernelSolo

set_option relaxedAutoImplicit false
set_option autoImplicit false

namespace KernelHebras

open Kernel (Nucleo Pcb Lista Evento MensajeCpu FaseCorto FaseLargo exigir_bind_eq_ok
  obtenido_eq_ok)
open Resultado (bind_eq_ok)

variable {ahora : ℤ} {k k₁ k' : Nucleo} {r r' : Codigo}

/-! ### The schedulers -/

/-- What is left of a pass of `planificadorCortoPlazo`. -/
def codigoCorto : FaseCorto → Codigo
  | .esperaCpu => cicloCorto
  | .esperaReady => [semWait .processInReady, .esperar .planificacion, .hacer .pasada]
  | .esperaPlanificacion => [.esperar .planificacion, .hacer .pasada]
  | .esperaQuantum => [semWait .interruptionQuantum, .hacer (.despachar .ready)]
  | .cuenta pidInicial tiempoInicial quantum =>
      [.hacer (.turnoQuantumVrr pidInicial tiempoInicial quantum)]

/-- What is left of a turn of `mover_a_ready`. -/
def codigoLargo : FaseLargo → Codigo
  | .esperaCreacion => cicloLargo
  | .esperaGrado => probarGrado ++ [.esperar .largo, .hacer .admitir, .avisar .largo]
  | .esperaPlanificacion => [.esperar .largo, .hacer .admitir, .avisar .largo]

/-- What is left of it between two events: a pass that ended left nothing. -/
def restoCorto : FaseCorto → Codigo
  | .esperaCpu => []
  | f => codigoCorto f

def restoLargo : FaseLargo → Codigo
  | .esperaCreacion => []
  | f => codigoLargo f

theorem restoCorto_of_ne {f : FaseCorto} (h : f ≠ .esperaCpu) : restoCorto f = codigoCorto f := by
  cases f <;> first | rfl | contradiction

theorem restoLargo_of_ne {f : FaseLargo} (h : f ≠ .esperaCreacion) :
    restoLargo f = codigoLargo f := by
  cases f <;> first | rfl | contradiction

/-- The kernel, with its schedulers where `KernelHebras` has them. -/
def quieto (k : Nucleo) : Nucleo := { k with corto := .esperaCpu, largo := .esperaCreacion }

theorem Realiza.quieto {libres : Cerrojo → Prop} (h : Realiza libres ahora k r k' r') :
    Solo ahora (quieto k) r (quieto k') r' := by
  have hs := h.solo ⟨.esperaCpu, .esperaCreacion, cuenta k⟩ fun _ _ hc => hc
  have hk' : (⟨.esperaCpu, .esperaCreacion, cuenta k⟩ : Marca).en k' = KernelHebras.quieto k' := by
    rw [← h.cuenta_eq]
    rfl
  rw [hk'] at hs
  exact hs

/-- What a pass does once it chose a process, which is not in RUNNING yet, where its time is
written. -/
theorem realiza_despachar {libres : Cerrojo → Prop} {l : Lista} {p q : Pcb} {b : List Pcb}
    (hl : k.listas l = p :: b) (hne : l ≠ .running) (hb : ∀ x ∈ k.listas .running, x.pid ≠ p.pid)
    (hq : (if k.config.algoritmo = .vrr ∧ l = .ready then { p with quantum := k.config.quantum }
      else p) = q) :
    Realiza libres ahora k [.hacer (.despachar l)] ((k.conLista l b).despachar q ahora)
      (trasDespachar k q.quantum) := by
  have hpid : q.pid = p.pid := by
    rw [← hq]
    split <;> rfl
  have ho : ejecutar k ahora (.despachar l) = .ok (k.conLista l b,
      [.hacer (.actualizarEstadoPcb q .exec .running),
        .hacer (.enviarSiguientePcb { q with estado := .exec } true)] ++
        trasDespachar k q.quantum) := by
    refine bind_eq_ok.2 ⟨(p, b), by rw [hl]; rfl, ?_⟩
    simp only [hq]
  refine .hacer_fin ho (.hacer rfl ?_)
  by_cases hvrr : k.config.algoritmo = .vrr
  · have hfin := Coleccion.alterar_append (q := fun x => x.pid == q.pid) (a := k.listas .running)
      (fun x hx => by simpa [hpid] using hb x hx) (x := { q with estado := .exec }) (by simp)
      (fun x : Pcb => { x with tiempoInicial := ahora }) []
    have hejecutar : ejecutar ((k.conLista l b).actualizarEstadoPcb q .exec .running) ahora
        (.enviarSiguientePcb { q with estado := .exec } true) =
        .ok ((k.conLista l b).despachar q ahora, []) := by
      simp [ejecutar, Nucleo.despachar, Nucleo.conLista, Nucleo.actualizarEstadoPcb,
        Nucleo.enviarSiguientePcb, Familia.agregar, hvrr, hfin, hne.symm]
    exact .hacer hejecutar (.fin _ _)
  · have hejecutar : ejecutar ((k.conLista l b).actualizarEstadoPcb q .exec .running) ahora
        (.enviarSiguientePcb { q with estado := .exec } true) =
        .ok ((k.conLista l b).despachar q ahora, []) := by
      simp [ejecutar, Nucleo.despachar, Nucleo.conLista, Nucleo.actualizarEstadoPcb, hvrr]
    exact .hacer hejecutar (.fin _ _)

theorem not_running_of_cons {l : Lista} {p : Pcb} {b : List Pcb}
    (hu : ∀ x, Kernel.veces k.listas x ≤ 1) (hl : k.listas l = p :: b) (hne : l ≠ .running) :
    ∀ x ∈ k.listas .running, x.pid ≠ p.pid := by
  intro x hx hpid
  have hp : p ∈ k.listas l := by
    rw [hl]
    exact List.mem_cons_self
  exact hne (Kernel.eq_of_pid (hu _) hp hx hpid).1.symm

theorem despachar_pidEjecutando {p : Pcb} : (k.despachar p ahora).pidEjecutando = p.pid := by
  simp only [Nucleo.despachar, Nucleo.enviarSiguientePcb]
  split <;> rfl

theorem realiza_contador {libres : Cerrojo → Prop} {p : Pcb} {quantum : ℤ} :
    Realiza libres ahora (k.despachar p ahora) [.hacer (.contadorQuantumVrr quantum)]
      (k.despachar p ahora) (restoCorto (.cuenta p.pid ahora quantum)) := by
  have ho : ejecutar (k.despachar p ahora) ahora (.contadorQuantumVrr quantum) =
      .ok (k.despachar p ahora, restoCorto (.cuenta p.pid ahora quantum)) := by
    simp only [ejecutar, despachar_pidEjecutando]
    rfl
  exact .hacer_fin ho (.fin _ _)

/-- The pass of the scheduler that chooses a process from a list. -/
theorem solo_elige {l : Lista} {p q : Pcb} {b : List Pcb} (hn : 0 < k.sem.planificacion)
    (hu : ∀ x, Kernel.veces k.listas x ≤ 1) (hl : k.listas l = p :: b) (hne : l ≠ .running)
    (ho : ejecutar k ahora .pasada = .ok (k, [.hacer (.despachar l)]))
    (hq : (if k.config.algoritmo = .vrr ∧ l = .ready then { p with quantum := k.config.quantum }
      else p) = q) (hr : trasDespachar k q.quantum = .avisar .planificacion :: r)
    (hr' : Realiza (fun _ => True) ahora ((k.conLista l b).despachar q ahora) r
      ((k.conLista l b).despachar q ahora) r') :
    Solo ahora (quieto k) [.esperar .planificacion, .hacer .pasada]
      (quieto ((k.conLista l b).despachar q ahora)) r' := by
  have hs : Realiza (fun _ => True) ahora k [.esperar .planificacion, .hacer .pasada]
      ((k.conLista l b).despachar q ahora) r' := by
    refine .seccion trivial hn (.hacer_fin ho ?_) hr'
    rw [← hr]
    exact realiza_despachar hl hne (not_running_of_cons hu hl hne) hq
  exact hs.quieto

theorem solo_pasada (hn : 0 < k.sem.planificacion) (hu : ∀ x, Kernel.veces k.listas x ≤ 1) :
    Solo ahora (quieto k) [.esperar .planificacion, .hacer .pasada]
      (quieto (Kernel.pasada k ahora)) (restoCorto (Kernel.pasada k ahora).corto) := by
  have nada : ejecutar k ahora .pasada = .ok (k, [.avisar .planificacion]) →
      Solo ahora (quieto k) [.esperar .planificacion, .hacer .pasada] (quieto k) [] := by
    intro ho
    have hs : Realiza (fun _ => True) ahora k [.esperar .planificacion, .hacer .pasada] k [] :=
      .seccion trivial hn (.hacer_fin ho (.fin _ _)) (.fin _ _)
    exact hs.quieto
  unfold Kernel.pasada
  split
  · rename_i halg
    split
    · rename_i hready
      exact nada (by simp [ejecutar, halg, hready])
    · rename_i p ready hready
      exact solo_elige hn hu hready (by decide) (by simp [ejecutar, halg, hready])
        (by simp [halg]) (by simp [trasDespachar, halg, restoCorto]) (.fin _ _)
  · rename_i halg
    have ho : ejecutar (conCuenta (quieto k) .planificacion (k.sem.planificacion - 1)) ahora
        .pasada = .ok (conCuenta (quieto k) .planificacion (k.sem.planificacion - 1),
          codigoCorto .esperaQuantum) := by
      simp only [ejecutar, conCuenta_config]
      rw [show (quieto k).config = k.config from rfl, halg]
      rfl
    exact .esperar hn (.hacer ho (.fin _ _))
  · rename_i halg
    split
    · rename_i p auxiliar haux
      exact solo_elige hn hu haux (by decide) (by simp [ejecutar, halg, haux]) (by simp)
        (by simp [trasDespachar, halg]) realiza_contador
    · rename_i haux
      split
      · rename_i p ready hready
        exact solo_elige hn hu hready (by decide) (by simp [ejecutar, halg, haux, hready])
          (by simp [halg]) (by simp [trasDespachar, halg]) realiza_contador
      · rename_i hready
        exact nada (by simp [ejecutar, halg, haux, hready])
  · rename_i halg
    exact nada (by simp [ejecutar, halg])

theorem pasada_largo : (Kernel.pasada k ahora).largo = k.largo := by
  unfold Kernel.pasada
  split
  · split <;> rfl
  · rfl
  · split
    · rfl
    · split <;> rfl
  · rfl

/-- A turn of the loop that counts the quantum under VRR. -/
theorem solo_contadorQuantumVrr {pid : ℕ} {t q : ℤ} (hf : k.corto = .cuenta pid t q)
    (h : Kernel.contadorQuantumVrr k pid t q ahora = .ok k') :
    Solo ahora (quieto k) (codigoCorto (.cuenta pid t q)) (quieto k') (restoCorto k'.corto) ∧
      k'.largo = k.largo := by
  obtain ⟨estado, hestado, h⟩ := bind_eq_ok.1 h
  have hturno : ejecutar k ahora (.turnoQuantumVrr pid t q) =
      .ok ({ k' with corto := k.corto }, restoCorto k'.corto) ∧ k'.largo = k.largo := by
    split at h
    · rename_i hfin
      cases h
      refine ⟨bind_eq_ok.2 ⟨estado, hestado, ?_⟩, rfl⟩
      rw [if_pos hfin]
      rfl
    · rename_i hfin
      split at h
      · rename_i hq
        split at h
        · rename_i hpid
          cases h
          refine ⟨bind_eq_ok.2 ⟨estado, hestado, ?_⟩, rfl⟩
          rw [if_neg hfin, if_pos hq, if_pos hpid]
          rfl
        · rename_i hpid
          cases h
          refine ⟨bind_eq_ok.2 ⟨estado, hestado, ?_⟩, rfl⟩
          rw [if_neg hfin, if_pos hq, if_neg hpid]
          rfl
      · rename_i hq
        cases h
        refine ⟨bind_eq_ok.2 ⟨estado, hestado, ?_⟩, rfl⟩
        have hresto : restoCorto k.corto = [.hacer (.turnoQuantumVrr pid t q)] := by
          rw [hf]
          rfl
        rw [if_neg hfin, if_neg hq, hresto]
  have hs : Realiza (fun _ => True) ahora k (codigoCorto (.cuenta pid t q))
      { k' with corto := k.corto } (restoCorto k'.corto) := .hacer_fin hturno.1 (.fin _ _)
  exact ⟨hs.quieto, hturno.2⟩

/-- A step of the short-term scheduler. -/
theorem solo_corto (hrr : k.corto = .esperaQuantum → k.config.algoritmo = .rr)
    (hu : ∀ x, Kernel.veces k.listas x ≤ 1) (h : Kernel.planificadorCortoPlazo k ahora = .ok k') :
    Solo ahora (quieto k) (codigoCorto k.corto) (quieto k') (restoCorto k'.corto) ∧
      k'.largo = k.largo := by
  unfold Kernel.planificadorCortoPlazo at h
  split at h
  · rename_i hf
    obtain ⟨hn, h⟩ := exigir_bind_eq_ok.1 h
    cases h
    rw [hf]
    have hs : Realiza (fun _ => True) ahora k cicloCorto _ _ := .semWait hn (.fin _ _)
    exact ⟨hs.quieto, rfl⟩
  · rename_i hf
    obtain ⟨hn, h⟩ := exigir_bind_eq_ok.1 h
    cases h
    rw [hf]
    have hs : Realiza (fun _ => True) ahora k (codigoCorto .esperaReady) _ _ :=
      .semWait hn (.fin _ _)
    exact ⟨hs.quieto, rfl⟩
  · rename_i hf
    obtain ⟨hn, h⟩ := exigir_bind_eq_ok.1 h
    cases h
    rw [hf]
    exact ⟨solo_pasada hn hu, pasada_largo⟩
  · rename_i hf
    obtain ⟨hn, h⟩ := exigir_bind_eq_ok.1 h
    obtain ⟨x, hx, h⟩ := bind_eq_ok.1 h
    cases h
    rw [hf]
    refine ⟨?_, rfl⟩
    have hl : k.listas .ready = x.1 :: x.2 := (saca_of_remover (obtenido_eq_ok.1 hx)).1
    have hb := not_running_of_cons hu hl (by decide)
    have hs : Realiza (fun _ => True) ahora k (codigoCorto .esperaQuantum) _
        (trasDespachar k x.1.quantum) :=
      .semWait hn (realiza_despachar hl (by decide) hb (by simp [conValor, hrr hf]))
    have htras : trasDespachar k x.1.quantum =
        [semPost .begginQuantum, .avisar .planificacion] := by
      simp [trasDespachar, hrr hf]
    rw [htras] at hs
    exact hs.quieto.trans (.hacer rfl (.avisar (.fin _ _)))
  · rename_i pid t q hf
    rw [hf]
    exact solo_contadorQuantumVrr hf h

/-- A step of `mover_a_ready`. -/
theorem solo_largo (h : Kernel.moverAReady k = .ok k') :
    Solo ahora (quieto k) (codigoLargo k.largo) (quieto k') (restoLargo k'.largo) ∧
      k'.corto = k.corto := by
  unfold Kernel.moverAReady at h
  split at h
  · rename_i hf
    obtain ⟨hn, h⟩ := exigir_bind_eq_ok.1 h
    cases h
    rw [hf]
    have hs : Realiza (fun _ => True) ahora k cicloLargo _ _ := .semWait hn (.fin _ _)
    exact ⟨hs.quieto, rfl⟩
  · rename_i hf
    obtain ⟨hn, h⟩ := exigir_bind_eq_ok.1 h
    have htam : ((k.listas .ready).length + (k.listas .running).length + (k.listas .blocked).length
        + (k.listas .auxiliar).length : ℤ) = tamanioMultiprogramacion k := by
      simp [tamanioMultiprogramacion]
    simp only [htam] at h
    split at h
    · rename_i hg
      cases h
      rw [hf]
      have hs : Realiza (fun _ => True) ahora k (codigoLargo .esperaGrado) _
          (codigoLargo .esperaGrado) :=
        .semWait hn (.hacer (if_pos hg) (.fin _ _))
      exact ⟨hs.quieto, rfl⟩
    · rename_i hg
      cases h
      rw [hf]
      have hs : Realiza (fun _ => True) ahora k (codigoLargo .esperaGrado) _
          (codigoLargo .esperaPlanificacion) :=
        .semWait hn (.hacer (if_neg hg) (.fin _ _))
      exact ⟨hs.quieto, rfl⟩
  · rename_i hf
    obtain ⟨hn, h⟩ := exigir_bind_eq_ok.1 h
    obtain ⟨hm, h⟩ := exigir_bind_eq_ok.1 h
    rw [hf]
    split at h
    · rename_i hnew
      cases h
      have ho : ejecutar k ahora .admitir = .ok ({ k with mListNew := true }, []) := by
        simp only [ejecutar, hm, hnew, Bool.false_eq_true, if_false]
      have hs : Realiza (fun _ => True) ahora k (codigoLargo .esperaPlanificacion)
          { k with mListNew := true } [] :=
        .seccion trivial hn (.hacer ho (.fin _ _)) (.fin _ _)
      exact ⟨hs.quieto, rfl⟩
    · rename_i p new hnew
      cases h
      have ho : ejecutar k ahora .admitir = .ok (k.conLista .new new,
          [.hacer (.actualizarEstadoPcb p .ready .ready), semPost .processInReady]) := by
        simp only [ejecutar, hm, hnew, Bool.false_eq_true, if_false]
      have hs : Realiza (fun _ => True) ahora k (codigoLargo .esperaPlanificacion) _ [] :=
        .seccion trivial hn (.hacer ho (.hacer rfl (.hacer rfl (.fin _ _)))) (.fin _ _)
      exact ⟨hs.quieto, rfl⟩

/-! ### The console, and the events that take one step -/

theorem quieto_pausar : (quieto k).pausar = k.pausar := rfl

theorem solo_iniciarPlanificacion : Solo ahora (quieto k) (iniciarPlanificacion (quieto k))
    (quieto (Kernel.iniciarPlanificacion k)) [] := by
  unfold iniciarPlanificacion Kernel.iniciarPlanificacion
  rw [quieto_pausar]
  by_cases hp : k.pausar = true
  · rw [if_pos hp, if_pos hp]
    exact .fin _ _
  · rw [if_neg hp, if_neg hp]
    exact .avisar (.avisar (.hacer rfl (.fin _ _)))

theorem solo_detenerPlanificacion (h : Kernel.detenerPlanificacion k = .ok k') :
    Solo ahora (quieto k) (detenerPlanificacion (quieto k)) (quieto k') [] := by
  unfold Kernel.detenerPlanificacion at h
  unfold detenerPlanificacion
  rw [quieto_pausar]
  split at h
  · rename_i hp
    rw [if_pos hp]
    obtain ⟨hn, h⟩ := exigir_bind_eq_ok.1 h
    obtain ⟨hm, h⟩ := exigir_bind_eq_ok.1 h
    cases h
    exact .esperar hn (.esperar hm (.hacer rfl (.fin _ _)))
  · rename_i hp
    cases h
    rw [if_neg hp]
    exact .fin _ _

theorem iniciarPlanificacion_fases : (Kernel.iniciarPlanificacion k).corto = k.corto ∧
    (Kernel.iniciarPlanificacion k).largo = k.largo := by
  unfold Kernel.iniciarPlanificacion
  split <;> exact ⟨rfl, rfl⟩

theorem detenerPlanificacion_fases (h : Kernel.detenerPlanificacion k = .ok k') :
    k'.corto = k.corto ∧ k'.largo = k.largo := by
  unfold Kernel.detenerPlanificacion at h
  split at h
  · obtain ⟨_, -, h⟩ := bind_eq_ok.1 h
    obtain ⟨_, -, h⟩ := bind_eq_ok.1 h
    cases h
    exact ⟨rfl, rfl⟩
  · cases h
    exact ⟨rfl, rfl⟩

theorem manejar_quieto {ev : Evento} (hd : Directo ev) (h : Kernel.manejar k ev = .ok k') :
    Kernel.manejar (quieto k) ev = .ok (quieto k') ∧ k'.corto = k.corto ∧ k'.largo = k.largo := by
  cases ev with
  | multiprogramacion valor =>
      cases h
      exact ⟨rfl, rfl, rfl⟩
  | conexionIo nombre tipoInterfaz =>
      cases h
      exact ⟨rfl, rfl, rfl⟩
  | memoria m =>
      cases h
      cases m <;> exact ⟨rfl, rfl, rfl⟩
  | reloj =>
      simp only [Kernel.manejar, Kernel.contadorQuantumRr] at h
      split at h
      · rename_i hr
        obtain ⟨u, hn, h⟩ := bind_eq_ok.1 h
        cases h
        have hq : (quieto k).reloj = .espera := hr
        refine ⟨?_, rfl, rfl⟩
        simp only [Kernel.manejar, Kernel.contadorQuantumRr, hq]
        exact bind_eq_ok.2 ⟨u, hn, rfl⟩
      · rename_i pid hr
        have hq : (quieto k).reloj = .cuenta pid := hr
        simp only [Kernel.manejar, Kernel.contadorQuantumRr, hq]
        split at h
        · rename_i hpid
          cases h
          exact ⟨if_pos hpid, rfl, rfl⟩
        · rename_i hpid
          cases h
          exact ⟨if_neg hpid, rfl, rfl⟩
  | _ => exact hd.elim

theorem admite_quieto {ev : Evento} (h : Kernel.admite k ev) : Kernel.admite (quieto k) ev := by
  cases ev <;> exact h

/-! ### The simulation -/

/-- What the threads have left while the kernel is between two events. -/
def resto (k : Nucleo) : Hebra → Codigo
  | .corto => restoCorto k.corto
  | .largo => restoLargo k.largo
  | _ => []

/-- The state that shows the kernel between two events. -/
structure Muestra (k : Nucleo) (s : Estado) : Prop where
  nucleo : s.nucleo = quieto k
  codigo : s.codigo = resto k

theorem resto_eq (hcorto : k'.corto = k.corto) (hlargo : k'.largo = k.largo) :
    resto k' = resto k := by
  funext h
  cases h <;> simp [resto, hcorto, hlargo]

theorem update_resto_corto (hlargo : k'.largo = k.largo) :
    Function.update (resto k) .corto (restoCorto k'.corto) = resto k' := by
  funext h
  cases h <;> simp [resto, hlargo]

theorem update_resto_largo (hcorto : k'.corto = k.corto) :
    Function.update (resto k) .largo (restoLargo k'.largo) = resto k' := by
  funext h
  cases h <;> simp [resto, hcorto]

namespace Muestra

variable {s : Estado} {h : Hebra} {ev : Evento}

/-- A thread that has nothing to do reads an event and runs its code alone. -/
theorem atiende (hM : Muestra k s) (ha : Kernel.admite k ev) (hh : resto k h = [])
    (hr : arrancar (quieto k) h ev = some (k₁, r)) (hs : Solo ahora k₁ r (quieto k') r') :
    ∃ s', Transicion.Alcanzable (sistema.desde s) s' ∧ s'.nucleo = quieto k' ∧
      s'.codigo = Function.update (resto k) h r' := by
  have hlibre : puedeArrancar s h := ⟨by rw [hM.codigo, hh], fun _ => by rw [hM.codigo]; rfl⟩
  have hadmite : Kernel.admite s.nucleo ev := by
    rw [hM.nucleo]
    exact admite_quieto ha
  have ht : avanzar s (.llega h ev) = some
      { nucleo := k₁, reparto := s.reparto.seguir h r } := by
    simp only [avanzar, hlibre, hadmite, and_self, if_true]
    rw [hM.nucleo, hr]
    rfl
  obtain ⟨s', hs', hk', hfin⟩ := hs.alcanzable (s := ⟨k₁, s.reparto.seguir h r⟩) rfl
    Cerrojos.Reparto.seguir_codigo_self
  refine ⟨s', ?_, hk', ?_⟩
  · have hst : Transicion.Alcanzable (sistema.desde s) ⟨k₁, s.reparto.seguir h r⟩ :=
      .paso (.inicio rfl) trivial ht
    exact hst.seguir hs'
  · rw [hfin, show Estado.codigo ⟨k₁, s.reparto.seguir h r⟩ = Function.update s.codigo h r from rfl,
      Function.update_idem, hM.codigo]

/-- When the code ends, the thread has nothing left, as before. -/
theorem termina (hM : Muestra k s) (ha : Kernel.admite k ev) (hh : resto k h = [])
    (hr : arrancar (quieto k) h ev = some (k₁, r)) (hs : Solo ahora k₁ r (quieto k') [])
    (hcorto : k'.corto = k.corto) (hlargo : k'.largo = k.largo) :
    ∃ s', Transicion.Alcanzable (sistema.desde s) s' ∧ Muestra k' s' := by
  obtain ⟨s', hs', hk', hfin⟩ := hM.atiende ha hh hr hs
  refine ⟨s', hs', hk', ?_⟩
  rw [hfin, resto_eq hcorto hlargo, ← hh, Function.update_eq_self]

theorem realiza {k₀ : Nucleo} (hM : Muestra k s) (ha : Kernel.admite k ev) (hh : resto k h = [])
    (hr : arrancar (quieto k) h ev = some (quieto k₀, r))
    (hs : Realiza (fun _ => True) ahora k₀ r k' []) (hcorto : k₀.corto = k.corto)
    (hlargo : k₀.largo = k.largo) :
    ∃ s', Transicion.Alcanzable (sistema.desde s) s' ∧ Muestra k' s' :=
  hM.termina ha hh hr hs.quieto ((congrArg Marca.corto hs.marca).trans hcorto)
    ((congrArg Marca.largo hs.marca).trans hlargo)

/-- A step of the short-term scheduler, at the start of a pass or further on. -/
theorem corto (hM : Muestra k s)
    (hs : Solo ahora (quieto k) (codigoCorto k.corto) (quieto k') (restoCorto k'.corto))
    (hlargo : k'.largo = k.largo) :
    ∃ s', Transicion.Alcanzable (sistema.desde s) s' ∧ Muestra k' s' := by
  by_cases hf : k.corto = .esperaCpu
  · rw [hf] at hs
    obtain ⟨s', hs', hk', hfin⟩ := hM.atiende (h := .corto)
      (show Kernel.admite k (.corto ahora) from trivial) (by simp [resto, restoCorto, hf]) rfl hs
    exact ⟨s', hs', hk', hfin.trans (update_resto_corto hlargo)⟩
  · have hh : s.codigo .corto = codigoCorto k.corto := by
      rw [hM.codigo, ← restoCorto_of_ne hf]
      rfl
    obtain ⟨s', hs', hk', hfin⟩ := hs.alcanzable hM.nucleo hh
    rw [hM.codigo] at hfin
    exact ⟨s', hs', hk', hfin.trans (update_resto_corto hlargo)⟩

/-- A step of `mover_a_ready`, likewise. -/
theorem largo (hM : Muestra k s)
    (hs : Solo ahora (quieto k) (codigoLargo k.largo) (quieto k') (restoLargo k'.largo))
    (hcorto : k'.corto = k.corto) :
    ∃ s', Transicion.Alcanzable (sistema.desde s) s' ∧ Muestra k' s' := by
  by_cases hf : k.largo = .esperaCreacion
  · rw [hf] at hs
    obtain ⟨s', hs', hk', hfin⟩ := hM.atiende (h := .largo)
      (show Kernel.admite k .largo from trivial) (by simp [resto, restoLargo, hf]) rfl hs
    exact ⟨s', hs', hk', hfin.trans (update_resto_largo hcorto)⟩
  · have hh : s.codigo .largo = codigoLargo k.largo := by
      rw [hM.codigo, ← restoLargo_of_ne hf]
      rfl
    obtain ⟨s', hs', hk', hfin⟩ := hs.alcanzable hM.nucleo hh
    rw [hM.codigo] at hfin
    exact ⟨s', hs', hk', hfin.trans (update_resto_largo hcorto)⟩

theorem directo (hM : Muestra k s) (ha : Kernel.admite k ev) (he : Directo ev)
    (hm : Kernel.manejar k ev = .ok k') :
    ∃ s', Transicion.Alcanzable (sistema.desde s) s' ∧ Muestra k' s' := by
  obtain ⟨hq, hcorto, hlargo⟩ := manejar_quieto he hm
  have hadmite : Kernel.admite s.nucleo ev := by
    rw [hM.nucleo]
    exact admite_quieto ha
  have ht : avanzar s (.directo ev) = some { s with nucleo := quieto k' } := by
    simp only [avanzar, he, hadmite, and_self, if_true]
    rw [hM.nucleo, hq]
    rfl
  refine ⟨_, .paso (.inicio rfl) trivial ht, rfl, ?_⟩
  rw [resto_eq hcorto hlargo]
  exact hM.codigo

end Muestra

/-- The process that the CPU gives back is in RUNNING. -/
theorem not_blocked_of_admite {p : Pcb} {m : MensajeCpu} {t : ℤ} (hB : Kernel.Unica k.vista)
    (ha : Kernel.admite k (.cpu p m t)) : ∀ q ∈ k.listas .blocked, q.pid ≠ p.pid := by
  intro q hq hpid
  obtain ⟨x, hx, hp⟩ := Option.map_eq_some_iff.1 ha.1
  have hxp : x.pid = p.pid := by
    rw [← hp]
  have hrunning : x ∈ k.vista.listas .running := by
    rw [hB.enCpu]
    simp [Nucleo.vista, hx]
  have := (Kernel.eq_of_pid (hB.veces_le _) hrunning hq (hpid.trans hxp.symm)).1
  contradiction

/-- Every step of the kernel is a run of its threads, each of which runs alone. -/
theorem simulacionDebil : Transicion.SimulacionDebil Kernel.sistema sistema Muestra where
  inicial k := by
    rintro ⟨config, rfl⟩
    refine ⟨{ nucleo := Kernel.iniciar config }, ⟨config, rfl⟩, rfl, ?_⟩
    funext h
    cases h <;> rfl
  paso k s ev k' hk hM hpaso := by
    obtain ⟨ha, hm⟩ := hpaso
    have hB := (Kernel.base_alcanzable hk).unica
    cases ev with
    | iniciarProceso =>
        obtain ⟨hlibre, rfl⟩ := Kernel.crearProceso_eq_ok.1 hm
        have hcopia : ∀ k₁ : Nucleo, k₁.mListNew = false → ∀ p,
            ejecutar k₁ 0 (.copiarMListNew p) = .ok (k₁, [.hacer (.agregarANew p)]) := by
          intro k₁ h₁ p
          simp only [ejecutar, h₁, Bool.false_eq_true, if_false]
        have hs : Realiza (fun _ => True) 0 k [.hacer .crearPcb] k.conProceso [] :=
          .hacer rfl (.hacer (hcopia _ (by exact hlibre) _) (.hacer rfl (.fin _ _)))
        exact hM.realiza (h := .consola) ha rfl rfl hs rfl rfl
    | finalizarProceso pid =>
        have hs : Realiza (fun _ => True) 0 k (finalizarProceso pid) k' [] :=
          realiza_finalizarProceso (fun _ => trivial) hm
        exact hM.realiza (h := .orden 0) ha rfl rfl hs rfl rfl
    | iniciarPlanificacion =>
        cases hm
        have hs : Solo 0 (quieto k) _ (quieto (Kernel.iniciarPlanificacion k)) [] :=
          solo_iniciarPlanificacion
        obtain ⟨hcorto, hlargo⟩ := iniciarPlanificacion_fases (k := k)
        exact hM.termina (h := .consola) ha rfl rfl hs hcorto hlargo
    | detenerPlanificacion =>
        have hs : Solo 0 (quieto k) _ (quieto k') [] := solo_detenerPlanificacion hm
        obtain ⟨hcorto, hlargo⟩ := detenerPlanificacion_fases hm
        exact hM.termina (h := .consola) ha rfl rfl hs hcorto hlargo
    | cpu p m ahora =>
        have hb := not_blocked_of_admite hB ha
        have hs : Realiza (fun _ => True) ahora { k with enCpu := none } [.hacer (.mensajeCpu p m)]
            k' [] :=
          realiza_atenderCpuDispatch (fun _ => trivial) hb hm
        exact hM.realiza (h := .dispatch) ha rfl rfl hs rfl rfl
    | interfaz nombre pet respuesta =>
        obtain ⟨i, hi, hm⟩ := bind_eq_ok.1 hm
        rw [obtenido_eq_ok] at hi
        have hs : Realiza (fun _ => True) 0 _ (atenderIo nombre pet respuesta) k' [] :=
          realiza_atenderIo (fun _ => trivial) hm
        refine hM.realiza (h := .io nombre) ha rfl ?_ hs rfl rfl
        rw [arrancar, if_pos rfl, show (quieto k).interfaces = k.interfaces from rfl, hi]
        rfl
    | corto ahora =>
        obtain ⟨hs, hlargo⟩ := solo_corto (Kernel.hilada_alcanzable hk).quantum hB.veces_le hm
        exact hM.corto hs hlargo
    | largo =>
        obtain ⟨hs, hcorto⟩ : Solo 0 (quieto k) _ (quieto k') _ ∧ k'.corto = k.corto :=
          solo_largo hm
        exact hM.largo hs hcorto
    | multiprogramacion | conexionIo | memoria | reloj => exact hM.directo ha trivial hm

/-- What the kernel reaches with its handlers in one step, it reaches with its threads. -/
theorem exists_alcanzable (hk : Transicion.Alcanzable Kernel.sistema k) :
    ∃ s, Transicion.Alcanzable sistema s ∧ s.nucleo = quieto k := by
  obtain ⟨s, hs, hM⟩ := simulacionDebil.alcanzable hk
  exact ⟨s, hs, hM.nucleo⟩

end KernelHebras
