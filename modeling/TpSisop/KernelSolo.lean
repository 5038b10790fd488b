/-
**A thread that nobody interrupts.**

In `KernelConexion` a handler runs to its end in one step; in `KernelHebras` it is a code that its
thread runs instruction by instruction.  Where no other thread comes in between the two do the same:
the code of a handler takes the kernel from where the handler starts to where it ends.

A handler of `KernelConexion` only demands that a semaphore of a pause is not zero, where the code
takes it and gives it back; what a code does is stated for all the values that those semaphores may
have meanwhile.

Main definitions:

* `KernelHebras.Solo` — a thread runs its code alone;
* `KernelHebras.Marca`, `KernelHebras.Realiza` — a code does to the kernel what a handler does,
  whatever is left of the semaphores of a pause.

Main results:

* `KernelHebras.Solo.alcanzable` — a thread that runs alone takes steps of the system;
* `KernelHebras.Realiza.append`, `KernelHebras.Realiza.seccion` — the rules of sequencing and of the
  critical section;
* `KernelHebras.realiza_atenderCpuDispatch`, `KernelHebras.realiza_atenderIo`,
  `KernelHebras.realiza_finalizarProceso` — the handlers.
-/

import TpSisop.KernelHebras

set_option relaxedAutoImplicit false
set_option autoImplicit false

namespace KernelHebras

open Kernel (Nucleo Pcb Lista MensajeCpu RespuestaIo PeticionIo FaseCorto FaseLargo obtenido sacar
  exigir exigir_bind_eq_ok obtenido_eq_ok)
open Resultado (bind_eq_ok)

/-! ### A thread alone -/

/-- The thread runs its code from `k` with nobody else, at one time, up to where the second code is
left. -/
inductive Solo (ahora : ℤ) : Nucleo → Codigo → Nucleo → Codigo → Prop
  | fin (k : Nucleo) (r : Codigo) : Solo ahora k r k r
  | esperar {k k' : Nucleo} {c : Cerrojo} {r r' : Codigo} (hc : 0 < cuenta k c)
      (hr : Solo ahora (conCuenta k c (cuenta k c - 1)) r k' r') :
      Solo ahora k (.esperar c :: r) k' r'
  | avisar {k k' : Nucleo} {c : Cerrojo} {r r' : Codigo}
      (hr : Solo ahora (conCuenta k c (cuenta k c + 1)) r k' r') :
      Solo ahora k (.avisar c :: r) k' r'
  | hacer {k k₁ k' : Nucleo} {o : Accion} {e r r' : Codigo}
      (ho : ejecutar k ahora o = .ok (k₁, e)) (hr : Solo ahora k₁ (e ++ r) k' r') :
      Solo ahora k (.hacer o :: r) k' r'

variable {ahora : ℤ} {k k₁ k' : Nucleo} {o : Accion} {e r r' c₁ c₂ : Codigo}

theorem Solo.trans (h₁ : Solo ahora k c₁ k₁ c₂) (h₂ : Solo ahora k₁ c₂ k' r') :
    Solo ahora k c₁ k' r' := by
  induction h₁ with
  | fin k r => exact h₂
  | esperar hc _ ih => exact .esperar hc (ih h₂)
  | avisar _ ih => exact .avisar (ih h₂)
  | hacer ho _ ih => exact .hacer ho (ih h₂)

/-- What comes after a code does not change how it runs. -/
theorem Solo.marco (h : Solo ahora k c₁ k' c₂) (r : Codigo) :
    Solo ahora k (c₁ ++ r) k' (c₂ ++ r) := by
  induction h with
  | fin k c => exact .fin k (c ++ r)
  | esperar hc _ ih => exact .esperar hc ih
  | avisar _ ih => exact .avisar ih
  | hacer ho _ ih => exact .hacer ho (List.append_assoc .. ▸ ih)

theorem alcanzable_of_avanzar {s t s' : Estado} {h : Hebra}
    (ht : avanzar s (.avanza h ahora) = some t) (hcodigo : t.codigo = Function.update s.codigo h r)
    (hs' : Transicion.Alcanzable (sistema.desde t) s')
    (hfin : s'.codigo = Function.update t.codigo h r') :
    Transicion.Alcanzable (sistema.desde s) s' ∧ s'.codigo = Function.update s.codigo h r' := by
  refine ⟨?_, ?_⟩
  · have hst : Transicion.Alcanzable (sistema.desde s) t := .paso (.inicio rfl) trivial ht
    exact hst.seguir hs'
  · rw [hfin, hcodigo, Function.update_idem]

/-- Alone, the thread takes steps of the system, in which nothing changes for the others. -/
theorem Solo.alcanzable {s : Estado} {h : Hebra} (hs : Solo ahora k r k' r') (hk : s.nucleo = k)
    (hh : s.codigo h = r) :
    ∃ s', Transicion.Alcanzable (sistema.desde s) s' ∧ s'.nucleo = k' ∧
      s'.codigo = Function.update s.codigo h r' := by
  induction hs generalizing s with
  | fin k r =>
      refine ⟨s, .inicio rfl, hk, ?_⟩
      rw [← hh, Function.update_eq_self]
  | @esperar k k' c r r' hc _ ih =>
      subst hk
      have ht : avanzar s (.avanza h ahora) = some
          { nucleo := conCuenta s.nucleo c (cuenta s.nucleo c - 1)
            reparto := s.reparto.tomar h c r } := by
        simp [avanzar, hh, hc]
      obtain ⟨s', hs', hk', hfin⟩ := ih (s := ⟨_, s.reparto.tomar h c r⟩) rfl
        Cerrojos.Reparto.tomar_codigo_self
      obtain ⟨hs', hfin⟩ := alcanzable_of_avanzar ht rfl hs' hfin
      exact ⟨s', hs', hk', hfin⟩
  | @avisar k k' c r r' _ ih =>
      subst hk
      have ht : avanzar s (.avanza h ahora) = some
          { nucleo := conCuenta s.nucleo c (cuenta s.nucleo c + 1)
            reparto := s.reparto.soltar h c r } := by
        simp [avanzar, hh]
      obtain ⟨s', hs', hk', hfin⟩ := ih (s := ⟨_, s.reparto.soltar h c r⟩) rfl
        Cerrojos.Reparto.soltar_codigo_self
      obtain ⟨hs', hfin⟩ := alcanzable_of_avanzar ht rfl hs' hfin
      exact ⟨s', hs', hk', hfin⟩
  | @hacer k k₁ k' o e r r' ho _ ih =>
      subst hk
      have ht : avanzar s (.avanza h ahora) = some
          { nucleo := k₁, reparto := s.reparto.seguir h (e ++ r) } := by
        simp [avanzar, hh, ho, Except.toOption]
      obtain ⟨s', hs', hk', hfin⟩ := ih (s := ⟨_, s.reparto.seguir h (e ++ r)⟩) rfl
        Cerrojos.Reparto.seguir_codigo_self
      obtain ⟨hs', hfin⟩ := alcanzable_of_avanzar ht rfl hs' hfin
      exact ⟨s', hs', hk', hfin⟩

/-! ### What a code does -/

/-- What `KernelConexion` keeps that a code does not see: where the two schedulers are.  And the
semaphores of a pause, which a thread takes here one after the other. -/
structure Marca where
  corto : FaseCorto
  largo : FaseLargo
  cuenta : Cerrojo → ℕ

namespace Marca

def de (k : Nucleo) : Marca := ⟨k.corto, k.largo, KernelHebras.cuenta k⟩

def en (m : Marca) (k : Nucleo) : Nucleo :=
  { k with
    corto := m.corto
    largo := m.largo
    sem := { k.sem with
      planificacion := m.cuenta .planificacion
      planificacionLargo := m.cuenta .largo } }

section

variable (m : Marca) (k : Nucleo)

@[simp] theorem en_config : (m.en k).config = k.config := rfl

@[simp] theorem en_listas : (m.en k).listas = k.listas := rfl

@[simp] theorem en_recursos : (m.en k).recursos = k.recursos := rfl

@[simp] theorem en_interfaces : (m.en k).interfaces = k.interfaces := rfl

@[simp] theorem en_pidEjecutando : (m.en k).pidEjecutando = k.pidEjecutando := rfl

@[simp] theorem en_mListNew : (m.en k).mListNew = k.mListNew := rfl

end

def con (m : Marca) (c : Cerrojo) (n : ℕ) : Marca :=
  { m with cuenta := Function.update m.cuenta c n }

theorem con_cuenta (m : Marca) (c : Cerrojo) (n : ℕ) :
    (m.con c n).cuenta = Function.update m.cuenta c n := rfl

theorem cuenta_en (m : Marca) (k : Nucleo) : KernelHebras.cuenta (m.en k) = m.cuenta := by
  funext c
  cases c <;> rfl

theorem de_en (m : Marca) (k : Nucleo) : de (m.en k) = m := by
  show (⟨m.corto, m.largo, KernelHebras.cuenta (m.en k)⟩ : Marca) = m
  rw [m.cuenta_en]

theorem conCuenta_en (m : Marca) (k : Nucleo) (c : Cerrojo) (n : ℕ) :
    conCuenta (m.en k) c n = (m.con c n).en k := by
  cases c <;> rfl

theorem con_con (m : Marca) (c : Cerrojo) (n i : ℕ) : (m.con c n).con c i = m.con c i := by
  simp [con]

theorem con_self (m : Marca) (c : Cerrojo) : m.con c (m.cuenta c) = m := by
  simp [con]

end Marca

/-- No step of a function sees them. -/
theorem ejecutar_en (m : Marca) (k : Nucleo) (o : Accion) :
    ejecutar (m.en k) ahora o = (fun x => (m.en x.1, x.2)) <$> ejecutar k ahora o := by
  cases o with
  | pausar | crearPcb | agregarANew | sinEjecutar | actualizarEstadoPcb | contadorQuantumVrr
  | aMemoria => rfl
  | semWait c =>
      have hv : valor (m.en k) c = valor k c := by cases c <;> rfl
      simp only [ejecutar, hv]
      split
      · cases c <;> rfl
      · rfl
  | semPost c => cases c <;> rfl
  | mensajeCpu p mensaje => cases mensaje <;> rfl
  | bloquear | despachar | expulsar | dejarRunning | reemplazar | enviarAInterfaz | errorIo =>
      simp only [ejecutar]
      rw [map_bind]
      rfl
  | ioOcupada nombre pet =>
      simp only [ejecutar, Kernel.ioOcupada, bind_assoc]
      rw [map_bind]
      rfl
  | desbloquear pid =>
      simp only [ejecutar]
      rw [map_bind]
      refine bind_congr fun x => ?_
      rw [apply_ite (Functor.map _)]
      rfl
  | recursoObtenerBloqueado recurso =>
      simp only [ejecutar]
      rw [map_bind]
      refine bind_congr fun x => ?_
      split <;> rfl
  | turnoQuantumVrr pid t q =>
      simp only [ejecutar]
      rw [map_bind]
      refine bind_congr fun x => ?_
      rw [apply_ite (Functor.map _), apply_ite (Functor.map _), apply_ite (Functor.map _)]
      rfl
  | siguienteIo nombre =>
      simp only [ejecutar]
      rw [map_bind]
      refine bind_congr fun x => ?_
      split
      · rfl
      · split
        · rfl
        · rw [map_bind]
          rfl
  | liberarTomados tomados =>
      cases tomados with
      | nil => rfl
      | cons t ts =>
          simp only [ejecutar]
          rw [map_bind]
          rfl
  | hayarPcb ls pid =>
      cases ls with
      | nil =>
          simp only [ejecutar]
          rw [apply_ite (Functor.map _)]
          rfl
      | cons l ls =>
          simp only [ejecutar, Marca.en_listas, Marca.en_mListNew]
          rw [apply_ite (Functor.map _)]
          refine if_congr Iff.rfl rfl ?_
          split <;> rfl
  | pasada =>
      simp only [ejecutar, Marca.en_config]
      split
      · rw [apply_ite (Functor.map _)]
        rfl
      · rfl
      · rw [apply_ite (Functor.map _), apply_ite (Functor.map _)]
        rfl
      · rfl
  | soltarEsperado p =>
      simp only [ejecutar, Kernel.recursoModificarInstancias2, Marca.en_recursos]
      split
      · rfl
      · split <;> rfl
  | copiarMListNew | enviarSiguientePcb | otorgar | eliminarProceso | comparar =>
      simp only [ejecutar]
      rw [apply_ite (Functor.map _)]
      rfl
  | recursoIncrementar | recursoDecrementar | recursoAgregarBloqueado =>
      simp only [ejecutar, Marca.en_recursos]
      split <;> rfl
  | admitir =>
      simp only [ejecutar, Marca.en_listas, Marca.en_mListNew]
      rw [apply_ite (Functor.map _)]
      refine if_congr Iff.rfl rfl ?_
      split <;> rfl

theorem ejecutar_marca (ho : ejecutar k ahora o = .ok (k₁, e)) : Marca.de k₁ = Marca.de k := by
  have hen : ejecutar ((Marca.de k).en k) ahora o =
      (fun x => ((Marca.de k).en x.1, x.2)) <$> ejecutar k ahora o := ejecutar_en _ k o
  rw [show (Marca.de k).en k = k from rfl, ho] at hen
  obtain ⟨hk, -⟩ := Prod.mk.inj (Except.ok.inj hen)
  rw [hk, Marca.de_en]

/-- The code takes the kernel from `k` to `k'`, up to where `r'` is left; of the semaphores of a
pause it takes those of `libres`, and gives them back. -/
structure Realiza (libres : Cerrojo → Prop) (ahora : ℤ) (k : Nucleo) (r : Codigo) (k' : Nucleo)
    (r' : Codigo) : Prop where
  solo : ∀ m : Marca, (∀ c, libres c → 0 < cuenta k c → 0 < m.cuenta c) →
    Solo ahora (m.en k) r (m.en k') r'
  marca : Marca.de k' = Marca.de k

namespace Realiza

variable {libres : Cerrojo → Prop}

theorem cuenta_eq (h : Realiza libres ahora k r k' r') : cuenta k' = cuenta k :=
  congrArg Marca.cuenta h.marca

theorem fin (k : Nucleo) (r : Codigo) : Realiza libres ahora k r k r :=
  ⟨fun _ _ => .fin _ _, rfl⟩

theorem trans (h₁ : Realiza libres ahora k c₁ k₁ c₂) (h₂ : Realiza libres ahora k₁ c₂ k' r') :
    Realiza libres ahora k c₁ k' r' := by
  refine ⟨fun m hm => (h₁.solo m hm).trans (h₂.solo m fun c hc => ?_), h₂.marca.trans h₁.marca⟩
  rw [h₁.cuenta_eq]
  exact hm c hc

theorem marco (h : Realiza libres ahora k c₁ k' c₂) (r : Codigo) :
    Realiza libres ahora k (c₁ ++ r) k' (c₂ ++ r) :=
  ⟨fun m hm => (h.solo m hm).marco r, h.marca⟩

/-- The rule of sequencing. -/
theorem append (h₁ : Realiza libres ahora k c₁ k₁ []) (h₂ : Realiza libres ahora k₁ c₂ k' r') :
    Realiza libres ahora k (c₁ ++ c₂) k' r' :=
  (h₁.marco c₂).trans h₂

theorem hacer (ho : ejecutar k ahora o = .ok (k₁, e))
    (hr : Realiza libres ahora k₁ (e ++ r) k' r') :
    Realiza libres ahora k (.hacer o :: r) k' r' := by
  have hk := ejecutar_marca ho
  refine ⟨fun m hm => .hacer (e := e) ?_ (hr.solo m fun c hc => ?_), hr.marca.trans hk⟩
  · rw [ejecutar_en, ho]
    rfl
  · rw [show cuenta k₁ = cuenta k from congrArg Marca.cuenta hk]
    exact hm c hc

theorem hacer_fin (ho : ejecutar k ahora o = .ok (k₁, e)) (hr : Realiza libres ahora k₁ e k' r') :
    Realiza libres ahora k [.hacer o] k' r' :=
  .hacer ho (by rwa [List.append_nil])

theorem semWait {c : Contador} (hc : 0 < valor k c)
    (hr : Realiza libres ahora (conValor k c (valor k c - 1)) r k' r') :
    Realiza libres ahora k (KernelHebras.semWait c :: r) k' r' :=
  .hacer (if_pos hc) hr

/-- The rule of the critical section: inside it, its semaphore may be down. -/
theorem seccion {c : Cerrojo} (hl : libres c) (hc : 0 < cuenta k c)
    (h₁ : Realiza (fun d => libres d ∧ d ≠ c) ahora k e k₁ (.avisar c :: r))
    (h₂ : Realiza libres ahora k₁ r k' r') : Realiza libres ahora k (.esperar c :: e) k' r' := by
  refine ⟨fun m hm => ?_, h₂.marca.trans h₁.marca⟩
  have hpos := hm c hl hc
  have hdentro : Solo ahora ((m.con c (m.cuenta c - 1)).en k) e
      ((m.con c (m.cuenta c - 1)).en k₁) (.avisar c :: r) := by
    refine h₁.solo _ fun d hd hk => ?_
    rw [m.con_cuenta, Function.update_of_ne hd.2]
    exact hm d hd.1 hk
  have hdespues : Solo ahora (m.en k₁) r (m.en k') r' := by
    refine h₂.solo m fun d hd => ?_
    rw [h₁.cuenta_eq]
    exact hm d hd
  refine .esperar ?_ ?_
  · rw [m.cuenta_en]
    exact hpos
  · rw [m.cuenta_en, m.conCuenta_en]
    refine hdentro.trans (.avisar ?_)
    rw [Marca.cuenta_en, Marca.conCuenta_en]
    have hn : (m.con c (m.cuenta c - 1)).cuenta c + 1 = m.cuenta c := by
      rw [m.con_cuenta, Function.update_self]
      omega
    rw [hn, m.con_con, m.con_self]
    exact hdespues

end Realiza

/-! ### The handlers -/

section

variable {libres : Cerrojo → Prop} {p : Pcb} {pid : ℕ} {recurso nombre : String}

theorem realiza_bloquearProceso {esIo : Bool} (hl : libres .planificacion)
    (h : Kernel.bloquearProceso k p esIo ahora = .ok k') :
    Realiza libres ahora k (bloquearProceso p esIo) k' [] := by
  obtain ⟨hn, h⟩ := exigir_bind_eq_ok.1 h
  obtain ⟨x, hx, h⟩ := bind_eq_ok.1 h
  cases h
  refine .hacer rfl ?_
  refine .seccion hl hn ?_ (.fin _ _)
  exact .hacer (bind_eq_ok.2 ⟨x, hx, rfl⟩) (.hacer rfl (.fin _ _))

theorem realiza_desbloquearProceso (hl : libres .planificacion)
    (h : Kernel.desbloquearProceso k pid = .ok k') :
    Realiza libres ahora k (desbloquearProceso pid) k' [] := by
  obtain ⟨hn, h⟩ := exigir_bind_eq_ok.1 h
  obtain ⟨x, hx, h⟩ := bind_eq_ok.1 h
  cases h
  refine .seccion hl hn ?_ (.fin _ _)
  unfold Nucleo.alistar
  split
  · rename_i hvrr
    exact .hacer (bind_eq_ok.2 ⟨x, hx, if_pos hvrr⟩) (.hacer rfl (.hacer rfl (.fin _ _)))
  · rename_i hvrr
    exact .hacer (bind_eq_ok.2 ⟨x, hx, if_neg hvrr⟩) (.hacer rfl (.hacer rfl (.fin _ _)))

theorem realiza_recursoIncrementar (hl : libres .planificacion)
    (h : Kernel.recursoIncrementar k recurso = .ok k') :
    Realiza libres ahora k [.hacer (.recursoIncrementar recurso)] k' [] := by
  unfold Kernel.recursoIncrementar at h
  split at h
  · rename_i hr
    cases h
    have ho : ejecutar k ahora (.recursoIncrementar recurso) = .ok (k, []) := by
      simp only [ejecutar, hr]
    exact .hacer ho (.fin _ _)
  · rename_i r hr
    split at h
    · rename_i hinst
      have ho : ejecutar k ahora (.recursoIncrementar recurso) =
          .ok (k.ponerRecurso recurso { r with instancias := r.instancias + 1 },
            [.hacer (.recursoObtenerBloqueado recurso)]) := by
        simp only [ejecutar, hr, hinst, if_true]
      refine .hacer ho ?_
      split at h
      · cases h
      · rename_i pid cola hcola
        have ho : ejecutar (k.ponerRecurso recurso { r with instancias := r.instancias + 1 }) ahora
            (.recursoObtenerBloqueado recurso) =
            .ok (k.ponerRecurso recurso
                { r with instancias := r.instancias + 1, bloqueados := cola },
              [.hacer (.otorgar recurso pid)]) := by
          simp [ejecutar, Nucleo.ponerRecurso, obtenido, hcola, bind, Except.bind]
        refine .hacer ho ?_
        simp only at h
        split at h
        · rename_i hb
          exact .hacer (if_pos hb) (realiza_desbloquearProceso hl h)
        · rename_i hb
          cases h
          exact .hacer (if_neg hb) (.fin _ _)
    · rename_i hinst
      cases h
      have ho : ejecutar k ahora (.recursoIncrementar recurso) =
          .ok (k.ponerRecurso recurso { r with instancias := r.instancias + 1 }, []) := by
        simp only [ejecutar, hr, hinst, if_false]
      exact .hacer ho (.fin _ _)

/-- The loop of `liberar_recursos_tomados`, by induction on what is left to give back. -/
theorem realiza_liberarTomados {tomados : List String} (hl : libres .planificacion)
    (h : Kernel.liberarTomados k tomados = .ok k') :
    Realiza libres ahora k [.hacer (.liberarTomados tomados)] k' [] := by
  induction tomados generalizing k with
  | nil =>
      cases h
      exact .hacer rfl (.fin _ _)
  | cons t ts ih =>
      obtain ⟨r, hr, h⟩ := bind_eq_ok.1 h
      obtain ⟨k₁, hk₁, h⟩ := bind_eq_ok.1 h
      refine .hacer (bind_eq_ok.2 ⟨r, hr, rfl⟩) ?_
      exact (realiza_recursoIncrementar hl hk₁).append (ih h)

theorem realiza_liberarRecursosTomados (hl : libres .planificacion)
    (h : Kernel.liberarRecursosTomados k p = .ok k') :
    Realiza libres ahora k (liberarRecursosTomados p) k' [] := by
  obtain ⟨k₁, hk₁, hfin⟩ := bind_eq_ok.1 h
  refine (realiza_liberarTomados hl hk₁).append ?_
  split at hfin
  · rename_i hp
    cases hfin
    have ho : ejecutar k' ahora (.soltarEsperado p) = .ok (k', []) := by
      simp only [ejecutar, hp]
    exact .hacer ho (.fin _ _)
  · rename_i recurso hp
    cases hfin
    have ho : ejecutar k₁ ahora (.soltarEsperado p) =
        .ok (Kernel.recursoModificarInstancias2 k₁ recurso p.pid, []) := by
      simp only [ejecutar, hp]
    exact .hacer ho (.fin _ _)

/-- `eliminar_proceso` takes `sem_planificacion_largo` after it gave everything back. -/
theorem realiza_eliminarProceso (hl : ∀ c, libres c) (h : Kernel.eliminarProceso k p = .ok k') :
    Realiza libres ahora k [.hacer (.eliminarProceso p)] k' [] := by
  unfold Kernel.eliminarProceso at h
  split at h
  · rename_i hp
    cases h
    exact .hacer (if_pos hp) (.fin _ _)
  · rename_i hp
    refine .hacer_fin (if_neg hp) ?_
    obtain ⟨k₁, hk₁, h⟩ := bind_eq_ok.1 h
    obtain ⟨hn, h⟩ := exigir_bind_eq_ok.1 h
    cases h
    refine (realiza_liberarRecursosTomados (hl _) hk₁).append ?_
    exact .seccion (hl _) hn (.hacer rfl (.fin _ _)) (.hacer rfl (.fin _ _))

theorem realiza_expulsar (hl : ∀ c, libres c) (h : Kernel.expulsar k p = .ok k') :
    Realiza libres ahora k (rechazar p) k' [] := by
  obtain ⟨x, hx, h⟩ := bind_eq_ok.1 h
  obtain ⟨k₁, hk₁, h⟩ := bind_eq_ok.1 h
  cases h
  refine .hacer (bind_eq_ok.2 ⟨x, hx, rfl⟩) ?_
  exact (realiza_eliminarProceso hl hk₁).append (.hacer rfl (.fin _ _))

theorem realiza_finDeQuantum (hl : libres .planificacion) (h : Kernel.finDeQuantum k p = .ok k') :
    Realiza libres ahora k (finDeQuantum p) k' [] := by
  obtain ⟨hn, h⟩ := exigir_bind_eq_ok.1 h
  obtain ⟨x, hx, h⟩ := bind_eq_ok.1 h
  cases h
  refine .seccion hl hn ?_ (.fin _ _)
  refine .hacer (bind_eq_ok.2 ⟨x, hx, rfl⟩) (.hacer rfl ?_)
  exact .hacer rfl (.hacer rfl (.fin _ _))

/-- The resources are given back with `sem_planificacion_largo` taken. -/
theorem realiza_terminar (hl : ∀ c, libres c) (h : Kernel.terminar k p = .ok k') :
    Realiza libres ahora k (terminar p) k' [] := by
  obtain ⟨hn, h⟩ := exigir_bind_eq_ok.1 h
  obtain ⟨k₁, hk₁, h⟩ := bind_eq_ok.1 h
  obtain ⟨x, hx, h⟩ := bind_eq_ok.1 h
  cases h
  have hdentro : Realiza (fun c => libres c ∧ c ≠ .largo) ahora k (liberarRecursosTomados p)
      k₁ [] :=
    realiza_liberarRecursosTomados ⟨hl _, by decide⟩ hk₁
  refine .seccion (hl _) hn (hdentro.append (.hacer (bind_eq_ok.2 ⟨x, hx, rfl⟩)
    (.hacer rfl (.fin _ _)))) ?_
  exact .hacer rfl (.hacer rfl (.fin _ _))

theorem realiza_reanudar (h : Kernel.reanudar k p = .ok k') :
    Realiza libres ahora k (reanudar p) k' [] := by
  obtain ⟨x, hx, h⟩ := bind_eq_ok.1 h
  cases h
  exact .hacer (bind_eq_ok.2 ⟨x, hx, rfl⟩) (.hacer rfl (.fin _ _))

end

section

variable {libres : Cerrojo → Prop} {p : Pcb} {pid : ℕ} {recurso nombre : String}

theorem realiza_motivoSignal (hl : libres .planificacion)
    (h : Kernel.motivoSignal k p recurso = .ok k') :
    Realiza libres ahora k (.hacer (.recursoIncrementar recurso) ::
      reanudar { p with recursosTomados := p.recursosTomados.erase recurso }) k' [] := by
  obtain ⟨k₁, hk₁, h⟩ := bind_eq_ok.1 h
  exact (realiza_recursoIncrementar hl hk₁).append (realiza_reanudar h)

/-- The PCB of the process is the last of BLOCKED, where `recurso_agregar_bloqueado` finds it. -/
theorem bloquearProceso_esperando {r : Kernel.Recurso}
    (hr : k.recursos.valor recurso = some r) (hb : ∀ q ∈ k.listas .blocked, q.pid ≠ p.pid)
    (h : Kernel.bloquearProceso k { p with recursoEsperando := some recurso } false ahora =
      .ok k') :
    ∃ k₁, Kernel.bloquearProceso k p false ahora = .ok k₁ ∧
      ejecutar k₁ ahora (.recursoAgregarBloqueado recurso p.pid) =
        .ok (Kernel.recursoAgregarBloqueado k' recurso p.pid, []) := by
  obtain ⟨u, hn, h⟩ := bind_eq_ok.1 h
  obtain ⟨x, hx, h⟩ := bind_eq_ok.1 h
  cases h
  refine ⟨_, bind_eq_ok.2 ⟨u, hn, bind_eq_ok.2 ⟨x, hx, rfl⟩⟩, ?_⟩
  have hfin := Coleccion.alterar_append (q := fun q => q.pid == p.pid) (a := k.listas .blocked)
    (fun q hq => by simpa using hb q hq) (x := { p with estado := .blocked }) (by simp)
    (fun q : Pcb => { q with recursoEsperando := some recurso }) []
  simp [ejecutar, Kernel.recursoAgregarBloqueado, Nucleo.ponerRecurso, Nucleo.conLista,
    Nucleo.actualizarEstadoPcb, Familia.agregar, hr, hfin]

theorem realiza_motivoWait (hl : libres .planificacion)
    (hb : ∀ q ∈ k.listas .blocked, q.pid ≠ p.pid)
    (h : Kernel.motivoWait k p recurso ahora = .ok k') :
    Realiza libres ahora k [.hacer (.recursoDecrementar recurso p)] k' [] := by
  obtain ⟨x, hx, h⟩ := bind_eq_ok.1 h
  unfold Kernel.recursoDecrementar at hx
  split at hx
  · rename_i hr
    cases hx
    cases h
    have ho : ejecutar k ahora (.recursoDecrementar recurso p) = .ok (k, []) := by
      simp only [ejecutar, hr]
    exact .hacer ho (.fin _ _)
  · rename_i r hr
    split at hx
    · rename_i hinst
      have ho : ejecutar k ahora (.recursoDecrementar recurso p) =
          .ok (k.ponerRecurso recurso { r with instancias := r.instancias - 1 },
            bloquearProceso p false ++
              [.hacer (.recursoAgregarBloqueado recurso p.pid), semPost .cpuFreeToExecute]) := by
        simp only [ejecutar, hr, hinst, if_true]
      refine .hacer_fin ho ?_
      obtain ⟨k₁, hk₁, hx⟩ := bind_eq_ok.1 hx
      cases hx
      cases h
      obtain ⟨k₂, hk₂, ho⟩ := bloquearProceso_esperando
        (k := k.ponerRecurso recurso _) (k.recursos.poner_valor_self recurso _) hb hk₁
      exact (realiza_bloquearProceso hl hk₂).append (.hacer ho (.hacer rfl (.fin _ _)))
    · rename_i hinst
      cases hx
      have ho : ejecutar k ahora (.recursoDecrementar recurso p) =
          .ok (k.ponerRecurso recurso { r with instancias := r.instancias - 1 },
            reanudar { p with recursosTomados := p.recursosTomados ++ [recurso] }) := by
        simp only [ejecutar, hr, hinst, if_false]
      exact .hacer ho (realiza_reanudar h)

theorem realiza_peticionIo {operacion : Kernel.OperacionIo} (hl : libres .planificacion)
    (hi : k.interfaces.valor nombre ≠ none)
    (h : Kernel.peticionIo k p nombre operacion ahora = .ok k') :
    Realiza libres ahora k (peticionIo k p nombre ⟨p.pid, operacion⟩) k' [] := by
  unfold Kernel.peticionIo at h
  split at h
  · rename_i hi'
    exact absurd hi' hi
  · rename_i i hi
    obtain ⟨k₁, hk₁, h⟩ := bind_eq_ok.1 h
    have hmarco : k₁.interfaces = k.interfaces ∧ k₁.config = k.config := by
      obtain ⟨_, -, hk₁⟩ := bind_eq_ok.1 hk₁
      obtain ⟨x, -, hk₁⟩ := bind_eq_ok.1 hk₁
      cases hk₁
      exact ⟨rfl, rfl⟩
    have hi₁ : obtenido (k₁.interfaces.valor nombre) = .ok i := by
      rw [hmarco.1, hi]
      rfl
    simp only [peticionIo, List.append_assoc]
    refine (realiza_bloquearProceso hl hk₁).append ?_
    refine .hacer (bind_eq_ok.2 ⟨i, hi₁, rfl⟩) (.hacer rfl ?_)
    rw [← hmarco.2]
    by_cases hrr : k₁.config.algoritmo = .rr ∨ k₁.config.algoritmo = .vrr
    · simp only [Nucleo.enviarAInterfaz, hrr, if_true] at h
      cases h
      rw [if_pos hrr]
      exact .hacer rfl (.hacer rfl (.fin _ _))
    · simp only [Nucleo.enviarAInterfaz, hrr, if_false] at h
      cases h
      rw [if_neg hrr]
      exact .hacer rfl (.fin _ _)

/-- The handlers of the messages of the CPU. -/
theorem realiza_atenderCpuDispatch {m : MensajeCpu} (hl : ∀ c, libres c)
    (hb : ∀ q ∈ k.listas .blocked, q.pid ≠ p.pid)
    (h : Kernel.atenderCpuDispatch k p ahora m = .ok k') :
    Realiza libres ahora k [.hacer (.mensajeCpu p m)] k' [] := by
  refine .hacer_fin rfl ?_
  cases m with
  | io nombre operacion =>
      simp only [atenderCpuDispatch]
      split
      · rename_i hi
        simp only [Kernel.atenderCpuDispatch, Kernel.peticionIo, hi] at h
        exact realiza_expulsar hl h
      · rename_i hi
        exact realiza_peticionIo (hl _) hi h
  | interrupcion => exact realiza_finDeQuantum (hl _) h
  | outOfMemory => exact realiza_terminar hl h
  | terminarProceso => exact realiza_terminar hl h
  | wait recurso =>
      simp only [Kernel.atenderCpuDispatch] at h
      simp only [atenderCpuDispatch]
      split at h
      · rename_i hr
        rw [if_pos hr]
        exact realiza_expulsar hl h
      · rename_i hr
        rw [if_neg hr]
        exact realiza_motivoWait (hl _) hb h
  | signal recurso =>
      simp only [Kernel.atenderCpuDispatch] at h
      simp only [atenderCpuDispatch]
      split at h
      · rename_i hr
        rw [if_pos hr]
        exact realiza_expulsar hl h
      · rename_i hr
        rw [if_neg hr]
        exact realiza_motivoSignal (hl _) h

theorem realiza_finIo (hl : libres .planificacion) (h : Kernel.finIo k nombre pid = .ok k') :
    Realiza libres ahora k (desbloquearProceso pid ++ [.hacer (.siguienteIo nombre)]) k' [] := by
  obtain ⟨k₁, hk₁, h⟩ := bind_eq_ok.1 h
  refine (realiza_desbloquearProceso hl hk₁).append ?_
  obtain ⟨i, hi, h⟩ := bind_eq_ok.1 h
  have ho : ejecutar k₁ ahora (.siguienteIo nombre) = .ok (k', []) := by
    refine bind_eq_ok.2 ⟨i, hi, ?_⟩
    cases hcola : i.listaBloqueados with
    | nil =>
      simp only [hcola] at h ⊢
      cases h
      rfl
    | cons ioPcb cola =>
      cases hop : Kernel.reenvio i.tipoInterfaz ioPcb.operacion with
      | none =>
        simp only [hcola, hop] at h ⊢
        cases h
        rfl
      | some operacion =>
        simp only [hcola, hop] at h ⊢
        obtain ⟨pid, hpid, h⟩ := bind_eq_ok.1 h
        cases h
        exact bind_eq_ok.2 ⟨pid, hpid, rfl⟩
  exact .hacer ho (.fin _ _)

/-- The handlers of the answers of an interface. -/
theorem realiza_atenderIo {pet : PeticionIo} {respuesta : RespuestaIo} (hl : ∀ c, libres c)
    (h : Kernel.atenderIo k nombre pet respuesta = .ok k') :
    Realiza libres ahora k (atenderIo nombre pet respuesta) k' [] := by
  cases respuesta with
  | errorIo =>
      obtain ⟨x, hx, h⟩ := bind_eq_ok.1 h
      refine .hacer (bind_eq_ok.2 ⟨x, hx, rfl⟩) ?_
      exact realiza_eliminarProceso hl h
  | ioOcupada => exact .hacer (bind_eq_ok.2 ⟨k', h, rfl⟩) (.fin _ _)
  | finIo => exact realiza_finIo (hl _) h

end

section

variable {libres : Cerrojo → Prop} {l : Lista} {ls : List Lista} {pid : ℕ} {x : Pcb × List Pcb}

theorem realiza_hayarPcb_cons (hm : k.mListNew = false) (hx : sacar pid (k.listas l) = some x) :
    Realiza libres ahora k [.hacer (.hayarPcb (l :: ls) pid)] (k.conLista l x.2)
      [.avisar .largo, .hacer (.eliminarProceso x.1)] := by
  have ho : ejecutar k ahora (.hayarPcb (l :: ls) pid) =
      .ok (k.conLista l x.2, [.avisar .largo, .hacer (.eliminarProceso x.1)]) := by
    simp only [ejecutar, hm, hx, Bool.false_eq_true, and_false, if_false]
  exact .hacer ho (.fin _ _)

theorem realiza_hayarPcb_otra (hm : k.mListNew = false) (hx : sacar pid (k.listas l) = none)
    (hr : Realiza libres ahora k [.hacer (.hayarPcb ls pid)] k' r) :
    Realiza libres ahora k [.hacer (.hayarPcb (l :: ls) pid)] k' r := by
  have ho : ejecutar k ahora (.hayarPcb (l :: ls) pid) = .ok (k, [.hacer (.hayarPcb ls pid)]) := by
    simp only [ejecutar, hm, hx, Bool.false_eq_true, and_false, if_false]
  exact .hacer ho hr

/-- `hayar_pcb` ends by raising `sem_planificacion_largo`, whether it found the process or not. -/
theorem realiza_hayarPcb (hm : k.mListNew = false) :
    Realiza libres ahora k [.hacer (.hayarPcb [.new, .ready, .blocked, .auxiliar] pid)]
      (Kernel.hayarPcb k pid).2
      (.avisar .largo ::
        (Kernel.hayarPcb k pid).1.elim [] fun p => [.hacer (.eliminarProceso p)]) := by
  unfold Kernel.hayarPcb
  split
  · rename_i hnew
    exact realiza_hayarPcb_cons hm hnew
  · rename_i hnew
    refine realiza_hayarPcb_otra hm hnew ?_
    split
    · rename_i hready
      exact realiza_hayarPcb_cons hm hready
    · rename_i hready
      refine realiza_hayarPcb_otra hm hready ?_
      split
      · rename_i hblocked
        exact realiza_hayarPcb_cons hm hblocked
      · rename_i hblocked
        refine realiza_hayarPcb_otra hm hblocked ?_
        split
        · rename_i hauxiliar
          exact realiza_hayarPcb_cons hm hauxiliar
        · rename_i hauxiliar
          refine realiza_hayarPcb_otra hm hauxiliar ?_
          split
          · rename_i hpid
            exact .hacer (if_pos hpid) (.fin _ _)
          · rename_i hpid
            exact .hacer (if_neg hpid) (.fin _ _)

theorem realiza_finalizarProceso (hl : ∀ c, libres c)
    (h : Kernel.finalizarProceso k pid = .ok k') :
    Realiza libres ahora k (finalizarProceso pid) k' [] := by
  obtain ⟨hn, h⟩ := exigir_bind_eq_ok.1 h
  obtain ⟨hm, h⟩ := exigir_bind_eq_ok.1 h
  refine .seccion (hl _) hn (realiza_hayarPcb hm) ?_
  split at h
  · rename_i p k₁ hk₁
    rw [hk₁]
    exact realiza_eliminarProceso hl h
  · rename_i k₁ hk₁
    cases h
    rw [hk₁]
    exact .fin _ _

end

end KernelHebras
