/-
**The degree of multiprogramming, one semaphore operation at a time.**

`mover_a_ready` compares the sizes of the lists with the degree, waits for
`sem_planificacion_largo`, and then moves a process to READY without comparing again.  Between the
two the degree may be lowered, for as long as a pause lasts; and a process that another thread has
taken from one of the lists and not yet put into the next is not there when the lists are compared.
This module counts that process with the others and shows that nothing else adds to the count: as
long as neither of the two happens, the degree is respected.

Main definitions:

* `KernelHebras.contadas` — the lists that the degree counts;
* `KernelHebras.enCamino`, `KernelHebras.admitidos` — the process on its way, and all of them;
* `KernelHebras.haComparado` — `mover_a_ready` is between its comparison and its move;
* `KernelHebras.Excede` — the steps after which it may move one too many;
* `KernelHebras.Cupo` — the invariant.

Main results:

* `KernelHebras.Hace.tamanio`, `KernelHebras.admitidos_paso` — only `mover_a_ready` adds to the
  count;
* `KernelHebras.grado_respetado`.
-/

import TpSisop.KernelReglas

set_option relaxedAutoImplicit false
set_option autoImplicit false

namespace KernelHebras

open Kernel (Nucleo Pcb EstadoCode Lista Evento MensajeCpu)

variable {k k' : Nucleo} {o : Accion} {e r : Codigo} {h : Hebra} {P : Cerrojo → Prop}
  {s s' : Estado} {a : Suceso}

/-- The lists that the degree of multiprogramming counts. -/
def contadas : List Lista := [.ready, .running, .blocked, .auxiliar]

/-- The instruction puts a process into one of them. -/
def carga : Orden → ℕ
  | .hacer (.actualizarEstadoPcb _ _ l) => if l ∈ contadas then 1 else 0
  | _ => 0

/-- The next instruction does. -/
def cargaProxima (r : Codigo) : ℕ := (r.head?.map carga).getD 0

/-- A process that was taken from a list and is about to be put into one of those, by a thread that
has `sem_planificacion`. -/
def enCamino (s : Estado) : ℕ :=
  match s.dueno .planificacion with
  | none => 0
  | some h => if h = .largo then 0 else cargaProxima (s.codigo h)

/-- The processes that were admitted and have not ended. -/
def admitidos (s : Estado) : ℕ := tamanioMultiprogramacion s.nucleo + enCamino s

/-- `mover_a_ready` has compared and has not moved a process yet. -/
def haComparado : Codigo → Bool
  | .esperar .largo :: .hacer .admitir :: _ => true
  | .hacer .admitir :: _ => true
  | .hacer (.actualizarEstadoPcb _ _ _) :: _ => true
  | _ => false

/-- The degree is lowered under it, or it has compared while a process that fills the degree was on
its way. -/
def Excede (s : Estado) : Suceso → Prop
  | .directo (.multiprogramacion valor) =>
      haComparado (s.codigo .largo) = true ∧ valor < (admitidos s : ℤ) + 1
  | .avanza .largo _ =>
      (s.codigo .largo).head? = some (.hacer .comparar) ∧
        (tamanioMultiprogramacion s.nucleo : ℤ) < s.nucleo.config.gradoMultiprogramacion ∧
        s.nucleo.config.gradoMultiprogramacion ≤ admitidos s
  | _ => False

instance (s : Estado) : DecidablePred (Excede s)
  | .directo (.multiprogramacion _) => inferInstanceAs (Decidable (_ ∧ _))
  | .avanza .largo _ => inferInstanceAs (Decidable (_ ∧ _ ∧ _))
  | .directo .iniciarProceso | .directo (.finalizarProceso _) | .directo .iniciarPlanificacion
  | .directo .detenerPlanificacion | .directo (.cpu _ _ _) | .directo (.interfaz _ _ _)
  | .directo (.conexionIo _ _) | .directo (.memoria _) | .directo (.corto _) | .directo .reloj
  | .directo .largo | .avanza .consola _ | .avanza .dispatch _ | .avanza .corto _
  | .avanza (.io _) _ | .avanza (.orden _) _ | .llega _ _ => .isFalse id

/-- `mover_a_ready` puts a process into READY. -/
def MueveAReady (s : Estado) : Suceso → Prop
  | .avanza .largo _ => ∃ p r, s.codigo .largo = .hacer (.actualizarEstadoPcb p .ready .ready) :: r
  | _ => False

/-! ### What a step adds -/

theorem tamanio_eq_peso (k : Nucleo) :
    tamanioMultiprogramacion k = Familia.peso (fun _ => 1) contadas k.listas := by
  simp [tamanioMultiprogramacion, contadas]
  omega

theorem nodup_contadas : contadas.Nodup := by decide

theorem tamanio_congr (hl : ∀ l, (k'.listas l).length = (k.listas l).length) :
    tamanioMultiprogramacion k' = tamanioMultiprogramacion k := by
  simp only [tamanioMultiprogramacion, hl]

theorem Marco.tamanio (hm : Marco k k') :
    tamanioMultiprogramacion k' = tamanioMultiprogramacion k :=
  tamanio_congr fun _ => by rw [hm.listas]

theorem MarcoPids.tamanio (hm : MarcoPids k k') :
    tamanioMultiprogramacion k' = tamanioMultiprogramacion k := by
  refine tamanio_congr fun l => ?_
  have := congrArg List.length (hm.pids l)
  rwa [List.length_map, List.length_map] at this

theorem Saca.tamanio {l : Lista} {p : Pcb} (hs : Saca k l p k') :
    tamanioMultiprogramacion k' + (if l ∈ contadas then 1 else 0) =
      tamanioMultiprogramacion k := by
  obtain ⟨a, b, hl, hk⟩ := hs.sale
  rw [tamanio_eq_peso, tamanio_eq_peso, hk]
  exact Familia.peso_quitar (f := fun _ => 1) nodup_contadas hl

theorem saca_running {q : Pcb} {b : List Pcb} (hr : k.listas .running = q :: b) :
    Saca k .running q (k.conLista .running b) :=
  ⟨⟨[], b, hr, rfl⟩, rfl, rfl, rfl, rfl, rfl⟩

theorem actualizarEstadoPcb_tamanio (k : Nucleo) (p : Pcb) (state : EstadoCode) (l : Lista) :
    tamanioMultiprogramacion (k.actualizarEstadoPcb p state l) =
      tamanioMultiprogramacion k + carga (.hacer (.actualizarEstadoPcb p state l)) := by
  rw [tamanio_eq_peso, tamanio_eq_peso]
  exact Familia.peso_agregar (f := fun _ => 1) nodup_contadas l _

/-- A code that puts no process into those lists. -/
def SinCarga (e : Codigo) : Prop := ∀ x ∈ e, carga x = 0

theorem SinCarga.proxima (he : SinCarga e) : cargaProxima e = 0 := by
  cases e with
  | nil => rfl
  | cons x e => exact he x (List.mem_cons_self ..)

section

attribute [local simp] SinCarga carga contadas semPost semWait

theorem sinCarga_atenderCpuDispatch (k : Nucleo) (p : Pcb) (m : MensajeCpu) :
    SinCarga (atenderCpuDispatch k p m) := by
  cases m with
  | io nombre operacion =>
      simp only [atenderCpuDispatch]
      split
      · simp [rechazar]
      · unfold peticionIo
        split <;> simp [bloquearProceso]
  | interrupcion => simp [atenderCpuDispatch, finDeQuantum]
  | outOfMemory | terminarProceso =>
      simp [atenderCpuDispatch, terminar, liberarRecursosTomados]
  | wait recurso =>
      simp only [atenderCpuDispatch]
      split <;> simp [rechazar]
  | signal recurso =>
      simp only [atenderCpuDispatch]
      split <;> simp [rechazar, reanudar]

theorem sinCarga_trasDespachar (k : Nucleo) (quantum : ℤ) : SinCarga (trasDespachar k quantum) := by
  unfold trasDespachar
  split <;> simp

/-- A process is put into a list right after it was taken from another one. -/
theorem Hace.sinCarga_tail (ho : Hace k o k' e) : SinCarga e.tail := by
  cases ho with
  | @despachar l p q k' hs hp =>
      intro x hx
      rcases List.mem_cons.1 hx with rfl | hx
      · rfl
      · exact sinCarga_trasDespachar k p.quantum x hx
  | mensajeCpu p m =>
      exact fun x hx => sinCarga_atenderCpuDispatch k p m x (List.mem_of_mem_tail hx)
  | eliminarProceso p => simp [eliminarAfuera, liberarRecursosTomados]
  | otorgar => simp [desbloquearProceso]
  | recursoEspera => simp [bloquearProceso]
  | recursoConcede => simp [reanudar]
  | compararOtraVez => simp [probarGrado]
  | _ => simp

theorem Arranca.sinCarga {ev : Evento} (ha : Arranca k h ev k' r) : SinCarga r := by
  cases ha with
  | iniciar =>
      unfold iniciarPlanificacion
      split <;> simp
  | detener =>
      unfold detenerPlanificacion
      split <;> simp
  | finalizar n pid => simp [finalizarProceso]
  | @io nombre pet re k' hm => cases re <;> simp [atenderIo, desbloquearProceso]
  | corto ahora => simp [cicloCorto]
  | largo => simp [cicloLargo, probarGrado]
  | _ => simp

/-- A step puts a process into one of the lists only where its instruction says so; what it takes
from one may be about to be put into another. -/
theorem Hace.tamanio (ho : Hace k o k' e) (hperm : permite h P o) (hh : o ≠ .admitir) :
    tamanioMultiprogramacion k' + cargaProxima e ≤
      tamanioMultiprogramacion k + carga (.hacer o) := by
  cases ho with
  | actualizarEstadoPcb p state l => exact (actualizarEstadoPcb_tamanio k p state l).le
  | bloquear hs =>
      have := hs.tamanio
      simpa [cargaProxima] using this.le
  | desbloquear hs hl =>
      have := hs.tamanio
      rcases hl with rfl | rfl <;> simpa [cargaProxima] using this.le
  | despachar hs =>
      have := hs.tamanio
      rcases hperm.2.2 with rfl | rfl <;> simpa [cargaProxima] using this.le
  | dejarRunning hr =>
      have := (saca_running hr).tamanio
      rcases hperm.1 with rfl | rfl
      · simpa [cargaProxima] using this.le
      · rw [← this]
        simp [cargaProxima]
  | expulsar hr =>
      rw [← (saca_running hr).tamanio]
      simp [cargaProxima]
  | @reemplazar p q b hr =>
      have hlen : ∀ l, ((k.conLista .running (b ++ [p])).listas l).length =
          (k.listas l).length := by
        intro l
        by_cases hl : l = .running
        · subst hl
          simp [Kernel.Nucleo.conLista, hr]
        · simp [Kernel.Nucleo.conLista, Function.update_of_ne hl]
      rw [tamanio_congr hlen]
      simp [cargaProxima]
  | hayar hs | errorIo hs =>
      rw [← hs.tamanio]
      simp [cargaProxima]
  | mensajeCpu p m =>
      rw [(sinCarga_atenderCpuDispatch k p m).proxima]
      omega
  | admitir => exact absurd rfl hh
  | nada _ hm | crearPcb hm | recursoIncrementar hm | recursoObtenerBloqueado hm | recursoEspera hm
  | recursoConcede hm | hayarFin hm =>
      rw [hm.tamanio]
      simp [cargaProxima, bloquearProceso, reanudar]
  | enviarSiguientePcb hm | otorgar _ hm | recursoAgregarBloqueado hm =>
      rw [hm.tamanio]
      simp [cargaProxima, desbloquearProceso]
  | _ => exact Nat.le_add_right ..

end

theorem HaceDirecto.tamanio {ev : Evento} (hd : HaceDirecto k ev k') :
    tamanioMultiprogramacion k' = tamanioMultiprogramacion k := by
  cases hd with
  | marco hm => exact hm.tamanio
  | multiprogramacion valor => rfl

/-! ### The processes that were admitted -/

/-- What is left of the code of a thread, after its next instruction, puts no process into the
lists. -/
def Limpio (s : Estado) : Prop := ∀ h, SinCarga (s.codigo h).tail

theorem limpio_update {f : Hebra → Codigo} (hs : ∀ h, SinCarga (f h).tail) (hr : SinCarga r.tail)
    (j : Hebra) : SinCarga (Function.update f h r j).tail := by
  by_cases hj : j = h
  · subst hj
    rwa [Function.update_self]
  · rw [Function.update_of_ne hj]
    exact hs j

theorem SinCarga.tail (hr : SinCarga r) : SinCarga r.tail :=
  fun x hx => hr x (List.mem_of_mem_tail hx)

theorem limpio_paso (hs : Limpio s) (hp : Paso s a s') : Limpio s' := by
  cases hp with
  | llega hp ha hr => exact limpio_update hs (arranca_of_arrancar hr).sinCarga.tail
  | directo => exact hs
  | @esperar h ahora c r hh | @avisar h ahora c r hh =>
      have hr := hs h
      rw [hh] at hr
      exact limpio_update hs (SinCarga.tail hr)
  | @hacer h ahora o r e k hh ho =>
      have hr : SinCarga r := by
        have := hs h
        rwa [hh] at this
      refine limpio_update hs ?_
      have he := (hace_of_ejecutar ho).sinCarga_tail
      cases e with
      | nil => exact hr.tail
      | cons x e =>
          intro y hy
          rcases List.mem_append.1 hy with hy | hy
          · exact he y hy
          · exact hr y hy

/-- A code is put in place of that of a thread: the process on its way is the one of that code, if
the thread has `sem_planificacion`, and otherwise the one of before. -/
theorem enCamino_update {s t : Estado} {h : Hebra} {r : Codigo}
    (hd : t.dueno .planificacion = s.dueno .planificacion)
    (hcodigo : t.codigo = Function.update s.codigo h r) :
    (s.dueno .planificacion = some h ∧ h ≠ .largo ∧ enCamino s = cargaProxima (s.codigo h) ∧
        enCamino t = cargaProxima r) ∨
      (¬(s.dueno .planificacion = some h ∧ h ≠ .largo) ∧ enCamino t = enCamino s) := by
  unfold enCamino
  rw [hd, hcodigo]
  by_cases hh : s.dueno .planificacion = some h ∧ h ≠ .largo
  · refine .inl ⟨hh.1, hh.2, ?_⟩
    rw [hh.1]
    simp [hh.2]
  · refine .inr ⟨hh, ?_⟩
    cases hj : s.dueno .planificacion with
    | none => rfl
    | some j =>
        by_cases hjh : j = h
        · subst hjh
          have : j = .largo := by
            by_contra hne
            exact hh ⟨hj, hne⟩
          simp [this]
        · simp [Function.update_of_ne hjh]

/-- Where `mover_a_ready` is. -/
inductive Mover : Codigo → Prop
  | nada : Mover []
  | ciclo : Mover cicloLargo
  | prueba : Mover (probarGrado ++ [.esperar .largo, .hacer .admitir, .avisar .largo])
  | compara : Mover [.hacer .comparar, .esperar .largo, .hacer .admitir, .avisar .largo]
  | espera : Mover [.esperar .largo, .hacer .admitir, .avisar .largo]
  | admite : Mover [.hacer .admitir, .avisar .largo]
  | mueve (p : Pcb) :
      Mover [.hacer (.actualizarEstadoPcb p .ready .ready), semPost .processInReady, .avisar .largo]
  | avisa : Mover [semPost .processInReady, .avisar .largo]
  | suelta : Mover [.avisar .largo]

/-- With a code that puts no process anywhere, none comes to be on its way. -/
theorem enCamino_le {s t : Estado} {h : Hebra} {r : Codigo} (hr : SinCarga r)
    (hd : t.dueno .planificacion = s.dueno .planificacion)
    (hcodigo : t.codigo = Function.update s.codigo h r) : enCamino t ≤ enCamino s := by
  obtain ⟨-, -, -, ht⟩ | ⟨-, ht⟩ := enCamino_update hd hcodigo
  · rw [ht, hr.proxima]
    exact Nat.zero_le _
  · exact ht.le

theorem enCamino_eq_zero
    (h₀ : ∀ h, s.dueno .planificacion = some h → cargaProxima (s.codigo h) = 0) :
    enCamino s = 0 := by
  unfold enCamino
  split
  · rfl
  · rename_i h hd
    split
    · rfl
    · exact h₀ h hd

theorem Limpio.sinCarga {x : Orden} (hl : Limpio s) (hh : s.codigo h = x :: r) : SinCarga r := by
  have := hl h
  rwa [hh] at this

theorem admitir_tamanio (ho : Hace k .admitir k' e) :
    tamanioMultiprogramacion k' = tamanioMultiprogramacion k := by
  cases ho with
  | nada _ hm => exact hm.tamanio
  | admitir hn => rfl

/-- Without `sem_planificacion` only `mover_a_ready` puts a process into one of the lists. -/
theorem carga_eq_zero {ahora : ℤ} (hm : Mover (s.codigo .largo)) (hh : s.codigo h = .hacer o :: r)
    (hperm : permite h (s.reparto.tiene h) o)
    (hno : ¬(s.dueno .planificacion = some h ∧ h ≠ .largo))
    (ha : ¬MueveAReady s (.avanza h ahora)) : carga (.hacer o) = 0 := by
  cases o with
  | actualizarEstadoPcb p state l =>
      rw [carga]
      split
      swap
      · rfl
      rename_i hl
      by_cases hlargo : h = .largo
      · subst hlargo
        rw [hh] at hm
        cases hm with
        | mueve => exact absurd ⟨_, _, hh⟩ ha
      · have hagrega : agrega h (s.reparto.tiene h) l := hperm
        unfold agrega at hagrega
        rw [if_neg] at hagrega
        · exact absurd ⟨hagrega, hlargo⟩ hno
        · rintro (hlargo' | rfl)
          · exact hlargo hlargo'
          · simp [contadas] at hl
  | _ => rfl

/-- The step with which `mover_a_ready` puts a process into READY is the only one that adds to the
processes that were admitted. -/
theorem admitidos_paso (hs : Ordenado s) (hl : Limpio s) (hm : Mover (s.codigo .largo))
    (hp : Paso s a s') (ha : ¬MueveAReady s a) : admitidos s' ≤ admitidos s := by
  unfold admitidos
  cases hp with
  | @llega h ev k r hp hadm hr =>
      have harr := arranca_of_arrancar hr
      exact add_le_add harr.marcoPids.tamanio.le (enCamino_le harr.sinCarga rfl rfl)
  | @directo ev k he hadm hm =>
      exact add_le_add (haceDirecto_of_manejar he hm).tamanio.le le_rfl
  | @esperar h ahora c r hh hc =>
      refine add_le_add (tamanio_congr fun _ => by simp).le ?_
      cases c with
      | planificacion =>
          -- the thread that has just got it has nothing to put
          rw [enCamino_eq_zero]
          · exact Nat.zero_le _
          · intro j hj
            obtain rfl : h = j :=
              Option.some.inj (Cerrojos.Reparto.tomar_dueno_self (s := s.reparto) ▸ hj)
            rw [Estado.codigo, Cerrojos.Reparto.tomar_codigo_self]
            exact (hl.sinCarga hh).proxima
      | largo => exact enCamino_le (hl.sinCarga hh) rfl rfl
  | @avisar h ahora c r hh =>
      refine add_le_add (tamanio_congr fun _ => by simp).le ?_
      cases c with
      | planificacion =>
          rw [enCamino_eq_zero]
          · exact Nat.zero_le _
          · intro j hj
            rw [Estado.dueno, Cerrojos.Reparto.soltar_dueno_self] at hj
            cases hj
      | largo => exact enCamino_le (hl.sinCarga hh) rfl rfl
  | @hacer h ahora o r e k hh ho =>
      have ho := hace_of_ejecutar ho
      have hperm : permite h (s.reparto.tiene h) o := hs.enRegla.permite hh
      have hcam := enCamino_update (s := s)
        (t := { nucleo := k, reparto := s.reparto.seguir h (e ++ r) }) (h := h) (r := e ++ r)
        rfl rfl
      change tamanioMultiprogramacion k + _ ≤ _
      by_cases hadm : o = .admitir
      · subst hadm
        have htam := admitir_tamanio ho
        obtain ⟨-, hne, -⟩ | ⟨-, hcam⟩ := hcam
        · exact absurd hperm.1 hne
        · omega
      have htam := ho.tamanio hperm hadm
      obtain ⟨-, -, hcam, hcam'⟩ | ⟨hno, hcam⟩ := hcam
      · -- the thread has `sem_planificacion`: what it takes is on its way
        have he : cargaProxima (e ++ r) ≤ cargaProxima e := by
          cases e with
          | nil => exact (hl.sinCarga hh).proxima.le
          | cons x e => exact le_rfl
        have ho : cargaProxima (s.codigo h) = carga (.hacer o) := by rw [hh]; rfl
        omega
      · have hcero := carga_eq_zero hm hh hperm hno ha
        omega

/-! ### `mover_a_ready` -/

theorem Mover.hacer (hm : Mover (.hacer o :: r)) (ho : Hace k o k' e) : Mover (e ++ r) := by
  cases hm with
  | ciclo =>
      cases ho with
      | nada => exact .prueba
  | prueba =>
      cases ho with
      | nada => exact .compara
  | compara =>
      cases ho with
      | nada hn => exact hn.elim
      | comparar => exact .espera
      | compararOtraVez => exact .prueba
  | admite =>
      cases ho with
      | nada => exact .suelta
      | admitir hn => exact .mueve _
  | mueve p =>
      cases ho with
      | nada hn => exact hn.elim
      | actualizarEstadoPcb => exact .avisa
  | avisa =>
      cases ho with
      | nada => exact .suelta

theorem mover_paso (hs : Ordenado s) (hm : Mover (s.codigo .largo)) (hp : Paso s a s') :
    Mover (s'.codigo .largo) := by
  by_cases hj : a.hebra = some .largo
  swap
  · rw [(hp.otra hs hj).2]
    exact hm
  cases hp with
  | llega hp hadm hr =>
      cases hj
      cases arranca_of_arrancar hr with
      | largo => simpa [Estado.codigo] using Mover.ciclo
  | directo => cases hj
  | esperar hh hc =>
      cases hj
      rw [hh] at hm
      cases hm with
      | espera => simpa [Estado.codigo] using Mover.admite
  | avisar hh =>
      cases hj
      rw [hh] at hm
      cases hm with
      | suelta => simpa [Estado.codigo] using Mover.nada
  | hacer hh ho =>
      cases hj
      rw [hh] at hm
      simpa [Estado.codigo] using hm.hacer (hace_of_ejecutar ho)

/-- Between its comparison and its move there is room for the process of `mover_a_ready`. -/
structure Cupo (s : Estado) : Prop where
  mover : Mover (s.codigo .largo)
  limpio : Limpio s
  lugar : haComparado (s.codigo .largo) = true →
    (admitidos s : ℤ) + 1 ≤ s.nucleo.config.gradoMultiprogramacion

theorem cupo_inicial (config : Kernel.Config) : Cupo { nucleo := Kernel.iniciar config } where
  mover := .nada
  limpio h := by simp [Estado.codigo, SinCarga]
  lugar h := by cases h

theorem Paso.config (hp : Paso s a s') (ha : ∀ valor, a ≠ .directo (.multiprogramacion valor)) :
    s'.nucleo.config = s.nucleo.config := by
  cases hp with
  | llega hp hadm hr => exact (arranca_of_arrancar hr).marcoPids.config
  | directo he hadm hm =>
      cases haceDirecto_of_manejar he hm with
      | marco hm => exact hm.config
      | multiprogramacion valor => exact absurd rfl (ha valor)
  | esperar | avisar => exact conCuenta_config ..
  | hacer hh ho => exact (hace_of_ejecutar ho).fijo.2.1

/-- It comes to have compared by comparing. -/
theorem comparar_of_haComparado (hs : Ordenado s) (hm : Mover (s.codigo .largo)) (hp : Paso s a s')
    (hno : haComparado (s.codigo .largo) = false) (hsi : haComparado (s'.codigo .largo) = true) :
    (∃ ahora, a = .avanza .largo ahora) ∧ (s.codigo .largo).head? = some (.hacer .comparar) ∧
      (tamanioMultiprogramacion s.nucleo : ℤ) < s.nucleo.config.gradoMultiprogramacion := by
  by_cases hj : a.hebra = some .largo
  swap
  · rw [(hp.otra hs hj).2, hno] at hsi
    cases hsi
  cases hp with
  | llega hp hadm hr =>
      cases hj
      cases arranca_of_arrancar hr with
      | largo => simp [Estado.codigo, haComparado, cicloLargo, semWait] at hsi
  | directo => cases hj
  | esperar hh hc =>
      cases hj
      rw [hh] at hm hno
      cases hm
      cases hno
  | avisar hh =>
      cases hj
      rw [hh] at hm
      cases hm
      simp [Estado.codigo, haComparado] at hsi
  | @hacer h ahora o r e k hh ho =>
      cases hj
      have ho := hace_of_ejecutar ho
      rw [hh] at hm hno
      cases hm with
      | ciclo =>
          cases ho with
          | nada => simp [Estado.codigo, haComparado, probarGrado, semWait] at hsi
      | prueba | avisa =>
          cases ho with
          | nada => simp [Estado.codigo, haComparado] at hsi
      | compara =>
          cases ho with
          | nada hn => exact hn.elim
          | comparar hg => exact ⟨⟨ahora, rfl⟩, by rw [hh]; rfl, hg⟩
          | compararOtraVez => simp [Estado.codigo, haComparado, probarGrado, semWait] at hsi
      | admite | mueve => cases hno

/-- Once it has moved the process it has to compare again. -/
theorem haComparado_of_mueve (hm : Mover (s.codigo .largo)) (hp : Paso s a s')
    (ha : MueveAReady s a) : haComparado (s'.codigo .largo) = false := by
  cases hp with
  | llega | directo => exact ha.elim
  | @esperar h ahora c r hh | @avisar h ahora c r hh =>
      cases h <;> first | exact ha.elim | skip
      obtain ⟨p, r, hp⟩ := ha
      rw [hh] at hp
      cases hp
  | @hacer h ahora o r e k hh ho =>
      cases h <;> first | exact ha.elim | skip
      obtain ⟨p, r, hp⟩ := ha
      rw [hh] at hp hm
      cases hp
      cases hm with
      | mueve =>
          cases hace_of_ejecutar ho with
          | nada hn => exact hn.elim
          | actualizarEstadoPcb => simp [Estado.codigo, haComparado, semPost]

theorem cupo_paso (hs : Ordenado s) (hc : Cupo s) (hp : Paso s a s') (ha : ¬Excede s a) :
    Cupo s' := by
  refine ⟨mover_paso hs hc.mover hp, limpio_paso hc.limpio hp, fun hsi => ?_⟩
  have hle := admitidos_paso hs hc.limpio hc.mover hp fun hmueve => by
    rw [haComparado_of_mueve hc.mover hp hmueve] at hsi
    cases hsi
  cases hno : haComparado (s.codigo .largo) with
  | false =>
      obtain ⟨⟨ahora, rfl⟩, hhead, htam⟩ := comparar_of_haComparado hs hc.mover hp hno hsi
      have hlt : (admitidos s : ℤ) < s.nucleo.config.gradoMultiprogramacion := by
        by_contra hge
        exact ha ⟨hhead, htam, not_lt.1 hge⟩
      rw [hp.config (by simp)]
      omega
  | true =>
      by_cases hmulti : ∃ valor, a = .directo (.multiprogramacion valor)
      · obtain ⟨valor, rfl⟩ := hmulti
        have hvalor : (admitidos s : ℤ) + 1 ≤ valor := by
          by_contra hlt
          exact ha ⟨hno, not_le.1 hlt⟩
        have hgrado : s'.nucleo.config.gradoMultiprogramacion = valor := by
          cases hp with
          | directo he hadm hm =>
              cases hm
              rfl
        omega
      · rw [hp.config fun valor hv => hmulti ⟨valor, hv⟩]
        have := hc.lugar hno
        omega

theorem cupo_alcanzable (hs : Transicion.AlcanzableCon sistema (fun s a => ¬Excede s a) s) :
    Cupo s := by
  induction hs with
  | inicio hi =>
      obtain ⟨config, rfl⟩ := hi
      exact cupo_inicial config
  | paso hs ha hp ih => exact cupo_paso (ordenado_alcanzable hs) ih (paso_of_avanzar hp) ha

/-- **The degree of multiprogramming is respected at every step that moves a process to READY**, in
the runs in which the degree is not lowered between the comparison and the move, and the comparison
does not miss a process on its way. -/
theorem grado_respetado (hs : Transicion.AlcanzableCon sistema (fun s a => ¬Excede s a) s)
    (ha : MueveAReady s a) (hp : sistema.paso s a s') :
    (tamanioMultiprogramacion s'.nucleo : ℤ) ≤ s'.nucleo.config.gradoMultiprogramacion := by
  have hc := cupo_alcanzable hs
  unfold MueveAReady at ha
  split at ha
  · obtain ⟨p, r, hh⟩ := ha
    have hlugar := hc.lugar (by rw [hh]; rfl)
    have htam := actualizarEstadoPcb_tamanio s.nucleo p .ready .ready
    have hcarga : carga (.hacer (.actualizarEstadoPcb p .ready .ready)) = 1 := rfl
    change avanzar s _ = _ at hp
    simp only [avanzar, hh, ejecutar, Except.toOption, Option.map_some, Option.some.injEq] at hp
    subst hp
    change (tamanioMultiprogramacion (s.nucleo.actualizarEstadoPcb p .ready .ready) : ℤ) ≤
      s.nucleo.config.gradoMultiprogramacion
    unfold admitidos at hlugar
    omega
  · exact ha.elim

/-! ### A pause between the comparison and the move -/

/-- The degree is 2.  With one process in READY `mover_a_ready` compares for another one; then
planning is stopped, the degree is set, and planning goes on. -/
def conPausa (valor : ℤ) : List Suceso :=
  atiende .consola .iniciarPlanificacion 3 ++ atiende .consola .iniciarProceso 3 ++
    atiende .consola .iniciarProceso 3 ++
    [.directo (.memoria (.nuevoProceso 1)), .directo (.memoria (.nuevoProceso 2))] ++
    atiende .largo .largo 8 ++ atiende .largo .largo 3 ++
    atiende .consola .detenerPlanificacion 3 ++ [.directo (.multiprogramacion valor)] ++
    atiende .consola .iniciarPlanificacion 3 ++ List.replicate 2 (.avanza .largo 0)

/-- The degree has stayed the same. -/
def porMover : Estado :=
  correr (fun s a => ¬Excede s a) ⟨.fifo, 10, 2, []⟩ (conPausa 2) (by decide +kernel)

def movido : Estado := (avanzar porMover (.avanza .largo 0)).get (by decide +kernel)

theorem mueveAReady_of_head {p : Pcb} {ahora : ℤ}
    (hp : (s.codigo .largo).head? = some (.hacer (.actualizarEstadoPcb p .ready .ready))) :
    MueveAReady s (.avanza .largo ahora) := by
  obtain ⟨r, hr⟩ := List.head?_eq_some_iff.1 hp
  exact ⟨p, r, hr⟩

theorem grado_respetado_movido :
    (tamanioMultiprogramacion movido.nucleo : ℤ) ≤ movido.nucleo.config.gradoMultiprogramacion :=
  grado_respetado (a := .avanza .largo 0) (alcanzable_correr _)
    (mueveAReady_of_head (p := { pid := 2 }) (by decide +kernel))
    (Option.some_get _).symm

/-- The degree was lowered to 1. -/
def porExceder : Estado :=
  correr (fun _ _ => True) ⟨.fifo, 10, 2, []⟩ (conPausa 1) (by decide +kernel)

def excedido : Estado := (avanzar porExceder (.avanza .largo 0)).get (by decide +kernel)

theorem grado_excedido :
    ¬∀ s a s', Transicion.Alcanzable sistema s → MueveAReady s a → sistema.paso s a s' →
        (tamanioMultiprogramacion s'.nucleo : ℤ) ≤ s'.nucleo.config.gradoMultiprogramacion := by
  intro h
  have := h porExceder (.avanza .largo 0) excedido (alcanzable_correr _)
    (mueveAReady_of_head (p := { pid := 2 }) (by decide +kernel))
    (Option.some_get _).symm
  revert this
  decide +kernel

end KernelHebras
