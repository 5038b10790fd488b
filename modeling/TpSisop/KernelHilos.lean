/-
**The threads of the scheduler, and what each event does to them.**

The quantum of a process is kept by three things that no list shows: the two semaphores of the
quantum, where the threads of the scheduler and of the timer are, and `pid_ejecutando`.  Most
handlers leave all of them alone.  This module says once what every event does to them; the results
about the quantum, the interruptions and the time of a process start from it.

Main definitions:

* `Kernel.Hilos`, `Kernel.Nucleo.hilos` — the threads, the process at the CPU and the interrupt
  socket;
* `Kernel.Nucleo.proximo` — the PCB that a step of the scheduler sends to the CPU;
* `Kernel.Nucleo.bloquea`, `Kernel.Nucleo.bloqueaCon` — a WAIT that takes its process off the CPU;
* `Kernel.Avance` — what an event does to the threads.

Main results:

* `Kernel.liberarRecursosTomados_hilos`, `Kernel.atenderIo_hilos` — the handlers that leave them
  alone;
* `Kernel.manejar_avance` — the handling of an event.
-/

import TpSisop.KernelFallas

set_option relaxedAutoImplicit false
set_option autoImplicit false

namespace Kernel

open Resultado (Cumple bind_eq_ok)

variable {k k' k₁ : Nucleo} {p q : Pcb} {ahora : ℤ}

/-! ### The threads -/

structure Hilos where
  algoritmo : Algoritmo
  quantum : ℤ
  interruptionQuantum : ℕ
  begginQuantum : ℕ
  corto : FaseCorto
  reloj : FaseReloj
  pidEjecutando : ℕ
  enCpu : Option Pcb
  interrupt : List Interrupcion
  deriving DecidableEq

def Nucleo.hilos (k : Nucleo) : Hilos where
  algoritmo := k.config.algoritmo
  quantum := k.config.quantum
  interruptionQuantum := k.sem.interruptionQuantum
  begginQuantum := k.sem.begginQuantum
  corto := k.corto
  reloj := k.reloj
  pidEjecutando := k.pidEjecutando
  enCpu := k.enCpu
  interrupt := k.interrupt

/-- What `enviar_siguiente_pcb` does to them. -/
def Hilos.enviar (h : Hilos) (p : Pcb) : Hilos := { h with pidEjecutando := p.pid, enCpu := some p }

/-- The PCB as it goes to RUNNING: under VRR with the time of the dispatch. -/
def Nucleo.despachado (k : Nucleo) (p : Pcb) (ahora : ℤ) : Pcb :=
  if k.config.algoritmo = .vrr then { p with tiempoInicial := ahora, estado := .exec }
  else { p with estado := .exec }

/-- What a step of the scheduler sends to the CPU: the first PCB of READY, or of the priority queue;
one that comes from READY under VRR gets a whole quantum. -/
def Nucleo.proximo (k : Nucleo) (ahora : ℤ) : Option Pcb :=
  match k.corto with
  | .esperaQuantum => (k.listas .ready).head?.map fun p => k.despachado p ahora
  | .esperaPlanificacion =>
      match k.config.algoritmo with
      | .fifo => (k.listas .ready).head?.map fun p => k.despachado p ahora
      | .vrr =>
          match k.listas .auxiliar with
          | p :: _ => some (k.despachado p ahora)
          | [] => (k.listas .ready).head?.map fun p =>
              k.despachado { p with quantum := k.config.quantum } ahora
      | _ => none
  | _ => none

/-- WAIT finds no instance of the resource. -/
def Nucleo.bloquea (k : Nucleo) (recurso : String) : Prop :=
  ∃ r ∈ k.recursos.valor recurso, r.instancias - 1 < 0

instance (k : Nucleo) (recurso : String) : Decidable (k.bloquea recurso) :=
  inferInstanceAs (Decidable (∃ r ∈ k.recursos.valor recurso, r.instancias - 1 < 0))

/-- The message is such a WAIT. -/
def Nucleo.bloqueaCon (k : Nucleo) : MensajeCpu → Prop
  | .wait recurso => k.bloquea recurso
  | _ => False

instance (k : Nucleo) : DecidablePred k.bloqueaCon
  | .wait recurso => inferInstanceAs (Decidable (k.bloquea recurso))
  | .io _ _ | .interrupcion | .outOfMemory | .terminarProceso | .signal _ => .isFalse id

/-- The scheduler does not time a process. -/
def FaseCorto.sinCuenta : FaseCorto → Prop
  | .cuenta _ _ _ => False
  | _ => True

/-- The scheduler stops timing a process without an interruption: the process is not in execution,
or does not seem to be. -/
def Nucleo.abandona (k : Nucleo) (pid : ℕ) : Prop :=
  Coleccion.obtener k.estadosProcesos (pid - 1) = some .blocked ∨
    Coleccion.obtener k.estadosProcesos (pid - 1) = some .exitt ∨
    k.pidEjecutando = 0 ∨ pid ≠ k.pidEjecutando

/-- What an event does to the threads. -/
inductive Avance (k : Nucleo) : Evento → Hilos → Prop
  | quieto {e : Evento} (he : ¬e.deCpu)
      (ht : ∀ ahora pid t q, e = .corto ahora → k.corto = .cuenta pid t q → ahora - t < q) :
      Avance k e k.hilos
  | finaliza {pid : ℕ} (hpid : k.pidEjecutando = pid) :
      Avance k (.finalizarProceso pid)
        { k.hilos with interrupt := k.interrupt ++ [⟨pid, .terminarProceso⟩] }
  | corto {ahora : ℤ} {f : FaseCorto} (hf : f.sinCuenta)
      (hq : f = .esperaQuantum → k.config.algoritmo = .rr)
      (hs : ∀ pid t q, k.corto = .cuenta pid t q → k.abandona pid) :
      Avance k (.corto ahora) { k.hilos with corto := f }
  | interrumpe {ahora : ℤ} {pid : ℕ} {t q : ℤ} (hf : k.corto = .cuenta pid t q)
      (hpid : pid = k.pidEjecutando) (hq : q ≤ ahora - t) :
      Avance k (.corto ahora)
        { k.hilos with
          corto := .esperaCpu
          interrupt := k.interrupt ++ [⟨pid, .interrupcion⟩]
          interruptionQuantum := k.sem.interruptionQuantum + 1 }
  | despacha {ahora : ℤ} {p : Pcb} {f : FaseCorto} (hp : k.proximo ahora = some p)
      (hlibre : k.enCpu = none) (hf : f = if k.config.algoritmo = .vrr then
        .cuenta p.pid ahora p.quantum else .esperaCpu) (hrr : k.config.algoritmo ≠ .rr) :
      Avance k (.corto ahora) { k.hilos.enviar p with corto := f }
  | despachaRr {ahora : ℤ} {p : Pcb} {n : ℕ} (hf : k.corto = .esperaQuantum)
      (hp : k.proximo ahora = some p) (hlibre : k.enCpu = none)
      (hn : k.sem.interruptionQuantum = n + 1) :
      Avance k (.corto ahora)
        { k.hilos.enviar p with
          corto := .esperaCpu
          interruptionQuantum := n
          begginQuantum := k.sem.begginQuantum + 1 }
  | arma {n : ℕ} (hf : k.reloj = .espera) (hn : k.sem.begginQuantum = n + 1) :
      Avance k .reloj { k.hilos with reloj := .cuenta k.pidEjecutando, begginQuantum := n }
  | suena (hf : k.reloj = .cuenta k.pidEjecutando) :
      Avance k .reloj
        { k.hilos with
          reloj := .espera
          interrupt := k.interrupt ++ [⟨k.pidEjecutando, .interrupcion⟩]
          interruptionQuantum := k.sem.interruptionQuantum + 1 }
  | calla {pid : ℕ} (hf : k.reloj = .cuenta pid) (hpid : pid ≠ k.pidEjecutando) :
      Avance k .reloj { k.hilos with reloj := .espera }
  | bloqueoIo {p : Pcb} {nombre : String} {operacion : OperacionIo} {ahora : ℤ} :
      Avance k (.cpu p (.io nombre operacion) ahora)
        { k.hilos with
          pidEjecutando := 0
          enCpu := none
          interruptionQuantum := k.sem.interruptionQuantum
            + if k.config.algoritmo = .rr ∨ k.config.algoritmo = .vrr then 1 else 0 }
  | bloqueoRecurso {p : Pcb} {recurso : String} {ahora : ℤ} (hb : k.bloquea recurso) :
      Avance k (.cpu p (.wait recurso) ahora)
        { k.hilos with pidEjecutando := 0, enCpu := none }
  | reanuda {p p' : Pcb} {m : MensajeCpu} {ahora : ℤ} (hb : ¬k.bloqueaCon m)
      (hpid : p'.pid = p.pid) (hquantum : p'.quantum = p.quantum)
      (htiempo : p'.tiempoInicial = p.tiempoInicial) :
      Avance k (.cpu p m ahora) (k.hilos.enviar p')
  | sale {p : Pcb} {m : MensajeCpu} {ahora : ℤ} (hb : ¬k.bloqueaCon m) :
      Avance k (.cpu p m ahora) { k.hilos with enCpu := none }

/-! ### The handlers that leave them alone -/

/-- A handler that reaches its end leaves the threads alone. -/
abbrev Respeta (h : Hilos) : Except Corte Nucleo → Prop :=
  Cumple (fun _ => False) fun k' => k'.hilos = h

theorem alistar_hilos (k : Nucleo) (p : Pcb) : (k.alistar p).hilos = k.hilos := by
  unfold Nucleo.alistar
  split <;> rfl

theorem desbloquearProceso_hilos (k : Nucleo) (pid : ℕ) :
    Respeta k.hilos (desbloquearProceso k pid) :=
  (exigir_cumple id).bind fun _ _ _ => (obtenido_cumple False.elim).bind fun _ _ _ =>
    alistar_hilos ..

theorem recursoIncrementar_hilos (k : Nucleo) (recurso : String) :
    Respeta k.hilos (recursoIncrementar k recurso) := by
  refine recursoIncrementar_regla (P := fun k' => k'.hilos = k.hilos) False.elim rfl
    (fun _ => rfl) ?_
  intro r a p b _
  exact desbloquearProceso_hilos _ p.pid

theorem liberarRecursosTomados_hilos (k : Nucleo) (p : Pcb) :
    Respeta k.hilos (liberarRecursosTomados k p) := by
  refine liberarRecursosTomados_regla (I := fun k' => k'.hilos = k.hilos) id ?_ ?_ rfl p
  · intro k₁ n h₁
    rw [← h₁]
    exact recursoIncrementar_hilos k₁ n
  · intro k₁ n r h₁
    exact h₁

theorem eliminarProceso_hilos (hr : procesoEnRunning k p = false) :
    Respeta k.hilos (eliminarProceso k p) := by
  rw [eliminarProceso, hr, if_neg Bool.false_ne_true]
  exact (liberarRecursosTomados_hilos k p).bind fun k₁ _ h₁ =>
    (exigir_cumple id).bind fun _ _ _ => h₁

theorem errorIo_hilos (hu : ∀ x, veces k.listas x ≤ 1) (pid : ℕ) :
    Respeta k.hilos (errorIo k pid) := by
  refine (obtenido_cumple False.elim).bind fun r _ hr => ?_
  obtain ⟨a, b, hl, -, -, hr₂⟩ := sacar_eq_some (p := r.1) (r := r.2) hr
  have hv : veces (k.conLista .blocked r.2).listas r.1.pid = 0 := by
    rw [hr₂]
    exact veces_quitar_eq_zero (hu _) hl
  exact eliminarProceso_hilos (k := k.conLista .blocked r.2) (procesoEnRunning_eq_false hv)

theorem finIo_hilos (k : Nucleo) (nombre : String) (pid : ℕ) :
    Respeta k.hilos (finIo k nombre pid) := by
  refine (desbloquearProceso_hilos k pid).bind fun k₁ _ h₁ => ?_
  refine (obtenido_cumple False.elim).bind fun i _ _ => ?_
  split
  · exact h₁
  · simp only
    split
    · exact h₁
    · exact (obtenido_cumple False.elim).bind fun _ _ _ => h₁

theorem atenderIo_hilos (hu : ∀ x, veces k.listas x ≤ 1) (nombre : String) (pet : PeticionIo)
    (r : RespuestaIo) : Respeta k.hilos (atenderIo k nombre pet r) := by
  cases r with
  | errorIo => exact errorIo_hilos hu pet.pid
  | ioOcupada => exact (obtenido_cumple False.elim).bind fun _ _ _ => rfl
  | finIo => exact finIo_hilos k nombre pet.pid

theorem moverAReady_hilos (k : Nucleo) : Respeta k.hilos (moverAReady k) := by
  unfold moverAReady
  split
  · exact (exigir_cumple id).bind fun _ _ _ => rfl
  · refine (exigir_cumple id).bind fun _ _ _ => ?_
    simp only
    split <;> rfl
  · refine (exigir_cumple id).bind fun _ _ _ => (exigir_cumple id).bind fun _ _ _ => ?_
    split <;> rfl

/-! ### The messages of the CPU -/

theorem bloquearProceso_hilos (k : Nucleo) (p : Pcb) (esIo : Bool) (ahora : ℤ) :
    Respeta { k.hilos with pidEjecutando := 0 } (bloquearProceso k p esIo ahora) :=
  (exigir_cumple id).bind fun _ _ _ => (obtenido_cumple False.elim).bind fun _ _ _ => rfl

theorem reanudar_hilos (k : Nucleo) (p : Pcb) : Respeta (k.hilos.enviar p) (reanudar k p) :=
  (obtenido_cumple False.elim).bind fun _ _ _ => rfl

theorem motivoSignal_hilos (k : Nucleo) (p : Pcb) (recurso : String) :
    Respeta (k.hilos.enviar { p with recursosTomados := p.recursosTomados.erase recurso })
      (motivoSignal k p recurso) :=
  (recursoIncrementar_hilos k recurso).bind fun k₁ _ h₁ => h₁ ▸ reanudar_hilos k₁ _

theorem recursoAgregarBloqueado_hilos (k : Nucleo) (recurso : String) (pid : ℕ) :
    (recursoAgregarBloqueado k recurso pid).hilos = k.hilos := by
  unfold recursoAgregarBloqueado
  cases k.recursos.valor recurso <;> rfl

/-- WAIT blocks the process, or lets it go on. -/
theorem motivoWait_hilos (k : Nucleo) (p : Pcb) (recurso : String) (ahora : ℤ)
    (hr : k.recursos.valor recurso ≠ none) :
    Cumple (fun _ => False)
      (fun k' => k.bloquea recurso ∧ k'.hilos = { k.hilos with pidEjecutando := 0 } ∨
        ¬k.bloquea recurso ∧
          k'.hilos = k.hilos.enviar { p with recursosTomados := p.recursosTomados ++ [recurso] })
      (motivoWait k p recurso ahora) := by
  obtain ⟨r, hr⟩ := Option.ne_none_iff_exists'.1 hr
  unfold motivoWait recursoDecrementar
  rw [hr]
  simp only
  split
  · rename_i hi
    rw [bind_assoc]
    refine (bloquearProceso_hilos _ _ false ahora).bind fun k₁ _ h₁ => .inl ⟨⟨r, hr, hi⟩, ?_⟩
    exact (recursoAgregarBloqueado_hilos k₁ recurso p.pid).trans h₁
  · rename_i hi
    have hb : ¬k.bloquea recurso := by
      rintro ⟨r', hr', hi'⟩
      cases hr.symm.trans hr'
      exact hi hi'
    exact (reanudar_hilos (k.ponerRecurso recurso _) _).mono fun k' _ h' => .inr ⟨hb, h'⟩

theorem finDeQuantum_hilos (k : Nucleo) (p : Pcb) : Respeta k.hilos (finDeQuantum k p) :=
  (exigir_cumple id).bind fun _ _ _ => (obtenido_cumple False.elim).bind fun _ _ _ => rfl

theorem terminar_hilos (k : Nucleo) (p : Pcb) : Respeta k.hilos (terminar k p) :=
  (exigir_cumple id).bind fun _ _ _ => (liberarRecursosTomados_hilos k p).bind fun _ _ h₁ =>
    (obtenido_cumple False.elim).bind fun _ _ _ => h₁

theorem expulsar_hilos (hrun : k.listas .running = [q]) : Respeta k.hilos (expulsar k p) := by
  refine (obtenido_cumple False.elim).bind fun r _ hr => ?_
  rw [hrun, Coleccion.remover_cons_zero, Option.some.injEq] at hr
  subst hr
  refine (eliminarProceso_hilos (k := k.conLista .running []) ?_).bind fun k₁ _ h₁ => h₁
  simp [procesoEnRunning, Nucleo.conLista]

theorem peticionIo_avance {nombre : String} {operacion : OperacionIo}
    (hrun : k.sinCpu.listas .running = [q]) :
    Cumple (fun _ => False)
      (fun k' => Avance k (.cpu p (.io nombre operacion) ahora) k'.hilos)
      (peticionIo k.sinCpu p nombre operacion ahora) := by
  unfold peticionIo
  cases k.sinCpu.interfaces.valor nombre with
  | none => exact (expulsar_hilos hrun).mono fun k' _ h => h ▸ .sale id
  | some i =>
      refine (bloquearProceso_hilos k.sinCpu p true ahora).bind fun k₁ _ h₁ => ?_
      have halg : k₁.config.algoritmo = k.config.algoritmo := congrArg Hilos.algoritmo h₁
      have hiq : k₁.sem.interruptionQuantum = k.sem.interruptionQuantum :=
        congrArg Hilos.interruptionQuantum h₁
      show Avance k _ _
      convert (.bloqueoIo : Avance k (.cpu p (.io nombre operacion) ahora) _) using 1
      have h₂ : ∀ n, { k₁.hilos with pidEjecutando := 0, interruptionQuantum := n }
          = { k.hilos with pidEjecutando := 0, enCpu := none, interruptionQuantum := n } := by
        rw [h₁]
        exact fun _ => rfl
      rw [← halg, ← hiq, ← h₂]
      rfl

theorem atenderCpuDispatch_avance (hrun : k.sinCpu.listas .running = [q]) (m : MensajeCpu) :
    Cumple (fun _ => False) (fun k' => Avance k (.cpu p m ahora) k'.hilos)
      (atenderCpuDispatch k.sinCpu p ahora m) := by
  have hsale : ∀ {r}, ¬k.bloqueaCon m → Respeta k.sinCpu.hilos r →
      Cumple (fun _ => False) (fun k' => Avance k (.cpu p m ahora) k'.hilos) r :=
    fun hb h => h.mono fun k' _ h' => h' ▸ .sale hb
  cases m with
  | io nombre operacion => exact peticionIo_avance hrun
  | interrupcion => exact hsale id (finDeQuantum_hilos k.sinCpu p)
  | outOfMemory => exact hsale id (terminar_hilos k.sinCpu p)
  | terminarProceso => exact hsale id (terminar_hilos k.sinCpu p)
  | wait recurso =>
      simp only [atenderCpuDispatch]
      split
      · rename_i hr
        refine hsale ?_ (expulsar_hilos hrun)
        rintro ⟨r, hr', -⟩
        cases hr.symm.trans hr'
      · rename_i hr
        refine (motivoWait_hilos k.sinCpu p recurso ahora hr).mono fun k' _ h => ?_
        rcases h with ⟨hb, h⟩ | ⟨hb, h⟩
        · rw [h]
          exact .bloqueoRecurso hb
        · rw [h]
          exact .reanuda hb rfl rfl rfl
  | signal recurso =>
      simp only [atenderCpuDispatch]
      split
      · exact hsale id (expulsar_hilos hrun)
      · refine (motivoSignal_hilos k.sinCpu p recurso).mono fun k' _ h => ?_
        rw [h]
        exact .reanuda id rfl rfl rfl

/-! ### The threads themselves -/

/-- The end of a pass that takes a PCB from a list. -/
theorem despachar_hilos (k : Nucleo) (l : Lista) (xs : List Pcb) (p : Pcb) (ahora : ℤ)
    (s : Semaforos) (f : FaseCorto) :
    ({ (k.conLista l xs).despachar p ahora with sem := s, corto := f } : Nucleo).hilos
      = { k.hilos.enviar (k.despachado p ahora) with
          corto := f
          interruptionQuantum := s.interruptionQuantum
          begginQuantum := s.begginQuantum } := by
  unfold Nucleo.despachar Nucleo.despachado
  rw [show (k.conLista l xs).config = k.config from rfl]
  simp only
  split <;> rfl

theorem pasada_avance (hf : k.corto = .esperaPlanificacion) (hlibre : k.enCpu = none) :
    Avance k (.corto ahora) (pasada k ahora).hilos := by
  have hs : ∀ pid t q, k.corto = .cuenta pid t q → k.abandona pid := by simp [hf]
  have hdespacha := fun l xs p f =>
    congrArg (Avance k (.corto ahora)) (despachar_hilos k l xs p ahora k.sem f)
  unfold pasada
  split
  · rename_i halg
    split
    · exact .corto trivial (fun h => by cases h) hs
    · rename_i p ready hready
      refine (hdespacha .ready ready p .esperaCpu).mpr ?_
      exact .despacha (by simp [Nucleo.proximo, hf, halg, hready]) hlibre (by simp [halg])
        (by simp [halg])
  · rename_i halg
    exact .corto trivial (fun _ => halg) hs
  · rename_i halg
    split
    · rename_i p auxiliar haux
      refine (hdespacha .auxiliar auxiliar p (.cuenta p.pid ahora p.quantum)).mpr ?_
      exact .despacha (by simp [Nucleo.proximo, hf, halg, haux]) hlibre
        (by simp [Nucleo.despachado, halg]) (by simp [halg])
    · rename_i haux
      split
      · rename_i p ready hready
        refine (hdespacha .ready ready { p with quantum := k.config.quantum }
          (.cuenta p.pid ahora k.config.quantum)).mpr ?_
        exact .despacha (by simp [Nucleo.proximo, hf, halg, haux, hready]) hlibre
          (by simp [Nucleo.despachado, halg]) (by simp [halg])
      · exact .corto trivial (fun h => by cases h) hs
  · exact .corto trivial (fun h => by cases h) hs

theorem contadorQuantumVrr_avance {pid : ℕ} {t q : ℤ} (hf : k.corto = .cuenta pid t q) :
    Cumple (fun _ => False) (fun k' => Avance k (.corto ahora) k'.hilos)
      (contadorQuantumVrr k pid t q ahora) := by
  have habandona : k.abandona pid →
      Avance k (.corto ahora) { k.hilos with corto := .esperaCpu } := by
    refine fun h => .corto trivial (fun h => by cases h) fun pid' t' q' h' => ?_
    rw [hf] at h'
    cases h'
    exact h
  refine (obtenido_cumple False.elim).bind fun estado _ hest => ?_
  split
  · rename_i h
    refine habandona ?_
    rcases h with rfl | rfl | h
    · exact .inl hest
    · exact .inr (.inl hest)
    · exact .inr (.inr (.inl h))
  · split
    · rename_i hq
      split
      · rename_i hpid
        subst hpid
        exact .interrumpe hf rfl hq
      · rename_i hpid
        exact habandona (.inr (.inr (.inr hpid)))
    · rename_i hq
      refine .quieto id fun ahora' pid' t' q' he h' => ?_
      rw [hf] at h'
      cases h'
      cases he
      omega

/-- A thread that has taken a free processor finds nobody at the CPU. -/
theorem enCpu_eq_none (hB : Base k.vista) (hf : 0 < k.corto.cpu) : k.enCpu = none := by
  have h₁ := hB.cpu
  have h₂ : k.vista.cpu = k.sem.cpuFreeToExecute + k.corto.cpu := rfl
  have h₃ : k.vista.listas .running = [] := List.eq_nil_of_length_eq_zero (by omega)
  rw [hB.enCpu] at h₃
  exact Option.toList_eq_nil_iff.1 h₃

theorem planificadorCortoPlazo_avance (hB : Base k.vista) :
    Cumple (fun _ => False) (fun k' => Avance k (.corto ahora) k'.hilos)
      (planificadorCortoPlazo k ahora) := by
  unfold planificadorCortoPlazo
  split
  · exact (exigir_cumple id).bind fun _ _ _ => .corto (f := .esperaReady) trivial
      (fun h => by cases h) (by simp [*])
  · exact (exigir_cumple id).bind fun _ _ _ => .corto (f := .esperaPlanificacion) trivial
      (fun h => by cases h) (by simp [*])
  · rename_i hf
    exact (exigir_cumple id).bind fun _ _ _ =>
      pasada_avance hf (enCpu_eq_none hB (by simp [hf, FaseCorto.cpu]))
  · rename_i hf
    refine (exigir_cumple (b := 0 < k.sem.interruptionQuantum) id).bind fun _ _ hn =>
      (obtenido_cumple False.elim).bind fun r _ hr => ?_
    obtain ⟨n, hn⟩ := Nat.exists_eq_add_of_lt hn
    have hready := Coleccion.remover_zero_eq_some.1 hr
    refine (congrArg (Avance k (.corto ahora)) ?_).mp (.despachaRr hf (n := n)
      (p := k.despachado r.1 ahora) (by simp [Nucleo.proximo, hf, hready])
      (enCpu_eq_none hB (by simp [hf, FaseCorto.cpu])) (by omega))
    rw [despachar_hilos]
    simp only [Hilos.mk.injEq, true_and, and_true]
    refine ⟨?_, rfl⟩
    show n = k.sem.interruptionQuantum - 1
    omega
  · rename_i hf
    exact contadorQuantumVrr_avance hf

theorem contadorQuantumRr_avance :
    Cumple (fun _ => False) (fun k' => Avance k .reloj k'.hilos) (contadorQuantumRr k) := by
  unfold contadorQuantumRr
  split
  · rename_i hf
    refine (exigir_cumple (b := 0 < k.sem.begginQuantum) id).bind fun _ _ hn => ?_
    obtain ⟨n, hn⟩ := Nat.exists_eq_add_of_lt hn
    have h := Avance.arma (k := k) (n := n) hf (by omega)
    show Avance k _ _
    convert h using 1
    simp [Nucleo.hilos]
    omega
  · rename_i pid hf
    split
    · rename_i hpid
      exact .suena (hpid ▸ hf)
    · rename_i hpid
      exact .calla hf hpid

/-- **What an event does to the threads.** -/
theorem manejar_avance {e : Evento} (hB : Base k.vista) (he : admite k e)
    (h : manejar k e = .ok k') : Avance k e k'.hilos := by
  have hquieto : ∀ {e} {k₁ : Nucleo}, ¬e.deCpu → (∀ ahora, e ≠ .corto ahora) →
      k₁.hilos = k.hilos → Avance k e k₁.hilos :=
    fun hc hne h => h ▸ .quieto hc fun ahora _ _ _ he => absurd he (hne ahora)
  have hu : ∀ x, veces k.listas x ≤ 1 := hB.veces_le
  cases e with
  | iniciarProceso =>
      obtain ⟨-, rfl⟩ := crearProceso_eq_ok.1 h
      exact hquieto id (by simp) rfl
  | finalizarProceso pid =>
      have hc : Cumple (fun _ => False) (fun k' => Avance k (.finalizarProceso pid) k'.hilos)
          (finalizarProceso k pid) := by
        refine (exigir_cumple id).bind fun _ _ _ => (exigir_cumple id).bind fun _ _ _ => ?_
        rcases hayarPcb_casos k pid with ⟨l, a, p, b, -, hl, -, hh⟩ | ⟨k₁, hh, hk₁, -⟩
        · rw [hh]
          exact (eliminarProceso_hilos (k := k.conLista l (a ++ b)) (procesoEnRunning_eq_false
            (veces_quitar_eq_zero (hu _) hl))).mono fun k' _ h' => hquieto id (by simp) h'
        · rw [hh]
          rcases hk₁ with rfl | ⟨hpid, rfl⟩
          · exact hquieto id (by simp) rfl
          · exact .finaliza hpid
      exact hc.of_eq_ok h
  | iniciarPlanificacion =>
      cases h
      refine hquieto id (by simp) ?_
      unfold iniciarPlanificacion
      split <;> rfl
  | detenerPlanificacion =>
      refine hquieto id (by simp) ?_
      have hc : Respeta k.hilos (detenerPlanificacion k) := by
        unfold detenerPlanificacion
        split
        · exact (exigir_cumple id).bind fun _ _ _ => (exigir_cumple id).bind fun _ _ _ => rfl
        · rfl
      exact hc.of_eq_ok h
  | multiprogramacion valor =>
      cases h
      exact hquieto id (by simp) rfl
  | cpu p m ahora =>
      obtain ⟨q, hc⟩ := corre_of_admite hB.unica he
      exact (atenderCpuDispatch_avance (running_sinCpu hc) m).of_eq_ok h
  | interfaz nombre pet r =>
      refine hquieto id (by simp) ?_
      have hc : Respeta k.hilos (manejar k (.interfaz nombre pet r)) :=
        (obtenido_cumple False.elim).bind fun i _ _ =>
          atenderIo_hilos (k := k.recibida nombre i pet) hu nombre pet r
      exact hc.of_eq_ok h
  | conexionIo nombre tipoInterfaz =>
      cases h
      exact hquieto id (by simp) rfl
  | memoria m =>
      cases h
      cases m <;> exact hquieto id (by simp) rfl
  | corto ahora => exact (planificadorCortoPlazo_avance hB).of_eq_ok h
  | reloj => exact contadorQuantumRr_avance.of_eq_ok h
  | largo => exact hquieto id (by simp) ((moverAReady_hilos k).of_eq_ok h)

end Kernel
