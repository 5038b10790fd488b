/-
**What a step of a thread does.**

The steps of `KernelHebras` that a thread takes between two operations on the semaphores of a pause
leave most of the kernel alone: which lists they change, whether they take the processor or give it
back, and the code that comes next, is all that the results about pauses need.  This module says it
once, one case for each branch of the functions.

Main definitions:

* `KernelHebras.Marco` — what most steps leave alone;
* `KernelHebras.Accion.Neutra` — the steps that change nothing else and call nothing;
* `KernelHebras.Hace` — what a step does;
* `KernelHebras.Arranca`, `KernelHebras.HaceDirecto` — what the other events do.

Main results:

* `KernelHebras.hace_of_ejecutar`, `KernelHebras.arranca_of_arrancar`,
  `KernelHebras.haceDirecto_of_manejar`.
-/

import TpSisop.KernelHebras

set_option relaxedAutoImplicit false
set_option autoImplicit false

namespace KernelHebras

open Kernel (Nucleo Pcb EstadoCode Lista Corte Evento MensajeCpu RespuestaIo PeticionIo obtenido
  sacar obtenido_eq_ok sacar_eq_some)
open Resultado (bind_eq_ok)

variable {k k' : Nucleo} {ahora : ℤ} {o : Accion} {e : Codigo}

/-- The lists, the configuration, the pause and the processor are as they were. -/
structure Marco (k k' : Nucleo) : Prop where
  listas : k'.listas = k.listas
  config : k'.config = k.config
  pausar : k'.pausar = k.pausar
  enCpu : k'.enCpu = k.enCpu
  cuenta : cuenta k' = cuenta k
  cpu : k'.sem.cpuFreeToExecute = k.sem.cpuFreeToExecute

theorem Marco.refl (k : Nucleo) : Marco k k := ⟨rfl, rfl, rfl, rfl, rfl, rfl⟩

/-- The steps that, where they call nothing, leave all of that alone. -/
def Accion.Neutra : Accion → Prop
  | .semWait c | .semPost c => c ≠ .cpuFreeToExecute
  | .sinEjecutar | .turnoQuantumVrr _ _ _ | .recursoIncrementar _ | .otorgar _ _
  | .recursoDecrementar _ _ | .recursoAgregarBloqueado _ _ | .liberarTomados _ | .soltarEsperado _
  | .eliminarProceso _ | .aMemoria _ | .enviarAInterfaz _ _ | .ioOcupada _ _ | .siguienteIo _
  | .admitir => True
  | _ => False

/-- The pids of the lists, and the rest, are as they were. -/
structure MarcoPids (k k' : Nucleo) : Prop where
  pids : ∀ l, (k'.listas l).map Pcb.pid = (k.listas l).map Pcb.pid
  config : k'.config = k.config
  pausar : k'.pausar = k.pausar
  cuenta : cuenta k' = cuenta k
  cpu : k'.sem.cpuFreeToExecute = k.sem.cpuFreeToExecute

/-- A PCB is taken from a list. -/
structure Saca (k : Nucleo) (l : Lista) (p : Pcb) (k' : Nucleo) : Prop where
  sale : ∃ a b, k.listas l = a ++ p :: b ∧ k'.listas = Function.update k.listas l (a ++ b)
  config : k'.config = k.config
  pausar : k'.pausar = k.pausar
  enCpu : k'.enCpu = k.enCpu
  cuenta : cuenta k' = cuenta k
  cpu : k'.sem.cpuFreeToExecute = k.sem.cpuFreeToExecute

/-- What a step does, and the code that comes next. -/
inductive Hace (k : Nucleo) : Accion → Nucleo → Codigo → Prop
  | nada {o : Accion} {k' : Nucleo} (ho : o.Neutra) (hm : Marco k k') : Hace k o k' []
  | semWaitCpu {n : ℕ} (hn : k.sem.cpuFreeToExecute = n + 1) :
      Hace k (.semWait .cpuFreeToExecute) (conValor k .cpuFreeToExecute n) []
  | semPostCpu :
      Hace k (.semPost .cpuFreeToExecute)
        (conValor k .cpuFreeToExecute (k.sem.cpuFreeToExecute + 1)) []
  | pausar (b : Bool) : Hace k (.pausar b) { k with pausar := b } []
  | crearPcb {k' : Nucleo} {p : Pcb} (hm : Marco k k') :
      Hace k .crearPcb k' [.hacer (.copiarMListNew p)]
  | copiarMListNew (p : Pcb) : Hace k (.copiarMListNew p) k [.hacer (.agregarANew p)]
  | agregarANew (p : Pcb) :
      Hace k (.agregarANew p) { k with listas := Familia.agregar k.listas .new p } []
  | actualizarEstadoPcb (p : Pcb) (state : EstadoCode) (l : Lista) :
      Hace k (.actualizarEstadoPcb p state l) (k.actualizarEstadoPcb p state l) []
  | bloquear {p p' q : Pcb} {esIo : Bool} {k' : Nucleo} (hs : Saca k .running q k')
      (hpid : q.pid = p.pid) (hp : p'.pid = p.pid) :
      Hace k (.bloquear p esIo) k' [.hacer (.actualizarEstadoPcb p' .blocked .blocked)]
  | desbloquear {p : Pcb} {state : EstadoCode} {l : Lista} {k' : Nucleo}
      (hs : Saca k .blocked p k') (hl : l = .ready ∨ l = .auxiliar) :
      Hace k (.desbloquear p.pid) k' [.hacer (.actualizarEstadoPcb p state l)]
  | pasadaNada : Hace k .pasada k [.avisar .planificacion]
  | pasada {l : Lista} (hl : l = .ready ∨ l = .auxiliar) :
      Hace k .pasada k [.hacer (.despachar l)]
  | pasadaRr : Hace k .pasada k [semWait .interruptionQuantum, .hacer (.despachar .ready)]
  | despachar {l : Lista} {p q : Pcb} {k' : Nucleo} (hs : Saca k l q k') (hp : p.pid = q.pid) :
      Hace k (.despachar l) k'
        ([.hacer (.actualizarEstadoPcb p .exec .running),
          .hacer (.enviarSiguientePcb { p with estado := .exec } true)] ++
          trasDespachar k p.quantum)
  | enviarSiguientePcb {p q : Pcb} {b : Bool} {k' : Nucleo} (hm : MarcoPids k k')
      (henCpu : k'.enCpu = some q) (hq : q.pid = p.pid) : Hace k (.enviarSiguientePcb p b) k' []
  | contadorQuantumVrr {quantum : ℤ} {pid : ℕ} {t : ℤ} :
      Hace k (.contadorQuantumVrr quantum) k [.hacer (.turnoQuantumVrr pid t quantum)]
  | turnoQuantumVrr {pid : ℕ} {t quantum : ℤ} :
      Hace k (.turnoQuantumVrr pid t quantum) k [.hacer (.turnoQuantumVrr pid t quantum)]
  | recursoIncrementar {recurso : String} {k' : Nucleo} (hm : Marco k k') :
      Hace k (.recursoIncrementar recurso) k' [.hacer (.recursoObtenerBloqueado recurso)]
  | recursoObtenerBloqueado {recurso : String} {pid : ℕ} {k' : Nucleo} (hm : Marco k k') :
      Hace k (.recursoObtenerBloqueado recurso) k' [.hacer (.otorgar recurso pid)]
  | otorgar {recurso : String} {pid : ℕ} {k' : Nucleo} (hb : hayBloqueado k pid)
      (hm : MarcoPids k k') (henCpu : k'.enCpu = k.enCpu) :
      Hace k (.otorgar recurso pid) k' (desbloquearProceso pid)
  | recursoEspera {recurso : String} {p : Pcb} {k' : Nucleo} (hm : Marco k k') :
      Hace k (.recursoDecrementar recurso p) k' (bloquearProceso p false ++
        [.hacer (.recursoAgregarBloqueado recurso p.pid), semPost .cpuFreeToExecute])
  | recursoConcede {recurso : String} {p p' : Pcb} {k' : Nucleo} (hm : Marco k k')
      (hp : p'.pid = p.pid) : Hace k (.recursoDecrementar recurso p) k' (reanudar p')
  | recursoAgregarBloqueado {recurso : String} {pid : ℕ} {k' : Nucleo} (hm : MarcoPids k k')
      (henCpu : k'.enCpu = k.enCpu) : Hace k (.recursoAgregarBloqueado recurso pid) k' []
  | liberarTomados {recursoTomado recurso : String} {tomados : List String} :
      Hace k (.liberarTomados (recursoTomado :: tomados)) k
        [.hacer (.recursoIncrementar recurso), .hacer (.liberarTomados tomados)]
  | hayarFin {pid : ℕ} {k' : Nucleo} (hm : Marco k k') :
      Hace k (.hayarPcb [] pid) k' [.avisar .largo]
  | hayar {l : Lista} {ls : List Lista} {p : Pcb} {k' : Nucleo} (hs : Saca k l p k') :
      Hace k (.hayarPcb (l :: ls) p.pid) k' [.avisar .largo, .hacer (.eliminarProceso p)]
  | hayarOtra {l : Lista} {ls : List Lista} {pid : ℕ} :
      Hace k (.hayarPcb (l :: ls) pid) k [.hacer (.hayarPcb ls pid)]
  | eliminarProceso (p : Pcb) : Hace k (.eliminarProceso p) k (eliminarAfuera p)
  | mensajeCpu (p : Pcb) (m : MensajeCpu) :
      Hace k (.mensajeCpu p m) k (atenderCpuDispatch k p m)
  | expulsar {p q : Pcb} {b : List Pcb} (hr : k.listas .running = q :: b) :
      Hace k (.expulsar p) (k.conLista .running b) [.hacer (.eliminarProceso p)]
  | dejarRunning {p q : Pcb} {state : EstadoCode} {l : Lista} {b : List Pcb}
      (hr : k.listas .running = q :: b) :
      Hace k (.dejarRunning p state l) (k.conLista .running b)
        [.hacer (.actualizarEstadoPcb p state l)]
  | reemplazar {p q : Pcb} {b : List Pcb} (hr : k.listas .running = q :: b) :
      Hace k (.reemplazar p) (k.conLista .running (b ++ [p])) []
  | errorIo {p : Pcb} {k' : Nucleo} (hs : Saca k .blocked p k') :
      Hace k (.errorIo p.pid) k' [.hacer (.eliminarProceso p)]
  | comparar (hg : (tamanioMultiprogramacion k : ℤ) < k.config.gradoMultiprogramacion) :
      Hace k .comparar k []
  | compararOtraVez : Hace k .comparar k probarGrado
  | admitir {p : Pcb} {new : List Pcb} (hn : k.listas .new = p :: new) :
      Hace k .admitir (k.conLista .new new)
        [.hacer (.actualizarEstadoPcb p .ready .ready), semPost .processInReady]

/-- The semaphores of a pause and the configuration stay as they are, and only the console starts
and ends a pause. -/
theorem Hace.fijo (ho : Hace k o k' e) :
    cuenta k' = cuenta k ∧ k'.config = k.config ∧
      ((∀ b, o ≠ .pausar b) → k'.pausar = k.pausar) := by
  cases ho with
  | nada _ hm | crearPcb hm | enviarSiguientePcb hm | recursoIncrementar hm
  | recursoObtenerBloqueado hm | otorgar _ hm | recursoEspera hm | recursoConcede hm
  | recursoAgregarBloqueado hm | hayarFin hm => exact ⟨hm.cuenta, hm.config, fun _ => hm.pausar⟩
  | bloquear hs | desbloquear hs | despachar hs | hayar hs | errorIo hs =>
      exact ⟨hs.cuenta, hs.config, fun _ => hs.pausar⟩
  | pausar b => exact ⟨rfl, rfl, fun hne => absurd rfl (hne b)⟩
  | _ => exact ⟨funext fun c => by cases c <;> rfl, rfl, fun _ => rfl⟩

/-- The code with which a thread starts, and what it reads. -/
inductive Arranca (k : Nucleo) : Hebra → Evento → Nucleo → Codigo → Prop
  | crear : Arranca k .consola .iniciarProceso k [.hacer .crearPcb]
  | iniciar : Arranca k .consola .iniciarPlanificacion k (iniciarPlanificacion k)
  | detener : Arranca k .consola .detenerPlanificacion k (detenerPlanificacion k)
  | finalizar (n pid : ℕ) :
      Arranca k (.orden n) (.finalizarProceso pid) k (finalizarProceso pid)
  | dispatch (p : Pcb) (m : MensajeCpu) (ahora : ℤ) :
      Arranca k .dispatch (.cpu p m ahora) { k with enCpu := none } [.hacer (.mensajeCpu p m)]
  | io {nombre : String} {pet : PeticionIo} {r : RespuestaIo} {k' : Nucleo} (hm : Marco k k') :
      Arranca k (.io nombre) (.interfaz nombre pet r) k' (atenderIo nombre pet r)
  | corto (ahora : ℤ) : Arranca k .corto (.corto ahora) k cicloCorto
  | largo : Arranca k .largo .largo k cicloLargo

/-- What an event that is handled in one step does. -/
inductive HaceDirecto (k : Nucleo) : Evento → Nucleo → Prop
  | marco {ev : Evento} {k' : Nucleo} (hm : Marco k k') : HaceDirecto k ev k'
  | multiprogramacion (valor : ℤ) :
      HaceDirecto k (.multiprogramacion valor) (Kernel.cambiarMultiprogramacion k valor)

/-- A thread that starts leaves the lists and the semaphores as they are. -/
theorem Arranca.marcoPids {h : Hebra} {ev : Evento} (ha : Arranca k h ev k' e) :
    MarcoPids k k' := by
  cases ha with
  | io hm => exact ⟨fun _ => by rw [hm.listas], hm.config, hm.pausar, hm.cuenta, hm.cpu⟩
  | _ => exact ⟨fun _ => rfl, rfl, rfl, funext fun c => by cases c <;> rfl, rfl⟩

theorem HaceDirecto.cuenta {ev : Evento} (hd : HaceDirecto k ev k') :
    KernelHebras.cuenta k' = KernelHebras.cuenta k := by
  cases hd with
  | marco hm => exact hm.cuenta
  | multiprogramacion valor => exact funext fun c => by cases c <;> rfl

theorem HaceDirecto.pausar {ev : Evento} (hd : HaceDirecto k ev k') : k'.pausar = k.pausar := by
  cases hd with
  | marco hm => exact hm.pausar
  | multiprogramacion valor => rfl

/-! ### The branches of the functions -/

theorem saca_of_sacar {l : Lista} {pid : ℕ} {r : Pcb × List Pcb}
    (h : sacar pid (k.listas l) = some r) : r.1.pid = pid ∧ Saca k l r.1 (k.conLista l r.2) := by
  obtain ⟨a, b, hl, hpid, -, hr⟩ := sacar_eq_some (p := r.1) (r := r.2) h
  exact ⟨hpid, ⟨a, b, hl, by rw [hr]; rfl⟩, rfl, rfl, rfl, rfl, rfl⟩

theorem saca_of_remover {l : Lista} {r : Pcb × List Pcb}
    (h : Coleccion.remover (k.listas l) 0 = some r) :
    k.listas l = r.1 :: r.2 ∧ Saca k l r.1 (k.conLista l r.2) := by
  have hl := Coleccion.remover_zero_eq_some.1 h
  exact ⟨hl, ⟨[], r.2, hl, rfl⟩, rfl, rfl, rfl, rfl, rfl⟩

/-- A field of the PCB of a process is written. -/
theorem marcoPids_alterar {l : Lista} {pid : ℕ} {f : Pcb → Pcb} (hf : ∀ p, (f p).pid = p.pid)
    (hl : k'.listas = Function.update k.listas l
      (Coleccion.alterar (fun p => p.pid == pid) f (k.listas l)))
    (hconfig : k'.config = k.config) (hpausar : k'.pausar = k.pausar) (hsem : k'.sem = k.sem) :
    MarcoPids k k' := by
  refine ⟨fun m => ?_, hconfig, hpausar, ?_, by rw [hsem]⟩
  · rw [hl]
    by_cases hm : m = l
    · subst hm
      rw [Function.update_self, Coleccion.map_alterar hf]
    · rw [Function.update_of_ne hm]
  · funext c
    cases c <;> simp [cuenta, hsem]

theorem marco_of_eq (hl : k'.listas = k.listas) (hconfig : k'.config = k.config)
    (hpausar : k'.pausar = k.pausar) (hcpu : k'.enCpu = k.enCpu)
    (hsem : k'.sem.planificacion = k.sem.planificacion ∧
      k'.sem.planificacionLargo = k.sem.planificacionLargo ∧
      k'.sem.cpuFreeToExecute = k.sem.cpuFreeToExecute) : Marco k k' := by
  refine ⟨hl, hconfig, hpausar, hcpu, ?_, hsem.2.2⟩
  funext c
  cases c
  · exact hsem.1
  · exact hsem.2.1

/-- A resource is written. -/
theorem marco_ponerRecurso (recurso : String) (r : Kernel.Recurso) :
    Marco k (k.ponerRecurso recurso r) :=
  marco_of_eq rfl rfl rfl rfl ⟨rfl, rfl, rfl⟩

theorem hace_of_ejecutar (h : ejecutar k ahora o = .ok (k', e)) : Hace k o k' e := by
  cases o with
  | semWait c =>
      simp only [ejecutar] at h
      split at h
      · rename_i hc
        obtain ⟨n, hn⟩ := Nat.exists_eq_add_of_lt hc
        cases h
        cases c with
        | cpuFreeToExecute =>
            have hn' : k.sem.cpuFreeToExecute = n + 1 := by
              show valor k .cpuFreeToExecute = n + 1
              omega
            have := Hace.semWaitCpu hn'
            rw [show valor k .cpuFreeToExecute - 1 = n by omega]
            exact this
        | _ => exact .nada (by simp [Accion.Neutra]) (marco_of_eq rfl rfl rfl rfl ⟨rfl, rfl, rfl⟩)
      · cases h
  | semPost c =>
      cases h
      cases c with
      | cpuFreeToExecute => exact .semPostCpu
      | _ => exact .nada (by simp [Accion.Neutra]) (marco_of_eq rfl rfl rfl rfl ⟨rfl, rfl, rfl⟩)
  | pausar b =>
      cases h
      exact .pausar b
  | crearPcb =>
      cases h
      exact .crearPcb (marco_of_eq rfl rfl rfl rfl ⟨rfl, rfl, rfl⟩)
  | copiarMListNew p =>
      simp only [ejecutar] at h
      split at h
      · cases h
      · cases h
        exact .copiarMListNew p
  | agregarANew p =>
      cases h
      exact .agregarANew p
  | sinEjecutar =>
      cases h
      exact .nada trivial (marco_of_eq rfl rfl rfl rfl ⟨rfl, rfl, rfl⟩)
  | actualizarEstadoPcb p state l =>
      cases h
      exact .actualizarEstadoPcb p state l
  | bloquear p esIo =>
      obtain ⟨r, hr, h⟩ := bind_eq_ok.1 h
      rw [obtenido_eq_ok] at hr
      obtain ⟨hpid, hs⟩ := saca_of_sacar hr
      cases h
      refine .bloquear hs hpid ?_
      split <;> rfl
  | desbloquear pid =>
      obtain ⟨r, hr, hfin⟩ := bind_eq_ok.1 h
      rw [obtenido_eq_ok] at hr
      obtain ⟨rfl, hs⟩ := saca_of_sacar hr
      simp only at hfin
      split at hfin
      · cases hfin
        exact .desbloquear hs (.inr rfl)
      · cases hfin
        exact .desbloquear hs (.inl rfl)
  | pasada =>
      simp only [ejecutar] at h
      split at h
      · split at h
        · cases h
          exact .pasadaNada
        · cases h
          exact .pasada (.inl rfl)
      · cases h
        exact .pasadaRr
      · split at h
        · cases h
          exact .pasada (.inr rfl)
        · split at h
          · cases h
            exact .pasada (.inl rfl)
          · cases h
            exact .pasadaNada
      · cases h
        exact .pasadaNada
  | despachar l =>
      obtain ⟨r, hr, h⟩ := bind_eq_ok.1 h
      rw [obtenido_eq_ok] at hr
      cases h
      refine .despachar (saca_of_remover hr).2 ?_
      split <;> rfl
  | enviarSiguientePcb p b =>
      simp only [ejecutar] at h
      split at h
      · cases h
        exact .enviarSiguientePcb (marcoPids_alterar (by simp) rfl rfl rfl rfl) rfl rfl
      · cases h
        exact .enviarSiguientePcb ⟨fun _ => rfl, rfl, rfl, rfl, rfl⟩ rfl rfl
  | contadorQuantumVrr q =>
      cases h
      exact .contadorQuantumVrr
  | turnoQuantumVrr pid t q =>
      obtain ⟨r, hr, h⟩ := bind_eq_ok.1 h
      split at h
      · cases h
        exact .nada trivial (.refl k)
      · split at h
        · split at h
          · cases h
            exact .nada trivial (marco_of_eq rfl rfl rfl rfl ⟨rfl, rfl, rfl⟩)
          · cases h
            exact .nada trivial (.refl k)
        · cases h
          exact .turnoQuantumVrr
  | recursoIncrementar recurso =>
      simp only [ejecutar] at h
      split at h
      · cases h
        exact .nada trivial (.refl k)
      · cases h
        split
        · exact .recursoIncrementar (marco_ponerRecurso ..)
        · exact .nada trivial (marco_ponerRecurso ..)
  | recursoObtenerBloqueado recurso =>
      obtain ⟨r, hr, h⟩ := bind_eq_ok.1 h
      split at h
      · cases h
      · cases h
        exact .recursoObtenerBloqueado (marco_ponerRecurso ..)
  | otorgar recurso pid =>
      simp only [ejecutar] at h
      split at h
      · rename_i hb
        cases h
        exact .otorgar hb (marcoPids_alterar (by simp [Kernel.Pcb.otorgar]) rfl rfl rfl rfl) rfl
      · cases h
        exact .nada trivial (.refl k)
  | recursoDecrementar recurso p =>
      simp only [ejecutar] at h
      split at h
      · cases h
        exact .nada trivial (.refl k)
      · cases h
        split
        · exact .recursoEspera (marco_ponerRecurso ..)
        · exact .recursoConcede (marco_ponerRecurso ..) rfl
  | recursoAgregarBloqueado recurso pid =>
      simp only [ejecutar] at h
      split at h
      · cases h
        exact .nada trivial (.refl k)
      · cases h
        exact .recursoAgregarBloqueado (marcoPids_alterar (by simp) rfl rfl rfl rfl) rfl
  | liberarTomados tomados =>
      cases tomados with
      | nil =>
          cases h
          exact .nada trivial (.refl k)
      | cons t ts =>
          obtain ⟨r, hr, h⟩ := bind_eq_ok.1 h
          cases h
          exact .liberarTomados
  | soltarEsperado p =>
      simp only [ejecutar] at h
      split at h
      · cases h
        exact .nada trivial (.refl k)
      · cases h
        refine .nada trivial ?_
        unfold Kernel.recursoModificarInstancias2
        split
        · exact .refl k
        · exact marco_ponerRecurso ..
  | hayarPcb ls pid =>
      cases ls with
      | nil =>
          simp only [ejecutar] at h
          split at h
          · cases h
            exact .hayarFin (marco_of_eq rfl rfl rfl rfl ⟨rfl, rfl, rfl⟩)
          · cases h
            exact .hayarFin (.refl k)
      | cons l ls =>
          simp only [ejecutar] at h
          split at h
          · cases h
          · split at h
            · rename_i p resto hr
              obtain ⟨rfl, hs⟩ := saca_of_sacar hr
              cases h
              exact .hayar hs
            · cases h
              exact .hayarOtra
  | eliminarProceso p =>
      simp only [ejecutar] at h
      split at h
      · cases h
        exact .nada trivial (marco_of_eq rfl rfl rfl rfl ⟨rfl, rfl, rfl⟩)
      · cases h
        exact .eliminarProceso p
  | aMemoria m =>
      cases h
      exact .nada trivial (marco_of_eq rfl rfl rfl rfl ⟨rfl, rfl, rfl⟩)
  | mensajeCpu p m =>
      cases h
      exact .mensajeCpu p m
  | expulsar p =>
      obtain ⟨r, hr, h⟩ := bind_eq_ok.1 h
      rw [obtenido_eq_ok] at hr
      cases h
      exact .expulsar (saca_of_remover hr).1
  | dejarRunning p state l =>
      obtain ⟨r, hr, h⟩ := bind_eq_ok.1 h
      rw [obtenido_eq_ok] at hr
      cases h
      exact .dejarRunning (saca_of_remover hr).1
  | reemplazar p =>
      obtain ⟨r, hr, h⟩ := bind_eq_ok.1 h
      rw [obtenido_eq_ok] at hr
      cases h
      exact .reemplazar (saca_of_remover hr).1
  | enviarAInterfaz nombre pet =>
      obtain ⟨i, hi, h⟩ := bind_eq_ok.1 h
      cases h
      exact .nada trivial (marco_of_eq rfl rfl rfl rfl ⟨rfl, rfl, rfl⟩)
  | errorIo pid =>
      obtain ⟨r, hr, hfin⟩ := bind_eq_ok.1 h
      rw [obtenido_eq_ok] at hr
      obtain ⟨rfl, hs⟩ := saca_of_sacar hr
      cases hfin
      exact .errorIo hs
  | ioOcupada nombre pet =>
      obtain ⟨k₁, hk₁, h⟩ := bind_eq_ok.1 h
      obtain ⟨i, hi, hk₁⟩ := bind_eq_ok.1 hk₁
      cases hk₁
      cases h
      exact .nada trivial (marco_of_eq rfl rfl rfl rfl ⟨rfl, rfl, rfl⟩)
  | siguienteIo nombre =>
      obtain ⟨i, hi, h⟩ := bind_eq_ok.1 h
      split at h
      · cases h
        exact .nada trivial (.refl k)
      · simp only at h
        split at h
        · cases h
          exact .nada trivial (marco_of_eq rfl rfl rfl rfl ⟨rfl, rfl, rfl⟩)
        · obtain ⟨pid, hpid, h⟩ := bind_eq_ok.1 h
          cases h
          exact .nada trivial (marco_of_eq rfl rfl rfl rfl ⟨rfl, rfl, rfl⟩)
  | comparar =>
      simp only [ejecutar] at h
      split at h
      · cases h
        exact .compararOtraVez
      · rename_i hg
        cases h
        exact .comparar (not_le.1 hg)
  | admitir =>
      simp only [ejecutar] at h
      split at h
      · cases h
      · split at h
        · cases h
          exact .nada trivial (marco_of_eq rfl rfl rfl rfl ⟨rfl, rfl, rfl⟩)
        · rename_i p new hn
          cases h
          exact .admitir hn

theorem arranca_of_arrancar {h : Hebra} {ev : Evento} {r : Codigo}
    (hr : arrancar k h ev = some (k', r)) : Arranca k h ev k' r := by
  unfold arrancar at hr
  split at hr
  · cases hr
    exact .crear
  · cases hr
    exact .iniciar
  · cases hr
    exact .detener
  · cases hr
    exact .finalizar _ _
  · cases hr
    exact .dispatch _ _ _
  · split at hr
    · rename_i hn
      subst hn
      obtain ⟨i, -, hk⟩ := Option.map_eq_some_iff.1 hr
      cases hk
      exact .io (marco_of_eq rfl rfl rfl rfl ⟨rfl, rfl, rfl⟩)
    · cases hr
  · cases hr
    exact .corto _
  · cases hr
    exact .largo
  · cases hr

theorem haceDirecto_of_manejar {ev : Evento} (he : Directo ev) (hm : Kernel.manejar k ev = .ok k') :
    HaceDirecto k ev k' := by
  cases ev with
  | multiprogramacion valor =>
      cases hm
      exact .multiprogramacion valor
  | conexionIo nombre tipoInterfaz =>
      cases hm
      exact .marco (marco_of_eq rfl rfl rfl rfl ⟨rfl, rfl, rfl⟩)
  | memoria m =>
      cases hm
      cases m <;> exact .marco (marco_of_eq rfl rfl rfl rfl ⟨rfl, rfl, rfl⟩)
  | reloj =>
      refine .marco ?_
      simp only [Kernel.manejar, Kernel.contadorQuantumRr] at hm
      split at hm
      · obtain ⟨-, -, hm⟩ := bind_eq_ok.1 hm
        cases hm
        exact marco_of_eq rfl rfl rfl rfl ⟨rfl, rfl, rfl⟩
      · split at hm
        · cases hm
          exact marco_of_eq rfl rfl rfl rfl ⟨rfl, rfl, rfl⟩
        · cases hm
          exact marco_of_eq rfl rfl rfl rfl ⟨rfl, rfl, rfl⟩
  | _ => exact he.elim

end KernelHebras
