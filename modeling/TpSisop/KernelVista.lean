/-
**The planner: what the kernel is for, without its threads, semaphores and sockets.**

A view of the kernel keeps the six lists, the resources, the interfaces and the process at the CPU,
and counts the processes announced to the scheduler and the free processors: a semaphore plus the
token the scheduler has taken from it and not used yet.  An event moves processes between the lists
of the view in one of a few ways, and every step of the kernel is one of them: the invariants of the
kernel are proved of these movements.

Main definitions:

* `Kernel.Vista`, `Kernel.Nucleo.vista` — the view;
* `Kernel.Alistar`, `Kernel.Incremento`, `Kernel.Liberacion` — waking a process, giving an instance
  of a resource back, giving back everything a process has;
* `Kernel.Movimiento` — what an event does to the view;
* `Kernel.Base` — every process is in one list, and RUNNING holds the process at the CPU;
* `Kernel.Unica` — no process is in two lists.

Main results:

* `Kernel.Liberacion.marco` — what the release of resources leaves alone;
* `Kernel.Movimiento.conservada` — a movement creates a process, or keeps the ones there are;
* `Kernel.Movimiento.base` — a movement keeps `Base`.
-/

import TpSisop.KernelConexion

set_option relaxedAutoImplicit false
set_option autoImplicit false

namespace Kernel

open Coleccion (Diccionario)
open Familia (agregar peso)

/-! ### The view -/

/-- The planner.  `listos` and `cpu` are the processes announced to the scheduler and the free
processors. -/
structure Vista where
  algoritmo : Algoritmo
  configurados : List (String × ℤ)
  listas : Lista → List Pcb
  recursos : Diccionario Recurso
  interfaces : Diccionario Interfaz
  enCpu : Option Pcb
  ultimoPid : ℕ
  listos : ℕ
  cpu : ℕ

/-- The tokens of `sem_process_in_ready` the scheduler has taken and not used. -/
def FaseCorto.listos : FaseCorto → ℕ
  | .esperaPlanificacion => 1
  | .esperaQuantum => 1
  | _ => 0

/-- The tokens of `sem_cpu_free_to_execute` the scheduler has taken and not used. -/
def FaseCorto.cpu : FaseCorto → ℕ
  | .esperaReady => 1
  | .esperaPlanificacion => 1
  | .esperaQuantum => 1
  | _ => 0

def Nucleo.vista (k : Nucleo) : Vista where
  algoritmo := k.config.algoritmo
  configurados := k.config.recursos
  listas := k.listas
  recursos := k.recursos
  interfaces := k.interfaces
  enCpu := k.enCpu
  ultimoPid := k.ultimoPid
  listos := k.sem.processInReady + k.corto.listos
  cpu := k.sem.cpuFreeToExecute + k.corto.cpu

namespace Vista

def conLista (v : Vista) (l : Lista) (xs : List Pcb) : Vista :=
  { v with listas := Function.update v.listas l xs }

def ponerRecurso (v : Vista) (nombre : String) (r : Recurso) : Vista :=
  { v with recursos := v.recursos.poner nombre r }

def ponerInterfaz (v : Vista) (nombre : String) (i : Interfaz) : Vista :=
  { v with interfaces := v.interfaces.poner nombre i }

/-- A process that dies while it waits leaves the queue of the resource. -/
def retirar (v : Vista) (recurso : String) (pid : ℕ) : Vista :=
  match v.recursos.valor recurso with
  | none => v
  | some r =>
      v.ponerRecurso recurso
        { r with instancias := r.instancias + 1, bloqueados := r.bloqueados.erase pid }

def salir (v : Vista) (p : Pcb) : Vista :=
  { v with listas := agregar v.listas .exit { p with recursoEsperando := none, estado := .exitt } }

end Vista

theorem mem_salir {v : Vista} {p q : Pcb} : q ∈ (v.salir p).listas .exit ↔
    q ∈ v.listas .exit ∨ q = { p with recursoEsperando := none, estado := .exitt } := by
  simp [Vista.salir]

/-! ### Movements -/

/-- A process goes to one of the queues of the scheduler and is announced to it. -/
inductive Alistar (v : Vista) (p : Pcb) : Vista → Prop
  | mk {l : Lista} {e : EstadoCode} (hl : l ∈ Lista.listos)
      (hvrr : l = .auxiliar → v.algoritmo = .vrr) :
      Alistar v p
        { v with listas := agregar v.listas l { p with estado := e }, listos := v.listos + 1 }

/-- One instance of a resource is given back: nobody waits for it, or the first in the queue is
dead, or it gets the instance and is woken. -/
inductive Incremento (v : Vista) (recurso : String) : Vista → Prop
  | ausente (h : v.recursos.valor recurso = none) : Incremento v recurso v
  | libre {r : Recurso} (hr : v.recursos.valor recurso = some r) (hi : 0 < r.instancias + 1) :
      Incremento v recurso (v.ponerRecurso recurso { r with instancias := r.instancias + 1 })
  | huerfano {r : Recurso} {pid : ℕ} {cola : List ℕ} (hr : v.recursos.valor recurso = some r)
      (hi : r.instancias + 1 ≤ 0) (hq : r.bloqueados = pid :: cola)
      (hb : ∀ p ∈ v.listas .blocked, p.pid ≠ pid) :
      Incremento v recurso
        (v.ponerRecurso recurso { r with instancias := r.instancias + 1, bloqueados := cola })
  | entrega {r : Recurso} {cola : List ℕ} {a b : List Pcb} {p : Pcb} {v' : Vista}
      (hr : v.recursos.valor recurso = some r) (hi : r.instancias + 1 ≤ 0)
      (hq : r.bloqueados = p.pid :: cola) (hb : v.listas .blocked = a ++ p :: b)
      (hal : Alistar ((v.ponerRecurso recurso
        { r with instancias := r.instancias + 1, bloqueados := cola }).conLista .blocked (a ++ b))
        (p.otorgar recurso) v') :
      Incremento v recurso v'

/-- The resources of a list are given back, each by the `id` it is known by. -/
inductive Devolucion : Vista → List String → Vista → Prop
  | nil (v : Vista) : Devolucion v [] v
  | cons {v v₁ v₂ : Vista} {t : String} {ts : List String} {r : Recurso}
      (hr : v.recursos.valor t = some r) (hi : Incremento v r.id v₁)
      (hd : Devolucion v₁ ts v₂) : Devolucion v (t :: ts) v₂

/-- A process gives back what it took, and then leaves the queue it waits in. -/
inductive Liberacion (v : Vista) (p : Pcb) : Vista → Prop
  | suelto {v' : Vista} (hd : Devolucion v p.recursosTomados v') (h : p.recursoEsperando = none) :
      Liberacion v p v'
  | esperando {v' : Vista} {recurso : String} (hd : Devolucion v p.recursosTomados v')
      (h : p.recursoEsperando = some recurso) : Liberacion v p (v'.retirar recurso p.pid)

/-- The CPU has `q`, the process in RUNNING, and gives it back as `p`. -/
structure Corre (v : Vista) (q p : Pcb) : Prop where
  enCpu : v.enCpu = some q
  running : v.listas .running = [q]
  devuelto : { q with pc := p.pc, registros := p.registros } = p

/-- Two PCBs of the same process, with the same resources. -/
structure Pcb.Mismo (p q : Pcb) : Prop where
  pid : p.pid = q.pid
  recursosTomados : p.recursosTomados = q.recursosTomados
  recursoEsperando : p.recursoEsperando = q.recursoEsperando

/-- Two PCBs of the same process that agree in its context as well. -/
structure Pcb.Intacto (p q : Pcb) : Prop extends p.Mismo q where
  contexto : p.contexto = q.contexto

theorem Pcb.Intacto.refl (p : Pcb) : p.Intacto p := ⟨⟨rfl, rfl, rfl⟩, rfl⟩

theorem Pcb.Intacto.trans {p q r : Pcb} (h₁ : p.Intacto q) (h₂ : q.Intacto r) : p.Intacto r :=
  ⟨⟨h₁.pid.trans h₂.pid, h₁.recursosTomados.trans h₂.recursosTomados,
    h₁.recursoEsperando.trans h₂.recursoEsperando⟩, h₁.contexto.trans h₂.contexto⟩

/-- The messages of the CPU that end a process. -/
def Vista.termina (v : Vista) : MensajeCpu → Prop
  | .io nombre _ => v.interfaces.valor nombre = none
  | .interrupcion => False
  | .outOfMemory => True
  | .terminarProceso => True
  | .wait recurso => v.recursos.valor recurso = none
  | .signal recurso => v.recursos.valor recurso = none

instance (v : Vista) : DecidablePred v.termina
  | .io nombre _ => inferInstanceAs (Decidable (v.interfaces.valor nombre = none))
  | .interrupcion => .isFalse id
  | .outOfMemory | .terminarProceso => .isTrue trivial
  | .wait recurso | .signal recurso => inferInstanceAs (Decidable (v.recursos.valor recurso = none))

/-- After `FIN_IO` the first of the queued requests of an interface, if there is one, is sent. -/
inductive Reenviada (i : Interfaz) : Interfaz → Prop
  | ninguna (h : i.listaBloqueados = []) : Reenviada i i
  | descartada {io : IoPcb} {cola : List IoPcb} (h : i.listaBloqueados = io :: cola) :
      Reenviada i { i with listaBloqueados := cola }
  | enviada {io : IoPcb} {cola : List IoPcb} {pid : ℕ} (operacion : OperacionIo)
      (h : i.listaBloqueados = io :: cola) (hp : io.pcb = some pid) :
      Reenviada i { i with
        listaBloqueados := cola, enviadas := i.enviadas ++ [⟨pid, operacion⟩] }

/-- What an event does to the planner. -/
inductive Movimiento (v : Vista) : Evento → Vista → Prop
  | quieto {e : Evento} (he : ¬e.deCpu) : Movimiento v e v
  | pasadaVacia {ahora : ℤ} {n m : ℕ} (hn : v.listos = n + 1) (hm : v.cpu = m + 1)
      (hrr : v.algoritmo ≠ .rr) (hfifo : v.algoritmo = .fifo → v.listas .ready = [])
      (hvrr : v.algoritmo = .vrr → v.listas .ready = [] ∧ v.listas .auxiliar = []) :
      Movimiento v (.corto ahora) { v with listos := n, cpu := m }
  | creacion :
      Movimiento v .iniciarProceso
        { v with
          listas := agregar v.listas .new { pid := v.ultimoPid }
          ultimoPid := v.ultimoPid + 1 }
  | admision {p : Pcb} {new : List Pcb} (h : v.listas .new = p :: new) :
      Movimiento v .largo
        { v with
          listas := agregar (Function.update v.listas .new new) .ready { p with estado := .ready }
          listos := v.listos + 1 }
  | despacho {ahora : ℤ} {l : Lista} {p p' : Pcb} {resto : List Pcb} {n m : ℕ}
      (hl : l ∈ Lista.listos) (h : v.listas l = p :: resto) (hp : p'.Intacto p)
      (hn : v.listos = n + 1) (hm : v.cpu = m + 1) :
      Movimiento v (.corto ahora)
        { v with
          listas := agregar (Function.update v.listas l resto) .running p'
          enCpu := some p'
          listos := n
          cpu := m }
  | finDeQuantum {q p : Pcb} {ahora : ℤ} (h : Corre v q p) :
      Movimiento v (.cpu p .interrupcion ahora)
        { v with
          listas := agregar (Function.update v.listas .running []) .ready
            { p with estado := .ready }
          enCpu := none
          listos := v.listos + 1
          cpu := v.cpu + 1 }
  | bloqueoIo {q p p' : Pcb} {nombre : String} {operacion : OperacionIo} {ahora : ℤ} {i : Interfaz}
      (h : Corre v q p) (hi : v.interfaces.valor nombre = some i) (hp : p'.Intacto p) :
      Movimiento v (.cpu p (.io nombre operacion) ahora)
        { v with
          listas := agregar (Function.update v.listas .running []) .blocked p'
          interfaces := v.interfaces.poner nombre
            { i with enviadas := i.enviadas ++ [⟨p.pid, operacion⟩] }
          enCpu := none
          cpu := v.cpu + 1 }
  | bloqueoRecurso {q p : Pcb} {recurso : String} {r : Recurso} {ahora : ℤ} (h : Corre v q p)
      (hr : v.recursos.valor recurso = some r) (hi : r.instancias - 1 < 0) :
      Movimiento v (.cpu p (.wait recurso) ahora)
        { v with
          listas := agregar (Function.update v.listas .running []) .blocked
            { p with recursoEsperando := some recurso, estado := .blocked }
          recursos := v.recursos.poner recurso
            { r with instancias := r.instancias - 1, bloqueados := r.bloqueados ++ [p.pid] }
          enCpu := none
          cpu := v.cpu + 1 }
  | concesion {q p p' : Pcb} {recurso : String} {r : Recurso} {ahora : ℤ} (h : Corre v q p)
      (hr : v.recursos.valor recurso = some r) (hi : 0 ≤ r.instancias - 1)
      (hp : p' = { p with recursosTomados := p.recursosTomados ++ [recurso] }) :
      Movimiento v (.cpu p (.wait recurso) ahora)
        { v with
          listas := Function.update v.listas .running [p']
          recursos := v.recursos.poner recurso { r with instancias := r.instancias - 1 }
          enCpu := some p' }
  | signal {q p p' : Pcb} {recurso : String} {ahora : ℤ} {v₁ : Vista} (h : Corre v q p)
      (hr : v.recursos.valor recurso ≠ none) (hi : Incremento { v with enCpu := none } recurso v₁)
      (hp : p' = { p with recursosTomados := p.recursosTomados.erase recurso }) :
      Movimiento v (.cpu p (.signal recurso) ahora)
        { v₁ with listas := Function.update v₁.listas .running [p'], enCpu := some p' }
  | muerteCpu {q p : Pcb} {m : MensajeCpu} {ahora : ℤ} {v₁ : Vista} (h : Corre v q p)
      (hm : v.termina m)
      (hl : Liberacion ({ v with enCpu := none }.conLista .running []) p v₁) :
      Movimiento v (.cpu p m ahora) { v₁.salir p with cpu := v₁.cpu + 1 }
  | muerteConsola {pid : ℕ} {l : Lista} {a b : List Pcb} {p : Pcb} {v₁ : Vista}
      (hlista : l = .new ∨ l = .ready ∨ l = .blocked ∨ l = .auxiliar)
      (h : v.listas l = a ++ p :: b) (hp : p.pid = pid)
      (hl : Liberacion (v.conLista l (a ++ b)) p v₁) :
      Movimiento v (.finalizarProceso pid) (v₁.salir p)
  | errorIo {nombre : String} {pet : PeticionIo} {i : Interfaz} {a b : List Pcb} {p : Pcb}
      {v₁ : Vista} (hi : v.interfaces.valor nombre = some i) (hpet : pet ∈ i.enviadas)
      (h : v.listas .blocked = a ++ p :: b) (hp : p.pid = pet.pid)
      (hl : Liberacion
        ((v.ponerInterfaz nombre { i with enviadas := i.enviadas.erase pet }).conLista .blocked
          (a ++ b)) p v₁) :
      Movimiento v (.interfaz nombre pet .errorIo) (v₁.salir p)
  | ioOcupada {nombre : String} {pet : PeticionIo} {i : Interfaz}
      (hi : v.interfaces.valor nombre = some i) (hpet : pet ∈ i.enviadas) :
      Movimiento v (.interfaz nombre pet .ioOcupada)
        (v.ponerInterfaz nombre { i with
          enviadas := i.enviadas.erase pet
          listaBloqueados := i.listaBloqueados ++
            [⟨((v.listas .blocked).find? fun p => p.pid == pet.pid).map Pcb.pid, pet.operacion⟩] })
  | finIo {nombre : String} {pet : PeticionIo} {i i' : Interfaz} {a b : List Pcb} {p : Pcb}
      {v₁ : Vista} (hi : v.interfaces.valor nombre = some i) (hpet : pet ∈ i.enviadas)
      (h : v.listas .blocked = a ++ p :: b) (hp : p.pid = pet.pid)
      (hal : Alistar (v.conLista .blocked (a ++ b)) p v₁)
      (hi' : Reenviada { i with enviadas := i.enviadas.erase pet } i') :
      Movimiento v (.interfaz nombre pet .finIo) (v₁.ponerInterfaz nombre i')
  | conexionIo {nombre : String} {tipoInterfaz : ℕ} (h : v.interfaces.valor nombre = none) :
      Movimiento v (.conexionIo nombre tipoInterfaz)
        (v.ponerInterfaz nombre { tipoInterfaz := tipoInterfaz })

/-- Every process is in exactly one list, once, RUNNING holds the process at the CPU, and there is
at most one processor to give. -/
structure Base (v : Vista) : Prop where
  ultimoPid : 1 ≤ v.ultimoPid
  enCpu : v.listas .running = v.enCpu.toList
  cpu : v.cpu + (v.listas .running).length ≤ 1
  repartidos : ∀ x, veces v.listas x = if 1 ≤ x ∧ x < v.ultimoPid then 1 else 0

/-- No process is twice in the lists, RUNNING holds the process at the CPU, and there is at most one
processor to give: what is left of `Base` when a process may not be in its list yet. -/
structure Unica (v : Vista) : Prop where
  enCpu : v.listas .running = v.enCpu.toList
  cpu : v.cpu + (v.listas .running).length ≤ 1
  veces_le : ∀ x, veces v.listas x ≤ 1

/-! ### The list of running processes does not matter -/

section

variable {v v' : Vista} {p : Pcb}

theorem Alistar.conRunning (h : Alistar v p v') (xs : List Pcb) :
    Alistar (v.conLista .running xs) p (v'.conLista .running xs) := by
  cases h with
  | @mk l e hl hvrr =>
      have hne : l ≠ .running := by
        rintro rfl
        simp at hl
      have := Alistar.mk (v := v.conLista .running xs) (p := p) (e := e) hl hvrr
      rwa [show (v.conLista .running xs).listas = Function.update v.listas .running xs from rfl,
        Familia.agregar_update hne] at this

theorem Incremento.conRunning {recurso : String} (h : Incremento v recurso v') (xs : List Pcb) :
    Incremento (v.conLista .running xs) recurso (v'.conLista .running xs) := by
  have hb : (v.conLista .running xs).listas .blocked = v.listas .blocked := by
    simp [Vista.conLista]
  cases h with
  | ausente h => exact .ausente h
  | libre hr hi => exact .libre (v := v.conLista .running xs) hr hi
  | huerfano hr hi hq hp => exact .huerfano (v := v.conLista .running xs) hr hi hq (hb ▸ hp)
  | entrega hr hi hq hl hal =>
      refine .entrega (v := v.conLista .running xs) hr hi hq (hb ▸ hl) ?_
      have := hal.conRunning xs
      simp only [Vista.conLista, Vista.ponerRecurso] at this ⊢
      rwa [Function.update_comm (by decide)] at this

theorem Devolucion.conRunning {ts : List String} (h : Devolucion v ts v') (xs : List Pcb) :
    Devolucion (v.conLista .running xs) ts (v'.conLista .running xs) := by
  induction h with
  | nil v => exact .nil _
  | cons hr hi _ ih => exact .cons hr (hi.conRunning xs) ih

theorem Liberacion.conRunning (h : Liberacion v p v') (xs : List Pcb) :
    Liberacion (v.conLista .running xs) p (v'.conLista .running xs) := by
  cases h with
  | suelto hd h => exact .suelto (hd.conRunning xs) h
  | @esperando v₁ recurso hd h =>
      have := Liberacion.esperando (hd.conRunning xs) h
      unfold Vista.retirar at this ⊢
      cases hr : v₁.recursos.valor recurso with
      | none => simpa [Vista.conLista, hr] using this
      | some r => simpa [Vista.conLista, Vista.ponerRecurso, hr] using this

end

/-! ### What the release of resources leaves alone -/

/-- The number of processes the scheduler can take. -/
def Vista.enListos (v : Vista) : ℕ := peso (fun _ => 1) Lista.listos v.listas

/-- Processes may go from BLOCKED to the scheduler's queues, announced one by one, and everything
else but the resources stays. -/
structure Marco (v v' : Vista) : Prop where
  algoritmo : v'.algoritmo = v.algoritmo
  configurados : v'.configurados = v.configurados
  interfaces : v'.interfaces = v.interfaces
  enCpu : v'.enCpu = v.enCpu
  ultimoPid : v'.ultimoPid = v.ultimoPid
  cpu : v'.cpu = v.cpu
  listas : ∀ l, l ∉ Lista.listos → l ≠ .blocked → v'.listas l = v.listas l
  auxiliar : v.algoritmo ≠ .vrr → v'.listas .auxiliar = v.listas .auxiliar
  veces : ∀ x, veces v'.listas x = veces v.listas x
  listos : v'.listos + v.enListos = v.listos + v'.enListos

section

variable {v v₁ v' : Vista} {p : Pcb} {recurso : String}

theorem Marco.refl (v : Vista) : Marco v v :=
  ⟨rfl, rfl, rfl, rfl, rfl, rfl, fun _ _ _ => rfl, fun _ => rfl, fun _ => rfl, rfl⟩

theorem Marco.trans (h₁ : Marco v v₁) (h₂ : Marco v₁ v') : Marco v v' where
  algoritmo := h₂.algoritmo.trans h₁.algoritmo
  configurados := h₂.configurados.trans h₁.configurados
  interfaces := h₂.interfaces.trans h₁.interfaces
  enCpu := h₂.enCpu.trans h₁.enCpu
  ultimoPid := h₂.ultimoPid.trans h₁.ultimoPid
  cpu := h₂.cpu.trans h₁.cpu
  listas l hl hb := (h₂.listas l hl hb).trans (h₁.listas l hl hb)
  auxiliar h := (h₂.auxiliar (h₁.algoritmo ▸ h)).trans (h₁.auxiliar h)
  veces x := (h₂.veces x).trans (h₁.veces x)
  listos := by
    have := h₁.listos
    have := h₂.listos
    omega

/-- The weight of a process that is woken goes to the queues of the scheduler. -/
theorem Alistar.peso {f : Pcb → ℕ} {ls : List Lista} (h : Alistar v p v') (hn : ls.Nodup)
    (hf : ∀ e, f { p with estado := e } = f p) (hls : .auxiliar ∈ ls ↔ .ready ∈ ls) :
    Familia.peso f ls v'.listas
      = Familia.peso f ls v.listas + if .ready ∈ ls then f p else 0 := by
  cases h with
  | @mk l e hl hvrr =>
      simp only [Familia.peso_agregar hn, hf]
      rcases (Lista.mem_listos l).1 hl with rfl | rfl
      · rfl
      · simp only [hls]

/-- From BLOCKED to the queues of the scheduler. -/
theorem Alistar.marco {a b : List Pcb} {q : Pcb} (h : Alistar (v.conLista .blocked (a ++ b)) p v')
    (hb : v.listas .blocked = a ++ q :: b) (hpid : p.pid = q.pid) : Marco v v' := by
  have hveces : ∀ x, veces v'.listas x = veces v.listas x := by
    intro x
    have h₁ := h.peso (f := fun r => if r.pid = x then 1 else 0) Lista.todas_nodup
      (fun _ => rfl) (by simp)
    have h₂ := Familia.peso_quitar (f := fun r => if r.pid = x then 1 else 0)
      Lista.todas_nodup hb
    simp only [Lista.mem_todas, if_true, hpid, Vista.conLista] at h₁ h₂
    unfold veces
    omega
  have hlistos : v'.listos + v.enListos = v.listos + v'.enListos := by
    have h₁ := h.peso (f := fun _ => 1) Lista.listos_nodup (fun _ => rfl) (by simp)
    have h₂ := Familia.peso_quitar (f := fun _ => 1) Lista.listos_nodup hb
    have h₃ : v'.listos = v.listos + 1 := by
      cases h with
      | mk hl hvrr => rfl
    simp only [Lista.mem_listos, reduceCtorEq, or_false, if_true, if_false, Vista.conLista]
      at h₁ h₂
    unfold Vista.enListos
    omega
  cases h with
  | @mk l e hlis hvrr =>
      refine ⟨rfl, rfl, rfl, rfl, rfl, rfl, ?_, ?_, hveces, hlistos⟩
      · intro m hm hmb
        have hne : m ≠ l := by
          rintro rfl
          exact hm hlis
        simp [hne, hmb, Vista.conLista]
      · intro halgo
        have hne : Lista.auxiliar ≠ l := by
          rintro rfl
          exact halgo (hvrr rfl)
        simp [hne, Vista.conLista]

theorem ponerRecurso_marco (v : Vista) (nombre : String) (r : Recurso) :
    Marco v (v.ponerRecurso nombre r) :=
  ⟨rfl, rfl, rfl, rfl, rfl, rfl, fun _ _ _ => rfl, fun _ => rfl, fun _ => rfl, rfl⟩

theorem Incremento.marco (h : Incremento v recurso v') : Marco v v' := by
  cases h with
  | ausente h => exact .refl v
  | libre hr hi => exact ponerRecurso_marco ..
  | huerfano hr hi hq hb => exact ponerRecurso_marco ..
  | entrega hr hi hq hb hal => exact (ponerRecurso_marco ..).trans (hal.marco hb rfl)

theorem Devolucion.marco {ts : List String} (h : Devolucion v ts v') : Marco v v' := by
  induction h with
  | nil v => exact .refl v
  | cons hr hi _ ih => exact hi.marco.trans ih

theorem retirar_marco (v : Vista) (recurso : String) (pid : ℕ) :
    Marco v (v.retirar recurso pid) := by
  unfold Vista.retirar
  cases v.recursos.valor recurso with
  | none => exact .refl v
  | some r => exact ponerRecurso_marco ..

theorem Liberacion.marco (h : Liberacion v p v') : Marco v v' := by
  cases h with
  | suelto hd h => exact hd.marco
  | esperando hd h => exact hd.marco.trans (retirar_marco _ _ _)

end

/-! ### Every process is in one list -/

section

variable {v v' : Vista} {p q : Pcb}

theorem Base.veces_le (hB : Base v) (x : ℕ) : veces v.listas x ≤ 1 := by
  rw [hB.repartidos]
  split <;> omega

theorem Base.unica (hB : Base v) : Unica v := ⟨hB.enCpu, hB.cpu, hB.veces_le⟩

/-- A process taken out of its list is in no list. -/
theorem Unica.veces_quitar (hU : Unica v) {l : Lista} {a b : List Pcb}
    (h : v.listas l = a ++ p :: b) : veces (Function.update v.listas l (a ++ b)) p.pid = 0 :=
  veces_quitar_eq_zero (hU.veces_le p.pid) h

theorem Base.veces_quitar (hB : Base v) {l : Lista} {a b : List Pcb}
    (h : v.listas l = a ++ p :: b) : veces (Function.update v.listas l (a ++ b)) p.pid = 0 :=
  hB.unica.veces_quitar h

theorem Corre.pid (hc : Corre v q p) : q.pid = p.pid := by
  rw [← hc.devuelto]

/-- A process that dies goes from its list to EXIT. -/
theorem Liberacion.veces_salir {w : Vista} {l : Lista} {a b : List Pcb}
    (hl : Liberacion w p v') (h : v.listas l = a ++ q :: b) (hp : q.pid = p.pid)
    (hw : w.listas = Function.update v.listas l (a ++ b)) (x : ℕ) :
    veces (v'.salir p).listas x = veces v.listas x := by
  rw [Vista.salir, veces_agregar, hl.marco.veces, hw, ← Kernel.veces_quitar h, hp]

/-- The running process, given back by the CPU, takes its own place. -/
theorem veces_running {L : Lista → List Pcb} (h : L .running = [q]) (hp : p.pid = q.pid) (x : ℕ) :
    veces (Function.update L .running [p]) x = veces L x := by
  have := veces_mover (m := .running) (a := []) (b := []) h hp x
  simpa [agregar] using this

/-- The configuration of the scheduler and of the resources does not change. -/
theorem Movimiento.config {e : Evento} (h : Movimiento v e v') :
    v'.algoritmo = v.algoritmo ∧ v'.configurados = v.configurados := by
  cases h with
  | signal h hr hi hp => exact ⟨hi.marco.algoritmo, hi.marco.configurados⟩
  | muerteCpu h hm hl => exact ⟨hl.marco.algoritmo, hl.marco.configurados⟩
  | muerteConsola hlista h hp hl => exact ⟨hl.marco.algoritmo, hl.marco.configurados⟩
  | errorIo hi hpet h hp hl => exact ⟨hl.marco.algoritmo, hl.marco.configurados⟩
  | finIo hi hpet h hp hal hi' =>
      have hm := hal.marco h rfl
      exact ⟨hm.algoritmo, hm.configurados⟩
  | _ => exact ⟨rfl, rfl⟩

/-- What a movement that creates no process keeps: nobody appears or disappears. -/
structure Conservada (v v' : Vista) : Prop where
  ultimoPid : v'.ultimoPid = v.ultimoPid
  enCpu : v'.listas .running = v'.enCpu.toList
  cpu : v'.cpu + (v'.listas .running).length ≤ 1
  veces : ∀ x, veces v'.listas x = veces v.listas x

theorem Base.conservada (hB : Base v) (h : Conservada v v') : Base v' where
  ultimoPid := h.ultimoPid ▸ hB.ultimoPid
  enCpu := h.enCpu
  cpu := h.cpu
  repartidos x := by rw [h.veces, h.ultimoPid, hB.repartidos]

/-- The running process leaves the processor. -/
theorem Unica.cpu_eq_zero (hU : Unica v) (h : Corre v q p) : v.cpu = 0 := by
  have := hU.cpu
  rw [h.running] at this
  simpa using this

theorem Base.cpu_eq_zero (hB : Base v) (h : Corre v q p) : v.cpu = 0 := hB.unica.cpu_eq_zero h

/-- A process dies out of a list other than RUNNING. -/
theorem Unica.muerte (hU : Unica v) {w : Vista} {l : Lista} {a b : List Pcb}
    (hl : Liberacion w p v') (h : v.listas l = a ++ p :: b) (hne : l ≠ .running)
    (hw : w.listas = Function.update v.listas l (a ++ b)) (hu : w.ultimoPid = v.ultimoPid)
    (hc : w.enCpu = v.enCpu) (hcpu : w.cpu = v.cpu) : Conservada v (v'.salir p) := by
  have hrun : (v'.salir p).listas .running = v.listas .running := by
    have := hl.marco.listas .running (by simp) (by simp)
    simpa [Vista.salir, hw, hne.symm] using this
  refine ⟨hl.marco.ultimoPid.trans hu, ?_, ?_, hl.veces_salir h rfl hw⟩
  · rw [hrun, hU.enCpu, ← hc, ← hl.marco.enCpu]
    rfl
  · rw [hrun, show (v'.salir p).cpu = v.cpu from hl.marco.cpu.trans hcpu]
    exact hU.cpu

/-- A movement creates a process, or nobody appears or disappears. -/
theorem Movimiento.conservada {e : Evento} (hU : Unica v) (h : Movimiento v e v') :
    Conservada v v' ∨ e = .iniciarProceso ∧ v' = { v with
      listas := agregar v.listas .new { pid := v.ultimoPid }
      ultimoPid := v.ultimoPid + 1 } := by
  cases h with
  | creacion => exact .inr ⟨rfl, rfl⟩
  | quieto => exact .inl ⟨rfl, hU.enCpu, hU.cpu, fun _ => rfl⟩
  | pasadaVacia hn hm hrr hfifo hvrr =>
      refine .inl ⟨rfl, hU.enCpu, ?_, fun _ => rfl⟩
      have := hU.cpu
      simp only at this ⊢
      omega
  | admision h =>
      exact .inl ⟨rfl, by simpa using hU.enCpu, by simpa using hU.cpu,
        veces_mover (a := []) h (by rfl)⟩
  | @despacho ahora l p p' resto n m hl h hp hn hm =>
      have hne : l ≠ .running := by
        rintro rfl
        simp at hl
      have hrun : v.listas .running = [] := by
        have := hU.cpu
        exact List.eq_nil_of_length_eq_zero (by omega)
      refine .inl ⟨rfl, ?_, ?_, veces_mover (a := []) h hp.pid⟩
      · simp [hne.symm, hrun]
      · have := hU.cpu
        simp [hne.symm, hrun]
        omega
  | finDeQuantum h =>
      exact .inl ⟨rfl, by simp, by simp [hU.cpu_eq_zero h],
        veces_mover (a := []) (b := []) h.running (by exact h.pid.symm)⟩
  | bloqueoIo h hi hp =>
      exact .inl ⟨rfl, by simp, by simp [hU.cpu_eq_zero h],
        veces_mover (a := []) (b := []) h.running (hp.pid.trans h.pid.symm)⟩
  | bloqueoRecurso h hr hi =>
      exact .inl ⟨rfl, by simp, by simp [hU.cpu_eq_zero h],
        veces_mover (a := []) (b := []) h.running (by exact h.pid.symm)⟩
  | concesion h hr hi hp =>
      subst hp
      exact .inl ⟨rfl, by simp, by simp [hU.cpu_eq_zero h],
        veces_running h.running (by exact h.pid.symm)⟩
  | @signal q p p' recurso ahora v₁ h hr hi hp =>
      subst hp
      have hm := hi.marco
      have hrun := (hm.listas .running (by simp) (by simp)).trans h.running
      have hcpu : v₁.cpu = 0 := hm.cpu.trans (hU.cpu_eq_zero h)
      exact .inl ⟨hm.ultimoPid, by simp, by simp [hcpu],
        fun x => (veces_running hrun (by exact h.pid.symm) x).trans (hm.veces x)⟩
  | @muerteCpu q p m ahora v₁ h hterm hl =>
      have hm := hl.marco
      have hrun : (v₁.salir p).listas .running = [] := by
        have := hm.listas .running (by simp) (by simp)
        simpa [Vista.salir, Vista.conLista] using this
      have hcpu : v₁.cpu = 0 := hm.cpu.trans (hU.cpu_eq_zero h)
      refine .inl ⟨hm.ultimoPid, ?_, ?_,
        hl.veces_salir (a := []) (b := []) h.running h.pid rfl⟩
      · exact hrun.trans (congrArg Option.toList hm.enCpu.symm)
      · simp [hrun, hcpu]
  | muerteConsola hlista h hp hl =>
      refine .inl (hU.muerte hl h ?_ rfl rfl rfl rfl)
      rcases hlista with rfl | rfl | rfl | rfl <;> decide
  | errorIo hi hpet h hp hl => exact .inl (hU.muerte hl h (by decide) rfl rfl rfl rfl)
  | ioOcupada hi hpet => exact .inl ⟨rfl, hU.enCpu, hU.cpu, fun _ => rfl⟩
  | @finIo nombre pet i i' a b p v₁ hi hpet h hp hal hi' =>
      have hm := hal.marco h rfl
      have hrun := hm.listas .running (by simp) (by simp)
      refine .inl ⟨hm.ultimoPid, ?_, ?_, hm.veces⟩
      · exact hrun.trans (hU.enCpu.trans (congrArg Option.toList hm.enCpu.symm))
      · show v₁.cpu + (v₁.listas .running).length ≤ 1
        rw [hm.cpu, hrun]
        exact hU.cpu
  | conexionIo h => exact .inl ⟨rfl, hU.enCpu, hU.cpu, fun _ => rfl⟩

/-- A movement keeps every process in one list. -/
theorem Movimiento.base {e : Evento} (hB : Base v) (h : Movimiento v e v') : Base v' := by
  rcases h.conservada hB.unica with hc | ⟨-, rfl⟩
  · exact hB.conservada hc
  · refine ⟨by simp, by simpa using hB.enCpu, by simpa using hB.cpu, fun x => ?_⟩
    have := hB.ultimoPid
    simp only [veces_agregar, hB.repartidos]
    split <;> split <;> split <;> omega

/-- The dead stay where they are, and others come after them. -/
theorem Movimiento.exit_prefix {e : Evento} (h : Movimiento v e v') :
    v.listas .exit <+: v'.listas .exit := by
  have hsalir : ∀ {w w₁ : Vista} {p : Pcb}, Liberacion w p w₁ →
      w.listas .exit = v.listas .exit → v.listas .exit <+: (w₁.salir p).listas .exit := by
    intro w w₁ p hl hw
    have he := hl.marco.listas .exit (by simp) (by simp)
    simp [Vista.salir, he, hw]
  cases h with
  | quieto => exact List.prefix_rfl
  | pasadaVacia hn hm hrr hfifo hvrr => exact List.prefix_rfl
  | creacion => simp
  | admision h => simp
  | @despacho ahora l p p' resto n m hl h hp hn hm =>
      have hne : Lista.exit ≠ l := by
        rintro rfl
        simp at hl
      simp [hne]
  | finDeQuantum h => simp
  | bloqueoIo h hi hp => simp
  | bloqueoRecurso h hr hi => simp
  | concesion h hr hi hp => simp
  | signal h hr hi hp =>
      have he := hi.marco.listas .exit (by simp) (by simp)
      simp [he]
  | muerteCpu h hterm hl => exact hsalir hl (by simp [Vista.conLista])
  | @muerteConsola pid l a b p v₁ hlista h hp hl =>
      have hne : Lista.exit ≠ l := by
        rcases hlista with rfl | rfl | rfl | rfl <;> decide
      exact hsalir hl (by simp [Vista.conLista, hne])
  | errorIo hi hpet h hp hl =>
      exact hsalir hl (by simp [Vista.conLista, Vista.ponerInterfaz])
  | ioOcupada hi hpet => exact List.prefix_rfl
  | finIo hi hpet h hp hal hi' =>
      have he := (hal.marco h rfl).listas .exit (by simp) (by simp)
      simp [Vista.ponerInterfaz, he]
  | conexionIo h => exact List.prefix_rfl

theorem base_iniciar (config : Config) : Base (iniciar config).vista := by
  refine ⟨le_rfl, rfl, by simp [Nucleo.vista, iniciar, initSemaphores, FaseCorto.cpu], fun x => ?_⟩
  have h₀ : veces (iniciar config).vista.listas x = 0 :=
    veces_eq_zero.2 (by simp [Nucleo.vista, iniciar])
  rw [h₀, if_neg]
  show ¬ (1 ≤ x ∧ x < 1)
  omega

end

end Kernel
