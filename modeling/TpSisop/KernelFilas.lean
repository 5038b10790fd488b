/-
**Nobody overtakes in the queues of the kernel.**

The processes wait in the lists of the planner, in the queues of the resources, and, as requests
that an interface was too busy for, in the queues of the interfaces.  Every handler takes processes
out of these queues and puts others at their end, also where it wakes several processes at once
because another one dies.  So whoever waits is behind those that were there before it, and behind
nobody else.

Main definitions:

* `Kernel.Cola`, `Kernel.Vista.pidsEn` — the queues, and who waits in each one;
* `Kernel.Suelta` — what giving resources back does to the queues.

Main results:

* `Kernel.Movimiento.avanza` — what an event does to a queue;
* `Kernel.espera_acotada` — in every run, whoever waits is behind those that were there before it,
  and the first leaves at most as often as there were others in front;
* `Kernel.despachos_acotados` — as long as a process waits in READY the CPU is given to others at
  most as often as there were processes in front of it;
* `Kernel.prioridad_acotada` — as long as a process waits in the priority queue the CPU is given, to
  whomever, at most as often as there were processes in front of it.
-/

import TpSisop.Filas
import TpSisop.KernelColas
import TpSisop.KernelHilos

set_option relaxedAutoImplicit false
set_option autoImplicit false

namespace Kernel

open Familia (agregar)
open Coleccion (Diccionario)
open Fila (Avanza Atiende avanza_of_sublist avanza_of_eq avanza_append)

/-! ### The queues -/

/-- A list of the planner, or the queue of a resource or of an interface. -/
inductive Cola
  | lista (l : Lista)
  | recurso (n : String)
  | interfaz (n : String)
  deriving DecidableEq, Repr

def pids (L : Lista → List Pcb) (l : Lista) : List ℕ := (L l).map Pcb.pid

def bloqueadosDe (d : Diccionario Recurso) (n : String) : List ℕ :=
  ((d.valor n).map Recurso.bloqueados).getD []

/-- A request whose process was not found in BLOCKED is nobody's. -/
def encoladosDe (d : Diccionario Interfaz) (n : String) : List ℕ :=
  ((d.valor n).map fun i => i.listaBloqueados.filterMap IoPcb.pcb).getD []

/-- The processes that wait in a queue, the first one first. -/
def Vista.pidsEn (v : Vista) : Cola → List ℕ
  | .lista l => pids v.listas l
  | .recurso n => bloqueadosDe v.recursos n
  | .interfaz n => encoladosDe v.interfaces n

variable {v v' w : Vista} {p q : Pcb}

theorem mem_pids {L : Lista → List Pcb} {l : Lista} {x : ℕ} :
    x ∈ pids L l ↔ ∃ p ∈ L l, p.pid = x := List.mem_map

/-- A process is in one list. -/
theorem notMem_pids {L : Lista → List Pcb} (hu : ∀ x, veces L x ≤ 1) {l m : Lista} {x : ℕ}
    (hm : x ∈ pids L m) (hne : m ≠ l) : x ∉ pids L l := by
  intro hl
  obtain ⟨p, hp, rfl⟩ := mem_pids.1 hm
  obtain ⟨q, hq, hpid⟩ := mem_pids.1 hl
  exact hne (eq_of_pid (hu _) hp hq hpid).1.symm

theorem bloqueadosDe_poner (d : Diccionario Recurso) (n m : String) (r : Recurso) :
    bloqueadosDe (d.poner n r) m = if m = n then r.bloqueados else bloqueadosDe d m := by
  by_cases h : m = n
  · subst h
    simp [bloqueadosDe]
  · simp [bloqueadosDe, h]

theorem encoladosDe_poner (d : Diccionario Interfaz) (n m : String) (i : Interfaz) :
    encoladosDe (d.poner n i) m =
      if m = n then i.listaBloqueados.filterMap IoPcb.pcb else encoladosDe d m := by
  by_cases h : m = n
  · subst h
    simp [encoladosDe]
  · simp [encoladosDe, h]

theorem bloqueadosDe_of_some {d : Diccionario Recurso} {n : String} {r : Recurso}
    (h : d.valor n = some r) : bloqueadosDe d n = r.bloqueados := by
  simp [bloqueadosDe, h]

theorem encoladosDe_of_some {d : Diccionario Interfaz} {n : String} {i : Interfaz}
    (h : d.valor n = some i) : encoladosDe d n = i.listaBloqueados.filterMap IoPcb.pcb := by
  simp [encoladosDe, h]

/-! ### A process that moves -/

/-- A process goes to the end of another list. -/
theorem avanza_mover {L : Lista → List Pcb} (hu : ∀ x, veces L x ≤ 1) {l m : Lista}
    {a b : List Pcb} (hl : L l = a ++ q :: b) (hp : p.pid = q.pid) (hne : l ≠ m) (n : Lista) :
    Avanza (pids L n) (pids (agregar (Function.update L l (a ++ b)) m p) n) := by
  by_cases hn : n = m
  · subst hn
    have hmismos : pids (agregar (Function.update L l (a ++ b)) n p) n = pids L n ++ [q.pid] := by
      simp [pids, hne.symm, hp]
    rw [hmismos]
    refine avanza_append ?_
    intro x hx
    rw [List.mem_singleton.1 hx]
    exact notMem_pids hu (mem_pids.2 ⟨q, by rw [hl]; simp, rfl⟩) hne
  · refine avanza_of_sublist ?_
    by_cases hn' : n = l
    · subst hn'
      simp [pids, hn, hl]
    · simp [pids, hn, hn']

/-! ### Giving resources back -/

/-- Some processes of BLOCKED go to the ends of other lists, and some leave the queues of the
resources. -/
structure Suelta (v v' : Vista) : Prop where
  bloqueados : (pids v'.listas .blocked).Sublist (pids v.listas .blocked)
  agregados : ∀ l, l ≠ .blocked → ∃ ws, pids v'.listas l = pids v.listas l ++ ws ∧
    ∀ x ∈ ws, x ∈ pids v.listas .blocked
  recursos : ∀ n, (bloqueadosDe v'.recursos n).Sublist (bloqueadosDe v.recursos n)

theorem Suelta.refl (v : Vista) : Suelta v v :=
  ⟨List.Sublist.refl _, fun _ _ => ⟨[], by simp, by simp⟩, fun _ => List.Sublist.refl _⟩

theorem Suelta.trans (h : Suelta v w) (h' : Suelta w v') : Suelta v v' := by
  refine ⟨h'.bloqueados.trans h.bloqueados, ?_, fun n => (h'.recursos n).trans (h.recursos n)⟩
  intro l hl
  obtain ⟨ws, hws, hmem⟩ := h.agregados l hl
  obtain ⟨ws', hws', hmem'⟩ := h'.agregados l hl
  refine ⟨ws ++ ws', ?_, ?_⟩
  · rw [hws', hws, List.append_assoc]
  · intro x hx
    rcases List.mem_append.1 hx with hx | hx
    · exact hmem x hx
    · exact h.bloqueados.subset (hmem' x hx)

/-- The queue of a resource gets shorter. -/
theorem suelta_ponerRecurso {n : String} {r r' : Recurso} (hr : v.recursos.valor n = some r)
    (h : r'.bloqueados.Sublist r.bloqueados) : Suelta v (v.ponerRecurso n r') := by
  refine ⟨List.Sublist.refl _, fun _ _ => ⟨[], by simp [Vista.ponerRecurso], by simp⟩, ?_⟩
  intro m
  rw [Vista.ponerRecurso, bloqueadosDe_poner]
  split
  · rename_i hm
    rw [hm, bloqueadosDe_of_some hr]
    exact h
  · exact List.Sublist.refl _

/-- A process of BLOCKED is woken. -/
theorem Alistar.suelta {a b : List Pcb} (h : Alistar (v.conLista .blocked (a ++ b)) p v')
    (hb : v.listas .blocked = a ++ q :: b) (hp : p.pid = q.pid) : Suelta v v' := by
  cases h with
  | @mk l e hl hvrr =>
      have hne : l ≠ .blocked := by
        rintro rfl
        simp at hl
      refine ⟨?_, ?_, fun n => List.Sublist.refl _⟩
      · simp [pids, Vista.conLista, hne.symm, hb]
      · intro m hm
        by_cases hml : m = l
        · subst hml
          refine ⟨[q.pid], by simp [pids, Vista.conLista, hm, hp], ?_⟩
          intro x hx
          rw [List.mem_singleton.1 hx]
          exact mem_pids.2 ⟨q, by rw [hb]; simp, rfl⟩
        · exact ⟨[], by simp [pids, Vista.conLista, hm, hml], by simp⟩

theorem Incremento.suelta {n : String} (h : Incremento v n v') : Suelta v v' := by
  cases h with
  | ausente h => exact .refl v
  | libre hr hi => exact suelta_ponerRecurso hr (List.Sublist.refl _)
  | huerfano hr hi hq hb =>
      refine suelta_ponerRecurso hr ?_
      rw [hq]
      exact List.sublist_cons_self _ _
  | entrega hr hi hq hb hal =>
      refine (suelta_ponerRecurso hr ?_).trans (hal.suelta hb rfl)
      rw [hq]
      exact List.sublist_cons_self _ _

theorem Devolucion.suelta {ts : List String} (h : Devolucion v ts v') : Suelta v v' := by
  induction h with
  | nil v => exact .refl v
  | cons hr hi _ ih => exact hi.suelta.trans ih

theorem Liberacion.suelta (h : Liberacion v p v') : Suelta v v' := by
  cases h with
  | suelto hd h => exact hd.suelta
  | @esperando v₁ n hd h =>
      refine hd.suelta.trans ?_
      unfold Vista.retirar
      cases hr : v₁.recursos.valor n with
      | none => exact .refl v₁
      | some r => exact suelta_ponerRecurso hr List.erase_sublist

/-- A process is taken out of its list, gives everything back, and goes to EXIT. -/
theorem Liberacion.avanza {l : Lista} {a b : List Pcb} (hu : ∀ x, veces v.listas x ≤ 1)
    (hl : v.listas l = a ++ q :: b) (hp : p.pid = q.pid) (hne : l ≠ .exit)
    (hw : w.listas = Function.update v.listas l (a ++ b)) (h : Liberacion w p v') (n : Lista) :
    Avanza (pids v.listas n) (pids (v'.salir p).listas n) := by
  have hsub : ∀ m, (pids w.listas m).Sublist (pids v.listas m) := by
    intro m
    rw [hw]
    by_cases hm : m = l
    · subst hm
      simp [pids, hl]
    · simp [pids, hm]
  by_cases hn : n = .blocked
  · subst hn
    refine avanza_of_sublist ?_
    have hfin : pids (v'.salir p).listas .blocked = pids v'.listas .blocked := by
      simp [pids, Vista.salir]
    rw [hfin]
    exact h.suelta.bloqueados.trans (hsub .blocked)
  · obtain ⟨ws, hws, hmem⟩ := h.suelta.agregados n hn
    by_cases hn' : n = .exit
    · subst hn'
      refine ⟨pids w.listas .exit, ws ++ [p.pid], hsub .exit, ?_, ?_⟩
      · rw [← List.append_assoc, ← hws]
        simp [pids, Vista.salir]
      · intro x hx
        -- those that are woken were in BLOCKED, and the one that dies in its list
        rcases List.mem_append.1 hx with hx | hx
        · exact notMem_pids hu ((hsub .blocked).subset (hmem x hx)) (by decide)
        · rw [List.mem_singleton.1 hx, hp]
          exact notMem_pids hu (mem_pids.2 ⟨q, by rw [hl]; simp, rfl⟩) hne
    · refine ⟨pids w.listas n, ws, hsub n, ?_, ?_⟩
      · rw [← hws]
        simp [pids, Vista.salir, hn']
      · intro x hx
        exact notMem_pids hu ((hsub .blocked).subset (hmem x hx)) (Ne.symm hn)

/-! ### An event -/

/-- A process that is woken goes from BLOCKED to another list. -/
theorem Alistar.avanza {a b : List Pcb} (hu : ∀ x, veces v.listas x ≤ 1)
    (h : Alistar (v.conLista .blocked (a ++ b)) p v') (hb : v.listas .blocked = a ++ p :: b)
    (n : Lista) : Avanza (pids v.listas n) (pids v'.listas n) := by
  cases h with
  | @mk l e hl hvrr =>
      have hne : Lista.blocked ≠ l := by
        rintro rfl
        simp at hl
      exact avanza_mover (p := { p with estado := e }) hu hb rfl hne n

theorem Movimiento.avanza_listas {e : Evento} (hB : Base v) (h : Movimiento v e v') (n : Lista) :
    Avanza (pids v.listas n) (pids v'.listas n) := by
  have hu := hB.veces_le
  cases h with
  | quieto he => exact .refl _
  | pasadaVacia hn hm hrr hfifo hvrr => exact .refl _
  | creacion =>
      by_cases hn : n = .new
      · subst hn
        have hmas : pids (agregar v.listas .new { pid := v.ultimoPid }) .new =
            pids v.listas .new ++ [v.ultimoPid] := by
          simp [pids]
        rw [hmas]
        refine avanza_append ?_
        intro x hx hdentro
        rw [List.mem_singleton.1 hx] at hdentro
        obtain ⟨p, hp, hpid⟩ := mem_pids.1 hdentro
        have huna := one_le_veces hp
        rw [hB.repartidos, hpid] at huna
        simp at huna
      · have hmismos : pids (agregar v.listas .new { pid := v.ultimoPid }) n = pids v.listas n := by
          simp [pids, hn]
        rw [hmismos]
        exact .refl _
  | @admision p new h =>
      refine avanza_mover (a := []) hu h ?_ (by decide) n
      rfl
  | @despacho ahora l p p' resto i j hl h hp hn hm =>
      have hne : l ≠ .running := by
        rintro rfl
        simp at hl
      exact avanza_mover (a := []) hu h hp.pid hne n
  | finDeQuantum h =>
      refine avanza_mover (a := []) (b := []) hu h.running ?_ (by decide) n
      exact h.pid.symm
  | bloqueoIo h hi hp =>
      refine avanza_mover (a := []) (b := []) hu h.running ?_ (by decide) n
      exact hp.pid.trans h.pid.symm
  | bloqueoRecurso h hr hi =>
      refine avanza_mover (a := []) (b := []) hu h.running ?_ (by decide) n
      exact h.pid.symm
  | concesion h hr hi hp =>
      subst hp
      refine avanza_of_sublist ?_
      by_cases hn : n = .running
      · subst hn
        simp [pids, h.running, h.pid]
      · simp [pids, hn]
  | @signal q p p' recurso ahora v₁ h hr hi hp =>
      subst hp
      have hsuelta := hi.suelta
      by_cases hn : n = .running
      · subst hn
        refine avanza_of_sublist ?_
        simp [pids, h.running, h.pid]
      · have hsin : ∀ xs, pids (Function.update v₁.listas .running xs) n = pids v₁.listas n := by
          intro xs
          exact congrArg (List.map Pcb.pid) (Function.update_of_ne hn _ _)
        rw [hsin]
        by_cases hb : n = .blocked
        · subst hb
          exact avanza_of_sublist hsuelta.bloqueados
        · obtain ⟨ws, hws, hmem⟩ := hsuelta.agregados n hb
          rw [hws]
          refine avanza_append ?_
          intro x hx
          exact notMem_pids hu (hmem x hx) (Ne.symm hb)
  | muerteCpu h hm hl =>
      exact hl.avanza (a := []) (b := []) hu h.running h.pid.symm (by decide) rfl n
  | @muerteConsola pid l a b p v₁ hlista h hp hl =>
      have hne : l ≠ .exit := by
        rcases hlista with rfl | rfl | rfl | rfl <;> decide
      exact hl.avanza hu h rfl hne rfl n
  | errorIo hi hpet h hp hl => exact hl.avanza hu h rfl (by decide) rfl n
  | ioOcupada hi hpet => exact .refl _
  | finIo hi hpet h hp hal hi' => exact hal.avanza hu h n
  | conexionIo h => exact .refl _

theorem Movimiento.avanza_recursos {e : Evento} (hB : Base v) (hO : Ordenada v)
    (h : Movimiento v e v') (n : String) :
    Avanza (bloqueadosDe v.recursos n) (bloqueadosDe v'.recursos n) := by
  cases h with
  | @bloqueoRecurso q p recurso r ahora h hr hi =>
      show Avanza _ (bloqueadosDe (v.recursos.poner recurso _) n)
      rw [bloqueadosDe_poner]
      split
      · rename_i hn
        subst hn
        rw [bloqueadosDe_of_some hr]
        refine avanza_append ?_
        intro x hx hcola
        -- whoever is in the queue is in BLOCKED, and this one was running
        rw [List.mem_singleton.1 hx] at hcola
        obtain ⟨s, hs, hpid, -⟩ := hO.encolados.enCola hr hcola
        rw [List.append_nil] at hs
        have hcorre : p.pid ∈ pids v.listas .running :=
          mem_pids.2 ⟨q, by rw [h.running]; simp, h.pid⟩
        exact notMem_pids hB.veces_le hcorre (by decide) (mem_pids.2 ⟨s, hs, hpid⟩)
      · exact .refl _
  | @concesion q p p' recurso r ahora h hr hi hp =>
      show Avanza _ (bloqueadosDe (v.recursos.poner recurso _) n)
      rw [bloqueadosDe_poner]
      split
      · rename_i hn
        subst hn
        rw [bloqueadosDe_of_some hr]
        exact .refl _
      · exact .refl _
  | signal h hr hi hp => exact avanza_of_sublist (hi.suelta.recursos n)
  | muerteCpu h hm hl => exact avanza_of_sublist (hl.suelta.recursos n)
  | muerteConsola hlista h hp hl => exact avanza_of_sublist (hl.suelta.recursos n)
  | errorIo hi hpet h hp hl => exact avanza_of_sublist (hl.suelta.recursos n)
  | finIo hi hpet h hp hal hi' => exact avanza_of_sublist ((hal.suelta h rfl).recursos n)
  | _ => exact .refl _

/-- Another interface in the place of one, with its queue or what a step makes of it. -/
theorem avanza_ponerInterfaz {d : Diccionario Interfaz} {nombre : String} {i i' : Interfaz}
    (hi : d.valor nombre = some i)
    (h : Avanza (i.listaBloqueados.filterMap IoPcb.pcb) (i'.listaBloqueados.filterMap IoPcb.pcb))
    (n : String) : Avanza (encoladosDe d n) (encoladosDe (d.poner nombre i') n) := by
  rw [encoladosDe_poner]
  split
  · rename_i hn
    rw [hn, encoladosDe_of_some hi]
    exact h
  · exact .refl _

theorem mem_encolados {i : Interfaz} {x : ℕ}
    (h : x ∈ i.listaBloqueados.filterMap IoPcb.pcb) :
    0 < i.listaBloqueados.countP fun io => io.pcb = some x := by
  obtain ⟨io, hio, hx⟩ := List.mem_filterMap.1 h
  exact List.countP_pos_iff.2 ⟨io, hio, by simpa using hx⟩

/-- The queue of an interface has each process once. -/
theorem nodup_encolados {d : Diccionario Interfaz} (h : ∀ x, pedidos d x ≤ 1) (n : String) :
    (encoladosDe d n).Nodup := by
  cases hn : d.valor n with
  | none => simp [encoladosDe, hn]
  | some i =>
      rw [encoladosDe_of_some hn]
      refine List.nodup_iff_count_le_one.2 fun x => ?_
      have hle := (pedidos_le hn x).trans (h x)
      have hcuenta : (i.listaBloqueados.filterMap IoPcb.pcb).count x =
          i.listaBloqueados.countP fun io => io.pcb = some x := by
        rw [List.count_filterMap]
        refine List.countP_congr fun io _ => ?_
        rw [beq_iff_eq, decide_eq_true_iff]
      rw [hcuenta]
      unfold Interfaz.pedidos at hle
      omega

/-- The process whose request an interface answers is not in its queue. -/
theorem notMem_encolados (hO : Ordenada v) {n : String} {i : Interfaz} {pet : PeticionIo}
    (hi : v.interfaces.valor n = some i) (hpet : pet ∈ i.enviadas) :
    pet.pid ∉ i.listaBloqueados.filterMap IoPcb.pcb := by
  intro hcola
  have hle := (pedidos_le hi pet.pid).trans (hO.pedidos.uno pet.pid)
  have hen : 0 < i.enviadas.countP fun p => p.pid = pet.pid :=
    List.countP_pos_iff.2 ⟨pet, hpet, by simp⟩
  have hco := mem_encolados hcola
  unfold Interfaz.pedidos at hle
  omega

theorem Movimiento.avanza_interfaces {e : Evento} (hO : Ordenada v)
    (h : Movimiento v e v') (n : String) :
    Avanza (encoladosDe v.interfaces n) (encoladosDe v'.interfaces n) := by
  cases h with
  | bloqueoIo h hi hp =>
      refine avanza_ponerInterfaz hi ?_ n
      exact .refl _
  | signal h hr hi hp =>
      exact avanza_of_eq (congrArg (fun d => encoladosDe d n) hi.marco.interfaces)
  | muerteCpu h hm hl =>
      exact avanza_of_eq (congrArg (fun d => encoladosDe d n) hl.marco.interfaces)
  | muerteConsola hlista h hp hl =>
      exact avanza_of_eq (congrArg (fun d => encoladosDe d n) hl.marco.interfaces)
  | @errorIo nombre pet i a b p v₁ hi hpet h hp hl =>
      show Avanza _ (encoladosDe v₁.interfaces n)
      rw [hl.marco.interfaces]
      refine avanza_ponerInterfaz hi ?_ n
      exact .refl _
  | @ioOcupada nombre pet i hi hpet =>
      refine avanza_ponerInterfaz hi ?_ n
      rw [List.filterMap_append]
      refine avanza_append ?_
      intro x hx hcola
      -- the process that is looked for is the one of the request
      obtain ⟨io, hio, hx⟩ := List.mem_filterMap.1 hx
      cases List.mem_singleton.1 hio
      obtain ⟨p, hp, rfl⟩ := Option.map_eq_some_iff.1 hx
      have hpid : p.pid = pet.pid := by simpa using List.find?_some hp
      exact notMem_encolados hO hi hpet (hpid ▸ hcola)
  | @finIo nombre pet i i' a b p v₁ hi hpet h hp hal hi' =>
      show Avanza _ (encoladosDe (v₁.interfaces.poner nombre i') n)
      rw [(hal.marco h rfl).interfaces]
      refine avanza_ponerInterfaz hi ?_ n
      refine avanza_of_sublist ?_
      cases hi' with
      | ninguna h => exact List.Sublist.refl _
      | descartada h =>
          rw [show i.listaBloqueados = _ from h]
          exact (List.sublist_cons_self _ _).filterMap _
      | enviada operacion h hp =>
          rw [show i.listaBloqueados = _ from h]
          exact (List.sublist_cons_self _ _).filterMap _
  | @conexionIo nombre tipoInterfaz h =>
      show Avanza _ (encoladosDe (v.interfaces.poner nombre _) n)
      rw [encoladosDe_poner]
      split
      · rename_i hn
        refine avanza_of_eq ?_
        rw [hn, encoladosDe, h]
        rfl
      · exact .refl _
  | _ => exact .refl _

/-- An event takes processes out of a queue, and puts others, which were not in it, at its end. -/
theorem Movimiento.avanza {e : Evento} (hB : Base v) (hO : Ordenada v) (h : Movimiento v e v')
    (c : Cola) : Avanza (v.pidsEn c) (v'.pidsEn c) := by
  cases c with
  | lista l => exact h.avanza_listas hB l
  | recurso n => exact h.avanza_recursos hB hO n
  | interfaz n => exact h.avanza_interfaces hO n

/-- No process waits twice in a queue. -/
theorem nodup_pidsEn (hB : Base v) (hO : Ordenada v) (c : Cola) : (v.pidsEn c).Nodup := by
  cases c with
  | lista l => exact nodup_pids hB.veces_le l
  | recurso n =>
      cases hn : v.recursos.valor n with
      | none => simp [Vista.pidsEn, bloqueadosDe, hn]
      | some r =>
          rw [Vista.pidsEn, bloqueadosDe_of_some hn]
          exact hO.encolados.nodup hn
  | interfaz n => exact nodup_encolados hO.pedidos.uno n

/-! ### The runs -/

/-- Only VRR has a priority queue. -/
theorem Movimiento.auxiliar {e : Evento} (h : Movimiento v e v') (halg : v.algoritmo ≠ .vrr)
    (hv : v.listas .auxiliar = []) : v'.listas .auxiliar = [] := by
  cases h with
  | quieto he => exact hv
  | pasadaVacia hn hm hrr hfifo hvrr => exact hv
  | creacion => simpa using hv
  | admision h => simpa using hv
  | @despacho ahora l p p' resto n m hl h hp hn hm =>
      have hne : Lista.auxiliar ≠ l := by
        rintro rfl
        rw [hv] at h
        cases h
      simpa [hne] using hv
  | finDeQuantum h => simpa using hv
  | bloqueoIo h hi hp => simpa using hv
  | bloqueoRecurso h hr hi => simpa using hv
  | concesion h hr hi hp => simpa using hv
  | signal h hr hi hp =>
      have haux := hi.marco.auxiliar halg
      simpa [haux] using hv
  | muerteCpu h hm hl =>
      have haux := hl.marco.auxiliar halg
      simpa [Vista.salir, Vista.conLista, haux] using hv
  | @muerteConsola pid l a b p v₁ hlista h hp hl =>
      have haux := hl.marco.auxiliar halg
      have hne : Lista.auxiliar ≠ l := by
        rintro rfl
        rw [hv] at h
        simp at h
      simpa [Vista.salir, Vista.conLista, hne, haux] using hv
  | errorIo hi hpet h hp hl =>
      have haux := hl.marco.auxiliar halg
      simpa [Vista.salir, Vista.conLista, Vista.ponerInterfaz, haux] using hv
  | ioOcupada hi hpet => exact hv
  | finIo hi hpet h hp hal hi' =>
      have haux := (hal.marco h rfl).auxiliar halg
      simpa [Vista.ponerInterfaz, haux] using hv
  | conexionIo h => exact hv

/-- What the queues rest on. -/
structure Filada (v : Vista) : Prop where
  base : Base v
  ordenada : Ordenada v
  auxiliar : v.algoritmo ≠ .vrr → v.listas .auxiliar = []

variable {k k₀ : Nucleo}

theorem filada_paso {k k' : Nucleo} {e : Evento} (h : Filada k.vista) (hp : sistema.paso k e k') :
    Filada k'.vista ∧ Movimiento k.vista e k'.vista := by
  have hmov := manejar_movimiento h.base.unica hp.1 hp.2
  refine ⟨⟨hmov.base h.base, hmov.ordenada h.base h.ordenada, ?_⟩, hmov⟩
  intro halg
  rw [hmov.config.1] at halg
  exact hmov.auxiliar halg (h.auxiliar halg)

theorem filada_alcanzable (h : Transicion.Alcanzable sistema k) : Filada k.vista := by
  refine h.invariante (I := fun k => Filada k.vista) ?_ ?_
  · rintro _ ⟨config, rfl⟩
    exact ⟨base_iniciar config, ordenada_iniciar config, fun _ => rfl⟩
  · intro k e k' hk _ hp
    exact (filada_paso hk hp).1

/-- Two processes wait in READY. -/
def dosEnReady : Nucleo :=
  correr (fun _ _ => True) ⟨.fifo, 10, 3, []⟩ dosAdmitidos (by decide +kernel)

theorem alcanzable_dosEnReady : Transicion.Alcanzable sistema dosEnReady :=
  (alcanzable_correr _).alcanzable

/-- The state after an event, while the second one waits in a list. -/
def intentarDetras (l : Lista) (cuenta : Nucleo → Evento → Nucleo → Prop)
    [∀ k e k', Decidable (cuenta k e k')] (s : Nucleo × ℕ) (e : Evento) : Option (Nucleo × ℕ) :=
  if 2 ∈ pids s.1.listas l then Transicion.contar (intentar fun _ _ => True) cuenta s e
  else none

/-- The state after some events, and how many steps of one kind there were. -/
def mientrasEspera (l : Lista) (cuenta : Nucleo → Evento → Nucleo → Prop)
    [∀ k e k', Decidable (cuenta k e k')] (k₀ : Nucleo) (es : List Evento)
    (h : (Transicion.ejecutar (intentarDetras l cuenta) (k₀, 0) es).isSome = true) : Nucleo × ℕ :=
  Transicion.estadoTras (intentarDetras l cuenta) (k₀, 0) es h

theorem corrida_mientrasEspera {l : Lista} {cuenta : Nucleo → Evento → Nucleo → Prop}
    [∀ k e k', Decidable (cuenta k e k')] {k₀ : Nucleo} {es : List Evento}
    (h : (Transicion.ejecutar (intentarDetras l cuenta) (k₀, 0) es).isSome = true) :
    Transicion.Corrida ((sistema.contando cuenta).desde (k₀, 0))
      (fun s _ => 2 ∈ pids s.1.listas l) es
      ((mientrasEspera l cuenta k₀ es h).1, (mientrasEspera l cuenta k₀ es h).2) := by
  refine Transicion.corrida_estadoTras ?_ rfl h
  intro s e s' hs
  unfold intentarDetras at hs
  split at hs
  · exact ⟨‹_›, Transicion.paso_of_contar (fun _ _ _ h => (paso_of_intentar h).2) hs⟩
  · cases hs

/-- In every run, as long as a process waits in a queue of the kernel only those that were in front
of it are, and the first of the queue leaves it at most as often as there were others in front. -/
theorem espera_acotada (h₀ : Transicion.Alcanzable sistema k₀) {c : Cola} {x n : ℕ}
    {es : List Evento}
    (h : Transicion.Corrida
      ((sistema.contando fun k _ k' =>
        Atiende (k.vista.pidsEn c) (k'.vista.pidsEn c)).desde (k₀, 0))
      (fun s _ => x ∈ s.1.vista.pidsEn c) es (k, n))
    (hx : x ∈ k.vista.pidsEn c) :
    (Fila.delante x (k.vista.pidsEn c)).Sublist (Fila.delante x (k₀.vista.pidsEn c)) ∧
      n + (Fila.delante x (k.vista.pidsEn c)).length ≤
        (Fila.delante x (k₀.vista.pidsEn c)).length := by
  refine Fila.espera_corrida (I := fun k : Nucleo => Filada k.vista)
    (f := fun k : Nucleo => k.vista.pidsEn c) ?_ ?_ (filada_alcanzable h₀) ?_ h hx
  · intro k e k' hk hp
    obtain ⟨hk', hmov⟩ := filada_paso hk hp
    exact ⟨hk', hmov.avanza hk.base hk.ordenada c⟩
  · intro k hk
    exact nodup_pidsEn hk.base hk.ordenada c
  · intro k e k' _ _ _ ha
    exact ha

/-- The first process leaves READY, and nobody is in front of the second. -/
def primeroSale : Nucleo × ℕ :=
  mientrasEspera .ready (fun k _ k' => Atiende (k.vista.pidsEn (.lista .ready))
    (k'.vista.pidsEn (.lista .ready))) dosEnReady [.corto 0, .corto 0, .corto 0] (by decide +kernel)

theorem espera_acotada_primeroSale :
    primeroSale.2 = 1 ∧
      primeroSale.2 + (Fila.delante 2 (primeroSale.1.vista.pidsEn (.lista .ready))).length ≤
        (Fila.delante 2 (dosEnReady.vista.pidsEn (.lista .ready))).length :=
  ⟨by decide +kernel, (espera_acotada alcanzable_dosEnReady (corrida_mientrasEspera _)
    (by decide +kernel)).2⟩

/-- The CPU is given to a process, and nobody is in the priority queue. -/
def Reparte (k k' : Nucleo) : Prop :=
  k.enCpu = none ∧ k'.enCpu ≠ none ∧ (k.config.algoritmo = .vrr → k.listas .auxiliar = [])

instance (k k' : Nucleo) : Decidable (Reparte k k') := by
  unfold Reparte
  infer_instance

/-- The process that gets the CPU is the first of READY or of the priority queue. -/
theorem Movimiento.reparte {e : Evento} (hv : Filada v) (h : Movimiento v e v')
    (hantes : v.enCpu = none) (hdespues : v'.enCpu ≠ none) :
    ∃ l ∈ Lista.listos, (∃ p, v'.enCpu = some p ∧ p.pid ∈ pids v.listas l) ∧
      Atiende (v.pidsEn (.lista l)) (v'.pidsEn (.lista l)) := by
  have hbase := h.base hv.base
  cases h with
  | @despacho ahora l p p' resto n m hl h hp hn hm =>
      have hprimero : p'.pid ∈ pids v.listas l := mem_pids.2 ⟨p, by rw [h]; simp, hp.pid.symm⟩
      have hne : Lista.running ≠ l := by
        rintro rfl
        simp at hl
      refine ⟨l, hl, ⟨p', rfl, hprimero⟩, p.pid, by simp [Vista.pidsEn, pids, h], ?_⟩
      have hcorre : p.pid ∈ pids (agregar (Function.update v.listas l resto) .running p')
          .running := mem_pids.2 ⟨p', by simp, hp.pid⟩
      exact notMem_pids hbase.veces_le hcorre hne
  | concesion h => exact absurd (h.enCpu.symm.trans hantes) (by simp)
  | signal h => exact absurd (h.enCpu.symm.trans hantes) (by simp)
  | muerteCpu h hm hl => exact absurd hl.marco.enCpu hdespues
  | muerteConsola hlista h hp hl => exact absurd (hl.marco.enCpu.trans hantes) hdespues
  | errorIo hi hpet h hp hl => exact absurd (hl.marco.enCpu.trans hantes) hdespues
  | finIo hi hpet h hp hal hi' => exact absurd ((hal.marco h rfl).enCpu.trans hantes) hdespues
  | finDeQuantum h => exact absurd rfl hdespues
  | bloqueoIo h hi hp => exact absurd rfl hdespues
  | bloqueoRecurso h hr hi => exact absurd rfl hdespues
  | _ => exact absurd hantes hdespues

/-- When nobody is in the priority queue, it is the first of READY. -/
theorem Movimiento.atiende_ready {e : Evento} (hv : Filada v) (h : Movimiento v e v')
    (hantes : v.enCpu = none) (hdespues : v'.enCpu ≠ none)
    (hvrr : v.algoritmo = .vrr → v.listas .auxiliar = []) :
    Atiende (v.pidsEn (.lista .ready)) (v'.pidsEn (.lista .ready)) := by
  obtain ⟨l, hl, ⟨p, -, hp⟩, hatiende⟩ := h.reparte hv hantes hdespues
  rcases (Lista.mem_listos l).1 hl with rfl | rfl
  · exact hatiende
  · have hvacia : v.listas .auxiliar = [] := by
      by_cases halg : v.algoritmo = .vrr
      · exact hvrr halg
      · exact hv.auxiliar halg
    simp [pids, hvacia] at hp

/-- As long as a process waits in READY, and whatever the other events of the run are, the CPU is
given at most as often to somebody else as there were processes in front of it. -/
theorem despachos_acotados (h₀ : Transicion.Alcanzable sistema k₀) {x n : ℕ} {es : List Evento}
    (h : Transicion.Corrida ((sistema.contando fun k _ k' => Reparte k k').desde (k₀, 0))
      (fun s _ => x ∈ pids s.1.listas .ready) es (k, n))
    (hx : x ∈ pids k.listas .ready) :
    n + (Fila.delante x (pids k.listas .ready)).length ≤
      (Fila.delante x (pids k₀.listas .ready)).length := by
  refine (Fila.espera_corrida (I := fun k : Nucleo => Filada k.vista)
    (f := fun k : Nucleo => k.vista.pidsEn (.lista .ready)) ?_ ?_ (filada_alcanzable h₀) ?_ h hx).2
  · intro k e k' hk hp
    obtain ⟨hk', hmov⟩ := filada_paso hk hp
    exact ⟨hk', hmov.avanza hk.base hk.ordenada _⟩
  · intro k hk
    exact nodup_pidsEn hk.base hk.ordenada _
  · intro k e k' hk _ hp hr
    obtain ⟨-, hmov⟩ := filada_paso hk hp
    exact hmov.atiende_ready hk hr.1 hr.2.1 hr.2.2

/-- The CPU is given to the first process, and nobody is in front of the second. -/
def primeroCorre : Nucleo × ℕ :=
  mientrasEspera .ready (fun k _ k' => Reparte k k') dosEnReady [.corto 0, .corto 0, .corto 0]
    (by decide +kernel)

theorem despachos_acotados_primeroCorre :
    primeroCorre.2 = 1 ∧
      primeroCorre.2 + (Fila.delante 2 (pids primeroCorre.1.listas .ready)).length ≤
        (Fila.delante 2 (pids dosEnReady.listas .ready)).length :=
  ⟨by decide +kernel, despachos_acotados alcanzable_dosEnReady (corrida_mientrasEspera _)
    (by decide +kernel)⟩

/-! ### The priority queue -/

/-- What the scheduler sends under VRR, when somebody is in the priority queue. -/
theorem proximo_auxiliar {ahora : ℤ} (halg : k.config.algoritmo = .vrr) (hH : Hilada k)
    (haux : k.listas .auxiliar ≠ []) (hp : k.proximo ahora = some p) :
    p.pid ∈ pids k.listas .auxiliar := by
  unfold Nucleo.proximo at hp
  split at hp
  · rename_i hf
    have hrr := hH.quantum hf
    rw [halg] at hrr
    cases hrr
  · simp only [halg, Nucleo.despachado, if_true] at hp
    split at hp
    · rename_i q resto hlista
      cases hp
      exact mem_pids.2 ⟨q, by simp [hlista], rfl⟩
    · contradiction
  · cases hp

/-- Whoever gets the CPU comes from the priority queue, when somebody is there. -/
theorem Avance.auxiliar {e : Evento} {h' : Hilos} (h : Avance k e h') (he : admite k e)
    (hH : Hilada k) (halg : k.config.algoritmo = .vrr) (haux : k.listas .auxiliar ≠ [])
    (hantes : k.enCpu = none) (hp : h'.enCpu = some p) : p.pid ∈ pids k.listas .auxiliar := by
  cases h with
  | despacha hq hlibre hf hrr =>
      cases hp
      exact proximo_auxiliar halg hH haux hq
  | despachaRr hf hq hlibre hn =>
      cases hp
      exact proximo_auxiliar halg hH haux hq
  | reanuda hb hpid hquantum htiempo =>
      -- the CPU only answers when a process was sent to it
      simp [admite, admiteCpu, hantes] at he
  | bloqueoIo => cases hp
  | bloqueoRecurso hb => cases hp
  | sale hb => cases hp
  | _ => exact absurd (hantes.symm.trans hp) (by simp)

/-- The CPU is given to a process. -/
def Despacha (k k' : Nucleo) : Prop := k.enCpu = none ∧ k'.enCpu ≠ none

instance (k k' : Nucleo) : Decidable (Despacha k k') := by
  unfold Despacha
  infer_instance

/-- When somebody is in the priority queue, it is the first of that queue. -/
theorem Despacha.atiende_auxiliar {k k' : Nucleo} {e : Evento} {x : ℕ} (h : Despacha k k')
    (hk : Transicion.Alcanzable sistema k) (hpaso : sistema.paso k e k')
    (hx : x ∈ pids k.listas .auxiliar) :
    Atiende (k.vista.pidsEn (.lista .auxiliar)) (k'.vista.pidsEn (.lista .auxiliar)) := by
  have hF := filada_alcanzable hk
  have haux : k.listas .auxiliar ≠ [] := by
    intro hvacia
    simp [pids, hvacia] at hx
  have halg : k.config.algoritmo = .vrr := by
    by_contra halg
    exact haux (hF.auxiliar halg)
  obtain ⟨-, hmov⟩ := filada_paso hF hpaso
  obtain ⟨l, -, ⟨p, hp, hpl⟩, hatiende⟩ := hmov.reparte hF h.1 h.2
  have hpa : p.pid ∈ pids k.listas .auxiliar :=
    (manejar_avance hF.base hpaso.1 hpaso.2).auxiliar hpaso.1 (hilada_alcanzable hk) halg haux
      h.1 hp
  have hl : l = .auxiliar := by
    by_contra hne
    exact notMem_pids hF.base.veces_le hpa (Ne.symm hne) hpl
  rw [← hl]
  exact hatiende

/-- As long as a process waits in the priority queue, and whatever the other events of the run are,
the CPU is given at most as often, to whomever, as there were processes in front of it: READY does
not get it, however many arrive there. -/
theorem prioridad_acotada (h₀ : Transicion.Alcanzable sistema k₀) {x n : ℕ} {es : List Evento}
    (h : Transicion.Corrida ((sistema.contando fun k _ k' => Despacha k k').desde (k₀, 0))
      (fun s _ => x ∈ pids s.1.listas .auxiliar) es (k, n))
    (hx : x ∈ pids k.listas .auxiliar) :
    n + (Fila.delante x (pids k.listas .auxiliar)).length ≤
      (Fila.delante x (pids k₀.listas .auxiliar)).length := by
  refine (Fila.espera_corrida (I := Transicion.Alcanzable sistema)
    (f := fun k : Nucleo => k.vista.pidsEn (.lista .auxiliar)) ?_ ?_ h₀ ?_ h hx).2
  · intro k e k' hk hp
    have hF := filada_alcanzable hk
    exact ⟨hk.paso trivial hp, (filada_paso hF hp).2.avanza hF.base hF.ordenada _⟩
  · intro k hk
    have hF := filada_alcanzable hk
    exact nodup_pidsEn hF.base hF.ordenada _
  · intro k e k' hk hx hp hd
    exact hd.atiende_auxiliar hk hp hx

/-- Two processes come back from I/O with what is left of their quantum. -/
def dosConPrioridad : Nucleo :=
  correr (fun _ _ => True) ⟨.vrr, 10, 3, []⟩
    (.conexionIo "GEN" 1 :: dosAdmitidos ++
      [.corto 0, .corto 0, .corto 0,
        .cpu { pid := 1, pc := 1, quantum := 10, estado := .exec } (.io "GEN" .genSleep) 4,
        .corto 5, .corto 5, .corto 5, .corto 5,
        .cpu { pid := 2, pc := 1, quantum := 10, estado := .exec, tiempoInicial := 5 }
          (.io "GEN" .genSleep) 7,
        .interfaz "GEN" ⟨1, .genSleep⟩ .finIo, .interfaz "GEN" ⟨2, .genSleep⟩ .finIo])
    (by decide +kernel)

/-- The CPU is given to the first one, and nobody is in front of the second. -/
def primeroVuelve : Nucleo × ℕ :=
  mientrasEspera .auxiliar (fun k _ k' => Despacha k k') dosConPrioridad
    [.corto 8, .corto 8, .corto 8, .corto 8] (by decide +kernel)

theorem prioridad_acotada_primeroVuelve :
    primeroVuelve.2 = 1 ∧
      primeroVuelve.2 + (Fila.delante 2 (pids primeroVuelve.1.listas .auxiliar)).length ≤
        (Fila.delante 2 (pids dosConPrioridad.listas .auxiliar)).length :=
  ⟨by decide +kernel, prioridad_acotada (alcanzable_correr _).alcanzable
    (corrida_mientrasEspera _) (by decide +kernel)⟩

end Kernel
