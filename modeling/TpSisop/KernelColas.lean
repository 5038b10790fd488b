/-
**The queues of the resources and the requests to the interfaces.**

A process in BLOCKED waits for a resource or for an interface.  In every reachable state the queue
of a resource holds the processes in BLOCKED that wait for it, each once, and a request to an
interface is about a process that waits for no resource, or that is dead; and unless the
configuration starts a resource below zero, its queue covers the instances it lacks.  While a
process that is about to end gives its resources back it is in no list, and it may still be in the
queue of the resource it waited for: the invariant has it in hand.

Main definitions:

* `Kernel.Encolados` — the queues of the resources, with the processes in hand;
* `Kernel.pedidos`, `Kernel.Pedidos` — the requests about a process that the interfaces have;
* `Kernel.Ordenada` — both;
* `Kernel.Saldada` — the queues cover the instances that are lacking.

Main results:

* `Kernel.Incremento.encolados`, `Kernel.Liberacion.encolados` — giving instances back;
* `Kernel.Movimiento.ordenada`, `Kernel.Movimiento.saldada` — every movement keeps the invariants;
* `Kernel.ordenada_alcanzable` — the queues and the requests are in order in every state.
-/

import TpSisop.KernelRefinamiento

set_option relaxedAutoImplicit false
set_option autoImplicit false

namespace Kernel

open Familia (agregar peso)
open Coleccion (Diccionario)

variable {v v' w : Vista} {p q : Pcb} {mano : List Pcb}

/-! ### The queues of the resources -/

/-- A process waits for a resource only in BLOCKED, and while it lives it has taken resources that
exist. -/
structure Pcb.EnRegla (d : Diccionario Recurso) (l : Lista) (p : Pcb) : Prop where
  esperando : l ≠ .blocked → p.recursoEsperando = none
  tomados : l ≠ .exit → ∀ t ∈ p.recursosTomados, d.valor t ≠ none

/-- The queues of the resources hold the waiting processes of BLOCKED, and maybe the ones of `mano`,
which are in no list. -/
structure Encolados (mano : List Pcb) (v : Vista) : Prop where
  enCola : ∀ {n r x}, v.recursos.valor n = some r → x ∈ r.bloqueados →
    ∃ p ∈ v.listas .blocked ++ mano, p.pid = x ∧ p.recursoEsperando = some n
  esperando : ∀ {p n}, p ∈ v.listas .blocked → p.recursoEsperando = some n →
    ∃ r, v.recursos.valor n = some r ∧ p.pid ∈ r.bloqueados
  nodup : ∀ {n r}, v.recursos.valor n = some r → r.bloqueados.Nodup
  id : ∀ {n r}, v.recursos.valor n = some r → r.id = idRecurso n
  enRegla : ∀ {l p}, p ∈ v.listas l → p.EnRegla v.recursos l

/-- Another value for a resource that exists breaks no rule. -/
theorem Pcb.EnRegla.poner {d : Diccionario Recurso} {l : Lista} (h : p.EnRegla d l) (n : String)
    (r : Recurso) : p.EnRegla (d.poner n r) l := by
  refine ⟨h.esperando, fun hl t ht => ?_⟩
  by_cases htn : t = n
  · simp [htn]
  · simpa [htn] using h.tomados hl t ht

/-- Only lists change, and the processes that wait stay in BLOCKED or in hand. -/
theorem Encolados.conListas {mano' : List Pcb} (hE : Encolados mano v)
    (hrec : v'.recursos = v.recursos)
    (hquedan : ∀ p ∈ v.listas .blocked ++ mano, ∀ n, p.recursoEsperando = some n →
      v.recursos.valor n ≠ none → p ∈ v'.listas .blocked ++ mano')
    (hviejos : ∀ p ∈ v'.listas .blocked, p.recursoEsperando ≠ none → p ∈ v.listas .blocked)
    (hregla : ∀ l, ∀ p ∈ v'.listas l, p.EnRegla v.recursos l) : Encolados mano' v' where
  enCola h hx := by
    rw [hrec] at h
    obtain ⟨p, hp, hpid, he⟩ := hE.enCola h hx
    exact ⟨p, hquedan p hp _ he (by simp [h]), hpid, he⟩
  esperando hp he := by
    rw [hrec]
    exact hE.esperando (hviejos _ hp (by simp [he])) he
  nodup h := hE.nodup (hrec ▸ h)
  id h := hE.id (hrec ▸ h)
  enRegla hp := by
    rw [hrec]
    exact hregla _ _ hp

/-- One resource changes, and with it the processes that wait for it. -/
theorem Encolados.cambiar {mano' : List Pcb} (hE : Encolados mano v) {n : String} {r r' : Recurso}
    (hr : v.recursos.valor n = some r) (hrec : v'.recursos = v.recursos.poner n r')
    (hid : r'.id = r.id) (hnodup : r'.bloqueados.Nodup)
    (hcola : ∀ x ∈ r'.bloqueados,
      ∃ p ∈ v'.listas .blocked ++ mano', p.pid = x ∧ p.recursoEsperando = some n)
    (hquedan : ∀ p ∈ v.listas .blocked ++ mano, p.recursoEsperando ≠ some n →
      p ∈ v'.listas .blocked ++ mano')
    (hesp : ∀ p ∈ v'.listas .blocked, p.recursoEsperando = some n → p.pid ∈ r'.bloqueados)
    (hviejos : ∀ p ∈ v'.listas .blocked, p.recursoEsperando ≠ some n → p ∈ v.listas .blocked)
    (hregla : ∀ l, ∀ p ∈ v'.listas l, p.EnRegla v.recursos l) : Encolados mano' v' := by
  -- what holds of the changed resource and of every other one holds of all
  have hcaso : ∀ {P : String → Recurso → Prop}, P n r' →
      (∀ m s, m ≠ n → v.recursos.valor m = some s → P m s) →
      ∀ {m s}, v'.recursos.valor m = some s → P m s := by
    intro P hn hotros m s hs
    rw [hrec] at hs
    rcases Diccionario.poner_eq_some hs with ⟨rfl, rfl⟩ | ⟨hm, hs⟩
    · exact hn
    · exact hotros m s hm hs
  constructor
  · intro m s x hs
    refine hcaso (P := fun m s => x ∈ s.bloqueados →
      ∃ p ∈ v'.listas .blocked ++ mano', p.pid = x ∧ p.recursoEsperando = some m) (hcola x) ?_ hs
    intro m s hm hs hx
    obtain ⟨p, hp, hpid, he⟩ := hE.enCola hs hx
    exact ⟨p, hquedan p hp (by simpa [he] using hm), hpid, he⟩
  · intro p m hp he
    by_cases hm : m = n
    · subst hm
      exact ⟨r', by simp [hrec], hesp p hp he⟩
    · obtain ⟨s, hs, hx⟩ := hE.esperando (hviejos p hp (by simpa [he] using hm)) he
      exact ⟨s, by simpa [hrec, hm] using hs, hx⟩
  · exact hcaso hnodup fun m s _ hs => hE.nodup hs
  · exact hcaso (P := fun m s => s.id = idRecurso m) (hid.trans (hE.id hr))
      fun m s _ hs => hE.id hs
  · intro l p hp
    rw [hrec]
    exact (hregla l p hp).poner n r'

/-- The instances of a resource say nothing about who is in its queue. -/
theorem Encolados.conInstancias (hE : Encolados mano v) {n : String} {r : Recurso}
    (hr : v.recursos.valor n = some r) (i : ℤ) :
    Encolados mano (v.ponerRecurso n { r with instancias := i }) := by
  have hnodup := hE.nodup hr
  refine hE.cambiar hr rfl rfl hnodup (fun x hx => hE.enCola hr hx) (fun p hp _ => hp)
    ?_ (fun p hp _ => hp) (fun l p hp => hE.enRegla hp)
  intro p hp he
  obtain ⟨s, hs, hx⟩ := hE.esperando hp he
  obtain rfl : r = s := by simpa [hr] using hs
  exact hx

/-! ### Giving instances back -/

/-- How many times the end of a process gives a resource back. -/
def Pcb.devoluciones (p : Pcb) (n : String) : ℕ :=
  p.recursosTomados.countP fun t => idRecurso t = n

section

variable {n : String} (hE : Encolados mano v) (hu : ∀ x, veces v.listas x ≤ 1)
  (hmano : ∀ p ∈ mano, veces v.listas p.pid = 0)

include hE hu hmano

/-- A process of BLOCKED that is in a queue waits for that resource. -/
theorem Encolados.espera {r : Recurso} (hr : v.recursos.valor n = some r)
    (hp : p ∈ v.listas .blocked) (hx : p.pid ∈ r.bloqueados) : p.recursoEsperando = some n := by
  obtain ⟨q, hq, hpid, he⟩ := hE.enCola hr hx
  rcases List.mem_append.1 hq with hq | hq
  · rwa [(eq_of_pid (hu p.pid) hp hq hpid).2] at he
  · exact absurd hpid.symm (veces_eq_zero.1 (hmano q hq) .blocked p hp)

theorem Incremento.encolados (h : Incremento v n v') : Encolados mano v' := by
  cases h with
  | ausente h => exact hE
  | libre hr hi => exact hE.conInstancias hr _
  | @huerfano r pid cola hr hi hq hb =>
      have hnodup := hE.nodup hr
      rw [hq] at hnodup
      refine hE.cambiar hr rfl rfl hnodup.of_cons ?_
        (fun p hp _ => hp) ?_ (fun p hp _ => hp) (fun l p hp => hE.enRegla hp)
      · intro x hx
        exact hE.enCola hr (by simp [hq, hx])
      · intro p hp he
        obtain ⟨s, hs, hx⟩ := hE.esperando hp he
        obtain rfl : r = s := by simpa [hr] using hs
        rw [hq] at hx
        exact List.mem_of_ne_of_mem (hb p hp) hx
  | @entrega r cola a b p _ hr hi hq hb hal =>
      have hp : p ∈ v.listas .blocked := by simp [hb]
      have hpe := hE.espera hu hmano hr hp (by simp [hq])
      have hnodup := hE.nodup hr
      rw [hq, List.nodup_cons] at hnodup
      -- whoever else is in BLOCKED is another process
      have hotro : ∀ q ∈ a ++ b, q.pid ≠ p.pid := by
        have := veces_eq_zero.1 (veces_quitar_eq_zero (hu p.pid) hb) .blocked
        rwa [Function.update_self] at this
      cases hal with
      | @mk l e hl hvrr =>
          have hne : l ≠ .blocked := by
            rintro rfl
            simp at hl
          have hbl : ∀ q, q ∈ agregar (Function.update v.listas .blocked (a ++ b)) l
              { p.otorgar n with estado := e } .blocked ↔ q ∈ a ++ b := by
            simp [hne.symm]
          have hmem : ∀ q, q ∈ v.listas .blocked ↔ q = p ∨ q ∈ a ++ b := by
            intro q
            rw [hb]
            simp only [List.mem_append, List.mem_cons]
            tauto
          refine hE.cambiar hr rfl rfl hnodup.2 ?_ ?_ ?_ ?_ ?_
          · intro x hx
            obtain ⟨q, hq', hpid, he⟩ := hE.enCola hr (x := x) (by simp [hq, hx])
            refine ⟨q, ?_, hpid, he⟩
            rw [List.mem_append] at hq' ⊢
            refine hq'.imp_left fun h => (hbl q).2 (((hmem q).1 h).resolve_left ?_)
            rintro rfl
            exact hnodup.1 (hpid ▸ hx)
          · intro q hq' he
            rw [List.mem_append] at hq' ⊢
            refine hq'.imp_left fun h => (hbl q).2 (((hmem q).1 h).resolve_left ?_)
            rintro rfl
            exact he hpe
          · intro q hq' he
            replace hq' := (hbl q).1 hq'
            obtain ⟨s, hs, hx⟩ := hE.esperando ((hmem q).2 (.inr hq')) he
            obtain rfl : r = s := by simpa [hr] using hs
            rw [hq] at hx
            exact List.mem_of_ne_of_mem (hotro q hq') hx
          · intro q hq' he
            exact (hmem q).2 (.inr ((hbl q).1 hq'))
          · intro m q hq'
            rcases Familia.mem_agregar.1 hq' with hq' | ⟨rfl, rfl⟩
            · exact hE.enRegla (Familia.mem_of_quitar hb hq')
            · refine ⟨fun _ => rfl, fun _ t ht => ?_⟩
              rcases List.mem_append.1 ht with ht | ht
              · exact (hE.enRegla hp).tomados (by decide) t ht
              · rw [List.mem_singleton.1 ht, hr]
                simp

end

theorem Devolucion.encolados {ts : List String} (h : Devolucion v ts v') (hE : Encolados mano v)
    (hu : ∀ x, veces v.listas x ≤ 1) (hmano : ∀ p ∈ mano, veces v.listas p.pid = 0) :
    Encolados mano v' := by
  induction h with
  | nil v => exact hE
  | cons hr hi _ ih =>
      have hv := hi.marco.veces
      exact ih (hi.encolados hE hu hmano) (fun x => by rw [hv]; exact hu x)
        (fun p hp => by rw [hv]; exact hmano p hp)

/-- A process that was in no list leaves the queue it was in. -/
theorem Liberacion.encolados (h : Liberacion v p v') (hE : Encolados [p] v)
    (hu : ∀ x, veces v.listas x ≤ 1) (hp : veces v.listas p.pid = 0) : Encolados [] v' := by
  -- the process in hand waits for nothing that exists, or it is taken out of its queue
  have hmano : ∀ {v₁ : Vista}, ∀ q ∈ v₁.listas .blocked ++ [p],
      q ∈ v₁.listas .blocked ++ [] ∨ q = p := by
    intro v₁ q hq
    simpa using hq
  cases h with
  | suelto hd he =>
      have hE₁ := hd.encolados hE hu (by simpa using hp)
      refine hE₁.conListas rfl ?_ (fun q hq _ => hq) (fun l q hq => hE₁.enRegla hq)
      intro q hq n hqe _
      refine (hmano q hq).resolve_right ?_
      rintro rfl
      simp [he] at hqe
  | @esperando v₁ n hd he =>
      have hE₁ := hd.encolados hE hu (by simpa using hp)
      have hp₁ : veces v₁.listas p.pid = 0 := (hd.marco.veces _).trans hp
      have hotro := veces_eq_zero.1 hp₁ .blocked
      unfold Vista.retirar
      cases hr : v₁.recursos.valor n with
      | none =>
          refine hE₁.conListas rfl ?_ (fun q hq _ => hq) (fun l q hq => hE₁.enRegla hq)
          intro q hq m hqe hm
          refine (hmano q hq).resolve_right ?_
          rintro rfl
          obtain rfl : n = m := by simpa [he] using hqe
          exact hm hr
      | some r =>
          have hnodup := hE₁.nodup hr
          refine hE₁.cambiar hr rfl rfl (hnodup.erase _) ?_ ?_ ?_ (fun q hq _ => hq)
            (fun l q hq => hE₁.enRegla hq)
          · intro x hx
            obtain ⟨hne, hx⟩ := hnodup.mem_erase_iff.1 hx
            obtain ⟨q, hq, hpid, hqe⟩ := hE₁.enCola hr hx
            refine ⟨q, (hmano q hq).resolve_right ?_, hpid, hqe⟩
            rintro rfl
            exact hne hpid.symm
          · intro q hq hqe
            refine (hmano q hq).resolve_right ?_
            rintro rfl
            exact hqe he
          · intro q hq hqe
            obtain ⟨s, hs, hx⟩ := hE₁.esperando hq hqe
            obtain rfl : r = s := by simpa [hr] using hs
            exact hnodup.mem_erase_iff.2 ⟨hotro q hq, hx⟩

/-- A process goes from its list to the hand of who ends it, who may have its registers anew. -/
theorem Encolados.tomar (hE : Encolados [] v) {l : Lista} {a b : List Pcb}
    (h : v.listas l = a ++ q :: b) (hp : l = .blocked → p = q) (hrec : w.recursos = v.recursos)
    (hw : w.listas = Function.update v.listas l (a ++ b)) : Encolados [p] w := by
  refine hE.conListas hrec ?_ ?_ ?_
  · intro r hr n he _
    rw [List.append_nil] at hr
    rw [hw, List.mem_append, List.mem_singleton]
    by_cases hl : l = .blocked
    · subst hl
      rw [h] at hr
      simp only [Function.update_self, List.mem_append, List.mem_cons, hp rfl] at hr ⊢
      tauto
    · rw [Function.update_of_ne (Ne.symm hl)]
      exact .inl hr
  · intro r hr _
    rw [hw] at hr
    exact Familia.mem_of_quitar h hr
  · intro m r hr
    rw [hw] at hr
    exact hE.enRegla (Familia.mem_of_quitar h hr)

theorem Encolados.salir (hE : Encolados [] v) (p : Pcb) : Encolados [] (v.salir p) := by
  have hbl : (v.salir p).listas .blocked = v.listas .blocked := by simp [Vista.salir]
  refine hE.conListas rfl (fun q hq n _ _ => by rwa [hbl]) (fun q hq _ => by rwa [hbl] at hq) ?_
  intro l q hq
  rcases Familia.mem_agregar.1 hq with hq | ⟨rfl, rfl⟩
  · exact hE.enRegla hq
  · exact ⟨fun _ => rfl, fun h => absurd rfl h⟩

/-- A process that waits for no resource goes from one list to another. -/
theorem Encolados.mover (hE : Encolados [] v) {l m : Lista} {a b : List Pcb}
    (h : v.listas l = a ++ q :: b) (hrec : v'.recursos = v.recursos)
    (hw : v'.listas = agregar (Function.update v.listas l (a ++ b)) m p) (hl : l ≠ .exit)
    (hq : q.recursoEsperando = none) (hp : p.Mismo q) : Encolados [] v' := by
  have hq' : q ∈ v.listas l := by simp [h]
  refine hE.conListas hrec ?_ ?_ ?_
  · intro r hr n he _
    rw [List.append_nil] at hr ⊢
    rw [hw, Familia.mem_agregar]
    refine .inl (Familia.mem_quitar h hr ?_)
    rintro rfl
    simp [hq] at he
  · intro r hr hne
    rw [hw] at hr
    rcases Familia.mem_agregar.1 hr with hr | ⟨-, rfl⟩
    · exact Familia.mem_of_quitar h hr
    · exact absurd (hp.recursoEsperando.trans hq) hne
  · intro l' r hr
    rw [hw] at hr
    rcases Familia.mem_agregar.1 hr with hr | ⟨-, rfl⟩
    · exact hE.enRegla (Familia.mem_of_quitar h hr)
    · refine ⟨fun _ => hp.recursoEsperando.trans hq, fun _ t ht => ?_⟩
      exact (hE.enRegla hq').tomados hl t (hp.recursosTomados ▸ ht)

/-- A process that was taken out of its list is in none, and the others are in theirs. -/
theorem Base.enMano (hB : Base v) {l : Lista} {a b : List Pcb} (h : v.listas l = a ++ q :: b)
    (hpid : q.pid = p.pid) (hw : w.listas = Function.update v.listas l (a ++ b)) :
    veces w.listas p.pid = 0 ∧ ∀ x, veces w.listas x ≤ 1 := by
  rw [hw, ← hpid]
  refine ⟨hB.veces_quitar h, fun x => ?_⟩
  have h₁ := hB.veces_le x
  have h₂ := Kernel.veces_quitar h x
  omega

/-- A process dies: it gives everything back and goes to EXIT. -/
theorem Encolados.muerte (hE : Encolados [] v) (hB : Base v) {l : Lista} {a b : List Pcb}
    (hl : Liberacion w p v') (h : v.listas l = a ++ q :: b) (hpid : q.pid = p.pid)
    (hp : l = .blocked → p = q) (hrec : w.recursos = v.recursos)
    (hw : w.listas = Function.update v.listas l (a ++ b)) : Encolados [] (v'.salir p) := by
  obtain ⟨hp₀, hu⟩ := hB.enMano h hpid hw
  exact (hl.encolados (hE.tomar h hp hrec hw) hu hp₀).salir p

/-! ### The requests to the interfaces -/

/-- The requests about a process that an interface has, on its socket or in its queue. -/
def Interfaz.pedidos (i : Interfaz) (x : ℕ) : ℕ :=
  i.enviadas.countP (fun pet => pet.pid = x) + i.listaBloqueados.countP (fun io => io.pcb = some x)

/-- The requests about a process that the interfaces have. -/
def pedidos (d : Diccionario Interfaz) (x : ℕ) : ℕ :=
  peso (fun i => i.pedidos x) d.claves fun n => (d.valor n).toList

section

variable {d : Diccionario Interfaz} {n : String} {i i' : Interfaz}

theorem toList_poner (d : Diccionario Interfaz) (n : String) (i : Interfaz) :
    (fun m => ((d.poner n i).valor m).toList)
      = Function.update (fun m => (d.valor m).toList) n [i] := by
  funext m
  by_cases hm : m = n
  · subst hm
    simp
  · simp [hm]

theorem pedidos_poner (h : d.valor n = some i) (i' : Interfaz) (x : ℕ) :
    pedidos (d.poner n i') x + i.pedidos x = pedidos d x + i'.pedidos x := by
  have hne : d.valor n ≠ none := by simp [h]
  have := Familia.peso_update (f := fun i => i.pedidos x) (L := fun m => (d.valor m).toList)
    d.nodup (d.mem_claves.2 hne) [i']
  unfold pedidos
  rw [toList_poner, Diccionario.poner_claves hne]
  simpa [h] using this

/-- An interface that is new has no requests. -/
theorem pedidos_poner_nueva (h : d.valor n = none) (hi : ∀ x, i.pedidos x = 0) (x : ℕ) :
    pedidos (d.poner n i) x = pedidos d x := by
  have hn : n ∉ d.claves := by simp [d.mem_claves, h]
  unfold pedidos
  rw [toList_poner, show (d.poner n i).claves = d.claves ++ [n] from if_neg hn,
    Familia.peso_append, Familia.peso_update_of_notMem hn]
  simp [hi]

theorem pedidos_le (h : d.valor n = some i) (x : ℕ) : i.pedidos x ≤ pedidos d x :=
  Familia.le_peso (f := fun j : Interfaz => j.pedidos x) (l := n)
    (d.mem_claves.2 (by simp [h])) (by simp [h])

end

/-- The answer to a request takes it off the socket. -/
theorem Interfaz.pedidos_erase {i : Interfaz} {pet : PeticionIo} (h : pet ∈ i.enviadas) (x : ℕ) :
    ({ i with enviadas := i.enviadas.erase pet } : Interfaz).pedidos x
      + (if pet.pid = x then 1 else 0) = i.pedidos x := by
  have hp := (List.perm_cons_erase h).countP_eq fun pet => pet.pid = x
  rw [List.countP_cons] at hp
  unfold Interfaz.pedidos
  split
  · simp_all
    omega
  · simp_all

/-- What is sent again was in the queue. -/
theorem Reenviada.pedidos_le {i i' : Interfaz} (h : Reenviada i i') (x : ℕ) :
    i'.pedidos x ≤ i.pedidos x := by
  cases h with
  | ninguna h => exact le_rfl
  | descartada h =>
      simp only [Interfaz.pedidos, h, List.countP_cons]
      omega
  | enviada operacion h hp =>
      simp only [Interfaz.pedidos, h, List.countP_cons, List.countP_append, List.countP_nil, hp,
        decide_eq_true_eq, Option.some.injEq]
      omega

theorem Reenviada.cola {i i' : Interfaz} (h : Reenviada i i') {io : IoPcb}
    (hio : io ∈ i'.listaBloqueados) : io ∈ i.listaBloqueados := by
  cases h with
  | ninguna h => exact hio
  | descartada h => exact h ▸ List.mem_cons_of_mem _ hio
  | enviada operacion h hp => exact h ▸ List.mem_cons_of_mem _ hio

/-- A queued request is about the process whose request was refused, if it is in BLOCKED. -/
theorem Interfaz.pedidos_encolar (i : Interfaz) (pet : PeticionIo) (l : List Pcb) (x : ℕ) :
    ({ i with listaBloqueados := i.listaBloqueados ++
      [⟨(l.find? fun p => p.pid == pet.pid).map Pcb.pid, pet.operacion⟩] } : Interfaz).pedidos x
      ≤ i.pedidos x + if pet.pid = x then 1 else 0 := by
  simp only [Interfaz.pedidos, List.countP_append, List.countP_cons, List.countP_nil,
    decide_eq_true_eq]
  cases hf : l.find? fun p => p.pid == pet.pid with
  | none => simp
  | some p =>
      have hp : p.pid = pet.pid := by simpa using List.find?_some hf
      simp [hp]
      omega

section

variable {d : Diccionario Interfaz} {n : String} {i i' : Interfaz} {pet : PeticionIo}
  (hi : d.valor n = some i)

include hi

theorem pedidos_enviada (pet : PeticionIo) (x : ℕ) :
    pedidos (d.poner n { i with enviadas := i.enviadas ++ [pet] }) x
      = pedidos d x + if pet.pid = x then 1 else 0 := by
  have := pedidos_poner hi { i with enviadas := i.enviadas ++ [pet] } x
  simp only [Interfaz.pedidos, List.countP_append, List.countP_cons, List.countP_nil,
    decide_eq_true_eq] at this
  omega

theorem pedidos_contestada (hpet : pet ∈ i.enviadas) (x : ℕ) :
    pedidos (d.poner n { i with enviadas := i.enviadas.erase pet }) x
      + (if pet.pid = x then 1 else 0) = pedidos d x := by
  have h₁ := pedidos_poner hi { i with enviadas := i.enviadas.erase pet } x
  have h₂ := Interfaz.pedidos_erase hpet x
  omega

theorem pedidos_encolada (hpet : pet ∈ i.enviadas) (l : List Pcb) (x : ℕ) :
    pedidos (d.poner n { i with
      enviadas := i.enviadas.erase pet
      listaBloqueados := i.listaBloqueados ++
        [⟨(l.find? fun p => p.pid == pet.pid).map Pcb.pid, pet.operacion⟩] }) x ≤ pedidos d x := by
  have h₁ := pedidos_poner hi { i with
    enviadas := i.enviadas.erase pet
    listaBloqueados := i.listaBloqueados ++
      [⟨(l.find? fun p => p.pid == pet.pid).map Pcb.pid, pet.operacion⟩] } x
  have h₂ := Interfaz.pedidos_erase hpet x
  have h₃ := Interfaz.pedidos_encolar { i with enviadas := i.enviadas.erase pet } pet l x
  simp only at h₃
  omega

theorem pedidos_reenviada (hpet : pet ∈ i.enviadas)
    (hi' : Reenviada { i with enviadas := i.enviadas.erase pet } i') (x : ℕ) :
    pedidos (d.poner n i') x + (if pet.pid = x then 1 else 0) ≤ pedidos d x := by
  have h₁ := pedidos_poner hi i' x
  have h₂ := Interfaz.pedidos_erase hpet x
  have h₃ := hi'.pedidos_le x
  omega

end

/-- The interface has a request it can answer. -/
theorem pedidos_pos {d : Diccionario Interfaz} {n : String} {i : Interfaz} {pet : PeticionIo}
    (h : d.valor n = some i) (hpet : pet ∈ i.enviadas) : 0 < pedidos d pet.pid := by
  have h₁ := pedidos_le h pet.pid
  have h₂ := Interfaz.pedidos_erase hpet pet.pid
  rw [if_pos rfl] at h₂
  omega

/-- A process of BLOCKED that waits for no resource, or one that is dead. -/
def Quieto (L : Lista → List Pcb) (x : ℕ) : Prop :=
  ∃ p, p.pid = x ∧ (p ∈ L .blocked ∧ p.recursoEsperando = none ∨ p ∈ L .exit)

section

variable {L L' : Lista → List Pcb} {x : ℕ} {l : Lista}

theorem Quieto.mono (h : Quieto L x)
    (hb : ∀ p ∈ L .blocked, p.recursoEsperando = none → p ∈ L' .blocked)
    (he : ∀ p ∈ L .exit, p ∈ L' .exit) : Quieto L' x := by
  obtain ⟨p, hp, h | h⟩ := h
  · exact ⟨p, hp, .inl ⟨hb p h.1 h.2, h.2⟩⟩
  · exact ⟨p, hp, .inr (he p h)⟩

/-- Whatever process the lists hold, it is the only one. -/
theorem Quieto.lista (h : Quieto L p.pid) (hu : veces L p.pid ≤ 1) (hp : p ∈ L l) :
    l = .blocked ∧ p.recursoEsperando = none ∨ l = .exit := by
  obtain ⟨q, hq, h | h⟩ := h
  · obtain ⟨rfl, rfl⟩ := eq_of_pid hu hp h.1 hq
    exact .inl ⟨rfl, h.2⟩
  · obtain ⟨rfl, rfl⟩ := eq_of_pid hu hp h hq
    exact .inr rfl

theorem Quieto.quitar {a b : List Pcb} (h : Quieto L x) (hl : L l = a ++ q :: b) (hx : x ≠ q.pid) :
    Quieto (Function.update L l (a ++ b)) x := by
  obtain ⟨p, hp, h⟩ := h
  have hne : p ≠ q := by
    rintro rfl
    exact hx hp.symm
  exact ⟨p, hp, h.imp (fun h => ⟨Familia.mem_quitar hl h.1 hne, h.2⟩)
    fun h => Familia.mem_quitar hl h hne⟩

theorem Quieto.agregar (h : Quieto L x) (l : Lista) (p : Pcb) :
    Quieto (Familia.agregar L l p) x :=
  h.mono (fun _ hq _ => Familia.mem_agregar.2 (.inl hq)) fun _ hq => Familia.mem_agregar.2 (.inl hq)

end

/-- To give an instance back moves only a process that waits for it. -/
theorem Incremento.quieto {n : String} {x : ℕ} (h : Incremento v n v') (hE : Encolados mano v)
    (hu : ∀ x, veces v.listas x ≤ 1) (hmano : ∀ p ∈ mano, veces v.listas p.pid = 0)
    (hx : Quieto v.listas x) : Quieto v'.listas x := by
  cases h with
  | ausente h => exact hx
  | libre hr hi => exact hx
  | huerfano hr hi hq hb => exact hx
  | @entrega r cola a b p _ hr hi hq hb hal =>
      have hp : p ∈ v.listas .blocked := by simp [hb]
      have hpe := hE.espera hu hmano hr hp (by simp [hq])
      have hne : x ≠ p.pid := by
        rintro rfl
        rcases hx.lista (hu _) hp with h | h
        · simp [h.2] at hpe
        · cases h
      cases hal with
      | mk hl hvrr => exact (hx.quitar hb hne).agregar _ _

theorem Devolucion.quieto {ts : List String} {x : ℕ} (h : Devolucion v ts v')
    (hE : Encolados mano v) (hu : ∀ x, veces v.listas x ≤ 1)
    (hmano : ∀ p ∈ mano, veces v.listas p.pid = 0) (hx : Quieto v.listas x) :
    Quieto v'.listas x := by
  induction h with
  | nil v => exact hx
  | cons hr hi _ ih =>
      have hv := hi.marco.veces
      exact ih (hi.encolados hE hu hmano) (fun x => by rw [hv]; exact hu x)
        (fun p hp => by rw [hv]; exact hmano p hp) (hi.quieto hE hu hmano hx)

theorem Liberacion.quieto {x : ℕ} (h : Liberacion v p v') (hE : Encolados [p] v)
    (hu : ∀ x, veces v.listas x ≤ 1) (hp : veces v.listas p.pid = 0) (hx : Quieto v.listas x) :
    Quieto v'.listas x := by
  cases h with
  | suelto hd h => exact hd.quieto hE hu (by simpa using hp) hx
  | @esperando v₁ n hd h =>
      have h₁ := hd.quieto hE hu (by simpa using hp) hx
      unfold Vista.retirar
      cases v₁.recursos.valor n with
      | none => exact h₁
      | some r => exact h₁

/-- An interface has at most one request about a process, which waits for it or is dead. -/
structure Pedidos (v : Vista) : Prop where
  uno : ∀ x, pedidos v.interfaces x ≤ 1
  quieto : ∀ x, 0 < pedidos v.interfaces x → Quieto v.listas x

/-- The queues of the resources and the requests to the interfaces are in order. -/
structure Ordenada (v : Vista) : Prop where
  encolados : Encolados [] v
  pedidos : Pedidos v

/-! ### The invariant -/

theorem Corre.mismo (hc : Corre v q p) : p.Mismo q := by
  rw [← hc.devuelto]
  exact ⟨rfl, rfl, rfl⟩

/-- The running process waits for nothing. -/
theorem Encolados.corre (hE : Encolados mano v) (hc : Corre v q p) : q.recursoEsperando = none :=
  (hE.enRegla (l := .running) (by simp [hc.running])).esperando (by decide)

/-- The running process, given back by the CPU, takes its own place. -/
theorem Encolados.correr (hE : Encolados [] v)
    (hq : p.recursoEsperando = none) (ht : ∀ t ∈ p.recursosTomados, v.recursos.valor t ≠ none)
    (hrec : v'.recursos = v.recursos) (hw : v'.listas = Function.update v.listas .running [p]) :
    Encolados [] v' := by
  have hbl : v'.listas .blocked = v.listas .blocked := by simp [hw]
  refine hE.conListas hrec (fun r hr n _ _ => by rwa [hbl]) (fun r hr _ => by rwa [hbl] at hr) ?_
  intro l r hr
  rw [hw] at hr
  by_cases hl : l = .running
  · subst hl
    rw [Function.update_self, List.mem_singleton] at hr
    subst hr
    exact ⟨fun _ => hq, fun _ => ht⟩
  · rw [Function.update_of_ne hl] at hr
    exact hE.enRegla hr

/-- The running process waits for a resource: it goes to BLOCKED and to the end of the queue. -/
theorem Encolados.encolar (hE : Encolados [] v) (hB : Base v) (hc : Corre v q p) {n : String}
    {r r' : Recurso} (hr : v.recursos.valor n = some r) (hrec : v'.recursos = v.recursos.poner n r')
    (hid : r'.id = r.id) (hcola : r'.bloqueados = r.bloqueados ++ [p.pid])
    (hl : v'.listas = agregar (Function.update v.listas .running []) .blocked
      { p with recursoEsperando := some n, estado := .blocked }) : Encolados [] v' := by
  have hm := hc.mismo
  have hq : q ∈ v.listas .running := by simp [hc.running]
  have hbl : ∀ s, s ∈ v'.listas .blocked ↔ s ∈ v.listas .blocked ∨
      s = { p with recursoEsperando := some n, estado := .blocked } := by
    simp [hl]
  -- the running process is in no queue yet
  have hnuevo : p.pid ∉ r.bloqueados := by
    intro hx
    obtain ⟨s, hs, hpid, -⟩ := hE.enCola hr hx
    rw [List.append_nil] at hs
    cases (eq_of_pid (hB.veces_le _) hq hs (hpid.trans hm.pid)).1
  refine hE.cambiar hr hrec hid ?_ ?_ ?_ ?_ ?_ ?_
  · rw [hcola]
    exact (hE.nodup hr).append (List.nodup_singleton _) (List.disjoint_singleton.2 hnuevo)
  · intro x hx
    rw [List.append_nil]
    rw [hcola] at hx
    rcases List.mem_append.1 hx with hx | hx
    · obtain ⟨s, hs, hpid, he⟩ := hE.enCola hr hx
      rw [List.append_nil] at hs
      exact ⟨s, (hbl s).2 (.inl hs), hpid, he⟩
    · exact ⟨_, (hbl _).2 (.inr rfl), (List.mem_singleton.1 hx).symm, rfl⟩
  · intro s hs he
    rw [List.append_nil] at hs ⊢
    exact (hbl s).2 (.inl hs)
  · intro s hs he
    rw [hcola]
    rcases (hbl s).1 hs with hs | rfl
    · obtain ⟨r', hr', hx⟩ := hE.esperando hs he
      obtain rfl : r = r' := by simpa [hr] using hr'
      exact List.mem_append_left _ hx
    · simp
  · intro s hs he
    rcases (hbl s).1 hs with hs | rfl
    · exact hs
    · exact absurd rfl he
  · intro l s hs
    rw [hl] at hs
    rcases Familia.mem_agregar.1 hs with hs | ⟨rfl, rfl⟩
    · exact hE.enRegla (Familia.mem_of_quitar (a := []) (b := []) hc.running hs)
    · refine ⟨fun hne => absurd rfl hne, fun _ t ht => ?_⟩
      exact (hE.enRegla hq).tomados (by decide) t (hm.recursosTomados ▸ ht)

/-- A process about which an interface has a request waits for no resource. -/
theorem Pedidos.espera (hP : Pedidos v) (hB : Base v) {n : String} {i : Interfaz} {pet : PeticionIo}
    (hi : v.interfaces.valor n = some i) (hpet : pet ∈ i.enviadas) (hp : p ∈ v.listas .blocked)
    (hpid : p.pid = pet.pid) : p.recursoEsperando = none := by
  have hq : Quieto v.listas p.pid := hP.quieto _ (hpid ▸ pedidos_pos hi hpet)
  rcases hq.lista (hB.veces_le _) hp with h | h
  · exact h.2
  · cases h

/-- A movement keeps the queues of the resources. -/
theorem Movimiento.encolados {e : Evento} (hB : Base v) (hE : Encolados [] v) (hP : Pedidos v)
    (h : Movimiento v e v') : Encolados [] v' := by
  have hcopia : ∀ {w : Vista}, w.recursos = v.recursos → w.listas = v.listas → Encolados [] w := by
    intro w hrec hl
    exact hE.conListas hrec (fun q hq n _ _ => by rwa [hl]) (fun q hq _ => by rwa [hl] at hq)
      (fun l q hq => by rw [hl] at hq; exact hE.enRegla hq)
  cases h with
  | quieto => exact hE
  | pasadaVacia hn hm hrr hfifo hvrr => exact hcopia rfl rfl
  | ioOcupada hi hpet => exact hcopia rfl rfl
  | conexionIo h => exact hcopia rfl rfl
  | creacion =>
      refine hE.conListas rfl (fun q hq n _ _ => by simpa using hq)
        (fun q hq _ => by simpa using hq) ?_
      intro l q hq
      rcases Familia.mem_agregar.1 hq with hq | ⟨-, rfl⟩
      · exact hE.enRegla hq
      · exact ⟨fun _ => rfl, fun _ t ht => by cases ht⟩
  | @admision p new h =>
      have hp := (hE.enRegla (l := .new) (p := p) (by simp [h])).esperando (by decide)
      exact hE.mover (a := []) h rfl rfl (by decide) hp ⟨rfl, rfl, rfl⟩
  | @despacho ahora l p p' resto n m hl h hp hn hm =>
      have hne : l ≠ .blocked ∧ l ≠ .exit := by
        constructor <;> rintro rfl <;> simp at hl
      have he := (hE.enRegla (l := l) (p := p) (by simp [h])).esperando hne.1
      exact hE.mover (a := []) h rfl rfl hne.2 he hp.toMismo
  | finDeQuantum h =>
      have hm := h.mismo
      exact hE.mover (a := []) (b := []) h.running rfl rfl (by decide) (hE.corre h)
        ⟨hm.pid, hm.recursosTomados, hm.recursoEsperando⟩
  | bloqueoIo h hi hp =>
      have hm := h.mismo
      exact hE.mover (a := []) (b := []) h.running rfl rfl (by decide) (hE.corre h)
        ⟨hp.pid.trans hm.pid, hp.recursosTomados.trans hm.recursosTomados,
          hp.recursoEsperando.trans hm.recursoEsperando⟩
  | bloqueoRecurso h hr hi => exact hE.encolar hB h hr rfl rfl rfl rfl
  | @concesion q p p' recurso r ahora h hr hi hp =>
      have hm := h.mismo
      have hE₁ := hE.conInstancias hr (r.instancias - 1)
      have hq := hE₁.enRegla (l := .running) (p := q) (by simp [Vista.ponerRecurso, h.running])
      refine hE₁.correr ?_ ?_ rfl rfl
      · rw [hp]
        exact hm.recursoEsperando.trans (hE.corre h)
      · intro t ht
        rw [hp, List.mem_append, List.mem_singleton, hm.recursosTomados] at ht
        rcases ht with ht | rfl
        · exact hq.tomados (by decide) t ht
        · simp [Vista.ponerRecurso]
  | @signal q p p' recurso ahora v₁ h hr hi hp =>
      have hm := h.mismo
      have hE₀ : Encolados [] { v with enCpu := none } := hcopia rfl rfl
      have hE₁ := hi.encolados hE₀ hB.veces_le (by simp)
      have hrun : v₁.listas .running = [q] :=
        (hi.marco.listas .running (by simp) (by simp)).trans h.running
      have hq := hE₁.enRegla (l := .running) (p := q) (by simp [hrun])
      refine hE₁.correr ?_ ?_ rfl rfl
      · rw [hp]
        exact hm.recursoEsperando.trans (hE.corre h)
      · intro t ht
        rw [hp] at ht
        exact hq.tomados (by decide) t (hm.recursosTomados ▸ List.mem_of_mem_erase ht)
  | @muerteCpu q p m ahora v₁ h hterm hl =>
      have hE₁ := hE.muerte (a := []) (b := []) hB hl h.running h.pid (by simp) rfl rfl
      exact hE₁.conListas rfl (fun q hq n _ _ => hq) (fun q hq _ => hq)
        (fun l q hq => hE₁.enRegla hq)
  | muerteConsola hlista h hp hl => exact hE.muerte hB hl h rfl (fun _ => rfl) rfl rfl
  | errorIo hi hpet h hp hl => exact hE.muerte hB hl h rfl (fun _ => rfl) rfl rfl
  | @finIo nombre pet i i' a b p v₁ hi hpet h hp hal hi' =>
      have he := hP.espera hB hi hpet (p := p) (by simp [h]) hp
      cases hal with
      | mk hl hvrr => exact hE.mover h rfl rfl (by decide) he ⟨rfl, rfl, rfl⟩

/-- Whoever dies is dead, and nobody else is moved but processes that wait for a resource. -/
theorem Quieto.muerte {x : ℕ} (hx : Quieto v.listas x) (hE : Encolados [] v) (hB : Base v)
    {l : Lista} {a b : List Pcb} (hl : Liberacion w p v') (h : v.listas l = a ++ q :: b)
    (hpid : q.pid = p.pid) (hp : l = .blocked → p = q) (hrec : w.recursos = v.recursos)
    (hw : w.listas = Function.update v.listas l (a ++ b)) : Quieto (v'.salir p).listas x := by
  by_cases hxp : x = p.pid
  · exact ⟨{ p with recursoEsperando := none, estado := .exitt }, hxp.symm,
      .inr (by simp [Vista.salir])⟩
  · obtain ⟨hp₀, hu⟩ := hB.enMano h hpid hw
    have hxw : Quieto w.listas x := hw ▸ hx.quitar h (hpid ▸ hxp)
    exact (hl.quieto (hE.tomar h hp hrec hw) hu hp₀ hxw).agregar _ _

/-- A movement keeps the requests to the interfaces. -/
theorem Movimiento.pedidos {e : Evento} (hB : Base v) (hE : Encolados [] v) (hP : Pedidos v)
    (h : Movimiento v e v') : Pedidos v' := by
  -- the interfaces stay, and so do the processes that are dead or wait for one
  have hmono : ∀ {w : Vista}, w.interfaces = v.interfaces →
      (∀ x, Quieto v.listas x → Quieto w.listas x) → Pedidos w := by
    intro w hi hq
    exact ⟨fun x => hi ▸ hP.uno x, fun x hx => hq x (hP.quieto x (hi ▸ hx))⟩
  cases h with
  | quieto => exact hP
  | pasadaVacia hn hm hrr hfifo hvrr => exact hmono rfl fun x hx => hx
  | creacion => exact hmono rfl fun x hx => hx.agregar _ _
  | admision h => exact hmono rfl fun x hx => hx.mono (by simp +contextual) (by simp)
  | @despacho ahora l p p' resto n m hl h hp hn hm =>
      rcases (Lista.mem_listos l).1 hl with rfl | rfl
      · exact hmono rfl fun x hx => hx.mono (by simp +contextual) (by simp)
      · exact hmono rfl fun x hx => hx.mono (by simp +contextual) (by simp)
  | finDeQuantum h => exact hmono rfl fun x hx => hx.mono (by simp +contextual) (by simp)
  | @bloqueoIo q p p' nombre operacion ahora i h hi hp =>
      have hm := h.mismo
      have hq : q ∈ v.listas .running := by simp [h.running]
      have hcero : Kernel.pedidos v.interfaces p.pid = 0 := by
        by_contra hne
        have := (hP.quieto _ (Nat.pos_of_ne_zero hne))
        rw [hm.pid] at this
        rcases this.lista (hB.veces_le _) hq with h | h
        · cases h.1
        · cases h
      have hped := pedidos_enviada hi ⟨p.pid, operacion⟩
      refine ⟨fun x => ?_, fun x hx => ?_⟩
      · have := hP.uno x
        simp only [hped]
        split
        · rename_i hx
          rw [← hx, hcero]
        · omega
      · simp only [hped] at hx
        by_cases hxp : p.pid = x
        · exact ⟨p', hp.pid.trans hxp, .inl ⟨by simp,
            (hp.recursoEsperando.trans hm.recursoEsperando).trans (hE.corre h)⟩⟩
        · rw [if_neg hxp] at hx
          exact (hP.quieto x hx).mono (by simp +contextual) (by simp)
  | bloqueoRecurso h hr hi =>
      exact hmono rfl fun x hx => hx.mono (by simp +contextual) (by simp)
  | concesion h hr hi hp => exact hmono rfl fun x hx => hx.mono (by simp +contextual) (by simp)
  | @signal q p p' recurso ahora v₁ h hr hi hp =>
      have hE₀ : Encolados [] { v with enCpu := none } :=
        ⟨hE.enCola, hE.esperando, hE.nodup, hE.id, hE.enRegla⟩
      refine hmono hi.marco.interfaces fun x hx => ?_
      exact (hi.quieto hE₀ hB.veces_le (by simp) hx).mono (by simp +contextual) (by simp)
  | muerteCpu h hterm hl =>
      exact hmono hl.marco.interfaces fun x hx =>
        hx.muerte (a := []) (b := []) hE hB hl h.running h.pid (by simp) rfl rfl
  | muerteConsola hlista h hp hl =>
      exact hmono hl.marco.interfaces fun x hx => hx.muerte hE hB hl h rfl (fun _ => rfl) rfl rfl
  | @errorIo nombre pet i a b p v₁ hi hpet h hp hl =>
      have hint : (v₁.salir p).interfaces
          = v.interfaces.poner nombre { i with enviadas := i.enviadas.erase pet } :=
        hl.marco.interfaces
      have hle : ∀ x, Kernel.pedidos (v₁.salir p).interfaces x ≤ Kernel.pedidos v.interfaces x := by
        intro x
        have := pedidos_contestada hi hpet x
        rw [hint]
        omega
      refine ⟨fun x => (hle x).trans (hP.uno x), fun x hx => ?_⟩
      exact (hP.quieto x (hx.trans_le (hle x))).muerte hE hB hl h rfl (fun _ => rfl) rfl rfl
  | @ioOcupada nombre pet i hi hpet =>
      have hle := pedidos_encolada hi hpet (v.listas .blocked)
      exact ⟨fun x => (hle x).trans (hP.uno x), fun x hx => hP.quieto x (hx.trans_le (hle x))⟩
  | @finIo nombre pet i i' a b p v₁ hi hpet h hp hal hi' =>
      have hint : v₁.interfaces = v.interfaces := (hal.marco h rfl).interfaces
      have hle : ∀ x, Kernel.pedidos (v₁.ponerInterfaz nombre i').interfaces x
          + (if pet.pid = x then 1 else 0) ≤ Kernel.pedidos v.interfaces x := by
        intro x
        simp only [Vista.ponerInterfaz, hint]
        exact pedidos_reenviada hi hpet hi' x
      refine ⟨fun x => ?_, fun x hx => ?_⟩
      · have := hP.uno x
        have := hle x
        omega
      · have huno := hP.uno x
        have hle := hle x
        have hne : x ≠ p.pid := by
          rintro rfl
          rw [if_pos hp.symm] at hle
          omega
        have hq := (hP.quieto x (by omega)).quitar h hne
        cases hal with
        | mk hl hvrr => exact hq.agregar _ _
  | @conexionIo nombre tipoInterfaz h =>
      have hped := pedidos_poner_nueva (i := { tipoInterfaz := tipoInterfaz }) h fun x => rfl
      refine ⟨fun x => ?_, fun x hx => hP.quieto x ?_⟩
      · exact (hped x).trans_le (hP.uno x)
      · exact hx.trans_eq (hped x)

/-- A movement keeps the queues and the requests in order. -/
theorem Movimiento.ordenada {e : Evento} (hB : Base v) (hO : Ordenada v) (h : Movimiento v e v') :
    Ordenada v' :=
  ⟨h.encolados hB hO.encolados hO.pedidos, h.pedidos hB hO.encolados hO.pedidos⟩

theorem recursosInit_valor {recursos : List (String × ℤ)} {n : String} {r : Recurso}
    (h : (recursosInit recursos).valor n = some r) : r.id = idRecurso n ∧ r.bloqueados = [] := by
  have hfold : ∀ (rs : List (String × ℤ)) (d : Diccionario Recurso),
      (∀ n r, d.valor n = some r → r.id = idRecurso n ∧ r.bloqueados = []) →
      ∀ n r, (rs.foldl (fun d r => d.poner r.1 { id := idRecurso r.1, instancias := r.2 })
        d).valor n = some r → r.id = idRecurso n ∧ r.bloqueados = [] := by
    intro rs
    induction rs with
    | nil => exact fun d hd => hd
    | cons s rs ih =>
        intro d hd
        refine ih _ fun n r hr => ?_
        rcases Diccionario.poner_eq_some hr with ⟨rfl, rfl⟩ | ⟨-, hr⟩
        · exact ⟨rfl, rfl⟩
        · exact hd n r hr
  exact hfold recursos .vacio (by simp) n r h

theorem ordenada_iniciar (config : Config) : Ordenada (iniciar config).vista where
  encolados := by
    constructor
    · intro n r x hr hx
      rw [(recursosInit_valor hr).2] at hx
      cases hx
    · intro p n hp
      cases hp
    · intro n r hr
      rw [(recursosInit_valor hr).2]
      exact List.nodup_nil
    · exact fun hr => (recursosInit_valor hr).1
    · intro l p hp
      cases hp
  pedidos := ⟨fun x => Nat.zero_le 1, fun x hx => by cases hx⟩

/-- In every state the queues of the resources and the requests to the interfaces are in order. -/
theorem ordenada_alcanzable {k : Nucleo} (h : Transicion.Alcanzable sistema k) :
    Base k.vista ∧ Ordenada k.vista :=
  invariante_vista (C := fun _ _ => True) ordenada_iniciar
    (fun _ _ _ hB hO _ hm => hm.ordenada hB hO) h

/-! ### The instances that are lacking -/

/-- A resource is not configured with instances below zero. -/
def NoNegativo (recursos : List (String × ℤ)) (n : String) : Prop :=
  ∀ r ∈ (recursosInit recursos).valor n, 0 ≤ r.instancias

instance (recursos : List (String × ℤ)) (n : String) : Decidable (NoNegativo recursos n) := by
  dsimp only [NoNegativo]
  infer_instance

section

variable {m n : String}

/-- The queue of a resource covers the instances it lacks. -/
def Saldada (v : Vista) (n : String) : Prop :=
  ∀ r, v.recursos.valor n = some r → 0 ≤ r.instancias + r.bloqueados.length

theorem Saldada.poner {r : Recurso} (hS : Saldada v n)
    (hr : m = n → 0 ≤ r.instancias + r.bloqueados.length) : Saldada (v.ponerRecurso m r) n := by
  intro s hs
  rcases Diccionario.poner_eq_some hs with ⟨rfl, rfl⟩ | ⟨-, hs⟩
  · exact hr rfl
  · exact hS s hs

theorem Incremento.saldada (h : Incremento v m v') (hS : Saldada v n) : Saldada v' n := by
  cases h with
  | ausente h => exact hS
  | libre hr hi => exact hS.poner fun hm => by simp only; omega
  | @huerfano r pid cola hr hi hq hb =>
      refine hS.poner fun hm => ?_
      have := hS r (hm ▸ hr)
      rw [hq, List.length_cons] at this
      push_cast at this ⊢
      omega
  | @entrega r cola a b p _ hr hi hq hb hal =>
      have hS' : Saldada (v.ponerRecurso m
          { r with instancias := r.instancias + 1, bloqueados := cola }) n := by
        refine hS.poner fun hm => ?_
        have := hS r (hm ▸ hr)
        rw [hq, List.length_cons] at this
        push_cast at this ⊢
        omega
      cases hal with
      | mk hl hvrr => exact hS'

theorem Devolucion.saldada {ts : List String} (h : Devolucion v ts v') (hS : Saldada v n) :
    Saldada v' n := by
  induction h with
  | nil v => exact hS
  | cons hr hi _ ih => exact ih (hi.saldada hS)

theorem Liberacion.saldada (h : Liberacion v p v') (hS : Saldada v n) : Saldada v' n := by
  cases h with
  | suelto hd h => exact hd.saldada hS
  | @esperando v₁ m hd h =>
      have hS₁ := hd.saldada hS
      unfold Vista.retirar
      cases hr : v₁.recursos.valor m with
      | none => exact hS₁
      | some r =>
          refine hS₁.poner fun hm => ?_
          have := hS₁ r (hm ▸ hr)
          rw [List.length_erase]
          split <;> simp only <;> omega

theorem Movimiento.saldada {e : Evento} (hS : Saldada v n) (h : Movimiento v e v') :
    Saldada v' n := by
  cases h with
  | @bloqueoRecurso q p recurso r ahora h hr hi =>
      refine Saldada.poner (v := v) (m := recurso) hS fun hm => ?_
      have := hS r (hm ▸ hr)
      simp only [List.length_append, List.length_singleton]
      omega
  | @concesion q p p' recurso r ahora h hr hi hp =>
      exact Saldada.poner (v := v) (m := recurso) hS fun _ => by simp only; omega
  | @signal q p p' recurso ahora v₁ h hr hi hp =>
      have hS₁ : Saldada v₁ n := hi.saldada hS
      exact hS₁
  | @muerteCpu q p m ahora v₁ h hterm hl =>
      have hS₁ : Saldada v₁ n := hl.saldada hS
      exact hS₁
  | @muerteConsola pid l a b p v₁ hlista h hp hl =>
      have hS₁ : Saldada v₁ n := hl.saldada hS
      exact hS₁
  | @errorIo nombre pet i a b p v₁ hi hpet h hp hl =>
      have hS₁ : Saldada v₁ n := hl.saldada hS
      exact hS₁
  | finIo hi hpet h hp hal hi' =>
      cases hal with
      | mk hl hvrr => exact hS
  | _ => exact hS

theorem saldada_iniciar {config : Config} (h : NoNegativo config.recursos n) :
    Saldada (iniciar config).vista n := by
  intro r hr
  rw [(recursosInit_valor hr).2]
  simpa using h r hr

end

end Kernel
