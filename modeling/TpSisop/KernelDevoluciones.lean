/-
**What a dead process gives back.**

A process that ends gives its instances back one by one, by the name each resource keeps of itself,
and then leaves the queue it waits in.  An instance that is given back while the count stays at or
below zero calls the first process of the queue, and that one gets it.  So what the whole release
does to a resource depends on how many processes it calls; and it calls the dying process as well,
as long as that is in the queue.

Main definitions:

* `Kernel.Saliente` — a process in hand, and the queues of the resources as the kernel keeps them;
* `Kernel.Reparto` — what is left after some instances of each resource were given back;
* `Kernel.Devuelto` — everything was given back, to those who waited, in their order;
* `Kernel.Devolvible` — names that are not cut, and a queue that is called in order.

Main results:

* `Kernel.Devolucion.reparto` — the loop over what the process took;
* `Kernel.liberarTomados_ok` — when the loop reaches its end;
* `Kernel.devuelto_iff` — exactly when everything is given back;
* `Kernel.saliente_tomar` — the processes the kernel kills meet the assumption.
-/

import TpSisop.KernelExclusion

set_option relaxedAutoImplicit false
set_option autoImplicit false

namespace Kernel

open Coleccion (Diccionario)
open Resultado (bind_eq_ok Cumple)

variable {v v₁ v' : Vista} {k k' : Nucleo} {p q : Pcb} {n m : String} {r : Recurso}

/-! ### A resource -/

namespace Recurso

/-- How many processes are called out of the queue when `c` instances are given back. -/
def llamados (r : Recurso) (c : ℕ) : ℕ := min c (-r.instancias).toNat

/-- The resource after `c` instances were given back, one by one. -/
def tras (r : Recurso) (c : ℕ) : Recurso :=
  { r with instancias := r.instancias + c, bloqueados := r.bloqueados.drop (r.llamados c) }

/-- The processes that `c` instances call are in the queue, and they are as `P` says. -/
def Llama (P : ℕ → Prop) (r : Recurso) (c : ℕ) : Prop :=
  r.llamados c ≤ r.bloqueados.length ∧ ∀ x ∈ r.bloqueados.take (r.llamados c), P x

instance (P : ℕ → Prop) [DecidablePred P] (r : Recurso) (c : ℕ) : Decidable (r.Llama P c) :=
  inferInstanceAs (Decidable (_ ∧ _))

@[simp] theorem llamados_zero (r : Recurso) : r.llamados 0 = 0 := by
  simp [llamados]

@[simp] theorem tras_zero (r : Recurso) : r.tras 0 = r := by
  simp [tras]

theorem llama_zero (P : ℕ → Prop) (r : Recurso) : r.Llama P 0 := by
  simp [Llama]

/-- Instances given back later call those who were left. -/
theorem llamados_add (r : Recurso) (c c' : ℕ) :
    r.llamados (c + c') = r.llamados c + (r.tras c).llamados c' := by
  simp only [llamados, tras]
  omega

theorem tras_tras (r : Recurso) (c c' : ℕ) : (r.tras c).tras c' = r.tras (c + c') := by
  have hl := r.llamados_add c c'
  simp only [tras, mk.injEq, true_and] at hl ⊢
  refine ⟨by push_cast; ring, ?_⟩
  rw [List.drop_drop, hl]

theorem take_llamados_add (r : Recurso) (c c' : ℕ) :
    r.bloqueados.take (r.llamados (c + c'))
      = r.bloqueados.take (r.llamados c)
        ++ (r.tras c).bloqueados.take ((r.tras c).llamados c') := by
  rw [r.llamados_add, List.take_add]
  rfl

theorem llama_add (P : ℕ → Prop) (r : Recurso) (c c' : ℕ) :
    r.Llama P (c + c') ↔ r.Llama P c ∧ (r.tras c).Llama P c' := by
  have hlen : (r.tras c).bloqueados.length = r.bloqueados.length - r.llamados c := by
    simp [tras]
  have hl := r.llamados_add c c'
  unfold Llama
  rw [take_llamados_add]
  constructor
  · rintro ⟨hle, hP⟩
    exact ⟨⟨by omega, fun x hx => hP x (by simp [hx])⟩, by omega, fun x hx => hP x (by simp [hx])⟩
  · rintro ⟨⟨hle, hP⟩, hle', hP'⟩
    refine ⟨by omega, fun x hx => ?_⟩
    rcases List.mem_append.1 hx with hx | hx
    · exact hP x hx
    · exact hP' x hx

end Recurso

/-! ### A process in hand -/

/-- `p` was taken out of its list.  Whoever is in the queue of a resource waits for it, in BLOCKED
or in hand, and no process is twice in one or the other. -/
structure Saliente (v : Vista) (p : Pcb) : Prop where
  espera : ∀ {n r x}, v.recursos.valor n = some r → x ∈ r.bloqueados →
    ∃ q ∈ p :: v.listas .blocked, q.pid = x ∧ q.recursoEsperando = some n
  nodup : ∀ {n r}, v.recursos.valor n = some r → r.bloqueados.Nodup
  id : ∀ {n r}, v.recursos.valor n = some r → r.id = idRecurso n
  pids : ((p :: v.listas .blocked).map Pcb.pid).Nodup

/-- Two PCBs of the same process are one. -/
theorem Saliente.eq_of_pid (hS : Saliente v p) {q q' : Pcb} (hq : q ∈ p :: v.listas .blocked)
    (hq' : q' ∈ p :: v.listas .blocked) (h : q.pid = q'.pid) : q = q' :=
  List.inj_on_of_nodup_map hS.pids hq hq' h

/-- A process of BLOCKED that is in a queue waits for that resource. -/
theorem Saliente.esperando (hS : Saliente v p) (hr : v.recursos.valor n = some r)
    (hq : q ∈ p :: v.listas .blocked) (hx : q.pid ∈ r.bloqueados) :
    q.recursoEsperando = some n := by
  obtain ⟨q', hq', hpid, he⟩ := hS.espera hr hx
  rwa [hS.eq_of_pid hq' hq hpid] at he

/-- No process is in two queues. -/
theorem Saliente.unica (hS : Saliente v p) {r' : Recurso} {x : ℕ}
    (hr : v.recursos.valor n = some r) (hx : x ∈ r.bloqueados)
    (hr' : v.recursos.valor m = some r') (hx' : x ∈ r'.bloqueados) : n = m := by
  obtain ⟨q, hq, rfl, he⟩ := hS.espera hr hx
  exact Option.some.inj (he.symm.trans (hS.esperando hr' hq hx'))

/-! ### Giving some instances back -/

/-- The process was announced to the scheduler. -/
def Vista.Listo (v : Vista) (q : Pcb) : Prop :=
  ∃ l ∈ Lista.listos, ∃ e, { q with estado := e } ∈ v.listas l

/-- `c n` instances of each resource `n` were given back.  The processes that were called and wait
in BLOCKED got one each, and the rest of BLOCKED stays. -/
structure Reparto (v : Vista) (c : String → ℕ) (v' : Vista) : Prop where
  valor : ∀ n, v'.recursos.valor n = (v.recursos.valor n).map fun r => r.tras (c n)
  entregado : ∀ {n r q}, v.recursos.valor n = some r → q ∈ v.listas .blocked →
    q.pid ∈ r.bloqueados.take (r.llamados (c n)) →
    v'.Listo (q.otorgar n) ∧ ∀ q' ∈ v'.listas .blocked, q'.pid ≠ q.pid
  quedan : ∀ {q}, q ∈ v.listas .blocked →
    (∀ n r, v.recursos.valor n = some r → q.pid ∉ r.bloqueados.take (r.llamados (c n))) →
    q ∈ v'.listas .blocked
  viejos : (v'.listas .blocked).Sublist (v.listas .blocked)
  listos : ∀ {q}, v.Listo q → v'.Listo q

variable {c c' : String → ℕ}

theorem Reparto.refl (v : Vista) : Reparto v (fun _ => 0) v where
  valor n := by simp
  entregado hr hq hx := by simp at hx
  quedan hq _ := hq
  viejos := .refl _
  listos h := h

theorem Reparto.valor_some (h : Reparto v c v') (hr : v.recursos.valor n = some r) :
    v'.recursos.valor n = some (r.tras (c n)) := by
  rw [h.valor, hr]
  rfl

/-- A process that waits for one resource is not called by another one. -/
theorem Saliente.no_llamado (hS : Saliente v p) {s : Recurso} {x : ℕ}
    (hr : v.recursos.valor n = some r) (hx : x ∈ r.bloqueados)
    (hno : x ∉ r.bloqueados.take (r.llamados (c n))) (hs : v.recursos.valor m = some s) :
    x ∉ s.bloqueados.take (s.llamados (c m)) := by
  intro h
  obtain rfl := hS.unica hr hx hs (List.mem_of_mem_take h)
  obtain rfl : r = s := by simpa [hr] using hs
  exact hno h

/-- Those who were left in a queue were not called before. -/
theorem Saliente.notMem_take (hS : Saliente v p) {x : ℕ} {i : ℕ}
    (hr : v.recursos.valor n = some r) (hx : x ∈ (r.tras i).bloqueados) :
    x ∉ r.bloqueados.take (r.llamados i) := by
  have hn := hS.nodup hr
  rw [← List.take_append_drop (r.llamados i) r.bloqueados] at hn
  exact fun h => (List.nodup_append.1 hn).2.2 x h x hx rfl

/-- The process in hand may go on giving instances back. -/
theorem Reparto.saliente (h : Reparto v c v') (hS : Saliente v p) : Saliente v' p where
  espera := by
    intro n r' x hr' hx
    rw [h.valor, Option.map_eq_some_iff] at hr'
    obtain ⟨r, hr, rfl⟩ := hr'
    have hmem : x ∈ r.bloqueados := List.mem_of_mem_drop hx
    obtain ⟨q, hq, rfl, he⟩ := hS.espera hr hmem
    refine ⟨q, ?_, rfl, he⟩
    rcases List.mem_cons.1 hq with rfl | hq
    · exact List.mem_cons_self
    · exact List.mem_cons_of_mem _
        (h.quedan hq fun m s hs => hS.no_llamado hr hmem (hS.notMem_take hr hx) hs)
  nodup := by
    intro n r' hr'
    rw [h.valor, Option.map_eq_some_iff] at hr'
    obtain ⟨r, hr, rfl⟩ := hr'
    exact (hS.nodup hr).sublist (List.drop_sublist _ _)
  id := by
    intro n r' hr'
    rw [h.valor, Option.map_eq_some_iff] at hr'
    obtain ⟨r, hr, rfl⟩ := hr'
    exact hS.id (r := r) hr
  pids := hS.pids.sublist ((h.viejos.cons_cons p).map _)

/-- Instances that are given back later. -/
theorem Reparto.trans (h : Reparto v c v₁) (h' : Reparto v₁ c' v') (hS : Saliente v p) :
    Reparto v (fun n => c n + c' n) v' where
  valor n := by
    rw [h'.valor, h.valor, Option.map_map]
    refine congrArg (Option.map · _) (funext fun r => ?_)
    exact r.tras_tras (c n) (c' n)
  entregado := by
    intro n r q hr hq hx
    rw [r.take_llamados_add, List.mem_append] at hx
    rcases hx with hx | hx
    · obtain ⟨hl, hno⟩ := h.entregado hr hq hx
      exact ⟨h'.listos hl, fun q' hq' => hno q' (h'.viejos.subset hq')⟩
    · have hmem := List.mem_of_mem_take hx
      have hq₁ := h.quedan hq fun m s hs =>
        hS.no_llamado hr (List.mem_of_mem_drop hmem) (hS.notMem_take hr hmem) hs
      exact h'.entregado (h.valor_some hr) hq₁ hx
  quedan := by
    intro q hq hno
    refine h'.quedan (h.quedan hq fun n r hr hx => hno n r hr ?_) fun n r₁ hr₁ hx => ?_
    · rw [r.take_llamados_add]
      exact List.mem_append_left _ hx
    · rw [h.valor, Option.map_eq_some_iff] at hr₁
      obtain ⟨r, hr, rfl⟩ := hr₁
      refine hno n r hr ?_
      rw [r.take_llamados_add]
      exact List.mem_append_right _ hx
  viejos := h'.viejos.trans h.viejos
  listos hl := h'.listos (h.listos hl)

/-! ### One instance -/

/-- One instance of `m` and none of the others. -/
def una (m n : String) : ℕ := if m = n then 1 else 0

@[simp] theorem una_self (m : String) : una m m = 1 := if_pos rfl

theorem una_of_ne (h : m ≠ n) : una m n = 0 := if_neg h

/-- A resource changed its count, and its queue if somebody was called who is not in BLOCKED. -/
theorem Reparto.poner (hr : v.recursos.valor m = some r)
    (hno : ∀ q ∈ v.listas .blocked, q.pid ∉ r.bloqueados.take (r.llamados 1)) :
    Reparto v (una m) (v.ponerRecurso m (r.tras 1)) where
  valor := by
    intro n
    show (v.recursos.poner m (r.tras 1)).valor n = _
    by_cases h : n = m
    · subst h
      simp [hr]
    · rw [una_of_ne (Ne.symm h)]
      simp [h]
  entregado := by
    intro n s q hs hq hx
    by_cases h : m = n
    · subst h
      obtain rfl : s = r := by simpa [hr] using hs.symm
      rw [una_self] at hx
      exact absurd hx (hno q hq)
    · simp [una_of_ne h] at hx
  quedan hq _ := hq
  viejos := .refl _
  listos h := h

theorem Recurso.tras_one_of_pos (hi : 0 < r.instancias + 1) :
    r.tras 1 = { r with instancias := r.instancias + 1 } ∧ r.llamados 1 = 0 := by
  have h : r.llamados 1 = 0 := by
    simp only [Recurso.llamados]
    omega
  exact ⟨by simp [Recurso.tras, h], h⟩

theorem Recurso.tras_one_of_cons {x : ℕ} {cola : List ℕ} (hi : r.instancias + 1 ≤ 0)
    (hq : r.bloqueados = x :: cola) :
    r.tras 1 = { r with instancias := r.instancias + 1, bloqueados := cola } ∧
      r.llamados 1 = 1 := by
  have h : r.llamados 1 = 1 := by
    simp only [Recurso.llamados]
    omega
  exact ⟨by simp [Recurso.tras, h, hq], h⟩

/-! What waking a process does to the rest of the view. -/

theorem Alistar.recursos (h : Alistar v q v') : v'.recursos = v.recursos := by
  cases h with
  | mk => rfl

theorem Alistar.blocked (h : Alistar v q v') : v'.listas .blocked = v.listas .blocked := by
  cases h with
  | @mk l e hl =>
      have hne : Lista.blocked ≠ l := by
        rintro rfl
        simp at hl
      exact Familia.agregar_of_ne hne

theorem Alistar.listo (h : Alistar v q v') : v'.Listo q := by
  cases h with
  | mk hl => exact ⟨_, hl, _, Familia.mem_agregar.2 (.inr ⟨rfl, rfl⟩)⟩

/-- Whoever was announced to the scheduler still is. -/
theorem Alistar.listo_mono {q' : Pcb} (h : Alistar v q v') (hl : v.Listo q') : v'.Listo q' := by
  obtain ⟨l, hl, e, hmem⟩ := hl
  cases h with
  | mk => exact ⟨l, hl, e, Familia.mem_agregar.2 (.inl hmem)⟩

theorem Vista.Listo.conBlocked (h : v.Listo q) (m : String) (r : Recurso) (xs : List Pcb) :
    ((v.ponerRecurso m r).conLista .blocked xs).Listo q := by
  obtain ⟨l, hl, e, hmem⟩ := h
  have hne : l ≠ .blocked := by
    rintro rfl
    simp at hl
  refine ⟨l, hl, e, ?_⟩
  simpa [Vista.conLista, Vista.ponerRecurso, hne] using hmem

/-- The process that was called got the instance and is on its way to the scheduler. -/
theorem Reparto.entregar {a b : List Pcb} (hS : Saliente v p) (hr : v.recursos.valor m = some r)
    (hb : v.listas .blocked = a ++ q :: b)
    (hq : r.bloqueados.take (r.llamados 1) = [q.pid])
    (hal : Alistar ((v.ponerRecurso m (r.tras 1)).conLista .blocked (a ++ b)) (q.otorgar m) v') :
    Reparto v (una m) v' := by
  have hq₀ : q ∈ v.listas .blocked := by simp [hb]
  -- whoever else is in BLOCKED is another process
  have hotro : ∀ q' ∈ a ++ b, q'.pid ≠ q.pid := by
    have hn := hS.pids.of_cons
    rw [hb, List.map_append, List.map_cons, List.nodup_middle, List.nodup_cons,
      ← List.map_append] at hn
    exact fun q' hq' he => hn.1 (he ▸ List.mem_map_of_mem hq')
  have hbl : v'.listas .blocked = a ++ b := by
    rw [hal.blocked]
    simp [Vista.conLista]
  refine ⟨?_, ?_, ?_, ?_, fun hl => hal.listo_mono (hl.conBlocked m _ _)⟩
  · intro n
    rw [hal.recursos]
    exact (Reparto.poner (v := { v with listas := fun _ => [] }) hr (by simp)).valor n
  · intro n s q' hs hq' hx
    by_cases h : m = n
    · subst h
      obtain rfl : s = r := by simpa [hr] using hs.symm
      have hx' : q'.pid = q.pid := by simpa [hq] using hx
      obtain rfl : q' = q :=
        hS.eq_of_pid (List.mem_cons_of_mem _ hq') (List.mem_cons_of_mem _ hq₀) hx'
      exact ⟨hal.listo, hbl ▸ hotro⟩
    · simp [una_of_ne h] at hx
  · intro q' hq' hno
    have hne : q' ≠ q := by
      rintro rfl
      exact hno m r hr (by simp [hq])
    rw [hb] at hq'
    rw [hbl]
    simp only [List.mem_append, List.mem_cons] at hq' ⊢
    tauto
  · rw [hbl, hb]
    exact (List.sublist_cons_self q b).append_left a

/-- SIGNAL gives one instance back. -/
theorem Incremento.reparto (h : Incremento v m v') (hS : Saliente v p) :
    Reparto v (una m) v' := by
  cases h with
  | ausente h =>
      refine ⟨fun n => ?_, fun {n r q} hr hq hx => ?_, fun hq _ => hq, .refl _, fun h => h⟩
      · by_cases hn : m = n
        · subst hn
          simp [h]
        · simp [una_of_ne hn]
      · have hn : m ≠ n := by
          rintro rfl
          simp [h] at hr
        simp [una_of_ne hn] at hx
  | libre hr hi =>
      obtain ⟨ht, hl⟩ := Recurso.tras_one_of_pos hi
      rw [← ht]
      exact .poner hr (by simp [hl])
  | huerfano hr hi hq hb =>
      obtain ⟨ht, hl⟩ := Recurso.tras_one_of_cons hi hq
      rw [← ht]
      exact .poner hr (by simpa [hl, hq] using hb)
  | entrega hr hi hq hb hal =>
      obtain ⟨ht, hl⟩ := Recurso.tras_one_of_cons hi hq
      rw [← ht] at hal
      exact .entregar hS hr hb (by simp [hl, hq]) hal

/-- One more name gives one more instance of its resource back. -/
theorem countP_cons_eq_una (t : String) (ts : List String) (n : String) :
    ((t :: ts).countP fun t => idRecurso t = n)
      = una (idRecurso t) n + ts.countP fun t => idRecurso t = n := by
  rw [List.countP_cons, add_comm]
  simp [una]

/-- The loop over what a process took. -/
theorem Devolucion.reparto {ts : List String} (h : Devolucion v ts v') (hS : Saliente v p) :
    Reparto v (fun n => ts.countP fun t => idRecurso t = n) v' ∧ Saliente v' p := by
  induction h with
  | nil v => exact ⟨Reparto.refl v, hS⟩
  | @cons v v₁ v₂ t ts s hs hi hd ih =>
      rw [hS.id hs] at hi
      have h₁ := hi.reparto hS
      obtain ⟨h₂, hS₂⟩ := ih (h₁.saliente hS)
      refine ⟨?_, hS₂⟩
      convert h₁.trans h₂ hS using 2 with n
      exact countP_cons_eq_una t ts n

/-! ### When it reaches its end -/

/-- The process of a queue may be called: it is the one that dies, or the planner runs. -/
def Nucleo.Llamable (k : Nucleo) (p : Pcb) (x : ℕ) : Prop :=
  x = p.pid ∨ 0 < k.sem.planificacion

instance (k : Nucleo) (p : Pcb) : DecidablePred (k.Llamable p) :=
  fun _ => inferInstanceAs (Decidable (_ ∨ _))

theorem alistar_planificacion (k : Nucleo) (p : Pcb) :
    (k.alistar p).sem.planificacion = k.sem.planificacion := by
  unfold Nucleo.alistar
  split <;> rfl

theorem desbloquearProceso_ok {pid : ℕ} (h : ∃ q ∈ k.listas .blocked, q.pid = pid) :
    (∃ k', desbloquearProceso k pid = .ok k') ↔ 0 < k.sem.planificacion := by
  obtain ⟨a, q, b, hl, hp, ha⟩ := exists_split h
  unfold desbloquearProceso
  rw [hl, sacar_append ha hp]
  simp only [bind_eq_ok, exigir_eq_ok, obtenido_eq_ok]
  constructor
  · rintro ⟨_, _, h, -⟩
    exact h
  · intro h
    exact ⟨_, (), h, _, rfl, rfl⟩

theorem recursoIncrementar_planificacion {recurso : String}
    (h : recursoIncrementar k recurso = .ok k') :
    k'.sem.planificacion = k.sem.planificacion := by
  have hregla : Cumple (fun _ => False) (fun k' => k'.sem.planificacion = k.sem.planificacion)
      (recursoIncrementar k recurso) := by
    refine recursoIncrementar_regla False.elim rfl (fun _ => rfl) fun r a p b _ => ?_
    exact (exigir_cumple id).bind fun _ _ _ => (obtenido_cumple False.elim).bind fun _ _ _ =>
      alistar_planificacion ..
  exact hregla.of_eq_ok h

/-- SIGNAL reaches its end unless the queue is too short, or it has to wait for the planner. -/
theorem recursoIncrementar_ok (hS : Saliente k.vista p) (hr : k.recursos.valor m = some r) :
    (∃ k', recursoIncrementar k m = .ok k') ↔ r.Llama (k.Llamable p) 1 := by
  unfold recursoIncrementar
  rw [hr]
  simp only
  split
  · rename_i hi
    cases hq : r.bloqueados with
    | nil =>
        have hl : r.llamados 1 = 1 := by
          simp only [Recurso.llamados]
          omega
        simp [Recurso.Llama, hl, hq]
    | cons x cola =>
        obtain ⟨-, hl⟩ := Recurso.tras_one_of_cons hi hq
        simp only [Recurso.Llama, hl, hq]
        simp only [List.length_cons, Nat.le_add_left, List.take_succ_cons, List.take_zero,
          List.mem_singleton, forall_eq, true_and]
        split
        · rename_i hb
          obtain ⟨q, hq', hx⟩ := hb
          have hne : x ≠ p.pid := by
            rintro rfl
            exact (List.nodup_cons.1 hS.pids).1 (hx ▸ List.mem_map_of_mem hq')
          rw [desbloquearProceso_ok]
          · simp [Nucleo.Llamable, hne, Nucleo.conLista, Nucleo.ponerRecurso]
          · obtain ⟨a, q, b, hl', hp, ha⟩ := exists_split ⟨q, hq', hx⟩
            rw [Nucleo.ponerRecurso_listas] at hl' ⊢
            rw [hl', Coleccion.alterar_append (by simpa using ha) (by simpa using hp)]
            exact ⟨q.otorgar m, by simp [Nucleo.conLista], hp⟩
        · rename_i hb
          obtain ⟨q, hq', hx, -⟩ := hS.espera (x := x) hr (by simp [hq])
          refine iff_of_true ⟨_, rfl⟩ (.inl ?_)
          rcases List.mem_cons.1 hq' with rfl | hq'
          · exact hx.symm
          · exact absurd ⟨q, hq', hx⟩ hb
  · rename_i hi
    obtain ⟨-, hl⟩ := Recurso.tras_one_of_pos (r := r) (by omega)
    simp [Recurso.Llama, hl]

theorem recursoIncrementar_ok_iff (hS : Saliente k.vista p) :
    (∃ k', recursoIncrementar k m = .ok k') ↔
      ∀ n r, k.recursos.valor n = some r → r.Llama (k.Llamable p) (una m n) := by
  cases hr : k.recursos.valor m with
  | none =>
      refine iff_of_true ⟨k, by simp [recursoIncrementar, hr]⟩ fun n r hn => ?_
      have hne : m ≠ n := by
        rintro rfl
        simp [hr] at hn
      rw [una_of_ne hne]
      exact r.llama_zero _
  | some r =>
      rw [recursoIncrementar_ok hS hr]
      constructor
      · intro h n s hs
        by_cases hn : m = n
        · subst hn
          obtain rfl : s = r := by simpa [hr] using hs.symm
          rwa [una_self]
        · rw [una_of_ne hn]
          exact s.llama_zero _
      · intro h
        have := h m r hr
        rwa [una_self] at this

/-- What one instance leaves to those that are given back after it. -/
theorem recursoIncrementar_deja (hS : Saliente k.vista p) (h : recursoIncrementar k m = .ok k') :
    Saliente k'.vista p ∧ k'.Llamable p = k.Llamable p ∧
      ∀ n, k'.recursos.valor n = (k.recursos.valor n).map fun r => r.tras (una m n) := by
  have hrep := (recursoIncrementar_vista h).reparto hS
  refine ⟨hrep.saliente hS, ?_, hrep.valor⟩
  funext x
  rw [Nucleo.Llamable, recursoIncrementar_planificacion h]
  rfl

/-- The loop reaches its end when all the names are known and every call is answered. -/
theorem liberarTomados_ok {ts : List String} (hS : Saliente k.vista p) :
    (∃ k', liberarTomados k ts = .ok k') ↔
      (∀ t ∈ ts, k.recursos.valor t ≠ none) ∧
      ∀ n r, k.recursos.valor n = some r →
        r.Llama (k.Llamable p) (ts.countP fun t => idRecurso t = n) := by
  induction ts generalizing k with
  | nil =>
      refine iff_of_true ⟨k, rfl⟩ ⟨by simp, fun n r _ => ?_⟩
      exact r.llama_zero _
  | cons t ts ih =>
      constructor
      · rintro ⟨k', h⟩
        simp only [liberarTomados, bind_eq_ok, obtenido_eq_ok] at h
        obtain ⟨s, hs, k₁, h₁, h₂⟩ := h
        rw [hS.id hs] at h₁
        obtain ⟨hS₁, hll, hval⟩ := recursoIncrementar_deja hS h₁
        obtain ⟨hex, hllama⟩ := (ih hS₁).1 ⟨k', h₂⟩
        refine ⟨fun t' ht' => ?_, fun n r hr => ?_⟩
        · rcases List.mem_cons.1 ht' with rfl | ht'
          · simp [hs]
          · simpa [hval] using hex t' ht'
        · rw [countP_cons_eq_una, r.llama_add]
          refine ⟨(recursoIncrementar_ok_iff hS).1 ⟨k₁, h₁⟩ n r hr, ?_⟩
          rw [← hll]
          exact hllama n _ (by simp [hval, hr])
      · rintro ⟨hex, hllama⟩
        simp only [countP_cons_eq_una, Recurso.llama_add] at hllama
        obtain ⟨k₁, h₁⟩ := (recursoIncrementar_ok_iff hS).2
          fun n r hr => (hllama n r hr).1
        obtain ⟨s, hs⟩ := Option.ne_none_iff_exists'.1 (hex t (by simp))
        obtain ⟨hS₁, hll, hval⟩ := recursoIncrementar_deja hS h₁
        obtain ⟨k', h'⟩ := (ih hS₁).2 (by
          refine ⟨fun t' ht' => ?_, fun n r₁ hr₁ => ?_⟩
          · simpa [hval] using hex t' (List.mem_cons_of_mem t ht')
          · rw [hval, Option.map_eq_some_iff] at hr₁
            obtain ⟨r, hr, rfl⟩ := hr₁
            rw [hll]
            exact (hllama n r hr).2)
        refine ⟨k', ?_⟩
        simp only [liberarTomados, bind_eq_ok, obtenido_eq_ok]
        exact ⟨s, hs, k₁, hS.id hs ▸ h₁, h'⟩

/-! ### Leaving the queue -/

/-- The end of `liberar_recursos_tomados`. -/
def Nucleo.dejarCola (k : Nucleo) (p : Pcb) : Nucleo :=
  match p.recursoEsperando with
  | none => k
  | some recurso => recursoModificarInstancias2 k recurso p.pid

theorem liberarRecursosTomados_eq_ok :
    liberarRecursosTomados k p = .ok k' ↔
      ∃ k₁, liberarTomados k p.recursosTomados = .ok k₁ ∧ k₁.dejarCola p = k' := by
  rw [liberarRecursosTomados, bind_eq_ok]
  refine exists_congr fun k₁ => and_congr_right fun _ => ?_
  unfold Nucleo.dejarCola
  cases p.recursoEsperando with
  | none => simp
  | some recurso => simp

theorem dejarCola_listas (k : Nucleo) (p : Pcb) : (k.dejarCola p).listas = k.listas := by
  unfold Nucleo.dejarCola recursoModificarInstancias2
  split
  · rfl
  · split <;> rfl

/-- One instance more of the resource it waits for, and it is in no queue any more. -/
theorem Saliente.dejarCola (hS : Saliente k.vista p) (n : String) :
    (k.dejarCola p).recursos.valor n = (k.recursos.valor n).map fun r =>
      { r with
        instancias := r.instancias + if p.recursoEsperando = some n then 1 else 0
        bloqueados := r.bloqueados.erase p.pid } := by
  -- whoever does not wait for a resource is not in its queue
  have hno : p.recursoEsperando ≠ some n → ∀ r, k.recursos.valor n = some r →
      r.bloqueados.erase p.pid = r.bloqueados := by
    intro hne r hr
    refine List.erase_of_not_mem fun hx => hne ?_
    exact hS.esperando hr List.mem_cons_self hx
  have hquieto : p.recursoEsperando ≠ some n → k.recursos.valor n
      = (k.recursos.valor n).map fun r =>
        { r with
          instancias := r.instancias + if p.recursoEsperando = some n then 1 else 0
          bloqueados := r.bloqueados.erase p.pid } := by
    intro hne
    cases hr : k.recursos.valor n with
    | none => rfl
    | some r => simp [hne, hno hne r hr]
  unfold Nucleo.dejarCola
  cases he : p.recursoEsperando with
  | none =>
      simp only [he] at hquieto
      exact hquieto (by simp)
  | some m =>
      simp only [he, ne_eq, Option.some.injEq] at hquieto ⊢
      unfold recursoModificarInstancias2
      split
      · rename_i hr
        by_cases hm : m = n
        · rw [← hm, hr]
          rfl
        · exact hquieto hm
      · rename_i r hr
        by_cases hm : m = n
        · subst hm
          simp [Nucleo.ponerRecurso, hr]
        · rw [← hquieto hm]
          exact Function.update_of_ne (Ne.symm hm) _ _

/-! ### The whole release -/

/-- Everything `p` held was given back.  Each resource counts the instances it held, and one for the
resource it waited for; `p` left the queue; the first of the others got one instance each and are on
their way to the scheduler, and whoever got none is still in BLOCKED. -/
structure Devuelto (k : Nucleo) (p : Pcb) (k' : Nucleo) : Prop where
  recurso : ∀ {n r}, k.recursos.valor n = some r → k'.recursos.valor n = some
    { r with
      instancias := r.instancias + p.recursosTomados.count n
        + if p.recursoEsperando = some n then 1 else 0
      bloqueados := (r.bloqueados.erase p.pid).drop (p.recursosTomados.count n) }
  entregado : ∀ {n r x}, k.recursos.valor n = some r →
    x ∈ (r.bloqueados.erase p.pid).take (p.recursosTomados.count n) →
    ∃ q ∈ k.listas .blocked, q.pid = x ∧ k'.vista.Listo (q.otorgar n) ∧
      ∀ q' ∈ k'.listas .blocked, q'.pid ≠ x
  quedan : ∀ {q}, q ∈ k.listas .blocked →
    (∀ n r, k.recursos.valor n = some r →
      q.pid ∉ (r.bloqueados.erase p.pid).take (p.recursosTomados.count n)) →
    q ∈ k'.listas .blocked

/-- The `c` instances call the whole queue, or only processes before `x`, and as many of them as
wait without `x`. -/
def Recurso.EnOrden (r : Recurso) (x c : ℕ) : Prop :=
  r.llamados c = r.bloqueados.length ∨
    r.llamados c ≤ r.bloqueados.idxOf x ∧ r.llamados c = min c (r.bloqueados.erase x).length

instance (r : Recurso) (x c : ℕ) : Decidable (r.EnOrden x c) :=
  inferInstanceAs (Decidable (_ ∨ _ ∧ _))

/-- Every name `p` holds is the one of a resource, uncut, and giving that resource back calls its
queue in order; it wakes nobody while the planner is stopped. -/
def Devolvible (k : Nucleo) (p : Pcb) : Prop :=
  ∀ n ∈ p.recursosTomados, ∃ r ∈ k.recursos.valor n, idRecurso n = n ∧
    r.EnOrden p.pid (p.recursosTomados.count n) ∧
    ∀ x ∈ r.bloqueados.take (r.llamados (p.recursosTomados.count n)), k.Llamable p x

instance (k : Nucleo) (p : Pcb) : Decidable (Devolvible k p) := by
  dsimp only [Devolvible]
  infer_instance

section

variable {x : ℕ} {i : ℕ}

theorem Recurso.EnOrden.le (h : r.EnOrden x i) : r.llamados i ≤ r.bloqueados.length := by
  rcases h with h | ⟨h, -⟩
  · exact h.le
  · exact h.trans List.idxOf_le_length

/-- What is left of the queue, as the loop leaves it and as it should be. -/
theorem Recurso.enOrden_iff (hn : r.bloqueados.Nodup) (hle : r.llamados i ≤ r.bloqueados.length) :
    (r.tras i).bloqueados.erase x = (r.bloqueados.erase x).drop i ↔ r.EnOrden x i := by
  have hi : r.llamados i ≤ i := Nat.min_le_left _ _
  have hlen : (r.bloqueados.erase x).length ≤ r.bloqueados.length := List.length_erase_le
  constructor
  · intro h
    have hl := congrArg List.length h
    simp only [Recurso.tras, List.length_drop] at hl
    by_cases hx : x ∈ r.bloqueados
    · have hlt := List.idxOf_lt_length_of_mem hx
      have hmem := Coleccion.mem_drop_iff_le_idxOf hn hx (r.llamados i)
      rw [List.length_erase_of_mem hx] at hl
      by_cases hd : r.llamados i ≤ r.bloqueados.idxOf x
      · rw [List.length_erase_of_mem (hmem.2 hd), List.length_drop] at hl
        refine .inr ⟨hd, ?_⟩
        rw [List.length_erase_of_mem hx]
        omega
      · -- it is called itself, and somebody else is left over
        rw [List.erase_of_not_mem fun h => hd (hmem.1 h), List.length_drop] at hl
        exact .inl (by omega)
    · rw [List.erase_of_not_mem hx, List.erase_of_not_mem fun h => hx (List.mem_of_mem_drop h),
        List.length_drop] at hl
      by_cases hd : r.llamados i = r.bloqueados.length
      · exact .inl hd
      · refine .inr ⟨?_, ?_⟩
        · rw [List.idxOf_eq_length hx]
          exact hle
        · rw [List.erase_of_not_mem hx]
          omega
  · rintro (h | ⟨hd, h⟩)
    · rw [List.drop_eq_nil_of_le (by omega)]
      simp [Recurso.tras, h]
    · have hdrop : (r.bloqueados.erase x).drop i = (r.bloqueados.erase x).drop (r.llamados i) := by
        rcases Nat.le_total i (r.bloqueados.erase x).length with hm | hm
        · rw [h, Nat.min_eq_left hm]
        · rw [h, Nat.min_eq_right hm, List.drop_length, List.drop_eq_nil_of_le hm]
      rw [hdrop, Coleccion.drop_erase_of_le_idxOf hd]
      rfl

/-- Who gets an instance, as the loop hands them out and as it should. -/
theorem Recurso.EnOrden.mem_take_iff (h : r.EnOrden x i) (hn : r.bloqueados.Nodup) {y : ℕ} :
    y ∈ (r.bloqueados.erase x).take i ↔ y ≠ x ∧ y ∈ r.bloqueados.take (r.llamados i) := by
  have hi : r.llamados i ≤ i := Nat.min_le_left _ _
  have hlen : (r.bloqueados.erase x).length ≤ r.bloqueados.length := List.length_erase_le
  rcases h with h | ⟨hd, h⟩
  · rw [List.take_of_length_le (by omega), h, List.take_length, hn.mem_erase_iff]
  · have htake : (r.bloqueados.erase x).take i = r.bloqueados.take (r.llamados i) := by
      rw [← Coleccion.take_erase_of_le_idxOf hd]
      rcases Nat.le_total i (r.bloqueados.erase x).length with hm | hm
      · rw [h, Nat.min_eq_left hm]
      · rw [h, Nat.min_eq_right hm, List.take_length, List.take_of_length_le hm]
    rw [htake, iff_and_self]
    rintro hy rfl
    -- the one that leaves stands behind those who are called
    obtain ⟨j, hj, rfl⟩ := List.mem_iff_getElem.1 hy
    rw [List.getElem_take, hn.idxOf_getElem] at hd
    rw [List.length_take] at hj
    omega

end

theorem idRecurso_idRecurso (n : String) : idRecurso (idRecurso n) = idRecurso n := by
  simp [idRecurso, List.take_take]

/-- A list of names gives back each resource as often as it names it exactly when no name is cut. -/
theorem devoluciones_eq_count_iff {ts : List String} {d : Diccionario Recurso}
    (hd : ∀ t ∈ ts, d.valor t ≠ none) :
    (∀ n, d.valor n ≠ none → (ts.countP fun t => idRecurso t = n) = ts.count n) ↔
      ∀ t ∈ ts, idRecurso t = t := by
  constructor
  · intro h t ht
    have hpos : 0 < ts.count t := List.count_pos_iff.2 ht
    rw [← h t (hd t ht), List.countP_pos_iff] at hpos
    obtain ⟨t', -, ht'⟩ := hpos
    have ht' : idRecurso t' = t := by simpa using ht'
    rw [← ht', idRecurso_idRecurso]
  · intro h n _
    refine List.countP_congr fun t ht => ?_
    simp [h t ht]

/-- What the release does to a resource, whatever the names and the queues. -/
theorem liberarRecursosTomados_valor (hS : Saliente k.vista p)
    (h : liberarRecursosTomados k p = .ok k') (hr : k.recursos.valor n = some r) :
    k'.recursos.valor n = some
      { r with
        instancias := r.instancias + p.devoluciones n
          + if p.recursoEsperando = some n then 1 else 0
        bloqueados := (r.tras (p.devoluciones n)).bloqueados.erase p.pid } := by
  obtain ⟨k₁, h₁, rfl⟩ := liberarRecursosTomados_eq_ok.1 h
  obtain ⟨hrep, hS₁⟩ := (liberarTomados_vista h₁).reparto hS
  have hr₁ : k₁.recursos.valor n = some (r.tras (p.devoluciones n)) := hrep.valor_some hr
  rw [hS₁.dejarCola, hr₁]
  rfl

theorem Devolvible.existe (hC : Devolvible k p) :
    ∀ t ∈ p.recursosTomados, k.recursos.valor t ≠ none := by
  intro t ht
  obtain ⟨r, hr, -⟩ := hC t ht
  rw [Option.mem_def.1 hr]
  exact Option.some_ne_none r

theorem Devolvible.devoluciones (hC : Devolvible k p) (hr : k.recursos.valor n = some r) :
    p.devoluciones n = p.recursosTomados.count n := by
  refine (devoluciones_eq_count_iff hC.existe).2 (fun t ht => ?_) n (by simp [hr])
  obtain ⟨r, -, hid, -⟩ := hC t ht
  exact hid

/-- Every resource calls its queue in order: one that it does not hold calls nobody. -/
theorem Devolvible.enOrden (hC : Devolvible k p) (hr : k.recursos.valor n = some r) :
    r.EnOrden p.pid (p.recursosTomados.count n) ∧
      r.Llama (k.Llamable p) (p.recursosTomados.count n) := by
  by_cases hn : n ∈ p.recursosTomados
  · obtain ⟨s, hs, -, ho, hll⟩ := hC n hn
    obtain rfl : r = s := by simpa [hr] using hs
    exact ⟨ho, ho.le, hll⟩
  · rw [List.count_eq_zero_of_not_mem hn]
    exact ⟨.inr (by simp), r.llama_zero _⟩

/-- The release gives everything back. -/
theorem Devolvible.devuelto (hC : Devolvible k p) (hS : Saliente k.vista p) :
    ∃ k', liberarRecursosTomados k p = .ok k' ∧ Devuelto k p k' := by
  obtain ⟨k₁, h₁⟩ := (liberarTomados_ok hS).2 ⟨hC.existe, fun n r hr => by
    have := (hC.enOrden hr).2
    rwa [← hC.devoluciones hr] at this⟩
  obtain ⟨hrep, hS₁⟩ := (liberarTomados_vista h₁).reparto hS
  have h : liberarRecursosTomados k p = .ok (k₁.dejarCola p) :=
    liberarRecursosTomados_eq_ok.2 ⟨k₁, h₁, rfl⟩
  have hlistas : (k₁.dejarCola p).vista.listas = k₁.vista.listas := dejarCola_listas k₁ p
  refine ⟨_, h, ⟨?_, ?_, ?_⟩⟩
  · intro n r hr
    have ho := (hC.enOrden hr).1
    rw [liberarRecursosTomados_valor hS h hr, hC.devoluciones hr,
      (Recurso.enOrden_iff (hS.nodup hr) ho.le).2 ho]
  · intro n r x hr hx
    obtain ⟨hne, hx⟩ := ((hC.enOrden hr).1.mem_take_iff (hS.nodup hr)).1 hx
    obtain ⟨q, hq, rfl, -⟩ := hS.espera hr (List.mem_of_mem_take hx)
    have hq : q ∈ k.listas .blocked := by
      rcases List.mem_cons.1 hq with rfl | hq
      · exact absurd rfl hne
      · exact hq
    rw [← hC.devoluciones hr] at hx
    obtain ⟨hlisto, hno⟩ := hrep.entregado hr hq hx
    refine ⟨q, hq, rfl, ?_, ?_⟩
    · unfold Vista.Listo
      rwa [hlistas]
    · rw [dejarCola_listas]
      exact hno
  · intro q hq hno
    rw [dejarCola_listas]
    refine hrep.quedan hq fun n r hr hx => hno n r hr ?_
    have hc : (p.recursosTomados.countP fun t => idRecurso t = n) = _ := hC.devoluciones hr
    rw [hc] at hx
    refine ((hC.enOrden hr).1.mem_take_iff (hS.nodup hr)).2 ⟨?_, hx⟩
    intro he
    exact (List.nodup_cons.1 hS.pids).1 (he ▸ List.mem_map_of_mem hq)

/-! ### The processes the kernel ends -/

/-- A process that leaves its list meets the assumption, and RUNNING does not matter. -/
theorem Encolados.saliente {w : Vista} {l : Lista} {a b : List Pcb} (hE : Encolados [] v)
    (hB : Base v) (h : v.listas l = a ++ q :: b) (hm : p.Mismo q)
    (hrec : w.recursos = v.recursos)
    (hw : w.listas .blocked = Function.update v.listas l (a ++ b) .blocked) : Saliente w p where
  espera := by
    intro n r x hr hx
    rw [hrec] at hr
    obtain ⟨q', hq', hpid, he⟩ := hE.enCola hr hx
    rw [List.append_nil] at hq'
    rw [hw]
    by_cases hqq : q' = q
    · subst hqq
      exact ⟨p, List.mem_cons_self, hm.pid.trans hpid, hm.recursoEsperando.trans he⟩
    · exact ⟨q', List.mem_cons_of_mem _ (Familia.mem_quitar h hq' hqq), hpid, he⟩
  nodup hr := hE.nodup (hrec ▸ hr)
  id hr := hE.id (hrec ▸ hr)
  pids := by
    obtain ⟨hp₀, hu⟩ := hB.enMano (w := { v with listas := Function.update v.listas l (a ++ b) }) h
      hm.pid.symm rfl
    rw [hw, List.map_cons, List.nodup_cons]
    refine ⟨fun hmem => ?_, nodup_pids hu .blocked⟩
    obtain ⟨q', hq', hpid⟩ := List.mem_map.1 hmem
    exact veces_eq_zero.1 hp₀ .blocked q' hq' hpid

/-- In every state of a run, whichever process is taken out of its list. -/
theorem saliente_tomar {l : Lista} {a b : List Pcb} (h : Transicion.Alcanzable sistema k)
    (hl : k.listas l = a ++ q :: b) (hm : p.Mismo q) :
    Saliente (k.conLista l (a ++ b)).vista p := by
  obtain ⟨hB, hO⟩ := ordenada_alcanzable h
  exact hO.encolados.saliente hB hl hm rfl rfl

/-- The release gives everything back exactly when no name is cut and every queue is called in
order. -/
theorem devuelto_iff (hS : Saliente k.vista p) :
    (∃ k', liberarRecursosTomados k p = .ok k' ∧ Devuelto k p k') ↔ Devolvible k p := by
  constructor
  · rintro ⟨k', h, hd⟩
    obtain ⟨k₁, h₁, -⟩ := liberarRecursosTomados_eq_ok.1 h
    obtain ⟨hex, hllama⟩ := (liberarTomados_ok hS).1 ⟨k₁, h₁⟩
    -- the resources tell how many times each was given back
    have hfinal : ∀ n r, k.recursos.valor n = some r →
        p.devoluciones n = p.recursosTomados.count n ∧
        (r.tras (p.devoluciones n)).bloqueados.erase p.pid
          = (r.bloqueados.erase p.pid).drop (p.recursosTomados.count n) := by
      intro n r hr
      have higuales := (liberarRecursosTomados_valor hS h hr).symm.trans (hd.recurso hr)
      simp only [Option.some.injEq, Recurso.mk.injEq, true_and] at higuales
      exact ⟨by have := higuales.1; omega, higuales.2⟩
    have hid : ∀ t ∈ p.recursosTomados, idRecurso t = t := by
      refine (devoluciones_eq_count_iff hex).1 fun n hn => ?_
      obtain ⟨r, hr⟩ := Option.ne_none_iff_exists'.1 hn
      exact (hfinal n r hr).1
    intro n hn
    obtain ⟨r, hr⟩ := Option.ne_none_iff_exists'.1 (hex n hn)
    obtain ⟨hc, hcola⟩ := hfinal n r hr
    obtain ⟨hle, hll⟩ : r.Llama (k.Llamable p) (p.devoluciones n) := hllama n r hr
    rw [hc] at hcola hle hll
    exact ⟨r, hr, hid n hn, (Recurso.enOrden_iff (hS.nodup hr) hle).1 hcola, hll⟩
  · intro hC
    exact hC.devuelto hS

/-- A process holds a resource for which another one waits, and waits for a third one. -/
def duenioEnEspera : Nucleo :=
  correr (fun _ _ => True) ⟨.fifo, 10, 3, [("RA", 1), ("RB", 0)]⟩
    (dosAdmitidos ++
      [.corto 0, .corto 0, .corto 0, .cpu { pid := 1, pc := 1, estado := .exec } (.wait "RA") 1,
        .cpu { pid := 1, pc := 2, estado := .exec, recursosTomados := ["RA"] } (.wait "RB") 2,
        .corto 3, .corto 3, .corto 3, .cpu { pid := 2, pc := 1, estado := .exec } (.wait "RA") 4])
    (by decide +kernel)

theorem devuelto_duenioEnEspera :
    ∃ k', liberarRecursosTomados
        (duenioEnEspera.conLista .blocked
          [{ pid := 2, pc := 1, estado := .blocked, recursoEsperando := some "RA" }])
        { pid := 1, pc := 2, estado := .blocked, recursosTomados := ["RA"]
          recursoEsperando := some "RB" } = .ok k' ∧
      Devuelto
        (duenioEnEspera.conLista .blocked
          [{ pid := 2, pc := 1, estado := .blocked, recursoEsperando := some "RA" }])
        { pid := 1, pc := 2, estado := .blocked, recursosTomados := ["RA"]
          recursoEsperando := some "RB" } k' :=
  (devuelto_iff (saliente_tomar (a := []) (alcanzable_correr _).alcanzable (by decide +kernel)
    ⟨rfl, rfl, rfl⟩)).2 (by decide +kernel)

/-- A process takes the only instance of a resource with a long name. -/
def duenioDeNombreLargo : Nucleo :=
  correr (fun _ _ => True) ⟨.fifo, 10, 3, [("ABCDEFGHIJK", 1)]⟩
    (dosAdmitidos ++
      [.corto 0, .corto 0, .corto 0,
        .cpu { pid := 1, pc := 1, estado := .exec } (.wait "ABCDEFGHIJK") 1])
    (by decide +kernel)

/-- It ends, and its instance is given to a resource that does not exist. -/
theorem nombreLargo_no_devuelto :
    ¬∀ k p, Saliente k.vista p →
      ∃ k', liberarRecursosTomados k p = .ok k' ∧ Devuelto k p k' := by
  intro h
  have hS : Saliente (duenioDeNombreLargo.conLista .running []).vista
      { pid := 1, pc := 2, estado := .exec, recursosTomados := ["ABCDEFGHIJK"] } :=
    saliente_tomar (a := []) (b := [])
      (q := { pid := 1, pc := 1, estado := .exec, recursosTomados := ["ABCDEFGHIJK"] })
      (alcanzable_correr _).alcanzable (by decide +kernel) ⟨rfl, rfl, rfl⟩
  obtain ⟨k', hk', hd⟩ := h _ _ hS
  have hr : (duenioDeNombreLargo.conLista .running []).recursos.valor "ABCDEFGHIJK"
      = some { id := "ABCDEFGHIJ", instancias := 0 } := by
    decide +kernel
  have higuales := (liberarRecursosTomados_valor hS hk' hr).symm.trans (hd.recurso hr)
  simp only [Option.some.injEq, Recurso.mk.injEq] at higuales
  exact absurd higuales.2.1 (by decide +kernel)

end Kernel
