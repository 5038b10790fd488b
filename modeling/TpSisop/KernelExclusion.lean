/-
**The processes that are alive hold no more of a resource than there is.**

Who holds a resource is written in the PCBs, which travel to the CPU and back; how much of it is
left is a counter of the kernel.  The counter, the queue and the holdings together never exceed the
instances the resource was configured with: a grant moves one from the counter to a PCB, a wait
lowers the counter and lengthens the queue, and giving one back undoes either.  A process that ends
gives each resource back by its `id`, the first characters of its name.  When these are the name of
another resource, that one gains an instance it never had.

Main definitions:

* `Kernel.tomadas` — the instances of a resource that the processes alive hold;
* `Kernel.Acotada` — the invariant;
* `Kernel.senialaLoSuyo`, `Kernel.sinNombreCortado` — a process signals what it holds, and who ends
  gives nothing back under the name of another resource.

Main results:

* `Kernel.Incremento.cuenta_le`, `Kernel.Liberacion.cuenta_le` — what giving back adds;
* `Kernel.Movimiento.acotada` — a movement that meets the conditions keeps the bound;
* `Kernel.exclusion` — in every run whose steps meet them the holdings stay below the instances;
* `Kernel.exclusion_rota` — a process is granted the one instance of a resource twice.
-/

import TpSisop.KernelColas

set_option relaxedAutoImplicit false
set_option autoImplicit false

namespace Kernel

open Familia (agregar peso)
open Coleccion (Diccionario)

variable {v v' w : Vista} {p q : Pcb} {mano : List Pcb} {m n : String}

/-! ### The instances that are held -/

/-- The instances of a resource that the processes alive hold. -/
def tomadas (L : Lista → List Pcb) (n : String) : ℕ :=
  peso (fun p => p.recursosTomados.count n) Lista.vivas L

section

variable {L : Lista → List Pcb} {l : Lista} {a b : List Pcb}

theorem tomadas_agregar (L : Lista → List Pcb) (l : Lista) (p : Pcb) (n : String) :
    tomadas (agregar L l p) n
      = tomadas L n + if l ≠ .exit then p.recursosTomados.count n else 0 := by
  simp [tomadas, Familia.peso_agregar Lista.vivas_nodup]

theorem tomadas_quitar (h : L l = a ++ q :: b) (n : String) :
    tomadas (Function.update L l (a ++ b)) n
      + (if l ≠ .exit then q.recursosTomados.count n else 0) = tomadas L n := by
  simpa [tomadas] using Familia.peso_quitar (f := fun p => p.recursosTomados.count n)
    Lista.vivas_nodup h

/-- A process goes from one list to another with what it holds. -/
theorem tomadas_mover (h : L l = a ++ q :: b) {m : Lista} (hl : l ≠ .exit) (hm : m ≠ .exit)
    (hp : p.recursosTomados = q.recursosTomados) (n : String) :
    tomadas (agregar (Function.update L l (a ++ b)) m p) n = tomadas L n := by
  have := tomadas_quitar h n
  rw [tomadas_agregar, hp, if_pos hm]
  rwa [if_pos hl] at this

/-- The running process is given back with other holdings. -/
theorem tomadas_running (h : L .running = [q]) (p : Pcb) (n : String) :
    tomadas (Function.update L .running [p]) n + q.recursosTomados.count n
      = tomadas L n + p.recursosTomados.count n := by
  have h₁ := tomadas_quitar (a := []) (b := []) h n
  have h₂ := tomadas_agregar (Function.update L .running []) .running p n
  simp only [agregar, Function.update_self, Function.update_idem, List.nil_append, ne_eq,
    reduceCtorEq, not_false_eq_true, if_true] at h₁ h₂
  omega

end

theorem Alistar.tomadas (h : Alistar v p v') (n : String) :
    tomadas v'.listas n = tomadas v.listas n + p.recursosTomados.count n := by
  have := h.peso (f := fun p => p.recursosTomados.count n) Lista.vivas_nodup (fun _ => rfl)
    (by simp)
  simpa [Kernel.tomadas] using this

/-! ### Giving instances back -/

/-- Whether a process in hand, which waits for the resource, is out of its queue already. -/
def falta (mano : List Pcb) (n : String) (r : Recurso) : ℕ :=
  if ∃ q ∈ mano, q.recursoEsperando = some n ∧ q.pid ∉ r.bloqueados then 1 else 0

theorem falta_le_one (mano : List Pcb) (n : String) (r : Recurso) : falta mano n r ≤ 1 := by
  unfold falta
  split <;> omega

/-- The counter of a resource, its queue and what is held of it. -/
def cuenta (mano : List Pcb) (v : Vista) (n : String) (r : Recurso) : ℤ :=
  r.instancias + r.bloqueados.length + tomadas v.listas n + falta mano n r

@[simp] theorem cuenta_nil (v : Vista) (n : String) (r : Recurso) :
    cuenta [] v n r = r.instancias + r.bloqueados.length + tomadas v.listas n := by
  simp [cuenta, falta]

/-- Who is woken holds one more instance. -/
theorem tomadas_entrega {r : Recurso} {a b : List Pcb} (hb : v.listas .blocked = a ++ p :: b)
    (hal : Alistar ((v.ponerRecurso m r).conLista .blocked (a ++ b)) (p.otorgar m) v')
    (n : String) :
    tomadas v'.listas n = tomadas v.listas n + if m = n then 1 else 0 := by
  have h₁ := hal.tomadas n
  have h₂ := tomadas_quitar hb n
  simp only [Vista.conLista, Vista.ponerRecurso, Pcb.otorgar, List.count_append,
    List.count_singleton, beq_iff_eq] at h₁
  simp only [ne_eq, reduceCtorEq, not_false_eq_true, if_true] at h₂
  omega

section

variable {r : Recurso} (hmano : ∀ p ∈ mano, veces v.listas p.pid = 0)
  (hr : v.recursos.valor n = some r)

include hmano hr

/-- To give one instance of a resource back raises its count by one at most, and no other. -/
theorem Incremento.cuenta_le (h : Incremento v m v') :
    ∃ r', v'.recursos.valor n = some r' ∧
      cuenta mano v' n r' ≤ cuenta mano v n r + if m = n then 1 else 0 := by
  unfold cuenta
  by_cases hm : m = n
  · subst hm
    rw [if_pos rfl]
    cases h with
    | ausente h =>
        rw [hr] at h
        cases h
    | libre hr' hi =>
        obtain rfl := Option.some.inj (hr.symm.trans hr')
        refine ⟨{ r with instancias := r.instancias + 1 }, by simp [Vista.ponerRecurso], ?_⟩
        simp only [Vista.ponerRecurso, falta]
        omega
    | @huerfano _ pid cola hr' hi hq hb =>
        -- it is the process in hand that leaves its queue
        obtain rfl := Option.some.inj (hr.symm.trans hr')
        refine ⟨{ r with instancias := r.instancias + 1, bloqueados := cola },
          by simp [Vista.ponerRecurso], ?_⟩
        have := falta_le_one mano m { r with instancias := r.instancias + 1, bloqueados := cola }
        simp only [Vista.ponerRecurso, hq, List.length_cons]
        push_cast
        omega
    | @entrega _ cola a b p _ hr' hi hq hb hal =>
        obtain rfl := Option.some.inj (hr.symm.trans hr')
        refine ⟨{ r with instancias := r.instancias + 1, bloqueados := cola }, ?_, ?_⟩
        · cases hal with
          | mk hl hvrr => simp [Vista.ponerRecurso, Vista.conLista]
        · have htom := tomadas_entrega hb hal m
          rw [if_pos rfl] at htom
          -- whoever is in hand is not the one that is woken
          have hfalta : falta mano m { r with instancias := r.instancias + 1, bloqueados := cola }
              = falta mano m r := by
            have hne : ∀ q ∈ mano, q.pid ≠ p.pid := fun q hq' =>
              (veces_eq_zero.1 (hmano q hq') .blocked p (by simp [hb])).symm
            have hiff : (∃ q ∈ mano, q.recursoEsperando = some m ∧ q.pid ∉ cola) ↔
                ∃ q ∈ mano, q.recursoEsperando = some m ∧ q.pid ∉ r.bloqueados := by
              refine exists_congr fun q => and_congr_right fun hq' => ?_
              simp [hq, hne q hq']
            simp only [falta, hiff]
          rw [htom, hfalta]
          simp only [hq, List.length_cons]
          push_cast
          omega
  · rw [if_neg hm]
    have hponer : ∀ s : Recurso, (v.ponerRecurso m s).recursos.valor n = some r := by
      intro s
      simp [Vista.ponerRecurso, Ne.symm hm, hr]
    cases h with
    | ausente h => exact ⟨r, hr, by omega⟩
    | libre hr' hi => exact ⟨r, hponer _, by simp only [Vista.ponerRecurso]; omega⟩
    | huerfano hr' hi hq hb => exact ⟨r, hponer _, by simp only [Vista.ponerRecurso]; omega⟩
    | entrega hr' hi hq hb hal =>
        have htom := tomadas_entrega hb hal n
        rw [if_neg hm] at htom
        refine ⟨r, ?_, by omega⟩
        cases hal with
        | mk hl hvrr => exact hponer _

end

theorem Devolucion.cuenta_le {ts : List String} {r : Recurso} (h : Devolucion v ts v')
    (hE : Encolados mano v) (hu : ∀ x, veces v.listas x ≤ 1)
    (hmano : ∀ p ∈ mano, veces v.listas p.pid = 0) (hr : v.recursos.valor n = some r) :
    ∃ r', v'.recursos.valor n = some r' ∧
      cuenta mano v' n r' ≤ cuenta mano v n r + ts.countP fun t => idRecurso t = n := by
  induction h generalizing r with
  | nil v => exact ⟨r, hr, by simp⟩
  | @cons v v₁ v₂ t ts s hs hi hd ih =>
      have hv := hi.marco.veces
      obtain ⟨r₁, hr₁, h₁⟩ := hi.cuenta_le hmano hr
      obtain ⟨r₂, hr₂, h₂⟩ := ih (hi.encolados hE hu hmano) (fun x => by rw [hv]; exact hu x)
        (fun p hp => by rw [hv]; exact hmano p hp) hr₁
      refine ⟨r₂, hr₂, ?_⟩
      rw [hE.id hs] at h₁
      rw [List.countP_cons]
      simp only [decide_eq_true_eq] at h₁ h₂ ⊢
      push_cast at h₁ h₂ ⊢
      omega

/-- The end of a process that was taken out of its list raises the count of a resource by what it
gives back, and the process is in hand no more. -/
theorem Liberacion.cuenta_le {r : Recurso} (h : Liberacion v p v') (hE : Encolados [p] v)
    (hu : ∀ x, veces v.listas x ≤ 1) (hp : veces v.listas p.pid = 0)
    (hr : v.recursos.valor n = some r) :
    ∃ r', v'.recursos.valor n = some r' ∧
      cuenta [] v' n r' ≤ cuenta [p] v n r + p.devoluciones n := by
  cases h with
  | suelto hd he =>
      obtain ⟨r', hr', h⟩ := hd.cuenta_le hE hu (by simpa using hp) hr
      refine ⟨r', hr', le_trans ?_ h⟩
      rw [cuenta_nil, cuenta]
      omega
  | @esperando v₁ m hd he =>
      obtain ⟨r₁, hr₁, h₁⟩ := hd.cuenta_le hE hu (by simpa using hp) hr
      have hlistas : (v₁.retirar m p.pid).listas = v₁.listas := by
        unfold Vista.retirar
        cases v₁.recursos.valor m <;> rfl
      by_cases hm : m = n
      · subst hm
        refine ⟨{ r₁ with
          instancias := r₁.instancias + 1, bloqueados := r₁.bloqueados.erase p.pid }, ?_, ?_⟩
        · simp [Vista.retirar, hr₁, Vista.ponerRecurso]
        · refine le_trans ?_ h₁
          rw [cuenta_nil, hlistas, cuenta, List.length_erase]
          -- it leaves the queue, or it left it before
          by_cases hx : p.pid ∈ r₁.bloqueados
          · have := List.length_pos_of_mem hx
            rw [if_pos hx]
            push_cast [Nat.cast_sub (show 1 ≤ r₁.bloqueados.length from this)]
            omega
          · rw [if_neg hx, show falta [p] m r₁ = 1 from if_pos ⟨p, by simp, he, hx⟩]
            push_cast
            omega
      · refine ⟨r₁, ?_, le_trans ?_ h₁⟩
        · unfold Vista.retirar
          cases v₁.recursos.valor m <;> simp [hr₁, Vista.ponerRecurso, Ne.symm hm]
        · rw [cuenta_nil, hlistas, cuenta]
          omega

/-! ### The conditions -/

/-- A process signals only resources that it holds. -/
def senialaLoSuyo : Evento → Prop
  | .cpu p (.signal recurso) _ => recurso ∈ p.recursosTomados
  | _ => True

/-- What a process holds is given back under its own name, or not at all. -/
def Pcb.DevuelveLoSuyo (d : Diccionario Recurso) (p : Pcb) : Prop :=
  ∀ t ∈ p.recursosTomados, idRecurso t = t ∨ d.valor (idRecurso t) = none

/-- The steps that end no process which gives something back under the name of another resource. -/
def sinNombreCortado (v : Vista) : Evento → Prop
  | .finalizarProceso pid =>
      ∀ l ∈ Lista.vivas, l ≠ .running → ∀ p ∈ v.listas l, p.pid = pid →
        p.DevuelveLoSuyo v.recursos
  | .cpu p m _ => v.termina m → p.DevuelveLoSuyo v.recursos
  | .interfaz _ pet .errorIo =>
      ∀ p ∈ v.listas .blocked, p.pid = pet.pid → p.DevuelveLoSuyo v.recursos
  | _ => True

instance : DecidablePred senialaLoSuyo
  | .cpu p (.signal recurso) _ => inferInstanceAs (Decidable (recurso ∈ p.recursosTomados))
  | .cpu _ (.io _ _) _ | .cpu _ .interrupcion _ | .cpu _ .outOfMemory _
  | .cpu _ .terminarProceso _ | .cpu _ (.wait _) _
  | .iniciarProceso | .finalizarProceso _ | .iniciarPlanificacion | .detenerPlanificacion
  | .multiprogramacion _ | .interfaz _ _ _ | .conexionIo _ _ | .memoria _ | .corto _ | .reloj
  | .largo => .isTrue trivial

instance (d : Diccionario Recurso) (p : Pcb) : Decidable (p.DevuelveLoSuyo d) :=
  inferInstanceAs (Decidable (∀ t ∈ p.recursosTomados, _ ∨ _))

instance (v : Vista) : DecidablePred (sinNombreCortado v)
  | .finalizarProceso pid => inferInstanceAs (Decidable
      (∀ l ∈ Lista.vivas, l ≠ .running → ∀ p ∈ v.listas l, p.pid = pid →
        p.DevuelveLoSuyo v.recursos))
  | .cpu p m _ => inferInstanceAs (Decidable (v.termina m → p.DevuelveLoSuyo v.recursos))
  | .interfaz _ pet .errorIo => inferInstanceAs (Decidable
      (∀ p ∈ v.listas .blocked, p.pid = pet.pid → p.DevuelveLoSuyo v.recursos))
  | .interfaz _ _ .ioOcupada | .interfaz _ _ .finIo
  | .iniciarProceso | .iniciarPlanificacion | .detenerPlanificacion | .multiprogramacion _
  | .conexionIo _ _ | .memoria _ | .corto _ | .reloj | .largo => .isTrue trivial

/-- Such a process gives a resource back at most as many times as it holds it. -/
theorem Pcb.DevuelveLoSuyo.devoluciones_le {d : Diccionario Recurso} (h : p.DevuelveLoSuyo d)
    (hn : d.valor n ≠ none) : p.devoluciones n ≤ p.recursosTomados.count n := by
  unfold Pcb.devoluciones List.count
  refine List.countP_mono_left fun t ht hid => ?_
  rcases h t ht with h | h
  · simpa [h] using hid
  · simp only [decide_eq_true_eq] at hid
    exact absurd (hid ▸ h) hn

/-! ### The bound -/

/-- The counter of a resource, its queue and its holders fit in what it was configured with. -/
def Acotada (v : Vista) (n : String) : Prop :=
  ∀ s, (recursosInit v.configurados).valor n = some s →
    ∃ r, v.recursos.valor n = some r ∧ cuenta [] v n r ≤ s.instancias

/-- A process ends. -/
theorem Acotada.muerte {l : Lista} {a b : List Pcb} (hA : Acotada v n) (hl : Liberacion w p v')
    (hE : Encolados [] v) (hB : Base v) (h : v.listas l = a ++ q :: b) (hne : l ≠ .exit)
    (hpq : p.Mismo q) (hp : l = .blocked → p = q) (hrec : w.recursos = v.recursos)
    (hw : w.listas = Function.update v.listas l (a ++ b)) (hcon : w.configurados = v.configurados)
    (hC : p.DevuelveLoSuyo v.recursos) : Acotada (v'.salir p) n := by
  intro s hs
  obtain ⟨hp₀, hu⟩ := hB.enMano h hpq.pid.symm hw
  obtain ⟨r, hr, hle⟩ := hA s (hcon ▸ hl.marco.configurados ▸ hs)
  obtain ⟨r', hr', h'⟩ := hl.cuenta_le (hE.tomar h hp hrec hw) hu hp₀ (hrec ▸ hr)
  refine ⟨r', hr', ?_⟩
  have hdev := hC.devoluciones_le (n := n) (by simp [hr])
  -- in its list it holds what it gives back, and it is in the queue it waits in
  have htom := tomadas_quitar h n
  rw [if_pos hne, ← hw, ← hpq.recursosTomados] at htom
  have hfalta : falta [p] n r = 0 := by
    refine if_neg ?_
    rintro ⟨p', hp', he, hx⟩
    rw [List.mem_singleton.1 hp'] at he hx
    have hq : q ∈ v.listas l := by simp [h]
    have hb : l = .blocked := by
      by_contra hb
      rw [hpq.recursoEsperando, (hE.enRegla hq).esperando hb] at he
      cases he
    subst hb
    rw [hp rfl] at he hx
    obtain ⟨s, hs, hx'⟩ := hE.esperando hq he
    obtain rfl : r = s := by simpa [hr] using hs
    exact hx hx'
  have hsal : tomadas (v'.salir p).listas n = tomadas v'.listas n := by
    simp [Vista.salir, tomadas_agregar]
  have hw' : cuenta [p] w n r = r.instancias + r.bloqueados.length + tomadas w.listas n := by
    rw [cuenta, hfalta]
    simp
  rw [cuenta_nil] at h' hle ⊢
  rw [hw'] at h'
  rw [hsal]
  omega

/-- Nothing that is counted changes. -/
theorem Acotada.copia (hA : Acotada v n) (hcon : v'.configurados = v.configurados)
    (hrec : v'.recursos = v.recursos) (htom : tomadas v'.listas n = tomadas v.listas n) :
    Acotada v' n := by
  intro s hs
  obtain ⟨r, hr, hle⟩ := hA s (hcon ▸ hs)
  refine ⟨r, hrec ▸ hr, ?_⟩
  rwa [cuenta_nil, htom, ← cuenta_nil]

/-- The running process takes or awaits an instance: the counter goes down by one. -/
theorem Acotada.decrementar {r r' : Recurso} (hA : Acotada v n)
    (hcon : v'.configurados = v.configurados) (hr : v.recursos.valor m = some r)
    (hrec : v'.recursos = v.recursos.poner m r')
    (hcero : n ≠ m → tomadas v'.listas n = tomadas v.listas n)
    (huno : n = m → r'.instancias + r'.bloqueados.length + tomadas v'.listas n
      = r.instancias + r.bloqueados.length + tomadas v.listas n) : Acotada v' n := by
  intro s hs
  obtain ⟨r₀, hr₀, hle⟩ := hA s (hcon ▸ hs)
  rw [cuenta_nil] at hle
  by_cases hn : n = m
  · subst hn
    obtain rfl := Option.some.inj (hr.symm.trans hr₀)
    refine ⟨r', by simp [hrec], ?_⟩
    rw [cuenta_nil, huno rfl]
    exact hle
  · refine ⟨r₀, by simp [hrec, hn, hr₀], ?_⟩
    rwa [cuenta_nil, hcero hn]

/-- A movement that meets the conditions keeps the bound. -/
theorem Movimiento.acotada {e : Evento} (hB : Base v) (hO : Ordenada v) (hA : Acotada v n)
    (hS : senialaLoSuyo e) (hC : sinNombreCortado v e) (h : Movimiento v e v') :
    Acotada v' n := by
  have hE := hO.encolados
  cases h with
  | quieto => exact hA
  | pasadaVacia hn hm hrr hfifo hvrr => exact hA.copia rfl rfl rfl
  | ioOcupada hi hpet => exact hA.copia rfl rfl rfl
  | conexionIo h => exact hA.copia rfl rfl rfl
  | creacion => exact hA.copia rfl rfl (by simp [tomadas_agregar])
  | admision h =>
      exact hA.copia rfl rfl (tomadas_mover (a := []) h (by decide) (by decide) (by rfl) n)
  | @despacho ahora l p p' resto n' m hl h hp hn hm =>
      have hne : l ≠ .exit := by
        rintro rfl
        simp at hl
      exact hA.copia rfl rfl (tomadas_mover (a := []) h hne (by decide) hp.recursosTomados n)
  | finDeQuantum h =>
      exact hA.copia rfl rfl (tomadas_mover (a := []) (b := []) h.running (by decide) (by decide)
        (by exact h.mismo.recursosTomados) n)
  | bloqueoIo h hi hp =>
      exact hA.copia rfl rfl (tomadas_mover (a := []) (b := []) h.running (by decide) (by decide)
        (hp.recursosTomados.trans h.mismo.recursosTomados) n)
  | @bloqueoRecurso q p recurso r ahora h hr hi =>
      have htom := tomadas_mover (a := []) (b := []) (m := .blocked) h.running (by decide)
        (by decide) (p := { p with recursoEsperando := some recurso, estado := .blocked })
        h.mismo.recursosTomados n
      refine hA.decrementar rfl hr rfl (fun _ => htom) fun _ => ?_
      simp only [List.length_append, List.length_singleton]
      push_cast
      rw [List.nil_append] at htom
      omega
  | @concesion q p p' recurso r ahora h hr hi hp =>
      have htom := tomadas_running h.running p' n
      simp only [hp, h.mismo.recursosTomados, List.count_append, List.count_singleton,
        beq_iff_eq] at htom
      refine hA.decrementar rfl hr rfl (fun hn => ?_) fun hn => ?_
      · rw [if_neg (Ne.symm hn)] at htom
        simp only [hp, h.mismo.recursosTomados]
        omega
      · rw [if_pos hn.symm] at htom
        simp only [hp, h.mismo.recursosTomados]
        omega
  | @signal q p p' recurso ahora v₁ h hr hi hp =>
      intro s hs
      have hm := hi.marco
      obtain ⟨r, hr, hle⟩ := hA s (hm.configurados ▸ hs)
      have hr₀ : ({ v with enCpu := none } : Vista).recursos.valor n = some r := hr
      have hmano : ∀ p ∈ ([] : List Pcb),
          veces ({ v with enCpu := none } : Vista).listas p.pid = 0 := by simp
      obtain ⟨r', hr', h'⟩ := hi.cuenta_le hmano hr₀
      have hrun : v₁.listas .running = [q] :=
        (hm.listas .running (by simp) (by simp)).trans h.running
      have htom := tomadas_running hrun p' n
      have hpos : recurso = n → 1 ≤ q.recursosTomados.count n := by
        rintro rfl
        exact List.count_pos_iff.2 (h.mismo.recursosTomados ▸ hS)
      refine ⟨r', hr', ?_⟩
      simp only [hp, List.count_erase, h.mismo.recursosTomados, beq_iff_eq] at htom
      simp only [cuenta_nil, hp, h.mismo.recursosTomados] at h' hle ⊢
      by_cases hn : recurso = n
      · have := hpos hn
        rw [if_pos hn] at htom h'
        omega
      · rw [if_neg hn] at htom h'
        omega
  | @muerteCpu q p m ahora v₁ h hterm hl =>
      have hA₁ : Acotada (v₁.salir p) n := hA.muerte (a := []) (b := []) hl hE hB h.running
        (by decide) h.mismo (by simp) rfl rfl rfl (hC hterm)
      exact hA₁.copia rfl rfl rfl
  | @muerteConsola pid l a b p v₁ hlista h hp hl =>
      have hmem : p ∈ v.listas l := by simp [h]
      have hne : l ≠ .exit ∧ l ≠ .running := by
        rcases hlista with rfl | rfl | rfl | rfl <;> decide
      exact hA.muerte hl hE hB h hne.1 ⟨rfl, rfl, rfl⟩ (fun _ => rfl) rfl rfl rfl
        (hC l (by simpa using hne.1) hne.2 p hmem hp)
  | @errorIo nombre pet i a b p v₁ hi hpet h hp hl =>
      exact hA.muerte (v := v) hl hE hB h (by decide) ⟨rfl, rfl, rfl⟩ (fun _ => rfl) rfl rfl rfl
        (hC p (by simp [h]) hp)
  | @finIo nombre pet i i' a b p v₁ hi hpet h hp hal hi' =>
      have htom := hal.tomadas n
      have hquita := tomadas_quitar h n
      rw [if_pos (by decide)] at hquita
      refine hA.copia (hal.marco h rfl).configurados ?_ (htom.trans hquita)
      cases hal with
      | mk hl hvrr => rfl

theorem acotada_iniciar (config : Config) : Acotada (iniciar config).vista n := by
  intro s hs
  refine ⟨s, hs, ?_⟩
  have htom : tomadas (iniciar config).vista.listas n = 0 := rfl
  rw [cuenta_nil, htom, (recursosInit_valor hs).2]
  simp

/-! ### Mutual exclusion -/

/-- The processes alive hold no more of a resource than it was configured with. -/
def Exclusion (k : Nucleo) (n : String) : Prop :=
  ∀ s ∈ (recursosInit k.config.recursos).valor n, (tomadas k.listas n : ℤ) ≤ s.instancias

instance (k : Nucleo) (n : String) : Decidable (Exclusion k n) := by
  dsimp only [Exclusion]
  infer_instance

/-- In every run in which processes signal what they hold, and no process gives a resource back
under the name of another one, the processes alive hold no more of a resource than there is. -/
theorem exclusion {k : Nucleo}
    (h : Transicion.AlcanzableCon sistema
      (fun k e => senialaLoSuyo e ∧ sinNombreCortado k.vista e) k)
    (hN : NoNegativo k.config.recursos n) : Exclusion k n := by
  have hI := (invariante_vista
    (I := fun v => Ordenada v ∧ Acotada v n ∧ (NoNegativo v.configurados n → Saldada v n))
    (C := fun v e => senialaLoSuyo e ∧ sinNombreCortado v e)
    (fun config => ⟨ordenada_iniciar config, acotada_iniciar config, saldada_iniciar⟩)
    (fun v e v' hB hI hC hm => by
      refine ⟨hm.ordenada hB hI.1, hm.acotada hB hI.1 hI.2.1 hC.1 hC.2, fun hN' => ?_⟩
      exact hm.saldada (hI.2.2 (hm.config.2 ▸ hN'))) h).2
  intro s hs
  obtain ⟨r, hr, hle⟩ := hI.2.1 s hs
  have hsaldo := hI.2.2 hN r hr
  rw [cuenta_nil] at hle
  have htom : tomadas k.vista.listas n = tomadas k.listas n := rfl
  omega

/-- A process that holds a resource runs out of memory, and the next one takes it. -/
def relevo : Nucleo :=
  correr (fun k e => senialaLoSuyo e ∧ sinNombreCortado k.vista e)
    ⟨.fifo, 10, 3, [("RA", 1), ("RB", 0)]⟩
    (dosAdmitidos ++
      [.corto 0, .corto 0, .corto 0, .cpu { pid := 1, pc := 1, estado := .exec } (.wait "RA") 1,
        .cpu { pid := 1, pc := 2, estado := .exec, recursosTomados := ["RA"] } .outOfMemory 2,
        .corto 3, .corto 3, .corto 3, .cpu { pid := 2, pc := 1, estado := .exec } (.wait "RA") 4])
    (by decide +kernel)

theorem exclusion_relevo : Exclusion relevo "RA" :=
  exclusion (alcanzable_correr _) (by decide +kernel)

/-- A process ends with a resource whose name starts with the name of another one, of which the
next process then takes two instances. -/
def nombreCortado : Nucleo :=
  correr (fun _ e => senialaLoSuyo e) ⟨.fifo, 10, 3, [("ABCDEFGHIJ", 1), ("ABCDEFGHIJK", 1)]⟩
    (dosAdmitidos ++
      [.corto 0, .corto 0, .corto 0,
        .cpu { pid := 1, pc := 1, estado := .exec } (.wait "ABCDEFGHIJK") 1,
        .cpu { pid := 1, pc := 2, estado := .exec, recursosTomados := ["ABCDEFGHIJK"] }
          .terminarProceso 2,
        .corto 3, .corto 3, .corto 3,
        .cpu { pid := 2, pc := 1, estado := .exec } (.wait "ABCDEFGHIJ") 4,
        .cpu { pid := 2, pc := 2, estado := .exec, recursosTomados := ["ABCDEFGHIJ"] }
          (.wait "ABCDEFGHIJ") 5])
    (by decide +kernel)

/-- The one instance of a resource is granted twice, and nobody signalled it. -/
theorem exclusion_rota :
    ¬∀ k n, Transicion.AlcanzableCon sistema (fun _ e => senialaLoSuyo e) k →
      NoNegativo k.config.recursos n → Exclusion k n := by
  intro h
  exact absurd (h nombreCortado "ABCDEFGHIJ" (alcanzable_correr _) (by decide +kernel))
    (by decide +kernel)

end Kernel
