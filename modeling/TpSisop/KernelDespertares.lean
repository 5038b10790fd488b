/-
**No process waits for a resource that is free, except after one kind of death.**

A resource below zero has one process in its queue for each instance it lacks.  WAIT, SIGNAL and the
release of what a process took keep it so, each in its own way.  A process that is killed while it
waits does two things: it gives back what it took, and it leaves the queue.  When it took instances
of the very resource it waits for, giving them back may take it out of the queue before it leaves
it; leaving then counts an instance for which somebody else still waits.

Main definitions:

* `Kernel.Justa` — a resource has a process in its queue for each instance it lacks;
* `Kernel.sinSaltearCola` — the steps that kill no process so.

Main results:

* `Kernel.Devolucion.valor` — a resource after some of it was given back;
* `Kernel.Movimiento.justa` — a movement that meets the condition keeps the queues;
* `Kernel.despertares` — in every run whose steps meet it no wake-up is lost;
* `Kernel.despertar_perdido` — a process that holds and waits for a resource is killed.
-/

import TpSisop.KernelColas

set_option relaxedAutoImplicit false
set_option autoImplicit false

namespace Kernel

open Coleccion (Diccionario)

variable {v v' : Vista} {p : Pcb} {mano : List Pcb} {m n : String}

/-- There is one process in the queue of a resource for each instance it lacks. -/
def Justa (v : Vista) (n : String) : Prop :=
  ∀ r, v.recursos.valor n = some r → (r.bloqueados.length : ℤ) = max 0 (-r.instancias)

theorem Justa.poner {r : Recurso} (hJ : Justa v n)
    (hr : m = n → (r.bloqueados.length : ℤ) = max 0 (-r.instancias)) :
    Justa (v.ponerRecurso m r) n := by
  intro s hs
  rcases Diccionario.poner_eq_some hs with ⟨rfl, rfl⟩ | ⟨-, hs⟩
  · exact hr rfl
  · exact hJ s hs

/-! ### Giving instances back -/

/-- A resource after `c` of its instances were given back. -/
def Recurso.devuelto (r : Recurso) (c : ℕ) : Recurso :=
  { r with instancias := r.instancias + c, bloqueados := r.bloqueados.drop c }

@[simp] theorem Recurso.devuelto_zero (r : Recurso) : r.devuelto 0 = r := by
  simp [Recurso.devuelto]

theorem Recurso.devuelto_devuelto (r : Recurso) (c c' : ℕ) :
    (r.devuelto c).devuelto c' = r.devuelto (c + c') := by
  simp [Recurso.devuelto, add_assoc]

theorem Incremento.valor {r : Recurso} (h : Incremento v m v') (hJ : Justa v n)
    (hr : v.recursos.valor n = some r) :
    v'.recursos.valor n = some (r.devuelto (if m = n then 1 else 0)) := by
  have hponer : ∀ {s s' : Recurso}, v.recursos.valor m = some s → (m = n → s' = s.devuelto 1) →
      (v.recursos.poner m s').valor n = some (r.devuelto (if m = n then 1 else 0)) := by
    intro s s' hs hs'
    by_cases hm : m = n
    · subst hm
      obtain rfl : s = r := by simpa [hr] using hs.symm
      simp [hs' rfl]
    · simp [hm, hr, Ne.symm hm]
  cases h with
  | ausente h =>
      have hne : m ≠ n := by
        rintro rfl
        simp [hr] at h
      simp [hne, hr]
  | @libre s hs hi =>
      refine hponer hs fun hm => ?_
      -- above zero nobody waits
      have hq : s.bloqueados = [] := by
        have := hJ s (hm ▸ hs)
        exact List.eq_nil_of_length_eq_zero (by omega)
      simp [Recurso.devuelto, hq]
  | huerfano hs hi hq hb => exact hponer hs fun _ => by simp [Recurso.devuelto, hq]
  | entrega hs hi hq hb hal =>
      cases hal with
      | mk hl hvrr => exact hponer hs fun _ => by simp [Recurso.devuelto, hq]

theorem Incremento.justa (h : Incremento v m v') (hJ : Justa v n) : Justa v' n := by
  cases h with
  | ausente h => exact hJ
  | @libre s hs hi =>
      refine hJ.poner fun hm => ?_
      have := hJ s (hm ▸ hs)
      simp only
      omega
  | @huerfano s pid cola hs hi hq hb =>
      refine hJ.poner fun hm => ?_
      have := hJ s (hm ▸ hs)
      rw [hq, List.length_cons] at this
      push_cast at this ⊢
      omega
  | @entrega s cola a b p _ hs hi hq hb hal =>
      have hJ' : Justa (v.ponerRecurso m
          { s with instancias := s.instancias + 1, bloqueados := cola }) n := by
        refine hJ.poner fun hm => ?_
        have := hJ s (hm ▸ hs)
        rw [hq, List.length_cons] at this
        push_cast at this ⊢
        omega
      cases hal with
      | mk hl hvrr => exact hJ'

theorem Devolucion.justa {ts : List String} (h : Devolucion v ts v') (hJ : Justa v n) :
    Justa v' n := by
  induction h with
  | nil v => exact hJ
  | cons hr hi _ ih => exact ih (hi.justa hJ)

/-- The resource is given back once for each resource taken that is known by its name. -/
theorem Devolucion.valor {ts : List String} {r : Recurso} (h : Devolucion v ts v') (hJ : Justa v n)
    (hE : Encolados mano v) (hu : ∀ x, veces v.listas x ≤ 1)
    (hmano : ∀ p ∈ mano, veces v.listas p.pid = 0) (hr : v.recursos.valor n = some r) :
    v'.recursos.valor n = some (r.devuelto (ts.countP fun t => idRecurso t = n)) := by
  induction h generalizing r with
  | nil v => simpa using hr
  | @cons v v₁ v₂ t ts s hs hi hd ih =>
      have hv := hi.marco.veces
      rw [ih (hi.justa hJ) (hi.encolados hE hu hmano) (fun x => by rw [hv]; exact hu x)
        (fun p hp => by rw [hv]; exact hmano p hp) (hi.valor hJ hr), Recurso.devuelto_devuelto,
        List.countP_cons, hE.id hs, add_comm]
      simp

/-! ### The condition -/

/-- The steps that do not kill a process which, giving back what it took, would leave the queue it
waits in before it is taken out of it, with others still behind. -/
def sinSaltearCola (v : Vista) : Evento → Prop
  | .finalizarProceso pid =>
      ∀ p ∈ v.listas .blocked, p.pid = pid → ∀ n ∈ p.recursoEsperando,
        ∀ r ∈ v.recursos.valor n,
          ¬(r.bloqueados.idxOf pid < p.devoluciones n ∧ p.devoluciones n < r.bloqueados.length)
  | _ => True

instance (v : Vista) : DecidablePred (sinSaltearCola v)
  | .finalizarProceso pid => inferInstanceAs (Decidable
      (∀ p ∈ v.listas .blocked, p.pid = pid → ∀ n ∈ p.recursoEsperando,
        ∀ r ∈ v.recursos.valor n, ¬(_ ∧ _)))
  | .iniciarProceso | .iniciarPlanificacion | .detenerPlanificacion | .multiprogramacion _
  | .cpu _ _ _ | .interfaz _ _ _ | .conexionIo _ _ | .memoria _ | .corto _ | .reloj | .largo =>
      .isTrue trivial

/-- Who is in the queue still, or nobody is. -/
theorem Recurso.retirado_justo {r : Recurso} {x c : ℕ} (hn : r.bloqueados.Nodup)
    (hx : x ∈ r.bloqueados) (hr : (r.bloqueados.length : ℤ) = max 0 (-r.instancias))
    (hc : ¬(r.bloqueados.idxOf x < c ∧ c < r.bloqueados.length)) :
    (((r.devuelto c).bloqueados.erase x).length : ℤ) =
      max 0 (-((r.devuelto c).instancias + 1)) := by
  have hlt := List.idxOf_lt_length_of_mem hx
  have hmem := Coleccion.mem_drop_iff_le_idxOf hn hx c
  simp only [Recurso.devuelto, List.length_erase, List.length_drop]
  split
  · rename_i h
    have := hmem.1 h
    omega
  · rename_i h
    have : ¬c ≤ r.bloqueados.idxOf x := fun hle => h (hmem.2 hle)
    omega

/-- A process dies in order: it waits for nothing, or it is still in its queue when it leaves. -/
theorem Liberacion.justa {w : Vista} {l : Lista} {a b : List Pcb} {q : Pcb}
    (hl : Liberacion w p v') (hJ : Justa w n) (hE : Encolados [] v) (hB : Base v)
    (h : v.listas l = a ++ q :: b) (hpid : q.pid = p.pid) (hp : l = .blocked → p = q)
    (hrec : w.recursos = v.recursos) (hw : w.listas = Function.update v.listas l (a ++ b))
    (hc : p.recursoEsperando = some n → ∃ r, v.recursos.valor n = some r ∧ p.pid ∈ r.bloqueados ∧
      ¬(r.bloqueados.idxOf p.pid < p.devoluciones n ∧ p.devoluciones n < r.bloqueados.length)) :
    Justa v' n := by
  cases hl with
  | suelto hd he => exact hd.justa hJ
  | @esperando v₁ m hd he =>
      have hJ₁ := hd.justa hJ
      obtain ⟨hp₀, hu⟩ := hB.enMano h hpid hw
      have hEw := hE.tomar h hp hrec hw
      unfold Vista.retirar
      cases hs : v₁.recursos.valor m with
      | none => exact hJ₁
      | some s =>
          refine hJ₁.poner fun hm => ?_
          subst hm
          obtain ⟨r, hr, hx, hn⟩ := hc he
          have hr₁ := hd.valor hJ hEw hu (by simpa using hp₀) (hrec ▸ hr)
          obtain rfl : s = r.devuelto (p.devoluciones m) := by
            simpa [hs, Pcb.devoluciones] using hr₁
          exact Recurso.retirado_justo (hE.nodup hr) hx (hJ r (hrec ▸ hr)) hn

/-- A movement that meets the condition keeps one process in the queue for each instance lacking. -/
theorem Movimiento.justa {e : Evento} (hB : Base v) (hO : Ordenada v) (hJ : Justa v n)
    (hC : sinSaltearCola v e) (h : Movimiento v e v') : Justa v' n := by
  have hE := hO.encolados
  cases h with
  | @bloqueoRecurso q p recurso r ahora h hr hi =>
      refine Justa.poner (v := v) (m := recurso) hJ fun hm => ?_
      have := hJ r (hm ▸ hr)
      simp only [List.length_append, List.length_singleton]
      omega
  | @concesion q p p' recurso r ahora h hr hi hp =>
      refine Justa.poner (v := v) (m := recurso) hJ fun hm => ?_
      have := hJ r (hm ▸ hr)
      simp only
      omega
  | @signal q p p' recurso ahora v₁ h hr hi hp =>
      have hJ₁ : Justa v₁ n := hi.justa hJ
      exact hJ₁
  | @muerteCpu q p m ahora v₁ h hterm hl =>
      have he := h.mismo.recursoEsperando.trans (hE.corre h)
      have hJ₁ : Justa v₁ n := hl.justa (v := v) (a := []) (b := []) hJ hE hB h.running h.pid
        (by simp) rfl rfl (by simp [he])
      exact hJ₁
  | @muerteConsola pid l a b p v₁ hlista h hp hl =>
      have hmem : p ∈ v.listas l := by simp [h]
      have hJ₁ : Justa v₁ n := by
        refine hl.justa (v := v) hJ hE hB h rfl (fun _ => rfl) rfl rfl fun hn => ?_
        -- whoever waits for a resource is in BLOCKED
        have hb : l = .blocked := by
          by_contra hne
          rw [(hE.enRegla hmem).esperando hne] at hn
          cases hn
        subst hb
        obtain ⟨r, hr, hx⟩ := hE.esperando hmem hn
        exact ⟨r, hr, hx, hp ▸ hC p hmem hp n hn r hr⟩
      exact hJ₁
  | @errorIo nombre pet i a b p v₁ hi hpet h hp hl =>
      have he := hO.pedidos.espera hB hi hpet (p := p) (by simp [h]) hp
      have hJ₁ : Justa v₁ n :=
        hl.justa (v := v) hJ hE hB h rfl (fun _ => rfl) rfl rfl (by simp [he])
      exact hJ₁
  | finIo hi hpet h hp hal hi' =>
      cases hal with
      | mk hl hvrr => exact hJ
  | _ => exact hJ

theorem justa_iniciar {config : Config} (h : NoNegativo config.recursos n) :
    Justa (iniciar config).vista n := by
  intro r hr
  have := h r hr
  rw [(recursosInit_valor hr).2]
  simp
  omega

/-! ### The wake-ups -/

/-- The queue of a resource has one process for each instance that is lacking, all of them wait for
it in BLOCKED, and none waits while an instance is free. -/
def Despertares (k : Nucleo) (n : String) : Prop :=
  ∀ r ∈ k.recursos.valor n,
    (r.bloqueados.length : ℤ) = max 0 (-r.instancias) ∧
    (∀ pid ∈ r.bloqueados,
      ∃ p ∈ k.listas .blocked, p.pid = pid ∧ p.recursoEsperando = some n) ∧
    (0 < r.instancias → r.bloqueados = [])

instance (k : Nucleo) (n : String) : Decidable (Despertares k n) := by
  dsimp only [Despertares]
  infer_instance

/-- In every run that kills no process so that it skips its queue no wake-up is lost, of a resource
that starts with no instance lacking. -/
theorem despertares {k : Nucleo}
    (h : Transicion.AlcanzableCon sistema (fun k e => sinSaltearCola k.vista e) k)
    (hN : NoNegativo k.config.recursos n) : Despertares k n := by
  have hI := (invariante_vista
    (I := fun v => Ordenada v ∧ (NoNegativo v.configurados n → Justa v n))
    (fun config => ⟨ordenada_iniciar config, justa_iniciar⟩) (fun v e v' hB hI hC hm => by
      refine ⟨hm.ordenada hB hI.1, fun hN' => ?_⟩
      exact hm.justa hB hI.1 (hI.2 (hm.config.2 ▸ hN')) hC) h).2
  intro r hr
  have hlen := hI.2 hN r hr
  refine ⟨hlen, fun pid hpid => ?_, fun hpos => ?_⟩
  · obtain ⟨p, hp, h⟩ := hI.1.encolados.enCola hr hpid
    rw [List.append_nil] at hp
    exact ⟨p, hp, h⟩
  · exact List.eq_nil_of_length_eq_zero (by omega)

/-- The first process takes the resource, the second one waits for it and is killed. -/
def muerteEnCola : Nucleo :=
  correr (fun k e => sinSaltearCola k.vista e) ⟨.fifo, 10, 3, [("RA", 1), ("RB", 0)]⟩
    (dosAdmitidos ++
      [.corto 0, .corto 0, .corto 0, .cpu { pid := 1, pc := 1, estado := .exec } (.wait "RA") 1,
        .cpu { pid := 1, pc := 2, estado := .exec, recursosTomados := ["RA"] } (.wait "RB") 2,
        .corto 3, .corto 3, .corto 3, .cpu { pid := 2, pc := 1, estado := .exec } (.wait "RA") 4,
        .finalizarProceso 2])
    (by decide +kernel)

theorem despertares_muerteEnCola : Despertares muerteEnCola "RA" :=
  despertares (alcanzable_correr _) (by decide +kernel)

/-- A process holds a resource and waits for it again, and another one waits behind; the first is
killed. -/
def muerteDelDuenio : Nucleo :=
  correr (fun _ _ => True) ⟨.fifo, 10, 3, [("RA", 1)]⟩
    (dosAdmitidos ++
      [.corto 0, .corto 0, .corto 0, .cpu { pid := 1, pc := 1, estado := .exec } (.wait "RA") 1,
        .cpu { pid := 1, pc := 2, estado := .exec, recursosTomados := ["RA"] } (.wait "RA") 2,
        .corto 3, .corto 3, .corto 3, .cpu { pid := 2, pc := 1, estado := .exec } (.wait "RA") 4,
        .finalizarProceso 1])
    (by decide +kernel)

/-- The second process stays in the queue of a resource that lacks no instance. -/
theorem despertar_perdido : ¬∀ k n, Transicion.Alcanzable sistema k → Despertares k n := by
  intro h
  exact absurd (h muerteDelDuenio "RA" (alcanzable_correr _)) (by decide +kernel)

end Kernel
