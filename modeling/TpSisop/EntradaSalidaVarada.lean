/-
**A refusal that comes late strands its request.**

`EntradaSalida.cola_vacia` asks that every `IO_OCUPADA` is sent while a `FIN_IO` that finds it is to
come.  It cannot ask for less: once an `IO_OCUPADA` is sent otherwise, nothing but a new request
brings a `FIN_IO` any more.  Whatever the threads, memory and the kernel do then, in any order, they
come to an end, and the interface is at rest with a request in the queue.

Main definitions:

* `EntradaSalida.Encaminado` — a thread has left an end of its function, and whoever took the
  interface will clear it;
* `EntradaSalida.Inerte` — somebody waits, and no `FIN_IO` for them is to come;
* `EntradaSalida.Estado.trabajo` — a bound on the steps that are left.

Main results:

* `EntradaSalida.Inerte.paso` — without a new request it stays so, and there is less to do;
* `EntradaSalida.Inerte.enReposo` — where there is nothing to do the interface is at rest;
* `EntradaSalida.tarde_varada` — every run from a late `IO_OCUPADA` on, without a new request, ends
  with a request in the queue, and `EntradaSalida.exists_varada`, that there is one.
-/

import TpSisop.EntradaSalidaCola

set_option relaxedAutoImplicit false
set_option autoImplicit false

namespace EntradaSalida

open Kernel (OperacionIo PeticionIo RespuestaIo)

variable {s s' : Estado} {cola : List PeticionIo} {ms : List Mensaje} {pet : PeticionIo}

/-! ### What the threads have left -/

/-- The event is not a request of a process. -/
def Evento.Interno : Evento → Prop
  | .pedir _ => False
  | _ => True

/-- The threads are on the way of their functions, and the receiver sends no `FIN_IO`. -/
structure Encaminado (s : Estado) : Prop where
  hilos : ∀ h ∈ s.hilos, h.pendientes <:+ acciones h.pet.operacion
  tomada : s.pidUsandoInterfaz ≠ none → ∃ h ∈ s.hilos, .limpiar ∈ h.pendientes
  receptor : ∀ pet, s.receptor ≠ some (.finIo, pet)

theorem encaminado_inicial (tipoInterfaz : ℕ) : Encaminado { tipoInterfaz := tipoInterfaz } :=
  ⟨by simp, by simp, by simp⟩

theorem limpiar_mem_acciones (o : OperacionIo) : .limpiar ∈ acciones o := by
  cases o <;> simp [acciones, ioGenSleep, ioStdinRead, ioStdoutWrite, ioFsCreate, ioFsDelete,
    ioFsTruncate, ioFsRead, ioFsWrite]

/-- A thread that waits for memory has its `FIN_IO` before it. -/
theorem avisar_mem_of_esperarRespuesta {o : OperacionIo} {resto : List Accion}
    (h : .esperarRespuesta :: resto <:+ acciones o) : .avisar ∈ resto := by
  cases o <;> simp [acciones, ioGenSleep, ioStdinRead, ioStdoutWrite, ioFsCreate, ioFsDelete,
    ioFsTruncate, ioFsRead, ioFsWrite, List.suffix_cons_iff] at h <;> simp [h]

/-- The threads after one of them took a step. -/
theorem exists_hilos_set {n : ℕ} {h : Hilo} (hn : s.hilos[n]? = some h) (h' : Hilo) :
    ∃ a b, s.hilos = a ++ h :: b ∧ s.hilos.set n h' = a ++ h' :: b := by
  obtain ⟨hlt, rfl⟩ := List.getElem?_eq_some_iff.1 hn
  obtain ⟨a, b, hab, -, hset⟩ := List.exists_of_set hlt
  exact ⟨a, b, hab, hset⟩

section

variable (hE : Encaminado s)

include hE

theorem Encaminado.recibir (h : atenderKernel s = some s') : Encaminado s' := by
  unfold atenderKernel at h
  split at h
  · rename_i pet resto hrec hin
    simp only at h
    split at h
    · split at h
      · cases h
        exact ⟨hE.hilos, hE.tomada, by simp⟩
      · cases h
        refine ⟨?_, fun _ => ?_, hE.receptor⟩
        · intro x hx
          rcases List.mem_append.1 hx with hx | hx
          · exact hE.hilos x hx
          · obtain rfl := List.mem_singleton.1 hx
            exact List.suffix_refl _
        · exact ⟨_, List.mem_append_right _ (List.mem_singleton_self _), limpiar_mem_acciones _⟩
    · cases h
      exact ⟨hE.hilos, hE.tomada, by simp⟩
  · cases h

/-- A thread goes on, and clears the interface or still has to. -/
theorem Encaminado.hilo {n : ℕ} (h : avanzar s n = some s') : Encaminado s' := by
  unfold avanzar at h
  split at h
  · rename_i pet a resto hn
    obtain ⟨xs, ys, hxy, hset⟩ := exists_hilos_set hn ⟨pet, resto⟩
    have hhilos : ∀ x ∈ s.hilos.set n ⟨pet, resto⟩, x.pendientes <:+ acciones x.pet.operacion := by
      intro x hx
      rcases List.mem_or_eq_of_mem_set hx with hx | rfl
      · exact hE.hilos x hx
      · have hsuf : a :: resto <:+ acciones pet.operacion :=
          hE.hilos ⟨pet, a :: resto⟩ (by simp [hxy])
        exact (List.suffix_cons a resto).trans hsuf
    have htomada : a ≠ .limpiar → s.pidUsandoInterfaz ≠ none →
        ∃ x ∈ s.hilos.set n ⟨pet, resto⟩, .limpiar ∈ x.pendientes := by
      intro ha hp
      obtain ⟨x, hx, hl⟩ := hE.tomada hp
      rw [hxy, List.mem_append, List.mem_cons] at hx
      rcases hx with hx | rfl | hx
      · exact ⟨x, by simp [hset, hx], hl⟩
      · exact ⟨⟨pet, resto⟩, by simp [hset], (List.mem_cons.1 hl).resolve_left ha.symm⟩
      · exact ⟨x, by simp [hset, hx], hl⟩
    cases a with
    | limpiar =>
        cases h
        exact ⟨hhilos, fun hp => absurd rfl hp, hE.receptor⟩
    | avisar =>
        cases h
        exact ⟨hhilos, htomada (by decide), hE.receptor⟩
    | pedirAMemoria =>
        cases h
        exact ⟨hhilos, htomada (by decide), hE.receptor⟩
    | esperarRespuesta =>
        simp only [ejecutarAccion] at h
        split at h
        · cases h
          exact ⟨hhilos, htomada (by decide), hE.receptor⟩
        · cases h
  · cases h

/-- A step keeps the threads on their way. -/
theorem Encaminado.paso {e : Evento} (h : manejar s e = some s') : Encaminado s' := by
  cases e with
  | pedir pet =>
      cases h
      exact ⟨hE.hilos, hE.tomada, hE.receptor⟩
  | recibir => exact hE.recibir h
  | contestar =>
      obtain ⟨m, -, rfl⟩ := Option.map_eq_some_iff.1 h
      exact ⟨hE.hilos, hE.tomada, by simp⟩
  | hilo n => exact hE.hilo h
  | memoria =>
      simp only [manejar, atenderMemoria] at h
      split at h
      · cases h
      · split at h <;> cases h <;> exact ⟨hE.hilos, hE.tomada, hE.receptor⟩
  | atender =>
      simp only [manejar, atender] at h
      split at h
      · cases h
      · cases h
        exact ⟨hE.hilos, hE.tomada, hE.receptor⟩

end

theorem encaminado_of_alcanzable (h : Transicion.Alcanzable sistema s) : Encaminado s := by
  refine h.invariante ?_ fun _ _ _ hE _ hs => hE.paso hs
  rintro _ ⟨tipoInterfaz, rfl⟩
  exact encaminado_inicial tipoInterfaz

/-! ### Nothing brings a `FIN_IO` -/

/-- Somebody waits, and no `FIN_IO` that finds them is to come. -/
structure Inerte (s : Estado) : Prop where
  espera : s.Espera
  vendra : ¬s.Vendra
  receptor : ¬s.Rechaza

namespace Inerte

theorem hilo_not_debe (hI : Inerte s) {h : Hilo} (hh : h ∈ s.hilos) : ¬h.Debe :=
  fun hd => hI.vendra (.inl (.inl ⟨h, hh, hd⟩))

theorem aMemoria_not (hI : Inerte s) (hp : pet ∈ s.aMemoria) : porMemoria pet.operacion = false :=
  Bool.eq_false_iff.2 fun ht => hI.vendra (.inl (.inr ⟨pet, hp, ht⟩))

theorem aInterfaz_not (hI : Inerte s) (hp : pet ∈ s.aInterfaz) : ¬s.Soporta pet :=
  fun hs => hI.vendra (.inr (.inl ⟨pet, hp, hs⟩))

theorem encuentra_eq (hI : Inerte s) : encuentra s.listaBloqueados s.aKernel = false :=
  Bool.eq_false_iff.2 fun h => hI.vendra (.inr (.inr h))

/-- To stay inert it is enough that nothing new is owed. -/
theorem mk' (he : s.Espera) (hh : ∀ h ∈ s.hilos, ¬h.Debe)
    (hm : ∀ pet ∈ s.aMemoria, porMemoria pet.operacion = false)
    (hi : ∀ pet ∈ s.aInterfaz, ¬s.Soporta pet)
    (hk : encuentra s.listaBloqueados s.aKernel = false) (hr : ¬s.Rechaza) : Inerte s := by
  refine ⟨he, ?_, hr⟩
  rintro ((⟨h, hm', hd⟩ | ⟨pet, hp, ht⟩) | ⟨pet, hp, hs⟩ | hf)
  · exact hh h hm' hd
  · rw [hm pet hp] at ht
    cases ht
  · exact hi pet hp hs
  · rw [hk] at hf
    cases hf

end Inerte

/-- Only a `FIN_IO` finds somebody. -/
theorem encuentra_append_of_ne {m : Mensaje} (hm : m.1 ≠ .finIo) :
    encuentra cola (ms ++ [m]) = encuentra cola ms := by
  induction ms generalizing cola with
  | nil =>
      obtain ⟨r, pet⟩ := m
      cases r with
      | errorIo => rfl
      | ioOcupada => rfl
      | finIo => exact absurd rfl hm
  | cons m' ms ih =>
      obtain ⟨r, pet⟩ := m'
      cases r with
      | errorIo => exact ih
      | ioOcupada => exact ih
      | finIo => simp only [List.cons_append, encuentra, ih]

/-- An `IO_OCUPADA` that is sent with no `FIN_IO` to come. -/
theorem inerte_of_tarde (hr : s.Rechaza) (hv : ¬s.Vendra) (h : contestar s = some s') :
    Inerte s' := by
  obtain ⟨⟨r, pet⟩, hm, rfl⟩ := Option.map_eq_some_iff.1 h
  obtain rfl : r = .ioOcupada := by simpa [Estado.Rechaza, hm] using hr
  refine ⟨.inr (by simp), fun hv' => hv ?_, by simp [Estado.Rechaza]⟩
  exact hv'.imp_right (Or.imp_right fun h => (encuentra_append_of_ne (by simp)).symm.trans h)

/-! ### What is left to do -/

/-- The steps that the threads have left. -/
def porHacer (hilos : List Hilo) : ℕ := (hilos.map fun h => h.pendientes.length).sum

theorem porHacer_set {n : ℕ} {a : Accion} {resto : List Accion}
    (hn : s.hilos[n]? = some ⟨pet, a :: resto⟩) :
    porHacer (s.hilos.set n ⟨pet, resto⟩) + 1 = porHacer s.hilos := by
  obtain ⟨xs, ys, hxy, hset⟩ := exists_hilos_set hn ⟨pet, resto⟩
  rw [hset, hxy]
  simp only [porHacer, List.map_append, List.map_cons, List.sum_append, List.sum_cons,
    List.length_cons]
  omega

/-- A bound on the steps that are left.  A request may still be answered, and the answer handled; a
thread may still ask memory. -/
def Estado.trabajo (s : Estado) : ℕ :=
  3 * s.aInterfaz.length + 2 * s.receptor.toList.length + s.aKernel.length + s.aMemoria.length +
    2 * porHacer s.hilos

section

variable (hI : Inerte s)

include hI

/-- A request that the interface does not support is all that it receives. -/
theorem Inerte.recibir (h : atenderKernel s = some s') : Inerte s' ∧ s'.trabajo < s.trabajo := by
  unfold atenderKernel at h
  split at h
  · rename_i pet resto hrec hin
    have hns : ¬pet.operacion.tipoInterfaz = s.tipoInterfaz :=
      hI.aInterfaz_not (by simp [hin])
    simp only [if_neg hns] at h
    cases h
    refine ⟨.mk' hI.espera (fun _ => hI.hilo_not_debe) (fun _ => hI.aMemoria_not) ?_
      hI.encuentra_eq (by simp [Estado.Rechaza]), ?_⟩
    · exact fun p hp => hI.aInterfaz_not (by simp [hin, hp])
    · simp only [Estado.trabajo, hrec, hin, Option.toList_none, Option.toList_some,
        List.length_nil, List.length_cons]
      omega
  · cases h

theorem Inerte.contestar (hE : Encaminado s) (h : EntradaSalida.contestar s = some s') :
    Inerte s' ∧ s'.trabajo < s.trabajo := by
  obtain ⟨⟨r, pet⟩, hm, rfl⟩ := Option.map_eq_some_iff.1 h
  have hf : r ≠ .finIo := by
    rintro rfl
    exact hE.receptor pet hm
  refine ⟨.mk' (hI.espera.imp_right fun h => by simp [h]) (fun _ => hI.hilo_not_debe)
    (fun _ => hI.aMemoria_not) (fun _ => hI.aInterfaz_not) ?_ (by simp [Estado.Rechaza]), ?_⟩
  · exact (encuentra_append_of_ne hf).trans hI.encuentra_eq
  · simp only [Estado.trabajo, hm, Option.toList_none, Option.toList_some, List.length_nil,
      List.length_cons, List.length_append]
    omega

/-- A thread has no `FIN_IO` left, and goes on. -/
theorem Inerte.hilo {n : ℕ} (h : avanzar s n = some s') : Inerte s' ∧ s'.trabajo < s.trabajo := by
  unfold avanzar at h
  split at h
  · rename_i pet a resto hn
    have hset := porHacer_set hn
    have hnd : ¬Hilo.Debe ⟨pet, a :: resto⟩ := hI.hilo_not_debe (List.mem_of_getElem? hn)
    have hhilos : ∀ x ∈ s.hilos.set n ⟨pet, resto⟩, ¬x.Debe := by
      intro x hx
      rcases List.mem_or_eq_of_mem_set hx with hx | rfl
      · exact hI.hilo_not_debe hx
      · exact fun hd => hnd (hd.imp (List.mem_cons_of_mem _)
          (And.imp_left (List.mem_cons_of_mem _)))
    cases a with
    | limpiar =>
        cases h
        refine ⟨.mk' hI.espera hhilos (fun _ => hI.aMemoria_not) (fun _ => hI.aInterfaz_not)
          hI.encuentra_eq hI.receptor, ?_⟩
        simp only [Estado.trabajo]
        omega
    | avisar => exact absurd (.inl (by simp)) hnd
    | pedirAMemoria =>
        cases h
        refine ⟨.mk' hI.espera hhilos ?_ (fun _ => hI.aInterfaz_not) hI.encuentra_eq
          hI.receptor, ?_⟩
        · intro p hp
          rcases List.mem_append.1 hp with hp | hp
          · exact hI.aMemoria_not hp
          · obtain rfl := List.mem_singleton.1 hp
            exact Bool.eq_false_iff.2 fun ht => hnd (.inr ⟨by simp, ht⟩)
        · simp only [Estado.trabajo, List.length_append, List.length_singleton]
          omega
    | esperarRespuesta =>
        simp only [ejecutarAccion] at h
        split at h
        · cases h
          refine ⟨.mk' hI.espera hhilos (fun _ => hI.aMemoria_not) (fun _ => hI.aInterfaz_not)
            hI.encuentra_eq hI.receptor, ?_⟩
          simp only [Estado.trabajo]
          omega
        · cases h
  · cases h

/-- The answers of memory are for threads that wait. -/
theorem Inerte.memoria (h : atenderMemoria s = some s') : Inerte s' ∧ s'.trabajo < s.trabajo := by
  unfold atenderMemoria at h
  split at h
  · cases h
  · rename_i pet resto hmem
    have hp : porMemoria pet.operacion = false := hI.aMemoria_not (by simp [hmem])
    simp only [hp, Bool.false_eq_true, if_false] at h
    cases h
    refine ⟨.mk' hI.espera (fun _ => hI.hilo_not_debe) ?_ (fun _ => hI.aInterfaz_not)
      hI.encuentra_eq hI.receptor, ?_⟩
    · exact fun p hp => hI.aMemoria_not (by simp [hmem, hp])
    · simp only [Estado.trabajo, hmem, List.length_cons]
      omega

/-- The kernel queues a request, or handles a `FIN_IO` with an empty queue. -/
theorem Inerte.atender (h : EntradaSalida.atender s = some s') :
    Inerte s' ∧ s'.trabajo < s.trabajo := by
  unfold EntradaSalida.atender at h
  split at h
  · cases h
  · rename_i m resto hker
    obtain ⟨r, pet⟩ := m
    have he := hI.espera
    have hk := hI.encuentra_eq
    rw [Estado.Espera, hker] at he
    rw [hker] at hk
    have hlista : (atenderIo s.tipoInterfaz s.listaBloqueados (r, pet)).2 = [] ∧
        encuentra (atenderIo s.tipoInterfaz s.listaBloqueados (r, pet)).1 resto = false ∧
        ((atenderIo s.tipoInterfaz s.listaBloqueados (r, pet)).1 ≠ [] ∨
          .ioOcupada ∈ resto.map Prod.fst) := by
      cases r with
      | errorIo => exact ⟨rfl, hk, by simpa [atenderIo] using he⟩
      | ioOcupada => exact ⟨rfl, hk, .inl (by simp [atenderIo])⟩
      | finIo =>
          simp only [encuentra, Bool.or_eq_false_iff, Bool.not_eq_false', List.isEmpty_iff] at hk
          obtain ⟨hnil, hk⟩ := hk
          rw [hnil] at he hk ⊢
          exact ⟨rfl, hk, by simpa [atenderIo] using he⟩
    obtain ⟨hsin, hk', he'⟩ := hlista
    cases h
    refine ⟨.mk' he' (fun _ => hI.hilo_not_debe) (fun _ => hI.aMemoria_not) ?_ hk'
      hI.receptor, ?_⟩
    · intro p hp
      rw [hsin, List.append_nil] at hp
      exact hI.aInterfaz_not hp
    · simp only [Estado.trabajo, hsin, hker, List.append_nil, List.length_cons]
      omega

/-- Without a new request an inert interface stays inert, and has less to do. -/
theorem Inerte.paso (hE : Encaminado s) {e : Evento} (he : e.Interno)
    (h : manejar s e = some s') : Inerte s' ∧ s'.trabajo < s.trabajo := by
  cases e with
  | pedir pet => exact he.elim
  | recibir => exact hI.recibir h
  | contestar => exact hI.contestar hE h
  | hilo n => exact hI.hilo h
  | memoria => exact hI.memoria h
  | atender => exact hI.atender h

/-- An inert interface that has no step left is at rest, and somebody waits in the queue. -/
theorem Inerte.enReposo (hE : Encaminado s) (hfin : ∀ e : Evento, e.Interno → manejar s e = none) :
    s.EnReposo ∧ s.listaBloqueados ≠ [] := by
  have hrec : s.receptor = none := Option.map_eq_none_iff.1 (hfin .contestar trivial)
  have hin : s.aInterfaz = [] := by
    cases hin : s.aInterfaz with
    | nil => rfl
    | cons pet resto =>
        have hns : ¬pet.operacion.tipoInterfaz = s.tipoInterfaz :=
          hI.aInterfaz_not (by simp [hin])
        have h := hfin .recibir trivial
        simp [manejar, atenderKernel, hrec, hin, hns] at h
  have hker : s.aKernel = [] := by
    cases hker : s.aKernel with
    | nil => rfl
    | cons m resto =>
        have h := hfin .atender trivial
        simp [manejar, EntradaSalida.atender, hker] at h
  have hmem : s.aMemoria = [] := by
    cases hmem : s.aMemoria with
    | nil => rfl
    | cons pet resto =>
        have hp : porMemoria pet.operacion = false := hI.aMemoria_not (by simp [hmem])
        have h := hfin .memoria trivial
        simp [manejar, atenderMemoria, hmem, hp] at h
  have hhilos : ∀ x ∈ s.hilos, x.pendientes = [] := by
    rintro ⟨pet, pendientes⟩ hx
    cases pendientes with
    | nil => rfl
    | cons a resto =>
        obtain ⟨n, hn⟩ := List.getElem?_of_mem hx
        have h := hfin (.hilo n) trivial
        simp only [manejar, avanzar, hn] at h
        cases a with
        | limpiar | avisar | pedirAMemoria => cases h
        | esperarRespuesta =>
            have hav : .avisar ∈ resto := avisar_mem_of_esperarRespuesta (hE.hilos _ hx)
            exact absurd (.inl (List.mem_cons_of_mem _ hav)) (hI.hilo_not_debe hx)
  refine ⟨⟨hin, hker, ?_, hrec, hhilos, hmem⟩, ?_⟩
  · by_contra hp
    obtain ⟨x, hx, hl⟩ := hE.tomada hp
    rw [hhilos x hx] at hl
    cases hl
  · simpa [Estado.Espera, hker] using hI.espera

end

/-! ### Late answers -/

theorem inerte_encaminado (s : Estado) (e : Evento) (s' : Estado) (h : Encaminado s ∧ Inerte s)
    (he : e.Interno) (hs : manejar s e = some s') :
    (Encaminado s' ∧ Inerte s') ∧ s'.trabajo < s.trabajo := by
  obtain ⟨hE, hI⟩ := h
  obtain ⟨hI', hlt⟩ := hI.paso hE he hs
  exact ⟨⟨hE.paso hs, hI'⟩, hlt⟩

section

variable {s₁ : Estado} (h : Transicion.Alcanzable sistema s) (hr : s.Rechaza) (hv : ¬s.Vendra)
  (h₁ : contestar s = some s₁)

include h hr hv h₁

theorem encaminado_inerte_of_tarde : Encaminado s₁ ∧ Inerte s₁ :=
  ⟨(encaminado_of_alcanzable h).paso (e := .contestar) h₁, inerte_of_tarde hr hv h₁⟩

/-- From an `IO_OCUPADA` on that is sent with no `FIN_IO` to come, every run without a new request
ends, after at most `trabajo` steps, and where it ends the interface is at rest and a request is in
the queue. -/
theorem tarde_varada {s₂ : Estado} {es : List Evento} (hes : ∀ e ∈ es, e.Interno)
    (h₂ : Transicion.ejecutar manejar s₁ es = some s₂) :
    es.length ≤ s₁.trabajo ∧
      ((∀ e : Evento, e.Interno → manejar s₂ e = none) →
        s₂.EnReposo ∧ s₂.listaBloqueados ≠ []) := by
  have hs₁ := encaminado_inerte_of_tarde h hr hv h₁
  obtain ⟨⟨hE, hI⟩, hle⟩ := Transicion.ejecutar_medida inerte_encaminado hes hs₁ h₂
  exact ⟨by omega, fun hfin => hI.enReposo hE hfin⟩

/-- One such run is always left. -/
theorem exists_varada :
    ∃ es s₂, (∀ e ∈ es, e.Interno) ∧ Transicion.ejecutar manejar s₁ es = some s₂ ∧
      s₂.EnReposo ∧ s₂.listaBloqueados ≠ [] := by
  have hs₁ := encaminado_inerte_of_tarde h hr hv h₁
  obtain ⟨es, s₂, hes, h₂, ⟨hE, hI⟩, hfin⟩ :=
    Transicion.exists_ejecutar_fin inerte_encaminado hs₁
  exact ⟨es, s₂, hes, h₂, hI.enReposo hE hfin⟩

end

end EntradaSalida
