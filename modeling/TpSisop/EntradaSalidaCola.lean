/-
**No request is left in the queue of an interface.**

A request that was refused waits in `lista_bloqueados` for the next `FIN_IO`.  Its `IO_OCUPADA`
must not be the last message: something that still brings a `FIN_IO` has to be behind it, a thread,
an answer of memory, a request that the interface will serve, or a `FIN_IO` that is on its way and
will find the queue not empty.  As long as every `IO_OCUPADA` is sent in time no request is left.
The receiver does not make sure of it: between its test and its answer the thread may be done; and
`io_fs_write` sends its `FIN_IO` while the interface is still taken.

Main definitions:

* `EntradaSalida.encuentra`, `EntradaSalida.Estado.Vendra` — a `FIN_IO` for the queue is to come;
* `EntradaSalida.aTiempo` — the steps in which no `IO_OCUPADA` comes late;
* `EntradaSalida.Ordenado` — the invariant;
* `EntradaSalida.Estado.EnReposo` — nothing is on its way and nobody has a step to take.

Main results:

* `EntradaSalida.Ordenado.paso` — a step keeps the invariant;
* `EntradaSalida.cola_vacia` — in every run whose answers come in time, an interface at rest has no
  request in its queue;
* `EntradaSalida.cola_no_vacia` — a request that is refused twice, and stays.
-/

import TpSisop.EntradaSalida

set_option relaxedAutoImplicit false
set_option autoImplicit false

namespace EntradaSalida

open Kernel (OperacionIo PeticionIo RespuestaIo reenvio)

/-! ### What brings a `FIN_IO` -/

/-- Handled in order, one of the messages is a `FIN_IO` that finds the queue not empty. -/
def encuentra (cola : List PeticionIo) : List Mensaje → Bool
  | [] => false
  | (.errorIo, _) :: ms => encuentra cola ms
  | (.ioOcupada, pet) :: ms => encuentra (cola ++ [pet]) ms
  | (.finIo, _) :: ms => !cola.isEmpty || encuentra cola ms

/-- The thread sends a `FIN_IO`, or memory does when it answers the thread. -/
def Hilo.Debe (h : Hilo) : Prop :=
  .avisar ∈ h.pendientes ∨ .pedirAMemoria ∈ h.pendientes ∧ porMemoria h.pet.operacion

instance (h : Hilo) : Decidable h.Debe := inferInstanceAs (Decidable (_ ∨ _))

namespace Estado

/-- The interface supports the operation. -/
def Soporta (s : Estado) (pet : PeticionIo) : Prop := pet.operacion.tipoInterfaz = s.tipoInterfaz

/-- A `FIN_IO` that was not sent yet. -/
def Debe (s : Estado) : Prop :=
  (∃ h ∈ s.hilos, h.Debe) ∨ ∃ pet ∈ s.aMemoria, porMemoria pet.operacion = true

/-- A `FIN_IO` that finds the queue not empty is to come, now or after another request is served. -/
def Vendra (s : Estado) : Prop :=
  s.Debe ∨ (∃ pet ∈ s.aInterfaz, s.Soporta pet) ∨ encuentra s.listaBloqueados s.aKernel = true

/-- Somebody waits for a `FIN_IO`. -/
def Espera (s : Estado) : Prop :=
  s.listaBloqueados ≠ [] ∨ .ioOcupada ∈ s.aKernel.map Prod.fst

/-- The receiver has not answered yet that the interface is taken. -/
def Rechaza (s : Estado) : Prop := s.receptor.map Prod.fst = some .ioOcupada

/-- Both channels are empty, and the interface is idle with no step pending. -/
structure EnReposo (s : Estado) : Prop where
  aInterfaz : s.aInterfaz = []
  aKernel : s.aKernel = []
  pidUsandoInterfaz : s.pidUsandoInterfaz = none
  receptor : s.receptor = none
  hilos : ∀ h ∈ s.hilos, h.pendientes = []
  aMemoria : s.aMemoria = []

instance (s : Estado) (pet : PeticionIo) : Decidable (s.Soporta pet) :=
  inferInstanceAs (Decidable (_ = _))

instance (s : Estado) : Decidable s.Debe := inferInstanceAs (Decidable (_ ∨ _))

instance (s : Estado) : Decidable s.Vendra := inferInstanceAs (Decidable (_ ∨ _ ∨ _))

instance (s : Estado) : Decidable s.Rechaza := inferInstanceAs (Decidable (_ = _))

end Estado

variable {s s' : Estado} {cola : List PeticionIo} {ms : List Mensaje} {pet : PeticionIo}

/-! ### Messages behind one another -/

theorem encuentra_append (h : encuentra cola ms = true) (ms' : List Mensaje) :
    encuentra cola (ms ++ ms') = true := by
  induction ms generalizing cola with
  | nil => cases h
  | cons m ms ih =>
      obtain ⟨r, pet⟩ := m
      cases r with
      | errorIo => exact ih h
      | ioOcupada => exact ih h
      | finIo =>
          simp only [encuentra, List.cons_append, Bool.or_eq_true] at h ⊢
          exact h.imp_right ih

/-- A `FIN_IO` behind an `IO_OCUPADA`, or with a queue that is not empty. -/
theorem encuentra_finIo (h : cola ≠ [] ∨ .ioOcupada ∈ ms.map Prod.fst) (pet : PeticionIo) :
    encuentra cola (ms ++ [(.finIo, pet)]) = true := by
  induction ms generalizing cola with
  | nil =>
      have hc : cola ≠ [] := by simpa using h
      simpa [encuentra, List.isEmpty_iff] using hc
  | cons m ms ih =>
      obtain ⟨r, p⟩ := m
      cases r with
      | errorIo => exact ih (by simpa using h)
      | ioOcupada => exact ih (.inl (by simp))
      | finIo =>
          simp only [encuentra, List.cons_append, Bool.or_eq_true]
          exact .inr (ih (by simpa using h))

/-- Every operation ends with a `FIN_IO`. -/
theorem debe_acciones (pet : PeticionIo) : Hilo.Debe ⟨pet, acciones pet.operacion⟩ := by
  obtain ⟨pid, operacion⟩ := pet
  cases operacion <;> simp [Hilo.Debe, acciones, ioGenSleep, ioStdinRead, ioStdoutWrite, ioFsCreate,
    ioFsDelete, ioFsTruncate, ioFsRead, ioFsWrite, porMemoria]

/-- The kernel sends a request again as it was. -/
theorem reenvio_of_soporta (h : s.Soporta pet) :
    reenvio s.tipoInterfaz pet.operacion = some pet.operacion := by
  obtain ⟨pid, operacion⟩ := pet
  rw [← show operacion.tipoInterfaz = s.tipoInterfaz from h]
  cases operacion <;> rfl

/-! ### The invariant -/

/-- What is queued can be sent again, and whoever waits has a `FIN_IO` to come, but for the request
whose refusal was not sent yet. -/
structure Ordenado (s : Estado) : Prop where
  cola : ∀ pet ∈ s.listaBloqueados, s.Soporta pet
  mensajes : ∀ pet, (.ioOcupada, pet) ∈ s.aKernel → s.Soporta pet
  receptor : ∀ pet, s.receptor = some (.ioOcupada, pet) → s.Soporta pet
  vendra : ¬s.Rechaza → s.Espera → s.Vendra

/-- The receiver answers that the interface is taken while a `FIN_IO` is to come. -/
def aTiempo (s : Estado) : Evento → Prop
  | .contestar => s.Rechaza → s.Vendra
  | _ => True

instance (s : Estado) : DecidablePred (aTiempo s)
  | .contestar => inferInstanceAs (Decidable (_ → _))
  | .pedir _ | .recibir | .hilo _ | .memoria | .atender => .isTrue trivial

theorem ordenado_inicial (tipoInterfaz : ℕ) : Ordenado { tipoInterfaz := tipoInterfaz } :=
  ⟨by simp, by simp, by simp, fun _ h => by simp [Estado.Espera] at h⟩

/-- A thread that takes a step other than the one that brings its `FIN_IO` still owes it. -/
theorem debe_avanza {n : ℕ} {a : Accion} {resto : List Accion}
    (hn : s.hilos[n]? = some ⟨pet, a :: resto⟩) (ha : a ≠ .avisar)
    (hp : a = .pedirAMemoria → porMemoria pet.operacion = false) (h : s.Debe) :
    Estado.Debe { s with hilos := s.hilos.set n ⟨pet, resto⟩ } := by
  have hlt : n < s.hilos.length := (List.getElem?_eq_some_iff.1 hn).1
  rcases h with ⟨x, hx, hd⟩ | hm
  · obtain ⟨m, hm, rfl⟩ := List.mem_iff_getElem.1 hx
    by_cases hmn : n = m
    · subst hmn
      have hx : s.hilos[n] = ⟨pet, a :: resto⟩ := by simpa [hlt] using hn
      rw [hx] at hd
      simp only [Hilo.Debe, List.mem_cons] at hd
      refine .inl ⟨_, List.mem_set hlt _, ?_⟩
      rcases hd with (rfl | hd) | ⟨rfl | hd, hpm⟩
      · exact absurd rfl ha
      · exact .inl hd
      · rw [hp rfl] at hpm
        cases hpm
      · exact .inr ⟨hd, hpm⟩
    · refine .inl ⟨_, List.mem_iff_getElem.2 ⟨m, by simpa using hm, ?_⟩, hd⟩
      exact List.getElem_set_ne hmn _
  · exact .inr hm

/-- A message that has nothing sent again, and the messages behind it. -/
theorem Estado.Vendra.detras {cola' : List PeticionIo} {ms' : List Mensaje} (hv : s.Vendra)
    (he : encuentra s.listaBloqueados s.aKernel = encuentra cola' ms') :
    Estado.Vendra { s with
      aKernel := ms', listaBloqueados := cola', aInterfaz := s.aInterfaz ++ [] } := by
  refine hv.imp_right (Or.imp ?_ fun h => he ▸ h)
  rintro ⟨p, hp, hs⟩
  exact ⟨p, List.mem_append_left _ hp, hs⟩

section

variable (hO : Ordenado s)

include hO

theorem Ordenado.pedir (pet : PeticionIo) :
    Ordenado { s with aInterfaz := s.aInterfaz ++ [pet] } where
  cola := hO.cola
  mensajes := hO.mensajes
  receptor := hO.receptor
  vendra hr he := by
    refine (hO.vendra hr he).imp_right (Or.imp_left ?_)
    rintro ⟨p, hp, hs⟩
    exact ⟨p, List.mem_append_left _ hp, hs⟩

/-- A request that is served brings a `FIN_IO`; one that is not supported brought none. -/
theorem Ordenado.recibir (h : atenderKernel s = some s') : Ordenado s' := by
  unfold atenderKernel at h
  split at h
  · rename_i pet resto hrec hin
    have hv : s.Espera → ¬s.Soporta pet → s.Debe ∨ (∃ p ∈ resto, s.Soporta p) ∨
        encuentra s.listaBloqueados s.aKernel = true := by
      intro he hns
      refine (hO.vendra (by simp [Estado.Rechaza, hrec]) he).imp_right (Or.imp_left ?_)
      rintro ⟨p, hp, hs⟩
      rw [hin, List.mem_cons] at hp
      rcases hp with rfl | hp
      · exact absurd hs hns
      · exact ⟨p, hp, hs⟩
    simp only at h
    split at h
    · rename_i hs
      split at h
      · cases h
        refine ⟨hO.cola, hO.mensajes, ?_, fun hr => absurd (by simp [Estado.Rechaza]) hr⟩
        rintro p hp
        cases hp
        exact hs
      · cases h
        refine ⟨hO.cola, hO.mensajes, hO.receptor, fun _ _ => .inl (.inl ?_)⟩
        exact ⟨_, List.mem_append_right _ (List.mem_singleton_self _), debe_acciones pet⟩
    · rename_i hs
      cases h
      refine ⟨hO.cola, hO.mensajes, ?_, fun _ he => hv he hs⟩
      rintro p hp
      cases hp
  · cases h

theorem Ordenado.contestar (hC : s.Rechaza → s.Vendra)
    (h : EntradaSalida.contestar s = some s') : Ordenado s' := by
  obtain ⟨⟨r, pet⟩, hm, rfl⟩ := Option.map_eq_some_iff.1 h
  refine ⟨hO.cola, ?_, by simp, fun _ he => ?_⟩
  · intro p hp
    rcases List.mem_append.1 hp with hp | hp
    · exact hO.mensajes p hp
    · rw [List.mem_singleton] at hp
      exact hO.receptor p (hm.trans (congrArg some hp.symm))
  · have hv : s.Vendra := by
      by_cases hr : s.Rechaza
      · exact hC hr
      · refine hO.vendra hr ?_
        have hne : r ≠ .ioOcupada := by
          rintro rfl
          exact hr (by simp [Estado.Rechaza, hm])
        simpa [Estado.Espera, hne.symm] using he
    exact hv.imp_right (Or.imp_right fun h => encuentra_append h _)

/-- A thread that has sent its `FIN_IO` leaves it behind everybody who waits. -/
theorem Ordenado.hilo {n : ℕ} (h : avanzar s n = some s') : Ordenado s' := by
  unfold avanzar at h
  split at h
  · rename_i pet a resto hn
    have hdebe : a ≠ .avisar → (a = .pedirAMemoria → porMemoria pet.operacion = false) →
        s.Vendra → Estado.Vendra { s with hilos := s.hilos.set n ⟨pet, resto⟩ } :=
      fun ha hp hv => hv.imp_left (debe_avanza hn ha hp)
    cases a with
    | limpiar =>
        cases h
        refine ⟨hO.cola, hO.mensajes, hO.receptor, fun hr he => ?_⟩
        exact hdebe (by decide) (by simp) (hO.vendra hr he)
    | avisar =>
        cases h
        refine ⟨hO.cola, ?_, hO.receptor, fun _ he => ?_⟩
        · intro p hp
          exact hO.mensajes p (by simpa using hp)
        · exact .inr (.inr (encuentra_finIo (by simpa [Estado.Espera] using he) pet))
    | pedirAMemoria =>
        cases h
        refine ⟨hO.cola, hO.mensajes, hO.receptor, fun hr he => ?_⟩
        cases hp : porMemoria pet.operacion with
        | true => exact .inl (.inr ⟨pet, List.mem_append_right _ (List.mem_singleton_self _), hp⟩)
        | false =>
            refine (hdebe (by decide) (fun _ => hp) (hO.vendra hr he)).imp_left (Or.imp_right ?_)
            rintro ⟨p, hp, hpm⟩
            exact ⟨p, List.mem_append_left _ hp, hpm⟩
    | esperarRespuesta =>
        simp only [ejecutarAccion] at h
        split at h
        · cases h
          refine ⟨hO.cola, hO.mensajes, hO.receptor, fun hr he => ?_⟩
          exact hdebe (by decide) (by simp) (hO.vendra hr he)
        · cases h
  · cases h

theorem Ordenado.memoria (h : atenderMemoria s = some s') : Ordenado s' := by
  unfold atenderMemoria at h
  split at h
  · cases h
  · rename_i pet resto hmem
    simp only at h
    split at h
    · cases h
      refine ⟨hO.cola, ?_, hO.receptor, fun _ he => ?_⟩
      · intro p hp
        exact hO.mensajes p (by simpa using hp)
      · exact .inr (.inr (encuentra_finIo (by simpa [Estado.Espera] using he) pet))
    · rename_i hp
      cases h
      refine ⟨hO.cola, hO.mensajes, hO.receptor, fun hr he => ?_⟩
      refine (hO.vendra hr he).imp_left (Or.imp_right ?_)
      rintro ⟨p, hpm, ht⟩
      rw [hmem, List.mem_cons] at hpm
      rcases hpm with rfl | hpm
      · exact absurd ht hp
      · exact ⟨p, hpm, ht⟩

/-- The kernel sends a queued request again, or the message was not the `FIN_IO` that is to come. -/
theorem Ordenado.atender (h : EntradaSalida.atender s = some s') : Ordenado s' := by
  unfold EntradaSalida.atender at h
  split at h
  · cases h
  · rename_i m resto hker
    obtain ⟨r, pet⟩ := m
    have hmens : ∀ p, (.ioOcupada, p) ∈ resto → s.Soporta p :=
      fun p hp => hO.mensajes p (by simp [hker, hp])
    cases r with
    | errorIo =>
        cases h
        refine ⟨hO.cola, hmens, hO.receptor, fun hr he => ?_⟩
        have hv := hO.vendra hr (by simpa [Estado.Espera, hker, atenderIo] using he)
        exact hv.detras (by rw [hker]; rfl)
    | ioOcupada =>
        cases h
        refine ⟨?_, hmens, hO.receptor, fun hr he => ?_⟩
        · intro p hp
          rcases List.mem_append.1 hp with hp | hp
          · exact hO.cola p hp
          · rw [List.mem_singleton] at hp
            exact hO.mensajes p (by simp [hker, hp])
        · have hv := hO.vendra hr (.inr (by simp [hker]))
          exact hv.detras (by rw [hker]; rfl)
    | finIo =>
        cases hcola : s.listaBloqueados with
        | nil =>
            simp only [atenderIo, hcola] at h
            cases h
            refine ⟨by simp, hmens, hO.receptor, fun hr he => ?_⟩
            have hv := hO.vendra hr (by simpa [Estado.Espera, hker, hcola] using he)
            exact hv.detras (by rw [hker, hcola]; rfl)
        | cons p cola =>
            have hp : s.Soporta p := hO.cola p (by simp [hcola])
            simp only [atenderIo, hcola, reenvio_of_soporta hp] at h
            cases h
            refine ⟨fun q hq => hO.cola q (by simp [hcola, hq]), hmens, hO.receptor,
              fun _ _ => .inr (.inl ⟨p, ?_, hp⟩)⟩
            simp

/-- A step keeps the invariant. -/
theorem Ordenado.paso {e : Evento} (hC : aTiempo s e) (h : sistema.paso s e s') : Ordenado s' := by
  cases e with
  | pedir pet =>
      cases h
      exact hO.pedir pet
  | recibir => exact hO.recibir h
  | contestar => exact hO.contestar hC h
  | hilo n => exact hO.hilo h
  | memoria => exact hO.memoria h
  | atender => exact hO.atender h

end

/-! ### At rest -/

/-- In every run in which each `IO_OCUPADA` is sent while a `FIN_IO` for it is to come, an interface
at rest has left no request in the queue of the kernel. -/
theorem cola_vacia (h : Transicion.AlcanzableCon sistema aTiempo s) (hr : s.EnReposo) :
    s.listaBloqueados = [] := by
  have hO : Ordenado s := by
    refine h.invariante ?_ fun _ _ _ hO hC hs => hO.paso hC hs
    rintro _ ⟨tipoInterfaz, rfl⟩
    exact ordenado_inicial tipoInterfaz
  by_contra hne
  rcases hO.vendra (by simp [Estado.Rechaza, hr.receptor]) (.inl hne) with
    (⟨x, hx, hd⟩ | ⟨p, hp, -⟩) | ⟨p, hp, -⟩ | he
  · simp [Hilo.Debe, hr.hilos x hx] at hd
  · simp [hr.aMemoria] at hp
  · simp [hr.aInterfaz] at hp
  · simp [hr.aKernel, encuentra] at he

instance (s : Estado) : Decidable s.EnReposo :=
  decidable_of_iff
    (s.aInterfaz = [] ∧ s.aKernel = [] ∧ s.pidUsandoInterfaz = none ∧ s.receptor = none ∧
      (∀ h ∈ s.hilos, h.pendientes = []) ∧ s.aMemoria = [])
    ⟨fun ⟨h₁, h₂, h₃, h₄, h₅, h₆⟩ => ⟨h₁, h₂, h₃, h₄, h₅, h₆⟩,
      fun h => ⟨h.1, h.2, h.3, h.4, h.5, h.6⟩⟩

/-- The state after an event, for runs that are computed. -/
def intentar (C : Estado → Evento → Prop) [∀ s e, Decidable (C s e)] (s : Estado) (e : Evento) :
    Option Estado :=
  if C s e then manejar s e else none

theorem paso_of_intentar {C : Estado → Evento → Prop} [∀ s e, Decidable (C s e)] {e : Evento}
    (h : intentar C s e = some s') : C s e ∧ sistema.paso s e s' := by
  unfold intentar at h
  split at h
  · exact ⟨‹_›, h⟩
  · cases h

/-- The state in which a list of events ends, at an interface of one type. -/
def correr (C : Estado → Evento → Prop) [∀ s e, Decidable (C s e)] (tipoInterfaz : ℕ)
    (es : List Evento)
    (h : (Transicion.ejecutar (intentar C) { tipoInterfaz := tipoInterfaz } es).isSome = true) :
    Estado :=
  Transicion.estadoTras (intentar C) _ es h

theorem alcanzable_correr {C : Estado → Evento → Prop} [∀ s e, Decidable (C s e)]
    {tipoInterfaz : ℕ} {es : List Evento}
    (h : (Transicion.ejecutar (intentar C) { tipoInterfaz := tipoInterfaz } es).isSome = true) :
    Transicion.AlcanzableCon sistema C (correr C tipoInterfaz es h) :=
  Transicion.alcanzableCon_estadoTras (fun _ _ _ => paso_of_intentar) ⟨tipoInterfaz, rfl⟩ h

/-- The second of two sleeps is refused, queued, sent again, and served. -/
def dosSleeps : Estado :=
  correr aTiempo 1
    [.pedir ⟨1, .genSleep⟩, .pedir ⟨2, .genSleep⟩, .recibir, .recibir, .contestar, .atender,
      .hilo 0, .hilo 0, .atender, .recibir, .hilo 1, .hilo 1, .atender]
    (by decide)

theorem cola_vacia_dosSleeps : dosSleeps.listaBloqueados = [] :=
  cola_vacia (alcanzable_correr _) (by decide)

/-- The second of two requests to write is refused and queued.  The `FIN_IO` of the first has it
sent again, and it is refused once more: the thread of the first has not let go of the interface. -/
def escrituraVarada : Estado :=
  correr (fun _ _ => True) 4
    [.pedir ⟨1, .fsWrite⟩, .pedir ⟨2, .fsWrite⟩, .recibir, .recibir, .contestar, .atender, .hilo 0,
      .memoria, .hilo 0, .hilo 0, .atender, .recibir, .contestar, .hilo 0, .atender]
    (by decide)

/-- It stays in the queue, and nothing is left to happen. -/
theorem cola_no_vacia :
    ¬∀ s, Transicion.Alcanzable sistema s → s.EnReposo → s.listaBloqueados = [] := by
  intro h
  exact absurd (h escrituraVarada (alcanzable_correr _) (by decide)) (by decide)

end EntradaSalida
