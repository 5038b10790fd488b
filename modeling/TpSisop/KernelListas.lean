/-
**Every process is in one list, and nobody looks for a process that is not there.**

A process moves from one list to another when the console, the CPU or an interface says so, and the
handler looks for it where it should be.  Two deaths break that.  A process killed while it waits
for an interface leaves a request behind: when the interface answers, the handler of the answer
looks for it in BLOCKED.  And under RR a process killed in READY leaves a token behind, with which
the scheduler takes the first process of an empty list.

Main definitions:

* `Kernel.sinMatarEsperas` — the steps that kill no process in either way;
* `Kernel.SinMuertos` — the interfaces have no request about a dead process;
* `Kernel.EnSuLista` — what holds of the lists.

Main results:

* `Kernel.Movimiento.sinMuertos` — a movement that meets the condition keeps the requests;
* `Kernel.en_su_lista` — in every run whose steps meet it every process is in one list, and no
  handler uses a null pointer;
* `Kernel.no_en_su_lista` — a process killed while it waits for an interface that then answers.
-/

import TpSisop.KernelFallas

set_option relaxedAutoImplicit false
set_option autoImplicit false

namespace Kernel

open Coleccion (Diccionario)
open Resultado (Cumple)

variable {v v' : Vista} {p : Pcb}

/-- The steps that kill no process that waits for an interface and, under RR, none in READY. -/
def sinMatarEsperas (v : Vista) : Evento → Prop
  | .finalizarProceso pid =>
      (∀ p ∈ v.listas .blocked, p.pid = pid → p.recursoEsperando ≠ none) ∧
        (v.algoritmo = .rr → ∀ p ∈ v.listas .ready, p.pid ≠ pid)
  | _ => True

instance (v : Vista) : DecidablePred (sinMatarEsperas v)
  | .finalizarProceso pid => inferInstanceAs (Decidable
      ((∀ p ∈ v.listas .blocked, p.pid = pid → p.recursoEsperando ≠ none) ∧
        (v.algoritmo = .rr → ∀ p ∈ v.listas .ready, p.pid ≠ pid)))
  | .iniciarProceso | .iniciarPlanificacion | .detenerPlanificacion | .multiprogramacion _
  | .cpu _ _ _ | .interfaz _ _ _ | .conexionIo _ _ | .memoria _ | .corto _ | .reloj | .largo =>
      .isTrue trivial

/-! ### The requests are about processes that live -/

/-- The interfaces have no request about a dead process, and none about nobody. -/
structure SinMuertos (v : Vista) : Prop where
  muertos : ∀ p ∈ v.listas .exit, pedidos v.interfaces p.pid = 0
  cola : ∀ {n i io}, v.interfaces.valor n = some i → io ∈ i.listaBloqueados → io.pcb ≠ none

/-- A queued request is counted. -/
theorem pedidos_pos_cola {d : Diccionario Interfaz} {n : String} {i : Interfaz} {io : IoPcb} {x : ℕ}
    (h : d.valor n = some i) (hio : io ∈ i.listaBloqueados) (hx : io.pcb = some x) :
    0 < pedidos d x := by
  have h₁ := pedidos_le h x
  have h₂ : 0 < i.listaBloqueados.countP fun io => io.pcb = some x :=
    List.countP_pos_iff.2 ⟨io, hio, by simpa using hx⟩
  unfold Interfaz.pedidos at h₁
  omega

/-- A process about which there is a request waits for an interface. -/
theorem SinMuertos.espera (hM : SinMuertos v) (hP : Pedidos v) {x : ℕ}
    (hx : 0 < pedidos v.interfaces x) :
    ∃ p ∈ v.listas .blocked, p.pid = x ∧ p.recursoEsperando = none := by
  obtain ⟨p, rfl, h | h⟩ := hP.quieto x hx
  · exact ⟨p, h.1, rfl, h.2⟩
  · rw [hM.muertos p h] at hx
    omega

theorem SinMuertos.vivos (hM : SinMuertos v) (hP : Pedidos v) : Vivos v := by
  intro n i hi
  refine ⟨fun pet hpet => ?_, fun io hio => ?_⟩
  · obtain ⟨p, hp, hpid, -⟩ := hM.espera hP (pedidos_pos hi hpet)
    exact ⟨p, hp, hpid⟩
  · obtain ⟨x, hx⟩ := Option.ne_none_iff_exists'.1 (hM.cola hi hio)
    obtain ⟨p, hp, rfl, -⟩ := hM.espera hP (pedidos_pos_cola hi hio hx)
    exact ⟨p, hp, hx⟩

/-- A process that is not waiting for an interface has no request. -/
theorem Pedidos.eq_zero (hP : Pedidos v) (hB : Base v) {l : Lista} (hp : p ∈ v.listas l)
    (hl : l ≠ .exit) (he : l = .blocked → p.recursoEsperando ≠ none) :
    pedidos v.interfaces p.pid = 0 := by
  by_contra hne
  rcases (hP.quieto p.pid (Nat.pos_of_ne_zero hne)).lista (hB.veces_le _) hp with h | h
  · exact he h.1 h.2
  · exact hl h

/-- One interface changes, and nobody dies about whom there is a request. -/
theorem SinMuertos.conInterfaz (hM : SinMuertos v) {nombre : String} {i' : Interfaz}
    (hint : v'.interfaces = v.interfaces.poner nombre i')
    (hi' : ∀ io ∈ i'.listaBloqueados, io.pcb ≠ none)
    (hp : ∀ p ∈ v'.listas .exit, pedidos (v.interfaces.poner nombre i') p.pid = 0) :
    SinMuertos v' := by
  refine ⟨fun p h => by rw [hint]; exact hp p h, fun {n i io} h hio => ?_⟩
  rw [hint] at h
  rcases Diccionario.poner_eq_some h with ⟨rfl, rfl⟩ | ⟨-, h⟩
  · exact hi' io hio
  · exact hM.cola h hio

/-- A process dies about which there is no request. -/
theorem SinMuertos.salir (hM : SinMuertos v) (hexit : v'.listas .exit = v.listas .exit)
    (hint : v'.interfaces = v.interfaces) (hp : pedidos v.interfaces p.pid = 0) :
    SinMuertos (v'.salir p) := by
  refine ⟨fun q hq => ?_, fun h hio => hM.cola (hint ▸ h) hio⟩
  show pedidos v'.interfaces q.pid = 0
  rw [hint]
  rcases mem_salir.1 hq with hq | rfl
  · exact hM.muertos q (hexit ▸ hq)
  · exact hp

/-- A movement that meets the condition leaves no request about a dead process. -/
theorem Movimiento.sinMuertos {e : Evento} (hB : Base v) (hO : Ordenada v) (hM : SinMuertos v)
    (hC : sinMatarEsperas v e) (h : Movimiento v e v') : SinMuertos v' := by
  have hP := hO.pedidos
  -- nobody dies and no interface changes
  have hcopia : ∀ {w : Vista}, w.interfaces = v.interfaces → w.listas .exit = v.listas .exit →
      SinMuertos w := by
    intro w hi he
    exact ⟨fun p hp => hi ▸ hM.muertos p (he ▸ hp), fun h hio => hM.cola (hi ▸ h) hio⟩
  cases h with
  | quieto => exact hM
  | pasadaVacia hn hm hrr hfifo hvrr => exact hcopia rfl rfl
  | creacion => exact hcopia rfl (by simp)
  | admision h => exact hcopia rfl (by simp)
  | @despacho ahora l p p' resto n m hl h hp hn hm =>
      have hne : Lista.exit ≠ l := by
        rintro rfl
        simp at hl
      exact hcopia rfl (by simp [hne])
  | finDeQuantum h => exact hcopia rfl (by simp)
  | @bloqueoIo q p p' nombre operacion ahora i h hi hp =>
      refine hM.conInterfaz rfl (fun io hio => hM.cola hi hio) fun r hr => ?_
      have hr : r ∈ v.listas .exit := by simpa using hr
      have hne : p.pid ≠ r.pid := by
        intro hpid
        have hq : q ∈ v.listas .running := by simp [h.running]
        cases (eq_of_pid (hB.veces_le _) hq hr (hpid.symm.trans h.pid.symm)).1
      rw [pedidos_enviada hi, hM.muertos r hr, if_neg hne]
  | bloqueoRecurso h hr hi => exact hcopia rfl (by simp)
  | concesion h hr hi hp => exact hcopia rfl (by simp)
  | signal h hr hi hp =>
      have he := hi.marco.listas .exit (by simp) (by simp)
      exact hcopia hi.marco.interfaces (by simpa using he)
  | @muerteCpu q p m ahora v₁ h hterm hl =>
      have hq : q ∈ v.listas .running := by simp [h.running]
      have he := hl.marco.listas .exit (by simp) (by simp)
      have hcero := hP.eq_zero hB hq (by decide) (fun h => by cases h)
      rw [h.pid] at hcero
      have hM₁ : SinMuertos (v₁.salir p) :=
        hM.salir (by simpa [Vista.conLista] using he) hl.marco.interfaces hcero
      exact ⟨hM₁.muertos, hM₁.cola⟩
  | @muerteConsola pid l a b p v₁ hlista h hp hl =>
      have hmem : p ∈ v.listas l := by simp [h]
      have hne : l ≠ .exit := by
        rcases hlista with rfl | rfl | rfl | rfl <;> decide
      have he := hl.marco.listas .exit (by simp) (by simp)
      refine hM.salir (by simpa [Vista.conLista, hne.symm] using he) hl.marco.interfaces ?_
      refine hP.eq_zero hB hmem hne fun hb => ?_
      subst hb
      exact hC.1 p hmem hp
  | @errorIo nombre pet i a b p v₁ hi hpet h hp hl =>
      have he := hl.marco.listas .exit (by simp) (by simp)
      have hint : (v₁.salir p).interfaces
          = v.interfaces.poner nombre { i with enviadas := i.enviadas.erase pet } :=
        hl.marco.interfaces
      refine hM.conInterfaz hint (fun io hio => hM.cola hi hio) fun r hr => ?_
      have hped := pedidos_contestada hi hpet r.pid
      rcases mem_salir.1 hr with hr | rfl
      · rw [he] at hr
        have := hM.muertos r (by simpa [Vista.conLista, Vista.ponerInterfaz] using hr)
        omega
      · have := hP.uno p.pid
        rw [if_pos hp.symm] at hped
        simp only at hped ⊢
        omega
  | @ioOcupada nombre pet i hi hpet =>
      obtain ⟨p, hp, hpid, -⟩ := hM.espera hP (pedidos_pos hi hpet)
      refine hM.conInterfaz rfl (fun io hio => ?_) fun r hr => ?_
      · rcases List.mem_append.1 hio with hio | hio
        · exact hM.cola hi hio
        · rw [List.mem_singleton.1 hio]
          simpa using ⟨p, hp, hpid⟩
      · have := pedidos_encolada hi hpet (v.listas .blocked) r.pid
        rw [hM.muertos r hr] at this
        exact Nat.eq_zero_of_le_zero this
  | @finIo nombre pet i i' a b p v₁ hi hpet h hp hal hi' =>
      have hm := hal.marco h rfl
      have he := hm.listas .exit (by simp) (by simp)
      have hint : (v₁.ponerInterfaz nombre i').interfaces = v.interfaces.poner nombre i' := by
        simp [Vista.ponerInterfaz, hm.interfaces]
      refine hM.conInterfaz hint (fun io hio => ?_) fun r hr => ?_
      · exact hM.cola hi (hi'.cola hio)
      · have := pedidos_reenviada hi hpet hi' r.pid
        rw [hM.muertos r (he ▸ hr)] at this
        omega
  | @conexionIo nombre tipoInterfaz h =>
      refine hM.conInterfaz rfl (fun io hio => by cases hio) fun r hr => ?_
      rw [pedidos_poner_nueva h fun x => rfl]
      exact hM.muertos r hr

/-! ### The lists -/

/-- Why a handler stopped short, for runs that are computed. -/
def corte {α : Type} : Except Corte α → Option Corte
  | .ok _ => none
  | .error c => some c

theorem corte_eq_some {α : Type} {r : Except Corte α} {c : Corte} :
    corte r = some c ↔ r = .error c := by
  cases r <;> simp [corte]

/-- Every process is in one list, once; no handler uses a null pointer and, if no resource started
below zero, none takes a process out of an empty queue; and the requests that the interfaces have
are about processes of BLOCKED. -/
structure EnSuLista (k : Nucleo) : Prop where
  veces : ∀ x, veces k.listas x = if 1 ≤ x ∧ x < k.ultimoPid then 1 else 0
  nulo : ∀ e, admite k e → manejar k e ≠ .error .nulo
  indefinido : (∀ n, NoNegativo k.config.recursos n) →
    ∀ e, admite k e → manejar k e ≠ .error .indefinido
  vivos : Vivos k.vista

/-- Under RR the scheduler finds a process in READY when the quantum before is over. -/
theorem Contados.ready_ne_nil {k : Nucleo} (hI : Contados k.vista) (halg : k.config.algoritmo = .rr)
    (hf : k.corto = .esperaQuantum) : k.listas .ready ≠ [] := by
  intro hl
  have h₁ := hI.listos
  have h₂ := hI.auxiliar (by simp [Nucleo.vista, halg])
  rw [enListos_eq, h₂, show k.vista.listas .ready = [] from hl] at h₁
  simp [Nucleo.vista, hf, FaseCorto.listos] at h₁

/-- In every run that kills no process that waits for an interface and, under RR, none in READY,
every process is in its list and is found there. -/
theorem en_su_lista {k : Nucleo}
    (h : Transicion.AlcanzableCon sistema (fun k e => sinMatarEsperas k.vista e) k) :
    EnSuLista k := by
  have hH := hilada_alcanzable h.alcanzable
  obtain ⟨hB, hO, hM, hcon, hsal⟩ := invariante_vista
    (I := fun v => Ordenada v ∧ SinMuertos v ∧ (v.algoritmo = .rr → Contados v) ∧
      ∀ n, NoNegativo v.configurados n → Saldada v n)
    (fun config => ⟨ordenada_iniciar config, ⟨(fun p hp => by cases hp), (fun h => by cases h)⟩,
      fun _ => contados_iniciar config, fun n => saldada_iniciar⟩)
    (fun v e v' hB hI hC hm => by
      refine ⟨hm.ordenada hB hI.1, hm.sinMuertos hB hI.1 hI.2.1 hC, fun halg => ?_, fun n hN => ?_⟩
      · have hrr : v.algoritmo = .rr := hm.config.1 ▸ halg
        have hcon := hI.2.2.1 hrr
        refine hm.contados hB hcon (by simp [hrr]) ?_
        cases e with
        | finalizarProceso pid =>
            intro l hl p hp
            rcases (Lista.mem_listos l).1 hl with rfl | rfl
            · exact hC.2 hrr p hp
            · rw [hcon.auxiliar (by simp [hrr])] at hp
              cases hp
        | _ => trivial
      · exact hm.saldada (hI.2.2.2 n (hm.config.2 ▸ hN))) h
  have hV := hM.vivos hO.pedidos
  have hpid : ∀ pid t c, k.corto = .cuenta pid t c → 1 ≤ pid ∧ pid ≤ k.estadosProcesos.length := by
    intro pid t c hc
    have h₁ := hH.cuenta pid t c hc
    have h₂ := hH.estados
    omega
  have hready : k.corto = .esperaQuantum → k.listas .ready ≠ [] := fun hf =>
    (hcon (hH.quantum hf)).ready_ne_nil (hH.quantum hf) hf
  refine ⟨hB.repartidos, fun e he hm => ?_, fun hN e he hm => ?_, hV⟩
  · have h : Cumple (· = .nulo) (Efecto k e) (manejar k e) := manejar_cumple (by simp) hB
      hO.encolados (by simp) (fun _ => hV) (fun _ => hpid) (fun _ => hready) he
    exact h.of_eq_error hm rfl
  · have h : Cumple (· = .indefinido) (Efecto k e) (manejar k e) := manejar_cumple (by simp) hB
      hO.encolados (fun _ n => hsal n (hN n)) (by simp) (by simp) (by simp) he
    exact h.of_eq_error hm rfl

/-- The first process waits for an interface and comes back; the second one waits for a resource and
is killed. -/
def muertosSinPedidos : Nucleo :=
  correr (fun k e => sinMatarEsperas k.vista e) ⟨.rr, 10, 3, [("RA", 0)]⟩
    (.conexionIo "GEN" 1 :: dosAdmitidos ++
      [.corto 0, .corto 0, .corto 0, .corto 0,
        .cpu { pid := 1, pc := 1, estado := .exec } (.io "GEN" .genSleep) 1, .reloj, .reloj,
        .corto 2, .corto 2, .corto 2, .corto 2,
        .cpu { pid := 2, pc := 1, estado := .exec } (.wait "RA") 3,
        .interfaz "GEN" ⟨1, .genSleep⟩ .finIo, .finalizarProceso 2])
    (by decide +kernel)

theorem en_su_lista_muertosSinPedidos : EnSuLista muertosSinPedidos :=
  en_su_lista (alcanzable_correr _)

/-- A process is killed while it waits for an interface. -/
def muerteConPedido : Nucleo :=
  correr (fun _ _ => True) ⟨.fifo, 10, 3, []⟩
    (.conexionIo "GEN" 1 :: dosAdmitidos ++
      [.corto 0, .corto 0, .corto 0,
        .cpu { pid := 1, pc := 1, estado := .exec } (.io "GEN" .genSleep) 1, .finalizarProceso 1])
    (by decide +kernel)

/-- When the interface answers, the handler takes the process out of BLOCKED, where it is not. -/
theorem no_en_su_lista : ¬∀ k, Transicion.Alcanzable sistema k → EnSuLista k := by
  intro h
  have hadmite : admite muerteConPedido (.interfaz "GEN" ⟨1, .genSleep⟩ .finIo) := by
    decide +kernel
  refine (h muerteConPedido (alcanzable_correr _)).nulo _ hadmite ?_
  rw [← corte_eq_some]
  decide +kernel

end Kernel
