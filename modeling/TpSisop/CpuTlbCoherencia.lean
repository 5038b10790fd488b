/-
**The TLB against the page tables.**

A translation that hits in the TLB never asks the memory module, so it is right only if every entry
of a process with a page table repeats what the table says.  Growing a process keeps the frames it
has; shrinking it gives the last ones back, and the entries of those pages must go.  The CPU flushes
on `RESIZE 0` alone, and there `limpiar_tlb` skips an entry when the first two are both of the
process.  This module proves that nothing else can go wrong: as long as every shrinking RESIZE
leaves no entry of a page that is given back, the TLB and the page tables agree in every state.

Main definitions:

* `Cpu.TlbCoherente` — the invariant;
* `Cpu.ResizeDescarta` — the condition on a step;
* `Cpu.TraduceBien` — a translation answers the frame of the page table.

Main results:

* `Cpu.tlbCoherente_paso` — one event keeps the invariant;
* `Cpu.traduccion_coherente` — in every run that meets the condition, translations are right.
-/

import TpSisop.CpuMmu

set_option relaxedAutoImplicit false
set_option autoImplicit false

namespace Cpu

open Memoria (Pid Fallo)
open Entero (aInt)

/-! ### The invariant and the condition -/

/-- An entry of a process that has a page table repeats it. -/
def Refleja (m : Memoria.Estado) (clave : Pid × ℕ × ℕ) : Prop :=
  ∀ ps, m.tablaDePaginas clave.1 = some ps → ps[clave.2.1]? = some clave.2.2

/-- The memory module is coherent, pids are not reused, and the TLB repeats the page tables. -/
structure TlbCoherente (s : Estado) : Prop where
  memoria : Memoria.Coherente s.memoria
  pids : ∀ {pid ps}, s.memoria.tablaDePaginas pid = some ps → pid < s.ultimoPid
  dadas : ∀ e ∈ s.tlb.entradas, e.pid < s.ultimoPid
  entradas : ∀ e ∈ s.tlb.entradas, Refleja s.memoria e.clave

/-- The first two entries are of the process: the case in which `limpiar_tlb` skips the second. -/
def primerasDosDe (pid : Pid) : List RegistroTlb → Bool
  | a :: b :: _ => decide (a.pid = pid) && decide (b.pid = pid)
  | _ => false

/-- A RESIZE that gives pages back leaves no entry of them: one to zero bytes does not find two
entries of the process at the front of the TLB, and one to another size finds no entry of the
process for a page that goes. -/
def ResizeDescarta (s : Estado) : Evento → Prop
  | .resize tamanio =>
      match s.memoria.tablaDePaginas s.procesoEjecutando with
      | none => True
      | some ps =>
          Memoria.cantidadPaginas s.memoria.tamPagina (aInt tamanio.toNat) < ps.length →
            if tamanio = 0 then primerasDosDe s.procesoEjecutando s.tlb.entradas = false
            else ∀ e ∈ s.tlb.entradas, e.pid = s.procesoEjecutando →
              (e.pagina : ℤ) < Memoria.cantidadPaginas s.memoria.tamPagina (aInt tamanio.toNat)
  | _ => True

instance (s : Estado) (e : Evento) : Decidable (ResizeDescarta s e) := by
  unfold ResizeDescarta
  split
  · split <;> infer_instance
  · infer_instance

/-- Translating an address inside the pages of a process answers the frame its page table holds
for that page. -/
def TraduceBien (s : Estado) : Prop :=
  ∀ (pid : Pid) (ps : List ℕ) (nombre : String) (reg : RegistroAbstracto) (reloj reloj' : ℕ),
    s.memoria.tablaDePaginas pid = some ps → obtenerTRegistro s.registros nombre = some reg →
    reg.valor / s.memoria.tamPagina < ps.length →
    ∃ dir s', traducirDireccionAFisica s pid nombre reloj reloj' = .ok (dir, s') ∧
      ps[reg.valor / s.memoria.tamPagina]? = some dir.marco ∧ dir.pid = pid ∧
      dir.desplazamientoFisico = reg.valor % s.memoria.tamPagina

/-! ### Translations -/

/-- What a translation answers and leaves, whether it hits or misses. -/
theorem traducirDireccionAFisica_spec {s : Estado} (hs : TlbCoherente s) {pid : Pid}
    {nombre : String} {reg : RegistroAbstracto} {reloj reloj' : ℕ} {ps : List ℕ}
    (hreg : obtenerTRegistro s.registros nombre = some reg)
    (hps : s.memoria.tablaDePaginas pid = some ps)
    (hlt : reg.valor / s.memoria.tamPagina < ps.length) :
    ∃ dir s', traducirDireccionAFisica s pid nombre reloj reloj' = .ok (dir, s') ∧
      ps[reg.valor / s.memoria.tamPagina]? = some dir.marco ∧ dir.pid = pid ∧
      dir.desplazamientoFisico = reg.valor % s.memoria.tamPagina := by
  obtain ⟨hmarco, -⟩ :=
    obtenerMarcoEnTlb_spec s.tlb pid (reg.valor / s.memoria.tamPagina) reloj
  have hdes : reg.valor - reg.valor / s.memoria.tamPagina * s.memoria.tamPagina =
      reg.valor % s.memoria.tamPagina := by
    have := Nat.div_add_mod' reg.valor s.memoria.tamPagina
    omega
  have hmem : Memoria.accederATablaDePaginas s.memoria pid (reg.valor / s.memoria.tamPagina) =
      .ok (ps[reg.valor / s.memoria.tamPagina]) :=
    Memoria.accederATablaDePaginas_eq_ok.2 ⟨ps, hps, List.getElem?_eq_getElem hlt⟩
  unfold traducirDireccionAFisica
  simp only [hreg, RegistroAbstracto.contarDesde0_toNat, hdes]
  split
  · rw [hmem]
    exact ⟨_, _, rfl, List.getElem?_eq_getElem hlt, rfl, rfl⟩
  · rename_i hne
    obtain ⟨r, hr, hclave⟩ := hmarco.resolve_left hne
    have hrefleja := hs.entradas r hr
    rw [hclave] at hrefleja
    exact ⟨_, _, rfl, hrefleja ps hps, rfl, rfl⟩

/-- A translation changes the TLB only, and adds no entry but one the page table has just
confirmed. -/
theorem traducirDireccionAFisica_ok {s s' : Estado} {pid : Pid} {nombre : String}
    {reloj reloj' : ℕ} {dir : DireccionFisica}
    (h : traducirDireccionAFisica s pid nombre reloj reloj' = .ok (dir, s')) :
    s' = { s with tlb := s'.tlb } ∧
      ∀ e ∈ s'.tlb.entradas, (∃ r ∈ s.tlb.entradas, r.clave = e.clave) ∨
        ∃ ps, s.memoria.tablaDePaginas e.pid = some ps ∧ ps[e.pagina]? = some e.marco := by
  unfold traducirDireccionAFisica at h
  cases hreg : obtenerTRegistro s.registros nombre with
  | none => simp [hreg] at h
  | some reg =>
      simp only [hreg] at h
      obtain ⟨-, hviejas⟩ := obtenerMarcoEnTlb_spec s.tlb pid
        (reg.contarDesde0.toNat / s.memoria.tamPagina) reloj
      split at h
      · cases hmem : Memoria.accederATablaDePaginas s.memoria pid
          (reg.contarDesde0.toNat / s.memoria.tamPagina) with
        | error fallo => simp [hmem] at h
        | ok marco =>
            simp only [hmem, Except.ok.injEq, Prod.mk.injEq] at h
            obtain ⟨-, rfl⟩ := h
            refine ⟨rfl, fun e he => ?_⟩
            rcases mem_insertarEnTlb he with hclave | he
            · obtain ⟨ps, hps, hmarco⟩ := Memoria.accederATablaDePaginas_eq_ok.1 hmem
              simp only [RegistroTlb.clave, Prod.mk.injEq] at hclave
              obtain ⟨rfl, hpagina, hm⟩ := hclave
              exact Or.inr ⟨ps, hps, by rw [hpagina, hm]; exact hmarco⟩
            · exact Or.inl (hviejas e he)
      · simp only [Except.ok.injEq, Prod.mk.injEq] at h
        obtain ⟨-, rfl⟩ := h
        exact ⟨rfl, fun e he => Or.inl (hviejas e he)⟩

theorem tlbCoherente_traducir {s s' : Estado} (hs : TlbCoherente s) {pid : Pid} {nombre : String}
    {reloj reloj' : ℕ} {dir : DireccionFisica}
    (h : traducirDireccionAFisica s pid nombre reloj reloj' = .ok (dir, s')) :
    TlbCoherente s' := by
  obtain ⟨hs', hentradas⟩ := traducirDireccionAFisica_ok h
  rw [hs']
  refine ⟨hs.memoria, hs.pids, fun e he => ?_, fun e he => ?_⟩
  · rcases hentradas e he with ⟨r, hr, hclave⟩ | ⟨ps, hps, -⟩
    · have hpid : r.pid = e.pid := congrArg Prod.fst hclave
      exact hpid ▸ hs.dadas r hr
    · exact hs.pids hps
  · rcases hentradas e he with ⟨r, hr, hclave⟩ | ⟨ps, hps, hmarco⟩
    · exact hclave ▸ hs.entradas r hr
    · intro qs hqs
      obtain rfl : ps = qs := Option.some.inj (hps.symm.trans hqs)
      exact hmarco

/-! ### RESIZE -/

/-- The entries a RESIZE leaves were there before. -/
theorem mem_limpiarTlb {t : Tlb} {pid : Pid} {e : RegistroTlb}
    (h : e ∈ (limpiarTlb t pid).entradas) :
    e ∈ t.entradas ∧ (e.pid = pid → primerasDosDe pid t.entradas = true) := by
  rw [limpiarTlb_eq] at h
  split at h
  · rename_i a b resto heq
    rw [heq]
    split at h
    · rename_i hdos
      rcases List.mem_cons.1 h with rfl | h
      · exact ⟨by simp, fun _ => by simp [primerasDosDe, hdos.1, hdos.2]⟩
      · obtain ⟨he, hpid⟩ := List.mem_filter.1 h
        exact ⟨by simp [he], fun hp => absurd hp (by simpa using hpid)⟩
    · obtain ⟨he, hpid⟩ := List.mem_filter.1 h
      exact ⟨he, fun hp => absurd hp (by simpa using hpid)⟩
  · obtain ⟨he, hpid⟩ := List.mem_filter.1 h
    exact ⟨he, fun hp => absurd hp (by simpa using hpid)⟩

/-- A page table that keeps a prefix of the old one still has the entry of every page that does not
go. -/
theorem getElem?_resize {ps qs : List ℕ} {c i f : ℕ} (hqs : qs = ps.take c ∨ ∃ fs, qs = ps ++ fs)
    (h : ps[i]? = some f) (hi : c < ps.length → i < c) : qs[i]? = some f := by
  have hlt : i < ps.length := (List.getElem?_eq_some_iff.1 h).1
  rcases hqs with rfl | ⟨fs, rfl⟩
  · rw [List.getElem?_take_of_lt (by omega)]
    exact h
  · rw [List.getElem?_append_left hlt]
    exact h

theorem tlbCoherente_resize {s s' : Estado} (hs : TlbCoherente s) {tamanio : UInt32}
    (hC : ResizeDescarta s (.resize tamanio)) (h : ejecutarResize s tamanio = .ok s') :
    TlbCoherente s' := by
  -- the TLB that is left: old entries, and none of a page that goes
  let tlb := if tamanio = 0 then limpiarTlb s.tlb s.procesoEjecutando else s.tlb
  have hviejas : ∀ e ∈ tlb.entradas, e ∈ s.tlb.entradas := by
    intro e he
    by_cases hcero : tamanio = 0
    · simp only [tlb, if_pos hcero] at he
      exact (mem_limpiarTlb he).1
    · simpa only [tlb, if_neg hcero] using he
  unfold ejecutarResize at h
  by_cases hneg : Memoria.cantidadPaginas s.memoria.tamPagina (aInt tamanio.toNat) < 0
  · simp [Memoria.resizeProceso_of_neg hs.memoria hneg] at h
  obtain ⟨c, hc⟩ := Int.eq_ofNat_of_zero_le (not_lt.1 hneg)
  cases hps : s.memoria.tablaDePaginas s.procesoEjecutando with
  | none => simp [Memoria.resizeProceso, hps] at h
  | some ps =>
      have hquedan : ∀ e ∈ tlb.entradas, e.pid = s.procesoEjecutando → c < ps.length →
          e.pagina < c := by
        intro e he hpid hlt
        simp only [ResizeDescarta, hps, hc, Nat.cast_lt] at hC
        by_cases hcero : tamanio = 0
        · simp only [tlb, if_pos hcero] at he
          have hdos := (mem_limpiarTlb he).2 hpid
          rw [if_pos hcero] at hC
          exact absurd (hC hlt) (by simp [hdos])
        · rw [if_neg hcero] at hC
          exact hC hlt e (hviejas e he) hpid
      rcases Memoria.resizeProceso_spec hs.memoria hps hc with ⟨hok, -⟩ |
        ⟨m', qs, hok, hm', -, hqs, htabla, -⟩
      · simp only [hok, Except.ok.injEq] at h
        subst h
        exact ⟨hs.memoria, hs.pids, fun e he => hs.dadas e (hviejas e he),
          fun e he => hs.entradas e (hviejas e he)⟩
      · simp only [hok, Except.ok.injEq] at h
        subst h
        refine ⟨hm', fun {pid rs} hrs => ?_, fun e he => hs.dadas e (hviejas e he),
          fun e he rs hrs => ?_⟩
        · by_cases hpid : pid = s.procesoEjecutando
          · rw [hpid]
            exact hs.pids hps
          · simp only [htabla, Function.update_of_ne hpid] at hrs
            exact hs.pids hrs
        · have hrefleja := hs.entradas e (hviejas e he)
          by_cases hpid : e.pid = s.procesoEjecutando
          · simp only [RegistroTlb.clave, htabla, hpid, Function.update_self,
              Option.some.injEq] at hrs
            subst hrs
            exact getElem?_resize hqs (hrefleja ps (by simpa [RegistroTlb.clave, hpid] using hps))
              (hquedan e he hpid)
          · simp only [RegistroTlb.clave, htabla, Function.update_of_ne hpid] at hrs
            exact hrefleja rs hrs

/-! ### Runs -/

theorem tlbCoherente_inicial (tamPagina tamMemoria : ℕ) (espacio : ℕ → UInt8) (tamTlb : ℤ)
    (algoTlb : AlgoritmoTlb) :
    TlbCoherente (estadoInicial (Memoria.crearEstructurasMemoria tamPagina tamMemoria espacio)
      tamTlb algoTlb) := by
  refine ⟨Memoria.coherente_inicial tamPagina tamMemoria espacio, ?_, ?_, ?_⟩
  · intro pid ps hps
    simp [estadoInicial, Memoria.crearEstructurasMemoria] at hps
  · simp [estadoInicial, iniciarTlb]
  · simp [estadoInicial, iniciarTlb]

/-- One event that meets the condition keeps the TLB and the page tables in agreement. -/
theorem tlbCoherente_paso {s s' : Estado} {e : Evento} (hs : TlbCoherente s)
    (hC : ResizeDescarta s e) (h : atender s e = .ok s') : TlbCoherente s' := by
  cases e with
  | traducir nombre reloj reloj' =>
      cases htrad : traducirDireccionAFisica s s.procesoEjecutando nombre reloj reloj' with
      | error fallo => simp [atender, htrad, Except.map] at h
      | ok r =>
          obtain ⟨dir, s₁⟩ := r
          obtain rfl : s₁ = s' := by simpa [atender, htrad, Except.map] using h
          exact tlbCoherente_traducir hs htrad
  | resize tamanio => exact tlbCoherente_resize hs hC h
  | escribirRegistros registros =>
      obtain rfl : _ = s' := Except.ok.inj h
      exact ⟨hs.memoria, hs.pids, hs.dadas, hs.entradas⟩
  | recibirPcb pid registros =>
      obtain rfl : _ = s' := Except.ok.inj h
      exact ⟨hs.memoria, hs.pids, hs.dadas, hs.entradas⟩
  | crear instrucciones =>
      obtain rfl : _ = s' := Except.ok.inj h
      have hlibre : s.memoria.tablaDePaginas s.ultimoPid = none := by
        cases hps : s.memoria.tablaDePaginas s.ultimoPid with
        | none => rfl
        | some ps => exact absurd (hs.pids hps) (lt_irrefl _)
      refine ⟨Memoria.coherente_crearProceso hs.memoria instrucciones hlibre,
        fun {pid ps} hps => ?_,
        fun e he => Nat.lt_succ_of_lt (hs.dadas e he), fun e he ps hps => ?_⟩
      · by_cases hpid : pid = s.ultimoPid
        · exact hpid ▸ Nat.lt_succ_self _
        · simp only [Memoria.crearProceso, Memoria.ponerTabla_tabla,
            Function.update_of_ne hpid] at hps
          exact Nat.lt_succ_of_lt (hs.pids hps)
      · have hne : e.clave.1 ≠ s.ultimoPid := (hs.dadas e he).ne
        simp only [Memoria.crearProceso, Memoria.ponerTabla_tabla,
          Function.update_of_ne hne] at hps
        exact hs.entradas e he ps hps
  | terminar pid =>
      cases hps : s.memoria.tablaDePaginas pid with
      | none =>
          simp [atender, Memoria.eliminarProceso, Memoria.liberarMarcosDeProceso, hps,
            Except.map, bind, Except.bind] at h
      | some ps =>
          obtain ⟨m', hok, hm', htabla, -⟩ := Memoria.eliminarProceso_spec hs.memoria hps
          obtain rfl : { s with memoria := m' } = s' := by
            simpa [atender, hok, Except.map] using h
          have hquedan : ∀ {q qs}, m'.tablaDePaginas q = some qs →
              s.memoria.tablaDePaginas q = some qs := by
            intro q qs hqs
            by_cases hq : q = pid
            · simp [htabla, hq] at hqs
            · simpa [htabla, hq] using hqs
          exact ⟨hm', fun hqs => hs.pids (hquedan hqs), hs.dadas,
            fun e he qs hqs => hs.entradas e he qs (hquedan hqs)⟩

/-- In every run whose RESIZE instructions leave no entry of a page they give back, translating an
address inside the pages of a process answers the frame its page table holds. -/
theorem traduccion_coherente {tamPagina tamMemoria : ℕ} {tamTlb : ℤ} {algoTlb : AlgoritmoTlb}
    {s : Estado}
    (h : Transicion.AlcanzableCon (sistema tamPagina tamMemoria tamTlb algoTlb) ResizeDescarta s) :
    TraduceBien s := by
  have hs : TlbCoherente s := by
    refine h.invariante ?_ ?_
    · rintro s ⟨espacio, rfl⟩
      exact tlbCoherente_inicial tamPagina tamMemoria espacio tamTlb algoTlb
    · intro s e s' hs hC hpaso
      exact tlbCoherente_paso hs hC hpaso
  intro pid ps nombre reg reloj reloj' hps hreg hlt
  exact traducirDireccionAFisica_spec hs hreg hps hlt

/-! ### Two runs -/

/-- One event that meets the condition. -/
def intentar (s : Estado) (e : Evento) : Option Estado :=
  if ResizeDescarta s e then (atender s e).toOption else none

theorem toOption_eq_some {r : Except Fallo Estado} {s : Estado} (h : r.toOption = some s) :
    r = .ok s := by
  cases r with
  | error fallo => cases h
  | ok s' => exact congrArg Except.ok (Option.some.inj h)

/-- A process that grows to two pages, uses the first one, goes back to one page and grows
again. -/
def usaLaPrimera : Estado :=
  Transicion.estadoTras intentar
    (estadoInicial (Memoria.crearEstructurasMemoria 16 64 fun _ => 0) 4 .fifo)
    [.crear none, .recibirPcb 1 { bx := 16 }, .resize 32, .traducir "AX" 0 0, .resize 16,
      .resize 32] (by decide)

theorem traduccion_coherente_usaLaPrimera :
    ∃ dir s', traducirDireccionAFisica usaLaPrimera 1 "BX" 5 6 = .ok (dir, s') ∧
      [0, 1][1]? = some dir.marco := by
  have halc : Transicion.AlcanzableCon (sistema 16 64 4 .fifo) ResizeDescarta usaLaPrimera := by
    refine Transicion.alcanzableCon_estadoTras ?_ ?_ _
    · intro s e s' h
      unfold intentar at h
      split at h
      · exact ⟨‹_›, toOption_eq_some h⟩
      · cases h
    · exact ⟨_, rfl⟩
  obtain ⟨dir, s', hok, hmarco, -, -⟩ := traduccion_coherente halc 1 [0, 1] "BX"
    (.registro8 16) 5 6 (by decide) (by decide) (by decide)
  exact ⟨dir, s', hok, hmarco⟩

/-- The first process uses its second page and gives it back; another process takes the frame; the
first one grows again, into another frame. -/
def marcoReusado : Estado :=
  Transicion.estadoTras (fun s e => (atender s e).toOption)
    (estadoInicial (Memoria.crearEstructurasMemoria 16 64 fun _ => 0) 4 .fifo)
    [.crear none, .recibirPcb 1 { ax := 16 }, .resize 32, .traducir "AX" 0 0, .resize 16,
      .crear none, .recibirPcb 2 {}, .resize 16, .recibirPcb 1 { ax := 16 }, .resize 32]
    (by decide)

/-- The translation of an address on the second page still answers the frame it gave back. -/
theorem traduccion_no_coherente :
    ¬∀ (tamPagina tamMemoria : ℕ) (tamTlb : ℤ) (algoTlb : AlgoritmoTlb) (s : Estado),
      Transicion.Alcanzable (sistema tamPagina tamMemoria tamTlb algoTlb) s → TraduceBien s := by
  intro h
  have halc : Transicion.Alcanzable (sistema 16 64 4 .fifo) marcoReusado := by
    refine Transicion.alcanzableCon_estadoTras ?_ ?_ _
    · intro s e s' h
      exact ⟨trivial, toOption_eq_some h⟩
    · exact ⟨_, rfl⟩
  obtain ⟨dir, s', hok, hmarco, -, -⟩ := h 16 64 4 .fifo marcoReusado halc 1 [0, 2] "AX"
    (.registro8 16) 5 6 (by decide) (by decide) (by decide)
  have hdir : (traducirDireccionAFisica marcoReusado 1 "AX" 5 6).toOption.map
      (fun r => r.1.marco) = some 1 := by decide
  rw [hok] at hdir
  obtain hm : dir.marco = 1 := by simpa [Except.toOption] using hdir
  rw [hm] at hmarco
  exact absurd hmarco (by decide)

end Cpu
