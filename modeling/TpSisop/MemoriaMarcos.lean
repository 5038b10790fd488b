/-
**Frames are never shared, and the bookkeeping of the memory module agrees with its page tables.**

Three structures say which frames are taken: the page tables, the bit array `marcos` and the
counter `cantidad_marcos_libres`.  They are updated by separate helpers, inside the loops that
grow, shrink and destroy a process.  This module proves that they never disagree: after any
sequence of requests the frames in the tables are pairwise distinct, a bit is set exactly when its
frame is in a table, and the counter is the number of clear bits.  In particular `resize_proceso`
never runs out of frames in the middle of its loop, since it compares the counter first.

Main definitions:

* `Memoria.EnTabla`, `Memoria.EnOtra` — a frame is in some table, in the table of another process;
* `Memoria.Coherente` — the invariant.

Main results:

* `Memoria.coherente_update` — the invariant after one page table is replaced;
* `Memoria.ampliar_spec`, `Memoria.reducir_spec`, `Memoria.resizeProceso_spec` — the loops and the
  operation return, and what they leave in the tables;
* `Memoria.coherente_alcanzable` — the invariant in every reachable state;
* `Memoria.marcos_sin_compartir` — the same spelled out, with the totality of `resize_proceso`.
-/

import TpSisop.MemoriaPaginacion

set_option relaxedAutoImplicit false
set_option autoImplicit false

namespace Memoria

/-! ### The invariant -/

/-- The frame `f` is in the page table of some process. -/
def EnTabla (m : Estado) (f : ℕ) : Prop :=
  ∃ pid paginas, m.tablaDePaginas pid = some paginas ∧ f ∈ paginas

/-- The frame `f` is in the page table of a process other than `pid`. -/
def EnOtra (m : Estado) (pid : Pid) (f : ℕ) : Prop :=
  ∃ q paginas, q ≠ pid ∧ m.tablaDePaginas q = some paginas ∧ f ∈ paginas

/-- The page tables, the bit array and the counter agree, and the frames fit in the user space. -/
structure Coherente (m : Estado) : Prop where
  propios : ∀ {pid ps}, m.tablaDePaginas pid = some ps → ps.Nodup
  ajenos : ∀ {p q ps qs}, m.tablaDePaginas p = some ps → m.tablaDePaginas q = some qs →
    p ≠ q → ∀ f ∈ ps, f ∉ qs
  rango : ∀ {f}, EnTabla m f → f < m.cantidadDePaginas
  bits : ∀ f, m.marcos f = true ↔ EnTabla m f
  libres : m.cantidadMarcosLibres = Bits.libres m.marcos m.cantidadDePaginas
  entero : m.cantidadDePaginas * m.tamPagina ≤ m.tamMemoria

theorem EnOtra.enTabla {m : Estado} {pid : Pid} {f : ℕ} (h : EnOtra m pid f) : EnTabla m f := by
  obtain ⟨q, qs, -, hq, hf⟩ := h
  exact ⟨q, qs, hq, hf⟩

theorem enTabla_iff {m : Estado} {pid : Pid} {ps : List ℕ} (h : m.tablaDePaginas pid = some ps)
    (f : ℕ) : EnTabla m f ↔ f ∈ ps ∨ EnOtra m pid f := by
  constructor
  · rintro ⟨q, qs, hq, hf⟩
    by_cases hqp : q = pid
    · subst hqp
      obtain rfl : ps = qs := by simpa [h] using hq
      exact Or.inl hf
    · exact Or.inr ⟨q, qs, hqp, hq, hf⟩
  · rintro (hf | hf)
    · exact ⟨pid, ps, h, hf⟩
    · exact hf.enTabla

theorem enTabla_iff_of_none {m : Estado} {pid : Pid} (h : m.tablaDePaginas pid = none) (f : ℕ) :
    EnTabla m f ↔ EnOtra m pid f := by
  constructor
  · rintro ⟨q, qs, hq, hf⟩
    refine ⟨q, qs, ?_, hq, hf⟩
    rintro rfl
    simp [h] at hq
  · exact EnOtra.enTabla

/-- Nothing is shared between a process and the others. -/
theorem Coherente.not_enOtra {m : Estado} (hm : Coherente m) {pid : Pid} {ps : List ℕ}
    (h : m.tablaDePaginas pid = some ps) {f : ℕ} (hf : f ∈ ps) : ¬EnOtra m pid f := by
  rintro ⟨q, qs, hne, hq, hf'⟩
  exact hm.ajenos h hq hne.symm f hf hf'

/-- A free frame is in no table. -/
theorem Coherente.not_enTabla {m : Estado} (hm : Coherente m) {f : ℕ} (hf : m.marcos f = false) :
    ¬EnTabla m f := by
  rw [← hm.bits f, hf]
  exact Bool.false_ne_true

theorem Coherente.ocupado {m : Estado} (hm : Coherente m) {pid : Pid} {ps : List ℕ}
    (h : m.tablaDePaginas pid = some ps) {f : ℕ} (hf : f ∈ ps) : m.marcos f = true :=
  (hm.bits f).2 ⟨pid, ps, h, hf⟩

/-- Replacing the entry of `pid` by `t` keeps the invariant, as long as the frames of `t` are
distinct, in range and in no other table, and the bits and the counter follow. -/
theorem coherente_update {m m' : Estado} (pid : Pid) (t : Option (List ℕ)) (hm : Coherente m)
    (htabla : m'.tablaDePaginas = Function.update m.tablaDePaginas pid t)
    (hcant : m'.cantidadDePaginas = m.cantidadDePaginas)
    (hnodup : (t.getD []).Nodup)
    (hajeno : ∀ f ∈ t.getD [], ¬EnOtra m pid f)
    (hrango : ∀ f ∈ t.getD [], f < m.cantidadDePaginas)
    (hbits : ∀ f, m'.marcos f = true ↔ f ∈ t.getD [] ∨ EnOtra m pid f)
    (hlibres : m'.cantidadMarcosLibres = Bits.libres m'.marcos m.cantidadDePaginas)
    (hentero : m'.cantidadDePaginas * m'.tamPagina ≤ m'.tamMemoria) : Coherente m' := by
  -- an entry of the new dictionary is the new one or an old one of another process
  have hentrada : ∀ {q qs}, m'.tablaDePaginas q = some qs →
      (q = pid ∧ t = some qs) ∨ (q ≠ pid ∧ m.tablaDePaginas q = some qs) := by
    intro q qs hq
    rw [htabla] at hq
    by_cases hqp : q = pid
    · subst hqp
      exact Or.inl ⟨rfl, by simpa using hq⟩
    · exact Or.inr ⟨hqp, by simpa [hqp] using hq⟩
  have hen : ∀ f, EnTabla m' f ↔ f ∈ t.getD [] ∨ EnOtra m pid f := by
    intro f
    constructor
    · rintro ⟨q, qs, hq, hf⟩
      rcases hentrada hq with ⟨-, rfl⟩ | ⟨hne, hq⟩
      · exact Or.inl hf
      · exact Or.inr ⟨q, qs, hne, hq, hf⟩
    · rintro (hf | ⟨q, qs, hne, hq, hf⟩)
      · cases t with
        | none => simp at hf
        | some ps => exact ⟨pid, ps, by simp [htabla], hf⟩
      · exact ⟨q, qs, by simp [htabla, hne, hq], hf⟩
  refine ⟨?_, ?_, ?_, ?_, ?_, hentero⟩
  · intro q qs hq
    rcases hentrada hq with ⟨-, rfl⟩ | ⟨-, hq⟩
    · exact hnodup
    · exact hm.propios hq
  · intro p q ps qs hp hq hne f hf hf'
    rcases hentrada hp with ⟨rfl, rfl⟩ | ⟨hpp, hp⟩
    · rcases hentrada hq with ⟨rfl, -⟩ | ⟨hqp, hq⟩
      · exact hne rfl
      · exact hajeno f hf ⟨q, qs, hqp, hq, hf'⟩
    · rcases hentrada hq with ⟨rfl, rfl⟩ | ⟨-, hq⟩
      · exact hajeno f hf' ⟨p, ps, hpp, hp, hf⟩
      · exact hm.ajenos hp hq hne f hf hf'
  · intro f hf
    rw [hcant]
    rcases (hen f).1 hf with hf | hf
    · exact hrango f hf
    · exact hm.rango hf.enTabla
  · intro f
    rw [hbits, hen]
  · rw [hlibres, hcant]

/-! ### Creating a process -/

theorem coherente_inicial (tamPagina tamMemoria : ℕ) (espacio : ℕ → UInt8) :
    Coherente (crearEstructurasMemoria tamPagina tamMemoria espacio) := by
  have hnada : ∀ f, ¬EnTabla (crearEstructurasMemoria tamPagina tamMemoria espacio) f := by
    rintro f ⟨p, ps, hp, -⟩
    simp [crearEstructurasMemoria] at hp
  refine ⟨?_, ?_, fun h => absurd h (hnada _), ?_, ?_, Nat.div_mul_le_self _ _⟩
  · intro p ps hp
    simp [crearEstructurasMemoria] at hp
  · intro p q ps qs hp
    simp [crearEstructurasMemoria] at hp
  · intro f
    simpa [crearEstructurasMemoria] using hnada f
  · simp [crearEstructurasMemoria, Bits.libres]

theorem coherente_crearProceso {m : Estado} (hm : Coherente m)
    (instrucciones : Option (List String)) {pid : Pid} (h : m.tablaDePaginas pid = none) :
    Coherente (crearProceso m instrucciones pid) := by
  refine coherente_update pid (some []) hm rfl rfl ?_ ?_ ?_ ?_ hm.libres hm.entero
  · simp
  · simp
  · simp
  · intro f
    simpa [crearProceso] using (hm.bits f).trans (enTabla_iff_of_none h f)

/-! ### Growing -/

/-- One turn of the growing loop. -/
theorem coherente_ampliar_paso {m : Estado} (hm : Coherente m) {pid : Pid} {ps : List ℕ}
    (h : m.tablaDePaginas pid = some ps) {f : ℕ} (hf : obtenerMarcoLibre m = some f) :
    Coherente (ocuparMarco (ponerTabla m pid (ps ++ [f])) f) := by
  obtain ⟨hlt, hlibre⟩ := Bits.primerLibre_eq_some hf
  have hnuevo : ¬EnTabla m f := hm.not_enTabla hlibre
  have hnotin : f ∉ ps := fun hin => hnuevo ⟨pid, ps, h, hin⟩
  refine coherente_update pid (some (ps ++ [f])) hm rfl rfl ?_ ?_ ?_ ?_ ?_ hm.entero
  · simpa [List.nodup_append] using ⟨hm.propios h, fun g hg hgf => hnotin (hgf ▸ hg)⟩
  · intro g hg
    rcases List.mem_append.1 hg with hg | hg
    · exact hm.not_enOtra h hg
    · obtain rfl : g = f := by simpa using hg
      exact fun hotra => hnuevo hotra.enTabla
  · intro g hg
    rcases List.mem_append.1 hg with hg | hg
    · exact hm.rango ⟨pid, ps, h, hg⟩
    · obtain rfl : g = f := by simpa using hg
      exact hlt
  · intro g
    by_cases hgf : g = f
    · subst hgf
      simp
    · simpa [hgf] using (hm.bits g).trans (enTabla_iff h g)
  · have hcuenta := Bits.libres_ocupar hlt hlibre
    have hlibres := hm.libres
    simp only [ocuparMarco_libres, ponerTabla_libres, ocuparMarco_marcos, ponerTabla_marcos]
    omega

/-- The growing loop returns when there are enough free frames, and puts as many new pages at the
end of the table. -/
theorem ampliar_spec {pid : Pid} : ∀ (n : ℕ) {m : Estado} (ps : List ℕ), Coherente m →
    m.tablaDePaginas pid = some ps → (n : ℤ) ≤ m.cantidadMarcosLibres →
    ∃ m' fs, ampliar pid n m ps = .ok m' ∧ Coherente m' ∧ fs.length = n ∧
      m'.tablaDePaginas = Function.update m.tablaDePaginas pid (some (ps ++ fs)) ∧
      m'.tamPagina = m.tamPagina := by
  intro n
  induction n with
  | zero =>
      intro m ps hm h _
      exact ⟨m, [], rfl, hm, rfl, by simp [← h], rfl⟩
  | succ n ih =>
      intro m ps hm h hn
      have hpos : 0 < Bits.libres m.marcos m.cantidadDePaginas := by
        have := hm.libres
        omega
      obtain ⟨f, hf⟩ := Bits.primerLibre_of_libres_pos hpos
      have hm₁ := coherente_ampliar_paso hm h hf
      obtain ⟨m', fs, hok, hm', hlen, htabla, htam⟩ := ih (ps ++ [f]) hm₁ (by simp)
        (by simp only [ocuparMarco_libres, ponerTabla_libres]; omega)
      refine ⟨m', f :: fs, ?_, hm', by simp [hlen], ?_, by simpa using htam⟩
      · have hf' : obtenerMarcoLibre m = some f := hf
        simpa [ampliar, hf'] using hok
      · simpa using htabla

/-! ### Shrinking -/

/-- One turn of the shrinking loop: the last page is freed and removed. -/
theorem coherente_reducir_paso {m : Estado} (hm : Coherente m) {pid : Pid} {ps : List ℕ} {f : ℕ}
    (h : m.tablaDePaginas pid = some (ps ++ [f])) :
    Coherente (ponerTabla (liberarMarco m f) pid ps) := by
  have hocupado : m.marcos f = true := hm.ocupado h (by simp)
  have hlt : f < m.cantidadDePaginas := hm.rango ⟨pid, _, h, by simp⟩
  have hnodup := List.nodup_append.1 (hm.propios h)
  have hnotin : f ∉ ps := fun hin => hnodup.2.2 f hin f (by simp) rfl
  refine coherente_update pid (some ps) hm rfl rfl hnodup.1 ?_ ?_ ?_ ?_ hm.entero
  · intro g hg
    exact hm.not_enOtra h (List.mem_append_left _ hg)
  · intro g hg
    exact hm.rango ⟨pid, _, h, List.mem_append_left _ hg⟩
  · intro g
    by_cases hgf : g = f
    · subst hgf
      simpa [hnotin] using hm.not_enOtra h (by simp)
    · simpa [hgf] using (hm.bits g).trans (enTabla_iff h g)
  · have hcuenta := Bits.libres_liberar hlt hocupado
    have hlibres := hm.libres
    simp only [ponerTabla_libres, liberarMarco_libres, ponerTabla_marcos, liberarMarco_marcos]
    omega

/-- The shrinking loop returns, and leaves the first `hasta` pages of the table. -/
theorem reducir_spec {pid : Pid} (hasta : ℕ) : ∀ (n : ℕ) {m : Estado} {ps : List ℕ}, Coherente m →
    m.tablaDePaginas pid = some ps → ps.length = hasta + n →
    ∃ m', reducir pid hasta n m ps = .ok m' ∧ Coherente m' ∧
      m'.tablaDePaginas = Function.update m.tablaDePaginas pid (some (ps.take hasta)) ∧
      m'.tamPagina = m.tamPagina := by
  intro n
  induction n with
  | zero =>
      intro m ps hm h hlen
      refine ⟨m, rfl, hm, ?_, rfl⟩
      rw [List.take_of_length_le (by omega), ← h, Function.update_eq_self]
  | succ n ih =>
      intro m ps hm h hlen
      obtain ⟨qs, f, rfl⟩ : ∃ qs f, ps = qs ++ [f] := by
        rcases List.eq_nil_or_concat' ps with rfl | ⟨qs, f, rfl⟩
        · simp at hlen
        · exact ⟨qs, f, rfl⟩
      have hqs : qs.length = hasta + n := by
        simp at hlen
        omega
      have hm₁ := coherente_reducir_paso hm h
      obtain ⟨m', hok, hm', htabla, htam⟩ := ih hm₁ (by simp) hqs
      refine ⟨m', ?_, hm', ?_, by simpa using htam⟩
      · have hsaca : Coleccion.remover (qs ++ [f]) ((hasta : ℤ) + n) = some (f, qs) := by
          have hcast : (hasta : ℤ) + n = (qs.length : ℕ) := by
            rw [hqs]
            simp
          rw [hcast, Coleccion.remover_natCast, Coleccion.eraseIdx_length_append]
          simp
        simpa [reducir, hsaca] using hok
      · rw [htabla, List.take_append_of_le_length (by omega)]
        simp

/-! ### The operation -/

/-- What `resize_proceso` does to a process with the page table `ps` when the number of pages asked
for is not negative: it refuses and changes nothing, or the process keeps a prefix of its table
and has exactly that number of pages. -/
theorem resizeProceso_spec {m : Estado} (hm : Coherente m) {pid : Pid} {ps : List ℕ}
    (h : m.tablaDePaginas pid = some ps) {bytes : ℤ} {c : ℕ}
    (hc : cantidadPaginas m.tamPagina bytes = c) :
    (resizeProceso m pid bytes = .ok (1, m) ∧ m.cantidadMarcosLibres < (c : ℤ) - ps.length) ∨
    ∃ m' qs, resizeProceso m pid bytes = .ok (0, m') ∧ Coherente m' ∧ qs.length = c ∧
      (qs = ps.take c ∨ ∃ fs, qs = ps ++ fs) ∧
      m'.tablaDePaginas = Function.update m.tablaDePaginas pid (some qs) ∧
      m'.tamPagina = m.tamPagina := by
  by_cases hlibres : m.cantidadMarcosLibres < (c : ℤ) - ps.length
  · exact Or.inl ⟨by simp [resizeProceso, h, hc, hlibres], hlibres⟩
  refine Or.inr ?_
  rcases lt_trichotomy ps.length c with hlt | heq | hgt
  · obtain ⟨m', fs, hok, hm', hlen, htabla, htam⟩ :=
      ampliar_spec (c - ps.length) ps hm h (by omega)
    refine ⟨m', ps ++ fs, ?_, hm', by simp; omega, Or.inr ⟨fs, rfl⟩, htabla, htam⟩
    have hturnos : ((c : ℤ) - ps.length).toNat = c - ps.length := by omega
    have hmas : (ps.length : ℤ) < c := by exact_mod_cast hlt
    simp [resizeProceso, h, hc, hlibres, hmas, hturnos, hok, Except.map]
  · refine ⟨m, ps, ?_, hm, heq, Or.inr ⟨[], by simp⟩, by simp [← h], rfl⟩
    simp [resizeProceso, h, hc, heq] at hlibres ⊢
    omega
  · obtain ⟨m', hok, hm', htabla, htam⟩ := reducir_spec c (ps.length - c) hm h (by omega)
    refine ⟨m', ps.take c, ?_, hm', by simp; omega, Or.inl rfl, htabla, htam⟩
    have hturnos : ((ps.length : ℤ) - c).toNat = ps.length - c := by omega
    have hmenos : (c : ℤ) < ps.length := by exact_mod_cast hgt
    have hnomas : ¬(ps.length : ℤ) < c := by omega
    simp [resizeProceso, h, hc, hlibres, hmenos, hnomas, hturnos, hok, Except.map]

/-- With a negative bound the loop empties the table and then reads before its start. -/
theorem reducir_of_neg {pid : Pid} {hasta : ℤ} (hneg : hasta < 0) : ∀ (n : ℕ) (m : Estado)
    (ps : List ℕ), (ps.length : ℤ) = hasta + n →
    reducir pid hasta n m ps = .error .punteroNulo := by
  intro n
  induction n with
  | zero =>
      intro m ps hlen
      omega
  | succ n ih =>
      intro m ps hlen
      rcases List.eq_nil_or_concat' ps with rfl | ⟨qs, f, rfl⟩
      · have hsaca : Coleccion.remover ([] : List ℕ) (hasta + n) = none := by
          simp [Coleccion.remover, Coleccion.obtener]
        simp [reducir, hsaca]
      · have hqs : hasta + n = (qs.length : ℕ) := by
          simp at hlen
          omega
        have hsaca : Coleccion.remover (qs ++ [f]) (hasta + n) = some (f, qs) := by
          rw [hqs, Coleccion.remover_natCast, Coleccion.eraseIdx_length_append]
          simp
        simpa [reducir, hsaca] using ih _ qs hqs.symm

/-- A negative number of pages, which only a negative size has, makes `resize_proceso` fail. -/
theorem resizeProceso_of_neg {m : Estado} (hm : Coherente m) {pid : Pid} {bytes : ℤ}
    (hc : cantidadPaginas m.tamPagina bytes < 0) :
    resizeProceso m pid bytes = .error .punteroNulo := by
  unfold resizeProceso
  cases h : m.tablaDePaginas pid with
  | none => rfl
  | some ps =>
      have hlibres := hm.libres
      simp only
      rw [if_neg (by omega), if_neg (by omega), if_pos (by omega),
        reducir_of_neg hc _ _ _ (by omega)]
      rfl

/-! ### Destroying a process -/

/-- What the loop of `liberar_marcos_de_proceso` leaves: the frames of the list are clear, counted
as free, and nothing else changes. -/
theorem foldl_liberarMarco : ∀ (ps : List ℕ) {m : Estado}, ps.Nodup →
    (∀ f ∈ ps, m.marcos f = true) → (∀ f ∈ ps, f < m.cantidadDePaginas) →
    m.cantidadMarcosLibres = Bits.libres m.marcos m.cantidadDePaginas →
    (∀ f, (ps.foldl liberarMarco m).marcos f = true ↔ m.marcos f = true ∧ f ∉ ps) ∧
      (ps.foldl liberarMarco m).cantidadMarcosLibres =
        Bits.libres (ps.foldl liberarMarco m).marcos m.cantidadDePaginas ∧
      (ps.foldl liberarMarco m).tablaDePaginas = m.tablaDePaginas ∧
      (ps.foldl liberarMarco m).cantidadDePaginas = m.cantidadDePaginas ∧
      (ps.foldl liberarMarco m).tamPagina = m.tamPagina ∧
      (ps.foldl liberarMarco m).tamMemoria = m.tamMemoria := by
  intro ps
  induction ps with
  | nil =>
      intro m _ _ _ hlibres
      exact ⟨by simp, hlibres, rfl, rfl, rfl, rfl⟩
  | cons p ps ih =>
      intro m hnodup hset hlt hlibres
      obtain ⟨hp, hnodup⟩ := List.nodup_cons.1 hnodup
      have hcuenta := Bits.libres_liberar (hlt p (by simp)) (hset p (by simp))
      obtain ⟨hbits, hlibres', htabla, hcant, htam, hmem⟩ := ih (m := liberarMarco m p) hnodup
        (by
          intro f hf
          have hne : f ≠ p := fun h => hp (h ▸ hf)
          simpa [hne] using hset f (by simp [hf]))
        (fun f hf => hlt f (by simp [hf]))
        (by simp only [liberarMarco_libres, liberarMarco_marcos, liberarMarco_cantidad]; omega)
      refine ⟨?_, hlibres', htabla, hcant, htam, hmem⟩
      intro f
      rw [List.foldl_cons, hbits]
      by_cases hfp : f = p
      · subst hfp
        simp
      · simp [hfp]

theorem eliminarProceso_eq {m : Estado} {pid : Pid} {ps : List ℕ}
    (h : m.tablaDePaginas pid = some ps) :
    eliminarProceso m pid = .ok
      { ps.foldl liberarMarco m with
        tablaDePaginas := Function.update (ps.foldl liberarMarco m).tablaDePaginas pid none
        dictInstrucciones :=
          Function.update (ps.foldl liberarMarco m).dictInstrucciones pid none } := by
  unfold eliminarProceso liberarMarcosDeProceso
  rw [h]
  rfl

/-- `eliminar_proceso` returns on a process with a table, and its entry is gone. -/
theorem eliminarProceso_spec {m : Estado} (hm : Coherente m) {pid : Pid} {ps : List ℕ}
    (h : m.tablaDePaginas pid = some ps) :
    ∃ m', eliminarProceso m pid = .ok m' ∧ Coherente m' ∧
      m'.tablaDePaginas = Function.update m.tablaDePaginas pid none ∧
      m'.tamPagina = m.tamPagina := by
  obtain ⟨hbits, hlibres, htabla, hcant, htam, hmem⟩ := foldl_liberarMarco ps (hm.propios h)
    (fun f hf => hm.ocupado h hf) (fun f hf => hm.rango ⟨pid, ps, h, hf⟩) hm.libres
  have htabla' : Function.update (ps.foldl liberarMarco m).tablaDePaginas pid none =
      Function.update m.tablaDePaginas pid none := by
    rw [htabla]
  refine ⟨_, eliminarProceso_eq h, ?_, htabla', htam⟩
  refine coherente_update pid none hm htabla' hcant (by simp) (by simp) (by simp)
    ?_ hlibres (by simpa only [hcant, htam, hmem] using hm.entero)
  intro f
  have hf := (hbits f).trans (and_congr_left' ((hm.bits f).trans (enTabla_iff h f)))
  rw [show f ∈ (none : Option (List ℕ)).getD [] ↔ False by simp, false_or]
  refine hf.trans ?_
  constructor
  · rintro ⟨hin | hin, hnotin⟩
    · exact absurd hin hnotin
    · exact hin
  · intro hin
    exact ⟨Or.inr hin, fun hf => hm.not_enOtra h hf hin⟩

/-! ### The invariant along a run -/

/-- One request keeps the invariant, and the size of a page. -/
theorem coherente_paso {tamPagina tamMemoria : ℕ} {m m' : Estado} {e : Evento}
    (hm : Coherente m) (h : (sistema tamPagina tamMemoria).paso m e m') :
    Coherente m' ∧ m'.tamPagina = m.tamPagina := by
  obtain ⟨hadm, hatender⟩ := h
  cases e with
  | crear instrucciones pid =>
      simp only [atender, Except.ok.injEq] at hatender
      subst hatender
      exact ⟨coherente_crearProceso hm instrucciones hadm, rfl⟩
  | resize pid bytes =>
      obtain ⟨ps, hps⟩ := Option.ne_none_iff_exists'.1 hadm.1
      obtain ⟨c, hc⟩ := Int.eq_ofNat_of_zero_le (cantidadPaginas_nonneg m.tamPagina hadm.2)
      rcases resizeProceso_spec hm hps hc with ⟨hok, -⟩ | ⟨m₁, qs, hok, hm₁, -, -, -, htam⟩
      · simp only [atender, hok, Except.map, Except.ok.injEq] at hatender
        exact hatender ▸ ⟨hm, rfl⟩
      · simp only [atender, hok, Except.map, Except.ok.injEq] at hatender
        exact hatender ▸ ⟨hm₁, htam⟩
  | eliminar pid =>
      obtain ⟨ps, hps⟩ := Option.ne_none_iff_exists'.1 hadm
      obtain ⟨m₁, hok, hm₁, -, htam⟩ := eliminarProceso_spec hm hps
      simp only [atender, hok, Except.ok.injEq] at hatender
      exact hatender ▸ ⟨hm₁, htam⟩

/-- In every reachable state the page tables, the bit array and the counter agree, and the size of
a page is the one of the configuration. -/
theorem coherente_alcanzable {tamPagina tamMemoria : ℕ} {m : Estado}
    (h : Transicion.Alcanzable (sistema tamPagina tamMemoria) m) :
    Coherente m ∧ m.tamPagina = tamPagina := by
  refine h.invariante (I := fun m => Coherente m ∧ m.tamPagina = tamPagina) ?_ ?_
  · rintro m ⟨espacio, rfl⟩
    exact ⟨coherente_inicial tamPagina tamMemoria espacio, rfl⟩
  · rintro m e m' ⟨hm, htam⟩ - hpaso
    obtain ⟨hm', htam'⟩ := coherente_paso hm hpaso
    exact ⟨hm', htam'.trans htam⟩

/-- In every reachable state the frames of the page tables are pairwise distinct and in range, a
bit is set exactly when its frame is in a table, the counter is the number of clear bits, and
`resize_proceso` returns for every process and size: it never uses the `-1` of
`obtener_marco_libre`. -/
theorem marcos_sin_compartir {tamPagina tamMemoria : ℕ} (_ : 0 < tamPagina) {m : Estado}
    (h : Transicion.Alcanzable (sistema tamPagina tamMemoria) m) :
    (∀ {p ps}, m.tablaDePaginas p = some ps → ps.Nodup) ∧
    (∀ {p q ps qs}, m.tablaDePaginas p = some ps → m.tablaDePaginas q = some qs → p ≠ q →
      ∀ f ∈ ps, f ∉ qs) ∧
    (∀ {p ps}, m.tablaDePaginas p = some ps → ∀ f ∈ ps, f < m.cantidadDePaginas) ∧
    (∀ f, m.marcos f = true ↔ ∃ p ps, m.tablaDePaginas p = some ps ∧ f ∈ ps) ∧
    m.cantidadMarcosLibres = Bits.libres m.marcos m.cantidadDePaginas ∧
    (∀ {p ps}, m.tablaDePaginas p = some ps → ∀ bytes, 0 ≤ bytes →
      ∃ r, resizeProceso m p bytes = .ok r) := by
  have hm := (coherente_alcanzable h).1
  refine ⟨hm.propios, hm.ajenos, fun hp f hf => hm.rango ⟨_, _, hp, hf⟩, hm.bits, hm.libres, ?_⟩
  intro p ps hps bytes hbytes
  obtain ⟨c, hc⟩ := Int.eq_ofNat_of_zero_le (cantidadPaginas_nonneg m.tamPagina hbytes)
  rcases resizeProceso_spec hm hps hc with ⟨hok, -⟩ | ⟨m', qs, hok, -⟩
  · exact ⟨_, hok⟩
  · exact ⟨_, hok⟩

/-- The module as a partial step function: a request is attended when its caller may send it. -/
def intentar (m : Estado) (e : Evento) : Option Estado :=
  if e.admisible m then (atender m e).toOption else none

theorem paso_of_intentar {tamPagina tamMemoria : ℕ} {m m' : Estado} {e : Evento}
    (h : intentar m e = some m') : (sistema tamPagina tamMemoria).paso m e m' := by
  unfold intentar at h
  split at h
  · rename_i hadm
    cases ha : atender m e with
    | error err => simp [ha, Except.toOption] at h
    | ok m₁ =>
        obtain rfl : m₁ = m' := by simpa [ha, Except.toOption] using h
        exact ⟨hadm, ha⟩
  · cases h

/-- Two processes that grow and shrink in turns. -/
def dosProcesos : Estado :=
  Transicion.estadoTras intentar (crearEstructurasMemoria 16 64 fun _ => 0)
    [.crear none 1, .resize 1 20, .crear none 2, .resize 2 16, .resize 1 10, .resize 2 40]
    (by decide)

theorem marcos_sin_compartir_dos_procesos :
    dosProcesos.tablaDePaginas 1 = some [0] ∧ dosProcesos.tablaDePaginas 2 = some [2, 1, 3] ∧
    dosProcesos.cantidadMarcosLibres =
      Bits.libres dosProcesos.marcos dosProcesos.cantidadDePaginas ∧
    ∃ r, resizeProceso dosProcesos 2 100 = .ok r := by
  have htabla : dosProcesos.tablaDePaginas 2 = some [2, 1, 3] := by decide
  have halc : Transicion.Alcanzable (sistema 16 64) dosProcesos :=
    Transicion.alcanzableCon_estadoTras (fun _ _ _ h => ⟨trivial, paso_of_intentar h⟩)
      ⟨_, rfl⟩ _
  obtain ⟨-, -, -, -, hlibres, hresize⟩ := marcos_sin_compartir (by decide) halc
  exact ⟨by decide, htabla, hlibres, hresize htabla 100 (by decide)⟩

end Memoria
