/-
**Which entry a full TLB gives up.**

A full TLB drops an entry for each one that comes in: under LRU the one whose last access is the
oldest, under FIFO the one that came in first.  Neither age is kept as such.  LRU stamps the entries
with a clock and looks for one older than the present reading, held in an `int`: with none older the
search answers `-1`, nothing is removed and the list outgrows the TLB.  FIFO counts positions with a
circular index, which `limpiar_tlb` does not move when it removes entries from under it.  This
module follows the two ages beside the TLB, and proves that in the runs that avoid those steps the
victim is the right one.

Main definitions:

* `Cpu.TlbEnUso` — the TLB, its clock, and for every page its last access and its last insertion;
* `Cpu.pasoTlb`, `Cpu.sistemaTlb` — the TLB under lookups, insertions and flushes;
* `Cpu.Desaloja` — one entry, of the least age, goes and another one comes;
* `Cpu.VictimaHallada` — the search of LRU finds an entry of the oldest access;
* `Cpu.LimpiaAlineada` — a flush removes nothing from under the index of FIFO.

Main results:

* `Cpu.getIndexForLru_eq` — the search under its condition;
* `Cpu.lru_correcta`, `Cpu.fifo_correcta` — in every run that meets the condition of its algorithm
  the TLB stays within its size and drops the entry it should.
-/

import TpSisop.CpuMmu

set_option relaxedAutoImplicit false
set_option autoImplicit false

namespace Cpu

open Memoria (Pid)
open Entero (aInt aUint64)

/-! ### The TLB in use -/

/-- The page an entry is about. -/
def RegistroTlb.lugar (r : RegistroTlb) : Pid × ℕ := (r.pid, r.pagina)

/-- The TLB with the last reading of its clock and, for every page of every process, the time of its
last access and the number of its last insertion. -/
structure TlbEnUso where
  tlb : Tlb
  reloj : ℕ
  accesos : Pid × ℕ → ℕ
  inserciones : Pid × ℕ → ℕ
  cuenta : ℕ

/-- What happens to the TLB; an insertion reads the clock twice. -/
inductive EventoTlb
  | buscar (pid : Pid) (pagina reloj : ℕ)
  | insertar (registro : RegistroTlb) (reloj reloj' : ℕ)
  | limpiar (pid : Pid)
  deriving DecidableEq, Repr

/-- One event: the readings never go back, and an insertion follows a miss. -/
def pasoTlb (s : TlbEnUso) : EventoTlb → Option TlbEnUso
  | .buscar pid pagina reloj =>
      if s.reloj ≤ reloj then
        some { s with
          tlb := (obtenerMarcoEnTlb s.tlb pid pagina reloj).2
          reloj
          accesos := Function.update s.accesos (pid, pagina) reloj }
      else none
  | .insertar registro reloj reloj' =>
      if s.reloj ≤ reloj ∧ reloj ≤ reloj' ∧ ∀ e ∈ s.tlb.entradas, e.lugar ≠ registro.lugar then
        some {
          tlb := insertarEnTlb s.tlb registro reloj reloj'
          reloj := reloj'
          accesos := Function.update s.accesos registro.lugar reloj'
          inserciones := Function.update s.inserciones registro.lugar s.cuenta
          cuenta := s.cuenta + 1 }
      else none
  | .limpiar pid => some { s with tlb := limpiarTlb s.tlb pid }

/-- A TLB just created. -/
def TlbEnUso.inicial (tamTlb : ℤ) (algoTlb : AlgoritmoTlb) : TlbEnUso where
  tlb := iniciarTlb tamTlb algoTlb
  reloj := 0
  accesos := fun _ => 0
  inserciones := fun _ => 0
  cuenta := 0

/-- The TLB of `tamTlb` entries under an algorithm, from its creation on. -/
def sistemaTlb (tamTlb : ℤ) (algoTlb : AlgoritmoTlb) : Transicion.Sistema TlbEnUso EventoTlb where
  inicial s := s = .inicial tamTlb algoTlb
  paso s e s' := pasoTlb s e = some s'

/-- The entry inserted takes the place of one of the least age. -/
def Desaloja (edad : Pid × ℕ → ℕ) (entradas entradas' : List RegistroTlb)
    (registro : RegistroTlb) : Prop :=
  ∃ pre r suf nuevo, entradas = pre ++ r :: suf ∧ (∀ e ∈ entradas, edad r.lugar ≤ edad e.lugar) ∧
    nuevo.clave = registro.clave ∧ entradas'.Perm (nuevo :: (pre ++ suf))

/-! ### Lookups and flushes -/

section Operaciones

variable {l : List RegistroTlb} {pid : Pid} {pagina reloj : ℕ}

/-- An access to a page sets the time of its entry. -/
def RegistroTlb.tocar (lugar : Pid × ℕ) (reloj : ℕ) (r : RegistroTlb) : RegistroTlb :=
  if r.lugar = lugar then { r with lastAccess := reloj } else r

theorem RegistroTlb.tocar_lugar (lugar : Pid × ℕ) (reloj : ℕ) (r : RegistroTlb) :
    (r.tocar lugar reloj).lugar = r.lugar := by
  unfold tocar
  split <;> rfl

theorem lugar_eq_iff {r : RegistroTlb} :
    r.lugar = (pid, pagina) ↔ r.pid = pid ∧ r.pagina = pagina :=
  Prod.mk.injEq _ _ _ _ ▸ Iff.rfl

/-- Where no entry is of the page, a lookup leaves the list as it is. -/
theorem map_tocar_of_ausente {lugar : Pid × ℕ} (h : ∀ e ∈ l, e.lugar ≠ lugar) :
    l.map (RegistroTlb.tocar lugar reloj) = l := by
  refine (List.map_congr_left fun e he => ?_).trans (List.map_id l)
  exact if_neg (h e he)

variable (pid pagina reloj) in
/-- The list a search under LRU leaves. -/
theorem buscarEnTlb_lru (hnodup : (l.map RegistroTlb.lugar).Nodup) :
    ((buscarEnTlb .lru pid pagina reloj l).map Prod.snd).getD l =
      l.map (RegistroTlb.tocar (pid, pagina) reloj) := by
  induction l with
  | nil => rfl
  | cons r rs ih =>
      obtain ⟨hr, hrs⟩ := List.nodup_cons.1 (List.map_cons ▸ hnodup)
      rw [buscarEnTlb, List.map_cons]
      by_cases hlugar : r.lugar = (pid, pagina)
      · have hresto : rs.map (RegistroTlb.tocar (pid, pagina) reloj) = rs :=
          map_tocar_of_ausente fun e he heq => hr (hlugar ▸ heq ▸ List.mem_map_of_mem he)
        rw [if_pos (lugar_eq_iff.1 hlugar), hresto]
        simp [RegistroTlb.tocar, hlugar]
      · rw [if_neg fun h => hlugar (lugar_eq_iff.2 h), ← ih hrs]
        cases buscarEnTlb .lru pid pagina reloj rs with
        | none => simp [RegistroTlb.tocar, hlugar]
        | some x => simp [RegistroTlb.tocar, hlugar]

/-- Under LRU a lookup sets the time of the entry of the page, if there is one. -/
theorem obtenerMarcoEnTlb_lru {t : Tlb} (halgo : t.algoTlb = .lru)
    (hnodup : (t.entradas.map RegistroTlb.lugar).Nodup) :
    (obtenerMarcoEnTlb t pid pagina reloj).2 =
      { t with entradas := t.entradas.map (RegistroTlb.tocar (pid, pagina) reloj) } := by
  have hlista := buscarEnTlb_lru pid pagina reloj hnodup
  rcases t with ⟨entradas, tamTlb, algo, ultimoIndex⟩
  obtain rfl : algo = .lru := halgo
  unfold obtenerMarcoEnTlb
  cases h : buscarEnTlb .lru pid pagina reloj entradas with
  | none =>
      simp only [h, Option.map_none, Option.getD_none] at hlista ⊢
      rw [← hlista]
  | some x =>
      simp only [h, Option.map_some, Option.getD_some] at hlista ⊢
      rw [hlista]

/-- A search under FIFO leaves the list as it is. -/
theorem buscarEnTlb_fifo {x : ℕ × List RegistroTlb}
    (h : buscarEnTlb .fifo pid pagina reloj l = some x) : x.2 = l := by
  induction l generalizing x with
  | nil => cases h
  | cons r rs ih =>
      rw [buscarEnTlb] at h
      split at h
      · cases h
        rfl
      · obtain ⟨y, hy, rfl⟩ := Option.map_eq_some_iff.1 h
        simp [ih hy]

theorem obtenerMarcoEnTlb_fifo {t : Tlb} (halgo : t.algoTlb = .fifo) :
    (obtenerMarcoEnTlb t pid pagina reloj).2 = t := by
  rcases t with ⟨entradas, tamTlb, algo, ultimoIndex⟩
  obtain rfl : algo = .fifo := halgo
  unfold obtenerMarcoEnTlb
  cases h : buscarEnTlb .fifo pid pagina reloj entradas with
  | none => rfl
  | some x => simp only [buscarEnTlb_fifo h]

/-- A flush only removes entries. -/
theorem limpiarDesde_sublist (pid : Pid) (i : ℕ) (l : List RegistroTlb) :
    (limpiarDesde pid i l).Sublist l := by
  induction i, l using limpiarDesde.induct pid with
  | case1 i l h hpid ih =>
      rw [limpiarDesde, dif_pos h, if_pos hpid]
      exact ih.trans (List.eraseIdx_sublist l i)
  | case2 i l h hpid ih =>
      rw [limpiarDesde, dif_pos h, if_neg hpid]
      exact ih
  | case3 i l h =>
      rw [limpiarDesde, dif_neg h]

/-- A flush of a process without entries removes none. -/
theorem limpiarDesde_of_ausente (i : ℕ) (h : ∀ e ∈ l, e.pid ≠ pid) :
    limpiarDesde pid i l = l := by
  induction i, l using limpiarDesde.induct pid with
  | case1 i l hi hpid ih => exact absurd hpid (h _ (List.getElem_mem hi))
  | case2 i l hi hpid ih =>
      rw [limpiarDesde, dif_pos hi, if_neg hpid]
      exact ih h
  | case3 i l hi => rw [limpiarDesde, dif_neg hi]

theorem quitar_append (pre suf : List RegistroTlb) (r : RegistroTlb) :
    quitar (pre ++ r :: suf) (pre.length : ℤ) = pre ++ suf := by
  rw [quitar, Coleccion.remover_natCast, Coleccion.eraseIdx_length_append]
  simp

end Operaciones

/-! ### What a TLB is for -/

/-- The TLB stays within its size, and each insertion that meets `C` leaves the entry in it and,
when it is full, takes one of the least age out. -/
structure ReemplazaBien (tamTlb : ℤ) (edad : TlbEnUso → Pid × ℕ → ℕ)
    (C : TlbEnUso → EventoTlb → Prop) (s : TlbEnUso) : Prop where
  cabe : (s.tlb.entradas.length : ℤ) ≤ tamTlb
  entra : ∀ registro reloj reloj' s', C s (.insertar registro reloj reloj') →
    pasoTlb s (.insertar registro reloj reloj') = some s' →
    ∃ e ∈ s'.tlb.entradas, e.clave = registro.clave
  sale : ∀ registro reloj reloj' s', C s (.insertar registro reloj reloj') →
    pasoTlb s (.insertar registro reloj reloj') = some s' →
    (s.tlb.entradas.length : ℤ) = tamTlb →
    Desaloja (edad s) s.tlb.entradas s'.tlb.entradas registro

/-! ### LRU -/

/-- A time of access as the search compares it: cut to an `int` and widened to `uint64_t`. -/
def limite (reloj : ℕ) : ℕ := aUint64 (aInt reloj)

/-- The times an `int` can hold are compared as they are. -/
theorem limite_of_lt {reloj : ℕ} (h : reloj < 2 ^ 31) : limite reloj = reloj := by
  unfold limite aUint64
  rw [Entero.aInt_of_lt h]
  omega

/-- Some entry of the oldest access is older than the present reading and than the entries before
it, and no entry after it is older, all as the search compares them. -/
def VictimaHallada (entradas : List RegistroTlb) (reloj : ℕ) : Prop :=
  ∃ pre r suf, entradas = pre ++ r :: suf ∧ (∀ e ∈ entradas, r.lastAccess ≤ e.lastAccess) ∧
    r.lastAccess < limite reloj ∧ (∀ e ∈ pre, r.lastAccess < limite e.lastAccess) ∧
    ∀ e ∈ suf, limite r.lastAccess ≤ e.lastAccess

/-- An insertion into a full TLB finds its victim. -/
def InsercionHalla (s : TlbEnUso) : EventoTlb → Prop
  | .insertar _ reloj _ =>
      (s.tlb.entradas.length : ℤ) = s.tlb.tamTlb → VictimaHallada s.tlb.entradas reloj
  | _ => True

section Lru

variable {l pre suf : List RegistroTlb} {r registro : RegistroTlb} {reloj reloj' : ℕ}

/-- Whatever the search picks among entries later than `x` leaves it looking for something later
than `x`. -/
theorem indexForLruDesde_append {x : ℕ} (hpre : ∀ e ∈ pre, x < limite e.lastAccess) :
    ∀ i leastUsed index : ℤ, x < aUint64 leastUsed →
      ∃ leastUsed' index', x < aUint64 leastUsed' ∧
        indexForLruDesde (pre ++ l) i leastUsed index =
          indexForLruDesde l (i + pre.length) leastUsed' index' := by
  induction pre with
  | nil =>
      intro i leastUsed index hx
      exact ⟨leastUsed, index, hx, by simp⟩
  | cons e pre ih =>
      intro i leastUsed index hx
      have ih := ih fun e' he' => hpre e' (by simp [he'])
      have hcuenta : ∀ i : ℤ, i + 1 + pre.length = i + (e :: pre).length := fun i => by
        push_cast [List.length_cons]
        ring
      rw [List.cons_append, indexForLruDesde]
      split
      · obtain ⟨leastUsed', index', hx', heq⟩ := ih (i + 1) _ i (hpre e (by simp))
        exact ⟨leastUsed', index', hx', by rw [heq, hcuenta]⟩
      · obtain ⟨leastUsed', index', hx', heq⟩ := ih (i + 1) _ index hx
        exact ⟨leastUsed', index', hx', by rw [heq, hcuenta]⟩

/-- The search keeps its pick when no entry that is left is older. -/
theorem indexForLruDesde_of_le {leastUsed : ℤ} (h : ∀ e ∈ l, aUint64 leastUsed ≤ e.lastAccess) :
    ∀ {i index : ℤ}, indexForLruDesde l i leastUsed index = index := by
  induction l with
  | nil => intro i index; rfl
  | cons e l ih =>
      intro i index
      rw [indexForLruDesde, if_neg (not_lt.2 (h e (by simp)))]
      exact ih fun e' he' => h e' (by simp [he'])

/-- The search answers the entry of the oldest access that `VictimaHallada` is about. -/
theorem getIndexForLru_eq {t : Tlb} (ht : t.entradas = pre ++ r :: suf)
    (hreloj : r.lastAccess < limite reloj) (hpre : ∀ e ∈ pre, r.lastAccess < limite e.lastAccess)
    (hsuf : ∀ e ∈ suf, limite r.lastAccess ≤ e.lastAccess) :
    getIndexForLru t reloj = pre.length := by
  obtain ⟨leastUsed, index, hx, heq⟩ :=
    indexForLruDesde_append (l := r :: suf) hpre 0 (aInt reloj) (-1) hreloj
  rw [getIndexForLru, ht, heq, indexForLruDesde, if_pos hx, indexForLruDesde_of_le hsuf]
  simp

/-- While the readings fit in an `int`, the search finds its victim as soon as some entry was last
accessed before the present reading. -/
theorem victimaHallada_iff (hreloj : reloj < 2 ^ 31) (hle : ∀ e ∈ l, e.lastAccess ≤ reloj) :
    VictimaHallada l reloj ↔ ∃ e ∈ l, e.lastAccess < reloj := by
  have hlimite : ∀ e ∈ l, limite e.lastAccess = e.lastAccess := fun e he =>
    limite_of_lt (by have := hle e he; omega)
  constructor
  · rintro ⟨pre, r, suf, rfl, -, hr, -, -⟩
    rw [limite_of_lt hreloj] at hr
    exact ⟨r, by simp, hr⟩
  · rintro ⟨e, he, hlt⟩
    obtain ⟨pre, r, suf, rfl, hmin, hpre⟩ :=
      Coleccion.exists_primer_minimo RegistroTlb.lastAccess (List.ne_nil_of_mem he)
    refine ⟨pre, r, suf, rfl, hmin, ?_, fun e he => ?_, fun e he => ?_⟩
    · rw [limite_of_lt hreloj]
      exact (hmin e he).trans_lt hlt
    · rw [hlimite e (by simp [he])]
      exact hpre e he
    · rw [hlimite r (by simp)]
      exact hmin e (by simp [he])

theorem insertarEnTlb_lru_of_lt {t : Tlb} (halgo : t.algoTlb = .lru) (hT : 1 ≤ t.tamTlb)
    (h : (t.entradas.length : ℤ) < t.tamTlb) :
    (insertarEnTlb t registro reloj reloj').entradas =
      t.entradas ++ [{ registro with lastAccess := reloj' }] := by
  have hpos : 0 < t.tamTlb := by omega
  simp [insertarEnTlb, halgo, hpos, h]

variable (registro reloj reloj') in
theorem insertarEnTlb_lru_of_eq {t : Tlb} (halgo : t.algoTlb = .lru) (hT : 1 ≤ t.tamTlb)
    (h : (t.entradas.length : ℤ) = t.tamTlb) :
    (insertarEnTlb t registro reloj reloj').entradas =
      quitar t.entradas (getIndexForLru t reloj) ++ [{ registro with lastAccess := reloj' }] := by
  have hpos : 0 < t.tamTlb := by omega
  simp [insertarEnTlb, halgo, hpos, h]

/-- An insertion changes no more than the list and the index. -/
theorem insertarEnTlb_config (t : Tlb) (registro : RegistroTlb) (reloj reloj' : ℕ) :
    (insertarEnTlb t registro reloj reloj').algoTlb = t.algoTlb ∧
      (insertarEnTlb t registro reloj reloj').tamTlb = t.tamTlb := by
  unfold insertarEnTlb
  split
  · dsimp only
    split
    · exact ⟨rfl, rfl⟩
    · split <;> exact ⟨rfl, rfl⟩
  · dsimp only
    split
    · exact ⟨rfl, rfl⟩
    · split <;> exact ⟨rfl, rfl⟩
  · exact ⟨rfl, rfl⟩

/-- The invariant of LRU: no more entries than the TLB has room for, no page twice, and the times of
the entries are those of the last accesses. -/
structure LruOrdenada (tamTlb : ℤ) (s : TlbEnUso) : Prop where
  algo : s.tlb.algoTlb = .lru
  tam : s.tlb.tamTlb = tamTlb
  cabe : (s.tlb.entradas.length : ℤ) ≤ tamTlb
  nodup : (s.tlb.entradas.map RegistroTlb.lugar).Nodup
  tiempos : ∀ e ∈ s.tlb.entradas, e.lastAccess = s.accesos e.lugar

variable {tamTlb : ℤ} {s s' : TlbEnUso}

/-- An insertion puts the entry at the end, after entries that were there; of a full TLB, all but
one of the oldest access. -/
theorem lru_insertar (hs : LruOrdenada tamTlb s) (hT : 1 ≤ tamTlb)
    (hC : InsercionHalla s (.insertar registro reloj reloj')) :
    ∃ quedan, quedan.Sublist s.tlb.entradas ∧ (quedan.length : ℤ) < tamTlb ∧
      (insertarEnTlb s.tlb registro reloj reloj').entradas =
        quedan ++ [{ registro with lastAccess := reloj' }] ∧
      ((s.tlb.entradas.length : ℤ) = tamTlb → ∃ pre r suf, s.tlb.entradas = pre ++ r :: suf ∧
        quedan = pre ++ suf ∧ ∀ e ∈ s.tlb.entradas, s.accesos r.lugar ≤ s.accesos e.lugar) := by
  have hT' : 1 ≤ s.tlb.tamTlb := hs.tam ▸ hT
  rcases lt_or_eq_of_le hs.cabe with hlt | heq
  · refine ⟨s.tlb.entradas, List.Sublist.refl _, hlt,
      insertarEnTlb_lru_of_lt hs.algo hT' (hs.tam ▸ hlt), fun h => absurd h hlt.ne⟩
  · have hlleno : (s.tlb.entradas.length : ℤ) = s.tlb.tamTlb := heq.trans hs.tam.symm
    obtain ⟨pre, r, suf, hent, hmin, hreloj, hpre, hsuf⟩ := hC hlleno
    have hinserta := insertarEnTlb_lru_of_eq registro reloj reloj' hs.algo hT' hlleno
    rw [getIndexForLru_eq hent hreloj hpre hsuf, hent, quitar_append] at hinserta
    have hlen := congrArg List.length hent
    rw [List.length_append, List.length_cons] at hlen
    refine ⟨pre ++ suf, ?_, ?_, hinserta, fun _ => ⟨pre, r, suf, hent, rfl, fun e he => ?_⟩⟩
    · rw [hent]
      exact List.Sublist.append_left (List.sublist_cons_self r suf) pre
    · rw [List.length_append]
      omega
    · have hle := hmin e he
      rwa [hs.tiempos e he, hs.tiempos r (by simp [hent])] at hle

/-- What a step does, by its event. -/
theorem pasoTlb_insertar (h : pasoTlb s (.insertar registro reloj reloj') = some s') :
    (∀ e ∈ s.tlb.entradas, e.lugar ≠ registro.lugar) ∧
      s' = { tlb := insertarEnTlb s.tlb registro reloj reloj'
             reloj := reloj'
             accesos := Function.update s.accesos registro.lugar reloj'
             inserciones := Function.update s.inserciones registro.lugar s.cuenta
             cuenta := s.cuenta + 1 } := by
  simp only [pasoTlb, Option.ite_none_right_eq_some, Option.some.injEq] at h
  exact ⟨h.1.2.2, h.2.symm⟩

theorem pasoTlb_buscar {pid : Pid} {pagina : ℕ}
    (h : pasoTlb s (.buscar pid pagina reloj) = some s') :
    s' = { s with
      tlb := (obtenerMarcoEnTlb s.tlb pid pagina reloj).2
      reloj
      accesos := Function.update s.accesos (pid, pagina) reloj } := by
  simp only [pasoTlb, Option.ite_none_right_eq_some, Option.some.injEq] at h
  exact h.2.symm

/-- A step that meets the condition keeps the invariant. -/
theorem lruOrdenada_paso (hs : LruOrdenada tamTlb s) (hT : 1 ≤ tamTlb) {e : EventoTlb}
    (hC : InsercionHalla s e) (h : pasoTlb s e = some s') : LruOrdenada tamTlb s' := by
  cases e with
  | buscar pid pagina reloj =>
      obtain rfl := pasoTlb_buscar h
      rw [obtenerMarcoEnTlb_lru hs.algo hs.nodup]
      refine ⟨hs.algo, hs.tam, ?_, ?_, fun e he => ?_⟩
      · simpa using hs.cabe
      · have hlugares : (s.tlb.entradas.map (RegistroTlb.tocar (pid, pagina) reloj)).map
            RegistroTlb.lugar = s.tlb.entradas.map RegistroTlb.lugar := by
          rw [List.map_map]
          exact List.map_congr_left fun r _ => RegistroTlb.tocar_lugar _ _ r
        exact hlugares ▸ hs.nodup
      · obtain ⟨r, hr, rfl⟩ := List.mem_map.1 he
        rw [RegistroTlb.tocar_lugar]
        by_cases hlugar : r.lugar = (pid, pagina)
        · simp [RegistroTlb.tocar, hlugar]
        · simpa [RegistroTlb.tocar, hlugar] using hs.tiempos r hr
  | insertar registro reloj reloj' =>
      obtain ⟨hfalta, rfl⟩ := pasoTlb_insertar h
      obtain ⟨quedan, hsub, hlt, hent, -⟩ := lru_insertar hs hT hC
      obtain ⟨halgo, htam⟩ := insertarEnTlb_config s.tlb registro reloj reloj'
      refine ⟨halgo.trans hs.algo, htam.trans hs.tam, ?_, ?_, fun e he => ?_⟩
      · simp only [hent, List.length_append, List.length_singleton]
        omega
      · simp only [hent, List.map_append, List.map_singleton]
        refine List.nodup_append.2 ⟨hs.nodup.sublist (hsub.map _), List.nodup_singleton _, ?_⟩
        intro lugar hlugar lugar' hlugar' heq
        obtain ⟨r, hr, rfl⟩ := List.mem_map.1 hlugar
        exact hfalta r (hsub.subset hr) (heq.trans (List.mem_singleton.1 hlugar'))
      · simp only [hent] at he
        rcases List.mem_append.1 he with he | he
        · dsimp only
          rw [Function.update_of_ne (hfalta e (hsub.subset he))]
          exact hs.tiempos e (hsub.subset he)
        · obtain rfl := List.mem_singleton.1 he
          exact (Function.update_self registro.lugar reloj' s.accesos).symm
  | limpiar pid =>
      obtain rfl := Option.some.inj h
      have hsub : (limpiarTlb s.tlb pid).entradas.Sublist s.tlb.entradas :=
        limpiarDesde_sublist pid 0 s.tlb.entradas
      refine ⟨hs.algo, hs.tam, ?_, hs.nodup.sublist (hsub.map _),
        fun e he => hs.tiempos e (hsub.subset he)⟩
      have hle := hsub.length_le
      exact (Int.ofNat_le.2 hle).trans hs.cabe

/-- In every run whose insertions find their victim, a TLB under LRU stays within its size, has no
page twice, and takes an entry of the oldest access out for each one that comes in when it is
full. -/
theorem lru_correcta (hT : 1 ≤ tamTlb)
    (h : Transicion.AlcanzableCon (sistemaTlb tamTlb .lru) InsercionHalla s) :
    ReemplazaBien tamTlb TlbEnUso.accesos InsercionHalla s ∧
      (s.tlb.entradas.map RegistroTlb.lugar).Nodup := by
  have hs : LruOrdenada tamTlb s := by
    refine h.invariante ?_ fun s e s' hs hC hp => lruOrdenada_paso hs hT hC hp
    rintro s rfl
    refine ⟨rfl, rfl, ?_, by simp [TlbEnUso.inicial, iniciarTlb],
      by simp [TlbEnUso.inicial, iniciarTlb]⟩
    simp only [TlbEnUso.inicial, iniciarTlb, List.length_nil, Nat.cast_zero]
    omega
  refine ⟨⟨hs.cabe, ?_, ?_⟩, hs.nodup⟩
  · intro registro reloj reloj' s' hC hp
    obtain ⟨-, rfl⟩ := pasoTlb_insertar hp
    obtain ⟨quedan, -, -, hent, -⟩ := lru_insertar hs hT hC
    exact ⟨{ registro with lastAccess := reloj' }, by simp [hent], rfl⟩
  · intro registro reloj reloj' s' hC hp hlleno
    obtain ⟨-, rfl⟩ := pasoTlb_insertar hp
    obtain ⟨quedan, -, -, hent, hvictima⟩ := lru_insertar hs hT hC
    obtain ⟨pre, r, suf, hpartes, rfl, hmin⟩ := hvictima hlleno
    refine ⟨pre, r, suf, { registro with lastAccess := reloj' }, hpartes, hmin, rfl, ?_⟩
    rw [hent]
    exact List.perm_append_singleton _ _

end Lru

/-- Two pages inserted at one reading of the clock, in a TLB of one entry: the first one stays, and
there are two. -/
theorem lru_no_correcta : ¬∀ (tamTlb : ℤ), 1 ≤ tamTlb → ∀ s : TlbEnUso,
    Transicion.Alcanzable (sistemaTlb tamTlb .lru) s →
      ReemplazaBien tamTlb TlbEnUso.accesos (fun _ _ => True) s ∧
        (s.tlb.entradas.map RegistroTlb.lugar).Nodup := by
  intro h
  have hprimera : Transicion.Alcanzable (sistemaTlb 1 .lru) _ :=
    .paso (.inicio rfl) (e := .insertar ⟨1, 0, 2, 0⟩ 5 5) trivial rfl
  have hsegunda : Transicion.Alcanzable (sistemaTlb 1 .lru) _ :=
    .paso hprimera (e := .insertar ⟨1, 1, 3, 0⟩ 5 5) trivial rfl
  exact absurd (h 1 le_rfl _ hsegunda).1.cabe (by decide)

/-- One millisecond later the second one takes the place of the first. -/
theorem lru_correcta_dos_paginas :
    ∃ s : TlbEnUso, s.tlb.entradas = [⟨1, 1, 3, 6⟩] ∧
      ReemplazaBien 1 TlbEnUso.accesos InsercionHalla s ∧
        (s.tlb.entradas.map RegistroTlb.lugar).Nodup := by
  have hprimera : Transicion.AlcanzableCon (sistemaTlb 1 .lru) InsercionHalla _ :=
    .paso (.inicio rfl) (e := .insertar ⟨1, 0, 2, 0⟩ 5 5) (fun h => absurd h (by decide)) rfl
  have hsegunda : Transicion.AlcanzableCon (sistemaTlb 1 .lru) InsercionHalla _ :=
    .paso hprimera (e := .insertar ⟨1, 1, 3, 0⟩ 6 6)
      (fun _ => ⟨[], ⟨1, 0, 2, 5⟩, [], rfl, by decide, by decide, by decide, by decide⟩) rfl
  exact ⟨_, rfl, lru_correcta (by decide) hsegunda⟩

/-! ### FIFO -/

/-- Where the next entry goes when the TLB is full. -/
def Tlb.proximo (t : Tlb) : ℕ :=
  if (t.ultimoIndex : ℤ) = t.tamTlb then 0 else t.ultimoIndex

/-- The entries in the order in which FIFO gives them up. -/
def Tlb.cola (t : Tlb) : List RegistroTlb :=
  t.entradas.drop t.proximo ++ t.entradas.take t.proximo

/-- A flush that removes something finds the index at the beginning of the list. -/
def LimpiaAlineada (s : TlbEnUso) : EventoTlb → Prop
  | .limpiar pid => (∀ e ∈ s.tlb.entradas, e.pid ≠ pid) ∨ s.tlb.ultimoIndex = 0 ∨
      (s.tlb.ultimoIndex : ℤ) = s.tlb.tamTlb
  | _ => True

/-- The invariant of FIFO: while there is room the index is at the beginning, and the entries come
in the order of their insertions from the index on. -/
structure FifoOrdenada (tamTlb : ℤ) (s : TlbEnUso) : Prop where
  algo : s.tlb.algoTlb = .fifo
  tam : s.tlb.tamTlb = tamTlb
  cabe : (s.tlb.entradas.length : ℤ) ≤ tamTlb
  indice : (s.tlb.ultimoIndex : ℤ) ≤ tamTlb
  inicio : (s.tlb.entradas.length : ℤ) < tamTlb → s.tlb.proximo = 0
  orden : s.tlb.cola.Pairwise fun a b => s.inserciones a.lugar < s.inserciones b.lugar
  antes : ∀ e ∈ s.tlb.entradas, s.inserciones e.lugar < s.cuenta

section Fifo

variable {pre suf : List RegistroTlb} {r registro : RegistroTlb} {reloj reloj' : ℕ} {tamTlb : ℤ}
  {s s' : TlbEnUso}

theorem insertarEnTlb_fifo_of_lt {t : Tlb} (halgo : t.algoTlb = .fifo) (hT : 1 ≤ t.tamTlb)
    (h : (t.entradas.length : ℤ) < t.tamTlb) :
    insertarEnTlb t registro reloj reloj' =
      { t with
        entradas := t.entradas ++ [{ registro with lastAccess := 0 }]
        ultimoIndex := t.proximo } := by
  have hpos : 0 < t.tamTlb := by omega
  simp [insertarEnTlb, halgo, hpos, h, Tlb.proximo]

theorem insertarEnTlb_fifo_of_eq {t : Tlb} (halgo : t.algoTlb = .fifo) (hT : 1 ≤ t.tamTlb)
    (h : (t.entradas.length : ℤ) = t.tamTlb) (ht : t.entradas = pre ++ r :: suf)
    (hpre : t.proximo = pre.length) :
    insertarEnTlb t registro reloj reloj' =
      { t with
        entradas := pre ++ { registro with lastAccess := 0 } :: suf
        ultimoIndex := pre.length + 1 } := by
  have hpos : 0 < t.tamTlb := by omega
  have hproximo : (if (t.ultimoIndex : ℤ) = t.tamTlb then 0 else t.ultimoIndex) = pre.length :=
    hpre
  simp only [insertarEnTlb, halgo, hpos, decide_true, h, lt_irrefl, if_false, if_true, hproximo]
  rw [ht, quitar_append, Coleccion.insertIdx_length_append]

/-- The entries in their order are those of the list. -/
theorem Tlb.cola_perm (t : Tlb) : t.cola.Perm t.entradas :=
  List.perm_append_comm.trans (by rw [List.take_append_drop])

/-- Where the index is at the beginning, the order is that of the list. -/
theorem Tlb.cola_of_zero {t : Tlb} (h : t.proximo = 0) : t.cola = t.entradas := by
  simp [Tlb.cola, h]

/-- The index is on an entry of a full TLB. -/
theorem FifoOrdenada.proximo_lt (hs : FifoOrdenada tamTlb s) (hT : 1 ≤ tamTlb) :
    (s.tlb.proximo : ℤ) < tamTlb := by
  have hindice := hs.indice
  have htam := hs.tam
  unfold Tlb.proximo
  split <;> omega

/-- A full TLB splits at the index, and the entries from it on are the oldest. -/
theorem FifoOrdenada.partes (hs : FifoOrdenada tamTlb s) (hT : 1 ≤ tamTlb)
    (h : (s.tlb.entradas.length : ℤ) = tamTlb) :
    ∃ pre r suf, s.tlb.entradas = pre ++ r :: suf ∧ s.tlb.proximo = pre.length ∧
      s.tlb.cola = r :: (suf ++ pre) := by
  have hlt : s.tlb.proximo < s.tlb.entradas.length := by
    have := hs.proximo_lt hT
    omega
  have hresto := List.drop_eq_getElem_cons hlt
  refine ⟨s.tlb.entradas.take s.tlb.proximo, s.tlb.entradas[s.tlb.proximo],
    s.tlb.entradas.drop (s.tlb.proximo + 1), ?_, ?_, ?_⟩
  · rw [← hresto, List.take_append_drop]
  · rw [List.length_take, min_eq_left hlt.le]
  · rw [Tlb.cola, hresto, List.cons_append]

variable (registro reloj reloj') in
/-- Under FIFO an insertion puts the entry last in the order of leaving, after entries that were in
it: all of them when there is room, all but the first one when there is none. -/
theorem fifo_insertar (hs : FifoOrdenada tamTlb s) (hT : 1 ≤ tamTlb) :
    ∃ quedan, quedan.Sublist s.tlb.cola ∧ (quedan.length : ℤ) < tamTlb ∧
      (insertarEnTlb s.tlb registro reloj reloj').cola =
        quedan ++ [{ registro with lastAccess := 0 }] ∧
      ((insertarEnTlb s.tlb registro reloj reloj').ultimoIndex : ℤ) ≤ tamTlb ∧
      (((insertarEnTlb s.tlb registro reloj reloj').entradas.length : ℤ) < tamTlb →
        (insertarEnTlb s.tlb registro reloj reloj').proximo = 0) := by
  have htam := hs.tam
  rcases lt_or_eq_of_le hs.cabe with hlt | heq
  · have hcero := hs.inicio hlt
    rw [insertarEnTlb_fifo_of_lt hs.algo (htam ▸ hT) (htam ▸ hlt), hcero]
    refine ⟨s.tlb.entradas, by rw [Tlb.cola_of_zero hcero], hlt, ?_, ?_, fun _ => ?_⟩
    · rw [Tlb.cola_of_zero (by simp [Tlb.proximo])]
    · simp only [Nat.cast_zero]
      omega
    · simp [Tlb.proximo]
  · obtain ⟨pre, r, suf, hent, hpre, hcola⟩ := hs.partes hT heq
    have hlen := congrArg List.length hent
    rw [List.length_append, List.length_cons] at hlen
    rw [insertarEnTlb_fifo_of_eq hs.algo (htam ▸ hT) (heq.trans htam.symm) hent hpre]
    refine ⟨suf ++ pre, ?_, ?_, ?_, ?_, fun hmenor => ?_⟩
    · rw [hcola]
      exact List.sublist_cons_self r _
    · rw [List.length_append]
      omega
    · -- the index comes back to the beginning after the last position
      rcases List.eq_nil_or_concat suf with rfl | ⟨_, _, hsuf⟩
      · have hvuelta : ((pre.length + 1 : ℕ) : ℤ) = s.tlb.tamTlb := by
          rw [List.length_nil] at hlen
          omega
        simp [Tlb.cola, Tlb.proximo, hvuelta]
      · have hsigue : ((pre.length + 1 : ℕ) : ℤ) ≠ s.tlb.tamTlb := by
          rw [hsuf, List.length_concat] at hlen
          omega
        have hdrop : (pre ++ { registro with lastAccess := 0 } :: suf).drop (pre.length + 1) =
            suf := by
          rw [← List.drop_drop, List.drop_left]
          rfl
        have htake : (pre ++ { registro with lastAccess := 0 } :: suf).take (pre.length + 1) =
            pre ++ [{ registro with lastAccess := 0 }] := by
          rw [List.take_length_add_append]
          rfl
        simp only [Tlb.cola, Tlb.proximo, if_neg hsigue, hdrop, htake, List.append_assoc]
    · dsimp only
      omega
    · simp only [List.length_append, List.length_cons] at hmenor
      omega

/-- The page that comes in is the last one of the queue. -/
theorem fifoOrdenada_insertar (hs : FifoOrdenada tamTlb s) (hT : 1 ≤ tamTlb)
    {registro : RegistroTlb} {reloj reloj' : ℕ}
    (h : pasoTlb s (.insertar registro reloj reloj') = some s') : FifoOrdenada tamTlb s' := by
  obtain ⟨hfalta, rfl⟩ := pasoTlb_insertar h
  obtain ⟨quedan, hsub, hlt, hcola, hindice, hinicio⟩ :=
    fifo_insertar registro reloj reloj' hs hT
  obtain ⟨halgo, htam⟩ := insertarEnTlb_config s.tlb registro reloj reloj'
  have hperm := Tlb.cola_perm (insertarEnTlb s.tlb registro reloj reloj')
  have hestaba : ∀ e ∈ quedan, e ∈ s.tlb.entradas := fun e he =>
    s.tlb.cola_perm.subset (hsub.subset he)
  -- the pages that stay keep the number of their insertion
  have hmismo : ∀ e ∈ quedan,
      Function.update s.inserciones registro.lugar s.cuenta e.lugar = s.inserciones e.lugar :=
    fun e he => Function.update_of_ne (hfalta e (hestaba e he)) _ _
  have hnuevo : RegistroTlb.lugar { registro with lastAccess := 0 } = registro.lugar := rfl
  refine ⟨halgo.trans hs.algo, htam.trans hs.tam, ?_, hindice, hinicio, ?_, fun e he => ?_⟩
  · have hlen := hperm.length_eq
    rw [hcola, List.length_append, List.length_singleton] at hlen
    dsimp only
    omega
  · dsimp only
    rw [hcola]
    refine List.pairwise_append.2 ⟨?_, List.pairwise_singleton _ _, fun a ha b hb => ?_⟩
    · refine (hs.orden.sublist hsub).imp_of_mem fun ha hb hab => ?_
      rwa [hmismo _ ha, hmismo _ hb]
    · obtain rfl := List.mem_singleton.1 hb
      rw [hmismo a ha, hnuevo, Function.update_self]
      exact hs.antes a (hestaba a ha)
  · have he := hperm.symm.subset he
    rw [hcola] at he
    dsimp only
    rcases List.mem_append.1 he with he | he
    · rw [hmismo e he]
      exact Nat.lt_succ_of_lt (hs.antes e (hestaba e he))
    · obtain rfl := List.mem_singleton.1 he
      rw [hnuevo, Function.update_self]
      exact Nat.lt_succ_self _

/-- A flush that meets the condition takes entries out of a queue that starts at the first place. -/
theorem fifoOrdenada_limpiar (hs : FifoOrdenada tamTlb s) {pid : Pid}
    (hC : LimpiaAlineada s (.limpiar pid)) (h : pasoTlb s (.limpiar pid) = some s') :
    FifoOrdenada tamTlb s' := by
  obtain rfl := Option.some.inj h
  by_cases hnada : ∀ e ∈ s.tlb.entradas, e.pid ≠ pid
  · have hlimpia : limpiarTlb s.tlb pid = s.tlb := by
      unfold limpiarTlb
      rw [limpiarDesde_of_ausente 0 hnada]
    rw [hlimpia]
    exact hs
  · have hsub : (limpiarTlb s.tlb pid).entradas.Sublist s.tlb.entradas :=
      limpiarDesde_sublist pid 0 s.tlb.entradas
    have hcero : s.tlb.proximo = 0 := by
      unfold Tlb.proximo
      rcases hC.resolve_left hnada with hindice | hindice
      · rw [hindice, ite_self]
      · rw [if_pos hindice]
    have hcero' : (limpiarTlb s.tlb pid).proximo = 0 := hcero
    have horden := hs.orden
    rw [Tlb.cola_of_zero hcero] at horden
    refine ⟨hs.algo, hs.tam, (Int.ofNat_le.2 hsub.length_le).trans hs.cabe, hs.indice,
      fun _ => hcero, ?_, fun e he => hs.antes e (hsub.subset he)⟩
    dsimp only
    rw [Tlb.cola_of_zero hcero']
    exact horden.sublist hsub

/-- A step that meets the condition keeps the invariant. -/
theorem fifoOrdenada_paso (hs : FifoOrdenada tamTlb s) (hT : 1 ≤ tamTlb) {e : EventoTlb}
    (hC : LimpiaAlineada s e) (h : pasoTlb s e = some s') : FifoOrdenada tamTlb s' := by
  cases e with
  | buscar pid pagina reloj =>
      obtain rfl := pasoTlb_buscar h
      rw [obtenerMarcoEnTlb_fifo hs.algo]
      exact ⟨hs.algo, hs.tam, hs.cabe, hs.indice, hs.inicio, hs.orden, hs.antes⟩
  | insertar registro reloj reloj' => exact fifoOrdenada_insertar hs hT h
  | limpiar pid => exact fifoOrdenada_limpiar hs hC h

/-- In every run whose flushes remove nothing from under the index, a TLB under FIFO stays within
its size and takes the entry that came in first out for each one that comes in when it is full. -/
theorem fifo_correcta (hT : 1 ≤ tamTlb)
    (h : Transicion.AlcanzableCon (sistemaTlb tamTlb .fifo) LimpiaAlineada s) :
    ReemplazaBien tamTlb TlbEnUso.inserciones LimpiaAlineada s := by
  have hs : FifoOrdenada tamTlb s := by
    refine h.invariante ?_ fun s e s' hs hC hp => fifoOrdenada_paso hs hT hC hp
    rintro s rfl
    refine ⟨rfl, rfl, ?_, ?_, fun _ => ?_, ?_, ?_⟩
    · simp only [TlbEnUso.inicial, iniciarTlb, List.length_nil, Nat.cast_zero]
      omega
    · simp only [TlbEnUso.inicial, iniciarTlb, Nat.cast_zero]
      omega
    · simp [TlbEnUso.inicial, iniciarTlb, Tlb.proximo]
    · simp [TlbEnUso.inicial, iniciarTlb, Tlb.cola]
    · simp [TlbEnUso.inicial, iniciarTlb]
  refine ⟨hs.cabe, ?_, ?_⟩
  · intro registro reloj reloj' s' _ hp
    obtain ⟨-, rfl⟩ := pasoTlb_insertar hp
    obtain ⟨quedan, -, -, hcola, -, -⟩ := fifo_insertar registro reloj reloj' hs hT
    refine ⟨{ registro with lastAccess := 0 }, (Tlb.cola_perm _).subset ?_, rfl⟩
    simp [hcola]
  · intro registro reloj reloj' s' _ hp hlleno
    obtain ⟨-, rfl⟩ := pasoTlb_insertar hp
    obtain ⟨pre, r, suf, hent, hpre, hcola⟩ := hs.partes hT hlleno
    have hprimera : ∀ e ∈ suf ++ pre, s.inserciones r.lugar < s.inserciones e.lugar :=
      (List.pairwise_cons.1 (hcola ▸ hs.orden)).1
    refine ⟨pre, r, suf, { registro with lastAccess := 0 }, hent, fun e he => ?_, rfl, ?_⟩
    · have he := s.tlb.cola_perm.symm.subset he
      rw [hcola] at he
      rcases List.mem_cons.1 he with rfl | he
      · exact le_rfl
      · exact (hprimera e he).le
    · dsimp only
      rw [insertarEnTlb_fifo_of_eq hs.algo (hs.tam ▸ hT) (hlleno.trans hs.tam.symm) hent hpre]
      exact List.perm_middle

end Fifo

theorem pasoTlb_limpiar {s : TlbEnUso} {pid : Pid} {l : List RegistroTlb}
    (h : limpiarDesde pid 0 s.tlb.entradas = l) :
    pasoTlb s (.limpiar pid) = some { s with tlb := { s.tlb with entradas := l } } := by
  subst h
  rfl

/-- Two pages fill a TLB of two entries, a third one takes the place of the first, and the second
one is flushed; a fourth one comes in after the third, and the index is on it. -/
theorem limpia_bajo_el_indice : ∃ s, Transicion.Alcanzable (sistemaTlb 2 .fifo) s ∧
    s.tlb = ⟨[⟨1, 1, 2, 0⟩, ⟨3, 0, 3, 0⟩], 2, .fifo, 1⟩ ∧ s.reloj = 0 ∧
    s.inserciones (1, 1) = 2 ∧ s.inserciones (3, 0) = 3 := by
  have hprimera : Transicion.Alcanzable (sistemaTlb 2 .fifo) _ :=
    .paso (.inicio rfl) (e := .insertar ⟨1, 0, 0, 0⟩ 0 0) trivial rfl
  have hsegunda : Transicion.Alcanzable (sistemaTlb 2 .fifo) _ :=
    .paso hprimera (e := .insertar ⟨2, 0, 1, 0⟩ 0 0) trivial rfl
  have htercera : Transicion.Alcanzable (sistemaTlb 2 .fifo) _ :=
    .paso hsegunda (e := .insertar ⟨1, 1, 2, 0⟩ 0 0) trivial rfl
  have hlimpia : Transicion.Alcanzable (sistemaTlb 2 .fifo) _ :=
    .paso htercera (e := .limpiar 2) trivial (pasoTlb_limpiar
      (show limpiarDesde 2 0 [⟨1, 1, 2, 0⟩, ⟨2, 0, 1, 0⟩] = [⟨1, 1, 2, 0⟩] by simp [limpiarDesde]))
  have hcuarta : Transicion.Alcanzable (sistemaTlb 2 .fifo) _ :=
    .paso hlimpia (e := .insertar ⟨3, 0, 3, 0⟩ 0 0) trivial rfl
  exact ⟨_, hcuarta, rfl, rfl, rfl, rfl⟩

/-- The next insertion takes the fourth page out, and not the third one. -/
theorem fifo_no_correcta : ¬∀ (tamTlb : ℤ), 1 ≤ tamTlb → ∀ s : TlbEnUso,
    Transicion.Alcanzable (sistemaTlb tamTlb .fifo) s →
      ReemplazaBien tamTlb TlbEnUso.inserciones (fun _ _ => True) s := by
  intro h
  obtain ⟨s, hs, htlb, hreloj, htercera, hcuarta⟩ := limpia_bajo_el_indice
  obtain ⟨s', hpaso, hent'⟩ : ∃ s', pasoTlb s (.insertar ⟨3, 1, 4, 0⟩ 0 0) = some s' ∧
      s'.tlb.entradas = [⟨1, 1, 2, 0⟩, ⟨3, 1, 4, 0⟩] := by
    rw [pasoTlb, htlb, hreloj]
    exact ⟨_, rfl, rfl⟩
  obtain ⟨pre, r, suf, nuevo, hent, hmin, -, hperm⟩ :=
    (h 2 (by decide) s hs).sale ⟨3, 1, 4, 0⟩ 0 0 s' trivial hpaso (by rw [htlb]; rfl)
  rw [htlb] at hent hmin
  rw [hent'] at hperm
  rcases pre with - | ⟨a, pre⟩
  · -- the third page is the oldest, so the fourth one should have stayed
    obtain ⟨rfl, rfl⟩ := List.cons.inj hent
    have hsigue : (⟨3, 0, 3, 0⟩ : RegistroTlb) ∈ [⟨1, 1, 2, 0⟩, ⟨3, 1, 4, 0⟩] :=
      hperm.symm.subset (by simp)
    exact absurd hsigue (by decide)
  · obtain ⟨rfl, hresto⟩ := List.cons.inj hent
    rcases pre with - | ⟨b, pre⟩
    · obtain ⟨rfl, -⟩ := List.cons.inj hresto
      have hle := hmin ⟨1, 1, 2, 0⟩ (by simp)
      simp only [RegistroTlb.lugar, htercera, hcuarta] at hle
      exact absurd hle (by decide)
    · simp at hresto

/-- Flushed while the index is at the beginning, the TLB keeps its order. -/
theorem fifo_correcta_limpia_al_principio :
    ∃ s : TlbEnUso, s.tlb.entradas = [⟨2, 0, 1, 0⟩, ⟨3, 0, 3, 0⟩] ∧
      ReemplazaBien 2 TlbEnUso.inserciones LimpiaAlineada s := by
  have hprimera : Transicion.AlcanzableCon (sistemaTlb 2 .fifo) LimpiaAlineada _ :=
    .paso (.inicio rfl) (e := .insertar ⟨1, 0, 0, 0⟩ 0 0) trivial rfl
  have hsegunda : Transicion.AlcanzableCon (sistemaTlb 2 .fifo) LimpiaAlineada _ :=
    .paso hprimera (e := .insertar ⟨2, 0, 1, 0⟩ 0 0) trivial rfl
  have hlimpia : Transicion.AlcanzableCon (sistemaTlb 2 .fifo) LimpiaAlineada _ :=
    .paso hsegunda (e := .limpiar 1) (Or.inr (Or.inl rfl)) (pasoTlb_limpiar
      (show limpiarDesde 1 0 [⟨1, 0, 0, 0⟩, ⟨2, 0, 1, 0⟩] = [⟨2, 0, 1, 0⟩] by simp [limpiarDesde]))
  have htercera : Transicion.AlcanzableCon (sistemaTlb 2 .fifo) LimpiaAlineada _ :=
    .paso hlimpia (e := .insertar ⟨3, 0, 3, 0⟩ 0 0) trivial rfl
  exact ⟨_, rfl, fifo_correcta (by decide) htercera⟩

end Cpu
