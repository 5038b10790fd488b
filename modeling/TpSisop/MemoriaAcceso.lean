/-
**Reading and writing the user space across pages.**

A process reads and writes `[L, L + n)` through `obtener_datos_de_memoria` and
`agregar_datos_a_memoria`.  Both walk the page table, one turn of a loop for each piece, and both
compute the room left in the first page and then overwrite it: every turn copies up to a whole page
from `marco * tam_pagina + desplazamiento`, so it runs into the frame that follows physically, and
from the last frame out of the user space.  Byte `i` is therefore accessed at `dirRecorrida`, while
its place is `dirLogica`.  This module proves when the loops end, what they access, and that the two
addresses agree exactly when the access starts at a page boundary or the frames it touches are
consecutive.

Main definitions:

* `Memoria.recorrer` — the loop both functions share, over the body of one turn;
* `Memoria.RecorridoEnTabla`, `Memoria.RecorridoEnEspacio` — the loop stays in the page table, and
  its pieces in the user space;
* `Memoria.obtenerDatosDeMemoria`, `Memoria.agregarDatosAMemoria`, `Memoria.copyString`;
* `Memoria.LeeExacto`, `Memoria.EscribeExacto` — what a read and a write are for.

Main results:

* `Memoria.recorrer_ok_iff` — the loop ends exactly when it stays in both;
* `Memoria.recorrer_regla` — the invariant rule of the loop;
* `Memoria.obtenerDatosDeMemoria_spec`, `Memoria.agregarDatosAMemoria_spec` — what they access;
* `Memoria.acceso_exacto_iff` — when they are exact.
-/

import TpSisop.MemoriaMarcos

set_option relaxedAutoImplicit false
set_option autoImplicit false

namespace Memoria

/-! ### The two copies (`operaciones.c`) -/

/-- `traducir_direccion`. -/
def traducirDireccion (m : Estado) (marco desplazamiento : ℕ) : ℕ :=
  m.tamPagina * marco + desplazamiento

/-- Writes `datos` from `direccion` on. -/
def escribir (espacio : ℕ → UInt8) (direccion : ℕ) (datos : List UInt8) : ℕ → UInt8 := fun a =>
  if a < direccion then espacio a else (datos[a - direccion]?).getD (espacio a)

def agregarDatosContiguosAMemoria (m : Estado) (datos : List UInt8) (direccion : ℕ) : Estado :=
  { m with espacio := escribir m.espacio direccion datos }

def obtenerDatosContiguosDeMemoria (m : Estado) (direccion tamanio : ℕ) : List UInt8 :=
  (List.range tamanio).map fun i => m.espacio (direccion + i)

def obtenerMarcoDeDireccion (m : Estado) (direccion : ℕ) : ℕ :=
  direccion / m.tamPagina

/-- The page held by a frame, `-1` when no page is. -/
def obtenerPaginaDeMarco (paginas : List ℕ) (marco : ℕ) : ℤ :=
  Coleccion.indice (fun pagina => decide (pagina = marco)) paginas

variable {σ : Type*}

/-- The loop of `obtener_datos_de_memoria` and of `agregar_datos_a_memoria`; `cuerpo` copies one
piece, given its offset in the buffer, its address and its size, and the piece has to be in the
`tamMemoria` bytes of the user space.  A turn copies at least one byte when the page size is
positive, so as many turns as bytes are enough. -/
def recorrer (tamMemoria tamPagina : ℕ) (paginas : List ℕ) (cuerpo : ℕ → ℕ → ℕ → σ → σ) :
    ℕ → ℤ → ℕ → ℕ → ℕ → σ → Except Fallo σ
  | 0, _, _, _, _, s => .ok s
  | turnos + 1, pagina, direccion, restante, offset, s =>
      if restante = 0 then .ok s
      else
        -- the room left in the first page, computed before the loop, is overwritten here
        let aCopiar := if restante > tamPagina then tamPagina else restante
        let pagina' := if restante > tamPagina then pagina + 1 else pagina
        if tamMemoria < direccion + aCopiar then .error .fueraDeMemoria
        else
          match Coleccion.obtener paginas pagina' with
          | none => .error .punteroNulo
          | some marco =>
              recorrer tamMemoria tamPagina paginas cuerpo turnos pagina'
                (marco * tamPagina + direccion % tamPagina) (restante - aCopiar)
                (offset + aCopiar) (cuerpo offset direccion aCopiar s)

def obtenerDatosDeMemoria (m : Estado) (direccion tamanio : ℕ) (pid : Pid) :
    Except Fallo (List UInt8) :=
  match m.tablaDePaginas pid with
  | none => .error .punteroNulo
  | some paginas =>
      let pagina := obtenerPaginaDeMarco paginas (obtenerMarcoDeDireccion m direccion)
      recorrer m.tamMemoria m.tamPagina paginas
        (fun _ dir aCopiar buffer => buffer ++ obtenerDatosContiguosDeMemoria m dir aCopiar)
        tamanio pagina direccion tamanio 0 []

/-- The size is the length of `datos`. -/
def agregarDatosAMemoria (m : Estado) (datos : List UInt8) (direccion : ℕ) (pid : Pid) :
    Except Fallo Estado :=
  match m.tablaDePaginas pid with
  | none => .error .punteroNulo
  | some paginas =>
      let pagina := obtenerPaginaDeMarco paginas (obtenerMarcoDeDireccion m direccion)
      recorrer m.tamMemoria m.tamPagina paginas
        (fun offset dir aPegar m' =>
          agregarDatosContiguosAMemoria m' ((datos.drop offset).take aPegar) dir)
        datos.length pagina direccion datos.length 0 m

def copyString (m : Estado) (di si tamanio : ℕ) (pid : Pid) : Except Fallo Estado := do
  let string ← obtenerDatosDeMemoria m si tamanio pid
  agregarDatosAMemoria m string di pid

/-! ### Addresses -/

/-- The physical address of the logical address `a`. -/
def dirLogica (tamPagina : ℕ) (ps : List ℕ) (a : ℕ) : ℕ :=
  ps.getD (a / tamPagina) 0 * tamPagina + a % tamPagina

/-- The physical address the loops access for byte `i` of an access that starts at `L`. -/
def dirRecorrida (tamPagina : ℕ) (ps : List ℕ) (L i : ℕ) : ℕ :=
  ps.getD (L / tamPagina + i / tamPagina) 0 * tamPagina + L % tamPagina + i % tamPagina

section Direcciones

variable {P : ℕ} {ps : List ℕ} {L n : ℕ}

theorem turno_div (k : ℕ) {u : ℕ} (hu : u < P) : (k * P + u) / P = k := by
  rw [Nat.add_comm, Nat.add_mul_div_right _ _ (by omega), Nat.div_eq_of_lt hu, Nat.zero_add]

theorem turno_mod (k : ℕ) {u : ℕ} (hu : u < P) : (k * P + u) % P = u := by
  rw [Nat.mul_comm, Nat.mul_add_mod, Nat.mod_eq_of_lt hu]

theorem getElem?_eq_getD {i : ℕ} (hi : i < ps.length) : ps[i]? = some (ps.getD i 0) := by
  simp [hi]

/-- Byte `u` of turn `k`. -/
theorem dirRecorrida_turno (k : ℕ) {u : ℕ} (hu : u < P) :
    dirRecorrida P ps L (k * P + u) = ps.getD (L / P + k) 0 * P + L % P + u := by
  rw [dirRecorrida, turno_div k hu, turno_mod k hu]

theorem dirRecorrida_inicio (k : ℕ) (hP : 0 < P) :
    dirRecorrida P ps L (k * P) = ps.getD (L / P + k) 0 * P + L % P := by
  have hturno : dirRecorrida P ps L (k * P + 0) = _ := dirRecorrida_turno k hP
  rwa [Nat.add_zero, Nat.add_zero] at hturno

/-- Inside one turn the addresses follow each other. -/
theorem dirRecorrida_add (k : ℕ) {u : ℕ} (hu : u < P) :
    dirRecorrida P ps L (k * P + u) = dirRecorrida P ps L (k * P) + u := by
  rw [dirRecorrida_turno k hu, dirRecorrida_inicio k (by omega)]

/-- The pieces of the loop end by `M` exactly when every byte is below it. -/
theorem piezas_le_iff (hP : 0 < P) (M : ℕ) :
    (∀ k, k * P < n → dirRecorrida P ps L (k * P) + min P (n - k * P) ≤ M) ↔
      ∀ i < n, dirRecorrida P ps L i < M := by
  constructor
  · intro h i hi
    obtain ⟨k, u, hu, rfl⟩ : ∃ k u, u < P ∧ i = k * P + u :=
      ⟨i / P, i % P, Nat.mod_lt i hP, (Nat.div_add_mod' i P).symm⟩
    have hpieza := h k (by omega)
    rw [dirRecorrida_add k hu]
    omega
  · intro h k hk
    -- the last byte of the piece
    have hultimo := h (k * P + (min P (n - k * P) - 1)) (by omega)
    rw [dirRecorrida_add k (by omega)] at hultimo
    omega

/-- The address of byte `i`, when the loop is still inside the frame of its turn. -/
theorem dirRecorrida_dentro {k u : ℕ} (hu : L % P + u < P) :
    dirRecorrida P ps L (k * P + u) = dirLogica P ps (L + (k * P + u)) := by
  have hL := Nat.div_add_mod' L P
  have hsuma : L + (k * P + u) = (L / P + k) * P + (L % P + u) := by
    rw [Nat.add_mul]
    omega
  rw [dirRecorrida_turno k (by omega), dirLogica, hsuma, turno_div _ hu, turno_mod _ hu]
  omega

/-- The logical address of byte `i`, when its place is on the page after the one of its turn. -/
theorem dirLogica_fuera (hP : 0 < P) {k u : ℕ} (hu : u < P) (hfuera : P ≤ L % P + u) :
    dirLogica P ps (L + (k * P + u)) = ps.getD (L / P + k + 1) 0 * P + (L % P + u - P) := by
  have hL := Nat.div_add_mod' L P
  have hmod := Nat.mod_lt L hP
  have hsuma : L + (k * P + u) = (L / P + k + 1) * P + (L % P + u - P) := by
    rw [Nat.add_mul, Nat.add_mul]
    omega
  have hlt : L % P + u - P < P := by omega
  rw [dirLogica, hsuma, turno_div _ hlt, turno_mod _ hlt]

/-- The loop accesses the right bytes exactly when it starts at a page boundary or the pages it
reaches are in consecutive frames. -/
theorem dirRecorrida_eq_iff (hP : 0 < P) :
    (∀ i < n, dirRecorrida P ps L i = dirLogica P ps (L + i)) ↔
      L % P = 0 ∨ ∀ j, L / P < j → j * P < L + n → ps.getD j 0 = ps.getD (j - 1) 0 + 1 := by
  have hL := Nat.div_add_mod' L P
  have hmod := Nat.mod_lt L hP
  constructor
  · intro h
    by_cases ho : L % P = 0
    · exact Or.inl ho
    refine Or.inr fun j hj hjn => ?_
    -- byte `k * P + (P - o)` is the first one of page `j`
    obtain ⟨k, rfl⟩ : ∃ k, j = L / P + k + 1 := ⟨j - L / P - 1, by omega⟩
    have hmult : (L / P + k + 1) * P = L / P * P + k * P + P := by
      rw [Nat.add_mul, Nat.add_mul, Nat.one_mul]
    have hbyte := h (k * P + (P - L % P)) (by omega)
    rw [dirRecorrida_turno k (by omega), dirLogica_fuera hP (by omega) (by omega)] at hbyte
    have hmarco : ps.getD (L / P + k + 1) 0 * P = (ps.getD (L / P + k) 0 + 1) * P := by
      rw [Nat.add_mul]
      omega
    simpa using Nat.eq_of_mul_eq_mul_right hP hmarco
  · intro h i hi
    obtain ⟨k, u, hu, rfl⟩ : ∃ k u, u < P ∧ i = k * P + u :=
      ⟨i / P, i % P, Nat.mod_lt i hP, (Nat.div_add_mod' i P).symm⟩
    by_cases hdentro : L % P + u < P
    · exact dirRecorrida_dentro hdentro
    have hmult : (L / P + k + 1) * P = L / P * P + k * P + P := by
      rw [Nat.add_mul, Nat.add_mul, Nat.one_mul]
    rcases h with ho | h
    · omega
    · have hmarco := h (L / P + k + 1) (by omega) (by omega)
      rw [dirRecorrida_turno k hu, dirLogica_fuera hP hu (by omega), hmarco, Nat.add_sub_cancel,
        Nat.add_mul]
      omega

/-- The loops never access one byte twice: inside a frame the offsets are at least the first one,
past its end they are below it. -/
theorem dirRecorrida_inj (hP : 0 < P) (hps : ps.Nodup)
    (hpaginas : ∀ k, k * P < n → L / P + k < ps.length) {i j : ℕ} (hi : i < n) (hj : j < n)
    (h : dirRecorrida P ps L i = dirRecorrida P ps L j) : i = j := by
  have hmod := Nat.mod_lt L hP
  obtain ⟨k, u, hu, rfl⟩ : ∃ k u, u < P ∧ i = k * P + u :=
    ⟨i / P, i % P, Nat.mod_lt i hP, (Nat.div_add_mod' i P).symm⟩
  obtain ⟨l, v, hv, rfl⟩ : ∃ l v, v < P ∧ j = l * P + v :=
    ⟨j / P, j % P, Nat.mod_lt j hP, (Nat.div_add_mod' j P).symm⟩
  have hpagina : ∀ {q w : ℕ}, q * P + w < n → L / P + q < ps.length := by
    intro q w hq
    exact hpaginas q (by omega)
  rw [dirRecorrida_turno k hu, dirRecorrida_turno l hv] at h
  generalize hf : ps.getD (L / P + k) 0 = f at h
  generalize hg : ps.getD (L / P + l) 0 = g at h
  have huv : f = g ∧ u = v := by
    rcases Nat.lt_trichotomy f g with hlt | heq | hgt
    · have := Nat.mul_le_mul_right P (Nat.succ_le_of_lt hlt)
      rw [Nat.succ_mul] at this
      omega
    · subst heq
      exact ⟨rfl, by omega⟩
    · have := Nat.mul_le_mul_right P (Nat.succ_le_of_lt hgt)
      rw [Nat.succ_mul] at this
      omega
  obtain ⟨rfl, rfl⟩ := huv
  have hkl : L / P + k = L / P + l := by
    refine (List.getElem?_inj (hpagina hi) hps).1 ?_
    rw [getElem?_eq_getD (hpagina hi), getElem?_eq_getD (hpagina hj), hf, hg]
  obtain rfl : k = l := by omega
  rfl

end Direcciones

/-! ### The loop -/

/-- The address of turn `k`: the one the loop is given, and then the same offset in the frame of
the `k`-th page that follows. -/
def dirDeTurno (tamPagina : ℕ) (ps : List ℕ) (pagina : ℤ) (direccion k : ℕ) : ℕ :=
  if k = 0 then direccion
  else ps.getD (pagina + k).toNat 0 * tamPagina + direccion % tamPagina

/-- An access of `n` bytes from a page on stays in the page table: its last page is there. -/
def RecorridoEnTabla (tamPagina : ℕ) (ps : List ℕ) (pagina : ℤ) (n : ℕ) : Prop :=
  n = 0 ∨ ∃ i < ps.length, (i : ℤ) = pagina + ((n - 1) / tamPagina : ℕ)

/-- No piece of the access, of at most a page from the address of its turn, runs past the user
space. -/
def RecorridoEnEspacio (tamMemoria tamPagina : ℕ) (ps : List ℕ) (pagina : ℤ)
    (direccion n : ℕ) : Prop :=
  ∀ k, k * tamPagina < n →
    dirDeTurno tamPagina ps pagina direccion k + min tamPagina (n - k * tamPagina) ≤ tamMemoria

section Bucle

variable {M P n p o : ℕ} {ps : List ℕ} (cuerpo : ℕ → ℕ → ℕ → σ → σ)

theorem recorrer_restante_zero (turnos : ℕ) (pagina : ℤ) (direccion offset : ℕ) (s : σ) :
    recorrer M P ps cuerpo turnos pagina direccion 0 offset s = .ok s := by
  cases turnos <;> simp [recorrer]

theorem recorridoEnEspacio_zero (pagina : ℤ) (direccion : ℕ) :
    RecorridoEnEspacio M P ps pagina direccion 0 :=
  fun _ hk => absurd hk (Nat.not_lt_zero _)

/-- An access of at most a page is one piece. -/
theorem recorridoEnEspacio_of_le {pagina : ℤ} {direccion : ℕ} (hn : 0 < n) (hle : n ≤ P) :
    RecorridoEnEspacio M P ps pagina direccion n ↔ direccion + n ≤ M := by
  constructor
  · intro h
    simpa [dirDeTurno, hle] using h 0 (by omega)
  · intro h k hk
    have hcero : k = 0 := by
      by_contra hne
      have := Nat.le_mul_of_pos_left P (Nat.pos_of_ne_zero hne)
      omega
    subst hcero
    simpa [dirDeTurno, hle] using h

/-- The pieces after the first one are those of the access from the next page on. -/
theorem recorridoEnEspacio_succ {pagina : ℤ} {direccion i : ℕ} (hP : 0 < P) (hn : P < n)
    (hi : pagina + 1 = i) :
    RecorridoEnEspacio M P ps pagina direccion n ↔ direccion + P ≤ M ∧
      RecorridoEnEspacio M P ps (pagina + 1) (ps.getD i 0 * P + direccion % P) (n - P) := by
  -- turn `k` of the rest is turn `k + 1` of the access
  have hturno : ∀ k, dirDeTurno P ps (pagina + 1) (ps.getD i 0 * P + direccion % P) k =
      dirDeTurno P ps pagina direccion (k + 1) := by
    intro k
    have hpagina : pagina + (k + 1 : ℕ) = (i + k : ℕ) := by
      push_cast
      omega
    rw [dirDeTurno, dirDeTurno, if_neg k.succ_ne_zero, hpagina, Int.toNat_natCast]
    split
    · rename_i hk
      rw [hk, Nat.add_zero]
    · rw [hi, ← Nat.cast_add, Int.toNat_natCast, turno_mod _ (Nat.mod_lt direccion hP)]
  have hmult : ∀ k, (k + 1) * P = k * P + P := fun k => by rw [Nat.add_mul, Nat.one_mul]
  constructor
  · intro h
    refine ⟨by simpa [dirDeTurno, hn.le] using h 0 (by omega), fun k hk => ?_⟩
    have hsig := h (k + 1) (by rw [hmult]; omega)
    rw [hmult] at hsig
    rw [hturno, show n - P - k * P = n - (k * P + P) by omega]
    exact hsig
  · rintro ⟨hprimero, h⟩ k hk
    cases k with
    | zero => simpa [dirDeTurno, hn.le] using hprimero
    | succ k =>
        rw [hmult] at hk ⊢
        have hsig := h k (by omega)
        rw [hturno, show n - P - k * P = n - (k * P + P) by omega] at hsig
        exact hsig

/-- The loop ends exactly when the last page of the access is in the table and its pieces are in
the user space.  A search that found no page starts it at `-1`; it still ends when the access goes
on to the next page. -/
theorem recorrer_ok_iff (hP : 0 < P) (turnos : ℕ) :
    ∀ (pagina : ℤ) (direccion restante offset : ℕ) (s : σ), -1 ≤ pagina → restante ≤ turnos →
      ((∃ s', recorrer M P ps cuerpo turnos pagina direccion restante offset s = .ok s') ↔
        RecorridoEnTabla P ps pagina restante ∧
          RecorridoEnEspacio M P ps pagina direccion restante) := by
  induction turnos with
  | zero =>
      intro pagina direccion restante offset s _ hturnos
      obtain rfl : restante = 0 := by omega
      exact ⟨fun _ => ⟨Or.inl rfl, recorridoEnEspacio_zero _ _⟩, fun _ => ⟨s, rfl⟩⟩
  | succ turnos ih =>
      intro pagina direccion restante offset s hpagina hturnos
      rw [recorrer]
      split
      · rename_i hcero
        subst hcero
        exact ⟨fun _ => ⟨Or.inl rfl, recorridoEnEspacio_zero _ _⟩, fun _ => ⟨s, rfl⟩⟩
      rename_i hresta
      by_cases hmas : restante > P
      · have hdiv : (restante - 1) / P = (restante - P - 1) / P + 1 := by
          rw [← Nat.add_div_right _ hP]
          congr 1
          omega
        obtain ⟨i, hi⟩ := Int.eq_ofNat_of_zero_le (show 0 ≤ pagina + 1 by omega)
        simp only [if_pos hmas]
        rw [recorridoEnEspacio_succ hP hmas hi]
        split
        · rename_i hfuera
          exact iff_of_false (by simp) fun h => absurd h.2.1 (by omega)
        rename_i hcabe
        rw [hi, Coleccion.obtener_natCast]
        split
        · rename_i hnada
          refine iff_of_false (by simp) fun h => ?_
          obtain ⟨j, hj, hjcast⟩ := h.1.resolve_left hresta
          rw [List.getElem?_eq_none_iff] at hnada
          rw [hdiv] at hjcast
          generalize (restante - P - 1) / P = vueltas at hjcast
          omega
        · rename_i marco hmarco
          have hmarco' : ps.getD i 0 = marco := by
            rw [List.getD_eq_getElem?_getD, hmarco, Option.getD_some]
          rw [← hi, hmarco']
          refine (ih (pagina + 1) _ (restante - P) _ _ (by omega) (by omega)).trans ?_
          have hresta' : restante - P ≠ 0 := by omega
          rw [and_iff_right (show direccion + P ≤ M by omega)]
          refine and_congr_left' ?_
          simp only [RecorridoEnTabla, hresta, hresta', false_or, hdiv]
          refine exists_congr fun i => and_congr_right fun _ => ?_
          push_cast
          omega
      · have hdiv : (restante - 1) / P = 0 := Nat.div_eq_of_lt (by omega)
        simp only [if_neg hmas, Nat.sub_self]
        rw [recorridoEnEspacio_of_le (by omega) (by omega)]
        split
        · rename_i hfuera
          exact iff_of_false (by simp) fun h => absurd h.2 (by omega)
        rename_i hcabe
        split
        · rename_i hnada
          refine iff_of_false (by simp) fun h => ?_
          obtain ⟨i, hi, hicast⟩ := h.1.resolve_left hresta
          rw [hdiv, Nat.cast_zero, add_zero] at hicast
          rw [← hicast, Coleccion.obtener_natCast, List.getElem?_eq_none_iff] at hnada
          omega
        · rename_i marco hmarco
          obtain ⟨j, hj, hjps⟩ := Coleccion.obtener_eq_some_iff.1 hmarco
          have hlt := (List.getElem?_eq_some_iff.1 hjps).1
          refine ⟨fun _ => ⟨Or.inr ⟨j, hlt, by rw [hj, hdiv]; simp⟩, by omega⟩,
            fun _ => ⟨cuerpo offset direccion restante s, ?_⟩⟩
          exact recorrer_restante_zero _ _ _ _ _ _

/-- The invariant rule of the loop: what holds before the first turn and is preserved by turn `k`,
which copies `min P (n - k * P)` bytes from the page `p + k` on, holds at the end; and the loop
ends. -/
theorem recorrer_regla {I : ℕ → σ → Prop} (hP : 0 < P) (ho : o < P)
    (hps : ∀ k, k * P < n → p + k < ps.length)
    (hcabe : ∀ k, k * P < n → ps.getD (p + k) 0 * P + o + min P (n - k * P) ≤ M)
    (hpaso : ∀ k s, k * P < n → I (k * P) s →
      I (k * P + min P (n - k * P))
        (cuerpo (k * P) (ps.getD (p + k) 0 * P + o) (min P (n - k * P)) s))
    (turnos : ℕ) : ∀ (k : ℕ) (s : σ), k * P < n → n - k * P ≤ turnos → I (k * P) s →
      ∃ s', recorrer M P ps cuerpo turnos ((p + k : ℕ) : ℤ) (ps.getD (p + k) 0 * P + o)
        (n - k * P) (k * P) s = .ok s' ∧ I n s' := by
  induction turnos with
  | zero =>
      intro k s hk hturnos _
      omega
  | succ turnos ih =>
      intro k s hk hturnos hI
      have hI' := hpaso k s hk hI
      have hcabe' := hcabe k hk
      have hsiguiente : (k + 1) * P = k * P + P := by rw [Nat.add_mul, Nat.one_mul]
      have hne : n - k * P ≠ 0 := by omega
      by_cases hmas : n - k * P > P
      · have hobt : Coleccion.obtener ps ((p + k : ℕ) + 1 : ℤ) =
            some (ps.getD (p + (k + 1)) 0) := by
          rw [show ((p + k : ℕ) + 1 : ℤ) = ((p + (k + 1) : ℕ) : ℤ) by push_cast; ring,
            Coleccion.obtener_natCast, getElem?_eq_getD (hps (k + 1) (by omega))]
        have hmin : min P (n - k * P) = P := by omega
        rw [hmin, ← hsiguiente] at hI'
        rw [hmin] at hcabe'
        obtain ⟨s', hok, hfin⟩ := ih (k + 1) _ (by omega) (by omega) hI'
        refine ⟨s', ?_, hfin⟩
        rw [recorrer, if_neg hne]
        simp only [if_pos hmas, if_neg (not_lt.2 hcabe'), hobt, turno_mod _ ho]
        rw [show n - k * P - P = n - (k + 1) * P by omega,
          show ((p + k : ℕ) + 1 : ℤ) = ((p + (k + 1) : ℕ) : ℤ) by push_cast; ring, ← hsiguiente]
        exact hok
      · have hobt : Coleccion.obtener ps ((p + k : ℕ) : ℤ) = some (ps.getD (p + k) 0) := by
          rw [Coleccion.obtener_natCast, getElem?_eq_getD (hps k hk)]
        have hmin : min P (n - k * P) = n - k * P := by omega
        rw [hmin] at hI' hcabe'
        refine ⟨_, ?_, (show k * P + (n - k * P) = n by omega) ▸ hI'⟩
        rw [recorrer, if_neg hne]
        simp only [if_neg hmas, if_neg (not_lt.2 hcabe'), hobt, Nat.sub_self]
        exact recorrer_restante_zero _ _ _ _ _ _

/-- What a read returns has the size asked for. -/
theorem recorrer_length (leer : ℕ → ℕ → List UInt8) (hleer : ∀ dir n, (leer dir n).length = n)
    (hP : 0 < P) (turnos : ℕ) :
    ∀ (pagina : ℤ) (direccion restante offset : ℕ) (buffer leidos : List UInt8),
      restante ≤ turnos →
      recorrer M P ps (fun _ dir n buffer => buffer ++ leer dir n) turnos pagina direccion restante
        offset buffer = .ok leidos → leidos.length = buffer.length + restante := by
  induction turnos with
  | zero =>
      intro pagina direccion restante offset buffer leidos hturnos h
      obtain rfl : buffer = leidos := Except.ok.inj h
      omega
  | succ turnos ih =>
      intro pagina direccion restante offset buffer leidos hturnos h
      rw [recorrer] at h
      split at h
      · rename_i hcero
        obtain rfl : buffer = leidos := Except.ok.inj h
        omega
      by_cases hmas : restante > P
      · simp only [if_pos hmas] at h
        split at h
        · cases h
        split at h
        · cases h
        · rw [ih _ _ _ _ _ _ (by omega) h, List.length_append, hleer]
          omega
      · simp only [if_neg hmas] at h
        split at h
        · cases h
        split at h
        · cases h
        · rw [ih _ _ _ _ _ _ (by omega) h, List.length_append, hleer]
          omega

end Bucle

/-! ### The accesses that end -/

/-- An access of `n` bytes at a physical address ends. -/
def Accesible (m : Estado) (pid : Pid) (direccion n : ℕ) : Prop :=
  ∃ ps, m.tablaDePaginas pid = some ps ∧
    RecorridoEnTabla m.tamPagina ps
      (obtenerPaginaDeMarco ps (obtenerMarcoDeDireccion m direccion)) n ∧
    RecorridoEnEspacio m.tamMemoria m.tamPagina ps
      (obtenerPaginaDeMarco ps (obtenerMarcoDeDireccion m direccion)) direccion n

section Accesos

variable {m : Estado} {pid : Pid} {direccion n : ℕ}

theorem le_obtenerPaginaDeMarco (ps : List ℕ) (marco : ℕ) : -1 ≤ obtenerPaginaDeMarco ps marco := by
  unfold obtenerPaginaDeMarco Coleccion.indice
  split <;> omega

theorem obtenerDatosDeMemoria_ok_iff (hP : 0 < m.tamPagina) :
    (∃ leidos, obtenerDatosDeMemoria m direccion n pid = .ok leidos) ↔
      Accesible m pid direccion n := by
  unfold obtenerDatosDeMemoria Accesible
  cases h : m.tablaDePaginas pid with
  | none => simp
  | some ps =>
      simp only [Option.some.injEq, exists_eq_left']
      exact recorrer_ok_iff _ hP n _ _ n 0 [] (le_obtenerPaginaDeMarco ps _) le_rfl

theorem length_of_obtenerDatosDeMemoria (hP : 0 < m.tamPagina) {leidos : List UInt8}
    (h : obtenerDatosDeMemoria m direccion n pid = .ok leidos) : leidos.length = n := by
  unfold obtenerDatosDeMemoria at h
  split at h
  · cases h
  · simpa using recorrer_length (obtenerDatosContiguosDeMemoria m)
      (fun dir k => by simp [obtenerDatosContiguosDeMemoria]) hP n _ _ n 0 [] leidos le_rfl h

theorem agregarDatosAMemoria_ok_iff (hP : 0 < m.tamPagina) (datos : List UInt8) :
    (∃ m', agregarDatosAMemoria m datos direccion pid = .ok m') ↔
      Accesible m pid direccion datos.length := by
  unfold agregarDatosAMemoria Accesible
  cases h : m.tablaDePaginas pid with
  | none => simp
  | some ps =>
      simp only [Option.some.injEq, exists_eq_left']
      exact recorrer_ok_iff _ hP datos.length _ _ _ 0 m (le_obtenerPaginaDeMarco ps _) le_rfl

theorem copyString_ok_iff (hP : 0 < m.tamPagina) {di si : ℕ} :
    (∃ m', copyString m di si n pid = .ok m') ↔
      Accesible m pid si n ∧ Accesible m pid di n := by
  unfold copyString
  rw [← obtenerDatosDeMemoria_ok_iff hP]
  cases h : obtenerDatosDeMemoria m si n pid with
  | error fallo =>
      refine ⟨fun ⟨_, h⟩ => (by cases h), fun ⟨⟨_, h⟩, _⟩ => (by cases h)⟩
  | ok leidos =>
      have hlen := length_of_obtenerDatosDeMemoria hP h
      refine (agregarDatosAMemoria_ok_iff hP leidos).trans ?_
      rw [hlen]
      exact ⟨fun hdi => ⟨⟨_, rfl⟩, hdi⟩, fun hdi => hdi.2⟩

end Accesos

/-! ### What the two functions access -/

/-- A frame of the table is found on its page. -/
theorem obtenerPaginaDeMarco_getD {ps : List ℕ} (hps : ps.Nodup) {p : ℕ} (hp : p < ps.length) :
    obtenerPaginaDeMarco ps (ps.getD p 0) = p := by
  have hbusca : ps.findIdx? (fun pagina => decide (pagina = ps.getD p 0)) = some p := by
    refine List.findIdx?_eq_some_iff_getElem.2 ⟨hp, by simp [hp], ?_⟩
    intro j hj
    have hne : ps[j] ≠ ps[p] := fun h => by
      have := (List.Nodup.getElem_inj_iff hps).1 h
      omega
    simpa [hp] using hne
  rw [obtenerPaginaDeMarco, Coleccion.indice, hbusca]

/-- The physical address the CPU sends for the logical address `L`. -/
def direccionDeAcceso (m : Estado) (ps : List ℕ) (L : ℕ) : ℕ :=
  traducirDireccion m (ps.getD (L / m.tamPagina) 0) (L % m.tamPagina)

section Acceso

variable {m : Estado} {pid : Pid} {ps : List ℕ} {L n : ℕ}

theorem direccionDeAcceso_eq :
    direccionDeAcceso m ps L =
      ps.getD (L / m.tamPagina) 0 * m.tamPagina + L % m.tamPagina := by
  rw [direccionDeAcceso, traducirDireccion, Nat.mul_comm]

/-- The page the search finds for the address of `L`. -/
theorem pagina_direccionDeAcceso (hP : 0 < m.tamPagina) (hnodup : ps.Nodup)
    (hL : L / m.tamPagina < ps.length) :
    obtenerPaginaDeMarco ps (obtenerMarcoDeDireccion m (direccionDeAcceso m ps L)) =
      ((L / m.tamPagina : ℕ) : ℤ) := by
  rw [direccionDeAcceso_eq, obtenerMarcoDeDireccion, turno_div _ (Nat.mod_lt L hP),
    obtenerPaginaDeMarco_getD hnodup hL]

/-- An access inside the pages of the process starts every turn on one of its pages. -/
theorem pagina_de_turno (hlen : L + n ≤ ps.length * m.tamPagina) (k : ℕ)
    (hk : k * m.tamPagina < n) : L / m.tamPagina + k < ps.length := by
  have hL := Nat.div_add_mod' L m.tamPagina
  have hlt : (L / m.tamPagina + k) * m.tamPagina < ps.length * m.tamPagina := by
    rw [Nat.add_mul]
    omega
  exact Nat.lt_of_mul_lt_mul_right hlt

/-- The turns of an access from `L` start at the addresses of the loop. -/
theorem recorridoEnEspacio_iff {P M : ℕ} (hP : 0 < P) :
    RecorridoEnEspacio M P ps (L / P : ℕ) (ps.getD (L / P) 0 * P + L % P) n ↔
      ∀ i < n, dirRecorrida P ps L i < M := by
  rw [← piezas_le_iff hP]
  refine forall_congr' fun k => ?_
  have hturno : dirDeTurno P ps (L / P : ℕ) (ps.getD (L / P) 0 * P + L % P) k =
      dirRecorrida P ps L (k * P) := by
    rw [dirRecorrida_inicio k hP, dirDeTurno, ← Nat.cast_add, Int.toNat_natCast,
      turno_mod _ (Nat.mod_lt L hP)]
    split
    · rename_i hk
      rw [hk, Nat.add_zero]
    · rfl
  rw [hturno]

/-- The loop from the address of `L`: whatever its turns preserve from the initial value holds at
its end. -/
theorem recorrer_desde (cuerpo : ℕ → ℕ → ℕ → σ → σ) {I : ℕ → σ → Prop} {s : σ}
    (hP : 0 < m.tamPagina) (hnodup : ps.Nodup) (hL : L / m.tamPagina < ps.length)
    (hpaginas : ∀ k, k * m.tamPagina < n → L / m.tamPagina + k < ps.length)
    (hdentro : ∀ i < n, dirRecorrida m.tamPagina ps L i < m.tamMemoria) (hI : I 0 s)
    (hpaso : ∀ k s, k * m.tamPagina < n → I (k * m.tamPagina) s →
      I (k * m.tamPagina + min m.tamPagina (n - k * m.tamPagina))
        (cuerpo (k * m.tamPagina) (dirRecorrida m.tamPagina ps L (k * m.tamPagina))
          (min m.tamPagina (n - k * m.tamPagina)) s)) :
    ∃ s', recorrer m.tamMemoria m.tamPagina ps cuerpo n
      (obtenerPaginaDeMarco ps (obtenerMarcoDeDireccion m (direccionDeAcceso m ps L)))
      (direccionDeAcceso m ps L) n 0 s = .ok s' ∧ I n s' := by
  rw [pagina_direccionDeAcceso hP hnodup hL, direccionDeAcceso_eq]
  rcases Nat.eq_zero_or_pos n with rfl | hn
  · exact ⟨s, recorrer_restante_zero _ _ _ _ _ _, hI⟩
  have hregla := recorrer_regla cuerpo (I := I) hP (Nat.mod_lt L hP)
    hpaginas (fun k hk => dirRecorrida_inicio k hP ▸ (piezas_le_iff hP _).2 hdentro k hk) ?_
    n 0 s (by simpa using hn) (by simp) (by simpa using hI)
  · simpa using hregla
  · intro k s' hk hs'
    exact dirRecorrida_inicio k hP ▸ hpaso k s' hk hs'

/-- An access that ends stays below the end of the user space. -/
theorem dentro_of_accesible (hP : 0 < m.tamPagina) (h : m.tablaDePaginas pid = some ps)
    (hnodup : ps.Nodup) (hL : L / m.tamPagina < ps.length)
    (hacceso : Accesible m pid (direccionDeAcceso m ps L) n) :
    ∀ i < n, dirRecorrida m.tamPagina ps L i < m.tamMemoria := by
  obtain ⟨qs, hqs, -, hespacio⟩ := hacceso
  obtain rfl : ps = qs := Option.some.inj (h.symm.trans hqs)
  rw [pagina_direccionDeAcceso hP hnodup hL, direccionDeAcceso_eq] at hespacio
  exact (recorridoEnEspacio_iff hP).1 hespacio

/-- A read returns the bytes at the addresses of the loop. -/
theorem obtenerDatosDeMemoria_spec (hP : 0 < m.tamPagina) (h : m.tablaDePaginas pid = some ps)
    (hnodup : ps.Nodup) (hL : L / m.tamPagina < ps.length)
    (hpaginas : ∀ k, k * m.tamPagina < n → L / m.tamPagina + k < ps.length)
    (hdentro : ∀ i < n, dirRecorrida m.tamPagina ps L i < m.tamMemoria) :
    obtenerDatosDeMemoria m (direccionDeAcceso m ps L) n pid =
      .ok ((List.range n).map fun i => m.espacio (dirRecorrida m.tamPagina ps L i)) := by
  obtain ⟨buffer, hok, rfl⟩ := recorrer_desde
    (fun _ dir aCopiar buffer => buffer ++ obtenerDatosContiguosDeMemoria m dir aCopiar)
    (I := fun j buffer =>
      buffer = (List.range j).map fun i => m.espacio (dirRecorrida m.tamPagina ps L i))
    (s := []) hP hnodup hL hpaginas hdentro (by simp) (by
      intro k buffer hk hbuffer
      rw [hbuffer, List.range_add, List.map_append, obtenerDatosContiguosDeMemoria, List.map_map]
      congr 1
      refine List.map_congr_left fun u hu => ?_
      have hlt : u < m.tamPagina := by
        have := List.mem_range.1 hu
        omega
      simp only [Function.comp_apply, dirRecorrida_add k hlt])
  unfold obtenerDatosDeMemoria
  rw [h]
  exact hok

theorem escribir_of_lt {espacio : ℕ → UInt8} {direccion : ℕ} {datos : List UInt8} {u : ℕ}
    (hu : u < datos.length) : escribir espacio direccion datos (direccion + u) = datos[u] := by
  simp [escribir, hu]

theorem escribir_of_ne {espacio : ℕ → UInt8} {direccion : ℕ} {datos : List UInt8} {a : ℕ}
    (h : ∀ u < datos.length, a ≠ direccion + u) :
    escribir espacio direccion datos a = espacio a := by
  unfold escribir
  split
  · rfl
  · have hle : datos.length ≤ a - direccion := by
      by_contra hlt
      exact h (a - direccion) (by omega) (by omega)
    rw [List.getElem?_eq_none hle]
    rfl

/-- A write stores byte `i` at the address of the loop, and touches nothing else. -/
theorem agregarDatosAMemoria_spec (datos : List UInt8) (hP : 0 < m.tamPagina)
    (h : m.tablaDePaginas pid = some ps) (hnodup : ps.Nodup) (hL : L / m.tamPagina < ps.length)
    (hpaginas : ∀ k, k * m.tamPagina < datos.length → L / m.tamPagina + k < ps.length)
    (hdentro : ∀ i < datos.length, dirRecorrida m.tamPagina ps L i < m.tamMemoria) :
    ∃ espacio,
      agregarDatosAMemoria m datos (direccionDeAcceso m ps L) pid =
        .ok { m with espacio := espacio } ∧
      (∀ i (hi : i < datos.length), espacio (dirRecorrida m.tamPagina ps L i) = datos[i]) ∧
      ∀ a, (∀ i < datos.length, a ≠ dirRecorrida m.tamPagina ps L i) →
        espacio a = m.espacio a := by
  obtain ⟨m', hok, hm', hescritos, hajenos⟩ := recorrer_desde
    (fun offset dir aPegar m' =>
      agregarDatosContiguosAMemoria m' ((datos.drop offset).take aPegar) dir)
    (I := fun j m' => m' = { m with espacio := m'.espacio } ∧
      (∀ i (_ : i < j) (hi : i < datos.length),
        m'.espacio (dirRecorrida m.tamPagina ps L i) = datos[i]) ∧
      ∀ a, (∀ i < j, a ≠ dirRecorrida m.tamPagina ps L i) → m'.espacio a = m.espacio a)
    (s := m) hP hnodup hL hpaginas hdentro ⟨rfl, by simp, fun _ _ => rfl⟩ (by
      intro k m₁ hk ⟨hm₁, hescritos, hajenos⟩
      have htrozo : ((datos.drop (k * m.tamPagina)).take
          (min m.tamPagina (datos.length - k * m.tamPagina))).length =
            min m.tamPagina (datos.length - k * m.tamPagina) := by
        simp
      refine ⟨by rw [hm₁]; rfl, ?_, ?_⟩
      · intro i hi hlt
        by_cases hviejo : i < k * m.tamPagina
        · refine (escribir_of_ne fun u hu heq => ?_).trans (hescritos i hviejo hlt)
          rw [htrozo] at hu
          rw [← dirRecorrida_add k (by omega)] at heq
          have := dirRecorrida_inj hP hnodup hpaginas hlt (by omega) heq
          omega
        · obtain ⟨u, rfl⟩ := Nat.exists_eq_add_of_le (Nat.le_of_not_lt hviejo)
          rw [dirRecorrida_add k (by omega)]
          refine (escribir_of_lt (by omega)).trans ?_
          simp
      · intro a ha
        refine (escribir_of_ne fun u hu => ?_).trans (hajenos a fun i hi => ha i (by omega))
        rw [htrozo] at hu
        rw [← dirRecorrida_add k (by omega)]
        exact ha _ (by omega))
  refine ⟨m'.espacio, ?_, fun i hi => hescritos i hi hi, hajenos⟩
  unfold agregarDatosAMemoria
  rw [h, ← hm']
  exact hok

/-- The access `[L, L + n)` of the process `pid`, whose page table is `ps`, lies inside its
pages. -/
structure AccesoValido (m : Estado) (pid : Pid) (ps : List ℕ) (L n : ℕ) : Prop where
  tabla : m.tablaDePaginas pid = some ps
  inicio : L / m.tamPagina < ps.length
  fin : L + n ≤ ps.length * m.tamPagina

/-- Whatever the user space holds, a read of `[L, L + n)` returns the bytes of the process there. -/
def LeeExacto (m : Estado) (pid : Pid) (ps : List ℕ) (L n : ℕ) : Prop :=
  ∀ espacio : ℕ → UInt8,
    obtenerDatosDeMemoria { m with espacio } (direccionDeAcceso m ps L) n pid =
      .ok ((List.range n).map fun i => espacio (dirLogica m.tamPagina ps (L + i)))

/-- Whatever the user space and the data hold, a write of `[L, L + n)` stores the data in the bytes
of the process there and changes nothing else. -/
def EscribeExacto (m : Estado) (pid : Pid) (ps : List ℕ) (L n : ℕ) : Prop :=
  ∀ (espacio : ℕ → UInt8) (datos : List UInt8), datos.length = n →
    ∃ espacio',
      agregarDatosAMemoria { m with espacio } datos (direccionDeAcceso m ps L) pid =
        .ok { m with espacio := espacio' } ∧
      (∀ i (hi : i < datos.length),
        espacio' (dirLogica m.tamPagina ps (L + i)) = datos[i]) ∧
      ∀ a, (∀ i < n, a ≠ dirLogica m.tamPagina ps (L + i)) → espacio' a = espacio a

/-- The access starts at a page boundary, or every page it reaches after the first one is in the
frame that follows the frame of the page before it. -/
def MarcosConsecutivos (tamPagina : ℕ) (ps : List ℕ) (L n : ℕ) : Prop :=
  L % tamPagina = 0 ∨
    ∀ j, L / tamPagina < j → j * tamPagina < L + n → ps.getD j 0 = ps.getD (j - 1) 0 + 1

/-- The place of a byte of the process is in the user space. -/
theorem dirLogica_lt (hm : Coherente m) (hP : 0 < m.tamPagina) (h : AccesoValido m pid ps L n)
    {i : ℕ} (hi : i < n) : dirLogica m.tamPagina ps (L + i) < m.tamMemoria := by
  have hpagina : (L + i) / m.tamPagina < ps.length := by
    have hfin := h.fin
    exact (Nat.div_lt_iff_lt_mul hP).2 (by omega)
  have hmarco : ps.getD ((L + i) / m.tamPagina) 0 < m.cantidadDePaginas := by
    refine hm.rango ⟨pid, ps, h.tabla, ?_⟩
    simp [hpagina]
  have hfin := Nat.mul_le_mul_right m.tamPagina (Nat.succ_le_of_lt hmarco)
  have hresto := Nat.mod_lt (L + i) hP
  have hentero := hm.entero
  rw [Nat.succ_mul] at hfin
  rw [dirLogica]
  omega

theorem leeExacto_iff (hm : Coherente m) (hP : 0 < m.tamPagina)
    (h : AccesoValido m pid ps L n) :
    LeeExacto m pid ps L n ↔
      ∀ i < n, dirRecorrida m.tamPagina ps L i = dirLogica m.tamPagina ps (L + i) := by
  have hnodup := hm.propios h.tabla
  have hlee := fun (hdentro : ∀ i < n, dirRecorrida m.tamPagina ps L i < m.tamMemoria)
      (espacio : ℕ → UInt8) =>
    obtenerDatosDeMemoria_spec (m := { m with espacio }) hP h.tabla hnodup h.inicio
      (pagina_de_turno h.fin) hdentro
  constructor
  · intro hexacto i hi
    have hdentro := dentro_of_accesible hP h.tabla hnodup h.inicio
      ((obtenerDatosDeMemoria_ok_iff hP).1 ⟨_, hexacto m.espacio⟩)
    -- a user space that tells one address from all the others
    let espacio : ℕ → UInt8 := fun a =>
      if a = dirLogica m.tamPagina ps (L + i) then 1 else 0
    have hlista := Except.ok.inj ((hlee hdentro espacio).symm.trans (hexacto espacio))
    have hbyte := List.map_inj_left.1 hlista i (List.mem_range.2 hi)
    by_contra hne
    simp [espacio, hne] at hbyte
  · intro hdir espacio
    have hdentro : ∀ i < n, dirRecorrida m.tamPagina ps L i < m.tamMemoria :=
      fun i hi => hdir i hi ▸ dirLogica_lt hm hP h hi
    refine (hlee hdentro espacio).trans (congrArg Except.ok ?_)
    exact List.map_congr_left fun i hi => congrArg espacio (hdir i (List.mem_range.1 hi))

theorem escribeExacto_iff (hm : Coherente m) (hP : 0 < m.tamPagina)
    (h : AccesoValido m pid ps L n) :
    EscribeExacto m pid ps L n ↔
      ∀ i < n, dirRecorrida m.tamPagina ps L i = dirLogica m.tamPagina ps (L + i) := by
  have hnodup := hm.propios h.tabla
  constructor
  · intro hexacto i hi
    -- one byte that differs from all the others is found where the loop put it
    let datos : List UInt8 := (List.replicate n 0).set i 1
    have hlen : datos.length = n := by simp [datos]
    obtain ⟨espacio₁, hok₁, hlogica, -⟩ := hexacto (fun _ => 0) datos hlen
    have hacceso := (agregarDatosAMemoria_ok_iff (m := { m with espacio := fun _ => 0 }) hP datos).1
      ⟨_, hok₁⟩
    have hdentro := dentro_of_accesible hP h.tabla hnodup h.inicio hacceso
    obtain ⟨espacio₂, hok₂, hescritos, hajenos⟩ :=
      agregarDatosAMemoria_spec (m := { m with espacio := fun _ => 0 }) datos hP
        h.tabla hnodup h.inicio (by rw [hlen]; exact pagina_de_turno h.fin) hdentro
    have hmismo : espacio₁ = espacio₂ :=
      congrArg Estado.espacio (Except.ok.inj (hok₁.symm.trans hok₂))
    have huno : espacio₂ (dirLogica m.tamPagina ps (L + i)) = 1 := by
      rw [← hmismo, hlogica i (by omega)]
      simp [datos]
    by_contra hne
    have hcero : espacio₂ (dirLogica m.tamPagina ps (L + i)) = 0 := by
      by_cases halgo : ∃ j < n, dirLogica m.tamPagina ps (L + i) = dirRecorrida m.tamPagina ps L j
      · obtain ⟨j, hj, heq⟩ := halgo
        have hij : i ≠ j := by
          rintro rfl
          exact hne heq.symm
        rw [heq, hescritos j (by omega)]
        simp [datos, hij]
      · refine hajenos _ fun j hj heq => halgo ⟨j, by omega, heq⟩
    rw [huno] at hcero
    exact absurd hcero (by decide)
  · intro hdir espacio datos hlen
    subst hlen
    obtain ⟨espacio', hok, hescritos, hajenos⟩ :=
      agregarDatosAMemoria_spec (m := { m with espacio }) datos hP h.tabla hnodup h.inicio
        (pagina_de_turno h.fin) fun i hi => hdir i hi ▸ dirLogica_lt hm hP h hi
    refine ⟨espacio', hok, fun i hi => ?_, fun a ha => ?_⟩
    · exact (congrArg espacio' (hdir i hi).symm).trans (hescritos i hi)
    · exact hajenos a fun i hi => (hdir i hi) ▸ ha i hi

end Acceso

/-- In every reachable state, a read and a write of `[L, L + n)` inside the pages of a process are
exact if and only if the access starts at a page boundary or its pages are in consecutive
frames. -/
theorem acceso_exacto_iff {tamPagina tamMemoria : ℕ} (hP : 0 < tamPagina) {m : Estado}
    (hm : Transicion.Alcanzable (sistema tamPagina tamMemoria) m) {pid : Pid} {ps : List ℕ}
    {L n : ℕ} (h : AccesoValido m pid ps L n) :
    LeeExacto m pid ps L n ∧ EscribeExacto m pid ps L n ↔
      MarcosConsecutivos tamPagina ps L n := by
  obtain ⟨hcoh, htam⟩ := coherente_alcanzable hm
  have hP' : 0 < m.tamPagina := htam ▸ hP
  rw [leeExacto_iff hcoh hP' h, escribeExacto_iff hcoh hP' h, and_self,
    dirRecorrida_eq_iff hP', htam]
  rfl

/-- Two processes that grow in turns: the frames of the first are 0 and 2, that of the second 1. -/
def marcosAlternados : Estado :=
  Transicion.estadoTras intentar (crearEstructurasMemoria 16 64 fun a => UInt8.ofNat a)
    [.crear none 1, .resize 1 16, .crear none 2, .resize 2 16, .resize 1 32] (by decide)

theorem marcosAlternados_alcanzable : Transicion.Alcanzable (sistema 16 64) marcosAlternados :=
  Transicion.alcanzableCon_estadoTras (fun _ _ _ h => ⟨trivial, paso_of_intentar h⟩) ⟨_, rfl⟩ _

/-- Ten bytes at the logical address 10 of the first process run into the frame of the second. -/
theorem acceso_no_exacto : ¬∀ (tamPagina tamMemoria : ℕ) (m : Estado) (pid : Pid) (ps : List ℕ)
    (L n : ℕ), 0 < tamPagina → Transicion.Alcanzable (sistema tamPagina tamMemoria) m →
      AccesoValido m pid ps L n → LeeExacto m pid ps L n ∧ EscribeExacto m pid ps L n := by
  intro h
  have hlee := (h 16 64 marcosAlternados 1 [0, 2] 10 10 (by decide) marcosAlternados_alcanzable
    ⟨by decide, by decide, by decide⟩).1 fun a => UInt8.ofNat a
  revert hlee
  decide

/-- The same access moved to the page boundary is exact. -/
theorem acceso_exacto_desde_borde :
    LeeExacto marcosAlternados 1 [0, 2] 16 10 ∧ EscribeExacto marcosAlternados 1 [0, 2] 16 10 :=
  (acceso_exacto_iff (by decide) marcosAlternados_alcanzable
    ⟨by decide, by decide, by decide⟩).2 (Or.inl (by decide))

end Memoria
