/-
**Running out of space: which bits and bytes an operation touches, and when it refuses.**

The bitmap has `8 * (block_count / 8)` bits and the disk `block_count * block_size` bytes, and no
operation tests an index before it uses it.  This module records which bits and bytes each operation
touches, in the order of its loops, and says exactly when they are there.  A file is created without
a free block at the bit `(uint32_t)-1`; a file that grows is never refused; a compaction clears the
bits up to `block_count`, also those that a number of blocks that is not a multiple of eight has
left out of the bitmap; and shrinking starts at the block after the last one of the file, which may
be the end of the bitmap.

Main definitions:

* `DialFs.bitsTocados`, `DialFs.bytesTocados` — what a request touches;
* `DialFs.SinLugar` — what a request asks for is not on the disk;
* `DialFs.Inocua` — it touches only what is there, and changes nothing without room;
* `DialFs.HayLugar` — the condition on a request;
* `DialFs.sistemaTotal` — the interface, with every request.

Main results:

* `DialFs.inocua_of_hayLugar`, `DialFs.hayLugar_of_inocua` — the condition is exact;
* `DialFs.sin_espacio` — in every run that meets the condition.
-/

import TpSisop.DialFsCompactacion
import TpSisop.DialFsFugas

set_option relaxedAutoImplicit false
set_option autoImplicit false

namespace DialFs

open Entero (aInt aUint32)
open Coleccion (Diccionario)

variable (c : Config)

/-! ### What is touched -/

/-- `bloque_libre` reads a bit as long as those before it are set. -/
def bitsBloqueLibre (bitmap : ℤ → Bool) : List ℤ :=
  ((List.range (bitsDelBitmap c)).filter fun i => (List.range i).all fun (j : ℕ) => bitmap j).map
    fun (i : ℕ) => (i : ℤ)

def bitsAsignarBloque (bitmap : ℤ → Bool) : List ℤ :=
  bitsBloqueLibre c bitmap ++ [aUint32 (bloqueLibre c bitmap)]

/-- `estan_contiguos` reads a bit as long as those before it are clear. -/
def bitsEstanContiguos (bitmap : ℤ → Bool) (bloqueInicial bloquesNecesarios : ℤ) : List ℤ :=
  ((List.range bloquesNecesarios.toNat).filter fun (i : ℕ) =>
    estanContiguos bitmap bloqueInicial i).map fun (i : ℕ) => bloqueInicial + i

/-- `desasignar_bloque` of `cantidad` blocks, the `i`-th of them at `bloque i`. -/
def bitsDesasignar (bloque : ℕ → ℤ) (cantidad : ℤ) : List ℤ :=
  (List.range cantidad.toNat).map fun i => aUint32 (bloque i)

/-- The bits that a truncation of `archivo` touches. -/
def bitsTruncar (s : Estado) (nombre : String) (archivo : Archivo) (tamanio : UInt32)
    (claves : List String) : List ℤ :=
  let necesarios := cantidadDeBloques c (aInt tamanio.toNat)
  let enUso := cantidadDeBloques c archivo.tamArchivo
  let haySuficientes := estanContiguos s.bitmap archivo.bloqueInicial necesarios
  bitsEstanContiguos s.bitmap archivo.bloqueInicial necesarios ++
    if necesarios > enUso then
      (if haySuficientes then [] else bitsCompactar c s nombre archivo claves) ++
        match (if haySuficientes then s else compactar c s nombre claves).archivos.valor nombre with
        | none => []
        | some archivo' => bitsDesde (archivo'.bloqueInicial + enUso) (necesarios - enUso)
    else if necesarios < enUso then
      bitsDesasignar (fun i => archivo.bloqueInicial + enUso - i) (enUso - necesarios)
    else []

/-- The bytes that a truncation of `archivo` touches. -/
def tramosTruncar (s : Estado) (nombre : String) (archivo : Archivo) (tamanio : UInt32)
    (claves : List String) : List Tramo :=
  let necesarios := cantidadDeBloques c (aInt tamanio.toNat)
  if necesarios > cantidadDeBloques c archivo.tamArchivo ∧
      estanContiguos s.bitmap archivo.bloqueInicial necesarios = false then
    tramosCompactar c s nombre archivo claves
  else []

/-- The bits of the bitmap that a request reads or writes. -/
def bitsTocados (s : Estado) : Evento → List ℤ
  | .crear _ => bitsAsignarBloque c s.bitmap
  | .eliminar nombre =>
      match s.archivos.valor nombre with
      | none => []
      | some archivo => bitsDesasignar (fun i => archivo.bloqueInicial + i)
          (cantidadDeBloques c archivo.tamArchivo)
  | .truncar nombre tamanio claves =>
      match s.archivos.valor nombre with
      | none => []
      | some archivo => bitsTruncar c s nombre archivo tamanio claves
  | _ => []

/-- The bytes of the blocks that a creation, a deletion or a truncation reads or writes. -/
def bytesTocados (s : Estado) : Evento → List Tramo
  | .truncar nombre tamanio claves =>
      match s.archivos.valor nombre with
      | none => []
      | some archivo => tramosTruncar c s nombre archivo tamanio claves
  | _ => []

/-! ### Harmless requests -/

/-- There is no free block for a new file, or the blocks owned once a file has grown would be more
than the disk has. -/
def SinLugar (s : Estado) : Evento → Prop
  | .crear _ => bloqueLibre c s.bitmap = -1
  | .truncar nombre tamanio claves => cabe c s nombre tamanio claves = false
  | _ => False

/-- The request touches only bits of the bitmap and bytes of the disk, and without room it leaves
the directory, the bitmap and the files as they are. -/
structure Inocua (s : Estado) (e : Evento) : Prop where
  bits : ∀ x ∈ bitsTocados c s e, 0 ≤ x ∧ x < bitsDelBitmap c
  bytes : ∀ t ∈ bytesTocados c s e, t.dentro c
  sinLugar : SinLugar c s e → atender c s e = some s

/-- When a truncation of `archivo` is harmless: the number of blocks stays; or the size is an `int`
and, for fewer blocks, the block after the last one is in the bitmap; for more, the blocks owned
afterwards fit in the disk, and the bitmap has the blocks where the file is, if they are free, or
has one bit for each block, if they are not. -/
def truncaConLugar (s : Estado) (nombre : String) (archivo : Archivo) (tamanio : UInt32)
    (claves : List String) : Prop :=
  let necesarios := cantidadDeBloques c (aInt tamanio.toNat)
  let enUso := cantidadDeBloques c archivo.tamArchivo
  let hasta := (bitsDelBitmap c : ℤ) - archivo.bloqueInicial
  necesarios = enUso ∨
    tamanio.toNat < 2 ^ 31 ∧ cabe c s nombre tamanio claves = true ∧
      (necesarios < enUso → enUso < hasta) ∧
      (enUso < necesarios →
        (estanContiguos s.bitmap archivo.bloqueInicial (min necesarios hasta) = true →
          necesarios ≤ hasta) ∧
        (estanContiguos s.bitmap archivo.bloqueInicial (min necesarios hasta) = false →
          8 ∣ c.blockCount))

/-- The condition on a request: a file is created while there is a free block, and the truncations
are harmless. -/
def HayLugar (s : Estado) : Evento → Prop
  | .crear _ => bloqueLibre c s.bitmap ≠ -1
  | .truncar nombre tamanio claves =>
      ∀ archivo ∈ s.archivos.valor nombre, truncaConLugar c s nombre archivo tamanio claves
  | _ => True

instance (s : Estado) (nombre : String) (archivo : Archivo) (tamanio : UInt32)
    (claves : List String) : Decidable (truncaConLugar c s nombre archivo tamanio claves) :=
  inferInstanceAs (Decidable (_ ∨ _ ∧ _ ∧ (_ → _) ∧ (_ → (_ → _) ∧ (_ → _))))

instance (s : Estado) : DecidablePred (HayLugar c s)
  | .crear _ => inferInstanceAs (Decidable (_ ≠ _))
  | .truncar nombre _ _ => inferInstanceAs (Decidable (∀ a ∈ s.archivos.valor nombre, _))
  | .eliminar _ | .escribir _ _ _ | .leer _ _ _ => .isTrue trivial

/-- A compaction gets the names of the directory, in any order. -/
def Evento.conNombres (s : Estado) : Evento → Prop
  | .truncar _ _ claves => claves.Perm s.archivos.claves
  | _ => True

instance (s : Estado) : DecidablePred (Evento.conNombres s)
  | .truncar _ _ _ => inferInstanceAs (Decidable (List.Perm _ _))
  | .crear _ | .eliminar _ | .escribir _ _ _ | .leer _ _ _ => .isTrue trivial

/-- The interface, started on an empty disk, with every request. -/
def sistemaTotal : Transicion.Sistema Estado Evento where
  inicial s := s = estadoInicial
  paso s e s' := e.conNombres s ∧ atender c s e = some s'

variable {c}

/-! ### The files are in the bitmap -/

/-- Sizes are not negative, and the blocks of a file have bits in the bitmap. -/
structure EnBitmap (c : Config) (s : Estado) : Prop where
  tamanios : ∀ {n a}, s.archivos.valor n = some a → 0 ≤ a.tamArchivo
  rango : ∀ {n a}, s.archivos.valor n = some a →
    0 ≤ a.bloqueInicial ∧ a.bloqueInicial + a.propios c ≤ bitsDelBitmap c

theorem enBitmap_inicial : EnBitmap c estadoInicial :=
  ⟨fun h => by simp [estadoInicial] at h, fun h => by simp [estadoInicial] at h⟩

/-- What changes one entry, or none, keeps the files in the bitmap if the new entry is. -/
theorem enBitmap_update {s s' : Estado} (nombre : String) (t : Option Archivo) (hs : EnBitmap c s)
    (harch : s'.archivos.valor = Function.update s.archivos.valor nombre t)
    (ht : ∀ a ∈ t, 0 ≤ a.tamArchivo ∧
      0 ≤ a.bloqueInicial ∧ a.bloqueInicial + a.propios c ≤ bitsDelBitmap c) : EnBitmap c s' := by
  have hentrada : ∀ {n a}, s'.archivos.valor n = some a → a ∈ t ∨ s.archivos.valor n = some a := by
    intro n a h
    rw [harch] at h
    exact (Coleccion.update_eq_some h).imp And.right And.right
  refine ⟨fun h => ?_, fun h => ?_⟩
  · exact (hentrada h).elim (fun ha => (ht _ ha).1) hs.tamanios
  · exact (hentrada h).elim (fun ha => (ht _ ha).2) hs.rango


/-! ### The bits and bytes of each loop -/

section

variable {bitmap : ℤ → Bool} {ini n x : ℤ}

theorem estanContiguos_iff :
    estanContiguos bitmap ini n = true ↔ ∀ y, ini ≤ y → y < ini + n → bitmap y = false := by
  simp only [estanContiguos, List.all_eq_true, List.mem_range, Bool.not_eq_true']
  refine ⟨fun h y h₁ h₂ => ?_, fun h i hi => h _ (by omega) (by omega)⟩
  have := h (y - ini).toNat (by omega)
  rwa [show ini + ((y - ini).toNat : ℤ) = y by omega] at this

theorem mem_bitsDesasignar {f : ℕ → ℤ} :
    x ∈ bitsDesasignar f n ↔ ∃ i : ℕ, (i : ℤ) < n ∧ aUint32 (f i) = x := by
  simp only [bitsDesasignar, List.mem_map, List.mem_range]
  exact exists_congr fun i => and_congr_left fun _ => by omega

/-- A bit that is read is not beyond the first that is set. -/
theorem mem_bitsEstanContiguos : x ∈ bitsEstanContiguos bitmap ini n ↔
    ini ≤ x ∧ x < ini + n ∧ ∀ y, ini ≤ y → y < x → bitmap y = false := by
  simp only [bitsEstanContiguos, List.mem_map, List.mem_filter, List.mem_range, estanContiguos_iff]
  refine ⟨?_, fun ⟨h₁, h₂, h₃⟩ => ⟨(x - ini).toNat, ⟨by omega, fun y hy hy' => ?_⟩, by omega⟩⟩
  · rintro ⟨i, ⟨hi, hlibres⟩, rfl⟩
    exact ⟨by omega, by omega, hlibres⟩
  · exact h₃ y hy (by omega)

theorem mem_bitsBloqueLibre (h : x ∈ bitsBloqueLibre c bitmap) : 0 ≤ x ∧ x < bitsDelBitmap c := by
  simp only [bitsBloqueLibre, List.mem_map, List.mem_filter, List.mem_range] at h
  obtain ⟨i, ⟨hi, -⟩, rfl⟩ := h
  omega

/-- The free block is in the bitmap. -/
theorem bloqueLibre_lt (h : bloqueLibre c bitmap ≠ -1) :
    bloqueLibre c bitmap < bitsDelBitmap c := by
  unfold bloqueLibre at h ⊢
  split
  · rename_i i hi
    have hlt := (Bits.primerLibre_eq_some hi).1
    simp only [bitsDelBitmap]
    omega
  · rename_i hnone
    rw [hnone] at h
    exact absurd rfl h

end

/-! ### Requests that meet the condition -/

section

variable {s : Estado} {nombre : String} {a : Archivo} {tamanio : UInt32} {claves : List String}

/-- A truncation to as many blocks, as the `int` that the size becomes, changes nothing. -/
theorem truncarArchivo_mismos (ha : s.archivos.valor nombre = some a)
    (higual : cantidadDeBloques c (aInt tamanio.toNat) = cantidadDeBloques c a.tamArchivo) :
    truncarArchivo c s nombre tamanio claves = s := by
  unfold truncarArchivo
  rw [ha]
  simp only
  rw [if_neg (by omega), if_neg (by omega)]

/-- Where the bits of the bitmap decide that the blocks after the file are free, or are not. -/
theorem estanContiguos_of_hasta {n hasta : ℤ}
    (h : estanContiguos s.bitmap a.bloqueInicial (min n hasta) = false) :
    estanContiguos s.bitmap a.bloqueInicial n = false ∧
      ∀ x ∈ bitsEstanContiguos s.bitmap a.bloqueInicial n, x < a.bloqueInicial + hasta := by
  have hocupado : ∃ y, a.bloqueInicial ≤ y ∧ y < a.bloqueInicial + min n hasta ∧
      s.bitmap y = true := by
    by_contra hno
    push Not at hno
    rw [estanContiguos_iff.2 fun y h₁ h₂ => by simpa using hno y h₁ h₂] at h
    cases h
  obtain ⟨y, h₁, h₂, hy⟩ := hocupado
  refine ⟨?_, fun x hx => ?_⟩
  · rw [Bool.eq_false_iff]
    intro hcont
    have := estanContiguos_iff.1 hcont y h₁ (by omega)
    rw [hy] at this
    cases this
  · obtain ⟨-, -, hlibres⟩ := mem_bitsEstanContiguos.1 hx
    by_contra hno
    have := hlibres y h₁ (by omega)
    rw [hy] at this
    cases this

variable (hbs : 0 < c.blockSize) (hs : EnBitmap c s) (ha : s.archivos.valor nombre = some a)

theorem bitsTruncar_achicar
    (hmenos : cantidadDeBloques c (aInt tamanio.toNat) < cantidadDeBloques c a.tamArchivo) :
    bitsTruncar c s nombre a tamanio claves =
      bitsEstanContiguos s.bitmap a.bloqueInicial (cantidadDeBloques c (aInt tamanio.toNat)) ++
        bitsDesasignar (fun i => a.bloqueInicial + cantidadDeBloques c a.tamArchivo - i)
          (cantidadDeBloques c a.tamArchivo - cantidadDeBloques c (aInt tamanio.toNat)) := by
  simp only [bitsTruncar]
  rw [if_neg (by omega), if_pos hmenos]

include ha in
theorem bitsTruncar_enLugar
    (hmas : cantidadDeBloques c a.tamArchivo < cantidadDeBloques c (aInt tamanio.toNat))
    (hcont : estanContiguos s.bitmap a.bloqueInicial
      (cantidadDeBloques c (aInt tamanio.toNat)) = true) :
    bitsTruncar c s nombre a tamanio claves =
      bitsEstanContiguos s.bitmap a.bloqueInicial (cantidadDeBloques c (aInt tamanio.toNat)) ++
        bitsDesde (a.bloqueInicial + cantidadDeBloques c a.tamArchivo)
          (cantidadDeBloques c (aInt tamanio.toNat) - cantidadDeBloques c a.tamArchivo) := by
  simp only [bitsTruncar, hcont, if_true]
  rw [if_pos hmas, ha, List.nil_append]

include hs ha

include hbs in
theorem bitsTruncar_compacta (hclaves : claves.Perm s.archivos.claves)
    (hmas : cantidadDeBloques c a.tamArchivo < cantidadDeBloques c (aInt tamanio.toNat))
    (hcont : estanContiguos s.bitmap a.bloqueInicial
      (cantidadDeBloques c (aInt tamanio.toNat)) = false) :
    bitsTruncar c s nombre a tamanio claves =
      bitsEstanContiguos s.bitmap a.bloqueInicial (cantidadDeBloques c (aInt tamanio.toNat)) ++
        (bitsCompactar c s nombre a claves ++
          bitsDesde (bloquesDeOtros c s nombre claves + cantidadDeBloques c a.tamArchivo)
            (cantidadDeBloques c (aInt tamanio.toNat) - cantidadDeBloques c a.tamArchivo)) := by
  have hpropio := compactar_valor_self hbs hs.tamanios ha hclaves
  simp only [bitsTruncar, hcont, Bool.false_eq_true, if_false]
  rw [if_pos hmas, hpropio]

/-- The bits that the test for contiguous blocks reads begin in the bitmap. -/
theorem bitsEstanContiguos_le {n : ℤ} {x : ℤ}
    (hx : x ∈ bitsEstanContiguos s.bitmap a.bloqueInicial n) :
    0 ≤ x ∧ x < a.bloqueInicial + n := by
  obtain ⟨h₁, h₂, -⟩ := mem_bitsEstanContiguos.1 hx
  have := (hs.rango ha).1
  omega

theorem enBitmap_achicar {t : ℤ} (h₀ : 0 ≤ t)
    (hmenos : cantidadDeBloques c t ≤ cantidadDeBloques c a.tamArchivo) {s' : Estado}
    (hvalor : s'.archivos = s.archivos.poner nombre { a with tamArchivo := t }) :
    EnBitmap c s' := by
  obtain ⟨hini, hfin⟩ := hs.rango ha
  refine enBitmap_update nombre (some { a with tamArchivo := t }) hs (by rw [hvalor]; rfl) ?_
  rintro _ ⟨⟩
  refine ⟨h₀, hini, ?_⟩
  simp only [Archivo.propios] at hfin ⊢
  omega

include hbs

/-- A truncation that meets the condition keeps the files in the bitmap. -/
theorem enBitmap_truncarArchivo (hclaves : claves.Perm s.archivos.claves)
    (hC : truncaConLugar c s nombre a tamanio claves) :
    EnBitmap c (truncarArchivo c s nombre tamanio claves) := by
  rcases hC with higual | ⟨htam, hcabe, -, hmas⟩
  · rw [truncarArchivo_mismos ha higual]
    exact hs
  rw [Entero.aInt_of_lt htam] at hmas
  obtain ⟨hini, hfin⟩ := hs.rango ha
  have hle := bitsDelBitmap_le (c := c)
  have hcount := c.blockCount_lt
  have huso := cantidadDeBloques_le_propios (c := c) a
  have hpos := cantidadDeBloques_nonneg (c := c) (hs.tamanios ha)
  rcases lt_trichotomy (cantidadDeBloques c tamanio.toNat) (cantidadDeBloques c a.tamArchivo)
    with hmenos | higual | hcrece
  · rw [truncarArchivo_achicar ha htam hmenos hini (by omega)]
    exact enBitmap_achicar hs ha (Int.natCast_nonneg _) hmenos.le rfl
  · rw [truncarArchivo_igual ha htam higual]
    exact hs
  obtain ⟨hlibre, hocupado⟩ := hmas hcrece
  cases hcont : estanContiguos s.bitmap a.bloqueInicial
      (min (cantidadDeBloques c tamanio.toNat) (bitsDelBitmap c - a.bloqueInicial)) with
  | true =>
      have hentra := hlibre hcont
      rw [min_eq_left hentra] at hcont
      rw [truncarArchivo_enLugar ha htam hcrece hcont]
      refine enBitmap_update nombre (some { a with tamArchivo := tamanio.toNat }) hs rfl ?_
      rintro _ ⟨⟩
      refine ⟨Int.natCast_nonneg _, hini, ?_⟩
      simp only [Archivo.propios]
      omega
  | false =>
      have hB : 0 ≤ bloquesDeOtros c s nombre claves := bloquesDeOtros_nonneg
      have hentra := bloques_le_of_cabe ha hcabe hcrece
      have hbits := bitsDelBitmap_eq (hocupado hcont)
      rw [truncarArchivo_compacta hbs hs.tamanios ha hclaves htam hcrece
        (estanContiguos_of_hasta hcont).1]
      refine ⟨fun {m b'} h => ?_, fun {m b'} h => ?_⟩
      · rcases valor_compacta hbs hs.tamanios ha hclaves h with ⟨-, rfl⟩ | ⟨-, b, hb, rfl⟩
        · exact Int.natCast_nonneg _
        · exact hs.tamanios (a := b) hb
      · rcases valor_compacta hbs hs.tamanios ha hclaves h with ⟨-, rfl⟩ | ⟨hm, b, hb, rfl⟩
        · rw [propios_eq (hpos.trans_lt hcrece)]
          exact ⟨hB, by simp only; omega⟩
        · have hlugar := inicioCompactado_le (c := c) hclaves hm hb
          have hpropios : Archivo.propios c
              { b with bloqueInicial := inicioCompactado c s nombre claves m } = b.propios c := rfl
          exact ⟨inicioCompactado_nonneg m, by simp only [hpropios]; omega⟩

/-- The bits of a truncation that meets the condition are in the bitmap. -/
theorem bitsTruncar_lt (hclaves : claves.Perm s.archivos.claves) (htam : tamanio.toNat < 2 ^ 31)
    (hC : truncaConLugar c s nombre a tamanio claves) {x : ℤ}
    (hx : x ∈ bitsTruncar c s nombre a tamanio claves) : 0 ≤ x ∧ x < bitsDelBitmap c := by
  obtain ⟨hini, hfin⟩ := hs.rango ha
  have hle := bitsDelBitmap_le (c := c)
  have hcount := c.blockCount_lt
  have huso := cantidadDeBloques_le_propios (c := c) a
  have hpos := cantidadDeBloques_nonneg (c := c) (hs.tamanios ha)
  have hnec := cantidadDeBloques_nonneg (c := c) (Int.natCast_nonneg tamanio.toNat)
  have haInt := Entero.aInt_of_lt htam
  simp only [truncaConLugar, haInt] at hC
  rcases lt_trichotomy (cantidadDeBloques c tamanio.toNat) (cantidadDeBloques c a.tamArchivo)
    with hmenos | higual | hcrece
  · have hhasta := (hC.resolve_left (by omega)).2.2.1 hmenos
    rw [bitsTruncar_achicar (by rwa [haInt]), haInt, List.mem_append, mem_bitsDesasignar] at hx
    rcases hx with hx | ⟨i, hi, rfl⟩
    · have := bitsEstanContiguos_le hs ha hx
      omega
    · rw [Entero.aUint32_of_nonneg (by omega) (by omega)]
      omega
  · simp only [bitsTruncar, haInt, higual, gt_iff_lt, lt_self_iff_false, if_false,
      List.append_nil] at hx
    have := bitsEstanContiguos_le hs ha hx
    omega
  obtain ⟨-, hcabe, -, hmas⟩ := hC.resolve_left (by omega)
  obtain ⟨hlibre, hocupado⟩ := hmas hcrece
  cases hcont : estanContiguos s.bitmap a.bloqueInicial
      (min (cantidadDeBloques c tamanio.toNat) (bitsDelBitmap c - a.bloqueInicial)) with
  | true =>
      have hentra := hlibre hcont
      rw [min_eq_left hentra] at hcont
      rw [bitsTruncar_enLugar ha (by rwa [haInt]) (by rwa [haInt]), haInt, List.mem_append,
        mem_bitsDesde] at hx
      rcases hx with hx | hx
      · have := bitsEstanContiguos_le hs ha hx
        omega
      · omega
  | false =>
      have hB : 0 ≤ bloquesDeOtros c s nombre claves := bloquesDeOtros_nonneg
      have hentra := bloques_le_of_cabe ha hcabe hcrece
      have hbits := bitsDelBitmap_eq (hocupado hcont)
      obtain ⟨hno, hleidos⟩ := estanContiguos_of_hasta hcont
      have hfinC : finCompactado c s nombre a claves = _ :=
        finCompactado_eq hbs hs.tamanios hclaves
      rw [bitsTruncar_compacta hbs hs ha hclaves (by rwa [haInt]) (by rwa [haInt]), haInt,
        List.mem_append, List.mem_append, mem_bitsCompactar (by omega), mem_bitsDesde] at hx
      rcases hx with hx | hx | hx
      · have h₁ := bitsEstanContiguos_le hs ha hx
        have h₂ := hleidos x hx
        omega
      · omega
      · omega

/-- A truncation that meets the condition is harmless. -/
theorem inocua_truncar (hclaves : claves.Perm s.archivos.claves)
    (hC : truncaConLugar c s nombre a tamanio claves) :
    Inocua c s (.truncar nombre tamanio claves) := by
  obtain ⟨hini, hfin⟩ := hs.rango ha
  have huso := cantidadDeBloques_le_propios (c := c) a
  by_cases higual : cantidadDeBloques c (aInt tamanio.toNat) = cantidadDeBloques c a.tamArchivo
  · refine ⟨fun x hx => ?_, fun t ht => ?_, fun _ => ?_⟩
    · simp only [bitsTocados, ha, bitsTruncar, higual, gt_iff_lt, lt_self_iff_false, if_false,
        List.append_nil] at hx
      have := bitsEstanContiguos_le hs ha hx
      omega
    · simp [bytesTocados, ha, tramosTruncar, higual] at ht
    · exact congrArg some (truncarArchivo_mismos ha higual)
  have hC' := hC
  obtain ⟨htam, hcabe, -, hmas⟩ := hC.resolve_left higual
  refine ⟨fun x hx => ?_, fun t ht => ?_, fun h => ?_⟩
  · simp only [bitsTocados, ha] at hx
    exact bitsTruncar_lt hbs hs ha hclaves htam hC' hx
  · simp only [bytesTocados, ha, tramosTruncar, Entero.aInt_of_lt htam, gt_iff_lt] at ht
    split at ht
    · rename_i hcompacta
      have hentra := bloques_le_of_cabe ha hcabe hcompacta.1
      have hrango : ∀ {n b}, s.archivos.valor n = some b →
          0 ≤ b.bloqueInicial ∧ b.bloqueInicial + b.propios c ≤ c.blockCount := fun hb =>
        ⟨(hs.rango hb).1, (hs.rango hb).2.trans bitsDelBitmap_le⟩
      exact tramosCompactar_dentro hbs hs.tamanios hrango ha hclaves (by omega) t ht
    · cases ht
  · rw [SinLugar, hcabe] at h
    cases h

end

/-- A request that meets the condition is harmless. -/
theorem inocua_of_hayLugar (hbs : 0 < c.blockSize) {s : Estado} (hs : EnBitmap c s) {e : Evento}
    (hclaves : e.conNombres s) (hC : HayLugar c s e) : Inocua c s e := by
  have hle := bitsDelBitmap_le (c := c)
  have hcount := c.blockCount_lt
  cases e with
  | crear nombre =>
      refine ⟨fun x hx => ?_, fun t ht => (List.not_mem_nil ht).elim, fun h => absurd h hC⟩
      have hlt := bloqueLibre_lt hC
      obtain ⟨h₀, -⟩ := bloqueLibre_spec hC
      simp only [bitsTocados, bitsAsignarBloque, List.mem_append, List.mem_singleton] at hx
      rcases hx with hx | rfl
      · exact mem_bitsBloqueLibre hx
      · rw [Entero.aUint32_of_nonneg h₀ (by omega)]
        exact ⟨h₀, hlt⟩
  | eliminar nombre =>
      refine ⟨fun x hx => ?_, fun t ht => (List.not_mem_nil ht).elim, False.elim⟩
      simp only [bitsTocados] at hx
      split at hx
      · cases hx
      · rename_i a ha
        obtain ⟨hini, hfin⟩ := hs.rango ha
        have huso := cantidadDeBloques_le_propios (c := c) a
        obtain ⟨i, hi, rfl⟩ := mem_bitsDesasignar.1 hx
        rw [Entero.aUint32_of_nonneg (by omega) (by omega)]
        omega
  | truncar nombre tamanio claves =>
      cases ha : s.archivos.valor nombre with
      | none =>
          refine ⟨fun x hx => ?_, fun t ht => ?_, fun _ => ?_⟩
          · simp [bitsTocados, ha] at hx
          · simp [bytesTocados, ha] at ht
          · exact congrArg some (truncarArchivo_of_none ha)
      | some a => exact inocua_truncar hbs hs ha hclaves (hC a ha)
  | escribir nombre pos datos =>
      exact ⟨fun x hx => (List.not_mem_nil hx).elim, fun t ht => (List.not_mem_nil ht).elim,
        False.elim⟩
  | leer nombre pos leido =>
      exact ⟨fun x hx => (List.not_mem_nil hx).elim, fun t ht => (List.not_mem_nil ht).elim,
        False.elim⟩

/-! ### Requests that do not -/

section

variable {s : Estado} {nombre : String} {a : Archivo} {tamanio : UInt32} {claves : List String}

theorem EnBitmap.acotado (hs : EnBitmap c s) : Acotado c s := by
  refine ⟨hs.tamanios, fun {n b} hb => ?_⟩
  obtain ⟨hini, hfin⟩ := hs.rango hb
  have hle := bitsDelBitmap_le (c := c)
  have hpropios := one_le_propios (c := c) b
  omega

/-- A truncation to another number of blocks changes the size, whether it compacts or not. -/
theorem truncarArchivo_tamanio (hbs : 0 < c.blockSize) (hs : EnBitmap c s)
    (ha : s.archivos.valor nombre = some a) (hclaves : claves.Perm s.archivos.claves)
    (hne : cantidadDeBloques c (aInt tamanio.toNat) ≠ cantidadDeBloques c a.tamArchivo) :
    truncarArchivo c s nombre tamanio claves ≠ s := by
  have hpropio := compactar_valor_self hbs hs.tamanios ha hclaves
  intro heq
  have htam : ∃ b, (truncarArchivo c s nombre tamanio claves).archivos.valor nombre = some b ∧
      b.tamArchivo = aInt tamanio.toNat := by
    unfold truncarArchivo
    rw [ha]
    simp only
    by_cases hmas : cantidadDeBloques c (aInt tamanio.toNat) > cantidadDeBloques c a.tamArchivo
    · rw [if_pos hmas]
      cases hcont : estanContiguos s.bitmap a.bloqueInicial
          (cantidadDeBloques c (aInt tamanio.toNat)) with
      | true => simp [ha]
      | false => simp [hpropio]
    · rw [if_neg hmas, if_pos (by omega)]
      simp
  obtain ⟨b, hb, htam⟩ := htam
  rw [heq, ha] at hb
  cases hb
  exact hne (by rw [htam])

/-- A truncation that is harmless meets the condition, on a disk whose size is an `int`. -/
theorem truncaConLugar_of_inocua (hbs : 0 < c.blockSize)
    (hdisco : c.blockCount * c.blockSize < 2 ^ 31) (hs : EnBitmap c s)
    (ha : s.archivos.valor nombre = some a) (hclaves : claves.Perm s.archivos.claves)
    (hI : Inocua c s (.truncar nombre tamanio claves)) :
    truncaConLugar c s nombre a tamanio claves := by
  refine or_iff_not_imp_left.2 fun hne => ?_
  have hcabe : cabe c s nombre tamanio claves = true := by
    by_contra hno
    have := hI.sinLugar (Bool.eq_false_iff.2 hno)
    exact truncarArchivo_tamanio hbs hs ha hclaves hne (Option.some.inj this)
  obtain ⟨-, htam⟩ := tamanio_lt_of_cabe hbs hdisco ha (hs.acotado.rango ha).2.2 hcabe
  have haInt := Entero.aInt_of_lt htam
  have hbits := hI.bits
  simp only [bitsTocados, ha] at hbits
  obtain ⟨hini, hfin⟩ := hs.rango ha
  have hle := bitsDelBitmap_le (c := c)
  have hcount := c.blockCount_lt
  have huso := cantidadDeBloques_le_propios (c := c) a
  have hpropios := one_le_propios (c := c) a
  have hpos := cantidadDeBloques_nonneg (c := c) (hs.tamanios ha)
  refine ⟨htam, hcabe, fun hmenos => ?_, fun hmas => ⟨fun hcont => ?_, fun hcont => ?_⟩⟩
  · -- the first block that it gives back is the one after the last
    rw [bitsTruncar_achicar hmenos] at hbits
    have := hbits _ (List.mem_append_right _ (mem_bitsDesasignar.2 ⟨0, by omega, rfl⟩))
    rw [Entero.aUint32_of_nonneg (by omega) (by omega)] at this
    omega
  · -- the test for contiguous blocks reads the first bit beyond the bitmap
    by_contra hno
    rw [min_eq_right (by omega), estanContiguos_iff] at hcont
    have hmem : (bitsDelBitmap c : ℤ) ∈ bitsEstanContiguos s.bitmap a.bloqueInicial
        (cantidadDeBloques c (aInt tamanio.toNat)) := by
      refine mem_bitsEstanContiguos.2 ⟨by omega, by omega, fun y h₁ h₂ => ?_⟩
      exact hcont y h₁ (by omega)
    have := hbits _ (List.mem_append_left _ hmem)
    omega
  · -- a compaction clears the bits up to `block_count`
    by_contra hno
    have hlt := bitsDelBitmap_lt hno
    have hB : 0 ≤ bloquesDeOtros c s nombre claves := bloquesDeOtros_nonneg
    have hfinC : finCompactado c s nombre a claves = _ :=
      finCompactado_eq hbs hs.tamanios hclaves
    rw [bitsTruncar_compacta hbs hs ha hclaves hmas (estanContiguos_of_hasta hcont).1] at hbits
    have hmem : (bitsDelBitmap c : ℤ) ∈ bitsCompactar c s nombre a claves :=
      (mem_bitsCompactar (by omega)).2 ⟨by omega, .inr (by omega)⟩
    have := hbits _ (List.mem_append_right _ (List.mem_append_left _ hmem))
    omega

/-- A request that is harmless meets the condition. -/
theorem hayLugar_of_inocua (hbs : 0 < c.blockSize) (hdisco : c.blockCount * c.blockSize < 2 ^ 31)
    (hs : EnBitmap c s) {e : Evento}
    (hclaves : e.conNombres s) (hI : Inocua c s e) : HayLugar c s e := by
  cases e with
  | crear nombre =>
      intro hno
      have hcount := c.blockCount_lt
      have hle := bitsDelBitmap_le (c := c)
      have := hI.bits (aUint32 (bloqueLibre c s.bitmap)) (by simp [bitsTocados, bitsAsignarBloque])
      rw [hno, show aUint32 (-1) = 2 ^ 32 - 1 from rfl] at this
      omega
  | eliminar nombre => trivial
  | truncar nombre tamanio claves =>
      intro a ha
      exact truncaConLugar_of_inocua hbs hdisco hs ha hclaves hI
  | escribir nombre pos datos => trivial
  | leer nombre pos leido => trivial

end

/-! ### Every run -/

/-- One request that meets the condition keeps the files in the bitmap. -/
theorem enBitmap_paso (hbs : 0 < c.blockSize) {s s' : Estado} {e : Evento} (hs : EnBitmap c s)
    (hC : HayLugar c s e) (h : (sistemaTotal c).paso s e s') : EnBitmap c s' := by
  obtain ⟨hclaves, hatender⟩ := h
  cases e with
  | crear nombre =>
      obtain rfl : _ = s' := Option.some.inj hatender
      rw [crearArchivo_eq hC]
      obtain ⟨h₀, -⟩ := bloqueLibre_spec hC
      have hlt := bloqueLibre_lt hC
      refine enBitmap_update nombre (some ⟨bloqueLibre c s.bitmap, 0⟩) hs rfl ?_
      rintro _ ⟨⟩
      refine ⟨le_rfl, h₀, ?_⟩
      rw [propios_vacio]
      simp only
      omega
  | eliminar nombre =>
      obtain rfl : _ = s' := Option.some.inj hatender
      cases ha : s.archivos.valor nombre with
      | none => simpa [eliminarArchivo, ha] using hs
      | some a =>
          exact enBitmap_update nombre none hs (by simp [eliminarArchivo, ha]) (by simp)
  | truncar nombre tamanio claves =>
      obtain rfl : _ = s' := Option.some.inj hatender
      cases ha : s.archivos.valor nombre with
      | none =>
          rw [truncarArchivo_of_none ha]
          exact hs
      | some a => exact enBitmap_truncarArchivo hbs hs ha hclaves (hC a ha)
  | escribir nombre pos datos =>
      obtain ⟨a, -, rfl⟩ := Option.map_eq_some_iff.1 hatender
      exact ⟨hs.tamanios, hs.rango⟩
  | leer nombre pos leido =>
      obtain ⟨-, rfl⟩ := atender_leer hatender
      exact hs

theorem enBitmap_alcanzable (hbs : 0 < c.blockSize) {s : Estado}
    (h : Transicion.AlcanzableCon (sistemaTotal c) (HayLugar c) s) : EnBitmap c s := by
  refine h.invariante ?_ fun s e s' hs hC hpaso => enBitmap_paso hbs hs hC hpaso
  rintro s rfl
  exact enBitmap_inicial

/-- In every run whose requests meet the condition, the next request is harmless if it meets the
condition, and, on a disk whose size is an `int`, only if it does. -/
theorem sin_espacio (hbs : 0 < c.blockSize) {s : Estado}
    (h : Transicion.AlcanzableCon (sistemaTotal c) (HayLugar c) s) (e : Evento)
    (hclaves : e.conNombres s) :
    (HayLugar c s e → Inocua c s e) ∧
      (c.blockCount * c.blockSize < 2 ^ 31 → Inocua c s e → HayLugar c s e) :=
  ⟨inocua_of_hayLugar hbs (enBitmap_alcanzable hbs h) hclaves,
    fun hdisco => hayLugar_of_inocua hbs hdisco (enBitmap_alcanzable hbs h) hclaves⟩

/-- One request that meets a condition. -/
def intentarTotal (c : Config) (C : Estado → Evento → Bool) (s : Estado) (e : Evento) :
    Option Estado :=
  if e.conNombres s ∧ C s e = true then atender c s e else none

theorem paso_of_intentarTotal {C : Estado → Evento → Bool} {s s' : Estado} {e : Evento}
    (h : intentarTotal c C s e = some s') : C s e = true ∧ (sistemaTotal c).paso s e s' := by
  unfold intentarTotal at h
  split at h
  · rename_i hadm
    exact ⟨hadm.2, hadm.1, h⟩
  · cases h

/-- A file in the first block of a disk whose last block has no bit of its own. -/
def unArchivo : Estado :=
  Transicion.estadoTras
    (intentarTotal discoDesparejo fun s e => decide (HayLugar discoDesparejo s e))
    estadoInicial [.crear "a"] (by decide +kernel)

/-- It may be deleted; that it grows would need a compaction, which clears a bit too many. -/
theorem sin_espacio_unArchivo :
    Inocua discoDesparejo unArchivo (.eliminar "a") ∧
      ¬Inocua discoDesparejo unArchivo (.truncar "a" 32 ["a"]) := by
  have halc : Transicion.AlcanzableCon (sistemaTotal discoDesparejo) (HayLugar discoDesparejo)
      unArchivo := by
    refine Transicion.alcanzableCon_estadoTras ?_ rfl _
    intro s e s' h
    obtain ⟨hC, hpaso⟩ := paso_of_intentarTotal h
    exact ⟨of_decide_eq_true hC, hpaso⟩
  refine ⟨(sin_espacio (by decide) halc (.eliminar "a") trivial).1 trivial, fun hI => ?_⟩
  have hnombres : Evento.conNombres unArchivo (.truncar "a" 32 ["a"]) := by decide +kernel
  exact absurd ((sin_espacio (by decide) halc _ hnombres).2 (by decide) hI) (by decide +kernel)

/-- A file in the first of eight blocks. -/
def primerBloque : Estado :=
  Transicion.estadoTras (intentarTotal discoChico fun _ _ => true) estadoInicial [.crear "a"]
    (by decide +kernel)

/-- It grows to nine blocks: nobody refuses, and two bits beyond the bitmap are set. -/
theorem sin_espacio_falla :
    ¬∀ (c : Config) (s : Estado) (e : Evento), 0 < c.blockSize → 0 < c.blockCount →
      Transicion.Alcanzable (sistemaTotal c) s → e.conNombres s → Inocua c s e := by
  intro h
  have halc : Transicion.Alcanzable (sistemaTotal discoChico) primerBloque :=
    Transicion.alcanzableCon_estadoTras
      (fun _ _ _ h => ⟨trivial, (paso_of_intentarTotal h).2⟩) rfl _
  have hI := h discoChico primerBloque (.truncar "a" 144 ["a"]) (by decide) (by decide) halc
    (by decide +kernel)
  exact absurd (hI.bits 8 (by decide +kernel)).2 (by decide)

end DialFs
