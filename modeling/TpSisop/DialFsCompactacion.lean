/-
**A compaction keeps every file, wherever the files were.**

`compactar` copies the files out of the disk and back, in the order in which the directory lists
them, and the file that is about to grow behind the others.  The copies it reads and the places it
writes overlap on the disk, but it writes into a disk of its own first.  What it needs of the disk
is only that the files own disjoint blocks; the bits of the bitmap do not matter, and it leaves
exactly those of the files set.  Its loops over the bitmap go up to `block_count`, though, and the
bitmap has that many bits only where eight divides it: elsewhere the last of them are of whatever
the heap has behind the bitmap.

Main definitions:

* `DialFs.bitsCompactar`, `DialFs.tramosCompactar` — the bits and bytes that a compaction touches;
* `DialFs.Repartido` — files own disjoint ranges of blocks of the disk;
* `DialFs.Compactado` — the files that a compaction should leave;
* `DialFs.CompactaBien` — it leaves them, and the bits of their blocks, and touches nothing else.

Main results:

* `DialFs.bloques_le_of_repartido` — the blocks of all the files are no more than the disk has;
* `DialFs.compactar_correcta` — a compaction leaves the files it should;
* `DialFs.compacta_bien_iff` — on which disks it does all that it should.
-/

import TpSisop.DialFsInvariante

set_option relaxedAutoImplicit false
set_option autoImplicit false

namespace DialFs

open Entero (aInt)
open Coleccion (Diccionario)

/-! ### What is touched -/

section

variable (c : Config)

/-- The bits from `desde` on. -/
def bitsDesde (desde cantidad : ℤ) : List ℤ :=
  (List.range cantidad.toNat).map fun (i : ℕ) => desde + i

/-- The first block after those that `compactar` lays out. -/
def finCompactado (s : Estado) (nombreArchivo : String) (archivo : Archivo)
    (claves : List String) : ℤ :=
  let k := (claves.erase nombreArchivo).foldl (compactarPaso c s.bloques)
    { archivos := s.archivos, bloquesCompactados := fun _ => 0, bloqueActual := 0 }
  let siguiente := k.bloqueActual + archivo.tamArchivo.tdiv c.blockSize
  if archivo.tamArchivo.tmod c.blockSize ≠ 0 then siguiente + 1 else siguiente

/-- The two loops of `compactar` over the bitmap. -/
def bitsCompactar (s : Estado) (nombreArchivo : String) (archivo : Archivo)
    (claves : List String) : List ℤ :=
  let fin := finCompactado c s nombreArchivo archivo claves
  bitsDesde 0 fin ++ bitsDesde fin (c.blockCount - fin)

/-- A range of bytes: where it begins, and how many they are. -/
abbrev Tramo := ℤ × ℤ

/-- The `memcpy` of the loop of `compactar`: what it writes to `bloques_compactados` and reads from
`bloques`. -/
def tramosPaso (k : Compactacion) (nombre : String) : List Tramo :=
  match k.archivos.valor nombre with
  | none => []
  | some archivo =>
      [(k.bloqueActual * c.blockSize, archivo.tamArchivo),
        (archivo.bloqueInicial * c.blockSize, archivo.tamArchivo)]

def tramosBucle (bloques : ℤ → UInt8) : Compactacion → List String → List Tramo
  | _, [] => []
  | k, nombre :: nombres =>
      tramosPaso c k nombre ++ tramosBucle bloques (compactarPaso c bloques k nombre) nombres

/-- The bytes that `compactar` reads and writes. -/
def tramosCompactar (s : Estado) (nombreArchivo : String) (archivo : Archivo)
    (claves : List String) : List Tramo :=
  let k₀ : Compactacion :=
    { archivos := s.archivos, bloquesCompactados := fun _ => 0, bloqueActual := 0 }
  let k := (claves.erase nombreArchivo).foldl (compactarPaso c s.bloques) k₀
  (archivo.bloqueInicial * c.blockSize, archivo.tamArchivo) ::
    tramosBucle c s.bloques k₀ (claves.erase nombreArchivo) ++
    [(0, k.bloqueActual * c.blockSize), (k.bloqueActual * c.blockSize, archivo.tamArchivo)]

/-- The range is inside the disk. -/
def Tramo.dentro (t : Tramo) : Prop :=
  0 ≤ t.2 ∧ (t.2 = 0 ∨ 0 ≤ t.1 ∧ t.1 + t.2 ≤ c.blockCount * c.blockSize)

end

variable {c : Config}

/-! ### What a compaction should leave -/

/-- The files own ranges of blocks of the disk, and no block has two owners. -/
structure Repartido (c : Config) (s : Estado) : Prop where
  tamanios : ∀ {n a}, s.archivos.valor n = some a → 0 ≤ a.tamArchivo
  rango : ∀ {n a}, s.archivos.valor n = some a →
    0 ≤ a.bloqueInicial ∧ a.bloqueInicial + a.propios c ≤ c.blockCount
  ajenos : ∀ {n m a b}, s.archivos.valor n = some a → s.archivos.valor m = some b → n ≠ m →
    ∀ x, posee c a x → ¬posee c b x

theorem Sano.repartido {s : Estado} (hs : Sano c s) : Repartido c s :=
  ⟨hs.tamanios, hs.rango, hs.ajenos⟩

/-- The file has the size and the bytes that it had. -/
def Conserva (c : Config) (s s' : Estado) (b b' : Archivo) : Prop :=
  b'.tamArchivo = b.tamArchivo ∧ ∀ j, 0 ≤ j → j < b.tamArchivo →
    s'.bloques (b'.bloqueInicial * c.blockSize + j) = s.bloques (b.bloqueInicial * c.blockSize + j)

/-- The files that a compaction for the file `nombre` should leave, when the directory lists its
names in the order `claves`: those it had, one after another in that order, and `nombre` behind
them. -/
structure Compactado (c : Config) (s s' : Estado) (nombre : String) (claves : List String) :
    Prop where
  nombres : ∀ m, s'.archivos.valor m = none ↔ s.archivos.valor m = none
  archivos : ∀ {m b}, s.archivos.valor m = some b →
    ∃ b', s'.archivos.valor m = some b' ∧ Conserva c s s' b b'
  otros : ∀ {l₁ m l₂ b'}, claves.erase nombre = l₁ ++ m :: l₂ → s'.archivos.valor m = some b' →
    b'.bloqueInicial = (l₁.map (extension c s.archivos)).sum
  ultimo : ∀ {a'}, s'.archivos.valor nombre = some a' →
    a'.bloqueInicial = bloquesDeOtros c s nombre claves

/-- The compaction for the file `nombre`, whose entry is `a`, leaves the files it should and sets
exactly the bits up to the end of the last one; every bit it touches is of the bitmap and every byte
of the disk, and the size it asks `calloc` for is that of the disk. -/
structure CompactaBien (c : Config) (s : Estado) (nombre : String) (a : Archivo)
    (claves : List String) : Prop where
  compactado : Compactado c s (compactar c s nombre claves) nombre claves
  entran : bloquesDeOtros c s nombre claves + cantidadDeBloques c a.tamArchivo ≤ bitsDelBitmap c
  bitmap : ∀ x : ℤ, 0 ≤ x → x < bitsDelBitmap c → ((compactar c s nombre claves).bitmap x = true ↔
    x < bloquesDeOtros c s nombre claves + cantidadDeBloques c a.tamArchivo)
  bits : ∀ x ∈ bitsCompactar c s nombre a claves, 0 ≤ x ∧ x < bitsDelBitmap c
  bytes : ∀ t ∈ tramosCompactar c s nombre a claves, t.dentro c
  calloc : aInt (c.blockCount * c.blockSize) = (c.blockCount * c.blockSize : ℕ)

/-! ### The bits and the bytes -/

theorem bitsDelBitmap_le : (bitsDelBitmap c : ℤ) ≤ c.blockCount := by
  unfold bitsDelBitmap
  omega

theorem bitsDelBitmap_eq (h : 8 ∣ c.blockCount) : bitsDelBitmap c = c.blockCount :=
  Nat.div_mul_cancel h

theorem bitsDelBitmap_lt (h : ¬8 ∣ c.blockCount) : bitsDelBitmap c < c.blockCount := by
  unfold bitsDelBitmap
  omega

theorem mem_bitsDesde {ini n x : ℤ} : x ∈ bitsDesde ini n ↔ ini ≤ x ∧ x < ini + n := by
  simp only [bitsDesde, List.mem_map, List.mem_range]
  refine ⟨?_, fun h => ⟨(x - ini).toNat, by omega, by omega⟩⟩
  rintro ⟨i, hi, rfl⟩
  omega

section

variable {s : Estado} {nombre : String} {a : Archivo} {claves : List String}

/-- The bytes of a file that has its blocks on the disk are on the disk. -/
theorem dentro_bloques (hbs : 0 < c.blockSize) (htam : 0 ≤ a.tamArchivo) {b : ℤ} (h₀ : 0 ≤ b)
    (hfin : b + cantidadDeBloques c a.tamArchivo ≤ c.blockCount) :
    Tramo.dentro c (b * c.blockSize, a.tamArchivo) := by
  refine ⟨htam, .inr ⟨Int.mul_nonneg h₀ (Int.natCast_nonneg _), ?_⟩⟩
  have hle := Entero.le_techo_mul hbs htam
  rw [← cantidadDeBloques_eq_techo] at hle
  have hmul := Int.mul_le_mul_of_nonneg_right hfin (Int.natCast_nonneg c.blockSize)
  rw [Int.add_mul] at hmul
  simp only
  omega

/-- The loop of `compactar` stays on the disk as long as the files and their copies do. -/
theorem tramosBucle_dentro (hbs : 0 < c.blockSize) (bloques : ℤ → UInt8) :
    ∀ (ks : List String) (k : Compactacion), ks.Nodup →
      (∀ n ∈ ks, ∃ a, k.archivos.valor n = some a ∧ 0 ≤ a.tamArchivo ∧ 0 ≤ a.bloqueInicial ∧
        a.bloqueInicial + a.propios c ≤ c.blockCount) →
      0 ≤ k.bloqueActual →
      k.bloqueActual + (ks.map (extension c k.archivos)).sum ≤ c.blockCount →
      ∀ t ∈ tramosBucle c bloques k ks, t.dentro c := by
  intro ks
  induction ks with
  | nil =>
      intro k _ _ _ _ t ht
      cases ht
  | cons p ks ih =>
      intro k hnodup hks h₀ hsum t ht
      obtain ⟨hp, hnodup⟩ := List.nodup_cons.1 hnodup
      obtain ⟨a, ha, htam, hini, hfin⟩ := hks p (by simp)
      have havance := compactarPaso_bloqueActual bloques hbs ha htam
      have huso := cantidadDeBloques_le_propios (c := c) a
      have hpropios := one_le_propios (c := c) a
      rw [List.map_cons, List.sum_cons, extension_of_some ha] at hsum
      have hresto : 0 ≤ (ks.map (extension c k.archivos)).sum := by
        refine List.sum_nonneg fun x hx => ?_
        obtain ⟨n, -, rfl⟩ := List.mem_map.1 hx
        exact extension_nonneg k.archivos n
      rw [tramosBucle, List.mem_append] at ht
      rcases ht with ht | ht
      · simp only [tramosPaso, ha, List.mem_cons, List.not_mem_nil, or_false] at ht
        rcases ht with rfl | rfl
        · exact dentro_bloques hbs htam h₀ (by omega)
        · exact dentro_bloques hbs htam hini (by omega)
      · refine ih (compactarPaso c bloques k p) hnodup (fun n hn => ?_) (by omega) ?_ t ht
        · have hne : n ≠ p := fun h => hp (h ▸ hn)
          rw [compactarPaso_valor ha, Function.update_of_ne hne]
          exact hks n (by simp [hn])
        · rw [havance, compactarPaso_extension]
          omega

/-- Where the loop of `compactar` ends. -/
theorem foldl_bloqueActual (hbs : 0 < c.blockSize)
    (htamanios : ∀ {n b}, s.archivos.valor n = some b → 0 ≤ b.tamArchivo)
    (hclaves : claves.Perm s.archivos.claves) :
    ((claves.erase nombre).foldl (compactarPaso c s.bloques)
      ⟨s.archivos, fun _ => 0, 0⟩).bloqueActual = bloquesDeOtros c s nombre claves := by
  obtain ⟨k, hk, hfin, -⟩ := compactar_bucle hbs htamanios nombre hclaves
  rw [hk, hfin]

theorem finCompactado_eq (hbs : 0 < c.blockSize)
    (htamanios : ∀ {n b}, s.archivos.valor n = some b → 0 ≤ b.tamArchivo)
    (hclaves : claves.Perm s.archivos.claves) :
    finCompactado c s nombre a claves
      = bloquesDeOtros c s nombre claves + cantidadDeBloques c a.tamArchivo := by
  simp only [finCompactado, foldl_bloqueActual hbs htamanios hclaves, cantidadDeBloques]
  split <;> omega

/-- A compaction touches every bit below `block_count`, and below the blocks it lays out. -/
theorem mem_bitsCompactar {x : ℤ} (h₀ : 0 ≤ finCompactado c s nombre a claves) :
    x ∈ bitsCompactar c s nombre a claves ↔
      0 ≤ x ∧ (x < finCompactado c s nombre a claves ∨ x < c.blockCount) := by
  simp only [bitsCompactar, List.mem_append, mem_bitsDesde]
  omega

/-- The bytes of a compaction are on the disk as long as the files are and will be. -/
theorem tramosCompactar_dentro (hbs : 0 < c.blockSize)
    (htamanios : ∀ {n b}, s.archivos.valor n = some b → 0 ≤ b.tamArchivo)
    (hrango : ∀ {n b}, s.archivos.valor n = some b →
      0 ≤ b.bloqueInicial ∧ b.bloqueInicial + b.propios c ≤ c.blockCount)
    (ha : s.archivos.valor nombre = some a) (hclaves : claves.Perm s.archivos.claves)
    (hcabe : bloquesDeOtros c s nombre claves + cantidadDeBloques c a.tamArchivo ≤ c.blockCount) :
    ∀ t ∈ tramosCompactar c s nombre a claves, t.dentro c := by
  have htam := htamanios ha
  have huso := cantidadDeBloques_le_propios (c := c) a
  have hpos := cantidadDeBloques_nonneg (c := c) htam
  have hB : 0 ≤ bloquesDeOtros c s nombre claves := bloquesDeOtros_nonneg
  intro t ht
  simp only [tramosCompactar, foldl_bloqueActual hbs htamanios hclaves, List.mem_cons,
    List.mem_append, List.not_mem_nil, or_false, List.cons_append] at ht
  rcases ht with rfl | ht | rfl | rfl
  · obtain ⟨hini, hfin⟩ := hrango ha
    exact dentro_bloques hbs htam hini (by omega)
  · refine tramosBucle_dentro hbs s.bloques _ _ (nodup_erase_claves hclaves) (fun n hn => ?_)
      le_rfl ?_ t ht
    · obtain ⟨b, hb⟩ := exists_archivo hclaves hn
      obtain ⟨hini, hfin⟩ := hrango hb
      exact ⟨b, hb, htamanios hb, hini, by omega⟩
    · rw [Int.zero_add]
      exact (show bloquesDeOtros c s nombre claves ≤ c.blockCount by omega)
  · have hmul := Int.mul_le_mul_of_nonneg_right
      (show bloquesDeOtros c s nombre claves ≤ c.blockCount by omega)
      (Int.natCast_nonneg c.blockSize)
    exact ⟨Int.mul_nonneg hB (Int.natCast_nonneg _), .inr ⟨le_rfl, by simpa using hmul⟩⟩
  · exact dentro_bloques hbs htam hB hcabe

/-- The blocks that the files own, each at least one, are blocks of the disk. -/
theorem bloques_le_of_repartido (hR : Repartido c s) (hclaves : claves.Perm s.archivos.claves) :
    (claves.map (extension c s.archivos)).sum ≤ c.blockCount := by
  have hentrada : ∀ n ∈ claves, ∃ b, s.archivos.valor n = some b := by
    intro n hn
    exact Option.ne_none_iff_exists'.1 (s.archivos.mem_claves.1 (hclaves.mem_iff.1 hn))
  refine Extension.sum_le_of_disjuntas
    (i := fun n => ((s.archivos.valor n).map Archivo.bloqueInicial).getD 0)
    (fun n _ => extension_nonneg s.archivos n) (Int.natCast_nonneg _)
    (hclaves.nodup_iff.2 s.archivos.nodup) ?_ ?_
  · intro n hn
    obtain ⟨b, hb⟩ := hentrada n hn
    simpa [hb, extension_of_some hb] using hR.rango hb
  · intro n hn m hm hne x hx hx'
    obtain ⟨b, hb⟩ := hentrada n hn
    obtain ⟨b', hb'⟩ := hentrada m hm
    refine hR.ajenos hb hb' hne x ?_ ?_
    · simpa [hb, extension_of_some hb, posee] using hx
    · simpa [hb', extension_of_some hb', posee] using hx'

/-- The file that grows is one of them. -/
theorem bloquesDeOtros_add (ha : s.archivos.valor nombre = some a)
    (hclaves : claves.Perm s.archivos.claves) :
    bloquesDeOtros c s nombre claves + a.propios c
      = (claves.map (extension c s.archivos)).sum := by
  have hmem : nombre ∈ claves :=
    hclaves.mem_iff.2 (s.archivos.mem_claves.2 (by simp [ha]))
  have hperm := ((List.perm_cons_erase hmem).map (extension c s.archivos)).sum_eq
  rw [List.map_cons, List.sum_cons, extension_of_some ha] at hperm
  rw [bloquesDeOtros]
  omega

/-- What a compaction lays out are blocks of the disk. -/
theorem bloquesDeOtros_add_le (hR : Repartido c s) (ha : s.archivos.valor nombre = some a)
    (hclaves : claves.Perm s.archivos.claves) :
    bloquesDeOtros c s nombre claves + cantidadDeBloques c a.tamArchivo ≤ c.blockCount := by
  have htotal := bloques_le_of_repartido hR hclaves
  rw [← bloquesDeOtros_add ha hclaves] at htotal
  have huso := cantidadDeBloques_le_propios (c := c) a
  omega

/-- A compaction leaves the files it should, for any order of the names. -/
theorem compactar_correcta (hbs : 0 < c.blockSize) (hR : Repartido c s)
    (ha : s.archivos.valor nombre = some a) (hclaves : claves.Perm s.archivos.claves) :
    Compactado c s (compactar c s nombre claves) nombre claves := by
  obtain ⟨hpropio, hotros, -, hbytes⟩ := compactar_deja hbs hR.tamanios ha hclaves
  have hnodup : (claves.erase nombre).Nodup := nodup_erase_claves hclaves
  refine ⟨fun m => ?_, fun {m b} hb => ?_, fun {l₁ m l₂ b'} hl hb' => ?_, fun {a'} ha' => ?_⟩
  · by_cases hm : m = nombre
    · rw [hm, hpropio, ha]
      simp
    · rw [hotros m hm, Option.map_eq_none_iff]
  · by_cases hm : m = nombre
    · subst hm
      obtain rfl : a = b := Option.some.inj (ha.symm.trans hb)
      exact ⟨_, hpropio, rfl, hbytes m a _ hb hpropio⟩
    · have hm' := hotros m hm
      rw [hb] at hm'
      exact ⟨_, hm', rfl, hbytes m b _ hb hm'⟩
  · have hm : m ≠ nombre := ((mem_erase_claves hclaves).1 (by simp [hl])).1
    rw [hotros m hm, Option.map_eq_some_iff] at hb'
    obtain ⟨b, -, rfl⟩ := hb'
    -- no name comes twice, so `m` is not among those before it
    have hno : m ∉ l₁ := by
      rw [hl] at hnodup
      exact fun h => (List.nodup_append.1 hnodup).2.2 m h m (by simp) rfl
    rw [inicioCompactado, hl, Extension.inicio_append_cons hno]
  · rw [hpropio] at ha'
    cases ha'
    rfl

/-- The bits that it leaves set are those of the blocks up to the end of the last file. -/
theorem compactar_bitmap_iff (hbs : 0 < c.blockSize) (hR : Repartido c s)
    (ha : s.archivos.valor nombre = some a) (hclaves : claves.Perm s.archivos.claves) {x : ℤ}
    (h₀ : 0 ≤ x) (hx : x < c.blockCount) :
    (compactar c s nombre claves).bitmap x = true ↔
      x < bloquesDeOtros c s nombre claves + cantidadDeBloques c a.tamArchivo := by
  obtain ⟨-, -, hbitmap, -⟩ := compactar_deja hbs hR.tamanios ha hclaves
  rw [hbitmap]
  by_cases hfin : x < bloquesDeOtros c s nombre claves + cantidadDeBloques c a.tamArchivo
  · rw [if_neg (by omega), if_pos ⟨h₀, hfin⟩]
    simp [hfin]
  · rw [if_pos (by omega)]
    simp [hfin]

/-- The bits that a compaction touches are those of all the blocks of the disk. -/
theorem mem_bitsCompactar_iff (hbs : 0 < c.blockSize) (hR : Repartido c s)
    (ha : s.archivos.valor nombre = some a) (hclaves : claves.Perm s.archivos.claves) {x : ℤ} :
    x ∈ bitsCompactar c s nombre a claves ↔ 0 ≤ x ∧ x < c.blockCount := by
  have hB : 0 ≤ bloquesDeOtros c s nombre claves := bloquesDeOtros_nonneg
  have hpos := cantidadDeBloques_nonneg (c := c) (hR.tamanios ha)
  have hle := bloquesDeOtros_add_le hR ha hclaves
  rw [← finCompactado_eq hbs hR.tamanios hclaves] at hle
  have hfin : finCompactado c s nombre a claves = _ := finCompactado_eq hbs hR.tamanios hclaves
  rw [mem_bitsCompactar (by omega)]
  omega

/-- **On which disks a compaction does what it should**: those with a bit for each block, and with a
size that is an `int`. -/
theorem compacta_bien_iff (hbs : 0 < c.blockSize) (hR : Repartido c s)
    (ha : s.archivos.valor nombre = some a) (hclaves : claves.Perm s.archivos.claves) :
    CompactaBien c s nombre a claves ↔
      8 ∣ c.blockCount ∧ c.blockCount * c.blockSize < 2 ^ 31 := by
  have hmem := fun x => mem_bitsCompactar_iff (x := x) hbs hR ha hclaves
  have hle := bloquesDeOtros_add_le hR ha hclaves
  constructor
  · intro h
    refine ⟨?_, Entero.aInt_eq_iff.1 h.calloc⟩
    -- the last loop clears the bit of the last block
    by_contra hno
    have hlt := bitsDelBitmap_lt hno
    have := (h.bits (bitsDelBitmap c) ((hmem _).2 ⟨by omega, by omega⟩)).2
    omega
  · rintro ⟨h8, hdisco⟩
    have hbits := bitsDelBitmap_eq h8
    refine ⟨compactar_correcta hbs hR ha hclaves, by omega, fun x h₀ hx => ?_, fun x hx => ?_, ?_,
      Entero.aInt_eq_iff.2 hdisco⟩
    · exact compactar_bitmap_iff hbs hR ha hclaves h₀ (by omega)
    · have := (hmem x).1 hx
      omega
    · exact tramosCompactar_dentro hbs hR.tamanios hR.rango ha hclaves hle

end

/-- A file of two blocks between two empty ones, the last of them not at the end of the others. -/
def disperso : Estado :=
  Transicion.estadoTras (intentar discoChico fun s e => decide (SinVecino discoChico s e))
    estadoInicial
    [.crear "a", .crear "b", .truncar "a" 32 ["b", "a"], .escribir "a" 16 [7, 8], .crear "d",
      .eliminar "b", .crear "e"] (by decide +kernel)

theorem disperso_sano : Sano discoChico disperso := by
  refine sano_alcanzable (by decide) (Transicion.alcanzableCon_estadoTras ?_ rfl _)
  intro s e s' h
  obtain ⟨hC, hpaso⟩ := paso_of_intentar h
  exact ⟨of_decide_eq_true hC, hpaso⟩

theorem compacta_bien_iff_disperso :
    CompactaBien discoChico disperso "e" ⟨4, 0⟩ ["d", "e", "a"] :=
  (compacta_bien_iff (by decide) disperso_sano.repartido (by decide +kernel)
    (by decide +kernel)).2 (by decide)

/-- A disk of nine blocks, whose last block has no bit of its own. -/
def discoDesparejo : Config where
  blockSize := 16
  blockCount := 9
  blockCount_lt := by decide

/-- A new file in the first block. -/
def archivoNuevo : Estado :=
  Transicion.estadoTras (intentar discoDesparejo fun s e => decide (SinVecino discoDesparejo s e))
    estadoInicial [.crear "a"] (by decide +kernel)

theorem archivoNuevo_sano : Sano discoDesparejo archivoNuevo := by
  refine sano_alcanzable (by decide) (Transicion.alcanzableCon_estadoTras ?_ rfl _)
  intro s e s' h
  obtain ⟨hC, hpaso⟩ := paso_of_intentar h
  exact ⟨of_decide_eq_true hC, hpaso⟩

/-- To grow it compacts the disk, which clears a ninth bit. -/
theorem compacta_mal :
    ¬∀ (c : Config) (s : Estado) (nombre : String) (a : Archivo) (claves : List String),
      0 < c.blockSize → Repartido c s → s.archivos.valor nombre = some a →
        claves.Perm s.archivos.claves → CompactaBien c s nombre a claves := by
  intro h
  have hbien := h discoDesparejo archivoNuevo "a" ⟨0, 0⟩ ["a"] (by decide)
    archivoNuevo_sano.repartido
    (by decide +kernel) (by decide +kernel)
  exact absurd (hbien.bits 8 (by decide +kernel)).2 (by decide)

end DialFs
