/-
**Soundness of the DialFS disk: files own disjoint blocks, and their bits are set.**

A file owns the blocks from its first one on, as many as its size needs and at least one.  Creating,
deleting and growing keep the blocks of different files apart and their bits set: growing always
compacts, because the bits of the file's own blocks are set and the test for contiguous blocks reads
them too, and a compaction lays the files out one after another.  Shrinking clears one bit too far:
its loop starts at the block after the last one, which is the first block of the neighbour when
there is one.  This module proves that this is the only way the disk goes wrong.

Main definitions:

* `DialFs.posee` — a file owns a block;
* `DialFs.Sano` — the invariant;
* `DialFs.SinVecino` — the condition on a step.

Main results:

* `DialFs.foldl_compactarPaso`, `DialFs.compactar_spec` — what a compaction leaves;
* `DialFs.sano_paso` — one request that meets the condition keeps the invariant;
* `DialFs.disco_sano` — the invariant in every run that meets the condition.
-/

import TpSisop.DialFs

set_option relaxedAutoImplicit false
set_option autoImplicit false

namespace DialFs

open Entero (aInt aUint32)
open Coleccion (Diccionario)

variable {c : Config}

/-! ### Owned blocks -/

/-- The file owns the block. -/
def posee (c : Config) (a : Archivo) (x : ℤ) : Prop :=
  a.bloqueInicial ≤ x ∧ x < a.bloqueInicial + a.propios c

instance (a : Archivo) (x : ℤ) : Decidable (posee c a x) :=
  inferInstanceAs (Decidable (_ ∧ _))

theorem one_le_propios (a : Archivo) : 1 ≤ a.propios c := le_max_left _ _

theorem cantidadDeBloques_le_propios (a : Archivo) :
    cantidadDeBloques c a.tamArchivo ≤ a.propios c := le_max_right _ _

theorem cantidadDeBloques_nonneg {n : ℤ} (h : 0 ≤ n) : 0 ≤ cantidadDeBloques c n := by
  rw [cantidadDeBloques_eq_techo]
  exact Entero.techo_nonneg h

/-- A file that is not empty owns exactly the blocks its size needs. -/
theorem propios_eq {a : Archivo} (h : 0 < cantidadDeBloques c a.tamArchivo) :
    a.propios c = cantidadDeBloques c a.tamArchivo :=
  max_eq_right h

/-- The bytes of a file are in its blocks. -/
theorem tamArchivo_le (hbs : 0 < c.blockSize) {a : Archivo} (h : 0 ≤ a.tamArchivo) :
    a.tamArchivo ≤ a.propios c * c.blockSize := by
  have hle := Entero.le_techo_mul hbs h
  rw [← cantidadDeBloques_eq_techo] at hle
  exact hle.trans (Int.mul_le_mul_of_nonneg_right (cantidadDeBloques_le_propios a)
    (Int.natCast_nonneg _))

theorem extension_of_some {d : Diccionario Archivo} {n : String} {a : Archivo}
    (h : d.valor n = some a) : extension c d n = a.propios c := by
  simp [extension, h]

theorem extension_nonneg (d : Diccionario Archivo) (n : String) : 0 ≤ extension c d n := by
  unfold extension
  split
  · exact le_rfl
  · rename_i a _
    exact le_trans (by decide) (one_le_propios a)

/-- The disk is sound: sizes are not negative, the blocks of a file are blocks of the disk with
their bits set, and no block has two owners. -/
structure Sano (c : Config) (s : Estado) : Prop where
  tamanios : ∀ {n a}, s.archivos.valor n = some a → 0 ≤ a.tamArchivo
  rango : ∀ {n a}, s.archivos.valor n = some a →
    0 ≤ a.bloqueInicial ∧ a.bloqueInicial + a.propios c ≤ c.blockCount
  bits : ∀ {n a}, s.archivos.valor n = some a → ∀ x, posee c a x → s.bitmap x = true
  ajenos : ∀ {n m a b}, s.archivos.valor n = some a → s.archivos.valor m = some b → n ≠ m →
    ∀ x, posee c a x → ¬posee c b x

/-- Replacing the entry of one name keeps the disk sound, as long as the new file is in range and
disjoint from the others and the bits of every file stay set. -/
theorem sano_update {s s' : Estado} (nombre : String) (t : Option Archivo) (hs : Sano c s)
    (harch : s'.archivos.valor = Function.update s.archivos.valor nombre t)
    (htam : ∀ a ∈ t, 0 ≤ a.tamArchivo)
    (hrango : ∀ a ∈ t, 0 ≤ a.bloqueInicial ∧ a.bloqueInicial + a.propios c ≤ c.blockCount)
    (hbits : ∀ a ∈ t, ∀ x, posee c a x → s'.bitmap x = true)
    (hotros : ∀ {m b}, m ≠ nombre → s.archivos.valor m = some b → ∀ x, posee c b x →
      s'.bitmap x = true)
    (hajenos : ∀ a ∈ t, ∀ {m b}, m ≠ nombre → s.archivos.valor m = some b → ∀ x, posee c a x →
      ¬posee c b x) :
    Sano c s' := by
  have hentrada : ∀ {n a}, s'.archivos.valor n = some a →
      (n = nombre ∧ a ∈ t) ∨ (n ≠ nombre ∧ s.archivos.valor n = some a) := by
    intro n a h
    rw [harch] at h
    exact Coleccion.update_eq_some h
  refine ⟨?_, ?_, ?_, ?_⟩
  · intro n a h
    rcases hentrada h with ⟨-, ha⟩ | ⟨-, ha⟩
    · exact htam a ha
    · exact hs.tamanios ha
  · intro n a h
    rcases hentrada h with ⟨-, ha⟩ | ⟨-, ha⟩
    · exact hrango a ha
    · exact hs.rango ha
  · intro n a h
    rcases hentrada h with ⟨-, ha⟩ | ⟨hn, ha⟩
    · exact hbits a ha
    · exact hotros hn ha
  · intro n m a b ha hb hne x hx hx'
    rcases hentrada ha with ⟨rfl, ha⟩ | ⟨hn, ha⟩
    · rcases hentrada hb with ⟨rfl, -⟩ | ⟨hm, hb⟩
      · exact hne rfl
      · exact hajenos a ha hm hb x hx hx'
    · rcases hentrada hb with ⟨rfl, hb⟩ | ⟨-, hb⟩
      · exact hajenos b hb hn ha x hx' hx
      · exact hs.ajenos ha hb hne x hx hx'

/-! ### Creating and deleting -/

theorem sano_inicial : Sano c estadoInicial := by
  refine ⟨?_, ?_, ?_, ?_⟩ <;> intros <;> simp_all [estadoInicial]

theorem sano_crearArchivo {s : Estado} (hs : Sano c s) {nombre : String}
    (hlibre : bloqueLibre c s.bitmap ≠ -1) : Sano c (crearArchivo c s nombre) := by
  obtain ⟨h₀, hlt, hclear⟩ := bloqueLibre_spec hlibre
  have hint : aInt (bloqueLibre c s.bitmap).toNat = bloqueLibre c s.bitmap := by
    have hcount := c.blockCount_lt
    rw [Entero.aInt_of_lt (by omega)]
    omega
  -- a new file owns the free block that was found
  have hposee : ∀ x, posee c ⟨bloqueLibre c s.bitmap, 0⟩ x ↔ x = bloqueLibre c s.bitmap := by
    intro x
    simp [posee, Archivo.propios, cantidadDeBloques]
    omega
  refine sano_update nombre (some ⟨bloqueLibre c s.bitmap, 0⟩) hs ?_ ?_ ?_ ?_ ?_ ?_
  · simp [crearArchivo, asignarBloque_of_libre hlibre, hint]
  · simp
  · simp [Archivo.propios, cantidadDeBloques]
    omega
  · intro a ha x hx
    obtain rfl : _ = a := Option.some.inj ha
    rw [(hposee x).1 hx]
    simp [crearArchivo, asignarBloque_of_libre hlibre]
  · intro m b _ hb x hx
    have hset := hs.bits hb x hx
    by_cases hx' : x = bloqueLibre c s.bitmap
    · simp [crearArchivo, asignarBloque_of_libre hlibre, hx']
    · simpa [crearArchivo, asignarBloque_of_libre hlibre, hx'] using hset
  · intro a ha m b _ hb x hx hx'
    obtain rfl : _ = a := Option.some.inj ha
    have hset := hs.bits hb x hx'
    rw [(hposee x).1 hx, hclear] at hset
    exact absurd hset (by decide)

theorem foldl_desasignarBloque (f : ℕ → ℤ) (bitmap : ℤ → Bool) (n : ℕ) (x : ℤ)
    (hf : ∀ i < n, 0 ≤ f i ∧ f i < 2 ^ 32) :
    ((List.range n).foldl (fun b (i : ℕ) => desasignarBloque b (f i)) bitmap) x =
      if ∃ i < n, f i = x then false else bitmap x := by
  unfold desasignarBloque
  rw [foldl_update fun i => aUint32 (f i)]
  congr 1
  refine propext (exists_congr fun i => and_congr_right fun hi => ?_)
  rw [Entero.aUint32_of_nonneg (hf i hi).1 (hf i hi).2]

theorem sano_eliminarArchivo {s : Estado} (hs : Sano c s) (nombre : String) :
    Sano c (eliminarArchivo c s nombre) := by
  cases ha : s.archivos.valor nombre with
  | none => simpa [eliminarArchivo, ha] using hs
  | some a =>
      obtain ⟨h₀, hfin⟩ := hs.rango ha
      have hcount := c.blockCount_lt
      have hprop := cantidadDeBloques_le_propios (c := c) a
      refine sano_update nombre none hs ?_ ?_ ?_ ?_ ?_ ?_
      · simp [eliminarArchivo, ha]
      · simp
      · simp
      · simp
      · intro m b hm hb x hx
        simp only [eliminarArchivo, ha]
        rw [foldl_desasignarBloque fun (i : ℕ) => a.bloqueInicial + i]
        · rw [if_neg]
          · exact hs.bits hb x hx
          · rintro ⟨i, hi, rfl⟩
            exact hs.ajenos ha hb hm.symm _ ⟨by omega, by omega⟩ hx
        · intro i hi
          omega
      · simp

/-! ### Shrinking -/

/-- A truncation to fewer blocks clears the bits from the second block that is left over on, and the
one after the last. -/
theorem truncarArchivo_achicar {s : Estado} {nombre : String} {a : Archivo}
    (ha : s.archivos.valor nombre = some a) {tamanio : UInt32} {claves : List String}
    (htam : tamanio.toNat < 2 ^ 31)
    (hmenos : cantidadDeBloques c tamanio.toNat < cantidadDeBloques c a.tamArchivo)
    (h₀ : 0 ≤ a.bloqueInicial)
    (hfin : a.bloqueInicial + cantidadDeBloques c a.tamArchivo < 2 ^ 32) :
    truncarArchivo c s nombre tamanio claves =
      { s with
        archivos := s.archivos.poner nombre { a with tamArchivo := tamanio.toNat }
        bitmap := fun x =>
          if a.bloqueInicial + cantidadDeBloques c tamanio.toNat < x ∧
            x ≤ a.bloqueInicial + cantidadDeBloques c a.tamArchivo then false
          else s.bitmap x } := by
  have hnec := cantidadDeBloques_nonneg (c := c) (Int.natCast_nonneg tamanio.toNat)
  unfold truncarArchivo
  rw [ha]
  simp only [Entero.aInt_of_lt htam]
  rw [if_neg (by omega), if_pos hmenos]
  congr 1
  funext x
  rw [foldl_desasignarBloque fun (i : ℕ) =>
    a.bloqueInicial + cantidadDeBloques c a.tamArchivo - i]
  · congr 1
    refine propext ⟨?_, ?_⟩
    · rintro ⟨i, hi, rfl⟩
      omega
    · rintro ⟨h₁, h₂⟩
      exact ⟨(a.bloqueInicial + cantidadDeBloques c a.tamArchivo - x).toNat, by omega, by omega⟩
  · intro i hi
    omega

/-- A truncation to fewer blocks leaves a sound disk when no other file starts right after the
blocks in use. -/
theorem sano_achicar {s : Estado} (hs : Sano c s) {nombre : String} {a : Archivo}
    (ha : s.archivos.valor nombre = some a) {tamanio : UInt32} {claves : List String}
    (htam : tamanio.toNat < 2 ^ 31)
    (hmenos : cantidadDeBloques c tamanio.toNat < cantidadDeBloques c a.tamArchivo)
    (hvecino : ∀ m b, m ≠ nombre → s.archivos.valor m = some b →
      b.bloqueInicial ≠ a.bloqueInicial + cantidadDeBloques c a.tamArchivo) :
    Sano c (truncarArchivo c s nombre tamanio claves) := by
  obtain ⟨h₀, hfin⟩ := hs.rango ha
  have hcount := c.blockCount_lt
  have hnec := cantidadDeBloques_nonneg (c := c) (Int.natCast_nonneg tamanio.toNat)
  have huso := propios_eq (c := c) (a := a) (by omega)
  rw [truncarArchivo_achicar ha htam hmenos h₀ (by omega)]
  have hpropios : (⟨a.bloqueInicial, (tamanio.toNat : ℤ)⟩ : Archivo).propios c ≤ a.propios c := by
    have := one_le_propios (c := c) a
    simp only [Archivo.propios] at huso this ⊢
    omega
  refine sano_update nombre (some { a with tamArchivo := tamanio.toNat }) hs
    rfl ?_ ?_ ?_ ?_ ?_
  · intro a' ha'
    obtain rfl : _ = a' := Option.some.inj ha'
    exact Int.natCast_nonneg _
  · intro a' ha'
    obtain rfl : _ = a' := Option.some.inj ha'
    exact ⟨h₀, by simp only; omega⟩
  · intro a' ha' x hx
    obtain rfl : _ = a' := Option.some.inj ha'
    obtain ⟨h₁, h₂⟩ := hx
    simp only [Archivo.propios] at h₁ h₂
    simp only
    rw [if_neg (by omega)]
    refine hs.bits ha x ⟨h₁, ?_⟩
    rw [huso]
    omega
  · intro m b hm hb x hx
    simp only
    rw [if_neg]
    · exact hs.bits hb x hx
    -- a block of another file that is cleared is the one after the blocks in use, and the other
    -- file starts there
    · rintro ⟨h₁, h₂⟩
      have hpropio : ∀ y, a.bloqueInicial ≤ y → y < a.bloqueInicial + a.propios c →
          ¬posee c b y := fun y hy hy' => hs.ajenos ha hb hm.symm y ⟨hy, hy'⟩
      have hx' := hpropio x (by omega)
      have hanterior := hpropio (x - 1) (by omega) (by omega)
      have hneb := hvecino m b hm hb
      obtain ⟨hb₁, hb₂⟩ := hx
      by_cases hult : x < a.bloqueInicial + a.propios c
      · exact hx' hult ⟨hb₁, hb₂⟩
      · refine hanterior ⟨?_, ?_⟩ <;> omega
  · intro a' ha' m b hm hb x hx
    obtain rfl : _ = a' := Option.some.inj ha'
    obtain ⟨h₁, h₂⟩ := hx
    exact hs.ajenos ha hb hm.symm x ⟨h₁, lt_of_lt_of_le h₂ (by simp only; omega)⟩

/-! ### Compaction -/

/-- The loop advances by the blocks the file owns. -/
theorem compactarPaso_bloqueActual (bloques : ℤ → UInt8) {k : Compactacion} {n : String}
    {a : Archivo} (hbs : 0 < c.blockSize) (ha : k.archivos.valor n = some a)
    (htam : 0 ≤ a.tamArchivo) :
    (compactarPaso c bloques k n).bloqueActual = k.bloqueActual + a.propios c := by
  have hcero := Entero.techo_eq_zero hbs htam
  have hpos := Entero.techo_nonneg (d := c.blockSize) htam
  rw [← cantidadDeBloques_eq_techo] at hcero hpos
  simp only [compactarPaso, ha, Archivo.propios]
  unfold cantidadDeBloques at hcero hpos ⊢
  by_cases hresto : a.tamArchivo.tmod c.blockSize = 0
  · by_cases hvacio : a.tamArchivo = 0
    · simp [hvacio]
    · simp [hresto, hvacio] at hcero hpos ⊢
      omega
  · have hne : a.tamArchivo ≠ 0 := fun h => hresto (by rw [h, Int.zero_tmod])
    simp [hresto] at hcero hpos ⊢
    omega

theorem compactarPaso_valor {bloques : ℤ → UInt8} {k : Compactacion} {n : String} {a : Archivo}
    (ha : k.archivos.valor n = some a) :
    (compactarPaso c bloques k n).archivos.valor =
      Function.update k.archivos.valor n (some { a with bloqueInicial := k.bloqueActual }) := by
  simp [compactarPaso, ha]

/-- Moving a file does not change the number of blocks it owns. -/
theorem compactarPaso_extension {bloques : ℤ → UInt8} {k : Compactacion} {n : String} :
    extension c (compactarPaso c bloques k n).archivos = extension c k.archivos := by
  funext m
  cases ha : k.archivos.valor n with
  | none => simp [compactarPaso, ha]
  | some a =>
      unfold extension
      rw [compactarPaso_valor ha]
      by_cases hm : m = n
      · subst hm
        simp [ha, Archivo.propios]
      · simp [hm]

theorem compactarPaso_bloques {bloques : ℤ → UInt8} {k : Compactacion} {n : String} {a : Archivo}
    (ha : k.archivos.valor n = some a) :
    (compactarPaso c bloques k n).bloquesCompactados =
      memcpy k.bloquesCompactados (k.bloqueActual * c.blockSize) bloques
        (a.bloqueInicial * c.blockSize) a.tamArchivo := by
  simp [compactarPaso, ha]

/-- The loop of `compactar`: the files of the list end up one after another from the block the loop
starts at, with the bytes they had; the others do not move. -/
theorem foldl_compactarPaso (hbs : 0 < c.blockSize) (bloques : ℤ → UInt8) :
    ∀ (ks : List String) (k : Compactacion), ks.Nodup →
      (∀ n ∈ ks, ∃ a, k.archivos.valor n = some a ∧ 0 ≤ a.tamArchivo) →
      (∀ n, (ks.foldl (compactarPaso c bloques) k).archivos.valor n =
        if n ∈ ks then (k.archivos.valor n).map fun a =>
          { a with
            bloqueInicial := k.bloqueActual + Extension.inicio (extension c k.archivos) ks n }
        else k.archivos.valor n) ∧
      (ks.foldl (compactarPaso c bloques) k).bloqueActual =
        k.bloqueActual + (ks.map (extension c k.archivos)).sum ∧
      (∀ n ∈ ks, ∀ a, k.archivos.valor n = some a → ∀ j, 0 ≤ j → j < a.tamArchivo →
        (ks.foldl (compactarPaso c bloques) k).bloquesCompactados
            ((k.bloqueActual + Extension.inicio (extension c k.archivos) ks n) * c.blockSize + j) =
          bloques (a.bloqueInicial * c.blockSize + j)) ∧
      ∀ x < k.bloqueActual * c.blockSize,
        (ks.foldl (compactarPaso c bloques) k).bloquesCompactados x = k.bloquesCompactados x := by
  intro ks
  induction ks with
  | nil =>
      intro k _ _
      simp
  | cons p ks ih =>
      intro k hnodup hks
      obtain ⟨hp, hnodup⟩ := List.nodup_cons.1 hnodup
      obtain ⟨a, ha, htam⟩ := hks p (by simp)
      have hbytes := tamArchivo_le hbs htam
      have havance := compactarPaso_bloqueActual bloques hbs ha htam
      have hmueve : (k.bloqueActual + a.propios c) * c.blockSize =
          k.bloqueActual * c.blockSize + a.propios c * c.blockSize := Int.add_mul _ _ _
      obtain ⟨hvalor, hfin, hcontenido, hantes⟩ := ih (compactarPaso c bloques k p) hnodup (by
        intro n hn
        have hne : n ≠ p := fun h => hp (h ▸ hn)
        rw [compactarPaso_valor ha, Function.update_of_ne hne]
        exact hks n (by simp [hn]))
      rw [compactarPaso_extension, havance] at hvalor hcontenido hfin
      rw [havance, hmueve] at hantes
      have hotro : ∀ n, n ≠ p → (k.bloqueActual + a.propios c +
          Extension.inicio (extension c k.archivos) ks n) =
            k.bloqueActual + Extension.inicio (extension c k.archivos) (p :: ks) n := by
        intro n hn
        rw [Extension.inicio_cons_of_ne (Ne.symm hn), extension_of_some ha]
        omega
      simp only [List.foldl_cons]
      refine ⟨?_, ?_, ?_, ?_⟩
      · intro n
        rw [hvalor, compactarPaso_valor ha]
        by_cases hn : n = p
        · subst hn
          simp [hp, ha]
        · simp only [Function.update_of_ne hn, List.mem_cons, hn, false_or, hotro n hn]
      · rw [hfin, List.map_cons, List.sum_cons, extension_of_some ha]
        omega
      · intro n hn b hb j hj₀ hj
        by_cases hnp : n = p
        · subst hnp
          obtain rfl : a = b := Option.some.inj (ha.symm.trans hb)
          rw [Extension.inicio_cons_self, Int.add_zero, hantes _ (by omega),
            compactarPaso_bloques ha, memcpy, if_pos ⟨by omega, by omega⟩]
          congr 1
          omega
        · have hn' : n ∈ ks := (List.mem_cons.1 hn).resolve_left hnp
          rw [← hotro n hnp]
          refine hcontenido n hn' b ?_ j hj₀ hj
          rw [compactarPaso_valor ha, Function.update_of_ne hnp]
          exact hb
      · intro x hx
        have hpos : 0 ≤ a.propios c * c.blockSize := by omega
        rw [hantes x (by omega), compactarPaso_bloques ha, memcpy, if_neg (by omega)]

/-- The blocks of the files other than `nombre`. -/
def bloquesDeOtros (c : Config) (s : Estado) (nombre : String) (claves : List String) : ℤ :=
  ((claves.erase nombre).map (extension c s.archivos)).sum

/-- Where a compaction puts a file other than `nombre`. -/
def inicioCompactado (c : Config) (s : Estado) (nombre : String) (claves : List String)
    (m : String) : ℤ :=
  Extension.inicio (extension c s.archivos) (claves.erase nombre) m

section Compactar

variable {s : Estado} {nombre : String} {a : Archivo} {claves : List String}

/-- The other names are the ones the loop goes through. -/
theorem mem_erase_claves (hclaves : claves.Perm s.archivos.claves) {m : String} :
    m ∈ claves.erase nombre ↔ m ≠ nombre ∧ s.archivos.valor m ≠ none := by
  have hnodup : claves.Nodup := hclaves.nodup_iff.2 s.archivos.nodup
  rw [hnodup.mem_erase_iff, hclaves.mem_iff, s.archivos.mem_claves]

theorem inicioCompactado_nonneg (m : String) : 0 ≤ inicioCompactado c s nombre claves m :=
  Extension.inicio_nonneg fun n _ => extension_nonneg s.archivos n

theorem bloquesDeOtros_nonneg : 0 ≤ bloquesDeOtros c s nombre claves := by
  refine List.sum_nonneg fun x hx => ?_
  obtain ⟨n, -, rfl⟩ := List.mem_map.1 hx
  exact extension_nonneg s.archivos n

/-- The other files end up before the one that grows. -/
theorem inicioCompactado_le (hclaves : claves.Perm s.archivos.claves) {m : String} {b : Archivo}
    (hm : m ≠ nombre) (hb : s.archivos.valor m = some b) :
    inicioCompactado c s nombre claves m + b.propios c ≤ bloquesDeOtros c s nombre claves := by
  rw [← extension_of_some hb]
  exact Extension.inicio_add_le_sum (fun n _ => extension_nonneg s.archivos n)
    ((mem_erase_claves hclaves).2 ⟨hm, by simp [hb]⟩)

theorem exists_archivo (hclaves : claves.Perm s.archivos.claves) {m : String}
    (hm : m ∈ claves.erase nombre) : ∃ b, s.archivos.valor m = some b :=
  Option.ne_none_iff_exists'.1 ((mem_erase_claves hclaves).1 hm).2

/-- The loop goes through each name once. -/
theorem nodup_erase_claves (hclaves : claves.Perm s.archivos.claves) :
    (claves.erase nombre).Nodup :=
  (hclaves.nodup_iff.2 s.archivos.nodup).erase nombre

section

variable (hbs : 0 < c.blockSize)
  (htamanios : ∀ {n b}, s.archivos.valor n = some b → 0 ≤ b.tamArchivo)

include hbs htamanios

/-- The loop of `compactar` stands behind the other files, which are one after another with the
bytes they had. -/
theorem compactar_bucle (nombre : String) (hclaves : claves.Perm s.archivos.claves) :
    ∃ k, (claves.erase nombre).foldl (compactarPaso c s.bloques) ⟨s.archivos, fun _ => 0, 0⟩ = k ∧
      k.bloqueActual = bloquesDeOtros c s nombre claves ∧
      (∀ m, m ≠ nombre → k.archivos.valor m = (s.archivos.valor m).map fun b =>
        { b with bloqueInicial := inicioCompactado c s nombre claves m }) ∧
      ∀ m b, m ≠ nombre → s.archivos.valor m = some b → ∀ j, 0 ≤ j → j < b.tamArchivo →
        k.bloquesCompactados (inicioCompactado c s nombre claves m * c.blockSize + j) =
          s.bloques (b.bloqueInicial * c.blockSize + j) := by
  obtain ⟨hvalor, hfin, hcontenido, -⟩ := foldl_compactarPaso hbs s.bloques
    (claves.erase nombre) ⟨s.archivos, fun _ => 0, 0⟩ (nodup_erase_claves hclaves) (by
      intro n hn
      obtain ⟨b, hb⟩ := exists_archivo hclaves hn
      exact ⟨b, hb, htamanios hb⟩)
  simp only [Int.zero_add] at hvalor hfin hcontenido
  refine ⟨_, rfl, hfin, ?_, ?_⟩
  · intro m hm
    rw [hvalor]
    split
    · rfl
    · rename_i hno
      cases hb : s.archivos.valor m with
      | none => rfl
      | some b => exact absurd ((mem_erase_claves hclaves).2 ⟨hm, by simp [hb]⟩) hno
  · intro m b hm hb
    exact hcontenido m ((mem_erase_claves hclaves).2 ⟨hm, by simp [hb]⟩) b hb

variable (ha : s.archivos.valor nombre = some a) (hclaves : claves.Perm s.archivos.claves)

include ha hclaves

theorem compactar_valor_self :
    (compactar c s nombre claves).archivos.valor nombre =
      some { a with bloqueInicial := bloquesDeOtros c s nombre claves } := by
  obtain ⟨k, hk, hfin, -⟩ := compactar_bucle hbs htamanios nombre hclaves
  simp only [compactar, ha, hk, hfin, Diccionario.poner_valor, Function.update_self]

theorem compactar_valor_of_ne {m : String} (hm : m ≠ nombre) :
    (compactar c s nombre claves).archivos.valor m =
      (s.archivos.valor m).map fun b =>
        { b with bloqueInicial := inicioCompactado c s nombre claves m } := by
  obtain ⟨k, hk, -, hvalor, -⟩ := compactar_bucle hbs htamanios nombre hclaves
  simp only [compactar, ha, hk, Diccionario.poner_valor, Function.update_of_ne hm, hvalor m hm]

/-- The bits below the end are set and the others of the disk are cleared. -/
theorem compactar_bitmap (x : ℤ) :
    (compactar c s nombre claves).bitmap x =
      if bloquesDeOtros c s nombre claves + cantidadDeBloques c a.tamArchivo ≤ x ∧
          x < c.blockCount then false
      else if 0 ≤ x ∧ x < bloquesDeOtros c s nombre claves + cantidadDeBloques c a.tamArchivo then
        true
      else s.bitmap x := by
  obtain ⟨k, hk, hfin, -⟩ := compactar_bucle hbs htamanios nombre hclaves
  have hfin' : (if a.tamArchivo.tmod c.blockSize ≠ 0 then
        bloquesDeOtros c s nombre claves + a.tamArchivo.tdiv c.blockSize + 1
      else bloquesDeOtros c s nombre claves + a.tamArchivo.tdiv c.blockSize) =
        bloquesDeOtros c s nombre claves + cantidadDeBloques c a.tamArchivo := by
    unfold cantidadDeBloques
    split <;> omega
  simp only [compactar, ha, hk, hfin]
  rw [hfin', foldl_update_desde]
  have hset := foldl_update_desde 0 true s.bitmap
    (bloquesDeOtros c s nombre claves + cantidadDeBloques c a.tamArchivo) x
  simp only [Int.zero_add] at hset
  rw [hset]
  congr 1
  exact propext ⟨fun h => ⟨h.1, by omega⟩, fun h => ⟨h.1, by omega⟩⟩

/-- The copy of the file that grows is made last. -/
theorem compactar_bloques_self {j : ℤ} (hj₀ : 0 ≤ j) (hj : j < a.tamArchivo) :
    (compactar c s nombre claves).bloques
        (bloquesDeOtros c s nombre claves * c.blockSize + j) =
      s.bloques (a.bloqueInicial * c.blockSize + j) := by
  obtain ⟨k, hk, hfin, -⟩ := compactar_bucle hbs htamanios nombre hclaves
  simp only [compactar, ha, hk, hfin]
  rw [memcpy, if_pos ⟨by omega, by omega⟩]
  congr 1
  omega

theorem compactar_bloques_of_ne {m : String} {b : Archivo} (hm : m ≠ nombre)
    (hb : s.archivos.valor m = some b) {j : ℤ} (hj₀ : 0 ≤ j) (hj : j < b.tamArchivo) :
    (compactar c s nombre claves).bloques
        (inicioCompactado c s nombre claves m * c.blockSize + j) =
      s.bloques (b.bloqueInicial * c.blockSize + j) := by
  obtain ⟨k, hk, hfin, -, hcontenido⟩ := compactar_bucle hbs htamanios nombre hclaves
  have hini : 0 ≤ inicioCompactado c s nombre claves m := inicioCompactado_nonneg m
  have hbytes := tamArchivo_le hbs (htamanios hb)
  -- the copy of the compacted files covers the byte, the copy of the grown file is behind it
  have hbs' : (0 : ℤ) ≤ c.blockSize := Int.natCast_nonneg _
  have hlimite := Int.mul_le_mul_of_nonneg_right
    (inicioCompactado_le (c := c) hclaves hm hb) hbs'
  rw [Int.add_mul] at hlimite
  have habajo := Int.mul_nonneg hini hbs'
  simp only [compactar, ha, hk, hfin]
  rw [memcpy, if_neg (by omega), memcpy, if_pos ⟨by omega, by omega⟩, Int.zero_add, Int.sub_zero]
  exact hcontenido m b hm hb j hj₀ hj

end

/-- What `compactar` leaves when no size is negative: the other files one after another, the file
that grows behind them, every file with the bytes it had, and exactly the bits below the end set. -/
theorem compactar_deja (hbs : 0 < c.blockSize)
    (htamanios : ∀ {n b}, s.archivos.valor n = some b → 0 ≤ b.tamArchivo)
    (ha : s.archivos.valor nombre = some a) (hclaves : claves.Perm s.archivos.claves) :
    (compactar c s nombre claves).archivos.valor nombre =
        some { a with bloqueInicial := bloquesDeOtros c s nombre claves } ∧
    (∀ m, m ≠ nombre → (compactar c s nombre claves).archivos.valor m =
        (s.archivos.valor m).map fun b =>
          { b with bloqueInicial := inicioCompactado c s nombre claves m }) ∧
    (∀ x, (compactar c s nombre claves).bitmap x =
      if bloquesDeOtros c s nombre claves + cantidadDeBloques c a.tamArchivo ≤ x ∧
          x < c.blockCount then false
      else if 0 ≤ x ∧ x < bloquesDeOtros c s nombre claves + cantidadDeBloques c a.tamArchivo then
        true
      else s.bitmap x) ∧
    (∀ m b b', s.archivos.valor m = some b →
      (compactar c s nombre claves).archivos.valor m = some b' → ∀ j, 0 ≤ j → j < b.tamArchivo →
        (compactar c s nombre claves).bloques (b'.bloqueInicial * c.blockSize + j) =
          s.bloques (b.bloqueInicial * c.blockSize + j)) := by
  refine ⟨compactar_valor_self hbs htamanios ha hclaves,
    fun m hm => compactar_valor_of_ne hbs htamanios ha hclaves hm,
    compactar_bitmap hbs htamanios ha hclaves, ?_⟩
  intro m b b' hb hb' j hj₀ hj
  by_cases hm : m = nombre
  · subst hm
    obtain rfl : a = b := Option.some.inj (ha.symm.trans hb)
    obtain rfl : _ = b' :=
      Option.some.inj ((compactar_valor_self hbs htamanios ha hclaves).symm.trans hb')
    exact compactar_bloques_self hbs htamanios ha hclaves hj₀ hj
  · rw [compactar_valor_of_ne hbs htamanios ha hclaves hm, hb] at hb'
    obtain rfl : _ = b' := Option.some.inj hb'
    exact compactar_bloques_of_ne hbs htamanios ha hclaves hm hb hj₀ hj

/-- A sound disk has no negative sizes. -/
theorem compactar_spec (hbs : 0 < c.blockSize) (hs : Sano c s)
    (ha : s.archivos.valor nombre = some a) (hclaves : claves.Perm s.archivos.claves) :
    (compactar c s nombre claves).archivos.valor nombre =
        some { a with bloqueInicial := bloquesDeOtros c s nombre claves } ∧
    (∀ m, m ≠ nombre → (compactar c s nombre claves).archivos.valor m =
        (s.archivos.valor m).map fun b =>
          { b with bloqueInicial := inicioCompactado c s nombre claves m }) ∧
    (∀ x, (compactar c s nombre claves).bitmap x =
      if bloquesDeOtros c s nombre claves + cantidadDeBloques c a.tamArchivo ≤ x ∧
          x < c.blockCount then false
      else if 0 ≤ x ∧ x < bloquesDeOtros c s nombre claves + cantidadDeBloques c a.tamArchivo then
        true
      else s.bitmap x) ∧
    (∀ m b b', s.archivos.valor m = some b →
      (compactar c s nombre claves).archivos.valor m = some b' → ∀ j, 0 ≤ j → j < b.tamArchivo →
        (compactar c s nombre claves).bloques (b'.bloqueInicial * c.blockSize + j) =
          s.bloques (b.bloqueInicial * c.blockSize + j)) :=
  compactar_deja hbs hs.tamanios ha hclaves

end Compactar

/-! ### Growing -/

section Agrandar

variable {s : Estado} {nombre : String} {a : Archivo} {claves : List String} {tamanio : UInt32}

/-- The test for contiguous blocks reads the file's own blocks, so it never succeeds on a file of a
sound disk. -/
theorem estanContiguos_eq_false (hs : Sano c s) (ha : s.archivos.valor nombre = some a) {n : ℤ}
    (hn : 0 < n) : estanContiguos s.bitmap a.bloqueInicial n = false := by
  have hprimero : s.bitmap a.bloqueInicial = true := by
    refine hs.bits ha _ ⟨le_rfl, ?_⟩
    have := one_le_propios (c := c) a
    omega
  unfold estanContiguos
  rw [List.all_eq_false]
  exact ⟨0, List.mem_range.2 (by omega), by simp [hprimero]⟩

/-- A truncation to more blocks that does not find them free compacts the disk, and then sets the
bits of the new blocks. -/
theorem truncarArchivo_compacta (hbs : 0 < c.blockSize)
    (htamanios : ∀ {n b}, s.archivos.valor n = some b → 0 ≤ b.tamArchivo)
    (ha : s.archivos.valor nombre = some a) (hclaves : claves.Perm s.archivos.claves)
    (htam : tamanio.toNat < 2 ^ 31)
    (hmas : cantidadDeBloques c a.tamArchivo < cantidadDeBloques c tamanio.toNat)
    (hcont : estanContiguos s.bitmap a.bloqueInicial (cantidadDeBloques c tamanio.toNat) = false) :
    truncarArchivo c s nombre tamanio claves =
      { compactar c s nombre claves with
        archivos := (compactar c s nombre claves).archivos.poner nombre
          { bloqueInicial := bloquesDeOtros c s nombre claves, tamArchivo := tamanio.toNat }
        bitmap := (List.range (cantidadDeBloques c tamanio.toNat -
            cantidadDeBloques c a.tamArchivo).toNat).foldl
          (fun b (i : ℕ) => Function.update b
            (bloquesDeOtros c s nombre claves + cantidadDeBloques c a.tamArchivo + i) true)
          (compactar c s nombre claves).bitmap } := by
  have hpropio := compactar_valor_self hbs htamanios ha hclaves
  unfold truncarArchivo
  rw [ha]
  simp only [Entero.aInt_of_lt htam, hcont]
  rw [if_pos hmas]
  simp [hpropio]

/-- The directory after a truncation that compacts: the file that grows starts behind the others. -/
theorem valor_compacta (hbs : 0 < c.blockSize)
    (htamanios : ∀ {n b}, s.archivos.valor n = some b → 0 ≤ b.tamArchivo)
    (ha : s.archivos.valor nombre = some a) (hclaves : claves.Perm s.archivos.claves)
    {m : String} {b' : Archivo}
    (hb' : ((compactar c s nombre claves).archivos.poner nombre
      ⟨bloquesDeOtros c s nombre claves, tamanio.toNat⟩).valor m = some b') :
    (m = nombre ∧ b' = ⟨bloquesDeOtros c s nombre claves, tamanio.toNat⟩) ∨
    (m ≠ nombre ∧ ∃ b, s.archivos.valor m = some b ∧
      b' = { b with bloqueInicial := inicioCompactado c s nombre claves m }) := by
  by_cases hm : m = nombre
  · subst hm
    exact Or.inl ⟨rfl, by simpa using hb'.symm⟩
  · rw [Diccionario.poner_valor, Function.update_of_ne hm,
      compactar_valor_of_ne hbs htamanios ha hclaves hm, Option.map_eq_some_iff] at hb'
    obtain ⟨b, hb, rfl⟩ := hb'
    exact Or.inr ⟨hm, b, hb, rfl⟩

/-- And the bits of the disk: those below its end are set, and no others. -/
theorem bitmap_compacta (hbs : 0 < c.blockSize)
    (htamanios : ∀ {n b}, s.archivos.valor n = some b → 0 ≤ b.tamArchivo)
    (ha : s.archivos.valor nombre = some a) (hclaves : claves.Perm s.archivos.claves)
    (hmas : cantidadDeBloques c a.tamArchivo < cantidadDeBloques c tamanio.toNat)
    {x : ℤ} (h₀ : 0 ≤ x) (hx : x < c.blockCount) :
    ((List.range (cantidadDeBloques c tamanio.toNat - cantidadDeBloques c a.tamArchivo).toNat).foldl
        (fun b (i : ℕ) => Function.update b
          (bloquesDeOtros c s nombre claves + cantidadDeBloques c a.tamArchivo + i) true)
        (compactar c s nombre claves).bitmap) x =
      decide (x < bloquesDeOtros c s nombre claves + cantidadDeBloques c tamanio.toNat) := by
  have huso := cantidadDeBloques_nonneg (c := c) (htamanios ha)
  rw [foldl_update_desde, compactar_bitmap hbs htamanios ha hclaves]
  by_cases hfin : x < bloquesDeOtros c s nombre claves + cantidadDeBloques c tamanio.toNat
  · rw [decide_eq_true hfin]
    split
    · rfl
    · rw [if_neg (by omega), if_pos (by omega)]
  · rw [decide_eq_false hfin, if_neg (by omega), if_pos (by omega)]

/-- On a sound disk a truncation to more blocks always compacts. -/
theorem truncarArchivo_agrandar (hbs : 0 < c.blockSize) (hs : Sano c s)
    (ha : s.archivos.valor nombre = some a) (hclaves : claves.Perm s.archivos.claves)
    (htam : tamanio.toNat < 2 ^ 31)
    (hmas : cantidadDeBloques c a.tamArchivo < cantidadDeBloques c tamanio.toNat) :
    truncarArchivo c s nombre tamanio claves =
      { compactar c s nombre claves with
        archivos := (compactar c s nombre claves).archivos.poner nombre
          { bloqueInicial := bloquesDeOtros c s nombre claves, tamArchivo := tamanio.toNat }
        bitmap := (List.range (cantidadDeBloques c tamanio.toNat -
            cantidadDeBloques c a.tamArchivo).toNat).foldl
          (fun b (i : ℕ) => Function.update b
            (bloquesDeOtros c s nombre claves + cantidadDeBloques c a.tamArchivo + i) true)
          (compactar c s nombre claves).bitmap } := by
  have huso := cantidadDeBloques_nonneg (c := c) (hs.tamanios ha)
  exact truncarArchivo_compacta hbs hs.tamanios ha hclaves htam hmas
    (estanContiguos_eq_false hs ha (huso.trans_lt hmas))

theorem sano_agrandar (hbs : 0 < c.blockSize) (hs : Sano c s)
    (ha : s.archivos.valor nombre = some a) (hclaves : claves.Perm s.archivos.claves)
    (htam : tamanio.toNat < 2 ^ 31)
    (hmas : cantidadDeBloques c a.tamArchivo < cantidadDeBloques c tamanio.toNat)
    (hcabe : bloquesDeOtros c s nombre claves + cantidadDeBloques c tamanio.toNat ≤
      c.blockCount) :
    Sano c (truncarArchivo c s nombre tamanio claves) := by
  have huso := cantidadDeBloques_nonneg (c := c) (hs.tamanios ha)
  have hB : 0 ≤ bloquesDeOtros c s nombre claves := bloquesDeOtros_nonneg
  have hnuevo := propios_eq (c := c)
    (a := ⟨bloquesDeOtros c s nombre claves, (tamanio.toNat : ℤ)⟩) (huso.trans_lt hmas)
  rw [truncarArchivo_agrandar hbs hs ha hclaves htam hmas]
  have hentrada : ∀ {m b'}, ((compactar c s nombre claves).archivos.poner nombre
      ⟨bloquesDeOtros c s nombre claves, tamanio.toNat⟩).valor m = some b' → _ :=
    valor_compacta hbs hs.tamanios ha hclaves
  -- every block of the others is before the grown file
  have hantes : ∀ {m b}, m ≠ nombre → s.archivos.valor m = some b →
      ∀ x, posee c { b with bloqueInicial := inicioCompactado c s nombre claves m } x →
        0 ≤ x ∧ x < bloquesDeOtros c s nombre claves := by
    intro m b hm hb x hx
    have hini : 0 ≤ inicioCompactado c s nombre claves m := inicioCompactado_nonneg m
    have hlugar := inicioCompactado_le (c := c) hclaves hm hb
    obtain ⟨h₁, h₂⟩ := hx
    simp only [Archivo.propios] at h₁ h₂ hlugar
    omega
  refine ⟨?_, ?_, ?_, ?_⟩
  · intro m b' hb'
    rcases hentrada hb' with ⟨-, rfl⟩ | ⟨-, b, hb, rfl⟩
    · exact Int.natCast_nonneg _
    · exact hs.tamanios (a := b) hb
  · intro m b' hb'
    rcases hentrada hb' with ⟨-, rfl⟩ | ⟨hm, b, hb, rfl⟩
    · exact ⟨hB, by simp only [hnuevo]; omega⟩
    · have hlugar := inicioCompactado_le (c := c) hclaves hm hb
      refine ⟨inicioCompactado_nonneg m, ?_⟩
      simp only [Archivo.propios] at hlugar ⊢
      omega
  · intro m b' hb' x hx
    have hrango : 0 ≤ x ∧ x < bloquesDeOtros c s nombre claves +
        cantidadDeBloques c tamanio.toNat := by
      rcases hentrada hb' with ⟨-, rfl⟩ | ⟨hm, b, hb, rfl⟩
      · obtain ⟨h₁, h₂⟩ := hx
        rw [hnuevo] at h₂
        simp only at h₁ h₂
        omega
      · have := hantes hm hb x hx
        omega
    simp only
    rw [bitmap_compacta hbs hs.tamanios ha hclaves hmas hrango.1 (by omega)]
    exact decide_eq_true hrango.2
  · intro m n b' d' hb' hd' hne x hx hx'
    rcases hentrada hb' with ⟨rfl, rfl⟩ | ⟨hm, b, hb, rfl⟩
    · rcases hentrada hd' with ⟨rfl, -⟩ | ⟨hn, d, hd, rfl⟩
      · exact hne rfl
      · have := hantes hn hd x hx'
        obtain ⟨h₁, -⟩ := hx
        simp only at h₁
        omega
    · rcases hentrada hd' with ⟨rfl, rfl⟩ | ⟨hn, d, hd, rfl⟩
      · have := hantes hm hb x hx
        obtain ⟨h₁, -⟩ := hx'
        simp only at h₁
        omega
      · have hdisj := Extension.disjuntas (fun k _ => extension_nonneg (c := c) s.archivos k)
          ((mem_erase_claves hclaves).2 ⟨hm, by simp [hb]⟩)
          ((mem_erase_claves hclaves).2 ⟨hn, by simp [hd]⟩) hne
        rw [extension_of_some hb, extension_of_some hd] at hdisj
        obtain ⟨h₁, h₂⟩ := hx
        obtain ⟨h₃, h₄⟩ := hx'
        simp only [Archivo.propios, inicioCompactado] at h₁ h₂ h₃ h₄ hdisj
        omega

end Agrandar

/-! ### Runs -/

/-- A truncation of a file has a size that an `int` can hold, and one to fewer blocks finds no
other file right after the blocks in use. -/
def SinVecino (c : Config) (s : Estado) : Evento → Prop
  | .truncar nombre tamanio _ =>
      ∀ a ∈ s.archivos.valor nombre, tamanio.toNat < 2 ^ 31 ∧
        (cantidadDeBloques c tamanio.toNat < cantidadDeBloques c a.tamArchivo →
          ∀ m ∈ s.archivos.claves, m ≠ nombre → ∀ b ∈ s.archivos.valor m,
            b.bloqueInicial ≠ a.bloqueInicial + cantidadDeBloques c a.tamArchivo)
  | _ => True

instance (s : Estado) : DecidablePred (SinVecino c s)
  | .truncar nombre _ _ => inferInstanceAs (Decidable (∀ a ∈ s.archivos.valor nombre, _ ∧ _))
  | .crear _ | .eliminar _ | .escribir _ _ _ | .leer _ _ _ => .isTrue trivial

/-- A truncation to as many blocks as are in use changes nothing. -/
theorem truncarArchivo_igual {s : Estado} {nombre : String} {a : Archivo} {tamanio : UInt32}
    {claves : List String} (ha : s.archivos.valor nombre = some a) (htam : tamanio.toNat < 2 ^ 31)
    (higual : cantidadDeBloques c tamanio.toNat = cantidadDeBloques c a.tamArchivo) :
    truncarArchivo c s nombre tamanio claves = s := by
  unfold truncarArchivo
  rw [ha]
  simp only [Entero.aInt_of_lt htam]
  rw [if_neg (by omega), if_neg (by omega)]

theorem truncarArchivo_of_none {s : Estado} {nombre : String} {tamanio : UInt32}
    {claves : List String} (ha : s.archivos.valor nombre = none) :
    truncarArchivo c s nombre tamanio claves = s := by
  simp [truncarArchivo, ha]

theorem bloques_le_of_cabe {s : Estado} {nombre : String} {a : Archivo} {tamanio : UInt32}
    {claves : List String} (ha : s.archivos.valor nombre = some a)
    (hcabe : cabe c s nombre tamanio claves = true)
    (hmas : cantidadDeBloques c a.tamArchivo < cantidadDeBloques c tamanio.toNat) :
    bloquesDeOtros c s nombre claves + cantidadDeBloques c tamanio.toNat ≤ c.blockCount := by
  simp only [cabe, ha, Bool.or_eq_true, decide_eq_true_eq] at hcabe
  exact hcabe.resolve_left (by omega)

/-- On a disk whose size is an `int`, a size that fits is one. -/
theorem tamanio_lt_of_cabe (hbs : 0 < c.blockSize) (hdisco : c.blockCount * c.blockSize < 2 ^ 31)
    {s : Estado} {nombre : String} {a : Archivo} {tamanio : UInt32} {claves : List String}
    (ha : s.archivos.valor nombre = some a) (hpropios : a.propios c ≤ c.blockCount)
    (hcabe : cabe c s nombre tamanio claves = true) :
    cantidadDeBloques c tamanio.toNat ≤ c.blockCount ∧ tamanio.toNat < 2 ^ 31 := by
  have hnec : cantidadDeBloques c tamanio.toNat ≤ c.blockCount := by
    rcases le_or_gt (cantidadDeBloques c tamanio.toNat) (cantidadDeBloques c a.tamArchivo)
      with hno | hmas
    · exact (hno.trans (cantidadDeBloques_le_propios a)).trans hpropios
    · have hB : 0 ≤ bloquesDeOtros c s nombre claves := bloquesDeOtros_nonneg
      have hentra := bloques_le_of_cabe ha hcabe hmas
      omega
  refine ⟨hnec, ?_⟩
  rw [cantidadDeBloques_eq_techo,
    Entero.techo_le_iff hbs (Int.natCast_nonneg tamanio.toNat)] at hnec
  have hdisco' : (c.blockCount : ℤ) * c.blockSize < 2 ^ 31 := by exact_mod_cast hdisco
  omega

/-- A truncation that meets the condition keeps the disk sound. -/
theorem sano_truncarArchivo (hbs : 0 < c.blockSize) {s : Estado} (hs : Sano c s) {nombre : String}
    {tamanio : UInt32} {claves : List String} (hclaves : claves.Perm s.archivos.claves)
    (hcabe : cabe c s nombre tamanio claves = true)
    (hC : SinVecino c s (.truncar nombre tamanio claves)) :
    Sano c (truncarArchivo c s nombre tamanio claves) := by
  cases ha : s.archivos.valor nombre with
  | none =>
      rw [truncarArchivo_of_none ha]
      exact hs
  | some a =>
      obtain ⟨htam, hvecino⟩ := hC a ha
      rcases lt_trichotomy (cantidadDeBloques c tamanio.toNat) (cantidadDeBloques c a.tamArchivo)
        with hmenos | higual | hmas
      · refine sano_achicar hs ha htam hmenos fun m b hm hb => ?_
        exact hvecino hmenos m (s.archivos.mem_claves.2 (by simp [hb])) hm b hb
      · rw [truncarArchivo_igual ha htam higual]
        exact hs
      · exact sano_agrandar hbs hs ha hclaves htam hmas (bloques_le_of_cabe ha hcabe hmas)

/-- One request that meets the condition keeps the disk sound. -/
theorem sano_paso (hbs : 0 < c.blockSize) {s s' : Estado} {e : Evento} (hs : Sano c s)
    (hC : SinVecino c s e) (h : (sistema c).paso s e s') : Sano c s' := by
  obtain ⟨hadm, hatender⟩ := h
  cases e with
  | crear nombre =>
      obtain rfl : _ = s' := Option.some.inj hatender
      exact sano_crearArchivo hs hadm.2
  | eliminar nombre =>
      obtain rfl : _ = s' := Option.some.inj hatender
      exact sano_eliminarArchivo hs nombre
  | truncar nombre tamanio claves =>
      obtain rfl : _ = s' := Option.some.inj hatender
      exact sano_truncarArchivo hbs hs hadm.1 hadm.2 hC
  | escribir nombre pos datos =>
      obtain ⟨a, -, rfl⟩ := Option.map_eq_some_iff.1 hatender
      exact ⟨hs.tamanios, hs.rango, hs.bits, hs.ajenos⟩
  | leer nombre pos leido =>
      obtain ⟨-, rfl⟩ := atender_leer hatender
      exact hs

theorem sano_alcanzable (hbs : 0 < c.blockSize) {s : Estado}
    (h : Transicion.AlcanzableCon (sistema c) (SinVecino c) s) : Sano c s := by
  refine h.invariante ?_ ?_
  · rintro s rfl
    exact sano_inicial
  · intro s e s' hs hC hpaso
    exact sano_paso hbs hs hC hpaso

/-- In every run whose shrinking truncations find no other file right after the blocks in use,
every owned block is a block of the disk with its bit set, and different files own different
blocks. -/
theorem disco_sano (hbs : 0 < c.blockSize) (_ : 8 ∣ c.blockCount) {s : Estado}
    (h : Transicion.AlcanzableCon (sistema c) (SinVecino c) s) {n : String} {a : Archivo}
    (ha : s.archivos.valor n = some a) :
    (∀ x, posee c a x → 0 ≤ x ∧ x < c.blockCount ∧ s.bitmap x = true) ∧
    ∀ m b, m ≠ n → s.archivos.valor m = some b → ∀ x, posee c a x → ¬posee c b x := by
  have hs := sano_alcanzable hbs h
  refine ⟨fun x hx => ?_, fun m b hm hb => hs.ajenos ha hb hm.symm⟩
  obtain ⟨h₀, hfin⟩ := hs.rango ha
  have hbit := hs.bits ha x hx
  obtain ⟨h₁, h₂⟩ := hx
  exact ⟨by omega, by omega, hbit⟩

/-! ### Two runs -/

/-- A disk of eight blocks of sixteen bytes. -/
def discoChico : Config where
  blockSize := 16
  blockCount := 8
  blockCount_lt := by decide

/-- One request that meets a condition. -/
def intentar (c : Config) (C : Estado → Evento → Bool) (s : Estado) (e : Evento) :
    Option Estado :=
  if e.admisible c s ∧ C s e = true then atender c s e else none

theorem paso_of_intentar {C : Estado → Evento → Bool} {s s' : Estado} {e : Evento}
    (h : intentar c C s e = some s') : C s e = true ∧ (sistema c).paso s e s' := by
  unfold intentar at h
  split at h
  · rename_i hadm
    exact ⟨hadm.2, hadm.1, h⟩
  · cases h

/-- A file grows to two blocks, another one is created behind it, and the first goes back to one
block after the second has grown away. -/
def achicaSinVecino : Estado :=
  Transicion.estadoTras (intentar discoChico fun s e => decide (SinVecino discoChico s e))
    estadoInicial
    [.crear "a", .crear "b", .truncar "a" 32 ["b", "a"], .crear "d",
      .truncar "d" 17 ["d", "a", "b"], .truncar "d" 16 ["a", "d", "b"]] (by decide +kernel)

theorem disco_sano_achicaSinVecino :
    (∀ x, posee discoChico ⟨3, 16⟩ x → 0 ≤ x ∧ x < 8 ∧ achicaSinVecino.bitmap x = true) ∧
    ∀ x, posee discoChico ⟨3, 16⟩ x → ¬posee discoChico ⟨0, 32⟩ x := by
  have halc : Transicion.AlcanzableCon (sistema discoChico) (SinVecino discoChico)
      achicaSinVecino := by
    refine Transicion.alcanzableCon_estadoTras ?_ rfl _
    intro s e s' h
    obtain ⟨hC, hpaso⟩ := paso_of_intentar h
    exact ⟨of_decide_eq_true hC, hpaso⟩
  obtain ⟨hbits, hajenos⟩ := disco_sano (by decide) (by decide) halc (n := "d")
    (a := ⟨3, 16⟩) (by decide +kernel)
  exact ⟨hbits, hajenos "a" ⟨0, 32⟩ (by decide) (by decide +kernel)⟩

/-- A file that has grown to two blocks goes back to one while another file starts right after
it, and a fourth file is created. -/
def achicaConVecino : Estado :=
  Transicion.estadoTras (intentar discoChico fun _ _ => true) estadoInicial
    [.crear "a", .crear "b", .truncar "a" 32 ["a", "b"], .crear "c",
      .truncar "a" 16 ["a", "b", "c"], .crear "d"] (by decide +kernel)

/-- The third and the fourth file own the same block. -/
theorem disco_no_sano :
    ¬∀ (c : Config) (s : Estado), 0 < c.blockSize → 8 ∣ c.blockCount →
      Transicion.Alcanzable (sistema c) s → ∀ n a m b, s.archivos.valor n = some a →
        s.archivos.valor m = some b → m ≠ n → ∀ x, posee c a x → ¬posee c b x := by
  intro h
  have halc : Transicion.Alcanzable (sistema discoChico) achicaConVecino :=
    Transicion.alcanzableCon_estadoTras (fun _ _ _ h => ⟨trivial, (paso_of_intentar h).2⟩) rfl _
  exact h discoChico achicaConVecino (by decide) (by decide) halc "c" ⟨3, 0⟩ "d" ⟨3, 0⟩
    (by decide +kernel) (by decide +kernel) (by decide) 3 (by decide) (by decide)

end DialFs
