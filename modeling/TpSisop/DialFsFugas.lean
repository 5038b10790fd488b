/-
**Leaks of the DialFS disk: blocks marked in use that no file owns.**

An empty file has one block, but deleting counts blocks from the size alone, and so gives back none
of an empty file; a file created under a name that exists replaces the entry and leaves its blocks
behind; and shrinking starts to clear one block too far and so stops one block too early, except
when the file ends up empty and the block left over is the one it keeps.  A compaction, on the other
hand, takes back whatever had leaked.  This module proves that those three requests are the only
ones that leak: the requests here are all that complete, under any name and wherever a write falls,
so that files may also come to share blocks.

Main definitions:

* `DialFs.Evento.completa`, `DialFs.sistemaLibre` — the interface with every request that completes;
* `DialFs.Acotado` — first blocks and sizes stay in bounds;
* `DialFs.SinFugas` — every set bit is of a block that a file owns;
* `DialFs.Devuelve` — the condition on a step.

Main results:

* `DialFs.acotado_paso` — every request keeps the bounds;
* `DialFs.disco_sin_fugas` — no block leaks in the runs that meet the condition;
* `DialFs.fuga_of_not_devuelve` — on a sound disk a step that does not meet it leaks a block.
-/

import TpSisop.DialFsInvariante

set_option relaxedAutoImplicit false
set_option autoImplicit false

namespace DialFs

open Entero (aInt aUint32)
open Coleccion (Diccionario)

/-! ### Every request that completes -/

/-- The file exists, and the range `[pos, pos + n)` from its beginning on is inside the disk. -/
def enDisco (c : Config) (s : Estado) (nombre : String) (pos n : ℕ) : Bool :=
  match s.archivos.valor nombre with
  | none => false
  | some a => decide (a.bloqueInicial * c.blockSize + pos + n ≤ c.blockCount * c.blockSize)

/-- The requests that complete: a file is created, under any name, while there is a free block; a
file grows when the blocks owned afterwards fit in the disk; and reads and writes find the file and
stay inside the disk, though not always inside the file. -/
def Evento.completa (c : Config) (s : Estado) : Evento → Prop
  | .crear _ => bloqueLibre c s.bitmap ≠ -1
  | .eliminar _ => True
  | .truncar nombre tamanio claves =>
      claves.Perm s.archivos.claves ∧ cabe c s nombre tamanio claves = true
  | .escribir nombre pos datos => enDisco c s nombre pos datos.length = true
  | .leer nombre pos leido => enDisco c s nombre pos leido.length = true

instance (c : Config) (s : Estado) : DecidablePred (Evento.completa c s)
  | .crear _ => inferInstanceAs (Decidable (_ ≠ _))
  | .eliminar _ => .isTrue trivial
  | .truncar _ _ _ => inferInstanceAs (Decidable (_ ∧ _))
  | .escribir _ _ _ => inferInstanceAs (Decidable (_ = _))
  | .leer _ _ _ => inferInstanceAs (Decidable (_ = _))

/-- The interface, started on an empty disk, with every request that completes. -/
def sistemaLibre (c : Config) : Transicion.Sistema Estado Evento where
  inicial s := s = estadoInicial
  paso s e s' := e.completa c s ∧ atender c s e = some s'

variable {c : Config}

/-! ### Bounds -/

/-- Sizes are not negative, and neither the first block nor the number of blocks of a file is larger
than the disk. -/
structure Acotado (c : Config) (s : Estado) : Prop where
  tamanios : ∀ {n a}, s.archivos.valor n = some a → 0 ≤ a.tamArchivo
  rango : ∀ {n a}, s.archivos.valor n = some a →
    0 ≤ a.bloqueInicial ∧ a.bloqueInicial < c.blockCount ∧ a.propios c ≤ c.blockCount

/-- What changes one entry, or none, keeps the bounds if the new entry meets them. -/
theorem acotado_update {s s' : Estado} (nombre : String) (t : Option Archivo) (hs : Acotado c s)
    (harch : s'.archivos.valor = Function.update s.archivos.valor nombre t)
    (ht : ∀ a ∈ t, 0 ≤ a.tamArchivo ∧
      0 ≤ a.bloqueInicial ∧ a.bloqueInicial < c.blockCount ∧ a.propios c ≤ c.blockCount) :
    Acotado c s' := by
  have hentrada : ∀ {n a}, s'.archivos.valor n = some a → a ∈ t ∨ s.archivos.valor n = some a := by
    intro n a h
    rw [harch] at h
    exact (Coleccion.update_eq_some h).imp And.right And.right
  refine ⟨fun h => ?_, fun h => ?_⟩
  · exact (hentrada h).elim (fun ha => (ht _ ha).1) hs.tamanios
  · exact (hentrada h).elim (fun ha => (ht _ ha).2) hs.rango

/-- A truncation to more blocks that finds them free takes them where they are. -/
theorem truncarArchivo_enLugar {s : Estado} {nombre : String} {a : Archivo} {tamanio : UInt32}
    {claves : List String} (ha : s.archivos.valor nombre = some a) (htam : tamanio.toNat < 2 ^ 31)
    (hmas : cantidadDeBloques c a.tamArchivo < cantidadDeBloques c tamanio.toNat)
    (hcont : estanContiguos s.bitmap a.bloqueInicial (cantidadDeBloques c tamanio.toNat) = true) :
    truncarArchivo c s nombre tamanio claves =
      { s with
        archivos := s.archivos.poner nombre { a with tamArchivo := tamanio.toNat }
        bitmap := fun x =>
          if a.bloqueInicial + cantidadDeBloques c a.tamArchivo ≤ x ∧
            x < a.bloqueInicial + cantidadDeBloques c tamanio.toNat then true
          else s.bitmap x } := by
  unfold truncarArchivo
  rw [ha]
  simp only [Entero.aInt_of_lt htam, hcont]
  rw [if_pos hmas]
  simp only [ha, if_true]
  congr 1
  funext x
  rw [foldl_update_desde]
  congr 1
  refine propext ⟨?_, ?_⟩ <;> rintro ⟨h₁, h₂⟩ <;> exact ⟨by omega, by omega⟩

section

variable {s : Estado} {nombre : String} {a : Archivo} {tamanio : UInt32} {claves : List String}

/-- The file a creation adds, on the block that was free. -/
theorem crearArchivo_eq (hlibre : bloqueLibre c s.bitmap ≠ -1) :
    crearArchivo c s nombre =
      { s with
        archivos := s.archivos.poner nombre ⟨bloqueLibre c s.bitmap, 0⟩
        bitmap := Function.update s.bitmap (bloqueLibre c s.bitmap) true } := by
  obtain ⟨h₀, hlt, -⟩ := bloqueLibre_spec hlibre
  have hcount := c.blockCount_lt
  have hint : aInt (bloqueLibre c s.bitmap).toNat = bloqueLibre c s.bitmap := by
    rw [Entero.aInt_of_lt (by omega)]
    omega
  simp only [crearArchivo, asignarBloque_of_libre hlibre, hint]

/-- What a deletion clears: as many blocks as the size needs. -/
theorem eliminarArchivo_eq (hs : Acotado c s) (ha : s.archivos.valor nombre = some a) :
    eliminarArchivo c s nombre =
      { s with
        archivos := s.archivos.quitar nombre
        bitmap := fun x =>
          if a.bloqueInicial ≤ x ∧ x < a.bloqueInicial + cantidadDeBloques c a.tamArchivo then false
          else s.bitmap x } := by
  obtain ⟨h₀, hini, hfin⟩ := hs.rango ha
  have hcount := c.blockCount_lt
  have hprop := cantidadDeBloques_le_propios (c := c) a
  simp only [eliminarArchivo, ha]
  congr 1
  funext x
  rw [foldl_desasignarBloque fun (i : ℕ) => a.bloqueInicial + i]
  · congr 1
    refine propext ⟨?_, ?_⟩
    · rintro ⟨i, hi, rfl⟩
      omega
    · rintro ⟨h₁, h₂⟩
      exact ⟨(x - a.bloqueInicial).toNat, by omega, by omega⟩
  · intro i hi
    omega

theorem propios_vacio (b : ℤ) : Archivo.propios c ⟨b, 0⟩ = 1 := by
  simp [Archivo.propios, cantidadDeBloques]

theorem acotado_crearArchivo (hs : Acotado c s) (hlibre : bloqueLibre c s.bitmap ≠ -1) :
    Acotado c (crearArchivo c s nombre) := by
  obtain ⟨h₀, hlt, -⟩ := bloqueLibre_spec hlibre
  rw [crearArchivo_eq hlibre]
  refine acotado_update nombre (some ⟨bloqueLibre c s.bitmap, 0⟩) hs rfl fun a ha => ?_
  obtain rfl : _ = a := Option.some.inj ha
  rw [propios_vacio]
  exact ⟨le_rfl, h₀, hlt, by omega⟩

theorem acotado_eliminarArchivo (hs : Acotado c s) : Acotado c (eliminarArchivo c s nombre) := by
  cases ha : s.archivos.valor nombre with
  | none => simpa [eliminarArchivo, ha] using hs
  | some a =>
      rw [eliminarArchivo_eq hs ha]
      exact acotado_update nombre none hs rfl (by simp)

/-- A new size with as many blocks as fit keeps the bounds. -/
theorem acotado_poner {s' : Estado} (hs : Acotado c s) (ha : s.archivos.valor nombre = some a)
    (hnec : cantidadDeBloques c tamanio.toNat ≤ c.blockCount)
    (hvalor : s'.archivos = s.archivos.poner nombre { a with tamArchivo := tamanio.toNat }) :
    Acotado c s' := by
  obtain ⟨h₀, hini, hfin⟩ := hs.rango ha
  refine acotado_update nombre (some { a with tamArchivo := tamanio.toNat }) hs
    (by rw [hvalor]; rfl) fun b hb => ?_
  obtain rfl : _ = b := Option.some.inj hb
  refine ⟨Int.natCast_nonneg _, h₀, hini, ?_⟩
  have := one_le_propios (c := c) a
  simp only [Archivo.propios] at this hfin ⊢
  omega

theorem acotado_truncarArchivo (hbs : 0 < c.blockSize)
    (hdisco : c.blockCount * c.blockSize < 2 ^ 31) (hs : Acotado c s)
    (hclaves : claves.Perm s.archivos.claves) (hcabe : cabe c s nombre tamanio claves = true) :
    Acotado c (truncarArchivo c s nombre tamanio claves) := by
  cases ha : s.archivos.valor nombre with
  | none =>
      rw [truncarArchivo_of_none ha]
      exact hs
  | some a =>
      obtain ⟨hnec, htam⟩ := tamanio_lt_of_cabe hbs hdisco ha (hs.rango ha).2.2 hcabe
      obtain ⟨h₀, hini, hfin⟩ := hs.rango ha
      have hcount := c.blockCount_lt
      have huso := cantidadDeBloques_le_propios (c := c) a
      rcases lt_trichotomy (cantidadDeBloques c tamanio.toNat) (cantidadDeBloques c a.tamArchivo)
        with hmenos | higual | hmas
      · rw [truncarArchivo_achicar ha htam hmenos h₀ (by omega)]
        exact acotado_poner hs ha hnec rfl
      · rw [truncarArchivo_igual ha htam higual]
        exact hs
      cases hcont : estanContiguos s.bitmap a.bloqueInicial (cantidadDeBloques c tamanio.toNat) with
      | true =>
          rw [truncarArchivo_enLugar ha htam hmas hcont]
          exact acotado_poner hs ha hnec rfl
      | false =>
          have hB : 0 ≤ bloquesDeOtros c s nombre claves := bloquesDeOtros_nonneg
          have hentra := bloques_le_of_cabe ha hcabe hmas
          have hpos := cantidadDeBloques_nonneg (c := c) (hs.tamanios ha)
          rw [truncarArchivo_compacta hbs hs.tamanios ha hclaves htam hmas hcont]
          refine ⟨fun {m b'} h => ?_, fun {m b'} h => ?_⟩
          · rcases valor_compacta hbs hs.tamanios ha hclaves h with ⟨-, rfl⟩ | ⟨-, b, hb, rfl⟩
            · exact Int.natCast_nonneg _
            · exact hs.tamanios (a := b) hb
          · rcases valor_compacta hbs hs.tamanios ha hclaves h with ⟨-, rfl⟩ | ⟨hm, b, hb, rfl⟩
            · rw [propios_eq (hpos.trans_lt hmas)]
              exact ⟨hB, by simp only; omega, hnec⟩
            · have hlugar := inicioCompactado_le (c := c) hclaves hm hb
              have hpropios := one_le_propios (c := c) b
              exact ⟨inicioCompactado_nonneg m, by simp only; omega, (hs.rango hb).2.2⟩

end

/-- One request that completes keeps the bounds. -/
theorem acotado_paso (hbs : 0 < c.blockSize) (hdisco : c.blockCount * c.blockSize < 2 ^ 31)
    {s s' : Estado} {e : Evento} (hs : Acotado c s) (h : (sistemaLibre c).paso s e s') :
    Acotado c s' := by
  obtain ⟨hcompleta, hatender⟩ := h
  cases e with
  | crear nombre =>
      obtain rfl : _ = s' := Option.some.inj hatender
      exact acotado_crearArchivo hs hcompleta
  | eliminar nombre =>
      obtain rfl : _ = s' := Option.some.inj hatender
      exact acotado_eliminarArchivo hs
  | truncar nombre tamanio claves =>
      obtain rfl : _ = s' := Option.some.inj hatender
      exact acotado_truncarArchivo hbs hdisco hs hcompleta.1 hcompleta.2
  | escribir nombre pos datos =>
      obtain ⟨a, -, rfl⟩ := Option.map_eq_some_iff.1 hatender
      exact ⟨hs.tamanios, hs.rango⟩
  | leer nombre pos leido =>
      obtain ⟨-, rfl⟩ := atender_leer hatender
      exact hs

/-! ### Leaks -/

/-- Every set bit of the bitmap is of a block that some file owns. -/
def SinFugas (c : Config) (s : Estado) : Prop :=
  ∀ x : ℤ, 0 ≤ x → x < c.blockCount → s.bitmap x = true →
    ∃ n a, s.archivos.valor n = some a ∧ posee c a x

/-- Nothing leaks when one entry changes, if every set bit is of the new file or was set before and
not of the old one. -/
theorem sinFugas_update {s s' : Estado} (nombre : String) (t : Option Archivo) (hs : SinFugas c s)
    (harch : s'.archivos.valor = Function.update s.archivos.valor nombre t)
    (hbits : ∀ x, s'.bitmap x = true → (∃ a ∈ t, posee c a x) ∨
      (s.bitmap x = true ∧ ∀ a, s.archivos.valor nombre = some a → ¬posee c a x)) :
    SinFugas c s' := by
  intro x h₀ hx hset
  rcases hbits x hset with ⟨a, ha, hposee⟩ | ⟨hantes, hviejo⟩
  · refine ⟨nombre, a, ?_, hposee⟩
    rw [harch, Function.update_self]
    exact ha
  · obtain ⟨n, a, ha, hposee⟩ := hs x h₀ hx hantes
    have hn : n ≠ nombre := by
      rintro rfl
      exact hviejo a ha hposee
    exact ⟨n, a, by rw [harch, Function.update_of_ne hn, ha], hposee⟩

/-- A file is created under a new name, a file that is deleted is not empty, and one that shrinks in
blocks ends up empty. -/
def Devuelve (c : Config) (s : Estado) : Evento → Prop
  | .crear nombre => s.archivos.valor nombre = none
  | .eliminar nombre => ∀ a ∈ s.archivos.valor nombre, a.tamArchivo ≠ 0
  | .truncar nombre tamanio _ =>
      ∀ a ∈ s.archivos.valor nombre,
        cantidadDeBloques c tamanio.toNat < cantidadDeBloques c a.tamArchivo → tamanio = 0
  | _ => True

instance (c : Config) (s : Estado) : DecidablePred (Devuelve c s)
  | .crear _ => inferInstanceAs (Decidable (_ = _))
  | .eliminar nombre => inferInstanceAs (Decidable (∀ a ∈ s.archivos.valor nombre, _ ≠ _))
  | .truncar nombre _ _ => inferInstanceAs (Decidable (∀ a ∈ s.archivos.valor nombre, _ → _))
  | .escribir _ _ _ | .leer _ _ _ => .isTrue trivial

section

variable {s : Estado} {nombre : String} {a : Archivo} {tamanio : UInt32} {claves : List String}

theorem sinFugas_crearArchivo (hs : SinFugas c s) (hlibre : bloqueLibre c s.bitmap ≠ -1)
    (hnuevo : s.archivos.valor nombre = none) : SinFugas c (crearArchivo c s nombre) := by
  rw [crearArchivo_eq hlibre]
  refine sinFugas_update nombre (some ⟨bloqueLibre c s.bitmap, 0⟩) hs rfl fun x hset => ?_
  by_cases hx : x = bloqueLibre c s.bitmap
  · refine Or.inl ⟨_, rfl, ?_⟩
    rw [posee, propios_vacio]
    exact ⟨hx.ge, by simp only; omega⟩
  · refine Or.inr ⟨?_, fun a ha => ?_⟩
    · simpa [hx] using hset
    · rw [hnuevo] at ha
      cases ha

theorem cantidad_pos (hbs : 0 < c.blockSize) {n : ℤ} (h₀ : 0 ≤ n) (h : n ≠ 0) :
    0 < cantidadDeBloques c n := by
  have hpos := cantidadDeBloques_nonneg (c := c) h₀
  have hcero := Entero.techo_eq_zero hbs h₀
  rw [← cantidadDeBloques_eq_techo] at hcero
  omega

theorem sinFugas_eliminarArchivo (hbs : 0 < c.blockSize) (ht : Acotado c s) (hs : SinFugas c s)
    (hC : Devuelve c s (.eliminar nombre)) : SinFugas c (eliminarArchivo c s nombre) := by
  cases ha : s.archivos.valor nombre with
  | none => simpa [eliminarArchivo, ha] using hs
  | some a =>
      have hpropios := propios_eq (cantidad_pos hbs (ht.tamanios ha) (hC a ha))
      rw [eliminarArchivo_eq ht ha]
      refine sinFugas_update nombre none hs rfl fun x hset => Or.inr ?_
      by_cases hx : a.bloqueInicial ≤ x ∧ x < a.bloqueInicial + cantidadDeBloques c a.tamArchivo
      · simp [hx] at hset
      · refine ⟨by simpa [hx] using hset, fun b hb hposee => hx ?_⟩
        obtain rfl : a = b := Option.some.inj (ha.symm.trans hb)
        rw [← hpropios]
        exact hposee

/-- A file that shrinks to nothing keeps its first block and gives back the others. -/
theorem sinFugas_vaciar (ht : Acotado c s) (hs : SinFugas c s)
    (ha : s.archivos.valor nombre = some a)
    (hmenos : cantidadDeBloques c (0 : UInt32).toNat < cantidadDeBloques c a.tamArchivo) :
    SinFugas c (truncarArchivo c s nombre 0 claves) := by
  have hcero : cantidadDeBloques c (0 : UInt32).toNat = 0 := by
    simp [cantidadDeBloques]
  rw [hcero] at hmenos
  obtain ⟨h₀, hini, hfin⟩ := ht.rango ha
  have hcount := c.blockCount_lt
  have hpropios := propios_eq hmenos
  rw [truncarArchivo_achicar ha (by decide) (by rw [hcero]; exact hmenos) h₀ (by omega), hcero]
  refine sinFugas_update nombre (some { a with tamArchivo := (0 : UInt32).toNat }) hs rfl
    fun x hset => ?_
  by_cases hx : x = a.bloqueInicial
  · refine Or.inl ⟨_, rfl, ?_⟩
    have := propios_vacio (c := c) a.bloqueInicial
    exact ⟨hx.ge, by simp only; change x < _ + Archivo.propios c ⟨a.bloqueInicial, 0⟩; omega⟩
  · simp only [Bool.ite_eq_true_distrib, Bool.false_eq_true, if_false_left] at hset
    refine Or.inr ⟨hset.2, fun b hb hposee => hset.1 ?_⟩
    obtain rfl : a = b := Option.some.inj (ha.symm.trans hb)
    obtain ⟨h₁, h₂⟩ := hposee
    omega

/-- A file that grows where it is sets the bits of the blocks it takes. -/
theorem sinFugas_enLugar (ht : Acotado c s) (hs : SinFugas c s)
    (ha : s.archivos.valor nombre = some a) (htam : tamanio.toNat < 2 ^ 31)
    (hmas : cantidadDeBloques c a.tamArchivo < cantidadDeBloques c tamanio.toNat)
    (hcont : estanContiguos s.bitmap a.bloqueInicial (cantidadDeBloques c tamanio.toNat) = true) :
    SinFugas c (truncarArchivo c s nombre tamanio claves) := by
  have huso := cantidadDeBloques_nonneg (c := c) (ht.tamanios ha)
  have hnuevo := propios_eq (c := c) (a := { a with tamArchivo := tamanio.toNat })
    (huso.trans_lt hmas)
  rw [truncarArchivo_enLugar ha htam hmas hcont]
  refine sinFugas_update nombre (some { a with tamArchivo := tamanio.toNat }) hs rfl
    fun x hset => ?_
  by_cases hposee : posee c { a with tamArchivo := (tamanio.toNat : ℤ) } x
  · exact Or.inl ⟨_, rfl, hposee⟩
  · rw [posee, hnuevo] at hposee
    simp only at hposee hset
    rw [if_neg (by omega)] at hset
    refine Or.inr ⟨hset, fun b hb hviejo => hposee ?_⟩
    obtain rfl : a = b := Option.some.inj (ha.symm.trans hb)
    obtain ⟨h₁, h₂⟩ := hviejo
    have hpropios : a.propios c ≤ cantidadDeBloques c tamanio.toNat :=
      max_le (by omega) hmas.le
    exact ⟨h₁, by omega⟩

/-- A compaction takes back every block that had leaked. -/
theorem sinFugas_compacta (hbs : 0 < c.blockSize) (ht : Acotado c s)
    (ha : s.archivos.valor nombre = some a) (hclaves : claves.Perm s.archivos.claves)
    (htam : tamanio.toNat < 2 ^ 31)
    (hmas : cantidadDeBloques c a.tamArchivo < cantidadDeBloques c tamanio.toNat)
    (hcont : estanContiguos s.bitmap a.bloqueInicial (cantidadDeBloques c tamanio.toNat) = false) :
    SinFugas c (truncarArchivo c s nombre tamanio claves) := by
  have huso := cantidadDeBloques_nonneg (c := c) (ht.tamanios ha)
  have hnuevo := propios_eq (c := c)
    (a := ⟨bloquesDeOtros c s nombre claves, (tamanio.toNat : ℤ)⟩) (huso.trans_lt hmas)
  rw [truncarArchivo_compacta hbs ht.tamanios ha hclaves htam hmas hcont]
  intro x h₀ hx hset
  simp only at hset
  rw [bitmap_compacta hbs ht.tamanios ha hclaves hmas h₀ hx, decide_eq_true_eq] at hset
  by_cases hotro : x < bloquesDeOtros c s nombre claves
  · -- below the file that grows, the other files leave no gap
    obtain ⟨m, hm, h₁, h₂⟩ := Extension.exists_of_lt_sum
      (fun n _ => extension_nonneg (c := c) s.archivos n) (nodup_erase_claves hclaves) h₀ hotro
    obtain ⟨hne, hsome⟩ := (mem_erase_claves hclaves).1 hm
    obtain ⟨b, hb⟩ := Option.ne_none_iff_exists'.1 hsome
    rw [extension_of_some hb] at h₂
    refine ⟨m, { b with bloqueInicial := inicioCompactado c s nombre claves m }, ?_, h₁, h₂⟩
    rw [Diccionario.poner_valor, Function.update_of_ne hne,
      compactar_valor_of_ne hbs ht.tamanios ha hclaves hne, hb]
    rfl
  · refine ⟨nombre, ⟨bloquesDeOtros c s nombre claves, tamanio.toNat⟩, by simp, ?_⟩
    exact ⟨not_lt.1 hotro, by rw [hnuevo]; exact hset⟩

theorem sinFugas_truncarArchivo (hbs : 0 < c.blockSize)
    (hdisco : c.blockCount * c.blockSize < 2 ^ 31) (ht : Acotado c s) (hs : SinFugas c s)
    (hclaves : claves.Perm s.archivos.claves) (hcabe : cabe c s nombre tamanio claves = true)
    (hC : Devuelve c s (.truncar nombre tamanio claves)) :
    SinFugas c (truncarArchivo c s nombre tamanio claves) := by
  cases ha : s.archivos.valor nombre with
  | none =>
      rw [truncarArchivo_of_none ha]
      exact hs
  | some a =>
      obtain ⟨-, htam⟩ := tamanio_lt_of_cabe hbs hdisco ha (ht.rango ha).2.2 hcabe
      rcases lt_trichotomy (cantidadDeBloques c tamanio.toNat) (cantidadDeBloques c a.tamArchivo)
        with hmenos | higual | hmas
      · obtain rfl := hC a ha hmenos
        exact sinFugas_vaciar ht hs ha hmenos
      · rw [truncarArchivo_igual ha htam higual]
        exact hs
      cases hcont : estanContiguos s.bitmap a.bloqueInicial (cantidadDeBloques c tamanio.toNat) with
      | true => exact sinFugas_enLugar ht hs ha htam hmas hcont
      | false => exact sinFugas_compacta hbs ht ha hclaves htam hmas hcont

end

/-- One request that meets the condition leaks no block. -/
theorem sinFugas_paso (hbs : 0 < c.blockSize) (hdisco : c.blockCount * c.blockSize < 2 ^ 31)
    {s s' : Estado} {e : Evento} (ht : Acotado c s) (hs : SinFugas c s) (hC : Devuelve c s e)
    (h : (sistemaLibre c).paso s e s') : SinFugas c s' := by
  obtain ⟨hcompleta, hatender⟩ := h
  cases e with
  | crear nombre =>
      obtain rfl : _ = s' := Option.some.inj hatender
      exact sinFugas_crearArchivo hs hcompleta hC
  | eliminar nombre =>
      obtain rfl : _ = s' := Option.some.inj hatender
      exact sinFugas_eliminarArchivo hbs ht hs hC
  | truncar nombre tamanio claves =>
      obtain rfl : _ = s' := Option.some.inj hatender
      exact sinFugas_truncarArchivo hbs hdisco ht hs hcompleta.1 hcompleta.2 hC
  | escribir nombre pos datos =>
      obtain ⟨a, -, rfl⟩ := Option.map_eq_some_iff.1 hatender
      exact hs
  | leer nombre pos leido =>
      obtain ⟨-, rfl⟩ := atender_leer hatender
      exact hs

/-- In every run that creates files under new names, deletes no empty file and shrinks files only to
nothing, every set bit is of a block that a file of the directory owns. -/
theorem disco_sin_fugas (hbs : 0 < c.blockSize) (hdisco : c.blockCount * c.blockSize < 2 ^ 31)
    {s : Estado} (h : Transicion.AlcanzableCon (sistemaLibre c) (Devuelve c) s) :
    ∀ x : ℤ, 0 ≤ x → x < c.blockCount → s.bitmap x = true →
      ∃ n a, s.archivos.valor n = some a ∧
        a.bloqueInicial ≤ x ∧ x < a.bloqueInicial + max 1 (cantidadDeBloques c a.tamArchivo) := by
  suffices hinv : Acotado c s ∧ SinFugas c s from hinv.2
  refine h.invariante (I := fun s => Acotado c s ∧ SinFugas c s) ?_ ?_
  · rintro s rfl
    refine ⟨⟨fun ha => ?_, fun ha => ?_⟩, fun x _ _ hset => ?_⟩
    · cases ha
    · cases ha
    · cases hset
  · intro s e s' ⟨ht, hs⟩ hC hpaso
    exact ⟨acotado_paso hbs hdisco ht hpaso, sinFugas_paso hbs hdisco ht hs hC hpaso⟩

/-! ### The other requests leak -/

theorem Sano.acotado {s : Estado} (hs : Sano c s) : Acotado c s := by
  refine ⟨hs.tamanios, fun {n a} ha => ?_⟩
  obtain ⟨h₀, hfin⟩ := hs.rango ha
  have hpropios := one_le_propios (c := c) a
  exact ⟨h₀, by omega, by omega⟩

/-- A block of a file of a sound disk leaks when its bit stays set and the file does not own it. -/
theorem not_sinFugas_of_posee {s s' : Estado} (hs : Sano c s) {nombre : String} {a : Archivo}
    (ha : s.archivos.valor nombre = some a) (t : Option Archivo)
    (harch : s'.archivos.valor = Function.update s.archivos.valor nombre t) {x : ℤ}
    (hx : posee c a x) (hset : s'.bitmap x = true) (ht : ∀ b ∈ t, ¬posee c b x) :
    ¬SinFugas c s' := by
  intro hsin
  obtain ⟨h₀, hfin⟩ := hs.rango ha
  obtain ⟨h₁, h₂⟩ := hx
  obtain ⟨n, b, hb, hposee⟩ := hsin x (by omega) (by omega) hset
  rw [harch] at hb
  by_cases hn : n = nombre
  · subst hn
    rw [Function.update_self] at hb
    exact ht b hb hposee
  · rw [Function.update_of_ne hn] at hb
    exact hs.ajenos ha hb (Ne.symm hn) x ⟨h₁, h₂⟩ hposee

/-- On a sound disk, every request that does not meet the condition leaks a block. -/
theorem fuga_of_not_devuelve (hbs : 0 < c.blockSize) (hdisco : c.blockCount * c.blockSize < 2 ^ 31)
    {s s' : Estado} {e : Evento} (hs : Sano c s) (hC : ¬Devuelve c s e)
    (h : (sistemaLibre c).paso s e s') : ¬SinFugas c s' := by
  have htot := hs.acotado
  obtain ⟨hcompleta, hatender⟩ := h
  cases e with
  | crear nombre =>
      obtain rfl : _ = s' := Option.some.inj hatender
      obtain ⟨a, ha⟩ := Option.ne_none_iff_exists'.1 hC
      obtain ⟨-, -, hclear⟩ := bloqueLibre_spec hcompleta
      -- the first block of the old file
      have hprimero : posee c a a.bloqueInicial := ⟨le_rfl, by
        have := one_le_propios (c := c) a
        omega⟩
      have hset := hs.bits ha _ hprimero
      have hne : a.bloqueInicial ≠ bloqueLibre c s.bitmap := by
        intro heq
        rw [heq, hclear] at hset
        cases hset
      rw [crearArchivo_eq hcompleta]
      refine not_sinFugas_of_posee hs ha (some ⟨bloqueLibre c s.bitmap, 0⟩) rfl hprimero ?_ ?_
      · simpa [hne] using hset
      · intro b hb hposee
        obtain rfl : _ = b := Option.some.inj hb
        rw [posee, propios_vacio] at hposee
        simp only at hposee
        omega
  | eliminar nombre =>
      obtain rfl : _ = s' := Option.some.inj hatender
      simp only [Devuelve, not_forall, not_not] at hC
      obtain ⟨a, ha, hvacio⟩ := hC
      have hprimero : posee c a a.bloqueInicial := ⟨le_rfl, by
        have := one_le_propios (c := c) a
        omega⟩
      rw [eliminarArchivo_eq htot ha]
      refine not_sinFugas_of_posee hs ha none rfl hprimero ?_ (by simp)
      simp [hvacio, cantidadDeBloques, hs.bits ha _ hprimero]
  | truncar nombre tamanio claves =>
      obtain rfl : _ = s' := Option.some.inj hatender
      simp only [Devuelve, not_forall] at hC
      obtain ⟨a, ha, hmenos, htam₀⟩ := hC
      obtain ⟨-, htam⟩ := tamanio_lt_of_cabe hbs hdisco ha (htot.rango ha).2.2 hcompleta.2
      obtain ⟨h₀, hini, hfin⟩ := htot.rango ha
      have hcount := c.blockCount_lt
      have huso := cantidadDeBloques_le_propios (c := c) a
      have hnec : 0 < cantidadDeBloques c tamanio.toNat := by
        refine cantidad_pos hbs (Int.natCast_nonneg _) fun h => htam₀ ?_
        exact UInt32.toNat_inj.1 (Int.natCast_eq_zero.1 h)
      have hresto : posee c a (a.bloqueInicial + cantidadDeBloques c tamanio.toNat) :=
        ⟨by omega, by omega⟩
      have hnuevo := propios_eq (c := c) (a := { a with tamArchivo := tamanio.toNat }) hnec
      rw [truncarArchivo_achicar ha htam hmenos h₀ (by omega)]
      refine not_sinFugas_of_posee hs ha (some { a with tamArchivo := tamanio.toNat }) rfl hresto
        ?_ ?_
      · simp [hs.bits ha _ hresto]
      · intro b hb hposee
        obtain rfl : _ = b := Option.some.inj hb
        rw [posee, hnuevo] at hposee
        simp only at hposee
        omega
  | escribir nombre pos datos => exact absurd trivial hC
  | leer nombre pos leido => exact absurd trivial hC

/-! ### Two runs -/

/-- One request that completes and meets a condition. -/
def intentarLibre (c : Config) (C : Estado → Evento → Bool) (s : Estado) (e : Evento) :
    Option Estado :=
  if e.completa c s ∧ C s e = true then atender c s e else none

theorem paso_of_intentarLibre {C : Estado → Evento → Bool} {s s' : Estado} {e : Evento}
    (h : intentarLibre c C s e = some s') : C s e = true ∧ (sistemaLibre c).paso s e s' := by
  unfold intentarLibre at h
  split at h
  · rename_i hcompleta
    exact ⟨hcompleta.2, hcompleta.1, h⟩
  · cases h

/-- A file grows, empties and grows again while another one is created and deleted behind it. -/
def creceYVacia : Estado :=
  Transicion.estadoTras (intentarLibre discoChico fun s e => decide (Devuelve discoChico s e))
    estadoInicial
    [.crear "a", .truncar "a" 40 ["a"], .crear "b", .truncar "b" 17 ["b", "a"],
      .truncar "a" 0 ["a", "b"], .truncar "a" 20 ["b", "a"], .eliminar "b"] (by decide +kernel)

theorem disco_sin_fugas_creceYVacia : ∃ n a, creceYVacia.archivos.valor n = some a ∧
    a.bloqueInicial ≤ 3 ∧
      3 < a.bloqueInicial + max 1 (cantidadDeBloques discoChico a.tamArchivo) := by
  have halc : Transicion.AlcanzableCon (sistemaLibre discoChico) (Devuelve discoChico)
      creceYVacia := by
    refine Transicion.alcanzableCon_estadoTras ?_ rfl _
    intro s e s' h
    obtain ⟨hC, hpaso⟩ := paso_of_intentarLibre h
    exact ⟨of_decide_eq_true hC, hpaso⟩
  exact disco_sin_fugas (by decide) (by decide) halc 3 (by decide) (by decide) (by decide +kernel)

/-- A file is created and deleted. -/
def creadoYBorrado : Estado :=
  Transicion.estadoTras (intentarLibre discoChico fun _ _ => true) estadoInicial
    [.crear "a", .eliminar "a"] (by decide +kernel)

/-- Its block stays marked, in a directory without files. -/
theorem creadoYBorrado_fuga :
    ¬∀ (c : Config) (s : Estado), 0 < c.blockSize → c.blockCount * c.blockSize < 2 ^ 31 →
      Transicion.Alcanzable (sistemaLibre c) s → ∀ x : ℤ, 0 ≤ x → x < c.blockCount →
        s.bitmap x = true → ∃ n a, s.archivos.valor n = some a ∧ a.bloqueInicial ≤ x ∧
          x < a.bloqueInicial + max 1 (cantidadDeBloques c a.tamArchivo) := by
  intro h
  have halc : Transicion.Alcanzable (sistemaLibre discoChico) creadoYBorrado :=
    Transicion.alcanzableCon_estadoTras (fun _ _ _ h => ⟨trivial, (paso_of_intentarLibre h).2⟩)
      rfl _
  obtain ⟨n, a, ha, -⟩ := h discoChico creadoYBorrado (by decide) (by decide) halc 0 (by decide)
    (by decide) (by decide +kernel)
  have hclaves : creadoYBorrado.archivos.claves = [] := by decide +kernel
  have hn := creadoYBorrado.archivos.mem_claves.2
    (by simp [ha] : creadoYBorrado.archivos.valor n ≠ none)
  rw [hclaves] at hn
  cases hn

end DialFs
