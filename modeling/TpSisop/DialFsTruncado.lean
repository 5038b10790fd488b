/-
**What a truncation of a DialFS file does to its size, and when it compacts.**

A truncation chooses among its three branches by numbers of blocks: more of them, fewer, or as many.
With as many it says that the file has the size asked for already, and leaves it as it was, though
the two sizes may still differ inside the last block.  To grow, it looks for free blocks from the
first block of the file on, so it meets the file's own bits first, and a file with the whole disk
free behind it seems to have no room.  This module proves which truncations leave the size that was
asked for, and that growing compacts always, and so only when it has to just where it has to.

Main definitions:

* `DialFs.Truncado` — what a truncation should leave;
* `DialFs.truncarArchivoConLlamadas` — the truncation, and the calls of `compactar` it makes;
* `DialFs.HayQueCompactar` — a block that the file needs is in use, or beyond the disk;
* `DialFs.CompactaLoJusto` — a truncation compacts only when it has to.

Main results:

* `DialFs.truncado_iff` — which truncations leave what they should;
* `DialFs.compactaLoJusto_iff` — which ones compact only when they have to.
-/

import TpSisop.DialFsCompactacion
import TpSisop.DialFsContenido

set_option relaxedAutoImplicit false
set_option autoImplicit false

namespace DialFs

open Entero (aInt)
open Coleccion (Diccionario)

variable {c : Config} {s s' : Estado} {nombre : String} {a : Archivo} {tamanio : UInt32}
  {claves : List String}

/-! ### The size and the bytes -/

/-- What a truncation of `nombre` should leave: the file with the new size and the bytes that both
sizes reach, and every other file as it was. -/
structure Truncado (c : Config) (s s' : Estado) (nombre : String) (tamanio : UInt32) : Prop where
  nombres : ∀ m, s'.archivos.valor m = none ↔ s.archivos.valor m = none
  propio : ∀ {a}, s.archivos.valor nombre = some a →
    ∃ a', s'.archivos.valor nombre = some a' ∧ a'.tamArchivo = tamanio.toNat ∧
      ∀ j, 0 ≤ j → j < min a.tamArchivo tamanio.toNat →
        s'.bloques (a'.bloqueInicial * c.blockSize + j) =
          s.bloques (a.bloqueInicial * c.blockSize + j)
  otros : ∀ {m b}, m ≠ nombre → s.archivos.valor m = some b →
    ∃ b', s'.archivos.valor m = some b' ∧ Conserva c s s' b b'

/-- A disk that is left as it was is right when the file had the size. -/
theorem truncado_refl_iff (ha : s.archivos.valor nombre = some a) :
    Truncado c s s nombre tamanio ↔ (tamanio.toNat : ℤ) = a.tamArchivo := by
  constructor
  · intro h
    obtain ⟨a', ha', htam, -⟩ := h.propio ha
    obtain rfl : a = a' := Option.some.inj (ha.symm.trans ha')
    exact htam.symm
  · intro htam
    refine ⟨fun _ => Iff.rfl, fun {a'} ha' => ?_, fun {m b} _ hb => ?_⟩
    · obtain rfl : a = a' := Option.some.inj (ha.symm.trans ha')
      exact ⟨a, ha, htam.symm, fun _ _ _ => rfl⟩
    · exact ⟨b, hb, rfl, fun _ _ _ => rfl⟩

/-- Where only the size of the file is written, nothing else changes. -/
theorem truncado_poner (ha : s.archivos.valor nombre = some a)
    (harch : s'.archivos = s.archivos.poner nombre { a with tamArchivo := tamanio.toNat })
    (hbloques : s'.bloques = s.bloques) : Truncado c s s' nombre tamanio := by
  refine ⟨fun m => ?_, fun {a'} ha' => ?_, fun {m b} hm hb => ?_⟩
  · rw [harch, Diccionario.poner_valor]
    by_cases hm : m = nombre
    · subst hm
      simp [ha]
    · rw [Function.update_of_ne hm]
  · obtain rfl : a = a' := Option.some.inj (ha.symm.trans ha')
    refine ⟨{ a with tamArchivo := tamanio.toNat }, ?_, rfl, fun j _ _ => by rw [hbloques]⟩
    rw [harch, Diccionario.poner_valor, Function.update_self]
  · refine ⟨b, ?_, rfl, fun j _ _ => by rw [hbloques]⟩
    rw [harch, Diccionario.poner_valor, Function.update_of_ne hm, hb]

/-- A file that grows is moved behind the others, and no byte is lost on the way. -/
theorem truncado_agrandar (hbs : 0 < c.blockSize) (hs : Sano c s)
    (ha : s.archivos.valor nombre = some a) (hclaves : claves.Perm s.archivos.claves)
    (htam : tamanio.toNat < 2 ^ 31)
    (hmas : cantidadDeBloques c a.tamArchivo < cantidadDeBloques c tamanio.toNat) :
    Truncado c s (truncarArchivo c s nombre tamanio claves) nombre tamanio := by
  have hcompactado := compactar_correcta hbs hs.repartido ha hclaves
  rw [truncarArchivo_agrandar hbs hs ha hclaves htam hmas]
  refine ⟨fun m => ?_, fun {a'} ha' => ?_, fun {m b} hm hb => ?_⟩
  · simp only [Diccionario.poner_valor]
    by_cases hm : m = nombre
    · subst hm
      simp [ha]
    · rw [Function.update_of_ne hm]
      exact hcompactado.nombres m
  · obtain rfl : a = a' := Option.some.inj (ha.symm.trans ha')
    refine ⟨⟨bloquesDeOtros c s nombre claves, tamanio.toNat⟩, ?_, rfl, fun j h₀ hj => ?_⟩
    · rw [Diccionario.poner_valor, Function.update_self]
    · obtain ⟨b', hb', -, hbytes⟩ := hcompactado.archivos ha
      have hlugar := hcompactado.ultimo hb'
      rw [← hlugar]
      exact hbytes j h₀ (hj.trans_le (min_le_left _ _))
  · obtain ⟨b', hb', hconserva⟩ := hcompactado.archivos hb
    refine ⟨b', ?_, hconserva⟩
    rw [Diccionario.poner_valor, Function.update_of_ne hm, hb']

/-- **Which truncations leave what they should**: all that fit in the disk, except those to another
size with the same number of blocks. -/
theorem truncado_iff (hbs : 0 < c.blockSize) (hdisco : c.blockCount * c.blockSize < 2 ^ 31)
    (hs : Sano c s) (ha : s.archivos.valor nombre = some a)
    (hclaves : claves.Perm s.archivos.claves) (hcabe : cabe c s nombre tamanio claves = true) :
    Truncado c s (truncarArchivo c s nombre tamanio claves) nombre tamanio ↔
      (cantidadDeBloques c tamanio.toNat = cantidadDeBloques c a.tamArchivo →
        (tamanio.toNat : ℤ) = a.tamArchivo) := by
  have htam := tamanio_lt hbs hdisco hs ha hcabe
  obtain ⟨h₀, hfin⟩ := hs.rango ha
  have hcount := c.blockCount_lt
  have huso := cantidadDeBloques_le_propios (c := c) a
  rcases lt_trichotomy (cantidadDeBloques c tamanio.toNat) (cantidadDeBloques c a.tamArchivo)
    with hmenos | higual | hmas
  · refine iff_of_true ?_ fun h => absurd h hmenos.ne
    rw [truncarArchivo_achicar ha htam hmenos h₀ (by omega)]
    exact truncado_poner ha rfl rfl
  · rw [truncarArchivo_igual ha htam higual, truncado_refl_iff ha]
    exact ⟨fun h _ => h, fun h => h higual⟩
  · refine iff_of_true ?_ fun h => absurd h hmas.ne'
    exact truncado_agrandar hbs hs ha hclaves htam hmas

/-! ### The calls of `compactar` -/

/-- `truncarArchivo`, and the names with which it calls `compactar`. -/
def truncarArchivoConLlamadas (c : Config) (s : Estado) (nombreArchivo : String) (tamanio : UInt32)
    (claves : List String) : Estado × List String :=
  match s.archivos.valor nombreArchivo with
  | none => (s, [])
  | some archivo =>
      let tam := aInt tamanio.toNat
      let necesarios := cantidadDeBloques c tam
      let enUso := cantidadDeBloques c archivo.tamArchivo
      let haySuficientes := estanContiguos s.bitmap archivo.bloqueInicial necesarios
      let crecer (s' : Estado) (llamadas : List String) : Estado × List String :=
        match s'.archivos.valor nombreArchivo with
        | none => (s', llamadas)
        | some archivo' =>
            ({ s' with
                archivos := s'.archivos.poner nombreArchivo { archivo' with tamArchivo := tam }
                bitmap := (List.range (necesarios - enUso).toNat).foldl
                  (fun b (i : ℕ) => Function.update b (archivo'.bloqueInicial + enUso + i) true)
                  s'.bitmap }, llamadas)
      if necesarios > enUso then
        if haySuficientes then crecer s []
        else crecer (compactar c s nombreArchivo claves) [nombreArchivo]
      else if necesarios < enUso then
        ({ s with
            archivos := s.archivos.poner nombreArchivo { archivo with tamArchivo := tam }
            bitmap := (List.range (enUso - necesarios).toNat).foldl
              (fun b (i : ℕ) => desasignarBloque b (archivo.bloqueInicial + enUso - i)) s.bitmap },
          [])
      else (s, [])

/-- Writing down the calls does not change what the truncation leaves; there is one call, to grow
where the test for contiguous blocks fails. -/
theorem truncarArchivoConLlamadas_eq (ha : s.archivos.valor nombre = some a) :
    truncarArchivoConLlamadas c s nombre tamanio claves =
      (truncarArchivo c s nombre tamanio claves,
        if cantidadDeBloques c (aInt tamanio.toNat) > cantidadDeBloques c a.tamArchivo then
          if estanContiguos s.bitmap a.bloqueInicial (cantidadDeBloques c (aInt tamanio.toNat)) then
            []
          else [nombre]
        else []) := by
  unfold truncarArchivoConLlamadas truncarArchivo
  rw [ha]
  simp only
  by_cases hmas : cantidadDeBloques c (aInt tamanio.toNat) > cantidadDeBloques c a.tamArchivo
  · rw [if_pos hmas, if_pos hmas, if_pos hmas]
    cases hcont : estanContiguos s.bitmap a.bloqueInicial
        (cantidadDeBloques c (aInt tamanio.toNat)) with
    | true => simp only [if_true, ha]
    | false =>
        simp only [Bool.false_eq_true, if_false]
        cases (compactar c s nombre claves).archivos.valor nombre <;> simp only
  · rw [if_neg hmas, if_neg hmas, if_neg hmas]
    split <;> simp only

theorem truncarArchivoConLlamadas_estado :
    (truncarArchivoConLlamadas c s nombre tamanio claves).1 =
      truncarArchivo c s nombre tamanio claves := by
  cases ha : s.archivos.valor nombre with
  | none =>
      rw [truncarArchivo_of_none ha, truncarArchivoConLlamadas, ha]
  | some a => rw [truncarArchivoConLlamadas_eq ha]

/-- One of the blocks just after its own that a file needs to reach the size is in use, or beyond
the disk. -/
def HayQueCompactar (c : Config) (s : Estado) (a : Archivo) (tamanio : UInt32) : Prop :=
  ∃ x, a.bloqueInicial + a.propios c ≤ x ∧
    x < a.bloqueInicial + cantidadDeBloques c tamanio.toNat ∧
    (s.bitmap x = true ∨ (c.blockCount : ℤ) ≤ x)

/-- A truncation of the file `a` compacts only when it has to, and otherwise moves no file. -/
structure CompactaLoJusto (c : Config) (s : Estado) (nombre : String) (a : Archivo)
    (tamanio : UInt32) (claves : List String) : Prop where
  llama : (truncarArchivoConLlamadas c s nombre tamanio claves).2 ≠ [] ↔
    HayQueCompactar c s a tamanio
  quietos : ¬HayQueCompactar c s a tamanio → ∀ {m b}, s.archivos.valor m = some b →
    ∃ b', (truncarArchivoConLlamadas c s nombre tamanio claves).1.archivos.valor m = some b' ∧
      b'.bloqueInicial = b.bloqueInicial

/-- **When growing compacts only when it has to**: when it has to, because it always compacts. -/
theorem compactaLoJusto_iff (hbs : 0 < c.blockSize) (hdisco : c.blockCount * c.blockSize < 2 ^ 31)
    (hs : Sano c s) (ha : s.archivos.valor nombre = some a)
    (hcabe : cabe c s nombre tamanio claves = true)
    (hmas : a.propios c < cantidadDeBloques c tamanio.toNat) :
    CompactaLoJusto c s nombre a tamanio claves ↔ HayQueCompactar c s a tamanio := by
  have htam := tamanio_lt hbs hdisco hs ha hcabe
  have hpropios := one_le_propios (c := c) a
  have huso := cantidadDeBloques_le_propios (c := c) a
  have hllamadas : (truncarArchivoConLlamadas c s nombre tamanio claves).2 = [nombre] := by
    rw [truncarArchivoConLlamadas_eq ha, Entero.aInt_of_lt htam]
    simp only
    rw [if_pos (by omega), estanContiguos_eq_false hs ha (by omega), if_neg Bool.false_ne_true]
  constructor
  · intro h
    exact h.llama.1 (by simp [hllamadas])
  · intro h
    exact ⟨iff_of_true (by simp [hllamadas]) h, fun hno => absurd h hno⟩

/-! ### Two disks -/

/-- A truncation of a file next to others, to a size inside its second block. -/
theorem truncado_disperso :
    Truncado discoChico disperso (truncarArchivo discoChico disperso "e" 20 ["d", "e", "a"]) "e"
      20 :=
  (truncado_iff (a := ⟨4, 0⟩) (by decide) (by decide) disperso_sano (by decide +kernel)
    (by decide +kernel) (by decide +kernel)).2 (by decide)

/-- The file wants a block beyond the end of the disk. -/
theorem compactaLoJusto_disperso :
    CompactaLoJusto discoChico disperso "e" ⟨4, 0⟩ 80 ["d", "e", "a"] :=
  (compactaLoJusto_iff (by decide) (by decide) disperso_sano (by decide +kernel)
    (by decide +kernel) (by decide)).2 ⟨8, by decide, by decide, Or.inr (by decide)⟩

/-- A file of one full block, and nothing behind it. -/
def soloA : Estado :=
  Transicion.estadoTras (intentar discoChico fun s e => decide (SinVecino discoChico s e))
    estadoInicial [.crear "a", .truncar "a" 16 ["a"]] (by decide +kernel)

theorem soloA_sano : Sano discoChico soloA := by
  refine sano_alcanzable (by decide) (Transicion.alcanzableCon_estadoTras ?_ rfl _)
  intro s e s' h
  obtain ⟨hC, hpaso⟩ := paso_of_intentar h
  exact ⟨of_decide_eq_true hC, hpaso⟩

theorem soloA_valor : soloA.archivos.valor "a" = some ⟨0, 16⟩ := by decide +kernel

/-- Truncated to ten bytes it still has sixteen. -/
theorem soloA_no_truncado :
    ¬∀ (c : Config) (s : Estado), 0 < c.blockSize → c.blockCount * c.blockSize < 2 ^ 31 →
      Sano c s → ∀ (nombre : String) (a : Archivo) (tamanio : UInt32) (claves : List String),
        s.archivos.valor nombre = some a → claves.Perm s.archivos.claves →
        cabe c s nombre tamanio claves = true →
        Truncado c s (truncarArchivo c s nombre tamanio claves) nombre tamanio := by
  intro h
  have htruncado := h discoChico soloA (by decide) (by decide) soloA_sano "a" ⟨0, 16⟩ 10
    ["a"] soloA_valor (by decide +kernel) (by decide +kernel)
  rw [truncarArchivo_igual soloA_valor (by decide) (by decide),
    truncado_refl_iff soloA_valor] at htruncado
  exact absurd htruncado (by decide)

/-- To take the free block behind it, it compacts the disk. -/
theorem soloA_compacta_de_mas :
    ¬∀ (c : Config) (s : Estado), 0 < c.blockSize → c.blockCount * c.blockSize < 2 ^ 31 →
      Sano c s → ∀ (nombre : String) (a : Archivo) (tamanio : UInt32) (claves : List String),
        s.archivos.valor nombre = some a → claves.Perm s.archivos.claves →
        cabe c s nombre tamanio claves = true →
        a.propios c < cantidadDeBloques c tamanio.toNat →
        CompactaLoJusto c s nombre a tamanio claves := by
  intro h
  have hjusto := h discoChico soloA (by decide) (by decide) soloA_sano "a" ⟨0, 16⟩ 32
    ["a"] soloA_valor (by decide +kernel) (by decide +kernel) (by decide)
  have hllama : (truncarArchivoConLlamadas discoChico soloA "a" 32 ["a"]).2 ≠ [] := by
    decide +kernel
  -- the only block it needs is block 1
  obtain ⟨x, h₁, h₂, hx⟩ := hjusto.llama.1 hllama
  have hcotas : 1 ≤ x ∧ x < 2 := ⟨h₁, h₂⟩
  obtain rfl : x = 1 := by omega
  exact absurd hx (by decide +kernel)

end DialFs
