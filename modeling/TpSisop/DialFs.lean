/-
**DialFS: the directory, the bitmap, the blocks, and the operations on them.**

The file system of an interface keeps a directory of files (first block and size in bytes), a bitmap
with one bit for each block, and the bytes of the blocks.  Files are contiguous: growing one that
has no free blocks after it compacts the disk, which moves every other file to the front and the
grown one behind them.  This module models the operations of `fileSystem/` and the read and write of
`main.c`.

Addresses and block numbers are integers and the products of a block number by the block size are
taken as they are; `int` arithmetic agrees as long as the size of the disk is an `int`, which
`inicializar_bloques` takes for granted when it allocates it.  The source tests no index: the bitmap
and the blocks are given here as the memory from where they begin, and which bits and bytes beyond
their ends an operation touches is told apart from what it does (`DialFsCompactacion`,
`DialFsEspacio`).  The `.dat` and `.config` files that mirror this state are left out, as are the
logs.

Main definitions:

* `DialFs.Config`, `DialFs.Archivo`, `DialFs.Estado` — the configuration and the state;
* `DialFs.crearArchivo`, `DialFs.eliminarArchivo`, `DialFs.truncarArchivo`, `DialFs.compactar`;
* `DialFs.ioFsRead`, `DialFs.ioFsWrite` — what a read and a write do to the disk;
* `DialFs.Evento`, `DialFs.sistema` — the interface as a system driven by its requests.

Main results:

* `DialFs.foldl_update`, `DialFs.foldl_update_desde` — a loop that writes one bit at a time;
* `DialFs.bloqueLibre_spec` — the search for a free block.
-/

import TpSisop.Transiciones
import TpSisop.Colecciones
import TpSisop.Enteros
import TpSisop.Extensiones

set_option relaxedAutoImplicit false
set_option autoImplicit false

namespace DialFs

open Entero (aInt aUint32)
open Coleccion (Diccionario)

/-! ### The state -/

/-- The block size and the block count of the configuration, both of type `int`. -/
structure Config where
  blockSize : ℕ
  blockCount : ℕ
  blockCount_lt : blockCount < 2 ^ 31

/-- `t_archivo`. -/
structure Archivo where
  bloqueInicial : ℤ
  tamArchivo : ℤ
  deriving DecidableEq, Repr

/-- The bits of `bitmap` from `bitsDelBitmap` on are not of the bitmap that is allocated, and the
bytes of `bloques` from `block_count * block_size` on are not of the disk. -/
structure Estado where
  archivos : Diccionario Archivo
  bitmap : ℤ → Bool
  bloques : ℤ → UInt8

variable (c : Config)

/-! ### The bitmap (`bitmap.c`) -/

/-- The bits of the bitmap that is allocated: `block_count / 8` bytes. -/
def bitsDelBitmap : ℕ := c.blockCount / 8 * 8

/-- `bloque_libre`: the bitmap has `block_count / 8` bytes; `-1` when every bit is set. -/
def bloqueLibre (bitmap : ℤ → Bool) : ℤ :=
  match Bits.primerLibre (fun (i : ℕ) => bitmap i) (c.blockCount / 8 * 8) with
  | some i => i
  | none => -1

/-- `desasignar_bloque`, whose argument is a `uint32_t`. -/
def desasignarBloque (bitmap : ℤ → Bool) (bloque : ℤ) : ℤ → Bool :=
  Function.update bitmap (aUint32 bloque) false

/-- `asignar_bloque`: the block, as the `uint32_t` it is returned as, and the new bitmap. -/
def asignarBloque (bitmap : ℤ → Bool) : ℤ × (ℤ → Bool) :=
  let bloque := aUint32 (bloqueLibre c bitmap)
  (bloque, Function.update bitmap bloque true)

def cantidadDeBloques (tamanio : ℤ) : ℤ :=
  if tamanio.tmod c.blockSize ≠ 0 then tamanio.tdiv c.blockSize + 1
  else tamanio.tdiv c.blockSize

def estanContiguos (bitmap : ℤ → Bool) (bloqueInicial bloquesNecesarios : ℤ) : Bool :=
  (List.range bloquesNecesarios.toNat).all fun (i : ℕ) => !bitmap (bloqueInicial + i)

/-! ### Copies -/

/-- `memcpy` of `n` bytes, from the address `o` of `src` to the address `d` of `dst`. -/
def memcpy (dst : ℤ → UInt8) (d : ℤ) (src : ℤ → UInt8) (o n : ℤ) : ℤ → UInt8 := fun x =>
  if d ≤ x ∧ x < d + n then src (o + (x - d)) else dst x

/-! ### Compaction (`compactacion.c`) -/

/-- The variables of the loop of `compactar`. -/
structure Compactacion where
  archivos : Diccionario Archivo
  bloquesCompactados : ℤ → UInt8
  bloqueActual : ℤ

/-- One turn of the loop: the file is copied behind the ones already copied. -/
def compactarPaso (bloques : ℤ → UInt8) (k : Compactacion) (nombre : String) : Compactacion :=
  match k.archivos.valor nombre with
  | none => k
  | some archivo =>
      let siguiente := k.bloqueActual + archivo.tamArchivo.tdiv c.blockSize
      { archivos := k.archivos.poner nombre { archivo with bloqueInicial := k.bloqueActual }
        bloquesCompactados :=
          memcpy k.bloquesCompactados (k.bloqueActual * c.blockSize) bloques
            (archivo.bloqueInicial * c.blockSize) archivo.tamArchivo
        bloqueActual :=
          if archivo.tamArchivo.tmod c.blockSize ≠ 0 ∨ archivo.tamArchivo = 0 then siguiente + 1
          else siguiente }

/-- `compactar`; `claves` is the answer of `dictionary_keys`.  Its two loops over the bitmap go up
to `block_count`, whether the bitmap has so many bits or not (`bitsCompactar`). -/
def compactar (s : Estado) (nombreArchivo : String) (claves : List String) : Estado :=
  match s.archivos.valor nombreArchivo with
  | none => s
  | some archivoAAmpliar =>
      let buffer : ℤ → UInt8 := fun i =>
        s.bloques (archivoAAmpliar.bloqueInicial * c.blockSize + i)
      let k := (claves.erase nombreArchivo).foldl (compactarPaso c s.bloques)
        { archivos := s.archivos, bloquesCompactados := fun _ => 0, bloqueActual := 0 }
      let bloques := memcpy s.bloques 0 k.bloquesCompactados 0 (k.bloqueActual * c.blockSize)
      let siguiente := k.bloqueActual + archivoAAmpliar.tamArchivo.tdiv c.blockSize
      -- here, unlike in the loop, an empty file takes no block
      let fin := if archivoAAmpliar.tamArchivo.tmod c.blockSize ≠ 0 then siguiente + 1
        else siguiente
      let asignados := (List.range fin.toNat).foldl
        (fun b (i : ℕ) => Function.update b (i : ℤ) true) s.bitmap
      { archivos := k.archivos.poner nombreArchivo
          { archivoAAmpliar with bloqueInicial := k.bloqueActual }
        bloques := memcpy bloques (k.bloqueActual * c.blockSize) buffer 0
          archivoAAmpliar.tamArchivo
        bitmap := (List.range (c.blockCount - fin).toNat).foldl
          (fun b (i : ℕ) => Function.update b (fin + i) false) asignados }

/-! ### The operations (`operaciones.c`) -/

def crearArchivo (s : Estado) (nombreArchivo : String) : Estado :=
  let (bloque, bitmap) := asignarBloque c s.bitmap
  { s with
    archivos := s.archivos.poner nombreArchivo
      { bloqueInicial := aInt bloque.toNat, tamArchivo := 0 }
    bitmap := bitmap }

def eliminarArchivo (s : Estado) (nombreArchivo : String) : Estado :=
  match s.archivos.valor nombreArchivo with
  | none => s
  | some archivo =>
      { s with
        archivos := s.archivos.quitar nombreArchivo
        bitmap := (List.range (cantidadDeBloques c archivo.tamArchivo).toNat).foldl
          (fun b (i : ℕ) => desasignarBloque b (archivo.bloqueInicial + i)) s.bitmap }

def truncarArchivo (s : Estado) (nombreArchivo : String) (tamanio : UInt32)
    (claves : List String) : Estado :=
  match s.archivos.valor nombreArchivo with
  | none => s
  | some archivo =>
      let tam := aInt tamanio.toNat
      let necesarios := cantidadDeBloques c tam
      let enUso := cantidadDeBloques c archivo.tamArchivo
      let haySuficientes := estanContiguos s.bitmap archivo.bloqueInicial necesarios
      if necesarios > enUso then
        let s' := if haySuficientes then s else compactar c s nombreArchivo claves
        -- `archivo` points into the dictionary: its first block is the one after the compaction
        match s'.archivos.valor nombreArchivo with
        | none => s'
        | some archivo' =>
            { s' with
              archivos := s'.archivos.poner nombreArchivo { archivo' with tamArchivo := tam }
              bitmap := (List.range (necesarios - enUso).toNat).foldl
                (fun b (i : ℕ) => Function.update b (archivo'.bloqueInicial + enUso + i) true)
                s'.bitmap }
      else if necesarios < enUso then
        { s with
          archivos := s.archivos.poner nombreArchivo { archivo with tamArchivo := tam }
          -- from the block after the last one down: one block further than the file's own
          bitmap := (List.range (enUso - necesarios).toNat).foldl
            (fun b (i : ℕ) => desasignarBloque b (archivo.bloqueInicial + enUso - i)) s.bitmap }
      else s

/-! ### Reading and writing (`main.c`) -/

/-- The bytes `io_fs_read` sends to memory; `none` where it dereferences the file it did not
find. -/
def ioFsRead (s : Estado) (nombreArchivo : String) (posicionArchivo tamanio : ℕ) :
    Option (List UInt8) :=
  (s.archivos.valor nombreArchivo).map fun archivo =>
    (List.range tamanio).map fun (i : ℕ) =>
      s.bloques (archivo.bloqueInicial * c.blockSize + posicionArchivo + i)

/-- What `atender_memoria` does with the bytes memory sends for an `IO_FS_WRITE`. -/
def ioFsWrite (s : Estado) (nombreArchivo : String) (posicionArchivo : ℕ) (leido : List UInt8) :
    Option Estado :=
  (s.archivos.valor nombreArchivo).map fun archivo =>
    { s with
      bloques := memcpy s.bloques (archivo.bloqueInicial * c.blockSize + posicionArchivo)
        (fun i => leido.getD i.toNat 0) 0 leido.length }

/-! ### The interface as a system -/

/-- The requests of the interface; a truncation carries the order in which the directory lists its
names, a read the bytes it answered. -/
inductive Evento
  | crear (nombre : String)
  | eliminar (nombre : String)
  | truncar (nombre : String) (tamanio : UInt32) (claves : List String)
  | escribir (nombre : String) (posicion : ℕ) (datos : List UInt8)
  | leer (nombre : String) (posicion : ℕ) (leido : List UInt8)

/-- The blocks a file owns: an empty file owns one. -/
def Archivo.propios (a : Archivo) : ℤ := max 1 (cantidadDeBloques c a.tamArchivo)

/-- The blocks owned by a name, none when there is no such file. -/
def extension (d : Diccionario Archivo) (nombre : String) : ℤ :=
  match d.valor nombre with
  | none => 0
  | some a => a.propios c

/-- The range `[pos, pos + n)` is inside a file. -/
def dentro (s : Estado) (nombre : String) (pos n : ℕ) : Bool :=
  match s.archivos.valor nombre with
  | none => false
  | some a => decide ((pos : ℤ) + n ≤ a.tamArchivo)

/-- A truncation does not grow the file in blocks, or the blocks owned afterwards fit in the disk;
`claves` lists the names. -/
def cabe (s : Estado) (nombre : String) (tamanio : UInt32) (claves : List String) : Bool :=
  match s.archivos.valor nombre with
  | none => true
  | some a =>
      decide (cantidadDeBloques c tamanio.toNat ≤ cantidadDeBloques c a.tamArchivo) ||
        decide (((claves.erase nombre).map (extension c s.archivos)).sum +
          cantidadDeBloques c tamanio.toNat ≤ c.blockCount)

/-- The requests considered: a file is created under a new name while there is a free block, a
file grows when the blocks owned afterwards fit in the disk, and reads and writes stay inside the
file. -/
def Evento.admisible (s : Estado) : Evento → Prop
  | .crear nombre => s.archivos.valor nombre = none ∧ bloqueLibre c s.bitmap ≠ -1
  | .eliminar _ => True
  | .truncar nombre tamanio claves =>
      claves.Perm s.archivos.claves ∧ cabe c s nombre tamanio claves = true
  | .escribir nombre pos datos => dentro s nombre pos datos.length = true
  | .leer nombre pos leido => dentro s nombre pos leido.length = true

instance (s : Estado) : DecidablePred (Evento.admisible c s)
  | .crear _ => inferInstanceAs (Decidable (_ ∧ _))
  | .eliminar _ => .isTrue trivial
  | .truncar _ _ _ => inferInstanceAs (Decidable (_ ∧ _))
  | .escribir _ _ _ => inferInstanceAs (Decidable (_ = _))
  | .leer _ _ _ => inferInstanceAs (Decidable (_ = _))

/-- One request; `none` where the source dereferences a null pointer, or where a read did not answer
the bytes of the event. -/
def atender (s : Estado) : Evento → Option Estado
  | .crear nombre => some (crearArchivo c s nombre)
  | .eliminar nombre => some (eliminarArchivo c s nombre)
  | .truncar nombre tamanio claves => some (truncarArchivo c s nombre tamanio claves)
  | .escribir nombre pos datos => ioFsWrite c s nombre pos datos
  | .leer nombre pos leido =>
      if ioFsRead c s nombre pos leido.length = some leido then some s else none

/-- The empty disk. -/
def estadoInicial : Estado where
  archivos := .vacio
  bitmap := fun _ => false
  bloques := fun _ => 0

/-- The interface, started on an empty disk. -/
def sistema : Transicion.Sistema Estado Evento where
  inicial s := s = estadoInicial
  paso s e s' := e.admisible c s ∧ atender c s e = some s'

/-! ### Loops over the bitmap -/

/-- A loop that writes the same value at the places `f 0, …, f (n - 1)`. -/
theorem foldl_update (f : ℕ → ℤ) (v : Bool) (bitmap : ℤ → Bool) (n : ℕ) (x : ℤ) :
    ((List.range n).foldl (fun b (i : ℕ) => Function.update b (f i) v) bitmap) x =
      if ∃ i < n, f i = x then v else bitmap x := by
  induction n with
  | zero => simp
  | succ n ih =>
      rw [List.range_succ, List.foldl_append, List.foldl_cons, List.foldl_nil]
      by_cases hx : f n = x
      · subst hx
        rw [Function.update_self, if_pos ⟨n, by omega, rfl⟩]
      · rw [Function.update_of_ne (Ne.symm hx), ih]
        congr 1
        refine propext ⟨?_, ?_⟩
        · rintro ⟨i, hi, rfl⟩
          exact ⟨i, by omega, rfl⟩
        · rintro ⟨i, hi, rfl⟩
          have hne : i ≠ n := fun h => hx (h ▸ rfl)
          exact ⟨i, by omega, rfl⟩

/-- A loop over the consecutive places from `ini` on. -/
theorem foldl_update_desde (ini : ℤ) (v : Bool) (bitmap : ℤ → Bool) (n x : ℤ) :
    ((List.range n.toNat).foldl (fun b (i : ℕ) => Function.update b (ini + i) v) bitmap) x =
      if ini ≤ x ∧ x < ini + n then v else bitmap x := by
  rw [foldl_update fun (i : ℕ) => ini + i]
  congr 1
  refine propext ⟨?_, ?_⟩
  · rintro ⟨i, hi, rfl⟩
    omega
  · rintro ⟨h₁, h₂⟩
    exact ⟨(x - ini).toNat, by omega, by omega⟩

/-! ### The search for a free block -/

variable {c}

/-- A free block is below the block count, and its bit is clear. -/
theorem bloqueLibre_spec {bitmap : ℤ → Bool} (h : bloqueLibre c bitmap ≠ -1) :
    0 ≤ bloqueLibre c bitmap ∧ bloqueLibre c bitmap < c.blockCount ∧
      bitmap (bloqueLibre c bitmap) = false := by
  unfold bloqueLibre at h ⊢
  split
  · rename_i i hi
    obtain ⟨hlt, hlibre⟩ := Bits.primerLibre_eq_some hi
    exact ⟨Int.natCast_nonneg i, by omega, hlibre⟩
  · rename_i hnone
    rw [hnone] at h
    exact absurd rfl h

/-- The block of a new file is the free block that was found. -/
theorem asignarBloque_of_libre {bitmap : ℤ → Bool} (h : bloqueLibre c bitmap ≠ -1) :
    asignarBloque c bitmap =
      (bloqueLibre c bitmap, Function.update bitmap (bloqueLibre c bitmap) true) := by
  obtain ⟨h₀, hlt, -⟩ := bloqueLibre_spec h
  have hcount := c.blockCount_lt
  rw [asignarBloque, Entero.aUint32_of_nonneg h₀ (by omega)]

theorem cantidadDeBloques_eq_techo (tamanio : ℤ) :
    cantidadDeBloques c tamanio = Entero.techo c.blockSize tamanio := by
  unfold cantidadDeBloques Entero.techo
  split <;> simp_all

/-- A read answers what is there, and leaves the disk as it is. -/
theorem atender_leer {s s' : Estado} {nombre : String} {pos : ℕ} {leido : List UInt8}
    (h : atender c s (.leer nombre pos leido) = some s') :
    ioFsRead c s nombre pos leido.length = some leido ∧ s' = s := by
  rw [atender, Option.ite_none_right_eq_some, Option.some.injEq] at h
  exact ⟨h.1, h.2.symm⟩

end DialFs
