/-
**DialFS over a restart: what the host files keep.**

The file system lives in memory and mirrors itself in files of a host directory: the bitmap, the
blocks, and a text for each file with its first block and size.  Each operation writes the files it
thinks it changed; a start loads the bitmap and the blocks, and as the directory every host file
whose name ends in `.txt`.  Creation takes any name: one that does not end so is written but not
loaded, and `bitmap.dat` and `bloques.dat` are written over.  This module proves that names are the
only way a restart goes wrong.

What the host does with a path is a parameter: `abre` tells which entry of the directory
`base/nombre` opens, if any.  So is how the configuration library reads a text back.

Main definitions:

* `DialFs.Anfitrion` — the host directory;
* `DialFs.actualizarBitmap`, `DialFs.actualizarBloques`, `DialFs.actualizarArchivo`,
  `DialFs.commit` — what the operations write;
* `DialFs.inicializar` — what a start loads;
* `DialFs.sistemaPersistente` — the interface with its host directory;
* `DialFs.Espejo` — the host files mirror the memory;
* `DialFs.NombreRecuperable` — the condition on a step.

Main results:

* `DialFs.espejo_paso` — one request that meets the condition keeps the mirror;
* `DialFs.reinicio_recupera` — in the runs that meet the condition a restart rebuilds what was in
  memory.
-/

import TpSisop.DialFsFugas

set_option relaxedAutoImplicit false
set_option autoImplicit false

namespace DialFs

open Coleccion (Diccionario)

/-! ### The host directory (`commit.c`) -/

/-- The regular files of the directory, by name. -/
abbrev Anfitrion := Diccionario (List UInt8)

/-- The bytes of an ASCII text. -/
def texto (t : String) : List UInt8 := t.toList.map fun ch => UInt8.ofNat ch.toNat

/-- `formatear_datos_archivo`. -/
def formatearDatosArchivo (a : Archivo) : List UInt8 :=
  texto ("BLOQUE_INICIAL=" ++ a.bloqueInicial.repr ++ "\n" ++ "TAM_ARCHIVO=" ++ a.tamArchivo.repr)

section

variable (c : Config) (abre : String → Option String)

def actualizarBitmap (s : Estado) (h : Anfitrion) : Anfitrion :=
  h.poner "bitmap.dat" (Bits.aBytes (fun i : ℕ => s.bitmap i) (c.blockCount / 8))

def actualizarBloques (s : Estado) (h : Anfitrion) : Anfitrion :=
  h.poner "bloques.dat"
    ((List.range (c.blockCount * c.blockSize)).map fun i : ℕ => s.bloques i)

/-- `actualizar_archivo`: nothing is written when the path cannot be opened. -/
def actualizarArchivo (s : Estado) (h : Anfitrion) (nombreArchivo : String) : Anfitrion :=
  match abre nombreArchivo, s.archivos.valor nombreArchivo with
  | some entrada, some archivo => h.poner entrada (formatearDatosArchivo archivo)
  | _, _ => h

def actualizarArchivos (s : Estado) (claves : List String) (h : Anfitrion) : Anfitrion :=
  claves.foldl (actualizarArchivo abre s) h

def eliminarArchivoTxt (h : Anfitrion) (nombreArchivo : String) : Anfitrion :=
  match abre nombreArchivo with
  | none => h
  | some entrada => h.quitar entrada

/-- The fifth step of `compactar`. -/
def commitCompactar (s : Estado) (claves : List String) (h : Anfitrion) : Anfitrion :=
  actualizarArchivos abre s claves (actualizarBloques c s (actualizarBitmap c s h))

/-- What `truncarArchivo` writes. -/
def commitTruncar (s : Estado) (nombreArchivo : String) (tamanio : UInt32) (claves : List String)
    (h : Anfitrion) : Anfitrion :=
  match s.archivos.valor nombreArchivo with
  | none => h
  | some archivo =>
      let necesarios := cantidadDeBloques c (Entero.aInt tamanio.toNat)
      let enUso := cantidadDeBloques c archivo.tamArchivo
      let s' := truncarArchivo c s nombreArchivo tamanio claves
      if necesarios > enUso then
        let h' :=
          if estanContiguos s.bitmap archivo.bloqueInicial necesarios then h
          else commitCompactar c abre (compactar c s nombreArchivo claves) claves h
        actualizarArchivo abre s' (actualizarBitmap c s' h') nombreArchivo
      else if necesarios < enUso then
        actualizarArchivo abre s' (actualizarBitmap c s' h) nombreArchivo
      else h

/-- What a request writes. -/
def commit (s : Estado) (h : Anfitrion) : Evento → Anfitrion
  | .crear nombre =>
      let s' := crearArchivo c s nombre
      actualizarArchivo abre s' (actualizarBitmap c s' h) nombre
  | .eliminar nombre =>
      match s.archivos.valor nombre with
      | none => h
      | some _ =>
          eliminarArchivoTxt abre (actualizarBitmap c (eliminarArchivo c s nombre) h) nombre
  | .truncar nombre tamanio claves => commitTruncar c abre s nombre tamanio claves h
  | .escribir nombre pos datos =>
      match ioFsWrite c s nombre pos datos with
      | none => h
      | some s' => actualizarBloques c s' h
  | .leer _ _ _ => h

end

/-! ### Starting (`bitmap.c`, `bloques.c`) -/

/-- The naming rule of `listar_archivos_en_directorio`; in a shorter name the comparison begins
before the name, where there is no dot. -/
def esTxt (nombre : String) : Bool := ".txt".toList.isSuffixOf nombre.toList

section

variable (c : Config) (configInt : List UInt8 → String → ℤ)

/-- `inicializar_bitmap`: what is loaded, and the directory, where the file is created if it was not
there. -/
def inicializarBitmap (h : Anfitrion) : (ℤ → Bool) × Anfitrion :=
  match h.valor "bitmap.dat" with
  | none =>
      (fun _ => false, h.poner "bitmap.dat" (List.replicate (c.blockCount / 8) 0))
  | some bytes =>
      (fun x => decide (0 ≤ x) && Bits.deBytes (bytes.take (c.blockCount / 8)) x.toNat, h)

/-- `inicializar_bloques`. -/
def inicializarBloques (h : Anfitrion) : (ℤ → UInt8) × Anfitrion :=
  match h.valor "bloques.dat" with
  | none =>
      (fun _ => 0, h.poner "bloques.dat" (List.replicate (c.blockCount * c.blockSize) 0))
  | some bytes =>
      (fun x => if 0 ≤ x then (bytes.take (c.blockCount * c.blockSize)).getD x.toNat 0 else 0, h)

/-- `leer_config_archivo`, of a file that is in the directory. -/
def leerConfigArchivo (contenido : List UInt8) : Archivo where
  bloqueInicial := configInt contenido "BLOQUE_INICIAL"
  tamArchivo := configInt contenido "TAM_ARCHIVO"

/-- One turn of the loop of `inicializar_archivos`. -/
def inicializarArchivo (h : Anfitrion) (d : Diccionario Archivo) (nombre : String) :
    Diccionario Archivo :=
  match h.valor nombre with
  | none => d
  | some contenido => d.poner nombre (leerConfigArchivo configInt contenido)

/-- `inicializar_archivos`; `entradas` is the directory in the order `readdir` answers it. -/
def inicializarArchivos (h : Anfitrion) (entradas : List String) : Diccionario Archivo :=
  (entradas.filter esTxt).foldl (inicializarArchivo configInt h) .vacio

/-- A start. -/
def inicializar (h : Anfitrion) (entradas : List String) : Estado × Anfitrion :=
  let (bitmap, h₁) := inicializarBitmap c h
  let (bloques, h₂) := inicializarBloques c h₁
  ({ archivos := inicializarArchivos configInt h₂ entradas, bitmap := bitmap, bloques := bloques },
    h₂)

end

/-! ### The interface with its directory -/

/-- The interface and its host directory, started on an empty directory, with every request that
completes. -/
def sistemaPersistente (c : Config) (abre : String → Option String)
    (configInt : List UInt8 → String → ℤ) : Transicion.Sistema (Estado × Anfitrion) Evento where
  inicial p := p = inicializar c configInt .vacio []
  paso p e p' := (sistemaLibre c).paso p.1 e p'.1 ∧ p'.2 = commit c abre p.1 p.2 e

/-- What the start code relies on: from the two lines that `formatear_datos_archivo` writes, the
configuration library reads the numbers back, if they are ones an `int` can hold. -/
def LeeConfig (configInt : List UInt8 → String → ℤ) : Prop :=
  ∀ a : Archivo, 0 ≤ a.bloqueInicial → a.bloqueInicial < 2 ^ 31 → 0 ≤ a.tamArchivo →
    a.tamArchivo < 2 ^ 31 →
      configInt (formatearDatosArchivo a) "BLOQUE_INICIAL" = a.bloqueInicial ∧
        configInt (formatearDatosArchivo a) "TAM_ARCHIVO" = a.tamArchivo

/-- A restart from the directory rebuilds the memory: the same directory of files, and the same
bitmap and blocks. -/
def Recupera (c : Config) (configInt : List UInt8 → String → ℤ) (s : Estado) (h : Anfitrion) :
    Prop :=
  ∀ entradas : List String, entradas.Perm h.claves →
    (inicializar c configInt h entradas).1.archivos.valor = s.archivos.valor ∧
    (∀ x : ℤ, 0 ≤ x → x < 8 * (c.blockCount / 8 : ℕ) →
      (inicializar c configInt h entradas).1.bitmap x = s.bitmap x) ∧
    ∀ x : ℤ, 0 ≤ x → x < (c.blockCount * c.blockSize : ℕ) →
      (inicializar c configInt h entradas).1.bloques x = s.bloques x

/-- A file is created under a name that ends in `.txt` and that names an entry of the directory. -/
def NombreRecuperable (abre : String → Option String) : Evento → Prop
  | .crear nombre => esTxt nombre = true ∧ abre nombre = some nombre
  | _ => True

instance (abre : String → Option String) : DecidablePred (NombreRecuperable abre)
  | .crear _ => inferInstanceAs (Decidable (_ ∧ _))
  | .eliminar _ | .truncar _ _ _ | .escribir _ _ _ | .leer _ _ _ => .isTrue trivial

/-! ### The mirror -/

/-- The host files mirror the memory: the bitmap and the blocks are written, and the files whose
names end in `.txt` are those of the directory, with their texts. -/
structure Espejo (c : Config) (abre : String → Option String) (s : Estado) (h : Anfitrion) :
    Prop where
  bitmap : h.valor "bitmap.dat" = some (Bits.aBytes (fun i : ℕ => s.bitmap i) (c.blockCount / 8))
  bloques : h.valor "bloques.dat" =
    some ((List.range (c.blockCount * c.blockSize)).map fun i : ℕ => s.bloques i)
  archivos : ∀ {n}, esTxt n = true →
    h.valor n = (s.archivos.valor n).map formatearDatosArchivo
  nombres : ∀ {n}, s.archivos.valor n ≠ none → esTxt n = true ∧ abre n = some n

variable {c : Config} {abre : String → Option String} {s s' : Estado} {h : Anfitrion}

theorem ne_bitmap_of_esTxt {n : String} (hn : esTxt n = true) : n ≠ "bitmap.dat" := by
  rintro rfl
  exact absurd hn (by decide)

theorem ne_bloques_of_esTxt {n : String} (hn : esTxt n = true) : n ≠ "bloques.dat" := by
  rintro rfl
  exact absurd hn (by decide)

theorem actualizarBitmap_valor : (actualizarBitmap c s h).valor "bitmap.dat" =
    some (Bits.aBytes (fun i : ℕ => s.bitmap i) (c.blockCount / 8)) := by
  simp [actualizarBitmap]

theorem actualizarBloques_valor : (actualizarBloques c s h).valor "bloques.dat" =
    some ((List.range (c.blockCount * c.blockSize)).map fun i : ℕ => s.bloques i) := by
  simp [actualizarBloques]

theorem actualizarBitmap_valor_of_ne {n : String} (hn : n ≠ "bitmap.dat") :
    (actualizarBitmap c s h).valor n = h.valor n :=
  Function.update_of_ne hn ..

theorem actualizarBloques_valor_of_ne {n : String} (hn : n ≠ "bloques.dat") :
    (actualizarBloques c s h).valor n = h.valor n :=
  Function.update_of_ne hn ..

theorem actualizarArchivo_eq {n : String} {a : Archivo} (hn : abre n = some n)
    (ha : s.archivos.valor n = some a) :
    actualizarArchivo abre s h n = h.poner n (formatearDatosArchivo a) := by
  rw [actualizarArchivo, hn, ha]

/-- Writing every file writes the ones that are listed, and no others. -/
theorem actualizarArchivos_valor {claves : List String}
    (hclaves : ∀ n ∈ claves, abre n = some n ∧ s.archivos.valor n ≠ none) (m : String) :
    (actualizarArchivos abre s claves h).valor m =
      if m ∈ claves then (s.archivos.valor m).map formatearDatosArchivo else h.valor m := by
  unfold actualizarArchivos
  induction claves generalizing h with
  | nil => simp
  | cons n claves ih =>
      obtain ⟨hn, hsome⟩ := hclaves n List.mem_cons_self
      obtain ⟨a, ha⟩ := Option.ne_none_iff_exists'.1 hsome
      rw [List.foldl_cons, ih fun k hk => hclaves k (List.mem_cons_of_mem n hk),
        actualizarArchivo_eq hn ha, Diccionario.poner_valor]
      by_cases hm : m = n
      · subst hm
        simp [ha]
      · simp [hm]

/-- An operation ends by writing the bitmap and the text of one file. -/
theorem espejo_actualizar {n : String} {a : Archivo} (hn : esTxt n = true ∧ abre n = some n)
    (ha : s'.archivos.valor n = some a)
    (hbloques : h.valor "bloques.dat" =
      some ((List.range (c.blockCount * c.blockSize)).map fun i : ℕ => s'.bloques i))
    (hotros : ∀ m, m ≠ n → esTxt m = true →
      h.valor m = (s'.archivos.valor m).map formatearDatosArchivo)
    (hnombres : ∀ m, m ≠ n → s'.archivos.valor m ≠ none → esTxt m = true ∧ abre m = some m) :
    Espejo c abre s' (actualizarArchivo abre s' (actualizarBitmap c s' h) n) := by
  rw [actualizarArchivo_eq hn.2 ha]
  refine ⟨?_, ?_, fun {m} hm => ?_, fun {m} hm => ?_⟩
  · rw [Diccionario.poner_valor, Function.update_of_ne (ne_bitmap_of_esTxt hn.1).symm]
    exact actualizarBitmap_valor
  · rw [Diccionario.poner_valor, Function.update_of_ne (ne_bloques_of_esTxt hn.1).symm,
      actualizarBitmap_valor_of_ne (by decide)]
    exact hbloques
  · by_cases hmn : m = n
    · subst hmn
      simp [ha]
    · rw [Diccionario.poner_valor, Function.update_of_ne hmn,
        actualizarBitmap_valor_of_ne (ne_bitmap_of_esTxt hm)]
      exact hotros m hmn hm
  · by_cases hmn : m = n
    · subst hmn
      exact hn
    · exact hnombres m hmn hm

/-- The bitmap and the text of one file are all that is written when the others and the blocks stay
as they are. -/
theorem espejo_update (hs : Espejo c abre s h) {n : String} {a : Archivo}
    (hn : esTxt n = true ∧ abre n = some n)
    (harch : s'.archivos.valor = Function.update s.archivos.valor n (some a))
    (hbloques : s'.bloques = s.bloques) :
    Espejo c abre s' (actualizarArchivo abre s' (actualizarBitmap c s' h) n) := by
  refine espejo_actualizar (a := a) hn (by rw [harch, Function.update_self]) ?_ ?_ ?_
  · rw [hbloques]
    exact hs.bloques
  · intro m hm htxt
    rw [harch, Function.update_of_ne hm]
    exact hs.archivos htxt
  · intro m hm hsome
    rw [harch, Function.update_of_ne hm] at hsome
    exact hs.nombres hsome

/-! ### One request -/

theorem espejo_crear (hs : Espejo c abre s h) {n : String}
    (hlibre : bloqueLibre c s.bitmap ≠ -1) (hn : esTxt n = true ∧ abre n = some n) :
    Espejo c abre (crearArchivo c s n) (commit c abre s h (.crear n)) := by
  refine espejo_update hs (a := ⟨bloqueLibre c s.bitmap, 0⟩) hn ?_ ?_
  · rw [crearArchivo_eq hlibre]
    rfl
  · rw [crearArchivo_eq hlibre]

theorem espejo_eliminar (ht : Acotado c s) (hs : Espejo c abre s h) (n : String) :
    Espejo c abre (eliminarArchivo c s n) (commit c abre s h (.eliminar n)) := by
  cases ha : s.archivos.valor n with
  | none => simpa [commit, eliminarArchivo, ha] using hs
  | some a =>
      obtain ⟨htxt, habre⟩ := hs.nombres (n := n) (by simp [ha])
      have hvalor : (eliminarArchivo c s n).archivos.valor =
          Function.update s.archivos.valor n none := by
        rw [eliminarArchivo_eq ht ha]
        rfl
      have hbloques : (eliminarArchivo c s n).bloques = s.bloques := by
        rw [eliminarArchivo_eq ht ha]
      simp only [commit, ha, eliminarArchivoTxt, habre]
      refine ⟨?_, ?_, fun {m} hm => ?_, fun {m} hm => ?_⟩
      · rw [Diccionario.quitar_valor, Function.update_of_ne (ne_bitmap_of_esTxt htxt).symm]
        exact actualizarBitmap_valor
      · rw [Diccionario.quitar_valor, Function.update_of_ne (ne_bloques_of_esTxt htxt).symm,
          actualizarBitmap_valor_of_ne (by decide), hbloques]
        exact hs.bloques
      · rw [hvalor, Diccionario.quitar_valor]
        by_cases hmn : m = n
        · subst hmn
          simp
        · rw [Function.update_of_ne hmn, Function.update_of_ne hmn,
            actualizarBitmap_valor_of_ne (ne_bitmap_of_esTxt hm)]
          exact hs.archivos hm
      · rw [hvalor] at hm
        by_cases hmn : m = n
        · subst hmn
          simp at hm
        · rw [Function.update_of_ne hmn] at hm
          exact hs.nombres hm

/-- A compaction writes the blocks and the texts of all files. -/
theorem espejo_compacta (hbs : 0 < c.blockSize) (ht : Acotado c s) (hs : Espejo c abre s h)
    {n : String} {a : Archivo} {tamanio : UInt32} {claves : List String}
    (ha : s.archivos.valor n = some a) (hclaves : claves.Perm s.archivos.claves)
    (htam : tamanio.toNat < 2 ^ 31)
    (hmas : cantidadDeBloques c a.tamArchivo < cantidadDeBloques c tamanio.toNat)
    (hcont : estanContiguos s.bitmap a.bloqueInicial (cantidadDeBloques c tamanio.toNat) = false) :
    Espejo c abre (truncarArchivo c s n tamanio claves)
      (actualizarArchivo abre (truncarArchivo c s n tamanio claves)
        (actualizarBitmap c (truncarArchivo c s n tamanio claves)
          (commitCompactar c abre (compactar c s n claves) claves h)) n) := by
  have hpropio := compactar_valor_self hbs ht.tamanios ha hclaves
  have hmismos : ∀ m, (compactar c s n claves).archivos.valor m = none ↔
      s.archivos.valor m = none := by
    intro m
    by_cases hm : m = n
    · subst hm
      simp [hpropio, ha]
    · simp [compactar_valor_of_ne hbs ht.tamanios ha hclaves hm]
  have hlista : ∀ m ∈ claves, abre m = some m ∧
      (compactar c s n claves).archivos.valor m ≠ none := by
    intro m hm
    have hsome := s.archivos.mem_claves.1 (hclaves.mem_iff.1 hm)
    exact ⟨(hs.nombres hsome).2, (hmismos m).not.2 hsome⟩
  have hvalor := actualizarArchivos_valor (h := actualizarBloques c (compactar c s n claves)
    (actualizarBitmap c (compactar c s n claves) h)) hlista
  rw [truncarArchivo_compacta hbs ht.tamanios ha hclaves htam hmas hcont]
  refine espejo_actualizar (a := ⟨bloquesDeOtros c s n claves, tamanio.toNat⟩)
    (hs.nombres (by simp [ha])) (by simp) ?_ ?_ ?_
  · have hno : "bloques.dat" ∉ claves := fun hm =>
      absurd (hs.nombres (s.archivos.mem_claves.1 (hclaves.mem_iff.1 hm))).1 (by decide)
    rw [commitCompactar, hvalor, if_neg hno]
    exact actualizarBloques_valor
  · intro m hm htxt
    rw [commitCompactar, hvalor, Diccionario.poner_valor, Function.update_of_ne hm]
    split
    · rfl
    · rename_i hno
      have hnone : s.archivos.valor m = none := by
        by_contra hsome
        exact hno (hclaves.mem_iff.2 (s.archivos.mem_claves.2 hsome))
      rw [actualizarBloques_valor_of_ne (ne_bloques_of_esTxt htxt),
        actualizarBitmap_valor_of_ne (ne_bitmap_of_esTxt htxt), hs.archivos htxt, hnone,
        (hmismos m).2 hnone]
  · intro m hm hsome
    rw [Diccionario.poner_valor, Function.update_of_ne hm] at hsome
    exact hs.nombres ((hmismos m).not.1 hsome)

theorem espejo_truncar (hbs : 0 < c.blockSize) (hdisco : c.blockCount * c.blockSize < 2 ^ 31)
    (ht : Acotado c s) (hs : Espejo c abre s h) {n : String} {tamanio : UInt32}
    {claves : List String} (hclaves : claves.Perm s.archivos.claves)
    (hcabe : cabe c s n tamanio claves = true) :
    Espejo c abre (truncarArchivo c s n tamanio claves)
      (commit c abre s h (.truncar n tamanio claves)) := by
  cases ha : s.archivos.valor n with
  | none =>
      rw [truncarArchivo_of_none ha]
      simpa [commit, commitTruncar, ha] using hs
  | some a =>
      obtain ⟨hnec, htam⟩ := tamanio_lt_of_cabe hbs hdisco ha (ht.rango ha).2.2 hcabe
      obtain ⟨h₀, hini, hfin⟩ := ht.rango ha
      have hcount := c.blockCount_lt
      have huso := cantidadDeBloques_le_propios (c := c) a
      have hn := hs.nombres (n := n) (by simp [ha])
      simp only [commit, commitTruncar, ha, Entero.aInt_of_lt htam]
      rcases lt_trichotomy (cantidadDeBloques c tamanio.toNat) (cantidadDeBloques c a.tamArchivo)
        with hmenos | higual | hmas
      · rw [if_neg (by omega), if_pos hmenos]
        refine espejo_update hs (a := { a with tamArchivo := tamanio.toNat }) hn ?_ ?_ <;>
          rw [truncarArchivo_achicar ha htam hmenos h₀ (by omega)]
        rfl
      · rw [if_neg (by omega), if_neg (by omega), truncarArchivo_igual ha htam higual]
        exact hs
      rw [if_pos hmas]
      cases hcont : estanContiguos s.bitmap a.bloqueInicial (cantidadDeBloques c tamanio.toNat) with
      | true =>
          rw [if_pos rfl]
          refine espejo_update hs (a := { a with tamArchivo := tamanio.toNat }) hn ?_ ?_ <;>
            rw [truncarArchivo_enLugar ha htam hmas hcont]
          rfl
      | false =>
          rw [if_neg (by decide)]
          exact espejo_compacta hbs ht hs ha hclaves htam hmas hcont

theorem espejo_escribir (hs : Espejo c abre s h) {n : String} {pos : ℕ} {datos : List UInt8}
    (hescribe : ioFsWrite c s n pos datos = some s') :
    Espejo c abre s' (commit c abre s h (.escribir n pos datos)) := by
  simp only [commit, hescribe]
  obtain ⟨a, -, rfl⟩ := Option.map_eq_some_iff.1 hescribe
  refine ⟨?_, actualizarBloques_valor, fun {m} hm => ?_, hs.nombres⟩
  · rw [actualizarBloques_valor_of_ne (by decide)]
    exact hs.bitmap
  · rw [actualizarBloques_valor_of_ne (ne_bloques_of_esTxt hm)]
    exact hs.archivos hm

/-- One request that meets the condition keeps the mirror. -/
theorem espejo_paso (hbs : 0 < c.blockSize) (hdisco : c.blockCount * c.blockSize < 2 ^ 31)
    (ht : Acotado c s) (hs : Espejo c abre s h) {e : Evento} (hC : NombreRecuperable abre e)
    (hpaso : (sistemaLibre c).paso s e s') : Espejo c abre s' (commit c abre s h e) := by
  obtain ⟨hcompleta, hatender⟩ := hpaso
  cases e with
  | crear n =>
      obtain rfl : _ = s' := Option.some.inj hatender
      exact espejo_crear hs hcompleta hC
  | eliminar n =>
      obtain rfl : _ = s' := Option.some.inj hatender
      exact espejo_eliminar ht hs n
  | truncar n tamanio claves =>
      obtain rfl : _ = s' := Option.some.inj hatender
      exact espejo_truncar hbs hdisco ht hs hcompleta.1 hcompleta.2
  | escribir n pos datos => exact espejo_escribir hs hatender
  | leer n pos leido =>
      obtain ⟨-, rfl⟩ := atender_leer hatender
      exact hs

/-! ### Runs -/

variable {configInt : List UInt8 → String → ℤ}

theorem espejo_inicial : Espejo c abre estadoInicial (inicializar c configInt .vacio []).2 := by
  have hvalor : (inicializar c configInt .vacio []).2 =
      (Diccionario.vacio.poner "bitmap.dat" (List.replicate (c.blockCount / 8) 0)).poner
        "bloques.dat"
        (List.replicate (c.blockCount * c.blockSize) 0) := rfl
  rw [hvalor]
  refine ⟨?_, ?_, fun {n} hn => ?_, fun hn => absurd rfl hn⟩
  · exact congrArg some (Bits.aBytes_false _).symm
  · rw [Diccionario.poner_valor, Function.update_self, Option.some.injEq, eq_comm,
      List.eq_replicate_iff]
    simp [estadoInicial]
  · rw [Diccionario.poner_valor, Function.update_of_ne (ne_bloques_of_esTxt hn),
      Diccionario.poner_valor, Function.update_of_ne (ne_bitmap_of_esTxt hn)]
    rfl

/-- The loop of the loader takes the listed files that exist. -/
theorem foldl_inicializarArchivo (ns : List String) (d : Diccionario Archivo) (m : String) :
    (ns.foldl (inicializarArchivo configInt h) d).valor m =
      if m ∈ ns then ((h.valor m).map (leerConfigArchivo configInt)).or (d.valor m)
      else d.valor m := by
  induction ns generalizing d with
  | nil => simp
  | cons n ns ih =>
      rw [List.foldl_cons, ih]
      by_cases hm : m = n
      · subst hm
        cases hv : h.valor m <;> simp [inicializarArchivo, hv]
      · cases hv : h.valor n <;> simp [inicializarArchivo, hv, hm]

/-- The text of a file of a disk in bounds is read back. -/
theorem leerConfigArchivo_formatear (hbs : 0 < c.blockSize)
    (hdisco : c.blockCount * c.blockSize < 2 ^ 31) (hconfig : LeeConfig configInt)
    (ht : Acotado c s) {n : String} {a : Archivo} (ha : s.archivos.valor n = some a) :
    leerConfigArchivo configInt (formatearDatosArchivo a) = a := by
  obtain ⟨h₀, hini, hpropios⟩ := ht.rango ha
  have hcount := c.blockCount_lt
  have hbytes := tamArchivo_le hbs (ht.tamanios ha)
  have hmul := Int.mul_le_mul_of_nonneg_right hpropios (Int.natCast_nonneg c.blockSize)
  have hdisco' : (c.blockCount : ℤ) * c.blockSize < 2 ^ 31 := by exact_mod_cast hdisco
  obtain ⟨hb, htam⟩ := hconfig a h₀ (by omega) (ht.tamanios ha) (by omega)
  rw [leerConfigArchivo, hb, htam]

/-- What mirrors the memory rebuilds it. -/
theorem recupera_of_espejo (hbs : 0 < c.blockSize) (hdisco : c.blockCount * c.blockSize < 2 ^ 31)
    (hconfig : LeeConfig configInt) (ht : Acotado c s) (hs : Espejo c abre s h) :
    Recupera c configInt s h := by
  intro entradas hentradas
  simp only [inicializar, inicializarBitmap, hs.bitmap, inicializarBloques, hs.bloques]
  refine ⟨?_, ?_, ?_⟩
  · funext m
    have hlista : m ∈ entradas.filter esTxt ↔ h.valor m ≠ none ∧ esTxt m = true := by
      rw [List.mem_filter, hentradas.mem_iff, h.mem_claves]
    rw [inicializarArchivos, foldl_inicializarArchivo]
    cases ha : s.archivos.valor m with
    | none =>
        -- a file that ends in `.txt` would be one of the directory
        rw [Diccionario.vacio_valor, Option.or_none, ite_eq_right_iff]
        intro hm
        rw [hs.archivos (hlista.1 hm).2, ha]
        rfl
    | some a =>
        obtain ⟨htxt, -⟩ := hs.nombres (n := m) (by simp [ha])
        have hv := hs.archivos htxt
        rw [ha, Option.map_some] at hv
        rw [if_pos (hlista.2 ⟨by simp [hv], htxt⟩), hv, Option.map_some, Option.some_or,
          leerConfigArchivo_formatear hbs hdisco hconfig ht ha]
  · intro x h₀ hx
    have hlt : x.toNat < 8 * (c.blockCount / 8) := by omega
    rw [List.take_of_length_le (by simp [Bits.aBytes]), Bits.deBytes_aBytes hlt, decide_eq_true h₀,
      Bool.true_and, Int.toNat_of_nonneg h₀]
  · intro x h₀ hx
    have hlt : x.toNat < c.blockCount * c.blockSize := by omega
    rw [if_pos h₀, List.take_of_length_le (by simp), List.getD_eq_getElem?_getD, List.getElem?_map,
      List.getElem?_range hlt, Option.map_some, Option.getD_some, Int.toNat_of_nonneg h₀]

/-- In every run that creates files only under names that end in `.txt` and name an entry of the
directory, a restart rebuilds the directory, the bitmap and the blocks. -/
theorem reinicio_recupera (hbs : 0 < c.blockSize) (hdisco : c.blockCount * c.blockSize < 2 ^ 31)
    (hconfig : LeeConfig configInt) {p : Estado × Anfitrion}
    (halc : Transicion.AlcanzableCon (sistemaPersistente c abre configInt)
      (fun _ e => NombreRecuperable abre e) p) : Recupera c configInt p.1 p.2 := by
  suffices hinv : Acotado c p.1 ∧ Espejo c abre p.1 p.2 from
    recupera_of_espejo hbs hdisco hconfig hinv.1 hinv.2
  refine halc.invariante (I := fun p => Acotado c p.1 ∧ Espejo c abre p.1 p.2) ?_ ?_
  · rintro p rfl
    refine ⟨⟨fun ha => ?_, fun ha => ?_⟩, espejo_inicial⟩
    · cases ha
    · cases ha
  · rintro ⟨s, h⟩ e ⟨s', h'⟩ ⟨ht, hs⟩ hC ⟨hpaso, hcommit⟩
    change h' = _ at hcommit
    subst hcommit
    exact ⟨acotado_paso hbs hdisco ht hpaso, espejo_paso hbs hdisco ht hs hC hpaso⟩

/-! ### Reading a configuration -/

/-- A reader of configurations: the lines, split at the first `=`, and the number, without a sign,
after the key. -/
def leerEntero (contenido : List UInt8) (clave : String) : ℤ :=
  let lineas := (contenido.map fun b => Char.ofNat b.toNat).splitOn '\n'
  match lineas.find? fun linea => decide (linea.takeWhile (· ≠ '=') = clave.toList) with
  | none => 0
  | some linea => Nat.ofDigitChars 10 ((linea.dropWhile (· ≠ '=')).drop 1) 0

theorem mem_repr {n : ℕ} {ch : Char} (hch : ch ∈ n.repr.toList) :
    48 ≤ ch.toNat ∧ ch.toNat ≤ 57 := by
  rw [Nat.toList_repr] at hch
  exact Char.isDigit_iff_toNat.1 (Nat.isDigit_of_mem_toDigits (by decide) (by decide) hch)

/-- The bytes of an ASCII text are its characters. -/
theorem map_texto {t : String} (ht : ∀ ch ∈ t.toList, ch.toNat < 128) :
    (texto t).map (fun b => Char.ofNat b.toNat) = t.toList := by
  rw [texto, List.map_map]
  refine (List.map_congr_left fun ch hch => ?_).trans (List.map_id _)
  have hlt := ht ch hch
  rw [Function.comp_apply, UInt8.toNat_ofNat', Nat.mod_eq_of_lt (by omega), Char.ofNat_toNat, id]

/-- One line of a configuration. -/
def linea (clave : String) (n : ℕ) : List Char := clave.toList ++ '=' :: n.repr.toList

theorem takeWhile_linea {clave : String} (h : ∀ ch ∈ clave.toList, ch ≠ '=') (n : ℕ) :
    (linea clave n).takeWhile (· ≠ '=') = clave.toList := by
  rw [linea, List.takeWhile_append_of_pos (by simpa using h)]
  simp

theorem dropWhile_linea {clave : String} (h : ∀ ch ∈ clave.toList, ch ≠ '=') (n : ℕ) :
    (linea clave n).dropWhile (· ≠ '=') = '=' :: n.repr.toList := by
  rw [linea, List.dropWhile_append_of_pos (by simpa using h)]
  simp

theorem toNat_lt_of_mem_linea {clave : String} (h : ∀ ch ∈ clave.toList, ch.toNat < 128) {n : ℕ}
    {ch : Char} (hch : ch ∈ linea clave n) : ch.toNat < 128 := by
  rw [linea, List.mem_append, List.mem_cons] at hch
  rcases hch with hch | rfl | hch
  · exact h ch hch
  · decide
  · exact (mem_repr hch).2.trans_lt (by decide)

theorem ne_of_mem_linea {clave : String} (h : ∀ ch ∈ clave.toList, ch ≠ '\n') {n : ℕ} {ch : Char}
    (hch : ch ∈ linea clave n) : ch ≠ '\n' := by
  rw [linea, List.mem_append, List.mem_cons] at hch
  rcases hch with hch | rfl | hch
  · exact h ch hch
  · decide
  · rintro rfl
    exact absurd (mem_repr hch).1 (by decide)

/-- The text of a file is two lines. -/
theorem lineas_formatear (i t : ℕ) :
    ((formatearDatosArchivo ⟨i, t⟩).map fun b => Char.ofNat b.toNat).splitOn '\n' =
      [linea "BLOQUE_INICIAL" i, linea "TAM_ARCHIVO" t] := by
  have hb : ∀ ch ∈ linea "BLOQUE_INICIAL" i, ch ≠ '\n' := fun _ => ne_of_mem_linea (by simp)
  have ht : ∀ ch ∈ linea "TAM_ARCHIVO" t, ch ≠ '\n' := fun _ => ne_of_mem_linea (by simp)
  have htexto : ("BLOQUE_INICIAL=" ++ Int.repr i ++ "\n" ++ "TAM_ARCHIVO=" ++ Int.repr t).toList =
      linea "BLOQUE_INICIAL" i ++ '\n' :: linea "TAM_ARCHIVO" t := by
    simp only [String.toList_append, List.append_assoc]
    rfl
  rw [formatearDatosArchivo, map_texto, htexto, List.splitOn_eq_splitOnP,
    List.splitOnP_append_cons_of_forall_mem (by simpa using hb) _ (by simp),
    List.splitOnP_eq_singleton (by simpa using ht)]
  rw [htexto]
  intro ch hch
  rw [List.mem_append, List.mem_cons] at hch
  rcases hch with hch | rfl | hch
  · exact toNat_lt_of_mem_linea (by simp) hch
  · decide
  · exact toNat_lt_of_mem_linea (by simp) hch

theorem leeConfig_leerEntero : LeeConfig leerEntero := by
  rintro ⟨i, t⟩ hini - htam -
  obtain ⟨i, rfl⟩ := Int.eq_ofNat_of_zero_le hini
  obtain ⟨t, rfl⟩ := Int.eq_ofNat_of_zero_le htam
  have hb : ∀ ch ∈ "BLOQUE_INICIAL".toList, ch ≠ '=' := by simp
  have ht : ∀ ch ∈ "TAM_ARCHIVO".toList, ch ≠ '=' := by simp
  have hclaves : ¬"BLOQUE_INICIAL".toList = "TAM_ARCHIVO".toList := by simp
  constructor
  · simp only [leerEntero, lineas_formatear, List.find?_cons, takeWhile_linea hb, decide_true,
      dropWhile_linea hb, List.drop_one, List.tail_cons, Nat.toList_repr,
      Nat.ofDigitChars_ten_toDigits]
  · simp only [leerEntero, lineas_formatear, List.find?_cons, takeWhile_linea hb,
      takeWhile_linea ht, hclaves, decide_false, decide_true, dropWhile_linea ht, List.drop_one,
      List.tail_cons, Nat.toList_repr, Nat.ofDigitChars_ten_toDigits]

/-! ### Two runs -/

/-- One request that completes and meets a condition, with what it writes. -/
def intentarPersistente (c : Config) (abre : String → Option String) (C : Evento → Bool)
    (p : Estado × Anfitrion) (e : Evento) : Option (Estado × Anfitrion) :=
  (intentarLibre c (fun _ e => C e) p.1 e).map fun s' => (s', commit c abre p.1 p.2 e)

theorem paso_of_intentarPersistente {C : Evento → Bool} {p p' : Estado × Anfitrion} {e : Evento}
    (h : intentarPersistente c abre C p e = some p') :
    C e = true ∧ (sistemaPersistente c abre configInt).paso p e p' := by
  obtain ⟨s', hs', rfl⟩ := Option.map_eq_some_iff.1 h
  obtain ⟨hC, hpaso⟩ := paso_of_intentarLibre hs'
  exact ⟨hC, hpaso, rfl⟩

/-- Two files are created and grow, one is written, the other shrinks and is deleted. -/
def guardado : Estado × Anfitrion :=
  Transicion.estadoTras
    (intentarPersistente discoChico some fun e => decide (NombreRecuperable some e))
    (inicializar discoChico leerEntero .vacio [])
    [.crear "a.txt", .crear "b.txt", .truncar "a.txt" 20 ["b.txt", "a.txt"],
      .escribir "a.txt" 3 [7, 8], .truncar "b.txt" 40 ["a.txt", "b.txt"],
      .truncar "b.txt" 10 ["a.txt", "b.txt"], .eliminar "b.txt"] (by decide +kernel)

theorem reinicio_recupera_guardado : Recupera discoChico leerEntero guardado.1 guardado.2 := by
  have halc : Transicion.AlcanzableCon (sistemaPersistente discoChico some leerEntero)
      (fun _ e => NombreRecuperable some e) guardado := by
    refine Transicion.alcanzableCon_estadoTras ?_ rfl _
    intro p e p' h
    obtain ⟨hC, hpaso⟩ := paso_of_intentarPersistente h
    exact ⟨of_decide_eq_true hC, hpaso⟩
  exact reinicio_recupera (by decide) (by decide) leeConfig_leerEntero halc

/-- A file without extension. -/
def sinExtension : Estado × Anfitrion :=
  Transicion.estadoTras (intentarPersistente discoChico some fun _ => true)
    (inicializar discoChico leerEntero .vacio []) [.crear "notas"] (by decide +kernel)

/-- It is not there after a restart. -/
theorem sinExtension_no_recupera :
    ¬∀ (c : Config) (abre : String → Option String) (configInt : List UInt8 → String → ℤ)
      (p : Estado × Anfitrion), 0 < c.blockSize → c.blockCount * c.blockSize < 2 ^ 31 →
        LeeConfig configInt → Transicion.Alcanzable (sistemaPersistente c abre configInt) p →
          Recupera c configInt p.1 p.2 := by
  intro h
  have halc : Transicion.Alcanzable (sistemaPersistente discoChico some leerEntero) sinExtension :=
    Transicion.alcanzableCon_estadoTras
      (fun _ _ _ h => ⟨trivial, (paso_of_intentarPersistente h).2⟩) rfl _
  have hrecupera := h discoChico some leerEntero sinExtension (by decide) (by decide)
    leeConfig_leerEntero halc _ (List.Perm.refl _)
  exact absurd (congrFun hrecupera.1 "notas") (by decide +kernel)

end DialFs
