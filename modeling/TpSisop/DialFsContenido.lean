/-
**The DialFS disk against a map from names to bytes.**

To its users the file system is a map from names to arrays of bytes: a write stores bytes at offsets
of a file, a read answers them.  The disk behind it moves files around whenever one of them grows,
in an order that depends on the dictionary, through a buffer for the grown file and a second disk
for the others.  This module proves that, as long as no file shrinks, none of that can be seen: the
bytes a file has been given since it was created are the bytes a read answers.

Main definitions:

* `DialFs.Contenido`, `DialFs.aplicar`, `DialFs.contenidoTras` — the abstract map, what a request
  does to it, and the map after a run;
* `DialFs.abstracto` — the map as a system, in which a read answers the last bytes written;
* `DialFs.Representa` — the disk holds the map.

Main results:

* `DialFs.simulacion` — the disk simulates the map;
* `DialFs.lectura_ultima_escritura` — in every run, a read answers the last bytes written.
-/

import TpSisop.DialFsInvariante

set_option relaxedAutoImplicit false
set_option autoImplicit false

namespace DialFs

open Coleccion (Diccionario)

/-! ### The abstract map -/

/-- For each file, the bytes written since it was created, by offset. -/
abbrev Contenido : Type := String → Option (ℕ → Option UInt8)

/-- The bytes of a file after `datos` is written at `pos`. -/
def sobrescribir (f : ℕ → Option UInt8) (pos : ℕ) (datos : List UInt8) : ℕ → Option UInt8 :=
  fun j => if j < pos then f j else (datos[j - pos]?).or (f j)

/-- What a request does to the map: truncations and reads do nothing. -/
def aplicar (m : Contenido) : Evento → Contenido
  | .crear n => Function.update m n (some fun _ => none)
  | .eliminar n => Function.update m n none
  | .truncar _ _ _ => m
  | .escribir n pos datos => Function.update m n ((m n).map fun f => sobrescribir f pos datos)
  | .leer _ _ _ => m

/-- The map after a run: at each offset, the last byte written there since the file was last
created. -/
def contenidoTras (es : List Evento) : Contenido := es.foldl aplicar fun _ => none

/-- The bytes `leido` from `pos` on repeat the ones that are known. -/
def Coincide (f : ℕ → Option UInt8) (pos : ℕ) (leido : List UInt8) : Prop :=
  ∀ i < leido.length, ∀ v, f (pos + i) = some v → leido[i]? = some v

/-- The map as a system: a read answers the bytes that have been written. -/
def abstracto : Transicion.Sistema Contenido Evento where
  inicial m := m = fun _ => none
  paso m e m' := m' = aplicar m e ∧
    ∀ n pos leido, e = .leer n pos leido → ∀ f, m n = some f → Coincide f pos leido

/-- A run of the abstract system ends in the map of its events. -/
theorem contenidoTras_of_corrida {C : Contenido → Evento → Prop} {es : List Evento}
    {m : Contenido} (h : Transicion.Corrida abstracto C es m) : m = contenidoTras es := by
  induction h with
  | inicio h => exact h
  | paso _ _ hpaso ih =>
      rw [contenidoTras, List.foldl_append, List.foldl_cons, List.foldl_nil]
      rw [hpaso.1, ih]
      rfl

/-! ### The simulation relation -/

/-- The disk is sound and holds the map: the same names, and the bytes written at their places. -/
structure Representa (c : Config) (s : Estado) (m : Contenido) : Prop where
  sano : Sano c s
  nombres : ∀ n, m n = none ↔ s.archivos.valor n = none
  bytes : ∀ {n f a}, m n = some f → s.archivos.valor n = some a → ∀ j v, f j = some v →
    (j : ℤ) < a.tamArchivo ∧ s.bloques (a.bloqueInicial * c.blockSize + j) = v

/-- No file is truncated to fewer blocks than it uses. -/
def SinAchicar (c : Config) (s : Estado) : Evento → Prop
  | .truncar nombre tamanio _ =>
      ∀ a ∈ s.archivos.valor nombre,
        cantidadDeBloques c a.tamArchivo ≤ cantidadDeBloques c tamanio.toNat
  | _ => True

instance (c : Config) (s : Estado) : DecidablePred (SinAchicar c s)
  | .truncar nombre _ _ => inferInstanceAs (Decidable (∀ a ∈ s.archivos.valor nombre, _ ≤ _))
  | .crear _ | .eliminar _ | .escribir _ _ _ | .leer _ _ _ => .isTrue trivial

variable {c : Config}

/-- A byte of a file is in a block of the file. -/
theorem posee_of_byte (hbs : 0 < c.blockSize) (a : Archivo) {j : ℤ} (h₀ : 0 ≤ j)
    (h : j < a.propios c * c.blockSize) :
    posee c a ((a.bloqueInicial * c.blockSize + j) / c.blockSize) := by
  have hbs' : (0 : ℤ) < c.blockSize := by exact_mod_cast hbs
  have hdiv : (a.bloqueInicial * c.blockSize + j) / c.blockSize =
      a.bloqueInicial + j / c.blockSize := by
    rw [Int.add_comm, Int.add_mul_ediv_right _ _ hbs'.ne', Int.add_comm]
  have hpos : 0 ≤ j / c.blockSize := Int.ediv_nonneg h₀ hbs'.le
  have hlt : j / c.blockSize < a.propios c := Int.ediv_lt_of_lt_mul hbs' h
  rw [hdiv]
  exact ⟨by omega, by omega⟩

/-- On a disk whose size is an `int`, a truncation that does not shrink has a size that is one. -/
theorem tamanio_lt (hbs : 0 < c.blockSize) (hdisco : c.blockCount * c.blockSize < 2 ^ 31)
    {s : Estado} (hs : Sano c s) {nombre : String} {a : Archivo} {tamanio : UInt32}
    {claves : List String} (ha : s.archivos.valor nombre = some a)
    (hcabe : cabe c s nombre tamanio claves = true) : tamanio.toNat < 2 ^ 31 := by
  obtain ⟨h₀, hfin⟩ := hs.rango ha
  exact (tamanio_lt_of_cabe hbs hdisco ha (by omega) hcabe).2

/-! ### One request -/

section Paso

variable {s : Estado} {m : Contenido}

theorem representa_inicial : Representa c estadoInicial fun _ => none := by
  refine ⟨sano_inicial, ?_, ?_⟩
  · simp [estadoInicial]
  · intro n f a hf
    cases hf

theorem representa_crear (hR : Representa c s m) {n : String}
    (hlibre : bloqueLibre c s.bitmap ≠ -1) :
    Representa c (crearArchivo c s n) (aplicar m (.crear n)) := by
  refine ⟨sano_crearArchivo hR.sano hlibre, fun k => ?_, fun {k f a} hf ha j v hv => ?_⟩
  · by_cases hk : k = n
    · subst hk
      simp [aplicar, crearArchivo]
    · simpa [aplicar, crearArchivo, hk] using hR.nombres k
  · by_cases hk : k = n
    · subst hk
      simp only [aplicar, Function.update_self, Option.some.injEq] at hf
      subst hf
      cases hv
    · simp only [aplicar, crearArchivo, Diccionario.poner_valor,
        Function.update_of_ne hk] at hf ha
      exact hR.bytes hf ha j v hv

theorem representa_eliminar (hR : Representa c s m) (n : String) :
    Representa c (eliminarArchivo c s n) (aplicar m (.eliminar n)) := by
  have hvalor : (eliminarArchivo c s n).archivos.valor =
      Function.update s.archivos.valor n none := by
    unfold eliminarArchivo
    split
    · rename_i hnone
      rw [← hnone, Function.update_eq_self]
    · rfl
  have hbloques : (eliminarArchivo c s n).bloques = s.bloques := by
    unfold eliminarArchivo
    split <;> rfl
  refine ⟨sano_eliminarArchivo hR.sano n, fun k => ?_, fun {k f a} hf ha j v hv => ?_⟩
  · rw [hvalor]
    by_cases hk : k = n
    · subst hk
      simp [aplicar]
    · simpa [aplicar, hk] using hR.nombres k
  · rw [hvalor] at ha
    rw [hbloques]
    by_cases hk : k = n
    · subst hk
      simp at ha
    · simp only [aplicar, Function.update_of_ne hk] at hf ha
      exact hR.bytes hf ha j v hv

/-- A file that grows, and every file the compaction moves, keeps its bytes. -/
theorem representa_agrandar (hbs : 0 < c.blockSize) (hR : Representa c s m) {n : String}
    {a : Archivo} {tamanio : UInt32} {claves : List String} (ha : s.archivos.valor n = some a)
    (hclaves : claves.Perm s.archivos.claves) (htam : tamanio.toNat < 2 ^ 31)
    (hmas : cantidadDeBloques c a.tamArchivo < cantidadDeBloques c tamanio.toNat)
    (hcabe : bloquesDeOtros c s n claves + cantidadDeBloques c tamanio.toNat ≤ c.blockCount) :
    Representa c (truncarArchivo c s n tamanio claves) m := by
  obtain ⟨hpropio, hotros, -, hcontenido⟩ := compactar_spec hbs hR.sano ha hclaves
  -- the file really grows in bytes
  have hcrece : a.tamArchivo < tamanio.toNat := by
    by_contra hno
    have hmono := Entero.techo_mono hbs (Int.natCast_nonneg tamanio.toNat) (not_lt.1 hno)
    rw [cantidadDeBloques_eq_techo, cantidadDeBloques_eq_techo] at hmas
    omega
  refine ⟨sano_agrandar hbs hR.sano ha hclaves htam hmas hcabe, fun k => ?_,
    fun {k f b'} hf hb' j v hv => ?_⟩
  · rw [truncarArchivo_agrandar hbs hR.sano ha hclaves htam hmas, hR.nombres]
    by_cases hk : k = n
    · subst hk
      simp [ha]
    · simp [hk, hotros k hk]
  · rw [truncarArchivo_agrandar hbs hR.sano ha hclaves htam hmas] at hb' ⊢
    rcases Diccionario.poner_eq_some hb' with ⟨rfl, rfl⟩ | ⟨hk, hb'⟩
    · obtain ⟨hj, hbyte⟩ := hR.bytes hf ha j v hv
      refine ⟨hj.trans hcrece, ?_⟩
      exact (hcontenido k a _ ha hpropio j (Int.natCast_nonneg j) hj).trans hbyte
    · have hb := hb'
      rw [hotros k hk, Option.map_eq_some_iff] at hb
      obtain ⟨b, hb, rfl⟩ := hb
      obtain ⟨hj, hbyte⟩ := hR.bytes hf hb j v hv
      exact ⟨hj, (hcontenido k b _ hb hb' j (Int.natCast_nonneg j) hj).trans hbyte⟩

theorem representa_truncar (hbs : 0 < c.blockSize)
    (hdisco : c.blockCount * c.blockSize < 2 ^ 31) (hR : Representa c s m) {n : String}
    {tamanio : UInt32} {claves : List String} (hclaves : claves.Perm s.archivos.claves)
    (hcabe : cabe c s n tamanio claves = true)
    (hC : SinAchicar c s (.truncar n tamanio claves)) :
    Representa c (truncarArchivo c s n tamanio claves) m := by
  cases ha : s.archivos.valor n with
  | none =>
      rw [truncarArchivo_of_none ha]
      exact hR
  | some a =>
      have htam := tamanio_lt hbs hdisco hR.sano ha hcabe
      rcases (hC a ha).lt_or_eq with hmas | higual
      · exact representa_agrandar hbs hR ha hclaves htam hmas (bloques_le_of_cabe ha hcabe hmas)
      · rw [truncarArchivo_igual ha htam higual.symm]
        exact hR

theorem representa_escribir (hbs : 0 < c.blockSize) (hR : Representa c s m) {s' : Estado}
    {n : String} {pos : ℕ} {datos : List UInt8} (hdentro : dentro s n pos datos.length = true)
    (h : ioFsWrite c s n pos datos = some s') :
    Representa c s' (aplicar m (.escribir n pos datos)) := by
  obtain ⟨a, ha, rfl⟩ := Option.map_eq_some_iff.1 h
  simp only [dentro, ha, decide_eq_true_eq] at hdentro
  refine ⟨⟨hR.sano.tamanios, hR.sano.rango, hR.sano.bits, hR.sano.ajenos⟩, fun k => ?_,
    fun {k f b} hf hb j v hv => ?_⟩
  · by_cases hk : k = n
    · subst hk
      simpa [aplicar] using hR.nombres k
    · simpa [aplicar, hk] using hR.nombres k
  · simp only at hb ⊢
    unfold memcpy
    by_cases hk : k = n
    · subst hk
      obtain rfl : a = b := Option.some.inj (ha.symm.trans hb)
      simp only [aplicar, Function.update_self, Option.map_eq_some_iff] at hf
      obtain ⟨g, hg, rfl⟩ := hf
      unfold sobrescribir at hv
      split at hv
      · -- before the bytes written
        obtain ⟨hj, hbyte⟩ := hR.bytes hg ha j v hv
        exact ⟨hj, by rw [if_neg (by omega)]; exact hbyte⟩
      · rename_i hpos
        cases hd : datos[j - pos]? with
        | some d =>
            obtain rfl : d = v := by simpa [hd] using hv
            obtain ⟨hlt, hdj⟩ := List.getElem?_eq_some_iff.1 hd
            have hlugar : (0 + (a.bloqueInicial * c.blockSize + (j : ℤ) -
                (a.bloqueInicial * c.blockSize + pos))).toNat = j - pos := by omega
            refine ⟨by omega, ?_⟩
            rw [if_pos ⟨by omega, by omega⟩]
            simp only [hlugar, List.getD_eq_getElem?_getD, hd]
            rfl
        | none =>
            obtain ⟨hj, hbyte⟩ := hR.bytes hg ha j v (by simpa [hd] using hv)
            have hle := List.getElem?_eq_none_iff.1 hd
            exact ⟨hj, by rw [if_neg (by omega)]; exact hbyte⟩
    · simp only [aplicar, Function.update_of_ne hk] at hf
      obtain ⟨hj, hbyte⟩ := hR.bytes hf hb j v hv
      refine ⟨hj, ?_⟩
      rw [if_neg]
      · exact hbyte
      -- a byte of both files would be in a block of both
      · rintro ⟨h₁, h₂⟩
        have hbytesA := tamArchivo_le hbs (hR.sano.tamanios ha)
        have hbytesB := tamArchivo_le hbs (hR.sano.tamanios hb)
        have hB := posee_of_byte hbs b (Int.natCast_nonneg j) (by omega)
        have hA := posee_of_byte hbs a
          (j := b.bloqueInicial * c.blockSize + j - a.bloqueInicial * c.blockSize) (by omega)
          (by omega)
        rw [add_sub_cancel] at hA
        exact hR.sano.ajenos ha hb (Ne.symm hk) _ hA hB

/-- The bytes a read answers repeat the ones written. -/
theorem coincide_ioFsRead (hR : Representa c s m) {n : String} {pos tam : ℕ} {leido : List UInt8}
    (h : ioFsRead c s n pos tam = some leido) {f : ℕ → Option UInt8} (hf : m n = some f) :
    Coincide f pos leido := by
  obtain ⟨a, ha, rfl⟩ := Option.map_eq_some_iff.1 h
  intro i hi v hv
  obtain ⟨-, hbyte⟩ := hR.bytes hf ha (pos + i) v hv
  have hi' : i < tam := by simpa using hi
  rw [List.getElem?_map, List.getElem?_range hi', ← hbyte]
  push_cast
  simp [Int.add_assoc]

/-- One request of the disk is matched by the map. -/
theorem representa_paso (hbs : 0 < c.blockSize) (hdisco : c.blockCount * c.blockSize < 2 ^ 31)
    (hR : Representa c s m) {e : Evento} {s' : Estado} (hC : SinAchicar c s e)
    (h : (sistema c).paso s e s') :
    ∃ m', abstracto.paso m e m' ∧ Representa c s' m' := by
  obtain ⟨hadm, hatender⟩ := h
  cases e with
  | crear n =>
      obtain rfl : _ = s' := Option.some.inj hatender
      exact ⟨_, ⟨rfl, by simp⟩, representa_crear hR hadm.2⟩
  | eliminar n =>
      obtain rfl : _ = s' := Option.some.inj hatender
      exact ⟨_, ⟨rfl, by simp⟩, representa_eliminar hR n⟩
  | truncar n tamanio claves =>
      obtain rfl : _ = s' := Option.some.inj hatender
      exact ⟨_, ⟨rfl, by simp⟩, representa_truncar hbs hdisco hR hadm.1 hadm.2 hC⟩
  | escribir n pos datos =>
      exact ⟨_, ⟨rfl, by simp⟩, representa_escribir hbs hR hadm hatender⟩
  | leer n pos leido =>
      obtain ⟨hlee, rfl⟩ := atender_leer hatender
      refine ⟨_, ⟨rfl, ?_⟩, hR⟩
      intro k pos' leido' heq f hf
      obtain ⟨rfl, rfl, rfl⟩ : n = k ∧ pos = pos' ∧ leido = leido' := by simpa using heq
      exact coincide_ioFsRead hR hlee hf

end Paso

/-! ### Runs -/

/-- The disk simulates the map. -/
theorem simulacion (hbs : 0 < c.blockSize) (hdisco : c.blockCount * c.blockSize < 2 ^ 31) :
    Transicion.Simulacion (sistema c) (SinAchicar c) abstracto (Representa c) where
  inicial := by
    rintro s rfl
    exact ⟨_, rfl, representa_inicial⟩
  paso := by
    intro s m e s' hR hC hpaso
    exact representa_paso hbs hdisco hR hC hpaso

/-- In every run in which no file shrinks, a read inside a file returns, and at every offset that
has been written since the file was last created it answers the last byte written there. -/
theorem lectura_ultima_escritura (hbs : 0 < c.blockSize) (_ : 8 ∣ c.blockCount)
    (hdisco : c.blockCount * c.blockSize < 2 ^ 31) {es : List Evento} {s : Estado}
    (h : Transicion.Corrida (sistema c) (SinAchicar c) es s) {n : String} {pos tam : ℕ}
    (hdentro : dentro s n pos tam = true) :
    ∃ leido f, ioFsRead c s n pos tam = some leido ∧ leido.length = tam ∧
      contenidoTras es n = some f ∧
      ∀ i < tam, ∀ v, f (pos + i) = some v → leido[i]? = some v := by
  obtain ⟨m, hm, hR⟩ := (simulacion hbs hdisco).corrida h
  obtain rfl := contenidoTras_of_corrida hm
  cases ha : s.archivos.valor n with
  | none => simp [dentro, ha] at hdentro
  | some a =>
      obtain ⟨f, hf⟩ : ∃ f, contenidoTras es n = some f := by
        refine Option.ne_none_iff_exists'.1 fun hnone => ?_
        simp [(hR.nombres n).1 hnone] at ha
      cases hlee : ioFsRead c s n pos tam with
      | none => simp [ioFsRead, ha] at hlee
      | some leido =>
          have hlen : leido.length = tam := by
            obtain ⟨-, -, rfl⟩ := Option.map_eq_some_iff.1 hlee
            simp
          refine ⟨leido, f, rfl, hlen, hf, ?_⟩
          intro i hi
          exact coincide_ioFsRead hR hlee hf i (by omega)

/-! ### A run -/

/-- The file that is written is then moved by the compaction another file causes. -/
def eventosMovido : List Evento :=
  [.crear "a", .crear "b", .truncar "a" 20 ["a", "b"], .escribir "a" 15 [7, 8, 9],
    .truncar "b" 40 ["a", "b"]]

/-- The disk after those requests. -/
def discoMovido : Estado :=
  Transicion.estadoTras (intentar discoChico fun s e => decide (SinAchicar discoChico s e))
    estadoInicial eventosMovido (by decide +kernel)

theorem lectura_ultima_escritura_movido :
    (contenidoTras eventosMovido "a").map (fun f => f 16) = some (some 8) ∧
    ∃ leido, ioFsRead discoChico discoMovido "a" 14 4 = some leido ∧ leido[2]? = some 8 := by
  have hcorrida : Transicion.Corrida (sistema discoChico) (SinAchicar discoChico) eventosMovido
      discoMovido := by
    refine Transicion.corrida_estadoTras ?_ rfl _
    intro s e s' h
    obtain ⟨hC, hpaso⟩ := paso_of_intentar h
    exact ⟨of_decide_eq_true hC, hpaso⟩
  have hdentro : dentro discoMovido "a" 14 4 = true := by decide +kernel
  obtain ⟨leido, f, hlee, -, hf, hbytes⟩ :=
    lectura_ultima_escritura (by decide) (by decide) (by decide) hcorrida hdentro
  have hmapa : (contenidoTras eventosMovido "a").map (fun f => f 16) = some (some 8) := by
    decide +kernel
  refine ⟨hmapa, leido, hlee, hbytes 2 (by decide) 8 ?_⟩
  simpa [hf] using hmapa

end DialFs
