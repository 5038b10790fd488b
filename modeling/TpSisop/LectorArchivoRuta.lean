/-
**Where a file of instructions is looked for.**

`leer_archivo` changes the working directory, opens the file by its last name, and goes up one
directory when it is done.  A name that is one piece is looked for in the base path; of any other
name the first piece is dropped, and then the pieces are taken in pairs: the first ones of the pairs
are put together as the name of one directory, and the second one of the last pair is the file.  The
working directory is left where it is when the file cannot be opened.

Main definitions:

* `LectorArchivo.chdir`, `LectorArchivo.fopen` — over a tree of directories;
* `LectorArchivo.ubicar`, `LectorArchivo.leerArchivo` — `leer_archivo`;
* `LectorArchivo.Resuelve` — it reads the file of that path and stays where it was;
* `LectorArchivo.Resoluble` — the names and the states of the disk for which it does.

Main result:

* `LectorArchivo.resuelve_iff`.
-/

import TpSisop.LectorArchivo

set_option relaxedAutoImplicit false
set_option autoImplicit false

namespace LectorArchivo

/-! ### Paths -/

def barra : UInt8 := 47

def punto : UInt8 := 46

/-- An absolute path: the names from the root on. -/
abbrev Ruta := List Bytes

/-- The directories that can be entered and the files that can be opened, each in a directory. -/
structure SistemaDeArchivos where
  directorio : Ruta → Bool
  archivo : Ruta → Bool
  enDirectorio : ∀ {r n}, archivo (r ++ [n]) → directorio r

namespace SistemaDeArchivos

/-- Goes through the names of a path, all of them directories. -/
def recorrer (fs : SistemaDeArchivos) : Ruta → List Bytes → Option Ruta
  | r, [] => some r
  | r, n :: ns =>
      if n = [] ∨ n = [punto] then fs.recorrer r ns
      else if n = [punto, punto] then fs.recorrer r.dropLast ns
      else if fs.directorio (r ++ [n]) then fs.recorrer (r ++ [n]) ns
      else none

/-- Where a path starts. -/
def partida (cwd : Ruta) (path : Bytes) : Ruta := if path.head? = some barra then [] else cwd

/-- `chdir(path)`: the working directory after it, the same one if it fails. -/
def chdir (fs : SistemaDeArchivos) (cwd : Ruta) (path : Bytes) : Ruta :=
  if path = [] then cwd
  else (fs.recorrer (partida cwd path) (path.splitOn barra)).getD cwd

/-- `fopen(path, "r")`: the file it opens. -/
def fopen (fs : SistemaDeArchivos) (cwd : Ruta) (path : Bytes) : Option Ruta := do
  let r ← fs.recorrer (partida cwd path) (path.splitOn barra).dropLast
  let arch := r ++ (path.splitOn barra).getLast?.toList
  if fs.archivo arch then some arch else none

end SistemaDeArchivos

/-- The name of an entry of a directory, other than the two that every directory has. -/
structure Ordinario (n : Bytes) : Prop where
  noVacio : n ≠ []
  sinBarra : barra ∉ n
  noPunto : n ≠ [punto]
  noDosPuntos : n ≠ [punto, punto]

section

variable {fs : SistemaDeArchivos} {cwd : Ruta} {n m : Bytes}

theorem Ordinario.append (hn : Ordinario n) (hm : Ordinario m) : Ordinario (n ++ m) := by
  have h₁ := List.length_pos_iff.2 hn.noVacio
  have h₂ := List.length_pos_iff.2 hm.noVacio
  refine ⟨by simp [hn.noVacio], by simp [hn.sinBarra, hm.sinBarra], fun h => ?_, fun h => ?_⟩
  · have := congrArg List.length h
    simp only [List.length_append, List.length_singleton] at this
    omega
  · -- two names of one byte each
    have hlen := congrArg List.length h
    simp only [List.length_append, List.length_cons, List.length_nil] at hlen
    obtain ⟨b, rfl⟩ := List.length_eq_one_iff.1 (show n.length = 1 by omega)
    refine hn.noPunto ?_
    rw [List.singleton_append, List.cons.injEq] at h
    rw [h.1]

theorem Ordinario.partida (hn : Ordinario n) (cwd : Ruta) (s : Bytes) :
    SistemaDeArchivos.partida cwd (n ++ s) = cwd := by
  obtain ⟨b, n', rfl⟩ := List.exists_cons_of_ne_nil hn.noVacio
  refine if_neg ?_
  rintro h
  rw [List.cons_append, List.head?_cons, Option.some.injEq] at h
  exact hn.sinBarra (by simp [h])

theorem Ordinario.partida_self (hn : Ordinario n) (cwd : Ruta) :
    SistemaDeArchivos.partida cwd n = cwd := by
  have h := hn.partida cwd []
  rwa [List.append_nil] at h

theorem Ordinario.recorrer (hn : Ordinario n) (ns : List Bytes) :
    fs.recorrer cwd (n :: ns)
      = if fs.directorio (cwd ++ [n]) then fs.recorrer (cwd ++ [n]) ns else none := by
  rw [SistemaDeArchivos.recorrer, if_neg (by simp [hn.noVacio, hn.noPunto]),
    if_neg hn.noDosPuntos]

/-- Entering a directory by its name, with or without a slash after it. -/
theorem chdir_ordinario (hn : Ordinario n) :
    fs.chdir cwd n = if fs.directorio (cwd ++ [n]) then cwd ++ [n] else cwd := by
  rw [SistemaDeArchivos.chdir, if_neg hn.noVacio, hn.partida_self,
    List.splitOn_eq_singleton hn.sinBarra, hn.recorrer]
  split <;> rfl

theorem chdir_ordinario_barra (hn : Ordinario n) :
    fs.chdir cwd (n ++ [barra]) = if fs.directorio (cwd ++ [n]) then cwd ++ [n] else cwd := by
  rw [SistemaDeArchivos.chdir, if_neg (by simp), hn.partida,
    List.splitOn_append_cons_self_of_not_mem hn.sinBarra, hn.recorrer]
  split <;> rfl

theorem chdir_nil : fs.chdir cwd [] = cwd := rfl

/-- Going up. -/
theorem chdir_arriba : fs.chdir cwd [punto, punto, barra] = cwd.dropLast := rfl

theorem fopen_ordinario (hn : Ordinario n) :
    fs.fopen cwd n = if fs.archivo (cwd ++ [n]) then some (cwd ++ [n]) else none := by
  rw [SistemaDeArchivos.fopen, hn.partida_self, List.splitOn_eq_singleton hn.sinBarra]
  rfl

end

/-! ### The function -/

/-- The loop over the pieces after the first one.  It dies when it copies the NULL after an odd
number of them, and `last_read` is not set when there are none. -/
def consumir (pathAppend : Bytes) (lastRead : Option Bytes) : List Bytes → Option (Bytes × Bytes)
  | [] => lastRead.map fun ultimo => (pathAppend, ultimo)
  | [_] => none
  | split :: split' :: resto => consumir (pathAppend ++ split) (some split') resto

/-- `leer_archivo` up to `fopen`: the working directory, and the name of the file. -/
def ubicar (stringSplit : Bytes → List Bytes) (fs : SistemaDeArchivos) (cwd : Ruta)
    (path nombreDeArchivo : Bytes) : Option (Ruta × Bytes) :=
  match stringSplit nombreDeArchivo with
  | [] => none
  | split :: resto =>
      if split ≠ nombreDeArchivo then
        (consumir [] none resto).map fun p => (fs.chdir cwd (p.1 ++ [barra]), p.2)
      else some (fs.chdir cwd path, nombreDeArchivo)

/-- `leer_archivo`: the list, or NULL, and the working directory. -/
def leerArchivo (stringSplit stringNSplit : Bytes → List Bytes) (fs : SistemaDeArchivos)
    (contenido : Ruta → Bytes) (cwd : Ruta) (path nombreDeArchivo : Bytes) :
    Option (Option (List Bytes) × Ruta) := do
  let (cwd, nombre) ← ubicar stringSplit fs cwd path nombreDeArchivo
  match fs.fopen cwd nombre with
  | none => some (none, cwd)
  | some arch => do
      let listaInstrucciones ← leerTexto stringNSplit (contenido arch)
      some (some listaInstrucciones, fs.chdir cwd [punto, punto, barra])

/-! ### Names of files -/

/-- A name of an entry. -/
abbrev Componente := { n : Bytes // Ordinario n }

/-- A relative name: its components, and whether a slash stands before them. -/
structure Nombre where
  barraInicial : Bool
  componentes : List Componente
  noVacio : componentes ≠ []

/-- The names as bytes. -/
def nombres (cs : List Componente) : List Bytes := cs.map Subtype.val

def Nombre.texto (n : Nombre) : Bytes :=
  (if n.barraInicial then [barra] else []) ++ [barra].intercalate (nombres n.componentes)

/-- What `string_split(_, "/")` is documented to do with a name: the pieces are its components, and
maybe an empty one before a slash at the beginning. -/
structure ParteNombres (stringSplit : Bytes → List Bytes) : Prop where
  relativo : ∀ n : Nombre, n.barraInicial = false →
    stringSplit n.texto = nombres n.componentes
  absoluto : ∀ n : Nombre, n.barraInicial = true →
    stringSplit n.texto = nombres n.componentes ∨ stringSplit n.texto = [] :: nombres n.componentes

/-- A base path: none, or one directory. -/
def textoBase (base : Option Componente) : Bytes := (base.map Subtype.val).getD []

/-- The file with that name in the base path, below the working directory. -/
def rutaDe (cwd : Ruta) (base : Option Componente) (n : Nombre) : Ruta :=
  cwd ++ nombres (base.toList ++ n.componentes)

/-! ### What it does -/

/-- Whatever can be read in the files, it reads the file of that name in the base path, or answers
NULL when there is none, and the working directory stays the same. -/
def Resuelve (stringSplit stringNSplit : Bytes → List Bytes) (fs : SistemaDeArchivos) (cwd : Ruta)
    (base : Option Componente) (n : Nombre) : Prop :=
  ∀ contenido : Ruta → Bytes, (∀ r, leerTexto stringNSplit (contenido r) ≠ none) →
    leerArchivo stringSplit stringNSplit fs contenido cwd (textoBase base) n.texto =
      some (if fs.archivo (rutaDe cwd base n) then
        leerTexto stringNSplit (contenido (rutaDe cwd base n)) else none, cwd)

/-- The directory in which it looks: the first of every two pieces, put together. -/
def carpeta : List Bytes → Bytes
  | n :: _ :: ns => n ++ carpeta ns
  | _ => []

/-- A name of one piece: in no base path, there is no such file, or the working directory is the
root; in a base path, the file is there, or neither the directory nor a file of that name in the
working directory. -/
def ResolublePieza (fs : SistemaDeArchivos) (cwd : Ruta) (base : Option Componente)
    (nombre : Bytes) : Prop :=
  match base with
  | none => fs.archivo (cwd ++ [nombre]) = true → cwd = []
  | some d =>
      if fs.directorio (cwd ++ [d.val]) then fs.archivo (cwd ++ [d.val] ++ [nombre]) = true
      else fs.archivo (cwd ++ [nombre]) = false

/-- A name of several pieces, `ps` after the first one: they are even, and they are two, which are
all the components, and the file is there; or they make no directory, and neither the file nor one
with its last name in the working directory is there. -/
def ResolublePiezas (fs : SistemaDeArchivos) (cwd : Ruta) (base : Option Componente) (n : Nombre)
    (ps : List Bytes) : Prop :=
  ∃ ultimo ∈ ps.getLast?, Even ps.length ∧
    if fs.directorio (cwd ++ [carpeta ps]) then
      base = none ∧ ps = nombres n.componentes ∧ ps.length = 2 ∧ fs.archivo (cwd ++ ps) = true
    else fs.archivo (cwd ++ [ultimo]) = false ∧ fs.archivo (rutaDe cwd base n) = false

/-- The names, the base paths and the states of the disk for which it does so. -/
def Resoluble (stringSplit : Bytes → List Bytes) (fs : SistemaDeArchivos) (cwd : Ruta)
    (base : Option Componente) (n : Nombre) : Prop :=
  ∃ split ∈ (stringSplit n.texto).head?,
    if split = n.texto then ResolublePieza fs cwd base n.texto
    else ResolublePiezas fs cwd base n (stringSplit n.texto).tail

instance (fs : SistemaDeArchivos) (cwd : Ruta) (base : Option Componente) (nombre : Bytes) :
    Decidable (ResolublePieza fs cwd base nombre) := by
  cases base with
  | none =>
      dsimp only [ResolublePieza]
      infer_instance
  | some d =>
      dsimp only [ResolublePieza]
      infer_instance

instance (fs : SistemaDeArchivos) (cwd : Ruta) (base : Option Componente) (n : Nombre)
    (ps : List Bytes) : Decidable (ResolublePiezas fs cwd base n ps) := by
  dsimp only [ResolublePiezas]
  infer_instance

instance (stringSplit : Bytes → List Bytes) (fs : SistemaDeArchivos) (cwd : Ruta)
    (base : Option Componente) (n : Nombre) : Decidable (Resoluble stringSplit fs cwd base n) := by
  dsimp only [Resoluble]
  infer_instance

section

variable {stringSplit stringNSplit : Bytes → List Bytes} {fs : SistemaDeArchivos} {cwd : Ruta}
  {base : Option Componente} {n : Nombre}

theorem leerArchivo_of_ubicar {contenido : Ruta → Bytes} {path nombre ultimo : Bytes} {dir : Ruta}
    (h : ubicar stringSplit fs cwd path nombre = some (dir, ultimo)) (hu : Ordinario ultimo) :
    leerArchivo stringSplit stringNSplit fs contenido cwd path nombre =
      if fs.archivo (dir ++ [ultimo]) then
        (leerTexto stringNSplit (contenido (dir ++ [ultimo]))).map fun lista =>
          (some lista, dir.dropLast)
      else some (none, dir) := by
  rw [leerArchivo, h]
  simp only [Option.bind_eq_bind, Option.bind_some]
  rw [fopen_ordinario hu]
  by_cases harch : fs.archivo (dir ++ [ultimo])
  · simp only [if_pos harch, chdir_arriba, Option.map_eq_bind]
    rfl
  · simp only [if_neg harch]

/-- Two texts of one line each, which the loop tells apart. -/
theorem exists_contenidos (h : ParteLineas stringNSplit) :
    leerTexto stringNSplit [65] = some [[65]] ∧ leerTexto stringNSplit [66] = some [[66]] := by
  have hlee : ∀ b : UInt8, b ≠ salto → b ≠ 0 → leerTexto stringNSplit [b] = some [[b]] := by
    intro b hs h₀
    let l : Linea := ⟨[b], by simp, by simpa using hs.symm, by simpa using h₀.symm⟩
    have hl : leerTexto stringNSplit (texto [l] false) = some [l.bytes] :=
      leerTexto_texto h (by simp) (by simp [l])
    simpa [texto, l] using hl
  exact ⟨hlee 65 (by decide) (by decide), hlee 66 (by decide) (by decide)⟩

/-- It dies before it opens anything. -/
theorem not_resuelve_of_ubicar (hL : ParteLineas stringNSplit)
    (h : ubicar stringSplit fs cwd (textoBase base) n.texto = none) :
    ¬Resuelve stringSplit stringNSplit fs cwd base n := by
  intro hR
  have := hR (fun _ => [65]) (by simp [exists_contenidos hL])
  rw [leerArchivo, h] at this
  cases this

/-- It opens the right file from the right place, or there is no file and it did not move. -/
theorem resuelve_of_ubicar {ultimo : Bytes} {dir : Ruta} (hL : ParteLineas stringNSplit)
    (h : ubicar stringSplit fs cwd (textoBase base) n.texto = some (dir, ultimo))
    (hu : Ordinario ultimo) :
    Resuelve stringSplit stringNSplit fs cwd base n ↔
      if fs.archivo (dir ++ [ultimo]) then dir ++ [ultimo] = rutaDe cwd base n ∧ dir.dropLast = cwd
      else ¬fs.archivo (rutaDe cwd base n) ∧ dir = cwd := by
  constructor
  · intro hR
    -- the file of the name holds one text and all the others another
    obtain ⟨hA, hB⟩ := exists_contenidos hL
    have hcont := hR (fun r => if r = rutaDe cwd base n then [65] else [66]) (by
      intro r
      split
      · simp [hA]
      · simp [hB])
    rw [leerArchivo_of_ubicar h hu, if_pos rfl, hA] at hcont
    split at hcont
    · rename_i harch
      rw [if_pos harch]
      by_cases hr : dir ++ [ultimo] = rutaDe cwd base n
      · rw [if_pos hr, hA, Option.map_some, Option.some.injEq, Prod.mk.injEq] at hcont
        exact ⟨hr, hcont.2⟩
      · rw [if_neg hr, hB, Option.map_some, Option.some.injEq, Prod.mk.injEq] at hcont
        obtain ⟨hlista, -⟩ := hcont
        split at hlista <;> simp at hlista
    · rename_i harch
      rw [if_neg harch]
      rw [Option.some.injEq, Prod.mk.injEq] at hcont
      refine ⟨fun hobj => ?_, hcont.2⟩
      rw [if_pos hobj] at hcont
      cases hcont.1
  · intro hC contenido hlegible
    rw [leerArchivo_of_ubicar h hu]
    split at hC
    · rename_i harch
      obtain ⟨hr, hdir⟩ := hC
      obtain ⟨lista, hlista⟩ := Option.ne_none_iff_exists'.1 (hlegible (rutaDe cwd base n))
      rw [hr] at harch
      rw [hr, if_pos harch, if_pos harch, hlista, hdir]
      rfl
    · rename_i harch
      rw [if_neg harch, if_neg hC.1, hC.2]

/-! ### The loop over the pieces -/

theorem consumir_eq (pathAppend : Bytes) (lastRead : Option Bytes) (ps : List Bytes) :
    consumir pathAppend lastRead ps =
      if Even ps.length then
        (ps.getLast?.or lastRead).map fun ultimo => (pathAppend ++ carpeta ps, ultimo)
      else none := by
  induction pathAppend, lastRead, ps using consumir.induct with
  | case1 pathAppend lastRead => simp [consumir, carpeta]
  | case2 pathAppend lastRead p => simp [consumir]
  | case3 pathAppend lastRead p p' ps ih =>
      have hpar : Even (p :: p' :: ps).length ↔ Even ps.length := by
        simp [Nat.even_add_one]
      have hultimo : (p :: p' :: ps).getLast?.or lastRead = ps.getLast?.or (some p') := by
        cases ps with
        | nil => rfl
        | cons q ps => simp [List.getLast?_eq_some_getLast]
      rw [consumir, ih, hultimo]
      simp only [hpar, carpeta, List.append_assoc]

/-- Pairs of names make the name of a directory. -/
theorem ordinario_carpeta {ps : List Bytes} (hps : ∀ p ∈ ps, Ordinario p) (hpar : Even ps.length)
    (h₀ : ps ≠ []) : Ordinario (carpeta ps) := by
  induction ps using carpeta.induct with
  | case1 p p' ps ih =>
      rw [carpeta]
      have hp := hps p (by simp)
      by_cases h : ps = []
      · subst h
        simpa [carpeta] using hp
      · refine hp.append (ih (fun q hq => hps q (by simp [hq])) ?_ h)
        simpa [Nat.even_add_one] using hpar
  | case2 ps hno =>
      exfalso
      match ps, h₀, hpar, hno with
      | [p], _, hpar, _ => simp at hpar
      | p :: p' :: ps, _, _, hno => exact hno p p' ps rfl

/-! ### The pieces of a name -/

theorem mem_nombres {cs : List Componente} {p : Bytes} (h : p ∈ nombres cs) : Ordinario p := by
  obtain ⟨c, -, rfl⟩ := List.mem_map.1 h
  exact c.property

/-- The pieces are the components, and maybe an empty one first. -/
theorem ParteNombres.piezas (h : ParteNombres stringSplit) (n : Nombre) :
    stringSplit n.texto = nombres n.componentes ∨
      stringSplit n.texto = [] :: nombres n.componentes := by
  cases hb : n.barraInicial with
  | false => exact .inl (h.relativo n hb)
  | true => exact h.absoluto n hb

theorem length_intercalate_pos {cs : List Componente} (h : cs ≠ []) :
    0 < ([barra].intercalate (nombres cs)).length := by
  obtain ⟨c, cs, rfl⟩ := List.exists_cons_of_ne_nil h
  have := List.length_pos_iff.2 c.property.noVacio
  cases cs with
  | nil => simpa [nombres, List.intercalate] using this
  | cons c' cs =>
      simp only [nombres, List.map_cons, List.intercalate, List.intersperse_cons_cons,
        List.flatten_cons, List.length_append]
      omega

theorem Nombre.texto_ne_nil (n : Nombre) : n.texto ≠ [] := by
  have := length_intercalate_pos n.noVacio
  intro h
  have hlen := congrArg List.length h
  simp only [Nombre.texto, List.length_append, List.length_nil] at hlen
  omega

/-- A name that is its first component has no other. -/
theorem Nombre.componentes_of_texto {c : Componente} {cs : List Componente}
    (h : n.componentes = c :: cs) (ht : c.val = n.texto) : n.componentes = [c] := by
  have hlen := congrArg List.length ht
  cases cs with
  | nil => exact h
  | cons c' cs =>
      exfalso
      simp only [Nombre.texto, h, nombres, List.map_cons, List.intercalate,
        List.intersperse_cons_cons, List.flatten_cons, List.length_append, List.length_singleton]
        at hlen
      omega

/-- A name of one piece. -/
theorem resuelve_pieza {c : Componente} (hL : ParteLineas stringNSplit)
    (hs : stringSplit n.texto = [n.texto]) (hc : n.componentes = [c]) (ht : c.val = n.texto) :
    Resuelve stringSplit stringNSplit fs cwd base n ↔ Resoluble stringSplit fs cwd base n := by
  have hu : Ordinario n.texto := ht ▸ c.property
  have hub : ∀ path, ubicar stringSplit fs cwd path n.texto
      = some (fs.chdir cwd path, n.texto) := by
    intro path
    simp [ubicar, hs]
  rw [resuelve_of_ubicar hL (hub _) hu]
  have hquieto : cwd.dropLast = cwd ↔ cwd = [] := by
    constructor
    · intro h
      have hlen := congrArg List.length h
      rw [List.length_dropLast] at hlen
      exact List.eq_nil_of_length_eq_zero (by omega)
    · rintro rfl
      rfl
  simp only [Resoluble, hs, List.head?_cons, Option.mem_some_iff, exists_eq_left', if_true,
    ResolublePieza]
  cases base with
  | none =>
      have hobj : rutaDe cwd none n = cwd ++ [n.texto] := by
        simp [rutaDe, nombres, hc, ht]
      rw [hobj, show textoBase none = [] from rfl, chdir_nil]
      split
      · rename_i harch
        simp [harch, hquieto]
      · rename_i harch
        simp [harch]
  | some d =>
      have hobj : rutaDe cwd (some d) n = cwd ++ [d.val] ++ [n.texto] := by
        simp [rutaDe, nombres, hc, ht]
      rw [hobj, show textoBase (some d) = d.val from rfl, chdir_ordinario d.property]
      by_cases hd : fs.directorio (cwd ++ [d.val])
      · simp only [if_pos hd]
        split
        · rename_i harch
          exact iff_of_true ⟨trivial, List.dropLast_concat⟩ harch
        · rename_i harch
          exact iff_of_false (by simp) harch
      · -- without the directory it looks in the working directory
        have hno : ¬fs.archivo (cwd ++ [d.val] ++ [n.texto]) := fun h => hd (fs.enDirectorio h)
        simp only [if_neg hd]
        split
        · rename_i harch
          exact iff_of_false (by simp) (by simp [harch])
        · rename_i harch
          exact iff_of_true ⟨hno, trivial⟩ (by simpa using harch)

/-- Two pieces are a directory and a file. -/
theorem carpeta_append_ultimo {ps : List Bytes} {ultimo : Bytes} (hdos : ps.length = 2)
    (hult : ps.getLast? = some ultimo) : [carpeta ps] ++ [ultimo] = ps := by
  obtain ⟨a, b, rfl⟩ := List.length_eq_two.1 hdos
  obtain rfl : b = ultimo := by simpa using hult
  simp [carpeta]

/-- The file in the directory it enters is the one of the name in one case only. -/
theorem rutaDe_eq_iff {split ultimo : Bytes} {ps : List Bytes}
    (hps : split = [] ∧ ps = nombres n.componentes ∨ split :: ps = nombres n.componentes)
    (hlen : 2 ≤ ps.length) (hult : ps.getLast? = some ultimo) :
    cwd ++ [carpeta ps] ++ [ultimo] = rutaDe cwd base n ↔
      base = none ∧ ps = nombres n.componentes ∧ ps.length = 2 := by
  rw [rutaDe, List.append_assoc, List.append_right_inj]
  constructor
  · intro h
    have hl := congrArg List.length h
    simp only [nombres, List.map_append, List.length_append, List.length_map,
      List.length_singleton, Option.length_toList] at hl
    have hcomp : split :: ps = nombres n.componentes → n.componentes.length = ps.length + 1 := by
      intro h
      simpa [nombres] using (congrArg List.length h).symm
    rcases hps with ⟨-, rfl⟩ | h'
    · simp only [nombres, List.length_map] at hlen
      cases base with
      | some d =>
          simp only [Option.isSome_some, if_true] at hl
          omega
      | none =>
          simp only [Option.isSome_none, Bool.false_eq_true, if_false] at hl
          refine ⟨rfl, rfl, ?_⟩
          simp only [nombres, List.length_map]
          omega
    · have := hcomp h'
      omega
  · rintro ⟨rfl, hig, hdos⟩
    rw [carpeta_append_ultimo hdos hult]
    simpa [nombres] using hig

/-- The pieces make a directory, and the file is looked for there. -/
theorem resuelve_enCarpeta {split ultimo : Bytes} {ps : List Bytes} (hL : ParteLineas stringNSplit)
    (hps : split = [] ∧ ps = nombres n.componentes ∨ split :: ps = nombres n.componentes)
    (hlen : 2 ≤ ps.length) (hult : ps.getLast? = some ultimo) (hu : Ordinario ultimo)
    (h : ubicar stringSplit fs cwd (textoBase base) n.texto
      = some (cwd ++ [carpeta ps], ultimo)) :
    Resuelve stringSplit stringNSplit fs cwd base n ↔
      base = none ∧ ps = nombres n.componentes ∧ ps.length = 2 ∧ fs.archivo (cwd ++ ps) = true := by
  have hdos : ps.length = 2 → cwd ++ [carpeta ps] ++ [ultimo] = cwd ++ ps := by
    intro hdos
    rw [List.append_assoc, carpeta_append_ultimo hdos hult]
  rw [resuelve_of_ubicar hL h hu, List.dropLast_concat, rutaDe_eq_iff hps hlen hult]
  by_cases harch : fs.archivo (cwd ++ [carpeta ps] ++ [ultimo])
  · rw [if_pos harch]
    constructor
    · rintro ⟨⟨hb, hig, hl⟩, -⟩
      exact ⟨hb, hig, hl, hdos hl ▸ harch⟩
    · rintro ⟨hb, hig, hl, -⟩
      exact ⟨⟨hb, hig, hl⟩, rfl⟩
  · rw [if_neg harch]
    refine iff_of_false (by simp) ?_
    rintro ⟨-, -, hl, h⟩
    exact harch (hdos hl ▸ h)

/-- They make none, and the last one is looked for in the working directory. -/
theorem resuelve_sinCarpeta {ultimo : Bytes} (hL : ParteLineas stringNSplit)
    (hcomp : 2 ≤ n.componentes.length) (hu : Ordinario ultimo)
    (h : ubicar stringSplit fs cwd (textoBase base) n.texto = some (cwd, ultimo)) :
    Resuelve stringSplit stringNSplit fs cwd base n ↔
      fs.archivo (cwd ++ [ultimo]) = false ∧ fs.archivo (rutaDe cwd base n) = false := by
  rw [resuelve_of_ubicar hL h hu]
  by_cases harch : fs.archivo (cwd ++ [ultimo])
  · rw [if_pos harch]
    refine iff_of_false ?_ (by simp [harch])
    rintro ⟨h, -⟩
    have hl := congrArg List.length h
    simp only [rutaDe, nombres, List.map_append, List.length_append, List.length_map,
      List.length_singleton] at hl
    omega
  · rw [if_neg harch]
    simp [harch]

/-- A name of several pieces, of which the first one is dropped. -/
theorem resuelve_piezas {split : Bytes} {ps : List Bytes} (hL : ParteLineas stringNSplit)
    (hs : stringSplit n.texto = split :: ps) (hne : split ≠ n.texto)
    (hps : split = [] ∧ ps = nombres n.componentes ∨ split :: ps = nombres n.componentes) :
    Resuelve stringSplit stringNSplit fs cwd base n ↔ Resoluble stringSplit fs cwd base n := by
  have hord : ∀ p ∈ ps, Ordinario p := by
    intro p hp
    rcases hps with ⟨-, rfl⟩ | h
    · exact mem_nombres hp
    · exact mem_nombres (h ▸ List.mem_cons_of_mem _ hp)
  have hub : ubicar stringSplit fs cwd (textoBase base) n.texto
      = (consumir [] none ps).map fun p => (fs.chdir cwd (p.1 ++ [barra]), p.2) := by
    simp [ubicar, hs, hne]
  rw [consumir_eq, Option.or_none] at hub
  simp only [Resoluble, hs, List.head?_cons, List.tail_cons, Option.mem_some_iff, exists_eq_left',
    if_neg hne, ResolublePiezas]
  cases hult : ps.getLast? with
  | none =>
      simp only [hult, Option.map_none, ite_self] at hub
      exact iff_of_false (not_resuelve_of_ubicar hL hub) (by simp)
  | some ultimo =>
      simp only [Option.mem_some_iff, exists_eq_left']
      by_cases hpar : Even ps.length
      · have h₀ : ps ≠ [] := by
          rintro rfl
          cases hult
        have hlen : 2 ≤ ps.length := by
          obtain ⟨i, hi⟩ := hpar
          have := List.length_pos_iff.2 h₀
          omega
        have hu := hord _ (List.mem_of_getLast? hult)
        simp only [hult, if_pos hpar, Option.map_some, List.nil_append,
          chdir_ordinario_barra (ordinario_carpeta hord hpar h₀)] at hub
        rw [and_iff_right hpar]
        by_cases hd : fs.directorio (cwd ++ [carpeta ps])
        · rw [if_pos hd] at hub ⊢
          exact resuelve_enCarpeta hL hps hlen hult hu hub
        · rw [if_neg hd] at hub ⊢
          refine resuelve_sinCarpeta hL ?_ hu hub
          rcases hps with ⟨-, rfl⟩ | h
          · simpa [nombres] using hlen
          · have := congrArg List.length h
            simp only [nombres, List.length_cons, List.length_map] at this
            omega
      · simp only [if_neg hpar, Option.map_none] at hub
        exact iff_of_false (not_resuelve_of_ubicar hL hub) (by simp [hpar])

/-- It finds the file of a name and stays where it was exactly for those names, base paths and
states of the disk. -/
theorem resuelve_iff (hN : ParteNombres stringSplit) (hL : ParteLineas stringNSplit)
    (fs : SistemaDeArchivos) (cwd : Ruta) (base : Option Componente) (n : Nombre) :
    Resuelve stringSplit stringNSplit fs cwd base n ↔ Resoluble stringSplit fs cwd base n := by
  obtain ⟨c, cs, hc⟩ := List.exists_cons_of_ne_nil n.noVacio
  rcases hN.piezas n with hs | hs
  · have hs' : stringSplit n.texto = c.val :: nombres cs := by
      rw [hs, hc]
      rfl
    by_cases ht : c.val = n.texto
    · have huna := n.componentes_of_texto hc ht
      rw [huna] at hs
      exact resuelve_pieza hL (by simpa [nombres, ht] using hs) huna ht
    · exact resuelve_piezas hL hs' ht (.inr (hs'.symm.trans hs))
  · exact resuelve_piezas hL hs (Ne.symm n.texto_ne_nil) (.inl ⟨rfl, rfl⟩)

end

/-- `string_split(_, "/")`, which keeps the empty pieces. -/
def partirNombre (s : Bytes) : List Bytes := s.splitOn barra

theorem parteNombres_partirNombre : ParteNombres partirNombre := by
  have hpiezas : ∀ n : Nombre,
      ([barra].intercalate (nombres n.componentes)).splitOn barra = nombres n.componentes := by
    intro n
    refine List.splitOn_intercalate barra (fun p hp => (mem_nombres hp).sinBarra) ?_
    exact fun h => n.noVacio (List.map_eq_nil_iff.1 h)
  constructor
  · intro n hb
    simpa [partirNombre, Nombre.texto, hb] using hpiezas n
  · intro n hb
    refine .inr ?_
    rw [partirNombre, Nombre.texto, if_pos hb, List.singleton_append]
    have hprimera : ∀ s : Bytes, (barra :: s).splitOn barra = [] :: s.splitOn barra := fun s =>
      List.splitOn_append_cons_self_of_not_mem List.not_mem_nil s
    rw [hprimera, hpiezas]

/-- The directory `d` and the file `f`. -/
def d : Componente := ⟨[100], by decide, by decide, by decide, by decide⟩

def f : Componente := ⟨[102], by decide, by decide, by decide, by decide⟩

/-- A file in a directory of the root. -/
def unArchivo : SistemaDeArchivos where
  directorio r := r = [] ∨ r = [d.val]
  archivo r := r = [d.val, f.val]
  enDirectorio := by
    intro r n h
    simp only [decide_eq_true_eq] at h ⊢
    exact .inr (List.append_inj_left' h rfl)

theorem resuelve_unArchivo :
    Resuelve partirNombre partirEnDos unArchivo [] (some d) ⟨false, [f], by simp⟩ :=
  (resuelve_iff parteNombres_partirNombre parteLineas_partirEnDos unArchivo [] (some d) _).2
    (by decide)

/-- The file is in the working directory, from which it goes up. -/
theorem unArchivo_no_resuelve :
    ¬∀ fs cwd base n, Resuelve partirNombre partirEnDos fs cwd base n := by
  intro h
  have hR := h unArchivo [d.val] none ⟨false, [f], by simp⟩
  have hub : ubicar partirNombre unArchivo [d.val] (textoBase none)
      (Nombre.texto ⟨false, [f], by simp⟩) = some ([d.val], f.val) := by
    decide
  rw [resuelve_of_ubicar parteLineas_partirEnDos hub f.property] at hR
  exact absurd hR (by decide)

end LectorArchivo
