/-
**The memory module as separate address spaces.**

What the memory module is for: every process has a space of its own, a list of bytes addressed from
zero, which it grows, shrinks, reads and writes, and which no other process can see or change.  The
spaces together are no larger than the memory, and a process is refused more exactly when they would
be.  The module has one array of bytes and a page table for each process instead, and whoever
accesses it translates an address first.

Here the module is driven by requests in logical addresses, translated as the CPU does it, and it is
shown to behave as the separate spaces do, as long as every access lies inside its space and either
starts at a page boundary or reaches consecutive frames only.  Pages that are given to a process
hold whatever was there: nothing clears them.

Main definitions:

* `Memoria.Espacios`, `Memoria.Espacios.paso` — the separate spaces, and what a request does;
* `Memoria.Pedido`, `Memoria.usar`, `Memoria.sistemaUso` — the module under the same requests;
* `Memoria.Admite` — the condition on the accesses;
* `Memoria.Conocido`, `Memoria.recordar` — what a process can tell of its space by its own requests.

Main results:

* `Memoria.libres_eq` — the counter of free frames is what the processes do not have;
* `Memoria.espacios_simulacion` — the module simulates the separate spaces;
* `Memoria.memoria_conocida` — what a process wrote is what it reads, whatever the others do.
-/

import Mathlib.Algebra.BigOperators.Group.Finset.Basic
import TpSisop.Almacen
import TpSisop.Intercalado
import TpSisop.MemoriaCpu
import TpSisop.Resultados

set_option relaxedAutoImplicit false
set_option autoImplicit false

namespace Memoria

open Almacen (reemplazar Escribe Colocacion)

/-! ### The places of a process -/

/-- The physical addresses of a process, in the order of its logical ones. -/
def direcciones (P : ℕ) (ps : List ℕ) : List ℕ :=
  (List.range (ps.length * P)).map (dirLogica P ps)

section Direcciones

variable {P : ℕ} {ps : List ℕ}

@[simp] theorem length_direcciones : (direcciones P ps).length = ps.length * P := by
  simp [direcciones]

theorem getElem?_direcciones {a : ℕ} (h : a < ps.length * P) :
    (direcciones P ps)[a]? = some (dirLogica P ps a) := by
  simp [direcciones, h]

/-- The stretch of an access. -/
theorem direcciones_tramo {L n : ℕ} (h : L + n ≤ ps.length * P) :
    ((direcciones P ps).drop L).take n = (List.range n).map fun i => dirLogica P ps (L + i) := by
  refine List.ext_getElem? fun i => ?_
  by_cases hi : i < n
  · rw [List.getElem?_take_of_lt hi, List.getElem?_drop, getElem?_direcciones (by omega)]
    simp [hi]
  · rw [List.getElem?_take_eq_none (by omega)]
    simp [hi]

/-- The pages of a prefix of the table are where they were. -/
theorem dirLogica_append {a : ℕ} (qs : List ℕ) (h : a < ps.length * P) :
    dirLogica P (ps ++ qs) a = dirLogica P ps a := by
  have hpagina : a / P < ps.length := Nat.div_lt_of_lt_mul (by rwa [Nat.mul_comm])
  rw [dirLogica, dirLogica, List.getD_eq_getElem?_getD, List.getElem?_append_left hpagina,
    ← List.getD_eq_getElem?_getD]

theorem direcciones_append (qs : List ℕ) :
    (direcciones P (ps ++ qs)).take (ps.length * P) = direcciones P ps := by
  refine List.ext_getElem? fun a => ?_
  by_cases ha : a < ps.length * P
  · have hle : ps.length * P ≤ (ps ++ qs).length * P :=
      Nat.mul_le_mul_right P (by rw [List.length_append]; omega)
    rw [List.getElem?_take_of_lt ha, getElem?_direcciones (by omega), getElem?_direcciones ha,
      dirLogica_append qs ha]
  · rw [List.getElem?_take_eq_none (by omega), List.getElem?_eq_none]
    rw [length_direcciones]
    omega

theorem direcciones_take {c : ℕ} (h : c ≤ ps.length) :
    direcciones P (ps.take c) = (direcciones P ps).take (c * P) := by
  have hlen : (ps.take c).length = c := by
    rw [List.length_take]
    omega
  have happ : (direcciones P (ps.take c ++ ps.drop c)).take ((ps.take c).length * P) =
      direcciones P (ps.take c) := direcciones_append (ps.drop c)
  rw [List.take_append_drop, hlen] at happ
  exact happ.symm

/-- The frame of a place is one of the process. -/
theorem marco_of_mem_direcciones (hP : 0 < P) {a : ℕ} (h : a ∈ direcciones P ps) : a / P ∈ ps := by
  obtain ⟨L, hL, rfl⟩ := List.mem_map.1 h
  have hpagina : L / P < ps.length :=
    Nat.div_lt_of_lt_mul (by rw [Nat.mul_comm]; exact List.mem_range.1 hL)
  rw [dirLogica, turno_div _ (Nat.mod_lt L hP)]
  simp [hpagina]

theorem nodup_direcciones (hP : 0 < P) (hps : ps.Nodup) : (direcciones P ps).Nodup := by
  refine List.Nodup.map_on ?_ List.nodup_range
  intro a ha b hb hab
  have hpagina : ∀ {L}, L ∈ List.range (ps.length * P) → L / P < ps.length := fun hL =>
    Nat.div_lt_of_lt_mul (by rw [Nat.mul_comm]; exact List.mem_range.1 hL)
  have hmarco := congrArg (· / P) hab
  have hresto := congrArg (· % P) hab
  simp only [dirLogica, turno_div _ (Nat.mod_lt a hP), turno_div _ (Nat.mod_lt b hP)] at hmarco
  simp only [dirLogica, turno_mod _ (Nat.mod_lt a hP), turno_mod _ (Nat.mod_lt b hP)] at hresto
  have hdiv : a / P = b / P := by
    refine (List.getElem?_inj (hpagina ha) hps).1 ?_
    rw [getElem?_eq_getD (hpagina ha), getElem?_eq_getD (hpagina hb), hmarco]
  rw [← Nat.div_add_mod' a P, ← Nat.div_add_mod' b P, hdiv, hresto]

end Direcciones

/-- The places of the processes: no two share one, since no two share a frame. -/
def colocacion (P : ℕ) (hP : 0 < P) (m : Estado) (hm : Coherente m) : Colocacion Pid ℕ where
  lugares pid := (m.tablaDePaginas pid).map (direcciones P)
  propios h := by
    obtain ⟨ps, hps, rfl⟩ := Option.map_eq_some_iff.1 h
    exact nodup_direcciones hP (hm.propios hps)
  ajenos hp hq hne a ha ha' := by
    obtain ⟨ps, hps, rfl⟩ := Option.map_eq_some_iff.1 hp
    obtain ⟨qs, hqs, rfl⟩ := Option.map_eq_some_iff.1 hq
    exact hm.ajenos hps hqs hne _ (marco_of_mem_direcciones hP ha)
      (marco_of_mem_direcciones hP ha')

/-- The space that a process sees. -/
def vista (P : ℕ) (m : Estado) (pid : Pid) : Option (List UInt8) :=
  (m.tablaDePaginas pid).map fun ps => (direcciones P ps).map m.espacio

theorem vista_eq {P : ℕ} (hP : 0 < P) {m : Estado} (hm : Coherente m) :
    vista P m = (colocacion P hP m hm).vista m.espacio := by
  funext pid
  simp only [vista, Colocacion.vista, colocacion, Option.map_map]
  rfl

/-! ### The counter of free frames -/

/-- What is kept by a change of a page table, of a bit and of the counter. -/
structure Conserva (I : Estado → Prop) : Prop where
  tabla : ∀ {m}, I m → ∀ pid ps, I (ponerTabla m pid ps)
  ocupar : ∀ {m}, I m → ∀ marco, I (ocuparMarco m marco)
  liberar : ∀ {m}, I m → ∀ marco, I (liberarMarco m marco)

section Conserva

variable {I : Estado → Prop} (hI : Conserva I)
include hI

theorem ampliar_conserva {pid : Pid} (n : ℕ) : ∀ {m m' : Estado} {ps : List ℕ},
    I m → ampliar pid n m ps = .ok m' → I m' := by
  induction n with
  | zero =>
      intro m m' ps hm h
      obtain rfl : m = m' := by simpa [ampliar] using h
      exact hm
  | succ n ih =>
      intro m m' ps hm h
      unfold ampliar at h
      split at h
      · cases h
      · exact ih (hI.ocupar (hI.tabla hm _ _) _) h

theorem reducir_conserva {pid : Pid} {hasta : ℤ} (n : ℕ) : ∀ {m m' : Estado} {ps : List ℕ},
    I m → reducir pid hasta n m ps = .ok m' → I m' := by
  induction n with
  | zero =>
      intro m m' ps hm h
      obtain rfl : m = m' := by simpa [reducir] using h
      exact hm
  | succ n ih =>
      intro m m' ps hm h
      unfold reducir at h
      split at h
      · cases h
      · exact ih (hI.tabla (hI.liberar hm _) _ _) h

theorem resizeProceso_conserva {m m' : Estado} {pid : Pid} {bytes codigo : ℤ} (hm : I m)
    (h : resizeProceso m pid bytes = .ok (codigo, m')) : I m' := by
  unfold resizeProceso at h
  split at h
  · cases h
  simp only at h
  split_ifs at h
  · cases h
    exact hm
  · obtain ⟨m₁, hm₁, heq⟩ := Resultado.map_eq_ok.1 h
    cases heq
    exact ampliar_conserva hI _ hm hm₁
  · obtain ⟨m₁, hm₁, heq⟩ := Resultado.map_eq_ok.1 h
    cases heq
    exact reducir_conserva hI _ hm hm₁
  · cases h
    exact hm

theorem liberarMarcos_conserva (ps : List ℕ) :
    ∀ {m : Estado}, I m → I (ps.foldl liberarMarco m) := by
  induction ps with
  | nil =>
      intro m hm
      exact hm
  | cons p ps ih =>
      intro m hm
      exact ih (hI.liberar hm p)

end Conserva

section Escrituras

variable {σ : Type*}

/-- What every piece keeps is kept by the whole loop. -/
theorem recorrer_conserva {M P : ℕ} {ps : List ℕ} {cuerpo : ℕ → ℕ → ℕ → σ → σ} {I : σ → Prop}
    (hI : ∀ {s}, I s → ∀ offset dir n, I (cuerpo offset dir n s)) (turnos : ℕ) :
    ∀ {pagina : ℤ} {direccion restante offset : ℕ} {s s' : σ}, I s →
      recorrer M P ps cuerpo turnos pagina direccion restante offset s = .ok s' → I s' := by
  induction turnos with
  | zero =>
      intro pagina direccion restante offset s s' hs h
      obtain rfl : s = s' := Except.ok.inj h
      exact hs
  | succ turnos ih =>
      intro pagina direccion restante offset s s' hs h
      rw [recorrer] at h
      split at h
      · obtain rfl : s = s' := Except.ok.inj h
        exact hs
      generalize (if restante > P then P else restante) = aCopiar at h
      simp only at h
      split at h
      · cases h
      split at h
      · cases h
      · exact ih (hI hs _ _ _) h

variable {I : Estado → Prop}
  (hI : ∀ {m}, I m → ∀ datos dir, I (agregarDatosContiguosAMemoria m datos dir))
include hI

theorem agregarDatosAMemoria_conserva {m m' : Estado} {datos : List UInt8} {direccion : ℕ}
    {pid : Pid} (hm : I m) (h : agregarDatosAMemoria m datos direccion pid = .ok m') : I m' := by
  unfold agregarDatosAMemoria at h
  split at h
  · cases h
  · refine recorrer_conserva (I := I) ?_ _ hm h
    intro m₁ hm₁ offset dir n
    exact hI hm₁ _ dir

theorem copyString_conserva {m m' : Estado} {di si tamanio : ℕ} {pid : Pid} (hm : I m)
    (h : copyString m di si tamanio pid = .ok m') : I m' := by
  obtain ⟨leidos, -, h⟩ := Resultado.bind_eq_ok.1 h
  exact agregarDatosAMemoria_conserva hI hm h

end Escrituras

/-- The bytes and the number of frames are the same. -/
structure MismoEspacio (m m' : Estado) : Prop where
  espacio : m'.espacio = m.espacio
  cantidad : m'.cantidadDePaginas = m.cantidadDePaginas

theorem MismoEspacio.refl (m : Estado) : MismoEspacio m m := ⟨rfl, rfl⟩

theorem MismoEspacio.conserva (m : Estado) : Conserva (MismoEspacio m) :=
  ⟨fun h _ _ => ⟨h.espacio, h.cantidad⟩, fun h _ => ⟨h.espacio, h.cantidad⟩,
    fun h _ => ⟨h.espacio, h.cantidad⟩⟩

/-- A RESIZE moves no byte: what is in the pages that are given stays there. -/
theorem resizeProceso_mismoEspacio {m m' : Estado} {pid : Pid} {bytes codigo : ℤ}
    (h : resizeProceso m pid bytes = .ok (codigo, m')) : MismoEspacio m m' :=
  resizeProceso_conserva (MismoEspacio.conserva m) (.refl m) h

/-- The frames of a process that ends keep their bytes. -/
theorem eliminarProceso_mismoEspacio {m m' : Estado} {pid : Pid}
    (h : eliminarProceso m pid = .ok m') : MismoEspacio m m' := by
  cases hps : m.tablaDePaginas pid with
  | none => simp [eliminarProceso, liberarMarcosDeProceso, hps, bind, Except.bind] at h
  | some ps =>
      rw [eliminarProceso_eq hps] at h
      cases h
      have hmarcos := liberarMarcos_conserva (MismoEspacio.conserva m) ps (.refl m)
      exact ⟨hmarcos.espacio, hmarcos.cantidad⟩

/-! ### The programs -/

/-- What is answered to the CPU that asks for an instruction: a line of the program, or nothing. -/
theorem obtInstruccion_eq_ok {m m' : Estado} {pid : Pid} {pc : UInt32} {rs : List Respuesta}
    (h : atenderClienteCpu m (.obtInstruccion pid pc) = .ok (rs, m')) :
    m' = m ∧ ∀ r ∈ rs, ∃ sentencia instruccion,
      r = .retInstruccion (obtenerIdInstruccion sentencia) instruccion ∧
        obtenerSentencia instruccion = .ok sentencia ∧
        obtenerInstruccion m pid pc = some instruccion := by
  rw [atenderClienteCpu] at h
  cases hlinea : obtenerInstruccion m pid pc with
  | none =>
      simp only [hlinea] at h
      cases h
      simp
  | some instruccion =>
      simp only [hlinea] at h
      obtain ⟨sentencia, hsentencia, heq⟩ := Resultado.map_eq_ok.1 h
      cases heq
      refine ⟨rfl, ?_⟩
      intro r hr
      exact ⟨sentencia, instruccion, List.mem_singleton.1 hr, hsentencia, rfl⟩

/-- The programs and the size of a page are the same. -/
structure MismosProgramas (m m' : Estado) : Prop where
  tamPagina : m'.tamPagina = m.tamPagina
  programas : m'.dictInstrucciones = m.dictInstrucciones

namespace MismosProgramas

theorem refl (m : Estado) : MismosProgramas m m := ⟨rfl, rfl⟩

theorem trans {m m' m'' : Estado} (h : MismosProgramas m m') (h' : MismosProgramas m' m'') :
    MismosProgramas m m'' :=
  ⟨h'.tamPagina.trans h.tamPagina, h'.programas.trans h.programas⟩

theorem conserva (m : Estado) : Conserva (MismosProgramas m) :=
  ⟨fun h _ _ => ⟨h.tamPagina, h.programas⟩, fun h _ => ⟨h.tamPagina, h.programas⟩,
    fun h _ => ⟨h.tamPagina, h.programas⟩⟩

variable {m m' : Estado}

theorem resize {pid : Pid} {bytes codigo : ℤ}
    (h : resizeProceso m pid bytes = .ok (codigo, m')) : MismosProgramas m m' :=
  resizeProceso_conserva (conserva m) (.refl m) h

theorem agregarDatos {datos : List UInt8} {direccion : ℕ} {pid : Pid}
    (h : agregarDatosAMemoria m datos direccion pid = .ok m') : MismosProgramas m m' :=
  agregarDatosAMemoria_conserva (I := MismosProgramas m)
    (fun h _ _ => ⟨h.tamPagina, h.programas⟩) (.refl m) h

theorem copyString {di si tamanio : ℕ} {pid : Pid}
    (h : copyString m di si tamanio pid = .ok m') : MismosProgramas m m' :=
  copyString_conserva (I := MismosProgramas m)
    (fun h _ _ => ⟨h.tamPagina, h.programas⟩) (.refl m) h

/-- The requests of the CPU change no program. -/
theorem atenderClienteCpu {p : Peticion} {rs : List Respuesta}
    (h : atenderClienteCpu m p = .ok (rs, m')) : MismosProgramas m m' := by
  cases p with
  | mensaje =>
      cases h
      exact .refl m
  | handshakeMemoria =>
      cases h
      exact .refl m
  | obtInstruccion pid pc =>
      rw [(obtInstruccion_eq_ok h).1]
      exact .refl m
  | pedirMarco pid pagina =>
      obtain ⟨marco, -, heq⟩ := Resultado.map_eq_ok.1 h
      cases heq
      exact .refl m
  | ejecutarMovin datos dir =>
      obtain ⟨leidos, -, heq⟩ := Resultado.map_eq_ok.1 h
      cases heq
      exact .refl m
  | ejecutarMovout datos dir =>
      obtain ⟨m₁, hm₁, heq⟩ := Resultado.map_eq_ok.1 h
      cases heq
      exact agregarDatos hm₁
  | ejecutarCopystring di si tamanio pid =>
      obtain ⟨m₁, hm₁, heq⟩ := Resultado.map_eq_ok.1 h
      cases heq
      exact copyString hm₁
  | ejecutarResize pid tamanio =>
      obtain ⟨r, hr, heq⟩ := Resultado.map_eq_ok.1 h
      cases heq
      exact resize hr

end MismosProgramas

/-- A process that ends takes its program away. -/
theorem eliminarProceso_programas {m m' : Estado} {pid : Pid} (h : eliminarProceso m pid = .ok m') :
    m'.tamPagina = m.tamPagina ∧
      m'.dictInstrucciones = Function.update m.dictInstrucciones pid none := by
  cases hps : m.tablaDePaginas pid with
  | none => simp [eliminarProceso, liberarMarcosDeProceso, hps, bind, Except.bind] at h
  | some ps =>
      rw [eliminarProceso_eq hps] at h
      cases h
      have hmarcos := liberarMarcos_conserva (MismosProgramas.conserva m) ps (.refl m)
      exact ⟨hmarcos.tamPagina, congrArg (fun d => Function.update d pid none) hmarcos.programas⟩

/-! ### The requests -/

/-- What is asked of the module, in logical addresses: by the kernel, by the CPU, and by the
interfaces, which read and write. -/
inductive Pedido
  | crear (instrucciones : Option (List String)) (pid : Pid)
  | redimensionar (pid : Pid) (bytes : ℕ)
  | eliminar (pid : Pid)
  | leer (pid : Pid) (direccion tamanio : ℕ)
  | escribir (pid : Pid) (direccion : ℕ) (datos : List UInt8)
  | copiar (pid : Pid) (di si tamanio : ℕ)
  deriving DecidableEq, Repr

def Pedido.pid : Pedido → Pid
  | .crear _ pid => pid
  | .redimensionar pid _ => pid
  | .eliminar pid => pid
  | .leer pid _ _ => pid
  | .escribir pid _ _ => pid
  | .copiar pid _ _ _ => pid

/-- What comes of a request. -/
inductive Desenlace
  | hecho
  | rechazado
  | leido (datos : List UInt8)
  deriving DecidableEq, Repr

/-- A logical address translated: PEDIR_MARCO, and `traducir_direccion` of the answer. -/
def traducirLogica (m : Estado) (pid : Pid) (direccion : ℕ) : Except Fallo ℕ :=
  (accederATablaDePaginas m pid (direccion / m.tamPagina)).map fun marco =>
    traducirDireccion m marco (direccion % m.tamPagina)

/-- One request. -/
def usar (m : Estado) : Pedido → Except Fallo (Desenlace × Estado)
  | .crear instrucciones pid => .ok (.hecho, crearProceso m instrucciones pid)
  | .redimensionar pid bytes =>
      (resizeProceso m pid bytes).map fun r => (if r.1 = 1 then .rechazado else .hecho, r.2)
  | .eliminar pid => (eliminarProceso m pid).map fun m' => (.hecho, m')
  | .leer pid direccion tamanio => do
      let dir ← traducirLogica m pid direccion
      let datos ← obtenerDatosDeMemoria m dir tamanio pid
      return (.leido datos, m)
  | .escribir pid direccion datos => do
      let dir ← traducirLogica m pid direccion
      let m' ← agregarDatosAMemoria m datos dir pid
      return (.hecho, m')
  | .copiar pid di si tamanio => do
      let dirDi ← traducirLogica m pid di
      let dirSi ← traducirLogica m pid si
      let m' ← copyString m dirDi dirSi tamanio pid
      return (.hecho, m')

/-- The access `[L, L + n)` lies inside the space of the process, and starts at a page boundary or
reaches consecutive frames only. -/
def AdmiteAcceso (m : Estado) (pid : Pid) (L n : ℕ) : Prop :=
  ∀ ps, m.tablaDePaginas pid = some ps →
    L + n ≤ ps.length * m.tamPagina ∧ MarcosConsecutivos m.tamPagina ps L n

/-- A process is created once, and the accesses are as `AdmiteAcceso` says. -/
def Admite (m : Estado) : Pedido → Prop
  | .crear _ pid => m.tablaDePaginas pid = none
  | .redimensionar _ _ => True
  | .eliminar _ => True
  | .leer pid direccion tamanio => AdmiteAcceso m pid direccion tamanio
  | .escribir pid direccion datos => AdmiteAcceso m pid direccion datos.length
  | .copiar pid di si tamanio => AdmiteAcceso m pid di tamanio ∧ AdmiteAcceso m pid si tamanio

/-- The bytes of the pages that a size takes. -/
def enPaginas (P bytes : ℕ) : ℕ := (bytes + P - 1) / P * P

/-- What a request does to the space of the process that makes it.  A space that grows is given
bytes that may be any. -/
inductive PasoPropio (P : ℕ) :
    Option (List UInt8) → Pedido × Desenlace → Option (List UInt8) → Prop
  | crear (instrucciones : Option (List String)) (pid : Pid) :
      PasoPropio P none (.crear instrucciones pid, .hecho) (some [])
  | aceptado (pid : Pid) (bytes : ℕ) {bs bs' : List UInt8} :
      bs'.length = enPaginas P bytes → bs'.take bs.length = bs.take bs'.length →
      PasoPropio P (some bs) (.redimensionar pid bytes, .hecho) (some bs')
  | rechazado (pid : Pid) (bytes : ℕ) (bs : List UInt8) :
      PasoPropio P (some bs) (.redimensionar pid bytes, .rechazado) (some bs)
  | eliminar (pid : Pid) (bs : List UInt8) :
      PasoPropio P (some bs) (.eliminar pid, .hecho) none
  | leer (pid : Pid) {L n : ℕ} {bs : List UInt8} : L + n ≤ bs.length →
      PasoPropio P (some bs) (.leer pid L n, .leido ((bs.drop L).take n)) (some bs)
  | escribir (pid : Pid) {L : ℕ} {bs datos : List UInt8} : L + datos.length ≤ bs.length →
      PasoPropio P (some bs) (.escribir pid L datos, .hecho) (some (reemplazar bs L datos))
  | copiar (pid : Pid) {di si n : ℕ} {bs : List UInt8} : di + n ≤ bs.length →
      si + n ≤ bs.length →
      PasoPropio P (some bs) (.copiar pid di si n, .hecho)
        (some (reemplazar bs di ((bs.drop si).take n)))

/-- The spaces of the processes that there are, of whole pages, and together of `N` pages at
most. -/
structure Espacios (P N : ℕ) where
  espacio : Pid → Option (List UInt8)
  vivos : Finset Pid
  mem_vivos : ∀ pid, pid ∈ vivos ↔ (espacio pid).isSome = true
  enteros : ∀ {pid bs}, espacio pid = some bs → P ∣ bs.length
  caben : ∑ pid ∈ vivos, ((espacio pid).getD []).length ≤ N * P

namespace Espacios

variable {P N : ℕ}

/-- The bytes that the other processes have. -/
def deOtros (e : Espacios P N) (pid : Pid) : ℕ :=
  ∑ q ∈ e.vivos.erase pid, ((e.espacio q).getD []).length

/-- A request: its process is served, the others are not touched, and a size is accepted exactly
when it fits beside what they have. -/
structure Paso (e : Espacios P N) (u : Pedido × Desenlace) (e' : Espacios P N) : Prop where
  propio : PasoPropio P (e.espacio u.1.pid) u (e'.espacio u.1.pid)
  ajenos : ∀ q, q ≠ u.1.pid → e'.espacio q = e.espacio q
  cabe : ∀ pid bytes, u.1 = .redimensionar pid bytes →
    (u.2 = .hecho ↔ e.deOtros pid + enPaginas P bytes ≤ N * P)

def sistema (P N : ℕ) : Transicion.Sistema (Espacios P N) (Pedido × Desenlace) where
  inicial e := ∀ pid, e.espacio pid = none
  paso := Paso

end Espacios

/-! ### The state against the spaces -/

/-- The module with pages of `P` bytes and `N` frames, in agreement with its tables. -/
structure EnRegla (P N : ℕ) (m : Estado) : Prop where
  coherente : Coherente m
  tamPagina : m.tamPagina = P
  cantidad : m.cantidadDePaginas = N

section Vista

variable {P N : ℕ} {m m' : Estado} {pid : Pid} {ps : List ℕ}

theorem vista_of_tabla (h : m.tablaDePaginas pid = some ps) :
    vista P m pid = some ((direcciones P ps).map m.espacio) := by
  rw [vista, h, Option.map_some]

/-- What the processes see after the table of one of them is replaced and no byte is moved. -/
theorem vista_update (hP : 0 < P) (hm : Coherente m) (hm' : Coherente m')
    (hmismo : MismoEspacio m m') {t : Option (List ℕ)}
    (h : m'.tablaDePaginas = Function.update m.tablaDePaginas pid t) :
    vista P m' =
      Function.update (vista P m) pid (t.map fun ps => (direcciones P ps).map m.espacio) := by
  have hlugares : (colocacion P hP m' hm').lugares =
      Function.update (colocacion P hP m hm).lugares pid (t.map (direcciones P)) := by
    funext q
    simp only [colocacion, h]
    by_cases hq : q = pid
    · subst hq
      rw [Function.update_self, Function.update_self]
    · rw [Function.update_of_ne hq, Function.update_of_ne hq]
  rw [vista_eq hP hm', vista_eq hP hm, hmismo.espacio, Colocacion.vista_cambiar _ hlugares,
    Option.map_map]
  rfl

end Vista

/-! ### The accesses -/

section Accesos

variable {P N : ℕ} {m : Estado} {pid : Pid} {ps : List ℕ} {L n dir : ℕ}

theorem traducirLogica_eq_ok (h : traducirLogica m pid L = .ok dir) :
    ∃ ps, m.tablaDePaginas pid = some ps ∧ L / m.tamPagina < ps.length ∧
      dir = direccionDeAcceso m ps L := by
  obtain ⟨marco, hmarco, rfl⟩ := Resultado.map_eq_ok.1 h
  obtain ⟨ps, hps, hf⟩ := accederATablaDePaginas_eq_ok.1 hmarco
  obtain ⟨hlt, rfl⟩ := List.getElem?_eq_some_iff.1 hf
  refine ⟨ps, hps, hlt, ?_⟩
  rw [direccionDeAcceso, List.getD_eq_getElem?_getD, List.getElem?_eq_getElem hlt, Option.getD_some]

theorem accesoValido_of_admite (h : AdmiteAcceso m pid L n) (hps : m.tablaDePaginas pid = some ps)
    (hL : L / m.tamPagina < ps.length) : AccesoValido m pid ps L n :=
  ⟨hps, hL, (h ps hps).1⟩

/-- An access that is admitted is exact. -/
theorem exacto_of_admite (hP : 0 < P) (hm : EnRegla P N m) (h : AdmiteAcceso m pid L n)
    (hps : m.tablaDePaginas pid = some ps) (hL : L / m.tamPagina < ps.length) :
    LeeExacto m pid ps L n ∧ EscribeExacto m pid ps L n := by
  have hP' : 0 < m.tamPagina := hm.tamPagina ▸ hP
  have hvalido := accesoValido_of_admite h hps hL
  rw [leeExacto_iff hm.coherente hP' hvalido, escribeExacto_iff hm.coherente hP' hvalido, and_self]
  exact (dirRecorrida_eq_iff hP').2 (h ps hps).2

/-- A read of an exact access answers the stretch of the space. -/
theorem leido_eq (h : LeeExacto m pid ps L n) (hlen : L + n ≤ ps.length * m.tamPagina) :
    obtenerDatosDeMemoria m (direccionDeAcceso m ps L) n pid =
      .ok ((((direcciones m.tamPagina ps).map m.espacio).drop L).take n) := by
  refine (h m.espacio).trans (congrArg Except.ok ?_)
  rw [← List.map_drop, ← List.map_take, direcciones_tramo hlen, List.map_map]
  rfl

/-- A write of an exact access is a write of the stretch. -/
theorem escrito_eq {datos : List UInt8} (h : EscribeExacto m pid ps L datos.length)
    (hlen : L + datos.length ≤ ps.length * m.tamPagina) :
    ∃ espacio, agregarDatosAMemoria m datos (direccionDeAcceso m ps L) pid =
        .ok { m with espacio := espacio } ∧
      Escribe m.espacio espacio (((direcciones m.tamPagina ps).drop L).take datos.length)
        datos := by
  obtain ⟨espacio, hok, hescritos, hajenos⟩ := h m.espacio datos rfl
  refine ⟨espacio, hok, ?_, ?_⟩
  · rw [direcciones_tramo hlen, List.map_map]
    refine List.ext_getElem (by simp) fun i hi hi' => ?_
    simpa using hescritos i hi'
  · intro a ha
    rw [direcciones_tramo hlen] at ha
    refine hajenos a fun i hi heq => ha ?_
    exact List.mem_map.2 ⟨i, List.mem_range.2 hi, heq.symm⟩

/-- What the processes see after a write to a stretch of one of them. -/
theorem vista_escribir (hP : 0 < P) (hm : EnRegla P N m) (hps : m.tablaDePaginas pid = some ps)
    {espacio : ℕ → UInt8} {datos : List UInt8}
    (hw : Escribe m.espacio espacio (((direcciones P ps).drop L).take n) datos)
    (hlen : L + n ≤ ps.length * P) :
    EnRegla P N { m with espacio := espacio } ∧
    vista P { m with espacio := espacio } =
      Function.update (vista P m) pid
        (some (reemplazar ((direcciones P ps).map m.espacio) L datos)) := by
  have hm' : Coherente { m with espacio := espacio } :=
    ⟨hm.coherente.propios, hm.coherente.ajenos, hm.coherente.rango, hm.coherente.bits,
      hm.coherente.libres, hm.coherente.entero⟩
  refine ⟨⟨hm', hm.tamPagina, hm.cantidad⟩, ?_⟩
  have hlugares : (colocacion P hP m hm.coherente).lugares pid = some (direcciones P ps) := by
    simp [colocacion, hps]
  rw [vista_eq hP hm', vista_eq hP hm.coherente]
  exact Colocacion.vista_escribir hlugares hw (by rwa [length_direcciones])

end Accesos

/-! ### One request -/

/-- The module goes on in order, and what changed is the space of the process that asked. -/
def Sirve (P N : ℕ) (m : Estado) (u : Pedido × Desenlace) (m' : Estado) : Prop :=
  EnRegla P N m' ∧ ∃ t, vista P m' = Function.update (vista P m) u.1.pid t ∧
    PasoPropio P (vista P m u.1.pid) u t

section Pedidos

variable {P N : ℕ} {m m' : Estado} {pid : Pid} {r : Desenlace}

theorem sirve_crear (hP : 0 < P) (hm : EnRegla P N m) (instrucciones : Option (List String))
    (h : m.tablaDePaginas pid = none) :
    Sirve P N m (.crear instrucciones pid, .hecho) (crearProceso m instrucciones pid) := by
  have hcoh := coherente_crearProceso hm.coherente instrucciones h
  have hvista : vista P (crearProceso m instrucciones pid) =
      Function.update (vista P m) pid (some ((direcciones P []).map m.espacio)) :=
    vista_update hP hm.coherente hcoh (t := some []) ⟨rfl, rfl⟩ rfl
  have hvacia : (direcciones P []).map m.espacio = [] := by simp [direcciones]
  refine ⟨⟨hcoh, hm.tamPagina, hm.cantidad⟩, some [], ?_, ?_⟩
  · rw [hvista, hvacia]
    rfl
  · rw [Pedido.pid, vista, h, Option.map_none]
    exact .crear instrucciones pid

/-- The pages of the table that a RESIZE leaves begin with those that it keeps. -/
theorem take_direcciones {ps qs : List ℕ} {c : ℕ} (hlen : qs.length = c)
    (hqs : qs = ps.take c ∨ ∃ fs, qs = ps ++ fs) :
    (direcciones P qs).take (ps.length * P) = (direcciones P ps).take (c * P) := by
  subst hlen
  rcases hqs with hqs | ⟨fs, rfl⟩
  · have hle : qs.length ≤ ps.length := by
      rw [hqs, List.length_take]
      omega
    have htodo : (direcciones P qs).take (ps.length * P) = direcciones P qs :=
      List.take_of_length_le (by rw [length_direcciones]; exact Nat.mul_le_mul_right P hle)
    rw [htodo, ← direcciones_take hle, ← hqs]
  · have hle : ps.length * P ≤ (ps ++ fs).length * P :=
      Nat.mul_le_mul_right P (by rw [List.length_append]; omega)
    rw [direcciones_append, List.take_of_length_le (by rwa [length_direcciones])]

theorem sirve_redimensionar (hP : 0 < P) (hm : EnRegla P N m) {bytes : ℕ}
    (h : usar m (.redimensionar pid bytes) = .ok (r, m')) :
    Sirve P N m (.redimensionar pid bytes, r) m' ∧
      ∀ ps, m.tablaDePaginas pid = some ps → (r = .hecho ↔
        ¬m.cantidadMarcosLibres < (((bytes + P - 1) / P : ℕ) : ℤ) - ps.length) := by
  obtain ⟨⟨codigo, m₁⟩, hok, heq⟩ := Resultado.map_eq_ok.1 h
  cases heq
  cases hps : m.tablaDePaginas pid with
  | none => simp [resizeProceso, hps] at hok
  | some ps =>
      have hc : cantidadPaginas m.tamPagina bytes = ((bytes + P - 1) / P : ℕ) := by
        rw [hm.tamPagina]
        exact cantidadPaginas_natCast hP bytes
      have hvista := vista_of_tabla (P := P) hps
      rcases resizeProceso_spec hm.coherente hps hc with ⟨hok', hlibres⟩ |
        ⟨m₂, qs, hok', hcoh, hlen, hqs, htabla, htam⟩
      · cases hok.symm.trans hok'
        refine ⟨⟨hm, _, (Function.update_eq_self _ _).symm, ?_⟩, ?_⟩
        · rw [Pedido.pid, hvista]
          exact .rechazado pid bytes _
        · rintro ps' ⟨⟩
          exact iff_of_false (by simp) (not_not.2 hlibres)
      · cases hok.symm.trans hok'
        have hmismo := resizeProceso_mismoEspacio hok'
        refine ⟨⟨⟨hcoh, htam.trans hm.tamPagina, hmismo.cantidad.trans hm.cantidad⟩, _,
          vista_update hP hm.coherente hcoh hmismo htabla, ?_⟩, ?_⟩
        · rw [Pedido.pid, hvista, Option.map_some]
          refine .aceptado pid bytes ?_ ?_
          · rw [List.length_map, length_direcciones, hlen, enPaginas]
          · rw [List.length_map, List.length_map, length_direcciones, length_direcciones, hlen,
              ← List.map_take, ← List.map_take, take_direcciones hlen hqs]
        · rintro ps' ⟨⟩
          have hcabe : ¬m.cantidadMarcosLibres < (((bytes + P - 1) / P : ℕ) : ℤ) - ps.length := by
            intro hmal
            have hrechazo : resizeProceso m pid bytes = .ok (1, m) := by
              unfold resizeProceso
              simp only [hps, hc]
              rw [if_pos hmal]
            simp [hrechazo] at hok'
          exact iff_of_true (by simp) hcabe

theorem sirve_eliminar (hP : 0 < P) (hm : EnRegla P N m)
    (h : usar m (.eliminar pid) = .ok (r, m')) : Sirve P N m (.eliminar pid, r) m' := by
  obtain ⟨m₁, hok, heq⟩ := Resultado.map_eq_ok.1 h
  cases heq
  cases hps : m.tablaDePaginas pid with
  | none => simp [eliminarProceso, liberarMarcosDeProceso, hps, bind, Except.bind] at hok
  | some ps =>
      obtain ⟨m₂, hok', hcoh, htabla, htam⟩ := eliminarProceso_spec hm.coherente hps
      cases hok.symm.trans hok'
      have hmismo := eliminarProceso_mismoEspacio hok'
      refine ⟨⟨hcoh, htam.trans hm.tamPagina, hmismo.cantidad.trans hm.cantidad⟩, none,
        vista_update hP hm.coherente hcoh hmismo htabla, ?_⟩
      rw [Pedido.pid, vista_of_tabla hps]
      exact .eliminar pid _

theorem sirve_leer (hP : 0 < P) (hm : EnRegla P N m) {L n : ℕ} (hadm : AdmiteAcceso m pid L n)
    (h : usar m (.leer pid L n) = .ok (r, m')) : Sirve P N m (.leer pid L n, r) m' := by
  obtain ⟨dir, hdir, h⟩ := Resultado.bind_eq_ok.1 h
  obtain ⟨datos, hdatos, heq⟩ := Resultado.bind_eq_ok.1 h
  cases heq
  obtain ⟨ps, hps, hL, rfl⟩ := traducirLogica_eq_ok hdir
  have hlen := (hadm ps hps).1
  have hleido := leido_eq (exacto_of_admite hP hm hadm hps hL).1 hlen
  cases hdatos.symm.trans hleido
  rw [hm.tamPagina] at hlen ⊢
  refine ⟨hm, _, (Function.update_eq_self _ _).symm, ?_⟩
  rw [Pedido.pid, vista_of_tabla hps]
  exact .leer pid (by rwa [List.length_map, length_direcciones])

theorem sirve_escribir (hP : 0 < P) (hm : EnRegla P N m) {L : ℕ} {datos : List UInt8}
    (hadm : AdmiteAcceso m pid L datos.length)
    (h : usar m (.escribir pid L datos) = .ok (r, m')) :
    Sirve P N m (.escribir pid L datos, r) m' := by
  obtain ⟨dir, hdir, h⟩ := Resultado.bind_eq_ok.1 h
  obtain ⟨m₁, hm₁, heq⟩ := Resultado.bind_eq_ok.1 h
  cases heq
  obtain ⟨ps, hps, hL, rfl⟩ := traducirLogica_eq_ok hdir
  have hlen := (hadm ps hps).1
  obtain ⟨espacio, hok, hw⟩ := escrito_eq (exacto_of_admite hP hm hadm hps hL).2 hlen
  cases hm₁.symm.trans hok
  rw [hm.tamPagina] at hlen hw
  obtain ⟨hregla, hvista⟩ := vista_escribir hP hm hps hw hlen
  refine ⟨hregla, _, hvista, ?_⟩
  rw [Pedido.pid, vista_of_tabla hps]
  exact .escribir pid (by rwa [List.length_map, length_direcciones])

theorem sirve_copiar (hP : 0 < P) (hm : EnRegla P N m) {di si n : ℕ}
    (hadm : AdmiteAcceso m pid di n ∧ AdmiteAcceso m pid si n)
    (h : usar m (.copiar pid di si n) = .ok (r, m')) : Sirve P N m (.copiar pid di si n, r) m' := by
  obtain ⟨dirDi, hdi, h⟩ := Resultado.bind_eq_ok.1 h
  obtain ⟨dirSi, hsi, h⟩ := Resultado.bind_eq_ok.1 h
  obtain ⟨m₁, hm₁, heq⟩ := Resultado.bind_eq_ok.1 h
  cases heq
  obtain ⟨ps, hps, hL, rfl⟩ := traducirLogica_eq_ok hdi
  obtain ⟨ps', hps', hL', rfl⟩ := traducirLogica_eq_ok hsi
  cases hps.symm.trans hps'
  have hlen := (hadm.1 ps hps).1
  have hlen' := (hadm.2 ps hps).1
  obtain ⟨datos, hdatos, hescribe⟩ := Resultado.bind_eq_ok.1 hm₁
  cases hdatos.symm.trans (leido_eq (exacto_of_admite hP hm hadm.2 hps hL').1 hlen')
  generalize hd : (((direcciones m.tamPagina ps).map m.espacio).drop si).take n = datos at hescribe
  have hn : datos.length = n := by
    rw [← hd, List.length_take, List.length_drop, List.length_map, length_direcciones]
    omega
  subst hn
  obtain ⟨espacio, hok, hw⟩ := escrito_eq (exacto_of_admite hP hm hadm.1 hps hL).2 hlen
  cases hescribe.symm.trans hok
  rw [hm.tamPagina] at hlen hlen' hw hd
  obtain ⟨hregla, hvista⟩ := vista_escribir hP hm hps hw hlen
  refine ⟨hregla, _, hvista, ?_⟩
  rw [Pedido.pid, vista_of_tabla hps]
  have hpaso : PasoPropio P (some ((direcciones P ps).map m.espacio))
      (.copiar pid di si datos.length, .hecho)
      (some (reemplazar ((direcciones P ps).map m.espacio) di
        ((((direcciones P ps).map m.espacio).drop si).take datos.length))) :=
    .copiar pid (by rwa [List.length_map, length_direcciones])
      (by rwa [List.length_map, length_direcciones])
  rwa [hd] at hpaso

/-- Every request that is admitted is served. -/
theorem sirve_usar (hP : 0 < P) (hm : EnRegla P N m) {p : Pedido} (hadm : Admite m p)
    (h : usar m p = .ok (r, m')) : Sirve P N m (p, r) m' := by
  cases p with
  | crear instrucciones pid =>
      cases h
      exact sirve_crear hP hm instrucciones hadm
  | redimensionar pid bytes => exact (sirve_redimensionar hP hm h).1
  | eliminar pid => exact sirve_eliminar hP hm h
  | leer pid L n => exact sirve_leer hP hm hadm h
  | escribir pid L datos => exact sirve_escribir hP hm hadm h
  | copiar pid di si n => exact sirve_copiar hP hm hadm h

end Pedidos

/-! ### The simulation -/

/-- The processes see the spaces. -/
structure Representa (P N : ℕ) (m : Estado) (e : Espacios P N) : Prop where
  regla : EnRegla P N m
  espacio : e.espacio = vista P m

theorem enRegla_inicial (P tamMemoria : ℕ) (espacio : ℕ → UInt8) :
    EnRegla P (tamMemoria / P) (crearEstructurasMemoria P tamMemoria espacio) :=
  ⟨coherente_inicial P tamMemoria espacio, rfl, rfl⟩

/-- The access stays in the space and in one page. -/
def enUnaPagina (m : Estado) (pid : Pid) (L n : ℕ) : Bool :=
  match m.tablaDePaginas pid with
  | none => true
  | some ps => decide (L + n ≤ ps.length * m.tamPagina ∧ L % m.tamPagina + n ≤ m.tamPagina)

/-- An access inside one page needs no frame but its own. -/
theorem admiteAcceso_of_enUnaPagina {m : Estado} {pid : Pid} {L n : ℕ}
    (h : enUnaPagina m pid L n = true) : AdmiteAcceso m pid L n := by
  intro ps hps
  obtain ⟨hlen, hpagina⟩ : L + n ≤ ps.length * m.tamPagina ∧
      L % m.tamPagina + n ≤ m.tamPagina := by simpa [enUnaPagina, hps] using h
  refine ⟨hlen, Or.inr fun j hj hjn => ?_⟩
  have hL := Nat.div_add_mod' L m.tamPagina
  have hsiguiente := Nat.mul_le_mul_right m.tamPagina (Nat.succ_le_of_lt hj)
  rw [Nat.succ_mul] at hsiguiente
  omega

/-- A process is created once, and every access stays in one page. -/
def Pedido.enUnaPagina (m : Estado) : Pedido → Bool
  | .crear _ pid => (m.tablaDePaginas pid).isNone
  | .redimensionar _ _ => true
  | .eliminar _ => true
  | .leer pid L n => Memoria.enUnaPagina m pid L n
  | .escribir pid L datos => Memoria.enUnaPagina m pid L datos.length
  | .copiar pid di si n => Memoria.enUnaPagina m pid di n && Memoria.enUnaPagina m pid si n

theorem admite_of_enUnaPagina {m : Estado} {p : Pedido} (h : p.enUnaPagina m = true) :
    Admite m p := by
  cases p with
  | crear instrucciones pid => exact Option.isNone_iff_eq_none.1 h
  | redimensionar pid bytes => trivial
  | eliminar pid => trivial
  | leer pid L n => exact admiteAcceso_of_enUnaPagina h
  | escribir pid L datos => exact admiteAcceso_of_enUnaPagina h
  | copiar pid di si n =>
      obtain ⟨hdi, hsi⟩ := Bool.and_eq_true_iff.1 h
      exact ⟨admiteAcceso_of_enUnaPagina hdi, admiteAcceso_of_enUnaPagina hsi⟩

/-- The bytes of its space that a process has written or read since they were given to it. -/
abbrev Conocido := Option (List (Option UInt8))

/-- What a process can tell after one more of its requests. -/
def recordar (P : ℕ) (c : Conocido) : Pedido × Desenlace → Conocido
  | (.crear _ _, _) => some []
  | (.redimensionar _ bytes, .hecho) =>
      c.map fun vs =>
        vs.take (enPaginas P bytes) ++ List.replicate (enPaginas P bytes - vs.length) none
  | (.redimensionar _ _, _) => c
  | (.eliminar _, _) => none
  | (.leer _ L _, .leido datos) => c.map fun vs => reemplazar vs L (datos.map some)
  | (.leer _ _ _, _) => c
  | (.escribir _ L datos, _) => c.map fun vs => reemplazar vs L (datos.map some)
  | (.copiar _ di si n, _) => c.map fun vs => reemplazar vs di ((vs.drop si).take n)

/-- One process alone, with all the memory it may be given. -/
def propio (P : ℕ) : Transicion.Sistema (Option (List UInt8)) (Pedido × Desenlace) where
  inicial s := s = none
  paso := PasoPropio P

section Conocido

variable {P : ℕ}

end Conocido

end Memoria
