/-
**Files carry bytes from one address space to another.**

IO_FS_WRITE takes bytes of the space of a process to a file, and IO_FS_READ brings bytes of a file
to a space.  Either takes several steps of several modules.  The CPU translates the logical address
and the request waits, for as long as it may, with the physical one; the interface, which is busy
from then on, takes it up and sends a request of its own to memory; memory answers; the interface
ends it.  Meanwhile the other processes run, their spaces grow and shrink, the other interfaces have
their own requests under way, and a file may be moved by a compaction before the request is taken
up.  None of that can be seen: the requests are atomic copies between separate spaces and files that
are maps from offsets to bytes.

A process that waits asks nothing of memory, and may be ended.  An interface handles one request at
a time, and memory, whose threads share it without a lock, is taken to do so too.  The requests to
the interface arrive as they were sent, which is proved of the serializers, and are taken up in any
order.

Main definitions:

* `Traslado.Estado`, `Traslado.paso`, `Traslado.sistema` — memory, the disks of the interfaces, and
  the requests between them;
* `Traslado.Mundo`, `Traslado.atomico` — the spaces and the files, and the copies between them;
* `Traslado.Representa` — what a state of the one shows of the other;
* `Traslado.Saber` — what can be told of the spaces and the files.

Main results:

* `Traslado.simulacion` — the requests in several steps simulate the copies;
* `Traslado.traslados_atomicos`, `Traslado.bytes_trasladados` — in every run, the accesses to files
  are atomic, and the bytes that go through a file are those that a process reads.
-/

import TpSisop.DialFsContenido
import TpSisop.MemoriaServidor

set_option relaxedAutoImplicit false
set_option autoImplicit false

namespace Traslado

open Codec (Cadena DireccionFisica)
open DialFs (Contenido)
open Memoria (AdmiteAcceso EnRegla PasoPropio Pid vista)
open Almacen (reemplazar)

/-! ### The requests of the interfaces -/

/-- The two accesses to a file. -/
inductive Operacion
  | ioFsRead
  | ioFsWrite
  deriving DecidableEq, Repr

/-- `t_ejecutar_io_fs_read` and `t_ejecutar_io_fs_write`.  `direccion` is the logical address that
was translated, which nobody looks at again. -/
structure Encargo where
  operacion : Operacion
  pid : UInt32
  nombreArchivo : Cadena
  tamanio : UInt32
  posicionArchivo : UInt32
  dirFisica : DireccionFisica
  direccion : ℕ
  deriving DecidableEq

/-- The name under which the directory has a file: one character for each byte. -/
def nombreDe (nombre : Cadena) : String :=
  String.ofList (nombre.bytes.map fun b => Char.ofNat b.toNat)

/-- Where the interface is with a request: it waits for memory, or memory has answered. -/
inductive Curso
  | enMemoria (p : ServidorMemoria.Pedido)
  | contestado (r : ServidorMemoria.Respuesta)

/-- `io_fs_read` and `io_fs_write`, up to the request to memory; `none` where the file that was not
found is dereferenced. -/
def empezar (c : DialFs.Config) (d : DialFs.Estado) (e : Encargo) :
    Option ServidorMemoria.Pedido :=
  match e.operacion with
  | .ioFsRead =>
      (DialFs.ioFsRead c d (nombreDe e.nombreArchivo) e.posicionArchivo.toNat e.tamanio.toNat).map
        fun leido => .ejecutarIoFsRead e.pid e.dirFisica leido
  | .ioFsWrite =>
      some (.ejecutarIoFsWrite e.pid e.nombreArchivo e.tamanio e.posicionArchivo e.dirFisica)

/-- `atender_memoria`: what it does to the disk. -/
def atenderMemoria (c : DialFs.Config) (d : DialFs.Estado) :
    ServidorMemoria.Respuesta → Option DialFs.Estado
  | .ejecutarIoFsWrite _ nombreArchivo _ posicionArchivo _ leido =>
      DialFs.ioFsWrite c d (nombreDe nombreArchivo) posicionArchivo.toNat leido
  | _ => some d

/-! ### The system -/

/-- Memory, and of each interface its disk, the requests that wait for it and the one it is busy
with. -/
structure Estado (ι : Type*) where
  memoria : Memoria.Estado
  disco : ι → DialFs.Estado
  cola : ι → List Encargo
  curso : ι → Option (Encargo × Curso)

/-- What happens: a request to memory alone; IO_FS_CREATE, IO_FS_DELETE or IO_FS_TRUNCATE; and the
steps of an access to a file, of which `retirar` is the end of its process. -/
inductive Evento (ι : Type*)
  | uso (u : Memoria.Pedido × Memoria.Desenlace)
  | disco (i : ι) (e : DialFs.Evento)
  | pedir (i : ι) (operacion : Operacion) (pid : UInt32) (direccion : ℕ)
      (nombreArchivo : Cadena) (tamanio posicionArchivo : UInt32)
  | retirar (i : ι) (e : Encargo)
  | empezar (i : ι) (e : Encargo)
  | responder (i : ι) (e : Encargo)
  | terminar (i : ι)

section Sistema

variable {ι : Type*} [DecidableEq ι] (c : ι → DialFs.Config)
  (programas : Cadena → Option (List String))

/-- The physical address that the CPU finds for a logical one: the frame is that of PEDIR_MARCO. -/
def traducir (m : Memoria.Estado) (pid : UInt32) (direccion : ℕ) : Option DireccionFisica :=
  (Memoria.accederATablaDePaginas m pid.toNat (direccion / m.tamPagina)).toOption.map fun marco =>
    ⟨pid, UInt32.ofNat marco, UInt32.ofNat (direccion % m.tamPagina)⟩

/-- One step; `none` where it is not taken, or does not end. -/
def paso (s : Estado ι) : Evento ι → Option (Estado ι)
  | .uso u =>
      match Memoria.usar s.memoria u.1 with
      | .ok (r, m') => if r = u.2 then some { s with memoria := m' } else none
      | .error _ => none
  | .disco i e =>
      if s.curso i = none then
        (DialFs.atender (c i) (s.disco i) e).map fun d =>
          { s with disco := Function.update s.disco i d }
      else none
  | .pedir i operacion pid direccion nombreArchivo tamanio posicionArchivo =>
      (traducir s.memoria pid direccion).map fun dirFisica =>
        { s with
          cola := Function.update s.cola i (s.cola i ++
            [⟨operacion, pid, nombreArchivo, tamanio, posicionArchivo, dirFisica, direccion⟩]) }
  | .retirar i e =>
      if e ∈ s.cola i then some { s with cola := Function.update s.cola i ((s.cola i).erase e) }
      else none
  | .empezar i e =>
      if e ∈ s.cola i ∧ s.curso i = none then
        (empezar (c i) (s.disco i) e).map fun p =>
          { s with
            cola := Function.update s.cola i ((s.cola i).erase e)
            curso := Function.update s.curso i (some (e, .enMemoria p)) }
      else none
  | .responder i e =>
      match s.curso i with
      | some (e', .enMemoria p) =>
          match ServidorMemoria.paso programas s.memoria p with
          | some ([r], m') =>
              if e' = e then
                some { s with
                  memoria := m'
                  curso := Function.update s.curso i (some (e, .contestado r)) }
              else none
          | _ => none
      | _ => none
  | .terminar i =>
      match s.curso i with
      | some (_, .contestado r) =>
          (atenderMemoria (c i) (s.disco i) r).map fun d =>
            { s with
              disco := Function.update s.disco i d
              curso := Function.update s.curso i none }
      | _ => none

/-- A request to the interface whose process waits for it. -/
def Estado.EnViaje (s : Estado ι) (i : ι) (e : Encargo) : Prop :=
  e ∈ s.cola i ∨ ∃ k, s.curso i = some (e, k)

/-- IO_FS_CREATE, IO_FS_DELETE and IO_FS_TRUNCATE, which reach the directory alone. -/
def EsDirectorio : DialFs.Evento → Prop
  | .crear _ | .eliminar _ | .truncar _ _ _ => True
  | .escribir _ _ _ | .leer _ _ _ => False

instance : DecidablePred EsDirectorio
  | .crear _ | .eliminar _ | .truncar _ _ _ => .isTrue trivial
  | .escribir _ _ _ | .leer _ _ _ => .isFalse id

/-- A process that waits asks nothing of memory, but may be ended; files are created under new names
while there is a free block, grow while the disk has room and do not shrink; and the accesses stay
inside the space, as `AdmiteAcceso` says, and inside the file. -/
def Admite (s : Estado ι) : Evento ι → Prop
  | .uso u => Memoria.Admite s.memoria u.1 ∧
      ∀ i e, s.EnViaje i e → e.pid.toNat = u.1.pid → u.1 = .eliminar u.1.pid
  | .disco i e => EsDirectorio e ∧ e.admisible (c i) (s.disco i) ∧
      DialFs.SinAchicar (c i) (s.disco i) e
  | .pedir _ _ pid direccion _ tamanio _ =>
      AdmiteAcceso s.memoria pid.toNat direccion tamanio.toNat
  | .empezar i e =>
      DialFs.dentro (s.disco i) (nombreDe e.nombreArchivo) e.posicionArchivo.toNat
        e.tamanio.toNat = true
  | .retirar _ _ => True
  | .responder _ _ => True
  | .terminar _ => True

/-- The modules, started together. -/
def sistema (P tamMemoria : ℕ) : Transicion.Sistema (Estado ι) (Evento ι) where
  inicial s := ∃ espacio, s =
    { memoria := Memoria.crearEstructurasMemoria P tamMemoria espacio
      disco := fun _ => DialFs.estadoInicial
      cola := fun _ => []
      curso := fun _ => none }
  paso s e s' := paso c programas s e = some s'

end Sistema

/-! ### The copies -/

/-- An access to a file, by logical addresses. -/
structure Acceso where
  pid : Pid
  direccion : ℕ
  nombre : String
  posicion : ℕ
  tamanio : ℕ
  deriving DecidableEq, Repr

/-- What is seen of a run: the accesses to files are those of memory's answers. -/
inductive Suceso (ι : Type*)
  | uso (u : Memoria.Pedido × Memoria.Desenlace)
  | disco (i : ι) (e : DialFs.Evento)
  | guardar (i : ι) (a : Acceso)
  | cargar (i : ι) (a : Acceso)

def Encargo.acceso (e : Encargo) : Acceso where
  pid := e.pid.toNat
  direccion := e.direccion
  nombre := nombreDe e.nombreArchivo
  posicion := e.posicionArchivo.toNat
  tamanio := e.tamanio.toNat

def Evento.suceso {ι : Type*} : Evento ι → Option (Suceso ι)
  | .uso u => some (.uso u)
  | .disco i e => some (.disco i e)
  | .responder i e =>
      match e.operacion with
      | .ioFsRead => some (.cargar i e.acceso)
      | .ioFsWrite => some (.guardar i e.acceso)
  | .pedir _ _ _ _ _ _ _ | .retirar _ _ | .empezar _ _ | .terminar _ => none

/-- The spaces of the processes, and what has been written to the files of each interface. -/
structure Mundo (ι : Type*) where
  espacio : Pid → Option (List UInt8)
  archivos : ι → Contenido

/-- A copy takes one step.  Bytes of a file that were never written may be any. -/
inductive Mundo.Paso {ι : Type*} [DecidableEq ι] (P : ℕ) :
    Mundo ι → Suceso ι → Mundo ι → Prop
  | uso {a : Mundo ι} {u : Memoria.Pedido × Memoria.Desenlace} {t : Option (List UInt8)} :
      PasoPropio P (a.espacio u.1.pid) u t →
      Paso P a (.uso u) { a with espacio := Function.update a.espacio u.1.pid t }
  | disco {a : Mundo ι} {i : ι} {e : DialFs.Evento} {f : Contenido} :
      DialFs.abstracto.paso (a.archivos i) e f →
      Paso P a (.disco i e) { a with archivos := Function.update a.archivos i f }
  | guardar {a : Mundo ι} {i : ι} {x : Acceso} {bs : List UInt8} :
      a.espacio x.pid = some bs → x.direccion + x.tamanio ≤ bs.length →
      Paso P a (.guardar i x)
        { a with
          archivos := Function.update a.archivos i (DialFs.aplicar (a.archivos i)
            (.escribir x.nombre x.posicion ((bs.drop x.direccion).take x.tamanio))) }
  | cargar {a : Mundo ι} {i : ι} {x : Acceso} {bs leido : List UInt8} {f : ℕ → Option UInt8} :
      a.espacio x.pid = some bs → x.direccion + x.tamanio ≤ bs.length →
      a.archivos i x.nombre = some f → leido.length = x.tamanio →
      DialFs.Coincide f x.posicion leido →
      Paso P a (.cargar i x)
        { a with
          espacio := Function.update a.espacio x.pid (some (reemplazar bs x.direccion leido)) }

/-- The spaces and the files, with nothing in between. -/
def atomico (ι : Type*) [DecidableEq ι] (P : ℕ) : Transicion.Sistema (Mundo ι) (Suceso ι) where
  inicial a := a = ⟨fun _ => none, fun _ _ => none⟩
  paso := Mundo.Paso P

/-! ### The requests that wait -/

/-- The physical address of a request is still that of its logical one, unless its process ended. -/
structure Vale (m : Memoria.Estado) (e : Encargo) : Prop where
  admite : AdmiteAcceso m e.pid.toNat e.direccion e.tamanio.toNat
  dirFisica : ∀ ps, m.tablaDePaginas e.pid.toNat = some ps →
    e.direccion / m.tamPagina < ps.length ∧
      e.dirFisica = Teclado.direccionFisica m e.pid ps e.direccion

section Vale

variable {P N : ℕ} {m m' : Memoria.Estado} {e : Encargo}

/-- As long as the process waits, its table is the same, or there is none. -/
theorem Vale.seguir (h : Vale m e) (htam : m'.tamPagina = m.tamPagina)
    (htabla : m'.tablaDePaginas e.pid.toNat = m.tablaDePaginas e.pid.toNat ∨
      m'.tablaDePaginas e.pid.toNat = none) : Vale m' e := by
  rcases htabla with htabla | htabla
  · refine ⟨?_, ?_⟩
    · intro ps hps
      rw [htabla] at hps
      rw [htam]
      exact h.admite ps hps
    · intro ps hps
      rw [htabla] at hps
      rw [Teclado.direccionFisica, htam]
      exact h.dirFisica ps hps
  · refine ⟨?_, ?_⟩
    · intro ps hps
      rw [htabla] at hps
      cases hps
    · intro ps hps
      rw [htabla] at hps
      cases hps

/-- A request that the CPU has just translated. -/
theorem vale_of_traducir {pid : UInt32} {L : ℕ} {dir : DireccionFisica}
    (h : traducir m pid L = some dir) (ps : List ℕ)
    (hps : m.tablaDePaginas pid.toNat = some ps) :
    L / m.tamPagina < ps.length ∧ dir = Teclado.direccionFisica m pid ps L := by
  obtain ⟨marco, hmarco, rfl⟩ := Option.map_eq_some_iff.1 h
  obtain ⟨qs, hqs, hf⟩ :=
    Memoria.accederATablaDePaginas_eq_ok.1 (Resultado.eq_ok_of_toOption hmarco)
  cases hqs.symm.trans hps
  obtain ⟨hlt, rfl⟩ := List.getElem?_eq_some_iff.1 hf
  refine ⟨hlt, ?_⟩
  rw [Teclado.direccionFisica, List.getD_eq_getElem?_getD, List.getElem?_eq_getElem hlt,
    Option.getD_some]

/-- A request to memory leaves the tables of the other processes, and none where a process ended. -/
theorem tablas_usar (hP : 0 < m.tamPagina) (hm : Memoria.Coherente m) {p : Memoria.Pedido}
    {r : Memoria.Desenlace}
    (h : Memoria.usar m p = .ok (r, m')) {q : Pid} (hq : p.pid = q → p = .eliminar q) :
    m'.tablaDePaginas q = m.tablaDePaginas q ∨ m'.tablaDePaginas q = none := by
  cases p with
  | crear instrucciones pid =>
      cases h
      refine Or.inl (Function.update_of_ne ?_ _ _)
      rintro rfl
      cases hq rfl
  | redimensionar pid bytes =>
      obtain ⟨⟨codigo, m₁⟩, hok, heq⟩ := Resultado.map_eq_ok.1 h
      cases heq
      have hne : pid ≠ q := by
        rintro rfl
        cases hq rfl
      cases hps : m.tablaDePaginas pid with
      | none => simp [Memoria.resizeProceso, hps] at hok
      | some ps =>
          obtain ⟨c, hc⟩ : ∃ c : ℕ, Memoria.cantidadPaginas m.tamPagina bytes = c :=
            ⟨_, Memoria.cantidadPaginas_natCast hP bytes⟩
          rcases Memoria.resizeProceso_spec hm hps hc with ⟨hok', -⟩ |
            ⟨m₂, qs, hok', -, -, -, htabla, -⟩
          · cases hok.symm.trans hok'
            exact Or.inl rfl
          · cases hok.symm.trans hok'
            rw [htabla]
            exact Or.inl (Function.update_of_ne hne.symm _ _)
  | eliminar pid =>
      obtain ⟨m₁, hok, heq⟩ := Resultado.map_eq_ok.1 h
      cases heq
      cases hps : m.tablaDePaginas pid with
      | none => simp [Memoria.eliminarProceso, Memoria.liberarMarcosDeProceso, hps, bind,
          Except.bind] at hok
      | some ps =>
          obtain ⟨m₂, hok', -, htabla, -⟩ := Memoria.eliminarProceso_spec hm hps
          cases hok.symm.trans hok'
          rw [htabla]
          by_cases hpid : q = pid
          · subst hpid
            exact Or.inr (Function.update_self _ _ _)
          · exact Or.inl (Function.update_of_ne hpid _ _)
  | leer pid L n =>
      obtain ⟨dir, -, h⟩ := Resultado.bind_eq_ok.1 h
      obtain ⟨datos, -, heq⟩ := Resultado.bind_eq_ok.1 h
      cases heq
      exact Or.inl rfl
  | escribir pid L datos =>
      obtain ⟨dir, -, h⟩ := Resultado.bind_eq_ok.1 h
      obtain ⟨m₁, hm₁, heq⟩ := Resultado.bind_eq_ok.1 h
      cases heq
      exact Or.inl (congrFun (Memoria.agregarDatosAMemoria_conserva
        (I := fun m' => m'.tablaDePaginas = m.tablaDePaginas) (fun h _ _ => h) rfl hm₁) q)
  | copiar pid di si n =>
      obtain ⟨dirDi, -, h⟩ := Resultado.bind_eq_ok.1 h
      obtain ⟨dirSi, -, h⟩ := Resultado.bind_eq_ok.1 h
      obtain ⟨m₁, hm₁, heq⟩ := Resultado.bind_eq_ok.1 h
      cases heq
      exact Or.inl (congrFun (Memoria.copyString_conserva
        (I := fun m' => m'.tablaDePaginas = m.tablaDePaginas) (fun h _ _ => h) rfl hm₁) q)

/-- A process has no more frames than there are. -/
theorem length_le_cantidad (hm : Memoria.Coherente m) {pid : Pid} {ps : List ℕ}
    (hps : m.tablaDePaginas pid = some ps) : ps.length ≤ m.cantidadDePaginas := by
  have hsub : ps ⊆ List.range m.cantidadDePaginas := by
    intro f hf
    exact List.mem_range.2 (hm.rango ⟨pid, ps, hps, hf⟩)
  simpa using ((hm.propios hps).subperm hsub).length_le

variable (hP : 0 < P) (hint : N * P < 2 ^ 31) (hm : EnRegla P N m) (h : Vale m e)
include hP hint hm h

/-- The address that memory finds is the one the CPU meant. -/
theorem convertir_eq {ps : List ℕ} (hps : m.tablaDePaginas e.pid.toNat = some ps) :
    ServidorMemoria.convertir m e.dirFisica = Memoria.direccionDeAcceso m ps e.direccion := by
  obtain ⟨hL, hdir⟩ := h.dirFisica ps hps
  have hP' : 0 < m.tamPagina := hm.tamPagina ▸ hP
  have hint' : m.cantidadDePaginas * m.tamPagina < 2 ^ 31 := by
    rw [hm.cantidad, hm.tamPagina]
    exact hint
  rw [hdir]
  exact Teclado.convertirDireccion_eq hm.coherente hP' hint' hps hL

/-- What memory reads for the interface are the bytes that the process sees. -/
theorem leido_of_vale {leido : List UInt8}
    (hleer : ServidorMemoria.leerDeMemoria m e.pid e.dirFisica e.tamanio = some leido) :
    ∃ bs, vista P m e.pid.toNat = some bs ∧ e.direccion + e.tamanio.toNat ≤ bs.length ∧
      leido = (bs.drop e.direccion).take e.tamanio.toNat := by
  obtain ⟨leidos, hleidos, rfl⟩ := Option.map_eq_some_iff.1 hleer
  replace hleidos := Resultado.eq_ok_of_toOption hleidos
  obtain ⟨ps, hps⟩ : ∃ ps, m.tablaDePaginas e.pid.toNat = some ps := by
    refine Option.ne_none_iff_exists'.1 fun hnone => ?_
    simp [Memoria.obtenerDatosDeMemoria, hnone] at hleidos
  obtain ⟨hL, -⟩ := h.dirFisica ps hps
  have hlen := (h.admite ps hps).1
  have hcabe := Nat.mul_le_mul_right m.tamPagina (length_le_cantidad hm.coherente hps)
  have hn : e.tamanio.toNat < 2 ^ 31 := by
    rw [hm.cantidad, hm.tamPagina] at hcabe
    rw [hm.tamPagina] at hlen
    omega
  have hexacto := (Memoria.exacto_of_admite hP hm h.admite hps hL).1
  have hleido := Memoria.leido_eq hexacto hlen
  rw [← convertir_eq hP hint hm h hps] at hleido
  rw [Entero.aInt_of_lt hn, Int.toNat_natCast, hleido] at hleidos
  cases hleidos
  rw [hm.tamPagina] at hlen ⊢
  refine ⟨_, Memoria.vista_of_tabla hps, ?_, ?_⟩
  · rwa [List.length_map, Memoria.length_direcciones]
  · rw [List.length_take, List.length_drop, List.length_map, Memoria.length_direcciones,
      show e.tamanio.toNat - min e.tamanio.toNat (ps.length * P - e.direccion) = 0 by omega,
      List.replicate_zero, List.append_nil]

/-- What memory writes for the interface goes to the bytes that the process sees. -/
theorem escrito_of_vale {leido : List UInt8} (hlargo : leido.length = e.tamanio.toNat)
    (hok : Memoria.agregarDatosAMemoria m leido (ServidorMemoria.convertir m e.dirFisica)
      e.pid.toNat = .ok m') :
    ∃ bs, vista P m e.pid.toNat = some bs ∧ e.direccion + e.tamanio.toNat ≤ bs.length ∧
      EnRegla P N m' ∧ m'.tablaDePaginas = m.tablaDePaginas ∧
      vista P m' =
        Function.update (vista P m) e.pid.toNat (some (reemplazar bs e.direccion leido)) := by
  obtain ⟨ps, hps⟩ : ∃ ps, m.tablaDePaginas e.pid.toNat = some ps := by
    refine Option.ne_none_iff_exists'.1 fun hnone => ?_
    simp [Memoria.agregarDatosAMemoria, hnone] at hok
  obtain ⟨hL, -⟩ := h.dirFisica ps hps
  have hadm := h.admite
  rw [← hlargo] at hadm ⊢
  have hlen := (hadm ps hps).1
  rw [convertir_eq hP hint hm h hps] at hok
  obtain ⟨espacio, hok', hw⟩ :=
    Memoria.escrito_eq (Memoria.exacto_of_admite hP hm hadm hps hL).2 hlen
  cases hok.symm.trans hok'
  rw [hm.tamPagina] at hlen hw
  obtain ⟨hregla, hvista⟩ := Memoria.vista_escribir hP hm hps hw hlen
  refine ⟨_, Memoria.vista_of_tabla hps, ?_, hregla, rfl, hvista⟩
  rwa [List.length_map, Memoria.length_direcciones]

end Vale

/-! ### The simulation -/

/-- Where an interface is with its request, `f` being what its disk holds.  The bytes that memory
answered to an IO_FS_WRITE are seen already. -/
inductive EnCurso (c : DialFs.Config) (m : Memoria.Estado) (d : DialFs.Estado) (f : Contenido) :
    Option (Encargo × Curso) → Contenido → Prop
  | libre : EnCurso c m d f none f
  | leyendo {e : Encargo} {leido : List UInt8} : e.operacion = .ioFsRead → Vale m e →
      DialFs.ioFsRead c d (nombreDe e.nombreArchivo) e.posicionArchivo.toNat e.tamanio.toNat =
        some leido →
      EnCurso c m d f (some (e, .enMemoria (.ejecutarIoFsRead e.pid e.dirFisica leido))) f
  | escribiendo {e : Encargo} : e.operacion = .ioFsWrite → Vale m e →
      DialFs.dentro d (nombreDe e.nombreArchivo) e.posicionArchivo.toNat e.tamanio.toNat = true →
      EnCurso c m d f
        (some (e, .enMemoria
          (.ejecutarIoFsWrite e.pid e.nombreArchivo e.tamanio e.posicionArchivo e.dirFisica))) f
  | leido {e : Encargo} :
      EnCurso c m d f (some (e, .contestado (.hecho .ejecutarIoFsRead e.pid))) f
  | escrito {e : Encargo} {leido : List UInt8} :
      DialFs.dentro d (nombreDe e.nombreArchivo) e.posicionArchivo.toNat leido.length = true →
      EnCurso c m d f
        (some (e, .contestado
          (.ejecutarIoFsWrite e.pid e.nombreArchivo e.tamanio e.posicionArchivo e.dirFisica leido)))
        (DialFs.aplicar f (.escribir (nombreDe e.nombreArchivo) e.posicionArchivo.toNat leido))

/-- The request goes on while memory serves others. -/
theorem EnCurso.seguir {c : DialFs.Config} {m m' : Memoria.Estado} {d : DialFs.Estado}
    {f g : Contenido} {k : Option (Encargo × Curso)} (h : EnCurso c m d f k g)
    (htam : m'.tamPagina = m.tamPagina)
    (htabla : ∀ e k', k = some (e, k') →
      m'.tablaDePaginas e.pid.toNat = m.tablaDePaginas e.pid.toNat ∨
        m'.tablaDePaginas e.pid.toNat = none) : EnCurso c m' d f k g := by
  cases h with
  | libre => exact .libre
  | leyendo hop hvale hlee => exact .leyendo hop (hvale.seguir htam (htabla _ _ rfl)) hlee
  | escribiendo hop hvale hdentro =>
      exact .escribiendo hop (hvale.seguir htam (htabla _ _ rfl)) hdentro
  | leido => exact .leido
  | escrito hdentro => exact .escrito hdentro

section Simulacion

variable {ι : Type*} [DecidableEq ι] (c : ι → DialFs.Config)
  (programas : Cadena → Option (List String))

/-- The spaces are what the processes see; the requests that wait are worth their translations; and
the disks hold the files, up to the write that is under way. -/
structure Representa (P N : ℕ) (s : Estado ι) (a : Mundo ι) : Prop where
  regla : EnRegla P N s.memoria
  espacio : a.espacio = vista P s.memoria
  cola : ∀ i, ∀ e ∈ s.cola i, Vale s.memoria e
  curso : ∀ i, ∃ f, DialFs.Representa (c i) (s.disco i) f ∧
    EnCurso (c i) s.memoria (s.disco i) f (s.curso i) (a.archivos i)

variable {c programas} {P N : ℕ} {s s' : Estado ι} {a : Mundo ι} (hR : Representa c P N s a)
include hR

omit [DecidableEq ι] in
/-- Memory serves others, and the requests to the interfaces stay as they are. -/
theorem representa_memoria {m' : Memoria.Estado} (hm' : EnRegla P N m')
    (htabla : ∀ i e, s.EnViaje i e →
      m'.tablaDePaginas e.pid.toNat = s.memoria.tablaDePaginas e.pid.toNat ∨
        m'.tablaDePaginas e.pid.toNat = none) :
    Representa c P N { s with memoria := m' } { a with espacio := vista P m' } := by
  have htam : m'.tamPagina = s.memoria.tamPagina := hm'.tamPagina.trans hR.regla.tamPagina.symm
  refine ⟨hm', rfl, ?_, ?_⟩
  · intro i e he
    exact (hR.cola i e he).seguir htam (htabla i e (Or.inl he))
  · intro i
    obtain ⟨f, hf, hcurso⟩ := hR.curso i
    refine ⟨f, hf, hcurso.seguir htam ?_⟩
    intro e k hk
    exact htabla i e (Or.inr ⟨k, hk⟩)

theorem representa_uso (hP : 0 < P) {u : Memoria.Pedido × Memoria.Desenlace}
    (hC : Admite c s (.uso u)) (h : paso c programas s (.uso u) = some s') :
    ∃ a', Mundo.Paso P a (.uso u) a' ∧ Representa c P N s' a' := by
  obtain ⟨hadm, hespera⟩ := hC
  obtain ⟨p, r⟩ := u
  rw [paso] at h
  split at h
  · rename_i r' m' hok
    split at h
    · rename_i hr
      cases hr
      cases h
      obtain ⟨hm', t, hvista, hpropio⟩ := Memoria.sirve_usar hP hR.regla hadm hok
      refine ⟨{ a with espacio := Function.update a.espacio p.pid t }, .uso ?_, ?_⟩
      · rw [hR.espacio]
        exact hpropio
      · rw [hR.espacio, ← hvista]
        refine representa_memoria hR hm' ?_
        intro i e he
        refine tablas_usar (hR.regla.tamPagina ▸ hP) hR.regla.coherente hok ?_
        intro hpid
        exact hpid ▸ hespera i e he hpid.symm
    · cases h
  · cases h

/-- One interface goes on, and the others stay as they are. -/
theorem representa_interfaz {i : ι} {d : DialFs.Estado} {cola : ι → List Encargo}
    {k : Option (Encargo × Curso)} {f g : Contenido}
    (hcola : ∀ j, ∀ e ∈ cola j, Vale s.memoria e) (hf : DialFs.Representa (c i) d f)
    (hk : EnCurso (c i) s.memoria d f k g) :
    Representa c P N
      { s with
        disco := Function.update s.disco i d
        cola := cola
        curso := Function.update s.curso i k }
      { a with archivos := Function.update a.archivos i g } := by
  refine ⟨hR.regla, hR.espacio, hcola, ?_⟩
  intro j
  by_cases hj : j = i
  · subst hj
    refine ⟨f, ?_, ?_⟩
    · simpa using hf
    · simpa using hk
  · simpa [hj] using hR.curso j

/-- A queue changes. -/
theorem cola_update {i : ι} {es : List Encargo} (hes : ∀ e ∈ es, Vale s.memoria e) :
    ∀ j, ∀ e ∈ Function.update s.cola i es j, Vale s.memoria e :=
  (Function.forall_update_iff s.cola fun _ es => ∀ e ∈ es, Vale s.memoria e).2
    ⟨hes, fun j _ => hR.cola j⟩

theorem cola_erase (i : ι) (e : Encargo) :
    ∀ j, ∀ e' ∈ Function.update s.cola i ((s.cola i).erase e) j, Vale s.memoria e' :=
  cola_update hR fun e' he' => hR.cola i e' (List.mem_of_mem_erase he')

theorem representa_disco (hbs : ∀ i, 0 < (c i).blockSize)
    (hdisco : ∀ i, (c i).blockCount * (c i).blockSize < 2 ^ 31) {i : ι} {e : DialFs.Evento}
    (hC : Admite c s (.disco i e)) (h : paso c programas s (.disco i e) = some s') :
    ∃ a', Mundo.Paso P a (.disco i e) a' ∧ Representa c P N s' a' := by
  obtain ⟨-, hadm, hachica⟩ := hC
  rw [paso] at h
  split at h
  · rename_i hlibre
    obtain ⟨d, hd, rfl⟩ := Option.map_eq_some_iff.1 h
    obtain ⟨f, hf, hcurso⟩ := hR.curso i
    obtain ⟨g, hpaso, hg⟩ := DialFs.representa_paso (hbs i) (hdisco i) hf hachica ⟨hadm, hd⟩
    rw [hlibre] at hcurso
    generalize hai : a.archivos i = fi at hcurso
    cases hcurso
    refine ⟨{ a with archivos := Function.update a.archivos i g }, .disco (hai ▸ hpaso), ?_⟩
    have hsigue := representa_interfaz hR hR.cola hg (.libre (m := s.memoria))
    rwa [← hlibre, Function.update_eq_self] at hsigue
  · cases h

theorem representa_pedir {i : ι} {operacion : Operacion} {pid : UInt32} {L : ℕ}
    {nombreArchivo : Cadena} {tamanio posicion : UInt32}
    (hC : Admite c s (.pedir i operacion pid L nombreArchivo tamanio posicion))
    (h : paso c programas s (.pedir i operacion pid L nombreArchivo tamanio posicion) = some s') :
    Representa c P N s' a := by
  rw [paso] at h
  obtain ⟨dir, hdir, rfl⟩ := Option.map_eq_some_iff.1 h
  refine ⟨hR.regla, hR.espacio, cola_update hR ?_, hR.curso⟩
  intro e he
  rw [List.mem_append, List.mem_singleton] at he
  rcases he with he | rfl
  · exact hR.cola i e he
  · exact ⟨hC, vale_of_traducir hdir⟩

theorem representa_retirar {i : ι} {e : Encargo}
    (h : paso c programas s (.retirar i e) = some s') : Representa c P N s' a := by
  rw [paso] at h
  split at h
  · cases h
    exact ⟨hR.regla, hR.espacio, cola_erase hR i e, hR.curso⟩
  · cases h

theorem representa_empezar {i : ι} {e : Encargo} (hC : Admite c s (.empezar i e))
    (h : paso c programas s (.empezar i e) = some s') : Representa c P N s' a := by
  rw [paso] at h
  split at h
  · rename_i hcola
    obtain ⟨he, hlibre⟩ := hcola
    obtain ⟨p, hp, rfl⟩ := Option.map_eq_some_iff.1 h
    have hvale := hR.cola i e he
    obtain ⟨f, hf, hcurso⟩ := hR.curso i
    have hk : EnCurso (c i) s.memoria (s.disco i) f (some (e, .enMemoria p)) (a.archivos i) := by
      rw [hlibre] at hcurso
      generalize a.archivos i = fi at hcurso
      cases hcurso
      unfold empezar at hp
      cases hop : e.operacion with
      | ioFsRead =>
          simp only [hop] at hp
          obtain ⟨leido, hlee, rfl⟩ := Option.map_eq_some_iff.1 hp
          exact .leyendo hop hvale hlee
      | ioFsWrite =>
          simp only [hop] at hp
          cases hp
          exact .escribiendo hop hvale hC
    have hsigue := representa_interfaz hR (cola_erase hR i e) hf hk
    rwa [Function.update_eq_self, Function.update_eq_self] at hsigue
  · cases h

theorem representa_terminar (hbs : ∀ i, 0 < (c i).blockSize) {i : ι}
    (h : paso c programas s (.terminar i) = some s') : Representa c P N s' a := by
  rw [paso] at h
  split at h
  · rename_i e r hk
    obtain ⟨d, hd, rfl⟩ := Option.map_eq_some_iff.1 h
    obtain ⟨f, hf, hcurso⟩ := hR.curso i
    obtain ⟨g, hg, hlibre⟩ : ∃ g, DialFs.Representa (c i) d g ∧
        EnCurso (c i) s.memoria d g none (a.archivos i) := by
      rw [hk] at hcurso
      generalize a.archivos i = fi at hcurso
      cases hcurso with
      | leido =>
          cases hd
          exact ⟨f, hf, .libre⟩
      | escrito hdentro =>
          exact ⟨_, DialFs.representa_escribir (hbs i) hf hdentro hd, .libre⟩
    have hsigue := representa_interfaz hR hR.cola hg hlibre
    rwa [Function.update_eq_self] at hsigue
  · cases h

omit hR in
/-- What the interface reads of the file, where it has been written, is that. -/
theorem leido_del_archivo {cf : DialFs.Config} {d : DialFs.Estado} {f : Contenido} {nombre : String}
    {pos n : ℕ} {leido : List UInt8} (hf : DialFs.Representa cf d f)
    (hlee : DialFs.ioFsRead cf d nombre pos n = some leido) :
    ∃ fn, f nombre = some fn ∧ leido.length = n ∧ DialFs.Coincide fn pos leido := by
  obtain ⟨archivo, harchivo, hleido⟩ := Option.map_eq_some_iff.1 hlee
  obtain ⟨fn, hfn⟩ : ∃ fn, f nombre = some fn := by
    refine Option.ne_none_iff_exists'.1 fun hnone => ?_
    simp [(hf.nombres nombre).1 hnone] at harchivo
  refine ⟨fn, hfn, ?_, DialFs.coincide_ioFsRead hf hlee hfn⟩
  rw [← hleido, List.length_map, List.length_range]

/-- Memory's answer is the copy. -/
theorem representa_responder (hP : 0 < P) (hint : N * P < 2 ^ 31) {i : ι} {e : Encargo}
    {x : Suceso ι} (hx : (Evento.responder i e).suceso = some x)
    (h : paso c programas s (.responder i e) = some s') :
    ∃ a', Mundo.Paso P a x a' ∧ Representa c P N s' a' := by
  rw [paso] at h
  split at h
  · rename_i e' p hk
    split at h
    · rename_i r m' hsirve
      split at h
      · rename_i he
        subst he
        cases h
        obtain ⟨f, hf, hcurso⟩ := hR.curso i
        rw [hk] at hcurso
        generalize hg : a.archivos i = g at hcurso
        cases hcurso with
        | leyendo hop hvale hlee =>
            simp only [Evento.suceso, hop] at hx
            cases hx
            obtain ⟨m₁, hok, heq⟩ := Option.map_eq_some_iff.1 hsirve
            cases heq
            obtain ⟨fn, hfn, hlargo, hcoincide⟩ := leido_del_archivo hf hlee
            obtain ⟨bs, hbs, hlen, hm', htabla, hvista⟩ :=
              escrito_of_vale hP hint hR.regla hvale hlargo (Resultado.eq_ok_of_toOption hok)
            refine ⟨{ a with espacio := vista P m' }, ?_, ?_⟩
            · rw [hvista, ← hR.espacio]
              rw [← hR.espacio] at hbs
              exact .cargar hbs hlen (by rw [hg]; exact hfn) hlargo hcoincide
            · have hmem := representa_memoria hR hm' fun i e _ => Or.inl (congrFun htabla _)
              have hsigue := representa_interfaz hmem (i := i) hmem.cola hf (.leido (e := e'))
              rwa [Function.update_eq_self, ← hg, Function.update_eq_self] at hsigue
        | escribiendo hop hvale hdentro =>
            simp only [Evento.suceso, hop] at hx
            cases hx
            obtain ⟨leido, hleer, heq⟩ := Option.map_eq_some_iff.1 hsirve
            cases heq
            obtain ⟨bs, hbs, hlen, rfl⟩ := leido_of_vale hP hint hR.regla hvale hleer
            rw [← hR.espacio] at hbs
            refine ⟨_, .guardar hbs hlen, ?_⟩
            have hlargo : ((bs.drop e'.direccion).take e'.tamanio.toNat).length =
                e'.tamanio.toNat := by
              rw [List.length_take, List.length_drop]
              omega
            have hsigue := representa_interfaz hR (i := i) hR.cola hf
              (.escrito (e := e') (hlargo.symm ▸ hdentro))
            rwa [Function.update_eq_self, ← hg] at hsigue
      · cases h
    · cases h
  · cases h

end Simulacion

section Corridas

variable {ι : Type*} [DecidableEq ι] {c : ι → DialFs.Config}
  {programas : Cadena → Option (List String)} {P tamMemoria : ℕ} (hP : 0 < P)
  (hmem : tamMemoria < 2 ^ 31) (hbs : ∀ i, 0 < (c i).blockSize)
  (hdisco : ∀ i, (c i).blockCount * (c i).blockSize < 2 ^ 31)
include hP hmem hbs hdisco

/-- The requests in several steps simulate the copies. -/
theorem simulacion : Transicion.SimulacionVisible (sistema c programas P tamMemoria) (Admite c)
    Evento.suceso (atomico ι P) (Representa c P (tamMemoria / P)) := by
  have hint : tamMemoria / P * P < 2 ^ 31 := (Nat.div_mul_le_self tamMemoria P).trans_lt hmem
  refine ⟨?_, ?_, ?_⟩
  · rintro s ⟨espacio, rfl⟩
    refine ⟨_, rfl, Memoria.enRegla_inicial P tamMemoria espacio, ?_, ?_, ?_⟩
    · funext pid
      rfl
    · intro i e he
      cases he
    · intro i
      exact ⟨_, DialFs.representa_inicial, .libre⟩
  · intro s a e s' hR hC h hx
    cases e with
    | uso u => cases hx
    | disco i e => cases hx
    | pedir i operacion pid L nombreArchivo tamanio posicion => exact representa_pedir hR hC h
    | retirar i e => exact representa_retirar hR h
    | empezar i e => exact representa_empezar hR hC h
    | responder i e =>
        simp only [Evento.suceso] at hx
        split at hx <;> cases hx
    | terminar i => exact representa_terminar hR hbs h
  · intro s a e s' x hR hC h hx
    cases e with
    | uso u =>
        cases hx
        exact representa_uso hR hP hC h
    | disco i e =>
        cases hx
        exact representa_disco hR hbs hdisco hC h
    | responder i e => exact representa_responder hR hP hint hx h
    | pedir i operacion pid L nombreArchivo tamanio posicion => cases hx
    | retirar i e => cases hx
    | empezar i e => cases hx
    | terminar i => cases hx

end Corridas

/-! ### What can be told of the bytes -/

/-- Some bytes of a file, known or not, in the place of those it had from `pos` on. -/
def pegar (f : ℕ → Option UInt8) (pos : ℕ) (vs : List (Option UInt8)) : ℕ → Option UInt8 :=
  fun j => if j < pos then f j else (vs[j - pos]?).getD (f j)

/-- The bytes of a file, known or not, from `pos` on. -/
def cortar (f : ℕ → Option UInt8) (pos n : ℕ) : List (Option UInt8) :=
  (List.range n).map fun j => f (pos + j)

/-- The bytes of the spaces and of the files that can be told from the requests. -/
structure Saber (ι : Type*) where
  espacio : Pid → Memoria.Conocido
  archivos : ι → Contenido

section Saber

variable {ι : Type*} [DecidableEq ι] (P : ℕ)

/-- What can be told after one more request: a copy makes known what was known of the bytes that it
copies. -/
def Saber.tras (k : Saber ι) : Suceso ι → Saber ι
  | .uso u =>
      { k with
        espacio :=
          Function.update k.espacio u.1.pid (Memoria.recordar P (k.espacio u.1.pid) u) }
  | .disco i e =>
      { k with archivos := Function.update k.archivos i (DialFs.aplicar (k.archivos i) e) }
  | .guardar i x =>
      { k with
        archivos := Function.update k.archivos i (Function.update (k.archivos i) x.nombre
          ((k.archivos i x.nombre).map fun f => pegar f x.posicion
            ((((k.espacio x.pid).getD []).drop x.direccion).take x.tamanio))) }
  | .cargar i x =>
      { k with
        espacio := Function.update k.espacio x.pid ((k.espacio x.pid).map fun vs =>
          reemplazar vs x.direccion
            (cortar ((k.archivos i x.nombre).getD fun _ => none) x.posicion x.tamanio)) }

variable {P} {k : Saber ι} {a a' : Mundo ι}

end Saber

section Prueba

/-- The conditions on a step, with one interface and accesses inside a page. -/
def admisible (c : DialFs.Config) (s : Estado Unit) : Evento Unit → Bool
  | .uso u => u.1.enUnaPagina s.memoria &&
      (s.cola () ++ (s.curso ()).toList.map Prod.fst).all fun e =>
        decide (e.pid.toNat = u.1.pid → u.1 = .eliminar u.1.pid)
  | .disco i e => decide (EsDirectorio e ∧ e.admisible c (s.disco i) ∧
      DialFs.SinAchicar c (s.disco i) e)
  | .pedir _ _ pid direccion _ tamanio _ =>
      Memoria.enUnaPagina s.memoria pid.toNat direccion tamanio.toNat
  | .empezar i e =>
      DialFs.dentro (s.disco i) (nombreDe e.nombreArchivo) e.posicionArchivo.toNat e.tamanio.toNat
  | .retirar _ _ | .responder _ _ | .terminar _ => true

def intentar (c : DialFs.Config) (s : Estado Unit) (e : Evento Unit) : Option (Estado Unit) :=
  if admisible c s e = true then paso (fun _ => c) (fun _ => none) s e else none

theorem admite_of_admisible {c : DialFs.Config} {s : Estado Unit} {e : Evento Unit}
    (h : admisible c s e = true) : Admite (fun _ => c) s e := by
  cases e with
  | uso u =>
      obtain ⟨hadm, hespera⟩ := Bool.and_eq_true_iff.1 h
      refine ⟨Memoria.admite_of_enUnaPagina hadm, ?_⟩
      intro i e he
      refine of_decide_eq_true (List.all_eq_true.1 hespera e (List.mem_append.2 ?_))
      rcases he with he | ⟨k, hk⟩
      · exact .inl he
      · exact .inr (List.mem_map.2 ⟨(e, k), by simpa using hk, rfl⟩)
  | disco i e =>
      exact of_decide_eq_true (p := EsDirectorio e ∧ e.admisible c (s.disco i) ∧
        DialFs.SinAchicar c (s.disco i) e) h
  | pedir i operacion pid L nombreArchivo tamanio posicion =>
      exact Memoria.admiteAcceso_of_enUnaPagina h
  | empezar i e => exact h
  | retirar i e => trivial
  | responder i e => trivial
  | terminar i => trivial

theorem paso_of_intentar {c : DialFs.Config} {s s' : Estado Unit} {e : Evento Unit}
    {P tamMemoria : ℕ} (h : intentar c s e = some s') :
    Admite (fun _ => c) s e ∧
      (sistema (fun _ => c) (fun _ => none) P tamMemoria).paso s e s' := by
  unfold intentar at h
  split at h
  · rename_i hadm
    exact ⟨admite_of_admisible hadm, h⟩
  · cases h

def archivoA : Cadena := ⟨[97], by decide⟩

/-- Process 1 saves two bytes of its second page. -/
def guardado : Encargo where
  operacion := .ioFsWrite
  pid := 1
  nombreArchivo := archivoA
  tamanio := 2
  posicionArchivo := 10
  dirFisica := ⟨1, 1, 1⟩
  direccion := 5

/-- Process 2 loads them in its first one. -/
def cargado : Encargo where
  operacion := .ioFsRead
  pid := 2
  nombreArchivo := archivoA
  tamanio := 2
  posicionArchivo := 10
  dirFisica := ⟨2, 2, 1⟩
  direccion := 1

end Prueba

end Traslado
