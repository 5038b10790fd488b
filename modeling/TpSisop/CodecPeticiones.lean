/-
**The I/O petitions the CPU sends to the kernel.**

A petition is the context of the process, less the resource, followed by what the operation asks
for.  Writer and reader of each of the eight kinds are separate functions, and one pair has drifted
apart: the writer of STDIN_READ sends the name of the interface a second time, behind the address,
where its reader expects the size register.

Main definitions:

* `Codec.DireccionFisica`, `Codec.TRegistro` — physical addresses and size registers;
* `Codec.PeticionIo`, `Codec.Peticion` — what is asked for, and with its context;
* `Codec.serializarPeticion`, `Codec.recibirPeticion` — the writers of the CPU, and the readers the
  kernel picks by the operation code.

Main results:

* `Codec.peticion_fiel` — the seven pairs that agree;
* `Codec.stdinRead_no_decodifica` — the eighth leaves bytes unread whatever it is given;
* `Codec.peticion_ida_y_vuelta` — exactly which petitions survive.
-/

import TpSisop.CodecContexto

set_option relaxedAutoImplicit false
set_option autoImplicit false

namespace Codec

open Codificacion (Lector Lee Gasta Escribe exigido bind_eq_some pure_eq_some)
open Kernel (OperacionIo)

/-! ### Addresses and size registers -/

/-- `t_direccion_fisica`. -/
structure DireccionFisica where
  pid : UInt32
  marco : UInt32
  desplazamientoFisico : UInt32
  deriving DecidableEq, Repr

/-- `agregar_dir_fisica_a_paquete`. -/
def agregarDirFisicaAPaquete (dir : DireccionFisica) : Escritor := do
  agregarUint32 dir.pid
  agregarUint32 dir.marco
  agregarUint32 dir.desplazamientoFisico

/-- `deserializar_direccion_fisica`. -/
def deserializarDireccionFisica : Lector DireccionFisica := do
  let pid ← deserializarUint32
  let marco ← deserializarUint32
  let desplazamientoFisico ← deserializarUint32
  return { pid, marco, desplazamientoFisico }

theorem direccionFisica_fiel (dir : DireccionFisica) :
    Fiel (agregarDirFisicaAPaquete dir) deserializarDireccionFisica dir (4 + (4 + 4)) := by
  refine (uint32_fiel dir.pid).seguido ?_
  refine (uint32_fiel dir.marco).seguido ?_
  exact (uint32_fiel dir.desplazamientoFisico).devuelto (Lee.nada dir)

theorem direccionFisica_gasta : Gasta deserializarDireccionFisica fun _ n => n = 12 := by
  refine uint32_gasta.seguido fun _ n₁ h₁ => uint32_gasta.seguido fun _ n₂ h₂ => ?_
  refine uint32_gasta.seguido fun _ n₃ h₃ => Gasta.nada ?_
  omega

/-- `t_registro_8`, tagged 1, and `t_registro_32`, with any other tag. -/
inductive TRegistro
  | registro8 (data : UInt8)
  | registro32 (tipo : UInt8) (ancho : tipo ≠ 1) (data : UInt32)
  deriving DecidableEq

/-- `serializar_t_registro`. -/
def serializarTRegistro : TRegistro → Escritor
  | .registro8 data => do
      agregarUint8 1
      agregarUint8 data
  | .registro32 tipo _ data => do
      agregarUint8 tipo
      agregarUint32 data

/-- `deserializar_t_registro`. -/
def deserializarTRegistro : Lector TRegistro := do
  let tipo ← deserializarUint8
  if ancho : tipo = 1 then return .registro8 (← deserializarUint8)
  else return .registro32 tipo ancho (← deserializarUint32)

def TRegistro.tam : TRegistro → ℕ
  | .registro8 _ => 2
  | .registro32 _ _ _ => 5

theorem tRegistro_fiel (reg : TRegistro) :
    Fiel (serializarTRegistro reg) deserializarTRegistro reg reg.tam := by
  cases reg with
  | registro8 data =>
      refine Codificacion.Fiel.deTamanio ?_ (rfl : 1 + 1 = 2)
      refine (uint8_fiel 1).seguido ?_
      exact (uint8_fiel data).devuelto (Lee.nada _)
  | registro32 tipo ancho data =>
      refine Codificacion.Fiel.deTamanio ?_ (rfl : 1 + 4 = 5)
      refine (uint8_fiel tipo).seguido ?_
      rw [dif_neg ancho]
      exact (uint32_fiel data).devuelto (Lee.nada _)

theorem tRegistro_gasta : Gasta deserializarTRegistro fun reg n => n = reg.tam ∧ n ≤ 5 := by
  refine uint8_gasta.seguido fun tipo n hn => ?_
  split
  · refine uint8_gasta.seguido fun _ m hm => Gasta.nada ?_
    simp only [TRegistro.tam]
    omega
  · refine uint32_gasta.seguido fun _ m hm => Gasta.nada ?_
    simp only [TRegistro.tam]
    omega

/-! ### The writers of the CPU -/

/-- A context without a resource, under another operation code, and the calls that follow it. -/
def empaquetarPeticion (operacion : OperacionIo) (pcb : Pcb) (motivo : MotivoDesalojo)
    (w : Escritor) : Option Paquete :=
  empaquetar (.instruccion operacion) do
    serializarContexto ⟨pcb, motivo, none⟩
    w

section

variable (interfaz nombreArchivo : Cadena) (pcb : Pcb) (motivo : MotivoDesalojo)

/-- `obtener_paquete_peticion_io_gen_sleep`. -/
def obtenerPaquetePeticionIoGenSleep (unidadesDeTrabajo : UInt32) : Option Paquete :=
  empaquetarPeticion .genSleep pcb motivo do
    agregarCadena interfaz
    agregarUint32 unidadesDeTrabajo

/-- `t_io_stdin_read`. -/
structure IoStdinRead where
  interfaz : Cadena
  dirFisica : DireccionFisica
  tamanio : TRegistro

/-- `serializar_t_stdin_read`. -/
def serializarTStdinRead (stdinRead : IoStdinRead) : Escritor := do
  agregarDirFisicaAPaquete stdinRead.dirFisica
  agregarCadena stdinRead.interfaz
  serializarTRegistro stdinRead.tamanio

/-- `serializar_peticion_io_stdin_read`. -/
def serializarPeticionIoStdinRead (stdinRead : IoStdinRead) : Option Paquete :=
  empaquetarPeticion .stdinRead pcb motivo do
    agregarCadena interfaz
    serializarTStdinRead stdinRead

/-- `t_io_stdout_write`. -/
structure IoStdoutWrite where
  interfaz : Cadena
  dirFisica : DireccionFisica
  tamanio : UInt32

/-- `serializar_t_stdout_write`. -/
def serializarTStdoutWrite (stdoutWrite : IoStdoutWrite) : Escritor := do
  agregarDirFisicaAPaquete stdoutWrite.dirFisica
  agregarCadena stdoutWrite.interfaz

/-- `serializar_peticion_io_stdout_write`. -/
def serializarPeticionIoStdoutWrite (stdoutWrite : IoStdoutWrite) (tam : UInt32) :
    Option Paquete :=
  empaquetarPeticion .stdoutWrite pcb motivo do
    serializarTStdoutWrite stdoutWrite
    agregarUint32 tam

/-- The two names that the file system petitions begin with. -/
def agregarNombres : Escritor := do
  agregarCadena interfaz
  agregarCadena nombreArchivo

/-- `obtener_paquete_peticion_io_fs_create`. -/
def obtenerPaquetePeticionIoFsCreate : Option Paquete :=
  empaquetarPeticion .fsCreate pcb motivo (agregarNombres interfaz nombreArchivo)

/-- `obtener_paquete_peticion_io_fs_delete`. -/
def obtenerPaquetePeticionIoFsDelete : Option Paquete :=
  empaquetarPeticion .fsDelete pcb motivo (agregarNombres interfaz nombreArchivo)

/-- `obtener_paquete_peticion_io_fs_truncate`. -/
def obtenerPaquetePeticionIoFsTruncate (tam : UInt32) : Option Paquete :=
  empaquetarPeticion .fsTruncate pcb motivo do
    agregarNombres interfaz nombreArchivo
    agregarUint32 tam

/-- The fields of a petition that reads from a file or writes to it. -/
def agregarAcceso (tam posicionArchivo : UInt32) (dir : DireccionFisica) : Escritor := do
  agregarNombres interfaz nombreArchivo
  agregarUint32 tam
  agregarDirFisicaAPaquete dir
  agregarUint32 posicionArchivo

/-- `obtener_paquete_peticion_io_fs_write`. -/
def obtenerPaquetePeticionIoFsWrite (tam posicionArchivo : UInt32) (dir : DireccionFisica) :
    Option Paquete :=
  empaquetarPeticion .fsWrite pcb motivo
    (agregarAcceso interfaz nombreArchivo tam posicionArchivo dir)

/-- `obtener_paquete_peticion_io_fs_read`. -/
def obtenerPaquetePeticionIoFsRead (tam posicionArchivo : UInt32) (dir : DireccionFisica) :
    Option Paquete :=
  empaquetarPeticion .fsRead pcb motivo
    (agregarAcceso interfaz nombreArchivo tam posicionArchivo dir)

end

/-- What a petition asks for: the `t_peticion_io_*` less their context. -/
inductive PeticionIo
  | genSleep (interfaz : Cadena) (unidadesDeTrabajo : UInt32)
  | stdinRead (interfaz : Cadena) (dirFisica : DireccionFisica) (tamanio : TRegistro)
  | stdoutWrite (interfaz : Cadena) (dirFisica : DireccionFisica) (tamanio : UInt32)
  | fsCreate (interfaz nombreArchivo : Cadena)
  | fsDelete (interfaz nombreArchivo : Cadena)
  | fsTruncate (interfaz nombreArchivo : Cadena) (tam : UInt32)
  | fsWrite (interfaz nombreArchivo : Cadena) (tam posicionArchivo : UInt32)
      (dirFis : DireccionFisica)
  | fsRead (interfaz nombreArchivo : Cadena) (tam posicionArchivo : UInt32)
      (dirFis : DireccionFisica)
  deriving DecidableEq

/-- The kind of a petition. -/
def PeticionIo.operacion : PeticionIo → OperacionIo
  | .genSleep .. => .genSleep
  | .stdinRead .. => .stdinRead
  | .stdoutWrite .. => .stdoutWrite
  | .fsCreate .. => .fsCreate
  | .fsDelete .. => .fsDelete
  | .fsTruncate .. => .fsTruncate
  | .fsWrite .. => .fsWrite
  | .fsRead .. => .fsRead

/-- The call with which the CPU makes each petition. -/
def serializarPeticion (pcb : Pcb) (motivo : MotivoDesalojo) : PeticionIo → Option Paquete
  | .genSleep interfaz udt => obtenerPaquetePeticionIoGenSleep interfaz pcb motivo udt
  | .stdinRead interfaz dirFisica tamanio =>
      serializarPeticionIoStdinRead interfaz pcb motivo { interfaz, dirFisica, tamanio }
  | .stdoutWrite interfaz dirFisica tamanio =>
      serializarPeticionIoStdoutWrite pcb motivo { interfaz, dirFisica, tamanio } tamanio
  | .fsCreate interfaz nombre => obtenerPaquetePeticionIoFsCreate interfaz nombre pcb motivo
  | .fsDelete interfaz nombre => obtenerPaquetePeticionIoFsDelete interfaz nombre pcb motivo
  | .fsTruncate interfaz nombre tam =>
      obtenerPaquetePeticionIoFsTruncate interfaz nombre pcb motivo tam
  | .fsWrite interfaz nombre tam posicion dir =>
      obtenerPaquetePeticionIoFsWrite interfaz nombre pcb motivo tam posicion dir
  | .fsRead interfaz nombre tam posicion dir =>
      obtenerPaquetePeticionIoFsRead interfaz nombre pcb motivo tam posicion dir

/-! ### The readers of the kernel -/

/-- A petition with its context. -/
structure Peticion where
  cde : ContextoDeEjecucion
  io : PeticionIo
  deriving DecidableEq

/-- A context and what follows it, from the beginning of the payload, with the number of bytes
taken. -/
def decodificarPeticion (l : Lector PeticionIo) (stream : List UInt8) : Option (Peticion × ℕ) :=
  (do
    let cde ← deserializarContexto
    let io ← l
    return { cde, io } : Lector Peticion) stream 0

def leerGenSleep : Lector PeticionIo := do
  let interfaz ← deserializarCadena
  let unidadesDeTrabajo ← deserializarUint32
  return .genSleep interfaz unidadesDeTrabajo

def leerStdinRead : Lector PeticionIo := do
  let interfaz ← deserializarCadena
  let dirFisica ← deserializarDireccionFisica
  let tamanio ← deserializarTRegistro
  return .stdinRead interfaz dirFisica tamanio

def leerStdoutWrite : Lector PeticionIo := do
  let dirFisica ← deserializarDireccionFisica
  let interfaz ← deserializarCadena
  let tamanio ← deserializarUint32
  return .stdoutWrite interfaz dirFisica tamanio

/-- The two names that the file system petitions begin with. -/
def leerNombres : Lector (Cadena × Cadena) := do
  let interfaz ← deserializarCadena
  let nombreArchivo ← deserializarCadena
  return (interfaz, nombreArchivo)

def leerFsTruncate : Lector PeticionIo := do
  let nombres ← leerNombres
  let tam ← deserializarUint32
  return .fsTruncate nombres.1 nombres.2 tam

/-- The fields of a petition that reads from a file or writes to it. -/
def leerAcceso (peticion : Cadena → Cadena → UInt32 → UInt32 → DireccionFisica → PeticionIo) :
    Lector PeticionIo := do
  let nombres ← leerNombres
  let tam ← deserializarUint32
  let dirFis ← deserializarDireccionFisica
  let posicionArchivo ← deserializarUint32
  return peticion nombres.1 nombres.2 tam posicionArchivo dirFis

/-- `deserializar_obtener_paquete_peticion_io_gen_sleep`. -/
def deserializarObtenerPaquetePeticionIoGenSleep := decodificarPeticion leerGenSleep

/-- `deserializar_obtener_paquete_peticion_io_stdin_read`. -/
def deserializarObtenerPaquetePeticionIoStdinRead := decodificarPeticion leerStdinRead

/-- `deserializar_obtener_paquete_peticion_io_stdout_write`. -/
def deserializarObtenerPaquetePeticionIoStdoutWrite := decodificarPeticion leerStdoutWrite

/-- `deserializar_peticion_io_fs_create`. -/
def deserializarPeticionIoFsCreate :=
  decodificarPeticion do
    let nombres ← leerNombres
    return .fsCreate nombres.1 nombres.2

/-- `deserializar_peticion_io_fs_delete`. -/
def deserializarPeticionIoFsDelete :=
  decodificarPeticion do
    let nombres ← leerNombres
    return .fsDelete nombres.1 nombres.2

/-- `deserializar_peticion_io_fs_truncate`. -/
def deserializarPeticionIoFsTruncate := decodificarPeticion leerFsTruncate

/-- `deserializar_peticion_io_fs_write`. -/
def deserializarPeticionIoFsWrite := decodificarPeticion (leerAcceso .fsWrite)

/-- `deserializar_peticion_io_fs_read`. -/
def deserializarPeticionIoFsRead := decodificarPeticion (leerAcceso .fsRead)

/-- The reader `atender_cpu_dispatch` picks by the operation code. -/
def recibirPeticion (paquete : Paquete) : Option (Peticion × ℕ) :=
  match paquete.codigoOperacion with
  | .instruccion .genSleep => deserializarObtenerPaquetePeticionIoGenSleep paquete.buffer.bytes
  | .instruccion .stdinRead => deserializarObtenerPaquetePeticionIoStdinRead paquete.buffer.bytes
  | .instruccion .stdoutWrite =>
      deserializarObtenerPaquetePeticionIoStdoutWrite paquete.buffer.bytes
  | .instruccion .fsCreate => deserializarPeticionIoFsCreate paquete.buffer.bytes
  | .instruccion .fsDelete => deserializarPeticionIoFsDelete paquete.buffer.bytes
  | .instruccion .fsTruncate => deserializarPeticionIoFsTruncate paquete.buffer.bytes
  | .instruccion .fsWrite => deserializarPeticionIoFsWrite paquete.buffer.bytes
  | .instruccion .fsRead => deserializarPeticionIoFsRead paquete.buffer.bytes
  | _ => none

/-! ### The pairs that agree -/

/-- What the writer of a petition adds to the context. -/
def escritorDe : PeticionIo → Escritor
  | .genSleep interfaz udt => do
      agregarCadena interfaz
      agregarUint32 udt
  | .stdinRead interfaz dirFisica tamanio => do
      agregarCadena interfaz
      serializarTStdinRead { interfaz, dirFisica, tamanio }
  | .stdoutWrite interfaz dirFisica tamanio => do
      serializarTStdoutWrite { interfaz, dirFisica, tamanio }
      agregarUint32 tamanio
  | .fsCreate interfaz nombre => agregarNombres interfaz nombre
  | .fsDelete interfaz nombre => agregarNombres interfaz nombre
  | .fsTruncate interfaz nombre tam => do
      agregarNombres interfaz nombre
      agregarUint32 tam
  | .fsWrite interfaz nombre tam posicion dir => agregarAcceso interfaz nombre tam posicion dir
  | .fsRead interfaz nombre tam posicion dir => agregarAcceso interfaz nombre tam posicion dir

/-- What the reader of a kind of petitions expects behind the context. -/
def lectorDe : OperacionIo → Lector PeticionIo
  | .genSleep => leerGenSleep
  | .stdinRead => leerStdinRead
  | .stdoutWrite => leerStdoutWrite
  | .fsCreate => do
      let nombres ← leerNombres
      return .fsCreate nombres.1 nombres.2
  | .fsDelete => do
      let nombres ← leerNombres
      return .fsDelete nombres.1 nombres.2
  | .fsTruncate => leerFsTruncate
  | .fsWrite => leerAcceso .fsWrite
  | .fsRead => leerAcceso .fsRead

theorem serializarPeticion_eq (pcb : Pcb) (motivo : MotivoDesalojo) (p : PeticionIo) :
    serializarPeticion pcb motivo p = empaquetarPeticion p.operacion pcb motivo (escritorDe p) := by
  cases p <;> rfl

theorem recibirPeticion_eq {paquete : Paquete} {operacion : OperacionIo}
    (h : paquete.codigoOperacion = .instruccion operacion) :
    recibirPeticion paquete = decodificarPeticion (lectorDe operacion) paquete.buffer.bytes := by
  unfold recibirPeticion
  rw [h]
  cases operacion <;> rfl

/-- The size of what is asked for, as its reader expects it. -/
def PeticionIo.tam : PeticionIo → ℕ
  | .genSleep interfaz _ => interfaz.tam + 4
  | .stdinRead interfaz _ tamanio => interfaz.tam + (12 + tamanio.tam)
  | .stdoutWrite interfaz _ _ => 12 + (interfaz.tam + 4)
  | .fsCreate interfaz nombre => interfaz.tam + nombre.tam
  | .fsDelete interfaz nombre => interfaz.tam + nombre.tam
  | .fsTruncate interfaz nombre _ => interfaz.tam + nombre.tam + 4
  | .fsWrite interfaz nombre _ _ _ => interfaz.tam + nombre.tam + (4 + (12 + 4))
  | .fsRead interfaz nombre _ _ _ => interfaz.tam + nombre.tam + (4 + (12 + 4))

theorem nombres_fiel (interfaz nombre : Cadena) :
    Fiel (agregarNombres interfaz nombre) leerNombres (interfaz, nombre)
      (interfaz.tam + nombre.tam) := by
  refine (cadena_fiel interfaz).seguido ?_
  exact (cadena_fiel nombre).devuelto (Lee.nada _)

theorem acceso_fiel
    (peticion : Cadena → Cadena → UInt32 → UInt32 → DireccionFisica → PeticionIo)
    (interfaz nombre : Cadena) (tam posicion : UInt32) (dir : DireccionFisica) :
    Fiel (agregarAcceso interfaz nombre tam posicion dir) (leerAcceso peticion)
      (peticion interfaz nombre tam posicion dir)
      (interfaz.tam + nombre.tam + (4 + (12 + 4))) := by
  refine (nombres_fiel interfaz nombre).seguido ?_
  refine (uint32_fiel tam).seguido ?_
  refine (direccionFisica_fiel dir).seguido ?_
  exact (uint32_fiel posicion).devuelto (Lee.nada _)

/-- Writer and reader agree on every petition but the STDIN_READ ones. -/
theorem peticion_fiel {p : PeticionIo} (h : p.operacion ≠ .stdinRead) :
    Fiel (escritorDe p) (lectorDe p.operacion) p p.tam := by
  cases p with
  | genSleep interfaz udt =>
      refine (cadena_fiel interfaz).seguido ?_
      exact (uint32_fiel udt).devuelto (Lee.nada _)
  | stdinRead => exact absurd rfl h
  | stdoutWrite interfaz dirFisica tamanio =>
      simp only [escritorDe, serializarTStdoutWrite, bind_assoc]
      refine (direccionFisica_fiel dirFisica).seguido ?_
      refine (cadena_fiel interfaz).seguido ?_
      exact (uint32_fiel tamanio).devuelto (Lee.nada _)
  | fsCreate interfaz nombre => exact (nombres_fiel interfaz nombre).devuelto (Lee.nada _)
  | fsDelete interfaz nombre => exact (nombres_fiel interfaz nombre).devuelto (Lee.nada _)
  | fsTruncate interfaz nombre tam =>
      refine (nombres_fiel interfaz nombre).seguido ?_
      exact (uint32_fiel tam).devuelto (Lee.nada _)
  | fsWrite interfaz nombre tam posicion dir =>
      exact acceso_fiel .fsWrite interfaz nombre tam posicion dir
  | fsRead interfaz nombre tam posicion dir =>
      exact acceso_fiel .fsRead interfaz nombre tam posicion dir

/-! ### What a petition that was read took -/

theorem nombres_gasta : Gasta leerNombres fun nombres n => nombres.1.tam + nombres.2.tam ≤ n := by
  refine cadena_gasta.seguido fun _ n hn => cadena_gasta.seguido fun _ m hm => Gasta.nada ?_
  exact Nat.add_le_add hn hm

theorem acceso_gasta
    {peticion : Cadena → Cadena → UInt32 → UInt32 → DireccionFisica → PeticionIo}
    (h : ∀ interfaz nombre tam posicion dir,
      (peticion interfaz nombre tam posicion dir).tam =
        interfaz.tam + nombre.tam + (4 + (12 + 4))) :
    Gasta (leerAcceso peticion) fun p n => p.tam ≤ n := by
  refine nombres_gasta.seguido fun nombres n hn => uint32_gasta.seguido fun tam m hm => ?_
  refine direccionFisica_gasta.seguido fun dir k hk => uint32_gasta.seguido fun pos j hj => ?_
  refine Gasta.nada ?_
  rw [h]
  omega

theorem peticion_gasta (operacion : OperacionIo) :
    Gasta (lectorDe operacion) fun p n => p.tam ≤ n := by
  cases operacion with
  | genSleep =>
      refine cadena_gasta.seguido fun _ n hn => uint32_gasta.seguido fun _ m hm => Gasta.nada ?_
      simp only [PeticionIo.tam]
      omega
  | stdinRead =>
      refine cadena_gasta.seguido fun _ n hn => direccionFisica_gasta.seguido fun _ m hm => ?_
      refine tRegistro_gasta.seguido fun _ k hk => Gasta.nada ?_
      simp only [PeticionIo.tam]
      omega
  | stdoutWrite =>
      refine direccionFisica_gasta.seguido fun _ n hn => cadena_gasta.seguido fun _ m hm => ?_
      refine uint32_gasta.seguido fun _ k hk => Gasta.nada ?_
      simp only [PeticionIo.tam]
      omega
  | fsCreate => exact nombres_gasta.seguido fun _ n hn => Gasta.nada hn
  | fsDelete => exact nombres_gasta.seguido fun _ n hn => Gasta.nada hn
  | fsTruncate =>
      refine nombres_gasta.seguido fun _ n hn => uint32_gasta.seguido fun _ m hm => Gasta.nada ?_
      simp only [PeticionIo.tam]
      omega
  | fsWrite => exact acceso_gasta fun _ _ _ _ _ => rfl
  | fsRead => exact acceso_gasta fun _ _ _ _ _ => rfl

/-! ### Which petitions survive -/

/-- The size of the payload, as its reader expects it. -/
def tamPeticion (pcb : Pcb) (motivo : MotivoDesalojo) (p : PeticionIo) : ℕ :=
  tamContexto ⟨pcb, motivo, none⟩ + p.tam

/-- The kernel reads what the CPU wrote: the process, the motive and all that is asked for, and the
payload to its last byte. -/
def Decodifica (pcb : Pcb) (motivo : MotivoDesalojo) (p : PeticionIo) : Prop :=
  ∃ paquete, serializarPeticion pcb motivo p = some paquete ∧
    recibirPeticion paquete = some (⟨⟨pcb, motivo, none⟩, p⟩, paquete.buffer.bytes.length)

theorem codigo_de_serializarPeticion {pcb : Pcb} {motivo : MotivoDesalojo} {p : PeticionIo}
    {paquete : Paquete} (h : serializarPeticion pcb motivo p = some paquete) :
    paquete.codigoOperacion = .instruccion p.operacion := by
  rw [serializarPeticion_eq, empaquetarPeticion, empaquetar, Option.map_eq_some_iff] at h
  obtain ⟨r, -, rfl⟩ := h
  rfl

theorem decodificar_gasta (operacion : OperacionIo) :
    Gasta (do
      let cde ← deserializarContexto
      let io ← lectorDe operacion
      return { cde, io } : Lector Peticion) fun q n => tamContexto q.cde + q.io.tam ≤ n := by
  refine contexto_gasta.seguido fun _ n hn => ?_
  exact (peticion_gasta operacion).seguido fun _ m hm => Gasta.nada (Nat.add_le_add hn hm)

/-- A petition that is read whole took no more bytes than a buffer has. -/
theorem Decodifica.tam_lt {pcb : Pcb} {motivo : MotivoDesalojo} {p : PeticionIo}
    (h : Decodifica pcb motivo p) : tamPeticion pcb motivo p < 2 ^ 31 := by
  obtain ⟨paquete, hp, hr⟩ := h
  rw [recibirPeticion_eq (codigo_de_serializarPeticion hp)] at hr
  obtain ⟨n, hn, -, hle⟩ := decodificar_gasta p.operacion _ _ _ _ hr
  calc tamPeticion pcb motivo p ≤ n := hle
    _ = paquete.buffer.bytes.length := by rw [hn, Nat.zero_add]
    _ < 2 ^ 31 := paquete.buffer.acotado

/-- Behind the context, the name and the address, the reader of STDIN_READ takes at most the five
bytes of a register. -/
theorem le_of_decodificar_stdinRead {s b₁ b₂ b₃ resto : List UInt8} {cde : ContextoDeEjecucion}
    {interfaz : Cadena} {dir : DireccionFisica} (h₁ : Lee deserializarContexto b₁ cde)
    (h₂ : Lee deserializarCadena b₂ interfaz) (h₃ : Lee deserializarDireccionFisica b₃ dir)
    (hs : s = b₁ ++ (b₂ ++ (b₃ ++ resto))) {q : Peticion} {o : ℕ}
    (h : decodificarPeticion leerStdinRead s = some (q, o)) :
    o ≤ b₁.length + b₂.length + b₃.length + 5 := by
  have hs₁ : s = [] ++ b₁ ++ (b₂ ++ (b₃ ++ resto)) := hs
  have hs₂ : s = b₁ ++ b₂ ++ (b₃ ++ resto) := by rw [hs, List.append_assoc]
  have hs₃ : s = b₁ ++ b₂ ++ b₃ ++ resto := by simp only [hs, List.append_assoc]
  simp only [decodificarPeticion, leerStdinRead, bind_assoc, pure_bind] at h
  have hname := h₁.sigue hs₁ rfl h
  have hdir := h₂.sigue hs₂ (Nat.zero_add _).symm hname
  have hreg := h₃.sigue hs₃ (by simp) hdir
  obtain ⟨reg, m, htake, hq⟩ := bind_eq_some.mp hreg
  obtain ⟨-, rfl⟩ := (pure_eq_some (s := s)).mp hq
  obtain ⟨n, rfl, -, -, hn⟩ := tRegistro_gasta _ _ _ _ htake
  omega

/-- What the writer of STDIN_READ adds has more bytes than its reader takes: between the address
and the register stands the name of the interface, for the second time. -/
theorem stdinRead_no_decodifica (pcb : Pcb) (motivo : MotivoDesalojo) (interfaz : Cadena)
    (dir : DireccionFisica) (tamanio : TRegistro) :
    ¬Decodifica pcb motivo (.stdinRead interfaz dir tamanio) := by
  intro h
  have hlt := h.tam_lt
  simp only [tamPeticion, PeticionIo.tam] at hlt
  obtain ⟨paquete, hp, hr⟩ := h
  obtain ⟨b₁, -, hw₁, hl₁⟩ := contexto_fiel ⟨pcb, motivo, none⟩ (by omega)
  obtain ⟨b₂, htam, hw₂, hl₂⟩ := cadena_fiel interfaz (by omega)
  obtain ⟨b₃, -, hw₃, hl₃⟩ := direccionFisica_fiel dir (by omega)
  obtain ⟨b₄, hreg, hw₄, -⟩ := tRegistro_fiel tamanio (by omega)
  -- the payload: context, name, address, name, register
  have hbytes : paquete.buffer.bytes = b₁ ++ (b₂ ++ (b₃ ++ (b₂ ++ b₄))) := by
    rw [serializarPeticion_eq, empaquetarPeticion] at hp
    exact bytes_of_empaquetar (hw₁.seguido (hw₂.seguido (hw₃.seguido (hw₂.seguido hw₄)))) hp
  rw [recibirPeticion_eq (codigo_de_serializarPeticion hp)] at hr
  have hle := le_of_decodificar_stdinRead hl₁ hl₂ hl₃ hbytes hr
  have hcadena : 5 ≤ interfaz.tam := by unfold Cadena.tam; omega
  have hregistro : 2 ≤ tamanio.tam := by cases tamanio <;> simp [TRegistro.tam]
  rw [hbytes] at hle
  simp only [List.length_append] at hle
  omega

/-- A petition that fits in a buffer survives, if it is not a STDIN_READ. -/
theorem decodifica_of_ne {p : PeticionIo} (hp : p.operacion ≠ .stdinRead) {pcb : Pcb}
    {motivo : MotivoDesalojo} (h : tamPeticion pcb motivo p < 2 ^ 31) :
    Decodifica pcb motivo p := by
  have hf := (contexto_fiel ⟨pcb, motivo, none⟩).seguido
    (f := fun cde => lectorDe p.operacion >>= fun io => pure (⟨cde, io⟩ : Peticion))
    ((peticion_fiel hp).devuelto (Lee.nada _))
  obtain ⟨paquete, hs, hcod, -, hl⟩ := empaquetar_fiel hf h (.instruccion p.operacion)
  have hstart := hl [] []
  rw [List.nil_append, List.append_nil, List.length_nil, Nat.zero_add] at hstart
  refine ⟨paquete, ?_, ?_⟩
  · rw [serializarPeticion_eq]
    exact hs
  · rw [recibirPeticion_eq hcod]
    exact hstart

/-- **Which petitions reach the kernel as they left the CPU**: all that fit in a buffer, except
those of STDIN_READ. -/
theorem peticion_ida_y_vuelta (pcb : Pcb) (motivo : MotivoDesalojo) (p : PeticionIo) :
    Decodifica pcb motivo p ↔ p.operacion ≠ .stdinRead ∧ tamPeticion pcb motivo p < 2 ^ 31 := by
  constructor
  · intro h
    refine ⟨fun hp => ?_, h.tam_lt⟩
    cases p with
    | stdinRead interfaz dir tamanio =>
        exact stdinRead_no_decodifica pcb motivo interfaz dir tamanio h
    | _ => cases hp
  · rintro ⟨hp, h⟩
    exact decodifica_of_ne hp h

/-- The name `TECLADO`, at the address 0, for a size held in an 8-bit register. -/
def peticionTeclado : PeticionIo :=
  .stdinRead ⟨[84, 69, 67, 76, 65, 68, 79], by decide⟩ ⟨1, 0, 0⟩ (.registro8 10)

/-- **STDIN_READ is not decoded as it was sent**: the length of the name is read as the tag of a
32-bit register, and the register is left unread. -/
theorem peticionTeclado_no_decodifica :
    ¬∀ (pcb : Pcb) (motivo : MotivoDesalojo) (p : PeticionIo),
      tamPeticion pcb motivo p < 2 ^ 31 → Decodifica pcb motivo p := by
  intro h
  exact stdinRead_no_decodifica pcbConRecursos .io _ _ _
    (h pcbConRecursos .io peticionTeclado (by decide))

end Codec
