/-
**An I/O request that the interface rejects, and the kernel sends again.**

An interface that is busy sends the request back; the kernel keeps it in the queue of the interface
and sends it again when the interface is free.  Each operation goes through its own four functions.
In seven of the eight chains they agree.  In the chain of STDOUT_WRITE the interface writes the size
as a number and the kernel reads it as a tagged register, whose memory it later hands on as the
number: only the low byte of the size is sure to come back, and the others are bytes that nobody
wrote.

Main definitions:

* `Codec.PedidoIo`, `Codec.serializarEjecutar`, `Codec.recibirEjecutar` — requests to an interface;
* `Codec.serializarOcupada`, `Codec.InterfazMje`, `Codec.deserializarOcupada` — rejected requests;
* `Codec.IoPcb`, `Codec.encolar`, `Codec.reenviar` — the queue of the kernel;
* `Codec.Basura`, `Codec.comoUint32` — memory that is read without having been written;
* `Codec.reintentar` — the whole way.

Main results:

* `Codec.ejecutar_fiel`, `Codec.ocupada_fiel` — the messages that agree;
* `Codec.reintentar_stdoutWrite` — the size that STDOUT_WRITE comes back with;
* `Codec.reintento_sin_cambios` — exactly which requests come back unchanged.
-/

import TpSisop.CodecPeticiones

set_option relaxedAutoImplicit false
set_option autoImplicit false

namespace Codec

open Codificacion (Lector Lee Gasta Escribe valor littleEndian bind_eq_some pure_eq_some)
open Kernel (OperacionIo)

/-! ### Requests -/

/-- The parameters of an `EJECUTAR_IO_*` message: the `t_ejecutar_io_*`. -/
inductive PedidoIo
  | genSleep (pid unidadesDeTrabajo : UInt32)
  | stdinRead (pid : UInt32) (dirFisica : DireccionFisica) (tamanio : TRegistro)
  | stdoutWrite (pid : UInt32) (dirFisica : DireccionFisica) (tamanio : UInt32)
  | fsCreate (pid : UInt32) (nombreArchivo : Cadena)
  | fsDelete (pid : UInt32) (nombreArchivo : Cadena)
  | fsTruncate (pid : UInt32) (nombreArchivo : Cadena) (tamanioATruncar : UInt32)
  | fsWrite (pid : UInt32) (nombreArchivo : Cadena) (tamanio posicionArchivo : UInt32)
      (dirFisica : DireccionFisica)
  | fsRead (pid : UInt32) (nombreArchivo : Cadena) (tamanio posicionArchivo : UInt32)
      (dirFisica : DireccionFisica)
  deriving DecidableEq

def PedidoIo.operacion : PedidoIo → OperacionIo
  | .genSleep .. => .genSleep
  | .stdinRead .. => .stdinRead
  | .stdoutWrite .. => .stdoutWrite
  | .fsCreate .. => .fsCreate
  | .fsDelete .. => .fsDelete
  | .fsTruncate .. => .fsTruncate
  | .fsWrite .. => .fsWrite
  | .fsRead .. => .fsRead

section

variable (pid : UInt32) (nombreArchivo : Cadena)

/-- `serializar_ejecutar_io_gen_sleep`. -/
def serializarEjecutarIoGenSleep (unidadesDeTrabajo : UInt32) : Escritor := do
  agregarUint32 unidadesDeTrabajo
  agregarUint32 pid

/-- `serializar_ejecutar_io_stdin_read`. -/
def serializarEjecutarIoStdinRead (dir : DireccionFisica) (tamanio : TRegistro) : Escritor := do
  agregarUint32 pid
  agregarDirFisicaAPaquete dir
  serializarTRegistro tamanio

/-- `serializar_ejecutar_io_stdout_write`. -/
def serializarEjecutarIoStdoutWrite (dir : DireccionFisica) (tamanio : UInt32) : Escritor := do
  agregarUint32 pid
  agregarDirFisicaAPaquete dir
  agregarUint32 tamanio

/-- A request about a file that is only named. -/
def serializarEjecutarIoFsNombre : Escritor := do
  agregarUint32 pid
  agregarCadena nombreArchivo

/-- `serializar_ejecutar_io_fs_create`. -/
def serializarEjecutarIoFsCreate : Escritor := serializarEjecutarIoFsNombre pid nombreArchivo

/-- `serializar_ejecutar_io_fs_delete`. -/
def serializarEjecutarIoFsDelete : Escritor := serializarEjecutarIoFsNombre pid nombreArchivo

/-- `serializar_ejecutar_io_fs_truncate`. -/
def serializarEjecutarIoFsTruncate (tamanio : UInt32) : Escritor := do
  agregarUint32 pid
  agregarCadena nombreArchivo
  agregarUint32 tamanio

/-- A request that reads from a file or writes to it. -/
def serializarEjecutarIoFsAcceso (tam posicionArchivo : UInt32) (dir : DireccionFisica) :
    Escritor := do
  agregarUint32 pid
  agregarCadena nombreArchivo
  agregarUint32 tam
  agregarUint32 posicionArchivo
  agregarDirFisicaAPaquete dir

/-- `serializar_ejecutar_io_fs_write`. -/
def serializarEjecutarIoFsWrite := serializarEjecutarIoFsAcceso pid nombreArchivo

/-- `serializar_ejecutar_io_fs_read`. -/
def serializarEjecutarIoFsRead := serializarEjecutarIoFsAcceso pid nombreArchivo

end

/-- What the message of a request holds. -/
def escribirEjecutar : PedidoIo → Escritor
  | .genSleep pid udt => serializarEjecutarIoGenSleep pid udt
  | .stdinRead pid dir tamanio => serializarEjecutarIoStdinRead pid dir tamanio
  | .stdoutWrite pid dir tamanio => serializarEjecutarIoStdoutWrite pid dir tamanio
  | .fsCreate pid nombre => serializarEjecutarIoFsCreate pid nombre
  | .fsDelete pid nombre => serializarEjecutarIoFsDelete pid nombre
  | .fsTruncate pid nombre tamanio => serializarEjecutarIoFsTruncate pid nombre tamanio
  | .fsWrite pid nombre tam posicion dir => serializarEjecutarIoFsWrite pid nombre tam posicion dir
  | .fsRead pid nombre tam posicion dir => serializarEjecutarIoFsRead pid nombre tam posicion dir

/-- The message of a request. -/
def serializarEjecutar (p : PedidoIo) : Option Paquete :=
  empaquetar (.ejecutar p.operacion) (escribirEjecutar p)

/-- The reader of a request about a file that is only named. -/
def deserializarEjecutarIoFsNombre (pedido : UInt32 → Cadena → PedidoIo) : Lector PedidoIo := do
  let pid ← deserializarUint32
  let nombreArchivo ← deserializarCadena
  return pedido pid nombreArchivo

/-- The reader of a request that reads from a file or writes to it. -/
def deserializarEjecutarIoFsAcceso
    (pedido : UInt32 → Cadena → UInt32 → UInt32 → DireccionFisica → PedidoIo) :
    Lector PedidoIo := do
  let pid ← deserializarUint32
  let nombreArchivo ← deserializarCadena
  let tamanio ← deserializarUint32
  let posicionArchivo ← deserializarUint32
  let dirFisica ← deserializarDireccionFisica
  return pedido pid nombreArchivo tamanio posicionArchivo dirFisica

/-- The reader of each `EJECUTAR_IO_*`: `deserializar_ejecutar_io_gen_sleep`,
`deserializar_ejecutar_stdin_read`, `deserializar_ejecutar_stdout_write` and the
`deserializar_ejecutar_io_fs_*`. -/
def deserializarEjecutar : OperacionIo → Lector PedidoIo
  | .genSleep => do
      let unidadesDeTrabajo ← deserializarUint32
      let pid ← deserializarUint32
      return .genSleep pid unidadesDeTrabajo
  | .stdinRead => do
      let pid ← deserializarUint32
      let dirFisica ← deserializarDireccionFisica
      let tamanio ← deserializarTRegistro
      return .stdinRead pid dirFisica tamanio
  | .stdoutWrite => do
      let pid ← deserializarUint32
      let dirFisica ← deserializarDireccionFisica
      let tamanio ← deserializarUint32
      return .stdoutWrite pid dirFisica tamanio
  | .fsCreate => deserializarEjecutarIoFsNombre .fsCreate
  | .fsDelete => deserializarEjecutarIoFsNombre .fsDelete
  | .fsTruncate => do
      let pid ← deserializarUint32
      let nombreArchivo ← deserializarCadena
      let tamanioATruncar ← deserializarUint32
      return .fsTruncate pid nombreArchivo tamanioATruncar
  | .fsWrite => deserializarEjecutarIoFsAcceso .fsWrite
  | .fsRead => deserializarEjecutarIoFsAcceso .fsRead

/-- The request that `atender_kernel` of an interface reads. -/
def recibirEjecutar (paquete : Paquete) : Option PedidoIo :=
  match paquete.codigoOperacion with
  | .ejecutar operacion =>
      (deserializarEjecutar operacion paquete.buffer.bytes 0).map fun r => r.1
  | _ => none

def PedidoIo.tam : PedidoIo → ℕ
  | .genSleep _ _ => 4 + 4
  | .stdinRead _ _ tamanio => 4 + (12 + tamanio.tam)
  | .stdoutWrite _ _ _ => 4 + (12 + 4)
  | .fsCreate _ nombre => 4 + nombre.tam
  | .fsDelete _ nombre => 4 + nombre.tam
  | .fsTruncate _ nombre _ => 4 + (nombre.tam + 4)
  | .fsWrite _ nombre _ _ _ => 4 + (nombre.tam + (4 + (4 + 12)))
  | .fsRead _ nombre _ _ _ => 4 + (nombre.tam + (4 + (4 + 12)))

theorem ejecutarFsNombre_fiel (pedido : UInt32 → Cadena → PedidoIo) (pid : UInt32)
    (nombre : Cadena) :
    Fiel (serializarEjecutarIoFsNombre pid nombre) (deserializarEjecutarIoFsNombre pedido)
      (pedido pid nombre) (4 + nombre.tam) := by
  refine (uint32_fiel pid).seguido ?_
  exact (cadena_fiel nombre).devuelto (Lee.nada _)

theorem ejecutarFsAcceso_fiel
    (pedido : UInt32 → Cadena → UInt32 → UInt32 → DireccionFisica → PedidoIo) (pid : UInt32)
    (nombre : Cadena) (tam posicion : UInt32) (dir : DireccionFisica) :
    Fiel (serializarEjecutarIoFsAcceso pid nombre tam posicion dir)
      (deserializarEjecutarIoFsAcceso pedido) (pedido pid nombre tam posicion dir)
      (4 + (nombre.tam + (4 + (4 + 12)))) := by
  refine (uint32_fiel pid).seguido ?_
  refine (cadena_fiel nombre).seguido ?_
  refine (uint32_fiel tam).seguido ?_
  refine (uint32_fiel posicion).seguido ?_
  exact (direccionFisica_fiel dir).devuelto (Lee.nada _)

/-- Kernel and interface agree on every request. -/
theorem ejecutar_fiel (p : PedidoIo) :
    Fiel (escribirEjecutar p) (deserializarEjecutar p.operacion) p p.tam := by
  cases p with
  | genSleep pid udt =>
      refine (uint32_fiel udt).seguido ?_
      exact (uint32_fiel pid).devuelto (Lee.nada _)
  | stdinRead pid dir tamanio =>
      refine (uint32_fiel pid).seguido ?_
      refine (direccionFisica_fiel dir).seguido ?_
      exact (tRegistro_fiel tamanio).devuelto (Lee.nada _)
  | stdoutWrite pid dir tamanio =>
      refine (uint32_fiel pid).seguido ?_
      refine (direccionFisica_fiel dir).seguido ?_
      exact (uint32_fiel tamanio).devuelto (Lee.nada _)
  | fsCreate pid nombre => exact ejecutarFsNombre_fiel .fsCreate pid nombre
  | fsDelete pid nombre => exact ejecutarFsNombre_fiel .fsDelete pid nombre
  | fsTruncate pid nombre tamanio =>
      refine (uint32_fiel pid).seguido ?_
      refine (cadena_fiel nombre).seguido ?_
      exact (uint32_fiel tamanio).devuelto (Lee.nada _)
  | fsWrite pid nombre tam posicion dir =>
      exact ejecutarFsAcceso_fiel .fsWrite pid nombre tam posicion dir
  | fsRead pid nombre tam posicion dir =>
      exact ejecutarFsAcceso_fiel .fsRead pid nombre tam posicion dir

/-- A request that fits in a buffer arrives as it was sent. -/
theorem recibirEjecutar_serializarEjecutar {p : PedidoIo} (h : p.tam < 2 ^ 31) :
    (serializarEjecutar p).bind recibirEjecutar = some p := by
  obtain ⟨paquete, hp, hcod, -, hl⟩ := empaquetar_fiel (ejecutar_fiel p) h (.ejecutar p.operacion)
  have hstart := hl [] []
  rw [List.nil_append, List.append_nil, List.length_nil, Nat.zero_add] at hstart
  rw [serializarEjecutar, hp, Option.bind_some, recibirEjecutar, hcod]
  change (deserializarEjecutar p.operacion paquete.buffer.bytes 0).map _ = _
  rw [hstart]
  rfl

/-! ### Rejected requests -/

section

variable (nombreInterfaz : Cadena) (pid : UInt32) (nombreArchivo : Cadena)

/-- `serializar_interfaz_ocupada_sleep`. -/
def serializarInterfazOcupadaSleep (unidadesDeTrabajo : UInt32) : Escritor := do
  agregarCadena nombreInterfaz
  agregarUint32 pid
  agregarUint32 unidadesDeTrabajo

/-- `serializar_interfaz_ocupada_read`. -/
def serializarInterfazOcupadaRead (dir : DireccionFisica) (tamanio : TRegistro) : Escritor := do
  agregarCadena nombreInterfaz
  agregarUint32 pid
  agregarDirFisicaAPaquete dir
  serializarTRegistro tamanio

/-- `serializar_interfaz_ocupada_write`: the size is a number, not a register. -/
def serializarInterfazOcupadaWrite (dir : DireccionFisica) (tamanio : UInt32) : Escritor := do
  agregarCadena nombreInterfaz
  agregarUint32 pid
  agregarDirFisicaAPaquete dir
  agregarUint32 tamanio

/-- A rejected request about a file that is only named. -/
def serializarInterfazOcupadaFsNombre : Escritor := do
  agregarCadena nombreInterfaz
  agregarUint32 pid
  agregarCadena nombreArchivo

/-- `serializar_interfaz_ocupada_fs_create`. -/
def serializarInterfazOcupadaFsCreate : Escritor :=
  serializarInterfazOcupadaFsNombre nombreInterfaz pid nombreArchivo

/-- `serializar_interfaz_ocupada_fs_delete`. -/
def serializarInterfazOcupadaFsDelete : Escritor :=
  serializarInterfazOcupadaFsNombre nombreInterfaz pid nombreArchivo

/-- `serializar_interfaz_ocupada_fs_truncate`. -/
def serializarInterfazOcupadaFsTruncate (tamanio : UInt32) : Escritor := do
  agregarCadena nombreInterfaz
  agregarUint32 pid
  agregarCadena nombreArchivo
  agregarUint32 tamanio

/-- A rejected request that reads from a file or writes to it. -/
def serializarInterfazOcupadaFsAcceso (tamanio posicionArchivo : UInt32) (dir : DireccionFisica) :
    Escritor := do
  agregarCadena nombreInterfaz
  agregarUint32 pid
  agregarCadena nombreArchivo
  agregarUint32 tamanio
  agregarUint32 posicionArchivo
  agregarDirFisicaAPaquete dir

/-- `serializar_interfaz_ocupada_fs_write`. -/
def serializarInterfazOcupadaFsWrite :=
  serializarInterfazOcupadaFsAcceso nombreInterfaz pid nombreArchivo

/-- `serializar_interfaz_ocupada_fs_read`. -/
def serializarInterfazOcupadaFsRead :=
  serializarInterfazOcupadaFsAcceso nombreInterfaz pid nombreArchivo

end

/-- What the message of a rejected request holds. -/
def escribirOcupada (nombre : Cadena) : PedidoIo → Escritor
  | .genSleep pid udt => serializarInterfazOcupadaSleep nombre pid udt
  | .stdinRead pid dir tamanio => serializarInterfazOcupadaRead nombre pid dir tamanio
  | .stdoutWrite pid dir tamanio => serializarInterfazOcupadaWrite nombre pid dir tamanio
  | .fsCreate pid archivo => serializarInterfazOcupadaFsCreate nombre pid archivo
  | .fsDelete pid archivo => serializarInterfazOcupadaFsDelete nombre pid archivo
  | .fsTruncate pid archivo tamanio =>
      serializarInterfazOcupadaFsTruncate nombre pid archivo tamanio
  | .fsWrite pid archivo tam posicion dir =>
      serializarInterfazOcupadaFsWrite nombre pid archivo tam posicion dir
  | .fsRead pid archivo tam posicion dir =>
      serializarInterfazOcupadaFsRead nombre pid archivo tam posicion dir

/-- The message with which the interface `nombre` rejects a request. -/
def serializarOcupada (nombre : Cadena) (p : PedidoIo) : Option Paquete :=
  empaquetar (.ioOcupada p.operacion) (escribirOcupada nombre p)

/-- `t_interfaz_mje`; `none` is a field that is `NULL`, or that nobody wrote. -/
structure InterfazMje where
  nombreInterfaz : Cadena
  pid : UInt32
  unidadesDeTrabajo : Option UInt32 := none
  direccionFisica : Option DireccionFisica := none
  reg : Option TRegistro := none
  nombreArchivo : Option Cadena := none
  tamanioTruncar : Option UInt32 := none
  tamanio : Option UInt32 := none
  posicionArchivo : Option UInt32 := none
  deriving DecidableEq

/-- `deserializar_io_ocupada_read` and `deserializar_io_ocupada_write`, which are the same: both
read a register. -/
def deserializarIoOcupadaConRegistro : Lector InterfazMje := do
  let nombreInterfaz ← deserializarCadena
  let pid ← deserializarUint32
  let dir ← deserializarDireccionFisica
  let reg ← deserializarTRegistro
  return { nombreInterfaz, pid, unidadesDeTrabajo := some (-1), direccionFisica := dir, reg := reg }

/-- `deserializar_io_ocupada_fs_create` and `deserializar_io_ocupada_fs_delete`. -/
def deserializarIoOcupadaFsNombre : Lector InterfazMje := do
  let nombreInterfaz ← deserializarCadena
  let pid ← deserializarUint32
  let archivo ← deserializarCadena
  return { nombreInterfaz, pid, nombreArchivo := archivo }

/-- `deserializar_io_ocupada_fs_write` and `deserializar_io_ocupada_fs_read`. -/
def deserializarIoOcupadaFsAcceso : Lector InterfazMje := do
  let nombreInterfaz ← deserializarCadena
  let pid ← deserializarUint32
  let archivo ← deserializarCadena
  let tam ← deserializarUint32
  let posicion ← deserializarUint32
  let dir ← deserializarDireccionFisica
  return { nombreInterfaz, pid, nombreArchivo := archivo, tamanio := tam,
           posicionArchivo := posicion, direccionFisica := dir }

/-- The reader of each `IO_OCUPADA_*`. -/
def deserializarOcupada : OperacionIo → Lector InterfazMje
  | .genSleep => do
      let nombreInterfaz ← deserializarCadena
      let pid ← deserializarUint32
      let udt ← deserializarUint32
      return { nombreInterfaz, pid, unidadesDeTrabajo := udt }
  | .stdinRead => deserializarIoOcupadaConRegistro
  | .stdoutWrite => deserializarIoOcupadaConRegistro
  | .fsCreate => deserializarIoOcupadaFsNombre
  | .fsDelete => deserializarIoOcupadaFsNombre
  | .fsTruncate => do
      let nombreInterfaz ← deserializarCadena
      let pid ← deserializarUint32
      let archivo ← deserializarCadena
      let tam ← deserializarUint32
      return { nombreInterfaz, pid, nombreArchivo := archivo, tamanioTruncar := tam }
  | .fsWrite => deserializarIoOcupadaFsAcceso
  | .fsRead => deserializarIoOcupadaFsAcceso

/-! ### The queue of the kernel -/

/-- `t_io_pcb`, with the pid of the process that is found in BLOCKED; `none` is a field that is
`NULL`, or that nobody wrote. -/
structure IoPcb where
  pcb : UInt32
  udt : Option UInt32 := none
  dirFis : Option DireccionFisica := none
  reg : Option TRegistro := none
  nombreArchivo : Option Cadena := none
  tamanioTruncar : Option UInt32 := none
  tamanio : Option UInt32 := none
  posicionArchivo : Option UInt32 := none
  tipoOperacion : Option UInt32 := none
  deriving DecidableEq

/-- The cases `IO_OCUPADA_*` of `atender_io`. -/
def encolar : OperacionIo → InterfazMje → Option IoPcb
  | .genSleep, m => some { pcb := m.pid, udt := m.unidadesDeTrabajo }
  | .stdinRead, m => do
      -- the address and the register are copied, so their pointers are followed
      let dir ← m.direccionFisica
      let reg ← m.reg
      return { pcb := m.pid, dirFis := dir, reg := reg }
  | .stdoutWrite, m => some { pcb := m.pid, dirFis := m.direccionFisica, reg := m.reg }
  | .fsCreate, m => some { pcb := m.pid, nombreArchivo := m.nombreArchivo, tipoOperacion := some 1 }
  | .fsDelete, m => some { pcb := m.pid, nombreArchivo := m.nombreArchivo, tipoOperacion := some 2 }
  | .fsTruncate, m =>
      some { pcb := m.pid, nombreArchivo := m.nombreArchivo, tamanioTruncar := m.tamanioTruncar,
             tipoOperacion := some 3 }
  | .fsWrite, m =>
      some { pcb := m.pid, nombreArchivo := m.nombreArchivo, dirFis := m.direccionFisica,
             tamanio := m.tamanio, posicionArchivo := m.posicionArchivo, tipoOperacion := some 4 }
  | .fsRead, m =>
      some { pcb := m.pid, nombreArchivo := m.nombreArchivo, dirFis := m.direccionFisica,
             tamanio := m.tamanio, posicionArchivo := m.posicionArchivo, tipoOperacion := some 5 }

/-- Memory that is read without having been written: the byte behind the buffer that was received,
and the bytes at the offsets 1 to 3 of the block of a register. -/
structure Basura where
  siguiente : UInt8
  relleno₁ : UInt8
  relleno₂ : UInt8
  relleno₃ : UInt8

/-- The first four bytes of the block of a register, taken for a number.  A `t_registro_8` has its
data at the offset 1; a `t_registro_32` has it from the offset 4 on. -/
def comoUint32 (m : Basura) : TRegistro → UInt32
  | .registro8 data => UInt32.ofNat (valor [1, data, m.relleno₂, m.relleno₃])
  | .registro32 tipo _ _ => UInt32.ofNat (valor [tipo, m.relleno₁, m.relleno₂, m.relleno₃])

/-- The case `FIN_IO` of `atender_io`: the request that `enviar_io_*_a_interfaz` sends, chosen by
the type of the interface. -/
def reenviar (m : Basura) (tipoInterfaz : ℕ) (io : IoPcb) : Option PedidoIo :=
  match tipoInterfaz with
  | 1 => do return .genSleep io.pcb (← io.udt)
  | 2 => do return .stdinRead io.pcb (← io.dirFis) (← io.reg)
  | 3 => do return .stdoutWrite io.pcb (← io.dirFis) (comoUint32 m (← io.reg))
  | 4 =>
      match io.tipoOperacion with
      | some 1 => do return .fsCreate io.pcb (← io.nombreArchivo)
      | some 2 => do return .fsDelete io.pcb (← io.nombreArchivo)
      | some 3 => do return .fsTruncate io.pcb (← io.nombreArchivo) (← io.tamanioTruncar)
      | some 4 => do
          return .fsWrite io.pcb (← io.nombreArchivo) (← io.tamanio) (← io.posicionArchivo)
            (← io.dirFis)
      | some 5 => do
          return .fsRead io.pcb (← io.nombreArchivo) (← io.tamanio) (← io.posicionArchivo)
            (← io.dirFis)
      | _ => none
  | _ => none

/-- The kernel keeps a rejected request, found in the memory behind its buffer as well, in the queue
of the interface it names, and sends it again when that interface is free. -/
def atenderRechazo (m : Basura) (nombre : Cadena) (tipoInterfaz : ℕ) (paquete : Paquete) :
    Option PedidoIo :=
  match paquete.codigoOperacion with
  | .ioOcupada operacion => do
      let (mje, _) ← deserializarOcupada operacion (paquete.buffer.bytes ++ [m.siguiente]) 0
      guard (mje.nombreInterfaz = nombre)
      reenviar m tipoInterfaz (← encolar operacion mje)
  | _ => none

/-- The request that the interface `nombre` receives the second time, having rejected `p`. -/
def reintentar (m : Basura) (nombre : Cadena) (p : PedidoIo) : Option PedidoIo := do
  let ocupada ← serializarOcupada nombre p
  let pedido ← atenderRechazo m nombre p.operacion.tipoInterfaz ocupada
  let paquete ← serializarEjecutar pedido
  recibirEjecutar paquete

/-! ### The chains that agree -/

/-- The request that the kernel makes of a message. -/
def pedidoDe (m : Basura) (operacion : OperacionIo) (mje : InterfazMje) : Option PedidoIo :=
  (encolar operacion mje).bind (reenviar m operacion.tipoInterfaz)

/-- The message of a rejected request, where its reader and its writer agree. -/
def mjeDe (nombreInterfaz : Cadena) : PedidoIo → InterfazMje
  | .genSleep pid udt => { nombreInterfaz, pid, unidadesDeTrabajo := udt }
  | .stdinRead pid dir reg =>
      { nombreInterfaz, pid, unidadesDeTrabajo := some (-1), direccionFisica := dir, reg := reg }
  | .stdoutWrite pid dir _ =>
      { nombreInterfaz, pid, unidadesDeTrabajo := some (-1), direccionFisica := dir }
  | .fsCreate pid archivo => { nombreInterfaz, pid, nombreArchivo := archivo }
  | .fsDelete pid archivo => { nombreInterfaz, pid, nombreArchivo := archivo }
  | .fsTruncate pid archivo tam =>
      { nombreInterfaz, pid, nombreArchivo := archivo, tamanioTruncar := tam }
  | .fsWrite pid archivo tam posicion dir =>
      { nombreInterfaz, pid, nombreArchivo := archivo, tamanio := tam, posicionArchivo := posicion,
        direccionFisica := dir }
  | .fsRead pid archivo tam posicion dir =>
      { nombreInterfaz, pid, nombreArchivo := archivo, tamanio := tam, posicionArchivo := posicion,
        direccionFisica := dir }

theorem ocupadaFsNombre_fiel (nombreInterfaz : Cadena) (pid : UInt32) (archivo : Cadena) :
    Fiel (serializarInterfazOcupadaFsNombre nombreInterfaz pid archivo)
      deserializarIoOcupadaFsNombre { nombreInterfaz, pid, nombreArchivo := archivo }
      (nombreInterfaz.tam + (4 + archivo.tam)) := by
  refine (cadena_fiel nombreInterfaz).seguido ?_
  refine (uint32_fiel pid).seguido ?_
  exact (cadena_fiel archivo).devuelto (Lee.nada _)

theorem ocupadaFsAcceso_fiel (nombreInterfaz : Cadena) (pid : UInt32) (archivo : Cadena)
    (tam posicion : UInt32) (dir : DireccionFisica) :
    Fiel (serializarInterfazOcupadaFsAcceso nombreInterfaz pid archivo tam posicion dir)
      deserializarIoOcupadaFsAcceso
      { nombreInterfaz, pid, nombreArchivo := archivo, tamanio := tam, posicionArchivo := posicion,
        direccionFisica := dir }
      (nombreInterfaz.tam + (4 + (archivo.tam + (4 + (4 + 12))))) := by
  refine (cadena_fiel nombreInterfaz).seguido ?_
  refine (uint32_fiel pid).seguido ?_
  refine (cadena_fiel archivo).seguido ?_
  refine (uint32_fiel tam).seguido ?_
  refine (uint32_fiel posicion).seguido ?_
  exact (direccionFisica_fiel dir).devuelto (Lee.nada _)

/-- Interface and kernel agree on every rejected request but the STDOUT_WRITE ones. -/
theorem ocupada_fiel (nombre : Cadena) {p : PedidoIo} (h : p.operacion ≠ .stdoutWrite) :
    Fiel (escribirOcupada nombre p) (deserializarOcupada p.operacion) (mjeDe nombre p)
      (nombre.tam + p.tam) := by
  cases p with
  | genSleep pid udt =>
      refine (cadena_fiel nombre).seguido ?_
      refine (uint32_fiel pid).seguido ?_
      exact (uint32_fiel udt).devuelto (Lee.nada _)
  | stdinRead pid dir tamanio =>
      refine (cadena_fiel nombre).seguido ?_
      refine (uint32_fiel pid).seguido ?_
      refine (direccionFisica_fiel dir).seguido ?_
      exact (tRegistro_fiel tamanio).devuelto (Lee.nada _)
  | stdoutWrite => exact absurd rfl h
  | fsCreate pid archivo => exact ocupadaFsNombre_fiel nombre pid archivo
  | fsDelete pid archivo => exact ocupadaFsNombre_fiel nombre pid archivo
  | fsTruncate pid archivo tamanio =>
      refine (cadena_fiel nombre).seguido ?_
      refine (uint32_fiel pid).seguido ?_
      refine (cadena_fiel archivo).seguido ?_
      exact (uint32_fiel tamanio).devuelto (Lee.nada _)
  | fsWrite pid archivo tam posicion dir =>
      exact ocupadaFsAcceso_fiel nombre pid archivo tam posicion dir
  | fsRead pid archivo tam posicion dir =>
      exact ocupadaFsAcceso_fiel nombre pid archivo tam posicion dir

theorem pedidoDe_mjeDe (m : Basura) (nombre : Cadena) {p : PedidoIo}
    (h : p.operacion ≠ .stdoutWrite) : pedidoDe m p.operacion (mjeDe nombre p) = some p := by
  cases p with
  | stdoutWrite => exact absurd rfl h
  | _ => rfl

@[simp] theorem mjeDe_nombreInterfaz (nombre : Cadena) (p : PedidoIo) :
    (mjeDe nombre p).nombreInterfaz = nombre := by
  cases p <;> rfl

/-! ### What a message that was read took -/

/-- A message took the bytes of the request that the kernel makes of it, but for the two that a
register of one byte and a number differ in. -/
theorem ocupada_gasta (m : Basura) (operacion : OperacionIo) :
    Gasta (deserializarOcupada operacion) fun mje n => ∀ pedido,
      pedidoDe m operacion mje = some pedido → mje.nombreInterfaz.tam + pedido.tam ≤ n + 2 := by
  cases operacion with
  | genSleep =>
      refine cadena_gasta.seguido fun nombre n hn => uint32_gasta.seguido fun pid k hk => ?_
      refine uint32_gasta.seguido fun udt j hj => Gasta.nada ?_
      rintro _ ⟨⟩
      simp only [PedidoIo.tam]
      omega
  | stdinRead =>
      refine cadena_gasta.seguido fun nombre n hn => uint32_gasta.seguido fun pid k hk => ?_
      refine direccionFisica_gasta.seguido fun dir j hj =>
        tRegistro_gasta.seguido fun reg i hi => ?_
      refine Gasta.nada ?_
      rintro _ ⟨⟩
      simp only [PedidoIo.tam]
      omega
  | stdoutWrite =>
      refine cadena_gasta.seguido fun nombre n hn => uint32_gasta.seguido fun pid k hk => ?_
      refine direccionFisica_gasta.seguido fun dir j hj =>
        tRegistro_gasta.seguido fun reg i hi => ?_
      refine Gasta.nada ?_
      have hreg : 2 ≤ reg.tam := by cases reg <;> simp [TRegistro.tam]
      rintro _ ⟨⟩
      simp only [PedidoIo.tam]
      omega
  | fsTruncate =>
      refine cadena_gasta.seguido fun nombre n hn => uint32_gasta.seguido fun pid k hk => ?_
      refine cadena_gasta.seguido fun archivo j hj => uint32_gasta.seguido fun tam i hi => ?_
      refine Gasta.nada ?_
      rintro _ ⟨⟩
      simp only [PedidoIo.tam]
      omega
  | fsCreate | fsDelete =>
      refine cadena_gasta.seguido fun nombre n hn => uint32_gasta.seguido fun pid k hk => ?_
      refine cadena_gasta.seguido fun archivo j hj => Gasta.nada ?_
      rintro _ ⟨⟩
      simp only [PedidoIo.tam]
      omega
  | fsWrite | fsRead =>
      refine cadena_gasta.seguido fun nombre n hn => uint32_gasta.seguido fun pid k hk => ?_
      refine cadena_gasta.seguido fun archivo j hj => uint32_gasta.seguido fun tam i hi => ?_
      refine uint32_gasta.seguido fun pos h hh => direccionFisica_gasta.seguido fun dir g hg => ?_
      refine Gasta.nada ?_
      rintro _ ⟨⟩
      simp only [PedidoIo.tam]
      omega

/-! ### The whole way -/

theorem atenderRechazo_eq_some {m : Basura} {nombre : Cadena} {operacion : OperacionIo}
    {paquete : Paquete} (hcod : paquete.codigoOperacion = .ioOcupada operacion)
    {pedido : PedidoIo} :
    atenderRechazo m nombre operacion.tipoInterfaz paquete = some pedido ↔ ∃ mje o,
      deserializarOcupada operacion (paquete.buffer.bytes ++ [m.siguiente]) 0 = some (mje, o) ∧
      mje.nombreInterfaz = nombre ∧ pedidoDe m operacion mje = some pedido := by
  unfold atenderRechazo
  rw [hcod]
  simp only [Option.bind_eq_bind, Option.bind_eq_some_iff, pedidoDe, Prod.exists, guard]
  constructor
  · rintro ⟨mje, o, hmje, u, hguard, hpedido⟩
    split at hguard
    case isTrue hnombre => exact ⟨mje, o, hmje, hnombre, hpedido⟩
    case isFalse => cases hguard
  · rintro ⟨mje, o, hmje, hnombre, hpedido⟩
    exact ⟨mje, o, hmje, (), by rw [if_pos hnombre]; rfl, hpedido⟩

/-- The parts of the way of a request. -/
theorem reintentar_eq_some {m : Basura} {nombre : Cadena} {p q : PedidoIo} :
    reintentar m nombre p = some q ↔ ∃ paquete mje o pedido,
      serializarOcupada nombre p = some paquete ∧
      deserializarOcupada p.operacion (paquete.buffer.bytes ++ [m.siguiente]) 0 = some (mje, o) ∧
      mje.nombreInterfaz = nombre ∧ pedidoDe m p.operacion mje = some pedido ∧
      (serializarEjecutar pedido).bind recibirEjecutar = some q := by
  have hcod : ∀ paquete, serializarOcupada nombre p = some paquete →
      paquete.codigoOperacion = .ioOcupada p.operacion := by
    intro paquete h
    rw [serializarOcupada, empaquetar, Option.map_eq_some_iff] at h
    obtain ⟨r, -, rfl⟩ := h
    rfl
  unfold reintentar
  rw [Option.bind_eq_bind, Option.bind_eq_some_iff]
  constructor
  · rintro ⟨paquete, hp, h⟩
    obtain ⟨pedido, hpedido, h⟩ := Option.bind_eq_some_iff.mp h
    obtain ⟨mje, o, hmje, hnombre, hde⟩ := (atenderRechazo_eq_some (hcod paquete hp)).mp hpedido
    exact ⟨paquete, mje, o, pedido, hp, hmje, hnombre, hde, h⟩
  · rintro ⟨paquete, mje, o, pedido, hp, hmje, hnombre, hde, h⟩
    have hpedido := (atenderRechazo_eq_some (hcod paquete hp)).mpr ⟨mje, o, hmje, hnombre, hde⟩
    exact ⟨paquete, hp, Option.bind_eq_some_iff.mpr ⟨pedido, hpedido, h⟩⟩

/-- The message of a rejected request, when it fits in its buffer, and for any reader of it. -/
theorem serializarOcupada_fiel {nombre : Cadena} {p : PedidoIo} {mje : InterfazMje}
    (h : nombre.tam + p.tam < 2 ^ 31)
    (hf : Fiel (escribirOcupada nombre p) (deserializarOcupada p.operacion) mje
      (nombre.tam + p.tam)) (m : Basura) :
    ∃ paquete o, serializarOcupada nombre p = some paquete ∧
      deserializarOcupada p.operacion (paquete.buffer.bytes ++ [m.siguiente]) 0 =
        some (mje, o) := by
  obtain ⟨paquete, hp, -, -, hl⟩ := empaquetar_fiel hf h (.ioOcupada p.operacion)
  have hstart := hl [] [m.siguiente]
  rw [List.nil_append, List.length_nil, Nat.zero_add] at hstart
  exact ⟨paquete, _, hp, hstart⟩

/-- The seven chains that agree give every request back. -/
theorem reintentar_of_ne (m : Basura) {nombre : Cadena} {p : PedidoIo}
    (hp : p.operacion ≠ .stdoutWrite) (h : nombre.tam + p.tam < 2 ^ 31) :
    reintentar m nombre p = some p := by
  obtain ⟨paquete, o, hs, hd⟩ := serializarOcupada_fiel h (ocupada_fiel nombre hp) m
  refine reintentar_eq_some.mpr ⟨paquete, _, o, p, hs, hd, mjeDe_nombreInterfaz nombre p,
    pedidoDe_mjeDe m nombre hp, ?_⟩
  exact recibirEjecutar_serializarEjecutar (by omega)

/-! ### The chain of STDOUT_WRITE -/

/-- The register that is read where the size was written: its low byte is the tag. -/
def registroLeido (m : Basura) (tamanio : UInt32) : TRegistro :=
  if ancho : UInt8.ofNat tamanio.toNat = 1 then
    .registro8 (UInt8.ofNat (tamanio.toNat / 256))
  else
    .registro32 (UInt8.ofNat tamanio.toNat) ancho
      (UInt32.ofNat (valor (littleEndian 3 (tamanio.toNat / 256) ++ [m.siguiente])))

/-- With the tag 1 the register takes two of the four bytes; with any other it takes the four, and
the byte behind them. -/
theorem registroLeido_lee (m : Basura) (tamanio : UInt32) : ∃ bs resto,
    littleEndian 4 tamanio.toNat ++ [m.siguiente] = bs ++ resto ∧
      Lee deserializarTRegistro bs (registroLeido m tamanio) := by
  have htag := uint8_lee (UInt8.ofNat tamanio.toNat)
  unfold registroLeido
  split
  case isTrue ancho =>
    have hdata := uint8_lee (UInt8.ofNat (tamanio.toNat / 256))
    refine ⟨[UInt8.ofNat tamanio.toNat] ++ [UInt8.ofNat (tamanio.toNat / 256)], _, rfl, ?_⟩
    refine htag.seguido ?_
    rw [dif_pos ancho]
    exact hdata.devuelto (Lee.nada _)
  case isFalse ancho =>
    have hdata := uint32_lee (littleEndian 3 (tamanio.toNat / 256) ++ [m.siguiente]) (by simp)
    refine ⟨[UInt8.ofNat tamanio.toNat] ++ (littleEndian 3 (tamanio.toNat / 256) ++ [m.siguiente]),
      [], ?_, ?_⟩
    · rw [List.append_nil]
      rfl
    · refine htag.seguido ?_
      rw [dif_neg ancho]
      exact hdata.devuelto (Lee.nada _)

/-- The message of a rejected STDOUT_WRITE, in its bytes. -/
theorem ocupadaWrite_escribe {nombre : Cadena} (h : nombre.tam < 2 ^ 32) (pid : UInt32)
    (dir : DireccionFisica) (tamanio : UInt32) : ∃ cabecera : List UInt8,
      cabecera.length = nombre.tam + (4 + 12) ∧
      Escribe (escribirOcupada nombre (.stdoutWrite pid dir tamanio))
        (cabecera ++ littleEndian 4 tamanio.toNat) ∧
      ∀ bs reg, Lee deserializarTRegistro bs reg →
        Lee deserializarIoOcupadaConRegistro (cabecera ++ bs)
          { nombreInterfaz := nombre, pid, unidadesDeTrabajo := some (-1), direccionFisica := dir,
            reg := reg } := by
  obtain ⟨b₁, h₁, hw₁, hl₁⟩ := cadena_fiel nombre h
  obtain ⟨b₂, h₂, hw₂, hl₂⟩ := uint32_fiel pid (by decide)
  obtain ⟨b₃, h₃, hw₃, hl₃⟩ := direccionFisica_fiel dir (by decide)
  have hw₄ : Escribe (agregarUint32 tamanio) (littleEndian 4 tamanio.toNat) :=
    agregarVarAPaquete_escribe _ (by simp)
  refine ⟨b₁ ++ (b₂ ++ b₃), ?_, ?_, ?_⟩
  · rw [List.length_append, List.length_append, h₁, h₂, h₃]
  · have hw := hw₁.seguido (hw₂.seguido (hw₃.seguido hw₄))
    rw [← List.append_assoc, ← List.append_assoc] at hw
    rw [← List.append_assoc]
    exact hw
  · intro bs reg hreg
    rw [List.append_assoc, List.append_assoc]
    exact hl₁.seguido (hl₂.seguido (hl₃.seguido (hreg.devuelto (Lee.nada _))))

/-- The number that the memory of the register is taken for. -/
def tamanioReintentado (m : Basura) (tamanio : UInt32) : UInt32 :=
  comoUint32 m (registroLeido m tamanio)

/-- What a rejected STDOUT_WRITE comes back as. -/
theorem reintentar_stdoutWrite (m : Basura) {nombre : Cadena} (pid : UInt32) (dir : DireccionFisica)
    (tamanio : UInt32) (h : nombre.tam + 20 < 2 ^ 31) :
    reintentar m nombre (.stdoutWrite pid dir tamanio) =
      some (.stdoutWrite pid dir (tamanioReintentado m tamanio)) := by
  have hnombre : nombre.tam < 2 ^ 32 := by omega
  obtain ⟨cabecera, hlen, hw, hl⟩ := ocupadaWrite_escribe hnombre pid dir tamanio
  obtain ⟨bs, resto, hbs, hreg⟩ := registroLeido_lee m tamanio
  have hroom : (cabecera ++ littleEndian 4 tamanio.toNat).length < 2 ^ 31 := by
    rw [List.length_append, hlen, Codificacion.littleEndian_length]
    omega
  obtain ⟨paquete, hp, -, hbytes⟩ := empaquetar_escribe hw hroom (.ioOcupada .stdoutWrite)
  have hread := hl bs _ hreg [] resto
  rw [List.nil_append, List.append_assoc, ← hbs, ← List.append_assoc, ← hbytes] at hread
  have htam : (PedidoIo.stdoutWrite pid dir (tamanioReintentado m tamanio)).tam < 2 ^ 31 :=
    Nat.lt_of_le_of_lt (Nat.le_add_left 20 nombre.tam) h
  exact reintentar_eq_some.mpr ⟨paquete, _, _, _, hp, hread, rfl, rfl,
    recibirEjecutar_serializarEjecutar htam⟩

/-- The bytes of the number come back: the lowest one is the tag, the next one is data after the
tag 1, and the others are what was there before. -/
theorem tamanioReintentado_toNat (m : Basura) (tamanio : UInt32) :
    (tamanioReintentado m tamanio).toNat = tamanio.toNat % 256 +
      256 * ((if tamanio.toNat % 256 = 1 then tamanio.toNat / 256 % 256 else m.relleno₁.toNat) +
        256 * (m.relleno₂.toNat + 256 * m.relleno₃.toNat)) := by
  have h₁ := m.relleno₁.toNat_lt
  have h₂ := m.relleno₂.toNat_lt
  have h₃ := m.relleno₃.toNat_lt
  have htag : UInt8.ofNat tamanio.toNat = 1 ↔ tamanio.toNat % 256 = 1 := by
    rw [← UInt8.toNat_inj, UInt8.toNat_ofNat']
    rfl
  unfold tamanioReintentado registroLeido
  split
  case isTrue h =>
    have hone : (1 : UInt8).toNat = 1 := rfl
    rw [if_pos (htag.mp h), comoUint32, UInt32.toNat_ofNat']
    simp only [valor, UInt8.toNat_ofNat', htag.mp h, hone]
    omega
  case isFalse h =>
    rw [if_neg (mt htag.mpr h), comoUint32, UInt32.toNat_ofNat']
    simp only [valor, UInt8.toNat_ofNat']
    omega

/-! ### Which requests come back unchanged -/

/-- The bytes of the size that the retry does not carry are the ones that nobody wrote. -/
def RellenoCoincide (m : Basura) : PedidoIo → Prop
  | .stdoutWrite _ _ tamanio =>
      (tamanio.toNat % 256 = 1 ∨ tamanio.toNat / 256 % 256 = m.relleno₁.toNat) ∧
        tamanio.toNat / 256 ^ 2 % 256 = m.relleno₂.toNat ∧
        tamanio.toNat / 256 ^ 3 = m.relleno₃.toNat
  | _ => True

theorem tamanioReintentado_eq_iff (m : Basura) (pid : UInt32) (dir : DireccionFisica)
    (tamanio : UInt32) :
    tamanioReintentado m tamanio = tamanio ↔ RellenoCoincide m (.stdoutWrite pid dir tamanio) := by
  have hlt := tamanio.toNat_lt
  have h₁ := m.relleno₁.toNat_lt
  have h₂ := m.relleno₂.toNat_lt
  have h₃ := m.relleno₃.toNat_lt
  rw [← UInt32.toNat_inj, tamanioReintentado_toNat]
  unfold RellenoCoincide
  split <;> omega

/-- The message of a rejected request takes the sizes of its parts. -/
theorem ocupada_escribe {nombre : Cadena} {p : PedidoIo} (h : nombre.tam + p.tam < 2 ^ 32) :
    ∃ bs, bs.length = nombre.tam + p.tam ∧ Escribe (escribirOcupada nombre p) bs := by
  by_cases hp : p.operacion = .stdoutWrite
  · cases p with
    | stdoutWrite pid dir tamanio =>
        obtain ⟨cabecera, hlen, hw, -⟩ :=
          ocupadaWrite_escribe (Nat.lt_of_le_of_lt (Nat.le_add_right _ _) h) pid dir tamanio
        refine ⟨_, ?_, hw⟩
        rw [List.length_append, hlen, Codificacion.littleEndian_length, PedidoIo.tam]
    | _ => cases hp
  · obtain ⟨bs, hlen, hw, -⟩ := ocupada_fiel nombre hp h
    exact ⟨bs, hlen, hw⟩

/-- A request that comes back unchanged was rejected with a message that fits in a buffer. -/
theorem tam_lt_of_reintentar {m : Basura} {nombre : Cadena} {p : PedidoIo}
    (h : reintentar m nombre p = some p) : nombre.tam + p.tam < 2 ^ 31 := by
  obtain ⟨paquete, mje, o, pedido, hp, hmje, hnombre, hde, hq⟩ := reintentar_eq_some.mp h
  have hbuffer := paquete.buffer.acotado
  obtain ⟨n, hn, hle, hgasta⟩ := ocupada_gasta m p.operacion _ _ _ _ hmje
  have hpedido := hgasta pedido hde
  have hleido := hle (Nat.zero_le _)
  rw [hnombre] at hpedido
  rw [List.length_append, List.length_singleton] at hleido
  have hcadena : 5 ≤ nombre.tam := by unfold Cadena.tam; omega
  have heq : pedido = p := by
    have := recibirEjecutar_serializarEjecutar (p := pedido) (by omega)
    exact Option.some.inj (this.symm.trans hq)
  subst heq
  have htam : nombre.tam + pedido.tam < 2 ^ 32 := by omega
  obtain ⟨bs, hlen, hw⟩ := ocupada_escribe htam
  rw [bytes_of_empaquetar hw hp] at hbuffer
  omega

/-- **Which rejected requests are retried unchanged**: those whose messages fit in a buffer, except
the ones of STDOUT_WRITE, where it takes that the memory nobody wrote agrees with the size. -/
theorem reintento_sin_cambios (m : Basura) (nombre : Cadena) (p : PedidoIo) :
    reintentar m nombre p = some p ↔ nombre.tam + p.tam < 2 ^ 31 ∧ RellenoCoincide m p := by
  constructor
  · intro h
    have htam := tam_lt_of_reintentar h
    refine ⟨htam, ?_⟩
    cases p with
    | stdoutWrite pid dir tamanio =>
        rw [reintentar_stdoutWrite m pid dir tamanio htam] at h
        have heq : tamanioReintentado m tamanio = tamanio := by simpa using h
        exact (tamanioReintentado_eq_iff m pid dir tamanio).mp heq
    | _ => trivial
  · rintro ⟨htam, h⟩
    cases p with
    | stdoutWrite pid dir tamanio =>
        rw [reintentar_stdoutWrite m pid dir tamanio htam,
          (tamanioReintentado_eq_iff m pid dir tamanio).mpr h]
    | _ => exact reintentar_of_ne m (by simp [PedidoIo.operacion]) htam

/-- A size of 300 bytes, retried where the memory nobody wrote is zero. -/
def pedidoDe300 : PedidoIo := .stdoutWrite 1 ⟨1, 0, 0⟩ 300

/-- **A rejected STDOUT_WRITE of 300 bytes comes back as one of 44 bytes.** -/
theorem pedidoDe300_reintentado :
    ¬∀ (m : Basura) (nombre : Cadena) (p : PedidoIo), nombre.tam + p.tam < 2 ^ 31 →
      reintentar m nombre p = some p := by
  intro h
  have hsame := h ⟨0, 0, 0, 0⟩ ⟨[80], by decide⟩ pedidoDe300 (by decide)
  have hmem := ((reintento_sin_cambios _ _ _).mp hsame).2.1
  revert hmem
  decide

end Codec
