/-
**The memory module and its clients, over sockets.**

The kernel, the CPU and every interface have a connection with the memory module.  They send it
packets and read its answers; a thread of the module attends each connection, and all the threads
share the memory, without a lock.  A packet is an `op_code`, a size and a buffer, which its receiver
walks field by field.  Nothing marks where a packet begins: whoever leaves a byte behind, or takes
one too many, understands nothing after that.

Main definitions:

* `ServidorMemoria.CodOp` — the operation codes;
* `ServidorMemoria.Pedido`, `ServidorMemoria.Respuesta` — what the packets say;
* `ServidorMemoria.paso` — what the module does with a request;
* `ServidorMemoria.atenderClienteCpu`, `ServidorMemoria.atenderClienteKernel`,
  `ServidorMemoria.atenderClienteIo` — the loops of the module;
* `ServidorMemoria.atenderMemoriaCpu`, `ServidorMemoria.atenderMemoriaKernel`,
  `ServidorMemoria.atenderMemoriaIo` — the loops of its clients;
* `ServidorMemoria.protocolo` — all of them.

Main results:

* `ServidorMemoria.enviarPedido_recibido` — every request is read as it was written;
* `ServidorMemoria.enviarRespuesta_recibida` — and so is every answer;
* `ServidorMemoria.memoria_linealizable` — while its threads serve one at a time, the memory module
  serves whole requests, one after another, however the bytes travel.
-/

import TpSisop.MemoriaEspacios
import TpSisop.MemoriaTeclado
import TpSisop.Tramas

set_option relaxedAutoImplicit false
set_option autoImplicit false

namespace ServidorMemoria

open Codec
open Codificacion (Lector Lee leer)
open Cpu (RegistroAbstracto)
open Teclado (EjecutarIoStdin)
open Trama (Trato turno tramar)
open Entero (aInt)
open Memoria (MismosProgramas)

/-! ### Operation codes (`estructura_de_datos.h`) -/

/-- `op_code`. -/
inductive CodOp
  | mensaje
  | obtInstruccion
  | retInstruccion
  | intProceso
  | finalizarProcesoCpu
  | enviarPcb
  | enviarContextoEjecucion
  | instruccionIoStdinRead
  | instruccionIoStdoutWrite
  | instruccionIoGenSleep
  | instruccionIoFsCreate
  | instruccionIoFsDelete
  | instruccionIoFsTruncate
  | instruccionIoFsRead
  | instruccionIoFsWrite
  | ejecutarIoGenSleep
  | errorIo
  | handshakeIo
  | handshakeMemoria
  | ejecutarMovin
  | ejecutarMovout
  | ejecutarCopystring
  | ejecutarIoStdinRead
  | rtaMovin
  | ejecutarIoStdoutWrite
  | retIoStdinRead
  | retIoStdoutWrite
  | pedirMarco
  | ioOcupadaSleep
  | ioOcupadaRead
  | ioOcupadaWrite
  | finIo
  | paquete
  | crearProceso
  | finalizarProcesoMemoria
  | finTermPro
  | finCreaPro
  | ejecutarResize
  | ejecutarResizeOutOfMemoryError
  | ioOcupadaFsCreate
  | ioOcupadaFsDelete
  | ioOcupadaFsTruncate
  | ioOcupadaFsWrite
  | ioOcupadaFsRead
  | ejecutarIoFsCreate
  | ejecutarIoFsDelete
  | ejecutarIoFsTruncate
  | ejecutarIoFsWrite
  | ejecutarIoFsRead
  deriving DecidableEq, Repr

namespace CodOp

/-- The codes in the order in which they are declared, which is that of their numbers. -/
def todos : List CodOp :=
  [mensaje, obtInstruccion, retInstruccion, intProceso, finalizarProcesoCpu, enviarPcb,
    enviarContextoEjecucion, instruccionIoStdinRead, instruccionIoStdoutWrite,
    instruccionIoGenSleep, instruccionIoFsCreate, instruccionIoFsDelete, instruccionIoFsTruncate,
    instruccionIoFsRead, instruccionIoFsWrite, ejecutarIoGenSleep, errorIo, handshakeIo,
    handshakeMemoria, ejecutarMovin, ejecutarMovout, ejecutarCopystring, ejecutarIoStdinRead,
    rtaMovin, ejecutarIoStdoutWrite, retIoStdinRead, retIoStdoutWrite, pedirMarco, ioOcupadaSleep,
    ioOcupadaRead, ioOcupadaWrite, finIo, paquete, crearProceso, finalizarProcesoMemoria,
    finTermPro, finCreaPro, ejecutarResize, ejecutarResizeOutOfMemoryError, ioOcupadaFsCreate,
    ioOcupadaFsDelete, ioOcupadaFsTruncate, ioOcupadaFsWrite, ioOcupadaFsRead, ejecutarIoFsCreate,
    ejecutarIoFsDelete, ejecutarIoFsTruncate, ejecutarIoFsWrite, ejecutarIoFsRead]

def numero (c : CodOp) : ℕ := todos.idxOf c

def deNumero (n : ℕ) : Option CodOp := todos[n]?

theorem mem_todos (c : CodOp) : c ∈ todos := by
  cases c <;> decide

@[simp] theorem deNumero_numero (c : CodOp) : deNumero c.numero = some c :=
  List.getElem?_idxOf (mem_todos c)

theorem numero_lt (c : CodOp) : c.numero < 49 := List.idxOf_lt_length_of_mem (mem_todos c)

end CodOp

/-- `enviar_paquete` of a packet that `w` fills; its size with the code and the size of the buffer
is an `int`. -/
def enviar (codigo : CodOp) (w : Codec.Escritor) : Option (List UInt8) := do
  let (_, buffer) ← w crearBuffer
  guard (buffer.bytes.length + 8 < 2 ^ 31)
  return tramar codigo.numero buffer.bytes

/-! ### Requests -/

/-- What the clients of the module ask.  The first one is any client's; those up to
`ejecutarResize` are the CPU's, the next two the kernel's, and the others those of the
interfaces. -/
inductive Pedido
  | mensaje (texto : Cadena)
  | obtInstruccion (pid pc : UInt32)
  | handshakeMemoria
  | pedirMarco (pid pagina : UInt32)
  | ejecutarMovin (dirFisica : DireccionFisica) (datos : TRegistro)
  | ejecutarMovout (dirFisica : DireccionFisica) (datos : TRegistro)
  | ejecutarCopystring (tamanio pid di si : UInt32)
  | ejecutarResize (pid tamanio : UInt32)
  | crearProceso (rutaArchivo : Cadena) (pid : UInt32)
  | finalizarProceso (pid : UInt32)
  | ejecutarIoStdinRead (stdin : EjecutarIoStdin)
  | ejecutarIoStdoutWrite (pid : UInt32) (dirFisica : DireccionFisica) (tamanio : UInt32)
  | ejecutarIoFsRead (pid : UInt32) (dir : DireccionFisica) (leido : List UInt8)
  | ejecutarIoFsWrite (pid : UInt32) (nombreArchivo : Cadena) (tamanio posicionArchivo : UInt32)
      (dirFisica : DireccionFisica)

section Serializar

variable (pid : UInt32) (dir : DireccionFisica)

/-- `enviar_mensaje`. -/
def enviarMensaje (mensaje : Cadena) : Option (List UInt8) :=
  enviar .mensaje (Codificacion.agregar mensaje.conNulo)

/-- `obtener_paquete_instrucciones`. -/
def obtenerPaqueteInstrucciones (pc : UInt32) : Option (List UInt8) :=
  enviar .obtInstruccion do
    agregarUint32 pid
    agregarUint32 pc

/-- `serializar_handshake_memoria`. -/
def serializarHandshakeMemoria : Option (List UInt8) := enviar .handshakeMemoria (agregarUint32 1)

/-- `serializar_pedir_marco`. -/
def serializarPedirMarco (pagina : UInt32) : Option (List UInt8) :=
  enviar .pedirMarco do
    agregarUint32 pid
    agregarUint32 pagina

/-- An address and a register. -/
def escribirMov (datos : TRegistro) : Codec.Escritor := do
  agregarDirFisicaAPaquete dir
  serializarTRegistro datos

/-- `serializar_ejecutar_mov_in`. -/
def serializarEjecutarMovIn (datos : TRegistro) : Option (List UInt8) :=
  enviar .ejecutarMovin (escribirMov dir datos)

/-- `serializar_ejecutar_mov_out`. -/
def serializarEjecutarMovOut (datos : TRegistro) : Option (List UInt8) :=
  enviar .ejecutarMovout (escribirMov dir datos)

/-- `serializar_ejecutar_copy_string`. -/
def serializarEjecutarCopyString (tamanio di si : UInt32) : Option (List UInt8) :=
  enviar .ejecutarCopystring do
    agregarUint32 tamanio
    agregarUint32 pid
    agregarUint32 di
    agregarUint32 si

/-- `serializar_ejecutar_resize`. -/
def serializarEjecutarResize (tamanio : UInt32) : Option (List UInt8) :=
  enviar .ejecutarResize do
    agregarUint32 pid
    agregarUint32 tamanio

/-- `serializar_nuevo_proceso_memoria`. -/
def serializarNuevoProcesoMemoria (rutaArchivo : Cadena) : Option (List UInt8) :=
  enviar .crearProceso do
    agregarCadena rutaArchivo
    agregarUint32 pid

/-- `serializar_eliminar_proceso_memoria`. -/
def serializarEliminarProcesoMemoria : Option (List UInt8) :=
  enviar .finalizarProcesoMemoria (agregarUint32 pid)

/-- `serializar_io_stdin`. -/
def serializarIoStdin (stdin : EjecutarIoStdin) : Option (List UInt8) :=
  enviar .ejecutarIoStdinRead
    (Teclado.escribirIoStdin stdin.pid stdin.dirFisica stdin.tamanio stdin.aEscribir)

/-- `serializar_io_stdout`. -/
def serializarIoStdout (tamanio : UInt32) : Option (List UInt8) :=
  enviar .ejecutarIoStdoutWrite (serializarEjecutarIoStdoutWrite pid dir tamanio)

/-- `serializar_io_fs_read`, of as many bytes as it says. -/
def serializarIoFsRead (leido : List UInt8) : Option (List UInt8) :=
  enviar .ejecutarIoFsRead do
    agregarUint32 pid
    agregarDirFisicaAPaquete dir
    let tamanio := UInt32.ofNat leido.length
    agregarUint32 tamanio
    agregarVarAPaquete leido leido.length

/-- `serializar_ejecutar_io_fs_write`, as an interface sends it to the module. -/
def serializarIoFsWrite (nombreArchivo : Cadena) (tamanio posicionArchivo : UInt32) :
    Option (List UInt8) :=
  enviar .ejecutarIoFsWrite
    (serializarEjecutarIoFsWrite pid nombreArchivo tamanio posicionArchivo dir)

end Serializar

/-- The call with which each request is made. -/
def enviarPedido : Pedido → Option (List UInt8)
  | .mensaje texto => enviarMensaje texto
  | .obtInstruccion pid pc => obtenerPaqueteInstrucciones pid pc
  | .handshakeMemoria => serializarHandshakeMemoria
  | .pedirMarco pid pagina => serializarPedirMarco pid pagina
  | .ejecutarMovin dir datos => serializarEjecutarMovIn dir datos
  | .ejecutarMovout dir datos => serializarEjecutarMovOut dir datos
  | .ejecutarCopystring tamanio pid di si => serializarEjecutarCopyString pid tamanio di si
  | .ejecutarResize pid tamanio => serializarEjecutarResize pid tamanio
  | .crearProceso ruta pid => serializarNuevoProcesoMemoria pid ruta
  | .finalizarProceso pid => serializarEliminarProcesoMemoria pid
  | .ejecutarIoStdinRead stdin => serializarIoStdin stdin
  | .ejecutarIoStdoutWrite pid dir tamanio => serializarIoStdout pid dir tamanio
  | .ejecutarIoFsRead pid dir leido => serializarIoFsRead pid dir leido
  | .ejecutarIoFsWrite pid nombre tamanio posicion dir =>
      serializarIoFsWrite pid dir nombre tamanio posicion

/-! ### Their readers -/

/-- `recibir_mensaje`, which takes the whole buffer for a string. -/
def recibirMensaje : Lector Pedido := fun s _ =>
  (aCadena s).map fun texto => (.mensaje texto, s.length)

/-- `deserializar_obtener_instruccion`. -/
def deserializarObtenerInstruccion : Lector Pedido := do
  let pid ← deserializarUint32
  let pc ← deserializarUint32
  return .obtInstruccion pid pc

/-- The buffer of HANDSHAKE_MEMORIA is received and not read. -/
def recibirHandshake : Lector Pedido := pure .handshakeMemoria

/-- `deserializar_pedir_marco`. -/
def deserializarPedirMarco : Lector Pedido := do
  let pid ← deserializarUint32
  let pagina ← deserializarUint32
  return .pedirMarco pid pagina

/-- An address and a register. -/
def deserializarMov (pedido : DireccionFisica → TRegistro → Pedido) : Lector Pedido := do
  let dirFisica ← deserializarDireccionFisica
  let datos ← deserializarTRegistro
  return pedido dirFisica datos

/-- `deserializar_ejecutar_mov_in`. -/
def deserializarEjecutarMovIn : Lector Pedido := deserializarMov .ejecutarMovin

/-- `deserializar_ejecutar_mov_out`. -/
def deserializarEjecutarMovOut : Lector Pedido := deserializarMov .ejecutarMovout

/-- `deserializar_ejecutar_copy_string`. -/
def deserializarEjecutarCopyString : Lector Pedido := do
  let tamanio ← deserializarUint32
  let pid ← deserializarUint32
  let di ← deserializarUint32
  let si ← deserializarUint32
  return .ejecutarCopystring tamanio pid di si

/-- `deserializar_ejecutar_resize`. -/
def deserializarEjecutarResize : Lector Pedido := do
  let pid ← deserializarUint32
  let tamanio ← deserializarUint32
  return .ejecutarResize pid tamanio

/-- `deserializar_nuevo_proceso_memoria`. -/
def deserializarNuevoProcesoMemoria : Lector Pedido := do
  let rutaArchivo ← deserializarCadena
  let pid ← deserializarUint32
  return .crearProceso rutaArchivo pid

/-- `deserealizar_recibir_int_proceso`, in `recibir_finalizar_proceso`. -/
def deserealizarRecibirIntProceso : Lector Pedido := do
  let pid ← deserializarUint32
  return .finalizarProceso pid

/-- `deserializar_io_stdin`. -/
def deserializarIoStdin : Lector Pedido := do
  let stdin ← Teclado.deserializarIoStdin
  return .ejecutarIoStdinRead stdin

/-- `deserializar_io_stdout`. -/
def deserializarIoStdout : Lector Pedido := do
  let pid ← deserializarUint32
  let dirFisica ← deserializarDireccionFisica
  let tamanio ← deserializarUint32
  return .ejecutarIoStdoutWrite pid dirFisica tamanio

/-- `deserializar_io_fs_read`. -/
def deserializarIoFsRead : Lector Pedido := do
  let pid ← deserializarUint32
  let dir ← deserializarDireccionFisica
  let tamanio ← deserializarUint32
  let leido ← deserializarChar tamanio
  return .ejecutarIoFsRead pid dir leido

/-- `deserializar_ejecutar_io_fs_write`. -/
def deserializarIoFsWrite : Lector Pedido := do
  let pid ← deserializarUint32
  let nombreArchivo ← deserializarCadena
  let tamanio ← deserializarUint32
  let posicionArchivo ← deserializarUint32
  let dirFisica ← deserializarDireccionFisica
  return .ejecutarIoFsWrite pid nombreArchivo tamanio posicionArchivo dirFisica

/-! ### Answers -/

/-- What the module answers.  `hecho` is a code and a pid, of which there are eight. -/
inductive Respuesta
  | retInstruccion (idInst : UInt32) (instruccion : Cadena)
  | handshakeMemoria (tamPagina : UInt32)
  | pedirMarco (pid pagina marco : UInt32)
  | rtaMovin (datos : TRegistro)
  | hecho (codigo : CodOp) (pid : UInt32)
  | retIoStdoutWrite (pid tamanio : UInt32) (leido : Option Cadena)
  | ejecutarIoFsWrite (pid : UInt32) (nombreArchivo : Cadena) (tamanio posicionArchivo : UInt32)
      (dirFisica : DireccionFisica) (leido : List UInt8)
  deriving DecidableEq

/-- `obtener_paquete_ret_instrucciones`. -/
def obtenerPaqueteRetInstrucciones (idInst : UInt32) (instruccion : Cadena) :
    Option (List UInt8) :=
  enviar .retInstruccion do
    agregarUint32 idInst
    agregarCadena instruccion

/-- `serializar_respuesta_handshake_memoria`. -/
def serializarRespuestaHandshakeMemoria (tamPagina : UInt32) : Option (List UInt8) :=
  enviar .handshakeMemoria (agregarUint32 tamPagina)

/-- `serializar_respnder_marco`. -/
def serializarRespnderMarco (pid pagina marco : UInt32) : Option (List UInt8) :=
  enviar .pedirMarco do
    agregarUint32 pid
    agregarUint32 pagina
    agregarUint32 marco

/-- `serializar_rta_movin`. -/
def serializarRtaMovin (datos : TRegistro) : Option (List UInt8) :=
  enviar .rtaMovin (serializarTRegistro datos)

/-- A packet with a pid: those of the CPU, which `atender_cliente_cpu` fills itself,
`serializar_fin_creacion`, `serializar_fin_terminacion`, `serializar_ret_io_stdin` and
`serializar_ret_io_fs_read`. -/
def serializarHecho (codigo : CodOp) (pid : UInt32) : Option (List UInt8) :=
  enviar codigo (agregarUint32 pid)

/-- `serializar_ret_io_stdout`: an empty string is not sent. -/
def serializarRetIoStdout (pid tamanio : UInt32) (leido : Option Cadena) : Option (List UInt8) :=
  enviar .retIoStdoutWrite do
    agregarUint32 pid
    agregarUint32 tamanio
    match leido with
    | none => agregarUint32 0
    | some c => do
        agregarUint32 (UInt32.ofNat c.strlen)
        agregarVarAPaquete c.conNulo (c.strlen + 1)

/-- `serializar_ejecutar_io_fs_write` and `serializar_ret_io_fs_write`. -/
def serializarRetIoFsWrite (pid : UInt32) (nombreArchivo : Cadena)
    (tamanio posicionArchivo : UInt32) (dir : DireccionFisica) (leido : List UInt8) :
    Option (List UInt8) :=
  enviar .ejecutarIoFsWrite do
    serializarEjecutarIoFsWrite pid nombreArchivo tamanio posicionArchivo dir
    agregarVarAPaquete leido tamanio.toNat

/-- The call with which each answer is sent. -/
def enviarRespuesta : Respuesta → Option (List UInt8)
  | .retInstruccion idInst instruccion => obtenerPaqueteRetInstrucciones idInst instruccion
  | .handshakeMemoria tamPagina => serializarRespuestaHandshakeMemoria tamPagina
  | .pedirMarco pid pagina marco => serializarRespnderMarco pid pagina marco
  | .rtaMovin datos => serializarRtaMovin datos
  | .hecho codigo pid => serializarHecho codigo pid
  | .retIoStdoutWrite pid tamanio leido => serializarRetIoStdout pid tamanio leido
  | .ejecutarIoFsWrite pid nombre tamanio posicion dir leido =>
      serializarRetIoFsWrite pid nombre tamanio posicion dir leido

/-- `deserializar_obtener_ret_instruccion`. -/
def deserializarObtenerRetInstruccion : Lector Respuesta := do
  let idInst ← deserializarUint32
  let instruccion ← deserializarCadena
  return .retInstruccion idInst instruccion

/-- `deserializar_rta_handhsake_memoria`. -/
def deserializarRtaHandhsakeMemoria : Lector Respuesta := do
  let tamPagina ← deserializarUint32
  return .handshakeMemoria tamPagina

/-- `deserializar_responder_marco`. -/
def deserializarResponderMarco : Lector Respuesta := do
  let pid ← deserializarUint32
  let pagina ← deserializarUint32
  let marco ← deserializarUint32
  return .pedirMarco pid pagina marco

/-- `deserializar_rta_movin`. -/
def deserializarRtaMovin : Lector Respuesta := do
  let datos ← deserializarTRegistro
  return .rtaMovin datos

/-- A packet with a pid: `deserealizar_recibir_int_proceso`, `deserializar_ret_io_stdin_read`, and
the cases of the CPU that take it off the buffer themselves.  In
EJECUTAR_RESIZE_OUT_OF_MEMORY_ERROR the CPU receives it and does not look at it. -/
def deserializarHecho (codigo : CodOp) : Lector Respuesta := do
  let pid ← deserializarUint32
  return .hecho codigo pid

/-- `deserializar_ret_io_stdout_write`. -/
def deserializarRetIoStdoutWrite : Lector Respuesta := do
  let pid ← deserializarUint32
  let tamanio ← deserializarUint32
  let size ← deserializarUint32
  if 0 < aInt size.toNat then do
    let bs ← leer (size.toNat + 1)
    let c ← Codificacion.exigido (aCadena bs)
    return .retIoStdoutWrite pid tamanio (some c)
  else return .retIoStdoutWrite pid tamanio none

/-- `deserializar_ret_io_fs_write`. -/
def deserializarRetIoFsWrite : Lector Respuesta := do
  let pid ← deserializarUint32
  let nombreArchivo ← deserializarCadena
  let tamanio ← deserializarUint32
  let posicionArchivo ← deserializarUint32
  let dirFisica ← deserializarDireccionFisica
  let leido ← deserializarChar tamanio
  return .ejecutarIoFsWrite pid nombreArchivo tamanio posicionArchivo dirFisica leido

/-! ### What the module does (`atender_cpu.c`, `atender_kernel.c`, `atender_io.c`) -/

/-- The register without its tag. -/
def aRegistro : TRegistro → RegistroAbstracto
  | .registro8 data => .registro8 data
  | .registro32 _ _ data => .registro32 data

/-- The register with other data, of its own width. -/
def conDatos : TRegistro → RegistroAbstracto → TRegistro
  | .registro8 _, .registro8 data => .registro8 data
  | .registro32 tipo ancho _, .registro32 data => .registro32 tipo ancho data
  | datos, _ => datos

def aDireccion (dir : DireccionFisica) : Cpu.DireccionFisica :=
  ⟨dir.pid.toNat, dir.marco.toNat, dir.desplazamientoFisico.toNat⟩

/-- The string that a pointer to these bytes stands for, when a NUL follows them. -/
def cadenaDe (bs : List UInt8) : Cadena := ⟨bs.takeWhile (· ≠ 0), nulo_notMem_takeWhile bs⟩

/-- `id_instruccion`, an enumeration. -/
def codigoInstruccion : Memoria.IdInstruccion → UInt32
  | .set => 0
  | .movIn => 1
  | .movOut => 2
  | .sum => 3
  | .sub => 4
  | .jnz => 5
  | .resize => 6
  | .copyString => 7
  | .wait => 8
  | .signal => 9
  | .ioGenSleep => 10
  | .ioStdinRead => 11
  | .ioStdoutWrite => 12
  | .ioFsCreate => 13
  | .ioFsDelete => 14
  | .ioFsTruncate => 15
  | .ioFsWrite => 16
  | .ioFsRead => 17
  | .exit => 18

/-- The answer to the CPU, as it is serialized; `datos` is the register of a MOV_IN, which goes back
with its tag. -/
def deRespuesta (datos : TRegistro) : Memoria.Respuesta → Respuesta
  | .retInstruccion id instruccion =>
      .retInstruccion (codigoInstruccion id) (cadenaDe instruccion.toUTF8.toList)
  | .handshakeMemoria tamPagina => .handshakeMemoria (.ofNat tamPagina)
  | .pedirMarco pid pagina marco => .pedirMarco (.ofNat pid) (.ofNat pagina) (.ofNat marco)
  | .rtaMovin reg => .rtaMovin (conDatos datos reg)
  | .ejecutarMovout pid => .hecho .ejecutarMovout (.ofNat pid)
  | .ejecutarCopystring pid => .hecho .ejecutarCopystring (.ofNat pid)
  | .ejecutarResize pid => .hecho .ejecutarResize (.ofNat pid)
  | .ejecutarResizeOutOfMemoryError pid => .hecho .ejecutarResizeOutOfMemoryError (.ofNat pid)

/-- For the requests of the CPU that ask for no register. -/
def sinDatos : TRegistro := .registro8 0

/-- A request of the CPU. -/
def atenderCpu (m : Memoria.Estado) (datos : TRegistro) (p : Memoria.Peticion) :
    Option (List Respuesta × Memoria.Estado) :=
  (Memoria.atenderClienteCpu m p).toOption.map fun r => (r.1.map (deRespuesta datos), r.2)

/-- The physical address of a request of an interface. -/
def convertir (m : Memoria.Estado) (dir : DireccionFisica) : ℕ :=
  (Teclado.convertirDireccion m dir.marco dir.desplazamientoFisico).toNat

/-- A buffer of zeros, with the bytes that are read from memory at its beginning. -/
def leerDeMemoria (m : Memoria.Estado) (pid : UInt32) (dir : DireccionFisica) (tamanio : UInt32) :
    Option (List UInt8) :=
  let n := (aInt tamanio.toNat).toNat
  (Memoria.obtenerDatosDeMemoria m (convertir m dir) n pid.toNat).toOption.map fun leidos =>
    leidos ++ List.replicate (tamanio.toNat - leidos.length) 0

/-- What is answered of a string that is read. -/
def noVacia (c : Cadena) : Option Cadena := if c.strlen = 0 then none else some c

/-- A request, whoever makes it: the answers and the memory that is left.  `programas` is what
reading each file gives. -/
def paso (programas : Cadena → Option (List String)) (m : Memoria.Estado) :
    Pedido → Option (List Respuesta × Memoria.Estado)
  | .mensaje _ => some ([], m)
  | .obtInstruccion pid pc => atenderCpu m sinDatos (.obtInstruccion pid.toNat pc)
  | .handshakeMemoria => atenderCpu m sinDatos .handshakeMemoria
  | .pedirMarco pid pagina => atenderCpu m sinDatos (.pedirMarco pid.toNat pagina.toNat)
  | .ejecutarMovin dir datos =>
      atenderCpu m datos (.ejecutarMovin (aRegistro datos) (aDireccion dir))
  | .ejecutarMovout dir datos =>
      atenderCpu m sinDatos (.ejecutarMovout (aRegistro datos) (aDireccion dir))
  | .ejecutarCopystring tamanio pid di si =>
      atenderCpu m sinDatos (.ejecutarCopystring di.toNat si.toNat tamanio pid.toNat)
  | .ejecutarResize pid tamanio => atenderCpu m sinDatos (.ejecutarResize pid.toNat tamanio)
  | .crearProceso ruta pid =>
      some ([.hecho .finCreaPro pid], Memoria.crearProceso m (programas ruta) pid.toNat)
  | .finalizarProceso pid =>
      (Memoria.eliminarProceso m pid.toNat).toOption.map fun m' => ([.hecho .finTermPro pid], m')
  | .ejecutarIoStdinRead stdin =>
      (Teclado.atenderIoStdinRead m stdin).toOption.map fun m' =>
        ([.hecho .retIoStdinRead stdin.pid], m')
  | .ejecutarIoStdoutWrite pid dir tamanio =>
      (leerDeMemoria m pid dir tamanio).map fun leido =>
        ([.retIoStdoutWrite pid tamanio (noVacia (cadenaDe leido))], m)
  | .ejecutarIoFsRead pid dir leido =>
      (Memoria.agregarDatosAMemoria m leido (convertir m dir) pid.toNat).toOption.map fun m' =>
        ([.hecho .ejecutarIoFsRead pid], m')
  | .ejecutarIoFsWrite pid nombre tamanio posicion dir =>
      (leerDeMemoria m pid dir tamanio).map fun leido =>
        ([.ejecutarIoFsWrite pid nombre tamanio posicion dir leido], m)

/-! ### The loops -/

/-- `kernel`, `cpu`, and the interfaces. -/
inductive Cliente
  | kernel
  | cpu
  | io (interfaz : ℕ)
  deriving DecidableEq, Repr

def enviarTodas : List Respuesta → Option (List UInt8)
  | [] => some []
  | r :: rs => do
      let bs ← enviarRespuesta r
      let cs ← enviarTodas rs
      return bs ++ cs

section Servidor

variable (programas : Cadena → Option (List String))

/-- A case of the `switch`: a buffer is received, read, served and answered. -/
def caso (l : Lector Pedido) : Trato Memoria.Estado := .atiende fun m buffer => do
  let (p, _) ← l buffer 0
  let (rs, m') ← paso programas m p
  let enviado ← enviarTodas rs
  return (enviado, m')

/-- The code of `recibir_operacion` when the socket is closed. -/
def cerrado : ℕ := 2 ^ 32 - 1

/-- `atender_cliente_cpu`.  The buffer of a code that is not known is left where it is. -/
def atenderClienteCpu (codigo : ℕ) : Trato Memoria.Estado :=
  if codigo = cerrado then .termina
  else
    match CodOp.deNumero codigo with
    | some .mensaje => caso programas recibirMensaje
    | some .obtInstruccion => caso programas deserializarObtenerInstruccion
    | some .handshakeMemoria => caso programas recibirHandshake
    | some .pedirMarco => caso programas deserializarPedirMarco
    | some .ejecutarMovin => caso programas deserializarEjecutarMovIn
    | some .ejecutarMovout => caso programas deserializarEjecutarMovOut
    | some .ejecutarCopystring => caso programas deserializarEjecutarCopyString
    | some .ejecutarResize => caso programas deserializarEjecutarResize
    | _ => .ignora

/-- `atender_cliente_kernel`. -/
def atenderClienteKernel (codigo : ℕ) : Trato Memoria.Estado :=
  match CodOp.deNumero codigo with
  | some .mensaje => caso programas recibirMensaje
  | some .crearProceso => caso programas deserializarNuevoProcesoMemoria
  | some .finalizarProcesoMemoria => caso programas deserealizarRecibirIntProceso
  | _ => .termina

/-- `atender_cliente_io`. -/
def atenderClienteIo (codigo : ℕ) : Trato Memoria.Estado :=
  match CodOp.deNumero codigo with
  | some .mensaje => caso programas recibirMensaje
  | some .ejecutarIoStdinRead => caso programas deserializarIoStdin
  | some .ejecutarIoStdoutWrite => caso programas deserializarIoStdout
  | some .ejecutarIoFsRead => caso programas deserializarIoFsRead
  | some .ejecutarIoFsWrite => caso programas deserializarIoFsWrite
  | _ => .termina

/-- The loop that attends each client. -/
def servidor : Cliente → ℕ → Trato Memoria.Estado
  | .kernel => atenderClienteKernel programas
  | .cpu => atenderClienteCpu programas
  | .io _ => atenderClienteIo programas

end Servidor

/-- A case of a client: a buffer is received and read. -/
def lectura (l : Lector Respuesta) : Trato (List Respuesta) := .atiende fun rs buffer => do
  let (r, _) ← l buffer 0
  return ([], rs ++ [r])

/-- The case of a message, of which the client keeps nothing. -/
def lecturaMensaje : Trato (List Respuesta) := .atiende fun rs _ => some ([], rs)

/-- `atender_memoria` of the CPU. -/
def atenderMemoriaCpu (codigo : ℕ) : Trato (List Respuesta) :=
  if codigo = cerrado then .termina
  else
    match CodOp.deNumero codigo with
    | some .mensaje => lecturaMensaje
    | some .handshakeMemoria => lectura deserializarRtaHandhsakeMemoria
    | some .retInstruccion => lectura deserializarObtenerRetInstruccion
    | some .pedirMarco => lectura deserializarResponderMarco
    | some .rtaMovin => lectura deserializarRtaMovin
    | some .ejecutarMovout => lectura (deserializarHecho .ejecutarMovout)
    | some .ejecutarCopystring => lectura (deserializarHecho .ejecutarCopystring)
    | some .ejecutarResize => lectura (deserializarHecho .ejecutarResize)
    | some .ejecutarResizeOutOfMemoryError =>
        lectura (deserializarHecho .ejecutarResizeOutOfMemoryError)
    | _ => .ignora

/-- `atender_memoria` of the kernel. -/
def atenderMemoriaKernel (codigo : ℕ) : Trato (List Respuesta) :=
  if codigo = cerrado then .termina
  else
    match CodOp.deNumero codigo with
    | some .finCreaPro => lectura (deserializarHecho .finCreaPro)
    | some .finTermPro => lectura (deserializarHecho .finTermPro)
    | _ => .ignora

/-- `atender_memoria` of an interface. -/
def atenderMemoriaIo (codigo : ℕ) : Trato (List Respuesta) :=
  match CodOp.deNumero codigo with
  | some .mensaje => lecturaMensaje
  | some .retIoStdoutWrite => lectura deserializarRetIoStdoutWrite
  | some .retIoStdinRead => lectura (deserializarHecho .retIoStdinRead)
  | some .ejecutarIoFsRead => lectura (deserializarHecho .ejecutarIoFsRead)
  | some .ejecutarIoFsWrite => lectura deserializarRetIoFsWrite
  | _ => .termina

/-- The loop of each client. -/
def cliente : Cliente → ℕ → Trato (List Respuesta)
  | .kernel => atenderMemoriaKernel
  | .cpu => atenderMemoriaCpu
  | .io _ => atenderMemoriaIo

/-! ### What fits and who says it -/

/-- The packet fits in an `int`, with its code and its size. -/
def Cabe (n : ℕ) : Prop := n + 8 < 2 ^ 31

instance (n : ℕ) : Decidable (Cabe n) := inferInstanceAs (Decidable (_ < _))

/-- The requests of each client, where they and their answers fit in a packet. -/
def Apta : Cliente → Pedido → Prop
  | _, .mensaje texto => Cabe (texto.strlen + 1)
  | .cpu, .obtInstruccion _ _ => True
  | .cpu, .handshakeMemoria => True
  | .cpu, .pedirMarco _ _ => True
  | .cpu, .ejecutarMovin _ _ => True
  | .cpu, .ejecutarMovout _ _ => True
  | .cpu, .ejecutarCopystring _ _ _ _ => True
  | .cpu, .ejecutarResize _ _ => True
  | .kernel, .crearProceso ruta _ => Cabe (ruta.tam + 4)
  | .kernel, .finalizarProceso _ => True
  | .io _, .ejecutarIoStdinRead stdin => Cabe (16 + stdin.tamanio.tam + stdin.aEscribir.tam)
  | .io _, .ejecutarIoStdoutWrite _ _ tamanio => Cabe (13 + tamanio.toNat)
  | .io _, .ejecutarIoFsRead _ _ leido => Cabe (20 + leido.length)
  | .io _, .ejecutarIoFsWrite _ nombre tamanio _ _ => Cabe (24 + nombre.tam + tamanio.toNat)
  | _, _ => False

/-- The answers that each client gets, where they fit. -/
def Legible : Cliente → Respuesta → Prop
  | .cpu, .retInstruccion _ instruccion => Cabe (4 + instruccion.tam)
  | .cpu, .handshakeMemoria _ => True
  | .cpu, .pedirMarco _ _ _ => True
  | .cpu, .rtaMovin _ => True
  | .cpu, .hecho codigo _ => codigo = .ejecutarMovout ∨ codigo = .ejecutarCopystring ∨
      codigo = .ejecutarResize ∨ codigo = .ejecutarResizeOutOfMemoryError
  | .kernel, .hecho codigo _ => codigo = .finCreaPro ∨ codigo = .finTermPro
  | .io _, .hecho codigo _ => codigo = .retIoStdinRead ∨ codigo = .ejecutarIoFsRead
  | .io _, .retIoStdoutWrite _ _ leido =>
      ∀ c, leido = some c → c.strlen ≠ 0 ∧ Cabe (13 + c.strlen)
  | .io _, .ejecutarIoFsWrite _ nombre tamanio _ _ leido =>
      leido.length = tamanio.toNat ∧ Cabe (24 + nombre.tam + tamanio.toNat)
  | _, _ => False

/-- The lines of the programs fit in a packet. -/
def LineasCortas (instrucciones : Option (List String)) : Prop :=
  ∀ ls, instrucciones = some ls → ∀ l ∈ ls, Cabe (4 + (cadenaDe l.toUTF8.toList).tam)

def ProgramasCortos (m : Memoria.Estado) : Prop := ∀ pid, LineasCortas (m.dictInstrucciones pid)

/-! ### Every packet is read as it was written -/

section Paquetes

variable {α : Type} {w : Codec.Escritor} {l : Lector α} {a : α}

/-- A packet is sent under a code, and `l` reads `a` from its buffer. -/
def SeLee (enviado : Option (List UInt8)) (codigo : CodOp) (l : Lector α) (a : α) : Prop :=
  ∃ buffer k, enviado = some (tramar codigo.numero buffer) ∧ buffer.length < 2 ^ 32 ∧
    l buffer 0 = some (a, k)

theorem enviar_escribe {bs : List UInt8} (hw : Codificacion.Escribe w bs) (h : Cabe bs.length)
    (codigo : CodOp) : enviar codigo w = some (tramar codigo.numero bs) := by
  have hroom : crearBuffer.bytes.length + bs.length < 2 ^ 31 := by
    rw [crearBuffer, List.length_nil]
    unfold Cabe at h
    omega
  have hcabe : (crearBuffer.bytes ++ bs).length + 8 < 2 ^ 31 := h
  rw [enviar, hw, Codificacion.agregar_de_caber hroom, Option.bind_eq_bind, Option.bind_some]
  unfold guard
  dsimp only
  rw [if_pos hcabe]
  rfl

theorem seLee_de_escribe {bs : List UInt8} (hw : Codificacion.Escribe w bs) (h : Cabe bs.length)
    (codigo : CodOp) {k : ℕ} (hl : l bs 0 = some (a, k)) : SeLee (enviar codigo w) codigo l a := by
  refine ⟨bs, k, enviar_escribe hw h codigo, ?_, hl⟩
  unfold Cabe at h
  omega

theorem seLee_de_fiel {n : ℕ} (h : Codec.Fiel w l a n) (hn : Cabe n) (codigo : CodOp) :
    SeLee (enviar codigo w) codigo l a := by
  have hlt : n < 2 ^ 32 := by
    unfold Cabe at hn
    omega
  obtain ⟨bs, rfl, hw, hl⟩ := h hlt
  have hleido := hl [] []
  rw [List.nil_append, List.append_nil] at hleido
  exact seLee_de_escribe hw hn codigo hleido

/-- Bytes that are counted before. -/
theorem bytes_fiel (bs : List UInt8) (h : bs.length < 2 ^ 32) :
    Codec.Fiel (agregarVarAPaquete bs bs.length) (leer bs.length) bs bs.length :=
  fun _ => ⟨bs, rfl, agregarVarAPaquete_escribe bs h, Lee.leer bs⟩

theorem char_fiel {bs : List UInt8} {tamanio : UInt32} (h : bs.length = tamanio.toNat) :
    Codec.Fiel (agregarVarAPaquete bs tamanio.toNat) (deserializarChar tamanio) bs
      tamanio.toNat := by
  rw [deserializarChar, ← h]
  exact bytes_fiel bs (h ▸ tamanio.toNat_lt)

end Paquetes

/-- An address and a register. -/
theorem mov_fiel (pedido : DireccionFisica → TRegistro → Pedido) (dir : DireccionFisica)
    (datos : TRegistro) :
    Codec.Fiel (escribirMov dir datos) (deserializarMov pedido) (pedido dir datos)
      (12 + datos.tam) := by
  refine (direccionFisica_fiel dir).seguido ?_
  exact (tRegistro_fiel datos).devuelto (Lee.nada _)

theorem cabe_mov (datos : TRegistro) : Cabe (12 + datos.tam) := by
  have htam := Teclado.tRegistro_tam_le datos
  unfold Cabe
  omega

section Pedidos

variable (programas : Cadena → Option (List String))

/-- The server reads every request as it was made. -/
theorem enviarPedido_recibido {i : Cliente} {p : Pedido} (h : Apta i p) :
    ∃ codigo l, servidor programas i codigo.numero = caso programas l ∧
      SeLee (enviarPedido p) codigo l p := by
  cases p with
  | mensaje texto =>
      have hcabe : Cabe texto.conNulo.length := by
        rw [Cadena.conNulo_length]
        cases i <;> exact h
      refine ⟨.mensaje, recibirMensaje, ?_, ?_⟩
      · cases i <;> rfl
      · refine seLee_de_escribe (.agregar _) hcabe .mensaje (k := texto.conNulo.length) ?_
        rw [recibirMensaje, aCadena_conNulo]
        rfl
  | obtInstruccion pid pc =>
      cases i with
      | cpu =>
          refine ⟨.obtInstruccion, deserializarObtenerInstruccion, rfl, ?_⟩
          refine seLee_de_fiel (n := 4 + 4) ?_ (by decide) .obtInstruccion
          refine (uint32_fiel pid).seguido ?_
          exact (uint32_fiel pc).devuelto (Lee.nada _)
      | _ => exact False.elim h
  | handshakeMemoria =>
      cases i with
      | cpu =>
          obtain ⟨bs, hlen, hw, -⟩ := uint32_fiel 1 (by decide)
          refine ⟨.handshakeMemoria, recibirHandshake, rfl, ?_⟩
          exact seLee_de_escribe hw (by rw [hlen]; decide) .handshakeMemoria (k := 0) rfl
      | _ => exact False.elim h
  | pedirMarco pid pagina =>
      cases i with
      | cpu =>
          refine ⟨.pedirMarco, deserializarPedirMarco, rfl, ?_⟩
          refine seLee_de_fiel (n := 4 + 4) ?_ (by decide) .pedirMarco
          refine (uint32_fiel pid).seguido ?_
          exact (uint32_fiel pagina).devuelto (Lee.nada _)
      | _ => exact False.elim h
  | ejecutarMovin dir datos =>
      cases i with
      | cpu =>
          refine ⟨.ejecutarMovin, deserializarEjecutarMovIn, rfl, ?_⟩
          exact seLee_de_fiel (mov_fiel .ejecutarMovin dir datos) (cabe_mov datos) .ejecutarMovin
      | _ => exact False.elim h
  | ejecutarMovout dir datos =>
      cases i with
      | cpu =>
          refine ⟨.ejecutarMovout, deserializarEjecutarMovOut, rfl, ?_⟩
          exact seLee_de_fiel (mov_fiel .ejecutarMovout dir datos) (cabe_mov datos) .ejecutarMovout
      | _ => exact False.elim h
  | ejecutarCopystring tamanio pid di si =>
      cases i with
      | cpu =>
          refine ⟨.ejecutarCopystring, deserializarEjecutarCopyString, rfl, ?_⟩
          refine seLee_de_fiel (n := 4 + (4 + (4 + 4))) ?_ (by decide) .ejecutarCopystring
          refine (uint32_fiel tamanio).seguido ((uint32_fiel pid).seguido ?_)
          refine (uint32_fiel di).seguido ?_
          exact (uint32_fiel si).devuelto (Lee.nada _)
      | _ => exact False.elim h
  | ejecutarResize pid tamanio =>
      cases i with
      | cpu =>
          refine ⟨.ejecutarResize, deserializarEjecutarResize, rfl, ?_⟩
          refine seLee_de_fiel (n := 4 + 4) ?_ (by decide) .ejecutarResize
          refine (uint32_fiel pid).seguido ?_
          exact (uint32_fiel tamanio).devuelto (Lee.nada _)
      | _ => exact False.elim h
  | crearProceso ruta pid =>
      cases i with
      | kernel =>
          refine ⟨.crearProceso, deserializarNuevoProcesoMemoria, rfl, ?_⟩
          refine seLee_de_fiel (n := ruta.tam + 4) ?_ h .crearProceso
          refine (cadena_fiel ruta).seguido ?_
          exact (uint32_fiel pid).devuelto (Lee.nada _)
      | _ => exact False.elim h
  | finalizarProceso pid =>
      cases i with
      | kernel =>
          refine ⟨.finalizarProcesoMemoria, deserealizarRecibirIntProceso, rfl, ?_⟩
          refine seLee_de_fiel (n := 4) ?_ (by decide) .finalizarProcesoMemoria
          exact (uint32_fiel pid).devuelto (Lee.nada _)
      | _ => exact False.elim h
  | ejecutarIoStdinRead stdin =>
      cases i with
      | io interfaz =>
          have hcabe : Cabe (4 + (12 + (stdin.tamanio.tam + stdin.aEscribir.tam))) := by
            have hapta : Cabe (16 + stdin.tamanio.tam + stdin.aEscribir.tam) := h
            unfold Cabe at hapta ⊢
            omega
          refine ⟨.ejecutarIoStdinRead, deserializarIoStdin, rfl, ?_⟩
          refine seLee_de_fiel ?_ hcabe .ejecutarIoStdinRead
          exact (Teclado.ioStdin_fiel stdin.pid stdin.dirFisica stdin.tamanio
            stdin.aEscribir).devuelto (Lee.nada _)
      | _ => exact False.elim h
  | ejecutarIoStdoutWrite pid dir tamanio =>
      cases i with
      | io interfaz =>
          refine ⟨.ejecutarIoStdoutWrite, deserializarIoStdout, rfl, ?_⟩
          refine seLee_de_fiel (n := 4 + (12 + 4)) ?_ (by decide) .ejecutarIoStdoutWrite
          refine (uint32_fiel pid).seguido ((direccionFisica_fiel dir).seguido ?_)
          exact (uint32_fiel tamanio).devuelto (Lee.nada _)
      | _ => exact False.elim h
  | ejecutarIoFsRead pid dir leido =>
      cases i with
      | io interfaz =>
          have hcabe : Cabe (4 + (12 + (4 + leido.length))) := by
            have hapta : Cabe (20 + leido.length) := h
            unfold Cabe at hapta ⊢
            omega
          have htam : leido.length = (UInt32.ofNat leido.length).toNat := by
            unfold Cabe at hcabe
            rw [UInt32.toNat_ofNat', Nat.mod_eq_of_lt (by omega)]
          refine ⟨.ejecutarIoFsRead, deserializarIoFsRead, rfl, ?_⟩
          refine seLee_de_fiel ?_ hcabe .ejecutarIoFsRead
          refine (uint32_fiel pid).seguido ((direccionFisica_fiel dir).seguido ?_)
          refine (uint32_fiel _).seguido ?_
          have hchar := char_fiel htam
          rw [← htam] at hchar
          exact hchar.devuelto (Lee.nada _)
      | _ => exact False.elim h
  | ejecutarIoFsWrite pid nombre tamanio posicion dir =>
      cases i with
      | io interfaz =>
          have hcabe : Cabe (4 + (nombre.tam + (4 + (4 + 12)))) := by
            have hapta : Cabe (24 + nombre.tam + tamanio.toNat) := h
            unfold Cabe at hapta ⊢
            omega
          refine ⟨.ejecutarIoFsWrite, deserializarIoFsWrite, rfl, ?_⟩
          refine seLee_de_fiel ?_ hcabe .ejecutarIoFsWrite
          refine (uint32_fiel pid).seguido ((cadena_fiel nombre).seguido ?_)
          refine (uint32_fiel tamanio).seguido ((uint32_fiel posicion).seguido ?_)
          exact (direccionFisica_fiel dir).devuelto (Lee.nada _)
      | _ => exact False.elim h

end Pedidos

section Respuestas

/-- The size of a string that is not empty, and the string. -/
theorem noVacia_fiel {c : Cadena} (hvacia : c.strlen ≠ 0) (h : c.strlen < 2 ^ 31)
    (respuesta : Option Cadena → Respuesta) :
    Codec.Fiel
      (do agregarUint32 (UInt32.ofNat c.strlen); agregarVarAPaquete c.conNulo (c.strlen + 1))
      (do
        let size ← deserializarUint32
        if 0 < aInt size.toNat then do
          let bs ← leer (size.toNat + 1)
          let c ← Codificacion.exigido (aCadena bs)
          return respuesta (some c)
        else return respuesta none)
      (respuesta (some c)) (4 + (c.strlen + 1)) := by
  have hsize : (UInt32.ofNat c.strlen).toNat = c.strlen := by
    rw [UInt32.toNat_ofNat', Nat.mod_eq_of_lt (by omega)]
  have hpos : 0 < aInt (UInt32.ofNat c.strlen).toNat := by
    rw [hsize, Entero.aInt_of_lt h]
    omega
  have hconNulo : Codec.Fiel (agregarVarAPaquete c.conNulo (c.strlen + 1)) (leer (c.strlen + 1))
      c.conNulo (c.strlen + 1) := by
    have hbytes := bytes_fiel c.conNulo (by rw [c.conNulo_length]; omega)
    rwa [c.conNulo_length] at hbytes
  refine (uint32_fiel _).seguido ?_
  rw [if_pos hpos, hsize]
  refine hconNulo.devuelto ?_
  exact (Lee.exigido (aCadena_conNulo c)).devuelto (Lee.nada _)

/-- An answer that is a code and a pid. -/
theorem hecho_recibido {i : Cliente} {codigo : CodOp} (pid : UInt32)
    (h : cliente i codigo.numero = lectura (deserializarHecho codigo)) :
    ∃ codigo' l, cliente i codigo'.numero = lectura l ∧
      SeLee (enviarRespuesta (.hecho codigo pid)) codigo' l (.hecho codigo pid) := by
  refine ⟨codigo, deserializarHecho codigo, h, ?_⟩
  refine seLee_de_fiel (n := 4) ?_ (by decide) codigo
  exact (uint32_fiel pid).devuelto (Lee.nada _)

/-- Each client reads its answers as they were given. -/
theorem enviarRespuesta_recibida {i : Cliente} {r : Respuesta} (h : Legible i r) :
    ∃ codigo l, cliente i codigo.numero = lectura l ∧ SeLee (enviarRespuesta r) codigo l r := by
  cases r with
  | retInstruccion idInst instruccion =>
      cases i with
      | cpu =>
          refine ⟨.retInstruccion, deserializarObtenerRetInstruccion, rfl, ?_⟩
          refine seLee_de_fiel (n := 4 + instruccion.tam) ?_ h .retInstruccion
          refine (uint32_fiel idInst).seguido ?_
          exact (cadena_fiel instruccion).devuelto (Lee.nada _)
      | _ => exact False.elim h
  | handshakeMemoria tamPagina =>
      cases i with
      | cpu =>
          refine ⟨.handshakeMemoria, deserializarRtaHandhsakeMemoria, rfl, ?_⟩
          refine seLee_de_fiel (n := 4) ?_ (by decide) .handshakeMemoria
          exact (uint32_fiel tamPagina).devuelto (Lee.nada _)
      | _ => exact False.elim h
  | pedirMarco pid pagina marco =>
      cases i with
      | cpu =>
          refine ⟨.pedirMarco, deserializarResponderMarco, rfl, ?_⟩
          refine seLee_de_fiel (n := 4 + (4 + 4)) ?_ (by decide) .pedirMarco
          refine (uint32_fiel pid).seguido ((uint32_fiel pagina).seguido ?_)
          exact (uint32_fiel marco).devuelto (Lee.nada _)
      | _ => exact False.elim h
  | rtaMovin datos =>
      cases i with
      | cpu =>
          have hcabe : Cabe datos.tam := by
            have htam := Teclado.tRegistro_tam_le datos
            unfold Cabe
            omega
          refine ⟨.rtaMovin, deserializarRtaMovin, rfl, ?_⟩
          refine seLee_de_fiel ?_ hcabe .rtaMovin
          exact (tRegistro_fiel datos).devuelto (Lee.nada _)
      | _ => exact False.elim h
  | hecho codigo pid =>
      refine hecho_recibido pid ?_
      cases i with
      | cpu => rcases h with rfl | rfl | rfl | rfl <;> rfl
      | kernel => rcases h with rfl | rfl <;> rfl
      | io interfaz => rcases h with rfl | rfl <;> rfl
  | retIoStdoutWrite pid tamanio leido =>
      cases i with
      | io interfaz =>
          refine ⟨.retIoStdoutWrite, deserializarRetIoStdoutWrite, rfl, ?_⟩
          cases leido with
          | none =>
              refine seLee_de_fiel (n := 4 + (4 + 4)) ?_ (by decide) .retIoStdoutWrite
              refine (uint32_fiel pid).seguido ((uint32_fiel tamanio).seguido ?_)
              refine (uint32_fiel 0).devuelto ?_
              rw [if_neg (by decide)]
              exact Lee.nada _
          | some c =>
              obtain ⟨hvacia, hcabe⟩ := h c rfl
              unfold Cabe at hcabe
              refine seLee_de_fiel (n := 4 + (4 + (4 + (c.strlen + 1)))) ?_ ?_ .retIoStdoutWrite
              · refine (uint32_fiel pid).seguido ((uint32_fiel tamanio).seguido ?_)
                exact noVacia_fiel hvacia (by omega) (.retIoStdoutWrite pid tamanio)
              · unfold Cabe
                omega
      | _ => exact False.elim h
  | ejecutarIoFsWrite pid nombre tamanio posicion dir leido =>
      cases i with
      | io interfaz =>
          obtain ⟨hleido, hcabe⟩ := h
          refine ⟨.ejecutarIoFsWrite, deserializarRetIoFsWrite, rfl, ?_⟩
          refine seLee_de_fiel (n := 4 + (nombre.tam + (4 + (4 + (12 + tamanio.toNat))))) ?_ ?_
            .ejecutarIoFsWrite
          · simp only [serializarEjecutarIoFsWrite, serializarEjecutarIoFsAcceso, bind_assoc]
            refine (uint32_fiel pid).seguido ((cadena_fiel nombre).seguido ?_)
            refine (uint32_fiel tamanio).seguido ((uint32_fiel posicion).seguido ?_)
            refine (direccionFisica_fiel dir).seguido ?_
            exact (char_fiel hleido).devuelto (Lee.nada _)
          · unfold Cabe at hcabe ⊢
            omega
      | _ => exact False.elim h

end Respuestas

/-! ### What every request keeps -/

/-- Pages that are not empty, and lines that fit. -/
structure Servible (m : Memoria.Estado) : Prop where
  tamPagina : 0 < m.tamPagina
  programas : ProgramasCortos m

theorem Servible.mismos {m m' : Memoria.Estado} (hm : Servible m) (h : MismosProgramas m m') :
    Servible m' := by
  refine ⟨?_, ?_⟩
  · rw [h.tamPagina]
    exact hm.tamPagina
  · unfold ProgramasCortos
    rw [h.programas]
    exact hm.programas

/-- The answers to the CPU are such that it reads them. -/
theorem legible_atenderClienteCpu {m m' : Memoria.Estado} (hm : Servible m) {p : Memoria.Peticion}
    {rs : List Memoria.Respuesta} (h : Memoria.atenderClienteCpu m p = .ok (rs, m'))
    (datos : TRegistro) : ∀ r ∈ rs, Legible .cpu (deRespuesta datos r) := by
  intro r hr
  cases r with
  | retInstruccion id instruccion =>
      cases p with
      | obtInstruccion pid pc =>
          obtain ⟨_, linea, heq, -, hlinea⟩ := (Memoria.obtInstruccion_eq_ok h).2 _ hr
          cases heq
          obtain ⟨ls, hls, -, hl⟩ := Memoria.obtenerInstruccion_eq_some.1 hlinea
          exact hm.programas pid ls hls _ (List.mem_of_getElem? hl)
      | mensaje =>
          cases h
          cases hr
      | handshakeMemoria =>
          cases h
          cases List.mem_singleton.1 hr
      | ejecutarResize pid tamanio =>
          obtain ⟨x, -, heq⟩ := Resultado.map_eq_ok.1 h
          cases heq
          have hcodigo := List.mem_singleton.1 hr
          split_ifs at hcodigo
      | _ =>
          obtain ⟨x, -, heq⟩ := Resultado.map_eq_ok.1 h
          cases heq
          cases List.mem_singleton.1 hr
  | handshakeMemoria tamPagina => trivial
  | pedirMarco pid pagina marco => trivial
  | rtaMovin reg => trivial
  | ejecutarMovout pid => exact .inl rfl
  | ejecutarCopystring pid => exact .inr (.inl rfl)
  | ejecutarResize pid => exact .inr (.inr (.inl rfl))
  | ejecutarResizeOutOfMemoryError pid => exact .inr (.inr (.inr rfl))

theorem atenderCpu_conserva {m m' : Memoria.Estado} (hm : Servible m) {datos : TRegistro}
    {p : Memoria.Peticion} {rs : List Respuesta} (h : atenderCpu m datos p = some (rs, m')) :
    Servible m' ∧ ∀ r ∈ rs, Legible .cpu r := by
  obtain ⟨x, hx, heq⟩ := Option.map_eq_some_iff.1 h
  obtain ⟨rs', m₁⟩ := x
  replace hx := Resultado.eq_ok_of_toOption hx
  cases heq
  refine ⟨hm.mismos (.atenderClienteCpu hx), ?_⟩
  intro r hr
  obtain ⟨r', hr', rfl⟩ := List.mem_map.1 hr
  exact legible_atenderClienteCpu hm hx datos r' hr'

/-- What is read for an interface is as long as it asked. -/
theorem leerDeMemoria_length {m : Memoria.Estado} (hm : Servible m) {pid : UInt32}
    {dir : DireccionFisica} {tamanio : UInt32} {leido : List UInt8}
    (h : leerDeMemoria m pid dir tamanio = some leido) : leido.length = tamanio.toNat := by
  obtain ⟨leidos, hleidos, rfl⟩ := Option.map_eq_some_iff.1 h
  have hlen := Memoria.length_of_obtenerDatosDeMemoria hm.tamPagina
    (Resultado.eq_ok_of_toOption hleidos)
  have hle : (aInt tamanio.toNat).toNat ≤ tamanio.toNat := by
    unfold aInt
    rw [Int.bmod_def]
    omega
  rw [List.length_append, List.length_replicate]
  omega

theorem strlen_cadenaDe_le (bs : List UInt8) : (cadenaDe bs).strlen ≤ bs.length :=
  (List.takeWhile_prefix (l := bs) fun b => b ≠ 0).length_le

/-- A process that is created has lines that fit. -/
theorem crearProceso_servible {m : Memoria.Estado} (hm : Servible m)
    {instrucciones : Option (List String)} (h : LineasCortas instrucciones) (pid : Memoria.Pid) :
    Servible (Memoria.crearProceso m instrucciones pid) := by
  refine ⟨hm.tamPagina, ?_⟩
  intro q
  change LineasCortas (Function.update m.dictInstrucciones pid instrucciones q)
  by_cases hq : q = pid
  · rw [hq, Function.update_self]
    exact h
  · rw [Function.update_of_ne hq]
    exact hm.programas q

theorem eliminarProceso_servible {m m' : Memoria.Estado} (hm : Servible m) {pid : Memoria.Pid}
    (h : Memoria.eliminarProceso m pid = .ok m') : Servible m' := by
  obtain ⟨htam, hprogramas⟩ := Memoria.eliminarProceso_programas h
  refine ⟨htam ▸ hm.tamPagina, ?_⟩
  intro q
  rw [hprogramas]
  by_cases hq : q = pid
  · rw [hq, Function.update_self]
    intro ls hls
    cases hls
  · rw [Function.update_of_ne hq]
    exact hm.programas q

section Paso

variable {programas : Cadena → Option (List String)} (hprog : ∀ ruta, LineasCortas (programas ruta))
include hprog

/-- Every request keeps the lines short, and its answers are such that they are read. -/
theorem paso_conserva {i : Cliente} {m m' : Memoria.Estado} {p : Pedido} {rs : List Respuesta}
    (hm : Servible m) (hp : Apta i p) (h : paso programas m p = some (rs, m')) :
    Servible m' ∧ ∀ r ∈ rs, Legible i r := by
  have hcpu : ∀ {datos q}, i = .cpu → atenderCpu m datos q = some (rs, m') →
      Servible m' ∧ ∀ r ∈ rs, Legible i r := by
    rintro datos q rfl hq
    exact atenderCpu_conserva hm hq
  have hio : ∀ {codigo : CodOp} {pid : UInt32}, Legible i (.hecho codigo pid) → Servible m' →
      rs = [.hecho codigo pid] → Servible m' ∧ ∀ r ∈ rs, Legible i r := by
    rintro codigo pid hr hm' rfl
    exact ⟨hm', by simpa using hr⟩
  cases p with
  | mensaje texto =>
      cases h
      exact ⟨hm, by simp⟩
  | obtInstruccion pid pc =>
      cases i with
      | cpu => exact hcpu rfl h
      | _ => exact False.elim hp
  | handshakeMemoria =>
      cases i with
      | cpu => exact hcpu rfl h
      | _ => exact False.elim hp
  | pedirMarco pid pagina =>
      cases i with
      | cpu => exact hcpu rfl h
      | _ => exact False.elim hp
  | ejecutarMovin dir datos =>
      cases i with
      | cpu => exact hcpu rfl h
      | _ => exact False.elim hp
  | ejecutarMovout dir datos =>
      cases i with
      | cpu => exact hcpu rfl h
      | _ => exact False.elim hp
  | ejecutarCopystring tamanio pid di si =>
      cases i with
      | cpu => exact hcpu rfl h
      | _ => exact False.elim hp
  | ejecutarResize pid tamanio =>
      cases i with
      | cpu => exact hcpu rfl h
      | _ => exact False.elim hp
  | crearProceso ruta pid =>
      cases i with
      | kernel =>
          cases h
          exact hio (.inl rfl) (crearProceso_servible hm (hprog ruta) pid.toNat) rfl
      | _ => exact False.elim hp
  | finalizarProceso pid =>
      cases i with
      | kernel =>
          obtain ⟨m₁, hm₁, heq⟩ := Option.map_eq_some_iff.1 h
          cases heq
          exact hio (.inr rfl) (eliminarProceso_servible hm (Resultado.eq_ok_of_toOption hm₁)) rfl
      | _ => exact False.elim hp
  | ejecutarIoStdinRead stdin =>
      cases i with
      | io interfaz =>
          obtain ⟨m₁, hm₁, heq⟩ := Option.map_eq_some_iff.1 h
          cases heq
          have hmismos := MismosProgramas.agregarDatos (Resultado.eq_ok_of_toOption hm₁)
          exact hio (.inl rfl) (hm.mismos hmismos) rfl
      | _ => exact False.elim hp
  | ejecutarIoStdoutWrite pid dir tamanio =>
      cases i with
      | io interfaz =>
          obtain ⟨leido, hleido, heq⟩ := Option.map_eq_some_iff.1 h
          cases heq
          refine ⟨hm, ?_⟩
          intro r hr
          cases List.mem_singleton.1 hr
          intro c hc
          have hlen := leerDeMemoria_length hm hleido
          have hstrlen := strlen_cadenaDe_le leido
          unfold noVacia at hc
          split at hc
          · cases hc
          · cases hc
            have hcabe : Cabe (13 + tamanio.toNat) := hp
            refine ⟨‹_›, ?_⟩
            unfold Cabe at hcabe ⊢
            omega
      | _ => exact False.elim hp
  | ejecutarIoFsRead pid dir leido =>
      cases i with
      | io interfaz =>
          obtain ⟨m₁, hm₁, heq⟩ := Option.map_eq_some_iff.1 h
          cases heq
          have hmismos := MismosProgramas.agregarDatos (Resultado.eq_ok_of_toOption hm₁)
          exact hio (.inr rfl) (hm.mismos hmismos) rfl
      | _ => exact False.elim hp
  | ejecutarIoFsWrite pid nombre tamanio posicion dir =>
      cases i with
      | io interfaz =>
          obtain ⟨leido, hleido, heq⟩ := Option.map_eq_some_iff.1 h
          cases heq
          refine ⟨hm, ?_⟩
          intro r hr
          cases List.mem_singleton.1 hr
          exact ⟨leerDeMemoria_length hm hleido, hp⟩
      | _ => exact False.elim hp

end Paso

/-! ### The whole of it -/

theorem enviarTodas_eq {i : Cliente} {rs : List Respuesta} (h : ∀ r ∈ rs, Legible i r) :
    enviarTodas rs = some (rs.flatMap fun r => (enviarRespuesta r).getD []) := by
  induction rs with
  | nil => rfl
  | cons r rs ih =>
      obtain ⟨codigo, l, -, buffer, k, henviado, -, -⟩ :=
        enviarRespuesta_recibida (h r List.mem_cons_self)
      have hrs := ih fun r' hr' => h r' (List.mem_cons_of_mem r hr')
      rw [enviarTodas, hrs, henviado, List.flatMap_cons, henviado]
      rfl

theorem numero_lt_codigo (codigo : CodOp) : codigo.numero < 2 ^ 32 :=
  codigo.numero_lt.trans (by decide)

section Protocolo

variable (programas : Cadena → Option (List String)) (hprog : ∀ ruta, LineasCortas (programas ruta))

include hprog in
/-- The bytes of a request are served as the request. -/
theorem servidor_sirve {i : Cliente} {m : Memoria.Estado} {p : Pedido} (hm : Servible m)
    (hp : Apta i p) (resto : List UInt8) :
    turno (servidor programas i) m ((enviarPedido p).getD [] ++ resto) =
      .servido (fun r => (enviarRespuesta r).getD []) resto (paso programas m p) := by
  obtain ⟨codigo, l, hcaso, buffer, k, henviado, hbuffer, hl⟩ := enviarPedido_recibido programas hp
  rw [henviado, Option.getD_some,
    Trama.turno_tramar (numero_lt_codigo codigo) hbuffer hcaso m resto]
  cases hpaso : paso programas m p with
  | none =>
      simp only [hl, hpaso, Option.bind_eq_bind, Option.bind_some, Option.bind_none]
      rfl
  | some x =>
      obtain ⟨rs, m'⟩ := x
      have henviadas := enviarTodas_eq (paso_conserva hprog hm hp hpaso).2
      simp only [hl, hpaso, henviadas, Option.bind_eq_bind, Option.bind_some]
      rfl

/-- The bytes of an answer are read as the answer. -/
theorem cliente_entiende {i : Cliente} {r : Respuesta} (h : Legible i r) (l : List Respuesta)
    (resto : List UInt8) :
    turno (cliente i) l ((enviarRespuesta r).getD [] ++ resto) = .sigue [] (l ++ [r]) resto := by
  obtain ⟨codigo, lector, hlectura, buffer, k, henviado, hbuffer, hl⟩ := enviarRespuesta_recibida h
  rw [henviado, Option.getD_some,
    Trama.turno_tramar (numero_lt_codigo codigo) hbuffer hlectura l resto]
  simp only [hl, Option.bind_eq_bind, Option.bind_some]
  rfl

/-- The memory module and its clients. -/
def protocolo : Trama.Protocolo Cliente Memoria.Estado Pedido Respuesta where
  paso := paso programas
  peticion p := (enviarPedido p).getD []
  respuesta r := (enviarRespuesta r).getD []
  servidor := servidor programas
  cliente := cliente
  Inv := Servible
  Apta := Apta
  Legible := Legible
  sirve hm hp := servidor_sirve programas hprog hm hp
  conserva hm hp h := paso_conserva hprog hm hp h
  entiende h := cliente_entiende h

end Protocolo

theorem servible_crearEstructurasMemoria {P : ℕ} (hP : 0 < P) (tamMemoria : ℕ)
    (espacio : ℕ → UInt8) : Servible (Memoria.crearEstructurasMemoria P tamMemoria espacio) := by
  refine ⟨hP, ?_⟩
  intro pid ls hls
  cases hls

/-- The threads of the clients share the page tables, the bitmap and the user space without a lock.
As long as none of them takes a request up while another is serving one, and however the bytes of
the requests and of the answers are cut and delivered and in whatever order the loops take their
turns, the memory is where it would be if it had been asked for whole requests one after another: of
each client the first ones that it made, in its order.  Every client has read the first of the
answers to its own requests, as they were given, and with no bytes on its connection all its
requests were served, unless the module has failed, and all its answers read. -/
theorem memoria_linealizable {programas : Cadena → Option (List String)}
    (hprog : ∀ ruta, LineasCortas (programas ruta)) {P tamMemoria : ℕ} {espacio : ℕ → UInt8}
    (hP : 0 < P) {es : List (Trama.Evento Cliente Pedido)}
    {c : Trama.Red Cliente Memoria.Estado Respuesta}
    (h : Transicion.Corrida
      (Trama.sistema (protocolo programas hprog)
        (Memoria.crearEstructurasMemoria P tamMemoria espacio))
      (fun c e => e.Apta (protocolo programas hprog) ∧ e.EnSerie c) es c) :
    ∃ servidas : List (Cliente × Pedido),
      let fin := Trama.atenderTodas (paso programas)
        (Memoria.crearEstructurasMemoria P tamMemoria espacio) servidas
      c.estado = fin.2 ∧
      (∀ i, Trama.deConexion i servidas <+: Trama.pedidas i es ∧
        (c.conexion i).respuestas <+: Trama.deConexion i fin.1) ∧
      ∀ i, (c.conexion i).EnReposo →
        (c.estado ≠ none → Trama.deConexion i servidas = Trama.pedidas i es) ∧
          (c.conexion i).respuestas = Trama.deConexion i fin.1 :=
  Trama.linealizable (servible_crearEstructurasMemoria hP tamMemoria espacio) h

/-- The program is in no file. -/
def sinProgramas (_ : Cadena) : Option (List String) := none

theorem lineasCortas_sinProgramas (ruta : Cadena) : LineasCortas (sinProgramas ruta) := by
  intro ls hls
  cases hls

def rutaP : Cadena := ⟨[112], by decide⟩

/-- A process is created and resized, and its first page asked for; the requests of the CPU arrive
together but for their last byte, while the one of the kernel is served. -/
def creadoYRedimensionado : List (Trama.Evento Cliente Pedido) :=
  [.pide .kernel (.crearProceso rutaP 1), .llegaAlServidor .kernel 5, .llegaAlServidor .kernel 13,
    .empieza .kernel, .pide .cpu (.ejecutarResize 1 8), .pide .cpu (.pedirMarco 1 0),
    .llegaAlServidor .cpu 31, .acaba .kernel, .empieza .cpu, .acaba .cpu, .llegaAlServidor .cpu 1,
    .empieza .cpu, .acaba .cpu, .llegaAlCliente .cpu 30, .lee .cpu, .llegaAlCliente .cpu 2,
    .lee .cpu]

theorem creadoYRedimensionado_corre :
    (Transicion.ejecutar
      (Trama.Red.intentar (protocolo sinProgramas lineasCortas_sinProgramas))
      { estado := some (Memoria.crearEstructurasMemoria 4 16 fun _ => 0), conexion := fun _ => {} }
      creadoYRedimensionado).isSome = true := by
  decide +kernel

def redDePrueba : Trama.Red Cliente Memoria.Estado Respuesta :=
  Transicion.estadoTras _ _ _ creadoYRedimensionado_corre

theorem enReposo_redDePrueba : (redDePrueba.conexion .cpu).ida = [] ∧
    (redDePrueba.conexion .cpu).llegado = [] ∧ (redDePrueba.conexion .cpu).vuelta = [] ∧
    (redDePrueba.conexion .cpu).recibido = [] ∧ redDePrueba.estado.isSome = true ∧
    (redDePrueba.conexion .cpu).respuestas =
      [.hecho .ejecutarResize 1, .pedirMarco 1 0 0] := by
  decide +kernel

theorem memoria_linealizable_redDePrueba :
    ∃ servidas : List (Cliente × Pedido),
      Trama.deConexion .cpu servidas = [.ejecutarResize 1 8, .pedirMarco 1 0] ∧
      Trama.deConexion .cpu (Trama.atenderTodas (paso sinProgramas)
        (Memoria.crearEstructurasMemoria 4 16 fun _ => 0) servidas).1 =
          [.hecho .ejecutarResize 1, .pedirMarco 1 0 0] := by
  obtain ⟨hida, hllegado, hvuelta, hrecibido, hvive, hrespuestas⟩ := enReposo_redDePrueba
  have haptas : ∀ e ∈ creadoYRedimensionado,
      e.Apta (protocolo sinProgramas lineasCortas_sinProgramas) := by
    intro e he
    simp only [creadoYRedimensionado, List.mem_cons, List.not_mem_nil, or_false] at he
    rcases he with rfl | rfl | rfl | rfl | rfl | rfl | rfl | rfl | rfl | rfl | rfl | rfl | rfl |
      rfl | rfl | rfl | rfl
    · exact (by decide : Cabe (rutaP.tam + 4))
    all_goals exact trivial
  have hcorrida := Transicion.corrida_estadoTras
    (S := Trama.sistema (protocolo sinProgramas lineasCortas_sinProgramas)
      (Memoria.crearEstructurasMemoria 4 16 fun _ => 0))
    (C := fun c e => e.EnSerie c) (fun _ _ _ h => Trama.paso_of_intentar h) rfl
    creadoYRedimensionado_corre
  obtain ⟨servidas, -, -, hreposo⟩ := memoria_linealizable lineasCortas_sinProgramas (by decide)
    (hcorrida.conEventos haptas)
  obtain ⟨hservidas, hleidas⟩ := hreposo .cpu ⟨hida, hllegado, hvuelta, hrecibido⟩
  refine ⟨servidas, ?_, hleidas.symm.trans hrespuestas⟩
  exact (hservidas (Option.isSome_iff_ne_none.1 hvive)).trans rfl

end ServidorMemoria
