/-
**IO_STDIN_READ, from the register with the size to the bytes in memory.**

The size that a process asks for leaves the CPU in a register, which the kernel reads from the
petition and writes into the request for the interface, once more for every time that the interface
rejects it, and the interface, with the line that was typed, into the message for memory.  Memory
takes the size off the message and does not look at it: it stores the whole line.  On the way the
size has been lost already, because the kernel reads the register where the petition has the name of
the interface for the second time; but the process and the address arrive.  This module follows the
message and proves that the bytes stored are the ones asked for exactly when the line is not longer
than the size and the pages under it are in consecutive frames.

Main definitions:

* `Teclado.serializarIoStdin`, `Teclado.deserializarIoStdin` — the message for memory;
* `Teclado.recorrido` — the hops from the CPU to memory;
* `Teclado.atenderIoStdinRead` — what memory does with the message;
* `Teclado.LeeDelTeclado` — what an IO_STDIN_READ is for.

Main results:

* `Teclado.recorrido_eq_some_iff` — what arrives: the process, the address and the line;
* `Teclado.leeDelTeclado_iff` — which lines are stored in the bytes asked for, and nowhere else.
-/

import TpSisop.CodecReintento
import TpSisop.MemoriaCpu

set_option relaxedAutoImplicit false
set_option autoImplicit false

namespace Teclado

open Codec Codificacion
open Memoria (Fallo Coherente AccesoValido MarcosConsecutivos dirLogica dirRecorrida)

/-! ### The message for memory -/

/-- `t_ejecutar_io_stdin`. -/
structure EjecutarIoStdin where
  pid : UInt32
  dirFisica : DireccionFisica
  tamanio : TRegistro
  aEscribir : Cadena
  deriving DecidableEq

def escribirIoStdin (pid : UInt32) (dir : DireccionFisica) (tamanio : TRegistro)
    (aEscribir : Cadena) : Codec.Escritor := do
  agregarUint32 pid
  agregarDirFisicaAPaquete dir
  serializarTRegistro tamanio
  agregarCadena aEscribir

/-- `serializar_io_stdin`. -/
def serializarIoStdin (pid : UInt32) (dir : DireccionFisica) (tamanio : TRegistro)
    (aEscribir : Cadena) : Option Paquete :=
  empaquetar (.ejecutar .stdinRead) (escribirIoStdin pid dir tamanio aEscribir)

/-- `deserializar_io_stdin`. -/
def deserializarIoStdin : Lector EjecutarIoStdin := do
  let pid ← deserializarUint32
  let dirFisica ← deserializarDireccionFisica
  let tamanio ← deserializarTRegistro
  let aEscribir ← deserializarCadena
  return { pid, dirFisica, tamanio, aEscribir }

/-- What `atender_cliente_io` of memory reads. -/
def recibirIoStdin (paquete : Paquete) : Option EjecutarIoStdin :=
  match paquete.codigoOperacion with
  | .ejecutar .stdinRead => (deserializarIoStdin paquete.buffer.bytes 0).map fun r => r.1
  | _ => none

/-! ### The hops -/

/-- The case `INSTRUCCION_IO_STDIN_READ` of the kernel, where the interface `nombre` is connected:
the request that `enviar_io_stdin_read_a_interfaz` sends it. -/
def pedidoDePeticion (nombre : Cadena) (peticion : Peticion) : Option PedidoIo :=
  match peticion.io with
  | .stdinRead interfaz dir tamanio => do
      guard (interfaz = nombre)
      return .stdinRead peticion.cde.pcbEjecutado.pid dir tamanio
  | _ => none

/-- A request that the interface rejects `rechazos` times before it accepts it. -/
def insistir (b : Basura) (nombre : Cadena) : ℕ → PedidoIo → Option PedidoIo
  | 0, p => some p
  | rechazos + 1, p => (reintentar b nombre p).bind (insistir b nombre rechazos)

/-- `io_stdin_read` of the interface; `linea` is the answer of `readline`. -/
def ioStdinRead (linea : Cadena) : PedidoIo → Option Paquete
  | .stdinRead pid dir tamanio => serializarIoStdin pid dir tamanio linea
  | _ => none

/-- From the CPU to memory: the petition, the request, its retries, the message with the line. -/
def recorrido (b : Basura) (nombre : Cadena) (pcb : Pcb) (dir : DireccionFisica)
    (tamanio : TRegistro) (rechazos : ℕ) (linea : Cadena) : Option EjecutarIoStdin := do
  let peticion ← serializarPeticion pcb .io (.stdinRead nombre dir tamanio)
  let (recibida, _) ← recibirPeticion peticion
  let pedido ← pedidoDePeticion nombre recibida
  let recibido ← (serializarEjecutar pedido).bind recibirEjecutar
  let aceptado ← insistir b nombre rechazos recibido
  let paquete ← ioStdinRead linea aceptado
  recibirIoStdin paquete

/-! ### What arrives -/

section Mensajes

variable {b : Basura} {nombre : Cadena} {pcb : Pcb} {dir : DireccionFisica} {tamanio : TRegistro}
  {linea : Cadena}

/-- The bytes of a string with its length: as many as the 32 bits of the length say. -/
def cadenaBytes (c : Cadena) : List UInt8 :=
  littleEndian 4 (UInt32.ofNat (c.strlen + 1)).toNat ++
    c.conNulo.take (UInt32.ofNat (c.strlen + 1)).toNat

theorem cadena_escribe (c : Cadena) : Escribe (agregarCadena c) (cadenaBytes c) := by
  refine Escribe.seguido (agregarVarAPaquete_escribe _ (by simp)) ?_
  rw [agregarVarAPaquete, Nat.mod_eq_of_lt (UInt32.toNat_lt _)]
  exact Escribe.agregar _

theorem cadenaBytes_of_lt {c : Cadena} (h : c.strlen + 1 < 2 ^ 32) :
    cadenaBytes c = littleEndian 4 (UInt32.ofNat (c.strlen + 1)).toNat ++ c.conNulo := by
  rw [cadenaBytes, strlen_toNat h, List.take_length]

theorem cadenaBytes_length {c : Cadena} (h : c.strlen + 1 < 2 ^ 32) :
    (cadenaBytes c).length = c.tam := by
  rw [cadenaBytes_of_lt h, List.length_append, littleEndian_length, Cadena.conNulo_length,
    Cadena.tam]

/-- A string whose length does not fit in 32 bits is cut before its NUL, and is not read back. -/
theorem strlen_lt_of_deserializarCadena {c c' : Cadena} {s antes : List UInt8} {o : ℕ}
    (hs : s = antes ++ cadenaBytes c) (h : deserializarCadena s antes.length = some (c', o)) :
    c.strlen + 1 < 2 ^ 32 := by
  by_contra hlargo
  unfold cadenaBytes at hs
  generalize ht : UInt32.ofNat (c.strlen + 1) = t at hs h
  have hcorta : t.toNat ≤ c.strlen := by
    rw [← ht, UInt32.toNat_ofNat']
    have := Nat.mod_lt (c.strlen + 1) (show 0 < 2 ^ 32 by decide)
    omega
  have htam : Lee deserializarUint32 (littleEndian 4 t.toNat) t := by
    have := uint32_lee (littleEndian 4 t.toNat) (by simp)
    rwa [valor_littleEndian_of_lt (UInt32.toNat_lt t), UInt32.ofNat_toNat] at this
  have hresto := htam.sigue (f := fun t => deserializarChar t >>= fun bs => exigido (aCadena bs))
    (hs.trans (List.append_assoc _ _ _).symm) rfl h
  have hlen : (c.conNulo.take t.toNat).length = t.toNat := by
    rw [List.length_take, Cadena.conNulo_length]
    omega
  have hchar : Lee (deserializarChar t) (c.conNulo.take t.toNat) (c.conNulo.take t.toNat) := by
    have := Lee.leer (c.conNulo.take t.toNat)
    rwa [hlen] at this
  have hs' : s = antes ++ littleEndian 4 t.toNat ++ c.conNulo.take t.toNat ++ [] := by
    rw [hs, List.append_nil, List.append_assoc]
  have hfin := hchar.sigue hs' List.length_append hresto
  -- what was read has no NUL
  have hnulo : (0 : UInt8) ∉ c.conNulo.take t.toNat := by
    rw [Cadena.conNulo, List.take_append_of_le_length hcorta]
    exact fun hmem => c.sinNulo (List.mem_of_mem_take hmem)
  rw [aCadena, if_neg hnulo] at hfin
  cases hfin

theorem ioStdin_fiel (pid : UInt32) (dir : DireccionFisica) (tamanio : TRegistro)
    (linea : Cadena) :
    Codec.Fiel (escribirIoStdin pid dir tamanio linea) deserializarIoStdin
      ⟨pid, dir, tamanio, linea⟩ (4 + (12 + (tamanio.tam + linea.tam))) := by
  refine (uint32_fiel pid).seguido ?_
  refine (direccionFisica_fiel dir).seguido ?_
  refine (tRegistro_fiel tamanio).seguido ?_
  exact (cadena_fiel linea).devuelto (Lee.nada _)

theorem tRegistro_tam_le (reg : TRegistro) : reg.tam ≤ 5 := by
  cases reg <;> simp [TRegistro.tam]

/-- Memory reads the message of the interface whole exactly when it fits in a buffer. -/
theorem ioStdin_recibido_iff {pid : UInt32} {s : EjecutarIoStdin} :
    (serializarIoStdin pid dir tamanio linea).bind recibirIoStdin = some s ↔
      4 + (12 + (tamanio.tam + linea.tam)) < 2 ^ 31 ∧ s = ⟨pid, dir, tamanio, linea⟩ := by
  have hllega : 4 + (12 + (tamanio.tam + linea.tam)) < 2 ^ 31 →
      (serializarIoStdin pid dir tamanio linea).bind recibirIoStdin =
        some ⟨pid, dir, tamanio, linea⟩ := by
    intro hcabe
    obtain ⟨paquete, hp, hcod, -, hl⟩ :=
      empaquetar_fiel (ioStdin_fiel pid dir tamanio linea) hcabe (.ejecutar .stdinRead)
    have hleido := hl [] []
    rw [List.nil_append, List.append_nil, List.length_nil, Nat.zero_add] at hleido
    rw [serializarIoStdin, hp, Option.bind_some, recibirIoStdin, hcod]
    simp only [hleido, Option.map_some]
  constructor
  · intro h
    obtain ⟨paquete, hp, hr⟩ := Option.bind_eq_some_iff.1 h
    obtain ⟨b₁, hlen₁, hw₁, hl₁⟩ := uint32_fiel pid (by decide)
    obtain ⟨b₂, hlen₂, hw₂, hl₂⟩ := direccionFisica_fiel dir (by decide)
    have htam := tRegistro_tam_le tamanio
    obtain ⟨b₃, hlen₃, hw₃, hl₃⟩ := tRegistro_fiel tamanio (by omega)
    have hbytes := bytes_of_empaquetar
      (hw₁.seguido (hw₂.seguido (hw₃.seguido (cadena_escribe linea)))) hp
    have hcorta : linea.strlen + 1 < 2 ^ 32 := by
      have hcod : paquete.codigoOperacion = .ejecutar .stdinRead := by
        rw [serializarIoStdin, empaquetar, Option.map_eq_some_iff] at hp
        obtain ⟨r, -, rfl⟩ := hp
        rfl
      simp only [recibirIoStdin, hcod, Option.map_eq_some_iff] at hr
      obtain ⟨⟨s', o⟩, hleido, -⟩ := hr
      have hs₁ : paquete.buffer.bytes = [] ++ b₁ ++ (b₂ ++ (b₃ ++ cadenaBytes linea)) := hbytes
      have hs₂ : paquete.buffer.bytes = b₁ ++ b₂ ++ (b₃ ++ cadenaBytes linea) := by
        rw [hbytes, List.append_assoc]
      have hs₃ : paquete.buffer.bytes = b₁ ++ b₂ ++ b₃ ++ cadenaBytes linea := by
        simp only [hbytes, List.append_assoc]
      have h₁ := hl₁.sigue hs₁ rfl hleido
      have h₂ := hl₂.sigue hs₂ (Nat.zero_add _).symm h₁
      have h₃ := hl₃.sigue hs₃ (by simp) h₂
      obtain ⟨c, m, hcadena, -⟩ := bind_eq_some.1 h₃
      have hlugar : deserializarCadena paquete.buffer.bytes (b₁ ++ b₂ ++ b₃).length =
          some (c, m) := by
        rwa [List.length_append, List.length_append, ← Nat.zero_add b₁.length]
      exact strlen_lt_of_deserializarCadena hs₃ hlugar
    have hcabe := paquete.buffer.acotado
    rw [hbytes] at hcabe
    simp only [List.length_append, hlen₁, hlen₂, hlen₃, cadenaBytes_length hcorta] at hcabe
    rw [hllega hcabe] at h
    exact ⟨hcabe, (Option.some.inj h).symm⟩
  · rintro ⟨hcabe, rfl⟩
    exact hllega hcabe

/-- The register that the kernel reads from the petition: the length of the name of the interface
is taken for it, with the first byte of the name if the tag it makes is that of 32 bits. -/
def registroDelNombre (nombre : Cadena) : TRegistro :=
  registroLeido ⟨nombre.conNulo.headD 0, 0, 0, 0⟩ (UInt32.ofNat (nombre.strlen + 1))

variable (dir) in
/-- The kernel reads the process, the name and the address of the petition, and a register that has
nothing to do with the one written. -/
theorem peticion_recibida
    (hcabe : tamContexto ⟨pcb, .io, none⟩ + (nombre.tam + (12 + (nombre.tam + tamanio.tam)))
      < 2 ^ 31) :
    ∃ paquete o, serializarPeticion pcb .io (.stdinRead nombre dir tamanio) = some paquete ∧
      recibirPeticion paquete =
        some (⟨⟨pcb, .io, none⟩, .stdinRead nombre dir (registroDelNombre nombre)⟩, o) := by
  have htam := tRegistro_tam_le tamanio
  obtain ⟨b₁, hlen₁, hw₁, hl₁⟩ := contexto_fiel ⟨pcb, .io, none⟩ (by omega)
  obtain ⟨b₂, hlen₂, hw₂, hl₂⟩ := cadena_fiel nombre (by omega)
  obtain ⟨b₃, hlen₃, hw₃, hl₃⟩ := direccionFisica_fiel dir (by decide)
  obtain ⟨b₄, hlen₄, hw₄, -⟩ := tRegistro_fiel tamanio (by omega)
  have hnombre : nombre.strlen + 1 < 2 ^ 32 := by
    unfold Cadena.tam at hcabe
    omega
  -- the second name, up to its first byte
  have hconNulo : nombre.conNulo ≠ [] := by simp [Cadena.conNulo]
  obtain ⟨x, xs, hx⟩ := List.exists_cons_of_ne_nil hconNulo
  have hsegundo : cadenaBytes nombre =
      littleEndian 4 (UInt32.ofNat (nombre.strlen + 1)).toNat ++ [x] ++ xs := by
    rw [cadenaBytes_of_lt hnombre, hx, List.append_assoc]
    rfl
  obtain ⟨bs, resto, hbs, hreg⟩ :=
    registroLeido_lee ⟨x, 0, 0, 0⟩ (UInt32.ofNat (nombre.strlen + 1))
  have hlee : Lee (do
        let cde ← deserializarContexto
        let io ← leerStdinRead
        return { cde, io } : Lector Peticion) (b₁ ++ (b₂ ++ (b₃ ++ bs)))
      ⟨⟨pcb, .io, none⟩, .stdinRead nombre dir (registroDelNombre nombre)⟩ := by
    refine hl₁.seguido ?_
    have hio : Lee leerStdinRead (b₂ ++ (b₃ ++ bs))
        (.stdinRead nombre dir (registroDelNombre nombre)) := by
      refine hl₂.seguido (hl₃.seguido ?_)
      rw [registroDelNombre, hx]
      exact hreg.devuelto (Lee.nada _)
    exact hio.devuelto (Lee.nada _)
  have hw := hw₁.seguido (hw₂.seguido (hw₃.seguido ((cadena_escribe nombre).seguido hw₄)))
  have hlargo : (b₁ ++ (b₂ ++ (b₃ ++ (cadenaBytes nombre ++ b₄)))).length < 2 ^ 31 := by
    simp only [List.length_append, cadenaBytes_length hnombre, hlen₁, hlen₂, hlen₃, hlen₄]
    exact hcabe
  obtain ⟨paquete, hp, hcod, hbytes⟩ :=
    empaquetar_escribe hw hlargo (.instruccion .stdinRead)
  have hstream : paquete.buffer.bytes =
      [] ++ (b₁ ++ (b₂ ++ (b₃ ++ bs))) ++ (resto ++ (xs ++ b₄)) := by
    rw [hbytes, hsegundo, hbs]
    simp only [List.nil_append, List.append_assoc]
  have hleido := hlee [] (resto ++ (xs ++ b₄))
  rw [← hstream] at hleido
  exact ⟨paquete, _, hp, (recibirPeticion_eq hcod).trans hleido⟩

/-- A rejected request comes back as it was. -/
theorem insistir_stdinRead (hnombre : nombre.tam + 21 < 2 ^ 31) (pid : UInt32) (rechazos : ℕ) :
    insistir b nombre rechazos (.stdinRead pid dir tamanio) =
      some (.stdinRead pid dir tamanio) := by
  have htam := tRegistro_tam_le tamanio
  induction rechazos with
  | zero => rfl
  | succ rechazos ih =>
      have hvuelve : reintentar b nombre (.stdinRead pid dir tamanio) =
          some (.stdinRead pid dir tamanio) := by
        refine reintentar_of_ne b (by simp [PedidoIo.operacion]) ?_
        simp only [PedidoIo.tam]
        omega
      rw [insistir, hvuelve, Option.bind_some, ih]

/-- **What memory receives**: the process, the address and the line, as long as the message fits in
a buffer; the size is not the one asked for. -/
theorem recorrido_eq_some_iff {rechazos : ℕ} {s : EjecutarIoStdin}
    (hcabe : tamContexto ⟨pcb, .io, none⟩ + (nombre.tam + (12 + (nombre.tam + tamanio.tam)))
      < 2 ^ 31) :
    recorrido b nombre pcb dir tamanio rechazos linea = some s ↔
      4 + (12 + ((registroDelNombre nombre).tam + linea.tam)) < 2 ^ 31 ∧
        s = ⟨pcb.pid, dir, registroDelNombre nombre, linea⟩ := by
  obtain ⟨peticion, o, hp, hr⟩ := peticion_recibida dir hcabe
  have hreg := tRegistro_tam_le (registroDelNombre nombre)
  have hpedido : pedidoDePeticion nombre
      ⟨⟨pcb, .io, none⟩, .stdinRead nombre dir (registroDelNombre nombre)⟩ =
        some (.stdinRead pcb.pid dir (registroDelNombre nombre)) := by
    simp [pedidoDePeticion]
  have hllega : (serializarEjecutar (.stdinRead pcb.pid dir (registroDelNombre nombre))).bind
      recibirEjecutar = some (.stdinRead pcb.pid dir (registroDelNombre nombre)) := by
    refine recibirEjecutar_serializarEjecutar ?_
    simp only [PedidoIo.tam]
    omega
  have hnombre : nombre.tam + 21 < 2 ^ 31 := by
    have : 5 ≤ nombre.tam := by unfold Cadena.tam; omega
    have : 2 ≤ tamanio.tam := by cases tamanio <;> simp [TRegistro.tam]
    have : 4 ≤ tamContexto ⟨pcb, .io, none⟩ := by unfold tamContexto; omega
    omega
  simp only [recorrido, hp, hr, hpedido, hllega, insistir_stdinRead hnombre, bind, Option.bind_some]
  exact ioStdin_recibido_iff

end Mensajes

/-! ### What memory does with it (`atender_io.c`) -/

def convertirDireccion (m : Memoria.Estado) (marco direccion : UInt32) : UInt32 :=
  marco * UInt32.ofNat m.tamPagina + direccion

/-- The case `EJECUTAR_IO_STDIN_READ` of `atender_cliente_io`; the size is the `strlen` of the
line. -/
def atenderIoStdinRead (m : Memoria.Estado) (s : EjecutarIoStdin) :
    Except Fallo Memoria.Estado :=
  Memoria.agregarDatosAMemoria m s.aEscribir.bytes
    (convertirDireccion m s.dirFisica.marco s.dirFisica.desplazamientoFisico).toNat s.pid.toNat

/-- The physical address that the CPU sends for the logical address `L`. -/
def direccionFisica (m : Memoria.Estado) (pid : UInt32) (ps : List ℕ) (L : ℕ) :
    DireccionFisica where
  pid := pid
  marco := UInt32.ofNat (ps.getD (L / m.tamPagina) 0)
  desplazamientoFisico := UInt32.ofNat (L % m.tamPagina)

/-- The size that a process asks for. -/
def tamanioPedido : TRegistro → ℕ
  | .registro8 data => data.toNat
  | .registro32 _ _ data => data.toNat

/-- What an IO_STDIN_READ at `L` is for, when the line has `largo` characters: whatever memory holds
and whatever the line, it is handled, no byte changes but those asked for, and the first of them
become the line, as far as both reach. -/
def LeeDelTeclado (b : Basura) (nombre : Cadena) (pcb : Pcb) (m : Memoria.Estado) (ps : List ℕ)
    (L : ℕ) (tamanio : TRegistro) (rechazos largo : ℕ) : Prop :=
  ∀ (espacio : ℕ → UInt8) (linea : Cadena), linea.strlen = largo →
    ∃ s m',
      recorrido b nombre pcb (direccionFisica m pcb.pid ps L) tamanio rechazos linea = some s ∧
      atenderIoStdinRead { m with espacio } s = .ok m' ∧
      (∀ a, (∀ i < tamanioPedido tamanio, a ≠ dirLogica m.tamPagina ps (L + i)) →
        m'.espacio a = espacio a) ∧
      ∀ i (hi : i < linea.bytes.length), i < tamanioPedido tamanio →
        m'.espacio (dirLogica m.tamPagina ps (L + i)) = linea.bytes[i]

section Memoria

variable {b : Basura} {nombre : Cadena} {pcb : Pcb} {m : Memoria.Estado} {ps : List ℕ} {L : ℕ}
  {tamanio : TRegistro} {rechazos largo : ℕ}

/-- On a memory whose size is an `int` the address is the one the CPU meant. -/
theorem convertirDireccion_eq (hm : Coherente m) (hP : 0 < m.tamPagina)
    (hint : m.cantidadDePaginas * m.tamPagina < 2 ^ 31) {pid : Memoria.Pid}
    (h : m.tablaDePaginas pid = some ps) (hL : L / m.tamPagina < ps.length) :
    (convertirDireccion m (UInt32.ofNat (ps.getD (L / m.tamPagina) 0))
      (UInt32.ofNat (L % m.tamPagina))).toNat = Memoria.direccionDeAcceso m ps L := by
  have hmod := Nat.mod_lt L hP
  obtain ⟨marco, hmarco⟩ : ∃ marco, marco = ps.getD (L / m.tamPagina) 0 := ⟨_, rfl⟩
  have hmem : marco ∈ ps := by
    have hget := Memoria.getElem?_eq_getD hL
    rw [← hmarco] at hget
    exact List.mem_of_getElem? hget
  have hmarcos := hm.rango ⟨pid, ps, h, hmem⟩
  have hfin := Nat.mul_le_mul_right m.tamPagina (Nat.succ_le_of_lt hmarcos)
  rw [Nat.succ_mul] at hfin
  have hmarco_le : marco ≤ marco * m.tamPagina := Nat.le_mul_of_pos_right marco hP
  rw [Memoria.direccionDeAcceso_eq, ← hmarco, convertirDireccion, UInt32.toNat_add,
    UInt32.toNat_mul, UInt32.toNat_ofNat', UInt32.toNat_ofNat', UInt32.toNat_ofNat',
    Nat.mod_eq_of_lt (show marco < 2 ^ 32 by omega),
    Nat.mod_eq_of_lt (show m.tamPagina < 2 ^ 32 by omega),
    Nat.mod_eq_of_lt (show L % m.tamPagina < 2 ^ 32 by omega),
    Nat.mod_eq_of_lt (show marco * m.tamPagina < 2 ^ 32 by omega),
    Nat.mod_eq_of_lt (show marco * m.tamPagina + L % m.tamPagina < 2 ^ 32 by omega)]

/-- A write that ends has all its pages in the table, and its bytes in the user space. -/
theorem dentro_of_agregarDatosAMemoria {pid : Memoria.Pid} (hP : 0 < m.tamPagina)
    (h : m.tablaDePaginas pid = some ps) (hnodup : ps.Nodup) (hL : L / m.tamPagina < ps.length)
    {datos : List UInt8} {m' : Memoria.Estado}
    (hok : Memoria.agregarDatosAMemoria m datos (Memoria.direccionDeAcceso m ps L) pid = .ok m') :
    (∀ k, k * m.tamPagina < datos.length → L / m.tamPagina + k < ps.length) ∧
      ∀ i < datos.length, dirRecorrida m.tamPagina ps L i < m.tamMemoria := by
  have hacceso := (Memoria.agregarDatosAMemoria_ok_iff hP datos).1 ⟨m', hok⟩
  refine ⟨fun k hk => ?_, Memoria.dentro_of_accesible hP h hnodup hL hacceso⟩
  obtain ⟨qs, hqs, henTabla, -⟩ := hacceso
  obtain rfl : ps = qs := Option.some.inj (h.symm.trans hqs)
  rw [Memoria.pagina_direccionDeAcceso hP hnodup hL] at henTabla
  obtain ⟨i, hi, hcast⟩ := henTabla.resolve_left (by omega)
  have hle : k ≤ (datos.length - 1) / m.tamPagina := (Nat.le_div_iff_mul_le hP).2 (by omega)
  generalize (datos.length - 1) / m.tamPagina = ultima at hle hcast
  generalize L / m.tamPagina = primera at hcast ⊢
  omega

/-- A line of copies of one character. -/
def lineaRepetida (largo : ℕ) : Cadena where
  bytes := List.replicate largo 97
  sinNulo := fun h => absurd (List.eq_of_mem_replicate h) (by decide)

/-- And one with another character at one place. -/
def lineaMarcada (largo i : ℕ) : Cadena where
  bytes := (List.replicate largo 97).set i 98
  sinNulo := by
    intro h
    rcases List.mem_or_eq_of_mem_set h with h | h
    · exact absurd (List.eq_of_mem_replicate h) (by decide)
    · exact absurd h (by decide)

variable (hm : Coherente m) (hP : 0 < m.tamPagina)
  (hint : m.cantidadDePaginas * m.tamPagina < 2 ^ 31)
  (h : AccesoValido m pcb.pid.toNat ps L (tamanioPedido tamanio))
  (hcabe : tamContexto ⟨pcb, .io, none⟩ + (nombre.tam + (12 + (nombre.tam + tamanio.tam))) < 2 ^ 31)

include hm hP hint h

/-- Memory stores the line that arrives from the address of `L` on. -/
theorem atenderIoStdinRead_eq (espacio : ℕ → UInt8) (linea : Cadena) (reg : TRegistro) :
    atenderIoStdinRead { m with espacio }
        ⟨pcb.pid, direccionFisica m pcb.pid ps L, reg, linea⟩ =
      Memoria.agregarDatosAMemoria { m with espacio } linea.bytes
        (Memoria.direccionDeAcceso m ps L) pcb.pid.toNat := by
  unfold atenderIoStdinRead
  have hdir := convertirDireccion_eq hm hP hint h.tabla h.inicio
  exact congrArg (fun dir => Memoria.agregarDatosAMemoria { m with espacio } linea.bytes dir _) hdir

include hcabe

/-- A line longer than the size asked for does not stay inside it: its bytes go to as many different
addresses. -/
theorem le_of_leeDelTeclado
    (hlee : LeeDelTeclado b nombre pcb m ps L tamanio rechazos largo) :
    largo ≤ tamanioPedido tamanio := by
  obtain ⟨s, m', hs, hok, hajenos, -⟩ :=
    hlee (fun _ => 0) (lineaRepetida largo) (List.length_replicate)
  obtain ⟨-, rfl⟩ := (recorrido_eq_some_iff hcabe).1 hs
  rw [atenderIoStdinRead_eq hm hP hint h] at hok
  have hnodup := hm.propios h.tabla
  have hlargo : (lineaRepetida largo).bytes.length = largo := List.length_replicate
  -- the loop has ended, so that the line is on pages of the process
  obtain ⟨hpaginas, hdentro⟩ := dentro_of_agregarDatosAMemoria
    (m := { m with espacio := fun _ => 0 }) hP h.tabla hnodup h.inicio hok
  obtain ⟨espacio', hok', hescritos, -⟩ := Memoria.agregarDatosAMemoria_spec
    (m := { m with espacio := fun _ => 0 }) (lineaRepetida largo).bytes hP h.tabla hnodup
    h.inicio hpaginas hdentro
  rw [hlargo] at hpaginas
  obtain rfl : m' = _ := Except.ok.inj (hok.symm.trans hok')
  have hsub : (Finset.range largo).image (dirRecorrida m.tamPagina ps L) ⊆
      (Finset.range (tamanioPedido tamanio)).image fun i => dirLogica m.tamPagina ps (L + i) := by
    intro a ha
    obtain ⟨i, hi, rfl⟩ := Finset.mem_image.1 ha
    have hi' : i < (lineaRepetida largo).bytes.length := by
      rw [hlargo]
      exact Finset.mem_range.1 hi
    have hbyte := hescritos i hi'
    by_contra hfuera
    have hcero := hajenos (dirRecorrida m.tamPagina ps L i) fun j hj heq =>
      hfuera (Finset.mem_image.2 ⟨j, Finset.mem_range.2 hj, heq.symm⟩)
    have huno : (lineaRepetida largo).bytes[i] = 97 := List.getElem_replicate _
    have hdistintos := hbyte.symm.trans hcero
    rw [huno] at hdistintos
    exact absurd hdistintos (by decide)
  calc largo = ((Finset.range largo).image (dirRecorrida m.tamPagina ps L)).card := by
        rw [Finset.card_image_of_injOn, Finset.card_range]
        intro i hi j hj heq
        exact Memoria.dirRecorrida_inj hP hnodup hpaginas (Finset.mem_range.1 hi)
          (Finset.mem_range.1 hj) heq
    _ ≤ _ := Finset.card_le_card hsub
    _ ≤ tamanioPedido tamanio := by
        refine Finset.card_image_le.trans ?_
        rw [Finset.card_range]

/-- A line that fits in the size is stored in the bytes asked for only where the loop goes through
them in order: a character that differs from the others is found where the loop put it. -/
theorem dirRecorrida_of_leeDelTeclado (hlargo : largo ≤ tamanioPedido tamanio)
    (hlee : LeeDelTeclado b nombre pcb m ps L tamanio rechazos largo) {i : ℕ} (hi : i < largo) :
    dirRecorrida m.tamPagina ps L i = dirLogica m.tamPagina ps (L + i) := by
  have hlen : (lineaMarcada largo i).bytes.length = largo := by simp [lineaMarcada]
  obtain ⟨s, m', hs, hok, -, hlogica⟩ := hlee (fun _ => 0) (lineaMarcada largo i) hlen
  obtain ⟨-, rfl⟩ := (recorrido_eq_some_iff hcabe).1 hs
  rw [atenderIoStdinRead_eq hm hP hint h] at hok
  obtain ⟨hpaginas, hdentro⟩ := dentro_of_agregarDatosAMemoria
    (m := { m with espacio := fun _ => 0 }) hP h.tabla (hm.propios h.tabla) h.inicio hok
  obtain ⟨espacio', hok', hescritos, hajenos⟩ := Memoria.agregarDatosAMemoria_spec
    (m := { m with espacio := fun _ => 0 }) (lineaMarcada largo i).bytes hP h.tabla
    (hm.propios h.tabla) h.inicio hpaginas hdentro
  obtain rfl : m' = _ := Except.ok.inj (hok.symm.trans hok')
  have hmarca : espacio' (dirLogica m.tamPagina ps (L + i)) = 98 := by
    refine (hlogica i (by omega) (by omega)).trans ?_
    simp [lineaMarcada]
  by_contra hne
  have hotro : espacio' (dirLogica m.tamPagina ps (L + i)) ≠ 98 := by
    by_cases halgo : ∃ j < largo, dirLogica m.tamPagina ps (L + i) = dirRecorrida m.tamPagina ps L j
    · obtain ⟨j, hj, heq⟩ := halgo
      have hij : i ≠ j := by
        rintro rfl
        exact hne heq.symm
      rw [heq]
      refine (hescritos j (by omega)).trans_ne ?_
      simp [lineaMarcada, hij]
    · refine (hajenos _ fun j hj heq => halgo ⟨j, by omega, heq⟩).trans_ne ?_
      exact (show (0 : UInt8) ≠ 98 by decide)
  exact hotro hmarca

end Memoria

/-- **Which lines are stored in the bytes asked for, and nowhere else**: those that are not longer
than the size, when the access of the line starts at a page boundary or its pages are in consecutive
frames, and whose message fits in a buffer. -/
theorem leeDelTeclado_iff {b : Basura} {nombre : Cadena} {pcb : Pcb} {m : Memoria.Estado}
    {ps : List ℕ} {L : ℕ} {tamanio : TRegistro} {rechazos largo : ℕ} (hm : Coherente m)
    (hP : 0 < m.tamPagina) (hint : m.cantidadDePaginas * m.tamPagina < 2 ^ 31)
    (h : AccesoValido m pcb.pid.toNat ps L (tamanioPedido tamanio))
    (hcabe : tamContexto ⟨pcb, .io, none⟩ + (nombre.tam + (12 + (nombre.tam + tamanio.tam)))
      < 2 ^ 31) :
    LeeDelTeclado b nombre pcb m ps L tamanio rechazos largo ↔
      largo ≤ tamanioPedido tamanio ∧ MarcosConsecutivos m.tamPagina ps L largo ∧
        4 + (12 + ((registroDelNombre nombre).tam + (4 + (largo + 1)))) < 2 ^ 31 := by
  constructor
  · intro hlee
    have hlargo := le_of_leeDelTeclado hm hP hint h hcabe hlee
    refine ⟨hlargo, (Memoria.dirRecorrida_eq_iff hP).1 fun i hi =>
      dirRecorrida_of_leeDelTeclado hm hP hint h hcabe hlargo hlee hi, ?_⟩
    have hlen : (lineaRepetida largo).strlen = largo := List.length_replicate
    obtain ⟨s, -, hs, -⟩ := hlee (fun _ => 0) (lineaRepetida largo) hlen
    have hentra := ((recorrido_eq_some_iff hcabe).1 hs).1
    rwa [Cadena.tam, hlen] at hentra
  · rintro ⟨hlargo, hmarcos, hentra⟩ espacio linea rfl
    have hacceso : AccesoValido m pcb.pid.toNat ps L linea.strlen :=
      ⟨h.tabla, h.inicio, (Nat.add_le_add_left hlargo L).trans h.fin⟩
    have hexacto := (Memoria.escribeExacto_iff hm hP hacceso).2
      ((Memoria.dirRecorrida_eq_iff hP).2 hmarcos)
    obtain ⟨espacio', hok, hescritos, hajenos⟩ := hexacto espacio linea.bytes rfl
    refine ⟨_, { m with espacio := espacio' }, (recorrido_eq_some_iff hcabe).2 ⟨hentra, rfl⟩, ?_,
      ?_, fun i hi _ => hescritos i hi⟩
    · rw [atenderIoStdinRead_eq hm hP hint h]
      exact hok
    · intro a ha
      exact hajenos a fun i hi => ha i (lt_of_lt_of_le hi hlargo)

/-! ### Two lines -/

theorem sinNulo_teclado : (0 : UInt8) ∉ [84, 69, 67, 76, 65, 68, 79] := by
  decide

/-- The name `TECLADO`. -/
def teclado : Cadena := ⟨[84, 69, 67, 76, 65, 68, 79], sinNulo_teclado⟩

/-- A line of five characters, for a size of ten, after one rejection. -/
theorem leeDelTeclado_cinco :
    LeeDelTeclado ⟨0, 0, 0, 0⟩ teclado pcbConRecursos Memoria.programaSinExit [0] 4 (.registro8 10)
      1 5 :=
  (leeDelTeclado_iff Memoria.coherente_programaSinExit (by decide) (by decide)
    ⟨by decide, by decide, by decide⟩ (by decide)).2
    ⟨by decide, Or.inr fun j hj hlt => absurd (show j * 16 < 4 + 5 from hlt) (by
      have : 0 < j := hj
      omega), by decide⟩

/-- A line of ten characters, for a size of four, is stored whole. -/
theorem teclado_desborda :
    ¬∀ (b : Basura) (nombre : Cadena) (pcb : Pcb) (m : Memoria.Estado) (ps : List ℕ) (L : ℕ)
      (tamanio : TRegistro) (rechazos largo : ℕ), Coherente m → 0 < m.tamPagina →
      m.cantidadDePaginas * m.tamPagina < 2 ^ 31 →
      AccesoValido m pcb.pid.toNat ps L (tamanioPedido tamanio) →
      tamContexto ⟨pcb, .io, none⟩ + (nombre.tam + (12 + (nombre.tam + tamanio.tam))) < 2 ^ 31 →
      LeeDelTeclado b nombre pcb m ps L tamanio rechazos largo := by
  intro h
  have hcabe : tamContexto ⟨pcbConRecursos, .io, none⟩ +
      (teclado.tam + (12 + (teclado.tam + (TRegistro.registro8 4).tam))) < 2 ^ 31 := by decide
  have hacceso : AccesoValido Memoria.programaSinExit pcbConRecursos.pid.toNat [0] 0
      (tamanioPedido (.registro8 4)) := ⟨by decide, by decide, by decide⟩
  have hlee := h ⟨0, 0, 0, 0⟩ teclado pcbConRecursos Memoria.programaSinExit [0] 0 (.registro8 4) 0
    10 Memoria.coherente_programaSinExit (by decide) (by decide) hacceso hcabe
  exact absurd (le_of_leeDelTeclado Memoria.coherente_programaSinExit (by decide) (by decide)
    hacceso hcabe hlee) (by decide)

end Teclado
