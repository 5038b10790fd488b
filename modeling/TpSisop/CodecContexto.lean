/-
**The wire format of processes and execution contexts.**

A packet is a buffer that `agregar_var_a_paquete` extends field by field; its receiver walks the
buffer with a running offset.  Integers are little-endian, a string is its length with the final
NUL followed by its bytes, a missing string is the length zero, and a list is its length followed by
its elements.

Main definitions:

* `Codec.Cadena`, `Codec.aCadena` — C strings, and the string a pointer into a buffer stands for;
* `Codec.Paquete`, `Codec.empaquetar` — packets;
* `Codec.Pcb`, `Codec.serializarPaquetePcb`, `Codec.deserializarPaquetePcb`;
* `Codec.ContextoDeEjecucion`, `Codec.serializarContextoEjecucion`,
  `Codec.deserializarContextoEjecucion`.

Main results:

* `Codec.pcb_fiel`, `Codec.contexto_fiel` — what is written is what is read back;
* `Codec.contexto_ida_y_vuelta` — round trips of both, with the bytes they consume.
-/

import TpSisop.Codificacion
import TpSisop.KernelEstado

set_option relaxedAutoImplicit false
set_option autoImplicit false

namespace Codec

open Codificacion (Lector Lee Gasta agregar leer valor littleEndian repetir exigido)
open Kernel (EstadoCode)

/-- The size of a buffer is an `int`. -/
abbrev Escritor := Codificacion.Escritor (2 ^ 31)

/-- The sizes of strings and lists are counted with 32 bits. -/
abbrev Fiel {α : Type} (w : Escritor) (l : Lector α) (a : α) (n : ℕ) : Prop :=
  Codificacion.Fiel (2 ^ 32) w l a n

/-! ### Integers -/

/-- `agregar_var_a_paquete`.  The size arrives as an `int`: one from `2 ^ 31` on is negative, and no
buffer has room for it. -/
def agregarVarAPaquete (bytes : List UInt8) (tamanio : ℕ) : Escritor :=
  agregar (bytes.take (tamanio % 2 ^ 32))

def agregarUint8 (x : UInt8) : Escritor := agregarVarAPaquete [x] 1

def agregarUint32 (x : UInt32) : Escritor := agregarVarAPaquete (littleEndian 4 x.toNat) 4

def agregarInt64 (x : Int64) : Escritor := agregarVarAPaquete (littleEndian 8 x.toUInt64.toNat) 8

def deserializarUint8 : Lector UInt8 := do return UInt8.ofNat (valor (← leer 1))

def deserializarUint32 : Lector UInt32 := do return UInt32.ofNat (valor (← leer 4))

def deserializarInt64 : Lector Int64 := do return (UInt64.ofNat (valor (← leer 8))).toInt64

/-- Bytes whose number fits in 32 bits are written whole. -/
theorem agregarVarAPaquete_escribe (bytes : List UInt8) (h : bytes.length < 2 ^ 32) :
    Codificacion.Escribe (agregarVarAPaquete bytes bytes.length) bytes := by
  rw [agregarVarAPaquete, Nat.mod_eq_of_lt h, List.take_length]
  exact Codificacion.Escribe.agregar bytes

theorem entero_lee {α : Type} (bs : List UInt8) (g : ℕ → α) :
    Lee (do return g (valor (← leer bs.length))) bs (g (valor bs)) :=
  (Lee.leer bs).devuelto (Lee.nada _)

/-- A field of `k` bytes, read back as the number it stands for. -/
theorem entero_fiel {α : Type} (k n : ℕ) (g : ℕ → α) (hn : n < 256 ^ k) :
    Fiel (agregarVarAPaquete (littleEndian k n) k) (do return g (valor (← leer k))) (g n) k := by
  intro hk
  have hlen := Codificacion.littleEndian_length k n
  have hval := Codificacion.valor_littleEndian_of_lt hn
  have hw := agregarVarAPaquete_escribe (littleEndian k n) (by omega)
  have hl := entero_lee (littleEndian k n) g
  rw [hlen] at hw hl
  rw [hval] at hl
  exact ⟨_, hlen, hw, hl⟩

theorem uint8_lee (b : UInt8) : Lee deserializarUint8 [b] b := by
  have h := entero_lee [b] UInt8.ofNat
  have hval : UInt8.ofNat (valor [b]) = b := by rw [valor, valor, Nat.mul_zero]; exact b.ofNat_toNat
  rwa [hval] at h

/-- Any four bytes are a number. -/
theorem uint32_lee (bs : List UInt8) (h : bs.length = 4) :
    Lee deserializarUint32 bs (UInt32.ofNat (valor bs)) := by
  have hl := entero_lee bs UInt32.ofNat
  rwa [h] at hl

theorem uint8_fiel (x : UInt8) : Fiel (agregarUint8 x) deserializarUint8 x 1 := by
  have h := entero_fiel 1 x.toNat UInt8.ofNat x.toNat_lt
  rwa [UInt8.ofNat_toNat, littleEndian, littleEndian, UInt8.ofNat_toNat] at h

theorem uint32_fiel (x : UInt32) : Fiel (agregarUint32 x) deserializarUint32 x 4 := by
  have h := entero_fiel 4 x.toNat UInt32.ofNat x.toNat_lt
  rwa [UInt32.ofNat_toNat] at h

theorem int64_fiel (x : Int64) : Fiel (agregarInt64 x) deserializarInt64 x 8 := by
  have h := entero_fiel 8 x.toUInt64.toNat (fun n => (UInt64.ofNat n).toInt64) x.toUInt64.toNat_lt
  rwa [UInt64.ofNat_toNat, Int64.toInt64_toUInt64] at h

theorem entero_gasta {α : Type} (k : ℕ) (g : ℕ → α) :
    Gasta (do return g (valor (← leer k))) fun _ n => n = k := by
  refine (Gasta.leer k).seguido fun bs n hn => Gasta.nada ?_
  exact hn.1

theorem uint8_gasta : Gasta deserializarUint8 fun _ n => n = 1 := entero_gasta 1 UInt8.ofNat

theorem uint32_gasta : Gasta deserializarUint32 fun _ n => n = 4 := entero_gasta 4 UInt32.ofNat

theorem int64_gasta : Gasta deserializarInt64 fun _ n => n = 8 :=
  entero_gasta 8 fun n => (UInt64.ofNat n).toInt64

/-! ### Strings -/

/-- A C string: the bytes before its final NUL. -/
structure Cadena where
  bytes : List UInt8
  sinNulo : 0 ∉ bytes
  deriving DecidableEq

namespace Cadena

def strlen (c : Cadena) : ℕ := c.bytes.length

/-- The bytes in memory. -/
def conNulo (c : Cadena) : List UInt8 := c.bytes ++ [0]

@[simp] theorem conNulo_length (c : Cadena) : c.conNulo.length = c.strlen + 1 := by
  simp [conNulo, strlen]

/-- The size of a string in a packet, with its length. -/
def tam (c : Cadena) : ℕ := 4 + (c.strlen + 1)

end Cadena

theorem nulo_notMem_takeWhile (bs : List UInt8) : 0 ∉ bs.takeWhile (· ≠ 0) := by
  intro h
  have hall := List.all_eq_true.mp (List.all_takeWhile (p := fun b : UInt8 => b ≠ 0) (l := bs)) 0 h
  simp at hall

/-- The string that a pointer to these bytes stands for; `none` if it has no NUL. -/
def aCadena (bs : List UInt8) : Option Cadena :=
  if 0 ∈ bs then some ⟨bs.takeWhile (· ≠ 0), nulo_notMem_takeWhile bs⟩ else none

@[simp] theorem aCadena_conNulo (c : Cadena) : aCadena c.conNulo = some c := by
  have hmem : (0 : UInt8) ∈ c.conNulo := by simp [Cadena.conNulo]
  have hall : ∀ b ∈ c.bytes, decide (b ≠ 0) = true := by
    intro b hb
    rw [decide_eq_true_eq]
    rintro rfl
    exact c.sinNulo hb
  have htake : c.conNulo.takeWhile (· ≠ 0) = c.bytes := by
    rw [Cadena.conNulo, List.takeWhile_append_of_pos hall]
    simp
  simp only [aCadena, hmem, if_true, htake]

theorem strlen_lt_of_aCadena {bs : List UInt8} {c : Cadena} (h : aCadena bs = some c) :
    c.strlen + 1 ≤ bs.length := by
  unfold aCadena at h
  split at h
  case isTrue hmem =>
    obtain rfl := Option.some.inj h
    have hpre := List.takeWhile_prefix (l := bs) (fun b : UInt8 => b ≠ 0)
    refine Nat.lt_of_le_of_ne hpre.length_le fun heq => ?_
    have hself := hpre.eq_of_length heq
    exact nulo_notMem_takeWhile bs (by rwa [hself])
  case isFalse => cases h

/-- A string with its length in front. -/
def agregarCadena (c : Cadena) : Escritor := do
  let tamanio := UInt32.ofNat (c.strlen + 1)
  agregarUint32 tamanio
  agregarVarAPaquete c.conNulo tamanio.toNat

/-- `deserializar_char`; a size that would be negative as an `int` is past the end of every
buffer. -/
def deserializarChar (tamanio : UInt32) : Lector (List UInt8) := leer tamanio.toNat

/-- `deserializar_uint32` and `deserializar_char`, and the string at the address they leave. -/
def deserializarCadena : Lector Cadena := do
  let tamanio ← deserializarUint32
  let bs ← deserializarChar tamanio
  exigido (aCadena bs)

/-- A string that may be `NULL`. -/
def agregarCadenaONull : Option Cadena → Escritor
  | some c => agregarCadena c
  | none => agregarUint32 0

def deserializarCadenaONull : Lector (Option Cadena) := do
  let tamanio ← deserializarUint32
  if tamanio.toNat > 0 then do
    let bs ← deserializarChar tamanio
    return some (← exigido (aCadena bs))
  else return none

def tamCadenaONull : Option Cadena → ℕ
  | some c => c.tam
  | none => 4

theorem strlen_toNat {c : Cadena} (h : c.strlen + 1 < 2 ^ 32) :
    (UInt32.ofNat (c.strlen + 1)).toNat = c.conNulo.length := by
  rw [UInt32.toNat_ofNat', Cadena.conNulo_length]
  exact Nat.mod_eq_of_lt h

/-- The bytes of a string whose length was written before. -/
theorem char_fiel (c : Cadena) :
    Fiel (agregarVarAPaquete c.conNulo (UInt32.ofNat (c.strlen + 1)).toNat)
      (deserializarChar (UInt32.ofNat (c.strlen + 1)) >>= fun bs => exigido (aCadena bs)) c
      (c.strlen + 1) := by
  intro h
  have hread : Lee (deserializarChar (UInt32.ofNat (c.strlen + 1))) c.conNulo c.conNulo := by
    rw [deserializarChar, strlen_toNat h]
    exact Lee.leer c.conNulo
  rw [strlen_toNat h]
  exact ⟨c.conNulo, c.conNulo_length, agregarVarAPaquete_escribe _ (by rwa [c.conNulo_length]),
    hread.devuelto (Lee.exigido (aCadena_conNulo c))⟩

theorem cadena_fiel (c : Cadena) : Fiel (agregarCadena c) deserializarCadena c c.tam :=
  (uint32_fiel _).seguido (char_fiel c)

theorem char_gasta (n : UInt32) : Gasta (deserializarChar n) fun bs m => bs.length = m := by
  refine (Gasta.leer n.toNat).mono fun bs k hk => ?_
  omega

theorem cadena_gasta : Gasta deserializarCadena fun c n => c.tam ≤ n := by
  refine uint32_gasta.seguido fun _ n hn => (char_gasta _).seguido fun bs m hm => ?_
  refine Gasta.exigido fun c hc => ?_
  have := strlen_lt_of_aCadena hc
  unfold Cadena.tam
  omega

/-- A missing string and an empty one are told apart by their lengths, 0 and 1. -/
theorem cadenaONull_fiel (o : Option Cadena) :
    Fiel (agregarCadenaONull o) deserializarCadenaONull o (tamCadenaONull o) := by
  cases o with
  | none => exact (uint32_fiel 0).devuelto (Lee.nada none)
  | some c =>
      refine (uint32_fiel _).seguido fun h => ?_
      have hpos : (UInt32.ofNat (c.strlen + 1)).toNat > 0 := by
        rw [strlen_toNat h, Cadena.conNulo_length]
        exact Nat.succ_pos _
      rw [if_pos hpos]
      have hc := (char_fiel c).devuelto (f := fun c => pure (some c)) (Lee.nada _)
      rw [bind_assoc] at hc
      exact hc h

theorem cadenaONull_gasta : Gasta deserializarCadenaONull fun o n => tamCadenaONull o ≤ n := by
  refine uint32_gasta.seguido fun tamanio n hn => ?_
  split
  · refine (char_gasta _).seguido fun bs m hm => ?_
    refine (Gasta.exigido (R := fun c k => k = 0 ∧ c.strlen + 1 ≤ bs.length) fun c hc =>
      ⟨rfl, strlen_lt_of_aCadena hc⟩).seguido fun c k hk => Gasta.nada ?_
    simp only [tamCadenaONull, Cadena.tam]
    omega
  · refine Gasta.nada ?_
    simp only [tamCadenaONull]
    omega

/-! ### Registers -/

/-- `serializar_registros`. -/
def serializarRegistros (r : Cpu.Registros) : Escritor := do
  agregarUint8 r.ax
  agregarUint8 r.bx
  agregarUint8 r.cx
  agregarUint8 r.dx
  agregarUint32 r.eax
  agregarUint32 r.ebx
  agregarUint32 r.ecx
  agregarUint32 r.edx
  agregarUint32 r.si
  agregarUint32 r.di
  agregarUint32 r.pc

/-- `deserializar_registros`. -/
def deserializarRegistros : Lector Cpu.Registros := do
  let ax ← deserializarUint8
  let bx ← deserializarUint8
  let cx ← deserializarUint8
  let dx ← deserializarUint8
  let eax ← deserializarUint32
  let ebx ← deserializarUint32
  let ecx ← deserializarUint32
  let edx ← deserializarUint32
  let si ← deserializarUint32
  let di ← deserializarUint32
  let pc ← deserializarUint32
  return { pc, ax, bx, cx, dx, eax, ebx, ecx, edx, si, di }

theorem registros_fiel (r : Cpu.Registros) :
    Fiel (serializarRegistros r) deserializarRegistros r 32 := by
  refine Codificacion.Fiel.deTamanio ?_
    (rfl : 1 + (1 + (1 + (1 + (4 + (4 + (4 + (4 + (4 + (4 + 4))))))))) = 32)
  refine (uint8_fiel r.ax).seguido ?_
  refine (uint8_fiel r.bx).seguido ?_
  refine (uint8_fiel r.cx).seguido ?_
  refine (uint8_fiel r.dx).seguido ?_
  refine (uint32_fiel r.eax).seguido ?_
  refine (uint32_fiel r.ebx).seguido ?_
  refine (uint32_fiel r.ecx).seguido ?_
  refine (uint32_fiel r.edx).seguido ?_
  refine (uint32_fiel r.si).seguido ?_
  refine (uint32_fiel r.di).seguido ?_
  exact (uint32_fiel r.pc).devuelto (Lee.nada r)

theorem registros_gasta : Gasta deserializarRegistros fun _ n => n = 32 := by
  refine uint8_gasta.seguido fun _ n₁ h₁ => uint8_gasta.seguido fun _ n₂ h₂ => ?_
  refine uint8_gasta.seguido fun _ n₃ h₃ => uint8_gasta.seguido fun _ n₄ h₄ => ?_
  refine uint32_gasta.seguido fun _ n₅ h₅ => uint32_gasta.seguido fun _ n₆ h₆ => ?_
  refine uint32_gasta.seguido fun _ n₇ h₇ => uint32_gasta.seguido fun _ n₈ h₈ => ?_
  refine uint32_gasta.seguido fun _ n₉ h₉ => uint32_gasta.seguido fun _ n₁₀ h₁₀ => ?_
  refine uint32_gasta.seguido fun _ n₁₁ h₁₁ => Gasta.nada ?_
  omega

/-! ### Processes -/

/-- The number of an `estado_code`, an enumeration. -/
def codigoEstado : EstadoCode → UInt32
  | .new => 0
  | .ready => 1
  | .exec => 2
  | .blocked => 3
  | .exitt => 4
  | .error => 5
  | .readyAux => 6

/-- The state a number stands for; a number past the last one is no state. -/
def estadoDe : UInt32 → Option EstadoCode
  | 0 => some .new
  | 1 => some .ready
  | 2 => some .exec
  | 3 => some .blocked
  | 4 => some .exitt
  | 5 => some .error
  | 6 => some .readyAux
  | _ => none

@[simp] theorem estadoDe_codigoEstado (e : EstadoCode) : estadoDe (codigoEstado e) = some e := by
  cases e <;> rfl

/-- `t_pcb` with the types of its fields in memory, less its mutex. -/
structure Pcb where
  pid : UInt32
  pc : UInt32
  quantum : Int64
  registros : Cpu.Registros
  recursosTomados : List Cadena
  recursoEsperando : Option Cadena
  estado : EstadoCode
  tiempoInicial : Int64
  deriving DecidableEq

/-- The fields of a process, as `serializar_paquete_pcb` writes them.  The loop runs up to a
32-bit count of the list. -/
def serializarPcb (pcb : Pcb) : Escritor := do
  agregarUint32 pcb.pc
  agregarUint32 pcb.pid
  agregarInt64 pcb.quantum
  serializarRegistros pcb.registros
  agregarCadenaONull pcb.recursoEsperando
  let cantidadRecursos := UInt32.ofNat pcb.recursosTomados.length
  agregarUint32 cantidadRecursos
  (pcb.recursosTomados.take cantidadRecursos.toNat).forM agregarCadena
  agregarUint32 (codigoEstado pcb.estado)
  agregarInt64 pcb.tiempoInicial

/-- `deserializar_paquete_pcb`. -/
def deserializarPaquetePcb : Lector Pcb := do
  let pc ← deserializarUint32
  let pid ← deserializarUint32
  let quantum ← deserializarInt64
  let registros ← deserializarRegistros
  let recursoEsperando ← deserializarCadenaONull
  let cantidadRecursos ← deserializarUint32
  let recursosTomados ← repetir deserializarCadena cantidadRecursos.toNat
  let codigo ← deserializarUint32
  let estado ← exigido (estadoDe codigo)
  let tiempoInicial ← deserializarInt64
  return { pid, pc, quantum, registros, recursosTomados, recursoEsperando, estado, tiempoInicial }

/-- The size of the list of resources, less its length. -/
def tamRecursos (recursos : List Cadena) : ℕ := (recursos.map Cadena.tam).sum

def tamPcb (pcb : Pcb) : ℕ :=
  4 + (4 + (8 + (32 + (tamCadenaONull pcb.recursoEsperando +
    (4 + (tamRecursos pcb.recursosTomados + (4 + 8)))))))

/-- Every resource takes bytes, so a list that does not fit in its count does not fit in a
buffer. -/
theorem length_le_tamRecursos (recursos : List Cadena) :
    recursos.length ≤ tamRecursos recursos := by
  induction recursos with
  | nil => exact Nat.le_refl 0
  | cons c cs ih =>
      simp only [tamRecursos, List.map_cons, List.sum_cons, List.length_cons] at ih ⊢
      have : 1 ≤ c.tam := by unfold Cadena.tam; omega
      omega

theorem pcb_fiel (pcb : Pcb) :
    Fiel (serializarPcb pcb) deserializarPaquetePcb pcb (tamPcb pcb) := by
  intro h
  have hcount : (UInt32.ofNat pcb.recursosTomados.length).toNat = pcb.recursosTomados.length := by
    have hle := length_le_tamRecursos pcb.recursosTomados
    rw [UInt32.toNat_ofNat']
    exact Nat.mod_eq_of_lt (by unfold tamPcb at h; omega)
  have hlist := Codificacion.Fiel.repetido cadena_fiel pcb.recursosTomados
  revert h
  refine (uint32_fiel pcb.pc).seguido ?_
  refine (uint32_fiel pcb.pid).seguido ?_
  refine (int64_fiel pcb.quantum).seguido ?_
  refine (registros_fiel pcb.registros).seguido ?_
  refine (cadenaONull_fiel pcb.recursoEsperando).seguido ?_
  refine (uint32_fiel _).seguido ?_
  rw [hcount, List.take_length]
  refine hlist.seguido ?_
  refine (uint32_fiel (codigoEstado pcb.estado)).seguido ?_
  rw [estadoDe_codigoEstado, Codificacion.exigido_some_bind]
  exact (int64_fiel pcb.tiempoInicial).devuelto (Lee.nada pcb)

theorem pcb_gasta : Gasta deserializarPaquetePcb fun pcb n => tamPcb pcb ≤ n := by
  refine uint32_gasta.seguido fun pc n₁ h₁ => uint32_gasta.seguido fun pid n₂ h₂ => ?_
  refine int64_gasta.seguido fun quantum n₃ h₃ => registros_gasta.seguido fun r n₄ h₄ => ?_
  refine cadenaONull_gasta.seguido fun recurso n₅ h₅ => uint32_gasta.seguido fun k n₆ h₆ => ?_
  refine (cadena_gasta.repetir k.toNat).seguido fun recursos n₇ h₇ => ?_
  refine uint32_gasta.seguido fun codigo n₈ h₈ => ?_
  refine (Gasta.exigido (R := fun _ m => m = 0) fun _ _ => rfl).seguido fun estado n₉ h₉ => ?_
  refine int64_gasta.seguido fun tiempo n₁₀ h₁₀ => Gasta.nada ?_
  simp only [tamPcb, tamRecursos]
  omega

/-! ### Execution contexts -/

/-- `motivo_desalojo`. -/
inductive MotivoDesalojo
  | interrupcion
  | terminarProceso
  | motivoWait
  | motivoSignal
  | io
  | outOfMemoryError
  deriving DecidableEq, Repr

/-- The number of a `motivo_desalojo`, an enumeration. -/
def codigoMotivo : MotivoDesalojo → UInt32
  | .interrupcion => 0
  | .terminarProceso => 1
  | .motivoWait => 2
  | .motivoSignal => 3
  | .io => 4
  | .outOfMemoryError => 5

/-- The motive a number stands for. -/
def motivoDe : UInt32 → Option MotivoDesalojo
  | 0 => some .interrupcion
  | 1 => some .terminarProceso
  | 2 => some .motivoWait
  | 3 => some .motivoSignal
  | 4 => some .io
  | 5 => some .outOfMemoryError
  | _ => none

@[simp] theorem motivoDe_codigoMotivo (m : MotivoDesalojo) :
    motivoDe (codigoMotivo m) = some m := by
  cases m <;> rfl

/-- `t_contexto_de_ejecucion`. -/
structure ContextoDeEjecucion where
  pcbEjecutado : Pcb
  motivoDesalojo : MotivoDesalojo
  recurso : Option Cadena
  deriving DecidableEq

/-- The fields of a context, as `serializar_contexto_ejecucion` writes them. -/
def serializarContexto (cde : ContextoDeEjecucion) : Escritor := do
  serializarPcb cde.pcbEjecutado
  agregarUint32 (codigoMotivo cde.motivoDesalojo)
  agregarCadenaONull cde.recurso

/-- The body of `deserializar_contexto_ejecucion`, from its offset on. -/
def deserializarContexto : Lector ContextoDeEjecucion := do
  let pcbEjecutado ← deserializarPaquetePcb
  let codigo ← deserializarUint32
  let motivoDesalojo ← exigido (motivoDe codigo)
  let recurso ← deserializarCadenaONull
  return { pcbEjecutado, motivoDesalojo, recurso }

def tamContexto (cde : ContextoDeEjecucion) : ℕ :=
  tamPcb cde.pcbEjecutado + (4 + tamCadenaONull cde.recurso)

theorem contexto_fiel (cde : ContextoDeEjecucion) :
    Fiel (serializarContexto cde) deserializarContexto cde (tamContexto cde) := by
  refine (pcb_fiel cde.pcbEjecutado).seguido ?_
  refine (uint32_fiel (codigoMotivo cde.motivoDesalojo)).seguido ?_
  rw [motivoDe_codigoMotivo, Codificacion.exigido_some_bind]
  exact (cadenaONull_fiel cde.recurso).devuelto (Lee.nada cde)

theorem contexto_gasta : Gasta deserializarContexto fun cde n => tamContexto cde ≤ n := by
  refine pcb_gasta.seguido fun pcb n₁ h₁ => uint32_gasta.seguido fun codigo n₂ h₂ => ?_
  refine (Gasta.exigido (R := fun _ m => m = 0) fun _ _ => rfl).seguido fun motivo n₃ h₃ => ?_
  refine cadenaONull_gasta.seguido fun recurso n₄ h₄ => Gasta.nada ?_
  simp only [tamContexto]
  omega

/-! ### Packets -/

/-- The `op_code`s of the packets that are modelled. -/
inductive OpCode
  | enviarPcb
  | enviarContextoEjecucion
  | instruccion (operacion : Kernel.OperacionIo)
  | ejecutar (operacion : Kernel.OperacionIo)
  | ioOcupada (operacion : Kernel.OperacionIo)
  deriving DecidableEq, Repr

/-- `t_paquete`. -/
structure Paquete where
  codigoOperacion : OpCode
  buffer : Codificacion.Buffer (2 ^ 31)

/-- `crear_buffer`. -/
def crearBuffer : Codificacion.Buffer (2 ^ 31) := ⟨[], by decide⟩

/-- `crear_paquete` over an empty buffer, and the calls that fill it. -/
def empaquetar (codigoOperacion : OpCode) (w : Escritor) : Option Paquete :=
  (w crearBuffer).map fun r => { codigoOperacion, buffer := r.2 }

/-- `serializar_paquete_pcb`. -/
def serializarPaquetePcb (pcb : Pcb) : Option Paquete := empaquetar .enviarPcb (serializarPcb pcb)

/-- `serializar_contexto_ejecucion`. -/
def serializarContextoEjecucion (pcb : Pcb) (motivo : MotivoDesalojo) (recurso : Option Cadena) :
    Option Paquete :=
  empaquetar .enviarContextoEjecucion (serializarContexto ⟨pcb, motivo, recurso⟩)

/-- `deserializar_contexto_ejecucion`: the context, and the number of bytes it took. -/
def deserializarContextoEjecucion (stream : List UInt8) : Option (ContextoDeEjecucion × ℕ) :=
  deserializarContexto stream 0

/-- A packet holds the bytes that its writer writes, if they fit. -/
theorem empaquetar_escribe {w : Escritor} {bs : List UInt8} (hw : Codificacion.Escribe w bs)
    (h : bs.length < 2 ^ 31) (codigo : OpCode) :
    ∃ paquete, empaquetar codigo w = some paquete ∧ paquete.codigoOperacion = codigo ∧
      paquete.buffer.bytes = bs := by
  have hroom : crearBuffer.bytes.length + bs.length < 2 ^ 31 := by
    rwa [crearBuffer, List.length_nil, Nat.zero_add]
  have hp : empaquetar codigo w = some ⟨codigo, ⟨bs, h⟩⟩ := by
    rw [empaquetar, hw, Codificacion.agregar_de_caber hroom]
    rfl
  exact ⟨_, hp, rfl, rfl⟩

/-- A packet of what fits carries it, wherever the reader finds the bytes. -/
theorem empaquetar_fiel {α : Type} {w : Escritor} {l : Lector α} {a : α} {n : ℕ}
    (h : Fiel w l a n) (hn : n < 2 ^ 31) (codigo : OpCode) :
    ∃ paquete, empaquetar codigo w = some paquete ∧ paquete.codigoOperacion = codigo ∧
      paquete.buffer.bytes.length = n ∧ Lee l paquete.buffer.bytes a := by
  obtain ⟨bs, rfl, hw, hl⟩ := h (by omega)
  obtain ⟨paquete, hp, hcod, rfl⟩ := empaquetar_escribe hw hn codigo
  exact ⟨paquete, hp, hcod, rfl, hl⟩

theorem bytes_of_empaquetar {w : Escritor} {bs : List UInt8} (hw : Codificacion.Escribe w bs)
    {codigo : OpCode} {paquete : Paquete} (h : empaquetar codigo w = some paquete) :
    paquete.buffer.bytes = bs := by
  rw [empaquetar, hw crearBuffer, Option.map_eq_some_iff] at h
  obtain ⟨r, hr, rfl⟩ := h
  exact Codificacion.bytes_of_agregar hr

/-- **Processes and execution contexts survive their wire format**: below `2 ^ 31` bytes the
packet is made, and its reader gives back the same process, motive and resource and stops at the
end of the buffer; for a process, at any offset of any stream. -/
theorem contexto_ida_y_vuelta (pcb : Pcb) (motivo : MotivoDesalojo) (recurso : Option Cadena) :
    (tamContexto ⟨pcb, motivo, recurso⟩ < 2 ^ 31 →
      ∃ paquete, serializarContextoEjecucion pcb motivo recurso = some paquete ∧
        deserializarContextoEjecucion paquete.buffer.bytes =
          some (⟨pcb, motivo, recurso⟩, paquete.buffer.bytes.length)) ∧
    (tamPcb pcb < 2 ^ 31 →
      ∃ paquete, serializarPaquetePcb pcb = some paquete ∧ ∀ antes despues,
        deserializarPaquetePcb (antes ++ paquete.buffer.bytes ++ despues) antes.length =
          some (pcb, antes.length + paquete.buffer.bytes.length)) := by
  constructor
  · intro h
    obtain ⟨paquete, hp, -, -, hl⟩ :=
      empaquetar_fiel (contexto_fiel ⟨pcb, motivo, recurso⟩) h .enviarContextoEjecucion
    refine ⟨paquete, hp, ?_⟩
    have hstart := hl [] []
    rwa [List.nil_append, List.append_nil, List.length_nil, Nat.zero_add] at hstart
  · intro h
    obtain ⟨paquete, hp, -, -, hl⟩ := empaquetar_fiel (pcb_fiel pcb) h .enviarPcb
    exact ⟨paquete, hp, hl⟩

/-- A process that holds a resource, one with an empty name and waits for none. -/
def pcbConRecursos : Pcb where
  pid := 1
  pc := 7
  quantum := -1
  registros := { pc := 7, ax := 200, ebx := 70000 }
  recursosTomados := [⟨[82, 65], by decide⟩, ⟨[], by decide⟩]
  recursoEsperando := none
  estado := .exec
  tiempoInicial := 0

theorem contexto_ida_y_vuelta_pcbConRecursos :
    (∃ paquete, serializarContextoEjecucion pcbConRecursos .motivoWait (some ⟨[82], by decide⟩) =
        some paquete ∧
      deserializarContextoEjecucion paquete.buffer.bytes =
        some (⟨pcbConRecursos, .motivoWait, some ⟨[82], by decide⟩⟩,
          paquete.buffer.bytes.length)) ∧
    ∃ paquete, serializarPaquetePcb pcbConRecursos = some paquete ∧ ∀ antes despues,
      deserializarPaquetePcb (antes ++ paquete.buffer.bytes ++ despues) antes.length =
        some (pcbConRecursos, antes.length + paquete.buffer.bytes.length) :=
  ⟨(contexto_ida_y_vuelta pcbConRecursos .motivoWait (some ⟨[82], by decide⟩)).1 (by decide),
    (contexto_ida_y_vuelta pcbConRecursos .motivoWait none).2 (by decide)⟩

end Codec
