/-
**Programs in the text of their files.**

A program is a file with an instruction on each line: a word that says which one, and its operands,
separated by blanks.  The kernel names the file, the memory module reads its lines, the CPU asks for
one line at a time, and takes its words apart to execute it.  Nobody checks a program: an operand
that is missing is a null pointer, and a word that names no instruction is an EXIT.

Here the programs are written and read back.  The CPU that shares its registers, its TLB and its
memory among all the processes fetches every instruction from the memory module, and what each
process goes through is its own program, executed on a machine of its own.

Main definitions:

* `Ensamblador.Instruccion`, `Ensamblador.Instruccion.linea` — the instructions, and their lines;
* `Ensamblador.decodificar` — what `decode` and `execute` make of the words of a line;
* `Ensamblador.Programa`, `Ensamblador.Programa.archivo` — the programs that can be written, and
  their files;
* `Ensamblador.instruccionActual`, `Ensamblador.Dictado` — the instruction that the CPU fetches;
* `Ensamblador.SegunPrograma` — a machine of one process that executes a program.

Main results:

* `Ensamblador.decodificar_linea` — every instruction is read as it was written;
* `Ensamblador.cargar_archivo` — and so is every file;
* `Ensamblador.programas_aislados` — every process executes its program as if it were alone.
-/

import TpSisop.CpuMemoria
import TpSisop.LectorArchivo
import Mathlib.Data.List.TakeWhile

set_option relaxedAutoImplicit false
set_option autoImplicit false

namespace Ensamblador

open Cpu (Registro InstruccionDecodificada EnUso Suceso Privada PasoPrivado privada)
open Memoria (IdInstruccion Pid MismosProgramas)
open LectorArchivo (Bytes Linea ParteLineas leerTexto texto salto)

/-! ### Words -/

/-- The characters of a word: those that are printed, and not blank. -/
def EsLetra (c : Char) : Prop := 32 < c.toNat ∧ c.toNat < 127

instance : DecidablePred EsLetra := fun _ => inferInstanceAs (Decidable (_ ∧ _))

/-- A word that a line may have. -/
def EsPalabra (w : String) : Prop := w.toList ≠ [] ∧ ∀ c ∈ w.toList, EsLetra c

-- Letter by letter: there is also an instance that goes through every `Char`.
instance : DecidablePred EsPalabra := fun w =>
  have : Decidable (∀ c ∈ w.toList, EsLetra c) := List.decidableBAll EsLetra w.toList
  inferInstanceAs (Decidable (_ ∧ _))

/-- The characters of a line with these words. -/
def letras : List String → List Char
  | [] => []
  | [w] => w.toList
  | w :: w' :: ws => w.toList ++ ' ' :: letras (w' :: ws)

/-- The line with these words. -/
def unir (ws : List String) : String := String.ofList (letras ws)

/-- What `string_n_split(_, 10, " ")` is documented to do with a line of at most ten words. -/
structure ParteEnPalabras (stringNSplit : String → List String) : Prop where
  palabras : ∀ ws : List String, ws ≠ [] → ws.length ≤ 10 → (∀ w ∈ ws, EsPalabra w) →
    stringNSplit (unir ws) = ws

section Palabras

variable {w : String} {ws : List String}

@[simp] theorem toList_unir (ws : List String) : (unir ws).toList = letras ws := by
  rw [unir, String.toList_ofList]

theorem EsLetra.ne_blanco {c : Char} (h : EsLetra c) : c ≠ ' ' := by
  rintro rfl
  exact absurd h.1 (by decide)

theorem EsPalabra.blanco_notMem (h : EsPalabra w) : ' ' ∉ w.toList := by
  intro hblanco
  exact (h.2 ' ' hblanco).ne_blanco rfl

/-- A line has characters of words and blanks. -/
theorem mem_letras {c : Char} (hws : ∀ w ∈ ws, EsPalabra w) (hc : c ∈ letras ws) :
    EsLetra c ∨ c = ' ' := by
  induction ws using letras.induct with
  | case1 => cases hc
  | case2 w => exact .inl ((hws w List.mem_cons_self).2 c hc)
  | case3 w w' ws ih =>
      rw [letras, List.mem_append, List.mem_cons] at hc
      rcases hc with hc | rfl | hc
      · exact .inl ((hws w List.mem_cons_self).2 c hc)
      · exact .inr rfl
      · exact ih (fun v hv => hws v (List.mem_cons_of_mem w hv)) hc

theorem letras_ne_nil (hw : EsPalabra w) (ws : List String) : letras (w :: ws) ≠ [] := by
  cases ws with
  | nil => exact hw.1
  | cons w' ws => simp [letras]

/-- The first word of a line. -/
theorem takeWhile_letras (hw : EsPalabra w) (ws : List String) :
    ((letras (w :: ws)).dropWhile (· = ' ')).takeWhile (· ≠ ' ') = w.toList := by
  have htodas : ∀ c ∈ w.toList, decide (c ≠ ' ') = true := by
    intro c hc
    exact decide_eq_true (hw.2 c hc).ne_blanco
  obtain ⟨c, cs, hcs⟩ := List.exists_cons_of_ne_nil hw.1
  have hc : c ≠ ' ' := (hw.2 c (by rw [hcs]; exact List.mem_cons_self)).ne_blanco
  have hdrop : ∀ resto, (w.toList ++ resto).dropWhile (· = ' ') = w.toList ++ resto := by
    intro resto
    rw [hcs, List.cons_append, List.dropWhile_cons_of_neg (by simpa using hc)]
  cases ws with
  | nil =>
      have hvacio := hdrop []
      rw [List.append_nil] at hvacio
      rw [letras, hvacio, List.takeWhile_eq_self_iff.2 htodas]
  | cons w' ws =>
      rw [letras, hdrop, List.takeWhile_append_of_pos htodas]
      simp

/-- `obtener_sentencia` answers it. -/
theorem obtenerSentencia_unir (hw : EsPalabra w) (ws : List String) :
    Memoria.obtenerSentencia (unir (w :: ws)) = .ok w := by
  rw [Memoria.obtenerSentencia, toList_unir, takeWhile_letras hw]
  split
  · rename_i hnil
    exact absurd hnil hw.1
  · rw [String.ofList_toList]

end Palabras

/-! ### Numbers -/

/-- How a number is written. -/
def decimal : ℤ → String
  | .ofNat n => String.ofList (Nat.toDigits 10 n)
  | .negSucc n => String.ofList ('-' :: Nat.toDigits 10 (n + 1))

/-- `isspace`. -/
def esEspacio (c : Char) : Bool := c = ' ' || (9 ≤ c.toNat && c.toNat ≤ 13)

/-- The number that the digits at the beginning say. -/
def digitos (cs : List Char) : ℕ := Nat.ofDigitChars 10 (cs.takeWhile Char.isDigit) 0

/-- What `strtol` reads, before it is cut to a `long`. -/
def literal (w : String) : ℤ :=
  match w.toList.dropWhile esEspacio with
  | '-' :: cs => -digitos cs
  | '+' :: cs => digitos cs
  | cs => digitos cs

/-- What `sscanf` with `%u` reads: `strtoul`, cut to an `unsigned int`. -/
def literalSinSigno (w : String) : UInt32 :=
  let n := literal w
  if n.natAbs < 2 ^ 64 then UInt32.ofInt n else .ofNat (2 ^ 32 - 1)

section Numeros

variable {c : Char} {n : ℕ}

theorem digitos_toDigits (n : ℕ) : digitos (Nat.toDigits 10 n) = n := by
  have hdig : ∀ c ∈ Nat.toDigits 10 n, Char.isDigit c = true := by
    intro c hc
    exact Nat.isDigit_of_mem_toDigits (by decide) (by decide) hc
  rw [digitos, List.takeWhile_eq_self_iff.2 hdig, Nat.ofDigitChars_ten_toDigits]

theorem toNat_of_isDigit (h : c.isDigit = true) : 48 ≤ c.toNat ∧ c.toNat ≤ 57 := by
  simpa [Char.isDigit, UInt32.le_iff_toNat_le] using h

/-- The first digit is no blank and no sign. -/
theorem exists_toDigits (n : ℕ) : ∃ c cs, Nat.toDigits 10 n = c :: cs ∧ esEspacio c = false ∧
    c ≠ '-' ∧ c ≠ '+' := by
  obtain ⟨c, cs, hcs⟩ := List.exists_cons_of_ne_nil (Nat.toDigits_ne_nil (n := n) (b := 10))
  have hdig : c.isDigit = true := by
    refine Nat.isDigit_of_mem_toDigits (b := 10) (n := n) (by decide) (by decide) ?_
    rw [hcs]
    exact List.mem_cons_self
  have hc := toNat_of_isDigit hdig
  refine ⟨c, cs, hcs, ?_, ?_, ?_⟩
  · have hblanco : c ≠ ' ' := by
      rintro rfl
      exact absurd hc.1 (by decide)
    simp only [esEspacio, hblanco, decide_false, Bool.false_or, Bool.and_eq_false_iff,
      decide_eq_false_iff_not]
    omega
  · rintro rfl
    exact absurd hc.1 (by decide)
  · rintro rfl
    exact absurd hc.1 (by decide)

/-- A number is read as it was written. -/
@[simp] theorem literal_decimal (n : ℤ) : literal (decimal n) = n := by
  cases n with
  | ofNat n =>
      obtain ⟨c, cs, hcs, hblanco, hmenos, hmas⟩ := exists_toDigits n
      have hlee := digitos_toDigits n
      rw [literal, decimal, String.toList_ofList, hcs,
        List.dropWhile_cons_of_neg (by rw [hblanco]; decide)]
      rw [hcs] at hlee
      split
      · rename_i heq
        exact absurd (List.cons.inj heq).1 hmenos
      · rename_i heq
        exact absurd (List.cons.inj heq).1 hmas
      · rw [hlee]
        rfl
  | negSucc n =>
      have hlee := digitos_toDigits (n + 1)
      rw [literal, decimal, String.toList_ofList, List.dropWhile_cons_of_neg (by decide)]
      simp only [hlee]
      omega

theorem literalSinSigno_decimal (n : UInt32) : literalSinSigno (decimal n.toNat) = n := by
  have hlt := n.toNat_lt
  have hmod : ((n.toNat : ℤ) % 2 ^ 32).toNat = n.toNat := by omega
  rw [literalSinSigno, literal_decimal]
  simp only [Int.natAbs_natCast]
  rw [if_pos (by omega), UInt32.ofInt, hmod, UInt32.ofNat_toNat]

theorem esPalabra_decimal (n : ℤ) : EsPalabra (decimal n) := by
  have hdig : ∀ k, ∀ c ∈ Nat.toDigits 10 k, EsLetra c := by
    intro k c hc
    have := toNat_of_isDigit (Nat.isDigit_of_mem_toDigits (by decide) (by decide) hc)
    unfold EsLetra
    omega
  cases n with
  | ofNat n =>
      refine ⟨?_, ?_⟩
      · rw [decimal, String.toList_ofList]
        exact Nat.toDigits_ne_nil
      · intro c hc
        rw [decimal, String.toList_ofList] at hc
        exact hdig n c hc
  | negSucc n =>
      refine ⟨?_, ?_⟩
      · rw [decimal, String.toList_ofList]
        exact List.cons_ne_nil _ _
      · intro c hc
        rw [decimal, String.toList_ofList, List.mem_cons] at hc
        rcases hc with rfl | hc
        · decide
        · exact hdig (n + 1) c hc

end Numeros

/-! ### Instructions -/

/-- The instructions, with their operands. -/
inductive Instruccion
  | set (destino : Registro) (valor : ℤ)
  | movIn (datos direccion : Registro)
  | movOut (direccion datos : Registro)
  | sum (destino origen : Registro)
  | sub (destino origen : Registro)
  | jnz (registro : Registro) (instruccion : ℤ)
  | resize (tamanio : ℤ)
  | copyString (tamanio : UInt32)
  | wait (recurso : String)
  | signal (recurso : String)
  | ioGenSleep (interfaz : String) (unidadesDeTrabajo : ℤ)
  | ioStdinRead (interfaz : String) (direccion tamanio : Registro)
  | ioStdoutWrite (interfaz : String) (direccion tamanio : Registro)
  | ioFsCreate (interfaz nombreArchivo : String)
  | ioFsDelete (interfaz nombreArchivo : String)
  | ioFsTruncate (interfaz nombreArchivo : String) (tamanio : Registro)
  | ioFsWrite (interfaz nombreArchivo : String) (direccion tamanio punteroArch : Registro)
  | ioFsRead (interfaz nombreArchivo : String) (direccion tamanio punteroArch : Registro)
  | exit
  deriving DecidableEq, Repr

/-- The word that says which instruction it is. -/
def mnemonico : IdInstruccion → String
  | .set => "SET"
  | .movIn => "MOV_IN"
  | .movOut => "MOV_OUT"
  | .sum => "SUM"
  | .sub => "SUB"
  | .jnz => "JNZ"
  | .resize => "RESIZE"
  | .copyString => "COPY_STRING"
  | .wait => "WAIT"
  | .signal => "SIGNAL"
  | .ioGenSleep => "IO_GEN_SLEEP"
  | .ioStdinRead => "IO_STDIN_READ"
  | .ioStdoutWrite => "IO_STDOUT_WRITE"
  | .ioFsCreate => "IO_FS_CREATE"
  | .ioFsDelete => "IO_FS_DELETE"
  | .ioFsTruncate => "IO_FS_TRUNCATE"
  | .ioFsWrite => "IO_FS_WRITE"
  | .ioFsRead => "IO_FS_READ"
  | .exit => "EXIT"

@[simp] theorem obtenerIdInstruccion_mnemonico (id : IdInstruccion) :
    Memoria.obtenerIdInstruccion (mnemonico id) = id := by
  cases id <;> rfl

theorem esPalabra_mnemonico (id : IdInstruccion) : EsPalabra (mnemonico id) := by
  cases id <;> decide

/-- The address of `obtener_registro`; `NULL` for a word that names none. -/
def obtenerRegistro : String → Option Registro
  | "AX" => some (.de8 .ax)
  | "BX" => some (.de8 .bx)
  | "CX" => some (.de8 .cx)
  | "DX" => some (.de8 .dx)
  | "EAX" => some (.de32 .eax)
  | "EBX" => some (.de32 .ebx)
  | "ECX" => some (.de32 .ecx)
  | "EDX" => some (.de32 .edx)
  | "SI" => some (.de32 .si)
  | "DI" => some (.de32 .di)
  | "PC" => some (.de32 .pc)
  | _ => none

@[simp] theorem obtenerRegistro_nombre (r : Registro) : obtenerRegistro r.nombre = some r := by
  rcases r with r | r <;> cases r <;> rfl

theorem esPalabra_nombre (r : Registro) : EsPalabra r.nombre := by
  rcases r with r | r <;> cases r <;> decide

namespace Instruccion

def id : Instruccion → IdInstruccion
  | .set _ _ => .set
  | .movIn _ _ => .movIn
  | .movOut _ _ => .movOut
  | .sum _ _ => .sum
  | .sub _ _ => .sub
  | .jnz _ _ => .jnz
  | .resize _ => .resize
  | .copyString _ => .copyString
  | .wait _ => .wait
  | .signal _ => .signal
  | .ioGenSleep _ _ => .ioGenSleep
  | .ioStdinRead _ _ _ => .ioStdinRead
  | .ioStdoutWrite _ _ _ => .ioStdoutWrite
  | .ioFsCreate _ _ => .ioFsCreate
  | .ioFsDelete _ _ => .ioFsDelete
  | .ioFsTruncate _ _ _ => .ioFsTruncate
  | .ioFsWrite _ _ _ _ _ => .ioFsWrite
  | .ioFsRead _ _ _ _ _ => .ioFsRead
  | .exit => .exit

/-- The operands as they are written. -/
def operandos : Instruccion → List String
  | .set d v => [d.nombre, decimal v]
  | .movIn d dir => [d.nombre, dir.nombre]
  | .movOut dir d => [dir.nombre, d.nombre]
  | .sum d o => [d.nombre, o.nombre]
  | .sub d o => [d.nombre, o.nombre]
  | .jnz r i => [r.nombre, decimal i]
  | .resize t => [decimal t]
  | .copyString t => [decimal t.toNat]
  | .wait r => [r]
  | .signal r => [r]
  | .ioGenSleep i u => [i, decimal u]
  | .ioStdinRead i dir t => [i, dir.nombre, t.nombre]
  | .ioStdoutWrite i dir t => [i, dir.nombre, t.nombre]
  | .ioFsCreate i a => [i, a]
  | .ioFsDelete i a => [i, a]
  | .ioFsTruncate i a t => [i, a, t.nombre]
  | .ioFsWrite i a dir t p => [i, a, dir.nombre, t.nombre, p.nombre]
  | .ioFsRead i a dir t p => [i, a, dir.nombre, t.nombre, p.nombre]
  | .exit => []

def palabras (i : Instruccion) : List String := mnemonico i.id :: i.operandos

/-- The line of an instruction. -/
def linea (i : Instruccion) : String := unir i.palabras

/-- The names of the resource, the interface and the file. -/
def nombres : Instruccion → List String
  | .wait r => [r]
  | .signal r => [r]
  | .ioGenSleep i _ => [i]
  | .ioStdinRead i _ _ => [i]
  | .ioStdoutWrite i _ _ => [i]
  | .ioFsCreate i a => [i, a]
  | .ioFsDelete i a => [i, a]
  | .ioFsTruncate i a _ => [i, a]
  | .ioFsWrite i a _ _ _ => [i, a]
  | .ioFsRead i a _ _ _ => [i, a]
  | _ => []

/-- Its names are words. -/
def Escribible (i : Instruccion) : Prop := ∀ w ∈ i.nombres, EsPalabra w

instance : DecidablePred Escribible := fun i => inferInstanceAs (Decidable (∀ w ∈ i.nombres, _))

theorem esPalabra_operandos {i : Instruccion} (h : i.Escribible) :
    ∀ w ∈ i.operandos, EsPalabra w := by
  cases i <;>
    simp only [Escribible, nombres, operandos, List.mem_cons, List.not_mem_nil, or_false,
      false_implies, implies_true, forall_eq_or_imp, forall_eq] at h ⊢ <;>
    simp [h, esPalabra_nombre, esPalabra_decimal]

theorem esPalabra_palabras {i : Instruccion} (h : i.Escribible) :
    ∀ w ∈ i.palabras, EsPalabra w := by
  intro w hw
  rcases List.mem_cons.1 hw with rfl | hw
  · exact esPalabra_mnemonico i.id
  · exact esPalabra_operandos h w hw

theorem length_palabras (i : Instruccion) : i.palabras.length ≤ 10 := by
  cases i <;> simp [palabras, operandos]

end Instruccion

/-! ### What the CPU makes of a line -/

/-- `decode` and `execute`: the operands that each instruction takes, from the words after the
first.  A register that is not one and an operand that is not there are null pointers. -/
def decodificar : IdInstruccion → List String → Option Instruccion
  | .set, d :: v :: _ => do return .set (← obtenerRegistro d) (literal v)
  | .movIn, d :: dir :: _ => do return .movIn (← obtenerRegistro d) (← obtenerRegistro dir)
  | .movOut, dir :: d :: _ => do return .movOut (← obtenerRegistro dir) (← obtenerRegistro d)
  | .sum, d :: o :: _ => do return .sum (← obtenerRegistro d) (← obtenerRegistro o)
  | .sub, d :: o :: _ => do return .sub (← obtenerRegistro d) (← obtenerRegistro o)
  | .jnz, r :: i :: _ => do return .jnz (← obtenerRegistro r) (literal i)
  | .resize, t :: _ => some (.resize (literal t))
  | .copyString, t :: _ => some (.copyString (literalSinSigno t))
  | .wait, r :: _ => some (.wait r)
  | .signal, r :: _ => some (.signal r)
  | .ioGenSleep, i :: u :: _ => some (.ioGenSleep i (literal u))
  | .ioStdinRead, i :: dir :: t :: _ => do
      return .ioStdinRead i (← obtenerRegistro dir) (← obtenerRegistro t)
  | .ioStdoutWrite, i :: dir :: t :: _ => do
      return .ioStdoutWrite i (← obtenerRegistro dir) (← obtenerRegistro t)
  | .ioFsCreate, i :: a :: _ => some (.ioFsCreate i a)
  | .ioFsDelete, i :: a :: _ => some (.ioFsDelete i a)
  | .ioFsTruncate, i :: a :: t :: _ => do return .ioFsTruncate i a (← obtenerRegistro t)
  | .ioFsWrite, i :: a :: dir :: t :: p :: _ => do
      return .ioFsWrite i a (← obtenerRegistro dir) (← obtenerRegistro t) (← obtenerRegistro p)
  | .ioFsRead, i :: a :: dir :: t :: p :: _ => do
      return .ioFsRead i a (← obtenerRegistro dir) (← obtenerRegistro t) (← obtenerRegistro p)
  | .exit, _ => some .exit
  | _, _ => none

/-- The operands are read as they were written. -/
theorem decodificar_operandos (i : Instruccion) : decodificar i.id i.operandos = some i := by
  cases i <;>
    simp [decodificar, Instruccion.id, Instruccion.operandos, literalSinSigno_decimal]

/-- What is left to do: an instruction on the registers and the memory, a RESIZE, or EXIT. -/
inductive Accion
  | ejecutar (i : InstruccionDecodificada)
  | redimensionar (tamanio : UInt32)
  | terminar
  deriving DecidableEq, Repr

/-- Those of input and output and of resources leave the CPU, some after a translation. -/
def Instruccion.accion : Instruccion → Accion
  | .set d v => .ejecutar (.registros (.set d v))
  | .movIn d dir => .ejecutar (.movIn d dir)
  | .movOut dir d => .ejecutar (.movOut dir d)
  | .sum d o => .ejecutar (.registros (.sum d o))
  | .sub d o => .ejecutar (.registros (.sub d o))
  | .jnz r i => .ejecutar (.registros (.jnz r i))
  | .resize t => .redimensionar (UInt32.ofInt (Cpu.atoi t))
  | .copyString t => .ejecutar (.copyString t)
  | .wait _ => .ejecutar (.ceder none)
  | .signal _ => .ejecutar (.ceder none)
  | .ioGenSleep _ _ => .ejecutar (.ceder none)
  | .ioStdinRead _ dir _ => .ejecutar (.ceder (some dir))
  | .ioStdoutWrite _ dir _ => .ejecutar (.ceder (some dir))
  | .ioFsCreate _ _ => .ejecutar (.ceder none)
  | .ioFsDelete _ _ => .ejecutar (.ceder none)
  | .ioFsTruncate _ _ _ => .ejecutar (.ceder none)
  | .ioFsWrite _ _ dir _ _ => .ejecutar (.ceder (some dir))
  | .ioFsRead _ _ dir _ _ => .ejecutar (.ceder (some dir))
  | .exit => .terminar

/-- What the CPU makes of an answer of the memory module. -/
def recibida (stringNSplit : String → List String) : Memoria.Respuesta → Option Instruccion
  | .retInstruccion id instruccion => decodificar id (stringNSplit instruccion).tail
  | _ => none

/-- Every instruction is read as it was written. -/
theorem decodificar_linea {stringNSplit : String → List String} (h : ParteEnPalabras stringNSplit)
    {i : Instruccion} (hi : i.Escribible) :
    Memoria.obtenerSentencia i.linea = .ok (mnemonico i.id) ∧
      recibida stringNSplit (.retInstruccion i.id i.linea) = some i := by
  have hpalabras := h.palabras i.palabras (List.cons_ne_nil _ _) i.length_palabras
    (Instruccion.esPalabra_palabras hi)
  refine ⟨obtenerSentencia_unir (esPalabra_mnemonico i.id) i.operandos, ?_⟩
  rw [recibida, Instruccion.linea, hpalabras, Instruccion.palabras, List.tail_cons,
    decodificar_operandos]

/-! ### Files -/

/-- A character for each byte. -/
def aString (bs : Bytes) : String := String.ofList (bs.map fun b => Char.ofNat b.toNat)

/-- The bytes of a text with a byte for each character. -/
def bytes (s : String) : Bytes := s.toList.map fun c => UInt8.ofNat c.toNat

/-- `leer_archivo`, with the lines as strings. -/
def cargar (stringNSplit : Bytes → List Bytes) (bs : Bytes) : Option (List String) :=
  (leerTexto stringNSplit bs).map (List.map aString)

theorem aString_bytes {s : String} (h : ∀ c ∈ s.toList, c.toNat < 256) : aString (bytes s) = s := by
  have hid : s.toList.map ((fun b : UInt8 => Char.ofNat b.toNat) ∘ fun c => UInt8.ofNat c.toNat) =
      s.toList := by
    refine (List.map_congr_left fun c hc => ?_).trans (List.map_id _)
    have hmod : c.toNat % 2 ^ 8 = c.toNat := Nat.mod_eq_of_lt (h c hc)
    rw [Function.comp, UInt8.toNat_ofNat', hmod, Char.ofNat_toNat]
    rfl
  rw [aString, bytes, List.map_map, hid, String.ofList_toList]

theorem mem_linea {i : Instruccion} (hi : i.Escribible) {c : Char} (hc : c ∈ i.linea.toList) :
    32 ≤ c.toNat ∧ c.toNat < 127 := by
  rw [Instruccion.linea, toList_unir] at hc
  rcases mem_letras (Instruccion.esPalabra_palabras hi) hc with h | rfl
  · exact ⟨h.1.le, h.2⟩
  · decide

theorem notMem_bytes_linea {i : Instruccion} (hi : i.Escribible) {b : UInt8} (hb : b.toNat < 32) :
    b ∉ bytes i.linea := by
  intro hmem
  obtain ⟨c, hc, rfl⟩ := List.mem_map.1 hmem
  have hrango := mem_linea hi hc
  rw [UInt8.toNat_ofNat', Nat.mod_eq_of_lt (by omega)] at hb
  omega

/-- The line in its file. -/
def Instruccion.enArchivo (i : Instruccion) (hi : i.Escribible) : Linea where
  bytes := bytes i.linea
  noVacia := by
    rw [bytes, linea, toList_unir, Ne, List.map_eq_nil_iff]
    exact letras_ne_nil (esPalabra_mnemonico i.id) i.operandos
  sinSalto := notMem_bytes_linea hi (by decide)
  sinNulo := notMem_bytes_linea hi (by decide)

/-- A program that can be written: there is an instruction, the names are words, and the lines fit
in the buffer of `leer_archivo`. -/
structure Programa where
  instrucciones : List Instruccion
  noVacio : instrucciones ≠ []
  escribibles : ∀ i ∈ instrucciones, i.Escribible
  cortas : ∀ i ∈ instrucciones, (bytes i.linea).length ≤ 198

namespace Programa

/-- Its lines, as the memory module keeps them. -/
def lineas (p : Programa) : List String := p.instrucciones.map Instruccion.linea

/-- Its file, without a newline at the end. -/
def archivo (p : Programa) : Bytes :=
  texto (p.instrucciones.attach.map fun i => i.1.enArchivo (p.escribibles i.1 i.2)) false

end Programa

/-- Every file is read as it was written. -/
theorem cargar_archivo {stringNSplit : Bytes → List Bytes} (h : ParteLineas stringNSplit)
    (p : Programa) : cargar stringNSplit p.archivo = some p.lineas := by
  have hnoVacio : (p.instrucciones.attach.map
      fun i => i.1.enArchivo (p.escribibles i.1 i.2)) ≠ [] := by
    simpa using p.noVacio
  have hcortas : ∀ l ∈ p.instrucciones.attach.map fun i => i.1.enArchivo (p.escribibles i.1 i.2),
      l.bytes.length ≤ 198 := by
    intro l hl
    obtain ⟨i, -, rfl⟩ := List.mem_map.1 hl
    exact p.cortas i.1 i.2
  rw [cargar, Programa.archivo, LectorArchivo.leerTexto_texto h hnoVacio hcortas, Option.map_some,
    List.map_map, List.map_map, Programa.lineas]
  have hlineas : p.instrucciones.map Instruccion.linea =
      p.instrucciones.attach.map fun i => i.1.linea := List.attach_map_val.symm
  rw [hlineas]
  refine congrArg some (List.map_congr_left fun i _ => ?_)
  exact aString_bytes fun c hc => (mem_linea (p.escribibles i.1 i.2) hc).2.trans (by decide)

/-! ### The CPU that fetches -/

section Fetch

variable (partir : String → List String)

/-- The answer to `fetch` for the process in the CPU, decoded. -/
def instruccionActual (s : EnUso) : Option Instruccion :=
  (Cpu.pedirAMemoria s.cpu (.obtInstruccion s.cpu.procesoEjecutando s.pcb.pc)).bind fun r =>
    recibida partir r.1

/-- What is executed is what was fetched; what is loaded is the file of the process.  An EXIT is as
an interruption. -/
def Dictado (archivos : Pid → Option (List String)) (s : EnUso) : Suceso → Prop
  | .ejecutar _ i _ => ∃ ins, instruccionActual partir s = some ins ∧ ins.accion = .ejecutar i
  | .redimensionar _ tamanio _ =>
      ∃ ins, instruccionActual partir s = some ins ∧ ins.accion = .redimensionar tamanio
  | .crear pid instrucciones => instrucciones = archivos pid
  | _ => True

/-- The CPU, the memory module and the contexts, where the processes have programs. -/
def sistemaConProgramas (partirLineas : Bytes → List Bytes) (programas : Pid → Programa)
    (P tamMemoria : ℕ) (tamTlb : ℤ) (algoTlb : Cpu.AlgoritmoTlb) :
    Transicion.Sistema EnUso Suceso where
  inicial := (Cpu.sistemaEnUso P tamMemoria tamTlb algoTlb).inicial
  paso s u s' := s.avanzar u = some s' ∧
    Dictado partir (fun pid => cargar partirLineas (programas pid).archivo) s u

end Fetch

/-- What a process with these registers executes is in its program. -/
def Sigue (p : Programa) (x : Option Privada) : Suceso → Prop
  | .ejecutar _ i _ => ∀ y, x = some y →
      ∃ ins, p.instrucciones[y.registros.pc.toNat]? = some ins ∧ ins.accion = .ejecutar i
  | .redimensionar _ tamanio _ => ∀ y, x = some y →
      ∃ ins, p.instrucciones[y.registros.pc.toNat]? = some ins ∧
        ins.accion = .redimensionar tamanio
  | _ => True

/-- The runs of one process alone, with its program. -/
def segunPrograma (P : ℕ) (p : Programa) : Transicion.Sistema (Option Privada) Suceso where
  inicial x := x = none
  paso x u x' := PasoPrivado P x u x' ∧ Sigue p x u

/-! ### The programs in memory -/

/-- The lines in memory are those of the programs. -/
def Cargados (programas : Pid → Programa) (m : Memoria.Estado) : Prop :=
  ∀ pid ls, m.dictInstrucciones pid = some ls → ls = (programas pid).lineas

section Cargados

variable {programas : Pid → Programa} {m m' : Memoria.Estado}

theorem Cargados.mismos (hm : Cargados programas m) (h : MismosProgramas m m') :
    Cargados programas m' := by
  intro pid ls hls
  rw [h.programas] at hls
  exact hm pid ls hls

theorem Cargados.update (hm : Cargados programas m) {pid : Pid}
    {instrucciones : Option (List String)}
    (h : m'.dictInstrucciones = Function.update m.dictInstrucciones pid instrucciones)
    (hpid : ∀ ls, instrucciones = some ls → ls = (programas pid).lineas) :
    Cargados programas m' := by
  intro q ls hls
  rw [h] at hls
  by_cases hq : q = pid
  · subst hq
    rw [Function.update_self] at hls
    exact hpid ls hls
  · rw [Function.update_of_ne hq] at hls
    exact hm q ls hls

end Cargados

section Cpu

variable {s s' : Cpu.Estado}

theorem pedirAMemoria_mismos {p : Memoria.Peticion} {r : Memoria.Respuesta}
    (h : Cpu.pedirAMemoria s p = some (r, s')) : MismosProgramas s.memoria s'.memoria := by
  unfold Cpu.pedirAMemoria at h
  split at h
  · rename_i hok
    cases h
    exact .atenderClienteCpu hok
  · cases h

theorem traducir_memoria {direccion : Registro} {reloj reloj' : ℕ} {dir : Cpu.DireccionFisica}
    (h : Cpu.traducir s direccion reloj reloj' = some (dir, s')) : s'.memoria = s.memoria := by
  rw [(Cpu.traducirDireccionAFisica_ok (Cpu.traducir_eq_some h)).1]

/-- An instruction changes no program. -/
theorem decode_mismos {relojes : ℕ → ℕ} {i : InstruccionDecodificada}
    (h : Cpu.decode s relojes i = some s') : MismosProgramas s.memoria s'.memoria := by
  cases i with
  | registros i =>
      cases h
      exact .refl _
  | movIn datos direccion =>
      obtain ⟨⟨dir, s₁⟩, htrad, h⟩ := Option.bind_eq_some_iff.1 h
      obtain ⟨s₂, hmov, h⟩ := Option.bind_eq_some_iff.1 h
      obtain ⟨⟨r, s₃⟩, hpide, hmov⟩ := Option.bind_eq_some_iff.1 hmov
      have hmismos := pedirAMemoria_mismos hpide
      rw [traducir_memoria htrad] at hmismos
      cases h
      cases r with
      | rtaMovin reg =>
          cases hmov
          exact hmismos
      | _ => cases hmov
  | movOut direccion datos =>
      obtain ⟨⟨dir, s₁⟩, htrad, h⟩ := Option.bind_eq_some_iff.1 h
      obtain ⟨s₂, hmov, h⟩ := Option.bind_eq_some_iff.1 h
      obtain ⟨⟨r, s₃⟩, hpide, hmov⟩ := Option.bind_eq_some_iff.1 hmov
      have hmismos := pedirAMemoria_mismos hpide
      rw [traducir_memoria htrad] at hmismos
      cases h
      cases hmov
      exact hmismos
  | copyString tamanio =>
      obtain ⟨⟨di, s₁⟩, htrad, h⟩ := Option.bind_eq_some_iff.1 h
      obtain ⟨⟨si, s₂⟩, htrad', h⟩ := Option.bind_eq_some_iff.1 h
      obtain ⟨s₃, hcopy, h⟩ := Option.bind_eq_some_iff.1 h
      obtain ⟨⟨r, s₄⟩, hpide, hcopy⟩ := Option.bind_eq_some_iff.1 hcopy
      have hmismos := pedirAMemoria_mismos hpide
      rw [traducir_memoria htrad', traducir_memoria htrad] at hmismos
      cases h
      cases hcopy
      exact hmismos
  | ceder direccion =>
      cases direccion with
      | none =>
          cases h
          exact .refl _
      | some direccion =>
          obtain ⟨⟨dir, s₁⟩, htrad, h⟩ := Option.bind_eq_some_iff.1 h
          cases h
          exact (traducir_memoria htrad) ▸ .refl _

theorem ejecutarResize_mismos {tamanio : UInt32} (h : Cpu.ejecutarResize s tamanio = .ok s') :
    MismosProgramas s.memoria s'.memoria := by
  unfold Cpu.ejecutarResize at h
  simp only at h
  split at h
  · cases h
  · rename_i hres
    cases h
    exact .resize hres

end Cpu

section Pasos

variable {partir : String → List String} {partirLineas : Bytes → List Bytes}
  (hpartir : ParteEnPalabras partir) (hlineas : ParteLineas partirLineas)
  {programas : Pid → Programa} {s s' : EnUso}

include hpartir in
/-- What is fetched is the instruction under the program counter. -/
theorem instruccionActual_eq_some (hs : Cargados programas s.cpu.memoria) {ins : Instruccion}
    (h : instruccionActual partir s = some ins) :
    (programas s.cpu.procesoEjecutando).instrucciones[s.pcb.pc.toNat]? = some ins := by
  obtain ⟨⟨r, s₁⟩, hpide, hrecibida⟩ := Option.bind_eq_some_iff.1 h
  unfold Cpu.pedirAMemoria at hpide
  split at hpide
  · rename_i r' m' hok
    cases hpide
    obtain ⟨sentencia, linea, rfl, hsentencia, hlinea⟩ :=
      (Memoria.obtInstruccion_eq_ok hok).2 r (List.mem_singleton_self r)
    obtain ⟨ls, hls, -, hpc⟩ := Memoria.obtenerInstruccion_eq_some.1 hlinea
    cases hs _ ls hls
    rw [Programa.lineas, List.getElem?_map] at hpc
    obtain ⟨i, hi, rfl⟩ := Option.map_eq_some_iff.1 hpc
    have hescribible := (programas s.cpu.procesoEjecutando).escribibles i (List.mem_of_getElem? hi)
    obtain ⟨hprimera, hlee⟩ := decodificar_linea hpartir hescribible
    cases hprimera.symm.trans hsentencia
    rw [obtenerIdInstruccion_mnemonico, hlee] at hrecibida
    cases hrecibida
    exact hi
  · cases hpide

include hlineas in
/-- Every step leaves in memory the programs of the processes. -/
theorem cargados_avanzar (hs : Cargados programas s.cpu.memoria) {u : Suceso}
    (hu : Dictado partir (fun pid => cargar partirLineas (programas pid).archivo) s u)
    (h : s.avanzar u = some s') : Cargados programas s'.cpu.memoria := by
  cases u with
  | ejecutar pid i relojes =>
      rw [EnUso.avanzar] at h
      split at h
      · obtain ⟨cpu, hcpu, rfl⟩ := Option.map_eq_some_iff.1 h
        have hcargados := hs.mismos (decode_mismos hcpu)
        cases i <;> exact hcargados
      · cases h
  | redimensionar pid tamanio aceptado =>
      rw [EnUso.avanzar] at h
      split at h
      · split at h
        · cases h
        · rename_i r s₁ hredim
          split at h
          · cases h
            unfold EnUso.redimensionar at hredim
            split at hredim
            · cases hredim
            · rename_i cpu hcpu
              have hcargados := hs.mismos (ejecutarResize_mismos hcpu)
              simp only at hredim
              split at hredim
              · cases hredim
                exact hcargados
              · cases hredim
                exact hcargados
          · cases h
      · cases h
  | desalojar pid =>
      rw [EnUso.avanzar] at h
      split at h
      · cases h
        exact hs
      · cases h
  | recibirPcb pid =>
      rw [EnUso.avanzar] at h
      split at h
      · cases h
        exact hs
      · cases h
  | crear pid instrucciones =>
      rw [EnUso.avanzar] at h
      split at h
      · cases h
        apply hs.update rfl
        intro ls hls
        cases hu.symm.trans hls |>.symm.trans (cargar_archivo hlineas (programas pid))
        rfl
      · cases h
  | terminar pid =>
      rw [EnUso.avanzar] at h
      split at h
      · cases h
      · rename_i m hm
        cases h
        refine hs.update (Memoria.eliminarProceso_programas hm).2 ?_
        intro ls hls
        cases hls

include hpartir in
/-- What the CPU executes is in the program of its process. -/
theorem sigue_of_dictado {P N : ℕ} (hbien : Cpu.Bien P N s) (hs : Cargados programas s.cpu.memoria)
    {archivos : Pid → Option (List String)} {u : Suceso} (hu : Dictado partir archivos s u)
    (h : s.avanzar u = some s') : Sigue (programas u.pid) (privada P s u.pid) u := by
  have hactual : ∀ {pid ins}, s.ejecuta pid → instruccionActual partir s = some ins →
      ∀ y, privada P s pid = some y →
        (programas pid).instrucciones[y.registros.pc.toNat]? = some ins := by
    intro pid ins he hins y hy
    have hpc := instruccionActual_eq_some hpartir hs hins
    rw [Cpu.privada_ejecuta he] at hy
    obtain ⟨bs, -, rfl⟩ := Option.map_eq_some_iff.1 hy
    rw [hbien.pcb (by rw [he.1]; exact he.2), he.1] at hpc
    exact hpc
  cases u with
  | ejecutar pid i relojes =>
      obtain ⟨ins, hins, haccion⟩ := hu
      rw [EnUso.avanzar] at h
      split at h
      · rename_i he
        exact fun y hy => ⟨ins, hactual he hins y hy, haccion⟩
      · cases h
  | redimensionar pid tamanio aceptado =>
      obtain ⟨ins, hins, haccion⟩ := hu
      rw [EnUso.avanzar] at h
      split at h
      · rename_i he
        exact fun y hy => ⟨ins, hactual he hins y hy, haccion⟩
      · cases h
  | _ => trivial

/-- The CPU and the memory simulate as many machines with programs as there are processes. -/
theorem programas_simulacion (hpartir : ParteEnPalabras partir) (hlineas : ParteLineas partirLineas)
    (programas : Pid → Programa) {P : ℕ} (hP : 0 < P) (tamMemoria : ℕ) (tamTlb : ℤ)
    (algoTlb : Cpu.AlgoritmoTlb) :
    Transicion.Simulacion
      (sistemaConProgramas partir partirLineas programas P tamMemoria tamTlb algoTlb) Cpu.EnOrden
      (Intercalado.producto (fun pid => segunPrograma P (programas pid)) Suceso.pid)
      (fun s a => (Cpu.Bien P (tamMemoria / P) s ∧ Cargados programas s.cpu.memoria) ∧
        a = privada P s) := by
  refine ⟨?_, ?_⟩
  · rintro s ⟨espacio, rfl⟩
    refine ⟨_, fun _ => rfl, ⟨Cpu.bien_inicial P tamMemoria tamTlb algoTlb espacio, ?_⟩, rfl⟩
    intro pid ls hls
    cases hls
  · rintro s a u s' ⟨⟨hbien, hs⟩, rfl⟩ hu ⟨hpaso, hdictado⟩
    obtain ⟨hbien', hpropio, hajenos⟩ := Cpu.avanza_paso hP hbien hu hpaso
    have hs' := cargados_avanzar hlineas hs hdictado hpaso
    have hsigue := sigue_of_dictado hpartir hbien hs hdictado hpaso
    exact ⟨_, ⟨⟨hpropio, hsigue⟩, hajenos⟩, ⟨hbien', hs'⟩, rfl⟩

/-- In every run that is in order, what happens to a process is a run of its own machine, which
executes its program. -/
theorem programas_aislados (hpartir : ParteEnPalabras partir) (hlineas : ParteLineas partirLineas)
    (programas : Pid → Programa) {P : ℕ} (hP : 0 < P) {tamMemoria : ℕ} {tamTlb : ℤ}
    {algoTlb : Cpu.AlgoritmoTlb} {us : List Suceso} {s : EnUso}
    (h : Transicion.Corrida
      (sistemaConProgramas partir partirLineas programas P tamMemoria tamTlb algoTlb)
      Cpu.EnOrden us s) (pid : Pid) :
    Transicion.Corrida (segunPrograma P (programas pid)) (fun _ _ => True)
      (us.filter fun u => u.pid = pid) (privada P s pid) := by
  obtain ⟨a, ha, -, rfl⟩ :=
    (programas_simulacion hpartir hlineas programas hP tamMemoria tamTlb algoTlb).corrida h
  exact (Intercalado.proyeccion_producto _ _).corrida ha pid

end Pasos

/-! ### A program that writes and reads -/

/-- A step of processes with programs, whose accesses stay in one page. -/
def intentar (partir : String → List String) (archivos : Pid → Option (List String)) (s : EnUso)
    (u : Suceso) : Option EnUso :=
  let accion := (instruccionActual partir s).map Instruccion.accion
  match u with
  | .ejecutar _ i _ => if accion = some (.ejecutar i) then Cpu.intentarEnUso s u else none
  | .redimensionar _ tamanio _ =>
      if accion = some (.redimensionar tamanio) then Cpu.intentarEnUso s u else none
  | .crear pid instrucciones =>
      if instrucciones = archivos pid then Cpu.intentarEnUso s u else none
  | _ => Cpu.intentarEnUso s u

theorem paso_of_intentar {partir : String → List String} {partirLineas : Bytes → List Bytes}
    {programas : Pid → Programa} {P tamMemoria : ℕ} {tamTlb : ℤ} {algoTlb : Cpu.AlgoritmoTlb}
    {s s' : EnUso} {u : Suceso}
    (h : intentar partir (fun pid => cargar partirLineas (programas pid).archivo) s u = some s') :
    Cpu.EnOrden s u ∧
      (sistemaConProgramas partir partirLineas programas P tamMemoria tamTlb algoTlb).paso s u
        s' := by
  have hpaso : ∀ {v}, Cpu.intentarEnUso s v = some s' →
      Dictado partir (fun pid => cargar partirLineas (programas pid).archivo) s v →
      Cpu.EnOrden s v ∧
        (sistemaConProgramas partir partirLineas programas P tamMemoria tamTlb algoTlb).paso s v
          s' := by
    intro v hv hdictado
    have havanza : Cpu.EnOrden s v ∧ (Cpu.sistemaEnUso P tamMemoria tamTlb algoTlb).paso s v s' :=
      Cpu.paso_of_intentarEnUso hv
    exact ⟨havanza.1, havanza.2, hdictado⟩
  unfold intentar at h
  cases u with
  | ejecutar pid i relojes =>
      simp only at h
      split at h
      · exact hpaso h (Option.map_eq_some_iff.1 ‹_›)
      · cases h
  | redimensionar pid tamanio aceptado =>
      simp only at h
      split at h
      · exact hpaso h (Option.map_eq_some_iff.1 ‹_›)
      · cases h
  | crear pid instrucciones =>
      simp only at h
      split at h
      · exact hpaso h ‹_›
      · cases h
  | desalojar pid => exact hpaso h trivial
  | recibirPcb pid => exact hpaso h trivial
  | terminar pid => exact hpaso h trivial

/-- A word between each two blanks. -/
def partirEnPalabras (s : String) : List String := (s.toList.splitOn ' ').map String.ofList

theorem parteEnPalabras_partir : ParteEnPalabras partirEnPalabras := by
  refine ⟨fun ws hws hlargo hpalabras => ?_⟩
  clear hlargo
  rw [partirEnPalabras, toList_unir]
  induction ws using letras.induct with
  | case1 => exact absurd rfl hws
  | case2 w =>
      have hw := hpalabras w List.mem_cons_self
      rw [letras, List.splitOn_eq_singleton hw.blanco_notMem, List.map_singleton,
        String.ofList_toList]
  | case3 w w' ws ih =>
      have hw := hpalabras w List.mem_cons_self
      rw [letras, List.splitOn_append_cons_self_of_not_mem hw.blanco_notMem, List.map_cons,
        String.ofList_toList, ih (by simp) fun v hv => hpalabras v (List.mem_cons_of_mem w hv)]

def escribeYLee : Programa where
  instrucciones := [.resize 8, .set (.de8 .ax) 4, .set (.de32 .ebx) 77,
    .movOut (.de8 .ax) (.de32 .ebx), .movIn (.de32 .ecx) (.de8 .ax), .exit]
  noVacio := by decide
  escribibles := by decide
  cortas := by decide +kernel

def unaVez : List Suceso :=
  [.crear 1 (some escribeYLee.lineas), .recibirPcb 1, .redimensionar 1 8 true,
    .ejecutar 1 (.registros (.set (.de8 .ax) 4)) fun _ => 0, .desalojar 1, .recibirPcb 1,
    .ejecutar 1 (.registros (.set (.de32 .ebx) 77)) fun _ => 0,
    .ejecutar 1 (.movOut (.de8 .ax) (.de32 .ebx)) fun _ => 1,
    .ejecutar 1 (.movIn (.de32 .ecx) (.de8 .ax)) fun _ => 2, .desalojar 1]

theorem unaVez_corre : (Transicion.ejecutar
    (intentar partirEnPalabras fun _ => some escribeYLee.lineas) Cpu.alArrancar unaVez).isSome =
      true := by
  decide +kernel

theorem programas_aislados_unaVez :
    ∃ x : Privada, x.registros.ecx = 77 ∧ x.registros.pc = 5 ∧
      Transicion.Corrida (segunPrograma 4 escribeYLee) (fun _ _ => True)
        (unaVez.filter fun u => u.pid = 1) (some x) := by
  have harchivos : (fun _ : Pid => cargar LectorArchivo.partirEnDos escribeYLee.archivo) =
      fun _ => some escribeYLee.lineas :=
    funext fun _ => cargar_archivo LectorArchivo.parteLineas_partirEnDos escribeYLee
  have hcorre := Transicion.corrida_estadoTras
    (S := sistemaConProgramas partirEnPalabras LectorArchivo.partirEnDos (fun _ => escribeYLee) 4 16
      4 .fifo) (C := Cpu.EnOrden) (s := Cpu.alArrancar)
    (fun _ _ _ h => paso_of_intentar (by rw [harchivos]; exact h)) ⟨_, rfl⟩ unaVez_corre
  have hsolo := programas_aislados parteEnPalabras_partir LectorArchivo.parteLineas_partirEnDos
    (fun _ => escribeYLee) (by decide) hcorre 1
  have hx : (privada 4 (Transicion.estadoTras
      (intentar partirEnPalabras fun _ => some escribeYLee.lineas) Cpu.alArrancar unaVez
      unaVez_corre) 1).map (fun x => (x.registros.ecx, x.registros.pc)) = some (77, 5) := by
    decide +kernel
  obtain ⟨x, hpriv, hx⟩ := Option.map_eq_some_iff.1 hx
  rw [hpriv] at hsolo
  exact ⟨x, congrArg Prod.fst hx, congrArg Prod.snd hx, hsolo⟩

end Ensamblador
