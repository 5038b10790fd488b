/-
**The register instructions of the CPU.**

The instructions reach the registers through untyped pointers into one packed struct.  SET, SUM and
SUB take the pointer for one to eight or to thirty-two bits by the name of the register; JNZ takes
it always for one to thirty-two, so from an 8-bit register it reads its neighbours as well.  Nor
does JNZ advance the program counter when it does not jump.

Main definitions:

* `Cpu.Registro` — the names, by their widths;
* `Cpu.Registros.bytes`, `Cpu.Registros.leerUint32` — the struct in memory, and a 32-bit read of it;
* `Cpu.setearRegistro`, `Cpu.sumarRegistro`, `Cpu.restarRegistro`, `Cpu.saltarSiNoEsCero`,
  `Cpu.execute` — the instructions;
* `Cpu.Registros.estado` — the registers as those of the reference machine;
* `Cpu.Conforme` — the registers and instructions on which the two agree.

Main results:

* `Cpu.execute_eq_paso_iff` — one instruction does what the reference says exactly when it is
  `Conforme`;
* `Cpu.isa_conforme` — and so does a run, exactly as long as its instructions are.
-/

import TpSisop.Codificacion
import TpSisop.CpuRegistros
import TpSisop.Maquina

set_option relaxedAutoImplicit false
set_option autoImplicit false

namespace Cpu

open Codificacion (littleEndian valor)
open Maquina (Estado Instr poner poner_self poner_of_ne incrementar paso avanzar)

/-! ### Names and memory -/

/-- The names of the 8-bit registers. -/
inductive Registro8
  | ax
  | bx
  | cx
  | dx
  deriving DecidableEq, Repr

/-- The names of the 32-bit registers. -/
inductive Registro32
  | eax
  | ebx
  | ecx
  | edx
  | si
  | di
  | pc
  deriving DecidableEq, Repr

/-- The valid names of registers. -/
inductive Registro
  | de8 (r : Registro8)
  | de32 (r : Registro32)
  deriving DecidableEq, Repr

namespace Registro

/-- The program counter. -/
abbrev pc : Registro := .de32 .pc

def ancho : Registro → ℕ
  | .de8 _ => 8
  | .de32 _ => 32

/-- Where `obtener_registro` points to, from the beginning of the struct. -/
def desplazamiento : Registro → ℕ
  | .de32 .pc => 0
  | .de8 .ax => 4
  | .de8 .bx => 5
  | .de8 .cx => 6
  | .de8 .dx => 7
  | .de32 .eax => 8
  | .de32 .ebx => 12
  | .de32 .ecx => 16
  | .de32 .edx => 20
  | .de32 .si => 24
  | .de32 .di => 28

end Registro

namespace Registros

def leer8 (r : Registros) : Registro8 → UInt8
  | .ax => r.ax
  | .bx => r.bx
  | .cx => r.cx
  | .dx => r.dx

def leer32 (r : Registros) : Registro32 → UInt32
  | .eax => r.eax
  | .ebx => r.ebx
  | .ecx => r.ecx
  | .edx => r.edx
  | .si => r.si
  | .di => r.di
  | .pc => r.pc

/-- The number in a register. -/
def leer (r : Registros) : Registro → ℕ
  | .de8 reg => (r.leer8 reg).toNat
  | .de32 reg => (r.leer32 reg).toNat

def escribir8 (r : Registros) (v : UInt8) : Registro8 → Registros
  | .ax => { r with ax := v }
  | .bx => { r with bx := v }
  | .cx => { r with cx := v }
  | .dx => { r with dx := v }

def escribir32 (r : Registros) (v : UInt32) : Registro32 → Registros
  | .eax => { r with eax := v }
  | .ebx => { r with ebx := v }
  | .ecx => { r with ecx := v }
  | .edx => { r with edx := v }
  | .si => { r with si := v }
  | .di => { r with di := v }
  | .pc => { r with pc := v }

/-- The struct in memory.  It has no padding: the four 8-bit registers fill a word. -/
def bytes (r : Registros) : List UInt8 :=
  littleEndian 4 r.pc.toNat ++ [r.ax, r.bx, r.cx, r.dx] ++ littleEndian 4 r.eax.toNat ++
    littleEndian 4 r.ebx.toNat ++ littleEndian 4 r.ecx.toNat ++ littleEndian 4 r.edx.toNat ++
    littleEndian 4 r.si.toNat ++ littleEndian 4 r.di.toNat

/-- What a `uint32_t *` to an offset of the struct reads. -/
def leerUint32 (r : Registros) (desplazamiento : ℕ) : UInt32 :=
  UInt32.ofNat (valor ((r.bytes.drop desplazamiento).take 4))

end Registros

/-! ### The instructions -/

/-- `atoi` of a decimal literal: `strtol` stops at the ends of a `long`, and the result is cut to an
`int`. -/
def atoi (n : ℤ) : ℤ := Int.bmod (max (-2 ^ 63) (min n (2 ^ 63 - 1))) (2 ^ 32)

/-- The loop that counts `valor` down while it counts an 8-bit `a_sumar` up. -/
def contar8 : ℕ → UInt8 → UInt8
  | 0, aSumar => aSumar
  | valor + 1, aSumar => contar8 valor (aSumar + 1)

section

variable (r : Registros)

/-- `setear_registro`. -/
def setearRegistro (destino : Registro) (valor : ℤ) : Registros :=
  match destino with
  | .de8 d => r.escribir8 (UInt8.ofInt (atoi valor)) d
  | .de32 d => r.escribir32 (UInt32.ofInt (atoi valor)) d

/-- The second operand of SUM and SUB, for an 8-bit destination. -/
def operando8 : Registro → UInt8
  | .de8 o => r.leer8 o
  | .de32 o => contar8 (r.leer32 o).toNat 0

/-- The second operand of SUM and SUB, for a 32-bit destination. -/
def operando32 : Registro → UInt32
  | .de8 o => contar (r.leer8 o).toNat 0
  | .de32 o => r.leer32 o

/-- `sumar_registro`. -/
def sumarRegistro (destino origen : Registro) : Registros :=
  match destino with
  | .de8 d => r.escribir8 (r.leer8 d + operando8 r origen) d
  | .de32 d => r.escribir32 (r.leer32 d + operando32 r origen) d

/-- `restar_registro`. -/
def restarRegistro (destino origen : Registro) : Registros :=
  match destino with
  | .de8 d => r.escribir8 (r.leer8 d - operando8 r origen) d
  | .de32 d => r.escribir32 (r.leer32 d - operando32 r origen) d

/-- `saltar_si_no_es_cero`: the pointer is a `uint32_t *` whatever the register. -/
def saltarSiNoEsCero (registro : Registro) (instruccion : ℤ) : Registros :=
  if r.leerUint32 registro.desplazamiento ≠ 0 then { r with pc := UInt32.ofInt (atoi instruccion) }
  else r

/-- `incrementar_pc`. -/
def incrementarPc : Registros := { r with pc := r.pc + 1 }

/-- The cases SET, SUM, SUB and JNZ of `execute`. -/
def execute : Instr Registro → Registros
  | .set destino valor =>
      if destino ≠ .pc then incrementarPc (setearRegistro r destino valor)
      else setearRegistro r destino valor
  | .sum destino origen => incrementarPc (sumarRegistro r destino origen)
  | .sub destino origen => incrementarPc (restarRegistro r destino origen)
  | .jnz registro instruccion => saltarSiNoEsCero r registro instruccion

/-- One cycle: the instruction under the program counter, which `escribir_pcb` has copied to where
`fetch` takes it from; nothing, if there is none. -/
def ciclo (programa : UInt32 → Option (Instr Registro)) : Registros :=
  ((programa r.pc).map (execute r)).getD r

end

/-! ### Memory reads -/

theorem leerUint32_de32 (r : Registros) (reg : Registro32) :
    r.leerUint32 (Registro.desplazamiento (.de32 reg)) = r.leer32 reg := by
  have h : (r.bytes.drop (Registro.desplazamiento (.de32 reg))).take 4 =
      littleEndian 4 (r.leer32 reg).toNat := by
    cases reg <;> rfl
  rw [Registros.leerUint32, h, Codificacion.valor_littleEndian_of_lt (r.leer32 reg).toNat_lt,
    UInt32.ofNat_toNat]

/-- A 32-bit read of an 8-bit register has that register as its low byte. -/
theorem leerUint32_de8 (r : Registros) (reg : Registro8) :
    (r.leerUint32 (Registro.desplazamiento (.de8 reg))).toNat % 256 = (r.leer8 reg).toNat := by
  have h : ∃ bs : List UInt8, bs.length = 3 ∧
      (r.bytes.drop (Registro.desplazamiento (.de8 reg))).take 4 = r.leer8 reg :: bs := by
    cases reg <;> exact ⟨_, rfl, rfl⟩
  obtain ⟨bs, hlen, hbs⟩ := h
  have hlt := Codificacion.valor_lt bs
  have hreg := (r.leer8 reg).toNat_lt
  rw [hlen] at hlt
  rw [Registros.leerUint32, hbs, valor, UInt32.toNat_ofNat']
  omega

/-- So it is zero only if the register is. -/
theorem leer8_eq_zero {r : Registros} {reg : Registro8}
    (h : r.leerUint32 (Registro.desplazamiento (.de8 reg)) = 0) : r.leer8 reg = 0 := by
  have hmod := leerUint32_de8 r reg
  rw [h] at hmod
  exact UInt8.toNat_inj.mp hmod.symm

theorem contar8_eq (n : ℕ) (a : UInt8) : contar8 n a = a + UInt8.ofNat n := by
  induction n generalizing a with
  | zero => simp [contar8]
  | succ n ih =>
      rw [contar8, ih, UInt8.ofNat_add, UInt8.add_assoc, UInt8.add_comm 1]
      rfl

/-! ### The registers of the reference machine -/

/-- The registers, as those of the reference machine. -/
def Registros.estado (r : Registros) : Estado Registro.ancho
  | .de8 reg => (r.leer8 reg).toBitVec
  | .de32 reg => (r.leer32 reg).toBitVec

/-- The program in memory, as one of the reference machine. -/
def comoReferencia (programa : UInt32 → Option (Instr Registro)) (pc : BitVec 32) :
    Option (Instr Registro) :=
  programa (UInt32.ofBitVec pc)

/-- Writing an 8-bit register is writing the number its new contents stand for. -/
theorem estado_escribir8 (r : Registros) (d : Registro8) {v : UInt8} {n : ℤ}
    (h : v.toBitVec = BitVec.ofInt 8 n) :
    (r.escribir8 v d).estado = poner r.estado (.de8 d) n := by
  funext x
  by_cases hx : x = .de8 d
  · subst hx
    rw [poner_self]
    cases d <;> exact h
  · rw [poner_of_ne _ hx]
    cases x with
    | de8 y => cases d <;> cases y <;> first | rfl | exact absurd rfl hx
    | de32 y => cases d <;> cases y <;> rfl

/-- And so is writing a 32-bit register. -/
theorem estado_escribir32 (r : Registros) (d : Registro32) {v : UInt32} {n : ℤ}
    (h : v.toBitVec = BitVec.ofInt 32 n) :
    (r.escribir32 v d).estado = poner r.estado (.de32 d) n := by
  funext x
  by_cases hx : x = .de32 d
  · subst hx
    rw [poner_self]
    cases d <;> exact h
  · rw [poner_of_ne _ hx]
    cases x with
    | de8 y => cases d <;> cases y <;> rfl
    | de32 y => cases d <;> cases y <;> first | rfl | exact absurd rfl hx

theorem toBitVec_ofInt8 (n : ℤ) : (UInt8.ofInt n).toBitVec = BitVec.ofInt 8 n := by
  apply BitVec.eq_of_toNat_eq
  rw [BitVec.toNat_ofInt, UInt8.toNat_toBitVec, UInt8.ofInt, UInt8.toNat_ofNat']
  omega

theorem toBitVec_ofInt32 (n : ℤ) : (UInt32.ofInt n).toBitVec = BitVec.ofInt 32 n := by
  apply BitVec.eq_of_toNat_eq
  rw [BitVec.toNat_ofInt, UInt32.toNat_toBitVec, UInt32.ofInt, UInt32.toNat_ofNat']
  omega

theorem estado_incrementarPc (r : Registros) :
    (incrementarPc r).estado = incrementar .pc r.estado := by
  apply estado_escribir32 r .pc
  apply BitVec.eq_of_toNat_eq
  rw [BitVec.toNat_ofInt, UInt32.toNat_toBitVec, UInt32.toNat_add]
  change _ = (((r.pc.toNat : ℤ) + 1) % _).toNat
  have hlt := r.pc.toNat_lt
  simp only [UInt32.toNat_one]
  omega

theorem estado_toNat (r : Registros) (reg : Registro) : (r.estado reg).toNat = r.leer reg := by
  cases reg <;> rfl

theorem estado_eq_zero_iff (r : Registros) (reg : Registro) :
    r.estado reg = 0 ↔ r.leer reg = 0 := by
  rw [← estado_toNat, ← BitVec.toNat_inj]
  rfl

/-- Two states that differ at most in the program counter. -/
theorem estado_pc_inj (r : Registros) (a b : UInt32) :
    ({ r with pc := a } : Registros).estado = ({ r with pc := b } : Registros).estado ↔ a = b := by
  constructor
  · intro h
    exact UInt32.toBitVec_inj.mp (congrFun h .pc)
  · rintro rfl
    rfl

/-! ### The instructions, on the registers of the reference machine -/

theorem estado_setearRegistro (r : Registros) (d : Registro) (v : ℤ) :
    (setearRegistro r d v).estado = poner r.estado d (atoi v) := by
  cases d with
  | de8 d => exact estado_escribir8 r d (toBitVec_ofInt8 _)
  | de32 d => exact estado_escribir32 r d (toBitVec_ofInt32 _)

theorem operando8_toNat (r : Registros) (o : Registro) :
    (operando8 r o).toNat = r.leer o % 2 ^ 8 := by
  cases o with
  | de8 o => exact (Nat.mod_eq_of_lt (r.leer8 o).toNat_lt).symm
  | de32 o => rw [operando8, contar8_eq, UInt8.zero_add, UInt8.toNat_ofNat']; rfl

theorem operando32_toNat (r : Registros) (o : Registro) : (operando32 r o).toNat = r.leer o := by
  cases o with
  | de8 o =>
      have hlt := (r.leer8 o).toNat_lt
      rw [operando32, contar_eq, UInt32.zero_add, UInt32.toNat_ofNat', Registros.leer]
      omega
  | de32 o => rfl

theorem estado_sumarRegistro (r : Registros) (d o : Registro) :
    (sumarRegistro r d o).estado = poner r.estado d (r.leer d + r.leer o) := by
  cases d with
  | de8 d =>
      apply estado_escribir8 r d
      apply BitVec.eq_of_toNat_eq
      rw [BitVec.toNat_ofInt, UInt8.toNat_toBitVec, UInt8.toNat_add, operando8_toNat]
      simp only [Registros.leer]
      omega
  | de32 d =>
      apply estado_escribir32 r d
      apply BitVec.eq_of_toNat_eq
      rw [BitVec.toNat_ofInt, UInt32.toNat_toBitVec, UInt32.toNat_add, operando32_toNat]
      simp only [Registros.leer]
      omega

theorem estado_restarRegistro (r : Registros) (d o : Registro) :
    (restarRegistro r d o).estado = poner r.estado d (r.leer d - r.leer o) := by
  cases d with
  | de8 d =>
      apply estado_escribir8 r d
      apply BitVec.eq_of_toNat_eq
      rw [BitVec.toNat_ofInt, UInt8.toNat_toBitVec, UInt8.toNat_sub, operando8_toNat]
      simp only [Registros.leer]
      omega
  | de32 d =>
      have hlt := (operando32 r o).toNat_lt
      apply estado_escribir32 r d
      apply BitVec.eq_of_toNat_eq
      rw [BitVec.toNat_ofInt, UInt32.toNat_toBitVec, UInt32.toNat_sub, ← operando32_toNat r o]
      simp only [Registros.leer]
      omega

/-! ### Agreement -/

/-- The registers and instructions on which `execute` does what the reference says: a literal that
`atoi` leaves as it is modulo the width of its register; and of the jumps, those from a register
that is not zero, or from one that is zero next to one that is not, to the next instruction. -/
def Conforme (r : Registros) : Instr Registro → Prop
  | .set destino valor => (2 : ℤ) ^ destino.ancho ∣ atoi valor - valor
  | .sum _ _ => True
  | .sub _ _ => True
  | .jnz registro instruccion =>
      (r.leer registro ≠ 0 ∧ (2 : ℤ) ^ 32 ∣ atoi instruccion - instruccion) ∨
        (r.leer registro = 0 ∧ r.leerUint32 registro.desplazamiento ≠ 0 ∧
          UInt32.ofInt (atoi instruccion) = r.pc + 1)

/-- A register that is not zero is not read as zero. -/
theorem leer_eq_zero {r : Registros} {reg : Registro} (h : r.leerUint32 reg.desplazamiento = 0) :
    r.leer reg = 0 := by
  cases reg with
  | de8 reg => exact congrArg UInt8.toNat (leer8_eq_zero h)
  | de32 reg => exact congrArg UInt32.toNat ((leerUint32_de32 r reg).symm.trans h)

theorem saltar_eq_paso_iff (r : Registros) (reg : Registro) (k : ℤ) :
    (saltarSiNoEsCero r reg k).estado = paso .pc r.estado (.jnz reg k) ↔
      Conforme r (.jnz reg k) := by
  by_cases hzero : r.leer reg = 0
  · have hpaso : paso .pc r.estado (.jnz reg k) = (incrementarPc r).estado := by
      rw [estado_incrementarPc]
      exact if_neg (not_not.mpr ((estado_eq_zero_iff r reg).mpr hzero))
    rw [hpaso]
    by_cases hread : r.leerUint32 reg.desplazamiento = 0
    · -- no jump, and the program counter stays where it is
      have hne : r.pc ≠ r.pc + 1 := by
        intro h
        have hnat := congrArg UInt32.toNat h
        rw [UInt32.toNat_add, UInt32.toNat_one] at hnat
        omega
      rw [saltarSiNoEsCero, if_neg (not_not.mpr hread)]
      constructor
      · intro h
        exact absurd ((estado_pc_inj r r.pc (r.pc + 1)).mp h) hne
      · rintro (⟨hreg, _⟩ | ⟨_, hread', _⟩)
        · exact absurd hzero hreg
        · exact absurd hread hread'
    · -- the neighbours are not zero, and it jumps
      rw [saltarSiNoEsCero, if_pos hread, incrementarPc, estado_pc_inj]
      simp [Conforme, hzero, hread]
  · have hread : r.leerUint32 reg.desplazamiento ≠ 0 := fun h => hzero (leer_eq_zero h)
    have hpaso : paso .pc r.estado (.jnz reg k) = poner r.estado .pc k :=
      if_pos ((estado_eq_zero_iff r reg).not.mpr hzero)
    have hsaltar : (saltarSiNoEsCero r reg k).estado = poner r.estado .pc (atoi k) := by
      rw [saltarSiNoEsCero, if_pos hread]
      exact estado_escribir32 r .pc (toBitVec_ofInt32 _)
    rw [hpaso, hsaltar, Maquina.poner_inj]
    simp [Conforme, hzero, Registro.ancho]

/-- One instruction does what the reference says exactly when it is `Conforme`. -/
theorem execute_eq_paso_iff (r : Registros) (i : Instr Registro) :
    (execute r i).estado = paso .pc r.estado i ↔ Conforme r i := by
  cases i with
  | set d v =>
      have hset : (execute r (.set d v)).estado = paso .pc r.estado (.set d (atoi v)) := by
        rw [execute, paso, ite_not, ← estado_setearRegistro]
        split
        · rfl
        · exact estado_incrementarPc _
      rw [hset, Maquina.paso_set_inj]
      rfl
  | sum d o =>
      refine iff_of_true ?_ trivial
      rw [execute, estado_incrementarPc, estado_sumarRegistro, paso, estado_toNat, estado_toNat]
  | sub d o =>
      refine iff_of_true ?_ trivial
      rw [execute, estado_incrementarPc, estado_restarRegistro, paso, estado_toNat, estado_toNat]
  | jnz reg k => exact saltar_eq_paso_iff r reg k

section

variable (programa : UInt32 → Option (Instr Registro))

theorem ciclo_eq_avanzar_iff (r : Registros) :
    (ciclo r programa).estado = avanzar .pc (comoReferencia programa) r.estado ↔
      ∀ i, programa r.pc = some i → Conforme r i := by
  have hfetch : comoReferencia programa (r.estado .pc) = programa r.pc := rfl
  simp only [ciclo, avanzar, hfetch]
  cases programa r.pc with
  | none => simp
  | some i => simpa using execute_eq_paso_iff r i

/-- A run of the CPU goes through the states of the reference machine exactly as long as every
instruction that it executes is `Conforme` to the registers it finds. -/
theorem isa_conforme (r : Registros) (n : ℕ) :
    (∀ m ≤ n, ((ciclo · programa)^[m] r).estado =
        (avanzar .pc (comoReferencia programa))^[m] r.estado) ↔
      ∀ m < n, ∀ i, programa ((ciclo · programa)^[m] r).pc = some i →
        Conforme ((ciclo · programa)^[m] r) i :=
  Maquina.acuerdo_iff (C := fun r => ∀ i, programa r.pc = some i → Conforme r i)
    (ciclo_eq_avanzar_iff programa) r n

/-- A loop that counts down to zero and then leaves. -/
def cuentaRegresiva : UInt32 → Option (Instr Registro)
  | 0 => some (.set (.de32 .eax) 1)
  | 1 => some (.set (.de32 .ebx) 1)
  | 2 => some (.sub (.de32 .eax) (.de32 .ebx))
  | 3 => some (.jnz (.de32 .eax) 2)
  | 4 => some (.set (.de32 .ecx) 7)
  | _ => none

/-- The loop ends with the counter at zero, and the program counter stays on the jump. -/
theorem cuentaRegresiva_no_conforme :
    ¬ ∀ m ≤ 4, ((ciclo · cuentaRegresiva)^[m] {}).estado =
      (avanzar .pc (comoReferencia cuentaRegresiva))^[m] (Registros.estado {}) := by
  intro h
  exact absurd (congrFun (h 4 (Nat.le_refl 4)) .pc) (by decide)

/-- Nor is a zero register taken for zero next to one that is not. -/
example : (saltarSiNoEsCero { bx := 1 } (.de8 .ax) 9).pc = 9 := by
  decide

end

end Cpu
