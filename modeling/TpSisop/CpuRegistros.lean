/-
**The registers of the CPU.**

The register file is a record of four 8-bit and seven 32-bit registers, addressed by name.  The
instructions that take an address or a size read it through `obtener_t_registro`, which tags the
value with its width; every caller then copies the value into a 32-bit counter with a loop.

Main definitions:

* `Cpu.Registros` — the register file;
* `Cpu.RegistroAbstracto`, `Cpu.obtenerTRegistro` — a tagged value, and reading one by its name;
* `Cpu.contar` — the counting loop.
-/

import Mathlib.Tactic

set_option relaxedAutoImplicit false
set_option autoImplicit false

namespace Cpu

/-- `t_registros`. -/
structure Registros where
  pc : UInt32 := 0
  ax : UInt8 := 0
  bx : UInt8 := 0
  cx : UInt8 := 0
  dx : UInt8 := 0
  eax : UInt32 := 0
  ebx : UInt32 := 0
  ecx : UInt32 := 0
  edx : UInt32 := 0
  si : UInt32 := 0
  di : UInt32 := 0
  deriving DecidableEq, Repr

/-- A value with its width: `t_registro_8` and `t_registro_32`. -/
inductive RegistroAbstracto
  | registro8 (data : UInt8)
  | registro32 (data : UInt32)
  deriving DecidableEq, Repr

/-- `obtener_t_registro`; `none` where it dereferences the null pointer of an unknown name. -/
def obtenerTRegistro (r : Registros) : String → Option RegistroAbstracto
  | "AX" => some (.registro8 r.ax)
  | "BX" => some (.registro8 r.bx)
  | "CX" => some (.registro8 r.cx)
  | "DX" => some (.registro8 r.dx)
  | "EAX" => some (.registro32 r.eax)
  | "EBX" => some (.registro32 r.ebx)
  | "ECX" => some (.registro32 r.ecx)
  | "EDX" => some (.registro32 r.edx)
  | "SI" => some (.registro32 r.si)
  | "DI" => some (.registro32 r.di)
  | "PC" => some (.registro32 r.pc)
  | _ => none

/-- The loop that counts a register down while it counts `desplazamiento` up. -/
def contar : ℕ → UInt32 → UInt32
  | 0, desplazamiento => desplazamiento
  | data + 1, desplazamiento => contar data (desplazamiento + 1)

def RegistroAbstracto.contarDesde0 : RegistroAbstracto → UInt32
  | .registro8 data => contar data.toNat 0
  | .registro32 data => contar data.toNat 0

/-- The number a tagged value stands for. -/
def RegistroAbstracto.valor : RegistroAbstracto → ℕ
  | .registro8 data => data.toNat
  | .registro32 data => data.toNat

/-- The loop adds the register to the counter, modulo `2 ^ 32`. -/
theorem contar_eq (n : ℕ) (d : UInt32) : contar n d = d + UInt32.ofNat n := by
  induction n generalizing d with
  | zero => simp [contar]
  | succ n ih =>
      rw [contar, ih, UInt32.ofNat_add, UInt32.add_assoc, UInt32.add_comm 1]
      rfl

/-- Counted from zero, the counter is the value of the register. -/
theorem RegistroAbstracto.contarDesde0_toNat (reg : RegistroAbstracto) :
    reg.contarDesde0.toNat = reg.valor := by
  cases reg with
  | registro8 data =>
      have hlt := data.toNat_lt
      simp only [contarDesde0, valor, contar_eq, UInt32.zero_add, UInt32.toNat_ofNat']
      omega
  | registro32 data =>
      have hlt := data.toNat_lt
      simp only [contarDesde0, valor, contar_eq, UInt32.zero_add, UInt32.toNat_ofNat']
      omega

end Cpu
