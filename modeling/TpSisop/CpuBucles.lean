/-
**The loops of the CPU, iteration by iteration.**

The registers have two widths, and the CPU goes from one to the other with a loop that counts a
register down while it counts a variable of the other width up: in SUM and SUB when their operands
differ in width, and in every instruction with an address or a size.  The flush of the TLB removes
elements from the list that it goes through, and after each removal it begins again, but at the
second element.  The other modules take what these loops leave; this one runs them and shows that
they end with it.

Main definitions:

* `Cpu.sumarRegistroConBucles`, `Cpu.restarRegistroConBucles` — SUM and SUB with their loops;
* `Cpu.Asigna` — the code ends, and leaves a number in a register and the others as they were;
* `Cpu.iterarLimpiar`, `Cpu.limpiarTlbConBucle` — the flush with its loop;
* `Cpu.LimpiaTodo` — the flush ends, and leaves the entries of the other processes.

Main results:

* `Cpu.sumar_restar_modulares` — SUM and SUB are modular, for operands of any widths;
* `Cpu.limpiarTlbConBucle_eq` — the flush ends on every list;
* `Cpu.limpiaTodo_iff` — and is complete exactly when the first two entries are not both of the
  process.
-/

import TpSisop.Bucles
import TpSisop.CpuInstrucciones
import TpSisop.CpuMmu

set_option relaxedAutoImplicit false
set_option autoImplicit false

namespace Cpu

open Memoria (Pid)
open Bucle (iterarConteo eval_iterarConteo eval_of_none eval_of_some)
open StateTransition (eval)
open Maquina (Estado poner poner_self poner_of_ne)

/-! ### Counting -/

/-- A 32-bit variable, counted up from zero while `valor` is counted down. -/
def contado32 {n : ℕ} (valor : BitVec n) : Part UInt32 :=
  (eval iterarConteo (valor, 0#32)).map fun s => UInt32.ofBitVec s.2

/-- An 8-bit one, which starts again at zero every 256 iterations. -/
def contado8 {n : ℕ} (valor : BitVec n) : Part UInt8 :=
  (eval iterarConteo (valor, 0#8)).map fun s => UInt8.ofBitVec s.2

/-- The loops of `traducir_direccion_a_fisica`. -/
def RegistroAbstracto.contarConBucle : RegistroAbstracto → Part UInt32
  | .registro8 data => contado32 data.toBitVec
  | .registro32 data => contado32 data.toBitVec

section

variable (r : Registros)

/-- The second operand, for an 8-bit destination; one of 32 bits is counted. -/
def operando8ConBucle : Registro → Part UInt8
  | .de8 o => Part.some (r.leer8 o)
  | .de32 o => contado8 (r.leer32 o).toBitVec

/-- The second operand, for a 32-bit destination; one of 8 bits is counted. -/
def operando32ConBucle : Registro → Part UInt32
  | .de8 o => contado32 (r.leer8 o).toBitVec
  | .de32 o => Part.some (r.leer32 o)

/-- SUM and SUB, which differ in the operation. -/
def operarRegistro (op8 : UInt8 → UInt8 → UInt8) (op32 : UInt32 → UInt32 → UInt32)
    (destino origen : Registro) : Part Registros :=
  match destino with
  | .de8 d => (operando8ConBucle r origen).map fun aSumar => r.escribir8 (op8 (r.leer8 d) aSumar) d
  | .de32 d =>
      (operando32ConBucle r origen).map fun aSumar => r.escribir32 (op32 (r.leer32 d) aSumar) d

/-- `sumar_registro`. -/
def sumarRegistroConBucles (destino origen : Registro) : Part Registros :=
  operarRegistro r (fun reg aSumar => reg + aSumar) (fun reg aSumar => reg + aSumar) destino origen

/-- `restar_registro`. -/
def restarRegistroConBucles (destino origen : Registro) : Part Registros :=
  operarRegistro r (fun reg aSumar => reg - aSumar) (fun reg aSumar => reg - aSumar) destino origen

end

/-- The loop ends, and the variable holds the number that was counted down. -/
theorem contado32_eq {n : ℕ} (valor : BitVec n) :
    contado32 valor = Part.some (contar valor.toNat 0) := by
  rw [contado32, eval_iterarConteo, Part.map_some, contar_eq, BitVec.zero_add, UInt32.zero_add]
  rfl

theorem contado8_eq {n : ℕ} (valor : BitVec n) :
    contado8 valor = Part.some (contar8 valor.toNat 0) := by
  rw [contado8, eval_iterarConteo, Part.map_some, contar8_eq, BitVec.zero_add, UInt8.zero_add]
  rfl

theorem RegistroAbstracto.contarConBucle_eq (reg : RegistroAbstracto) :
    reg.contarConBucle = Part.some reg.contarDesde0 := by
  cases reg with
  | registro8 data => exact contado32_eq data.toBitVec
  | registro32 data => exact contado32_eq data.toBitVec

variable {r r' : Registros} {d o : Registro}

theorem operando8ConBucle_eq : operando8ConBucle r o = Part.some (operando8 r o) := by
  cases o with
  | de8 o => rfl
  | de32 o => exact contado8_eq (r.leer32 o).toBitVec

theorem operando32ConBucle_eq : operando32ConBucle r o = Part.some (operando32 r o) := by
  cases o with
  | de8 o => exact contado32_eq (r.leer8 o).toBitVec
  | de32 o => rfl

/-- The loop of the second operand ends, and the operation is done. -/
theorem operarRegistro_eq (op8 : UInt8 → UInt8 → UInt8) (op32 : UInt32 → UInt32 → UInt32) :
    operarRegistro r op8 op32 d o = Part.some (match d with
      | .de8 d => r.escribir8 (op8 (r.leer8 d) (operando8 r o)) d
      | .de32 d => r.escribir32 (op32 (r.leer32 d) (operando32 r o)) d) := by
  cases d with
  | de8 d => rw [operarRegistro, operando8ConBucle_eq, Part.map_some]
  | de32 d => rw [operarRegistro, operando32ConBucle_eq, Part.map_some]

/-- SUM ends, with the registers that the model without loops gives. -/
theorem sumarRegistroConBucles_eq :
    sumarRegistroConBucles r d o = Part.some (sumarRegistro r d o) :=
  operarRegistro_eq ..

/-- And so does SUB. -/
theorem restarRegistroConBucles_eq :
    restarRegistroConBucles r d o = Part.some (restarRegistro r d o) :=
  operarRegistro_eq ..

/-! ### What SUM and SUB leave -/

/-- The code ends; one register holds the number modulo its width, and the others are as they
were. -/
def Asigna (r : Registros) (d : Registro) (n : ℤ) (codigo : Part Registros) : Prop :=
  ∃ r', codigo = Part.some r' ∧ (r'.leer d : ℤ) = n % 2 ^ d.ancho ∧
    ∀ x, x ≠ d → r'.leer x = r.leer x

/-- An assignment of the reference machine is one of the registers. -/
theorem asigna_of_poner {n : ℤ} (h : r'.estado = poner r.estado d n) :
    Asigna r d n (Part.some r') := by
  refine ⟨r', rfl, ?_, fun x hx => ?_⟩
  · rw [← estado_toNat, h, poner_self, BitVec.toNat_ofInt]
    exact Int.toNat_of_nonneg (Int.emod_nonneg _ (by positivity))
  · rw [← estado_toNat, h, poner_of_ne _ hx, estado_toNat]

/-- Each loop ends, and the register of destination holds the sum or the difference of the numbers
that the two registers held, modulo its own width; no other register changes. -/
theorem sumar_restar_modulares (r : Registros) (d o : Registro) :
    Asigna r d (r.leer d + r.leer o) (sumarRegistroConBucles r d o) ∧
      Asigna r d (r.leer d - r.leer o) (restarRegistroConBucles r d o) := by
  rw [sumarRegistroConBucles_eq, restarRegistroConBucles_eq]
  exact ⟨asigna_of_poner (estado_sumarRegistro r d o),
    asigna_of_poner (estado_restarRegistro r d o)⟩

/-! ### Flushing -/

/-- One iteration of the loop of `limpiar_tlb`, with the `i++` at its end. -/
def iterarLimpiar (pid : Pid) : ℕ × List RegistroTlb → Option (ℕ × List RegistroTlb)
  | (i, tlb) =>
      if h : i < tlb.length then
        -- a removal sets `i` to zero
        if tlb[i].pid = pid then some (0 + 1, tlb.eraseIdx i) else some (i + 1, tlb)
      else none

/-- `limpiar_tlb`. -/
def limpiarTlbConBucle (t : Tlb) (pid : Pid) : Part Tlb :=
  (eval (iterarLimpiar pid) (0, t.entradas)).map fun s => { t with entradas := s.2 }

/-- From any index and on any list the loop ends. -/
theorem eval_iterarLimpiar (pid : Pid) (i : ℕ) (tlb : List RegistroTlb) :
    ∃ j, eval (iterarLimpiar pid) (i, tlb) = Part.some (j, limpiarDesde pid i tlb) := by
  induction i, tlb using limpiarDesde.induct pid with
  | case1 i tlb h hpid ih =>
      obtain ⟨j, hj⟩ := ih
      have hpaso : iterarLimpiar pid (i, tlb) = some (1, tlb.eraseIdx i) := by
        rw [iterarLimpiar, dif_pos h, if_pos hpid]
      rw [limpiarDesde, dif_pos h, if_pos hpid]
      exact ⟨j, (eval_of_some hpaso).trans hj⟩
  | case2 i tlb h hpid ih =>
      obtain ⟨j, hj⟩ := ih
      have hpaso : iterarLimpiar pid (i, tlb) = some (i + 1, tlb) := by
        rw [iterarLimpiar, dif_pos h, if_neg hpid]
      rw [limpiarDesde, dif_pos h, if_neg hpid]
      exact ⟨j, (eval_of_some hpaso).trans hj⟩
  | case3 i tlb h =>
      have hpaso : iterarLimpiar pid (i, tlb) = none := by rw [iterarLimpiar, dif_neg h]
      rw [limpiarDesde, dif_neg h]
      exact ⟨i, eval_of_none hpaso⟩

/-- The flush ends on every list. -/
theorem limpiarTlbConBucle_eq (t : Tlb) (pid : Pid) :
    limpiarTlbConBucle t pid = Part.some (limpiarTlb t pid) := by
  obtain ⟨j, hj⟩ := eval_iterarLimpiar pid 0 t.entradas
  rw [limpiarTlbConBucle, hj, Part.map_some]
  rfl

/-- The flush ends, and leaves exactly the entries of the other processes, in their order. -/
def LimpiaTodo (t : Tlb) (pid : Pid) : Prop :=
  ∃ t', limpiarTlbConBucle t pid = Part.some t' ∧
    t'.entradas = t.entradas.filter fun e => decide (e.pid ≠ pid)

theorem limpiaTodo_iff_limpiarTlb {t : Tlb} {pid : Pid} :
    LimpiaTodo t pid ↔
      (limpiarTlb t pid).entradas = t.entradas.filter fun e => decide (e.pid ≠ pid) := by
  simp [LimpiaTodo, limpiarTlbConBucle_eq, Part.some_inj]

/-- The flush is complete exactly when the first two entries are not both of the process. -/
theorem limpiaTodo_iff (t : Tlb) (pid : Pid) :
    LimpiaTodo t pid ↔
      ∀ a b resto, t.entradas = a :: b :: resto → ¬(a.pid = pid ∧ b.pid = pid) := by
  rw [limpiaTodo_iff_limpiarTlb, limpiarTlb_eq]
  rcases ht : t.entradas with - | ⟨a, - | ⟨b, resto⟩⟩
  · simp
  · simp
  · by_cases hab : a.pid = pid ∧ b.pid = pid
    · -- the second entry is at the front when the loop goes on at index 1
      refine iff_of_false (fun h => ?_) fun h => h a b resto rfl hab
      have hlen := congrArg List.length h
      simp [hab.1, hab.2] at hlen
    · refine iff_of_true (if_neg hab) ?_
      rintro a b resto heq
      cases heq
      exact hab

/-- The TLB after the translation of the first two pages of process 1. -/
def dosPaginasDeUno : Tlb :=
  insertarEnTlb (insertarEnTlb (iniciarTlb 4 .fifo) ⟨1, 0, 0, 0⟩ 0 0) ⟨1, 1, 1, 0⟩ 0 0

theorem limpiar_deja_una : ¬∀ t pid, LimpiaTodo t pid := by
  intro h
  have hlimpia := limpiaTodo_iff_limpiarTlb.1 (h dosPaginasDeUno 1)
  rw [limpiarTlb_eq] at hlimpia
  exact absurd hlimpia (by decide)

end Cpu
