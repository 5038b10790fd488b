/-
**Processes that share the CPU and the memory.**

One register file, one TLB, one memory and one array of frames serve every process.  A process has
the registers only while it is in the CPU: it gives them up in its context, which the kernel keeps
and gives back.  Its instructions reach the memory through addresses that the MMU translates, from
the TLB where it can.  What it should get out of that is a machine of its own, with its registers
and a space addressed from zero, in which nothing happens but its own instructions.

Here the CPU executes the instructions on registers and on memory, asks the memory module for what
it needs, and is given to one process after another.  As long as no access leaves its space or runs
from a frame into another one, no RESIZE leaves a stale entry in the TLB, and no size is negative as
an `int`, every process goes through what it would go through alone.

Main definitions:

* `Cpu.InstruccionDecodificada`, `Cpu.EnUso.ejecutar` — `decode` and `execute`;
* `Cpu.EnUso`, `Cpu.EnUso.avanzar`, `Cpu.sistemaEnUso` — the CPU, the memory and the contexts;
* `Cpu.Privada`, `Cpu.Privada.ejecutar`, `Cpu.PasoPrivado` — a machine of one process alone;
* `Cpu.EnOrden` — the condition on a step.

Main results:

* `Cpu.traducir_exacta` — what the MMU answers;
* `Cpu.ejecutar_privada` — an instruction does what it does in the machine of its process;
* `Cpu.procesos_aislados` — every process runs as if it were alone.
-/

import TpSisop.CpuInstrucciones
import TpSisop.CpuTlbCoherencia
import TpSisop.MemoriaEspacios

set_option relaxedAutoImplicit false
set_option autoImplicit false

namespace Cpu

open Memoria (Pid Fallo EnRegla AdmiteAcceso vista enPaginas direcciones direccionDeAcceso)
open Almacen (reemplazar)
open Codificacion (littleEndian valor)
open Entero (aInt)

/-! ### Registers by name -/

namespace Registro

/-- The name of a register in a program. -/
def nombre : Registro → String
  | .de8 .ax => "AX"
  | .de8 .bx => "BX"
  | .de8 .cx => "CX"
  | .de8 .dx => "DX"
  | .de32 .eax => "EAX"
  | .de32 .ebx => "EBX"
  | .de32 .ecx => "ECX"
  | .de32 .edx => "EDX"
  | .de32 .si => "SI"
  | .de32 .di => "DI"
  | .de32 .pc => "PC"

/-- The bytes of a register in memory. -/
def tamanio : Registro → ℕ
  | .de8 _ => 1
  | .de32 _ => 4

end Registro

namespace Registros

/-- A register with its width, as `obtener_t_registro` answers it. -/
def abstracto (r : Registros) : Registro → RegistroAbstracto
  | .de8 reg => .registro8 (r.leer8 reg)
  | .de32 reg => .registro32 (r.leer32 reg)

/-- What MOV_IN writes through the pointer to the register. -/
def cargar (r : Registros) (n : ℕ) : Registro → Registros
  | .de8 reg => r.escribir8 (UInt8.ofNat n) reg
  | .de32 reg => r.escribir32 (UInt32.ofNat n) reg

variable (r : Registros) (reg : Registro)

theorem obtenerTRegistro_nombre : obtenerTRegistro r reg.nombre = some (r.abstracto reg) := by
  rcases reg with reg | reg <;> cases reg <;> rfl

@[simp] theorem abstracto_valor : (r.abstracto reg).valor = r.leer reg := by
  cases reg <;> rfl

/-- What travels of a register is its number, in as many bytes as it has. -/
theorem bytesDeRegistro_abstracto :
    Memoria.bytesDeRegistro (r.abstracto reg) = littleEndian reg.tamanio (r.leer reg) := by
  cases reg with
  | de8 reg => simp [abstracto, Memoria.bytesDeRegistro, Registro.tamanio, leer, littleEndian]
  | de32 reg => rfl

theorem leerRegistro_abstracto (bs : List UInt8) :
    r.cargar (Memoria.leerRegistro (r.abstracto reg) bs).valor reg = r.cargar (valor bs) reg := by
  cases reg with
  | de8 reg =>
      simp only [abstracto, Memoria.leerRegistro, RegistroAbstracto.valor, cargar,
        UInt8.ofNat_toNat]
  | de32 reg =>
      simp only [abstracto, Memoria.leerRegistro, RegistroAbstracto.valor, cargar,
        UInt32.ofNat_toNat]

end Registros

/-! ### The instructions (`ciclo_instruccion.c`) -/

/-- SET, SUM, SUB and JNZ; MOV_IN, MOV_OUT and COPY_STRING; and the instructions that leave the
CPU, WAIT, SIGNAL and those of input and output, some of which translate an address before.  RESIZE
stands apart, for what the memory module answers. -/
inductive InstruccionDecodificada
  | registros (i : Maquina.Instr Registro)
  | movIn (datos direccion : Registro)
  | movOut (direccion datos : Registro)
  | copyString (tamanio : UInt32)
  | ceder (direccion : Option Registro)
  deriving DecidableEq, Repr

/-- A request to the memory module and its answer; nothing, where the module fails or sends no
answer, and the CPU waits for ever. -/
def pedirAMemoria (s : Estado) (p : Memoria.Peticion) : Option (Memoria.Respuesta × Estado) :=
  match Memoria.atenderClienteCpu s.memoria p with
  | .ok ([r], memoria) => some (r, { s with memoria })
  | _ => none

/-- A translation for the process in the CPU. -/
def traducir (s : Estado) (direccion : Registro) (reloj reloj' : ℕ) :
    Option (DireccionFisica × Estado) :=
  (traducirDireccionAFisica s s.procesoEjecutando direccion.nombre reloj reloj').toOption

def ejecutarMovIn (s : Estado) (datos : Registro) (dir : DireccionFisica) : Option Estado := do
  let (r, s') ← pedirAMemoria s (.ejecutarMovin (s.registros.abstracto datos) dir)
  match r with
  | .rtaMovin reg => some { s' with registros := s'.registros.cargar reg.valor datos }
  | _ => none

def ejecutarMovOut (s : Estado) (datos : Registro) (dir : DireccionFisica) : Option Estado := do
  let (_, s') ← pedirAMemoria s (.ejecutarMovout (s.registros.abstracto datos) dir)
  return s'

/-- `ejecutar_copy_string`, which computes the physical addresses itself. -/
def ejecutarCopyString (s : Estado) (tamanio : UInt32) (di si : DireccionFisica) :
    Option Estado := do
  let fisica := fun dir : DireccionFisica =>
    dir.marco * s.memoria.tamPagina + dir.desplazamientoFisico
  let (_, s') ← pedirAMemoria s (.ejecutarCopystring (fisica di) (fisica si) tamanio di.pid)
  return s'

/-- `incrementar_pc`, on the registers of the CPU. -/
def Estado.incrementarPc (s : Estado) : Estado :=
  { s with registros := Cpu.incrementarPc s.registros }

/-- What `decode` and `execute` do to the CPU and to the memory, with the readings of the clock. -/
def decode (s : Estado) (relojes : ℕ → ℕ) : InstruccionDecodificada → Option Estado
  | .registros i => some { s with registros := execute s.registros i }
  | .movIn datos direccion => do
      let (dir, s) ← traducir s direccion (relojes 0) (relojes 1)
      let s ← ejecutarMovIn s datos dir
      return s.incrementarPc
  | .movOut direccion datos => do
      let (dir, s) ← traducir s direccion (relojes 0) (relojes 1)
      let s ← ejecutarMovOut s datos dir
      return s.incrementarPc
  | .copyString tamanio => do
      let (di, s) ← traducir s (.de32 .di) (relojes 0) (relojes 1)
      let (si, s) ← traducir s (.de32 .si) (relojes 2) (relojes 3)
      let s ← ejecutarCopyString s tamanio di si
      return s.incrementarPc
  | .ceder none => some s.incrementarPc
  | .ceder (some direccion) => do
      let (_, s) ← traducir s direccion (relojes 0) (relojes 1)
      return s.incrementarPc

/-! ### The CPU in use -/

/-- The CPU and the memory module; the registers in the PCB that the CPU has; and those in the PCBs
of the kernel, as the last context of each process left them. -/
structure EnUso where
  cpu : Estado
  pcb : Registros
  guardados : Pid → Registros

/-- What happens, each time to one process: it executes an instruction or a RESIZE, which the memory
module accepts or refuses; it is interrupted; it is given the CPU; it is created or ended. -/
inductive Suceso
  | ejecutar (pid : Pid) (i : InstruccionDecodificada) (relojes : ℕ → ℕ)
  | redimensionar (pid : Pid) (tamanio : UInt32) (aceptado : Bool)
  | desalojar (pid : Pid)
  | recibirPcb (pid : Pid)
  | crear (pid : Pid) (instrucciones : Option (List String))
  | terminar (pid : Pid)

def Suceso.pid : Suceso → Pid
  | .ejecutar pid _ _ => pid
  | .redimensionar pid _ _ => pid
  | .desalojar pid => pid
  | .recibirPcb pid => pid
  | .crear pid _ => pid
  | .terminar pid => pid

namespace EnUso

/-- The process is in the CPU. -/
def ejecuta (s : EnUso) (pid : Pid) : Prop := s.cpu.procesoEjecutando = pid ∧ pid ≠ 0

instance (s : EnUso) (pid : Pid) : Decidable (s.ejecuta pid) :=
  inferInstanceAs (Decidable (_ ∧ _))

/-- The context of the process goes to the kernel, and the CPU is free. -/
def desalojar (s : EnUso) (pid : Pid) : EnUso :=
  { s with
    cpu := { s.cpu with procesoEjecutando := 0 }
    guardados := Function.update s.guardados pid s.pcb }

/-- One instruction, with its `escribir_pcb`. -/
def ejecutar (s : EnUso) (pid : Pid) (i : InstruccionDecodificada) (relojes : ℕ → ℕ) :
    Option EnUso :=
  (decode s.cpu relojes i).map fun cpu =>
    let s' : EnUso := { s with cpu, pcb := cpu.registros }
    match i with
    | .ceder _ => s'.desalojar pid
    | _ => s'

/-- RESIZE.  The context of a process that is refused goes to the kernel before the program counter
is incremented. -/
def redimensionar (s : EnUso) (pid : Pid) (tamanio : UInt32) : Option (Bool × EnUso) :=
  match ejecutarResize s.cpu tamanio with
  | .error _ => none
  | .ok cpu =>
      let cpu' := cpu.incrementarPc
      if cpu.procesoEjecutando = 0 then
        some (false,
          { cpu := cpu'
            pcb := cpu'.registros
            guardados := Function.update s.guardados pid s.pcb })
      else some (true, { s with cpu := cpu', pcb := cpu'.registros })

def avanzar (s : EnUso) : Suceso → Option EnUso
  | .ejecutar pid i relojes => if s.ejecuta pid then s.ejecutar pid i relojes else none
  | .redimensionar pid tamanio aceptado =>
      if s.ejecuta pid then
        match s.redimensionar pid tamanio with
        | none => none
        | some (r, s') => if r = aceptado then some s' else none
      else none
  | .desalojar pid => if s.ejecuta pid then some (s.desalojar pid) else none
  | .recibirPcb pid =>
      -- the PCB of a process that was created
      if s.cpu.procesoEjecutando = 0 ∧ pid < s.cpu.ultimoPid then
        some { s with
          cpu := { s.cpu with procesoEjecutando := pid, registros := s.guardados pid }
          pcb := s.guardados pid }
      else none
  | .crear pid instrucciones =>
      -- the counter of pids of the kernel
      if pid = s.cpu.ultimoPid then
        some { s with
          cpu := { s.cpu with
            memoria := Memoria.crearProceso s.cpu.memoria instrucciones pid
            ultimoPid := pid + 1 }
          guardados := Function.update s.guardados pid {} }
      else none
  | .terminar pid =>
      match Memoria.eliminarProceso s.cpu.memoria pid with
      | .error _ => none
      | .ok memoria => some { s with cpu := { s.cpu with memoria } }

end EnUso

/-- The CPU, the memory module and the contexts, from the start. -/
def sistemaEnUso (P tamMemoria : ℕ) (tamTlb : ℤ) (algoTlb : AlgoritmoTlb) :
    Transicion.Sistema EnUso Suceso where
  inicial s := ∃ espacio, s =
    { cpu := estadoInicial (Memoria.crearEstructurasMemoria P tamMemoria espacio) tamTlb algoTlb
      pcb := {}
      guardados := fun _ => {} }
  paso s u s' := s.avanzar u = some s'

/-- The accesses of an instruction lie inside the space of the process, and start at a page boundary
or reach consecutive frames only. -/
def InstruccionDecodificada.Admite (s : Estado) : InstruccionDecodificada → Prop
  | .registros _ => True
  | .movIn datos direccion =>
      AdmiteAcceso s.memoria s.procesoEjecutando (s.registros.leer direccion) datos.tamanio
  | .movOut direccion datos =>
      AdmiteAcceso s.memoria s.procesoEjecutando (s.registros.leer direccion) datos.tamanio
  | .copyString tamanio => tamanio.toNat < 2 ^ 31 ∧
      AdmiteAcceso s.memoria s.procesoEjecutando s.registros.di.toNat tamanio.toNat ∧
      AdmiteAcceso s.memoria s.procesoEjecutando s.registros.si.toNat tamanio.toNat
  | .ceder _ => True

/-- The accesses are as they should be, a RESIZE leaves no entry of a page that it gives back, and
no size is negative as an `int`. -/
def EnOrden (s : EnUso) : Suceso → Prop
  | .ejecutar _ i _ => i.Admite s.cpu
  | .redimensionar _ tamanio _ => tamanio.toNat < 2 ^ 31 ∧ ResizeDescarta s.cpu (.resize tamanio)
  | _ => True

/-! ### One process alone -/

/-- The machine of one process: registers, and a space addressed from zero. -/
structure Privada where
  registros : Registros
  espacio : List UInt8

namespace Privada

/-- An instruction; none, where it leaves the space. -/
def ejecutar (x : Privada) : InstruccionDecodificada → Option Privada
  | .registros i => some { x with registros := execute x.registros i }
  | .movIn datos direccion =>
      let L := x.registros.leer direccion
      if L + datos.tamanio ≤ x.espacio.length then
        let leidos := (x.espacio.drop L).take datos.tamanio
        some { x with registros := incrementarPc (x.registros.cargar (valor leidos) datos) }
      else none
  | .movOut direccion datos =>
      let L := x.registros.leer direccion
      if L + datos.tamanio ≤ x.espacio.length then
        some ⟨incrementarPc x.registros,
          reemplazar x.espacio L (littleEndian datos.tamanio (x.registros.leer datos))⟩
      else none
  | .copyString tamanio =>
      let di := x.registros.di.toNat
      let si := x.registros.si.toNat
      let n := tamanio.toNat
      if di + n ≤ x.espacio.length ∧ si + n ≤ x.espacio.length then
        some ⟨incrementarPc x.registros, reemplazar x.espacio di ((x.espacio.drop si).take n)⟩
      else none
  | .ceder _ => some { x with registros := incrementarPc x.registros }

end Privada

/-- What happens to the machine of a process: its instructions; a RESIZE, which gives it bytes that
may be any, or is refused; nothing, when it is interrupted or given the CPU.  Without a machine it
may be created. -/
inductive PasoPrivado (P : ℕ) : Option Privada → Suceso → Option Privada → Prop
  | ejecutar (pid : Pid) (relojes : ℕ → ℕ) {i : InstruccionDecodificada} {x x' : Privada} :
      x.ejecutar i = some x' →
      PasoPrivado P (some x) (.ejecutar pid i relojes) (some x')
  | aceptado (pid : Pid) (tamanio : UInt32) (r : Registros) {bs bs' : List UInt8} :
      bs'.length = enPaginas P tamanio.toNat → bs'.take bs.length = bs.take bs'.length →
      PasoPrivado P (some ⟨r, bs⟩) (.redimensionar pid tamanio true) (some ⟨incrementarPc r, bs'⟩)
  | rechazado (pid : Pid) (tamanio : UInt32) (x : Privada) :
      PasoPrivado P (some x) (.redimensionar pid tamanio false) (some x)
  | desalojar (pid : Pid) (x : Privada) : PasoPrivado P (some x) (.desalojar pid) (some x)
  | recibirPcb (pid : Pid) (x : Privada) : PasoPrivado P (some x) (.recibirPcb pid) (some x)
  | crear (pid : Pid) (instrucciones : Option (List String)) :
      PasoPrivado P none (.crear pid instrucciones) (some ⟨{}, []⟩)
  | terminar (pid : Pid) (x : Privada) : PasoPrivado P (some x) (.terminar pid) none
  | ausente {u : Suceso} : (∀ pid instrucciones, u ≠ .crear pid instrucciones) →
      PasoPrivado P none u none

/-- The runs of one process alone. -/
def privado (P : ℕ) : Transicion.Sistema (Option Privada) Suceso where
  inicial x := x = none
  paso := PasoPrivado P

/-- What the CPU, the memory and the contexts hold of a process. -/
def privada (P : ℕ) (s : EnUso) (pid : Pid) : Option Privada :=
  (vista P s.cpu.memoria pid).map fun bs =>
    ⟨if s.cpu.procesoEjecutando = pid then s.cpu.registros else s.guardados pid, bs⟩

/-! ### What the MMU answers -/

section Traducir

variable {s s' : Estado} {reg : Registro} {reloj reloj' : ℕ} {dir : DireccionFisica}

theorem traducir_eq_some (h : traducir s reg reloj reloj' = some (dir, s')) :
    traducirDireccionAFisica s s.procesoEjecutando reg.nombre reloj reloj' = .ok (dir, s') :=
  Resultado.eq_ok_of_toOption h

/-- A translation changes nothing but the TLB, which stays in agreement with the page tables. -/
theorem traducir_tlb (hs : TlbCoherente s) (h : traducir s reg reloj reloj' = some (dir, s')) :
    ∃ tlb, s' = { s with tlb } ∧ TlbCoherente { s with tlb } := by
  have hs' := (traducirDireccionAFisica_ok (traducir_eq_some h)).1
  exact ⟨s'.tlb, hs', hs' ▸ tlbCoherente_traducir hs (traducir_eq_some h)⟩

/-- A page that is found, in the TLB or in its table, is one of the process. -/
theorem pagina_of_traducir (hs : TlbCoherente s) {ps : List ℕ}
    (hps : s.memoria.tablaDePaginas s.procesoEjecutando = some ps)
    (h : traducir s reg reloj reloj' = some (dir, s')) :
    s.registros.leer reg / s.memoria.tamPagina < ps.length := by
  have hok := traducir_eq_some h
  unfold traducirDireccionAFisica at hok
  simp only [s.registros.obtenerTRegistro_nombre reg, RegistroAbstracto.contarDesde0_toNat,
    Registros.abstracto_valor] at hok
  obtain ⟨hmarco, -⟩ := obtenerMarcoEnTlb_spec s.tlb s.procesoEjecutando
    (s.registros.leer reg / s.memoria.tamPagina) reloj
  split at hok
  · cases hmem : Memoria.accederATablaDePaginas s.memoria s.procesoEjecutando
      (s.registros.leer reg / s.memoria.tamPagina) with
    | error fallo => simp [hmem] at hok
    | ok marco =>
        obtain ⟨qs, hqs, hf⟩ := Memoria.accederATablaDePaginas_eq_ok.1 hmem
        cases hps.symm.trans hqs
        exact (List.getElem?_eq_some_iff.1 hf).1
  · rename_i hne
    obtain ⟨r, hr, hclave⟩ := hmarco.resolve_left hne
    have hrefleja := hs.entradas r hr
    rw [hclave] at hrefleja
    exact (List.getElem?_eq_some_iff.1 (hrefleja ps hps)).1

/-- The address is one of the process in the CPU. -/
theorem pid_of_traducir (h : traducir s reg reloj reloj' = some (dir, s')) :
    dir.pid = s.procesoEjecutando := by
  have hok := traducir_eq_some h
  unfold traducirDireccionAFisica at hok
  simp only [s.registros.obtenerTRegistro_nombre reg] at hok
  split at hok
  · split at hok
    · cases hok
    · cases hok
      rfl
  · cases hok
    rfl

/-- The MMU answers the physical address of the logical one in the register. -/
theorem traducir_exacta (hs : TlbCoherente s) {ps : List ℕ}
    (hps : s.memoria.tablaDePaginas s.procesoEjecutando = some ps)
    (h : traducir s reg reloj reloj' = some (dir, s')) :
    Memoria.traducirFisica s.memoria dir =
      direccionDeAcceso s.memoria ps (s.registros.leer reg) := by
  have hpagina := pagina_of_traducir hs hps h
  obtain ⟨dir', s'', hok, hmarco, -, hdes⟩ :=
    traducirDireccionAFisica_spec hs (s.registros.obtenerTRegistro_nombre reg) hps
      (by rwa [Registros.abstracto_valor])
  cases (traducir_eq_some h).symm.trans hok
  rw [Registros.abstracto_valor] at hmarco hdes
  rw [Memoria.traducirFisica, direccionDeAcceso, hdes, List.getD_eq_getElem?_getD, hmarco,
    Option.getD_some]

end Traducir

/-! ### One instruction -/

/-- The CPU and the memory go on in order, in the same processes; what changed is the machine of the
process in the CPU, as the instruction says. -/
structure Hace (P N : ℕ) (s : Estado) (i : InstruccionDecodificada) (s' : Estado) : Prop where
  tlb : TlbCoherente s'
  regla : EnRegla P N s'.memoria
  tabla : s'.memoria.tablaDePaginas = s.memoria.tablaDePaginas
  proceso : s'.procesoEjecutando = s.procesoEjecutando
  pids : s'.ultimoPid = s.ultimoPid
  ajenos : ∀ q, q ≠ s.procesoEjecutando → vista P s'.memoria q = vista P s.memoria q
  propio : ∀ bs, vista P s.memoria s.procesoEjecutando = some bs →
    ∃ bs', vista P s'.memoria s.procesoEjecutando = some bs' ∧
      (⟨s.registros, bs⟩ : Privada).ejecutar i = some ⟨s'.registros, bs'⟩

section Instrucciones

variable {P N : ℕ} {s s' : Estado}

/-- An instruction that reaches no more than the registers and the TLB. -/
theorem hace_registros (hregla : EnRegla P N s.memoria) {i : InstruccionDecodificada} {tlb : Tlb}
    (htlb : TlbCoherente { s with tlb }) {r : Registros}
    (hi : ∀ bs, vista P s.memoria s.procesoEjecutando = some bs →
      (⟨s.registros, bs⟩ : Privada).ejecutar i = some ⟨r, bs⟩) :
    Hace P N s i { s with tlb, registros := r } :=
  ⟨⟨htlb.memoria, htlb.pids, htlb.dadas, htlb.entradas⟩, hregla, rfl, rfl, rfl, fun _ _ => rfl,
    fun bs hbs => ⟨bs, hbs, hi bs hbs⟩⟩

/-- An instruction that writes a stretch of the space of the process. -/
theorem hace_escribir (hP : 0 < P) (hregla : EnRegla P N s.memoria)
    {i : InstruccionDecodificada} {tlb : Tlb}
    (htlb : TlbCoherente { s with tlb }) {r : Registros} {ps : List ℕ}
    (hps : s.memoria.tablaDePaginas s.procesoEjecutando = some ps) {L n : ℕ}
    {espacio : ℕ → UInt8} {datos : List UInt8}
    (hw : Almacen.Escribe s.memoria.espacio espacio (((direcciones P ps).drop L).take n) datos)
    (hlen : L + n ≤ ps.length * P)
    (hi : (⟨s.registros, (direcciones P ps).map s.memoria.espacio⟩ : Privada).ejecutar i =
      some ⟨r, reemplazar ((direcciones P ps).map s.memoria.espacio) L datos⟩) :
    Hace P N s i { s with tlb, registros := r, memoria := { s.memoria with espacio } } := by
  obtain ⟨hregla', hvista⟩ := Memoria.vista_escribir hP hregla hps hw hlen
  refine ⟨⟨hregla'.coherente, htlb.pids, htlb.dadas, htlb.entradas⟩, hregla', rfl, rfl, rfl, ?_, ?_⟩
  · intro q hq
    simp only
    rw [hvista, Function.update_of_ne hq]
  · intro bs hbs
    cases (Memoria.vista_of_tabla hps).symm.trans hbs
    refine ⟨_, ?_, hi⟩
    simp only
    rw [hvista, Function.update_self]

theorem pedirAMemoria_eq_some {p : Memoria.Peticion} {r : Memoria.Respuesta}
    (h : pedirAMemoria s p = some (r, s')) :
    ∃ m, Memoria.atenderClienteCpu s.memoria p = .ok ([r], m) ∧ s' = { s with memoria := m } := by
  unfold pedirAMemoria at h
  split at h
  · rename_i r' m hok
    cases h
    exact ⟨m, hok, rfl⟩
  · cases h

variable {L : ℕ} {datos : Registro} {dir : DireccionFisica} {ps : List ℕ}

/-- What the memory module answers to a MOV_IN. -/
theorem atender_movin (hP : 0 < P) (hregla : EnRegla P N s.memoria)
    (hps : s.memoria.tablaDePaginas dir.pid = some ps)
    (hdir : Memoria.traducirFisica s.memoria dir = direccionDeAcceso s.memoria ps L)
    (hL : L / s.memoria.tamPagina < ps.length)
    (hadm : AdmiteAcceso s.memoria dir.pid L datos.tamanio) (r : Registros) :
    Memoria.atenderClienteCpu s.memoria (.ejecutarMovin (r.abstracto datos) dir) =
      .ok ([.rtaMovin (Memoria.leerRegistro (r.abstracto datos)
        ((((direcciones P ps).map s.memoria.espacio).drop L).take datos.tamanio))], s.memoria) := by
  have hlen := (hadm ps hps).1
  have hleido := Memoria.leido_eq (Memoria.exacto_of_admite hP hregla hadm hps hL).1 hlen
  rw [hregla.tamPagina] at hleido
  have hbytes : (Memoria.bytesDeRegistro (r.abstracto datos)).length = datos.tamanio := by
    rw [Registros.bytesDeRegistro_abstracto, Codificacion.littleEndian_length]
  rw [Memoria.atenderClienteCpu, hbytes, hdir, hleido]
  rfl

/-- What the memory module does with a MOV_OUT. -/
theorem atender_movout (hP : 0 < P) (hregla : EnRegla P N s.memoria)
    (hps : s.memoria.tablaDePaginas dir.pid = some ps)
    (hdir : Memoria.traducirFisica s.memoria dir = direccionDeAcceso s.memoria ps L)
    (hL : L / s.memoria.tamPagina < ps.length)
    (hadm : AdmiteAcceso s.memoria dir.pid L datos.tamanio) (r : Registros) :
    ∃ espacio, Memoria.atenderClienteCpu s.memoria (.ejecutarMovout (r.abstracto datos) dir) =
        .ok ([.ejecutarMovout dir.pid], { s.memoria with espacio }) ∧
      Almacen.Escribe s.memoria.espacio espacio (((direcciones P ps).drop L).take datos.tamanio)
        (littleEndian datos.tamanio (r.leer datos)) := by
  have hlen := (hadm ps hps).1
  have hbytes : (littleEndian datos.tamanio (r.leer datos)).length = datos.tamanio :=
    Codificacion.littleEndian_length _ _
  have hexacto := (Memoria.exacto_of_admite hP hregla hadm hps hL).2
  generalize hd : littleEndian datos.tamanio (r.leer datos) = bs at hbytes
  rw [← hbytes] at hexacto hlen ⊢
  obtain ⟨espacio, hok, hw⟩ := Memoria.escrito_eq hexacto hlen
  rw [hregla.tamPagina] at hw
  refine ⟨espacio, ?_, hw⟩
  rw [Memoria.atenderClienteCpu, Registros.bytesDeRegistro_abstracto, hd, hdir, hok]
  rfl

/-- What the memory module does with a COPY_STRING. -/
theorem atender_copystring (hP : 0 < P) (hregla : EnRegla P N s.memoria) {pid : Pid}
    (hps : s.memoria.tablaDePaginas pid = some ps) {di si : ℕ} {tamanio : UInt32}
    (hdi : di / s.memoria.tamPagina < ps.length) (hsi : si / s.memoria.tamPagina < ps.length)
    (hint : tamanio.toNat < 2 ^ 31)
    (hadm : AdmiteAcceso s.memoria pid di tamanio.toNat ∧
      AdmiteAcceso s.memoria pid si tamanio.toNat) :
    ∃ espacio, Memoria.atenderClienteCpu s.memoria (.ejecutarCopystring
          (direccionDeAcceso s.memoria ps di) (direccionDeAcceso s.memoria ps si) tamanio pid) =
        .ok ([.ejecutarCopystring pid], { s.memoria with espacio }) ∧
      Almacen.Escribe s.memoria.espacio espacio (((direcciones P ps).drop di).take tamanio.toNat)
        ((((direcciones P ps).map s.memoria.espacio).drop si).take tamanio.toNat) := by
  have hlen := (hadm.1 ps hps).1
  have hlen' := (hadm.2 ps hps).1
  have hleido := Memoria.leido_eq (Memoria.exacto_of_admite hP hregla hadm.2 hps hsi).1 hlen'
  have hexacto := (Memoria.exacto_of_admite hP hregla hadm.1 hps hdi).2
  rw [hregla.tamPagina] at hleido hlen'
  generalize hd : (((direcciones P ps).map s.memoria.espacio).drop si).take tamanio.toNat = datos
    at hleido ⊢
  have hn : datos.length = tamanio.toNat := by
    rw [← hd, List.length_take, List.length_drop, List.length_map, Memoria.length_direcciones]
    omega
  have htam : (aInt tamanio.toNat).toNat = tamanio.toNat := by
    rw [Entero.aInt_of_lt hint, Int.toNat_natCast]
  rw [← hn] at hexacto hlen
  obtain ⟨espacio, hok, hw⟩ := Memoria.escrito_eq hexacto hlen
  rw [hregla.tamPagina, hn] at hw
  refine ⟨espacio, ?_, hw⟩
  rw [Memoria.atenderClienteCpu, htam, Memoria.copyString, hleido]
  simp only [bind, Except.bind]
  rw [hok]
  rfl

/-- A process whose table is gone has no access served. -/
theorem tabla_of_movin {r : Registros} {x : List Memoria.Respuesta × Memoria.Estado}
    (h : Memoria.atenderClienteCpu s.memoria (.ejecutarMovin (r.abstracto datos) dir) = .ok x) :
    ∃ ps, s.memoria.tablaDePaginas dir.pid = some ps := by
  cases hps : s.memoria.tablaDePaginas dir.pid with
  | none => simp [Memoria.atenderClienteCpu, Memoria.obtenerDatosDeMemoria, hps, Except.map] at h
  | some ps => exact ⟨ps, rfl⟩

theorem tabla_of_movout {r : Registros} {x : List Memoria.Respuesta × Memoria.Estado}
    (h : Memoria.atenderClienteCpu s.memoria (.ejecutarMovout (r.abstracto datos) dir) = .ok x) :
    ∃ ps, s.memoria.tablaDePaginas dir.pid = some ps := by
  cases hps : s.memoria.tablaDePaginas dir.pid with
  | none => simp [Memoria.atenderClienteCpu, Memoria.agregarDatosAMemoria, hps, Except.map] at h
  | some ps => exact ⟨ps, rfl⟩

theorem tabla_of_copystring {di si : ℕ} {tamanio : UInt32} {pid : Pid}
    {x : List Memoria.Respuesta × Memoria.Estado}
    (h : Memoria.atenderClienteCpu s.memoria (.ejecutarCopystring di si tamanio pid) = .ok x) :
    ∃ ps, s.memoria.tablaDePaginas pid = some ps := by
  cases hps : s.memoria.tablaDePaginas pid with
  | none =>
      simp [Memoria.atenderClienteCpu, Memoria.copyString, Memoria.obtenerDatosDeMemoria, hps,
        Except.map, bind, Except.bind] at h
  | some ps => exact ⟨ps, rfl⟩

/-- MOV_IN. -/
theorem hace_movIn (hP : 0 < P) (hs : TlbCoherente s) (hregla : EnRegla P N s.memoria)
    {direccion : Registro} {relojes : ℕ → ℕ}
    (hadm : (InstruccionDecodificada.movIn datos direccion).Admite s)
    (h : decode s relojes (.movIn datos direccion) = some s') :
    Hace P N s (.movIn datos direccion) s' := by
  obtain ⟨⟨dir, s₁⟩, htrad, h⟩ := Option.bind_eq_some_iff.1 h
  obtain ⟨s₂, hmov, h⟩ := Option.bind_eq_some_iff.1 h
  obtain ⟨⟨resp, s₃⟩, hpedir, hmov⟩ := Option.bind_eq_some_iff.1 hmov
  have hpid := pid_of_traducir htrad
  obtain ⟨tlb, rfl, htlb⟩ := traducir_tlb hs htrad
  obtain ⟨m, hatender, rfl⟩ := pedirAMemoria_eq_some hpedir
  obtain ⟨ps, hps⟩ := tabla_of_movin hatender
  have hps' := hpid ▸ hps
  have hL := pagina_of_traducir hs hps' htrad
  have hlen := (hadm ps hps').1
  rw [hregla.tamPagina] at hlen
  cases hatender.symm.trans (atender_movin hP hregla hps (traducir_exacta hs hps' htrad) hL
    (by rw [hpid]; exact hadm) s.registros)
  cases hmov
  cases h
  refine hace_registros hregla htlb fun bs hbs => ?_
  cases (Memoria.vista_of_tabla hps').symm.trans hbs
  rw [Privada.ejecutar]
  simp only
  rw [if_pos (by rwa [List.length_map, Memoria.length_direcciones]),
    Registros.leerRegistro_abstracto]

/-- MOV_OUT. -/
theorem hace_movOut (hP : 0 < P) (hs : TlbCoherente s) (hregla : EnRegla P N s.memoria)
    {direccion : Registro} {relojes : ℕ → ℕ}
    (hadm : (InstruccionDecodificada.movOut direccion datos).Admite s)
    (h : decode s relojes (.movOut direccion datos) = some s') :
    Hace P N s (.movOut direccion datos) s' := by
  obtain ⟨⟨dir, s₁⟩, htrad, h⟩ := Option.bind_eq_some_iff.1 h
  obtain ⟨s₂, hmov, h⟩ := Option.bind_eq_some_iff.1 h
  obtain ⟨⟨resp, s₃⟩, hpedir, hmov⟩ := Option.bind_eq_some_iff.1 hmov
  have hpid := pid_of_traducir htrad
  obtain ⟨tlb, rfl, htlb⟩ := traducir_tlb hs htrad
  obtain ⟨m, hatender, rfl⟩ := pedirAMemoria_eq_some hpedir
  obtain ⟨ps, hps⟩ := tabla_of_movout hatender
  have hps' := hpid ▸ hps
  have hL := pagina_of_traducir hs hps' htrad
  have hlen := (hadm ps hps').1
  rw [hregla.tamPagina] at hlen
  obtain ⟨espacio, hok, hw⟩ := atender_movout hP hregla hps (traducir_exacta hs hps' htrad) hL
    (by rw [hpid]; exact hadm) s.registros
  cases hatender.symm.trans hok
  cases hmov
  cases h
  refine hace_escribir hP hregla htlb hps' hw hlen ?_
  rw [Privada.ejecutar]
  simp only
  rw [if_pos (by rwa [List.length_map, Memoria.length_direcciones])]

/-- COPY_STRING. -/
theorem hace_copyString (hP : 0 < P) (hs : TlbCoherente s) (hregla : EnRegla P N s.memoria)
    {tamanio : UInt32} {relojes : ℕ → ℕ}
    (hadm : (InstruccionDecodificada.copyString tamanio).Admite s)
    (h : decode s relojes (.copyString tamanio) = some s') :
    Hace P N s (.copyString tamanio) s' := by
  obtain ⟨⟨di, s₁⟩, htrad, h⟩ := Option.bind_eq_some_iff.1 h
  obtain ⟨⟨si, s₂⟩, htrad', h⟩ := Option.bind_eq_some_iff.1 h
  obtain ⟨s₃, hcopia, h⟩ := Option.bind_eq_some_iff.1 h
  obtain ⟨⟨resp, s₄⟩, hpedir, hcopia⟩ := Option.bind_eq_some_iff.1 hcopia
  have hpid := pid_of_traducir htrad
  obtain ⟨tlb, rfl, htlb⟩ := traducir_tlb hs htrad
  obtain ⟨tlb', rfl, htlb'⟩ := traducir_tlb htlb htrad'
  obtain ⟨m, hatender, rfl⟩ := pedirAMemoria_eq_some hpedir
  obtain ⟨ps, hps⟩ := tabla_of_copystring hatender
  rw [hpid] at hps hatender
  obtain ⟨hint, hdi, hsi⟩ := hadm
  have hlen := (hdi ps hps).1
  have hlen' := (hsi ps hps).1
  rw [hregla.tamPagina] at hlen hlen'
  have hfisica : ∀ d : DireccionFisica,
      d.marco * s.memoria.tamPagina + d.desplazamientoFisico =
        Memoria.traducirFisica s.memoria d := by
    intro d
    rw [Memoria.traducirFisica, Memoria.traducirDireccion, Nat.mul_comm]
  obtain ⟨espacio, hok, hw⟩ := atender_copystring hP hregla hps (pagina_of_traducir hs hps htrad)
    (pagina_of_traducir htlb hps htrad') hint ⟨hdi, hsi⟩
  simp only [hfisica, traducir_exacta hs hps htrad] at hatender
  rw [show Memoria.traducirFisica s.memoria si = _ from traducir_exacta htlb hps htrad']
    at hatender
  cases hatender.symm.trans hok
  cases hcopia
  cases h
  refine hace_escribir hP hregla htlb' hps hw hlen ?_
  rw [Privada.ejecutar]
  simp only
  rw [if_pos (by rw [List.length_map, Memoria.length_direcciones]; exact ⟨hlen, hlen'⟩)]
  rfl

/-- An instruction does what it does in the machine of its process. -/
theorem ejecutar_privada (hP : 0 < P) (hs : TlbCoherente s) (hregla : EnRegla P N s.memoria)
    {i : InstruccionDecodificada} {relojes : ℕ → ℕ} (hadm : i.Admite s)
    (h : decode s relojes i = some s') :
    Hace P N s i s' := by
  cases i with
  | registros i =>
      cases h
      exact hace_registros hregla hs fun bs _ => rfl
  | movIn datos direccion => exact hace_movIn hP hs hregla hadm h
  | movOut direccion datos => exact hace_movOut hP hs hregla hadm h
  | copyString tamanio => exact hace_copyString hP hs hregla hadm h
  | ceder direccion =>
      cases direccion with
      | none =>
          cases h
          exact hace_registros hregla hs fun bs _ => rfl
      | some direccion =>
          obtain ⟨⟨dir, s₁⟩, htrad, h⟩ := Option.bind_eq_some_iff.1 h
          obtain ⟨tlb, rfl, htlb⟩ := traducir_tlb hs htrad
          cases h
          exact hace_registros hregla htlb fun bs _ => rfl

end Instrucciones

/-! ### One step -/

/-- The TLB and the memory are in order, no process has the pid of a free CPU, the one in the CPU
was created, and its PCB there is up to date. -/
structure Bien (P N : ℕ) (s : EnUso) : Prop where
  tlb : TlbCoherente s.cpu
  regla : EnRegla P N s.cpu.memoria
  libre : s.cpu.memoria.tablaDePaginas 0 = none
  dado : s.cpu.procesoEjecutando < s.cpu.ultimoPid
  pcb : s.cpu.procesoEjecutando ≠ 0 → s.pcb = s.cpu.registros

/-- The machines of the processes go on as `A` says of the one whose event it is. -/
def Avanza (P N : ℕ) (s : EnUso) (u : Suceso) (s' : EnUso) : Prop :=
  Bien P N s' ∧ PasoPrivado P (privada P s u.pid) u (privada P s' u.pid) ∧
    ∀ q, q ≠ u.pid → privada P s' q = privada P s q

section Pasos

variable {P N : ℕ} {s s' : EnUso} {pid : Pid}

theorem privada_of_none (h : vista P s.cpu.memoria pid = none) : privada P s pid = none := by
  rw [privada, h, Option.map_none]

theorem vista_cero (hs : Bien P N s) : vista P s.cpu.memoria 0 = none := by
  rw [vista, hs.libre, Option.map_none]

/-- The registers of the process that had the CPU are `r` now: it still has it, or its context was
saved. -/
def Deja (s : EnUso) (pid : Pid) (s' : EnUso) (r : Registros) : Prop :=
  (s'.cpu.procesoEjecutando = pid ∧ s'.cpu.registros = r ∧ s'.guardados = s.guardados) ∨
    (s'.cpu.procesoEjecutando = 0 ∧ s'.guardados = Function.update s.guardados pid r)

theorem Deja.propia {r : Registros} (h : Deja s pid s' r) (hpid : pid ≠ 0) :
    privada P s' pid = (vista P s'.cpu.memoria pid).map fun bs => ⟨r, bs⟩ := by
  unfold privada
  rcases h with ⟨hproc, hr, -⟩ | ⟨hproc, hg⟩
  · rw [if_pos hproc, hr]
  · rw [if_neg (by rw [hproc]; exact hpid.symm), hg, Function.update_self]

theorem Deja.ajena {r : Registros} (h : Deja s pid s' r) (he : s.ejecuta pid) (hs : Bien P N s)
    (hs' : Bien P N s') {q : Pid} (hq : q ≠ pid)
    (hv : vista P s'.cpu.memoria q = vista P s.cpu.memoria q) : privada P s' q = privada P s q := by
  by_cases hcero : q = 0
  · subst hcero
    rw [privada_of_none (vista_cero hs), privada_of_none (vista_cero hs')]
  have hantes : s.cpu.procesoEjecutando ≠ q := by
    rw [he.1]
    exact hq.symm
  rw [privada, privada, hv, if_neg hantes]
  rcases h with ⟨hproc, -, hg⟩ | ⟨hproc, hg⟩
  · rw [if_neg (by rw [hproc]; exact hq.symm), hg]
  · rw [if_neg (by rw [hproc]; exact fun h => hcero h.symm), hg, Function.update_of_ne hq]

/-- The machine of the process in the CPU. -/
theorem privada_ejecuta (he : s.ejecuta pid) :
    privada P s pid = (vista P s.cpu.memoria pid).map fun bs => ⟨s.cpu.registros, bs⟩ := by
  rw [privada, if_pos he.1]

theorem avanza_ejecutar (hP : 0 < P) (hs : Bien P N s) (he : s.ejecuta pid)
    {i : InstruccionDecodificada}
    {relojes : ℕ → ℕ} (hadm : i.Admite s.cpu) (h : s.ejecutar pid i relojes = some s') :
    Avanza P N s (.ejecutar pid i relojes) s' := by
  obtain ⟨cpu, hcpu, heq⟩ := Option.map_eq_some_iff.1 h
  have hace := ejecutar_privada hP hs.tlb hs.regla hadm hcpu
  have hlibre : cpu.memoria.tablaDePaginas 0 = none := by rw [hace.tabla, hs.libre]
  have hproc : cpu.procesoEjecutando = pid := hace.proceso.trans he.1
  have hdado : cpu.procesoEjecutando < cpu.ultimoPid := by
    rw [hace.proceso, hace.pids]
    exact hs.dado
  obtain ⟨hs', hmem, hdeja⟩ : Bien P N s' ∧ s'.cpu.memoria = cpu.memoria ∧
      Deja s pid s' cpu.registros := by
    have hqueda : Bien P N { s with cpu, pcb := cpu.registros } ∧
        Deja s pid { s with cpu, pcb := cpu.registros } cpu.registros :=
      ⟨⟨hace.tlb, hace.regla, hlibre, hdado, fun _ => rfl⟩, Or.inl ⟨hproc, rfl, rfl⟩⟩
    cases i with
    | ceder direccion =>
        subst heq
        refine ⟨⟨⟨hace.tlb.memoria, hace.tlb.pids, hace.tlb.dadas, hace.tlb.entradas⟩, hace.regla,
          hlibre, Nat.zero_lt_of_lt hdado, fun hne => absurd rfl hne⟩, rfl, Or.inr ⟨rfl, rfl⟩⟩
    | registros i => exact heq ▸ ⟨hqueda.1, rfl, hqueda.2⟩
    | movIn datos direccion => exact heq ▸ ⟨hqueda.1, rfl, hqueda.2⟩
    | movOut direccion datos => exact heq ▸ ⟨hqueda.1, rfl, hqueda.2⟩
    | copyString tamanio => exact heq ▸ ⟨hqueda.1, rfl, hqueda.2⟩
  refine ⟨hs', ?_, fun q hq => hdeja.ajena he hs hs' hq ?_⟩
  · rw [Suceso.pid, privada_ejecuta he, hdeja.propia he.2, hmem]
    have hpropio := hace.propio
    rw [he.1] at hpropio
    cases hbs : vista P s.cpu.memoria pid with
    | none =>
        have hnada : vista P cpu.memoria pid = none := by
          rw [vista, hace.tabla]
          simpa [vista] using hbs
        rw [hnada]
        exact .ausente fun _ _ h => by cases h
    | some bs =>
        obtain ⟨bs', hbs', hx⟩ := hpropio bs hbs
        rw [hbs']
        exact .ejecutar pid relojes hx
  · rw [hmem]
    exact hace.ajenos q (by rw [he.1]; exact hq)

/-- What a RESIZE leaves in the two modules. -/
theorem ejecutarResize_spec (hP : 0 < P) {c c' : Estado} (hs : TlbCoherente c)
    (hregla : EnRegla P N c.memoria) {tamanio : UInt32} (hint : tamanio.toNat < 2 ^ 31)
    (hdescarta : ResizeDescarta c (.resize tamanio)) (h : ejecutarResize c tamanio = .ok c') :
    TlbCoherente c' ∧ c'.registros = c.registros ∧ c'.ultimoPid = c.ultimoPid ∧
      ((c'.procesoEjecutando = 0 ∧
        Memoria.Sirve P N c.memoria
          (.redimensionar c.procesoEjecutando tamanio.toNat, .rechazado) c'.memoria) ∨
      (c'.procesoEjecutando = c.procesoEjecutando ∧
        Memoria.Sirve P N c.memoria
          (.redimensionar c.procesoEjecutando tamanio.toNat, .hecho) c'.memoria)) := by
  have htlb := tlbCoherente_resize hs hdescarta h
  unfold ejecutarResize at h
  rw [Entero.aInt_of_lt hint] at h
  cases hres : Memoria.resizeProceso c.memoria c.procesoEjecutando (tamanio.toNat : ℤ) with
  | error fallo => simp [hres] at h
  | ok x =>
      obtain ⟨codigo, m⟩ := x
      simp only [hres, Except.ok.injEq] at h
      subst h
      have husar : Memoria.usar c.memoria (.redimensionar c.procesoEjecutando tamanio.toNat) =
          .ok (if codigo = 1 then .rechazado else .hecho, m) := by
        rw [Memoria.usar, hres]
        rfl
      have hsirve := (Memoria.sirve_redimensionar hP hregla husar).1
      refine ⟨htlb, rfl, rfl, ?_⟩
      by_cases hcodigo : codigo = 1
      · rw [if_pos hcodigo] at hsirve
        exact Or.inl ⟨if_pos hcodigo, hsirve⟩
      · rw [if_neg hcodigo] at hsirve
        exact Or.inr ⟨if_neg hcodigo, hsirve⟩

/-- A table that is replaced is that of a process that has one. -/
theorem libre_of_sirve {m m' : Memoria.Estado} {u : Memoria.Pedido × Memoria.Desenlace}
    (h : Memoria.Sirve P N m u m') (hu : u.1.pid ≠ 0) (hm : m.tablaDePaginas 0 = none) :
    m'.tablaDePaginas 0 = none := by
  obtain ⟨-, t, hvista, -⟩ := h
  have hcero := congrFun hvista 0
  have hantes : vista P m 0 = none := by rw [vista, hm, Option.map_none]
  rw [Function.update_of_ne hu.symm, hantes] at hcero
  exact Option.map_eq_none_iff.1 hcero

/-- A request to the memory of the process in the CPU, which has `r` in the registers after it. -/
theorem avanza_of_sirve {m' : Memoria.Estado} {p : Memoria.Pedido} {d : Memoria.Desenlace}
    {u : Suceso} {r : Registros} (hsirve : Memoria.Sirve P N s.cpu.memoria (p, d) m')
    (he : s.ejecuta p.pid) (hs : Bien P N s) (hs' : Bien P N s') (hm : s'.cpu.memoria = m')
    (hdeja : Deja s p.pid s' r) (hu : u.pid = p.pid)
    (hpaso : ∀ v t, Memoria.PasoPropio P v (p, d) t →
      PasoPrivado P (v.map fun bs => ⟨s.cpu.registros, bs⟩) u (t.map fun bs => ⟨r, bs⟩)) :
    Avanza P N s u s' := by
  obtain ⟨-, t, hvista, hpropio⟩ := hsirve
  rw [← hm] at hvista
  simp only at hvista hpropio
  refine ⟨hs', ?_, fun q hq => hdeja.ajena he hs hs' (hu ▸ hq) ?_⟩
  · rw [hu, privada_ejecuta he, hdeja.propia he.2, hvista, Function.update_self]
    exact hpaso _ t hpropio
  · rw [hvista, Function.update_of_ne (hu ▸ hq)]

theorem avanza_redimensionar (hP : 0 < P) (hs : Bien P N s) (he : s.ejecuta pid) {tamanio : UInt32}
    {aceptado : Bool} (hint : tamanio.toNat < 2 ^ 31)
    (hdescarta : ResizeDescarta s.cpu (.resize tamanio))
    (h : s.redimensionar pid tamanio = some (aceptado, s')) :
    Avanza P N s (.redimensionar pid tamanio aceptado) s' := by
  obtain ⟨hproc, hpid⟩ := he
  unfold EnUso.redimensionar at h
  cases hres : ejecutarResize s.cpu tamanio with
  | error fallo => simp [hres] at h
  | ok cpu =>
      obtain ⟨htlb, hregs, hpids, hcasos⟩ :=
        ejecutarResize_spec hP hs.tlb hs.regla hint hdescarta hres
      simp only [hres] at h
      rw [hproc] at hcasos
      have htlb' : TlbCoherente cpu.incrementarPc :=
        ⟨htlb.memoria, htlb.pids, htlb.dadas, htlb.entradas⟩
      have hdado : pid < cpu.ultimoPid := by
        rw [hpids, ← hproc]
        exact hs.dado
      rcases hcasos with ⟨hcero, hsirve⟩ | ⟨hqueda, hsirve⟩
      · rw [if_pos hcero] at h
        obtain ⟨rfl, rfl⟩ := Prod.mk.inj (Option.some.inj h)
        have hlibre := libre_of_sirve hsirve hpid hs.libre
        -- the context that was saved is the one before the instruction
        have hpcb : s.pcb = s.cpu.registros := hs.pcb (by rw [hproc]; exact hpid)
        rw [hpcb]
        refine avanza_of_sirve hsirve ⟨hproc, hpid⟩ hs
          ⟨htlb', hsirve.1, hlibre, hcero ▸ Nat.zero_lt_of_lt hdado, fun hne => absurd hcero hne⟩
          rfl
          (Or.inr ⟨hcero, rfl⟩) rfl fun v t ht => ?_
        cases ht with
        | rechazado _ _ _ => exact .rechazado pid tamanio _
      · rw [if_neg (by rw [hqueda]; exact hpid)] at h
        obtain ⟨rfl, rfl⟩ := Prod.mk.inj (Option.some.inj h)
        have hlibre := libre_of_sirve hsirve hpid hs.libre
        refine avanza_of_sirve hsirve ⟨hproc, hpid⟩ hs
          ⟨htlb', hsirve.1, hlibre, hqueda ▸ hdado, fun _ => rfl⟩ rfl
          (Or.inl ⟨hqueda, congrArg incrementarPc hregs, rfl⟩) rfl fun v t ht => ?_
        cases ht with
        | aceptado _ _ hlen htake => exact .aceptado pid tamanio _ hlen htake

theorem avanza_desalojar (hs : Bien P N s) (he : s.ejecuta pid) :
    Avanza P N s (.desalojar pid) (s.desalojar pid) := by
  have hs' : Bien P N (s.desalojar pid) :=
    ⟨⟨hs.tlb.memoria, hs.tlb.pids, hs.tlb.dadas, hs.tlb.entradas⟩, hs.regla, hs.libre,
      Nat.zero_lt_of_lt hs.dado, fun hne => absurd rfl hne⟩
  have hdeja : Deja s pid (s.desalojar pid) s.cpu.registros :=
    Or.inr ⟨rfl, by rw [← hs.pcb (by rw [he.1]; exact he.2)]; rfl⟩
  refine ⟨hs', ?_, fun q hq => hdeja.ajena he hs hs' hq rfl⟩
  rw [Suceso.pid, privada_ejecuta he, hdeja.propia he.2]
  cases hbs : vista P s.cpu.memoria pid with
  | none =>
      have hnada : vista P (s.desalojar pid).cpu.memoria pid = none := hbs
      rw [hnada]
      exact .ausente fun _ _ h => by cases h
  | some bs =>
      have hbs' : vista P (s.desalojar pid).cpu.memoria pid = some bs := hbs
      rw [hbs']
      exact .desalojar pid _

theorem avanza_recibirPcb (hs : Bien P N s) (h : s.avanzar (.recibirPcb pid) = some s') :
    Avanza P N s (.recibirPcb pid) s' := by
  rw [EnUso.avanzar] at h
  split at h
  · rename_i hentra
    obtain ⟨hcero, hdado⟩ := hentra
    cases h
    have hvacia := vista_cero hs
    have hmismo : ∀ q, privada P { s with
        cpu := { s.cpu with procesoEjecutando := pid, registros := s.guardados pid }
        pcb := s.guardados pid } q = privada P s q := by
      intro q
      by_cases hq : q = 0
      · subst hq
        rw [privada_of_none hvacia]
        exact privada_of_none hvacia
      · unfold privada
        congr 1
        funext bs
        simp only [hcero, if_neg (Ne.symm hq)]
        split
        · rename_i hpid
          rw [hpid]
        · rfl
    refine ⟨⟨⟨hs.tlb.memoria, hs.tlb.pids, hs.tlb.dadas, hs.tlb.entradas⟩, hs.regla, hs.libre,
      hdado, fun _ => rfl⟩, ?_, fun q _ => hmismo q⟩
    rw [Suceso.pid, hmismo]
    cases privada P s pid with
    | none => exact .ausente fun p ins h => by cases h
    | some x => exact .recibirPcb pid x
  · cases h

theorem avanza_crear (hP : 0 < P) (hs : Bien P N s) {instrucciones : Option (List String)}
    (h : s.avanzar (.crear pid instrucciones) = some s') :
    Avanza P N s (.crear pid instrucciones) s' := by
  rw [EnUso.avanzar] at h
  split at h
  · rename_i hpid
    subst hpid
    cases h
    have htabla : s.cpu.memoria.tablaDePaginas s.cpu.ultimoPid = none := by
      cases hps : s.cpu.memoria.tablaDePaginas s.cpu.ultimoPid with
      | none => rfl
      | some ps => exact absurd (hs.tlb.pids hps) (lt_irrefl _)
    have htlb := tlbCoherente_paso (e := .crear instrucciones) hs.tlb trivial rfl
    have hsirve := Memoria.sirve_crear hP hs.regla instrucciones htabla
    have hlibre := libre_of_sirve hsirve (Nat.zero_lt_of_lt hs.dado).ne' hs.libre
    obtain ⟨hregla, t, hvista, hpropio⟩ := hsirve
    simp only [Memoria.Pedido.pid] at hvista hpropio
    refine ⟨⟨htlb, hregla, hlibre, Nat.lt_succ_of_lt hs.dado, hs.pcb⟩, ?_, ?_⟩
    · have hantes : vista P s.cpu.memoria s.cpu.ultimoPid = none := by
        rw [vista, htabla, Option.map_none]
      rw [Suceso.pid, privada_of_none hantes, privada]
      simp only
      rw [hvista, if_neg hs.dado.ne, Function.update_self, Function.update_self]
      rw [hantes] at hpropio
      cases hpropio
      exact .crear _ instrucciones
    · intro q hq
      simp only [Suceso.pid] at hq
      unfold privada
      simp only
      rw [hvista, Function.update_of_ne hq, Function.update_of_ne hq]
  · cases h

theorem avanza_terminar (hP : 0 < P) (hs : Bien P N s) (h : s.avanzar (.terminar pid) = some s') :
    Avanza P N s (.terminar pid) s' := by
  rw [EnUso.avanzar] at h
  cases hok : Memoria.eliminarProceso s.cpu.memoria pid with
  | error fallo => simp [hok] at h
  | ok m =>
      simp only [hok, Option.some.injEq] at h
      subst h
      have hsirve : Memoria.Sirve P N s.cpu.memoria (.eliminar pid, .hecho) m :=
        Memoria.sirve_eliminar hP hs.regla (by rw [Memoria.usar, hok]; rfl)
      have htlb := tlbCoherente_paso (e := .terminar pid) hs.tlb trivial
        (by rw [atender, hok]; rfl)
      have hpid : pid ≠ 0 := by
        rintro rfl
        simp [Memoria.eliminarProceso, Memoria.liberarMarcosDeProceso, hs.libre, bind,
          Except.bind] at hok
      have hlibre := libre_of_sirve hsirve hpid hs.libre
      obtain ⟨hregla, t, hvista, hpropio⟩ := hsirve
      simp only [Memoria.Pedido.pid] at hvista hpropio
      refine ⟨⟨htlb, hregla, hlibre, hs.dado, hs.pcb⟩, ?_, ?_⟩
      · rw [Suceso.pid, privada, privada]
        simp only
        rw [hvista, Function.update_self]
        cases hbs : vista P s.cpu.memoria pid with
        | none =>
            rw [hbs] at hpropio
            cases hpropio
        | some bs =>
            rw [hbs] at hpropio
            cases hpropio
            exact .terminar pid _
      · intro q hq
        simp only [Suceso.pid] at hq
        unfold privada
        simp only
        rw [hvista, Function.update_of_ne hq]

/-- One step that is in order. -/
theorem avanza_paso (hP : 0 < P) (hs : Bien P N s) {u : Suceso} (hu : EnOrden s u)
    (h : s.avanzar u = some s') : Avanza P N s u s' := by
  cases u with
  | ejecutar pid i relojes =>
      rw [EnUso.avanzar] at h
      split at h
      · rename_i he
        exact avanza_ejecutar hP hs he hu h
      · cases h
  | redimensionar pid tamanio aceptado =>
      rw [EnUso.avanzar] at h
      split at h
      · rename_i he
        split at h
        · cases h
        · rename_i r s₁ hredim
          split at h
          · rename_i hr
            cases h
            exact avanza_redimensionar hP hs he hu.1 hu.2 (hr ▸ hredim)
          · cases h
      · cases h
  | desalojar pid =>
      rw [EnUso.avanzar] at h
      split at h
      · rename_i he
        cases h
        exact avanza_desalojar hs he
      · cases h
  | recibirPcb pid => exact avanza_recibirPcb hs h
  | crear pid instrucciones => exact avanza_crear hP hs h
  | terminar pid => exact avanza_terminar hP hs h

end Pasos

/-! ### Runs -/

theorem bien_inicial (P tamMemoria : ℕ) (tamTlb : ℤ) (algoTlb : AlgoritmoTlb)
    (espacio : ℕ → UInt8) : Bien P (tamMemoria / P)
      { cpu := estadoInicial (Memoria.crearEstructurasMemoria P tamMemoria espacio) tamTlb algoTlb
        pcb := {}
        guardados := fun _ => {} } :=
  ⟨tlbCoherente_inicial P tamMemoria espacio tamTlb algoTlb,
    Memoria.enRegla_inicial P tamMemoria espacio, rfl, Nat.zero_lt_one, fun hne => absurd rfl hne⟩

/-- The CPU and the memory simulate as many machines as there are processes. -/
theorem privados_simulacion {P : ℕ} (hP : 0 < P) (tamMemoria : ℕ) (tamTlb : ℤ)
    (algoTlb : AlgoritmoTlb) :
    Transicion.Simulacion (sistemaEnUso P tamMemoria tamTlb algoTlb) EnOrden
      (Intercalado.producto (fun _ => privado P) Suceso.pid)
      (fun s a => Bien P (tamMemoria / P) s ∧ a = privada P s) := by
  refine ⟨?_, ?_⟩
  · rintro s ⟨espacio, rfl⟩
    exact ⟨_, fun _ => rfl, bien_inicial P tamMemoria tamTlb algoTlb espacio, rfl⟩
  · rintro s a u s' ⟨hs, rfl⟩ hu hpaso
    obtain ⟨hs', hpropio, hajenos⟩ := avanza_paso hP hs hu hpaso
    exact ⟨_, ⟨hpropio, hajenos⟩, hs', rfl⟩

/-- In every run that is in order, what happens to a process is a run of its own machine, with the
registers and the space that it has. -/
theorem procesos_aislados {P : ℕ} (hP : 0 < P) {tamMemoria : ℕ} {tamTlb : ℤ}
    {algoTlb : AlgoritmoTlb} {us : List Suceso} {s : EnUso}
    (h : Transicion.Corrida (sistemaEnUso P tamMemoria tamTlb algoTlb) EnOrden us s) (pid : Pid) :
    Transicion.Corrida (privado P) (fun _ _ => True) (us.filter fun u => u.pid = pid)
      (privada P s pid) := by
  obtain ⟨a, ha, -, rfl⟩ := (privados_simulacion hP tamMemoria tamTlb algoTlb).corrida h
  exact (Intercalado.proyeccion_producto _ _).corrida ha pid

/-! ### Two processes in turns -/

/-- Every access of the instruction stays in one page. -/
def InstruccionDecodificada.enUnaPagina (s : Estado) : InstruccionDecodificada → Bool
  | .registros _ => true
  | .movIn datos direccion =>
      Memoria.enUnaPagina s.memoria s.procesoEjecutando (s.registros.leer direccion) datos.tamanio
  | .movOut direccion datos =>
      Memoria.enUnaPagina s.memoria s.procesoEjecutando (s.registros.leer direccion) datos.tamanio
  | .copyString tamanio => decide (tamanio.toNat < 2 ^ 31) &&
      (Memoria.enUnaPagina s.memoria s.procesoEjecutando s.registros.di.toNat tamanio.toNat &&
        Memoria.enUnaPagina s.memoria s.procesoEjecutando s.registros.si.toNat tamanio.toNat)
  | .ceder _ => true

theorem admite_of_enUnaPagina {s : Estado} {i : InstruccionDecodificada}
    (h : i.enUnaPagina s = true) :
    i.Admite s := by
  cases i with
  | registros i => trivial
  | movIn datos direccion => exact Memoria.admiteAcceso_of_enUnaPagina h
  | movOut direccion datos => exact Memoria.admiteAcceso_of_enUnaPagina h
  | copyString tamanio =>
      simp only [InstruccionDecodificada.enUnaPagina, Bool.and_eq_true, decide_eq_true_eq] at h
      exact ⟨h.1, Memoria.admiteAcceso_of_enUnaPagina h.2.1,
        Memoria.admiteAcceso_of_enUnaPagina h.2.2⟩
  | ceder direccion => trivial

/-- A step whose accesses stay in one page. -/
def intentarEnUso (s : EnUso) (u : Suceso) : Option EnUso :=
  match u with
  | .ejecutar _ i _ => if i.enUnaPagina s.cpu = true then s.avanzar u else none
  | .redimensionar _ tamanio _ =>
      if tamanio.toNat < 2 ^ 31 ∧ ResizeDescarta s.cpu (.resize tamanio) then s.avanzar u else none
  | _ => s.avanzar u

theorem paso_of_intentarEnUso {P tamMemoria : ℕ} {tamTlb : ℤ} {algoTlb : AlgoritmoTlb}
    {s s' : EnUso} {u : Suceso} (h : intentarEnUso s u = some s') :
    EnOrden s u ∧ (sistemaEnUso P tamMemoria tamTlb algoTlb).paso s u s' := by
  cases u with
  | ejecutar pid i relojes =>
      unfold intentarEnUso at h
      simp only at h
      split at h
      · exact ⟨admite_of_enUnaPagina ‹_›, h⟩
      · cases h
  | redimensionar pid tamanio aceptado =>
      unfold intentarEnUso at h
      simp only at h
      split at h
      · exact ⟨‹_›, h⟩
      · cases h
  | desalojar pid => exact ⟨trivial, h⟩
  | recibirPcb pid => exact ⟨trivial, h⟩
  | crear pid instrucciones => exact ⟨trivial, h⟩
  | terminar pid => exact ⟨trivial, h⟩

/-- The first process writes a register on its second page and is interrupted; the second one
writes on its own, at the same address; the first one reads its register back. -/
def dosEnTurnos : List Suceso :=
  [.crear 1 none, .crear 2 none, .recibirPcb 1, .redimensionar 1 4 true, .desalojar 1,
    .recibirPcb 2, .redimensionar 2 8 true, .desalojar 2,
    .recibirPcb 1, .redimensionar 1 8 true,
    .ejecutar 1 (.registros (.set (.de8 .ax) 4)) fun _ => 0,
    .ejecutar 1 (.registros (.set (.de32 .ebx) 77)) fun _ => 0,
    .ejecutar 1 (.movOut (.de8 .ax) (.de32 .ebx)) fun _ => 1, .desalojar 1,
    .recibirPcb 2, .ejecutar 2 (.registros (.set (.de8 .ax) 4)) fun _ => 1,
    .ejecutar 2 (.movOut (.de8 .ax) (.de8 .ax)) fun _ => 2, .desalojar 2,
    .recibirPcb 1, .ejecutar 1 (.movIn (.de32 .ecx) (.de8 .ax)) fun _ => 3]

/-- The CPU and the memory before the first process. -/
def alArrancar : EnUso where
  cpu := estadoInicial (Memoria.crearEstructurasMemoria 4 16 fun _ => 0) 4 .fifo
  pcb := {}
  guardados := fun _ => {}

theorem dosEnTurnos_corre :
    (Transicion.ejecutar intentarEnUso alArrancar dosEnTurnos).isSome = true := by
  decide

theorem procesos_aislados_dosEnTurnos :
    ∃ x : Privada, x.registros.ecx = 77 ∧ x.espacio = [0, 0, 0, 0, 77, 0, 0, 0] ∧
      Transicion.Corrida (privado 4) (fun _ _ => True)
        (dosEnTurnos.filter fun u => u.pid = 1) (some x) := by
  have hcorre := Transicion.corrida_estadoTras (S := sistemaEnUso 4 16 4 .fifo) (C := EnOrden)
    (s := alArrancar) (fun _ _ _ h => paso_of_intentarEnUso h) ⟨_, rfl⟩ dosEnTurnos_corre
  have hsolo := procesos_aislados (by decide) hcorre 1
  have hx : (privada 4 (Transicion.estadoTras intentarEnUso alArrancar dosEnTurnos
      dosEnTurnos_corre) 1).map (fun x => (x.registros.ecx, x.espacio)) =
        some (77, [0, 0, 0, 0, 77, 0, 0, 0]) := by
    decide
  obtain ⟨x, hpriv, hx⟩ := Option.map_eq_some_iff.1 hx
  rw [hpriv] at hsolo
  exact ⟨x, congrArg Prod.fst hx, congrArg Prod.snd hx, hsolo⟩

end Cpu
