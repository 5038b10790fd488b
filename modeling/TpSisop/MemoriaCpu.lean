/-
**Serving the CPU.**

The memory module attends the CPU in one function, a request at a time: it looks an instruction up,
translates a page, reads and writes the user space and resizes a process, and the CPU waits for the
answer before it does anything else.  Each kind of request has a lookup of its own, and the lookups
that come back empty are not handled alike: an instruction that is not there is logged and nothing
is sent, a page that is not there is dereferenced.  The size of a RESIZE travels as a `uint32_t` and
is rounded up to pages as an `int`, so that the sizes from `2 ^ 31` on are negative.

Main definitions:

* `Memoria.Peticion`, `Memoria.Respuesta` — what the CPU asks and what it is answered;
* `Memoria.atenderClienteCpu` — one turn of the server;
* `Memoria.RedimensionaBien` — what a RESIZE is for;
* `Memoria.Responde`, `Memoria.Atendible` — a request is answered, and the requests that are.

Main results:

* `Memoria.resize_bien_iff` — the sizes at which `resize_proceso` does what it is for;
* `Memoria.responde_iff` — the requests that are answered.
-/

import TpSisop.Codificacion
import TpSisop.CpuMmu
import TpSisop.MemoriaAcceso

set_option relaxedAutoImplicit false
set_option autoImplicit false

namespace Memoria

open Cpu (RegistroAbstracto DireccionFisica)
open Codificacion (littleEndian valor)
open Entero (aInt)

/-! ### The number of pages of a size -/

section Paginas

variable {P : ℕ}

theorem techo_natCast (hP : 0 < P) (n : ℕ) :
    n / P + (if n % P = 0 then 0 else 1) = (n + P - 1) / P := by
  obtain ⟨k, u, hu, rfl⟩ : ∃ k u, u < P ∧ n = k * P + u :=
    ⟨n / P, n % P, Nat.mod_lt n hP, (Nat.div_add_mod' n P).symm⟩
  rw [turno_div k hu, turno_mod k hu]
  split
  · rename_i hcero
    have hsuma : k * P + 0 + P - 1 = k * P + (P - 1) := by omega
    rw [hcero, Nat.add_zero, hsuma, turno_div k (by omega)]
  · rename_i hresto
    have hsuma : k * P + u + P - 1 = (k + 1) * P + (u - 1) := by
      rw [Nat.add_mul]
      omega
    rw [hsuma, turno_div _ (by omega)]

/-- A size that is not negative is rounded up. -/
theorem cantidadPaginas_natCast (hP : 0 < P) (n : ℕ) :
    cantidadPaginas P n = ((n + P - 1) / P : ℕ) := by
  rw [← techo_natCast hP n]
  have htecho := Entero.techo_of_nonneg (d := P) (Int.natCast_nonneg n)
  refine htecho.trans ?_
  push_cast
  congr 1
  norm_cast

/-- A negative size is rounded towards zero and then up. -/
theorem cantidadPaginas_neg (k : ℕ) :
    cantidadPaginas P (-k) = (if k % P = 0 then 0 else 1) - (k / P : ℕ) := by
  have hdiv : (k : ℤ).tdiv P = (k / P : ℕ) := (Int.ofNat_tdiv k P).symm
  have hmod : (-(k : ℤ)).tmod P = 0 ↔ k % P = 0 := by
    rw [Int.neg_tmod, Int.neg_eq_zero, ← Int.ofNat_tmod]
    exact Int.natCast_eq_zero
  simp only [cantidadPaginas, Int.neg_tdiv, hdiv, hmod]
  omega

end Paginas

/-! ### RESIZE -/

/-- What a RESIZE to `n` pages is for: it is refused, and changes nothing, when the pages that are
missing exceed the free frames; otherwise the process has `n` pages, the first ones where they
were, and no other process is touched. -/
def RedimensionaBien (m : Estado) (pid : Pid) (ps : List ℕ) (n : ℕ)
    (r : Except Fallo (ℤ × Estado)) : Prop :=
  ∃ codigo m', r = .ok (codigo, m') ∧
    if m.cantidadMarcosLibres < (n : ℤ) - ps.length then
      codigo = 1 ∧ m'.tablaDePaginas = m.tablaDePaginas ∧ m'.marcos = m.marcos ∧
        m'.cantidadMarcosLibres = m.cantidadMarcosLibres
    else
      codigo = 0 ∧
        (∃ qs, m'.tablaDePaginas pid = some qs ∧ qs.length = n ∧
          qs.take (min ps.length n) = ps.take (min ps.length n)) ∧
        ∀ q, q ≠ pid → m'.tablaDePaginas q = m.tablaDePaginas q

section Resize

variable {m : Estado} {pid : Pid} {ps : List ℕ}

/-- Where `resize_proceso` computes `c` pages, it does what a RESIZE to `n` pages is for exactly
when `c` is `n`, or both are refused. -/
theorem redimensionaBien_iff (hm : Coherente m) (h : m.tablaDePaginas pid = some ps) {bytes : ℤ}
    {c n : ℕ} (hc : cantidadPaginas m.tamPagina bytes = c) :
    RedimensionaBien m pid ps n (resizeProceso m pid bytes) ↔
      c = n ∨ (m.cantidadMarcosLibres < (c : ℤ) - ps.length ∧
        m.cantidadMarcosLibres < (n : ℤ) - ps.length) := by
  by_cases hlibres : m.cantidadMarcosLibres < (c : ℤ) - ps.length
  · have hok : resizeProceso m pid bytes = .ok (1, m) := by
      simp [resizeProceso, h, hc, hlibres]
    rw [hok]
    constructor
    · rintro ⟨codigo, m', heq, hbien⟩
      cases heq
      split at hbien
      · exact Or.inr ⟨hlibres, ‹_›⟩
      · exact absurd hbien.1 one_ne_zero
    · intro hcn
      refine ⟨1, m, rfl, ?_⟩
      rw [if_pos (by rcases hcn with rfl | ⟨-, hn⟩ <;> assumption)]
      exact ⟨rfl, rfl, rfl, rfl⟩
  · obtain ⟨-, hmal⟩ | ⟨m', qs, hok, -, hlen, hqs, htabla, -⟩ := resizeProceso_spec hm h hc
    · exact absurd hmal hlibres
    rw [hok]
    have hpid : m'.tablaDePaginas pid = some qs := by rw [htabla, Function.update_self]
    constructor
    · rintro ⟨codigo, m₁, heq, hbien⟩
      cases heq
      split at hbien
      · exact absurd hbien.1 zero_ne_one
      · obtain ⟨-, ⟨qs', hqs', hlen', -⟩, -⟩ := hbien
        obtain rfl : qs = qs' := Option.some.inj (hpid.symm.trans hqs')
        exact Or.inl (hlen.symm.trans hlen')
    · rintro (rfl | ⟨hmal, -⟩)
      · refine ⟨0, m', rfl, ?_⟩
        rw [if_neg hlibres]
        refine ⟨rfl, ⟨qs, hpid, hlen, ?_⟩, fun q hq => by rw [htabla, Function.update_of_ne hq]⟩
        rcases hqs with rfl | ⟨fs, rfl⟩
        · rw [List.take_take, min_eq_left (min_le_right _ _)]
        · rw [List.take_append_of_le_length (min_le_left _ _)]
      · exact absurd hmal hlibres

/-- A size of the upper half is a negative `int`. -/
theorem aInt_of_ge {n : ℕ} (h : 2 ^ 31 ≤ n) (h' : n < 2 ^ 32) :
    aInt n = -((2 ^ 32 - n : ℕ) : ℤ) := by
  unfold aInt
  rw [Int.bmod_def]
  omega

/-- `resize_proceso` does what a RESIZE is for exactly at the sizes that an `int` can hold, and at
the last ones of `uint32_t`, taken for a part of a page below zero, when the process has no page and
there is no free frame: there it refuses the one page it computes. -/
theorem resize_bien_iff (hm : Coherente m) (hP : 0 < m.tamPagina) (hint : m.tamPagina < 2 ^ 31)
    (h : m.tablaDePaginas pid = some ps) (tamanio : UInt32) :
    RedimensionaBien m pid ps ((tamanio.toNat + m.tamPagina - 1) / m.tamPagina)
        (resizeProceso m pid (aInt tamanio.toNat)) ↔
      tamanio.toNat < 2 ^ 31 ∨
        (2 ^ 32 < tamanio.toNat + m.tamPagina ∧ ps = [] ∧ m.cantidadMarcosLibres = 0) := by
  by_cases hmenor : tamanio.toNat < 2 ^ 31
  · have hc := cantidadPaginas_natCast hP tamanio.toNat
    rw [← Entero.aInt_of_lt hmenor] at hc
    rw [redimensionaBien_iff hm h hc]
    exact ⟨fun _ => Or.inl hmenor, fun _ => Or.inl rfl⟩
  have hmax := tamanio.toNat_lt
  rw [aInt_of_ge (by omega) hmax]
  have hcant := cantidadPaginas_neg (P := m.tamPagina) (2 ^ 32 - tamanio.toNat)
  have hn : 2 ≤ (tamanio.toNat + m.tamPagina - 1) / m.tamPagina :=
    (Nat.le_div_iff_mul_le hP).2 (by omega)
  have hlibres := hm.libres
  -- the pages computed are at most one, and one exactly when what is below zero is not a page
  have hpagina : (2 ^ 32 - tamanio.toNat) / m.tamPagina = 0 ↔
      2 ^ 32 < tamanio.toNat + m.tamPagina := by
    rw [Nat.div_eq_zero_iff_lt hP]
    omega
  have hresto : 2 ^ 32 < tamanio.toNat + m.tamPagina →
      (2 ^ 32 - tamanio.toNat) % m.tamPagina ≠ 0 := by
    intro hlt
    rw [Nat.mod_eq_of_lt (by omega)]
    omega
  generalize (2 ^ 32 - tamanio.toNat) / m.tamPagina = cociente at hcant hpagina
  generalize (2 ^ 32 - tamanio.toNat) % m.tamPagina = resto at hcant hresto
  generalize (tamanio.toNat + m.tamPagina - 1) / m.tamPagina = n at hn ⊢
  by_cases hneg : cantidadPaginas m.tamPagina (-((2 ^ 32 - tamanio.toNat : ℕ) : ℤ)) < 0
  · rw [resizeProceso_of_neg hm hneg]
    constructor
    · rintro ⟨_, _, heq, -⟩
      cases heq
    · rintro (hlt | ⟨hlt, -, -⟩)
      · exact absurd hlt hmenor
      · rw [hcant, if_neg (hresto hlt), hpagina.2 hlt] at hneg
        simp at hneg
  · obtain ⟨c, hc⟩ := Int.eq_ofNat_of_zero_le (not_lt.1 hneg)
    rw [redimensionaBien_iff hm h hc]
    rw [hc] at hcant
    constructor
    · rintro (rfl | ⟨hmal, -⟩)
      · split at hcant <;> omega
      · have hvacia : ps.length = 0 := by split at hcant <;> omega
        refine Or.inr ⟨hpagina.1 ?_, List.eq_nil_of_length_eq_zero hvacia, ?_⟩
        · split at hcant <;> omega
        · split at hcant <;> omega
    · rintro (hlt | ⟨hlt, rfl, hcero⟩)
      · exact absurd hlt hmenor
      · rw [if_neg (hresto hlt), hpagina.2 hlt] at hcant
        simp only [hcero, List.length_nil]
        omega

end Resize

/-- A memory of four frames of sixteen bytes, and a process without pages. -/
def recienCreado : Estado :=
  crearProceso (crearEstructurasMemoria 16 64 fun _ => 0) none 1

theorem coherente_recienCreado : Coherente recienCreado :=
  coherente_crearProceso (coherente_inicial 16 64 _) none rfl

/-- A RESIZE to `2 ^ 32 - 1` bytes, which no memory has, is answered 0 and leaves one page. -/
theorem resize_no_bien : ¬∀ (m : Estado), Coherente m → 0 < m.tamPagina → m.tamPagina < 2 ^ 31 →
    ∀ (pid : Pid) (ps : List ℕ), m.tablaDePaginas pid = some ps → ∀ tamanio : UInt32,
      RedimensionaBien m pid ps ((tamanio.toNat + m.tamPagina - 1) / m.tamPagina)
        (resizeProceso m pid (aInt tamanio.toNat)) := by
  intro h
  obtain ⟨codigo, m', heq, hbien⟩ :=
    h recienCreado coherente_recienCreado (by decide) (by decide) 1 [] rfl 4294967295
  rw [if_pos (by decide)] at hbien
  have hcodigo : (resizeProceso recienCreado 1 (aInt (4294967295 : UInt32).toNat)).toOption.map
      Prod.fst = some 0 := by decide
  rw [heq] at hcodigo
  exact absurd (hbien.1.symm.trans (Option.some.inj hcodigo)) one_ne_zero

/-- Fifty bytes take the four pages. -/
theorem resize_bien_cincuenta :
    RedimensionaBien recienCreado 1 [] 4 (resizeProceso recienCreado 1 (aInt 50)) :=
  (resize_bien_iff coherente_recienCreado (by decide) (by decide) rfl 50).2 (Or.inl (by decide))

/-! ### Instructions (`instruccion.c`) -/

/-- `id_instruccion`. -/
inductive IdInstruccion
  | set
  | movIn
  | movOut
  | sum
  | sub
  | jnz
  | resize
  | copyString
  | wait
  | signal
  | ioGenSleep
  | ioStdinRead
  | ioStdoutWrite
  | ioFsCreate
  | ioFsDelete
  | ioFsTruncate
  | ioFsWrite
  | ioFsRead
  | exit
  deriving DecidableEq, Repr

/-- `obtener_instruccion`; the index of `list_get` is an `int`. -/
def obtenerInstruccion (m : Estado) (pid : Pid) (pc : UInt32) : Option String :=
  match m.dictInstrucciones pid with
  | none => none
  | some instrucciones => Coleccion.obtener instrucciones (aInt pc.toNat)

/-- `obtener_sentencia`: the first word of the line; without one, `string_n_split` answers an empty
array, whose `NULL` is dereferenced. -/
def obtenerSentencia (instruccion : String) : Except Fallo String :=
  match (instruccion.toList.dropWhile (· = ' ')).takeWhile (· ≠ ' ') with
  | [] => .error .punteroNulo
  | sentencia => .ok (String.ofList sentencia)

def obtenerIdInstruccion : String → IdInstruccion
  | "SET" => .set
  | "MOV_IN" => .movIn
  | "MOV_OUT" => .movOut
  | "SUM" => .sum
  | "SUB" => .sub
  | "JNZ" => .jnz
  | "RESIZE" => .resize
  | "COPY_STRING" => .copyString
  | "WAIT" => .wait
  | "SIGNAL" => .signal
  | "IO_GEN_SLEEP" => .ioGenSleep
  | "IO_STDIN_READ" => .ioStdinRead
  | "IO_STDOUT_WRITE" => .ioStdoutWrite
  | "IO_FS_CREATE" => .ioFsCreate
  | "IO_FS_DELETE" => .ioFsDelete
  | "IO_FS_TRUNCATE" => .ioFsTruncate
  | "IO_FS_WRITE" => .ioFsWrite
  | "IO_FS_READ" => .ioFsRead
  | _ => .exit

/-! ### The server (`atender_cpu.c`) -/

/-- What the CPU sends: the codes that `atender_cliente_cpu` knows, with their data. -/
inductive Peticion
  | mensaje
  | obtInstruccion (pid : Pid) (pc : UInt32)
  | handshakeMemoria
  | pedirMarco (pid : Pid) (pagina : ℕ)
  | ejecutarMovin (datos : RegistroAbstracto) (dirFisica : DireccionFisica)
  | ejecutarMovout (datos : RegistroAbstracto) (dirFisica : DireccionFisica)
  | ejecutarCopystring (di si : ℕ) (tamanio : UInt32) (pid : Pid)
  | ejecutarResize (pid : Pid) (tamanio : UInt32)
  deriving DecidableEq, Repr

inductive Respuesta
  | retInstruccion (id : IdInstruccion) (instruccion : String)
  | handshakeMemoria (tamPagina : ℕ)
  | pedirMarco (pid : Pid) (pagina marco : ℕ)
  | rtaMovin (datos : RegistroAbstracto)
  | ejecutarMovout (pid : Pid)
  | ejecutarCopystring (pid : Pid)
  | ejecutarResize (pid : Pid)
  | ejecutarResizeOutOfMemoryError (pid : Pid)
  deriving DecidableEq, Repr

/-- The bytes of a register that are copied. -/
def bytesDeRegistro : RegistroAbstracto → List UInt8
  | .registro8 data => [data]
  | .registro32 data => littleEndian 4 data.toNat

/-- A register of the width of `datos` over the bytes read. -/
def leerRegistro (datos : RegistroAbstracto) (leidos : List UInt8) : RegistroAbstracto :=
  match datos with
  | .registro8 _ => .registro8 (UInt8.ofNat (valor leidos))
  | .registro32 _ => .registro32 (UInt32.ofNat (valor leidos))

def traducirFisica (m : Estado) (dirFisica : DireccionFisica) : ℕ :=
  traducirDireccion m dirFisica.marco dirFisica.desplazamientoFisico

/-- `atender_cliente_cpu`: what is sent, and the memory that is left. -/
def atenderClienteCpu (m : Estado) : Peticion → Except Fallo (List Respuesta × Estado)
  | .mensaje => .ok ([], m)
  | .obtInstruccion pid pc =>
      match obtenerInstruccion m pid pc with
      | none => .ok ([], m)
      | some instruccion =>
          (obtenerSentencia instruccion).map fun sentencia =>
            ([.retInstruccion (obtenerIdInstruccion sentencia) instruccion], m)
  | .handshakeMemoria => .ok ([.handshakeMemoria m.tamPagina], m)
  | .pedirMarco pid pagina =>
      (accederATablaDePaginas m pid pagina).map fun marco => ([.pedirMarco pid pagina marco], m)
  | .ejecutarMovin datos dir =>
      (obtenerDatosDeMemoria m (traducirFisica m dir) (bytesDeRegistro datos).length dir.pid).map
        fun leidos => ([.rtaMovin (leerRegistro datos leidos)], m)
  | .ejecutarMovout datos dir =>
      (agregarDatosAMemoria m (bytesDeRegistro datos) (traducirFisica m dir) dir.pid).map
        fun m' => ([.ejecutarMovout dir.pid], m')
  | .ejecutarCopystring di si tamanio pid =>
      -- the loops make no turn for a size that is negative as an `int`
      (copyString m di si (aInt tamanio.toNat).toNat pid).map
        fun m' => ([.ejecutarCopystring pid], m')
  | .ejecutarResize pid tamanio =>
      (resizeProceso m pid (aInt tamanio.toNat)).map fun r =>
        ([if r.1 = 1 then .ejecutarResizeOutOfMemoryError pid else .ejecutarResize pid], r.2)

/-- The physical address `direccion` is inside the user space. -/
def EnEspacio (m : Estado) (direccion : ℕ) : Prop :=
  direccion < m.cantidadDePaginas * m.tamPagina

/-- What the CPU can ask: an instruction by any program counter, the page of any logical address,
accesses at the frames it was answered, and any size. -/
def Peticion.emitible (m : Estado) : Peticion → Prop
  | .mensaje => False
  | .pedirMarco _ pagina => ∃ direccion : UInt32, pagina = direccion.toNat / m.tamPagina
  | .ejecutarMovin _ dir => EnEspacio m (traducirFisica m dir)
  | .ejecutarMovout _ dir => EnEspacio m (traducirFisica m dir)
  | .ejecutarCopystring di si _ _ => EnEspacio m di ∧ EnEspacio m si
  | _ => True

/-- The request is answered once, without a failure. -/
def Responde (m : Estado) (p : Peticion) : Prop :=
  ∃ r m', atenderClienteCpu m p = .ok ([r], m')

/-! ### The requests that are answered -/

/-- The sizes for which `resize_proceso` computes a number of pages that is not negative. -/
def TamanioAtendible (tamPagina tamanio : ℕ) : Prop :=
  tamanio < 2 ^ 31 ∨ (2 ^ 32 < tamanio + 2 * tamPagina ∧ tamanio + tamPagina ≠ 2 ^ 32)

/-- The instruction is on a line of the program, and has a word; the page is in the table; the
accesses stay in it and in the user space; the size is not a negative number of pages. -/
def Atendible (m : Estado) : Peticion → Prop
  | .obtInstruccion pid pc =>
      ∃ instrucciones instruccion, m.dictInstrucciones pid = some instrucciones ∧
        pc.toNat < 2 ^ 31 ∧ instrucciones[pc.toNat]? = some instruccion ∧
        ∃ c ∈ instruccion.toList, c ≠ ' '
  | .pedirMarco pid pagina => ∃ ps, m.tablaDePaginas pid = some ps ∧ pagina < ps.length
  | .ejecutarMovin datos dir =>
      Accesible m dir.pid (traducirFisica m dir) (bytesDeRegistro datos).length
  | .ejecutarMovout datos dir =>
      Accesible m dir.pid (traducirFisica m dir) (bytesDeRegistro datos).length
  | .ejecutarCopystring di si tamanio pid =>
      Accesible m pid si (aInt tamanio.toNat).toNat ∧
        Accesible m pid di (aInt tamanio.toNat).toNat
  | .ejecutarResize pid tamanio =>
      m.tablaDePaginas pid ≠ none ∧ TamanioAtendible m.tamPagina tamanio.toNat
  | _ => True

section Respuestas

variable {m : Estado}

theorem obtenerSentencia_ok_iff {instruccion : String} :
    (∃ sentencia, obtenerSentencia instruccion = .ok sentencia) ↔
      ∃ c ∈ instruccion.toList, c ≠ ' ' := by
  unfold obtenerSentencia
  generalize instruccion.toList = linea
  induction linea with
  | nil => simp
  | cons c linea ih =>
      by_cases hc : c = ' '
      · subst hc
        simpa using ih
      · simp [hc]

/-- The instruction at a program counter is a line of the program. -/
theorem obtenerInstruccion_eq_some {pid : Pid} {pc : UInt32} {instruccion : String} :
    obtenerInstruccion m pid pc = some instruccion ↔
      ∃ instrucciones, m.dictInstrucciones pid = some instrucciones ∧ pc.toNat < 2 ^ 31 ∧
        instrucciones[pc.toNat]? = some instruccion := by
  unfold obtenerInstruccion
  cases m.dictInstrucciones pid with
  | none => simp
  | some instrucciones =>
      simp only [Option.some.injEq, exists_eq_left']
      by_cases hpc : pc.toNat < 2 ^ 31
      · rw [Entero.aInt_of_lt hpc, Coleccion.obtener_natCast]
        exact (and_iff_right hpc).symm
      · have hmax := pc.toNat_lt
        rw [aInt_of_ge (by omega) hmax, Coleccion.obtener_of_neg _ (by omega)]
        exact ⟨fun h => (by cases h), fun h => absurd h.1 hpc⟩

theorem cantidadPaginas_nonneg_iff (hP : 0 < m.tamPagina) (tamanio : UInt32) :
    0 ≤ cantidadPaginas m.tamPagina (aInt tamanio.toNat) ↔
      TamanioAtendible m.tamPagina tamanio.toNat := by
  unfold TamanioAtendible
  by_cases hmenor : tamanio.toNat < 2 ^ 31
  · rw [Entero.aInt_of_lt hmenor]
    exact ⟨fun _ => Or.inl hmenor, fun _ => cantidadPaginas_nonneg _ (Int.natCast_nonneg _)⟩
  have hmax := tamanio.toNat_lt
  obtain ⟨k, hk⟩ : ∃ k, k = 2 ^ 32 - tamanio.toNat := ⟨_, rfl⟩
  rw [aInt_of_ge (by omega) hmax, ← hk, cantidadPaginas_neg]
  have hdiv := Nat.div_add_mod' k m.tamPagina
  have hmod := Nat.mod_lt k hP
  generalize k / m.tamPagina = cociente at hdiv ⊢
  generalize k % m.tamPagina = resto at hdiv hmod ⊢
  rcases cociente with - | - | cociente
  · rw [Nat.zero_mul] at hdiv
    rw [if_neg (by omega)]
    omega
  · rw [Nat.zero_add, Nat.one_mul] at hdiv
    split <;> omega
  · have hmult : (cociente + 1 + 1) * m.tamPagina =
        cociente * m.tamPagina + 2 * m.tamPagina := by ring
    split <;> omega

theorem resizeProceso_ok_iff (hm : Coherente m) (hP : 0 < m.tamPagina) {pid : Pid}
    (tamanio : UInt32) :
    (∃ r, resizeProceso m pid (aInt tamanio.toNat) = .ok r) ↔
      m.tablaDePaginas pid ≠ none ∧ TamanioAtendible m.tamPagina tamanio.toNat := by
  rw [← cantidadPaginas_nonneg_iff hP]
  constructor
  · rintro ⟨r, hr⟩
    refine ⟨fun hnada => ?_, ?_⟩
    · simp [resizeProceso, hnada] at hr
    · by_contra hneg
      rw [resizeProceso_of_neg hm (not_le.1 hneg)] at hr
      cases hr
  · rintro ⟨htabla, hc⟩
    obtain ⟨ps, hps⟩ := Option.ne_none_iff_exists'.1 htabla
    obtain ⟨c, hc⟩ := Int.eq_ofNat_of_zero_le hc
    rcases resizeProceso_spec hm hps hc with ⟨hok, -⟩ | ⟨m', qs, hok, -⟩
    · exact ⟨_, hok⟩
    · exact ⟨_, hok⟩

/-- A request whose answer is built from the result of a function is answered when it returns. -/
theorem responde_map_iff {α : Type*} {p : Peticion} {r : Except Fallo α}
    {f : α → Respuesta × Estado}
    (h : atenderClienteCpu m p = r.map fun x => ([(f x).1], (f x).2)) :
    Responde m p ↔ ∃ x, r = .ok x := by
  unfold Responde
  rw [h]
  cases r with
  | error fallo => simp [Except.map]
  | ok x => simp [Except.map]

/-- The memory module answers a request of the CPU, once and without a failure, exactly when it is
`Atendible`. -/
theorem responde_iff (hm : Coherente m) (hP : 0 < m.tamPagina) {p : Peticion}
    (hp : p.emitible m) : Responde m p ↔ Atendible m p := by
  cases p with
  | mensaje => exact hp.elim
  | obtInstruccion pid pc =>
      cases h : obtenerInstruccion m pid pc with
      | none =>
          constructor
          · rintro ⟨r, m', hr⟩
            simp [atenderClienteCpu, h] at hr
          · rintro ⟨instrucciones, instruccion, hdict, hpc, hlinea, -⟩
            rw [obtenerInstruccion_eq_some.2 ⟨instrucciones, hdict, hpc, hlinea⟩] at h
            cases h
      | some instruccion =>
          refine (responde_map_iff (r := obtenerSentencia instruccion)
            (f := fun sentencia =>
              (.retInstruccion (obtenerIdInstruccion sentencia) instruccion, m))
            (by simp [atenderClienteCpu, h])).trans ?_
          obtain ⟨instrucciones, hdict, hpc, hlinea⟩ := obtenerInstruccion_eq_some.1 h
          rw [obtenerSentencia_ok_iff]
          constructor
          · intro hpalabra
            exact ⟨instrucciones, instruccion, hdict, hpc, hlinea, hpalabra⟩
          · rintro ⟨instrucciones', instruccion', hdict', -, hlinea', hpalabra⟩
            rw [hdict, Option.some.injEq] at hdict'
            rw [← hdict', hlinea, Option.some.injEq] at hlinea'
            exact hlinea' ▸ hpalabra
  | handshakeMemoria => exact ⟨fun _ => trivial, fun _ => ⟨_, _, rfl⟩⟩
  | pedirMarco pid pagina =>
      refine (responde_map_iff (f := fun marco => (.pedirMarco pid pagina marco, m)) rfl).trans ?_
      simp only [accederATablaDePaginas_eq_ok, Atendible]
      constructor
      · rintro ⟨marco, ps, hps, hmarco⟩
        exact ⟨ps, hps, (List.getElem?_eq_some_iff.1 hmarco).1⟩
      · rintro ⟨ps, hps, hlt⟩
        exact ⟨ps[pagina], ps, hps, List.getElem?_eq_getElem hlt⟩
  | ejecutarMovin datos dir =>
      exact (responde_map_iff (f := fun leidos => (.rtaMovin (leerRegistro datos leidos), m))
        rfl).trans (obtenerDatosDeMemoria_ok_iff hP)
  | ejecutarMovout datos dir =>
      exact (responde_map_iff (f := fun m' => (.ejecutarMovout dir.pid, m')) rfl).trans
        (agregarDatosAMemoria_ok_iff hP _)
  | ejecutarCopystring di si tamanio pid =>
      exact (responde_map_iff (f := fun m' => (.ejecutarCopystring pid, m')) rfl).trans
        (copyString_ok_iff hP)
  | ejecutarResize pid tamanio =>
      exact (responde_map_iff (f := fun r =>
        (if r.1 = 1 then .ejecutarResizeOutOfMemoryError pid else .ejecutarResize pid, r.2))
        rfl).trans (resizeProceso_ok_iff hm hP tamanio)

end Respuestas

/-- A process with a program of one line, which does not end, and one page. -/
def programaSinExit : Estado :=
  Transicion.estadoTras intentar (crearEstructurasMemoria 16 64 fun _ => 0)
    [.crear (some ["SUM AX BX"]) 1, .resize 1 16] (by decide)

theorem coherente_programaSinExit : Coherente programaSinExit :=
  (coherente_alcanzable (Transicion.alcanzableCon_estadoTras
    (fun _ _ _ h => ⟨trivial, paso_of_intentar h⟩) ⟨_, rfl⟩ _)).1

/-- Past its last line there is no answer. -/
theorem no_siempre_responde : ¬∀ m : Estado, Coherente m → 0 < m.tamPagina → ∀ p : Peticion,
    p.emitible m → Responde m p := by
  intro h
  obtain ⟨r, m', hr⟩ := h programaSinExit coherente_programaSinExit (by decide)
    (.obtInstruccion 1 1) trivial
  have hnada : obtenerInstruccion programaSinExit 1 1 = none := by decide
  simp [atenderClienteCpu, hnada] at hr

/-- Its line, and the four bytes at the beginning of its page, are answered. -/
theorem responde_programaSinExit :
    Responde programaSinExit (.obtInstruccion 1 0) ∧
      Responde programaSinExit (.ejecutarMovin (.registro32 0) ⟨1, 0, 0⟩) :=
  ⟨(responde_iff (p := .obtInstruccion 1 0) coherente_programaSinExit (by decide) trivial).2
      ⟨["SUM AX BX"], "SUM AX BX", by decide, by decide, rfl, 'S', by decide, by decide⟩,
    (responde_iff (p := .ejecutarMovin (.registro32 0) ⟨1, 0, 0⟩) coherente_programaSinExit
      (by decide) (show 0 < 64 by decide)).2 ⟨[0], by decide, Or.inr ⟨0, by decide, by decide⟩,
        (recorridoEnEspacio_of_le (by decide) (by decide)).2 (by decide)⟩⟩

/-- Four bytes at the last address of a memory that is all of one process run past it. -/
example : (atenderClienteCpu
    (Transicion.estadoTras intentar (crearEstructurasMemoria 16 64 fun _ => 0)
      [.crear none 1, .resize 1 64] (by decide))
    (.ejecutarMovout (.registro32 0) ⟨1, 3, 15⟩)).isOk = false := by
  decide

end Memoria
