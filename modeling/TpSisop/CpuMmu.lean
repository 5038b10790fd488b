/-
**The MMU of the CPU: the TLB, the translation of an address and the RESIZE instruction.**

The CPU keeps a list of `(pid, pagina, marco)` entries.  A translation looks the page up in it and
asks the memory module on a miss; a RESIZE is sent to the memory module, and only `RESIZE 0` flushes
the entries of the process.  This module models the functions of `mmu.c` and `ejecutar_resize`, and
the CPU and the memory module together as one system.

Main definitions:

* `Cpu.RegistroTlb`, `Cpu.Tlb` — an entry, and the list with its configuration;
* `Cpu.insertarEnTlb`, `Cpu.obtenerMarcoEnTlb`, `Cpu.limpiarTlb` — the operations on it;
* `Cpu.traducirDireccionAFisica`, `Cpu.ejecutarResize` — the two users of the memory module;
* `Cpu.Evento`, `Cpu.sistema` — the CPU and the memory module as a system.

Main results:

* `Cpu.limpiarTlb_eq` — what the flushing loop leaves;
* `Cpu.mem_insertarEnTlb`, `Cpu.mem_obtenerMarcoEnTlb` — where the entries of a TLB come from.
-/

import TpSisop.Enteros
import TpSisop.CpuRegistros
import TpSisop.MemoriaMarcos

set_option relaxedAutoImplicit false
set_option autoImplicit false

namespace Cpu

open Memoria (Pid Fallo)
open Entero (aInt aUint64)

/-! ### The TLB (`mmu.c`) -/

/-- `t_registro_tlb`. -/
structure RegistroTlb where
  pid : Pid
  pagina : ℕ
  marco : ℕ
  lastAccess : ℕ
  deriving DecidableEq, Repr

/-- `ALGORITMO_TLB`; any other string than the two known ones inserts nothing. -/
inductive AlgoritmoTlb
  | fifo
  | lru
  | otro
  deriving DecidableEq, Repr

structure Tlb where
  entradas : List RegistroTlb
  tamTlb : ℤ
  algoTlb : AlgoritmoTlb
  ultimoIndex : ℕ
  deriving DecidableEq, Repr

def iniciarTlb (tamTlb : ℤ) (algoTlb : AlgoritmoTlb) : Tlb where
  entradas := []
  tamTlb := tamTlb
  algoTlb := algoTlb
  ultimoIndex := 0

/-- The list without the element at an index; unchanged when `list_remove` answers `NULL`. -/
def quitar (l : List RegistroTlb) (i : ℤ) : List RegistroTlb :=
  match Coleccion.remover l i with
  | none => l
  | some (_, resto) => resto

/-- The loop of `get_index_for_lru`, from the entry of index `i` on. -/
def indexForLruDesde : List RegistroTlb → ℤ → ℤ → ℤ → ℤ
  | [], _, _, index => index
  | r :: rs, i, leastUsed, index =>
      if r.lastAccess < aUint64 leastUsed then
        indexForLruDesde rs (i + 1) (aInt r.lastAccess) i
      else indexForLruDesde rs (i + 1) leastUsed index

/-- `get_index_for_lru`, at a reading of the clock; `-1` when no entry is older than it. -/
def getIndexForLru (t : Tlb) (reloj : ℕ) : ℤ :=
  indexForLruDesde t.entradas 0 (aInt reloj) (-1)

/-- `insertar_en_tlb`; the clock is read once for the search of a victim and once for the entry. -/
def insertarEnTlb (t : Tlb) (registro : RegistroTlb) (reloj reloj' : ℕ) : Tlb :=
  let size : ℤ := t.entradas.length
  match t.algoTlb, decide (0 < t.tamTlb) with
  | .fifo, true =>
      let ultimo := if (t.ultimoIndex : ℤ) = t.tamTlb then 0 else t.ultimoIndex
      let registro := { registro with lastAccess := 0 }
      if size < t.tamTlb then
        { t with entradas := t.entradas ++ [registro], ultimoIndex := ultimo }
      else if size = t.tamTlb then
        { t with
          entradas := (quitar t.entradas ultimo).insertIdx ultimo registro
          ultimoIndex := ultimo + 1 }
      else { t with ultimoIndex := ultimo }
  | .lru, true =>
      let registro := { registro with lastAccess := reloj' }
      if size < t.tamTlb then { t with entradas := t.entradas ++ [registro] }
      else if size = t.tamTlb then
        { t with entradas := quitar t.entradas (getIndexForLru t reloj) ++ [registro] }
      else t
  | _, _ => t

/-- The `-1` that `obtener_marco_en_tlb` returns on a miss, as the `uint32_t` it is. -/
def sinMarco : ℕ := 2 ^ 32 - 1

/-- The search of `obtener_marco_en_tlb`: the frame of the first entry of the page, and the list
with its time of access updated under LRU. -/
def buscarEnTlb (algo : AlgoritmoTlb) (pid : Pid) (pagina reloj : ℕ) :
    List RegistroTlb → Option (ℕ × List RegistroTlb)
  | [] => none
  | r :: rs =>
      if r.pid = pid ∧ r.pagina = pagina then
        some (r.marco, (if algo = .lru then { r with lastAccess := reloj } else r) :: rs)
      else (buscarEnTlb algo pid pagina reloj rs).map fun x => (x.1, r :: x.2)

def obtenerMarcoEnTlb (t : Tlb) (pid : Pid) (pagina reloj : ℕ) : ℕ × Tlb :=
  match buscarEnTlb t.algoTlb pid pagina reloj t.entradas with
  | none => (sinMarco, t)
  | some (marco, entradas) => (marco, { t with entradas })

/-- The loop of `limpiar_tlb` from index `i` on.  After a removal the source sets `i` to 0 and the
`i++` of the loop makes it 1, so the entry at index 0 is never looked at again. -/
def limpiarDesde (pid : Pid) (i : ℕ) (tlb : List RegistroTlb) : List RegistroTlb :=
  if h : i < tlb.length then
    if tlb[i].pid = pid then limpiarDesde pid 1 (tlb.eraseIdx i)
    else limpiarDesde pid (i + 1) tlb
  else tlb
termination_by (tlb.length, tlb.length - i)
decreasing_by
  · have hlt := List.length_eraseIdx_of_lt h
    exact Prod.Lex.left _ _ (by omega)
  · exact Prod.Lex.right _ (by omega)

def limpiarTlb (t : Tlb) (pid : Pid) : Tlb :=
  { t with entradas := limpiarDesde pid 0 t.entradas }

/-! ### The CPU and the memory module -/

/-- `t_direccion_fisica`. -/
structure DireccionFisica where
  pid : Pid
  marco : ℕ
  desplazamientoFisico : ℕ
  deriving DecidableEq, Repr

/-- The state of the CPU, of the memory module it asks, and the counter of pids of the kernel. -/
structure Estado where
  memoria : Memoria.Estado
  tlb : Tlb
  registros : Registros
  procesoEjecutando : Pid
  ultimoPid : Pid

def traducirDireccionAFisica (s : Estado) (pid : Pid) (registroDireccion : String)
    (reloj reloj' : ℕ) : Except Fallo (DireccionFisica × Estado) :=
  match obtenerTRegistro s.registros registroDireccion with
  | none => .error .punteroNulo
  | some reg =>
      let desplazamiento := reg.contarDesde0.toNat
      let nroPagina := desplazamiento / s.memoria.tamPagina
      let desFisico := desplazamiento - nroPagina * s.memoria.tamPagina
      let (marco, tlb) := obtenerMarcoEnTlb s.tlb pid nroPagina reloj
      if marco = sinMarco then
        match Memoria.accederATablaDePaginas s.memoria pid nroPagina with
        | .error fallo => .error fallo
        | .ok marco =>
            let registro : RegistroTlb := ⟨pid, nroPagina, marco, 0⟩
            .ok (⟨pid, marco, desFisico⟩,
              { s with tlb := insertarEnTlb tlb registro reloj reloj' })
      else .ok (⟨pid, marco, desFisico⟩, { s with tlb })

/-- `ejecutar_resize`, with the answer of the memory module, which takes the size as an `int`. -/
def ejecutarResize (s : Estado) (tamanio : UInt32) : Except Fallo Estado :=
  let pid := s.procesoEjecutando
  let tlb := if tamanio = 0 then limpiarTlb s.tlb pid else s.tlb
  match Memoria.resizeProceso s.memoria pid (aInt tamanio.toNat) with
  | .error fallo => .error fallo
  | .ok (resultado, memoria) =>
      .ok { s with
        memoria
        tlb
        procesoEjecutando := if resultado = 1 then 0 else pid }

/-- What happens to the two modules: translations and RESIZE instructions of the process in the
CPU, instructions that write its registers, context switches, and the creation and termination of
processes. -/
inductive Evento
  | traducir (registroDireccion : String) (reloj reloj' : ℕ)
  | resize (tamanio : UInt32)
  | escribirRegistros (registros : Registros)
  | recibirPcb (pid : Pid) (registros : Registros)
  | crear (instrucciones : Option (List String))
  | terminar (pid : Pid)

/-- One event; the kernel never gives a pid twice. -/
def atender (s : Estado) : Evento → Except Fallo Estado
  | .traducir registro reloj reloj' =>
      (traducirDireccionAFisica s s.procesoEjecutando registro reloj reloj').map fun r => r.2
  | .resize tamanio => ejecutarResize s tamanio
  | .escribirRegistros registros => .ok { s with registros }
  | .recibirPcb pid registros => .ok { s with procesoEjecutando := pid, registros }
  | .crear instrucciones =>
      .ok { s with
        memoria := Memoria.crearProceso s.memoria instrucciones s.ultimoPid
        ultimoPid := s.ultimoPid + 1 }
  | .terminar pid => (Memoria.eliminarProceso s.memoria pid).map fun m => { s with memoria := m }

def estadoInicial (m : Memoria.Estado) (tamTlb : ℤ) (algoTlb : AlgoritmoTlb) : Estado where
  memoria := m
  tlb := iniciarTlb tamTlb algoTlb
  registros := {}
  procesoEjecutando := 0
  ultimoPid := 1

/-- The CPU and the memory module, started with the sizes of their configurations. -/
def sistema (tamPagina tamMemoria : ℕ) (tamTlb : ℤ) (algoTlb : AlgoritmoTlb) :
    Transicion.Sistema Estado Evento where
  inicial s := ∃ espacio,
    s = estadoInicial (Memoria.crearEstructurasMemoria tamPagina tamMemoria espacio) tamTlb algoTlb
  paso s e s' := atender s e = .ok s'

/-! ### Where the entries of a TLB come from -/

/-- What an entry says, without its time of access. -/
def RegistroTlb.clave (r : RegistroTlb) : Pid × ℕ × ℕ := (r.pid, r.pagina, r.marco)

theorem mem_of_mem_quitar {l : List RegistroTlb} {i : ℤ} {e : RegistroTlb}
    (h : e ∈ quitar l i) : e ∈ l := by
  unfold quitar Coleccion.remover at h
  cases ho : Coleccion.obtener l i with
  | none => simpa [ho] using h
  | some x =>
      rw [ho] at h
      exact List.mem_of_mem_eraseIdx h

theorem mem_of_mem_insertIdx {l : List RegistroTlb} {i : ℕ} {a e : RegistroTlb}
    (h : e ∈ l.insertIdx i a) : e = a ∨ e ∈ l := by
  by_cases hi : i ≤ l.length
  · exact (List.mem_insertIdx hi).1 h
  · rw [List.insertIdx_of_length_lt (by omega)] at h
    exact Or.inr h

/-- An insertion adds no entry but the one inserted. -/
theorem mem_insertarEnTlb {t : Tlb} {registro e : RegistroTlb} {reloj reloj' : ℕ}
    (h : e ∈ (insertarEnTlb t registro reloj reloj').entradas) :
    e.clave = registro.clave ∨ e ∈ t.entradas := by
  unfold insertarEnTlb at h
  split at h
  · simp only at h
    split at h
    · rcases List.mem_append.1 h with h | h
      · exact Or.inr h
      · exact Or.inl (by rw [List.mem_singleton.1 h]; rfl)
    · split at h
      · rcases mem_of_mem_insertIdx h with rfl | h
        · exact Or.inl rfl
        · exact Or.inr (mem_of_mem_quitar h)
      · exact Or.inr h
  · simp only at h
    split at h
    · rcases List.mem_append.1 h with h | h
      · exact Or.inr h
      · exact Or.inl (by rw [List.mem_singleton.1 h]; rfl)
    · split at h
      · rcases List.mem_append.1 h with h | h
        · exact Or.inr (mem_of_mem_quitar h)
        · exact Or.inl (by rw [List.mem_singleton.1 h]; rfl)
      · exact Or.inr h
  · exact Or.inr h

/-- A hit answers the frame of an entry of the page, and leaves the same entries up to their times
of access. -/
theorem buscarEnTlb_eq_some {algo : AlgoritmoTlb} {pid : Pid} {pagina reloj marco : ℕ} :
    ∀ {l l' : List RegistroTlb}, buscarEnTlb algo pid pagina reloj l = some (marco, l') →
      (∃ r ∈ l, r.clave = (pid, pagina, marco)) ∧
        ∀ e ∈ l', ∃ r ∈ l, r.clave = e.clave := by
  intro l
  induction l with
  | nil =>
      intro l' h
      simp [buscarEnTlb] at h
  | cons r rs ih =>
      intro l' h
      rw [buscarEnTlb] at h
      split at h
      · rename_i hr
        obtain ⟨rfl, rfl⟩ : r.marco = marco ∧ _ = l' := by simpa using h
        refine ⟨⟨r, by simp, by simp [RegistroTlb.clave, hr.1, hr.2]⟩, ?_⟩
        intro e he
        rcases List.mem_cons.1 he with rfl | he
        · refine ⟨r, by simp, ?_⟩
          split <;> rfl
        · exact ⟨e, by simp [he], rfl⟩
      · obtain ⟨⟨m, rs'⟩, hrs, hx⟩ := Option.map_eq_some_iff.1 h
        obtain ⟨rfl, rfl⟩ : m = marco ∧ r :: rs' = l' := by simpa using hx
        obtain ⟨⟨q, hq, hclave⟩, hresto⟩ := ih hrs
        refine ⟨⟨q, by simp [hq], hclave⟩, ?_⟩
        intro e he
        rcases List.mem_cons.1 he with rfl | he
        · exact ⟨e, by simp, rfl⟩
        · obtain ⟨q', hq', hclave'⟩ := hresto e he
          exact ⟨q', by simp [hq'], hclave'⟩

/-- A lookup leaves the same entries up to their times of access, and answers the frame of an entry
of the page or the mark of a miss. -/
theorem obtenerMarcoEnTlb_spec (t : Tlb) (pid : Pid) (pagina reloj : ℕ) :
    ((obtenerMarcoEnTlb t pid pagina reloj).1 = sinMarco ∨
      ∃ r ∈ t.entradas, r.clave = (pid, pagina, (obtenerMarcoEnTlb t pid pagina reloj).1)) ∧
    ∀ e ∈ (obtenerMarcoEnTlb t pid pagina reloj).2.entradas,
      ∃ r ∈ t.entradas, r.clave = e.clave := by
  unfold obtenerMarcoEnTlb
  split
  · exact ⟨Or.inl rfl, fun e he => ⟨e, he, rfl⟩⟩
  · rename_i marco entradas h
    obtain ⟨hmarco, hresto⟩ := buscarEnTlb_eq_some h
    exact ⟨Or.inr hmarco, hresto⟩

/-! ### The flushing loop -/

/-- From an index whose predecessors, the first one apart, are of other processes, the loop keeps
the first entry and drops every later one of the process. -/
theorem limpiarDesde_cons (pid : Pid) (i : ℕ) (tlb : List RegistroTlb) :
    ∀ (a : RegistroTlb) (pre suf : List RegistroTlb), tlb = a :: (pre ++ suf) →
      pre.length + 1 = i → (∀ x ∈ pre, x.pid ≠ pid) →
      limpiarDesde pid i tlb = a :: (pre ++ suf).filter fun x => decide (x.pid ≠ pid) := by
  induction i, tlb using limpiarDesde.induct pid with
  | case1 i tlb h hpid ih =>
      intro a pre suf htlb hi hpre
      subst htlb hi
      cases suf with
      | nil => simp at h
      | cons x suf =>
          have herase : (a :: (pre ++ x :: suf)).eraseIdx (pre.length + 1) =
              a :: (pre ++ suf) := by
            simpa using Coleccion.eraseIdx_length_append (a :: pre) suf x
          have hx : x.pid = pid := by simpa using hpid
          rw [limpiarDesde, dif_pos h, if_pos hpid, ih a [] (pre ++ suf) herase rfl (by simp)]
          simp [hx]
  | case2 i tlb h hpid ih =>
      intro a pre suf htlb hi hpre
      subst htlb hi
      cases suf with
      | nil => simp at h
      | cons x suf =>
          have hx : x.pid ≠ pid := by simpa using hpid
          rw [limpiarDesde, dif_pos h, if_neg hpid,
            ih a (pre ++ [x]) suf (by simp) (by simp) (by
              intro y hy
              rcases List.mem_append.1 hy with hy | hy
              · exact hpre y hy
              · exact List.mem_singleton.1 hy ▸ hx)]
          simp
  | case3 i tlb h =>
      intro a pre suf htlb hi hpre
      subst htlb hi
      have hsuf : suf = [] := by
        cases suf with
        | nil => rfl
        | cons x suf => simp at h
      subst hsuf
      rw [limpiarDesde, dif_neg h, List.append_nil, List.filter_eq_self.2 (by simpa using hpre)]

/-- `limpiar_tlb` leaves the entries of the other processes, and the second entry of the list too
when the first two are both of the process. -/
theorem limpiarTlb_eq (t : Tlb) (pid : Pid) :
    (limpiarTlb t pid).entradas = match t.entradas with
      | a :: b :: resto =>
          if a.pid = pid ∧ b.pid = pid then b :: resto.filter fun x => decide (x.pid ≠ pid)
          else (a :: b :: resto).filter fun x => decide (x.pid ≠ pid)
      | l => l.filter fun x => decide (x.pid ≠ pid) := by
  unfold limpiarTlb
  rcases t.entradas with - | ⟨a, - | ⟨b, resto⟩⟩
  · simp [limpiarDesde]
  · by_cases ha : a.pid = pid <;> simp [limpiarDesde, ha]
  · rw [limpiarDesde, dif_pos (by simp)]
    by_cases ha : a.pid = pid
    · by_cases hb : b.pid = pid
      · simpa [ha, hb] using limpiarDesde_cons pid 1 (b :: resto) b [] resto rfl rfl (by simp)
      · simpa [ha, hb] using limpiarDesde_cons pid 1 (b :: resto) b [] resto rfl rfl (by simp)
    · simpa [ha] using limpiarDesde_cons pid 1 (a :: b :: resto) a [] (b :: resto) rfl rfl (by simp)

end Cpu
