/-
**Reading a file of instructions, line by line.**

The loop of `leer_archivo` in `file_reader.c`.  It reads with `fgets` into a buffer of two hundred
bytes until the stream is at its end, and keeps the first piece of what it read, cut at the newline.
The end of a stream shows only when a read runs into it: after a newline at the end of the file, or
after a read that fills the buffer with the last bytes, the loop goes on and there is nothing left
to read.

Main definitions:

* `LectorArchivo.fgets` — a read of a stream, up to a newline or a number of bytes;
* `LectorArchivo.leerLineas` — the loop;
* `LectorArchivo.Linea`, `LectorArchivo.texto` — a file as its lines, with or without a newline at
  the end.

Main results:

* `LectorArchivo.length_of_leerTexto` — how many elements the loop makes of the lines of a file;
* `LectorArchivo.leeLasLineas_iff` — exactly when these are the lines.
-/

import Mathlib.Data.List.Basic
import Mathlib.Algebra.BigOperators.Group.List.Basic
import Mathlib.Algebra.Order.BigOperators.Group.List
import Mathlib.Tactic

set_option relaxedAutoImplicit false
set_option autoImplicit false

namespace LectorArchivo

/-- The bytes of a file, or of a C string without its NUL. -/
abbrev Bytes := List UInt8

/-- The newline. -/
def salto : UInt8 := 10

/-! ### Streams -/

/-- A stream: what was not read yet, and whether a read ran into the end. -/
structure Flujo where
  resto : Bytes
  eof : Bool

/-- Reads at most `n` bytes, up to the first newline. -/
def leerHasta : ℕ → Bytes → Bytes × Flujo
  | 0, bs => ([], ⟨bs, false⟩)
  | _ + 1, [] => ([], ⟨[], true⟩)
  | n + 1, b :: bs =>
      if b = salto then ([b], ⟨bs, false⟩)
      else
        let r := leerHasta n bs
        (b :: r.1, r.2)

/-- `fgets(str, n, arch)`, which answers NULL when there is nothing left to read. -/
def fgets (n : ℕ) (f : Flujo) : Option Bytes × Flujo :=
  let r := leerHasta (n - 1) f.resto
  (if r.1 = [] ∧ r.2.eof then none else some r.1, ⟨r.2.resto, f.eof || r.2.eof⟩)

theorem length_leerHasta (n : ℕ) (bs : Bytes) :
    (leerHasta n bs).1.length + (leerHasta n bs).2.resto.length = bs.length := by
  induction n generalizing bs with
  | zero => simp [leerHasta]
  | succ n ih =>
      cases bs with
      | nil => rfl
      | cons b bs =>
          have := ih bs
          simp only [leerHasta]
          split
          · simp [add_comm]
          · simp only [List.length_cons]
            omega

/-- Nothing is read only at the end. -/
theorem leerHasta_eq_nil {n : ℕ} {bs : Bytes} (h : (leerHasta (n + 1) bs).1 = []) :
    (leerHasta (n + 1) bs).2.eof = true := by
  cases bs with
  | nil => rfl
  | cons b bs =>
      simp only [leerHasta] at h
      split at h <;> cases h

variable {s bs : Bytes} {n : ℕ}

/-- A line that fits, with its newline. -/
theorem leerHasta_salto (hs : salto ∉ s) (hn : s.length < n) :
    leerHasta n (s ++ salto :: bs) = (s ++ [salto], ⟨bs, false⟩) := by
  induction s generalizing n with
  | nil =>
      obtain ⟨n, rfl⟩ := Nat.exists_eq_succ_of_ne_zero hn.ne'
      simp [leerHasta]
  | cons b s ih =>
      obtain ⟨n, rfl⟩ := Nat.exists_eq_succ_of_ne_zero (Nat.ne_zero_of_lt hn)
      rw [List.mem_cons, not_or] at hs
      simp only [List.length_cons, Nat.succ_eq_add_one, Nat.add_lt_add_iff_right] at hn
      simp [leerHasta, Ne.symm hs.1, ih hs.2 hn]

/-- The last bytes, when they fit and no newline ends them. -/
theorem leerHasta_fin (hs : salto ∉ s) (hn : s.length < n) :
    leerHasta n s = (s, ⟨[], true⟩) := by
  induction s generalizing n with
  | nil =>
      obtain ⟨n, rfl⟩ := Nat.exists_eq_succ_of_ne_zero hn.ne'
      rfl
  | cons b s ih =>
      obtain ⟨n, rfl⟩ := Nat.exists_eq_succ_of_ne_zero (Nat.ne_zero_of_lt hn)
      rw [List.mem_cons, not_or] at hs
      simp only [List.length_cons, Nat.succ_eq_add_one, Nat.add_lt_add_iff_right] at hn
      simp [leerHasta, Ne.symm hs.1, ih hs.2 hn]

/-- As many bytes as fit, and no newline among them. -/
theorem leerHasta_lleno (hs : salto ∉ s) (hn : s.length = n) :
    leerHasta n (s ++ bs) = (s, ⟨bs, false⟩) := by
  induction s generalizing n with
  | nil =>
      subst hn
      rfl
  | cons b s ih =>
      subst hn
      rw [List.mem_cons, not_or] at hs
      simp [leerHasta, Ne.symm hs.1, ih hs.2 rfl]

/-! ### The loop -/

/-- The loop of `leer_archivo`, over `string_n_split(_, 2, "\n")`.  It dies when it splits a NULL
text, and when there is no first piece to print. -/
def leerLineas (stringNSplit : Bytes → List Bytes) (f : Flujo) : Option (List Bytes) :=
  if f.eof then some []
  else
    match _hlee : fgets 200 f with
    | (none, _) => none
    | (some str, f') => do
        let msg ← (stringNSplit str).head?
        let lista ← leerLineas stringNSplit f'
        some (msg :: lista)
termination_by f.resto.length
decreasing_by
  simp only [fgets, Prod.mk.injEq] at _hlee
  obtain ⟨h, rfl⟩ := _hlee
  have hlen := length_leerHasta 199 f.resto
  by_cases hnil : (leerHasta 199 f.resto).1 = []
  · simp [hnil, leerHasta_eq_nil hnil] at h
  · have := List.length_pos_iff.2 hnil
    simp only [Nat.add_one_sub_one]
    omega

/-- What the loop makes of a file. -/
def leerTexto (stringNSplit : Bytes → List Bytes) (bs : Bytes) : Option (List Bytes) :=
  leerLineas stringNSplit ⟨bs, false⟩

section

variable {stringNSplit : Bytes → List Bytes} {lista : List Bytes}

/-- One turn of the loop. -/
theorem leerTexto_of_leerHasta {r : Bytes × Flujo} (h : leerHasta 199 bs = r) (hr : r.1 ≠ []) :
    leerTexto stringNSplit bs = (stringNSplit r.1).head?.bind fun msg =>
      (leerLineas stringNSplit r.2).map fun lista => msg :: lista := by
  subst h
  have hf : fgets 200 ⟨bs, false⟩ = (some (leerHasta 199 bs).1, (leerHasta 199 bs).2) := by
    simp [fgets, hr]
  rw [leerTexto, leerLineas]
  simp only [Bool.false_eq_true, if_false]
  split
  · rename_i h
    rw [hf] at h
    cases h
  · rename_i str f' h
    rw [hf] at h
    cases h
    simp only [Option.bind_eq_bind, Option.map_eq_bind]
    rfl

theorem leerTexto_nil : leerTexto stringNSplit [] = none := by
  rw [leerTexto, leerLineas]
  rfl

theorem leerTexto_salto (hs : salto ∉ s) (hn : s.length < 199) :
    leerTexto stringNSplit (s ++ salto :: bs) =
      (stringNSplit (s ++ [salto])).head?.bind fun msg =>
        (leerTexto stringNSplit bs).map fun lista => msg :: lista :=
  leerTexto_of_leerHasta (leerHasta_salto hs hn) (by simp)

theorem leerTexto_lleno (hs : salto ∉ s) (hn : s.length = 199) :
    leerTexto stringNSplit (s ++ bs) =
      (stringNSplit s).head?.bind fun msg =>
        (leerTexto stringNSplit bs).map fun lista => msg :: lista := by
  refine leerTexto_of_leerHasta (leerHasta_lleno hs hn) ?_
  rintro rfl
  cases hn

theorem leerTexto_fin (hs : salto ∉ s) (hn : s.length < 199) (h₀ : s ≠ []) :
    leerTexto stringNSplit s = (stringNSplit s).head?.map fun msg => [msg] := by
  rw [leerTexto_of_leerHasta (leerHasta_fin hs hn) h₀, leerLineas]
  cases (stringNSplit s).head? <;> rfl

/-- A line that does not fit: the buffer is full, and the rest is read by the next turns. -/
theorem leerTexto_largo (hs : salto ∉ s) (hn : 199 ≤ s.length)
    (h : leerTexto stringNSplit (s ++ bs) = some lista) :
    ∃ msg lista', leerTexto stringNSplit (s.drop 199 ++ bs) = some lista' ∧
      lista = msg :: lista' := by
  have hlen : (s.take 199).length = 199 := List.length_take_of_le hn
  rw [← List.take_append_drop 199 s, List.append_assoc,
    leerTexto_lleno (fun h => hs (List.mem_of_mem_take h)) hlen] at h
  simp only [Option.bind_eq_some_iff, Option.map_eq_some_iff] at h
  obtain ⟨msg, -, lista', h', rfl⟩ := h
  exact ⟨msg, lista', h', rfl⟩

/-! ### Counting the elements -/

/-- A line makes an element of every 199 bytes, and one of the rest with the newline. -/
theorem length_of_leerTexto_salto (hs : salto ∉ s)
    (h : leerTexto stringNSplit (s ++ salto :: bs) = some lista) :
    ∃ lista', leerTexto stringNSplit bs = some lista' ∧
      lista.length = s.length / 199 + 1 + lista'.length := by
  induction hn : s.length using Nat.strong_induction_on generalizing s lista with
  | _ n ih =>
      rcases Nat.lt_or_ge s.length 199 with hlt | hge
      · rw [leerTexto_salto hs hlt] at h
        simp only [Option.bind_eq_some_iff, Option.map_eq_some_iff] at h
        obtain ⟨msg, -, lista', h', rfl⟩ := h
        refine ⟨lista', h', ?_⟩
        rw [List.length_cons]
        omega
      · obtain ⟨msg, lista₁, h₁, rfl⟩ := leerTexto_largo hs hge h
        have hdrop : (s.drop 199).length = s.length - 199 := List.length_drop ..
        obtain ⟨lista', h', hl⟩ :=
          ih _ (by omega) (fun h => hs (List.mem_of_mem_drop h)) h₁ rfl
        refine ⟨lista', h', ?_⟩
        rw [List.length_cons, hl]
        omega

/-- The same for the bytes after the last newline, if there are any. -/
theorem length_of_leerTexto_fin (hs : salto ∉ s) (h : leerTexto stringNSplit s = some lista) :
    lista.length = s.length / 199 + 1 := by
  induction hn : s.length using Nat.strong_induction_on generalizing s lista with
  | _ n ih =>
      rcases Nat.lt_or_ge s.length 199 with hlt | hge
      · have h₀ : s ≠ [] := by
          rintro rfl
          rw [leerTexto_nil] at h
          cases h
        rw [leerTexto_fin hs hlt h₀, Option.map_eq_some_iff] at h
        obtain ⟨msg, -, rfl⟩ := h
        rw [List.length_singleton]
        omega
      · rw [← List.append_nil s] at h
        obtain ⟨msg, lista₁, h₁, rfl⟩ := leerTexto_largo hs hge h
        rw [List.append_nil] at h₁
        have hdrop : (s.drop 199).length = s.length - 199 := List.length_drop ..
        have hl := ih _ (by omega) (fun h => hs (List.mem_of_mem_drop h)) h₁ rfl
        rw [List.length_cons, hl]
        omega

end

/-! ### Files of lines -/

/-- A line of a text file that is not empty. -/
structure Linea where
  bytes : Bytes
  noVacia : bytes ≠ []
  sinSalto : salto ∉ bytes
  sinNulo : 0 ∉ bytes

/-- The file with these lines, and maybe a newline after the last one. -/
def texto : List Linea → Bool → Bytes
  | [], _ => []
  | [l], saltoFinal => l.bytes ++ if saltoFinal then [salto] else []
  | l :: l' :: ls, saltoFinal => l.bytes ++ salto :: texto (l' :: ls) saltoFinal

/-- What `string_n_split(_, 2, "\n")` is documented to do with a line: its first piece is the line,
with or without the newline. -/
structure ParteLineas (stringNSplit : Bytes → List Bytes) : Prop where
  sola : ∀ l : Linea, (stringNSplit l.bytes).head? = some l.bytes
  conSalto : ∀ l : Linea, (stringNSplit (l.bytes ++ [salto])).head? = some l.bytes

variable {stringNSplit : Bytes → List Bytes} {ls : List Linea} {saltoFinal : Bool}

/-- When the loop ends, no newline ends the file, and long lines have made several elements. -/
theorem length_of_leerTexto {lista : List Bytes}
    (h : leerTexto stringNSplit (texto ls saltoFinal) = some lista) :
    ls ≠ [] ∧ saltoFinal = false ∧
      lista.length = (ls.map fun l => l.bytes.length / 199).sum + ls.length := by
  induction ls, saltoFinal using texto.induct generalizing lista with
  | case1 saltoFinal =>
      rw [texto, leerTexto_nil] at h
      cases h
  | case2 l saltoFinal =>
      cases saltoFinal with
      | true =>
          obtain ⟨lista', h', -⟩ := length_of_leerTexto_salto l.sinSalto h
          rw [leerTexto_nil] at h'
          cases h'
      | false =>
          simp only [texto, Bool.false_eq_true, if_false, List.append_nil] at h
          have := length_of_leerTexto_fin l.sinSalto h
          simpa using this
  | case3 l l' ls saltoFinal ih =>
      rw [texto] at h
      obtain ⟨lista', h', hlen⟩ := length_of_leerTexto_salto l.sinSalto h
      obtain ⟨-, hfinal, hlen'⟩ := ih h'
      refine ⟨by simp, hfinal, ?_⟩
      simp only [List.map_cons, List.sum_cons, List.length_cons] at hlen' ⊢
      omega

/-- Lines that fit are read one by one. -/
theorem leerTexto_texto (h : ParteLineas stringNSplit) (hls : ls ≠ [])
    (hcortas : ∀ l ∈ ls, l.bytes.length ≤ 198) :
    leerTexto stringNSplit (texto ls false) = some (ls.map Linea.bytes) := by
  induction ls with
  | nil => exact absurd rfl hls
  | cons l ls ih =>
      have hl : l.bytes.length < 199 := by
        have := hcortas l (by simp)
        omega
      cases ls with
      | nil =>
          simp only [texto, Bool.false_eq_true, if_false, List.append_nil]
          rw [leerTexto_fin l.sinSalto hl l.noVacia, h.sola]
          rfl
      | cons l' ls =>
          rw [texto, leerTexto_salto l.sinSalto hl, h.conSalto,
            ih (by simp) fun l hl => hcortas l (List.mem_cons_of_mem _ hl)]
          rfl

/-- The loop reads exactly the lines of a file when there are some, no newline ends the last one,
and each fits in the buffer with its newline. -/
theorem leeLasLineas_iff (h : ParteLineas stringNSplit) (ls : List Linea) (saltoFinal : Bool) :
    leerLineas stringNSplit ⟨texto ls saltoFinal, false⟩ = some (ls.map Linea.bytes) ↔
      ls ≠ [] ∧ saltoFinal = false ∧ ∀ l ∈ ls, l.bytes.length ≤ 198 := by
  constructor
  · intro hlee
    obtain ⟨hls, hfinal, hlen⟩ := length_of_leerTexto hlee
    refine ⟨hls, hfinal, fun l hl => ?_⟩
    -- one element for each line leaves none for the rest of a long one
    rw [List.length_map] at hlen
    have hcero : (ls.map fun l => l.bytes.length / 199).sum = 0 := by omega
    have := List.sum_eq_zero_iff.1 hcero _ (List.mem_map_of_mem hl)
    omega
  · rintro ⟨hls, rfl, hcortas⟩
    exact leerTexto_texto h hls hcortas

/-- `string_n_split(_, 2, "\n")`: the first run of bytes that are no newline, and what follows the
newline after it. -/
def partirEnDos (s : Bytes) : List Bytes :=
  let t := s.dropWhile (· = salto)
  let pieza := t.takeWhile (· ≠ salto)
  let resto := (t.dropWhile (· ≠ salto)).tail
  (if pieza = [] then [] else [pieza]) ++ if resto = [] then [] else [resto]

theorem parteLineas_partirEnDos : ParteLineas partirEnDos := by
  have hparte : ∀ (l : Linea) (r : Bytes), (r = [] ∨ r = [salto]) →
      (partirEnDos (l.bytes ++ r)).head? = some l.bytes := by
    intro l r hr
    have hno : ∀ b ∈ l.bytes, b ≠ salto := fun b hb he => l.sinSalto (he ▸ hb)
    have hdrop : (l.bytes ++ r).dropWhile (· = salto) = l.bytes ++ r := by
      obtain ⟨b, s, hbs⟩ := List.exists_cons_of_ne_nil l.noVacia
      rw [hbs, List.cons_append, List.dropWhile_cons_of_neg]
      simpa using hno b (by simp [hbs])
    have htake : (l.bytes ++ r).takeWhile (· ≠ salto) = l.bytes := by
      rw [List.takeWhile_append_of_pos (by simpa using hno)]
      rcases hr with rfl | rfl <;> simp
    simp only [partirEnDos]
    rw [hdrop, htake, if_neg l.noVacia]
    rfl
  refine ⟨fun l => ?_, fun l => hparte l [salto] (.inr rfl)⟩
  simpa using hparte l [] (.inl rfl)

/-- The instructions `NOOP` and `EXIT`. -/
def noop : Linea := ⟨[78, 79, 79, 80], by decide, by decide, by decide⟩

def exit : Linea := ⟨[69, 88, 73, 84], by decide, by decide, by decide⟩

theorem leeLasLineas_noopExit :
    leerLineas partirEnDos ⟨texto [noop, exit] false, false⟩ = some [noop.bytes, exit.bytes] :=
  (leeLasLineas_iff parteLineas_partirEnDos [noop, exit] false).2
    ⟨by simp, rfl, by simp [noop, exit]⟩

/-- After the newline at the end of the file there is nothing to split. -/
theorem saltoFinal_muere :
    ¬∀ ls saltoFinal, leerLineas partirEnDos ⟨texto ls saltoFinal, false⟩
      = some (ls.map Linea.bytes) := by
  intro h
  obtain ⟨-, hfinal, -⟩ := length_of_leerTexto (h [exit] true)
  cases hfinal

end LectorArchivo
