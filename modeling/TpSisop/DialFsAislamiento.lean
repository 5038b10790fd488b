/-
**Isolation of the DialFS files: what a read or a write with any position and size touches.**

The position and the size of a read or a write come from registers of the process, and nothing on
their way compares them with the size of the file; nor does the interface, unlike when it deletes or
truncates, look whether the file exists before it follows the pointer to its entry.  So a write is
confined to its file, whatever it writes, exactly when it is inside the file, and a read depends
only on the file exactly then.

Main definitions:

* `DialFs.bytesDe` — the bytes of a file;
* `DialFs.EscrituraAislada`, `DialFs.LecturaAislada` — a write changes only bytes of the file, a
  read depends only on them, and neither fails;
* `DialFs.DentroDelArchivo` — the condition.

Main results:

* `DialFs.escrituraAislada_iff`, `DialFs.lecturaAislada_iff` — each is isolated exactly when it
  meets the condition;
* `DialFs.acceso_aislado` — both.
-/

import TpSisop.DialFsFugas

set_option relaxedAutoImplicit false
set_option autoImplicit false

namespace DialFs

variable (c : Config) (s : Estado) (nombre : String) (pos tam : UInt32)

/-- The bytes of a file; none when there is no such file. -/
def bytesDe (x : ℤ) : Prop :=
  match s.archivos.valor nombre with
  | none => False
  | some a => a.bloqueInicial * c.blockSize ≤ x ∧ x < a.bloqueInicial * c.blockSize + a.tamArchivo

/-- A write of `tam` bytes returns, and whatever the bytes it changes only the file: the disk stays
as it is when there is no such file. -/
def EscrituraAislada : Prop :=
  ∀ datos : List UInt8, datos.length = tam.toNat →
    ∃ s', ioFsWrite c s nombre pos.toNat datos = some s' ∧
      ∀ x, ¬bytesDe c s nombre x → s'.bloques x = s.bloques x

/-- A read returns, and what it answers is the same on every disk that agrees on the bytes of the
file. -/
def LecturaAislada : Prop :=
  ∃ leido, ioFsRead c s nombre pos.toNat tam.toNat = some leido ∧
    ∀ bloques : ℤ → UInt8, (∀ x, bytesDe c s nombre x → bloques x = s.bloques x) →
      ioFsRead c { s with bloques := bloques } nombre pos.toNat tam.toNat = some leido

/-- The file exists and the range is inside it, or is empty. -/
def DentroDelArchivo : Prop :=
  ∃ a ∈ s.archivos.valor nombre, tam = 0 ∨ (pos.toNat : ℤ) + tam.toNat ≤ a.tamArchivo

variable {c s nombre pos tam}

theorem bytesDe_of_some {a : Archivo} (ha : s.archivos.valor nombre = some a) (x : ℤ) :
    bytesDe c s nombre x ↔
      a.bloqueInicial * c.blockSize ≤ x ∧ x < a.bloqueInicial * c.blockSize + a.tamArchivo := by
  rw [bytesDe, ha]

theorem uint8_add_one_ne (v : UInt8) : v + 1 ≠ v := by
  intro h
  have hnat := congrArg UInt8.toNat h
  rw [UInt8.toNat_add, UInt8.toNat_one] at hnat
  omega

/-- Without a file there is nothing to follow. -/
theorem exists_of_escrituraAislada (h : EscrituraAislada c s nombre pos tam) :
    ∃ a, s.archivos.valor nombre = some a := by
  obtain ⟨s', hs', -⟩ := h (List.replicate tam.toNat 0) List.length_replicate
  obtain ⟨a, ha, -⟩ := Option.map_eq_some_iff.1 hs'
  exact ⟨a, ha⟩

/-- A write is isolated exactly when it is inside its file. -/
theorem escrituraAislada_iff :
    EscrituraAislada c s nombre pos tam ↔ DentroDelArchivo s nombre pos tam := by
  constructor
  · intro h
    obtain ⟨a, ha⟩ := exists_of_escrituraAislada h
    refine ⟨a, ha, ?_⟩
    by_contra hfuera
    rw [not_or, not_le] at hfuera
    obtain ⟨htam, hlargo⟩ := hfuera
    have hpos : 0 < tam.toNat := Nat.pos_of_ne_zero fun h => htam (UInt32.toNat_inj.1 h)
    -- the last byte written is outside, and one of its values is not the one it has
    obtain ⟨x, hx⟩ : ∃ x, x = a.bloqueInicial * c.blockSize + pos.toNat + tam.toNat - 1 := ⟨_, rfl⟩
    obtain ⟨s', hs', hmarco⟩ :=
      h (List.replicate tam.toNat (s.bloques x + 1)) List.length_replicate
    have hbyte := hmarco x (by rw [bytesDe_of_some ha]; omega)
    rw [ioFsWrite, ha, Option.map_some, Option.some.injEq] at hs'
    subst hs'
    simp only [memcpy, List.length_replicate] at hbyte
    rw [if_pos ⟨by omega, by omega⟩, List.getD_eq_getElem?_getD,
      List.getElem?_replicate_of_lt (by omega)] at hbyte
    exact uint8_add_one_ne _ hbyte
  · rintro ⟨a, ha, hdentro⟩ datos hlen
    refine ⟨_, by rw [ioFsWrite, ha, Option.map_some], fun x hx => ?_⟩
    rw [bytesDe_of_some ha] at hx
    simp only [memcpy]
    rw [if_neg]
    rintro ⟨h₁, h₂⟩
    rcases hdentro with rfl | hdentro
    · rw [UInt32.toNat_zero] at hlen
      omega
    · omega

/-- A read is isolated exactly when it is inside its file. -/
theorem lecturaAislada_iff :
    LecturaAislada c s nombre pos tam ↔ DentroDelArchivo s nombre pos tam := by
  constructor
  · rintro ⟨leido, hlee, hmarco⟩
    obtain ⟨a, ha, rfl⟩ := Option.map_eq_some_iff.1 hlee
    refine ⟨a, ha, ?_⟩
    by_contra hfuera
    rw [not_or, not_le] at hfuera
    obtain ⟨htam, hlargo⟩ := hfuera
    have hpos : 0 < tam.toNat := Nat.pos_of_ne_zero fun h => htam (UInt32.toNat_inj.1 h)
    -- a disk that differs only in the last byte read
    obtain ⟨x, hx⟩ : ∃ x, x = a.bloqueInicial * c.blockSize + pos.toNat + tam.toNat - 1 := ⟨_, rfl⟩
    have hotro := hmarco (Function.update s.bloques x (s.bloques x + 1)) (by
      intro y hy
      rw [bytesDe_of_some ha] at hy
      rw [Function.update_of_ne (by omega)])
    simp only [ioFsRead, ha, Option.map_some, Option.some.injEq, List.map_inj_left,
      List.mem_range] at hotro
    have hultimo := hotro (tam.toNat - 1) (by omega)
    rw [show a.bloqueInicial * c.blockSize + pos.toNat + ((tam.toNat - 1 : ℕ) : ℤ) = x by omega,
      Function.update_self] at hultimo
    exact uint8_add_one_ne _ hultimo
  · rintro ⟨a, ha, hdentro⟩
    change s.archivos.valor nombre = some a at ha
    refine ⟨_, by rw [ioFsRead, ha, Option.map_some], fun bloques hbloques => ?_⟩
    simp only [ioFsRead, ha, Option.map_some, Option.some.injEq, List.map_inj_left, List.mem_range]
    intro i hi
    refine hbloques _ ?_
    rw [bytesDe_of_some ha]
    rcases hdentro with rfl | hdentro
    · exact absurd hi (Nat.not_lt_zero i)
    · omega

/-- **On which accesses the files are isolated**: those inside their file. -/
theorem acceso_aislado (c : Config) (s : Estado) (nombre : String) (pos tam : UInt32) :
    EscrituraAislada c s nombre pos tam ∧ LecturaAislada c s nombre pos tam ↔
      DentroDelArchivo s nombre pos tam := by
  rw [escrituraAislada_iff, lecturaAislada_iff, and_self]

/-! ### A run -/

/-- Two files of one block each. -/
def dosArchivos : Estado :=
  Transicion.estadoTras (intentarLibre discoChico fun _ _ => true) estadoInicial
    [.crear "a", .truncar "a" 16 ["a"], .crear "b", .truncar "b" 16 ["a", "b"]] (by decide +kernel)

/-- One byte written at the end of the first is the first byte of the second, which starts at 16. -/
theorem dosArchivos_no_aislados :
    ¬∀ (c : Config) (s : Estado), 0 < c.blockSize → c.blockCount * c.blockSize < 2 ^ 31 →
      Transicion.Alcanzable (sistemaLibre c) s → ∀ (nombre : String) (pos tam : UInt32),
        EscrituraAislada c s nombre pos tam ∧ LecturaAislada c s nombre pos tam := by
  intro h
  have halc : Transicion.Alcanzable (sistemaLibre discoChico) dosArchivos :=
    Transicion.alcanzableCon_estadoTras (fun _ _ _ h => ⟨trivial, (paso_of_intentarLibre h).2⟩)
      rfl _
  have ha : dosArchivos.archivos.valor "a" = some ⟨0, 16⟩ := by decide +kernel
  obtain ⟨s', hs', hmarco⟩ :=
    (h discoChico dosArchivos (by decide) (by decide) halc "a" 16 1).1 [7] rfl
  have hbyte := hmarco 16 (by rw [bytesDe_of_some ha]; decide)
  rw [ioFsWrite, ha, Option.map_some, Option.some.injEq] at hs'
  subst hs'
  have hantes : dosArchivos.bloques 16 = 0 := by decide +kernel
  rw [hantes] at hbyte
  exact absurd hbyte (by decide)

end DialFs
