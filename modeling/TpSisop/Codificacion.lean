/-
**Writers and readers of byte streams.**

A writer appends bytes to a buffer that may not reach a limit; a reader takes bytes from a stream
at a running offset and moves the offset past them.  The two are related through the bytes
between them: a writer *writes* a list of bytes, a reader *reads* a value from a list of bytes,
wherever these stand in the stream.  Both relations compose along sequencing, and so does their
conjunction `Fiel`: what the writer wrote is what the reader gives back, and it consumes exactly
that much.

Main definitions:

* `Codificacion.littleEndian`, `Codificacion.valor` — numbers of a fixed width;
* `Codificacion.Buffer`, `Codificacion.Escritor`, `Codificacion.agregar` — writers;
* `Codificacion.Lector`, `Codificacion.leer`, `Codificacion.repetir` — readers;
* `Codificacion.Escribe`, `Codificacion.Lee`, `Codificacion.Fiel` — the three relations;
* `Codificacion.Gasta` — what a value that was read says about the bytes it took.

Main results:

* `Codificacion.valor_littleEndian` — the number comes back modulo its width;
* `Codificacion.Fiel.seguido`, `Codificacion.Fiel.repetido` — round trips compose, also along a
  list;
* `Codificacion.Gasta.seguido`, `Codificacion.Gasta.repetir` — and so do bounds on what is taken.
-/

import Mathlib.Tactic

set_option relaxedAutoImplicit false
set_option autoImplicit false

namespace Codificacion

/-! ### Numbers of a fixed width -/

/-- The `k` low bytes of `n`, the lowest first. -/
def littleEndian : ℕ → ℕ → List UInt8
  | 0, _ => []
  | k + 1, n => UInt8.ofNat n :: littleEndian k (n / 256)

/-- The number that a list of bytes stands for, the lowest first. -/
def valor : List UInt8 → ℕ
  | [] => 0
  | b :: bs => b.toNat + 256 * valor bs

@[simp] theorem littleEndian_length (k n : ℕ) : (littleEndian k n).length = k := by
  induction k generalizing n with
  | zero => rfl
  | succ k ih => simp [littleEndian, ih]

/-- A number written in `k` bytes comes back modulo `256 ^ k`. -/
theorem valor_littleEndian (k n : ℕ) : valor (littleEndian k n) = n % 256 ^ k := by
  induction k generalizing n with
  | zero => simp [littleEndian, valor, Nat.mod_one]
  | succ k ih =>
      have hlow : (UInt8.ofNat n).toNat = n % 256 := by simp
      rw [littleEndian, valor, ih, hlow, pow_succ', Nat.mod_mul]

theorem valor_littleEndian_of_lt {k n : ℕ} (h : n < 256 ^ k) : valor (littleEndian k n) = n := by
  rw [valor_littleEndian, Nat.mod_eq_of_lt h]

theorem valor_lt (bs : List UInt8) : valor bs < 256 ^ bs.length := by
  induction bs with
  | nil => simp [valor]
  | cons b bs ih =>
      have hb := b.toNat_lt
      rw [valor, List.length_cons, pow_succ']
      omega

/-! ### Writers -/

section

variable {limite : ℕ}

/-- Bytes that do not reach the limit. -/
structure Buffer (limite : ℕ) where
  bytes : List UInt8
  acotado : bytes.length < limite

/-- A writer extends a buffer, or fails. -/
abbrev Escritor (limite : ℕ) := StateT (Buffer limite) Option Unit

/-- Append bytes at the end, unless the buffer would reach its limit. -/
def agregar (bs : List UInt8) : Escritor limite := fun p =>
  if h : p.bytes.length + bs.length < limite then
    some ((), ⟨p.bytes ++ bs, by simpa using h⟩)
  else none

/-- The writer appends `bs` where there is room for it, and fails where there is not. -/
def Escribe (w : Escritor limite) (bs : List UInt8) : Prop := ∀ p, w p = agregar bs p

theorem agregar_de_caber {bs : List UInt8} {p : Buffer limite}
    (h : p.bytes.length + bs.length < limite) :
    agregar bs p = some ((), ⟨p.bytes ++ bs, by simpa using h⟩) :=
  dif_pos h

theorem bytes_of_agregar {bs : List UInt8} {p q : Buffer limite} {u : Unit}
    (h : agregar bs p = some (u, q)) : q.bytes = p.bytes ++ bs := by
  unfold agregar at h
  split at h
  case isTrue =>
    obtain ⟨-, rfl⟩ := Prod.mk.inj (Option.some.inj h)
    rfl
  case isFalse => cases h

theorem Escribe.agregar (bs : List UInt8) : Escribe (agregar bs : Escritor limite) bs :=
  fun _ => rfl

theorem Escribe.nada : Escribe (pure () : Escritor limite) [] := by
  intro p
  have h : p.bytes.length + ([] : List UInt8).length < limite := p.acotado
  simp only [agregar_de_caber h, List.append_nil]
  rfl

theorem Escribe.seguido {w w' : Escritor limite} {bs cs : List UInt8} (h : Escribe w bs)
    (h' : Escribe w' cs) : Escribe (w >>= fun _ => w') (bs ++ cs) := by
  intro p
  change (w p).bind (fun x => w' x.2) = _
  rw [h p]
  unfold Codificacion.agregar
  by_cases hbs : p.bytes.length + bs.length < limite
  · simp only [dif_pos hbs, Option.bind_some, h' _, Codificacion.agregar, List.length_append,
      Nat.add_assoc, List.append_assoc]
  · have hboth : ¬p.bytes.length + (bs ++ cs).length < limite := by
      rw [List.length_append]
      omega
    rw [dif_neg hbs, dif_neg hboth]
    rfl

end

/-! ### Readers -/

section

variable {α β γ : Type}

/-- A reader takes a value from the stream at the offset, and advances the offset. -/
abbrev Lector := ReaderT (List UInt8) (StateT ℕ Option)

/-- The next `n` bytes; `none` past the end of the stream. -/
def leer (n : ℕ) : Lector (List UInt8) := fun s o =>
  if o + n ≤ s.length then some ((s.drop o).take n, o + n) else none

/-- The same reader `n` times. -/
def repetir (l : Lector α) : ℕ → Lector (List α)
  | 0 => pure []
  | n + 1 => do
      let a ← l
      let as ← repetir l n
      return a :: as

theorem bind_eq_some {l : Lector α} {f : α → Lector β} {s : List UInt8} {o o' : ℕ} {b : β} :
    (l >>= f) s o = some (b, o') ↔ ∃ a m, l s o = some (a, m) ∧ f a s m = some (b, o') := by
  change (l s o).bind (fun x => f x.1 s x.2) = _ ↔ _
  simp [Option.bind_eq_some_iff]

theorem pure_eq_some {a b : α} {s : List UInt8} {o o' : ℕ} :
    (pure a : Lector α) s o = some (b, o') ↔ a = b ∧ o = o' := by
  change some (a, o) = _ ↔ _
  simp

/-- The reader takes `a` from the bytes `bs`, wherever they stand in the stream. -/
def Lee (l : Lector α) (bs : List UInt8) (a : α) : Prop :=
  ∀ antes despues, l (antes ++ bs ++ despues) antes.length = some (a, antes.length + bs.length)

theorem Lee.leer (bs : List UInt8) : Lee (leer bs.length) bs bs := by
  intro antes despues
  have hle : antes.length + bs.length ≤ (antes ++ bs ++ despues).length := by simp
  rw [Codificacion.leer, if_pos hle]
  simp

theorem Lee.nada (a : α) : Lee (pure a) [] a := by
  intro antes despues
  rfl

/-- Goes on with a value that may not be there. -/
def exigido : Option α → Lector α := fun a _ o => a.map fun a => (a, o)

@[simp] theorem exigido_some_bind (a : α) (f : α → Lector β) : (exigido (some a) >>= f) = f a := rfl

theorem Lee.exigido {a : α} {o : Option α} (h : o = some a) : Lee (exigido o) [] a := by
  intro antes despues
  rw [h]
  rfl

theorem Lee.seguido {l : Lector α} {f : α → Lector β} {bs cs : List UInt8} {a : α} {b : β}
    (h : Lee l bs a) (h' : Lee (f a) cs b) : Lee (l >>= f) (bs ++ cs) b := by
  intro antes despues
  refine bind_eq_some.mpr ⟨a, antes.length + bs.length, ?_, ?_⟩
  · simpa using h antes (cs ++ despues)
  · simpa [Nat.add_assoc] using h' (antes ++ bs) despues

/-- What comes after a reader starts behind the bytes that it reads. -/
theorem Lee.sigue {l : Lector α} {f : α → Lector β} {bs : List UInt8} {a : α} (h : Lee l bs a)
    {s antes despues : List UInt8} {o : ℕ} {r : β × ℕ} (hs : s = antes ++ bs ++ despues)
    (ho : antes.length = o) (hr : (l >>= f) s o = some r) : f a s (o + bs.length) = some r := by
  obtain ⟨a', m, ha, hf⟩ := bind_eq_some.mp hr
  subst hs ho
  obtain ⟨rfl, rfl⟩ := Prod.mk.inj (Option.some.inj ((h antes despues).symm.trans ha))
  exact hf

/-- A last step that takes nothing. -/
theorem Lee.devuelto {l : Lector α} {f : α → Lector β} {bs : List UInt8} {a : α} {b : β}
    (h : Lee l bs a) (h' : Lee (f a) [] b) : Lee (l >>= f) bs b := by
  have := h.seguido h'
  rwa [List.append_nil] at this

/-- Every value that the reader takes, whatever the stream, is related to the number of bytes
that it took, and these are in the stream. -/
def Gasta (l : Lector α) (R : α → ℕ → Prop) : Prop :=
  ∀ s o a o', l s o = some (a, o') → ∃ n, o' = o + n ∧ (o ≤ s.length → o' ≤ s.length) ∧ R a n

theorem Gasta.leer (n : ℕ) : Gasta (leer n) fun bs m => m = n ∧ bs.length = n := by
  intro s o bs o' h
  rw [Codificacion.leer] at h
  split at h
  case isTrue hle =>
    obtain ⟨rfl, rfl⟩ := Prod.mk.inj (Option.some.inj h)
    refine ⟨n, rfl, fun _ => hle, rfl, ?_⟩
    rw [List.length_take, List.length_drop]
    omega
  case isFalse => cases h

theorem Gasta.nada {R : α → ℕ → Prop} {a : α} (h : R a 0) : Gasta (pure a) R := by
  intro s o b o' hb
  obtain ⟨rfl, rfl⟩ := pure_eq_some.mp hb
  exact ⟨0, rfl, id, h⟩

theorem Gasta.exigido {R : α → ℕ → Prop} {o : Option α} (h : ∀ a, o = some a → R a 0) :
    Gasta (exigido o) R := by
  intro s m a o' ha
  cases o with
  | none => cases ha
  | some b =>
      obtain ⟨rfl, rfl⟩ := Prod.mk.inj (Option.some.inj ha)
      exact ⟨0, rfl, id, h b rfl⟩

theorem Gasta.seguido {l : Lector α} {f : α → Lector β} {R : α → ℕ → Prop} {S : β → ℕ → Prop}
    (h : Gasta l R) (h' : ∀ a n, R a n → Gasta (f a) fun b m => S b (n + m)) :
    Gasta (l >>= f) S := by
  intro s o b o' hb
  obtain ⟨a, m, ha, hf⟩ := bind_eq_some.mp hb
  obtain ⟨n, rfl, hle, hR⟩ := h s o a m ha
  obtain ⟨k, rfl, hle', hS⟩ := h' a n hR s (o + n) b o' hf
  exact ⟨n + k, by omega, fun ho => hle' (hle ho), hS⟩

theorem Gasta.mono {l : Lector α} {R S : α → ℕ → Prop} (h : Gasta l R)
    (hRS : ∀ a n, R a n → S a n) : Gasta l S := by
  intro s o a o' ha
  obtain ⟨n, ho, hle, hR⟩ := h s o a o' ha
  exact ⟨n, ho, hle, hRS a n hR⟩

/-- Repeating a reader takes the bytes of every element. -/
theorem Gasta.repetir {l : Lector α} {tam : α → ℕ} (h : Gasta l fun a n => tam a ≤ n) (k : ℕ) :
    Gasta (repetir l k) fun as n => (as.map tam).sum ≤ n ∧ as.length = k := by
  induction k with
  | zero => exact Gasta.nada ⟨Nat.le_refl 0, rfl⟩
  | succ k ih =>
      refine h.seguido fun a n hn => ih.seguido fun as m hm => Gasta.nada ?_
      simp only [List.map_cons, List.sum_cons, List.length_cons]
      omega

end

/-! ### Round trips -/

section

variable {ancho limite : ℕ} {α β : Type}

/-- If the sizes up to `n` fit in their counters, which go up to `ancho`, then what the writer
writes takes `n` bytes, and the reader reads it as `a`. -/
def Fiel (ancho : ℕ) (w : Escritor limite) (l : Lector α) (a : α) (n : ℕ) : Prop :=
  n < ancho → ∃ bs : List UInt8, bs.length = n ∧ Escribe w bs ∧ Lee l bs a

theorem Fiel.nada (a : α) : Fiel ancho (pure () : Escritor limite) (pure a) a 0 :=
  fun _ => ⟨[], rfl, Escribe.nada, Lee.nada a⟩

theorem Fiel.seguido {w w' : Escritor limite} {l : Lector α} {f : α → Lector β} {a : α} {b : β}
    {n m : ℕ} (h : Fiel ancho w l a n) (h' : Fiel ancho w' (f a) b m) :
    Fiel ancho (w >>= fun _ => w') (l >>= f) b (n + m) := by
  intro hlt
  obtain ⟨bs, rfl, hw, hl⟩ := h (by omega)
  obtain ⟨cs, rfl, hw', hl'⟩ := h' (by omega)
  exact ⟨bs ++ cs, List.length_append, hw.seguido hw', hl.seguido hl'⟩

theorem Fiel.devuelto {w : Escritor limite} {l : Lector α} {f : α → Lector β} {a : α} {b : β}
    {n : ℕ} (h : Fiel ancho w l a n) (h' : Lee (f a) [] b) : Fiel ancho w (l >>= f) b n := by
  intro hlt
  obtain ⟨bs, rfl, hw, hl⟩ := h hlt
  exact ⟨bs, rfl, hw, hl.devuelto h'⟩

theorem Fiel.deTamanio {w : Escritor limite} {l : Lector α} {a : α} {n m : ℕ}
    (h : Fiel ancho w l a n) (hnm : n = m) : Fiel ancho w l a m := hnm ▸ h

/-- Writing the elements of a list one by one, and reading as many. -/
theorem Fiel.repetido {w : α → Escritor limite} {l : Lector α} {tam : α → ℕ}
    (h : ∀ a, Fiel ancho (w a) l a (tam a)) (as : List α) :
    Fiel ancho (as.forM w) (repetir l as.length) as (as.map tam).sum := by
  induction as with
  | nil => exact Fiel.nada []
  | cons a as ih => exact (h a).seguido (ih.devuelto (Lee.nada (a :: as)))

end

end Codificacion
