/-
**Queues in which nobody overtakes.**

What waits in a queue is in front of some and behind others.  If a step of a system only takes
elements out of the queue and puts new ones at its end, then whoever stays in it sees those in front
of it leave and nobody else come before it, however long the run is and whatever else it does.  So
its wait is bounded by its place: each time the first of the queue leaves there is one less in front
of it.

Main definitions:

* `Fila.delante` — the elements of a queue in front of one of them;
* `Fila.Avanza` — what a step may do to a queue;
* `Fila.Atiende` — the first of the queue leaves.

Main results:

* `Fila.Avanza.delante` — those in front of one that stays were in front of it before;
* `Fila.espera_corrida` — the same over a whole run, with the bound on the wait.
-/

import Mathlib.Data.List.Basic
import Mathlib.Data.List.Nodup
import Mathlib.Data.List.TakeWhile
import Mathlib.Tactic
import TpSisop.Transiciones

set_option relaxedAutoImplicit false
set_option autoImplicit false

namespace Fila

variable {α : Type*} [DecidableEq α] {x y : α} {xs ys zs : List α}

/-! ### A place in a queue -/

/-- Those in front of `x`. -/
def delante (x : α) (xs : List α) : List α := xs.takeWhile (· ≠ x)

theorem delante_append {a b : List α} (hx : x ∉ a) : delante x (a ++ x :: b) = a := by
  have hdistintos : ∀ y ∈ a, decide (y ≠ x) = true := by
    intro y hy
    refine decide_eq_true ?_
    rintro rfl
    exact hx hy
  rw [delante, List.takeWhile_append_of_pos hdistintos]
  simp

/-- A queue in which `x` waits is what is in front of it, `x`, and the rest. -/
theorem exists_detras (hx : x ∈ xs) : ∃ b, xs = delante x xs ++ x :: b ∧ x ∉ delante x xs := by
  induction xs with
  | nil => cases hx
  | cons y xs ih =>
      by_cases hy : y = x
      · subst hy
        exact ⟨xs, by simp [delante], by simp [delante]⟩
      · have hx' : x ∈ xs := by
          rcases List.mem_cons.1 hx with rfl | hx'
          · exact absurd rfl hy
          · exact hx'
        obtain ⟨b, hb, hno⟩ := ih hx'
        have hcabeza : delante x (y :: xs) = y :: delante x xs := by simp [delante, hy]
        refine ⟨b, ?_, ?_⟩
        · rw [hcabeza, List.cons_append, ← hb]
        · rw [hcabeza, List.mem_cons, not_or]
          exact ⟨Ne.symm hy, hno⟩

/-! ### A step -/

/-- Some of the queue leave, and those that come, who were not in it, go behind. -/
def Avanza (xs ys : List α) : Prop :=
  ∃ zs ws, zs.Sublist xs ∧ ys = zs ++ ws ∧ ∀ y ∈ ws, y ∉ xs

/-- The first of the queue leaves. -/
def Atiende (xs ys : List α) : Prop := ∃ y, xs.head? = some y ∧ y ∉ ys

instance : Decidable (Atiende xs ys) := decidable_of_iff (∃ y ∈ xs.head?, y ∉ ys) Iff.rfl

omit [DecidableEq α] in
theorem avanza_of_sublist (h : ys.Sublist xs) : Avanza xs ys :=
  ⟨ys, [], h, by simp, by simp⟩

omit [DecidableEq α] in
theorem avanza_of_eq (h : ys = xs) : Avanza xs ys := avanza_of_sublist (h ▸ List.Sublist.refl _)

omit [DecidableEq α] in
theorem Avanza.refl (xs : List α) : Avanza xs xs := avanza_of_sublist (List.Sublist.refl xs)

omit [DecidableEq α] in
theorem avanza_append {ws : List α} (h : ∀ y ∈ ws, y ∉ xs) : Avanza xs (xs ++ ws) :=
  ⟨xs, ws, List.Sublist.refl xs, rfl, h⟩

/-- Of two queues without repetitions, one inside the other. -/
theorem delante_sublist (hn : xs.Nodup) (h : ys.Sublist xs) (hx : x ∈ ys) :
    (delante x ys).Sublist (delante x xs) := by
  obtain ⟨b, hys, -⟩ := exists_detras hx
  obtain ⟨d, hxs, hno⟩ := exists_detras (h.subset hx)
  rw [hys] at h
  obtain ⟨r, t, hrt, hr, ht⟩ := List.append_sublist_iff.1 h
  have hxt : x ∈ t := ht.subset List.mem_cons_self
  have hxr : x ∉ r := by
    intro hxr
    rw [hrt] at hn
    exact (List.nodup_append.1 hn).2.2 x hxr x hxt rfl
  -- what precedes `x` in the larger queue starts with all that the others were taken from
  have hprefijo : r <+: delante x xs := by
    rcases List.append_eq_append_iff.1 (hrt.symm.trans hxs) with ⟨c, hc, -⟩ | ⟨c, hc, hd⟩
    · exact ⟨c, hc.symm⟩
    · cases c with
      | nil =>
          rw [List.append_nil] at hc
          exact ⟨[], by rw [List.append_nil, hc]⟩
      | cons y c =>
          rw [List.cons_append, List.cons.injEq] at hd
          refine absurd ?_ hxr
          rw [hc, hd.1]
          simp
  exact hr.trans hprefijo.sublist

/-- Those in front of one that stays were in front of it before. -/
theorem Avanza.delante (h : Avanza xs ys) (hn : xs.Nodup) (hx : x ∈ xs) (hy : x ∈ ys) :
    (delante x ys).Sublist (delante x xs) := by
  obtain ⟨zs, ws, hzs, rfl, hws⟩ := h
  have hxz : x ∈ zs := by
    rcases List.mem_append.1 hy with hxz | hxw
    · exact hxz
    · exact absurd hx (hws x hxw)
  have hmismos : Fila.delante x (zs ++ ws) = Fila.delante x zs := by
    obtain ⟨b, hb, hno⟩ := exists_detras hxz
    generalize Fila.delante x zs = a at hb hno ⊢
    rw [hb, List.append_assoc, List.cons_append, delante_append hno]
  rw [hmismos]
  exact delante_sublist hn hzs hxz

/-- When the first leaves, there is one less in front of the others. -/
theorem Avanza.atiende (h : Avanza xs ys) (hn : xs.Nodup) (hx : x ∈ xs) (hy : x ∈ ys)
    (ha : Atiende xs ys) : (Fila.delante x ys).length + 1 ≤ (Fila.delante x xs).length := by
  obtain ⟨p, hp, hno⟩ := ha
  have hsub := h.delante hn hx hy
  have hne : p ≠ x := by
    rintro rfl
    exact hno hy
  have hdelante : p ∈ Fila.delante x xs := by
    cases xs with
    | nil => cases hp
    | cons q xs =>
        cases hp
        simp [Fila.delante, hne]
  by_contra hlargo
  have higuales := hsub.eq_of_length (by have := hsub.length_le; omega)
  rw [← higuales] at hdelante
  exact hno ((List.takeWhile_sublist _).subset hdelante)

/-! ### Runs -/

section Corridas

variable {σ ε : Type*} {S : Transicion.Sistema σ ε} {I : σ → Prop} {f : σ → List α}
  (hp : ∀ s e s', I s → S.paso s e s' → I s' ∧ Avanza (f s) (f s'))
  (hn : ∀ s, I s → (f s).Nodup) {s s₀ : σ} (h₀ : I s₀)
include hp hn h₀

/-- As long as `x` stays in the queue, only those that were in front of it are, and the first leaves
at most as often as there were others in front. -/
theorem espera_corrida {es : List ε} {n : ℕ} {cuenta : σ → ε → σ → Prop}
    (hc : ∀ s e s', I s → x ∈ f s → S.paso s e s' → cuenta s e s' → Atiende (f s) (f s'))
    (h : Transicion.Corrida ((S.contando cuenta).desde (s₀, 0)) (fun s _ => x ∈ f s.1) es (s, n))
    (hx : x ∈ f s) :
    (delante x (f s)).Sublist (delante x (f s₀)) ∧
      n + (delante x (f s)).length ≤ (delante x (f s₀)).length := by
  generalize hfin : (s, n) = fin at h
  have hdentro : I fin.1 ∧ (x ∈ f fin.1 → (delante x (f fin.1)).Sublist (delante x (f s₀)) ∧
      fin.2 + (delante x (f fin.1)).length ≤ (delante x (f s₀)).length) := by
    clear hfin hx
    induction h with
    | inicio hs =>
        subst hs
        exact ⟨h₀, fun _ => ⟨List.Sublist.refl _, by simp⟩⟩
    | paso _ hx hpaso ih =>
        obtain ⟨hI, hle⟩ := ih
        obtain ⟨hpaso, hcuenta⟩ := hpaso
        obtain ⟨hI', hav⟩ := hp _ _ _ hI hpaso
        refine ⟨hI', fun hx' => ?_⟩
        obtain ⟨hsub, hantes⟩ := hle hx
        have hdelante := hav.delante (hn _ hI) hx hx'
        refine ⟨hdelante.trans hsub, ?_⟩
        rcases hcuenta with ⟨hsi, hmas⟩ | ⟨-, hmas⟩
        · have hmenos := hav.atiende (hn _ hI) hx hx' (hc _ _ _ hI hx hpaso hsi)
          omega
        · have hmenos := hdelante.length_le
          omega
  subst hfin
  exact hdentro.2 hx

end Corridas

end Fila
