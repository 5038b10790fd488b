/-
**Scripts that execute scripts.**

A list of lines is executed one by one.  A line may open to other lines, which are executed before
those that come after it, and so on; what it opens to may depend on a state that the lines change.
There are two ways to say so: as a recursion, line by line, and as a machine with the lines that are
left, which replaces the first one by those it opens to.  They execute the same lines in the same
order.  Where the lines leave the state as it is, the execution ends exactly when no line opens to
itself through others, forever.

Main definitions:

* `Guion.Acaba` — the recursion: the lines that are executed, and the state at the end;
* `Guion.sistema` — the machine.

Main results:

* `Guion.corrida_iff_acaba` — they agree;
* `Guion.exists_acaba_iff_acc` — when the execution ends.
-/

import TpSisop.Transiciones

set_option relaxedAutoImplicit false
set_option autoImplicit false

namespace Guion

variable {σ α : Type*}

/-! ### The recursion -/

/-- Executing `xs` from `s` executes `vs` in all, and ends in `s'`. -/
inductive Acaba (abre : σ → α → Option (σ × List α)) : σ → List α → List α → σ → Prop
  | nil (s : σ) : Acaba abre s [] [] s
  | cons {s s₁ s₂ s' : σ} {x : α} {xs ys vs ws : List α} (h : abre s x = some (s₁, ys))
      (hdentro : Acaba abre s₁ ys vs s₂) (hresto : Acaba abre s₂ xs ws s') :
      Acaba abre s (x :: xs) (x :: (vs ++ ws)) s'

variable {abre : σ → α → Option (σ × List α)} {s s' s₁ : σ} {x : α} {xs ys vs ws : List α}

theorem Acaba.append (h : Acaba abre s xs vs s₁) (h' : Acaba abre s₁ ys ws s') :
    Acaba abre s (xs ++ ys) (vs ++ ws) s' := by
  induction h with
  | nil s => exact h'
  | @cons s s₁ s₂ s₃ x xs zs vs ts hx hdentro _ _ ih =>
      rw [List.cons_append, List.cons_append, List.append_assoc]
      exact .cons hx hdentro (ih h')

/-- The lines of a list that is the end of another one are executed last. -/
theorem exists_of_append (h : Acaba abre s (xs ++ ys) vs s') :
    ∃ s₁ vs₁ vs₂, vs = vs₁ ++ vs₂ ∧ Acaba abre s xs vs₁ s₁ ∧ Acaba abre s₁ ys vs₂ s' := by
  induction xs generalizing s vs with
  | nil => exact ⟨s, [], vs, rfl, .nil s, h⟩
  | cons x xs ih =>
      cases h with
      | cons hx hdentro hresto =>
          obtain ⟨s₁, vs₁, vs₂, rfl, hxs, hys⟩ := ih hresto
          refine ⟨s₁, _, vs₂, ?_, .cons hx hdentro hxs, hys⟩
          rw [List.cons_append, List.append_assoc]

/-- The lines a line opens to come before the rest. -/
theorem acaba_cons_iff (hx : abre s x = some (s₁, ys)) :
    Acaba abre s (x :: xs) (x :: vs) s' ↔ Acaba abre s₁ (ys ++ xs) vs s' := by
  constructor
  · intro h
    cases h with
    | cons hx' hdentro hresto =>
        cases hx.symm.trans hx'
        exact hdentro.append hresto
  · intro h
    obtain ⟨s₂, vs₁, vs₂, rfl, hdentro, hresto⟩ := exists_of_append h
    exact .cons hx hdentro hresto

/-- There is one way to execute the lines. -/
theorem Acaba.unica {s'' : σ} (h : Acaba abre s xs vs s') (h' : Acaba abre s xs ws s'') :
    vs = ws ∧ s' = s'' := by
  induction h generalizing ws s'' with
  | nil s =>
      cases h'
      exact ⟨rfl, rfl⟩
  | cons hx _ _ ihdentro ihresto =>
      cases h' with
      | cons hx' hdentro' hresto' =>
          cases hx.symm.trans hx'
          obtain ⟨rfl, rfl⟩ := ihdentro hdentro'
          obtain ⟨rfl, rfl⟩ := ihresto hresto'
          exact ⟨rfl, rfl⟩

/-! ### The machine -/

/-- The first line is replaced by those it opens to. -/
def sistema (abre : σ → α → Option (σ × List α)) : Transicion.Sistema (σ × List α) α where
  inicial _ := True
  paso c x c' := ∃ xs ys, c.2 = x :: xs ∧ abre c.1 x = some (c'.1, ys) ∧ c'.2 = ys ++ xs

/-- A run of the machine from some lines on. -/
abbrev Corre (abre : σ → α → Option (σ × List α)) (s : σ) (xs vs : List α) (c : σ × List α) :
    Prop :=
  Transicion.Corrida ((sistema abre).desde (s, xs)) (fun _ _ => True) vs c

/-- More lines at the end do not change what the machine does with the first ones. -/
theorem Corre.append {c : σ × List α} (h : Corre abre s xs vs c) (zs : List α) :
    Corre abre s (xs ++ zs) vs (c.1, c.2 ++ zs) := by
  induction h with
  | inicio hs =>
      subst hs
      exact .inicio rfl
  | paso _ _ hp ih =>
      refine ih.paso trivial ?_
      obtain ⟨us, ys, hc, hx, hc'⟩ := hp
      refine ⟨us ++ zs, ys, ?_, hx, ?_⟩
      · rw [hc, List.cons_append]
      · rw [hc', List.append_assoc]

theorem Acaba.corre {cola : List α} {s₀ : σ} {xs₀ us : List α} (h : Acaba abre s xs vs s')
    (hc : Corre abre s₀ xs₀ us (s, xs ++ cola)) : Corre abre s₀ xs₀ (us ++ vs) (s', cola) := by
  induction h generalizing us cola with
  | nil s => simpa using hc
  | @cons s s₁ s₂ s₃ x xs ys vs ws hx _ _ ihdentro ihresto =>
      have habre : Corre abre s₀ xs₀ (us ++ [x]) (s₁, ys ++ (xs ++ cola)) :=
        hc.paso trivial ⟨xs ++ cola, ys, rfl, hx, rfl⟩
      have hdentro := ihresto (ihdentro habre)
      simpa using hdentro

theorem Corre.acaba {c : σ × List α} (h : Corre abre s xs vs c) (hc : Acaba abre c.1 c.2 ws s') :
    Acaba abre s xs (vs ++ ws) s' := by
  induction h generalizing ws with
  | inicio hs =>
      subst hs
      exact hc
  | @paso vs c c' x _ _ hp ih =>
      obtain ⟨us, ys, hxs, hx, hc'⟩ := hp
      rw [hc'] at hc
      have hantes : Acaba abre c.1 c.2 (x :: ws) s' := by
        rw [hxs]
        exact (acaba_cons_iff hx).2 hc
      simpa using ih hantes

/-- The machine comes to the end of the lines exactly when the recursion does, with the same lines
executed in the same order. -/
theorem corrida_iff_acaba : Corre abre s xs vs (s', []) ↔ Acaba abre s xs vs s' := by
  constructor
  · intro h
    simpa using h.acaba (.nil s')
  · intro h
    have hinicio : Corre abre s xs [] (s, xs ++ []) := by
      rw [List.append_nil]
      exact .inicio rfl
    exact h.corre hinicio

/-! ### Executions that end -/

section Fija

variable {I : α → Prop} {R : α → α → Prop}
  (hR : ∀ x, I x → ∃ ys, abre s x = some (s, ys) ∧ ∀ y, R y x ↔ y ∈ ys)
  (hI : ∀ x y, I x → R y x → I y)
include hR hI

theorem Acaba.acc (h : Acaba abre s₁ xs vs s') (h₁ : s₁ = s) (hxs : ∀ x ∈ xs, I x) :
    s' = s ∧ ∀ x ∈ xs, Acc R x := by
  induction h with
  | nil t =>
      refine ⟨h₁, ?_⟩
      intro x hx
      cases hx
  | @cons t t₁ t₂ t₃ x xs ys vs ws hx hdentro hresto ihdentro ihresto =>
      subst h₁
      -- what `x` opens to was executed inside, so it is accessible
      have hIx := hxs x List.mem_cons_self
      obtain ⟨zs, hzs, hRzs⟩ := hR x hIx
      cases hx.symm.trans hzs
      obtain ⟨hfin, hys⟩ := ihdentro rfl fun y hy => hI x y hIx ((hRzs y).2 hy)
      obtain ⟨hfin', hresto⟩ := ihresto hfin fun y hy => hxs y (List.mem_cons_of_mem _ hy)
      refine ⟨hfin', ?_⟩
      intro y hy
      rcases List.mem_cons.1 hy with rfl | hy
      · exact Acc.intro _ fun z hz => hys z ((hRzs z).1 hz)
      · exact hresto y hy

theorem exists_acaba_of_acc (h : Acc R x) (hx : I x) : ∃ vs, Acaba abre s [x] vs s := by
  induction h with
  | intro x _ ih =>
      obtain ⟨ys, hys, hRys⟩ := hR x hx
      -- each line that `x` opens to leaves the state as it is, so they can be executed in a row
      have hlista : ∀ zs : List α, (∀ z ∈ zs, z ∈ ys) → ∃ vs, Acaba abre s zs vs s := by
        intro zs hzs
        induction zs with
        | nil => exact ⟨[], .nil s⟩
        | cons z zs ihzs =>
            have hz := (hRys z).2 (hzs z List.mem_cons_self)
            obtain ⟨vs, hvs⟩ := ih z hz (hI x z hx hz)
            obtain ⟨ws, hws⟩ := ihzs fun w hw => hzs w (List.mem_cons_of_mem _ hw)
            exact ⟨vs ++ ws, hvs.append hws⟩
      obtain ⟨vs, hvs⟩ := hlista ys fun z hz => hz
      exact ⟨_, .cons hys hvs (.nil s)⟩

/-- Where the lines leave the state as it is, the execution of one ends exactly when there is no
chain without end of lines that open to the next one. -/
theorem exists_acaba_iff_acc (hx : I x) :
    (∃ vs s', Acaba abre s [x] vs s') ↔ Acc R x := by
  constructor
  · rintro ⟨vs, s', h⟩
    refine (h.acc hR hI rfl ?_).2 x List.mem_cons_self
    intro y hy
    rw [List.mem_singleton.1 hy]
    exact hx
  · intro h
    obtain ⟨vs, hvs⟩ := exists_acaba_of_acc hR hI h hx
    exact ⟨vs, s, hvs⟩

end Fija

end Guion
