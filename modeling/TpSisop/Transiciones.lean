/-
**Labelled transition systems: conditional reachability, invariants, simulations.**

Every component of the development is a state machine driven by events, and every result about it
is a statement about the states its runs reach.  This module supplies the vocabulary once.  A run
may be restricted by a condition on its steps (a state and the event about to be handled), because
several results hold exactly of the runs that avoid one kind of step.

Main definitions:

* `Transicion.Sistema` — a labelled transition system: initial states and a step relation;
* `Transicion.AlcanzableCon` — the states reached by runs whose steps all meet a condition, and
  `Transicion.Alcanzable`, the unconditional case;
* `Transicion.Sistema.desde`, `Transicion.Sistema.contando` — the system from a given state on, and
  with a count of its steps of one kind;
* `Transicion.Corrida` — the same with the list of events of the run;
* `Transicion.Simulacion` — a forward simulation between two systems over the same events, and
  `Transicion.SimulacionDebil`, in which a step is matched by a run, and
  `Transicion.SimulacionVisible`, in which some events are not seen;
* `Transicion.ejecutar`, `Transicion.estadoTras` — running a partial step function over a list of
  events, and the state in which that ends.

Main results:

* `Transicion.AlcanzableCon.invariante` — the invariant rule;
* `Transicion.Simulacion.corrida` — a simulated run is matched by an abstract run over the same
  events;
* `Transicion.corrida_of_ejecutar` — an executed list of events is a run;
* `Transicion.ejecutar_medida`, `Transicion.exists_ejecutar_fin` — where every step lowers a
  measure, an execution is as short as the measure says, and can be taken to its end.
-/

import Mathlib.Data.Nat.Notation
import Mathlib.Logic.Basic
import Mathlib.Tactic.Push

set_option relaxedAutoImplicit false
set_option autoImplicit false

namespace Transicion

/-- A labelled transition system: its initial states and its steps, each labelled by an event. -/
structure Sistema (σ ε : Type*) where
  inicial : σ → Prop
  paso : σ → ε → σ → Prop

variable {σ ε α : Type*}

/-! ### Reachability -/

/-- The states reached by the runs of `S` whose steps all meet `C`. -/
inductive AlcanzableCon (S : Sistema σ ε) (C : σ → ε → Prop) : σ → Prop
  | inicio {s : σ} : S.inicial s → AlcanzableCon S C s
  | paso {s s' : σ} {e : ε} :
      AlcanzableCon S C s → C s e → S.paso s e s' → AlcanzableCon S C s'

/-- The states reached by the runs of `S`. -/
def Alcanzable (S : Sistema σ ε) : σ → Prop := AlcanzableCon S fun _ _ => True

/-- The invariant rule: what holds initially and is preserved by every step that meets the
condition holds of every state reached. -/
theorem AlcanzableCon.invariante {S : Sistema σ ε} {C : σ → ε → Prop} {I : σ → Prop}
    (h₀ : ∀ s, S.inicial s → I s)
    (hp : ∀ s e s', I s → C s e → S.paso s e s' → I s')
    {s : σ} (h : AlcanzableCon S C s) : I s := by
  induction h with
  | inicio hs => exact h₀ _ hs
  | paso _ hC hs ih => exact hp _ _ _ ih hC hs

/-- A weaker condition on the steps reaches at least as many states. -/
theorem AlcanzableCon.mono {S : Sistema σ ε} {C C' : σ → ε → Prop}
    (h : ∀ s e, C s e → C' s e) {s : σ} (hs : AlcanzableCon S C s) : AlcanzableCon S C' s := by
  induction hs with
  | inicio hs => exact .inicio hs
  | paso _ hC hs ih => exact .paso ih (h _ _ hC) hs

theorem AlcanzableCon.alcanzable {S : Sistema σ ε} {C : σ → ε → Prop} {s : σ}
    (h : AlcanzableCon S C s) : Alcanzable S s :=
  h.mono fun _ _ _ => trivial

/-- The same steps from a given state on. -/
def Sistema.desde (S : Sistema σ ε) (s₀ : σ) : Sistema σ ε where
  inicial s := s = s₀
  paso := S.paso

/-- A run goes on from the state in which it ends. -/
theorem AlcanzableCon.seguir {S : Sistema σ ε} {C : σ → ε → Prop} {s s' : σ}
    (h : AlcanzableCon S C s) (h' : AlcanzableCon (S.desde s) C s') : AlcanzableCon S C s' := by
  induction h' with
  | inicio hs => exact hs ▸ h
  | paso _ hC hs ih => exact .paso ih hC hs

/-- The same system with a count of its steps of one kind. -/
def Sistema.contando (S : Sistema σ ε) (cuenta : σ → ε → σ → Prop) : Sistema (σ × ℕ) ε where
  inicial s := S.inicial s.1 ∧ s.2 = 0
  paso s e s' := S.paso s.1 e s'.1 ∧
    (cuenta s.1 e s'.1 ∧ s'.2 = s.2 + 1 ∨ ¬cuenta s.1 e s'.1 ∧ s'.2 = s.2)

/-! ### Runs and simulations -/

/-- `Corrida S C es s`: a run of `S` over the events `es`, each step meeting `C`, ends in `s`. -/
inductive Corrida (S : Sistema σ ε) (C : σ → ε → Prop) : List ε → σ → Prop
  | inicio {s : σ} : S.inicial s → Corrida S C [] s
  | paso {es : List ε} {s s' : σ} {e : ε} :
      Corrida S C es s → C s e → S.paso s e s' → Corrida S C (es ++ [e]) s'

theorem Corrida.alcanzableCon {S : Sistema σ ε} {C : σ → ε → Prop} {es : List ε} {s : σ}
    (h : Corrida S C es s) : AlcanzableCon S C s := by
  induction h with
  | inicio hs => exact .inicio hs
  | paso _ hC hs ih => exact .paso ih hC hs

/-- A run whose events all meet `D` is one whose steps do. -/
theorem Corrida.conEventos {S : Sistema σ ε} {C : σ → ε → Prop} {D : ε → Prop} {es : List ε}
    {s : σ} (h : Corrida S C es s) (hD : ∀ e ∈ es, D e) :
    Corrida S (fun s e => D e ∧ C s e) es s := by
  induction h with
  | inicio hs => exact .inicio hs
  | @paso es s s' e _ hC hs ih =>
      have hes := ih fun e' he' => hD e' (List.mem_append_left _ he')
      exact hes.paso ⟨hD e (List.mem_append_right _ (List.mem_singleton_self e)), hC⟩ hs

/-- A forward simulation of `S` by `A` over the same events: `R` relates the initial states, and
every step of `S` from related states is matched by a step of `A` under the same event. -/
structure Simulacion (S : Sistema σ ε) (C : σ → ε → Prop) (A : Sistema α ε)
    (R : σ → α → Prop) : Prop where
  inicial : ∀ s, S.inicial s → ∃ a, A.inicial a ∧ R s a
  paso : ∀ s a e s', R s a → C s e → S.paso s e s' → ∃ a', A.paso a e a' ∧ R s' a'

/-- A simulated run is matched by an abstract run over the same events. -/
theorem Simulacion.corrida {S : Sistema σ ε} {C : σ → ε → Prop} {A : Sistema α ε}
    {R : σ → α → Prop} (hR : Simulacion S C A R) {es : List ε} {s : σ}
    (h : Corrida S C es s) : ∃ a, Corrida A (fun _ _ => True) es a ∧ R s a := by
  induction h with
  | inicio hs =>
      obtain ⟨a, ha, hr⟩ := hR.inicial _ hs
      exact ⟨a, .inicio ha, hr⟩
  | paso _ hC hs ih =>
      obtain ⟨a, ha, hr⟩ := ih
      obtain ⟨a', hpaso, hr'⟩ := hR.paso _ _ _ _ hr hC hs
      exact ⟨a', .paso ha trivial hpaso, hr'⟩

/-- A simulation in which every step of `S`, from a state that it reaches, is matched by a run of
`A`, over events of its own. -/
structure SimulacionDebil {β : Type*} (S : Sistema σ ε) (A : Sistema α β) (R : σ → α → Prop) :
    Prop where
  inicial : ∀ s, S.inicial s → ∃ a, A.inicial a ∧ R s a
  paso : ∀ s a e s', Alcanzable S s → R s a → S.paso s e s' →
    ∃ a', Alcanzable (A.desde a) a' ∧ R s' a'

/-- What `S` reaches is matched by something that `A` reaches. -/
theorem SimulacionDebil.alcanzable {β : Type*} {S : Sistema σ ε} {A : Sistema α β}
    {R : σ → α → Prop} (hR : SimulacionDebil S A R) {s : σ} (h : Alcanzable S s) :
    ∃ a, Alcanzable A a ∧ R s a := by
  induction h with
  | inicio hs =>
      obtain ⟨a, ha, hr⟩ := hR.inicial _ hs
      exact ⟨a, .inicio ha, hr⟩
  | paso hs _ hp ih =>
      obtain ⟨a, ha, hr⟩ := ih
      obtain ⟨a', ha', hr'⟩ := hR.paso _ _ _ _ hs hr hp
      exact ⟨a', ha.seguir ha', hr'⟩

/-- A simulation in which some of the events of `S` are seen, under another name, and `A` takes a
step for each of these alone. -/
structure SimulacionVisible {β : Type*} (S : Sistema σ ε) (C : σ → ε → Prop)
    (visible : ε → Option β) (A : Sistema α β) (R : σ → α → Prop) : Prop where
  inicial : ∀ s, S.inicial s → ∃ a, A.inicial a ∧ R s a
  oculto : ∀ s a e s', R s a → C s e → S.paso s e s' → visible e = none → R s' a
  paso : ∀ s a e s' b, R s a → C s e → S.paso s e s' → visible e = some b →
    ∃ a', A.paso a b a' ∧ R s' a'

/-- What is seen of a run is an abstract run. -/
theorem SimulacionVisible.corrida {β : Type*} {S : Sistema σ ε} {C : σ → ε → Prop}
    {visible : ε → Option β} {A : Sistema α β} {R : σ → α → Prop}
    (hR : SimulacionVisible S C visible A R) {es : List ε} {s : σ} (h : Corrida S C es s) :
    ∃ a, Corrida A (fun _ _ => True) (es.filterMap visible) a ∧ R s a := by
  induction h with
  | inicio hs =>
      obtain ⟨a, ha, hr⟩ := hR.inicial _ hs
      exact ⟨a, .inicio ha, hr⟩
  | paso _ hC hs ih =>
      rename_i e _
      obtain ⟨a, ha, hr⟩ := ih
      rw [List.filterMap_append]
      cases he : visible e with
      | none =>
          refine ⟨a, ?_, hR.oculto _ _ _ _ hr hC hs he⟩
          simpa [he] using ha
      | some b =>
          obtain ⟨a', hpaso, hr'⟩ := hR.paso _ _ _ _ _ hr hC hs he
          refine ⟨a', ?_, hr'⟩
          simpa [he] using ha.paso trivial hpaso

/-! ### Executing a list of events -/

/-- Runs a partial step function over a list of events. -/
def ejecutar (f : σ → ε → Option σ) : σ → List ε → Option σ
  | s, [] => some s
  | s, e :: es => (f s e).bind fun s' => ejecutar f s' es

/-- An executed list of events continues a run, as long as the step function only takes steps of
the system that meet the condition. -/
theorem corrida_of_ejecutar {S : Sistema σ ε} {C : σ → ε → Prop} {f : σ → ε → Option σ}
    (hf : ∀ s e s', f s e = some s' → C s e ∧ S.paso s e s') :
    ∀ {es es' : List ε} {s s' : σ}, Corrida S C es s → ejecutar f s es' = some s' →
      Corrida S C (es ++ es') s' := by
  intro es es'
  induction es' generalizing es with
  | nil =>
      intro s s' hs h
      obtain rfl : s = s' := by simpa [ejecutar] using h
      simpa using hs
  | cons e es' ih =>
      intro s s' hs h
      obtain ⟨s₁, h₁, h₂⟩ := Option.bind_eq_some_iff.1 h
      obtain ⟨hC, hp⟩ := hf s e s₁ h₁
      simpa using ih (.paso hs hC hp) h₂

/-- The state in which an executed list of events ends. -/
def estadoTras (f : σ → ε → Option σ) (s : σ) (es : List ε)
    (h : (ejecutar f s es).isSome = true) : σ :=
  (ejecutar f s es).get h

/-- An executed list of events is a run to the state in which it ends. -/
theorem corrida_estadoTras {S : Sistema σ ε} {C : σ → ε → Prop} {f : σ → ε → Option σ}
    (hf : ∀ s e s', f s e = some s' → C s e ∧ S.paso s e s') {s : σ} (hs : S.inicial s)
    {es : List ε} (h : (ejecutar f s es).isSome = true) : Corrida S C es (estadoTras f s es h) :=
  corrida_of_ejecutar hf (.inicio hs) (Option.some_get h).symm

/-- The state in which an executed list of events ends is reachable. -/
theorem alcanzableCon_estadoTras {S : Sistema σ ε} {C : σ → ε → Prop} {f : σ → ε → Option σ}
    (hf : ∀ s e s', f s e = some s' → C s e ∧ S.paso s e s') {s : σ} (hs : S.inicial s)
    {es : List ε} (h : (ejecutar f s es).isSome = true) :
    AlcanzableCon S C (estadoTras f s es h) :=
  (corrida_estadoTras hf hs h).alcanzableCon

/-- A step, counted if it is one of those that count. -/
def contar (f : σ → ε → Option σ) (cuenta : σ → ε → σ → Prop)
    [∀ s e s', Decidable (cuenta s e s')] (s : σ × ℕ) (e : ε) : Option (σ × ℕ) :=
  (f s.1 e).map fun s' => (s', if cuenta s.1 e s' then s.2 + 1 else s.2)

theorem paso_of_contar {S : Sistema σ ε} {f : σ → ε → Option σ} {cuenta : σ → ε → σ → Prop}
    [∀ s e s', Decidable (cuenta s e s')] (hf : ∀ s e s', f s e = some s' → S.paso s e s')
    {s s' : σ × ℕ} {e : ε} (h : contar f cuenta s e = some s') :
    (S.contando cuenta).paso s e s' := by
  obtain ⟨s₁, hs₁, rfl⟩ := Option.map_eq_some_iff.1 h
  refine ⟨hf _ _ _ hs₁, ?_⟩
  by_cases hc : cuenta s.1 e s₁
  · exact .inl ⟨hc, if_pos hc⟩
  · exact .inr ⟨hc, if_neg hc⟩

/-! ### Executions that end -/

section

variable {f : σ → ε → Option σ} {P : ε → Prop} {I : σ → Prop} {medida : σ → ℕ}
  (hp : ∀ s e s', I s → P e → f s e = some s' → I s' ∧ medida s' < medida s)

include hp

/-- An execution keeps what its steps keep, and takes no more steps than the measure allows. -/
theorem ejecutar_medida {es : List ε} (hes : ∀ e ∈ es, P e) {s s' : σ} (hs : I s)
    (h : ejecutar f s es = some s') : I s' ∧ es.length + medida s' ≤ medida s := by
  induction es generalizing s with
  | nil =>
      obtain rfl : s = s' := by simpa [ejecutar] using h
      exact ⟨hs, by simp⟩
  | cons e es ih =>
      obtain ⟨s₁, h₁, h₂⟩ := Option.bind_eq_some_iff.1 h
      obtain ⟨hs₁, hlt⟩ := hp s e s₁ hs (hes e (by simp)) h₁
      obtain ⟨hs', hle⟩ := ih (fun e he => hes e (by simp [he])) hs₁ h₂
      refine ⟨hs', ?_⟩
      rw [List.length_cons]
      omega

/-- An execution can be taken to a state that has no step left. -/
theorem exists_ejecutar_fin {s : σ} (hs : I s) :
    ∃ es s', (∀ e ∈ es, P e) ∧ ejecutar f s es = some s' ∧ I s' ∧ ∀ e, P e → f s' e = none := by
  induction hm : medida s using Nat.strongRecOn generalizing s with
  | ind m ih =>
      by_cases hfin : ∀ e, P e → f s e = none
      · exact ⟨[], s, by simp, rfl, hs, hfin⟩
      · push Not at hfin
        obtain ⟨e, he, hne⟩ := hfin
        obtain ⟨s₁, h₁⟩ := Option.ne_none_iff_exists'.1 hne
        obtain ⟨hs₁, hlt⟩ := hp s e s₁ hs he h₁
        obtain ⟨es, s', hes, h₂, hs', hfin⟩ := ih _ (hm ▸ hlt) hs₁ rfl
        refine ⟨e :: es, s', ?_, by simp [ejecutar, h₁, h₂], hs', hfin⟩
        intro e' he'
        rcases List.mem_cons.1 he' with rfl | he'
        · exact he
        · exact hes e' he'

end

end Transicion
