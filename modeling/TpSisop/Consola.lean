/-
**The commands of the console.**

The console compares a line, typed or read from a script, with one command after another.  Those
that take something are read with `sscanf`: the text of the command, any blanks, also none at all,
and what it takes, whatever comes after it; of a path it reads 255 bytes.  Those that take nothing
have to be the whole line.  No command is the beginning of another one, so the order in which they
are tried does not matter.

Main definitions:

* `Consola.sscanf` — a text and one conversion;
* `Consola.Comando`, `Consola.leerComando` — what `procesar_comando` makes of a line;
* `Consola.Escrito` — the lines with which a command can be given.

Main results:

* `Consola.leerComando_eq_iff` — a line is read as a command exactly if it is one of its lines;
* `Consola.leerComando_tecleado` — a command is read as it was written.
-/

import TpSisop.Ensamblador

set_option relaxedAutoImplicit false
set_option autoImplicit false

namespace Consola

open LectorArchivo (Bytes)
open Ensamblador (aString bytes decimal literal literalSinSigno)

/-! ### Reading with a format -/

/-- `isspace`. -/
def esBlanco (b : UInt8) : Bool := b = 32 || (9 ≤ b && b ≤ 13)

/-- `isdigit`. -/
def esDigito (b : UInt8) : Bool := 48 ≤ b && b ≤ 57

/-- A format that is a text, a blank and a conversion. -/
def sscanf {α : Type} (texto : Bytes) (conversion : Bytes → Option α) (linea : Bytes) : Option α :=
  (texto.isPrefixOf? linea).bind fun resto => conversion (resto.dropWhile esBlanco)

/-- `%s`, with a width. -/
def palabra (n : ℕ) (bs : Bytes) : Option Bytes :=
  let s := (bs.takeWhile fun b => !esBlanco b).take n
  if s = [] then none else some s

/-- What follows a sign. -/
def sinSigno : Bytes → Bytes
  | b :: bs => if b = 45 ∨ b = 43 then bs else b :: bs
  | [] => []

/-- A number starts with a digit, or a sign and a digit. -/
def EsNumero (bs : Bytes) : Prop := ∃ b ∈ (sinSigno bs).head?, esDigito b = true

instance : DecidablePred EsNumero := fun _ => inferInstanceAs (Decidable (∃ b ∈ _, _ = true))

/-- `%u`. -/
def natural (bs : Bytes) : Option UInt32 :=
  if EsNumero bs then some (literalSinSigno (aString bs)) else none

/-- `%d`: `strtol`, cut to an `int`. -/
def entero (bs : Bytes) : Option ℤ :=
  if EsNumero bs then
    some ((max (-2 ^ 63) (min (2 ^ 63 - 1) (literal (aString bs)))).bmod (2 ^ 32))
  else none

/-! ### The commands -/

inductive Comando
  | ejecutarScript (path : Bytes)
  | iniciarProceso (path : Bytes)
  | finalizarProceso (pid : UInt32)
  | detenerPlanificacion
  | iniciarPlanificacion
  | multiprogramacion (valor : ℤ)
  | procesoEstado
  | noExiste
  deriving DecidableEq, Repr

/-- One of the comparisons of `procesar_comando`. -/
structure Prueba where
  texto : Bytes
  leer : Bytes → Option Comando

def Prueba.sscanf {α : Type} (texto : Bytes) (conversion : Bytes → Option α)
    (comando : α → Comando) : Prueba :=
  ⟨texto, fun linea => (Consola.sscanf texto conversion linea).map comando⟩

def Prueba.strcmp (texto : Bytes) (comando : Comando) : Prueba :=
  ⟨texto, fun linea => if linea = texto then some comando else none⟩

/-- The comparisons, in the order in which they are made. -/
def pruebas : List Prueba :=
  [.sscanf (bytes "EJECUTAR_SCRIPT") (palabra 255) .ejecutarScript,
    .sscanf (bytes "INICIAR_PROCESO") (palabra 255) .iniciarProceso,
    .sscanf (bytes "FINALIZAR_PROCESO") natural .finalizarProceso,
    .strcmp (bytes "DETENER_PLANIFICACION") .detenerPlanificacion,
    .strcmp (bytes "INICIAR_PLANIFICACION") .iniciarPlanificacion,
    .sscanf (bytes "MULTIPROGRAMACION") entero .multiprogramacion,
    .strcmp (bytes "PROCESO_ESTADO") .procesoEstado]

/-- The command that `procesar_comando` carries out: the first one that the line is read as. -/
def leerComando (linea : Bytes) : Comando :=
  (pruebas.findSome? fun p => p.leer linea).getD .noExiste

/-! ### The lines of a command -/

/-- A text, blanks, and what follows them. -/
def Sigue (texto cuerpo linea : Bytes) : Prop :=
  ∃ blancos, linea = texto ++ blancos ++ cuerpo ∧ (∀ b ∈ blancos, esBlanco b = true) ∧
    ∀ b ∈ cuerpo.head?, esBlanco b = false

/-- A text and a path, of which 255 bytes count. -/
def ConPath (texto path linea : Bytes) : Prop :=
  ∃ w cola, Sigue texto (w ++ cola) linea ∧ w ≠ [] ∧ (∀ b ∈ w, esBlanco b = false) ∧
    (∀ b ∈ cola.head?, esBlanco b = true) ∧ path = w.take 255

/-- The lines with which a command can be given. -/
def Escrito (linea : Bytes) : Comando → Prop
  | .ejecutarScript path => ConPath (bytes "EJECUTAR_SCRIPT") path linea
  | .iniciarProceso path => ConPath (bytes "INICIAR_PROCESO") path linea
  | .finalizarProceso pid => ∃ num, Sigue (bytes "FINALIZAR_PROCESO") num linea ∧
      EsNumero num ∧ pid = literalSinSigno (aString num)
  | .detenerPlanificacion => linea = bytes "DETENER_PLANIFICACION"
  | .iniciarPlanificacion => linea = bytes "INICIAR_PLANIFICACION"
  | .multiprogramacion valor => ∃ num, Sigue (bytes "MULTIPROGRAMACION") num linea ∧
      EsNumero num ∧
        valor = (max (-2 ^ 63) (min (2 ^ 63 - 1) (literal (aString num)))).bmod (2 ^ 32)
  | .procesoEstado => linea = bytes "PROCESO_ESTADO"
  | .noExiste => False

/-! ### Reading what was written -/

section

variable {α : Type} {texto cuerpo linea path : Bytes} {conversion : Bytes → Option α} {a : α}

theorem Sigue.dropWhile (h : Sigue texto cuerpo linea) :
    ∃ resto, linea = texto ++ resto ∧ resto.dropWhile esBlanco = cuerpo := by
  obtain ⟨blancos, rfl, hblancos, hcuerpo⟩ := h
  refine ⟨blancos ++ cuerpo, List.append_assoc _ _ _, ?_⟩
  rw [List.dropWhile_append_of_pos hblancos]
  cases cuerpo with
  | nil => rfl
  | cons b bs => exact List.dropWhile_cons_of_neg (by simp [hcuerpo b rfl])

/-- The conversion reads what comes after the blanks. -/
theorem sscanf_eq_some_iff :
    sscanf texto conversion linea = some a ↔
      ∃ cuerpo, Sigue texto cuerpo linea ∧ conversion cuerpo = some a := by
  constructor
  · intro h
    obtain ⟨resto, hresto, hlee⟩ := Option.bind_eq_some_iff.1 h
    refine ⟨_, ⟨resto.takeWhile esBlanco, ?_, ?_, ?_⟩, hlee⟩
    · rw [List.append_assoc, List.takeWhile_append_dropWhile]
      exact (List.append_eq_of_isPrefixOf?_eq_some hresto).symm
    · intro b hb
      exact List.mem_takeWhile_imp hb
    · intro b hb
      have hcabeza := List.head?_dropWhile_not esBlanco resto
      rw [hb] at hcabeza
      exact hcabeza
  · rintro ⟨cuerpo, hsigue, hlee⟩
    obtain ⟨resto, rfl, rfl⟩ := hsigue.dropWhile
    exact Option.bind_eq_some_iff.2 ⟨resto, List.isPrefixOf?_eq_some_iff_append_eq.2 rfl, hlee⟩

/-- The bytes up to the next blank, and of these the first ones. -/
theorem palabra_eq_some_iff {n : ℕ} (hn : 0 < n) :
    palabra n cuerpo = some path ↔ ∃ w cola, cuerpo = w ++ cola ∧ w ≠ [] ∧
      (∀ b ∈ w, esBlanco b = false) ∧ (∀ b ∈ cola.head?, esBlanco b = true) ∧
        path = w.take n := by
  constructor
  · intro h
    unfold palabra at h
    simp only at h
    split at h
    · cases h
    · rename_i hvacia
      cases h
      refine ⟨_, cuerpo.dropWhile fun b => !esBlanco b, List.takeWhile_append_dropWhile.symm, ?_,
        ?_, ?_, rfl⟩
      · intro hnada
        rw [hnada, List.take_nil] at hvacia
        exact hvacia rfl
      · intro b hb
        simpa using List.mem_takeWhile_imp hb
      · intro b hb
        have hcabeza := List.head?_dropWhile_not (fun b => !esBlanco b) cuerpo
        rw [hb] at hcabeza
        simpa using hcabeza
  · rintro ⟨w, cola, rfl, hw, hletras, hcola, rfl⟩
    have hpos : ∀ b ∈ w, (!esBlanco b) = true := by
      intro b hb
      rw [hletras b hb]
      rfl
    have hfin : cola.takeWhile (fun b => !esBlanco b) = [] := by
      cases cola with
      | nil => rfl
      | cons b bs => exact List.takeWhile_cons_of_neg (by simp [hcola b rfl])
    have hne : w.take n ≠ [] := by
      rw [Ne, List.take_eq_nil_iff, not_or]
      exact ⟨hn.ne', hw⟩
    rw [palabra, List.takeWhile_append_of_pos hpos, hfin, List.append_nil]
    simp only [if_neg hne]

theorem conPath_iff : sscanf texto (palabra 255) linea = some path ↔ ConPath texto path linea := by
  rw [sscanf_eq_some_iff]
  constructor
  · rintro ⟨cuerpo, hsigue, hlee⟩
    obtain ⟨w, cola, rfl, hw, hletras, hcola, hpath⟩ := (palabra_eq_some_iff (by decide)).1 hlee
    exact ⟨w, cola, hsigue, hw, hletras, hcola, hpath⟩
  · rintro ⟨w, cola, hsigue, hw, hletras, hcola, hpath⟩
    exact ⟨_, hsigue, (palabra_eq_some_iff (by decide)).2 ⟨w, cola, rfl, hw, hletras, hcola, hpath⟩⟩

end

/-! ### One command after another -/

variable {linea : Bytes} {c : Comando} {p q : Prueba}

theorem Prueba.sscanf_eq_some_iff {α : Type} {texto : Bytes} {conversion : Bytes → Option α}
    {comando : α → Comando} : (Prueba.sscanf texto conversion comando).leer linea = some c ↔
      ∃ a, (∃ cuerpo, Sigue texto cuerpo linea ∧ conversion cuerpo = some a) ∧ comando a = c := by
  refine Option.map_eq_some_iff.trans ?_
  simp only [Consola.sscanf_eq_some_iff]

theorem Prueba.strcmp_eq_some_iff {texto : Bytes} {comando : Comando} :
    (Prueba.strcmp texto comando).leer linea = some c ↔ linea = texto ∧ comando = c := by
  refine Option.ite_none_right_eq_some.trans ?_
  rw [Option.some.injEq]

/-- What a comparison accepts starts with the text of the command. -/
theorem prefijo (hp : p ∈ pruebas) (h : p.leer linea = some c) : p.texto <+: linea := by
  have hformato : ∀ {α : Type} {texto : Bytes} {conversion : Bytes → Option α}
      {comando : α → Comando}, (Prueba.sscanf texto conversion comando).leer linea = some c →
        texto <+: linea := by
    intro α texto conversion comando h
    obtain ⟨a, ⟨cuerpo, hsigue, -⟩, -⟩ := Prueba.sscanf_eq_some_iff.1 h
    obtain ⟨resto, rfl, -⟩ := hsigue.dropWhile
    exact List.prefix_append _ _
  have hentera : ∀ {texto : Bytes} {comando : Comando},
      (Prueba.strcmp texto comando).leer linea = some c → texto <+: linea := by
    intro texto comando h
    rw [(Prueba.strcmp_eq_some_iff.1 h).1]
  simp only [pruebas, List.mem_cons, List.not_mem_nil, or_false] at hp
  rcases hp with rfl | rfl | rfl | rfl | rfl | rfl | rfl
  · exact hformato h
  · exact hformato h
  · exact hformato h
  · exact hentera h
  · exact hentera h
  · exact hformato h
  · exact hentera h

/-- No command is the beginning of another one. -/
theorem incomparables : ∀ i j : Fin pruebas.length,
    pruebas[i].texto <+: pruebas[j].texto → i = j := by
  decide +kernel

/-- A line is accepted by one comparison. -/
theorem unica {c' : Comando} (hp : p ∈ pruebas) (hq : q ∈ pruebas) (h : p.leer linea = some c)
    (h' : q.leer linea = some c') : p = q := by
  obtain ⟨i, hi, rfl⟩ := List.mem_iff_getElem.1 hp
  obtain ⟨j, hj, rfl⟩ := List.mem_iff_getElem.1 hq
  -- of two prefixes of the line one is a prefix of the other
  have hmismo : i = j := by
    rcases List.prefix_or_prefix_of_prefix (prefijo hp h) (prefijo hq h') with hpre | hpre
    · exact congrArg Fin.val (incomparables ⟨i, hi⟩ ⟨j, hj⟩ hpre)
    · exact (congrArg Fin.val (incomparables ⟨j, hj⟩ ⟨i, hi⟩ hpre)).symm
  subst hmismo
  rfl

/-- In whatever order the comparisons are made, the one that accepts the line decides. -/
theorem findSome_eq_some_iff {orden : List Prueba} (ho : orden.Perm pruebas) :
    (orden.findSome? fun p => p.leer linea) = some c ↔ ∃ p ∈ pruebas, p.leer linea = some c := by
  constructor
  · intro h
    obtain ⟨p, hp, hlee⟩ := List.exists_of_findSome?_eq_some h
    exact ⟨p, ho.subset hp, hlee⟩
  · rintro ⟨p, hp, hlee⟩
    cases h : orden.findSome? fun p => p.leer linea with
    | none =>
        rw [List.findSome?_eq_none_iff.1 h p (ho.symm.subset hp)] at hlee
        cases hlee
    | some c' =>
        obtain ⟨q, hq, hlee'⟩ := List.exists_of_findSome?_eq_some h
        obtain rfl := unica hp (ho.subset hq) hlee hlee'
        exact hlee'.symm.trans hlee

theorem escrito_iff : Escrito linea c ↔ ∃ p ∈ pruebas, p.leer linea = some c := by
  constructor
  · intro h
    cases c with
    | ejecutarScript path =>
        exact ⟨_, List.mem_cons_self, Option.map_eq_some_iff.2 ⟨path, conPath_iff.2 h, rfl⟩⟩
    | iniciarProceso path =>
        refine ⟨.sscanf (bytes "INICIAR_PROCESO") (palabra 255) .iniciarProceso, ?_,
          Option.map_eq_some_iff.2 ⟨path, conPath_iff.2 h, rfl⟩⟩
        simp [pruebas]
    | finalizarProceso pid =>
        obtain ⟨num, hsigue, hnum, rfl⟩ := h
        refine ⟨.sscanf (bytes "FINALIZAR_PROCESO") natural .finalizarProceso, ?_,
          Prueba.sscanf_eq_some_iff.2 ⟨_, ⟨num, hsigue, if_pos hnum⟩, rfl⟩⟩
        simp [pruebas]
    | detenerPlanificacion =>
        refine ⟨.strcmp (bytes "DETENER_PLANIFICACION") .detenerPlanificacion, ?_, if_pos h⟩
        simp [pruebas]
    | iniciarPlanificacion =>
        refine ⟨.strcmp (bytes "INICIAR_PLANIFICACION") .iniciarPlanificacion, ?_, if_pos h⟩
        simp [pruebas]
    | multiprogramacion valor =>
        obtain ⟨num, hsigue, hnum, rfl⟩ := h
        refine ⟨.sscanf (bytes "MULTIPROGRAMACION") entero .multiprogramacion, ?_,
          Prueba.sscanf_eq_some_iff.2 ⟨_, ⟨num, hsigue, if_pos hnum⟩, rfl⟩⟩
        simp [pruebas]
    | procesoEstado =>
        refine ⟨.strcmp (bytes "PROCESO_ESTADO") .procesoEstado, ?_, if_pos h⟩
        simp [pruebas]
    | noExiste => exact h.elim
  · rintro ⟨p, hp, h⟩
    simp only [pruebas, List.mem_cons, List.not_mem_nil, or_false] at hp
    rcases hp with rfl | rfl | rfl | rfl | rfl | rfl | rfl
    · obtain ⟨path, hlee, rfl⟩ := Option.map_eq_some_iff.1 h
      exact conPath_iff.1 hlee
    · obtain ⟨path, hlee, rfl⟩ := Option.map_eq_some_iff.1 h
      exact conPath_iff.1 hlee
    · obtain ⟨pid, ⟨num, hsigue, hnum⟩, rfl⟩ := Prueba.sscanf_eq_some_iff.1 h
      obtain ⟨hes, hpid⟩ := Option.ite_none_right_eq_some.1 hnum
      exact ⟨num, hsigue, hes, (Option.some.inj hpid).symm⟩
    · obtain ⟨hlinea, rfl⟩ := Prueba.strcmp_eq_some_iff.1 h
      exact hlinea
    · obtain ⟨hlinea, rfl⟩ := Prueba.strcmp_eq_some_iff.1 h
      exact hlinea
    · obtain ⟨valor, ⟨num, hsigue, hnum⟩, rfl⟩ := Prueba.sscanf_eq_some_iff.1 h
      obtain ⟨hes, hvalor⟩ := Option.ite_none_right_eq_some.1 hnum
      exact ⟨num, hsigue, hes, (Option.some.inj hvalor).symm⟩
    · obtain ⟨hlinea, rfl⟩ := Prueba.strcmp_eq_some_iff.1 h
      exact hlinea

theorem leerComando_of_escrito (h : Escrito linea c) : leerComando linea = c := by
  rw [leerComando, (findSome_eq_some_iff (.refl _)).2 (escrito_iff.1 h)]
  rfl

/-- A line is read as a command exactly if it is one of the lines of that command, and it is taken
for one that does not exist exactly if it is a line of no command. -/
theorem leerComando_eq_iff (linea : Bytes) (c : Comando) :
    leerComando linea = c ↔
      Escrito linea c ∨ c = .noExiste ∧ ∀ c', ¬Escrito linea c' := by
  constructor
  · intro h
    cases hprueba : pruebas.findSome? fun p => p.leer linea with
    | none =>
        rw [leerComando, hprueba] at h
        refine .inr ⟨h.symm, ?_⟩
        intro c' hc'
        rw [(findSome_eq_some_iff (.refl _)).2 (escrito_iff.1 hc')] at hprueba
        cases hprueba
    | some c' =>
        rw [leerComando, hprueba] at h
        subst h
        exact .inl (escrito_iff.2 ((findSome_eq_some_iff (.refl _)).1 hprueba))
  · rintro (h | ⟨rfl, h⟩)
    · exact leerComando_of_escrito h
    · cases hprueba : pruebas.findSome? fun p => p.leer linea with
      | none => rw [leerComando, hprueba, Option.getD_none]
      | some c' =>
          exact absurd (escrito_iff.2 ((findSome_eq_some_iff (.refl _)).1 hprueba)) (h c')

/-! ### Writing a command -/

/-- The paths without blanks that are not too long, and the numbers of an `int`. -/
def Comando.Escribible : Comando → Prop
  | .ejecutarScript path | .iniciarProceso path =>
      path ≠ [] ∧ path.length ≤ 255 ∧ (∀ b ∈ path, esBlanco b = false) ∧ 0 ∉ path
  | .multiprogramacion valor => -2 ^ 31 ≤ valor ∧ valor < 2 ^ 31
  | .noExiste => False
  | _ => True

/-- The line that is typed for a command. -/
def Comando.tecleado : Comando → Bytes
  | .ejecutarScript path => bytes "EJECUTAR_SCRIPT" ++ [32] ++ path
  | .iniciarProceso path => bytes "INICIAR_PROCESO" ++ [32] ++ path
  | .finalizarProceso pid => bytes "FINALIZAR_PROCESO" ++ [32] ++ bytes (decimal pid.toNat)
  | .detenerPlanificacion => bytes "DETENER_PLANIFICACION"
  | .iniciarPlanificacion => bytes "INICIAR_PLANIFICACION"
  | .multiprogramacion valor => bytes "MULTIPROGRAMACION" ++ [32] ++ bytes (decimal valor)
  | .procesoEstado => bytes "PROCESO_ESTADO"
  | .noExiste => []

theorem sigue_blanco {texto cuerpo : Bytes} (h : ∀ b ∈ cuerpo.head?, esBlanco b = false) :
    Sigue texto cuerpo (texto ++ [32] ++ cuerpo) := by
  refine ⟨[32], rfl, ?_, h⟩
  intro b hb
  rw [List.mem_singleton.1 hb]
  decide

theorem conPath_blanco {texto path : Bytes} (hpath : path ≠ []) (hlargo : path.length ≤ 255)
    (hletras : ∀ b ∈ path, esBlanco b = false) : ConPath texto path (texto ++ [32] ++ path) := by
  refine ⟨path, [], ?_, hpath, hletras, by simp, (List.take_of_length_le hlargo).symm⟩
  rw [List.append_nil]
  exact sigue_blanco fun b hb => hletras b (List.mem_of_mem_head? hb)

/-- A number is written with a digit first, or a sign and a digit. -/
theorem exists_decimal (n : ℤ) : ∃ b bs, esDigito b = true ∧
    (bytes (decimal n) = b :: bs ∨ bytes (decimal n) = 45 :: b :: bs) := by
  have hdigitos : ∀ k : ℕ, ∃ b bs, esDigito b = true ∧
      (Nat.toDigits 10 k).map (fun c => UInt8.ofNat c.toNat) = b :: bs := by
    intro k
    obtain ⟨c, cs, hcs⟩ := List.exists_cons_of_ne_nil (Nat.toDigits_ne_nil (n := k) (b := 10))
    have hc : c.isDigit = true := by
      refine Nat.isDigit_of_mem_toDigits (b := 10) (n := k) (by decide) (by decide) ?_
      rw [hcs]
      exact List.mem_cons_self
    obtain ⟨hmin, hmax⟩ := Ensamblador.toNat_of_isDigit hc
    refine ⟨_, _, ?_, by rw [hcs, List.map_cons]⟩
    have hbyte : (UInt8.ofNat c.toNat).toNat = c.toNat := by
      rw [UInt8.toNat_ofNat', Nat.mod_eq_of_lt (by omega)]
    simp [esDigito, UInt8.le_iff_toNat_le, hbyte, hmin, hmax]
  cases n with
  | ofNat k =>
      obtain ⟨b, bs, hb, hbs⟩ := hdigitos k
      refine ⟨b, bs, hb, .inl ?_⟩
      rw [bytes, decimal, String.toList_ofList, hbs]
  | negSucc k =>
      obtain ⟨b, bs, hb, hbs⟩ := hdigitos (k + 1)
      refine ⟨b, bs, hb, .inr ?_⟩
      rw [bytes, decimal, String.toList_ofList, List.map_cons, hbs]
      rfl

/-- A digit is no sign and no blank. -/
theorem esDigito_distinto {b : UInt8} (h : esDigito b = true) :
    b ≠ 45 ∧ b ≠ 43 ∧ esBlanco b = false := by
  simp only [esDigito, Bool.and_eq_true, decide_eq_true_eq, UInt8.le_iff_toNat_le] at h
  obtain ⟨hmin, hmax⟩ := h
  have hvalores : (48 : UInt8).toNat = 48 ∧ (13 : UInt8).toNat = 13 := by decide
  refine ⟨?_, ?_, ?_⟩
  · rintro rfl
    exact absurd hmin (by decide)
  · rintro rfl
    exact absurd hmin (by decide)
  · have hblanco : b ≠ 32 := by
      rintro rfl
      exact absurd hmin (by decide)
    simp only [esBlanco, hblanco, decide_false, Bool.false_or, Bool.and_eq_false_iff,
      decide_eq_false_iff_not, UInt8.le_iff_toNat_le]
    omega

theorem esNumero_decimal (n : ℤ) : EsNumero (bytes (decimal n)) := by
  obtain ⟨b, bs, hb, h | h⟩ := exists_decimal n
  · obtain ⟨hmenos, hmas, -⟩ := esDigito_distinto hb
    rw [h, EsNumero, sinSigno, if_neg (not_or.2 ⟨hmenos, hmas⟩)]
    exact ⟨b, rfl, hb⟩
  · rw [h, EsNumero, sinSigno, if_pos (.inl rfl)]
    exact ⟨b, rfl, hb⟩

theorem sigue_decimal (texto : Bytes) (n : ℤ) :
    Sigue texto (bytes (decimal n)) (texto ++ [32] ++ bytes (decimal n)) := by
  refine sigue_blanco fun c hc => ?_
  obtain ⟨b, bs, hb, h | h⟩ := exists_decimal n
  · rw [h] at hc
    cases hc
    exact (esDigito_distinto hb).2.2
  · rw [h] at hc
    cases hc
    decide

theorem aString_decimal (n : ℤ) : aString (bytes (decimal n)) = decimal n := by
  refine Ensamblador.aString_bytes fun c hc => ?_
  have hletra := (Ensamblador.esPalabra_decimal n).2 c hc
  unfold Ensamblador.EsLetra at hletra
  omega

/-- A command is read as it was written. -/
theorem leerComando_tecleado (h : c.Escribible) : leerComando c.tecleado = c := by
  refine leerComando_of_escrito ?_
  cases c with
  | ejecutarScript path => exact conPath_blanco h.1 h.2.1 h.2.2.1
  | iniciarProceso path => exact conPath_blanco h.1 h.2.1 h.2.2.1
  | finalizarProceso pid =>
      refine ⟨_, sigue_decimal _ pid.toNat, esNumero_decimal _, ?_⟩
      rw [aString_decimal, Ensamblador.literalSinSigno_decimal]
  | multiprogramacion valor =>
      refine ⟨_, sigue_decimal _ valor, esNumero_decimal _, ?_⟩
      obtain ⟨hmin, hmax⟩ := h
      have hlong : max (-2 ^ 63) (min (2 ^ 63 - 1) valor) = valor := by omega
      rw [aString_decimal, Ensamblador.literal_decimal, hlong,
        Int.bmod_eq_of_le (by omega) (by omega)]
  | detenerPlanificacion => rfl
  | iniciarPlanificacion => rfl
  | procesoEstado => rfl
  | noExiste => exact h.elim

/-- A line that is typed has no newline and no NUL. -/
theorem notMem_tecleado (h : c.Escribible) {b : UInt8} (hb : b = 10 ∨ b = 0) : b ∉ c.tecleado := by
  have hmenor : b.toNat < 32 := by
    rcases hb with rfl | rfl
    · decide
    · decide
  have hdecimal : ∀ n : ℤ, b ∉ bytes (decimal n) := by
    intro n hmem
    obtain ⟨c, hc, rfl⟩ := List.mem_map.1 hmem
    have hletra := (Ensamblador.esPalabra_decimal n).2 c hc
    unfold Ensamblador.EsLetra at hletra
    rw [UInt8.toNat_ofNat', Nat.mod_eq_of_lt (by omega)] at hmenor
    omega
  have hpath : ∀ path : Bytes, (∀ b ∈ path, esBlanco b = false) → 0 ∉ path → b ∉ path := by
    intro path hletras hcero hmem
    rcases hb with rfl | rfl
    · exact absurd (hletras 10 hmem) (by decide)
    · exact hcero hmem
  have htexto : ∀ s ∈ ["EJECUTAR_SCRIPT", "INICIAR_PROCESO", "FINALIZAR_PROCESO",
      "DETENER_PLANIFICACION", "INICIAR_PLANIFICACION", "MULTIPROGRAMACION", "PROCESO_ESTADO"],
      b ∉ bytes s ++ [32] := by
    rcases hb with rfl | rfl
    · decide +kernel
    · decide +kernel
  have hsolo : ∀ s : String, b ∉ bytes s ++ [32] → b ∉ bytes s := fun s hs hmem =>
    hs (List.mem_append_left _ hmem)
  cases c with
  | ejecutarScript path =>
      rw [Comando.tecleado, List.mem_append, not_or]
      exact ⟨htexto _ (by simp), hpath path h.2.2.1 h.2.2.2⟩
  | iniciarProceso path =>
      rw [Comando.tecleado, List.mem_append, not_or]
      exact ⟨htexto _ (by simp), hpath path h.2.2.1 h.2.2.2⟩
  | finalizarProceso pid =>
      rw [Comando.tecleado, List.mem_append, not_or]
      exact ⟨htexto _ (by simp), hdecimal _⟩
  | multiprogramacion valor =>
      rw [Comando.tecleado, List.mem_append, not_or]
      exact ⟨htexto _ (by simp), hdecimal _⟩
  | detenerPlanificacion => exact hsolo _ (htexto _ (by simp))
  | iniciarPlanificacion => exact hsolo _ (htexto _ (by simp))
  | procesoEstado => exact hsolo _ (htexto _ (by simp))
  | noExiste => exact h.elim

theorem tecleado_ne_nil (h : c.Escribible) : c.tecleado ≠ [] := by
  intro hnada
  have hlee := leerComando_tecleado h
  rw [hnada] at hlee
  have hvacia : leerComando [] = .noExiste := by decide +kernel
  rw [hvacia] at hlee
  subst hlee
  exact h

end Consola
