/-
**Messages over streams of bytes.**

A message travels as its code, the size of its payload and the payload.  The bytes of a stream
arrive in pieces that have nothing to do with the messages: a party takes a turn when the bytes that
it asks for are there, and otherwise waits for more.  A server holds a connection with each of its
clients, two streams each, and has a thread for each of them.  The threads share the state of the
server, and nothing keeps two of them from serving at the same time: what that leaves is not known,
so that the results are about the runs in which it does not happen.

Main definitions:

* `Trama.tramar`, `Trama.recibir` — a message as bytes, and bytes that are there or not;
* `Trama.Trato`, `Trama.turno` — what a party does with each code, and one turn of it;
* `Trama.Protocolo` — a server of requests, the clients that read its answers, and what they
  understand;
* `Trama.Red`, `Trama.sistema` — all of them, the bytes in flight and the threads that are serving;
* `Trama.Evento.EnSerie` — no request is taken up while another one is served;
* `Trama.atenderTodas` — requests that are served one after another.

Main results:

* `Trama.turno_append` — a turn does not depend on what arrives later;
* `Trama.turno_tramar` — a whole message is taken as such;
* `Trama.linealizable` — one at a time, and however the bytes are cut and delivered, the requests
  are served as whole ones, those of a connection in their order, and each client gets its own
  answers in order.
-/

import TpSisop.Codificacion
import TpSisop.Transiciones

set_option relaxedAutoImplicit false
set_option autoImplicit false

namespace Trama

open Codificacion (littleEndian valor)

variable {ι σ π ρ α : Type*}

/-! ### Bytes that are there -/

/-- The first `n` bytes and the others, if they have arrived. -/
def recibir (n : ℕ) (bs : List UInt8) : Option (List UInt8 × List UInt8) :=
  if n ≤ bs.length then some (bs.take n, bs.drop n) else none

/-- A message: its code and the size of its payload, in four bytes each, and the payload. -/
def tramar (codigo : ℕ) (carga : List UInt8) : List UInt8 :=
  littleEndian 4 codigo ++ (littleEndian 4 carga.length ++ carga)

section Recibir

variable {n : ℕ} {bs x resto : List UInt8}

theorem recibir_length (bs resto : List UInt8) :
    recibir bs.length (bs ++ resto) = some (bs, resto) := by
  rw [recibir, if_pos (by rw [List.length_append]; omega), List.take_left, List.drop_left]

/-- Bytes that arrive later come behind. -/
theorem recibir_append (h : recibir n bs = some (x, resto)) (cs : List UInt8) :
    recibir n (bs ++ cs) = some (x, resto ++ cs) := by
  unfold recibir at h ⊢
  by_cases hn : n ≤ bs.length
  · rw [if_pos hn, Option.some.injEq, Prod.mk.injEq] at h
    rw [if_pos (by rw [List.length_append]; omega), List.take_append_of_le_length hn,
      List.drop_append_of_le_length hn, h.1, h.2]
  · rw [if_neg hn] at h
    cases h

end Recibir

/-! ### A party -/

/-- What a party does with a code: it takes nothing more, it ends, or it takes the payload, from
which it may fail. -/
inductive Trato (σ : Type*)
  | ignora
  | termina
  | atiende (f : σ → List UInt8 → Option (List UInt8 × σ))

/-- What a turn comes to: bytes are missing; the party ends; it fails; or it has sent some bytes,
and goes on with those that it did not take. -/
inductive Turno (σ : Type*)
  | espera
  | termina
  | cae
  | sigue (enviado : List UInt8) (s : σ) (resto : List UInt8)

/-- One message, taken by a party whose state nobody else touches meanwhile: a code, and the payload
where the code has one. -/
def turno (trato : ℕ → Trato σ) (s : σ) (bs : List UInt8) : Turno σ :=
  match recibir 4 bs with
  | none => .espera
  | some (codigo, bs) =>
      match trato (valor codigo) with
      | .ignora => .sigue [] s bs
      | .termina => .termina
      | .atiende f =>
          match recibir 4 bs with
          | none => .espera
          | some (tamanio, bs) =>
              match recibir (valor tamanio) bs with
              | none => .espera
              | some (carga, bs) =>
                  match f s carga with
                  | none => .cae
                  | some (enviado, s') => .sigue enviado s' bs

section Turnos

variable {trato : ℕ → Trato σ} {s : σ} {bs : List UInt8}

theorem turno_nil (trato : ℕ → Trato σ) (s : σ) : turno trato s [] = .espera := rfl

/-- A whole message is taken, with what follows it left. -/
theorem turno_tramar {codigo : ℕ} {carga : List UInt8} (hcodigo : codigo < 2 ^ 32)
    (hcarga : carga.length < 2 ^ 32) {f : σ → List UInt8 → Option (List UInt8 × σ)}
    (h : trato codigo = .atiende f) (s : σ) (resto : List UInt8) :
    turno trato s (tramar codigo carga ++ resto) =
      match f s carga with
      | none => .cae
      | some (enviado, s') => .sigue enviado s' resto := by
  have hcod := recibir_length (littleEndian 4 codigo)
    (littleEndian 4 carga.length ++ (carga ++ resto))
  have htam := recibir_length (littleEndian 4 carga.length) (carga ++ resto)
  rw [Codificacion.littleEndian_length] at hcod htam
  have hvalor := Codificacion.valor_littleEndian_of_lt (k := 4) hcodigo
  have htamanio := Codificacion.valor_littleEndian_of_lt (k := 4) hcarga
  simp only [turno, tramar, List.append_assoc, hcod, hvalor, h, htam, htamanio, recibir_length]

/-- A turn that can be taken is not changed by the bytes that arrive later. -/
theorem turno_append (h : turno trato s bs ≠ .espera) (cs : List UInt8) :
    turno trato s (bs ++ cs) =
      match turno trato s bs with
      | .sigue enviado s' resto => .sigue enviado s' (resto ++ cs)
      | t => t := by
  unfold turno at h ⊢
  cases hcodigo : recibir 4 bs with
  | none => simp [hcodigo] at h
  | some x =>
      obtain ⟨codigo, bs₁⟩ := x
      simp only [hcodigo, recibir_append hcodigo] at h ⊢
      cases htrato : trato (valor codigo) with
      | ignora => rfl
      | termina => rfl
      | atiende f =>
          simp only [htrato] at h ⊢
          cases htamanio : recibir 4 bs₁ with
          | none => simp [htamanio] at h
          | some x =>
              obtain ⟨tamanio, bs₂⟩ := x
              simp only [htamanio, recibir_append htamanio] at h ⊢
              cases hcarga : recibir (valor tamanio) bs₂ with
              | none => simp [hcarga] at h
              | some x =>
                  obtain ⟨carga, bs₃⟩ := x
                  simp only [recibir_append hcarga]
                  cases f s carga with
                  | none => rfl
                  | some y => rfl

end Turnos

/-! ### The requests of several clients -/

/-- Requests served one after another, each with the connection that it came by: the answers, each
with the connection that it goes by, and the state that is left unless one of them fails. -/
def atenderTodas (paso : σ → π → Option (List ρ × σ)) :
    σ → List (ι × π) → List (ι × ρ) × Option σ
  | s, [] => ([], some s)
  | s, (i, p) :: ps =>
      match paso s p with
      | none => ([], none)
      | some (rs, s') =>
          let r := atenderTodas paso s' ps
          (rs.map (Prod.mk i) ++ r.1, r.2)

/-- A request behind others. -/
theorem atenderTodas_append (paso : σ → π → Option (List ρ × σ)) {ps : List (ι × π)} (i : ι)
    (p : π) : ∀ {s s' : σ}, (atenderTodas paso s ps).2 = some s' →
      atenderTodas paso s (ps ++ [(i, p)]) =
        match paso s' p with
        | none => ((atenderTodas paso s ps).1, none)
        | some (rs, s'') => ((atenderTodas paso s ps).1 ++ rs.map (Prod.mk i), some s'') := by
  induction ps with
  | nil =>
      intro s s' h
      cases h
      simp only [List.nil_append, atenderTodas]
      cases paso s p with
      | none => rfl
      | some x => simp only [List.append_nil]
  | cons q ps ih =>
      intro s s' h
      obtain ⟨j, q⟩ := q
      rw [List.cons_append, atenderTodas]
      rw [atenderTodas] at h ⊢
      cases hq : paso s q with
      | none => simp [hq] at h
      | some x =>
          obtain ⟨rs, s₁⟩ := x
          simp only [hq] at h ⊢
          rw [ih h]
          cases paso s' p with
          | none => rfl
          | some y => simp only [List.append_assoc]

section DeConexion

variable [DecidableEq ι]

/-- What belongs to a connection. -/
def deConexion (i : ι) (xs : List (ι × α)) : List α := (xs.filter fun x => x.1 = i).map Prod.snd

variable {i j : ι}

@[simp] theorem deConexion_append (i : ι) (xs ys : List (ι × α)) :
    deConexion i (xs ++ ys) = deConexion i xs ++ deConexion i ys := by
  simp [deConexion]

@[simp] theorem deConexion_self (i : ι) (as : List α) : deConexion i (as.map (Prod.mk i)) = as := by
  simp [deConexion, List.filter_map, Function.comp_def]

theorem deConexion_of_ne (h : i ≠ j) (as : List α) : deConexion j (as.map (Prod.mk i)) = [] := by
  simp [deConexion, List.filter_map, Function.comp_def, h]

@[simp] theorem deConexion_singleton_self (i : ι) (a : α) : deConexion i [(i, a)] = [a] :=
  deConexion_self i [a]

theorem deConexion_singleton_of_ne (h : i ≠ j) (a : α) : deConexion j [(i, a)] = [] :=
  deConexion_of_ne h [a]

end DeConexion

/-- The turn in which a request is served: what was answered is sent. -/
def Turno.servido (respuesta : ρ → List UInt8) (resto : List UInt8) :
    Option (List ρ × σ) → Turno σ
  | none => .cae
  | some (rs, s) => .sigue (rs.flatMap respuesta) s resto

/-- A server and its clients, over streams.  In the states `Inv` the server does with the bytes of a
request `Apta` what `paso` does with the request, and its answers are `Legible`; the client adds
each of these to what it has read. -/
structure Protocolo (ι σ π ρ : Type*) where
  paso : σ → π → Option (List ρ × σ)
  peticion : π → List UInt8
  respuesta : ρ → List UInt8
  servidor : ι → ℕ → Trato σ
  cliente : ι → ℕ → Trato (List ρ)
  Inv : σ → Prop
  Apta : ι → π → Prop
  Legible : ι → ρ → Prop
  sirve : ∀ {i s p}, Inv s → Apta i p → ∀ resto,
    turno (servidor i) s (peticion p ++ resto) = .servido respuesta resto (paso s p)
  conserva : ∀ {i s p rs s'}, Inv s → Apta i p → paso s p = some (rs, s') →
    Inv s' ∧ ∀ r ∈ rs, Legible i r
  entiende : ∀ {i r}, Legible i r → ∀ l resto,
    turno (cliente i) l (respuesta r ++ resto) = .sigue [] (l ++ [r]) resto

/-! ### One connection -/

/-- A connection: the bytes of requests that are in flight and those that have arrived, the same for
the answers, and the answers that the client has read. -/
structure Conexion (ρ : Type*) where
  abierta : Bool := true
  ida : List UInt8 := []
  llegado : List UInt8 := []
  vuelta : List UInt8 := []
  recibido : List UInt8 := []
  respuestas : List ρ := []

section Conexiones

variable (P : Protocolo ι σ π ρ)

/-- A connection of which the requests `servidas` have been served with the answers `rs`, of the
requests `ps` that were made. -/
structure EnOrden (i : ι) (vive : Prop) (ps servidas : List π) (rs : List ρ) (x : Conexion ρ) :
    Prop where
  abierta : x.abierta = true
  aptas : ∀ p ∈ ps, P.Apta i p
  peticiones : ∃ porServir, ps = servidas ++ porServir ∧
    (vive → x.llegado ++ x.ida = porServir.flatMap P.peticion)
  respuestas : ∃ porLeer, rs = x.respuestas ++ porLeer ∧ (∀ r ∈ porLeer, P.Legible i r) ∧
    x.recibido ++ x.vuelta = porLeer.flatMap P.respuesta

variable {P} {i : ι} {vive : Prop} {ps servidas porServir : List π} {p : π} {rs : List ρ}
  {x : Conexion ρ}

/-- No request is without bytes. -/
theorem peticion_ne_nil {s : σ} (hs : P.Inv s) (hp : P.Apta i p) : P.peticion p ≠ [] := by
  intro hnil
  have h := P.sirve hs hp []
  rw [hnil, List.append_nil, turno_nil] at h
  cases hpaso : P.paso s p with
  | none => simp [hpaso, Turno.servido] at h
  | some y => simp [hpaso, Turno.servido] at h

/-- No answer is without bytes. -/
theorem respuesta_ne_nil {r : ρ} (hr : P.Legible i r) : P.respuesta r ≠ [] := by
  intro hnil
  have h := P.entiende hr [] []
  rw [hnil, List.append_nil, turno_nil] at h
  cases h

namespace EnOrden

theorem nueva (P : Protocolo ι σ π ρ) (i : ι) : EnOrden P i vive [] [] [] {} where
  abierta := rfl
  aptas := by simp
  peticiones := ⟨[], rfl, fun _ => rfl⟩
  respuestas := ⟨[], rfl, by simp, rfl⟩

theorem pide (h : EnOrden P i vive ps servidas rs x) (hp : P.Apta i p) :
    EnOrden P i vive (ps ++ [p]) servidas rs { x with ida := x.ida ++ P.peticion p } := by
  obtain ⟨porServir, hps, hbytes⟩ := h.peticiones
  refine ⟨h.abierta, ?_, ⟨porServir ++ [p], ?_, ?_⟩, h.respuestas⟩
  · intro q hq
    rcases List.mem_append.1 hq with hq | hq
    · exact h.aptas q hq
    · rwa [List.mem_singleton.1 hq]
  · rw [hps, List.append_assoc]
  · intro hvive
    rw [← List.append_assoc, hbytes hvive]
    simp

theorem llegaAlServidor (h : EnOrden P i vive ps servidas rs x) (n : ℕ) :
    EnOrden P i vive ps servidas rs
      { x with ida := x.ida.drop n, llegado := x.llegado ++ x.ida.take n } := by
  obtain ⟨porServir, hps, hbytes⟩ := h.peticiones
  refine ⟨h.abierta, h.aptas, ⟨porServir, hps, ?_⟩, h.respuestas⟩
  intro hvive
  rw [List.append_assoc, List.take_append_drop, hbytes hvive]

theorem llegaAlCliente (h : EnOrden P i vive ps servidas rs x) (n : ℕ) :
    EnOrden P i vive ps servidas rs
      { x with vuelta := x.vuelta.drop n, recibido := x.recibido ++ x.vuelta.take n } := by
  obtain ⟨porLeer, hrs, hlegible, hbytes⟩ := h.respuestas
  refine ⟨h.abierta, h.aptas, h.peticiones, porLeer, hrs, hlegible, ?_⟩
  rw [List.append_assoc, List.take_append_drop, hbytes]

/-- What a turn of the server takes is the first request that is not served. -/
theorem turno {s : σ} (hs : P.Inv s) (h : EnOrden P i True ps servidas rs x)
    (hturno : turno (P.servidor i) s x.llegado ≠ .espera) :
    ∃ p porServir, P.Apta i p ∧ ps = servidas ++ p :: porServir ∧
      match P.paso s p with
      | none => Trama.turno (P.servidor i) s x.llegado = .cae
      | some (rs', s') => ∃ resto,
          Trama.turno (P.servidor i) s x.llegado = .sigue (rs'.flatMap P.respuesta) s' resto ∧
            resto ++ x.ida = porServir.flatMap P.peticion := by
  obtain ⟨porServir, hps, hbytes⟩ := h.peticiones
  replace hbytes := hbytes trivial
  cases porServir with
  | nil =>
      obtain ⟨hllegado, -⟩ := List.append_eq_nil_iff.1 hbytes
      rw [hllegado] at hturno
      exact absurd (turno_nil _ s) hturno
  | cons p porServir =>
      have hp : P.Apta i p := h.aptas p (by rw [hps]; simp)
      refine ⟨p, porServir, hp, hps, ?_⟩
      have hsirve := P.sirve hs hp (porServir.flatMap P.peticion)
      rw [← List.flatMap_cons, ← hbytes, turno_append hturno] at hsirve
      cases hpaso : P.paso s p with
      | none =>
          rw [hpaso, Turno.servido] at hsirve
          cases ht : Trama.turno (P.servidor i) s x.llegado <;> simp_all
      | some y =>
          obtain ⟨rs', s'⟩ := y
          rw [hpaso, Turno.servido] at hsirve
          cases ht : Trama.turno (P.servidor i) s x.llegado <;> simp_all

/-- The first request that is not served is served, and answered. -/
theorem sirve (h : EnOrden P i True ps servidas rs x) (hps : ps = servidas ++ p :: porServir)
    {rs' : List ρ} (hrs' : ∀ r ∈ rs', P.Legible i r) {resto : List UInt8}
    (hresto : resto ++ x.ida = porServir.flatMap P.peticion) :
    EnOrden P i vive ps (servidas ++ [p]) (rs ++ rs')
      { x with llegado := resto, vuelta := x.vuelta ++ rs'.flatMap P.respuesta } := by
  obtain ⟨porLeer, hrs, hlegible, hbytes⟩ := h.respuestas
  refine ⟨h.abierta, h.aptas, ⟨porServir, ?_, fun _ => hresto⟩, porLeer ++ rs', ?_, ?_, ?_⟩
  · rw [hps, List.append_assoc]
    rfl
  · rw [hrs, List.append_assoc]
  · intro r hr
    rcases List.mem_append.1 hr with hr | hr
    · exact hlegible r hr
    · exact hrs' r hr
  · rw [← List.append_assoc, hbytes, List.flatMap_append]

/-- Or it makes the server fail. -/
theorem falla (h : EnOrden P i True ps servidas rs x) (hps : ps = servidas ++ p :: porServir) :
    EnOrden P i False ps (servidas ++ [p]) rs x := by
  refine ⟨h.abierta, h.aptas, ⟨porServir, ?_, False.elim⟩, h.respuestas⟩
  rw [hps, List.append_assoc]
  rfl

theorem mono {vive' : Prop} (h : EnOrden P i vive ps servidas rs x) (hvive : vive' → vive) :
    EnOrden P i vive' ps servidas rs x := by
  obtain ⟨porServir, hps, hbytes⟩ := h.peticiones
  exact ⟨h.abierta, h.aptas, ⟨porServir, hps, fun hv => hbytes (hvive hv)⟩, h.respuestas⟩

/-- What a turn of a client takes is the first answer that is not read. -/
theorem lee (h : EnOrden P i vive ps servidas rs x) {enviado resto : List UInt8}
    {respuestas : List ρ}
    (hturno : Trama.turno (P.cliente i) x.respuestas x.recibido = .sigue enviado respuestas resto) :
    EnOrden P i vive ps servidas rs { x with recibido := resto, respuestas } := by
  obtain ⟨porLeer, hrs, hlegible, hbytes⟩ := h.respuestas
  cases porLeer with
  | nil =>
      obtain ⟨hrecibido, -⟩ := List.append_eq_nil_iff.1 hbytes
      rw [hrecibido, turno_nil] at hturno
      cases hturno
  | cons r porLeer =>
      have hlee := P.entiende (hlegible r List.mem_cons_self) x.respuestas
        (porLeer.flatMap P.respuesta)
      have hnoEspera : Trama.turno (P.cliente i) x.respuestas x.recibido ≠ .espera := by
        rw [hturno]
        simp
      have happ := turno_append hnoEspera x.vuelta
      rw [hbytes, List.flatMap_cons, hlee, hturno, Turno.sigue.injEq] at happ
      obtain ⟨-, hrespuestas, hresto⟩ := happ
      refine ⟨h.abierta, h.aptas, h.peticiones, porLeer, ?_, ?_, hresto.symm⟩
      · rw [hrs, ← hrespuestas, List.append_assoc]
        rfl
      · exact fun q hq => hlegible q (List.mem_cons_of_mem r hq)

/-- With no bytes on the way, all the answers have been read. -/
theorem leidas (h : EnOrden P i vive ps servidas rs x) (hrecibido : x.recibido = [])
    (hvuelta : x.vuelta = []) : x.respuestas = rs := by
  obtain ⟨porLeer, hrs, hlegible, hbytes⟩ := h.respuestas
  cases porLeer with
  | nil => rw [hrs, List.append_nil]
  | cons r porLeer =>
      rw [hrecibido, hvuelta, List.flatMap_cons] at hbytes
      obtain ⟨hr, -⟩ := List.append_eq_nil_iff.1 hbytes.symm
      exact absurd hr (respuesta_ne_nil (hlegible r List.mem_cons_self))

/-- And all the requests served. -/
theorem servidas_eq {s : σ} (hs : P.Inv s) (h : EnOrden P i True ps servidas rs x)
    (hllegado : x.llegado = []) (hida : x.ida = []) : servidas = ps := by
  obtain ⟨porServir, hps, hbytes⟩ := h.peticiones
  replace hbytes := hbytes trivial
  cases porServir with
  | nil => rw [hps, List.append_nil]
  | cons p porServir =>
      have hp : P.Apta i p := h.aptas p (by rw [hps]; simp)
      rw [hllegado, hida, List.flatMap_cons] at hbytes
      obtain ⟨hnil, -⟩ := List.append_eq_nil_iff.1 hbytes.symm
      exact absurd hnil (peticion_ne_nil hs hp)

end EnOrden

end Conexiones

/-! ### The server and all its connections -/

/-- The server, unless it has failed, its connections, the threads that are serving a request, and
whether some of these have served at the same time as another. -/
structure Red (ι σ ρ : Type*) where
  estado : Option σ
  conexion : ι → Conexion ρ
  enServicio : List ι := []
  solapado : Bool := false

/-- On a connection: the client makes a request; some bytes of requests arrive; the thread of the
server has a request and starts to serve it; it is done, and has sent the answer; some bytes of
answers arrive; the client takes a turn. -/
inductive Evento (ι π : Type*)
  | pide (i : ι) (p : π)
  | llegaAlServidor (i : ι) (n : ℕ)
  | empieza (i : ι)
  | acaba (i : ι)
  | llegaAlCliente (i : ι) (n : ℕ)
  | lee (i : ι)

section Redes

variable [DecidableEq ι]

/-- The requests that are made on a connection. -/
def pedidas (i : ι) (es : List (Evento ι π)) : List π :=
  es.filterMap fun
    | .pide j p => if j = i then some p else none
    | _ => none

namespace Red

def conConexion (c : Red ι σ ρ) (i : ι) (x : Conexion ρ) : Red ι σ ρ :=
  { c with conexion := Function.update c.conexion i x }

@[simp] theorem conConexion_estado (c : Red ι σ ρ) (i : ι) (x : Conexion ρ) :
    (c.conConexion i x).estado = c.estado := rfl

@[simp] theorem conConexion_self (c : Red ι σ ρ) (i : ι) (x : Conexion ρ) :
    (c.conConexion i x).conexion i = x := by
  simp [conConexion]

theorem conConexion_of_ne (c : Red ι σ ρ) {i j : ι} (x : Conexion ρ) (h : j ≠ i) :
    (c.conConexion i x).conexion j = c.conexion j := by
  simp [conConexion, h]

end Red

variable (P : Protocolo ι σ π ρ)

namespace Red

/-- A turn of the server on a connection, while no other thread is serving. -/
def atender (c : Red ι σ ρ) (i : ι) : Red ι σ ρ :=
  let x := c.conexion i
  match c.estado with
  | none => c
  | some s =>
      if x.abierta then
        match turno (P.servidor i) s x.llegado with
        | .espera => c
        | .termina => c.conConexion i { x with abierta := false }
        | .cae => { c with estado := none }
        | .sigue enviado s' resto =>
            { c with estado := some s' }.conConexion i
              { x with llegado := resto, vuelta := x.vuelta ++ enviado }
      else c

theorem atender_eq {c : Red ι σ ρ} {s : σ} {i : ι} (hestado : c.estado = some s)
    (habierta : (c.conexion i).abierta = true) :
    c.atender P i =
      match turno (P.servidor i) s (c.conexion i).llegado with
      | .espera => c
      | .termina => c.conConexion i { c.conexion i with abierta := false }
      | .cae => { c with estado := none }
      | .sigue enviado s' resto =>
          { c with estado := some s' }.conConexion i
            { c.conexion i with
              llegado := resto
              vuelta := (c.conexion i).vuelta ++ enviado } := by
  simp only [atender, hestado]
  exact if_pos habierta

/-- A turn of a client, which stops at an answer that it does not understand. -/
def leer (c : Red ι σ ρ) (i : ι) : Red ι σ ρ :=
  let x := c.conexion i
  match turno (P.cliente i) x.respuestas x.recibido with
  | .sigue _ respuestas resto => c.conConexion i { x with recibido := resto, respuestas }
  | _ => c

/-- There is a request to serve on the connection: a receive would not wait. -/
def hayPedido (c : Red ι σ ρ) (i : ι) : Bool :=
  match c.estado with
  | none => false
  | some s =>
      (c.conexion i).abierta &&
        match turno (P.servidor i) s (c.conexion i).llegado with
        | .espera => false
        | _ => true

/-- A thread starts to serve. -/
def entrar (c : Red ι σ ρ) (i : ι) : Red ι σ ρ :=
  { c with
    enServicio := i :: c.enServicio
    solapado := c.solapado || !c.enServicio.isEmpty }

/-- A thread is done. -/
def salir (c : Red ι σ ρ) (i : ι) : Red ι σ ρ :=
  { c with
    enServicio := c.enServicio.erase i
    solapado := c.solapado && !(c.enServicio.erase i).isEmpty }

/-- The step of an event, where no two threads serve at the same time. -/
def avanzar (c : Red ι σ ρ) : Evento ι π → Red ι σ ρ
  | .pide i p =>
      let x := c.conexion i
      c.conConexion i { x with ida := x.ida ++ P.peticion p }
  | .llegaAlServidor i n =>
      let x := c.conexion i
      c.conConexion i { x with ida := x.ida.drop n, llegado := x.llegado ++ x.ida.take n }
  | .empieza i => c.entrar i
  | .acaba i => (c.atender P i).salir i
  | .llegaAlCliente i n =>
      let x := c.conexion i
      c.conConexion i
        { x with vuelta := x.vuelta.drop n, recibido := x.recibido ++ x.vuelta.take n }
  | .lee i => c.leer P i

/-- The steps.  Threads that serve at the same time may leave the server in any state, and anything
on their connections. -/
def Paso (c : Red ι σ ρ) (e : Evento ι π) (c' : Red ι σ ρ) : Prop :=
  match e with
  | .empieza i => c.hayPedido P i = true ∧ i ∉ c.enServicio ∧ c' = c.avanzar P e
  | .acaba i =>
      i ∈ c.enServicio ∧
        if c.solapado = true then
          ∃ estado x, c' = ({ c with estado := estado }.conConexion i x).salir i
        else c' = c.avanzar P e
  | _ => c' = c.avanzar P e

end Red

/-- The server in a state and connections that are new. -/
def sistema (s : σ) : Transicion.Sistema (Red ι σ ρ) (Evento ι π) where
  inicial c := c = { estado := some s, conexion := fun _ => {} }
  paso := Red.Paso P

/-- The requests that are made are as they should be. -/
def Evento.Apta : Evento ι π → Prop
  | .pide i p => P.Apta i p
  | _ => True

/-- A request is taken up only while no thread is serving. -/
def Evento.EnSerie (c : Red ι σ ρ) : Evento ι π → Prop
  | .empieza _ => c.enServicio = []
  | _ => True

/-- The steps of the runs in which the threads take turns. -/
def Red.intentar (c : Red ι σ ρ) (e : Evento ι π) : Option (Red ι σ ρ) :=
  match e with
  | .empieza i => if c.hayPedido P i = true ∧ c.enServicio = [] then some (c.avanzar P e) else none
  | .acaba i => if i ∈ c.enServicio ∧ c.solapado = false then some (c.avanzar P e) else none
  | _ => some (c.avanzar P e)

theorem paso_of_intentar {P : Protocolo ι σ π ρ} {s : σ} {c c' : Red ι σ ρ} {e : Evento ι π}
    (h : c.intentar P e = some c') : e.EnSerie c ∧ (sistema P s).paso c e c' := by
  cases e with
  | empieza i =>
      obtain ⟨⟨hpedido, hnadie⟩, h⟩ := Option.ite_none_right_eq_some.1 h
      obtain rfl := Option.some.inj h
      exact ⟨hnadie, hpedido, by rw [hnadie]; exact List.not_mem_nil, rfl⟩
  | acaba i =>
      obtain ⟨⟨hsirve, hsolo⟩, h⟩ := Option.ite_none_right_eq_some.1 h
      obtain rfl := Option.some.inj h
      exact ⟨trivial, hsirve, by rw [if_neg (by simp [hsolo])]⟩
  | _ => exact ⟨trivial, (Option.some.inj h).symm⟩

/-- Of the requests that were made, `servidas` have been served, in this order. -/
structure Servidas (s : σ) (es : List (Evento ι π)) (servidas : List (ι × π)) (c : Red ι σ ρ) :
    Prop where
  solo : c.solapado = false
  estado : c.estado = (atenderTodas P.paso s servidas).2
  inv : ∀ s', c.estado = some s' → P.Inv s'
  conexion : ∀ i, EnOrden P i (c.estado ≠ none) (pedidas i es) (deConexion i servidas)
    (deConexion i (atenderTodas P.paso s servidas).1) (c.conexion i)

variable {P} {s : σ} {es : List (Evento ι π)} {servidas : List (ι × π)} {c : Red ι σ ρ} {i j : ι}

/-- A request is made on one connection. -/
theorem pedidas_pide_self (es : List (Evento ι π)) (i : ι) (p : π) :
    pedidas i (es ++ [.pide i p]) = pedidas i es ++ [p] := by
  simp [pedidas]

theorem pedidas_pide_of_ne (es : List (Evento ι π)) (h : i ≠ j) (p : π) :
    pedidas j (es ++ [.pide i p]) = pedidas j es := by
  simp [pedidas, h]

/-- The other steps make no request. -/
theorem pedidas_otro (es : List (Evento ι π)) {e : Evento ι π} (he : ∀ i p, e ≠ .pide i p) (i : ι) :
    pedidas i (es ++ [e]) = pedidas i es := by
  cases e with
  | pide j p => exact absurd rfl (he j p)
  | _ => simp [pedidas]

namespace Servidas

theorem inicial (hs : P.Inv s) :
    Servidas P s [] [] { estado := some s, conexion := fun _ => {} } where
  solo := rfl
  estado := rfl
  inv := by
    intro s' h
    cases h
    exact hs
  conexion := fun i => EnOrden.nueva P i

theorem pide (h : Servidas P s es servidas c) {p : π} (hp : P.Apta i p) :
    Servidas P s (es ++ [.pide i p]) servidas (c.avanzar P (.pide i p)) := by
  refine ⟨h.solo, h.estado, h.inv, ?_⟩
  intro j
  rw [Red.avanzar, Red.conConexion_estado]
  by_cases hj : j = i
  · subst hj
    rw [Red.conConexion_self, pedidas_pide_self]
    exact (h.conexion j).pide hp
  · rw [Red.conConexion_of_ne c _ hj, pedidas_pide_of_ne es (Ne.symm hj)]
    exact h.conexion j

section Otros

variable {e : Evento ι π} (he : ∀ i p, e ≠ .pide i p)
include he

/-- A step in which nothing happens. -/
theorem igual (h : Servidas P s es servidas c) : Servidas P s (es ++ [e]) servidas c := by
  refine ⟨h.solo, h.estado, h.inv, ?_⟩
  intro j
  rw [pedidas_otro es he]
  exact h.conexion j

/-- A step on one connection, in which nothing is served. -/
theorem enConexion (h : Servidas P s es servidas c) {x : Conexion ρ}
    (hx : EnOrden P i (c.estado ≠ none) (pedidas i es) (deConexion i servidas)
      (deConexion i (atenderTodas P.paso s servidas).1) x) :
    Servidas P s (es ++ [e]) servidas (c.conConexion i x) := by
  refine ⟨h.solo, h.estado, h.inv, ?_⟩
  intro j
  rw [pedidas_otro es he, Red.conConexion_estado]
  by_cases hj : j = i
  · subst hj
    rw [Red.conConexion_self]
    exact hx
  · rw [Red.conConexion_of_ne c x hj]
    exact h.conexion j

end Otros

theorem lee (h : Servidas P s es servidas c) (i : ι) :
    Servidas P s (es ++ [.lee i]) servidas (c.leer P i) := by
  have he : ∀ j p, (.lee i : Evento ι π) ≠ .pide j p := by simp
  cases hturno : turno (P.cliente i) (c.conexion i).respuestas (c.conexion i).recibido with
  | sigue enviado respuestas resto =>
      simp only [Red.leer, hturno]
      exact h.enConexion he ((h.conexion i).lee hturno)
  | espera =>
      simp only [Red.leer, hturno]
      exact h.igual he
  | termina =>
      simp only [Red.leer, hturno]
      exact h.igual he
  | cae =>
      simp only [Red.leer, hturno]
      exact h.igual he

/-- A turn of the server serves the next request of the connection, if its bytes are there. -/
theorem atiende (h : Servidas P s es servidas c) (i : ι) :
    ∃ servidas', Servidas P s (es ++ [.acaba i]) servidas' (c.atender P i) := by
  have he : ∀ j p, (.acaba i : Evento ι π) ≠ .pide j p := by simp
  cases hestado : c.estado with
  | none =>
      simp only [Red.atender, hestado]
      exact ⟨servidas, h.igual he⟩
  | some s₁ =>
      have hs₁ := h.inv s₁ hestado
      have hvive : ∀ j, EnOrden P j True (pedidas j es) (deConexion j servidas)
          (deConexion j (atenderTodas P.paso s servidas).1) (c.conexion j) := by
        intro j
        exact (h.conexion j).mono fun _ => by rw [hestado]; simp
      rw [Red.atender_eq P hestado (hvive i).abierta]
      by_cases hespera : turno (P.servidor i) s₁ (c.conexion i).llegado = .espera
      · rw [hespera]
        exact ⟨servidas, h.igual he⟩
      obtain ⟨p, porServir, hp, hps, hpaso⟩ := (hvive i).turno hs₁ hespera
      have hfin := (h.estado.symm.trans hestado)
      have hmas := atenderTodas_append P.paso i p hfin
      refine ⟨servidas ++ [(i, p)], ?_⟩
      cases hp₁ : P.paso s₁ p with
      | none =>
          rw [hp₁] at hpaso hmas
          rw [hpaso]
          refine ⟨h.solo, ?_, ?_, ?_⟩
          · rw [hmas]
          · simp
          intro j
          rw [pedidas_otro es he, hmas, deConexion_append]
          by_cases hj : i = j
          · subst hj
            rw [deConexion_singleton_self]
            exact ((hvive i).falla hps).mono (by simp)
          · rw [deConexion_singleton_of_ne hj, List.append_nil]
            exact (hvive j).mono fun _ => trivial
      | some y =>
          obtain ⟨rs, s₂⟩ := y
          rw [hp₁] at hpaso hmas
          obtain ⟨resto, hturno, hresto⟩ := hpaso
          obtain ⟨hs₂, hrs⟩ := P.conserva hs₁ hp hp₁
          rw [hturno]
          refine ⟨h.solo, ?_, ?_, ?_⟩
          · rw [hmas]
            rfl
          · intro s' hs'
            cases hs'
            exact hs₂
          intro j
          rw [pedidas_otro es he, hmas, deConexion_append, deConexion_append]
          by_cases hj : i = j
          · subst hj
            rw [deConexion_singleton_self, deConexion_self, Red.conConexion_self]
            exact (hvive i).sirve hps hrs hresto
          · rw [deConexion_singleton_of_ne hj, deConexion_of_ne hj, List.append_nil,
              List.append_nil, Red.conConexion_of_ne _ _ (Ne.symm hj)]
            exact (hvive j).mono fun _ => trivial

/-- Threads that take turns do not serve at the same time. -/
theorem entra (h : Servidas P s es servidas c) {i : ι} (hnadie : c.enServicio = []) :
    Servidas P s (es ++ [.empieza i]) servidas (c.entrar i) := by
  have hc := h.igual (e := .empieza i) (by simp)
  exact ⟨by simp [Red.entrar, h.solo, hnadie], hc.estado, hc.inv, hc.conexion⟩

theorem sale (h : Servidas P s es servidas c) (i : ι) : Servidas P s es servidas (c.salir i) :=
  ⟨by simp [Red.salir, h.solo], h.estado, h.inv, h.conexion⟩

/-- One step, whichever it is. -/
theorem avanzar (h : Servidas P s es servidas c) {e : Evento ι π} {c' : Red ι σ ρ} (he : e.Apta P)
    (hserie : e.EnSerie c) (hpaso : c.Paso P e c') :
    ∃ servidas', Servidas P s (es ++ [e]) servidas' c' := by
  cases e with
  | pide i p => exact ⟨servidas, hpaso ▸ h.pide he⟩
  | llegaAlServidor i n =>
      exact ⟨servidas, hpaso ▸ h.enConexion (by simp) ((h.conexion i).llegaAlServidor n)⟩
  | empieza i =>
      obtain ⟨-, -, rfl⟩ := hpaso
      exact ⟨servidas, h.entra hserie⟩
  | acaba i =>
      obtain ⟨-, hpaso⟩ := hpaso
      rw [if_neg (by simp [h.solo])] at hpaso
      obtain ⟨servidas', hservidas⟩ := h.atiende i
      exact ⟨servidas', hpaso ▸ hservidas.sale i⟩
  | llegaAlCliente i n =>
      exact ⟨servidas, hpaso ▸ h.enConexion (by simp) ((h.conexion i).llegaAlCliente n)⟩
  | lee i => exact ⟨servidas, hpaso ▸ h.lee i⟩

end Servidas

/-- Some order of the requests is the one in which they were served. -/
theorem exists_servidas (hs : P.Inv s)
    (h : Transicion.Corrida (sistema P s) (fun c e => e.Apta P ∧ e.EnSerie c) es c) :
    ∃ servidas, Servidas P s es servidas c := by
  induction h with
  | inicio hc =>
      rw [hc]
      exact ⟨[], Servidas.inicial hs⟩
  | paso _ hapta hpaso ih =>
      obtain ⟨servidas, hservidas⟩ := ih
      exact hservidas.avanzar hapta.1 hapta.2 hpaso

/-- Nothing is on the way. -/
structure Conexion.EnReposo (x : Conexion ρ) : Prop where
  ida : x.ida = []
  llegado : x.llegado = []
  vuelta : x.vuelta = []
  recibido : x.recibido = []

/-- As long as no request is taken up while another is served, and however the bytes are cut and
delivered and in whatever order the turns are taken, the server is where some order of requests
leaves it, in which those of each connection are the first ones that were made, as they were made;
each client has read the first of its own answers.  On a connection with nothing on the way, all
were served, unless the server has failed, and all were read. -/
theorem linealizable (hs : P.Inv s)
    (h : Transicion.Corrida (sistema P s) (fun c e => e.Apta P ∧ e.EnSerie c) es c) :
    ∃ servidas : List (ι × π),
      c.estado = (atenderTodas P.paso s servidas).2 ∧
      (∀ i, deConexion i servidas <+: pedidas i es ∧
        (c.conexion i).respuestas <+: deConexion i (atenderTodas P.paso s servidas).1) ∧
      ∀ i, (c.conexion i).EnReposo →
        (c.estado ≠ none → deConexion i servidas = pedidas i es) ∧
          (c.conexion i).respuestas = deConexion i (atenderTodas P.paso s servidas).1 := by
  obtain ⟨servidas, hservidas⟩ := exists_servidas hs h
  refine ⟨servidas, hservidas.estado, ?_, ?_⟩
  · intro i
    obtain ⟨porServir, hps, -⟩ := (hservidas.conexion i).peticiones
    obtain ⟨porLeer, hrs, -⟩ := (hservidas.conexion i).respuestas
    exact ⟨⟨porServir, hps.symm⟩, ⟨porLeer, hrs.symm⟩⟩
  · intro i hx
    refine ⟨?_, (hservidas.conexion i).leidas hx.recibido hx.vuelta⟩
    intro hestado
    obtain ⟨s', hs'⟩ := Option.ne_none_iff_exists'.1 hestado
    exact ((hservidas.conexion i).mono fun _ => hestado).servidas_eq (hservidas.inv s' hs')
      hx.llegado hx.ida

end Redes

end Trama
