import MileRpc.Effect.Once
import MileRpc.Rpc.Call

/-!
# Payments

A payment is a send-transaction request that the node receives, also when the client does not learn
of it.  This module says which parts of the client can pay when the error handler may start the
whole call again: for an error with the code `FAIL` the handler may pay once, for every other code
it pays nothing (`Retries`).

A second payment is possible where an exception after a payment reaches the handler with the code
`FAIL`.  `Steady` excludes these exceptions for the requests that a condition `K` selects, and
`payments` is the meter of the runs that are steady or whose handler never returns.
-/

namespace MileRpc

/-- The node receives a send-transaction request. -/
def Event.isPayment : Event → Bool
  | .write _ req a => a.delivered && (req.payload.bind methodOf == some "send-transaction")
  | _ => false

/-- Writing and reading the requests in `K` throws nothing, a 200 reply to them is a JSON text, and
every transaction that is asked for is made without an error. -/
structure Steady (api : Api) (K : HttpRequest → WriteAnswer → Prop) (t : List Event) : Prop where
  write : ∀ s req a, .write s req a ∈ t → K req a → ∃ io, a.result = .ok io
  read : ∀ s req a b, [.write s req a, .read s b] <:+: t → K req a → ∃ io, b.result = .ok io
  reply : ∀ s req a b body res, [.write s req a, .read s b, .reply body res] <:+: t → K req a →
    res.status = HttpResponse.ok → ∃ j, api.parse res.data = .ok j
  created : ∀ call o, .created call o ∈ t →
    (api.create call).reports = [] ∧ ∃ transaction, o = .ok (some transaction)

theorem Steady.of_infix {api : Api} {K : HttpRequest → WriteAnswer → Prop} {t u : List Event}
    (h : Steady api K t) (hu : u <:+: t) : Steady api K u where
  write s req a hw := h.write s req a (hu.subset hw)
  read s req a b hr := h.read s req a b (hr.trans hu)
  reply s req a b body res hr := h.reply s req a b body res (hr.trans hu)
  created call o hc := h.created call o (hu.subset hc)

/-- A test for `Steady` that looks at one event, and at every request. -/
def Event.isSteady (api : Api) : Event → Bool
  | .write _ _ a => a.result.isOk
  | .read _ b => b.result.isOk
  | .reply _ res => res.status != HttpResponse.ok || (api.parse res.data).isOk
  | .created call o => (api.create call).reports.isEmpty && match o with
    | .ok (some _) => true
    | _ => false
  | _ => true

theorem exists_ok_of_isOk {ε α : Type} {r : Except ε α} (h : r.isOk = true) : ∃ a, r = .ok a := by
  cases r with
  | ok a => exact ⟨a, rfl⟩
  | error e => cases h

theorem Steady.of_all {api : Api} {K : HttpRequest → WriteAnswer → Prop} {t : List Event}
    (h : t.all (Event.isSteady api) = true) : Steady api K t where
  write s req a hw _ := exists_ok_of_isOk (List.all_eq_true.1 h _ hw)
  read s req a b hr _ := exists_ok_of_isOk (List.all_eq_true.1 h (.read s b) (hr.subset (by simp)))
  reply s req a b body res hr _ hok := by
    have hreply := List.all_eq_true.1 h (.reply body res) (hr.subset (by simp))
    simp only [Event.isSteady, hok, bne_self_eq_false, Bool.false_or] at hreply
    exact exists_ok_of_isOk hreply
  created call o hc := by
    have hcreated := List.all_eq_true.1 h _ hc
    simp only [Event.isSteady, Bool.and_eq_true, List.isEmpty_iff] at hcreated
    refine ⟨hcreated.1, ?_⟩
    match o, hcreated.2 with
    | .ok (some tx), _ => exact ⟨tx, rfl⟩

/-- The payments of the runs that are steady, or of all runs if the handler halts the process. -/
def payments (api : Api) (K : HttpRequest → WriteAnswer → Prop) (halts : Prop) : Meter Event where
  spends := Event.isPayment
  Fair t := halts ∨ Steady api K t
  fair_append := by
    rintro t u (h | h)
    · exact ⟨.inl h, .inl h⟩
    · exact ⟨.inr (h.of_infix ⟨[], u, rfl⟩), .inr (h.of_infix ⟨t, [], by simp⟩)⟩

namespace Outcome

variable {ε ω α : Type}

/-- The program returned `a`, or the process ended. -/
def Gives (a : α) : Outcome ε ω α → Prop
  | ret b => b = a
  | throw _ => False
  | stop _ => True

/-- The process ended. -/
def Halted : Outcome ε ω α → Prop
  | stop _ => True
  | _ => False

theorem Halted.gives {o : Outcome ε ω α} (h : o.Halted) (a : α) : o.Gives a := by
  cases o with
  | stop w => trivial
  | ret b => exact h.elim
  | throw e => exact h.elim

end Outcome

open Outcome (Gives Halted)

/-- What the error handler may do: pay once for the code `FAIL`, and nothing for other codes; if
`halts` holds it always ends the process. -/
structure Retries {ν : Type} (m : Meter Event) (halts : Prop) (error : ErrorHandler ν) : Prop where
  fail : ∀ text, m.Once (Gives ()) (error .fail text)
  other : ∀ code text, code ≠ .fail → m.Quits (Gives ()) (error code text)
  halts : halts → ∀ code text, m.Quits Halted (error code text)

section Parts

variable {ν α β : Type} {api : Api} {K : HttpRequest → WriteAnswer → Prop} {halts : Prop}

/-! ### Parts that pay nothing -/

theorem Calm.ask (f : ν → α × ν) : (payments api K halts).Calm (ask f) := .modifyGet _

theorem Calm.perform {f : ν → α × ν} {e : α → Event} (he : ∀ a, (e a).isPayment = false) :
    (payments api K halts).Calm (perform f e) :=
  Meter.Calm.bind (Calm.ask f) fun a => Meter.Calm.bind (.emit (he a)) fun _ => .pure a

theorem Calm.ofJson (r : Except JsonError α) : (payments api K halts).Calm (ofJson r : M ν α) :=
  .ofExcept _

/-- An undefined read gives a value or a crash. -/
theorem Quits.undefinedRead (u : Undefined) (stale : ν → Option α × ν) :
    (payments api K halts).Quits Outcome.NoThrow (undefinedRead u stale) := by
  refine Meter.Quits.bind (F := Outcome.NoThrow) (.emit rfl (by simp)) (fun _ _ => ?_)
    (fun e h => absurd rfl (h e)) fun w _ => by simp
  refine Meter.Quits.bind (F := Outcome.NoThrow) (fun _ _ => ⟨rfl, by simp⟩) (fun a _ => ?_)
    (fun e h => absurd rfl (h e)) fun w _ => by simp
  cases a with
  | some a => exact .pure (by simp)
  | none => exact .halt (by simp)

theorem Calm.undefinedRead (u : Undefined) (stale : ν → Option α × ν) :
    (payments api K halts).Calm (undefinedRead u stale) := (Quits.undefinedRead u stale).calm

theorem Calm.readMember (env : Env ν) (j : Json) (key : String) :
    (payments api K halts).Calm (readMember env j key) := by
  refine Meter.Calm.bind (Calm.ofJson _) fun v => ?_
  cases v with
  | some v => exact .pure v
  | none => exact Calm.undefinedRead .missingKey env.staleJson

theorem Calm.logResponse (status : ℕ) (method : String) (res : HttpResponse) :
    (payments api K halts).Calm (logResponse status method res : M ν Unit) := .emit rfl

/-! ### Reports -/

namespace Retries

variable {error : ErrorHandler ν} (hh : Retries (payments api K halts) halts error)

include hh

theorem once (code : ResultCode) (text : String) :
    (payments api K halts).Once (Gives ()) (error code text) := by
  by_cases hc : code = .fail
  · rw [hc]
    exact hh.fail text
  · exact (hh.other code text hc).once

/-- A report at the end of a function that then returns `a`. -/
theorem once_pure (code : ResultCode) (text : String) (a : α) :
    (payments api K halts).Once (Gives a) (do error code text; pure a) :=
  (hh.once code text).bind (fun _ => (Meter.Calm.pure a).once) (fun _ _ => .pure rfl)
    (fun _ h => h.elim) fun _ h => h

theorem quits_pure {code : ResultCode} (hc : code ≠ .fail) (text : String) (a : α) :
    (payments api K halts).Quits (Gives a) (do error code text; pure a) :=
  (hh.other code text hc).bind (fun _ _ => .pure rfl) (fun _ h => h.elim) fun _ h => h

theorem halts_pure (h : halts) (code : ResultCode) (text : String) (a : α) :
    (payments api K halts).Quits Halted (do error code text; pure a) :=
  (hh.halts h code text).bind (fun _ h => h.elim) (fun _ h => h.elim) fun _ h => h

end Retries

/-! ### Connecting -/

section Connect

variable {env : Env ν} {error : ErrorHandler ν} (hh : Retries (payments api K halts) halts error)

include hh

theorem Url.parse_once (urlString : String) :
    (payments api K halts).Once (Gives none) (Url.parse urlString error) := by
  unfold Url.parse Url.finish
  split
  · exact (Meter.Calm.pure _).once
  · exact hh.once_pure _ _ none
  · exact (Meter.Calm.raise _).once

namespace Session

/-- A failed stage is reported as a timeout. -/
theorem checkStage_calm (s : Session) (stage : String) (io : Io) :
    (payments api K halts).Calm (s.checkStage stage io error) := by
  unfold checkStage
  split
  · exact (hh.quits_pure (by simp) _ false).calm
  · exact .pure true

theorem connectTls_once (s : Session) :
    (payments api K halts).Once (Gives false) (s.connectTls env error) := by
  -- what is tried pays nothing, so that its exceptions may be retried
  have htry : (payments api K halts).Calm (do
      let r ← perform (env.asyncConnect s) (.tcpConnect s)
      let io ← Prog.ofExcept r
      if ← s.checkStage "Connection timeout" io error then do
        let h ← perform (env.startHandshake s) (.startHandshake s)
        Prog.ofExcept h
        pure true
      else pure false) := by
    refine Meter.Calm.bind (Calm.perform fun _ => rfl) fun r => ?_
    refine Meter.Calm.bind (.ofExcept r) fun io => ?_
    refine Meter.Calm.bind (checkStage_calm hh s _ io) fun b => ?_
    cases b with
    | false => exact .pure false
    | true =>
      refine Meter.Calm.bind (Calm.perform fun _ => rfl) fun h => ?_
      exact Meter.Calm.bind (.ofExcept h) fun _ => .pure true
  refine Meter.Once.tryCatch (F := fun _ => False) htry.once (fun e => ?_) (fun _ h => h.elim)
    (fun _ h => h.elim) fun _ h => h.elim
  cases e.what? with
  | some what => exact hh.once_pure .fail _ false
  | none => exact (Meter.Calm.raise e).once

theorem connectBody_once (s : Session) :
    (payments api K halts).Once (Gives false) (s.connectBody env error) := by
  unfold connectBody
  refine Meter.Calm.bind_once (Calm.perform fun _ => rfl) fun results => ?_
  refine Meter.Calm.bind_once (.ofExcept results) fun endpoints => ?_
  split
  · exact hh.once_pure _ _ false
  split
  · refine Meter.Calm.bind_once (Calm.perform fun _ => rfl) fun r => ?_
    refine Meter.Calm.bind_once (.ofExcept r) fun named => ?_
    cases named with
    | false => exact hh.once_pure _ _ false
    | true =>
      refine Meter.Once.bind (connectTls_once hh s) (fun b => ?_) ?_ (fun _ h => h) fun _ h => h
      · cases b with
        | false => exact (Meter.Calm.pure false).once
        | true =>
          refine Meter.Calm.bind_once (Calm.perform fun _ => rfl) fun h => ?_
          exact Meter.Calm.bind_once (.ofExcept h) fun h => (checkStage_calm hh s _ _).once
      · rintro b rfl
        exact .pure rfl
  · refine Meter.Calm.bind_once (Calm.perform fun _ => rfl) fun r => ?_
    exact Meter.Calm.bind_once (.ofExcept r) fun io => (checkStage_calm hh s _ io).once

theorem connect_once (s : Session) :
    (payments api K halts).Once (Gives false) (s.connect env error) := by
  refine Meter.Once.tryCatch (connectBody_once hh s) (fun e => ?_) (fun _ h => h)
    (fun _ h => h.elim) fun _ h => h
  cases e.what? with
  | some what => exact hh.once_pure .fail _ false
  | none => exact hh.once_pure .fail _ false

end Session

/-- **A connect that paid gives no client**: only a retry from inside it can have paid. -/
theorem Rpc.Client.connect_once (urlString : String) (verifySsl : Bool)
    (responseFail : ResponseHandler ν) :
    (payments api K halts).Once (Gives none)
      (Rpc.Client.connect env urlString verifySsl responseFail error) := by
  unfold Rpc.Client.connect
  refine Meter.Once.bind (Url.parse_once hh urlString) (fun url => ?_) ?_ (fun _ h => h)
    fun _ h => h
  · cases url with
    | none => exact (Meter.Calm.pure none).once
    | some url =>
      have hmake : (payments api K halts).Calm (make url verifySsl responseFail error) :=
        Meter.Calm.bind (.gets _) fun timeout => Meter.Calm.bind (.modifyGet _) fun s => .pure _
      refine Meter.Calm.bind_once hmake fun client => ?_
      refine Meter.Once.bind (client.session.connect_once hh) (fun b => ?_) ?_ (fun _ h => h)
        fun _ h => h
      · cases b with
        | true => exact (Meter.Calm.pure _).once
        | false => exact (Meter.Calm.pure _).once
      · rintro b rfl
        exact .pure rfl
  · rintro url rfl
    exact .pure rfl

end Connect

/-! ### Requests -/

/-- What a request in `K` may end with: a result that was read from a reply, or nothing.  It throws
nothing, unless the handler halts the process. -/
def Paid (api : Api) (halts : Prop) : Outcome Exn Stop (Option Json) → Prop
  | .ret v => ∀ r, v = some r → ∃ res, api.replyResult res = some r
  | .throw _ => halts
  | .stop _ => True

theorem Paid.of_gives {P : Prop} {o : Outcome Exn Stop (Option Json)} (h : o.Gives none) :
    Paid api P o := by
  cases o with
  | ret v =>
    obtain rfl : v = none := h
    simp [Paid]
  | throw e => exact h.elim
  | stop w => trivial

namespace RpcSession

/-- What `request` does after the write. -/
def afterWrite (env : Env ν) (api : Api) (s : Session) (body : Json)
    (responseFail : ResponseHandler ν) (error : ErrorHandler ν) (a : WriteAnswer) :
    M ν (Option Json) := do
  let io ← Prog.ofExcept a.result
  if io.failed then do
    error .timeout ("Sending request timeout " ++ io.what ++ ": " ++ s.address)
    pure none
  else
    match ← s.read env error with
    | some res => do
      Prog.emit (.reply body res)
      decodeReply env api body res responseFail
    | none => pure none

theorem requestBody_eq (env : Env ν) (api : Api) (s : Session) (body : Json)
    (responseFail : ResponseHandler ν) (error : ErrorHandler ν) :
    requestBody env api s body responseFail error = (do
      let data ← ofJson (api.dump body)
      let a ← perform (env.asyncWrite s (postRequest s body data))
        (.write s (postRequest s body data))
      afterWrite env api s body responseFail error a) := by
  unfold requestBody afterWrite Session.write
  simp only [bind_assoc]
  congr! 5 with data a
  funext io
  cases io.failed with
  | true => simp
  | false => rfl

variable {env : Env ν} {s : Session} {body : Json} {error : ErrorHandler ν}

/-- In the runs whose trace goes on from `pre` with the trace of `x` and is fair, `x` pays nothing,
and it ends as a request in `K` if `k` holds. -/
def Answers (api : Api) (K : HttpRequest → WriteAnswer → Prop) (halts k : Prop) (pre : List Event)
    (x : M ν (Option Json)) : Prop :=
  x.Ensures fun o t => (payments api K halts).Fair (pre ++ t) →
    (payments api K halts).spent t = 0 ∧ (k → Paid api halts o)

theorem Answers.of_quits {k : Prop} {pre : List Event} {x : M ν (Option Json)}
    (hx : (payments api K halts).Quits (Gives none) x) : Answers api K halts k pre x :=
  Prog.Ensures.mono hx fun _ _ h hfair =>
    have ht := (payments api K halts).fair_append hfair
    ⟨(h ht.2).1, fun _ => .of_gives (h ht.2).2⟩

/-- An event of the exchange moves to what came before. -/
theorem Answers.cons {k : Prop} {pre : List Event} {x : M ν (Option Json)} {e : Event}
    (he : e.isPayment = false) (hx : Answers api K halts k (pre ++ [e]) x) :
    x.Ensures fun o t => (payments api K halts).Fair (pre ++ e :: t) →
      (payments api K halts).spent (e :: t) = 0 ∧ (k → Paid api halts o) := by
  refine Prog.Ensures.mono hx fun o t h hfair => ?_
  rw [List.append_cons] at hfair
  have hspends : (payments api K halts).spends e = false := he
  rw [Meter.spent_cons, hspends]
  exact h hfair

/-- An exception that a steady run excludes. -/
theorem Answers.raise {k : Prop} {pre : List Event} {e : Exn}
    (h : k → Steady api K pre → False) :
    Answers api K halts k pre (Prog.raise e : M ν (Option Json)) := by
  refine Prog.Ensures.raise fun hfair => ⟨rfl, fun hk => ?_⟩
  rw [List.append_nil] at hfair
  exact hfair.resolve_right (h hk)

theorem decodeReply_answers {k : Prop} {pre : List Event} {m : String} {res : HttpResponse}
    (hm : methodOf body = some m)
    (hparse : k → Steady api K pre → res.status = HttpResponse.ok →
      ∃ j, api.parse res.data = .ok j) :
    Answers api K halts k pre (decodeReply env api body res logResponse) := by
  have hfail : Answers api K halts k pre (failReply env body res logResponse) := by
    rw [failReply, readMember_of_member (methodOf_eq_some.1 hm)]
    simp only [pure_bind, Json.getString, ofJson_ok]
    refine Prog.Ensures.emit_bind (Prog.Ensures.pure fun _ => ⟨rfl, fun _ => ?_⟩)
    rintro r ⟨⟩
  unfold decodeReply
  by_cases hok : res.status = HttpResponse.ok
  · simp only [hok, ↓reduceIte, pure_bind]
    cases hj : api.parse res.data with
    | error e =>
      rw [ofJson_error]
      change Answers api K halts k pre (Prog.raise (.json e))
      exact .raise fun hk hs => by simpa [hj] using hparse hk hs hok
    | ok j =>
      rw [ofJson_ok, pure_bind]
      cases hr : resultMember j with
      | none => exact hfail
      | some r =>
        refine Prog.Ensures.pure fun _ => ⟨rfl, fun _ => ?_⟩
        rintro r' ⟨⟩
        exact ⟨res, by simp [Api.replyResult, hok, hj, hr]⟩
  · simp only [hok, ↓reduceIte, pure_bind]
    exact hfail

/-- A steady run throws nothing after a write of a request in `K`. -/
theorem afterWrite_answers {m : String} (hh : Retries (payments api K halts) halts error)
    (hm : methodOf body = some m) (req : HttpRequest) (a : WriteAnswer) :
    Answers api K halts (K req a) [.write s req a]
      (afterWrite env api s body logResponse error a) := by
  unfold afterWrite
  rcases hw : a.result with e | io
  · exact Answers.raise fun hk hs => by simpa [hw] using hs.write s req a (by simp) hk
  rw [Prog.ofExcept_ok, pure_bind]
  cases io.failed with
  | true => exact .of_quits (hh.quits_pure (by simp) _ none)
  | false =>
    simp only [Bool.false_eq_true, ↓reduceIte, Session.read, bind_assoc]
    refine Prog.Ensures.perform_bind fun b => Answers.cons rfl ?_
    rcases hr : b.result with e | io
    · refine Answers.raise fun hk hs => ?_
      simpa [hr] using hs.read s req a b ⟨[], [], rfl⟩ hk
    rw [Prog.ofExcept_ok, pure_bind]
    cases io.failed with
    | true =>
      simp only [↓reduceIte, bind_assoc, pure_bind]
      exact .of_quits (hh.quits_pure (by simp) _ none)
    | false =>
      simp only [Bool.false_eq_true, ↓reduceIte, pure_bind]
      refine Prog.Ensures.emit_bind (Answers.cons rfl (decodeReply_answers hm fun hk hs hok => ?_))
      exact hs.reply s req a b body b.response ⟨[], [], rfl⟩ hk hok

/-- What the handler does about an exception in a request. -/
theorem handle_once (hh : Retries (payments api K halts) halts error) (e : Exn) :
    (payments api K halts).Once (Gives none) (do
      CatchClause.handle (requestClauses s) error e
      pure none : M ν (Option Json)) := by
  obtain ⟨code, text, heq⟩ := handle_eq s error e
  rw [heq]
  exact hh.once_pure code text none

theorem handle_halts (hh : Retries (payments api K halts) halts error) (h : halts) (e : Exn) :
    (payments api K halts).Quits Halted (do
      CatchClause.handle (requestClauses s) error e
      pure none : M ν (Option Json)) := by
  obtain ⟨code, text, heq⟩ := handle_eq s error e
  rw [heq]
  exact hh.halts_pure h code text none

theorem postRequest_method {m : String} (hm : methodOf body = some m) (data : String) :
    (postRequest s body data).payload.bind methodOf = some m := by
  simp [postRequest, HttpRequest.preparePayload, HttpRequest.set, hm]

theorem spends_write {m : String} (hm : methodOf body = some m) (data : String)
    (a : WriteAnswer) :
    (payments api K halts).spends (.write s (postRequest s body data) a) =
      (a.delivered && m == "send-transaction") := by
  simp [payments, Event.isPayment, postRequest_method hm]

/-- **A request that is not a payment** pays only in a retry, and gives nothing then. -/
theorem request_once {m : String} (hh : Retries (payments api K halts) halts error)
    (hm : methodOf body = some m) (hne : m ≠ "send-transaction") :
    (payments api K halts).Once (Gives none)
      (request env api s body logResponse error) := by
  -- the request itself does not pay, so that its exceptions may be retried
  have hbody : (payments api K halts).Calm (requestBody env api s body logResponse error) := by
    rw [requestBody_eq]
    refine Meter.Calm.bind (Calm.ofJson _) fun data => Prog.Ensures.perform_bind fun a => ?_
    refine Prog.Ensures.mono (afterWrite_answers hh hm (postRequest s body data) a) ?_
    intro o t h hfair
    rw [Meter.spent_cons, spends_write hm, beq_false_of_ne hne, Bool.and_false]
    exact (h hfair).1
  refine Meter.Calm.bind_once (.emit rfl) fun _ => ?_
  exact Meter.Once.tryCatch (F := fun _ => False) hbody.once (handle_once hh) (fun _ h => h.elim)
    (fun _ h => h.elim) fun _ h => h.elim

/-- **A request all of whose writes are in `K`** pays nothing. -/
theorem request_calm {m : String} (hh : Retries (payments api K halts) halts error)
    (hm : methodOf body = some m) (hne : m ≠ "send-transaction")
    (hdump : ∃ data, api.dump body = .ok data)
    (hK : ∀ req a, req.payload.bind methodOf = some m → K req a) :
    (payments api K halts).Calm (request env api s body logResponse error) := by
  obtain ⟨data, hdata⟩ := hdump
  have hbody : (payments api K halts).Quits (Paid api halts)
      (requestBody env api s body logResponse error) := by
    rw [requestBody_eq, hdata, ofJson_ok, pure_bind]
    refine Prog.Ensures.perform_bind fun a => ?_
    refine Prog.Ensures.mono (afterWrite_answers hh hm (postRequest s body data) a) ?_
    intro o t h hfair
    obtain ⟨hspent, hpaid⟩ := h hfair
    rw [Meter.spent_cons, spends_write hm, beq_false_of_ne hne, Bool.and_false]
    exact ⟨hspent, hpaid (hK _ _ (postRequest_method hm data))⟩
  refine Meter.Calm.bind (.emit rfl) fun _ => ?_
  have hrest : (payments api K halts).Quits (fun _ => True)
      ((requestBody env api s body logResponse error).tryCatch fun e => do
        CatchClause.handle (requestClauses s) error e
        pure none) :=
    hbody.tryCatch (fun _ _ => trivial)
      (fun e he => (handle_halts hh he e).mono fun _ _ => trivial) fun _ _ => trivial
  exact hrest.calm

/-- **A payment** is made at most once, and no exception follows it. -/
theorem request_paid (hh : Retries (payments api K halts) halts error)
    (hm : methodOf body = some "send-transaction")
    (hK : ∀ req a, a.delivered → req.payload.bind methodOf = some "send-transaction" → K req a) :
    (payments api K halts).Once (Paid api False) (request env api s body logResponse error) := by
  have hbody : (payments api K halts).Once (Paid api halts)
      (requestBody env api s body logResponse error) := by
    rw [requestBody_eq]
    refine Meter.Calm.bind_once (Calm.ofJson _) fun data => Prog.Ensures.perform_bind fun a => ?_
    refine Prog.Ensures.mono (afterWrite_answers hh hm (postRequest s body data) a) ?_
    intro o t h hfair
    obtain ⟨hspent, hpaid⟩ := h hfair
    rw [Meter.spent_cons, hspent, spends_write hm, beq_self_eq_true, Bool.and_true]
    -- a payment was made exactly if the node received the request
    cases hd : a.delivered with
    | false => exact .inl rfl
    | true => exact .inr ⟨rfl, hpaid (hK _ _ hd (postRequest_method hm data))⟩
  refine Meter.Calm.bind_once (.emit rfl) fun _ => ?_
  refine hbody.tryCatch (fun e => (handle_once hh e).mono fun _ => .of_gives) (fun _ h => h)
    (fun e he => ?_) fun _ h => h
  exact (handle_halts hh he e).mono fun o ho => .of_gives (ho.gives none)

end RpcSession

end Parts

end MileRpc
