import MileRpc.Session.Basic

/-!
# JSON-RPC requests

`RpcSession::request` sends one JSON-RPC command over a session and decodes the reply,
`RpcSession::next_command` makes the commands.

An exception inside `request` is handled by the first of its `catch` clauses that matches
(`requestClauses`).  The first clause catches `std::exception`, the base class of every exception
of the JSON library, so the five clauses for those exceptions are never reached.

`Requested` says everything a request can do when its handlers return: it either returns the result
member of a reply it read completely, or returns nothing after exactly one call of a handler.
-/

namespace MileRpc

/-- `milecsa::rpc::user_agent` -/
def userAgent : String := "MILE CLI Walletv1.0"

/-- A `catch` clause that calls the error handler: the exceptions it matches, and the code and the
text that it reports for the text of the exception. -/
structure CatchClause where
  catches : Exn → Bool
  code : ResultCode
  text : String → String

namespace CatchClause

/-- `catch (std::exception const &)` -/
def std (code : ResultCode) (text : String → String) : CatchClause :=
  ⟨fun e => e.what?.isSome, code, text⟩

/-- `catch (nlohmann::json::...&)` -/
def json (kind : JsonErrorKind) (text : String → String) : CatchClause :=
  ⟨fun e => match e with
    | .json j => decide (j.kind = kind)
    | _ => false, .exception, text⟩

/-- `catch (...)` -/
def any (text : String) : CatchClause := ⟨fun _ => true, .exception, fun _ => text⟩

/-- Handle an exception by the first clause that matches; the report is the whole clause. -/
def handle {ν : Type} (clauses : List CatchClause) (error : ErrorHandler ν) (e : Exn) : M ν Unit :=
  match clauses.find? (·.catches e) with
  | some c => error c.code (c.text (e.what?.getD ""))
  | none => Prog.raise e

theorem handle_eq {ν : Type} {clauses : List CatchClause} {e : Exn} (error : ErrorHandler ν)
    (h : clauses.any (·.catches e) = true) :
    ∃ k ∈ clauses, ∃ text, handle clauses error e = error k.code text := by
  obtain ⟨c, hc⟩ := Option.isSome_iff_exists.1 (List.find?_isSome.2 (List.any_eq_true.1 h))
  exact ⟨c, List.mem_of_find?_eq_some hc, _, by rw [handle, hc]⟩

end CatchClause

/-! ### Commands -/

/-- The command with a given id. -/
def command (method : String) (params : Json) (id : UInt64) : Json :=
  .object [("jsonrpc", .string "2.0"), ("method", .string method), ("params", params),
    ("id", .integer id.toNat), ("version", .float ⟨0, 0⟩)]

/-- `next_command(method, params)` -/
def nextCommand {ν : Type} (method : String) (params : Json) : M ν Json :=
  Prog.modifyGet fun w => (command method params w.nextId, { w with nextId := w.nextId + 1 })

/-- The JSON-RPC method of a command. -/
def methodOf (body : Json) : Option String :=
  match body.member? "method" with
  | some (.string m) => some m
  | _ => none

@[simp] theorem methodOf_command (method : String) (params : Json) (id : UInt64) :
    methodOf (command method params id) = some method := by
  simp [methodOf, command, List.lookup_cons]

theorem methodOf_eq_some {body : Json} {m : String} :
    methodOf body = some m ↔ body.member? "method" = some (.string m) := by
  unfold methodOf
  split <;> simp_all

theorem methodOf_set_params (method : String) (params x : Json) (id : UInt64) :
    methodOf ((command method params id).set "params" x) = some method := by
  rw [methodOf_eq_some, command, Json.member?_set_of_ne _ (by decide)]
  simp [List.lookup_cons]

/-! ### Requests -/

/-- The result member of a JSON value, unless it is null. -/
def resultMember (j : Json) : Option Json :=
  -- `count` is 0 on anything but an object
  match j.member? "result" with
  | some v => if v.isNull then none else some v
  | none => none

/-- The result that a reply carries. -/
def Api.replyResult (api : Api) (res : HttpResponse) : Option Json :=
  if res.status = HttpResponse.ok then
    match api.parse res.data with
    | .ok j => resultMember j
    | .error _ => none
  else none

namespace RpcSession

variable {ν : Type}

/-- The HTTP request that carries `body`, dumped as `data`. -/
def postRequest (s : Session) (body : Json) (data : String) : HttpRequest :=
  let req := HttpRequest.init .post s.target
  let req := req.set "Host" s.host
  let req := req.set "User-Agent" userAgent
  let req := req.set "Content-Type" "application/json"
  let req := req.set "Content-Length" (toString data.length)
  { req with body := data, payload := some body }.preparePayload

/-- The `catch` clauses of `request`, in order. -/
def requestClauses (s : Session) : List CatchClause :=
  [.std .fail fun what => "json-rpc request: " ++ what ++ ": " ++ s.address,
   .json .parseError fun what => "json-rpc request: parse error: " ++ what,
   .json .invalidIterator fun what => "json-rpc request: invalid iterator error: " ++ what,
   .json .typeError fun what => "json-rpc request: type error: " ++ what,
   .json .outOfRange fun what => "json-rpc request: out of range error: " ++ what,
   .json .otherError fun what => "json-rpc request: other error: " ++ what,
   .any "json-rpc request: unknown error"]

/-- What `request` does with a reply without a result. -/
def failReply (env : Env ν) (body : Json) (res : HttpResponse) (responseFail : ResponseHandler ν) :
    M ν (Option Json) := do
  let method ← readMember env body "method"
  let method ← ofJson method.getString
  responseFail res.status method res
  pure none

/-- What `request` does with a reply it has read. -/
def decodeReply (env : Env ν) (api : Api) (body : Json) (res : HttpResponse)
    (responseFail : ResponseHandler ν) : M ν (Option Json) := do
  let result ← if res.status = HttpResponse.ok then do
      let json ← ofJson (api.parse res.data)
      pure (resultMember json)
    else pure none
  match result with
  | some r => pure (some r)
  | none => failReply env body res responseFail

/-- The `try` block of `request`. -/
def requestBody (env : Env ν) (api : Api) (s : Session) (body : Json)
    (responseFail : ResponseHandler ν) (error : ErrorHandler ν) : M ν (Option Json) := do
  let data ← ofJson (api.dump body)
  if ← s.write env (postRequest s body data) error then do
    match ← s.read env error with
    | some res => do
      Prog.emit (.reply body res)
      decodeReply env api body res responseFail
    | none => pure none
  else pure none

/-- `request(body, response_fail_handler, error_handler)` -/
def request (env : Env ν) (api : Api) (s : Session) (body : Json)
    (responseFail : ResponseHandler ν) (error : ErrorHandler ν) : M ν (Option Json) := do
  Prog.emit (.request body)
  (requestBody env api s body responseFail error).tryCatch fun e => do
    CatchClause.handle (requestClauses s) error e
    pure none

/-- **The clauses for the JSON exceptions are dead**: every exception derived from
`std::exception` is reported with code `FAIL`. -/
theorem handle_std {s : Session} {error : ErrorHandler ν} {e : Exn} {what : String}
    (h : e.what? = some what) :
    CatchClause.handle (requestClauses s) error e =
      error .fail ("json-rpc request: " ++ what ++ ": " ++ s.address) := by
  simp [CatchClause.handle, requestClauses, CatchClause.std, h]

theorem handle_eq (s : Session) (error : ErrorHandler ν) (e : Exn) :
    ∃ code text, CatchClause.handle (requestClauses s) error e = error code text := by
  have hany : (requestClauses s).any (·.catches e) = true := by
    simp [requestClauses, CatchClause.any]
  obtain ⟨k, -, text, h⟩ := CatchClause.handle_eq error hany
  exact ⟨k.code, text, h⟩

end RpcSession

/-! ### What a request does -/

/-- The events of an exchange about `body`. -/
def Event.IsExchange (body : Json) : Event → Prop
  | .write _ req _ => req.payload = some body
  | .read _ _ => True
  | .reply b _ => b = body
  | _ => False

/-- The handlers return, and what they do satisfies `H`. -/
structure HandlersReturn {ν : Type} (H : List Event → Prop) (responseFail : ResponseHandler ν)
    (error : ErrorHandler ν) : Prop where
  responseFail : ∀ status method res, (responseFail status method res).Ensures fun o t =>
    o = .ret () ∧ H t
  error : ∀ code text, (error code text).Ensures fun o t => o = .ret () ∧ H t

/-- What a request of `body` does if the handlers return: `io` are the events of the exchange. -/
inductive Requested (api : Api) (body : Json) (H : List Event → Prop) :
    Outcome Exn Stop (Option Json) → List Event → Prop
  /-- A reply with a result was read; no handler was called. -/
  | answered {io : List Event} {res : HttpResponse} {r : Json} :
      (∀ e ∈ io, e.IsExchange body) → (∀ res', .reply body res' ∈ io ↔ res' = res) →
      api.replyResult res = some r →
      Requested api body H (.ret (some r)) (.request body :: io)
  /-- No reply with a result was read; one handler was called, with the events `h`. -/
  | failed {io h : List Event} : (∀ e ∈ io, e.IsExchange body) →
      (∀ res, .reply body res ∈ io → api.replyResult res = none) → H h →
      Requested api body H (.ret none) (.request body :: (io ++ h))

namespace RpcSession

variable {ν : Type} {H : List Event → Prop} {responseFail : ResponseHandler ν}
  {error : ErrorHandler ν}

/-- What the `try` block does: as `Requested`, or an exception before any handler was called. -/
inductive Tried (api : Api) (body : Json) (H : List Event → Prop) :
    Outcome Exn Stop (Option Json) → List Event → Prop
  | answered {io : List Event} {res : HttpResponse} {r : Json} :
      (∀ e ∈ io, e.IsExchange body) → (∀ res', .reply body res' ∈ io ↔ res' = res) →
      api.replyResult res = some r →
      Tried api body H (.ret (some r)) io
  | failed {io h : List Event} : (∀ e ∈ io, e.IsExchange body) →
      (∀ res, .reply body res ∈ io → api.replyResult res = none) → H h →
      Tried api body H (.ret none) (io ++ h)
  | thrown {io : List Event} {e : Exn} : (∀ e ∈ io, e.IsExchange body) →
      (∀ res, .reply body res ∈ io → api.replyResult res = none) → Tried api body H (.throw e) io

/-- A handler call at the end of an exchange without a result. -/
theorem Tried.of_handler {api : Api} {body : Json} {x : M ν Unit} {io : List Event}
    (hx : x.Ensures fun o t => o = .ret () ∧ H t) (hio : ∀ e ∈ io, e.IsExchange body)
    (hno : ∀ res, .reply body res ∈ io → api.replyResult res = none) :
    (do x; pure none : M ν (Option Json)).Ensures fun o t => Tried api body H o (io ++ t) := by
  refine hx.bind ?_ ?_ ?_
  · rintro ⟨⟩ t ⟨-, ht⟩
    refine Prog.Ensures.pure ?_
    rw [List.append_nil]
    exact .failed hio hno ht
  · rintro e t ⟨h, -⟩
    cases h
  · rintro w t ⟨h, -⟩
    cases h

theorem decodeReply_ensures {env : Env ν} {api : Api} {body : Json} {m : String}
    {res : HttpResponse} (hh : HandlersReturn H responseFail error)
    (hm : methodOf body = some m) {io : List Event} (hio : ∀ e ∈ io, e.IsExchange body)
    (hres : ∀ r, .reply body r ∈ io ↔ r = res) :
    (decodeReply env api body res responseFail).Ensures fun o t =>
      Tried api body H o (io ++ t) := by
  have hfail : api.replyResult res = none →
      (failReply env body res responseFail).Ensures fun o t => Tried api body H o (io ++ t) := by
    intro hnone
    rw [failReply, readMember_of_member (methodOf_eq_some.1 hm)]
    simp only [pure_bind, Json.getString, ofJson_ok]
    exact Tried.of_handler (hh.responseFail _ _ _) hio fun r hr => by rwa [(hres r).1 hr]
  unfold decodeReply
  -- a reply without a result is failed, with either status
  by_cases hs : res.status = HttpResponse.ok
  · simp only [hs, ↓reduceIte, pure_bind]
    refine Prog.Ensures.ofJson_bind (fun j hj => ?_) fun e he => ?_
    · cases hr : resultMember j with
      | none =>
        exact hfail (by simp [Api.replyResult, hs, hj, hr])
      | some r =>
        refine Prog.Ensures.pure ?_
        rw [List.append_nil]
        exact .answered hio hres (by simp [Api.replyResult, hs, hj, hr])
    · rw [List.append_nil]
      exact .thrown hio fun r hr => by simp [(hres r).1 hr, Api.replyResult, hs, he]
  · simp only [hs, ↓reduceIte, pure_bind]
    exact hfail (by simp [Api.replyResult, hs])

theorem requestBody_ensures {env : Env ν} {api : Api} {s : Session} {body : Json} {m : String}
    (hh : HandlersReturn H responseFail error) (hm : methodOf body = some m) :
    (requestBody env api s body responseFail error).Ensures (Tried api body H) := by
  unfold requestBody
  refine Prog.Ensures.ofJson_bind (fun data _ => ?_) fun e _ => .thrown (by simp) (by simp)
  simp only [Session.write, bind_assoc]
  refine Prog.Ensures.perform_bind fun a => ?_
  have hw : ∀ e ∈ [Event.write s (postRequest s body data) a], e.IsExchange body := by
    simp [Event.IsExchange, postRequest, HttpRequest.preparePayload, HttpRequest.set]
  refine Prog.Ensures.ofExcept_bind (fun io _ => ?_) fun e _ => .thrown hw (by simp)
  cases io.failed with
  | true =>
    -- a failed write is reported, and nothing is read
    simp only [↓reduceIte, bind_assoc, pure_bind, Bool.false_eq_true]
    exact Tried.of_handler (hh.error _ _) hw (by simp)
  | false =>
    simp only [↓reduceIte, pure_bind, Bool.false_eq_true, Session.read, bind_assoc]
    refine Prog.Ensures.perform_bind fun b => ?_
    have hr : ∀ e ∈ [Event.write s (postRequest s body data) a, .read s b],
        e.IsExchange body := by
      simpa [Event.IsExchange] using hw
    refine Prog.Ensures.ofExcept_bind (fun io _ => ?_) fun e _ => .thrown hr (by simp)
    cases io.failed with
    | true =>
      simp only [↓reduceIte, bind_assoc, pure_bind]
      exact Tried.of_handler (hh.error _ _) hr (by simp)
    | false =>
      simp only [Bool.false_eq_true, ↓reduceIte, pure_bind]
      refine Prog.Ensures.emit_bind ?_
      have hp : ∀ e ∈ [Event.write s (postRequest s body data) a, .read s b,
          .reply body b.response], e.IsExchange body := by
        simpa [Event.IsExchange] using hw
      exact decodeReply_ensures hh hm hp (by simp)

/-- **A request whose handlers return** reads a reply with a result and calls no handler, or
returns nothing after exactly one handler call. -/
theorem request_ensures {env : Env ν} {api : Api} {s : Session} {body : Json} {m : String}
    (hh : HandlersReturn H responseFail error) (hm : methodOf body = some m) :
    (request env api s body responseFail error).Ensures (Requested api body H) := by
  unfold request
  refine Prog.Ensures.emit_bind ((requestBody_ensures hh hm).tryCatch ?_ ?_ ?_)
  · intro r t ht
    cases ht with
    | answered h1 h2 h3 => exact .answered h1 h2 h3
    | failed h1 h2 h3 => exact .failed h1 h2 h3
  · intro e t ht
    cases ht with
    | thrown h1 h2 =>
      obtain ⟨code, text, heq⟩ := handle_eq s error e
      rw [heq]
      refine (hh.error code text).bind ?_ ?_ ?_
      · rintro ⟨⟩ h ⟨-, hH⟩
        refine Prog.Ensures.pure ?_
        rw [List.append_nil]
        exact .failed h1 h2 hH
      · rintro e' h ⟨h', -⟩
        cases h'
      · rintro w h ⟨h', -⟩
        cases h'
  · intro w t ht
    cases ht

end RpcSession

end MileRpc
