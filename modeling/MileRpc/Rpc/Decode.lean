import MileRpc.Http.Client
import MileRpc.Rpc.Report

/-!
# Reading a reply

What the two clients make of a response that was read completely.

The clauses of `RpcSession::request` for the exceptions of the JSON library stand behind the clause
for their base class, so an exception of the decoding is always reported with the code of a failed
transport (`decode_errors_not_told_apart`).

Both clients read the body as a C string, so what stands behind a NUL byte is lost or ignored
(`body_fidelity_iff`).
-/

namespace MileRpc

variable {ν : Type} {env : Env ν} {api : Api}

/-! ### Exceptions of the decoding -/

namespace RpcSession

/-- The `try` block reads the reply `res` completely, and then the JSON exception `e` leaves it. -/
structure DecodeRaises (env : Env ν) (api : Api) (s : Session) (body : Json)
    (responseFail : ResponseHandler ν) (error : ErrorHandler ν) (w : World ν) (res : HttpResponse)
    (e : JsonError) : Prop where
  reply : .reply body res ∈ (requestBody env api s body responseFail error w).trace
  outcome : (requestBody env api s body responseFail error w).outcome = .throw (.json e)

/-- The error handler was called with `EXCEPTION` and never with `FAIL`. -/
def ToldApart (t : List Event) : Prop :=
  (∃ text, .report .exception text ∈ t) ∧ ∀ text, .report .fail text ∉ t

theorem report_fail_mem {s : Session} {body : Json} {responseFail : ResponseHandler ν}
    {error : ErrorHandler ν} {w : World ν} {e : JsonError}
    (h : (requestBody env api s body responseFail (recordError error) w).outcome =
      .throw (.json e)) :
    .report .fail ("json-rpc request: " ++ e.what ++ ": " ++ s.address) ∈
      (request env api s body responseFail (recordError error) w).trace := by
  rcases hrun : requestBody env api s body responseFail (recordError error) w with ⟨o, t, w'⟩
  rw [hrun] at h
  obtain rfl : o = .throw (.json e) := h
  rw [request, Prog.bind_of_ret (Prog.emit_apply _ w), Prog.tryCatch_of_throw hrun,
    Run.prepend_trace, Run.prepend_trace]
  refine List.mem_append_right _ (List.mem_append_right _ ?_)
  have hwhat : (Exn.json e).what? = some e.what := rfl
  rw [handle_std hwhat]
  exact Prog.mem_trace_bind_left (Prog.mem_trace_bind_left (by simp))

/-- **No exception of the decoding is told apart** from an error of the transport. -/
theorem decode_errors_not_told_apart {s : Session} {body : Json}
    {responseFail : ResponseHandler ν} {error : ErrorHandler ν} {w : World ν} {res : HttpResponse}
    {e : JsonError} (h : DecodeRaises env api s body responseFail (recordError error) w res e) :
    ¬ ToldApart (request env api s body responseFail (recordError error) w).trace :=
  fun hapart => hapart.2 _ (report_fail_mem h.outcome)

/-- A reply that is no JSON document. -/
theorem decodeRaises_sample :
    DecodeRaises (Env.answering fun n : Unit => (⟨200, "<html>"⟩, n)) (.sample []) .sample
      (command "get-current-block-id" .null 0) logResponse (recordError logError)
      (World.init ()) ⟨200, "<html>"⟩
      ⟨.parseError, "[json.exception.parse_error.101] parse error"⟩ where
  reply := .tail _ (.tail _ (.head _))
  outcome := rfl

/-- The same for that reply. -/
theorem decode_errors_not_told_apart_html :
    ¬ ToldApart (request (Env.answering fun n : Unit => (⟨200, "<html>"⟩, n)) (.sample []) .sample
      (command "get-current-block-id" .null 0) logResponse (recordError logError)
      (World.init ())).trace :=
  decode_errors_not_told_apart decodeRaises_sample

/-- A reply that is no JSON document is reported as an error of the transport. -/
theorem decode_errors_told_apart_fails :
    ¬ ∀ (env : Env Unit) (api : Api) (s : Session) (body : Json)
      (responseFail : ResponseHandler Unit) (error : ErrorHandler Unit) (w : World Unit)
      (res : HttpResponse) (e : JsonError),
      DecodeRaises env api s body responseFail (recordError error) w res e →
      ToldApart (request env api s body responseFail (recordError error) w).trace :=
  fun h => (h _ _ _ _ _ _ _ _ _ decodeRaises_sample).2 _
    (report_fail_mem decodeRaises_sample.outcome)

end RpcSession

/-! ### The body of a response -/

/-- From `w`, the session writes the request and reads the response. -/
def Exchanges (env : Env ν) (s : Session) (req : HttpRequest) (w : World ν) (res : HttpResponse) :
    Prop :=
  ∃ delivered n n', env.asyncWrite s req w.net = (⟨.ok .success, delivered⟩, n) ∧
    env.asyncRead s n = (⟨.ok .success, res⟩, n')

/-- The text is a JSON document: an object with the member `result`, which is `v` and not null. -/
def Carries (api : Api) (text : String) (v : Json) : Prop :=
  ∃ j, api.parse text = .ok j ∧ j.member? "result" = some v ∧ v.isNull = false

/-- The **whole** body is such a document; a NUL byte belongs to no document. -/
def HasResult (api : Api) (b : String) (v : Json) : Prop := NulFree b ∧ Carries api b v

theorem resultMember_eq_some {j v : Json} :
    resultMember j = some v ↔ j.member? "result" = some v ∧ v.isNull = false := by
  unfold resultMember
  cases hm : j.member? "result" with
  | none => simp
  | some x =>
    simp only [Option.some.injEq]
    split_ifs with hx
    · simp only [false_iff]
      rintro ⟨rfl, hv⟩
      simp [hx] at hv
    · constructor
      · rintro ⟨⟩
        exact ⟨rfl, by simpa using hx⟩
      · rintro ⟨rfl, -⟩
        rfl

theorem data_eq_iff {res : HttpResponse} : res.data = res.body ↔ NulFree res.body := by
  rw [HttpResponse.data, ← String.toList_inj, String.toList_ofList, cStr,
    List.takeWhile_eq_self_iff]
  simp [NulFree, List.forall_mem_ne']

namespace Exchanges

variable {s : Session} {req : HttpRequest} {w : World ν} {res : HttpResponse}

theorem run (h : Exchanges env s req w res) (error : ErrorHandler ν) :
    ∃ t u w₁ w₂, s.write env req error w = ⟨.ret true, t, w₁⟩ ∧
      s.read env error w₁ = ⟨.ret (some res), u, w₂⟩ := by
  obtain ⟨delivered, n, n', hw, hr⟩ := h
  refine ⟨[.write s req ⟨.ok .success, delivered⟩], [.read s ⟨.ok .success, res⟩], w.setNet n,
    w.setNet n', ?_, ?_⟩
  · rw [Session.write, perform_bind_apply, hw]
    rfl
  · rw [Session.read, perform_bind_apply, World.setNet_net, hr]
    rfl

end Exchanges

theorem Http.Client.get_outcome {c : Http.Client ν} {w : World ν} {res : HttpResponse}
    (h : Exchanges env c.session (getRequest c.session) w res)
    (hok : res.status = HttpResponse.ok) :
    (get env c w).outcome = .ret (some res.data) := by
  obtain ⟨t, u, w₁, w₂, hw, hr⟩ := h.run c.error
  have hbody : getBody env c w = ⟨.ret (some res.data), t ++ u, w₂⟩ := by
    rw [getBody, Prog.bind_of_ret hw]
    simp only [↓reduceIte]
    rw [Prog.bind_of_ret hr]
    simp [hok, Run.prepend]
  rw [get, Prog.tryCatch_of_ret hbody]

namespace RpcSession

variable {s : Session} {body : Json} {responseFail : ResponseHandler ν} {error : ErrorHandler ν}
  {w : World ν} {res : HttpResponse} {v : Json}

theorem failReply_ne_some : (failReply env body res responseFail w).outcome ≠ .ret (some v) := by
  intro h
  obtain ⟨method, -, h⟩ := Prog.bind_outcome_eq_ret_iff.1 h
  obtain ⟨method, -, h⟩ := Prog.bind_outcome_eq_ret_iff.1 h
  obtain ⟨-, -, h⟩ := Prog.bind_outcome_eq_ret_iff.1 h
  cases h

theorem decodeReply_outcome_iff (hok : res.status = HttpResponse.ok) :
    (decodeReply env api body res responseFail w).outcome = .ret (some v) ↔
      Carries api res.data v := by
  unfold decodeReply Carries
  simp only [hok, ↓reduceIte]
  cases hp : api.parse res.data with
  | error e => simp [Prog.bind_outcome_eq_ret_iff]
  | ok j =>
    simp only [ofJson_ok, pure_bind, Except.ok.injEq, exists_eq_left', ← resultMember_eq_some]
    cases hr : resultMember j with
    | none => simp [failReply_ne_some]
    | some x => simp

theorem request_outcome_iff {data : String} (hdump : api.dump body = .ok data)
    (h : Exchanges env s (postRequest s body data) w res) (hok : res.status = HttpResponse.ok) :
    (request env api s body responseFail error w).outcome = .ret (some v) ↔
      Carries api res.data v := by
  obtain ⟨t, u, w₁, w₂, hw, hr⟩ := h.run error
  rw [request, Prog.bind_of_ret (Prog.emit_apply _ w), Run.prepend_outcome,
    Prog.tryCatch_outcome_eq_ret_iff]
  · rw [requestBody, hdump, ofJson_ok, pure_bind, Prog.bind_of_ret hw]
    simp only [↓reduceIte]
    rw [Run.prepend_outcome, Prog.bind_of_ret hr, Run.prepend_outcome]
    exact decodeReply_outcome_iff (w := w₂) hok
  · -- a handled exception returns nothing
    intro e w' hret
    obtain ⟨-, -, hret⟩ := Prog.bind_outcome_eq_ret_iff.1 hret
    cases hret

end RpcSession

/-- **When a body is read faithfully.**  For a successful response, `get` returns the body if and
only if it has no NUL byte; `request` returns exactly the results of the whole body if and only if
it has no NUL byte or what stands before the first one has no result either. -/
theorem body_fidelity_iff {c : Http.Client ν} {s : Session} {body : Json} {data : String}
    {responseFail : ResponseHandler ν} {error : ErrorHandler ν} {w w' : World ν}
    {res : HttpResponse} (hok : res.status = HttpResponse.ok)
    (hget : Exchanges env c.session (Http.Client.getRequest c.session) w res)
    (hdump : api.dump body = .ok data)
    (hpost : Exchanges env s (RpcSession.postRequest s body data) w' res) :
    ((Http.Client.get env c w).outcome = .ret (some res.body) ↔ NulFree res.body) ∧
    ((∀ v, (RpcSession.request env api s body responseFail error w').outcome = .ret (some v) ↔
        HasResult api res.body v) ↔
      NulFree res.body ∨ ∀ v, ¬ Carries api (String.ofList (cStr res.body)) v) := by
  constructor
  · rw [Http.Client.get_outcome hget hok, ← data_eq_iff]
    simp
  · simp only [RpcSession.request_outcome_iff hdump hpost hok]
    by_cases hnul : NulFree res.body
    · have hdata := data_eq_iff.2 hnul
      simp [hdata, HasResult, hnul]
    · simp only [HasResult, hnul, false_and, iff_false, false_or]
      rfl

/-- A body with a result, in which something stands behind a NUL byte. -/
def cutBody : String := (Json.object [("result", .integer 7)]).text ++ "\x00x"

/-- The library that reads what stands before it. -/
def cutApi : Api := .sample [.object [("result", .integer 7)]]

/-- An outside that answers with this body. -/
def cutNode : Env Unit := .answering fun n => (⟨200, cutBody⟩, n)

theorem body_fidelity_iff_cut :
    ((Http.Client.get cutNode ⟨Url.init "http://h", false, .sample, logError⟩
        (World.init ())).outcome = .ret (some cutBody) ↔ NulFree cutBody) ∧
    ((∀ v, (RpcSession.request cutNode cutApi .sample .null logResponse logError
        (World.init ())).outcome = .ret (some v) ↔ HasResult cutApi cutBody v) ↔
      NulFree cutBody ∨ ∀ v, ¬ Carries cutApi (String.ofList (cStr cutBody)) v) :=
  body_fidelity_iff rfl (show Exchanges _ _ _ _ ⟨200, cutBody⟩ from ⟨_, _, _, rfl, rfl⟩) rfl
    ⟨_, _, _, rfl, rfl⟩

/-- What stands behind a NUL byte is lost: a `get` returns a part of the body, and a request the
result of that part, though the whole body is no document. -/
theorem body_fidelity_fails :
    (¬ ∀ (env : Env Unit) (c : Http.Client Unit) (w : World Unit) (res : HttpResponse),
      res.status = HttpResponse.ok →
      Exchanges env c.session (Http.Client.getRequest c.session) w res →
      (Http.Client.get env c w).outcome = .ret (some res.body)) ∧
    ¬ ∀ (env : Env Unit) (api : Api) (s : Session) (body : Json) (data : String)
      (responseFail : ResponseHandler Unit) (error : ErrorHandler Unit) (w : World Unit)
      (res : HttpResponse), res.status = HttpResponse.ok → api.dump body = .ok data →
      Exchanges env s (RpcSession.postRequest s body data) w res →
      ∀ v, (RpcSession.request env api s body responseFail error w).outcome = .ret (some v) ↔
        HasResult api res.body v := by
  have hnul : ¬ NulFree cutBody := fun h => h (by decide)
  constructor
  · intro h
    have hread : Exchanges cutNode .sample (Http.Client.getRequest .sample) (World.init ())
        ⟨200, cutBody⟩ := ⟨_, _, _, rfl, rfl⟩
    have hget := h cutNode ⟨Url.init "http://h", false, .sample, logError⟩ (World.init ())
      ⟨200, cutBody⟩ rfl hread
    rw [Http.Client.get_outcome hread rfl, Outcome.ret.injEq, Option.some.injEq,
      data_eq_iff] at hget
    exact hnul hget
  · intro h
    have hpost : Exchanges cutNode .sample (RpcSession.postRequest .sample .null Json.null.text)
        (World.init ()) ⟨200, cutBody⟩ := ⟨_, _, _, rfl, rfl⟩
    have hresult := h cutNode cutApi .sample .null _ logResponse logError (World.init ())
      ⟨200, cutBody⟩ rfl rfl hpost (.integer 7)
    rw [RpcSession.request_outcome_iff rfl hpost rfl] at hresult
    exact hnul (hresult.1 ⟨.object [("result", .integer 7)], by rfl, rfl, rfl⟩).1

end MileRpc
