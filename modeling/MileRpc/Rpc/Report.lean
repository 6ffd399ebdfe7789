import MileRpc.Session.Report
import MileRpc.Rpc.Client

/-!
# One report for each failure

`RpcSession::request` writes and reads, which report their own failures, inside a `try` block with
seven clauses that report too.  No failure is reported twice and none is missed: a request whose
handlers return has called one handler exactly if it returns nothing, and so it is for `connect`,
`write` and `read` (`failures_report_once`).

The handlers are recorded: `recordError` leaves the event of the call and then runs the handler, so
that the events of a handler follow the event of its call.
-/

namespace MileRpc

variable {ν : Type} {env : Env ν} {api : Api} {H : Outcome Exn Stop Unit → List Event → Prop}
  {responseFail : ResponseHandler ν} {error : ErrorHandler ν} {io : List Event}

namespace RpcSession

variable (hh : HandlersEnd H responseFail error)
include hh

theorem decodeReply_accounts {body : Json} {m : String} (hm : methodOf body = some m)
    (res : HttpResponse) :
    Accounts Event.isSession H True (fun r _ => r ≠ none) (· = none) io
      (decodeReply env api body res responseFail) := by
  have hfail : Accounts Event.isSession H True (fun r _ => r ≠ none) (· = none) io
      (failReply env body res responseFail) := by
    rw [failReply, readMember_of_member (methodOf_eq_some.1 hm), pure_bind]
    exact .ofJson_bind fun method _ => .report (hh.responseFail _ _ _) rfl
  unfold decodeReply
  by_cases hs : res.status = HttpResponse.ok
  · simp only [hs, ↓reduceIte, pure_bind]
    refine .ofJson_bind fun j _ => ?_
    cases resultMember j with
    | none => exact hfail
    | some v => exact .pure (by simp)
  · simp only [hs, ↓reduceIte, pure_bind]
    exact hfail

theorem requestBody_accounts {s : Session} {body : Json} {m : String}
    (hm : methodOf body = some m) :
    Accounts Event.isSession H True (fun r _ => r ≠ none) (· = none) io
      (requestBody env api s body responseFail error) := by
  refine .ofJson_bind fun data _ => Accounts.bind (Session.write_accounts hh s _) ?_ ?_
  · rintro b t rfl
    refine Accounts.bind (Session.read_accounts hh s) ?_ ?_
    · intro r t hr
      obtain ⟨res, rfl⟩ := Option.ne_none_iff_exists'.1 hr
      exact .emit_bind rfl (decodeReply_accounts hh hm res)
    · rintro r rfl
      exact ⟨none, rfl, rfl⟩
  · rintro b rfl
    exact ⟨none, rfl, rfl⟩

/-- **A request accounts for its failures**, and throws only what a handler throws. -/
theorem request_accounts {s : Session} {body : Json} {m : String} (hm : methodOf body = some m) :
    Accounts Event.isSession H False (fun r _ => r ≠ none) (· = none) io
      (request env api s body responseFail error) := by
  refine .emit_bind rfl (Accounts.tryCatch (requestBody_accounts hh hm) fun _ e t => ?_)
  obtain ⟨code, text, heq⟩ := handle_eq s error e
  rw [heq]
  exact .report (hh.error _ _) rfl

end RpcSession

/-! ### Recorded handlers -/

/-- The error handler that leaves the event of its call first. -/
def recordError (error : ErrorHandler ν) : ErrorHandler ν := fun code text => do
  Prog.emit (.report code text)
  error code text

/-- The response handler that leaves the event of its call first. -/
def recordResponse (responseFail : ResponseHandler ν) : ResponseHandler ν :=
  fun status method res => do
    Prog.emit (.responseFail status method)
    responseFail status method res

/-- The events of one call of a recorded handler. -/
inductive HandlerRun (responseFail : ResponseHandler ν) (error : ErrorHandler ν) :
    List Event → Prop
  | error (code : ResultCode) (text : String) (w : World ν) :
      HandlerRun responseFail error (.report code text :: (error code text w).trace)
  | responseFail (status : ℕ) (method : String) (res : HttpResponse) (w : World ν) :
      HandlerRun responseFail error
        (.responseFail status method :: (responseFail status method res w).trace)

/-- The handlers return. -/
structure HandlersReturnOnly (responseFail : ResponseHandler ν) (error : ErrorHandler ν) :
    Prop where
  responseFail : ∀ status method res w, (responseFail status method res w).outcome = .ret ()
  error : ∀ code text w, (error code text w).outcome = .ret ()

theorem HandlersReturnOnly.handlersEnd (hr : HandlersReturnOnly responseFail error) :
    HandlersEnd (fun o h => o = .ret () ∧ HandlerRun responseFail error h)
      (recordResponse responseFail) (recordError error) where
  responseFail status method res w := ⟨hr.responseFail status method res w, .responseFail ..⟩
  error code text w := ⟨hr.error code text w, .error ..⟩

/-- A success without a handler call, or a failure that ends with exactly one. -/
def ReportsOnce (responseFail : ResponseHandler ν) (error : ErrorHandler ν) (success : Prop)
    (t : List Event) : Prop :=
  (success ∧ Working Event.isSession t) ∨
    (¬ success ∧ ∃ io h, t = io ++ h ∧ Working Event.isSession io ∧
      HandlerRun responseFail error h)

section Once

variable {α : Type} {T : Prop} {ok : α → List Event → Prop} {bad : α → Prop}
  {o : Outcome Exn Stop α} {t : List Event}

theorem Accounted.reportsOnce (success : α → Prop)
    (h : Accounted Event.isSession (fun o h => o = .ret () ∧ HandlerRun responseFail error h) T ok
      bad o t)
    (hok : ∀ a t, ok a t → success a) (hbad : ∀ a, bad a → ¬ success a) {a : α}
    (ho : o = .ret a) : ReportsOnce responseFail error (success a) t := by
  cases h with
  | succeeded hw ha =>
    cases ho
    exact .inl ⟨hok _ _ ha, hw⟩
  | failed hw hh ha =>
    cases ho
    exact .inr ⟨hbad _ ha, _, _, rfl, hw, hh.2⟩
  | escaped u hw hh => simp at hh
  | _ => cases ho

theorem Accounted.returns
    (h : Accounted Event.isSession (fun o h => o = .ret () ∧ HandlerRun responseFail error h) False
      ok bad o t) :
    ∃ a, o = .ret a := by
  cases h with
  | succeeded => exact ⟨_, rfl⟩
  | failed => exact ⟨_, rfl⟩
  | thrown hT => exact hT.elim
  | stopped hw hh => simp at hh
  | escaped u hw hh => simp at hh

end Once

/-- **Exactly one report for each failure.**  With handlers that return, and whatever the outside
does, a connect, a write, a read and a request end with exactly one call of a handler if they fail,
and call none if they succeed; `connect` and `request` always return. -/
theorem failures_report_once (env : Env ν) (api : Api) (s : Session)
    (hr : HandlersReturnOnly responseFail error) :
    ((s.connect env (recordError error)).Ensures fun o t =>
      ∃ b, o = .ret b ∧ ReportsOnce responseFail error (b = true) t) ∧
    (∀ req, (s.write env req (recordError error)).Ensures fun o t =>
      ∀ b, o = .ret b → ReportsOnce responseFail error (b = true) t) ∧
    ((s.read env (recordError error)).Ensures fun o t =>
      ∀ r, o = .ret r → ReportsOnce responseFail error (r ≠ none) t) ∧
    ∀ method params id, (RpcSession.request env api s (command method params id)
      (recordResponse responseFail) (recordError error)).Ensures fun o t =>
        ∃ r, o = .ret r ∧ ReportsOnce responseFail error (r ≠ none) t := by
  have hh := hr.handlersEnd
  refine ⟨fun w => ?_, fun req w b hb => ?_, fun w r hb => ?_, fun method params id w => ?_⟩
  · have hconnect : Accounts _ _ _ _ _ [] (s.connect env (recordError error)) :=
      Session.connect_accounts hh Event.isSession_of_isConnect s
    have h := hconnect Working.nil w
    obtain ⟨b, hb⟩ := h.returns
    exact ⟨b, hb, h.reportsOnce (· = true) (fun _ _ h => h.1) (by simp) hb⟩
  · have hwrite : Accounts _ _ _ _ _ [] (s.write env req (recordError error)) :=
      Session.write_accounts hh s req
    exact (hwrite Working.nil w).reportsOnce (· = true) (fun _ _ h => h) (by simp) hb
  · have hread : Accounts _ _ _ _ _ [] (s.read env (recordError error)) :=
      Session.read_accounts hh s
    exact (hread Working.nil w).reportsOnce (· ≠ none) (fun _ _ h => h) (by simp) hb
  · have hrequest : Accounts _ _ _ _ _ [] (RpcSession.request env api s (command method params id)
        (recordResponse responseFail) (recordError error)) :=
      RpcSession.request_accounts hh (methodOf_command method params id)
    have h := hrequest Working.nil w
    obtain ⟨r, hb⟩ := h.returns
    exact ⟨r, hb, h.reportsOnce (· ≠ none) (fun _ _ h => h) (by simp) hb⟩

/-- An outside in which a connect times out, and writing and reading fail. -/
def brokenNode : Env Unit :=
  { Env.answering (fun n => (⟨200, ""⟩, n)) with
    asyncConnect := fun _ n => (.ok ⟨none, false⟩, n)
    asyncWrite := fun _ _ n => (⟨.ok ⟨some "Broken pipe", true⟩, false⟩, n)
    asyncRead := fun _ n => (⟨.ok ⟨some "End of file", true⟩, ⟨200, ""⟩⟩, n) }

theorem failures_report_once_logging :
    ((Session.sample.connect brokenNode (recordError logError)).Ensures fun o t =>
      ∃ b, o = .ret b ∧ ReportsOnce (logResponse : ResponseHandler Unit) logError (b = true) t) ∧
    (∀ req, (Session.sample.write brokenNode req (recordError logError)).Ensures fun o t =>
      ∀ b, o = .ret b →
        ReportsOnce (logResponse : ResponseHandler Unit) logError (b = true) t) ∧
    ((Session.sample.read brokenNode (recordError logError)).Ensures fun o t =>
      ∀ r, o = .ret r → ReportsOnce (logResponse : ResponseHandler Unit) logError (r ≠ none) t) ∧
    ∀ method params id, (RpcSession.request brokenNode (.sample []) .sample
      (command method params id) (recordResponse logResponse) (recordError logError)).Ensures
        fun o t => ∃ r, o = .ret r ∧
          ReportsOnce (logResponse : ResponseHandler Unit) logError (r ≠ none) t :=
  failures_report_once brokenNode (.sample []) .sample ⟨fun _ _ _ _ => rfl, fun _ _ _ => rfl⟩

end MileRpc
