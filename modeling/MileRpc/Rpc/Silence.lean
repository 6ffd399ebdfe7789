import MileRpc.Effect.Before
import MileRpc.Rpc.Report
import MileRpc.Rpc.Law
import MileRpc.Rpc.BlockId
import MileRpc.Http.Client

/-!
# Silent failures

A failure is silent if no handler is called although `Client::call` returns the empty any, or
`http::Client::get` returns nothing.  The session reports every failure of its own, but three
answers are passed on without a word: an empty result of the block id query, a transaction request
without a body, and an HTTP status other than 200 to a GET request.

`no_silent_failure_iff` says that these are all: a call is silent exactly if such an answer is there
before any handler was called.  The handlers are recorded and may do anything.
-/

namespace MileRpc

/-- A call of a handler. -/
def Event.isHandlerCall : Event → Bool
  | .report _ _ | .responseFail _ _ => true
  | _ => false

/-- No handler was called. -/
def Wordless (t : List Event) : Prop := ∀ e ∈ t, ¬ e.isHandlerCall = true

/-- An answer that ends a call without a word: an empty result for a block id, or a transaction
request without a body. -/
def Event.Mute (api : Api) (method : String) : Event → Prop
  | .reply _ res => method = "get-current-block-id" ∧
      ∃ v, api.replyResult res = some v ∧ v.isEmpty = true
  | .body b => b = none
  | _ => False

/-- A response with a status other than 200. -/
def Event.Refused : Event → Prop
  | .read _ a => a.result = .ok .success ∧ a.response.status ≠ HttpResponse.ok
  | _ => False

/-- The law that the events with `q` do not come before a handler call. -/
abbrev unspoken (ν : Type) (q : Event → Prop) : Law (World ν) Event Stop :=
  Law.noneBefore (fun e => e.isHandlerCall = true) q

variable {ν : Type} {q : Event → Prop} {env : Env ν} {api : Api} {m : String}
  {responseFail : ResponseHandler ν} {error : ErrorHandler ν}

theorem unspoken_tolerant (hq : ∀ e : Event, e.isPlain = true → ¬ q e) :
    (unspoken ν q).Tolerant where
  quiet _ _ _ := NoneBefore.nil
  plain he _ _ := NoneBefore.cons (hq _ he) (.inr NoneBefore.nil)
  crash _ := NoneBefore.nil

/-- A recorded handler may do anything. -/
theorem recorded_unspoken (hq : ∀ e : Event, e.isHandlerCall = true → ¬ q e) :
    HandlersKeep (unspoken ν q) True True (recordResponse responseFail) (recordError error) where
  responseFail _ _ _ := Law.Keeps.announced (hq _ rfl) rfl
  error _ _ := Law.Keeps.announced (hq _ rfl) rfl

theorem mute_tolerant : (unspoken ν (Event.Mute api m)).Tolerant :=
  unspoken_tolerant fun e he => by cases e <;> first | exact id | cases he

theorem recorded_mute : HandlersKeep (unspoken ν (Event.Mute api m)) True True
    (recordResponse responseFail) (recordError error) :=
  recorded_unspoken fun e he => by cases e <;> first | exact id | cases he

/-! ### The block id query -/

section BlockId

/-- The query has an empty result. -/
def EmptyAnswer (o : Outcome Exn Stop (Option Json)) : Prop :=
  ∃ v, o = .ret (some v) ∧ v.isEmpty = true

theorem RpcSession.decodeReply_of_result {body v : Json} {res : HttpResponse}
    (h : api.replyResult res = some v) :
    decodeReply env api body res responseFail = pure (some v) := by
  unfold Api.replyResult at h
  split_ifs at h with hs
  unfold decodeReply
  cases hp : api.parse res.data with
  | error e => simp [hp] at h
  | ok j =>
    have hj : resultMember j = some v := by simpa [hp] using h
    simp [hs, hj]

/-- An empty result is returned at once. -/
theorem decodeReply_concluded (hh : HandlersKeep (unspoken ν (Event.Mute api m)) True True
    responseFail error) {body : Json} {res : HttpResponse} :
    (do
      Prog.emit (Event.reply body res)
      RpcSession.decodeReply env api body res responseFail).Ensures
      (Concluded (·.isHandlerCall = true) (Event.Mute api m) EmptyAnswer) := by
  by_cases hmute : Event.Mute api m (.reply body res)
  · obtain ⟨-, v, hv, hempty⟩ := hmute
    rw [RpcSession.decodeReply_of_result hv]
    exact fun _ => .inr ⟨List.forall_mem_singleton.2 Bool.false_ne_true, v, rfl, hempty⟩
  · refine Concluded.after (Law.Keeps.emit_noneBefore (T := True) hmute) fun _ _ => ?_
    exact Concluded.of_keeps
      ((RpcSession.decodeReply_keeps hh mute_tolerant trivial).weaken fun _ _ => trivial)

theorem request_concluded (hh : HandlersKeep (unspoken ν (Event.Mute api m)) True True
    responseFail error) (s : Session) (body : Json) :
    (RpcSession.request env api s body responseFail error).Ensures
      (Concluded (·.isHandlerCall = true) (Event.Mute api m) EmptyAnswer) := by
  refine Concluded.after (Law.Keeps.emit_noneBefore (T := True) id) fun _ _ => ?_
  refine Concluded.tryCatch ?_ (fun e he => ?_) fun e => ?_
  · refine Concluded.after (Law.Keeps.ofJson _) fun data _ => ?_
    refine Concluded.after (Session.write_keeps mute_tolerant hh.error s _) fun b _ => ?_
    cases b with
    | false => exact Concluded.pure
    | true =>
      refine Concluded.after (Session.read_keeps mute_tolerant hh.error s) fun r _ => ?_
      cases r with
      | none => exact Concluded.pure
      | some res => exact decodeReply_concluded hh
  · obtain ⟨v, hv, -⟩ := he
    cases hv
  · obtain ⟨code, text, heq⟩ := RpcSession.handle_eq s error e
    rw [heq]
    exact hh.error.report id id code text

end BlockId

namespace Rpc.Client

variable {c : Client ν} {method : String} {params : Json}

/-- The client with recorded handlers. -/
def recorded (c : Client ν) : Client ν :=
  { c with responseFail := recordResponse c.responseFail, error := recordError c.error }

/-- The call has returned the empty any. -/
def IsEmpty (o : Outcome Exn Stop AnyValue) : Prop := o = .ret .empty

theorem recorded_keeping (c : Client ν) :
    c.recorded.Keeping (unspoken ν (Event.Mute api m)) True True :=
  recorded_mute

theorem getCurrentBlockId_concluded :
    (c.recorded.getCurrentBlockId env api).Ensures
      (Concluded (·.isHandlerCall = true) (Event.Mute api m) (· = .ret none)) := by
  have hquery : (c.recorded.query env api "get-current-block-id" .null).Ensures
      (Concluded (·.isHandlerCall = true) (Event.Mute api m) EmptyAnswer) := by
    refine Concluded.after (A := fun _ => True) (T := True) ?_ fun body _ =>
      request_concluded c.recorded_keeping _ _
    exact (Law.Keeps.modifyGet fun _ => NoneBefore.nil).weaken fun _ _ => trivial
  refine Concluded.bind hquery (fun o ho => ?_) fun r => ?_
  · obtain ⟨v, rfl, hempty⟩ := ho
    exact ⟨some v, none, rfl, by simp [hempty], rfl⟩
  · cases r with
    | none => exact .pure trivial
    | some result =>
      refine .ite (fun _ => .pure trivial) fun _ => ?_
      refine (Law.Keeps.ofJson _).andThen fun text _ => ?_
      cases api.stringToUInt256 text with
      | some id => exact .pure trivial
      | none => exact (Law.Keeps.ask mute_tolerant _).andThen fun id _ => .pure trivial

theorem callGetCurrentBlockId_concluded :
    (c.recorded.callGetCurrentBlockId env api).Ensures
      (Concluded (·.isHandlerCall = true) (Event.Mute api m) IsEmpty) := by
  refine Concluded.bind getCurrentBlockId_concluded (fun o ho => ⟨none, .empty, ho, rfl, rfl⟩)
    fun id => ?_
  cases id <;> exact .pure trivial

/-! ### The body of a transaction -/

section Transactions

variable (hm : method ≠ "get-current-block-id")
include hm

theorem mute_lenient : (unspoken ν (Event.Mute api method)).Lenient where
  toTolerant := mute_tolerant
  reply _ _ := NoneBefore.cons (fun h => hm h.1) (.inr NoneBefore.nil)

theorem mute_queryLaw (params : Json) : QueryLaw (unspoken ν (Event.Mute api method)) params where
  lenient := mute_lenient hm
  command _ _ := NoneBefore.cons id (.inr NoneBefore.nil)

/-- A body is sent, and without one nothing more is done. -/
theorem sendBody_concluded (pair : Pair) (body : Option Json) :
    (do Prog.emit (Event.body body); c.recorded.sendBody env api pair body).Ensures
      (Concluded (·.isHandlerCall = true) (Event.Mute api method) IsEmpty) := by
  cases body with
  | none => exact fun _ => .inr ⟨List.forall_mem_singleton.2 Bool.false_ne_true, rfl⟩
  | some x =>
    refine Concluded.after (Law.Keeps.emit_noneBefore (T := True) nofun) fun _ _ => ?_
    refine Concluded.after (Law.Keeps.ofJson _) fun _ _ => Concluded.of_keeps ?_
    refine (sendTransaction_keeps (mute_lenient hm) c.recorded_keeping fun w => ?_).andThen
      fun r _ => .pure trivial
    exact NoneBefore.cons id (.inr NoneBefore.nil)

theorem submit_concluded {A : CreateCall → Prop} {pair : Pair} {create : UInt256 → M ν CreateCall}
    (hcreate : ∀ id, (unspoken ν (Event.Mute api method)).Keeps A True (create id)) :
    (c.recorded.submit env api pair create c.recorded.error).Ensures
      (Concluded (·.isHandlerCall = true) (Event.Mute api method) IsEmpty) := by
  have hemit : ∀ {e : Event}, ¬ e.Mute api method → (unspoken ν (Event.Mute api method)).Keeps
      (fun _ => True) True (Prog.emit e : M ν Unit) := Law.Keeps.emit_noneBefore
  unfold submit
  refine Concluded.after (getCurrentBlockId_keeps (mute_lenient hm) c.recorded_keeping fun w => ?_)
    fun id _ => ?_
  · exact NoneBefore.cons nofun (.inr NoneBefore.nil)
  refine Concluded.after (hemit nofun) fun _ _ => ?_
  refine Concluded.after (readBlockId_keeps (T := True) mute_tolerant id) fun blockId _ => ?_
  refine Concluded.after (hcreate blockId) fun call _ => ?_
  refine Concluded.after (createRequest_keeps (fun o w => ?_) c.recorded_keeping.error)
    fun tx _ => ?_
  · exact NoneBefore.cons nofun (.inr NoneBefore.nil)
  cases tx with
  | some tx => exact sendBody_concluded hm pair tx.body
  | none =>
    simp only [readBody, bind_assoc, pure_bind]
    refine Concluded.after (Law.Keeps.undefinedRead (T := True) mute_tolerant _ _) fun tx _ => ?_
    exact sendBody_concluded hm pair tx.body

omit hm in
/-- A check before a transaction. -/
theorem check_concluded {α : Type} {A : Option α → Prop} {x : M ν (Option α)}
    {f : Option α → M ν AnyValue} (hx : (unspoken ν (Event.Mute api method)).Keeps A True x)
    (hnone : f none = pure .nullopt) (hf : ∀ a, (f (some a)).Ensures
      (Concluded (·.isHandlerCall = true) (Event.Mute api method) IsEmpty)) :
    (x >>= f).Ensures (Concluded (·.isHandlerCall = true) (Event.Mute api method) IsEmpty) := by
  refine Concluded.after hx fun r _ => ?_
  cases r with
  | none =>
    rw [hnone]
    exact Concluded.pure
  | some a => exact hf a

omit hm in
/-- The transaction id is drawn without an event. -/
theorem generateTrxId_mute :
    (unspoken ν (Event.Mute api method)).Keeps (fun _ => True) True (generateTrxId env api) :=
  fun _ _ => ⟨NoneBefore.nil, trivial⟩

theorem transfer_concluded :
    (c.recorded.transfer env api method params c.recorded.error).Ensures
      (Concluded (·.isHandlerCall = true) (Event.Mute api method) IsEmpty) := by
  unfold transfer
  split_ifs
  · exact Concluded.of_keeps (c.recorded_keeping.error.report id id _ _)
  refine check_concluded (getPrivate_keeps c.recorded_keeping.error) rfl fun ppk => ?_
  refine check_concluded (getAmount_keeps c.recorded_keeping.error) rfl fun amount => ?_
  refine check_concluded (getAsset_keeps c.recorded_keeping.error) rfl fun asset => ?_
  refine Concluded.after (getDescription_keeps mute_tolerant) fun description _ => ?_
  refine submit_concluded (A := fun _ => True) hm fun id => ?_
  refine generateTrxId_mute.andThen fun trxId _ => ?_
  refine (Law.Keeps.readMember mute_tolerant _ _).andThen fun destination _ => ?_
  exact (Law.Keeps.ofJson _).andThen fun destination _ => .pure trivial

theorem registerNode_concluded :
    (c.recorded.registerNode env api method params c.recorded.error).Ensures
      (Concluded (·.isHandlerCall = true) (Event.Mute api method) IsEmpty) := by
  refine check_concluded (getPrivate_keeps c.recorded_keeping.error) rfl fun ppk => ?_
  refine check_concluded (getAmount_keeps c.recorded_keeping.error) rfl fun amount => ?_
  refine check_concluded (require_keeps c.recorded_keeping.error _ _) rfl fun address => ?_
  refine submit_concluded (A := fun _ => True) hm fun id => ?_
  refine generateTrxId_mute.andThen fun trxId _ => ?_
  exact (Law.Keeps.ofJson _).andThen fun address _ => .pure trivial

theorem unregisterNode_concluded :
    (c.recorded.unregisterNode env api method params c.recorded.error).Ensures
      (Concluded (·.isHandlerCall = true) (Event.Mute api method) IsEmpty) := by
  refine check_concluded (getPrivate_keeps c.recorded_keeping.error) rfl fun ppk => ?_
  exact submit_concluded (A := fun _ => True) hm fun id =>
    generateTrxId_mute.andThen fun trxId _ => .pure trivial

theorem voteForRate_concluded :
    (c.recorded.voteForRate env api method params c.recorded.error).Ensures
      (Concluded (·.isHandlerCall = true) (Event.Mute api method) IsEmpty) := by
  refine check_concluded (getPrivate_keeps c.recorded_keeping.error) rfl fun ppk => ?_
  refine check_concluded (getAmount_keeps c.recorded_keeping.error) rfl fun amount => ?_
  exact submit_concluded (A := fun _ => True) hm fun id =>
    generateTrxId_mute.andThen fun trxId _ => .pure trivial

end Transactions

/-! ### Calls -/

/-- A call has no such answer before a handler call, or it ends silently with the empty any. -/
theorem call_concluded : (c.recorded.call env api method params).Ensures
    (Concluded (·.isHandlerCall = true) (Event.Mute api method) IsEmpty) := by
  refine Concluded.tryCatch ?_ (fun e => nofun) fun e => ?_
  · refine Concluded.after (seedCall_keeps (T := True) mute_tolerant) fun _ _ => ?_
    refine Concluded.after (rand_keeps (T := True) mute_tolerant) fun _ _ => ?_
    by_cases hm : method = "get-current-block-id"
    · subst hm
      exact callGetCurrentBlockId_concluded
    by_cases hb : method ∈ ["send-transfer", "register-node", "unregister-node", "vote-for-rate"]
    · simp only [List.mem_cons, List.not_mem_nil, or_false] at hb
      rcases hb with rfl | rfl | rfl | rfl
      · exact transfer_concluded hm
      · exact registerNode_concluded hm
      · exact unregisterNode_concluded hm
      · exact voteForRate_concluded hm
    · exact Concluded.of_keeps ((dispatch_query_keeps (mute_queryLaw hm params) c.recorded_keeping
        c.recorded_keeping.error hb).weaken fun _ _ => trivial)
  · obtain ⟨text, heq⟩ := handle_callClauses method c.recorded.error e
    rw [heq]
    exact c.recorded_keeping.error.report id id _ _

/-- The law about the runs without a handler call and without such an answer. -/
def wordless (ν : Type) (api : Api) (method : String) : Law (World ν) Event Stop where
  Moves _ _ _ := True
  Stops _ _ _ := True
  Fair t := Wordless t ∧ ∀ e ∈ t, ¬ e.Mute api method
  moves_nil _ := trivial
  moves_append _ _ := trivial
  stops_append _ _ := trivial
  fair_append := fun ⟨hw, hm⟩ =>
    ⟨⟨fun e he => hw e (List.mem_append_left _ he), fun e he => hm e (List.mem_append_left _ he)⟩,
      fun e he => hw e (List.mem_append_right _ he), fun e he => hm e (List.mem_append_right _ he)⟩

theorem wordless_callLaw : CallLaw (wordless ν api method) env api params where
  lenient :=
    { quiet := fun _ _ _ => trivial
      plain := fun _ _ _ => trivial
      crash := fun _ => trivial
      reply := fun _ _ => trivial }
  command _ _ := trivial
  trxId _ := trivial
  send _ _ := trivial
  create _ _ _ := trivial
  body _ _ := trivial

/-- Without a handler call and without such an answer, a call does not end with the empty any. -/
theorem call_wordless {w : World ν}
    (hw : Wordless (c.recorded.call env api method params w).trace)
    (hm : ∀ e ∈ (c.recorded.call env api method params w).trace, ¬ e.Mute api method) :
    (c.recorded.call env api method params w).outcome ≠ .ret .empty := by
  have hc : c.recorded.Keeping (wordless ν api method) False False :=
    ⟨fun _ _ _ _ hf => absurd rfl (hf.1 _ List.mem_cons_self),
      fun _ _ _ hf => absurd rfl (hf.1 _ List.mem_cons_self)⟩
  intro ho
  have hlaw : CallLaw (wordless ν api method) env api params := wordless_callLaw
  obtain ⟨-, hresult⟩ := (call_keeps hlaw hc hc.error).of_ret ⟨hw, hm⟩ ho
  rcases hresult.empty rfl with h | ⟨hmethod, body, res, v, -, hf, hv, hempty⟩ | hf
  · exact h
  · exact hf.2 _ List.mem_cons_self ⟨hmethod, v, hv, hempty⟩
  · exact hf.2 _ List.mem_cons_self rfl

end Rpc.Client

/-! ### GET requests -/

namespace Http.Client

variable {c : Client ν}

/-- The client with a recorded handler. -/
def recorded (c : Client ν) : Client ν := { c with error := recordError c.error }

/-- What `get` comes to: no refusal is passed on without a word, or one is and nothing else. -/
def Told (o : Outcome Exn Stop (Option String)) (t : List Event) : Prop :=
  (NoneBefore (·.isHandlerCall = true) Event.Refused t ∧ (Wordless t → o ≠ .ret none)) ∨
    (Wordless t ∧ (∃ e ∈ t, e.Refused) ∧ o = .ret none)

/-- After a report, anything may follow. -/
theorem Told.report {io : List Event} (hio : NoneBefore (·.isHandlerCall = true) Event.Refused io)
    (code : ResultCode) (text : String) (k : Unit → M ν (Option String)) :
    (recordError error code text >>= k).Ensures fun o t => Told o (io ++ t) := by
  simp only [recordError, bind_assoc]
  refine Prog.Ensures.emit_bind fun w => .inl ⟨hio.append (NoneBefore.cons id (.inl rfl)), ?_⟩
  exact fun hw => absurd rfl (hw (.report code text) (by simp))

/-- What `get` does with the response: after `io`, the answer of the read may be refused. -/
theorem readPage_told {io : List Event} (hw : Wordless io)
    (hio : NoneBefore (·.isHandlerCall = true) Event.Refused io) (s : Session) :
    (s.read env (recordError error) >>= fun r => match r with
      | some res => pure (if res.status = HttpResponse.ok then some res.data else none)
      | none => pure none).Ensures fun o t => Told o (io ++ t) := by
  simp only [Session.read, bind_assoc]
  refine Prog.Ensures.perform_bind fun a => ?_
  have hkept : ¬ (Event.read s a).Refused →
      NoneBefore (·.isHandlerCall = true) Event.Refused (io ++ [.read s a]) :=
    fun hread => hio.append (NoneBefore.cons hread (.inr NoneBefore.nil))
  refine Prog.Ensures.ofExcept_bind (fun res hres => ?_) fun e he => ?_
  · cases hf : res.failed with
    | true =>
      have hread : ¬ (Event.read s a).Refused := by
        rintro ⟨hsuccess, -⟩
        rw [hres, Except.ok.injEq, ← Io.failed_eq_false, hf] at hsuccess
        cases hsuccess
      simp only [↓reduceIte, bind_assoc, pure_bind]
      refine Prog.Ensures.mono (Told.report (hkept hread) _ _ _) fun o t h => ?_
      rwa [List.append_assoc] at h
    | false =>
      simp only [↓reduceIte, pure_bind, Bool.false_eq_true]
      by_cases hs : a.response.status = HttpResponse.ok
      · rw [if_pos hs]
        exact Prog.Ensures.pure (.inl ⟨hkept fun h => h.2 hs, by simp⟩)
      · -- the refusal is all that there is of the run
        rw [if_neg hs]
        refine Prog.Ensures.pure (.inr ⟨?_, ⟨.read s a, by simp, ?_, hs⟩, rfl⟩)
        · exact List.forall_mem_append.2 ⟨hw, by simp [Event.isHandlerCall]⟩
        · rw [hres, Io.failed_eq_false.1 hf]
  · refine .inl ⟨hkept ?_, by simp⟩
    rintro ⟨hsuccess, -⟩
    rw [he] at hsuccess
    cases hsuccess

theorem getBody_told : (getBody env c.recorded).Ensures Told := by
  simp only [getBody, Session.write, bind_assoc]
  refine Prog.Ensures.perform_bind fun a => ?_
  have hwrite : ∀ req a, NoneBefore (·.isHandlerCall = true) Event.Refused
      [Event.write c.session req a] := fun _ _ => NoneBefore.cons id (.inr NoneBefore.nil)
  refine Prog.Ensures.ofExcept_bind (fun res _ => ?_) fun e _ => .inl ⟨hwrite _ _, by simp⟩
  cases res.failed with
  | true =>
    simp only [↓reduceIte, bind_assoc, pure_bind, Bool.false_eq_true]
    exact Told.report (hwrite _ _) _ _ _
  | false =>
    simp only [↓reduceIte, pure_bind, Bool.false_eq_true]
    exact readPage_told (by simp [Wordless, Event.isHandlerCall]) (hwrite _ _) c.session

theorem get_told : (get env c.recorded).Ensures Told := by
  refine getBody_told.tryCatch (fun _ _ h => h) (fun e t ht => ?_) fun _ _ h => h
  rcases ht with ⟨ht, -⟩ | ⟨-, -, h⟩
  · have hany : (getClauses c.session).any (·.catches e) = true := by
      simp [getClauses, CatchClause.any]
    obtain ⟨k, -, text, heq⟩ := CatchClause.handle_eq c.recorded.error hany
    change ((CatchClause.handle (getClauses c.session) c.recorded.error e) >>= _).Ensures _
    rw [heq]
    exact Told.report ht _ _ _
  · cases h

end Http.Client

/-- **When no failure is silent.**  For every method, parameters and handlers, and whatever the
outside does: a call that returns the empty any has called a handler if and only if no empty result
for a block id and no transaction request without a body was there before the first handler call;
and a `get` that returns nothing has called one if and only if no response with a status other than
200 was. -/
theorem no_silent_failure_iff (env : Env ν) (api : Api) (c : Rpc.Client ν) (method : String)
    (params : Json) (h : Http.Client ν) (w : World ν) :
    (((c.recorded.call env api method params w).outcome = .ret .empty →
        ∃ e ∈ (c.recorded.call env api method params w).trace, e.isHandlerCall = true) ↔
      ∀ e, Before (·.isHandlerCall = true) (c.recorded.call env api method params w).trace e →
        ¬ e.Mute api method) ∧
    (((Http.Client.get env h.recorded w).outcome = .ret none →
        ∃ e ∈ (Http.Client.get env h.recorded w).trace, e.isHandlerCall = true) ↔
      ∀ e, Before (·.isHandlerCall = true) (Http.Client.get env h.recorded w).trace e →
        ¬ e.Refused) := by
  have hwordless : ∀ {t : List Event}, ¬ (∃ e ∈ t, e.isHandlerCall = true) ↔ Wordless t := by
    simp [Wordless]
  constructor
  · constructor
    · intro hreport
      refine (Rpc.Client.call_concluded w).resolve_right fun ⟨hw, ho⟩ => ?_
      exact hwordless.2 hw (hreport ho)
    · intro hnone ho
      by_contra hw
      rw [hwordless] at hw
      exact Rpc.Client.call_wordless hw (fun e he => hnone e (before_of_mem hw he)) ho
  · have htold : (Http.Client.get env h.recorded).Ensures Http.Client.Told := Http.Client.get_told
    rcases htold w with ⟨hnone, hret⟩ | ⟨hw, ⟨e, he, hr⟩, ho⟩
    · refine iff_of_true (fun ho => ?_) hnone
      by_contra hw
      exact hret (hwordless.1 hw) ho
    · refine iff_of_false (fun hreport => hwordless.2 hw (hreport ho)) fun hnone => ?_
      exact hnone e (before_of_mem hw he) hr

/-- A reply with an empty result. -/
def emptyReply : Json := .object [("result", .object [])]

/-- A node that answers the block id query with an empty result, and a server that does not find a
page: nothing is returned and no handler is called. -/
theorem silent_failure :
    let call := (Rpc.Client.logging .sample).recorded.call (Rpc.Client.repeating emptyReply)
      (.sample [emptyReply]) "get-current-block-id" .null (World.init ())
    let get := Http.Client.get (Env.answering fun n : Unit => (⟨404, ""⟩, n))
      (Http.Client.recorded ⟨Url.init "", false, .sample, logError⟩) (World.init ())
    (call.outcome = .ret .empty ∧ ∀ e ∈ call.trace, ¬ e.isHandlerCall = true) ∧
      (get.outcome = .ret none ∧ ∀ e ∈ get.trace, ¬ e.isHandlerCall = true) :=
  ⟨⟨rfl, by decide +kernel⟩, ⟨rfl, by decide +kernel⟩⟩

end MileRpc
