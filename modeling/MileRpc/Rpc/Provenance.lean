import MileRpc.Effect.History
import MileRpc.Rpc.Graded

/-!
# Where the values of a client come from

What a program that uses the library may ask, sign, send and print is its `Purpose`.  `Sourced`
says what an event owes to the history then: a query is one that is asked; a transaction is made for
the purpose; a body is that of a transaction that was made; what is written is the text of a body
that was requested; and a reply was read.

Every function of a client keeps to this, with the results of its queries traced to replies that the
run has read before (`Told`).  The handlers may do anything that keeps to it as well
(`HandlersJustified`), also run whole attempts in between.
-/

namespace MileRpc

/-- The events that need no grounds: the steps of a connect, what is read, the errors and their
texts. -/
def Event.isFree : Event → Bool
  | .write _ _ _ | .request _ | .reply _ _ | .blockId _ | .created _ _ | .body _ | .undefined _
  | .cout _ => false
  | _ => true

/-- A reply to a request with the method `m` had the result `v`. -/
def Told (api : Api) (m : String) (v : Json) : Fact Event :=
  .any fun body => .any fun res => (Fact.seen (.reply body res)).and
    (.always (methodOf body = some m ∧ api.replyResult res = some v))

/-- A reply to the block id query had a text that converts to `id`; without an `id`, one that does
not convert. -/
def ToldIdText (api : Api) (id : Option UInt256) : Fact Event :=
  .any fun v => .any fun text => (Told api "get-current-block-id" v).and
    (.always (Rpc.Client.blockIdText v = .ok text ∧ api.stringToUInt256 text = id))

/-- A reply to the block id query had exactly this id. -/
abbrev ToldBlockId (api : Api) (id : UInt256) : Fact Event := ToldIdText api (some id)

/-- A reply to the block id query had no id, but some other text.  The client goes on with a value
that it has not written, of which nothing is known. -/
abbrev ToldNoBlockId (api : Api) : Fact Event := ToldIdText api none

/-- An id that the query has returned: one that it was told, or an unwritten one. -/
def ReturnedBlockId (api : Api) (id : UInt256) : Fact Event :=
  (ToldBlockId api id).or (ToldNoBlockId api)

/-- What a program is there for: what it may ask, sign, send and print, and which reads of its own
may be undefined. -/
structure Purpose where
  asked : String → Json → Prop
  made : CreateCall → Fact Event
  sent : Json → Fact Event
  printed : String → Fact Event
  undefined : Undefined → Fact Event

/-- What an event owes to the history `h`. -/
inductive Sourced (api : Api) (P : Purpose) (h : List Event) : Event → Prop
  | free {e : Event} : e.isFree = true → Sourced api P h e
  /-- A query of an http client. -/
  | get {s : Session} {a : WriteAnswer} : Sourced api P h (.write s (Http.Client.getRequest s) a)
  /-- What is posted is the text of a body that was requested. -/
  | write {s : Session} {body : Json} {data : String} {a : WriteAnswer} : .request body ∈ h →
      api.dump body = .ok data → Sourced api P h (.write s (RpcSession.postRequest s body data) a)
  /-- A reply was read after its request. -/
  | reply {s : Session} {body : Json} {a : ReadAnswer} : .request body ∈ h → .read s a ∈ h →
      Sourced api P h (.reply body a.response)
  | query {m : String} {p : Json} (id : UInt64) : m ≠ "send-transaction" → P.asked m p →
      Sourced api P h (.request (command m p id))
  | send {x : Json} (id : UInt64) : P.sent x h →
      Sourced api P h (.request ((command "send-transaction" .null id).set "params" x))
  | blockId {id : Option UInt256} : (∀ i, id = some i → ReturnedBlockId api i h) →
      Sourced api P h (.blockId id)
  | created {call : CreateCall} (o : Except Exn (Option Transaction)) : P.made call h →
      Sourced api P h (.created call o)
  | body {call : CreateCall} {tx : Transaction} : .created call (.ok (some tx)) ∈ h →
      Sourced api P h (.body tx.body)
  | staleBody (b : Option Json) : .undefined .emptyTransaction ∈ h → Sourced api P h (.body b)
  | print {text : String} : P.printed text h → Sourced api P h (.cout text)
  | emptyTransaction {call : CreateCall} : .created call (.ok none) ∈ h →
      Sourced api P h (.undefined .emptyTransaction)
  | undefined {u : Undefined} : P.undefined u h → Sourced api P h (.undefined u)

/-- All the events of a program are for its purpose, whatever was before. -/
abbrev Prog.Justified {ν α : Type} (api : Api) (P : Purpose) (x : M ν α) : Prop :=
  x.Learns (Sourced api P) (.always True) fun _ => .always True

/-- So are those of the handlers. -/
structure HandlersJustified {ν : Type} (api : Api) (P : Purpose)
    (responseFail : ResponseHandler ν) (error : ErrorHandler ν) : Prop where
  responseFail : ∀ status method res, (responseFail status method res).Justified api P
  error : ∀ code text, (error code text).Justified api P

/-- The result of a query, if there is one. -/
def ToldIf (api : Api) (m : String) : Option Json → Fact Event
  | some v => Told api m v
  | none => .always True

variable {ν α : Type} {env : Env ν} {api : Api} {P : Purpose} {K : Fact Event}
  {responseFail : ResponseHandler ν} {error : ErrorHandler ν}

/-! ### Primitives -/

theorem Prog.Justified.learns {x : M ν α} (hx : x.Justified api P) :
    x.Learns (Sourced api P) K fun _ => .always True :=
  hx.mono (fun _ _ => trivial) fun _ _ _ h => h

theorem sourced_graded (api : Api) (P : Purpose) (K : Fact Event) :
    Graded (fun e : Event => e.isFree = true) (fun _ _ : World ν => True)
      fun _ {α} (x : M ν α) => x.Learns (Sourced api P) K fun _ => .always True :=
  (Prog.Learns.graded _ K).weaken (fun he _ _ => .free he) fun _ => trivial

section Primitives

variable {J : List Event → Event → Prop}

theorem learns_ask (f : ν → α × ν) : (ask f).Learns J K fun _ => .always True :=
  .modifyGet

theorem learns_ofJson (r : Except JsonError α) :
    (ofJson r : M ν α).Learns J K fun a => .always (r = .ok a) := by
  cases r with
  | ok a => exact .pure fun _ _ => rfl
  | error e => exact .raise _

theorem learns_perform {f : ν → α × ν} {e : α → Event} (he : ∀ a h, K h → J h (e a)) :
    (perform f e).Learns J K fun a => .seen (e a) :=
  (learns_ask f).bind fun a => .bind (.emit fun h hK => he a h hK.1) fun _ =>
    .pure fun _ hK => hK.2

theorem learns_undefinedRead {u : Undefined} (stale : ν → Option α × ν)
    (hu : ∀ h, K h → J h (.undefined u)) :
    (undefinedRead u stale).Learns J K fun _ => .seen (.undefined u) := by
  refine (Prog.Learns.emit hu).bind fun _ => (learns_ask stale).bind fun a => ?_
  cases a with
  | some a => exact .pure fun _ hK => hK.1.2
  | none => exact .halt _

end Primitives

theorem learns_report {V : α → Fact Event} (herror : ∀ code text, (error code text).Justified api P)
    (code : ResultCode) (text : String) {a : α} (ha : ∀ h, V a h) :
    (do error code text; pure a : M ν α).Learns (Sourced api P) K V :=
  (herror code text).learns.bind fun _ => .pure fun h _ => ha h

theorem HandlersJustified.log : HandlersJustified (ν := ν) api P logResponse logError where
  responseFail _ _ _ := (sourced_graded api P _).emit rfl
  error _ _ := (sourced_graded api P _).emit rfl

/-! ### Requests -/

/-- A response is one that was read. -/
def ReadFrom (s : Session) : Option HttpResponse → Fact Event
  | some res => .any fun a => (Fact.seen (.read s a)).and (.always (a.response = res))
  | none => .always True

theorem Session.connect_learns (s : Session)
    (herror : ∀ code text, (error code text).Justified api P) :
    (s.connect env error).Learns (Sourced api P) K fun _ => .always True := by
  have hG := sourced_graded (ν := ν) api P K
  refine connect_graded (n := 0) hG (fun code text => (herror code text).learns) (fun e he _ => ?_)
    (perform_graded hG _ fun _ => rfl)
  cases e <;> first | rfl | cases he

theorem Session.read_learns (s : Session)
    (herror : ∀ code text, (error code text).Justified api P) :
    (s.read env error).Learns (Sourced api P) K (ReadFrom s) := by
  refine (learns_perform fun a h _ => .free rfl).bind fun a => ?_
  refine (Prog.Learns.ofExcept _).bind fun io => .ite (fun _ => ?_) fun _ => ?_
  · exact learns_report herror _ _ fun _ => trivial
  · exact .pure fun _ hK => ⟨a, hK.1.2, rfl⟩

theorem Session.write_learns {s : Session} {req : HttpRequest}
    (hreq : ∀ a h, K h → Sourced api P h (.write s req a))
    (herror : ∀ code text, (error code text).Justified api P) :
    (s.write env req error).Learns (Sourced api P) K fun _ => .always True :=
  Session.write_graded (n := 0) (Prog.Learns.graded _ K)
    (fun code text => (herror code text).learns) ((learns_perform hreq).weaken fun _ _ _ => trivial)

namespace RpcSession

variable (hh : HandlersJustified api P responseFail error) {body : Json} {m : String}
include hh

/-- A reply with a result is the answer; any other one is handed on. -/
theorem decodeReply_learns (hm : methodOf body = some m) {res : HttpResponse}
    (hreply : ∀ h, K h → .reply body res ∈ h) :
    (decodeReply env api body res responseFail).Learns (Sourced api P) K (ToldIf api m) := by
  have hfail : (failReply env body res responseFail).Learns (Sourced api P) K (ToldIf api m) := by
    rw [failReply, readMember_of_member (methodOf_eq_some.1 hm)]
    simp only [pure_bind, Json.getString, ofJson_ok]
    exact (hh.responseFail _ _ _).learns.bind fun _ => .pure fun _ _ => trivial
  unfold decodeReply
  by_cases hs : res.status = HttpResponse.ok
  · simp only [hs, ↓reduceIte, pure_bind]
    refine (learns_ofJson _).bind fun j => .assume fun hj => ?_
    cases hv : resultMember j with
    | some v => exact .pure fun h hK => ⟨body, res, hreply h hK, hm, by simp [Api.replyResult, *]⟩
    | none => exact hfail
  · simp only [hs, ↓reduceIte, pure_bind]
    exact hfail

/-- A request is justified by what is known before it; its result was in a reply to it. -/
theorem request_learns {s : Session} (hm : methodOf body = some m)
    (hbody : ∀ h, K h → Sourced api P h (.request body)) :
    (request env api s body responseFail error).Learns (Sourced api P) K (ToldIf api m) := by
  refine (Prog.Learns.emit hbody).bind fun _ => .tryCatch ?_ fun e => ?_
  · refine (learns_ofJson _).bind fun data => .assume fun hdata => ?_
    refine Prog.Learns.bind (Session.write_learns (fun a h hK => .write hK.2 hdata) hh.error)
      fun b => .ite (fun _ => ?_) fun _ => .pure fun _ _ => trivial
    refine (Session.read_learns s hh.error).bind fun r => ?_
    cases r with
    | none => exact .pure fun _ _ => trivial
    | some res =>
      refine (Prog.Learns.emit fun h hK => ?_).bind fun _ =>
        decodeReply_learns hh hm fun h hK => hK.2
      obtain ⟨a, hread, rfl⟩ := hK.2
      exact .reply hK.1.1.2 hread
  · obtain ⟨code, text, heq⟩ := handle_eq s error e
    rw [heq]
    exact learns_report hh.error _ _ fun _ => trivial

end RpcSession

/-! ### Connects -/

section Connects

variable (herror : ∀ code text, (error code text).Justified api P) (urlString : String)
  (verifySsl : Bool)
include herror

/-- What both kinds of clients do after the url was parsed. -/
theorem learns_makeConnect {C : Type} {session : C → Session} {given : C → Prop} {make : M ν C}
    (hmake : make.Learns (Sourced api P) K fun c => .always (given c)) :
    (do
      let c ← make
      if ← (session c).connect env error then pure (some c) else pure none).Learns (Sourced api P) K
        fun r => .always (∀ c, r = some c → given c) := by
  refine hmake.bind fun c => .assume fun hc => ?_
  refine (Session.connect_learns (session c) herror).bind fun b => .ite (fun _ => ?_) fun _ => ?_
  · exact .pure fun _ _ c' hc' => Option.some.inj hc' ▸ hc
  · exact .pure fun _ _ => nofun

theorem Rpc.Client.connect_learns :
    (connect env urlString verifySsl responseFail error).Learns (Sourced api P) K fun r =>
      .always (∀ c, r = some c → c.responseFail = responseFail ∧ c.error = error) := by
  refine Prog.Learns.bind (Url.parse_graded (sourced_graded api P K)
    (fun code text => (herror code text).learns) _) fun url => ?_
  cases url with
  | none => exact .pure fun _ _ => nofun
  | some url =>
    exact learns_makeConnect herror (.bind (.gets _) fun _ => .bind .modifyGet fun _ =>
      .pure fun _ _ => ⟨rfl, rfl⟩)

theorem Http.Client.connect_learns :
    (connect env urlString verifySsl error).Learns (Sourced api P) K fun r =>
      .always (∀ c, r = some c → c.error = error) := by
  refine Prog.Learns.bind (Url.parse_graded (sourced_graded api P K)
    (fun code text => (herror code text).learns) _) fun url => ?_
  cases url with
  | none => exact .pure fun _ _ => nofun
  | some url =>
    exact learns_makeConnect herror (.bind (.gets _) fun _ => .bind .modifyGet fun _ =>
      .pure fun _ _ => rfl)

end Connects

theorem Http.Client.get_learns {c : Http.Client ν}
    (herror : ∀ code text, (c.error code text).Justified api P) :
    (c.get env).Learns (Sourced api P) K fun _ => .always True :=
  get_graded (n := 0) (Prog.Learns.graded _ K) (fun code text => (herror code text).learns)
    ((learns_perform fun _ _ _ => .get).weaken fun _ _ _ => trivial)
    ((learns_perform fun _ _ _ => .free rfl).weaken fun _ _ _ => trivial)

namespace Rpc.Client

/-! ### The functions of a client -/

section Queries

variable {c : Client ν} (hh : HandlersJustified api P c.responseFail c.error)
include hh

theorem query_learns {m : String} {p : Json} (hm : m ≠ "send-transaction") (hask : P.asked m p) :
    (c.query env api m p).Learns (Sourced api P) K (ToldIf api m) := by
  intro w h hK
  exact RpcSession.request_learns hh (methodOf_command m p w.nextId)
    (fun _ _ => .query w.nextId hm hask) { w with nextId := w.nextId + 1 } h hK

theorem sendTransaction_learns {pair : Pair} {x : Json} (hx : ∀ h, K h → P.sent x h) :
    (c.sendTransaction env api pair x).Learns (Sourced api P) K
      (ToldIf api "send-transaction") := by
  intro w h hK
  exact RpcSession.request_learns hh (methodOf_set_params _ _ x w.nextId)
    (fun h hK => .send w.nextId (hx h hK)) { w with nextId := w.nextId + 1 } h hK

/-- A block id was in a reply, or the reply had none. -/
theorem getCurrentBlockId_learns (hask : P.asked "get-current-block-id" .null) :
    (c.getCurrentBlockId env api).Learns (Sourced api P) K fun r =>
      r.elim (.always True) (ReturnedBlockId api) := by
  refine (query_learns hh (by decide) hask).bind fun r => ?_
  cases r with
  | none => exact .pure fun _ _ => trivial
  | some v =>
    refine .ite (fun _ => .pure fun _ _ => trivial) fun _ => ?_
    refine (learns_ofJson _).bind fun text => .assume fun htext => ?_
    cases hid : api.stringToUInt256 text with
    | some id => exact .pure fun h hK => .inl ⟨v, text, hK.2, htext, hid⟩
    | none =>
      exact (learns_ask _).bind fun id => .pure fun h hK => .inr ⟨v, text, hK.1.2, htext, hid⟩

end Queries

/-! ### Transactions -/

theorem createRequest_learns {call : CreateCall} (hcall : ∀ h, K h → P.made call h)
    (herror : ∀ code text, (error code text).Justified api P) :
    (createRequest api call error).Learns (Sourced api P) K fun tx =>
      .seen (.created call (.ok tx)) := by
  have hreports : (Prog.each (fun r => error r.1 r.2) (api.create call).reports).Justified api P :=
    (sourced_graded api P _).each (fun r : ResultCode × String => herror r.1 r.2) _
  refine Prog.Learns.bind (.emit fun h hK => .created (api.create call).outcome (hcall h hK))
    fun _ => hreports.learns.bind fun _ => ?_
  cases hout : (api.create call).outcome with
  | ok tx => exact .pure fun _ hK => hK.1.2
  | error e => exact .raise e

/-- A body is that of a transaction that was made, or was read where there was none. -/
theorem readBody_learns {call : CreateCall} {tx : Option Transaction}
    (hmade : ∀ h, K h → .created call (.ok tx) ∈ h) :
    (readBody env tx).Learns (Sourced api P) K fun b => .seen (.body b) := by
  cases tx with
  | some t =>
    exact Prog.Learns.bind (.emit fun h hK => .body (hmade h hK)) fun _ => .pure fun _ hK => hK.2
  | none =>
    refine Prog.Learns.bind
      (learns_undefinedRead _ fun h hK => .emptyTransaction (hmade h hK)) fun t => ?_
    exact .bind (.emit fun h hK => .staleBody _ hK.2) fun _ => .pure fun _ hK => hK.2

end Rpc.Client

end MileRpc
