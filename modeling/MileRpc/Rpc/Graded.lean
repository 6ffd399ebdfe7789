import MileRpc.Http.Client
import MileRpc.Rpc.Call
import MileRpc.Session.Protocol
import MileRpc.Session.Report

/-!
# The requests that a client function may send

A graded property of programs, with the grade counting requests, holds of every function of a client
if it holds of the client's requests, with grade 1, and of its error handler, with grade 0
(`Client.Grades`).  `Client.call_graded` : a call has grade 2, whatever its handlers do in between.
-/

namespace MileRpc

/-- A connect is begun. -/
def Event.isResolve : Event → Bool
  | .resolve _ _ => true
  | _ => false

variable {ν : Type} {G : ℕ → {α : Type} → M ν α → Prop} {env : Env ν} {api : Api}

/-- A graded property that only looks at what the sessions do, and at how many there are. -/
abbrev SessionGraded (env : Env ν) (G : ℕ → {α : Type} → M ν α → Prop) : Prop :=
  Graded (fun e : Event => e.session? = none) env.Still G

namespace SessionGraded

variable (hG : SessionGraded env G) {α : Type}
include hG

theorem ask {f : ν → α × ν} (hf : ∀ n, env.Aside n (f n).2) : G 0 (MileRpc.ask f) :=
  hG.modifyGet fun w => ⟨rfl, hf w.net⟩

/-- A change of the program's own variables. -/
theorem own {f : World ν → α × World ν}
    (hf : ∀ w, (f w).2.sessions = w.sessions ∧ (f w).2.net = w.net) : G 0 (Prog.modifyGet f) :=
  hG.modifyGet fun w => ⟨(hf w).1, (hf w).2 ▸ .stay⟩

theorem gets (f : World ν → α) : G 0 (Prog.gets f : M ν α) :=
  own hG (f := fun w => (f w, w)) fun _ => ⟨rfl, rfl⟩

theorem ofJson (r : Except JsonError α) : G 0 (MileRpc.ofJson r : M ν α) :=
  hG.ofExcept _

theorem undefinedRead (u : Undefined) {stale : ν → Option α × ν}
    (hstale : ∀ n, env.Aside n (stale n).2) : G 0 (MileRpc.undefinedRead u stale) := by
  refine hG.free_bind (hG.emit rfl) fun _ => hG.free_bind (ask hG hstale) fun a => ?_
  cases a with
  | some a => exact hG.pure a
  | none => exact hG.halt _

theorem readMember (j : Json) (key : String) : G 0 (MileRpc.readMember env j key) := by
  refine hG.free_bind (ofJson hG _) fun v => ?_
  cases v with
  | some v => exact hG.pure v
  | none => exact undefinedRead hG _ fun _ => .staleJson

end SessionGraded

/-! ### What has only the grades of its parts -/

section Parts

variable {quiet : Event → Prop} {still : World ν → World ν → Prop} (hG : Graded quiet still G)
  {error : ErrorHandler ν} (he : ∀ code text, G 0 (error code text)) {s : Session} {n : ℕ}
include hG he

/-- A report and a value. -/
theorem report_graded {α : Type} (code : ResultCode) (text : String) (a : α) :
    G 0 (do error code text; pure a : M ν α) :=
  hG.free_bind (he code text) fun _ => hG.pure a

theorem Url.parse_graded (urlString : String) :
    G 0 (Url.parse urlString error) := by
  unfold Url.parse Url.finish
  split
  · exact hG.pure _
  · exact hG.free_bind (he _ _) fun _ => hG.pure _
  · exact hG.raise _

theorem Session.write_graded {req : HttpRequest}
    (hwrite : G n (perform (env.asyncWrite s req) (.write s req))) :
    G n (s.write env req error) :=
  hG.bind_free hwrite fun _ => hG.free_bind (hG.ofExcept _) fun _ =>
    Graded.ite (fun _ => report_graded hG he _ _ _) fun _ => hG.pure _

theorem Session.read_graded (hread : G 0 (perform (env.asyncRead s) (.read s))) :
    G 0 (s.read env error) :=
  hG.free_bind hread fun _ => hG.free_bind (hG.ofExcept _) fun _ =>
    Graded.ite (fun _ => report_graded hG he _ _ _) fun _ => hG.pure _

omit he

/-- The grade of a `get` is that of its write. -/
theorem Http.Client.get_graded {c : Client ν} (he : ∀ code text, G 0 (c.error code text))
    (hwrite : G n (perform (env.asyncWrite c.session (getRequest c.session))
      (.write c.session (getRequest c.session))))
    (hread : G 0 (perform (env.asyncRead c.session) (.read c.session))) : G n (c.get env) := by
  refine hG.tryCatch (m := n) (n := 0) ?_ fun e => ?_
  · refine hG.bind_free (Session.write_graded hG he hwrite) fun b => ?_
    refine Graded.ite (fun _ => ?_) fun _ => hG.pure _
    refine hG.free_bind (Session.read_graded hG he hread) fun r => ?_
    cases r <;> exact hG.pure _
  · have hany : (getClauses c.session).any (·.catches e) = true := by
      simp [getClauses, CatchClause.any]
    obtain ⟨k, -, text, heq⟩ := CatchClause.handle_eq c.error hany
    rw [heq]
    exact report_graded hG he _ _ _

end Parts

/-! ### Connects -/

section Connects

variable {quiet : Event → Prop} (hG : Graded quiet (fun _ _ : World ν => True) G) {n : ℕ}
  {error : ErrorHandler ν} {s : Session}
include hG

theorem perform_graded {α : Type} (f : ν → α × ν) {e : α → Event} (hquiet : ∀ a, quiet (e a)) :
    G 0 (perform f e) :=
  hG.free_bind (hG.modifyGet fun _ => trivial) fun a => hG.free_bind (hG.emit (hquiet a)) fun _ =>
    hG.pure a

variable (he : ∀ code text, G 0 (error code text))
  (hquiet : ∀ e : Event, e.isConnect = true → e.isResolve = false → quiet e)
include he hquiet

/-- The grade of a connect is that of its first step. -/
theorem Session.connect_graded (hresolve : G n (perform (env.resolve s) (.resolve s))) :
    G n (s.connect env error) := by
  have hfailed : ∀ code text, G 0 (do error code text; pure false : M ν Bool) := fun code text =>
    report_graded hG he code text false
  have hstage : ∀ {α : Type} {f : ν → Except Exn α × ν} {e : Except Exn α → Event}
      {k : α → M ν Bool}, (∀ r, (e r).isConnect = true ∧ (e r).isResolve = false) →
        (∀ a, G 0 (k a)) → G 0 (perform f e >>= fun r => Prog.ofExcept r >>= k) :=
    fun hconnect hk => hG.free_bind (perform_graded hG _ fun r => hquiet _ (hconnect r).1
      (hconnect r).2) fun r => hG.free_bind (hG.ofExcept r) hk
  have hcheck : ∀ stage io, G 0 (s.checkStage stage io error) := fun stage io =>
    Graded.ite (fun _ => hfailed _ _) fun _ => hG.pure _
  have htls : G 0 (s.connectTls env error) := by
    refine hG.tryCatch (m := 0) (n := 0) (hstage (fun _ => ⟨rfl, rfl⟩) fun io => ?_) fun e => ?_
    · refine hG.free_bind (hcheck _ _) fun b => Graded.ite (fun _ => ?_) fun _ => hG.pure _
      exact hstage (fun _ => ⟨rfl, rfl⟩) fun _ => hG.pure _
    · cases e.what? with
      | some what => exact hfailed _ _
      | none => exact hG.raise e
  refine hG.tryCatch (m := n) (n := 0) (hG.bind_free hresolve fun r => ?_) fun e => ?_
  · refine hG.free_bind (hG.ofExcept r) fun endpoints => Graded.ite (fun _ => hfailed _ _) fun _ =>
      Graded.ite (fun _ => ?_) fun _ => hstage (fun _ => ⟨rfl, rfl⟩) fun io => hcheck _ _
    refine hstage (fun _ => ⟨rfl, rfl⟩) fun named => Graded.ite (fun _ => ?_) fun _ => hfailed _ _
    refine hG.free_bind htls fun b => Graded.ite (fun _ => ?_) fun _ => hG.pure _
    exact hstage (fun _ => ⟨rfl, rfl⟩) fun h => hcheck _ _
  · cases e.what? <;> exact hfailed _ _

/-- A connect, and then the rest with a client that has the handlers it was given, or without. -/
theorem Rpc.Client.connect_graded {m : ℕ} {responseFail : ResponseHandler ν}
    {f : Option (Rpc.Client ν) → M ν Unit}
    (hresolve : ∀ s, G m (perform (env.resolve s) (.resolve s)))
    (hsome : ∀ c : Rpc.Client ν, c.responseFail = responseFail → c.error = error → G n (f (some c)))
    (hfail : G n (f none)) (urlString : String) (verifySsl : Bool) :
    G (m + n) (Rpc.Client.connect env urlString verifySsl responseFail error >>= f) := by
  have hle : n ≤ m + n := Nat.le_add_left n m
  simp only [Rpc.Client.connect, bind_assoc]
  refine hG.free_bind (Url.parse_graded hG he urlString) fun url => ?_
  cases url with
  | none =>
    simp only [pure_bind]
    exact hG.mono hle hfail
  | some url =>
    simp only [Rpc.Client.make, bind_assoc, pure_bind]
    refine hG.free_bind (hG.gets (fun _ => trivial) _) fun timeout => ?_
    refine hG.free_bind (hG.modifyGet fun _ => trivial) fun s => ?_
    refine hG.bind (Session.connect_graded hG he hquiet (hresolve s)) fun b => ?_
    cases b with
    | true => exact hsome _ rfl rfl
    | false => exact hfail

end Connects

theorem RpcSession.decodeReply_graded (hG : SessionGraded env G) {responseFail : ResponseHandler ν}
    (hresponse : ∀ status method res, G 0 (responseFail status method res)) (body : Json)
    (res : HttpResponse) : G 0 (decodeReply env api body res responseFail) := by
  have hfail : G 0 (failReply env body res responseFail) :=
    hG.free_bind (hG.readMember _ _) fun _ => hG.free_bind (hG.ofJson _) fun _ =>
      hG.free_bind (hresponse _ _ _) fun _ => hG.pure _
  unfold decodeReply
  by_cases hs : res.status = HttpResponse.ok
  · simp only [hs, ↓reduceIte, pure_bind]
    refine hG.free_bind (hG.ofJson _) fun j => ?_
    cases resultMember j with
    | some r => exact hG.pure _
    | none => exact hfail
  · simp only [hs, ↓reduceIte, pure_bind]
    exact hfail

/-! ### Requests -/

section Requests

variable {error : ErrorHandler ν} {s : Session} {n : ℕ} (hG : SessionGraded env G)
include hG

/-- The grade of a request is that of its write. -/
theorem RpcSession.request_graded {responseFail : ResponseHandler ν}
    (hresponse : ∀ status method res, G 0 (responseFail status method res))
    (he : ∀ code text, G 0 (error code text))
    (hwrite : ∀ req, G n (perform (env.asyncWrite s req) (.write s req)))
    (hread : G 0 (perform (env.asyncRead s) (.read s))) (body : Json) :
    G n (request env api s body responseFail error) := by
  refine hG.free_bind (hG.emit rfl) fun _ => hG.tryCatch (m := n) (n := 0) ?_ fun e => ?_
  · refine hG.free_bind (hG.ofJson _) fun data => ?_
    refine hG.bind_free (Session.write_graded hG he (hwrite _)) fun b => ?_
    refine Graded.ite (fun _ => ?_) fun _ => hG.pure _
    refine hG.free_bind (Session.read_graded hG he hread) fun r => ?_
    cases r with
    | none => exact hG.pure _
    | some res => exact hG.free_bind (hG.emit rfl) fun _ => decodeReply_graded hG hresponse _ _
  · obtain ⟨code, text, heq⟩ := handle_eq s error e
    rw [heq]
    exact report_graded hG he _ _ _

end Requests

namespace Rpc

theorem rand_graded (hG : SessionGraded env G) : G 0 (rand api : M ν UInt32) :=
  hG.own fun _ => ⟨rfl, rfl⟩

theorem seedCall_graded (hG : SessionGraded env G) : G 0 (seedCall env) :=
  hG.free_bind (hG.ask fun _ => .time) fun _ => hG.own fun _ => ⟨rfl, rfl⟩

theorem generateTrxId_graded (hG : SessionGraded env G) : G 0 (generateTrxId env api) :=
  hG.free_bind (hG.ask fun _ => .time) fun _ => hG.free_bind (hG.own fun _ => ⟨rfl, rfl⟩) fun _ =>
    hG.free_bind (rand_graded hG) fun _ => hG.pure _

namespace Client

/-- The requests of the client have the property with grade 1, and its error handler is free. -/
structure Grades (G : ℕ → {α : Type} → M ν α → Prop) (env : Env ν) (api : Api) (c : Client ν) :
    Prop where
  request : ∀ body, G 1 (RpcSession.request env api c.session body c.responseFail c.error)
  error : ∀ code text, G 0 (c.error code text)

variable {c : Client ν} {method : String} {params : Json} {error : ErrorHandler ν}

/-! ### Queries -/

section Queries

variable (hG : SessionGraded env G) (hc : c.Grades G env api)
include hG hc

theorem query_graded (m : String) (p : Json) : G 1 (c.query env api m p) :=
  hG.free_bind (hG.own fun _ => ⟨rfl, rfl⟩) fun body => hc.request body

theorem sendTransaction_graded (pair : Pair) (x : Json) :
    G 1 (c.sendTransaction env api pair x) :=
  hG.free_bind (hG.own fun _ => ⟨rfl, rfl⟩) fun _ => hc.request _

theorem ping_graded : G 1 (c.ping env api) := by
  refine hG.free_bind (hG.ask fun _ => .now) fun _ => ?_
  refine hG.bind_free (query_graded hG hc _ _) fun r => ?_
  cases r with
  | none => exact hG.pure _
  | some res =>
    refine Graded.ite (fun _ => ?_) fun _ => hG.pure _
    exact hG.free_bind (hG.ask fun _ => .now) fun _ => hG.pure _

theorem getCurrentBlockId_graded : G 1 (c.getCurrentBlockId env api) := by
  refine hG.bind_free (query_graded hG hc _ _) fun r => ?_
  cases r with
  | none => exact hG.pure _
  | some result =>
    refine Graded.ite (fun _ => hG.pure _) fun _ => hG.free_bind (hG.ofJson _) fun text => ?_
    cases api.stringToUInt256 text with
    | some id => exact hG.pure _
    | none => exact hG.free_bind (hG.ask fun _ => .unwritten) fun _ => hG.pure _

end Queries

/-! ### Parameters -/

section Parameters

variable (hG : SessionGraded env G) (he : ∀ code text, G 0 (error code text))
include hG

theorem getDescription_graded : G 0 (getDescription env params) :=
  Graded.ite (fun _ => hG.free_bind (hG.readMember _ _) fun _ => hG.ofJson _)
    fun _ => hG.pure _

theorem getLimit_graded : G 0 (getLimit env params) :=
  Graded.ite (fun _ => hG.free_bind (hG.readMember _ _) fun _ => hG.ofJson _)
    fun _ => hG.pure _

include he

theorem answer_graded {α : Type} (a : Answer α) : G 0 (a.run error : M ν (Option α)) :=
  hG.free_bind (hG.each (fun r : ResultCode × String => he r.1 r.2) _) fun _ => hG.ofExcept _

theorem require_graded (key what : String) : G 0 (require env method params key what error) :=
  Graded.ite (fun _ => report_graded hG he _ _ _) fun _ =>
    hG.free_bind (hG.readMember _ _) fun _ => hG.pure _

/-- A required parameter that is then converted. -/
theorem required_graded {α : Type} (key what : String) {f : Option Json → M ν (Option α)}
    (hnone : f none = pure none) (hf : ∀ v, G 0 (f (some v))) :
    G 0 (require env method params key what error >>= f) := by
  refine hG.free_bind (require_graded hG he key what) fun r => ?_
  cases r with
  | none =>
    rw [hnone]
    exact hG.pure _
  | some v => exact hf v

theorem getPrivate_graded : G 0 (getPrivate env api method params error) :=
  required_graded hG he _ _ rfl fun _ => hG.free_bind (hG.ofJson _) fun _ => answer_graded hG he _

theorem getAsset_graded : G 0 (getAsset env api method params error) :=
  required_graded hG he _ _ rfl fun _ => hG.free_bind (hG.ofJson _) fun _ => hG.pure _

theorem getAmount_graded : G 0 (getAmount env method params error) :=
  required_graded hG he _ _ rfl fun _ => hG.free_bind (hG.ofJson _) fun _ => hG.pure _

theorem createRequest_graded (call : CreateCall) : G 0 (createRequest api call error) :=
  hG.free_bind (hG.emit rfl) fun _ =>
    hG.free_bind (hG.each (fun r : ResultCode × String => he r.1 r.2) _) fun _ => hG.ofExcept _

end Parameters

/-! ### Transactions -/

section Transactions

variable (hG : SessionGraded env G) (hc : c.Grades G env api)
include hG

theorem readBody_graded (tx : Option Transaction) : G 0 (readBody env tx) := by
  cases tx with
  | some tx => exact hG.free_bind (hG.emit rfl) fun _ => hG.pure _
  | none =>
    exact hG.free_bind (hG.undefinedRead _ fun _ => .staleTransaction) fun _ =>
      hG.free_bind (hG.emit rfl) fun _ =>
      hG.pure _

include hc

theorem sendBody_graded (pair : Pair) (body : Option Json) :
    G 1 (c.sendBody env api pair body) := by
  cases body with
  | none => exact hG.zero_le (hG.pure _)
  | some x =>
    refine hG.free_bind (hG.ofJson _) fun _ => ?_
    exact hG.bind_free (sendTransaction_graded hG hc pair x) fun _ => hG.pure _

/-- The block id query and the transaction. -/
theorem submit_graded {pair : Pair} {create : UInt256 → M ν CreateCall}
    (hcreate : ∀ id, G 0 (create id)) : G 2 (c.submit env api pair create c.error) := by
  refine hG.bind (m := 1) (n := 1) (getCurrentBlockId_graded hG hc) fun id => ?_
  refine hG.free_bind (hG.emit rfl) fun _ => hG.free_bind ?_ fun blockId => ?_
  · cases id with
    | some id => exact hG.pure id
    | none => exact hG.undefinedRead _ fun _ => .staleBlockId
  · refine hG.free_bind (hcreate blockId) fun call => ?_
    refine hG.free_bind (createRequest_graded hG hc.error call) fun tx => ?_
    exact hG.free_bind (readBody_graded hG tx) fun body => sendBody_graded hG hc pair body

omit hc in
/-- What is checked before a transaction sends nothing. -/
theorem checked_graded {α : Type} {x : M ν (Option α)} {f : Option α → M ν AnyValue} (hx : G 0 x)
    (hnone : f none = pure .nullopt) (hf : ∀ a, G 2 (f (some a))) : G 2 (x >>= f) := by
  refine hG.free_bind hx fun r => ?_
  cases r with
  | none =>
    rw [hnone]
    exact hG.zero_le (hG.pure _)
  | some a => exact hf a

theorem transfer_graded : G 2 (c.transfer env api method params c.error) := by
  refine Graded.ite (fun _ => hG.zero_le (report_graded hG hc.error _ _ _)) fun _ => ?_
  refine checked_graded hG (getPrivate_graded hG hc.error) rfl fun ppk => ?_
  refine checked_graded hG (getAmount_graded hG hc.error) rfl fun amount => ?_
  refine checked_graded hG (getAsset_graded hG hc.error) rfl fun asset => ?_
  refine hG.free_bind (getDescription_graded hG) fun description => submit_graded hG hc fun id => ?_
  refine hG.free_bind (generateTrxId_graded hG) fun _ => ?_
  exact hG.free_bind (hG.readMember _ _) fun _ => hG.free_bind (hG.ofJson _) fun _ => hG.pure _

theorem registerNode_graded : G 2 (c.registerNode env api method params c.error) := by
  refine checked_graded hG (getPrivate_graded hG hc.error) rfl fun ppk => ?_
  refine checked_graded hG (getAmount_graded hG hc.error) rfl fun amount => ?_
  refine checked_graded hG (require_graded hG hc.error _ _) rfl fun address => ?_
  refine submit_graded hG hc fun id => hG.free_bind (generateTrxId_graded hG) fun _ => ?_
  exact hG.free_bind (hG.ofJson _) fun _ => hG.pure _

theorem unregisterNode_graded : G 2 (c.unregisterNode env api method params c.error) := by
  refine checked_graded hG (getPrivate_graded hG hc.error) rfl fun ppk => ?_
  exact submit_graded hG hc fun id => hG.free_bind (generateTrxId_graded hG) fun _ => hG.pure _

theorem voteForRate_graded : G 2 (c.voteForRate env api method params c.error) := by
  refine checked_graded hG (getPrivate_graded hG hc.error) rfl fun ppk => ?_
  refine checked_graded hG (getAmount_graded hG hc.error) rfl fun amount => ?_
  exact submit_graded hG hc fun id => hG.free_bind (generateTrxId_graded hG) fun _ => hG.pure _

end Transactions

/-! ### The dispatcher -/

section Dispatch

variable (hG : SessionGraded env G) (hc : c.Grades G env api)
include hG hc

theorem callPing_graded : G 1 (c.callPing env api) := by
  refine hG.bind_free (ping_graded hG hc) fun t => ?_
  cases t <;> exact hG.pure _

theorem callGetCurrentBlockId_graded : G 1 (c.callGetCurrentBlockId env api) := by
  refine hG.bind_free (getCurrentBlockId_graded hG hc) fun id => ?_
  cases id <;> exact hG.pure _

theorem callGetBlock_graded : G 1 (c.callGetBlock env api method params) := by
  refine hG.free_bind (hG.readMember _ _) fun _ => hG.free_bind (hG.ofJson _) fun sid => ?_
  cases api.stringToUInt256 sid with
  | some id => exact hG.bind_free (query_graded hG hc _ _) fun _ => hG.pure _
  | none => exact hG.zero_le (report_graded hG hc.error _ _ _)

theorem callGetWalletState_graded : G 1 (c.callGetWalletState env api method params) := by
  refine Graded.ite (fun _ => hG.zero_le (report_graded hG hc.error _ _ _)) fun _ => ?_
  refine hG.free_bind (hG.readMember _ _) fun _ => hG.free_bind (hG.ofJson _) fun _ => ?_
  exact hG.bind_free (query_graded hG hc _ _) fun _ => hG.pure _

theorem callGetWalletTransactions_graded :
    G 1 (c.callGetWalletTransactions env api method params) := by
  refine Graded.ite (fun _ => hG.zero_le (report_graded hG hc.error _ _ _)) fun _ => ?_
  refine hG.free_bind (getLimit_graded hG) fun _ => ?_
  refine hG.free_bind (hG.readMember _ _) fun _ => hG.free_bind (hG.ofJson _) fun _ => ?_
  exact hG.bind_free (query_graded hG hc _ _) fun _ => hG.pure _

theorem dispatch_graded : G 2 (c.dispatch env api method params) := by
  have hone : ∀ {x : M ν AnyValue}, G 1 x → G 2 x := fun hx => hG.mono (by decide) hx
  have hquery : ∀ m, G 2 (AnyValue.ofResponse <$> c.query env api m .null) := fun m =>
    hone (hG.map _ (query_graded hG hc m .null))
  unfold dispatch
  refine Graded.ite (fun _ => hone (callPing_graded hG hc)) fun _ => ?_
  refine Graded.ite (fun _ => hone (callGetCurrentBlockId_graded hG hc)) fun _ => ?_
  refine Graded.ite (fun _ => hquery _) fun _ => Graded.ite (fun _ => hquery _) fun _ => ?_
  refine Graded.ite (fun _ => hquery _) fun _ => Graded.ite (fun _ => hquery _) fun _ => ?_
  refine Graded.ite (fun _ => hone (callGetBlock_graded hG hc)) fun _ => ?_
  refine Graded.ite (fun _ => hone (callGetWalletState_graded hG hc)) fun _ => ?_
  refine Graded.ite (fun _ => hone (callGetWalletTransactions_graded hG hc)) fun _ => ?_
  refine Graded.ite (fun _ => transfer_graded hG hc) fun _ => ?_
  refine Graded.ite (fun _ => registerNode_graded hG hc) fun _ => ?_
  refine Graded.ite (fun _ => unregisterNode_graded hG hc) fun _ => ?_
  refine Graded.ite (fun _ => voteForRate_graded hG hc) fun _ => ?_
  exact hG.zero_le (report_graded hG hc.error _ _ _)

/-- **A call sends at most two requests**, with whatever else its handlers do. -/
theorem call_graded : G 2 (c.call env api method params) := by
  refine hG.tryCatch (m := 2) (n := 0) ?_ fun e => ?_
  · exact hG.free_bind (seedCall_graded hG) fun _ => hG.free_bind (rand_graded hG) fun _ =>
      dispatch_graded hG hc
  · obtain ⟨text, htext⟩ := handle_callClauses method c.error e
    rw [htext]
    exact report_graded hG hc.error _ _ _

end Dispatch

end Client

end Rpc

end MileRpc
