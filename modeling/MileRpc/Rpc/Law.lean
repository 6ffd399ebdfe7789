import MileRpc.Session.Law
import MileRpc.Rpc.Call

/-!
# The client under a law

Every function of the client keeps a law that its handlers keep (`HandlersKeep`), if the law allows
the commands and the factory calls that the function makes.  What `call` makes of its parameters is
`CallCommand` and `CreateCall.From`; `CallResult` is what its value tells about the handlers.
-/

namespace MileRpc

/-- A result, or nothing if `R`; a result comes from a reply that counts. -/
def Answered {ν : Type} (L : Law (World ν) Event Stop) (api : Api) (B : Json → Prop) (R : Prop) :
    Option Json → Prop
  | none => R
  | some v => ∃ body res, B body ∧ L.Fair [.reply body res] ∧ api.replyResult res = some v

/-- The world after a command has been made. -/
def World.nextCommand {ν : Type} (w : World ν) : World ν := { w with nextId := w.nextId + 1 }

variable {ν : Type} {L : Law (World ν) Event Stop} {R E T : Prop} {env : Env ν} {api : Api}
  {responseFail : ResponseHandler ν} {error : ErrorHandler ν}

/-! ### Requests -/

namespace RpcSession

variable (hL : L.Lenient) (hh : HandlersKeep L R T responseFail error) {body : Json}
include hh

theorem decodeReply_keeps (hL : L.Tolerant) {res : HttpResponse} (hf : L.Fair [.reply body res]) :
    L.Keeps (Answered L api (· = body) R) True (decodeReply env api body res responseFail) := by
  have hfail : L.Keeps (Answered L api (· = body) R) True
      (failReply env body res responseFail) := by
    refine (Law.Keeps.readMember hL _ _).andThen fun m _ => ?_
    refine (Law.Keeps.ofJson _).andThen fun m _ => ?_
    exact (hh.responseFail _ _ _).bind (fun _ hr => .pure hr) fun _ => trivial
  unfold decodeReply
  by_cases hs : res.status = HttpResponse.ok
  · simp only [hs, ↓reduceIte, pure_bind]
    refine (Law.Keeps.ofJson _).andThen fun j hj => ?_
    cases hv : resultMember j with
    | none => exact hfail
    | some v => exact .pure ⟨body, res, rfl, hf, by simp [Api.replyResult, hs, hj, hv]⟩
  · simp only [hs, ↓reduceIte, pure_bind]
    exact hfail

include hL

theorem requestBody_keeps (s : Session) :
    L.Keeps (Answered L api (· = body) R) True
      (requestBody env api s body responseFail error) := by
  refine (Law.Keeps.ofJson _).andThen fun data _ => ?_
  refine (Session.write_keeps hL.toTolerant hh.error s _).andThen fun b hb => ?_
  cases b with
  | false => exact .pure (hb rfl)
  | true =>
    refine (Session.read_keeps hL.toTolerant hh.error s).andThen fun r hr => ?_
    cases r with
    | none => exact .pure (hr rfl)
    | some res =>
      refine (Law.Keeps.emit fun w hf => hL.reply w hf).andThen fun _ hf => ?_
      exact decodeReply_keeps hh hL.toTolerant hf

/-- What follows the `request` event. -/
theorem tryRequest_keeps (s : Session) :
    L.Keeps (Answered L api (· = body) R) T
      ((requestBody env api s body responseFail error).tryCatch fun e => do
        CatchClause.handle (requestClauses s) error e
        pure none) := by
  refine (requestBody_keeps hL hh s).tryCatch fun _ e => ?_
  obtain ⟨code, text, heq⟩ := handle_eq s error e
  rw [heq]
  exact hh.error.report id id code text

end RpcSession

namespace Rpc.Client

variable {c : Client ν} {method : String} {params : Json}

/-- The handlers of a client keep a law. -/
abbrev Keeping (L : Law (World ν) Event Stop) (R T : Prop) (c : Client ν) : Prop :=
  HandlersKeep L R T c.responseFail c.error

/-- A client that was connected has the handlers it was given. -/
theorem connect_keeps (hL : L.Tolerant) (he : ErrorKeeps L R T error) (urlString : String)
    (verifySsl : Bool) :
    L.Keeps (fun r => (r = none → R) ∧ ∀ c, r = some c →
        c.responseFail = responseFail ∧ c.error = error) True
      (connect env urlString verifySsl responseFail error) := by
  refine (Url.parse_keeps he urlString).andThen fun url hurl => ?_
  cases url with
  | none => exact .pure ⟨fun _ => hurl rfl, nofun⟩
  | some url =>
    refine Law.Keeps.andThen (A := fun c => c.responseFail = responseFail ∧ c.error = error) ?_
      fun c hc => ?_
    · refine (Law.Keeps.gets _).andThen fun timeout _ => ?_
      exact (Law.Keeps.modifyGet fun _ => hL.quiet rfl rfl rfl).andThen fun s _ => .pure ⟨rfl, rfl⟩
    · refine (Session.connect_keeps hL he c.session).bind (fun b hb => ?_) fun _ => trivial
      cases b with
      | true => exact .pure ⟨nofun, fun c' hc' => Option.some.inj hc' ▸ hc⟩
      | false => exact .pure ⟨fun _ => hb rfl, nofun⟩

/-! ### Queries -/

section Queries

variable (hL : L.Lenient) (hc : Keeping L R T c)
include hL hc

/-- A command and its request are one step: the id of the command is the next one. -/
theorem command_keeps (body : UInt64 → Json) {x : M ν (Option Json)} {m : String}
    (hx : ∀ w, x w = (((RpcSession.requestBody env api c.session (body w.nextId) c.responseFail
        c.error).tryCatch fun e => do
          CatchClause.handle (RpcSession.requestClauses c.session) c.error e
          pure none) w.nextCommand).prepend [.request (body w.nextId)])
    (hm : ∀ id, methodOf (body id) = some m)
    (hmoves : ∀ w, L.Moves w [.request (body w.nextId)] w.nextCommand) :
    L.Keeps (Answered L api (methodOf · = some m) R) T x := by
  intro w hw
  rw [hx] at hw ⊢
  refine (Law.Meets.mono (RpcSession.tryRequest_keeps hL hc c.session w.nextCommand
    (L.fair_append hw).2) (fun r hr => ?_) id).prepend (hmoves w)
  cases r with
  | none => exact hr
  | some v =>
    obtain ⟨b, res, rfl, hb⟩ := hr
    exact ⟨_, res, hm w.nextId, hb⟩

theorem query_keeps {m : String} {p : Json}
    (hmoves : ∀ w, L.Moves w [.request (command m p w.nextId)] w.nextCommand) :
    L.Keeps (Answered L api (methodOf · = some m) R) T (c.query env api m p) :=
  command_keeps hL hc (command m p) (fun _ => rfl) (methodOf_command m p) hmoves

theorem sendTransaction_keeps {pair : Pair} {x : Json}
    (hmoves : ∀ w, L.Moves w
      [.request ((command "send-transaction" .null w.nextId).set "params" x)] w.nextCommand) :
    L.Keeps (Answered L api (methodOf · = some "send-transaction") R) T
      (c.sendTransaction env api pair x) :=
  command_keeps hL hc (fun id => (command "send-transaction" .null id).set "params" x)
    (fun _ => rfl) (methodOf_set_params _ _ x) hmoves

/-- An empty result of the block id query that counts. -/
def EmptyResult (L : Law (World ν) Event Stop) (api : Api) : Prop :=
  ∃ body res v, methodOf body = some "get-current-block-id" ∧ L.Fair [.reply body res] ∧
    api.replyResult res = some v ∧ v.isEmpty = true

theorem getCurrentBlockId_keeps
    (hmoves : ∀ w, L.Moves w [.request (command "get-current-block-id" .null w.nextId)]
      w.nextCommand) :
    L.Keeps (fun id => id = none → R ∨ EmptyResult L api) True (c.getCurrentBlockId env api) := by
  refine (query_keeps hL hc hmoves).bind (fun r hr => ?_) fun _ => trivial
  cases r with
  | none => exact .pure fun _ => .inl hr
  | some result =>
    obtain ⟨body, res, hm, hf, hres⟩ := hr
    refine .ite (fun hempty => .pure fun _ => .inr ⟨body, res, result, hm, hf, hres, hempty⟩)
      fun _ => ?_
    refine (Law.Keeps.ofJson _).andThen fun text _ => ?_
    cases api.stringToUInt256 text with
    | some id => exact .pure (by simp)
    | none => exact (Law.Keeps.ask hL.toTolerant _).andThen fun id _ => .pure (by simp)

theorem ping_keeps
    (hmoves : ∀ w, L.Moves w [.request (command "ping" .null w.nextId)] w.nextCommand) :
    L.Keeps (fun t => t = none → R) T (c.ping env api) := by
  refine (Law.Keeps.ask hL.toTolerant _).andThen fun start _ => ?_
  refine (query_keeps hL hc hmoves).andThen fun r hr => ?_
  cases r with
  | none => exact .pure fun _ => hr
  | some res =>
    refine .ite (fun _ => ?_) fun _ => .pure (by simp)
    exact (Law.Keeps.ask hL.toTolerant _).andThen fun stop _ => .pure (by simp)

end Queries

end Rpc.Client

/-! ### What a call makes of its parameters -/

/-- The key library reports an error for every key that it does not decode. -/
def Api.RejectsKeys (api : Api) : Prop :=
  ∀ key, (api.fromPrivateKey key).outcome = .ok none → (api.fromPrivateKey key).reports ≠ []

namespace CreateCall

/-- The amount of a factory call. -/
def amount? : CreateCall → Option Single
  | transfer _ _ _ _ _ amount _ _ => some amount
  | registerNode _ _ _ _ amount _ => some amount
  | unregisterNode _ _ _ _ => none
  | vote _ _ _ amount _ => some amount

/-- The asset of a factory call. -/
def asset? : CreateCall → Option Token
  | transfer _ _ _ _ asset _ _ _ => some asset
  | _ => none

/-- The amount and the asset of the call are those of the parameters. -/
structure From (api : Api) (params : Json) (call : CreateCall) : Prop where
  amount : ∀ a, call.amount? = some a →
    ∃ v, params.member? "amount" = some v ∧ v.getFloat = .ok a
  asset : ∀ t, call.asset? = some t → ∃ v code, params.member? "asset-code" = some v ∧
    v.getUnsignedShort = .ok code ∧ t = api.tokenFromCode code

end CreateCall

namespace Rpc.Client

variable {c : Client ν} {method : String} {params : Json}

/-- The commands that a call may make, but for send-transaction. -/
def CallCommand (params : Json) (m : String) (p : Json) : Prop :=
  m = "get-wallet-transactions" → ∃ (key : String) (limit : Int32),
    p = .object [("public-key", .string key), ("limit", .integer limit.toUInt32.toNat)] ∧
      ∀ v, params.member? "limit" = some v → v.getInt = .ok limit

/-- A law that allows the commands of a call with these parameters. -/
structure QueryLaw (L : Law (World ν) Event Stop) (params : Json) : Prop where
  lenient : L.Lenient
  command : ∀ {m p}, CallCommand params m p → ∀ w,
    L.Moves w [.request (command m p w.nextId)] w.nextCommand

theorem QueryLaw.other (hQ : QueryLaw L params) {m : String} {p : Json}
    (hm : m ≠ "get-wallet-transactions") (w : World ν) :
    L.Moves w [.request (MileRpc.command m p w.nextId)] w.nextCommand :=
  hQ.command (fun h => absurd h hm) w

theorem QueryLaw.tolerant (hQ : QueryLaw L params) : L.Tolerant := hQ.lenient.toTolerant

/-- A law that allows the transactions too. -/
structure CallLaw (L : Law (World ν) Event Stop) (env : Env ν) (api : Api) (params : Json) : Prop
    extends QueryLaw L params where
  trxId : ∀ w, L.Moves w [] (generateTrxId env api w).state
  send : ∀ x w, L.Moves w
    [.request ((MileRpc.command "send-transaction" .null w.nextId).set "params" x)] w.nextCommand
  create : ∀ {call} o, call.From api params → ∀ w, L.Moves w [.created call o] w
  body : ∀ {b} w, L.Fair [.body b] → L.Moves w [.body b] w

/-- What the value of a call tells about the runs that count. -/
structure CallResult (L : Law (World ν) Event Stop) (api : Api) (method : String) (R E : Prop)
    (r : AnyValue) : Prop where
  nullopt : api.RejectsKeys → r = .nullopt → E
  empty : r = .empty → R ∨ (method = "get-current-block-id" ∧ EmptyResult L api) ∨
    L.Fair [.body none]
  response : ∀ o, r = .response o → ∃ v res, o = some v ∧ api.replyResult res = some v

theorem CallResult.ofResponse {B : Json → Prop} {r : Option Json} (h : Answered L api B R r) :
    CallResult L api method R E (.ofResponse r) := by
  cases r with
  | none => exact ⟨fun _ => nofun, fun _ => .inl h, nofun⟩
  | some v =>
    obtain ⟨body, res, -, -, hres⟩ := h
    refine ⟨fun _ => nofun, nofun, fun o ho => ?_⟩
    obtain rfl : some v = o := by simpa [AnyValue.ofResponse] using ho
    exact ⟨v, res, rfl, hres⟩

theorem CallResult.giveUp (h : E) : CallResult L api method R E .nullopt :=
  ⟨fun _ _ => h, nofun, nofun⟩

theorem CallResult.nothing (h : R) : CallResult L api method R E .empty :=
  ⟨fun _ => nofun, fun _ => .inl h, nofun⟩

/-! ### Parameters -/

section Parameters

variable (hL : L.Tolerant) (he : ErrorKeeps L E T error)

include he in
theorem require_keeps (key what : String) :
    L.Keeps (fun r => (r = none → E) ∧ ∀ v, r = some v → params.member? key = some v) True
      (require env method params key what error) := by
  unfold require
  split_ifs with h
  · exact he.report (fun hr => ⟨fun _ => hr, nofun⟩) (fun _ => trivial) _ _
  · obtain ⟨u, hu⟩ := Json.count_pos.1 (Nat.pos_of_ne_zero h)
    rw [readMember_of_member hu]
    exact .pure ⟨nofun, fun v hv => by rw [hu, hv]⟩

include he in
theorem getPrivate_keeps :
    L.Keeps (fun r => (api.RejectsKeys → r = none → E) ∧
        ∀ p, r = some p → params.member? "private-key" ≠ none) True
      (getPrivate env api method params error) := by
  refine (require_keeps he _ _).andThen fun r hr => ?_
  cases r with
  | none => exact .pure ⟨fun _ _ => hr.1 rfl, nofun⟩
  | some v =>
    have hmember : params.member? "private-key" ≠ none := by
      rw [hr.2 v rfl]
      exact Option.some_ne_none v
    refine (Law.Keeps.ofJson _).andThen fun key _ => ?_
    refine (Law.Keeps.each fun r _ => he r.1 r.2).bind (fun _ hreported => ?_)
      fun _ => trivial
    refine (Law.Keeps.ofExcept _).weaken fun r hr => ⟨fun hkey hnone => hreported (hkey key ?_),
      fun _ _ => hmember⟩
    rw [hr, hnone]

include he in
theorem getAmount_keeps :
    L.Keeps (fun r => (r = none → E) ∧ ∀ a, r = some a →
      ∃ v, params.member? "amount" = some v ∧ v.getFloat = .ok a) True
      (getAmount env method params error) := by
  refine (require_keeps he _ _).andThen fun r hr => ?_
  cases r with
  | none => exact .pure ⟨fun _ => hr.1 rfl, nofun⟩
  | some v =>
    refine (Law.Keeps.ofJson _).andThen fun a ha => .pure ⟨nofun, fun b hb => ?_⟩
    exact ⟨v, hr.2 v rfl, by rw [ha, Option.some.inj hb]⟩

include he in
theorem getAsset_keeps :
    L.Keeps (fun r => (r = none → E) ∧ ∀ t, r = some t → ∃ v code,
      params.member? "asset-code" = some v ∧ v.getUnsignedShort = .ok code ∧
        t = api.tokenFromCode code) True
      (getAsset env api method params error) := by
  refine (require_keeps he _ _).andThen fun r hr => ?_
  cases r with
  | none => exact .pure ⟨fun _ => hr.1 rfl, nofun⟩
  | some v =>
    refine (Law.Keeps.ofJson _).andThen fun code hcode => .pure ⟨nofun, fun t ht => ?_⟩
    exact ⟨v, code, hr.2 v rfl, hcode, (Option.some.inj ht).symm⟩

include hL in
theorem getDescription_keeps : L.Keeps (fun _ => True) True (getDescription env params) :=
  .ite (fun _ => (Law.Keeps.readMember hL _ _).andThen fun _ _ =>
    (Law.Keeps.ofJson _).weaken fun _ _ => trivial) fun _ => .pure trivial

include hL in
theorem getLimit_keeps :
    L.Keeps (fun limit => ∀ v, params.member? "limit" = some v → v.getInt = .ok limit) True
      (getLimit env params) := by
  refine .ite (fun _ => ?_) fun h => .pure fun v hv => absurd (Json.count_pos.2 ⟨v, hv⟩) h
  refine (Law.Keeps.readMember hL _ _).andThen fun u hu => ?_
  exact (Law.Keeps.ofJson _).weaken fun limit hlimit v hv => by rw [← hu v hv, hlimit]

end Parameters

/-! ### Transactions -/

section Transactions

variable (hC : CallLaw L env api params) (hc : Keeping L R T c)

theorem readBlockId_keeps (hL : L.Tolerant) (id : Option UInt256) :
    L.Keeps (fun _ => True) T (readBlockId env id) := by
  cases id with
  | some id => exact .pure trivial
  | none => exact (Law.Keeps.undefinedRead hL _ _).weaken fun _ _ => trivial

theorem readBody_keeps (hL : L.Tolerant)
    (hbody : ∀ {b} w, L.Fair [.body b] → L.Moves w [.body b] w) (tx : Option Transaction) :
    L.Keeps (fun b => L.Fair [.body b]) T (readBody env tx) := by
  cases tx with
  | some tx => exact (Law.Keeps.emit fun w hf => hbody w hf).andThen fun _ hf => .pure hf
  | none =>
    refine (Law.Keeps.undefinedRead hL _ _).andThen fun tx _ => ?_
    exact (Law.Keeps.emit fun w hf => hbody w hf).andThen fun _ hf => .pure hf

theorem createRequest_keeps {call : CreateCall}
    (hmoves : ∀ o w, L.Moves w [.created call o] w)
    (he : ErrorKeeps L R T error) :
    L.Keeps (fun _ => True) True (createRequest api call error) := by
  refine (Law.Keeps.emit fun w _ => hmoves _ w).andThen fun _ _ => ?_
  refine (Law.Keeps.each fun r _ => he r.1 r.2).bind (fun _ _ => ?_) fun _ => trivial
  exact (Law.Keeps.ofExcept _).weaken fun _ _ => trivial

include hC hc

theorem sendBody_keeps {pair : Pair} {body : Option Json} (hf : L.Fair [.body body]) :
    L.Keeps (CallResult L api method R E) True (c.sendBody env api pair body) := by
  cases body with
  | none => exact .pure ⟨fun _ => nofun, fun _ => .inr (.inr hf), nofun⟩
  | some x =>
    refine (Law.Keeps.ofJson _).andThen fun _ _ => ?_
    refine (sendTransaction_keeps hC.lenient hc fun w => hC.send x w).bind (fun r hr => ?_)
      fun _ => trivial
    exact .pure (CallResult.ofResponse hr)

/-- The end of a transaction, if the factory call is made from the parameters. -/
theorem submit_keeps {pair : Pair} {create : UInt256 → M ν CreateCall}
    (hcreate : ∀ id, L.Keeps (fun call => call.From api params) True (create id)) :
    L.Keeps (CallResult L api method R E) True (c.submit env api pair create c.error) := by
  refine (getCurrentBlockId_keeps hC.lenient hc fun w => hC.other (by decide) w).andThen
    fun id _ => ?_
  refine (Law.Keeps.plain hC.tolerant rfl).andThen fun _ _ => ?_
  refine (readBlockId_keeps hC.tolerant id).andThen fun blockId _ => ?_
  refine (hcreate blockId).andThen fun call hcall => ?_
  refine (createRequest_keeps (fun o w => hC.create o hcall w) hc.error).andThen fun tx _ => ?_
  exact (readBody_keeps hC.tolerant hC.body tx).andThen fun body hf => sendBody_keeps hC hc hf

omit hc in
theorem generateTrxId_keeps : L.Keeps (fun _ => True) T (generateTrxId env api) :=
  fun w _ => ⟨hC.trxId w, trivial⟩

omit hC hc in
/-- A value that a check returned, or a handler that did. -/
theorem check_keeps {α : Type} {x : M ν (Option α)} {A : Option α → Prop}
    {f : Option α → M ν AnyValue} (hx : L.Keeps A True x) (hnone : f none = pure .nullopt)
    (hE : api.RejectsKeys → A none → E) (hf : ∀ a, A (some a) →
      L.Keeps (CallResult L api method R E) True (f (some a))) :
    L.Keeps (CallResult L api method R E) True (x >>= f) := by
  refine hx.andThen fun r hr => ?_
  cases r with
  | none =>
    rw [hnone]
    exact .pure ⟨fun hkeys _ => hE hkeys hr, nofun, nofun⟩
  | some a => exact hf a hr

variable (he : ErrorKeeps L E T c.error)
include he

theorem transfer_keeps :
    L.Keeps (CallResult L api method R E) True (c.transfer env api method params c.error) := by
  refine .ite (fun _ => ?_) fun _ => ?_
  · exact he.report CallResult.giveUp (fun _ => trivial) _ _
  refine check_keeps (getPrivate_keeps he) rfl (fun hkeys h => h.1 hkeys rfl) fun ppk _ => ?_
  refine check_keeps (getAmount_keeps he) rfl (fun _ h => h.1 rfl) fun amount hamount => ?_
  refine check_keeps (getAsset_keeps he) rfl (fun _ h => h.1 rfl) fun asset hasset => ?_
  refine (getDescription_keeps hC.tolerant).andThen fun description _ => ?_
  refine submit_keeps hC hc fun id => ?_
  refine (generateTrxId_keeps hC).andThen fun trxId _ => ?_
  refine (Law.Keeps.readMember hC.tolerant _ _).andThen fun destination _ => ?_
  refine (Law.Keeps.ofJson _).andThen fun destination _ => .pure ⟨fun a ha => ?_, fun t ht => ?_⟩
  · exact hamount.2 a (by simpa [CreateCall.amount?] using ha)
  · exact hasset.2 t (by simpa [CreateCall.asset?] using ht)

theorem registerNode_keeps :
    L.Keeps (CallResult L api method R E) True (c.registerNode env api method params c.error) := by
  refine check_keeps (getPrivate_keeps he) rfl (fun hkeys h => h.1 hkeys rfl) fun ppk _ => ?_
  refine check_keeps (getAmount_keeps he) rfl (fun _ h => h.1 rfl) fun amount hamount => ?_
  refine check_keeps (require_keeps he _ _) rfl (fun _ h => h.1 rfl) fun address _ => ?_
  refine submit_keeps hC hc fun id => ?_
  refine (generateTrxId_keeps hC).andThen fun trxId _ => ?_
  refine (Law.Keeps.ofJson _).andThen fun address _ => .pure ⟨fun a ha => ?_, nofun⟩
  exact hamount.2 a (by simpa [CreateCall.amount?] using ha)

theorem unregisterNode_keeps :
    L.Keeps (CallResult L api method R E) True
      (c.unregisterNode env api method params c.error) := by
  refine check_keeps (getPrivate_keeps he) rfl (fun hkeys h => h.1 hkeys rfl) fun ppk _ => ?_
  refine submit_keeps hC hc fun id => ?_
  exact (generateTrxId_keeps hC).andThen fun trxId _ => .pure ⟨nofun, nofun⟩

theorem voteForRate_keeps :
    L.Keeps (CallResult L api method R E) True (c.voteForRate env api method params c.error) := by
  refine check_keeps (getPrivate_keeps he) rfl (fun hkeys h => h.1 hkeys rfl) fun ppk _ => ?_
  refine check_keeps (getAmount_keeps he) rfl (fun _ h => h.1 rfl) fun amount hamount => ?_
  refine submit_keeps hC hc fun id => ?_
  refine (generateTrxId_keeps hC).andThen fun trxId _ => .pure ⟨fun a ha => ?_, nofun⟩
  exact hamount.2 a (by simpa [CreateCall.amount?] using ha)

end Transactions

/-! ### The dispatcher -/

section Dispatch

variable (hQ : QueryLaw L params) (hc : Keeping L R T c) (he : ErrorKeeps L E T c.error)

/-- A response of a query. -/
theorem response_keeps {x : M ν (Option Json)} {m : String}
    (hx : L.Keeps (Answered L api (methodOf · = some m) R) T x) :
    L.Keeps (CallResult L api method R E) True (x >>= fun t => pure (AnyValue.ofResponse t)) :=
  hx.bind (fun _ hr => .pure (CallResult.ofResponse hr)) fun _ => trivial

include hQ hc

theorem callPing_keeps : L.Keeps (CallResult L api method R E) True (c.callPing env api) := by
  refine (ping_keeps hQ.lenient hc fun w => hQ.other (by decide) w).bind (fun t ht => ?_)
    fun _ => trivial
  cases t with
  | some t => exact .pure ⟨fun _ => nofun, nofun, nofun⟩
  | none => exact .pure (CallResult.nothing (ht rfl))

theorem callGetCurrentBlockId_keeps (hm : method = "get-current-block-id") :
    L.Keeps (CallResult L api method R E) True (c.callGetCurrentBlockId env api) := by
  refine (getCurrentBlockId_keeps hQ.lenient hc fun w => hQ.other (by decide) w).andThen
    fun id hid => ?_
  cases id with
  | some id => exact .pure ⟨fun _ => nofun, nofun, nofun⟩
  | none => exact .pure ⟨fun _ => nofun, fun _ => (hid rfl).imp_right fun h => .inl ⟨hm, h⟩, nofun⟩

theorem callGetBlock_keeps :
    L.Keeps (CallResult L api method R E) True (c.callGetBlock env api method params) := by
  refine (Law.Keeps.readMember hQ.tolerant _ _).andThen fun sid _ => ?_
  refine (Law.Keeps.ofJson _).andThen fun sid _ => ?_
  cases api.stringToUInt256 sid with
  | some id => exact response_keeps (query_keeps hQ.lenient hc fun w => hQ.other (by decide) w)
  | none =>
    exact hc.error.report CallResult.nothing (fun _ => trivial) _ _

include he in
theorem callGetWalletState_keeps :
    L.Keeps (CallResult L api method R E) True (c.callGetWalletState env api method params) := by
  refine .ite (fun _ => ?_) fun _ => ?_
  · exact he.report CallResult.giveUp (fun _ => trivial) _ _
  refine (Law.Keeps.readMember hQ.tolerant _ _).andThen fun key _ => ?_
  refine (Law.Keeps.ofJson _).andThen fun key _ => ?_
  exact response_keeps (query_keeps hQ.lenient hc fun w => hQ.other (by decide) w)

include he in
theorem callGetWalletTransactions_keeps :
    L.Keeps (CallResult L api method R E) True
      (c.callGetWalletTransactions env api method params) := by
  refine .ite (fun _ => ?_) fun _ => ?_
  · exact he.report CallResult.giveUp (fun _ => trivial) _ _
  refine (getLimit_keeps hQ.tolerant).andThen fun limit hlimit => ?_
  refine (Law.Keeps.readMember hQ.tolerant _ _).andThen fun key _ => ?_
  refine (Law.Keeps.ofJson _).andThen fun key _ => ?_
  refine response_keeps (query_keeps hQ.lenient hc fun w => hQ.command ?_ w)
  exact fun _ => ⟨key, limit, rfl, hlimit⟩

include he in
/-- The branches that build no transaction. -/
theorem dispatch_query_keeps
    (hm : method ∉ ["send-transfer", "register-node", "unregister-node", "vote-for-rate"]) :
    L.Keeps (CallResult L api method R E) True (c.dispatch env api method params) := by
  have hquery : ∀ m, m ≠ "get-wallet-transactions" → L.Keeps (CallResult L api method R E) True
      (AnyValue.ofResponse <$> c.query env api m .null) := by
    intro m hm
    rw [← bind_pure_comp]
    exact response_keeps (query_keeps hQ.lenient hc fun w => hQ.other hm w)
  simp only [List.mem_cons, List.not_mem_nil, or_false, not_or] at hm
  unfold dispatch
  refine .ite (fun _ => callPing_keeps hQ hc) fun _ => ?_
  refine .ite (fun h => callGetCurrentBlockId_keeps hQ hc h) fun _ => ?_
  refine .ite (fun _ => hquery _ (by decide)) fun _ => ?_
  refine .ite (fun _ => hquery _ (by decide)) fun _ => ?_
  refine .ite (fun _ => hquery _ (by decide)) fun _ => ?_
  refine .ite (fun _ => hquery _ (by decide)) fun _ => ?_
  refine .ite (fun _ => callGetBlock_keeps hQ hc) fun _ => ?_
  refine .ite (fun _ => callGetWalletState_keeps hQ hc he) fun _ => ?_
  refine .ite (fun _ => callGetWalletTransactions_keeps hQ hc he) fun _ => ?_
  rw [if_neg hm.1, if_neg hm.2.1, if_neg hm.2.2.1, if_neg hm.2.2.2]
  exact hc.error.report CallResult.nothing (fun _ => trivial) _ _

end Dispatch

theorem seedCall_keeps (hL : L.Tolerant) : L.Keeps (fun _ => True) T (seedCall env) := by
  refine (Law.Keeps.ask hL _).andThen fun now _ => ?_
  exact (Law.Keeps.modifyGet fun _ => hL.quiet rfl rfl rfl).weaken fun _ _ => trivial

theorem rand_keeps (hL : L.Tolerant) : L.Keeps (fun _ => True) T (rand api : M ν UInt32) :=
  (Law.Keeps.modifyGet fun _ => hL.quiet rfl rfl rfl).weaken fun _ _ => trivial

section Calls

variable (hC : CallLaw L env api params) (hc : Keeping L R T c) (he : ErrorKeeps L E T c.error)
include hC hc he

theorem dispatch_keeps :
    L.Keeps (CallResult L api method R E) True (c.dispatch env api method params) := by
  by_cases hm : method ∈ ["send-transfer", "register-node", "unregister-node", "vote-for-rate"]
  · simp only [List.mem_cons, List.not_mem_nil, or_false] at hm
    rcases hm with rfl | rfl | rfl | rfl
    · exact transfer_keeps hC hc he
    · exact registerNode_keeps hC hc he
    · exact unregisterNode_keeps hC hc he
    · exact voteForRate_keeps hC hc he
  · exact dispatch_query_keeps hC.toQueryLaw hc he hm

/-- **A call keeps every law** that its handlers keep and that allows what a call with its
parameters does; it throws only what a handler throws. -/
theorem call_keeps : L.Keeps (CallResult L api method R E) T (c.call env api method params) := by
  refine Law.Keeps.tryCatch (T := True) ?_ fun _ e => ?_
  · refine (seedCall_keeps hC.tolerant).andThen fun _ _ => ?_
    exact (rand_keeps hC.tolerant).andThen fun _ _ => dispatch_keeps hC hc he
  · obtain ⟨text, heq⟩ := handle_callClauses method c.error e
    rw [heq]
    exact hc.error.report CallResult.nothing id _ _

end Calls

end Rpc.Client

end MileRpc
