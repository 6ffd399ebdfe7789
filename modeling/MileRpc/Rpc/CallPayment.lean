import MileRpc.Rpc.Payment

/-!
# Payments of a client

Which functions of the client can pay when its error handler may retry: a query pays only in a
retry, and gives nothing then (`query_once`); a transaction that asks for the block id without
checking the answer needs that query to be in `K` (`submit_once`).
-/

namespace MileRpc

open Outcome (Gives Halted)

/-- The key library reports at most one error about a key, and none about a key it decodes. -/
def Api.KeyReports (api : Api) : Prop :=
  ∀ key, (api.fromPrivateKey key).reports.length ≤ 1 ∧
    ∀ pair, (api.fromPrivateKey key).outcome = .ok (some pair) →
      (api.fromPrivateKey key).reports = []

namespace Rpc

section Tokens

variable {ν : Type} {env : Env ν} {api : Api} {K : HttpRequest → WriteAnswer → Prop}
  {halts : Prop}

theorem rand_calm : (payments api K halts).Calm (rand api : M ν UInt32) := .modifyGet _

theorem seedCall_calm : (payments api K halts).Calm (seedCall env) :=
  Meter.Calm.bind (Calm.ask _) fun _ => .modifyGet _

theorem generateTrxId_calm : (payments api K halts).Calm (generateTrxId env api) :=
  Meter.Calm.bind (Calm.ask _) fun _ => Meter.Calm.bind (.modifyGet _) fun _ =>
    Meter.Calm.bind rand_calm fun r => .pure r.toUInt64

end Tokens

namespace Client

variable {ν : Type} {env : Env ν} {api : Api} {K : HttpRequest → WriteAnswer → Prop}
  {halts : Prop} {c : Client ν} {error : ErrorHandler ν} {method : String} {params : Json}

/-- The handlers of a client of the command line tools. -/
structure Reporting (m : Meter Event) (halts : Prop) (c : Client ν) : Prop where
  responseFail : c.responseFail = logResponse
  error : Retries m halts c.error

/-- A client has the handlers it was connected with. -/
theorem connect_handlers (urlString : String) (verifySsl : Bool)
    (responseFail : ResponseHandler ν) :
    (connect env urlString verifySsl responseFail error).Ensures fun o _ =>
      ∀ r, o = .ret r → ∀ c, r = some c → c.responseFail = responseFail ∧ c.error = error := by
  unfold connect
  refine Prog.Ensures.bind (R := fun _ _ => True) (fun _ => trivial) ?_ (by simp) (by simp)
  rintro (_ | url) t -
  · exact Prog.Ensures.pure (by simp)
  refine Prog.Ensures.bind
    (R := fun o _ => ∀ c, o = .ret c → c.responseFail = responseFail ∧ c.error = error) ?_ ?_
    (by simp) (by simp)
  · rintro w c h
    cases h
    exact ⟨rfl, rfl⟩
  · intro client u hclient
    refine Prog.Ensures.bind (R := fun _ _ => True) (fun _ => trivial) ?_ (by simp) (by simp)
    rintro (_ | _) v -
    · exact Prog.Ensures.pure (by simp)
    · refine Prog.Ensures.pure fun r hr c hc => ?_
      cases hr
      cases hc
      exact hclient client rfl

/-- What follows a connect pays at most once, and nothing without a client. -/
theorem connect_bind {α : Type} (hh : Retries (payments api K halts) halts error)
    (urlString : String) (verifySsl : Bool) {f : Option (Client ν) → M ν α} {a : α}
    (hnone : f none = pure a)
    (hf : ∀ c, Reporting (payments api K halts) halts c →
      (payments api K halts).Once (Gives a) (f (some c))) :
    (payments api K halts).Once (Gives a)
      (connect env urlString verifySsl logResponse error >>= f) := by
  refine (connect_once hh urlString verifySsl logResponse).bind_of
    (connect_handlers urlString verifySsl logResponse) (fun r hr => ?_) (fun r hr => ?_)
    (fun _ h => h) fun _ h => h
  · cases r with
    | none =>
      rw [hnone]
      exact (Meter.Calm.pure a).once
    | some c =>
      obtain ⟨hresponse, herror⟩ := hr c rfl
      exact hf c ⟨hresponse, herror ▸ hh⟩
  · obtain rfl : r = none := hr
    rw [hnone]
    exact .pure rfl

/-! ### Requests -/

/-- A query pays only in a retry, and gives nothing then. -/
theorem query_once (hc : Reporting (payments api K halts) halts c) (m : String) (p : Json)
    (hne : m ≠ "send-transaction") :
    (payments api K halts).Once (Gives none) (c.query env api m p) := by
  unfold query
  rw [hc.responseFail]
  exact fun w => RpcSession.request_once hc.error (methodOf_command m p w.nextId) hne _

/-- A query in `K` pays nothing. -/
theorem query_calm (hc : Reporting (payments api K halts) halts c) (m : String) (p : Json)
    (hne : m ≠ "send-transaction") (hdump : ∀ id, ∃ data, api.dump (command m p id) = .ok data)
    (hK : ∀ req a, req.payload.bind methodOf = some m → K req a) :
    (payments api K halts).Calm (c.query env api m p) := by
  unfold query
  rw [hc.responseFail]
  exact fun w =>
    RpcSession.request_calm hc.error (methodOf_command m p w.nextId) hne (hdump w.nextId) hK _

theorem sendTransaction_once (hc : Reporting (payments api K halts) halts c)
    (hK : ∀ req a, a.delivered → req.payload.bind methodOf = some "send-transaction" → K req a)
    (pair : Pair) (x : Json) :
    (payments api K halts).Once (Paid api False) (c.sendTransaction env api pair x) := by
  unfold sendTransaction
  rw [hc.responseFail]
  exact fun w => RpcSession.request_paid hc.error (methodOf_set_params _ _ x w.nextId) hK _

/-- What is done with the result of a block id query. -/
theorem blockId_calm (result : Json) :
    (payments api K halts).Calm (if result.isEmpty then pure none
      else do
        let text ← ofJson (blockIdText result)
        match api.stringToUInt256 text with
        | some id => pure (some id)
        | none => do
          let id ← ask env.unwritten
          pure (some id) : M ν (Option UInt256)) := by
  split
  · exact .pure none
  refine Meter.Calm.bind (Calm.ofJson _) fun text => ?_
  split
  · exact .pure _
  · exact Meter.Calm.bind (Calm.ask _) fun id => .pure _

theorem getCurrentBlockId_once (hc : Reporting (payments api K halts) halts c) :
    (payments api K halts).Once (Gives none) (c.getCurrentBlockId env api) := by
  refine Meter.Once.bind (query_once hc _ _ (by decide)) (fun r => ?_) ?_ (fun _ h => h)
    fun _ h => h
  · cases r with
    | none => exact (Meter.Calm.pure none).once
    | some result => exact (blockId_calm result).once
  · rintro r rfl
    exact .pure rfl

/-- The block id query, if it is in `K`. -/
theorem getCurrentBlockId_calm (hc : Reporting (payments api K halts) halts c)
    (hdump : ∀ id, ∃ data, api.dump (command "get-current-block-id" .null id) = .ok data)
    (hK : ∀ req a, req.payload.bind methodOf = some "get-current-block-id" → K req a) :
    (payments api K halts).Calm (c.getCurrentBlockId env api) := by
  refine Meter.Calm.bind (query_calm hc _ _ (by decide) hdump hK) fun r => ?_
  cases r with
  | none => exact .pure none
  | some result => exact blockId_calm result

/-! ### Transactions -/

/-- A factory call pays nothing: in a steady run it reports nothing. -/
theorem createRequest_calm (hh : Retries (payments api K halts) halts error) (call : CreateCall) :
    (payments api K halts).Calm (createRequest api call error) := by
  by_cases hr : (api.create call).reports = []
  · simp only [createRequest, hr, Prog.each_nil]
    exact Meter.Calm.bind (.emit rfl) fun _ => Meter.Calm.bind (.pure ()) fun _ => .ofExcept _
  · -- an error is reported, so that the run is not steady
    intro w hfair
    have hmem : .created call (api.create call).outcome ∈ (createRequest api call error w).trace :=
      Prog.mem_trace_bind_left (by simp)
    have hhalts : halts := hfair.resolve_right fun hs => hr (hs.created call _ hmem).1
    have hcalm : (payments api K halts).Calm (createRequest api call error) :=
      Meter.Calm.bind (.emit rfl) fun _ =>
        Meter.Calm.bind (.each (fun (r : ResultCode × String) => (hh.halts hhalts r.1 r.2).calm) _)
          fun _ => .ofExcept _
    exact hcalm w hfair

theorem readBody_calm (tx : Option Transaction) :
    (payments api K halts).Calm (readBody env tx) := by
  cases tx with
  | some t => exact Meter.Calm.bind (.emit rfl) fun _ => .pure _
  | none =>
    exact Meter.Calm.bind (Calm.undefinedRead _ _) fun t =>
      Meter.Calm.bind (.emit rfl) fun _ => .pure _

theorem readBlockId_calm (id : Option UInt256) :
    (payments api K halts).Calm (readBlockId env id) := by
  cases id with
  | some id => exact .pure id
  | none => exact Calm.undefinedRead _ _

/-! ### Parameters -/

theorem require_calm (hh : Retries (payments api K halts) halts error) (key what : String) :
    (payments api K halts).Calm (require env method params key what error) := by
  unfold require
  split
  · exact (hh.quits_pure (by simp) _ none).calm
  · exact Meter.Calm.bind (Calm.readMember env _ _) fun v => .pure (some v)

theorem getAsset_calm (hh : Retries (payments api K halts) halts error) :
    (payments api K halts).Calm (getAsset env api method params error) := by
  refine Meter.Calm.bind (require_calm hh _ _) fun v => ?_
  cases v with
  | none => exact .pure none
  | some v => exact Meter.Calm.bind (Calm.ofJson _) fun assetCode => .pure _

theorem getAmount_calm (hh : Retries (payments api K halts) halts error) :
    (payments api K halts).Calm (getAmount env method params error) := by
  refine Meter.Calm.bind (require_calm hh _ _) fun v => ?_
  cases v with
  | none => exact .pure none
  | some v => exact Meter.Calm.bind (Calm.ofJson _) fun amount => .pure _

theorem getDescription_calm : (payments api K halts).Calm (getDescription env params) := by
  unfold getDescription
  split
  · exact Meter.Calm.bind (Calm.readMember env _ _) fun v => Calm.ofJson _
  · exact .pure ""

theorem getLimit_calm : (payments api K halts).Calm (getLimit env params) := by
  unfold getLimit
  split
  · exact Meter.Calm.bind (Calm.readMember env _ _) fun v => Calm.ofJson _
  · exact .pure 1

/-- A key that does not decode may be retried; then there is no key pair. -/
theorem getPrivate_once (hh : Retries (payments api K halts) halts error) (hkey : api.KeyReports) :
    (payments api K halts).Once (fun o => ∀ pair, o ≠ .ret (some pair))
      (getPrivate env api method params error) := by
  refine Meter.Calm.bind_once (require_calm hh _ _) fun v => ?_
  cases v with
  | none => exact (Meter.Calm.pure none).once
  | some v =>
    refine Meter.Calm.bind_once (Calm.ofJson _) fun key => ?_
    obtain ⟨hlen, hnone⟩ := hkey key
    unfold Answer.run
    match hr : (api.fromPrivateKey key).reports with
    | [] => exact Meter.Calm.once (Meter.Calm.bind (.pure ()) fun _ => .ofExcept _)
    | [r] =>
      -- the report may be retried, and then there is no pair
      simp only [Prog.each_cons, Prog.each_nil, bind_pure_unit]
      refine Meter.Once.bind (hh.once r.1 r.2) (fun _ => (Meter.Calm.ofExcept _).once)
        (fun _ _ => ?_) (fun _ h => h.elim) fun _ _ => by simp
      match ho : (api.fromPrivateKey key).outcome with
      | .ok none => exact .pure (by simp)
      | .ok (some pair) => simp [hnone pair ho] at hr
      | .error e => exact .raise (by simp)
    | _ :: _ :: _ => simp [hr] at hlen

/-! ### The branches that only query -/

section Queries

variable (hc : Reporting (payments api K halts) halts c)

include hc

/-- A query whose result is turned into a value. -/
theorem query_bind {α : Type} {m : String} {p : Json} (hne : m ≠ "send-transaction")
    {f : Option Json → M ν α} (hf : ∀ r, (payments api K halts).Calm (f r))
    (hnone : ∃ a, f none = pure a) :
    (payments api K halts).Once (fun _ => True) (c.query env api m p >>= f) := by
  obtain ⟨a, ha⟩ := hnone
  refine (query_once hc m p hne).bind (fun r => (hf r).once) (fun r hr => ?_) (fun _ _ => trivial)
    fun _ _ => trivial
  obtain rfl : r = none := hr
  rw [ha]
  exact .pure trivial

theorem ofResponse_once (m : String) (p : Json) (hne : m ≠ "send-transaction") :
    (payments api K halts).Once (fun _ => True)
      (AnyValue.ofResponse <$> c.query env api m p) := by
  rw [map_eq_pure_bind]
  exact query_bind hc hne (fun _ => .pure _) ⟨_, rfl⟩

theorem callPing_once : (payments api K halts).Once (fun _ => True) (c.callPing env api) := by
  simp only [callPing, ping, bind_assoc]
  refine Meter.Calm.bind_once (Calm.ask _) fun start => ?_
  refine query_bind hc (by decide) (fun r => ?_) ⟨_, rfl⟩
  cases r with
  | none => exact .pure _
  | some res =>
    simp only
    split
    · refine Meter.Calm.bind (Meter.Calm.bind (Calm.ask _) fun _ => .pure _) fun t => ?_
      cases t <;> exact .pure _
    · exact .pure _

theorem callGetCurrentBlockId_once :
    (payments api K halts).Once (fun _ => True) (c.callGetCurrentBlockId env api) := by
  refine (getCurrentBlockId_once hc).bind (fun t => ?_) (fun t ht => ?_) (fun _ _ => trivial)
    fun _ _ => trivial
  · cases t with
    | none => exact (Meter.Calm.pure _).once
    | some t => exact (Meter.Calm.pure _).once
  · obtain rfl : t = none := ht
    exact .pure trivial

theorem callGetBlock_once :
    (payments api K halts).Once (fun _ => True) (c.callGetBlock env api method params) := by
  refine Meter.Calm.bind_once (Calm.readMember env _ _) fun sid => ?_
  refine Meter.Calm.bind_once (Calm.ofJson _) fun sid => ?_
  cases api.stringToUInt256 sid with
  | some id => exact query_bind hc (by decide) (fun _ => .pure _) ⟨_, rfl⟩
  | none => exact (hc.error.once_pure _ _ AnyValue.empty).mono fun _ _ => trivial

theorem callGetWalletState_once :
    (payments api K halts).Once (fun _ => True) (c.callGetWalletState env api method params) := by
  unfold callGetWalletState
  refine .ite (hc.error.quits_pure (by simp) _ AnyValue.nullopt).once ?_
  refine Meter.Calm.bind_once (Calm.readMember env _ _) fun key => ?_
  refine Meter.Calm.bind_once (Calm.ofJson _) fun key => ?_
  exact query_bind hc (by decide) (fun _ => .pure _) ⟨_, rfl⟩

theorem callGetWalletTransactions_once :
    (payments api K halts).Once (fun _ => True)
      (c.callGetWalletTransactions env api method params) := by
  unfold callGetWalletTransactions
  refine .ite (hc.error.quits_pure (by simp) _ AnyValue.nullopt).once ?_
  refine Meter.Calm.bind_once getLimit_calm fun limit => ?_
  refine Meter.Calm.bind_once (Calm.readMember env _ _) fun key => ?_
  refine Meter.Calm.bind_once (Calm.ofJson _) fun key => ?_
  exact query_bind hc (by decide) (fun _ => .pure _) ⟨_, rfl⟩

end Queries

/-! ### Building a transaction -/

/-- `K` has every payment and every block id query, and the command of that query has a text. -/
structure Covered (api : Api) (K : HttpRequest → WriteAnswer → Prop) : Prop where
  payment : ∀ req a, a.delivered → req.payload.bind methodOf = some "send-transaction" → K req a
  blockId : ∀ req a, req.payload.bind methodOf = some "get-current-block-id" → K req a
  dump : ∀ id, ∃ data, api.dump (command "get-current-block-id" .null id) = .ok data

theorem sendBody_once (hc : Reporting (payments api K halts) halts c) (hK : Covered api K)
    (pair : Pair) (body : Option Json) :
    (payments api K halts).Once (fun _ => True) (c.sendBody env api pair body) := by
  cases body with
  | none => exact (Meter.Calm.pure AnyValue.empty).once
  | some body =>
    refine Meter.Calm.bind_once (Calm.ofJson _) fun _ => ?_
    exact (sendTransaction_once hc hK.payment pair body).bind
      (fun _ => (Meter.Calm.pure _).once) (fun _ _ => .pure trivial) (fun _ _ => trivial)
      fun _ _ => trivial

/-- The end of a transaction pays at most once. -/
theorem submit_once (hc : Reporting (payments api K halts) halts c) (hK : Covered api K)
    (hh : Retries (payments api K halts) halts error) (pair : Pair)
    {create : UInt256 → M ν CreateCall} (hcreate : ∀ id, (payments api K halts).Calm (create id)) :
    (payments api K halts).Once (fun _ => True) (c.submit env api pair create error) := by
  refine Meter.Calm.bind_once (getCurrentBlockId_calm hc hK.dump hK.blockId) fun id => ?_
  refine Meter.Calm.bind_once (.emit rfl) fun _ => ?_
  refine Meter.Calm.bind_once (readBlockId_calm id) fun blockId => ?_
  refine Meter.Calm.bind_once (hcreate blockId) fun call => ?_
  refine Meter.Calm.bind_once (createRequest_calm hh call) fun tx => ?_
  exact Meter.Calm.bind_once (readBody_calm tx) fun body => sendBody_once hc hK pair body

/-- What follows the key pair pays at most once, and nothing without a key pair. -/
theorem getPrivate_bind (hc : Reporting (payments api K halts) halts c) (hkey : api.KeyReports)
    {f : Option Pair → M ν AnyValue} (hnone : f none = pure .nullopt)
    (hf : ∀ pair, (payments api K halts).Once (fun _ => True) (f (some pair))) :
    (payments api K halts).Once (fun _ => True)
      (getPrivate env api method params c.error >>= f) := by
  refine Meter.Once.bind (getPrivate_once hc.error hkey) (fun ppk => ?_) (fun ppk h => ?_)
    (fun _ _ => trivial) fun _ _ => trivial
  · cases ppk with
    | none =>
      rw [hnone]
      exact (Meter.Calm.pure _).once
    | some pair => exact hf pair
  · cases ppk with
    | none =>
      rw [hnone]
      exact .pure trivial
    | some pair => exact absurd rfl (h pair)

section Builders

variable (hc : Reporting (payments api K halts) halts c) (hK : Covered api K)
  (hkey : api.KeyReports)

include hc hK hkey

theorem transfer_once :
    (payments api K halts).Once (fun _ => True) (c.transfer env api method params c.error) := by
  unfold transfer
  split
  · exact (hc.error.quits_pure (by simp) _ AnyValue.nullopt).once
  refine getPrivate_bind hc hkey rfl fun ppk => ?_
  refine Meter.Calm.bind_once (getAmount_calm hc.error) fun amount => ?_
  cases amount with
  | none => exact (Meter.Calm.pure _).once
  | some amount =>
    refine Meter.Calm.bind_once (getAsset_calm hc.error) fun asset => ?_
    cases asset with
    | none => exact (Meter.Calm.pure _).once
    | some asset =>
      refine Meter.Calm.bind_once getDescription_calm fun description => ?_
      refine submit_once hc hK hc.error ppk fun id => ?_
      refine Meter.Calm.bind generateTrxId_calm fun trxId => ?_
      refine Meter.Calm.bind (Calm.readMember env _ _) fun v => ?_
      exact Meter.Calm.bind (Calm.ofJson _) fun destination => .pure _

theorem registerNode_once :
    (payments api K halts).Once (fun _ => True) (c.registerNode env api method params c.error) := by
  refine getPrivate_bind hc hkey rfl fun ppk => ?_
  refine Meter.Calm.bind_once (getAmount_calm hc.error) fun amount => ?_
  cases amount with
  | none => exact (Meter.Calm.pure _).once
  | some amount =>
    refine Meter.Calm.bind_once (require_calm hc.error _ _) fun address => ?_
    cases address with
    | none => exact (Meter.Calm.pure _).once
    | some address =>
      refine submit_once hc hK hc.error ppk fun id => ?_
      refine Meter.Calm.bind generateTrxId_calm fun trxId => ?_
      exact Meter.Calm.bind (Calm.ofJson _) fun address => .pure _

theorem unregisterNode_once :
    (payments api K halts).Once (fun _ => True)
      (c.unregisterNode env api method params c.error) := by
  refine getPrivate_bind hc hkey rfl fun ppk => ?_
  exact submit_once hc hK hc.error ppk fun id =>
    Meter.Calm.bind generateTrxId_calm fun trxId => .pure _

theorem voteForRate_once :
    (payments api K halts).Once (fun _ => True) (c.voteForRate env api method params c.error) := by
  refine getPrivate_bind hc hkey rfl fun ppk => ?_
  refine Meter.Calm.bind_once (getAmount_calm hc.error) fun amount => ?_
  cases amount with
  | none => exact (Meter.Calm.pure _).once
  | some amount =>
    exact submit_once hc hK hc.error ppk fun id =>
      Meter.Calm.bind generateTrxId_calm fun trxId => .pure _

theorem dispatch_once :
    (payments api K halts).Once (fun _ => True) (c.dispatch env api method params) := by
  unfold dispatch
  refine .ite (callPing_once hc) (.ite (callGetCurrentBlockId_once hc) ?_)
  refine .ite (ofResponse_once hc _ _ (by decide)) (.ite (ofResponse_once hc _ _ (by decide)) ?_)
  refine .ite (ofResponse_once hc _ _ (by decide)) (.ite (ofResponse_once hc _ _ (by decide)) ?_)
  refine .ite (callGetBlock_once hc) (.ite (callGetWalletState_once hc) ?_)
  refine .ite (callGetWalletTransactions_once hc) (.ite (transfer_once hc hK hkey) ?_)
  refine .ite (registerNode_once hc hK hkey) (.ite (unregisterNode_once hc hK hkey) ?_)
  refine .ite (voteForRate_once hc hK hkey) ?_
  exact (hc.error.once_pure _ _ AnyValue.empty).mono fun _ _ => trivial

/-- **A call pays at most once**, retries included, and its exceptions do not leave it. -/
theorem call_once :
    (payments api K halts).Once Outcome.NoThrow (c.call env api method params) := by
  have hbody : (payments api K halts).Once (fun _ => True) (do
      seedCall env
      let _trxId ← rand api
      c.dispatch env api method params) := by
    refine Meter.Calm.bind_once seedCall_calm fun _ => ?_
    exact Meter.Calm.bind_once rand_calm fun _ => dispatch_once hc hK hkey
  have hcatch : ∀ e, (payments api K halts).Quits Outcome.NoThrow (do
      CatchClause.handle (callClauses method) c.error e
      pure AnyValue.empty) := by
    intro e
    obtain ⟨text, htext⟩ := handle_callClauses method c.error e
    rw [htext]
    refine (hc.error.quits_pure (by simp) text AnyValue.empty).mono fun o ho e he => ?_
    rw [he] at ho
    exact ho
  exact hbody.tryCatch (fun e => (hcatch e).once) (fun _ _ => by simp) (fun e _ => hcatch e)
    fun _ _ => by simp

end Builders

end Client

end Rpc

end MileRpc
