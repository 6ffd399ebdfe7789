import MileRpc.Rpc.Provenance

/-!
# Where the transactions of a call come from

`AsksQuery` and `Asks` say which queries and which factory call the parameters of a `call` ask for.
A call makes no other ones, with whatever handlers: every key, amount, asset and text is read from
the parameters, and the block id is one that the query has returned (`call_learns`), which the node
has told if what it told is an id (`ReturnedBlockId`).
-/

namespace MileRpc

namespace Rpc.Client

/-! ### What the parameters ask for -/

/-- The parameter `key` reads as `a`. -/
def Param {α : Type} (params : Json) (key : String) (read : Json → Except JsonError α) (a : α) :
    Prop :=
  ∃ v, params.member? key = some v ∧ read v = .ok a

/-- The key pair of the private key. -/
def AsksPair (api : Api) (params : Json) (ppk : Pair) : Prop :=
  ∃ key, Param params "private-key" Json.getString key ∧
    (api.fromPrivateKey key).outcome = .ok (some ppk)

/-- The asset of the code. -/
def AsksAsset (api : Api) (params : Json) (asset : Token) : Prop :=
  ∃ code, Param params "asset-code" Json.getUnsignedShort code ∧ asset = api.tokenFromCode code

/-- The description, which may be missing. -/
def AsksDescription (params : Json) (description : String) : Prop :=
  Param params "description" Json.getString description ∨
    params.member? "description" = none ∧ description = ""

/-- The limit, which may be missing. -/
def AsksLimit (params : Json) (limit : Int32) : Prop :=
  Param params "limit" Json.getInt limit ∨ params.member? "limit" = none ∧ limit = 1

/-- The methods that are queries of the same name. -/
def plainMethods : List String :=
  ["ping", "get-current-block-id", "get-network-state", "get-nodes", "get-blockchain-info",
    "get-blockchain-state"]

/-- The methods that make a transaction. -/
def transactionMethods : List String :=
  ["send-transfer", "register-node", "unregister-node", "vote-for-rate"]

/-- The query that a method makes with these parameters. -/
inductive AsksQuery (api : Api) (params : Json) : String → String → Json → Prop
  | plain {method : String} : method ∈ plainMethods → AsksQuery api params method method .null
  | block {sid : String} {id : UInt256} : Param params "id" Json.getString sid →
      api.stringToUInt256 sid = some id →
      AsksQuery api params "get-block" "get-block-by-id" (.object [("id", api.uint256ToJson id)])
  /-- Without an id, which is not checked, whatever is read there is asked for. -/
  | staleBlock (id : UInt256) : params.member? "id" = none →
      AsksQuery api params "get-block" "get-block-by-id" (.object [("id", api.uint256ToJson id)])
  | walletState {key : String} : Param params "public-key" Json.getString key →
      AsksQuery api params "get-wallet-state" "get-wallet-state"
        (.object [("public-key", .string key)])
  | walletTransactions {key : String} {limit : Int32} :
      Param params "public-key" Json.getString key → AsksLimit params limit →
      AsksQuery api params "get-wallet-transactions" "get-wallet-transactions"
        (.object [("public-key", .string key), ("limit", .integer limit.toUInt32.toNat)])
  | blockId {method : String} : method ∈ transactionMethods →
      AsksQuery api params method "get-current-block-id" .null

/-- The factory call, with this block id, that a method asks for with these parameters. -/
inductive Asks (api : Api) (params : Json) (blockId : UInt256) : String → CreateCall → Prop
  | transfer {ppk : Pair} {destination : String} {asset : Token} {amount : Single}
      {description : String} (trxId : UInt64) : AsksPair api params ppk →
      Param params "to" Json.getString destination → AsksAsset api params asset →
      Param params "amount" Json.getFloat amount → AsksDescription params description →
      Asks api params blockId "send-transfer"
        (.transfer ppk destination blockId trxId asset amount .zero description)
  | registerNode {ppk : Pair} {address : String} {amount : Single} (trxId : UInt64) :
      AsksPair api params ppk → Param params "address" Json.getString address →
      Param params "amount" Json.getFloat amount →
      Asks api params blockId "register-node"
        (.registerNode ppk address blockId trxId amount .zero)
  | unregisterNode {ppk : Pair} (trxId : UInt64) : AsksPair api params ppk →
      Asks api params blockId "unregister-node" (.unregisterNode ppk blockId trxId .zero)
  | vote {ppk : Pair} {amount : Single} (trxId : UInt64) : AsksPair api params ppk →
      Param params "amount" Json.getFloat amount →
      Asks api params blockId "vote-for-rate" (.vote ppk blockId trxId amount .zero)

/-- The node has told the block id, or a text that is no id, or an empty optional was read. -/
def UsedBlockId (api : Api) (blockId : UInt256) : Fact Event :=
  (ReturnedBlockId api blockId).or (.seen (.undefined .emptyBlockId))

/-- A purpose for which this call may be made. -/
structure Serves (api : Api) (P : Purpose) (method : String) (params : Json) : Prop where
  asked : ∀ {m : String} {p : Json}, AsksQuery api params method m p → P.asked m p
  made : ∀ {call : CreateCall} {blockId : UInt256} {h : List Event},
    Asks api params blockId method call → UsedBlockId api blockId h → P.made call h
  sent : ∀ {x : Json} {h : List Event}, .body (some x) ∈ h → P.sent x h
  emptyBlockId : ∀ {h : List Event}, .blockId none ∈ h → P.undefined .emptyBlockId h
  missingKey : method = "get-block" → params.member? "id" = none → ∀ h, P.undefined .missingKey h

/-- Where the value of a call comes from. -/
def CallTold (api : Api) (method : String) : AnyValue → Fact Event
  | .time _ => .always (method = "ping")
  | .uint256 id => ReturnedBlockId api id
  | .response (some v) => .any fun m => Told api m v
  | .response none => .always False
  | _ => .always True

variable {ν : Type} {env : Env ν} {api : Api} {P : Purpose} {K : Fact Event} {c : Client ν}
  {method : String} {params : Json} {error : ErrorHandler ν}

theorem CallTold.ofResponse {m : String} {r : Option Json} {h : List Event}
    (hr : ToldIf api m r h) : CallTold api method (.ofResponse r) h := by
  cases r with
  | none => trivial
  | some v => exact ⟨m, hr⟩

/-! ### Parameters -/

section Parameters

variable (herror : ∀ code text, (error code text).Justified api P)

/-- A parameter that is there. -/
theorem learns_member {α : Type} {key : String} {f : Json → M ν α} {V : α → Fact Event}
    (hkey : params.count key ≠ 0)
    (hf : ∀ v, params.member? key = some v → (f v).Learns (Sourced api P) K V) :
    (readMember env params key >>= f).Learns (Sourced api P) K V := by
  obtain ⟨v, hv⟩ := Json.count_pos.1 (Nat.pos_of_ne_zero hkey)
  rw [readMember_of_member hv]
  exact hf v hv

include herror

theorem require_learns (key what : String) :
    (require env method params key what error).Learns (Sourced api P) K fun r =>
      .always (∀ v, r = some v → params.member? key = some v) := by
  refine .ite (fun _ => learns_report herror _ _ fun _ => nofun) fun hkey => ?_
  exact learns_member hkey fun v hv => .pure fun _ _ u hu => Option.some.inj hu ▸ hv

theorem getPrivate_learns :
    (getPrivate env api method params error).Learns (Sourced api P) K fun r =>
      .always (∀ ppk, r = some ppk → AsksPair api params ppk) := by
  refine (require_learns herror _ _).bind fun r => .assume fun hr => ?_
  cases r with
  | none => exact .pure fun _ _ => nofun
  | some v =>
    refine (learns_ofJson _).bind fun key => .assume fun hkey => ?_
    have hreports : (Prog.each (fun r => error r.1 r.2)
        (api.fromPrivateKey key).reports).Justified api P :=
      (sourced_graded api P _).each (fun r : ResultCode × String => herror r.1 r.2) _
    refine hreports.learns.bind fun _ => (Prog.Learns.ofExcept _).weaken fun r h hr' => ?_
    have hout : (api.fromPrivateKey key).outcome = .ok r := hr'
    rintro ppk rfl
    exact ⟨key, ⟨v, hr v rfl, hkey⟩, hout⟩

theorem getAmount_learns :
    (getAmount env method params error).Learns (Sourced api P) K fun r =>
      .always (∀ amount, r = some amount → Param params "amount" Json.getFloat amount) := by
  refine (require_learns herror _ _).bind fun r => .assume fun hr => ?_
  cases r with
  | none => exact .pure fun _ _ => nofun
  | some v =>
    refine (learns_ofJson _).bind fun amount => .assume fun ha => .pure fun _ _ a heq => ?_
    exact ⟨v, hr v rfl, Option.some.inj heq ▸ ha⟩

theorem getAsset_learns :
    (getAsset env api method params error).Learns (Sourced api P) K fun r =>
      .always (∀ asset, r = some asset → AsksAsset api params asset) := by
  refine (require_learns herror _ _).bind fun r => .assume fun hr => ?_
  cases r with
  | none => exact .pure fun _ _ => nofun
  | some v =>
    refine (learns_ofJson _).bind fun code => .assume fun hc => .pure fun _ _ a heq => ?_
    exact ⟨code, ⟨v, hr v rfl, hc⟩, (Option.some.inj heq).symm⟩

omit herror

theorem getDescription_learns :
    (getDescription env params).Learns (Sourced api P) K fun d =>
      .always (AsksDescription params d) := by
  refine .ite (fun hkey => ?_) fun hkey => .pure fun _ _ => .inr ⟨?_, rfl⟩
  · refine learns_member hkey.ne' fun v hv => (learns_ofJson _).weaken fun d _ hd => ?_
    exact .inl ⟨v, hv, hd⟩
  · exact Json.count_eq_zero.1 (Nat.eq_zero_of_not_pos hkey)

theorem getLimit_learns :
    (getLimit env params).Learns (Sourced api P) K fun limit =>
      .always (AsksLimit params limit) := by
  refine .ite (fun hkey => ?_) fun hkey => .pure fun _ _ => .inr ⟨?_, rfl⟩
  · refine learns_member hkey.ne' fun v hv => (learns_ofJson _).weaken fun limit _ hlimit => ?_
    exact .inl ⟨v, hv, hlimit⟩
  · exact Json.count_eq_zero.1 (Nat.eq_zero_of_not_pos hkey)

theorem generateTrxId_learns :
    (generateTrxId env api).Learns (Sourced api P) K fun _ => .always True := by
  refine (learns_ask _).bind fun _ => Prog.Learns.bind .modifyGet fun _ => ?_
  exact Prog.Learns.bind .modifyGet fun _ => .pure fun _ _ => trivial

end Parameters

/-! ### Transactions -/

section Transactions

variable (hP : Serves api P method params) (hh : HandlersJustified api P c.responseFail c.error)
include hP hh

theorem sendBody_learns {pair : Pair} {body : Option Json} (hbody : ∀ h, K h → .body body ∈ h) :
    (c.sendBody env api pair body).Learns (Sourced api P) K (CallTold api method) := by
  cases body with
  | none => exact .pure fun _ _ => trivial
  | some x =>
    refine (learns_ofJson _).bind fun _ => ?_
    refine Prog.Learns.bind (sendTransaction_learns hh fun h hK => hP.sent (hbody h hK.1))
      fun r => .pure fun _ hK => CallTold.ofResponse hK.2

/-- The end of a transaction, if the factory call is the one that was asked for. -/
theorem submit_learns (hm : method ∈ transactionMethods) {pair : Pair}
    {create : UInt256 → M ν CreateCall}
    (hcreate : ∀ {L : Fact Event} id, (create id).Learns (Sourced api P) L fun call =>
      .always (Asks api params id method call)) :
    (c.submit env api pair create c.error).Learns (Sourced api P) K (CallTold api method) := by
  have hread : ∀ {L : Fact Event} (id : Option UInt256), (∀ i h, id = some i → L h →
      ReturnedBlockId api i h) → (∀ h, id = none → L h → .blockId none ∈ h) →
      (readBlockId env id).Learns (Sourced api P) L (UsedBlockId api) := by
    intro L id hsome hnone
    cases id with
    | some i => exact .pure fun h hL => .inl (hsome i h rfl hL)
    | none =>
      refine (learns_undefinedRead _ fun h hL => .undefined ?_).weaken fun _ _ hu => .inr hu
      exact hP.emptyBlockId (hnone h rfl hL)
  refine (getCurrentBlockId_learns hh (hP.asked (.blockId hm))).bind fun id => ?_
  refine Prog.Learns.bind (.emit fun h hK => .blockId fun i hi => ?_) fun _ => ?_
  · subst hi
    exact hK.2
  refine Prog.Learns.bind (hread id (fun i h hi hK => ?_) fun h hi hK => ?_) fun blockId => ?_
  · subst hi
    exact hK.1.2
  · subst hi
    exact hK.2
  refine (hcreate blockId).bind fun call => .assume fun hcall => ?_
  refine Prog.Learns.bind (createRequest_learns (fun h hK => hP.made hcall hK.2) hh.error)
    fun tx => ?_
  exact Prog.Learns.bind (readBody_learns fun h hK => hK.2) fun body =>
    sendBody_learns hP hh fun h hK => hK.2

omit hP hh in
/-- What is checked before a transaction; where it fails, nothing is known of a value. -/
theorem checked_learns {α : Type} {A : α → Prop} {x : M ν (Option α)}
    {f : Option α → M ν AnyValue}
    (hx : x.Learns (Sourced api P) K fun r => .always (∀ a, r = some a → A a))
    (hnone : f none = pure .nullopt)
    (hf : ∀ a, A a → (f (some a)).Learns (Sourced api P) K (CallTold api method)) :
    (x >>= f).Learns (Sourced api P) K (CallTold api method) := by
  refine hx.bind fun r => .assume fun hr => ?_
  cases r with
  | none =>
    rw [hnone]
    exact .pure fun _ _ => trivial
  | some a => exact hf a (hr a rfl)

theorem transfer_learns (hm : method = "send-transfer") :
    (c.transfer env api method params c.error).Learns (Sourced api P) K
      (CallTold api method) := by
  subst hm
  refine .ite (fun _ => learns_report hh.error _ _ fun _ => trivial) fun hto => ?_
  refine checked_learns (getPrivate_learns hh.error) rfl fun ppk hppk => ?_
  refine checked_learns (getAmount_learns hh.error) rfl fun amount hamount => ?_
  refine checked_learns (getAsset_learns hh.error) rfl fun asset hasset => ?_
  refine getDescription_learns.bind fun description => .assume fun hdescription => ?_
  refine submit_learns hP hh (by decide) fun id => generateTrxId_learns.bind fun trxId => ?_
  refine learns_member hto fun v hv => ?_
  refine (learns_ofJson _).bind fun destination => .assume fun hdestination => ?_
  exact .pure fun _ _ => .transfer trxId hppk ⟨v, hv, hdestination⟩ hasset hamount hdescription

theorem registerNode_learns (hm : method = "register-node") :
    (c.registerNode env api method params c.error).Learns (Sourced api P) K
      (CallTold api method) := by
  subst hm
  refine checked_learns (getPrivate_learns hh.error) rfl fun ppk hppk => ?_
  refine checked_learns (getAmount_learns hh.error) rfl fun amount hamount => ?_
  refine checked_learns (require_learns hh.error _ _) rfl fun v hv => ?_
  refine submit_learns hP hh (by decide) fun id => generateTrxId_learns.bind fun trxId => ?_
  refine (learns_ofJson _).bind fun address => .assume fun haddress => ?_
  exact .pure fun _ _ => .registerNode trxId hppk ⟨v, hv, haddress⟩ hamount

theorem unregisterNode_learns (hm : method = "unregister-node") :
    (c.unregisterNode env api method params c.error).Learns (Sourced api P) K
      (CallTold api method) := by
  subst hm
  refine checked_learns (getPrivate_learns hh.error) rfl fun ppk hppk => ?_
  refine submit_learns hP hh (by decide) fun id => generateTrxId_learns.bind fun trxId => ?_
  exact .pure fun _ _ => .unregisterNode trxId hppk

theorem voteForRate_learns (hm : method = "vote-for-rate") :
    (c.voteForRate env api method params c.error).Learns (Sourced api P) K
      (CallTold api method) := by
  subst hm
  refine checked_learns (getPrivate_learns hh.error) rfl fun ppk hppk => ?_
  refine checked_learns (getAmount_learns hh.error) rfl fun amount hamount => ?_
  refine submit_learns hP hh (by decide) fun id => generateTrxId_learns.bind fun trxId => ?_
  exact .pure fun _ _ => .vote trxId hppk hamount

end Transactions

/-! ### The dispatcher -/

section Dispatch

variable (hP : Serves api P method params) (hh : HandlersJustified api P c.responseFail c.error)
include hh

/-- A query of which the result is the value. -/
theorem response_learns {m : String} {p : Json} (hm : m ≠ "send-transaction")
    (hask : P.asked m p) : (do
      let t ← c.query env api m p
      pure (AnyValue.ofResponse t)).Learns (Sourced api P) K (CallTold api method) :=
  (query_learns hh hm hask).bind fun _ => .pure fun _ hK => CallTold.ofResponse hK.2

theorem ping_learns (hask : P.asked "ping" .null) :
    (c.ping env api).Learns (Sourced api P) K fun _ => .always True := by
  refine (learns_ask _).bind fun _ => (query_learns hh (by decide) hask).bind fun r => ?_
  cases r with
  | none => exact .pure fun _ _ => trivial
  | some res =>
    refine .ite (fun _ => ?_) fun _ => .pure fun _ _ => trivial
    exact (learns_ask _).bind fun _ => .pure fun _ _ => trivial

include hP

theorem callPing_learns (hm : method = "ping") :
    (c.callPing env api).Learns (Sourced api P) K (CallTold api method) := by
  subst hm
  refine (ping_learns hh (hP.asked (.plain (by decide)))).bind fun t => ?_
  cases t with
  | none => exact .pure fun _ _ => trivial
  | some t => exact .pure fun _ _ => rfl

theorem callGetCurrentBlockId_learns (hm : method = "get-current-block-id") :
    (c.callGetCurrentBlockId env api).Learns (Sourced api P) K (CallTold api method) := by
  subst hm
  refine (getCurrentBlockId_learns hh (hP.asked (.plain (by decide)))).bind fun id => ?_
  cases id with
  | none => exact .pure fun _ _ => trivial
  | some id => exact .pure fun _ hK => hK.2

theorem callGetWalletState_learns (hm : method = "get-wallet-state") :
    (c.callGetWalletState env api method params).Learns (Sourced api P) K
      (CallTold api method) := by
  subst hm
  refine .ite (fun _ => learns_report hh.error _ _ fun _ => trivial) fun hkey => ?_
  refine learns_member hkey fun v hv => (learns_ofJson _).bind fun key => .assume fun hread => ?_
  exact response_learns hh (by decide) (hP.asked (.walletState ⟨v, hv, hread⟩))

theorem callGetWalletTransactions_learns (hm : method = "get-wallet-transactions") :
    (c.callGetWalletTransactions env api method params).Learns (Sourced api P) K
      (CallTold api method) := by
  subst hm
  refine .ite (fun _ => learns_report hh.error _ _ fun _ => trivial) fun hkey => ?_
  refine getLimit_learns.bind fun limit => .assume fun hlimit => ?_
  refine learns_member hkey fun v hv => (learns_ofJson _).bind fun key => .assume fun hread => ?_
  exact response_learns hh (by decide) (hP.asked (.walletTransactions ⟨v, hv, hread⟩ hlimit))

/-- The one parameter that is read without a check. -/
theorem callGetBlock_learns (hm : method = "get-block") :
    (c.callGetBlock env api method params).Learns (Sourced api P) K (CallTold api method) := by
  subst hm
  have hread : (readMember env params "id").Learns (Sourced api P) K fun v =>
      .always (params.member? "id" = some v ∨ params.member? "id" = none) := by
    refine (learns_ofJson _).bind fun r => .assume fun hr => ?_
    cases r with
    | some v => exact .pure fun _ _ => .inl (Json.constIndex_eq_some.1 hr)
    | none =>
      have hmissing : params.member? "id" = none := by
        cases params with
        | object fields => simpa [Json.member?, Json.constIndex] using hr
        | _ => rfl
      exact (learns_undefinedRead _ fun h _ => .undefined (hP.missingKey rfl hmissing h)).weaken
        fun _ _ _ => .inr hmissing
  refine hread.bind fun v => .assume fun hv => ?_
  refine (learns_ofJson _).bind fun sid => .assume fun hsid => ?_
  cases hid : api.stringToUInt256 sid with
  | none => exact learns_report hh.error _ _ fun _ => trivial
  | some id =>
    refine response_learns hh (by decide) (hP.asked ?_)
    rcases hv with hv | hmissing
    · exact .block ⟨v, hv, hsid⟩ hid
    · exact .staleBlock id hmissing

theorem dispatch_learns :
    (c.dispatch env api method params).Learns (Sourced api P) K (CallTold api method) := by
  have hquery : ∀ m ∈ plainMethods, method = m →
      (AnyValue.ofResponse <$> c.query env api m .null).Learns (Sourced api P) K
        (CallTold api method) := by
    intro m hm hmethod
    subst hmethod
    rw [← bind_pure_comp]
    exact response_learns hh (by rintro rfl; simp [plainMethods] at hm) (hP.asked (.plain hm))
  unfold dispatch
  refine .ite (fun hm => callPing_learns hP hh hm) fun _ => ?_
  refine .ite (fun hm => callGetCurrentBlockId_learns hP hh hm) fun _ => ?_
  refine .ite (fun hm => hquery _ (by decide) hm) fun _ => ?_
  refine .ite (fun hm => hquery _ (by decide) hm) fun _ => ?_
  refine .ite (fun hm => hquery _ (by decide) hm) fun _ => ?_
  refine .ite (fun hm => hquery _ (by decide) hm) fun _ => ?_
  refine .ite (fun hm => callGetBlock_learns hP hh hm) fun _ => ?_
  refine .ite (fun hm => callGetWalletState_learns hP hh hm) fun _ => ?_
  refine .ite (fun hm => callGetWalletTransactions_learns hP hh hm) fun _ => ?_
  refine .ite (fun hm => transfer_learns hP hh hm) fun _ => ?_
  refine .ite (fun hm => registerNode_learns hP hh hm) fun _ => ?_
  refine .ite (fun hm => unregisterNode_learns hP hh hm) fun _ => ?_
  refine .ite (fun hm => voteForRate_learns hP hh hm) fun _ => ?_
  exact learns_report hh.error _ _ fun _ => trivial

/-- **A call does what its parameters ask for**, and its value goes back to a reply. -/
theorem call_learns :
    (c.call env api method params).Learns (Sourced api P) K (CallTold api method) := by
  refine .tryCatch ?_ fun e => ?_
  · have hseed : (seedCall env).Learns (Sourced api P) K fun _ => .always True :=
      (learns_ask _).bind fun _ => .modifyGet
    exact hseed.bind fun _ => Prog.Learns.bind .modifyGet fun _ => dispatch_learns hP hh
  · obtain ⟨text, htext⟩ := handle_callClauses method c.error e
    rw [htext]
    exact learns_report hh.error _ _ fun _ => trivial

end Dispatch

end Rpc.Client

end MileRpc
