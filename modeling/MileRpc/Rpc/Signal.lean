import MileRpc.Rpc.Submit

/-!
# What a call signals

The `std::any` that `Client::call` returns is meant to have a value exactly if the method
completed: its last request was answered with a result (`Completed`).  `Truthful` says this of one
run, together with what the value is and that nothing has a value after a failure.

The branches give up in two ways, with `std::any()` and with `std::nullopt`.  The second converts
to an any that has a value, so a missing parameter or a key that does not decode is signalled as
success.  `call_signals_iff` says exactly when a call is truthful (`Signals`).
-/

namespace MileRpc

namespace Rpc

/-- The results: a `time_t`, a `uint256_t` or a non-empty response. -/
def AnyValue.IsResult : AnyValue → Prop
  | .time _ => True
  | .uint256 _ => True
  | .response (some _) => True
  | _ => False

theorem AnyValue.IsResult.hasValue {a : AnyValue} (h : a.IsResult) : a.hasValue = true := by
  cases a <;> simp_all [AnyValue.IsResult, AnyValue.hasValue]

namespace Client

variable {ν : Type} {env : Env ν} {api : Api} {c : Client ν} {method : String} {params : Json}

/-! ### The property -/

/-- The id in a result of get-current-block-id converts. -/
def IdConverts (api : Api) (result : Json) : Prop :=
  ∃ text, blockIdText result = .ok text ∧ api.stringToUInt256 text ≠ none

/-- The last request of `method` was answered with a result, and a block id converts. -/
def Completed (api : Api) (method : String) (t : List Event) : Prop :=
  ∃ m body res result, (methodKind method).rpcMethods.getLast? = some m ∧
    methodOf body = some m ∧ .reply body res ∈ t ∧ api.replyResult res = some result ∧
    (method = "get-current-block-id" → IdConverts api result)

/-- A parameter is missing or does not convert, or the private key does not decode. -/
def ParamsFail (env : Env ν) (api : Api) (method : String) (params : Json) : Prop :=
  (∃ r, prepare env api method params = some (.error r)) ∨
  (method = "get-block" ∧
    ∀ v s, params.member? "id" = some v → v.getString = .ok s → api.stringToUInt256 s = none) ∨
  (method ∈ ["get-wallet-state", "get-wallet-transactions"] ∧
    ∀ v s, params.member? "public-key" = some v → v.getString ≠ .ok s) ∨
  (method = "get-wallet-transactions" ∧
    ∃ v e, params.member? "limit" = some v ∧ v.getInt = .error e) ∨
  (methodKind method).rpcMethods = []

/-- A request was not answered with a result. -/
def RequestFails (api : Api) (t : List Event) : Prop :=
  ∃ b ∈ requests t, ∀ res, .reply b res ∈ t → api.replyResult res = none

/-- The returned any has a value if and only if the method completed, and then it is a result; and
it has none after a failure. -/
def Truthful (env : Env ν) (api : Api) (method : String) (params : Json)
    (o : Outcome Exn Stop AnyValue) (t : List Event) : Prop :=
  NoUndefined t ∧ ∃ a, o = .ret a ∧ (a.hasValue = true ↔ Completed api method t) ∧
    (a.hasValue = true → a.IsResult) ∧
    (ParamsFail env api method params ∨ RequestFails api t → a.hasValue = false)

/-! ### The condition -/

/-- The call does not give up with `std::nullopt`, reads no missing key and no empty optional, and
a block id that it returns converts. -/
structure Signals (env : Env ν) (api : Api) (c : Client ν) (method : String) (params : Json)
    (w : World ν) : Prop where
  /-- The id that the node gives converts. -/
  blockId : method = "get-current-block-id" → ∀ result text,
    (c.query env api "get-current-block-id" .null w).outcome = .ret (some result) →
      blockIdText result = .ok text → api.stringToUInt256 text ≠ none
  /-- The parameters of get-block are not an object without an id. -/
  id : method = "get-block" → params.constIndex "id" ≠ .ok none
  /-- The public key is there. -/
  publicKey : method ∈ ["get-wallet-state", "get-wallet-transactions"] →
    params.member? "public-key" ≠ none
  /-- No required parameter is missing and the private key decodes. -/
  required : prepare env api method params ≠ some (.error .missing)
  /-- The end of a transaction is defined. -/
  transaction : ∀ pair create, prepare env api method params = some (.ok (pair, create)) →
    SubmitDefined env api c create w

/-! ### Runs without a reply and runs with one -/

/-- The branch ends without a value. -/
def NoValue (o : Outcome Exn Stop AnyValue) : Prop := o = .ret .empty ∨ ∃ e, o = .throw e

theorem NoValue.recover {o : Outcome Exn Stop AnyValue} (h : NoValue o) :
    o.recover .empty = .ret .empty := by
  rcases h with rfl | ⟨e, rfl⟩ <;> rfl

/-- No reply to a request of the method `m`. -/
def NoReply (m : String) (t : List Event) : Prop := ∀ b res, .reply b res ∈ t → methodOf b ≠ some m

theorem noReply_of_local {t : List Event} (h : Local t) (m : String) : NoReply m t :=
  fun b res hr => absurd hr (h.reply b res)

theorem not_completed {t : List Event} {m : String}
    (hm : (methodKind method).rpcMethods.getLast? = some m) (h : NoReply m t) :
    ¬ Completed api method t := by
  rintro ⟨m', body, res, result, hm', hb, hr, -⟩
  rw [hm] at hm'
  cases hm'
  exact h body res hr hb

/-- A run with the exchange of the last request completed if that was answered. -/
theorem completed_iff {pre t post : List Event} {m : String} {b : Json} {r : Option Json}
    (hm : (methodKind method).rpcMethods.getLast? = some m) (hb : methodOf b = some m)
    (he : Exchange api b r t) (hpre : NoReply m pre) (hpost : NoReply m post) :
    Completed api method (pre ++ t ++ post) ↔
      ∃ v, r = some v ∧ (method = "get-current-block-id" → IdConverts api v) := by
  constructor
  · rintro ⟨m', body, res, result, hm', hb', hr, hres, hid⟩
    rw [hm] at hm'
    cases hm'
    have hr' : .reply body res ∈ t := by
      simp only [List.mem_append] at hr
      rcases hr with (hr | hr) | hr
      · exact absurd hb' (hpre body res hr)
      · exact hr
      · exact absurd hb' (hpost body res hr)
    obtain rfl : body = b := he.about.reply hr'
    cases r with
    | none =>
      rw [he.failed rfl res hr'] at hres
      cases hres
    | some v =>
      obtain ⟨res', hmem, hv⟩ := he.answered v rfl
      rw [(hmem res).1 hr', hv] at hres
      exact ⟨v, rfl, by rwa [Option.some.inj hres]⟩
  · rintro ⟨v, rfl, hid⟩
    obtain ⟨res, hmem, hv⟩ := he.answered v rfl
    refine ⟨m, b, res, v, hm, hb, ?_, hv, hid⟩
    simp [hmem]

theorem Exchange.not_fails {b v : Json} {t : List Event} (he : Exchange api b (some v) t) :
    ¬ ∀ res, .reply b res ∈ t → api.replyResult res = none := by
  intro hfail
  obtain ⟨res, hmem, hv⟩ := he.answered v rfl
  rw [hfail res ((hmem res).2 rfl)] at hv
  cases hv

theorem truthful_of_rejected (hp : Passive c.responseFail c.error) (w : World ν)
    (ht : Outputs (c.dispatch env api method params (seeded env api w)).trace)
    (ho : NoValue (c.dispatch env api method params (seeded env api w)).outcome) :
    Truthful env api method params (c.call env api method params w).outcome
      (c.call env api method params w).trace := by
  obtain ⟨u, hu, htrace, hout⟩ := call_eq env api method params hp w
  rw [htrace, hout, ho.recover]
  have hl : Local ((c.dispatch env api method params (seeded env api w)).trace ++ u) :=
    ht.local.append hu.local
  refine ⟨hl.noUndefined, .empty, rfl, ?_, by simp [AnyValue.hasValue], fun _ => rfl⟩
  simp only [AnyValue.hasValue, Bool.false_eq_true, false_iff]
  rintro ⟨m, body, res, result, -, -, hr, -⟩
  exact hl.reply body res hr

/-- A call whose branch made its one query is truthful, if it returns a result exactly for a good
answer. -/
theorem truthful_of_answered (hp : Passive c.responseFail c.error) {m : String} {b : Json}
    {r : Option Json} (good : Json → Prop) (w : World ν)
    (hm : (methodKind method).rpcMethods.getLast? = some m)
    (hok : ¬ ParamsFail env api method params) (hb : methodOf b = some m)
    (he : Exchange api b r (c.dispatch env api method params (seeded env api w)).trace)
    (hgood : ∀ v, good v ↔ (method = "get-current-block-id" → IdConverts api v))
    (hres : ∀ v, r = some v → good v → ∃ a,
      (c.dispatch env api method params (seeded env api w)).outcome = .ret a ∧ a.IsResult)
    (hno : (∀ v, r = some v → ¬ good v) →
      NoValue (c.dispatch env api method params (seeded env api w)).outcome) :
    Truthful env api method params (c.call env api method params w).outcome
      (c.call env api method params w).trace := by
  obtain ⟨u, hu, htrace, hout⟩ := call_eq env api method params hp w
  have hc : Completed api method
      ([] ++ (c.dispatch env api method params (seeded env api w)).trace ++ u) ↔ _ :=
    completed_iff hm hb he (noReply_of_local Local.nil m) (noReply_of_local hu.local m)
  rw [List.nil_append] at hc
  rw [htrace, hout]
  refine ⟨NoUndefined.append he.about.noUndefined hu.local.noUndefined, ?_⟩
  by_cases hv : ∃ v, r = some v ∧ good v
  · -- the request was answered well: the call completed
    obtain ⟨v, hr, hg⟩ := hv
    obtain ⟨a, ha, hresult⟩ := hres v hr hg
    rw [ha]
    refine ⟨a, rfl, ?_, fun _ => hresult, ?_⟩
    · rw [hc]
      exact ⟨fun _ => ⟨v, hr, (hgood v).1 hg⟩, fun _ => hresult.hasValue⟩
    · rintro (hf | ⟨b', hb', hfail⟩)
      · exact absurd hf hok
      · rw [requests_append, he.requests, hu.local.requests, List.append_nil,
          List.mem_singleton] at hb'
        subst hb' hr
        exact (he.not_fails fun res h => hfail res (List.mem_append_left _ h)).elim
  · have hn : ∀ v, r = some v → ¬ good v := fun v hr hg => hv ⟨v, hr, hg⟩
    rw [(hno hn).recover]
    refine ⟨.empty, rfl, ?_, by simp [AnyValue.hasValue], fun _ => rfl⟩
    rw [hc]
    simp only [AnyValue.hasValue, Bool.false_eq_true, false_iff]
    rintro ⟨v, hr, hg⟩
    exact hn v hr ((hgood v).2 hg)

/-! ### The queries -/

/-- A branch with one query of `m`: it was rejected, or it returns a result if the query was
answered. -/
def QueryRun (env : Env ν) (api : Api) (method : String) (params : Json) (m : String)
    (o : Outcome Exn Stop AnyValue) (t : List Event) : Prop :=
  (Outputs t ∧ NoValue o) ∨ ¬ ParamsFail env api method params ∧
    ∃ b r, methodOf b = some m ∧ Exchange api b r t ∧
      (∀ v, r = some v → ∃ a, o = .ret a ∧ a.IsResult) ∧ (r = none → NoValue o)

theorem truthful_of_queryRun (hp : Passive c.responseFail c.error) {m : String} (w : World ν)
    (hm : methodKind method = .query m) (hid : method ≠ "get-current-block-id")
    (h : (c.dispatch env api method params).Ensures (QueryRun env api method params m)) :
    Truthful env api method params (c.call env api method params w).outcome
      (c.call env api method params w).trace := by
  rcases h (seeded env api w) with ⟨ht, ho⟩ | ⟨hok, b, r, hb, he, hres, hno⟩
  · exact truthful_of_rejected hp w ht ho
  · refine truthful_of_answered hp (fun _ => True) w (by rw [hm]; rfl) hok hb he
      (fun v => by simp [hid]) (fun v hr _ => hres v hr) fun hn => hno ?_
    cases r with
    | none => rfl
    | some v => exact absurd trivial (hn v rfl)

/-- The rule for a query that is followed by a return. -/
theorem queryRun_of_query (hp : Passive c.responseFail c.error) {m : String} (p : Json)
    {f : Option Json → M ν AnyValue} (hok : ¬ ParamsFail env api method params)
    (hsome : ∀ v, (f (some v)).Ensures fun o t => t = [] ∧ ∃ a, o = .ret a ∧ a.IsResult)
    (hnone : f none = pure .empty) :
    (c.query env api m p >>= f).Ensures (QueryRun env api method params m) := by
  refine (query_exchange hp m p).bind ?_ ?_ ?_
  · rintro r t ⟨b, _, hb, ⟨⟩, he⟩
    cases r with
    | none =>
      rw [hnone]
      refine Prog.Ensures.pure (.inr ⟨hok, b, none, hb, by rwa [List.append_nil], by simp, ?_⟩)
      exact fun _ => .inl rfl
    | some v =>
      refine (hsome v).mono fun o u hu => ?_
      obtain ⟨rfl, a, ho, ha⟩ := hu
      exact .inr ⟨hok, b, some v, hb, by rwa [List.append_nil], fun _ _ => ⟨a, ho, ha⟩, by simp⟩
  · rintro e t ⟨b, r, hb, h, he⟩
    cases h
  · rintro e t ⟨b, r, hb, h, he⟩
    cases h

theorem response_queryRun (hp : Passive c.responseFail c.error) {m : String} (p : Json)
    (hok : ¬ ParamsFail env api method params) :
    (AnyValue.ofResponse <$> c.query env api m p).Ensures (QueryRun env api method params m) := by
  rw [map_eq_pure_bind]
  exact queryRun_of_query hp p hok (fun v _ => ⟨rfl, _, rfl, trivial⟩) rfl

theorem callPing_queryRun (hp : Passive c.responseFail c.error)
    (hok : ¬ ParamsFail env api method params) :
    (c.callPing env api).Ensures (QueryRun env api method params "ping") := by
  unfold callPing ping
  simp only [bind_assoc]
  refine Prog.Ensures.ask_bind fun start => ?_
  refine queryRun_of_query hp _ hok (fun v => ?_) (by simp)
  simp only
  split_ifs
  · simp only [bind_assoc, pure_bind]
    exact fun _ => ⟨rfl, _, rfl, trivial⟩
  · exact fun _ => ⟨rfl, _, rfl, trivial⟩

theorem not_paramsFail (hm : method ∈ ["ping", "get-current-block-id", "get-network-state",
    "get-nodes", "get-blockchain-info", "get-blockchain-state"]) :
    ¬ ParamsFail env api method params := by
  simp only [List.mem_cons, List.not_mem_nil, or_false] at hm
  rcases hm with rfl | rfl | rfl | rfl | rfl | rfl <;>
    simp [ParamsFail, prepare, methodKind, List.lookup_cons, MethodKind.rpcMethods]

theorem callGetBlock_queryRun (hp : Passive c.responseFail c.error)
    (hid : params.constIndex "id" ≠ .ok none) :
    (c.callGetBlock env api "get-block" params).Ensures
      (QueryRun env api "get-block" params "get-block-by-id") := by
  unfold callGetBlock readMember
  simp only [bind_assoc]
  refine Prog.Ensures.ofJson_bind (fun r hr => ?_) fun e _ => .inl ⟨Outputs.nil, .inr ⟨_, rfl⟩⟩
  cases r with
  | none => exact absurd hr hid
  | some v =>
    simp only [pure_bind]
    refine Prog.Ensures.ofJson_bind (fun sid hs => ?_) fun e _ => .inl ⟨Outputs.nil, .inr ⟨_, rfl⟩⟩
    cases hconv : api.stringToUInt256 sid with
    | none =>
      refine (hp.error _ _).ensures.bind (fun _ t ht => ?_) (by simp) (by simp)
      refine Prog.Ensures.pure (.inl ⟨?_, .inl rfl⟩)
      rw [List.append_nil]
      exact ht.2
    | some id =>
      have hok : ¬ ParamsFail env api "get-block" params := by
        have hv := Json.constIndex_eq_some.1 hr
        simp only [ParamsFail, prepare, methodKind, List.lookup_cons, MethodKind.rpcMethods]
        simp [hv, hs, hconv]
      exact queryRun_of_query hp _ hok (fun v _ => ⟨rfl, _, rfl, trivial⟩) rfl

/-- The public key, its conversion and the query that follows. -/
theorem publicKey_queryRun (hp : Passive c.responseFail c.error) {m : String} {v : Json}
    (hv : params.member? "public-key" = some v) {q : String → M ν (Option Json)}
    (hq : ∀ key, ∃ p, q key = c.query env api m p)
    (hok : ∀ s, v.getString = .ok s → ¬ ParamsFail env api method params) :
    (do let key ← readMember env params "public-key"
        let key ← ofJson key.getString
        let t ← q key
        pure (AnyValue.ofResponse t) : M ν AnyValue).Ensures
      (QueryRun env api method params m) := by
  rw [readMember_of_member hv, pure_bind]
  refine Prog.Ensures.ofJson_bind (fun key hs => ?_) fun e _ => .inl ⟨Outputs.nil, .inr ⟨_, rfl⟩⟩
  obtain ⟨p, hqk⟩ := hq key
  rw [hqk]
  exact queryRun_of_query hp _ (hok key hs) (fun v _ => ⟨rfl, _, rfl, trivial⟩) rfl

theorem callGetWalletState_queryRun (hp : Passive c.responseFail c.error)
    (hkey : params.member? "public-key" ≠ none) :
    (c.callGetWalletState env api "get-wallet-state" params).Ensures
      (QueryRun env api "get-wallet-state" params "get-wallet-state") := by
  obtain ⟨v, hv⟩ := Option.ne_none_iff_exists'.1 hkey
  unfold callGetWalletState
  rw [if_neg (by simp [Json.count_eq_zero, hv])]
  refine publicKey_queryRun hp hv (fun key => ⟨_, rfl⟩) fun s hs => ?_
  simp only [ParamsFail, prepare, methodKind, List.lookup_cons, MethodKind.rpcMethods]
  simp [hv, hs]

theorem callGetWalletTransactions_queryRun (hp : Passive c.responseFail c.error)
    (hkey : params.member? "public-key" ≠ none) :
    (c.callGetWalletTransactions env api "get-wallet-transactions" params).Ensures
      (QueryRun env api "get-wallet-transactions" params "get-wallet-transactions") := by
  obtain ⟨v, hv⟩ := Option.ne_none_iff_exists'.1 hkey
  unfold callGetWalletTransactions getLimit
  rw [if_neg (by simp [Json.count_eq_zero, hv])]
  cases hl : params.member? "limit" with
  | none =>
    rw [if_neg (by simp [Json.count_eq_zero.2 hl]), pure_bind]
    refine publicKey_queryRun hp hv (fun key => ⟨_, rfl⟩) fun s hs => ?_
    simp only [ParamsFail, prepare, methodKind, List.lookup_cons, MethodKind.rpcMethods]
    simp [hv, hs, hl]
  | some l =>
    rw [if_pos (Json.count_pos.2 ⟨l, hl⟩), readMember_of_member hl, pure_bind]
    refine Prog.Ensures.ofJson_bind (fun limit hlimit => ?_) fun e _ =>
      .inl ⟨Outputs.nil, .inr ⟨_, rfl⟩⟩
    refine publicKey_queryRun hp hv (fun key => ⟨_, rfl⟩) fun s hs => ?_
    simp only [ParamsFail, prepare, methodKind, List.lookup_cons, MethodKind.rpcMethods]
    simp [hv, hs, hl, hlimit]

/-! ### The block id -/

theorem blockIdText_of_isEmpty {v : Json} (h : v.isEmpty = true) (text : String) :
    blockIdText v ≠ .ok text := by
  cases v with
  | object fields =>
    obtain rfl : fields = [] := by simpa [Json.isEmpty] using h
    simp [blockIdText, Json.index, Json.getString, bind, Except.bind]
  | _ => simp_all [Json.isEmpty, blockIdText, Json.index, bind, Except.bind, Json.getString]

/-- What the branch of get-current-block-id does with the answer of its query. -/
theorem callGetCurrentBlockId_cases (env : Env ν) (api : Api)
    (hp : Passive c.responseFail c.error) (w : World ν) :
    ∃ b r, methodOf b = some "get-current-block-id" ∧
      (c.query env api "get-current-block-id" .null w).outcome = .ret r ∧
      Exchange api b r (c.callGetCurrentBlockId env api w).trace ∧
      (r = none → (c.callGetCurrentBlockId env api w).outcome = .ret .empty) ∧
      ∀ v, r = some v →
        (∀ text, blockIdText v = .ok text →
          ∃ id, (c.callGetCurrentBlockId env api w).outcome = .ret (.uint256 id)) ∧
        ((∀ text, blockIdText v ≠ .ok text) →
          NoValue (c.callGetCurrentBlockId env api w).outcome) := by
  have hquery : (c.query env api "get-current-block-id" .null).Ensures _ := query_exchange hp _ _
  obtain ⟨b, r, hb, hr, he⟩ := hquery w
  refine ⟨b, r, hb, hr, ?_⟩
  unfold callGetCurrentBlockId getCurrentBlockId
  simp only [bind_assoc]
  rcases hq : c.query env api "get-current-block-id" .null w with ⟨o, t, w'⟩
  rw [hq] at hr he
  obtain rfl : o = .ret r := hr
  rw [Prog.bind_of_ret hq]
  cases r with
  | none => exact ⟨by simpa using he, fun _ => rfl, by simp⟩
  | some v =>
    simp only [Option.some.injEq, forall_eq']
    split_ifs with hempty
    · simp only [pure_bind]
      refine ⟨by simpa using he, by simp, fun text ht => ?_, fun _ => .inl rfl⟩
      exact absurd ht (blockIdText_of_isEmpty hempty text)
    · simp only [bind_assoc]
      cases ht : blockIdText v with
      | error e =>
        exact ⟨by simpa [Prog.bind_apply] using he, by simp, by simp, fun _ => .inr ⟨_, rfl⟩⟩
      | ok text =>
        simp only [ofJson_ok, pure_bind]
        cases api.stringToUInt256 text with
        | some id =>
          exact ⟨by simpa using he, by simp, fun _ _ => ⟨id, rfl⟩, fun h => absurd rfl (h text)⟩
        | none =>
          -- the id was not written, and is returned all the same
          rw [← List.append_nil t] at he
          exact ⟨he, by simp, fun _ _ => ⟨_, rfl⟩, fun h => absurd rfl (h text)⟩

theorem currentBlockId_truthful_iff (hp : Passive c.responseFail c.error) (w : World ν) :
    Truthful env api "get-current-block-id" params
        (c.call env api "get-current-block-id" params w).outcome
        (c.call env api "get-current-block-id" params w).trace ↔
      ∀ result text,
        (c.query env api "get-current-block-id" .null (seeded env api w)).outcome =
            .ret (some result) →
          blockIdText result = .ok text → api.stringToUInt256 text ≠ none := by
  obtain ⟨b, r, hb, hq, he, hnone, hsome⟩ :=
    callGetCurrentBlockId_cases env api hp (seeded env api w)
  constructor
  · rintro ⟨-, a, ha, hiff, -⟩ result text hres ht hconv
    rw [hq] at hres
    obtain rfl : r = some result := Outcome.ret.inj hres
    obtain ⟨u, hu, htrace, hout⟩ := call_eq env api "get-current-block-id" params hp w
    obtain ⟨id, hid⟩ := (hsome result rfl).1 text ht
    have hret : (c.dispatch env api "get-current-block-id" params (seeded env api w)).outcome =
      .ret (.uint256 id) := hid
    rw [hout, hret] at ha
    obtain rfl : AnyValue.uint256 id = a := Outcome.ret.inj ha
    -- the any has a value although the id does not convert
    have hc := hiff.1 rfl
    rw [htrace] at hc
    obtain ⟨v, hv, hgood⟩ := (completed_iff (m := "get-current-block-id") rfl hb he
      (noReply_of_local Local.nil _) (noReply_of_local hu.local _)).1 hc
    cases hv
    obtain ⟨text', ht', hconv'⟩ := hgood rfl
    rw [ht] at ht'
    cases ht'
    exact hconv' hconv
  · intro h
    refine truthful_of_answered hp (m := "get-current-block-id") (IdConverts api) w rfl
      (not_paramsFail (by simp)) hb he (fun v => by simp) (fun v hr hg => ?_) fun hn => ?_
    · obtain ⟨text, ht, -⟩ := hg
      obtain ⟨id, hid⟩ := (hsome v hr).1 text ht
      exact ⟨_, hid, trivial⟩
    · cases r with
      | none => exact .inl (hnone rfl)
      | some v =>
        refine (hsome v rfl).2 fun text ht => ?_
        exact hn v rfl ⟨text, ht, h v text hq ht⟩

/-! ### Transactions -/

theorem mem_of_prepare {p : Except Rejection (Pair × (UInt256 → M ν CreateCall))}
    (h : prepare env api method params = some p) :
    method ∈ ["send-transfer", "register-node", "unregister-node", "vote-for-rate"] := by
  unfold prepare at h
  split_ifs at h <;> simp_all

theorem getLast_of_prepare {p : Except Rejection (Pair × (UInt256 → M ν CreateCall))}
    (h : prepare env api method params = some p) :
    (methodKind method).rpcMethods.getLast? = some "send-transaction" := by
  have hm := mem_of_prepare h
  simp only [List.mem_cons, List.not_mem_nil, or_false] at hm
  rcases hm with rfl | rfl | rfl | rfl <;> rfl

theorem not_paramsFail_of_prepare {p : Pair × (UInt256 → M ν CreateCall)}
    (h : prepare env api method params = some (.ok p)) :
    ¬ ParamsFail env api method params := by
  have hm := mem_of_prepare h
  simp only [ParamsFail, h]
  simp only [List.mem_cons, List.not_mem_nil, or_false] at hm
  rcases hm with rfl | rfl | rfl | rfl <;>
    simp [methodKind, List.lookup_cons, MethodKind.rpcMethods]

theorem Exchange.noReply {b : Json} {r : Option Json} {t : List Event} {m m' : String}
    (he : Exchange api b r t) (hb : methodOf b = some m) (hne : m ≠ m') : NoReply m' t := by
  intro b' res hr hb'
  rw [he.about.reply hr, hb] at hb'
  exact hne (Option.some.inj hb')

theorem NoReply.append {m : String} {t u : List Event} (ht : NoReply m t) (hu : NoReply m u) :
    NoReply m (t ++ u) := fun b res hr => by
  rcases List.mem_append.1 hr with hr | hr
  · exact ht b res hr
  · exact hu b res hr

theorem Submitted.truthful {p : Pair × (UInt256 → M ν CreateCall)}
    (hprep : prepare env api method params = some (.ok p)) {o : Outcome Exn Stop AnyValue}
    {t u v : List Event} (h : Submitted api o t) (hu : Outputs u) (hv : Outputs v) :
    Truthful env api method params (o.recover .empty) (u ++ t ++ v) := by
  have hlast := getLast_of_prepare hprep
  have hnotid : method ≠ "get-current-block-id" := by
    rintro rfl
    simp [prepare] at hprep
  have hundef : NoUndefined t → NoUndefined (u ++ t ++ v) := fun ht =>
    (NoUndefined.append hu.local.noUndefined ht).append hv.local.noUndefined
  have hu' := noReply_of_local hu.local "send-transaction"
  have hv' := noReply_of_local hv.local "send-transaction"
  cases h with
  | @ended b r t w o hm he hw ho =>
    refine ⟨hundef (NoUndefined.append he.about.noUndefined hw.noUndefined), .empty,
      NoValue.recover ho, ?_, by simp [AnyValue.hasValue], fun _ => rfl⟩
    have hno : NoReply "send-transaction" (u ++ (t ++ w) ++ v) :=
      (hu'.append ((Exchange.noReply he hm (by decide)).append (noReply_of_local hw _))).append hv'
    have hc : ¬ Completed api method (u ++ (t ++ w) ++ v) := not_completed hlast hno
    simpa [AnyValue.hasValue] using hc
  | @sent b b' r r' t w t' id hm he hr hw hid hcreated hm' he' =>
    have hc : Completed api method (u ++ (t ++ w ++ t') ++ v) ↔ ∃ x, r' = some x := by
      have hpre : NoReply "send-transaction" (u ++ (t ++ w)) :=
        hu'.append ((Exchange.noReply he hm (by decide)).append (noReply_of_local hw _))
      have hc : Completed api method (u ++ (t ++ w) ++ t' ++ v) ↔ _ :=
        completed_iff hlast hm' he' hpre hv'
      simpa [hnotid] using hc
    refine ⟨hundef ((NoUndefined.append he.about.noUndefined hw.noUndefined).append
      he'.about.noUndefined), _, rfl, ?_⟩
    rw [hc]
    cases r' with
    | none => simp [AnyValue.ofResponse, AnyValue.hasValue]
    | some x =>
      refine ⟨by simp [AnyValue.ofResponse, AnyValue.hasValue], fun _ => trivial, ?_⟩
      rintro (hf | ⟨q, hq, hfail⟩)
      · exact absurd hf (not_paramsFail_of_prepare hprep)
      · -- both requests were answered
        obtain ⟨y, rfl⟩ := Option.ne_none_iff_exists'.1 hr
        have hq' : q = b ∨ q = b' := by
          simpa [he.requests, he'.requests, hw.requests, hu.local.requests, hv.local.requests]
            using hq
        rcases hq' with rfl | rfl
        · exact (he.not_fails fun res h => hfail res (by simp [h])).elim
        · exact (he'.not_fails fun res h => hfail res (by simp [h])).elim

/-- A call that builds a transaction is truthful exactly if no check gives up with `std::nullopt`
and the end of the transaction is defined. -/
theorem transaction_truthful_iff (hp : Passive c.responseFail c.error)
    {p : Except Rejection (Pair × (UInt256 → M ν CreateCall))}
    (hprep : prepare env api method params = some p) (w : World ν) :
    Truthful env api method params (c.call env api method params w).outcome
        (c.call env api method params w).trace ↔
      p ≠ .error .missing ∧ ∀ pair create, p = .ok (pair, create) →
        SubmitDefined env api c create (seeded env api w) := by
  rcases p with (_ | e) | ⟨pair, create⟩
  · -- the any holds a nullopt, and nothing was sent
    obtain ⟨ht, ho⟩ := call_rejected hp hprep w
    rw [ho]
    refine ⟨?_, by simp⟩
    rintro ⟨-, a, ha, hiff, -⟩
    cases ha
    exact absurd (hiff.1 rfl)
      (not_completed (getLast_of_prepare hprep) (noReply_of_local ht.local _))
  · obtain ⟨ht, ho⟩ := call_rejected hp hprep w
    rw [ho]
    refine ⟨fun _ => by simp, fun _ => ⟨ht.local.noUndefined, .empty, rfl, ?_,
      by simp [AnyValue.hasValue], fun _ => rfl⟩⟩
    have hc : ¬ Completed api method (c.call env api method params w).trace :=
      not_completed (getLast_of_prepare hprep) (noReply_of_local ht.local _)
    simpa [AnyValue.hasValue] using hc
  · obtain ⟨u, v, hu, hv, ht, ho⟩ := call_accepted hp hprep w
    have hc := prepare_computes hprep
    rw [ht, ho]
    constructor
    · rintro ⟨hno, -⟩
      refine ⟨by simp, fun pair' create' h => ?_⟩
      cases h
      by_contra hn
      rcases submit_undefined hp pair hc hn with hx | hx
      · exact hno _ (List.mem_append_left _ (List.mem_append_right _ hx))
      · exact hno _ (List.mem_append_left _ (List.mem_append_right _ hx))
    · rintro ⟨-, h⟩
      exact Submitted.truthful hprep (submit_submitted hp pair hc (h pair create rfl)) hu hv

/-! ### Calls -/

theorem simple_truthful (hp : Passive c.responseFail c.error)
    (hm : method ∈ ["ping", "get-network-state", "get-nodes", "get-blockchain-info",
      "get-blockchain-state"]) (w : World ν) :
    Truthful env api method params (c.call env api method params w).outcome
      (c.call env api method params w).trace := by
  have hok : ¬ ParamsFail env api method params := by
    refine not_paramsFail ?_
    simp only [List.mem_cons] at hm ⊢
    tauto
  simp only [List.mem_cons, List.not_mem_nil, or_false] at hm
  rcases hm with rfl | rfl | rfl | rfl | rfl
  · exact truthful_of_queryRun hp w rfl (by decide) (callPing_queryRun hp hok)
  · exact truthful_of_queryRun hp w rfl (by decide) (response_queryRun hp _ hok)
  · exact truthful_of_queryRun hp w rfl (by decide) (response_queryRun hp _ hok)
  · exact truthful_of_queryRun hp w rfl (by decide) (response_queryRun hp _ hok)
  · exact truthful_of_queryRun hp w rfl (by decide) (response_queryRun hp _ hok)

theorem report_ends (hp : Passive c.responseFail c.error) (code : ResultCode) (text : String)
    (a : AnyValue) : (do c.error code text; pure a : M ν AnyValue).Ends (.ret a) Outputs :=
  Prog.Ends.bind Outputs.append (hp.error code text) (Prog.Ends.pure Outputs.nil)

theorem unknown_truthful (hp : Passive c.responseFail c.error)
    (hm : methodKind method = .unknown) (w : World ν) :
    Truthful env api method params (c.call env api method params w).outcome
      (c.call env api method params w).trace := by
  have hd : c.dispatch env api method params = (do
      c.error .notFound ("Method " ++ method ++ " not found")
      pure .empty) := by
    have hne : ∀ s, methodKind s ≠ .unknown → method ≠ s := by
      rintro s hs rfl
      exact hs hm
    unfold dispatch
    rw [if_neg (hne _ (by decide)), if_neg (hne _ (by decide)), if_neg (hne _ (by decide)),
      if_neg (hne _ (by decide)), if_neg (hne _ (by decide)), if_neg (hne _ (by decide)),
      if_neg (hne _ (by decide)), if_neg (hne _ (by decide)), if_neg (hne _ (by decide)),
      if_neg (hne _ (by decide)), if_neg (hne _ (by decide)), if_neg (hne _ (by decide)),
      if_neg (hne _ (by decide))]
  obtain ⟨t, hrun, ht⟩ := report_ends hp .notFound ("Method " ++ method ++ " not found") .empty
    (seeded env api w)
  rw [← hd] at hrun
  refine truthful_of_rejected hp w ?_ ?_
  · rw [hrun]
    exact ht
  · rw [hrun]
    exact .inl rfl

theorem getBlock_truthful_iff (hp : Passive c.responseFail c.error) (w : World ν) :
    Truthful env api "get-block" params (c.call env api "get-block" params w).outcome
        (c.call env api "get-block" params w).trace ↔ params.constIndex "id" ≠ .ok none := by
  refine ⟨fun h hid => ?_, fun h => ?_⟩
  · obtain ⟨u, hu, htrace, -⟩ := call_eq env api "get-block" params hp w
    refine h.1 .missingKey ?_
    rw [htrace]
    refine List.mem_append_left _ ?_
    change _ ∈ (c.callGetBlock env api "get-block" params _).trace
    unfold callGetBlock readMember
    simp only [hid, ofJson_ok, pure_bind]
    exact Prog.mem_trace_bind_left (mem_undefinedRead _ _ _)
  · exact truthful_of_queryRun hp w rfl (by decide) (callGetBlock_queryRun hp h)

theorem wallet_truthful_iff (hp : Passive c.responseFail c.error)
    (hm : method ∈ ["get-wallet-state", "get-wallet-transactions"]) (w : World ν) :
    Truthful env api method params (c.call env api method params w).outcome
        (c.call env api method params w).trace ↔ params.member? "public-key" ≠ none := by
  simp only [List.mem_cons, List.not_mem_nil, or_false] at hm
  refine ⟨fun h hkey => ?_, fun h => ?_⟩
  · obtain ⟨u, hu, htrace, hout⟩ := call_eq env api method params hp w
    have hd : c.dispatch env api method params = (do
        c.error .notFound ("public key " ++ method ++ " not defined")
        pure .nullopt) := by
      rcases hm with rfl | rfl
      · exact if_pos (Json.count_eq_zero.2 hkey)
      · exact if_pos (Json.count_eq_zero.2 hkey)
    obtain ⟨t, hrun, ht⟩ := report_ends hp .notFound ("public key " ++ method ++ " not defined")
      .nullopt (seeded env api w)
    rw [← hd] at hrun
    obtain ⟨-, a, ha, hiff, -⟩ := h
    rw [hout, hrun] at ha
    obtain rfl : AnyValue.nullopt = a := Outcome.ret.inj ha
    -- the any holds a nullopt although there was no request
    obtain ⟨m, body, res, result, -, -, hr, -⟩ := hiff.1 rfl
    rw [htrace, hrun] at hr
    exact Local.reply (ht.local.append hu.local) body res hr
  · rcases hm with rfl | rfl
    · exact truthful_of_queryRun hp w rfl (by decide) (callGetWalletState_queryRun hp h)
    · exact truthful_of_queryRun hp w rfl (by decide) (callGetWalletTransactions_queryRun hp h)

/-- For a call that builds a transaction only the last two conditions are left. -/
theorem signals_iff_of_prepare {p : Except Rejection (Pair × (UInt256 → M ν CreateCall))}
    (hprep : prepare env api method params = some p) (w : World ν) :
    Signals env api c method params w ↔
      p ≠ .error .missing ∧ ∀ pair create, p = .ok (pair, create) →
        SubmitDefined env api c create w := by
  have hother : ∀ s ∈ ["get-current-block-id", "get-block", "get-wallet-state",
      "get-wallet-transactions"], method ≠ s := by
    rintro s hs rfl
    have hm := mem_of_prepare hprep
    simp only [List.mem_cons, List.not_mem_nil, or_false] at hm hs
    rcases hs with rfl | rfl | rfl | rfl <;> simp at hm
  constructor
  · intro h
    refine ⟨fun hp' => h.required (by rw [hprep, hp']), fun pair create hp' => ?_⟩
    exact h.transaction pair create (by rw [hprep, hp'])
  · rintro ⟨hmissing, hdef⟩
    refine ⟨fun h => absurd h (hother _ (by simp)), fun h => absurd h (hother _ (by simp)),
      fun h => ?_, by simpa [hprep] using hmissing, fun pair create h => ?_⟩
    · simp only [List.mem_cons, List.not_mem_nil, or_false] at h
      exact (h.elim (hother _ (by simp)) (hother _ (by simp))).elim
    · rw [hprep] at h
      exact hdef pair create (Option.some.inj h)

/-- For the other calls the first three are. -/
theorem signals_of_prepare_eq_none (hprep : prepare env api method params = none) {w : World ν}
    (hid : method = "get-current-block-id" → ∀ result text,
      (c.query env api "get-current-block-id" .null w).outcome = .ret (some result) →
        blockIdText result = .ok text → api.stringToUInt256 text ≠ none)
    (hblock : method = "get-block" → params.constIndex "id" ≠ .ok none)
    (hkey : method ∈ ["get-wallet-state", "get-wallet-transactions"] →
      params.member? "public-key" ≠ none) :
    Signals env api c method params w :=
  ⟨hid, hblock, hkey, by simp [hprep], by simp [hprep]⟩

theorem methodKind_eq_unknown
    (hquery : method ∉ ["ping", "get-network-state", "get-nodes", "get-blockchain-info",
      "get-blockchain-state"])
    (hid : method ≠ "get-current-block-id") (hblock : method ≠ "get-block")
    (hwallet : method ∉ ["get-wallet-state", "get-wallet-transactions"])
    (hbuild : method ∉ ["send-transfer", "register-node", "unregister-node", "vote-for-rate"]) :
    methodKind method = .unknown := by
  simp only [List.mem_cons, List.not_mem_nil, or_false, not_or] at hquery hwallet hbuild
  simp [methodKind, List.lookup_cons, beq_false_of_ne, hquery, hid, hblock, hwallet, hbuild]

/-- **When a call signals truthfully.**  The value of the returned any tells whether the method
completed exactly if no branch gives up with `std::nullopt`, nothing undefined is read and a block
id that is returned converts. -/
theorem call_signals_iff (hp : Passive c.responseFail c.error) (w : World ν) :
    Truthful env api method params (c.call env api method params w).outcome
        (c.call env api method params w).trace ↔
      Signals env api c method params (seeded env api w) := by
  cases hprep : prepare env api method params with
  | some p => rw [transaction_truthful_iff hp hprep w, signals_iff_of_prepare hprep]
  | none =>
    by_cases hid : method = "get-current-block-id"
    · subst hid
      rw [currentBlockId_truthful_iff hp w]
      exact ⟨fun h => signals_of_prepare_eq_none hprep (fun _ => h) (by simp) (by simp),
        fun h => h.blockId rfl⟩
    by_cases hblock : method = "get-block"
    · subst hblock
      rw [getBlock_truthful_iff hp w]
      exact ⟨fun h => signals_of_prepare_eq_none hprep (by simp) (fun _ => h) (by simp),
        fun h => h.id rfl⟩
    by_cases hwallet : method ∈ ["get-wallet-state", "get-wallet-transactions"]
    · rw [wallet_truthful_iff hp hwallet w]
      exact ⟨fun h => signals_of_prepare_eq_none hprep (by simp [hid]) (by simp [hblock])
        (fun _ => h), fun h => h.publicKey hwallet⟩
    -- every other method is always truthful
    refine ⟨fun _ => signals_of_prepare_eq_none hprep (fun h => absurd h hid)
      (fun h => absurd h hblock) (fun h => absurd h hwallet), fun _ => ?_⟩
    by_cases hquery : method ∈ ["ping", "get-network-state", "get-nodes", "get-blockchain-info",
        "get-blockchain-state"]
    · exact simple_truthful hp hquery w
    · refine unknown_truthful hp (methodKind_eq_unknown hquery hid hblock hwallet ?_) w
      intro hm
      simp only [List.mem_cons, List.not_mem_nil, or_false] at hm
      rcases hm with rfl | rfl | rfl | rfl <;> simp [prepare] at hprep

/-- A transfer without its parameters returns an any that has a value. -/
theorem call_signals_missing :
    ¬ Truthful (Env.answering fun n : Unit => (⟨200, ""⟩, n)) (Api.sample []) "send-transfer"
      (.object [])
      ((logging .sample).call (Env.answering fun n : Unit => (⟨200, ""⟩, n)) (Api.sample [])
        "send-transfer" (.object []) (World.init ())).outcome
      ((logging .sample).call (Env.answering fun n : Unit => (⟨200, ""⟩, n)) (Api.sample [])
        "send-transfer" (.object []) (World.init ())).trace := by
  rintro ⟨-, a, ha, -, -, hfail⟩
  obtain rfl : AnyValue.nullopt = a := Outcome.ret.inj ha
  exact absurd (hfail (.inl (.inl ⟨.missing, rfl⟩))) (by decide)

/-- The same as the equivalence. -/
theorem call_signals_iff_missing :
    Truthful (Env.answering fun n : Unit => (⟨200, ""⟩, n)) (Api.sample []) "send-transfer"
        (.object [])
        ((logging .sample).call (Env.answering fun n : Unit => (⟨200, ""⟩, n)) (Api.sample [])
          "send-transfer" (.object []) (World.init ())).outcome
        ((logging .sample).call (Env.answering fun n : Unit => (⟨200, ""⟩, n)) (Api.sample [])
          "send-transfer" (.object []) (World.init ())).trace ↔
      Signals (Env.answering fun n : Unit => (⟨200, ""⟩, n)) (Api.sample []) (logging .sample)
        "send-transfer" (.object [])
        (seeded (Env.answering fun n : Unit => (⟨200, ""⟩, n)) (Api.sample []) (World.init ())) :=
  call_signals_iff (logging_passive .sample) (World.init ())

end Client

end Rpc

end MileRpc
