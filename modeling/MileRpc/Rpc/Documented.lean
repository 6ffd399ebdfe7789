import MileRpc.Rpc.Required
import MileRpc.Rpc.Submit

/-!
# Documented parameters

The help text of the wallet tool documents the methods of `call` with their parameters.  The kind
of value that each of them must have is fixed a second time, by the C++ type it is converted to.

The two agree for ten of the twelve methods.  The `id` of `get-block` is documented as an integer
and converted to a string, and the `amount` of `send-transfer` is documented as a string and
converted to a number: these two calls fail for all documented parameters
(`documented_proceeds_iff`).
-/

namespace MileRpc

/-! ### The help text -/

/-- A decimal number: an optional sign, digits, and an optional point with digits after it. -/
def isDecimalText (s : String) : Bool :=
  let digits := match s.toList with
    | '-' :: cs => cs
    | cs => cs
  match digits.span Char.isDigit with
  | (_ :: _, []) => true
  | (_ :: _, '.' :: ds) => !ds.isEmpty && ds.all Char.isDigit
  | _ => false

/-- The kinds of the documented parameters. -/
inductive ParamKind where
  | string
  /-- An integer that is not negative. -/
  | natural
  | integer
  | number
  /-- A decimal number in a string. -/
  | decimal
  deriving DecidableEq

/-- The value is of this kind. -/
def ParamKind.admits : ParamKind → Json → Bool
  | .string, .string _ => true
  | .natural, .integer n => 0 ≤ n
  | .integer, .integer _ => true
  | .number, .integer _ => true
  | .number, .float _ => true
  | .decimal, .string s => isDecimalText s
  | _, _ => false

/-- The methods of the help text with their parameters. -/
def methodHelp : List (String × List (String × ParamKind)) :=
  [("get-blockchain-info", []), ("get-blockchain-state", []), ("get-network-state", []),
    ("get-nodes", []), ("get-current-block-id", []),
    ("get-block", [("id", .natural)]),
    ("get-wallet-state", [("public-key", .string)]),
    ("get-wallet-transactions", [("public-key", .string)]),
    ("send-transfer", [("private-key", .string), ("to", .string), ("amount", .decimal),
      ("asset-code", .integer), ("description", .string)]),
    ("register-node", [("private-key", .string), ("amount", .number), ("address", .string)]),
    ("unregister-node", [("private-key", .string)]),
    ("vote-for-rate", [("private-key", .string), ("amount", .number)])]

/-- An object with exactly these members, each of its kind. -/
structure Json.HasShape (params : Json) (shape : List (String × ParamKind)) : Prop where
  isObject : params.isObject = true
  member : ∀ key kind, shape.lookup key = some kind →
    ∃ v, params.member? key = some v ∧ kind.admits v = true
  other : ∀ key, shape.lookup key = none → params.member? key = none

/-- A documented method with parameters of the documented shape. -/
def Documented (method : String) (params : Json) : Prop :=
  ∃ shape, methodHelp.lookup method = some shape ∧ params.HasShape shape

/-- The private key in the parameters decodes. -/
def KeyDecodes (api : Api) (params : Json) : Prop :=
  ∀ key, params.member? "private-key" = some (.string key) →
    ∃ pair, api.fromPrivateKey key = ⟨[], .ok (some pair)⟩

namespace ParamKind

theorem string_of_admits {v : Json} (h : string.admits v = true) : ∃ s, v = .string s := by
  cases v <;> first | exact ⟨_, rfl⟩ | cases h

theorem number_of_admits {v : Json} (h : number.admits v = true) : ∃ x, v.getFloat = .ok x := by
  cases v <;> first | exact ⟨_, rfl⟩ | cases h

/-- No integer is a string. -/
theorem natural_getString {v : Json} (h : natural.admits v = true) :
    v.getString = .error (v.conversionError "string") := by
  cases v <;> first | rfl | cases h

/-- No text is a number. -/
theorem decimal_getFloat {v : Json} (h : decimal.admits v = true) :
    v.getFloat = .error (v.conversionError "number") := by
  cases v <;> first | rfl | cases h

end ParamKind

theorem Json.HasShape.string {params : Json} {shape : List (String × ParamKind)}
    (h : params.HasShape shape) (key : String) (hk : shape.lookup key = some .string) :
    ∃ s, params.member? key = some (.string s) := by
  obtain ⟨v, hv, hkind⟩ := h.member key _ hk
  obtain ⟨s, rfl⟩ := ParamKind.string_of_admits hkind
  exact ⟨s, hv⟩

/-! ### The first command -/

section Opens

variable {ν α β : Type}

/-- Every run of `x` starts with a command of the method `rpc`. -/
def Opens (rpc : String) (x : M ν α) : Prop :=
  ∀ w, ∃ b, methodOf b = some rpc ∧ [.request b] <+: (x w).trace

theorem Opens.bind {rpc : String} {x : M ν α} (hx : Opens rpc x) (f : α → M ν β) :
    Opens rpc (x >>= f) := by
  intro w
  obtain ⟨b, hb, ht⟩ := hx w
  exact ⟨b, hb, ht.trans (Prog.trace_prefix_bind x f w)⟩

/-- What is done about an exception comes after the first command. -/
theorem Opens.tryCatch {rpc : String} {x : M ν α} (hx : Opens rpc x) (h : Exn → M ν α) :
    Opens rpc (x.tryCatch h) := by
  intro w
  obtain ⟨b, hb, ht⟩ := hx w
  exact ⟨b, hb, ht.trans (Prog.trace_prefix_tryCatch x h w)⟩

/-- The first of the commands in the trace. -/
theorem Opens.head? {rpc : String} {x : M ν α} (hx : Opens rpc x) (w : World ν) :
    (requestMethods (x w).trace).head? = some (some rpc) := by
  obtain ⟨b, hb, t, ht⟩ := hx w
  simp [← ht, requestMethods, requests, hb]

end Opens

namespace Rpc.Client

variable {ν : Type} {env : Env ν} {api : Api} {c : Client ν} {method : String} {params : Json}
  {error : ErrorHandler ν}

theorem query_opens (rpc : String) (p : Json) : Opens rpc (c.query env api rpc p) :=
  fun w => ⟨_, methodOf_command rpc p w.nextId, List.prefix_append _ _⟩

theorem response_opens (rpc : String) (p : Json) :
    Opens rpc (AnyValue.ofResponse <$> c.query env api rpc p) := by
  rw [map_eq_pure_bind]
  exact (query_opens rpc p).bind _

theorem getCurrentBlockId_opens :
    Opens "get-current-block-id" (c.getCurrentBlockId env api) :=
  (query_opens _ _).bind _

theorem submit_opens (pair : Pair) (create : UInt256 → M ν CreateCall) :
    Opens "get-current-block-id" (c.submit env api pair create error) :=
  getCurrentBlockId_opens.bind _

/-! ### Parameters that are there -/

theorem require_of_member {key : String} (what : String) {v : Json}
    (h : params.member? key = some v) :
    require env method params key what error = pure (some v) := by
  have hcount : params.count key ≠ 0 := by simp [Json.count, h]
  rw [require, if_neg hcount, readMember_of_member h]
  rfl

theorem getPrivate_of_member {key : String} {pair : Pair}
    (h : params.member? "private-key" = some (.string key))
    (hkey : api.fromPrivateKey key = ⟨[], .ok (some pair)⟩) :
    getPrivate env api method params error = pure (some pair) := by
  rw [getPrivate, require_of_member _ h, pure_bind]
  simp only [Json.getString, ofJson_ok, pure_bind, hkey]
  rfl

theorem getAmount_of_member {v : Json} (h : params.member? "amount" = some v) :
    getAmount env method params error = (do
      let amount ← ofJson v.getFloat
      pure (some amount)) := by
  rw [getAmount, require_of_member _ h, pure_bind]

theorem getLimit_of_not_member (h : params.member? "limit" = none) :
    getLimit env params = pure 1 := by
  have hcount : ¬ params.count "limit" > 0 := by simp [Json.count, h]
  rw [getLimit, if_neg hcount]

/-! ### Documented calls that proceed -/

/-- The end of a transaction whose factory arguments can be computed calls the factory once it has
a block id. -/
theorem submit_created {create : UInt256 → M ν CreateCall} (hc : Computes create)
    (hret : ∀ id w, ∃ call, (create id w).outcome = .ret call) (pair : Pair) {id : UInt256}
    {w : World ν} (hid : (c.getCurrentBlockId env api w).outcome = .ret (some id)) :
    ∃ call o, .created call o ∈ (c.submit env api pair create c.error w).trace := by
  rcases hrun : c.getCurrentBlockId env api w with ⟨o, t, w'⟩
  rw [hrun] at hid
  obtain rfl : o = .ret (some id) := hid
  obtain ⟨call, hcall⟩ := hret id w'
  refine ⟨call, (api.create call).outcome, ?_⟩
  rw [submit_of_create hc pair hrun hcall]
  refine List.mem_append_right _ (Prog.mem_trace_bind_left ?_)
  exact List.mem_cons_self

/-- The branch of `call` is the end of a transaction, whose factory arguments can be computed. -/
structure Submits (env : Env ν) (api : Api) (c : Client ν) (method : String) (params : Json)
    (pair : Pair) (create : UInt256 → M ν CreateCall) : Prop where
  branch : c.dispatch env api method params = c.submit env api pair create c.error
  computes : Computes create
  returns : ∀ id w, ∃ call, (create id w).outcome = .ret call

theorem registerNode_submits {shape : List (String × ParamKind)} (hs : params.HasShape shape)
    (hshape : methodHelp.lookup "register-node" = some shape) (hkey : KeyDecodes api params) :
    ∃ pair create, Submits env api c "register-node" params pair create := by
  cases hshape
  obtain ⟨key, hk⟩ := hs.string "private-key" rfl
  obtain ⟨v, hamount, hv⟩ := hs.member "amount" _ rfl
  obtain ⟨address, haddress⟩ := hs.string "address" rfl
  obtain ⟨pair, hpair⟩ := hkey key hk
  obtain ⟨amount, hfloat⟩ := ParamKind.number_of_admits hv
  refine ⟨pair, registerNodeCall env api pair amount (.string address), ?_,
    registerNodeCall_computes, fun id w => ⟨_, rfl⟩⟩
  change c.registerNode env api "register-node" params c.error = _
  rw [registerNode, getPrivate_of_member hk hpair, getAmount_of_member hamount, hfloat,
    require_of_member _ haddress]
  rfl

theorem unregisterNode_submits {shape : List (String × ParamKind)} (hs : params.HasShape shape)
    (hshape : methodHelp.lookup "unregister-node" = some shape) (hkey : KeyDecodes api params) :
    ∃ pair create, Submits env api c "unregister-node" params pair create := by
  cases hshape
  obtain ⟨key, hk⟩ := hs.string "private-key" rfl
  obtain ⟨pair, hpair⟩ := hkey key hk
  refine ⟨pair, unregisterNodeCall env api pair, ?_, unregisterNodeCall_computes,
    fun id w => ⟨_, rfl⟩⟩
  change c.unregisterNode env api "unregister-node" params c.error = _
  rw [unregisterNode, getPrivate_of_member hk hpair]
  rfl

theorem voteForRate_submits {shape : List (String × ParamKind)} (hs : params.HasShape shape)
    (hshape : methodHelp.lookup "vote-for-rate" = some shape) (hkey : KeyDecodes api params) :
    ∃ pair create, Submits env api c "vote-for-rate" params pair create := by
  cases hshape
  obtain ⟨key, hk⟩ := hs.string "private-key" rfl
  obtain ⟨v, hamount, hv⟩ := hs.member "amount" _ rfl
  obtain ⟨pair, hpair⟩ := hkey key hk
  obtain ⟨amount, hfloat⟩ := ParamKind.number_of_admits hv
  refine ⟨pair, voteCall env api pair amount, ?_, voteCall_computes, fun id w => ⟨_, rfl⟩⟩
  change c.voteForRate env api "vote-for-rate" params c.error = _
  rw [voteForRate, getPrivate_of_member hk hpair, getAmount_of_member hamount, hfloat]
  rfl

theorem callGetWalletState_opens {key : String}
    (h : params.member? "public-key" = some (.string key)) :
    Opens "get-wallet-state" (c.callGetWalletState env api method params) := by
  have hcount : params.count "public-key" ≠ 0 := by simp [Json.count, h]
  rw [callGetWalletState, if_neg hcount, readMember_of_member h]
  exact (query_opens _ _).bind _

theorem callGetWalletTransactions_opens {key : String}
    (h : params.member? "public-key" = some (.string key))
    (hlimit : params.member? "limit" = none) :
    Opens "get-wallet-transactions" (c.callGetWalletTransactions env api method params) := by
  have hcount : params.count "public-key" ≠ 0 := by simp [Json.count, h]
  rw [callGetWalletTransactions, if_neg hcount, getLimit_of_not_member hlimit,
    readMember_of_member h]
  exact (query_opens _ _).bind _

/-! ### Documented calls that do not -/

/-- The id of a block is no string. -/
theorem callGetBlock_raises {v : Json} (h : params.member? "id" = some v)
    (hv : ParamKind.natural.admits v = true) :
    c.callGetBlock env api method params =
      Prog.raise (.json (v.conversionError "string")) := by
  rw [callGetBlock, readMember_of_member h, pure_bind, ParamKind.natural_getString hv]
  rfl

/-- The amount of a transfer is no number. -/
theorem transfer_raises {shape : List (String × ParamKind)} (hs : params.HasShape shape)
    (hshape : methodHelp.lookup "send-transfer" = some shape) (hkey : KeyDecodes api params) :
    ∃ e, c.transfer env api method params error = Prog.raise e := by
  cases hshape
  obtain ⟨destination, hto⟩ := hs.string "to" rfl
  obtain ⟨key, hk⟩ := hs.string "private-key" rfl
  obtain ⟨v, hamount, hv⟩ := hs.member "amount" _ rfl
  obtain ⟨pair, hpair⟩ := hkey key hk
  have hcount : params.count "to" ≠ 0 := by simp [Json.count, hto]
  refine ⟨.json (v.conversionError "number"), ?_⟩
  rw [transfer, if_neg hcount, getPrivate_of_member hk hpair, getAmount_of_member hamount,
    ParamKind.decimal_getFloat hv]
  rfl

/-! ### Calls -/

/-- What a call with documented parameters should do: it puts its first command on the session, and
if it builds a transaction it calls the factory once it has a block id. -/
structure Proceeds (env : Env ν) (api : Api) (c : Client ν) (method : String) (params : Json)
    (w : World ν) : Prop where
  first : (requestMethods (c.call env api method params w).trace).head? =
    ((methodKind method).rpcMethods.map some).head?
  factory : ∀ required id, methodKind method = .transaction required →
    (c.getCurrentBlockId env api (seeded env api w)).outcome = .ret (some id) →
    ∃ call o, .created call o ∈ (c.call env api method params w).trace

theorem call_opens {rpc : String} (h : Opens rpc (c.dispatch env api method params)) :
    Opens rpc (c.call env api method params) := by
  have hbody : Opens rpc (do
      seedCall env
      let _trxId ← rand api
      c.dispatch env api method params) := fun w => h (seeded env api w)
  exact hbody.tryCatch _

theorem Proceeds.of_query {rpc : String} (hk : methodKind method = .query rpc)
    (h : Opens rpc (c.dispatch env api method params)) (w : World ν) :
    Proceeds env api c method params w where
  first := by
    rw [(call_opens h).head? w, hk]
    rfl
  factory required id hk' := by
    rw [hk] at hk'
    cases hk'

theorem Proceeds.of_submits {required : List String}
    (hk : methodKind method = .transaction required) {pair : Pair}
    {create : UInt256 → M ν CreateCall} (h : Submits env api c method params pair create)
    (w : World ν) : Proceeds env api c method params w where
  first := by
    have hopens : Opens "get-current-block-id" (c.dispatch env api method params) := by
      rw [h.branch]
      exact submit_opens pair create
    rw [(call_opens hopens).head? w, hk]
    rfl
  factory _ id _ hid := by
    obtain ⟨call, o, hmem⟩ := submit_created h.computes h.returns pair hid
    rw [← h.branch] at hmem
    exact ⟨call, o, Prog.mem_trace_tryCatch hmem⟩

/-- A call whose branch only throws does not. -/
theorem not_proceeds (hh : ∀ code text, (c.error code text).Ensures fun _ t => requests t = [])
    {rpc : String} {rpcs : List String} (hk : (methodKind method).rpcMethods = rpc :: rpcs)
    {e : Exn} (h : c.dispatch env api method params = Prog.raise e) (w : World ν) :
    ¬ Proceeds env api c method params w := by
  intro hp
  have hbody : (do
      seedCall env
      let _trxId ← rand api
      c.dispatch env api method params) w = ⟨.throw e, [], seeded env api w⟩ := by
    rw [h]
    rfl
  obtain ⟨text, hclause⟩ := handle_callClauses method c.error e
  have hnone : requests (c.call env api method params w).trace = [] := by
    rw [call, Prog.tryCatch_of_throw hbody, hclause]
    refine (hh .exception text).bind (Q := fun _ t => requests t = []) (fun a t ht => ?_)
      (fun e t ht => ht) (fun s t ht => ht) _
    exact Prog.Ensures.pure (by simpa using ht)
  have hfirst := hp.first
  simp [requestMethods, hnone, hk] at hfirst

/-- **When documented parameters are accepted.**  A call with parameters of the documented shape
reads them without an exception and goes on exactly if its method is neither `get-block` nor
`send-transfer`. -/
theorem documented_proceeds_iff
    (hh : ∀ code text, (c.error code text).Ensures fun _ t => requests t = [])
    (hdoc : Documented method params) (hkey : KeyDecodes api params) (w : World ν) :
    Proceeds env api c method params w ↔ method ∉ ["get-block", "send-transfer"] := by
  obtain ⟨shape, hshape, hs⟩ := hdoc
  have hmem : (method, shape) ∈ methodHelp := by
    obtain ⟨l, l', h, -⟩ := List.lookup_eq_some_iff.1 hshape
    simp [h]
  simp only [methodHelp, List.mem_cons, Prod.mk.injEq, List.not_mem_nil, or_false] at hmem
  rcases hmem with ⟨rfl, -⟩ | ⟨rfl, -⟩ | ⟨rfl, -⟩ | ⟨rfl, -⟩ | ⟨rfl, -⟩ | ⟨rfl, rfl⟩ | ⟨rfl, rfl⟩ |
    ⟨rfl, rfl⟩ | ⟨rfl, rfl⟩ | ⟨rfl, rfl⟩ | ⟨rfl, rfl⟩ | ⟨rfl, rfl⟩
  -- the queries without parameters
  · exact iff_of_true (.of_query rfl (response_opens _ _) w) (by decide)
  · exact iff_of_true (.of_query rfl (response_opens _ _) w) (by decide)
  · exact iff_of_true (.of_query rfl (response_opens _ _) w) (by decide)
  · exact iff_of_true (.of_query rfl (response_opens _ _) w) (by decide)
  · exact iff_of_true (.of_query rfl (getCurrentBlockId_opens.bind _) w) (by decide)
  -- the queries with parameters
  · obtain ⟨v, hv, hkind⟩ := hs.member "id" _ rfl
    have hraise : c.dispatch env api "get-block" params = _ := callGetBlock_raises hv hkind
    exact iff_of_false (not_proceeds hh rfl hraise w) (by decide)
  · obtain ⟨key, hk⟩ := hs.string "public-key" rfl
    exact iff_of_true (.of_query rfl (callGetWalletState_opens hk) w) (by decide)
  · obtain ⟨key, hk⟩ := hs.string "public-key" rfl
    exact iff_of_true
      (.of_query rfl (callGetWalletTransactions_opens hk (hs.other "limit" rfl)) w) (by decide)
  -- the transactions
  · obtain ⟨e, he⟩ : ∃ e, c.dispatch env api "send-transfer" params = Prog.raise e :=
      transfer_raises hs rfl hkey
    exact iff_of_false (not_proceeds hh rfl he w) (by decide)
  · obtain ⟨pair, create, h⟩ := registerNode_submits hs rfl hkey
    exact iff_of_true (.of_submits rfl h w) (by decide)
  · obtain ⟨pair, create, h⟩ := unregisterNode_submits hs rfl hkey
    exact iff_of_true (.of_submits rfl h w) (by decide)
  · obtain ⟨pair, create, h⟩ := voteForRate_submits hs rfl hkey
    exact iff_of_true (.of_submits rfl h w) (by decide)

/-- An object with one member. -/
theorem singleton_hasShape {key : String} {kind : ParamKind} {v : Json}
    (h : kind.admits v = true) : (Json.object [(key, v)]).HasShape [(key, kind)] where
  isObject := rfl
  member k kind' hk := by
    cases hb : k == key with
    | true =>
      obtain rfl : kind = kind' := by simpa [List.lookup_cons, hb] using hk
      exact ⟨v, by simp [List.lookup_cons, hb], h⟩
    | false => simp [List.lookup_cons, hb] at hk
  other k hk := by
    cases hb : k == key with
    | true => simp [List.lookup_cons, hb] at hk
    | false => simp [List.lookup_cons, hb]

theorem sample_keyDecodes (known : List Json) : KeyDecodes (.sample known) params :=
  fun key _ => ⟨⟨key, key⟩, rfl⟩

/-- A node is unregistered with a private key. -/
theorem documented_proceeds_iff_unregister :
    Proceeds (Env.answering fun n : Unit => (⟨200, ""⟩, n)) (.sample []) (logging .sample)
        "unregister-node" (.object [("private-key", .string "k")]) (World.init ()) ↔
      "unregister-node" ∉ ["get-block", "send-transfer"] :=
  documented_proceeds_iff (fun _ _ _ => rfl)
    ⟨[("private-key", .string)], rfl, singleton_hasShape rfl⟩ (sample_keyDecodes []) _

/-- The block 1 of the help text. -/
theorem documented_proceeds_fails :
    ¬ ∀ (env : Env Unit) (api : Api) (c : Client Unit) (method : String) (params : Json)
      (w : World Unit), (∀ code text, (c.error code text).Ensures fun _ t => requests t = []) →
      Documented method params → KeyDecodes api params → Proceeds env api c method params w := by
  intro h
  have hshape : (Json.object [("id", .integer 1)]).HasShape [("id", .natural)] :=
    singleton_hasShape rfl
  have hproceeds := h (Env.answering fun n => (⟨200, ""⟩, n)) (.sample []) (logging .sample)
    "get-block" (.object [("id", .integer 1)]) (World.init ()) (fun _ _ _ => rfl)
    ⟨[("id", .natural)], rfl, hshape⟩ (sample_keyDecodes [])
  have hraise : (logging .sample : Client Unit).dispatch
      (Env.answering fun n => (⟨200, ""⟩, n)) (.sample []) "get-block"
      (.object [("id", .integer 1)]) = _ := callGetBlock_raises (v := .integer 1) rfl rfl
  exact not_proceeds (fun _ _ _ => rfl) rfl hraise _ hproceeds

end Rpc.Client

end MileRpc
