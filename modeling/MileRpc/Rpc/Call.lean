import MileRpc.Rpc.Client

/-!
# Calls by method name

`Client::call` and its helpers.  `AnyValue` is what the returned `std::any` can hold; the
`return std::nullopt` of the helpers converts to an any that holds a `std::nullopt_t`.

The four functions that build a transaction check their parameters and then do the same three
steps, which are `Client.submit`: ask for the block id, call the factory, send its body.  Neither
the optional block id nor the optional request of the factory is checked before it is read.
The language leaves the order of the arguments of the factory open.  Here they are evaluated as g++
does, the last one first: where the conversion of a parameter throws, the transaction id has been
drawn.
-/

namespace MileRpc

namespace Rpc

/-- The values of the `std::any` that `call` returns. -/
inductive AnyValue where
  /-- `std::any()` -/
  | empty
  /-- `std::nullopt` -/
  | nullopt
  /-- A `time_t`. -/
  | time (t : ℤ)
  /-- A `uint256_t`. -/
  | uint256 (v : UInt256)
  /-- An `rpc::response`. -/
  | response (r : Option Json)

/-- `has_value()` -/
def AnyValue.hasValue : AnyValue → Bool
  | .empty => false
  | _ => true

/-- A response with a result, or the empty any. -/
def AnyValue.ofResponse : Option Json → AnyValue
  | some r => .response (some r)
  | none => .empty

section Numbers

variable {ν : Type} (env : Env ν) (api : Api)

/-- `rand()` -/
def rand : M ν UInt32 :=
  Prog.modifyGet fun w => (api.rand w.seed w.draws, { w with draws := w.draws + 1 })

/-- `srand(time(NULL) + _trx_counter++)` with the counter of `call`. -/
def seedCall : M ν Unit := do
  let now ← ask env.time
  Prog.modify fun w => { w with
    seed := UInt32.ofInt (now + w.callTrxCounter), draws := 0,
    callTrxCounter := w.callTrxCounter + 1 }

/-- `generate_trx_id()` -/
def generateTrxId : M ν UInt64 := do
  let now ← ask env.time
  Prog.modify fun w => { w with
    seed := UInt32.ofInt (now + w.trxCounter), draws := 0, trxCounter := w.trxCounter + 1 }
  let r ← rand api
  pure r.toUInt64

end Numbers

namespace Client

variable {ν : Type} (env : Env ν) (api : Api) (c : Client ν) (method : String) (params : Json)

/-! ### Parameters -/

/-- A required parameter; `none` if it is missing, which is reported. -/
def require (key what : String) (error : ErrorHandler ν) : M ν (Option Json) :=
  if params.count key = 0 then do
    error .notFound (what ++ " " ++ method ++ " not defined")
    pure none
  else do
    let v ← readMember env params key
    pure (some v)

/-- `get_private(method, params, error_handler)` -/
def getPrivate (error : ErrorHandler ν) : M ν (Option Pair) := do
  match ← require env method params "private-key" "source private key" error with
  | some v => do
    let key ← ofJson v.getString
    (api.fromPrivateKey key).run error
  | none => pure none

/-- `get_asset(method, params, error_handler)` -/
def getAsset (error : ErrorHandler ν) : M ν (Option Token) := do
  match ← require env method params "asset-code" "asset-code" error with
  | some v => do
    let assetCode ← ofJson v.getUnsignedShort
    pure (some (api.tokenFromCode assetCode))
  | none => pure none

/-- The required float `amount`. -/
def getAmount (error : ErrorHandler ν) : M ν (Option Single) := do
  match ← require env method params "amount" "amount" error with
  | some v => do
    let amount ← ofJson v.getFloat
    pure (some amount)
  | none => pure none

/-- The optional string `description`. -/
def getDescription : M ν String :=
  if params.count "description" > 0 then do
    let v ← readMember env params "description"
    ofJson v.getString
  else pure ""

/-- The optional int `limit`. -/
def getLimit : M ν Int32 :=
  if params.count "limit" > 0 then do
    let v ← readMember env params "limit"
    ofJson v.getInt
  else pure 1

/-! ### Transactions -/

/-- A call of a transaction factory. -/
def createRequest (call : CreateCall) (error : ErrorHandler ν) : M ν (Option Transaction) := do
  let answer := api.create call
  Prog.emit (.created call answer.outcome)
  Prog.each (fun r => error r.1 r.2) answer.reports
  Prog.ofExcept answer.outcome

/-- `*id`, not checked. -/
def readBlockId : Option UInt256 → M ν UInt256
  | some id => pure id
  | none => undefinedRead .emptyBlockId env.staleBlockId

/-- `request->get_body()`, not checked. -/
def readBody : Option Transaction → M ν (Option Json)
  | some t => do
    Prog.emit (.body t.body)
    pure t.body
  | none => do
    let t ← undefinedRead .emptyTransaction env.staleTransaction
    Prog.emit (.body t.body)
    pure t.body

/-- `if (request) {...}`: send the body of a transaction request. -/
def sendBody (pair : Pair) : Option Json → M ν AnyValue
  | some body => do
    let _json ← ofJson (api.dump body)
    let t ← c.sendTransaction env api pair body
    pure (AnyValue.ofResponse t)
  | none => pure .empty

/-- The end of the functions that build a transaction: `create` makes the factory call for a block
id. -/
def submit (pair : Pair) (create : UInt256 → M ν CreateCall) (error : ErrorHandler ν) :
    M ν AnyValue := do
  let id ← c.getCurrentBlockId env api
  Prog.emit (.blockId id)
  let blockId ← readBlockId env id
  let call ← create blockId
  let request ← readBody env (← createRequest api call error)
  c.sendBody env api pair request

/-- The arguments of the factory in `transfer`. -/
def transferCall (ppk : Pair) (asset : Token) (amount : Single) (description : String)
    (blockId : UInt256) : M ν CreateCall := do
  let trxId ← generateTrxId env api
  let destination ← readMember env params "to"
  let destination ← ofJson destination.getString
  pure (.transfer ppk destination blockId trxId asset amount .zero description)

/-- `transfer(client, method, params, error_handler)` -/
def transfer (error : ErrorHandler ν) : M ν AnyValue := do
  if params.count "to" = 0 then do
    error .notFound ("destination public key " ++ method ++ " not defined")
    pure .nullopt
  else do
    match ← getPrivate env api method params error with
    | none => pure .nullopt
    | some ppk =>
      match ← getAmount env method params error with
      | none => pure .nullopt
      | some amount =>
        match ← getAsset env api method params error with
        | none => pure .nullopt
        | some asset => do
          let description ← getDescription env params
          c.submit env api ppk (transferCall env api params ppk asset amount description) error

/-- The arguments of the factory in `register_node`. -/
def registerNodeCall (ppk : Pair) (amount : Single) (address : Json) (blockId : UInt256) :
    M ν CreateCall := do
  let trxId ← generateTrxId env api
  let address ← ofJson address.getString
  pure (.registerNode ppk address blockId trxId amount .zero)

/-- `register_node(client, method, params, error_handler)` -/
def registerNode (error : ErrorHandler ν) : M ν AnyValue := do
  match ← getPrivate env api method params error with
  | none => pure .nullopt
  | some ppk =>
    match ← getAmount env method params error with
    | none => pure .nullopt
    | some amount =>
      match ← require env method params "address" "address" error with
      | none => pure .nullopt
      | some address =>
        c.submit env api ppk (registerNodeCall env api ppk amount address) error

/-- The arguments of the factory in `unregister_node`. -/
def unregisterNodeCall (ppk : Pair) (blockId : UInt256) : M ν CreateCall := do
  let trxId ← generateTrxId env api
  pure (.unregisterNode ppk blockId trxId .zero)

/-- `unregister_node(client, method, params, error_handler)` -/
def unregisterNode (error : ErrorHandler ν) : M ν AnyValue := do
  match ← getPrivate env api method params error with
  | none => pure .nullopt
  | some ppk =>
    c.submit env api ppk (unregisterNodeCall env api ppk) error

/-- The arguments of the factory in `vote_for_rate`. -/
def voteCall (ppk : Pair) (amount : Single) (blockId : UInt256) : M ν CreateCall := do
  let trxId ← generateTrxId env api
  pure (.vote ppk blockId trxId amount .zero)

/-- `vote_for_rate(client, method, params, error_handler)` -/
def voteForRate (error : ErrorHandler ν) : M ν AnyValue := do
  match ← getPrivate env api method params error with
  | none => pure .nullopt
  | some ppk =>
    match ← getAmount env method params error with
    | none => pure .nullopt
    | some amount =>
      c.submit env api ppk (voteCall env api ppk amount) error

/-! ### The dispatcher -/

/-- The branch of ping. -/
def callPing : M ν AnyValue := do
  match ← c.ping env api with
  | some t => pure (.time t)
  | none => pure .empty

/-- The branch of get-current-block-id. -/
def callGetCurrentBlockId : M ν AnyValue := do
  match ← c.getCurrentBlockId env api with
  | some t => pure (.uint256 t)
  | none => pure .empty

/-- The branch of get-block. -/
def callGetBlock : M ν AnyValue := do
  let sid ← readMember env params "id"
  let sid ← ofJson sid.getString
  match api.stringToUInt256 sid with
  | some id => do
    let t ← c.getBlock env api id
    pure (AnyValue.ofResponse t)
  | none => do
    c.error .fail (" " ++ method ++ " could not convert to uint256_t")
    pure .empty

/-- The branch of get-wallet-state. -/
def callGetWalletState : M ν AnyValue := do
  if params.count "public-key" = 0 then do
    c.error .notFound ("public key " ++ method ++ " not defined")
    pure .nullopt
  else do
    let key ← readMember env params "public-key"
    let key ← ofJson key.getString
    let t ← c.getWalletState env api key
    pure (AnyValue.ofResponse t)

/-- The branch of get-wallet-transactions. -/
def callGetWalletTransactions : M ν AnyValue := do
  if params.count "public-key" = 0 then do
    c.error .notFound ("public key " ++ method ++ " not defined")
    pure .nullopt
  else do
    let limit ← getLimit env params
    let key ← readMember env params "public-key"
    let key ← ofJson key.getString
    let t ← c.getWalletTransactions env api key limit.toUInt32
    pure (AnyValue.ofResponse t)

/-- The chain of comparisons in `call`. -/
def dispatch : M ν AnyValue :=
  if method = "ping" then c.callPing env api
  else if method = "get-current-block-id" then c.callGetCurrentBlockId env api
  else if method = "get-network-state" then AnyValue.ofResponse <$> c.getNetworkState env api
  else if method = "get-nodes" then AnyValue.ofResponse <$> c.getNodes env api
  else if method = "get-blockchain-info" then AnyValue.ofResponse <$> c.getBlockchainInfo env api
  else if method = "get-blockchain-state" then AnyValue.ofResponse <$> c.getBlockchainState env api
  else if method = "get-block" then c.callGetBlock env api method params
  else if method = "get-wallet-state" then c.callGetWalletState env api method params
  else if method = "get-wallet-transactions" then c.callGetWalletTransactions env api method params
  else if method = "send-transfer" then c.transfer env api method params c.error
  else if method = "register-node" then c.registerNode env api method params c.error
  else if method = "unregister-node" then c.unregisterNode env api method params c.error
  else if method = "vote-for-rate" then c.voteForRate env api method params c.error
  else do
    c.error .notFound ("Method " ++ method ++ " not found")
    pure .empty

/-- The `catch` clauses of `call`, in order. -/
def callClauses : List CatchClause :=
  let parser := fun what => "Parser error: " ++ method ++ ", " ++ what
  [.json .parseError parser, .json .invalidIterator parser, .json .typeError parser,
   .json .outOfRange parser, .json .otherError parser, .any ("Unknown parser error: " ++ method)]

/-- Whatever is caught, exactly one error is reported, with the code `EXCEPTION`. -/
theorem handle_callClauses (error : ErrorHandler ν) (e : Exn) :
    ∃ text, CatchClause.handle (callClauses method) error e = error .exception text := by
  have hany : (callClauses method).any (·.catches e) = true := by
    simp [callClauses, CatchClause.any]
  obtain ⟨k, hk, text, h⟩ := CatchClause.handle_eq error hany
  have hcode : k.code = .exception := by
    simp only [callClauses, CatchClause.json, CatchClause.any, List.mem_cons, List.not_mem_nil,
      or_false] at hk
    rcases hk with rfl | rfl | rfl | rfl | rfl | rfl <;> rfl
  exact ⟨text, by rw [h, hcode]⟩

/-- `call(method, params)` -/
def call : M ν AnyValue :=
  Prog.tryCatch
    (do
      seedCall env
      let _trxId ← rand api
      c.dispatch env api method params)
    fun e => do
      CatchClause.handle (callClauses method) c.error e
      pure .empty

end Client

end Rpc

end MileRpc
