import MileRpc.Rpc.Session

/-!
# The JSON-RPC client

`milecsa::rpc::Client`: a url, a session and two handlers.  `Client.Connect` parses the url, makes
the session and connects it; the other functions send one command each.
-/

namespace MileRpc

namespace Rpc

/-- A client object. -/
structure Client (ν : Type) where
  url : Url
  verifySsl : Bool
  session : Session
  responseFail : ResponseHandler ν
  error : ErrorHandler ν

namespace Client

variable {ν : Type}

/-- `Client(url, verify_ssl, response_handler, error_handler)` -/
def make (url : Url) (verifySsl : Bool) (responseFail : ResponseHandler ν)
    (error : ErrorHandler ν) : M ν (Client ν) := do
  let timeout ← Prog.gets World.timeout
  let session ← Session.make url.domain url.port url.path url.protocol verifySsl timeout
  pure ⟨url.copy, verifySsl, session, responseFail, error⟩

/-- `Client::Connect(urlString, verify_ssl, response_fail_handler, error_handler)` -/
def connect (env : Env ν) (urlString : String) (verifySsl : Bool)
    (responseFail : ResponseHandler ν) (error : ErrorHandler ν) : M ν (Option (Client ν)) := do
  match ← Url.parse urlString error with
  | some url => do
    let client ← make url verifySsl responseFail error
    if ← client.session.connect env error then pure (some client) else pure none
  | none => pure none

/-- With a url that parses, a connect is that of a new session, which has the handlers of the
client. -/
theorem connect_bind_apply {α : Type} {env : Env ν} {urlString : String} {url : Url}
    (hurl : Url.parseResult urlString = .ok url) (verifySsl : Bool)
    (responseFail : ResponseHandler ν) (error : ErrorHandler ν)
    (next : Option (Client ν) → M ν α) (w : World ν) :
    ∃ (c : Client ν) (w' : World ν), c.responseFail = responseFail ∧ c.error = error ∧
      w'.reconnections = w.reconnections ∧
      (connect env urlString verifySsl responseFail error >>= next) w =
        (c.session.connect env error >>= fun b => next (if b then some c else none)) w' := by
  obtain ⟨c, w', hmake, hc, he, hw⟩ : ∃ c w', make url verifySsl responseFail error w =
      ⟨.ret c, [], w'⟩ ∧ c.responseFail = responseFail ∧ c.error = error ∧
        w'.reconnections = w.reconnections := ⟨_, _, rfl, rfl, rfl, rfl⟩
  have hnext : ∀ b : Bool, (if b then pure (some c) else pure none : M ν _) >>= next =
      next (if b then some c else none) := by
    intro b
    cases b <;> rfl
  refine ⟨c, w', hc, he, hw, ?_⟩
  simp only [connect, Url.parse, Url.finish, hurl, pure_bind, bind_assoc]
  rw [Prog.bind_of_ret hmake]
  simp only [hnext]
  rfl

/-- A client with this session whose handlers only leave their events. -/
def logging (session : Session) : Client ν :=
  ⟨Url.init "", false, session, logResponse, logError⟩

variable (env : Env ν) (api : Api) (c : Client ν)

/-- Send the next command with this method and these parameters. -/
def query (method : String) (params : Json) : M ν (Option Json) := do
  let command ← nextCommand method params
  RpcSession.request env api c.session command c.responseFail c.error

/-- The comparison of a ping result with true. -/
def isTrue : Json → Bool
  | .boolean b => b
  | .string s => s == "true"
  | _ => false

/-- `ping()` -/
def ping : M ν (Option ℤ) := do
  let start ← ask env.now
  match ← c.query env api "ping" .null with
  | some res =>
    if isTrue res then do
      let stop ← ask env.now
      pure (some (stop - start))
    else pure (some (-1))
  | none => pure none

/-- The id text in the result of get-current-block-id. -/
def blockIdText (result : Json) : Except JsonError String := do
  let id ← result.index "current-block-id"
  id.getString

/-- `get_current_block_id()`: the status of the conversion is not looked at. -/
def getCurrentBlockId : M ν (Option UInt256) := do
  match ← c.query env api "get-current-block-id" .null with
  | some result =>
    if result.isEmpty then pure none
    else do
      let text ← ofJson (blockIdText result)
      match api.stringToUInt256 text with
      | some id => pure (some id)
      | none => do
        -- `block_id` is returned as it was declared
        let id ← ask env.unwritten
        pure (some id)
  | none => pure none

/-- `get_network_state()` -/
def getNetworkState : M ν (Option Json) := c.query env api "get-network-state" .null

/-- `get_nodes()` -/
def getNodes : M ν (Option Json) := c.query env api "get-nodes" .null

/-- `get_blockchain_info()` -/
def getBlockchainInfo : M ν (Option Json) := c.query env api "get-blockchain-info" .null

/-- `get_blockchain_state()` -/
def getBlockchainState : M ν (Option Json) := c.query env api "get-blockchain-state" .null

/-- `get_block(id)` -/
def getBlock (id : UInt256) : M ν (Option Json) :=
  c.query env api "get-block-by-id" (.object [("id", api.uint256ToJson id)])

/-- `get_wallet_state(publicKey)` -/
def getWalletState (publicKey : String) : M ν (Option Json) :=
  c.query env api "get-wallet-state" (.object [("public-key", .string publicKey)])

/-- `get_wallet_transactions(publicKey, limit)` -/
def getWalletTransactions (publicKey : String) (limit : UInt32) : M ν (Option Json) :=
  c.query env api "get-wallet-transactions"
    (.object [("public-key", .string publicKey), ("limit", .integer limit.toNat)])

/-- `send_transaction(pair, transactionData)` -/
def sendTransaction (_pair : Pair) (transactionData : Json) : M ν (Option Json) := do
  let command ← nextCommand "send-transaction" .null
  RpcSession.request env api c.session (command.set "params" transactionData) c.responseFail c.error

end Client

end Rpc

end MileRpc
