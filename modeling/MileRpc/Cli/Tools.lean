import MileRpc.Rpc.Call

/-!
# The command line tools

`mile_cli_transfer` and `mile_cli_wallet`.  Both connect and run their request in a lambda
`do_request`, which their error handler calls again from inside the failed call until
`--reconnections` errors have been reported.  The recursion takes its depth as fuel.

The options are those that `parse_cmdline` leaves behind; the pause before a retry is left out.
-/

namespace MileRpc

namespace Cli

variable {ν : Type}

/-- The line that both error handlers begin with. -/
def logCall (code : ResultCode) (error : String) : M ν Unit := do
  let reconnections ← Prog.gets World.reconnections
  Prog.emit (.report code error)
  Prog.emit (.cerr ("Call [" ++ toString reconnections ++ "] error: " ++ error))

/-- `++reconnections` -/
def countError : M ν ℕ :=
  Prog.modifyGet fun w => (w.reconnections + 1, { w with reconnections := w.reconnections + 1 })

/-! ### mile_cli_transfer -/

namespace Transfer

/-- The options. -/
structure Options where
  nodeAddress : String
  destination : String
  privateKey : String
  assetCode : UInt16
  amount : Single
  memo : String
  reconnections : ℤ
  test : Bool

variable (env : Env ν) (api : Api) (opts : Options)

/-- `error_handler`, which calls `do_request` again. -/
def errorHandler (doRequest : M ν Unit) : ErrorHandler ν := fun code error => do
  logCall code error
  let reconnections ← countError
  if opts.reconnections ≤ reconnections ∨ opts.test then Prog.halt (.exit (-1))
  else if code = .fail then doRequest
  else pure ()

/-- `*ppk`, not checked. -/
def readPair : Option Pair → M ν Pair
  | some ppk => pure ppk
  | none => undefinedRead .emptyPair env.stalePair

/-- Send the body of the request, or print it in a test. -/
def sendRequest (rpc : Rpc.Client ν) (ppk : Pair) (request : Json) : M ν Unit :=
  if opts.test then do
    let text ← ofJson (api.dump request)
    Prog.emit (.cout text)
  else do
    let _jsonBody ← ofJson (api.dump request)
    match ← rpc.sendTransaction env api ppk request with
    | some t => do
      Prog.emit (.cout "Send transfer: ")
      let text ← ofJson (api.dump t)
      Prog.emit (.cout text)
    | none => pure ()

/-- What `do_request` does with a connected client and a block id. -/
def transfer (ppk : Option Pair) (error : ErrorHandler ν) (rpc : Rpc.Client ν)
    (blockId : UInt256) : M ν Unit := do
  let asset := api.tokenFromCode opts.assetCode
  let trxId ← Rpc.rand api
  let ppk ← readPair env ppk
  let request ← Rpc.Client.createRequest api
    (.transfer ppk opts.destination blockId trxId.toUInt64 asset opts.amount .zero opts.memo) error
  match ← Rpc.Client.readBody env request with
  | some request => sendRequest env api opts rpc ppk request
  | none => pure ()

/-- The body of `do_request`. -/
def attempt (ppk : Option Pair) (error : ErrorHandler ν) : M ν Unit := do
  Prog.emit .doRequest
  match ← Rpc.Client.connect env opts.nodeAddress true logResponse error with
  | some rpc =>
    match ← rpc.getCurrentBlockId env api with
    | some blockId => transfer env api opts ppk error rpc blockId
    | none => pure ()
  | none => pure ()

/-- `do_request()` -/
def doRequest (ppk : Option Pair) : ℕ → M ν Unit
  | 0 => Prog.halt .outOfFuel
  | fuel + 1 => attempt env api opts ppk (errorHandler opts (doRequest ppk fuel))

/-- The private key: the option, or the first valid one of three typed ones. -/
def chooseKey (typed : List String) : Option String :=
  if opts.privateKey = "" then (typed.take 3).find? api.validatePrivateKey
  else if api.validatePrivateKey opts.privateKey then some opts.privateKey
  else none

/-- `main`, where `typed` is typed at the prompt; what the prompt writes is left to `mainAt`. -/
def main (typed : List String) (fuel : ℕ) : M ν Unit :=
  match chooseKey api opts typed with
  | some key => do
    -- the handler is still an empty `std::function`
    let ppk ← (api.fromPrivateKey key).run fun _ _ => Prog.raise (.std "bad_function_call")
    doRequest env api opts ppk fuel
  | none => do
    Prog.emit (.cout "\nPrivate key is not valid\n")
    Prog.halt (.exit (-1))

end Transfer

/-! ### mile_cli_wallet -/

namespace Wallet

/-- The options. -/
structure Options where
  nodeAddress : String
  method : String
  params : String
  reconnections : ℤ
  readTimeout : ℤ

variable (env : Env ν) (api : Api) (opts : Options)

/-- `error_handler`, which calls `do_request` again. -/
def errorHandler (doRequest : M ν Unit) : ErrorHandler ν := fun code error => do
  logCall code error
  if code ≠ .fail then Prog.halt (.exit (-1))
  else do
    let reconnections ← countError
    if opts.reconnections ≤ reconnections then Prog.halt (.exit (-1))
    else doRequest

/-- The parameters; without a JSON text they stay null. -/
def parseParams : M ν Json :=
  match api.parse opts.params with
  | .ok params => pure params
  | .error e => do
    Prog.emit (.cerr ("Params parser error: " ++ e.what ++ "\n"))
    pure .null

/-- Print a result by its type. -/
def printResult : Rpc.AnyValue → M ν Unit
  | .time t => Prog.emit (.cout (toString t))
  | .uint256 v => Prog.emit (.cout (toString v.toNat))
  | .response (some r) => do
    let text ← ofJson (api.dump r)
    Prog.emit (.cout text)
  | .response none => do
    let r ← undefinedRead .emptyResponse env.staleJson
    let text ← ofJson (api.dump r)
    Prog.emit (.cout text)
  | .empty | .nullopt => pure ()

/-- The outer `try` block of `do_request`. -/
def callMethod (rpc : Rpc.Client ν) : M ν Unit := do
  let params ← parseParams api opts
  let result ← rpc.call env api opts.method params
  if result.hasValue then do
    Prog.emit (.cout ("Call " ++ opts.method ++ ": "))
    printResult env api result
  else do
    Prog.emit (.cerr "Rpc error: response does not have any result")
    Prog.halt (.exit (-1))

/-- The body of `do_request`. -/
def attempt (error : ErrorHandler ν) : M ν Unit := do
  Prog.emit .doRequest
  match ← Rpc.Client.connect env opts.nodeAddress true logResponse error with
  | some rpc =>
    -- the connect above is outside the `try` block
    (callMethod env api opts rpc).tryCatch fun e => match e.what? with
      | some what => Prog.emit (.cerr ("Method error: " ++ what ++ "\n"))
      | none => Prog.raise e
  | none => pure ()

/-- `do_request()` -/
def doRequest : ℕ → M ν Unit
  | 0 => Prog.halt .outOfFuel
  | fuel + 1 => attempt env api opts (errorHandler opts (doRequest fuel))

/-- `main` -/
def main (fuel : ℕ) : M ν Unit := do
  Prog.modify fun w => { w with timeout := opts.readTimeout }
  doRequest env api opts fuel
  Prog.halt (.exit 0)

end Wallet

end Cli

end MileRpc
