import MileRpc.Rpc.Client

/-!
# The HTTP client

`milecsa::http::Client`: a url, a session and an error handler.  `Client.get` sends one GET request
and returns the body of a successful response.  Its two `catch` clauses report with the codes
`FAIL` and `EXCEPTION`.
-/

namespace MileRpc

namespace Http

/-- `milecsa::http::user_agent` -/
def userAgent : String := "MILE CLI Walletv1.0"

/-- A client object. -/
structure Client (ν : Type) where
  url : Url
  verifySsl : Bool
  session : Session
  error : ErrorHandler ν

namespace Client

variable {ν : Type}

/-- `Client(url, verify_ssl, error_handler)` -/
def make (url : Url) (verifySsl : Bool) (error : ErrorHandler ν) : M ν (Client ν) := do
  let timeout ← Prog.gets World.timeout
  let session ← Session.make url.domain url.port url.path url.protocol verifySsl timeout
  pure ⟨url.copy, verifySsl, session, error⟩

/-- `Client::Connect(urlString, verify_ssl, error_handler)` -/
def connect (env : Env ν) (urlString : String) (verifySsl : Bool) (error : ErrorHandler ν) :
    M ν (Option (Client ν)) := do
  match ← Url.parse urlString error with
  | some url => do
    let client ← make url verifySsl error
    if ← client.session.connect env error then pure (some client) else pure none
  | none => pure none

/-- The GET request of a session. -/
def getRequest (s : Session) : HttpRequest :=
  let req := HttpRequest.init .get s.target
  let req := req.set "Host" s.host
  req.set "User-Agent" userAgent

/-- The `catch` clauses of `get`, in order. -/
def getClauses (s : Session) : List CatchClause :=
  [.std .fail fun what => "http request: " ++ what ++ ": " ++ s.address,
   .any "http request: unknown error"]

/-- The `try` block of `get`. -/
def getBody (env : Env ν) (c : Client ν) : M ν (Option String) := do
  if ← c.session.write env (getRequest c.session) c.error then do
    match ← c.session.read env c.error with
    | some res => pure (if res.status = HttpResponse.ok then some res.data else none)
    | none => pure none
  else pure none

/-- `get()` -/
def get (env : Env ν) (c : Client ν) : M ν (Option String) :=
  (getBody env c).tryCatch fun e => do
    CatchClause.handle (getClauses c.session) c.error e
    pure none

end Client

end Http

end MileRpc
