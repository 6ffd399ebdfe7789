import MileRpc.Core.World
import MileRpc.Url.Basic

/-!
# HTTP sessions

`Session.write`, `Session.read` and `Session.connect` of `milecsa::http::Session`.  Each of them
starts an asynchronous operation and runs the `io_context` until it has completed; what the loop
leaves behind is an `Io`, chosen by the environment (`MileRpc.Session.Watchdog` models the loop
itself).  The rest is the code's: which error is reported, with which code and text, and what is
returned.

For a TLS session the environment chooses the chain of the peer and the verdict of OpenSSL on each
certificate of it (`Handshake`); whether the handshake accepts the chain is decided by the verify
mode and the verify callback that the session installs (`Session.acceptsChain`).
-/

namespace MileRpc

/-- The verify modes that the code selects between. -/
inductive VerifyMode where
  | verifyNone
  | verifyClientOnce
  deriving DecidableEq, Repr

namespace Session

variable {ν : Type}

/-- The address as the error texts give it. -/
def address (s : Session) : String := s.host ++ ":" ++ s.port

/-- `Session(host, port, target, protocol, verify, timeout)` -/
def make (host : String) (port : UInt16) (target : String) (protocol : Protocol) (verify : Bool)
    (timeout : ℤ) : M ν Session :=
  Prog.modifyGet fun w =>
    (⟨w.sessions, decide (protocol = .https), verify, host, toString port.toNat, target, timeout⟩,
      { w with sessions := w.sessions + 1 })

/-! ### Certificate checks -/

/-- The verify mode that `prepare` sets. -/
def verifyMode (s : Session) : VerifyMode :=
  if s.verifySsl then .verifyClientOnce else .verifyNone

/-- The verify callback that `connect` installs. -/
def verifyCallback (s : Session) (_preverified : Bool) : Bool := s.verifySsl

/-- OpenSSL accepts a chain if the verify mode ignores the verdicts, or if the callback returns
true for every certificate of the chain. -/
def acceptsChain (s : Session) (chain : List Bool) : Bool :=
  match s.verifyMode with
  | .verifyNone => true
  | .verifyClientOnce => chain.all s.verifyCallback

/-- What the handshake leaves behind. -/
def handshakeIo (s : Session) (h : Handshake) : Io :=
  if s.acceptsChain h.chain then h.io else ⟨some "certificate verify failed", h.io.isOpen⟩

/-! ### Writing and reading -/

/-- `write(req, error_handler)` -/
def write (env : Env ν) (s : Session) (req : HttpRequest) (error : ErrorHandler ν) : M ν Bool := do
  let a ← perform (env.asyncWrite s req) (.write s req)
  let io ← Prog.ofExcept a.result
  if io.failed then do
    error .timeout ("Sending request timeout " ++ io.what ++ ": " ++ s.address)
    pure false
  else pure true

/-- `read(response, error_handler)`; `none` is its result false. -/
def read (env : Env ν) (s : Session) (error : ErrorHandler ν) : M ν (Option HttpResponse) := do
  let a ← perform (env.asyncRead s) (.read s)
  let io ← Prog.ofExcept a.result
  if io.failed then do
    error .timeout ("Reading response timeout " ++ io.what ++ ": " ++ s.address)
    pure none
  else pure (some a.response)

/-! ### Connecting -/

/-- The check after a loop of `connect`: report the failure of the stage. -/
def checkStage (s : Session) (stage : String) (io : Io) (error : ErrorHandler ν) : M ν Bool :=
  if io.failed then do
    error .timeout (stage ++ " " ++ io.what ++ ": " ++ s.address)
    pure false
  else pure true

/-- The inner `try` of the TLS branch: connect and start the handshake. -/
def connectTls (env : Env ν) (s : Session) (error : ErrorHandler ν) : M ν Bool :=
  Prog.tryCatch
    (do
      let r ← perform (env.asyncConnect s) (.tcpConnect s)
      let io ← Prog.ofExcept r
      if ← s.checkStage "Connection timeout" io error then do
        let h ← perform (env.startHandshake s) (.startHandshake s)
        Prog.ofExcept h
        pure true
      else pure false)
    fun e => match e.what? with
      | some what => do
        error .fail (what ++ ": " ++ s.address)
        pure false
      | none => Prog.raise e

/-- The body of the outer `try` of `connect`. -/
def connectBody (env : Env ν) (s : Session) (error : ErrorHandler ν) : M ν Bool := do
  let results ← perform (env.resolve s) (.resolve s)
  let endpoints ← Prog.ofExcept results
  if endpoints = 0 then do
    error .notFound ("Host " ++ s.address ++ " not found")
    pure false
  else if s.useSsl then do
    let r ← perform (env.setTlsextHostName s) (.hostName s)
    if ← Prog.ofExcept r then do
      -- the second stage has the same loop, outside the inner `try`
      if ← s.connectTls env error then do
        let h ← perform (env.handshake s) (.handshake s)
        let h ← Prog.ofExcept h
        s.checkStage "SSL Handshake timeout" (s.handshakeIo h) error
      else pure false
    else do
      error .fail ("SSL  " ++ s.address ++ "  handshake error")
      pure false
  else do
    let r ← perform (env.asyncConnect s) (.tcpConnect s)
    let io ← Prog.ofExcept r
    s.checkStage "Connection timeout" io error

/-- `connect(error)` -/
def connect (env : Env ν) (s : Session) (error : ErrorHandler ν) : M ν Bool :=
  (s.connectBody env error).tryCatch fun e => match e.what? with
    | some what => do
      error .fail (what ++ ": " ++ s.address)
      pure false
    | none => do
      error .fail ("Unknown error: " ++ s.address)
      pure false

end Session

end MileRpc
