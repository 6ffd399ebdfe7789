import MileRpc.Effect.Basic
import MileRpc.Http.Message

/-!
# The world of the client

The program runs against two outside parties.

* `Api` is the third-party code it links: the JSON text format, the `uint256_t` conversions, the
  key and transaction library, and `rand`.  These are functions of their arguments; a library call
  also lists the errors it reports to the error handler it is given (`Answer`).
* `Env ν` is everything that may behave differently each time: name resolution, the network and
  the node behind it, the clocks, and what an unchecked read of an empty object yields.  It is a
  machine with states `ν` of its own, one transition function per operation; a theorem for every
  `ν`, `Env ν` and initial state is a theorem for every behaviour of the outside.

`World ν` adds to that state the program's own static variables and the retry counter of the
command line tools, `Event` lists what a run can be seen to do, and `M ν` is the monad the model is
written in.

Undefined behaviour (reading an empty optional, or the end iterator of a JSON object) is an event
of its own.  After it the run goes on with an arbitrary value or crashes, as `Env` chooses.
-/

namespace MileRpc

/-- `milecsa::result` -/
inductive ResultCode where
  | fail
  | exception
  | notFound
  | notSupported
  | empty
  | timeout
  /-- A code that only the library uses. -/
  | other (n : ℕ)
  deriving DecidableEq, Repr

/-- An exception: one derived from `std::exception` with its text, one of the JSON library (also
derived from it), or any other. -/
inductive Exn where
  | std (what : String)
  | json (e : JsonError)
  | unknown
  deriving DecidableEq, Repr

/-- The text of an exception that `catch (std::exception const &)` matches. -/
def Exn.what? : Exn → Option String
  | .std what => some what
  | .json e => some e.what
  | .unknown => none

/-- The ends of the process inside a call. -/
inductive Stop where
  /-- `exit(status)` -/
  | exit (status : ℤ)
  /-- The process was killed by undefined behaviour. -/
  | crash
  /-- The recursion between `do_request` and the error handler went deeper than modelled. -/
  | outOfFuel
  deriving DecidableEq, Repr

/-! ### Third-party code -/

/-- `uint256_t` -/
abbrev UInt256 := BitVec 256

/-- A key pair of the library, by its encoded keys. -/
structure Pair where
  publicKey : String
  privateKey : String
  deriving DecidableEq, Repr

/-- An asset of the library. -/
structure Token where
  id : ℕ
  deriving DecidableEq, Repr

/-- A transaction request of the library, by what its `get_body` returns. -/
structure Transaction where
  body : Option Json

/-- A call of a transaction factory with its arguments. -/
inductive CreateCall where
  | transfer (pair : Pair) (destination : String) (blockId : UInt256) (trxId : UInt64)
      (asset : Token) (amount fee : Single) (description : String)
  | registerNode (pair : Pair) (address : String) (blockId : UInt256) (trxId : UInt64)
      (amount fee : Single)
  | unregisterNode (pair : Pair) (blockId : UInt256) (trxId : UInt64) (fee : Single)
  | vote (pair : Pair) (blockId : UInt256) (trxId : UInt64) (amount fee : Single)

/-- What a library call does: the errors it reports, in order, and then its value or exception. -/
structure Answer (α : Type) where
  reports : List (ResultCode × String)
  outcome : Except Exn (Option α)

/-- The third-party code. -/
structure Api where
  /-- `json::parse` -/
  parse : String → Except JsonError Json
  /-- `json::dump` -/
  dump : Json → Except JsonError String
  /-- The JSON value of a `uint256_t`. -/
  uint256ToJson : UInt256 → Json
  /-- `StringToUInt256`; `none` is its result false. -/
  stringToUInt256 : String → Option UInt256
  /-- `keys::Pair::FromPrivateKey` -/
  fromPrivateKey : String → Answer Pair
  /-- `keys::Pair::ValidatePrivateKey` -/
  validatePrivateKey : String → Bool
  /-- `assets::TokenFromCode` -/
  tokenFromCode : UInt16 → Token
  /-- The transaction factories `CreateRequest`, `CreateRegisterRequest`,
  `CreateUnregisterRequest`. -/
  create : CreateCall → Answer Transaction
  /-- The `n`-th value of `rand` after `srand(seed)`. -/
  rand : UInt32 → ℕ → UInt32

section Sample

mutual

/-- The text of a JSON value whose strings need no escapes and whose floats are zero. -/
def Json.text : Json → String
  | .null => "null"
  | .boolean b => if b then "true" else "false"
  | .integer n => toString n
  | .float _ => "0.0"
  | .string s => "\"" ++ s ++ "\""
  | .array xs => "[" ++ Json.itemsText xs ++ "]"
  | .object fields => "\x7b" ++ Json.fieldsText fields ++ "\x7d"

def Json.itemsText : List Json → String
  | [] => ""
  | [x] => x.text
  | x :: y :: xs => x.text ++ "," ++ Json.itemsText (y :: xs)

def Json.fieldsText : List (String × Json) → String
  | [] => ""
  | [(k, x)] => "\"" ++ k ++ "\":" ++ x.text
  | (k, x) :: y :: xs => "\"" ++ k ++ "\":" ++ x.text ++ "," ++ Json.fieldsText (y :: xs)

end

/-- Third-party code for which the JSON texts are those of the values `known` and in which every
key decodes and every transaction can be made. -/
def Api.sample (known : List Json) : Api where
  parse text :=
    match known.find? (fun j => j.text == text) with
    | some j => .ok j
    | none => .error ⟨.parseError, "[json.exception.parse_error.101] parse error"⟩
  dump j := .ok j.text
  uint256ToJson v := .integer v.toNat
  stringToUInt256 s :=
    if s ≠ "" ∧ s.toList.all Char.isDigit then
      some (BitVec.ofNat 256 (s.toList.foldl (fun n d => 10 * n + (d.toNat - '0'.toNat)) 0))
    else none
  fromPrivateKey key := ⟨[], .ok (some ⟨key, key⟩)⟩
  validatePrivateKey _ := true
  tokenFromCode code := ⟨code.toNat⟩
  create _ := ⟨[], .ok (some ⟨some (.object [])⟩)⟩
  rand _ n := UInt32.ofNat n

end Sample

/-! ### Sessions and their operations -/

/-- The fields of a `Session` object.  `handle` tells the objects of one run apart. -/
structure Session where
  handle : ℕ
  useSsl : Bool
  verifySsl : Bool
  host : String
  port : String
  target : String
  timeout : ℤ
  deriving DecidableEq, Repr

/-- What an asynchronous operation left behind when the loop around `run_one` ended: the text of
its error code (none is success), and whether the socket is open. -/
structure Io where
  ec : Option String
  isOpen : Bool
  deriving DecidableEq, Repr

namespace Io

/-- `ec || !check_socket()` -/
def failed (io : Io) : Bool := io.ec.isSome || !io.isOpen

/-- The text of `ec ? ec : operation_aborted`. -/
def what (io : Io) : String := io.ec.getD "Operation canceled"

/-- A successful operation. -/
def success : Io := ⟨none, true⟩

theorem failed_eq_false {io : Io} : io.failed = false ↔ io = success := by
  rcases io with ⟨_ | _, _ | _⟩ <;> simp [failed, success]

end Io

/-- The outcome of a TLS handshake: the verdict of OpenSSL on each certificate of the peer's
chain, and what the handshake leaves behind when no certificate is refused. -/
structure Handshake where
  chain : List Bool
  io : Io

/-- What writing a request does: the end of the write, and whether the node received the whole
request. -/
structure WriteAnswer where
  result : Except Exn Io
  delivered : Bool

/-- What reading a response does: the end of the read, and the response if it was successful. -/
structure ReadAnswer where
  result : Except Exn Io
  response : HttpResponse

/-- The outside world, with states `ν`. -/
structure Env (ν : Type) where
  /-- `tcp::resolver::resolve`: the number of endpoints. -/
  resolve : Session → ν → Except Exn ℕ × ν
  /-- `set_verify_callback` and `SSL_set_tlsext_host_name`. -/
  setTlsextHostName : Session → ν → Except Exn Bool × ν
  /-- `async_connect` and its loop. -/
  asyncConnect : Session → ν → Except Exn Io × ν
  /-- The call of `async_handshake`. -/
  startHandshake : Session → ν → Except Exn Unit × ν
  /-- The loop of the handshake. -/
  handshake : Session → ν → Except Exn Handshake × ν
  /-- `async_write` and its loop. -/
  asyncWrite : Session → HttpRequest → ν → WriteAnswer × ν
  /-- `async_read` and its loop. -/
  asyncRead : Session → ν → ReadAnswer × ν
  /-- `time(NULL)` -/
  time : ν → ℤ × ν
  /-- `high_resolution_clock::now()`, in microseconds. -/
  now : ν → ℤ × ν
  /-- The value that a conversion leaves in a `uint256_t` it did not write. -/
  unwritten : ν → UInt256 × ν
  /-- What `*` reads from an empty optional key pair. -/
  stalePair : ν → Option Pair × ν
  /-- What `*` reads from an empty optional block id. -/
  staleBlockId : ν → Option UInt256 × ν
  /-- What `->` reads from an empty optional transaction request. -/
  staleTransaction : ν → Option Transaction × ν
  /-- What the end iterator of a JSON object reads. -/
  staleJson : ν → Option Json × ν

/-- A session that was made for `http://h`. -/
def Session.sample : Session := ⟨0, false, false, "h", "80", "/", 3⟩

/-- An outside in which every operation succeeds at once; the node's answers are `reply`. -/
def Env.answering {ν : Type} (reply : ν → HttpResponse × ν) : Env ν where
  resolve _ n := (.ok 1, n)
  setTlsextHostName _ n := (.ok true, n)
  asyncConnect _ n := (.ok .success, n)
  startHandshake _ n := (.ok (), n)
  handshake _ n := (.ok ⟨[true], .success⟩, n)
  asyncWrite _ _ n := (⟨.ok .success, true⟩, n)
  asyncRead _ n := (⟨.ok .success, (reply n).1⟩, (reply n).2)
  time n := (0, n)
  now n := (0, n)
  unwritten n := (0, n)
  stalePair n := (none, n)
  staleBlockId n := (some 0, n)
  staleTransaction n := (none, n)
  staleJson n := (none, n)

/-! ### The state and the events of a run -/

/-- The state of a run. -/
structure World (ν : Type) where
  /-- The state of the outside. -/
  net : ν
  /-- The counter of the `IdCounter` singleton. -/
  nextId : UInt64
  /-- The static `_trx_counter` of `Client::call`. -/
  callTrxCounter : ℤ
  /-- The static `_trx_counter` of `generate_trx_id`. -/
  trxCounter : ℤ
  /-- The last `srand` seed. -/
  seed : UInt32
  /-- How often `rand` was called since. -/
  draws : ℕ
  /-- `main`'s variable `reconnections`, which the lambdas capture by reference. -/
  reconnections : ℕ
  /-- The number of `Session` objects made so far. -/
  sessions : ℕ
  /-- The static `Client::timeout`, in seconds. -/
  timeout : ℤ

/-- A process that has just started. -/
def World.init {ν : Type} (net : ν) : World ν :=
  { net, nextId := 0, callTrxCounter := 0, trxCounter := 0, seed := 1, draws := 0,
    reconnections := 0, sessions := 0, timeout := 3 }

/-- The world after a step of the outside. -/
def World.setNet {ν : Type} (w : World ν) (net : ν) : World ν := { w with net }

@[simp] theorem World.setNet_net {ν : Type} (w : World ν) (net : ν) : (w.setNet net).net = net :=
  rfl

/-- The kinds of undefined behaviour in the program. -/
inductive Undefined where
  /-- `*client->get_current_block_id()` on an empty optional. -/
  | emptyBlockId
  /-- `CreateRequest(...)->get_body()` on an empty optional. -/
  | emptyTransaction
  /-- `params[key]` on an object without `key`. -/
  | missingKey
  /-- `*ppk` on an empty optional. -/
  | emptyPair
  /-- `any_cast<response>(result)->dump()` on an empty optional. -/
  | emptyResponse
  deriving DecidableEq, Repr

/-- What a run can be seen to do. -/
inductive Event where
  | resolve (s : Session) (r : Except Exn ℕ)
  | hostName (s : Session) (r : Except Exn Bool)
  | tcpConnect (s : Session) (r : Except Exn Io)
  | startHandshake (s : Session) (r : Except Exn Unit)
  | handshake (s : Session) (r : Except Exn Handshake)
  | write (s : Session) (req : HttpRequest) (a : WriteAnswer)
  | read (s : Session) (a : ReadAnswer)
  /-- `RpcSession::request` was entered with this body. -/
  | request (body : Json)
  /-- `RpcSession::request` read this response to the body it sent. -/
  | reply (body : Json) (res : HttpResponse)
  /-- An error handler was called. -/
  | report (code : ResultCode) (error : String)
  /-- A response handler was called. -/
  | responseFail (status : ℕ) (method : String)
  /-- `get_current_block_id` returned to a function that builds a transaction. -/
  | blockId (id : Option UInt256)
  /-- A transaction factory was called, and will end with this outcome. -/
  | created (call : CreateCall) (outcome : Except Exn (Option Transaction))
  /-- `get_body` returned. -/
  | body (b : Option Json)
  | undefined (u : Undefined)
  /-- A command line tool entered `do_request`. -/
  | doRequest
  | cout (text : String)
  | cerr (text : String)

/-- What `f` reads from the events of one kind, which `g` makes. -/
theorem mem_filterMap_iff {α : Type} {f : Event → Option α} {g : α → Event}
    (h : ∀ e a, f e = some a ↔ e = g a) {t : List Event} {a : α} :
    a ∈ t.filterMap f ↔ g a ∈ t := by
  rw [List.mem_filterMap]
  constructor
  · rintro ⟨e, he, ha⟩
    rwa [← (h e a).1 ha]
  · exact fun ha => ⟨_, ha, (h _ a).2 rfl⟩

/-- The undefined behaviour of a run, in order. -/
def undefineds (t : List Event) : List Undefined :=
  t.filterMap fun e => match e with
    | .undefined u => some u
    | _ => none

theorem mem_undefineds {t : List Event} {u : Undefined} :
    u ∈ undefineds t ↔ .undefined u ∈ t :=
  mem_filterMap_iff fun e _ => by cases e <;> simp

/-- The monad of the model. -/
abbrev M (ν : Type) := Prog (World ν) Event Exn Stop

/-- `milecsa::ErrorHandler` -/
abbrev ErrorHandler (ν : Type) := ResultCode → String → M ν Unit

/-- `milecsa::http::ResponseHandler` -/
abbrev ResponseHandler (ν : Type) := ℕ → String → HttpResponse → M ν Unit

section Primitives

variable {ν α : Type}

/-- Let the outside take a step. -/
def ask (f : ν → α × ν) : M ν α :=
  Prog.modifyGet fun w => ((f w.net).1, w.setNet (f w.net).2)

/-- An operation of the outside that is an event of the run. -/
def perform (f : ν → α × ν) (e : α → Event) : M ν α := do
  let a ← ask f
  Prog.emit (e a)
  pure a

/-- An access that is undefined behaviour: the process crashes or goes on with some value. -/
def undefinedRead (u : Undefined) (stale : ν → Option α × ν) : M ν α := do
  Prog.emit (.undefined u)
  match ← ask stale with
  | some a => pure a
  | none => Prog.halt .crash

/-- The value of a library call, after it has reported its errors to `error`. -/
def Answer.run (a : Answer α) (error : ErrorHandler ν) : M ν (Option α) := do
  Prog.each (fun r => error r.1 r.2) a.reports
  Prog.ofExcept a.outcome

/-- The value of a JSON operation. -/
def ofJson (r : Except JsonError α) : M ν α := Prog.ofExcept (r.mapError .json)

/-- The handlers that only leave their event in the trace. -/
def logError : ErrorHandler ν := fun code error => Prog.emit (.report code error)

/-- The response handler that only leaves its event in the trace. -/
def logResponse : ResponseHandler ν :=
  fun status method _ => Prog.emit (.responseFail status method)

@[simp] theorem ask_apply (f : ν → α × ν) (w : World ν) :
    ask f w = ⟨.ret (f w.net).1, [], w.setNet (f w.net).2⟩ := rfl

@[simp] theorem perform_bind_apply {β : Type} (f : ν → α × ν) (e : α → Event) (k : α → M ν β)
    (w : World ν) : (perform f e >>= k) w =
      (k (f w.net).1 (w.setNet (f w.net).2)).prepend [e (f w.net).1] := rfl

@[simp] theorem ofJson_ok (a : α) : (ofJson (.ok a) : M ν α) = pure a := rfl
@[simp] theorem ofJson_error (e : JsonError) :
    (ofJson (.error e) : M ν α) = Prog.raise (.json e) := rfl

@[simp] theorem logError_apply (code : ResultCode) (error : String) (w : World ν) :
    logError code error w = ⟨.ret (), [.report code error], w⟩ := rfl

@[simp] theorem logResponse_apply (status : ℕ) (method : String) (res : HttpResponse)
    (w : World ν) :
    logResponse status method res w = ⟨.ret (), [.responseFail status method], w⟩ := rfl

/-- A read of a member of a constant JSON value. -/
def readMember (env : Env ν) (j : Json) (key : String) : M ν Json := do
  match ← ofJson (j.constIndex key) with
  | some v => pure v
  | none => undefinedRead .missingKey env.staleJson

theorem mem_undefinedRead (u : Undefined) (stale : ν → Option α × ν) (w : World ν) :
    .undefined u ∈ (undefinedRead u stale w).trace :=
  Prog.mem_trace_bind_left (by simp)

/-- A member that is there is read without an event. -/
theorem readMember_of_member {env : Env ν} {j v : Json} {key : String}
    (h : j.member? key = some v) : readMember env j key = pure v := by
  simp [readMember, Json.constIndex_of_member h]

end Primitives

/-! ### Postconditions -/

namespace Prog.Ensures

variable {ν α β : Type} {Q : Outcome Exn Stop α → List Event → Prop}

theorem perform_bind {f : ν → β × ν} {e : β → Event} {k : β → M ν α}
    (h : ∀ a, (k a).Ensures fun o t => Q o (e a :: t)) : (perform f e >>= k).Ensures Q :=
  fun w => h _ (w.setNet (f w.net).2)

theorem ask_bind {f : ν → β × ν} {k : β → M ν α} (h : ∀ a, (k a).Ensures Q) :
    (ask f >>= k).Ensures Q :=
  fun w => h _ (w.setNet (f w.net).2)

theorem emit_bind {e : Event} {k : Unit → M ν α} (h : (k ()).Ensures fun o t => Q o (e :: t)) :
    (Prog.emit e >>= k).Ensures Q :=
  fun w => h w

theorem ofExcept_bind {r : Except Exn β} {k : β → M ν α} (hok : ∀ a, r = .ok a → (k a).Ensures Q)
    (herror : ∀ e, r = .error e → Q (.throw e) []) : (Prog.ofExcept r >>= k).Ensures Q := by
  cases r with
  | ok a => exact hok a rfl
  | error e => exact fun _ => herror e rfl

theorem ofJson_bind {r : Except JsonError β} {k : β → M ν α}
    (hok : ∀ a, r = .ok a → (k a).Ensures Q)
    (herror : ∀ e, r = .error e → Q (.throw (.json e)) []) : (ofJson r >>= k).Ensures Q := by
  cases r with
  | ok a => exact hok a rfl
  | error e => exact fun _ => herror e rfl

/-- An undefined read leaves its event and then a value or a crash. -/
theorem undefinedRead_bind {u : Undefined} {stale : ν → Option β × ν} {k : β → M ν α}
    (hret : ∀ a, (k a).Ensures fun o t => Q o (.undefined u :: t))
    (hcrash : Q (.stop .crash) [.undefined u]) : (undefinedRead u stale >>= k).Ensures Q := by
  refine bind (R := fun o t => t = [.undefined u] ∧ ∀ e, o ≠ .throw e ∧
    (∀ w, o = .stop w → w = .crash)) ?_ ?_ ?_ ?_
  · refine emit_bind (ask_bind fun a => ?_)
    cases a <;> exact fun _ => by simp
  · rintro a t ⟨rfl, -⟩
    exact hret a
  · rintro e t ⟨-, h⟩
    exact absurd rfl (h e).1
  · rintro w t ⟨rfl, h⟩
    rw [(h .unknown).2 w rfl]
    exact hcrash

end Prog.Ensures

end MileRpc
