import MileRpc.Json.Basic
import Mathlib.Data.List.TakeWhile

/-!
# HTTP messages

The parts of an HTTP request and response that the client sets and reads, and the bytes of a
request head.  `HttpRequest.payload` is the JSON value whose dump is the body of the request; it
is not sent, and only says which command a request carries.
-/

namespace MileRpc

/-- A string read through a C pointer: what stands before its first NUL byte. -/
def cStr (s : String) : List Char := s.toList.takeWhile (· ≠ '\x00')

/-- A string without a NUL byte. -/
def NulFree (s : String) : Prop := '\x00' ∉ s.toList

theorem cStr_of_nulFree {s : String} (h : NulFree s) : cStr s = s.toList := by
  refine List.takeWhile_eq_self_iff.2 fun c hc => ?_
  simp only [decide_eq_true_eq]
  rintro rfl
  exact h hc

/-- The request methods in use. -/
inductive Verb where
  | get
  | post
  deriving DecidableEq, Repr

/-- The method name on the request line. -/
def Verb.text : Verb → String
  | .get => "GET"
  | .post => "POST"

/-- An HTTP request. -/
structure HttpRequest where
  method : Verb
  target : String
  /-- The header fields, in the order they were first set. -/
  fields : List (String × String)
  body : String
  payload : Option Json

/-- An HTTP response: `status` 200 is success, `100 ≤ status < 200` an interim response. -/
structure HttpResponse where
  status : ℕ
  body : String
  deriving Repr, DecidableEq

namespace HttpResponse

/-- `boost::beast::http::status::ok` -/
def ok : ℕ := 200

/-- A response that another response to the same request follows. -/
def Interim (r : HttpResponse) : Prop := 100 ≤ r.status ∧ r.status < 200

instance (r : HttpResponse) : Decidable r.Interim := by unfold Interim; infer_instance

/-- `res.body().data()`, read as a C string. -/
def data (r : HttpResponse) : String := String.ofList (cStr r.body)

end HttpResponse

namespace HttpRequest

/-- A request of HTTP version 1.1 without header fields. -/
def init (method : Verb) (target : String) : HttpRequest :=
  { method, target, fields := [], body := "", payload := none }

/-- `req.set(name, value)`: a field that is already there gets the new value. -/
def set (r : HttpRequest) (name value : String) : HttpRequest :=
  { r with fields := if r.fields.any fun f => f.1 == name
      then r.fields.map fun f => if f.1 == name then (name, value) else f
      else r.fields ++ [(name, value)] }

/-- The value of a header field. -/
def field? (r : HttpRequest) (name : String) : Option String := r.fields.lookup name

/-- `req.prepare_payload()` for a string body. -/
def preparePayload (r : HttpRequest) : HttpRequest :=
  r.set "Content-Length" (toString r.body.length)

/-- The request line. -/
def requestLine (r : HttpRequest) : List Char :=
  r.method.text.toList ++ ' ' :: (r.target.toList ++ ' ' :: "HTTP/1.1".toList)

/-- The line of one header field. -/
def fieldLine (f : String × String) : List Char := f.1.toList ++ ':' :: ' ' :: f.2.toList

/-- The lines of the head of a request. -/
def headLines (r : HttpRequest) : List (List Char) := r.requestLine :: r.fields.map fieldLine

/-- The bytes of the head of a request: each line ends with CR LF, and so does the empty line
after the last one. -/
def head (r : HttpRequest) : List Char :=
  (r.headLines.flatMap fun l => l ++ ['\r', '\n']) ++ ['\r', '\n']

end HttpRequest

end MileRpc
