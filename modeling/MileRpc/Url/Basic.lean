import MileRpc.Core.World
import MileRpc.Regex.Basic

/-!
# Urls

`Url` is the class `milecsa::rpc::Url` with its parser and its hand-written copy operations.

* `urlPattern` is the regular expression of `Url::Parse`, with its six groups;
* `Url.parseResult` is the body of `Url::Parse`: every call of the error handler in it is followed
  by `return std::nullopt`, so the result is a url, the report of a failure, or an exception.  Its
  matcher always answers; `Url.parseWith` is the parser with any `Matcher`, which may also give up
  with an exception;
* `Url.copy`, `Url.assign` are the copy constructor and the copy assignment, which leave
  `fragment_` out of their member lists.  The `std::make_optional(url)` at the end of `Url::Parse`
  copies too.
-/

namespace MileRpc

/-- The supported protocols of a url. -/
inductive Protocol where
  | http
  | https
  | unknown
  deriving DecidableEq, Repr

/-- A url object, with its data members. -/
structure Url where
  urlString : String
  protocol : Protocol
  domain : String
  port : UInt16
  path : String
  fragment : String
  query : String
  deriving DecidableEq, Repr

/-! ### The pattern -/

/-- `[^/ :]` -/
def isHostChar (c : Char) : Bool := c != '/' && c != ' ' && c != ':'
/-- `[^/ ]` -/
def isPortChar (c : Char) : Bool := c != '/' && c != ' '
/-- `[^ #?]` -/
def isPathChar (c : Char) : Bool := c != ' ' && c != '#' && c != '?'
/-- `[^ #]` -/
def isQueryChar (c : Char) : Bool := c != ' ' && c != '#'
/-- `[^ ]` -/
def isFragmentChar (c : Char) : Bool := c != ' '

namespace Pattern

/-- `(https?|ftp)` -/
def proto : Pattern :=
  group 1 (alt (seq (lit ['h', 't', 't', 'p']) (opt (chr (· == 's')))) (lit ['f', 't', 'p']))

/-- `:?([^/ ]*)(/?[^ #?]*)\x3f?([^ #]*)#?([^ ]*)` -/
def afterHost : Pattern :=
  seq (opt (chr (· == ':'))) <| seq (group 3 (many isPortChar)) <|
  seq (group 4 (seq (opt (chr (· == '/'))) (many isPathChar))) <|
  seq (opt (chr (· == '?'))) <| seq (group 5 (many isQueryChar)) <|
  seq (opt (chr (· == '#'))) (group 6 (many isFragmentChar))

/-- `(https?|ftp)://([^/ :]+):?([^/ ]*)(/?[^ #?]*)\x3f?([^ #]*)#?([^ ]*)` -/
def url : Pattern :=
  seq proto <| seq (lit [':', '/', '/']) <| seq (group 2 (many1 isHostChar)) afterHost

end Pattern

/-- The texts of the capture groups `what[1]` to `what[6]`. -/
structure UrlCaptures where
  protocol : List Char
  host : List Char
  port : List Char
  path : List Char
  query : List Char
  fragment : List Char
  deriving DecidableEq, Repr

/-- The text of group `n`. -/
def groupText (caps : List (ℕ × List Char)) (n : ℕ) : List Char := (caps.lookup n).getD []

/-- The captures of `regex_match(s, what, ex)`; none is its result false. -/
def urlCaptures (s : List Char) : Option UrlCaptures :=
  (Pattern.url.fullMatch s).map fun caps =>
    ⟨groupText caps 1, groupText caps 2, groupText caps 3, groupText caps 4, groupText caps 5,
      groupText caps 6⟩

/-- The third-party `regex_match`: what it answers is right, but where a search takes it too many
steps it throws `error_complexity` instead. -/
structure Matcher where
  regexMatch : List Char → Except Exn (Option UrlCaptures)
  sound : ∀ s what, regexMatch s = .ok what → what = urlCaptures s

/-- The matcher answers for the string that the parser reads. -/
def Matcher.Answers (m : Matcher) (s : String) : Prop := ∃ what, m.regexMatch (cStr s) = .ok what

/-- The matcher that always answers. -/
def Matcher.tireless : Matcher :=
  ⟨fun s => .ok (urlCaptures s), fun _ _ h => (Except.ok.inj h).symm⟩

/-! ### The port number -/

/-- `isspace` in the C locale. -/
def isSpace (c : Char) : Bool := c == ' ' || (9 ≤ c.toNat && c.toNat ≤ 13)

/-- The value of a digit in bases up to 16. -/
def digitValue (c : Char) : Option ℕ :=
  if '0' ≤ c ∧ c ≤ '9' then some (c.toNat - '0'.toNat)
  else if 'a' ≤ c ∧ c ≤ 'f' then some (c.toNat - 'a'.toNat + 10)
  else if 'A' ≤ c ∧ c ≤ 'F' then some (c.toNat - 'A'.toNat + 10)
  else none

/-- `c` is a digit of the base. -/
def isDigit (base : ℕ) (c : Char) : Bool := (digitValue c).any (· < base)

/-- The number that a list of digits stands for. -/
def digitsValue (base : ℕ) (ds : List Char) : ℕ :=
  ds.foldl (fun n c => base * n + (digitValue c).getD 0) 0

/-- The base of a number written with an optional C prefix, and its digits. -/
def splitBase : List Char → ℕ × List Char
  | '0' :: x :: d :: cs =>
    if (x = 'x' ∨ x = 'X') ∧ isDigit 16 d then (16, d :: cs) else (8, '0' :: x :: d :: cs)
  | '0' :: cs => (8, '0' :: cs)
  | cs => (10, cs)

/-- The sign of a number, and what follows it. -/
def splitSign : List Char → ℤ × List Char
  | '-' :: cs => (-1, cs)
  | '+' :: cs => (1, cs)
  | cs => (1, cs)

/-- `std::stoi(s, nullptr, 0)`: skips white space, takes a sign and a base prefix, and stops at the
first character that is no digit; without a digit, or out of the range of `int`, it throws. -/
def stoi (s : List Char) : Except Exn ℤ :=
  let (sign, unsigned) := splitSign (s.dropWhile isSpace)
  let (base, text) := splitBase unsigned
  let digits := text.takeWhile (isDigit base)
  let n := sign * digitsValue base digits
  if digits = [] then .error (.std "stoi")
  else if -2 ^ 31 ≤ n ∧ n < 2 ^ 31 then .ok n
  else .error (.std "stoi")

/-! ### Construction, copies and parsing -/

namespace Url

/-- `Url(urlString)` -/
def init (urlString : String) : Url :=
  { urlString, protocol := .unknown, domain := "", port := 0, path := "", fragment := "",
    query := "" }

/-- `Url(const Url &)` -/
def copy (u : Url) : Url :=
  { urlString := u.urlString, protocol := u.protocol, domain := u.domain, port := u.port,
    path := u.path, fragment := "", query := u.query }

/-- `operator=(const Url &)` -/
def assign (self u : Url) : Url :=
  { self with urlString := u.urlString, protocol := u.protocol, domain := u.domain,
              port := u.port, path := u.path, query := u.query }

/-- Why `Url::Parse` returns no url: it reported an error, or an exception left it. -/
inductive Failure where
  | report (code : ResultCode) (error : String)
  | throw (e : Exn)
  deriving DecidableEq, Repr

/-- The protocol of the text of the first group. -/
def parseProtocol (text : List Char) : Except Failure Protocol :=
  let proto := text.map Char.toUpper
  if proto = ['H', 'T', 'T', 'P'] then .ok .http
  else if proto = ['H', 'T', 'T', 'P', 'S'] then .ok .https
  else .error (.report .notSupported
    ("Url protocol " ++ String.ofList proto ++ " is not supported yet"))

/-- The port for which a url of the protocol needs no port text. -/
def defaultPort : Protocol → UInt16
  | .https => 443
  | _ => 80

/-- The port number of the text of the third group. -/
def parsePort (protocol : Protocol) (port : List Char) : Except Failure UInt16 :=
  if port = [] then .ok (defaultPort protocol)
  else match stoi port with
    | .error e => .error (.throw e)
    | .ok portNum =>
      if 0 ≤ portNum ∧ portNum ≤ 65535 then .ok (UInt16.ofNat portNum.toNat)
      else .error (.report .notSupported
        ("Url port number " ++ String.ofList port ++ " is out of range"))

/-- The body of `Url::Parse` after the match. -/
def parseMatch (urlString : String) : Option UrlCaptures → Except Failure Url
  | none => .error (.report .notSupported "Url string format error")
  | some what => do
    let protocol ← parseProtocol what.protocol
    let port ← parsePort protocol what.port
    let url := { init urlString with
      protocol, domain := String.ofList what.host, port, path := String.ofList what.path,
      query := String.ofList what.query, fragment := String.ofList what.fragment }
    return url.copy

/-- The body of `Url::Parse`. -/
def parseResult (urlString : String) : Except Failure Url :=
  if urlString = "" then .error (.report .empty "Url string is empty")
  else parseMatch urlString (urlCaptures (cStr urlString))

/-- The body of `Url::Parse` with a matcher that may throw. -/
def resultWith (m : Matcher) (urlString : String) : Except Failure Url :=
  if urlString = "" then .error (.report .empty "Url string is empty")
  else match m.regexMatch (cStr urlString) with
    | .ok what => parseMatch urlString what
    | .error e => .error (.throw e)

/-- Return the url, report the failure or let the exception pass. -/
def finish {ν : Type} (error : ErrorHandler ν) : Except Failure Url → M ν (Option Url)
  | .ok url => pure (some url)
  | .error (.report code e) => do
    error code e
    pure none
  | .error (.throw e) => Prog.raise e

/-- `Url::Parse(urlString, error)` -/
def parse {ν : Type} (urlString : String) (error : ErrorHandler ν) : M ν (Option Url) :=
  finish error (parseResult urlString)

/-- `Url::Parse(urlString, error)` with a matcher that may throw. -/
def parseWith {ν : Type} (m : Matcher) (urlString : String) (error : ErrorHandler ν) :
    M ν (Option Url) :=
  finish error (resultWith m urlString)

theorem parseWith_tireless {ν : Type} (s : String) (error : ErrorHandler ν) :
    parseWith .tireless s error = parse s error := rfl

/-- What an accepted string says about its url. -/
theorem parseResult_eq_ok {s : String} {u : Url} (h : parseResult s = .ok u) :
    ∃ what, urlCaptures (cStr s) = some what ∧ parseProtocol what.protocol = .ok u.protocol ∧
      parsePort u.protocol what.port = .ok u.port ∧ u.urlString = s ∧
      u.domain = String.ofList what.host ∧ u.path = String.ofList what.path ∧
      u.query = String.ofList what.query ∧ u.fragment = "" := by
  unfold parseResult at h
  split_ifs at h
  cases hw : urlCaptures (cStr s) with
  | none => simp [hw, parseMatch] at h
  | some what =>
    rw [hw, parseMatch] at h
    cases hp : parseProtocol what.protocol with
    | error e => simp [hp, bind, Except.bind] at h
    | ok protocol =>
      cases hq : parsePort protocol what.port with
      | error e => simp [hp, hq, bind, Except.bind] at h
      | ok port =>
        simp only [hp, hq, bind, Except.bind, pure, Except.pure, Except.ok.injEq] at h
        subst h
        exact ⟨what, rfl, hp, hq, rfl, rfl, rfl, rfl, rfl⟩

end Url

end MileRpc
