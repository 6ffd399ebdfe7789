import MileRpc.Http.Client
import MileRpc.Http.Head
import MileRpc.Url.Resource

/-!
# The requests of a url

The path from a url to the head of a request: `Url::Parse` splits the url string, the constructors
of the two clients hand some of the components to a session, and the session's host and target go
into the requests.  The query and the port are not among them.

## Main results

* `addressed_iff` : the requests address the resource of the url string exactly if it has a path, no
  query and the default port of its protocol, and no NUL byte cuts it off.
* `heads_intact_iff` : the heads of the requests read back as the fields that were set exactly if
  host and path contain no character that ends a line, and the path no other white space.
-/

namespace MileRpc

variable {ν : Type}

/-- The protocol of the connection of a session. -/
def Session.scheme (s : Session) : List Char :=
  if s.useSsl then ['h', 't', 't', 'p', 's'] else ['h', 't', 't', 'p']

/-- What a request on a session addresses: the protocol of the session, the value of the host header
and the target of the request line. -/
def HttpRequest.resource? (r : HttpRequest) (s : Session) : Option Resource :=
  (r.field? "Host").map fun host => ⟨s.scheme, host.toList, r.target.toList⟩

/-- The request addresses the resource of the url string. -/
def HttpRequest.Addresses (r : HttpRequest) (s : Session) (urlString : String) : Prop :=
  r.resource? s = some (Url.resource urlString.toList)

instance (r : HttpRequest) (s : Session) (urlString : String) :
    Decidable (r.Addresses s urlString) := by
  unfold HttpRequest.Addresses; infer_instance

/-- A session made by one of the clients for the url. -/
structure Session.IsFor (s : Session) (u : Url) : Prop where
  useSsl : s.useSsl = decide (u.protocol = .https)
  host : s.host = u.domain
  target : s.target = u.path

theorem Rpc.Client.make_isFor {u : Url} {verifySsl : Bool} {responseFail : ResponseHandler ν}
    {error : ErrorHandler ν} {w : World ν} {c : Rpc.Client ν}
    (h : (Rpc.Client.make u verifySsl responseFail error w).outcome = .ret c) :
    c.session.IsFor u := by
  obtain rfl := Outcome.ret.inj h
  exact ⟨rfl, rfl, rfl⟩

theorem Http.Client.make_isFor {u : Url} {verifySsl : Bool} {error : ErrorHandler ν}
    {w : World ν} {c : Http.Client ν}
    (h : (Http.Client.make u verifySsl error w).outcome = .ret c) : c.session.IsFor u := by
  obtain rfl := Outcome.ret.inj h
  exact ⟨rfl, rfl, rfl⟩

/-! ### The parts of the requests -/

theorem postRequest_fields (s : Session) (body : Json) (data : String) :
    (RpcSession.postRequest s body data).fields =
      [("Host", s.host), ("User-Agent", userAgent), ("Content-Type", "application/json"),
        ("Content-Length", toString data.length)] := by
  simp [RpcSession.postRequest, HttpRequest.init, HttpRequest.set, HttpRequest.preparePayload]

theorem getRequest_fields (s : Session) :
    (Http.Client.getRequest s).fields = [("Host", s.host), ("User-Agent", Http.userAgent)] := by
  simp [Http.Client.getRequest, HttpRequest.init, HttpRequest.set]

theorem postRequest_target (s : Session) (body : Json) (data : String) :
    (RpcSession.postRequest s body data).target = s.target := rfl

theorem getRequest_target (s : Session) : (Http.Client.getRequest s).target = s.target := rfl

/-! ### The resource -/

/-- The protocol of a session made for an accepted url is the protocol text. -/
theorem Session.IsFor.scheme_eq {s : Session} {u : Url} {p : List Char} (hs : s.IsFor u)
    (hp : p ∈ urlSchemes) (h : Url.parseProtocol p = .ok u.protocol) : s.scheme = p := by
  unfold Session.scheme
  rw [hs.useSsl]
  simp only [urlSchemes, List.mem_cons, List.not_mem_nil, or_false] at hp
  rcases hp with rfl | rfl | rfl
  · simp [← Except.ok.inj h]
  · simp [← Except.ok.inj h]
  · cases h

/-- A request with the host and the target of a session for an accepted url addresses the resource
of the url string if and only if the string is plain. -/
theorem addresses_iff {text : String} {u : Url} (hu : Url.parseResult text = .ok u)
    {r : HttpRequest} {s : Session} (hs : s.IsFor u) (ht : r.target = s.target)
    (hh : r.field? "Host" = some s.host) :
    r.Addresses s text ↔ Url.PlainResource text.toList := by
  obtain ⟨what, hwhat, hprotocol, -, -, hhost, hpath, -⟩ := Url.parseResult_eq_ok hu
  obtain ⟨p, hp, htext, hscan⟩ := Url.captures_eq_linearScan hwhat
  rw [hscan] at hprotocol hhost hpath
  have hiff := Url.resource_captured_iff hp (Url.afterScheme text.toList)
  rw [← htext] at hiff
  unfold HttpRequest.Addresses HttpRequest.resource?
  rw [hh, Option.map_some, Option.some.injEq, ht, hs.scheme_eq hp hprotocol, hs.host, hs.target,
    hhost, hpath, String.toList_ofList, String.toList_ofList]
  exact hiff

/-- **When the requests address the resource of the url.**  Both requests do exactly if the url
string is plain. -/
theorem addressed_iff {text : String} {u : Url} (hu : Url.parseResult text = .ok u)
    {verifySsl : Bool} {responseFail : ResponseHandler ν} {error : ErrorHandler ν}
    {w w' : World ν} {c : Rpc.Client ν} {d : Http.Client ν}
    (hc : (Rpc.Client.make u verifySsl responseFail error w).outcome = .ret c)
    (hd : (Http.Client.make u verifySsl error w').outcome = .ret d) (body : Json)
    (data : String) :
    ((RpcSession.postRequest c.session body data).Addresses c.session text ∧
        (Http.Client.getRequest d.session).Addresses d.session text) ↔
      Url.PlainResource text.toList := by
  rw [addresses_iff hu (Rpc.Client.make_isFor hc) (postRequest_target ..)
      (by simp [HttpRequest.field?, postRequest_fields]),
    addresses_iff hu (Http.Client.make_isFor hd) (getRequest_target ..)
      (by simp [HttpRequest.field?, getRequest_fields]), and_self]

/-- A url with a query: both requests leave the query out. -/
theorem addressed_drops_query :
    Url.parseResult "http://h/p?q=1" = .ok ⟨"http://h/p?q=1", .http, "h", 80, "/p", "", "q=1"⟩ ∧
      ¬ (RpcSession.postRequest ⟨0, false, true, "h", "80", "/p", 3⟩ .null "null").Addresses
          ⟨0, false, true, "h", "80", "/p", 3⟩ "http://h/p?q=1" ∧
      ¬ (Http.Client.getRequest ⟨0, false, true, "h", "80", "/p", 3⟩).Addresses
          ⟨0, false, true, "h", "80", "/p", 3⟩ "http://h/p?q=1" := by
  decide +kernel

/-- A url that is addressed, with the clients that are made for it. -/
theorem addressed_iff_path :
    ((RpcSession.postRequest ⟨0, true, true, "h", "443", "/p", 3⟩ .null "null").Addresses
          ⟨0, true, true, "h", "443", "/p", 3⟩ "https://h:443/p#f" ∧
        (Http.Client.getRequest ⟨0, true, true, "h", "443", "/p", 3⟩).Addresses
          ⟨0, true, true, "h", "443", "/p", 3⟩ "https://h:443/p#f") ↔
      Url.PlainResource "https://h:443/p#f".toList := by
  have hu : Url.parseResult "https://h:443/p#f" =
      .ok ⟨"https://h:443/p#f", .https, "h", 443, "/p", "", ""⟩ := by decide +kernel
  have hc : (Rpc.Client.make ⟨"https://h:443/p#f", .https, "h", 443, "/p", "", ""⟩ true logResponse
      logError (World.init ())).outcome =
        .ret ⟨⟨"https://h:443/p#f", .https, "h", 443, "/p", "", ""⟩, true,
          ⟨0, true, true, "h", "443", "/p", 3⟩, logResponse, logError⟩ := rfl
  have hd : (Http.Client.make ⟨"https://h:443/p#f", .https, "h", 443, "/p", "", ""⟩ true
      logError (World.init ())).outcome =
        .ret ⟨⟨"https://h:443/p#f", .https, "h", 443, "/p", "", ""⟩, true,
          ⟨0, true, true, "h", "443", "/p", 3⟩, logError⟩ := rfl
  exact addressed_iff hu hc hd .null "null"

/-! ### The heads -/

/-- The heads of both requests read back as the request line and the fields that were set. -/
def HeadsIntact (c d : Session) (body : Json) (data : String) : Prop :=
  readHead (RpcSession.postRequest c body data).head = (RpcSession.postRequest c body data).parts ∧
    readHead (Http.Client.getRequest d).head = (Http.Client.getRequest d).parts

theorem oneLine_toString (n : ℕ) : OneLine (toString n).toList := by
  intro c hc
  rw [Nat.toString_eq_repr, Nat.toList_repr] at hc
  have hd : c.isDigit = true := Nat.isDigit_of_mem_toDigits (by omega) (by omega) hc
  simp only [isLineEnd, Bool.or_eq_false_iff, beq_eq_false_iff_ne]
  constructor
  · rintro rfl
    exact absurd hd (by decide)
  · rintro rfl
    exact absurd hd (by decide)

theorem postRequest_fieldNames (s : Session) (body : Json) (data : String) :
    (RpcSession.postRequest s body data).FieldNames := by
  have hnames : ∀ name ∈ ["Host", "User-Agent", "Content-Type", "Content-Length"],
      OneLine name.toList ∧ ':' ∉ name.toList := by decide
  intro f hf
  rw [postRequest_fields] at hf
  refine hnames f.1 ?_
  simp only [List.mem_cons, List.not_mem_nil, or_false] at hf
  rcases hf with rfl | rfl | rfl | rfl <;> simp

theorem getRequest_fieldNames (s : Session) : (Http.Client.getRequest s).FieldNames := by
  have hnames : ∀ name ∈ ["Host", "User-Agent"], OneLine name.toList ∧ ':' ∉ name.toList := by
    decide
  intro f hf
  rw [getRequest_fields] at hf
  refine hnames f.1 ?_
  simp only [List.mem_cons, List.not_mem_nil, or_false] at hf
  rcases hf with rfl | rfl <;> simp

theorem postRequest_clean_iff (s : Session) (body : Json) (data : String) :
    (RpcSession.postRequest s body data).Clean ↔
      OneLine s.host.toList ∧ OneToken s.target.toList := by
  have hagent : OneLine userAgent.toList := by decide
  have htype : OneLine "application/json".toList := by decide
  unfold HttpRequest.Clean
  rw [postRequest_fields, postRequest_target]
  constructor
  · rintro ⟨ht, hf⟩
    exact ⟨hf ("Host", s.host) (by simp), ht⟩
  · rintro ⟨hh, ht⟩
    refine ⟨ht, fun f hf => ?_⟩
    simp only [List.mem_cons, List.not_mem_nil, or_false] at hf
    rcases hf with rfl | rfl | rfl | rfl
    · exact hh
    · exact hagent
    · exact htype
    · exact oneLine_toString _

theorem getRequest_clean_iff (s : Session) :
    (Http.Client.getRequest s).Clean ↔ OneLine s.host.toList ∧ OneToken s.target.toList := by
  have hagent : OneLine Http.userAgent.toList := by decide
  unfold HttpRequest.Clean
  rw [getRequest_fields, getRequest_target]
  constructor
  · rintro ⟨ht, hf⟩
    exact ⟨hf ("Host", s.host) (by simp), ht⟩
  · rintro ⟨hh, ht⟩
    refine ⟨ht, fun f hf => ?_⟩
    simp only [List.mem_cons, List.not_mem_nil, or_false] at hf
    rcases hf with rfl | rfl
    · exact hh
    · exact hagent

/-- **When no header is injected.**  The heads of both requests read back as the request line and
the fields that were set exactly if the host of the url string contains neither CR nor LF and its
path none of HT, VT, FF, CR and LF. -/
theorem heads_intact_iff {text : String} {u : Url} {what : UrlCaptures}
    (hu : Url.parseResult text = .ok u) (hwhat : urlCaptures (cStr text) = some what)
    {verifySsl : Bool} {responseFail : ResponseHandler ν} {error : ErrorHandler ν}
    {w w' : World ν} {c : Rpc.Client ν} {d : Http.Client ν}
    (hc : (Rpc.Client.make u verifySsl responseFail error w).outcome = .ret c)
    (hd : (Http.Client.make u verifySsl error w').outcome = .ret d) (body : Json)
    (data : String) :
    HeadsIntact c.session d.session body data ↔
      (∀ x ∈ what.host, x ∉ ['\r', '\n']) ∧
        ∀ x ∈ what.path, x ∉ ['\t', '\x0b', '\x0c', '\r', '\n'] := by
  obtain ⟨what', hwhat', -, -, -, hhost, hpath, -, -⟩ := Url.parseResult_eq_ok hu
  rw [hwhat] at hwhat'
  obtain rfl := Option.some.inj hwhat'
  have hc' := Rpc.Client.make_isFor hc
  have hd' := Http.Client.make_isFor hd
  unfold HeadsIntact
  rw [HttpRequest.readHead_head_iff (postRequest_fieldNames _ _ _),
    HttpRequest.readHead_head_iff (getRequest_fieldNames _),
    postRequest_clean_iff, getRequest_clean_iff, hc'.host, hc'.target, hd'.host, hd'.target,
    and_self, hhost, hpath,
    String.toList_ofList, String.toList_ofList]
  -- the pattern leaves no space in the path
  have hspace := (space_not_mem_captures hwhat).2
  refine and_congr (forall₂_congr fun x _ => ?_) (forall₂_congr fun x hx => ?_)
  · simp [isLineEnd]
  · have hx' : x ≠ ' ' := by
      rintro rfl
      exact hspace hx
    simp [isTokenEnd, isLineEnd, hx', and_assoc]

/-- A url whose path contains a line end: it adds a field to the head of both requests. -/
theorem heads_injected :
    Url.parseResult "http://h/\r\nX:y" =
        .ok ⟨"http://h/\r\nX:y", .http, "h", 80, "/\r\nX:y", "", ""⟩ ∧
      ¬ HeadsIntact ⟨0, false, true, "h", "80", "/\r\nX:y", 3⟩
        ⟨0, false, true, "h", "80", "/\r\nX:y", 3⟩ .null "null" := by
  refine ⟨by decide +kernel, fun h => ?_⟩
  exact absurd h.2 (by decide +kernel)

/-- The same as the equivalence. -/
theorem heads_intact_iff_injected :
    HeadsIntact ⟨0, false, true, "h", "80", "/\r\nX:y", 3⟩
        ⟨0, false, true, "h", "80", "/\r\nX:y", 3⟩ .null "null" ↔
      (∀ x ∈ ['h'], x ∉ ['\r', '\n']) ∧
        ∀ x ∈ ['/', '\r', '\n', 'X', ':', 'y'], x ∉ ['\t', '\x0b', '\x0c', '\r', '\n'] := by
  have hu : Url.parseResult "http://h/\r\nX:y" =
      .ok ⟨"http://h/\r\nX:y", .http, "h", 80, "/\r\nX:y", "", ""⟩ := by decide +kernel
  have hwhat : urlCaptures (cStr "http://h/\r\nX:y") =
      some ⟨['h', 't', 't', 'p'], ['h'], [], ['/', '\r', '\n', 'X', ':', 'y'], [], []⟩ := by
    decide +kernel
  have hc : (Rpc.Client.make ⟨"http://h/\r\nX:y", .http, "h", 80, "/\r\nX:y", "", ""⟩ true
      logResponse logError (World.init ())).outcome =
        .ret ⟨⟨"http://h/\r\nX:y", .http, "h", 80, "/\r\nX:y", "", ""⟩, true,
          ⟨0, false, true, "h", "80", "/\r\nX:y", 3⟩, logResponse, logError⟩ := rfl
  have hd : (Http.Client.make ⟨"http://h/\r\nX:y", .http, "h", 80, "/\r\nX:y", "", ""⟩ true
      logError (World.init ())).outcome =
        .ret ⟨⟨"http://h/\r\nX:y", .http, "h", 80, "/\r\nX:y", "", ""⟩, true,
          ⟨0, false, true, "h", "80", "/\r\nX:y", 3⟩, logError⟩ := rfl
  exact heads_intact_iff hu hwhat hc hd .null "null"

end MileRpc
