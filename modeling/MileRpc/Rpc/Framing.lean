import MileRpc.Http.Addressed
import MileRpc.Http.Stream
import MileRpc.Rpc.Purposes

/-!
# What a node reads

The bytes that a program writes to one session, read by a server (`MileRpc.Http.Stream`).  A request
announces its own body, so the requests of a session are told apart whatever is in the commands.
What can spoil the stream is the url: `runActs_framed` says for which hosts and targets it does not,
and that the node then reads nothing that the program has not asked for, also when a write is cut
off.
-/

namespace MileRpc

open Rpc.Client

variable {ν : Type} {api : Api} {P : Purpose} {t u v : List Event} {s : Session}

/-! ### The requests of a session -/

/-- The request that an event writes to `s`. -/
def Event.written? (s : Session) : Event → Option HttpRequest
  | .write s' req _ => if s' = s then some req else none
  | _ => none

/-- The requests that were written to `s`. -/
def written (s : Session) (t : List Event) : List HttpRequest := t.filterMap (·.written? s)

/-- Their bytes: what arrives at the node if all writes are whole, and a part of which arrives if
the last one is not. -/
def stream (s : Session) (t : List Event) : List Char := (written s t).flatMap HttpRequest.wire

theorem mem_written {req : HttpRequest} : req ∈ written s t ↔ ∃ a, .write s req a ∈ t := by
  unfold written
  rw [List.mem_filterMap]
  constructor
  · rintro ⟨e, he, hreq⟩
    cases e with
    | write s' req' a =>
      obtain ⟨rfl, rfl⟩ : s' = s ∧ req' = req := by simpa [Event.written?] using hreq
      exact ⟨a, he⟩
    | _ => cases hreq
  · rintro ⟨a, ha⟩
    exact ⟨_, ha, if_pos rfl⟩

/-- The query of an http client, or the text of a command that was requested. -/
def IsAsked (api : Api) (s : Session) (t : List Event) (req : HttpRequest) : Prop :=
  req = Http.Client.getRequest s ∨ ∃ body data, .request body ∈ t ∧ api.dump body = .ok data ∧
    req = RpcSession.postRequest s body data

theorem Grounded.written (ht : Grounded (Sourced api P) t) (htu : t = u ++ v) {req : HttpRequest}
    (hreq : req ∈ written s u) : IsAsked api s u req := by
  obtain ⟨a, ha⟩ := mem_written.1 hreq
  obtain ⟨u₁, u₂, rfl, hwrite⟩ := ht.of_mem htu ha
  cases hwrite with
  | free he => cases he
  | get => exact .inl rfl
  | write hbody hdata => exact .inr ⟨_, _, List.mem_append_left u₂ hbody, hdata, rfl⟩

/-! ### Their frames -/

theorem getRequest_framed (s : Session) : (Http.Client.getRequest s).Framed := by
  have hfield : (Http.Client.getRequest s).field? "Content-Length" = none := by
    simp [HttpRequest.field?, getRequest_fields, List.lookup_cons]
  unfold HttpRequest.Framed ReadHead.contentLength
  rw [HttpRequest.lookup_parts, hfield]
  rfl

/-- The length that `request` sets is that of the body. -/
theorem postRequest_framed (s : Session) (body : Json) (data : String) :
    (RpcSession.postRequest s body data).Framed := by
  have hfield : (RpcSession.postRequest s body data).field? "Content-Length" =
      some (toString data.length) := by
    simp [HttpRequest.field?, postRequest_fields, List.lookup_cons]
  have hdigits : (toString data.length).toList = Nat.toDigits 10 data.length := by
    rw [Nat.toString_eq_repr, Nat.toList_repr]
  have hall : (Nat.toDigits 10 data.length).all Char.isDigit = true :=
    List.all_eq_true.2 fun c hc => Nat.isDigit_of_mem_toDigits (by omega) (by omega) hc
  unfold HttpRequest.Framed ReadHead.contentLength
  rw [HttpRequest.lookup_parts, hfield, Option.map_some, hdigits]
  simp only [ne_eq, Nat.toDigits_ne_nil, not_false_eq_true, hall, and_self, ↓reduceIte,
    Nat.ofDigitChars_ten_toDigits]
  rfl

section Asked

variable {req : HttpRequest}

theorem IsAsked.framed (h : IsAsked api s t req) : req.Framed := by
  obtain rfl | ⟨body, data, -, -, rfl⟩ := h
  · exact getRequest_framed s
  · exact postRequest_framed s body data

theorem IsAsked.fieldNames (h : IsAsked api s t req) : req.FieldNames := by
  obtain rfl | ⟨body, data, -, -, rfl⟩ := h
  · exact getRequest_fieldNames s
  · exact postRequest_fieldNames s body data

theorem IsAsked.clean_iff (h : IsAsked api s t req) :
    req.Clean ↔ OneLine s.host.toList ∧ OneToken s.target.toList := by
  obtain rfl | ⟨body, data, -, -, rfl⟩ := h
  · exact getRequest_clean_iff s
  · exact postRequest_clean_iff s body data

end Asked

/-! ### Programs -/

/-- The purpose that allows everything the library can be used for. -/
def Purpose.any : Purpose where
  asked _ _ := True
  made _ := .always True
  sent _ := .always True
  printed _ := .always True
  undefined _ := .always True

theorem Purpose.serves_any (method : String) (params : Json) : Serves api .any method params where
  asked _ := trivial
  made _ _ := trivial
  sent _ := trivial
  emptyBlockId _ := trivial
  missingKey _ _ _ := trivial

/-- What was asked for is told apart exactly if the host and the target are clean. -/
theorem run_stream_asked (h : ∀ req ∈ written s u, IsAsked api s u req) :
    (Reader.idle []).run (stream s u) = .idle ((written s u).map HttpRequest.reading) ↔
      written s u = [] ∨ OneLine s.host.toList ∧ OneToken s.target.toList := by
  have hiff := Reader.run_stream_iff (fun req hreq => (h req hreq).fieldNames)
    fun req hreq => (h req hreq).framed
  refine hiff.trans ?_
  cases hw : written s u with
  | nil => simp
  | cons req reqs =>
    rw [hw] at h
    have hne : (req :: reqs : List HttpRequest) ≠ [] := List.cons_ne_nil _ _
    constructor
    · exact fun hc => .inr ((h req List.mem_cons_self).clean_iff.1 (hc req List.mem_cons_self))
    · rintro (hnil | hc) r hr
      · exact absurd hnil hne
      · exact (h r hr).clean_iff.2 hc

/-- **The node reads what the program has asked for.**  At any moment of a run, and for any of its
sessions: the requests that were written to it are read back, with their bodies and nothing else,
exactly if its host has no line end and its target no white space, or if there are none.  If it is
so, then from any part of their bytes the node reads the first of them, and each is the query of an
http client or the text of a command that was requested before. -/
theorem runActs_framed (env : Env ν) (acts : List Act) {responseFail : ResponseHandler ν}
    {error : ErrorHandler ν} (hh : HandlersJustified api .any responseFail error) (w : World ν)
    (htrace : (runActs env api responseFail error ⟨[], []⟩ acts w).trace = u ++ v)
    (s : Session) :
    ((Reader.idle []).run (stream s u) = .idle ((written s u).map HttpRequest.reading) ↔
        written s u = [] ∨ OneLine s.host.toList ∧ OneToken s.target.toList) ∧
      (OneLine s.host.toList → OneToken s.target.toList → ∀ b, b <+: stream s u →
        ((Reader.idle []).run b).read <+: (written s u).map HttpRequest.reading ∧
          ∀ r ∈ ((Reader.idle []).run b).read, ∃ req, IsAsked api s u req ∧ r = req.reading) := by
  have hrun : (runActs env api responseFail error ⟨[], []⟩ acts).Justified api .any :=
    runActs_learns hh acts (fun i m p _ => Purpose.serves_any m p) (fun _ _ _ _ _ _ => trivial)
      (fun _ _ _ _ _ => trivial) _ ⟨by simp, by simp⟩
  have hasked : ∀ req ∈ written s u, IsAsked api s u req :=
    fun req hreq => (hrun.grounded trivial w).written htrace hreq
  refine ⟨run_stream_asked hasked, fun hhost htarget b hb => ?_⟩
  have hpre : ((Reader.idle []).run b).read <+: (written s u).map HttpRequest.reading :=
    Reader.run_read_first (fun req hreq => (hasked req hreq).fieldNames)
      (fun req hreq => (hasked req hreq).framed)
      (fun req hreq => (hasked req hreq).clean_iff.2 ⟨hhost, htarget⟩) hb
  refine ⟨hpre, fun r hr => ?_⟩
  obtain ⟨req, hreq, rfl⟩ := List.mem_map.1 (hpre.subset hr)
  exact ⟨req, hasked req hreq, rfl⟩

/-- The session of a program, which writes a query and a payment. -/
def Session.unregistering : Session := ⟨0, true, true, "a", "443", "", 3⟩

theorem runActs_framed_unregistering :
    let u := (runActs tellingNode tellingApi logResponse logError ⟨[], []⟩ unregistering
      (World.init ())).trace
    let s := Session.unregistering
    ((Reader.idle []).run (stream s u) = .idle ((written s u).map HttpRequest.reading) ↔
        written s u = [] ∨ OneLine s.host.toList ∧ OneToken s.target.toList) ∧
      (OneLine s.host.toList → OneToken s.target.toList → ∀ b, b <+: stream s u →
        ((Reader.idle []).run b).read <+: (written s u).map HttpRequest.reading ∧
          ∀ r ∈ ((Reader.idle []).run b).read,
            ∃ req, IsAsked tellingApi s u req ∧ r = req.reading) :=
  runActs_framed tellingNode unregistering .log (World.init ()) (List.append_nil _).symm
    Session.unregistering

/-- Both requests are written to it. -/
example : (written Session.unregistering (runActs tellingNode tellingApi logResponse logError
    ⟨[], []⟩ unregistering (World.init ())).trace).filterMap HttpRequest.rpcMethod =
      ["get-current-block-id", "send-transaction"] := by
  decide +kernel

end MileRpc
