import MileRpc.Rpc.Exchange

/-!
# Requests and their responses on one connection

The outside here is one connection to a server that answers the requests it receives in order
(`Plays`): each with any number of interim responses and one final response.  The messages that the
client has not read wait on the connection (`Wire`); a successful read takes the first of them.  A
write or a read may also fail, with or without closing the socket: the deadline closes it, any other
error leaves it open.

`RpcSession::request` reads one message after it has written and returns the result it finds in it;
the id of the reply is not looked at.  So after an interim response, or after a failure that left
the socket open and a response behind, the next request reads the response of an earlier one.  While
every request of a run is `Settled`, this does not happen (`request_correlates`): the invariant is
that an open connection holds no unread message (`Wire.Drained`).
-/

namespace MileRpc

/-- A message from the server, with the number of the request that it answers. -/
structure Sent where
  request : ℕ
  response : HttpResponse
  deriving DecidableEq

/-- The end of an operation that is not successful. -/
inductive IoFailure where
  /-- An exception left the operation. -/
  | thrown (e : Exn)
  /-- The operation ended with an error code. -/
  | error (text : String)
  /-- The operation completed, but the deadline has closed the socket. -/
  | expired
  deriving DecidableEq

/-- The result of a failed operation; `closes` says that the socket is closed. -/
def IoFailure.result (f : IoFailure) (closes : Bool) : Except Exn Io :=
  match f with
  | .thrown e => .error e
  | .error text => .ok ⟨some text, !closes⟩
  | .expired => .ok ⟨none, false⟩

/-- A failed operation leaves the socket closed. -/
def IoFailure.closesSocket (f : IoFailure) (closes : Bool) : Bool :=
  match f with
  | .expired => true
  | _ => closes

/-- How network and server behave during one request. -/
structure Play where
  /-- The write fails so, and closes the socket or not. -/
  writeFails : Option (IoFailure × Bool)
  /-- The server receives the request. -/
  delivered : Bool
  /-- The interim responses of the server. -/
  interims : List HttpResponse
  /-- Its final response to a body. -/
  final : Json → HttpResponse
  /-- The read fails so, closes the socket or not, and takes this many messages with it. -/
  readFails : Option (IoFailure × Bool × ℕ)

/-- The connection. -/
structure Wire where
  isOpen : Bool
  /-- The number of requests that were written. -/
  count : ℕ
  /-- The messages that were not read. -/
  unread : List Sent
  /-- The message that the last read took. -/
  taken : Option Sent
  deriving DecidableEq

namespace Wire

/-- A new connection. -/
def init : Wire := ⟨true, 0, [], none⟩

/-- The messages of the server for a request. -/
def answers (p : Play) (k : ℕ) (body : Json) : List Sent :=
  if p.delivered then p.interims.map (Sent.mk k) ++ [⟨k, p.final body⟩] else []

/-- Write the request that carries `body`. -/
def write (plays : ℕ → Play) (body : Json) (n : Wire) : WriteAnswer × Wire :=
  if n.isOpen then
    let p := plays n.count
    let n' := { n with count := n.count + 1, unread := n.unread ++ answers p n.count body,
                       taken := none }
    match p.writeFails with
    | none => (⟨.ok .success, p.delivered⟩, n')
    | some (f, closes) =>
      (⟨f.result closes, p.delivered⟩, { n' with isOpen := !f.closesSocket closes })
  else (⟨.ok ⟨some "Bad file descriptor", false⟩, false⟩,
    { n with count := n.count + 1, taken := none })

/-- Read the next message: without one, the deadline closes the socket. -/
def read (plays : ℕ → Play) (n : Wire) : ReadAnswer × Wire :=
  if n.isOpen then
    match (plays (n.count - 1)).readFails with
    | none =>
      match n.unread with
      | m :: ms => (⟨.ok .success, m.response⟩, { n with unread := ms, taken := some m })
      | [] => (⟨.ok ⟨some "Operation canceled", false⟩, ⟨0, ""⟩⟩, { n with isOpen := false })
    | some (f, closes, lost) =>
      (⟨f.result closes, ⟨0, ""⟩⟩,
        { n with isOpen := !f.closesSocket closes, unread := n.unread.drop lost })
  else (⟨.ok ⟨some "Bad file descriptor", false⟩, ⟨0, ""⟩⟩, n)

/-- The connection as the outside of the client. -/
def env (plays : ℕ → Play) : Env Wire :=
  { Env.answering (fun n => (⟨0, ""⟩, n)) with
    asyncWrite := fun _ req n => n.write plays (req.payload.getD .null)
    asyncRead := fun _ n => n.read plays }

/-- An open connection holds no unread message. -/
def Drained (n : Wire) : Prop := n.isOpen = true → n.unread = []

end Wire

/-- The interim responses are interim, the final ones are not, and a final response echoes the id
of the body that it answers. -/
def Echoes (api : Api) (plays : ℕ → Play) : Prop :=
  ∀ k, (∀ r ∈ (plays k).interims, r.Interim) ∧
    ∀ body, ¬ ((plays k).final body).Interim ∧
      ∀ j, api.parse ((plays k).final body).data = .ok j → j.member? "id" = body.member? "id"

/-- The number of messages with which the server answers. -/
def Play.answerCount (p : Play) : ℕ := if p.delivered then p.interims.length + 1 else 0

/-- The request leaves no message behind on an open connection: a failed write closes the socket or
did not reach the server, a failed read closes the socket or takes all messages of the server with
it, and a successful read meets no interim response. -/
def Play.Settled (p : Play) : Prop :=
  match p.writeFails with
  | some (f, closes) => f.closesSocket closes = true ∨ p.delivered = false
  | none =>
    match p.readFails with
    | some (f, closes, lost) => f.closesSocket closes = true ∨ p.answerCount ≤ lost
    | none => p.delivered = true → p.interims = []

/-- The value `v` that a request of `body` returned is the result of its own final response: `n` is
the connection before the request and `n'` after it. -/
def OwnResponse (api : Api) (body : Json) (n n' : Wire) (v : Json) : Prop :=
  ∃ m, n'.taken = some m ∧ m.request = n.count ∧ ¬ m.response.Interim ∧
    api.replyResult m.response = some v ∧
    ∀ j, api.parse m.response.data = .ok j → j.member? "id" = body.member? "id"

theorem IoFailure.result_ne_success (f : IoFailure) (closes : Bool) :
    f.result closes ≠ .ok .success := by
  cases f <;> simp [IoFailure.result, Io.success]

theorem Interim.replyResult {api : Api} {r : HttpResponse} (h : r.Interim) :
    api.replyResult r = none := by
  have hne : r.status ≠ HttpResponse.ok := by
    have := h.2
    unfold HttpResponse.ok
    omega
  simp [Api.replyResult, hne]

namespace Wire

variable {plays : ℕ → Play} {body : Json} {n : Wire} {k : ℕ}

theorem length_answers (p : Play) (k : ℕ) (body : Json) :
    (answers p k body).length = p.answerCount := by
  unfold answers Play.answerCount
  split_ifs <;> simp

theorem write_success (h : (n.write plays body).1.result = .ok .success) :
    n.isOpen = true ∧ (plays n.count).writeFails = none ∧
      (n.write plays body).2 =
        { n with count := n.count + 1, taken := none,
                 unread := n.unread ++ answers (plays n.count) n.count body } := by
  unfold write at h ⊢
  cases ho : n.isOpen with
  | false => simp [ho, Io.success] at h
  | true =>
    simp only [ho, ↓reduceIte] at h ⊢
    cases hw : (plays n.count).writeFails with
    | none => simp
    | some f =>
      rw [hw] at h
      exact absurd h (f.1.result_ne_success f.2)

theorem write_drained (hn : n.Drained) (hs : n.isOpen = true → (plays n.count).Settled)
    (h : (n.write plays body).1.result ≠ .ok .success) : (n.write plays body).2.Drained := by
  unfold write at h ⊢
  cases ho : n.isOpen with
  | false => simp [Drained]
  | true =>
    simp only [ho, ↓reduceIte] at h ⊢
    have hs' := hs ho
    unfold Play.Settled at hs'
    cases hw : (plays n.count).writeFails with
    | none => simp [hw] at h
    | some f =>
      simp only [hw] at hs' ⊢
      rcases hs' with hc | hd
      · simp [Drained, hc]
      · intro _
        simp [answers, hd, hn ho]

theorem read_drained (ho : n.isOpen = true) (hcount : n.count = k + 1)
    (hunread : n.unread = answers (plays k) k body) (hw : (plays k).writeFails = none)
    (hs : (plays k).Settled) : (n.read plays).2.Drained := by
  simp only [Play.Settled, hw] at hs
  simp only [read, ho, hcount, Nat.add_sub_cancel, ↓reduceIte]
  cases hr : (plays k).readFails with
  | some f =>
    simp only [hr] at hs ⊢
    rcases hs with hc | hlost
    · simp [Drained, hc]
    · intro _
      rw [hunread, List.drop_eq_nil_iff, length_answers]
      exact hlost
  | none =>
    simp only [hr] at hs ⊢
    cases hd : (plays k).delivered with
    | false => simp [hunread, answers, hd, Drained]
    | true => simp [hunread, answers, hd, hs hd, Drained]

theorem read_value {api : Api} {v : Json} {n₀ : Wire} (hecho : Echoes api plays)
    (ho : n.isOpen = true) (hunread : n.unread = answers (plays n₀.count) n₀.count body)
    (hok : (n.read plays).1.result = .ok .success)
    (hv : api.replyResult (n.read plays).1.response = some v) :
    OwnResponse api body n₀ (n.read plays).2 v := by
  obtain ⟨hinterim, hfinal⟩ := hecho n₀.count
  simp only [read, ho, ↓reduceIte] at hok hv ⊢
  cases hr : (plays (n.count - 1)).readFails with
  | some f =>
    rw [hr] at hok
    exact absurd hok (f.1.result_ne_success f.2.1)
  | none =>
    simp only [hr] at hok hv ⊢
    cases hu : n.unread with
    | nil => simp [hu, Io.success] at hok
    | cons m ms =>
      simp only [hu] at hv ⊢
      rw [hunread, answers] at hu
      split_ifs at hu with hd
      cases hi : (plays n₀.count).interims with
      | nil =>
        simp only [hi, List.map_nil, List.nil_append, List.cons.injEq] at hu
        obtain ⟨rfl, -⟩ := hu
        exact ⟨_, rfl, rfl, (hfinal body).1, hv, (hfinal body).2⟩
      | cons r rs =>
        -- an interim response carries no result
        simp only [hi, List.map_cons, List.cons_append, List.cons.injEq] at hu
        obtain ⟨rfl, -⟩ := hu
        rw [Interim.replyResult (hinterim r (by simp [hi]))] at hv
        cases hv

end Wire

/-! ### Runs -/

section Runs

variable {api : Api} {plays : ℕ → Play} {s : Session} {responseFail : ResponseHandler Wire}
  {error : ErrorHandler Wire} {body : Json}

/-- What happened during this request, if it was written, is settled. -/
def SettledStep (api : Api) (plays : ℕ → Play) (body : Json) (n : Wire) : Prop :=
  n.isOpen = true → (∃ data, api.dump body = .ok data) → (plays n.count).Settled

theorem env_asyncWrite (data : String) (n : Wire) :
    (Wire.env plays).asyncWrite s (RpcSession.postRequest s body data) n = n.write plays body := by
  simp [Wire.env, RpcSession.postRequest, HttpRequest.preparePayload, HttpRequest.set]

/-- **The step**: a settled request leaves a drained connection drained. -/
theorem exchanged_drained {n n' : Wire} {o : Outcome Exn Stop (Option Json)}
    (h : RpcSession.Exchanged (Wire.env plays) api s body n o n') (hn : n.Drained)
    (hs : SettledStep api plays body n) : n'.Drained := by
  cases h with
  | unsent => exact hn
  | unwritten hd hw =>
    rw [env_asyncWrite] at hw ⊢
    exact Wire.write_drained hn (fun ho => hs ho ⟨_, hd⟩) hw
  | asked hd hw =>
    rw [env_asyncWrite] at hw ⊢
    obtain ⟨ho, hfails, heq⟩ := Wire.write_success hw
    have hunread : n.unread ++ Wire.answers (plays n.count) n.count body =
        Wire.answers (plays n.count) n.count body := by
      rw [hn ho, List.nil_append]
    rw [heq]
    exact Wire.read_drained ho rfl hunread hfails (hs ho ⟨_, hd⟩)

/-- A request on a drained connection returns the result of its own response. -/
theorem exchanged_value {n n' : Wire} {o : Outcome Exn Stop (Option Json)} {v : Json}
    (hecho : Echoes api plays) (h : RpcSession.Exchanged (Wire.env plays) api s body n o n')
    (hn : n.Drained) (ho : o = .ret (some v)) : OwnResponse api body n n' v := by
  cases h with
  | unsent hd hv => exact absurd ho (hv v)
  | unwritten hd hw hv => exact absurd ho (hv v)
  | asked hd hw hv =>
    obtain ⟨hok, hres⟩ := hv v ho
    rw [env_asyncWrite] at hw hok hres ⊢
    obtain ⟨hopen, -, heq⟩ := Wire.write_success hw
    rw [heq] at hok hres ⊢
    exact Wire.read_value hecho hopen (by simp [hn hopen]) hok hres

/-- The world after the requests `bodies`, one after the other. -/
def afterRequests (api : Api) (plays : ℕ → Play) (s : Session)
    (responseFail : ResponseHandler Wire) (error : ErrorHandler Wire) :
    List Json → World Wire → World Wire
  | [], w => w
  | body :: bodies, w => afterRequests api plays s responseFail error bodies
      (RpcSession.request (Wire.env plays) api s body responseFail error w).state

/-- Every request of the run is settled. -/
def AllSettled (api : Api) (plays : ℕ → Play) (s : Session)
    (responseFail : ResponseHandler Wire) (error : ErrorHandler Wire) :
    List Json → World Wire → Prop
  | [], _ => True
  | body :: bodies, w => SettledStep api plays body w.net ∧
      AllSettled api plays s responseFail error bodies
        (RpcSession.request (Wire.env plays) api s body responseFail error w).state

/-- **The run**: while every request is settled, the connection stays drained. -/
theorem afterRequests_drained (hh : RpcSession.Aloof responseFail error) {bodies : List Json}
    {w : World Wire} (hn : w.net.Drained)
    (hs : AllSettled api plays s responseFail error bodies w) :
    (afterRequests api plays s responseFail error bodies w).net.Drained := by
  induction bodies generalizing w with
  | nil => exact hn
  | cons body bodies ih =>
    have h : RpcSession.Exchanged (Wire.env plays) api s body w.net _ _ :=
      RpcSession.request_exchanged hh (fun _ => rfl) w
    exact ih (exchanged_drained h hn hs.1) hs.2

/-- **Requests and responses correlate** in every run whose earlier requests are all settled: the
value that the next request returns is the result of the final response to that request, which
carries its id. -/
theorem request_correlates (hh : RpcSession.Aloof responseFail error) (hecho : Echoes api plays)
    {bodies : List Json} {w : World Wire} (hinit : w.net = .init)
    (hs : AllSettled api plays s responseFail error bodies w) (body v : Json)
    (hv : (RpcSession.request (Wire.env plays) api s body responseFail error
      (afterRequests api plays s responseFail error bodies w)).outcome = .ret (some v)) :
    OwnResponse api body (afterRequests api plays s responseFail error bodies w).net
      (RpcSession.request (Wire.env plays) api s body responseFail error
        (afterRequests api plays s responseFail error bodies w)).state.net v := by
  have hn : w.net.Drained := by
    rw [hinit]
    exact fun _ => rfl
  have h : RpcSession.Exchanged (Wire.env plays) api s body _ _ _ :=
    RpcSession.request_exchanged hh (fun _ => rfl)
      (afterRequests api plays s responseFail error bodies w)
  exact exchanged_value hecho h (afterRequests_drained hh hn hs) hv

end Runs

/-! ### Two requests -/

/-- The reply to the request with id `k`: the result is the id. -/
def sampleReply (k : ℕ) : Json := .object [("id", .integer k), ("result", .integer k)]

/-- A request that the server answers after the interim responses `interims`. -/
def Play.sample (interims : List HttpResponse) : Play where
  writeFails := none
  delivered := true
  interims := interims
  final body :=
    match body.member? "id" with
    | some (.integer 0) => ⟨200, (sampleReply 0).text⟩
    | some (.integer 1) => ⟨200, (sampleReply 1).text⟩
    | _ => ⟨500, ""⟩
  readFails := none

/-- A server that sends the interim responses `interims` to its first request. -/
def samplePlays (interims : List HttpResponse) (k : ℕ) : Play :=
  .sample (if k = 0 then interims else [])

/-- The third-party code of the two requests. -/
def sampleApi : Api := .sample [sampleReply 0, sampleReply 1]

theorem echoes_sample {interims : List HttpResponse} (h : ∀ r ∈ interims, r.Interim) :
    Echoes sampleApi (samplePlays interims) := by
  have h0 : sampleApi.parse (HttpResponse.mk 200 (sampleReply 0).text).data = .ok (sampleReply 0) :=
    rfl
  have h1 : sampleApi.parse (HttpResponse.mk 200 (sampleReply 1).text).data = .ok (sampleReply 1) :=
    rfl
  refine fun k => ⟨fun r hr => ?_, fun body => ?_⟩
  · unfold samplePlays Play.sample at hr
    split_ifs at hr
    · exact h r hr
    · simp at hr
  · unfold samplePlays Play.sample
    simp only
    split
    · rename_i hid
      refine ⟨by simp [HttpResponse.Interim], fun j hj => ?_⟩
      rw [h0] at hj
      rw [hid, ← Except.ok.inj hj]
      rfl
    · rename_i hid
      refine ⟨by simp [HttpResponse.Interim], fun j hj => ?_⟩
      rw [h1] at hj
      rw [hid, ← Except.ok.inj hj]
      rfl
    · refine ⟨by simp [HttpResponse.Interim], fun j hj => ?_⟩
      cases hj

/-- The world after the first request. -/
def sampleWorld (interims : List HttpResponse) : World Wire :=
  afterRequests sampleApi (samplePlays interims) .sample logResponse logError
    [command "ping" .null 0] (World.init .init)

/-- The second request. -/
def sampleRequest (interims : List HttpResponse) : Run (World Wire) Event Exn Stop (Option Json) :=
  RpcSession.request (Wire.env (samplePlays interims)) sampleApi .sample (command "ping" .null 1)
    logResponse logError (sampleWorld interims)

/-- Without an interim response the second request returns its own result. -/
theorem request_correlates_second :
    OwnResponse sampleApi (command "ping" .null 1) (sampleWorld []).net (sampleRequest []).state.net
      (.integer 1) := by
  have hh : RpcSession.Aloof (logResponse : ResponseHandler Wire) logError :=
    ⟨fun _ _ _ _ => rfl, fun _ _ _ => rfl⟩
  have hs : AllSettled sampleApi (samplePlays []) .sample logResponse logError
      [command "ping" .null 0] (World.init .init) :=
    ⟨fun _ _ _ => rfl, trivial⟩
  exact request_correlates hh (echoes_sample (by simp)) rfl hs (command "ping" .null 1) (.integer 1)
    rfl

/-- After an interim response the second request returns the result of the first one. -/
theorem request_reads_earlier_response :
    Echoes sampleApi (samplePlays [⟨100, ""⟩]) ∧
      (sampleRequest [⟨100, ""⟩]).outcome = .ret (some (.integer 0)) ∧
      ¬ OwnResponse sampleApi (command "ping" .null 1) (sampleWorld [⟨100, ""⟩]).net
        (sampleRequest [⟨100, ""⟩]).state.net (.integer 0) := by
  refine ⟨echoes_sample (by simp [HttpResponse.Interim]), rfl, ?_⟩
  rintro ⟨m, htaken, hm, -⟩
  have hfirst : (sampleRequest [⟨100, ""⟩]).state.net.taken.map Sent.request = some 0 := rfl
  have hcount : (sampleWorld [⟨100, ""⟩]).net.count = 1 := rfl
  rw [htaken, Option.map_some, hm, hcount] at hfirst
  simp at hfirst

end MileRpc
