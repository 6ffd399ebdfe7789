import MileRpc.Cli.Retry
import MileRpc.Cli.AtMostOnce
import MileRpc.Session.Report

/-!
# The status of mile_cli_wallet

An error during the connect is retried inside the connect, whose attempt then ends without a call:
the outcome is that of the retry.  An error during the call is retried inside the call, and when the
retry has printed its result, the call goes on with the failure: without a result the process exits
with status -1, and with one it prints a second result.

`status_tells` : if no attempt starts after a session was connected, the process makes at most one
call; it prints the result of the call and exits with status 0, or prints nothing and does not.
-/

namespace MileRpc

/-- Something was printed. -/
def Event.isCout : Event → Bool
  | .cout _ => true
  | _ => false

@[simp] theorem couts_append (t u : List Event) : couts (t ++ u) = couts t ++ couts u :=
  List.filterMap_append

theorem couts_eq_nil {t : List Event} (ht : ∀ e ∈ t, e.isCout = false) : couts t = [] := by
  refine List.filterMap_eq_nil_iff.2 fun e he => ?_
  have := ht e he
  cases e <;> simp_all [Event.isCout]

/-- `RpcSession::request` was entered. -/
def Event.isRequest : Event → Bool
  | .request _ => true
  | _ => false

/-- Nothing was printed or requested. -/
structure Idle (t : List Event) : Prop where
  couts : couts t = []
  unrequested : ∀ e ∈ t, e.isRequest = false

theorem Idle.nil : Idle [] := ⟨rfl, by simp⟩

theorem Working.idle {t : List Event} (ht : Working Event.isConnect t) : Idle t := by
  refine ⟨couts_eq_nil fun e he => ?_, fun e he => ?_⟩ <;>
    have := ht e he <;>
    cases e <;> simp_all [Event.isConnect, Event.isCout, Event.isRequest]

/-- What was parsed can be dumped: so can the result that a reply carries. -/
def Api.DumpsResults (api : Api) : Prop :=
  ∀ res v, api.replyResult res = some v → ∃ data, api.dump v = .ok data

namespace Cli.Wallet

/-- No attempt starts after a session was connected: what is retried is the connect only. -/
def RetriesConnect (t : List Event) : Prop :=
  t.Pairwise fun e e' => e.connects = true → e'.isAttempt = false

variable {ν : Type} (env : Env ν) (api : Api) (opts : Options)

/-- The call of an attempt, with its parameters. -/
def methodCall (rpc : Rpc.Client ν) : M ν Rpc.AnyValue := do
  let params ← parseParams api opts
  rpc.call env api opts.method params

/-- All that was requested was requested in one call, whose run is `r`. -/
def OnlyCall (r : Run (World ν) Event Exn Stop Rpc.AnyValue) (t : List Event) : Prop :=
  ∃ rpc w pre post, r = methodCall env api opts rpc w ∧ t = pre ++ r.trace ++ post ∧
    (∀ e ∈ pre, e.isRequest = false) ∧ ∀ e ∈ post, e.isRequest = false

/-- The call has returned a result, which was printed, and nothing else was. -/
def Printed (t : List Event) : Prop :=
  ∃ r result text w, OnlyCall env api opts r t ∧ r.outcome = .ret result ∧
    result.hasValue = true ∧ couts (printResult env api result w).trace = [text] ∧
    couts t = ["Call " ++ opts.method ++ ": ", text]

/-- Nothing was requested, or the call has returned no result; nothing was printed. -/
def Unprinted (t : List Event) : Prop :=
  ((∀ e ∈ t, e.isRequest = false) ∨ ∃ r, OnlyCall env api opts r t ∧
    ∀ result, r.outcome = .ret result → result.hasValue = false) ∧ couts t = []

/-- A result is printed and the status is 0, or none is and the process ends in another way. -/
def StatusTells (o : Outcome Exn Stop Unit) (t : List Event) : Prop :=
  (Printed env api opts t ∧ o = .stop (.exit 0)) ∨
    (Unprinted env api opts t ∧ o ≠ .stop (.exit 0) ∧ o ≠ .stop .outOfFuel ∧ o ≠ .ret ())

/-- What `do_request` comes to: it returns after a result, or ends the process without. -/
inductive Done : Outcome Exn Stop Unit → List Event → Prop
  | printed {t : List Event} : Printed env api opts t → Done (.ret ()) t
  | failed {t : List Event} {s : Stop} : Unprinted env api opts t → s ≠ .exit 0 → Done (.stop s) t

/-- As `Done`, if no attempt starts after a session was connected. -/
def DoneIf (o : Outcome Exn Stop Unit) (t : List Event) : Prop :=
  RetriesConnect t → Done env api opts o t

variable {env : Env ν} {api : Api} {opts : Options}

theorem Unprinted.of_idle {t : List Event} (ht : Idle t) : Unprinted env api opts t :=
  ⟨.inl ht.unrequested, ht.couts⟩

theorem OnlyCall.prepend {r : Run (World ν) Event Exn Stop Rpc.AnyValue} {t u : List Event}
    (ht : Idle t) (h : OnlyCall env api opts r u) : OnlyCall env api opts r (t ++ u) := by
  obtain ⟨rpc, w, pre, post, hr, rfl, hpre, hpost⟩ := h
  refine ⟨rpc, w, t ++ pre, post, hr, ?_, List.forall_mem_append.2 ⟨ht.unrequested, hpre⟩, hpost⟩
  rw [List.append_assoc t pre, List.append_assoc t]

theorem Done.prepend {o : Outcome Exn Stop Unit} {t u : List Event} (ht : Idle t)
    (h : Done env api opts o u) : Done env api opts o (t ++ u) := by
  cases h with
  | printed hu =>
    obtain ⟨r, result, text, w, hcall, hret, hv, htext, hcouts⟩ := hu
    exact .printed ⟨r, result, text, w, hcall.prepend ht, hret, hv, htext,
      by rw [couts_append, ht.couts, hcouts, List.nil_append]⟩
  | failed hu hs =>
    obtain ⟨hcall, hcouts⟩ := hu
    refine .failed ⟨?_, by rw [couts_append, ht.couts, hcouts, List.nil_append]⟩ hs
    rcases hcall with hnone | ⟨r, hcall, hresult⟩
    · exact .inl (List.forall_mem_append.2 ⟨ht.unrequested, hnone⟩)
    · exact .inr ⟨r, hcall.prepend ht, hresult⟩

/-! ### The call -/

/-- The law about the runs that start no attempt: nothing is printed. -/
def calling (ν : Type) : Law (World ν) Event Stop where
  Moves _ t _ := couts t = []
  Stops _ t s := couts t = [] ∧ s ≠ .exit 0
  Fair t := ∀ e ∈ t, e.isAttempt = false
  moves_nil _ := rfl
  moves_append ht hu := by rw [couts_append, ht, hu, List.nil_append]
  stops_append ht hu := ⟨by rw [couts_append, ht, hu.1, List.nil_append], hu.2⟩
  fair_append h := ⟨fun e he => h e (List.mem_append_left _ he),
    fun e he => h e (List.mem_append_right _ he)⟩

theorem calling_freeBut : (calling ν).FreeBut (·.isCout = true) where
  tool {e} he := by cases e <;> first | rfl | cases he
  free _ ht := couts_eq_nil fun e he => by simpa using ht e he
  crash _ := ⟨rfl, nofun⟩
  exit _ := ⟨rfl, nofun⟩

/-- An error that starts no attempt ends the process. -/
theorem errorHandler_calling (fuel : ℕ) :
    ErrorKeeps (calling ν) False False (errorHandler opts (doRequest env api opts fuel)) := by
  intro code text w hw
  rw [errorHandler_apply] at hw ⊢
  obtain ⟨-, hrest⟩ := (calling ν).fair_append hw
  have hsilent : (calling ν).Moves w (logged code text w) w := rfl
  refine Law.Meets.prepend ?_ hsilent
  split_ifs with hcode hlast
  · exact ⟨rfl, nofun⟩
  · exact ⟨rfl, nofun⟩
  · cases fuel with
    | zero => exact ⟨rfl, nofun⟩
    | succ fuel =>
      rw [if_neg hcode, if_neg hlast] at hrest
      have hattempt : Event.doRequest ∈ (doRequest env api opts (fuel + 1) w.counted).trace :=
        Prog.mem_trace_bind_left List.mem_cons_self
      cases hrest _ hattempt

/-- A result is printed by one event. -/
theorem printResult_apply (hdump : api.DumpsResults) {result : Rpc.AnyValue}
    (hkeys : api.RejectsKeys)
    (h : Rpc.Client.CallResult (calling ν) api opts.method True False result)
    (hv : result.hasValue = true) (w : World ν) :
    ∃ text w', printResult env api result w = ⟨.ret (), [.cout text], w'⟩ := by
  cases result with
  | empty => cases hv
  | nullopt => exact (h.nullopt hkeys rfl).elim
  | time t => exact ⟨_, _, rfl⟩
  | uint256 v => exact ⟨_, _, rfl⟩
  | response r =>
    obtain ⟨v, res, rfl, hres⟩ := h.response r rfl
    obtain ⟨data, hdata⟩ := hdump res v hres
    refine ⟨data, w, ?_⟩
    simp only [printResult, hdata, ofJson_ok, pure_bind, Prog.emit_apply]

section Run

variable {rpc : Rpc.Client ν} {w w' w'' : World ν} {result : Rpc.AnyValue} {t : List Event}

theorem callMethod_eq : callMethod env api opts rpc = (do
    let result ← methodCall env api opts rpc
    if result.hasValue then do
      Prog.emit (.cout ("Call " ++ opts.method ++ ": "))
      printResult env api result
    else do
      Prog.emit (.cerr "Rpc error: response does not have any result")
      Prog.halt (.exit (-1))) := by
  rw [methodCall, bind_assoc, callMethod]

theorem callMethod_of_hasValue {text : String}
    (hcall : methodCall env api opts rpc w = ⟨.ret result, t, w'⟩) (hv : result.hasValue = true)
    (hprint : printResult env api result w' = ⟨.ret (), [.cout text], w''⟩) :
    callMethod env api opts rpc w =
      ⟨.ret (), t ++ [.cout ("Call " ++ opts.method ++ ": "), .cout text], w''⟩ := by
  rw [callMethod_eq, Prog.bind_of_ret hcall, if_pos hv, Prog.bind_apply, Prog.emit_apply]
  simp only [hprint]
  rfl

theorem callMethod_of_empty (hcall : methodCall env api opts rpc w = ⟨.ret result, t, w'⟩)
    (hv : result.hasValue = false) : callMethod env api opts rpc w =
      ⟨.stop (.exit (-1)), t ++ [.cerr "Rpc error: response does not have any result"], w'⟩ := by
  rw [callMethod_eq, Prog.bind_of_ret hcall, if_neg (by simp [hv])]
  rfl

/-- An attempt whose call has returned without a retry prints the result, or ends the process. -/
theorem callMethod_returned (hkeys : api.RejectsKeys) (hdump : api.DumpsResults)
    (hcall : methodCall env api opts rpc w = ⟨.ret result, t, w'⟩) (hnone : couts t = [])
    (hresult : Rpc.Client.CallResult (calling ν) api opts.method True False result) :
    Done env api opts (callMethod env api opts rpc w).outcome
      (callMethod env api opts rpc w).trace := by
  have honly : ∀ post : List Event, (∀ e ∈ post, e.isRequest = false) →
      OnlyCall env api opts ⟨.ret result, t, w'⟩ (t ++ post) :=
    fun post hpost => ⟨rpc, w, [], post, hcall.symm, rfl, by simp, hpost⟩
  cases hv : result.hasValue with
  | true =>
    obtain ⟨text, w'', hprint⟩ :
        ∃ text w'', printResult env api result w' = ⟨.ret (), [.cout text], w''⟩ :=
      printResult_apply hdump hkeys hresult hv w'
    rw [callMethod_of_hasValue hcall hv hprint]
    refine .printed ⟨_, result, text, w', honly _ (by simp [Event.isRequest]), rfl, hv, ?_, ?_⟩
    · rw [hprint]
      rfl
    · rw [couts_append, hnone]
      rfl
  | false =>
    rw [callMethod_of_empty hcall hv]
    refine .failed ⟨.inr ⟨_, honly _ (by simp [Event.isRequest]), ?_⟩, ?_⟩ nofun
    · rintro _ ⟨⟩
      exact hv
    · rw [couts_append, hnone]
      rfl

end Run

section Call

variable {rpc : Rpc.Client ν} (hc : rpc.Keeping (calling ν) True False)
  (he : ErrorKeeps (calling ν) False False rpc.error)
include hc he

theorem methodCall_keeps :
    (calling ν).Keeps (Rpc.Client.CallResult (calling ν) api opts.method True False) False
      (methodCall env api opts rpc) := by
  refine (parseParams_keeps calling_freeBut fun _ => nofun).andThen fun params _ => ?_
  exact Rpc.Client.call_keeps (calling_freeBut.callLaw params) hc he

/-- **A call without a retry** is printed, or ends the process; it does not throw. -/
theorem callMethod_done (hkeys : api.RejectsKeys) (hdump : api.DumpsResults) :
    (callMethod env api opts rpc).Ensures fun o t =>
      (∀ e ∈ t, e.isAttempt = false) → Done env api opts o t := by
  intro w hfair
  have hcall : (calling ν).Keeps (Rpc.Client.CallResult (calling ν) api opts.method True False)
      False (methodCall env api opts rpc) := methodCall_keeps hc he
  have hrun := hcall w
  rcases hr : methodCall env api opts rpc w with ⟨result | e | s, t, w'⟩
  · rw [hr] at hrun
    have hsub : ∀ e ∈ t, e ∈ (callMethod env api opts rpc w).trace := fun e he => by
      rw [callMethod_eq, Prog.bind_of_ret hr]
      exact List.mem_append_left _ he
    obtain ⟨hnone, hresult⟩ := hrun fun e he => hfair e (hsub e he)
    exact callMethod_returned hkeys hdump hr hnone hresult
  · rw [hr] at hrun
    rw [callMethod_eq, Prog.bind_of_throw hr] at hfair
    exact (hrun hfair).2.elim
  · rw [hr] at hrun
    rw [callMethod_eq, Prog.bind_of_stop hr] at hfair ⊢
    obtain ⟨hnone, hs⟩ := hrun hfair
    refine .failed ⟨.inr ⟨_, ⟨rpc, w, [], [], hr.symm, ?_, by simp, by simp⟩, nofun⟩, hnone⟩ hs
    rw [List.append_nil, List.nil_append]

/-- So the `catch` around it has nothing to do. -/
theorem callMethod_tryCatch_done (hkeys : api.RejectsKeys) (hdump : api.DumpsResults)
    (recover : Exn → M ν Unit) :
    ((callMethod env api opts rpc).tryCatch recover).Ensures fun o t =>
      (∀ e ∈ t, e.isAttempt = false) → Done env api opts o t := by
  have hcall : (callMethod env api opts rpc).Ensures fun o u =>
      (∀ e ∈ u, e.isAttempt = false) → Done env api opts o u :=
    callMethod_done hc he hkeys hdump
  refine hcall.tryCatch (fun _ _ h => h) (fun e u hu w hfair => ?_) fun _ _ h => h
  cases hu fun e he => hfair e (List.mem_append_left _ he)

end Call

/-! ### Attempts -/

theorem DoneIf.prepend {o : Outcome Exn Stop Unit} {t u : List Event} (ht : Idle t)
    (h : DoneIf env api opts o u) : DoneIf env api opts o (t ++ u) :=
  fun hretries => (h (List.pairwise_append.1 hretries).2.1).prepend ht

theorem errorHandler_done {doRequest : M ν Unit}
    (h : doRequest.Ensures (DoneIf env api opts)) (code : ResultCode) (text : String) :
    (errorHandler opts doRequest code text).Ensures (DoneIf env api opts) := by
  intro w
  rw [errorHandler_apply]
  have hidle : Idle (logged code text w) := ⟨rfl, by simp [logged, Event.isRequest]⟩
  refine DoneIf.prepend hidle ?_
  split_ifs
  · exact fun _ => .failed (.of_idle .nil) nofun
  · exact fun _ => .failed (.of_idle .nil) nofun
  · exact h w.counted

/-- What a connect comes to, if no attempt starts after a session was connected: the session is, or
a retry has printed its result, or the process has ended. -/
inductive Connected (env : Env ν) (api : Api) (opts : Options) :
    Outcome Exn Stop Bool → List Event → Prop
  | session {t : List Event} {e : Event} : Idle t → e ∈ t → e.connects = true →
      Connected env api opts (.ret true) t
  | retried {t : List Event} : Done env api opts (.ret ()) t → Connected env api opts (.ret false) t
  | stopped {t : List Event} {s : Stop} : Done env api opts (.stop s) t →
      Connected env api opts (.stop s) t

theorem Accounted.connected {o : Outcome Exn Stop Bool} {t : List Event}
    (h : Accounted Event.isConnect (DoneIf env api opts) False
      (fun b t => b = true ∧ ∃ e ∈ t, e.connects = true) (· = false) o t)
    (hretries : RetriesConnect t) : Connected env api opts o t := by
  cases h with
  | succeeded hw hok =>
    obtain ⟨rfl, e, he, hconnects⟩ := hok
    exact .session hw.idle he hconnects
  | thrown hT _ => exact hT.elim
  | failed hw hh hb =>
    obtain rfl := hb
    exact .retried ((hh (List.pairwise_append.1 hretries).2.1).prepend hw.idle)
  | stopped hw hh =>
    exact .stopped ((hh (List.pairwise_append.1 hretries).2.1).prepend hw.idle)
  | escaped u hw hh =>
    rw [List.append_assoc] at hretries
    cases hh (List.pairwise_append.1 (List.pairwise_append.1 hretries).2.1).1

section Attempt

variable (hkeys : api.RejectsKeys)
  (hdump : api.DumpsResults)
include hkeys hdump

/-- An attempt with a client: `next` is what follows the connect. -/
theorem connected_done {doRequest : M ν Unit} (h : doRequest.Ensures (DoneIf env api opts))
    (hcalling : ErrorKeeps (calling ν) False False (errorHandler opts doRequest))
    {rpc : Rpc.Client ν} (hfail : rpc.responseFail = logResponse)
    (herror : rpc.error = errorHandler opts doRequest) {next : Bool → M ν Unit}
    {recover : Exn → M ν Unit} (htrue : next true = (callMethod env api opts rpc).tryCatch recover)
    (hfalse : next false = pure ()) :
    (rpc.session.connect env (errorHandler opts doRequest) >>= next).Ensures
      (DoneIf env api opts) := by
  have hc : rpc.Keeping (calling ν) True False :=
    calling_freeBut.keeping (fun _ _ => nofun) hfail herror
      (fun code text => (hcalling code text).weaken fun _ => False.elim) fun _ _ _ => trivial
  have hends : HandlersEnd (DoneIf env api opts) (fun _ _ _ => errorHandler opts doRequest .fail "")
      (errorHandler opts doRequest) :=
    ⟨fun _ _ _ => errorHandler_done h _ _, errorHandler_done h⟩
  have hconnect : (rpc.session.connect env (errorHandler opts doRequest)).Ensures fun o t =>
      RetriesConnect t → Connected env api opts o t :=
    (Session.connect_accounts hends (fun h => h) rpc.session Working.nil).mono
      fun o t ht => Accounted.connected ht
  refine hconnect.bind (fun b t ht => ?_) (fun e t ht hretries => ?_) fun s t ht hretries => ?_
  · cases b with
    | false =>
      rw [hfalse]
      refine Prog.Ensures.pure fun hretries => ?_
      rw [List.append_nil] at hretries ⊢
      cases ht hretries with
      | retried hdone => exact hdone
    | true =>
      -- after the connect no attempt may start, so an error in the call ends the process
      rw [htrue]
      refine Prog.Ensures.mono (callMethod_tryCatch_done hc (herror ▸ hcalling) hkeys hdump recover)
        fun o u hu hretries => ?_
      obtain ⟨hfirst, -, hafter⟩ := List.pairwise_append.1 hretries
      cases ht hfirst with
      | session hidle he hconnects =>
        exact (hu fun e' he' => hafter _ he e' he' hconnects).prepend hidle
  · cases ht hretries
  · cases ht hretries with
    | stopped hdone => exact hdone

theorem attempt_done (hurl : ∀ e, Url.parseResult opts.nodeAddress ≠ .error (.throw e))
    {doRequest : M ν Unit} (h : doRequest.Ensures (DoneIf env api opts))
    (hcalling : ErrorKeeps (calling ν) False False (errorHandler opts doRequest)) :
    (attempt env api opts (errorHandler opts doRequest)).Ensures (DoneIf env api opts) := by
  refine Prog.Ensures.emit_bind ?_
  have hstart : ∀ {o : Outcome Exn Stop Unit} {t : List Event}, DoneIf env api opts o t →
      DoneIf env api opts o (.doRequest :: t) :=
    fun h => h.prepend (t := [.doRequest]) ⟨rfl, by simp [Event.isRequest]⟩
  cases hparse : Url.parseResult opts.nodeAddress with
  | error e =>
    cases e with
    | throw e => exact absurd hparse (hurl e)
    | report code text =>
      simp only [Rpc.Client.connect, Url.parse, Url.finish, hparse, bind_assoc, pure_bind]
      refine (errorHandler_done h code text).bind (fun _ t ht => ?_) (fun _ _ ht => hstart ht)
        fun _ _ ht => hstart ht
      refine Prog.Ensures.pure (hstart ?_)
      rwa [List.append_nil]
  | ok url =>
    intro w
    refine hstart ?_
    obtain ⟨c, w', hfail, herror, -, hrun⟩ := Rpc.Client.connect_bind_apply hparse true logResponse
      (errorHandler opts doRequest) _ w
    rw [hrun]
    exact connected_done hkeys hdump h hcalling hfail herror rfl rfl w'

/-- By induction on the fuel. -/
theorem doRequest_done (hurl : ∀ e, Url.parseResult opts.nodeAddress ≠ .error (.throw e))
    (fuel : ℕ) : (doRequest env api opts fuel : M ν Unit).Ensures (DoneIf env api opts) := by
  induction fuel with
  | zero => exact fun _ _ => .failed (.of_idle .nil) nofun
  | succ fuel ih => exact attempt_done hkeys hdump hurl ih (errorHandler_calling fuel)

end Attempt

/-- An url that throws ends the attempt at once. -/
theorem doRequest_throw {e : Exn} (he : Url.parseResult opts.nodeAddress = .error (.throw e))
    (fuel : ℕ) (w : World ν) :
    doRequest env api opts (fuel + 1) w = ⟨.throw e, [.doRequest], w⟩ := by
  simp [doRequest, attempt, Rpc.Client.connect, Url.parse, Url.finish, he, Prog.bind_apply,
    Run.prepend]

/-! ### Whole runs -/

/-- **The status tells the outcome.**  The key library rejects keys with an error, what was parsed
can be dumped, and there is as much fuel as attempts.  In every run of the tool in which no attempt
starts after a session was connected, whatever else fails: the process makes at most one call; if
that has returned a result, the process prints it and exits with status 0, and otherwise it prints
nothing and ends with another status. -/
theorem status_tells (env : Env ν) {api : Api} (hkeys : api.RejectsKeys) (hdump : api.DumpsResults)
    (opts : Options) {fuel : ℕ} (hfuel : 1 ≤ fuel) (hattempts : opts.reconnections ≤ fuel) (net : ν)
    (hretries : RetriesConnect (main env api opts fuel (World.init net)).trace) :
    StatusTells env api opts (main env api opts fuel (World.init net)).outcome
      (main env api opts fuel (World.init net)).trace := by
  have hmain : main env api opts fuel (World.init net) =
      (doRequest env api opts fuel >>= fun _ => Prog.halt (.exit 0))
        { World.init net with timeout := opts.readTimeout } := rfl
  have henough : (main env api opts fuel (World.init net)).outcome ≠ .stop .outOfFuel :=
    main_enough hfuel hattempts _
  rw [hmain] at hretries henough ⊢
  generalize { World.init net with timeout := opts.readTimeout } = w at hretries henough ⊢
  by_cases hurl : ∀ e, Url.parseResult opts.nodeAddress ≠ .error (.throw e)
  · have hensures : (doRequest env api opts fuel).Ensures (DoneIf env api opts) :=
      doRequest_done hkeys hdump hurl fuel
    have hdone := hensures w
    rcases hr : doRequest env api opts fuel w with ⟨⟨⟩ | e | s, t, w'⟩
    · rw [hr] at hdone
      rw [Prog.bind_of_ret hr, Run.prepend_trace, Prog.halt_apply, List.append_nil] at hretries ⊢
      cases hdone hretries with
      | printed hprinted => exact .inl ⟨hprinted, rfl⟩
    · rw [hr] at hdone
      rw [Prog.bind_of_throw hr] at hretries
      cases hdone hretries
    · rw [hr] at hdone
      rw [Prog.bind_of_stop hr] at hretries henough ⊢
      cases hdone hretries with
      | failed hunprinted hs => exact .inr ⟨hunprinted, by simpa using hs, henough, nofun⟩
  · -- the url throws, which nothing catches
    push Not at hurl
    obtain ⟨e, he⟩ := hurl
    obtain ⟨n, rfl⟩ := Nat.exists_eq_succ_of_ne_zero (Nat.one_le_iff_ne_zero.1 hfuel)
    rw [Prog.bind_of_throw (doRequest_throw he n w)]
    have hidle : Idle [.doRequest] := ⟨rfl, by simp [Event.isRequest]⟩
    exact .inr ⟨.of_idle hidle, nofun, nofun, nofun⟩

/-- The first attempt fails, the second one pays. -/
theorem status_tells_late : StatusTells lateNode
    (.sample [blockIdReply, sentReply, transferParams]) walletOptions
    (main lateNode (.sample [blockIdReply, sentReply, transferParams]) walletOptions 3
      (World.init 0)).outcome
    (main lateNode (.sample [blockIdReply, sentReply, transferParams]) walletOptions 3
      (World.init 0)).trace :=
  status_tells lateNode (fun _ h => by cases h) (fun _ v _ => ⟨v.text, rfl⟩) walletOptions
    (by decide) (by decide) 0 (by unfold RetriesConnect; decide +kernel)

/-- The retry of a call that has failed prints the result, and the process exits with status -1. -/
theorem status_lies :
    couts (main garbledNode (.sample [blockIdReply, sentReply, transferParams]) walletOptions 3
        (World.init 0)).trace = ["Call send-transfer: ", "true"] ∧
      (main garbledNode (.sample [blockIdReply, sentReply, transferParams]) walletOptions 3
        (World.init 0)).outcome = .stop (.exit (-1)) ∧
      ¬ StatusTells garbledNode (.sample [blockIdReply, sentReply, transferParams]) walletOptions
        (main garbledNode (.sample [blockIdReply, sentReply, transferParams]) walletOptions 3
          (World.init 0)).outcome
        (main garbledNode (.sample [blockIdReply, sentReply, transferParams]) walletOptions 3
          (World.init 0)).trace := by
  have hcouts : couts (main garbledNode (.sample [blockIdReply, sentReply, transferParams])
      walletOptions 3 (World.init 0)).trace = ["Call send-transfer: ", "true"] := by decide +kernel
  have hexit : (main garbledNode (.sample [blockIdReply, sentReply, transferParams])
      walletOptions 3 (World.init 0)).outcome = .stop (.exit (-1)) := by decide +kernel
  refine ⟨hcouts, hexit, ?_⟩
  rintro (⟨-, ho⟩ | ⟨⟨-, hnone⟩, -⟩)
  · rw [hexit] at ho
    cases ho
  · rw [hcouts] at hnone
    cases hnone

end Cli.Wallet

end MileRpc
