import MileRpc.Cli.Tools
import MileRpc.Rpc.Law

/-!
# The retries of the command line tools

Both error handlers call `do_request` from inside the failed call, so that the attempts of a run are
nested.  What a handler does is one step (`errorHandler_apply`): it reports, counts, and then ends
the process, starts an attempt or returns.

A law about the reports and the retry counter lets the client do as it likes (`Law.FreeBut`), so
that the tools keep it if their error handlers do.  The first such law is that the recursion is as
deep as the retry counter allows: with as much fuel as attempts, it does not run out
(`doRequest_enough`).
-/

namespace MileRpc

/-- The events that only handlers and tools leave. -/
def Event.isTool : Event → Bool
  | .report _ _ | .responseFail _ _ | .doRequest | .cout _ | .cerr _ => true
  | _ => false

/-- The call of an error handler. -/
def Event.isReport : Event → Bool
  | .report _ _ => true
  | _ => false

/-- A tool has started an attempt. -/
def Event.isAttempt : Event → Bool
  | .doRequest => true
  | _ => false

/-- What was printed. -/
def couts (t : List Event) : List String :=
  t.filterMap fun e => match e with
    | .cout text => some text
    | _ => none

theorem mem_couts {t : List Event} {text : String} : text ∈ couts t ↔ .cout text ∈ t :=
  mem_filterMap_iff fun e _ => by cases e <;> simp

/-- A law about the events with `p`, the retry counter and the status. -/
structure Law.FreeBut {ν : Type} (L : Law (World ν) Event Stop) (p : Event → Prop) : Prop where
  /-- The client itself leaves no event with `p`. -/
  tool : ∀ {e : Event}, p e → e.isTool = true
  free : ∀ {w w' : World ν} {t : List Event}, w'.reconnections = w.reconnections →
    (∀ e ∈ t, ¬ p e) → L.Moves w t w'
  crash : ∀ w, L.Stops w [] .crash
  exit : ∀ w, L.Stops w [] (.exit (-1))

namespace Law.FreeBut

variable {ν : Type} {L : Law (World ν) Event Stop} {p : Event → Prop} {T : Prop} {env : Env ν}
  {api : Api} (hL : L.FreeBut p)
include hL

theorem single {e : Event} (he : ¬ p e) {w w' : World ν} (hw : w'.reconnections = w.reconnections) :
    L.Moves w [e] w' :=
  hL.free hw (List.forall_mem_singleton.2 he)

theorem client {e : Event} (he : e.isTool = false) {w w' : World ν}
    (hw : w'.reconnections = w.reconnections) : L.Moves w [e] w' :=
  hL.single (fun h => by simp [hL.tool h] at he) hw

theorem lenient : L.Lenient where
  quiet _ _ h := hL.free h (by simp)
  plain {e} he _ _ := hL.client (by cases e <;> first | rfl | cases he) rfl
  crash := hL.crash
  reply _ _ := hL.client rfl rfl

theorem callLaw (params : Json) : Rpc.Client.CallLaw L env api params where
  lenient := hL.lenient
  command _ _ := hL.client rfl rfl
  trxId _ := hL.free rfl (by simp)
  send _ _ := hL.client rfl rfl
  create _ _ _ := hL.client rfl rfl
  body _ _ := hL.client rfl rfl

theorem emit {e : Event} (he : ¬ p e) :
    L.Keeps (fun _ => L.Fair [e]) T (Prog.emit e : M ν Unit) :=
  Law.Keeps.emit fun _ _ => hL.single he rfl

theorem halt {α : Type} {A : α → Prop} : L.Keeps A T (Prog.halt (.exit (-1)) : M ν α) :=
  Law.Keeps.halt hL.exit

theorem logResponse (hp : ∀ status method, ¬ p (.responseFail status method)) (status : ℕ)
    (method : String) (res : HttpResponse) :
    L.Keeps (fun _ => L.Fair [.responseFail status method]) T
      (MileRpc.logResponse status method res : M ν Unit) :=
  hL.emit (hp _ _)

theorem keeping {R : Prop} (hp : ∀ status method, ¬ p (.responseFail status method))
    {rpc : Rpc.Client ν} {error : ErrorHandler ν} (hfail : rpc.responseFail = MileRpc.logResponse)
    (herror : rpc.error = error) (he : ErrorKeeps L R T error)
    (hresponse : ∀ status method, L.Fair [.responseFail status method] → R) :
    rpc.Keeping L R T := by
  refine ⟨fun status method res => ?_, herror ▸ he⟩
  rw [hfail]
  exact (hL.logResponse hp _ _ _).weaken fun _ hf => hresponse _ _ hf

end Law.FreeBut

/-- The world after an error has been counted. -/
def World.counted {ν : Type} (w : World ν) : World ν :=
  { w with reconnections := w.reconnections + 1 }

namespace Cli

variable {ν : Type} {L : Law (World ν) Event Stop} {p : Event → Prop} {R E T : Prop}
  {env : Env ν} {api : Api}

/-- What both handlers leave first. -/
def logged (code : ResultCode) (error : String) (w : World ν) : List Event :=
  [.report code error, .cerr ("Call [" ++ toString w.reconnections ++ "] error: " ++ error)]

/-! ### mile_cli_transfer -/

namespace Transfer

variable {opts : Options}

/-- The error handler in one step. -/
theorem errorHandler_apply (doRequest : M ν Unit) (code : ResultCode) (error : String)
    (w : World ν) :
    errorHandler opts doRequest code error w = Run.prepend (logged code error w)
      (if opts.reconnections ≤ ((w.reconnections + 1 : ℕ) : ℤ) ∨ opts.test = true then
          ⟨.stop (.exit (-1)), [], w.counted⟩
        else if code = .fail then doRequest w.counted else ⟨.ret (), [], w.counted⟩) := by
  have hcount : errorHandler opts doRequest code error w = Run.prepend (logged code error w)
      ((if opts.reconnections ≤ ((w.reconnections + 1 : ℕ) : ℤ) ∨ opts.test = true then
          Prog.halt (.exit (-1))
        else if code = .fail then doRequest else pure ()) w.counted) := rfl
  rw [hcount]
  split_ifs <;> rfl

/-- The node has answered a transaction with a result, and that is printed under its headline. -/
def Sent (L : Law (World ν) Event Stop) (api : Api) : Prop :=
  ∃ body res v text, methodOf body = some "send-transaction" ∧ L.Fair [.reply body res] ∧
    api.replyResult res = some v ∧ api.dump v = .ok text ∧
    L.Fair [.cout "Send transfer: ", .cout text]

/-- An attempt can end for these reasons. -/
def Ended (L : Law (World ν) Event Stop) (api : Api) (opts : Options) (R : Prop) : Prop :=
  R ∨ Rpc.Client.EmptyResult L api ∨ L.Fair [.body none] ∨ Sent L api ∨ opts.test = true

section Attempts

variable (hL : L.FreeBut p) (hp : ∀ e : Event, e.isReport = false → e.isAttempt = false → ¬ p e)
include hL hp

/-- Both lines are left, or the result has no text. -/
theorem printSent_keeps (v : Json) :
    L.Keeps (fun _ => ∃ text, api.dump v = .ok text ∧
      L.Fair [.cout "Send transfer: ", .cout text]) True (do
        Prog.emit (.cout "Send transfer: ")
        let text ← ofJson (api.dump v)
        Prog.emit (.cout text) : M ν Unit) := by
  have hfree : ∀ (w : World ν) (texts : List String), L.Moves w (texts.map .cout) w :=
    fun w texts => hL.free rfl fun e he => by
      obtain ⟨text, -, rfl⟩ := List.mem_map.1 he
      exact hp _ rfl rfl
  intro w hw
  cases hv : api.dump v with
  | ok text =>
    simp only [hv] at hw ⊢
    exact ⟨hfree w ["Send transfer: ", text], text, rfl, hw⟩
  | error e => exact ⟨hfree w ["Send transfer: "], trivial⟩

theorem sendRequest_keeps {rpc : Rpc.Client ν} (hc : rpc.Keeping L R T) (ppk : Pair)
    (request : Json) :
    L.Keeps (fun _ => Ended L api opts R) True (sendRequest env api opts rpc ppk request) := by
  refine .ite (fun htest => ?_) fun _ => ?_
  · refine (Law.Keeps.ofJson _).andThen fun text _ => ?_
    exact (hL.emit (hp _ rfl rfl)).weaken fun _ _ => .inr (.inr (.inr (.inr htest)))
  · refine (Law.Keeps.ofJson _).andThen fun _ _ => ?_
    refine (Rpc.Client.sendTransaction_keeps hL.lenient hc fun w => hL.client rfl rfl).bind
      (fun r hr => ?_) fun _ => trivial
    cases r with
    | none => exact .pure (.inl hr)
    | some v =>
      obtain ⟨body, res, hm, hf, hv⟩ := hr
      refine (printSent_keeps hL hp v).weaken fun _ ⟨text, htext, hcout⟩ => ?_
      exact .inr (.inr (.inr (.inl ⟨body, res, v, text, hm, hf, hv, htext, hcout⟩)))

theorem transfer_keeps {rpc : Rpc.Client ν} {error : ErrorHandler ν} (hc : rpc.Keeping L R T)
    (he : ErrorKeeps L R T error) (ppk : Option Pair) (id : UInt256) :
    L.Keeps (fun _ => Ended L api opts R) True (transfer env api opts ppk error rpc id) := by
  refine (Rpc.Client.rand_keeps hL.lenient.toTolerant).andThen fun trxId _ => ?_
  refine Law.Keeps.andThen (A := fun _ => True) ?_ fun ppk _ => ?_
  · cases ppk with
    | some ppk => exact .pure trivial
    | none => exact (Law.Keeps.undefinedRead hL.lenient.toTolerant _ _).weaken fun _ _ => trivial
  refine (Rpc.Client.createRequest_keeps (fun _ _ => hL.client rfl rfl) he).andThen fun tx _ => ?_
  refine (Rpc.Client.readBody_keeps hL.lenient.toTolerant (fun _ _ => hL.client rfl rfl) tx).andThen
    fun body hbody => ?_
  cases body with
  | none => exact .pure (.inr (.inr (.inl hbody)))
  | some request => exact sendRequest_keeps hL hp hc ppk request

/-- **What follows the start of an attempt keeps the law**, and ends without a retry for one of five
reasons. -/
theorem attempt_started (env : Env ν) (api : Api) (opts : Options) {error : ErrorHandler ν}
    (he : ErrorKeeps L R T error)
    (hresponse : ∀ status method, L.Fair [.responseFail status method] → R) (ppk : Option Pair) :
    ∃ x : M ν Unit, attempt env api opts ppk error = (Prog.emit .doRequest >>= fun _ => x) ∧
      L.Keeps (fun _ => Ended L api opts R) True x := by
  refine ⟨_, rfl, ?_⟩
  refine (Rpc.Client.connect_keeps hL.lenient.toTolerant he _ _).andThen fun rpc hrpc => ?_
  cases rpc with
  | none => exact .pure (.inl (hrpc.1 rfl))
  | some rpc =>
    obtain ⟨hfail, herror⟩ := hrpc.2 rpc rfl
    have hc : rpc.Keeping L R T :=
      hL.keeping (fun _ _ => hp _ rfl rfl) hfail herror he hresponse
    refine (Rpc.Client.getCurrentBlockId_keeps hL.lenient hc fun w => hL.client rfl rfl).andThen
      fun id hid => ?_
    cases id with
    | none => exact .pure ((hid rfl).imp_right .inl)
    | some id => exact transfer_keeps hL hp hc he ppk id

theorem attempt_keeps (hstart : ¬ p .doRequest) {error : ErrorHandler ν}
    (he : ErrorKeeps L R T error)
    (hresponse : ∀ status method, L.Fair [.responseFail status method] → R) (ppk : Option Pair) :
    L.Keeps (fun _ => Ended L api opts R) True (attempt env api opts ppk error) := by
  obtain ⟨x, hx, hkeeps⟩ := attempt_started hL hp env api opts he hresponse ppk
  rw [hx]
  exact (hL.emit hstart).andThen fun _ _ => hkeeps

end Attempts

end Transfer

/-! ### mile_cli_wallet -/

namespace Wallet

variable {opts : Options}

/-- The error handler in one step. -/
theorem errorHandler_apply (doRequest : M ν Unit) (code : ResultCode) (error : String)
    (w : World ν) :
    errorHandler opts doRequest code error w = Run.prepend (logged code error w)
      (if code ≠ .fail then ⟨.stop (.exit (-1)), [], w⟩
        else if opts.reconnections ≤ ((w.reconnections + 1 : ℕ) : ℤ) then
          ⟨.stop (.exit (-1)), [], w.counted⟩
        else doRequest w.counted) := by
  have hcount : errorHandler opts doRequest code error w = Run.prepend (logged code error w)
      ((if code ≠ .fail then Prog.halt (.exit (-1))
        else do
          let reconnections ← countError
          if opts.reconnections ≤ reconnections then Prog.halt (.exit (-1)) else doRequest) w) :=
    rfl
  rw [hcount]
  split_ifs with hcode hlast
  · rfl
  · change Run.prepend _ ((if opts.reconnections ≤ ((w.reconnections + 1 : ℕ) : ℤ) then
      Prog.halt (.exit (-1)) else doRequest) w.counted) = _
    rw [if_pos hlast]
    rfl
  · change Run.prepend _ ((if opts.reconnections ≤ ((w.reconnections + 1 : ℕ) : ℤ) then
      Prog.halt (.exit (-1)) else doRequest) w.counted) = _
    rw [if_neg hlast]

section Attempts

variable (hL : L.FreeBut p) (hp : ∀ e : Event, e.isReport = false → e.isAttempt = false → ¬ p e)
include hL hp

omit hp in
theorem printResult_keeps (hcouts : ∀ text, ¬ p (.cout text)) (result : Rpc.AnyValue) :
    L.Keeps (fun _ => True) True (printResult env api result) := by
  have hcout : ∀ text, L.Keeps (fun _ => True) True (Prog.emit (.cout text) : M ν Unit) :=
    fun text => (hL.emit (hcouts text)).weaken fun _ _ => trivial
  cases result with
  | response r =>
    cases r with
    | some r => exact (Law.Keeps.ofJson _).andThen fun text _ => hcout text
    | none =>
      refine (Law.Keeps.undefinedRead hL.lenient.toTolerant _ _).andThen fun r _ => ?_
      exact (Law.Keeps.ofJson _).andThen fun text _ => hcout text
  | time t => exact hcout _
  | uint256 v => exact hcout _
  | empty => exact .pure trivial
  | nullopt => exact .pure trivial

omit hp in
theorem parseParams_keeps (hcerr : ∀ text, ¬ p (.cerr text)) :
    L.Keeps (fun _ => True) T (parseParams api opts : M ν Json) := by
  unfold parseParams
  split
  · exact .pure trivial
  · exact (hL.emit (hcerr _)).andThen fun _ _ => .pure trivial

omit hL hp in
/-- **What follows the start of an attempt keeps the law**, if the call does. -/
theorem attempt_of_callMethod (hL : L.FreeBut p)
    (hresponse : ∀ status method, ¬ p (.responseFail status method))
    (herror : ∀ what, ¬ p (.cerr ("Method error: " ++ what ++ "\n"))) (env : Env ν) (api : Api)
    (opts : Options) {error : ErrorHandler ν} (he : ErrorKeeps L True True error)
    (hcall : ∀ rpc : Rpc.Client ν, rpc.Keeping L True True →
      L.Keeps (fun _ => True) True (callMethod env api opts rpc)) :
    ∃ x : M ν Unit, attempt env api opts error = (Prog.emit .doRequest >>= fun _ => x) ∧
      L.Keeps (fun _ => True) True x := by
  refine ⟨_, rfl, ?_⟩
  refine (Rpc.Client.connect_keeps hL.lenient.toTolerant he _ _).andThen fun rpc hrpc => ?_
  cases rpc with
  | none => exact .pure trivial
  | some rpc =>
    obtain ⟨hfail, hhandler⟩ := hrpc.2 rpc rfl
    have hc : rpc.Keeping L True True :=
      hL.keeping hresponse hfail hhandler he fun _ _ _ => trivial
    refine Law.Keeps.tryCatch (T := True) (hcall rpc hc) fun _ e => ?_
    cases e.what? with
    | some what => exact (hL.emit (herror what)).weaken fun _ _ => trivial
    | none => exact .raise e

theorem callMethod_keeps {rpc : Rpc.Client ν} (hc : rpc.Keeping L True True) :
    L.Keeps (fun _ => True) True (callMethod env api opts rpc) := by
  refine (parseParams_keeps hL fun _ => hp _ rfl rfl).andThen fun params _ => ?_
  refine (Rpc.Client.call_keeps (hL.callLaw params) hc hc.error).andThen fun result _ => ?_
  refine .ite (fun _ => ?_) fun _ => ?_
  · exact (hL.emit (hp _ rfl rfl)).andThen fun _ _ =>
      printResult_keeps hL (fun _ => hp _ rfl rfl) result
  · exact (hL.emit (hp _ rfl rfl)).andThen fun _ _ => hL.halt

theorem attempt_started (env : Env ν) (api : Api) (opts : Options) {error : ErrorHandler ν}
    (he : ErrorKeeps L True True error) :
    ∃ x : M ν Unit, attempt env api opts error = (Prog.emit .doRequest >>= fun _ => x) ∧
      L.Keeps (fun _ => True) True x :=
  attempt_of_callMethod hL (fun _ _ => hp _ rfl rfl) (fun _ => hp _ rfl rfl) env api opts he
    fun _ hc => callMethod_keeps hL hp hc

theorem attempt_keeps (hstart : ¬ p .doRequest) {error : ErrorHandler ν}
    (he : ErrorKeeps L True True error) :
    L.Keeps (fun _ => True) True (attempt env api opts error) := by
  obtain ⟨x, hx, hkeeps⟩ := attempt_started hL hp env api opts he
  rw [hx]
  exact (hL.emit hstart).andThen fun _ _ => hkeeps

end Attempts

end Wallet

/-! ### Enough fuel -/

/-- The law that the recursion of depth `n` does not run out of fuel before `attempts` errors have
been counted. -/
def enough (ν : Type) (attempts : ℤ) (n : ℕ) : Law (World ν) Event Stop where
  Moves w _ w' := w.reconnections ≤ w'.reconnections
  Stops w _ s := 1 ≤ n → attempts ≤ w.reconnections + n → s ≠ .outOfFuel
  Fair _ := True
  moves_nil _ := le_rfl
  moves_append := le_trans
  stops_append hmoves hstops hn hle := hstops hn (by omega)
  fair_append _ := ⟨trivial, trivial⟩

theorem enough_freeBut (attempts : ℤ) (n : ℕ) :
    (enough ν attempts n).FreeBut (·.isReport = true) where
  tool {e} he := by cases e <;> first | rfl | cases he
  free hw _ := hw.ge
  crash _ _ _ := nofun
  exit _ _ _ := nofun

theorem enough_retry {attempts : ℤ} {n : ℕ} {doRequest : M ν Unit} {w : World ν} {t : List Event}
    (h : (enough ν attempts n).Keeps (fun _ => True) True doRequest)
    (hlast : ¬ attempts ≤ ((w.reconnections + 1 : ℕ) : ℤ)) :
    (enough ν attempts (n + 1)).Meets (fun _ => True) True w
      ((doRequest w.counted).prepend t) := by
  have hrun := h w.counted trivial
  unfold Law.Meets at hrun ⊢
  have hcounted : w.counted.reconnections = w.reconnections + 1 := rfl
  rcases hr : doRequest w.counted with ⟨a | e | s, u, w'⟩
  · rw [hr] at hrun
    exact ⟨(Nat.le_succ _).trans hrun.1, trivial⟩
  · rw [hr] at hrun
    exact ⟨(Nat.le_succ _).trans hrun.1, trivial⟩
  · rw [hr] at hrun
    -- the counter has grown as the fuel has shrunk
    exact fun _ hle => hrun (by omega) (by omega)

theorem enough_last {attempts : ℤ} {n : ℕ} {w w' : World ν} {t : List Event} :
    (enough ν attempts n).Meets (fun _ => True) True w
      (Run.prepend t ⟨.stop (.exit (-1)), [], w'⟩ : Run (World ν) Event Exn Stop Unit) :=
  fun _ _ => nofun

namespace Transfer

variable {opts : Options}

theorem errorHandler_enough {n : ℕ} {doRequest : M ν Unit}
    (h : (enough ν opts.reconnections n).Keeps (fun _ => True) True doRequest) :
    ErrorKeeps (enough ν opts.reconnections (n + 1)) True True (errorHandler opts doRequest) := by
  intro code text w _
  rw [errorHandler_apply]
  split_ifs with hlast hcode
  · exact enough_last
  · exact enough_retry h fun hle => hlast (.inl hle)
  · exact ⟨Nat.le_succ _, trivial⟩

theorem doRequest_enough (ppk : Option Pair) (fuel : ℕ) :
    (enough ν opts.reconnections fuel).Keeps (fun _ => True) True
      (doRequest env api opts ppk fuel) := by
  induction fuel with
  | zero => exact .halt fun _ h => absurd h (by decide)
  | succ fuel ih =>
    exact (attempt_keeps (enough_freeBut _ _) (fun e he _ h => by simp [he] at h) nofun
      (errorHandler_enough ih) (fun _ _ _ => trivial) ppk).weaken fun _ _ => trivial

end Transfer

namespace Wallet

variable {opts : Options}

theorem errorHandler_enough {n : ℕ} {doRequest : M ν Unit}
    (h : (enough ν opts.reconnections n).Keeps (fun _ => True) True doRequest) :
    ErrorKeeps (enough ν opts.reconnections (n + 1)) True True (errorHandler opts doRequest) := by
  intro code text w _
  rw [errorHandler_apply]
  split_ifs with hcode hlast
  · exact enough_last
  · exact enough_last
  · exact enough_retry h hlast

theorem doRequest_enough (fuel : ℕ) :
    (enough ν opts.reconnections fuel).Keeps (fun _ => True) True
      (doRequest env api opts fuel) := by
  induction fuel with
  | zero => exact .halt fun _ h => absurd h (by decide)
  | succ fuel ih =>
    exact attempt_keeps (enough_freeBut _ _) (fun e he _ h => by simp [he] at h) nofun
      (errorHandler_enough ih)

theorem main_enough {fuel : ℕ} (hfuel : 1 ≤ fuel) (hattempts : opts.reconnections ≤ fuel)
    (w : World ν) : (main env api opts fuel w).outcome ≠ .stop .outOfFuel := by
  have hkeeps : (enough ν opts.reconnections fuel).Keeps (fun _ => True) True
      (main env api opts fuel) := by
    refine (Law.Keeps.modifyGet fun _ => le_rfl).andThen fun _ _ => ?_
    exact (doRequest_enough fuel).andThen fun _ _ => .halt fun _ _ _ => nofun
  exact fun ho => hkeeps.of_stop trivial ho hfuel (by omega) rfl

end Wallet

end Cli

end MileRpc
