import MileRpc.Cli.Bounded
import MileRpc.Rpc.Protocol

/-!
# What the tools put on the network

The attempts of a tool are nested, and what an outer attempt does after an inner one has returned is
up to where its connect, its request or its call has failed.  Two graded properties hold of every
run all the same, by induction on the depth of the nesting:

* the sessions of all attempts keep their protocol (`sessions_disciplined`);
* an attempt connects at most once and writes at most two requests, those of the attempts that are
  nested in it not counted, so that the whole run connects and writes only as often as
  `--reconnections` allows (`traffic_bounded`).
-/

namespace MileRpc

open Sessions

/-- A request is written, or what can be written of it. -/
def Event.isWrite : Event → Bool
  | .write _ _ _ => true
  | _ => false

/-- The number of requests that were written, also in part. -/
def writes (t : List Event) : ℕ := t.countP Event.isWrite

/-- The number of connects. -/
def connects (t : List Event) : ℕ := t.countP Event.isResolve

namespace Cli

variable {ν : Type} {G : ℕ → {α : Type} → M ν α → Prop} {env : Env ν} {api : Api} {S : Set Session}

theorem logCall_graded (hG : SessionGraded env G) (code : ResultCode) (error : String) :
    G 0 (logCall code error : M ν Unit) :=
  hG.free_bind (hG.gets _) fun _ => hG.free_bind (hG.emit rfl) fun _ => hG.emit rfl

theorem countError_graded (hG : SessionGraded env G) : G 0 (countError : M ν ℕ) :=
  hG.own fun _ => ⟨rfl, rfl⟩

/-! ### mile_cli_transfer -/

namespace Transfer

variable {opts : Options}

/-- What an attempt does with a connected client. -/
def connected (env : Env ν) (api : Api) (opts : Options) (ppk : Option Pair)
    (error : ErrorHandler ν) (rpc : Rpc.Client ν) : M ν Unit := do
  match ← rpc.getCurrentBlockId env api with
  | some blockId => transfer env api opts ppk error rpc blockId
  | none => pure ()

theorem attempt_eq (ppk : Option Pair) (error : ErrorHandler ν) :
    attempt env api opts ppk error = (do
      Prog.emit .doRequest
      match ← Rpc.Client.connect env opts.nodeAddress true logResponse error with
      | some rpc => connected env api opts ppk error rpc
      | none => pure ()) := rfl

theorem errorHandler_graded (hG : SessionGraded env G) {doRequest : M ν Unit} (h : G 0 doRequest)
    (code : ResultCode) (error : String) : G 0 (errorHandler opts doRequest code error) := by
  refine hG.free_bind (logCall_graded hG code error) fun _ => ?_
  refine hG.free_bind (countError_graded hG) fun _ => Graded.ite (fun _ => hG.halt _) fun _ => ?_
  exact Graded.ite (fun _ => h) fun _ => hG.pure ()

theorem connected_graded (hG : SessionGraded env G) {rpc : Rpc.Client ν} {error : ErrorHandler ν}
    (hc : rpc.Grades G env api) (he : ∀ code text, G 0 (error code text)) (ppk : Option Pair) :
    G 2 (connected env api opts ppk error rpc) := by
  refine hG.bind (m := 1) (n := 1) (Rpc.Client.getCurrentBlockId_graded hG hc) fun id => ?_
  cases id with
  | none => exact hG.zero_le (hG.pure _)
  | some id =>
    refine hG.free_bind (Rpc.rand_graded hG) fun trxId => hG.free_bind ?_ fun ppk => ?_
    · cases ppk with
      | some ppk => exact hG.pure ppk
      | none => exact hG.undefinedRead _ fun _ => .stalePair
    refine hG.free_bind (Rpc.Client.createRequest_graded hG he _) fun tx => ?_
    refine hG.free_bind (Rpc.Client.readBody_graded hG tx) fun body => ?_
    cases body with
    | none => exact hG.zero_le (hG.pure _)
    | some request =>
      refine Graded.ite (fun _ => hG.zero_le ?_) fun _ => ?_
      · exact hG.free_bind (hG.ofJson _) fun _ => hG.emit rfl
      · refine hG.free_bind (hG.ofJson _) fun _ => ?_
        refine hG.bind_free (Rpc.Client.sendTransaction_graded hG hc ppk request) fun r => ?_
        cases r with
        | none => exact hG.pure _
        | some t =>
          exact hG.free_bind (hG.emit rfl) fun _ => hG.free_bind (hG.ofJson _) fun _ =>
            hG.emit rfl

/-- The prompt and the key come before the first attempt. -/
theorem main_graded (hG : SessionGraded env G) {typed : List String} {fuel : ℕ}
    (h : ∀ ppk, G 0 (doRequest env api opts ppk fuel)) :
    G 0 (main env api opts typed fuel) := by
  unfold main
  split
  · refine hG.free_bind (Rpc.Client.answer_graded hG (fun _ _ => hG.raise _) _) fun ppk => h ppk
  · exact hG.free_bind (hG.emit rfl) fun _ => hG.halt _

end Transfer

/-! ### mile_cli_wallet -/

namespace Wallet

variable {opts : Options}

/-- What an attempt does with a connected client. -/
def connected (env : Env ν) (api : Api) (opts : Options) (rpc : Rpc.Client ν) : M ν Unit :=
  (callMethod env api opts rpc).tryCatch fun e => match e.what? with
    | some what => Prog.emit (.cerr ("Method error: " ++ what ++ "\n"))
    | none => Prog.raise e

theorem attempt_eq (error : ErrorHandler ν) :
    attempt env api opts error = (do
      Prog.emit .doRequest
      match ← Rpc.Client.connect env opts.nodeAddress true logResponse error with
      | some rpc => connected env api opts rpc
      | none => pure ()) := rfl

theorem errorHandler_graded (hG : SessionGraded env G) {doRequest : M ν Unit} (h : G 0 doRequest)
    (code : ResultCode) (error : String) : G 0 (errorHandler opts doRequest code error) := by
  refine hG.free_bind (logCall_graded hG code error) fun _ => ?_
  refine Graded.ite (fun _ => hG.halt _) fun _ => ?_
  exact hG.free_bind (countError_graded hG) fun _ => Graded.ite (fun _ => hG.halt _) fun _ => h

theorem printResult_graded (hG : SessionGraded env G) (result : Rpc.AnyValue) :
    G 0 (printResult env api result) := by
  cases result with
  | response r =>
    cases r with
    | some r => exact hG.free_bind (hG.ofJson _) fun _ => hG.emit rfl
    | none =>
      exact hG.free_bind (hG.undefinedRead _ fun _ => .staleJson) fun _ =>
        hG.free_bind (hG.ofJson _) fun _ => hG.emit rfl
  | time t => exact hG.emit rfl
  | uint256 v => exact hG.emit rfl
  | empty => exact hG.pure _
  | nullopt => exact hG.pure _

theorem connected_graded (hG : SessionGraded env G) {rpc : Rpc.Client ν}
    (hc : rpc.Grades G env api) : G 2 (connected env api opts rpc) := by
  refine hG.tryCatch (m := 2) (n := 0) ?_ fun e => ?_
  · refine hG.free_bind ?_ fun params => ?_
    · unfold parseParams
      split
      · exact hG.pure _
      · exact hG.free_bind (hG.emit rfl) fun _ => hG.pure _
    · refine hG.bind_free (Rpc.Client.call_graded hG hc) fun result => ?_
      refine Graded.ite (fun _ => ?_) fun _ => ?_
      · exact hG.free_bind (hG.emit rfl) fun _ => printResult_graded hG result
      · exact hG.free_bind (hG.emit rfl) fun _ => hG.halt _
  · cases e.what? with
    | some what => exact hG.emit rfl
    | none => exact hG.raise e

theorem main_graded (hG : SessionGraded env G) {fuel : ℕ} (h : G 0 (doRequest env api opts fuel)) :
    G 0 (main env api opts fuel) :=
  hG.free_bind (hG.own fun _ => ⟨rfl, rfl⟩) fun _ => hG.free_bind h fun _ => hG.halt _

end Wallet

/-! ### The protocol of the sessions -/

section Rules

variable {Q : Type*} {T : Q → List Event → Q → Prop} [Monitor T]
  {I : Set Session → World ν → Q → Prop} (hI : SessionRules env T I)
include hI

/-- An attempt, of which `next` is what it does with a connected client. -/
theorem attempt_guards {address : String} {error : ErrorHandler ν} {next : Rpc.Client ν → M ν Unit}
    (herror : ∀ S code text, (error code text).Guards T (I S))
    (hnext : ∀ (rpc : Rpc.Client ν) S, rpc.session ∈ S →
      HandlersGuard T (I S) rpc.responseFail rpc.error → (next rpc).Guards T (I S)) :
    (do
      Prog.emit .doRequest
      match ← Rpc.Client.connect env address true logResponse error with
      | some rpc => next rpc
      | none => pure () : M ν Unit).Guards T (I S) := by
  have hG := hI.graded S
  refine Prog.Guards.bind (hG.emit rfl) fun _ => ?_
  refine hI.connectBind (hI.rpcConnect (herror S) address true) (fun rpc hrpc => ?_) (hG.pure ())
  refine hnext rpc _ (Set.mem_insert _ _) ⟨?_, ?_⟩
  · rw [hrpc.1]
    exact (hI.log _).responseFail
  · rw [hrpc.2]
    exact herror _

theorem Transfer.doRequest_guards {opts : Transfer.Options} (ppk : Option Pair) (fuel : ℕ) :
    ∀ S, (Transfer.doRequest env api opts ppk fuel).Guards T (I S) := by
  induction fuel with
  | zero => exact fun S => (hI.graded S).halt _
  | succ fuel ih =>
    intro S
    rw [Transfer.doRequest, attempt_eq]
    have herror : ∀ S code text, (errorHandler opts (Transfer.doRequest env api opts ppk fuel)
        code text).Guards T (I S) := fun S => errorHandler_graded (hI.graded S) (ih S)
    refine attempt_guards hI herror fun rpc S hs hh => ?_
    exact connected_graded (hI.graded S) (hI.grades hs hh) (herror S) ppk

theorem Wallet.doRequest_guards {opts : Wallet.Options} (fuel : ℕ) :
    ∀ S, (Wallet.doRequest env api opts fuel).Guards T (I S) := by
  induction fuel with
  | zero => exact fun S => (hI.graded S).halt _
  | succ fuel ih =>
    intro S
    rw [Wallet.doRequest, attempt_eq]
    refine attempt_guards hI (fun S => errorHandler_graded (hI.graded S) (ih S))
      fun rpc S hs hh => ?_
    exact connected_graded (hI.graded S) (hI.grades hs hh)

/-- **The tools keep what the operations of a session keep**, nested attempts included. -/
theorem Transfer.main_guards {opts : Transfer.Options} (typed : List String) (fuel : ℕ) :
    (Transfer.main env api opts typed fuel).Guards T (I S) :=
  Transfer.main_graded (hI.graded S) fun ppk => Transfer.doRequest_guards hI ppk fuel S

theorem Wallet.main_guards {opts : Wallet.Options} (fuel : ℕ) :
    (Wallet.main env api opts fuel).Guards T (I S) :=
  Wallet.main_graded (hI.graded S) (Wallet.doRequest_guards hI fuel S)

end Rules

/-- **The sessions of a run keep their protocol**, those of nested attempts included: whatever the
outside does, a session is connected once, is written on only when its connection is established,
and its reads take turns with its requests. -/
theorem sessions_disciplined (env : Env ν) (api : Api) (net : ν) :
    (∀ (opts : Transfer.Options) (typed : List String) (fuel : ℕ),
      Disciplined (Transfer.main env api opts typed fuel (World.init net)).trace) ∧
    ∀ (opts : Wallet.Options) (fuel : ℕ),
      Disciplined (Wallet.main env api opts fuel (World.init net)).trace := by
  constructor
  · intro opts typed fuel
    exact (Obeys.of_guards (Transfer.main_guards (settled_rules env) typed fuel) _).disciplined
  · intro opts fuel
    exact (Obeys.of_guards (Wallet.main_guards (settled_rules env) fuel) _).disciplined

/-! ### The connects and the requests of a run -/

theorem perform_spends {α : Type} (cost : Event → Bool) (price : ℕ) (f : ν → α × ν)
    (e : α → Event) : Spends cost Event.isAttempt price 1 (perform f e) := by
  intro w
  have hone : [e (f w.net).1].countP cost ≤ 1 := List.countP_le_length
  exact Nat.le_trans hone (Nat.le_add_right 1 _)

theorem writes_graded (env : Env ν) : SessionGraded env fun n {α} (x : M ν α) =>
    Spends Event.isWrite Event.isAttempt 2 n x :=
  (graded_spends Event.isWrite Event.isAttempt 2).weaken
    (fun {e} he => by cases e <;> first | rfl | cases he) fun _ => trivial

theorem connects_graded (env : Env ν) : SessionGraded env fun _ {α} (x : M ν α) =>
    Spends Event.isResolve Event.isAttempt 1 0 x :=
  (graded_spends Event.isResolve Event.isAttempt 1).free.weaken
    (fun {e} he => by cases e <;> first | rfl | cases he) fun _ => trivial

section Costs

variable {error : ErrorHandler ν} {address : String} {next : Rpc.Client ν → M ν Unit}

/-- An attempt, of which `next` is what it does with a connected client, pays for two writes. -/
theorem attempt_writes (api : Api)
    (he : ∀ code text, Spends Event.isWrite Event.isAttempt 2 0 (error code text))
    (hnext : ∀ rpc : Rpc.Client ν,
      rpc.Grades (fun n {α} (x : M ν α) => Spends Event.isWrite Event.isAttempt 2 n x) env api →
        Spends Event.isWrite Event.isAttempt 2 2 (next rpc)) :
    Spends Event.isWrite Event.isAttempt 2 0 (do
      Prog.emit .doRequest
      match ← Rpc.Client.connect env address true logResponse error with
      | some rpc => next rpc
      | none => pure () : M ν Unit) := by
  have hG := graded_spends (σ := World ν) (ε := Exn) (ω := Stop) Event.isWrite Event.isAttempt 2
  have hquiet : ∀ e : Event, e.isConnect = true → e.isResolve = false → e.isWrite = false :=
    fun e he _ => by cases e <;> first | rfl | cases he
  refine Spends.paid rfl rfl (Rpc.Client.connect_graded (m := 0) (n := 2) hG he hquiet
    (fun s => perform_graded hG _ fun _ => rfl) (fun rpc hfail herror => ?_)
    (hG.zero_le (hG.pure ())) address true)
  subst herror
  refine hnext rpc ⟨RpcSession.request_graded (writes_graded env) (fun _ _ _ => ?_) he
    (fun _ => perform_spends _ _ _ _) (perform_graded hG _ fun _ => rfl), he⟩
  rw [hfail]
  exact hG.emit rfl

theorem attempt_connects (api : Api)
    (he : ∀ code text, Spends Event.isResolve Event.isAttempt 1 0 (error code text))
    (hnext : ∀ rpc : Rpc.Client ν,
      rpc.Grades (fun _ {α} (x : M ν α) => Spends Event.isResolve Event.isAttempt 1 0 x) env api →
        Spends Event.isResolve Event.isAttempt 1 0 (next rpc)) :
    Spends Event.isResolve Event.isAttempt 1 0 (do
      Prog.emit .doRequest
      match ← Rpc.Client.connect env address true logResponse error with
      | some rpc => next rpc
      | none => pure () : M ν Unit) := by
  have hG := graded_spends (σ := World ν) (ε := Exn) (ω := Stop) Event.isResolve Event.isAttempt 1
  refine Spends.paid rfl rfl (Rpc.Client.connect_graded (m := 1) (n := 0) hG he
    (fun _ _ he => he) (fun s => perform_spends _ _ _ _) (fun rpc hfail herror => ?_)
    (hG.pure ()) address true)
  subst herror
  refine hnext rpc ⟨RpcSession.request_graded (n := 0) (connects_graded env) (fun _ _ _ => ?_) he
    (fun _ => perform_graded hG _ fun _ => rfl) (perform_graded hG _ fun _ => rfl), he⟩
  rw [hfail]
  exact hG.emit rfl

end Costs

/-- Every attempt of a run pays for the connects and the writes. -/
def Paid (x : M ν Unit) : Prop :=
  Spends Event.isWrite Event.isAttempt 2 0 x ∧ Spends Event.isResolve Event.isAttempt 1 0 x

theorem Transfer.doRequest_paid {opts : Transfer.Options} (ppk : Option Pair) (fuel : ℕ) :
    Paid (Transfer.doRequest env api opts ppk fuel) := by
  induction fuel with
  | zero => exact ⟨(writes_graded env).halt _, (connects_graded env).halt _⟩
  | succ fuel ih =>
    rw [Transfer.doRequest, attempt_eq]
    have hwrites code error : Spends Event.isWrite Event.isAttempt 2 0
        (errorHandler opts (doRequest env api opts ppk fuel) code error) :=
      errorHandler_graded (writes_graded env) ih.1 code error
    have hconnects code error : Spends Event.isResolve Event.isAttempt 1 0
        (errorHandler opts (doRequest env api opts ppk fuel) code error) :=
      errorHandler_graded (connects_graded env) ih.2 code error
    refine ⟨attempt_writes api hwrites fun rpc hc => ?_,
      attempt_connects api hconnects fun rpc hc => ?_⟩
    · exact connected_graded (writes_graded env) hc hwrites ppk
    · exact connected_graded (connects_graded env) hc hconnects ppk

theorem Wallet.doRequest_paid {opts : Wallet.Options} (fuel : ℕ) :
    Paid (Wallet.doRequest env api opts fuel) := by
  induction fuel with
  | zero => exact ⟨(writes_graded env).halt _, (connects_graded env).halt _⟩
  | succ fuel ih =>
    rw [Wallet.doRequest, attempt_eq]
    refine ⟨attempt_writes api (errorHandler_graded (writes_graded env) ih.1) fun rpc hc => ?_,
      attempt_connects api (errorHandler_graded (connects_graded env) ih.2) fun rpc hc => ?_⟩
    · exact connected_graded (writes_graded env) hc
    · exact connected_graded (connects_graded env) hc

theorem Paid.le {x : M ν Unit} (hx : Paid x) {w : World ν} {n : ℕ}
    (hn : attempts (x w).trace ≤ n) :
    connects (x w).trace ≤ n ∧ writes (x w).trace ≤ 2 * n := by
  have hwrites := hx.1 w
  have hconnects := hx.2 w
  simp only [attempts] at hn
  simp only [connects, writes]
  omega

/-- **The traffic of a run is bounded**: whatever the outside does, and however the attempts are
nested, a tool connects at most as often as `--reconnections` promises, and writes at most twice as
many requests. -/
theorem traffic_bounded (env : Env ν) (api : Api) (net : ν) :
    (∀ (opts : Transfer.Options) (typed : List String) (fuel : ℕ),
      connects (Transfer.main env api opts typed fuel (World.init net)).trace ≤
          promised opts.reconnections ∧
        writes (Transfer.main env api opts typed fuel (World.init net)).trace ≤
          2 * promised opts.reconnections) ∧
    ∀ (opts : Wallet.Options) (fuel : ℕ),
      connects (Wallet.main env api opts fuel (World.init net)).trace ≤
          promised opts.reconnections ∧
        writes (Wallet.main env api opts fuel (World.init net)).trace ≤
          2 * promised opts.reconnections := by
  constructor
  · intro opts typed fuel
    have hpaid : Paid (Transfer.main env api opts typed fuel) :=
      ⟨Transfer.main_graded (writes_graded env) fun ppk => (Transfer.doRequest_paid ppk fuel).1,
        Transfer.main_graded (connects_graded env) fun ppk => (Transfer.doRequest_paid ppk fuel).2⟩
    exact hpaid.le (Transfer.main_bounded env api opts typed fuel net)
  · intro opts fuel
    have hpaid : Paid (Wallet.main env api opts fuel) :=
      ⟨Wallet.main_graded (writes_graded env) (Wallet.doRequest_paid fuel).1,
        Wallet.main_graded (connects_graded env) (Wallet.doRequest_paid fuel).2⟩
    exact hpaid.le (Wallet.main_bounded env api opts fuel net)

end Cli

end MileRpc
