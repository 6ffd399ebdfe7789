import MileRpc.Cli.Password
import MileRpc.Cli.Traffic
import MileRpc.Rpc.Purposes

/-!
# What the tools sign, send and print

Whatever the network, the node and the transaction factory answer, and however the attempts are
nested, what a run of a tool signs, sends and prints goes back to its options and to what the node
has told it before (`Transfer.transfer_grounded`, `Wallet.wallet_grounded`).  So a payment on the
wire is the one that the options of `mile_cli_transfer` ask for (`Transfer.payments_asked`).

What the code reads where nothing was written is told by nobody: the block id, where the node has
told a text that is no id; the key pair, where the key has none; and the transaction, where the
factory has made none.  The statements name these cases.
-/

namespace MileRpc

namespace Cli

variable {ν : Type} {env : Env ν} {api : Api} {P : Purpose} {K : Fact Event}

/-- An attempt, of which `next` is what it does with a connected client. -/
theorem attempt_justified {address : String} {error : ErrorHandler ν}
    {next : Rpc.Client ν → M ν Unit} (herror : ∀ code text, (error code text).Justified api P)
    (hnext : ∀ rpc : Rpc.Client ν, HandlersJustified api P rpc.responseFail rpc.error →
      rpc.error = error → (next rpc).Justified api P) :
    (do
      Prog.emit .doRequest
      match ← Rpc.Client.connect env address true logResponse error with
      | some rpc => next rpc
      | none => pure () : M ν Unit).Justified api P := by
  refine Prog.Learns.bind (.emit fun _ _ => .free rfl) fun _ => ?_
  refine (Rpc.Client.connect_learns herror address true).bind fun r => .assume fun hr => ?_
  cases r with
  | none => exact .pure fun _ _ => trivial
  | some rpc =>
    obtain ⟨hfail, hrpc⟩ := hr rpc rfl
    have hh : HandlersJustified api P rpc.responseFail rpc.error :=
      ⟨hfail ▸ HandlersJustified.log.responseFail, hrpc ▸ herror⟩
    exact (hnext rpc hh hrpc).learns

theorem logCall_justified (code : ResultCode) (error : String) :
    (logCall code error : M ν Unit).Justified api P :=
  Prog.Learns.bind (.gets _) fun _ => Prog.Learns.bind (.emit fun _ _ => .free rfl) fun _ =>
    (Prog.Learns.emit fun _ _ => .free rfl).weaken fun _ _ _ => trivial

/-! ### mile_cli_transfer -/

namespace Transfer

/-- The key pair of the options. -/
def Options.pair (opts : Options) (api : Api) (typed : List String) : Option Pair := do
  let key ← chooseKey api opts typed
  match (api.fromPrivateKey key).outcome with
  | .ok ppk => ppk
  | .error _ => none

/-- The transfer that the options ask for. -/
def Options.call (opts : Options) (api : Api) (ppk : Pair) (blockId : UInt256) (trxId : UInt32) :
    CreateCall :=
  .transfer ppk opts.destination blockId trxId.toUInt64 (api.tokenFromCode opts.assetCode)
    opts.amount .zero opts.memo

/-- The key pair of the options, or what is read where there is none. -/
def Signer (api : Api) (opts : Options) (typed : List String) (ppk : Pair) : Fact Event :=
  (Fact.always (opts.pair api typed = some ppk)).or
    ((Fact.always (opts.pair api typed = none)).and (.seen (.undefined .emptyPair)))

/-- What may be printed: what the prompt writes if no key is given; in a test the body of the
transaction, and otherwise the result that the node has told, under its headline. -/
def Prints (api : Api) (opts : Options) (typed : List String) (text : String) : Fact Event :=
  (Fact.always (opts.privateKey = "" ∧ IsPrompt text ∨
      chooseKey api opts typed = none ∧ text = "\nPrivate key is not valid\n")).or
    ((Fact.any fun x => (Fact.seen (.body (some x))).and
        (.always (opts.test = true ∧ api.dump x = .ok text))).or
      (.any fun v => (Told api "send-transaction" v).and
        (.always (opts.test = false ∧ (text = "Send transfer: " ∨ api.dump v = .ok text)))))

/-- The purpose of a run: the transfer of the options, which is not sent in a test. -/
def Options.purpose (opts : Options) (api : Api) (typed : List String) : Purpose where
  asked m p := m = "get-current-block-id" ∧ p = .null
  made call := .any fun ppk => .any fun blockId => .any fun trxId =>
    (Signer api opts typed ppk).and ((ReturnedBlockId api blockId).and
      (.always (call = opts.call api ppk blockId trxId)))
  sent x := (Fact.seen (.body (some x))).and (.always (opts.test = false))
  printed := Prints api opts typed
  undefined
    | .emptyPair => .always (opts.pair api typed = none)
    | _ => .always False

variable {opts : Options} {typed : List String}

theorem errorHandler_justified {doRequest : M ν Unit} (h : doRequest.Justified api P)
    (code : ResultCode) (error : String) :
    (errorHandler opts doRequest code error).Justified api P := by
  refine (logCall_justified code error).bind fun _ => Prog.Learns.bind .modifyGet fun _ => ?_
  exact .ite (fun _ => .halt _) fun _ => .ite (fun _ => h.learns) fun _ => .pure fun _ _ => trivial

theorem sendRequest_learns {rpc : Rpc.Client ν} {ppk : Pair} {request : Json}
    (hh : HandlersJustified api (opts.purpose api typed) rpc.responseFail rpc.error)
    (hbody : ∀ h, K h → .body (some request) ∈ h) :
    (sendRequest env api opts rpc ppk request).Learns (Sourced api (opts.purpose api typed)) K
      fun _ => .always True := by
  refine .ite (fun htest => ?_) fun htest => ?_
  · refine (learns_ofJson _).bind fun text => .assume fun htext => ?_
    exact (Prog.Learns.emit fun h hK =>
      .print (.inr (.inl ⟨request, hbody h hK, htest, htext⟩))).weaken fun _ _ _ => trivial
  · have htest : opts.test = false := by simpa using htest
    refine (learns_ofJson _).bind fun _ => ?_
    refine Prog.Learns.bind
      (Rpc.Client.sendTransaction_learns hh fun h hK => ⟨hbody h hK.1, htest⟩) fun r => ?_
    cases r with
    | none => exact .pure fun _ _ => trivial
    | some v =>
      refine Prog.Learns.bind
        (.emit fun h hK => .print (.inr (.inr ⟨v, hK.2, htest, .inl rfl⟩))) fun _ => ?_
      refine (learns_ofJson _).bind fun text => .assume fun htext => ?_
      exact (Prog.Learns.emit fun h hK =>
        .print (.inr (.inr ⟨v, hK.1.2, htest, .inr htext⟩))).weaken fun _ _ _ => trivial

theorem readPair_learns :
    (readPair env (opts.pair api typed)).Learns (Sourced api (opts.purpose api typed)) K
      (Signer api opts typed) := by
  cases hpair : opts.pair api typed with
  | some ppk => exact .pure fun _ _ => .inl hpair
  | none =>
    exact (learns_undefinedRead _ fun h _ => .undefined hpair).weaken
      fun _ h hu => .inr ⟨hpair, hu⟩

theorem transfer_learns {rpc : Rpc.Client ν} {blockId : UInt256}
    (hh : HandlersJustified api (opts.purpose api typed) rpc.responseFail rpc.error)
    (hid : ∀ h, K h → ReturnedBlockId api blockId h) :
    (transfer env api opts (opts.pair api typed) rpc.error rpc blockId).Learns
      (Sourced api (opts.purpose api typed)) K fun _ => .always True := by
  refine Prog.Learns.bind .modifyGet fun trxId => readPair_learns.bind fun ppk => ?_
  refine Prog.Learns.bind (Rpc.Client.createRequest_learns
    (fun h hK => ⟨ppk, blockId, trxId, hK.2, hid h hK.1.1, rfl⟩) hh.error) fun tx => ?_
  refine Prog.Learns.bind (Rpc.Client.readBody_learns fun h hK => hK.2) fun b => ?_
  cases b with
  | none => exact .pure fun _ _ => trivial
  | some request => exact sendRequest_learns hh fun h hK => hK.2

theorem connected_justified {rpc : Rpc.Client ν}
    (hh : HandlersJustified api (opts.purpose api typed) rpc.responseFail rpc.error) :
    (connected env api opts (opts.pair api typed) rpc.error rpc).Justified api
      (opts.purpose api typed) := by
  refine (Rpc.Client.getCurrentBlockId_learns hh ⟨rfl, rfl⟩).bind fun r => ?_
  cases r with
  | none => exact .pure fun _ _ => trivial
  | some blockId => exact transfer_learns hh fun h hK => hK.2

theorem doRequest_justified (fuel : ℕ) :
    (doRequest env api opts (opts.pair api typed) fuel).Justified api
      (opts.purpose api typed) := by
  induction fuel with
  | zero => exact .halt _
  | succ fuel ih =>
    rw [doRequest, attempt_eq]
    refine attempt_justified (errorHandler_justified ih) fun rpc hh hrpc => ?_
    rw [← hrpc]
    exact connected_justified hh

theorem main_justified (env : Env ν) (api : Api) (opts : Options) (typed : List String)
    (fuel : ℕ) : (main env api opts typed fuel).Justified api (opts.purpose api typed) := by
  unfold main
  split
  · next key hkey =>
    have hpair : ∀ ppk, (api.fromPrivateKey key).outcome = .ok ppk →
        opts.pair api typed = ppk := by
      intro ppk hppk
      simp [Options.pair, hkey, hppk]
    have hreports : (Prog.each (fun _ => Prog.raise (.std "bad_function_call"))
        (api.fromPrivateKey key).reports : M ν Unit).Justified api (opts.purpose api typed) :=
      (sourced_graded api _ _).each (fun _ => .raise _) _
    simp only [Answer.run, bind_assoc]
    refine hreports.bind fun _ => ?_
    cases hout : (api.fromPrivateKey key).outcome with
    | error e => exact .raise e
    | ok ppk => exact hpair ppk hout ▸ (doRequest_justified fuel).learns
  · next hkey =>
    exact Prog.Learns.bind (.emit fun h _ => .print (.inl (.inr ⟨hkey, rfl⟩))) fun _ => .halt _

theorem promptEvents_justified (hkey : opts.privateKey = "") {t : List Event}
    (ht : ∀ e ∈ t, e.isFree = true ∨ ∃ text, e = .cout text ∧ IsPrompt text) :
    (Prog.each Prog.emit t : M ν Unit).Justified api (opts.purpose api typed) := by
  induction t with
  | nil => exact .pure fun _ _ => trivial
  | cons e t ih =>
    refine Prog.Learns.bind (.emit fun h _ => ?_) fun _ =>
      (ih fun e he => ht e (List.mem_cons_of_mem _ he)).learns
    rcases ht e List.mem_cons_self with hfree | ⟨text, rfl, htext⟩
    · exact .free hfree
    · exact .print (.inl (.inl ⟨hkey, htext⟩))

theorem mainAt_justified (env : Env ν) (api : Api) (opts : Options) (maxpw : UInt64)
    (tty : Terminal) (input : List Char) (fuel : ℕ) :
    (mainAt env api opts maxpw tty input fuel).Justified api
      (opts.purpose api (typedAt maxpw tty input)) := by
  have hmain := main_justified env api opts (typedAt maxpw tty input) fuel
  unfold mainAt
  refine .ite (fun hkey => ?_) fun _ => hmain
  refine (promptEvents_justified hkey fun e he => ?_).bind fun _ => hmain.learns
  rcases promptEvents_cases he with ⟨text, rfl⟩ | ⟨text, rfl⟩
  · exact .inr ⟨text, rfl, isPrompt_of_mem api maxpw tty 3 [] input he⟩
  · exact .inl rfl

/-- **What a run does goes back to its options, its key and what the node has told it**: every event
of it is justified by the events before it, also where the key is typed at a terminal. -/
theorem transfer_grounded (env : Env ν) (api : Api) (opts : Options) (maxpw : UInt64)
    (tty : Terminal) (input : List Char) (fuel : ℕ) (w : World ν) :
    Grounded (Sourced api (opts.purpose api (typedAt maxpw tty input)))
      (mainAt env api opts maxpw tty input fuel w).trace :=
  (mainAt_justified env api opts maxpw tty input fuel).grounded trivial w

theorem grounded_payment {t u v : List Event} {s : Session} {req : HttpRequest} {a : WriteAnswer}
    (ht : Grounded (Sourced api (opts.purpose api typed)) t) (htu : t = u ++ .write s req a :: v)
    (hm : req.rpcMethod = some "send-transaction") :
    opts.test = false ∧ ∃ (id : UInt64) (x : Json),
      req.payload = some ((command "send-transaction" .null id).set "params" x) ∧
        ((∃ ppk blockId trxId tx, Signer api opts typed ppk u ∧
            (ToldBlockId api blockId u ∨ ToldNoBlockId api u) ∧
            .created (opts.call api ppk blockId trxId) (.ok (some tx)) ∈ u ∧ tx.body = some x) ∨
          .undefined .emptyTransaction ∈ u) := by
  obtain ⟨id, x, hpayload, hbody, htest⟩ := ht.payment htu hm
  refine ⟨htest, id, x, hpayload, ?_⟩
  rcases ht.madeBody htu hbody with ⟨call, tx, hcreated, hmade, hx⟩ | hundef
  · obtain ⟨ppk, blockId, trxId, hsigner, hid, rfl⟩ := hmade
    exact .inl ⟨ppk, blockId, trxId, tx, hsigner, hid, hcreated, hx⟩
  · exact .inr hundef

/-- **A payment on the wire is the one that was asked for**: it is not a test, and the body is that
of a transfer that the factory has made from the options, the key (or what is read where the key has
no pair) and a block id that the node has told before (or an unwritten one, where the node has told
a text that is no id). -/
theorem payments_asked (env : Env ν) (api : Api) (opts : Options) (typed : List String) (fuel : ℕ)
    (w : World ν) :
    ∀ u s req a v, (main env api opts typed fuel w).trace = u ++ .write s req a :: v →
      req.rpcMethod = some "send-transaction" →
      opts.test = false ∧ ∃ (id : UInt64) (x : Json),
        req.payload = some ((command "send-transaction" .null id).set "params" x) ∧
          ((∃ ppk blockId trxId tx, Signer api opts typed ppk u ∧
              (ToldBlockId api blockId u ∨ ToldNoBlockId api u) ∧
              .created (opts.call api ppk blockId trxId) (.ok (some tx)) ∈ u ∧ tx.body = some x) ∨
            .undefined .emptyTransaction ∈ u) := by
  intro u s req a v htrace hm
  have hgrounded := (main_justified env api opts typed fuel).grounded trivial w
  exact grounded_payment hgrounded htrace hm

/-- The payment of a second attempt. -/
theorem payments_asked_late :
    ∃ u s req a v, (main lateNode (.sample [blockIdReply, sentReply]) transferOptions [] 3
        (World.init 0)).trace = u ++ .write s req a :: v ∧
      req.rpcMethod = some "send-transaction" ∧ transferOptions.test = false ∧
      ∃ (id : UInt64) (x : Json),
        req.payload = some ((command "send-transaction" .null id).set "params" x) ∧
          ((∃ ppk blockId trxId tx,
              Signer (.sample [blockIdReply, sentReply]) transferOptions [] ppk u ∧
              (ToldBlockId (.sample [blockIdReply, sentReply]) blockId u ∨
                ToldNoBlockId (.sample [blockIdReply, sentReply]) u) ∧
              .created (transferOptions.call (.sample [blockIdReply, sentReply]) ppk blockId trxId)
                (.ok (some tx)) ∈ u ∧ tx.body = some x) ∨
            .undefined .emptyTransaction ∈ u) := by
  obtain ⟨u, s, req, a, v, htrace, hm⟩ := exists_write_of_mem
    (t := (main lateNode (.sample [blockIdReply, sentReply]) transferOptions [] 3
      (World.init 0)).trace) (m := "send-transaction") (by decide +kernel)
  exact ⟨u, s, req, a, v, htrace, hm, payments_asked _ _ _ _ _ _ u s req a v htrace hm⟩

end Transfer

/-! ### mile_cli_wallet -/

namespace Wallet

/-- The parameters of the options; without a JSON text they are null. -/
def Options.json (opts : Options) (api : Api) : Json :=
  match api.parse opts.params with
  | .ok params => params
  | .error _ => .null

/-- What may be printed: a headline, the time of a ping, a block id (also an unwritten one), and what
the node has told. -/
def Prints (api : Api) (opts : Options) (text : String) : Fact Event :=
  (Fact.always (text = "Call " ++ opts.method ++ ": " ∨
      opts.method = "ping" ∧ ∃ t : ℤ, text = toString t)).or
    ((Fact.any fun id => (ReturnedBlockId api id).and (.always (text = toString id.toNat))).or
      (.any fun m => .any fun v => (Told api m v).and (.always (api.dump v = .ok text))))

/-- The purpose of a run: the call of the options. -/
def Options.purpose (opts : Options) (api : Api) : Purpose :=
  .ofCalls api (fun method params => method = opts.method ∧ params = opts.json api)
    (fun _ _ => False) (fun _ => False) (Prints api opts)

variable {opts : Options}

theorem errorHandler_justified {doRequest : M ν Unit} (h : doRequest.Justified api P)
    (code : ResultCode) (error : String) :
    (errorHandler opts doRequest code error).Justified api P := by
  refine (logCall_justified code error).bind fun _ => .ite (fun _ => .halt _) fun _ => ?_
  refine Prog.Learns.bind .modifyGet fun _ => .ite (fun _ => .halt _) fun _ => h.learns

/-- What is printed is what the call has returned. -/
theorem printResult_learns {result : Rpc.AnyValue}
    (hresult : ∀ h, K h → Rpc.Client.CallTold api opts.method result h) :
    (printResult env api result).Learns (Sourced api (opts.purpose api)) K
      fun _ => .always True := by
  have hprint : ∀ {L : Fact Event} {text : String}, (∀ h, L h → Prints api opts text h) →
      (Prog.emit (.cout text) : M ν Unit).Learns (Sourced api (opts.purpose api)) L
        fun _ => .always True :=
    fun htext => (Prog.Learns.emit fun h hL => .print (htext h hL)).weaken fun _ _ _ => trivial
  cases result with
  | time t => exact hprint fun h hK => .inl (.inr ⟨hresult h hK, t, rfl⟩)
  | uint256 id => exact hprint fun h hK => .inr (.inl ⟨id, hresult h hK, rfl⟩)
  | response r =>
    cases r with
    | some v =>
      refine (learns_ofJson _).bind fun text => .assume fun htext => hprint fun h hK => ?_
      obtain ⟨m, htold⟩ := hresult h hK
      exact .inr (.inr ⟨m, v, htold, htext⟩)
    | none => exact fun w h hK => (hresult h hK).elim
  | empty => exact .pure fun _ _ => trivial
  | nullopt => exact .pure fun _ _ => trivial

theorem connected_justified {rpc : Rpc.Client ν}
    (hh : HandlersJustified api (opts.purpose api) rpc.responseFail rpc.error) :
    (connected env api opts rpc).Justified api (opts.purpose api) := by
  have hparams : (parseParams api opts : M ν Json).Learns (Sourced api (opts.purpose api))
      (.always True) fun params => .always (params = opts.json api) := by
    unfold parseParams Options.json
    cases api.parse opts.params with
    | ok params =>
      refine .pure fun _ _ => ?_
      rfl
    | error e =>
      refine Prog.Learns.bind (.emit fun _ _ => .free rfl) fun _ => .pure fun _ _ => ?_
      rfl
  refine .tryCatch ?_ fun e => ?_
  · refine hparams.bind fun params => .assume fun hp => ?_
    refine (Rpc.Client.call_learns (Purpose.serves ⟨rfl, hp⟩) hh).bind fun result => ?_
    refine .ite (fun _ => ?_) fun _ => Prog.Learns.bind (.emit fun _ _ => .free rfl) fun _ =>
      .halt _
    refine Prog.Learns.bind (.emit fun h _ => .print (.inl (.inl rfl))) fun _ => ?_
    exact printResult_learns fun h hK => hK.1.2
  · cases e.what? with
    | some what => exact (Prog.Learns.emit fun _ _ => .free rfl).weaken fun _ _ _ => trivial
    | none => exact .raise e

theorem doRequest_justified (fuel : ℕ) :
    (doRequest env api opts fuel).Justified api (opts.purpose api) := by
  induction fuel with
  | zero => exact .halt _
  | succ fuel ih =>
    rw [doRequest, attempt_eq]
    exact attempt_justified (errorHandler_justified ih) fun rpc hh _ => connected_justified hh

theorem main_justified (env : Env ν) (api : Api) (opts : Options) (fuel : ℕ) :
    (main env api opts fuel).Justified api (opts.purpose api) :=
  Prog.Learns.bind .modifyGet fun _ => (doRequest_justified fuel).learns.bind fun _ => .halt _

/-- **What a run does goes back to its options and what the node has told it**: every event of it is
justified by the events before it. -/
theorem wallet_grounded (env : Env ν) (api : Api) (opts : Options) (fuel : ℕ) (w : World ν) :
    Grounded (Sourced api (opts.purpose api)) (main env api opts fuel w).trace :=
  (main_justified env api opts fuel).grounded trivial w

end Wallet

end Cli

end MileRpc
