import MileRpc.Cli.Tools
import MileRpc.Rpc.CallPayment

/-!
# At most one payment

How often the node can receive a send-transaction request in one run of a command line tool.  The
error handler calls `do_request` again from inside the failed call, so that the whole attempt is
repeated, with a block id and a transaction id of its own, whatever the failed one has already sent.

`request` reports an exception with the code `FAIL`, which is the code that is retried; a reply that
is not a JSON text is such an exception, and the transaction was delivered then
(`at_most_one_payment_fails`).  `at_most_one_payment` is the converse: without such an exception no
run pays twice, whatever else fails, and however often.
-/

namespace MileRpc

open Outcome (Gives Halted)

/-- What the third-party code promises: what was parsed can be dumped, so can a block id query,
and the key library reports as `KeyReports` says. -/
structure Api.Conforms (api : Api) : Prop where
  dump_result : ∀ text j r, api.parse text = .ok j → resultMember j = some r →
    ∃ data, api.dump r = .ok data
  dump_blockId : ∀ id, ∃ data, api.dump (command "get-current-block-id" .null id) = .ok data
  keyReports : api.KeyReports

/-- A result that a reply carries can be dumped. -/
theorem Api.Conforms.dump_replyResult {api : Api} (h : api.Conforms) {res : HttpResponse} {r : Json}
    (hr : api.replyResult res = some r) : ∃ data, api.dump r = .ok data := by
  unfold replyResult at hr
  split_ifs at hr
  split at hr
  · next j hj => exact h.dump_result _ j r hj hr
  · cases hr

namespace Cli

variable {ν : Type} {env : Env ν} {api : Api} {K : HttpRequest → WriteAnswer → Prop}
  {halts : Prop}

theorem logCall_quits (code : ResultCode) (error : String) :
    (payments api K halts).Quits (Gives ()) (logCall code error : M ν Unit) :=
  fun _ _ => ⟨rfl, rfl⟩

/-- The counter is positive once an error was counted. -/
theorem countError_quits :
    (payments api K halts).Quits (fun o => ∃ n, o = .ret (n + 1)) (countError : M ν ℕ) :=
  fun w _ => ⟨rfl, w.reconnections, rfl⟩

/-! ### mile_cli_transfer -/

namespace Transfer

variable {opts : Options}

/-- The retries of the handler never start if one error ends the process. -/
abbrev Stops (opts : Options) : Prop := opts.reconnections ≤ 1 ∨ opts.test = true

theorem errorHandler_retries {doRequest : M ν Unit}
    (h : (payments api K (Stops opts)).Once (Gives ()) doRequest) :
    Retries (payments api K (Stops opts)) (Stops opts) (errorHandler opts doRequest) where
  fail text := by
    refine Meter.Calm.bind_once (logCall_quits _ _).calm fun _ => ?_
    refine Meter.Calm.bind_once countError_quits.calm fun n => ?_
    refine .ite (Meter.Calm.halt _).once ?_
    simpa using h
  other code text hcode := by
    refine (logCall_quits _ _).bind (fun _ _ => ?_) (fun _ h => h) fun _ h => h
    refine countError_quits.bind (fun n _ => ?_) (by simp) (by simp)
    simp only [hcode, ↓reduceIte]
    split
    · exact .halt trivial
    · exact .pure rfl
  halts hs code text := by
    refine (logCall_quits _ _).bind (fun _ _ => ?_) (fun _ h => h.elim) fun _ _ => trivial
    refine countError_quits.bind (fun n hn => ?_) (by simp) (by simp)
    obtain ⟨k, hk⟩ := hn
    obtain rfl : n = k + 1 := by simpa using hk
    -- the first error has already used up the attempts
    have hexit : opts.reconnections ≤ ((k + 1 : ℕ) : ℤ) ∨ opts.test = true :=
      hs.imp_left fun h => by omega
    rw [if_pos hexit]
    exact .halt trivial

/-- The requests that must not fail with an exception: the payments. -/
def Paying (req : HttpRequest) (a : WriteAnswer) : Prop :=
  a.delivered = true ∧ req.payload.bind methodOf = some "send-transaction"

/-- After a payment the tool prints the result, and that cannot fail. -/
theorem sendRequest_once (hapi : api.Conforms) {rpc : Rpc.Client ν}
    (hc : rpc.Reporting (payments api Paying halts) halts) (ppk : Pair) (request : Json) :
    (payments api Paying halts).Once (Gives ()) (sendRequest env api opts rpc ppk request) := by
  unfold sendRequest
  refine .ite (Meter.Calm.bind (Calm.ofJson _) fun text => .emit rfl).once ?_
  refine Meter.Calm.bind_once (Calm.ofJson _) fun _ => ?_
  refine (Rpc.Client.sendTransaction_once hc (fun _ _ hd hm => ⟨hd, hm⟩) ppk request).bind
    (fun t => ?_) (fun t ht => ?_) (fun _ h => h.elim) fun _ _ => trivial
  · cases t with
    | none => exact (Meter.Calm.pure ()).once
    | some t =>
      exact Meter.Calm.once (Meter.Calm.bind (.emit rfl) fun _ =>
        Meter.Calm.bind (Calm.ofJson _) fun text => .emit rfl)
  · cases t with
    | none => exact .pure rfl
    | some t =>
      obtain ⟨res, hres⟩ := ht t rfl
      obtain ⟨data, hdata⟩ := hapi.dump_replyResult hres
      simp only [hdata, ofJson_ok, pure_bind]
      exact fun _ _ => ⟨rfl, rfl⟩

theorem transfer_once (hapi : api.Conforms) {rpc : Rpc.Client ν} {error : ErrorHandler ν}
    (hc : rpc.Reporting (payments api Paying halts) halts)
    (hh : Retries (payments api Paying halts) halts error) (ppk : Option Pair) (id : UInt256) :
    (payments api Paying halts).Once (Gives ()) (transfer env api opts ppk error rpc id) := by
  refine Meter.Calm.bind_once Rpc.rand_calm fun trxId => ?_
  have hpair : (payments api Paying halts).Calm (readPair env ppk) := by
    cases ppk with
    | some ppk => exact .pure ppk
    | none => exact Calm.undefinedRead _ _
  refine Meter.Calm.bind_once hpair fun ppk => ?_
  refine Meter.Calm.bind_once (Rpc.Client.createRequest_calm hh _) fun tx => ?_
  refine Meter.Calm.bind_once (Rpc.Client.readBody_calm tx) fun body => ?_
  cases body with
  | none => exact (Meter.Calm.pure ()).once
  | some request => exact sendRequest_once hapi hc ppk request

theorem attempt_once (hapi : api.Conforms) {error : ErrorHandler ν}
    (hh : Retries (payments api Paying halts) halts error) (ppk : Option Pair) :
    (payments api Paying halts).Once (Gives ()) (attempt env api opts ppk error) := by
  refine Meter.Calm.bind_once (.emit rfl) fun _ => ?_
  refine Rpc.Client.connect_bind hh _ _ rfl fun rpc hc => ?_
  refine (Rpc.Client.getCurrentBlockId_once hc).bind (fun id => ?_) (fun id hid => ?_)
    (fun _ h => h.elim) fun _ _ => trivial
  · cases id with
    | none => exact (Meter.Calm.pure ()).once
    | some id => exact transfer_once hapi hc hh ppk id
  · obtain rfl : id = none := hid
    exact .pure rfl

/-- By induction on the depth of the retries. -/
theorem doRequest_once (hapi : api.Conforms) (ppk : Option Pair) (fuel : ℕ) :
    (payments api Paying (Stops opts)).Once (Gives ()) (doRequest env api opts ppk fuel) := by
  induction fuel with
  | zero => exact (Meter.Calm.halt Stop.outOfFuel).once
  | succ fuel ih => exact attempt_once hapi (errorHandler_retries ih) ppk

theorem main_once (hapi : api.Conforms) (typed : List String) (fuel : ℕ) :
    (payments api Paying (Stops opts)).Once (fun _ => True) (main env api opts typed fuel) := by
  unfold main
  split
  · -- an error about the key throws
    refine Meter.Calm.bind_once (Meter.Calm.bind (.each (fun _ => .raise _) _) fun _ =>
      .ofExcept _) fun ppk => ?_
    exact (doRequest_once hapi ppk fuel).mono fun _ _ => trivial
  · exact Meter.Calm.once (Meter.Calm.bind (.emit rfl) fun _ => .halt _)

end Transfer

/-! ### mile_cli_wallet -/

namespace Wallet

variable {opts : Options}

/-- The retries of the handler never start if one error ends the process. -/
abbrev Stops (opts : Options) : Prop := opts.reconnections ≤ 1

theorem errorHandler_retries {doRequest : M ν Unit}
    (h : (payments api K (Stops opts)).Once (Gives ()) doRequest) :
    Retries (payments api K (Stops opts)) (Stops opts) (errorHandler opts doRequest) where
  fail text := by
    refine Meter.Calm.bind_once (logCall_quits _ _).calm fun _ => ?_
    rw [if_neg (by simp)]
    refine Meter.Calm.bind_once countError_quits.calm fun n => ?_
    exact .ite (Meter.Calm.halt _).once h
  other code text hcode := by
    refine (logCall_quits _ _).bind (fun _ _ => ?_) (fun _ h => h) fun _ h => h
    rw [if_pos hcode]
    exact .halt trivial
  halts hs code text := by
    refine (logCall_quits _ _).bind (fun _ _ => ?_) (fun _ h => h.elim) fun _ _ => trivial
    split
    · exact .halt trivial
    refine countError_quits.bind (fun n hn => ?_) (by simp) (by simp)
    obtain ⟨k, hk⟩ := hn
    obtain rfl : n = k + 1 := by simpa using hk
    have hexit : opts.reconnections ≤ ((k + 1 : ℕ) : ℤ) := by
      have : opts.reconnections ≤ 1 := hs
      omega
    rw [if_pos hexit]
    exact .halt trivial

/-- The requests that must not fail with an exception: the payments and the block id queries, whose
result is read without a check. -/
def Paying (req : HttpRequest) (a : WriteAnswer) : Prop :=
  (a.delivered = true ∧ req.payload.bind methodOf = some "send-transaction") ∨
    req.payload.bind methodOf = some "get-current-block-id"

theorem covered (hapi : api.Conforms) : Rpc.Client.Covered api Paying where
  payment _ _ hd hm := .inl ⟨hd, hm⟩
  blockId _ _ hm := .inr hm
  dump := hapi.dump_blockId

/-- No exception, or one that `do_request` catches. -/
def Caught : Outcome Exn Stop Unit → Prop
  | .throw e => e.what?.isSome
  | _ => True

theorem printResult_quits (result : Rpc.AnyValue) :
    (payments api K halts).Quits Caught (printResult env api result) := by
  have hdump : ∀ r, (payments api K halts).Quits Caught (do
      let text ← ofJson (api.dump r)
      Prog.emit (.cout text) : M ν Unit) := by
    intro r
    cases api.dump r with
    | ok text => exact .emit rfl trivial
    | error e => exact .raise (e := Exn.json e) rfl
  cases result with
  | time t => exact .emit rfl trivial
  | uint256 v => exact .emit rfl trivial
  | empty => exact .pure trivial
  | nullopt => exact .pure trivial
  | response r =>
    cases r with
    | some r => exact hdump r
    | none =>
      exact (Quits.undefinedRead _ _).bind (fun r _ => hdump r) (fun e h => absurd rfl (h e))
        fun _ _ => trivial

theorem callMethod_once (hapi : api.Conforms) {rpc : Rpc.Client ν}
    (hc : rpc.Reporting (payments api Paying halts) halts) :
    (payments api Paying halts).Once Caught (callMethod env api opts rpc) := by
  have hparams : (payments api Paying halts).Calm (parseParams api opts : M ν Json) := by
    unfold parseParams
    split
    · exact .pure _
    · exact Meter.Calm.bind (.emit rfl) fun _ => .pure _
  have hprint : ∀ result : Rpc.AnyValue, (payments api Paying halts).Quits Caught (do
      if result.hasValue then do
        Prog.emit (.cout ("Call " ++ opts.method ++ ": "))
        printResult env api result
      else do
        Prog.emit (.cerr "Rpc error: response does not have any result")
        Prog.halt (.exit (-1))) := by
    intro result
    split
    · exact Meter.Quits.bind (F := Gives ()) (.emit rfl rfl) (fun _ _ => printResult_quits result)
        (fun _ h => h.elim) fun _ _ => trivial
    · exact Meter.Quits.bind (F := Gives ()) (.emit rfl rfl) (fun _ _ => .halt trivial)
        (fun _ h => h.elim) fun _ _ => trivial
  refine Meter.Calm.bind_once hparams fun params => ?_
  exact (Rpc.Client.call_once hc (covered hapi) hapi.keyReports).bind
    (fun result => (hprint result).once) (fun result _ => hprint result)
    (fun e h => absurd rfl (h e)) fun _ _ => trivial

theorem attempt_once (hapi : api.Conforms) {error : ErrorHandler ν}
    (hh : Retries (payments api Paying halts) halts error) :
    (payments api Paying halts).Once (Gives ()) (attempt env api opts error) := by
  refine Meter.Calm.bind_once (.emit rfl) fun _ => ?_
  refine Rpc.Client.connect_bind hh _ _ rfl fun rpc hc => ?_
  refine (callMethod_once hapi hc).tryCatch (fun e => ?_) (fun _ _ => rfl) (fun e he => ?_)
    fun _ _ => trivial
  · cases e.what? with
    | some what => exact (Meter.Calm.emit rfl).once
    | none => exact (Meter.Calm.raise e).once
  · obtain ⟨what, hwhat⟩ := Option.isSome_iff_exists.1 he
    rw [hwhat]
    exact .emit rfl rfl

/-- By induction on the depth of the retries. -/
theorem doRequest_once (hapi : api.Conforms) (fuel : ℕ) :
    (payments api Paying (Stops opts)).Once (Gives ()) (doRequest env api opts fuel) := by
  induction fuel with
  | zero => exact (Meter.Calm.halt Stop.outOfFuel).once
  | succ fuel ih => exact attempt_once hapi (errorHandler_retries ih)

theorem main_once (hapi : api.Conforms) (fuel : ℕ) :
    (payments api Paying (Stops opts)).Once (fun _ => True) (main env api opts fuel) := by
  refine Meter.Calm.bind_once (.modifyGet _) fun _ => ?_
  exact (doRequest_once hapi fuel).bind (fun _ => (Meter.Calm.halt _).once)
    (fun _ _ => .halt trivial) (fun _ _ => trivial) fun _ _ => trivial

end Wallet

/-! ### Whole runs -/

/-- **At most one payment.**  In a run of either tool in which no payment that was delivered (for
`mile_cli_wallet`: and no block id query) ends in an exception or with a 200 reply that is not JSON,
and every transaction that is asked for is made, the node receives at most one send-transaction
request; so it does when the first error ends the process. -/
theorem at_most_one_payment (env : Env ν) (api : Api) (hapi : api.Conforms) (net : ν) (fuel : ℕ) :
    (∀ (opts : Transfer.Options) (typed : List String),
      opts.reconnections ≤ 1 ∨ opts.test = true ∨
          Steady api Transfer.Paying
            (Transfer.main env api opts typed fuel (World.init net)).trace →
        (Transfer.main env api opts typed fuel (World.init net)).trace.countP Event.isPayment ≤ 1) ∧
    ∀ opts : Wallet.Options,
      opts.reconnections ≤ 1 ∨
          Steady api Wallet.Paying (Wallet.main env api opts fuel (World.init net)).trace →
        (Wallet.main env api opts fuel (World.init net)).trace.countP Event.isPayment ≤ 1 := by
  constructor
  · intro opts typed h
    have hfair := or_assoc.2 h
    rcases Transfer.main_once hapi typed fuel (World.init net) hfair with h0 | ⟨h1, -⟩
    · exact h0.trans_le (Nat.zero_le 1)
    · exact h1.le
  · intro opts h
    rcases Wallet.main_once hapi fuel (World.init net) h with h0 | ⟨h1, -⟩
    · exact h0.trans_le (Nat.zero_le 1)
    · exact h1.le

/-- What a node answers to the block id query. -/
def blockIdReply : Json := .object [("result", .object [("current-block-id", .string "7")])]

/-- What a node answers to a transaction. -/
def sentReply : Json := .object [("result", .boolean true)]

/-- The parameters of a transfer. -/
def transferParams : Json :=
  .object [("private-key", .string "p"), ("to", .string "k"), ("amount", .integer 1),
    ("asset-code", .integer 1)]

/-- The options of a transfer, with three attempts. -/
def transferOptions : Transfer.Options :=
  ⟨"http://h", "k", "p", 1, .round (.ofInt 1), "", 3, false⟩

/-- The options of the same transfer by the other tool. -/
def walletOptions : Wallet.Options := ⟨"http://h", "send-transfer", transferParams.text, 3, 3⟩

/-- A node behind a name that is only resolved at the second attempt. -/
def lateNode : Env ℕ :=
  { Env.answering (fun n => (⟨200, (if n = 1 then blockIdReply else sentReply).text⟩, n + 1)) with
    resolve := fun _ n => if n = 0 then (.error (.std "Host not found"), 1) else (.ok 1, n) }

theorem sample_conforms (known : List Json) : (Api.sample known).Conforms where
  dump_result _ _ r _ _ := ⟨r.text, rfl⟩
  dump_blockId _ := ⟨_, rfl⟩
  keyReports _ := ⟨Nat.zero_le 1, fun _ _ => rfl⟩

/-- The first attempt fails, the second one pays. -/
theorem at_most_one_payment_late :
    (Transfer.main lateNode (Api.sample [blockIdReply, sentReply]) transferOptions [] 3
      (World.init 0)).trace.countP Event.isPayment ≤ 1 ∧
    (Wallet.main lateNode (Api.sample [blockIdReply, sentReply, transferParams]) walletOptions 3
      (World.init 0)).trace.countP Event.isPayment ≤ 1 :=
  ⟨(at_most_one_payment lateNode _ (sample_conforms [blockIdReply, sentReply]) 0 3).1
      transferOptions [] (.inr (.inr (.of_all (by decide +kernel)))),
    (at_most_one_payment lateNode _
      (sample_conforms [blockIdReply, sentReply, transferParams]) 0 3).2
      walletOptions (.inr (.of_all (by decide +kernel)))⟩

/-- A node whose first answer to a transaction is no JSON. -/
def garbledNode : Env ℕ :=
  Env.answering fun n =>
    (⟨200, if n = 1 then "<html>" else (if n = 3 then sentReply else blockIdReply).text⟩, n + 1)

/-- The first transaction was delivered, and a second one is sent. -/
theorem at_most_one_payment_fails :
    ¬ (Transfer.main garbledNode (Api.sample [blockIdReply, sentReply]) transferOptions [] 3
      (World.init 0)).trace.countP Event.isPayment ≤ 1 ∧
    ¬ (Wallet.main garbledNode (Api.sample [blockIdReply, sentReply, transferParams]) walletOptions
      3 (World.init 0)).trace.countP Event.isPayment ≤ 1 := by
  decide +kernel

end Cli

end MileRpc
