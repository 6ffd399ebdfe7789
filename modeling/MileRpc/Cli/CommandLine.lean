import MileRpc.Cli.Provenance
import MileRpc.Rpc.Prepare

/-!
# The command line

`parse_cmdline` of both tools, and their whole processes.  What `po::parse_command_line` and
`po::notify` make of the arguments is an `Arguments`, or an exception; the description of the
options is a text.  The switch for debug messages is left out.

A process gets to its requests only if its command line is complete; otherwise it prints something
and ends (`Idles`).

## Main results

* `Transfer.process_payments`, `Wallet.process_transactions` : a payment of a process is one that
  its complete command line asks for
-/

namespace MileRpc

/-- The events of a process that does not get to its requests. -/
def Event.IsIdle (e : Event) : Prop := e.isOutput = true ∨ e = .undefined .emptyPair

namespace Cli

variable {ν : Type}

/-- The `catch` clauses of `parse_cmdline`, after which it returns false. -/
def parseFailed {α : Type} (e : Exn) : M ν (Option α) := do
  match e.what? with
  | some what => Prog.emit (.cerr ("error: " ++ what ++ "\n"))
  | none => Prog.emit (.cerr "Exception of unknown type!\n")
  pure none

/-- Print the texts and end the process. -/
def printAndExit {α : Type} (texts : List String) : M ν α := do
  Prog.each (fun text => Prog.emit (.cout (text ++ "\n"))) texts
  Prog.halt (.exit 0)

/-- The `try` block of `parse_cmdline`, in which `check` follows the parser, and its `catch`
clauses. -/
def parseBlock {Arguments Options : Type} (check : Arguments → M ν (Option Options))
    (parsed : Except Exn Arguments) : M ν (Option Options) :=
  Prog.tryCatch (do
      let args ← Prog.ofExcept parsed
      check args)
    parseFailed

/-- The start of `main`: the rest of it is `next`. -/
def start {Options : Type} (parseCmdline : M ν (Option Options)) (next : Options → M ν Unit) :
    M ν Unit := do
  match ← parseCmdline with
  | some opts => next opts
  | none => Prog.halt (.exit 1)

/-- A process that prints something, may read a key pair that is not there, and ends. -/
structure Idles (o : Outcome Exn Stop Unit) (t : List Event) : Prop where
  outcome : o = .stop (.exit 0) ∨ o = .stop (.exit 1) ∨ o = .stop .crash
  trace : ∀ e ∈ t, e.IsIdle

/-- The rest of the process does not follow. -/
structure Leaves {α : Type} (o : Outcome Exn Stop (Option α)) (t : List Event) : Prop where
  outcome : o = .ret none ∨ o = .stop (.exit 0) ∨ o = .stop .crash
  trace : ∀ e ∈ t, e.IsIdle

/-- As `Leaves`, or an exception leaves the checks. -/
def Escapes {α : Type} (o : Outcome Exn Stop (Option α)) (t : List Event) : Prop :=
  (∃ e, o = .throw e) ∧ (∀ e ∈ t, e.IsIdle) ∨ Leaves o t

/-- A part of the checks: it goes on, or crashes, or throws. -/
structure Idle {α : Type} (o : Outcome Exn Stop α) (t : List Event) : Prop where
  outcome : ∀ s, o = .stop s → s = .crash
  trace : ∀ e ∈ t, e.IsIdle

section Leaves

variable {α β Arguments Options : Type} {check : Arguments → M ν (Option Options)}
  {parsed : Except Exn Arguments} {next : Options → M ν Unit} {w : World ν}

theorem parseFailed_leaves (e : Exn) : (parseFailed e : M ν (Option α)).Ensures Leaves := by
  intro w
  unfold parseFailed
  cases e.what? with
  | some what => exact ⟨.inl rfl, by simp [Prog.bind_apply, Event.IsIdle, Event.isOutput]⟩
  | none => exact ⟨.inl rfl, by simp [Prog.bind_apply, Event.IsIdle, Event.isOutput]⟩

theorem printAndExit_leaves (texts : List String) :
    (printAndExit texts : M ν (Option α)).Ensures Leaves := by
  have hprint : (Prog.each (fun text => Prog.emit (.cout (text ++ "\n"))) texts : M ν Unit).Ends
      (.ret ()) fun t => ∀ e ∈ t, e.IsIdle := by
    refine Prog.Ends.each (by simp) (fun t u ht hu => ?_) (fun text w => ⟨_, rfl, ?_⟩) texts
    · exact List.forall_mem_append.2 ⟨ht, hu⟩
    · simp [Event.IsIdle, Event.isOutput]
  refine hprint.ensures.bind (fun _ t ht => .halt ⟨.inr (.inl rfl), by simpa using ht.2⟩) ?_ ?_
  · rintro e t ⟨ho, -⟩
    cases ho
  · rintro s t ⟨ho, -⟩
    cases ho

theorem escapes_bind {x : M ν α} {f : α → M ν (Option β)} (hx : x.Ensures Idle)
    (hf : ∀ a, (f a).Ensures Escapes) : (x >>= f).Ensures Escapes := by
  refine hx.bind (fun a t ht => (hf a).mono fun o u hu => ?_) (fun e t ht => ?_) fun s t ht => ?_
  · rcases hu with ⟨he, hu⟩ | hu
    · exact .inl ⟨he, List.forall_mem_append.2 ⟨ht.trace, hu⟩⟩
    · exact .inr ⟨hu.outcome, List.forall_mem_append.2 ⟨ht.trace, hu.trace⟩⟩
  · exact .inl ⟨⟨e, rfl⟩, ht.trace⟩
  · obtain rfl := ht.outcome s rfl
    exact .inr ⟨.inr (.inr rfl), ht.trace⟩

theorem idle_bind {x : M ν α} {f : α → M ν β} (hx : x.Ensures Idle)
    (hf : ∀ a, (f a).Ensures Idle) : (x >>= f).Ensures Idle :=
  hx.bind (fun a t ht => (hf a).mono fun o u hu =>
      ⟨hu.outcome, List.forall_mem_append.2 ⟨ht.trace, hu.trace⟩⟩)
    (fun _ _ ht => ⟨nofun, ht.trace⟩) fun s t ht => ⟨by simpa using ht.outcome, ht.trace⟩

/-- Where the checks do not pass, the process ends before its requests. -/
theorem start_idles (h : ∀ args, parsed = .ok args → (check args).Ensures Escapes) :
    (start (parseBlock check parsed) next).Ensures Idles := by
  have hparse : (parseBlock check parsed).Ensures Leaves := by
    refine Prog.Ensures.tryCatch (Prog.Ensures.ofExcept_bind h fun e _ => .inl ⟨⟨e, rfl⟩, by simp⟩)
      ?_ ?_ ?_
    · rintro a t (⟨⟨e, he⟩, -⟩ | ht)
      · cases he
      · exact ht
    · rintro e t (⟨-, ht⟩ | ht)
      · exact (parseFailed_leaves e).mono fun o u hu =>
          ⟨hu.outcome, List.forall_mem_append.2 ⟨ht, hu.trace⟩⟩
      · simpa using ht.outcome
    · rintro s t (⟨⟨e, he⟩, -⟩ | ht)
      · cases he
      · exact ht
  refine hparse.bind (fun o t ht => ?_) (fun e t ht => ?_) fun s t ht => ?_
  · obtain ⟨ho, ht⟩ := ht
    cases o with
    | some opts => simp at ho
    | none => exact .halt ⟨.inr (.inl rfl), by simpa using ht⟩
  · simpa using ht.outcome
  · rcases ht.outcome with ho | ho | ho <;> cases ho
    · exact ⟨.inl rfl, ht.trace⟩
    · exact ⟨.inr (.inr rfl), ht.trace⟩

/-- Where they pass, the process goes on with its options. -/
theorem start_passed {args : Arguments} {opts : Options} (h : check args = pure (some opts)) :
    start (parseBlock check (.ok args)) next w = next opts w := by
  have hparse : parseBlock check (.ok args) w = ⟨.ret (some opts), [], w⟩ := by
    refine Prog.tryCatch_of_ret ?_
    change Run.prepend [] (check args w) = _
    rw [h]
    rfl
  unfold start
  rw [Prog.bind_of_ret hparse]
  rfl

/-- A process goes on if its command line is complete, and otherwise ends before its requests. -/
theorem start_cases {Complete : Arguments → Prop} {options : Arguments → Options}
    (hpass : ∀ args, Complete args → check args = pure (some (options args)))
    (hfail : ∀ args, ¬ Complete args → (check args).Ensures Escapes)
    (parsed : Except Exn Arguments) (next : Options → M ν Unit) (w : World ν) :
    (∃ args, parsed = .ok args ∧ Complete args ∧
      start (parseBlock check parsed) next w = next (options args) w) ∨
    Idles (start (parseBlock check parsed) next w).outcome
      (start (parseBlock check parsed) next w).trace := by
  by_cases hargs : ∃ args, parsed = .ok args ∧ Complete args
  · obtain ⟨args, rfl, hcomplete⟩ := hargs
    exact .inl ⟨args, rfl, hcomplete, start_passed (hpass args hcomplete)⟩
  · refine .inr (start_idles (fun args hparsed => hfail args fun hcomplete => ?_) w)
    exact hargs ⟨args, hparsed, hcomplete⟩

theorem Idles.not_write {o : Outcome Exn Stop Unit} {t u v : List Event} (h : Idles o t)
    {s : Session} {req : HttpRequest} {a : WriteAnswer} : t ≠ u ++ .write s req a :: v := by
  intro htrace
  have hwrite := h.trace (.write s req a) (by simp [htrace])
  simp [Event.IsIdle, Event.isOutput] at hwrite

end Leaves

/-! ### mile_cli_transfer -/

namespace Transfer

/-- What the command line holds: whether a flag was given, and the values that were given. -/
structure Arguments where
  help : Bool
  test : Bool
  url : Option String
  destination : Option String
  asset : Option UInt16
  amount : Option Single
  description : Option String
  privateKey : Option String
  reconnections : Option ℤ

/-- The options, over their initial values. -/
def Arguments.options (args : Arguments) : Options where
  nodeAddress := args.url.getD "http://lotus001.testnet.mile.global/v1/api"
  destination := args.destination.getD ""
  privateKey := args.privateKey.getD ""
  assetCode := args.asset.getD 100
  amount := args.amount.getD .zero
  memo := args.description.getD ""
  reconnections := args.reconnections.getD 3
  test := args.test

/-- `opt_amount <= 0`, which is false of a NaN. -/
def notPositive : Single → Bool
  | .finite x => x.mant ≤ 0
  | .infinity negative => negative
  | .nan => false

/-- What `parse_cmdline` does with the arguments; there is no option `wallet`. -/
def checkArguments (desc : String) (args : Arguments) : M ν (Option Options) :=
  if args.help then printAndExit [desc]
  else if args.options.destination = "" then printAndExit [desc]
  else if args.options.assetCode = 100 then printAndExit [desc]
  else if notPositive args.options.amount then printAndExit [desc]
  else pure (some args.options)

/-- `parse_cmdline(ac, av)` -/
def parseCmdline (desc : String) : Except Exn Arguments → M ν (Option Options) :=
  parseBlock (checkArguments desc)

/-- The process. -/
def process (env : Env ν) (api : Api) (desc : String) (parsed : Except Exn Arguments)
    (typed : List String) (fuel : ℕ) : M ν Unit :=
  start (parseCmdline desc parsed) fun opts => main env api opts typed fuel

/-- The command line asks for a transfer. -/
structure Arguments.Complete (args : Arguments) : Prop where
  help : args.help = false
  destination : args.options.destination ≠ ""
  assetCode : args.options.assetCode ≠ 100
  amount : notPositive args.options.amount = false

/-- With an incomplete command line the process prints the description. -/
theorem checkArguments_escapes {args : Arguments} (desc : String) (h : ¬ args.Complete) :
    (checkArguments desc args : M ν (Option Options)).Ensures Escapes := by
  have hprint : (printAndExit [desc] : M ν (Option Options)).Ensures Escapes :=
    (printAndExit_leaves [desc]).mono fun _ _ => .inr
  unfold checkArguments
  split_ifs with hhelp hdest hasset hamount
  · exact hprint
  · exact hprint
  · exact hprint
  · exact hprint
  · exact absurd ⟨by simpa using hhelp, hdest, hasset, by simpa using hamount⟩ h

theorem checkArguments_complete {args : Arguments} (desc : String) (h : args.Complete) :
    (checkArguments desc args : M ν (Option Options)) = pure (some args.options) := by
  simp [checkArguments, h.help, h.destination, h.assetCode, h.amount]

theorem process_cases (env : Env ν) (api : Api) (desc : String) (parsed : Except Exn Arguments)
    (typed : List String) (fuel : ℕ) (w : World ν) :
    (∃ args, parsed = .ok args ∧ args.Complete ∧
      process env api desc parsed typed fuel w = main env api args.options typed fuel w) ∨
    Idles (process env api desc parsed typed fuel w).outcome
      (process env api desc parsed typed fuel w).trace :=
  start_cases (fun _ => checkArguments_complete desc) (fun _ => checkArguments_escapes desc) parsed
    (fun opts => main env api opts typed fuel) w

/-- **A payment of the process is one that its command line asks for**: the command line is
complete and not a test, a valid key was given, and the body is that of a transfer that the factory
has made with these options, the key and a block id that the node has told before.  What is not
written is told by nobody: the id, where the node has told a text that is no id; the key pair, where
the key has none; and the body, where the factory has made no transaction. -/
theorem process_payments (env : Env ν) (api : Api) (desc : String) (parsed : Except Exn Arguments)
    (typed : List String) (fuel : ℕ) (w : World ν) :
    ∀ u s req a v, (process env api desc parsed typed fuel w).trace = u ++ .write s req a :: v →
      req.rpcMethod = some "send-transaction" →
      ∃ args, parsed = .ok args ∧ args.Complete ∧ args.test = false ∧
        chooseKey api args.options typed ≠ none ∧ ∃ (id : UInt64) (x : Json),
          req.payload = some ((command "send-transaction" .null id).set "params" x) ∧
            ((∃ ppk blockId trxId tx, Signer api args.options typed ppk u ∧
                (ToldBlockId api blockId u ∨ ToldNoBlockId api u) ∧
                .created (args.options.call api ppk blockId trxId) (.ok (some tx)) ∈ u ∧
                tx.body = some x) ∨
              .undefined .emptyTransaction ∈ u) := by
  intro u s req a v htrace hm
  rcases process_cases env api desc parsed typed fuel w with
    ⟨args, hparsed, hcomplete, hrun⟩ | hidles
  · rw [hrun] at htrace
    have hgrounded := (main_justified env api args.options typed fuel).grounded trivial w
    obtain ⟨htest, hpayment⟩ := grounded_payment hgrounded htrace hm
    refine ⟨args, hparsed, hcomplete, htest, fun hkey => ?_, hpayment⟩
    have hwrite : .write s req a ∈ (main env api args.options typed fuel w).trace := by
      simp [htrace]
    simp [main, hkey, Prog.bind_apply] at hwrite
  · exact absurd htrace hidles.not_write

/-- A command line for the transfer of a second attempt. -/
def transferArguments : Arguments :=
  ⟨false, false, some "http://h", some "k", some 1, some (.round (.ofInt 1)), none, some "p", none⟩

theorem process_payments_late :
    ∃ u s req a v, (process lateNode (.sample [blockIdReply, sentReply]) "" (.ok transferArguments)
        [] 3 (World.init 0)).trace = u ++ .write s req a :: v ∧
      req.rpcMethod = some "send-transaction" ∧
      ∃ args, (.ok transferArguments : Except Exn Arguments) = .ok args ∧ args.Complete ∧
        args.test = false ∧ chooseKey (.sample [blockIdReply, sentReply]) args.options [] ≠ none ∧
        ∃ (id : UInt64) (x : Json),
          req.payload = some ((command "send-transaction" .null id).set "params" x) ∧
            ((∃ ppk blockId trxId tx,
                Signer (.sample [blockIdReply, sentReply]) args.options [] ppk u ∧
                (ToldBlockId (.sample [blockIdReply, sentReply]) blockId u ∨
                  ToldNoBlockId (.sample [blockIdReply, sentReply]) u) ∧
                .created (args.options.call (.sample [blockIdReply, sentReply]) ppk blockId trxId)
                  (.ok (some tx)) ∈ u ∧ tx.body = some x) ∨
              .undefined .emptyTransaction ∈ u) := by
  obtain ⟨u, s, req, a, v, htrace, hm⟩ := exists_write_of_mem
    (t := (process lateNode (.sample [blockIdReply, sentReply]) "" (.ok transferArguments) [] 3
      (World.init 0)).trace) (m := "send-transaction") (by decide +kernel)
  exact ⟨u, s, req, a, v, htrace, hm, process_payments _ _ _ _ _ _ _ u s req a v htrace hm⟩

end Transfer

/-! ### mile_cli_wallet -/

namespace Wallet

/-- The key pairs that the library makes. -/
structure Keys (ν : Type) where
  /-- `Pair::Random()` -/
  random : ν → Except Exn (Option Pair) × ν
  /-- `Pair::WithSecret(phrase)` -/
  withSecret : String → Except Exn (Option Pair)

/-- What the command line holds: whether a flag was given, and the values that were given. -/
structure Arguments where
  help : Bool
  wallet : Option String
  output : Bool
  url : Option String
  method : Option String
  params : Option String
  reconnections : Option ℤ
  timeout : Option ℤ

/-- The options, over their initial values; that of `--timeout` is the one of `--reconnections`. -/
def Arguments.options (args : Arguments) : Options where
  nodeAddress := args.url.getD "http://lotus000.testnet.mile.global/v1/api"
  method := args.method.getD ""
  params := args.params.getD "\x7b\x7d"
  reconnections := args.reconnections.getD 3
  readTimeout := args.timeout.getD 3

/-- The description of the methods. -/
def ext : String :=
  "Methods: \n" ++
  "\tget-blockchain-info \n" ++
  "\tget-blockchain-state \n" ++
  "\tget-network-state \n" ++
  "\tget-nodes \n" ++
  "\tget-current-block-id \n" ++
  "\tget-block --params '\x7b\"id\":1\x7d'\n" ++
  "\tget-wallet-state --params '\x7b\"public-key\": \"...bHqSm8WTuY3gB9UXD...\"\x7d' \n" ++
  "\tget-wallet-transactions --params '\x7b\"public-key\": \"...bHqSm8WTuY3gB9UXD...\"\x7d' \n" ++
  "\tsend-transfer --params '\x7b\"private-key\": \"...bHqSm8WTuY3gB9UXD...\", " ++
    "\"to\":\"...pXg1MF4qxZTEsL..\", \"amount\": \"100\", \"asset-code\":0, " ++
    "\"description\":\"send my money back!\"\x7d' \n" ++
  "\tregister-node --params '\x7b\"private-key\": \"...bHqSm8WTuY3gB9UXD....\", " ++
    "\"amount\": 10000.00, \"address\": \"xxx.yyy.zzz.www\"\x7d'\n" ++
  "\tunregister-node --params '\x7b\"private-key\": \"...bHqSm8WTuY3gB9UXD....\"\x7d'\n" ++
  "\tvote-for-rate -p '\x7b\"private-key\": \"...bHqSm8WTuY3gB9UXD....\", \"amount\": 1.21\x7d'\n"

/-- Print a key under its label; the optional pair is not checked. -/
def printKey (env : Env ν) (output : Bool) (label : String) (pair : Option Pair)
    (key : Pair → String) : M ν Unit := do
  Prog.emit (.cout (if output then "" else label))
  let pair ← Transfer.readPair env pair
  Prog.emit (.cout (key pair ++ "\n"))

/-- A key pair from random or a phrase. -/
def makePair (keys : Keys ν) (phrase : String) : M ν (Option Pair) :=
  if phrase = "" ∨ phrase = "random" then do
    let pair ← ask keys.random
    Prog.ofExcept pair
  else Prog.ofExcept (keys.withSecret phrase)

/-- Make a key pair and print it. -/
def createWallet {α : Type} (env : Env ν) (keys : Keys ν) (phrase : String) (output : Bool) :
    M ν α := do
  let pair ← makePair keys phrase
  printKey env output "Wallet private key: " pair Pair.privateKey
  printKey env output "        public key: " pair Pair.publicKey
  Prog.halt (.exit 0)

/-- What `parse_cmdline` does with the arguments. -/
def checkArguments (env : Env ν) (keys : Keys ν) (desc : String) (args : Arguments) :
    M ν (Option Options) :=
  if args.help then printAndExit [desc, ext]
  else match args.wallet with
    | some phrase => createWallet env keys phrase args.output
    | none =>
      if args.options.method = "" then printAndExit [desc, ext]
      else pure (some args.options)

/-- `parse_cmdline(ac, av)` -/
def parseCmdline (env : Env ν) (keys : Keys ν) (desc : String) :
    Except Exn Arguments → M ν (Option Options) :=
  parseBlock (checkArguments env keys desc)

/-- The process; `main` also sets the timeout of the clients, which `parse_cmdline` does last. -/
def process (env : Env ν) (api : Api) (keys : Keys ν) (desc : String)
    (parsed : Except Exn Arguments) (fuel : ℕ) : M ν Unit :=
  start (parseCmdline env keys desc parsed) fun opts => main env api opts fuel

/-- The command line asks for a call. -/
structure Arguments.Complete (args : Arguments) : Prop where
  help : args.help = false
  wallet : args.wallet = none
  method : args.options.method ≠ ""

variable {env : Env ν} {keys : Keys ν}

theorem printKey_idle (output : Bool) (label : String) (pair : Option Pair) (key : Pair → String) :
    (printKey env output label pair key).Ensures Idle := by
  have hcout : ∀ text, (Prog.emit (.cout text) : M ν Unit).Ensures Idle :=
    fun text => .emit ⟨nofun, by simp [Event.IsIdle, Event.isOutput]⟩
  have hread : (Transfer.readPair env pair).Ensures Idle := by
    cases pair with
    | some pair => exact .pure ⟨nofun, by simp⟩
    | none =>
      refine Prog.Ensures.emit_bind (.ask_bind fun a => ?_)
      have hundef : ∀ e ∈ [Event.undefined .emptyPair], e.IsIdle := by simp [Event.IsIdle]
      cases a with
      | some pair => exact .pure ⟨nofun, hundef⟩
      | none => exact .halt ⟨fun s hs => by cases hs; rfl, hundef⟩
  exact idle_bind (hcout _) fun _ => idle_bind hread fun _ => hcout _

theorem makePair_idle (phrase : String) : (makePair keys phrase).Ensures Idle := by
  have hof : ∀ r, (Prog.ofExcept r : M ν (Option Pair)).Ensures Idle := by
    rintro (e | pair)
    · exact .raise ⟨nofun, by simp⟩
    · exact .pure ⟨nofun, by simp⟩
  unfold makePair
  split_ifs
  · exact .ask_bind fun r => hof r
  · exact hof _

theorem createWallet_escapes (phrase : String) (output : Bool) :
    (createWallet env keys phrase output : M ν (Option Options)).Ensures Escapes := by
  refine escapes_bind (makePair_idle phrase) fun pair => ?_
  refine escapes_bind (printKey_idle output _ pair _) fun _ => ?_
  refine escapes_bind (printKey_idle output _ pair _) fun _ => ?_
  exact .halt (.inr ⟨.inr (.inl rfl), by simp⟩)

/-- With an incomplete command line the process prints the descriptions, or makes a key pair. -/
theorem checkArguments_escapes {args : Arguments} (desc : String) (h : ¬ args.Complete) :
    (checkArguments env keys desc args).Ensures Escapes := by
  have hprint : (printAndExit [desc, ext] : M ν (Option Options)).Ensures Escapes :=
    (printAndExit_leaves [desc, ext]).mono fun _ _ => .inr
  unfold checkArguments
  cases hhelp : args.help with
  | true => exact hprint
  | false =>
    cases hwallet : args.wallet with
    | some phrase => exact createWallet_escapes phrase args.output
    | none =>
      by_cases hmethod : args.options.method = ""
      · simpa [hmethod] using hprint
      · exact absurd ⟨hhelp, hwallet, hmethod⟩ h

theorem checkArguments_complete {args : Arguments} (desc : String) (h : args.Complete) :
    checkArguments env keys desc args = pure (some args.options) := by
  simp [checkArguments, h.help, h.wallet, h.method]

theorem process_cases (env : Env ν) (api : Api) (keys : Keys ν) (desc : String)
    (parsed : Except Exn Arguments) (fuel : ℕ) (w : World ν) :
    (∃ args, parsed = .ok args ∧ args.Complete ∧
      process env api keys desc parsed fuel w = main env api args.options fuel w) ∨
    Idles (process env api keys desc parsed fuel w).outcome
      (process env api keys desc parsed fuel w).trace :=
  start_cases (fun _ => checkArguments_complete desc) (fun _ => checkArguments_escapes desc) parsed
    (fun opts => main env api opts fuel) w

/-- **A payment of the process is one that its command line asks for**: the command line is
complete, and the body is that of a transaction that the factory has made from just its method and
parameters, with a block id that the node has told before.  What is not written is told by nobody:
the id, where the node has told a text that is no id or an empty one is read, and the body, where
the factory has made no transaction. -/
theorem process_transactions (env : Env ν) (api : Api) (keys : Keys ν) (desc : String)
    (parsed : Except Exn Arguments) (fuel : ℕ) (w : World ν) :
    ∀ u s req a v, (process env api keys desc parsed fuel w).trace = u ++ .write s req a :: v →
      req.rpcMethod = some "send-transaction" →
      ∃ args, parsed = .ok args ∧ args.Complete ∧ ∃ (id : UInt64) (x : Json),
        req.payload = some ((command "send-transaction" .null id).set "params" x) ∧
          ((∃ blockId call tx,
              Rpc.Client.Asks api (args.options.json api) blockId args.options.method call ∧
              Rpc.Client.UsedBlockId api blockId u ∧ .created call (.ok (some tx)) ∈ u ∧
              tx.body = some x) ∨
            .undefined .emptyTransaction ∈ u) := by
  intro u s req a v htrace hm
  rcases process_cases env api keys desc parsed fuel w with
    ⟨args, hparsed, hcomplete, hrun⟩ | hidles
  · rw [hrun] at htrace
    have hgrounded := (main_justified env api args.options fuel).grounded trivial w
    obtain ⟨id, x, hpayload, hbody | hnone⟩ := hgrounded.payment htrace hm
    · refine ⟨args, hparsed, hcomplete, id, x, hpayload, ?_⟩
      rcases hgrounded.madeBody htrace hbody with ⟨call, tx, hcreated, hmade, hx⟩ | hundef
      · obtain ⟨_, _, blockId, hid, ⟨rfl, rfl⟩, hasks⟩ := hmade
        exact .inl ⟨blockId, call, tx, hasks, hid, hcreated, hx⟩
      · exact .inr hundef
    · exact hnone.elim
  · exact absurd htrace hidles.not_write

/-- The command line of the same transfer. -/
def transferArguments : Arguments :=
  ⟨false, none, false, some "http://h", some "send-transfer", some transferParams.text, none, none⟩

/-- A library that makes no key pairs. -/
def noKeys : Keys ν := ⟨fun n => (.ok none, n), fun _ => .ok none⟩

theorem process_transactions_late :
    let api : Api := .sample [blockIdReply, sentReply, transferParams]
    ∃ u s req a v, (process lateNode api noKeys "" (.ok transferArguments) 3
        (World.init 0)).trace = u ++ .write s req a :: v ∧
      req.rpcMethod = some "send-transaction" ∧
      ∃ args, (.ok transferArguments : Except Exn Arguments) = .ok args ∧ args.Complete ∧
        ∃ (id : UInt64) (x : Json),
          req.payload = some ((command "send-transaction" .null id).set "params" x) ∧
            ((∃ blockId call tx,
                Rpc.Client.Asks api (args.options.json api) blockId args.options.method call ∧
                Rpc.Client.UsedBlockId api blockId u ∧ .created call (.ok (some tx)) ∈ u ∧
                tx.body = some x) ∨
              .undefined .emptyTransaction ∈ u) := by
  intro api
  obtain ⟨u, s, req, a, v, htrace, hm⟩ := exists_write_of_mem
    (t := (process lateNode api noKeys "" (.ok transferArguments) 3 (World.init 0)).trace)
    (m := "send-transaction") (by decide +kernel)
  exact ⟨u, s, req, a, v, htrace, hm, process_transactions _ _ _ _ _ _ _ u s req a v htrace hm⟩

end Wallet

end Cli

end MileRpc
