import MileRpc.Rpc.CallProvenance
import MileRpc.Rpc.Program

/-!
# The payments of a program

A payment on the wire goes back, step by step, to what it was made for (`Grounded.payment`): the
request was for a body that may be sent, and that is the body of a transaction that may be made.

For a program that uses clients, that is what its steps ask for (`runActs_payments`): there is no
payment in its run that none of its calls has asked for, or with other parameters.  Its block id is
one that the node has told, unless a reply told no id or an empty optional was read.
-/

namespace MileRpc

open Rpc.Client

variable {ν : Type} {api : Api} {P : Purpose} {t u v : List Event}

/-! ### Payments -/

/-- A grounded event of the past has its grounds there. -/
theorem Grounded.of_mem {E : Type} {J : List E → E → Prop} {t u v : List E} {e : E}
    (ht : Grounded J t) (htu : t = u ++ v) (he : e ∈ u) : ∃ u₁ u₂, u = u₁ ++ u₂ ∧ J u₁ e := by
  obtain ⟨u₁, u₂, rfl⟩ := List.append_of_mem he
  exact ⟨u₁, e :: u₂, rfl, ht u₁ e (u₂ ++ v) (by simp [htu])⟩

/-- The JSON-RPC method that a written request is for. -/
def HttpRequest.rpcMethod (req : HttpRequest) : Option String := req.payload.bind methodOf

/-- The JSON-RPC method that an event writes. -/
def Event.rpcMethod : Event → Option String
  | .write _ req _ => req.rpcMethod
  | _ => none

theorem exists_write_of_mem {m : String} (hm : m ∈ t.filterMap Event.rpcMethod) :
    ∃ u s req a v, t = u ++ .write s req a :: v ∧ req.rpcMethod = some m := by
  obtain ⟨e, he, hwrites⟩ := List.mem_filterMap.1 hm
  cases e with
  | write s req a =>
    obtain ⟨u, v, htrace⟩ := List.append_of_mem he
    exact ⟨u, s, req, a, v, htrace, hwrites⟩
  | _ => cases hwrites

/-- The body of a transaction that was made for the purpose, or that was read where there was
none. -/
def MadeBody (P : Purpose) (x : Json) : Fact Event :=
  (Fact.any fun call => Fact.any fun tx : Transaction =>
    (Fact.seen (.created call (.ok (some tx)))).and
      ((P.made call).and (.always (tx.body = some x)))).or (.seen (.undefined .emptyTransaction))

theorem Grounded.madeBody (ht : Grounded (Sourced api P) t) (htu : t = u ++ v) {x : Json}
    (hx : .body (some x) ∈ u) : MadeBody P x u := by
  obtain ⟨u₁, u₂, rfl, hbody⟩ := ht.of_mem htu hx
  refine (MadeBody P x).persists u₂ ?_
  generalize hb : some x = b at hbody
  cases hbody with
  | free he => cases he
  | @body call tx hcreated =>
    obtain ⟨u₀, w, rfl, hmade⟩ := ht.of_mem (v := u₂ ++ v) (by simp [htu]) hcreated
    cases hmade with
    | free he => cases he
    | created _ hcall => exact .inl ⟨call, tx, hcreated, (P.made call).persists w hcall, hb.symm⟩
  | staleBody _ hundef => exact .inr hundef

/-- **A payment on the wire** is a command to send a body that may be sent. -/
theorem Grounded.payment (ht : Grounded (Sourced api P) t) {s : Session} {req : HttpRequest}
    {a : WriteAnswer} (htu : t = u ++ .write s req a :: v)
    (hm : req.rpcMethod = some "send-transaction") :
    ∃ (id : UInt64) (x : Json),
      req.payload = some ((command "send-transaction" .null id).set "params" x) ∧ P.sent x u := by
  cases ht u _ v htu with
  | free he => cases he
  | get => cases hm
  | @write _ body data _ hbody hdata =>
    obtain ⟨u₁, u₂, rfl, hrequest⟩ := ht.of_mem htu hbody
    have hmethod : methodOf body = some "send-transaction" := hm
    cases hrequest with
    | free he => cases he
    | @query m p id hne _ =>
      rw [methodOf_command] at hmethod
      exact absurd (Option.some.inj hmethod) hne
    | @send x id hx => exact ⟨id, x, rfl, (P.sent x).persists u₂ hx⟩

/-! ### Programs -/

/-- The purpose of a program that makes these calls, and that asks these queries and sends these
bodies itself. -/
def Purpose.ofCalls (api : Api) (called asked : String → Json → Prop) (sent : Json → Prop)
    (printed : String → Fact Event) : Purpose where
  asked m p := asked m p ∨
    ∃ method params, called method params ∧ AsksQuery api params method m p
  made call := .any fun method => .any fun params => .any fun blockId =>
    (UsedBlockId api blockId).and
      (.always (called method params ∧ Asks api params blockId method call))
  sent x := (Fact.seen (.body (some x))).or (.always (sent x))
  printed := printed
  undefined
    | .emptyBlockId => .seen (.blockId none)
    | .missingKey => .always (∃ params, called "get-block" params ∧ params.member? "id" = none)
    | _ => .always False

theorem Purpose.serves {called asked : String → Json → Prop} {sent : Json → Prop}
    {printed : String → Fact Event} {method : String} {params : Json} (h : called method params) :
    Serves api (.ofCalls api called asked sent printed) method params where
  asked hquery := .inr ⟨method, params, h, hquery⟩
  made hcall hid := ⟨method, params, _, hid, h, hcall⟩
  sent hbody := .inl hbody
  emptyBlockId hnone := hnone
  missingKey hm hmissing _ := ⟨params, hm ▸ h, hmissing⟩

/-- The query that a function of a client makes. -/
def Rpc.ClientOp.query? (api : Api) : Rpc.ClientOp → Option (String × Json)
  | .ping => some ("ping", .null)
  | .getCurrentBlockId => some ("get-current-block-id", .null)
  | .getNetworkState => some ("get-network-state", .null)
  | .getNodes => some ("get-nodes", .null)
  | .getBlockchainInfo => some ("get-blockchain-info", .null)
  | .getBlockchainState => some ("get-blockchain-state", .null)
  | .getBlock id => some ("get-block-by-id", .object [("id", api.uint256ToJson id)])
  | .getWalletState key => some ("get-wallet-state", .object [("public-key", .string key)])
  | .getWalletTransactions key limit => some ("get-wallet-transactions",
      .object [("public-key", .string key), ("limit", .integer limit.toNat)])
  | .sendTransaction _ _ => none

/-- The purpose of the steps of a program. -/
def Purpose.ofActs (api : Api) (acts : List Act) : Purpose :=
  .ofCalls api (fun method params => ∃ i, .call i method params ∈ acts)
    (fun m p => ∃ i op, .op i op ∈ acts ∧ op.query? api = some (m, p))
    (fun x => ∃ i pair, .op i (.sendTransaction pair x) ∈ acts) fun _ => .always False

variable {env : Env ν} {K : Fact Event} {responseFail : ResponseHandler ν} {error : ErrorHandler ν}

theorem Rpc.ClientOp.run_learns {c : Rpc.Client ν}
    (hh : HandlersJustified api P c.responseFail c.error) (op : Rpc.ClientOp)
    (hask : ∀ m p, op.query? api = some (m, p) → P.asked m p)
    (hsend : ∀ pair x, op = .sendTransaction pair x → ∀ h, P.sent x h) :
    (op.run env api c).Learns (Sourced api P) K fun _ => .always True := by
  have hG := sourced_graded (ν := ν) api P K
  have hquery : ∀ {m : String} {p : Json}, m ≠ "send-transaction" →
      op.query? api = some (m, p) →
      ((fun _ => ()) <$> c.query env api m p).Learns (Sourced api P) K fun _ => .always True :=
    fun hm hop => hG.map (n := 0) _ ((query_learns hh hm (hask _ _ hop)).weaken
      fun _ _ _ => trivial)
  cases op with
  | ping => exact hG.map (n := 0) _ (ping_learns hh (hask _ _ rfl))
  | getCurrentBlockId =>
    exact hG.map (n := 0) _ ((getCurrentBlockId_learns hh (hask _ _ rfl)).weaken
      fun _ _ _ => trivial)
  | sendTransaction pair x =>
    exact hG.map (n := 0) _ ((sendTransaction_learns hh fun h _ => hsend pair x rfl h).weaken
      fun _ _ _ => trivial)
  | _ => exact hquery (by decide) rfl

/-- The clients have justified handlers. -/
structure Clients.Justified (api : Api) (P : Purpose) (cs : Clients ν) : Prop where
  rpc : ∀ c ∈ cs.rpc, HandlersJustified api P c.responseFail c.error
  http : ∀ c ∈ cs.http, ∀ code text, (c.error code text).Justified api P

theorem learns_useClient {C : Type} {cs : List C} (i : ℕ) {f : C → M ν Unit}
    (hf : ∀ c ∈ cs, (f c).Learns (Sourced api P) K fun _ => .always True) :
    (useClient cs i f).Learns (Sourced api P) K fun _ => .always True := by
  unfold useClient
  split
  · exact (hf _ (List.mem_of_getElem? ‹_›)).tryCatch fun _ => .pure fun _ _ => trivial
  · exact .pure fun _ _ => trivial

/-- **A program keeps to its purpose.**  By induction on the steps. -/
theorem runActs_learns (hh : HandlersJustified api P responseFail error) (acts : List Act) :
    (∀ i method params, .call i method params ∈ acts → Serves api P method params) →
    (∀ i op, .op i op ∈ acts → ∀ m p, op.query? api = some (m, p) → P.asked m p) →
    (∀ i pair x, .op i (.sendTransaction pair x) ∈ acts → ∀ h, P.sent x h) →
    ∀ {K : Fact Event} (cs : Clients ν), cs.Justified api P →
      (runActs env api responseFail error cs acts).Learns (Sourced api P) K
        fun _ => .always True := by
  induction acts with
  | nil => exact fun _ _ _ _ _ _ => .pure fun _ _ => trivial
  | cons act acts ih =>
    intro hcalls hasks hsends K cs hcs
    have ih := fun {K : Fact Event} => ih (fun i m p h => hcalls i m p (List.mem_cons_of_mem _ h))
      (fun i op h => hasks i op (List.mem_cons_of_mem _ h))
      (fun i pair x h => hsends i pair x (List.mem_cons_of_mem _ h)) (K := K)
    have hG := sourced_graded (ν := ν) api P K
    cases act with
    | connect urlString verifySsl =>
      refine Prog.Learns.bind (.tryCatch (Rpc.Client.connect_learns hh.error urlString verifySsl)
        fun _ => .pure fun _ _ => nofun) fun r => .assume fun hr => ih _ ⟨fun c hc => ?_, hcs.http⟩
      rcases List.mem_append.1 hc with hc | hc
      · exact hcs.rpc c hc
      · obtain ⟨hfail, herror⟩ := hr c (by simpa using hc)
        exact hfail ▸ herror ▸ hh
    | httpConnect urlString verifySsl =>
      refine Prog.Learns.bind (.tryCatch (Http.Client.connect_learns hh.error urlString verifySsl)
        fun _ => .pure fun _ _ => nofun) fun r => .assume fun hr => ih _ ⟨hcs.rpc, fun c hc => ?_⟩
      rcases List.mem_append.1 hc with hc | hc
      · exact hcs.http c hc
      · exact hr c (by simpa using hc) ▸ hh.error
    | op i op =>
      refine (learns_useClient i fun c hc => ?_).bind fun _ => ih cs hcs
      exact op.run_learns (hcs.rpc c hc) (hasks i op List.mem_cons_self) fun pair x hop =>
        hsends i pair x (hop ▸ List.mem_cons_self)
    | call i method params =>
      refine (learns_useClient i fun c hc => hG.map (n := 0) _ ?_).bind fun _ => ih cs hcs
      exact (call_learns (hcalls i method params List.mem_cons_self) (hcs.rpc c hc)).weaken
        fun _ _ _ => trivial
    | get i =>
      refine (learns_useClient i fun c hc => hG.map (n := 0) _ ?_).bind fun _ => ih cs hcs
      exact Http.Client.get_learns (hcs.http c hc)

/-- **Every payment of a program was asked for.**  If a run writes a payment, then a step of the
program sends its body itself, or a step calls a method with parameters that ask for it: its body is
that of a transaction that the factory has made from just these and a block id.  The node has told
that id before, or a text that is no id, or an empty optional was read for it.  The handlers may do
what the steps may. -/
theorem runActs_payments (env : Env ν) (acts : List Act)
    (hh : HandlersJustified api (.ofActs api acts) responseFail error) (w : World ν) :
    ∀ u s req a v, (runActs env api responseFail error ⟨[], []⟩ acts w).trace =
        u ++ .write s req a :: v → req.rpcMethod = some "send-transaction" →
      ∃ (id : UInt64) (x : Json),
        req.payload = some ((command "send-transaction" .null id).set "params" x) ∧
          ((∃ i pair, .op i (.sendTransaction pair x) ∈ acts) ∨
            (∃ i method params blockId call tx, .call i method params ∈ acts ∧
              Asks api params blockId method call ∧ UsedBlockId api blockId u ∧
              .created call (.ok (some tx)) ∈ u ∧ tx.body = some x) ∨
            .undefined .emptyTransaction ∈ u) := by
  intro u s req a v htrace hm
  have hrun : (runActs env api responseFail error ⟨[], []⟩ acts).Justified api
      (.ofActs api acts) :=
    runActs_learns hh acts (fun i m p h => Purpose.serves ⟨i, h⟩)
      (fun i op h m p hop => .inl ⟨i, op, h, hop⟩)
      (fun i pair x h _ => .inr ⟨i, pair, h⟩) _ ⟨by simp, by simp⟩
  have hgrounded := hrun.grounded trivial w
  obtain ⟨id, x, hpayload, hsent⟩ := hgrounded.payment htrace hm
  refine ⟨id, x, hpayload, ?_⟩
  rcases hsent with hbody | hasked
  · rcases hgrounded.madeBody htrace hbody with ⟨call, tx, hcreated, hmade, hx⟩ | hundef
    · obtain ⟨method, params, blockId, hid, ⟨i, hi⟩, hasks⟩ := hmade
      exact .inr (.inl ⟨i, method, params, blockId, call, tx, hi, hasks, hid, hcreated, hx⟩)
    · exact .inr (.inr hundef)
  · exact .inl hasked

/-- A node that answers every request with a block id. -/
def tellingNode : Env Unit := .answering fun n =>
  (⟨200, (Json.object [("result", .object [("current-block-id", .string "7")])]).text⟩, n)

/-- The library that reads its answers. -/
def tellingApi : Api := .sample [.object [("result", .object [("current-block-id", .string "7")])]]

/-- A program that asks for one transaction. -/
def unregistering : List Act :=
  [.connect "https://a" true, .call 0 "unregister-node" (.object [("private-key", .string "p")])]

theorem runActs_payments_unregistering :
    ∃ u s req a v, (runActs tellingNode tellingApi logResponse logError ⟨[], []⟩ unregistering
        (World.init ())).trace = u ++ .write s req a :: v ∧
      req.rpcMethod = some "send-transaction" ∧
      ∃ (id : UInt64) (x : Json),
        req.payload = some ((command "send-transaction" .null id).set "params" x) ∧
          ((∃ i pair, .op i (.sendTransaction pair x) ∈ unregistering) ∨
            (∃ i method params blockId call tx, .call i method params ∈ unregistering ∧
              Asks tellingApi params blockId method call ∧ UsedBlockId tellingApi blockId u ∧
              .created call (.ok (some tx)) ∈ u ∧ tx.body = some x) ∨
            .undefined .emptyTransaction ∈ u) := by
  obtain ⟨u, s, req, a, v, htrace, hm⟩ := exists_write_of_mem
    (t := (runActs tellingNode tellingApi logResponse logError ⟨[], []⟩ unregistering
      (World.init ())).trace) (m := "send-transaction") (by decide +kernel)
  exact ⟨u, s, req, a, v, htrace, hm,
    runActs_payments tellingNode unregistering .log _ u s req a v htrace hm⟩

end MileRpc
