import MileRpc.Rpc.Law
import MileRpc.Rpc.Trace
import Mathlib.Data.List.Nodup

/-!
# Commands of a process

A process uses any number of clients, in any order (`runOps`); they share the one counter of the
command ids.  The ids of its commands are consecutive from the counter on, so that they differ as
long as the counter does not wrap around (`Numbered`).

The parameters of a command are null where a function leaves them to their default, so that the six
queries without parameters make requests that JSON-RPC does not allow.  A run of the other functions
makes valid requests only (`commands_valid`).
-/

namespace MileRpc

/-- An object or an array. -/
def Json.IsStructured : Json → Prop
  | .object _ => True
  | .array _ => True
  | _ => False

/-- A request object of JSON-RPC 2.0 with an id. -/
structure ValidRequest (body : Json) : Prop where
  jsonrpc : body.member? "jsonrpc" = some (.string "2.0")
  method : ∃ m, body.member? "method" = some (.string m)
  params : ∃ p, body.member? "params" = some p ∧ p.IsStructured

/-- The `n` ids from `k` on. -/
def commandIds (k : UInt64) (n : ℕ) : List (Option Json) :=
  (List.range n).map fun i => some (.integer (k + UInt64.ofNat i).toNat)

theorem commandIds_add (k : UInt64) (m n : ℕ) :
    commandIds k (m + n) = commandIds k m ++ commandIds (k + UInt64.ofNat m) n := by
  simp [commandIds, List.range_add, Function.comp_def, UInt64.add_assoc]

theorem commandIds_one (k : UInt64) : commandIds k 1 = [some (.integer k.toNat)] := by
  have hk : k + UInt64.ofNat 0 = k := UInt64.add_zero k
  change [some (Json.integer (k + UInt64.ofNat 0).toNat)] = _
  rw [hk]

theorem commandIds_nodup (k : UInt64) {n : ℕ} (hn : n ≤ 2 ^ 64) : (commandIds k n).Nodup := by
  refine List.Nodup.map_on (fun i hi j hj h => ?_) List.nodup_range
  have hi' : i < 2 ^ 64 := (List.mem_range.1 hi).trans_le hn
  have hj' : j < 2 ^ 64 := (List.mem_range.1 hj).trans_le hn
  rw [Option.some.injEq, Json.integer.injEq, Int.ofNat_inj, UInt64.toNat_inj] at h
  have hnat := congrArg UInt64.toNat ((UInt64.add_right_inj k).1 h)
  rwa [UInt64.toNat_ofNat_of_lt' hi', UInt64.toNat_ofNat_of_lt' hj'] at hnat

/-- The commands are valid, and numbered from the first counter to the second. -/
structure Numbered (k : UInt64) (bodies : List Json) (k' : UInt64) : Prop where
  valid : ∀ b ∈ bodies, ValidRequest b
  ids : bodies.map (·.member? "id") = commandIds k bodies.length
  next : k' = k + UInt64.ofNat bodies.length

theorem Numbered.nil (k : UInt64) : Numbered k [] k :=
  ⟨by simp, rfl, by simp⟩

theorem Numbered.append {k k' k'' : UInt64} {t u : List Json} (ht : Numbered k t k')
    (hu : Numbered k' u k'') : Numbered k (t ++ u) k'' where
  valid b hb := (List.mem_append.1 hb).elim (ht.valid b) (hu.valid b)
  ids := by rw [List.map_append, ht.ids, hu.ids, ht.next, List.length_append, commandIds_add]
  next := by rw [hu.next, ht.next, List.length_append, UInt64.ofNat_add, UInt64.add_assoc]

/-- The law that the commands are valid and numbered by the counter. -/
def numbering (ν : Type) : Law (World ν) Event Stop where
  Moves w t w' := Numbered w.nextId (requests t) w'.nextId
  Stops w t _ := ∃ k, Numbered w.nextId (requests t) k
  Fair _ := True
  moves_nil w := Numbered.nil w.nextId
  moves_append ht hu := by
    rw [requests_append]
    exact ht.append hu
  stops_append ht := fun ⟨k, hu⟩ => ⟨k, by
    rw [requests_append]
    exact ht.append hu⟩
  fair_append _ := ⟨trivial, trivial⟩

theorem numbering_lenient (ν : Type) : (numbering ν).Lenient where
  quiet {w w'} hid _ _ := by
    change Numbered w.nextId [] w'.nextId
    rw [hid]
    exact Numbered.nil _
  plain {e} he w _ := by
    have hnone : requests [e] = [] := by cases e <;> first | rfl | cases he
    change Numbered w.nextId (requests [e]) w.nextId
    rw [hnone]
    exact Numbered.nil _
  crash w := ⟨w.nextId, Numbered.nil _⟩
  reply w _ := Numbered.nil w.nextId

theorem numbering_command {ν : Type} {body : Json} (w : World ν) (hvalid : ValidRequest body)
    (hid : body.member? "id" = some (.integer w.nextId.toNat)) :
    (numbering ν).Moves w [.request body] w.nextCommand := by
  change Numbered w.nextId [body] (w.nextId + 1)
  exact ⟨by simpa using hvalid, by simp [commandIds_one, hid], rfl⟩

theorem command_valid {m : String} {p : Json} (id : UInt64) (hp : p.IsStructured) :
    ValidRequest (command m p id) :=
  ⟨by simp [command], ⟨m, by simp [command, List.lookup_cons]⟩,
    ⟨p, by simp [command, List.lookup_cons], hp⟩⟩

theorem set_params_valid {m : String} {x : Json} (id : UInt64) (hx : x.IsStructured) :
    ValidRequest ((command m .null id).set "params" x) := by
  refine ⟨?_, ⟨m, ?_⟩, ⟨x, Json.member?_set _ _, hx⟩⟩
  · rw [command, Json.member?_set_of_ne _ (by decide)]
    simp
  · rw [command, Json.member?_set_of_ne _ (by decide)]
    simp [List.lookup_cons]

namespace Rpc

/-- A public function of the client, with its arguments. -/
inductive ClientOp where
  | ping
  | getCurrentBlockId
  | getNetworkState
  | getNodes
  | getBlockchainInfo
  | getBlockchainState
  | getBlock (id : UInt256)
  | getWalletState (publicKey : String)
  | getWalletTransactions (publicKey : String) (limit : UInt32)
  | sendTransaction (pair : Pair) (transactionData : Json)

namespace ClientOp

/-- The function is called, and its result is dropped. -/
def run {ν : Type} (env : Env ν) (api : Api) (c : Client ν) : ClientOp → M ν Unit
  | ping => (fun _ => ()) <$> c.ping env api
  | getCurrentBlockId => (fun _ => ()) <$> c.getCurrentBlockId env api
  | getNetworkState => (fun _ => ()) <$> c.getNetworkState env api
  | getNodes => (fun _ => ()) <$> c.getNodes env api
  | getBlockchainInfo => (fun _ => ()) <$> c.getBlockchainInfo env api
  | getBlockchainState => (fun _ => ()) <$> c.getBlockchainState env api
  | getBlock id => (fun _ => ()) <$> c.getBlock env api id
  | getWalletState key => (fun _ => ()) <$> c.getWalletState env api key
  | getWalletTransactions key limit => (fun _ => ()) <$> c.getWalletTransactions env api key limit
  | sendTransaction pair x => (fun _ => ()) <$> c.sendTransaction env api pair x

/-- The function gives its command parameters, which are structured. -/
def HasParams : ClientOp → Prop
  | getBlock _ => True
  | getWalletState _ => True
  | getWalletTransactions _ _ => True
  | sendTransaction _ x => x.IsStructured
  | _ => False

end ClientOp

/-- Run functions of clients one after the other, also after an exception. -/
def runOps {ν : Type} (env : Env ν) (api : Api) : List (Client ν × ClientOp) → M ν Unit
  | [] => pure ()
  | (c, op) :: ops => do
    (op.run env api c).tryCatch fun _ => pure ()
    runOps env api ops

variable {ν : Type} {env : Env ν} {api : Api}

/-- A function that gives its command parameters keeps the numbering. -/
theorem ClientOp.run_keeps {c : Client ν} {op : ClientOp} (hop : op.HasParams)
    (hc : c.Keeping (numbering ν) True True) :
    (numbering ν).Keeps (fun _ => True) True (op.run env api c) := by
  have hquery : ∀ m p, p.IsStructured → (numbering ν).Keeps (fun _ => True) True
      ((fun _ => ()) <$> c.query env api m p) := fun m p hp =>
    (Client.query_keeps (numbering_lenient ν) hc fun w => numbering_command w
      (command_valid w.nextId hp) (by simp [command, List.lookup_cons])).map _ fun _ _ => trivial
  cases op with
  | getBlock id => exact hquery _ _ trivial
  | getWalletState key => exact hquery _ _ trivial
  | getWalletTransactions key limit => exact hquery _ _ trivial
  | sendTransaction pair x =>
    refine (Client.sendTransaction_keeps (numbering_lenient ν) hc fun w => numbering_command w
      (set_params_valid w.nextId hop) ?_).map _ fun _ _ => trivial
    rw [command, Json.member?_set_of_ne _ (by decide)]
    simp [List.lookup_cons]
  | _ => exact hop.elim

theorem runOps_keeps {ops : List (Client ν × ClientOp)} (hops : ∀ p ∈ ops, p.2.HasParams)
    (hc : ∀ p ∈ ops, p.1.Keeping (numbering ν) True True) :
    (numbering ν).Keeps (fun _ => True) True (runOps env api ops) := by
  induction ops with
  | nil => exact .pure trivial
  | cons p ops ih =>
    obtain ⟨c, op⟩ := p
    refine Law.Keeps.andThen (A := fun _ => True) ?_ fun _ _ => ?_
    · exact (ClientOp.run_keeps (hops _ List.mem_cons_self) (hc _ List.mem_cons_self)).tryCatch
        fun _ e => .pure trivial
    · exact ih (fun p hp => hops p (List.mem_cons_of_mem _ hp)) fun p hp =>
        hc p (List.mem_cons_of_mem _ hp)

/-- **Every command is a valid request with an id of its own**, in any run of the functions that
give their commands parameters, on any clients, with fewer than `2 ^ 64` commands.  The handlers may
call the clients too, if they keep the numbering. -/
theorem commands_valid (env : Env ν) (api : Api) {ops : List (Client ν × ClientOp)}
    (hops : ∀ p ∈ ops, p.2.HasParams)
    (hh : ∀ p ∈ ops, HandlersKeep (numbering ν) True True p.1.responseFail p.1.error) {w : World ν}
    (hlt : (requests (runOps env api ops w).trace).length < 2 ^ 64) :
    (∀ b ∈ requests (runOps env api ops w).trace, ValidRequest b) ∧
      ((requests (runOps env api ops w).trace).map (·.member? "id")).Nodup := by
  have hkeeps : (numbering ν).Keeps (fun _ => True) True (runOps env api ops) :=
    runOps_keeps hops hh
  have hrun := hkeeps w trivial
  obtain ⟨k, hk⟩ : ∃ k, Numbered w.nextId (requests (runOps env api ops w).trace) k := by
    unfold Law.Meets at hrun
    split at hrun
    · exact ⟨_, hrun.1⟩
    · exact ⟨_, hrun.1⟩
    · exact hrun
  exact ⟨hk.valid, hk.ids ▸ commandIds_nodup _ hlt.le⟩

theorem logging_numbering (s : Session) :
    HandlersKeep (numbering ν) True True (Client.logging s : Client ν).responseFail
      (Client.logging s).error where
  responseFail _ _ _ := fun w _ => ⟨Numbered.nil w.nextId, trivial⟩
  error _ _ := fun w _ => ⟨Numbered.nil w.nextId, trivial⟩

/-- Two queries with parameters. -/
theorem commands_valid_two :
    (∀ b ∈ requests (runOps (Env.answering fun n : Unit => (⟨200, ""⟩, n)) (.sample [])
        [(Client.logging .sample, .getWalletState "k"), (Client.logging .sample, .getBlock 7)]
        (World.init ())).trace, ValidRequest b) ∧
      ((requests (runOps (Env.answering fun n : Unit => (⟨200, ""⟩, n)) (.sample [])
        [(Client.logging .sample, .getWalletState "k"), (Client.logging .sample, .getBlock 7)]
        (World.init ())).trace).map (·.member? "id")).Nodup :=
  commands_valid _ _ (by simp [ClientOp.HasParams]) (by simp [logging_numbering])
    (by decide +kernel)

/-- The parameters of a ping are null. -/
theorem ping_not_valid :
    ¬ ∀ b ∈ requests (runOps (Env.answering fun n : Unit => (⟨200, ""⟩, n)) (.sample [])
        [(Client.logging .sample, .ping)] (World.init ())).trace, ValidRequest b := by
  intro h
  obtain ⟨p, hp, hs⟩ := (h (command "ping" .null 0) (List.mem_singleton_self _)).params
  obtain rfl : Json.null = p := by simpa [command, List.lookup_cons] using hp
  exact hs

end Rpc

end MileRpc
