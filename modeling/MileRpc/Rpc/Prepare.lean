import MileRpc.Rpc.Trace

/-!
# The checks before a transaction

A function that builds a transaction checks its parameters one after the other before it asks for
the block id.  `prepare` is what these checks compute, as a function of the library and the
parameters: the key pair and the factory call, or the first check that fails and how it fails.  A
missing parameter and a key that does not decode end the function with `std::nullopt`; a parameter
of the wrong type ends it with an exception.

The handlers here are *passive* (`Passive`): they return and leave the state of the client alone.

## Main results

* `transfer_prepared`, `registerNode_prepared`, `unregisterNode_prepared`, `voteForRate_prepared` :
  a function that builds a transaction is its checks followed by `submit`.
-/

namespace MileRpc

/-- The events that a handler may leave. -/
def Event.isOutput : Event → Bool
  | .report _ _ => true
  | .responseFail _ _ => true
  | .cout _ => true
  | .cerr _ => true
  | _ => false

/-- Only output is left. -/
def Outputs (t : List Event) : Prop := ∀ e ∈ t, e.isOutput = true

theorem Outputs.nil : Outputs [] := by simp [Outputs]

theorem Outputs.append (t u : List Event) (ht : Outputs t) (hu : Outputs u) : Outputs (t ++ u) := by
  intro e he
  rcases List.mem_append.1 he with he | he
  · exact ht e he
  · exact hu e he

/-- Handlers that return, write their output and leave the state alone. -/
structure Passive {ν : Type} (responseFail : ResponseHandler ν) (error : ErrorHandler ν) :
    Prop where
  responseFail : ∀ status method res, (responseFail status method res).Ends (.ret ()) Outputs
  error : ∀ code text, (error code text).Ends (.ret ()) Outputs

theorem Passive.handlersReturn {ν : Type} {responseFail : ResponseHandler ν}
    {error : ErrorHandler ν} (hp : Passive responseFail error) :
    HandlersReturn Outputs responseFail error where
  responseFail status method res := (hp.responseFail status method res).ensures
  error code text := (hp.error code text).ensures

theorem Passive.each {ν : Type} {responseFail : ResponseHandler ν} {error : ErrorHandler ν}
    (hp : Passive responseFail error) (reports : List (ResultCode × String)) :
    (Prog.each (fun r => error r.1 r.2) reports).Ends (.ret ()) Outputs :=
  Prog.Ends.each Outputs.nil Outputs.append (fun r => hp.error r.1 r.2) reports

namespace Rpc

/-- How a check fails: with `std::nullopt`, or with an exception. -/
inductive Rejection where
  | missing
  | thrown (e : Exn)

/-- The result of a JSON conversion as a check. -/
def Rejection.ofJson {α : Type} (r : Except JsonError α) : Except Rejection α :=
  r.mapError fun e => .thrown (.json e)

namespace Client

variable {ν : Type} (env : Env ν) (api : Api) (c : Client ν) (method : String) (params : Json)

/-! ### The checks as functions -/

/-- A required parameter. -/
def required (key : String) : Except Rejection Json :=
  match params.member? key with
  | some v => .ok v
  | none => .error .missing

/-- The required key pair. -/
def preparePrivate : Except Rejection Pair := do
  let v ← required params "private-key"
  let key ← Rejection.ofJson v.getString
  match (api.fromPrivateKey key).outcome with
  | .ok (some pair) => .ok pair
  | .ok none => .error .missing
  | .error e => .error (.thrown e)

/-- The required amount. -/
def prepareAmount : Except Rejection Single := do
  let v ← required params "amount"
  Rejection.ofJson v.getFloat

/-- The required asset. -/
def prepareAsset : Except Rejection Token := do
  let v ← required params "asset-code"
  let assetCode ← Rejection.ofJson v.getUnsignedShort
  pure (api.tokenFromCode assetCode)

/-- The optional description. -/
def prepareDescription : Except Rejection String :=
  match params.member? "description" with
  | some v => Rejection.ofJson v.getString
  | none => .ok ""

/-- The checks of `transfer`. -/
def prepareTransfer : Except Rejection (Pair × (UInt256 → M ν CreateCall)) := do
  let _destination ← required params "to"
  let ppk ← preparePrivate api params
  let amount ← prepareAmount params
  let asset ← prepareAsset api params
  let description ← prepareDescription params
  pure (ppk, transferCall env api params ppk asset amount description)

/-- The checks of `register_node`. -/
def prepareRegisterNode : Except Rejection (Pair × (UInt256 → M ν CreateCall)) := do
  let ppk ← preparePrivate api params
  let amount ← prepareAmount params
  let address ← required params "address"
  pure (ppk, registerNodeCall env api ppk amount address)

/-- The checks of `unregister_node`. -/
def prepareUnregisterNode : Except Rejection (Pair × (UInt256 → M ν CreateCall)) := do
  let ppk ← preparePrivate api params
  pure (ppk, unregisterNodeCall env api ppk)

/-- The checks of `vote_for_rate`. -/
def prepareVote : Except Rejection (Pair × (UInt256 → M ν CreateCall)) := do
  let ppk ← preparePrivate api params
  let amount ← prepareAmount params
  pure (ppk, voteCall env api ppk amount)

/-! ### The functions are their checks -/

/-- `x` is the checks `p` followed by `k`: where a parameter is missing it gives up with
`giveUp`. -/
def Checked {α β : Type} (giveUp : β) (k : α → M ν β) (x : M ν β) : Except Rejection α → Prop
  | .ok a => ∀ w, ∃ t, x w = (k a w).prepend t ∧ Outputs t
  | .error .missing => x.Ends (.ret giveUp) Outputs
  | .error (.thrown e) => x.Ends (.throw e) Outputs

section Checks

variable {env api c method params} {error : ErrorHandler ν} {responseFail : ResponseHandler ν}
  {α β γ : Type} {giveUp : γ} {k : β → M ν γ}

/-- A check by itself. -/
abbrev Check (x : M ν (Option α)) (p : Except Rejection α) : Prop :=
  Checked none (fun a => pure (some a)) x p

theorem Check.ends {x : M ν (Option α)} {a : α} (hx : Check x (.ok a)) :
    x.Ends (.ret (some a)) Outputs := by
  intro w
  obtain ⟨t, hxw, ht⟩ := hx w
  exact ⟨t, by simpa [Run.prepend] using hxw, ht⟩

/-- A part that leaves the state alone may stand before the checks. -/
theorem Checked.after {x : M ν α} {f : α → M ν γ} {a : α} {q : Except Rejection β}
    (hx : x.Ends (.ret a) Outputs) (hf : Checked giveUp k (f a) q) :
    Checked giveUp k (x >>= f) q := by
  rcases q with (_ | e) | b
  · exact Prog.Ends.bind Outputs.append hx hf
  · exact Prog.Ends.bind Outputs.append hx hf
  · intro w
    obtain ⟨t, hxw, ht⟩ := hx w
    obtain ⟨u, hfw, hu⟩ := hf w
    refine ⟨t ++ u, ?_, Outputs.append t u ht hu⟩
    rw [Prog.bind_of_ret hxw, hfw, Run.prepend_prepend]

/-- The rule for a check that gives up. -/
theorem Checked.bind {x : M ν (Option α)} {g : Option α → M ν γ} {p : Except Rejection α}
    {q : α → Except Rejection β} (hx : Check x p) (hnone : g none = pure giveUp)
    (hsome : ∀ a, p = .ok a → Checked giveUp k (g (some a)) (q a)) :
    Checked giveUp k (x >>= g) (p >>= q) := by
  rcases p with (_ | e) | a
  · refine Prog.Ends.bind Outputs.append hx ?_
    rw [hnone]
    exact Prog.Ends.pure Outputs.nil
  · exact Prog.Ends.bind_throw hx
  · exact Checked.after hx.ends (hsome a rfl)

/-- The rule for a conversion. -/
theorem Checked.ofJson {r : Except JsonError α} {f : α → M ν γ} {q : α → Except Rejection β}
    (hf : ∀ a, Checked giveUp k (f a) (q a)) :
    Checked giveUp k (MileRpc.ofJson r >>= f) (Rejection.ofJson r >>= q) := by
  cases r with
  | error e => exact Prog.Ends.bind_throw (Prog.Ends.raise Outputs.nil)
  | ok a => exact hf a

/-- The rule for a conversion that is the last check. -/
theorem Checked.ofJson_last {r : Except JsonError β} {f : β → M ν γ}
    (hf : ∀ b, Checked giveUp k (f b) (.ok b)) :
    Checked giveUp k (MileRpc.ofJson r >>= f) (Rejection.ofJson r) := by
  cases r with
  | error e => exact Prog.Ends.bind_throw (Prog.Ends.raise Outputs.nil)
  | ok b => exact hf b

theorem Checked.self (b : β) : Checked giveUp k (k b) (.ok b) :=
  fun _ => ⟨[], rfl, Outputs.nil⟩

theorem require_check (hp : Passive responseFail error) (key what : String) :
    Check (require env method params key what error) (required params key) := by
  unfold require required
  cases h : params.member? key with
  | none =>
    rw [if_pos (Json.count_eq_zero.2 h)]
    exact Prog.Ends.bind Outputs.append (hp.error _ _) (Prog.Ends.pure Outputs.nil)
  | some v =>
    rw [if_neg (by simp [Json.count_eq_zero, h]), readMember_of_member h]
    exact Checked.self v

theorem getPrivate_check (hp : Passive responseFail error) :
    Check (getPrivate env api method params error) (preparePrivate api params) := by
  refine Checked.bind (require_check hp _ _) rfl fun v _ => Checked.ofJson fun key => ?_
  refine Checked.after (hp.each _) ?_
  rcases (api.fromPrivateKey key).outcome with e | _ | pair
  · exact Prog.Ends.raise Outputs.nil
  · exact Prog.Ends.pure Outputs.nil
  · exact Checked.self pair

theorem getAmount_check (hp : Passive responseFail error) :
    Check (getAmount env method params error) (prepareAmount params) :=
  Checked.bind (require_check hp _ _) rfl fun _ _ => Checked.ofJson_last fun amount =>
    Checked.self amount

theorem getAsset_check (hp : Passive responseFail error) :
    Check (getAsset env api method params error) (prepareAsset api params) :=
  Checked.bind (require_check hp _ _) rfl fun _ _ => Checked.ofJson fun assetCode =>
    Checked.self (api.tokenFromCode assetCode)

/-! ### The functions are their checks -/

/-- The end of a function that builds a transaction, from what its checks prepared. -/
def finish (env : Env ν) (api : Api) (c : Client ν) (error : ErrorHandler ν)
    (p : Pair × (UInt256 → M ν CreateCall)) : M ν AnyValue :=
  c.submit env api p.1 p.2 error

theorem submit_checked (pair : Pair) (create : UInt256 → M ν CreateCall) :
    Checked .nullopt (c.finish env api error) (c.submit env api pair create error)
      (.ok (pair, create)) :=
  fun _ => ⟨[], rfl, Outputs.nil⟩

theorem transfer_prepared (hp : Passive responseFail error) :
    Checked .nullopt (c.finish env api error) (c.transfer env api method params error)
      (prepareTransfer env api params) := by
  unfold transfer prepareTransfer required
  cases hto : params.member? "to" with
  | none =>
    rw [if_pos (Json.count_eq_zero.2 hto)]
    exact Prog.Ends.bind Outputs.append (hp.error _ _) (Prog.Ends.pure Outputs.nil)
  | some destination =>
    rw [if_neg (by simp [Json.count_eq_zero, hto])]
    refine Checked.bind (getPrivate_check hp) rfl fun ppk _ => ?_
    refine Checked.bind (getAmount_check hp) rfl fun amount _ => ?_
    refine Checked.bind (getAsset_check hp) rfl fun asset _ => ?_
    unfold getDescription prepareDescription
    cases hd : params.member? "description" with
    | none =>
      rw [if_neg (by simp [Json.count_eq_zero.2 hd])]
      exact submit_checked _ _
    | some v =>
      rw [if_pos (Json.count_pos.2 ⟨v, hd⟩), readMember_of_member hd, pure_bind]
      exact Checked.ofJson fun description => submit_checked _ _

theorem registerNode_prepared (hp : Passive responseFail error) :
    Checked .nullopt (c.finish env api error) (c.registerNode env api method params error)
      (prepareRegisterNode env api params) :=
  Checked.bind (getPrivate_check hp) rfl fun _ _ => Checked.bind (getAmount_check hp) rfl fun _ _ =>
    Checked.bind (require_check hp _ _) rfl fun _ _ => submit_checked _ _

theorem unregisterNode_prepared (hp : Passive responseFail error) :
    Checked .nullopt (c.finish env api error) (c.unregisterNode env api method params error)
      (prepareUnregisterNode env api params) :=
  Checked.bind (getPrivate_check hp) rfl fun _ _ => submit_checked _ _

theorem voteForRate_prepared (hp : Passive responseFail error) :
    Checked .nullopt (c.finish env api error) (c.voteForRate env api method params error)
      (prepareVote env api params) :=
  Checked.bind (getPrivate_check hp) rfl fun _ _ => Checked.bind (getAmount_check hp) rfl fun _ _ =>
    submit_checked _ _

/-- The checks of a method that builds a transaction. -/
def prepare (env : Env ν) (api : Api) (method : String) (params : Json) :
    Option (Except Rejection (Pair × (UInt256 → M ν CreateCall))) :=
  if method = "send-transfer" then some (prepareTransfer env api params)
  else if method = "register-node" then some (prepareRegisterNode env api params)
  else if method = "unregister-node" then some (prepareUnregisterNode env api params)
  else if method = "vote-for-rate" then some (prepareVote env api params)
  else none

/-- The branch of a method that builds a transaction is its checks followed by `submit`. -/
theorem dispatch_prepared (hp : Passive c.responseFail c.error)
    {p : Except Rejection (Pair × (UInt256 → M ν CreateCall))}
    (h : prepare env api method params = some p) :
    Checked .nullopt (c.finish env api c.error) (c.dispatch env api method params) p := by
  unfold prepare at h
  split_ifs at h with h1 h2 h3 h4
  · subst h1
    rw [← Option.some.inj h]
    exact transfer_prepared hp
  · subst h2
    rw [← Option.some.inj h]
    exact registerNode_prepared hp
  · subst h3
    rw [← Option.some.inj h]
    exact unregisterNode_prepared hp
  · subst h4
    rw [← Option.some.inj h]
    exact voteForRate_prepared hp

end Checks

end Client

end Rpc

end MileRpc
