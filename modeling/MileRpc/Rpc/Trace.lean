import MileRpc.Rpc.Call

/-!
# The requests of a call

Which JSON-RPC commands one `Client::call` puts on its session, when the handlers return and do not
use the client themselves (`Quiet`).  Every program of the client is either *silent* (`Silently`),
or it makes the one request of its query, or it is the two-step end of a transaction
(`submit_shape`).  `call_shape` assembles these by the branches of the dispatcher, and
`call_request_trace_iff` says when the trace is the right one.
-/

namespace MileRpc

/-- The commands that were put on a session, in order. -/
def requests (t : List Event) : List Json :=
  t.filterMap fun e => match e with
    | .request b => some b
    | _ => none

/-- The events that build a transaction: the factory was called, its result was read although it was
empty, `get_body` returned. -/
def Event.isBuild : Event → Bool
  | .created _ _ => true
  | .undefined .emptyTransaction => true
  | .body _ => true
  | _ => false

/-- The events that built a transaction, in order. -/
def builds (t : List Event) : List Event := t.filter Event.isBuild

/-- The JSON-RPC methods of the commands. -/
def requestMethods (t : List Event) : List (Option String) := (requests t).map methodOf

@[simp] theorem requests_append (t u : List Event) :
    requests (t ++ u) = requests t ++ requests u := List.filterMap_append
@[simp] theorem builds_append (t u : List Event) : builds (t ++ u) = builds t ++ builds u :=
  List.filter_append ..

/-- No command is sent and no transaction is built. -/
def Silent (t : List Event) : Prop := requests t = [] ∧ builds t = []

theorem Silent.nil : Silent [] := ⟨rfl, rfl⟩

theorem Silent.append {t u : List Event} (ht : Silent t) (hu : Silent u) : Silent (t ++ u) := by
  simp [Silent, ht.1, ht.2, hu.1, hu.2]

/-- The handlers return and leave the client alone. -/
abbrev Quiet {ν : Type} (responseFail : ResponseHandler ν) (error : ErrorHandler ν) : Prop :=
  HandlersReturn Silent responseFail error

section Rules

variable {ν α β : Type} {x : M ν α} {f : α → M ν β}

/-- The commands and the build events of the trace of `x` satisfy `P`. -/
def Shape (x : M ν α) (P : List Json → List Event → Prop) : Prop :=
  x.Ensures fun _ t => P (requests t) (builds t)

/-- `x` sends nothing, and a value it returns satisfies `A`. -/
def Silently (x : M ν α) (A : α → Prop) : Prop :=
  x.Ensures fun o t => Silent t ∧ ∀ a, o = .ret a → A a

theorem Silently.shape {A : α → Prop} (hx : Silently x A)
    {P : List Json → List Event → Prop} (h : P [] []) : Shape x P :=
  hx.mono fun _ _ ht => by rw [ht.1.1, ht.1.2]; exact h

theorem Silently.mono {A B : α → Prop} (hx : Silently x A) (h : ∀ a, A a → B a) : Silently x B :=
  Prog.Ensures.mono hx fun _ _ ht => ⟨ht.1, fun a ha => h a (ht.2 a ha)⟩

theorem Silently.pure {a : α} {A : α → Prop} (h : A a) : Silently (Pure.pure a : M ν α) A :=
  Prog.Ensures.pure ⟨Silent.nil, fun b hb => by cases hb; exact h⟩

theorem Silently.ofExcept (r : Except Exn α) :
    Silently (Prog.ofExcept r : M ν α) fun a => r = .ok a := by
  cases r with
  | ok a => exact Silently.pure rfl
  | error e => exact fun _ => ⟨Silent.nil, fun a h => by cases h⟩

theorem Silently.ofJson (r : Except JsonError α) :
    Silently (MileRpc.ofJson r : M ν α) fun a => r = .ok a := by
  cases r with
  | ok a => exact Silently.pure rfl
  | error e => exact fun _ => ⟨Silent.nil, fun a h => by cases h⟩

theorem Silently.undefinedRead {u : Undefined} (hu : (Event.undefined u).isBuild = false)
    (stale : ν → Option α × ν) : Silently (MileRpc.undefinedRead u stale) fun _ => True := by
  have h : (MileRpc.undefinedRead u stale >>= Pure.pure : M ν α).Ensures
      (fun o t => Silent t ∧ ∀ a, o = .ret a → True) := Prog.Ensures.undefinedRead_bind
    (fun a => Prog.Ensures.pure ⟨⟨rfl, by simp [builds, hu]⟩, fun _ _ => trivial⟩)
    ⟨⟨rfl, by simp [builds, hu]⟩, fun _ _ => trivial⟩
  rwa [bind_pure] at h

/-- The rule for sequencing after a silent part. -/
theorem Silently.bind_shape {A : α → Prop} {P : List Json → List Event → Prop}
    (hx : Silently x A) (h : P [] []) (hf : ∀ a, A a → Shape (f a) P) : Shape (x >>= f) P := by
  refine Prog.Ensures.bind hx (fun a t ht => ?_) (fun e t ht => ?_) fun w t ht => ?_
  · refine (hf a (ht.2 a rfl)).mono fun o u hu => ?_
    simpa [ht.1.1, ht.1.2] using hu
  · rw [ht.1.1, ht.1.2]; exact h
  · rw [ht.1.1, ht.1.2]; exact h

theorem Silently.bind {A : α → Prop} {B : β → Prop} (hx : Silently x A)
    (hf : ∀ a, A a → Silently (f a) B) : Silently (x >>= f) B := by
  refine Prog.Ensures.bind hx (fun a t ht => ?_) (fun e t ht => ?_) fun w t ht => ?_
  · exact Prog.Ensures.mono (hf a (ht.2 a rfl)) fun o u hu => ⟨ht.1.append hu.1, hu.2⟩
  · exact ⟨ht.1, fun b hb => by cases hb⟩
  · exact ⟨ht.1, fun b hb => by cases hb⟩

/-- The rule for sequencing two parts of which both may send. -/
theorem Shape.bind {P Q : List Json → List Event → Prop} (hx : Shape x P)
    (hf : ∀ a rs bs, P rs bs → Shape (f a) fun rs' bs' => Q (rs ++ rs') (bs ++ bs'))
    (hQ : ∀ rs bs, P rs bs → Q rs bs) : Shape (x >>= f) Q := by
  refine Prog.Ensures.bind hx (fun a t ht => ?_) (fun e t ht => hQ _ _ ht) fun w t ht => hQ _ _ ht
  exact Prog.Ensures.mono (hf a _ _ ht) fun o u hu => by simpa using hu

/-- The rule for a silent end. -/
theorem Shape.bind_silently {A : β → Prop} {P : List Json → List Event → Prop}
    (hx : Shape x P) (hf : ∀ a, Silently (f a) A) : Shape (x >>= f) P :=
  hx.bind (fun a rs bs h => (hf a).shape (by simpa using h)) fun _ _ h => h

theorem Shape.mono {P Q : List Json → List Event → Prop} (hx : Shape x P)
    (h : ∀ rs bs, P rs bs → Q rs bs) : Shape x Q :=
  Prog.Ensures.mono hx fun _ _ ht => h _ _ ht

/-- The rule for a silent handler. -/
theorem Shape.tryCatch {A : α → Prop} {P : List Json → List Event → Prop} (hx : Shape x P)
    {h : Exn → M ν α} (hh : ∀ e, Silently (h e) A) : Shape (x.tryCatch h) P := by
  refine Prog.Ensures.tryCatch hx (fun a t ht => ht) (fun e t ht => ?_) fun w t ht => ht
  exact Prog.Ensures.mono (hh e) fun o u hu => by simpa [hu.1.1, hu.1.2] using ht

theorem Silently.emit {e : Event} (h : Silent [e]) :
    Silently (Prog.emit e : M ν Unit) fun _ => True :=
  Prog.Ensures.emit ⟨h, fun _ _ => trivial⟩

theorem Silently.ask (g : ν → α × ν) : Silently (MileRpc.ask g) fun _ => True :=
  fun _ => ⟨Silent.nil, fun _ _ => trivial⟩

theorem Silently.readMember (env : Env ν) (j : Json) (key : String) :
    Silently (MileRpc.readMember env j key) fun v => ∀ u, j.member? key = some u → v = u := by
  cases h : j.member? key with
  | some u =>
    rw [readMember_of_member h]
    exact Silently.pure fun u' hu' => Option.some.inj hu'
  | none =>
    refine Silently.bind (Silently.ofJson _) fun r hr => ?_
    cases r with
    | none => exact (Silently.undefinedRead rfl _).mono (by simp)
    | some v => exact Silently.pure (by simp)

/-- A call of a quiet error handler. -/
theorem Quiet.error_silently {responseFail : ResponseHandler ν} {error : ErrorHandler ν}
    (hq : Quiet responseFail error) (code : ResultCode) (text : String) :
    Silently (error code text) fun _ => True :=
  (hq.error code text).mono fun _ _ ht => ⟨ht.2, fun _ _ => trivial⟩

theorem Quiet.each_silently {responseFail : ResponseHandler ν} {error : ErrorHandler ν}
    (hq : Quiet responseFail error) (rs : List (ResultCode × String)) :
    Silently (Prog.each (fun r => error r.1 r.2) rs) fun _ => True := by
  induction rs with
  | nil => exact Silently.pure trivial
  | cons r rs ih => exact Silently.bind (hq.error_silently _ _) fun _ _ => ih

end Rules

namespace Rpc.Client

variable {ν : Type} {env : Env ν} {api : Api} {c : Client ν} {method : String} {params : Json}
  {responseFail : ResponseHandler ν} {error : ErrorHandler ν}

/-! ### Parameters -/

theorem require_silently (hq : Quiet responseFail error) (key what : String) :
    Silently (require env method params key what error) fun r =>
      ∀ v, r = some v → params.member? key = some v := by
  unfold require
  split_ifs with h
  · exact Silently.bind (hq.error_silently _ _) fun _ _ => Silently.pure (by simp)
  · obtain ⟨u, hu⟩ := Json.count_pos.1 (Nat.pos_of_ne_zero h)
    rw [readMember_of_member hu]
    exact Silently.pure fun v hv => by rw [hu, hv]

/-- The key pair that the parameters contain. -/
def decodedKey (api : Api) (params : Json) : Option Pair :=
  match params.member? "private-key" with
  | some (.string key) =>
    match (api.fromPrivateKey key).outcome with
    | .ok r => r
    | .error _ => none
  | _ => none

theorem getPrivate_silently (hq : Quiet responseFail error) :
    Silently (getPrivate env api method params error) fun r =>
      ∀ p, r = some p → decodedKey api params = some p := by
  refine Silently.bind (require_silently hq _ _) fun r hr => ?_
  cases r with
  | none => exact Silently.pure (by simp)
  | some v =>
    have hv := hr v rfl
    refine Silently.bind (Silently.ofJson _) fun key hkey => ?_
    rw [Json.getString_eq_ok.1 hkey] at hv
    refine Silently.bind (hq.each_silently _) fun _ _ => ?_
    refine (Silently.ofExcept _).mono fun r hr p hp => ?_
    simp [decodedKey, hv, hr, hp]

theorem getAmount_silently (hq : Quiet responseFail error) :
    Silently (getAmount env method params error) fun r =>
      r.isSome = true → params.member? "amount" ≠ none := by
  refine Silently.bind (require_silently hq _ _) fun r hr => ?_
  cases r with
  | none => exact Silently.pure (by simp)
  | some v =>
    refine Silently.bind (Silently.ofJson _) fun _ _ => Silently.pure fun _ => ?_
    simp [hr v rfl]

theorem getAsset_silently (hq : Quiet responseFail error) :
    Silently (getAsset env api method params error) fun r =>
      r.isSome = true → params.member? "asset-code" ≠ none := by
  refine Silently.bind (require_silently hq _ _) fun r hr => ?_
  cases r with
  | none => exact Silently.pure (by simp)
  | some v =>
    refine Silently.bind (Silently.ofJson _) fun _ _ => Silently.pure fun _ => ?_
    simp [hr v rfl]

theorem generateTrxId_silently : Silently (generateTrxId env api) fun _ => True :=
  fun _ => ⟨Silent.nil, fun _ _ => trivial⟩

theorem transferCall_silently {ppk : Pair} {asset : Token} {amount : Single} {text : String}
    (id : UInt256) :
    Silently (transferCall env api params ppk asset amount text id) fun _ => True :=
  Silently.bind generateTrxId_silently fun _ _ =>
    Silently.bind (Silently.readMember _ _ _) fun _ _ =>
      Silently.bind (Silently.ofJson _) fun _ _ => Silently.pure trivial

theorem registerNodeCall_silently {ppk : Pair} {amount : Single} {address : Json} (id : UInt256) :
    Silently (registerNodeCall env api ppk amount address id) fun _ => True :=
  Silently.bind generateTrxId_silently fun _ _ => Silently.bind (Silently.ofJson _) fun _ _ =>
    Silently.pure trivial

theorem unregisterNodeCall_silently {ppk : Pair} (id : UInt256) :
    Silently (unregisterNodeCall env api ppk id) fun _ => True :=
  Silently.bind generateTrxId_silently fun _ _ => Silently.pure trivial

theorem voteCall_silently {ppk : Pair} {amount : Single} (id : UInt256) :
    Silently (voteCall env api ppk amount id) fun _ => True :=
  Silently.bind generateTrxId_silently fun _ _ => Silently.pure trivial

/-! ### Queries -/

/-- The events of an exchange are no commands and build nothing. -/
theorem exchange_silent {body : Json} {io : List Event} (h : ∀ e ∈ io, e.IsExchange body) :
    Silent io := by
  constructor
  · refine List.filterMap_eq_nil_iff.2 fun e he => ?_
    have := h e he
    cases e <;> simp_all [Event.IsExchange]
  · refine List.filter_eq_nil_iff.2 fun e he => ?_
    have := h e he
    cases e <;> simp_all [Event.IsExchange, Event.isBuild]

theorem Requested.shape {body : Json} {o : Outcome Exn Stop (Option Json)} {t : List Event}
    (h : Requested api body Silent o t) :
    requests t = [body] ∧ builds t = [] ∧ ∃ r, o = .ret r := by
  cases h with
  | @answered io _ r h1 _ _ =>
    have ht := exchange_silent h1
    exact ⟨by simp [requests, ← ht.1], ht.2, r, rfl⟩
  | @failed io u h1 _ hu =>
    have ht := (exchange_silent h1).append hu
    exact ⟨by simp [requests, ← ht.1], ht.2, none, rfl⟩

theorem query_ensures {H : List Event → Prop} (hh : HandlersReturn H c.responseFail c.error)
    (m : String) (p : Json) :
    (c.query env api m p).Ensures fun o t => ∃ id, Requested api (command m p id) H o t :=
  fun w => ⟨w.nextId, RpcSession.request_ensures hh (methodOf_command m p w.nextId) _⟩

theorem sendTransaction_ensures {H : List Event → Prop}
    (hh : HandlersReturn H c.responseFail c.error) (pair : Pair) (x : Json) :
    (c.sendTransaction env api pair x).Ensures fun o t => ∃ id,
      Requested api ((command "send-transaction" .null id).set "params" x) H o t :=
  fun w => ⟨w.nextId, RpcSession.request_ensures hh (methodOf_set_params _ _ x w.nextId) _⟩

/-- A query is exactly one request, of its method. -/
theorem query_shape (hq : Quiet c.responseFail c.error) (m : String) (p : Json) :
    Shape (c.query env api m p) fun rs bs => rs.map methodOf = [some m] ∧ bs = [] :=
  (query_ensures hq m p).mono fun _ _ ⟨id, h⟩ => by
    obtain ⟨h1, h2, -⟩ := Requested.shape h
    simp [h1, h2]

/-- What `get_body` returned after the factory call `call`: the body of the request that the factory
returned, or what the undefined read of an empty result gave. -/
inductive Built (api : Api) (call : CreateCall) : Option Json → List Event → Prop
  | request {tx : Transaction} : (api.create call).outcome = .ok (some tx) →
      Built api call tx.body [.created call (.ok (some tx)), .body tx.body]
  | stale {b : Option Json} : (api.create call).outcome = .ok none →
      Built api call b [.created call (.ok none), .undefined .emptyTransaction, .body b]

/-- The commands may only be those of the methods `ms`, in this order; the parameters of a
send-transaction are the body that was built, and a body that can be dumped is sent. -/
structure CallShape (api : Api) (ms : List String) (rs : List Json) (bs : List Event) : Prop where
  methods : rs.map methodOf <+: ms.map some
  built : ∀ b ∈ rs, methodOf b = some "send-transaction" → ∃ call x text,
    Built api call (some x) bs ∧ api.dump x = .ok text ∧ b.member? "params" = some x
  sent : ∀ x text, .body (some x) ∈ bs → api.dump x = .ok text →
    ∃ b ∈ rs, methodOf b = some "send-transaction"

theorem CallShape.nil (ms : List String) : CallShape api ms [] [] :=
  ⟨List.nil_prefix, by simp, by simp⟩

/-- Commands that send no transaction. -/
theorem CallShape.of_map {ms : List String} {rs : List Json} {bs : List Event} {m : String}
    (h : rs.map methodOf = [some m]) (hm : m ≠ "send-transaction") (hms : [m] <+: ms)
    (hbs : ∀ x text, .body (some x) ∈ bs → api.dump x ≠ .ok text) : CallShape api ms rs bs := by
  refine ⟨?_, fun b hb hs => ?_, fun x text hx htext => absurd htext (hbs x text hx)⟩
  · rw [h]
    exact List.IsPrefix.map some hms
  · have hmem : methodOf b ∈ rs.map methodOf := List.mem_map_of_mem hb
    rw [h, List.mem_singleton, hs, Option.some.injEq] at hmem
    exact absurd hmem.symm hm

theorem query_callShape (hq : Quiet c.responseFail c.error) {m : String} (p : Json)
    (hm : m ≠ "send-transaction") : Shape (c.query env api m p) (CallShape api [m]) :=
  (query_shape hq m p).mono fun _ _ ⟨h, hbs⟩ =>
    CallShape.of_map h hm (List.prefix_refl _) (by simp [hbs])

theorem getCurrentBlockId_shape (hq : Quiet c.responseFail c.error) :
    Shape (c.getCurrentBlockId env api) fun rs bs =>
      rs.map methodOf = [some "get-current-block-id"] ∧ bs = [] := by
  refine (query_shape hq _ _).bind_silently (A := fun _ => True) fun r => ?_
  cases r with
  | none => exact Silently.pure trivial
  | some result =>
    simp only
    split_ifs
    · exact Silently.pure trivial
    · refine Silently.bind (Silently.ofJson _) fun text _ => ?_
      cases api.stringToUInt256 text with
      | some id => exact Silently.pure trivial
      | none => exact Silently.bind (Silently.ask _) fun _ _ => Silently.pure trivial

theorem ping_shape (hq : Quiet c.responseFail c.error) :
    Shape (c.ping env api) (CallShape api ["ping"]) := by
  refine (Silently.ask _).bind_shape (CallShape.nil _) fun start _ => ?_
  refine (query_callShape hq _ (by decide)).bind_silently (A := fun _ => True) fun r => ?_
  cases r with
  | none => exact Silently.pure trivial
  | some res =>
    simp only
    split_ifs
    · exact Silently.bind (Silently.ask _) fun _ _ => Silently.pure trivial
    · exact Silently.pure trivial

/-! ### Transactions -/

theorem readBlockId_silently (id : Option UInt256) :
    Silently (readBlockId env id) fun _ => True := by
  cases id with
  | some id => exact Silently.pure trivial
  | none => exact Silently.undefinedRead rfl _

/-- The body that was built is that of the one result of `get_body`. -/
theorem Built.body_eq {call : CreateCall} {b b' : Option Json} {bs : List Event}
    (h : Built api call b bs) (hb : .body b' ∈ bs) : b' = b := by
  cases h <;> simpa using hb

/-- A factory call and the read of its body: what `get_body` returns is what was built. -/
def Creates (api : Api) (call : CreateCall) (o : Outcome Exn Stop (Option Json))
    (bs : List Event) : Prop :=
  (∀ b, o = .ret b → Built api call b bs) ∧ ∀ b, .body b ∈ bs → o = .ret b

theorem Built.creates {call : CreateCall} {b : Option Json} {bs : List Event}
    (h : Built api call b bs) : Creates api call (.ret b) bs :=
  ⟨fun _ hb => Outcome.ret.inj hb ▸ h, fun _ hb => by rw [h.body_eq hb]⟩

theorem Creates.broken {call : CreateCall} {o : Outcome Exn Stop (Option Json)} {bs : List Event}
    (ho : ∀ b, o ≠ .ret b) (hb : ∀ b, .body b ∉ bs) : Creates api call o bs :=
  ⟨fun b h => absurd h (ho b), fun b h => absurd h (hb b)⟩

/-- The reports of the factory add no commands and no build events. -/
theorem silent_created {t : List Event} (ht : Silent t) (call : CreateCall)
    (r : Except Exn (Option Transaction)) (u : List Event) :
    requests (.created call r :: (t ++ u)) = requests u ∧
      builds (.created call r :: (t ++ u)) = .created call r :: builds u := by
  constructor
  · change requests (t ++ u) = _
    rw [requests_append, ht.1, List.nil_append]
  · change _ :: builds (t ++ u) = _
    rw [builds_append, ht.2, List.nil_append]

theorem create_ensures (hq : Quiet responseFail error) (call : CreateCall) :
    (createRequest api call error >>= readBody env).Ensures fun o t =>
      requests t = [] ∧ Creates api call o (builds t) := by
  -- after the reports `t` of the factory comes `u`
  have hafter : ∀ {t : List Event}, Silent t → ∀ {r : Except Exn (Option Transaction)}
      {o : Outcome Exn Stop (Option Json)} {u : List Event}, requests u = [] →
      Creates api call o (.created call r :: builds u) →
      requests (.created call r :: (t ++ u)) = [] ∧
        Creates api call o (builds (.created call r :: (t ++ u))) := by
    intro t ht r o u hu ho
    rw [(silent_created ht call r u).1, (silent_created ht call r u).2]
    exact ⟨hu, ho⟩
  simp only [createRequest, bind_assoc]
  refine Prog.Ensures.emit_bind (Prog.Ensures.bind (hq.each_silently _) (fun _ t ht => ?_)
    (fun e t ht => ?_) fun w t ht => ?_)
  · refine Prog.Ensures.ofExcept_bind (fun tx htx => ?_) fun e he => ?_
    · cases tx with
      | some tx =>
        refine Prog.Ensures.emit_bind (Prog.Ensures.pure (hafter ht.1 rfl (Built.creates ?_)))
        rw [htx]
        exact .request htx
      | none =>
        refine Prog.Ensures.undefinedRead_bind (fun tx => ?_) ?_
        · refine Prog.Ensures.emit_bind (Prog.Ensures.pure (hafter ht.1 rfl (Built.creates ?_)))
          rw [htx]
          exact .stale htx
        · exact hafter ht.1 rfl (.broken (by simp) (by simp [builds, Event.isBuild]))
    · exact hafter ht.1 rfl (.broken (by simp) (by simp [builds]))
  · rw [← List.append_nil t]
    exact hafter ht.1 rfl (.broken (by simp) (by simp [builds]))
  · rw [← List.append_nil t]
    exact hafter ht.1 rfl (.broken (by simp) (by simp [builds]))

theorem sendTransaction_shape (hq : Quiet c.responseFail c.error) (pair : Pair) (x : Json) :
    Shape (c.sendTransaction env api pair x) fun rs bs =>
      bs = [] ∧ ∃ b, rs = [b] ∧ methodOf b = some "send-transaction" ∧
        b.member? "params" = some x :=
  (sendTransaction_ensures hq pair x).mono fun _ _ ⟨id, h⟩ => by
    obtain ⟨h1, h2, -⟩ := Requested.shape h
    exact ⟨h2, _, h1, methodOf_set_params _ _ x id, Json.member?_set "params" x⟩

/-- The end of a transaction: a block id query and then, if the factory gave a body that can be
dumped, one send-transaction with that body. -/
theorem submit_shape (hq : Quiet c.responseFail c.error) (hq' : Quiet responseFail error)
    {pair : Pair} {create : UInt256 → M ν CreateCall}
    (hc : ∀ id, Silently (create id) fun _ => True) :
    Shape (c.submit env api pair create error)
      (CallShape api ["get-current-block-id", "send-transaction"]) := by
  have hblock : ∀ {rs : List Json} {bs : List Event},
      rs.map methodOf = [some "get-current-block-id"] →
        (∀ x text, .body (some x) ∈ bs → api.dump x ≠ .ok text) →
        CallShape api ["get-current-block-id", "send-transaction"] rs bs :=
    fun h => CallShape.of_map h (by decide) (by simp)
  refine (getCurrentBlockId_shape hq).bind (fun id rs bs ⟨h, hbs⟩ => ?_)
    fun rs bs ⟨h, hbs⟩ => hblock h (by simp [hbs])
  subst hbs
  -- wherever the rest ends early, only the query was sent
  have h0 : CallShape api ["get-current-block-id", "send-transaction"] (rs ++ []) ([] ++ []) :=
    hblock (by simpa using h) (by simp)
  refine (Silently.emit ⟨rfl, rfl⟩).bind_shape h0 fun _ _ => ?_
  refine (readBlockId_silently id).bind_shape h0 fun blockId _ => ?_
  refine (hc blockId).bind_shape h0 fun call _ => ?_
  have hearly : ∀ {o : Outcome Exn Stop (Option Json)} {t : List Event}, requests t = [] →
      Creates api call o (builds t) →
      (∀ x text, o = .ret (some x) → api.dump x ≠ .ok text) →
      CallShape api ["get-current-block-id", "send-transaction"] (rs ++ requests t)
        ([] ++ builds t) := by
    intro o t ht hcreates hdump
    exact hblock (by simpa [ht] using h) fun x text hx => hdump x text (hcreates.2 _ hx)
  rw [← bind_assoc]
  refine Prog.Ensures.bind (create_ensures hq' call) (fun body t ht => ?_)
    (fun e t ht => hearly ht.1 ht.2 (by simp)) fun w t ht => hearly ht.1 ht.2 (by simp)
  cases body with
  | none =>
    refine Prog.Ensures.pure ?_
    rw [List.append_nil]
    exact hearly ht.1 ht.2 (by simp)
  | some x =>
    refine Prog.Ensures.ofJson_bind (fun text htext => ?_) fun e he => ?_
    · refine Prog.Ensures.mono
        ((sendTransaction_shape hq pair x).bind_silently (A := fun _ => True) fun r =>
          Silently.pure trivial) fun o u hu => ?_
      obtain ⟨hu, s, hs, hm, hp⟩ := hu
      have hbuilt := ht.2.1 _ rfl
      simp only [requests_append, builds_append, ht.1, hs, hu, List.nil_append, List.append_nil]
      refine ⟨by simp [h, hm], fun b hb hsend => ⟨call, x, text, hbuilt, htext, ?_⟩,
        fun _ _ _ _ => ⟨s, by simp, hm⟩⟩
      rcases List.mem_append.1 hb with hb | hb
      · have hmem : methodOf b ∈ rs.map methodOf := List.mem_map_of_mem hb
        rw [h, hsend] at hmem
        simp at hmem
      · rwa [List.mem_singleton.1 hb]
    · rw [List.append_nil]
      refine hearly ht.1 ht.2 fun y text hy htext => ?_
      cases hy
      rw [he] at htext
      cases htext

/-! ### The functions that build a transaction -/

/-- The required parameters are there and the private key decodes. -/
def Accepted (api : Api) (required : List String) (params : Json) : Prop :=
  (∀ key ∈ required, params.member? key ≠ none) ∧ decodedKey api params ≠ none

/-- The requests of a function that builds a transaction. -/
def BuilderShape (api : Api) (required : List String) (params : Json) (rs : List Json)
    (bs : List Event) : Prop :=
  CallShape api ["get-current-block-id", "send-transaction"] rs bs ∧
    (¬ Accepted api required params → rs = [])

theorem BuilderShape.nil (required : List String) : BuilderShape api required params [] [] :=
  ⟨CallShape.nil _, fun _ => rfl⟩

theorem submit_builderShape (hq : Quiet c.responseFail c.error) (hq' : Quiet responseFail error)
    {pair : Pair} {create : UInt256 → M ν CreateCall} {required : List String}
    (hc : ∀ id, Silently (create id) fun _ => True) (ha : Accepted api required params) :
    Shape (c.submit env api pair create error) (BuilderShape api required params) :=
  (submit_shape hq hq' hc).mono fun _ _ h => ⟨h, fun hn => absurd ha hn⟩

/-- The rule for a check that gives up with `none`. -/
theorem check_shape {α : Type} {x : M ν (Option α)} {A : Option α → Prop} {f : α → M ν AnyValue}
    {g : Option α → M ν AnyValue} {required : List String} (hx : Silently x A)
    (hg : g none = pure .nullopt) (hs : ∀ a, g (some a) = f a)
    (hf : ∀ a, A (some a) → Shape (f a) (BuilderShape api required params)) :
    Shape (x >>= g) (BuilderShape api required params) := by
  refine hx.bind_shape (BuilderShape.nil _) fun r hr => ?_
  cases r with
  | none =>
    rw [hg]
    exact Prog.Ensures.pure (BuilderShape.nil _)
  | some a =>
    rw [hs]
    exact hf a hr

theorem getDescription_silently : Silently (getDescription env params) fun _ => True := by
  unfold getDescription
  split_ifs
  · exact Silently.bind (Silently.readMember _ _ _) fun v _ =>
      (Silently.ofJson _).mono fun _ _ => trivial
  · exact Silently.pure trivial

theorem getLimit_silently : Silently (getLimit env params) fun _ => True := by
  unfold getLimit
  split_ifs
  · exact Silently.bind (Silently.readMember _ _ _) fun v _ =>
      (Silently.ofJson _).mono fun _ _ => trivial
  · exact Silently.pure trivial

theorem member_of_decodedKey {p : Pair} (h : decodedKey api params = some p) :
    params.member? "private-key" ≠ none := by
  intro hn
  simp [decodedKey, hn] at h

theorem transfer_shape (hq : Quiet c.responseFail c.error) (hq' : Quiet responseFail error) :
    Shape (c.transfer env api method params error)
      (BuilderShape api ["to", "private-key", "amount", "asset-code"] params) := by
  unfold transfer
  by_cases hto : params.count "to" = 0
  · rw [if_pos hto]
    exact (hq'.error_silently _ _).bind_shape (BuilderShape.nil _) fun _ _ =>
      Prog.Ensures.pure (BuilderShape.nil _)
  · rw [if_neg hto]
    refine check_shape (getPrivate_silently hq') rfl (fun _ => rfl) fun ppk hkey => ?_
    refine check_shape (getAmount_silently hq') rfl (fun _ => rfl) fun amount hamount => ?_
    refine check_shape (getAsset_silently hq') rfl (fun _ => rfl) fun asset hasset => ?_
    have ha : Accepted api ["to", "private-key", "amount", "asset-code"] params := by
      have := member_of_decodedKey (hkey ppk rfl)
      rw [Json.count_eq_zero] at hto
      simp_all [Accepted]
    exact getDescription_silently.bind_shape (BuilderShape.nil _) fun text _ =>
      submit_builderShape hq hq' transferCall_silently ha

theorem registerNode_shape (hq : Quiet c.responseFail c.error) (hq' : Quiet responseFail error) :
    Shape (c.registerNode env api method params error)
      (BuilderShape api ["private-key", "amount", "address"] params) := by
  refine check_shape (getPrivate_silently hq') rfl (fun _ => rfl) fun ppk hkey => ?_
  refine check_shape (getAmount_silently hq') rfl (fun _ => rfl) fun amount hamount => ?_
  refine check_shape (require_silently hq' _ _) rfl (fun _ => rfl) fun address haddress => ?_
  have ha : Accepted api ["private-key", "amount", "address"] params := by
    have := member_of_decodedKey (hkey ppk rfl)
    simp_all [Accepted]
  exact submit_builderShape hq hq' registerNodeCall_silently ha

theorem unregisterNode_shape (hq : Quiet c.responseFail c.error) (hq' : Quiet responseFail error) :
    Shape (c.unregisterNode env api method params error)
      (BuilderShape api ["private-key"] params) := by
  refine check_shape (getPrivate_silently hq') rfl (fun _ => rfl) fun ppk hkey => ?_
  have ha : Accepted api ["private-key"] params := by
    have := member_of_decodedKey (hkey ppk rfl)
    simp_all [Accepted]
  exact submit_builderShape hq hq' unregisterNodeCall_silently ha

theorem voteForRate_shape (hq : Quiet c.responseFail c.error) (hq' : Quiet responseFail error) :
    Shape (c.voteForRate env api method params error)
      (BuilderShape api ["private-key", "amount"] params) := by
  refine check_shape (getPrivate_silently hq') rfl (fun _ => rfl) fun ppk hkey => ?_
  refine check_shape (getAmount_silently hq') rfl (fun _ => rfl) fun amount hamount => ?_
  have ha : Accepted api ["private-key", "amount"] params := by
    have := member_of_decodedKey (hkey ppk rfl)
    simp_all [Accepted]
  exact submit_builderShape hq hq' voteCall_silently ha

/-! ### Calls -/

/-- What a method of `call` puts on the session. -/
inductive MethodKind where
  /-- One command of the RPC method `rpc`. -/
  | query (rpc : String)
  /-- The commands of a transaction, after the parameters `required` were found. -/
  | transaction (required : List String)
  | unknown
  deriving DecidableEq

/-- The methods of `call`. -/
def methodKind (method : String) : MethodKind :=
  ([("ping", .query "ping"), ("get-current-block-id", .query "get-current-block-id"),
    ("get-network-state", .query "get-network-state"), ("get-nodes", .query "get-nodes"),
    ("get-blockchain-info", .query "get-blockchain-info"),
    ("get-blockchain-state", .query "get-blockchain-state"),
    ("get-block", .query "get-block-by-id"), ("get-wallet-state", .query "get-wallet-state"),
    ("get-wallet-transactions", .query "get-wallet-transactions"),
    ("send-transfer", .transaction ["to", "private-key", "amount", "asset-code"]),
    ("register-node", .transaction ["private-key", "amount", "address"]),
    ("unregister-node", .transaction ["private-key"]),
    ("vote-for-rate", .transaction ["private-key", "amount"])].lookup method).getD .unknown

/-- The RPC methods of a call, in order. -/
def MethodKind.rpcMethods : MethodKind → List String
  | .query rpc => [rpc]
  | .transaction _ => ["get-current-block-id", "send-transaction"]
  | .unknown => []

/-- The requests of a call. -/
def MethodShape (api : Api) (kind : MethodKind) (params : Json) (rs : List Json)
    (bs : List Event) : Prop :=
  CallShape api kind.rpcMethods rs bs ∧
    ∀ required, kind = .transaction required → ¬ Accepted api required params → rs = []

theorem MethodShape.nil (kind : MethodKind) : MethodShape api kind params [] [] :=
  ⟨CallShape.nil _, fun _ _ _ => rfl⟩

theorem MethodShape.of_query {x : M ν AnyValue} {rpc : String}
    (hk : methodKind method = .query rpc) (hx : Shape x (CallShape api [rpc])) :
    Shape x (MethodShape api (methodKind method) params) := by
  rw [hk]
  exact hx.mono fun _ _ h => ⟨h, by simp⟩

theorem MethodShape.of_builder {x : M ν AnyValue} {required : List String}
    (hk : methodKind method = .transaction required)
    (hx : Shape x (BuilderShape api required params)) :
    Shape x (MethodShape api (methodKind method) params) := by
  rw [hk]
  refine hx.mono fun _ _ h => ⟨h.1, fun r hr => ?_⟩
  cases hr
  exact h.2

theorem callPing_shape (hq : Quiet c.responseFail c.error) :
    Shape (c.callPing env api) (CallShape api ["ping"]) := by
  refine (ping_shape hq).bind_silently (A := fun _ => True) fun t => ?_
  cases t <;> exact Silently.pure trivial

theorem callGetCurrentBlockId_shape (hq : Quiet c.responseFail c.error) :
    Shape (c.callGetCurrentBlockId env api) (CallShape api ["get-current-block-id"]) := by
  have hs : Shape (c.getCurrentBlockId env api) (CallShape api ["get-current-block-id"]) :=
    (getCurrentBlockId_shape hq).mono fun _ _ h =>
      CallShape.of_map h.1 (by decide) (List.prefix_refl _) (by simp [h.2])
  refine hs.bind_silently (A := fun _ => True) fun t => ?_
  cases t <;> exact Silently.pure trivial

theorem callGetBlock_shape (hq : Quiet c.responseFail c.error) :
    Shape (c.callGetBlock env api method params) (CallShape api ["get-block-by-id"]) := by
  refine (Silently.readMember _ _ _).bind_shape (CallShape.nil _) fun sid _ => ?_
  refine (Silently.ofJson _).bind_shape (CallShape.nil _) fun sid _ => ?_
  cases api.stringToUInt256 sid with
  | some id =>
    exact (query_callShape hq _ (by decide)).bind_silently (A := fun _ => True) fun t =>
      Silently.pure trivial
  | none =>
    exact (hq.error_silently _ _).bind_shape (CallShape.nil _) fun _ _ =>
      Prog.Ensures.pure (CallShape.nil _)

theorem callGetWalletState_shape (hq : Quiet c.responseFail c.error) :
    Shape (c.callGetWalletState env api method params) (CallShape api ["get-wallet-state"]) := by
  unfold callGetWalletState
  split_ifs
  · exact (hq.error_silently _ _).bind_shape (CallShape.nil _) fun _ _ =>
      Prog.Ensures.pure (CallShape.nil _)
  · refine (Silently.readMember _ _ _).bind_shape (CallShape.nil _) fun key _ => ?_
    refine (Silently.ofJson _).bind_shape (CallShape.nil _) fun key _ => ?_
    exact (query_callShape hq _ (by decide)).bind_silently (A := fun _ => True) fun t =>
      Silently.pure trivial

theorem callGetWalletTransactions_shape (hq : Quiet c.responseFail c.error) :
    Shape (c.callGetWalletTransactions env api method params)
      (CallShape api ["get-wallet-transactions"]) := by
  unfold callGetWalletTransactions
  split_ifs
  · exact (hq.error_silently _ _).bind_shape (CallShape.nil _) fun _ _ =>
      Prog.Ensures.pure (CallShape.nil _)
  · refine getLimit_silently.bind_shape (CallShape.nil _) fun limit _ => ?_
    refine (Silently.readMember _ _ _).bind_shape (CallShape.nil _) fun key _ => ?_
    refine (Silently.ofJson _).bind_shape (CallShape.nil _) fun key _ => ?_
    exact (query_callShape hq _ (by decide)).bind_silently (A := fun _ => True) fun t =>
      Silently.pure trivial

/-- A query whose response is returned. -/
theorem response_shape (hq : Quiet c.responseFail c.error) {m : String} (p : Json)
    (hm : m ≠ "send-transaction") :
    Shape (AnyValue.ofResponse <$> c.query env api m p) (CallShape api [m]) := by
  rw [map_eq_pure_bind]
  exact (query_callShape hq p hm).bind_silently (A := fun _ => True) fun t => Silently.pure trivial

/-- The rule for a comparison in the chain. -/
theorem ite_shape {p : Prop} [Decidable p] {x y : M ν AnyValue}
    {P : List Json → List Event → Prop} (hx : p → Shape x P) (hy : ¬ p → Shape y P) :
    Shape (if p then x else y) P := by
  split_ifs with h
  · exact hx h
  · exact hy h

theorem dispatch_shape (hq : Quiet c.responseFail c.error) :
    Shape (c.dispatch env api method params) (MethodShape api (methodKind method) params) := by
  refine ite_shape (fun h => .of_query (by rw [h]; rfl) (callPing_shape hq)) fun _ => ?_
  refine ite_shape (fun h => .of_query (by rw [h]; rfl) (callGetCurrentBlockId_shape hq))
    fun _ => ?_
  refine ite_shape (fun h => .of_query (by rw [h]; rfl) (response_shape hq _ (by decide)))
    fun _ => ?_
  refine ite_shape (fun h => .of_query (by rw [h]; rfl) (response_shape hq _ (by decide)))
    fun _ => ?_
  refine ite_shape (fun h => .of_query (by rw [h]; rfl) (response_shape hq _ (by decide)))
    fun _ => ?_
  refine ite_shape (fun h => .of_query (by rw [h]; rfl) (response_shape hq _ (by decide)))
    fun _ => ?_
  refine ite_shape (fun h => .of_query (by rw [h]; rfl) (callGetBlock_shape hq)) fun _ => ?_
  refine ite_shape (fun h => .of_query (by rw [h]; rfl) (callGetWalletState_shape hq)) fun _ => ?_
  refine ite_shape (fun h => .of_query (by rw [h]; rfl) (callGetWalletTransactions_shape hq))
    fun _ => ?_
  refine ite_shape (fun h => .of_builder (by rw [h]; rfl) (transfer_shape hq hq)) fun _ => ?_
  refine ite_shape (fun h => .of_builder (by rw [h]; rfl) (registerNode_shape hq hq)) fun _ => ?_
  refine ite_shape (fun h => .of_builder (by rw [h]; rfl) (unregisterNode_shape hq hq)) fun _ => ?_
  refine ite_shape (fun h => .of_builder (by rw [h]; rfl) (voteForRate_shape hq hq)) fun _ => ?_
  exact (hq.error_silently _ _).bind_shape (MethodShape.nil _) fun _ _ =>
    Prog.Ensures.pure (MethodShape.nil _)

theorem callClauses_handle_silently (hq : Quiet c.responseFail c.error) (e : Exn) :
    Silently (CatchClause.handle (callClauses method) c.error e) fun _ => True := by
  obtain ⟨text, h⟩ := handle_callClauses method c.error e
  rw [h]
  exact hq.error_silently .exception text

theorem call_shape (hq : Quiet c.responseFail c.error) :
    Shape (c.call env api method params) (MethodShape api (methodKind method) params) := by
  have hbody : Shape (do
      seedCall env
      let _trxId ← rand api
      c.dispatch env api method params) (MethodShape api (methodKind method) params) := by
    intro w
    exact dispatch_shape hq _
  exact hbody.tryCatch (A := fun _ => True) fun e =>
    Silently.bind (callClauses_handle_silently hq e) fun _ _ => Silently.pure trivial

/-- The commands of a call are a prefix of the RPC methods of its method; there are none if a
required parameter is missing or the private key does not decode; and the parameters of a
send-transaction are the body of the one transaction that the factory returned. -/
structure RequestTrace (api : Api) (method : String) (params : Json) (t : List Event) : Prop where
  methods : requestMethods t <+: (methodKind method).rpcMethods.map some
  rejected : ∀ required, methodKind method = .transaction required →
    ¬ Accepted api required params → requests t = []
  body : ∀ b ∈ requests t, methodOf b = some "send-transaction" → ∃ call tx x,
    (api.create call).outcome = .ok (some tx) ∧ tx.body = some x ∧
      builds t = [.created call (.ok (some tx)), .body (some x)] ∧ b.member? "params" = some x

/-- If the factory was called then it returned no empty optional, or the undefined read of the empty
one gave no body that can be dumped. -/
def FactoryAnswers (api : Api) (t : List Event) : Prop :=
  ∀ call x, .created call (.ok none) ∈ t → .body (some x) ∈ t → ∀ text, api.dump x ≠ .ok text

theorem mem_builds {t : List Event} {e : Event} (he : e.isBuild = true) : e ∈ builds t ↔ e ∈ t := by
  simp [builds, he]

/-- **When a call puts on the session what its method asks for.**  It does exactly if nothing that
was read from an empty result of the factory is sent. -/
theorem call_request_trace_iff (hq : Quiet c.responseFail c.error) (w : World ν) :
    RequestTrace api method params (c.call env api method params w).trace ↔
      FactoryAnswers api (c.call env api method params w).trace := by
  have hcall : Shape (c.call env api method params)
      (MethodShape api (methodKind method) params) := call_shape hq
  obtain ⟨hshape, hrejected⟩ := hcall w
  constructor
  · intro h call x hcreated hbody text htext
    obtain ⟨b, hb, hsend⟩ := hshape.sent x text ((mem_builds rfl).2 hbody) htext
    obtain ⟨call', tx, x', -, -, hbuilds, -⟩ := h.body b hb hsend
    have hmem := (mem_builds rfl).2 hcreated
    rw [hbuilds] at hmem
    simp at hmem
  · refine fun h => ⟨hshape.methods, hrejected, fun b hb hsend => ?_⟩
    obtain ⟨call, x, text, hbuilt, htext, hparams⟩ := hshape.built b hb hsend
    generalize hx : some x = body at hbuilt
    generalize hbuilds : builds (c.call env api method params w).trace = bs at hbuilt
    cases hbuilt with
    | @request tx htx =>
      refine ⟨call, tx, x, htx, hx.symm, ?_, hparams⟩
      rw [← hx]
    | stale hnone =>
      -- the empty result was read, and what it gave was dumped
      have hcreated : .created call (.ok none) ∈ builds (c.call env api method params w).trace := by
        simp [hbuilds]
      have hbody : .body (some x) ∈ builds (c.call env api method params w).trace := by
        simp [hbuilds, hx]
      exact absurd htext (h call x ((mem_builds rfl).1 hcreated) ((mem_builds rfl).1 hbody) text)

theorem logging_quiet (s : Session) :
    Quiet (logging s : Client ν).responseFail (logging s).error where
  responseFail _ _ _ := Prog.Ensures.emit ⟨rfl, rfl, rfl⟩
  error _ _ := Prog.Ensures.emit ⟨rfl, rfl, rfl⟩

/-- The parameters of a transfer. -/
def sampleTransfer : Json :=
  .object [("amount", .integer 1), ("asset-code", .integer 1), ("private-key", .string "k"),
    ("to", .string "d")]

/-- A node that always answers with a block id, whose program goes on after an undefined read of an
empty factory result, with the body null. -/
def staleNode : Env Unit :=
  { Env.answering fun n => (⟨200, "\x7b\"result\":\x7b\"current-block-id\":\"7\"\x7d\x7d"⟩, n) with
    staleTransaction := fun n => (some ⟨some .null⟩, n) }

/-- A library that knows the answer of that node. -/
def staleApi (made : Option Transaction) : Api :=
  { Api.sample [.object [("result", .object [("current-block-id", .string "7")])]] with
    create := fun _ => ⟨[], .ok made⟩ }

/-- A transfer that the factory makes. -/
theorem call_request_trace_iff_made :
    RequestTrace (staleApi (some ⟨some (.object [])⟩)) "send-transfer" sampleTransfer
        ((logging .sample).call staleNode (staleApi (some ⟨some (.object [])⟩)) "send-transfer"
          sampleTransfer (World.init ())).trace ↔
      FactoryAnswers (staleApi (some ⟨some (.object [])⟩))
        ((logging .sample).call staleNode (staleApi (some ⟨some (.object [])⟩)) "send-transfer"
          sampleTransfer (World.init ())).trace :=
  call_request_trace_iff (logging_quiet .sample) (World.init ())

/-- A transfer for which the factory returns nothing: what the undefined read gives is sent. -/
theorem call_sends_stale_body :
    requestMethods ((logging .sample).call staleNode (staleApi none) "send-transfer"
        sampleTransfer (World.init ())).trace =
      [some "get-current-block-id", some "send-transaction"] ∧
    ¬ RequestTrace (staleApi none) "send-transfer" sampleTransfer
        ((logging .sample).call staleNode (staleApi none) "send-transfer" sampleTransfer
          (World.init ())).trace := by
  have hmethods : requestMethods ((logging .sample).call staleNode (staleApi none)
      "send-transfer" sampleTransfer (World.init ())).trace =
        [some "get-current-block-id", some "send-transaction"] := by decide +kernel
  refine ⟨hmethods, fun h => ?_⟩
  have hmem : some "send-transaction" ∈ requestMethods ((logging .sample).call staleNode
      (staleApi none) "send-transfer" sampleTransfer (World.init ())).trace := by simp [hmethods]
  obtain ⟨b, hb, hsend⟩ := List.mem_map.1 hmem
  obtain ⟨call, tx, x, htx, -⟩ := h.body b hb hsend
  cases htx

end Rpc.Client

end MileRpc
