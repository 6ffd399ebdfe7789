import MileRpc.Rpc.Prepare

/-!
# Transactions and the block id

What `submit`, the common end of the functions that build a transaction, can do with passive
handlers.  It reads the optional block id and the optional request of the factory without a check;
`SubmitDefined` says that neither is empty.  Then the end runs as `Submitted` says
(`submit_submitted`), and otherwise it has undefined behaviour (`submit_undefined`).

`call_rejected` and `call_accepted` are the same for a whole call.
-/

namespace MileRpc

/-- The run has no undefined behaviour. -/
def NoUndefined (t : List Event) : Prop := ∀ u, .undefined u ∉ t

theorem NoUndefined.append {t u : List Event} (ht : NoUndefined t) (hu : NoUndefined u) :
    NoUndefined (t ++ u) := by
  intro x hx
  rcases List.mem_append.1 hx with hx | hx
  · exact ht x hx
  · exact hu x hx

/-- The events of the client's own steps. -/
def Event.isLocal : Event → Bool
  | .created _ _ => true
  | .body _ => true
  | .blockId _ => true
  | e => e.isOutput

/-- No exchange and no undefined behaviour. -/
def Local (t : List Event) : Prop := ∀ e ∈ t, e.isLocal = true

theorem Local.append {t u : List Event} (ht : Local t) (hu : Local u) : Local (t ++ u) :=
  fun e he => (List.mem_append.1 he).elim (ht e) (hu e)

theorem Local.cons {e : Event} {t : List Event} (he : e.isLocal = true) (ht : Local t) :
    Local (e :: t) :=
  List.forall_mem_cons.2 ⟨he, ht⟩

theorem Local.nil : Local [] := by simp [Local]

theorem Outputs.local {t : List Event} (h : Outputs t) : Local t := by
  intro e he
  have := h e he
  cases e <;> simp_all [Event.isOutput, Event.isLocal]

theorem Local.requests {t : List Event} (h : Local t) : requests t = [] := by
  refine List.filterMap_eq_nil_iff.2 fun e he => ?_
  have := h e he
  cases e <;> simp_all [Event.isLocal, Event.isOutput]

theorem Local.noUndefined {t : List Event} (h : Local t) : NoUndefined t := by
  intro u hu
  simpa [Event.isLocal, Event.isOutput] using h _ hu

theorem Local.reply {t : List Event} (h : Local t) (b : Json) (res : HttpResponse) :
    .reply b res ∉ t := by
  intro hr
  simpa [Event.isLocal, Event.isOutput] using h _ hr

namespace Rpc.Client

theorem logging_passive {ν : Type} (s : Session) :
    Passive (logging s : Client ν).responseFail (logging s).error where
  responseFail _ _ _ _ := ⟨_, rfl, by simp [Outputs, Event.isOutput]⟩
  error _ _ _ := ⟨_, rfl, by simp [Outputs, Event.isOutput]⟩

variable {ν : Type} {env : Env ν} {api : Api} {c : Client ν} {method : String} {params : Json}
  {responseFail : ResponseHandler ν} {error : ErrorHandler ν}

/-! ### One exchange -/

/-- The events of one exchange about `body`. -/
def IsAbout (body : Json) (t : List Event) : Prop :=
  ∀ e ∈ t, e = .request body ∨ e.IsExchange body ∨ e.isOutput = true

theorem IsAbout.noUndefined {body : Json} {t : List Event} (h : IsAbout body t) :
    NoUndefined t := by
  intro u hu
  simpa [Event.IsExchange, Event.isOutput] using h _ hu

theorem IsAbout.reply {body b : Json} {res : HttpResponse} {t : List Event} (h : IsAbout body t)
    (hr : .reply b res ∈ t) : b = body := by
  simpa [Event.IsExchange, Event.isOutput] using h _ hr

theorem IsAbout.created {body : Json} {t : List Event} (h : IsAbout body t) (call : CreateCall)
    (o : Except Exn (Option Transaction)) : .created call o ∉ t := by
  intro hc
  simpa [Event.IsExchange, Event.isOutput] using h _ hc

/-- The answer of a request about `body`, as its trace shows it. -/
structure Exchange (api : Api) (body : Json) (r : Option Json) (t : List Event) : Prop where
  about : IsAbout body t
  requests : requests t = [body]
  answered : ∀ v, r = some v → ∃ res, (∀ res', .reply body res' ∈ t ↔ res' = res) ∧
    api.replyResult res = some v
  failed : r = none → ∀ res, .reply body res ∈ t → api.replyResult res = none

theorem Requested.exchange {body : Json} {o : Outcome Exn Stop (Option Json)} {t : List Event}
    (h : Requested api body Outputs o t) : ∃ r, o = .ret r ∧ Exchange api body r t := by
  cases h with
  | @answered io res r h1 h2 h3 =>
    refine ⟨_, rfl, fun e he => ?_, ?_, ?_, by simp⟩
    · rcases List.mem_cons.1 he with rfl | he
      · exact .inl rfl
      · exact .inr (.inl (h1 e he))
    · change body :: requests io = _
      rw [(exchange_silent h1).1]
    · rintro v ⟨⟩
      exact ⟨res, fun res' => by simp [h2], h3⟩
  | @failed io u h1 h2 hu =>
    refine ⟨_, rfl, fun e he => ?_, ?_, by simp, fun _ res hr => ?_⟩
    · rcases List.mem_cons.1 he with rfl | he
      · exact .inl rfl
      · rcases List.mem_append.1 he with he | he
        · exact .inr (.inl (h1 e he))
        · exact .inr (.inr (hu e he))
    · change body :: requests (io ++ u) = _
      rw [requests_append, (exchange_silent h1).1, hu.local.requests, List.append_nil]
    · simp only [List.mem_cons, reduceCtorEq, List.mem_append, false_or] at hr
      rcases hr with hr | hr
      · exact h2 res hr
      · simpa [Event.isOutput] using hu _ hr

theorem query_exchange (hp : Passive c.responseFail c.error) (m : String) (p : Json) :
    (c.query env api m p).Ensures fun o t =>
      ∃ b r, methodOf b = some m ∧ o = .ret r ∧ Exchange api b r t :=
  (query_ensures hp.handlersReturn m p).mono fun _ _ ⟨id, h⟩ => by
    obtain ⟨r, hr, he⟩ := Requested.exchange h
    exact ⟨_, r, methodOf_command m p id, hr, he⟩

theorem sendTransaction_exchange (hp : Passive c.responseFail c.error) (pair : Pair) (x : Json) :
    (c.sendTransaction env api pair x).Ensures fun o t =>
      ∃ b r, methodOf b = some "send-transaction" ∧ o = .ret r ∧ Exchange api b r t :=
  (sendTransaction_ensures hp.handlersReturn pair x).mono fun _ _ ⟨id, h⟩ => by
    obtain ⟨r, hr, he⟩ := Requested.exchange h
    exact ⟨_, r, methodOf_set_params _ _ x id, hr, he⟩

/-- A block id, nothing, or an exception: never without the one exchange. -/
theorem getCurrentBlockId_exchange (hp : Passive c.responseFail c.error) :
    (c.getCurrentBlockId env api).Ensures fun o t =>
      ∃ b r, methodOf b = some "get-current-block-id" ∧ Exchange api b r t ∧
        (∀ s, o ≠ .stop s) ∧ ∀ id, o = .ret (some id) → r ≠ none := by
  refine (query_exchange hp _ _).bind ?_ ?_ ?_
  · rintro a t ⟨b, r, hm, ⟨⟩, he⟩
    -- the conversion after the query leaves no events
    have hsilent : ∀ o : Outcome Exn Stop (Option UInt256), (∀ s, o ≠ .stop s) →
        (a = none → ∀ id, o ≠ .ret (some id)) →
        ∃ b r, methodOf b = some "get-current-block-id" ∧ Exchange api b r (t ++ []) ∧
          (∀ s, o ≠ .stop s) ∧ ∀ id, o = .ret (some id) → r ≠ none := by
      intro o ho hnone
      refine ⟨b, a, hm, by rwa [List.append_nil], ho, fun id hid hr => hnone hr id hid⟩
    cases a with
    | none => exact Prog.Ensures.pure (hsilent _ (by simp) (by simp))
    | some result =>
      simp only
      split_ifs
      · exact Prog.Ensures.pure (hsilent _ (by simp) (by simp))
      · refine Prog.Ensures.ofJson_bind (fun text _ => ?_) fun e _ => hsilent _ (by simp) (by simp)
        cases api.stringToUInt256 text with
        | some id => exact Prog.Ensures.pure (hsilent _ (by simp) (by simp))
        | none =>
          refine Prog.Ensures.ask_bind fun id => ?_
          exact Prog.Ensures.pure (hsilent _ (by simp) (by simp))
  · rintro e t ⟨b, r, hm, h, he⟩
    cases h
  · rintro s t ⟨b, r, hm, h, he⟩
    cases h

/-! ### The end of a transaction -/

/-- The end of a transaction where it is defined. -/
inductive Submitted (api : Api) : Outcome Exn Stop AnyValue → List Event → Prop
  /-- It ended before a transaction was sent. -/
  | ended {b : Json} {r : Option Json} {t u : List Event} {o : Outcome Exn Stop AnyValue} :
      methodOf b = some "get-current-block-id" → Exchange api b r t → Local u →
      (o = .ret .empty ∨ ∃ e, o = .throw e) → Submitted api o (t ++ u)
  /-- A transaction was sent, with a block id and a request of the factory. -/
  | sent {b b' : Json} {r r' : Option Json} {t u t' : List Event} {id : UInt256} :
      methodOf b = some "get-current-block-id" → Exchange api b r t → r ≠ none → Local u →
      .blockId (some id) ∈ u → (∀ call o, .created call o ∈ u → ∃ tx, o = .ok (some tx)) →
      methodOf b' = some "send-transaction" → Exchange api b' r' t' →
      Submitted api (.ret (AnyValue.ofResponse r')) (t ++ u ++ t')

/-- The events of a factory call, the errors that it reports and the body of its result. -/
theorem factory_local {v : List Event} (hv : Outputs v) (call : CreateCall)
    (o : Except Exn (Option Transaction)) (body : Option Json) :
    Local (.created call o :: (v ++ [.body body])) :=
  .cons rfl (hv.local.append (.cons rfl .nil))

theorem created_of_mem_factory {v : List Event} (hv : Outputs v) {call call' : CreateCall}
    {o o' : Except Exn (Option Transaction)} {body : Option Json}
    (h : .created call' o' ∈ .created call o :: (v ++ [.body body])) : o' = o := by
  simp only [List.mem_cons, Event.created.injEq, List.mem_append, reduceCtorEq, List.not_mem_nil,
    or_false] at h
  rcases h with h | h
  · exact h.2
  · simpa [Event.isOutput] using hv _ h

/-- The factory call, its body and the send, for a factory that returns a request or throws. -/
theorem factory_ensures (hp : Passive c.responseFail c.error) (pair : Pair) {call : CreateCall}
    (hne : (api.create call).outcome ≠ .ok none) :
    (createRequest api call c.error >>= fun tx =>
      readBody env tx >>= c.sendBody env api pair).Ensures
      fun o t =>
      (Local t ∧ (o = .ret .empty ∨ ∃ e, o = .throw e)) ∨
      ∃ u b r t', t = u ++ t' ∧ Local u ∧
        (∀ call o, .created call o ∈ u → ∃ tx, o = .ok (some tx)) ∧
        methodOf b = some "send-transaction" ∧ Exchange api b r t' ∧
        o = .ret (AnyValue.ofResponse r) := by
  simp only [createRequest, bind_assoc]
  refine Prog.Ensures.emit_bind ((hp.each _).ensures.bind ?_ (by simp) (by simp))
  rintro _ v ⟨-, hv⟩
  refine Prog.Ensures.ofExcept_bind (fun tx htx => ?_) fun e _ => ?_
  · obtain ⟨tx, rfl⟩ : ∃ tx', tx = some tx' := by
      refine Option.ne_none_iff_exists'.1 fun hn => hne ?_
      rw [htx, hn]
    have hu : Local (.created call (api.create call).outcome :: (v ++ [.body tx.body])) :=
      factory_local hv _ _ _
    have hcreated : ∀ call' o,
        .created call' o ∈ .created call (api.create call).outcome :: (v ++ [.body tx.body]) →
          ∃ tx, o = .ok (some tx) :=
      fun _ _ ho => ⟨tx, (created_of_mem_factory hv ho).trans htx⟩
    simp only [readBody, bind_assoc, pure_bind]
    refine Prog.Ensures.emit_bind ?_
    cases hbody : tx.body with
    | none => exact Prog.Ensures.pure (.inl ⟨by simpa [hbody] using hu, .inl rfl⟩)
    | some x =>
      refine Prog.Ensures.ofJson_bind (fun _ _ => ?_) fun e _ =>
        .inl ⟨by simpa [hbody] using hu, .inr ⟨_, rfl⟩⟩
      refine (sendTransaction_exchange hp pair x).bind ?_ ?_ ?_
      · rintro a t' ⟨b, r, hm, ⟨⟩, he⟩
        refine Prog.Ensures.pure (.inr ⟨_, b, a, t', ?_, hu, hcreated, hm, he, rfl⟩)
        simp [hbody]
      · rintro e t' ⟨b, r, hm, h, he⟩
        cases h
      · rintro e t' ⟨b, r, hm, h, he⟩
        cases h
  · refine .inl ⟨.cons rfl ?_, .inr ⟨e, rfl⟩⟩
    rw [List.append_nil]
    exact hv.local

/-- An empty result of the factory is read. -/
theorem mem_factory_undefined (hp : Passive c.responseFail c.error) {call : CreateCall}
    (hempty : (api.create call).outcome = .ok none) {K : Option Json → M ν AnyValue}
    (w : World ν) : .undefined .emptyTransaction ∈
      (((createRequest api call c.error) >>= fun tx => readBody env tx >>= K) w).trace := by
  obtain ⟨t, hw, -⟩ := hp.each (api.create call).reports w
  simp only [createRequest, hempty, bind_assoc, Prog.ofExcept_ok, pure_bind]
  have hread : .undefined .emptyTransaction ∈
      ((Prog.each (fun r => c.error r.1 r.2) (api.create call).reports >>= fun _ =>
        readBody env none >>= K) w).trace := by
    rw [Prog.bind_of_ret hw]
    refine List.mem_append_right t ?_
    simp only [readBody, bind_assoc]
    exact Prog.mem_trace_bind_left (mem_undefinedRead _ _ _)
  exact List.mem_cons_of_mem _ hread

/-- The end of a transaction reads no empty optional: if the block id query returns then it returns
an id, and if the factory is called then it does not return an empty result. -/
def SubmitDefined (env : Env ν) (api : Api) (c : Client ν) (create : UInt256 → M ν CreateCall)
    (w : World ν) : Prop :=
  ∀ r, (c.getCurrentBlockId env api w).outcome = .ret r → ∃ id, r = some id ∧
    ∀ call, (create id (c.getCurrentBlockId env api w).state).outcome = .ret call →
      (api.create call).outcome ≠ .ok none

/-- The arguments of the factory are computed without an event. -/
def Computes (create : UInt256 → M ν CreateCall) : Prop :=
  ∀ id, (create id).Ensures fun o t => t = [] ∧ ∀ s, o ≠ .stop s

/-- With an id and the arguments of the factory, the rest is the factory call and the send. -/
theorem submit_of_create {create : UInt256 → M ν CreateCall} (hc : Computes create) (pair : Pair)
    {id : UInt256} {call : CreateCall} {t : List Event} {w w' : World ν}
    (hq : c.getCurrentBlockId env api w = ⟨.ret (some id), t, w'⟩)
    (hcall : (create id w').outcome = .ret call) :
    c.submit env api pair create c.error w =
      ((createRequest api call c.error >>= fun tx => readBody env tx >>= c.sendBody env api pair)
        (create id w').state).prepend (t ++ [.blockId (some id)]) := by
  have hrun : create id w' = ⟨.ret call, [], (create id w').state⟩ := by
    rw [← hcall, ← (hc id w').1]
  unfold submit
  rw [Prog.bind_of_ret hq, ← Run.prepend_prepend]
  simp only [readBlockId, pure_bind]
  rw [Prog.bind_of_ret (Prog.emit_apply _ _), Prog.bind_of_ret hrun]
  rfl

/-- If the arguments of the factory are not computed, nothing follows. -/
theorem submit_of_create_throw {create : UInt256 → M ν CreateCall} (hc : Computes create)
    (pair : Pair) {id : UInt256} {e : Exn} {t : List Event} {w w' : World ν}
    (hq : c.getCurrentBlockId env api w = ⟨.ret (some id), t, w'⟩)
    (hthrow : (create id w').outcome = .throw e) :
    c.submit env api pair create c.error w =
      ⟨.throw e, t ++ [.blockId (some id)], (create id w').state⟩ := by
  have hrun : create id w' = ⟨.throw e, [], (create id w').state⟩ := by
    rw [← hthrow, ← (hc id w').1]
  unfold submit
  rw [Prog.bind_of_ret hq]
  simp only [readBlockId, pure_bind]
  rw [Prog.bind_of_ret (Prog.emit_apply _ _), Prog.bind_of_throw hrun]
  rfl

/-- Where the end of a transaction is defined, it runs as `Submitted` says. -/
theorem submit_submitted (hp : Passive c.responseFail c.error) (pair : Pair)
    {create : UInt256 → M ν CreateCall} (hc : Computes create) {w : World ν}
    (h : SubmitDefined env api c create w) :
    Submitted api (c.submit env api pair create c.error w).outcome
      (c.submit env api pair create c.error w).trace := by
  have hquery : (c.getCurrentBlockId env api).Ensures _ := getCurrentBlockId_exchange hp
  obtain ⟨b, r, hm, he, hstop, hid⟩ := hquery w
  unfold SubmitDefined at h
  rcases hq : c.getCurrentBlockId env api w with ⟨(_ | id) | e | s, t, w'⟩
  · obtain ⟨id, hnone, -⟩ := h none (by rw [hq])
    cases hnone
  · rw [hq] at h he hid
    obtain ⟨_, ⟨⟩, hfactory⟩ := h (some id) rfl
    cases hcr : (create id w').outcome with
    | ret call =>
      rw [submit_of_create hc pair hq hcr]
      rcases factory_ensures hp pair (hfactory call hcr) (create id w').state with ⟨hl, ho⟩ |
        ⟨u, b', r', t', ht, hl, hcreated, hm', he', ho⟩
      · rw [Run.prepend_trace, List.append_assoc]
        exact .ended hm he (.cons rfl hl) ho
      · -- the id was read before the factory was called
        have hsent := Submitted.sent hm he (hid id rfl) (.cons rfl hl)
          (List.mem_cons_self (a := Event.blockId (some id)))
          (fun call' o h => hcreated call' o (by simpa using h)) hm' he'
        simpa [ht, ho] using hsent
    | throw e =>
      rw [submit_of_create_throw hc pair hq hcr]
      exact .ended hm he (.cons rfl .nil) (.inr ⟨e, rfl⟩)
    | stop s => exact absurd hcr ((hc id w').2 s)
  · rw [hq] at he
    unfold submit
    rw [Prog.bind_of_throw hq]
    have := Submitted.ended (o := .throw e) hm he Local.nil (.inr ⟨e, rfl⟩)
    rwa [List.append_nil] at this
  · rw [hq] at hstop
    exact absurd rfl (hstop s)

/-- Where it is not, an empty optional is read. -/
theorem submit_undefined (hp : Passive c.responseFail c.error) (pair : Pair)
    {create : UInt256 → M ν CreateCall} (hc : Computes create) {w : World ν}
    (h : ¬ SubmitDefined env api c create w) :
    .undefined .emptyBlockId ∈ (c.submit env api pair create c.error w).trace ∨
      .undefined .emptyTransaction ∈ (c.submit env api pair create c.error w).trace := by
  unfold SubmitDefined at h
  push Not at h
  obtain ⟨r, hr, hempty⟩ := h
  rcases hq : c.getCurrentBlockId env api w with ⟨o, t, w'⟩
  rw [hq] at hr hempty
  obtain rfl : o = .ret r := hr
  cases r with
  | none =>
    left
    unfold submit
    rw [Prog.bind_of_ret hq]
    exact List.mem_append_right t (List.mem_cons_of_mem _
      (Prog.mem_trace_bind_left (mem_undefinedRead _ _ _)))
  | some id =>
    right
    obtain ⟨call, hcall, hnone⟩ := hempty id rfl
    rw [submit_of_create hc pair hq hcall]
    exact List.mem_append_right _ (mem_factory_undefined hp hnone _)

/-- The transaction id is drawn without an event. -/
theorem ensures_trxId_bind {k : UInt64 → M ν CreateCall}
    {Q : Outcome Exn Stop CreateCall → List Event → Prop} (h : ∀ n, (k n).Ensures Q) :
    (generateTrxId env api >>= k).Ensures Q :=
  fun _ => h _ _

theorem transferCall_computes {ppk : Pair} {asset : Token} {amount : Single} {text : String}
    {v : Json} (hv : params.member? "to" = some v) :
    Computes (transferCall env api params ppk asset amount text) := by
  intro id
  rw [transferCall, readMember_of_member hv]
  refine ensures_trxId_bind fun trxId => ?_
  rw [pure_bind]
  exact Prog.Ensures.ofJson_bind (fun destination _ _ => ⟨rfl, by rintro s ⟨⟩⟩) (by simp)

theorem registerNodeCall_computes {ppk : Pair} {amount : Single} {address : Json} :
    Computes (registerNodeCall env api ppk amount address) :=
  fun _ => ensures_trxId_bind fun _ =>
    Prog.Ensures.ofJson_bind (fun address _ _ => ⟨rfl, by rintro s ⟨⟩⟩) (by simp)

theorem unregisterNodeCall_computes {ppk : Pair} :
    Computes (unregisterNodeCall env api ppk) :=
  fun _ _ => ⟨rfl, by rintro s ⟨⟩⟩

theorem voteCall_computes {ppk : Pair} {amount : Single} :
    Computes (voteCall env api ppk amount) :=
  fun _ _ => ⟨rfl, by rintro s ⟨⟩⟩

theorem Except.bind_eq_ok {α β ε : Type} {x : Except ε α} {f : α → Except ε β} {b : β} :
    (x >>= f) = .ok b ↔ ∃ a, x = .ok a ∧ f a = .ok b := by
  cases x with
  | ok a => simp [bind, Except.bind]
  | error e => simp [bind, Except.bind]

theorem required_eq_ok {key : String} {v : Json} :
    required params key = .ok v ↔ params.member? key = some v := by
  unfold required
  split <;> simp_all

theorem prepare_computes {pair : Pair} {create : UInt256 → M ν CreateCall}
    (h : prepare env api method params = some (.ok (pair, create))) : Computes create := by
  unfold prepare at h
  split_ifs at h
  · simp only [prepareTransfer, Option.some.injEq, Except.bind_eq_ok, pure, Except.pure,
      Except.ok.injEq, Prod.mk.injEq, required_eq_ok] at h
    obtain ⟨v, hv, _, -, _, -, _, -, _, -, -, rfl⟩ := h
    exact transferCall_computes hv
  · simp only [prepareRegisterNode, Option.some.injEq, Except.bind_eq_ok, pure, Except.pure,
      Except.ok.injEq, Prod.mk.injEq] at h
    obtain ⟨_, -, _, -, _, -, -, rfl⟩ := h
    exact registerNodeCall_computes
  · simp only [prepareUnregisterNode, Option.some.injEq, Except.bind_eq_ok, pure, Except.pure,
      Except.ok.injEq, Prod.mk.injEq] at h
    obtain ⟨_, -, -, rfl⟩ := h
    exact unregisterNodeCall_computes
  · simp only [prepareVote, Option.some.injEq, Except.bind_eq_ok, pure, Except.pure,
      Except.ok.injEq, Prod.mk.injEq] at h
    obtain ⟨_, -, _, -, -, rfl⟩ := h
    exact voteCall_computes

/-! ### Calls -/

/-- The world in which `call` starts to dispatch. -/
def seeded (env : Env ν) (api : Api) (w : World ν) : World ν :=
  ((seedCall env >>= fun _ => rand api) w).state

/-- A call is its branch, with an exception turned into the empty any and output. -/
theorem call_eq (env : Env ν) (api : Api) (method : String) (params : Json)
    (hp : Passive c.responseFail c.error) (w : World ν) :
    ∃ u, Outputs u ∧
      (c.call env api method params w).trace =
        (c.dispatch env api method params (seeded env api w)).trace ++ u ∧
      (c.call env api method params w).outcome =
        (c.dispatch env api method params (seeded env api w)).outcome.recover .empty := by
  have hbody : (do
      seedCall env
      let _trxId ← rand api
      c.dispatch env api method params : M ν AnyValue) w =
        c.dispatch env api method params (seeded env api w) := rfl
  unfold call
  rcases hd : c.dispatch env api method params (seeded env api w) with ⟨a | e | s, t, w'⟩
  · rw [Prog.tryCatch_of_ret (hbody.trans hd)]
    exact ⟨[], Outputs.nil, by simp, rfl⟩
  · rw [Prog.tryCatch_of_throw (hbody.trans hd)]
    obtain ⟨text, hc⟩ := handle_callClauses method c.error e
    obtain ⟨u, hu, ho⟩ := hp.error .exception text w'
    rw [hc, Prog.bind_of_ret hu]
    exact ⟨u, ho, by simp, rfl⟩
  · rw [Prog.tryCatch_of_stop (hbody.trans hd)]
    exact ⟨[], Outputs.nil, by simp, rfl⟩

/-- A call whose checks fail leaves output only. -/
theorem call_rejected (hp : Passive c.responseFail c.error) {r : Rejection}
    (h : prepare env api method params = some (.error r)) (w : World ν) :
    Outputs (c.call env api method params w).trace ∧
      (c.call env api method params w).outcome =
        .ret (match r with
          | .missing => .nullopt
          | .thrown _ => .empty) := by
  obtain ⟨u, hu, ht, ho⟩ := call_eq env api method params hp w
  rcases r with _ | e
  · obtain ⟨v, hv, hout⟩ := dispatch_prepared hp h (seeded env api w)
    rw [ht, ho, hv]
    exact ⟨Outputs.append v u hout hu, rfl⟩
  · obtain ⟨v, hv, hout⟩ := dispatch_prepared hp h (seeded env api w)
    rw [ht, ho, hv]
    exact ⟨Outputs.append v u hout hu, rfl⟩

/-- A call whose checks succeed is the end of its transaction, between outputs. -/
theorem call_accepted (hp : Passive c.responseFail c.error) {pair : Pair}
    {create : UInt256 → M ν CreateCall}
    (h : prepare env api method params = some (.ok (pair, create))) (w : World ν) :
    ∃ u v, Outputs u ∧ Outputs v ∧
      (c.call env api method params w).trace =
        u ++ (c.submit env api pair create c.error (seeded env api w)).trace ++ v ∧
      (c.call env api method params w).outcome =
        (c.submit env api pair create c.error (seeded env api w)).outcome.recover .empty := by
  obtain ⟨v, hv, ht, ho⟩ := call_eq env api method params hp w
  obtain ⟨u, hu, hout⟩ := dispatch_prepared hp h (seeded env api w)
  exact ⟨u, v, hout, hv, by rw [ht, hu]; rfl, by rw [ho, hu]; rfl⟩

end Rpc.Client

end MileRpc
