import MileRpc.Rpc.Parameters
import MileRpc.Rpc.Report

/-!
# Missing parameters

Every method but `get-block` counts a required parameter before it reads it, so that a missing one
is reported and nothing is sent.  `get-block` reads its `id` at once: on an object without it, this
is a dereference of the end iterator (`missing_parameters_caught_iff`).

Both parts of the first fact are laws of the client.  Under the law that nothing is asked, a call
with a missing parameter does what it likes; under the law whose fair runs have no report, it cannot
end (`call_missing_keeps`).
-/

namespace MileRpc

/-- The JSON value is an object. -/
def Json.isObject : Json → Bool
  | .object _ => true
  | _ => false

theorem Json.constIndex_of_not_isObject {j : Json} (h : j.isObject = false) (key : String) :
    j.constIndex key = .error j.indexError := by
  cases j <;> first | rfl | cases h

/-- The parameters without which a method of `call` can do nothing. -/
def requiredParams (method : String) : List String :=
  ([("get-block", ["id"]), ("get-wallet-state", ["public-key"]),
    ("get-wallet-transactions", ["public-key"]),
    ("send-transfer", ["to", "private-key", "amount", "asset-code"]),
    ("register-node", ["private-key", "amount", "address"]),
    ("unregister-node", ["private-key"]),
    ("vote-for-rate", ["private-key", "amount"])].lookup method).getD []

/-- A required parameter is missing. -/
def Lacks (method : String) (params : Json) : Prop :=
  ∃ key ∈ requiredParams method, params.member? key = none

/-- No command is sent and no missing member is read. -/
def Event.isUnasked : Event → Bool
  | .request _ => false
  | .undefined .missingKey => false
  | _ => true

/-- What a call with a missing parameter should do: it reads no missing member, reports through the
error handler and sends no command. -/
structure Caught (t : List Event) : Prop where
  defined : .undefined .missingKey ∉ t
  reported : ∃ code text, .report code text ∈ t
  unsent : requests t = []

namespace Rpc.Client

variable {ν : Type} {L : Law (World ν) Event Stop} {E T : Prop} {env : Env ν} {api : Api}
  {c : Client ν} {method : String} {params : Json} {error : ErrorHandler ν}

section Missing

variable (hkeys : api.RejectsKeys) (he : ErrorKeeps L E T c.error)

/-- The rule for a check: past it, the missing parameter is one of the others. -/
theorem missing_check {α : Type} {x : M ν (Option α)} {A : Option α → Prop}
    {f : Option α → M ν AnyValue} {key : String} {keys : List String} (hx : L.Keeps A True x)
    (hnone : f none = pure .nullopt) (hE : A none → E)
    (hkey : ∀ a, A (some a) → params.member? key ≠ none)
    (hf : ∀ a, (∃ k ∈ keys, params.member? k = none) → L.Keeps (fun _ => E) True (f (some a)))
    (h : ∃ k ∈ key :: keys, params.member? k = none) :
    L.Keeps (fun _ => E) True (x >>= f) := by
  refine hx.andThen fun r hr => ?_
  cases r with
  | none =>
    rw [hnone]
    exact .pure (hE hr)
  | some a =>
    obtain ⟨k, hk, hmissing⟩ := h
    refine hf a ⟨k, (List.mem_cons.1 hk).resolve_left ?_, hmissing⟩
    rintro rfl
    exact hkey a hr hmissing

theorem not_missing_nil {P : Prop} (h : ∃ k ∈ [], params.member? k = none) : P := by
  obtain ⟨k, hk, -⟩ := h
  exact absurd hk List.not_mem_nil

include he

include hkeys in
theorem private_missing {f : Option Pair → M ν AnyValue} {keys : List String}
    (hnone : f none = pure .nullopt)
    (hf : ∀ ppk, (∃ k ∈ keys, params.member? k = none) →
      L.Keeps (fun _ => E) True (f (some ppk)))
    (h : ∃ k ∈ "private-key" :: keys, params.member? k = none) :
    L.Keeps (fun _ => E) True (getPrivate env api method params c.error >>= f) :=
  missing_check (getPrivate_keeps he) hnone (fun hr => hr.1 hkeys rfl)
    (fun ppk hr => hr.2 ppk rfl) hf h

theorem amount_missing {f : Option Single → M ν AnyValue} {keys : List String}
    (hnone : f none = pure .nullopt)
    (hf : ∀ amount, (∃ k ∈ keys, params.member? k = none) →
      L.Keeps (fun _ => E) True (f (some amount)))
    (h : ∃ k ∈ "amount" :: keys, params.member? k = none) :
    L.Keeps (fun _ => E) True (getAmount env method params c.error >>= f) := by
  refine missing_check (getAmount_keeps he) hnone (fun hr => hr.1 rfl) (fun amount hr => ?_) hf h
  obtain ⟨v, hv, -⟩ := hr.2 amount rfl
  simp [hv]

theorem asset_missing {f : Option Token → M ν AnyValue} {keys : List String}
    (hnone : f none = pure .nullopt)
    (hf : ∀ asset, (∃ k ∈ keys, params.member? k = none) →
      L.Keeps (fun _ => E) True (f (some asset)))
    (h : ∃ k ∈ "asset-code" :: keys, params.member? k = none) :
    L.Keeps (fun _ => E) True (getAsset env api method params c.error >>= f) := by
  refine missing_check (getAsset_keeps he) hnone (fun hr => hr.1 rfl) (fun asset hr => ?_) hf h
  obtain ⟨v, code, hv, -⟩ := hr.2 asset rfl
  simp [hv]

include hkeys

theorem transfer_missing
    (h : ∃ key ∈ ["to", "private-key", "amount", "asset-code"], params.member? key = none) :
    L.Keeps (fun _ => E) True (c.transfer env api method params c.error) := by
  refine .ite (fun _ => he.report id (fun _ => trivial) _ _) fun hto => ?_
  have hrest : ∃ key ∈ ["private-key", "amount", "asset-code"], params.member? key = none := by
    obtain ⟨key, hkey, hmissing⟩ := h
    refine ⟨key, (List.mem_cons.1 hkey).resolve_left ?_, hmissing⟩
    rintro rfl
    exact hto (Json.count_eq_zero.2 hmissing)
  refine private_missing hkeys he rfl (fun ppk hrest => ?_) hrest
  refine amount_missing he rfl (fun amount hrest => ?_) hrest
  exact asset_missing he rfl (fun asset hnil => not_missing_nil hnil) hrest

theorem registerNode_missing
    (h : ∃ key ∈ ["private-key", "amount", "address"], params.member? key = none) :
    L.Keeps (fun _ => E) True (c.registerNode env api method params c.error) := by
  refine private_missing hkeys he rfl (fun ppk hrest => ?_) h
  refine amount_missing he rfl (fun amount hrest => ?_) hrest
  refine missing_check (require_keeps he _ _) rfl (fun hr => hr.1 rfl) (fun address hr => ?_)
    (fun address hnil => not_missing_nil hnil) hrest
  rw [hr.2 address rfl]
  exact Option.some_ne_none address

theorem unregisterNode_missing (h : ∃ key ∈ ["private-key"], params.member? key = none) :
    L.Keeps (fun _ => E) True (c.unregisterNode env api method params c.error) :=
  private_missing hkeys he rfl (fun _ hnil => not_missing_nil hnil) h

theorem voteForRate_missing
    (h : ∃ key ∈ ["private-key", "amount"], params.member? key = none) :
    L.Keeps (fun _ => E) True (c.voteForRate env api method params c.error) := by
  refine private_missing hkeys he rfl (fun ppk hrest => ?_) h
  exact amount_missing he rfl (fun amount hnil => not_missing_nil hnil) hrest

omit hkeys in
theorem callGetWalletState_missing (h : params.member? "public-key" = none) :
    L.Keeps (fun _ => E) True (c.callGetWalletState env api method params) :=
  .ite (fun _ => he.report id (fun _ => trivial) _ _) fun hcount =>
    absurd (Json.count_eq_zero.2 h) hcount

omit hkeys in
theorem callGetWalletTransactions_missing (h : params.member? "public-key" = none) :
    L.Keeps (fun _ => E) True (c.callGetWalletTransactions env api method params) :=
  .ite (fun _ => he.report id (fun _ => trivial) _ _) fun hcount =>
    absurd (Json.count_eq_zero.2 h) hcount

omit hkeys he in
theorem callGetBlock_missing (h : params.isObject = false) :
    L.Keeps (fun _ => E) True (c.callGetBlock env api method params) := by
  unfold callGetBlock readMember
  rw [Json.constIndex_of_not_isObject h]
  simp only [ofJson_error, bind_assoc]
  exact (Law.Keeps.raise (A := fun _ => False) _).andThen fun _ h => h.elim

omit hkeys he in
theorem missing_of_singleton {key : String} (h : ∃ k ∈ [key], params.member? k = none) :
    params.member? key = none := by
  simpa using h

omit hkeys he in
theorem method_of_lacks (h : Lacks method params) :
    method ∈ ["get-block", "get-wallet-state", "get-wallet-transactions", "send-transfer",
      "register-node", "unregister-node", "vote-for-rate"] := by
  by_contra hm
  obtain ⟨key, hkey, -⟩ := h
  simp only [List.mem_cons, List.not_mem_nil, or_false, not_or, ← beq_eq_false_iff_ne] at hm
  simp [requiredParams, List.lookup_cons, hm] at hkey

theorem dispatch_missing (hlacks : Lacks method params)
    (hblock : ¬ (method = "get-block" ∧ params.isObject = true)) :
    L.Keeps (fun _ => E) True (c.dispatch env api method params) := by
  have hm := method_of_lacks hlacks
  simp only [List.mem_cons, List.not_mem_nil, or_false] at hm
  rcases hm with rfl | rfl | rfl | rfl | rfl | rfl | rfl
  · exact callGetBlock_missing (by simpa using hblock)
  · exact callGetWalletState_missing he (missing_of_singleton hlacks)
  · exact callGetWalletTransactions_missing he (missing_of_singleton hlacks)
  · exact transfer_missing hkeys he hlacks
  · exact registerNode_missing hkeys he hlacks
  · exact unregisterNode_missing hkeys he hlacks
  · exact voteForRate_missing hkeys he hlacks

/-- **A call with a missing parameter** ends after a report only, under every law for which its
state may change. -/
theorem call_missing_keeps (hfree : ∀ w w', L.Moves w [] w') (hlacks : Lacks method params)
    (hblock : ¬ (method = "get-block" ∧ params.isObject = true)) :
    L.Keeps (fun _ => E) T (c.call env api method params) := by
  refine Law.Keeps.tryCatch (T := True) ?_ fun _ e => ?_
  · have hstep : ∀ {α : Type} (g : World ν → α × World ν),
        L.Keeps (fun _ => True) True (Prog.modifyGet g : M ν α) := fun g =>
      (Law.Keeps.modifyGet fun _ => hfree _ _).weaken fun _ _ => trivial
    refine Law.Keeps.andThen (A := fun _ => True) ((hstep _).andThen fun _ _ => hstep _)
      fun _ _ => ?_
    exact (hstep _).andThen fun _ _ => dispatch_missing hkeys he hlacks hblock
  · obtain ⟨text, heq⟩ := handle_callClauses method c.error e
    rw [heq]
    exact he.report id id _ _

end Missing

/-! ### The two laws -/

/-- The law that a run without a report does not end. -/
def reporting (ν : Type) : Law (World ν) Event Stop where
  Moves _ _ _ := True
  Stops _ _ _ := False
  Fair t := ∀ code text, .report code text ∉ t
  moves_nil _ := trivial
  moves_append _ _ := trivial
  stops_append _ h := h
  fair_append h := by
    simp only [List.mem_append, not_or] at h
    exact ⟨fun code text => (h code text).1, fun code text => (h code text).2⟩

theorem recordError_reporting : ErrorKeeps (reporting ν) False False (recordError error) :=
  fun code text w hfair => absurd (Prog.mem_trace_bind_left (by simp)) (hfair code text)

theorem reporting_not_meets {α : Type} {w : World ν} {r : Run (World ν) Event Exn Stop α} :
    ¬ (reporting ν).Meets (fun _ => False) False w r := by
  unfold Law.Meets
  rcases r with ⟨_ | _ | _, t, w'⟩ <;> simp [reporting]

theorem call_missing_caught (hkeys : api.RejectsKeys) (hc : c.error = recordError error)
    (hh : ∀ code text, (error code text).Ensures fun _ t => ∀ e ∈ t, e.isUnasked = true)
    (hlacks : Lacks method params) (hblock : ¬ (method = "get-block" ∧ params.isObject = true))
    (w : World ν) : Caught (c.call env api method params w).trace := by
  have hasked : ErrorKeeps (Law.every (·.isUnasked = true)) True True c.error := by
    rw [hc]
    intro code text
    refine Law.every_keeps_iff.2 (Prog.Ensures.emit_bind ?_)
    exact (hh code text).mono fun _ t ht => List.forall_mem_cons.2 ⟨rfl, ht⟩
  have hreports : ErrorKeeps (reporting ν) False False c.error := hc ▸ recordError_reporting
  have hkeeps : (Law.every (·.isUnasked = true)).Keeps (fun _ => True) True
      (c.call env api method params) :=
    call_missing_keeps hkeys hasked (fun _ _ => by simp [Law.every]) hlacks hblock
  have hunasked := Law.every_keeps_iff.1 hkeeps w
  refine ⟨fun h => by simpa [Event.isUnasked] using hunasked _ h, ?_, ?_⟩
  · -- without a report the run could not end
    by_contra hnone
    push Not at hnone
    have hnever : (reporting ν).Keeps (fun _ => False) False (c.call env api method params) :=
      call_missing_keeps hkeys hreports (fun _ _ => trivial) hlacks hblock
    exact reporting_not_meets (hnever w hnone)
  · refine List.eq_nil_iff_forall_not_mem.2 fun b hb => ?_
    simpa [Event.isUnasked] using hunasked _ (mem_requests.1 hb)

theorem call_getBlock_undefined {fields : List (String × Json)}
    (h : (Json.object fields).member? "id" = none) (w : World ν) :
    .undefined .missingKey ∈ (c.call env api "get-block" (.object fields) w).trace := by
  refine Prog.mem_trace_tryCatch ?_
  change .undefined .missingKey ∈
    (c.callGetBlock env api "get-block" (.object fields) (seeded env api w)).trace
  have hread : readMember env (.object fields) "id" =
      undefinedRead .missingKey env.staleJson := by
    have hindex : (Json.object fields).constIndex "id" = .ok none := congrArg Except.ok h
    simp [readMember, hindex]
  rw [callGetBlock, hread]
  exact Prog.mem_trace_bind_left (mem_undefinedRead _ _ _)

/-- **When a missing parameter is caught.**  It is, unless the method is `get-block` and the
parameters are an object. -/
theorem missing_parameters_caught_iff (hkeys : api.RejectsKeys) (hc : c.error = recordError error)
    (hh : ∀ code text, (error code text).Ensures fun _ t => ∀ e ∈ t, e.isUnasked = true)
    (hlacks : Lacks method params) (w : World ν) :
    Caught (c.call env api method params w).trace ↔
      ¬ (method = "get-block" ∧ params.isObject = true) := by
  refine ⟨?_, fun hblock => call_missing_caught hkeys hc hh hlacks hblock w⟩
  rintro hcaught ⟨rfl, hobject⟩
  cases params with
  | object fields =>
    exact hcaught.defined (call_getBlock_undefined (missing_of_singleton hlacks) w)
  | _ => cases hobject

/-- A client whose error handler is recorded. -/
def recording (session : Session) : Client ν :=
  { logging session with error := recordError logError }

theorem logError_unasked (code : ResultCode) (text : String) :
    (logError code text : M ν Unit).Ensures fun _ t => ∀ e ∈ t, e.isUnasked = true :=
  fun _ => by simp [Event.isUnasked]

theorem sample_rejectsKeys (known : List Json) : (Api.sample known).RejectsKeys :=
  fun _ h => by simp [Api.sample] at h

/-- A transfer without its parameters. -/
theorem missing_parameters_caught_iff_transfer :
    Caught ((recording .sample).call (Env.answering fun n : Unit => (⟨200, ""⟩, n)) (.sample [])
      "send-transfer" (.object []) (World.init ())).trace ↔
      ¬ ("send-transfer" = "get-block" ∧ (Json.object []).isObject = true) :=
  missing_parameters_caught_iff (sample_rejectsKeys []) rfl logError_unasked
    ⟨"to", by decide, rfl⟩ _

/-- `get-block` without an id. -/
theorem missing_parameters_caught_fails :
    ¬ ∀ (env : Env Unit) (api : Api) (c : Client Unit) (error : ErrorHandler Unit)
      (method : String) (params : Json) (w : World Unit), api.RejectsKeys →
      c.error = recordError error →
      (∀ code text, (error code text).Ensures fun _ t => ∀ e ∈ t, e.isUnasked = true) →
      Lacks method params → Caught (c.call env api method params w).trace := by
  intro h
  have hcaught := h (Env.answering fun n => (⟨200, ""⟩, n)) (.sample []) (recording .sample)
    logError "get-block" (.object []) (World.init ()) (sample_rejectsKeys []) rfl logError_unasked
    ⟨"id", by decide, rfl⟩
  exact hcaught.defined (call_getBlock_undefined rfl _)

end Rpc.Client

end MileRpc
