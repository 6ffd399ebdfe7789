import MileRpc.Rpc.Submit

/-!
# No transaction without a block id

The rule `NeedsBlockId` for one run of `Client::call`: no empty optional is read, and where the
block id query or the transaction factory yields nothing, no transaction is sent and the call
returns the empty any.

The tool that makes a transaction without `Client::call` checks the optional block id before it
reads it; the four functions behind `call` do not.  So the rule fails exactly where the query or the
factory returns an empty optional (`call_needs_block_id_iff`); an exception of either keeps it.

The id itself is read from the result of the query without a look at its kind, nor at the status of
its conversion: `getCurrentBlockId_exact_iff` says for which results it is exact.
-/

namespace MileRpc

namespace Rpc.Client

variable {ν : Type} {env : Env ν} {api : Api} {c : Client ν} {method : String} {params : Json}

/-- The block id query or the factory of the run yields nothing. -/
def YieldsNothing (t : List Event) : Prop :=
  ((∃ b ∈ requests t, methodOf b = some "get-current-block-id") ∧ ∀ id, .blockId (some id) ∉ t) ∨
    ∃ call o, .created call o ∈ t ∧ ∀ tx, o ≠ .ok (some tx)

/-- No empty optional is read, and without a block id or a request nothing is sent. -/
def NeedsBlockId (o : Outcome Exn Stop AnyValue) (t : List Event) : Prop :=
  .undefined .emptyBlockId ∉ t ∧ .undefined .emptyTransaction ∉ t ∧
    (YieldsNothing t →
      (∀ b ∈ requests t, methodOf b ≠ some "send-transaction") ∧ o = .ret .empty)

theorem Outputs.needsBlockId {o : Outcome Exn Stop AnyValue} {t : List Event} (h : Outputs t) :
    NeedsBlockId o t := by
  refine ⟨h.local.noUndefined _, h.local.noUndefined _, ?_⟩
  rintro (⟨⟨b, hb, -⟩, -⟩ | ⟨call, o, ho, -⟩)
  · rw [h.local.requests] at hb
    exact absurd hb List.not_mem_nil
  · simpa [Event.isOutput] using h _ ho

theorem Submitted.needsBlockId {o : Outcome Exn Stop AnyValue} {t u v : List Event}
    (h : Submitted api o t) (hu : Outputs u) (hv : Outputs v) :
    NeedsBlockId (o.recover .empty) (u ++ t ++ v) := by
  have hrule : NoUndefined t → (YieldsNothing (u ++ t ++ v) →
      (∀ b ∈ requests t, methodOf b ≠ some "send-transaction") ∧ o.recover .empty = .ret .empty) →
      NeedsBlockId (o.recover .empty) (u ++ t ++ v) := by
    intro ht hy
    have hn : NoUndefined (u ++ t ++ v) := 
      (NoUndefined.append hu.local.noUndefined ht).append hv.local.noUndefined
    refine ⟨hn _, hn _, fun hnothing => ?_⟩
    simpa [hu.local.requests, hv.local.requests] using hy hnothing
  cases h with
  | @ended b r t w o hm he hw ho =>
    refine hrule (NoUndefined.append he.about.noUndefined hw.noUndefined) fun _ =>
      ⟨fun b' hb' hsend => ?_, ?_⟩
    · rw [requests_append, he.requests, hw.requests, List.append_nil, List.mem_singleton] at hb'
      rw [hb', hm] at hsend
      simp at hsend
    · rcases ho with rfl | ⟨e, rfl⟩ <;> rfl
  | @sent b b' r r' t w t' id hm he hr hw hid hcreated hm' he' =>
    refine hrule ((NoUndefined.append he.about.noUndefined hw.noUndefined).append
      he'.about.noUndefined) ?_
    -- the block id and the request are there
    rintro (⟨-, hno⟩ | ⟨call, o, ho, hne⟩)
    · exact absurd (by simp [hid]) (hno id)
    · simp only [List.mem_append] at ho
      have hout : ∀ x : List Event, Outputs x → .created call o ∉ x := fun x hx hc => by
        simpa [Event.isOutput] using hx _ hc
      rcases ho with (ho | (ho | ho) | ho) | ho
      · exact absurd ho (hout u hu)
      · exact absurd ho (he.about.created call o)
      · obtain ⟨tx, htx⟩ := hcreated call o ho
        exact absurd htx (hne tx)
      · exact absurd ho (he'.about.created call o)
      · exact absurd ho (hout v hv)

/-- **When a transaction needs a block id.**  A call that builds a transaction keeps the rule
exactly if, should its checks succeed, the block id query does not return an empty optional and
neither does the factory. -/
theorem call_needs_block_id_iff (hp : Passive c.responseFail c.error)
    (hm : method ∈ ["send-transfer", "register-node", "unregister-node", "vote-for-rate"])
    (w : World ν) :
    NeedsBlockId (c.call env api method params w).outcome (c.call env api method params w).trace ↔
      ∀ pair create, prepare env api method params = some (.ok (pair, create)) →
        SubmitDefined env api c create (seeded env api w) := by
  obtain ⟨p, hprep⟩ : ∃ p, prepare env api method params = some p := by
    simp only [List.mem_cons, List.not_mem_nil, or_false] at hm
    rcases hm with rfl | rfl | rfl | rfl <;> exact ⟨_, rfl⟩
  rcases p with r | ⟨pair, create⟩
  · obtain ⟨ht, -⟩ := call_rejected hp hprep w
    refine ⟨fun _ pair create h => ?_, fun _ => Outputs.needsBlockId ht⟩
    rw [hprep] at h
    cases h
  · obtain ⟨u, v, hu, hv, ht, ho⟩ := call_accepted hp hprep w
    have hc := prepare_computes hprep
    constructor
    · rintro ⟨hid, htx, -⟩ pair' create' h
      rw [hprep] at h
      cases h
      by_contra hn
      rw [ht] at hid htx
      rcases submit_undefined hp pair hc hn with hx | hx
      · exact hid (List.mem_append_left _ (List.mem_append_right _ hx))
      · exact htx (List.mem_append_left _ (List.mem_append_right _ hx))
    · intro h
      rw [ht, ho]
      exact Submitted.needsBlockId (submit_submitted hp pair hc (h pair create hprep)) hu hv

/-- The same for a node that does not know the method: the block id query returns nothing. -/
theorem call_needs_block_id_iff_refused :
    NeedsBlockId
        ((logging .sample).call (Env.answering fun n : Unit => (⟨404, ""⟩, n)) (Api.sample [])
          "unregister-node" (.object [("private-key", .string "k")]) (World.init ())).outcome
        ((logging .sample).call (Env.answering fun n : Unit => (⟨404, ""⟩, n)) (Api.sample [])
          "unregister-node" (.object [("private-key", .string "k")]) (World.init ())).trace ↔
      ∀ pair create, prepare (Env.answering fun n : Unit => (⟨404, ""⟩, n)) (Api.sample [])
          "unregister-node" (.object [("private-key", .string "k")]) = some (.ok (pair, create)) →
        SubmitDefined (Env.answering fun n : Unit => (⟨404, ""⟩, n)) (Api.sample [])
          (logging .sample) create
          (seeded (Env.answering fun n : Unit => (⟨404, ""⟩, n)) (Api.sample []) (World.init ())) :=
  call_needs_block_id_iff (logging_passive .sample) (by decide) (World.init ())

/-- With that node, unregister-node reads the empty block id and then sends the transaction. -/
theorem call_reads_empty_block_id :
    requestMethods ((logging .sample).call (Env.answering fun n : Unit => (⟨404, ""⟩, n))
        (Api.sample []) "unregister-node" (.object [("private-key", .string "k")])
        (World.init ())).trace =
      [some "get-current-block-id", some "send-transaction"] ∧
    ¬ NeedsBlockId
        ((logging .sample).call (Env.answering fun n : Unit => (⟨404, ""⟩, n)) (Api.sample [])
          "unregister-node" (.object [("private-key", .string "k")]) (World.init ())).outcome
        ((logging .sample).call (Env.answering fun n : Unit => (⟨404, ""⟩, n)) (Api.sample [])
          "unregister-node" (.object [("private-key", .string "k")]) (World.init ())).trace := by
  refine ⟨by decide +kernel, fun h => h.1 (mem_undefineds.1 ?_)⟩
  decide +kernel

/-! ### The id that is read -/

/-- The id that the result of get-current-block-id contains. -/
def resultBlockId (api : Api) (result : Json) : Option UInt256 :=
  match result.member? "current-block-id" with
  | some (.string text) => api.stringToUInt256 text
  | _ => none

theorem blockIdText_eq_ok {result : Json} {text : String} :
    blockIdText result = .ok text ↔ result.member? "current-block-id" = some (.string text) := by
  cases result with
  | object fields =>
    cases h : fields.lookup "current-block-id" with
    | none => simp [blockIdText, Json.index, h, bind, Except.bind, Json.getString]
    | some v => simp [blockIdText, Json.index, h, bind, Except.bind, Json.getString_eq_ok]
  | _ => simp [blockIdText, Json.index, bind, Except.bind, Json.getString, Json.member?]

theorem member?_of_isEmpty {j : Json} (h : j.isEmpty = true) (key : String) :
    j.member? key = none := by
  cases j with
  | object fields =>
    obtain rfl : fields = [] := List.isEmpty_iff.1 h
    rfl
  | _ => rfl

theorem getCurrentBlockId_outcome {w : World ν} {result : Json}
    (h : (c.query env api "get-current-block-id" .null w).outcome = .ret (some result)) :
    (result.isEmpty = true ∧ (c.getCurrentBlockId env api w).outcome = .ret none) ∨
    (∃ text, result.member? "current-block-id" = some (.string text) ∧
      ∃ id, (c.getCurrentBlockId env api w).outcome = .ret (some id) ∧
        ∀ v, api.stringToUInt256 text = some v → id = v) ∨
    (result.isEmpty = false ∧ (∀ text, result.member? "current-block-id" ≠ some (.string text)) ∧
      ∃ e, (c.getCurrentBlockId env api w).outcome = .throw e) := by
  rcases hq : c.query env api "get-current-block-id" .null w with ⟨o, t, w'⟩
  obtain rfl : o = .ret (some result) := by rwa [hq] at h
  unfold getCurrentBlockId
  rw [Prog.bind_of_ret hq, Run.prepend_outcome]
  by_cases hempty : result.isEmpty = true
  · exact .inl ⟨hempty, by simp [hempty]⟩
  · simp only [if_neg hempty]
    cases htext : blockIdText result with
    | error e =>
      refine .inr (.inr ⟨Bool.eq_false_iff.2 hempty, fun text ht => ?_, .json e, rfl⟩)
      rw [blockIdText_eq_ok.2 ht] at htext
      cases htext
    | ok text =>
      refine .inr (.inl ⟨text, blockIdText_eq_ok.1 htext, ?_⟩)
      cases hid : api.stringToUInt256 text with
      | some id => exact ⟨id, by simp [hid], by simp⟩
      | none => exact ⟨_, by simp [hid]; rfl, by simp⟩

theorem resultBlockId_of_member {result : Json} {text : String}
    (h : result.member? "current-block-id" = some (.string text)) :
    resultBlockId api result = api.stringToUInt256 text := by
  simp [resultBlockId, h]

theorem resultBlockId_eq_none {result : Json}
    (h : ∀ text, result.member? "current-block-id" ≠ some (.string text)) :
    resultBlockId api result = none := by
  unfold resultBlockId
  split
  · next text ht => exact absurd ht (h text)
  · rfl

/-- **When the block id is exact.**  For every result that a reply can carry, the function returns
the id in it, or nothing where there is none, exactly if the result is empty or contains an id:
any other result is either an exception or an id that was not parsed. -/
theorem getCurrentBlockId_exact_iff {w : World ν} {result : Json}
    (h : (c.query env api "get-current-block-id" .null w).outcome = .ret (some result)) :
    (c.getCurrentBlockId env api w).outcome = .ret (resultBlockId api result) ↔
      result.isEmpty = true ∨ (resultBlockId api result).isSome = true := by
  rcases getCurrentBlockId_outcome h with
    ⟨hempty, ho⟩ | ⟨text, hm, id, ho, hid⟩ | ⟨hempty, hm, e, ho⟩
  · have hnone : resultBlockId api result = none :=
      resultBlockId_eq_none fun text => by simp [member?_of_isEmpty hempty]
    rw [ho, hnone]
    simp [hempty]
  · have hne : result.isEmpty ≠ true := fun hempty => by
      simp [member?_of_isEmpty hempty] at hm
    rw [ho, resultBlockId_of_member hm]
    cases hv : api.stringToUInt256 text with
    | none => simp [hne]
    | some v => simp [hid v hv]
  · rw [ho, resultBlockId_eq_none hm]
    simp [hempty]

/-- The result that a node gives to the block id query. -/
def idReply (id : Json) : Json := .object [("result", .object [("current-block-id", id)])]

/-- A node that always answers `reply`. -/
def repeating (reply : Json) : Env Unit := .answering fun n => (⟨200, reply.text⟩, n)

/-- An id that is a number. -/
theorem getCurrentBlockId_exact_iff_seven :
    ((logging .sample).getCurrentBlockId (repeating (idReply (.string "7")))
        (.sample [idReply (.string "7")]) (World.init ())).outcome =
        .ret (resultBlockId (.sample [idReply (.string "7")])
          (.object [("current-block-id", .string "7")])) ↔
      (Json.object [("current-block-id", .string "7")]).isEmpty = true ∨
        (resultBlockId (.sample [idReply (.string "7")])
          (.object [("current-block-id", .string "7")])).isSome = true :=
  getCurrentBlockId_exact_iff (by rfl)

/-- An id text that is no number gives an id all the same. -/
theorem getCurrentBlockId_not_exact :
    ¬ ∀ (env : Env Unit) (api : Api) (c : Client Unit) (w : World Unit) (result : Json),
      (c.query env api "get-current-block-id" .null w).outcome = .ret (some result) →
        (c.getCurrentBlockId env api w).outcome = .ret (resultBlockId api result) := by
  intro h
  have hstale : Outcome.ret (some _) = .ret none :=
    h (repeating (idReply (.string "x"))) (.sample [idReply (.string "x")]) (logging .sample)
      (World.init ()) (.object [("current-block-id", .string "x")]) rfl
  cases hstale

end Rpc.Client

end MileRpc
