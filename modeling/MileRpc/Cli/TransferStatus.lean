import MileRpc.Cli.Retry
import MileRpc.Cli.AtMostOnce

/-!
# The status of mile_cli_transfer

`main` has no `return`, so the process ends with the status 0 whenever the first `do_request`
returns.  An attempt returns after a transfer, but also where it just gives up: after an error whose
code is not retried, a reply that the node fails, an empty block id or a transaction without a body
(`Event.isStray`).

`status_zero_transferred` : in a run without such an event, the status 0 means that a transfer was
answered and printed.  An error that uses up the attempts ends the process, whatever its code.
-/

namespace MileRpc

/-- The events after which an attempt may give up without a retry. -/
def Event.isStray (api : Api) : Event → Bool
  | .report code _ => code ≠ .fail
  | .responseFail _ _ => true
  | .reply b res => decide (methodOf b = some "get-current-block-id") &&
      (api.replyResult res).any Json.isEmpty
  | .body b => b.isNone
  | _ => false

/-- The number of errors that were reported. -/
def reports (t : List Event) : ℕ := t.countP Event.isReport

@[simp] theorem reports_append (t u : List Event) : reports (t ++ u) = reports t + reports u :=
  List.countP_append

/-- The node has answered a transaction with a result. -/
def Event.Answers (api : Api) : Event → Prop
  | .reply b res => methodOf b = some "send-transaction" ∧ ∃ v, api.replyResult res = some v
  | _ => False

namespace Cli.Transfer

/-- A transaction was answered with a result, and that was printed. -/
def Transferred (api : Api) (t : List Event) : Prop :=
  (∃ e ∈ t, e.Answers api) ∧ "Send transfer: " ∈ couts t

/-- A transaction was answered with a result, and the text of that result was printed under the
headline. -/
def AnswerPrinted (api : Api) (t : List Event) : Prop :=
  ∃ body res v text, methodOf body = some "send-transaction" ∧ .reply body res ∈ t ∧
    api.replyResult res = some v ∧ api.dump v = .ok text ∧
    [.cout "Send transfer: ", .cout text] <:+: t

theorem AnswerPrinted.transferred {api : Api} {t : List Event} (h : AnswerPrinted api t) :
    Transferred api t := by
  obtain ⟨body, res, v, text, hm, hreply, hv, -, hcouts⟩ := h
  exact ⟨⟨_, hreply, hm, v, hv⟩, mem_couts.2 (hcouts.subset List.mem_cons_self)⟩

variable {ν : Type} {L : Law (World ν) Event Stop} {p : Event → Prop} {env : Env ν} {api : Api}
  {opts : Options}

theorem main_keeps {A : Unit → Prop} (hL : L.FreeBut p) (hp : ∀ text, ¬ p (.cout text)) {fuel : ℕ}
    (h : ∀ ppk, L.Keeps A True (doRequest env api opts ppk fuel)) (typed : List String) :
    L.Keeps A True (main env api opts typed fuel) := by
  unfold main
  split
  · -- an error about the key throws
    refine Law.Keeps.andThen (A := fun _ => True) ?_ fun ppk _ => h ppk
    refine (Law.Keeps.each (P := True) fun _ _ => .raise _).andThen fun _ _ => ?_
    exact (Law.Keeps.ofExcept _).weaken fun _ _ => trivial
  · exact (hL.emit (hp _)).andThen fun _ _ => hL.halt

theorem main_enough (typed : List String) {fuel : ℕ} (hfuel : 1 ≤ fuel)
    (hattempts : opts.reconnections ≤ fuel) (w : World ν) :
    (main env api opts typed fuel w).outcome ≠ .stop .outOfFuel := by
  have hkeeps : (enough ν opts.reconnections fuel).Keeps (fun _ => True) True
      (main env api opts typed fuel) :=
    main_keeps (enough_freeBut _ _) (fun _ => nofun) (fun ppk => doRequest_enough ppk fuel) typed
  exact fun ho => hkeeps.of_stop trivial ho hfuel (by omega) rfl

/-! ### Runs that do not give up -/

/-- The law about the parts of the trace `all` that have no stray event: the process does not exit
with status 0. -/
def steady (ν : Type) (api : Api) (all : List Event) : Law (World ν) Event Stop where
  Moves _ _ _ := True
  Stops _ _ s := s ≠ .exit 0
  Fair t := t <:+: all ∧ ∀ e ∈ t, e.isStray api = false
  moves_nil _ := trivial
  moves_append _ _ := trivial
  stops_append _ h := h
  fair_append {t u} h :=
    ⟨⟨(List.prefix_append t u).isInfix.trans h.1, fun e he => h.2 e (List.mem_append_left _ he)⟩,
      (List.suffix_append t u).isInfix.trans h.1, fun e he => h.2 e (List.mem_append_right _ he)⟩

theorem steady_freeBut (api : Api) (all : List Event) :
    (steady ν api all).FreeBut (·.isReport = true) where
  tool {e} he := by cases e <;> first | rfl | cases he
  free _ _ := trivial
  crash _ := nofun
  exit _ := nofun

theorem not_fair_of_stray {all : List Event} {e : Event} (he : e.isStray api = true) {C : Prop}
    (h : (steady ν api all).Fair [e]) : C := by
  have hnot := h.2 e List.mem_cons_self
  rw [he] at hnot
  cases hnot

variable {all : List Event}

theorem errorHandler_steady {doRequest : M ν Unit}
    (h : (steady ν api all).Keeps (fun _ => AnswerPrinted api all) True doRequest) :
    ErrorKeeps (steady ν api all) (AnswerPrinted api all) True (errorHandler opts doRequest) := by
  intro code text w hw
  rw [errorHandler_apply] at hw ⊢
  obtain ⟨hlogged, hrest⟩ := (steady ν api all).fair_append hw
  have hfree : (steady ν api all).Moves w (logged code text w) w := trivial
  refine Law.Meets.prepend ?_ hfree
  split_ifs with hlast hcode
  · exact nofun
  · rw [if_neg hlast, if_pos hcode] at hrest
    exact h w.counted hrest
  · have hstray : (Event.report code text).isStray api = true := by
      simpa [Event.isStray] using hcode
    have hnot := hlogged.2 _ List.mem_cons_self
    rw [hstray] at hnot
    cases hnot

/-- **An attempt returns only after a payment**, its own or that of an attempt inside of it.  By
induction on the fuel. -/
theorem doRequest_steady (htest : opts.test = false) (ppk : Option Pair) (fuel : ℕ) :
    (steady ν api all).Keeps (fun _ => AnswerPrinted api all) True
      (doRequest env api opts ppk fuel) := by
  induction fuel with
  | zero => exact .halt fun _ => nofun
  | succ fuel ih =>
    refine (attempt_keeps (steady_freeBut api all) (fun e he _ h => by simp [he] at h) nofun
      (errorHandler_steady ih) (fun status method hf => ?_) ppk).weaken fun _ hend => ?_
    · exact not_fair_of_stray rfl hf
    · rcases hend with h | ⟨body, res, v, hm, hf, hv, hempty⟩ | hf |
        ⟨body, res, v, text, hm, hf, hv, htext, hcouts⟩ | h
      · exact h
      · exact not_fair_of_stray (by simp [Event.isStray, hm, hv, hempty]) hf
      · exact not_fair_of_stray rfl hf
      · exact ⟨body, res, v, text, hm, hf.1.subset List.mem_cons_self, hv, htext, hcouts.1⟩
      · rw [htest] at h
        cases h

/-! ### The count of the errors -/

/-- The law that every error is counted, that the tool goes on only while attempts are left, and
that it never exits with status 0. -/
def counting (ν : Type) (attempts : ℤ) : Law (World ν) Event Stop where
  Moves w t w' := w'.reconnections = w.reconnections + reports t ∧
    (reports t = 0 ∨ (w'.reconnections : ℤ) < attempts)
  Stops _ _ s := s ≠ .exit 0
  Fair _ := True
  moves_nil _ := ⟨rfl, .inl rfl⟩
  moves_append := by
    rintro w t w' u w'' ⟨ht, hlt⟩ ⟨hu, hlu⟩
    rw [reports_append]
    omega
  stops_append _ h := h
  fair_append _ := ⟨trivial, trivial⟩

theorem counting_freeBut (attempts : ℤ) : (counting ν attempts).FreeBut (·.isReport = true) where
  tool {e} he := by cases e <;> first | rfl | cases he
  free {w w' t} hw ht := by
    have hnone : reports t = 0 := List.countP_eq_zero.2 ht
    exact ⟨by rw [hw, hnone]; rfl, .inl hnone⟩
  crash _ := nofun
  exit _ := nofun

theorem counting_logged {attempts : ℤ} {w : World ν} (code : ResultCode) (text : String)
    (hlast : ¬ attempts ≤ ((w.reconnections + 1 : ℕ) : ℤ)) :
    (counting ν attempts).Moves w (logged code text w) w.counted :=
  ⟨rfl, .inr (not_le.1 hlast)⟩

theorem errorHandler_counting {doRequest : M ν Unit}
    (h : (counting ν opts.reconnections).Keeps (fun _ => True) True doRequest) :
    ErrorKeeps (counting ν opts.reconnections) True True (errorHandler opts doRequest) := by
  intro code text w _
  rw [errorHandler_apply]
  split_ifs with hlast hcode
  · exact nofun
  · exact (h w.counted trivial).prepend (counting_logged code text fun hle => hlast (.inl hle))
  · have hnil : (counting ν opts.reconnections).Meets (fun _ => True) True w.counted
        (⟨.ret (), [], w.counted⟩ : Run (World ν) Event Exn Stop Unit) :=
      ⟨(counting ν _).moves_nil _, trivial⟩
    exact hnil.prepend (counting_logged code text fun hle => hlast (.inl hle))

theorem doRequest_counting (ppk : Option Pair) (fuel : ℕ) :
    (counting ν opts.reconnections).Keeps (fun _ => True) True
      (doRequest env api opts ppk fuel) := by
  induction fuel with
  | zero => exact .halt fun _ => nofun
  | succ fuel ih =>
    exact (attempt_keeps (counting_freeBut _) (fun e he _ h => by simp [he] at h) nofun
      (errorHandler_counting ih) (fun _ _ _ => trivial) ppk).weaken fun _ _ => trivial

/-- `main` reports fewer errors than there are attempts, or none, if it returns; it does not exit
with status 0. -/
theorem main_counting (env : Env ν) (api : Api) (opts : Options) (typed : List String) (fuel : ℕ)
    (net : ν) :
    (main env api opts typed fuel (World.init net)).outcome ≠ .stop (.exit 0) ∧
      ((main env api opts typed fuel (World.init net)).outcome = .ret () →
        reports (main env api opts typed fuel (World.init net)).trace = 0 ∨
          (reports (main env api opts typed fuel (World.init net)).trace : ℤ) <
            opts.reconnections) := by
  have hkeeps : (counting ν opts.reconnections).Keeps (fun _ => True) True
      (main env api opts typed fuel) :=
    main_keeps (counting_freeBut _) (fun _ => nofun) (fun ppk => doRequest_counting ppk fuel) typed
  constructor <;> intro ho
  · exact hkeeps.of_stop trivial ho rfl
  · obtain ⟨⟨hcount, hlt⟩, -⟩ := hkeeps.of_ret trivial ho
    have hinit : (World.init net).reconnections = 0 := rfl
    omega

/-! ### Whole runs -/

/-- A run without stray events that returns has paid. -/
theorem main_answerPrinted (htest : opts.test = false) {typed : List String} {fuel : ℕ} {net : ν}
    (hsteady : ∀ e ∈ (main env api opts typed fuel (World.init net)).trace, e.isStray api = false)
    (ho : (main env api opts typed fuel (World.init net)).outcome = .ret ()) :
    AnswerPrinted api (main env api opts typed fuel (World.init net)).trace := by
  have hkeeps : (steady ν api (main env api opts typed fuel (World.init net)).trace).Keeps
      (fun _ => AnswerPrinted api (main env api opts typed fuel (World.init net)).trace) True
      (main env api opts typed fuel) :=
    main_keeps (steady_freeBut _ _) (fun _ => nofun) (fun ppk => doRequest_steady htest ppk fuel)
      typed
  exact (hkeeps.of_ret ⟨List.infix_refl _, hsteady⟩ ho).2

/-- **Status 0 means that the transfer was made.**  In a run of the tool without `--test`, whatever
the attempts come to: if every stray event is an error that was reported when no attempts were left,
then the process ends with status 0 only if the node answered a transaction with a result and
"Send transfer" was printed.  The recursion does not run out of fuel. -/
theorem status_zero_transferred (env : Env ν) (api : Api) (htest : opts.test = false)
    (typed : List String) {fuel : ℕ} (hfuel : 1 ≤ fuel) (hattempts : opts.reconnections ≤ fuel)
    (net : ν)
    (hsteady : ∀ e ∈ (main env api opts typed fuel (World.init net)).trace, e.isStray api = true →
      e.isReport = true ∧ opts.reconnections ≤
        reports (main env api opts typed fuel (World.init net)).trace) :
    (main env api opts typed fuel (World.init net)).outcome ≠ .stop .outOfFuel ∧
      ((main env api opts typed fuel (World.init net)).outcome = .ret () ∨
          (main env api opts typed fuel (World.init net)).outcome = .stop (.exit 0) →
        Transferred api (main env api opts typed fuel (World.init net)).trace) := by
  obtain ⟨hexit, hreports⟩ := main_counting env api opts typed fuel net
  refine ⟨main_enough typed hfuel hattempts _, fun ho => ?_⟩
  have hret := ho.resolve_right hexit
  refine (main_answerPrinted htest (fun e he => ?_) hret).transferred
  -- a stray error would be one more than the run has reported
  by_contra hstray
  obtain ⟨hreport, hle⟩ := hsteady e he (by simpa using hstray)
  have hpos : 0 < reports (main env api opts typed fuel (World.init net)).trace :=
    List.countP_pos_iff.2 ⟨e, he, hreport⟩
  have := hreports hret
  omega

/-- The first attempt fails, the second one pays. -/
theorem status_zero_transferred_late :
    (main lateNode (.sample [blockIdReply, sentReply]) transferOptions [] 3
      (World.init 0)).outcome ≠ .stop .outOfFuel ∧
    ((main lateNode (.sample [blockIdReply, sentReply]) transferOptions [] 3
        (World.init 0)).outcome = .ret () ∨
      (main lateNode (.sample [blockIdReply, sentReply]) transferOptions [] 3
        (World.init 0)).outcome = .stop (.exit 0) →
      Transferred (.sample [blockIdReply, sentReply]) (main lateNode
        (.sample [blockIdReply, sentReply]) transferOptions [] 3 (World.init 0)).trace) :=
  status_zero_transferred lateNode (.sample [blockIdReply, sentReply]) rfl [] (by decide)
    (by decide) 0 (by decide +kernel)

/-- A node that fails the block id query: the tool returns at once, with status 0. -/
theorem status_zero_not_transferred :
    (main (Env.answering fun n : Unit => (⟨500, ""⟩, n)) (.sample []) transferOptions [] 3
        (World.init ())).outcome = .ret () ∧
      ¬ Transferred (.sample []) (main (Env.answering fun n : Unit => (⟨500, ""⟩, n)) (.sample [])
        transferOptions [] 3 (World.init ())).trace :=
  ⟨rfl, fun h => absurd h.2 (by decide +kernel)⟩

end Cli.Transfer

end MileRpc
