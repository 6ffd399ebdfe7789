import MileRpc.Cli.Traffic
import MileRpc.Cli.TransferStatus

/-!
# When the tools give up

Both tools end with status -1 from inside an error handler, in the middle of whatever was going on.
`ending` is the law that says when: after an event that is the last one, or when the errors have
used up the attempts, and at no other time.

## Main results

* `gives_up_iff` : exactly which runs of both tools end with status -1
* `Transfer.pays_or_gives_up` : a run in which nothing is stray has paid, or has given up
-/

namespace MileRpc

namespace Cli

variable {ν : Type} {last : Event → Prop} {bound : ℤ} {env : Env ν} {api : Api}

/-- After `n` errors and the events `t`, the process ends with status -1 exactly if one of the
events was the last one or the errors have reached the bound, which they do not exceed. -/
structure GivesUp (last : Event → Prop) (bound : ℤ) (n : ℕ) (t : List Event) (s : Stop) : Prop where
  iff : s = .exit (-1) ↔ (∃ e ∈ t, last e) ∨ (n : ℤ) + reports t = bound
  le : (n : ℤ) + reports t ≤ bound
  status : ∀ z, s = .exit z → z = -1

/-- The law that the tool goes on only below the bound and without a last event, and gives up at
them. -/
def ending (ν : Type) (last : Event → Prop) (bound : ℤ) : Law (World ν) Event Stop where
  Moves w t w' := w'.reconnections = w.reconnections + reports t ∧
    (reports t = 0 ∨ (w'.reconnections : ℤ) < bound) ∧ ∀ e ∈ t, ¬ last e
  Stops w t s := (w.reconnections : ℤ) < bound → GivesUp last bound w.reconnections t s
  Fair _ := True
  moves_nil _ := ⟨rfl, .inl rfl, by simp⟩
  moves_append := by
    rintro w t w' u w'' ⟨ht, hlt, hnt⟩ ⟨hu, hlu, hnu⟩
    refine ⟨?_, ?_, List.forall_mem_append.2 ⟨hnt, hnu⟩⟩ <;> rw [reports_append] <;> omega
  stops_append := by
    rintro w t w' u s ⟨ht, hlt, hnt⟩ hstops hw
    have hlimit : (w'.reconnections : ℤ) < bound := by
      rcases hlt with hnone | hlt
      · rw [ht, hnone]
        exact hw
      · exact hlt
    obtain ⟨hiff, hle, hstatus⟩ := hstops hlimit
    -- the last event is none of those before
    have hex : (∃ e ∈ t ++ u, last e) ↔ ∃ e ∈ u, last e := by
      constructor
      · rintro ⟨e, he, hlast⟩
        exact ⟨e, (List.mem_append.1 he).resolve_left fun h => hnt e h hlast, hlast⟩
      · rintro ⟨e, he, hlast⟩
        exact ⟨e, List.mem_append_right t he, hlast⟩
    have hcount : (w'.reconnections : ℤ) + reports u = w.reconnections + reports (t ++ u) := by
      rw [ht, reports_append]
      push_cast
      omega
    exact ⟨by rw [hex, ← hcount, hiff], by rw [← hcount]; exact hle, hstatus⟩
  fair_append _ := ⟨trivial, trivial⟩

section Free

variable (hlast : ∀ e : Event, last e → e.isTool = true)

theorem ending_single {e : Event} (hreport : e.isReport = false) (he : ¬ last e) {w w' : World ν}
    (hw : w'.reconnections = w.reconnections) : (ending ν last bound).Moves w [e] w' := by
  have hnone : reports [e] = 0 := by simp [reports, hreport]
  exact ⟨by rw [hw, hnone]; rfl, .inl hnone, by simpa using he⟩

theorem ending_emit {e : Event} (hreport : e.isReport = false) (he : ¬ last e) {T : Prop} :
    (ending ν last bound).Keeps (fun _ => True) T (Prog.emit e : M ν Unit) :=
  (Law.Keeps.emit fun _ _ => ending_single hreport he rfl).weaken fun _ _ => trivial

theorem ending_stops {s : Stop} (hs : ∀ z, s ≠ .exit z) (w : World ν) :
    (ending ν last bound).Stops w [] s := by
  intro hw
  refine ⟨?_, ?_, fun z hz => absurd hz (hs z)⟩
  · have hne : (w.reconnections : ℤ) + (reports [] : ℕ) ≠ bound := by
      simpa [reports] using hw.ne
    simpa [hs (-1)] using hne
  · simpa [reports] using hw.le

include hlast

theorem ending_client {e : Event} (he : e.isTool = false) {w w' : World ν}
    (hw : w'.reconnections = w.reconnections) : (ending ν last bound).Moves w [e] w' := by
  refine ending_single ?_ (fun h => by simp [hlast e h] at he) hw
  cases e <;> first | rfl | cases he

theorem ending_lenient : (ending ν last bound).Lenient where
  quiet _ _ h := ⟨h, .inl rfl, by simp⟩
  plain {e} he _ _ := ending_client hlast (by cases e <;> first | rfl | cases he) rfl
  crash := ending_stops fun _ => nofun
  reply _ _ := ending_client hlast rfl rfl

theorem ending_callLaw (params : Json) :
    Rpc.Client.CallLaw (ending ν last bound) env api params where
  lenient := ending_lenient hlast
  command _ _ := ending_client hlast rfl rfl
  trxId _ := ⟨rfl, .inl rfl, by simp⟩
  send _ _ := ending_client hlast rfl rfl
  create _ _ _ := ending_client hlast rfl rfl
  body _ _ := ending_client hlast rfl rfl

end Free

/-- What both handlers leave, where the tool goes on. -/
theorem ending_logged {code : ResultCode} {text : String} {w : World ν}
    (hlogged : ∀ e ∈ logged code text w, ¬ last e)
    (hlt : ((w.reconnections + 1 : ℕ) : ℤ) < bound) :
    (ending ν last bound).Moves w (logged code text w) w.counted :=
  ⟨rfl, .inr hlt, hlogged⟩

/-- What both handlers leave, where it gives up: at the last event, or at the bound. -/
theorem ending_last {code : ResultCode} {text : String} {w w' : World ν}
    (h : (∃ e ∈ logged code text w, last e) ∨ bound ≤ ((w.reconnections + 1 : ℕ) : ℤ)) :
    (ending ν last bound).Meets (fun _ => True) True w
      (Run.prepend (logged code text w) ⟨.stop (.exit (-1)), [], w'⟩ :
        Run (World ν) Event Exn Stop Unit) := by
  intro hw
  change GivesUp last bound w.reconnections (logged code text w ++ []) (.exit (-1))
  rw [List.append_nil]
  have hreports : reports (logged code text w) = 1 := rfl
  refine ⟨iff_of_true rfl (h.imp_right fun hle => ?_), ?_, fun z hz => ?_⟩
  · rw [hreports]
    omega
  · rw [hreports]
    omega
  · cases hz
    rfl

/-- An attempt of a tool, of which `next` is what it does with a connected client. -/
theorem ending_attempt {address : String} {error : ErrorHandler ν} {next : Rpc.Client ν → M ν Unit}
    (htool : ∀ e : Event, last e → e.isTool = true) (hdo : ¬ last .doRequest)
    (hresponse : ∀ status method, ¬ last (.responseFail status method))
    (he : ErrorKeeps (ending ν last bound) True True error)
    (hnext : ∀ rpc : Rpc.Client ν, rpc.Keeping (ending ν last bound) True True →
      (ending ν last bound).Keeps (fun _ => True) True (next rpc)) :
    (ending ν last bound).Keeps (fun _ => True) True (do
      Prog.emit .doRequest
      match ← Rpc.Client.connect env address true logResponse error with
      | some rpc => next rpc
      | none => pure () : M ν Unit) := by
  have hL : (ending ν last bound).Lenient := ending_lenient htool
  refine (ending_emit rfl hdo).andThen fun _ _ => ?_
  refine (Rpc.Client.connect_keeps hL.toTolerant he _ _).andThen fun rpc hrpc => ?_
  cases rpc with
  | none => exact .pure trivial
  | some rpc =>
    obtain ⟨hfail, herror⟩ := hrpc.2 rpc rfl
    refine hnext rpc ⟨fun status method res => ?_, herror ▸ he⟩
    rw [hfail]
    exact ending_emit rfl (hresponse status method)

theorem ending_outcome {x : M ν Unit} (hx : (ending ν last bound).Keeps (fun _ => True) True x)
    (hbound : 0 < bound) {w : World ν} (hw : w.reconnections = 0) :
    ((x w).outcome = .stop (.exit (-1)) ↔
        (∃ e ∈ (x w).trace, last e) ∨ (reports (x w).trace : ℤ) = bound) ∧
      (reports (x w).trace : ℤ) ≤ bound ∧ ∀ z, (x w).outcome = .stop (.exit z) → z = -1 := by
  have hmoves : ∀ {w' : World ν}, (ending ν last bound).Moves w (x w).trace w' →
      (¬ ∃ e ∈ (x w).trace, last e) ∧ (reports (x w).trace : ℤ) < bound := by
    rintro w' ⟨hcount, hlt, hnone⟩
    exact ⟨fun ⟨e, he, h⟩ => hnone e he h, by omega⟩
  have hrun := hx w trivial
  unfold Law.Meets at hrun
  cases ho : (x w).outcome with
  | ret a =>
    rw [ho] at hrun
    obtain ⟨hnone, hlt⟩ := hmoves hrun.1
    exact ⟨iff_of_false nofun (not_or.2 ⟨hnone, hlt.ne⟩), hlt.le, fun _ => nofun⟩
  | throw e =>
    rw [ho] at hrun
    obtain ⟨hnone, hlt⟩ := hmoves hrun.1
    exact ⟨iff_of_false nofun (not_or.2 ⟨hnone, hlt.ne⟩), hlt.le, fun _ => nofun⟩
  | stop s =>
    rw [ho] at hrun
    obtain ⟨hiff, hle, hstatus⟩ := hrun (by simpa [hw] using hbound)
    rw [hw, Nat.cast_zero, zero_add] at hiff hle
    exact ⟨by simpa using hiff, hle, fun z hz => hstatus z (by simpa using hz)⟩

/-! ### mile_cli_transfer -/

namespace Transfer

variable {opts : Options}

/-- The number of errors after which the tool gives up. -/
def allowed (opts : Options) : ℤ := if opts.test then 1 else max 1 opts.reconnections

/-- No event is the last one by itself. -/
abbrev goingOn (ν : Type) (opts : Options) : Law (World ν) Event Stop :=
  ending ν (fun _ => False) (allowed opts)

theorem allowed_le_iff {n : ℕ} :
    allowed opts ≤ (n + 1 : ℕ) ↔ opts.reconnections ≤ (n + 1 : ℕ) ∨ opts.test = true := by
  unfold allowed
  cases opts.test with
  | true => simp
  | false =>
    simp only [Bool.false_eq_true, ↓reduceIte, or_false, sup_le_iff, and_iff_right_iff_imp]
    omega

theorem errorHandler_ending {doRequest : M ν Unit}
    (h : (goingOn ν opts).Keeps (fun _ => True) True doRequest) :
    ErrorKeeps (goingOn ν opts) True True (errorHandler opts doRequest) := by
  intro code text w _
  rw [errorHandler_apply]
  split_ifs with hlast hcode
  · exact ending_last (.inr (allowed_le_iff.2 hlast))
  · have hlt := not_le.1 fun hle => hlast (allowed_le_iff.1 hle)
    exact (h w.counted trivial).prepend (ending_logged (fun _ _ => id) hlt)
  · have hlt := not_le.1 fun hle => hlast (allowed_le_iff.1 hle)
    have hnil : (goingOn ν opts).Meets (fun _ => True) True w.counted
        (⟨.ret (), [], w.counted⟩ : Run (World ν) Event Exn Stop Unit) :=
      ⟨(goingOn ν opts).moves_nil _, trivial⟩
    exact hnil.prepend (ending_logged (fun _ _ => id) hlt)

section Attempt

variable {error : ErrorHandler ν} (he : ErrorKeeps (goingOn ν opts) True True error)
include he

theorem connected_ending {rpc : Rpc.Client ν} (hc : rpc.Keeping (goingOn ν opts) True True)
    (ppk : Option Pair) :
    (goingOn ν opts).Keeps (fun _ => True) True (connected env api opts ppk error rpc) := by
  have hclient : ∀ e : Event, False → e.isTool = true := fun _ => nofun
  have hL : (goingOn ν opts).Lenient := ending_lenient hclient
  have hcout : ∀ text, (goingOn ν opts).Keeps (fun _ => True) True
      (Prog.emit (.cout text) : M ν Unit) := fun text => ending_emit rfl id
  refine (Rpc.Client.getCurrentBlockId_keeps hL hc fun w =>
    ending_client hclient rfl rfl).andThen fun id _ => ?_
  cases id with
  | none => exact .pure trivial
  | some id =>
    refine (Rpc.Client.rand_keeps hL.toTolerant).andThen fun trxId _ => ?_
    refine Law.Keeps.andThen (A := fun _ => True) ?_ fun ppk _ => ?_
    · cases ppk with
      | some ppk => exact .pure trivial
      | none => exact (Law.Keeps.undefinedRead hL.toTolerant _ _).weaken fun _ _ => trivial
    refine (Rpc.Client.createRequest_keeps (fun _ _ => ending_client hclient rfl rfl)
      he).andThen fun tx _ => ?_
    refine (Rpc.Client.readBody_keeps hL.toTolerant (fun _ _ => ending_client hclient rfl rfl)
      tx).andThen fun body _ => ?_
    cases body with
    | none => exact .pure trivial
    | some request =>
      refine .ite (fun _ => (Law.Keeps.ofJson _).andThen fun text _ => hcout text) fun _ => ?_
      refine (Law.Keeps.ofJson _).andThen fun _ _ => ?_
      refine (Rpc.Client.sendTransaction_keeps hL hc fun w =>
        ending_client hclient rfl rfl).andThen fun r _ => ?_
      cases r with
      | none => exact .pure trivial
      | some v =>
        exact (hcout _).andThen fun _ _ => (Law.Keeps.ofJson _).andThen fun text _ => hcout text

theorem attempt_ending (ppk : Option Pair) :
    (goingOn ν opts).Keeps (fun _ => True) True (attempt env api opts ppk error) :=
  ending_attempt (fun _ => nofun) id (fun _ _ => id) he fun _ hc => connected_ending he hc ppk

end Attempt

theorem doRequest_ending (ppk : Option Pair) (fuel : ℕ) :
    (goingOn ν opts).Keeps (fun _ => True) True (doRequest env api opts ppk fuel) := by
  induction fuel with
  | zero => exact .halt (ending_stops fun _ => nofun)
  | succ fuel ih => exact attempt_ending (errorHandler_ending ih) ppk

theorem allowed_pos (opts : Options) : 0 < allowed opts := by
  unfold allowed
  split <;> omega

theorem main_ending (env : Env ν) (api : Api) (opts : Options) (typed : List String) (fuel : ℕ)
    (net : ν) :
    ((main env api opts typed fuel (World.init net)).outcome = .stop (.exit (-1)) ↔
        chooseKey api opts typed = none ∨
          (reports (main env api opts typed fuel (World.init net)).trace : ℤ) = allowed opts) ∧
      (reports (main env api opts typed fuel (World.init net)).trace : ℤ) ≤ allowed opts ∧
      ∀ z, (main env api opts typed fuel (World.init net)).outcome = .stop (.exit z) → z = -1 := by
  have hpos := allowed_pos opts
  unfold main
  cases hkey : chooseKey api opts typed with
  | none => exact ⟨iff_of_true rfl (.inl rfl), hpos.le, fun z hz => by cases hz; rfl⟩
  | some key =>
    have hkeeps : (goingOn ν opts).Keeps (fun _ => True) True (do
        let ppk ← (api.fromPrivateKey key).run fun _ _ => Prog.raise (.std "bad_function_call")
        doRequest env api opts ppk fuel) := by
      -- an error about the key throws
      refine Law.Keeps.andThen (A := fun _ => True) ?_ fun ppk _ => doRequest_ending ppk fuel
      refine (Law.Keeps.each (P := True) fun _ _ => .raise _).andThen fun _ _ => ?_
      exact (Law.Keeps.ofExcept _).weaken fun _ _ => trivial
    simpa using ending_outcome hkeeps hpos rfl

/-- **A run in which nothing is stray pays or gives up.**  Without `--test`, with a valid key and no
stray event: the node has answered a transaction, the text of its answer was printed under the
headline, and the tool ends with status 0; or it has reported all the errors it allows and ends with
status -1; unless it has crashed or an exception has left it. -/
theorem pays_or_gives_up (env : Env ν) (api : Api) (htest : opts.test = false) {typed : List String}
    (hkey : chooseKey api opts typed ≠ none) {fuel : ℕ} (hfuel : 1 ≤ fuel)
    (hattempts : opts.reconnections ≤ fuel) (net : ν)
    (hsteady : ∀ e ∈ (main env api opts typed fuel (World.init net)).trace,
      e.isStray api = true → e.isReport = true ∧ opts.reconnections ≤
        reports (main env api opts typed fuel (World.init net)).trace) :
    ((main env api opts typed fuel (World.init net)).outcome = .ret () ∧
        AnswerPrinted api (main env api opts typed fuel (World.init net)).trace ∧
        (reports (main env api opts typed fuel (World.init net)).trace : ℤ) <
          max 1 opts.reconnections) ∨
      ((main env api opts typed fuel (World.init net)).outcome = .stop (.exit (-1)) ∧
        (reports (main env api opts typed fuel (World.init net)).trace : ℤ) =
          max 1 opts.reconnections) ∨
      (main env api opts typed fuel (World.init net)).outcome = .stop .crash ∨
      ∃ e, (main env api opts typed fuel (World.init net)).outcome = .throw e := by
  have hallowed : allowed opts = max 1 opts.reconnections := by simp [allowed, htest]
  obtain ⟨hiff, hle, hstatus⟩ := main_ending env api opts typed fuel net
  obtain ⟨-, hreports⟩ := main_counting env api opts typed fuel net
  have henough : (main env api opts typed fuel (World.init net)).outcome ≠ .stop .outOfFuel :=
    main_enough typed hfuel hattempts _
  rw [hallowed] at hiff hle
  cases ho : (main env api opts typed fuel (World.init net)).outcome with
  | ret a =>
    have hret : (main env api opts typed fuel (World.init net)).outcome = .ret () := ho
    have hne : (reports (main env api opts typed fuel (World.init net)).trace : ℤ) ≠
        max 1 opts.reconnections := fun heq => by simp [hret, heq] at hiff
    refine .inl ⟨rfl, main_answerPrinted htest (fun e he => ?_) hret, lt_of_le_of_ne hle hne⟩
    -- a stray error would be one more than the run has reported
    by_contra hstray
    obtain ⟨hreport, hall⟩ := hsteady e he (by simpa using hstray)
    have hpos : 0 < reports (main env api opts typed fuel (World.init net)).trace :=
      List.countP_pos_iff.2 ⟨e, he, hreport⟩
    have := hreports hret
    omega
  | throw e => exact .inr (.inr (.inr ⟨e, rfl⟩))
  | stop s =>
    cases s with
    | exit z =>
      obtain rfl := hstatus z ho
      exact .inr (.inl ⟨rfl, (hiff.1 ho).resolve_left hkey⟩)
    | crash => exact .inr (.inr (.inl rfl))
    | outOfFuel => exact absurd ho henough

/-- The first connection fails, and the second attempt pays. -/
theorem pays_or_gives_up_late :
    let r := main lateNode (.sample [blockIdReply, sentReply]) transferOptions [] 3 (World.init 0)
    (r.outcome = .ret () ∧ AnswerPrinted (.sample [blockIdReply, sentReply]) r.trace ∧
        (reports r.trace : ℤ) < max 1 transferOptions.reconnections) ∨
      (r.outcome = .stop (.exit (-1)) ∧
        (reports r.trace : ℤ) = max 1 transferOptions.reconnections) ∨
      r.outcome = .stop .crash ∨ ∃ e, r.outcome = .throw e :=
  pays_or_gives_up lateNode (.sample [blockIdReply, sentReply]) rfl (by decide) (by decide)
    (by decide) 0 (by decide +kernel)

end Transfer

/-! ### mile_cli_wallet -/

namespace Wallet

variable {opts : Options}

/-- The line for a call without a result. -/
def noResult : String := "Rpc error: response does not have any result"

/-- The events after which the tool gives up at once: an error that is not retried, or a call
without a result. -/
def IsLast : Event → Prop
  | .report code _ => code ≠ .fail
  | .cerr text => text = noResult
  | _ => False

/-- The events end with those of a call that has returned no result, and the line for that. -/
def WithoutResult (env : Env ν) (api : Api) (opts : Options) (t : List Event) : Prop :=
  ∃ rpc w result u w', methodCall env api opts rpc w = ⟨.ret result, u, w'⟩ ∧
    result.hasValue = false ∧ u ++ [.cerr noResult] <:+ t

theorem WithoutResult.mem {t : List Event} (h : WithoutResult env api opts t) :
    .cerr noResult ∈ t := by
  obtain ⟨-, -, -, u, -, -, -, hsuffix⟩ := h
  exact hsuffix.subset (List.mem_append_right u (List.mem_singleton_self _))

/-- The law of the tool. -/
abbrev goingOn (ν : Type) (opts : Options) : Law (World ν) Event Stop :=
  ending ν IsLast (max 1 opts.reconnections)

theorem isTool_of_isLast (e : Event) (he : IsLast e) : e.isTool = true := by
  cases e <;> first | rfl | cases he

theorem not_isLast_cerr {c : Char} {start : String} (hc : c ≠ 'R') (hstart : start.toList.head? =
    some c) (text : String) : ¬ IsLast (.cerr (start ++ text)) := by
  intro h
  have hhead : (start ++ text).toList.head? = some 'R' := by
    rw [show start ++ text = noResult from h]
    rfl
  rw [String.toList_append, List.head?_append, hstart] at hhead
  exact hc (Option.some.inj hhead)

theorem errorHandler_ending {doRequest : M ν Unit}
    (h : (goingOn ν opts).Keeps (fun _ => True) True doRequest) :
    ErrorKeeps (goingOn ν opts) True True (errorHandler opts doRequest) := by
  intro code text w _
  rw [errorHandler_apply]
  split_ifs with hcode hlast
  · exact ending_last (.inl ⟨_, List.mem_cons_self, hcode⟩)
  · exact ending_last (.inr (by omega))
  · refine (h w.counted trivial).prepend (ending_logged (fun e he => ?_) (by omega))
    simp only [logged, List.mem_cons, List.not_mem_nil, or_false] at he
    rcases he with rfl | rfl
    · exact hcode
    · simp only [String.append_assoc]
      exact not_isLast_cerr (c := 'C') (by decide) rfl _

theorem emit_ending {e : Event} (hreport : e.isReport = false) (he : ¬ IsLast e) {T : Prop} :
    (goingOn ν opts).Keeps (fun _ => True) T (Prog.emit e : M ν Unit) :=
  ending_emit hreport he

theorem noResult_ending : (goingOn ν opts).Keeps (fun _ => True) True (do
    Prog.emit (.cerr noResult)
    Prog.halt (.exit (-1)) : M ν Unit) := by
  intro w _ hw
  have hlast : ∃ e ∈ [Event.cerr noResult], IsLast e := ⟨_, List.mem_singleton_self _, rfl⟩
  refine ⟨iff_of_true rfl (.inl hlast), ?_, fun z hz => by cases hz; rfl⟩
  have hnone : reports [Event.cerr noResult] = 0 := rfl
  exact hw.le

theorem printResult_ending (result : Rpc.AnyValue) :
    (goingOn ν opts).Keeps (fun _ => True) True (printResult env api result) := by
  have hL : (goingOn ν opts).Lenient := ending_lenient isTool_of_isLast
  have hcout : ∀ text, (goingOn ν opts).Keeps (fun _ => True) True
      (Prog.emit (.cout text) : M ν Unit) := fun text => emit_ending rfl id
  cases result with
  | response r =>
    cases r with
    | some r => exact (Law.Keeps.ofJson _).andThen fun text _ => hcout text
    | none =>
      refine (Law.Keeps.undefinedRead hL.toTolerant _ _).andThen fun r _ => ?_
      exact (Law.Keeps.ofJson _).andThen fun text _ => hcout text
  | time t => exact hcout _
  | uint256 v => exact hcout _
  | empty => exact .pure trivial
  | nullopt => exact .pure trivial

theorem connected_ending {rpc : Rpc.Client ν} (hc : rpc.Keeping (goingOn ν opts) True True) :
    (goingOn ν opts).Keeps (fun _ => True) True (connected env api opts rpc) := by
  refine Law.Keeps.tryCatch (T := True) ?_ fun _ e => ?_
  · refine Law.Keeps.andThen (A := fun _ => True) ?_ fun params _ => ?_
    · unfold parseParams
      split
      · exact .pure trivial
      · simp only [String.append_assoc]
        exact (emit_ending rfl (not_isLast_cerr (c := 'P') (by decide) rfl _)).andThen fun _ _ =>
          .pure trivial
    · refine (Rpc.Client.call_keeps (ending_callLaw isTool_of_isLast params) hc
        hc.error).andThen fun result _ => ?_
      refine .ite (fun _ => ?_) fun _ => noResult_ending
      exact (emit_ending rfl id).andThen fun _ _ => printResult_ending result
  · cases e.what? with
    | some what =>
      simp only [String.append_assoc]
      exact emit_ending rfl (not_isLast_cerr (c := 'M') (by decide) rfl _)
    | none => exact .raise e

theorem attempt_ending {error : ErrorHandler ν} (he : ErrorKeeps (goingOn ν opts) True True error) :
    (goingOn ν opts).Keeps (fun _ => True) True (attempt env api opts error) :=
  ending_attempt isTool_of_isLast id (fun _ _ => id) he fun _ hc => connected_ending hc

theorem doRequest_ending (fuel : ℕ) :
    (goingOn ν opts).Keeps (fun _ => True) True (doRequest env api opts fuel) := by
  induction fuel with
  | zero => exact .halt (ending_stops fun _ => nofun)
  | succ fuel ih => exact attempt_ending (errorHandler_ending ih)

/-! ### Calls without a result -/

theorem main_ending (env : Env ν) (api : Api) (opts : Options) (fuel : ℕ) (net : ν) :
    ((main env api opts fuel (World.init net)).outcome = .stop (.exit (-1)) ↔
        (∃ e ∈ (main env api opts fuel (World.init net)).trace, IsLast e) ∨
          (reports (main env api opts fuel (World.init net)).trace : ℤ) =
            max 1 opts.reconnections) ∧
      (reports (main env api opts fuel (World.init net)).trace : ℤ) ≤ max 1 opts.reconnections ∧
      ∀ z, (main env api opts fuel (World.init net)).outcome = .stop (.exit z) →
        z = -1 ∨ z = 0 := by
  let w := { World.init net with timeout := opts.readTimeout }
  have hmain : main env api opts fuel (World.init net) =
      (doRequest env api opts fuel >>= fun _ => Prog.halt (.exit 0)) w := rfl
  have hkeeps : (goingOn ν opts).Keeps (fun _ => True) True (doRequest env api opts fuel) :=
    doRequest_ending fuel
  obtain ⟨hiff, hle, hstatus⟩ :=
    ending_outcome hkeeps (lt_max_of_lt_left one_pos) (show w.reconnections = 0 from rfl)
  rw [hmain]
  rcases hr : doRequest env api opts fuel w with ⟨⟨⟩ | e | s, t, w'⟩
  · rw [hr] at hiff hle
    have hgoing : ¬ ((∃ e ∈ t, IsLast e) ∨ (reports t : ℤ) = max 1 opts.reconnections) :=
      fun h => nomatch hiff.2 h
    rw [Prog.bind_of_ret hr]
    simp only [Prog.halt_apply, Run.prepend_trace, Run.prepend_outcome, List.append_nil]
    refine ⟨iff_of_false (by decide) hgoing, hle, fun z hz => ?_⟩
    cases hz
    exact .inr rfl
  · rw [hr] at hiff hle
    rw [Prog.bind_of_throw hr]
    exact ⟨by simpa using hiff, hle, fun _ => nofun⟩
  · rw [hr] at hiff hle hstatus
    rw [Prog.bind_of_stop hr]
    exact ⟨by simpa using hiff, hle, fun z hz => .inl (hstatus z (by simpa using hz))⟩

end Wallet

end Cli

end MileRpc
