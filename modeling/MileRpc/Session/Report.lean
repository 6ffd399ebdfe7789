import MileRpc.Session.Basic

/-!
# Failures and their reports

The session functions report a failure where they find it and then return their failure value at
once.  `Accounted` says what that comes to for any handlers: a function that succeeds has called
none, a function that fails has called one handler, whose events are the last of the run.

A handler that throws is the one case in which this can be wrong, since `connect` calls the handlers
inside its own `try` block (`Accounted.escaped`).
-/

namespace MileRpc

/-- The events of a session's own work. -/
def Event.isSession : Event → Bool
  | .resolve _ _ | .hostName _ _ | .tcpConnect _ _ | .startHandshake _ _ | .handshake _ _
  | .write _ _ _ | .read _ _ | .request _ | .reply _ _ => true
  | _ => false

/-- The events of a connect. -/
def Event.isConnect : Event → Bool
  | .resolve _ _ | .hostName _ _ | .tcpConnect _ _ | .startHandshake _ _ | .handshake _ _ => true
  | _ => false

theorem Event.isSession_of_isConnect {e : Event} (he : e.isConnect = true) :
    e.isSession = true := by
  cases e <;> first | rfl | cases he

/-- Nothing but the work `own` was done. -/
def Working (own : Event → Bool) (t : List Event) : Prop := ∀ e ∈ t, own e = true

namespace Working

variable {own : Event → Bool} {t u : List Event}

theorem nil : Working own [] := by simp [Working]

theorem append (ht : Working own t) (hu : Working own u) : Working own (t ++ u) :=
  fun e he => (List.mem_append.1 he).elim (ht e) (hu e)

theorem single {e : Event} (he : own e = true) : Working own [e] :=
  List.forall_mem_singleton.2 he

end Working

/-- The calls of the handlers end as `H` says. -/
structure HandlersEnd {ν : Type} (H : Outcome Exn Stop Unit → List Event → Prop)
    (responseFail : ResponseHandler ν) (error : ErrorHandler ν) : Prop where
  responseFail : ∀ status method res, (responseFail status method res).Ensures H
  error : ∀ code text, (error code text).Ensures H

/-- How a function ends that does the work `own` and reports its failures: `ok` are its successes,
with the trace, and `bad` its failures; an exception of its own leaves it only if `T`. -/
inductive Accounted {α : Type} (own : Event → Bool) (H : Outcome Exn Stop Unit → List Event → Prop)
    (T : Prop) (ok : α → List Event → Prop) (bad : α → Prop) :
    Outcome Exn Stop α → List Event → Prop
  | succeeded {a : α} {t : List Event} : Working own t → ok a t →
      Accounted own H T ok bad (.ret a) t
  /-- An exception that was not reported. -/
  | thrown {e : Exn} {t : List Event} : T → Working own t → Accounted own H T ok bad (.throw e) t
  /-- A failure, after one call of a handler. -/
  | failed {a : α} {io h : List Event} : Working own io → H (.ret ()) h → bad a →
      Accounted own H T ok bad (.ret a) (io ++ h)
  /-- A handler ended the process. -/
  | stopped {w : Stop} {io h : List Event} : Working own io → H (.stop w) h →
      Accounted own H T ok bad (.stop w) (io ++ h)
  /-- A handler threw: its exception may be caught. -/
  | escaped {o : Outcome Exn Stop α} {e : Exn} {io h : List Event} (u : List Event) :
      Working own io → H (.throw e) h → Accounted own H T ok bad o (io ++ h ++ u)

/-- After the events `io` of the work, `x` accounts for its failures. -/
def Accounts {ν α : Type} (own : Event → Bool) (H : Outcome Exn Stop Unit → List Event → Prop)
    (T : Prop) (ok : α → List Event → Prop) (bad : α → Prop) (io : List Event) (x : M ν α) : Prop :=
  Working own io → x.Ensures fun o t => Accounted own H T ok bad o (io ++ t)

namespace Accounts

variable {ν α β : Type} {own : Event → Bool} {H : Outcome Exn Stop Unit → List Event → Prop}
  {T : Prop} {ok : α → List Event → Prop} {bad : α → Prop} {io : List Event} {x : M ν α}

theorem pure {a : α} (ha : ok a io) : Accounts own H T ok bad io (Pure.pure a : M ν α) := by
  refine fun hio => Prog.Ensures.pure ?_
  rw [List.append_nil]
  exact .succeeded hio ha

theorem raise (e : Exn) : Accounts own H True ok bad io (Prog.raise e : M ν α) := by
  refine fun hio => Prog.Ensures.raise ?_
  rw [List.append_nil]
  exact .thrown trivial hio

/-- A failure is reported. -/
theorem report {y : M ν Unit} (hy : y.Ensures H) {a : α} (ha : bad a) :
    Accounts own H T ok bad io (do y; Pure.pure a) := by
  refine fun hio => hy.bind (fun _ h hh => ?_) (fun e h hh => ?_) fun w h hh => .stopped hio hh
  · refine Prog.Ensures.pure ?_
    rw [List.append_nil]
    exact .failed hio hh ha
  · simpa using Accounted.escaped (o := .throw e) [] hio hh

/-- A step of the outside. -/
theorem perform_bind {f : ν → β × ν} {e : β → Event} {k : β → M ν α}
    (he : ∀ b, own (e b) = true) (hk : ∀ b, Accounts own H T ok bad (io ++ [e b]) (k b)) :
    Accounts own H T ok bad io (perform f e >>= k) := by
  refine fun hio => Prog.Ensures.perform_bind fun b => ?_
  refine Prog.Ensures.mono (hk b (hio.append (.single (he b)))) fun o t h => ?_
  simpa using h

theorem emit_bind {e : Event} {k : Unit → M ν α} (he : own e = true)
    (hk : Accounts own H T ok bad (io ++ [e]) (k ())) :
    Accounts own H T ok bad io (Prog.emit e >>= k) := by
  refine fun hio => Prog.Ensures.emit_bind ?_
  refine Prog.Ensures.mono (hk (hio.append (.single he))) fun o t h => ?_
  simpa using h

theorem ofExcept_bind {r : Except Exn β} {k : β → M ν α}
    (hk : ∀ b, r = .ok b → Accounts own H True ok bad io (k b)) :
    Accounts own H True ok bad io (Prog.ofExcept r >>= k) := by
  cases r with
  | ok b => exact hk b rfl
  | error e => exact raise e

theorem ofJson_bind {r : Except JsonError β} {k : β → M ν α}
    (hk : ∀ b, r = .ok b → Accounts own H True ok bad io (k b)) :
    Accounts own H True ok bad io (ofJson r >>= k) := by
  cases r with
  | ok b => exact hk b rfl
  | error e => exact raise (.json e)

/-- The rule for sequencing: a failure is passed on at once. -/
theorem bind {okx : β → List Event → Prop} {badx : β → Prop} {x : M ν β} {f : β → M ν α}
    (hx : Accounts own H T okx badx io x) (hok : ∀ b t, okx b t → Accounts own H T ok bad t (f b))
    (hbad : ∀ b, badx b → ∃ a, f b = Pure.pure a ∧ bad a) :
    Accounts own H T ok bad io (x >>= f) := by
  intro hio s
  have hxs := hx hio s
  rcases hr : x s with ⟨b | e | w, t, s'⟩
  · rw [hr] at hxs
    rw [Prog.bind_of_ret hr, Run.prepend_outcome, Run.prepend_trace, ← List.append_assoc]
    generalize io ++ t = u at hxs ⊢
    cases hxs with
    | succeeded hw hb => exact hok b u hb hw s'
    | failed hw hh hb =>
      obtain ⟨a, ha, hbada⟩ := hbad b hb
      rw [ha]
      simpa using Accounted.failed hw hh hbada
    | escaped v hw hh =>
      rw [List.append_assoc]
      exact .escaped _ hw hh
  · rw [hr] at hxs
    rw [Prog.bind_of_throw hr]
    change Accounted own H T ok bad (.throw e) (io ++ t)
    generalize io ++ t = u at hxs ⊢
    cases hxs with
    | thrown hT hw => exact .thrown hT hw
    | escaped v hw hh => exact .escaped v hw hh
  · rw [hr] at hxs
    rw [Prog.bind_of_stop hr]
    change Accounted own H T ok bad (.stop w) (io ++ t)
    generalize io ++ t = u at hxs ⊢
    cases hxs with
    | stopped hw hh => exact .stopped hw hh
    | escaped v hw hh => exact .escaped v hw hh

/-- The rule for catching. -/
theorem tryCatch {T' : Prop} {h : Exn → M ν α} (hx : Accounts own H T ok bad io x)
    (hh : T → ∀ e t, Accounts own H T' ok bad t (h e)) :
    Accounts own H T' ok bad io (x.tryCatch h) := by
  intro hio s
  have hxs := hx hio s
  rcases hr : x s with ⟨a | e | w, t, s'⟩
  · rw [hr] at hxs
    rw [Prog.tryCatch_of_ret hr]
    change Accounted own H T' ok bad (.ret a) (io ++ t)
    generalize io ++ t = u at hxs ⊢
    cases hxs with
    | succeeded hw ha => exact .succeeded hw ha
    | failed hw hh ha => exact .failed hw hh ha
    | escaped v hw hh => exact .escaped v hw hh
  · rw [hr] at hxs
    rw [Prog.tryCatch_of_throw hr, Run.prepend_outcome, Run.prepend_trace, ← List.append_assoc]
    generalize io ++ t = u at hxs ⊢
    cases hxs with
    | thrown hT hw => exact hh hT e u hw s'
    | escaped v hw hh' =>
      rw [List.append_assoc]
      exact .escaped _ hw hh'
  · rw [hr] at hxs
    rw [Prog.tryCatch_of_stop hr]
    change Accounted own H T' ok bad (.stop w) (io ++ t)
    generalize io ++ t = u at hxs ⊢
    cases hxs with
    | stopped hw hh => exact .stopped hw hh
    | escaped v hw hh => exact .escaped v hw hh

end Accounts

/-! ### The session functions -/

/-- The event of the stage after which a session is connected. -/
def Event.connects : Event → Bool
  | .tcpConnect s (.ok res) => !s.useSsl && !res.failed
  | .handshake s (.ok h) => !(s.handshakeIo h).failed
  | _ => false

namespace Session

variable {ν : Type} {env : Env ν} {own : Event → Bool}
  {H : Outcome Exn Stop Unit → List Event → Prop} {responseFail : ResponseHandler ν}
  {error : ErrorHandler ν} {io : List Event}
  (hh : HandlersEnd H responseFail error)

include hh

theorem write_accounts (s : Session) (req : HttpRequest) :
    Accounts Event.isSession H True (fun b _ => b = true) (· = false) io
      (s.write env req error) := by
  refine .perform_bind (fun _ => rfl) fun a => .ofExcept_bind fun res _ => ?_
  split
  · exact .report (hh.error _ _) rfl
  · exact .pure rfl

theorem read_accounts (s : Session) :
    Accounts Event.isSession H True (fun r _ => r ≠ none) (· = none) io (s.read env error) := by
  refine .perform_bind (fun _ => rfl) fun a => .ofExcept_bind fun res _ => ?_
  split
  · exact .report (hh.error _ _) rfl
  · exact .pure (by simp)

/-- A stage that succeeds leaves its event. -/
theorem checkStage_accounts {ok : Bool → List Event → Prop} (s : Session) (stage : String)
    (res : Io) (hok : res.failed = false → ok true io) :
    Accounts own H True ok (· = false) io (s.checkStage stage res error) := by
  unfold checkStage
  split
  · exact .report (hh.error _ _) rfl
  · next hfailed => exact .pure (hok (by simpa using hfailed))

section Connect

variable (hown : ∀ {e : Event}, e.isConnect = true → own e = true)
include hown

theorem connectTls_accounts (s : Session) :
    Accounts own H True (fun b _ => b = true) (· = false) io (s.connectTls env error) := by
  refine Accounts.tryCatch (T := True) ?_ fun _ e t => ?_
  · refine .perform_bind (fun _ => hown rfl) fun r => .ofExcept_bind fun res _ => ?_
    have hstage : ∀ io, Accounts own H True (fun b _ => b = true) (· = false) io
        (s.checkStage "Connection timeout" res error) :=
      fun io => checkStage_accounts hh s _ _ fun _ => rfl
    refine Accounts.bind (hstage _) ?_ ?_
    · rintro b t rfl
      exact .perform_bind (fun _ => hown rfl) fun h => .ofExcept_bind fun _ _ => .pure rfl
    · rintro b rfl
      exact ⟨false, rfl, rfl⟩
  · cases e.what? with
    | some what => exact .report (hh.error _ _) rfl
    | none => exact .raise e

theorem connectBody_accounts (s : Session) :
    Accounts own H True (fun b t => b = true ∧ ∃ e ∈ t, e.connects = true) (· = false) io
      (s.connectBody env error) := by
  refine .perform_bind (fun _ => hown rfl) fun results => .ofExcept_bind fun endpoints _ => ?_
  split
  · exact .report (hh.error _ _) rfl
  split
  · refine .perform_bind (fun _ => hown rfl) fun r => .ofExcept_bind fun named _ => ?_
    split
    · refine Accounts.bind (connectTls_accounts hh hown s) ?_ ?_
      · rintro b t rfl
        refine .perform_bind (fun _ => hown rfl) fun r => .ofExcept_bind fun h hr => ?_
        refine checkStage_accounts hh s _ _ fun hok => ⟨rfl, _, List.mem_append_right _
          (List.mem_singleton_self _), ?_⟩
        simp [Event.connects, hr, hok]
      · rintro b rfl
        exact ⟨false, rfl, rfl⟩
    · exact .report (hh.error _ _) rfl
  · next hssl =>
    refine .perform_bind (fun _ => hown rfl) fun r => .ofExcept_bind fun res hr => ?_
    refine checkStage_accounts hh s _ _ fun hok => ⟨rfl, _, List.mem_append_right _
      (List.mem_singleton_self _), ?_⟩
    simp [Event.connects, hr, hok, hssl]

/-- **A connect accounts for its failures**, and throws only what a handler throws. -/
theorem connect_accounts (s : Session) :
    Accounts own H False (fun b t => b = true ∧ ∃ e ∈ t, e.connects = true) (· = false) io
      (s.connect env error) := by
  refine Accounts.tryCatch (connectBody_accounts hh hown s) fun _ e t => ?_
  cases e.what? <;> exact .report (hh.error _ _) rfl

end Connect

end Session

end MileRpc
