import MileRpc.Session.Report

/-!
# What a connect reports

A connect does not look at its handler before it calls it, and calls it at most once if it does not
throw.  So each failure of a connect has one report, the same for every handler (`Tells.failed`).

The code of the report depends on the stage (`Event.isUnretried`): an exception of any stage and a
refused host name are reported with `FAIL`, but a resolution without endpoints with `NOT_FOUND`, and
a connect or a handshake that ends with an error with `TIMEOUT`.  The tools retry `FAIL` only.
-/

namespace MileRpc

/-- The stages of a connect that end in a failure with another code than `FAIL`. -/
def Event.isUnretried : Event → Bool
  | .resolve _ (.ok 0) => true
  | .tcpConnect _ (.ok io) => io.failed
  | .handshake s (.ok h) => (s.handshakeIo h).failed
  | _ => false

/-- No stage has failed with another code than `FAIL`. -/
def Retried (t : List Event) : Prop := ∀ e ∈ t, e.isUnretried = false

theorem Retried.nil : Retried [] := by simp [Retried]

theorem retried_append {t u : List Event} : Retried (t ++ u) ↔ Retried t ∧ Retried u :=
  List.forall_mem_append

section Tells

variable {ν α : Type}

/-- From `w`, `x` does the work `io`, reports this failure and is false, for every handler that does
not throw.  What the handler leaves comes directly after the work. -/
structure FailsWith (x : ErrorHandler ν → M ν Bool) (w : World ν) (io : List Event) (w' : World ν)
    (code : ResultCode) (text : String) : Prop where
  run : ∀ error : ErrorHandler ν, (error code text w').outcome.NoThrow →
    x error w = ((do error code text; pure false : M ν Bool) w').prepend io
  before : ∀ error : ErrorHandler ν, io ++ (error code text w').trace <+: (x error w).trace

namespace FailsWith

variable {x : ErrorHandler ν → M ν Bool} {w w' : World ν} {io : List Event} {code : ResultCode}
  {text : String}

theorem report (w : World ν) (code : ResultCode) (text : String) :
    FailsWith (fun error => do error code text; pure false) w [] w code text where
  run _ _ := rfl
  before error := Prog.trace_prefix_bind (error code text) (fun _ => pure false) w

theorem prepend {y : ErrorHandler ν → M ν Bool} {w₀ : World ν} {t : List Event}
    (hx : FailsWith x w io w' code text) (hy : ∀ error, y error w₀ = (x error w).prepend t) :
    FailsWith y w₀ (t ++ io) w' code text where
  run error hno := by rw [hy, hx.run error hno, Run.prepend_prepend]
  before error := by
    rw [hy, Run.prepend_trace, List.append_assoc, List.prefix_append_right_inj]
    exact hx.before error

theorem bind {f : ErrorHandler ν → Bool → M ν Bool} (hx : FailsWith x w io w' code text)
    (hf : ∀ error, f error false = pure false) :
    FailsWith (fun error => x error >>= f error) w io w' code text where
  run error hno := by
    have hrun := hx.run error hno
    rcases herror : error code text w' with ⟨_ | e | s, t, w''⟩
    · rw [Prog.bind_of_ret herror] at hrun
      rw [Prog.bind_of_ret herror, Prog.bind_of_ret hrun, hf]
      simp [Run.prepend]
    · rw [herror] at hno
      exact absurd rfl (hno e)
    · rw [Prog.bind_of_stop herror] at hrun
      rw [Prog.bind_of_stop herror, Prog.bind_of_stop hrun]
      rfl
  before error := (hx.before error).trans (Prog.trace_prefix_bind ..)

theorem tryCatch {h : ErrorHandler ν → Exn → M ν Bool} (hx : FailsWith x w io w' code text) :
    FailsWith (fun error => (x error).tryCatch (h error)) w io w' code text where
  run error hno := by
    have hrun := hx.run error hno
    rcases herror : error code text w' with ⟨_ | e | s, t, w''⟩
    · rw [Prog.bind_of_ret herror] at hrun ⊢
      exact Prog.tryCatch_of_ret hrun
    · rw [herror] at hno
      exact absurd rfl (hno e)
    · rw [Prog.bind_of_stop herror] at hrun ⊢
      exact Prog.tryCatch_of_stop hrun
  before error := (hx.before error).trans (Prog.trace_prefix_tryCatch ..)

end FailsWith

/-- How a part of a connect ends, from `w`: it is true, it throws, or it fails with a report, whose
code is `FAIL` exactly if no stage has failed with another code. -/
inductive Tells (x : ErrorHandler ν → M ν Bool) (w : World ν) : Prop
  | passed {io : List Event} {n : ν} : Retried io →
      (∀ error, x error w = ⟨.ret true, io, w.setNet n⟩) → Tells x w
  | thrown {io : List Event} {n : ν} {e : Exn} : Retried io →
      (∀ error, x error w = ⟨.throw e, io, w.setNet n⟩) → Tells x w
  | failed {io : List Event} {n : ν} {code : ResultCode} {text : String} :
      (code = .fail ↔ Retried io) → FailsWith x w io (w.setNet n) code text → Tells x w

namespace Tells

variable {β : Type} {x : ErrorHandler ν → M ν Bool} {w : World ν}

theorem pure_true : Tells (fun _ => pure true) w := .passed (n := w.net) .nil fun _ => rfl

theorem raise (e : Exn) : Tells (fun _ => Prog.raise e) w := .thrown (n := w.net) .nil fun _ => rfl

theorem fail (text : String) : Tells (fun error => do error .fail text; pure false) w :=
  .failed (n := w.net) (iff_of_true rfl .nil) (.report w .fail text)

theorem prepend {y : ErrorHandler ν → M ν Bool} {t : List Event} {n : ν} (ht : Retried t)
    (hx : Tells x (w.setNet n)) (hy : ∀ error, y error w = (x error (w.setNet n)).prepend t) :
    Tells y w := by
  cases hx with
  | @passed io n' hio h =>
    exact .passed (n := n') (retried_append.2 ⟨ht, hio⟩) fun error => by rw [hy, h]; rfl
  | @thrown io n' _ hio h =>
    exact .thrown (n := n') (retried_append.2 ⟨ht, hio⟩) fun error => by rw [hy, h]; rfl
  | @failed io n' code text hcode h =>
    refine .failed (n := n') ?_ (h.prepend hy)
    rw [retried_append, hcode]
    simp [ht]

/-- The rule for a stage: it throws, it fails with another code, or the rest follows. -/
theorem stage {f : ν → Except Exn β × ν} {e : Except Exn β → Event}
    {k : ErrorHandler ν → β → M ν Bool} (hthrow : ∀ x, (e (.error x)).isUnretried = false)
    (hfail : ∀ b, (e (.ok b)).isUnretried = true →
      ∃ code text, code ≠ .fail ∧ ∀ error, k error b = (do error code text; pure false))
    (hok : ∀ b, (e (.ok b)).isUnretried = false →
      ∀ n, Tells (fun error => k error b) (w.setNet n)) :
    Tells (fun error => perform f e >>= fun r => Prog.ofExcept r >>= k error) w := by
  have hrun : ∀ error, (perform f e >>= fun r => Prog.ofExcept r >>= k error) w =
      ((Prog.ofExcept (f w.net).1 >>= k error) (w.setNet (f w.net).2)).prepend [e (f w.net).1] :=
    fun error => perform_bind_apply f e _ w
  cases hr : (f w.net).1 with
  | error x =>
    rw [hr] at hrun
    exact (raise x).prepend (List.forall_mem_singleton.2 (hthrow x)) hrun
  | ok b =>
    rw [hr] at hrun
    cases he : (e (.ok b)).isUnretried with
    | false => exact (hok b he _).prepend (List.forall_mem_singleton.2 he) hrun
    | true =>
      obtain ⟨code, text, hcode, hk⟩ := hfail b he
      refine .failed (n := (f w.net).2) (iff_of_false hcode fun hio => ?_)
        ((FailsWith.report _ code text).prepend fun error => by rw [hrun, ← hk]; rfl)
      simp [hio _ List.mem_cons_self] at he

theorem bind {f : ErrorHandler ν → Bool → M ν Bool} (hx : Tells x w)
    (hf : ∀ error, f error false = pure false)
    (htrue : ∀ n, Tells (fun error => f error true) (w.setNet n)) :
    Tells (fun error => x error >>= f error) w := by
  cases hx with
  | @passed io n hio h => exact (htrue n).prepend hio fun error => Prog.bind_of_ret (h error)
  | @thrown io n _ hio h => exact .thrown (n := n) hio fun error => Prog.bind_of_throw (h error)
  | @failed io n _ _ hcode h => exact .failed (n := n) hcode (h.bind hf)

theorem tryCatch {h : ErrorHandler ν → Exn → M ν Bool} (hx : Tells x w)
    (hh : ∀ e n, Tells (fun error => h error e) (w.setNet n)) :
    Tells (fun error => (x error).tryCatch (h error)) w := by
  cases hx with
  | @passed io n hio h => exact .passed (n := n) hio fun error => Prog.tryCatch_of_ret (h error)
  | @thrown io n e hio hx =>
    exact (hh e n).prepend hio fun error => Prog.tryCatch_of_throw (hx error)
  | @failed io n _ _ hcode h => exact .failed (n := n) hcode h.tryCatch

end Tells

end Tells

namespace Session

variable {ν : Type} (env : Env ν) (s : Session) (w : World ν)

theorem checkStage_of_ok {io : Io} (h : io.failed = false) (stage : String)
    (error : ErrorHandler ν) : s.checkStage stage io error = pure true := by
  simp [checkStage, h]

theorem checkStage_of_failed {io : Io} (h : io.failed = true) (stage : String)
    (error : ErrorHandler ν) : s.checkStage stage io error = (do
      error .timeout (stage ++ " " ++ io.what ++ ": " ++ s.address)
      pure false) := by
  rw [checkStage, if_pos h]

/-- The rule for a connect or a handshake that is checked last. -/
theorem checkStage_tells (stage : String) {io : Io} (h : io.failed = false) :
    Tells (fun error => s.checkStage stage io error) w := by
  simp only [checkStage_of_ok s h]
  exact .pure_true

theorem connectTls_tells : Tells (s.connectTls env) w := by
  refine Tells.tryCatch ?_ fun e n => ?_
  · refine .stage (fun _ => rfl) (fun io hio => ?_) fun io hio n => ?_
    · refine ⟨.timeout, "Connection timeout" ++ " " ++ io.what ++ ": " ++ s.address, nofun,
        fun error => ?_⟩
      simp only [checkStage_of_failed s hio, bind_assoc, pure_bind, Bool.false_eq_true, ↓reduceIte]
    · refine (checkStage_tells s _ _ hio).bind (fun _ => rfl) fun n => ?_
      exact .stage (fun _ => rfl) nofun fun _ _ _ => .pure_true
  · cases e.what? with
    | some what => exact .fail _
    | none => exact .raise e

theorem connectBody_tells : Tells (s.connectBody env) w := by
  refine .stage (fun _ => rfl) (fun endpoints h => ?_) fun endpoints h n => ?_
  · obtain rfl : endpoints = 0 := by
      cases endpoints with
      | zero => rfl
      | succ n => cases h
    exact ⟨.notFound, "Host " ++ s.address ++ " not found", nofun, fun _ => rfl⟩
  · have hne : endpoints ≠ 0 := by
      rintro rfl
      cases h
    simp only [if_neg hne]
    cases s.useSsl with
    | true =>
      refine .stage (fun _ => rfl) (fun named h => by cases named <;> cases h) fun named _ n => ?_
      cases named with
      | false => exact .fail _
      | true =>
        refine (connectTls_tells env s _).bind (fun _ => rfl) fun n => ?_
        refine .stage (fun _ => rfl) (fun h hio => ?_) fun h hio n => checkStage_tells s _ _ hio
        exact ⟨.timeout, "SSL Handshake timeout" ++ " " ++ (s.handshakeIo h).what ++ ": " ++
          s.address, nofun, checkStage_of_failed s hio _⟩
    | false =>
      refine .stage (fun _ => rfl) (fun io hio => ?_) fun io hio n => checkStage_tells s _ _ hio
      exact ⟨.timeout, "Connection timeout" ++ " " ++ io.what ++ ": " ++ s.address, nofun,
        checkStage_of_failed s hio _⟩

/-- **What a connect reports**: an exception of it is reported with `FAIL`. -/
theorem connect_tells : Tells (s.connect env) w := by
  refine (connectBody_tells env s w).tryCatch fun e n => ?_
  cases e.what? <;> exact .fail _

/-- **A connect connects, or reports one failure**, whatever its handler does with it. -/
theorem connect_cases :
    (∃ io n, (∃ e ∈ io, e.connects = true) ∧
      ∀ error, s.connect env error w = ⟨.ret true, io, w.setNet n⟩) ∨
    ∃ io n code text, Working Event.isConnect io ∧ (code = .fail ↔ Retried io) ∧
      FailsWith (s.connect env) w io (w.setNet n) code text := by
  -- how it ends under a handler that does nothing
  let idle : ErrorHandler ν := fun _ _ => pure ()
  have hends : HandlersEnd (fun o h => o = .ret () ∧ h = []) (fun _ _ _ => idle .fail "") idle :=
    ⟨fun _ _ _ _ => ⟨rfl, rfl⟩, fun _ _ _ => ⟨rfl, rfl⟩⟩
  have haccounts : Accounts Event.isConnect (fun o h => o = .ret () ∧ h = []) False
      (fun b t => b = true ∧ ∃ e ∈ t, e.connects = true) (· = false) [] (s.connect env idle) :=
    connect_accounts hends (fun h => h) s
  have haccounted := haccounts Working.nil w
  beta_reduce at haccounted
  rw [List.nil_append] at haccounted
  cases connect_tells env s w with
  | @passed io n _ h =>
    rw [h idle] at haccounted
    cases haccounted with
    | succeeded _ hok => exact .inl ⟨io, n, hok.2, h⟩
    | failed _ _ hbad => cases hbad
    | escaped _ _ hh => cases hh.1
  | thrown _ h =>
    rw [h idle] at haccounted
    cases haccounted with
    | thrown hT _ => exact hT.elim
    | escaped _ _ hh => cases hh.1
  | @failed io n code text hcode h =>
    have hrun : s.connect env idle w = ⟨.ret false, io, w.setNet n⟩ := by
      rw [h.run idle (by simp [idle])]
      simp [idle, Run.prepend]
    rw [hrun] at haccounted
    generalize hio : io = t at haccounted
    cases haccounted with
    | succeeded _ hok => cases hok.1
    | @failed _ t u hw hh _ =>
      obtain ⟨-, rfl⟩ := hh
      obtain rfl : io = t := hio.trans (List.append_nil t)
      exact .inr ⟨io, n, code, text, hw, hcode, h⟩
    | escaped _ _ hh => cases hh.1

end Session

end MileRpc
