import Mathlib.Data.List.Basic

/-!
# Programs with a trace

A program of type `Prog σ E ε ω α` starts in a state `σ`, emits a finite list of events `E` (its
*trace*) and ends in one of three ways (`Outcome`): it returns a value, it throws an exception
`ε`, or it stops the whole process with a status `ω`.  Exceptions can be caught
(`Prog.tryCatch`), a stop cannot.

The trace is an output, not a part of the state: running one program after another appends the
two traces (`Prog.bind_apply`), so a count over the trace of a run is the sum of the counts over
its parts and no event is ever taken back.

## Main definitions

* `Outcome`, `Run`, `Prog` : outcomes, runs, programs; `Prog` is a monad.
* `Prog.emit`, `Prog.gets`, `Prog.modify`, `Prog.raise`, `Prog.halt`, `Prog.tryCatch` : the
  primitives.
* `Prog.Ensures x Q` : from every state, the outcome and the trace of `x` satisfy `Q`.

## Main results

* `Prog.Ensures.bind`, `Prog.Ensures.tryCatch` : the rules of the logic of `Ensures`.
-/

namespace MileRpc

/-- How a run ends. -/
inductive Outcome (ε ω α : Type) where
  /-- The program returned `a`. -/
  | ret (a : α)
  /-- The exception `e` left the program. -/
  | throw (e : ε)
  /-- The whole process ended inside the program. -/
  | stop (w : ω)
  deriving DecidableEq, Repr

namespace Outcome

variable {ε ω α β : Type}

/-- No exception left the program. -/
def NoThrow (o : Outcome ε ω α) : Prop := ∀ e, o ≠ throw e

@[simp] theorem noThrow_ret (a : α) : (ret a : Outcome ε ω α).NoThrow := fun _ h => by cases h
@[simp] theorem noThrow_stop (w : ω) : (stop w : Outcome ε ω α).NoThrow := fun _ h => by cases h
/-- The outcome after an exception has been turned into `a`. -/
def recover (a : α) : Outcome ε ω α → Outcome ε ω α
  | throw _ => ret a
  | o => o

end Outcome

/-- A finished run: how it ended, the events it emitted (oldest first) and the last state. -/
structure Run (σ E ε ω α : Type) where
  /-- How the run ended. -/
  outcome : Outcome ε ω α
  /-- The events of the run, oldest first. -/
  trace : List E
  /-- The last state. -/
  state : σ

/-- A program. -/
def Prog (σ E ε ω α : Type) : Type := σ → Run σ E ε ω α

namespace Run

variable {σ E ε ω α : Type}

/-- The run with the events `t` in front. -/
def prepend (t : List E) (r : Run σ E ε ω α) : Run σ E ε ω α := { r with trace := t ++ r.trace }

@[simp] theorem prepend_outcome (t : List E) (r : Run σ E ε ω α) :
    (r.prepend t).outcome = r.outcome := rfl
@[simp] theorem prepend_trace (t : List E) (r : Run σ E ε ω α) :
    (r.prepend t).trace = t ++ r.trace := rfl
@[simp] theorem prepend_state (t : List E) (r : Run σ E ε ω α) :
    (r.prepend t).state = r.state := rfl

@[simp] theorem prepend_prepend (t u : List E) (r : Run σ E ε ω α) :
    (r.prepend u).prepend t = r.prepend (t ++ u) := by
  simp [prepend, List.append_assoc]

end Run

namespace Prog

variable {σ E ε ω α β : Type}

/-- Return a value. -/
protected def pure (a : α) : Prog σ E ε ω α := fun s => ⟨.ret a, [], s⟩

/-- Run `x`, then `f` on its value; an exception or a stop of `x` ends the run. -/
protected def bind (x : Prog σ E ε ω α) (f : α → Prog σ E ε ω β) : Prog σ E ε ω β := fun s =>
  match x s with
  | ⟨.ret a, t, s'⟩ => (f a s').prepend t
  | ⟨.throw e, t, s'⟩ => ⟨.throw e, t, s'⟩
  | ⟨.stop w, t, s'⟩ => ⟨.stop w, t, s'⟩

instance : Monad (Prog σ E ε ω) where
  pure := Prog.pure
  bind := Prog.bind

/-- Emit one event. -/
def emit (e : E) : Prog σ E ε ω Unit := fun s => ⟨.ret (), [e], s⟩

/-- Read the state. -/
def gets (f : σ → α) : Prog σ E ε ω α := fun s => ⟨.ret (f s), [], s⟩

/-- Update the state, returning a value computed from it. -/
def modifyGet (f : σ → α × σ) : Prog σ E ε ω α := fun s => ⟨.ret (f s).1, [], (f s).2⟩

/-- Update the state. -/
def modify (f : σ → σ) : Prog σ E ε ω Unit := modifyGet fun s => ((), f s)

/-- Throw an exception. -/
def raise (e : ε) : Prog σ E ε ω α := fun s => ⟨.throw e, [], s⟩

/-- End the process. -/
def halt (w : ω) : Prog σ E ε ω α := fun s => ⟨.stop w, [], s⟩

/-- Run `x`; if an exception leaves it, run `h` on the exception. -/
def tryCatch (x : Prog σ E ε ω α) (h : ε → Prog σ E ε ω α) : Prog σ E ε ω α := fun s =>
  match x s with
  | ⟨.throw e, t, s'⟩ => (h e s').prepend t
  | r => r

/-- Continue with the value of `x`, or throw its error. -/
def ofExcept : Except ε α → Prog σ E ε ω α
  | .ok a => pure a
  | .error e => raise e

/-- Run `f` on every element of a list, in order. -/
def each (f : α → Prog σ E ε ω Unit) : List α → Prog σ E ε ω Unit
  | [] => pure ()
  | a :: as => do f a; each f as

@[simp] theorem pure_apply (a : α) (s : σ) :
    (pure a : Prog σ E ε ω α) s = ⟨.ret a, [], s⟩ := rfl

theorem bind_apply (x : Prog σ E ε ω α) (f : α → Prog σ E ε ω β) (s : σ) :
    (x >>= f) s = match x s with
      | ⟨.ret a, t, s'⟩ => (f a s').prepend t
      | ⟨.throw e, t, s'⟩ => ⟨.throw e, t, s'⟩
      | ⟨.stop w, t, s'⟩ => ⟨.stop w, t, s'⟩ := rfl

@[simp] theorem emit_apply (e : E) (s : σ) :
    (emit e : Prog σ E ε ω Unit) s = ⟨.ret (), [e], s⟩ := rfl
@[simp] theorem gets_apply (f : σ → α) (s : σ) :
    (gets f : Prog σ E ε ω α) s = ⟨.ret (f s), [], s⟩ := rfl
@[simp] theorem modifyGet_apply (f : σ → α × σ) (s : σ) :
    (modifyGet f : Prog σ E ε ω α) s = ⟨.ret (f s).1, [], (f s).2⟩ := rfl
@[simp] theorem raise_apply (e : ε) (s : σ) :
    (raise e : Prog σ E ε ω α) s = ⟨.throw e, [], s⟩ := rfl
@[simp] theorem halt_apply (w : ω) (s : σ) :
    (halt w : Prog σ E ε ω α) s = ⟨.stop w, [], s⟩ := rfl
@[simp] theorem ofExcept_ok (a : α) : (ofExcept (.ok a) : Prog σ E ε ω α) = pure a := rfl
@[simp] theorem ofExcept_error (e : ε) : (ofExcept (.error e) : Prog σ E ε ω α) = raise e := rfl
@[simp] theorem each_nil (f : α → Prog σ E ε ω Unit) : each f [] = pure () := rfl
@[simp] theorem each_cons (f : α → Prog σ E ε ω Unit) (a : α) (as : List α) :
    each f (a :: as) = (do f a; each f as) := rfl

section Apply

variable {x : Prog σ E ε ω α} {f : α → Prog σ E ε ω β} {h : ε → Prog σ E ε ω α}
  {s s' : σ} {t : List E}

theorem bind_of_ret {a : α} (hx : x s = ⟨.ret a, t, s'⟩) : (x >>= f) s = (f a s').prepend t := by
  rw [bind_apply, hx]

theorem bind_of_throw {e : ε} (hx : x s = ⟨.throw e, t, s'⟩) : (x >>= f) s = ⟨.throw e, t, s'⟩ := by
  rw [bind_apply, hx]

theorem bind_of_stop {w : ω} (hx : x s = ⟨.stop w, t, s'⟩) : (x >>= f) s = ⟨.stop w, t, s'⟩ := by
  rw [bind_apply, hx]

theorem tryCatch_of_ret {a : α} (hx : x s = ⟨.ret a, t, s'⟩) :
    x.tryCatch h s = ⟨.ret a, t, s'⟩ := by
  rw [tryCatch, hx]

theorem tryCatch_of_throw {e : ε} (hx : x s = ⟨.throw e, t, s'⟩) :
    x.tryCatch h s = (h e s').prepend t := by
  rw [tryCatch, hx]

theorem tryCatch_of_stop {w : ω} (hx : x s = ⟨.stop w, t, s'⟩) :
    x.tryCatch h s = ⟨.stop w, t, s'⟩ := by
  rw [tryCatch, hx]

end Apply

/-- What the first part of a sequence emitted comes first. -/
theorem trace_prefix_bind (x : Prog σ E ε ω α) (f : α → Prog σ E ε ω β) (s : σ) :
    (x s).trace <+: ((x >>= f) s).trace := by
  rw [bind_apply]
  rcases x s with ⟨a | e | w, t, s'⟩
  · exact List.prefix_append _ _
  · exact List.prefix_refl _
  · exact List.prefix_refl _

/-- So does what was emitted before an exception that is caught. -/
theorem trace_prefix_tryCatch (x : Prog σ E ε ω α) (h : ε → Prog σ E ε ω α) (s : σ) :
    (x s).trace <+: (x.tryCatch h s).trace := by
  rcases hx : x s with ⟨a | e | w, t, s'⟩
  · exact ⟨[], by rw [tryCatch_of_ret hx, List.append_nil]⟩
  · rw [tryCatch_of_throw hx]
    exact List.prefix_append _ _
  · exact ⟨[], by rw [tryCatch_of_stop hx, List.append_nil]⟩

theorem mem_trace_bind_left {x : Prog σ E ε ω α} {f : α → Prog σ E ε ω β} {s : σ} {e : E}
    (h : e ∈ (x s).trace) : e ∈ ((x >>= f) s).trace :=
  (trace_prefix_bind x f s).subset h

theorem mem_trace_tryCatch {x : Prog σ E ε ω α} {h : ε → Prog σ E ε ω α} {s : σ} {e : E}
    (he : e ∈ (x s).trace) : e ∈ (x.tryCatch h s).trace :=
  (trace_prefix_tryCatch x h s).subset he

section Returns

variable {x : Prog σ E ε ω α} {s : σ}

/-- A sequence returns `b` if and only if its first part returns and the rest then returns `b`. -/
theorem bind_outcome_eq_ret_iff {f : α → Prog σ E ε ω β} {b : β} :
    ((x >>= f) s).outcome = .ret b ↔
      ∃ a, (x s).outcome = .ret a ∧ (f a (x s).state).outcome = .ret b := by
  rw [bind_apply]
  rcases x s with ⟨a | e | w, t, s'⟩ <;> simp

/-- A value that no handler returns comes from the body. -/
theorem tryCatch_outcome_eq_ret_iff {h : ε → Prog σ E ε ω α} {a : α}
    (hh : ∀ e s, (h e s).outcome ≠ .ret a) :
    (x.tryCatch h s).outcome = .ret a ↔ (x s).outcome = .ret a := by
  rcases hx : x s with ⟨b | e | w, t, s'⟩
  · rw [tryCatch_of_ret hx]
  · rw [tryCatch_of_throw hx]
    simp [hh]
  · rw [tryCatch_of_stop hx]

end Returns

instance : LawfulMonad (Prog σ E ε ω) := by
  refine LawfulMonad.mk' _ (fun x => ?_) (fun a f => ?_) (fun x f g => ?_)
  · funext s
    change (x >>= pure) s = x s
    rw [bind_apply]
    rcases x s with ⟨_ | _ | _, t, s'⟩ <;> simp [Run.prepend]
  · rfl
  · funext s
    simp only [bind_apply]
    rcases x s with ⟨a | e | w, t, s'⟩
    · simp only [Run.prepend]
      rcases f a s' with ⟨b | e | w, u, s''⟩ <;> simp [List.append_assoc]
    · rfl
    · rfl

/-! ### Postconditions on the outcome and the trace -/

/-- From every state, the outcome and the trace of `x` satisfy `Q`. -/
def Ensures (x : Prog σ E ε ω α) (Q : Outcome ε ω α → List E → Prop) : Prop :=
  ∀ s, Q (x s).outcome (x s).trace

namespace Ensures

variable {x : Prog σ E ε ω α} {Q R : Outcome ε ω α → List E → Prop}

theorem mono (hx : x.Ensures R) (h : ∀ o t, R o t → Q o t) : x.Ensures Q :=
  fun s => h _ _ (hx s)

theorem and (hQ : x.Ensures Q) (hR : x.Ensures R) : x.Ensures fun o t => Q o t ∧ R o t :=
  fun s => ⟨hQ s, hR s⟩

theorem pure {a : α} (h : Q (.ret a) []) : (Pure.pure a : Prog σ E ε ω α).Ensures Q := fun _ => h

theorem emit {Q : Outcome ε ω Unit → List E → Prop} {e : E} (h : Q (.ret ()) [e]) :
    (Prog.emit e : Prog σ E ε ω Unit).Ensures Q := fun _ => h

theorem gets {f : σ → α} (h : ∀ a, Q (.ret a) []) : (Prog.gets f : Prog σ E ε ω α).Ensures Q :=
  fun _ => h _

theorem modifyGet {f : σ → α × σ} (h : ∀ a, Q (.ret a) []) :
    (Prog.modifyGet f : Prog σ E ε ω α).Ensures Q := fun _ => h _

theorem raise {e : ε} (h : Q (.throw e) []) : (Prog.raise e : Prog σ E ε ω α).Ensures Q :=
  fun _ => h

theorem halt {w : ω} (h : Q (.stop w) []) : (Prog.halt w : Prog σ E ε ω α).Ensures Q :=
  fun _ => h

/-- The rule for sequencing: the trace of the rest comes after the trace of `x`. -/
theorem bind {f : α → Prog σ E ε ω β} {Q : Outcome ε ω β → List E → Prop} (hx : x.Ensures R)
    (hret : ∀ a t, R (.ret a) t → (f a).Ensures fun o u => Q o (t ++ u))
    (hthrow : ∀ e t, R (.throw e) t → Q (.throw e) t)
    (hstop : ∀ w t, R (.stop w) t → Q (.stop w) t) : (x >>= f).Ensures Q := by
  intro s
  have hr := hx s
  rcases hxs : x s with ⟨a | e | w, t, s'⟩
  · rw [hxs] at hr
    rw [bind_of_ret hxs]
    exact hret a t hr s'
  · rw [hxs] at hr
    rw [bind_of_throw hxs]
    exact hthrow e t hr
  · rw [hxs] at hr
    rw [bind_of_stop hxs]
    exact hstop w t hr

/-- The rule for catching: the trace of the handler comes after the trace of the body. -/
theorem tryCatch {h : ε → Prog σ E ε ω α} (hx : x.Ensures R)
    (hret : ∀ a t, R (.ret a) t → Q (.ret a) t)
    (hthrow : ∀ e t, R (.throw e) t → (h e).Ensures fun o u => Q o (t ++ u))
    (hstop : ∀ w t, R (.stop w) t → Q (.stop w) t) : (x.tryCatch h).Ensures Q := by
  intro s
  have hr := hx s
  rcases hxs : x s with ⟨a | e | w, t, s'⟩
  · rw [hxs] at hr
    rw [tryCatch_of_ret hxs]
    exact hret a t hr
  · rw [hxs] at hr
    rw [tryCatch_of_throw hxs]
    exact hthrow e t hr s'
  · rw [hxs] at hr
    rw [tryCatch_of_stop hxs]
    exact hstop w t hr

end Ensures

/-! ### Programs that leave the state alone -/

/-- From every state, `x` ends with `o` in the same state, and its trace satisfies `P`. -/
def Ends (x : Prog σ E ε ω α) (o : Outcome ε ω α) (P : List E → Prop) : Prop :=
  ∀ s, ∃ t, x s = ⟨o, t, s⟩ ∧ P t

namespace Ends

variable {x : Prog σ E ε ω α} {f : α → Prog σ E ε ω β} {P : List E → Prop}

theorem pure {a : α} (h : P []) : (Pure.pure a : Prog σ E ε ω α).Ends (.ret a) P :=
  fun _ => ⟨[], rfl, h⟩

theorem raise {e : ε} (h : P []) : (Prog.raise e : Prog σ E ε ω α).Ends (.throw e) P :=
  fun _ => ⟨[], rfl, h⟩

theorem bind {a : α} {o : Outcome ε ω β} (happ : ∀ t u, P t → P u → P (t ++ u))
    (hx : x.Ends (.ret a) P) (hf : (f a).Ends o P) : (x >>= f).Ends o P := by
  intro s
  obtain ⟨t, hxs, ht⟩ := hx s
  obtain ⟨u, hfs, hu⟩ := hf s
  refine ⟨t ++ u, ?_, happ t u ht hu⟩
  rw [bind_of_ret hxs, hfs]
  rfl

theorem bind_throw {e : ε} (hx : x.Ends (.throw e) P) : (x >>= f).Ends (.throw e) P := by
  intro s
  obtain ⟨t, hxs, ht⟩ := hx s
  exact ⟨t, bind_of_throw hxs, ht⟩

theorem each {g : β → Prog σ E ε ω Unit} (hnil : P []) (happ : ∀ t u, P t → P u → P (t ++ u))
    (hg : ∀ b, (g b).Ends (.ret ()) P) (bs : List β) : (Prog.each g bs).Ends (.ret ()) P := by
  induction bs with
  | nil => exact pure hnil
  | cons b bs ih => exact bind happ (hg b) ih

theorem ensures {o : Outcome ε ω α} (hx : x.Ends o P) : x.Ensures fun o' t => o' = o ∧ P t := by
  intro s
  obtain ⟨t, hxs, ht⟩ := hx s
  rw [hxs]
  exact ⟨rfl, ht⟩

end Ends

end Prog

end MileRpc
