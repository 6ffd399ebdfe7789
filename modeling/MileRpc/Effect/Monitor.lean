import MileRpc.Effect.Graded
import MileRpc.Lts.Basic

/-!
# Programs under a monitor

A monitor reads the events of a run, and remembers something of them in its state.  It need not be
deterministic, and it may move without an event (`Monitor`); a transition function whose labels are
the events is one (`Lts.Reads`).  `Prog.Follows T P x R` : from a state of the program and a state
of the monitor with `P`, the monitor can read the whole trace of `x`, and comes to `R`, which may
look at the outcome, at the last state and at what the monitor remembers.

The rules follow the program.  `Prog.Guards T I x` is the case in which an invariant of the
program and the monitor holds again however `x` ends, a graded property of every grade
(`Prog.graded_guards`).
-/

namespace MileRpc

/-- `T q t q'` : in the state `q` the monitor can read `t`, and is in `q'` then. -/
class Monitor {Q : Type*} {E : Type*} (T : Q → List E → Q → Prop) : Prop where
  nil : ∀ q, T q [] q
  append : ∀ {q q₁ q₂ : Q} {t u : List E}, T q t q₁ → T q₁ u q₂ → T q (t ++ u) q₂

/-- The monitor that is a transition function on the events. -/
def Lts.Reads {Q E : Type*} (step : Q → E → Option Q) (q : Q) (t : List E) (q' : Q) : Prop :=
  Lts.run step q t = some q'

theorem Lts.reads_singleton {Q E : Type*} {step : Q → E → Option Q} {q q' : Q} {e : E}
    (h : step q e = some q') : Lts.Reads step q [e] q' := by
  simp [Lts.Reads, Lts.run, h]

instance {Q E : Type*} (step : Q → E → Option Q) : Monitor (Lts.Reads step) where
  nil _ := rfl
  append {q q₁ q₂ t u} ht hu := by
    rw [Lts.Reads, Lts.run_append, show Lts.run step q t = some q₁ from ht]
    exact hu

namespace Prog

variable {σ E ε ω α β : Type} {Q : Type*} {T : Q → List E → Q → Prop}

/-- From `P`, the monitor can read the trace of `x` so that `R` holds at its end. -/
def Follows (T : Q → List E → Q → Prop) (P : σ → Q → Prop) (x : Prog σ E ε ω α)
    (R : Outcome ε ω α → σ → Q → Prop) : Prop :=
  ∀ s q, P s q → ∃ q', T q (x s).trace q' ∧ R (x s).outcome (x s).state q'

/-- However `x` ends, the invariant holds again. -/
abbrev Guards (T : Q → List E → Q → Prop) (I : σ → Q → Prop) (x : Prog σ E ε ω α) : Prop :=
  x.Follows T I fun _ => I

namespace Follows

variable {x : Prog σ E ε ω α} {f : α → Prog σ E ε ω β} {h : ε → Prog σ E ε ω α}
  {P : σ → Q → Prop} {R : Outcome ε ω α → σ → Q → Prop} {B : Outcome ε ω β → σ → Q → Prop}

theorem mono {P' : σ → Q → Prop} {R' : Outcome ε ω α → σ → Q → Prop} (hx : x.Follows T P R)
    (hP : ∀ s q, P' s q → P s q) (hR : ∀ o s q, R o s q → R' o s q) : x.Follows T P' R' := by
  intro s q hs
  obtain ⟨q', hrun, hq'⟩ := hx s q (hP s q hs)
  exact ⟨q', hrun, hR _ _ _ hq'⟩

theorem emit {R : Outcome ε ω Unit → σ → Q → Prop} {e : E}
    (hR : ∀ s q, P s q → ∃ q', T q [e] q' ∧ R (.ret ()) s q') :
    (Prog.emit e : Prog σ E ε ω Unit).Follows T P R :=
  hR

theorem modifyGet {g : σ → α × σ}
    (hR : ∀ s q, P s q → ∃ q', T q [] q' ∧ R (.ret (g s).1) (g s).2 q') :
    (Prog.modifyGet g : Prog σ E ε ω α).Follows T P R :=
  hR

theorem ite {p : Prop} [Decidable p] {y : Prog σ E ε ω α} (hx : p → x.Follows T P R)
    (hy : ¬ p → y.Follows T P R) : (if p then x else y).Follows T P R := by
  split_ifs with hp
  · exact hx hp
  · exact hy hp

variable [Monitor T]

theorem pure {a : α} (hR : ∀ s q, P s q → R (.ret a) s q) :
    (Pure.pure a : Prog σ E ε ω α).Follows T P R :=
  fun s q hs => ⟨q, Monitor.nil q, hR s q hs⟩

theorem raise {e : ε} (hR : ∀ s q, P s q → R (.throw e) s q) :
    (Prog.raise e : Prog σ E ε ω α).Follows T P R :=
  fun s q hs => ⟨q, Monitor.nil q, hR s q hs⟩

theorem halt {w : ω} (hR : ∀ s q, P s q → R (.stop w) s q) :
    (Prog.halt w : Prog σ E ε ω α).Follows T P R :=
  fun s q hs => ⟨q, Monitor.nil q, hR s q hs⟩

/-- The rest of a run is read from where the monitor is then. -/
theorem prepend {q : Q} (q₁ : Q) {t : List E} {r : Run σ E ε ω α} (ht : T q t q₁)
    (hr : ∃ q', T q₁ r.trace q' ∧ R r.outcome r.state q') :
    ∃ q', T q (r.prepend t).trace q' ∧ R (r.prepend t).outcome (r.prepend t).state q' := by
  obtain ⟨q', hrun, hq'⟩ := hr
  exact ⟨q', Monitor.append ht hrun, hq'⟩

theorem bind (hx : x.Follows T P R) (hret : ∀ a, (f a).Follows T (R (.ret a)) B)
    (hthrow : ∀ e s q, R (.throw e) s q → B (.throw e) s q)
    (hstop : ∀ w s q, R (.stop w) s q → B (.stop w) s q) : (x >>= f).Follows T P B := by
  intro s q hs
  obtain ⟨q₁, hrun, hq₁⟩ := hx s q hs
  rcases hr : x s with ⟨a | e | w, t, s'⟩
  · rw [hr] at hrun hq₁
    rw [bind_of_ret hr]
    exact prepend q₁ hrun (hret a s' q₁ hq₁)
  · rw [hr] at hrun hq₁
    rw [bind_of_throw hr]
    exact ⟨q₁, hrun, hthrow e s' q₁ hq₁⟩
  · rw [hr] at hrun hq₁
    rw [bind_of_stop hr]
    exact ⟨q₁, hrun, hstop w s' q₁ hq₁⟩

theorem tryCatch {B : Outcome ε ω α → σ → Q → Prop} (hx : x.Follows T P R)
    (hret : ∀ a s q, R (.ret a) s q → B (.ret a) s q)
    (hthrow : ∀ e, (h e).Follows T (R (.throw e)) B)
    (hstop : ∀ w s q, R (.stop w) s q → B (.stop w) s q) : (x.tryCatch h).Follows T P B := by
  intro s q hs
  obtain ⟨q₁, hrun, hq₁⟩ := hx s q hs
  rcases hr : x s with ⟨a | e | w, t, s'⟩
  · rw [hr] at hrun hq₁
    rw [tryCatch_of_ret hr]
    exact ⟨q₁, hrun, hret a s' q₁ hq₁⟩
  · rw [hr] at hrun hq₁
    rw [tryCatch_of_throw hr]
    exact prepend q₁ hrun (hthrow e s' q₁ hq₁)
  · rw [hr] at hrun hq₁
    rw [tryCatch_of_stop hr]
    exact ⟨q₁, hrun, hstop w s' q₁ hq₁⟩

end Follows

variable [Monitor T]

theorem Guards.bind {I : σ → Q → Prop} {x : Prog σ E ε ω α} {f : α → Prog σ E ε ω β}
    (hx : x.Guards T I) (hf : ∀ a, (f a).Guards T I) : (x >>= f).Guards T I :=
  Follows.bind hx hf (fun _ _ _ hI => hI) fun _ _ _ hI => hI

theorem Guards.tryCatch {I : σ → Q → Prop} {x : Prog σ E ε ω α} {h : ε → Prog σ E ε ω α}
    (hx : x.Guards T I) (hh : ∀ e, (h e).Guards T I) : (x.tryCatch h).Guards T I :=
  Follows.tryCatch hx (fun _ _ _ hI => hI) hh fun _ _ _ hI => hI

/-- An invariant that the free events and the free changes of the state keep. -/
theorem graded_guards {I : σ → Q → Prop} {quiet : E → Prop} {still : σ → σ → Prop}
    (hquiet : ∀ {e s q}, quiet e → I s q → ∃ q', T q [e] q' ∧ I s q')
    (hstill : ∀ {s s' q}, still s s' → I s q → ∃ q', T q [] q' ∧ I s' q') :
    Graded quiet still (fun _ {α} (x : Prog σ E ε ω α) => x.Guards T I) where
  mono _ hx := hx
  pure _ := Follows.pure fun _ _ hI => hI
  raise _ := Follows.raise fun _ _ hI => hI
  halt _ := Follows.halt fun _ _ hI => hI
  emit he := Follows.emit fun _ _ hI => hquiet he hI
  modifyGet hf := Follows.modifyGet fun s _ hI => hstill (hf s) hI
  bind hx hf := hx.bind hf
  tryCatch hx hh := hx.tryCatch hh

end Prog

end MileRpc
