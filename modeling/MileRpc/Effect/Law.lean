import MileRpc.Effect.Basic

/-!
# Programs under a law

A `Law` says which traces may lead from one state to another, and with which statuses the process
may end.  Both compose: a move after a move is a move, a stop after a move is a stop.  As with a
`Meter`, only the runs with a fair trace count, and every part of a fair trace is fair.

`Law.Keeps A T x` : in every run that counts, `x` moves or stops as the law says, a value that it
returns is in `A`, and it throws only if `T`.

The rules follow the program (`Law.Keeps.bind`, `Law.Keeps.tryCatch`), so a program that is built
from parts that keep a law keeps it too.  A part that never returns in the runs that count keeps
the law with the empty `A`, and nothing has to be shown about what follows it.
-/

namespace MileRpc

/-- What programs may do between two states, and how they may stop. -/
structure Law (σ E ω : Type) where
  /-- The trace may lead from the first state to the second. -/
  Moves : σ → List E → σ → Prop
  /-- From the state, the process may end with this status after the trace. -/
  Stops : σ → List E → ω → Prop
  /-- The traces that count. -/
  Fair : List E → Prop
  moves_nil : ∀ s, Moves s [] s
  moves_append : ∀ {s t s' u s''}, Moves s t s' → Moves s' u s'' → Moves s (t ++ u) s''
  stops_append : ∀ {s t s' u w}, Moves s t s' → Stops s' u w → Stops s (t ++ u) w
  /-- The parts of a fair trace are fair. -/
  fair_append : ∀ {t u}, Fair (t ++ u) → Fair t ∧ Fair u

namespace Law

variable {σ E ε ω α β : Type} (L : Law σ E ω)

/-- What the law asks of a finished run. -/
def Meets (A : α → Prop) (T : Prop) (s : σ) (r : Run σ E ε ω α) : Prop :=
  match r.outcome with
  | .ret a => L.Moves s r.trace r.state ∧ A a
  | .throw _ => L.Moves s r.trace r.state ∧ T
  | .stop w => L.Stops s r.trace w

/-- `x` keeps the law, returns only values in `A`, and throws only if `T`. -/
def Keeps (A : α → Prop) (T : Prop) (x : Prog σ E ε ω α) : Prop :=
  ∀ s, L.Fair (x s).trace → L.Meets A T s (x s)

variable {L} {x : Prog σ E ε ω α} {f : α → Prog σ E ε ω β} {h : ε → Prog σ E ε ω α}
  {A : α → Prop} {B : β → Prop} {T T' : Prop}

theorem Meets.mono {A' : α → Prop} {s : σ} {r : Run σ E ε ω α} (h : L.Meets A T s r)
    (hA : ∀ a, A a → A' a) (hT : T → T') : L.Meets A' T' s r := by
  unfold Meets at h ⊢
  rcases r with ⟨a | e | w, t, s'⟩
  · exact ⟨h.1, hA a h.2⟩
  · exact ⟨h.1, hT h.2⟩
  · exact h

/-- What comes after a move. -/
theorem Meets.prepend {s s' : σ} {t : List E} {r : Run σ E ε ω α} (h : L.Meets A T s' r)
    (ht : L.Moves s t s') : L.Meets A T s (r.prepend t) := by
  unfold Meets at h ⊢
  rcases r with ⟨a | e | w, u, s''⟩
  · exact ⟨L.moves_append ht h.1, h.2⟩
  · exact ⟨L.moves_append ht h.1, h.2⟩
  · exact L.stops_append ht h

namespace Keeps

theorem mono {A' : α → Prop} (hx : L.Keeps A T x) (hA : ∀ a, A a → A' a) (hT : T → T') :
    L.Keeps A' T' x :=
  fun s hs => (hx s hs).mono hA hT

theorem weaken {A' : α → Prop} (hx : L.Keeps A T x) (hA : ∀ a, A a → A' a) : L.Keeps A' T x :=
  hx.mono hA id

/-- A run that returns. -/
theorem of_ret (hx : L.Keeps A T x) {s : σ} (hs : L.Fair (x s).trace) {a : α}
    (ho : (x s).outcome = .ret a) : L.Moves s (x s).trace (x s).state ∧ A a := by
  have hrun := hx s hs
  unfold Meets at hrun
  rwa [ho] at hrun

/-- A run that ends the process. -/
theorem of_stop (hx : L.Keeps A T x) {s : σ} (hs : L.Fair (x s).trace) {w : ω}
    (ho : (x s).outcome = .stop w) : L.Stops s (x s).trace w := by
  have hrun := hx s hs
  unfold Meets at hrun
  rwa [ho] at hrun

theorem pure {a : α} (ha : A a) : L.Keeps A T (Pure.pure a : Prog σ E ε ω α) :=
  fun s _ => ⟨L.moves_nil s, ha⟩

theorem raise (e : ε) : L.Keeps A True (Prog.raise e : Prog σ E ε ω α) :=
  fun s _ => ⟨L.moves_nil s, trivial⟩

theorem halt {w : ω} (hw : ∀ s, L.Stops s [] w) : L.Keeps A T (Prog.halt w : Prog σ E ε ω α) :=
  fun s _ => hw s

/-- An event that does not count ends the obligations. -/
theorem emit {e : E} (he : ∀ s, L.Fair [e] → L.Moves s [e] s) :
    L.Keeps (fun _ => L.Fair [e]) T (Prog.emit e : Prog σ E ε ω Unit) :=
  fun s hs => ⟨he s hs, hs⟩

theorem gets (g : σ → α) : L.Keeps (fun a => ∃ s, a = g s) T (Prog.gets g : Prog σ E ε ω α) :=
  fun s _ => ⟨L.moves_nil s, s, rfl⟩

theorem modifyGet {g : σ → α × σ} (hg : ∀ s, L.Moves s [] (g s).2) :
    L.Keeps (fun a => ∃ s, a = (g s).1) T (Prog.modifyGet g : Prog σ E ε ω α) :=
  fun s _ => ⟨hg s, s, rfl⟩

theorem ofExcept (r : Except ε α) :
    L.Keeps (fun a => r = .ok a) True (Prog.ofExcept r : Prog σ E ε ω α) := by
  cases r with
  | ok a => exact pure rfl
  | error e => exact raise e

theorem ite {p : Prop} [Decidable p] {y : Prog σ E ε ω α} (hx : p → L.Keeps A T x)
    (hy : ¬ p → L.Keeps A T y) : L.Keeps A T (if p then x else y) := by
  split_ifs with hp
  · exact hx hp
  · exact hy hp

/-- The rule for sequencing. -/
theorem bind (hx : L.Keeps A T x) (hf : ∀ a, A a → L.Keeps B T' (f a)) (hT : T → T') :
    L.Keeps B T' (x >>= f) := by
  intro s hs
  have hxs := hx s
  rcases hr : x s with ⟨a | e | w, t, s'⟩
  · rw [Prog.bind_of_ret hr] at hs ⊢
    obtain ⟨hft, hfu⟩ := L.fair_append hs
    rw [hr] at hxs
    obtain ⟨hmoves, ha⟩ := hxs hft
    exact (hf a ha s' hfu).prepend hmoves
  · rw [Prog.bind_of_throw hr] at hs ⊢
    rw [hr] at hxs
    exact ⟨(hxs hs).1, hT (hxs hs).2⟩
  · rw [Prog.bind_of_stop hr] at hs ⊢
    rw [hr] at hxs
    exact hxs hs

/-- The rule for sequencing two parts of the same kind. -/
theorem andThen (hx : L.Keeps A T x) (hf : ∀ a, A a → L.Keeps B T (f a)) : L.Keeps B T (x >>= f) :=
  hx.bind hf id

theorem map (hx : L.Keeps A T x) (g : α → β) (hg : ∀ a, A a → B (g a)) :
    L.Keeps B T (g <$> x) := by
  rw [← bind_pure_comp]
  exact hx.andThen fun a ha => pure (hg a ha)

theorem each {g : α → Prog σ E ε ω Unit} {P : Prop} {as : List α}
    (hg : ∀ a ∈ as, L.Keeps (fun _ => P) T (g a)) :
    L.Keeps (fun _ => as ≠ [] → P) T (Prog.each g as) := by
  induction as with
  | nil => exact pure (by simp)
  | cons a as ih =>
    refine (hg a List.mem_cons_self).andThen fun _ hP => ?_
    exact (ih fun b hb => hg b (List.mem_cons_of_mem _ hb)).weaken fun _ _ _ => hP

/-- The rule for catching. -/
theorem tryCatch (hx : L.Keeps A T x) (hh : T → ∀ e, L.Keeps A T' (h e)) :
    L.Keeps A T' (x.tryCatch h) := by
  intro s hs
  have hxs := hx s
  rcases hr : x s with ⟨a | e | w, t, s'⟩
  · rw [Prog.tryCatch_of_ret hr] at hs ⊢
    rw [hr] at hxs
    exact hxs hs
  · rw [Prog.tryCatch_of_throw hr] at hs ⊢
    obtain ⟨hft, hfu⟩ := L.fair_append hs
    rw [hr] at hxs
    obtain ⟨hmoves, ht⟩ := hxs hft
    exact (hh ht e s' hfu).prepend hmoves
  · rw [Prog.tryCatch_of_stop hr] at hs ⊢
    rw [hr] at hxs
    exact hxs hs

end Keeps

/-! ### Laws about single events -/

/-- The law that every event satisfies `P`. -/
def every (P : E → Prop) : Law σ E ω where
  Moves _ t _ := ∀ e ∈ t, P e
  Stops _ t _ := ∀ e ∈ t, P e
  Fair _ := True
  moves_nil _ := by simp
  moves_append ht hu e he := (List.mem_append.1 he).elim (ht e) (hu e)
  stops_append ht hu e he := (List.mem_append.1 he).elim (ht e) (hu e)
  fair_append _ := ⟨trivial, trivial⟩

theorem every_keeps_iff {P : E → Prop} :
    (every P).Keeps (fun _ => True) True x ↔ x.Ensures fun _ t => ∀ e ∈ t, P e := by
  refine forall_congr' fun s => ?_
  unfold Meets
  rcases x s with ⟨_ | _ | _, t, s'⟩ <;> simp [every]

end Law

end MileRpc
