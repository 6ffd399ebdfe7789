import MileRpc.Effect.Basic

/-!
# Programs that spend at most once

A `Meter` counts some of the events of a trace, and names the traces that count at all: a
condition that every part of a trace inherits (`Meter.Fair`).  Over the runs with a fair trace

* `Meter.Calm x` : `x` spends nothing,
* `Meter.Quits F x` : `x` spends nothing and ends with an outcome in `F`,
* `Meter.Once F x` : `x` spends nothing, or it spends once and then ends with an outcome in `F`.

The set `F` of `Once` is what makes it compose: after spending, a part of a program has to end in a
way that keeps the rest from spending again (`Meter.Once.bind`, `Meter.Once.tryCatch`).
-/

namespace MileRpc

/-- What is counted in a trace, and the traces that are considered. -/
structure Meter (E : Type) where
  /-- The events that spend. -/
  spends : E → Bool
  /-- The traces that are considered. -/
  Fair : List E → Prop
  /-- The parts of a fair trace are fair. -/
  fair_append : ∀ {t u}, Fair (t ++ u) → Fair t ∧ Fair u

namespace Meter

variable {σ E ε ω α β : Type} (m : Meter E)

/-- How often a trace spends. -/
def spent (t : List E) : ℕ := t.countP m.spends

@[simp] theorem spent_nil : m.spent [] = 0 := rfl

@[simp] theorem spent_append (t u : List E) : m.spent (t ++ u) = m.spent t + m.spent u :=
  List.countP_append

theorem spent_cons (e : E) (t : List E) :
    m.spent (e :: t) = m.spent t + if m.spends e then 1 else 0 :=
  List.countP_cons

/-- `x` spends nothing. -/
def Calm (x : Prog σ E ε ω α) : Prop :=
  x.Ensures fun _ t => m.Fair t → m.spent t = 0

/-- `x` spends nothing and ends in `F`. -/
def Quits (F : Outcome ε ω α → Prop) (x : Prog σ E ε ω α) : Prop :=
  x.Ensures fun o t => m.Fair t → m.spent t = 0 ∧ F o

/-- `x` spends nothing, or spends once and ends in `F`. -/
def Once (F : Outcome ε ω α → Prop) (x : Prog σ E ε ω α) : Prop :=
  x.Ensures fun o t => m.Fair t → m.spent t = 0 ∨ m.spent t = 1 ∧ F o

variable {m} {x : Prog σ E ε ω α} {f : α → Prog σ E ε ω β} {h : ε → Prog σ E ε ω α}
  {F : Outcome ε ω α → Prop} {G : Outcome ε ω β → Prop}

theorem Quits.calm (hx : m.Quits F x) : m.Calm x := Prog.Ensures.mono hx fun _ _ hq hf => (hq hf).1

theorem Calm.quits (hx : m.Calm x) (hF : ∀ o, F o) : m.Quits F x :=
  Prog.Ensures.mono hx fun o _ hq hf => ⟨hq hf, hF o⟩

theorem Calm.once (hx : m.Calm x) : m.Once F x := Prog.Ensures.mono hx fun _ _ hq hf => .inl (hq hf)

theorem Quits.once {F' : Outcome ε ω α → Prop} (hx : m.Quits F' x) : m.Once F x := hx.calm.once

theorem Quits.mono {F' : Outcome ε ω α → Prop} (hx : m.Quits F x) (hF : ∀ o, F o → F' o) :
    m.Quits F' x :=
  Prog.Ensures.mono hx fun _ _ hq hf => ⟨(hq hf).1, hF _ (hq hf).2⟩

theorem Once.mono {F' : Outcome ε ω α → Prop} (hx : m.Once F x) (hF : ∀ o, F o → F' o) :
    m.Once F' x :=
  Prog.Ensures.mono hx fun _ _ hq hf => (hq hf).imp_right fun hF' => ⟨hF'.1, hF _ hF'.2⟩

theorem Once.ite {p : Prop} [Decidable p] {y : Prog σ E ε ω α} (hx : m.Once F x)
    (hy : m.Once F y) : m.Once F (if p then x else y) := by
  split
  · exact hx
  · exact hy

/-! ### Primitives -/

theorem Quits.pure {a : α} (hF : F (.ret a)) : m.Quits F (Pure.pure a : Prog σ E ε ω α) :=
  Prog.Ensures.pure fun _ => ⟨rfl, hF⟩

theorem Calm.pure (a : α) : m.Calm (Pure.pure a : Prog σ E ε ω α) :=
  Prog.Ensures.pure fun _ => rfl

theorem Quits.raise {e : ε} (hF : F (.throw e)) : m.Quits F (Prog.raise e : Prog σ E ε ω α) :=
  Prog.Ensures.raise fun _ => ⟨rfl, hF⟩

theorem Calm.raise (e : ε) : m.Calm (Prog.raise e : Prog σ E ε ω α) :=
  Prog.Ensures.raise fun _ => rfl

theorem Quits.halt {w : ω} (hF : F (.stop w)) : m.Quits F (Prog.halt w : Prog σ E ε ω α) :=
  Prog.Ensures.halt fun _ => ⟨rfl, hF⟩

theorem Calm.halt (w : ω) : m.Calm (Prog.halt w : Prog σ E ε ω α) :=
  Prog.Ensures.halt fun _ => rfl

theorem Quits.emit {F : Outcome ε ω Unit → Prop} {e : E} (he : m.spends e = false)
    (hF : F (.ret ())) : m.Quits F (Prog.emit e : Prog σ E ε ω Unit) :=
  Prog.Ensures.emit fun _ => ⟨by simp [spent_cons, he], hF⟩

theorem Calm.emit {e : E} (he : m.spends e = false) :
    m.Calm (Prog.emit e : Prog σ E ε ω Unit) :=
  Prog.Ensures.emit fun _ => by simp [spent_cons, he]

theorem Calm.gets (g : σ → α) : m.Calm (Prog.gets g : Prog σ E ε ω α) :=
  Prog.Ensures.gets fun _ _ => rfl

theorem Calm.modifyGet (g : σ → α × σ) : m.Calm (Prog.modifyGet g : Prog σ E ε ω α) :=
  Prog.Ensures.modifyGet fun _ _ => rfl

theorem Calm.ofExcept (r : Except ε α) : m.Calm (Prog.ofExcept r : Prog σ E ε ω α) := by
  cases r with
  | ok a => exact .pure a
  | error e => exact .raise e

/-! ### Sequences -/

/-- The rule for sequencing: if the first part spent, the rest spends nothing.  The values of the
first part are known to be in `A`. -/
theorem Once.bind_of {A : α → Prop} (hx : m.Once F x)
    (hA : x.Ensures fun o _ => ∀ a, o = .ret a → A a) (hf : ∀ a, A a → m.Once G (f a))
    (hret : ∀ a, F (.ret a) → m.Quits G (f a)) (hthrow : ∀ e, F (.throw e) → G (.throw e))
    (hstop : ∀ w, F (.stop w) → G (.stop w)) : m.Once G (x >>= f) := by
  refine Prog.Ensures.bind (Prog.Ensures.and hx hA) ?_ ?_ ?_
  · rintro a t ⟨ha, hmem⟩ w hfair
    obtain ⟨ht, hu⟩ := m.fair_append hfair
    rw [spent_append]
    rcases ha ht with h0 | ⟨h1, hF⟩
    · rcases hf a (hmem a rfl) w hu with h0' | ⟨h1', hG⟩
      · left; omega
      · right; exact ⟨by omega, hG⟩
    · obtain ⟨h0', hG⟩ := hret a hF w hu
      right; exact ⟨by omega, hG⟩
  · rintro e t ⟨he, -⟩ ht
    exact (he ht).imp_right fun h => ⟨h.1, hthrow e h.2⟩
  · rintro w t ⟨hw, -⟩ ht
    exact (hw ht).imp_right fun h => ⟨h.1, hstop w h.2⟩

theorem Once.bind (hx : m.Once F x) (hf : ∀ a, m.Once G (f a))
    (hret : ∀ a, F (.ret a) → m.Quits G (f a)) (hthrow : ∀ e, F (.throw e) → G (.throw e))
    (hstop : ∀ w, F (.stop w) → G (.stop w)) : m.Once G (x >>= f) :=
  hx.bind_of (A := fun _ => True) (fun _ _ _ => trivial) (fun a _ => hf a) hret hthrow hstop

/-- After a first part that spends nothing, the rest may spend. -/
theorem Calm.bind_once (hx : m.Calm x) (hf : ∀ a, m.Once G (f a)) : m.Once G (x >>= f) :=
  Once.bind (F := fun _ => False) hx.once hf (fun _ h => h.elim) (fun _ h => h.elim)
    fun _ h => h.elim

theorem Quits.bind (hx : m.Quits F x) (hf : ∀ a, F (.ret a) → m.Quits G (f a))
    (hthrow : ∀ e, F (.throw e) → G (.throw e)) (hstop : ∀ w, F (.stop w) → G (.stop w)) :
    m.Quits G (x >>= f) := by
  refine Prog.Ensures.bind hx ?_ ?_ ?_
  · intro a t ha w hfair
    obtain ⟨ht, hu⟩ := m.fair_append hfair
    obtain ⟨h0, hF⟩ := ha ht
    obtain ⟨h0', hG⟩ := hf a hF w hu
    exact ⟨by rw [spent_append]; omega, hG⟩
  · intro e t he ht
    exact ⟨(he ht).1, hthrow e (he ht).2⟩
  · intro w t hw ht
    exact ⟨(hw ht).1, hstop w (hw ht).2⟩

theorem Calm.bind (hx : m.Calm x) (hf : ∀ a, m.Calm (f a)) : m.Calm (x >>= f) :=
  (Quits.bind (F := fun _ => True) (G := fun _ => True) (hx.quits fun _ => trivial)
    (fun a _ => (hf a).quits fun _ => trivial) (fun _ h => h) fun _ h => h).calm

theorem Calm.each {g : β → Prog σ E ε ω Unit} (hg : ∀ b, m.Calm (g b)) (bs : List β) :
    m.Calm (Prog.each g bs) := by
  induction bs with
  | nil => exact .pure ()
  | cons b bs ih => exact (hg b).bind fun _ => ih

/-! ### Exceptions -/

/-- The rule for catching: if the body spent before it threw, the handler spends nothing. -/
theorem Once.tryCatch {F' : Outcome ε ω α → Prop} (hx : m.Once F x) (hh : ∀ e, m.Once F' (h e))
    (hret : ∀ a, F (.ret a) → F' (.ret a)) (hthrow : ∀ e, F (.throw e) → m.Quits F' (h e))
    (hstop : ∀ w, F (.stop w) → F' (.stop w)) : m.Once F' (x.tryCatch h) := by
  refine Prog.Ensures.tryCatch hx ?_ ?_ ?_
  · intro a t ha ht
    exact (ha ht).imp_right fun h => ⟨h.1, hret a h.2⟩
  · intro e t he w hfair
    obtain ⟨ht, hu⟩ := m.fair_append hfair
    rw [spent_append]
    rcases he ht with h0 | ⟨h1, hF⟩
    · rcases hh e w hu with h0' | ⟨h1', hG⟩
      · left; omega
      · right; exact ⟨by omega, hG⟩
    · obtain ⟨h0', hG⟩ := hthrow e hF w hu
      right; exact ⟨by omega, hG⟩
  · intro w t hw ht
    exact (hw ht).imp_right fun h => ⟨h.1, hstop w h.2⟩

theorem Quits.tryCatch {F' : Outcome ε ω α → Prop} (hx : m.Quits F x)
    (hret : ∀ a, F (.ret a) → F' (.ret a)) (hthrow : ∀ e, F (.throw e) → m.Quits F' (h e))
    (hstop : ∀ w, F (.stop w) → F' (.stop w)) : m.Quits F' (x.tryCatch h) := by
  refine Prog.Ensures.tryCatch hx ?_ ?_ ?_
  · intro a t ha ht
    exact ⟨(ha ht).1, hret a (ha ht).2⟩
  · intro e t he w hfair
    obtain ⟨ht, hu⟩ := m.fair_append hfair
    obtain ⟨h0, hF⟩ := he ht
    obtain ⟨h0', hG⟩ := hthrow e hF w hu
    exact ⟨by rw [spent_append]; omega, hG⟩
  · intro w t hw ht
    exact ⟨(hw ht).1, hstop w (hw ht).2⟩

end Meter

end MileRpc
