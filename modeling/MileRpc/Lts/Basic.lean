import Mathlib.Data.List.Induction
import Mathlib.Data.Option.Basic

/-!
# Labelled transition functions

A system whose next state is a partial function of its state and of a label.  `Lts.run` performs a
list of labels; a label that the system refuses ends it with `none`.  Two rules carry what a step
preserves to whole runs: `Lts.Reachable.invariant`, and `Lts.run_labels` for what holds of the
labels of a run that avoids some of them.  `Lts.run_history` is the rule for what a state tells
about the labels before it.
-/

namespace MileRpc

namespace Lts

variable {S L : Type*} {step : S → L → Option S} {Init : S → Prop}

/-- Perform the labels `ls` one after the other. -/
def run (step : S → L → Option S) (s : S) : List L → Option S
  | [] => some s
  | l :: ls => (step s l).bind fun t => run step t ls

@[simp] theorem run_nil (s : S) : run step s [] = some s := rfl

theorem run_cons_eq_some {s u : S} {l : L} {ls : List L} :
    run step s (l :: ls) = some u ↔ ∃ t, step s l = some t ∧ run step t ls = some u := by
  simp [run, Option.bind_eq_some_iff]

theorem run_append (s : S) (ls ks : List L) :
    run step s (ls ++ ks) = (run step s ls).bind fun t => run step t ks := by
  induction ls generalizing s with
  | nil => rfl
  | cons l ls ih =>
    rw [List.cons_append, run, run, Option.bind_assoc]
    exact congrArg _ (funext ih)

/-- A run ends in `s` after starting from one of the states `Init`. -/
def Reachable (step : S → L → Option S) (Init : S → Prop) (s : S) : Prop :=
  ∃ s₀ ls, Init s₀ ∧ run step s₀ ls = some s

theorem run_invariant {Inv : S → Prop} (hstep : ∀ s l t, Inv s → step s l = some t → Inv t)
    {s t : S} {ls : List L} (hs : Inv s) (h : run step s ls = some t) : Inv t := by
  induction ls generalizing s with
  | nil =>
    obtain rfl : s = t := by simpa using h
    exact hs
  | cons l ls ih =>
    obtain ⟨u, hl, h⟩ := run_cons_eq_some.1 h
    exact ih (hstep s l u hs hl) h

/-- What a state tells about the labels that have led to it. -/
theorem run_history {Inv : List L → S → Prop} {s₀ : S} (h₀ : Inv [] s₀)
    (hstep : ∀ ls s l t, Inv ls s → step s l = some t → Inv (ls ++ [l]) t) {ls : List L} {s : S}
    (h : run step s₀ ls = some s) : Inv ls s := by
  induction ls using List.reverseRecOn generalizing s with
  | nil =>
    obtain rfl : s₀ = s := by simpa using h
    exact h₀
  | append_singleton ls l ih =>
    rw [run_append, Option.bind_eq_some_iff] at h
    obtain ⟨t, ht, hl⟩ := h
    obtain ⟨u, hu, rfl⟩ : ∃ u, step t l = some u ∧ u = s := by
      simpa [run, Option.bind_eq_some_iff] using hl
    exact hstep ls t l u (ih ht) hu

/-- What holds at the start and is preserved by every step holds of every reachable state. -/
theorem Reachable.invariant {Inv : S → Prop} (hinit : ∀ s, Init s → Inv s)
    (hstep : ∀ s l t, Inv s → step s l = some t → Inv t) {s : S}
    (h : Reachable step Init s) : Inv s := by
  obtain ⟨s₀, ls, h₀, hrun⟩ := h
  exact run_invariant hstep (hinit s₀ h₀) hrun

/-- In a run without the labels `K`, every label has the property `P`, if some condition on the
states is preserved by the other labels and makes them have it. -/
theorem run_labels {C : S → Prop} {K P : L → Prop}
    (hstep : ∀ s l t, C s → ¬ K l → step s l = some t → C t ∧ P l) {s t : S} {ls : List L}
    (hs : C s) (h : run step s ls = some t) (hK : ∀ l ∈ ls, ¬ K l) : ∀ l ∈ ls, P l := by
  induction ls generalizing s with
  | nil => simp
  | cons l ls ih =>
    obtain ⟨u, hl, h⟩ := run_cons_eq_some.1 h
    obtain ⟨hu, hP⟩ := hstep s l u hs (hK l (by simp)) hl
    intro k hk
    rcases List.mem_cons.1 hk with rfl | hk
    · exact hP
    · exact ih hu h (fun k hk => hK k (by simp [hk])) k hk

end Lts

end MileRpc
