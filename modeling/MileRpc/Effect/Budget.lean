import Mathlib.Algebra.Order.Group.Int
import MileRpc.Effect.Law

/-!
# Starts that a counter pays for

A program that handles a failure by starting again from inside the failed part, as long as a counter
of the failures is below a limit.  Between the starts other failures may raise the counter too, and
after a nested start has returned the outer part may fail again.

* `Law.budget` : the law that every start is paid for by the counter, which grows only below the
  limit.  It holds of what comes after a start.
* `Law.Enters x` : `x` starts at most once more than the counter pays for.

`Law.Enters.retry` turns the second into the first at the price of one step of the counter, so that
`Law.Enters` follows by induction on the depth of the nesting; `Law.Enters.countP_le` bounds the
starts of a run.
-/

namespace MileRpc

namespace Law

variable {σ E ε ω α : Type} {count : σ → ℕ} {starts : E → Bool} {limit : ℤ}

/-- The law that the counter grows by at least one for every start, and only below the limit. -/
def budget (count : σ → ℕ) (starts : E → Bool) (limit : ℤ) : Law σ E ω where
  Moves s t s' := count s + t.countP starts ≤ count s' ∧
    (count s < count s' → (count s' : ℤ) < limit)
  Stops s t _ := 0 < t.countP starts → ((count s + t.countP starts : ℕ) : ℤ) < limit
  Fair _ := True
  moves_nil _ := ⟨le_rfl, fun h => absurd h (lt_irrefl _)⟩
  moves_append := by
    rintro s t s' u s'' ⟨ht, htlim⟩ ⟨hu, hulim⟩
    rw [List.countP_append]
    omega
  stops_append := by
    rintro s t s' u w ⟨ht, htlim⟩ hu
    rw [List.countP_append]
    omega
  fair_append _ := ⟨trivial, trivial⟩

/-- From every state, `x` starts at most once and then keeps to the budget. -/
def Enters (count : σ → ℕ) (starts : E → Bool) (limit : ℤ) (x : Prog σ E ε ω α) : Prop :=
  ∀ s, ∃ t r, x s = Run.prepend t r ∧ t.countP starts ≤ 1 ∧
    (budget count starts limit).Meets (fun _ => True) True s r

theorem Meets.lt_limit {A : α → Prop} {T : Prop} {s : σ} {r : Run σ E ε ω α}
    (h : (budget count starts limit).Meets A T s r) (hpos : 0 < r.trace.countP starts) :
    ((count s + r.trace.countP starts : ℕ) : ℤ) < limit := by
  unfold Meets at h
  rcases r with ⟨a | e | w, t, s'⟩
  · obtain ⟨⟨hle, hlim⟩, -⟩ := h
    dsimp only at hle hlim hpos ⊢
    omega
  · obtain ⟨⟨hle, hlim⟩, -⟩ := h
    dsimp only at hle hlim hpos ⊢
    omega
  · exact h hpos

theorem budget_free {s s' : σ} {t : List E} (hs : count s' = count s)
    (ht : ∀ e ∈ t, ¬ starts e = true) :
    (budget count starts limit : Law σ E ω).Moves s t s' := by
  have hnone : t.countP starts = 0 := List.countP_eq_zero.2 ht
  refine ⟨by rw [hnone, hs, Nat.add_zero], fun h => ?_⟩
  rw [hs] at h
  exact absurd h (lt_irrefl _)

theorem budget_stops {s : σ} {t : List E} {w : ω} (ht : ∀ e ∈ t, ¬ starts e = true) :
    (budget count starts limit).Stops s t w := by
  intro hpos
  rw [List.countP_eq_zero.2 ht] at hpos
  exact absurd hpos (lt_irrefl _)

/-- One step of the counter that stays below the limit pays for at most one start. -/
theorem budget_step {s s' : σ} {t : List E} (hs : count s' = count s + 1)
    (hlt : (count s' : ℤ) < limit) (ht : t.countP starts ≤ 1) :
    (budget count starts limit : Law σ E ω).Moves s t s' :=
  ⟨by rw [hs]; exact Nat.add_le_add_left ht _, fun _ => hlt⟩

namespace Enters

variable {x : Prog σ E ε ω α}

theorem halt (w : ω) : Enters count starts limit (Prog.halt w : Prog σ E ε ω α) := by
  intro s
  refine ⟨[], Prog.halt w s, rfl, Nat.zero_le 1, ?_⟩
  exact Keeps.halt (fun _ => budget_stops (by simp)) s trivial

theorem start (e : E) (hx : (budget count starts limit).Keeps (fun _ => True) True x) :
    Enters count starts limit (Prog.emit e >>= fun _ => x) :=
  fun s => ⟨[e], x s, rfl, List.countP_le_length, hx s trivial⟩

/-- **The step of the nesting**: a start from inside is paid for by one step of the counter. -/
theorem retry (hx : Enters count starts limit x) {s s' : σ} {t : List E}
    (ht : ∀ e ∈ t, ¬ starts e = true) (hs : count s' = count s + 1)
    (hlt : (count s' : ℤ) < limit) :
    (budget count starts limit).Meets (fun _ => True) True s ((x s').prepend t) := by
  obtain ⟨u, r, hrun, hu, hmeets⟩ := hx s'
  rw [hrun, Run.prepend_prepend]
  refine hmeets.prepend (budget_step hs hlt ?_)
  rwa [List.countP_append, List.countP_eq_zero.2 ht, Nat.zero_add]

/-- **The starts of a run**: the first one, and one for every value of the counter below the
limit. -/
theorem countP_le (hx : Enters count starts limit x) (s : σ) :
    (x s).trace.countP starts ≤ (max 1 (limit - count s)).toNat := by
  obtain ⟨t, r, hrun, ht, hmeets⟩ := hx s
  rw [hrun, Run.prepend_trace, List.countP_append]
  by_cases hpos : 0 < r.trace.countP starts
  · have hlt := hmeets.lt_limit hpos
    omega
  · omega

end Enters

end Law

end MileRpc
