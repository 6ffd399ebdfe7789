import MileRpc.Effect.Basic

/-!
# Graded properties of programs

A property of programs that the operations of the monad keep, with a grade: a bound on what the
program may spend.  What is put in a sequence, or after an exception, adds its grade.

A development shows once, for every graded property (`Graded`), that its programs have it if their
basic operations do; each property is then an instance.  `graded_spends` is the one that counts the
events of one kind against those of another.
-/

namespace MileRpc

variable {σ E ε ω : Type}

/-- `G n x` is kept by the operations of the monad.  The events `quiet` and the changes of the state
that keep `still` are free. -/
structure Graded (quiet : E → Prop) (still : σ → σ → Prop)
    (G : ℕ → {α : Type} → Prog σ E ε ω α → Prop) : Prop where
  mono : ∀ {m n : ℕ} {α : Type} {x : Prog σ E ε ω α}, m ≤ n → G m x → G n x
  pure : ∀ {α : Type} (a : α), G 0 (Pure.pure a : Prog σ E ε ω α)
  raise : ∀ {α : Type} (e : ε), G 0 (Prog.raise e : Prog σ E ε ω α)
  halt : ∀ {α : Type} (w : ω), G 0 (Prog.halt w : Prog σ E ε ω α)
  emit : ∀ {e : E}, quiet e → G 0 (Prog.emit e : Prog σ E ε ω Unit)
  modifyGet : ∀ {α : Type} {f : σ → α × σ}, (∀ s, still s (f s).2) →
    G 0 (Prog.modifyGet f : Prog σ E ε ω α)
  bind : ∀ {m n : ℕ} {α β : Type} {x : Prog σ E ε ω α} {f : α → Prog σ E ε ω β},
    G m x → (∀ a, G n (f a)) → G (m + n) (x >>= f)
  tryCatch : ∀ {m n : ℕ} {α : Type} {x : Prog σ E ε ω α} {h : ε → Prog σ E ε ω α},
    G m x → (∀ e, G n (h e)) → G (m + n) (x.tryCatch h)

namespace Graded

variable {quiet : E → Prop} {still : σ → σ → Prop} {G : ℕ → {α : Type} → Prog σ E ε ω α → Prop}
  (hG : Graded quiet still G) {n : ℕ} {α β : Type} {x : Prog σ E ε ω α} {f : α → Prog σ E ε ω β}
include hG

/-- The first part is free. -/
theorem free_bind (hx : G 0 x) (hf : ∀ a, G n (f a)) : G n (x >>= f) := by
  have h := hG.bind hx hf
  rwa [Nat.zero_add] at h

/-- The rest is free. -/
theorem bind_free (hx : G n x) (hf : ∀ a, G 0 (f a)) : G n (x >>= f) := hG.bind hx hf

theorem map (g : α → β) (hx : G n x) : G n (g <$> x) := by
  rw [← bind_pure_comp]
  exact hG.bind_free hx fun a => hG.pure _

theorem zero_le (hx : G 0 x) : G n x := hG.mono (Nat.zero_le n) hx

omit hG in
theorem ite {p : Prop} [Decidable p] {y : Prog σ E ε ω α} (hx : p → G n x) (hy : ¬ p → G n y) :
    G n (if p then x else y) := by
  split_ifs with hp
  · exact hx hp
  · exact hy hp

theorem gets (hstill : ∀ s, still s s) (g : σ → α) : G 0 (Prog.gets g : Prog σ E ε ω α) :=
  hG.modifyGet (f := fun s => (g s, s)) hstill

theorem ofExcept (r : Except ε α) : G 0 (Prog.ofExcept r : Prog σ E ε ω α) := by
  cases r with
  | ok a => exact hG.pure a
  | error e => exact hG.raise e

theorem each {g : β → Prog σ E ε ω Unit} (hg : ∀ b, G 0 (g b)) (bs : List β) :
    G 0 (Prog.each g bs) := by
  induction bs with
  | nil => exact hG.pure ()
  | cons b bs ih => exact hG.free_bind (hg b) fun _ => ih

end Graded

/-- The free programs of a graded property, as a property of every grade. -/
theorem Graded.free {quiet : E → Prop} {still : σ → σ → Prop}
    {G : ℕ → {α : Type} → Prog σ E ε ω α → Prop} (hG : Graded quiet still G) :
    Graded quiet still fun _ {α} (x : Prog σ E ε ω α) => G 0 x where
  mono _ hx := hx
  pure := hG.pure
  raise := hG.raise
  halt := hG.halt
  emit := hG.emit
  modifyGet := hG.modifyGet
  bind hx hf := hG.free_bind hx hf
  tryCatch hx hh := hG.tryCatch (m := 0) (n := 0) hx hh

/-- Fewer events and fewer changes are free. -/
theorem Graded.weaken {quiet quiet' : E → Prop} {still still' : σ → σ → Prop}
    {G : ℕ → {α : Type} → Prog σ E ε ω α → Prop} (hG : Graded quiet still G)
    (hquiet : ∀ {e}, quiet' e → quiet e) (hstill : ∀ {s s'}, still' s s' → still s s') :
    Graded quiet' still' G where
  mono := hG.mono
  pure := hG.pure
  raise := hG.raise
  halt := hG.halt
  emit he := hG.emit (hquiet he)
  modifyGet hf := hG.modifyGet fun s => hstill (hf s)
  bind := hG.bind
  tryCatch := hG.tryCatch

/-! ### Spending -/

/-- In every run, `x` leaves at most `n` events of the kind `cost` more than its events of the kind
`credit` pay for, each of them for `price`. -/
def Spends (cost credit : E → Bool) (price n : ℕ) {α : Type} (x : Prog σ E ε ω α) : Prop :=
  ∀ s, (x s).trace.countP cost ≤ n + price * (x s).trace.countP credit

/-- An event that pays for what comes after it. -/
theorem Spends.paid {cost credit : E → Bool} {price : ℕ} {α : Type} {x : Prog σ E ε ω α} {e : E}
    (hcost : cost e = false) (hcredit : credit e = true) (hx : Spends cost credit price price x) :
    Spends cost credit price 0 (Prog.emit e >>= fun _ => x) := by
  intro s
  have hxs := hx s
  rw [Prog.bind_of_ret (Prog.emit_apply e s), Run.prepend_trace, List.countP_append,
    List.countP_append]
  simp only [List.countP_singleton, hcost, hcredit, Bool.false_eq_true, ↓reduceIte, Nat.mul_add,
    Nat.mul_one]
  omega

theorem graded_spends (cost credit : E → Bool) (price : ℕ) :
    Graded (fun e => cost e = false) (fun _ _ => True)
      (fun n {α} (x : Prog σ E ε ω α) => Spends cost credit price n x) where
  mono hmn hx s := Nat.le_trans (hx s) (Nat.add_le_add_right hmn _)
  pure _ _ := Nat.zero_le _
  raise _ _ := Nat.zero_le _
  halt _ _ := Nat.zero_le _
  emit he s := by simp [he]
  modifyGet _ _ := Nat.zero_le _
  bind {m n α β x f} hx hf s := by
    have hxs := hx s
    rcases hr : x s with ⟨a | e | w, t, s'⟩
    · have hfs := hf a s'
      rw [hr] at hxs
      rw [Prog.bind_of_ret hr, Run.prepend_trace, List.countP_append, List.countP_append,
        Nat.mul_add]
      dsimp only at hxs
      omega
    · rw [hr] at hxs
      rw [Prog.bind_of_throw hr]
      exact Nat.le_trans hxs (by dsimp only; omega)
    · rw [hr] at hxs
      rw [Prog.bind_of_stop hr]
      exact Nat.le_trans hxs (by dsimp only; omega)
  tryCatch {m n α x h} hx hh s := by
    have hxs := hx s
    rcases hr : x s with ⟨a | e | w, t, s'⟩
    · rw [hr] at hxs
      rw [Prog.tryCatch_of_ret hr]
      exact Nat.le_trans hxs (by dsimp only; omega)
    · have hhs := hh e s'
      rw [hr] at hxs
      rw [Prog.tryCatch_of_throw hr, Run.prepend_trace, List.countP_append, List.countP_append,
        Nat.mul_add]
      dsimp only at hxs
      omega
    · rw [hr] at hxs
      rw [Prog.tryCatch_of_stop hr]
      exact Nat.le_trans hxs (by dsimp only; omega)

end MileRpc
