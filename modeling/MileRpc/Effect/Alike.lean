import MileRpc.Effect.Basic

/-!
# Runs that cannot be told apart

Two runs are alike (`Run.Alike R`) if they emit the same events, end in the same state and end in
the same way, with values that are related by `R`.  Sequences of programs whose runs are alike have
runs that are alike, also where what the second program does next is only chosen after its first
part has run (`Run.Alike.exists_bind`).
-/

namespace MileRpc

variable {σ E ε ω α β γ δ : Type} {R : α → β → Prop} {R' : γ → δ → Prop}

/-- The same way to end, with related values. -/
inductive Outcome.Alike (R : α → β → Prop) : Outcome ε ω α → Outcome ε ω β → Prop
  | ret {a : α} {b : β} : R a b → Alike R (.ret a) (.ret b)
  | throw (e : ε) : Alike R (.throw e) (.throw e)
  | stop (w : ω) : Alike R (.stop w) (.stop w)

theorem Outcome.Alike.mono {R' : α → β → Prop} {o : Outcome ε ω α} {o' : Outcome ε ω β}
    (h : o.Alike R o') (hR : ∀ a b, R a b → R' a b) : o.Alike R' o' := by
  cases h with
  | ret hab => exact .ret (hR _ _ hab)
  | throw e => exact .throw e
  | stop w => exact .stop w

theorem Outcome.Alike.refl (o : Outcome ε ω α) : o.Alike Eq o := by
  cases o with
  | ret a => exact .ret rfl
  | throw e => exact .throw e
  | stop w => exact .stop w

theorem Outcome.Alike.trans {S : β → γ → Prop} {o : Outcome ε ω α} {o' : Outcome ε ω β}
    {o'' : Outcome ε ω γ} (h : o.Alike R o') (h' : o'.Alike S o'') :
    o.Alike (fun a c => ∃ b, R a b ∧ S b c) o'' := by
  cases h with
  | ret hab =>
    cases h' with
    | ret hbc => exact .ret ⟨_, hab, hbc⟩
  | throw e =>
    cases h' with
    | throw => exact .throw e
  | stop w =>
    cases h' with
    | stop => exact .stop w

theorem Outcome.Alike.of_ret {a : α} {o' : Outcome ε ω β}
    (h : (.ret a : Outcome ε ω α).Alike R o') : ∃ b, o' = .ret b ∧ R a b := by
  cases h with
  | ret hab => exact ⟨_, rfl, hab⟩

namespace Run

/-- The same events, the same last state and the same way to end. -/
structure Alike (R : α → β → Prop) (r : Run σ E ε ω α) (r' : Run σ E ε ω β) : Prop where
  outcome : r.outcome.Alike R r'.outcome
  trace : r.trace = r'.trace
  state : r.state = r'.state

namespace Alike

theorem mono {R' : α → β → Prop} {r : Run σ E ε ω α} {r' : Run σ E ε ω β} (h : r.Alike R r')
    (hR : ∀ a b, R a b → R' a b) : r.Alike R' r' :=
  ⟨h.outcome.mono hR, h.trace, h.state⟩

theorem ret {a : α} {b : β} (hab : R a b) (t : List E) (s : σ) :
    (⟨.ret a, t, s⟩ : Run σ E ε ω α).Alike R ⟨.ret b, t, s⟩ :=
  ⟨.ret hab, rfl, rfl⟩

theorem refl (r : Run σ E ε ω α) : r.Alike Eq r := ⟨.refl r.outcome, rfl, rfl⟩

theorem trans {r : Run σ E ε ω α} {r' : Run σ E ε ω β} {r'' : Run σ E ε ω γ} (h : r.Alike R r')
    {S : β → γ → Prop} (h' : r'.Alike S r'') : r.Alike (fun a c => ∃ b, R a b ∧ S b c) r'' where
  outcome := h.outcome.trans h'.outcome
  trace := h.trace.trans h'.trace
  state := h.state.trans h'.state

theorem prepend {r : Run σ E ε ω α} {r' : Run σ E ε ω β} (h : r.Alike R r') (t : List E) :
    (r.prepend t).Alike R (r'.prepend t) :=
  ⟨h.outcome, congrArg (t ++ ·) h.trace, h.state⟩

/-- The second program may go on as it is best after its first part. -/
theorem exists_bind {ι : Type} {P : ι → Prop} (hP : ∃ i, P i) {x : Prog σ E ε ω α}
    {y : Prog σ E ε ω β} {f : α → Prog σ E ε ω γ} {g : ι → β → Prog σ E ε ω δ} {s : σ}
    (hxy : (x s).Alike R (y s))
    (hfg : ∀ a b s', R a b → ∃ i, P i ∧ (f a s').Alike R' (g i b s')) :
    ∃ i, P i ∧ ((x >>= f) s).Alike R' ((y >>= g i) s) := by
  obtain ⟨i₀, hi₀⟩ := hP
  obtain ⟨hout, htrace, hstate⟩ := hxy
  rcases hx : x s with ⟨ox, t, s'⟩
  rcases hy : y s with ⟨oy, t', s''⟩
  rw [hx, hy] at hout htrace hstate
  obtain rfl : t = t' := htrace
  obtain rfl : s' = s'' := hstate
  cases hout with
  | ret hab =>
    obtain ⟨i, hi, hrest⟩ := hfg _ _ s' hab
    refine ⟨i, hi, ?_⟩
    rw [Prog.bind_of_ret hx, Prog.bind_of_ret hy]
    exact hrest.prepend t
  | throw e =>
    refine ⟨i₀, hi₀, ?_⟩
    rw [Prog.bind_of_throw hx, Prog.bind_of_throw hy]
    exact ⟨.throw e, rfl, rfl⟩
  | stop w =>
    refine ⟨i₀, hi₀, ?_⟩
    rw [Prog.bind_of_stop hx, Prog.bind_of_stop hy]
    exact ⟨.stop w, rfl, rfl⟩

theorem bind {x : Prog σ E ε ω α} {y : Prog σ E ε ω β} {f : α → Prog σ E ε ω γ}
    {g : β → Prog σ E ε ω δ} {s : σ} (hxy : (x s).Alike R (y s))
    (hfg : ∀ a b s', R a b → (f a s').Alike R' (g b s')) :
    ((x >>= f) s).Alike R' ((y >>= g) s) := by
  obtain ⟨-, -, h⟩ := exists_bind (P := fun _ : Unit => True) (g := fun _ => g) ⟨(), trivial⟩ hxy
    fun a b s' hab => ⟨(), trivial, hfg a b s' hab⟩
  exact h

/-- It makes no difference whether an exception of a part is caught there, with a value that leads
to what the caller would do. -/
theorem bind_tryCatch {x : Prog σ E ε ω α} {f : α → Prog σ E ε ω γ} {g : α → Prog σ E ε ω δ}
    {k : ε → Prog σ E ε ω δ} {a₀ : α} {s : σ}
    (hret : ∀ a s', (f a s').Alike R' ((g a).tryCatch k s'))
    (hthrow : ∀ e s', (f a₀ s').Alike R' (k e s')) :
    ((x.tryCatch (fun _ => pure a₀) >>= f) s).Alike R' ((x >>= g).tryCatch k s) := by
  rcases hx : x s with ⟨a | e | w, t, s'⟩
  · have hbind : (x >>= g).tryCatch k s = ((g a).tryCatch k s').prepend t := by
      unfold Prog.tryCatch
      rw [Prog.bind_of_ret hx]
      rcases g a s' with ⟨b | e | w, u, s''⟩
      · rfl
      · exact (Run.prepend_prepend t u (k e s'')).symm
      · rfl
    rw [Prog.bind_of_ret (Prog.tryCatch_of_ret hx), hbind]
    exact (hret a s').prepend t
  · have hthrown : (x.tryCatch fun _ => pure a₀) s = ⟨.ret a₀, t ++ [], s'⟩ :=
      Prog.tryCatch_of_throw hx
    rw [Prog.bind_of_ret hthrown, Prog.tryCatch_of_throw (Prog.bind_of_throw hx), List.append_nil]
    exact (hthrow e s').prepend t
  · rw [Prog.bind_of_stop (Prog.tryCatch_of_stop hx), Prog.tryCatch_of_stop (Prog.bind_of_stop hx)]
    exact ⟨.stop w, rfl, rfl⟩

end Alike

end Run

end MileRpc
