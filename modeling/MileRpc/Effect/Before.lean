import MileRpc.Effect.Law

/-!
# What happens before an event

`Before p t e` : the event `e` is in the trace `t`, and no event before it satisfies `p`.  Events
that are told apart in this way are those a program leaves by itself before it first calls
something that may do anything.

`Law.noneBefore p q` is the law that no event with `q` comes before the events with `p`.  A program
that ends with the first such event, in a known way, is `Concluded`; it is built from parts that
keep the law.
-/

namespace MileRpc

variable {σ E ε ω α β : Type}

/-- The event is in the trace, before any event with `p`. -/
def Before (p : E → Prop) (t : List E) (e : E) : Prop :=
  ∃ u v, t = u ++ e :: v ∧ ∀ a ∈ u, ¬ p a

/-- No event with `q` comes before the events with `p`. -/
def NoneBefore (p q : E → Prop) (t : List E) : Prop := ∀ e, Before p t e → ¬ q e

variable {p q : E → Prop} {t u : List E}

theorem Before.mem {e : E} (h : Before p t e) : e ∈ t := by
  obtain ⟨u, v, rfl, -⟩ := h
  simp

theorem before_of_mem {e : E} (ht : ∀ a ∈ t, ¬ p a) (he : e ∈ t) : Before p t e := by
  obtain ⟨u, v, rfl⟩ := List.append_of_mem he
  exact ⟨u, v, rfl, fun a ha => ht a (List.mem_append_left _ ha)⟩

/-- The head of the trace, or an event of the tail if the head allows it. -/
theorem before_cons {a e : E} : Before p (a :: t) e ↔ e = a ∨ (¬ p a ∧ Before p t e) := by
  constructor
  · rintro ⟨_ | ⟨b, u⟩, v, h, hu⟩
    · exact .inl (List.cons.inj h).1.symm
    · obtain ⟨rfl, rfl⟩ := List.cons.inj h
      exact .inr ⟨hu a List.mem_cons_self, u, v, rfl, fun b hb => hu b (List.mem_cons_of_mem _ hb)⟩
  · rintro (rfl | ⟨ha, u, v, rfl, hu⟩)
    · exact ⟨[], t, rfl, by simp⟩
    · exact ⟨a :: u, v, rfl, List.forall_mem_cons.2 ⟨ha, hu⟩⟩

theorem before_append {e : E} :
    Before p (t ++ u) e ↔ Before p t e ∨ ((∀ a ∈ t, ¬ p a) ∧ Before p u e) := by
  induction t with
  | nil => simp [Before]
  | cons a t ih =>
    rw [List.cons_append, before_cons, before_cons, ih, List.forall_mem_cons]
    tauto

namespace NoneBefore

theorem nil : NoneBefore p q ([] : List E) := fun _ h => absurd h.mem List.not_mem_nil

theorem append (ht : NoneBefore p q t) (hu : NoneBefore p q u) : NoneBefore p q (t ++ u) := by
  intro e he
  rcases before_append.1 he with he | ⟨-, he⟩
  · exact ht e he
  · exact hu e he

theorem cons {a : E} (ha : ¬ q a) (ht : p a ∨ NoneBefore p q t) : NoneBefore p q (a :: t) := by
  intro e he
  rcases before_cons.1 he with rfl | ⟨hp, he⟩
  · exact ha
  · exact ht.resolve_left hp e he

theorem append_of_mem {a : E} (ht : NoneBefore p q t) (ha : a ∈ t) (hp : p a) (u : List E) :
    NoneBefore p q (t ++ u) := by
  intro e he
  rcases before_append.1 he with he | ⟨hnone, -⟩
  · exact ht e he
  · exact absurd hp (hnone a ha)

end NoneBefore

/-- The law that no event with `q` comes before the events with `p`. -/
def Law.noneBefore (p q : E → Prop) : Law σ E ω where
  Moves _ t _ := NoneBefore p q t
  Stops _ t _ := NoneBefore p q t
  Fair _ := True
  moves_nil _ := NoneBefore.nil
  moves_append := NoneBefore.append
  stops_append := NoneBefore.append
  fair_append _ := ⟨trivial, trivial⟩

variable {x : Prog σ E ε ω α} {f : α → Prog σ E ε ω β} {A : α → Prop} {T : Prop}

theorem Law.Keeps.noneBefore (hx : (Law.noneBefore p q).Keeps A T x) :
    x.Ensures fun o t => NoneBefore p q t ∧ ∀ a, o = .ret a → A a := by
  intro s
  have hs := hx s trivial
  unfold Law.Meets at hs
  rcases hr : x s with ⟨a | e | w, t, s'⟩
  · rw [hr] at hs
    exact ⟨hs.1, fun b hb => Outcome.ret.inj hb ▸ hs.2⟩
  · rw [hr] at hs
    exact ⟨hs.1, by simp⟩
  · rw [hr] at hs
    exact ⟨hs, by simp⟩

/-- An event leaves the law alone if it is not one with `q`. -/
theorem Law.Keeps.emit_noneBefore {e : E} (he : ¬ q e) :
    (Law.noneBefore p q).Keeps (fun _ => True) T (Prog.emit e : Prog σ E ε ω Unit) :=
  (Law.Keeps.emit fun _ _ => NoneBefore.cons he (.inr NoneBefore.nil)).weaken fun _ _ => trivial

theorem Law.Keeps.announced {e : E} (he : ¬ q e) (hp : p e) :
    (Law.noneBefore p q).Keeps (fun _ => True) True (do Prog.emit e; x) := by
  intro s _
  change (Law.noneBefore p q).Meets _ _ s ((x s).prepend [e])
  have ht : NoneBefore p q ([e] ++ (x s).trace) := NoneBefore.cons he (.inl hp)
  unfold Law.Meets
  rcases hr : x s with ⟨a | e' | w, t, s'⟩
  · rw [hr] at ht
    exact ⟨ht, trivial⟩
  · rw [hr] at ht
    exact ⟨ht, trivial⟩
  · rw [hr] at ht
    exact ht

/-- No event with `q` came before the events with `p`, or there was none of these and the run has
ended as `done` says. -/
def Concluded (p q : E → Prop) (done : Outcome ε ω α → Prop) (o : Outcome ε ω α) (t : List E) :
    Prop :=
  NoneBefore p q t ∨ ((∀ a ∈ t, ¬ p a) ∧ done o)

namespace Concluded

variable {done : Outcome ε ω α → Prop} {done' : Outcome ε ω β → Prop}

theorem of_keeps (hx : (Law.noneBefore p q).Keeps (fun _ => True) True x) :
    x.Ensures (Concluded p q done) :=
  hx.noneBefore.mono fun _ _ h => .inl h.1

theorem pure {a : α} : (Pure.pure a : Prog σ E ε ω α).Ensures (Concluded p q done) :=
  fun _ => .inl NoneBefore.nil

/-- A part before the conclusion. -/
theorem after (hx : (Law.noneBefore p q).Keeps A T x)
    (hf : ∀ a, A a → (f a).Ensures (Concluded p q done')) :
    (x >>= f).Ensures (Concluded p q done') := by
  refine hx.noneBefore.bind (fun a t ⟨ht, ha⟩ => ?_) (fun _ _ h => .inl h.1) fun _ _ h => .inl h.1
  refine (hf a (ha a rfl)).mono fun o u hu => ?_
  rcases hu with hu | ⟨hu, ho⟩
  · exact .inl (ht.append hu)
  · by_cases hp : ∀ a ∈ t, ¬ p a
    · exact .inr ⟨fun a ha => (List.mem_append.1 ha).elim (hp a) (hu a), ho⟩
    · push Not at hp
      obtain ⟨a, ha, hp⟩ := hp
      exact .inl (ht.append_of_mem ha hp u)

/-- A part after the conclusion, which leaves no event then. -/
theorem bind (hx : x.Ensures (Concluded p q done))
    (hdone : ∀ o, done o → ∃ a b, o = .ret a ∧ f a = Pure.pure b ∧ done' (.ret b))
    (hf : ∀ a, (Law.noneBefore p q).Keeps (fun _ => True) True (f a)) :
    (x >>= f).Ensures (Concluded p q done') := by
  refine Prog.Ensures.bind hx (fun a t h => ?_) (fun e t h => ?_) fun w t h => ?_
  · rcases h with ht | ⟨ht, ho⟩
    · exact (hf a).noneBefore.mono fun o u hu => .inl (ht.append hu.1)
    · obtain ⟨a', b, ha, hfa, hb⟩ := hdone _ ho
      rw [Outcome.ret.inj ha, hfa]
      exact Prog.Ensures.pure (.inr ⟨by simpa using ht, hb⟩)
  · rcases h with ht | ⟨-, ho⟩
    · exact .inl ht
    · obtain ⟨a, b, ha, -⟩ := hdone _ ho
      cases ha
  · rcases h with ht | ⟨-, ho⟩
    · exact .inl ht
    · obtain ⟨a, b, ha, -⟩ := hdone _ ho
      cases ha

/-- A handler of exceptions: the conclusion throws none. -/
theorem tryCatch {h : ε → Prog σ E ε ω α} (hx : x.Ensures (Concluded p q done))
    (hdone : ∀ e, ¬ done (.throw e))
    (hh : ∀ e, (Law.noneBefore p q).Keeps (fun _ => True) True (h e)) :
    (x.tryCatch h).Ensures (Concluded p q done) := by
  refine Prog.Ensures.tryCatch hx (fun _ _ h => h) (fun e t ht => ?_) fun _ _ h => h
  rcases ht with ht | ⟨-, ho⟩
  · exact (hh e).noneBefore.mono fun o u hu => .inl (ht.append hu.1)
  · exact absurd ho (hdone e)

end Concluded

end MileRpc
