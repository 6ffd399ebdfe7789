import MileRpc.Session.Discipline
import MileRpc.Session.Loops

/-!
# A socket that was closed

The watchdog closes the socket of an operation that is late, and nothing but a connect opens it
again.  A session is connected once, before everything else, so a session whose socket was found
closed is of no use for the rest of a run (`Session.closed_forever`).
-/

namespace MileRpc

open Session

/-- The connect of the session is over. -/
def Stage.past : Stage → Bool
  | .ready | .awaiting | .failed => true
  | _ => false

/-- The operation is not a part of a connect. -/
def Event.isExchange : Event → Bool
  | .write _ _ _ | .read _ _ => true
  | _ => false

section Stages

variable {s : Session} {e : Event} {p : Option Stage} {p' : Stage}

theorem Stage.past_afterWrite (r : Except Exn Io) : (Stage.afterWrite r).past = true := by
  unfold Stage.afterWrite
  split
  · split_ifs <;> rfl
  · rfl

theorem Session.advance_past (hp : ∀ x ∈ p, x.past = true) (hsome : p ≠ none)
    (h : s.advance p e = some p') : e.isExchange = true ∧ p'.past = true := by
  rcases p with _ | p
  · exact absurd rfl hsome
  · have hpast := hp p rfl
    cases p <;> cases hpast
    · cases e <;> simp only [advance, Option.some.injEq, reduceCtorEq] at h
      subst h
      exact ⟨rfl, Stage.past_afterWrite _⟩
    · cases e <;> simp only [advance, Option.some.injEq, reduceCtorEq] at h
      subst h
      exact ⟨rfl, rfl⟩
    · cases e <;> cases h

theorem Stage.after_of_closed {α : Type} {next : Stage} (io : α → Io) {r : Except Exn α}
    (hclosed : ∀ a, r = .ok a → (io a).isOpen = false) :
    (next.after (fun a => !(io a).failed) r).past = true := by
  cases r with
  | error _ => rfl
  | ok a => simp [Io.failed, hclosed a rfl, past]

/-- An operation that ends with its socket closed is the end of the connect, or comes after it. -/
theorem Session.advance_closed (he : e.session? = some s) (hclosed : e.leaves = some false)
    (h : s.advance p e = some p') : p'.past = true := by
  unfold advance at h
  split at h
  · next r => rcases r with _ | _ <;> cases hclosed
  · next r => rcases r with _ | _ | _ <;> cases hclosed
  · split_ifs at h
    obtain rfl := Option.some.inj h
    refine Stage.after_of_closed id fun io hr => ?_
    subst hr
    exact Option.some.inj hclosed
  · obtain rfl := Option.some.inj h
    refine Stage.after_of_closed id fun io hr => ?_
    subst hr
    exact Option.some.inj hclosed
  · next r => rcases r with _ | _ <;> cases hclosed
  · obtain rfl := Option.some.inj h
    obtain rfl := Option.some.inj he
    refine Stage.after_of_closed _ fun h hr => ?_
    subst hr
    exact Option.some.inj hclosed
  · obtain rfl := Option.some.inj h
    exact Stage.past_afterWrite _
  · obtain rfl := Option.some.inj h
    rfl
  · cases h

end Stages

theorem Obeys.past_of_closed {u v : List Event} {e : Event} {s : Session}
    (h : Obeys (u ++ e :: v)) (he : e.session? = some s) (hclosed : e.leaves = some false) :
    ∀ e' ∈ v, e'.session? = some s → e'.isExchange = true := by
  obtain ⟨q, -, q', hrun⟩ := h.moment
  obtain ⟨q₁, hstep, hrest⟩ := Lts.run_cons_eq_some.1 hrun
  have hpast : ∃ p, q₁ s.handle = some (s, p) ∧ p.past = true := by
    rcases Sessions.step_cases hstep with ⟨hnone, -⟩ | ⟨s', p, hs', -, hp, rfl⟩
    · rw [he] at hnone
      cases hnone
    · obtain rfl : s = s' := Option.some.inj (he.symm.trans hs')
      exact ⟨p, Sessions.put_self, Session.advance_closed he hclosed hp⟩
  refine Lts.run_labels (C := fun q => ∃ p, q s.handle = some (s, p) ∧ p.past = true)
    (K := fun _ => False) (P := fun e' => e'.session? = some s → e'.isExchange = true)
    (fun q₂ e' q₃ hq₂ _ hstep' => ?_) hpast hrest fun _ _ h => h
  obtain ⟨p, hq, hp⟩ := hq₂
  rcases Sessions.step_cases hstep' with ⟨hnone, rfl⟩ | ⟨s', p', hs', hsame, hadvance, rfl⟩
  · exact ⟨⟨p, hq, hp⟩, fun h => by rw [hnone] at h; cases h⟩
  · by_cases hh : s.handle = s'.handle
    · obtain rfl : s = s' := hsame (s, p) (hh ▸ hq)
      rw [hq] at hadvance
      have hp' := Session.advance_past (by simpa using hp) (by simp) hadvance
      exact ⟨⟨p', Sessions.put_self, hp'.2⟩, fun _ => hp'.1⟩
    · refine ⟨⟨p, by rw [Sessions.put_of_ne hh, hq], hp⟩, fun h => ?_⟩
      exact absurd (congrArg Session.handle (Option.some.inj (h.symm.trans hs'))) hh

namespace Session

variable {s : Session} {l l' : Loop} {t u : List Event} {e : Event}

theorem Traced.split (h : s.Traced l (t ++ u) l') : ∃ l₁, s.Traced l t l₁ ∧ s.Traced l₁ u l' := by
  generalize hv : t ++ u = v at h
  induction h generalizing t with
  | nil l =>
    obtain ⟨rfl, rfl⟩ := List.append_eq_nil_iff.1 hv
    exact ⟨l, .nil l, .nil l⟩
  | drift hd _ ih =>
    obtain ⟨l₁, ht, hu⟩ := ih hv
    exact ⟨l₁, .drift hd ht, hu⟩
  | event hs hopen hrest ih =>
    rcases t with _ | ⟨e, t⟩
    · subst hv
      exact ⟨_, .nil _, .event hs hopen hrest⟩
    · obtain ⟨rfl, rfl⟩ := List.cons.inj hv
      obtain ⟨l₁, ht, hu⟩ := ih rfl
      exact ⟨l₁, .event hs hopen ht, hu⟩

theorem Traced.tail {b : Bool} (h : s.Traced l (e :: t) l') (he : e.session? = some s)
    (hb : e.leaves = some b) : ∃ l₁, l₁.isOpen = b ∧ s.Traced l₁ t l' := by
  generalize hv : e :: t = v at h
  induction h with
  | nil l => cases hv
  | drift hd _ ih => exact ih hv
  | event _ hopen hrest _ =>
    obtain ⟨rfl, rfl⟩ := List.cons.inj hv
    exact ⟨_, hopen he b hb, hrest⟩

/-- While the socket is closed, nothing that is not a connect returns true. -/
theorem Traced.closed (h : s.Traced l t l') (hl : l.isOpen = false)
    (ht : ∀ e ∈ t, e.session? = some s → e.isExchange = true) :
    ∀ e ∈ t, e.session? = some s → ∀ op, .returns op true ∉ e.shows := by
  obtain ⟨as, hrun, hshown⟩ := h.run
  have hmem : ∀ x, (∃ a ∈ as, a.shown = some x) ↔ ∃ e ∈ t, e.session? = some s ∧ x ∈ e.shows := by
    intro x
    have hlist : x ∈ as.filterMap Label.shown ↔ x ∈ t.flatMap (Event.shown s) := by rw [hshown]
    simpa [Event.shown, List.mem_filterMap, List.mem_flatMap] using hlist
  have hconnect : ∀ a ∈ as, ¬ a.IsConnect := by
    rintro a ha ⟨c, rfl⟩
    obtain ⟨started, hc⟩ : ∃ started, (Label.connect c).shown =
        some (.starts .connect started) := by
      cases c <;> exact ⟨_, rfl⟩
    obtain ⟨e, he, hs, hx⟩ := (hmem _).1 ⟨_, ha, hc⟩
    have hexchange := ht e he hs
    cases e <;> cases hexchange <;> simp only [Event.shows, shownLoop] at hx <;>
      split at hx <;> simp at hx
  intro e he hs op hx
  obtain ⟨a, ha, hshown⟩ := (hmem _).2 ⟨e, he, hs, hx⟩
  obtain rfl : a = .returned op true := by
    cases a with
    | connect c => cases c <;> simp [Label.shown] at hshown
    | _ => simp_all [Label.shown]
  exact absurd (returned_closed hl hrun hconnect op true ha) (by simp)

/-- If `e` has ended with its socket closed, then `e'` is not successful. -/
def ClosedBefore (e e' : Event) : Prop :=
  ∀ s, e.session? = some s → e'.session? = some s → e.leaves = some false →
    ∀ op, .returns op true ∉ e'.shows

/-- **A socket that was closed stays closed**: after an operation that has ended with its socket
closed, no operation of the session is successful. -/
theorem closed_forever {loop loop' : Session → Loop} (hobeys : Obeys t)
    (h : ∀ e ∈ t, ∀ s, e.session? = some s → s.Traced (loop s) t (loop' s)) :
    t.Pairwise ClosedBefore := by
  refine List.pairwise_of_forall_sublist fun {e e'} hsub s he he' hclosed => ?_
  -- the trace is `u ++ e :: (v ++ r)`, with `e'` in `r`
  obtain ⟨u', r, rfl, heu, he'r⟩ := List.cons_sublist_iff.1 hsub
  obtain ⟨u, v, rfl⟩ := List.append_of_mem heu
  have htraced := h e (List.mem_append_left r heu) s he
  rw [List.append_assoc, List.cons_append] at hobeys htraced
  obtain ⟨l₁, -, h₁⟩ := htraced.split
  obtain ⟨l₂, hl₂, h₂⟩ := h₁.tail he hclosed
  have hmem : e' ∈ v ++ r := List.mem_append_right v (List.singleton_sublist.1 he'r)
  exact h₂.closed hl₂ (hobeys.past_of_closed he hclosed) e' hmem he'

end Session

end MileRpc
