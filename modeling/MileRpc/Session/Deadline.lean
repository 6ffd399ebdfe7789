import MileRpc.Session.Watchdog

/-!
# How often the watchdog runs

Each handler of the timer waits again, so the watchdog never ends.  It does not spin either: in the
loop of an operation it runs when the wait before the operation was cancelled, and when the deadline
has passed; after that the timer never expires.

`Session.deadlines_bounded` counts its handlers over whole runs with a clock that does not go back,
by what each state still has to come (`Session.Loop.due`, `Session.step_due`).
-/

namespace MileRpc

namespace Session

/-- The clock never goes back. -/
def Forward : ℤ → List Label → Prop
  | _, [] => True
  | now, .tick t :: as => now ≤ t ∧ Forward t as
  | now, _ :: as => Forward now as

/-- The label enters a loop. -/
def Label.enters : Label → Bool
  | .connect (.started _) | .handshake true | .write true | .read true => true
  | _ => false

/-- The label runs the handler of the timer. -/
def Label.isDeadline : Label → Bool
  | .deadline => true
  | _ => false

namespace Loop

/-- An operation is under way: its loop runs the `io_context`. -/
def busy (l : Loop) : Bool :=
  match l.phase with
  | .idle | .waiting _ _ (.stored _) => false
  | _ => true

/-- How often the watchdog can still run for the operation under way. -/
def due (l : Loop) : ℕ :=
  if !l.busy || l.deadline.expiry = .posInfin then 0
  else if l.deadline.expiry.isPast l.now then 1
  else 1 + l.deadline.queued

theorem due_of_not_busy {l : Loop} (h : l.busy = false) : l.due = 0 := by simp [due, h]

theorem due_le {l : Loop} : l.due ≤ 1 + l.deadline.queued := by
  unfold due
  split_ifs <;> omega

theorem due_tick_le {l : Loop} {t : ℤ} (ht : l.now ≤ t) :
    ({ l with now := t } : Loop).due ≤ l.due := by
  have hpast : ∀ e : Expiry, e.isPast l.now = true → e.isPast t = true := by
    intro e he
    cases e with
    | notADateTime => rfl
    | «at» d =>
      simp only [Expiry.isPast_at, decide_eq_true_eq] at he ⊢
      omega
    | posInfin => cases he
  have hbusy : ({ l with now := t } : Loop).busy = l.busy := rfl
  unfold due
  rw [hbusy]
  split_ifs <;> simp_all

end Loop

/-- The invariant: one wait is outstanding, and in a loop whose deadline was noticed it is
pending. -/
structure Noticed (l : Loop) : Prop where
  watched : Watched l
  pending : l.busy = true → l.deadline.expiry = .posInfin → l.deadline.queued = 0

section Steps

variable {s : Session} {l l' : Loop} {a : Label}

theorem Noticed.queued_le (h : Noticed l) : l.deadline.queued ≤ 1 := by
  have := h.watched.outstanding
  simp only [Timer.outstanding] at this
  omega

/-- What a step does to the timer: nothing, while no loop is entered; the clock ticks; the timer
expires; a loop is entered, or is not; the watchdog runs. -/
inductive Timed (s : Session) (l : Loop) : Label → Loop → Prop
  | same {a : Label} {l' : Loop} : a.isDeadline = false → l'.deadline = l.deadline →
      l'.now = l.now → (l'.busy = true → l.busy = true) → (∀ t, a ≠ .tick t) → Timed s l a l'
  | tick (t : ℤ) : Timed s l (.tick t) { l with now := t }
  | expire {t : Timer} : l.deadline.expire l.now = some t →
      Timed s l .expire { l with deadline := t }
  | start {a : Label} (op : Op) (isOpen : Bool) : a.enters = true → a.isDeadline = false →
      Timed s l a { l.start s.tm op true with isOpen := isOpen }
  | abandon {a : Label} (op : Op) : a.isDeadline = false → (∀ t, a ≠ .tick t) →
      Timed s l a (l.start s.tm op false)
  | deadline {t : Timer} : l.busy = true → l.deadline.take = some t →
      Timed s l .deadline { l with deadline := t }.waitDeadline

theorem step_timed (h : s.step l a = some l') : Timed s l a l' := by
  cases a with
  | tick now =>
    obtain rfl : _ = l' := by simpa [step] using h
    exact .tick now
  | connect c =>
    simp only [step] at h
    split at h <;> cases h
    · exact .same rfl rfl rfl id (by simp)
    · exact .abandon _ rfl (by simp)
    · exact .start .connect _ rfl rfl
  | handshake started =>
    simp only [step] at h
    split at h
    · split at h <;> cases h
      cases started with
      | true => exact .start .handshake l.isOpen rfl rfl
      | false => exact .abandon _ rfl (by simp)
    · cases h
  | write started =>
    simp only [step] at h
    split at h <;> cases h
    cases started with
    | true => exact .start .write l.isOpen rfl rfl
    | false => exact .abandon _ rfl (by simp)
  | read started =>
    simp only [step] at h
    split at h <;> cases h
    cases started with
    | true => exact .start .read l.isOpen rfl rfl
    | false => exact .abandon _ rfl (by simp)
  | endpoint isOpen =>
    simp only [step] at h
    split at h
    · split at h <;> cases h
      exact .same rfl rfl rfl id (by simp)
    · cases h
  | complete ec =>
    simp only [step] at h
    split at h <;> cases h
    next hp => exact .same rfl rfl rfl (fun _ => by simp [Loop.busy, hp]) (by simp)
  | expire =>
    obtain ⟨t, ht, rfl⟩ := Option.map_eq_some_iff.1 h
    exact .expire ht
  | dispatch =>
    simp only [step] at h
    split at h <;> cases h
    exact .same rfl rfl rfl (fun hb => by simp [Loop.busy] at hb) (by simp)
  | deadline =>
    simp only [step] at h
    split at h
    · cases h
    · cases h
    · next hbusy hstored =>
      obtain ⟨t, ht, rfl⟩ := Option.map_eq_some_iff.1 h
      refine .deadline ?_ ht
      unfold Loop.busy
      split <;> simp_all
  | returned op b =>
    simp only [step] at h
    split at h
    · split at h <;> cases h
      exact .same rfl rfl rfl (fun hb => by simp [Loop.busy] at hb) (by simp)
    · cases h

/-- When the watchdog runs, no other handler of the timer is left. -/
theorem Noticed.take (h : Noticed l) {t : Timer} (ht : l.deadline.take = some t) :
    l.deadline.queued = 1 ∧ t.queued = 0 ∧ t.pending = 0 ∧ t.expiry = l.deadline.expiry := by
  have hone := h.watched.outstanding
  simp only [Timer.outstanding] at hone
  simp only [Timer.take, Option.ite_none_right_eq_some, Option.some.injEq] at ht
  obtain ⟨hqueued, rfl⟩ := ht
  exact ⟨by omega, by show l.deadline.queued - 1 = 0; omega, by show l.deadline.pending = 0; omega,
    rfl⟩

theorem Noticed.queued_waitDeadline (h : Noticed l) {t : Timer} (ht : l.deadline.take = some t) :
    ({ l with deadline := t } : Loop).waitDeadline.deadline.queued = 0 := by
  obtain ⟨-, hqueued, hpending, -⟩ := h.take ht
  unfold Loop.waitDeadline
  split <;> simp [Timer.asyncWait, Timer.expiresAt, hqueued, hpending]

/-- A run of the watchdog pays for itself. -/
theorem Noticed.due_waitDeadline (h : Noticed l) (hb : l.busy = true) {t : Timer}
    (ht : l.deadline.take = some t) :
    ({ l with deadline := t } : Loop).waitDeadline.due + 1 ≤ l.due := by
  obtain ⟨hqueued, -, -, hexpiry⟩ := h.take ht
  have hnever : l.deadline.expiry ≠ .posInfin := fun he => by simp [h.pending hb he] at hqueued
  cases hpast : l.deadline.expiry.isPast l.now with
  | true =>
    -- the deadline is noticed
    have hdue : l.due = 1 := by simp [Loop.due, hb, hnever, hpast]
    have hdue' : ({ l with deadline := t } : Loop).waitDeadline.due = 0 := by
      simp [Loop.due, Loop.waitDeadline, hexpiry, hpast, Timer.asyncWait, Timer.expiresAt]
    rw [hdue, hdue']
  | false =>
    -- the wait before the operation was cancelled
    have hdue : l.due = 2 := by simp [Loop.due, hb, hnever, hpast, hqueued]
    have hdue' : ({ l with deadline := t } : Loop).waitDeadline.due ≤ 1 :=
      Loop.due_le.trans (by rw [h.queued_waitDeadline ht])
    rw [hdue]
    exact Nat.succ_le_succ hdue'

theorem step_noticed (hl : Noticed l) (h : s.step l a = some l') : Noticed l' := by
  refine ⟨step_watched hl.watched h, ?_⟩
  cases step_timed h with
  | same _ hdeadline _ hbusy _ =>
    intro hb he
    rw [hdeadline] at he ⊢
    exact hl.pending (hbusy hb) he
  | tick t => exact hl.pending
  | @expire t ht =>
    intro _ he
    obtain ⟨-, hexpiry⟩ := Timer.expire_eq_some ht
    have hnever : l.deadline.expiry = .posInfin := hexpiry ▸ he
    simp [Timer.expire, hnever] at ht
  | start op isOpen _ _ =>
    intro _ he
    cases he
  | abandon op _ _ =>
    intro hb _
    cases hb
  | deadline _ ht => exact fun _ _ => hl.queued_waitDeadline ht

/-- **What a step does to what is due**: to enter a loop costs two runs of the watchdog, and each of
its runs pays for itself. -/
theorem step_due (hl : Noticed l) (h : s.step l a = some l')
    (hclock : ∀ t, a = .tick t → l.now ≤ t) :
    l'.due + (if a.isDeadline then 1 else 0) ≤ l.due + if a.enters then 2 else 0 := by
  cases step_timed h with
  | same hnot hdeadline hnow hbusy _ =>
    have hle : l'.due ≤ l.due := by
      cases hb : l'.busy with
      | false => simp [Loop.due_of_not_busy hb]
      | true => simp [Loop.due, hb, hbusy hb, hdeadline, hnow]
    simp only [hnot, Bool.false_eq_true, if_false]
    omega
  | tick t =>
    have hle : ({ l with now := t } : Loop).due ≤ l.due := Loop.due_tick_le (hclock t rfl)
    simpa [Label.isDeadline, Label.enters] using hle
  | @expire t ht =>
    obtain ⟨-, hexpiry⟩ := Timer.expire_eq_some ht
    have hpast : l.deadline.expiry.isPast l.now = true := by
      simp only [Timer.expire, Option.ite_none_right_eq_some] at ht
      exact ht.1
    have hbusy : ({ l with deadline := t } : Loop).busy = l.busy := rfl
    simp [Label.isDeadline, Label.enters, Loop.due, hbusy, hexpiry, hpast]
  | start op isOpen henters hnot =>
    have hqueued : (l.start s.tm op true).deadline.queued ≤ 1 := by
      have := hl.watched.outstanding
      simpa [Loop.start, Loop.expiresFromNow, Timer.expiresAt, Timer.outstanding, add_comm]
        using this.le
    have hle : ({ l.start s.tm op true with isOpen := isOpen } : Loop).due ≤ 2 :=
      Loop.due_le.trans (Nat.add_le_add_left hqueued 1)
    rw [henters, hnot]
    exact hle.trans (Nat.le_add_left 2 _)
  | abandon op hnot _ =>
    have hbusy : (l.start s.tm op false).busy = false := rfl
    simp [hnot, Loop.due_of_not_busy hbusy]
  | deadline hb ht => exact hl.due_waitDeadline hb ht

theorem Forward.step {as : List Label} (hclock : Forward l.now (a :: as))
    (h : s.step l a = some l') : (∀ t, a = .tick t → l.now ≤ t) ∧ Forward l'.now as := by
  have hnow : (∀ t, a ≠ .tick t) → l'.now = l.now := by
    intro hne
    cases step_timed h with
    | same _ _ hnow _ _ => exact hnow
    | tick t => exact absurd rfl (hne t)
    | deadline _ _ =>
      unfold Loop.waitDeadline
      split <;> rfl
    | _ => rfl
  cases a with
  | tick t =>
    obtain ⟨hle, hrest⟩ := hclock
    obtain rfl : _ = l' := by simpa [Session.step] using h
    exact ⟨by rintro _ ⟨⟩; exact hle, hrest⟩
  | _ =>
    rw [hnow (by simp)]
    exact ⟨by simp, hclock⟩

end Steps

theorem run_due {s : Session} {l l' : Loop} {as : List Label} (hl : Noticed l)
    (h : Lts.run s.step l as = some l') (hclock : Forward l.now as) :
    l'.due + as.countP Label.isDeadline ≤ l.due + 2 * as.countP Label.enters ∧ Noticed l' := by
  induction as generalizing l with
  | nil =>
    obtain rfl : l = l' := by simpa using h
    exact ⟨Nat.le_refl _, hl⟩
  | cons a as ih =>
    obtain ⟨l₁, hstep, hrest⟩ := Lts.run_cons_eq_some.1 h
    obtain ⟨htick, hclock'⟩ := hclock.step hstep
    have hone := step_due hl hstep htick
    obtain ⟨hmore, hl'⟩ := ih (step_noticed hl hstep) hrest hclock'
    refine ⟨?_, hl'⟩
    rw [List.countP_cons, List.countP_cons]
    split_ifs at hone ⊢ <;> omega

theorem noticed_construct (now : ℤ) : Noticed (construct now) where
  watched := watched_construct now
  pending h _ := by cases h

/-- **The watchdog does not spin**, with a clock that does not go back: over a whole run it runs at
most twice for each loop that is entered, and from any state at most twice before the next one
is. -/
theorem deadlines_bounded (s : Session) (now : ℤ) (as : List Label) (l : Loop)
    (hrun : Lts.run s.step (construct now) as = some l) (hclock : Forward now as) :
    as.countP Label.isDeadline ≤ 2 * as.countP Label.enters ∧
      ∀ bs l', Lts.run s.step l bs = some l' → Forward l.now bs →
        bs.countP Label.enters = 0 → bs.countP Label.isDeadline ≤ 2 := by
  have hnow : (construct now).now = now := rfl
  obtain ⟨hdue, hl⟩ := run_due (noticed_construct now) hrun (hnow.symm ▸ hclock)
  have hfirst : (construct now).due = 0 := rfl
  refine ⟨by omega, fun bs l' hbs hclock' hno => ?_⟩
  obtain ⟨hrest, -⟩ := run_due hl hbs hclock'
  have hle : l.due ≤ 2 := Loop.due_le.trans (Nat.add_le_add_left hl.queued_le 1)
  omega

theorem deadlines_bounded_lateRead :
    (lateRead.countP Label.isDeadline ≤ 2 * lateRead.countP Label.enters ∧
      ∀ bs l', Lts.run sample.step
          ⟨4000000, ⟨.at 3000000, 0, 1⟩, true, .waiting .read 3000000 .running⟩ bs = some l' →
        Forward 4000000 bs → bs.countP Label.enters = 0 → bs.countP Label.isDeadline ≤ 2) ∧
      lateRead.countP Label.isDeadline = 1 :=
  ⟨deadlines_bounded sample 0 lateRead _ (by decide) (by simp [lateRead, Forward]), by decide⟩

end Session

end MileRpc
