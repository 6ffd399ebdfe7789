import MileRpc.Session.Protocol

/-!
# What the protocol of the sessions says

`Disciplined` says in terms of the events alone what a run that keeps the protocol of its sessions
is like: a session is connected once, before anything else; a request is only written on a session
whose connection is established, which for https includes a handshake that was accepted; and the
reads of a session take turns with its whole requests, so that no request is written before the
response of the last one was read, and nothing is read that was not asked for.

`Obeys.disciplined` gets that from the monitor, by what the stage of a session tells about the
events before (`Sessions.Tells`).
-/

namespace MileRpc

/-- The trace keeps the protocol of every session, and no session waits for a response at its
end. -/
def Obeys (t : List Event) : Prop :=
  ∃ q, Lts.run Sessions.step Sessions.init t = some q ∧ ∀ h s, q h ≠ some (s, .awaiting)

/-- The session has been connected: the socket, and for https also TLS. -/
structure Established (s : Session) (t : List Event) : Prop where
  tcp : ∃ io, .tcpConnect s (.ok io) ∈ t ∧ io.failed = false
  tls : s.useSsl = true → ∃ h, .handshake s (.ok h) ∈ t ∧ (s.handshakeIo h).failed = false

/-- A whole request was written on `s`. -/
def Event.isWrote (s : Session) : Event → Bool
  | .write s' _ a => decide (s' = s) && decide (Stage.afterWrite a.result = .awaiting)
  | _ => false

/-- A response was read from `s`, or the read has failed. -/
def Event.isRead (s : Session) : Event → Bool
  | .read s' _ => decide (s' = s)
  | _ => false

/-- The whole requests that were written on `s`. -/
def wrote (s : Session) (t : List Event) : ℕ := t.countP (Event.isWrote s)

/-- The reads from `s`. -/
def reads (s : Session) (t : List Event) : ℕ := t.countP (Event.isRead s)

/-- The sessions are used as they should be. -/
structure Disciplined (t : List Event) : Prop where
  /-- A connect is the first thing that is done with a session. -/
  first : ∀ u s r v, t = u ++ .resolve s r :: v → ∀ e ∈ u, e.session? ≠ some s
  /-- A request is written on an established connection. -/
  established : ∀ u s req a v, t = u ++ .write s req a :: v → Established s u
  /-- At any moment, a session has at most one request without its read, and no read without its
  request. -/
  turns : ∀ u v s, t = u ++ v → reads s u ≤ wrote s u ∧ wrote s u ≤ reads s u + 1
  /-- At the end, every whole request has had its read. -/
  answered : ∀ s, reads s t = wrote s t

/-! ### What a stage tells -/

/-- What is known about the events before a stage. -/
def Stage.Evidence (s : Session) (t : List Event) : Stage → Prop
  | .resolved | .failed => True
  | .named => s.useSsl = true
  | .connected | .shaking =>
    s.useSsl = true ∧ ∃ io, .tcpConnect s (.ok io) ∈ t ∧ io.failed = false
  | .ready | .awaiting => Established s t

theorem Established.append {s : Session} {t : List Event} (h : Established s t) (u : List Event) :
    Established s (t ++ u) where
  tcp := by
    obtain ⟨io, hio, hok⟩ := h.tcp
    exact ⟨io, List.mem_append_left u hio, hok⟩
  tls hssl := by
    obtain ⟨hs, hhs, hok⟩ := h.tls hssl
    exact ⟨hs, List.mem_append_left u hhs, hok⟩

namespace Stage

variable {s : Session} {t : List Event} {α : Type}

theorem Evidence.append {p : Stage} (h : p.Evidence s t) (u : List Event) :
    p.Evidence s (t ++ u) := by
  cases p with
  | resolved => trivial
  | failed => trivial
  | named => exact h
  | connected =>
    obtain ⟨hssl, io, hio, hok⟩ := h
    exact ⟨hssl, io, List.mem_append_left u hio, hok⟩
  | shaking =>
    obtain ⟨hssl, io, hio, hok⟩ := h
    exact ⟨hssl, io, List.mem_append_left u hio, hok⟩
  | ready => exact Established.append h u
  | awaiting => exact Established.append h u

/-- The stage after a part of the connect needs evidence only if the part has succeeded. -/
theorem evidence_after {next : Stage} {ok : α → Bool} {r : Except Exn α}
    (h : ∀ a, r = .ok a → ok a = true → next.Evidence s t) : (next.after ok r).Evidence s t := by
  cases r with
  | error e => trivial
  | ok a =>
    rw [after_ok]
    split_ifs with ha
    · exact h a rfl ha
    · trivial

theorem after_ne_awaiting {next : Stage} (hnext : next ≠ .awaiting) (ok : α → Bool)
    (r : Except Exn α) : next.after ok r ≠ .awaiting := by
  cases r with
  | error e => simp
  | ok a =>
    rw [after_ok]
    split_ifs
    · exact hnext
    · simp

end Stage

namespace Session

variable {s : Session} {e : Event} {p : Option Stage} {p' : Stage}

/-- The steps of the protocol: they keep the evidence. -/
theorem advance_evidence {t : List Event} (he : e.session? = some s)
    (hp : ∀ x ∈ p, x.Evidence s t) (h : s.advance p e = some p') :
    p'.Evidence s (t ++ [e]) := by
  have hmem : e ∈ t ++ [e] := by simp
  unfold advance at h
  split at h
  · obtain rfl := Option.some.inj h
    exact Stage.evidence_after fun _ _ _ => trivial
  · split_ifs at h with hssl
    obtain rfl := Option.some.inj h
    exact Stage.evidence_after fun _ _ _ => hssl
  · split_ifs at h with hssl
    obtain rfl := Option.some.inj h
    obtain rfl := Option.some.inj he
    refine Stage.evidence_after fun io hr hio => ⟨⟨io, hr ▸ hmem, by simpa using hio⟩, ?_⟩
    exact fun hssl' => absurd hssl' hssl
  · obtain rfl := Option.some.inj h
    obtain rfl := Option.some.inj he
    refine Stage.evidence_after fun io hr hio => ⟨hp _ rfl, io, hr ▸ hmem, by simpa using hio⟩
  · obtain rfl := Option.some.inj h
    exact Stage.evidence_after fun _ _ _ => (hp _ rfl).append [_]
  · obtain rfl := Option.some.inj h
    obtain rfl := Option.some.inj he
    obtain ⟨-, io, hio, hok⟩ := hp _ rfl
    refine Stage.evidence_after fun hs hr hhs => ?_
    exact ⟨⟨io, List.mem_append_left _ hio, hok⟩, fun _ => ⟨hs, hr ▸ hmem, by simpa using hhs⟩⟩
  · obtain rfl := Option.some.inj h
    have hready : Established s t := hp _ rfl
    unfold Stage.afterWrite
    split
    · split_ifs <;> exact hready.append _
    · exact hready.append _
  · obtain rfl := Option.some.inj h
    have hready : Established s t := hp _ rfl
    exact hready.append _
  · cases h

/-- A session waits exactly between a whole request and its read. -/
theorem advance_balance (he : e.session? = some s) (h : s.advance p e = some p') :
    (if e.isWrote s then 1 else 0) + (if p = some .awaiting then 1 else 0) =
      (if e.isRead s then 1 else 0) + if p' = .awaiting then 1 else 0 := by
  have hconnect : ∀ {α : Type} {next : Stage} {ok : α → Bool} {r : Except Exn α},
      next ≠ .awaiting → (if next.after ok r = .awaiting then 1 else 0) = 0 := fun hne =>
    if_neg (Stage.after_ne_awaiting hne _ _)
  unfold advance at h
  split at h
  · obtain rfl := Option.some.inj h
    simp [Event.isWrote, Event.isRead, hconnect]
  · split_ifs at h
    obtain rfl := Option.some.inj h
    simp [Event.isWrote, Event.isRead, hconnect]
  · split_ifs at h
    obtain rfl := Option.some.inj h
    simp [Event.isWrote, Event.isRead, hconnect]
  · obtain rfl := Option.some.inj h
    simp [Event.isWrote, Event.isRead, hconnect]
  · obtain rfl := Option.some.inj h
    simp [Event.isWrote, Event.isRead, hconnect]
  · obtain rfl := Option.some.inj h
    simp [Event.isWrote, Event.isRead, hconnect]
  · obtain rfl := Option.some.inj h
    obtain rfl := Option.some.inj he
    simp [Event.isWrote, Event.isRead]
  · obtain rfl := Option.some.inj h
    obtain rfl := Option.some.inj he
    simp [Event.isWrote, Event.isRead]
  · cases h

theorem advance_write {req : HttpRequest} {a : WriteAnswer} {s' : Session}
    (h : s.advance p (.write s' req a) = some p') : p = some .ready := by
  cases p with
  | none => cases h
  | some p => cases p <;> first | rfl | cases h

theorem advance_resolve {r : Except Exn ℕ} {s' : Session}
    (h : s.advance p (.resolve s' r) = some p') : p = none := by
  cases p with
  | none => rfl
  | some p => cases p <;> cases h

end Session

/-! ### What the monitor tells -/

/-- What the monitor remembers is true of the events. -/
structure Sessions.Tells (t : List Event) (q : Sessions) : Prop where
  evidence : ∀ s p, q s.handle = some (s, p) → p.Evidence s t
  seen : ∀ e ∈ t, ∀ s, e.session? = some s → ∃ p, q s.handle = some (s, p)
  balance : ∀ s, wrote s t = reads s t + if q s.handle = some (s, .awaiting) then 1 else 0

theorem Event.isWrote_eq_false {e : Event} {s : Session} (he : e.session? ≠ some s) :
    e.isWrote s = false := by
  cases e <;> first | rfl | (simp [session?] at he; simp [isWrote, he])

theorem Event.isRead_eq_false {e : Event} {s : Session} (he : e.session? ≠ some s) :
    e.isRead s = false := by
  cases e <;> first | rfl | (simp [session?] at he; simp [isRead, he])

theorem wrote_append_singleton (s : Session) (t : List Event) (e : Event) :
    wrote s (t ++ [e]) = wrote s t + if e.isWrote s then 1 else 0 := by
  simp [wrote, List.countP_append, List.countP_singleton]

theorem reads_append_singleton (s : Session) (t : List Event) (e : Event) :
    reads s (t ++ [e]) = reads s t + if e.isRead s then 1 else 0 := by
  simp [reads, List.countP_append, List.countP_singleton]

namespace Sessions

theorem tells_init : Tells [] init where
  evidence _ _ h := by cases h
  seen _ h := by cases h
  balance _ := rfl

theorem Tells.step_none {t : List Event} {q : Sessions} {e : Event} (h : Tells t q)
    (he : e.session? = none) : Tells (t ++ [e]) q := by
  have hother : ∀ s, e.session? ≠ some s := by simp [he]
  refine ⟨fun s p hs => (h.evidence s p hs).append [e], fun e' he' s hs => ?_, fun s => ?_⟩
  · rcases List.mem_append.1 he' with he' | he'
    · exact h.seen e' he' s hs
    · rw [List.mem_singleton.1 he', he] at hs
      cases hs
  · rw [wrote_append_singleton, reads_append_singleton, Event.isWrote_eq_false (hother s),
      Event.isRead_eq_false (hother s)]
    exact h.balance s

section StepSome

variable {t : List Event} {q : Sessions} {e : Event} {s₀ : Session} {p' : Stage} (h : Tells t q)
  (he : e.session? = some s₀) (hsame : ∀ x ∈ q s₀.handle, x.1 = s₀)
  (hp : s₀.advance ((q s₀.handle).map Prod.snd) e = some p')

include hsame in
theorem stage_eq_some_iff (x : Stage) :
    (q s₀.handle).map Prod.snd = some x ↔ q s₀.handle = some (s₀, x) := by
  cases hq : q s₀.handle with
  | none => simp
  | some y =>
    obtain rfl : y.1 = s₀ := hsame y (by simp [hq])
    simp [Prod.ext_iff]

include h he hsame hp

theorem Tells.evidence_step (s : Session) (p : Stage)
    (hs : q.put s₀ p' s.handle = some (s, p)) : p.Evidence s (t ++ [e]) := by
  have hevidence : p'.Evidence s₀ (t ++ [e]) :=
    Session.advance_evidence he
      (fun x hx => h.evidence s₀ x ((stage_eq_some_iff hsame x).1 hx)) hp
  rcases eq_or_ne s.handle s₀.handle with heq | hne
  · rw [heq, put_self, Option.some.injEq, Prod.mk.injEq] at hs
    obtain ⟨rfl, rfl⟩ := hs
    exact hevidence
  · rw [put_of_ne hne] at hs
    exact (h.evidence s p hs).append [e]

theorem Tells.balance_step (s : Session) : wrote s (t ++ [e]) = reads s (t ++ [e]) +
    if q.put s₀ p' s.handle = some (s, .awaiting) then 1 else 0 := by
  rw [wrote_append_singleton, reads_append_singleton, h.balance s]
  rcases eq_or_ne s s₀ with rfl | hne
  · have hbalance := Session.advance_balance he hp
    rw [put_self]
    simp only [stage_eq_some_iff hsame, Option.some.injEq, Prod.mk.injEq, true_and] at hbalance ⊢
    omega
  · have hother : e.session? ≠ some s := fun hs => hne (Option.some.inj (hs.symm.trans he))
    rw [Event.isWrote_eq_false hother, Event.isRead_eq_false hother]
    rcases eq_or_ne s.handle s₀.handle with heq | hhandle
    · -- the handle belongs to another session
      have hbefore : q s.handle ≠ some (s, .awaiting) := by
        intro hs
        rw [heq] at hs
        exact hne (hsame (s, .awaiting) hs)
      have hafter : (q.put s₀ p') s.handle ≠ some (s, .awaiting) := by
        rw [heq, put_self]
        simp [hne.symm]
      simp [hbefore, hafter]
    · rw [put_of_ne hhandle]
      simp

theorem Tells.step_some : Tells (t ++ [e]) (q.put s₀ p') := by
  refine ⟨h.evidence_step he hsame hp, fun e' he' s hs => ?_, h.balance_step he hsame hp⟩
  rcases List.mem_append.1 he' with he' | he'
  · obtain ⟨p, hq⟩ := h.seen e' he' s hs
    rcases eq_or_ne s.handle s₀.handle with heq | hne
    · -- the handle still belongs to the same session
      obtain rfl : s = s₀ := hsame (s, p) (heq ▸ hq)
      exact ⟨p', put_self⟩
    · exact ⟨p, by rw [put_of_ne hne, hq]⟩
  · rw [List.mem_singleton.1 he', he, Option.some.injEq] at hs
    exact ⟨p', hs ▸ put_self⟩

end StepSome

/-- **What one event tells.** -/
theorem Tells.step {t : List Event} {q q' : Sessions} {e : Event} (h : Tells t q)
    (hstep : q.step e = some q') : Tells (t ++ [e]) q' := by
  rcases step_cases hstep with ⟨he, rfl⟩ | ⟨s₀, p', he, hsame, hp, rfl⟩
  · exact h.step_none he
  · exact h.step_some he hsame hp

theorem run_tells {t : List Event} {q : Sessions} (h : Lts.run Sessions.step init t = some q) :
    Tells t q :=
  Lts.run_history tells_init (fun _ _ _ _ htells hstep => htells.step hstep) h

end Sessions

/-- A program that leaves the sessions settled obeys, if it uses none that was there before. -/
theorem Obeys.of_guards {ν α : Type} {x : M ν α}
    (hx : x.Guards Sessions.Reads (Sessions.Settled ∅)) (w : World ν) : Obeys (x w).trace := by
  obtain ⟨q, hrun, hq⟩ := hx w Sessions.init (Sessions.Settled.init w)
  exact ⟨q, hrun, fun h s => hq.not_awaiting h⟩

theorem Obeys.moment {u v : List Event} (h : Obeys (u ++ v)) :
    ∃ q, Sessions.Tells u q ∧ ∃ q', Lts.run Sessions.step q v = some q' := by
  obtain ⟨q', hrun, -⟩ := h
  rw [Lts.run_append, Option.bind_eq_some_iff] at hrun
  obtain ⟨q, hq, hrest⟩ := hrun
  exact ⟨q, Sessions.run_tells hq, q', hrest⟩

theorem Obeys.unique {t : List Event} (h : Obeys t) {e e' : Event} (he : e ∈ t) (he' : e' ∈ t)
    {s s' : Session} (hs : e.session? = some s) (hs' : e'.session? = some s')
    (heq : s.handle = s'.handle) : s = s' := by
  obtain ⟨q, hrun, -⟩ := h
  have htells := Sessions.run_tells hrun
  obtain ⟨p, hp⟩ := htells.seen e he s hs
  obtain ⟨p', hp'⟩ := htells.seen e' he' s' hs'
  rw [heq, hp', Option.some.injEq, Prod.mk.injEq] at hp
  exact hp.1.symm

/-- **A run that keeps the protocol is disciplined.** -/
theorem Obeys.disciplined {t : List Event} (h : Obeys t) : Disciplined t where
  first u s r v ht e he hs := by
    subst ht
    obtain ⟨q, htells, q', hrun⟩ := h.moment
    obtain ⟨q₁, hstep, -⟩ := Lts.run_cons_eq_some.1 hrun
    rcases Sessions.step_cases hstep with ⟨hnone, -⟩ | ⟨s', p, hs', -, hp, -⟩
    · cases hnone
    · obtain rfl : s = s' := Option.some.inj hs'
      have hfresh : (q s.handle).map Prod.snd = none := Session.advance_resolve hp
      obtain ⟨p, hp⟩ := htells.seen e he s hs
      rw [hp] at hfresh
      cases hfresh
  established u s req a v ht := by
    subst ht
    obtain ⟨q, htells, q', hrun⟩ := h.moment
    obtain ⟨q₁, hstep, -⟩ := Lts.run_cons_eq_some.1 hrun
    rcases Sessions.step_cases hstep with ⟨hnone, -⟩ | ⟨s', p, hs', hsame, hp, -⟩
    · cases hnone
    · obtain rfl : s = s' := Option.some.inj hs'
      obtain ⟨⟨s₁, x⟩, hx, hready⟩ := Option.map_eq_some_iff.1 (Session.advance_write hp)
      obtain rfl : s₁ = s := hsame (s₁, x) hx
      obtain rfl : x = .ready := hready
      exact htells.evidence s₁ _ hx
  turns u v s ht := by
    subst ht
    obtain ⟨q, htells, -⟩ := h.moment
    have hbalance := htells.balance s
    split_ifs at hbalance <;> omega
  answered s := by
    obtain ⟨q, hrun, hq⟩ := h
    have hbalance := (Sessions.run_tells hrun).balance s
    rw [if_neg (hq s.handle s), Nat.add_zero] at hbalance
    exact hbalance.symm

end MileRpc
