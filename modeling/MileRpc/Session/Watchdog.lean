import MileRpc.Core.World
import MileRpc.Lts.Basic

/-!
# The deadline watchdog of a session

`connect`, `write` and `read` of a session set its `deadline_timer`, start an asynchronous
operation and run the `io_context`, one handler at a time, until the operation has reported its
error code.  `prepare` has put one wait on the timer; its handler `wait_deadline` closes the socket
if the timer has expired, and waits again.  Setting the timer cancels the wait that is pending,
whose handler is then queued and runs like any other.

`Session.step` is one step of this system: the clock, the program and the `io_context`, whose
handlers are dispatched in any order.

## Main definitions

* `Timer` : Asio's timer, with the waits that are pending and those queued for dispatch
* `Session.Loop`, `Session.Label`, `Session.step`
* `Session.construct` : the state after the constructor

## Main result

* `Session.watchdog` : one wait is always outstanding, the watchdog closes a socket only when the
  deadline of the operation under way has passed, and nothing succeeds afterwards until the next
  `connect`
-/

namespace MileRpc

/-! ### The timer -/

/-- A `boost::posix_time::ptime` as the timer uses it. -/
inductive Expiry where
  | notADateTime
  | at (t : ℤ)
  | posInfin
  deriving DecidableEq, Repr

namespace Expiry

/-- `now < e`; a comparison with `not_a_date_time` is false. -/
def isAfter (e : Expiry) (now : ℤ) : Bool :=
  match e with
  | .notADateTime => false
  | .at t => decide (now < t)
  | .posInfin => true

/-- `e <= now`, which `posix_time` computes as `!(now < e)`. -/
def isPast (e : Expiry) (now : ℤ) : Bool := !e.isAfter now

@[simp] theorem isPast_at (t now : ℤ) : (Expiry.at t).isPast now = decide (t ≤ now) := by
  simp only [isPast, isAfter, ← decide_not, not_lt]

@[simp] theorem isPast_posInfin (now : ℤ) : posInfin.isPast now = false := rfl

end Expiry

/-- A timer: when it expires, its pending waits, and the waits whose handlers are queued. -/
structure Timer where
  expiry : Expiry
  pending : ℕ
  queued : ℕ
  deriving DecidableEq, Repr

namespace Timer

/-- The waits whose handlers have still to run. -/
def outstanding (t : Timer) : ℕ := t.pending + t.queued

/-- `expires_at(e)`: the pending waits are cancelled, and their handlers queued. -/
def expiresAt (t : Timer) (e : Expiry) : Timer := ⟨e, 0, t.queued + t.pending⟩

/-- `async_wait(handler)` -/
def asyncWait (t : Timer) : Timer := { t with pending := t.pending + 1 }

/-- The timer expires: the handlers of its pending waits are queued. -/
def expire (t : Timer) (now : ℤ) : Option Timer :=
  if t.expiry.isPast now then some ⟨t.expiry, 0, t.queued + t.pending⟩ else none

/-- A queued handler is taken for dispatch. -/
def take (t : Timer) : Option Timer :=
  if 0 < t.queued then some { t with queued := t.queued - 1 } else none

@[simp] theorem outstanding_expiresAt (t : Timer) (e : Expiry) :
    (t.expiresAt e).outstanding = t.outstanding := by
  simp only [outstanding, expiresAt]
  omega

@[simp] theorem outstanding_asyncWait (t : Timer) :
    t.asyncWait.outstanding = t.outstanding + 1 := by
  simp only [outstanding, asyncWait]
  omega

theorem expire_eq_some {t t' : Timer} {now : ℤ} (h : t.expire now = some t') :
    t'.outstanding = t.outstanding ∧ t'.expiry = t.expiry := by
  simp only [expire, Option.ite_none_right_eq_some, Option.some.injEq] at h
  obtain ⟨-, rfl⟩ := h
  exact ⟨by simp only [outstanding]; omega, rfl⟩

theorem take_eq_some {t t' : Timer} (h : t.take = some t') :
    t'.outstanding + 1 = t.outstanding ∧ t'.expiry = t.expiry := by
  simp only [take, Option.ite_none_right_eq_some, Option.some.injEq] at h
  obtain ⟨hq, rfl⟩ := h
  exact ⟨by simp only [outstanding]; omega, rfl⟩

end Timer

/-! ### The session and its `io_context` -/

namespace Session

/-- The asynchronous operations of a session. -/
inductive Op where
  | connect
  | handshake
  | write
  | read
  deriving DecidableEq, Repr

/-- How far an operation is: under way, its completion handler queued, or its error code stored in
`ec`, which until then is `would_block`. -/
inductive Progress where
  | running
  | queued (ec : Option String)
  | stored (ec : Option String)
  deriving DecidableEq, Repr

/-- Where the program is: outside every operation, or in the loop around `run_one` of an operation
that has set the deadline `d`. -/
inductive Phase where
  | idle
  | waiting (op : Op) (d : ℤ) (p : Progress)
  deriving DecidableEq, Repr

/-- The clock, the timer, whether the socket is open, and where the program is. -/
structure Loop where
  now : ℤ
  deadline : Timer
  isOpen : Bool
  phase : Phase
  deriving DecidableEq, Repr

namespace Loop

/-- `check_socket` as the loops use it: what the operation under way leaves behind. -/
def io (l : Loop) (ec : Option String) : Io := ⟨ec, l.isOpen⟩

/-- `wait_deadline()` -/
def waitDeadline (l : Loop) : Loop :=
  if l.deadline.expiry.isPast l.now then
    { l with isOpen := false, deadline := (l.deadline.expiresAt .posInfin).asyncWait }
  else { l with deadline := l.deadline.asyncWait }

/-- `deadline.expires_from_now(tm)` -/
def expiresFromNow (l : Loop) (tm : ℤ) : Loop :=
  { l with deadline := l.deadline.expiresAt (.at (l.now + tm)) }

/-- Set the deadline and start an operation; if starting it throws, the program leaves the
operation at once. -/
def start (l : Loop) (tm : ℤ) (op : Op) (started : Bool) : Loop :=
  { l.expiresFromNow tm with
    phase := if started then .waiting op (l.now + tm) .running else .idle }

/-- The `io_context` has work: a wait, or an operation whose handler has not run. -/
def hasWork (l : Loop) : Bool :=
  decide (0 < l.deadline.outstanding) ||
    match l.phase with
    | .waiting _ _ .running => true
    | .waiting _ _ (.queued _) => true
    | _ => false

end Loop

/-- `boost::posix_time::seconds(timeout)`, in the microseconds of the clock. -/
def tm (s : Session) : ℤ := s.timeout * 1000000

/-- How `connect` gets to its first loop: the host is not resolved, the timer is set but nothing is
started, or the socket, which may be open, is being connected. -/
inductive Connecting where
  | unresolved
  | abandoned
  | started (isOpen : Bool)
  deriving DecidableEq, Repr

/-- The steps. -/
inductive Label where
  /-- the clock reads `now` -/
  | tick (now : ℤ)
  /-- `connect` is called -/
  | connect (c : Connecting)
  /-- `connect` goes on to the TLS handshake -/
  | handshake (started : Bool)
  /-- `write` is called -/
  | write (started : Bool)
  /-- `read` is called -/
  | read (started : Bool)
  /-- `async_connect` closes the socket and opens it for the next endpoint -/
  | endpoint (isOpen : Bool)
  /-- the operation under way ends; its handler is queued -/
  | complete (ec : Option String)
  /-- the timer expires -/
  | expire
  /-- `run_one` dispatches the handler of the operation -/
  | dispatch
  /-- `run_one` dispatches a handler of the timer: `wait_deadline` -/
  | deadline
  /-- the call ends with the value `b` -/
  | returned (op : Op) (b : Bool)
  deriving DecidableEq, Repr

/-- The label is a call of `connect`. -/
def Label.IsConnect (l : Label) : Prop := ∃ c, l = .connect c

/-- The state after the constructor, which ends with `prepare`: a timer that was never set, no
socket open, and the first call of `wait_deadline`. -/
def construct (now : ℤ) : Loop :=
  Loop.waitDeadline ⟨now, ⟨.notADateTime, 0, 0⟩, false, .idle⟩

/-- One step of the program, the network, the clock or the `io_context`. -/
def step (s : Session) (l : Loop) : Label → Option Loop
  | .tick now => some { l with now := now }
  | .connect c =>
    match l.phase, c with
    | .idle, .unresolved => some l
    | .idle, .abandoned => some (l.start s.tm .connect false)
    | .idle, .started isOpen => some { l.start s.tm .connect true with isOpen := isOpen }
    | _, _ => none
  | .handshake started =>
    match l.phase with
    | .waiting .connect _ (.stored ec) =>
      if s.useSsl && !(l.io ec).failed then some (l.start s.tm .handshake started) else none
    | _ => none
  | .write started =>
    match l.phase with
    | .idle => some (l.start s.tm .write started)
    | _ => none
  | .read started =>
    match l.phase with
    | .idle => some (l.start s.tm .read started)
    | _ => none
  | .endpoint isOpen =>
    match l.phase with
    -- once the socket is closed, `async_connect` ends with `operation_aborted`
    | .waiting .connect _ .running => if l.isOpen then some { l with isOpen := isOpen } else none
    | _ => none
  | .complete ec =>
    match l.phase with
    | .waiting op d .running => some { l with phase := .waiting op d (.queued ec) }
    | _ => none
  | .expire => (l.deadline.expire l.now).map fun t => { l with deadline := t }
  | .dispatch =>
    match l.phase with
    | .waiting op d (.queued ec) => some { l with phase := .waiting op d (.stored ec) }
    | _ => none
  | .deadline =>
    match l.phase with
    -- the loop has ended, and nothing runs the `io_context` until the next operation
    | .idle | .waiting _ _ (.stored _) => none
    | _ => l.deadline.take.map fun t => { l with deadline := t }.waitDeadline
  | .returned op b =>
    match l.phase with
    | .waiting op' _ (.stored ec) =>
      if op' = op ∧ b = !(l.io ec).failed ∧ ¬ (op = .connect ∧ s.useSsl ∧ b) then
        some { l with phase := .idle }
      else none
    | _ => none

/-- The states of a session. -/
def Reachable (s : Session) (l : Loop) : Prop :=
  Lts.Reachable s.step (fun l => ∃ now, l = construct now) l

/-! ### What a step does -/

namespace Loop

@[simp] theorem outstanding_expiresFromNow (l : Loop) (tm : ℤ) :
    (l.expiresFromNow tm).deadline.outstanding = l.deadline.outstanding := by
  simp [expiresFromNow]

theorem outstanding_waitDeadline (l : Loop) :
    l.waitDeadline.deadline.outstanding = l.deadline.outstanding + 1 := by
  unfold waitDeadline
  split <;> simp

theorem phase_waitDeadline (l : Loop) : l.waitDeadline.phase = l.phase := by
  unfold waitDeadline
  split <;> rfl

theorem expiry_waitDeadline (l : Loop) :
    l.waitDeadline.deadline.expiry = l.deadline.expiry ∨
      l.waitDeadline.deadline.expiry = .posInfin := by
  unfold waitDeadline
  split
  · exact .inr rfl
  · exact .inl rfl

/-- `wait_deadline` never opens a socket, and closes it only if the timer has expired. -/
theorem isOpen_waitDeadline (l : Loop) :
    l.waitDeadline.isOpen = (l.isOpen && !l.deadline.expiry.isPast l.now) := by
  unfold waitDeadline
  split <;> simp_all

end Loop

/-- The invariant: one wait is outstanding, and in the loop of an operation the timer is set to
the operation's deadline, or that deadline has been noticed. -/
structure Watched (l : Loop) : Prop where
  outstanding : l.deadline.outstanding = 1
  armed : ∀ op d p, l.phase = .waiting op d p →
    l.deadline.expiry = .at d ∨ l.deadline.expiry = .posInfin

theorem watched_construct (now : ℤ) : Watched (construct now) where
  outstanding := by rw [construct, Loop.outstanding_waitDeadline]; rfl
  armed op d p h := by simp [construct, Loop.phase_waitDeadline] at h

namespace Watched

variable {s : Session} {l : Loop}

/-- Starting an operation keeps the invariant: the wait that was pending is now queued. -/
theorem start (h : Watched l) (tm : ℤ) (op : Op) (started : Bool) :
    Watched (l.start tm op started) where
  outstanding := by
    have := h.outstanding
    simpa [Loop.start] using this
  armed op' d p hp := by
    left
    cases started with
    | false => simp [Loop.start] at hp
    | true =>
      obtain ⟨-, rfl, -⟩ : op = op' ∧ l.now + tm = d ∧ Progress.running = p := by
        simpa [Loop.start] using hp
      rfl

theorem congr {l' : Loop} (h : Watched l) (ho : l'.deadline.outstanding = l.deadline.outstanding)
    (he : l'.deadline.expiry = l.deadline.expiry)
    (hp : ∀ op d p, l'.phase = .waiting op d p → ∃ p', l.phase = .waiting op d p') :
    Watched l' where
  outstanding := by rw [ho, h.outstanding]
  armed op d p hw := by
    obtain ⟨p', hw⟩ := hp op d p hw
    rw [he]
    exact h.armed op d p' hw

/-- `wait_deadline`, run from the queue, puts back the wait that was taken. -/
theorem waitDeadline (h : Watched l) {t : Timer} (ht : l.deadline.take = some t) :
    Watched { l with deadline := t }.waitDeadline where
  outstanding := by
    obtain ⟨hout, -⟩ := Timer.take_eq_some ht
    have := h.outstanding
    rw [Loop.outstanding_waitDeadline]
    show t.outstanding + 1 = 1
    omega
  armed op d p hp := by
    obtain ⟨-, hexp⟩ := Timer.take_eq_some ht
    rw [Loop.phase_waitDeadline] at hp
    rcases Loop.expiry_waitDeadline { l with deadline := t } with he | he
    · rw [he]
      show t.expiry = _ ∨ t.expiry = _
      rw [hexp]
      exact h.armed op d p hp
    · exact .inr he

end Watched

section Steps

variable {s : Session} {l l' : Loop}

theorem step_deadline (h : s.step l .deadline = some l') :
    ∃ op d p t, l.phase = .waiting op d p ∧ l.deadline.take = some t ∧
      l' = { l with deadline := t }.waitDeadline := by
  simp only [step] at h
  split at h
  · cases h
  · cases h
  · obtain ⟨t, ht, rfl⟩ := Option.map_eq_some_iff.1 h
    cases hp : l.phase with
    | idle => simp_all
    | waiting op d p => exact ⟨op, d, p, t, rfl, ht, rfl⟩

/-- What a step does: it leaves the timer alone and opens no closed socket, it starts an operation,
`connect` starts one with its socket open or closed, or a handler of the timer runs. -/
inductive Stepped (s : Session) (l : Loop) : Label → Loop → Prop
  | quiet {a : Label} {l' : Loop} : l'.deadline.outstanding = l.deadline.outstanding →
      l'.deadline.expiry = l.deadline.expiry →
      (∀ op d p, l'.phase = .waiting op d p → ∃ p', l.phase = .waiting op d p') →
      (l.isOpen = false → l'.isOpen = false) →
      (∀ op b, a = .returned op b → l.isOpen = false → b = false) → Stepped s l a l'
  | start {a : Label} (op : Op) (started : Bool) : (∀ op b, a ≠ .returned op b) →
      Stepped s l a (l.start s.tm op started)
  | connect (isOpen : Bool) : Stepped s l (.connect (.started isOpen))
      { l.start s.tm .connect true with isOpen := isOpen }
  | deadline {t : Timer} : l.deadline.take = some t →
      Stepped s l .deadline { l with deadline := t }.waitDeadline

theorem step_stepped {a : Label} (h : s.step l a = some l') : Stepped s l a l' := by
  cases a with
  | tick now =>
    obtain rfl : _ = l' := by simpa [step] using h
    exact .quiet rfl rfl (fun op d p hp => ⟨p, hp⟩) id (by simp)
  | connect c =>
    simp only [step] at h
    split at h <;> cases h
    · exact .quiet rfl rfl (fun op d p hp => ⟨p, hp⟩) id (by simp)
    · exact .start _ _ (by simp)
    · exact .connect _
  | handshake started =>
    simp only [step] at h
    split at h
    · split at h <;> cases h
      exact .start _ _ (by simp)
    · cases h
  | write started =>
    simp only [step] at h
    split at h <;> cases h
    exact .start _ _ (by simp)
  | read started =>
    simp only [step] at h
    split at h <;> cases h
    exact .start _ _ (by simp)
  | endpoint isOpen =>
    simp only [step] at h
    split at h
    · split at h <;> cases h
      next ho =>
      -- `async_connect` goes on only with an open socket
      exact .quiet rfl rfl (fun op d p hp => ⟨p, hp⟩) (fun hc => by simp [hc] at ho) (by simp)
    · cases h
  | complete ec =>
    simp only [step] at h
    split at h <;> cases h
    next op d hp =>
    refine .quiet rfl rfl (fun op' d' p' hp' => ⟨.running, ?_⟩) id (by simp)
    obtain ⟨rfl, rfl, -⟩ := by simpa using hp'
    exact hp
  | expire =>
    obtain ⟨t, ht, rfl⟩ := Option.map_eq_some_iff.1 h
    obtain ⟨hout, hexp⟩ := Timer.expire_eq_some ht
    exact .quiet hout hexp (fun op d p hp => ⟨p, hp⟩) id (by simp)
  | dispatch =>
    simp only [step] at h
    split at h <;> cases h
    next op d ec hp =>
    refine .quiet rfl rfl (fun op' d' p' hp' => ⟨.queued ec, ?_⟩) id (by simp)
    obtain ⟨rfl, rfl, -⟩ := by simpa using hp'
    exact hp
  | deadline =>
    obtain ⟨-, -, -, t, -, ht, rfl⟩ := step_deadline h
    exact .deadline ht
  | returned op b =>
    simp only [step] at h
    split at h
    · split at h <;> cases h
      next hc =>
      refine .quiet rfl rfl (fun op d p hp => by simp at hp) id fun op' b' hb ho => ?_
      obtain ⟨-, rfl⟩ : op = op' ∧ b = b' := by simpa using hb
      -- `check_socket` is false
      have hf : ∀ ec, (l.io ec).failed = true := fun ec => by simp [Loop.io, Io.failed, ho]
      simpa [hf] using hc.2.1
    · cases h

theorem step_watched {a : Label} (hl : Watched l) (h : s.step l a = some l') : Watched l' := by
  cases step_stepped h with
  | quiet hout hexp hphase => exact hl.congr hout hexp hphase
  | start op started => exact hl.start s.tm op started
  | connect isOpen =>
    exact (hl.start s.tm .connect true).congr rfl rfl fun op d p hp => ⟨p, hp⟩
  | deadline ht => exact hl.waitDeadline ht

/-- While the socket is closed only `connect` opens it, and no operation returns true. -/
theorem step_closed {a : Label} (hl : l.isOpen = false) (ha : ¬ a.IsConnect)
    (h : s.step l a = some l') :
    l'.isOpen = false ∧ ∀ op b, a = .returned op b → b = false := by
  cases step_stepped h with
  | quiet _ _ _ hopen hret => exact ⟨hopen hl, fun op b hb => hret op b hb hl⟩
  | start op started hne => exact ⟨hl, fun op b hb => absurd hb (hne op b)⟩
  | connect isOpen => exact absurd ⟨_, rfl⟩ ha
  | @deadline t ht =>
    refine ⟨?_, by simp⟩
    rw [Loop.isOpen_waitDeadline]
    simp [hl]

end Steps

theorem Reachable.watched {s : Session} {l : Loop} (h : s.Reachable l) : Watched l := by
  refine Lts.Reachable.invariant ?_ (fun l a l' hl hstep => step_watched hl hstep) h
  rintro l ⟨now, rfl⟩
  exact watched_construct now

/-- After the socket is closed, every value returned before the next `connect` is false. -/
theorem returned_closed {s : Session} {l l' : Loop} {as : List Label} (hl : l.isOpen = false)
    (h : Lts.run s.step l as = some l') (hc : ∀ a ∈ as, ¬ a.IsConnect) :
    ∀ op b, .returned op b ∈ as → b = false := by
  have hrun := Lts.run_labels (C := fun l => l.isOpen = false)
    (P := fun a => ∀ op b, a = .returned op b → b = false)
    (fun l a l' hl ha hstep => step_closed hl ha hstep) hl h hc
  exact fun op b hmem => hrun _ hmem op b rfl

/-- **The deadline watchdog**, over every run of a session.  One wait on the timer is outstanding,
so that `run_one` always has work.  A handler of the timer that closes an open socket runs in the
loop of an operation whose own deadline has passed.  From a handler that finds the timer expired
until the next `connect`, every operation returns false. -/
theorem watchdog (s : Session) (l : Loop) (h : s.Reachable l) :
    (l.deadline.outstanding = 1 ∧ l.hasWork) ∧
      ∀ l', s.step l .deadline = some l' →
        (l.isOpen = true → l'.isOpen = false →
          ∃ op d p, l.phase = .waiting op d p ∧ l.deadline.expiry = .at d ∧ d ≤ l.now) ∧
        (l.deadline.expiry.isPast l.now → l'.isOpen = false ∧
          ∀ as l'', Lts.run s.step l' as = some l'' → (∀ a ∈ as, ¬ a.IsConnect) →
            ∀ op b, .returned op b ∈ as → b = false) := by
  have hw := h.watched
  refine ⟨⟨hw.outstanding, by simp [Loop.hasWork, hw.outstanding]⟩, fun l' hstep => ?_⟩
  obtain ⟨op, d, p, t, hphase, ht, rfl⟩ := step_deadline hstep
  obtain ⟨-, hexp⟩ := Timer.take_eq_some ht
  have hopen := Loop.isOpen_waitDeadline { l with deadline := t }
  simp only [hexp] at hopen
  refine ⟨fun ho hc => ⟨op, d, p, hphase, ?_⟩, fun hpast => ?_⟩
  · have hpast : l.deadline.expiry.isPast l.now = true := by
      rw [hc, ho, Bool.true_and] at hopen
      simpa using hopen
    -- a deadline that was noticed before never expires again
    rcases hw.armed op d p hphase with he | he
    · exact ⟨he, by simpa [he] using hpast⟩
    · simp [he] at hpast
  · have hclosed : ({ l with deadline := t } : Loop).waitDeadline.isOpen = false := by
      simpa [hpast] using hopen
    exact ⟨hclosed, fun as l'' hrun hc => returned_closed hclosed hrun hc⟩

/-- A read that waits for longer than its three seconds. -/
def lateRead : List Label :=
  [.connect (.started true), .complete none, .dispatch, .returned .connect true, .read true,
    .deadline, .tick 4000000, .expire]

theorem watchdog_lateRead :
    ∃ l l', Lts.run sample.step (construct 0) lateRead = some l ∧
      sample.step l .deadline = some l' ∧ l.isOpen = true ∧ l'.isOpen = false ∧
      (l.deadline.outstanding = 1 ∧ l.hasWork) ∧
      (∃ op d p, l.phase = .waiting op d p ∧ l.deadline.expiry = .at d ∧ d ≤ l.now) ∧
      ∀ as l'', Lts.run sample.step l' as = some l'' → (∀ a ∈ as, ¬ a.IsConnect) →
        ∀ op b, .returned op b ∈ as → b = false := by
  let l : Loop := ⟨4000000, ⟨.at 3000000, 0, 1⟩, true, .waiting .read 3000000 .running⟩
  let l' : Loop := ⟨4000000, ⟨.posInfin, 1, 0⟩, false, .waiting .read 3000000 .running⟩
  have hrun : Lts.run sample.step (construct 0) lateRead = some l := by decide
  have hstep : sample.step l .deadline = some l' := by decide
  have hw := watchdog sample l ⟨construct 0, lateRead, ⟨0, rfl⟩, hrun⟩
  obtain ⟨hcloses, hstays⟩ := hw.2 l' hstep
  exact ⟨l, l', hrun, hstep, rfl, rfl, hw.1, hcloses rfl rfl, (hstays (by decide)).2⟩

end Session

end MileRpc
