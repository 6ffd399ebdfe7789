import MileRpc.Session.Protocol
import MileRpc.Session.Watchdog

/-!
# The loops under the operations of a session

The operations of a session wait in a loop around `run_one`, which `Session.step` models with its
clock, timer and socket; the programs know of a loop only what it leaves behind, an `Io` that the
outside has chosen.  Here the outside is one that runs these loops (`Env.RunsLoops`): it knows the
clock, the timer and the socket of every session, and an operation of a program moves them as a run
of `Session.step` does.

`LoopsRead` is the monitor of such a run: it reads the events of a program when there is, for each
session, a run of `Session.step` that starts the same operations and returns the same values.

## Main definitions

* `Session.Finishes` : the loop of one operation
* `Env.RunsLoops` : the outside that runs the loops
* `Session.Traced` : the run of one session's loop along the events of a program

## Main results

* `Session.Traced.run` : its labels show what the events show
* `Session.connect_guards`, `asyncWrite_guards`, `asyncRead_guards` : the operations of a session
  are such runs
* `Session.scheduled_runsLoops` : a schedule gives such an outside
-/

namespace MileRpc

namespace Session

/-! ### What a run shows -/

/-- What can be seen of a session: an operation is started, or cannot be, or returns a value. -/
inductive Shown where
  | starts (op : Op) (started : Bool)
  | returns (op : Op) (b : Bool)
  deriving DecidableEq, Repr

/-- What a label shows; the steps of the clock, the network and the `io_context` show nothing. -/
def Label.shown : Label → Option Shown
  | .connect (.started _) => some (.starts .connect true)
  | .connect _ => some (.starts .connect false)
  | .handshake started => some (.starts .handshake started)
  | .write started => some (.starts .write started)
  | .read started => some (.starts .read started)
  | .returned op b => some (.returns op b)
  | _ => none

end Session

open Session

/-- The end of a loop, as the events show it. -/
def shownLoop (op : Op) : Except Exn Io → List Shown
  | .ok io => [.starts op true, .returns op (!io.failed)]
  | .error _ => [.starts op false]

/-- What an event shows of its session.  The first loop of a TLS connect returns nothing if it has
been successful. -/
def Event.shows : Event → List Shown
  | .resolve _ (.ok n) => if n = 0 then [.starts .connect false] else []
  | .resolve _ (.error _) => [.starts .connect false]
  | .hostName _ (.ok true) => []
  | .hostName _ _ => [.starts .connect false]
  | .tcpConnect s (.ok io) =>
    if s.useSsl = true ∧ io.failed = false then [.starts .connect true]
    else [.starts .connect true, .returns .connect (!io.failed)]
  | .tcpConnect _ (.error _) => [.starts .connect false]
  | .startHandshake _ r => [.starts .handshake r.isOk]
  | .handshake s (.ok h) => [.returns .handshake (!(s.handshakeIo h).failed)]
  | .write _ _ a => shownLoop .write a.result
  | .read _ a => shownLoop .read a.result
  | _ => []

/-- What an event shows of the session `s`. -/
def Event.shown (s : Session) (e : Event) : List Shown :=
  if e.session? = some s then e.shows else []

/-- Whether the socket is open after an operation. -/
def Event.leaves : Event → Option Bool
  | .tcpConnect _ (.ok io) => some io.isOpen
  | .handshake s (.ok h) => some (s.handshakeIo h).isOpen
  | .write _ _ ⟨.ok io, _⟩ => some io.isOpen
  | .read _ ⟨.ok io, _⟩ => some io.isOpen
  | _ => none

namespace Session

variable {s : Session} {l l' l₁ : Loop} {op : Op} {io : Io}

/-! ### The loop of an operation -/

/-- The loop when the program is outside of it. -/
def Loop.left (l : Loop) : Loop := { l with phase := .idle }

/-- Time passes. -/
def Loop.Drifts (l l' : Loop) : Prop := ∃ now, l' = { l with now := now }

theorem Loop.Drifts.refl (l : Loop) : l.Drifts l := ⟨l.now, rfl⟩

/-- The loop of `op`, which is under way in `l`: it ends when the error code is stored, and leaves
`io` behind. -/
def Finishes (s : Session) (op : Op) (l : Loop) (io : Io) (l' : Loop) : Prop :=
  ∃ as d ec l₁, (∀ a ∈ as, a.shown = none) ∧ Lts.run s.step l as = some l₁ ∧
    l₁.phase = .waiting op d (.stored ec) ∧ io = l₁.io ec ∧ l' = l₁.left

/-- One step of a session's loop for an event: labels that show what the event shows. -/
def Steps (s : Session) (l : Loop) (shown : List Shown) (l' : Loop) : Prop :=
  ∃ as, Lts.run s.step l as = some l' ∧ as.filterMap Label.shown = shown

/-- The TLS connect is between its loops. -/
def Stored (l : Loop) : Prop :=
  l.isOpen = true ∧ ∃ d, l.phase = .waiting .connect d (.stored none)

/-- The handshake of a TLS connect has been started. -/
def Shaking (l : Loop) : Prop :=
  ∃ d, l.deadline.expiry = .at d ∧ l.phase = .waiting .handshake d .running

namespace Steps

theorem append {t u : List Shown} (ht : s.Steps l t l₁) (hu : s.Steps l₁ u l') :
    s.Steps l (t ++ u) l' := by
  obtain ⟨as, has, hshown⟩ := ht
  obtain ⟨bs, hbs, hshown'⟩ := hu
  refine ⟨as ++ bs, ?_, by rw [List.filterMap_append, hshown, hshown']⟩
  rw [Lts.run_append, has]
  exact hbs

theorem single {a : Label} {t : List Shown} (h : s.step l a = some l')
    (ht : [a].filterMap Label.shown = t) : s.Steps l t l' :=
  ⟨[a], by simp [Lts.run, h], ht⟩

theorem refl (l : Loop) : s.Steps l [] l := ⟨[], rfl, rfl⟩

theorem drift (h : l.Drifts l') : s.Steps l [] l' := by
  obtain ⟨now, rfl⟩ := h
  exact single (a := .tick now) rfl rfl

end Steps

theorem Finishes.loop (h : s.Finishes op l io l') :
    ∃ l₁ d ec, s.Steps l [] l₁ ∧ l₁.phase = .waiting op d (.stored ec) ∧ io = l₁.io ec ∧
      l' = l₁.left := by
  obtain ⟨as, d, ec, l₁, hinner, hrun, hphase, hio, hleft⟩ := h
  exact ⟨l₁, d, ec, ⟨as, hrun, List.filterMap_eq_nil_iff.2 hinner⟩, hphase, hio, hleft⟩

theorem Finishes.returns (h : s.Finishes op l io l')
    (hmore : ¬ (op = .connect ∧ s.useSsl = true ∧ io.failed = false)) :
    s.Steps l [.returns op (!io.failed)] l' ∧ l'.isOpen = io.isOpen := by
  obtain ⟨l₁, d, ec, hloop, hphase, rfl, rfl⟩ := h.loop
  have hreturned : s.step l₁ (.returned op (!(l₁.io ec).failed)) = some l₁.left := by
    have hlast : ¬ (op = .connect ∧ s.useSsl = true ∧ (!(l₁.io ec).failed) = true) := by
      simpa using hmore
    simp only [step, hphase]
    rw [if_pos ⟨trivial, trivial, hlast⟩]
    rfl
  exact ⟨hloop.append (.single hreturned rfl), rfl⟩

/-- The first loop of a TLS connect ends, and the connect goes on. -/
theorem Finishes.stored (h : s.Finishes .connect l io l') (hio : io.failed = false) :
    ∃ l₁, s.Steps l [] l₁ ∧ l₁.left = l' ∧ Stored l₁ := by
  obtain ⟨l₁, d, ec, hloop, hphase, rfl, rfl⟩ := h.loop
  have hsuccess := Io.failed_eq_false.1 hio
  rw [Loop.io, Io.success, Io.mk.injEq] at hsuccess
  obtain ⟨rfl, hopen⟩ := hsuccess
  exact ⟨l₁, hloop, rfl, hopen, d, hphase⟩

/-- The end of the first loop of a connect. -/
theorem Finishes.connects (h : s.Finishes .connect l io l') :
    (s.useSsl = true ∧ io.failed = false ∧ ∃ l₁, s.Steps l [] l₁ ∧ l₁.left = l' ∧ Stored l₁) ∨
      (¬ (s.useSsl = true ∧ io.failed = false) ∧
        s.Steps l [.returns .connect (!io.failed)] l' ∧ l'.isOpen = io.isOpen) := by
  by_cases hmore : s.useSsl = true ∧ io.failed = false
  · exact .inl ⟨hmore.1, hmore.2, h.stored hmore.2⟩
  · exact .inr ⟨hmore, h.returns fun hc => hmore hc.2⟩

end Session

/-! ### The outside that runs the loops -/

/-- An operation of `s` takes the outside from `n` to `n'`: after some time the loop of `s` moves as
`R` says, and the others only see the time pass. -/
def Moves {ν : Type} (loops : ν → ℕ → Loop) (s : Session) (n n' : ν) (R : Loop → Loop → Prop) :
    Prop :=
  (∀ h, h ≠ s.handle → (loops n h).Drifts (loops n' h)) ∧
    ∃ l, (loops n s.handle).Drifts l ∧ R l (loops n' s.handle)

/-- The outside runs the loops of the sessions, which it knows by their handles: their clocks,
timers and sockets.  Where a program is in an operation is not known to it. -/
structure Env.RunsLoops {ν : Type} (env : Env ν) (loops : ν → ℕ → Loop) : Prop where
  idle : ∀ n h, (loops n h).phase = .idle
  aside : ∀ n n', env.Aside n n' → ∀ h, (loops n h).Drifts (loops n' h)
  resolve : ∀ s n, Moves loops s n (env.resolve s n).2 Eq
  setTlsextHostName : ∀ s n, Moves loops s n (env.setTlsextHostName s n).2 fun l l' =>
    match (env.setTlsextHostName s n).1 with
    | .ok true => l = l'
    | _ => l.start s.tm .connect false = l'
  asyncConnect : ∀ s n, Moves loops s n (env.asyncConnect s n).2 fun l l' =>
    match (env.asyncConnect s n).1 with
    | .ok io => ∃ isOpen,
      s.Finishes .connect { l.start s.tm .connect true with isOpen := isOpen } io l'
    | .error _ => l.start s.tm .connect false = l'
  startHandshake : ∀ s n, Moves loops s n (env.startHandshake s n).2 fun l l' =>
    (l.start s.tm .handshake (env.startHandshake s n).1.isOk).left = l'
  handshake : ∀ s n, Moves loops s n (env.handshake s n).2 fun l l' =>
    ∃ h, (env.handshake s n).1 = .ok h ∧ ∀ d, l.deadline.expiry = .at d →
      s.Finishes .handshake { l with phase := .waiting .handshake d .running } (s.handshakeIo h) l'
  asyncWrite : ∀ s req n, Moves loops s n (env.asyncWrite s req n).2 fun l l' =>
    match (env.asyncWrite s req n).1.result with
    | .ok io => s.Finishes .write (l.start s.tm .write true) io l'
    | .error _ => l.start s.tm .write false = l'
  asyncRead : ∀ s n, Moves loops s n (env.asyncRead s n).2 fun l l' =>
    match (env.asyncRead s n).1.result with
    | .ok io => s.Finishes .read (l.start s.tm .read true) io l'
    | .error _ => l.start s.tm .read false = l'

/-! ### Runs of the loops along the events -/

/-- The loop of `s` goes from one state to another along the events of a program. -/
inductive Session.Traced (s : Session) : Loop → List Event → Loop → Prop
  | nil (l : Loop) : Traced s l [] l
  | drift {l l₁ l' : Loop} {t : List Event} : l.Drifts l₁ → Traced s l₁ t l' → Traced s l t l'
  | event {l l₁ l' : Loop} {e : Event} {t : List Event} : s.Steps l (e.shown s) l₁ →
      (e.session? = some s → ∀ b, e.leaves = some b → l₁.isOpen = b) →
      Traced s l₁ t l' → Traced s l (e :: t) l'

namespace Session.Traced

variable {s : Session} {l l₁ l' : Loop} {t u : List Event}

theorem append (ht : s.Traced l t l₁) (hu : s.Traced l₁ u l') : s.Traced l (t ++ u) l' := by
  induction ht with
  | nil _ => exact hu
  | drift h _ ih => exact .drift h (ih hu)
  | event h hopen _ ih => exact .event h hopen (ih hu)

/-- **The labels of a run show what its events show.** -/
theorem run (h : s.Traced l t l') : s.Steps l (t.flatMap (Event.shown s)) l' := by
  induction h with
  | nil l => exact .refl l
  | drift hd _ ih => exact (Steps.drift hd).append ih
  | event h _ _ ih => exact h.append ih

end Session.Traced

/-- The runs of all sessions along the events of a program, which must not use a handle for two
sessions. -/
def LoopsRead (g : ℕ → Loop) (t : List Event) (g' : ℕ → Loop) : Prop :=
  ∀ s : Session, (∀ e ∈ t, ∀ s', e.session? = some s' → s'.handle = s.handle → s' = s) →
    s.Traced (g s.handle) t (g' s.handle)

instance : Monitor LoopsRead where
  nil g s _ := .nil (g s.handle)
  append ht hu s hown :=
    (ht s fun e he => hown e (List.mem_append_left _ he)).append
      (hu s fun e he => hown e (List.mem_append_right _ he))

namespace LoopsRead

variable {g g' : ℕ → Loop} {e : Event} {s : Session}

theorem drift (h : ∀ n, (g n).Drifts (g' n)) : LoopsRead g [] g' :=
  fun s _ => .drift (h s.handle) (.nil _)

theorem quiet (he : e.session? = none) : LoopsRead g [e] g := by
  intro s _
  have hs : s.Steps (g s.handle) (e.shown s) (g s.handle) := by
    simpa [Event.shown, he] using Steps.refl (g s.handle)
  exact .event hs (by simp [he]) (.nil _)

theorem event (he : e.session? = some s) (hother : ∀ h, h ≠ s.handle → (g h).Drifts (g' h))
    (hs : s.Steps (g s.handle) e.shows (g' s.handle))
    (hopen : ∀ b, e.leaves = some b → (g' s.handle).isOpen = b) : LoopsRead g [e] g' := by
  intro s' hown
  by_cases hh : s.handle = s'.handle
  · obtain rfl : s = s' := hown e (List.mem_singleton_self e) s he hh
    have hshown : s.Steps (g s.handle) (e.shown s) (g' s.handle) := by
      simpa [Event.shown, he] using hs
    exact .event hshown (fun _ => hopen) (.nil _)
  · have hne : s ≠ s' := fun h => hh (congrArg Session.handle h)
    have hnone : e.session? ≠ some s' := by simpa [he] using hne
    have hshown : s'.Steps (g s'.handle) (e.shown s') (g' s'.handle) := by
      rw [Event.shown, if_neg hnone]
      exact .drift (hother s'.handle fun h => hh h.symm)
    exact .event hshown (fun h => absurd h hnone) (.nil _)

end LoopsRead

/-! ### The operations of a session -/

section Programs

variable {ν α β : Type} {env : Env ν} {loops : ν → ℕ → Loop} {s : Session} {error : ErrorHandler ν}

/-- The program is in no operation. -/
def Resting (loops : ν → ℕ → Loop) (w : World ν) (g : ℕ → Loop) : Prop := g = loops w.net

/-- The program is in an operation of `s`, or in none, as `P` says of the loop of `s`. -/
def Within (loops : ν → ℕ → Loop) (s : Session) (P : Loop → Prop) (w : World ν) (g : ℕ → Loop) :
    Prop :=
  (∀ h, h ≠ s.handle → g h = loops w.net h) ∧ (g s.handle).left = loops w.net s.handle ∧
    P (g s.handle)

/-- Outside of the operations. -/
def NoLoop (l : Loop) : Prop := l.phase = .idle

theorem NoLoop.left {l : Loop} (h : NoLoop l) : l.left = l := by
  rw [NoLoop] at h
  rw [Loop.left, ← h]

theorem within_idle (hloops : env.RunsLoops loops) {w : World ν} {g : ℕ → Loop} :
    Within loops s NoLoop w g ↔ Resting loops w g := by
  constructor
  · rintro ⟨hother, hleft, hidle⟩
    funext h
    by_cases hh : h = s.handle
    · rw [hh, ← hleft, hidle.left]
    · exact hother h hh
  · rintro rfl
    have hidle : NoLoop (loops w.net s.handle) := hloops.idle _ _
    exact ⟨fun _ _ => rfl, hidle.left, hidle⟩

/-- An operation takes the loop of `s` from `l` to one with `next`. -/
def Goes (loops : ν → ℕ → Loop) (s : Session) (l : Loop) (e : Event) (n : ν) (next : Loop → Prop) :
    Prop :=
  ∃ l', s.Steps l e.shows l' ∧ l'.left = loops n s.handle ∧ next l' ∧
    ∀ b, e.leaves = some b → l'.isOpen = b

theorem perform_loops {f : ν → α × ν} {e : α → Event} {k : α → M ν β} {P : Loop → Prop}
    {Q : α → Loop → Prop} {B : Outcome Exn Stop β → World ν → (ℕ → Loop) → Prop}
    {R : ν → Loop → Loop → Prop} (he : ∀ a, (e a).session? = some s)
    (hmoves : ∀ n, Moves loops s n (f n).2 (R n))
    (hgoes : ∀ n l, P l → R n l.left (loops (f n).2 s.handle) →
      Goes loops s l (e (f n).1) (f n).2 (Q (f n).1))
    (hP : ∀ l now, P l → P { l with now := now })
    (hk : ∀ a, (k a).Follows LoopsRead (Within loops s (Q a)) B) :
    (perform f e >>= k).Follows LoopsRead (Within loops s P) B := by
  rintro w g ⟨hother, hleft, hp⟩
  obtain ⟨hdrift, l, ⟨now, rfl⟩, hR⟩ := hmoves w.net
  rw [← hleft] at hR
  obtain ⟨l', hsteps, hleft', hQ, hopen⟩ := hgoes w.net { g s.handle with now := now }
    (hP _ _ hp) hR
  let g' : ℕ → Loop := Function.update (loops (f w.net).2) s.handle l'
  have hg' : g' s.handle = l' := Function.update_self ..
  have hg'' : ∀ h, h ≠ s.handle → g' h = loops (f w.net).2 h := fun h hh =>
    Function.update_of_ne hh ..
  rw [perform_bind_apply]
  refine Prog.Follows.prepend g' ?_ (hk (f w.net).1 _ g' ⟨hg'', ?_, ?_⟩)
  · refine LoopsRead.event (he _) (fun h hh => ?_) ?_ fun b hb => ?_
    · rw [hother h hh, hg'' h hh]
      exact hdrift h hh
    · rw [hg']
      exact (Steps.drift ⟨now, rfl⟩).append hsteps
    · rw [hg']
      exact hopen b hb
  · rw [hg']
    exact hleft'
  · rw [hg']
    exact hQ

section Goes

variable {l l₀ l' : Loop} {n : ν} {next : Loop → Prop} {e : Event}

theorem Goes.still {t : List Shown} (hsteps : s.Steps l t l') (ht : e.shows = t)
    (hleft : l'.left = loops n s.handle) (hnext : next l') (hopen : e.leaves = none) :
    Goes loops s l e n next :=
  ⟨l', ht ▸ hsteps, hleft, hnext, by simp [hopen]⟩

theorem Goes.returns {op : Op} {io : Io} {t : List Shown} (hstart : s.Steps l t l₀)
    (h : s.Finishes op l₀ io (loops n s.handle)) (hidle : NoLoop (loops n s.handle))
    (hmore : ¬ (op = .connect ∧ s.useSsl = true ∧ io.failed = false))
    (hshows : e.shows = t ++ [.returns op (!io.failed)]) (hleaves : e.leaves = some io.isOpen) :
    Goes loops s l e n NoLoop := by
  obtain ⟨hsteps, hopen⟩ := h.returns hmore
  refine ⟨loops n s.handle, ?_, hidle.left, hidle, fun b hb => ?_⟩
  · rw [hshows]
    exact hstart.append hsteps
  · rw [hleaves, Option.some.injEq] at hb
    rw [hopen, hb]

end Goes

/-- A connect that cannot go on has set the timer. -/
theorem abandoned_steps {l l' : Loop} (hl : NoLoop l) (h : l.left.start s.tm .connect false = l') :
    s.Steps l [.starts .connect false] l' := by
  rw [hl.left] at h
  exact .single (a := .connect .abandoned) (by simp [step, show l.phase = .idle from hl, h]) rfl

section Operations

variable {B : Outcome Exn Stop β → World ν → (ℕ → Loop) → Prop} (hloops : env.RunsLoops loops)
include hloops

theorem resolve_loops {k : Except Exn ℕ → M ν β}
    (hk : ∀ r, (k r).Follows LoopsRead (Within loops s NoLoop) B) :
    (perform (env.resolve s) (.resolve s) >>= k).Follows LoopsRead (Within loops s NoLoop) B := by
  refine perform_loops (fun _ => rfl) (hloops.resolve s) (fun n l hl heq => ?_)
    (fun _ _ h => h) hk
  have hstop : s.Steps l [.starts .connect false] l :=
    .single (a := .connect .unresolved) (by simp [step, show l.phase = .idle from hl]) rfl
  rcases hr : (env.resolve s n).1 with _ | _ | m
  · exact .still hstop rfl heq hl rfl
  · exact .still hstop rfl heq hl rfl
  · exact .still (.refl l) rfl heq hl rfl

theorem hostName_loops {k : Except Exn Bool → M ν β}
    (hk : ∀ r, (k r).Follows LoopsRead (Within loops s NoLoop) B) :
    (perform (env.setTlsextHostName s) (.hostName s) >>= k).Follows LoopsRead
      (Within loops s NoLoop) B := by
  refine perform_loops (fun _ => rfl) (hloops.setTlsextHostName s) (fun n l hl heq => ?_)
    (fun _ _ h => h) hk
  have hidle : NoLoop (loops (env.setTlsextHostName s n).2 s.handle) := hloops.idle _ _
  rcases hr : (env.setTlsextHostName s n).1 with _ | _ | _
  · rw [hr] at heq
    exact .still (abandoned_steps hl heq) rfl hidle.left hidle rfl
  · rw [hr] at heq
    exact .still (abandoned_steps hl heq) rfl hidle.left hidle rfl
  · rw [hr] at heq
    exact .still (.refl l) rfl heq hl rfl

/-- Where the program is after the first loop of a connect: between the two loops of a TLS connect,
or outside. -/
def AfterConnect (s : Session) (r : Except Exn Io) (l : Loop) : Prop :=
  match r with
  | .ok io => if s.useSsl = true ∧ io.failed = false then Stored l else NoLoop l
  | .error _ => NoLoop l

theorem tcpConnect_loops {k : Except Exn Io → M ν β}
    (hk : ∀ r, (k r).Follows LoopsRead (Within loops s (AfterConnect s r)) B) :
    (perform (env.asyncConnect s) (.tcpConnect s) >>= k).Follows LoopsRead
      (Within loops s NoLoop) B := by
  refine perform_loops (fun _ => rfl) (hloops.asyncConnect s) (fun n l hl heq => ?_)
    (fun _ _ h => h) hk
  have hidle : NoLoop (loops (env.asyncConnect s n).2 s.handle) := hloops.idle _ _
  rcases hr : (env.asyncConnect s n).1 with _ | io
  · rw [hr] at heq
    exact .still (abandoned_steps hl heq) rfl hidle.left hidle rfl
  · rw [hr] at heq
    obtain ⟨isOpen, hfinishes⟩ := heq
    rw [hl.left] at hfinishes
    have hstart : s.Steps l [.starts .connect true]
        { l.start s.tm .connect true with isOpen := isOpen } :=
      .single (a := .connect (.started isOpen)) (by simp [step, show l.phase = .idle from hl]) rfl
    rcases hfinishes.connects with ⟨hssl, hio, l₁, hsteps, hleft, hstored⟩ | ⟨hmore, -, -⟩
    · refine ⟨l₁, ?_, hleft, ?_, fun b hb => ?_⟩
      · rw [Event.shows, if_pos ⟨hssl, hio⟩]
        exact hstart.append hsteps
      · rw [AfterConnect, if_pos ⟨hssl, hio⟩]
        exact hstored
      · rw [Event.leaves, Io.failed_eq_false.1 hio] at hb
        rw [hstored.1, ← Option.some.inj hb, Io.success]
    · have hnext : AfterConnect s (.ok io) = NoLoop := by
        funext l
        rw [AfterConnect, if_neg hmore]
      rw [hnext]
      exact .returns hstart hfinishes hidle (fun h => hmore h.2)
        (by rw [Event.shows, if_neg hmore]; rfl) rfl

/-- A handshake is started between the two loops of a TLS connect. -/
theorem startHandshake_loops (hssl : s.useSsl = true) {k : Except Exn Unit → M ν β}
    (hk : ∀ r, (k r).Follows LoopsRead
      (Within loops s fun l => if r.isOk then Shaking l else NoLoop l) B) :
    (perform (env.startHandshake s) (.startHandshake s) >>= k).Follows LoopsRead
      (Within loops s Stored) B := by
  refine perform_loops (fun _ => rfl) (hloops.startHandshake s) (fun n l hl heq => ?_)
    (fun _ _ h => h) hk
  obtain ⟨hopen, d, hphase⟩ := hl
  generalize (env.startHandshake s n).1 = r at heq ⊢
  have hstart : s.Steps l [.starts .handshake r.isOk] (l.start s.tm .handshake r.isOk) :=
    .single (a := .handshake r.isOk)
      (by simp [step, hphase, hssl, Loop.io, Io.failed, hopen]) rfl
  refine .still hstart rfl heq ?_ rfl
  cases r with
  | ok _ => exact ⟨_, rfl, rfl⟩
  | error _ => rfl

theorem handshake_loops {k : Except Exn Handshake → M ν β}
    (hk : ∀ r, (k r).Follows LoopsRead (Within loops s NoLoop) B) :
    (perform (env.handshake s) (.handshake s) >>= k).Follows LoopsRead
      (Within loops s Shaking) B := by
  refine perform_loops (fun _ => rfl) (hloops.handshake s) (fun n l hl heq => ?_)
    (fun _ _ h => h) hk
  obtain ⟨d, hexpiry, hphase⟩ := hl
  obtain ⟨h, hr, hfinishes⟩ := heq
  have hl : ({ l.left with phase := .waiting .handshake d .running } : Loop) = l := by
    rw [Loop.left, ← hphase]
  have hloop := hfinishes d hexpiry
  rw [hl] at hloop
  rw [hr]
  exact .returns (.refl l) hloop (hloops.idle _ _) (fun h => by cases h.1) rfl rfl

end Operations

theorem Goes.exchange {l : Loop} {n : ν} {e : Event} {op : Op} {c : Bool → Label}
    {r : Except Exn Io} (hl : NoLoop l) (hidle : NoLoop (loops n s.handle)) (hop : op ≠ .connect)
    (hcall : ∀ started, s.step l (c started) = some (l.start s.tm op started) ∧
      (c started).shown = some (.starts op started))
    (hr : match r with
      | .ok io => s.Finishes op (l.left.start s.tm op true) io (loops n s.handle)
      | .error _ => l.left.start s.tm op false = loops n s.handle)
    (hshows : e.shows = shownLoop op r) (hleaves : e.leaves = r.toOption.map Io.isOpen) :
    Goes loops s l e n NoLoop := by
  have hstart : ∀ started, s.Steps l [.starts op started] (l.start s.tm op started) :=
    fun started => .single (hcall started).1 (by simp [(hcall started).2])
  rw [hl.left] at hr
  cases r with
  | error _ => exact .still (hr ▸ hstart false) hshows hidle.left hidle hleaves
  | ok io => exact .returns (hstart true) hr hidle (fun h => hop h.1) hshows hleaves

section Guards

variable (hloops : env.RunsLoops loops)
include hloops

theorem asyncWrite_guards (req : HttpRequest) :
    (perform (env.asyncWrite s req) (.write s req)).Guards LoopsRead (Resting loops) := by
  rw [← bind_pure (perform _ _)]
  refine (perform_loops (P := NoLoop) (Q := fun _ => NoLoop) (fun _ => rfl)
    (hloops.asyncWrite s req) (fun n l hl heq => ?_) (fun _ _ h => h)
    fun a => .pure fun w g h => (within_idle hloops).1 h).mono
      (fun w g h => (within_idle hloops).2 h) fun _ _ _ h => h
  refine .exchange (c := .write) hl (hloops.idle _ _) (by decide) (fun started => ?_) heq rfl ?_
  · exact ⟨by simp [step, show l.phase = .idle from hl], rfl⟩
  · rcases (env.asyncWrite s req n).1 with ⟨_ | io, delivered⟩ <;> rfl

theorem asyncRead_guards :
    (perform (env.asyncRead s) (.read s)).Guards LoopsRead (Resting loops) := by
  rw [← bind_pure (perform _ _)]
  refine (perform_loops (P := NoLoop) (Q := fun _ => NoLoop) (fun _ => rfl)
    (hloops.asyncRead s) (fun n l hl heq => ?_) (fun _ _ h => h)
    fun a => .pure fun w g h => (within_idle hloops).1 h).mono
      (fun w g h => (within_idle hloops).2 h) fun _ _ _ h => h
  refine .exchange (c := .read) hl (hloops.idle _ _) (by decide) (fun started => ?_) heq rfl ?_
  · exact ⟨by simp [step, show l.phase = .idle from hl], rfl⟩
  · rcases (env.asyncRead s n).1 with ⟨_ | io, res⟩ <;> rfl

variable (herror : ∀ code text, (error code text).Guards LoopsRead (Resting loops))
include herror

/-- The inner `try` of a TLS connect: if it is successful, the handshake has been started. -/
theorem connectTls_loops (hssl : s.useSsl = true) :
    (s.connectTls env error).Follows LoopsRead (Within loops s NoLoop)
      (Leads (Resting loops) (Within loops s Shaking)) := by
  have hrest : ∀ w g, Within loops s NoLoop w g → Resting loops w g :=
    fun w g => (within_idle hloops).1
  refine Prog.Follows.tryCatch (R := Leads (Resting loops) (Within loops s Shaking)) ?_
    (fun _ _ _ h => h) (fun e => ?_) fun _ _ _ h => h
  · refine tcpConnect_loops hloops fun r => ?_
    cases r with
    | error e => exact .raise hrest
    | ok io =>
      rw [Prog.ofExcept_ok, pure_bind]
      cases hio : io.failed with
      | true =>
        have hfailed : Within loops s (AfterConnect s (.ok io)) = Within loops s NoLoop := by
          simp [funext_iff, Within, AfterConnect, hio]
        rw [hfailed]
        refine Prog.Follows.bind ((checkStage_of_failed_follows (G := fun _ _ => False) herror _
          (by simp [hio])).mono hrest fun _ _ _ h => h) (fun b => ?_) (fun _ _ _ h => h)
          fun _ _ _ h => h
        cases b with
        | true => exact fun _ _ h => h.elim
        | false => exact .pure fun _ _ h => h
      | false =>
        have hstored : Within loops s (AfterConnect s (.ok io)) = Within loops s Stored := by
          simp [funext_iff, Within, AfterConnect, hio, hssl]
        rw [hstored, checkStage, if_neg (by simp [hio]), pure_bind, if_pos rfl]
        refine startHandshake_loops hloops hssl fun r => ?_
        cases r with
        | error e => exact .raise hrest
        | ok _ => exact .pure fun _ _ h => h
  · cases e.what? with
    | some what => exact report_follows herror _ _
    | none => exact .raise fun _ _ h => h

theorem connectBody_loops :
    (s.connectBody env error).Guards LoopsRead (Resting loops) := by
  have hrest : ∀ w g, Within loops s NoLoop w g → Resting loops w g :=
    fun w g => (within_idle hloops).1
  have hreport : ∀ code text, (do error code text; pure false : M ν Bool).Follows LoopsRead
      (Within loops s NoLoop) fun _ => Resting loops := fun code text =>
    ((herror code text).bind fun _ => .pure fun _ _ h => h).mono hrest fun _ _ _ h => h
  have hcheck : ∀ stage io, (s.checkStage stage io error).Follows LoopsRead
      (Within loops s NoLoop) fun _ => Resting loops := fun stage io =>
    .ite (fun _ => hreport _ _) fun _ => .pure hrest
  refine Prog.Follows.mono (R := fun _ => Resting loops) (resolve_loops hloops fun r => ?_)
    (fun w g h => (within_idle hloops).2 h) fun _ _ _ h => h
  cases r with
  | error e => exact .raise hrest
  | ok endpoints =>
    refine .ite (fun _ => hreport _ _) fun _ => .ite (fun hssl => ?_) fun hssl => ?_
    · refine hostName_loops hloops fun r => ?_
      rcases r with e | _ | _
      · exact .raise hrest
      · exact hreport _ _
      · rw [Prog.ofExcept_ok, pure_bind, if_pos rfl]
        refine Prog.Follows.bind (connectTls_loops hloops herror hssl) (fun b => ?_)
          (fun _ _ _ h => h) fun _ _ _ h => h
        cases b with
        | false => exact .pure fun _ _ h => h
        | true =>
          refine handshake_loops hloops fun r => ?_
          cases r with
          | error e => exact .raise hrest
          | ok h => exact hcheck _ _
    · refine tcpConnect_loops hloops fun r => ?_
      cases r with
      | error e => exact .raise hrest
      | ok io =>
        have hidle : Within loops s (AfterConnect s (.ok io)) = Within loops s NoLoop := by
          simp [funext_iff, Within, AfterConnect, hssl]
        rw [hidle]
        exact hcheck _ _

/-- **A connect is a run of the loops.** -/
theorem connect_guards : (s.connect env error).Guards LoopsRead (Resting loops) := by
  refine (connectBody_loops hloops herror).tryCatch fun e => ?_
  cases e.what? <;> exact (herror _ _).bind fun _ => .pure fun _ _ h => h

end Guards

end Programs

/-! ### Schedules -/

namespace Session

/-- What the loop of `op` leaves behind when the clock, the network and the `io_context` take the
steps `as`; if these do not end it, `op` ends at once. -/
def runLoop (s : Session) (op : Op) (l : Loop) (as : List Label) : Io × Loop :=
  match Lts.run s.step l (as.filter fun a => a.shown = none) with
  | some l₁ =>
    match l₁.phase with
    | .waiting op' _ (.stored ec) => if op' = op then (l₁.io ec, l₁.left) else (l.io none, l.left)
    | _ => (l.io none, l.left)
  | none => (l.io none, l.left)

theorem runLoop_finishes {s : Session} {op : Op} {l : Loop} {d : ℤ}
    (hl : l.phase = .waiting op d .running) (as : List Label) :
    s.Finishes op l (runLoop s op l as).1 (runLoop s op l as).2 := by
  have hend : s.Finishes op l (l.io none) l.left := by
    refine ⟨[.complete none, .dispatch], d, none, { l with phase := .waiting op d (.stored none) },
      by simp [Label.shown], ?_, rfl, rfl, rfl⟩
    simp [Lts.run, step, hl]
  unfold runLoop
  split
  · next l₁ hrun =>
    split
    · next op' d' ec hphase =>
      split_ifs with hop
      · subst hop
        exact ⟨_, d', ec, l₁, fun a ha => by simpa using (List.mem_filter.1 ha).2, hrun, hphase,
          rfl, rfl⟩
      · exact hend
    · exact hend
  · exact hend

/-- What happens in the loop of an operation of a session that enters it in a given state. -/
abbrev Schedule : Type := Session → Op → Loop → List Label

/-- The loop is in the handshake that was started. -/
def Loop.shake (l : Loop) : Loop :=
  match l.deadline.expiry with
  | .at d => { l with phase := .waiting .handshake d .running }
  | _ => { l with phase := .waiting .handshake l.now .running }

theorem Finishes.left {s : Session} {op : Op} {l l' : Loop} {io : Io}
    (h : s.Finishes op l io l') : s.Finishes op l io l'.left := by
  obtain ⟨as, d, ec, l₁, hinner, hrun, hphase, hio, rfl⟩ := h
  exact ⟨as, d, ec, l₁, hinner, hrun, hphase, hio, rfl⟩

end Session

/-- The outside that follows a schedule; its states are the loops.  Its hosts are resolved, its
operations can be started, and its nodes answer with `res`. -/
def Env.scheduled (schedule : Schedule) (res : HttpResponse) : Env (ℕ → Loop) where
  resolve _ n := (.ok 1, n)
  setTlsextHostName _ n := (.ok true, n)
  asyncConnect s n :=
    let l := { (n s.handle).left.start s.tm .connect true with isOpen := true }
    let r := runLoop s .connect l (schedule s .connect l)
    (.ok r.1, Function.update n s.handle r.2)
  startHandshake s n :=
    (.ok (), Function.update n s.handle ((n s.handle).left.start s.tm .handshake true))
  handshake s n :=
    let l := (n s.handle).left.shake
    let r := runLoop s .handshake l (schedule s .handshake l)
    (.ok ⟨[], r.1⟩, Function.update n s.handle r.2)
  asyncWrite s _ n :=
    let l := (n s.handle).left.start s.tm .write true
    let r := runLoop s .write l (schedule s .write l)
    (⟨.ok r.1, true⟩, Function.update n s.handle r.2)
  asyncRead s n :=
    let l := (n s.handle).left.start s.tm .read true
    let r := runLoop s .read l (schedule s .read l)
    (⟨.ok r.1, res⟩, Function.update n s.handle r.2)
  time n := (0, n)
  now n := (0, n)
  unwritten n := (0, n)
  stalePair n := (none, n)
  staleBlockId n := (some 0, n)
  staleTransaction n := (none, n)
  staleJson n := (none, n)

/-- **Every schedule runs the loops.** -/
theorem scheduled_runsLoops (schedule : Schedule) (res : HttpResponse) :
    (Env.scheduled schedule res).RunsLoops fun n h => (n h).left := by
  have hmoves : ∀ (s : Session) (n : ℕ → Loop) (l : Loop) (R : Loop → Loop → Prop),
      R (n s.handle).left l.left →
        Moves (fun n h => (n h).left) s n (Function.update n s.handle l) R := by
    intro s n l R hR
    refine ⟨fun h hh => ?_, _, .refl _, ?_⟩
    · simpa [Function.update_of_ne hh] using Loop.Drifts.refl (n h).left
    · simpa using hR
  have hstay : ∀ (s : Session) (n : ℕ → Loop) (R : Loop → Loop → Prop),
      R (n s.handle).left (n s.handle).left → Moves (fun n h => (n h).left) s n n R :=
    fun s n R hR => ⟨fun h _ => .refl _, _, .refl _, hR⟩
  exact
    { idle := fun _ _ => rfl
      aside := fun n n' h _ => by cases h <;> exact .refl _
      resolve := fun s n => hstay s n _ rfl
      setTlsextHostName := fun s n => hstay s n _ rfl
      asyncConnect := fun s n => hmoves s n _ _ ⟨true, (runLoop_finishes rfl _).left⟩
      startHandshake := fun s n => hmoves s n _ _ rfl
      handshake := fun s n => hmoves s n _ _ ⟨_, rfl, fun d hd => by
        have hshake : (n s.handle).left.shake =
            { (n s.handle).left with phase := .waiting .handshake d .running } := by
          rw [Loop.shake, hd]
        rw [← hshake]
        have h := (runLoop_finishes (s := s) (congrArg Loop.phase hshake)
          (schedule s .handshake (n s.handle).left.shake)).left
        cases hv : s.verifySsl <;> simpa [handshakeIo, acceptsChain, verifyMode, hv] using h⟩
      asyncWrite := fun s _ n => hmoves s n _ _ (runLoop_finishes rfl _).left
      asyncRead := fun s n => hmoves s n _ _ (runLoop_finishes rfl _).left }

end MileRpc
