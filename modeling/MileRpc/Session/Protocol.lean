import Mathlib.Data.Set.Insert
import Mathlib.Logic.Function.Basic
import MileRpc.Effect.Monitor
import MileRpc.Session.Basic

/-!
# The protocol of a session

In which order the operations of one session may follow each other: it is resolved, connected and,
for https, shakes hands, once; then requests are written, and after each whole request one response
is read.  A session whose connect has failed is not used again (`Session.advance`).

`Sessions.step` is the monitor of all sessions of a run.  It knows a session by its handle and
remembers the object, so that a handle is never used for two objects.

## Main definitions

* `Stage`, `Session.advance` : the protocol of one session
* `Sessions.step` : the monitor
* `Sessions.Settled S` : no session is in the middle of an operation, and those of `S` are ready

## Main results

* `Session.connect_follows` : a connect takes a fresh session to the stage `ready`, or to `failed`
* `Session.write_follows`, `Session.read_follows` : the exchange of a ready session
-/

namespace MileRpc

/-- How far a session has come. -/
inductive Stage where
  /-- The host has endpoints. -/
  | resolved
  /-- The host name is set for TLS. -/
  | named
  /-- The socket is connected, but there is no TLS yet. -/
  | connected
  /-- The TLS handshake has been started. -/
  | shaking
  /-- A request may be written. -/
  | ready
  /-- A whole request was written, and its response is to be read. -/
  | awaiting
  /-- The connect has failed. -/
  | failed
  deriving DecidableEq, Repr

/-- The session that an event belongs to. -/
def Event.session? : Event → Option Session
  | .resolve s _ | .hostName s _ | .tcpConnect s _ | .startHandshake s _ | .handshake s _
  | .write s _ _ | .read s _ => some s
  | _ => none

/-- What the outside does when it is asked for something that is not an operation of a session. -/
inductive Env.Aside {ν : Type} (env : Env ν) (n : ν) : ν → Prop
  | stay : env.Aside n n
  | time : env.Aside n (env.time n).2
  | now : env.Aside n (env.now n).2
  | unwritten : env.Aside n (env.unwritten n).2
  | stalePair : env.Aside n (env.stalePair n).2
  | staleBlockId : env.Aside n (env.staleBlockId n).2
  | staleTransaction : env.Aside n (env.staleTransaction n).2
  | staleJson : env.Aside n (env.staleJson n).2

/-- No session is made, and none does anything. -/
def Env.Still {ν : Type} (env : Env ν) (w w' : World ν) : Prop :=
  w'.sessions = w.sessions ∧ env.Aside w.net w'.net

/-- The stage after a part of the connect: the next one if `ok` holds of its result. -/
def Stage.after {α : Type} (next : Stage) (ok : α → Bool) : Except Exn α → Stage
  | .ok a => if ok a then next else .failed
  | .error _ => .failed

@[simp] theorem Stage.after_error {α : Type} (next : Stage) (ok : α → Bool) (e : Exn) :
    next.after ok (.error e) = .failed := rfl

@[simp] theorem Stage.after_ok {α : Type} (next : Stage) (ok : α → Bool) (a : α) :
    next.after ok (.ok a) = if ok a then next else .failed := rfl

/-- The stage after a write. -/
def Stage.afterWrite : Except Exn Io → Stage
  | .ok io => if io.failed then .ready else .awaiting
  | .error _ => .ready

/-- The stage after an event of the session; `none` in front is a fresh session. -/
def Session.advance (s : Session) : Option Stage → Event → Option Stage
  | none, .resolve _ r => some (Stage.resolved.after (· ≠ 0) r)
  | some .resolved, .hostName _ r =>
    if s.useSsl then some (Stage.named.after id r) else none
  | some .resolved, .tcpConnect _ r =>
    if s.useSsl then none else some (Stage.ready.after (!Io.failed ·) r)
  | some .named, .tcpConnect _ r => some (Stage.connected.after (!Io.failed ·) r)
  | some .connected, .startHandshake _ r => some (Stage.shaking.after (fun _ => true) r)
  | some .shaking, .handshake _ r => 
    some (Stage.ready.after (fun h => !(s.handshakeIo h).failed) r)
  | some .ready, .write _ _ a => some (Stage.afterWrite a.result)
  | some .awaiting, .read _ _ => some .ready
  | _, _ => none

/-- What is known of the sessions, by their handles: the object and its stage. -/
abbrev Sessions : Type := ℕ → Option (Session × Stage)

namespace Sessions

/-- No session was used. -/
def init : Sessions := fun _ => none

/-- The session `s` is now at this stage. -/
def put (q : Sessions) (s : Session) (p : Stage) : Sessions :=
  Function.update q s.handle (some (s, p))

/-- The monitor: an event of a session must be the next one of that session's protocol. -/
def step (q : Sessions) (e : Event) : Option Sessions :=
  match e.session? with
  | none => some q
  | some s =>
    if ∀ x ∈ q s.handle, x.1 = s then
      (s.advance ((q s.handle).map Prod.snd) e).map (q.put s)
    else none

/-- What the monitor reads. -/
abbrev Reads : Sessions → List Event → Sessions → Prop := Lts.Reads step

section Put

variable {q : Sessions} {s : Session} {p p' : Stage}

@[simp] theorem put_self : (q.put s p) s.handle = some (s, p) := by
  simp [put]

theorem put_of_ne {h : ℕ} (hne : h ≠ s.handle) : (q.put s p) h = q h := by
  simp [put, hne]

@[simp] theorem put_put : (q.put s p).put s p' = q.put s p' := by
  simp [put]

theorem put_eq_self (h : q s.handle = some (s, p)) : q.put s p = q := by
  simp [put, ← h]

theorem step_fresh {e : Event} (hq : q s.handle = none) (he : e.session? = some s)
    (hp : s.advance none e = some p) : q.step e = some (q.put s p) := by
  simp [step, he, hq, hp]

theorem step_put {r : Stage} {e : Event} (he : e.session? = some s)
    (hr : s.advance (some p) e = some r) : (q.put s p).step e = some (q.put s r) := by
  simp [step, he, hr]

theorem step_of_none {e : Event} (he : e.session? = none) : q.step e = some q := by
  simp [step, he]

/-- What the monitor accepts. -/
theorem step_cases {e : Event} {q' : Sessions} (h : q.step e = some q') :
    (e.session? = none ∧ q' = q) ∨ ∃ s p, e.session? = some s ∧ (∀ x ∈ q s.handle, x.1 = s) ∧
      s.advance ((q s.handle).map Prod.snd) e = some p ∧ q' = q.put s p := by
  unfold step at h
  split at h
  · exact .inl ⟨‹_›, (Option.some.inj h).symm⟩
  · split_ifs at h with hsame
    obtain ⟨p, hp, rfl⟩ := Option.map_eq_some_iff.1 h
    exact .inr ⟨_, p, ‹_›, hsame, hp, rfl⟩

end Put

/-- Between the operations: the sessions that were not made are fresh, a session that was used is
ready or failed, and the sessions `S` are ready. -/
structure Settled {ν : Type} (S : Set Session) (w : World ν) (q : Sessions) : Prop where
  fresh : ∀ h, w.sessions ≤ h → q h = none
  settled : ∀ h s p, q h = some (s, p) → s.handle = h ∧ (p = .ready ∨ p = .failed)
  ready : ∀ s ∈ S, q s.handle = some (s, .ready)

namespace Settled

variable {ν : Type} {S : Set Session} {w : World ν} {q : Sessions} {s : Session}

theorem init (w : World ν) : Settled ∅ w Sessions.init where
  fresh _ _ := rfl
  settled _ _ _ h := by cases h
  ready _ h := h.elim

theorem congr {w' : World ν} (h : Settled S w q) (hw : w'.sessions = w.sessions) :
    Settled S w' q where
  fresh n hn := h.fresh n (hw ▸ hn)
  settled := h.settled
  ready := h.ready

theorem subset {S' : Set Session} (h : Settled S w q) (hS : S' ⊆ S) : Settled S' w q where
  fresh := h.fresh
  settled := h.settled
  ready s hs := h.ready s (hS hs)

theorem put (h : Settled S w q) (hs : s.handle < w.sessions) (hq : q s.handle = none) {p : Stage}
    (hp : p = .ready ∨ p = .failed) : Settled S w (q.put s p) where
  fresh n hn := by
    rw [put_of_ne (by omega)]
    exact h.fresh n hn
  settled n s' p' hn := by
    rcases eq_or_ne n s.handle with rfl | hne
    · rw [put_self, Option.some.injEq, Prod.mk.injEq] at hn
      obtain ⟨rfl, rfl⟩ := hn
      exact ⟨rfl, hp⟩
    · rw [put_of_ne hne] at hn
      exact h.settled n s' p' hn
  ready s' hs' := by
    have hready := h.ready s' hs'
    rcases eq_or_ne s'.handle s.handle with heq | hne
    · rw [heq, hq] at hready
      cases hready
    · rw [put_of_ne hne, hready]

theorem insert (h : Settled S w q) (hs : q s.handle = some (s, .ready)) :
    Settled (Insert.insert s S) w q where
  fresh := h.fresh
  settled := h.settled
  ready s' hs' := by
    rcases Set.mem_insert_iff.1 hs' with rfl | hs'
    · exact hs
    · exact h.ready s' hs'

theorem not_awaiting (h : Settled S w q) (n : ℕ) : q n ≠ some (s, .awaiting) := by
  intro hn
  rcases (h.settled n s _ hn).2 with hp | hp <;> cases hp

end Settled

end Sessions

/-! ### The operations of a session -/

namespace Session

open Sessions

variable {ν α β : Type} {S : Set Session} {env : Env ν} {error : ErrorHandler ν} {s : Session}

/-- The sessions are settled but for `s`, which was fresh before its connect and has come to this
stage. -/
def At (S : Set Session) (s : Session) (p : Option Stage) (w : World ν) (q : Sessions) : Prop :=
  ∃ q₀, Settled S w q₀ ∧ q₀ s.handle = none ∧ s.handle < w.sessions ∧
    q = p.elim q₀ (q₀.put s)

theorem At.failed {w : World ν} {q : Sessions} (h : At S s (some .failed) w q) :
    Settled S w q := by
  obtain ⟨q₀, hq₀, hfresh, hlt, rfl⟩ := h
  exact hq₀.put hlt hfresh (.inr rfl)

theorem At.ready {w : World ν} {q : Sessions} (h : At S s (some .ready) w q) :
    Settled (insert s S) w q := by
  obtain ⟨q₀, hq₀, hfresh, hlt, rfl⟩ := h
  exact (hq₀.put hlt hfresh (.inl rfl)).insert put_self

theorem At.step {p : Option Stage} {p' : Stage} {e : Event} {w v : World ν} {q : Sessions}
    (h : At S s p w q) (hv : v.sessions = w.sessions) (he : e.session? = some s)
    (hp : s.advance p e = some p') :
    ∃ q', q.step e = some q' ∧ At S s (some p') v q' := by
  obtain ⟨q₀, hq₀, hfresh, hlt, rfl⟩ := h
  refine ⟨q₀.put s p', ?_, q₀, hq₀.congr hv, hfresh, hv ▸ hlt, rfl⟩
  cases p with
  | none => exact step_fresh hfresh he hp
  | some p => exact step_put he hp

theorem At.next {w : World ν} {q : Sessions} (hq : Settled S w q) (hs : s.handle = w.sessions) :
    At S s none { w with sessions := w.sessions + 1 } q := by
  refine ⟨q, ⟨fun h hh => hq.fresh h (Nat.le_of_succ_le hh), hq.settled, hq.ready⟩, ?_, ?_, rfl⟩
  · exact hq.fresh _ hs.ge
  · exact hs ▸ Nat.lt_succ_self _

section Reports

variable {Q : Type*} {T : Q → List Event → Q → Prop} [Monitor T] {F G : World ν → Q → Prop}

/-- How a part of a connect ends: with `true` as `G` says, else as `F` does. -/
def Leads (F G : World ν → Q → Prop) (o : Outcome Exn Stop Bool) (w : World ν) (q : Q) : Prop :=
  match o with
  | .ret true => G w q
  | _ => F w q

variable (herror : ∀ code text, (error code text).Guards T F)
include herror

theorem report_follows (code : ResultCode) (text : String) :
    (do error code text; pure false : M ν Bool).Follows T F (Leads F G) :=
  Prog.Follows.bind (herror code text) (fun _ => .pure fun _ _ h => h) (fun _ _ _ h => h)
    fun _ _ _ h => h

theorem checkStage_of_failed_follows (stage : String) {io : Io} (h : (!io.failed) = false) :
    (s.checkStage stage io error).Follows T F (Leads F G) := by
  rw [checkStage, if_pos (by simpa using h)]
  exact report_follows herror _ _

end Reports

variable {G : World ν → Sessions → Prop}

/-- The rule for a stage of the connect. -/
theorem stage_follows {f : ν → Except Exn β × ν} {e : Except Exn β → Event} {k : β → M ν Bool}
    {p : Option Stage} (next : Stage) (ok : β → Bool) (he : ∀ r, (e r).session? = some s)
    (hp : ∀ r, s.advance p (e r) = some (next.after ok r))
    (hk : ∀ b, ok b = true →
      (k b).Follows Sessions.Reads (At S s (some next)) (Leads (Settled S) G))
    (hfail : ∀ b, ok b = false → (k b).Follows Sessions.Reads (Settled S) (Leads (Settled S) G)) :
    (perform f e >>= fun r => Prog.ofExcept r >>= k).Follows Sessions.Reads (At S s p)
      (Leads (Settled S) G) := by
  intro w q hq
  obtain ⟨q₁, hstep, hq₁⟩ := hq.step (v := w.setNet (f w.net).2) rfl (he (f w.net).1)
    (hp (f w.net).1)
  rw [perform_bind_apply]
  refine Prog.Follows.prepend q₁ (Lts.reads_singleton hstep) ?_
  cases hr : (f w.net).1 with
  | error x =>
    rw [hr] at hq₁
    exact ⟨q₁, rfl, hq₁.failed⟩
  | ok b =>
    rw [hr, Stage.after_ok] at hq₁
    cases hb : ok b with
    | true =>
      rw [hb, if_pos rfl] at hq₁
      exact hk b hb _ _ hq₁
    | false =>
      rw [hb, if_neg Bool.false_ne_true] at hq₁
      exact hfail b hb _ _ hq₁.failed

section Connect

variable (herror : ∀ code text, (error code text).Guards Sessions.Reads (Settled S))
include herror

theorem connectTls_follows :
    (s.connectTls env error).Follows Sessions.Reads (At S s (some .named))
      (Leads (Settled S) (At S s (some .shaking))) := by
  refine Prog.Follows.tryCatch (R := Leads (Settled S) (At S s (some .shaking))) ?_
    (fun _ _ _ h => h) (fun e => ?_) fun _ _ _ h => h
  · refine stage_follows .connected (!Io.failed ·) (fun _ => rfl)
      (fun _ => rfl) (fun io hio => ?_) fun io hio => ?_
    · have hcheck : s.checkStage "Connection timeout" io error = pure true := by
        rw [checkStage, if_neg (by simpa using hio)]
      rw [hcheck, pure_bind, if_pos rfl]
      exact stage_follows .shaking (fun _ => true) (fun _ => rfl) (fun _ => rfl)
        (fun _ _ => .pure fun _ _ h => h) fun _ h => by cases h
    · refine (checkStage_of_failed_follows (G := fun _ _ => False) herror _ hio).bind
        (fun b => ?_) (fun _ _ _ h => h) fun _ _ _ h => h
      cases b with
      | true => exact fun _ _ h => h.elim
      | false => exact .pure fun _ _ h => h
  · cases e.what? with
    | some what => exact report_follows herror _ _
    | none => exact .raise fun _ _ h => h

theorem connectBody_follows :
    (s.connectBody env error).Follows Sessions.Reads (At S s none)
      (Leads (Settled S) (Settled (insert s S))) := by
  refine stage_follows .resolved (· ≠ 0) (fun _ => rfl) (fun _ => rfl)
    (fun endpoints hne => ?_) fun endpoints heq => ?_
  · rw [if_neg (by simpa using hne)]
    refine .ite (fun hssl => ?_) fun hssl => ?_
    · refine stage_follows .named id (fun _ => rfl)
        (fun _ => by rw [advance, if_pos hssl]) (fun named hnamed => ?_) fun named hnamed => ?_
      · rw [if_pos (show named = true from hnamed)]
        refine (connectTls_follows herror).bind (fun b => ?_) (fun _ _ _ h => h)
          fun _ _ _ h => h
        cases b with
        | false => exact .pure fun _ _ h => h
        | true =>
          refine stage_follows .ready (fun h => !(s.handshakeIo h).failed)
            (fun _ => rfl) (fun _ => rfl) (fun h hh => ?_) fun h hh => ?_
          · rw [checkStage, if_neg (by simpa using hh)]
            exact .pure fun _ _ hready => hready.ready
          · exact checkStage_of_failed_follows herror _ hh
      · rw [if_neg (by simpa using hnamed)]
        exact report_follows herror _ _
    · refine stage_follows .ready (!Io.failed ·) (fun _ => rfl)
        (fun _ => by rw [advance, if_neg hssl]) (fun io hio => ?_) fun io hio => ?_
      · rw [checkStage, if_neg (by simpa using hio)]
        exact .pure fun _ _ hready => hready.ready
      · exact checkStage_of_failed_follows herror _ hio
  · rw [if_pos (by simpa using heq)]
    exact report_follows herror _ _

/-- **A connect follows the protocol**: a fresh session is ready if it returns true; else it is not
used again. -/
theorem connect_follows :
    (s.connect env error).Follows Sessions.Reads (At S s none)
      (Leads (Settled S) (Settled (insert s S))) := by
  refine (connectBody_follows herror).tryCatch (fun _ _ _ h => h) (fun e => ?_) fun _ _ _ h => h
  cases e.what? <;> exact report_follows herror _ _

end Connect

/-! ### Writing and reading -/

/-- A whole request was written on `s`, and everything else is settled. -/
def Awaits (S : Set Session) (s : Session) (w : World ν) (q : Sessions) : Prop :=
  ∃ q₀, Settled S w q₀ ∧ q = q₀.put s .awaiting

section Exchange

variable (hs : s ∈ S)
  (herror : ∀ code text, (error code text).Guards Sessions.Reads (Settled S))
include hs herror

theorem write_follows (req : HttpRequest) :
    (s.write env req error).Follows Sessions.Reads (Settled S)
      (Leads (Settled S) (Awaits S s)) := by
  intro w q hq
  rw [write, perform_bind_apply]
  generalize (env.asyncWrite s req w.net).1 = a
  have hsame : q.put s .ready = q := put_eq_self (hq.ready s hs)
  have hnet : Settled S (w.setNet (env.asyncWrite s req w.net).2) q := hq.congr rfl
  have hstep : q.step (.write s req a) = some (q.put s (Stage.afterWrite a.result)) := by
    have hput := step_put (q := q) (s := s) (p := .ready) (e := .write s req a) rfl rfl
    rwa [hsame] at hput
  refine Prog.Follows.prepend _ (Lts.reads_singleton hstep) ?_
  cases hr : a.result with
  | error e =>
    refine ⟨_, rfl, ?_⟩
    show Settled S _ (q.put s .ready)
    rwa [hsame]
  | ok io =>
    simp only [Stage.afterWrite, Prog.ofExcept_ok, pure_bind]
    cases hio : io.failed with
    | true =>
      -- a write that fails leaves the session ready
      simp only [if_true, hsame]
      exact report_follows herror _ _ _ _ hnet
    | false => exact ⟨_, rfl, q, hnet, rfl⟩

theorem read_follows :
    (s.read env error).Follows Sessions.Reads (Awaits S s) fun _ => Settled S := by
  rintro w q ⟨q₀, hq₀, rfl⟩
  rw [read, perform_bind_apply]
  generalize (env.asyncRead s w.net).1 = a
  have hnet : Settled S (w.setNet (env.asyncRead s w.net).2) q₀ := hq₀.congr rfl
  have hstep : (q₀.put s .awaiting).step (.read s a) = some q₀ := by
    rw [step_put (r := .ready) rfl rfl, put_eq_self (hq₀.ready s hs)]
  refine Prog.Follows.prepend (R := fun _ => Settled S) q₀ (Lts.reads_singleton hstep) ?_
  cases a.result with
  | error e => exact ⟨_, rfl, hnet⟩
  | ok io =>
    refine Prog.Follows.ite (R := fun _ => Settled S) (fun _ => ?_) (fun _ => ?_) _ _ hnet
    · exact Prog.Guards.bind (herror _ _) fun _ => .pure fun _ _ h => h
    · exact .pure fun _ _ h => h

end Exchange

end Session

end MileRpc
