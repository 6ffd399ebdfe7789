import MileRpc.Rpc.Protocol
import MileRpc.Session.Closed

/-!
# Programs over the loops

Over an outside that runs the loops of the sessions, the programs that use the library are runs of
`Session.step`, session by session (`runActs_loops`): what the watchdog guarantees in every run of
the loops it guarantees in every run of a program.  In particular a session whose socket the
watchdog has closed is of no use any more (`runActs_closed`).
-/

namespace MileRpc

open Session Sessions

variable {ν : Type} {env : Env ν} {api : Api} {loops : ν → ℕ → Loop}
  {responseFail : ResponseHandler ν} {error : ErrorHandler ν}

/-- The parts of a client that are not an operation of its session are in no loop. -/
theorem resting_graded (hloops : env.RunsLoops loops) :
    SessionGraded env fun _ {α} (x : M ν α) => x.Guards LoopsRead (Resting loops) :=
  Prog.graded_guards (fun he hg => ⟨_, .quiet he, hg⟩) fun {w w' g} hw hg => by
    subst hg
    exact ⟨loops w'.net, .drift (hloops.aside _ _ hw.2), rfl⟩

/-- **The operations of a session are runs of its loop.** -/
theorem loops_rules (hloops : env.RunsLoops loops) :
    SessionRules env LoopsRead fun _ => Resting loops where
  subset _ h := h
  quiet he hg := ⟨_, .quiet he, hg⟩
  still {S w w' g} hw hg := by
    subst hg
    exact ⟨loops w'.net, .drift (hloops.aside _ _ hw.2), rfl⟩
  connect s _ herror := (connect_guards hloops herror).mono
    (by rintro _ g ⟨w, hg, -, rfl⟩; exact hg)
    fun o w g h => by rcases o with (_ | _) | _ | _ <;> exact h
  request _ hh _ body := RpcSession.request_graded (n := 0) (resting_graded hloops) hh.responseFail
    hh.error (asyncWrite_guards hloops) (asyncRead_guards hloops) body
  get _ herror := Http.Client.get_graded (n := 0) (resting_graded hloops) herror
    (asyncWrite_guards hloops _) (asyncRead_guards hloops)

section Runs

variable {x : M ν Unit} (hobeys : x.Guards Sessions.Reads (Settled ∅))
  (hx : x.Guards LoopsRead (Resting loops)) {w : World ν} {s : Session} {e : Event}
include hobeys hx

theorem traced_of_guards (he : e ∈ (x w).trace) (hs : e.session? = some s) :
    s.Traced (loops w.net s.handle) (x w).trace (loops (x w).state.net s.handle) := by
  obtain ⟨g, hread, rfl⟩ := hx w (loops w.net) rfl
  refine hread s fun e' he' s' hs' hh => ?_
  exact (Obeys.of_guards hobeys w).unique he' he hs' hs hh

theorem closed_of_guards : (x w).trace.Pairwise ClosedBefore :=
  Session.closed_forever (Obeys.of_guards hobeys w) fun _ he _ hs =>
    traced_of_guards hobeys hx he hs

end Runs

variable (hloops : env.RunsLoops loops)
  (hh : ∀ S, HandlersGuard Sessions.Reads (Settled S) responseFail error)
  (hl : HandlersGuard LoopsRead (Resting loops) responseFail error)
include hloops hh hl

/-- **Programs are runs of the loops.**  A program starts with its sessions as their constructor
leaves them.  For every session of its run there is a run of `Session.step`, from the constructor to
where the session's loop is at the end, that starts the same operations as the program, with the
same success, and returns the same values, in the same order. -/
theorem runActs_loops (api : Api) (acts : List Act) (w : World ν)
    (hnew : ∀ h, ∃ now, loops w.net h = construct now) :
    ∀ s e, e ∈ (runActs env api responseFail error ⟨[], []⟩ acts w).trace → e.session? = some s →
      ∃ now as, Lts.run s.step (construct now) as =
          some (loops (runActs env api responseFail error ⟨[], []⟩ acts w).state.net s.handle) ∧
        as.filterMap Label.shown =
          (runActs env api responseFail error ⟨[], []⟩ acts w).trace.flatMap (Event.shown s) := by
  intro s e he hs
  have hobeys := (settled_rules env).runActs api hh acts ∅ ⟨[], []⟩ ⟨by simp, by simp⟩
  have hx := (loops_rules hloops).runActs api (fun _ => hl) acts ∅ ⟨[], []⟩ ⟨by simp, by simp⟩
  obtain ⟨as, hrun, hshown⟩ := (traced_of_guards hobeys hx he hs).run
  obtain ⟨now, hnow⟩ := hnew s.handle
  exact ⟨now, as, hnow ▸ hrun, hshown⟩

/-- **A closed session is of no use**: once an operation has ended with its socket closed, no
operation of the session returns true in the rest of the program. -/
theorem runActs_closed (api : Api) (acts : List Act) (w : World ν) :
    (runActs env api responseFail error ⟨[], []⟩ acts w).trace.Pairwise ClosedBefore := by
  have hobeys := (settled_rules env).runActs api hh acts ∅ ⟨[], []⟩ ⟨by simp, by simp⟩
  have hx := (loops_rules hloops).runActs api (fun _ => hl) acts ∅ ⟨[], []⟩ ⟨by simp, by simp⟩
  exact closed_of_guards hobeys hx

omit hloops hh hl

/-- Every read waits until the deadline has passed. -/
def lateReads : Schedule := fun s op l =>
  match op with
  | .read => [.deadline, .tick (l.now + s.tm), .expire, .deadline,
      .complete (some "Operation canceled"), .dispatch]
  | _ => [.complete none, .dispatch]

/-- The outside in which every read is too late. -/
def lateOutside : Env (ℕ → Loop) := .scheduled lateReads ⟨200, ""⟩

/-- A second request on a session. -/
def twoRequests : List Act := [.connect "https://a" true, .op 0 .getNodes, .op 0 .getNodes]

theorem runActs_loops_late :
    (∀ s e, e ∈ (runActs lateOutside (.sample []) logResponse logError ⟨[], []⟩ twoRequests
          (World.init fun _ => construct 0)).trace → e.session? = some s →
      ∃ now as, Lts.run s.step (construct now) as =
          some ((runActs lateOutside (.sample []) logResponse logError ⟨[], []⟩ twoRequests
            (World.init fun _ => construct 0)).state.net s.handle).left ∧
        as.filterMap Label.shown =
          (runActs lateOutside (.sample []) logResponse logError ⟨[], []⟩ twoRequests
            (World.init fun _ => construct 0)).trace.flatMap (Event.shown s)) ∧
      (runActs lateOutside (.sample []) logResponse logError ⟨[], []⟩ twoRequests
        (World.init fun _ => construct 0)).trace.flatMap Event.shows =
        [.starts .connect true, .starts .handshake true, .returns .handshake true,
          .starts .write true, .returns .write true, .starts .read true, .returns .read false,
          .starts .write true, .returns .write false] := by
  have hloops : lateOutside.RunsLoops fun n h => (n h).left := scheduled_runsLoops _ _
  exact ⟨runActs_loops hloops (settled_rules lateOutside).log ((loops_rules hloops).log ∅)
    (.sample []) twoRequests _ fun _ => ⟨0, rfl⟩, by decide +kernel⟩

theorem runActs_closed_late :
    (runActs lateOutside (.sample []) logResponse logError ⟨[], []⟩ twoRequests
        (World.init fun _ => construct 0)).trace.Pairwise ClosedBefore ∧
      (runActs lateOutside (.sample []) logResponse logError ⟨[], []⟩ twoRequests
        (World.init fun _ => construct 0)).trace.filterMap Event.leaves =
        [true, true, true, false, false] :=
  have hloops : lateOutside.RunsLoops fun n h => (n h).left := scheduled_runsLoops _ _
  ⟨runActs_closed hloops (settled_rules lateOutside).log ((loops_rules hloops).log ∅)
    (.sample []) twoRequests _, by decide +kernel⟩

end MileRpc
