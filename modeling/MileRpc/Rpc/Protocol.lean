import MileRpc.Rpc.Program
import MileRpc.Session.Discipline

/-!
# Programs and the protocol of their sessions

The monitor of the protocol has the rules of a program: a connect that returns true has made its
session ready, and every function of a client leaves its session ready, whatever fails
(`request_guards`, `get_guards`).  So every session of a program keeps the protocol
(`runActs_disciplined`).
-/

namespace MileRpc

open Sessions

variable {ν : Type} {S : Set Session} {env : Env ν} {api : Api}
  {responseFail : ResponseHandler ν} {error : ErrorHandler ν}

theorem settled_graded (env : Env ν) (S : Set Session) :
    SessionGraded env fun _ {α} (x : M ν α) => x.Guards Sessions.Reads (Settled S) :=
  Prog.graded_guards (fun he hq => ⟨_, Lts.reads_singleton (step_of_none he), hq⟩) fun hw hq =>
    ⟨_, Monitor.nil _, hq.congr hw.1⟩

namespace RpcSession

variable {s : Session} (hs : s ∈ S)
  (hh : HandlersGuard Sessions.Reads (Settled S) responseFail error)
include hs hh

theorem requestBody_guards (body : Json) :
    (requestBody env api s body responseFail error).Guards Sessions.Reads (Settled S) := by
  have hG := settled_graded env S
  refine Prog.Guards.bind (hG.ofJson _) fun data => ?_
  refine (Session.write_follows hs hh.error _).bind (fun b => ?_) (fun _ _ _ h => h)
    fun _ _ _ h => h
  cases b with
  | false => exact .pure fun _ _ h => h
  | true =>
    refine Prog.Follows.bind (Session.read_follows hs hh.error) (fun r => ?_) (fun _ _ _ h => h)
      fun _ _ _ h => h
    cases r with
    | none => exact hG.pure _
    | some res =>
      exact Prog.Guards.bind (hG.emit rfl) fun _ => decodeReply_graded hG hh.responseFail body res

/-- **Every request leaves its session ready**, whatever fails. -/
theorem request_guards (body : Json) :
    (request env api s body responseFail error).Guards Sessions.Reads (Settled S) := by
  have hG := settled_graded env S
  refine Prog.Guards.bind (hG.emit rfl) fun _ => ?_
  refine (requestBody_guards hs hh body).tryCatch fun e => ?_
  obtain ⟨code, text, heq⟩ := handle_eq s error e
  rw [heq]
  exact (hh.error code text).bind fun _ => hG.pure _

end RpcSession

theorem Http.Client.get_guards {c : Client ν} (hs : c.session ∈ S)
    (herror : ∀ code text, (c.error code text).Guards Sessions.Reads (Settled S)) :
    (c.get env).Guards Sessions.Reads (Settled S) := by
  have hG := settled_graded env S
  refine Prog.Guards.tryCatch ?_ fun e => ?_
  · refine (Session.write_follows hs herror _).bind (fun b => ?_) (fun _ _ _ h => h)
      fun _ _ _ h => h
    cases b with
    | false => exact .pure fun _ _ h => h
    | true =>
      refine Prog.Follows.bind (Session.read_follows hs herror) (fun r => ?_) (fun _ _ _ h => h)
        fun _ _ _ h => h
      cases r <;> exact hG.pure _
  · have hany : (getClauses c.session).any (·.catches e) = true := by
      simp [getClauses, CatchClause.any]
    obtain ⟨k, -, text, heq⟩ := CatchClause.handle_eq c.error hany
    rw [heq]
    exact (herror k.code text).bind fun _ => hG.pure _

/-- **The operations of a session keep the protocol.** -/
theorem settled_rules (env : Env ν) : SessionRules env Sessions.Reads Settled where
  subset hS h := h.subset hS
  quiet he hq := ⟨_, Lts.reads_singleton (step_of_none he), hq⟩
  still hw hq := ⟨_, Monitor.nil _, hq.congr hw.1⟩
  connect s _ herror := (Session.connect_follows herror).mono
    (by rintro _ q ⟨w, hq, hs, rfl⟩; exact Session.At.next hq hs) fun _ _ _ h => h
  request hs hh _ body := RpcSession.request_guards hs hh body
  get hs herror := Http.Client.get_guards hs herror

/-- **The sessions of a program keep their protocol.**  A program connects and uses any number of
clients of both kinds in any order, with handlers that may do the same.  Whatever the outside does,
every session of its run is used as it should be. -/
theorem runActs_disciplined (env : Env ν) (api : Api)
    (hh : ∀ S, HandlersGuard Sessions.Reads (Settled S) responseFail error) (acts : List Act)
    (w : World ν) :
    Obeys (runActs env api responseFail error ⟨[], []⟩ acts w).trace ∧
      Disciplined (runActs env api responseFail error ⟨[], []⟩ acts w).trace := by
  have hobeys : Obeys (runActs env api responseFail error ⟨[], []⟩ acts w).trace :=
    .of_guards ((settled_rules env).runActs api hh acts ∅ ⟨[], []⟩ ⟨by simp, by simp⟩) w
  exact ⟨hobeys, hobeys.disciplined⟩

/-- Two clients whose use is interleaved. -/
def twoClients : List Act :=
  [.connect "http://a" true, .httpConnect "https://b" false, .op 0 .getNodes, .get 0,
    .call 0 "ping" .null]

theorem runActs_disciplined_two :
    Obeys (runActs (Env.answering fun n : Unit => (⟨200, ""⟩, n)) (.sample []) logResponse logError
        ⟨[], []⟩ twoClients (World.init ())).trace ∧
      Disciplined (runActs (Env.answering fun n : Unit => (⟨200, ""⟩, n)) (.sample []) logResponse
        logError ⟨[], []⟩ twoClients (World.init ())).trace :=
  runActs_disciplined _ _ (settled_rules (Env.answering fun n : Unit => (⟨200, ""⟩, n))).log
    twoClients (World.init ())

end MileRpc
