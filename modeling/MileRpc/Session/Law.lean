import MileRpc.Effect.Law
import MileRpc.Session.Basic

/-!
# Sessions under a law

A law of the client is `Tolerant` if it lets the outside and the session do as they like: it says
something about the handlers, the output and the commands only.  Under such a law a session function
that fails has called a handler that returned (`Session.connect_keeps`); where the handlers of the
runs that count never return, it cannot fail.
-/

namespace MileRpc

/-- The events of the sessions, and what else the client does without a handler, a command or a
transaction. -/
def Event.isPlain : Event → Bool
  | .request _ | .reply _ _ | .created _ _ | .body _ | .report _ _ | .responseFail _ _ | .doRequest
  | .cout _ | .cerr _ => false
  | _ => true

/-- A law that leaves the outside and the session alone. -/
structure Law.Tolerant {ν : Type} (L : Law (World ν) Event Stop) : Prop where
  /-- The counters of the commands, of the transaction ids and of the retries are all that counts
  of a state. -/
  quiet : ∀ {w w' : World ν}, w'.nextId = w.nextId → w'.trxCounter = w.trxCounter →
    w'.reconnections = w.reconnections → L.Moves w [] w'
  plain : ∀ {e : Event}, e.isPlain = true → ∀ w, L.Fair [e] → L.Moves w [e] w
  crash : ∀ w, L.Stops w [] .crash

/-- A tolerant law that leaves the replies alone too. -/
structure Law.Lenient {ν : Type} (L : Law (World ν) Event Stop) : Prop extends L.Tolerant where
  reply : ∀ {b : Json} {res : HttpResponse} (w : World ν), L.Fair [.reply b res] →
    L.Moves w [.reply b res] w

/-- In the runs that count, the error handler keeps the law, returns only if `R`, and throws only if
`T`. -/
def ErrorKeeps {ν : Type} (L : Law (World ν) Event Stop) (R T : Prop) (error : ErrorHandler ν) :
    Prop :=
  ∀ code text, L.Keeps (fun _ => R) T (error code text)

/-- So do both handlers. -/
structure HandlersKeep {ν : Type} (L : Law (World ν) Event Stop) (R T : Prop)
    (responseFail : ResponseHandler ν) (error : ErrorHandler ν) : Prop where
  responseFail : ∀ status method res, L.Keeps (fun _ => R) T (responseFail status method res)
  error : ErrorKeeps L R T error

variable {ν α β : Type} {L : Law (World ν) Event Stop} {R T : Prop}
  {error : ErrorHandler ν} {env : Env ν}

namespace Law.Keeps

/-- A step of the outside. -/
theorem ask (hL : L.Tolerant) (f : ν → α × ν) : L.Keeps (fun _ => True) T (MileRpc.ask f) :=
  (modifyGet fun _ => hL.quiet rfl rfl rfl).weaken fun _ _ => trivial

theorem plain (hL : L.Tolerant) {e : Event} (he : e.isPlain = true) :
    L.Keeps (fun _ => L.Fair [e]) T (Prog.emit e : M ν Unit) :=
  emit (hL.plain he)

/-- An operation of the outside. -/
theorem perform (hL : L.Tolerant) (f : ν → α × ν) {e : α → Event}
    (he : ∀ a, (e a).isPlain = true) :
    L.Keeps (fun a => L.Fair [e a]) T (MileRpc.perform f e) :=
  (ask hL f).andThen fun a _ => (plain hL (he a)).andThen fun _ hf => pure hf

theorem undefinedRead (hL : L.Tolerant) (u : Undefined) (stale : ν → Option α × ν) :
    L.Keeps (fun _ => L.Fair [.undefined u]) T (MileRpc.undefinedRead u stale) := by
  refine (plain hL rfl).andThen fun _ hf => (ask hL stale).andThen fun a _ => ?_
  cases a with
  | some a => exact pure hf
  | none => exact halt hL.crash

theorem ofJson (r : Except JsonError α) :
    L.Keeps (fun a => r = .ok a) True (MileRpc.ofJson r : M ν α) := by
  cases r with
  | ok a => exact pure rfl
  | error e => exact raise _

theorem readMember (hL : L.Tolerant) (j : Json) (key : String) :
    L.Keeps (fun v => ∀ u, j.member? key = some u → v = u) True (MileRpc.readMember env j key) := by
  cases h : j.member? key with
  | some u =>
    rw [readMember_of_member h]
    exact pure fun u' hu => Option.some.inj hu
  | none =>
    refine (ofJson _).andThen fun r hr => ?_
    cases r with
    | some v => exact pure (by simp)
    | none => exact (undefinedRead hL _ _).weaken (by simp)

end Law.Keeps

/-- A value after a report, in the runs in which the handler returns. -/
theorem ErrorKeeps.report {T' : Prop} {A : α → Prop} {a : α}
    (he : ErrorKeeps L R T error) (ha : R → A a) (hT : T → T') (code : ResultCode)
    (text : String) : L.Keeps A T' (do error code text; pure a : M ν α) :=
  (he code text).bind (fun _ hr => .pure (ha hr)) hT

theorem Url.parse_keeps (he : ErrorKeeps L R T error) (urlString : String) :
    L.Keeps (fun u => u = none → R) True (Url.parse urlString error) := by
  unfold Url.parse Url.finish
  split
  · exact .pure (by simp)
  · exact he.report (fun hr _ => hr) (fun _ => trivial) _ _
  · exact .raise _

namespace Session

variable (hL : L.Tolerant) (he : ErrorKeeps L R T error)
include hL he

theorem write_keeps (s : Session) (req : HttpRequest) :
    L.Keeps (fun b => b = false → R) True (s.write env req error) := by
  refine (Law.Keeps.perform hL _ fun _ => rfl).andThen fun a _ => ?_
  refine (Law.Keeps.ofExcept _).andThen fun io _ => .ite (fun _ => ?_) fun _ => .pure (by simp)
  exact he.report (fun hr _ => hr) (fun _ => trivial) _ _

theorem read_keeps (s : Session) :
    L.Keeps (fun r => r = none → R) True (s.read env error) := by
  refine (Law.Keeps.perform hL _ fun _ => rfl).andThen fun a _ => ?_
  refine (Law.Keeps.ofExcept _).andThen fun io _ => .ite (fun _ => ?_) fun _ => .pure (by simp)
  exact he.report (fun hr _ => hr) (fun _ => trivial) _ _

omit hL in
theorem checkStage_keeps (s : Session) (stage : String) (io : Io) :
    L.Keeps (fun b => b = false → R) T (s.checkStage stage io error) :=
  .ite (fun _ => he.report (fun hr _ => hr) id _ _) fun _ => .pure (by simp)

theorem connectTls_keeps (s : Session) :
    L.Keeps (fun b => b = false → R) True (s.connectTls env error) := by
  refine Law.Keeps.tryCatch (T := True) ?_ fun _ e => ?_
  · refine (Law.Keeps.perform hL _ fun _ => rfl).andThen fun r _ => ?_
    refine (Law.Keeps.ofExcept _).andThen fun io _ => ?_
    refine (checkStage_keeps he s _ io).bind (fun b hb => ?_) fun _ => trivial
    cases b with
    | false => exact .pure hb
    | true =>
      refine (Law.Keeps.perform hL _ fun _ => rfl).andThen fun h _ => ?_
      exact (Law.Keeps.ofExcept _).andThen fun _ _ => .pure (by simp)
  · cases e.what? with
    | some what => exact he.report (fun hr _ => hr) (fun _ => trivial) _ _
    | none => exact .raise _

theorem connectBody_keeps (s : Session) :
    L.Keeps (fun b => b = false → R) True (s.connectBody env error) := by
  have hfailed : ∀ code text,
      L.Keeps (fun b => b = false → R) True (do error code text; pure false : M ν Bool) :=
    he.report (fun hr _ => hr) fun _ => trivial
  have hstage : ∀ stage io, L.Keeps (fun b => b = false → R) True (s.checkStage stage io error) :=
    fun stage io => (checkStage_keeps he s stage io).mono (fun _ h => h) fun _ => trivial
  refine (Law.Keeps.perform hL _ fun _ => rfl).andThen fun results _ => ?_
  refine (Law.Keeps.ofExcept _).andThen fun endpoints _ => .ite (fun _ => hfailed _ _) fun _ => ?_
  refine .ite (fun _ => ?_) fun _ => ?_
  · refine (Law.Keeps.perform hL _ fun _ => rfl).andThen fun r _ => ?_
    refine (Law.Keeps.ofExcept _).andThen fun named _ => .ite (fun _ => ?_) fun _ => hfailed _ _
    refine (connectTls_keeps hL he s).andThen fun b hb => ?_
    cases b with
    | false => exact .pure hb
    | true =>
      refine (Law.Keeps.perform hL _ fun _ => rfl).andThen fun h _ => ?_
      exact (Law.Keeps.ofExcept _).andThen fun h _ => hstage _ _
  · refine (Law.Keeps.perform hL _ fun _ => rfl).andThen fun r _ => ?_
    exact (Law.Keeps.ofExcept _).andThen fun io _ => hstage _ _

/-- **A connect that fails has called a handler that returned**; its own exceptions are caught. -/
theorem connect_keeps (s : Session) :
    L.Keeps (fun b => b = false → R) T (s.connect env error) := by
  refine (connectBody_keeps hL he s).tryCatch fun _ e => ?_
  cases e.what? <;> exact he.report (fun hr _ => hr) id _ _

end Session

end MileRpc
