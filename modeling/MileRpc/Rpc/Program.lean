import MileRpc.Effect.Monitor
import MileRpc.Http.Client
import MileRpc.Rpc.Commands
import MileRpc.Rpc.Graded

/-!
# Programs that use clients

A program connects and uses as many clients of both kinds as it likes, in any order (`Act`,
`runActs`), with handlers that may use clients too.

`SessionRules` is what it takes for an invariant of the sessions, with a monitor of their events, to
hold all through such a program: the operations of a session keep it.  `SessionRules.runActs` : then
every program keeps it.
-/

namespace MileRpc

variable {ν : Type} {Q : Type*} {env : Env ν} {api : Api} {T : Q → List Event → Q → Prop}
  {I : Set Session → World ν → Q → Prop} {S : Set Session} {responseFail : ResponseHandler ν}
  {error : ErrorHandler ν}

/-! ### Programs -/

/-- A step of a program that uses the library: it connects a client of one of the two kinds, or uses
one of those it has. -/
inductive Act where
  | connect (urlString : String) (verifySsl : Bool)
  | httpConnect (urlString : String) (verifySsl : Bool)
  | op (i : ℕ) (op : Rpc.ClientOp)
  | call (i : ℕ) (method : String) (params : Json)
  | get (i : ℕ)

/-- The clients of a program. -/
structure Clients (ν : Type) where
  rpc : List (Rpc.Client ν)
  http : List (Http.Client ν)

/-- A function of the client `i`, if there is one, also if it throws. -/
def useClient {C : Type} (cs : List C) (i : ℕ) (f : C → M ν Unit) : M ν Unit :=
  match cs[i]? with
  | some c => (f c).tryCatch fun _ => pure ()
  | none => pure ()

/-- Take the steps one after the other, also after an exception. -/
def runActs (env : Env ν) (api : Api) (responseFail : ResponseHandler ν) (error : ErrorHandler ν) :
    Clients ν → List Act → M ν Unit
  | _, [] => pure ()
  | cs, .connect urlString verifySsl :: acts => do
    let c ← (Rpc.Client.connect env urlString verifySsl responseFail error).tryCatch
      fun _ => pure none
    runActs env api responseFail error { cs with rpc := cs.rpc ++ c.toList } acts
  | cs, .httpConnect urlString verifySsl :: acts => do
    let c ← (Http.Client.connect env urlString verifySsl error).tryCatch fun _ => pure none
    runActs env api responseFail error { cs with http := cs.http ++ c.toList } acts
  | cs, .op i op :: acts => do
    useClient cs.rpc i fun c => op.run env api c
    runActs env api responseFail error cs acts
  | cs, .call i method params :: acts => do
    useClient cs.rpc i fun c => (fun _ => ()) <$> c.call env api method params
    runActs env api responseFail error cs acts
  | cs, .get i :: acts => do
    useClient cs.http i fun c => (fun _ => ()) <$> c.get env
    runActs env api responseFail error cs acts

/-! ### Rules -/

/-- Handlers that keep an invariant. -/
structure HandlersGuard (T : Q → List Event → Q → Prop) (J : World ν → Q → Prop)
    (responseFail : ResponseHandler ν) (error : ErrorHandler ν) : Prop where
  responseFail : ∀ status method res, (responseFail status method res).Guards T J
  error : ∀ code text, (error code text).Guards T J

/-- The session `s` has just been made. -/
def Made (J : World ν → Q → Prop) (s : Session) (w : World ν) (q : Q) : Prop :=
  ∃ w₀, J w₀ q ∧ s.handle = w₀.sessions ∧ w = { w₀ with sessions := w₀.sessions + 1 }

/-- An invariant of the sessions, of which `S` are connected, that their operations keep. -/
structure SessionRules (env : Env ν) (T : Q → List Event → Q → Prop)
    (I : Set Session → World ν → Q → Prop) : Prop where
  subset : ∀ {S S' : Set Session} {w : World ν} {q : Q}, S' ⊆ S → I S w q → I S' w q
  quiet : ∀ {S : Set Session} {w : World ν} {q : Q} {e : Event}, e.session? = none → I S w q →
    ∃ q', T q [e] q' ∧ I S w q'
  still : ∀ {S : Set Session} {w w' : World ν} {q : Q}, env.Still w w' → I S w q →
    ∃ q', T q [] q' ∧ I S w' q'
  connect : ∀ {S : Set Session} (s : Session) {error : ErrorHandler ν},
    (∀ code text, (error code text).Guards T (I S)) →
      (s.connect env error).Follows T (Made (I S) s) (Session.Leads (I S) (I (insert s S)))
  request : ∀ {S : Set Session} {s : Session} {responseFail : ResponseHandler ν}
    {error : ErrorHandler ν}, s ∈ S → HandlersGuard T (I S) responseFail error →
      ∀ api body, (RpcSession.request env api s body responseFail error).Guards T (I S)
  get : ∀ {S : Set Session} {c : Http.Client ν}, c.session ∈ S →
    (∀ code text, (c.error code text).Guards T (I S)) → (c.get env).Guards T (I S)

/-- How a connect ends: with a client whose session is connected, or with none. -/
def Connected {C : Type} (I : Set Session → World ν → Q → Prop) (S : Set Session)
    (session : C → Session) (given : C → Prop) (o : Outcome Exn Stop (Option C)) (w : World ν)
    (q : Q) : Prop :=
  match o with
  | .ret (some c) => I (insert (session c) S) w q ∧ given c
  | _ => I S w q

/-- A function of a client sends at most one request. -/
theorem Rpc.ClientOp.run_graded {G : ℕ → {α : Type} → M ν α → Prop} (hG : SessionGraded env G)
    {c : Client ν} (hc : c.Grades G env api) (op : ClientOp) : G 1 (op.run env api c) := by
  cases op with
  | ping => exact hG.map _ (Client.ping_graded hG hc)
  | getCurrentBlockId => exact hG.map _ (Client.getCurrentBlockId_graded hG hc)
  | sendTransaction pair x => exact hG.map _ (Client.sendTransaction_graded hG hc pair x)
  | _ => exact hG.map _ (Client.query_graded hG hc _ _)

theorem Connected.tryCatch [Monitor T] {C : Type} {x : M ν (Option C)} {session : C → Session}
    {given : C → Prop} (hx : x.Follows T (I S) (Connected I S session given)) :
    (x.tryCatch fun _ => pure none).Follows T (I S) (Connected I S session given) :=
  Prog.Follows.tryCatch hx (fun _ _ _ h => h) (fun _ => .pure fun _ _ h => h) fun _ _ _ h => h

theorem useClient_guards [Monitor T] {C : Type} {cs : List C} (i : ℕ) {f : C → M ν Unit}
    (hf : ∀ c ∈ cs, (f c).Guards T (I S)) : (useClient cs i f).Guards T (I S) := by
  unfold useClient
  split
  · exact (hf _ (List.mem_of_getElem? ‹_›)).tryCatch fun _ => .pure fun _ _ h => h
  · exact .pure fun _ _ h => h

namespace SessionRules

variable [Monitor T] (hI : SessionRules env T I)
include hI

theorem graded (S : Set Session) :
    SessionGraded env fun _ {α} (x : M ν α) => x.Guards T (I S) :=
  Prog.graded_guards hI.quiet hI.still

theorem log (S : Set Session) : HandlersGuard T (I S) logResponse logError where
  responseFail _ _ _ := (hI.graded S).emit rfl
  error _ _ := (hI.graded S).emit rfl

omit [Monitor T] in
theorem grades {c : Rpc.Client ν} (hs : c.session ∈ S)
    (hh : HandlersGuard T (I S) c.responseFail c.error) :
    c.Grades (fun _ {α} (x : M ν α) => x.Guards T (I S)) env api where
  request := hI.request hs hh api
  error := hh.error

section Connect

variable (herror : ∀ code text, (error code text).Guards T (I S))
include herror

/-- What both kinds of clients do after the url was parsed: they make a client with a new session,
and connect that. -/
theorem makeConnect {C : Type} {session : C → Session} {given : C → Prop} {make : M ν C}
    (hmake : ∀ w : World ν, ∃ c, (session c).handle = w.sessions ∧ given c ∧
      make w = ⟨.ret c, [], { w with sessions := w.sessions + 1 }⟩) :
    (do
      let c ← make
      if ← (session c).connect env error then pure (some c) else pure none).Follows T (I S)
        (Connected I S session given) := by
  intro w q hq
  obtain ⟨c, hhandle, hgiven, hrun⟩ := hmake w
  rw [Prog.bind_of_ret hrun]
  have hconnect : (do
      if ← (session c).connect env error then pure (some c) else pure none).Follows T
        (Made (I S) (session c)) (Connected I S session given) := by
    refine (hI.connect (session c) herror).bind (fun b => ?_) (fun _ _ _ h => h)
      fun _ _ _ h => h
    cases b with
    | true => exact .pure fun w q h => ⟨h, hgiven⟩
    | false => exact .pure fun w q h => h
  exact Prog.Follows.prepend (R := Connected I S session given) q (Monitor.nil q)
    (hconnect _ q ⟨w, hq, hhandle, rfl⟩)

theorem rpcConnect (urlString : String) (verifySsl : Bool) :
    (Rpc.Client.connect env urlString verifySsl responseFail error).Follows T (I S)
      (Connected I S Rpc.Client.session fun c =>
        c.responseFail = responseFail ∧ c.error = error) := by
  refine Prog.Follows.bind (Url.parse_graded (hI.graded S) herror urlString)
    (fun url => ?_) (fun _ _ _ h => h) fun _ _ _ h => h
  cases url with
  | none => exact .pure fun _ _ h => h
  | some url => exact hI.makeConnect herror fun w => ⟨_, rfl, ⟨rfl, rfl⟩, rfl⟩

theorem httpConnect (urlString : String) (verifySsl : Bool) :
    (Http.Client.connect env urlString verifySsl error).Follows T (I S)
      (Connected I S Http.Client.session fun c => c.error = error) := by
  refine Prog.Follows.bind (Url.parse_graded (hI.graded S) herror urlString)
    (fun url => ?_) (fun _ _ _ h => h) fun _ _ _ h => h
  cases url with
  | none => exact .pure fun _ _ h => h
  | some url => exact hI.makeConnect herror fun w => ⟨_, rfl, rfl, rfl⟩

end Connect

/-- A connect, and then the rest with a session more that is connected, or without. -/
theorem connectBind {C α : Type} {x : M ν (Option C)} {session : C → Session} {given : C → Prop}
    {f : Option C → M ν α} (hx : x.Follows T (I S) (Connected I S session given))
    (hsome : ∀ c, given c → (f (some c)).Guards T (I (insert (session c) S)))
    (hnone : (f none).Guards T (I S)) : (x >>= f).Guards T (I S) := by
  refine hx.bind (fun r => ?_) (fun _ _ _ h => h) fun _ _ _ h => h
  cases r with
  | none => exact hnone
  | some c =>
    intro w q h
    obtain ⟨q', hrun, hq'⟩ := hsome c h.2 w q h.1
    exact ⟨q', hrun, hI.subset (Set.subset_insert _ _) hq'⟩

end SessionRules

/-- The clients have the handlers of the program, and their sessions are connected. -/
structure Clients.Ready (S : Set Session) (responseFail : ResponseHandler ν)
    (error : ErrorHandler ν) (cs : Clients ν) : Prop where
  rpc : ∀ c ∈ cs.rpc, c.session ∈ S ∧ c.responseFail = responseFail ∧ c.error = error
  http : ∀ c ∈ cs.http, c.session ∈ S ∧ c.error = error

/-- **A program keeps what the operations keep.**  By induction on the steps: the sessions of the
clients are connected, and more clients are made. -/
theorem SessionRules.runActs [Monitor T] (hI : SessionRules env T I)
    (api : Api) (hh : ∀ S, HandlersGuard T (I S) responseFail error) (acts : List Act) :
    ∀ (S : Set Session) (cs : Clients ν), cs.Ready S responseFail error →
      (runActs env api responseFail error cs acts).Guards T (I S) := by
  induction acts with
  | nil => exact fun S cs _ => (hI.graded S).pure ()
  | cons act acts ih =>
    intro S cs hcs
    have hG := hI.graded S
    cases act with
    | connect urlString verifySsl =>
      refine hI.connectBind (Connected.tryCatch (hI.rpcConnect (hh S).error urlString verifySsl))
        (fun c hc => ih _ _ ⟨fun c' hc' => ?_, fun c' hc' => ?_⟩) ?_
      · rcases List.mem_append.1 hc' with hc' | hc'
        · exact ⟨Set.mem_insert_of_mem _ (hcs.rpc c' hc').1, (hcs.rpc c' hc').2⟩
        · obtain rfl : c' = c := by simpa using hc'
          exact ⟨Set.mem_insert _ _, hc⟩
      · exact ⟨Set.mem_insert_of_mem _ (hcs.http c' hc').1, (hcs.http c' hc').2⟩
      · simpa using ih S cs hcs
    | httpConnect urlString verifySsl =>
      refine hI.connectBind (Connected.tryCatch (hI.httpConnect (hh S).error urlString verifySsl))
        (fun c hc => ih _ _ ⟨fun c' hc' => ?_, fun c' hc' => ?_⟩) ?_
      · exact ⟨Set.mem_insert_of_mem _ (hcs.rpc c' hc').1, (hcs.rpc c' hc').2⟩
      · rcases List.mem_append.1 hc' with hc' | hc'
        · exact ⟨Set.mem_insert_of_mem _ (hcs.http c' hc').1, (hcs.http c' hc').2⟩
        · obtain rfl : c' = c := by simpa using hc'
          exact ⟨Set.mem_insert _ _, hc⟩
      · simpa using ih S cs hcs
    | op i op =>
      refine (useClient_guards i fun c hc => ?_).bind fun _ => ih S cs hcs
      obtain ⟨hs, hfail, herror⟩ := hcs.rpc c hc
      exact op.run_graded hG (hI.grades hs (hfail ▸ herror ▸ hh S))
    | call i method params =>
      refine (useClient_guards i fun c hc => hG.map (n := 2) _ ?_).bind fun _ => ih S cs hcs
      obtain ⟨hs, hfail, herror⟩ := hcs.rpc c hc
      exact Rpc.Client.call_graded hG (hI.grades hs (hfail ▸ herror ▸ hh S))
    | get i =>
      refine (useClient_guards i fun c hc => hG.map (n := 0) _ ?_).bind fun _ => ih S cs hcs
      obtain ⟨hs, herror⟩ := hcs.http c hc
      exact hI.get hs (herror ▸ (hh S).error)

end MileRpc
