import MileRpc.Rpc.Session

/-!
# One request and the outside

What a request does to the state of the outside, for handlers that leave it alone: one write, and
one read if the write was successful (`request_cases`).  A value that a request returns is always
the result of the response that this one read gave it, so whether it answers the request is up to
the order of the messages on the connection.
-/

namespace MileRpc

section Keeps

variable {ν α β : Type} {x : M ν α} {f : α → M ν β}

/-- `x` leaves the state of the outside alone. -/
def KeepsNet (x : M ν α) : Prop := ∀ w, (x w).state.net = w.net

theorem KeepsNet.bind (hx : KeepsNet x) (hf : ∀ a, KeepsNet (f a)) : KeepsNet (x >>= f) := by
  intro w
  have hw := hx w
  rcases hxw : x w with ⟨a | e | s, t, w'⟩
  · rw [hxw] at hw
    rw [Prog.bind_of_ret hxw]
    exact (hf a w').trans hw
  · rw [hxw] at hw
    rwa [Prog.bind_of_throw hxw]
  · rw [hxw] at hw
    rwa [Prog.bind_of_stop hxw]

theorem KeepsNet.pure (a : α) : KeepsNet (Pure.pure a : M ν α) := fun _ => rfl

theorem KeepsNet.emit (e : Event) : KeepsNet (Prog.emit e : M ν Unit) := fun _ => rfl

theorem KeepsNet.ofJson (r : Except JsonError α) : KeepsNet (MileRpc.ofJson r : M ν α) := by
  cases r with
  | ok a => exact KeepsNet.pure a
  | error e => exact fun _ => rfl

theorem KeepsNet.ask {g : ν → α × ν} (hg : ∀ n, (g n).2 = n) : KeepsNet (MileRpc.ask g) :=
  fun w => hg w.net

theorem KeepsNet.readMember {env : Env ν} (hs : ∀ n, (env.staleJson n).2 = n) (j : Json)
    (key : String) : KeepsNet (MileRpc.readMember env j key) := by
  refine KeepsNet.bind (KeepsNet.ofJson _) fun r => ?_
  cases r with
  | some v => exact KeepsNet.pure v
  | none =>
    refine KeepsNet.bind (KeepsNet.emit _) fun _ => KeepsNet.bind (KeepsNet.ask hs) fun a => ?_
    cases a with
    | some v => exact KeepsNet.pure v
    | none => exact fun _ => rfl

end Keeps

namespace RpcSession

variable {ν : Type} {env : Env ν} {api : Api} {s : Session} {body : Json}
  {responseFail : ResponseHandler ν} {error : ErrorHandler ν}

/-- The handlers leave the state of the outside alone. -/
structure Aloof (responseFail : ResponseHandler ν) (error : ErrorHandler ν) : Prop where
  responseFail : ∀ status method res, KeepsNet (responseFail status method res)
  error : ∀ code text, KeepsNet (error code text)

theorem failReply_keepsNet (hh : Aloof responseFail error) (hs : ∀ n, (env.staleJson n).2 = n)
    (res : HttpResponse) :
    KeepsNet (failReply env body res responseFail) :=
  KeepsNet.bind (KeepsNet.readMember hs _ _) fun _ => KeepsNet.bind (KeepsNet.ofJson _) fun _ =>
    KeepsNet.bind (hh.responseFail _ _ _) fun _ => KeepsNet.pure _

theorem decodeReply_keepsNet (hh : Aloof responseFail error)
    (hs : ∀ n, (env.staleJson n).2 = n) (res : HttpResponse) :
    KeepsNet (decodeReply env api body res responseFail) := by
  have hfail : KeepsNet (failReply env body res responseFail) := failReply_keepsNet hh hs res
  unfold decodeReply
  by_cases hok : res.status = HttpResponse.ok
  · simp only [hok, ↓reduceIte, pure_bind]
    refine KeepsNet.bind (KeepsNet.ofJson _) fun j => ?_
    cases resultMember j with
    | some r => exact KeepsNet.pure _
    | none => exact hfail
  · simp only [hok, ↓reduceIte, pure_bind]
    exact hfail

theorem decodeReply_value {res : HttpResponse} {v : Json} {w : World ν}
    (h : (decodeReply env api body res responseFail w).outcome = .ret (some v)) :
    api.replyResult res = some v := by
  have hfail : ∀ w, (failReply env body res responseFail w).outcome ≠ .ret (some v) := by
    intro w hw
    obtain ⟨m, -, hw⟩ := Prog.bind_outcome_eq_ret_iff.1 hw
    obtain ⟨m, -, hw⟩ := Prog.bind_outcome_eq_ret_iff.1 hw
    obtain ⟨m, -, hw⟩ := Prog.bind_outcome_eq_ret_iff.1 hw
    cases hw
  unfold decodeReply at h
  by_cases hok : res.status = HttpResponse.ok
  · simp only [hok, ↓reduceIte, pure_bind] at h
    cases hj : api.parse res.data with
    | error e => simp [hj, Prog.bind_apply] at h
    | ok j =>
      simp only [hj, ofJson_ok, pure_bind] at h
      cases hr : resultMember j with
      | none =>
        rw [hr] at h
        exact absurd h (hfail w)
      | some r =>
        simp only [hr, Prog.pure_apply, Outcome.ret.injEq, Option.some.injEq] at h
        simp [Api.replyResult, hok, hj, hr, h]
  · simp only [hok, ↓reduceIte, pure_bind] at h
    exact absurd h (hfail w)

/-- A write moves the outside by its operation, and is true exactly for a successful one. -/
theorem write_spec (env : Env ν) (s : Session) (hh : Aloof responseFail error) (req : HttpRequest)
    (w : World ν) :
    (s.write env req error w).state.net = (env.asyncWrite s req w.net).2 ∧
      ((s.write env req error w).outcome = .ret true ↔
        (env.asyncWrite s req w.net).1.result = .ok .success) := by
  unfold Session.write
  rw [perform_bind_apply]
  simp only [Run.prepend_state, Run.prepend_outcome]
  rcases (env.asyncWrite s req w.net).1.result with e | io
  · exact ⟨rfl, by simp [Prog.bind_apply]⟩
  · rw [Prog.ofExcept_ok, pure_bind, Except.ok.injEq, ← Io.failed_eq_false]
    cases hf : io.failed with
    | false => exact ⟨rfl, by simp⟩
    | true =>
      simp only [↓reduceIte]
      refine ⟨(hh.error _ _).bind (fun _ => KeepsNet.pure false) _, ?_⟩
      simp only [Bool.true_eq_false, iff_false]
      intro h
      obtain ⟨_, -, h⟩ := Prog.bind_outcome_eq_ret_iff.1 h
      cases h

/-- A read moves the outside by its operation, and returns the response of a successful one. -/
theorem read_spec (env : Env ν) (s : Session) (hh : Aloof responseFail error) (w : World ν) :
    (s.read env error w).state.net = (env.asyncRead s w.net).2 ∧
      ∀ res, (s.read env error w).outcome = .ret (some res) →
        (env.asyncRead s w.net).1.result = .ok .success ∧
          res = (env.asyncRead s w.net).1.response := by
  unfold Session.read
  rw [perform_bind_apply]
  simp only [Run.prepend_state, Run.prepend_outcome]
  rcases (env.asyncRead s w.net).1.result with e | io
  · exact ⟨rfl, by simp [Prog.bind_apply]⟩
  · rw [Prog.ofExcept_ok, pure_bind, Except.ok.injEq, ← Io.failed_eq_false]
    cases hf : io.failed with
    | false => exact ⟨rfl, by simp [eq_comm]⟩
    | true =>
      simp only [↓reduceIte]
      refine ⟨(hh.error _ _).bind (fun _ => KeepsNet.pure none) _, fun res h => ?_⟩
      obtain ⟨_, -, h⟩ := Prog.bind_outcome_eq_ret_iff.1 h
      cases h

/-- What a request does to the outside, from the state `n`. -/
inductive Exchanged (env : Env ν) (api : Api) (s : Session) (body : Json) (n : ν) :
    Outcome Exn Stop (Option Json) → ν → Prop
  /-- The body has no text: nothing is written. -/
  | unsent {o : Outcome Exn Stop (Option Json)} : (∀ data, api.dump body ≠ .ok data) →
      (∀ v, o ≠ .ret (some v)) → Exchanged env api s body n o n
  /-- The write was not successful: nothing is read. -/
  | unwritten {o : Outcome Exn Stop (Option Json)} {data : String} : api.dump body = .ok data →
      (env.asyncWrite s (postRequest s body data) n).1.result ≠ .ok .success →
      (∀ v, o ≠ .ret (some v)) →
      Exchanged env api s body n o (env.asyncWrite s (postRequest s body data) n).2
  /-- One response was asked for. -/
  | asked {o : Outcome Exn Stop (Option Json)} {data : String} : api.dump body = .ok data →
      (env.asyncWrite s (postRequest s body data) n).1.result = .ok .success →
      (∀ v, o = .ret (some v) →
        (env.asyncRead s (env.asyncWrite s (postRequest s body data) n).2).1.result =
            .ok .success ∧
          api.replyResult
            (env.asyncRead s (env.asyncWrite s (postRequest s body data) n).2).1.response =
              some v) →
      Exchanged env api s body n o
        (env.asyncRead s (env.asyncWrite s (postRequest s body data) n).2).2

theorem Exchanged.noValue {n n' : ν} {o o' : Outcome Exn Stop (Option Json)}
    (h : Exchanged env api s body n o n') (ho : ∀ v, o' ≠ .ret (some v)) :
    Exchanged env api s body n o' n' := by
  cases h with
  | unsent hd _ => exact .unsent hd ho
  | unwritten hd hw _ => exact .unwritten hd hw ho
  | asked hd hw _ => exact .asked hd hw fun v hv => absurd hv (ho v)

/-- What follows a successful write moves the outside by one read, and a value comes from the
response of that read. -/
theorem readReply_spec (api : Api) (body : Json) (hh : Aloof responseFail error)
    (hs : ∀ n, (env.staleJson n).2 = n) {x : M ν (Option Json)}
    (hx : x = s.read env error >>= fun r => match r with
      | some res => do
        Prog.emit (.reply body res)
        decodeReply env api body res responseFail
      | none => pure none) (w : World ν) :
    (x w).state.net = (env.asyncRead s w.net).2 ∧
      ∀ v, (x w).outcome = .ret (some v) →
        (env.asyncRead s w.net).1.result = .ok .success ∧
          api.replyResult (env.asyncRead s w.net).1.response = some v := by
  subst hx
  obtain ⟨hnet, hsome⟩ := read_spec env s hh w
  rcases hr : s.read env error w with ⟨(_ | res) | e | x, t, w'⟩
  · rw [hr] at hnet
    rw [Prog.bind_of_ret hr]
    exact ⟨hnet, by simp⟩
  · rw [hr] at hnet hsome
    rw [Prog.bind_of_ret hr]
    obtain ⟨hok, hres⟩ := hsome res rfl
    refine ⟨?_, fun v hv => ⟨hok, ?_⟩⟩
    · exact (KeepsNet.bind (KeepsNet.emit (.reply body res))
        (fun _ => decodeReply_keepsNet hh hs res) w').trans hnet
    · rw [← hres]
      exact decodeReply_value hv
  · rw [hr] at hnet
    rw [Prog.bind_of_throw hr]
    exact ⟨hnet, by simp⟩
  · rw [hr] at hnet
    rw [Prog.bind_of_stop hr]
    exact ⟨hnet, by simp⟩

theorem requestBody_exchanged (hh : Aloof responseFail error) (hs : ∀ n, (env.staleJson n).2 = n)
    (w : World ν) :
    Exchanged env api s body w.net (requestBody env api s body responseFail error w).outcome
      (requestBody env api s body responseFail error w).state.net := by
  unfold requestBody
  cases hd : api.dump body with
  | error e =>
    exact .unsent (by simp [hd]) (by simp [Prog.bind_apply])
  | ok data =>
    rw [ofJson_ok, pure_bind]
    obtain ⟨hnet, htrue⟩ := write_spec env s hh (postRequest s body data) w
    -- unless the write returned true, nothing is read
    have hunwritten : ∀ o n, n = (env.asyncWrite s (postRequest s body data) w.net).2 →
        (s.write env (postRequest s body data) error w).outcome ≠ .ret true →
        (∀ v, o ≠ .ret (some v)) → Exchanged env api s body w.net o n := by
      rintro o n rfl hne hv
      exact .unwritten hd (mt htrue.2 hne) hv
    rcases hw : s.write env (postRequest s body data) error w with ⟨(_ | _) | e | x, t, w'⟩
    · rw [hw] at hnet hunwritten
      rw [Prog.bind_of_ret hw]
      exact hunwritten _ _ hnet (by simp) (by simp)
    · rw [hw] at hnet htrue
      rw [Prog.bind_of_ret hw]
      simp only [↓reduceIte, Run.prepend_outcome, Run.prepend_state]
      obtain ⟨hread, hvalue⟩ := readReply_spec api body hh hs rfl w'
      have hw' : w'.net = (env.asyncWrite s (postRequest s body data) w.net).2 := hnet
      rw [hw'] at hread hvalue
      have hasked := Exchanged.asked hd (htrue.1 rfl) hvalue
      rwa [← hread] at hasked
    · rw [hw] at hnet hunwritten
      rw [Prog.bind_of_throw hw]
      exact hunwritten _ _ hnet (by simp) (by simp)
    · rw [hw] at hnet hunwritten
      rw [Prog.bind_of_stop hw]
      exact hunwritten _ _ hnet (by simp) (by simp)

/-- **One request and the outside**: one write, one read after a successful write, and a value only
from the response of that read. -/
theorem request_exchanged (hh : Aloof responseFail error) (hs : ∀ n, (env.staleJson n).2 = n)
    (w : World ν) :
    Exchanged env api s body w.net (request env api s body responseFail error w).outcome
      (request env api s body responseFail error w).state.net := by
  have hb : Exchanged env api s body w.net _ _ := requestBody_exchanged hh hs w
  have hcatch : ∀ e, KeepsNet (do
      CatchClause.handle (requestClauses s) error e
      pure none : M ν (Option Json)) := by
    intro e
    obtain ⟨code, text, heq⟩ := handle_eq s error e
    rw [heq]
    exact (hh.error code text).bind fun _ => KeepsNet.pure none
  unfold request
  change Exchanged env api s body w.net
    (((requestBody env api s body responseFail error).tryCatch _ w).outcome)
    (((requestBody env api s body responseFail error).tryCatch _ w).state.net)
  rcases hr : requestBody env api s body responseFail error w with ⟨r | e | x, t, w'⟩
  · rw [hr] at hb
    rwa [Prog.tryCatch_of_ret hr]
  · rw [hr] at hb
    rw [Prog.tryCatch_of_throw hr]
    -- the handler neither moves the outside nor gives a value
    have hnet := hcatch e w'
    simp only [Run.prepend_outcome, Run.prepend_state]
    rw [hnet]
    refine hb.noValue fun v hv => ?_
    obtain ⟨_, -, hv⟩ := Prog.bind_outcome_eq_ret_iff.1 hv
    cases hv
  · rw [hr] at hb
    rwa [Prog.tryCatch_of_stop hr]

end RpcSession

end MileRpc
