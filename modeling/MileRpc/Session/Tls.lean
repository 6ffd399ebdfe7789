import MileRpc.Session.Basic

/-!
# Which certificate chains a session accepts

A session for https with `verify = true` sets a verify mode that takes the callback into account,
but installs a callback that answers `verify_ssl` without looking at the verdict of OpenSSL
(`Session.verifyCallback`).  So it accepts every chain (`Session.acceptsChain_eq_true`), and
`connect` returns true whenever the network lets the handshake complete
(`Session.connect_eq_true_iff`).
-/

namespace MileRpc

namespace Session

variable {ν : Type}

/-- No session refuses a chain: with `verify_ssl` the callback accepts every certificate, and
without it the mode ignores the callback. -/
theorem acceptsChain_eq_true (s : Session) (chain : List Bool) : s.acceptsChain chain = true := by
  unfold acceptsChain verifyMode
  cases h : s.verifySsl
  · rfl
  · simp [verifyCallback, h]

theorem handshakeIo_eq (s : Session) (h : Handshake) : s.handshakeIo h = h.io := by
  simp [handshakeIo, acceptsChain_eq_true]

/-- The handshake at which a TLS session arrives if the name resolves, the TCP connection is made
and the handshake runs to its end; `none` if the network stops it before. -/
def presented (env : Env ν) (s : Session) (n : ν) : Option Handshake :=
  let (endpoints, n) := env.resolve s n
  let (named, n) := env.setTlsextHostName s n
  let (connected, n) := env.asyncConnect s n
  let (started, n) := env.startHandshake s n
  match endpoints, named, connected, started, (env.handshake s n).1 with
  | .ok (_ + 1), .ok true, .ok ⟨none, true⟩, .ok (), .ok h => some h
  | _, _, _, _, _ => none

theorem report_ne_true {error : ErrorHandler ν} {code : ResultCode} {text : String} (w : World ν) :
    ((do error code text; pure false : M ν Bool) w).outcome ≠ .ret true := by
  rw [ne_eq, Prog.bind_outcome_eq_ret_iff]
  rintro ⟨_, -, h⟩
  simp at h

/-- What follows a stage check runs only after a successful stage, in an unchanged world. -/
theorem checkStage_bind_eq_true_iff {s : Session} {stage : String} {io : Io}
    {error : ErrorHandler ν} {k : M ν Bool} {w : World ν} :
    ((do if ← s.checkStage stage io error then k else pure false : M ν Bool) w).outcome =
      .ret true ↔ io = .success ∧ (k w).outcome = .ret true := by
  rw [← Io.failed_eq_false]
  unfold checkStage
  cases hio : io.failed
  · simp
  · simp only [↓reduceIte, Prog.bind_outcome_eq_ret_iff, Bool.true_eq_false, false_and, iff_false]
    rintro ⟨b, ⟨_, -, hb⟩, h⟩
    simp only [Prog.pure_apply, Outcome.ret.injEq] at hb
    subst hb
    simp at h

theorem checkStage_eq_true_iff {s : Session} {stage : String} {io : Io} {error : ErrorHandler ν}
    {w : World ν} : (s.checkStage stage io error w).outcome = .ret true ↔ io = .success := by
  rw [← Io.failed_eq_false]
  unfold checkStage
  cases hio : io.failed
  · simp
  · simpa using report_ne_true w

theorem connectTls_eq_true_iff {env : Env ν} {s : Session} {error : ErrorHandler ν} {w : World ν} :
    (s.connectTls env error w).outcome = .ret true ↔
      (env.asyncConnect s w.net).1 = .ok .success ∧
        (env.startHandshake s (env.asyncConnect s w.net).2).1 = .ok () := by
  unfold connectTls
  rw [Prog.tryCatch_outcome_eq_ret_iff]
  · rw [perform_bind_apply, Run.prepend_outcome]
    cases hc : (env.asyncConnect s w.net).1 with
    | error e => simp [Prog.bind_apply]
    | ok io =>
      rw [Prog.ofExcept_ok, pure_bind, checkStage_bind_eq_true_iff, Except.ok.injEq]
      refine and_congr_right fun _ => ?_
      rw [perform_bind_apply, Run.prepend_outcome, World.setNet_net]
      cases (env.startHandshake s (env.asyncConnect s w.net).2).1 <;> simp [Prog.bind_apply]
  · intro e w
    cases e.what? with
    | some what => exact report_ne_true w
    | none => simp

theorem connectTls_of_success {env : Env ν} {s : Session} (error : ErrorHandler ν) {w : World ν}
    (hc : (env.asyncConnect s w.net).1 = .ok .success)
    (hh : (env.startHandshake s (env.asyncConnect s w.net).2).1 = .ok ()) :
    s.connectTls env error w =
      ⟨.ret true, [.tcpConnect s (.ok .success), .startHandshake s (.ok ())],
        w.setNet (env.startHandshake s (env.asyncConnect s w.net).2).2⟩ := by
  unfold connectTls
  rw [Prog.tryCatch_of_ret]
  simp [hc, hh, checkStage, Io.failed, Io.success, World.setNet, Run.prepend]

theorem tlsStages_eq_true_iff {env : Env ν} {s : Session} {error : ErrorHandler ν} {w : World ν} :
    ((do
      if ← s.connectTls env error then do
        let h ← perform (env.handshake s) (.handshake s)
        let h ← Prog.ofExcept h
        s.checkStage "SSL Handshake timeout" (s.handshakeIo h) error
      else pure false : M ν Bool) w).outcome = .ret true ↔
      (env.asyncConnect s w.net).1 = .ok .success ∧
        (env.startHandshake s (env.asyncConnect s w.net).2).1 = .ok () ∧
        ∃ h, (env.handshake s (env.startHandshake s (env.asyncConnect s w.net).2).2).1 = .ok h ∧
          h.io = .success := by
  by_cases hc : (env.asyncConnect s w.net).1 = .ok .success ∧
      (env.startHandshake s (env.asyncConnect s w.net).2).1 = .ok ()
  · rw [Prog.bind_of_ret (connectTls_of_success error hc.1 hc.2)]
    simp only [↓reduceIte, Run.prepend_outcome, perform_bind_apply, World.setNet_net, hc.1, hc.2,
      true_and]
    rcases (env.handshake s (env.startHandshake s (env.asyncConnect s w.net).2).2).1 with e | h
    · simp [Prog.bind_apply]
    · simp [checkStage_eq_true_iff, handshakeIo_eq]
  · rw [Prog.bind_outcome_eq_ret_iff]
    constructor
    · rintro ⟨b, hb, hret⟩
      cases b with
      | false => simp at hret
      | true => exact absurd (connectTls_eq_true_iff.1 hb) hc
    · rintro ⟨h1, h2, -⟩
      exact absurd ⟨h1, h2⟩ hc

theorem presented_eq_some_iff {env : Env ν} {s : Session} {n : ν} {h : Handshake} :
    s.presented env n = some h ↔
      (∃ k, (env.resolve s n).1 = .ok (k + 1)) ∧
      (env.setTlsextHostName s (env.resolve s n).2).1 = .ok true ∧
      (env.asyncConnect s (env.setTlsextHostName s (env.resolve s n).2).2).1 = .ok .success ∧
      (env.startHandshake s
        (env.asyncConnect s (env.setTlsextHostName s (env.resolve s n).2).2).2).1 = .ok () ∧
      (env.handshake s (env.startHandshake s
        (env.asyncConnect s (env.setTlsextHostName s (env.resolve s n).2).2).2).2).1 = .ok h := by
  simp only [presented, Io.success]
  split
  · rename_i h1 h2 h3 h4 h5
    simp [h1, h2, h3, h4, h5]
  · rename_i hno
    simp only [reduceCtorEq, false_iff]
    rintro ⟨⟨k, h1⟩, h2, h3, h4, h5⟩
    exact hno k h h1 h2 h3 h4 h5

/-- **When a TLS session connects**: exactly when the network lets the handshake complete,
whatever the verdicts on the chain. -/
theorem connect_eq_true_iff {env : Env ν} {s : Session} {error : ErrorHandler ν} {w : World ν}
    (hs : s.useSsl = true) :
    (s.connect env error w).outcome = .ret true ↔
      ∃ h, s.presented env w.net = some h ∧ h.io = .success := by
  unfold connect
  rw [Prog.tryCatch_outcome_eq_ret_iff]
  · simp only [presented_eq_some_iff, connectBody, perform_bind_apply, Run.prepend_outcome, hs,
      ↓reduceIte]
    rcases hr : (env.resolve s w.net).1 with e | k
    · simp [Prog.bind_apply]
    rw [Prog.ofExcept_ok, pure_bind]
    cases k with
    | zero => simpa using report_ne_true (w.setNet (env.resolve s w.net).2)
    | succ k =>
      simp only [Nat.add_eq_zero_iff, Nat.one_ne_zero, and_false, ↓reduceIte, perform_bind_apply,
        Run.prepend_outcome, World.setNet_net, Except.ok.injEq, Nat.add_right_cancel_iff,
        exists_eq', true_and]
      rcases hn : (env.setTlsextHostName s (env.resolve s w.net).2).1 with e | b
      · simp [Prog.bind_apply]
      rw [Prog.ofExcept_ok, pure_bind]
      cases b with
      | false => simpa using report_ne_true _
      | true =>
        simp only [↓reduceIte]
        rw [tlsStages_eq_true_iff]
        simp only [World.setNet_net, true_and]
        constructor
        · rintro ⟨h1, h2, h, h3, hio⟩
          exact ⟨h, ⟨h1, h2, h3⟩, hio⟩
        · rintro ⟨h, ⟨h1, h2, h3⟩, hio⟩
          exact ⟨h1, h2, h, h3, hio⟩
  · intro e w
    cases e.what? <;> exact report_ne_true w

/-- The chain presented to `s` was verified: OpenSSL preverified each of its certificates. -/
def ChainVerified (env : Env ν) (s : Session) (n : ν) : Prop :=
  ∀ h, s.presented env n = some h → ∀ v ∈ h.chain, v = true

/-- The network lets the handshake of `s` complete. -/
def HandshakeCompletes (env : Env ν) (s : Session) (n : ν) : Prop :=
  ∃ h, s.presented env n = some h ∧ h.io = .success

/-- **When a verifying session verifies.**  For a session made for https with `verify = true`,
"`connect` returns true only for a verified chain" holds exactly if the chain is verified or the
network does not let the handshake complete. -/
theorem connect_verifies_iff (env : Env ν) (host : String) (port : UInt16) (target : String)
    (timeout : ℤ) (w₀ w : World ν) (error : ErrorHandler ν) (s : Session)
    (hs : (make host port target .https true timeout w₀).outcome = .ret s) :
    ((s.connect env error w).outcome = .ret true → s.ChainVerified env w.net) ↔
      s.ChainVerified env w.net ∨ ¬ s.HandshakeCompletes env w.net := by
  have hssl : s.useSsl = true := by
    simp only [make, Prog.modifyGet_apply, Outcome.ret.injEq] at hs
    rw [← hs]
    rfl
  rw [connect_eq_true_iff hssl, imp_iff_not_or, or_comm]
  rfl

/-- An outside in which every step succeeds and the peer presents the chain `chain`. -/
def presentingEnv (chain : List Bool) : Env Unit :=
  { Env.answering fun n => (⟨200, ""⟩, n) with
    handshake := fun _ n => (.ok ⟨chain, .success⟩, n) }

/-- The same for a chain of two certificates, the second not preverified. -/
theorem connect_verifies_iff_two :
    ((connect (presentingEnv [true, false]) ⟨0, true, true, "h", "443", "/", 3⟩ logError
          (World.init ())).outcome = .ret true →
        ChainVerified (presentingEnv [true, false]) ⟨0, true, true, "h", "443", "/", 3⟩ ()) ↔
      ChainVerified (presentingEnv [true, false]) ⟨0, true, true, "h", "443", "/", 3⟩ () ∨
        ¬ HandshakeCompletes (presentingEnv [true, false]) ⟨0, true, true, "h", "443", "/", 3⟩ () :=
  connect_verifies_iff (presentingEnv [true, false]) "h" 443 "/" 3 (World.init ()) (World.init ())
    logError ⟨0, true, true, "h", "443", "/", 3⟩ rfl

/-- A verifying session connects to a peer whose only certificate was refused. -/
theorem connect_accepts_unverified :
    (make "h" 443 "/" .https true 3 (World.init ())).outcome =
        .ret ⟨0, true, true, "h", "443", "/", 3⟩ ∧
      (connect (presentingEnv [false]) ⟨0, true, true, "h", "443", "/", 3⟩ logError
        (World.init ())).outcome = .ret true ∧
      ¬ ChainVerified (presentingEnv [false]) ⟨0, true, true, "h", "443", "/", 3⟩ () := by
  refine ⟨rfl, rfl, fun h => ?_⟩
  simpa using h ⟨[false], .success⟩ rfl false

end Session

end MileRpc
