import MileRpc.Session.Failure
import MileRpc.Cli.TransferStatus
import MileRpc.Cli.WalletStatus

/-!
# The attempts to connect

Both tools promise to try again `--reconnections` times if any connection error occurred.  Both of
their error handlers start the next attempt for an error with the code `FAIL` only
(`Reconnects`), and a connect reports a resolution without endpoints, and a connect or a handshake
that ends with an error, with another code.

So a tool that cannot connect makes as many attempts as it promises exactly if none of these
failures comes before the last attempt (`reconnections_iff`); the transfer tool never tries again in
a test.
-/

namespace MileRpc

/-- The number of attempts that were started. -/
def attempts (t : List Event) : ℕ := t.countP Event.isAttempt

@[simp] theorem attempts_append (t u : List Event) :
    attempts (t ++ u) = attempts t + attempts u := List.countP_append

theorem attempts_eq_zero {t : List Event} (ht : ∀ e ∈ t, e.isAttempt = false) : attempts t = 0 :=
  List.countP_eq_zero.2 fun e he => by simp [ht e he]

/-- A failure that is not retried comes after the start of `n` attempts. -/
def Late (n : ℕ) (t : List Event) : Prop :=
  ∀ pre e post, t = pre ++ e :: post → e.isUnretried = true → n ≤ attempts pre

theorem late_of_retried {n : ℕ} {t : List Event} (ht : Retried t) : Late n t := by
  rintro pre e post rfl he
  have := ht e (by simp)
  simp [this] at he

theorem late_zero (t : List Event) : Late 0 t := fun _ _ _ _ _ => Nat.zero_le _

theorem late_append {n : ℕ} {t u : List Event} :
    Late n (t ++ u) ↔ Late n t ∧ Late (n - attempts t) u := by
  constructor
  · refine fun h => ⟨fun pre e post ht he => ?_, fun pre e post hu he => ?_⟩
    · exact h pre e (post ++ u) (by rw [ht, List.append_assoc, List.cons_append]) he
    · have := h (t ++ pre) e post (by rw [hu, List.append_assoc]) he
      rw [attempts_append] at this
      omega
  · rintro ⟨ht, hu⟩ pre e post heq he
    rcases List.append_eq_append_iff.1 heq with ⟨mid, rfl, hmid⟩ | ⟨mid, rfl, hmid⟩
    · have := hu mid e post hmid he
      rw [attempts_append]
      omega
    · cases mid with
      | nil =>
        have := hu [] e post (by simpa using hmid.symm) he
        have hnil : attempts [] = 0 := rfl
        rw [List.append_nil] at this
        omega
      | cons e' mid =>
        obtain ⟨rfl, -⟩ := List.cons.inj hmid
        exact ht pre e mid rfl he

/-- A failure that is not retried, when one attempt has started. -/
theorem late_iff_of_unretried {n : ℕ} {t : List Event} (ht : attempts t = 0) (h : ¬ Retried t) :
    Late n t ↔ n = 0 := by
  constructor
  · intro hlate
    simp only [Retried, not_forall, Bool.not_eq_false] at h
    obtain ⟨e, he, hun⟩ := h
    obtain ⟨pre, post, rfl⟩ := List.append_of_mem he
    have := hlate pre e post rfl hun
    rw [attempts_append] at ht
    omega
  · rintro rfl
    exact late_zero t

theorem Working.attempts {t : List Event} (ht : Working Event.isConnect t) :
    MileRpc.attempts t = 0 := by
  refine attempts_eq_zero fun e he => ?_
  have := ht e he
  cases e <;> first | rfl | cases this

theorem FailsWith.trace {ν : Type} {x : ErrorHandler ν → M ν Bool} {w w' : World ν}
    {io : List Event} {code : ResultCode} {text : String} (h : FailsWith x w io w' code text)
    {error : ErrorHandler ν} (hno : (error code text w').outcome.NoThrow) :
    (x error w).trace = io ++ (error code text w').trace ∧
      ((x error w).outcome = .ret false ∨ ∃ s, (x error w).outcome = .stop s) := by
  rw [h.run error hno]
  rcases herror : error code text w' with ⟨_ | e | s, t, w''⟩
  · rw [Prog.bind_of_ret herror]
    simp
  · rw [herror] at hno
    exact absurd rfl (hno e)
  · rw [Prog.bind_of_stop herror]
    simp

/-- Every attempt of the run fails to connect. -/
structure Unconnected (t : List Event) : Prop where
  attempted : 0 < attempts t
  failed : ∀ e ∈ t, e.connects = false

namespace Cli

variable {ν : Type} {env : Env ν} {api : Api}

/-- The attempts to connect that the option `--reconnections` promises. -/
def promised (reconnections : ℤ) : ℕ := (max 1 reconnections).toNat

/-- The attempts that are left, the next one included. -/
def remaining (limit : ℤ) (w : World ν) : ℕ := (limit - w.reconnections - 1).toNat + 1

theorem remaining_of_lt {limit : ℤ} {w w' : World ν} (hw : w'.reconnections = w.reconnections)
    (h : ((w.reconnections + 1 : ℕ) : ℤ) < limit) :
    remaining limit w = remaining limit w'.counted + 1 := by
  simp only [remaining, World.counted, hw]
  omega

theorem remaining_of_le {limit : ℤ} {w : World ν} (h : limit ≤ ((w.reconnections + 1 : ℕ) : ℤ)) :
    remaining limit w = 1 := by
  simp only [remaining]
  omega

/-- In a run in which no session is connected, `n` attempts are started exactly if the failures that
are not retried come late. -/
def Tries {α : Type} (n : ℕ) (r : Run (World ν) Event Exn Stop α) : Prop :=
  (∀ e ∈ r.trace, e.connects = false) →
    r.outcome.NoThrow ∧ (attempts r.trace = n ↔ Late n r.trace)

/-- An error handler that starts `doRequest` again after an error with the code `FAIL`, if attempts
are left, and else does nothing more. -/
structure Reconnects (limit : ℤ) (doRequest : M ν Unit) (error : ErrorHandler ν) : Prop where
  again : ∀ text w, ((w.reconnections + 1 : ℕ) : ℤ) < limit →
    error .fail text w = (doRequest w.counted).prepend (logged .fail text w)
  last : ∀ code text w, code ≠ .fail ∨ limit ≤ ((w.reconnections + 1 : ℕ) : ℤ) →
    ∃ o w', o.NoThrow ∧ error code text w = ⟨o, logged code text w, w'⟩

theorem attempts_logged (code : ResultCode) (text : String) (w : World ν) :
    attempts (logged code text w) = 0 := rfl

theorem retried_logged (code : ResultCode) (text : String) (w : World ν) :
    Retried (logged code text w) := by
  simp [logged, Retried, Event.isUnretried]

theorem attempts_start (t : List Event) : attempts (.doRequest :: t) = attempts t + 1 :=
  List.countP_cons_of_pos rfl

theorem late_start {n : ℕ} {t : List Event} : Late n (.doRequest :: t) ↔ Late (n - 1) t := by
  have hstart : Late n [.doRequest] := late_of_retried (by simp [Retried, Event.isUnretried])
  have hone : attempts [.doRequest] = 1 := rfl
  rw [← List.singleton_append, late_append, hone]
  simp [hstart]

section Attempt

variable {limit : ℤ} {doRequest : M ν Unit} {error : ErrorHandler ν}

/-- The retries that follow a failure of a connect. -/
theorem failure_tries (he : Reconnects limit doRequest error) {w : World ν} {code : ResultCode}
    {text : String} {io : List Event} (hio : attempts io = 0) (hcode : code = .fail ↔ Retried io)
    (hnext : ((w.reconnections + 1 : ℕ) : ℤ) < limit →
      Tries (remaining limit w.counted) (doRequest w.counted))
    (hnone : ∀ e ∈ (error code text w).trace, e.connects = false) :
    (error code text w).outcome.NoThrow ∧
      (attempts (.doRequest :: (io ++ (error code text w).trace)) = remaining limit w ↔
        Late (remaining limit w) (.doRequest :: (io ++ (error code text w).trace))) := by
  have hlogged := retried_logged code text w
  rw [attempts_start, late_start, late_append, attempts_append, hio]
  by_cases hagain : code = .fail ∧ ((w.reconnections + 1 : ℕ) : ℤ) < limit
  · -- the rest is the retry
    obtain ⟨rfl, hlt⟩ := hagain
    rw [he.again text w hlt] at hnone ⊢
    obtain ⟨hno, htries⟩ := hnext hlt fun e he => hnone e (List.mem_append_right _ he)
    refine ⟨hno, ?_⟩
    rw [Run.prepend_trace, late_append, attempts_append, attempts_logged, remaining_of_lt rfl hlt,
      Nat.add_sub_cancel, Nat.sub_zero, Nat.sub_zero, ← htries]
    simp only [late_of_retried (hcode.1 rfl), late_of_retried hlogged, true_and]
    omega
  · rw [not_and_or, not_lt] at hagain
    obtain ⟨o, w', hno, herror⟩ := he.last code text w hagain
    rw [herror] at hnone ⊢
    refine ⟨hno, ?_⟩
    change 0 + attempts (logged code text w) + 1 = _ ↔ _ ∧ Late _ (logged code text w)
    rw [attempts_logged]
    simp only [late_of_retried hlogged, and_true]
    by_cases hfail : code = .fail
    · -- no attempt is left
      have hlast : remaining limit w = 1 :=
        remaining_of_le (hagain.resolve_left (not_not.2 hfail))
      exact iff_of_true hlast.symm (late_of_retried (hcode.1 hfail))
    · rw [late_iff_of_unretried hio fun h => hfail (hcode.2 h)]
      simp only [remaining]
      omega

/-- **A connect that fails** starts the attempts that are left exactly if all its failures but the
last are retried. -/
theorem connect_tries (he : Reconnects limit doRequest error) (s : Session) {w : World ν}
    (hnext : ∀ w' : World ν, w'.reconnections = w.reconnections →
      ((w.reconnections + 1 : ℕ) : ℤ) < limit → Tries (remaining limit w'.counted)
        (doRequest w'.counted))
    (hnone : ∀ e ∈ (s.connect env error w).trace, e.connects = false) :
    ((s.connect env error w).outcome = .ret false ∨
        ∃ st, (s.connect env error w).outcome = .stop st) ∧
      (attempts (.doRequest :: (s.connect env error w).trace) = remaining limit w ↔
        Late (remaining limit w) (.doRequest :: (s.connect env error w).trace)) := by
  rcases s.connect_cases env w with ⟨io, n, ⟨e, hmem, hconnects⟩, hrun⟩ |
    ⟨io, n, code, text, hw, hcode, hfails⟩
  · rw [hrun] at hnone
    simp [hnone e hmem] at hconnects
  · have hbefore : ∀ e ∈ (error code text (w.setNet n)).trace, e.connects = false := fun e he =>
      hnone e ((hfails.before error).subset (List.mem_append_right _ he))
    obtain ⟨hno, htries⟩ := failure_tries he hw.attempts hcode (hnext (w.setNet n) rfl) hbefore
    obtain ⟨htrace, hout⟩ := hfails.trace hno
    rw [htrace]
    exact ⟨hout, htries⟩

/-- An attempt with a good url, of which `next` is what follows the connect. -/
theorem attempt_tries {address : String} {url : Url}
    (hurl : Url.parseResult address = .ok url) (he : Reconnects limit doRequest error)
    {next : Option (Rpc.Client ν) → M ν Unit} (hnext : next none = pure ()) {w : World ν}
    (hretry : ∀ w' : World ν, w'.reconnections = w.reconnections →
      ((w.reconnections + 1 : ℕ) : ℤ) < limit → Tries (remaining limit w'.counted)
        (doRequest w'.counted)) :
    Tries (remaining limit w) ((do
      Prog.emit .doRequest
      let rpc ← Rpc.Client.connect env address true logResponse error
      next rpc : M ν Unit) w) := by
  obtain ⟨c, w', -, -, hw, hrun⟩ :=
    Rpc.Client.connect_bind_apply hurl true logResponse error next w
  have hremaining : remaining limit w = remaining limit w' := by rw [remaining, remaining, hw]
  rw [Prog.bind_of_ret (Prog.emit_apply _ _), hrun, hremaining]
  intro hnone
  have hconnect : ∀ e ∈ (c.session.connect env error w').trace, e.connects = false := fun e he =>
    hnone e (List.mem_cons_of_mem _ (Prog.mem_trace_bind_left he))
  obtain ⟨hout, htries⟩ := connect_tries he c.session
    (fun w'' hw'' hlt => hretry w'' (hw''.trans hw) (by rwa [hw] at hlt)) hconnect
  rcases hr : c.session.connect env error w' with ⟨o, t, w''⟩
  rw [hr] at hout htries
  rcases hout with rfl | ⟨st, rfl⟩
  · rw [Prog.bind_of_ret hr]
    simpa [hnext, Run.prepend] using htries
  · rw [Prog.bind_of_stop hr]
    simpa [Run.prepend] using htries

end Attempt

/-! ### mile_cli_transfer -/

namespace Transfer

variable {opts : Options}

/-- The errors after which the process ends: one in a test. -/
def limit (opts : Options) : ℤ := if opts.test then 1 else opts.reconnections

theorem errorHandler_reconnects (doRequest : M ν Unit) :
    Reconnects (limit opts) doRequest (errorHandler opts doRequest) where
  again text w hlt := by
    rw [errorHandler_apply, if_neg, if_pos rfl]
    rw [not_or, not_le]
    unfold limit at hlt
    split_ifs at hlt with htest
    · omega
    · exact ⟨hlt, htest⟩
  last code text w hlast := by
    rw [errorHandler_apply]
    split_ifs with hexit hcode
    · exact ⟨.stop (.exit (-1)), w.counted, Outcome.noThrow_stop _, by simp [Run.prepend]⟩
    · -- attempts are left
      exfalso
      have hle := hlast.resolve_left (not_not.2 hcode)
      rw [not_or] at hexit
      rw [limit, if_neg hexit.2] at hle
      exact hexit.1 hle
    · exact ⟨.ret (), w.counted, Outcome.noThrow_ret _, by simp [Run.prepend]⟩

theorem doRequest_tries {url : Url} (hurl : Url.parseResult opts.nodeAddress = .ok url)
    (ppk : Option Pair) (fuel : ℕ) (w : World ν) (hfuel : remaining (limit opts) w ≤ fuel) :
    Tries (remaining (limit opts) w) (doRequest env api opts ppk fuel w) := by
  induction fuel generalizing w with
  | zero => exact absurd hfuel (by simp [remaining])
  | succ fuel ih =>
    refine attempt_tries hurl (errorHandler_reconnects _) rfl fun w' hw hlt => ih _ ?_
    rw [remaining_of_lt hw hlt] at hfuel
    exact Nat.le_of_succ_le_succ hfuel

theorem late_doRequest {ppk : Option Pair} {fuel : ℕ} (hfuel : 1 ≤ fuel) (w : World ν) :
    Late 1 (doRequest env api opts ppk fuel w).trace := by
  obtain ⟨fuel, rfl⟩ := Nat.exists_eq_succ_of_ne_zero (Nat.one_le_iff_ne_zero.1 hfuel)
  obtain ⟨t, ht⟩ : [Event.doRequest] <+: (doRequest env api opts ppk (fuel + 1) w).trace := by
    rw [doRequest, attempt]
    exact Prog.trace_prefix_bind (Prog.emit Event.doRequest) _ w
  rw [← ht, List.singleton_append, late_start]
  exact late_zero t

theorem main_eq_doRequest {typed : List String} {fuel : ℕ} {w : World ν}
    (h : 0 < attempts (main env api opts typed fuel w).trace) :
    ∃ ppk, main env api opts typed fuel w = doRequest env api opts ppk fuel w := by
  unfold main at h ⊢
  cases hkey : chooseKey api opts typed with
  | none =>
    rw [hkey] at h
    exact absurd h (lt_irrefl 0)
  | some key =>
    rcases hanswer : api.fromPrivateKey key with ⟨_ | ⟨r, rs⟩, x | ppk⟩ <;>
      simp only [hkey, hanswer] at h ⊢
    · exact absurd h (lt_irrefl 0)
    · exact ⟨ppk, rfl⟩
    · exact absurd h (lt_irrefl 0)
    · exact absurd h (lt_irrefl 0)

theorem doRequest_attempts_test {url : Url} (hurl : Url.parseResult opts.nodeAddress = .ok url)
    (htest : opts.test = true) {ppk : Option Pair} {fuel : ℕ} (hfuel : 1 ≤ fuel) {w : World ν}
    (h : ∀ e ∈ (doRequest env api opts ppk fuel w).trace, e.connects = false) :
    attempts (doRequest env api opts ppk fuel w).trace = 1 := by
  have hone : remaining (limit opts) w = 1 := by
    simp only [remaining, limit, htest, ↓reduceIte]
    omega
  have htries : Tries (remaining (limit opts) w) (doRequest env api opts ppk fuel w) :=
    doRequest_tries hurl ppk fuel w (hone.trans_le hfuel)
  rw [hone] at htries
  exact (htries h).2.2 (late_doRequest hfuel w)

/-- Else as many as the option promises, if the failures that are not retried come late. -/
theorem doRequest_attempts {url : Url} (hurl : Url.parseResult opts.nodeAddress = .ok url)
    (htest : opts.test = false) {ppk : Option Pair} {fuel : ℕ} (hfuel : 1 ≤ fuel)
    (hattempts : opts.reconnections ≤ fuel) {net : ν}
    (h : ∀ e ∈ (doRequest env api opts ppk fuel (World.init net)).trace, e.connects = false) :
    attempts (doRequest env api opts ppk fuel (World.init net)).trace =
        promised opts.reconnections ↔
      Late (promised opts.reconnections)
        (doRequest env api opts ppk fuel (World.init net)).trace := by
  have hinit : (World.init net).reconnections = 0 := rfl
  have hremaining : remaining (limit opts) (World.init net) = promised opts.reconnections := by
    simp only [remaining, limit, htest, promised, hinit, Bool.false_eq_true, ↓reduceIte]
    omega
  have hle : promised opts.reconnections ≤ fuel := by
    simp only [promised]
    omega
  have htries : remaining (limit opts) (World.init net) ≤ fuel →
      Tries (remaining (limit opts) (World.init net))
        (doRequest env api opts ppk fuel (World.init net)) :=
    doRequest_tries hurl ppk fuel (World.init net)
  rw [hremaining] at htries
  exact (htries hle h).2

theorem main_attempts {url : Url} (hurl : Url.parseResult opts.nodeAddress = .ok url)
    {typed : List String} {fuel : ℕ} (hfuel : 1 ≤ fuel) (hattempts : opts.reconnections ≤ fuel)
    {net : ν} (h : Unconnected (main env api opts typed fuel (World.init net)).trace) :
    attempts (main env api opts typed fuel (World.init net)).trace = promised opts.reconnections ↔
      (opts.test = true → opts.reconnections ≤ 1) ∧
        Late (promised opts.reconnections)
          (main env api opts typed fuel (World.init net)).trace := by
  obtain ⟨ppk, hmain⟩ := main_eq_doRequest h.attempted
  rw [hmain] at h ⊢
  cases htest : opts.test with
  | true =>
    rw [doRequest_attempts_test hurl htest hfuel h.failed]
    by_cases hr : opts.reconnections ≤ 1
    · have hpromised : promised opts.reconnections = 1 := by
        simp only [promised]
        omega
      rw [hpromised]
      exact iff_of_true rfl ⟨fun _ => hr, late_doRequest hfuel _⟩
    · refine iff_of_false ?_ fun hand => hr (hand.1 rfl)
      simp only [promised]
      omega
  | false =>
    rw [doRequest_attempts hurl htest hfuel hattempts h.failed]
    simp

end Transfer

/-! ### mile_cli_wallet -/

namespace Wallet

variable {opts : Options}

theorem errorHandler_reconnects (doRequest : M ν Unit) :
    Reconnects opts.reconnections doRequest (errorHandler opts doRequest) where
  again text w hlt := by
    rw [errorHandler_apply, if_neg (not_not.2 rfl), if_neg (not_le.2 hlt)]
  last code text w hlast := by
    rw [errorHandler_apply]
    split_ifs with hcode hexit
    · exact ⟨.stop (.exit (-1)), w, Outcome.noThrow_stop _, by simp [Run.prepend]⟩
    · exact ⟨.stop (.exit (-1)), w.counted, Outcome.noThrow_stop _, by simp [Run.prepend]⟩
    · exact absurd (hlast.resolve_left hcode) hexit

theorem doRequest_tries {url : Url} (hurl : Url.parseResult opts.nodeAddress = .ok url)
    (fuel : ℕ) (w : World ν) (hfuel : remaining opts.reconnections w ≤ fuel) :
    Tries (remaining opts.reconnections w) (doRequest env api opts fuel w) := by
  induction fuel generalizing w with
  | zero => exact absurd hfuel (by simp [remaining])
  | succ fuel ih =>
    refine attempt_tries hurl (errorHandler_reconnects _) rfl fun w' hw hlt => ih _ ?_
    rw [remaining_of_lt hw hlt] at hfuel
    exact Nat.le_of_succ_le_succ hfuel

theorem main_trace (env : Env ν) (api : Api) (opts : Options) (fuel : ℕ) (net : ν) :
    ∃ w : World ν, w.reconnections = 0 ∧
      (main env api opts fuel (World.init net)).trace = (doRequest env api opts fuel w).trace := by
  let w := { World.init net with timeout := opts.readTimeout }
  have hmain : main env api opts fuel (World.init net) =
      (doRequest env api opts fuel >>= fun _ => Prog.halt (.exit 0)) w := rfl
  refine ⟨w, rfl, ?_⟩
  rw [hmain]
  rcases hr : doRequest env api opts fuel w with ⟨⟨⟩ | e | s, t, w'⟩
  · rw [Prog.bind_of_ret hr]
    simp
  · rw [Prog.bind_of_throw hr]
  · rw [Prog.bind_of_stop hr]

theorem main_attempts {url : Url} (hurl : Url.parseResult opts.nodeAddress = .ok url)
    {fuel : ℕ} (hfuel : 1 ≤ fuel) (hattempts : opts.reconnections ≤ fuel) {net : ν}
    (h : Unconnected (main env api opts fuel (World.init net)).trace) :
    attempts (main env api opts fuel (World.init net)).trace = promised opts.reconnections ↔
      Late (promised opts.reconnections) (main env api opts fuel (World.init net)).trace := by
  obtain ⟨w, hw, htrace⟩ := main_trace env api opts fuel net
  rw [htrace] at h ⊢
  have hremaining : remaining opts.reconnections w = promised opts.reconnections := by
    simp only [remaining, hw, promised]
    omega
  have hle : remaining opts.reconnections w ≤ fuel := by
    simp only [remaining, hw]
    omega
  have htries : Tries (remaining opts.reconnections w) (doRequest env api opts fuel w) :=
    doRequest_tries hurl fuel w hle
  rw [hremaining] at htries
  exact (htries h.failed).2

end Wallet

/-- **When the attempts are those that are promised.**  In a run of a tool that reaches
`do_request`, with a good url, in which no attempt connects, as many attempts are made as
`--reconnections` promises exactly if every failure that is not retried comes after the start of the
last of them; the transfer tool makes one attempt only in a test. -/
theorem reconnections_iff (env : Env ν) (api : Api) {fuel : ℕ} (hfuel : 1 ≤ fuel) (net : ν) :
    (∀ (opts : Transfer.Options) (typed : List String) (url : Url),
      Url.parseResult opts.nodeAddress = .ok url → opts.reconnections ≤ fuel →
      Unconnected (Transfer.main env api opts typed fuel (World.init net)).trace →
      (Transfer.main env api opts typed fuel (World.init net)).outcome ≠ .stop .outOfFuel ∧
        (attempts (Transfer.main env api opts typed fuel (World.init net)).trace =
            promised opts.reconnections ↔
          (opts.test = true → opts.reconnections ≤ 1) ∧ Late (promised opts.reconnections)
            (Transfer.main env api opts typed fuel (World.init net)).trace)) ∧
    ∀ (opts : Wallet.Options) (url : Url),
      Url.parseResult opts.nodeAddress = .ok url → opts.reconnections ≤ fuel →
      Unconnected (Wallet.main env api opts fuel (World.init net)).trace →
      (Wallet.main env api opts fuel (World.init net)).outcome ≠ .stop .outOfFuel ∧
        (attempts (Wallet.main env api opts fuel (World.init net)).trace =
            promised opts.reconnections ↔
          Late (promised opts.reconnections)
            (Wallet.main env api opts fuel (World.init net)).trace) := by
  constructor
  · intro opts typed url hurl hattempts h
    exact ⟨Transfer.main_enough typed hfuel hattempts _,
      Transfer.main_attempts hurl hfuel hattempts h⟩
  · intro opts url hurl hattempts h
    exact ⟨Wallet.main_enough hfuel hattempts _, Wallet.main_attempts hurl hfuel hattempts h⟩

/-- A node behind a name that is never resolved. -/
def unresolvedNode : Env Unit :=
  { Env.answering (fun n => (⟨200, ""⟩, n)) with
    resolve := fun _ n => (.error (.std "Host not found"), n) }

/-- A node that refuses every connection. -/
def refusingNode : Env Unit :=
  { Env.answering (fun n => (⟨200, ""⟩, n)) with
    asyncConnect := fun _ n => (.ok ⟨some "Connection refused", false⟩, n) }

/-- A name that is never resolved is tried three times. -/
theorem reconnections_iff_unresolved :
    (attempts (Transfer.main unresolvedNode (.sample []) transferOptions [] 3
        (World.init ())).trace = promised 3 ↔
      (transferOptions.test = true → transferOptions.reconnections ≤ 1) ∧ Late (promised 3)
        (Transfer.main unresolvedNode (.sample []) transferOptions [] 3 (World.init ())).trace) ∧
    (attempts (Wallet.main unresolvedNode (.sample []) walletOptions 3
        (World.init ())).trace = promised 3 ↔
      Late (promised 3)
        (Wallet.main unresolvedNode (.sample []) walletOptions 3 (World.init ())).trace) := by
  have hurl : Url.parseResult "http://h" = .ok ⟨"http://h", .http, "h", 80, "", "", ""⟩ := by
    decide +kernel
  have hiff := reconnections_iff unresolvedNode (.sample []) (Nat.le_add_left 1 2) ()
  exact ⟨(hiff.1 transferOptions [] _ hurl (by decide) ⟨by decide +kernel, by decide +kernel⟩).2,
    (hiff.2 walletOptions _ hurl (by decide) ⟨by decide +kernel, by decide +kernel⟩).2⟩

/-- A refused connection is tried once. -/
theorem reconnections_fail :
    (Unconnected (Transfer.main refusingNode (.sample []) transferOptions [] 3
        (World.init ())).trace ∧
      attempts (Transfer.main refusingNode (.sample []) transferOptions [] 3
        (World.init ())).trace ≠ promised transferOptions.reconnections) ∧
    (Unconnected (Wallet.main refusingNode (.sample []) walletOptions 3 (World.init ())).trace ∧
      attempts (Wallet.main refusingNode (.sample []) walletOptions 3
        (World.init ())).trace ≠ promised walletOptions.reconnections) :=
  ⟨⟨⟨by decide +kernel, by decide +kernel⟩, by decide +kernel⟩,
    ⟨⟨by decide +kernel, by decide +kernel⟩, by decide +kernel⟩⟩

end Cli

end MileRpc
