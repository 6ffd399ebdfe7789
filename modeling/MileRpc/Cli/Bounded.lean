import MileRpc.Cli.Reconnect
import MileRpc.Effect.Budget

/-!
# The number of attempts

Every retry is paid for by the counter that both error handlers share with all attempts of the run:
it is increased before `do_request` is called again, and only below `--reconnections`.  So a run
starts at most as many attempts as the option promises (`retries_bounded`), whatever fails and
however often, and with that much fuel the recursion ends: an outer attempt that fails again after
its retry has returned finds the counter where the retry left it.
-/

namespace MileRpc

namespace Cli

variable {ν : Type} {env : Env ν} {api : Api}

/-- The law that the attempts are paid for by the retry counter. -/
def bounded (ν : Type) (reconnections : ℤ) : Law (World ν) Event Stop :=
  .budget World.reconnections Event.isAttempt reconnections

/-- The program starts at most one attempt more than the retry counter pays for. -/
def Bounded (reconnections : ℤ) (x : M ν Unit) : Prop :=
  Law.Enters World.reconnections Event.isAttempt reconnections x

theorem bounded_freeBut (reconnections : ℤ) :
    (bounded ν reconnections).FreeBut (·.isAttempt = true) where
  tool {e} he := by cases e <;> first | rfl | cases he
  free := Law.budget_free
  crash _ := Law.budget_stops (by simp)
  exit _ := Law.budget_stops (by simp)

theorem logged_not_attempt (code : ResultCode) (text : String) (w : World ν) :
    ∀ e ∈ logged code text w, ¬ e.isAttempt = true := by
  simp [logged, Event.isAttempt]

theorem Bounded.retry {reconnections : ℤ} {doRequest : M ν Unit}
    (h : Bounded reconnections doRequest) (code : ResultCode) (text : String) {w : World ν}
    (hlast : ¬ reconnections ≤ ((w.reconnections + 1 : ℕ) : ℤ)) :
    (bounded ν reconnections).Meets (fun _ => True) True w
      ((doRequest w.counted).prepend (logged code text w)) :=
  Law.Enters.retry h (logged_not_attempt code text w) rfl (not_le.1 hlast)

theorem bounded_last {reconnections : ℤ} (code : ResultCode) (text : String) {w w' : World ν} :
    (bounded ν reconnections).Meets (fun _ => True) True w
      (Run.prepend (logged code text w) ⟨.stop (.exit (-1)), [], w'⟩ :
        Run (World ν) Event Exn Stop Unit) :=
  Law.budget_stops (by simpa using logged_not_attempt code text w)

theorem Bounded.attempts_le {reconnections : ℤ} {x : M ν Unit} (h : Bounded reconnections x)
    {w : World ν} (hw : w.reconnections = 0) : attempts (x w).trace ≤ promised reconnections := by
  have hle : attempts (x w).trace ≤ (max 1 (reconnections - w.reconnections)).toNat :=
    Law.Enters.countP_le h w
  rwa [hw, Nat.cast_zero, Int.sub_zero] at hle

/-! ### mile_cli_transfer -/

namespace Transfer

variable {opts : Options}

/-- An error is counted, and it ends the process, or it is retried, or nothing more happens. -/
theorem errorHandler_bounded {doRequest : M ν Unit} (h : Bounded opts.reconnections doRequest) :
    ErrorKeeps (bounded ν opts.reconnections) True True (errorHandler opts doRequest) := by
  intro code text w _
  rw [errorHandler_apply]
  split_ifs with hlast hcode
  · exact bounded_last code text
  · exact h.retry code text fun hle => hlast (.inl hle)
  · have hlt : ((w.reconnections + 1 : ℕ) : ℤ) < opts.reconnections :=
      not_le.1 fun hle => hlast (.inl hle)
    have hnone : (logged code text w).countP Event.isAttempt ≤ 1 := Nat.zero_le 1
    exact ⟨Law.budget_step rfl hlt hnone, trivial⟩

theorem doRequest_bounded (env : Env ν) (api : Api) (opts : Options) (ppk : Option Pair)
    (fuel : ℕ) : Bounded opts.reconnections (doRequest env api opts ppk fuel) := by
  induction fuel with
  | zero => exact .halt _
  | succ fuel ih =>
    obtain ⟨x, hx, hkeeps⟩ := attempt_started (bounded_freeBut _) (fun e _ he => by simp [he])
      env api opts (errorHandler_bounded ih) (fun _ _ _ => trivial) ppk
    rw [doRequest, hx]
    exact .start _ (hkeeps.weaken fun _ _ => trivial)

theorem main_bounded (env : Env ν) (api : Api) (opts : Options) (typed : List String) (fuel : ℕ)
    (net : ν) :
    attempts (main env api opts typed fuel (World.init net)).trace ≤
      promised opts.reconnections := by
  rcases Nat.eq_zero_or_pos (attempts (main env api opts typed fuel (World.init net)).trace) with
    hnone | hsome
  · rw [hnone]
    exact Nat.zero_le _
  · obtain ⟨ppk, hmain⟩ := main_eq_doRequest hsome
    rw [hmain]
    exact (doRequest_bounded env api opts ppk fuel).attempts_le rfl

end Transfer

/-! ### mile_cli_wallet -/

namespace Wallet

variable {opts : Options}

/-- An error ends the process, or it is counted and retried. -/
theorem errorHandler_bounded {doRequest : M ν Unit} (h : Bounded opts.reconnections doRequest) :
    ErrorKeeps (bounded ν opts.reconnections) True True (errorHandler opts doRequest) := by
  intro code text w _
  rw [errorHandler_apply]
  split_ifs with hcode hlast
  · exact bounded_last code text
  · exact bounded_last code text
  · exact h.retry code text hlast

theorem doRequest_bounded (env : Env ν) (api : Api) (opts : Options) (fuel : ℕ) :
    Bounded opts.reconnections (doRequest env api opts fuel) := by
  induction fuel with
  | zero => exact .halt _
  | succ fuel ih =>
    obtain ⟨x, hx, hkeeps⟩ := attempt_started (bounded_freeBut _) (fun e _ he => by simp [he])
      env api opts (errorHandler_bounded ih)
    rw [doRequest, hx]
    exact .start _ hkeeps

theorem main_bounded (env : Env ν) (api : Api) (opts : Options) (fuel : ℕ) (net : ν) :
    attempts (main env api opts fuel (World.init net)).trace ≤ promised opts.reconnections := by
  obtain ⟨w, hw, htrace⟩ := main_trace env api opts fuel net
  rw [htrace]
  exact (doRequest_bounded env api opts fuel).attempts_le hw

end Wallet

/-- **The attempts of a run are bounded.**  Whatever the network, the node and the third-party code
do, a run of a tool starts at most `max 1 reconnections` attempts, and its recursion ends within
this depth. -/
theorem retries_bounded (env : Env ν) (api : Api) (net : ν) :
    (∀ (opts : Transfer.Options) (typed : List String) (fuel : ℕ),
      attempts (Transfer.main env api opts typed fuel (World.init net)).trace ≤
          promised opts.reconnections ∧
        (promised opts.reconnections ≤ fuel →
          (Transfer.main env api opts typed fuel (World.init net)).outcome ≠ .stop .outOfFuel)) ∧
    ∀ (opts : Wallet.Options) (fuel : ℕ),
      attempts (Wallet.main env api opts fuel (World.init net)).trace ≤
          promised opts.reconnections ∧
        (promised opts.reconnections ≤ fuel →
          (Wallet.main env api opts fuel (World.init net)).outcome ≠ .stop .outOfFuel) := by
  have hdepth : ∀ {reconnections : ℤ} {fuel : ℕ}, promised reconnections ≤ fuel →
      1 ≤ fuel ∧ reconnections ≤ fuel := by
    intro reconnections fuel h
    simp only [promised] at h
    omega
  constructor
  · intro opts typed fuel
    refine ⟨Transfer.main_bounded env api opts typed fuel net, fun h => ?_⟩
    exact Transfer.main_enough typed (hdepth h).1 (hdepth h).2 _
  · intro opts fuel
    refine ⟨Wallet.main_bounded env api opts fuel net, fun h => ?_⟩
    exact Wallet.main_enough (hdepth h).1 (hdepth h).2 _

/-- A name that is never resolved: at most three attempts, three levels deep. -/
theorem retries_bounded_unresolved :
    (attempts (Transfer.main unresolvedNode (.sample []) transferOptions [] 3
        (World.init ())).trace ≤ promised 3 ∧
      (Transfer.main unresolvedNode (.sample []) transferOptions [] 3
        (World.init ())).outcome ≠ .stop .outOfFuel) ∧
    attempts (Wallet.main unresolvedNode (.sample []) walletOptions 3
        (World.init ())).trace ≤ promised 3 ∧
      (Wallet.main unresolvedNode (.sample []) walletOptions 3
        (World.init ())).outcome ≠ .stop .outOfFuel := by
  have hbounded := retries_bounded unresolvedNode (.sample []) ()
  have htransfer := hbounded.1 transferOptions [] 3
  have hwallet := hbounded.2 walletOptions 3
  exact ⟨⟨htransfer.1, htransfer.2 (by decide)⟩, hwallet.1, hwallet.2 (by decide)⟩

-- the bound is reached
example : attempts (Wallet.main unresolvedNode (.sample []) walletOptions 3
    (World.init ())).trace = promised 3 := by decide +kernel

end Cli

end MileRpc
