import TempoSpammer.Activities

/-! # The faucet retry loop

`activity2_faucet(web3, wallet, max_retries)` requests `tempo_fundAddress` at most
`max_retries` times.  Every run, on every environment, has the shape `FaucetRun`
(`activity2Faucet_runs`):

* a prefix of failed attempts `0, ..., k - 1`, each failing with a retryable error and each
  followed by a sleep of `5 * (a + 1)` seconds (`retriedEvents`), with `k < max_retries`;
* then a last attempt `k`, which either succeeds (a sleep of two seconds, and `'faucet'`)
  or fails with an error that is not retried, because `k` is the last attempt or the
  lowercased message contains none of the transient markers (and `None`).

So the loop retries exactly the errors whose message contains a transient marker.  The
markers are plain substrings: a terminal error whose text happens to contain one, such as
an insufficient-funds message quoting a balance of `502`, is retried
(`faucet_retries_insufficient_funds`). -/

namespace TempoSpammer

section faucet

variable (web3 : Conn) (wallet : Account)

/-- The event of a faucet request answered `r`. -/
def fundEvent (r : Except Err Unit) : Event :=
  .call (.rpc web3 (.fundAddress wallet.address)) r

/-- The events of retried failures of attempts `a, a + 1, ...`: each request and the
sleep of `5 * (attempt + 1)` seconds after it. -/
def retriedEvents : ℕ → List Err → List Event
  | _, [] => []
  | a, e :: es => fundEvent web3 wallet (.error e) :: .sleep ((a + 1) * 5 * 1000) ::
      retriedEvents (a + 1) es

/-- The runs of the attempts `a, a + 1, ...` out of `max_retries`: retried failures `errs`,
then a success, or a failure that is not retried. -/
def FaucetRunFrom (maxRetries a : ℕ) (run : Except Err Ret × List Event) : Prop :=
  ∃ errs : List Err, a + errs.length < maxRetries ∧ (∀ e ∈ errs, isRetryable e) ∧
    (run = (.ok (.text "faucet"),
        retriedEvents web3 wallet a errs ++ [fundEvent web3 wallet (.ok ()), .sleep 2000]) ∨
      ∃ e, ¬ (a + errs.length < maxRetries - 1 ∧ isRetryable e) ∧
        run = (.ok .none, retriedEvents web3 wallet a errs ++ [fundEvent web3 wallet (.error e)]))

/-- The shape of every run of `activity2_faucet`. -/
def FaucetRun (maxRetries : ℕ) : Except Err Ret × List Event → Prop :=
  FaucetRunFrom web3 wallet maxRetries 0

/-- One attempt, then the rest of the loop: the step of the induction. -/
theorem faucetAttempts_runs (maxRetries : ℕ) :
    ∀ (n a : ℕ), a + n = maxRetries → 1 ≤ n → ∀ (env : Env) (h : List Event),
    FaucetRunFrom web3 wallet maxRetries a
      (faucetAttempts web3 wallet maxRetries (List.range' a n) env h)
  | 0, _, _, hn, _, _ => absurd hn (by omega)
  | n + 1, a, hsum, _, env, h => by
      cases hr : env.answer (.rpc web3 (.fundAddress wallet.address)) h with
      | ok u =>
          refine ⟨[], by simp; omega, by simp, .inl ?_⟩
          simp [faucetAttempts, List.range'_succ, Web3.tryCatch, Web3.bind_apply, Web3.rpc, hr,
            retriedEvents, fundEvent]
          rfl
      | error e =>
          by_cases hretry : a < maxRetries - 1 ∧ isRetryable e = true
          · obtain ⟨errs, hlen, hall, hrun⟩ := faucetAttempts_runs maxRetries n (a + 1)
              (by omega) (by omega) env
              (h ++ [fundEvent web3 wallet (.error e), .sleep ((a + 1) * 5 * 1000)])
            refine ⟨e :: errs, by simp; omega, by simpa [hretry.2] using hall, ?_⟩
            simp only [fundEvent] at hrun
            rcases hrun with hrun | ⟨e', he', hrun⟩
            · refine .inl ?_
              simp [faucetAttempts, List.range'_succ, Web3.tryCatch, Web3.bind_apply, Web3.rpc,
                hr, hretry, retriedEvents, fundEvent, hrun]
            · refine .inr ⟨e', by simpa [Nat.add_right_comm, Nat.add_assoc] using he', ?_⟩
              simp [faucetAttempts, List.range'_succ, Web3.tryCatch, Web3.bind_apply, Web3.rpc,
                hr, hretry, retriedEvents, fundEvent, hrun]
          · refine ⟨[], by simp; omega, by simp, .inr ⟨e, by simpa using hretry, ?_⟩⟩
            simp [faucetAttempts, List.range'_succ, Web3.tryCatch, Web3.bind_apply, Web3.rpc, hr,
              retriedEvents, fundEvent, hretry]

/-- **The faucet retry policy.** For every attempt cap `max_retries ≥ 1`, every run of
`activity2_faucet` on every environment is a sequence of retried failures, each with a
retryable error and followed by a sleep of `5 * (a + 1)` seconds, then either a success
(`'faucet'`) or a failure that is not retried (`None`): at most `max_retries` requests, and
a failed attempt `a` is retried exactly when `a < max_retries - 1` and its lowercased
message contains a transient marker. -/
theorem activity2Faucet_runs (maxRetries : ℕ) (hmax : 1 ≤ maxRetries) (env : Env)
    (h : List Event) :
    FaucetRun web3 wallet maxRetries (activity2Faucet web3 wallet maxRetries env h) := by
  simpa [activity2Faucet, List.range_eq_range'] using
    faucetAttempts_runs web3 wallet maxRetries maxRetries 0 (by simp) hmax env h

end faucet

/-- A terminal error whose message quotes a balance of `502`. -/
def insufficientFunds502 : Err :=
  ⟨.other, "insufficient funds for gas * price + value: balance 502"⟩

/-- A faucet whose first request fails with `insufficientFunds502` and whose later
requests succeed. -/
def faucetEnv502 : Env :=
  ⟨fun c h => match c with
    | .rpc _ (.fundAddress _) => if h.isEmpty then .error insufficientFunds502 else .ok ()
    | _ => .error ⟨.other, "unavailable"⟩⟩

theorem activity2Faucet_runs_env502 :
    1 ≤ 3 ∧ FaucetRun ⟨"rpc", none⟩ ⟨1, 2⟩ 3
      (activity2Faucet ⟨"rpc", none⟩ ⟨1, 2⟩ 3 faucetEnv502 []) :=
  ⟨by decide, activity2Faucet_runs _ _ 3 (by decide) faucetEnv502 []⟩

/-- An insufficient-funds error is retried: its message contains `502`. -/
theorem faucet_retries_insufficient_funds :
    "insufficient funds".toList <:+: lowerChars insufficientFunds502.msg ∧
    activity2Faucet ⟨"rpc", none⟩ ⟨1, 2⟩ 3 faucetEnv502 [] =
      (.ok (.text "faucet"),
        [fundEvent ⟨"rpc", none⟩ ⟨1, 2⟩ (.error insufficientFunds502), .sleep 5000,
          fundEvent ⟨"rpc", none⟩ ⟨1, 2⟩ (.ok ()), .sleep 2000]) :=
  ⟨by decide, rfl⟩

end TempoSpammer
