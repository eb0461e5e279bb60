import TempoSpammer.Decision

/-! # The insufficient-funds recovery edge

`decide_next_action` opens with a recovery branch: when `should_recover_faucet` is set it
returns the faucet action and clears the flag, without refreshing the balances.  Nothing
sets the flag.  `SmartWallet.__init__` clears it, the balance refresh writes only the
balances, the decision returns the wallet with the flag clear, and no action's `fn` writes
the wallet beyond `history['created_tokens']` (`ActionFn.run_frame`).  The activities catch
their own exceptions, so an insufficient-funds failure reaches the agent only as a `None`.

From these step lemmas, `agentRun_flag_clear` carries the clear flag over every run of
cycles, and `recovery_unreachable` shows that after any run from a fresh wallet the next
decision is never the recovery action.  `insufficient_funds_not_recovered` runs one cycle
on a chain that rejects the chosen transfer for insufficient funds: the next decision
refreshes the balances and picks a fallback activity again. -/

namespace TempoSpammer

/-- The first match of rules that all return `P`, with a fallback that returns `P`,
returns `P`. -/
theorem firstMatch_returns {P : Action → Prop} {fallback : Web3 Action}
    (hfb : Returns fallback P) :
    ∀ rs : List Rule, (∀ r ∈ rs, Returns r.action P) → Returns (firstMatch fallback rs) P
  | [], _ => hfb
  | r :: rs, hrs => by
      have ih := firstMatch_returns hfb rs fun r' hr' => hrs r' (List.mem_cons_of_mem r hr')
      have hr := hrs r (List.mem_cons_self r rs)
      unfold firstMatch
      split
      · split
        · exact hr
        · exact (Returns.of_forall _ fun _ => trivial).bind fun d _ => by split; exacts [hr, ih]
      · exact ih

/-- `a'` is `a` with at most the created tokens of the wallet and the persisted record
changed. -/
def Agent.Frame (a a' : Agent) : Prop :=
  a'.wallet = { a.wallet with createdTokens := a'.wallet.createdTokens }

theorem Agent.Frame.flag {a a' : Agent} (h : a.Frame a') :
    a'.wallet.shouldRecoverFaucet = a.wallet.shouldRecoverFaucet := by
  unfold Agent.Frame at h
  rw [h]

section recovery

variable (cfg : Config)

/-! ### Each step keeps the flag clear -/

theorem SmartWallet.init_flag (rpcList : Option (List String)) (proxyFor : ℕ → Option String)
    (index : ℕ) (account : Account) (useProxy : Bool) :
    Returns (SmartWallet.init cfg rpcList proxyFor index account useProxy)
      (·.shouldRecoverFaucet = false) :=
  (Returns.of_forall _ fun _ => trivial).bind fun _ _ => Returns.pure rfl

/-- The balance refresh writes only the balances. -/
theorem updateBalances_frame (w : SmartWallet) :
    Returns (updateBalances cfg w) (fun w' => w' = { w with balances := w'.balances }) := by
  refine (Returns.of_forall _ fun _ => trivial).bind fun r _ => ?_
  cases r
  exacts [Returns.pure rfl,
    (Returns.of_forall _ fun _ => trivial).bind fun _ _ => Returns.pure rfl]

/-- No action the balance rules pick is the recovery action. -/
theorem decideOnBalances_ne_recovery (store : List TokenRecord) (w : SmartWallet) :
    Returns (decideOnBalances store w) (· ≠ recoveryAction) := by
  have hname : ∀ a : Action, a.name ≠ recoveryAction.name → a ≠ recoveryAction :=
    fun a ha h => ha (h ▸ rfl)
  rw [decideOnBalances_eq_firstMatch]
  refine (firstMatch_returns ?_ _ ?_).mono hname
  · have hfb : ∀ c ∈ fallbackOptions, c.1 ≠ recoveryAction.name := by decide
    exact (Web3.choice_mem _).bind fun c hc => Returns.pure (hfb c hc)
  · simp only [priorityRules, List.mem_cons, List.not_mem_nil, or_false]
    rintro r (rfl | rfl | rfl | rfl | rfl | rfl | rfl | rfl)
    iterate 7 exact Returns.pure (by simp [recoveryAction])
    exact (Returns.of_forall _ fun _ => trivial).bind fun _ _ =>
      (Returns.of_forall _ fun _ => trivial).bind fun _ _ => by
        split <;> exact Returns.pure (by simp [recoveryAction])

/-- The decision returns the wallet with the flag clear, and returns the recovery action
exactly when the flag was set. -/
theorem decideNextAction_flag (store : List TokenRecord) (w : SmartWallet) :
    Returns (decideNextAction cfg store w) fun d =>
      d.2.shouldRecoverFaucet = false ∧ (d.1 = recoveryAction ↔ w.shouldRecoverFaucet = true) := by
  unfold decideNextAction
  split
  next hw => exact Returns.pure ⟨rfl, iff_of_true rfl hw⟩
  next hw =>
    refine (updateBalances_frame cfg w).bind fun w' hw' =>
      (decideOnBalances_ne_recovery store w').bind fun a ha => Returns.pure ⟨?_, ?_⟩
    · rw [hw']
      simpa using hw
    · simp [ha, hw]

/-- An action's `fn` writes the agent's wallet only in `created_tokens`. -/
theorem ActionFn.run_frame (a : Agent) (fn : ActionFn) :
    Returns (fn.run cfg a) fun r => a.Frame r.2 := by
  have keep : ∀ m : Web3 Ret, Returns (m >>= fun r => pure (r, a)) fun r => a.Frame r.2 :=
    fun m => (Returns.of_forall _ fun _ => trivial).bind fun _ _ => Returns.pure rfl
  cases fn
  case createToken =>
    refine (Returns.of_forall _ fun _ => trivial).bind fun r _ => ?_
    cases r <;> exact Returns.pure rfl
  case analytics => exact Returns.pure rfl
  all_goals exact keep _

theorem agentCycle_flag (a : Agent) :
    Returns (agentCycle cfg a) (·.wallet.shouldRecoverFaucet = false) :=
  (decideNextAction_flag cfg a.store a.wallet).bind fun d hd =>
    (ActionFn.run_frame cfg _ d.1.fn).bind fun _ hr => Returns.pure (hr.flag.trans hd.1)

/-- A decision keeps the handle and the account of the wallet. -/
theorem decideNextAction_conn (store : List TokenRecord) (w : SmartWallet) :
    Returns (decideNextAction cfg store w) fun d => d.2.web3 = w.web3 ∧ d.2.account = w.account := by
  unfold decideNextAction
  split
  · exact Returns.pure ⟨rfl, rfl⟩
  · exact (updateBalances_frame cfg w).bind fun w' hw' =>
      Returns.bind_right fun _ => Returns.pure (by rw [hw']; exact ⟨rfl, rfl⟩)

/-- A cycle keeps the handle and the account of the wallet: the wallet the cycle ends with
differs from the decision's only in `history['created_tokens']`. -/
theorem agentCycle_conn (a : Agent) :
    Returns (agentCycle cfg a) fun a' =>
      a'.wallet.web3 = a.wallet.web3 ∧ a'.wallet.account = a.wallet.account :=
  (decideNextAction_conn cfg a.store a.wallet).bind fun d hd =>
    (ActionFn.run_frame cfg _ d.1.fn).bind fun _ hr => Returns.pure
      ⟨(congrArg SmartWallet.web3 hr).trans hd.1, (congrArg SmartWallet.account hr).trans hd.2⟩

/-! ### Runs of the agent -/

/-- Modelled from the spec (the agent loop; the driver that repeats the cycle is not
under `src/`): `n` cycles, each deciding and calling the chosen action's `fn`. -/
def agentRun : ℕ → Agent → Web3 Agent
  | 0, a => pure a
  | n + 1, a => do agentRun n (← agentCycle cfg a)

theorem agentRun_flag_clear :
    ∀ (n : ℕ) (a : Agent), a.wallet.shouldRecoverFaucet = false →
      Returns (agentRun cfg n a) (·.wallet.shouldRecoverFaucet = false)
  | 0, _, ha => Returns.pure ha
  | n + 1, a, _ => (agentCycle_flag cfg a).bind fun a' ha' => agentRun_flag_clear n a' ha'

/-- **The recovery edge is unreachable.** From every wallet `SmartWallet.__init__` builds,
after any number of cycles on any chain, the next decision refreshes the balances and
applies the rules: it is never the recovery action. -/
theorem recovery_unreachable (rpcList : Option (List String)) (proxyFor : ℕ → Option String)
    (index : ℕ) (account : Account) (useProxy : Bool) (store : List TokenRecord) (n : ℕ) :
    Returns (do
        let w ← SmartWallet.init cfg rpcList proxyFor index account useProxy
        let a ← agentRun cfg n ⟨w, store⟩
        decideNextAction cfg a.store a.wallet)
      (·.1 ≠ recoveryAction) :=
  (SmartWallet.init_flag cfg rpcList proxyFor index account useProxy).bind fun w hw =>
    (agentRun_flag_clear cfg n ⟨w, store⟩ hw).bind fun a ha =>
      (decideNextAction_flag cfg a.store a.wallet).mono fun d hd h => by
        simpa [ha] using hd.2.mp h

end recovery

/-! ### A rejected transfer -/

/-- The error of a transaction the sender cannot pay for. -/
def insufficientFunds : Err := ⟨.valueError, "insufficient funds for gas * price + value"⟩

/-- A chain where the wallet holds 3 ETH and no stablecoins, every `random()` is `0.99`,
`random.choice` picks the third element, and every transaction is rejected for
insufficient funds. -/
def dustEnv : Env :=
  ⟨fun c _ => match c with
    | .rpc _ (.getBalance _) => .ok (3 * 10 ^ 18)
    | .rpc _ (.call _ (.balanceOf _)) => .ok (0 : ℕ)
    | .rpc _ (.getTransactionCount _) => .ok (0 : ℕ)
    | .rpc _ .gasPrice => .ok (1 : ℕ)
    | .rpc _ (.sendRawTransaction _) => .error insufficientFunds
    | .random => .ok (99 / 100 : ℚ)
    | .randbelow (_ + 1) => .ok (Fin.ofNat 2)
    | .createAccount => .ok (7 : ℕ)
    | _ => .error ⟨.other, "unavailable"⟩⟩

/-- The state `SmartWallet.__init__` builds for key index `0`, with an empty record. -/
def freshAgent : Agent := ⟨⟨0, ⟨1, 100⟩, none, ⟨"rpc", none⟩, fun _ => none, [], false⟩, []⟩

/-- The PathUSD transfer of Send Dust on `dustEnv`. -/
def dustTransfer : Tx := ⟨100, some 1, .transfer 7 10000, 0, 100000, 1, 1⟩

/-- The cycle picks Send Dust, whose transfer is rejected for insufficient funds and whose
`fn` returns `None`; the next decision picks Send Dust again, not the recovery action. -/
theorem insufficient_funds_not_recovered :
    (ActionFn.run demoConfig freshAgent .sendDust dustEnv []).1.map (·.1) = .ok .none ∧
    (agentCycle demoConfig freshAgent dustEnv []).2.getLast? =
      some (.call (.rpc freshAgent.wallet.web3 (.sendRawTransaction dustTransfer))
        (.error insufficientFunds)) ∧
    ((do
        let a ← agentCycle demoConfig freshAgent
        decideNextAction demoConfig a.store a.wallet : Web3 _) dustEnv []).1.map (·.1) =
      .ok ⟨"Send Dust", .sendDust, "Random activity"⟩ :=
  ⟨rfl, by with_unfolding_all rfl, by with_unfolding_all rfl⟩

end TempoSpammer
