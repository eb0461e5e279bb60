import TempoSpammer.SendSites

/-! # Whose transactions a run sends

Every recipe builds its transactions with `'from': wallet_address` and
`'chainId': CONFIG['CHAIN_ID']`, signs them with `wallet.sign_transaction` and sends them
with `web3.eth.send_raw_transaction`, for the `web3` and `wallet` it runs with.
`SentBy cfg web3 key e` says that the event `e`, if it sends a transaction, sends it
through `web3`, from the address of `key`, for the configured chain.  `sentBy_walletLogic`
discharges the send site and the allowance guard of one wallet, so every recipe run with a
wallet sends only that wallet's transactions, and so does every run of the agent loop of
`smart.py` (`agent_signs_own_transactions`).

`run_auto_mode` runs the recipes of one selected wallet after the other, through lambdas
that read `web3` and `wallet` when they are called, and waits `randint(5000, 10000) / 1000`
seconds after every wallet but the last.  Read through the run lemma of the sweep
(`runAutoMode_sweeps`), a run is a prefix that sends nothing, then `WalletSegments`: one
segment per processed wallet, in increasing index order, whose transactions that wallet
signs and sends through `RPC_URL` with the proxy of its index, each segment but the last
closed by the pause before the next wallet (`walletPause`): `sweep_signs_by_wallet`. -/

namespace TempoSpammer

/-- The event, if it sends a transaction, sends it through `web3`, from the address of
`key`, for the configured chain. -/
def SentBy (cfg : Config) (web3 : Conn) (key : Account) : Event → Prop
  | .call (.rpc w (.sendRawTransaction tx)) _ =>
      w = web3 ∧ tx.sender = key.address ∧ tx.chainId = cfg.chainId
  | _ => True

theorem SentBy.of_sentTx_none {cfg : Config} {web3 : Conn} {key : Account} {e : Event}
    (he : e.sentTx = none) : SentBy cfg web3 key e := by
  unfold SentBy
  split
  · cases he
  · trivial

section wallet

variable (cfg : Config) (web3 : Conn) (wallet : Account)

theorem transact_sentBy (target : Option Addr) {method : Web3 Method} (gas : ℕ)
    (hm : Quiet method) :
    Emits (transact cfg web3 wallet target method gas) (SentBy cfg web3 wallet) :=
  transact_emits cfg web3 wallet target gas (Returns.of_forall _ fun _ => trivial)
    (hm.mono fun _ => SentBy.of_sentTx_none) (fun _ => trivial) (fun _ => trivial)
    (fun _ _ hs _ _ hc _ => ⟨rfl, hs, hc⟩) fun _ _ => trivial

/-- The send site and the allowance guard of a wallet send through its handle, from its
address, for the configured chain. -/
theorem sentBy_walletLogic :
    WalletLogic cfg web3 wallet fun {_} m => Emits m (SentBy cfg web3 wallet) :=
  .of_transact ⟨fun hm => hm.mono fun _ => SentBy.of_sentTx_none,
      fun hm hr hf => Emits.bind_of_returns hr hm hf, Emits.tryCatch⟩
    (fun target _ gas hm _ => transact_sentBy cfg web3 wallet target gas hm.quiet)
    fun token spender amount _ _ =>
      approveIfNeeded_emits cfg web3 wallet token spender amount (fun _ => trivial)
        (transact_sentBy cfg web3 wallet _ _ (Quiet.pure _))

end wallet

/-- **Every transaction of the agent is its own.** In every run of the agent loop of
`smart.py`, from any agent, for any number of cycles and on any chain, every transaction is
sent through the agent's handle, from its account's address, for the configured chain;
`SmartWallet.__init__` fixes that handle, a random entry of `RPC_LIST` with the proxy of the
key's index when proxies are on. -/
theorem agent_signs_own_transactions (cfg : Config) :
    (∀ (n : ℕ) (a : Agent), Emits (agentRun cfg n a) (SentBy cfg a.wallet.web3 a.wallet.account)) ∧
      ∀ rpcList proxyFor index (account : Account) (useProxy : Bool),
        Returns (SmartWallet.init cfg rpcList proxyFor index account useProxy) fun w =>
          w.account = account ∧ w.web3.rpc ∈ rpcList.getD [cfg.rpcUrl] ∧
            w.web3.proxy = if useProxy then proxyFor index else none :=
  ⟨fun n a => (sentBy_walletLogic cfg _ _).agentRun n a rfl rfl,
    fun _ _ _ _ _ => (Web3.choice_mem _).bind fun _ hrpc => Returns.pure ⟨rfl, hrpc, rfl⟩⟩

/-! ### The sweep, wallet by wallet -/

theorem SentBy.of_isLocal {cfg : Config} {web3 : Conn} {key : Account} {e : Event}
    (he : e.isLocal) : SentBy cfg web3 key e := by
  unfold SentBy
  split
  · cases he
  · trivial

/-- The segments of a sweep over `owners` (index and key): one per owner, in order; every
event of an owner's segment satisfies `Q` of that owner, and every segment that another
follows ends with the pause before the next wallet. -/
def WalletSegments (Q : ℕ × Account → Event → Prop) : List (ℕ × Account) → List Event → Prop
  | [], evs => evs = []
  | p :: rest, evs => ∃ seg tail, evs = seg ++ tail ∧ (∀ e ∈ seg, Q p e) ∧
      (rest ≠ [] → ∃ body r, seg = body ++ walletPause r) ∧ WalletSegments Q rest tail

section sweep

variable (cfg : Config) (proxyFor : ℕ → Option String) (env : Env)

/-- The steps of a run of entries on `web3` and `key` send only that wallet's
transactions. -/
theorem RunsEntries.sentBy {web3 : Conn} {key : Account} {total : ℕ} :
    ∀ {j : ℕ} {xs : List Entry} {h evs : List Event}, RunsEntries cfg web3 key total env j xs h evs →
      ∀ e ∈ evs, SentBy cfg web3 key e
  | _, [], _, _, hev => hev ▸ List.forall_mem_nil _
  | j, x :: _, h, _, ⟨_, _, hafter, hev, hrest⟩ => by
      rw [hev]
      intro e he
      simp only [stepEvents, List.cons_append, List.mem_cons, List.mem_append] at he
      rcases he with rfl | (he | he) | he
      · exact SentBy.of_isLocal rfl
      · exact (sentBy_walletLogic cfg web3 key).activity x.fn env
          (h ++ [.print (stepHeader total j x)]) e he
      · exact SentBy.of_isLocal (hafter e he)
      · exact RunsEntries.sentBy hrest e he

/-- The segment of one wallet's sweep sends only that wallet's transactions, through
`RPC_URL` with the proxy of its index. -/
theorem SweepsWallet.sentBy {pause : Bool} {idx : ℕ} {key : Account} {h seg : List Event}
    (hs : SweepsWallet cfg proxyFor env pause idx key h seg) :
    ∀ e ∈ seg, SentBy cfg ⟨cfg.rpcUrl, proxyFor idx⟩ key e := by
  obtain ⟨σ, pre, body, r, -, hpre, hbody, rfl⟩ := hs
  intro e he
  simp only [List.mem_append, List.mem_cons] at he
  rcases he with (he | he) | rfl | he
  · exact SentBy.of_isLocal (hpre e he)
  · exact RunsEntries.sentBy cfg env hbody e he
  · exact SentBy.of_isLocal rfl
  · refine SentBy.of_isLocal ?_
    split at he
    · simp only [walletPause, List.mem_cons, List.not_mem_nil, or_false] at he
      rcases he with rfl | rfl | rfl <;> rfl
    · cases he

/-- A wallet's segment followed by another ends with the pause before the next wallet. -/
theorem SweepsWallet.pauses {idx : ℕ} {key : Account} {h seg : List Event}
    (hs : SweepsWallet cfg proxyFor env true idx key h seg) :
    ∃ body r, seg = body ++ walletPause r := by
  obtain ⟨σ, pre, body, r, -, -, -, rfl⟩ := hs
  exact ⟨_, r, by rw [if_pos rfl, List.append_cons]⟩

/-- The sweeps of the wallets are their segments, each signed by its own wallet. -/
theorem SweepsWallets.segments : ∀ {owners : List (ℕ × Account)} {h evs : List Event},
    SweepsWallets cfg proxyFor env owners h evs →
      WalletSegments (fun p => SentBy cfg ⟨cfg.rpcUrl, proxyFor p.1⟩ p.2) owners evs
  | [], _, _, hev => hev
  | (_, _) :: rest, _, _, ⟨seg, tail, hseg, hev, hrest⟩ =>
      ⟨seg, tail, hev, hseg.sentBy cfg proxyFor env, fun hne => by
        rw [show (!rest.isEmpty) = true by cases rest; exacts [absurd rfl hne, rfl]] at hseg
        exact hseg.pauses cfg proxyFor env, SweepsWallets.segments hrest⟩

end sweep

/-- **Every wallet signs its own segment of the sweep.** A run of `run_auto_mode` is a quiet
prefix, then one segment per processed index, in increasing order, signed by its key and
sent with its proxy, each but the last ending with the pause before the next wallet. -/
theorem sweep_signs_by_wallet (cfg : Config) (proxyFor : ℕ → Option String)
    (privateKeys : List Account) (selection : String) (env : Env) (henv : RandomAnswers env)
    (h : List Event) :
    ∃ pre rest owners,
      (runAutoMode cfg (lateBound cfg) proxyFor privateKeys selection env h).2 = pre ++ rest ∧
      (∀ e ∈ pre, e.sentTx = none) ∧ owners.map Prod.fst = runSelection env privateKeys selection h ∧
      (owners.map Prod.fst).Sorted (· < ·) ∧ (∀ p ∈ owners, privateKeys[p.1]? = some p.2) ∧
      WalletSegments (fun p => SentBy cfg ⟨cfg.rpcUrl, proxyFor p.1⟩ p.2) owners rest := by
  obtain ⟨pre, rest, owners, hev, hpre, hfst, hkeys, hsweeps⟩ :=
    runAutoMode_sweeps cfg proxyFor env henv privateKeys selection h
  refine ⟨pre, rest, owners, hev, fun e he => ?_, hfst, ?_, hkeys,
    SweepsWallets.segments cfg proxyFor env hsweeps⟩
  · have hloc := hpre e he
    rcases e with ⟨_ | _, _⟩ <;> first | rfl | simp [Event.isLocal] at hloc
  · exact hfst ▸ (runSelection_sorted env privateKeys selection h).1

/-- One key and the selection `1`: the run on the idle chain. -/
theorem one_wallet_signs :
    RandomAnswers idleEnv ∧ ∃ pre rest owners,
      (runAutoMode demoConfig (lateBound demoConfig) (fun _ => none) [⟨1, 100⟩] "1" idleEnv []).2 =
        pre ++ rest ∧
      (∀ e ∈ pre, e.sentTx = none) ∧ owners.map Prod.fst = runSelection idleEnv [⟨1, 100⟩] "1" [] ∧
      (owners.map Prod.fst).Sorted (· < ·) ∧ (∀ p ∈ owners, [(⟨1, 100⟩ : Account)][p.1]? = some p.2) ∧
      WalletSegments (fun p => SentBy demoConfig ⟨demoConfig.rpcUrl, none⟩ p.2) owners rest :=
  ⟨idleEnv_random, sweep_signs_by_wallet demoConfig (fun _ => none) _ _ idleEnv idleEnv_random []⟩

end TempoSpammer
