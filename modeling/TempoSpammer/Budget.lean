import TempoSpammer.SendSites
import Mathlib.Algebra.BigOperators.Group.List
import Mathlib.Algebra.Order.Ring.Nat

/-! # How many transactions a run sends

Every transaction spends gas, so what a run may send is worth bounding.  `SendsAtMost k m`
says that every run of `m`, on every chain, sends at most `k` transactions: a step that
sends nothing sends none, the send site one (`transact_sendsOne`), and the bounds add up
along `bind` and `try`.

`Activity.maxSends` counts the send sites on the longest path through each recipe of
`auto.py`: two for the recipes that may approve before they act and for
`activity8_mint_tokens`, which may grant the issuer role before it mints; none for the
faucet and for the recipes given no token; one for the others (`activity_sendsAtMost`).
The two recipes of `SmartWallet` send at most two as well, so every recipe sends at most
two and every cycle of the agent loop at most two.

The thirteen entries of the catalog of `run_auto_mode` add up to `16`
(`catalog_maxSends`), which bounds the iteration of every wallet whatever the shuffle; the
mint, burn and grant-role calls after the token creation add nothing, since awaiting the
creation's result raises before them.  So `run_auto_mode` sends at most `16` transactions
per key (`send_budget`). -/

namespace TempoSpammer

/-- Every run of `m` sends at most `k` transactions. -/
def SendsAtMost {α : Type} (k : ℕ) (m : Web3 α) : Prop :=
  ∀ env h, ((m env h).2.filterMap Event.sentTx).length ≤ k

namespace SendsAtMost

variable {α β : Type} {m : Web3 α} {f : α → Web3 β} {j k : ℕ}

theorem mono (hm : SendsAtMost j m) (hjk : j ≤ k) : SendsAtMost k m :=
  fun env h => (hm env h).trans hjk

theorem of_quiet (hm : Quiet m) : SendsAtMost k m := fun env h => by
  rw [hm.sentTx_nil env h]
  exact Nat.zero_le k

theorem bind_of_returns {R : α → Prop} (hm : SendsAtMost j m) (hR : Returns m R)
    (hf : ∀ a, R a → SendsAtMost k (f a)) : SendsAtMost (j + k) (m >>= f) := by
  intro env h
  rw [Web3.bind_apply]
  rcases hmh : m env h with ⟨_ | a, e₁⟩ <;>
    have h₁ : (e₁.filterMap Event.sentTx).length ≤ j := by simpa only [hmh] using hm env h
  · exact h₁.trans (Nat.le_add_right j k)
  · have h₂ := hf a (hR env h a (by rw [hmh])) env (h ++ e₁)
    simp only [List.filterMap_append, List.length_append]
    omega

theorem bind (hm : SendsAtMost j m) (hf : ∀ a, SendsAtMost k (f a)) :
    SendsAtMost (j + k) (m >>= f) :=
  hm.bind_of_returns (Returns.of_forall m fun _ => trivial) fun a _ => hf a

theorem tryCatch {handler : Err → Web3 α} (hm : SendsAtMost j m)
    (hh : ∀ e, SendsAtMost k (handler e)) : SendsAtMost (j + k) (Web3.tryCatch m handler) := by
  intro env h
  simp only [Web3.tryCatch]
  rcases hmh : m env h with ⟨x | a, e₁⟩ <;>
    have h₁ : (e₁.filterMap Event.sentTx).length ≤ j := by simpa only [hmh] using hm env h
  · have h₂ := hh x env (h ++ e₁)
    simp only [List.filterMap_append, List.length_append]
    omega
  · exact h₁.trans (Nat.le_add_right j k)

/-- A step that sends nothing, then steps that send at most `k`. -/
theorem quiet_bind_of_returns {R : α → Prop} (hm : Quiet m) (hR : Returns m R)
    (hf : ∀ a, R a → SendsAtMost k (f a)) : SendsAtMost k (m >>= f) :=
  ((of_quiet (k := 0) hm).bind_of_returns hR hf).mono (Nat.zero_add k).le

theorem quiet_bind (hm : Quiet m) (hf : ∀ a, SendsAtMost k (f a)) : SendsAtMost k (m >>= f) :=
  quiet_bind_of_returns hm (Returns.of_forall m fun _ => trivial) fun a _ => hf a

theorem bind_quiet (hm : SendsAtMost k m) (hf : ∀ a, Quiet (f a)) : SendsAtMost k (m >>= f) :=
  hm.bind (k := 0) fun a => of_quiet (hf a)

theorem guarded {body : Web3 Ret} (hb : SendsAtMost k body) :
    SendsAtMost k (TempoSpammer.guarded body) :=
  hb.tryCatch (k := 0) fun _ => of_quiet (Quiet.pure _)

end SendsAtMost

/-- The send sites on the longest path through each recipe of `auto.py`. -/
def Activity.maxSends : Activity → ℕ
  | .faucet _ | .mintTokens none | .burnTokens none | .grantRole none => 0
  | .swap | .addLiquidity | .mintTokens (some _) | .limitOrder | .batchOperations => 2
  | .deploy | .sendTokens | .createStablecoin | .setFeeToken | .burnTokens (some _)
  | .transferWithMemo | .removeLiquidity | .grantRole (some _) | .nft | .retrieverNft => 1

theorem Activity.maxSends_le_two (act : Activity) : act.maxSends ≤ 2 := by
  unfold Activity.maxSends
  split <;> decide

section wallet

variable (cfg : Config) (web3 : Conn) (wallet : Account)

theorem transact_sendsAtMost (target : Option Addr) {method : Web3 Method} (gas : ℕ)
    (hm : Quiet method) : SendsAtMost 1 (transact cfg web3 wallet target method gas) :=
  transact_sendsOne cfg web3 wallet target gas hm

/-- A send of a constant method, and its hash. -/
theorem sends_txHash_sendsAtMost (target : Option Addr) (m : Method) (gas : ℕ) :
    SendsAtMost 1 (do
      let r ← transact cfg web3 wallet target (Pure.pure m) gas
      Pure.pure (Ret.txHash r.1)) :=
  (transact_sendsAtMost cfg web3 wallet target gas (Quiet.pure _)).bind_quiet fun _ =>
    Quiet.pure _

theorem approveIfNeeded_sendsAtMost (token spender amount : ℕ) :
    SendsAtMost 1 (approveIfNeeded cfg web3 wallet token spender amount) :=
  .quiet_bind (Quiet.read _ _ _) fun _ => by
    split
    exacts [(transact_sendsAtMost cfg web3 wallet _ _ (Quiet.pure _)).bind_quiet fun _ =>
      Quiet.pure _, .of_quiet (Quiet.pure _)]

theorem grantIssuerIfNeeded_sendsAtMost (token : Addr) :
    SendsAtMost 1 (grantIssuerIfNeeded cfg web3 wallet token) :=
  .quiet_bind (Quiet.tryCatch ((Quiet.read _ _ _).bind fun _ => Quiet.pure _)
    fun _ => Quiet.pure _) fun _ => by
      split
      · exact .tryCatch (k := 0)
          ((transact_sendsAtMost cfg web3 wallet _ _ (Quiet.pure _)).bind_quiet fun _ =>
            (Local.sleep _).quiet) fun _ => .of_quiet (Quiet.pure _)
      · exact .of_quiet (Quiet.pure _)

theorem quoteThenSwap_sendsAtMost (tokenIn tokenOut amount : ℕ) :
    SendsAtMost 1 (quoteThenSwap cfg web3 wallet tokenIn tokenOut amount) :=
  .quiet_bind (Quiet.read _ _ _) fun _ => by
    split
    exacts [sends_txHash_sendsAtMost cfg web3 wallet _ _ _, .of_quiet (Quiet.pure _)]

/-- **Every recipe of `auto.py`** sends at most `act.maxSends` transactions. -/
theorem activity_sendsAtMost (act : Activity) :
    SendsAtMost act.maxSends (act.run cfg web3 wallet) := by
  have hsend := sends_txHash_sendsAtMost cfg web3 wallet
  have happrove := approveIfNeeded_sendsAtMost cfg web3 wallet
  cases act with
  | deploy =>
      exact .guarded <| .quiet_bind (Quiet.call (c := .compile _ _) fun _ => rfl) fun _ =>
        hsend _ _ _
  | faucet n => exact .of_quiet (faucetAttempts_quiet web3 wallet n _)
  | sendTokens =>
      exact .guarded <| .quiet_bind (Local.tokenAddr _ _).quiet fun _ =>
        .quiet_bind (Quiet.call (c := .createAccount) fun _ => rfl) fun _ => hsend _ _ _
  | createStablecoin =>
      exact .guarded <| .quiet_bind (Local.choices _ _).quiet fun _ =>
        (transact_sendsAtMost cfg web3 wallet _ _
          ((Local.tokenAddr _ _).bind fun _ => Local.pure _).quiet).bind_quiet fun _ =>
        (Local.findTokenCreated _).quiet.bind fun _ => Quiet.pure _
  | swap =>
      exact .guarded <| .quiet_bind (Local.tokenAddr _ _).quiet fun _ =>
        (happrove _ _ _).bind (k := 1) fun _ =>
          .quiet_bind (Local.tokenAddr _ _).quiet fun _ =>
            quoteThenSwap_sendsAtMost cfg web3 wallet _ _ _
  | addLiquidity =>
      exact .guarded <| .quiet_bind (Local.shuffle _).quiet fun _ =>
        .quiet_bind (Local.index _ _).quiet fun _ => .quiet_bind (Local.index _ _).quiet fun _ =>
          .quiet_bind (Local.tokenAddr _ _).quiet fun _ =>
            .quiet_bind (Local.tokenAddr _ _).quiet fun _ =>
              .quiet_bind (Local.randint _ _).quiet fun _ =>
                (happrove _ _ _).bind (k := 1) fun _ => hsend _ _ _
  | setFeeToken =>
      exact .guarded <| .quiet_bind (Local.tokenAddr _ _).quiet fun _ => hsend _ _ _
  | mintTokens t =>
      cases t
      · exact .of_quiet (Quiet.pure _)
      · exact .guarded <| (grantIssuerIfNeeded_sendsAtMost cfg web3 wallet _).bind (k := 1)
          fun _ => hsend _ _ _
  | burnTokens t =>
      cases t
      · exact .of_quiet (Quiet.pure _)
      · refine .guarded <| .quiet_bind (Quiet.read _ _ _) fun _ => ?_
        split
        exacts [hsend _ _ _, .of_quiet (Quiet.pure _)]
  | transferWithMemo =>
      exact .guarded <| .quiet_bind (Local.tokenAddr _ _).quiet fun _ =>
        .quiet_bind (Quiet.call (c := .createAccount) fun _ => rfl) fun _ => hsend _ _ _
  | limitOrder =>
      refine .guarded <| .quiet_bind (Local.choice _).quiet fun _ =>
        .quiet_bind (Local.tokenAddr _ _).quiet fun _ => .quiet_bind Local.random.quiet fun _ =>
          SendsAtMost.bind (j := 1) ?_ fun _ => hsend _ _ _
      split
      · exact .quiet_bind (Local.tokenAddr _ _).quiet fun _ => happrove _ _ _
      · exact happrove _ _ _
  | removeLiquidity =>
      refine .guarded <| .quiet_bind (collectPools_quiet cfg web3 wallet _) fun pools => ?_
      cases pools with
      | nil => exact .of_quiet (Quiet.pure _)
      | cons p ps =>
          refine .quiet_bind (Local.choice _).quiet fun _ => ?_
          split
          · exact .of_quiet (Quiet.pure _)
          · exact .quiet_bind (Local.randint _ _).quiet fun _ => hsend _ _ _
  | grantRole t =>
      cases t
      · exact .of_quiet (Quiet.pure _)
      · refine .guarded <| .quiet_bind (Quiet.read _ _ _) fun _ => ?_
        split
        exacts [.of_quiet (Quiet.pure _), hsend _ _ _]
  | nft =>
      refine .guarded <| .quiet_bind ?_ fun _ => .quiet_bind (Local.choice _).quiet fun _ =>
        .quiet_bind (Local.choice _).quiet fun _ => .quiet_bind (Local.choice _).quiet fun _ =>
          .quiet_bind (Quiet.tryCatch ((Quiet.call (c := .compile _ _) fun _ => rfl).bind
            fun _ => Quiet.pure _) fun _ => Quiet.pure _) fun _ => ?_
      · exact Quiet.tryCatch ((Quiet.call (c := .readLines _) fun _ => rfl).bind
          fun _ => Quiet.pure _) fun _ => by
          split
          exacts [Quiet.pure _, Emits.reraise _]
      · split
        · exact (transact_sendsAtMost cfg web3 wallet _ _ (Quiet.pure _)).bind_quiet fun _ => by
            split
            exacts [Quiet.pure _, (Local.raise _).quiet]
        · exact .of_quiet (Quiet.pure _)
  | retrieverNft => exact .guarded <| hsend _ _ _
  | batchOperations =>
      exact .guarded <| .quiet_bind (Local.tokenAddr _ _).quiet fun _ =>
        (happrove _ _ _).bind (k := 1) fun _ =>
          .quiet_bind (Local.tokenAddr _ _).quiet fun _ =>
            quoteThenSwap_sendsAtMost cfg web3 wallet _ _ _

end wallet

/-! ### The recipes and the loop of `SmartWallet` -/

section agent

variable (cfg : Config)

theorem activity15_sendsAtMost (w : SmartWallet) :
    SendsAtMost 2 (activity15InfinityName cfg w) :=
  .tryCatch (k := 0) (.quiet_bind (Local.choices _ _).quiet fun _ =>
    .quiet_bind (Local.tokenAddr _ _).quiet fun _ =>
      (approveIfNeeded_sendsAtMost cfg _ _ _ _ _).bind (k := 1) fun _ =>
        (transact_sendsAtMost cfg _ _ _ _ (Quiet.pure _)).bind_quiet fun _ => Quiet.pure _)
    fun _ => .of_quiet (Quiet.pure _)

theorem activity18_sendsAtMost (w : SmartWallet) (myTokens : List TokenRecord) :
    SendsAtMost 2 (activity18Tip403Policies cfg w myTokens) :=
  .tryCatch (k := 0) (.quiet_bind (Local.choice _).quiet fun _ =>
    .quiet_bind (Quiet.call (c := .createAccount) fun _ => rfl) fun _ =>
      .quiet_bind (Quiet.call (c := .createAccount) fun _ => rfl) fun _ =>
        .quiet_bind (Quiet.call (c := .createAccount) fun _ => rfl) fun _ =>
          (transact_sendsAtMost cfg _ _ _ _ (Quiet.pure _)).bind (k := 1) fun r =>
            .quiet_bind (Local.policyIdOf r.2).quiet fun _ => by
              split
              exacts [.of_quiet (Quiet.pure _),
                (transact_sendsAtMost cfg _ _ _ _ (Quiet.pure _)).bind_quiet fun _ =>
                  Quiet.pure _])
    fun _ => .of_quiet (Quiet.pure _)

/-- Every recipe of either script sends at most two transactions. -/
theorem recipe_sendsAtMost (r : Recipe) : SendsAtMost 2 (r.run cfg) := by
  cases r with
  | auto web3 wallet act =>
      exact (activity_sendsAtMost cfg web3 wallet act).mono act.maxSends_le_two
  | infinityName w => exact activity15_sendsAtMost cfg w
  | tip403Policies w myTokens => exact activity18_sendsAtMost cfg w myTokens

theorem actionFn_sendsAtMost (a : Agent) (fn : ActionFn) : SendsAtMost 2 (fn.run cfg a) := by
  have hact : ∀ act : Activity, SendsAtMost 2
      (act.run cfg a.wallet.web3 a.wallet.account >>= fun r => pure (r, a)) := fun act =>
    ((activity_sendsAtMost cfg _ _ act).mono act.maxSends_le_two).bind_quiet fun _ => Quiet.pure _
  cases fn with
  | faucet => exact hact (.faucet 3)
  | createToken =>
      exact ((activity_sendsAtMost cfg _ _ .createStablecoin).mono (by decide)).bind_quiet
        fun t => by cases t <;> exact Quiet.pure _
  | swap => exact hact .swap
  | infinityName => exact (activity15_sendsAtMost cfg a.wallet).bind_quiet fun _ => Quiet.pure _
  | addLiquidity => exact hact .addLiquidity
  | tip403Policies ts =>
      exact (activity18_sendsAtMost cfg a.wallet ts).bind_quiet fun _ => Quiet.pure _
  | analytics => exact .of_quiet (Quiet.pure _)
  | mintTokens t => exact hact (.mintTokens (some t))
  | burnTokens t => exact hact (.burnTokens (some t))
  | deploy => exact hact .deploy
  | nft => exact hact .nft
  | sendDust => exact hact .sendTokens
  | limitOrder => exact hact .limitOrder
  | retrieverNft => exact hact .retrieverNft
  | batchOperations => exact hact .batchOperations

/-- One cycle of the agent: a decision, which sends nothing, and the chosen action. -/
theorem agentCycle_sendsAtMost (a : Agent) : SendsAtMost 2 (agentCycle cfg a) :=
  .quiet_bind (decideNextAction_quiet cfg _ _) fun d =>
    (actionFn_sendsAtMost cfg _ d.1.fn).bind_quiet fun _ => Quiet.pure _

theorem agentRun_sendsAtMost : ∀ (n : ℕ) (a : Agent), SendsAtMost (2 * n) (agentRun cfg n a)
  | 0, _ => .of_quiet (Quiet.pure _)
  | n + 1, a => ((agentCycle_sendsAtMost cfg a).bind fun a' =>
      agentRun_sendsAtMost n a').mono (by omega)

theorem runRecipes_sendsAtMost :
    ∀ recipes, SendsAtMost (2 * recipes.length) (runRecipes cfg recipes)
  | [] => .of_quiet (Quiet.pure _)
  | r :: rs => ((recipe_sendsAtMost cfg r).bind fun _ => runRecipes_sendsAtMost rs).mono
      (by simp only [List.length_cons]; omega)

end agent

/-! ### The sweep of `run_auto_mode` -/

/-- The entries of the catalog send at most sixteen transactions in all. -/
theorem catalog_maxSends : (catalog.map (·.fn.maxSends)).sum = 16 := rfl

/-- The indices of a selection are at most as many as the keys. -/
theorem length_le_of_selected {idx : List ℕ} {total : ℕ}
    (h : idx.Sorted (· < ·) ∧ ∀ i ∈ idx, i < total) : idx.length ≤ total := by
  simpa using (List.subperm_of_subset h.1.nodup fun i hi => List.mem_range.2 (h.2 i hi)).length_le

section sweep

variable (cfg : Config) {call : Caller}

theorem lateBound_sendsAtMost (idx : ℕ) (key : Account) (e : Entry) (L : Locals) :
    SendsAtMost e.fn.maxSends (lateBound cfg idx key e L) := by
  unfold lateBound
  split
  exacts [activity_sendsAtMost cfg _ _ _, .of_quiet (Local.raise _).quiet,
    .of_quiet (Local.raise _).quiet]

/-- An entry sends what its call sends: after the token creation, the await raises before
the bonus calls. -/
theorem entryStep_sendsAtMost (idx : ℕ) (key : Account) (total j : ℕ) (e : Entry) (L : Locals)
    (hcall : SendsAtMost e.fn.maxSends (call idx key e L)) :
    SendsAtMost e.fn.maxSends (entryStep cfg call idx key total j e L) := by
  refine .tryCatch (j := e.fn.maxSends) (k := 0) (.quiet_bind (Local.print _).quiet fun _ => ?_)
    fun _ => .of_quiet ((Local.reportError _).quiet.bind fun _ => Quiet.pure _)
  split
  · exact hcall.bind_quiet fun _ =>
      Emits.bind_of_returns (Returns.raise (P := fun _ => False) _) (Local.raise _).quiet
        fun _ h => h.elim
  · refine SendsAtMost.bind_quiet ?_ fun _ => Local.activityDelay.quiet.bind fun _ => Quiet.pure _
    unfold otherEntry
    split
    · exact .of_quiet (Local.print _).quiet
    · split
      · exact .of_quiet (Local.print _).quiet
      · exact hcall.bind_quiet fun _ => (Local.print _).quiet

theorem activityLoop_sendsAtMost (idx : ℕ) (key : Account) (total : ℕ)
    (hcall : ∀ e L, SendsAtMost e.fn.maxSends (call idx key e L)) :
    ∀ j es L, SendsAtMost (es.map (·.fn.maxSends)).sum
      (activityLoop cfg call idx key total j es L)
  | _, [], _ => .of_quiet (Quiet.pure _)
  | j, e :: rest, L => (entryStep_sendsAtMost cfg idx key total j e L (hcall e L)).bind fun _ =>
      activityLoop_sendsAtMost idx key total hcall (j + 1) rest _

/-- **One wallet** sends at most sixteen transactions, whatever the shuffle. -/
theorem walletIteration_sendsAtMost (proxyFor : ℕ → Option String) (count i idx : ℕ)
    (key : Account) (L : Locals) (hcall : ∀ e L, SendsAtMost e.fn.maxSends (call idx key e L)) :
    SendsAtMost 16 (walletIteration cfg call proxyFor count i idx key L) := by
  refine .quiet_bind_of_returns (Local.shuffle _).quiet (Web3.shuffle_returns_perm catalog)
    fun shuffled hp => .quiet_bind (Local.print _).quiet fun _ =>
      .quiet_bind (Local.printOrder _ _).quiet fun _ => .quiet_bind (Local.print _).quiet fun _ =>
        ((activityLoop_sendsAtMost cfg idx key _ hcall 0 shuffled _).mono
          ((hp.map _).sum_eq.trans catalog_maxSends).le).bind_quiet fun _ =>
        (Local.print _).quiet.bind fun _ => ?_
  dsimp only
  split
  · exact (Local.randint _ _).quiet.bind fun _ => (Local.print _).quiet.bind fun _ =>
      (Local.sleep _).quiet.bind fun _ => Quiet.pure _
  · exact (Quiet.pure _).bind fun _ => Quiet.pure _

theorem walletLoop_sendsAtMost (proxyFor : ℕ → Option String) (count : ℕ)
    (hcall : ∀ idx key e L, SendsAtMost e.fn.maxSends (call idx key e L)) :
    ∀ i pairs L, SendsAtMost (16 * pairs.length) (walletLoop cfg call proxyFor count i pairs L)
  | _, [], _ => .of_quiet (Quiet.pure _)
  | i, (idx, key) :: rest, L =>
      ((walletIteration_sendsAtMost cfg proxyFor count i idx key L (hcall idx key)).bind fun _ =>
        walletLoop_sendsAtMost proxyFor count hcall (i + 1) rest _).mono
        (by simp only [List.length_cons]; omega)

theorem runAutoMode_sendsAtMost (proxyFor : ℕ → Option String) (privateKeys : List Account)
    (selection : String) : SendsAtMost (16 * privateKeys.length)
      (runAutoMode cfg (lateBound cfg) proxyFor privateKeys selection) := by
  have hsweep : ∀ selected : List ℕ, selected.length ≤ privateKeys.length →
      SendsAtMost (16 * privateKeys.length)
        (sweepWallets cfg (lateBound cfg) proxyFor privateKeys selected) :=
    fun selected hlen => .quiet_bind (Local.pickKeys _ _).quiet fun keys =>
      ((walletLoop_sendsAtMost cfg proxyFor _ (lateBound_sendsAtMost cfg) 0 _ _).mono
        (Nat.mul_le_mul_left 16 ((List.length_zip selected keys).trans_le
          ((min_le_left _ _).trans hlen)))).bind_quiet fun _ => Quiet.pure _
  unfold runAutoMode
  split
  · exact .of_quiet (Local.print _).quiet
  · split
    · exact .quiet_bind (Local.print _).quiet fun _ => hsweep _ (List.length_range _).le
    · refine .quiet_bind_of_returns (Local.parseWalletSelection _ _).quiet
        (parseWalletSelection_indices _ _) fun selected hsel => ?_
      split
      · exact .of_quiet (Local.print _).quiet
      · exact .quiet_bind (Local.print _).quiet fun _ => .quiet_bind (Local.print _).quiet
          fun _ => .quiet_bind (Local.print _).quiet fun _ =>
            hsweep _ (length_le_of_selected hsel)

end sweep

/-- **The send budget.** On any chain, recipes send at most two transactions each, the
agent loop at most two per cycle, and `run_auto_mode` at most sixteen per key of `pv.txt`,
whatever the shuffled order. -/
theorem send_budget (cfg : Config) :
    (∀ recipes, SendsAtMost (2 * recipes.length) (runRecipes cfg recipes)) ∧
      (∀ (n : ℕ) (agent : Agent), SendsAtMost (2 * n) (agentRun cfg n agent)) ∧
      ∀ proxyFor privateKeys selection, SendsAtMost (16 * privateKeys.length)
        (runAutoMode cfg (lateBound cfg) proxyFor privateKeys selection) :=
  ⟨runRecipes_sendsAtMost cfg, agentRun_sendsAtMost cfg, runAutoMode_sendsAtMost cfg⟩

end TempoSpammer
