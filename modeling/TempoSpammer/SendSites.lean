import TempoSpammer.Sweep
import TempoSpammer.Recovery
import TempoSpammer.History

/-! # The send sites of every program

Every transaction of the two scripts is sent by `transact`, and every `approve` by the
allowance guard `approveIfNeeded`; every other step sends nothing.  `Composes S` asks of a
property `S` of computations that it hold of the steps that send nothing and that `bind`
and `try` keep it.  `WalletLogic cfg web3 wallet S` adds the send sites of one wallet, on
its handle and from its account: the plain one, with a local argument computation and a
method that is neither an `approve` nor a swap and credits only what `Method.Credits`
allows; the allowance guard, with an amount of at most `10**9` and a configured spender;
and the swap after its quote (`quoteThenSwap`), which `WalletLogic.of_transact`
derives from the plain site for a property that holds of every send.  `SendLogic S` asks
the plain site and the guard of every wallet.  Every recipe of `auto.py` run with a handle
and an account (`WalletLogic.activity`), the two recipes of `SmartWallet`, and the agent
loop of `smart.py` (`WalletLogic.agentRun`) are built from the send sites of their own
wallet; any sequence of recipes (`SendLogic.runRecipes`) and the whole of `run_auto_mode`
(`SendLogic.runAutoMode`) from those of every wallet, one iteration of its wallet loop from
those of the iteration's wallet (`Composes.walletIteration`).  The nonce and the allowance
invariants are two such properties. -/

namespace TempoSpammer

/-- An `approve` call. -/
def Method.isApprove : Method → Bool
  | .approve _ _ => true
  | _ => false

/-- A `swapExactAmountIn` call. -/
def Method.isSwap : Method → Bool
  | .swapExactAmountIn _ _ _ _ => true
  | _ => false

/-- A method of the plain send site: neither an approval, which only the allowance guard
sends, nor a swap, which only follows a quote. -/
def Method.isPlain (m : Method) : Bool := !m.isApprove && !m.isSwap

theorem Method.isApprove_of_isPlain {m : Method} (h : m.isPlain) : m.isApprove = false := by
  simp only [Method.isPlain, Bool.and_eq_true, Bool.not_eq_true'] at h
  exact h.1

theorem Method.isSwap_of_isPlain {m : Method} (h : m.isPlain) : m.isSwap = false := by
  simp only [Method.isPlain, Bool.and_eq_true, Bool.not_eq_true'] at h
  exact h.2

/-- The contracts the allowance guard approves: the stablecoin DEX (`activity5_swap`,
`activity11_limit_order`, `activity17_batch_operations`), the fee manager
(`activity6_add_liquidity`) and the Infinity Name contract
(`SmartWallet.activity15_infinity_name`). -/
def Config.IsSpender (cfg : Config) (a : Addr) : Prop :=
  a = cfg.stablecoinDex ∨ a = cfg.feeManager ∨ a = cfg.infinityNameContract

/-- Whom a method sent from `self` gives value or rights, as the recipes fill in its
arguments: minted tokens, liquidity, an NFT (claimed at price `0`), a role, and the
administration of a token or of a policy (which also whitelists it) go to `self`; a name
is registered with the zero address as referrer; an allowance goes to a configured spender;
and a transfer to any address moves `int(0.01 * (10 ** 6)) = 10000` units. -/
def Method.Credits (cfg : Config) (self : Addr) : Method → Prop
  | .transfer _ amount | .transferWithMemo _ amount _ => amount = 10000
  | .createToken _ _ _ _ admin => admin = self
  | .approve spender _ => cfg.IsSpender spender
  | .mintWithValidatorToken _ _ _ recipient | .mint recipient _
  | .burnLiquidity _ _ _ recipient | .grantRole _ recipient => recipient = self
  | .claim receiver _ _ pricePerToken => receiver = self ∧ pricePerToken = 0
  | .register _ referrer => referrer = 0
  | .createPolicyWithAccounts admin _ accounts => admin = self ∧ self ∈ accounts
  | .deploy _ | .swapExactAmountIn _ _ _ _ | .setUserToken _ | .burn _ | .place _ _ _ _
  | .changeTransferPolicyId _ => True

/-- The tail of `activity5_swap` and `activity17_batch_operations`: quote the trade on the
DEX and, on a positive quote, swap with `min_out = (quote * 99) // 100`. -/
def quoteThenSwap (cfg : Config) (web3 : Conn) (wallet : Account) (tokenIn tokenOut amount : ℕ) :
    Web3 Ret := do
  let quote : ℕ ← Web3.rpc web3
    (.call cfg.stablecoinDex (.quoteSwapExactAmountIn tokenIn tokenOut amount))
  if 0 < quote then do
    let r ← transact cfg web3 wallet (some cfg.stablecoinDex)
      (pure (.swapExactAmountIn tokenIn tokenOut amount (quote * 99 / 100))) 300000
    pure (.txHash r.1)
  else pure .none

/-- The obligations of a property `S` of computations at the steps every program is made
of: the steps that send nothing, `bind` and `try`. -/
structure Composes (S : {α : Type} → Web3 α → Prop) : Prop where
  quiet {α : Type} {m : Web3 α} : Quiet m → S m
  bind_of_returns {α β : Type} {m : Web3 α} {f : α → Web3 β} {P : α → Prop} :
    S m → Returns m P → (∀ a, P a → S (f a)) → S (m >>= f)
  tryCatch {α : Type} {m : Web3 α} {handler : Err → Web3 α} :
    S m → (∀ e, S (handler e)) → S (Web3.tryCatch m handler)

/-- The obligations of `S` for the programs of one wallet: the steps of `Composes`, and the
three send sites on the handle `web3` from `wallet`: the plain one, given a method that
credits only what `Method.Credits` allows, the allowance guard, given a configured spender,
and the swap after its quote. -/
structure WalletLogic (cfg : Config) (web3 : Conn) (wallet : Account)
    (S : {α : Type} → Web3 α → Prop) extends Composes S : Prop where
  transact (target : Option Addr) {method : Web3 Method} (gas : ℕ) : Local method →
    Returns method (fun m => m.isPlain ∧ m.Credits cfg wallet.address) →
    S (TempoSpammer.transact cfg web3 wallet target method gas)
  approveIfNeeded (token spender amount : ℕ) : amount ≤ 10 ^ 9 → cfg.IsSpender spender →
    S (TempoSpammer.approveIfNeeded cfg web3 wallet token spender amount)
  quoteThenSwap (tokenIn tokenOut amount : ℕ) :
    S (TempoSpammer.quoteThenSwap cfg web3 wallet tokenIn tokenOut amount)

/-- The obligations of a property `S` of computations at each kind of step. -/
structure SendLogic (S : {α : Type} → Web3 α → Prop) : Prop where
  quiet {α : Type} {m : Web3 α} : Quiet m → S m
  bind_of_returns {α β : Type} {m : Web3 α} {f : α → Web3 β} {P : α → Prop} :
    S m → Returns m P → (∀ a, P a → S (f a)) → S (m >>= f)
  tryCatch {α : Type} {m : Web3 α} {handler : Err → Web3 α} :
    S m → (∀ e, S (handler e)) → S (Web3.tryCatch m handler)
  transact (cfg : Config) (web3 : Conn) (wallet : Account) (target : Option Addr)
    {method : Web3 Method} (gas : ℕ) : Local method → Returns method (·.isApprove = false) →
    S (TempoSpammer.transact cfg web3 wallet target method gas)
  approveIfNeeded (cfg : Config) (web3 : Conn) (wallet : Account) (token spender amount : ℕ) :
    amount ≤ 10 ^ 9 → S (TempoSpammer.approveIfNeeded cfg web3 wallet token spender amount)

/-- An invariant of histories that steps sending nothing keep holds of every program once
the send site and the allowance guard keep it. -/
theorem SendLogic.of_keeps {Honest : Env → Prop} {I : List Event → Prop}
    (hquiet : ∀ h evs, (∀ e ∈ evs, e.sentTx = none) → I h → I (h ++ evs))
    (htransact : ∀ cfg web3 wallet target {method : Web3 Method} gas, Local method →
      Returns method (·.isApprove = false) →
      Keeps Honest I (TempoSpammer.transact cfg web3 wallet target method gas))
    (happrove : ∀ cfg web3 wallet token spender amount, amount ≤ 10 ^ 9 →
      Keeps Honest I (TempoSpammer.approveIfNeeded cfg web3 wallet token spender amount)) :
    SendLogic (Keeps Honest I) where
  quiet hm := Keeps.quiet hm hquiet
  bind_of_returns := Keeps.bind_of_returns
  tryCatch := Keeps.tryCatch
  transact := htransact
  approveIfNeeded := happrove

theorem SendLogic.composes {S : {α : Type} → Web3 α → Prop} (hS : SendLogic S) : Composes S :=
  ⟨hS.quiet, hS.bind_of_returns, hS.tryCatch⟩

/-- A recipe of either script with what it runs with: an `auto.py` activity with a handle
and an account, or one of the two recipes of `SmartWallet` with a wallet. -/
inductive Recipe where
  | auto (web3 : Conn) (wallet : Account) (act : Activity)
  | infinityName (w : SmartWallet)
  | tip403Policies (w : SmartWallet) (myTokens : List TokenRecord)

/-- Run a recipe. -/
def Recipe.run (cfg : Config) : Recipe → Web3 Ret
  | .auto web3 wallet act => act.run cfg web3 wallet
  | .infinityName w => activity15InfinityName cfg w
  | .tip403Policies w myTokens => activity18Tip403Policies cfg w myTokens

/-- Recipes run one after the other, in any order and number. -/
def runRecipes (cfg : Config) : List Recipe → Web3 Unit
  | [] => pure ()
  | r :: rs => do
      let _ ← r.run cfg
      runRecipes cfg rs

theorem Local.policyIdOf (receipt : Receipt) : Local (policyIdOf receipt) := by
  unfold TempoSpammer.policyIdOf
  split
  exacts [Local.pure _, (Local.index _ _).bind fun _ => Local.pure _]

section quiet

variable (cfg : Config) (web3 : Conn) (wallet : Account)

theorem queryPool_quiet (pair : (String × Addr) × (String × Addr)) :
    Quiet (queryPool cfg web3 wallet pair) :=
  Quiet.tryCatch ((Quiet.read _ _ _).bind fun _ => (Quiet.read _ _ _).bind fun _ =>
    Quiet.pure _) fun _ => Quiet.pure _

theorem collectPools_quiet : ∀ pairs, Quiet (collectPools cfg web3 wallet pairs)
  | [] => Quiet.pure _
  | pair :: rest => (queryPool_quiet cfg web3 wallet pair).bind fun _ =>
      (collectPools_quiet rest).bind fun _ => Quiet.pure _

/-- The faucet calls `tempo_fundAddress`, which is not a transaction. -/
theorem faucetAttempts_quiet (maxRetries : ℕ) :
    ∀ attempts, Quiet (faucetAttempts web3 wallet maxRetries attempts)
  | [] => Quiet.pure _
  | _ :: rest => Quiet.tryCatch ((Quiet.call (c := .rpc web3 (.fundAddress wallet.address))
      fun _ => rfl).bind fun _ =>
      (Local.sleep _).quiet.bind fun _ => Quiet.pure _) fun _ => by
        split
        exacts [(Local.sleep _).quiet.bind fun _ => faucetAttempts_quiet maxRetries rest,
          Quiet.pure _]

theorem updateTokenBalances_quiet (w : SmartWallet) :
    ∀ (b : Balances) syms, Quiet (updateTokenBalances cfg w b syms)
  | _, [] => Quiet.pure _
  | b, sym :: rest => by
      unfold updateTokenBalances
      split
      · exact updateTokenBalances_quiet w b rest
      · refine (Quiet.tryCatch ((Quiet.read _ _ _).bind fun _ => Quiet.pure _)
          fun _ => Quiet.pure _).bind fun r => ?_
        cases r
        exacts [Quiet.pure _, updateTokenBalances_quiet w _ rest]

theorem updateBalances_quiet (w : SmartWallet) : Quiet (updateBalances cfg w) := by
  refine (Quiet.tryCatch ((Quiet.call (c := .rpc w.web3 (.getBalance w.account.address))
    fun _ => rfl).bind fun _ => Quiet.pure _) fun _ => Quiet.pure _).bind fun r => ?_
  cases r
  exacts [Quiet.pure _, (updateTokenBalances_quiet cfg w _ _).bind fun _ => Quiet.pure _]

theorem Local.firstMatch {fallback : Web3 Action} (hfb : Local fallback) :
    ∀ rs : List Rule, (∀ r ∈ rs, Local r.action) → Local (TempoSpammer.firstMatch fallback rs)
  | [], _ => hfb
  | r :: rs, hrs => by
      have ih := Local.firstMatch hfb rs fun r' hr' => hrs r' (List.mem_cons_of_mem r hr')
      have hr := hrs r (List.mem_cons_self r rs)
      unfold TempoSpammer.firstMatch
      split
      · split
        · exact hr
        · exact Local.random.bind fun _ => by split; exacts [hr, ih]
      · exact ih

theorem decideOnBalances_local (store : List TokenRecord) (w : SmartWallet) :
    Local (decideOnBalances store w) := by
  rw [decideOnBalances_eq_firstMatch]
  refine Local.firstMatch ((Local.choice _).bind fun _ => Local.pure _) _ fun r hr => ?_
  simp only [priorityRules, List.mem_cons, List.mem_singleton, List.not_mem_nil,
    or_false] at hr
  rcases hr with rfl | rfl | rfl | rfl | rfl | rfl | rfl | rfl <;> try exact Local.pure _
  exact (Local.choice _).bind fun _ => Local.random.bind fun _ => by
    split <;> exact Local.pure _

theorem decideNextAction_quiet (store : List TokenRecord) (w : SmartWallet) :
    Quiet (decideNextAction cfg store w) := by
  unfold decideNextAction
  split
  · exact Quiet.pure _
  · exact (updateBalances_quiet cfg w).bind fun _ =>
      (decideOnBalances_local store _).quiet.bind fun _ => Quiet.pure _

end quiet

/-! ### Every program is built from the send sites -/

namespace Composes

variable {S : {α : Type} → Web3 α → Prop} (hS : Composes S) {α β : Type}
include hS

theorem pure (a : α) : S (Pure.pure a : Web3 α) := hS.quiet (Quiet.pure a)

theorem bind {m : Web3 α} {f : α → Web3 β} (hm : S m) (hf : ∀ a, S (f a)) : S (m >>= f) :=
  hS.bind_of_returns hm (Returns.of_forall m fun _ => trivial) fun a _ => hf a

/-- A step that sends nothing, then any program. -/
theorem then_quiet {m : Web3 α} {f : α → Web3 β} (hm : Quiet m) (hf : ∀ a, S (f a)) :
    S (m >>= f) :=
  hS.bind (hS.quiet hm) hf

theorem guarded {body : Web3 Ret} (hb : S body) : S (TempoSpammer.guarded body) :=
  hS.tryCatch hb fun _ => hS.pure _

end Composes

/-- A property that the send site keeps for every method other than `approve` crediting
only what `Method.Credits` allows, and the allowance guard for every configured spender,
has the obligations of a wallet: the swap after its quote is such a send. -/
theorem WalletLogic.of_transact {S : {α : Type} → Web3 α → Prop} {cfg : Config} {web3 : Conn}
    {wallet : Account} (hC : Composes S)
    (htransact : ∀ target {method : Web3 Method} gas, Local method →
      Returns method (fun m => m.isApprove = false ∧ m.Credits cfg wallet.address) →
      S (TempoSpammer.transact cfg web3 wallet target method gas))
    (happrove : ∀ token spender amount, amount ≤ 10 ^ 9 → cfg.IsSpender spender →
      S (TempoSpammer.approveIfNeeded cfg web3 wallet token spender amount)) :
    WalletLogic cfg web3 wallet S where
  toComposes := hC
  transact target _ gas hm hr :=
    htransact target gas hm (hr.mono fun _ h => ⟨Method.isApprove_of_isPlain h.1, h.2⟩)
  approveIfNeeded := happrove
  quoteThenSwap _ _ _ := hC.then_quiet (Quiet.read _ _ _) fun _ => by
    split
    exacts [hC.bind (htransact _ _ (Local.pure _) (Returns.pure ⟨rfl, trivial⟩)) fun _ =>
      hC.pure _, hC.pure _]

/-- The obligations of every wallet are those of each. -/
theorem SendLogic.walletLogic {S : {α : Type} → Web3 α → Prop} (hS : SendLogic S) (cfg : Config)
    (web3 : Conn) (wallet : Account) : WalletLogic cfg web3 wallet S :=
  .of_transact hS.composes (fun target _ gas hm hr =>
      hS.transact cfg web3 wallet target gas hm (hr.mono fun _ h => h.1))
    fun token spender amount hamount _ =>
      hS.approveIfNeeded cfg web3 wallet token spender amount hamount

namespace WalletLogic

variable {S : {α : Type} → Web3 α → Prop} {cfg : Config} {web3 : Conn} {wallet : Account}
  (hS : WalletLogic cfg web3 wallet S)
include hS

/-- The last step of most recipes: a transaction of a constant method, and its hash. -/
theorem sends_txHash (target : Option Addr) (m : Method) (gas : ℕ)
    (hm : m.isPlain ∧ m.Credits cfg wallet.address) :
    S (do
      let r ← TempoSpammer.transact cfg web3 wallet target (Pure.pure m) gas
      Pure.pure (Ret.txHash r.1)) :=
  hS.bind (hS.transact _ _ (Local.pure _) (Returns.pure hm)) fun _ => hS.pure _

theorem grantIssuerIfNeeded (token : Addr) :
    S (TempoSpammer.grantIssuerIfNeeded cfg web3 wallet token) :=
  hS.then_quiet (Quiet.tryCatch ((Quiet.read _ _ _).bind fun _ => Quiet.pure _)
    fun _ => Quiet.pure _) fun _ => by
      split
      · exact hS.tryCatch (hS.bind (hS.transact _ _ (Local.pure _) (Returns.pure ⟨rfl, rfl⟩))
          fun _ => hS.quiet (Local.sleep _).quiet) fun _ => hS.pure _
      · exact hS.pure _

theorem activity11 : S (activity11LimitOrder cfg web3 wallet) := by
  refine hS.guarded <| hS.then_quiet (Local.choice _).quiet fun _ =>
    hS.then_quiet (Local.tokenAddr _ _).quiet fun _ => hS.then_quiet Local.random.quiet fun _ =>
      hS.bind ?_ fun _ => hS.sends_txHash _ _ _ ⟨rfl, trivial⟩
  split
  · exact hS.then_quiet (Local.tokenAddr _ _).quiet fun _ =>
      hS.approveIfNeeded _ _ _ (by decide) (.inl rfl)
  · exact hS.approveIfNeeded _ _ _ (by decide) (.inl rfl)

theorem activity12 : S (activity12RemoveLiquidity cfg web3 wallet) := by
  refine hS.guarded <| hS.then_quiet (collectPools_quiet cfg web3 wallet _) fun pools => ?_
  cases pools with
  | nil => exact hS.pure _
  | cons p ps =>
      refine hS.then_quiet (Local.choice _).quiet fun _ => ?_
      split
      · exact hS.pure _
      · exact hS.then_quiet (Local.randint _ _).quiet fun _ => hS.sends_txHash _ _ _ ⟨rfl, rfl⟩

theorem activity14 : S (activity14Nft cfg web3 wallet) := by
  refine hS.guarded <| hS.then_quiet ?_ fun _ => hS.then_quiet (Local.choice _).quiet fun _ =>
    hS.then_quiet (Local.choice _).quiet fun _ => hS.then_quiet (Local.choice _).quiet fun _ =>
      hS.then_quiet (Quiet.tryCatch ((Quiet.call (c := .compile _ _) fun _ => rfl).bind
        fun _ => Quiet.pure _) fun _ => Quiet.pure _) fun _ => ?_
  · exact Quiet.tryCatch ((Quiet.call (c := .readLines _) fun _ => rfl).bind
      fun _ => Quiet.pure _) fun _ => by
      split
      · exact Quiet.pure _
      · exact Emits.reraise _
  · split
    · refine hS.bind (hS.transact _ _ (Local.pure _) (Returns.pure ⟨rfl, trivial⟩)) fun r => ?_
      split
      exacts [hS.pure _, hS.quiet (Local.raise _).quiet]
    · exact hS.pure _

/-- **Every recipe of `auto.py`** is built from the send sites of the wallet it runs
with. -/
theorem activity (act : Activity) : S (act.run cfg web3 wallet) := by
  cases act with
  | deploy =>
      exact hS.guarded <| hS.then_quiet (Quiet.call (c := .compile _ _) fun _ => rfl) fun _ =>
        hS.sends_txHash _ _ _ ⟨rfl, trivial⟩
  | faucet n => exact hS.quiet (faucetAttempts_quiet web3 wallet n _)
  | sendTokens =>
      exact hS.guarded <| hS.then_quiet (Local.tokenAddr _ _).quiet fun _ =>
        hS.then_quiet (Quiet.call (c := .createAccount) fun _ => rfl) fun _ =>
          hS.sends_txHash _ _ _ ⟨rfl, rfl⟩
  | createStablecoin =>
      exact hS.guarded <| hS.then_quiet (Local.choices _ _).quiet fun _ =>
        hS.bind (hS.transact _ _ ((Local.tokenAddr _ _).bind fun _ => Local.pure _)
          ((Returns.of_forall _ fun _ => trivial).bind fun _ _ => Returns.pure ⟨rfl, rfl⟩)) fun _ =>
        hS.then_quiet (Local.findTokenCreated _).quiet fun _ => hS.pure _
  | swap =>
      exact hS.guarded <| hS.then_quiet (Local.tokenAddr _ _).quiet fun _ =>
        hS.bind (hS.approveIfNeeded _ _ _ (by decide) (.inl rfl)) fun _ =>
          hS.then_quiet (Local.tokenAddr _ _).quiet fun _ =>
            hS.quoteThenSwap _ _ _
  | addLiquidity =>
      exact hS.guarded <| hS.then_quiet (Local.shuffle _).quiet fun _ =>
        hS.then_quiet (Local.index _ _).quiet fun _ => hS.then_quiet (Local.index _ _).quiet fun _ =>
          hS.then_quiet (Local.tokenAddr _ _).quiet fun _ =>
            hS.then_quiet (Local.tokenAddr _ _).quiet fun _ =>
              hS.bind_of_returns (hS.quiet (Local.randint _ _).quiet)
                ((Returns.of_forall _ fun _ => trivial).bind fun i _ =>
                  Returns.pure (P := (· ≤ 10)) (by omega)) fun units hu =>
                hS.bind (hS.approveIfNeeded _ _ _
                  ((Nat.mul_le_mul_right _ hu).trans (by decide)) (.inr (.inl rfl))) fun _ =>
                  hS.sends_txHash _ _ _ ⟨rfl, rfl⟩
  | setFeeToken =>
      exact hS.guarded <| hS.then_quiet (Local.tokenAddr _ _).quiet fun _ =>
        hS.sends_txHash _ _ _ ⟨rfl, trivial⟩
  | mintTokens t =>
      cases t
      · exact hS.pure _
      · exact hS.guarded <| hS.bind (hS.grantIssuerIfNeeded _) fun _ =>
          hS.sends_txHash _ _ _ ⟨rfl, rfl⟩
  | burnTokens t =>
      cases t
      · exact hS.pure _
      · refine hS.guarded <| hS.then_quiet (Quiet.read _ _ _) fun _ => ?_
        split
        exacts [hS.sends_txHash _ _ _ ⟨rfl, trivial⟩, hS.pure _]
  | transferWithMemo =>
      exact hS.guarded <| hS.then_quiet (Local.tokenAddr _ _).quiet fun _ =>
        hS.then_quiet (Quiet.call (c := .createAccount) fun _ => rfl) fun _ =>
          hS.sends_txHash _ _ _ ⟨rfl, rfl⟩
  | limitOrder => exact hS.activity11
  | removeLiquidity => exact hS.activity12
  | grantRole t =>
      cases t
      · exact hS.pure _
      · refine hS.guarded <| hS.then_quiet (Quiet.read _ _ _) fun _ => ?_
        split
        exacts [hS.pure _, hS.sends_txHash _ _ _ ⟨rfl, rfl⟩]
  | nft => exact hS.activity14
  | retrieverNft => exact hS.guarded <| hS.sends_txHash _ _ _ ⟨rfl, rfl, rfl⟩
  | batchOperations =>
      exact hS.guarded <| hS.then_quiet (Local.tokenAddr _ _).quiet fun _ =>
        hS.bind (hS.approveIfNeeded _ _ _ (by decide) (.inl rfl)) fun _ =>
          hS.then_quiet (Local.tokenAddr _ _).quiet fun _ =>
            hS.quoteThenSwap _ _ _

end WalletLogic

/-! ### The recipes and the loop of `SmartWallet` -/

namespace WalletLogic

variable {S : {α : Type} → Web3 α → Prop} {cfg : Config}

theorem activity15 {w : SmartWallet} (hS : WalletLogic cfg w.web3 w.account S) :
    S (activity15InfinityName cfg w) :=
  hS.tryCatch (hS.then_quiet (Local.choices _ _).quiet fun _ =>
    hS.then_quiet (Local.tokenAddr _ _).quiet fun _ =>
      hS.bind (hS.approveIfNeeded _ _ _ (by decide) (.inr (.inr rfl))) fun _ =>
        hS.bind (hS.transact _ _ (Local.pure _) (Returns.pure ⟨rfl, rfl⟩)) fun _ => hS.pure _)
    fun _ => hS.pure _

theorem activity18 {w : SmartWallet} (hS : WalletLogic cfg w.web3 w.account S)
    (myTokens : List TokenRecord) : S (activity18Tip403Policies cfg w myTokens) := by
  refine hS.tryCatch (hS.then_quiet (Local.choice _).quiet fun _ =>
    hS.then_quiet (Quiet.call (c := .createAccount) fun _ => rfl) fun _ =>
      hS.then_quiet (Quiet.call (c := .createAccount) fun _ => rfl) fun _ =>
        hS.then_quiet (Quiet.call (c := .createAccount) fun _ => rfl) fun _ =>
          hS.bind (hS.transact _ _ (Local.pure _) (Returns.pure ⟨rfl, rfl, by simp⟩)) fun r =>
            hS.then_quiet (Local.policyIdOf r.2).quiet fun _ => ?_) fun _ => hS.pure _
  split
  · exact hS.pure _
  · exact hS.bind (hS.transact _ _ (Local.pure _) (Returns.pure ⟨rfl, trivial⟩)) fun _ => hS.pure _

theorem actionFn {a : Agent} (hS : WalletLogic cfg a.wallet.web3 a.wallet.account S)
    (fn : ActionFn) : S (fn.run cfg a) := by
  cases fn with
  | faucet => exact hS.bind (hS.activity (.faucet 3)) fun _ => hS.pure _
  | createToken =>
      exact hS.bind (hS.activity .createStablecoin) fun t => by
        cases t <;> exact hS.pure _
  | swap => exact hS.bind (hS.activity .swap) fun _ => hS.pure _
  | infinityName => exact hS.bind hS.activity15 fun _ => hS.pure _
  | addLiquidity => exact hS.bind (hS.activity .addLiquidity) fun _ => hS.pure _
  | tip403Policies ts => exact hS.bind (hS.activity18 ts) fun _ => hS.pure _
  | analytics => exact hS.pure _
  | mintTokens t => exact hS.bind (hS.activity (.mintTokens (some t))) fun _ => hS.pure _
  | burnTokens t => exact hS.bind (hS.activity (.burnTokens (some t))) fun _ => hS.pure _
  | deploy => exact hS.bind (hS.activity .deploy) fun _ => hS.pure _
  | nft => exact hS.bind (hS.activity .nft) fun _ => hS.pure _
  | sendDust => exact hS.bind (hS.activity .sendTokens) fun _ => hS.pure _
  | limitOrder => exact hS.bind (hS.activity .limitOrder) fun _ => hS.pure _
  | retrieverNft => exact hS.bind (hS.activity .retrieverNft) fun _ => hS.pure _
  | batchOperations => exact hS.bind (hS.activity .batchOperations) fun _ => hS.pure _

/-- **The agent loop of `smart.py`** is built from the send sites of the agent's wallet:
every cycle keeps its handle and its account (`agentCycle_conn`). -/
theorem agentRun {web3 : Conn} {wallet : Account} (hS : WalletLogic cfg web3 wallet S) :
    ∀ (n : ℕ) (a : Agent), a.wallet.web3 = web3 → a.wallet.account = wallet →
      S (TempoSpammer.agentRun cfg n a)
  | 0, _, _, _ => hS.pure _
  | n + 1, a, hw, ha => by
      refine hS.bind_of_returns (hS.bind_of_returns (hS.quiet (decideNextAction_quiet cfg _ _))
        (decideNextAction_conn cfg a.store a.wallet) fun d hd => ?_)
        (agentCycle_conn cfg a) fun a' h => agentRun hS n a' (h.1.trans hw) (h.2.trans ha)
      have hd : WalletLogic cfg d.2.web3 d.2.account S := by rw [hd.1, hd.2, hw, ha]; exact hS
      exact hd.bind (hd.actionFn (a := { a with wallet := d.2 }) d.1.fn) fun _ => hd.pure _

end WalletLogic

/-! ### The sweep of `run_auto_mode` -/

namespace Composes

variable {S : {α : Type} → Web3 α → Prop} (hS : Composes S) (cfg : Config) {call : Caller}
  (idx : ℕ) (key : Account)
include hS

/-- A step of the activity loop, given the call of the entry's `fn` and, for the branch
after the token creation, the activities run with the handle and the account of the
locals. -/
theorem entryStep (total j : ℕ) (e : Entry) (L : Locals) (hcall : S (call idx key e L))
    (hbonus : ∀ web3 wallet, L.web3 = some web3 → L.wallet = some wallet →
      ∀ act : Activity, S (act.run cfg web3 wallet)) :
    S (TempoSpammer.entryStep cfg call idx key total j e L) := by
  refine hS.tryCatch (hS.then_quiet (Local.print _).quiet fun _ => ?_) fun _ =>
    hS.then_quiet (Local.reportError _).quiet fun _ => hS.pure _
  split
  · refine hS.bind hcall fun _ => hS.bind (hS.quiet (Local.raise _).quiet) fun _ =>
      hS.tryCatch (hS.bind ?_ fun _ => hS.then_quiet Local.activityDelay.quiet fun _ =>
        hS.pure _) fun _ => hS.then_quiet (Local.reportError _).quiet fun _ => hS.pure _
    unfold createdBranch
    split
    · next web3 wallet hw hk =>
      have hact := hbonus web3 wallet hw hk
      split
      · exact hS.quiet (Local.print _).quiet
      · exact hS.then_quiet (Local.print _).quiet fun _ => hS.then_quiet (Local.sleep _).quiet
          fun _ => hS.then_quiet (Local.print _).quiet fun _ =>
          hS.bind (hact (.mintTokens _)) fun _ =>
          hS.then_quiet (Local.print _).quiet fun _ => hS.then_quiet (Local.sleep _).quiet
          fun _ => hS.then_quiet (Local.print _).quiet fun _ =>
          hS.bind (hact (.burnTokens _)) fun _ =>
          hS.then_quiet (Local.print _).quiet fun _ => hS.then_quiet (Local.sleep _).quiet
          fun _ => hS.then_quiet (Local.print _).quiet fun _ =>
          hS.bind (hact (.grantRole _)) fun _ => hS.quiet (Local.print _).quiet
    · exact hS.quiet (Local.raise _).quiet
  · refine hS.bind ?_ fun _ => hS.then_quiet Local.activityDelay.quiet fun _ => hS.pure _
    unfold otherEntry
    split
    · exact hS.quiet (Local.print _).quiet
    · split
      · exact hS.quiet (Local.print _).quiet
      · exact hS.bind hcall fun _ => hS.quiet (Local.print _).quiet

/-- The activity loop: a step keeps the handle and the account of the locals
(`entryStep_frame`). -/
theorem activityLoop (total : ℕ) (hcall : ∀ e L, S (call idx key e L)) :
    ∀ j entries (L : Locals), (∀ web3 wallet, L.web3 = some web3 → L.wallet = some wallet →
      ∀ act : Activity, S (act.run cfg web3 wallet)) →
      S (TempoSpammer.activityLoop cfg call idx key total j entries L)
  | _, [], _, _ => hS.pure _
  | j, e :: rest, L, hbonus =>
      hS.bind_of_returns (hS.entryStep cfg idx key total j e L (hcall e L) hbonus)
        (entryStep_frame cfg call idx key total j e L) fun L' h =>
        activityLoop total hcall (j + 1) rest L' fun web3 wallet hw hk =>
          hbonus web3 wallet (h.2 ▸ hw) (h.1 ▸ hk)

/-- **One iteration of the wallet loop** is built from what its calls run and from the
activities with the handle of its index and its key, which it has just bound. -/
theorem walletIteration (proxyFor : ℕ → Option String) (count i : ℕ) (L : Locals)
    (hcall : ∀ e L, S (call idx key e L))
    (hact : ∀ act : Activity, S (act.run cfg ⟨cfg.rpcUrl, proxyFor idx⟩ key)) :
    S (TempoSpammer.walletIteration cfg call proxyFor count i idx key L) := by
  refine hS.then_quiet (Local.shuffle _).quiet fun _ => hS.then_quiet (Local.print _).quiet
    fun _ => hS.then_quiet (Local.printOrder _ _).quiet fun _ =>
    hS.then_quiet (Local.print _).quiet fun _ =>
    hS.bind (hS.activityLoop cfg idx key _ hcall _ _ _ ?_) fun _ =>
    hS.then_quiet (Local.print _).quiet fun _ => ?_
  · rintro web3 wallet ⟨⟩ ⟨⟩
    exact hact
  · dsimp only
    split
    · exact hS.then_quiet (Local.randint _ _).quiet fun _ =>
        hS.then_quiet (Local.print _).quiet fun _ =>
        hS.then_quiet (Local.sleep _).quiet fun _ => hS.pure _
    · exact hS.then_quiet (Quiet.pure _) fun _ => hS.pure _

end Composes

/-- A recipe of either script is built from the send sites of the wallet it runs with. -/
theorem WalletLogic.recipe {S : {α : Type} → Web3 α → Prop} {cfg : Config}
    (hW : ∀ web3 wallet, WalletLogic cfg web3 wallet S) (r : Recipe) : S (r.run cfg) := by
  cases r with
  | auto web3 wallet act => exact (hW web3 wallet).activity act
  | infinityName w => exact (hW _ _).activity15
  | tip403Policies w myTokens => exact (hW _ _).activity18 myTokens

namespace Composes

variable {S : {α : Type} → Web3 α → Prop} (hS : Composes S) (cfg : Config)
  (hW : ∀ web3 wallet, WalletLogic cfg web3 wallet S)
include hS hW

/-- **Any sequence of recipes** is built from the send sites of the wallets they run
with. -/
theorem runRecipes : ∀ recipes, S (TempoSpammer.runRecipes cfg recipes)
  | [] => hS.pure _
  | r :: rs => hS.bind (WalletLogic.recipe hW r) fun _ => runRecipes rs

theorem walletLoop {call : Caller} (hcall : ∀ idx key e L, S (call idx key e L))
    (proxyFor : ℕ → Option String) (count : ℕ) :
    ∀ i pairs L, S (TempoSpammer.walletLoop cfg call proxyFor count i pairs L)
  | _, [], _ => hS.pure _
  | i, (idx, key) :: rest, L =>
      hS.bind (hS.walletIteration cfg idx key proxyFor count i L (hcall idx key)
        (hW _ key).activity) fun _ => walletLoop hcall proxyFor count (i + 1) rest _

/-- **The whole of `run_auto_mode`** is built from the send sites of the wallets it
sweeps. -/
theorem runAutoMode (proxyFor : ℕ → Option String) (privateKeys : List Account)
    (selection : String) :
    S (TempoSpammer.runAutoMode cfg (lateBound cfg) proxyFor privateKeys selection) := by
  have hcall : ∀ idx key e L, S (lateBound cfg idx key e L) := fun _ _ e L => by
    unfold lateBound
    split
    exacts [(hW _ _).activity _, hS.quiet (Local.raise _).quiet, hS.quiet (Local.raise _).quiet]
  have hsweep : ∀ selected, S (sweepWallets cfg (lateBound cfg) proxyFor privateKeys selected) :=
    fun _ => hS.then_quiet (Local.pickKeys _ _).quiet fun _ =>
      hS.bind (hS.walletLoop cfg hW hcall _ _ _ _ _) fun _ => hS.pure _
  unfold TempoSpammer.runAutoMode
  split
  · exact hS.quiet (Local.print _).quiet
  · split
    · exact hS.then_quiet (Local.print _).quiet fun _ => hsweep _
    · refine hS.then_quiet (Local.parseWalletSelection _ _).quiet fun _ => ?_
      split
      · exact hS.quiet (Local.print _).quiet
      · exact hS.then_quiet (Local.print _).quiet fun _ => hS.then_quiet (Local.print _).quiet
          fun _ => hS.then_quiet (Local.print _).quiet fun _ => hsweep _

end Composes

namespace SendLogic

variable {S : {α : Type} → Web3 α → Prop} (hS : SendLogic S)
include hS

theorem activity (cfg : Config) (web3 : Conn) (wallet : Account) (act : Activity) :
    S (act.run cfg web3 wallet) :=
  (hS.walletLogic cfg web3 wallet).activity act

/-- **Any sequence of recipes** is built from the send sites. -/
theorem runRecipes (cfg : Config) (recipes : List Recipe) :
    S (TempoSpammer.runRecipes cfg recipes) :=
  hS.composes.runRecipes cfg (hS.walletLogic cfg) recipes

/-- **The agent loop of `smart.py`** is built from the send sites. -/
theorem agentRun (cfg : Config) (n : ℕ) (a : Agent) : S (TempoSpammer.agentRun cfg n a) :=
  (hS.walletLogic cfg _ _).agentRun n a rfl rfl

/-- **The whole of `run_auto_mode`** is built from the send sites. -/
theorem runAutoMode (cfg : Config) (proxyFor : ℕ → Option String) (privateKeys : List Account)
    (selection : String) :
    S (TempoSpammer.runAutoMode cfg (lateBound cfg) proxyFor privateKeys selection) :=
  hS.composes.runAutoMode cfg (hS.walletLogic cfg) proxyFor privateKeys selection

end SendLogic

end TempoSpammer
