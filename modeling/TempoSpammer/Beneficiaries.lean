import TempoSpammer.SendSites

/-! # Where the value of a run goes

The recipes fill in what they send from `wallet_address` (or `self.address`) and from
constants: the tokens they mint, the liquidity they withdraw, the NFT they claim at price
`0` and the roles they grant go to the wallet, the tokens and the policies they create are
administered by it, a name is registered with the zero address as referrer, an approval
goes to the DEX, the fee manager or the Infinity Name contract, and the only transfers, to
fresh random addresses, move `int(0.01 * (10 ** 6))` units.  `Method.Credits cfg self m`
states this of a method sent from `self`, and `CreditsOnlySender cfg e` of the transaction
an event sends, against its own sender.

The plain send site keeps `CreditsOnlySender` because `WalletLogic` hands it only methods
that credit the wallet (`transact_credits`), the allowance guard because it approves a
configured spender, and the swap after its quote because a swap credits no one
(`credits_walletLogic`).  So every program of the two scripts credits only the account that
signs it, beyond dust transfers (`value_goes_to_sender`). -/

namespace TempoSpammer

/-- The transaction the event sends, if any, credits only what `Method.Credits` allows from
its own sender. -/
def CreditsOnlySender (cfg : Config) : Event → Prop :=
  SendsOnly fun tx => tx.method.Credits cfg tx.sender

section wallet

variable (cfg : Config) (web3 : Conn) (wallet : Account)

/-- A send of a method that credits only what `Method.Credits` allows from the wallet. -/
theorem transact_credits (target : Option Addr) {method : Web3 Method} (gas : ℕ)
    (hm : Quiet method) (hr : Returns method (·.Credits cfg wallet.address)) :
    Emits (transact cfg web3 wallet target method gas) (CreditsOnlySender cfg) :=
  (transact_sends cfg web3 wallet target gas hr hm).mono fun _ he tx htx => by
    obtain ⟨hsender, -, -, hcredits⟩ := he tx htx
    exact hsender ▸ hcredits

/-- The three send sites of a wallet credit only what `Method.Credits` allows. -/
theorem credits_walletLogic :
    WalletLogic cfg web3 wallet fun {_} m => Emits m (CreditsOnlySender cfg) :=
  .of_transact ⟨fun hm => hm.sendsOnly _, fun hm hr hf => Emits.bind_of_returns hr hm hf,
      Emits.tryCatch⟩
    (fun target _ gas hm hr =>
      transact_credits cfg web3 wallet target gas hm.quiet (hr.mono fun _ h => h.2))
    fun token spender amount _ hspender =>
      approveIfNeeded_emits cfg web3 wallet token spender amount (fun _ _ h => by cases h)
        (transact_credits cfg web3 wallet _ _ (Quiet.pure _) (Returns.pure hspender))

end wallet

/-- **Value goes only to the sender.** In any recipes, agent run or run of
`run_auto_mode`, on any chain, every transaction credits only its signer, as
`Method.Credits` says, beyond transfers of 10000 units to fresh addresses. -/
theorem value_goes_to_sender (cfg : Config) :
    (∀ recipes, Emits (runRecipes cfg recipes) (CreditsOnlySender cfg)) ∧
      (∀ n (agent : Agent), Emits (agentRun cfg n agent) (CreditsOnlySender cfg)) ∧
      ∀ proxyFor privateKeys selection,
        Emits (runAutoMode cfg (lateBound cfg) proxyFor privateKeys selection)
          (CreditsOnlySender cfg) :=
  have hW := credits_walletLogic cfg
  have hC := (hW ⟨cfg.rpcUrl, none⟩ ⟨0, 0⟩).toComposes
  ⟨fun _ => hC.runRecipes cfg hW _, fun _ _ => (hW _ _).agentRun _ _ rfl rfl,
    fun _ _ _ => hC.runAutoMode cfg hW _ _ _⟩

end TempoSpammer
