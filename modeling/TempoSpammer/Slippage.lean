import TempoSpammer.Allowances

/-! # Every swap is priced by its own quote

`activity5_swap` and `activity17_batch_operations` quote a trade with
`quoteSwapExactAmountIn(token_in, token_out, amount)` on the DEX and, on a positive quote,
send `swapExactAmountIn(token_in, token_out, amount, min_out)` to the same contract with
`min_out = (quote * 99) // 100`; no other send site sends a swap.  `lastQuote h` is the
last quote the DEX answered in a history, and `SwapsPriced h` says that every swap sent in
`h` trades what the last quote before it priced, on the contract that quoted it, for a
positive quote and at least 99% of it (`SwapPriced`).

The plain send site keeps `SwapsPriced` because what it sends is no swap, the allowance
guard because it sends an approval (`transact_swapsPriced` checks a send against the last
quote before the site), and the swap after its quote because nothing between the quote and
the swap reads another one (`quoteThenSwap_keeps_swaps`).  `WalletLogic` carries the three
sites to every program (`swaps_priced`). -/

namespace TempoSpammer

/-- A quote the DEX answered: the contract, the trade and the amount out. -/
structure Quote where
  dex : Addr
  tokenIn : Addr
  tokenOut : Addr
  amountIn : ℕ
  amountOut : ℕ
deriving DecidableEq, Repr

/-- The quote an event reads, when the DEX answered it. -/
def Event.quoted : Event → Option Quote
  | .call (.rpc _ (.call dex (.quoteSwapExactAmountIn a b amount))) (.ok q) =>
      some ⟨dex, a, b, amount, q⟩
  | _ => none

/-- An event that does not reach the chain neither sends nor reads a quote. -/
theorem Event.unpriced_of_isLocal {e : Event} (he : e.isLocal) :
    e.sentTx = none ∧ e.quoted = none := by
  rcases e with ⟨_ | _, _⟩ <;> first | exact ⟨rfl, rfl⟩ | simp [Event.isLocal] at he

/-- The last quote answered in a history. -/
def lastQuote (h : List Event) : Option Quote := (h.filterMap Event.quoted).getLast?

theorem lastQuote_append (h evs : List Event) :
    lastQuote (h ++ evs) = (lastQuote evs).or (lastQuote h) := by
  rw [lastQuote, List.filterMap_append, List.getLast?_append]
  rfl

/-- Events that read no quote leave the last quote as it was. -/
theorem lastQuote_append_of_none (h : List Event) {evs : List Event}
    (hq : ∀ e ∈ evs, e.quoted = none) : lastQuote (h ++ evs) = lastQuote h := by
  rw [lastQuote_append, lastQuote, List.filterMap_eq_nil_iff.mpr hq]
  rfl

/-- What a send to `target` of `m` after the last quote `last` must be, if it is a swap:
the trade `last` priced, on the contract that quoted it, for a positive quote and a minimum
of 99% of it. -/
def SwapPriced (last : Option Quote) (target : Option Addr) (m : Method) : Prop :=
  ∀ a b amount minOut, m = .swapExactAmountIn a b amount minOut →
    ∃ dex q, last = some ⟨dex, a, b, amount, q⟩ ∧ target = some dex ∧ 0 < q ∧
      minOut = q * 99 / 100

theorem SwapPriced.of_not_swap {m : Method} (hm : m.isSwap = false) (last : Option Quote)
    (target : Option Addr) : SwapPriced last target m := by
  rintro a b amount minOut rfl
  cases hm

/-- Every swap among `evs`, sent after `pre` and the events of `evs` before it, is priced by
the last quote before it. -/
def SwapsPricedFrom : List Event → List Event → Prop
  | _, [] => True
  | pre, e :: rest =>
      (∀ tx, e.sentTx = some tx → SwapPriced (lastQuote pre) tx.target tx.method) ∧
        SwapsPricedFrom (pre ++ [e]) rest

/-- Every swap of a history is priced by the last quote before it. -/
def SwapsPriced (h : List Event) : Prop := SwapsPricedFrom [] h

theorem swapsPricedFrom_append :
    ∀ pre h evs : List Event, SwapsPricedFrom pre (h ++ evs) ↔
      SwapsPricedFrom pre h ∧ SwapsPricedFrom (pre ++ h) evs
  | pre, [], evs => by simp [SwapsPricedFrom]
  | pre, e :: h, evs => by
      rw [List.cons_append]
      simp only [SwapsPricedFrom]
      rw [swapsPricedFrom_append (pre ++ [e]) h evs, List.append_assoc, List.singleton_append,
        and_assoc]

theorem swapsPricedFrom_quiet :
    ∀ pre evs : List Event, (∀ e ∈ evs, e.sentTx = none) → SwapsPricedFrom pre evs
  | _, [], _ => trivial
  | pre, e :: rest, hq =>
      ⟨fun tx htx => (by rw [hq e (List.mem_cons_self e rest)] at htx; cases htx),
        swapsPricedFrom_quiet _ rest fun e' he' => hq e' (List.mem_cons_of_mem e he')⟩

theorem SwapsPriced.append_quiet {h evs : List Event} (hh : SwapsPriced h)
    (hq : ∀ e ∈ evs, e.sentTx = none) : SwapsPriced (h ++ evs) :=
  (swapsPricedFrom_append [] h evs).mpr ⟨hh, swapsPricedFrom_quiet h evs hq⟩

/-- A send keeps every swap priced when what it sends is priced by the last quote. -/
theorem SwapsPriced.send {h : List Event} (hh : SwapsPriced h) (w : Conn) {tx : Tx}
    (hp : SwapPriced (lastQuote h) tx.target tx.method) (r : Except Err ℕ) :
    SwapsPriced (h ++ [.call (.rpc w (.sendRawTransaction tx)) r]) :=
  (swapsPricedFrom_append [] h _).mpr ⟨hh, fun _ htx => Option.some.inj htx ▸ hp, trivial⟩

section pipeline

variable (cfg : Config) (web3 : Conn) (wallet : Account)

/-- **The send site.** Nothing between the start of `transact` and its send reads a quote
or sends, so what it sends is checked against the last quote before the site. -/
theorem transact_swapsPriced (target : Option Addr) {method : Web3 Method} (gas : ℕ)
    (hm : Local method) (env : Env) (last : Option Quote)
    (hr : Returns method (SwapPriced last target)) :
    Triple env (fun h => SwapsPriced h ∧ lastQuote h = last)
      (transact cfg web3 wallet target method gas) (fun _ => SwapsPriced) SwapsPriced := by
  let Next (h : List Event) : Prop := SwapsPriced h ∧ lastQuote h = last
  -- a step that neither sends nor reads a quote keeps `Next` and any fact `C`
  have hkeep : ∀ (C : Prop) {γ : Type} {m : Web3 γ},
      Emits m (fun e => e.sentTx = none ∧ e.quoted = none) →
      Triple env (fun h => Next h ∧ C) m (fun _ h => Next h ∧ C) SwapsPriced := fun _ _ _ hm' h hh =>
    have hn : Next (h ++ _) := ⟨hh.1.1.append_quiet fun e he => (hm' env h e he).1,
      (lastQuote_append_of_none h fun e he => (hm' env h e he).2).trans hh.1.2⟩
    ⟨fun _ _ => ⟨hn, hh.2⟩, fun _ _ => hn.1⟩
  have key : Triple env (fun h => Next h ∧ True) (transact cfg web3 wallet target method gas)
      (fun _ => SwapsPriced) SwapsPriced := by
    unfold transact
    exact (hkeep True (Emits.call (c := .rpc web3 (.getTransactionCount wallet.address))
        fun _ => ⟨rfl, rfl⟩)).bind fun _ =>
      (((hkeep True (hm.emits fun _ => Event.unpriced_of_isLocal)).and_returns hr).conseq
        (fun _ _ hh => ⟨hh.1.1, hh.2⟩) fun _ hh => hh).bind fun _ =>
      (hkeep _ (Emits.call (c := .rpc web3 .gasPrice) fun _ => ⟨rfl, rfl⟩)).bind fun _ =>
      Triple.bind (Q := fun _ => SwapsPriced)
        (Triple.call (fun _ _ hn _ => hn.1.1.send web3 (hn.1.2 ▸ hn.2) _)
          fun _ _ hn _ => hn.1.1.send web3 (hn.1.2 ▸ hn.2) _)
        fun _ => (Triple.quiet (Quiet.call (c := .rpc web3 (.waitForTx _)) fun _ => rfl)
          fun _ _ hq hs => hs.append_quiet hq).bind fun _ => Triple.pure fun _ hs => hs
  exact fun h hh => key h ⟨hh, trivial⟩

theorem transact_keeps_swaps (target : Option Addr) {method : Web3 Method} (gas : ℕ)
    (hm : Local method) (hr : Returns method (·.isSwap = false)) :
    Keeps (fun _ => True) SwapsPriced (transact cfg web3 wallet target method gas) :=
  fun env _ h hh => transact_swapsPriced cfg web3 wallet target gas hm env (lastQuote h)
    (hr.mono fun _ hs => SwapPriced.of_not_swap hs _ _) h ⟨hh, rfl⟩

theorem approveIfNeeded_keeps_swaps (token spender amount : ℕ) :
    Keeps (fun _ => True) SwapsPriced (approveIfNeeded cfg web3 wallet token spender amount) := by
  refine (Keeps.quiet (Quiet.read _ _ _) fun _ _ hq hh => hh.append_quiet hq).bind fun _ => ?_
  split
  · exact (transact_keeps_swaps cfg web3 wallet _ _ (Local.pure _)
      (Returns.pure (a := Method.approve spender maxUint256) rfl)).bind
      fun _ => Keeps.quiet (Quiet.pure _) fun _ _ hq hh => hh.append_quiet hq
  · exact Keeps.quiet (Quiet.pure _) fun _ _ hq hh => hh.append_quiet hq

/-- **The swap after its quote.** The quote read is still the last one when the swap is
sent, and the swap trades what it priced, for 99% of it. -/
theorem quoteThenSwap_keeps_swaps (tokenIn tokenOut amount : ℕ) :
    Keeps (fun _ => True) SwapsPriced (quoteThenSwap cfg web3 wallet tokenIn tokenOut amount) := by
  intro env _
  have hq1 : ∀ v, ∀ e ∈ [Event.call (.rpc web3
      (.call cfg.stablecoinDex (.quoteSwapExactAmountIn tokenIn tokenOut amount))) v],
      e.sentTx = none := fun _ => List.forall_mem_singleton.mpr rfl
  unfold quoteThenSwap
  refine Triple.bind (Q := fun q h => SwapsPriced h ∧
      lastQuote h = some ⟨cfg.stablecoinDex, tokenIn, tokenOut, amount, q⟩)
    (Triple.call (fun h _ hh _ => ⟨hh.append_quiet (hq1 _), by rw [lastQuote_append]; rfl⟩)
      fun h _ hh _ => hh.append_quiet (hq1 _)) fun q => ?_
  split
  · next hpos =>
    refine (transact_swapsPriced cfg web3 wallet _ _ (Local.pure _) env _
      (Returns.pure fun a b amount' minOut he => ?_)).bind fun _ => Triple.pure fun _ hh => hh
    obtain ⟨rfl, rfl, rfl, rfl⟩ := Method.swapExactAmountIn.inj he
    exact ⟨_, q, rfl, rfl, hpos, rfl⟩
  · exact Triple.pure fun _ hh => hh.1

/-- The three send sites of a wallet keep every swap priced. -/
theorem swapsPriced_walletLogic :
    WalletLogic cfg web3 wallet (Keeps (fun _ => True) SwapsPriced) where
  quiet hm := Keeps.quiet hm fun _ _ hq hh => hh.append_quiet hq
  bind_of_returns := Keeps.bind_of_returns
  tryCatch := Keeps.tryCatch
  transact target _ gas hm hr :=
    transact_keeps_swaps cfg web3 wallet target gas hm
      (hr.mono fun _ h => Method.isSwap_of_isPlain h.1)
  approveIfNeeded token spender amount _ _ :=
    approveIfNeeded_keeps_swaps cfg web3 wallet token spender amount
  quoteThenSwap := quoteThenSwap_keeps_swaps cfg web3 wallet

end pipeline

/-- **Every swap is priced by its own quote.** After any recipes, agent run or run of
`run_auto_mode`, on any chain, every swap trades what the last quote before it priced, on
the quoting contract, for a positive quote, with `min_out` at 99% of it. -/
theorem swaps_priced (cfg : Config) (env : Env) (h : List Event) (hh : SwapsPriced h) :
    (∀ recipes, SwapsPriced (h ++ (runRecipes cfg recipes env h).2)) ∧
      (∀ n (agent : Agent), SwapsPriced (h ++ (agentRun cfg n agent env h).2)) ∧
      ∀ proxyFor privateKeys selection, SwapsPriced
        (h ++ (runAutoMode cfg (lateBound cfg) proxyFor privateKeys selection env h).2) :=
  have hW := swapsPriced_walletLogic cfg
  have hC := (hW ⟨cfg.rpcUrl, none⟩ ⟨0, 0⟩).toComposes
  ⟨fun _ => (hC.runRecipes cfg hW _).run trivial hh,
    fun _ _ => ((hW _ _).agentRun _ _ rfl rfl).run trivial hh,
    fun _ _ _ => (hC.runAutoMode cfg hW _ _ _).run trivial hh⟩

/-- Two swaps of one account on a chain that quotes every swap at `100`. -/
theorem swaps_priced_two_swaps :
    SwapsPriced [] ∧ SwapsPriced ([] ++ (runRecipes demoConfig
      [.auto ⟨"rpc", none⟩ ⟨1, 100⟩ .swap, .auto ⟨"rpc", none⟩ ⟨1, 100⟩ .swap]
      approvingEnv []).2) :=
  ⟨trivial, (swaps_priced demoConfig approvingEnv [] trivial).1 _⟩

end TempoSpammer
