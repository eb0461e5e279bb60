import TempoSpammer.Activities

/-! # The adaptive agent of `smart.py`

`SmartWallet` owns one account: its handle, its balance map `balances`, the tokens it
created this session (`history['created_tokens']`) and the recovery flag
`should_recover_faucet`.  Its decision step `decide_next_action` either returns the
faucet recovery action (clearing the flag) or refreshes the balances and walks an ordered
list of rules, each a predicate over the balances or the token lists and, for most, a
draw of `random.random()` below a threshold; when no rule fires it picks one of six
fallback activities.  An `Agent` is a wallet together with the persisted created-asset
record; one cycle decides and then runs the chosen action's `fn`.

`update_balances` wraps all its reads in one `try`; an exception ends the reads with the
entries written so far kept and `ETH` reset to `0`.  We write the handler at each read,
which is the same: the reads are the only calls in the body that can raise.

A balance is a float: `wei / 10**18` and `bal / 10**6` are rounded to the nearest double
(`pyFloat`), and so are the thresholds `0.15`, `0.1`, ... of the draws.  The code compares
these doubles with `2.0`, `10`, `5` and `1000`, and with the draws, exactly, as the model
does, and prints them with `formatFixed`. -/

namespace TempoSpammer

/-- `self.balances`: the dict from symbol to amount. -/
abbrev Balances := String → Option ℚ

/-- `balances[key] = v`. -/
def Balances.set (b : Balances) (key : String) (v : ℚ) : Balances :=
  fun k => if k = key then some v else b k

/-- `balances.get(key, 0)`. -/
def Balances.getD (b : Balances) (key : String) : ℚ := (b key).getD 0

@[simp] theorem Balances.set_apply (b : Balances) (key k : String) (v : ℚ) :
    b.set key v k = if k = key then some v else b k := rfl

/-- A row of the created-asset record: owner, token address, symbol. -/
structure TokenRecord where
  owner : Addr
  token : Addr
  symbol : String
deriving DecidableEq, Repr

/-- Modelled from the spec (`utils.wallet.load_created_tokens`, keyed by owner): the
records of one owner, in the order they were appended. -/
def loadCreatedTokens (store : List TokenRecord) (owner : Addr) : List TokenRecord :=
  store.filter (·.owner = owner)

/-- Modelled from the spec (`utils.wallet.save_created_token`): append-only, idempotent
on `(owner, token)`. -/
def saveCreatedToken (store : List TokenRecord) (owner token : Addr) (symbol : String) :
    List TokenRecord :=
  if store.any (fun r => r.owner = owner ∧ r.token = token) then store
  else store ++ [⟨owner, token, symbol⟩]

/-- The state of a `SmartWallet` that its methods read and write. -/
structure SmartWallet where
  index : ℕ
  account : Account
  proxy : Option String
  web3 : Conn
  balances : Balances
  createdTokens : List Addr
  shouldRecoverFaucet : Bool

/-- The callables an action can carry (`'fn'`). -/
inductive ActionFn where
  | faucet
  | createToken
  | swap
  | infinityName
  | addLiquidity
  | tip403Policies (myTokens : List TokenRecord)
  | analytics
  | mintTokens (token : Addr)
  | burnTokens (token : Addr)
  | deploy
  | nft
  | sendDust
  | limitOrder
  | retrieverNft
  | batchOperations
deriving DecidableEq, Repr

/-- The dict `decide_next_action` returns. -/
structure Action where
  name : String
  fn : ActionFn
  reason : String
deriving DecidableEq, Repr

/-- The digits of a natural number, at least `width` of them. -/
def padDigits (width n : ℕ) : String :=
  let s := toString n
  String.mk (List.replicate (width - s.length) '0') ++ s

/-- Python's `f"{x:.{d}f}"` for a double `x`: its exact value rounded half to even at `d`
decimals, with the sign of `x`. -/
def formatFixed (d : ℕ) (x : ℚ) : String :=
  let y := (if x < 0 then -x else x) * 10 ^ d
  let fl := y.floor.toNat
  let n := if y - fl < 1 / 2 then fl else if 1 / 2 < y - fl then fl + 1 else fl + fl % 2
  let digits := padDigits (d + 1) n
  let sign := if x < 0 then "-" else ""
  if d = 0 then sign ++ digits
  else sign ++ String.mk (digits.toList.take (digits.length - d)) ++ "." ++
    String.mk (digits.toList.drop (digits.length - d))

/-- The symbols `update_balances` reads after `ETH`. -/
def balanceSymbols : List String := ["PathUSD", "AlphaUSD", "BetaUSD", "ThetaUSD"]

section agent

variable (cfg : Config)

/-- `SmartWallet.__init__`: a random RPC of `CONFIG.get('RPC_LIST', [CONFIG['RPC_URL']])`,
the proxy of the key index when proxies are on, empty balances and history. -/
def SmartWallet.init (rpcList : Option (List String)) (proxyFor : ℕ → Option String)
    (index : ℕ) (account : Account) (useProxy : Bool) : Web3 SmartWallet := do
  let proxy := if useProxy then proxyFor index else none
  let rpc ← Web3.choice (rpcList.getD [cfg.rpcUrl])
  pure ⟨index, account, proxy, ⟨rpc, proxy⟩, fun _ => none, [], false⟩

/-- The token reads of `update_balances` from balances `b`: each configured symbol in
turn; an exception stops the reads and resets `ETH` to `0`. -/
def updateTokenBalances (w : SmartWallet) (b : Balances) : List String → Web3 Balances
  | [] => pure b
  | sym :: rest =>
      match cfg.tokens.lookup sym with
      | none => updateTokenBalances w b rest
      | some token => do
          let r ← Web3.tryCatch
            (do
              let bal : ℕ ← Web3.rpc w.web3 (.call token (.balanceOf w.account.address))
              pure (some bal))
            (fun _ => pure none)
          match r with
          | some bal => updateTokenBalances w (b.set sym (pyFloat ((bal : ℚ) / 10 ^ 6))) rest
          | none => pure (b.set "ETH" 0)

/-- `update_balances`: `ETH` from `get_balance` in units of `10**18`, the four
stablecoins from `balanceOf` in units of `10**6`, each quotient a float. -/
def updateBalances (w : SmartWallet) : Web3 SmartWallet := do
  let r ← Web3.tryCatch
    (do
      let wei : ℕ ← Web3.rpc w.web3 (.getBalance w.account.address)
      pure (some wei))
    (fun _ => pure none)
  match r with
  | none => pure { w with balances := w.balances.set "ETH" 0 }
  | some wei => do
      let b ← updateTokenBalances cfg w (w.balances.set "ETH" (pyFloat ((wei : ℚ) / 10 ^ 18)))
        balanceSymbols
      pure { w with balances := b }

/-- The six fallback activities of `decide_next_action`. -/
def fallbackOptions : List (String × ActionFn) :=
  [("Deploy Contract", .deploy), ("NFT Mint", .nft), ("Send Dust", .sendDust),
    ("Limit Order", .limitOrder), ("Retriever NFT", .retrieverNft),
    ("Batch Operations", .batchOperations)]

/-- `random.random() < p` behind a short-circuiting `cond and ...`. -/
def drawBelow (cond : Bool) (p : ℚ) : Web3 Bool :=
  if cond then do
    let d : ℚ ← Web3.call .random
    pure (decide (d < p))
  else pure false

/-- The rules of `decide_next_action` after the balance refresh (priorities 1 to 8 and
the fallback), on the refreshed wallet and the persisted record. -/
def decideOnBalances (store : List TokenRecord) (w : SmartWallet) : Web3 Action := do
  let eth := w.balances.getD "ETH"
  let path := w.balances.getD "PathUSD"
  let alpha := w.balances.getD "AlphaUSD"
  let beta := w.balances.getD "BetaUSD"
  if eth < 2 then
    pure ⟨"Faucet Claim (Low Balance)", .faucet, "Low ETH: " ++ formatFixed 4 eth ++ " < 2.0"⟩
  else do
  let deploy ← drawBelow true (pyFloat (15 / 100))
  if deploy then pure ⟨"Deploy New Token", .createToken, "Building portfolio"⟩
  else if 10 < path ∧ (alpha < 5 ∨ beta < 5) then
    pure ⟨"Swap PathUSD -> Stable", .swap,
      "Balancing portfolio (Path: " ++ formatFixed 1 path ++ ")"⟩
  else do
  let name ← drawBelow (decide (1000 < path)) (pyFloat (1 / 10))
  if name then pure ⟨"Infinity Name Register", .infinityName, "Domain registration"⟩
  else do
  let liquidity ← drawBelow (decide (5 < path ∧ 5 < alpha)) (pyFloat (3 / 10))
  if liquidity then pure ⟨"Add Liquidity", .addLiquidity, "Capital efficiency"⟩
  else do
  let myTokens := loadCreatedTokens store w.account.address
  let policy ← drawBelow (!myTokens.isEmpty) (pyFloat (1 / 10))
  if policy then pure ⟨"TIP-403 Policy", .tip403Policies myTokens, "Security policy"⟩
  else do
  let analytics ← drawBelow true (pyFloat (5 / 100))
  if analytics then pure ⟨"Analytics & Stats", .analytics, "Monitoring"⟩
  else do
  let own ← drawBelow (!w.createdTokens.isEmpty) (pyFloat (4 / 10))
  if own then do
    let token ← Web3.choice w.createdTokens
    let isMint ← drawBelow true (pyFloat (6 / 10))
    if isMint then pure ⟨"Mint Own Token", .mintTokens token, "Managing own asset"⟩
    else pure ⟨"Burn Own Token", .burnTokens token, "Burning supply"⟩
  else do
  let choice ← Web3.choice fallbackOptions
  pure ⟨choice.1, choice.2, "Random activity"⟩

/-- The recovery action. -/
def recoveryAction : Action :=
  ⟨"Faucet Claim (Recovery)", .faucet, "Recovering from Insufficient Funds"⟩

/-- `decide_next_action`: the recovery action when the flag is set (clearing it, without
a balance refresh), otherwise refresh the balances and apply the rules. -/
def decideNextAction (store : List TokenRecord) (w : SmartWallet) :
    Web3 (Action × SmartWallet) :=
  if w.shouldRecoverFaucet then pure (recoveryAction, { w with shouldRecoverFaucet := false })
  else do
    let w ← updateBalances cfg w
    let a ← decideOnBalances store w
    pure (a, w)

/-- The characters `string.ascii_lowercase + string.digits`. -/
def lowerDigits : List Char := "abcdefghijklmnopqrstuvwxyz0123456789".toList

/-- `SmartWallet.activity15_infinity_name`: approve PathUSD for the name contract if the
allowance is below `1000 * 10**6`, then register a random ten-character domain. -/
def activity15InfinityName (w : SmartWallet) : Web3 Ret :=
  Web3.tryCatch
    (do
      let domain ← Web3.choices lowerDigits 10
      let pathUsd ← Web3.tokenAddr cfg "PathUSD"
      approveIfNeeded cfg w.web3 w.account pathUsd cfg.infinityNameContract 1000000000
      let _ ← transact cfg w.web3 w.account (some cfg.infinityNameContract)
        (pure (.register (String.mk domain) 0)) 500000
      pure (.bool true))
    (fun _ => pure (.bool false))

/-- `policy_id` from `receipt['logs'][0]['topics'][1][-8:]`, `0` without logs. -/
def policyIdOf (receipt : Receipt) : Web3 ℕ :=
  match receipt.logs with
  | [] => pure 0
  | log :: _ => do
      let topic ← Web3.index log.topics 1
      pure (topic % 2 ^ 64)

/-- `SmartWallet.activity18_tip403_policies`: a whitelist policy of three fresh addresses
and self, attached to one of the owner's created tokens. -/
def activity18Tip403Policies (w : SmartWallet) (myTokens : List TokenRecord) : Web3 Ret :=
  Web3.tryCatch
    (do
      let tokenInfo ← Web3.choice myTokens
      let a₁ : Addr ← Web3.call .createAccount
      let a₂ : Addr ← Web3.call .createAccount
      let a₃ : Addr ← Web3.call .createAccount
      let r ← transact cfg w.web3 w.account (some cfg.tip403Registry)
        (pure (.createPolicyWithAccounts w.account.address 0 [a₁, a₂, a₃, w.account.address]))
        500000
      let policyId ← policyIdOf r.2
      if policyId = 0 then pure (.bool false)
      else do
        let _ ← transact cfg w.web3 w.account (some tokenInfo.token)
          (pure (.changeTransferPolicyId policyId)) 200000
        pure (.bool true))
    (fun _ => pure (.bool false))

/-- A `SmartWallet` together with the persisted created-asset record. -/
structure Agent where
  wallet : SmartWallet
  store : List TokenRecord

/-- `SmartWallet._wrap_create_token`: run `activity4_create_stablecoin` and record a
created token in the history and in the persisted record. -/
def wrapCreateToken (a : Agent) : Web3 (Ret × Agent) := do
  let token ← activity4CreateStablecoin cfg a.wallet.web3 a.wallet.account
  match token with
  | .token t =>
      pure (token,
        { wallet := { a.wallet with createdTokens := a.wallet.createdTokens ++ [t] },
          store := saveCreatedToken a.store a.wallet.account.address t "TUSD-GEN" })
  | _ => pure (token, a)

/-- Call an action's `fn`. -/
def ActionFn.run (a : Agent) : ActionFn → Web3 (Ret × Agent)
  | .faucet => do
      let r ← activity2Faucet a.wallet.web3 a.wallet.account 3
      pure (r, a)
  | .createToken => wrapCreateToken cfg a
  | .swap => do pure (← activity5Swap cfg a.wallet.web3 a.wallet.account, a)
  | .infinityName => do pure (← activity15InfinityName cfg a.wallet, a)
  | .addLiquidity => do pure (← activity6AddLiquidity cfg a.wallet.web3 a.wallet.account, a)
  | .tip403Policies ts => do pure (← activity18Tip403Policies cfg a.wallet ts, a)
  | .analytics => pure (.bool true, a)
  | .mintTokens t => do
      pure (← activity8MintTokens cfg a.wallet.web3 a.wallet.account (some t), a)
  | .burnTokens t => do
      pure (← activity9BurnTokens cfg a.wallet.web3 a.wallet.account (some t), a)
  | .deploy => do pure (← activity1Deploy cfg a.wallet.web3 a.wallet.account, a)
  | .nft => do pure (← activity14Nft cfg a.wallet.web3 a.wallet.account, a)
  | .sendDust => do pure (← activity3SendTokens cfg a.wallet.web3 a.wallet.account, a)
  | .limitOrder => do pure (← activity11LimitOrder cfg a.wallet.web3 a.wallet.account, a)
  | .retrieverNft => do pure (← activity16RetrieverNft cfg a.wallet.web3 a.wallet.account, a)
  | .batchOperations => do
      pure (← activity17BatchOperations cfg a.wallet.web3 a.wallet.account, a)

/-- One agent cycle: decide, then call the chosen action's `fn`. -/
def agentCycle (a : Agent) : Web3 Agent := do
  let d ← decideNextAction cfg a.store a.wallet
  let r ← d.1.fn.run cfg { a with wallet := d.2 }
  pure r.2

end agent

end TempoSpammer
