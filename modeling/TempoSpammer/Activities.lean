import TempoSpammer.Pipeline

/-! # The activity catalog of `auto.py`

One definition per recipe `activity1_deploy` ... `activity17_batch_operations`, each
taking the configuration, the `web3` handle and the wallet, in the order of the source:
the configuration lookups that may raise `KeyError`, the random draws, the contract reads,
the send sites (`transact`) and the allowance guards (`approveIfNeeded`).  Every recipe
but the faucet is wrapped in its outer `try ... except: return None` (`guarded`); the
inner handlers of the source are kept where they are (the issuer-role grant of
`activity8`, the per-pool queries of `activity12`, the log decoding of `activity4`, the
word list and the compilation of `activity14`).

The faucet `activity2_faucet` is a bounded retry loop over `tempo_fundAddress`:
attempt `a` is retried, after sleeping `5 * (a + 1)` seconds, exactly when
`a < max_retries - 1` and the lowercased message contains one of the transient markers.

The diagnostic `print`s of the recipes are not modelled: no result depends on them. -/

namespace TempoSpammer

/-- The source compiled by `activity1_deploy`. -/
def testContractSource : String :=
  "pragma solidity ^0.8.20; contract TestContract \x7b string public message = \"Hello Tempo!\"; \x7d"

/-- The substrings that make a faucet error retryable. -/
def transientMarkers : List String :=
  ["timeout", "connection", "refused", "502", "503", "bad gateway", "timed out",
    "read timed out"]

/-- `str(e).lower()`, as characters. -/
def lowerChars (s : String) : List Char := s.toList.map Char.toLower

/-- `any(x in str(e).lower() for x in [...])`. -/
def isRetryable (e : Err) : Bool :=
  transientMarkers.any fun x => decide (x.toList <:+: lowerChars e.msg)

/-- The characters of `string.ascii_uppercase + string.digits`. -/
def upperDigits : List Char := "ABCDEFGHIJKLMNOPQRSTUVWXYZ0123456789".toList

/-- The memo of `activity10`: `'test-memo'` padded to 32 bytes, as hex. -/
def testMemo : String := "0x746573742d6d656d6f" ++ String.mk (List.replicate 46 '0')

/-- `0xEeee...EEeE`, the native-currency marker of the Retriever NFT claim. -/
def nativeCurrency : Addr := 0xEEEEEEEEEEEEEEEEEEEEEEEEEEEEEEEEEEEEEEEE

/-- The fallback words of `activity14_nft` when `mnemonic.txt` is missing. -/
def defaultWords : List String := ["alpha", "beta", "gamma", "delta", "echo", "foxtrot"]

/-- The messages `activity14_nft` picks from. -/
def nftMessages : List String :=
  ["Tempo NFT Collection", "Digital Art Piece", "Blockchain Collectible", "Crypto Asset",
    "Web3 Creation"]

/-- `str.title()` on the characters after a cased (`true`) or uncased one. -/
def titleChars : Bool → List Char → List Char
  | _, [] => []
  | prevCased, c :: cs =>
      if c.isAlpha then (if prevCased then c.toLower else c.toUpper) :: titleChars true cs
      else c :: titleChars false cs

/-- `str.title()`. -/
def pyTitle (s : String) : String := String.mk (titleChars false s.toList)

/-- The Solidity source of the NFT contract `activity14_nft` deploys. -/
def nftSource (nftName word1 word2 msg : String) : String :=
  "pragma solidity ^0.8.20;\ncontract " ++ nftName ++ "NFT \x7b\n" ++
  "    string public name = \"" ++ word1 ++ " " ++ word2 ++ "\";\n" ++
  "    string public message = \"" ++ msg ++ "\";\n" ++
  "    uint256 public deployedAt = block.timestamp;\n    address public creator;\n    \n" ++
  "    constructor() \x7b\n        creator = msg.sender;\n    \x7d\n\x7d"

/-- What `Web3.to_checksum_address(None)` raises on a receipt without a contract. -/
def checksumNoneError : Err := ⟨.typeError, "Unsupported type: NoneType"⟩

/-- What `TokenCreated().process_log(log)` raises on a log of another event. -/
def processLogError : Err := ⟨.other, "MismatchedABI"⟩

/-- An entry of `pools_with_balance` in `activity12_remove_liquidity`. -/
structure Pool where
  token1Name : String
  token2Name : String
  token1Addr : Addr
  token2Addr : Addr
  lpBalance : ℕ
deriving DecidableEq, Repr

/-- The pairs `(token_names[i], token_names[j])` with `i < j`, in the order of the two
nested loops of `activity12_remove_liquidity`. -/
def tokenPairs {α : Type} : List α → List (α × α)
  | [] => []
  | t :: ts => ts.map (fun u => (t, u)) ++ tokenPairs ts

/-- `for log in receipt.get('logs', [])`: the first log that decodes as `TokenCreated`;
decoding failures are swallowed by the bare `except`. -/
def findTokenCreated : List Log → Web3 (Option Addr)
  | [] => pure none
  | log :: rest => do
      let r ← Web3.tryCatch
        (match log.tokenCreated with
          | some a => pure (some a)
          | none => Web3.raise processLogError)
        (fun _ => pure none)
      match r with
      | some a => pure (some a)
      | none => findTokenCreated rest

section activities

variable (cfg : Config) (web3 : Conn) (wallet : Account)

/-- `activity1_deploy`: compile `TestContract` and deploy it with gas 2500000. -/
def activity1Deploy : Web3 Ret := guarded do
  let _ ← Web3.call (.compile testContractSource "<stdin>:TestContract")
  let r ← transact cfg web3 wallet none (pure (.deploy "TestContract")) 2500000
  pure (.txHash r.1)

/-- The attempts `attempt, ...` of the faucet loop, out of `max_retries`. -/
def faucetAttempts (maxRetries : ℕ) : List ℕ → Web3 Ret
  | [] => pure .none
  | attempt :: rest =>
      Web3.tryCatch
        (do
          let _ ← Web3.rpc web3 (.fundAddress wallet.address)
          Web3.sleep 2000
          pure (.text "faucet"))
        (fun e =>
          if attempt < maxRetries - 1 ∧ isRetryable e then do
            Web3.sleep ((attempt + 1) * 5 * 1000)
            faucetAttempts maxRetries rest
          else pure .none)

/-- `activity2_faucet(web3, wallet, max_retries)`: `for attempt in range(max_retries)`. -/
def activity2Faucet (maxRetries : ℕ) : Web3 Ret :=
  faucetAttempts web3 wallet maxRetries (List.range maxRetries)

/-- `activity3_send_tokens`: `int(0.01 * 10**6)` PathUSD to a fresh address. -/
def activity3SendTokens : Web3 Ret := guarded do
  let pathUsd ← Web3.tokenAddr cfg "PathUSD"
  let randomAddress : Addr ← Web3.call .createAccount
  let r ← transact cfg web3 wallet (some pathUsd) (pure (.transfer randomAddress 10000)) 100000
  pure (.txHash r.1)

/-- `activity4_create_stablecoin`: `createToken` on the factory, then the token address
decoded from the receipt, or `None`. -/
def activity4CreateStablecoin : Web3 Ret := guarded do
  let suffix ← Web3.choices upperDigits 4
  let r ← transact cfg web3 wallet (some cfg.tip20Factory)
    (do
      let pathUsd ← Web3.tokenAddr cfg "PathUSD"
      pure (.createToken ("Test Token " ++ String.mk suffix) ("T" ++ String.mk suffix ++ "USD")
        "USD" pathUsd wallet.address))
    500000
  let token ← findTokenCreated r.2.logs
  pure (match token with
    | some a => .token a
    | none => .none)

/-- `activity5_swap`: approve the DEX if needed, quote 1 PathUSD to AlphaUSD and, on a
positive quote, swap with `min_out = quote * 99 // 100`; a zero quote falls through to
`None`. -/
def activity5Swap : Web3 Ret := guarded do
  let pathUsd ← Web3.tokenAddr cfg "PathUSD"
  approveIfNeeded cfg web3 wallet pathUsd cfg.stablecoinDex 1000000
  let alphaUsd ← Web3.tokenAddr cfg "AlphaUSD"
  let quote : ℕ ← Web3.rpc web3
    (.call cfg.stablecoinDex (.quoteSwapExactAmountIn pathUsd alphaUsd 1000000))
  if 0 < quote then do
    let r ← transact cfg web3 wallet (some cfg.stablecoinDex)
      (pure (.swapExactAmountIn pathUsd alphaUsd 1000000 (quote * 99 / 100))) 300000
    pure (.txHash r.1)
  else pure .none

/-- `activity6_add_liquidity`: shuffle the configured token names, take the first two,
approve the first for the fee manager if needed and `mintWithValidatorToken(token1,
token2, amount, wallet)` with `amount = randint(5, 10) * 10**6`. -/
def activity6AddLiquidity : Web3 Ret := guarded do
  let tokenNames ← Web3.shuffle (cfg.tokens.map Prod.fst)
  let token1Name ← Web3.index tokenNames 0
  let token2Name ← Web3.index tokenNames 1
  let token1 ← Web3.tokenAddr cfg token1Name
  let token2 ← Web3.tokenAddr cfg token2Name
  let units ← Web3.randint 5 10
  approveIfNeeded cfg web3 wallet token1 cfg.feeManager (units * 10 ^ 6)
  let r ← transact cfg web3 wallet (some cfg.feeManager)
    (pure (.mintWithValidatorToken token1 token2 (units * 10 ^ 6) wallet.address)) 500000
  pure (.txHash r.1)

/-- `activity7_set_fee_token`: `setUserToken(BetaUSD)` on the fee manager. -/
def activity7SetFeeToken : Web3 Ret := guarded do
  let betaUsd ← Web3.tokenAddr cfg "BetaUSD"
  let r ← transact cfg web3 wallet (some cfg.feeManager) (pure (.setUserToken betaUsd)) 100000
  pure (.txHash r.1)

/-- The issuer-role step of `activity8_mint_tokens`: a failed `hasRole` read counts as a
missing role, and a failed grant is swallowed. -/
def grantIssuerIfNeeded (token : Addr) : Web3 Unit := do
  let needsRole ← Web3.tryCatch
    (do
      let hasRole : Bool ← Web3.rpc web3 (.call token (.hasRole .issuer wallet.address))
      pure !hasRole)
    (fun _ => pure true)
  if needsRole then
    Web3.tryCatch
      (do
        let _ ← transact cfg web3 wallet (some token)
          (pure (.grantRole .issuer wallet.address)) 150000
        Web3.sleep 2000)
      (fun _ => pure ())
  else pure ()

/-- `activity8_mint_tokens`: grant the issuer role if needed, then mint `1000 * 10**6`. -/
def activity8MintTokens : Option Addr → Web3 Ret
  | none => pure .none
  | some token => guarded do
      grantIssuerIfNeeded cfg web3 wallet token
      let r ← transact cfg web3 wallet (some token)
        (pure (.mint wallet.address 1000000000)) 200000
      pure (.txHash r.1)

/-- `activity9_burn_tokens`: burn `10 * 10**6` when the balance allows it. -/
def activity9BurnTokens : Option Addr → Web3 Ret
  | none => pure .none
  | some token => guarded do
      let balance : ℕ ← Web3.rpc web3 (.call token (.balanceOf wallet.address))
      if 10000000 ≤ balance then do
        let r ← transact cfg web3 wallet (some token) (pure (.burn 10000000)) 150000
        pure (.txHash r.1)
      else pure (.text "skipped: low balance")

/-- `activity10_transfer_with_memo`: 0.01 PathUSD with the `test-memo` memo. -/
def activity10TransferWithMemo : Web3 Ret := guarded do
  let pathUsd ← Web3.tokenAddr cfg "PathUSD"
  let randomAddress : Addr ← Web3.call .createAccount
  let r ← transact cfg web3 wallet (some pathUsd)
    (pure (.transferWithMemo randomAddress 10000 testMemo)) 150000
  pure (.txHash r.1)

/-- `activity11_limit_order`: a bid (approving PathUSD) or an ask (approving the token)
of `10 * 10**6` on a random stablecoin. -/
def activity11LimitOrder : Web3 Ret := guarded do
  let randomToken ← Web3.choice ["AlphaUSD", "BetaUSD", "ThetaUSD"]
  let token ← Web3.tokenAddr cfg randomToken
  let draw : ℚ ← Web3.call .random
  let isBid := decide (draw < 1 / 2)
  let _ ← (if isBid then do
      let pathUsd ← Web3.tokenAddr cfg "PathUSD"
      approveIfNeeded cfg web3 wallet pathUsd cfg.stablecoinDex 10000000
    else approveIfNeeded cfg web3 wallet token cfg.stablecoinDex 10000000)
  let r ← transact cfg web3 wallet (some cfg.stablecoinDex)
    (pure (.place token 10000000 isBid 0)) 300000
  pure (.txHash r.1)

/-- One iteration of the pool scan: `getPoolId` and `liquidityBalances`, a positive
balance recorded, any failure skipped. -/
def queryPool (pair : (String × Addr) × (String × Addr)) : Web3 (Option Pool) :=
  Web3.tryCatch
    (do
      let poolId : ℕ ← Web3.rpc web3 (.call cfg.feeManager (.getPoolId pair.1.2 pair.2.2))
      let lp : ℕ ← Web3.rpc web3
        (.call cfg.feeManager (.liquidityBalances poolId wallet.address))
      pure (if 0 < lp then some ⟨pair.1.1, pair.2.1, pair.1.2, pair.2.2, lp⟩ else none))
    (fun _ => pure none)

/-- `pools_with_balance` built over the pairs in loop order. -/
def collectPools : List ((String × Addr) × (String × Addr)) → Web3 (List Pool)
  | [] => pure []
  | pair :: rest => do
      let p ← queryPool cfg web3 wallet pair
      let ps ← collectPools rest
      pure (p.toList ++ ps)

/-- `int(lp_balance * withdraw_percent)` with `withdraw_percent = pct / 100`: the balance is
converted to a float, the product rounded, and `int()` truncates the non-negative result. -/
def withdrawShare (lpBalance pct : ℕ) : ℕ :=
  ⌊pyFloat (pyFloat lpBalance * pyFloat ((pct : ℚ) / 100))⌋.toNat

/-- `activity12_remove_liquidity`: scan every pair `i < j`, pick a pool with a position,
and burn `min(max(int(L * (pct / 100)), 10**5), L)` for a random `pct` in `[20, 50]`. -/
def activity12RemoveLiquidity : Web3 Ret := guarded do
  let pools ← collectPools cfg web3 wallet (tokenPairs cfg.tokens)
  match pools with
  | [] => pure (.text "skipped: no lp")
  | p :: ps => do
      let selected ← Web3.choice (p :: ps)
      if selected.lpBalance < 100000 then pure (.text "skipped: low balance")
      else do
        let pct ← Web3.randint 20 50
        let amount := min (max (withdrawShare selected.lpBalance pct) 100000) selected.lpBalance
        let r ← transact cfg web3 wallet (some cfg.feeManager)
          (pure (.burnLiquidity selected.token1Addr selected.token2Addr amount wallet.address))
          500000
        pure (.txHash r.1)

/-- `activity13_grant_role`: grant the pause role to self unless it is held. -/
def activity13GrantRole : Option Addr → Web3 Ret
  | none => pure .none
  | some token => guarded do
      let hasRole : Bool ← Web3.rpc web3 (.call token (.hasRole .pause wallet.address))
      if hasRole then pure .none
      else do
        let r ← transact cfg web3 wallet (some token)
          (pure (.grantRole .pause wallet.address)) 150000
        pure (.txHash r.1)

/-- `activity14_nft`: a contract named after two words of `mnemonic.txt` (or the fallback
words), skipped with `None` when it does not compile. -/
def activity14Nft : Web3 Ret := guarded do
  let words ← Web3.tryCatchWhen
    (do
      let lines : List String ← Web3.call (.readLines "mnemonic.txt")
      pure ((lines.map String.trim).filter (fun w => !w.isEmpty)))
    (fun e => e.kind = .fileNotFound) (fun _ => pure defaultWords)
  let word1 := pyTitle (← Web3.choice words)
  let word2 := pyTitle (← Web3.choice words)
  let msg ← Web3.choice nftMessages
  let compiled ← Web3.tryCatch
    (do
      let _ ← Web3.call (.compile (nftSource (word1 ++ word2) word1 word2 msg)
        ("<stdin>:" ++ word1 ++ word2 ++ "NFT"))
      pure true)
    (fun _ => pure false)
  if compiled then do
    let r ← transact cfg web3 wallet none (pure (.deploy (word1 ++ word2 ++ "NFT"))) 500000
    match r.2.contractAddress with
    | some _ => pure (.txHash r.1)
    | none => Web3.raise checksumNoneError
  else pure .none

/-- `activity16_retriever_nft`: claim one Retriever NFT at price 0 (the allowlist proof
is the constant of the source). -/
def activity16RetrieverNft : Web3 Ret := guarded do
  let r ← transact cfg web3 wallet (some cfg.retrieverNftContract)
    (pure (.claim wallet.address 1 nativeCurrency 0)) 300000
  pure (.txHash r.1)

/-- `activity17_batch_operations`: approve the DEX if needed and swap 0.5 PathUSD to
BetaUSD when the quote is positive. -/
def activity17BatchOperations : Web3 Ret := guarded do
  let pathUsd ← Web3.tokenAddr cfg "PathUSD"
  approveIfNeeded cfg web3 wallet pathUsd cfg.stablecoinDex 500000
  let betaUsd ← Web3.tokenAddr cfg "BetaUSD"
  let quote : ℕ ← Web3.rpc web3
    (.call cfg.stablecoinDex (.quoteSwapExactAmountIn pathUsd betaUsd 500000))
  if 0 < quote then do
    let r ← transact cfg web3 wallet (some cfg.stablecoinDex)
      (pure (.swapExactAmountIn pathUsd betaUsd 500000 (quote * 99 / 100))) 300000
    pure (.txHash r.1)
  else pure .none

end activities

/-- The recipes of `auto.py`, with the arguments beyond `(web3, wallet)`. -/
inductive Activity where
  | deploy
  | faucet (maxRetries : ℕ)
  | sendTokens
  | createStablecoin
  | swap
  | addLiquidity
  | setFeeToken
  | mintTokens (token : Option Addr)
  | burnTokens (token : Option Addr)
  | transferWithMemo
  | limitOrder
  | removeLiquidity
  | grantRole (token : Option Addr)
  | nft
  | retrieverNft
  | batchOperations
deriving DecidableEq, Repr

/-- Run a recipe with a handle and a wallet. -/
def Activity.run (cfg : Config) (web3 : Conn) (wallet : Account) : Activity → Web3 Ret
  | .deploy => activity1Deploy cfg web3 wallet
  | .faucet n => activity2Faucet web3 wallet n
  | .sendTokens => activity3SendTokens cfg web3 wallet
  | .createStablecoin => activity4CreateStablecoin cfg web3 wallet
  | .swap => activity5Swap cfg web3 wallet
  | .addLiquidity => activity6AddLiquidity cfg web3 wallet
  | .setFeeToken => activity7SetFeeToken cfg web3 wallet
  | .mintTokens t => activity8MintTokens cfg web3 wallet t
  | .burnTokens t => activity9BurnTokens cfg web3 wallet t
  | .transferWithMemo => activity10TransferWithMemo cfg web3 wallet
  | .limitOrder => activity11LimitOrder cfg web3 wallet
  | .removeLiquidity => activity12RemoveLiquidity cfg web3 wallet
  | .grantRole t => activity13GrantRole cfg web3 wallet t
  | .nft => activity14Nft cfg web3 wallet
  | .retrieverNft => activity16RetrieverNft cfg web3 wallet
  | .batchOperations => activity17BatchOperations cfg web3 wallet

end TempoSpammer
