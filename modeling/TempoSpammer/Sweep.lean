import TempoSpammer.Selection
import TempoSpammer.Trace
import TempoSpammer.Activities

/-! # The fixed-catalog sweep of `run_auto_mode`

`run_auto_mode` selects wallets (`all`, or `parse_wallet_selection`), and for each
selected index in turn sets `wallet`, `proxy` and `web3`, builds the list `activities` of
thirteen entries whose `fn` are lambdas over `web3` and `wallet`, shuffles it, and runs
the entries in the shuffled order, each inside a `try` whose handler prints the error.

* The lambdas bind `web3` and `wallet` late: they read the locals of `run_auto_mode`
  when they are called.  `Locals` is that frame, and the call of an entry's `fn` is a
  parameter of the loops: the code's `lateBound` reads the frame, `earlyBound` uses the
  iteration's own handle and account.
* The token-creation entry is run as `created_token = await activity['fn']()`: the
  activity is synchronous, and awaiting the string or `None` it returns raises
  `TypeError` (`awaitValue`), so `created_token` is never assigned and the bonus mint,
  burn and grant-role calls after it are never reached.

A run is read step by step, each step lemma feeding the run lemma over it: an entry's step
prints its header, runs its recipe once on the wallet's handle and key and then does not
reach the chain (`entryStep_runs`, `activityLoop_runs`); a wallet's iteration draws the
order, runs every entry once in it and ends with the pause before the next wallet
(`walletIteration_sweeps`, `walletLoop_sweeps`); and `run_auto_mode` sweeps the processed
indices in increasing order, each with its own key (`runAutoMode_sweeps`, `sweep_coverage`).

Printing is modelled except for the banners, the selection examples, the count of keys
and the wallet header (which shows the checksummed address).

The selection is read against the parser's results: `wallet_selection_sound_complete`
(the indices are those of the selected numbers, and `private_keys[i]` never fails) and
`wallet_selection_raises` (a part that `int()` cannot unpack as a range raises out of the
parser and ends `run_auto_mode` before any wallet). -/

namespace TempoSpammer

/-- The locals of `run_auto_mode` that the loop body reads and writes (`None` while a
name is unbound). -/
structure Locals where
  wallet : Option Account
  web3 : Option Conn
  createdToken : Ret

/-- An entry of `activities`: `id`, `name`, and the recipe its lambda calls. -/
structure Entry where
  id : ℕ
  name : String
  fn : Activity
deriving DecidableEq, Repr

/-- The thirteen entries of `activities`. -/
def catalog : List Entry :=
  [⟨1, "Deploy contract", .deploy⟩, ⟨2, "Faucet", .faucet 3⟩, ⟨3, "Send tokens", .sendTokens⟩,
    ⟨4, "Create stablecoin", .createStablecoin⟩, ⟨5, "Swap", .swap⟩,
    ⟨6, "Add liquidity", .addLiquidity⟩, ⟨7, "Set fee token", .setFeeToken⟩,
    ⟨10, "Transfer with memo", .transferWithMemo⟩, ⟨11, "Limit order", .limitOrder⟩,
    ⟨12, "Remove liquidity", .removeLiquidity⟩, ⟨14, "NFT", .nft⟩,
    ⟨16, "Retriever NFT", .retrieverNft⟩, ⟨17, "Batch Operations", .batchOperations⟩]

/-- How `activity['fn']()` runs in the iteration of a selected index and key: given the
entry and the locals at the time of the call. -/
abbrev Caller := ℕ → Account → Entry → Locals → Web3 Ret

/-- The code's lambdas: `lambda: activityN(web3, wallet)` looks `web3` and `wallet` up
in the frame when it is called. -/
def lateBound (cfg : Config) : Caller := fun _ _ e L =>
  match L.web3, L.wallet with
  | some web3, some wallet => e.fn.run cfg web3 wallet
  | none, _ => Web3.raise ⟨.other,
      "cannot access free variable 'web3' where it is not associated with a value"⟩
  | some _, none => Web3.raise ⟨.other,
      "cannot access free variable 'wallet' where it is not associated with a value"⟩

/-- The recipe called with the handle and account of the iteration's own wallet. -/
def earlyBound (cfg : Config) (proxyFor : ℕ → Option String) : Caller := fun idx key e _ =>
  e.fn.run cfg ⟨cfg.rpcUrl, proxyFor idx⟩ key

/-- Python's `type(v).__name__` for the values an activity returns. -/
def pyTypeName : Ret → String
  | .none => "NoneType"
  | .bool _ => "bool"
  | _ => "str"

/-- The `TypeError` of `await v`. -/
def awaitError (v : Ret) : Err :=
  ⟨.typeError, "object " ++ pyTypeName v ++ " can't be used in 'await' expression"⟩

/-- `await v` on the value of a synchronous call: no such value is awaitable. -/
def awaitValue (v : Ret) : Web3 Ret := Web3.raise (awaitError v)

/-- The argument `created_token` as activities 8, 9 and 13 read it: a token address, or
a falsy value on which they return `None` at once. -/
def tokenArg : Ret → Option Addr
  | .token a => some a
  | _ => none

/-- The handler of the activity loop: an RPC notice when the message contains `502` or
`503`, otherwise the first sixty characters of the message. -/
def reportError (err : Err) : Web3 Unit :=
  if containsStr err.msg "502" || containsStr err.msg "503" then
    Web3.print "  ⚠️ RPC error, continuing..."
  else Web3.print ("  ✗ Error: " ++ String.mk (err.msg.toList.take 60))

/-- `delay = random.randint(2000, 5000) / 1000; time.sleep(delay)`. -/
def activityDelay : Web3 Unit := do
  let delay ← Web3.randint 2000 5000
  Web3.sleep delay

/-- The mark printed after a catalog entry: `✓ Done` when the result is truthy. -/
def resultMark (result : Ret) : String :=
  if result.truthy then "\x1b[1m\x1b[32m  ✓ Done\x1b[0m" else "\x1b[1m\x1b[31m  ✗ Failed\x1b[0m"

section sweep

variable (cfg : Config) (call : Caller)

/-- The token-creation branch after `created_token` is assigned: the mark, or the bonus
mint, burn and grant-role calls with `created_token` (the address printed after the mark
is left out; the locals are bound whenever the branch runs). -/
def createdBranch (L : Locals) : Web3 Unit :=
  match L.web3, L.wallet with
  | some web3, some wallet =>
      if L.createdToken.truthy then Web3.print "\x1b[1m\x1b[32m  ✓ Token created\x1b[0m"
      else do
        Web3.print "\x1b[1m\x1b[31m  ✗ Token not created\x1b[0m"
        Web3.sleep 3000
        Web3.print "\n[Bonus] Mint tokens..."
        let mintResult ← activity8MintTokens cfg web3 wallet (tokenArg L.createdToken)
        Web3.print (if mintResult.truthy then "  ✓ Mint done" else "  ✗ Mint failed")
        Web3.sleep 2000
        Web3.print "\n[Bonus] Burn tokens..."
        let burnResult ← activity9BurnTokens cfg web3 wallet (tokenArg L.createdToken)
        Web3.print (if burnResult.truthy then "  ✓ Burn done" else "  ✗ Burn failed")
        Web3.sleep 2000
        Web3.print "\n[Bonus] Grant role..."
        let roleResult ← activity13GrantRole cfg web3 wallet (tokenArg L.createdToken)
        Web3.print (if roleResult.truthy then "  ✓ Role granted" else "  ✗ Role not granted")
  | _, _ => Web3.raise ⟨.other,
      "cannot access local variable 'web3' where it is not associated with a value"⟩

/-- The `elif` branches of the loop body: entries 8, 9 and 13 and entries 15 and 18 are
skipped, any other entry is called and its result marked. -/
def otherEntry (idx : ℕ) (key : Account) (e : Entry) (L : Locals) : Web3 Unit :=
  if e.id ∈ [8, 9, 13] then Web3.print "  ⊘ Skipped (handled after token creation)"
  else if e.id ∈ [15, 18] then Web3.print "  ⊘ Skipped (requires specific params)"
  else do
    let result ← call idx key e L
    Web3.print (resultMark result)

/-- One iteration of the activity loop, for entry `e` at position `j` of `total`, in the
iteration of index `idx` and key `key`: the `try` block and its handler.  An exception
after `created_token` is assigned leaves the assignment in place. -/
def entryStep (idx : ℕ) (key : Account) (total j : ℕ) (e : Entry) (L : Locals) :
    Web3 Locals :=
  Web3.tryCatch
    (do
      Web3.print ("\n[" ++ toString (j + 1) ++ "/" ++ toString total ++ "] " ++ e.name ++ "...")
      if e.id = 4 then do
        let created ← awaitValue (← call idx key e L)
        let L := { L with createdToken := created }
        Web3.tryCatch
          (do
            createdBranch cfg L
            activityDelay
            pure L)
          (fun err => do
            reportError err
            pure L)
      else do
        otherEntry call idx key e L
        activityDelay
        pure L)
    (fun err => do
      reportError err
      pure L)

/-- The listing of the execution order, from position `k`. -/
def printOrder : ℕ → List Entry → Web3 Unit
  | _, [] => pure ()
  | k, e :: rest => do
      Web3.print ("  " ++ toString (k + 1) ++ ". [" ++ toString e.id ++ "] " ++ e.name)
      printOrder (k + 1) rest

/-- `for j in range(len(shuffled))`, from position `j`. -/
def activityLoop (idx : ℕ) (key : Account) (total : ℕ) : ℕ → List Entry → Locals → Web3 Locals
  | _, [], L => pure L
  | j, e :: rest, L => do
      let L ← entryStep cfg call idx key total j e L
      activityLoop idx key total (j + 1) rest L

/-- One iteration of the wallet loop: the `i`-th of `count` selected wallets, with index
`idx` and key `key`. -/
def walletIteration (proxyFor : ℕ → Option String) (count i idx : ℕ) (key : Account)
    (L : Locals) : Web3 Locals := do
  let L := { L with wallet := some key, web3 := some ⟨cfg.rpcUrl, proxyFor idx⟩ }
  let shuffled ← Web3.shuffle catalog
  Web3.print "\nExecution order:"
  printOrder 0 shuffled
  Web3.print ""
  let L := { L with createdToken := .none }
  let L ← activityLoop cfg call idx key shuffled.length 0 shuffled L
  Web3.print ("\n✅ Wallet #" ++ toString (idx + 1) ++ " finished!")
  if i < count - 1 then do
    let delay ← Web3.randint 5000 10000
    Web3.print ("\nWaiting " ++ toString (delay / 1000) ++ "s before next wallet...")
    Web3.sleep delay
  pure L

/-- `for i in range(len(test_wallets))`, over the selected indices and their keys. -/
def walletLoop (proxyFor : ℕ → Option String) (count : ℕ) :
    ℕ → List (ℕ × Account) → Locals → Web3 Locals
  | _, [], L => pure L
  | i, (idx, key) :: rest, L => do
      let L ← walletIteration cfg call proxyFor count i idx key L
      walletLoop proxyFor count (i + 1) rest L

/-- `[private_keys[i] for i in selected_indices]`. -/
def pickKeys (privateKeys : List Account) : List ℕ → Web3 (List Account)
  | [] => pure []
  | i :: rest => do
      let key ← Web3.index privateKeys i
      let keys ← pickKeys privateKeys rest
      pure (key :: keys)

/-- `test_wallets = [private_keys[i] for i in selected_indices]`, then the wallet loop
from unbound locals. -/
def sweepWallets (proxyFor : ℕ → Option String) (privateKeys : List Account)
    (selected : List ℕ) : Web3 Unit := do
  let testWallets ← pickKeys privateKeys selected
  let _ ← walletLoop cfg call proxyFor testWallets.length 0 (selected.zip testWallets)
    ⟨none, none, .none⟩
  pure ()

/-- `run_auto_mode()`, for the keys of `pv.txt` and the typed selection. -/
def runAutoMode (proxyFor : ℕ → Option String) (privateKeys : List Account)
    (selection : String) : Web3 Unit :=
  if privateKeys.length = 0 then Web3.print "❌ Private keys not found in pv.txt"
  else if pyStrip (lowerChars selection) = "all".toList then do
    Web3.print ("\n\x1b[1m\x1b[32m✓ All wallets selected (" ++ toString privateKeys.length ++
      ")\x1b[0m\n")
    sweepWallets cfg call proxyFor privateKeys (List.range privateKeys.length)
  else do
    let selected ← parseWalletSelection selection privateKeys.length
    if selected.length = 0 then Web3.print "\n\x1b[1m\x1b[31m❌ No wallets selected!\x1b[0m"
    else do
      Web3.print ("\n\x1b[1m\x1b[32m✓ Wallets selected: " ++ toString selected.length ++
        "\x1b[0m")
      Web3.print ("\x1b[1m\x1b[36mIndexes:\x1b[0m " ++
        ", ".intercalate (selected.map fun i => toString (i + 1)))
      Web3.print ""
      sweepWallets cfg call proxyFor privateKeys selected

end sweep

/-! ### Steps that do not reach the chain -/

theorem Local.print (line : String) : Local (Web3.print line) := Emits.print rfl

theorem Local.sleep (ms : ℕ) : Local (Web3.sleep ms) := Emits.sleep rfl

theorem Local.tryCatch {α : Type} {m : Web3 α} {handler : Err → Web3 α} (hm : Local m)
    (hh : ∀ e, Local (handler e)) : Local (Web3.tryCatch m handler) := Emits.tryCatch hm hh

theorem Local.choices {α : Type} (l : List α) : ∀ k, Local (Web3.choices l k)
  | 0 => Local.pure _
  | k + 1 => (Local.choice l).bind fun _ => (choices l k).bind fun _ => Local.pure _

theorem Local.findTokenCreated : ∀ logs, Local (TempoSpammer.findTokenCreated logs)
  | [] => Local.pure _
  | log :: rest => by
      refine (Local.tryCatch ?_ fun _ => Local.pure _).bind fun r => ?_
      · split
        exacts [Local.pure _, Local.raise _]
      · cases r
        exacts [findTokenCreated rest, Local.pure _]

theorem Local.intOrRaise (s : List Char) : Local (intOrRaise s) := by
  unfold TempoSpammer.intOrRaise
  split
  exacts [Local.pure _, Local.raise _]

theorem Local.unpackRange (pieces : List (List Char)) : Local (unpackRange pieces) := by
  unfold TempoSpammer.unpackRange
  split
  · exact Local.raise _
  · exact (Local.intOrRaise _).bind fun _ => Local.raise _
  · exact (Local.intOrRaise _).bind fun _ => (Local.intOrRaise _).bind fun _ => Local.pure _
  · exact (Local.intOrRaise _).bind fun _ => (Local.intOrRaise _).bind fun _ =>
      (Local.intOrRaise _).bind fun _ => Local.raise _

theorem Local.selectParts (total : ℕ) :
    ∀ parts (selected : List ℕ), Local (selectParts total parts selected)
  | [], _ => Local.pure _
  | part :: rest, selected => by
      unfold TempoSpammer.selectParts
      split
      · refine (Local.unpackRange _).bind fun _ => ?_
        split
        split
        exacts [(Local.print _).bind fun _ => selectParts total rest _, selectParts total rest _]
      · refine (Local.tryCatch ((Local.intOrRaise _).bind fun _ => ?_) fun _ => ?_).bind
          fun _ => selectParts total rest _
        · split
          exacts [(Local.print _).bind fun _ => Local.pure _, Local.pure _]
        · split
          exacts [(Local.print _).bind fun _ => Local.pure _, Emits.reraise _]

theorem Local.parseWalletSelection (inputStr : String) (total : ℕ) :
    Local (parseWalletSelection inputStr total) :=
  (Local.selectParts total _ _).bind fun _ => Local.pure _

theorem Local.pickKeys (privateKeys : List Account) :
    ∀ selected, Local (pickKeys privateKeys selected)
  | [] => Local.pure _
  | _ :: rest => (Local.index _ _).bind fun _ => (pickKeys privateKeys rest).bind fun _ =>
      Local.pure _

theorem Local.printOrder : ∀ k entries, Local (printOrder k entries)
  | _, [] => Local.pure _
  | k, _ :: rest => (Local.print _).bind fun _ => printOrder (k + 1) rest

theorem Local.reportError (err : Err) : Local (reportError err) := by
  unfold TempoSpammer.reportError
  split <;> exact Local.print _

theorem Local.activityDelay : Local activityDelay :=
  (Local.randint _ _).bind fun _ => Local.sleep _

/-- The header line of step `j` of `total`. -/
def stepHeader (total j : ℕ) (e : Entry) : String :=
  "\n[" ++ toString (j + 1) ++ "/" ++ toString total ++ "] " ++ e.name ++ "..."

/-! ### Every entry runs, with its own wallet's handle and account -/

section coverage

variable (cfg : Config) (call : Caller) (idx : ℕ) (key : Account) (total : ℕ)

theorem reportError_total (err : Err) : Total (reportError err) := by
  unfold reportError
  split
  exacts [Total.print _, Total.print _]

/-- No exception leaves a step of the activity loop: the handler only prints. -/
theorem entryStep_total (j : ℕ) (e : Entry) (L : Locals) :
    Total (entryStep cfg call idx key total j e L) :=
  Total.tryCatch _ fun err => (reportError_total err).bind fun _ => Total.pure L

/-- A step of the activity loop writes only `created_token`. -/
theorem entryStep_frame (j : ℕ) (e : Entry) (L : Locals) :
    Returns (entryStep cfg call idx key total j e L) fun L' =>
      L'.wallet = L.wallet ∧ L'.web3 = L.web3 := by
  have handler : ∀ (L' : Locals) (err : Err), L'.wallet = L.wallet → L'.web3 = L.web3 →
      Returns (do reportError err; pure L' : Web3 Locals) fun L'' =>
        L''.wallet = L.wallet ∧ L''.web3 = L.web3 :=
    fun L' _ h₁ h₂ => Returns.bind_right fun _ => Returns.pure ⟨h₁, h₂⟩
  refine Returns.tryCatch (Returns.bind_right fun _ => ?_) fun err => handler L err rfl rfl
  split
  · exact Returns.bind_right fun _ => Returns.bind_right fun _ =>
      Returns.tryCatch (Returns.bind_right fun _ => Returns.bind_right fun _ =>
        Returns.pure ⟨rfl, rfl⟩) fun err => handler _ err rfl rfl
  · exact Returns.bind_right fun _ => Returns.bind_right fun _ => Returns.pure ⟨rfl, rfl⟩

/-- The activity loop runs to its end, whatever the activities raise. -/
theorem activityLoop_total : ∀ (j : ℕ) (xs : List Entry) (L : Locals),
    Total (activityLoop cfg call idx key total j xs L)
  | _, [], L => Total.pure L
  | j, e :: rest, L =>
      (entryStep_total cfg call idx key total j e L).bind fun L' =>
        activityLoop_total (j + 1) rest L'

/-- A step calls `activity['fn']()` only on the locals it starts from. -/
theorem entryStep_congr {call' : Caller} {j : ℕ} {e : Entry} {L : Locals}
    (h : call idx key e L = call' idx key e L) :
    entryStep cfg call idx key total j e L = entryStep cfg call' idx key total j e L := by
  unfold entryStep otherEntry
  rw [h]

variable (proxyFor : ℕ → Option String)

/-- **Late binding is harmless.** Inside the iteration of `idx` and `key`, the lambdas
that read `web3` and `wallet` from the frame call the recipes with the iteration's own
handle and account. -/
theorem activityLoop_lateBound : ∀ (j : ℕ) (xs : List Entry) (L : Locals),
    L.web3 = some ⟨cfg.rpcUrl, proxyFor idx⟩ → L.wallet = some key →
    activityLoop cfg (lateBound cfg) idx key total j xs L =
      activityLoop cfg (earlyBound cfg proxyFor) idx key total j xs L
  | _, [], _, _, _ => rfl
  | j, e :: rest, L, hw, hk => by
      have hcall : lateBound cfg idx key e L = earlyBound cfg proxyFor idx key e L := by
        simp [lateBound, earlyBound, hw, hk]
      simp only [activityLoop]
      rw [entryStep_congr cfg _ idx key total hcall]
      exact Web3.bind_congr_of_returns (entryStep_frame cfg _ idx key total j e L)
        fun L' ⟨h₁, h₂⟩ => activityLoop_lateBound (j + 1) rest L' (h₂.trans hw) (h₁.trans hk)

theorem walletIteration_lateBound (count i : ℕ) (L : Locals) :
    walletIteration cfg (lateBound cfg) proxyFor count i idx key L =
      walletIteration cfg (earlyBound cfg proxyFor) proxyFor count i idx key L := by
  simp only [walletIteration, activityLoop_lateBound cfg idx key _ proxyFor]

theorem walletLoop_lateBound (count : ℕ) : ∀ (i : ℕ) (pairs : List (ℕ × Account)) (L : Locals),
    walletLoop cfg (lateBound cfg) proxyFor count i pairs L =
      walletLoop cfg (earlyBound cfg proxyFor) proxyFor count i pairs L
  | _, [], _ => rfl
  | i, (idx, key) :: rest, L => by
      simp only [walletLoop, walletIteration_lateBound, walletLoop_lateBound]

theorem runAutoMode_lateBound (privateKeys : List Account) (selection : String) :
    runAutoMode cfg (lateBound cfg) proxyFor privateKeys selection =
      runAutoMode cfg (earlyBound cfg proxyFor) proxyFor privateKeys selection := by
  simp only [runAutoMode, sweepWallets, walletLoop_lateBound]

/-- The keys of indices in range are picked without an exception. -/
theorem pickKeys_total (privateKeys : List Account) : ∀ selected : List ℕ,
    (∀ i ∈ selected, i < privateKeys.length) → Total (pickKeys privateKeys selected)
  | [], _ => Total.pure _
  | i :: rest, h => by
      have hi := h i (List.mem_cons_self i rest)
      refine Total.bind (fun env hist => ⟨privateKeys[i], ?_⟩) fun _ =>
        (pickKeys_total privateKeys rest fun j hj => h j (List.mem_cons_of_mem i hj)).bind
          fun _ => Total.pure _
      simp [Web3.index, List.getElem?_eq_getElem hi]

end coverage

/-! ### Every selected wallet and every entry, once and in order -/

/-- The events of `m >>= f` when no `f a` reaches the chain: those of `m`, then events that
do not reach it. -/
theorem Local.bind_events {α β : Type} (m : Web3 α) {f : α → Web3 β} (hf : ∀ a, Local (f a))
    (env : Env) (h : List Event) :
    ∃ after, (∀ ev ∈ after, ev.isLocal) ∧ ((m >>= f) env h).2 = (m env h).2 ++ after := by
  cases hr : (m env h).1 with
  | error x =>
    refine ⟨[], fun _ h => absurd h (List.not_mem_nil _), ?_⟩
    rw [Web3.bind_apply_error hr, List.append_nil]
  | ok a =>
    rw [Web3.bind_apply_ok hr]
    exact ⟨(f a env (h ++ (m env h).2)).2, hf a env _, rfl⟩

/-- The events of a `try` whose handler does not reach the chain. -/
theorem Local.tryCatch_events {α : Type} (m : Web3 α) {handler : Err → Web3 α}
    (hh : ∀ x, Local (handler x)) (env : Env) (h : List Event) :
    ∃ after, (∀ ev ∈ after, ev.isLocal) ∧ (Web3.tryCatch m handler env h).2 = (m env h).2 ++ after := by
  simp only [Web3.tryCatch]
  rcases m env h with ⟨_ | a, e⟩
  · next x => exact ⟨(handler x env (h ++ e)).2, hh x env _, rfl⟩
  · exact ⟨[], fun _ h => absurd h (List.not_mem_nil _), (List.append_nil e).symm⟩

section runs

variable (cfg : Config) (web3 : Conn) (key : Account) (total : ℕ) (env : Env)

/-- The events of the step of entry `e` at position `j` on the history `h`: its header, the
run of its recipe on `web3` and `key`, then `after`. -/
def stepEvents (j : ℕ) (e : Entry) (h after : List Event) : List Event :=
  .print (stepHeader total j e) ::
    (e.fn.run cfg web3 key env (h ++ [.print (stepHeader total j e)])).2 ++ after

/-- `evs` runs the entries `xs` from position `j` on the history `h`: one step per entry, in
order, each its header, one run of its recipe on `web3` and `key`, and then only events
that do not reach the chain. -/
def RunsEntries : ℕ → List Entry → List Event → List Event → Prop
  | _, [], _, evs => evs = []
  | j, e :: rest, h, evs => ∃ after tail, (∀ ev ∈ after, ev.isLocal) ∧
      evs = stepEvents cfg web3 key total env j e h after ++ tail ∧
      RunsEntries (j + 1) rest (h ++ stepEvents cfg web3 key total env j e h after) tail

variable (idx : ℕ)

/-- **One step of the activity loop.** With the locals bound to `web3` and `key`, the step
of a catalog entry prints its header, runs the entry's recipe on them once, and then does
not reach the chain, whatever the recipe raises. -/
theorem entryStep_runs {j : ℕ} {e : Entry} (hid : e.id ∉ [8, 9, 13, 15, 18]) {L : Locals}
    (hw : L.web3 = some web3) (hk : L.wallet = some key) (h : List Event) :
    ∃ after, (∀ ev ∈ after, ev.isLocal) ∧
      (entryStep cfg (lateBound cfg) idx key total j e L env h).2 =
        stepEvents cfg web3 key total env j e h after := by
  have hcall : lateBound cfg idx key e L = e.fn.run cfg web3 key := by
    simp only [lateBound, hw, hk]
  obtain ⟨a₁, l₁, h₁⟩ := Local.tryCatch_events _
    (fun err => (Local.reportError err).bind fun _ => Local.pure L) env h
  rw [entryStep, h₁, Web3.bind_apply_ok rfl]
  simp only [stepEvents, stepHeader, Web3.print_apply]
  split
  · -- the token-creation entry: the `await` raises right after the recipe
    rw [Web3.bind_apply, hcall]
    rcases e.fn.run cfg web3 key env _ with ⟨_ | v, evs⟩
    · exact ⟨a₁, l₁, by simp⟩
    · refine ⟨[.raised (awaitError v)] ++ a₁, fun ev hev => ?_, by simp [awaitValue]⟩
      rcases List.mem_append.mp hev with hev | hev
      exacts [by simp at hev; simp [hev, Event.isLocal], l₁ ev hev]
  · -- any other entry: the mark of its result and the delay
    simp only [List.mem_cons, List.not_mem_nil, or_false, not_or] at hid
    rw [otherEntry, if_neg (by simp [hid.1, hid.2.1, hid.2.2.1]),
      if_neg (by simp [hid.2.2.2.1, hid.2.2.2.2]), Web3.bind_assoc, Web3.bind_apply, hcall]
    have hk : ∀ r, Local (Web3.print (resultMark r) >>= fun _ => activityDelay >>= fun _ =>
        (pure L : Web3 Locals)) := fun _ =>
      (Local.print _).bind fun _ => Local.activityDelay.bind fun _ => Local.pure _
    rcases e.fn.run cfg web3 key env _ with ⟨_ | v, evs⟩
    · exact ⟨a₁, l₁, by simp⟩
    · dsimp only
      simp only [List.singleton_append, List.append_assoc, List.cons_append]
      refine ⟨_, fun ev hev => ?_, rfl⟩
      exact (List.mem_append.mp hev).elim (hk v env _ ev) (l₁ ev)

/-- **The activity loop runs every entry once, in order.** With the locals bound to `web3`
and `key`, the loop over catalog entries `xs` runs them one step each, in the order of
`xs`, each step calling its recipe on `web3` and `key`. -/
theorem activityLoop_runs : ∀ (j : ℕ) (xs : List Entry) (L : Locals) (h : List Event),
    (∀ e ∈ xs, e.id ∉ [8, 9, 13, 15, 18]) → L.web3 = some web3 → L.wallet = some key →
    RunsEntries cfg web3 key total env j xs h
      (activityLoop cfg (lateBound cfg) idx key total j xs L env h).2
  | _, [], _, _, _, _, _ => rfl
  | j, e :: rest, L, h, hxs, hw, hk => by
      obtain ⟨after, hloc, hev⟩ := entryStep_runs cfg web3 key total env idx
        (hxs e (List.mem_cons_self e rest)) hw hk h
      obtain ⟨L', hL'⟩ := entryStep_total cfg (lateBound cfg) idx key total j e L env h
      obtain ⟨hk', hw'⟩ := entryStep_frame cfg (lateBound cfg) idx key total j e L env h L' hL'
      simp only [activityLoop]
      rw [Web3.bind_apply_ok hL', hev]
      exact ⟨after, _, hloc, rfl, hev ▸ activityLoop_runs (j + 1) rest L' _
        (fun e' he' => hxs e' (List.mem_cons_of_mem e he')) (hw'.trans hw) (hk'.trans hk)⟩

end runs

/-- The pause before the next wallet, after `random.randint(5000, 10000)` drew `5000 + r`:
the announcement, then `time.sleep(delay)`. -/
def walletPause (r : Fin 5001) : List Event :=
  [.call (.randbelow 5001) (.ok r),
    .print ("\nWaiting " ++ toString ((5000 + r.val) / 1000) ++ "s before next wallet..."),
    .sleep (5000 + r.val)]

theorem catalog_ids : ∀ e ∈ catalog, e.id ∉ [8, 9, 13, 15, 18] := by decide

theorem printOrder_ok : ∀ k xs env h, (printOrder k xs env h).1 = .ok ()
  | _, [], _, _ => rfl
  | k, _ :: rest, env, h => by
      rw [printOrder, Web3.bind_apply_ok rfl]
      exact printOrder_ok (k + 1) rest env _

/-- Python's random source answers the draws of the sweep, as `random.shuffle` and
`random.randint` always do. -/
def RandomAnswers (env : Env) : Prop :=
  ∀ h, (∀ n, ∃ σ : Equiv.Perm (Fin n), env.answer (.shuffle n) h = .ok σ) ∧
    ∀ n, ∃ i : Fin (n + 1), env.answer (.randbelow (n + 1)) h = .ok i

section wallets

variable (cfg : Config) (proxyFor : ℕ → Option String) (env : Env)

/-- `evs` sweeps the wallet of index `idx` and key `key` on the history `h`: the shuffle
draws `σ` and the order is listed, the catalog's entries run in the order `σ` gives, each
calling its recipe once on the wallet's own handle and account, the end of the wallet is
printed, and, when `pause` is set, the pause before the next wallet follows. -/
def SweepsWallet (pause : Bool) (idx : ℕ) (key : Account) (h evs : List Event) : Prop :=
  ∃ (σ : Equiv.Perm (Fin catalog.length)) (pre body : List Event) (r : Fin 5001),
    pre.head? = some (.call (.shuffle catalog.length) (.ok σ)) ∧ (∀ ev ∈ pre, ev.isLocal) ∧
    RunsEntries cfg ⟨cfg.rpcUrl, proxyFor idx⟩ key catalog.length env 0
      (List.ofFn (catalog.get ∘ σ)) (h ++ pre) body ∧
    evs = pre ++ body ++ .print ("\n✅ Wallet #" ++ toString (idx + 1) ++ " finished!") ::
      if pause then walletPause r else []

/-- **One iteration of the wallet loop.** When the random source answers, the iteration of
index `idx` and key `key` returns, and its events sweep that wallet, with the pause before
the next one unless it is the last. -/
theorem walletIteration_sweeps (henv : RandomAnswers env) (count i idx : ℕ) (key : Account)
    (L : Locals) (h : List Event) :
    ∃ L', (walletIteration cfg (lateBound cfg) proxyFor count i idx key L env h).1 = .ok L' ∧
      SweepsWallet cfg proxyFor env (decide (i < count - 1)) idx key h
        (walletIteration cfg (lateBound cfg) proxyFor count i idx key L env h).2 := by
  obtain ⟨σ, hσ⟩ := (henv h).1 catalog.length
  set xs := List.ofFn (catalog.get ∘ σ)
  have hxs : ∀ e ∈ xs, e.id ∉ [8, 9, 13, 15, 18] := fun e he => by
    obtain ⟨k, rfl⟩ := List.mem_ofFn _ _ |>.mp he
    exact catalog_ids _ (List.get_mem _ _ _)
  unfold walletIteration
  dsimp only
  rw [Web3.bind_apply, Web3.shuffle_apply hσ]
  dsimp only
  rw [Web3.bind_apply_ok rfl, Web3.bind_apply_ok (printOrder_ok _ _ _ _), Web3.bind_apply_ok rfl]
  simp only [Web3.print_apply]
  generalize hO : (printOrder 0 xs env _).2 = O
  have hO' : ∀ ev ∈ O, ev.isLocal := hO ▸ Local.printOrder 0 xs env _
  -- the draw, the order and a blank line come before the first entry
  have hloc : ∀ ev ∈ [Event.call (.shuffle catalog.length) (.ok σ), .print "\nExecution order:"] ++
      O ++ [.print ""], ev.isLocal := fun ev hev => by
    simp only [List.cons_append, List.singleton_append, List.mem_cons, List.mem_append,
      List.mem_singleton, List.not_mem_nil, or_false, false_or] at hev
    rcases hev with rfl | rfl | hev | rfl
    exacts [rfl, rfl, hO' ev hev, rfl]
  generalize hH : h ++ [Event.call (.shuffle catalog.length) (.ok σ)] ++
    [Event.print "\nExecution order:"] ++ O ++ [Event.print ""] = H
  obtain ⟨L₁, hL₁⟩ := activityLoop_total cfg (lateBound cfg) idx key xs.length 0 xs
    ⟨some key, some ⟨cfg.rpcUrl, proxyFor idx⟩, .none⟩ env H
  have hB := activityLoop_runs cfg ⟨cfg.rpcUrl, proxyFor idx⟩ key xs.length env idx 0 xs
    ⟨some key, some ⟨cfg.rpcUrl, proxyFor idx⟩, .none⟩ H hxs rfl rfl
  rw [Web3.bind_apply_ok hL₁, Web3.bind_apply_ok rfl]
  simp only [Web3.print_apply]
  generalize (activityLoop cfg (lateBound cfg) idx key xs.length 0 xs _ env H).2 = B at hB ⊢
  have hH' : H = h ++ ([.call (.shuffle catalog.length) (.ok σ), .print "\nExecution order:"] ++
      O ++ [.print ""]) := by
    rw [← hH]; simp
  rw [show xs.length = catalog.length from List.length_ofFn _, hH'] at hB
  generalize hF : Event.print ("\n✅ Wallet #" ++ toString (idx + 1) ++ " finished!") = F
  split
  · next hi =>
    obtain ⟨r, hr⟩ := (henv (H ++ B ++ [F])).2 (10000 - 5000)
    rw [Web3.bind_apply, Web3.randint_apply hr]
    refine ⟨L₁, rfl, σ, _, B, r, by rfl, hloc, hB, ?_⟩
    simp only [decide_eq_true hi, if_true, List.append_assoc, List.cons_append, List.singleton_append]
    subst hF
    rfl
  · next hi =>
    refine ⟨L₁, rfl, σ, _, B, 0, by rfl, hloc, hB, ?_⟩
    simp only [decide_eq_false hi, List.append_assoc, List.cons_append, List.singleton_append]
    subst hF
    rfl

/-- `evs` sweeps the wallets `owners` (index and key) on the history `h`: one segment per
wallet, in order, each the sweep of that wallet, with the pause before the next one after
every wallet but the last. -/
def SweepsWallets : List (ℕ × Account) → List Event → List Event → Prop
  | [], _, evs => evs = []
  | (idx, key) :: rest, h, evs => ∃ seg tail,
      SweepsWallet cfg proxyFor env (!rest.isEmpty) idx key h seg ∧ evs = seg ++ tail ∧
        SweepsWallets rest (h ++ seg) tail

/-- **The wallet loop sweeps every wallet once, in order.** When the random source answers,
the loop over `pairs`, from position `i` of `count = i + len(pairs)`, is the sweep of each
pair's wallet in turn. -/
theorem walletLoop_sweeps (henv : RandomAnswers env) (count : ℕ) :
    ∀ (i : ℕ) (pairs : List (ℕ × Account)) (L : Locals) (h : List Event),
      i + pairs.length = count →
      SweepsWallets cfg proxyFor env pairs h
        (walletLoop cfg (lateBound cfg) proxyFor count i pairs L env h).2
  | _, [], _, _, _ => rfl
  | i, (idx, key) :: rest, L, h, hcount => by
      obtain ⟨L', hL', hsw⟩ := walletIteration_sweeps cfg proxyFor env henv count i idx key L h
      have hpause : decide (i < count - 1) = !rest.isEmpty := by
        cases rest <;> simp at hcount ⊢ <;> omega
      rw [hpause] at hsw
      simp only [walletLoop]
      rw [Web3.bind_apply_ok hL']
      exact ⟨_, _, hsw, rfl, walletLoop_sweeps henv count (i + 1) rest L' _
        (by simp only [List.length_cons] at hcount; omega)⟩

/-- `[private_keys[i] for i in selected]`, paired with the indices: each key is the one
at its index. -/
theorem pickKeys_owners (privateKeys : List Account) : ∀ selected : List ℕ,
    Returns (pickKeys privateKeys selected) fun keys => keys.length = selected.length ∧
      (selected.zip keys).map Prod.fst = selected ∧
        ∀ p ∈ selected.zip keys, privateKeys[p.1]? = some p.2
  | [] => Returns.pure ⟨rfl, rfl, fun _ h => by cases h⟩
  | i :: rest => (Web3.index_getElem? privateKeys i).bind fun key hkey =>
      (pickKeys_owners privateKeys rest).bind fun keys hkeys => Returns.pure
        ⟨by simp [hkeys.1], by simp [hkeys.2.1], by
          simpa only [List.zip_cons_cons, List.mem_cons, forall_eq_or_imp] using ⟨hkey, hkeys.2.2⟩⟩

/-- `sweep_wallets` over in-range indices: the keys are picked, then the wallet loop sweeps
each selected wallet with its key. -/
theorem sweepWallets_sweeps (henv : RandomAnswers env) (privateKeys : List Account)
    (selected : List ℕ) (hsel : ∀ i ∈ selected, i < privateKeys.length) (h : List Event) :
    ∃ pre rest owners,
      (sweepWallets cfg (lateBound cfg) proxyFor privateKeys selected env h).2 = pre ++ rest ∧
      (∀ ev ∈ pre, ev.isLocal) ∧ owners.map Prod.fst = selected ∧
      (∀ p ∈ owners, privateKeys[p.1]? = some p.2) ∧ SweepsWallets cfg proxyFor env owners (h ++ pre) rest := by
  obtain ⟨keys, hkeys⟩ := pickKeys_total privateKeys selected hsel env h
  obtain ⟨hlen, hfst, hown⟩ := pickKeys_owners privateKeys selected env h keys hkeys
  unfold sweepWallets
  rw [Web3.bind_apply_ok hkeys, Web3.bind_snd_of_nil _ (fun _ _ _ => rfl)]
  exact ⟨_, _, selected.zip keys, rfl, Local.pickKeys privateKeys selected env h, hfst, hown,
    walletLoop_sweeps cfg proxyFor env henv _ 0 _ _ _ (by simp [hlen])⟩

/-- The indices `run_auto_mode` processes in a run on `env` from the history `h`: none
without keys, all of them for `all`, and otherwise those `parse_wallet_selection` returns
(none when it raises). -/
def runSelection (privateKeys : List Account) (selection : String) (h : List Event) : List ℕ :=
  if privateKeys.length = 0 then []
  else if pyStrip (lowerChars selection) = "all".toList then List.range privateKeys.length
  else match (parseWalletSelection selection privateKeys.length env h).1 with
    | .ok selected => selected
    | .error _ => []

/-- The processed indices are strictly increasing and have a key. -/
theorem runSelection_sorted (privateKeys : List Account) (selection : String) (h : List Event) :
    (runSelection env privateKeys selection h).Sorted (· < ·) ∧
      ∀ i ∈ runSelection env privateKeys selection h, i < privateKeys.length := by
  unfold runSelection
  split
  · exact ⟨List.sorted_nil, List.forall_mem_nil _⟩
  split
  · exact ⟨List.sorted_lt_range _, fun _ => List.mem_range.mp⟩
  split
  next selected hsel => exact parseWalletSelection_indices selection _ env h selected hsel
  · exact ⟨List.sorted_nil, List.forall_mem_nil _⟩

/-- **A run of `run_auto_mode`.** When the random source answers, its events are a prefix
that does not reach the chain, then the sweep of each processed index with its key. -/
theorem runAutoMode_sweeps (henv : RandomAnswers env) (privateKeys : List Account)
    (selection : String) (h : List Event) :
    ∃ pre rest owners,
      (runAutoMode cfg (lateBound cfg) proxyFor privateKeys selection env h).2 = pre ++ rest ∧
      (∀ ev ∈ pre, ev.isLocal) ∧ owners.map Prod.fst = runSelection env privateKeys selection h ∧
      (∀ p ∈ owners, privateKeys[p.1]? = some p.2) ∧
      SweepsWallets cfg proxyFor env owners (h ++ pre) rest := by
  have hsel := (runSelection_sorted env privateKeys selection h).2
  unfold runAutoMode
  unfold runSelection at hsel ⊢
  split_ifs at hsel ⊢ with h0 hall
  · exact ⟨_, [], [], (List.append_nil _).symm, Local.print _ env h, rfl, List.forall_mem_nil _, rfl⟩
  · obtain ⟨pre, rest, owners, hev, hpre, hown⟩ :=
      sweepWallets_sweeps cfg proxyFor env henv privateKeys _ hsel _
    rw [Web3.bind_apply_ok rfl, hev, ← List.append_assoc]
    refine ⟨_, rest, owners, rfl, ?_, by simpa only [List.append_assoc] using hown⟩
    exact List.forall_mem_append.mpr ⟨Local.print _ env h, hpre⟩
  cases hparse : (parseWalletSelection selection privateKeys.length env h).1 with
  | error x =>
    rw [Web3.bind_apply_error hparse]
    exact ⟨_, [], [], (List.append_nil _).symm, Local.parseWalletSelection _ _ env h, rfl, List.forall_mem_nil _, rfl⟩
  | ok selected =>
    simp only [hparse] at hsel ⊢
    rw [Web3.bind_apply_ok hparse]
    split
    next hnil =>
      refine ⟨_, [], [], (List.append_nil _).symm, List.forall_mem_append.mpr
        ⟨Local.parseWalletSelection _ _ env h, Local.print _ env _⟩, ?_, List.forall_mem_nil _, rfl⟩
      exact (List.length_eq_zero.mp hnil).symm
    · obtain ⟨pre, rest, owners, hev, hpre, hown⟩ :=
        sweepWallets_sweeps cfg proxyFor env henv privateKeys _ hsel _
      rw [Web3.bind_apply_ok rfl, Web3.bind_apply_ok rfl, Web3.bind_apply_ok rfl, hev]
      simp only [← List.append_assoc]
      refine ⟨_, rest, owners, rfl, fun ev hev => ?_, by simpa only [List.append_assoc] using hown⟩
      simp only [List.mem_append] at hev
      rcases hev with (((hev | hev) | hev) | hev) | hev
      exacts [Local.parseWalletSelection _ _ env h ev hev, Local.print _ env _ ev hev,
        Local.print _ env _ ev hev, Local.print _ env _ ev hev, hpre ev hev]

/-- **Sweep coverage.** When the random source answers, `run_auto_mode` processes the
selected indices in increasing order, each once, and sweeps each: the thirteen entries run
once each, in the drawn order, on that wallet's own handle and key. -/
theorem sweep_coverage (henv : RandomAnswers env) (privateKeys : List Account)
    (selection : String) (h : List Event) :
    (runSelection env privateKeys selection h).Sorted (· < ·) ∧
      ∃ pre rest owners,
        (runAutoMode cfg (lateBound cfg) proxyFor privateKeys selection env h).2 = pre ++ rest ∧
        (∀ ev ∈ pre, ev.isLocal) ∧ owners.map Prod.fst = runSelection env privateKeys selection h ∧
        (∀ p ∈ owners, privateKeys[p.1]? = some p.2) ∧
        SweepsWallets cfg proxyFor env owners (h ++ pre) rest :=
  ⟨(runSelection_sorted env privateKeys selection h).1,
    runAutoMode_sweeps cfg proxyFor env henv privateKeys selection h⟩

end wallets

/-- A chain that answers no request, with a random source that keeps the catalog's order
and draws the shortest pause. -/
def idleEnv : Env :=
  ⟨fun c _ => match c with
    | .shuffle _ => .ok (Equiv.refl _)
    | .randbelow (_ + 1) => .ok (Fin.ofNat 0)
    | _ => .error ⟨.other, "unavailable"⟩⟩

theorem idleEnv_random : RandomAnswers idleEnv := fun _ => ⟨fun _ => ⟨_, rfl⟩, fun _ => ⟨_, rfl⟩⟩

/-- Two keys, both selected: the sweep of each, in order, on the idle chain. -/
theorem two_wallets_swept :
    RandomAnswers idleEnv ∧
      (runSelection idleEnv [⟨1, 100⟩, ⟨2, 200⟩] "all" []).Sorted (· < ·) ∧
      ∃ pre rest owners,
        (runAutoMode demoConfig (lateBound demoConfig) (fun _ => none) [⟨1, 100⟩, ⟨2, 200⟩] "all"
          idleEnv []).2 = pre ++ rest ∧
        (∀ ev ∈ pre, ev.isLocal) ∧ owners.map Prod.fst = runSelection idleEnv [⟨1, 100⟩, ⟨2, 200⟩] "all" [] ∧
        (∀ p ∈ owners, [(⟨1, 100⟩ : Account), ⟨2, 200⟩][p.1]? = some p.2) ∧
        SweepsWallets demoConfig (fun _ => none) idleEnv owners ([] ++ pre) rest :=
  ⟨idleEnv_random, sweep_coverage demoConfig (fun _ => none) idleEnv idleEnv_random _ _ _⟩


/-! ### The token-creation step stops at the `await` -/

section creation

variable (cfg : Config) (call : Caller) (idx : ℕ) (key : Account) (total j : ℕ)

/-- **The token-creation step stops at the `await`.** For the entry with id 4, the step
prints its header, runs the activity, raises the `TypeError` of awaiting its value, and
the handler reports it: `created_token` keeps its value, and the branch with the bonus
mint, burn and grant-role calls is never reached. -/
theorem entryStep_awaits {e : Entry} (he : e.id = 4) (L : Locals) :
    entryStep cfg call idx key total j e L =
      Web3.tryCatch
        (do
          Web3.print (stepHeader total j e)
          let v ← call idx key e L
          Web3.raise (awaitError v))
        (fun err => do
          reportError err
          pure L) := by
  simp only [entryStep, if_pos he, awaitValue, Web3.raise_bind, stepHeader]

end creation

/-- The token-creation entry of the catalog. -/
def createEntry : Entry := ⟨4, "Create stablecoin", .createStablecoin⟩

/-- The locals when the loop reaches the entry: the first wallet's handle and account. -/
def createLocals : Locals := ⟨some ⟨1, 100⟩, some ⟨"rpc", none⟩, .none⟩

/-- A chain on which `createToken` is confirmed with a `TokenCreated` log for token `77`. -/
def tokenEnv : Env :=
  ⟨fun c _ => match c with
    | .randbelow (_ + 1) => .ok (Fin.ofNat 0)
    | .rpc _ (.getTransactionCount _) => .ok (0 : ℕ)
    | .rpc _ .gasPrice => .ok (1 : ℕ)
    | .rpc _ (.sendRawTransaction _) => .ok (5 : ℕ)
    | .rpc _ (.waitForTx _) => .ok ⟨1, none, [⟨[], some 77⟩]⟩
    | _ => .error ⟨.other, "unavailable"⟩⟩

/-- activity4 creates token `77`, but the step that runs it ends with the `TypeError` of
the `await`: the locals are unchanged (`created_token` stays `None`) and the only
transaction sent is the creation. -/
theorem created_token_dropped :
    (activity4CreateStablecoin demoConfig ⟨"rpc", none⟩ ⟨1, 100⟩ tokenEnv []).1 =
        .ok (.token 77) ∧
      (entryStep demoConfig (lateBound demoConfig) 0 ⟨1, 100⟩ 13 0 createEntry createLocals
        tokenEnv []).1 = .ok createLocals ∧
      (entryStep demoConfig (lateBound demoConfig) 0 ⟨1, 100⟩ 13 0 createEntry createLocals
        tokenEnv []).2.getLast? =
        some (.print "  ✗ Error: object str can't be used in 'await' expression") ∧
      ((entryStep demoConfig (lateBound demoConfig) 0 ⟨1, 100⟩ 13 0 createEntry createLocals
        tokenEnv []).2.filterMap Event.sentTx).length = 1 :=
  ⟨rfl, rfl, rfl, rfl⟩

/-! ### The wallet selection of `run_auto_mode` -/

/-- **Wallet-selection parsing is sound and complete.** Whenever
`parse_wallet_selection(s, total_wallets)` returns, its result is the strictly increasing
list of `n - 1` over exactly the numbers `n` that a part of the stripped, space-free,
comma-split input selects, each index below `total_wallets`; so with
`total_wallets = len(private_keys)`, `[private_keys[i] for i in selected_indices]` never
raises. -/
theorem wallet_selection_sound_complete (inputStr : String) (total : ℕ)
    (privateKeys : List Account) :
    Returns (parseWalletSelection inputStr total) (fun idx => idx.Sorted (· < ·) ∧
      (∀ i, i ∈ idx ↔ ∃ part ∈ selectionParts inputStr, PartSelects total part (i + 1)) ∧
      ∀ i ∈ idx, i < total) ∧
    Returns (parseWalletSelection inputStr privateKeys.length)
      fun idx => Total (pickKeys privateKeys idx) :=
  ⟨parseWalletSelection_selects inputStr total,
    (parseWalletSelection_indices inputStr privateKeys.length).mono fun _ h =>
      pickKeys_total privateKeys _ h.2⟩

example : (parseWalletSelection "1, 3-4,9,x" 5 tokenEnv []).1 = .ok [0, 2, 3] := rfl

example : (parseWalletSelection "１, ٣-٤" 5 tokenEnv []).1 = .ok [0, 2, 3] := rfl

/-- **A malformed range aborts the run (a defect).** The range branch lacks the
`except ValueError` of the single-number branch: the parser returns exactly when every
range splits into two pieces `int()` reads, and otherwise `run_auto_mode` ends with the
`ValueError` before any wallet. -/
theorem wallet_selection_raises (inputStr : String) (total : ℕ) :
    (Total (parseWalletSelection inputStr total) ↔
      ∀ part ∈ selectionParts inputStr, partParses part) ∧
    ((∃ part ∈ selectionParts inputStr, partParses part = false) →
      RaisesValueError (parseWalletSelection inputStr total) ∧
      ∀ (cfg : Config) (call : Caller) (proxyFor : ℕ → Option String)
        (privateKeys : List Account), privateKeys ≠ [] →
        pyStrip (lowerChars inputStr) ≠ "all".toList →
        RaisesValueError (runAutoMode cfg call proxyFor privateKeys inputStr) ∧
        ∀ env h, (runAutoMode cfg call proxyFor privateKeys inputStr env h).2 =
          (parseWalletSelection inputStr privateKeys.length env h).2) := by
  obtain ⟨htotal, hraise⟩ := parseWalletSelection_returns_iff inputStr total
  refine ⟨⟨fun ht => ?_, htotal⟩, fun hbad => ⟨hraise hbad, fun cfg call proxyFor keys hkeys hall => ?_⟩⟩
  · by_contra hall
    push_neg at hall
    obtain ⟨part, hpart, hp⟩ := hall
    obtain ⟨a, ha⟩ := ht tokenEnv []
    obtain ⟨msg, hmsg⟩ := hraise ⟨part, hpart, by simpa using hp⟩ tokenEnv []
    rw [ha] at hmsg
    cases hmsg
  · have hparse := (parseWalletSelection_returns_iff inputStr keys.length).2 hbad
    unfold runAutoMode
    rw [if_neg (by simpa using hkeys), if_neg hall]
    exact ⟨hparse.bind _, hparse.bind_events _⟩

/-- With the range `1-x`, `int('x')` raises: `run_auto_mode` ends with that `ValueError`,
and the only event of the run is the exception. -/
theorem malformed_range_aborts :
    (runAutoMode demoConfig (lateBound demoConfig) (fun _ => none) [⟨1, 100⟩] "1-x" tokenEnv
      []).1 = .error ⟨.valueError, "invalid literal for int() with base 10: 'x'"⟩ ∧
    (runAutoMode demoConfig (lateBound demoConfig) (fun _ => none) [⟨1, 100⟩] "1-x" tokenEnv
      []).2 = [.raised ⟨.valueError, "invalid literal for int() with base 10: 'x'"⟩] :=
  ⟨rfl, rfl⟩

end TempoSpammer
