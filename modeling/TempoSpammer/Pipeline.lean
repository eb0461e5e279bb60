import TempoSpammer.Web3
import TempoSpammer.Float
import Mathlib.Data.List.FinRange
import Mathlib.Data.List.Infix

/-! # Configuration, results and the transaction pipeline

The pieces every activity of `auto.py` and `smart.py` is built from:

* `Config`: the contents of `config.py` the code reads (`CONFIG['TOKENS']` in its
  iteration order, the chain id, the RPC endpoint and the system contracts).  The token
  names are the keys of a Python dict, so they are distinct: the structure carries it.
* `Ret`: what an activity returns (`None`, a transaction hash, a token address, a literal
  string such as `'faucet'` or `"skipped: no lp"`, or a boolean), with Python truthiness.
* The random helpers `choice`, `randint` and `shuffle`, as `random` implements them on
  top of one index draw (`randbelow`) or one permutation.
* `transact`: the send site repeated twenty times in the source — read the pending nonce,
  evaluate the call's arguments, read the gas price, sign, `send_raw_transaction`, and
  `sync_wait_for_tx_with_retry`.
* `approveIfNeeded`: the allowance guard repeated in the swap, liquidity, order, batch
  and name activities — read the allowance and, below the action's amount, approve
  `2**256 - 1`.
* `guarded`: the outer `try ... except Exception: return None` of an activity. -/

namespace TempoSpammer

/-- The contents of `config.py` that the modelled code reads. -/
structure Config where
  tokens : List (String × Addr)
  tokens_nodup : (tokens.map Prod.fst).Nodup
  chainId : ℕ
  rpcUrl : String
  tip20Factory : Addr
  stablecoinDex : Addr
  feeManager : Addr
  retrieverNftContract : Addr
  infinityNameContract : Addr
  tip403Registry : Addr

/-- A configuration with the four stablecoins, in the order of `update_balances`. -/
def demoConfig : Config where
  tokens := [("PathUSD", 1), ("AlphaUSD", 2), ("BetaUSD", 3), ("ThetaUSD", 4)]
  tokens_nodup := by decide
  chainId := 1
  rpcUrl := "rpc"
  tip20Factory := 10
  stablecoinDex := 11
  feeManager := 12
  retrieverNftContract := 13
  infinityNameContract := 14
  tip403Registry := 15

/-- What an activity returns. -/
inductive Ret where
  | none
  | txHash (h : ℕ)
  | token (a : Addr)
  | text (s : String)
  | bool (b : Bool)
deriving DecidableEq, Repr

namespace Ret

/-- Python truthiness: `if result:`. -/
def truthy : Ret → Bool
  | .none => false
  | .txHash _ => true
  | .token _ => true
  | .text s => !s.isEmpty
  | .bool b => b

/-- A `"skipped: <reason>"` sentinel. -/
def isSkip : Ret → Bool
  | .text s => "skipped:".toList.isPrefixOf s.toList
  | _ => false

end Ret

/-- `2**256 - 1`, the approval amount. -/
def maxUint256 : ℕ := 2 ^ 256 - 1

/-- `x in s` for strings. -/
def containsStr (s x : String) : Bool := decide (x.toList <:+: s.toList)

namespace Web3

variable {α : Type}

/-- `CONFIG['TOKENS'][name]`, raising `KeyError` when the name is not configured. -/
def tokenAddr (cfg : Config) (name : String) : Web3 Addr :=
  match cfg.tokens.lookup name with
  | some a => pure a
  | none => raise ⟨.keyError, "'" ++ name ++ "'"⟩

theorem tokenAddr_mem (cfg : Config) (name : String) :
    Returns (tokenAddr cfg name) fun a => (name, a) ∈ cfg.tokens := by
  unfold tokenAddr
  split
  next a ha =>
    obtain ⟨l₁, l₂, hl, -⟩ := List.lookup_eq_some_iff.mp ha
    exact Returns.pure (by rw [hl]; simp)
  next => exact Returns.raise _

theorem tokenAddr_lookup (cfg : Config) (name : String) :
    Returns (tokenAddr cfg name) fun a => cfg.tokens.lookup name = some a := by
  unfold tokenAddr
  split
  next a ha => exact Returns.pure ha
  next => exact Returns.raise _

/-- `random.choice(seq)`. -/
def choice : List α → Web3 α
  | [] => raise ⟨.indexError, "Cannot choose from an empty sequence"⟩
  | a :: l => do
      let i : Fin (l.length + 1) ← call (.randbelow (l.length + 1))
      pure ((a :: l).get i)

theorem choice_mem (l : List α) : Returns (choice l) (· ∈ l) := by
  cases l with
  | nil => exact Returns.raise _
  | cons a l => exact (Returns.of_forall _ fun _ => trivial).bind fun i _ =>
      Returns.pure (List.get_mem (a :: l) i.1 i.2)

/-- `random.choices(population, k=k)`: `k` independent draws. -/
def choices (population : List α) : ℕ → Web3 (List α)
  | 0 => pure []
  | k + 1 => do
      let a ← choice population
      let rest ← choices population k
      pure (a :: rest)

/-- `seq[i]`, raising `IndexError` past the end. -/
def index (l : List α) (i : ℕ) : Web3 α :=
  match l.get? i with
  | some a => pure a
  | none => raise ⟨.indexError, "list index out of range"⟩

theorem index_getElem? (l : List α) (i : ℕ) : Returns (index l i) fun a => l[i]? = some a := by
  unfold index
  split
  next a ha => exact Returns.pure (by simpa using ha)
  next => exact Returns.raise _

/-- An exception that an `except` clause does not match propagates unchanged. -/
def reraise (e : Err) : Web3 α := fun _ _ => (.error e, [])

/-- `try m except <class>: handler`, for the exceptions `catches` selects. -/
def tryCatchWhen (m : Web3 α) (catches : Err → Bool) (handler : Err → Web3 α) : Web3 α :=
  tryCatch m fun e => if catches e then handler e else reraise e

/-- `random.randint(a, b)`, that is `a + randbelow(b - a + 1)`. -/
def randint (a b : ℕ) : Web3 ℕ := do
  let i : Fin (b - a + 1) ← call (.randbelow (b - a + 1))
  pure (a + i.val)

/-- `random.shuffle(x)` on a copy: the list rearranged by a drawn permutation. -/
def shuffle (x : List α) : Web3 (List α) := do
  let σ : Equiv.Perm (Fin x.length) ← call (.shuffle x.length)
  pure (List.ofFn (x.get ∘ σ))

end Web3

/-- A shuffle whose permutation is drawn returns the rearranged list. -/
theorem Web3.shuffle_apply {α : Type} {x : List α} {env : Env} {h : List Event}
    {σ : Equiv.Perm (Fin x.length)} (hσ : env.answer (.shuffle x.length) h = .ok σ) :
    Web3.shuffle x env h = (.ok (List.ofFn (x.get ∘ σ)), [.call (.shuffle x.length) (.ok σ)]) := by
  simp [Web3.shuffle, Web3.bind_apply, hσ]

/-- A `randint` whose index is drawn returns `a` plus the index. -/
theorem Web3.randint_apply {a b : ℕ} {env : Env} {h : List Event} {i : Fin (b - a + 1)}
    (hi : env.answer (.randbelow (b - a + 1)) h = .ok i) :
    Web3.randint a b env h = (.ok (a + i.val), [.call (.randbelow (b - a + 1)) (.ok i)]) := by
  simp [Web3.randint, Web3.bind_apply, hi]

/-- The list `shuffle` returns is a rearrangement of its argument. -/
theorem shuffle_perm {α : Type} (x : List α) (σ : Equiv.Perm (Fin x.length)) :
    (List.ofFn (x.get ∘ σ)).Perm x := by
  simpa only [List.ofFn_get] using σ.ofFn_comp_perm x.get

theorem Web3.shuffle_returns_perm {α : Type} (x : List α) :
    Returns (Web3.shuffle x) (·.Perm x) :=
  (Returns.of_forall _ fun _ => trivial).bind fun σ _ => Returns.pure (shuffle_perm x σ)

/-- `random.randint(a, b)` returns a number between `a` and `b`. -/
theorem Web3.randint_mem {a b : ℕ} (hab : a ≤ b) :
    Returns (Web3.randint a b) fun n => a ≤ n ∧ n ≤ b :=
  (Returns.of_forall _ fun _ => trivial).bind fun i _ =>
    Returns.pure ⟨Nat.le_add_right a i.val, by have := i.isLt; omega⟩

section pipeline

variable (cfg : Config) (web3 : Conn) (wallet : Account)

/-- One send site: `nonce = get_transaction_count(address, 'pending')`, the call's
arguments, `build_transaction` with the gas limit and `web3.eth.gas_price`, signing,
`send_raw_transaction`, and `sync_wait_for_tx_with_retry`.  Returns the hash and the
receipt. -/
def transact (target : Option Addr) (method : Web3 Method) (gas : ℕ) : Web3 (ℕ × Receipt) := do
  let nonce : ℕ ← Web3.rpc web3 (.getTransactionCount wallet.address)
  let m ← method
  let gasPrice : ℕ ← Web3.rpc web3 .gasPrice
  let txHash : ℕ ← Web3.rpc web3 (.sendRawTransaction
    { sender := wallet.address, target, method := m, nonce, gas, gasPrice,
      chainId := cfg.chainId })
  let receipt : Receipt ← Web3.rpc web3 (.waitForTx txHash)
  pure (txHash, receipt)

/-- The allowance guard: read `token.allowance(address, spender)` and, when it is below
`amount`, send `approve(spender, 2**256 - 1)` with gas 100000 and wait for it. -/
def approveIfNeeded (token spender amount : ℕ) : Web3 Unit := do
  let allowance : ℕ ← Web3.rpc web3 (.call token (.allowance wallet.address spender))
  if allowance < amount then
    let _ ← transact cfg web3 wallet (some token) (pure (.approve spender maxUint256)) 100000
    pure ()
  else pure ()

end pipeline

/-- The outer `try: ... except Exception as e: print(...); return None` of an activity. -/
def guarded (body : Web3 Ret) : Web3 Ret := Web3.tryCatch body fun _ => pure .none

/-- A guarded body keeps its events and returns `None` in place of an exception. -/
theorem guarded_apply (body : Web3 Ret) (env : Env) (h : List Event) :
    guarded body env h = (.ok (match (body env h).1 with
      | .ok v => v
      | .error _ => .none), (body env h).2) := by
  unfold guarded Web3.tryCatch
  rcases body env h with ⟨_ | _, _⟩ <;> simp [Pure.pure, Web3.pure]

end TempoSpammer
