import Mathlib.Algebra.Group.Nat.Basic
import Mathlib.Data.Rat.Defs
import Mathlib.Logic.Equiv.Defs

/-! # Chain calls, events and the `Web3` monad

The automation scripts `auto.py` and `smart.py` talk to the outside world through a
`web3` handle (RPC requests, contract reads, signed transactions, confirmation waits),
through Python's `random` module, through `Account.create()`, the Solidity compiler and
the file system.  We model all of this by one monad:

* **Calls** (`Call`).  Every request the code makes to the outside world, with its
  arguments: the RPC operations `Rpc` sent through a handle `Conn`, the contract views
  `View` read with `.call()`, and the local effects (`random.random()`, the index drawn
  by `random.choice`/`randint`, the permutation drawn by `random.shuffle`, a fresh
  account, a compilation, a file read).  The type of the answer depends on the call
  (`Call.Resp`): a `Receipt` for a confirmation wait, a `Bool` for `hasRole`, `Fin n`
  for an index below `n`, a permutation of `Fin n` for a shuffle, ...
* **Events** (`Event`).  A run appends one event per call, carrying the call and its
  answer (a value or a raised exception), one per `raise` of the code itself, and one
  per `time.sleep` and per modelled `print`.
* **Environments** (`Env`).  The behaviour of the chain and of the random source: the
  answer to every call as a function of the whole history of events so far.  Every
  theorem quantifies over all environments, or over those of a stated chain model.
* **Computations** (`Web3`).  `Web3 α = Env → List Event → Except Err α × List Event`:
  given the environment and the history, a computation returns a value or an exception
  and the events it appended.  Exceptions do not roll back events, as in Python.

Signing and `build_transaction` are local and deterministic; a failure of either
behaves as a `send_raw_transaction` that raises, which the model already covers. -/

namespace TempoSpammer

/-- An account or contract address (a 160-bit number). -/
abbrev Addr := ℕ

/-- A `web3` handle: the RPC endpoint and the proxy it is routed through. -/
structure Conn where
  rpc : String
  proxy : Option String
deriving DecidableEq, Repr

/-- A signing account (`eth_account.Account`): its private key and derived address. -/
structure Account where
  key : ℕ
  address : Addr
deriving DecidableEq, Repr

/-- The exception classes the code tells apart. -/
inductive ErrKind where
  | valueError
  | typeError
  | keyError
  | indexError
  | fileNotFound
  | other
deriving DecidableEq, Repr

/-- A raised exception: its class and `str(e)`. -/
structure Err where
  kind : ErrKind
  msg : String
deriving DecidableEq, Repr

/-- The access-control roles of a TIP-20 token (`Web3.keccak(text=...)`). -/
inductive Role where
  | issuer
  | pause
deriving DecidableEq, Repr

/-- Contract view functions read with `.call()`. -/
inductive View where
  | balanceOf (owner : Addr)
  | allowance (owner spender : Addr)
  | quoteSwapExactAmountIn (tokenIn tokenOut : Addr) (amountIn : ℕ)
  | hasRole (role : Role) (account : Addr)
  | getPoolId (token1 token2 : Addr)
  | liquidityBalances (poolId : ℕ) (owner : Addr)
deriving DecidableEq, Repr

/-- Contract functions invoked by a transaction (`contract.constructor()` for a
deployment). -/
inductive Method where
  | deploy (contract : String)
  | transfer (recipient : Addr) (amount : ℕ)
  | createToken (name symbol currency : String) (quoteToken admin : Addr)
  | approve (spender : Addr) (amount : ℕ)
  | swapExactAmountIn (tokenIn tokenOut : Addr) (amountIn minAmountOut : ℕ)
  | mintWithValidatorToken (token1 token2 : Addr) (amount : ℕ) (recipient : Addr)
  | setUserToken (token : Addr)
  | grantRole (role : Role) (account : Addr)
  | mint (recipient : Addr) (amount : ℕ)
  | burn (amount : ℕ)
  | transferWithMemo (recipient : Addr) (amount : ℕ) (memo : String)
  | place (token : Addr) (amount : ℕ) (isBid : Bool) (tick : ℤ)
  | burnLiquidity (token1 token2 : Addr) (amount : ℕ) (recipient : Addr)
  | claim (receiver : Addr) (quantity : ℕ) (currency : Addr) (pricePerToken : ℕ)
  | register (domain : String) (referrer : Addr)
  | createPolicyWithAccounts (admin : Addr) (policyType : ℕ) (accounts : List Addr)
  | changeTransferPolicyId (policyId : ℕ)
deriving DecidableEq, Repr

/-- A transaction as `build_transaction` fills it in. -/
structure Tx where
  sender : Addr
  target : Option Addr
  method : Method
  nonce : ℕ
  gas : ℕ
  gasPrice : ℕ
  chainId : ℕ
deriving DecidableEq, Repr

/-- A receipt log: its topics, and the token that `TokenCreated().process_log` decodes
from it (`none` when decoding raises; the factory ABI lives in `config.py`). -/
structure Log where
  topics : List ℕ
  tokenCreated : Option Addr
deriving DecidableEq, Repr

/-- A transaction receipt. -/
structure Receipt where
  status : ℕ
  contractAddress : Option Addr
  logs : List Log
deriving DecidableEq, Repr

/-- Requests sent through a `web3` handle. -/
inductive Rpc where
  | getBalance (account : Addr)
  | getTransactionCount (account : Addr)
  | gasPrice
  | sendRawTransaction (tx : Tx)
  | waitForTx (txHash : ℕ)
  | fundAddress (account : Addr)
  | call (contract : Addr) (view : View)
deriving DecidableEq, Repr

/-- Every request the code makes to the outside world. -/
inductive Call where
  | rpc (web3 : Conn) (op : Rpc)
  | random
  | randbelow (n : ℕ)
  | shuffle (n : ℕ)
  | createAccount
  | compile (source contract : String)
  | readLines (path : String)
deriving DecidableEq, Repr

/-- The type of the answer to a request. -/
def Rpc.Resp : Rpc → Type
  | .waitForTx _ => Receipt
  | .fundAddress _ => Unit
  | .call _ (.hasRole _ _) => Bool
  | _ => ℕ

/-- The type of the answer to a call. -/
def Call.Resp : Call → Type
  | .rpc _ op => op.Resp
  | .random => ℚ
  | .randbelow n => Fin n
  | .shuffle n => Equiv.Perm (Fin n)
  | .createAccount => Addr
  | .compile _ _ => Unit
  | .readLines _ => List String

/-- What a run records. -/
inductive Event where
  | call (c : Call) (r : Except Err c.Resp)
  | raised (e : Err)
  | sleep (ms : ℕ)
  | print (line : String)

/-- The behaviour of the chain, the random source and the file system: the answer to
every call, given the history of events so far. -/
structure Env where
  answer : (c : Call) → List Event → Except Err c.Resp

/-- A computation: on an environment and a history, a value or an exception, and the
events appended. -/
def Web3 (α : Type) : Type := Env → List Event → Except Err α × List Event

namespace Web3

variable {α β : Type}

/-- Return a value, appending nothing. -/
protected def pure (a : α) : Web3 α := fun _ _ => (.ok a, [])

/-- Run `m`, then `f` on its value with the history extended by `m`'s events. -/
protected def bind (m : Web3 α) (f : α → Web3 β) : Web3 β := fun env h =>
  match m env h with
  | (.ok a, e₁) => let r := f a env (h ++ e₁); (r.1, e₁ ++ r.2)
  | (.error x, e₁) => (.error x, e₁)

instance : Monad Web3 where
  pure := Web3.pure
  bind := Web3.bind

/-- `raise e`. -/
def raise (e : Err) : Web3 α := fun _ _ => (.error e, [.raised e])

/-- `try m except e: handler e`; the events of `m` stay. -/
def tryCatch (m : Web3 α) (handler : Err → Web3 α) : Web3 α := fun env h =>
  match m env h with
  | (.ok a, e₁) => (.ok a, e₁)
  | (.error x, e₁) => let r := handler x env (h ++ e₁); (r.1, e₁ ++ r.2)

/-- Make a call; the environment answers it. -/
def call (c : Call) : Web3 c.Resp := fun env h =>
  let r := env.answer c h
  (r, [.call c r])

/-- Send a request through a handle. -/
def rpc (web3 : Conn) (op : Rpc) : Web3 op.Resp := call (.rpc web3 op)

/-- `time.sleep(ms / 1000)`. -/
def sleep (ms : ℕ) : Web3 Unit := fun _ _ => (.ok (), [.sleep ms])

/-- `print(line)`. -/
def print (line : String) : Web3 Unit := fun _ _ => (.ok (), [.print line])

@[simp] theorem pure_apply (a : α) (env : Env) (h : List Event) :
    (pure a : Web3 α) env h = (.ok a, []) := rfl

theorem bind_apply (m : Web3 α) (f : α → Web3 β) (env : Env) (h : List Event) :
    (m >>= f) env h = match m env h with
      | (.ok a, e₁) => let r := f a env (h ++ e₁); (r.1, e₁ ++ r.2)
      | (.error x, e₁) => (.error x, e₁) := rfl

/-- A bind whose first step returned `a`: `f a` runs after the events of that step. -/
theorem bind_apply_ok {m : Web3 α} {env : Env} {h : List Event} {a : α}
    (ha : (m env h).1 = .ok a) (f : α → Web3 β) : (m >>= f) env h =
      ((f a env (h ++ (m env h).2)).1, (m env h).2 ++ (f a env (h ++ (m env h).2)).2) := by
  rw [bind_apply]
  rcases hmh : m env h with ⟨_ | b, e⟩ <;> rw [hmh] at ha <;> cases ha
  rfl

/-- A bind whose first step raised `x`: nothing more runs. -/
theorem bind_apply_error {m : Web3 α} {env : Env} {h : List Event} {x : Err}
    (hx : (m env h).1 = .error x) (f : α → Web3 β) : (m >>= f) env h = (.error x, (m env h).2) := by
  rw [bind_apply]
  rcases hmh : m env h with ⟨_ | b, e⟩ <;> rw [hmh] at hx <;> cases hx
  rfl

/-- A last step that appends no event leaves the events of the first. -/
theorem bind_snd_of_nil (m : Web3 α) {f : α → Web3 β} (hf : ∀ a env h, (f a env h).2 = [])
    (env : Env) (h : List Event) : ((m >>= f) env h).2 = (m env h).2 := by
  rw [bind_apply]
  rcases m env h with ⟨_ | a, e⟩
  · rfl
  · exact (congrArg (e ++ ·) (hf a env _)).trans (List.append_nil e)

@[simp] theorem pure_bind (a : α) (f : α → Web3 β) : (pure a >>= f) = f a := by
  funext env h
  simp [bind_apply]

theorem bind_assoc {γ : Type} (m : Web3 α) (f : α → Web3 β) (g : β → Web3 γ) :
    (m >>= f >>= g) = m >>= fun a => f a >>= g := by
  funext env h
  simp only [bind_apply]
  rcases m env h with ⟨_ | a, e₁⟩
  · rfl
  · simp only [List.append_assoc]
    rcases f a env (h ++ e₁) with ⟨_ | b, e₂⟩ <;> simp

@[simp] theorem raise_apply (e : Err) (env : Env) (h : List Event) :
    (raise e : Web3 α) env h = (.error e, [.raised e]) := rfl

@[simp] theorem call_apply (c : Call) (env : Env) (h : List Event) :
    call c env h = (env.answer c h, [.call c (env.answer c h)]) := rfl

@[simp] theorem sleep_apply (ms : ℕ) (env : Env) (h : List Event) :
    sleep ms env h = (.ok (), [.sleep ms]) := rfl

@[simp] theorem print_apply (line : String) (env : Env) (h : List Event) :
    print line env h = (.ok (), [.print line]) := rfl

end Web3

/-! ### Postconditions -/

/-- Every value `m` returns, on every environment and history, satisfies `P`. -/
def Returns {α : Type} (m : Web3 α) (P : α → Prop) : Prop :=
  ∀ env h a, (m env h).1 = .ok a → P a

namespace Returns

variable {α β : Type} {P : α → Prop} {Q : β → Prop}

theorem of_forall (m : Web3 α) (hP : ∀ a, P a) : Returns m P := fun _ _ a _ => hP a

theorem mono {m : Web3 α} {P' : α → Prop} (hm : Returns m P) (h : ∀ a, P a → P' a) :
    Returns m P' := fun env hist a ha => h a (hm env hist a ha)

theorem pure {a : α} (ha : P a) : Returns (Pure.pure a : Web3 α) P := by
  rintro _ _ _ ⟨⟩
  exact ha

theorem raise (e : Err) : Returns (Web3.raise e : Web3 α) P := by
  rintro _ _ _ ⟨⟩

theorem bind {m : Web3 α} {f : α → Web3 β} (hm : Returns m P) (hf : ∀ a, P a → Returns (f a) Q) :
    Returns (m >>= f) Q := by
  intro env h b hb
  rw [Web3.bind_apply] at hb
  rcases hmh : m env h with ⟨_ | a, e₁⟩ <;> rw [hmh] at hb
  · cases hb
  · exact hf a (hm env h a (by rw [hmh])) env _ b hb

/-- `m >>= f` returns `Q` when `f a` does for every `a`. -/
theorem bind_right {m : Web3 α} {f : α → Web3 β} (hf : ∀ a, Returns (f a) Q) :
    Returns (m >>= f) Q :=
  (of_forall m fun _ => trivial).bind fun a _ => hf a

theorem tryCatch {m : Web3 α} {handler : Err → Web3 α} (hm : Returns m P)
    (hh : ∀ e, Returns (handler e) P) : Returns (Web3.tryCatch m handler) P := by
  intro env h a ha
  simp only [Web3.tryCatch] at ha
  rcases hmh : m env h with ⟨_ | a', e₁⟩ <;> rw [hmh] at ha
  · exact hh _ env _ a ha
  · exact hm env h a (by rw [hmh]; exact ha)

end Returns

/-- Two continuations that agree on every value `m` returns give the same program. -/
theorem Web3.bind_congr_of_returns {α β : Type} {m : Web3 α} {P : α → Prop}
    {f g : α → Web3 β} (hm : Returns m P) (h : ∀ a, P a → f a = g a) : m >>= f = m >>= g := by
  funext env hist
  simp only [Web3.bind_apply]
  rcases hmh : m env hist with ⟨_ | a, e⟩
  · rfl
  · simp only [h a (hm env hist a (by rw [hmh]))]

@[simp] theorem Web3.raise_bind {α β : Type} (e : Err) (f : α → Web3 β) :
    (Web3.raise e >>= f) = Web3.raise e := rfl

/-! ### Runs that return -/

/-- `m` returns a value, never an exception, on every environment and history. -/
def Total {α : Type} (m : Web3 α) : Prop := ∀ env h, ∃ a, (m env h).1 = .ok a

namespace Total

variable {α β : Type}

theorem pure (a : α) : Total (Pure.pure a : Web3 α) := fun _ _ => ⟨a, rfl⟩

theorem sleep (ms : ℕ) : Total (Web3.sleep ms) := fun _ _ => ⟨(), rfl⟩

theorem print (line : String) : Total (Web3.print line) := fun _ _ => ⟨(), rfl⟩

theorem bind {m : Web3 α} {f : α → Web3 β} (hm : Total m) (hf : ∀ a, Total (f a)) :
    Total (m >>= f) := by
  intro env h
  obtain ⟨a, ha⟩ := hm env h
  obtain ⟨b, hb⟩ := hf a env (h ++ (m env h).2)
  exact ⟨b, by rw [Web3.bind_apply_ok ha]; exact hb⟩

/-- A `try` whose handler always returns. -/
theorem tryCatch (m : Web3 α) {handler : Err → Web3 α} (hh : ∀ e, Total (handler e)) :
    Total (Web3.tryCatch m handler) := by
  intro env h
  simp only [Web3.tryCatch]
  rcases m env h with ⟨_ | a, e₁⟩
  · obtain ⟨a, ha⟩ := hh _ env (h ++ e₁)
    exact ⟨a, ha⟩
  · exact ⟨a, rfl⟩

end Total

/-- A `try` around a body that always returns is the body. -/
theorem Web3.tryCatch_of_total {α : Type} {m : Web3 α} (hm : Total m) (handler : Err → Web3 α) :
    Web3.tryCatch m handler = m := by
  funext env h
  obtain ⟨a, ha⟩ := hm env h
  simp only [Web3.tryCatch]
  rcases hmh : m env h with ⟨_ | b, e⟩ <;> rw [hmh] at ha
  cases ha

end TempoSpammer
