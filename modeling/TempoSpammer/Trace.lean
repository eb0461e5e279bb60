import TempoSpammer.Pipeline

/-! # What a run emits

`Returns m P` speaks of the values a computation returns; `Emits m P` speaks of the
events it appends: every event of every run, on every environment and history, satisfies
`P`.  Both are closed under the constructs of the monad, one rule each below, so a
property of the events of an activity follows from the rules, without unfolding a run.

The events that matter are the transactions sent (`Event.sentTx`), whatever the node
answered.  `SendsOnly Q` says that every transaction sent satisfies `Q`, and `Quiet m`
that `m` sends nothing, as the reads do.  `Local m` says that `m` does not reach the
chain at all: the random helpers and the lookups of the configuration are local, and so
satisfy every property of events that local events satisfy.  `transact_sends` is the rule of the send site: the one
transaction it sends is from the wallet, to the target, with the gas limit, and carries
a method the argument computation returns.  `SendsOne m` says that a run of `m` sends at
most one transaction, as the send site does (`transact_sendsOne`). -/

namespace TempoSpammer

/-- The transaction a `send_raw_transaction` event broadcast, accepted or not. -/
def Event.sentTx : Event → Option Tx
  | .call (.rpc _ (.sendRawTransaction tx)) _ => some tx
  | _ => none

/-- Every event `m` appends, on every environment and history, satisfies `P`. -/
def Emits {α : Type} (m : Web3 α) (P : Event → Prop) : Prop :=
  ∀ env h, ∀ e ∈ (m env h).2, P e

namespace Emits

variable {α β : Type} {P : Event → Prop}

theorem mono {m : Web3 α} {P' : Event → Prop} (hm : Emits m P) (h : ∀ e, P e → P' e) :
    Emits m P' := fun env hist e he => h e (hm env hist e he)

theorem pure (a : α) : Emits (Pure.pure a : Web3 α) P := by
  rintro _ _ _ ⟨⟩

theorem call {c : Call} (hc : ∀ r, P (.call c r)) : Emits (Web3.call c) P := by
  intro env h e he
  simp only [Web3.call_apply, List.mem_singleton] at he
  exact he ▸ hc _

theorem raise {e : Err} (he : P (.raised e)) : Emits (Web3.raise e : Web3 α) P := by
  intro env h e' he'
  simp only [Web3.raise_apply, List.mem_singleton] at he'
  exact he' ▸ he

theorem reraise (e : Err) : Emits (Web3.reraise e : Web3 α) P := by
  rintro _ _ _ ⟨⟩

theorem sleep {ms : ℕ} (h : P (.sleep ms)) : Emits (Web3.sleep ms) P := by
  intro env hist e he
  simp only [Web3.sleep_apply, List.mem_singleton] at he
  exact he ▸ h

theorem print {line : String} (h : P (.print line)) : Emits (Web3.print line) P := by
  intro env hist e he
  simp only [Web3.print_apply, List.mem_singleton] at he
  exact he ▸ h

/-- The events of `m >>= f`: those of `m`, then those of `f a` for a value `a` that `m`
returns. -/
theorem bind_of_returns {R : α → Prop} {m : Web3 α} {f : α → Web3 β} (hR : Returns m R)
    (hm : Emits m P) (hf : ∀ a, R a → Emits (f a) P) : Emits (m >>= f) P := by
  intro env h e he
  rw [Web3.bind_apply] at he
  rcases hmh : m env h with ⟨_ | a, e₁⟩ <;> rw [hmh] at he
  · exact hm env h e (by rw [hmh]; exact he)
  · rcases List.mem_append.mp he with he | he
    · exact hm env h e (by rw [hmh]; exact he)
    · exact hf a (hR env h a (by rw [hmh])) env _ e he

theorem bind {m : Web3 α} {f : α → Web3 β} (hm : Emits m P) (hf : ∀ a, Emits (f a) P) :
    Emits (m >>= f) P :=
  bind_of_returns (Returns.of_forall m fun _ => trivial) hm fun a _ => hf a

theorem tryCatch {m : Web3 α} {handler : Err → Web3 α} (hm : Emits m P)
    (hh : ∀ e, Emits (handler e) P) : Emits (Web3.tryCatch m handler) P := by
  intro env h e he
  simp only [Web3.tryCatch] at he
  rcases hmh : m env h with ⟨_ | a, e₁⟩ <;> rw [hmh] at he
  · rcases List.mem_append.mp he with he | he
    · exact hm env h e (by rw [hmh]; exact he)
    · exact hh _ env _ e he
  · exact hm env h e (by rw [hmh]; exact he)

end Emits

/-! ### Transactions sent -/

/-- The event, if it sends a transaction, sends one satisfying `Q`. -/
def SendsOnly (Q : Tx → Prop) (e : Event) : Prop := ∀ tx, e.sentTx = some tx → Q tx

/-- `m` sends no transaction. -/
def Quiet {α : Type} (m : Web3 α) : Prop := Emits m fun e => e.sentTx = none

theorem Quiet.sendsOnly {α : Type} {m : Web3 α} (hm : Quiet m) (Q : Tx → Prop) :
    Emits m (SendsOnly Q) :=
  hm.mono fun e he tx htx => by rw [he] at htx; cases htx

namespace Quiet

variable {α β : Type}

theorem pure (a : α) : Quiet (Pure.pure a : Web3 α) := Emits.pure a

theorem bind {m : Web3 α} {f : α → Web3 β} (hm : Quiet m) (hf : ∀ a, Quiet (f a)) :
    Quiet (m >>= f) := Emits.bind hm hf

theorem tryCatch {m : Web3 α} {handler : Err → Web3 α} (hm : Quiet m)
    (hh : ∀ e, Quiet (handler e)) : Quiet (Web3.tryCatch m handler) := Emits.tryCatch hm hh

/-- A call that is not a `send_raw_transaction`. -/
theorem call {c : Call} (hc : ∀ r, (Event.call c r).sentTx = none) : Quiet (Web3.call c) :=
  Emits.call hc

theorem read (web3 : Conn) (contract : Addr) (v : View) :
    Quiet (Web3.rpc web3 (.call contract v)) := call fun _ => rfl

end Quiet

/-! ### Local steps -/

/-- An event that does not reach the chain: a draw of the random source, a local call,
a raise, a sleep or a print. -/
def Event.isLocal : Event → Bool
  | .call (.rpc _ _) _ => false
  | _ => true

/-- `m` does not reach the chain. -/
def Local {α : Type} (m : Web3 α) : Prop := Emits m fun e => e.isLocal

/-- A local step satisfies every event property that local events satisfy. -/
theorem Local.emits {α : Type} {m : Web3 α} {P : Event → Prop} (hm : Local m)
    (hP : ∀ e, e.isLocal → P e) : Emits m P :=
  hm.mono hP

theorem Local.quiet {α : Type} {m : Web3 α} (hm : Local m) : Quiet m :=
  hm.emits fun e he => by
    rcases e with ⟨_ | _, _⟩ <;> first | rfl | simp [Event.isLocal] at he

namespace Local

variable {α β : Type}

theorem pure (a : α) : Local (Pure.pure a : Web3 α) := Emits.pure a

theorem raise (e : Err) : Local (Web3.raise e : Web3 α) := Emits.raise rfl

theorem bind {m : Web3 α} {f : α → Web3 β} (hm : Local m) (hf : ∀ a, Local (f a)) :
    Local (m >>= f) := Emits.bind hm hf

theorem random : Local (Web3.call .random) := Emits.call fun _ => rfl

theorem randbelow (n : ℕ) : Local (Web3.call (.randbelow n)) := Emits.call fun _ => rfl

theorem tokenAddr (cfg : Config) (name : String) : Local (Web3.tokenAddr cfg name) := by
  unfold Web3.tokenAddr
  split
  exacts [pure _, raise _]

theorem choice (l : List α) : Local (Web3.choice l) := by
  cases l
  exacts [raise _, (randbelow _).bind fun _ => pure _]

theorem index (l : List α) (i : ℕ) : Local (Web3.index l i) := by
  unfold Web3.index
  split
  exacts [pure _, raise _]

theorem randint (a b : ℕ) : Local (Web3.randint a b) := (randbelow _).bind fun _ => pure _

theorem shuffle (x : List α) : Local (Web3.shuffle x) :=
  bind (Emits.call fun _ => rfl) fun _ => pure _

end Local

/-- Every run of `m` sends at most one transaction. -/
def SendsOne {α : Type} (m : Web3 α) : Prop :=
  ∀ env h, ((m env h).2.filterMap Event.sentTx).length ≤ 1

theorem Quiet.sentTx_nil {α : Type} {m : Web3 α} (hm : Quiet m) (env : Env) (h : List Event) :
    (m env h).2.filterMap Event.sentTx = [] :=
  List.filterMap_eq_nil_iff.mpr (hm env h)

namespace SendsOne

variable {α β : Type} {m : Web3 α} {f : α → Web3 β}

theorem of_quiet (hm : Quiet m) : SendsOne m := fun env h => by
  rw [hm.sentTx_nil]
  exact Nat.zero_le _

theorem call (c : Call) : SendsOne (Web3.call c) := fun env h => by
  simp only [Web3.call_apply, List.filterMap_cons, List.filterMap_nil]
  split <;> simp

theorem quiet_bind (hm : Quiet m) (hf : ∀ a, SendsOne (f a)) : SendsOne (m >>= f) := by
  intro env h
  have he := hm.sentTx_nil env h
  rw [Web3.bind_apply]
  rcases hmh : m env h with ⟨_ | a, e₁⟩ <;> rw [hmh] at he
  · simp only [he, List.length_nil, Nat.zero_le]
  · simpa only [List.filterMap_append, he, List.nil_append] using hf a env (h ++ e₁)

theorem bind_quiet (hm : SendsOne m) (hf : ∀ a, Quiet (f a)) : SendsOne (m >>= f) := by
  intro env h
  have he := hm env h
  rw [Web3.bind_apply]
  rcases hmh : m env h with ⟨_ | a, e₁⟩ <;> rw [hmh] at he
  · exact he
  · simpa only [List.filterMap_append, (hf a).sentTx_nil, List.append_nil] using he

end SendsOne

section pipeline

variable (cfg : Config) (web3 : Conn) (wallet : Account)

/-- The events of the send site: the nonce read, the events of the argument computation,
the gas-price read, the transaction, from the wallet to the target with the gas limit, the
configured chain id and a method the argument computation returns, and the confirmation
wait. -/
theorem transact_emits (target : Option Addr) {method : Web3 Method} (gas : ℕ)
    {Q : Method → Prop} {P : Event → Prop} (hQ : Returns method Q) (hm : Emits method P)
    (hnonce : ∀ r, P (.call (.rpc web3 (.getTransactionCount wallet.address)) r))
    (hgas : ∀ r, P (.call (.rpc web3 .gasPrice) r))
    (hsend : ∀ tx r, tx.sender = wallet.address → tx.target = target → tx.gas = gas →
      tx.chainId = cfg.chainId → Q tx.method → P (.call (.rpc web3 (.sendRawTransaction tx)) r))
    (hwait : ∀ txHash r, P (.call (.rpc web3 (.waitForTx txHash)) r)) :
    Emits (transact cfg web3 wallet target method gas) P :=
  Emits.bind (Emits.call hnonce) fun _ => Emits.bind_of_returns hQ hm fun _ hq =>
    Emits.bind (Emits.call hgas) fun _ =>
      Emits.bind (Emits.call fun _ => hsend _ _ rfl rfl rfl rfl hq) fun _ =>
        Emits.bind (Emits.call (hwait _)) fun _ => Emits.pure _

/-- **The send site.** The only transaction `transact` sends is from the wallet, to the
target, with the gas limit, and carries a method that the argument computation
returns. -/
theorem transact_sends (target : Option Addr) {method : Web3 Method} (gas : ℕ)
    {Q : Method → Prop} (hQ : Returns method Q) (hm : Quiet method) :
    Emits (transact cfg web3 wallet target method gas) (SendsOnly fun tx =>
      tx.sender = wallet.address ∧ tx.target = target ∧ tx.gas = gas ∧ Q tx.method) := by
  refine transact_emits cfg web3 wallet target gas hQ (hm.sendsOnly _) (fun _ => ?_)
    (fun _ => ?_) (fun tx _ h₁ h₂ h₃ _ h₄ => ?_) (fun _ _ => ?_) <;> rintro tx ⟨⟩
  exact ⟨h₁, h₂, h₃, h₄⟩

/-- The events of the allowance guard: the allowance read, then possibly the approval. -/
theorem approveIfNeeded_emits (token spender amount : ℕ) {P : Event → Prop}
    (hread : ∀ r, P (.call (.rpc web3 (.call token (.allowance wallet.address spender))) r))
    (happrove : Emits (transact cfg web3 wallet (some token)
      (pure (.approve spender maxUint256)) 100000) P) :
    Emits (approveIfNeeded cfg web3 wallet token spender amount) P := by
  refine Emits.bind (Emits.call hread) fun allowance => ?_
  split
  exacts [happrove.bind fun _ => Emits.pure _, Emits.pure _]

/-- The allowance guard sends at most an `approve(spender, 2**256 - 1)` to the token. -/
theorem approveIfNeeded_sends (token spender amount : ℕ) :
    Emits (approveIfNeeded cfg web3 wallet token spender amount) (SendsOnly fun tx =>
      tx.sender = wallet.address ∧ tx.target = some token ∧
        tx.method = .approve spender maxUint256) := by
  refine approveIfNeeded_emits cfg web3 wallet token spender amount (fun _ tx h => by cases h)
    ((transact_sends cfg web3 wallet _ _ (Returns.pure rfl) (Quiet.pure _)).mono ?_)
  exact fun e he tx htx => ⟨(he tx htx).1, (he tx htx).2.1, (he tx htx).2.2.2.symm⟩

/-- The send site sends one transaction at most. -/
theorem transact_sendsOne (target : Option Addr) {method : Web3 Method} (gas : ℕ)
    (hm : Quiet method) : SendsOne (transact cfg web3 wallet target method gas) := by
  unfold transact
  exact .quiet_bind (Quiet.call (c := .rpc web3 (.getTransactionCount _)) fun _ => rfl) fun _ =>
    .quiet_bind hm fun _ => .quiet_bind (Quiet.call (c := .rpc web3 .gasPrice) fun _ => rfl)
      fun _ => .bind_quiet (.call _) fun _ =>
        (Quiet.call (c := .rpc web3 (.waitForTx _)) fun _ => rfl).bind fun _ => Quiet.pure _

end pipeline

end TempoSpammer
