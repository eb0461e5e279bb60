import TempoSpammer.Recovery

/-! # The created-token history of the agent

`SmartWallet._wrap_create_token` appends to `history['created_tokens']` the token that
`activity4_create_stablecoin` returns, when it returns one; no other step writes the list,
and the decision's mint and burn actions draw their token from it.  The token activity4
returns is the first `TokenCreated` log of the receipt of its confirmed `createToken`
transaction, so the provenance of an entry can be read off the events of the run
(`TokenCreatedIn`).

`ReturnsWith m P` speaks of a value together with the events of the run that returned it
(the value half of `Classified`), with one rule per construct of `Web3`.  The step lemmas
are `activity4_token` (a token comes with its creation), `ActionFn.run_tokens` (a call of
any `fn`) and `decideNextAction_tokens` (a decision); since `TokensGrow` composes
(`TokensGrow.trans`), they cover any sequence of decisions and calls, and `agentRun_tokens`
is the induction over the cycles of the agent loop.  `created_tokens_history` collects them,
with the history after `SmartWallet.__init__` and any run. -/

namespace TempoSpammer

/-- Every value `m` returns comes with events satisfying `P`. -/
def ReturnsWith {α : Type} (m : Web3 α) (P : α → List Event → Prop) : Prop :=
  ∀ env h a, (m env h).1 = .ok a → P a (m env h).2

namespace ReturnsWith

variable {α β : Type} {P : β → List Event → Prop}

theorem mono {m : Web3 β} {P' : β → List Event → Prop} (hm : ReturnsWith m P)
    (h : ∀ b evs, P b evs → P' b evs) : ReturnsWith m P' :=
  fun env hist b hb => h b _ (hm env hist b hb)

theorem of_returns {m : Web3 β} {R : β → Prop} (hm : Returns m R) (hP : ∀ b evs, R b → P b evs) :
    ReturnsWith m P :=
  fun env h b hb => hP b _ (hm env h b hb)

theorem pure {b : β} (h : P b []) : ReturnsWith (Pure.pure b : Web3 β) P := by
  rintro _ _ _ ⟨⟩
  exact h

theorem call {c : Call} {P : c.Resp → List Event → Prop} (h : ∀ v, P v [.call c (.ok v)]) :
    ReturnsWith (Web3.call c) P := by
  intro env hist v hv
  simp only [Web3.call_apply] at hv ⊢
  rw [hv]
  exact h v

theorem bind {m : Web3 α} {f : α → Web3 β} {Q : α → List Event → Prop} (hm : ReturnsWith m Q)
    (hf : ∀ a e₁, Q a e₁ → ReturnsWith (f a) fun b e₂ => P b (e₁ ++ e₂)) :
    ReturnsWith (m >>= f) P := by
  intro env h b hb
  rw [Web3.bind_apply] at hb ⊢
  rcases hmh : m env h with ⟨_ | a, e₁⟩ <;> rw [hmh] at hb
  · cases hb
  · have hq := hm env h a (by rw [hmh])
    rw [hmh] at hq
    exact hf a e₁ hq env (h ++ e₁) b hb

/-- A step whose events do not matter to a postcondition that every prefix keeps. -/
theorem bind_mono {m : Web3 α} {f : α → Web3 β} (hP : ∀ b e₁ e₂, P b e₂ → P b (e₁ ++ e₂))
    (hf : ∀ a, ReturnsWith (f a) P) : ReturnsWith (m >>= f) P :=
  bind (Q := fun _ _ => True) (of_returns (Returns.of_forall m fun _ => trivial) fun _ _ _ => trivial)
    fun a e₁ _ => (hf a).mono fun b e₂ h => hP b e₁ e₂ h

/-- The handler runs after the events of the failed body. -/
theorem tryCatch {m : Web3 β} {handler : Err → Web3 β} (hm : ReturnsWith m P)
    (hh : ∀ x e₁, ReturnsWith (handler x) fun b e₂ => P b (e₁ ++ e₂)) :
    ReturnsWith (Web3.tryCatch m handler) P := by
  intro env h b hb
  simp only [Web3.tryCatch] at hb ⊢
  rcases hmh : m env h with ⟨_ | a, e₁⟩ <;> rw [hmh] at hb
  · exact hh _ e₁ env (h ++ e₁) b hb
  · have hq := hm env h a (by rw [hmh])
    rw [hmh] at hq
    cases hb
    exact hq

end ReturnsWith

/-! ### The token of a creation -/

/-- In `evs`, a `createToken` transaction of `owner` to the factory was accepted with a
hash, right after it the confirmation wait of that hash returned a receipt, and the first
log of the receipt that decodes as `TokenCreated` names `t`: the token activity4 returns. -/
def TokenCreatedIn (cfg : Config) (owner t : Addr) (evs : List Event) : Prop :=
  ∃ (w : Conn) (tx : Tx) (hash : ℕ) (receipt : Receipt), tx.sender = owner ∧
    tx.target = some cfg.tip20Factory ∧
    (∃ name symbol currency quote, tx.method = .createToken name symbol currency quote owner) ∧
    [.call (.rpc w (.sendRawTransaction tx)) (.ok hash),
      .call (.rpc w (.waitForTx hash)) (.ok receipt)] <:+: evs ∧
    receipt.logs.findSome? Log.tokenCreated = some t

theorem TokenCreatedIn.append_left {cfg : Config} {owner t : Addr} {e₂ : List Event}
    (e₁ : List Event) (h : TokenCreatedIn cfg owner t e₂) : TokenCreatedIn cfg owner t (e₁ ++ e₂) :=
  let ⟨w, tx, hash, receipt, hs, ht, hm, hi, hl⟩ := h
  ⟨w, tx, hash, receipt, hs, ht, hm, hi.trans (List.suffix_append e₁ e₂).isInfix, hl⟩

theorem TokenCreatedIn.append_right {cfg : Config} {owner t : Addr} {e₁ : List Event}
    (e₂ : List Event) (h : TokenCreatedIn cfg owner t e₁) : TokenCreatedIn cfg owner t (e₁ ++ e₂) :=
  let ⟨w, tx, hash, receipt, hs, ht, hm, hi, hl⟩ := h
  ⟨w, tx, hash, receipt, hs, ht, hm, hi.trans (List.prefix_append e₁ e₂).isInfix, hl⟩

/-- The log scan returns the first log that decodes as `TokenCreated`. -/
theorem findTokenCreated_returns : ∀ logs : List Log,
    Returns (findTokenCreated logs) (· = logs.findSome? Log.tokenCreated)
  | [] => Returns.pure rfl
  | log :: rest => by
    unfold findTokenCreated
    cases hlog : log.tokenCreated with
    | none =>
      refine Returns.bind (P := (· = none))
        (Returns.tryCatch (Returns.raise _) fun _ => Returns.pure rfl) fun r hr => ?_
      subst hr
      simpa [List.findSome?_cons, hlog] using findTokenCreated_returns rest
    | some a =>
      rw [Web3.tryCatch_of_total (Total.pure _), Web3.pure_bind]
      exact Returns.pure (by simp [List.findSome?_cons, hlog])

section creation

variable (cfg : Config) (web3 : Conn) (wallet : Account)

/-- The send site returns the hash of its transaction and the receipt of its confirmation:
the send and the wait are consecutive events of the run. -/
theorem transact_confirms (target : Option Addr) {method : Web3 Method} (gas : ℕ)
    {Q : Method → Prop} (hQ : Returns method Q) :
    ReturnsWith (transact cfg web3 wallet target method gas) fun r evs => ∃ tx : Tx,
      tx.sender = wallet.address ∧ tx.target = target ∧ Q tx.method ∧
      [.call (.rpc web3 (.sendRawTransaction tx)) (.ok r.1),
        .call (.rpc web3 (.waitForTx r.1)) (.ok r.2)] <:+: evs := by
  unfold transact
  refine .bind_mono ?mono fun nonce => .bind (.of_returns hQ fun m _ hm => hm) fun m e₁ hm =>
    (ReturnsWith.bind_mono ?mono fun gasPrice => ?_).mono fun r e₂ h => ?mono r e₁ e₂ h
  case mono => exact fun _ e₁ e₂ ⟨tx, hs, ht, hq, hi⟩ =>
    ⟨tx, hs, ht, hq, hi.trans (List.suffix_append e₁ e₂).isInfix⟩
  refine .bind (.call (P := fun hash evs => ∃ tx : Tx, tx.sender = wallet.address ∧
      tx.target = target ∧ tx.method = m ∧ evs = [.call (.rpc web3 (.sendRawTransaction tx))
        (.ok hash)]) fun _ => ⟨_, rfl, rfl, rfl, rfl⟩) fun hash e₂ ⟨tx, hs, ht, htm, he₂⟩ =>
    .bind (.call (P := fun rc evs => evs = [.call (.rpc web3 (.waitForTx hash)) (.ok rc)])
      fun _ => rfl) fun rc e₃ he₃ => .pure ⟨tx, hs, ht, htm ▸ hm, ?_⟩
  subst he₂ he₃
  exact List.infix_refl _

/-- **A token activity4 returns comes with its creation** in the events of the run. -/
theorem activity4_token :
    ReturnsWith (activity4CreateStablecoin cfg web3 wallet) fun v evs =>
      ∀ t, v = .token t → TokenCreatedIn cfg wallet.address t evs := by
  unfold activity4CreateStablecoin guarded
  refine .tryCatch (.bind_mono ?mono fun suffix => ?_) fun _ _ => .pure nofun
  case mono => exact fun _ e₁ _ h t ht => (h t ht).append_left e₁
  refine .bind (transact_confirms cfg web3 wallet _ _ (Q := fun m => ∃ name symbol currency quote,
      m = .createToken name symbol currency quote wallet.address)
    (Returns.bind_right fun _ => Returns.pure ⟨_, _, _, _, rfl⟩)) fun r e₁ hr => ?_
  refine .bind (.of_returns (findTokenCreated_returns _) fun o _ ho => ho) fun o e₂ ho =>
    .pure fun t ht => ?_
  obtain ⟨tx, hs, ht', hm, hi⟩ := hr
  cases o with
  | none => cases ht
  | some a =>
    cases ht
    exact ⟨web3, tx, r.1, r.2, hs, ht', hm, hi.trans (List.prefix_append _ _).isInfix, ho.symm⟩

end creation

/-! ### The history only grows, with created tokens -/

/-- From wallet `w` to wallet `w'` over the events `evs`: the same account, the created
tokens only grown, and every new one created by the account in `evs`. -/
structure TokensGrow (cfg : Config) (w w' : SmartWallet) (evs : List Event) : Prop where
  account : w'.account = w.account
  grows : w.createdTokens <+: w'.createdTokens
  created : ∀ t ∈ w'.createdTokens,
    t ∈ w.createdTokens ∨ TokenCreatedIn cfg w.account.address t evs

theorem TokensGrow.of_eq {cfg : Config} {w w' : SmartWallet} (ha : w'.account = w.account)
    (ht : w'.createdTokens = w.createdTokens) (evs : List Event) : TokensGrow cfg w w' evs :=
  ⟨ha, ht ▸ List.prefix_refl _, fun _ h => .inl (ht ▸ h)⟩

theorem TokensGrow.trans {cfg : Config} {w₁ w₂ w₃ : SmartWallet} {e₁ e₂ : List Event}
    (h₁ : TokensGrow cfg w₁ w₂ e₁) (h₂ : TokensGrow cfg w₂ w₃ e₂) :
    TokensGrow cfg w₁ w₃ (e₁ ++ e₂) where
  account := h₂.account.trans h₁.account
  grows := h₁.grows.trans h₂.grows
  created t ht := (h₂.created t ht).elim
    (fun h => (h₁.created t h).imp_right (·.append_right e₂))
    fun h => .inr (h₁.account ▸ h.append_left e₁)

section agent

variable (cfg : Config)

/-- `_wrap_create_token` appends the token activity4 returns, and nothing else. -/
theorem wrapCreateToken_tokens (a : Agent) :
    ReturnsWith (wrapCreateToken cfg a) fun r evs => TokensGrow cfg a.wallet r.2.wallet evs := by
  unfold wrapCreateToken
  refine .bind (activity4_token cfg _ _) fun v e₁ hv => ?_
  cases v
  case token t =>
    refine .pure ⟨rfl, List.prefix_append _ _, fun u hu => ?_⟩
    rcases List.mem_append.mp hu with hu | hu
    · exact .inl hu
    · rw [List.mem_singleton.mp hu]
      exact .inr ((hv t rfl).append_right _)
  all_goals exact .pure (TokensGrow.of_eq rfl rfl _)

/-- An action's `fn` keeps the account and only grows the created tokens, each new one
created in its run. -/
theorem ActionFn.run_tokens (a : Agent) (fn : ActionFn) :
    ReturnsWith (fn.run cfg a) fun r evs => TokensGrow cfg a.wallet r.2.wallet evs := by
  have keep : ∀ m : Web3 Ret, ReturnsWith (m >>= fun r => pure (r, a))
      fun r evs => TokensGrow cfg a.wallet r.2.wallet evs := fun m =>
    .of_returns (R := fun r => r.2 = a) (Returns.bind_right fun _ => Returns.pure rfl)
      fun _ _ h => h ▸ TokensGrow.of_eq rfl rfl _
  cases fn
  case createToken => exact wrapCreateToken_tokens cfg a
  case analytics => exact .pure (TokensGrow.of_eq rfl rfl _)
  all_goals exact keep _

/-- The balance rules pick a mint or a burn only of a created token. -/
theorem decideOnBalances_tokens (store : List TokenRecord) (w : SmartWallet) :
    Returns (decideOnBalances store w) fun act =>
      ∀ t, act.fn = .mintTokens t ∨ act.fn = .burnTokens t → t ∈ w.createdTokens := by
  rw [decideOnBalances_eq_firstMatch]
  refine firstMatch_returns ?_ _ ?_
  · refine (Web3.choice_mem _).bind fun c hc => Returns.pure ?_
    simp only [fallbackOptions, List.mem_cons, List.not_mem_nil, or_false] at hc
    rcases hc with rfl | rfl | rfl | rfl | rfl | rfl <;> rintro t (h | h) <;> cases h
  · simp only [priorityRules, List.mem_cons, List.not_mem_nil, or_false]
    rintro r (rfl | rfl | rfl | rfl | rfl | rfl | rfl | rfl)
    iterate 7 exact Returns.pure (by rintro t (h | h) <;> cases h)
    exact (Web3.choice_mem _).bind fun tok htok => Returns.bind_right fun _ => by
      split <;> exact Returns.pure (by simpa using htok)

/-- The decision keeps the account and the created tokens, and a mint or a burn it returns
carries one of the created tokens. -/
theorem decideNextAction_tokens (store : List TokenRecord) (w : SmartWallet) :
    Returns (decideNextAction cfg store w) fun d => d.2.account = w.account ∧
      d.2.createdTokens = w.createdTokens ∧
      ∀ t, d.1.fn = .mintTokens t ∨ d.1.fn = .burnTokens t → t ∈ w.createdTokens := by
  unfold decideNextAction
  split
  · exact Returns.pure ⟨rfl, rfl, by rintro t (h | h) <;> cases h⟩
  · refine (updateBalances_frame cfg w).bind fun w' hw' =>
      (decideOnBalances_tokens store w').bind fun act hact => Returns.pure ?_
    rw [hw'] at hact ⊢
    exact ⟨rfl, rfl, hact⟩

theorem agentCycle_tokens (a : Agent) :
    ReturnsWith (agentCycle cfg a) fun a' evs => TokensGrow cfg a.wallet a'.wallet evs := by
  unfold agentCycle
  refine .bind (.of_returns (decideNextAction_tokens cfg a.store a.wallet) fun d evs hd =>
    (TokensGrow.of_eq hd.1 hd.2.1 evs : TokensGrow cfg _ _ _)) fun d e₁ hd => ?_
  exact .bind (ActionFn.run_tokens cfg _ d.1.fn) fun r e₂ hr =>
    .pure (by simpa using hd.trans hr)

/-- **Every run of cycles.** From any agent, after any number of cycles on any chain, the
account is the same, the created tokens only grew, and each new one was created by the
account in the run. -/
theorem agentRun_tokens : ∀ (n : ℕ) (a : Agent),
    ReturnsWith (agentRun cfg n a) fun a' evs => TokensGrow cfg a.wallet a'.wallet evs
  | 0, _ => .pure (TokensGrow.of_eq rfl rfl [])
  | n + 1, a => .bind (agentCycle_tokens cfg a) fun _ _ h₁ =>
      (agentRun_tokens n _).mono fun _ _ h₂ => h₁.trans h₂

/-- `SmartWallet.__init__` keeps the key and starts with no created tokens. -/
theorem SmartWallet.init_fresh (rpcList : Option (List String)) (proxyFor : ℕ → Option String)
    (index : ℕ) (account : Account) (useProxy : Bool) :
    Returns (SmartWallet.init cfg rpcList proxyFor index account useProxy)
      fun w => w.account = account ∧ w.createdTokens = [] :=
  Returns.bind_right fun _ => Returns.pure ⟨rfl, rfl⟩

end agent

/-- **The created-token history.** A decision keeps the key and the created tokens, and a
mint or a burn it returns carries one of them; a call of any action's `fn` keeps the key and
only grows the created tokens, each new one created by the key in the call's events (the
first `TokenCreated` log of the receipt of its confirmed `createToken` transaction, which
activity4 returns and `_wrap_create_token` appends); so does every run of cycles, and after
`SmartWallet.__init__` and any run, on any chain, every created token was created in the
run. -/
theorem created_tokens_history (cfg : Config) :
    (∀ store (w : SmartWallet), Returns (decideNextAction cfg store w) fun d =>
      d.2.account = w.account ∧ d.2.createdTokens = w.createdTokens ∧
      ∀ t, d.1.fn = .mintTokens t ∨ d.1.fn = .burnTokens t → t ∈ w.createdTokens) ∧
    (∀ (a : Agent) (fn : ActionFn),
      ReturnsWith (fn.run cfg a) fun r evs => TokensGrow cfg a.wallet r.2.wallet evs) ∧
    (∀ (n : ℕ) (a : Agent),
      ReturnsWith (agentRun cfg n a) fun a' evs => TokensGrow cfg a.wallet a'.wallet evs) ∧
    ∀ rpcList proxyFor index (account : Account) useProxy store (n : ℕ),
      ReturnsWith (SmartWallet.init cfg rpcList proxyFor index account useProxy >>= fun w =>
          agentRun cfg n ⟨w, store⟩) fun a evs =>
        a.wallet.account = account ∧
          ∀ t ∈ a.wallet.createdTokens, TokenCreatedIn cfg account.address t evs :=
  ⟨decideNextAction_tokens cfg, ActionFn.run_tokens cfg, agentRun_tokens cfg,
    fun rpcList proxyFor index account useProxy store n =>
      .bind (.of_returns (SmartWallet.init_fresh cfg rpcList proxyFor index account useProxy)
        fun _ _ h => h) fun w _ ⟨hacc, hnil⟩ =>
      (agentRun_tokens cfg n ⟨w, store⟩).mono fun a e₂ hg => ⟨hg.account.trans hacc,
        fun t ht => hacc ▸ ((hg.created t ht).resolve_left (by simp [hnil])).append_left _⟩⟩

end TempoSpammer
