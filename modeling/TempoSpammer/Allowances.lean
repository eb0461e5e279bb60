import TempoSpammer.SendSites

/-! # Approve-if-needed over runs

The allowance guard reads `allowance(address, spender)` on a token and sends
`approve(spender, 2**256 - 1)` only when the value read is below the amount of its action,
at most `10**9` in every recipe; between the read and the approval it only reads.  The
chain model follows one pair (owner, token, spender) through a history
(`allowanceState`): a confirmed approval of the pair sets the value approved, and a
confirmed transaction that the chain counts as a spend through the pair (`spend`, any
accounting) adds to what was spent since.  A transaction is confirmed when the
confirmation wait for its hash returns a receipt.

On a chain whose reads of the pair after a confirmed approval return the value approved
less what was spent (`HonestAllowance`), no approval of the pair is sent while more than
`10**9` of a confirmed approval is left (`ApprovesOk`): after a confirmed approval of
`2**256 - 1`, none while less than `2**256 - 1 - 10**9` has been spent (`NoReapproval`).
`approveIfNeeded_keeps_approvals` is the one step with content, and `SendLogic` carries it
to every program.

One call of the guard sends at most the approval of the pair it read
(`approveIfNeeded_guardSends`), and each approve-using recipe reads and approves the pair its
own action spends from, for that action's amount: `Tx.spends` says what a transaction spends
through an allowance, `Activity.SpendsFrom` which pairs and amounts a recipe's action can
spend, and `GuardedBy` that every call sends only the approval and the action, with at most
one approval, after a read below the amount (`recipes_guarded`).  Every approval that any
program sends is of `2**256 - 1` (`approvals_unlimited`). -/

namespace TempoSpammer

/-- An allowance pair: the owner, the token and the spender. -/
structure Pair where
  owner : Addr
  token : Addr
  spender : Addr
deriving DecidableEq, Repr

/-- The value `tx` approves for `p`, when it is an approval of `p`. -/
def Pair.approvedBy (p : Pair) (tx : Tx) : Option ℕ :=
  match tx.method with
  | .approve spender v =>
      if tx.sender = p.owner ∧ tx.target = some p.token ∧ spender = p.spender then some v
      else none
  | _ => none

theorem Pair.approvedBy_of_not_approve (p : Pair) {tx : Tx} (h : tx.method.isApprove = false) :
    p.approvedBy tx = none := by
  unfold Pair.approvedBy
  split
  · next heq => simp [heq, Method.isApprove] at h
  · rfl

theorem Pair.of_approvedBy {p : Pair} {tx : Tx} {spender v : ℕ}
    (hm : tx.method = .approve spender v) (h : (p.approvedBy tx).isSome) :
    tx.sender = p.owner ∧ tx.target = some p.token ∧ spender = p.spender := by
  unfold Pair.approvedBy at h
  rw [hm] at h
  dsimp only at h
  split at h
  · assumption
  · cases h

/-- The chain's record of a pair: the value of its last confirmed approval and what was
spent through it since (`none` before any), and the last accepted transaction, waiting
for its confirmation. -/
structure AllowanceState where
  approved : Option (ℕ × ℕ)
  pending : Option (ℕ × Tx)

/-- More than `10**9` is left of a confirmed approval. -/
def AllowanceState.Covered (st : AllowanceState) : Prop :=
  ∃ v s, st.approved = some (v, s) ∧ 10 ^ 9 < v - s

section chain

variable (spend : Tx → Option (Pair × ℕ)) (p : Pair)

/-- A confirmed transaction: an approval of `p` sets the value and clears what was spent;
a spend through `p`, as the chain counts it, adds to what was spent. -/
def confirmTx (approved : Option (ℕ × ℕ)) (tx : Tx) : Option (ℕ × ℕ) :=
  match p.approvedBy tx, spend tx with
  | some v, _ => some (v, 0)
  | none, some (q, amount) =>
      if q = p then approved.map fun vs => (vs.1, vs.2 + amount) else approved
  | none, none => approved

/-- An accepted transaction waits for its confirmation; a confirmation wait that returns a
receipt for its hash confirms it. -/
def AllowanceState.step (st : AllowanceState) : Event → AllowanceState
  | .call (.rpc _ (.sendRawTransaction tx)) (.ok hash) => { st with pending := some (hash, tx) }
  | .call (.rpc _ (.waitForTx hash)) (.ok _) =>
      match st.pending with
      | some (hash', tx) => if hash' = hash then ⟨confirmTx spend p st.approved tx, none⟩ else st
      | none => st
  | _ => st

/-- The record of `p` after a history. -/
def allowanceState (h : List Event) : AllowanceState :=
  h.foldl (AllowanceState.step spend p) ⟨none, none⟩

/-- The chain answers a read of the allowance of `p` after a confirmed approval with the
value approved less what was spent since. -/
def HonestAllowance (env : Env) : Prop :=
  ∀ w h n v s, env.answer (.rpc w (.call p.token (.allowance p.owner p.spender))) h = .ok n →
    (allowanceState spend p h).approved = some (v, s) → n = v - s

/-- Every approval of `p` among `evs`, after the history `pre`, was sent while the record
of `p` was not covered. -/
def ApprovesOkFrom : List Event → List Event → Prop
  | _, [] => True
  | pre, e :: rest =>
      (∀ tx, e.sentTx = some tx → (p.approvedBy tx).isSome →
        ¬ (allowanceState spend p pre).Covered) ∧ ApprovesOkFrom (pre ++ [e]) rest

/-- Every approval of `p` in a history was sent while the record of `p` was not covered. -/
def ApprovesOk (h : List Event) : Prop := ApprovesOkFrom spend p [] h

theorem approvesOkFrom_append :
    ∀ pre h evs : List Event, ApprovesOkFrom spend p pre (h ++ evs) ↔
      ApprovesOkFrom spend p pre h ∧ ApprovesOkFrom spend p (pre ++ h) evs
  | pre, [], evs => by simp [ApprovesOkFrom]
  | pre, e :: h, evs => by
      rw [List.cons_append]
      simp only [ApprovesOkFrom]
      rw [approvesOkFrom_append (pre ++ [e]) h evs, List.append_assoc, List.singleton_append,
        and_assoc]

theorem ApprovesOk.append {h evs : List Event} (hh : ApprovesOk spend p h)
    (he : ApprovesOkFrom spend p h evs) : ApprovesOk spend p (h ++ evs) :=
  (approvesOkFrom_append spend p [] h evs).mpr ⟨hh, by simpa using he⟩

theorem approvesOkFrom_quiet :
    ∀ pre evs : List Event, (∀ e ∈ evs, e.sentTx = none) → ApprovesOkFrom spend p pre evs
  | _, [], _ => trivial
  | pre, e :: rest, hq =>
      ⟨fun tx htx => (by rw [hq e (List.mem_cons_self e rest)] at htx; cases htx),
        approvesOkFrom_quiet _ rest fun e' he' => hq e' (List.mem_cons_of_mem e he')⟩

theorem ApprovesOk.append_quiet {h evs : List Event} (hh : ApprovesOk spend p h)
    (hq : ∀ e ∈ evs, e.sentTx = none) : ApprovesOk spend p (h ++ evs) :=
  hh.append spend p (approvesOkFrom_quiet spend p h evs hq)

/-- A send keeps the invariant when, if it approves `p`, the record is not covered. -/
theorem ApprovesOk.send {h : List Event} (hh : ApprovesOk spend p h) (w : Conn) {tx : Tx}
    (hcov : (p.approvedBy tx).isSome → ¬ (allowanceState spend p h).Covered)
    (r : Except Err ℕ) :
    ApprovesOk spend p (h ++ [.call (.rpc w (.sendRawTransaction tx)) r]) :=
  hh.append spend p ⟨fun tx' htx' => by cases htx'; exact hcov, trivial⟩

/-- No approval of `p` in `h` is sent after a confirmed approval of `2**256 - 1` through
which less than `2**256 - 1 - 10**9` has been spent. -/
def NoReapproval (h : List Event) : Prop :=
  ∀ pre e post tx s, h = pre ++ e :: post → e.sentTx = some tx → (p.approvedBy tx).isSome →
    (allowanceState spend p pre).approved = some (maxUint256, s) → maxUint256 - 10 ^ 9 ≤ s

theorem ApprovesOk.not_covered {pre post : List Event} {e : Event} {tx : Tx}
    (hh : ApprovesOk spend p (pre ++ e :: post)) (he : e.sentTx = some tx)
    (ha : (p.approvedBy tx).isSome) : ¬ (allowanceState spend p pre).Covered := by
  simpa using ((approvesOkFrom_append spend p [] pre (e :: post)).mp hh).2.1 tx he ha

theorem ApprovesOk.noReapproval {h : List Event} (hh : ApprovesOk spend p h) :
    NoReapproval spend p h := by
  rintro pre e post tx s rfl he ha hv
  by_contra hlt
  exact hh.not_covered spend p he ha ⟨_, s, hv, by omega⟩

theorem allowanceState_append (h evs : List Event) :
    allowanceState spend p (h ++ evs) = evs.foldl (AllowanceState.step spend p)
      (allowanceState spend p h) :=
  List.foldl_append _ _ _ _

/-- A local event leaves the record. -/
theorem AllowanceState.step_local (st : AllowanceState) {e : Event} (he : e.isLocal) :
    st.step spend p e = st := by
  rcases e with ⟨_ | _, _⟩ | _ | _ | _ <;> first | rfl | cases he

theorem allowanceState_append_local (h : List Event) {evs : List Event}
    (hl : ∀ e ∈ evs, e.isLocal) : allowanceState spend p (h ++ evs) = allowanceState spend p h := by
  rw [allowanceState_append]
  induction evs generalizing h with
  | nil => rfl
  | cons e rest ih =>
      rw [List.foldl_cons, AllowanceState.step_local spend p _ (hl e (List.mem_cons_self e rest))]
      exact ih h fun e' he' => hl e' (List.mem_cons_of_mem e he')

/-- A read of the chain leaves the record. -/
theorem allowanceState_append_read (h : List Event) (w : Conn) {op : Rpc}
    (r : Except Err (Call.rpc w op).Resp) (hop : ∀ tx, op ≠ .sendRawTransaction tx)
    (hw : ∀ hash, op ≠ .waitForTx hash) :
    allowanceState spend p (h ++ [.call (.rpc w op) r]) = allowanceState spend p h := by
  rw [allowanceState_append, List.foldl_cons, List.foldl_nil]
  cases op <;> first | exact absurd rfl (hop _) | exact absurd rfl (hw _) | (cases r <;> rfl)

theorem allowanceState_append_contractCall (h : List Event) (w : Conn) (token : Addr)
    (c : View) (r : Except Err (Call.rpc w (.call token c)).Resp) :
    allowanceState spend p (h ++ [.call (.rpc w (.call token c)) r]) = allowanceState spend p h :=
  allowanceState_append_read spend p h w r (fun _ => nofun) fun _ => nofun

/-- A local step keeps the invariant and the record. -/
theorem keeps_local {α : Type} {m : Web3 α} (hm : Local m) (st : AllowanceState) (env : Env) :
    Triple env (fun h => ApprovesOk spend p h ∧ allowanceState spend p h = st) m
      (fun _ h => ApprovesOk spend p h ∧ allowanceState spend p h = st) (ApprovesOk spend p) :=
  fun h hs => ⟨fun _ _ => ⟨hs.1.append_quiet spend p (hm.quiet env h),
      (allowanceState_append_local spend p h (hm env h)).trans hs.2⟩,
    fun _ _ => hs.1.append_quiet spend p (hm.quiet env h)⟩

end chain

section pipeline

variable (cfg : Config) (web3 : Conn) (wallet : Account) (spend : Tx → Option (Pair × ℕ))
  (p : Pair)

/-- **The send site.** From a history with the record `st`, the transaction goes out with
the same record: before it come only reads and local steps. -/
theorem transact_approves (target : Option Addr) {method : Web3 Method} (gas : ℕ)
    (hm : Local method) {Q : Method → Prop} (hQ : Returns method Q) (st : AllowanceState)
    (hsend : ∀ tx, tx.sender = wallet.address → tx.target = target → Q tx.method →
      (p.approvedBy tx).isSome → ¬ st.Covered) (env : Env) :
    Triple env (fun h => ApprovesOk spend p h ∧ allowanceState spend p h = st)
      (transact cfg web3 wallet target method gas) (fun _ => ApprovesOk spend p)
      (ApprovesOk spend p) := by
  let Same (h : List Event) : Prop := ApprovesOk spend p h ∧ allowanceState spend p h = st
  have hnonce : ∀ h r, Same h →
      Same (h ++ [.call (.rpc web3 (.getTransactionCount wallet.address)) r]) := fun h r hs =>
    ⟨hs.1.append_quiet spend p (List.forall_mem_singleton.mpr rfl),
      (allowanceState_append_read spend p h web3 r (fun _ => nofun) fun _ => nofun).trans hs.2⟩
  have hgas : ∀ h r, Same h → Same (h ++ [.call (.rpc web3 .gasPrice) r]) := fun h r hs =>
    ⟨hs.1.append_quiet spend p (List.forall_mem_singleton.mpr rfl),
      (allowanceState_append_read spend p h web3 r (fun _ => nofun) fun _ => nofun).trans hs.2⟩
  have hout : ∀ h m, Same h ∧ Q m → ∀ nonce gasPrice r, ApprovesOk spend p (h ++
      [.call (.rpc web3 (.sendRawTransaction ⟨wallet.address, target, m, nonce, gas, gasPrice,
        cfg.chainId⟩)) r]) := fun _ _ hs _ _ r =>
    hs.1.1.send spend p web3 (fun ha => hs.1.2 ▸ hsend _ rfl rfl hs.2 ha) r
  unfold transact
  exact Triple.bind (Q := fun _ => Same) (Triple.call (fun h _ hs _ => hnonce h _ hs)
    fun h _ hs _ => (hnonce h _ hs).1) fun _ =>
    ((keeps_local spend p hm st env).and_returns hQ).bind fun m =>
    Triple.bind (Q := fun _ h => Same h ∧ Q m) (Triple.call (fun h _ hs _ => ⟨hgas h _ hs.1, hs.2⟩)
      fun h _ hs _ => (hgas h _ hs.1).1) fun _ =>
    Triple.bind (Q := fun _ => ApprovesOk spend p) (Triple.call (fun h _ hs _ => hout h m hs _ _ _)
      fun h _ hs _ => hout h m hs _ _ _) fun _ =>
    (Triple.quiet (Quiet.call (c := .rpc web3 (.waitForTx _)) fun _ => rfl)
      fun _ _ hq hh => hh.append_quiet spend p hq).bind fun _ => Triple.pure fun _ hh => hh

/-- The transactions that do not approve keep the invariant. -/
theorem transact_keeps_approvals (target : Option Addr) {method : Web3 Method} (gas : ℕ)
    (hm : Local method) (ha : Returns method (·.isApprove = false)) :
    Keeps (HonestAllowance spend p) (ApprovesOk spend p)
      (transact cfg web3 wallet target method gas) :=
  fun env _ h hh => transact_approves cfg web3 wallet spend p target gas hm ha
    (allowanceState spend p h) (fun _ _ _ hq hs => by
      rw [p.approvedBy_of_not_approve hq] at hs
      cases hs) env h ⟨hh, rfl⟩

/-- **The allowance guard.** The value it reads is what is left of a confirmed approval,
and it approves only below its amount, at most `10**9`: never while the pair is covered. -/
theorem approveIfNeeded_keeps_approvals (token spender amount : ℕ) (hamount : amount ≤ 10 ^ 9) :
    Keeps (HonestAllowance spend p) (ApprovesOk spend p)
      (approveIfNeeded cfg web3 wallet token spender amount) := by
  intro env he
  let Read (n : ℕ) (h : List Event) : Prop := ApprovesOk spend p h ∧
    (p = ⟨wallet.address, token, spender⟩ →
      ∀ v s, (allowanceState spend p h).approved = some (v, s) → n = v - s)
  unfold approveIfNeeded
  refine Triple.bind (Q := Read) (Triple.call (fun h n hh hn =>
    ⟨hh.append_quiet spend p (List.forall_mem_singleton.mpr rfl), fun hp v s hv => ?_⟩)
    fun h _ hh _ => hh.append_quiet spend p (List.forall_mem_singleton.mpr rfl)) fun n => ?_
  · rw [allowanceState_append_contractCall] at hv
    subst hp
    exact he web3 h n v s hn hv
  · split
    · next hlt =>
      refine Triple.bind (Q := fun _ => ApprovesOk spend p) (fun h hr => transact_approves cfg
        web3 wallet spend p _ _ (Local.pure _) (Q := (· = .approve spender maxUint256))
        (Returns.pure rfl) (allowanceState spend p h) (fun tx hs ht hm ha hcov => ?_) env h
        ⟨hr.1, rfl⟩) fun _ => Triple.pure fun _ hh => hh
      obtain ⟨h₁, h₂, h₃⟩ := Pair.of_approvedBy hm ha
      have hp : p = ⟨wallet.address, token, spender⟩ := by
        cases p
        rw [Pair.mk.injEq]
        exact ⟨h₁.symm.trans hs, Option.some.inj (h₂.symm.trans ht), h₃.symm⟩
      obtain ⟨v, s, hv, hgt⟩ := hcov
      have := hr.2 hp v s hv
      omega
    · exact Triple.pure fun _ hh => hh.1

/-! ### One call of the guard -/

/-- What one run of the guard on `(owner, token, spender)` sends: at most one transaction,
the approval of the pair from the owner to the token, and only after the first event, the
read of the pair, returned a value below `amount`. -/
def GuardSends (web3 : Conn) (owner token spender amount : ℕ) (evs : List Event) : Prop :=
  (evs.filterMap Event.sentTx).length ≤ 1 ∧ ∀ tx ∈ evs.filterMap Event.sentTx,
    tx.sender = owner ∧ tx.target = some token ∧ tx.method = .approve spender maxUint256 ∧
      ∃ n < amount, evs.head? = some (.call (.rpc web3 (.call token (.allowance owner spender)))
        (.ok n))

/-- **One call of the guard.** On every chain and from every history, the guard sends at
most the approval of the pair it read, after reading a value below its amount. -/
theorem approveIfNeeded_guardSends (token spender amount : ℕ) (env : Env) (h : List Event) :
    GuardSends web3 wallet.address token spender amount
      (approveIfNeeded cfg web3 wallet token spender amount env h).2 := by
  refine ⟨?_, fun tx htx => ?_⟩
  · refine SendsOne.quiet_bind (Quiet.read _ _ _) (fun n => ?_) env h
    split
    exacts [.bind_quiet (transact_sendsOne cfg web3 wallet _ _ (Quiet.pure _)) fun _ => Quiet.pure _,
      .of_quiet (Quiet.pure _)]
  obtain ⟨e, he, hs⟩ := List.mem_filterMap.mp htx
  obtain ⟨h₁, h₂, h₃⟩ := approveIfNeeded_sends cfg web3 wallet token spender amount env h e he tx hs
  refine ⟨h₁, h₂, h₃, ?_⟩
  unfold approveIfNeeded at htx ⊢
  simp only [Web3.bind_apply, Web3.rpc, Web3.call_apply] at htx ⊢
  cases hr : env.answer (.rpc web3 (.call token (.allowance wallet.address spender))) h with
  | error x =>
    simp [hr, Event.sentTx] at htx
  | ok n =>
    by_cases hlt : @LT.lt ℕ _ n amount
    · exact ⟨n, hlt, rfl⟩
    · simp [hr, hlt, Event.sentTx] at htx

end pipeline

/-- The approvals of a pair are an invariant of every program. -/
theorem approvals_sendLogic (spend : Tx → Option (Pair × ℕ)) (p : Pair) :
    SendLogic (Keeps (HonestAllowance spend p) (ApprovesOk spend p)) :=
  .of_keeps (fun _ _ hq hh => hh.append_quiet spend p hq)
    (fun cfg web3 wallet target _ gas hm ha =>
      transact_keeps_approvals cfg web3 wallet spend p target gas hm ha)
    fun cfg web3 wallet token spender amount hamount =>
      approveIfNeeded_keeps_approvals cfg web3 wallet spend p token spender amount hamount

/-! ### Unlimited approvals -/

/-- A transaction that approves, approves `2**256 - 1`. -/
def ApprovesMax (tx : Tx) : Prop :=
  tx.method.isApprove = true → ∃ spender, tx.method = .approve spender maxUint256

/-- Every approval a program sends is of `2**256 - 1`: the transactions of the send site
do not approve, and the guard approves `2**256 - 1`. -/
theorem approvesMax_sendLogic : SendLogic fun {_} m => Emits m (SendsOnly ApprovesMax) where
  quiet hm := hm.sendsOnly _
  bind_of_returns hm hr hf := Emits.bind_of_returns hr hm hf
  tryCatch hm hh := Emits.tryCatch hm hh
  transact cfg web3 wallet target _ gas hm ha :=
    (transact_sends cfg web3 wallet target gas ha hm.quiet).mono fun _ he tx htx hap =>
      nomatch (he tx htx).2.2.2.symm.trans hap
  approveIfNeeded cfg web3 wallet token spender amount _ :=
    (approveIfNeeded_sends cfg web3 wallet token spender amount).mono fun _ he tx htx _ =>
      ⟨spender, (he tx htx).2.2⟩

/-- **Every approval is unlimited.** On any chain, every approval that a sequence of
recipes, a run of the agent loop or a run of `run_auto_mode` sends is an approval of
`2**256 - 1`. -/
theorem approvals_unlimited (cfg : Config) (env : Env) (h : List Event) :
    (∀ recipes, ∀ e ∈ (runRecipes cfg recipes env h).2, SendsOnly ApprovesMax e) ∧
      (∀ n (agent : Agent), ∀ e ∈ (agentRun cfg n agent env h).2, SendsOnly ApprovesMax e) ∧
      ∀ proxyFor privateKeys selection,
        ∀ e ∈ (runAutoMode cfg (lateBound cfg) proxyFor privateKeys selection env h).2,
          SendsOnly ApprovesMax e :=
  ⟨fun _ => approvesMax_sendLogic.runRecipes cfg _ env h,
    fun _ _ => approvesMax_sendLogic.agentRun cfg _ _ env h,
    fun _ _ _ => approvesMax_sendLogic.runAutoMode cfg _ _ _ env h⟩

/-! ### The guard belongs to its action -/

/-- What a method sent to contract `c` spends through an allowance: the token, the spender
`c` and the amount.  A swap spends its input token, an add-liquidity its validator token, a
limit order PathUSD for a bid and its token for an ask (the same amount either way, at tick
`0`), and a name registration the `1000 * 10**6` PathUSD that `activity15_infinity_name`
checks. -/
def Method.spends (pathUsd : Option Addr) (c : Addr) : Method → Option (Addr × Addr × ℕ)
  | .swapExactAmountIn tokenIn _ amount _ => some (tokenIn, c, amount)
  | .mintWithValidatorToken token _ amount _ => some (token, c, amount)
  | .place token amount isBid _ =>
      (if isBid then pathUsd else some token).map fun t => (t, c, amount)
  | .register _ _ => pathUsd.map fun t => (t, c, 1000 * 10 ^ 6)
  | _ => none

/-- What a transaction spends through an allowance. -/
def Tx.spends (pathUsd : Option Addr) (tx : Tx) : Option (Addr × Addr × ℕ) :=
  tx.target.bind fun c => tx.method.spends pathUsd c

theorem Method.isApprove_of_spends {pathUsd : Option Addr} {c : Addr} {m : Method}
    {s : Addr × Addr × ℕ} (h : m.spends pathUsd c = some s) : m.isApprove = false := by
  cases m <;> first | rfl | cases h

/-- One call of a recipe that guards an action spending `amount` through
`(token, spender)` from `owner`: it sends only the approval of the pair and the action, at
most one approval, and an approval only after reading, before it sent anything, an
allowance of the pair below `amount`. -/
def GuardsAction (pathUsd : Option Addr) (owner token spender amount : ℕ) (evs : List Event) :
    Prop :=
  (∀ tx ∈ evs.filterMap Event.sentTx, tx.sender = owner ∧
    (tx.target = some token ∧ tx.method = .approve spender maxUint256 ∨
      tx.spends pathUsd = some (token, spender, amount))) ∧
  ((evs.filterMap Event.sentTx).filter fun tx => tx.method.isApprove).length ≤ 1 ∧
  (((evs.filterMap Event.sentTx).any fun tx => tx.method.isApprove) →
    ∃ pre w post, ∃ n < amount,
      evs = pre ++ .call (.rpc w (.call token (.allowance owner spender))) (.ok n) :: post ∧
        ∀ e ∈ pre, e.sentTx = none)

section guards

variable {pathUsd : Option Addr} {owner token spender amount : ℕ}

theorem GuardsAction.quiet_append {e₁ e₂ : List Event} (h₁ : ∀ e ∈ e₁, e.sentTx = none)
    (h : GuardsAction pathUsd owner token spender amount e₂) :
    GuardsAction pathUsd owner token spender amount (e₁ ++ e₂) := by
  have hsent : (e₁ ++ e₂).filterMap Event.sentTx = e₂.filterMap Event.sentTx := by
    rw [List.filterMap_append, List.filterMap_eq_nil_iff.mpr h₁, List.nil_append]
  obtain ⟨hs, hone, hread⟩ := h
  refine ⟨hsent ▸ hs, hsent ▸ hone, fun hany => ?_⟩
  obtain ⟨pre, w, post, n, hn, he, hpre⟩ := hread (hsent ▸ hany)
  refine ⟨e₁ ++ pre, w, post, n, hn, by rw [he, List.append_assoc], fun e he' => ?_⟩
  exact (List.mem_append.mp he').elim (h₁ e) (hpre e)

/-- The guard's events followed by events that send only the action. -/
theorem guardsAction_of_guard {web3 : Conn} {g e₂ : List Event}
    (hg : GuardSends web3 owner token spender amount g)
    (h₂ : ∀ e ∈ e₂, SendsOnly (fun tx => tx.sender = owner ∧
      tx.spends pathUsd = some (token, spender, amount)) e) :
    GuardsAction pathUsd owner token spender amount (g ++ e₂) := by
  have hact : ∀ tx ∈ e₂.filterMap Event.sentTx, tx.sender = owner ∧
      tx.spends pathUsd = some (token, spender, amount) := fun tx htx => by
    obtain ⟨e, he, hs⟩ := List.mem_filterMap.mp htx
    exact h₂ e he tx hs
  have hnone : (e₂.filterMap Event.sentTx).filter (fun tx => tx.method.isApprove) = [] :=
    List.filter_eq_nil_iff.mpr fun tx htx => by
      obtain ⟨c, hc, hs⟩ := Option.bind_eq_some.mp (hact tx htx).2
      simp [Method.isApprove_of_spends hs]
  simp only [GuardsAction, List.filterMap_append]
  refine ⟨fun tx htx => ?_, ?_, fun hany => ?_⟩
  · rcases List.mem_append.mp htx with htx | htx
    · obtain ⟨h₁, h₂, h₃, -⟩ := hg.2 tx htx
      exact ⟨h₁, .inl ⟨h₂, h₃⟩⟩
    · exact ⟨(hact tx htx).1, .inr (hact tx htx).2⟩
  · rw [List.filter_append, hnone, List.append_nil]
    exact (List.length_filter_le _ _).trans hg.1
  · obtain ⟨tx, htx, hap⟩ := List.any_eq_true.mp hany
    rcases List.mem_append.mp htx with htx | htx
    · obtain ⟨-, -, -, n, hn, hhead⟩ := hg.2 tx htx
      obtain ⟨rest, rfl⟩ : ∃ rest, g = _ :: rest := List.head?_eq_some_iff.mp hhead
      exact ⟨[], web3, rest ++ e₂, n, hn, rfl, List.forall_mem_nil _⟩
    · exact absurd (List.mem_filter.mpr ⟨htx, hap⟩) (hnone ▸ List.not_mem_nil tx)

end guards

/-- Every run of `m` sends nothing, or guards an action that spends from `owner` through a
pair and an amount that `ok` allows. -/
def GuardedBy {α : Type} (ok : Addr × Addr × ℕ → Prop) (pathUsd : Option Addr) (owner : ℕ)
    (m : Web3 α) : Prop :=
  ∀ env h, (∀ e ∈ (m env h).2, e.sentTx = none) ∨ ∃ token spender amount,
    ok (token, spender, amount) ∧ GuardsAction pathUsd owner token spender amount (m env h).2

namespace GuardedBy

variable {α β : Type} {ok : Addr × Addr × ℕ → Prop} {pathUsd : Option Addr} {owner : ℕ}

theorem quiet {m : Web3 α} (hm : Quiet m) : GuardedBy ok pathUsd owner m :=
  fun env h => .inl (hm env h)

theorem quiet_bind {m : Web3 α} {f : α → Web3 β} {P : α → Prop} (hm : Quiet m)
    (hr : Returns m P) (hf : ∀ a, P a → GuardedBy ok pathUsd owner (f a)) :
    GuardedBy ok pathUsd owner (m >>= f) := fun env h => by
  cases hres : (m env h).1 with
  | error x =>
    rw [Web3.bind_apply_error hres]
    exact .inl (hm env h)
  | ok a =>
    rw [Web3.bind_apply_ok hres]
    refine (hf a (hr env h a hres) env _).imp (fun hq e he => ?_) fun ⟨t, s, n, hok, hg⟩ =>
      ⟨t, s, n, hok, hg.quiet_append (hm env h)⟩
    exact (List.mem_append.mp he).elim (hm env h e) (hq e)

/-- The outer `except` of a recipe returns a value and adds no event. -/
theorem tryCatch_pure {body : Web3 α} {b : α} (hb : GuardedBy ok pathUsd owner body) :
    GuardedBy ok pathUsd owner (Web3.tryCatch body fun _ => pure b) := fun env h => by
  have hev : (Web3.tryCatch body (fun _ => pure b) env h).2 = (body env h).2 := by
    simp only [Web3.tryCatch]
    rcases body env h with ⟨_ | _, _⟩ <;> simp
  rw [hev]
  exact hb env h

/-- **The guard and its action.** The guard on a pair and an amount that `ok` allows,
followed by steps that send only actions spending that amount through that pair. -/
theorem guard_then (cfg : Config) (web3 : Conn) (wallet : Account) {token spender amount : ℕ}
    {k : Unit → Web3 β} (hok : ok (token, spender, amount))
    (hk : ∀ u, Emits (k u) (SendsOnly fun tx => tx.sender = wallet.address ∧
      tx.spends pathUsd = some (token, spender, amount))) :
    GuardedBy ok pathUsd wallet.address
      (approveIfNeeded cfg web3 wallet token spender amount >>= k) := fun env h => by
  have hg := approveIfNeeded_guardSends cfg web3 wallet token spender amount env h
  refine .inr ⟨token, spender, amount, hok, ?_⟩
  cases hres : (approveIfNeeded cfg web3 wallet token spender amount env h).1 with
  | error x =>
    rw [Web3.bind_apply_error hres, ← List.append_nil (approveIfNeeded _ _ _ _ _ _ _ _).2]
    exact guardsAction_of_guard hg (List.forall_mem_nil _)
  | ok u =>
    rw [Web3.bind_apply_ok hres]
    exact guardsAction_of_guard hg (hk u env _)

end GuardedBy

section recipes

variable (cfg : Config) (web3 : Conn) (wallet : Account)

/-- The action after a guard: the transaction of a method that spends `s`. -/
theorem transact_spends (c : Addr) (m : Method) (gas : ℕ) {pathUsd : Option Addr}
    {s : Addr × Addr × ℕ} (hs : m.spends pathUsd c = some s) :
    Emits (transact cfg web3 wallet (some c) (pure m) gas) (SendsOnly fun tx =>
      tx.sender = wallet.address ∧ tx.spends pathUsd = some s) :=
  (transact_sends cfg web3 wallet (some c) gas (Returns.pure (P := (· = m)) rfl)
    (Quiet.pure _)).mono fun _ he tx htx => by
    obtain ⟨h₁, h₂, -, h₃⟩ := he tx htx
    exact ⟨h₁, by simp [Tx.spends, h₂, h₃, hs]⟩

/-- The pairs and amounts through which the action of an approve-using recipe of `auto.py`
spends: PathUSD to the DEX for the swaps (`10**6` in activity5, `5 * 10**5` in
activity17), a configured token to the fee manager for `5` to `10` units of liquidity, and
PathUSD or one of the three stablecoins it trades to the DEX for `10 * 10**6` in a limit
order. -/
def Activity.SpendsFrom : Activity → Addr × Addr × ℕ → Prop
  | .swap, (t, s, a) => cfg.tokens.lookup "PathUSD" = some t ∧ s = cfg.stablecoinDex ∧ a = 10 ^ 6
  | .addLiquidity, (t, s, a) => (∃ name, cfg.tokens.lookup name = some t) ∧
      s = cfg.feeManager ∧ ∃ u, 5 ≤ u ∧ u ≤ 10 ∧ a = u * 10 ^ 6
  | .limitOrder, (t, s, a) =>
      (∃ name ∈ ["PathUSD", "AlphaUSD", "BetaUSD", "ThetaUSD"], cfg.tokens.lookup name = some t) ∧
        s = cfg.stablecoinDex ∧ a = 10 * 10 ^ 6
  | .batchOperations, (t, s, a) =>
      cfg.tokens.lookup "PathUSD" = some t ∧ s = cfg.stablecoinDex ∧ a = 5 * 10 ^ 5
  | _, _ => False

/-- The quote and the swap after the guard of activity5 and activity17. -/
theorem quotedSwap_spends (tokenIn tokenOut amount : ℕ) {pathUsd : Option Addr} :
    Emits (do
        let quote : ℕ ← Web3.rpc web3
          (.call cfg.stablecoinDex (.quoteSwapExactAmountIn tokenIn tokenOut amount))
        if 0 < quote then do
          let r ← transact cfg web3 wallet (some cfg.stablecoinDex)
            (pure (.swapExactAmountIn tokenIn tokenOut amount (quote * 99 / 100))) 300000
          pure (Ret.txHash r.1)
        else pure .none) (SendsOnly fun tx => tx.sender = wallet.address ∧
      tx.spends pathUsd = some (tokenIn, cfg.stablecoinDex, amount)) :=
  Emits.bind ((Quiet.read _ _ _).sendsOnly _) fun _ => by
    split
    exacts [(transact_spends cfg web3 wallet _ _ _ (by rfl)).bind fun _ => Emits.pure _, Emits.pure _]

theorem activity5Swap_guarded : GuardedBy (Activity.swap.SpendsFrom cfg)
    (cfg.tokens.lookup "PathUSD") wallet.address (activity5Swap cfg web3 wallet) :=
  .tryCatch_pure <| .quiet_bind (Local.tokenAddr _ _).quiet (Web3.tokenAddr_lookup _ _)
    fun _ hp => .guard_then cfg web3 wallet ⟨hp, rfl, rfl⟩ fun _ =>
      Emits.bind ((Local.tokenAddr _ _).quiet.sendsOnly _) fun _ =>
        quotedSwap_spends cfg web3 wallet _ _ _

theorem activity6AddLiquidity_guarded : GuardedBy (Activity.addLiquidity.SpendsFrom cfg)
    (cfg.tokens.lookup "PathUSD") wallet.address (activity6AddLiquidity cfg web3 wallet) :=
  .tryCatch_pure <| .quiet_bind (Local.shuffle _).quiet (Returns.of_forall _ fun _ => trivial)
    fun _ _ => .quiet_bind (Local.index _ _).quiet (Returns.of_forall _ fun _ => trivial)
    fun _ _ => .quiet_bind (Local.index _ _).quiet (Returns.of_forall _ fun _ => trivial)
    fun _ _ => .quiet_bind (Local.tokenAddr _ _).quiet (Web3.tokenAddr_lookup _ _)
    fun _ h₁ => .quiet_bind (Local.tokenAddr _ _).quiet (Returns.of_forall _ fun _ => trivial)
    fun _ _ => .quiet_bind (Local.randint _ _).quiet (Web3.randint_mem (by decide))
    fun u hu => .guard_then cfg web3 wallet ⟨⟨_, h₁⟩, rfl, u, hu.1, hu.2, rfl⟩ fun _ =>
      (transact_spends cfg web3 wallet _ _ _ (by rfl)).bind fun _ => Emits.pure _

theorem activity11LimitOrder_guarded : GuardedBy (Activity.limitOrder.SpendsFrom cfg)
    (cfg.tokens.lookup "PathUSD") wallet.address (activity11LimitOrder cfg web3 wallet) := by
  refine .tryCatch_pure <| .quiet_bind (Local.choice _).quiet (Web3.choice_mem _)
    fun name hname => .quiet_bind (Local.tokenAddr _ _).quiet (Web3.tokenAddr_lookup _ _)
    fun token htoken => .quiet_bind Local.random.quiet (Returns.of_forall _ fun _ => trivial)
    fun draw _ => ?_
  dsimp only
  have hplace : ∀ isBid, (Method.place token 10000000 isBid 0).spends
      (cfg.tokens.lookup "PathUSD") cfg.stablecoinDex =
        (if isBid then cfg.tokens.lookup "PathUSD" else some token).map
          fun t => (t, cfg.stablecoinDex, 10000000) := fun _ => rfl
  split
  · next hbid =>
    rw [Web3.bind_assoc]
    refine .quiet_bind (Local.tokenAddr _ _).quiet (Web3.tokenAddr_lookup _ _) fun p hp =>
      .guard_then cfg web3 wallet ⟨⟨"PathUSD", by simp, hp⟩, rfl, rfl⟩ fun _ =>
        (transact_spends cfg web3 wallet _ _ _ ?_).bind fun _ => Emits.pure _
    rw [hplace, if_pos hbid, hp]
    rfl
  · next hbid =>
    refine .guard_then cfg web3 wallet ⟨⟨name, by simp at hname ⊢; tauto, htoken⟩, rfl, rfl⟩
      fun _ => (transact_spends cfg web3 wallet _ _ _ ?_).bind fun _ => Emits.pure _
    rw [hplace, if_neg hbid]
    rfl

theorem activity17BatchOperations_guarded : GuardedBy (Activity.batchOperations.SpendsFrom cfg)
    (cfg.tokens.lookup "PathUSD") wallet.address (activity17BatchOperations cfg web3 wallet) :=
  .tryCatch_pure <| .quiet_bind (Local.tokenAddr _ _).quiet (Web3.tokenAddr_lookup _ _)
    fun _ hp => .guard_then cfg web3 wallet ⟨hp, rfl, rfl⟩ fun _ =>
      Emits.bind ((Local.tokenAddr _ _).quiet.sendsOnly _) fun _ =>
        quotedSwap_spends cfg web3 wallet _ _ _

/-- The pair and amount through which `activity15_infinity_name` registers: PathUSD to the
Infinity Name contract, `1000 * 10**6`. -/
def RegistrationSpends (s : Addr × Addr × ℕ) : Prop :=
  cfg.tokens.lookup "PathUSD" = some s.1 ∧ s.2.1 = cfg.infinityNameContract ∧ s.2.2 = 1000 * 10 ^ 6

theorem activity15InfinityName_guarded (w : SmartWallet) :
    GuardedBy (RegistrationSpends cfg) (cfg.tokens.lookup "PathUSD") w.account.address
      (activity15InfinityName cfg w) :=
  .tryCatch_pure <| .quiet_bind (Local.choices _ _).quiet (Returns.of_forall _ fun _ => trivial)
    fun _ _ => .quiet_bind (Local.tokenAddr _ _).quiet (Web3.tokenAddr_lookup _ _)
    fun _ hp => .guard_then cfg w.web3 w.account ⟨hp, rfl, rfl⟩ fun _ =>
      (transact_spends cfg w.web3 w.account _ _ _ (by simp [Method.spends, hp])).bind
        fun _ => Emits.pure _

/-- The four approve-using recipes of `auto.py` guard their own actions. -/
theorem recipes_guarded (web3 : Conn) (wallet : Account) :
    ∀ act ∈ [Activity.swap, .addLiquidity, .limitOrder, .batchOperations],
      GuardedBy (act.SpendsFrom cfg) (cfg.tokens.lookup "PathUSD") wallet.address
        (act.run cfg web3 wallet) := by
  simp only [List.mem_cons, List.not_mem_nil, or_false]
  rintro act (rfl | rfl | rfl | rfl)
  exacts [activity5Swap_guarded cfg web3 wallet, activity6AddLiquidity_guarded cfg web3 wallet,
    activity11LimitOrder_guarded cfg web3 wallet, activity17BatchOperations_guarded cfg web3 wallet]

end recipes

/-- **Approve-if-needed over runs.** Each call of an approve-using recipe approves only the
pair its action spends from, at most once, after reading its allowance below the action's
amount; on a chain whose reads of `p` return what is left of its last confirmed approval, no
approval of `p` follows a confirmed one while less than `2**256 - 1 - 10**9` has been spent. -/
theorem approve_if_needed_idempotent (cfg : Config) (spend : Tx → Option (Pair × ℕ)) (p : Pair)
    (env : Env) (henv : HonestAllowance spend p env) (h : List Event) (hh : ApprovesOk spend p h) :
    (∀ web3 wallet, ∀ act ∈ [Activity.swap, .addLiquidity, .limitOrder, .batchOperations],
      GuardedBy (act.SpendsFrom cfg) (cfg.tokens.lookup "PathUSD") wallet.address
        (act.run cfg web3 wallet)) ∧
      (∀ w : SmartWallet, GuardedBy (RegistrationSpends cfg) (cfg.tokens.lookup "PathUSD")
        w.account.address (activity15InfinityName cfg w)) ∧
      (∀ recipes, NoReapproval spend p (h ++ (runRecipes cfg recipes env h).2)) ∧
      (∀ n (agent : Agent), NoReapproval spend p (h ++ (agentRun cfg n agent env h).2)) ∧
      ∀ proxyFor privateKeys selection, NoReapproval spend p
        (h ++ (runAutoMode cfg (lateBound cfg) proxyFor privateKeys selection env h).2) :=
  ⟨recipes_guarded cfg, activity15InfinityName_guarded cfg,
    fun _ => (((approvals_sendLogic spend p).runRecipes cfg _).run henv hh).noReapproval spend p,
    fun _ _ => (((approvals_sendLogic spend p).agentRun cfg _ _).run henv hh).noReapproval spend p,
    fun _ _ _ =>
      (((approvals_sendLogic spend p).runAutoMode cfg _ _ _).run henv hh).noReapproval spend p⟩

/-- A chain that counts no spends: its reads of an allowance return the value of the last
confirmed approval, or `0`; it quotes every swap at `100`, accepts and confirms every
transaction. -/
def approvingEnv : Env :=
  ⟨fun c h => match c with
    | .rpc _ (.call t (.allowance o s)) =>
        .ok ((match (allowanceState (fun _ => none) ⟨o, t, s⟩ h).approved with
          | some (v, spent) => v - spent
          | none => 0 : ℕ))
    | .rpc _ (.call _ (.quoteSwapExactAmountIn _ _ _)) => .ok (100 : ℕ)
    | .rpc _ (.getTransactionCount _) => .ok (0 : ℕ)
    | .rpc _ .gasPrice => .ok (1 : ℕ)
    | .rpc _ (.sendRawTransaction _) => .ok (7 : ℕ)
    | .rpc _ (.waitForTx _) => .ok ⟨1, none, []⟩
    | _ => .error ⟨.other, "unavailable"⟩⟩

theorem approvingEnv_honest (p : Pair) : HonestAllowance (fun _ => none) p approvingEnv := by
  intro w h n v s hn hv
  cases hn
  change (match (allowanceState (fun _ => none) p h).approved with
    | some (v, spent) => v - spent
    | none => 0) = v - s
  rw [hv]

/-- Two swaps of one account on the approving chain. -/
theorem two_swaps_one_approval :
    HonestAllowance (fun _ => none) ⟨100, 1, 11⟩ approvingEnv ∧
      ApprovesOk (fun _ => none) ⟨100, 1, 11⟩ [] ∧
      NoReapproval (fun _ => none) ⟨100, 1, 11⟩ ([] ++ (runRecipes demoConfig
        [.auto ⟨"rpc", none⟩ ⟨1, 100⟩ .swap, .auto ⟨"rpc", none⟩ ⟨1, 100⟩ .swap]
        approvingEnv []).2) :=
  ⟨approvingEnv_honest _, trivial,
    (approve_if_needed_idempotent demoConfig (fun _ => none) ⟨100, 1, 11⟩ approvingEnv
      (approvingEnv_honest _) [] trivial).2.2.1 _⟩

example : ((runRecipes demoConfig
    [.auto ⟨"rpc", none⟩ ⟨1, 100⟩ .swap, .auto ⟨"rpc", none⟩ ⟨1, 100⟩ .swap]
    approvingEnv []).2.filterMap Event.sentTx).map Tx.method =
      [.approve 11 maxUint256, .swapExactAmountIn 1 2 1000000 99, .swapExactAmountIn 1 2 1000000 99] :=
  rfl

end TempoSpammer
