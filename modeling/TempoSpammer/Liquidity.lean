import TempoSpammer.Trace
import TempoSpammer.Activities

/-! # The pools of add-liquidity and remove-liquidity

`activity6_add_liquidity` shuffles the configured token names and deposits into the
ordered pair of the first two.  `activity12_remove_liquidity` scans the ordered pairs
`(tokens[i], tokens[j])` with `i < j` (`tokenPairs`, its two nested loops;
`mem_tokenPairs_iff`) and withdraws from one of them.

`Event.poolPair` is the pool an event names: the pair of a `getPoolId` read, of a
`mintWithValidatorToken` or of a `burnLiquidity` transaction.  Every pool activity6 names
is `(tokens[i], tokens[j])` for two different positions `i ≠ j`; every pool activity12
names has `i < j` (`liquidity_pools_up_to_order`).  The two agree only up to order: when
the shuffle puts the later token first, activity6 deposits into a pair that activity12
never scans, only its reverse (`addLiquidity_reversed_pool`).

The withdrawal of activity12 is told from the run itself: the scan sends nothing and
records only pools it read with a positive balance (`collectPools_run`), and the part after
the scan sends at most one `burn`, from a recorded pool above the `0.1` LP floor, of an
amount between the floor and the pool's balance (`withdrawFromPools_sends`).  Together:
`removeLiquidity_withdrawal`. -/

namespace TempoSpammer

/-- The pair of tokens an event names as a pool. -/
def Event.poolPair : Event → Option (Addr × Addr)
  | .call (.rpc _ (.call _ (.getPoolId t₁ t₂))) _ => some (t₁, t₂)
  | .call (.rpc _ (.sendRawTransaction tx)) _ =>
      match tx.method with
      | .mintWithValidatorToken t₁ t₂ _ _ => some (t₁, t₂)
      | .burnLiquidity t₁ t₂ _ _ => some (t₁, t₂)
      | _ => none
  | _ => none

/-- The pairs of the nested loops are the pairs of positions `i < j`. -/
theorem mem_tokenPairs_iff {α : Type} {p q : α} : ∀ {l : List α},
    (p, q) ∈ tokenPairs l ↔ ∃ i j : ℕ, i < j ∧ l[i]? = some p ∧ l[j]? = some q
  | [] => by simp [tokenPairs]
  | t :: ts => by
      simp only [tokenPairs, List.mem_append, List.mem_map, Prod.mk.injEq, mem_tokenPairs_iff]
      constructor
      · rintro (⟨u, hu, rfl, rfl⟩ | ⟨i, j, hij, hi, hj⟩)
        · obtain ⟨j, hj⟩ := List.mem_iff_getElem?.mp hu
          exact ⟨0, j + 1, j.succ_pos, by simp, by simpa using hj⟩
        · exact ⟨i + 1, j + 1, by omega, by simpa using hi, by simpa using hj⟩
      · rintro ⟨_ | i, _ | j, hij, hi, hj⟩
        · omega
        · exact .inl ⟨q, List.mem_iff_getElem?.mpr ⟨j, by simpa using hj⟩, by simpa using hi, rfl⟩
        · omega
        · exact .inr ⟨i, j, by omega, by simpa using hi, by simpa using hj⟩

/-- Two different entries of a list sit at two different positions. -/
theorem exists_getElem?_ne {α : Type} {l : List α} {p q : α} (hp : p ∈ l) (hq : q ∈ l)
    (hpq : p ≠ q) : ∃ i j : ℕ, i ≠ j ∧ l[i]? = some p ∧ l[j]? = some q := by
  obtain ⟨i, hi⟩ := List.mem_iff_getElem?.mp hp
  obtain ⟨j, hj⟩ := List.mem_iff_getElem?.mp hq
  exact ⟨i, j, fun hij => hpq (Option.some.inj (hi.symm.trans (hij ▸ hj))), hi, hj⟩

section pools

variable (cfg : Config) (web3 : Conn) (wallet : Account)

/-- A pool of two different configured tokens. -/
def DistinctPool (pr : Addr × Addr) : Prop :=
  ∃ (i j : ℕ) (p q : String × Addr), i ≠ j ∧ cfg.tokens[i]? = some p ∧
    cfg.tokens[j]? = some q ∧ pr = (p.2, q.2)

/-- A pool of the scan of activity12: positions `i < j`. -/
def ScannedPool (pr : Addr × Addr) : Prop :=
  ∃ (i j : ℕ) (p q : String × Addr), i < j ∧ cfg.tokens[i]? = some p ∧
    cfg.tokens[j]? = some q ∧ pr = (p.2, q.2)

/-- The event names no pool, or one satisfying `S`. -/
def PoolsIn (S : Addr × Addr → Prop) (e : Event) : Prop := ∀ pr, e.poolPair = some pr → S pr

theorem Local.pools {α : Type} {m : Web3 α} (hm : Local m) (S : Addr × Addr → Prop) :
    Emits m (PoolsIn S) :=
  hm.emits fun e he pr hpr => by
    rcases e with ⟨_ | _, _⟩ <;> first | cases hpr | simp [Event.isLocal] at he

/-- The send site names the pool of its method only. -/
theorem transact_pools (target : Option Addr) {method : Web3 Method} (gas : ℕ)
    {Q : Method → Prop} (hQ : Returns method Q) (hm : Local method) {S : Addr × Addr → Prop}
    (hS : ∀ tx r, Q tx.method → PoolsIn S (.call (.rpc web3 (.sendRawTransaction tx)) r)) :
    Emits (transact cfg web3 wallet target method gas) (PoolsIn S) :=
  transact_emits cfg web3 wallet target gas hQ (hm.pools S) (fun _ _ h => by cases h)
    (fun _ _ h => by cases h) (fun tx r _ _ _ _ hq => hS tx r hq) (fun _ _ _ h => by cases h)

/-- The allowance guard names no pool. -/
theorem approveIfNeeded_pools (token spender amount : ℕ) (S : Addr × Addr → Prop) :
    Emits (approveIfNeeded cfg web3 wallet token spender amount) (PoolsIn S) :=
  approveIfNeeded_emits cfg web3 wallet token spender amount (fun _ _ h => by cases h)
    (transact_pools cfg web3 wallet _ _ (Returns.pure rfl) (Local.pure _)
      fun tx _ htx _ h => by simp [Event.poolPair, ← htx] at h)

/-- The two names at the front of a shuffled list of distinct names differ. -/
theorem front_names_ne {names xs : List String} (hperm : names.Perm xs) (hnd : xs.Nodup)
    {n₁ n₂ : String} (h₁ : names[0]? = some n₁) (h₂ : names[1]? = some n₂) : n₁ ≠ n₂ := by
  rintro rfl
  have hlt : 0 < names.length := (List.getElem?_eq_some_iff.mp h₁).1
  exact absurd (List.getElem?_inj hlt (hperm.nodup_iff.mpr hnd) (h₁.trans h₂.symm)) (by omega)

/-- The pools activity6 names: its `mintWithValidatorToken` takes the two front names of
the shuffle, two different configured tokens. -/
theorem addLiquidity_pools :
    Emits (activity6AddLiquidity cfg web3 wallet) (PoolsIn (DistinctPool cfg)) := by
  refine Emits.tryCatch ?_ fun _ => Emits.pure _
  refine Emits.bind_of_returns (Web3.shuffle_returns_perm _) ((Local.shuffle _).pools _)
    fun names hperm => ?_
  refine Emits.bind_of_returns (Web3.index_getElem? _ _) ((Local.index _ _).pools _)
    fun n₁ h₁ => Emits.bind_of_returns (Web3.index_getElem? _ _) ((Local.index _ _).pools _)
    fun n₂ h₂ => ?_
  refine Emits.bind_of_returns (Web3.tokenAddr_mem _ _) ((Local.tokenAddr _ _).pools _)
    fun t₁ ht₁ => Emits.bind_of_returns (Web3.tokenAddr_mem _ _) ((Local.tokenAddr _ _).pools _)
    fun t₂ ht₂ => Emits.bind ((Local.randint _ _).pools _) fun units => ?_
  refine (approveIfNeeded_pools cfg web3 wallet _ _ _ _).bind fun _ =>
    (transact_pools cfg web3 wallet _ _ (Returns.pure rfl) (Local.pure _) ?_).bind
      fun _ => Emits.pure _
  intro tx _ htx pr hpr
  simp only [Event.poolPair, ← htx, Option.some.injEq] at hpr
  have hne : (n₁, t₁) ≠ (n₂, t₂) := fun h =>
    front_names_ne hperm cfg.tokens_nodup h₁ h₂ (congrArg Prod.fst h)
  obtain ⟨i, j, hij, hi, hj⟩ := exists_getElem?_ne ht₁ ht₂ hne
  exact ⟨i, j, _, _, hij, hi, hj, hpr.symm⟩

theorem scannedPool_iff (pr : Addr × Addr) :
    ScannedPool cfg pr ↔ pr ∈ (tokenPairs cfg.tokens).map fun pq => (pq.1.2, pq.2.2) := by
  rw [List.mem_map]
  constructor
  · rintro ⟨i, j, p, q, hij, hi, hj, rfl⟩
    exact ⟨(p, q), mem_tokenPairs_iff.mpr ⟨i, j, hij, hi, hj⟩, rfl⟩
  · rintro ⟨⟨p, q⟩, hpq, rfl⟩
    obtain ⟨i, j, hij, hi, hj⟩ := mem_tokenPairs_iff.mp hpq
    exact ⟨i, j, p, q, hij, hi, hj, rfl⟩

/-- One iteration of the scan names the pool of its pair, and records a pool of that
pair. -/
theorem queryPool_pair (pair : (String × Addr) × (String × Addr)) :
    Returns (queryPool cfg web3 wallet pair) (fun o => ∀ pool ∈ o,
        pool.token1Addr = pair.1.2 ∧ pool.token2Addr = pair.2.2) ∧
      Emits (queryPool cfg web3 wallet pair) (PoolsIn (· = (pair.1.2, pair.2.2))) := by
  constructor
  · refine Returns.tryCatch ((Returns.of_forall _ fun _ => trivial).bind fun _ _ =>
      (Returns.of_forall _ fun _ => trivial).bind fun lp _ => Returns.pure ?_)
      fun _ => Returns.pure fun _ h => by cases h
    split
    · rintro _ ⟨⟩
      exact ⟨rfl, rfl⟩
    · rintro _ ⟨⟩
  · refine Emits.tryCatch (Emits.bind (Emits.call fun _ _ h => ?_) fun _ =>
      Emits.bind (Emits.call fun _ _ h => by cases h) fun _ => Emits.pure _) fun _ => Emits.pure _
    simpa [Event.poolPair] using h.symm

/-- The scan names and records only pools of the pairs it scans. -/
theorem collectPools_pairs : ∀ pairs : List ((String × Addr) × (String × Addr)),
    Returns (collectPools cfg web3 wallet pairs) (fun ps => ∀ pool ∈ ps,
        ∃ pq ∈ pairs, pool.token1Addr = pq.1.2 ∧ pool.token2Addr = pq.2.2) ∧
      Emits (collectPools cfg web3 wallet pairs)
        (PoolsIn fun pr => ∃ pq ∈ pairs, pr = (pq.1.2, pq.2.2))
  | [] => ⟨Returns.pure (fun _ h => by cases h), Emits.pure _⟩
  | pair :: rest => by
      obtain ⟨hq, hqe⟩ := queryPool_pair cfg web3 wallet pair
      obtain ⟨hr, hre⟩ := collectPools_pairs rest
      refine ⟨hq.bind fun o ho => hr.bind fun ps hps => Returns.pure fun pool hpool => ?_,
        Emits.bind (hqe.mono fun e he pr hpr => ⟨pair, List.mem_cons_self _ _, he pr hpr⟩)
          fun _ => Emits.bind (hre.mono fun e he pr hpr => ?_) fun _ => Emits.pure _⟩
      · rcases List.mem_append.mp hpool with h | h
        · exact ⟨pair, List.mem_cons_self _ _, ho pool (Option.mem_toList.mp h)⟩
        · obtain ⟨pq, hpq, h'⟩ := hps pool h
          exact ⟨pq, List.mem_cons_of_mem _ hpq, h'⟩
      · obtain ⟨pq, hpq, h'⟩ := he pr hpr
        exact ⟨pq, List.mem_cons_of_mem _ hpq, h'⟩

/-- The pools activity12 names: its `getPoolId` reads scan `tokenPairs`, and its
`burnLiquidity` withdraws from a pool the scan recorded. -/
theorem removeLiquidity_pools :
    Emits (activity12RemoveLiquidity cfg web3 wallet) (PoolsIn (ScannedPool cfg)) := by
  have hscan : ∀ pq ∈ tokenPairs cfg.tokens, ScannedPool cfg (pq.1.2, pq.2.2) :=
    fun pq hpq => (scannedPool_iff cfg _).mpr (List.mem_map_of_mem _ hpq)
  obtain ⟨hr, he⟩ := collectPools_pairs cfg web3 wallet (tokenPairs cfg.tokens)
  refine Emits.tryCatch ?_ fun _ => Emits.pure _
  refine Emits.bind_of_returns hr (he.mono fun e he pr hpr => ?_) fun pools hpools => ?_
  · obtain ⟨pq, hpq, rfl⟩ := he pr hpr
    exact hscan pq hpq
  split
  · exact Emits.pure _
  · refine Emits.bind_of_returns (Web3.choice_mem _) ((Local.choice _).pools _)
      fun sel hsel => ?_
    split
    · exact Emits.pure _
    · refine Emits.bind ((Local.randint _ _).pools _) fun pct =>
        (transact_pools cfg web3 wallet _ _ (Returns.pure rfl) (Local.pure _) ?_).bind
          fun _ => Emits.pure _
      intro tx _ htx pr hpr
      simp only [Event.poolPair, ← htx, Option.some.injEq] at hpr
      obtain ⟨pq, hpq, h₁, h₂⟩ := hpools sel hsel
      rw [← hpr, h₁, h₂]
      exact hscan pq hpq

/-- **Add-liquidity and remove-liquidity agree on pools up to order.** Every pool
activity6 names is `(tokens[i], tokens[j])` for two positions `i ≠ j` of
`CONFIG['TOKENS']`; every pool activity12 names, in a `getPoolId` read or a
`burnLiquidity`, is `(tokens[i], tokens[j])` with `i < j`.  So a deposit of activity6 is
in the scan of activity12 when `i < j`, and only its reverse is when `i > j`. -/
theorem liquidity_pools_up_to_order :
    Emits (activity6AddLiquidity cfg web3 wallet) (PoolsIn (DistinctPool cfg)) ∧
      Emits (activity12RemoveLiquidity cfg web3 wallet) (PoolsIn (ScannedPool cfg)) :=
  ⟨addLiquidity_pools cfg web3 wallet, removeLiquidity_pools cfg web3 wallet⟩

/-! ### The withdrawal of activity12 -/

/-- The reads of the scan for one pool: `getPoolId(t₁, t₂)` answered with an id, then
`liquidityBalances(id, address)` answered with `lp`. -/
def poolReads (t₁ t₂ poolId lp : ℕ) : List Event :=
  [.call (.rpc web3 (.call cfg.feeManager (.getPoolId t₁ t₂))) (.ok poolId),
    .call (.rpc web3 (.call cfg.feeManager (.liquidityBalances poolId wallet.address))) (.ok lp)]

/-- A run of the scan over `pairs`: it sends nothing, and every pool it records has a
positive balance, read for one of the pairs right after that pair's `getPoolId`. -/
structure ScanRun (pairs : List ((String × Addr) × (String × Addr))) (pools : List Pool)
    (evs : List Event) : Prop where
  quiet : ∀ e ∈ evs, e.sentTx = none
  recorded : ∀ pool ∈ pools, 0 < pool.lpBalance ∧ ∃ pq ∈ pairs, ∃ poolId,
    pool.token1Addr = pq.1.2 ∧ pool.token2Addr = pq.2.2 ∧
      poolReads cfg web3 wallet pq.1.2 pq.2.2 poolId pool.lpBalance <:+: evs

/-- Two scans one after the other make a scan of both lists of pairs. -/
theorem ScanRun.append {pairs₁ pairs₂ : List ((String × Addr) × (String × Addr))}
    {pools₁ pools₂ : List Pool} {e₁ e₂ : List Event} (h₁ : ScanRun cfg web3 wallet pairs₁ pools₁ e₁)
    (h₂ : ScanRun cfg web3 wallet pairs₂ pools₂ e₂) :
    ScanRun cfg web3 wallet (pairs₁ ++ pairs₂) (pools₁ ++ pools₂) (e₁ ++ e₂) where
  quiet e he := (List.mem_append.mp he).elim (h₁.quiet e) (h₂.quiet e)
  recorded pool hp := (List.mem_append.mp hp).elim
    (fun hp => let ⟨hpos, pq, hpq, poolId, ht₁, ht₂, hr⟩ := h₁.recorded pool hp
      ⟨hpos, pq, List.mem_append_left _ hpq, poolId, ht₁, ht₂,
        hr.trans (List.prefix_append e₁ e₂).isInfix⟩)
    fun hp => let ⟨hpos, pq, hpq, poolId, ht₁, ht₂, hr⟩ := h₂.recorded pool hp
      ⟨hpos, pq, List.mem_append_right _ hpq, poolId, ht₁, ht₂,
        hr.trans (List.suffix_append e₁ e₂).isInfix⟩

theorem queryPool_run (pair : (String × Addr) × (String × Addr)) (env : Env) (h : List Event) :
    ∃ o evs, queryPool cfg web3 wallet pair env h = (.ok o, evs) ∧
      ScanRun cfg web3 wallet [pair] o.toList evs := by
  unfold queryPool
  simp only [Web3.tryCatch, Web3.bind_apply, Web3.rpc, Web3.call_apply]
  cases h₁ : env.answer (.rpc web3 (.call cfg.feeManager (.getPoolId pair.1.2 pair.2.2))) h with
  | error x => exact ⟨none, _, rfl, by simp [Event.sentTx], by simp⟩
  | ok poolId =>
    dsimp only
    cases h₂ : env.answer (.rpc web3 (.call cfg.feeManager
        (.liquidityBalances poolId wallet.address))) (h ++ [.call _ (.ok poolId)]) with
    | error x => exact ⟨none, _, rfl, by simp [Event.sentTx], by simp⟩
    | ok lp =>
      by_cases hlp : @LT.lt ℕ _ 0 lp
      · refine ⟨some ⟨pair.1.1, pair.2.1, pair.1.2, pair.2.2, lp⟩, _, by simp [hlp]; rfl,
          by simp [Event.sentTx], ?_⟩
        simp only [Option.toList_some, List.mem_singleton, forall_eq]
        exact ⟨hlp, pair, by simp, poolId, rfl, rfl, by simp [poolReads]⟩
      · exact ⟨none, _, by simp [hlp]; rfl, by simp [Event.sentTx], by simp⟩

/-- **The scan.** `pools_with_balance` holds pools of the scanned pairs, each read with a
positive balance in the run, and the scan sends nothing. -/
theorem collectPools_run (env : Env) : ∀ (pairs : List ((String × Addr) × (String × Addr)))
    (h : List Event), ∃ pools evs, collectPools cfg web3 wallet pairs env h = (.ok pools, evs) ∧
      ScanRun cfg web3 wallet pairs pools evs
  | [], _ => ⟨[], [], rfl, ⟨(fun _ h => by cases h), fun _ h => by cases h⟩⟩
  | pair :: rest, h => by
    obtain ⟨o, e₁, h₁, hscan⟩ := queryPool_run cfg web3 wallet pair env h
    obtain ⟨ps, e₂, h₂, hscans⟩ := collectPools_run env rest (h ++ e₁)
    exact ⟨o.toList ++ ps, e₁ ++ e₂, by simp [collectPools, Web3.bind_apply, h₁, h₂],
      ScanRun.append cfg web3 wallet hscan hscans⟩

/-- The part of `activity12_remove_liquidity` after the scan: `random.choice` of a pool,
the `0.1` LP floor, the `20-50%` draw and the `burn`. -/
def withdrawFromPools (pools : List Pool) : Web3 Ret :=
  match pools with
  | [] => pure (.text "skipped: no lp")
  | p :: ps => do
      let selected ← Web3.choice (p :: ps)
      if selected.lpBalance < 100000 then pure (.text "skipped: low balance")
      else do
        let pct ← Web3.randint 20 50
        let amount := min (max (withdrawShare selected.lpBalance pct) 100000) selected.lpBalance
        let r ← transact cfg web3 wallet (some cfg.feeManager)
          (pure (.burnLiquidity selected.token1Addr selected.token2Addr amount wallet.address))
          500000
        pure (.txHash r.1)

theorem activity12RemoveLiquidity_eq : activity12RemoveLiquidity cfg web3 wallet =
    guarded (collectPools cfg web3 wallet (tokenPairs cfg.tokens) >>=
      withdrawFromPools cfg web3 wallet) := rfl

/-- A `burn` from a pool of `pools` holding at least `10**5`, of an amount in
`[10**5, lp]`, from the wallet to the fee manager. -/
def BurnFrom (pools : List Pool) (tx : Tx) : Prop :=
  ∃ sel ∈ pools, 100000 ≤ sel.lpBalance ∧ tx.sender = wallet.address ∧
    tx.target = some cfg.feeManager ∧ ∃ w, tx.method =
      .burnLiquidity sel.token1Addr sel.token2Addr w wallet.address ∧ 100000 ≤ w ∧ w ≤ sel.lpBalance

/-- The withdrawal sends at most one transaction: a `burn` from a chosen pool above the
floor, of an amount between the floor and the pool's balance. -/
theorem withdrawFromPools_sends (pools : List Pool) :
    Emits (withdrawFromPools cfg web3 wallet pools) (SendsOnly (BurnFrom cfg wallet pools)) ∧
      SendsOne (withdrawFromPools cfg web3 wallet pools) := by
  cases pools with
  | nil => exact ⟨Emits.pure _, .of_quiet (Quiet.pure _)⟩
  | cons p ps =>
    refine ⟨Emits.bind_of_returns (Web3.choice_mem _) ((Local.choice _).quiet.sendsOnly _)
      fun sel hsel => ?_, .quiet_bind (Local.choice _).quiet fun sel => ?_⟩
    · split
      · exact Emits.pure _
      · next hlt =>
        refine Emits.bind ((Local.randint _ _).quiet.sendsOnly _) fun pct =>
          Emits.bind ((transact_sends cfg web3 wallet _ _ (Q := (· = .burnLiquidity
            sel.token1Addr sel.token2Addr (min (max (withdrawShare sel.lpBalance pct) 100000)
              sel.lpBalance) wallet.address)) (Returns.pure rfl) (Quiet.pure _)).mono
            fun _ he tx htx => ?_) fun _ => Emits.pure _
        obtain ⟨hs, ht, -, hm⟩ := he tx htx
        exact ⟨sel, hsel, by omega, hs, ht, _, hm, by omega, by omega⟩
    · split
      · exact .of_quiet (Quiet.pure _)
      · exact .quiet_bind (Local.randint _ _).quiet fun _ =>
          .bind_quiet (transact_sendsOne cfg web3 wallet _ _ (Quiet.pure _)) fun _ => Quiet.pure _

/-- What a run of activity12 does with the pools: at most one transaction, a `burn` from
a pool `(tokens[i], tokens[j])` with `i < j` whose balance `lp` the run read after the
pool's `getPoolId`, with `10**5 ≤ lp` and an amount in `[10**5, lp]`; and when every
balance read returned `0`, the value `'skipped: no lp'` and nothing sent. -/
def Withdrawal (r : Except Err Ret) (evs : List Event) : Prop :=
  (evs.filterMap Event.sentTx).length ≤ 1 ∧
    (∀ tx ∈ evs.filterMap Event.sentTx, ∃ (i j : ℕ) (p q : String × Addr) (poolId lp w : ℕ),
      i < j ∧ cfg.tokens[i]? = some p ∧ cfg.tokens[j]? = some q ∧
      poolReads cfg web3 wallet p.2 q.2 poolId lp <:+: evs ∧ tx.sender = wallet.address ∧
      tx.target = some cfg.feeManager ∧ tx.method = .burnLiquidity p.2 q.2 w wallet.address ∧
      100000 ≤ lp ∧ 100000 ≤ w ∧ w ≤ lp) ∧
    ((∀ poolId lp : ℕ, Event.call (.rpc web3 (.call cfg.feeManager
        (.liquidityBalances poolId wallet.address))) (.ok lp) ∈ evs → lp = 0) →
      r = .ok (.text "skipped: no lp") ∧ evs.filterMap Event.sentTx = [])

/-- **Remove-liquidity selection and amount.** For every token list, every answer of the
chain to the scan and every outcome of the draws, a run of activity12 is a
`Withdrawal`. -/
theorem removeLiquidity_withdrawal (env : Env) (h : List Event) :
    Withdrawal cfg web3 wallet (activity12RemoveLiquidity cfg web3 wallet env h).1
      (activity12RemoveLiquidity cfg web3 wallet env h).2 := by
  obtain ⟨pools, e₁, hrun, hq, hpools⟩ :=
    collectPools_run cfg web3 wallet env (tokenPairs cfg.tokens) h
  obtain ⟨hE, hO⟩ := withdrawFromPools_sends cfg web3 wallet pools
  set rest := withdrawFromPools cfg web3 wallet pools env (h ++ e₁)
  have hev : (activity12RemoveLiquidity cfg web3 wallet env h).2 = e₁ ++ rest.2 := by
    rw [activity12RemoveLiquidity_eq, guarded_apply, Web3.bind_apply, hrun]
  have hsent : (activity12RemoveLiquidity cfg web3 wallet env h).2.filterMap Event.sentTx =
      rest.2.filterMap Event.sentTx := by
    rw [hev, List.filterMap_append, List.filterMap_eq_nil_iff.mpr hq, List.nil_append]
  refine ⟨hsent ▸ hO env _, fun tx htx => ?_, fun hzero => ?_⟩
  · rw [hsent] at htx
    obtain ⟨e, he, hs⟩ := List.mem_filterMap.mp htx
    obtain ⟨sel, hsel, hlp, hsender, htarget, w, hm, hw₁, hw₂⟩ := hE env _ e he tx hs
    obtain ⟨-, ⟨p, q⟩, hpq, poolId, ht₁, ht₂, hreads⟩ := hpools sel hsel
    obtain ⟨i, j, hij, hi, hj⟩ := mem_tokenPairs_iff.mp hpq
    refine ⟨i, j, p, q, poolId, sel.lpBalance, w, hij, hi, hj, ?_, hsender, htarget,
      by rw [hm, ht₁, ht₂], hlp, hw₁, hw₂⟩
    rw [hev]
    exact hreads.trans (List.prefix_append e₁ rest.2).isInfix
  · cases pools with
    | nil =>
      refine ⟨?_, by rw [hsent]; rfl⟩
      rw [activity12RemoveLiquidity_eq, guarded_apply, Web3.bind_apply, hrun]
      rfl
    | cons pool ps =>
      obtain ⟨hpos, pq, -, poolId, -, -, hreads⟩ := hpools pool (List.mem_cons_self pool ps)
      have hread := hreads.subset (List.mem_cons_of_mem _ (List.mem_singleton_self _))
      rw [hev] at hzero
      have := hzero poolId pool.lpBalance (List.mem_append_left _ hread)
      omega

end pools

/-- A chain whose shuffle swaps the first two names, with an allowance in place. -/
def swapEnv : Env :=
  ⟨fun c _ => match c with
    | .shuffle (_ + 2) => .ok (Equiv.swap 0 1)
    | .randbelow (_ + 1) => .ok (Fin.ofNat 0)
    | .rpc _ (.call _ (.allowance _ _)) => .ok maxUint256
    | .rpc _ (.getTransactionCount _) => .ok (0 : ℕ)
    | .rpc _ .gasPrice => .ok (1 : ℕ)
    | .rpc _ (.sendRawTransaction _) => .ok (9 : ℕ)
    | .rpc _ (.waitForTx _) => .ok ⟨1, none, []⟩
    | _ => .error ⟨.other, "unavailable"⟩⟩

/-- With AlphaUSD shuffled before PathUSD, activity6 deposits into the pool
`(AlphaUSD, PathUSD)`, which activity12 never scans. -/
theorem addLiquidity_reversed_pool :
    (activity6AddLiquidity demoConfig ⟨"rpc", none⟩ ⟨1, 100⟩ swapEnv []).2.filterMap
        Event.poolPair = [(2, 1)] ∧
      ¬ ScannedPool demoConfig (2, 1) :=
  ⟨rfl, by rw [scannedPool_iff]; decide⟩

end TempoSpammer
