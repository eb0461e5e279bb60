import TempoSpammer.Balances

/-! # The decision engine is an ordered first-match policy

The spec describes the agent's choice declaratively: recovery first; otherwise an
**ordered list of rules**, each a predicate over the refreshed balances or the token
lists and a probability gate, where the first rule whose predicate holds and whose draw
succeeds is selected and a rule draws only when its predicate holds; otherwise a uniform
pick among the fallback activities.  `firstMatch` is that policy over any rule list, and
`priorityRules` is the list of `decide_next_action`, written from the spec.

`decideNextAction_eq_decideSpec` proves the nested conditionals of `decide_next_action`
equal to the declarative policy, on every wallet, record, environment and history: the
same draws in the same order, the same action.  The environment answers every draw, so
every stream of draws is covered. -/

namespace TempoSpammer

/-- A rule of the priority list: its predicate, the threshold of its draw (`none` when it
fires without one), and the action it selects. -/
structure Rule where
  holds : Bool
  threshold : Option ℚ
  action : Web3 Action

/-- The first rule whose predicate holds and whose draw succeeds, drawing only for rules
whose predicate holds; `fallback` when no rule fires. -/
def firstMatch (fallback : Web3 Action) : List Rule → Web3 Action
  | [] => fallback
  | r :: rs =>
      if r.holds then
        match r.threshold with
        | none => r.action
        | some p => do
            let d : ℚ ← Web3.call .random
            if d < p then r.action else firstMatch fallback rs
      else firstMatch fallback rs

/-- The priority rules of the agent, as the spec lists them: faucet when `ETH < 2.0`,
deploy a token on a draw below `0.15`, swap when `PathUSD > 10` and `AlphaUSD < 5` or
`BetaUSD < 5`, an Infinity name when `PathUSD > 1000` and a draw below `0.1`, liquidity
when `PathUSD > 5` and `AlphaUSD > 5` and a draw below `0.3`, a TIP-403 policy when the
owner's persisted tokens are not empty and a draw below `0.1`, analytics on a draw below
`0.05`, and mint or burn of a created token when there is one and a draw below `0.4`.  The
thresholds are the doubles these literals denote. -/
def priorityRules (store : List TokenRecord) (w : SmartWallet) : List Rule :=
  let eth := w.balances.getD "ETH"
  let path := w.balances.getD "PathUSD"
  let alpha := w.balances.getD "AlphaUSD"
  let beta := w.balances.getD "BetaUSD"
  let myTokens := loadCreatedTokens store w.account.address
  [⟨decide (eth < 2), none,
      pure ⟨"Faucet Claim (Low Balance)", .faucet, "Low ETH: " ++ formatFixed 4 eth ++ " < 2.0"⟩⟩,
    ⟨true, some (pyFloat (15 / 100)), pure ⟨"Deploy New Token", .createToken, "Building portfolio"⟩⟩,
    ⟨decide (10 < path ∧ (alpha < 5 ∨ beta < 5)), none,
      pure ⟨"Swap PathUSD -> Stable", .swap,
        "Balancing portfolio (Path: " ++ formatFixed 1 path ++ ")"⟩⟩,
    ⟨decide (1000 < path), some (pyFloat (1 / 10)),
      pure ⟨"Infinity Name Register", .infinityName, "Domain registration"⟩⟩,
    ⟨decide (5 < path ∧ 5 < alpha), some (pyFloat (3 / 10)),
      pure ⟨"Add Liquidity", .addLiquidity, "Capital efficiency"⟩⟩,
    ⟨!myTokens.isEmpty, some (pyFloat (1 / 10)),
      pure ⟨"TIP-403 Policy", .tip403Policies myTokens, "Security policy"⟩⟩,
    ⟨true, some (pyFloat (5 / 100)), pure ⟨"Analytics & Stats", .analytics, "Monitoring"⟩⟩,
    ⟨!w.createdTokens.isEmpty, some (pyFloat (4 / 10)), do
      let token ← Web3.choice w.createdTokens
      let d : ℚ ← Web3.call .random
      if d < pyFloat (6 / 10) then pure ⟨"Mint Own Token", .mintTokens token, "Managing own asset"⟩
      else pure ⟨"Burn Own Token", .burnTokens token, "Burning supply"⟩⟩]

/-- The uniform pick among the fallback activities. -/
def fallbackAction : Web3 Action := do
  let c ← Web3.choice fallbackOptions
  pure ⟨c.1, c.2, "Random activity"⟩

/-- The decision as the spec states it: recovery first (clearing the flag, no refresh);
otherwise refresh the balances and take the first match of the priority rules. -/
def decideSpec (cfg : Config) (store : List TokenRecord) (w : SmartWallet) :
    Web3 (Action × SmartWallet) :=
  if w.shouldRecoverFaucet then pure (recoveryAction, { w with shouldRecoverFaucet := false })
  else do
    let w ← updateBalances cfg w
    let a ← firstMatch fallbackAction (priorityRules store w)
    pure (a, w)

theorem drawBelow_bind (cond : Bool) (p : ℚ) (f : Bool → Web3 Action) :
    (drawBelow cond p >>= f) =
      if cond then (do let d : ℚ ← Web3.call .random; f (decide (d < p))) else f false := by
  cases cond
  · simp [drawBelow]
  · simp [drawBelow, Web3.bind_assoc]; rfl

theorem decideOnBalances_eq_firstMatch (store : List TokenRecord) (w : SmartWallet) :
    decideOnBalances store w = firstMatch fallbackAction (priorityRules store w) := by
  simp [decideOnBalances, priorityRules, firstMatch, drawBelow_bind, fallbackAction]

/-! ### Every decision yields one action -/

/-- The random source answers: `random()` returns a value and an index below any `n + 1`
is drawn. -/
def DrawsAnswer (env : Env) : Prop :=
  ∀ h, (∃ q, env.answer .random h = .ok q) ∧ ∀ n, ∃ i, env.answer (.randbelow (n + 1)) h = .ok i

/-- `m` returns a value on every environment whose random source answers. -/
def Yields {α : Type} (m : Web3 α) : Prop :=
  ∀ env, DrawsAnswer env → ∀ h, ∃ a, (m env h).1 = .ok a

section yields

variable {α β : Type}

theorem Yields.pure (a : α) : Yields (pure a : Web3 α) := fun _ _ _ => ⟨a, rfl⟩

theorem Yields.bind {m : Web3 α} {f : α → Web3 β} (hm : Yields m) (hf : ∀ a, Yields (f a)) :
    Yields (m >>= f) := by
  intro env henv h
  obtain ⟨a, ha⟩ := hm env henv h
  obtain ⟨b, hb⟩ := hf a env henv (h ++ (m env h).2)
  refine ⟨b, ?_⟩
  rw [Web3.bind_apply]
  rcases hmh : m env h with ⟨r, e⟩
  rw [hmh] at ha hb
  cases ha
  exact hb

theorem Yields.random : Yields (Web3.call .random) := fun env henv h => by
  obtain ⟨q, hq⟩ := (henv h).1
  exact ⟨q, by simp [hq]⟩

theorem Yields.choice (a : α) (l : List α) : Yields (Web3.choice (a :: l)) := by
  refine Yields.bind (fun env henv h => ?_) fun _ => Yields.pure _
  obtain ⟨i, hi⟩ := (henv h).2 l.length
  exact ⟨i, by simp [hi]⟩

/-- A `try` whose handler returns a value always returns one. -/
theorem Yields.tryCatch_pure (m : Web3 α) (a : α) :
    Yields (Web3.tryCatch m fun _ => Pure.pure a) := by
  intro env _ h
  simp only [Web3.tryCatch]
  rcases m env h with ⟨_ | a', e⟩
  exacts [⟨a, rfl⟩, ⟨a', rfl⟩]

theorem firstMatch_yields {fallback : Web3 Action} (hfb : Yields fallback) :
    ∀ rs : List Rule, (∀ r ∈ rs, r.holds → Yields r.action) → Yields (firstMatch fallback rs)
  | [], _ => hfb
  | r :: rs, hrs => by
      have ih := firstMatch_yields hfb rs fun r' hr' => hrs r' (List.mem_cons_of_mem r hr')
      unfold firstMatch
      split
      · have hr := hrs r (List.mem_cons_self r rs) ‹_›
        split
        · exact hr
        · exact Yields.random.bind fun d => by split; exacts [hr, ih]
      · exact ih

end yields

theorem updateTokenBalances_yields (cfg : Config) (w : SmartWallet) :
    ∀ (syms : List String) (b : Balances), Yields (updateTokenBalances cfg w b syms)
  | [], b => Yields.pure b
  | s :: syms, b => by
      unfold updateTokenBalances
      split
      · exact updateTokenBalances_yields cfg w syms b
      · refine (Yields.tryCatch_pure _ none).bind fun r => ?_
        cases r
        exacts [Yields.pure _, updateTokenBalances_yields cfg w syms _]

theorem updateBalances_yields (cfg : Config) (w : SmartWallet) :
    Yields (updateBalances cfg w) := by
  refine (Yields.tryCatch_pure _ none).bind fun r => ?_
  cases r
  exacts [Yields.pure _, (updateTokenBalances_yields cfg w _ _).bind fun _ => Yields.pure _]

/-- **The decision is the ordered first-match policy.** On every state, record,
environment and history `decide_next_action` runs as `decideSpec`, recovery first, then
the first firing priority rule; when the random source answers it returns one action. -/
theorem decideNextAction_eq_decideSpec (cfg : Config) (store : List TokenRecord)
    (w : SmartWallet) :
    decideNextAction cfg store w = decideSpec cfg store w ∧
      Yields (decideNextAction cfg store w) := by
  have heq : decideNextAction cfg store w = decideSpec cfg store w := by
    unfold decideNextAction decideSpec
    split <;> simp [decideOnBalances_eq_firstMatch]
  refine ⟨heq, ?_⟩
  rw [heq]
  unfold decideSpec
  split
  · exact Yields.pure _
  · refine (updateBalances_yields cfg w).bind fun w' => Yields.bind ?_ fun _ => Yields.pure _
    refine firstMatch_yields (Yields.choice _ _ |>.bind fun _ => Yields.pure _) _ ?_
    simp only [priorityRules, List.mem_cons, List.not_mem_nil, or_false]
    rintro r (rfl | rfl | rfl | rfl | rfl | rfl | rfl | rfl) hholds
    iterate 7 exact Yields.pure _
    cases htok : w'.createdTokens with
    | nil => simp [htok] at hholds
    | cons t ts =>
        exact (Yields.choice t ts).bind fun _ => Yields.random.bind fun _ => by
          split <;> exact Yields.pure _

end TempoSpammer
