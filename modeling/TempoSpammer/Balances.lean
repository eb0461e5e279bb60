import TempoSpammer.Smart

/-! # What a balance refresh leaves

`update_balances` reads `ETH` and then the configured stablecoins in the order of
`balanceSymbols`, inside one `try` whose handler, under the comment "Set default balances
on error", only resets `ETH` to `0`.  So a refresh does not leave a snapshot of one moment,
a defect of the code: when a token read fails, the entries written before it hold this
call's values, `ETH` — read successfully a moment before — is `0`, and the failing symbol
and the symbols after it keep the values of an earlier call
(`updateBalances_keeps_stale_entries`).

`updateBalances_entries` describes every refresh on every environment, entry by entry:
the values read (`configured` symbols, in order, up to the first failure), the entries
left as they were, and `ETH`. -/

namespace TempoSpammer

section balances

variable (cfg : Config) (w : SmartWallet)

/-- The symbols of `syms` that `CONFIG['TOKENS']` configures, with their tokens. -/
def configured (syms : List String) : List (String × Addr) :=
  syms.filterMap fun s => (cfg.tokens.lookup s).map fun a => (s, a)

/-- The event of the `get_balance` read. -/
def ethEvent (r : Except Err ℕ) : Event :=
  .call (.rpc w.web3 (.getBalance w.account.address)) r

/-- The event of the `balanceOf` read of `token`. -/
def balanceEvent (token : Addr) (r : Except Err ℕ) : Event :=
  .call (.rpc w.web3 (.call token (.balanceOf w.account.address))) r

/-- The events of successful token reads. -/
def freshEvents (fresh : List ((String × Addr) × ℕ)) : List Event :=
  fresh.map fun p => balanceEvent w p.1.2 (.ok p.2)

/-- The entries written by successful token reads, in order. -/
def Balances.setRead (b : Balances) : List ((String × Addr) × ℕ) → Balances
  | [] => b
  | (p, v) :: rest => (b.set p.1 (pyFloat ((v : ℚ) / 10 ^ 6))).setRead rest

theorem configured_map_fst (syms : List String) :
    (configured cfg syms).map Prod.fst = syms.filter fun s => (cfg.tokens.lookup s).isSome := by
  induction syms with
  | nil => rfl
  | cons s syms ih =>
      cases hs : cfg.tokens.lookup s <;>
        simp [configured, List.filterMap_cons, List.filter_cons, hs] at ih ⊢ <;> exact ih

theorem setRead_apply_of_not_mem (b : Balances) (k : String) :
    ∀ fresh : List ((String × Addr) × ℕ), k ∉ fresh.map (·.1.1) → b.setRead fresh k = b k
  | [] , _ => rfl
  | (p, v) :: rest, hk => by
      simp only [List.map_cons, List.mem_cons, not_or] at hk
      rw [Balances.setRead, setRead_apply_of_not_mem _ k rest hk.2, Balances.set_apply,
        if_neg hk.1]

theorem setRead_apply_of_mem (b : Balances) :
    ∀ fresh : List ((String × Addr) × ℕ), (fresh.map (·.1.1)).Nodup →
      ∀ q ∈ fresh, b.setRead fresh q.1.1 = some (pyFloat ((q.2 : ℚ) / 10 ^ 6))
  | [], _, _, hq => absurd hq (List.not_mem_nil _)
  | (p, v) :: rest, hnd, q, hq => by
      simp only [List.map_cons, List.nodup_cons] at hnd
      rcases List.mem_cons.mp hq with rfl | hq
      · rw [Balances.setRead, setRead_apply_of_not_mem _ _ rest hnd.1]
        simp
      · exact setRead_apply_of_mem _ rest hnd.2 q hq

/-- The token reads, from balances `b`: the configured symbols read successfully form a
prefix `fresh`; when `stale` is not empty its first read failed and `ETH` was reset. -/
theorem updateTokenBalances_run (env : Env) :
    ∀ (syms : List String) (b : Balances) (h : List Event),
    ∃ (fresh : List ((String × Addr) × ℕ)) (stale : List (String × Addr)),
      configured cfg syms = fresh.map Prod.fst ++ stale ∧
      ((stale = [] ∧ updateTokenBalances cfg w b syms env h =
          (.ok (b.setRead fresh), freshEvents w fresh)) ∨
        ∃ s a rest e, stale = (s, a) :: rest ∧ updateTokenBalances cfg w b syms env h =
          (.ok ((b.setRead fresh).set "ETH" 0), freshEvents w fresh ++ [balanceEvent w a (.error e)]))
  | [], b, _ => ⟨[], [], rfl, .inl ⟨rfl, rfl⟩⟩
  | s :: syms, b, h => by
      cases hs : cfg.tokens.lookup s with
      | none =>
          obtain ⟨fresh, stale, hcfg, hrun⟩ := updateTokenBalances_run env syms b h
          refine ⟨fresh, stale, by simpa [configured, hs] using hcfg, ?_⟩
          simpa [updateTokenBalances, hs] using hrun
      | some a =>
          cases hr : env.answer (.rpc w.web3 (.call a (.balanceOf w.account.address))) h with
          | ok v =>
              change ℕ at v
              obtain ⟨fresh, stale, hcfg, hrun⟩ := updateTokenBalances_run env syms
                (b.set s (pyFloat ((v : ℚ) / 10 ^ 6))) (h ++ [balanceEvent w a (.ok v)])
              refine ⟨((s, a), v) :: fresh, stale, by simpa [configured, hs] using hcfg, ?_⟩
              simp only [balanceEvent] at hrun
              rcases hrun with ⟨hst, hrun⟩ | ⟨s', a', rest, e, hst, hrun⟩
              · exact .inl ⟨hst, by simp [updateTokenBalances, hs, Web3.tryCatch, Web3.bind_apply,
                  Web3.rpc, hr, hrun, Balances.setRead, freshEvents, balanceEvent]⟩
              · exact .inr ⟨s', a', rest, e, hst, by simp [updateTokenBalances, hs, Web3.tryCatch,
                  Web3.bind_apply, Web3.rpc, hr, hrun, Balances.setRead, freshEvents, balanceEvent]⟩
          | error e =>
              refine ⟨[], (s, a) :: configured cfg syms, by simp [configured, hs],
                .inr ⟨s, a, _, e, rfl, ?_⟩⟩
              simp [updateTokenBalances, hs, Web3.tryCatch, Web3.bind_apply, Web3.rpc, hr,
                Balances.setRead, freshEvents, balanceEvent]

theorem fresh_sublist {syms : List String} {fresh : List ((String × Addr) × ℕ)}
    {stale : List (String × Addr)} (hcfg : configured cfg syms = fresh.map Prod.fst ++ stale) :
    List.Sublist (fresh.map (·.1.1)) syms := by
  have hpre : List.Sublist (fresh.map (·.1.1)) ((configured cfg syms).map Prod.fst) := by
    rw [hcfg, List.map_append, List.map_map]
    exact List.sublist_append_left _ _
  exact hpre.trans (by rw [configured_map_fst]; exact List.filter_sublist syms)

/-- After a successful `get_balance`, `update_balances` is the token loop from the
balances with `ETH` set, its events after the `ETH` read. -/
theorem updateBalances_of_wei {env : Env} {h : List Event} {wei : ℕ}
    (hr : env.answer (.rpc w.web3 (.getBalance w.account.address)) h = .ok wei)
    {b : Balances} {evs : List Event}
    (hloop : updateTokenBalances cfg w (w.balances.set "ETH" (pyFloat ((wei : ℚ) / 10 ^ 18))) balanceSymbols
      env (h ++ [ethEvent w (.ok wei)]) = (.ok b, evs)) :
    updateBalances cfg w env h = (.ok { w with balances := b }, ethEvent w (.ok wei) :: evs) := by
  simp only [ethEvent] at hloop ⊢
  simp [updateBalances, Web3.tryCatch, Web3.bind_apply, Web3.rpc, hr, hloop]

/-- **The balance refresh mixes fresh and stale entries (a defect).** The handler resets
only `ETH` ("Set default balances on error"): after a failed token read `ETH` is `0` though
just read, and the failing symbol and those after it keep their earlier values, while the
symbols read before hold this call's values. -/
theorem updateBalances_entries (env : Env) (h : List Event) :
    ∃ b' evs, updateBalances cfg w env h = (.ok { w with balances := b' }, evs) ∧
      ((∃ e, evs = [ethEvent w (.error e)] ∧ b' = w.balances.set "ETH" 0) ∨
        ∃ wei : ℕ, ∃ fresh stale, configured cfg balanceSymbols = fresh.map Prod.fst ++ stale ∧
          (∀ p ∈ fresh, b' p.1.1 = some (pyFloat ((p.2 : ℚ) / 10 ^ 6))) ∧
          (∀ k, k ≠ "ETH" → k ∉ fresh.map (·.1.1) → b' k = w.balances k) ∧
          ((stale = [] ∧ b' "ETH" = some (pyFloat ((wei : ℚ) / 10 ^ 18)) ∧
              evs = ethEvent w (.ok wei) :: freshEvents w fresh) ∨
            ∃ s a rest e, stale = (s, a) :: rest ∧ b' "ETH" = some 0 ∧
              evs = ethEvent w (.ok wei) :: (freshEvents w fresh ++ [balanceEvent w a (.error e)]))) := by
  cases hr : env.answer (.rpc w.web3 (.getBalance w.account.address)) h with
  | error e =>
      have hrun : updateBalances cfg w env h =
          (.ok { w with balances := w.balances.set "ETH" 0 }, [ethEvent w (.error e)]) := by
        simp [updateBalances, Web3.tryCatch, Web3.bind_apply, Web3.rpc, hr]; rfl
      exact ⟨_, _, hrun, .inl ⟨e, rfl, rfl⟩⟩
  | ok wei =>
      change ℕ at wei
      obtain ⟨fresh, stale, hcfg, hloop⟩ := updateTokenBalances_run cfg w env balanceSymbols
        (w.balances.set "ETH" (pyFloat ((wei : ℚ) / 10 ^ 18))) (h ++ [ethEvent w (.ok wei)])
      have hsub := fresh_sublist cfg hcfg
      have hnd : (fresh.map (·.1.1)).Nodup := hsub.nodup (by decide)
      have heth : "ETH" ∉ fresh.map (·.1.1) := fun hm =>
        (by decide : "ETH" ∉ balanceSymbols) (hsub.subset hm)
      have hfresh : ∀ p ∈ fresh, p.1.1 ≠ "ETH" := fun p hp hpe =>
        heth (hpe ▸ List.mem_map_of_mem (·.1.1) hp)
      rcases hloop with ⟨rfl, hloop⟩ | ⟨s, a, rest, e, rfl, hloop⟩
      · refine ⟨_, _, updateBalances_of_wei cfg w hr hloop, .inr ⟨wei, fresh, [], hcfg,
          fun p hp => setRead_apply_of_mem _ fresh hnd p hp, fun k hk hkf => ?_,
          .inl ⟨rfl, ?_, rfl⟩⟩⟩
        · rw [setRead_apply_of_not_mem _ k fresh hkf]; simp [hk]
        · rw [setRead_apply_of_not_mem _ _ fresh heth]; simp
      · refine ⟨_, _, updateBalances_of_wei cfg w hr hloop, .inr ⟨wei, fresh, _, hcfg, fun p hp => ?_, fun k hk hkf => ?_,
          .inr ⟨s, a, rest, e, rfl, by simp, rfl⟩⟩⟩
        · rw [Balances.set_apply, if_neg (hfresh p hp)]
          exact setRead_apply_of_mem _ fresh hnd p hp
        · rw [Balances.set_apply, if_neg hk, setRead_apply_of_not_mem _ k fresh hkf]; simp [hk]

end balances

/-- A wallet whose every entry holds `7` from an earlier refresh. -/
def staleWallet : SmartWallet :=
  ⟨0, ⟨1, 100⟩, none, ⟨"rpc", none⟩, fun _ => some 7, [], false⟩

/-- `ETH` reads `3 * 10**18`, PathUSD reads `20 * 10**6`, every other read raises. -/
def alphaFailEnv : Env :=
  ⟨fun c _ => match c with
    | .rpc _ (.getBalance _) => .ok (3 * 10 ^ 18)
    | .rpc _ (.call 1 (.balanceOf _)) => .ok (20 * 10 ^ 6)
    | _ => .error ⟨.other, "execution reverted"⟩⟩

/-- A failure at the AlphaUSD read resets `ETH`, read successfully, to `0`, and leaves
AlphaUSD and ThetaUSD at the values of the earlier refresh. -/
theorem updateBalances_keeps_stale_entries :
    (updateBalances demoConfig staleWallet alphaFailEnv []).2.head? =
        some (ethEvent staleWallet (.ok (3 * 10 ^ 18))) ∧
      (updateBalances demoConfig staleWallet alphaFailEnv []).1.map
          (fun w => (w.balances "ETH", w.balances "AlphaUSD", w.balances "ThetaUSD")) =
        .ok (some 0, some 7, some 7) :=
  ⟨rfl, rfl⟩

end TempoSpammer
