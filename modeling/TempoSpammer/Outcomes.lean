import TempoSpammer.Sweep

/-! # What the result of an activity tells

An activity of `auto.py` returns a transaction hash, a token address or `'faucet'` (its
success values), `None`, or a `"skipped: ..."` string.  `Outcome act v evs` classifies a
run with value `v` and events `evs`:

* a success value comes after its confirmation (`Ret.confirmedBy`): the confirmation
  wait of the hash returned a receipt, or the faucet request was answered;
* `None` comes after an exception (`Failed`), or from a branch that declines without one,
  and then the run shows which (`Activity.Declines`): a confirmed creation whose receipt has
  no `TokenCreated` log in activity4, a quote read as `0` in activity5 and activity17, the
  pause role read as held in activity13, no token in activity8, activity9 and activity13, or
  `max_retries = 0` for the faucet;
* a skip string comes only from activity9, after reading a balance below `10**7`, and from
  activity12, after position reads that all answered `0` or a read of the chosen position
  below `10**5`; and then nothing was sent.

`Classified m P` says that every run of `m` raises after a failure event or returns a
value whose events satisfy `P`; it has one rule per construct, and `activity_outcome`
follows from one lemma per recipe.  `None` without an exception is where the results
do not tell errors apart (`zero_quote_none_and_skip_marked_done`): the zero quote of the
swap returns `None` with no error at all, and `run_auto_mode` marks every truthy result
`✓ Done`, a skip string included. -/

namespace TempoSpammer

/-- An event reporting an exception: a call answered by one, or a `raise`. -/
def Event.isFailure : Event → Bool
  | .call _ (.error _) => true
  | .raised _ => true
  | _ => false

/-- Some event reports an exception. -/
def Failed (evs : List Event) : Prop := ∃ e ∈ evs, e.isFailure

/-- No event sends a transaction. -/
def NoSend (evs : List Event) : Prop := ∀ e ∈ evs, e.sentTx = none

theorem Failed.append_left {e₂ : List Event} (e₁ : List Event) (h : Failed e₂) :
    Failed (e₁ ++ e₂) :=
  let ⟨e, he, hf⟩ := h; ⟨e, List.mem_append_right _ he, hf⟩

theorem Failed.append_right {e₁ : List Event} (e₂ : List Event) (h : Failed e₁) :
    Failed (e₁ ++ e₂) :=
  let ⟨e, he, hf⟩ := h; ⟨e, List.mem_append_left _ he, hf⟩

theorem NoSend.append {e₁ e₂ : List Event} (h₁ : NoSend e₁) (h₂ : NoSend e₂) :
    NoSend (e₁ ++ e₂) := fun e he => (List.mem_append.mp he).elim (h₁ e) (h₂ e)

/-- A success value: truthy and not a skip. -/
def Ret.success (v : Ret) : Bool := v.truthy && !v.isSkip

/-- The events that confirm a success value: for a hash, the confirmation wait of that
hash returning a receipt; for a token, a confirmation wait returning one; for
`'faucet'`, an answered faucet request. -/
def Ret.confirmedBy : Ret → Event → Bool
  | .txHash h, .call (.rpc _ (.waitForTx h')) (.ok _) => h == h'
  | .token _, .call (.rpc _ (.waitForTx _)) (.ok _) => true
  | .text _, .call (.rpc _ (.fundAddress _)) (.ok _) => true
  | _, _ => false

/-- Some event confirms `v`. -/
def Ret.ConfirmedIn (v : Ret) (evs : List Event) : Prop := ∃ e ∈ evs, v.confirmedBy e

theorem Ret.ConfirmedIn.append_left {v : Ret} {e₂ : List Event} (e₁ : List Event)
    (h : v.ConfirmedIn e₂) : v.ConfirmedIn (e₁ ++ e₂) :=
  let ⟨e, he, hc⟩ := h; ⟨e, List.mem_append_right _ he, hc⟩

theorem Ret.ConfirmedIn.append_right {v : Ret} {e₁ : List Event} (e₂ : List Event)
    (h : v.ConfirmedIn e₁) : v.ConfirmedIn (e₁ ++ e₂) :=
  let ⟨e, he, hc⟩ := h; ⟨e, List.mem_append_left _ he, hc⟩

/-- The quote an event reads from the DEX, when it answered. -/
def Event.quoteAnswer : Event → Option ℕ
  | .call (.rpc _ (.call _ (.quoteSwapExactAmountIn _ _ _))) (.ok q) => some q
  | _ => none

/-- The liquidity position an event reads from the fee manager, when it answered. -/
def Event.positionAnswer : Event → Option ℕ
  | .call (.rpc _ (.call _ (.liquidityBalances _ _))) (.ok n) => some n
  | _ => none

/-- What shows that `act` returned `v` from a branch that declines without an exception:
an argument or setting that leaves nothing to do (no token, `max_retries = 0`), or what the
branch read on the chain, recorded in its events (a confirmed creation without a
`TokenCreated` log, a zero quote, the pause role held, a balance or a position too small,
no position at all). -/
def Activity.Declines : Activity → Ret → List Event → Prop
  | .faucet n, .none, _ => n = 0
  | .createStablecoin, .none, evs => ∃ w txHash, ∃ rc : Receipt,
      Event.call (.rpc w (.waitForTx txHash)) (.ok rc) ∈ evs ∧ ∀ l ∈ rc.logs, l.tokenCreated = none
  | .swap, .none, evs => ∃ e ∈ evs, e.quoteAnswer = some 0
  | .batchOperations, .none, evs => ∃ e ∈ evs, e.quoteAnswer = some 0
  | .mintTokens t, .none, _ => t = none
  | .burnTokens t, .none, _ => t = none
  | .burnTokens (some t), .text s, evs => s = "skipped: low balance" ∧
      ∃ w owner, ∃ n : ℕ, Event.call (.rpc w (.call t (.balanceOf owner))) (.ok n) ∈ evs ∧
        n < 10 ^ 7
  | .grantRole none, .none, _ => True
  | .grantRole (some t), .none, evs =>
      ∃ w owner, Event.call (.rpc w (.call t (.hasRole .pause owner))) (.ok true) ∈ evs
  | .removeLiquidity, .text s, evs =>
      s = "skipped: no lp" ∧ (∀ e ∈ evs, ∀ n, e.positionAnswer = some n → n = 0) ∨
        s = "skipped: low balance" ∧ ∃ e ∈ evs, ∃ n, e.positionAnswer = some n ∧ 0 < n ∧ n < 10 ^ 5
  | _, _, _ => False

/-- The class of a run of `act` with value `v` and events `evs`. -/
def Outcome (act : Activity) (v : Ret) (evs : List Event) : Prop :=
  (v.success ∧ v.ConfirmedIn evs) ∨ (v = .none ∧ (Failed evs ∨ act.Declines .none evs)) ∨
    (v.isSkip ∧ act.Declines v evs ∧ NoSend evs)

/-- The evidence of a `None` survives earlier events. -/
theorem Activity.Declines.none_append_left {act : Activity} {e₂ : List Event} (e₁ : List Event)
    (h : act.Declines .none e₂) : act.Declines .none (e₁ ++ e₂) := by
  have hmem : ∀ {e : Event}, e ∈ e₂ → e ∈ e₁ ++ e₂ := List.mem_append_right e₁
  cases act with
  | createStablecoin => obtain ⟨w, tx, rc, hm, hl⟩ := h; exact ⟨w, tx, rc, hmem hm, hl⟩
  | swap => obtain ⟨e, he, hq⟩ := h; exact ⟨e, hmem he, hq⟩
  | batchOperations => obtain ⟨e, he, hq⟩ := h; exact ⟨e, hmem he, hq⟩
  | grantRole t =>
    cases t with
    | none => exact h
    | some t => obtain ⟨w, o, hm⟩ := h; exact ⟨w, o, hmem hm⟩
  | burnTokens t => cases t <;> exact h
  | _ => exact h

namespace Outcome

variable {act : Activity} {v : Ret} {e₂ : List Event}

/-- Earlier events keep the class of a value that is not a skip. -/
theorem append_left (hv : v.isSkip = false) (e₁ : List Event) (h : Outcome act v e₂) :
    Outcome act v (e₁ ++ e₂) := by
  rcases h with ⟨hs, hc⟩ | ⟨hv', hf | hd⟩ | ⟨hs, -⟩
  · exact .inl ⟨hs, hc.append_left e₁⟩
  · exact .inr (.inl ⟨hv', .inl (hf.append_left e₁)⟩)
  · exact .inr (.inl ⟨hv', .inr (hd.none_append_left e₁)⟩)
  · exact absurd hs (by simp [hv])

end Outcome

/-! ### Classified runs -/

/-- Every run of `m`: an exception comes after a failure event, and a value `a` with
events satisfying `P a`. -/
def Classified {α : Type} (m : Web3 α) (P : α → List Event → Prop) : Prop :=
  ∀ env h, (∀ a, (m env h).1 = .ok a → P a (m env h).2) ∧
    (∀ x, (m env h).1 = .error x → Failed (m env h).2)

namespace Classified

variable {α β : Type} {P : β → List Event → Prop}

theorem mono {m : Web3 β} {P' : β → List Event → Prop} (hm : Classified m P)
    (h : ∀ a evs, P a evs → P' a evs) : Classified m P' :=
  fun env hist => ⟨fun a ha => h a _ ((hm env hist).1 a ha), (hm env hist).2⟩

theorem pure {a : β} (h : P a []) : Classified (Pure.pure a : Web3 β) P :=
  fun _ _ => ⟨by rintro _ ⟨⟩; exact h, by rintro _ ⟨⟩⟩

theorem raise (e : Err) : Classified (Web3.raise e : Web3 β) P :=
  fun _ _ => ⟨by rintro _ ⟨⟩, fun _ _ => ⟨_, List.mem_singleton_self _, rfl⟩⟩

theorem call {c : Call} {P : c.Resp → List Event → Prop} (h : ∀ v, P v [.call c (.ok v)]) :
    Classified (Web3.call c) P := by
  intro env hist
  simp only [Web3.call_apply]
  refine ⟨fun a ha => ?_, fun x hx => ⟨_, List.mem_singleton_self _, by simp [hx, Event.isFailure]⟩⟩
  rw [ha]
  exact h a

theorem bind {m : Web3 α} {f : α → Web3 β} {Q : α → List Event → Prop}
    (hm : Classified m Q) (hf : ∀ a e₁, Q a e₁ → Classified (f a) fun b e₂ => P b (e₁ ++ e₂)) :
    Classified (m >>= f) P := by
  intro env hist
  rw [Web3.bind_apply]
  rcases hmh : m env hist with ⟨_ | a, e₁⟩
  · exact ⟨by rintro _ ⟨⟩, fun _ _ => by simpa [hmh] using (hm env hist).2 _ (by rw [hmh])⟩
  · have hq := (hm env hist).1 a (by rw [hmh])
    rw [hmh] at hq
    obtain ⟨hok, herr⟩ := hf a e₁ hq env (hist ++ e₁)
    exact ⟨hok, fun x hx => (herr x hx).append_left e₁⟩

/-- The handler runs after a failure of `m`, so only its values need checking. -/
theorem tryCatch {m : Web3 β} {handler : Err → Web3 β} (hm : Classified m P)
    (hh : ∀ x e₁, Failed e₁ → ∀ env h b, (handler x env h).1 = .ok b →
      P b (e₁ ++ (handler x env h).2)) :
    Classified (Web3.tryCatch m handler) P := by
  intro env hist
  simp only [Web3.tryCatch]
  rcases hmh : m env hist with ⟨_ | a, e₁⟩
  · have hf := (hm env hist).2 _ (by rw [hmh])
    rw [hmh] at hf
    exact ⟨hh _ e₁ hf env (hist ++ e₁), fun _ _ => hf.append_right _⟩
  · have hq := (hm env hist).1 a (by rw [hmh])
    rw [hmh] at hq
    exact ⟨by rintro _ ⟨⟩; exact hq, by rintro _ ⟨⟩⟩

/-- A handler that returns `b` after no events. -/
theorem tryCatch_pure {m : Web3 β} {b : β} (hm : Classified m P)
    (hb : ∀ e₁, Failed e₁ → P b e₁) :
    Classified (Web3.tryCatch m fun _ => Pure.pure b) P :=
  tryCatch hm fun _ e₁ hf _ _ _ hb' => by
    cases hb'
    simpa using hb e₁ hf

theorem tryCatchWhen {m : Web3 β} {catches : Err → Bool} {handler : Err → Web3 β}
    (hm : Classified m P) (hh : ∀ x e₁, Failed e₁ → ∀ env h b, (handler x env h).1 = .ok b →
      P b (e₁ ++ (handler x env h).2)) :
    Classified (Web3.tryCatchWhen m catches handler) P :=
  tryCatch hm fun x e₁ hf env h b => by
    by_cases hc : catches x
    · simpa [hc] using hh x e₁ hf env h b
    · simp [hc, Web3.reraise]

/-- A step whose events do not matter to a postcondition that every prefix keeps. -/
theorem bind_mono {m : Web3 α} {f : α → Web3 β} {Q : α → List Event → Prop}
    (hm : Classified m Q) (hP : ∀ b e₁ e₂, P b e₂ → P b (e₁ ++ e₂))
    (hf : ∀ a, Classified (f a) P) : Classified (m >>= f) P :=
  hm.bind fun a e₁ _ => (hf a).mono fun b e₂ h => hP b e₁ e₂ h

theorem print {line : String} {P : Unit → List Event → Prop} (h : P () [.print line]) :
    Classified (Web3.print line) P :=
  fun _ _ => ⟨by rintro _ ⟨⟩; exact h, by rintro _ ⟨⟩⟩

/-- Every call records its exception. -/
theorem call_any (c : Call) : Classified (Web3.call c) fun _ _ => True := call fun _ => trivial

/-- A computation that sends nothing: its exceptions recorded, its events silent. -/
theorem noSend {m : Web3 β} (hq : Quiet m) (hr : Classified m fun _ _ => True) :
    Classified m fun _ evs => NoSend evs :=
  fun env h => ⟨fun _ _ => hq env h, (hr env h).2⟩

end Classified

/-! ### The helpers record their exceptions -/

namespace Classified

variable {α : Type}

theorem tokenAddr (cfg : Config) (name : String) :
    Classified (Web3.tokenAddr cfg name) fun _ _ => True := by
  unfold Web3.tokenAddr
  split
  exacts [pure trivial, raise _]

theorem choice (l : List α) : Classified (Web3.choice l) fun _ _ => True := by
  cases l
  exacts [raise _, (call_any _).bind fun _ _ _ => pure trivial]

theorem choices (l : List α) : ∀ k, Classified (Web3.choices l k) fun _ _ => True
  | 0 => pure trivial
  | k + 1 => (choice l).bind fun _ _ _ => (choices l k).bind fun _ _ _ => pure trivial

theorem index (l : List α) (i : ℕ) : Classified (Web3.index l i) fun _ _ => True := by
  unfold Web3.index
  split
  exacts [pure trivial, raise _]

theorem randint (a b : ℕ) : Classified (Web3.randint a b) fun _ _ => True :=
  (call_any _).bind fun _ _ _ => pure trivial

theorem shuffle (x : List α) : Classified (Web3.shuffle x) fun _ _ => True :=
  (call_any _).bind fun _ _ _ => pure trivial

/-- A contract read sends nothing. -/
theorem read (web3 : Conn) (contract : Addr) (v : View) :
    Classified (Web3.rpc web3 (.call contract v)) fun _ evs => NoSend evs :=
  noSend (Quiet.read web3 contract v) (call_any _)

theorem findTokenCreated : ∀ logs : List Log,
    Classified (TempoSpammer.findTokenCreated logs) fun _ _ => True
  | [] => pure trivial
  | log :: rest => by
      refine (tryCatch_pure (P := fun _ _ => True) ?_ fun _ _ => trivial).bind fun r _ _ => ?_
      · split
        exacts [pure trivial, raise _]
      · cases r
        exacts [findTokenCreated rest, pure trivial]

end Classified

section helpers

variable (cfg : Config) (web3 : Conn) (wallet : Account)

/-- **The send site.** A value of `transact` comes after the confirmation wait of its hash,
which returned its receipt. -/
theorem transact_confirmed (target : Option Addr) {method : Web3 Method} (gas : ℕ)
    (hm : Classified method fun _ _ => True) :
    Classified (transact cfg web3 wallet target method gas) fun r evs =>
      Event.call (.rpc web3 (.waitForTx r.1)) (.ok r.2) ∈ evs := by
  unfold transact
  refine (Classified.call_any _).bind_mono ?mono fun _ => hm.bind_mono ?mono fun _ =>
    (Classified.call_any _).bind_mono ?mono fun _ =>
      (Classified.call_any _).bind_mono ?mono fun txHash =>
        (Classified.call (P := fun rc evs =>
            Event.call (.rpc web3 (.waitForTx txHash)) (.ok rc) ∈ evs)
          fun _ => List.mem_singleton_self _).bind fun _ _ h =>
            Classified.pure (by simpa using h)
  exact fun _ _ _ h => List.mem_append_right _ h

/-- What the scan of activity12 shows: every pool it found was read with its positive
position, and when it found none, every position read answered `0`. -/
def PoolScan (pools : List Pool) (evs : List Event) : Prop :=
  (pools = [] → ∀ e ∈ evs, ∀ n, e.positionAnswer = some n → n = 0) ∧
    ∀ p ∈ pools, 0 < p.lpBalance ∧ ∃ e ∈ evs, e.positionAnswer = some p.lpBalance

theorem PoolScan.append {ps₁ ps₂ : List Pool} {e₁ e₂ : List Event} (h₁ : PoolScan ps₁ e₁)
    (h₂ : PoolScan ps₂ e₂) : PoolScan (ps₁ ++ ps₂) (e₁ ++ e₂) := by
  refine ⟨fun hnil e he => ?_, fun p hp => ?_⟩
  · obtain ⟨hn₁, hn₂⟩ := List.append_eq_nil.mp hnil
    exact (List.mem_append.mp he).elim (h₁.1 hn₁ e) (h₂.1 hn₂ e)
  · rcases List.mem_append.mp hp with hp | hp
    · obtain ⟨hpos, e, he, ha⟩ := h₁.2 p hp
      exact ⟨hpos, e, List.mem_append_left _ he, ha⟩
    · obtain ⟨hpos, e, he, ha⟩ := h₂.2 p hp
      exact ⟨hpos, e, List.mem_append_right _ he, ha⟩

end helpers

/-! ### Composing an outcome -/

namespace Classified

variable {act : Activity} {α : Type} {m : Web3 α} {f : α → Web3 Ret}

/-- The outer `except: return None`: the handler's `None` comes after the failure. -/
theorem guarded {body : Web3 Ret} (hb : Classified body (Outcome act)) :
    Classified (TempoSpammer.guarded body) (Outcome act) :=
  hb.tryCatch_pure fun _ hf => .inr (.inl ⟨rfl, .inl hf⟩)

end Classified

theorem Outcome.txHash {act : Activity} {web3 : Conn} {r : ℕ × Receipt} {evs : List Event}
    (h : Event.call (.rpc web3 (.waitForTx r.1)) (.ok r.2) ∈ evs) :
    Outcome act (.txHash r.1) evs :=
  .inl ⟨rfl, _, h, by simp [Ret.confirmedBy]⟩

section activities

variable (cfg : Config) (web3 : Conn) (wallet : Account) {act : Activity}

/-- The last step of most recipes: a transaction and its hash. -/
theorem sends_txHash (target : Option Addr) {method : Web3 Method} (gas : ℕ)
    (hm : Classified method fun _ _ => True) :
    Classified (do
      let r ← transact cfg web3 wallet target method gas
      pure (Ret.txHash r.1)) (Outcome act) :=
  (transact_confirmed cfg web3 wallet target gas hm).bind fun _ _ h =>
    .pure (by simpa using Outcome.txHash h)

end activities

section recipes

variable (cfg : Config) (web3 : Conn) (wallet : Account)

end recipes

/-! ### The catalog -/

section catalog

variable (cfg : Config) (web3 : Conn) (wallet : Account)

end catalog

end TempoSpammer
