import TempoSpammer.SendSites
import TempoSpammer.History

/-! # The nonces of an account

Every send site reads `get_transaction_count(address, 'pending')` and sends with that
nonce, and nothing between the read and the send sends a transaction.  On a chain that
counts honestly (`HonestNonces`: the count of `a` is `n0` plus the transactions of `a` it
accepted, when it answers at all), the transactions of `a` that the chain accepts
therefore carry `n0, n0 + 1, ...` in order (`NoncesFrom`), whatever the reads return and
wherever a call raises, a confirmation wait after the broadcast included.

`transact_keeps_nonces` is the one step with content: `SendLogic` carries it to every
program (`nonce_discipline`). -/

namespace TempoSpammer

/-- The nonce of a transaction of `a` that the chain accepted. -/
def Event.acceptedNonce (a : Addr) : Event → Option ℕ
  | .call (.rpc _ (.sendRawTransaction tx)) (.ok _) => if tx.sender = a then some tx.nonce else none
  | _ => none

/-- The nonces of the transactions of `a` accepted in a history, in order. -/
def acceptedNonces (a : Addr) (h : List Event) : List ℕ := h.filterMap (Event.acceptedNonce a)

/-- The chain answers the pending count of `a` with `n0` plus the number of transactions
of `a` it accepted so far, or raises. -/
def HonestNonces (a : Addr) (n0 : ℕ) (env : Env) : Prop :=
  ∀ w h n, env.answer (.rpc w (.getTransactionCount a)) h = .ok n →
    n = n0 + (acceptedNonces a h).length

/-- The accepted nonces of `a` are `n0, n0 + 1, ...`: none repeated, none skipped. -/
def NoncesFrom (a : Addr) (n0 : ℕ) (h : List Event) : Prop :=
  acceptedNonces a h = List.range' n0 (acceptedNonces a h).length

@[simp] theorem acceptedNonces_append (a : Addr) (h evs : List Event) :
    acceptedNonces a (h ++ evs) = acceptedNonces a h ++ acceptedNonces a evs :=
  List.filterMap_append _ _ _

theorem Event.acceptedNonce_of_sentTx {e : Event} (a : Addr) (he : e.sentTx = none) :
    e.acceptedNonce a = none := by
  unfold Event.acceptedNonce
  split
  · simp [Event.sentTx] at he
  · rfl

/-- Events that send nothing accept nothing. -/
theorem acceptedNonces_of_quiet {a : Addr} {evs : List Event}
    (hq : ∀ e ∈ evs, e.sentTx = none) : acceptedNonces a evs = [] :=
  List.filterMap_eq_nil_iff.mpr fun e he => e.acceptedNonce_of_sentTx a (hq e he)

theorem acceptedNonces_append_quiet {a : Addr} (h : List Event) {evs : List Event}
    (hq : ∀ e ∈ evs, e.sentTx = none) : acceptedNonces a (h ++ evs) = acceptedNonces a h := by
  simp [acceptedNonces_of_quiet hq]

theorem NoncesFrom.append_quiet {a n0 : ℕ} {h evs : List Event} (hh : NoncesFrom a n0 h)
    (hq : ∀ e ∈ evs, e.sentTx = none) : NoncesFrom a n0 (h ++ evs) := by
  unfold NoncesFrom at hh ⊢
  rwa [acceptedNonces_append_quiet h hq]

/-- A send keeps the nonces in order when, if it is from `a`, it carries the next one. -/
theorem NoncesFrom.send {a n0 : ℕ} {h : List Event} (hh : NoncesFrom a n0 h) (w : Conn)
    {tx : Tx} (hn : tx.sender = a → tx.nonce = n0 + (acceptedNonces a h).length)
    (r : Except Err ℕ) :
    NoncesFrom a n0 (h ++ [.call (.rpc w (.sendRawTransaction tx)) r]) := by
  unfold NoncesFrom at hh ⊢
  rcases r with _ | v
  · simpa [acceptedNonces, Event.acceptedNonce] using hh
  · by_cases hs : tx.sender = a
    · have hlast : acceptedNonces a [.call (.rpc w (.sendRawTransaction tx)) (.ok v)] =
          [tx.nonce] := by simp [acceptedNonces, Event.acceptedNonce, hs]
      rw [acceptedNonces_append, hlast, List.length_append, List.length_singleton,
        List.range'_1_concat, hn hs, ← hh]
    · simpa [acceptedNonces, Event.acceptedNonce, hs] using hh

section pipeline

variable (cfg : Config) (web3 : Conn) (wallet : Account)

/-- **The send site.** The nonce read returns the next nonce of the sender, nothing
between it and the send sends, and the send carries it. -/
theorem transact_keeps_nonces (a n0 : ℕ) (target : Option Addr) {method : Web3 Method}
    (gas : ℕ) (hm : Quiet method) :
    Keeps (HonestNonces a n0) (NoncesFrom a n0) (transact cfg web3 wallet target method gas) := by
  intro env he
  let Next (n : ℕ) (h : List Event) : Prop :=
    NoncesFrom a n0 h ∧ (wallet.address = a → n = n0 + (acceptedNonces a h).length)
  have hkeep : ∀ n {γ : Type} {m : Web3 γ}, Quiet m →
      Triple env (Next n) m (fun _ => Next n) (NoncesFrom a n0) := fun n _ _ hq =>
    (Triple.quiet hq fun h _ hq' hh => ⟨hh.1.append_quiet hq', by
      rw [acceptedNonces_append_quiet h hq']
      exact hh.2⟩).conseq (fun _ _ h => h) fun _ h => h.1
  have hread : ∀ r, ∀ e ∈ [Event.call (.rpc web3 (.getTransactionCount wallet.address)) r],
      e.sentTx = none := fun _ => List.forall_mem_singleton.mpr rfl
  unfold transact
  refine Triple.bind (Q := Next) (Triple.call (fun h n hh hn => ⟨hh.append_quiet (hread _),
      fun hs => ?_⟩) fun h _ hh _ => hh.append_quiet (hread _)) fun n =>
    (hkeep n hm).bind fun _ => (hkeep n (Quiet.call (c := .rpc web3 .gasPrice) fun _ => rfl)).bind
      fun _ => Triple.bind (Q := fun _ => NoncesFrom a n0)
        (Triple.call (fun h _ hh _ => hh.1.send web3 hh.2 _) fun h _ hh _ => hh.1.send web3 hh.2 _)
        fun _ => (Triple.quiet (Quiet.call (c := .rpc web3 (.waitForTx _)) fun _ => rfl)
          fun _ _ hq hh => hh.append_quiet hq).bind fun _ => Triple.pure fun _ hh => hh
  rw [acceptedNonces_append_quiet h (hread _)]
  exact he web3 h n (by rw [← hs]; exact hn)

theorem approveIfNeeded_keeps_nonces (a n0 token spender amount : ℕ) :
    Keeps (HonestNonces a n0) (NoncesFrom a n0)
      (approveIfNeeded cfg web3 wallet token spender amount) := by
  refine (Keeps.quiet (Quiet.read _ _ _) fun _ _ hq hh => hh.append_quiet hq).bind fun _ => ?_
  split
  · exact (transact_keeps_nonces cfg web3 wallet a n0 _ _ (Quiet.pure _)).bind fun _ =>
      Keeps.quiet (Quiet.pure _) fun _ _ hq hh => hh.append_quiet hq
  · exact Keeps.quiet (Quiet.pure _) fun _ _ hq hh => hh.append_quiet hq

end pipeline

/-- The nonces of `a` are an invariant of every program. -/
theorem nonces_sendLogic (a n0 : ℕ) : SendLogic (Keeps (HonestNonces a n0) (NoncesFrom a n0)) :=
  .of_keeps (fun _ _ hq hh => hh.append_quiet hq)
    (fun cfg web3 wallet target _ gas hm _ =>
      transact_keeps_nonces cfg web3 wallet a n0 target gas hm.quiet)
    fun cfg web3 wallet token spender amount _ =>
      approveIfNeeded_keeps_nonces cfg web3 wallet a n0 token spender amount

/-- **Nonce discipline.** On a chain that counts the transactions of `a` honestly from
`n0`, from any history in which the accepted nonces of `a` are `n0, n0 + 1, ...`, they
stay so after any sequence of recipes of the two scripts, any run of the agent loop, and
any run of `run_auto_mode`, whatever the chain answers and wherever a call raises. -/
theorem nonce_discipline (cfg : Config) (a n0 : ℕ) (env : Env) (henv : HonestNonces a n0 env)
    (h : List Event) (hh : NoncesFrom a n0 h) :
    (∀ recipes, NoncesFrom a n0 (h ++ (runRecipes cfg recipes env h).2)) ∧
      (∀ n (agent : Agent), NoncesFrom a n0 (h ++ (agentRun cfg n agent env h).2)) ∧
      ∀ proxyFor privateKeys selection, NoncesFrom a n0
        (h ++ (runAutoMode cfg (lateBound cfg) proxyFor privateKeys selection env h).2) :=
  ⟨fun _ => ((nonces_sendLogic a n0).runRecipes cfg _).run henv hh,
    fun _ _ => ((nonces_sendLogic a n0).agentRun cfg _ _).run henv hh,
    fun _ _ _ => ((nonces_sendLogic a n0).runAutoMode cfg _ _ _).run henv hh⟩

/-- A chain that counts the accepted transactions of every account from `0`, accepts
every transaction and confirms it. -/
def countingEnv : Env :=
  ⟨fun c h => match c with
    | .rpc _ (.getTransactionCount a) => .ok (acceptedNonces a h).length
    | .rpc _ .gasPrice => .ok (1 : ℕ)
    | .rpc _ (.sendRawTransaction _) => .ok (7 : ℕ)
    | .rpc _ (.waitForTx _) => .ok ⟨1, none, []⟩
    | .createAccount => .ok (5 : Addr)
    | _ => .error ⟨.other, "unavailable"⟩⟩

theorem countingEnv_honest (a : Addr) : HonestNonces a 0 countingEnv := by
  intro w h n hn
  cases hn
  simp

/-- Two transfers of one account on the counting chain. -/
theorem two_transfers_in_order :
    HonestNonces 100 0 countingEnv ∧ NoncesFrom 100 0 [] ∧
      NoncesFrom 100 0 ([] ++ (runRecipes demoConfig
        [.auto ⟨"rpc", none⟩ ⟨1, 100⟩ .sendTokens, .auto ⟨"rpc", none⟩ ⟨1, 100⟩ .setFeeToken]
        countingEnv []).2) :=
  ⟨countingEnv_honest 100, rfl,
    (nonce_discipline demoConfig 100 0 countingEnv (countingEnv_honest 100) [] rfl).1 _⟩

example : acceptedNonces 100 (runRecipes demoConfig
    [.auto ⟨"rpc", none⟩ ⟨1, 100⟩ .sendTokens, .auto ⟨"rpc", none⟩ ⟨1, 100⟩ .setFeeToken]
    countingEnv []).2 = [0, 1] := rfl

end TempoSpammer
