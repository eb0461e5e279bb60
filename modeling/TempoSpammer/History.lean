import TempoSpammer.Trace

/-! # Triples over the history

The chain answers a call from the history of events before it, so what the chain holds
for an account (its transaction count, an allowance) is a property of histories.
`Triple env P m Q E` says that on the chain `env`, from every history satisfying `P`, the
history after a run of `m` satisfies `Q a` when the run returns `a`, and `E` when it
raises.  There is one rule per construct of `Web3`; `Triple.quiet` carries over a step that
sends nothing every property of histories that only a transaction can break.

`Keeps Honest I m` says that on every chain satisfying `Honest`, `m` keeps the invariant `I`
of histories; its rules are those of `Triple`. -/

namespace TempoSpammer

/-- On `env`, from a history satisfying `P`, a run of `m` ends in a history satisfying
`Q a` when it returns `a`, and `E` when it raises. -/
def Triple {α : Type} (env : Env) (P : List Event → Prop) (m : Web3 α)
    (Q : α → List Event → Prop) (E : List Event → Prop) : Prop :=
  ∀ h, P h → (∀ a, (m env h).1 = .ok a → Q a (h ++ (m env h).2)) ∧
    (∀ x, (m env h).1 = .error x → E (h ++ (m env h).2))

namespace Triple

variable {env : Env} {α β : Type} {P : List Event → Prop} {E : List Event → Prop}

theorem conseq {m : Web3 α} {Q Q' : α → List Event → Prop} {E' : List Event → Prop}
    (hm : Triple env P m Q E) (hQ : ∀ a h, Q a h → Q' a h) (hE : ∀ h, E h → E' h) :
    Triple env P m Q' E' :=
  fun h hp => ⟨fun a ha => hQ a _ ((hm h hp).1 a ha), fun x hx => hE _ ((hm h hp).2 x hx)⟩

/-- A triple also carries what every value of `m` satisfies. -/
theorem and_returns {m : Web3 α} {Q : α → List Event → Prop} {R : α → Prop}
    (hm : Triple env P m Q E) (hr : Returns m R) : Triple env P m (fun a h => Q a h ∧ R a) E :=
  fun h hp => ⟨fun a ha => ⟨(hm h hp).1 a ha, hr env h a ha⟩, (hm h hp).2⟩

theorem pure {a : α} {Q : α → List Event → Prop} (hq : ∀ h, P h → Q a h) :
    Triple env P (Pure.pure a) Q E :=
  fun h hp => ⟨by rintro _ ⟨⟩; simpa using hq h hp, by rintro _ ⟨⟩⟩

theorem call {c : Call} {Q : c.Resp → List Event → Prop}
    (hok : ∀ h v, P h → env.answer c h = .ok v → Q v (h ++ [.call c (.ok v)]))
    (herr : ∀ h x, P h → env.answer c h = .error x → E (h ++ [.call c (.error x)])) :
    Triple env P (Web3.call c) Q E := by
  intro h hp
  simp only [Web3.call_apply]
  exact ⟨fun v hv => by rw [hv]; exact hok h v hp hv, fun x hx => by rw [hx]; exact herr h x hp hx⟩

theorem bind {m : Web3 α} {f : α → Web3 β} {Q : α → List Event → Prop}
    {R : β → List Event → Prop} (hm : Triple env P m Q E) (hf : ∀ a, Triple env (Q a) (f a) R E) :
    Triple env P (m >>= f) R E := by
  intro h hp
  rw [Web3.bind_apply]
  rcases hmh : m env h with ⟨_ | a, e₁⟩
  · have he := (hm h hp).2 _ (by rw [hmh])
    rw [hmh] at he
    exact ⟨by rintro _ ⟨⟩, fun _ _ => he⟩
  · have hq := (hm h hp).1 a (by rw [hmh])
    rw [hmh] at hq
    simpa only [← List.append_assoc] using hf a (h ++ e₁) hq

/-- The handler starts from the history in which `m` raised. -/
theorem tryCatch {m : Web3 α} {handler : Err → Web3 α} {Q : α → List Event → Prop}
    {E' : List Event → Prop} (hm : Triple env P m Q E') (hh : ∀ x, Triple env E' (handler x) Q E) :
    Triple env P (Web3.tryCatch m handler) Q E := by
  intro h hp
  simp only [Web3.tryCatch]
  rcases hmh : m env h with ⟨_ | a, e₁⟩
  · have he := (hm h hp).2 _ (by rw [hmh])
    rw [hmh] at he
    simpa only [← List.append_assoc] using hh _ (h ++ e₁) he
  · have hq := (hm h hp).1 a (by rw [hmh])
    rw [hmh] at hq
    exact ⟨by rintro _ ⟨⟩; exact hq, by rintro _ ⟨⟩⟩

/-- A step that sends nothing keeps every property of histories that only a transaction
can break. -/
theorem quiet {m : Web3 α} {R : List Event → Prop} (hm : Quiet m)
    (hR : ∀ h evs, (∀ e ∈ evs, e.sentTx = none) → R h → R (h ++ evs)) :
    Triple env R m (fun _ => R) R :=
  fun h hr => ⟨fun _ _ => hR _ _ (hm env h) hr, fun _ _ => hR _ _ (hm env h) hr⟩

end Triple

/-! ### Invariants of histories -/

/-- On every chain satisfying `Honest`, `m` keeps the property `I` of histories, whether it
returns or raises. -/
def Keeps {α : Type} (Honest : Env → Prop) (I : List Event → Prop) (m : Web3 α) : Prop :=
  ∀ env, Honest env → Triple env I m (fun _ => I) I

namespace Keeps

variable {Honest : Env → Prop} {I : List Event → Prop} {α β : Type}

theorem quiet {m : Web3 α} (hm : Quiet m)
    (hI : ∀ h evs, (∀ e ∈ evs, e.sentTx = none) → I h → I (h ++ evs)) : Keeps Honest I m :=
  fun _ _ => Triple.quiet hm hI

theorem bind_of_returns {m : Web3 α} {f : α → Web3 β} {P : α → Prop} (hm : Keeps Honest I m)
    (hr : Returns m P) (hf : ∀ a, P a → Keeps Honest I (f a)) : Keeps Honest I (m >>= f) :=
  fun env he => ((hm env he).and_returns hr).bind fun a h hh => hf a hh.2 env he h hh.1

theorem bind {m : Web3 α} {f : α → Web3 β} (hm : Keeps Honest I m)
    (hf : ∀ a, Keeps Honest I (f a)) : Keeps Honest I (m >>= f) :=
  hm.bind_of_returns (Returns.of_forall m fun _ => trivial) fun a _ => hf a

theorem tryCatch {m : Web3 α} {handler : Err → Web3 α} (hm : Keeps Honest I m)
    (hh : ∀ e, Keeps Honest I (handler e)) : Keeps Honest I (Web3.tryCatch m handler) :=
  fun env he => Triple.tryCatch (hm env he) fun x => hh x env he

/-- A run of a program that keeps `I`, whether it returns or raises. -/
theorem run {m : Web3 α} (hm : Keeps Honest I m) {env : Env} (he : Honest env)
    {h : List Event} (hh : I h) : I (h ++ (m env h).2) := by
  obtain ⟨hok, herr⟩ := hm env he h hh
  cases hr : (m env h).1 with
  | error x => exact herr x hr
  | ok v => exact hok v hr

end Keeps

end TempoSpammer
