/-
Two computations that go the same way.

`Tracks R Q x y` relates a computation with another on states of its own:
from related states both return, results related by `Q`, or both raise one
error, and the states after are related again. There is one rule for each
way in which computations are put together, so that a relation between two
programs of one shape is one between their primitive steps.
-/
import PrivacyGateway.Lib.Effect

namespace Effect

variable {σ σ' τ τ' ε ε' α α' β β' : Type}

/-- What two runs have in common. -/
inductive Agree (R : σ → σ' → Prop) (Q : α → α' → Prop) :
    Except ε α × σ → Except ε α' × σ' → Prop
  | ok {a : α} {a' : α'} {s : σ} {s' : σ'} (result : Q a a')
      (state : R s s') : Agree R Q (.ok a, s) (.ok a', s')
  | error {s : σ} {s' : σ'} (e : ε) (state : R s s') :
      Agree R Q (.error e, s) (.error e, s')

/-- From related states the computations go the same way. -/
def Tracks (R : σ → σ' → Prop) (Q : α → α' → Prop) (x : Eff σ ε α)
    (y : Eff σ' ε α') : Prop :=
  ∀ s s', R s s' → Agree R Q (runIn x s) (runIn y s')

variable {R : σ → σ' → Prop} {Q : α → α' → Prop} {Q' : β → β' → Prop}

theorem tracks_pure {a : α} {a' : α'} (h : Q a a') :
    Tracks R Q (pure a : Eff σ ε α) (pure a') := by
  intro s s' hs
  exact .ok h hs

theorem tracks_throw (e : ε) :
    Tracks R Q (throw e : Eff σ ε α) (throw e) := by
  intro s s' hs
  exact .error e hs

/-- Two results that are the same, or related. -/
inductive Same (Q : α → α' → Prop) : Except ε α → Except ε α' → Prop
  | ok {a : α} {a' : α'} (result : Q a a') : Same Q (.ok a) (.ok a')
  | error (e : ε) : Same Q (.error e) (.error e)

theorem tracks_checked {r : Except ε α} {r' : Except ε α'}
    (h : Same Q r r') : Tracks R Q (checked r) (checked r') := by
  intro s s' hs
  rw [runIn_checked, runIn_checked]
  cases h with
  | ok result => exact .ok result hs
  | error e => exact .error e hs

theorem same_refl (r : Except ε α) : Same Eq r r := by
  cases r with
  | ok a => exact .ok rfl
  | error e => exact .error e

theorem tracks_act {f : σ → Except ε α × σ} {g : σ' → Except ε α' × σ'}
    (h : ∀ s s', R s s' → Agree R Q (f s) (g s')) :
    Tracks R Q (act f) (act g) :=
  h

theorem Tracks.bind {x : Eff σ ε α} {y : Eff σ' ε α'}
    {f : α → Eff σ ε β} {g : α' → Eff σ' ε β'} (hx : Tracks R Q x y)
    (hf : ∀ a a', Q a a' → Tracks R Q' (f a) (g a')) :
    Tracks R Q' (x >>= f) (y >>= g) := by
  intro s s' hs
  have hrun := hx s s' hs
  rw [runIn_bind, runIn_bind]
  generalize runIn x s = left at hrun ⊢
  generalize runIn y s' = right at hrun ⊢
  cases hrun with
  | ok result state => exact hf _ _ result _ _ state
  | error e state => exact .error e state

theorem tracks_ite {c : Prop} [Decidable c] {x x' : Eff σ ε α}
    {y y' : Eff σ' ε α'} (hx : c → Tracks R Q x y)
    (hy : ¬ c → Tracks R Q x' y') :
    Tracks R Q (if c then x else x') (if c then y else y') := by
  by_cases hc : c
  · rw [if_pos hc, if_pos hc]
    exact hx hc
  · rw [if_neg hc, if_neg hc]
    exact hy hc

theorem Agree.imp {p : Except ε α × σ} {q : Except ε α' × σ'}
    {S : σ → σ' → Prop} {P : α → α' → Prop} (h : Agree R Q p q)
    (hstate : ∀ s s', R s s' → S s s') (hresult : ∀ a a', Q a a' → P a a') :
    Agree S P p q := by
  cases h with
  | ok result state => exact .ok (hresult _ _ result) (hstate _ _ state)
  | error e state => exact .error e (hstate _ _ state)

/-- Results that agree on the nose are equal, errors included. -/
theorem Agree.result_eq {p : Except ε α × σ} {q : Except ε α × σ'}
    (h : Agree R Eq p q) : p.1 = q.1 ∧ R p.2 q.2 := by
  cases h with
  | ok result state => exact ⟨congrArg Except.ok result, state⟩
  | error e state => exact ⟨rfl, state⟩

end Effect
