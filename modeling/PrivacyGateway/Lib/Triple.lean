/-
Pre- and postconditions of computations that may raise.

`Triple P x Q E` says that from a state with `P` the computation returns
into `Q`, or raises into `E`. With `E` empty it says that the computation
returns. The rules follow the way computations are put together: a return,
a check, a step given as a function, a sequence, a change of the errors,
and a computation on a part of the state.
-/
import PrivacyGateway.Lib.Effect

namespace Effect

variable {σ τ ε α β : Type}

/-- From `P`, the computation returns into `Q` or raises into `E`. -/
structure Triple (P : σ → Prop) (x : Eff σ ε α) (Q : α → σ → Prop)
    (E : σ → Prop) : Prop where
  returns : ∀ {s a t}, P s → runIn x s = (.ok a, t) → Q a t
  raises : ∀ {s e t}, P s → runIn x s = (.error e, t) → E t

variable {P P' : σ → Prop} {Q Q' : α → σ → Prop} {R : β → σ → Prop}
  {E E' : σ → Prop} {x : Eff σ ε α}

theorem triple_pure {a : α} (h : ∀ s, P s → Q a s) :
    Triple P (pure a : Eff σ ε α) Q E where
  returns := by
    intro s b t hs hrun
    cases hrun
    exact h s hs
  raises := by
    intro s e t hs hrun
    cases hrun

theorem triple_act {f : σ → Except ε α × σ}
    (hok : ∀ s a t, P s → f s = (.ok a, t) → Q a t)
    (herror : ∀ s e t, P s → f s = (.error e, t) → E t) :
    Triple P (act f) Q E where
  returns hs hrun := hok _ _ _ hs hrun
  raises hs hrun := herror _ _ _ hs hrun

theorem triple_checked {r : Except ε α}
    (hok : ∀ a, r = .ok a → ∀ s, P s → Q a s)
    (herror : ∀ e, r = .error e → ∀ s, P s → E s) :
    Triple P (checked r : Eff σ ε α) Q E where
  returns := by
    intro s a t hs hrun
    rw [runIn_checked] at hrun
    cases hrun
    exact hok a rfl s hs
  raises := by
    intro s e t hs hrun
    rw [runIn_checked] at hrun
    cases hrun
    exact herror e rfl s hs

theorem Triple.weaken (h : Triple P x Q E) (hpre : ∀ s, P' s → P s)
    (hpost : ∀ a s, Q a s → Q' a s) (herror : ∀ s, E s → E' s) :
    Triple P' x Q' E' where
  returns hs hrun := hpost _ _ (h.returns (hpre _ hs) hrun)
  raises hs hrun := herror _ (h.raises (hpre _ hs) hrun)

theorem Triple.bind {f : α → Eff σ ε β} (hx : Triple P x Q E)
    (hf : ∀ a, Triple (Q a) (f a) R E) : Triple P (x >>= f) R E where
  returns := by
    intro s b t hs hrun
    obtain ⟨a, u, hfirst, hrest⟩ := bind_ok_iff.mp hrun
    exact (hf a).returns (hx.returns hs hfirst) hrest
  raises := by
    intro s e t hs hrun
    rcases bind_error_iff.mp hrun with hfirst | ⟨a, u, hfirst, hrest⟩
    · exact hx.raises hs hfirst
    · exact (hf a).raises (hx.returns hs hfirst) hrest

/-- What is known of the state goes into what follows. -/
theorem triple_of_pre {p : Prop} (h : p → Triple P x Q E) :
    Triple (fun s => p ∧ P s) x Q E where
  returns hs hrun := (h hs.1).returns hs.2 hrun
  raises hs hrun := (h hs.1).raises hs.2 hrun

/-- A value known only to exist is fixed for what follows. -/
theorem triple_exists {γ : Type} {P : γ → σ → Prop}
    (h : ∀ c, Triple (P c) x Q E) : Triple (fun s => ∃ c, P c s) x Q E where
  returns := by
    rintro s a t ⟨c, hc⟩ hrun
    exact (h c).returns hc hrun
  raises := by
    rintro s e t ⟨c, hc⟩ hrun
    exact (h c).raises hc hrun

theorem Triple.translate {ε' : Type} {f : ε → ε'} (h : Triple P x Q E) :
    Triple P (translate f x) Q E where
  returns hs hrun := h.returns hs (translate_ok_iff.mp hrun)
  raises := by
    intro s e t hs hrun
    obtain ⟨e', hraised, -⟩ := translate_error_iff.mp hrun
    exact h.raises hs hraised

-- ==================================================== a part of the state

/-- A computation on a part of the state. -/
def onPart (get : τ → σ) (put : τ → σ → τ) (x : Eff σ ε α) : Eff τ ε α :=
  act fun s => ((runIn x (get s)).1, put s (runIn x (get s)).2)

/-- The rest of the state is as it was. -/
theorem triple_onPart {get : τ → σ} {put : τ → σ → τ} {A : τ → Prop}
    {B : α → τ → Prop} {F : τ → Prop}
    (h : ∀ s, A s → Triple (fun part => part = get s) x
      (fun a part => B a (put s part)) (fun part => F (put s part))) :
    Triple A (onPart get put x) B F where
  returns := by
    intro s a t hs hrun
    unfold onPart at hrun
    rw [runIn_act] at hrun
    cases hrun' : runIn x (get s) with
    | mk r part =>
        rw [hrun'] at hrun
        cases hrun
        exact (h s hs).returns rfl hrun'
  raises := by
    intro s e t hs hrun
    unfold onPart at hrun
    rw [runIn_act] at hrun
    cases hrun' : runIn x (get s) with
    | mk r part =>
        rw [hrun'] at hrun
        cases hrun
        exact (h s hs).raises rfl hrun'

/-- The state itself, as a value. -/
def current : Eff σ ε σ :=
  act fun s => (.ok s, s)

theorem triple_current :
    Triple P (current : Eff σ ε σ) (fun a s => a = s ∧ P s) E where
  returns := by
    intro s a t hs hrun
    cases hrun
    exact ⟨rfl, hs⟩
  raises := by
    intro s e t hs hrun
    cases hrun

/-- An assignment. -/
def update (f : σ → σ) : Eff σ ε Unit :=
  act fun s => (.ok (), f s)

theorem triple_update {f : σ → σ} {Q : Unit → σ → Prop}
    (h : ∀ s, P s → Q () (f s)) :
    Triple P (update f : Eff σ ε Unit) Q E where
  returns := by
    intro s a t hs hrun
    cases hrun
    exact h s hs
  raises := by
    intro s e t hs hrun
    cases hrun

end Effect
