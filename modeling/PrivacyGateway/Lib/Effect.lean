/-
Computations over a state that may raise.

A raised error does not undo what was done before it: the state that the
computation had reached comes back with the error. `runIn` runs a
computation in a state, and the lemmas below peel a run apart at its
binds, so that a proof about a computation never unfolds the monad.

`Raises P x` says of which kind the errors of `x` are, `translate` gives
them another kind, and `recover` goes on after them. `Moves R x` says what `x` may do to the state,
whether it returns or raises.
-/
import Mathlib.Data.List.Basic

namespace Effect

variable {σ ε α β : Type}

/-- A computation over `σ` that may raise an `ε`. -/
abbrev Eff (σ ε : Type) := ExceptT ε (StateM σ)

/-- Run a computation: what it returns or raises, and the state after. -/
def runIn (x : Eff σ ε α) (s : σ) : Except ε α × σ :=
  (ExceptT.run x).run s

/-- A computation given by what it does in each state. -/
def act (f : σ → Except ε α × σ) : Eff σ ε α :=
  ExceptT.mk (fun s => f s)

/-- A result computed without looking at the state. -/
def checked (r : Except ε α) : Eff σ ε α :=
  act (fun s => (r, s))

@[simp] theorem runIn_act (f : σ → Except ε α × σ) (s : σ) :
    runIn (act f) s = f s := rfl

@[simp] theorem runIn_checked (r : Except ε α) (s : σ) :
    runIn (checked r) s = (r, s) := rfl

@[simp] theorem runIn_pure (a : α) (s : σ) :
    runIn (pure a : Eff σ ε α) s = (.ok a, s) := rfl

@[simp] theorem runIn_throw (e : ε) (s : σ) :
    runIn (throw e : Eff σ ε α) s = (.error e, s) := rfl

/-- A passed check is no computation at all. -/
theorem checked_ok (a : α) : (checked (.ok a) : Eff σ ε α) = pure a := rfl

theorem runIn_bind (x : Eff σ ε α) (f : α → Eff σ ε β) (s : σ) :
    runIn (x >>= f) s =
      match runIn x s with
      | (.ok a, t) => runIn (f a) t
      | (.error e, t) => (.error e, t) := by
  unfold runIn
  rw [ExceptT.run_bind, StateT.run_bind]
  cases StateT.run (ExceptT.run x) s with
  | mk r t =>
      cases r with
      | ok a => rfl
      | error e => rfl

/-- A sequence returns when both its parts do. -/
theorem bind_ok_iff {x : Eff σ ε α} {f : α → Eff σ ε β} {s t : σ} {b : β} :
    runIn (x >>= f) s = (.ok b, t) ↔
      ∃ a u, runIn x s = (.ok a, u) ∧ runIn (f a) u = (.ok b, t) := by
  rw [runIn_bind]
  cases hx : runIn x s with
  | mk r u =>
      cases r with
      | ok a =>
          constructor
          · intro h
            exact ⟨a, u, rfl, h⟩
          · intro h
            obtain ⟨a', u', h1, h2⟩ := h
            cases h1
            exact h2
      | error e =>
          constructor
          · intro h
            cases h
          · intro h
            obtain ⟨a', u', h1, -⟩ := h
            cases h1

/-- A sequence whose first part returns goes on from there. -/
theorem returns_bind {x : Eff σ ε α} {f : α → Eff σ ε β} {s u : σ} {a : α}
    (hx : runIn x s = (.ok a, u))
    (hf : ∃ b t, runIn (f a) u = (.ok b, t)) :
    ∃ b t, runIn (x >>= f) s = (.ok b, t) := by
  obtain ⟨b, t, hb⟩ := hf
  exact ⟨b, t, bind_ok_iff.mpr ⟨a, u, hx, hb⟩⟩

/-- A sequence raises when its first part does, or its second after it. -/
theorem bind_error_iff {x : Eff σ ε α} {f : α → Eff σ ε β} {s t : σ}
    {e : ε} :
    runIn (x >>= f) s = (.error e, t) ↔
      runIn x s = (.error e, t) ∨
        ∃ a u, runIn x s = (.ok a, u) ∧ runIn (f a) u = (.error e, t) := by
  rw [runIn_bind]
  cases hx : runIn x s with
  | mk r u =>
      cases r with
      | ok a =>
          constructor
          · intro h
            exact Or.inr ⟨a, u, rfl, h⟩
          · intro h
            rcases h with h | ⟨a', u', h1, h2⟩
            · cases h
            · cases h1
              exact h2
      | error e' =>
          constructor
          · intro h
            cases h
            exact Or.inl rfl
          · intro h
            rcases h with h | ⟨a', u', h1, -⟩
            · cases h
              rfl
            · cases h1

/-- A sequence ends in its first part, with an error, or in its second. -/
theorem bind_cases {x : Eff σ ε α} {f : α → Eff σ ε β} {s t : σ}
    {r : Except ε β} (h : runIn (x >>= f) s = (r, t)) :
    (∃ e, r = .error e ∧ runIn x s = (.error e, t)) ∨
      ∃ a u, runIn x s = (.ok a, u) ∧ runIn (f a) u = (r, t) := by
  rw [runIn_bind] at h
  cases hx : runIn x s with
  | mk r' u =>
      rw [hx] at h
      cases r' with
      | ok a => exact Or.inr ⟨a, u, rfl, h⟩
      | error e =>
          cases h
          exact Or.inl ⟨e, rfl, rfl⟩

/-- A check before a computation: it passes and the rest runs from the
same state, or it raises. -/
theorem checked_bind_ok_iff {r : Except ε α} {f : α → Eff σ ε β}
    {s t : σ} {b : β} :
    runIn (checked r >>= f) s = (.ok b, t) ↔
      ∃ a, r = .ok a ∧ runIn (f a) s = (.ok b, t) := by
  rw [bind_ok_iff]
  constructor
  · intro h
    obtain ⟨a, u, h1, h2⟩ := h
    cases h1
    exact ⟨a, rfl, h2⟩
  · intro h
    obtain ⟨a, rfl, h2⟩ := h
    exact ⟨a, s, rfl, h2⟩

/-- A failed check raises its error and changes nothing. -/
theorem checked_bind_error {e : ε} (f : α → Eff σ ε β) (s : σ) :
    runIn (checked (.error e) >>= f) s = (.error e, s) := by
  rw [runIn_bind, runIn_checked]

/-- A passed check does nothing. -/
theorem checked_bind_ok (a : α) (f : α → Eff σ ε β) (s : σ) :
    runIn (checked (.ok a) >>= f) s = runIn (f a) s := by
  rw [runIn_bind, runIn_checked]

-- ==================================================== kinds of errors

/-- Every error the computation raises, from any state, is of the kind. -/
def Raises (P : ε → Prop) (x : Eff σ ε α) : Prop :=
  ∀ s e t, runIn x s = (.error e, t) → P e

variable {P : ε → Prop}

theorem raises_pure (a : α) : Raises P (pure a : Eff σ ε α) := by
  intro s e t h
  cases h

theorem raises_throw {e : ε} (h : P e) :
    Raises P (throw e : Eff σ ε α) := by
  intro s e' t hrun
  cases hrun
  exact h

theorem raises_checked {r : Except ε α} (h : ∀ e, r = .error e → P e) :
    Raises P (checked r : Eff σ ε α) := by
  intro s e t hrun
  rw [runIn_checked] at hrun
  cases hrun
  exact h e rfl

theorem raises_act {f : σ → Except ε α × σ}
    (h : ∀ s e t, f s = (.error e, t) → P e) : Raises P (act f) := by
  intro s e t hrun
  exact h s e t hrun

theorem Raises.bind {x : Eff σ ε α} {f : α → Eff σ ε β}
    (hx : Raises P x) (hf : ∀ a, Raises P (f a)) :
    Raises P (x >>= f) := by
  intro s e t hrun
  rcases bind_error_iff.mp hrun with h | ⟨a, u, -, h⟩
  · exact hx s e t h
  · exact hf a u e t h

theorem raises_ite {c : Prop} [Decidable c] {x y : Eff σ ε α}
    (hx : Raises P x) (hy : Raises P y) :
    Raises P (if c then x else y) := by
  by_cases hc : c
  · rw [if_pos hc]
    exact hx
  · rw [if_neg hc]
    exact hy

/-- The computation with its errors given another kind. -/
def translate {ε' : Type} (f : ε → ε') (x : Eff σ ε α) : Eff σ ε' α :=
  act fun s =>
    match runIn x s with
    | (.ok a, t) => (.ok a, t)
    | (.error e, t) => (.error (f e), t)

theorem translate_ok_iff {ε' : Type} {f : ε → ε'} {x : Eff σ ε α}
    {s t : σ} {a : α} :
    runIn (translate f x) s = (.ok a, t) ↔ runIn x s = (.ok a, t) := by
  unfold translate
  rw [runIn_act]
  cases hx : runIn x s with
  | mk r u =>
      cases r with
      | ok b =>
          constructor
          · intro h
            cases h
            rfl
          · intro h
            cases h
            rfl
      | error e =>
          constructor
          · intro h
            cases h
          · intro h
            cases h

theorem translate_error_iff {ε' : Type} {f : ε → ε'} {x : Eff σ ε α}
    {s t : σ} {e' : ε'} :
    runIn (translate f x) s = (.error e', t) ↔
      ∃ e, runIn x s = (.error e, t) ∧ f e = e' := by
  unfold translate
  rw [runIn_act]
  cases hx : runIn x s with
  | mk r u =>
      cases r with
      | ok b =>
          constructor
          · intro h
            cases h
          · intro h
            obtain ⟨e, he, -⟩ := h
            cases he
      | error e =>
          constructor
          · intro h
            cases h
            exact ⟨e, rfl, rfl⟩
          · intro h
            obtain ⟨e0, he, rfl⟩ := h
            cases he
            rfl

/-- A computation, and what is done with the errors it raises: the handler
goes on from the state the error came with. -/
def recover {ε' : Type} (x : Eff σ ε α) (handler : ε → Eff σ ε' α) :
    Eff σ ε' α :=
  act fun s =>
    match runIn x s with
    | (.ok a, t) => (.ok a, t)
    | (.error e, t) => runIn (handler e) t

theorem recover_of_ok {ε' : Type} {x : Eff σ ε α}
    {handler : ε → Eff σ ε' α} {s t : σ} {a : α}
    (h : runIn x s = (.ok a, t)) :
    runIn (recover x handler) s = (.ok a, t) := by
  unfold recover
  rw [runIn_act, h]

theorem recover_of_error {ε' : Type} {x : Eff σ ε α}
    {handler : ε → Eff σ ε' α} {s t : σ} {e : ε}
    (h : runIn x s = (.error e, t)) :
    runIn (recover x handler) s = runIn (handler e) t := by
  unfold recover
  rw [runIn_act, h]

-- ==================================================== moves

/-- From every state the computation ends in a related one. -/
def Moves (R : σ → σ → Prop) (x : Eff σ ε α) : Prop :=
  ∀ s, R s (runIn x s).2

section Moves

variable {R : σ → σ → Prop}

theorem moves_pure (hrefl : ∀ s, R s s) (a : α) :
    Moves R (pure a : Eff σ ε α) :=
  fun s => hrefl s

theorem moves_throw (hrefl : ∀ s, R s s) (e : ε) :
    Moves R (throw e : Eff σ ε α) :=
  fun s => hrefl s

theorem moves_checked (hrefl : ∀ s, R s s) (r : Except ε α) :
    Moves R (checked r : Eff σ ε α) :=
  fun s => hrefl s

theorem moves_act {f : σ → Except ε α × σ} (h : ∀ s, R s (f s).2) :
    Moves R (act f) :=
  h

theorem Moves.bind (htrans : ∀ s t u, R s t → R t u → R s u)
    {x : Eff σ ε α} {f : α → Eff σ ε β} (hx : Moves R x)
    (hf : ∀ a, Moves R (f a)) : Moves R (x >>= f) := by
  intro s
  have hfirst := hx s
  rw [runIn_bind]
  cases hrun : runIn x s with
  | mk r t =>
      rw [hrun] at hfirst
      cases r with
      | ok a => exact htrans s t _ hfirst (hf a t)
      | error e => exact hfirst

theorem moves_translate {ε' : Type} {f : ε → ε'} {x : Eff σ ε α}
    (hx : Moves R x) : Moves R (translate f x) := by
  intro s
  have hmove := hx s
  unfold translate
  rw [runIn_act]
  cases hrun : runIn x s with
  | mk r t =>
      rw [hrun] at hmove
      cases r with
      | ok a => exact hmove
      | error e => exact hmove

theorem Moves.recover (htrans : ∀ s t u, R s t → R t u → R s u)
    {ε' : Type} {x : Eff σ ε α} {handler : ε → Eff σ ε' α}
    (hx : Moves R x) (hhandler : ∀ e, Moves R (handler e)) :
    Moves R (recover x handler) := by
  intro s
  have hmove := hx s
  cases hrun : runIn x s with
  | mk r t =>
      rw [hrun] at hmove
      cases r with
      | ok a =>
          rw [recover_of_ok hrun]
          exact hmove
      | error e =>
          rw [recover_of_error hrun]
          exact htrans s t _ hmove (hhandler e t)

theorem moves_ite {c : Prop} [Decidable c] {x y : Eff σ ε α}
    (hx : Moves R x) (hy : Moves R y) :
    Moves R (if c then x else y) := by
  by_cases hc : c
  · rw [if_pos hc]
    exact hx
  · rw [if_neg hc]
    exact hy

end Moves

end Effect
