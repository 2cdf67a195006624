/-
One task among others.

A `Ledger` is the state such a task runs in: what it shares with the
other tasks, a world only its collaborators look into, the journal of
what the task has been seen to do, and what the others will do. The task
loses control only where it pauses; there the next batch of their steps is
taken on the shared state. A schedule is a list of batches, so to say
something of every schedule is to say it of every interleaving.

Time is a sequence of clock readings that never goes back.

`After l new l'` says that `new` was written between two ledgers, and that
the clock did not go back; it composes. `Silent` computations write nothing.
-/
import Mathlib.Algebra.Order.Ring.Rat
import PrivacyGateway.Lib.Effect

/-- The state of one task among others. -/
structure Ledger (ς σ ε ι : Type) where
  shared : ς
  world : σ
  journal : List ε := []
  schedule : List (List ι) := []
  readings : Nat := 0

/-- The readings of a clock that never goes back. -/
structure Clock where
  reading : Nat → Rat
  nondecreasing : Monotone reading

/-- The clock that shows one time. -/
def Clock.stopped (t : Rat) : Clock where
  reading _ := t
  nondecreasing _ _ _ := le_refl t

namespace Ledger

open Effect

variable {ς σ ε ι x α β : Type}

-- ==================================================== operations

/-- A collaborator's work. -/
def onWorld (work : Eff σ x α) : Eff (Ledger ς σ ε ι) x α :=
  act fun l => ((runIn work l.world).1,
    { l with world := (runIn work l.world).2 })

/-- Write in the journal. -/
def note (entry : ε) : Eff (Ledger ς σ ε ι) x Unit :=
  act fun l => (.ok (), { l with journal := l.journal ++ [entry] })

/-- Look at the shared state. -/
def inspect (f : ς → α) : Eff (Ledger ς σ ε ι) x α :=
  act fun l => (.ok (f l.shared), l)

/-- One atomic change of the shared state. -/
def alter (f : ς → Except x α × ς) : Eff (Ledger ς σ ε ι) x α :=
  act fun l => ((f l.shared).1, { l with shared := (f l.shared).2 })

/-- Read the clock. -/
def readClock (clock : Clock) : Eff (Ledger ς σ ε ι) x Rat :=
  act fun l => (.ok (clock.reading l.readings),
    { l with readings := l.readings + 1 })

section Pause

variable (step : ς → ι → ς)

/-- What the shared state is after the next batch. -/
def interrupted (l : Ledger ς σ ε ι) : ς :=
  (l.schedule.headD []).foldl step l.shared

/-- Let the other tasks take their next batch of steps. -/
def pause : Eff (Ledger ς σ ε ι) x Unit :=
  act fun l => (.ok (),
    { l with shared := l.interrupted step, schedule := l.schedule.tail })

/-- Wait for a collaborator. -/
def await (work : Eff σ x α) : Eff (Ledger ς σ ε ι) x α := do
  pause step
  onWorld work

end Pause

variable {l l' : Ledger ς σ ε ι}

@[simp] theorem runIn_note (entry : ε) :
    runIn (note entry : Eff (Ledger ς σ ε ι) x Unit) l =
      (.ok (), { l with journal := l.journal ++ [entry] }) := rfl

@[simp] theorem runIn_inspect (f : ς → α) :
    runIn (inspect f : Eff (Ledger ς σ ε ι) x α) l =
      (.ok (f l.shared), l) := rfl

@[simp] theorem runIn_alter (f : ς → Except x α × ς) :
    runIn (alter f : Eff (Ledger ς σ ε ι) x α) l =
      ((f l.shared).1, { l with shared := (f l.shared).2 }) := rfl

@[simp] theorem runIn_readClock (clock : Clock) :
    runIn (readClock clock : Eff (Ledger ς σ ε ι) x Rat) l =
      (.ok (clock.reading l.readings),
        { l with readings := l.readings + 1 }) := rfl

@[simp] theorem runIn_pause (step : ς → ι → ς) :
    runIn (pause step : Eff (Ledger ς σ ε ι) x Unit) l =
      (.ok (), { l with
        shared := l.interrupted step, schedule := l.schedule.tail }) := rfl

theorem onWorld_ok_iff {work : Eff σ x α} {a : α} :
    runIn (onWorld work) l = (.ok a, l') ↔
      ∃ w, runIn work l.world = (.ok a, w) ∧ l' = { l with world := w } := by
  unfold onWorld
  rw [runIn_act]
  cases runIn work l.world with
  | mk r w =>
      constructor
      · intro h
        cases h
        exact ⟨w, rfl, rfl⟩
      · intro h
        obtain ⟨w', hw, rfl⟩ := h
        cases hw
        rfl

/-- What a collaborator returns where it is waited for. -/
theorem await_ok {step : ς → ι → ς} {work : Eff σ x α} {a : α}
    (h : runIn (await step work) l = (.ok a, l')) :
    ∃ w, runIn work l.world = (.ok a, w) := by
  obtain ⟨u, m, hpause, hwork⟩ := bind_ok_iff.mp h
  obtain ⟨w, hw, -⟩ := onWorld_ok_iff.mp hwork
  cases hpause
  exact ⟨w, hw⟩

-- ==================================================== the journal

/-- The second ledger is the first one later, with `new` written in the
journal meanwhile. -/
structure After (l : Ledger ς σ ε ι) (new : List ε)
    (l' : Ledger ς σ ε ι) : Prop where
  journal : l'.journal = l.journal ++ new
  readings : l.readings ≤ l'.readings

/-- Nothing was written. -/
def Quiet (l l' : Ledger ς σ ε ι) : Prop :=
  After l [] l'

theorem quiet_refl (l : Ledger ς σ ε ι) : Quiet l l :=
  ⟨(List.append_nil _).symm, le_refl _⟩

theorem After.trans {l m n : Ledger ς σ ε ι} {first second : List ε}
    (h : After l first m) (h' : After m second n) :
    After l (first ++ second) n where
  journal := by rw [h'.journal, h.journal, List.append_assoc]
  readings := le_trans h.readings h'.readings

theorem After.quiet {l m n : Ledger ς σ ε ι} {new : List ε}
    (h : After l new m) (h' : Quiet m n) : After l new n := by
  have htrans := h.trans h'
  rwa [List.append_nil] at htrans

theorem Quiet.trans {l m n : Ledger ς σ ε ι} (h : Quiet l m)
    (h' : Quiet m n) : Quiet l n :=
  After.trans h h'

theorem Quiet.after {l m n : Ledger ς σ ε ι} {new : List ε}
    (h : Quiet l m) (h' : After m new n) : After l new n :=
  After.trans h h'

/-- The ledger with nothing written yet. -/
def unwritten (l : Ledger ς σ ε ι) : Ledger ς σ ε ι :=
  { l with journal := [] }

/-- What a computation writes in a journal that begins with it. -/
def written (work : Eff (Ledger ς σ ε ι) x α) (l : Ledger ς σ ε ι) :
    List ε :=
  (runIn work l.unwritten).2.journal

theorem written_eq {work : Eff (Ledger ς σ ε ι) x α} {r : Except x α}
    {new : List ε} (hrun : runIn work l.unwritten = (r, l'))
    (hafter : After l.unwritten new l') : written work l = new := by
  unfold written
  rw [hrun, hafter.journal]
  rfl

/-- What follows a note runs from a ledger with the entry written. -/
theorem note_bind_cases {entry : ε} {f : Unit → Eff (Ledger ς σ ε ι) x α}
    {r : Except x α} (h : runIn (note entry >>= f) l = (r, l')) :
    ∃ m, After l [entry] m ∧ runIn (f ()) m = (r, l') := by
  rw [runIn_bind, runIn_note] at h
  exact ⟨{ l with journal := l.journal ++ [entry] }, ⟨rfl, le_refl _⟩, h⟩

/-- What follows a clock reading runs later, and knows the time. -/
theorem clock_bind_cases {clock : Clock}
    {f : Rat → Eff (Ledger ς σ ε ι) x α} {r : Except x α}
    (h : runIn (readClock clock >>= f) l = (r, l')) :
    ∃ m, Quiet l m ∧ m.readings = l.readings + 1 ∧
      runIn (f (clock.reading l.readings)) m = (r, l') := by
  rw [runIn_bind, runIn_readClock] at h
  exact ⟨{ l with readings := l.readings + 1 },
    ⟨(List.append_nil _).symm, Nat.le_succ _⟩, rfl, h⟩

/-- The computation writes nothing in the journal, however it ends. -/
abbrev Silent (c : Eff (Ledger ς σ ε ι) x α) : Prop :=
  Moves Quiet c

section Silent

theorem silent_pure (a : α) :
    Silent (pure a : Eff (Ledger ς σ ε ι) x α) :=
  moves_pure quiet_refl a

theorem silent_throw (e : x) :
    Silent (throw e : Eff (Ledger ς σ ε ι) x α) :=
  moves_throw quiet_refl e

theorem silent_checked (r : Except x α) :
    Silent (checked r : Eff (Ledger ς σ ε ι) x α) :=
  moves_checked quiet_refl r

theorem silent_onWorld (work : Eff σ x α) :
    Silent (onWorld work : Eff (Ledger ς σ ε ι) x α) :=
  fun l => ⟨(List.append_nil l.journal).symm, le_refl _⟩

theorem silent_inspect (f : ς → α) :
    Silent (inspect f : Eff (Ledger ς σ ε ι) x α) :=
  quiet_refl

theorem silent_alter (f : ς → Except x α × ς) :
    Silent (alter f : Eff (Ledger ς σ ε ι) x α) :=
  fun l => ⟨(List.append_nil l.journal).symm, le_refl _⟩

theorem silent_readClock (clock : Clock) :
    Silent (readClock clock : Eff (Ledger ς σ ε ι) x Rat) :=
  fun l => ⟨(List.append_nil l.journal).symm, Nat.le_succ _⟩

theorem silent_pause (step : ς → ι → ς) :
    Silent (pause step : Eff (Ledger ς σ ε ι) x Unit) :=
  fun l => ⟨(List.append_nil l.journal).symm, le_refl _⟩

theorem silent_bind {c : Eff (Ledger ς σ ε ι) x α}
    {f : α → Eff (Ledger ς σ ε ι) x β} (hc : Silent c)
    (hf : ∀ a, Silent (f a)) : Silent (c >>= f) :=
  Moves.bind (fun _ _ _ hst htu => hst.after htu) hc hf

theorem silent_translate {x' : Type} {f : x → x'}
    {c : Eff (Ledger ς σ ε ι) x α} (hc : Silent c) :
    Silent (translate f c) :=
  moves_translate hc

theorem silent_await (step : ς → ι → ς) (work : Eff σ x α) :
    Silent (await step work : Eff (Ledger ς σ ε ι) x α) :=
  silent_bind (silent_pause step) (fun _ => silent_onWorld work)

theorem Silent.quiet {c : Eff (Ledger ς σ ε ι) x α}
    (hc : Silent c) {r : Except x α} (h : runIn c l = (r, l')) :
    Quiet l l' := by
  have hl := hc l
  rw [h] at hl
  exact hl

/-- A silent part ends the run with its error, or the rest goes on from
where it left. -/
theorem Silent.bind_cases {c : Eff (Ledger ς σ ε ι) x α}
    {f : α → Eff (Ledger ς σ ε ι) x β} (hc : Silent c) {r : Except x β}
    (h : runIn (c >>= f) l = (r, l')) :
    (∃ e, r = .error e ∧ Quiet l l' ∧ runIn c l = (.error e, l')) ∨
      ∃ a m, Quiet l m ∧ runIn c l = (.ok a, m) ∧
        runIn (f a) m = (r, l') := by
  rcases Effect.bind_cases h with ⟨e, hr, hrun⟩ | ⟨a, m, hrun, hrest⟩
  · exact Or.inl ⟨e, hr, hc.quiet hrun, hrun⟩
  · exact Or.inr ⟨a, m, hc.quiet hrun, hrun, hrest⟩

end Silent

end Ledger
