/-
A keyspace whose entries may expire.

An entry with a deadline is there up to and including the deadline; after
it, every read behaves as if the entry had never been written. `peek` is
the one reading function, and each write has an equation for what `peek`
sees after it, so nothing above this file looks at an expired entry.
-/
import Mathlib.Logic.Function.Basic
import Mathlib.Data.List.Basic

/-- A stored value and the last moment it is there, if there is one. -/
structure Entry (ν : Type) where
  value : ν
  deadline : Option Nat
deriving DecidableEq

namespace Entry

variable {ν : Type}

/-- The entry has not expired. -/
def LiveAt (now : Nat) (e : Entry ν) : Prop :=
  ∀ d ∈ e.deadline, now ≤ d

instance (now : Nat) (e : Entry ν) : Decidable (e.LiveAt now) :=
  match h : e.deadline with
  | none => isTrue (by
      intro d hd
      rw [h] at hd
      cases hd)
  | some d =>
      decidable_of_iff (now ≤ d) (by simp [LiveAt, h])

theorem LiveAt.earlier {now later : Nat} {e : Entry ν}
    (h : e.LiveAt later) (hle : now ≤ later) : e.LiveAt now :=
  fun d hd => Nat.le_trans hle (h d hd)

@[simp] theorem liveAt_none {now : Nat} {v : ν} :
    (Entry.mk v none).LiveAt now := by
  intro d hd
  cases hd

@[simp] theorem liveAt_some {now d : Nat} {v : ν} :
    (Entry.mk v (some d)).LiveAt now ↔ now ≤ d := by
  simp [LiveAt]

end Entry

/-- What is written under each key, expired or not. -/
abbrev Keyspace (κ ν : Type) := κ → Option (Entry ν)

namespace Keyspace

variable {κ ν : Type}

/-- The entry a reader finds. -/
def peek (ks : Keyspace κ ν) (now : Nat) (k : κ) : Option (Entry ν) :=
  match ks k with
  | some e => if e.LiveAt now then some e else none
  | none => none

theorem peek_eq_some_iff {ks : Keyspace κ ν} {now : Nat} {k : κ}
    {e : Entry ν} :
    ks.peek now k = some e ↔ ks k = some e ∧ e.LiveAt now := by
  unfold peek
  cases ks k with
  | none => simp
  | some f =>
      by_cases hlive : f.LiveAt now
      · simp only [if_pos hlive, Option.some.injEq]
        constructor
        · intro h
          exact ⟨h, h ▸ hlive⟩
        · intro h
          exact h.1
      · simp only [if_neg hlive]
        constructor
        · intro h
          cases h
        · intro h
          cases h.1
          exact absurd h.2 hlive

theorem peek_liveAt {ks : Keyspace κ ν} {now : Nat} {k : κ} {e : Entry ν}
    (h : ks.peek now k = some e) : e.LiveAt now :=
  (peek_eq_some_iff.mp h).2

/-- Time only takes entries away. -/
theorem peek_later_iff {ks : Keyspace κ ν} {now later : Nat}
    (hle : now ≤ later) {k : κ} {e : Entry ν} :
    ks.peek later k = some e ↔
      ks.peek now k = some e ∧ e.LiveAt later := by
  rw [peek_eq_some_iff, peek_eq_some_iff]
  constructor
  · intro h
    exact ⟨⟨h.1, h.2.earlier hle⟩, h.2⟩
  · intro h
    exact ⟨h.1.1, h.2⟩

-- ==================================================== writes

section Writes

variable [DecidableEq κ]

def write (ks : Keyspace κ ν) (k : κ) (e : Entry ν) : Keyspace κ ν :=
  fun k' => if k' = k then some e else ks k'

def erase (ks : Keyspace κ ν) (k : κ) : Keyspace κ ν :=
  fun k' => if k' = k then none else ks k'

def eraseAll (ks : Keyspace κ ν) (keys : List κ) : Keyspace κ ν :=
  fun k' => if k' ∈ keys then none else ks k'

/-- Move the deadline of an entry that is there. -/
def extend (ks : Keyspace κ ν) (now : Nat) (k : κ) (deadline : Nat) :
    Keyspace κ ν :=
  match ks.peek now k with
  | some e => ks.write k ⟨e.value, some deadline⟩
  | none => ks

theorem peek_write (ks : Keyspace κ ν) (now : Nat) (k k' : κ)
    {e : Entry ν} (hlive : e.LiveAt now) :
    (ks.write k e).peek now k' =
      if k' = k then some e else ks.peek now k' := by
  unfold peek write
  by_cases hk : k' = k
  · simp [hk, hlive]
  · simp [hk]

theorem peek_erase (ks : Keyspace κ ν) (now : Nat) (k k' : κ) :
    (ks.erase k).peek now k' =
      if k' = k then none else ks.peek now k' := by
  unfold peek erase
  by_cases hk : k' = k
  · simp [hk]
  · simp [hk]

theorem peek_eraseAll (ks : Keyspace κ ν) (now : Nat) (keys : List κ)
    (k' : κ) :
    (ks.eraseAll keys).peek now k' =
      if k' ∈ keys then none else ks.peek now k' := by
  unfold peek eraseAll
  by_cases hk : k' ∈ keys
  · simp [hk]
  · simp [hk]

theorem peek_extend (ks : Keyspace κ ν) {now deadline : Nat}
    (hlive : now ≤ deadline) (k k' : κ) :
    (ks.extend now k deadline).peek now k' =
      if k' = k then (ks.peek now k).map
        (fun e => ⟨e.value, some deadline⟩)
      else ks.peek now k' := by
  unfold extend
  cases hpeek : ks.peek now k with
  | none =>
      by_cases hk : k' = k
      · rw [if_pos hk, hk, hpeek]
        rfl
      · rw [if_neg hk]
  | some e =>
      rw [peek_write _ _ _ _ (Entry.liveAt_some.mpr hlive)]
      rfl

end Writes

end Keyspace
