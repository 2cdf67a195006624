/-
Bounded retries.

An attempt is repeated while it may be, and so many times at most; between
two attempts there is a pause. `Decisive` is the number of the attempt
that ends it: every attempt before may be repeated, and it may not, or it
is the last one allowed. `startAt` and `endAt` are when an attempt starts
and ends, counted from the first, and `endAt_le` bounds the end by what
each attempt may take.
-/
import Mathlib.Tactic.Linarith
import Mathlib.Algebra.Order.Ring.Rat
import Mathlib.Order.Basic

namespace Retry

-- ==================================================== how many

/-- The attempt that ends it. -/
structure Decisive (again : Nat → Prop) (limit n : Nat) : Prop where
  within : n ≤ limit
  repeated : ∀ k < n, again k
  ends : n = limit ∨ ¬ again n

variable {again : Nat → Prop} {limit n : Nat}

theorem exists_decisive (again : Nat → Prop) (limit : Nat) :
    ∃ n, Decisive again limit n := by
  induction limit with
  | zero =>
      exact ⟨0, Nat.le_refl 0, fun k hk => absurd hk (Nat.not_lt_zero k),
        Or.inl rfl⟩
  | succ limit ih =>
      obtain ⟨n, hwithin, hrepeated, hends⟩ := ih
      by_cases hagain : again n
      · have hn := hends.resolve_right (not_not.mpr hagain)
        refine ⟨n + 1, by omega, fun k hk => ?_, Or.inl (by omega)⟩
        rcases Nat.lt_succ_iff_lt_or_eq.mp hk with hk | rfl
        · exact hrepeated k hk
        · exact hagain
      · exact ⟨n, by omega, hrepeated, Or.inr hagain⟩

/-- There is only one. -/
theorem Decisive.unique {m : Nat} (h : Decisive again limit n)
    (h' : Decisive again limit m) : n = m := by
  have hle : ∀ {a b}, Decisive again limit a → Decisive again limit b →
      a ≤ b := by
    intro a b ha hb
    by_contra hlt
    have hlt := Nat.lt_of_not_le hlt
    rcases hb.ends with hend | hend
    · have := ha.within
      omega
    · exact hend (ha.repeated b hlt)
  exact Nat.le_antisymm (hle h h') (hle h' h)

-- ==================================================== how long

section Time

variable {cost pause : Nat → Rat}

/-- When the attempt starts. -/
def startAt (cost pause : Nat → Rat) : Nat → Rat
  | 0 => 0
  | n + 1 => startAt cost pause n + cost n + pause n

/-- When the attempt ends. -/
def endAt (cost pause : Nat → Rat) (n : Nat) : Rat :=
  startAt cost pause n + cost n

theorem startAt_succ (n : Nat) :
    startAt cost pause (n + 1) = endAt cost pause n + pause n := rfl

theorem startAt_le_succ (hcost : ∀ k, 0 ≤ cost k) (hpause : ∀ k, 0 ≤ pause k)
    (n : Nat) : startAt cost pause n ≤ startAt cost pause (n + 1) := by
  have hattempt := hcost n
  have hrest := hpause n
  rw [startAt_succ]
  unfold endAt
  linarith

theorem startAt_mono (hcost : ∀ k, 0 ≤ cost k) (hpause : ∀ k, 0 ≤ pause k)
    {m n : Nat} (h : m ≤ n) : startAt cost pause m ≤ startAt cost pause n := by
  induction h with
  | refl => exact le_refl _
  | step _ ih => exact le_trans ih (startAt_le_succ hcost hpause _)

/-- The sum of so many pauses. -/
def pauses (pause : Nat → Rat) : Nat → Rat
  | 0 => 0
  | n + 1 => pauses pause n + pause n

theorem pauses_mono (hpause : ∀ k, 0 ≤ pause k) {m n : Nat} (h : m ≤ n) :
    pauses pause m ≤ pauses pause n := by
  induction h with
  | refl => exact le_refl _
  | @step k _ ih =>
      have hrest := hpause k
      refine le_trans ih ?_
      show pauses pause k ≤ pauses pause k + pause k
      linarith

theorem startAt_le {bound : Rat} (hcost : ∀ k, cost k ≤ bound) (n : Nat) :
    startAt cost pause n ≤ n * bound + pauses pause n := by
  induction n with
  | zero =>
      simp only [startAt, pauses, Nat.cast_zero, zero_mul, add_zero, le_refl]
  | succ n ih =>
      have := hcost n
      simp only [startAt, pauses, Nat.cast_succ]
      linarith

/-- An attempt has ended by when the last one allowed would have. -/
theorem endAt_le {bound : Rat} (hcost : ∀ k, cost k ≤ bound)
    (hbound : 0 ≤ bound) (hpause : ∀ k, 0 ≤ pause k) (h : n ≤ limit) :
    endAt cost pause n ≤ ((limit : Rat) + 1) * bound + pauses pause limit := by
  have hstart : startAt cost pause n ≤ n * bound + pauses pause n :=
    startAt_le hcost n
  have hpauses := pauses_mono hpause h
  have hlast := hcost n
  have hcount : (n : Rat) * bound ≤ limit * bound :=
    mul_le_mul_of_nonneg_right (Nat.cast_le.mpr h) hbound
  unfold endAt
  linarith

end Time

end Retry
