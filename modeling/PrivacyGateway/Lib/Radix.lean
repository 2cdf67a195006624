/-
Fixed-width positional notation.

`digits b n x` lists the `n` lowest base-`b` digits of `x`, most
significant first, and `value b` reads such a list back. On numbers below
`b ^ n` the two are inverse, so the notation is injective there
(`digits_inj`): this is what makes a fixed-width rendering of a number an
identity for it.
-/
import Mathlib.Data.List.Basic
import Mathlib.Data.List.Induction
import Mathlib.Tactic.Ring

namespace Radix

/-- The `n` lowest base-`b` digits of `x`, most significant first. -/
def digits (b n x : Nat) : List Nat :=
  (List.range n).map (fun i => x / b ^ (n - 1 - i) % b)

/-- The number a digit list stands for. -/
def value (b : Nat) (ds : List Nat) : Nat :=
  ds.foldl (fun acc d => acc * b + d) 0

@[simp] theorem length_digits (b n x : Nat) :
    (digits b n x).length = n := by
  simp [digits]

theorem lt_of_mem_digits {b n x d : Nat} (hb : 0 < b)
    (hd : d ∈ digits b n x) : d < b := by
  unfold digits at hd
  obtain ⟨i, -, rfl⟩ := List.mem_map.mp hd
  exact Nat.mod_lt _ hb

/-- The last digit is the remainder, the others are the quotient's. -/
theorem digits_succ (b n x : Nat) :
    digits b (n + 1) x = digits b n (x / b) ++ [x % b] := by
  unfold digits
  rw [List.range_succ, List.map_append, List.map_singleton]
  have hlast : n + 1 - 1 - n = 0 := by omega
  rw [hlast, Nat.pow_zero, Nat.div_one]
  congr 1
  refine List.map_congr_left (fun i hi => ?_)
  have hi : i < n := List.mem_range.mp hi
  rw [show n + 1 - 1 - i = (n - 1 - i) + 1 by omega, Nat.pow_succ',
    ← Nat.div_div_eq_div_mul]

theorem value_append_singleton (b d : Nat) (ds : List Nat) :
    value b (ds ++ [d]) = value b ds * b + d := by
  simp [value, List.foldl_append]

/-- Reading the digits back gives the number, up to the width. -/
theorem value_digits (b n : Nat) :
    ∀ x, value b (digits b n x) = x % b ^ n := by
  induction n with
  | zero =>
      intro x
      simp [digits, value, Nat.mod_one]
  | succ n ih =>
      intro x
      rw [digits_succ, value_append_singleton, ih, Nat.pow_succ']
      rw [Nat.mod_mul, Nat.mul_comm, Nat.add_comm]

theorem digits_inj {b n x y : Nat} (hx : x < b ^ n) (hy : y < b ^ n)
    (h : digits b n x = digits b n y) : x = y := by
  have hv := congrArg (value b) h
  rwa [value_digits, value_digits, Nat.mod_eq_of_lt hx,
    Nat.mod_eq_of_lt hy] at hv

/-- A list of digits stands for a number of its width. -/
theorem value_lt {b : Nat} (ds : List Nat) (hds : ∀ d ∈ ds, d < b) :
    value b ds < b ^ ds.length := by
  induction ds using List.reverseRecOn with
  | nil => simp [value]
  | append_singleton ds d ih =>
      rw [value_append_singleton, List.length_append,
        List.length_singleton, Nat.pow_succ]
      have hd : d < b := hds d (by simp)
      have hval := ih (fun c hc => hds c (List.mem_append_left _ hc))
      calc value b ds * b + d < value b ds * b + b := by omega
        _ = (value b ds + 1) * b := by ring
        _ ≤ b ^ ds.length * b := Nat.mul_le_mul_right b hval

/-- Writing out a number read from digits gives the digits. -/
theorem digits_value {b : Nat} (ds : List Nat) (hds : ∀ d ∈ ds, d < b) :
    digits b ds.length (value b ds) = ds := by
  induction ds using List.reverseRecOn with
  | nil => rfl
  | append_singleton ds d ih =>
      have hd : d < b := hds d (by simp)
      have hb : 0 < b := by omega
      rw [List.length_append, List.length_singleton, digits_succ,
        value_append_singleton]
      have hdiv : (value b ds * b + d) / b = value b ds := by
        rw [Nat.mul_comm, Nat.mul_add_div hb, Nat.div_eq_of_lt hd,
          Nat.add_zero]
      have hmod : (value b ds * b + d) % b = d := by
        rw [Nat.mul_comm, Nat.mul_add_mod, Nat.mod_eq_of_lt hd]
      rw [hdiv, hmod, ih (fun c hc => hds c (List.mem_append_left _ hc))]

/-- Digit lists of one width that stand for one number are equal. -/
theorem value_inj {b : Nat} {ds es : List Nat}
    (hds : ∀ d ∈ ds, d < b) (hes : ∀ d ∈ es, d < b)
    (hlen : ds.length = es.length) (h : value b ds = value b es) :
    ds = es := by
  rw [← digits_value ds hds, ← digits_value es hes, hlen, h]

-- ==================================================== rendering

/-- A list of digits is determined by its characters when the characters
of different digits differ. -/
theorem map_inj_of_lt {γ : Type} {b : Nat} {f : Nat → γ}
    (hf : ∀ d, d < b → ∀ e, e < b → f d = f e → d = e) (ds : List Nat) :
    ∀ es : List Nat, (∀ d ∈ ds, d < b) → (∀ e ∈ es, e < b) →
      ds.map f = es.map f → ds = es := by
  induction ds with
  | nil =>
      intro es _ _ h
      cases es with
      | nil => rfl
      | cons e es => cases h
  | cons d ds ih =>
      intro es hds hes h
      cases es with
      | nil => cases h
      | cons e es =>
          obtain ⟨hhead, htail⟩ := List.cons.inj h
          obtain ⟨hd, hds⟩ := List.forall_mem_cons.mp hds
          obtain ⟨he, hes⟩ := List.forall_mem_cons.mp hes
          rw [hf d hd e he hhead, ih es hds hes htail]

/-- A fixed-width rendering with distinct digit characters is injective on
the numbers of its width. -/
theorem map_digits_inj {γ : Type} {b n x y : Nat} {f : Nat → γ} (hb : 0 < b)
    (hf : ∀ d, d < b → ∀ e, e < b → f d = f e → d = e)
    (hx : x < b ^ n) (hy : y < b ^ n)
    (h : (digits b n x).map f = (digits b n y).map f) : x = y :=
  digits_inj hx hy (map_inj_of_lt hf _ _
    (fun _ => lt_of_mem_digits hb) (fun _ => lt_of_mem_digits hb) h)

end Radix
