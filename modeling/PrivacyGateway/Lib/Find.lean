/-
The first occurrence of one list in another, and the last one in a range.

`findFrom needle l start` is the least position from `start` on at which
`needle` begins. The two equations below are all its callers use: a found
position is an occurrence with none before it, and nothing is found when
there is none.

`rfind needle l start stop` is the greatest position at which `needle`
lies whole between `start` and `stop`.
-/
import Mathlib.Data.List.Basic

namespace Find

variable {α : Type}

/-- The needle begins at the position. -/
def At (needle l : List α) (i : Nat) : Prop :=
  needle <+: l.drop i

/-- A nonempty needle begins inside the list. -/
theorem At.lt_length {needle l : List α} {i : Nat} (h : At needle l i)
    (hne : needle ≠ []) : i < l.length := by
  by_contra hle
  unfold At at h
  rw [List.drop_eq_nil_of_le (by omega)] at h
  exact hne (List.prefix_nil.mp h)

variable [DecidableEq α]

instance (needle l : List α) (i : Nat) : Decidable (At needle l i) :=
  inferInstanceAs (Decidable (needle <+: l.drop i))

/-- The first position from `start` on where the needle begins. -/
def findFrom (needle l : List α) (start : Nat) : Option Nat :=
  (List.range (l.length + 1)).find?
    (fun i => decide (start ≤ i ∧ At needle l i))

theorem findFrom_eq_some_iff {needle l : List α} {start i : Nat}
    (hne : needle ≠ []) :
    findFrom needle l start = some i ↔
      start ≤ i ∧ At needle l i ∧
        ∀ j, start ≤ j → j < i → ¬ At needle l j := by
  unfold findFrom
  rw [List.find?_range_eq_some]
  constructor
  · intro h
    obtain ⟨hi, -, hbefore⟩ := h
    obtain ⟨hstart, hat⟩ := of_decide_eq_true hi
    refine ⟨hstart, hat, fun j hj hji hatj => ?_⟩
    have hmiss := hbefore j hji
    simp [hj, hatj] at hmiss
  · intro h
    obtain ⟨hstart, hat, hbefore⟩ := h
    have hlt := hat.lt_length hne
    refine ⟨decide_eq_true ⟨hstart, hat⟩, List.mem_range.mpr (by omega), ?_⟩
    intro j hj
    by_cases hjs : start ≤ j
    · simp [hbefore j hjs hj]
    · simp [hjs]

/-- From an occurrence on, the search finds it or an earlier one. -/
theorem exists_findFrom {needle l : List α} {start i : Nat}
    (hne : needle ≠ []) (hstart : start ≤ i) (hat : At needle l i) :
    ∃ j, findFrom needle l start = some j ∧ j ≤ i := by
  cases hfind : findFrom needle l start with
  | some j =>
      refine ⟨j, rfl, ?_⟩
      obtain ⟨-, -, hbefore⟩ := (findFrom_eq_some_iff hne).mp hfind
      by_contra hlt
      exact hbefore i hstart (by omega) hat
  | none =>
      have hnone := List.find?_eq_none.mp hfind i
        (List.mem_range.mpr (by have := hat.lt_length hne; omega))
      simp [hstart, hat] at hnone

-- ==================================================== the last one

/-- The needle lies whole in the range, at the position. -/
def Within (needle l : List α) (start stop i : Nat) : Prop :=
  start ≤ i ∧ i + needle.length ≤ stop ∧ At needle l i

instance (needle l : List α) (start stop i : Nat) :
    Decidable (Within needle l start stop i) :=
  inferInstanceAs (Decidable (_ ∧ _ ∧ _))

/-- The last position in the range where the needle lies whole. -/
def rfind (needle l : List α) (start stop : Nat) : Option Nat :=
  (List.range l.length).reverse.find?
    (fun i => decide (Within needle l start stop i))

theorem within_of_rfind {needle l : List α} {start stop i : Nat}
    (h : rfind needle l start stop = some i) :
    Within needle l start stop i := by
  unfold rfind at h
  have hfound := List.find?_some h
  exact of_decide_eq_true hfound

/-- No occurrence in the range is later than the one found. -/
theorem le_of_rfind {needle l : List α} {start stop i j : Nat}
    (hne : needle ≠ []) (h : rfind needle l start stop = some i)
    (hj : Within needle l start stop j) : j ≤ i := by
  obtain ⟨-, later, earlier, hsplit, hlater⟩ :=
    List.find?_eq_some_iff_append.mp h
  have hmem : j ∈ (List.range l.length).reverse :=
    List.mem_reverse.mpr (List.mem_range.mpr (hj.2.2.lt_length hne))
  rw [hsplit, List.mem_append, List.mem_cons] at hmem
  rcases hmem with hmem | rfl | hmem
  · have hmiss := hlater j hmem
    rw [decide_eq_true hj] at hmiss
    cases hmiss
  · exact Nat.le_refl _
  · have hdescending : (List.range l.length).reverse.Pairwise (· > ·) :=
      List.pairwise_reverse.mpr List.pairwise_lt_range
    rw [hsplit] at hdescending
    have hafter := (List.pairwise_append.mp hdescending).2.1
    exact Nat.le_of_lt ((List.pairwise_cons.mp hafter).1 j hmem)

theorem rfind_eq_none_iff {needle l : List α} {start stop : Nat}
    (hne : needle ≠ []) :
    rfind needle l start stop = none ↔
      ∀ i, ¬ Within needle l start stop i := by
  unfold rfind
  rw [List.find?_eq_none]
  constructor
  · intro h i hi
    have hmem : i ∈ (List.range l.length).reverse :=
      List.mem_reverse.mpr (List.mem_range.mpr (hi.2.2.lt_length hne))
    exact h i hmem (decide_eq_true hi)
  · intro h i _
    rw [decide_eq_true_iff]
    exact h i

end Find
