/-
Lists of ranges that move to the right.

A list of windows advances when each one starts and ends later than the
one before it, and starts no later than that one ends. `covers` says that
such a list leaves no position out between its first start and its last
end.

How much two neighbours share decides which short ranges fall whole into
one window. `Shares k a b` is that amount: every range shorter than `k`
that starts before `b` does has ended when `a` ends. Where all neighbours
share it, no short range is lost (`covers_short`); where two of them do
not, the range that starts one position before the second is in no window
at all (`loses_short`).
-/
import Mathlib.Data.List.Chain

namespace Windows

variable {α : Type} (start stop : α → Nat)

-- ==================================================== neighbours

/-- The second window continues the first, further to the right. -/
structure Advances (a b : α) : Prop where
  start_lt : start a < start b
  stop_lt : stop a < stop b
  touches : start b ≤ stop a

/-- A range shorter than `k` from before `b` has ended when `a` ends. -/
def Shares (k : Nat) (a b : α) : Prop :=
  start b + k ≤ stop a + 2

/-- The range from `x` to `y` lies in one of the windows. -/
def Holds (windows : List α) (x y : Nat) : Prop :=
  ∃ w ∈ windows, start w ≤ x ∧ y ≤ stop w

variable {start stop} {windows : List α}

theorem Holds.mono {more : List α} {x y : Nat}
    (h : Holds start stop windows x y) (hsub : ∀ w ∈ windows, w ∈ more) :
    Holds start stop more x y := by
  obtain ⟨w, hw, hstart, hstop⟩ := h
  exact ⟨w, hsub w hw, hstart, hstop⟩

-- ==================================================== the whole list

theorem starts_pairwise
    (h : windows.IsChain (Advances start stop)) :
    windows.Pairwise (fun a b => start a < start b) := by
  have htrans : Trans (fun a b : α => start a < start b)
      (fun a b => start a < start b) (fun a b => start a < start b) :=
    ⟨fun hab hbc => Nat.lt_trans hab hbc⟩
  rw [← List.isChain_iff_pairwise]
  exact h.imp (fun _ _ hab => hab.start_lt)

theorem stops_pairwise
    (h : windows.IsChain (Advances start stop)) :
    windows.Pairwise (fun a b => stop a < stop b) := by
  have htrans : Trans (fun a b : α => stop a < stop b)
      (fun a b => stop a < stop b) (fun a b => stop a < stop b) :=
    ⟨fun hab hbc => Nat.lt_trans hab hbc⟩
  rw [← List.isChain_iff_pairwise]
  exact h.imp (fun _ _ hab => hab.stop_lt)

/-- From the first start on, a range either starts in front of some
window's successor or at the last window. -/
theorem holds_of_neighbours {R : α → α → Prop} {x y : Nat} {last : α}
    (hnext : ∀ a b, R a b → start a ≤ x → x < start b → y ≤ stop a)
    (hlast : y ≤ stop last) :
    ∀ {first : α} {rest : List α}, (first :: rest).IsChain R →
      (first :: rest).getLast? = some last → start first ≤ x →
        Holds start stop (first :: rest) x y := by
  intro first rest
  induction rest generalizing first with
  | nil =>
      intro _ hend hfirst
      cases hend
      exact ⟨first, List.mem_cons_self, hfirst, hlast⟩
  | cons second rest ih =>
      intro hchain hend hfirst
      rw [List.isChain_cons_cons] at hchain
      by_cases hx : x < start second
      · exact ⟨first, List.mem_cons_self, hfirst,
          hnext first second hchain.1 hfirst hx⟩
      · rw [List.getLast?_cons_cons] at hend
        exact (ih hchain.2 hend (by omega)).mono
          (fun w hw => List.mem_cons_of_mem _ hw)

/-- An advancing list leaves no position out. -/
theorem covers {first last : α} {rest : List α}
    (h : (first :: rest).IsChain (Advances start stop))
    (hend : (first :: rest).getLast? = some last) {i : Nat}
    (hfirst : start first ≤ i) (hlast : i < stop last) :
    ∃ w ∈ first :: rest, start w ≤ i ∧ i < stop w := by
  refine holds_of_neighbours (y := i + 1) ?_ hlast h hend hfirst
  intro a b hab _ hi
  have := hab.touches
  omega

-- ==================================================== short ranges

/-- Where all neighbours share enough, every short range lies in one
window. -/
theorem covers_short {k : Nat} {first last : α} {rest : List α}
    (h : (first :: rest).IsChain (Shares start stop k))
    (hend : (first :: rest).getLast? = some last) {x y : Nat}
    (hfirst : start first ≤ x) (hlast : y ≤ stop last)
    (hshort : y < x + k) : Holds start stop (first :: rest) x y := by
  refine holds_of_neighbours ?_ hlast h hend hfirst
  intro a b hab _ hx
  unfold Shares at hab
  omega

/-- Where two neighbours share too little, one short range is in no
window: the one that starts right before the second of them. -/
theorem loses_short {k : Nat} {before after : List α} {a b : α}
    (h : (before ++ a :: b :: after).IsChain (Advances start stop))
    (hshare : ¬ Shares start stop k a b) :
    ¬ Holds start stop (before ++ a :: b :: after) (start b - 1)
      (start b + k - 2) := by
  intro hholds
  obtain ⟨w, hw, hstart, hstop⟩ := hholds
  have hab : Advances start stop a b :=
    (List.isChain_append_cons_cons.mp h).2.1
  have hlt := hab.start_lt
  have hstarts := starts_pairwise h
  have hstops := stops_pairwise h
  rw [List.pairwise_append] at hstarts hstops
  unfold Shares at hshare
  rcases List.mem_append.mp hw with hw | hw
  · -- a window before the two ends even earlier
    have := hstops.2.2 w hw a List.mem_cons_self
    omega
  · rcases List.mem_cons.mp hw with rfl | hw
    · omega
    · -- the second and all later ones start too late
      have hlater : start b ≤ start w := by
        rcases List.mem_cons.mp hw with rfl | hw
        · exact le_refl _
        · have hpair := (List.pairwise_cons.mp hstarts.2.1).2
          exact Nat.le_of_lt ((List.pairwise_cons.mp hpair).1 w hw)
      omega

end Windows
