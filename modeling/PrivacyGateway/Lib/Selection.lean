/-
Selecting a conflict-free sublist of a list of candidates, in the two
shapes a program writes such a selection.

# The greedy walk

`greedy clash l` walks `l` best-first and keeps a candidate when it
clashes with nothing already kept. The kept list is an accumulator, as
the loop has it. What the walk guarantees is said once, for the
accumulating form, and read off at the empty accumulator:

- `greedy_sublist`: the kept candidates are candidates, in order;
- `greedy_pairwise`: no two of them clash;
- `greedy_covers`: every candidate is kept, or clashes with a kept one
  that stands before it in the walk.

# The boundary sweep

`sweep start stop l` walks `l` from the left and keeps a candidate when
it starts at or after the end of the last one kept. Over a list in order
the same three facts hold, the third in a sharper form (`sweep_covers`): a
dropped candidate starts inside a kept one that stands before it.

# Sorting by a key

`sortBy key l` is the stable sort both walks are fed with.

Nothing here depends on what the candidates are.
-/
import Mathlib.Data.List.Sort
import Mathlib.Data.List.Pairwise

namespace Selection

variable {α : Type}

-- ============================================== sorting by a key

section SortBy

variable {κ : Type} [LinearOrder κ]

/-- The list in ascending order of a key, equal keys in their own order. -/
def sortBy (key : α → κ) (l : List α) : List α :=
  l.insertionSort (fun a b => key a ≤ key b)

@[simp] theorem mem_sortBy {key : α → κ} {l : List α} {a : α} :
    a ∈ sortBy key l ↔ a ∈ l :=
  List.mem_insertionSort _

theorem sortBy_perm (key : α → κ) (l : List α) : (sortBy key l).Perm l :=
  List.perm_insertionSort _ l

@[simp] theorem length_sortBy (key : α → κ) (l : List α) :
    (sortBy key l).length = l.length :=
  List.length_insertionSort _ l

theorem sortBy_pairwise (key : α → κ) (l : List α) :
    (sortBy key l).Pairwise (fun a b => key a ≤ key b) := by
  have htotal : Std.Total (fun a b : α => key a ≤ key b) :=
    ⟨fun a b => le_total (key a) (key b)⟩
  have htrans : IsTrans α (fun a b => key a ≤ key b) :=
    ⟨fun _ _ _ => le_trans⟩
  exact List.pairwise_insertionSort _ l

/-- A list already in order is its own sort. -/
theorem sortBy_eq_self {key : α → κ} {l : List α}
    (h : l.Pairwise (fun a b => key a ≤ key b)) : sortBy key l = l :=
  List.Pairwise.insertionSort_eq h

/-- Sorting any order of an ascending list whose keys tell its elements
apart gives that list. -/
theorem sortBy_eq_of_perm_of_injective {key : α → κ} {l l' : List α}
    (hperm : l.Perm l') (h : l'.Pairwise (fun a b => key a ≤ key b))
    (hinjective : ∀ a ∈ l', ∀ b ∈ l', key a = key b → a = b) :
    sortBy key l = l' := by
  have hsame := (sortBy_perm key l).trans hperm
  refine List.Perm.eq_of_pairwise ?_ (sortBy_pairwise key l) h hsame
  intro a b ha hb hab hba
  exact hinjective a (hsame.mem_iff.mp ha) b hb (le_antisymm hab hba)

/-- Sorting any order of a strictly ascending list gives that list. -/
theorem sortBy_eq_of_perm {key : α → κ} {l l' : List α} (hperm : l.Perm l')
    (h : l'.Pairwise (fun a b => key a < key b)) : sortBy key l = l' := by
  apply sortBy_eq_of_perm_of_injective hperm (h.imp le_of_lt)
  intro a ha b hb heq
  by_contra hne
  have hsymm : Std.Symm (fun a b : α => key a ≠ key b) :=
    ⟨fun _ _ => Ne.symm⟩
  exact (h.imp ne_of_lt).forall ha hb hne heq

/-- The list in descending order of a key, equal keys in their own
order. -/
def sortByDesc (key : α → κ) (l : List α) : List α :=
  l.insertionSort (fun a b => key b ≤ key a)

private theorem orderedInsert_below {key : α → κ} (a : α) (l : List α)
    (h : ∀ b ∈ l, key a < key b) :
    l.orderedInsert (fun a b => key b ≤ key a) a = l ++ [a] := by
  induction l with
  | nil => rfl
  | cons b l ih =>
      obtain ⟨hb, hl⟩ := List.forall_mem_cons.mp h
      rw [List.orderedInsert_cons, if_neg (not_le.mpr hb), ih hl]
      rfl

/-- Sorting a strictly ascending list the other way reverses it. -/
theorem sortByDesc_eq_reverse {key : α → κ} {l : List α}
    (h : l.Pairwise (fun a b => key a < key b)) :
    sortByDesc key l = l.reverse := by
  unfold sortByDesc
  induction l with
  | nil => rfl
  | cons a l ih =>
      obtain ⟨ha, hl⟩ := List.pairwise_cons.mp h
      rw [List.insertionSort_cons, ih hl, List.reverse_cons]
      exact orderedInsert_below a l.reverse
        (fun b hb => ha b (List.mem_reverse.mp hb))

end SortBy

-- ============================================== the greedy walk

/-- Walk the candidates and append each one that clashes with nothing
kept so far. -/
def greedyFrom (clash : α → α → Bool) : List α → List α → List α
  | kept, [] => kept
  | kept, a :: l =>
      if kept.any (clash a) then greedyFrom clash kept l
      else greedyFrom clash (kept ++ [a]) l

/-- The greedy selection: the walk from nothing kept. -/
def greedy (clash : α → α → Bool) (l : List α) : List α :=
  greedyFrom clash [] l

section Greedy

variable {clash : α → α → Bool}

/-- The walk only appends: it returns what was kept, and after it a
sublist of the candidates. -/
theorem greedyFrom_eq_append (l : List α) :
    ∀ kept : List α,
      ∃ new, greedyFrom clash kept l = kept ++ new ∧ new.Sublist l := by
  induction l with
  | nil =>
      intro kept
      exact ⟨[], by simp [greedyFrom], List.Sublist.refl _⟩
  | cons a l ih =>
      intro kept
      unfold greedyFrom
      split
      · obtain ⟨new, hnew, hsub⟩ := ih kept
        exact ⟨new, hnew, hsub.cons a⟩
      · obtain ⟨new, hnew, hsub⟩ := ih (kept ++ [a])
        refine ⟨a :: new, ?_, hsub.cons_cons a⟩
        rw [hnew, List.append_assoc, List.singleton_append]

/-- What was kept stays kept. -/
theorem mem_greedyFrom_of_mem {kept l : List α} {k : α} (hk : k ∈ kept) :
    k ∈ greedyFrom clash kept l := by
  obtain ⟨new, hnew, -⟩ := @greedyFrom_eq_append α clash l kept
  rw [hnew]
  exact List.mem_append_left _ hk

/-- The selection is a sublist of the candidates. -/
theorem greedy_sublist (l : List α) : (greedy clash l).Sublist l := by
  obtain ⟨new, hnew, hsub⟩ := @greedyFrom_eq_append α clash l []
  rw [greedy, hnew, List.nil_append]
  exact hsub

theorem mem_of_mem_greedy {l : List α} {a : α} (ha : a ∈ greedy clash l) :
    a ∈ l :=
  (greedy_sublist l).subset ha

/-- A walk that starts clash-free ends clash-free. -/
theorem greedyFrom_pairwise (hsymm : ∀ a b, clash a b = clash b a)
    (l : List α) :
    ∀ kept : List α, kept.Pairwise (fun a b => clash a b = false) →
      (greedyFrom clash kept l).Pairwise (fun a b => clash a b = false) := by
  induction l with
  | nil =>
      intro kept hkept
      exact hkept
  | cons a l ih =>
      intro kept hkept
      unfold greedyFrom
      split
      · exact ih kept hkept
      · rename_i hclear
        refine ih _ (List.pairwise_append.mpr
          ⟨hkept, List.pairwise_singleton _ _, ?_⟩)
        intro k hk b hb
        rw [List.mem_singleton] at hb
        subst hb
        rw [hsymm]
        cases hc : clash b k with
        | false => rfl
        | true => exact absurd (List.any_eq_true.mpr ⟨k, hk, hc⟩) hclear

theorem greedy_pairwise (hsymm : ∀ a b, clash a b = clash b a)
    (l : List α) :
    (greedy clash l).Pairwise (fun a b => clash a b = false) :=
  greedyFrom_pairwise hsymm l [] List.Pairwise.nil

/-- Over candidates listed best-first under `better`, and kept ones that
are better than all of them: each candidate is kept, or clashes with a
better one that is. -/
theorem greedyFrom_covers {better : α → α → Prop} (l : List α) :
    ∀ kept : List α, l.Pairwise better →
      (∀ k ∈ kept, ∀ a ∈ l, better k a) → ∀ a ∈ l,
        a ∈ greedyFrom clash kept l ∨
          ∃ k ∈ greedyFrom clash kept l, clash a k = true ∧ better k a := by
  induction l with
  | nil =>
      intro kept _ _ a ha
      exact absurd ha (List.not_mem_nil)
  | cons b l ih =>
      intro kept hord hbefore a ha
      obtain ⟨hb, hord⟩ := List.pairwise_cons.mp hord
      unfold greedyFrom
      split
      · rename_i hany
        rcases List.mem_cons.mp ha with rfl | ha
        · obtain ⟨k, hk, hc⟩ := List.any_eq_true.mp hany
          exact Or.inr ⟨k, mem_greedyFrom_of_mem hk, hc,
            hbefore k hk a List.mem_cons_self⟩
        · exact ih kept hord
            (fun k hk c hc => hbefore k hk c (List.mem_cons_of_mem _ hc)) a ha
      · rcases List.mem_cons.mp ha with rfl | ha
        · exact Or.inl (mem_greedyFrom_of_mem (by simp))
        · refine ih (kept ++ [b]) hord (fun k hk c hc => ?_) a ha
          rcases List.mem_append.mp hk with hk | hk
          · exact hbefore k hk c (List.mem_cons_of_mem _ hc)
          · rw [List.mem_singleton.mp hk]
            exact hb c hc

/-- Over a list sorted best-first, each candidate is kept or loses to a
better one that is kept. -/
theorem greedy_covers {better : α → α → Prop} {l : List α}
    (hord : l.Pairwise better) {a : α} (ha : a ∈ l) :
    a ∈ greedy clash l ∨
      ∃ k ∈ greedy clash l, clash a k = true ∧ better k a :=
  greedyFrom_covers l [] hord
    (fun _ hk => absurd hk (List.not_mem_nil)) a ha

theorem greedyFrom_eq_self (l : List α) :
    ∀ kept : List α, (kept ++ l).Pairwise (fun a b => clash b a = false) →
      greedyFrom clash kept l = kept ++ l := by
  induction l with
  | nil =>
      intro kept _
      rw [greedyFrom, List.append_nil]
  | cons a l ih =>
      intro kept h
      have hclear : kept.any (clash a) = false := by
        rw [List.any_eq_false]
        intro k hk hclash
        have := (List.pairwise_append.mp h).2.2 k hk a List.mem_cons_self
        rw [this] at hclash
        cases hclash
      rw [greedyFrom, hclear, if_neg Bool.false_ne_true,
        ih _ (by simpa using h), List.append_assoc, List.singleton_append]

/-- Candidates that do not clash are all kept, in their order. -/
theorem greedy_eq_self {l : List α}
    (h : l.Pairwise (fun a b => clash b a = false)) : greedy clash l = l :=
  greedyFrom_eq_self l [] h

end Greedy

-- ============================================== the boundary sweep

/-- Walk the candidates from the left and keep each one that starts at or
after the boundary, which then moves to its end. -/
def sweepFrom (start stop : α → Nat) : Nat → List α → List α
  | _, [] => []
  | boundary, a :: l =>
      if start a < boundary then sweepFrom start stop boundary l
      else a :: sweepFrom start stop (stop a) l

/-- The sweep from the left end. -/
def sweep (start stop : α → Nat) (l : List α) : List α :=
  sweepFrom start stop 0 l

section Sweep

variable {start stop : α → Nat}

theorem sweepFrom_sublist (l : List α) :
    ∀ boundary, (sweepFrom start stop boundary l).Sublist l := by
  induction l with
  | nil =>
      intro boundary
      exact List.Sublist.refl _
  | cons a l ih =>
      intro boundary
      unfold sweepFrom
      split
      · exact (ih boundary).cons a
      · exact (ih (stop a)).cons_cons a

theorem sweep_sublist (l : List α) : (sweep start stop l).Sublist l :=
  sweepFrom_sublist l 0

theorem mem_of_mem_sweep {l : List α} {a : α} (ha : a ∈ sweep start stop l) :
    a ∈ l :=
  (sweep_sublist l).subset ha

/-- Nothing kept starts before the boundary. -/
theorem boundary_le_of_mem_sweepFrom (hlen : ∀ a, start a ≤ stop a)
    (l : List α) :
    ∀ boundary, ∀ a ∈ sweepFrom start stop boundary l,
      boundary ≤ start a := by
  induction l with
  | nil =>
      intro boundary a ha
      exact absurd ha (List.not_mem_nil)
  | cons b l ih =>
      intro boundary a ha
      unfold sweepFrom at ha
      split at ha
      · exact ih boundary a ha
      · rcases List.mem_cons.mp ha with rfl | ha
        · omega
        · have := ih (stop b) a ha
          have := hlen b
          omega

/-- The kept candidates stand one after the other. -/
theorem sweepFrom_chain (hlen : ∀ a, start a ≤ stop a) (l : List α) :
    ∀ boundary, (sweepFrom start stop boundary l).Pairwise
      (fun a b => stop a ≤ start b) := by
  induction l with
  | nil =>
      intro boundary
      exact List.Pairwise.nil
  | cons a l ih =>
      intro boundary
      unfold sweepFrom
      split
      · exact ih boundary
      · exact List.pairwise_cons.mpr
          ⟨boundary_le_of_mem_sweepFrom hlen l (stop a), ih (stop a)⟩

theorem sweep_chain (hlen : ∀ a, start a ≤ stop a) (l : List α) :
    (sweep start stop l).Pairwise (fun a b => stop a ≤ start b) :=
  sweepFrom_chain hlen l 0

/-- Over candidates listed best-first under `better`: a candidate is kept,
starts inside a better one that is, or starts before the boundary. -/
theorem sweepFrom_covers {better : α → α → Prop} (l : List α) :
    ∀ boundary, l.Pairwise better → ∀ a ∈ l,
      a ∈ sweepFrom start stop boundary l ∨ start a < boundary ∨
        ∃ k ∈ sweepFrom start stop boundary l,
          better k a ∧ start a < stop k := by
  induction l with
  | nil =>
      intro boundary _ a ha
      exact absurd ha (List.not_mem_nil)
  | cons b l ih =>
      intro boundary hord a ha
      obtain ⟨hb, hord⟩ := List.pairwise_cons.mp hord
      unfold sweepFrom
      split
      · rename_i hlt
        rcases List.mem_cons.mp ha with rfl | ha
        · exact Or.inr (Or.inl hlt)
        · exact ih boundary hord a ha
      · rcases List.mem_cons.mp ha with rfl | ha
        · exact Or.inl List.mem_cons_self
        · rcases ih (stop b) hord a ha with h | h | ⟨k, hk, h⟩
          · exact Or.inl (List.mem_cons_of_mem _ h)
          · exact Or.inr (Or.inr ⟨b, List.mem_cons_self, hb a ha, h⟩)
          · exact Or.inr (Or.inr ⟨k, List.mem_cons_of_mem _ hk, h⟩)

/-- Over a list sorted best-first, a dropped candidate starts inside a
better one that is kept. -/
theorem sweep_covers {better : α → α → Prop} {l : List α}
    (hord : l.Pairwise better) {a : α} (ha : a ∈ l) :
    a ∈ sweep start stop l ∨
      ∃ k ∈ sweep start stop l, better k a ∧ start a < stop k := by
  have hcovers : a ∈ sweep start stop l ∨ start a < 0 ∨
      ∃ k ∈ sweep start stop l, better k a ∧ start a < stop k :=
    sweepFrom_covers l 0 hord a ha
  rcases hcovers with h | h | h
  · exact Or.inl h
  · exact absurd h (Nat.not_lt_zero _)
  · exact Or.inr h

/-- Candidates that already stand one after the other are all kept. -/
theorem sweepFrom_eq_self (l : List α) :
    ∀ boundary, (∀ a ∈ l, boundary ≤ start a) →
      l.Pairwise (fun a b => stop a ≤ start b) →
      sweepFrom start stop boundary l = l := by
  induction l with
  | nil =>
      intro boundary _ _
      rfl
  | cons a l ih =>
      intro boundary hge hchain
      obtain ⟨ha, hchain⟩ := List.pairwise_cons.mp hchain
      have hstart := hge a List.mem_cons_self
      unfold sweepFrom
      rw [if_neg (by omega), ih (stop a) ha hchain]

theorem sweep_eq_self {l : List α}
    (hchain : l.Pairwise (fun a b => stop a ≤ start b)) :
    sweep start stop l = l :=
  sweepFrom_eq_self l 0 (fun _ _ => Nat.zero_le _) hchain

end Sweep

end Selection
