/-
Kernels of a ranked clash relation.

Members of a set compete in the order of their rank. A kernel keeps a
member exactly when it clashes with nothing kept before it. Where ranks
are well founded there is at most one kernel, by induction on the rank;
and the greedy walk over a list in the order of its ranks is one. So what
the walk keeps depends on the members of the list alone, not on how often
or in which order they are listed.
-/
import Mathlib.Order.WellFoundedSet
import PrivacyGateway.Lib.Selection

namespace Selection

variable {α κ : Type} [LinearOrder κ]

/-- Nothing outside the set is kept, and a member is kept exactly when it
clashes with nothing kept before it. -/
structure IsKernel (rank : α → κ) (clash : α → α → Bool)
    (members kept : Set α) : Prop where
  subset : kept ⊆ members
  mem_iff : ∀ a ∈ members,
    a ∈ kept ↔ ∀ k ∈ kept, rank k < rank a → clash a k = false

variable {rank : α → κ} {clash : α → α → Bool} {members kept other : Set α}

/-- Two kernels decide alike, from the best member on. -/
theorem IsKernel.unique
    (hwf : members.WellFoundedOn (fun a b => rank a < rank b))
    (h : IsKernel rank clash members kept)
    (h' : IsKernel rank clash members other) : kept = other := by
  have hsame : ∀ a ∈ members, a ∈ kept ↔ a ∈ other := by
    intro a ha
    refine hwf.induction (P := fun a => a ∈ kept ↔ a ∈ other) ha ?_
    intro a ha ih
    rw [h.mem_iff a ha, h'.mem_iff a ha]
    constructor
    · intro hclear k hk hlt
      exact hclear k ((ih k (h'.subset hk) hlt).mpr hk) hlt
    · intro hclear k hk hlt
      exact hclear k ((ih k (h.subset hk) hlt).mp hk) hlt
  ext a
  exact ⟨fun ha => (hsame a (h.subset ha)).mp ha,
    fun ha => (hsame a (h'.subset ha)).mpr ha⟩

/-- The members of a list are finitely many, so they have one kernel at
most. -/
theorem IsKernel.unique_of_list {l : List α}
    (h : IsKernel rank clash {a | a ∈ l} kept)
    (h' : IsKernel rank clash {a | a ∈ l} other) : kept = other := by
  have hstrict : IsStrictOrder α (fun a b => rank a < rank b) :=
    { irrefl := fun a => lt_irrefl (rank a)
      trans := fun _ _ _ => lt_trans }
  exact h.unique l.finite_toSet.wellFoundedOn h'

/-- The walk over a list in the order of its ranks keeps the kernel of its
members, where no two members share a rank. -/
theorem greedy_isKernel {l : List α}
    (hsymm : ∀ a b, clash a b = clash b a)
    (hrank : ∀ a ∈ l, ∀ b ∈ l, rank a = rank b → a = b)
    (hsorted : l.Pairwise (fun a b => rank a ≤ rank b)) :
    IsKernel rank clash {a | a ∈ l} {a | a ∈ greedy clash l} := by
  refine ⟨fun a ha => mem_of_mem_greedy ha, fun a ha => ⟨?_, ?_⟩⟩
  · intro hkept k hk hlt
    have hne : a ≠ k := by
      rintro rfl
      exact lt_irrefl _ hlt
    have hsymmetric : Std.Symm (fun a b => clash a b = false) :=
      ⟨fun a b h => (hsymm b a).trans h⟩
    exact (greedy_pairwise hsymm l).forall hkept hk hne
  · intro hclear
    rcases greedy_covers hsorted ha with hkept | ⟨k, hk, hclash, hle⟩
    · exact hkept
    · rcases lt_or_eq_of_le hle with hlt | heq
      · rw [hclear k hk hlt] at hclash
        cases hclash
      · rw [hrank a ha k (mem_of_mem_greedy hk) heq.symm]
        exact hk

/-- A member left out clashes with one kept before it. -/
theorem IsKernel.covers (h : IsKernel rank clash members kept) {a : α}
    (ha : a ∈ members) (hout : a ∉ kept) :
    ∃ k ∈ kept, rank k < rank a ∧ clash a k = true := by
  by_contra hnone
  refine hout ((h.mem_iff a ha).mpr ?_)
  intro k hk hlt
  cases hclash : clash a k with
  | false => rfl
  | true => exact absurd ⟨k, hk, hlt, hclash⟩ hnone

/-- Worse copies of members change nothing: a copy clashes with the member
it copies, which precedes it, and with all that the member clashes with. -/
theorem IsKernel.with_copies {best : Set α}
    (h : IsKernel rank clash best kept) (hbest : best ⊆ members)
    (hcopies : ∀ a ∈ members, a ∉ best → ∃ b ∈ best, rank b < rank a ∧
      clash a b = true ∧ ∀ k, clash b k = true → clash a k = true) :
    IsKernel rank clash members kept := by
  refine ⟨h.subset.trans hbest, fun a ha => ?_⟩
  by_cases hmem : a ∈ best
  · exact h.mem_iff a hmem
  · constructor
    · intro hkept
      exact absurd (h.subset hkept) hmem
    · intro hclear
      exfalso
      obtain ⟨b, hb, hlt, hclash, hsame⟩ := hcopies a ha hmem
      by_cases hkept : b ∈ kept
      · rw [hclear b hkept hlt] at hclash
        cases hclash
      · obtain ⟨k, hk, hbefore, hover⟩ := h.covers hb hkept
        have hno := hclear k hk (hbefore.trans hlt)
        rw [hsame k hover] at hno
        cases hno

/-- Where no member that clashes with one before it comes itself before one
it clashes with, the kernel is the members that clash with none before
them. -/
theorem IsKernel.mem_iff_of_flat (h : IsKernel rank clash members kept)
    (hflat : ∀ f ∈ members, ∀ a ∈ members, rank f < rank a →
      clash a f = true → ∀ g ∈ members, rank g < rank f →
        clash f g = false) {a : α} (ha : a ∈ members) :
    a ∈ kept ↔ ∀ f ∈ members, rank f < rank a → clash a f = false := by
  constructor
  · intro hkept f hf hlt
    by_contra hclash
    have hclash : clash a f = true := by simpa using hclash
    have hin : f ∈ kept := (h.mem_iff f hf).mpr
      (fun g hg => hflat f hf a ha hlt hclash g (h.subset hg))
    rw [(h.mem_iff a ha).mp hkept f hin hlt] at hclash
    cases hclash
  · intro hclear
    exact (h.mem_iff a ha).mpr (fun k hk => hclear k (h.subset hk))

/-- What is kept of some of the members is their kernel exactly when each
of them that clashes with something kept before it clashes with one of
them that is. -/
theorem IsKernel.inter_iff (h : IsKernel rank clash members kept)
    (some : Set α) :
    IsKernel rank clash (members ∩ some) (kept ∩ some) ↔
      ∀ a ∈ members ∩ some,
        (∃ k ∈ kept, rank k < rank a ∧ clash a k = true) →
          ∃ k ∈ kept ∩ some, rank k < rank a ∧ clash a k = true := by
  constructor
  · rintro hsome a ha ⟨k, hk, hlt, hclash⟩
    have hout : a ∉ kept ∩ some := by
      intro hin
      rw [(h.mem_iff a ha.1).mp hin.1 k hk hlt] at hclash
      cases hclash
    exact hsome.covers ha hout
  · intro hcovers
    refine ⟨Set.inter_subset_inter_left some h.subset,
      fun a ha => ⟨?_, ?_⟩⟩
    · intro hin k hk hlt
      exact (h.mem_iff a ha.1).mp hin.1 k hk.1 hlt
    · intro hclear
      by_contra hout
      have hdropped : a ∉ kept := fun hkept => hout ⟨hkept, ha.2⟩
      obtain ⟨k, hk, hlt, hclash⟩ := hcovers a ha (h.covers ha.1 hdropped)
      rw [hclear k hk hlt] at hclash
      cases hclash

end Selection
