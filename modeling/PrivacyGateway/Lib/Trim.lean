/-
Cutting off what a predicate holds of at both ends of a list.

`trim_spec` says what is left and what went, `trim_append` that nothing
else could be left: the middle of such a split is the trimmed list as soon
as it is `Tight`.
-/
import Mathlib.Data.List.TakeWhile

namespace Trim

variable {α : Type} {p : α → Bool}

def trim (p : α → Bool) (l : List α) : List α :=
  ((l.dropWhile p).reverse.dropWhile p).reverse

/-- Neither end of the list is to be cut off. -/
def Tight (p : α → Bool) (l : List α) : Prop :=
  (∀ a ∈ l.head?, p a = false) ∧ ∀ a ∈ l.getLast?, p a = false

/-- A list without such elements is tight. -/
theorem tight_of_forall {l : List α} (h : ∀ a ∈ l, p a = false) :
    Tight p l :=
  ⟨fun a ha => h a (List.mem_of_mem_head? ha),
    fun a ha => h a (List.mem_of_getLast? ha)⟩

theorem dropWhile_head (l : List α) :
    ∀ a ∈ (l.dropWhile p).head?, p a = false := by
  intro a ha
  have hnot := List.head?_dropWhile_not p l
  rw [Option.mem_def.mp ha] at hnot
  exact hnot

theorem dropWhile_eq_self {l : List α} (h : ∀ a ∈ l.head?, p a = false) :
    l.dropWhile p = l := by
  cases l with
  | nil => rfl
  | cons a l =>
      rw [List.dropWhile_cons_of_neg]
      rw [h a rfl]
      decide

theorem trim_spec (l : List α) :
    ∃ before after, l = before ++ (trim p l ++ after) ∧
      (∀ a ∈ before, p a = true) ∧ (∀ a ∈ after, p a = true) ∧
      Tight p (trim p l) := by
  have hrest : l.dropWhile p =
      trim p l ++ ((l.dropWhile p).reverse.takeWhile p).reverse := by
    unfold trim
    rw [← List.reverse_append, List.takeWhile_append_dropWhile,
      List.reverse_reverse]
  refine ⟨l.takeWhile p, ((l.dropWhile p).reverse.takeWhile p).reverse, ?_,
    ?_, ?_, ?_, ?_⟩
  · rw [← hrest, List.takeWhile_append_dropWhile]
  · exact fun a ha => List.all_eq_true.mp List.all_takeWhile a ha
  · intro a ha
    exact List.all_eq_true.mp List.all_takeWhile a (List.mem_reverse.mp ha)
  · -- what is left begins where the list without its first part does
    intro a ha
    apply dropWhile_head l
    rw [hrest, List.head?_append, Option.mem_def.mp ha]
    rfl
  · intro a ha
    unfold trim at ha
    rw [List.getLast?_reverse] at ha
    exact dropWhile_head _ a ha

theorem trim_append {before mid after : List α}
    (hbefore : ∀ a ∈ before, p a = true) (hafter : ∀ a ∈ after, p a = true)
    (hmid : Tight p mid) : trim p (before ++ (mid ++ after)) = mid := by
  unfold trim
  rw [List.dropWhile_append_of_pos hbefore]
  by_cases hnil : mid = []
  · have hall : after.dropWhile p = [] :=
      List.dropWhile_eq_nil_iff.mpr hafter
    rw [hnil, List.nil_append, hall]
    rfl
  · have hhead : ∀ a ∈ (mid ++ after).head?, p a = false := by
      obtain ⟨a, rest, rfl⟩ := List.exists_cons_of_ne_nil hnil
      exact hmid.1
    have hlast : ∀ a ∈ mid.reverse.head?, p a = false := by
      rw [List.head?_reverse]
      exact hmid.2
    rw [dropWhile_eq_self hhead, List.reverse_append,
      List.dropWhile_append_of_pos (fun a ha =>
        hafter a (List.mem_reverse.mp ha)),
      dropWhile_eq_self hlast, List.reverse_reverse]

end Trim
