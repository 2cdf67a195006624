/-
Two lists in step.

`List.Forall₂` relates two lists position by position. These lemmas read
one list off the other: an element of either has its partner, and a
function that agrees with the relation gives both the same image.
-/
import Mathlib.Data.List.Forall2

namespace Aligned

variable {α β γ : Type} {R : α → β → Prop} {l : List α} {l' : List β}

/-- A list whose elements all pass through a partial map is mapped
element by element. -/
theorem filterMap {f : α → Option β}
    (h : ∀ a ∈ l, ∃ b, f a = some b ∧ R a b) :
    List.Forall₂ R l (l.filterMap f) := by
  induction l with
  | nil => exact .nil
  | cons a l ih =>
      obtain ⟨⟨b, hb, hr⟩, hl⟩ := List.forall_mem_cons.mp h
      rw [List.filterMap_cons, hb]
      exact .cons hr (ih hl)

/-- Every element on the right is related to one on the left. -/
theorem exists_left (h : List.Forall₂ R l l') {b : β} (hb : b ∈ l') :
    ∃ a ∈ l, R a b := by
  induction h with
  | nil => exact absurd hb (List.not_mem_nil)
  | @cons a b' l l' hr _ ih =>
      rcases List.mem_cons.mp hb with rfl | hb
      · exact ⟨a, List.mem_cons_self, hr⟩
      · obtain ⟨a', ha', hr'⟩ := ih hb
        exact ⟨a', List.mem_cons_of_mem _ ha', hr'⟩

/-- Every element on the left is related to one on the right. -/
theorem exists_right (h : List.Forall₂ R l l') {a : α} (ha : a ∈ l) :
    ∃ b ∈ l', R a b := by
  obtain ⟨b, hb, hr⟩ := exists_left h.flip ha
  exact ⟨b, hb, hr⟩

/-- Elements at one position are related. -/
theorem getElem? (h : List.Forall₂ R l l') {i : Nat} {a : α} {b : β}
    (ha : l[i]? = some a) (hb : l'[i]? = some b) : R a b := by
  induction h generalizing i with
  | nil => cases ha
  | cons hr _ ih =>
      cases i with
      | zero =>
          cases ha
          cases hb
          exact hr
      | succ i => exact ih ha hb

/-- A function that agrees with the relation on the left list gives both
lists one image. -/
theorem map_eq (h : List.Forall₂ R l l') {f : α → γ} {g : β → γ}
    (hfg : ∀ a ∈ l, ∀ b, R a b → g b = f a) : l'.map g = l.map f := by
  induction h with
  | nil => rfl
  | @cons a b l l' hr _ ih =>
      obtain ⟨ha, hl⟩ := List.forall_mem_cons.mp hfg
      rw [List.map_cons, List.map_cons, ha b hr, ih hl]

/-- A list and its partner, each beside a third. -/
theorem zip (h : List.Forall₂ R l l') (cs : List γ) :
    List.Forall₂ (fun a b => R a.1 b.1 ∧ a.2 = b.2) (l.zip cs)
      (l'.zip cs) := by
  induction h generalizing cs with
  | nil => exact .nil
  | cons hr _ ih =>
      cases cs with
      | nil => exact .nil
      | cons c cs => exact .cons ⟨hr, rfl⟩ (ih cs)

theorem trans {S : β → γ → Prop} {l'' : List γ} (h : List.Forall₂ R l l')
    (h' : List.Forall₂ S l' l'') :
    List.Forall₂ (fun a c => ∃ b, R a b ∧ S b c) l l'' := by
  induction h generalizing l'' with
  | nil =>
      cases h'
      exact .nil
  | cons hr _ ih =>
      cases h' with
      | cons hs hrest => exact .cons ⟨_, hr, hs⟩ (ih hrest)

end Aligned
