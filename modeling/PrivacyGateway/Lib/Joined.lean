/-
Texts joined by a separator.

A separator whose first element is in none of the parts shows where each
part ends, so the parts are what was joined (`intercalate_inj`).
-/
import Mathlib.Data.List.Basic

namespace Joined

variable {α : Type}

/-- A mark that stands in neither part before it shows where they end. -/
theorem split_unique {mark : α} {before : List α} :
    ∀ {before' after after' : List α}, mark ∉ before → mark ∉ before' →
      before ++ mark :: after = before' ++ mark :: after' →
        before = before' ∧ after = after' := by
  induction before with
  | nil =>
      intro before' after after' _ h' heq
      cases before' with
      | nil => exact ⟨rfl, (List.cons.inj heq).2⟩
      | cons a before' =>
          exact absurd ((List.cons.inj heq).1 ▸ List.mem_cons_self) h'
  | cons a before ih =>
      intro before' after after' h h' heq
      cases before' with
      | nil => exact absurd ((List.cons.inj heq).1 ▸ List.mem_cons_self) h
      | cons b before' =>
          obtain ⟨hhead, htail⟩ := List.cons.inj heq
          obtain ⟨hbefore, hafter⟩ := ih
            (fun hmem => h (List.mem_cons_of_mem _ hmem))
            (fun hmem => h' (List.mem_cons_of_mem _ hmem)) htail
          exact ⟨by rw [hhead, hbefore], hafter⟩

/-- Parts without the separator's first element are what was joined. -/
theorem intercalate_inj {mark : α} {rest : List α} {parts : List (List α)} :
    ∀ {parts' : List (List α)}, parts ≠ [] → parts' ≠ [] →
      (∀ part ∈ parts, mark ∉ part) → (∀ part ∈ parts', mark ∉ part) →
        (mark :: rest).intercalate parts =
            (mark :: rest).intercalate parts' →
          parts = parts' := by
  induction parts with
  | nil => exact fun hne _ _ _ _ => absurd rfl hne
  | cons part parts ih =>
      intro parts' _ hne' h h' heq
      cases parts' with
      | nil => exact absurd rfl hne'
      | cons part' parts' =>
          obtain ⟨hpart, hparts⟩ := List.forall_mem_cons.mp h
          obtain ⟨hpart', hparts'⟩ := List.forall_mem_cons.mp h'
          by_cases hnil : parts = []
          · by_cases hnil' : parts' = []
            · rw [hnil, hnil', List.intercalate_singleton,
                List.intercalate_singleton] at heq
              rw [hnil, hnil', heq]
            · -- the second has a separator and the first has none
              rw [hnil, List.intercalate_singleton,
                List.intercalate_cons_of_ne_nil hnil'] at heq
              exact absurd (heq ▸ by simp) hpart
          · by_cases hnil' : parts' = []
            · rw [hnil', List.intercalate_singleton,
                List.intercalate_cons_of_ne_nil hnil] at heq
              exact absurd (heq ▸ by simp) hpart'
            · rw [List.intercalate_cons_of_ne_nil hnil,
                List.intercalate_cons_of_ne_nil hnil', List.append_assoc,
                List.append_assoc] at heq
              obtain ⟨hfirst, hrest⟩ := split_unique hpart hpart' heq
              rw [hfirst, ih hnil hnil' hparts hparts'
                (List.append_cancel_left hrest)]

end Joined
