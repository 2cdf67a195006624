/-
Patterns, matched the way a backtracking engine matches them.

`run` lists the ways a pattern can match from a position on, in the order
in which such an engine tries them: the first branch of an alternation
before the second, a repetition as far as it goes before any shorter one.
The match at a position is the first of them, and `finditer` takes matches
from the left, each from where the last one ended.

Only single elements are repeated without a bound, so the runs of a
pattern are computed by recursion on the pattern. There is one capture
group, and a pattern that `finditer` is given matches no empty range.

# What is used of it

- `of_mem_finditer`: a reported match is a run of the pattern;
- `run_forward`: a run ends no earlier than it begins;
- `run_one`, `run_word`: a fixed word is matched by the elements it is
  made of.
-/
import PrivacyGateway.Lib.Splice

namespace Regex

open Splice

variable {α : Type}

/-- A pattern over lists. -/
inductive Pattern (α : Type) where
  | empty
  | one (p : α → Bool)
  /-- As many as there are, up to `most`, and then fewer, down to
  `least`. -/
  | many (p : α → Bool) (least : Nat) (most : Option Nat)
  /-- Between an element of a word and one that is not. -/
  | boundary (word : α → Bool)
  | seq (first second : Pattern α)
  | alt (first second : Pattern α)
  /-- The capture group. -/
  | group (body : Pattern α)

/-- How far a run got, and what the group captured. -/
structure Thread where
  pos : Nat
  value : Option (Nat × Nat)
deriving DecidableEq

/-- The element at a position, if any, is one of a word. -/
def inWord (word : α → Bool) : Option α → Bool
  | some a => word a
  | none => false

/-- The element in front of a position, if any. -/
def elementBefore (xs : List α) (pos : Nat) : Option α :=
  if pos = 0 then none else xs[pos - 1]?

/-- How many elements from the position on satisfy the predicate, up to a
bound. -/
def runLength (p : α → Bool) (most : Option Nat) (xs : List α)
    (pos : Nat) : Nat :=
  let length := ((xs.drop pos).takeWhile p).length
  match most with
  | some bound => min bound length
  | none => length

/-- The ways to match from a thread on, the preferred one first. -/
def run (xs : List α) : Pattern α → Thread → List Thread
  | .empty, t => [t]
  | .one p, t =>
      match xs[t.pos]? with
      | some a => if p a then [{ t with pos := t.pos + 1 }] else []
      | none => []
  | .many p least most, t =>
      let length := runLength p most xs t.pos
      (List.range (length + 1 - least)).map
        (fun fewer => { t with pos := t.pos + (length - fewer) })
  | .boundary word, t =>
      if inWord word (elementBefore xs t.pos) = inWord word xs[t.pos]?
      then []
      else [t]
  | .seq first second, t => (run xs first t).flatMap (run xs second)
  | .alt first second, t => run xs first t ++ run xs second t
  | .group body, t =>
      (run xs body t).map
        (fun t' => { t' with value := some (t.pos, t'.pos) })

/-- A match: its range, and the range of the group where it took part. -/
structure Match where
  start : Nat
  stop : Nat
  value : Option (Nat × Nat)
deriving DecidableEq

/-- The match from a position on. -/
def matchAt (r : Pattern α) (xs : List α) (start : Nat) : Option Match :=
  (run xs r ⟨start, none⟩).head?.map (fun t => ⟨start, t.pos, t.value⟩)

/-- The matches from positions that the last one left. -/
def finditerFrom (r : Pattern α) (xs : List α) :
    Nat → List Nat → List Match
  | _, [] => []
  | cursor, start :: starts =>
      if start < cursor then finditerFrom r xs cursor starts
      else
        match matchAt r xs start with
        | none => finditerFrom r xs cursor starts
        | some found => found :: finditerFrom r xs found.stop starts

/-- All matches, from the left, none inside another. -/
def finditer (r : Pattern α) (xs : List α) : List Match :=
  finditerFrom r xs 0 (List.range (xs.length + 1))

/-- One pattern after the other. -/
def sequence : List (Pattern α) → Pattern α
  | [] => .empty
  | r :: rs => .seq r (sequence rs)

/-- Any of the patterns, the first preferred. -/
def choice (r : Pattern α) : List (Pattern α) → Pattern α
  | [] => r
  | r' :: rs => .alt r (choice r' rs)

/-- A word: one element after the other. -/
def word (ps : List (α → Bool)) : Pattern α :=
  sequence (ps.map .one)

/-- One pattern so many times over. -/
def times (r : Pattern α) : Nat → Pattern α
  | 0 => .empty
  | n + 1 => .seq r (times r n)

/-- As often as it goes up to a bound, and then less often. -/
def upTo (r : Pattern α) : Nat → Pattern α
  | 0 => .empty
  | n + 1 => .alt (.seq r (upTo r n)) .empty

/-- `(?:r){least,most}`. -/
def repeated (r : Pattern α) (least most : Nat) : Pattern α :=
  .seq (times r least) (upTo r (most - least))

-- ==================================================== what is reported

variable {r : Pattern α} {xs : List α}

theorem of_mem_finditerFrom {found : Match} (starts : List Nat) :
    ∀ {cursor}, found ∈ finditerFrom r xs cursor starts →
      ⟨found.stop, found.value⟩ ∈ run xs r ⟨found.start, none⟩ := by
  induction starts with
  | nil =>
      intro cursor h
      cases h
  | cons start starts ih =>
      intro cursor h
      unfold finditerFrom at h
      by_cases hcursor : start < cursor
      · rw [if_pos hcursor] at h
        exact ih h
      · rw [if_neg hcursor] at h
        cases hmatch : matchAt r xs start with
        | none =>
            rw [hmatch] at h
            exact ih h
        | some first =>
            rw [hmatch] at h
            rcases List.mem_cons.mp h with rfl | h
            · obtain ⟨t, ht, rfl⟩ := Option.map_eq_some_iff.mp hmatch
              exact List.mem_of_mem_head? ht
            · exact ih h

/-- A reported match is a run of the pattern from where it starts. -/
theorem of_mem_finditer {found : Match} (h : found ∈ finditer r xs) :
    ⟨found.stop, found.value⟩ ∈ run xs r ⟨found.start, none⟩ :=
  of_mem_finditerFrom _ h

-- ==================================================== runs

theorem run_boundary {word : α → Bool} {t t' : Thread}
    (h : t' ∈ run xs (.boundary word) t) : t' = t := by
  unfold run at h
  split at h
  · cases h
  · exact List.mem_singleton.mp h

/-- A run ends no earlier than it begins. -/
theorem run_forward (r : Pattern α) :
    ∀ {t t' : Thread}, t' ∈ run xs r t → t.pos ≤ t'.pos := by
  induction r with
  | empty =>
      intro t t' h
      cases List.mem_singleton.mp h
      exact Nat.le_refl _
  | one p =>
      intro t t' h
      unfold run at h
      split at h
      · split at h
        · rw [List.mem_singleton.mp h]
          exact Nat.le_succ _
        · cases h
      · cases h
  | many p least most =>
      intro t t' h
      obtain ⟨fewer, -, rfl⟩ := List.mem_map.mp h
      exact Nat.le_add_right _ _
  | boundary word =>
      intro t t' h
      cases run_boundary h
      exact Nat.le_refl _
  | seq first second hfirst hsecond =>
      intro t t' h
      obtain ⟨mid, hmid, hend⟩ := List.mem_flatMap.mp h
      exact Nat.le_trans (hfirst hmid) (hsecond hend)
  | alt first second hfirst hsecond =>
      intro t t' h
      rcases List.mem_append.mp h with h | h
      · exact hfirst h
      · exact hsecond h
  | group body hbody =>
      intro t t' h
      obtain ⟨inner, hinner, rfl⟩ := List.mem_map.mp h
      exact (show t.pos ≤ inner.pos from hbody hinner)

theorem run_one {p : α → Bool} {t t' : Thread}
    (h : t' ∈ run xs (.one p) t) :
    ∃ a, xs[t.pos]? = some a ∧ p a = true ∧ t'.pos = t.pos + 1 := by
  unfold run at h
  split at h
  · rename_i a ha
    split at h
    · rename_i hp
      rw [List.mem_singleton.mp h]
      exact ⟨a, ha, hp, rfl⟩
    · cases h
  · cases h

/-- A word is matched by as many elements, each of its own kind. -/
theorem run_word (ps : List (α → Bool)) :
    ∀ {t t' : Thread}, t' ∈ run xs (word ps) t →
      t'.pos = t.pos + ps.length ∧
        List.Forall₂ (fun p a => p a = true) ps
          ((xs.drop t.pos).take ps.length) := by
  induction ps with
  | nil =>
      intro t t' h
      rw [List.mem_singleton.mp h]
      exact ⟨rfl, .nil⟩
  | cons p ps ih =>
      intro t t' h
      obtain ⟨mid, hmid, hend⟩ := List.mem_flatMap.mp h
      obtain ⟨a, ha, hp, hpos⟩ := run_one hmid
      obtain ⟨hstop, hrest⟩ := ih hend
      rw [hpos] at hstop hrest
      obtain ⟨hlt, rfl⟩ := List.getElem?_eq_some_iff.mp ha
      rw [List.drop_eq_getElem_cons hlt, List.length_cons,
        List.take_succ_cons]
      exact ⟨by omega, .cons hp hrest⟩

end Regex
