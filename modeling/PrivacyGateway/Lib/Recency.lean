/-
Entries in the order in which their keys were last touched.

`order` keeps every key that was ever touched, `newest` the last so many
of a list. A table that touches keys and keeps the newest is the newest of
the whole order (`newest_touch`), so what it forgets does not depend on
what it forgot before; and a key is among the newest exactly when fewer
other keys were touched after it (`get?_newest_iff`).
-/
import Mathlib.Data.List.Dedup
import Mathlib.Data.List.Induction
import Mathlib.Data.List.Perm.Subperm
import PrivacyGateway.Lib.Dict

namespace Recency

variable {κ ν : Type} [DecidableEq κ]

/-- The entry goes to the end, in place of the one its key had. -/
def touch (l : Dict κ ν) (e : κ × ν) : Dict κ ν :=
  l.erase e.1 ++ [e]

/-- All keys, the one touched last at the end. -/
def order (touches : List (κ × ν)) : Dict κ ν :=
  touches.foldl touch []

/-- The last so many. -/
def newest {α : Type} (n : Nat) (l : List α) : List α :=
  l.drop (l.length - n)

theorem length_newest {α : Type} (n : Nat) (l : List α) :
    (newest n l).length ≤ n := by
  unfold newest
  rw [List.length_drop]
  omega

theorem newest_append {α : Type} {n : Nat} (a : List α) {b : List α}
    (h : n ≤ b.length) : newest n (a ++ b) = newest n b := by
  unfold newest
  rw [List.length_append, List.drop_append,
    List.drop_eq_nil_of_le (by omega), List.nil_append]
  congr 1
  omega

/-- A list that is not too long is its newest. -/
theorem newest_of_le {α : Type} {n : Nat} {l : List α} (h : l.length ≤ n) :
    newest n l = l := by
  unfold newest
  rw [Nat.sub_eq_zero_of_le h, List.drop_zero]

theorem newest_suffix {α : Type} (n : Nat) (l : List α) :
    newest n l <:+ l :=
  List.drop_suffix _ _

-- ==================================================== keys

theorem keys_erase (l : Dict κ ν) (k : κ) :
    (l.erase k).keys = l.keys.filter (fun k' => k' ≠ k) := by
  unfold Dict.erase Dict.keys
  rw [List.filter_map]
  rfl

theorem mem_keys_touch {l : Dict κ ν} {e : κ × ν} {k : κ} :
    k ∈ (touch l e).keys ↔ k = e.1 ∨ k ∈ l.keys := by
  unfold touch
  have hkeys : (l.erase e.1 ++ [e]).keys = (l.erase e.1).keys ++ [e.1] := by
    unfold Dict.keys
    rw [List.map_append, List.map_singleton]
  rw [hkeys, keys_erase, List.mem_append, List.mem_filter,
    List.mem_singleton]
  by_cases hk : k = e.1
  · simp [hk]
  · simp [hk]

theorem nodup_touch {l : Dict κ ν} (h : l.keys.Nodup) (e : κ × ν) :
    (touch l e).keys.Nodup := by
  unfold touch
  have hkeys : (l.erase e.1 ++ [e]).keys = (l.erase e.1).keys ++ [e.1] := by
    unfold Dict.keys
    rw [List.map_append, List.map_singleton]
  rw [hkeys, keys_erase, List.nodup_append]
  refine ⟨h.filter _, List.nodup_singleton _, fun a ha b hb => ?_⟩
  rw [List.mem_singleton.mp hb]
  simpa using (List.mem_filter.mp ha).2

theorem order_append (touches : List (κ × ν)) (e : κ × ν) :
    order (touches ++ [e]) = touch (order touches) e := by
  unfold order
  rw [List.foldl_append]
  rfl

theorem nodup_order (touches : List (κ × ν)) :
    (order touches).keys.Nodup := by
  induction touches using List.reverseRecOn with
  | nil => exact List.nodup_nil
  | append_singleton touches e ih =>
      rw [order_append]
      exact nodup_touch ih e

theorem mem_keys_order {touches : List (κ × ν)} {k : κ} :
    k ∈ (order touches).keys ↔ k ∈ touches.map Prod.fst := by
  induction touches using List.reverseRecOn with
  | nil => rfl
  | append_singleton touches e ih =>
      rw [order_append, mem_keys_touch, ih, List.map_append, List.mem_append,
        List.map_singleton, List.mem_singleton]
      exact or_comm

/-- A key that stands once goes with one entry. -/
theorem length_erase {l : Dict κ ν} (h : l.keys.Nodup) (k : κ) :
    l.length ≤ (l.erase k).length + 1 := by
  have hlen : ∀ d : Dict κ ν, d.length = d.keys.length := fun d => by
    unfold Dict.keys
    rw [List.length_map]
  rw [hlen, hlen, keys_erase]
  have hperm : l.keys.filter (fun k' => k' ≠ k) = l.keys.erase k := by
    rw [h.erase_eq_filter]
    refine List.filter_congr (fun k' _ => ?_)
    simp [Bool.beq_eq_decide_eq, bne]
  rw [hperm, List.length_erase]
  split
  · omega
  · omega

-- ==================================================== the newest

/-- Touching the newest, and then keeping the newest, is as good as
touching them all. -/
theorem newest_touch {l : Dict κ ν} (h : l.keys.Nodup) (n : Nat)
    (e : κ × ν) :
    newest n (touch (newest n l) e) = newest n (touch l e) := by
  by_cases hlen : l.length ≤ n
  · rw [newest_of_le hlen]
  · have hsplit : l = l.take (l.length - n) ++ newest n l :=
      (List.take_append_drop _ _).symm
    have hnodup : (Dict.keys (newest n l)).Nodup := by
      unfold Dict.keys
      exact h.sublist ((newest_suffix n l).sublist.map _)
    have hfull : (newest n l).length = n := by
      unfold newest
      rw [List.length_drop]
      omega
    have htouch : touch l e =
        Dict.erase (l.take (l.length - n)) e.1 ++ touch (newest n l) e := by
      conv_lhs => rw [hsplit]
      unfold touch Dict.erase
      rw [List.filter_append, List.append_assoc]
    rw [htouch, newest_append]
    have herase := length_erase hnodup e.1
    unfold touch
    rw [List.length_append, List.length_singleton]
    omega

/-- What was touched last of a key, and after it. -/
theorem exists_last_touch {touches : List (κ × ν)} {k : κ}
    (h : k ∈ touches.map Prod.fst) :
    ∃ before v after, touches = before ++ (k, v) :: after ∧
      k ∉ after.map Prod.fst := by
  induction touches using List.reverseRecOn with
  | nil => cases h
  | append_singleton touches e ih =>
      by_cases he : e.1 = k
      · exact ⟨touches, e.2, [], by rw [← he], List.not_mem_nil⟩
      · rw [List.map_append, List.mem_append] at h
        have hin := h.resolve_right (fun hk =>
          he (List.mem_singleton.mp hk).symm)
        obtain ⟨before, v, after, rfl, hafter⟩ := ih hin
        refine ⟨before, v, after ++ [e], by simp, ?_⟩
        rw [List.map_append, List.mem_append, not_or]
        exact ⟨hafter, fun hk => he (List.mem_singleton.mp hk).symm⟩

/-- Behind the last entry of a key stand the keys that were touched after
it, each once. -/
theorem order_split {before after : List (κ × ν)} {k : κ} {v : ν}
    (h : k ∉ after.map Prod.fst) :
    ∃ x y : Dict κ ν, order (before ++ (k, v) :: after) = x ++ (k, v) :: y ∧
      ∀ k', k' ∈ y.keys ↔ k' ∈ after.map Prod.fst := by
  induction after using List.reverseRecOn with
  | nil =>
      refine ⟨(order before).erase k, [], ?_, fun k' => Iff.rfl⟩
      rw [order_append]
      rfl
  | append_singleton after e ih =>
      rw [List.map_append, List.mem_append, not_or] at h
      obtain ⟨x, y, hxy, hkeys⟩ := ih h.1
      have hne : k ≠ e.1 := by
        intro hk
        apply h.2
        rw [hk]
        exact List.mem_singleton_self _
      refine ⟨x.erase e.1, touch y e, ?_, fun k' => ?_⟩
      · rw [← List.cons_append, ← List.append_assoc, order_append, hxy]
        unfold touch Dict.erase
        rw [List.filter_append, List.filter_cons_of_pos (by simpa using hne),
          List.append_assoc, List.cons_append]
      · rw [mem_keys_touch, hkeys, List.map_append, List.mem_append,
          List.map_singleton, List.mem_singleton]
        exact or_comm

/-- A key is among the newest exactly when fewer keys than that were
touched since it was. -/
theorem get?_newest_iff {touches : List (κ × ν)} {n : Nat} {k : κ} {v : ν} :
    Dict.get? (newest n (order touches)) k = some v ↔
      ∃ before after, touches = before ++ (k, v) :: after ∧
        k ∉ after.map Prod.fst ∧ (after.map Prod.fst).dedup.length < n := by
  have hnodup := nodup_order touches
  have hcount : ∀ {after : List (κ × ν)} {x y : Dict κ ν} {v : ν},
      order touches = x ++ (k, v) :: y →
      (∀ k', k' ∈ y.keys ↔ k' ∈ after.map Prod.fst) →
      y.length = (after.map Prod.fst).dedup.length := by
    intro after x y v hxy hkeys
    rw [hxy] at hnodup
    have hy : y.keys.Nodup := by
      unfold Dict.keys at hnodup ⊢
      rw [List.map_append, List.map_cons] at hnodup
      exact (List.nodup_cons.mp (List.nodup_append.mp hnodup).2.1).2
    have hperm : y.keys.Perm (after.map Prod.fst).dedup :=
      (List.perm_ext_iff_of_nodup hy (List.nodup_dedup _)).mpr
        (fun k' => by rw [hkeys, List.mem_dedup])
    rw [← hperm.length_eq]
    unfold Dict.keys
    rw [List.length_map]
  have hone : ∀ {d : Dict κ ν} {v v' : ν}, d.keys.Nodup → (k, v) ∈ d →
      (k, v') ∈ d → v = v' := by
    intro d v v' hd hv hv'
    have heq := List.inj_on_of_nodup_map hd hv hv' rfl
    exact (Prod.mk.inj heq).2
  constructor
  · intro h
    have hmem := Dict.mem_of_get? h
    have hall := (newest_suffix n _).subset hmem
    obtain ⟨before, v', after, rfl, hafter⟩ := exists_last_touch
      (mem_keys_order.mp (List.mem_map_of_mem hall))
    obtain ⟨x, y, hxy, hkeys⟩ := order_split (v := v') hafter
    have hthere : (k, v') ∈ order (before ++ (k, v') :: after) := by
      rw [hxy]
      exact List.mem_append_right _ List.mem_cons_self
    cases hone hnodup hall hthere
    refine ⟨before, after, rfl, hafter, ?_⟩
    rw [← hcount hxy hkeys]
    -- were there enough others, the newest would all be among them
    by_contra hlong
    rw [hxy, show x ++ (k, v) :: y = (x ++ [(k, v)]) ++ y by simp,
      newest_append _ (Nat.le_of_not_lt hlong)] at hmem
    exact hafter ((hkeys k).mp
      (List.mem_map_of_mem ((newest_suffix n y).subset hmem)))
  · intro h
    obtain ⟨before, after, rfl, hafter, hshort⟩ := h
    obtain ⟨x, y, hxy, hkeys⟩ := order_split (v := v) hafter
    have hlen := hcount hxy hkeys
    have hmem : (k, v) ∈ newest n (order (before ++ (k, v) :: after)) := by
      rw [hxy]
      unfold newest
      rw [List.drop_append_of_le_length (by
        rw [List.length_append, List.length_cons]
        omega)]
      exact List.mem_append_right _ List.mem_cons_self
    cases hget : Dict.get?
        (newest n (order (before ++ (k, v) :: after))) k with
    | none =>
        rw [Dict.get?_eq_none_iff] at hget
        exact absurd (List.mem_map_of_mem hmem) hget
    | some v' =>
        have hsub : (Dict.keys (newest n
            (order (before ++ (k, v) :: after)))).Nodup := by
          unfold Dict.keys at hnodup ⊢
          exact hnodup.sublist ((newest_suffix n _).sublist.map _)
        rw [hone hsub (Dict.mem_of_get? hget) hmem]

end Recency
