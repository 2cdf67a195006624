/-
Counting with a dictionary.

`tally d keys` adds one to the count of each key in turn. What is in the
dictionary afterwards is told by the list of keys alone: a key is there
when it was counted, with the number of times it was (`mem_tally_iff`),
and the counts of the keys of a kind add up to how many keys were of that
kind (`sum_tally`).
-/
import Mathlib.Algebra.BigOperators.Group.List.Basic
import Mathlib.Algebra.GroupWithZero.Nat
import PrivacyGateway.Lib.Dict

namespace Dict

variable {κ : Type} [DecidableEq κ]

/-- `counts[key] = counts.get(key, 0) + 1`. -/
def bump (d : Dict κ Nat) (k : κ) : Dict κ Nat :=
  d.set k ((d.get? k).getD 0 + 1)

def tally (d : Dict κ Nat) (ks : List κ) : Dict κ Nat :=
  ks.foldl bump d

/-- How often a key is among those counted. -/
def times (ks : List κ) (k : κ) : Nat :=
  ks.countP (fun key => decide (key = k))

@[simp] theorem tally_nil (d : Dict κ Nat) : tally d [] = d := rfl

@[simp] theorem tally_cons (d : Dict κ Nat) (k : κ) (ks : List κ) :
    tally d (k :: ks) = tally (bump d k) ks := rfl

theorem tally_append (d : Dict κ Nat) (ks more : List κ) :
    tally d (ks ++ more) = tally (tally d ks) more :=
  List.foldl_append

theorem getD_tally (ks : List κ) (k : κ) :
    ∀ d : Dict κ Nat, ((tally d ks).get? k).getD 0 =
      (d.get? k).getD 0 + times ks k := by
  induction ks with
  | nil => exact fun d => rfl
  | cons first ks ih =>
      intro d
      unfold times
      rw [tally_cons, ih, List.countP_cons, bump, get?_set]
      unfold times
      by_cases hk : first = k
      · rw [if_pos hk, hk, if_pos (decide_eq_true rfl), Option.getD_some]
        omega
      · rw [if_neg hk, if_neg (by simpa using hk), Nat.add_zero]

theorem nodup_keys_tally (ks : List κ) :
    ∀ {d : Dict κ Nat}, (keys d).Nodup → (keys (tally d ks)).Nodup := by
  induction ks with
  | nil => exact fun h => h
  | cons first ks ih =>
      intro d h
      exact ih (nodup_keys_set h _ _)

theorem pos_of_mem_tally (ks : List κ) :
    ∀ {d : Dict κ Nat}, (∀ e ∈ d, 0 < e.2) →
      ∀ e ∈ tally d ks, 0 < e.2 := by
  induction ks with
  | nil => exact fun h => h
  | cons first ks ih =>
      intro d h
      refine ih (fun e he => ?_)
      rcases mem_set he with rfl | he
      · exact Nat.succ_pos _
      · exact h e he

/-- A key is there when it was counted, with how often it was. -/
theorem mem_tally_iff {ks : List κ} {k : κ} {n : Nat} :
    (k, n) ∈ tally [] ks ↔ 0 < n ∧ n = times ks k := by
  have hnodup : (keys (tally ([] : Dict κ Nat) ks)).Nodup :=
    nodup_keys_tally ks List.nodup_nil
  have hcount := getD_tally ks k []
  rw [get?_nil, Option.getD_none, Nat.zero_add] at hcount
  rw [← get?_eq_some_iff hnodup]
  constructor
  · intro h
    rw [h, Option.getD_some] at hcount
    exact ⟨pos_of_mem_tally ks (fun e he => absurd he List.not_mem_nil)
      (k, n) (mem_of_get? h), hcount⟩
  · rintro ⟨hpos, hn⟩
    cases hget : (tally [] ks).get? k with
    | none =>
        rw [hget, Option.getD_none] at hcount
        omega
    | some found =>
        rw [hget, Option.getD_some] at hcount
        rw [hn, hcount]

/-- One more of a key adds one to the counts of its kind. -/
theorem sum_bump (p : κ → Bool) (d : Dict κ Nat) (k : κ) :
    (((bump d k).filter (fun e => p e.1)).map Prod.snd).sum =
      ((d.filter (fun e => p e.1)).map Prod.snd).sum +
        if p k then 1 else 0 := by
  unfold bump
  induction d with
  | nil =>
      cases hp : p k with
      | true => simp [set, hp]
      | false => simp [set, hp]
  | cons e d ih =>
      unfold set get?
      by_cases hkey : e.1 = k
      · rw [if_pos hkey, if_pos hkey]
        cases hp : p k with
        | true => simp [hkey, hp]; omega
        | false => simp [hkey, hp]
      · rw [if_neg hkey, if_neg hkey]
        cases hp : p e.1 with
        | true => simp only [List.filter_cons, hp, if_true, List.map_cons,
            List.sum_cons, ih]; omega
        | false =>
            rw [List.filter_cons_of_neg (by simp [hp]), ih,
              List.filter_cons_of_neg (by simp [hp])]

theorem sum_tally (p : κ → Bool) (ks : List κ) :
    ∀ d : Dict κ Nat,
      (((tally d ks).filter (fun e => p e.1)).map Prod.snd).sum =
        ((d.filter (fun e => p e.1)).map Prod.snd).sum + ks.countP p := by
  induction ks with
  | nil => exact fun d => rfl
  | cons k ks ih =>
      intro d
      rw [tally_cons, ih, sum_bump, List.countP_cons]
      omega

end Dict
