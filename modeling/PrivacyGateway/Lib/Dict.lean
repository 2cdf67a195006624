/-
Insertion-ordered dictionaries.

A dictionary is its list of entries. Assigning to a key that is there
replaces the value where it stands; assigning to a new key appends. This
is the order in which such a dictionary is iterated.
-/
import Mathlib.Data.List.Basic

/-- A dictionary: its entries in insertion order. -/
abbrev Dict (κ ν : Type) := List (κ × ν)

namespace Dict

variable {κ ν : Type} [DecidableEq κ]

def get? : Dict κ ν → κ → Option ν
  | [], _ => none
  | e :: d, k => if e.1 = k then some e.2 else get? d k

def set : Dict κ ν → κ → ν → Dict κ ν
  | [], k, v => [(k, v)]
  | e :: d, k, v => if e.1 = k then (k, v) :: d else e :: set d k v

def keys (d : Dict κ ν) : List κ :=
  d.map Prod.fst

/-- `pop(k, None)`. -/
def erase (d : Dict κ ν) (k : κ) : Dict κ ν :=
  d.filter (fun e => e.1 ≠ k)

@[simp] theorem get?_nil (k : κ) : get? ([] : Dict κ ν) k = none := rfl

theorem get?_set (d : Dict κ ν) (k k' : κ) (v : ν) :
    get? (set d k v) k' = if k = k' then some v else get? d k' := by
  induction d with
  | nil => rfl
  | cons e d ih =>
      unfold set
      by_cases he : e.1 = k
      · rw [if_pos he]
        by_cases hk : k = k'
        · simp [get?, hk]
        · have : ¬ e.1 = k' := by rwa [he]
          simp [get?, hk, this]
      · rw [if_neg he, get?, ih]
        by_cases hk' : e.1 = k'
        · have : ¬ k = k' := fun h => he (hk'.trans h.symm)
          simp [get?, hk', this]
        · simp [get?, hk']

@[simp] theorem get?_set_self (d : Dict κ ν) (k : κ) (v : ν) :
    get? (set d k v) k = some v := by
  rw [get?_set, if_pos rfl]

theorem get?_set_ne (d : Dict κ ν) {k k' : κ} (v : ν) (h : k ≠ k') :
    get? (set d k v) k' = get? d k' := by
  rw [get?_set, if_neg h]

theorem get?_erase (d : Dict κ ν) (k k' : κ) :
    get? (erase d k) k' = if k = k' then none else get? d k' := by
  unfold erase
  induction d with
  | nil => simp
  | cons e d ih =>
      by_cases he : e.1 = k
      · rw [List.filter_cons_of_neg (by simpa using he), ih, get?]
        by_cases hk : k = k'
        · rw [if_pos hk, if_pos hk]
        · have : ¬ e.1 = k' := by rwa [he]
          rw [if_neg hk, if_neg hk, if_neg this]
      · rw [List.filter_cons_of_pos (by simpa using he), get?, ih, get?]
        by_cases hk' : e.1 = k'
        · have : ¬ k = k' := fun h => he (hk'.trans h.symm)
          rw [if_pos hk', if_neg this, if_pos hk']
        · rw [if_neg hk', if_neg hk']

theorem get?_of_erase {d : Dict κ ν} {k k' : κ} {v : ν}
    (h : get? (erase d k) k' = some v) : get? d k' = some v := by
  rw [get?_erase] at h
  split at h
  · cases h
  · exact h

/-- The entries after an assignment: the one assigned, or old ones. -/
theorem mem_set {d : Dict κ ν} {k : κ} {v : ν} {e : κ × ν}
    (h : e ∈ set d k v) : e = (k, v) ∨ e ∈ d := by
  induction d with
  | nil => exact Or.inl (List.mem_singleton.mp h)
  | cons first d ih =>
      unfold set at h
      by_cases hfirst : first.1 = k
      · rw [if_pos hfirst] at h
        rcases List.mem_cons.mp h with rfl | h
        · exact Or.inl rfl
        · exact Or.inr (List.mem_cons_of_mem _ h)
      · rw [if_neg hfirst] at h
        rcases List.mem_cons.mp h with rfl | h
        · exact Or.inr List.mem_cons_self
        · rcases ih h with hnew | hold
          · exact Or.inl hnew
          · exact Or.inr (List.mem_cons_of_mem _ hold)

/-- A looked-up value is an entry's. -/
theorem mem_of_get? {d : Dict κ ν} {k : κ} {v : ν}
    (h : get? d k = some v) : (k, v) ∈ d := by
  induction d with
  | nil => cases h
  | cons e d ih =>
      unfold get? at h
      by_cases he : e.1 = k
      · rw [if_pos he] at h
        cases e
        cases h
        cases he
        exact List.mem_cons_self
      · rw [if_neg he] at h
        exact List.mem_cons_of_mem _ (ih h)

/-- A new key goes to the end. -/
theorem set_of_get?_none {d : Dict κ ν} {k : κ} (h : get? d k = none)
    (v : ν) : set d k v = d ++ [(k, v)] := by
  induction d with
  | nil => rfl
  | cons e d ih =>
      unfold get? at h
      unfold set
      by_cases hkey : e.1 = k
      · rw [if_pos hkey] at h
        cases h
      · rw [if_neg hkey] at h ⊢
        rw [ih h]
        rfl

/-- Of two assignments to a key the second stays. -/
theorem set_set (d : Dict κ ν) (k : κ) (v w : ν) :
    set (set d k v) k w = set d k w := by
  induction d with
  | nil => simp [set]
  | cons e d ih =>
      by_cases he : e.1 = k
      · simp [set, he]
      · simp [set, he, ih]

/-- A new key that is removed leaves the dictionary as it was. -/
theorem erase_set {d : Dict κ ν} {k : κ} (h : get? d k = none) (v : ν) :
    erase (set d k v) k = d := by
  induction d with
  | nil => simp [set, erase]
  | cons e d ih =>
      unfold get? at h
      by_cases he : e.1 = k
      · rw [if_pos he] at h
        cases h
      · rw [if_neg he] at h
        have hrest := ih h
        unfold erase at hrest ⊢
        rw [set, if_neg he, List.filter_cons_of_pos (by simpa using he),
          hrest]

theorem get?_eq_none_iff {d : Dict κ ν} {k : κ} :
    get? d k = none ↔ k ∉ keys d := by
  induction d with
  | nil => simp [get?, keys]
  | cons e d ih =>
      by_cases he : e.1 = k
      · simp [get?, keys, he]
      · have hne : ¬ k = e.1 := fun h => he h.symm
        rw [get?, if_neg he, ih]
        simp [keys, hne]

/-- An assignment adds at most its own key. -/
theorem mem_keys_set {d : Dict κ ν} {k k' : κ} {v : ν} :
    k' ∈ keys (set d k v) ↔ k' = k ∨ k' ∈ keys d := by
  induction d with
  | nil => simp [set, keys]
  | cons e d ih =>
      unfold set
      by_cases he : e.1 = k
      · rw [if_pos he]
        simp [keys, he]
      · rw [if_neg he]
        unfold keys at ih ⊢
        rw [List.map_cons, List.mem_cons, ih, List.map_cons, List.mem_cons]
        tauto

theorem nodup_keys_set {d : Dict κ ν} (hd : (keys d).Nodup) (k : κ)
    (v : ν) : (keys (set d k v)).Nodup := by
  induction d with
  | nil => simp [set, keys]
  | cons e d ih =>
      obtain ⟨hhead, htail⟩ := List.nodup_cons.mp hd
      unfold set
      by_cases he : e.1 = k
      · rw [if_pos he]
        rw [he] at hhead
        exact List.nodup_cons.mpr ⟨hhead, htail⟩
      · rw [if_neg he]
        refine List.nodup_cons.mpr ⟨fun hmem => ?_, ih htail⟩
        rcases mem_keys_set.mp hmem with h | h
        · exact he h
        · exact hhead h

/-- With distinct keys, an entry is what its key looks up. -/
theorem get?_eq_some_iff {d : Dict κ ν} (hd : (keys d).Nodup) {k : κ}
    {v : ν} : get? d k = some v ↔ (k, v) ∈ d := by
  induction d with
  | nil => simp
  | cons e d ih =>
      obtain ⟨hhead, htail⟩ := List.nodup_cons.mp hd
      unfold get?
      by_cases he : e.1 = k
      · rw [if_pos he]
        constructor
        · intro h
          cases e
          cases h
          cases he
          exact List.mem_cons_self
        · intro h
          rcases List.mem_cons.mp h with rfl | h
          · rfl
          · exact absurd (List.mem_map.mpr ⟨(k, v), h, rfl⟩) (he ▸ hhead)
      · rw [if_neg he, ih htail, List.mem_cons]
        constructor
        · exact Or.inr
        · intro h
          rcases h with rfl | h
          · exact absurd rfl he
          · exact h

/-- With distinct keys, the order of the entries does not matter. -/
theorem get?_of_perm {d d' : Dict κ ν} (hd : (keys d).Nodup)
    (h : d.Perm d') (k : κ) : get? d k = get? d' k := by
  have hd' : (keys d').Nodup := (h.map Prod.fst).nodup_iff.mp hd
  apply Option.ext
  intro v
  rw [get?_eq_some_iff hd, get?_eq_some_iff hd']
  exact h.mem_iff

/-- The entries whose value passes are looked up as the values that do. -/
theorem get?_filter {d : Dict κ ν} (hd : (keys d).Nodup) (p : ν → Bool)
    (k : κ) : get? (d.filter (fun e => p e.2)) k =
      (get? d k).filter p := by
  have hfiltered : (keys (d.filter (fun e => p e.2))).Nodup :=
    hd.sublist (List.filter_sublist.map Prod.fst)
  apply Option.ext
  intro v
  rw [get?_eq_some_iff hfiltered, List.mem_filter,
    Option.filter_eq_some_iff, get?_eq_some_iff hd]

/-- Looked up in order, the keys give the values. -/
theorem filterMap_get?_keys {d : Dict κ ν} (hd : (keys d).Nodup) :
    (keys d).filterMap (get? d) = d.map Prod.snd := by
  unfold keys
  rw [List.filterMap_map, ← List.filterMap_eq_map]
  apply List.filterMap_congr
  intro e he
  exact (get?_eq_some_iff hd).mpr he

end Dict
