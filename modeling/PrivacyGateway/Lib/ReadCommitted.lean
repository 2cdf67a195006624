/-
Rows under read committed isolation.

A cell is one row: its committed version, and the version of a transaction
that has written the row and not committed yet. The writer reads what it
wrote, everyone else the committed version, and nobody else writes the row
until that transaction ends: the pending version is the lock.

`Obeys` is the invariant of a table whose writers keep to a relation
between what is committed and what is pending. It is established at the
write and needed at the commit; nothing in between can break it
(`Obeys.update`, `Obeys.commit`). `Everywhere` is what holds of every
version whatever becomes of it, and `Separate` says that no two rows share
a key.

`Locks` and `Awaits` are for a transaction that has written every row of a
kind: no other has (`Locks.exclusive`), and so what it leaves when it
commits can be said before (`Awaits.of_commit`). `Pends` is one row of it.
-/
import Mathlib.Data.List.Pairwise

namespace ReadCommitted

structure Cell (ι α : Type) where
  committed : Option α
  pending : Option (ι × Option α)
deriving DecidableEq

/-- What a writing statement comes to. -/
inductive Written (σ : Type)
  | waits
  | refused
  | writes (store : σ)

abbrev Store (ι α : Type) := List (Cell ι α)

variable {ι α κ : Type} [DecidableEq ι]

namespace Cell

/-- The version a transaction reads. -/
def seen (i : ι) (cell : Cell ι α) : Option α :=
  match cell.pending with
  | none => cell.committed
  | some (owner, version) => if owner = i then version else cell.committed

/-- Another transaction has written the row. -/
def isLocked (i : ι) (cell : Cell ι α) : Bool :=
  match cell.pending with
  | none => false
  | some (owner, _) => decide (owner ≠ i)

def isOwned (i : ι) (cell : Cell ι α) : Bool :=
  match cell.pending with
  | none => false
  | some (owner, _) => decide (owner = i)

def write (i : ι) (version : Option α) (cell : Cell ι α) : Cell ι α :=
  { cell with pending := some (i, version) }

def commit (i : ι) (cell : Cell ι α) : Cell ι α :=
  if cell.isOwned i then ⟨cell.seen i, none⟩ else cell

def rollback (i : ι) (cell : Cell ι α) : Cell ι α :=
  if cell.isOwned i then { cell with pending := none } else cell

/-- The rows a cell is or may become. -/
def versions (cell : Cell ι α) : List α :=
  cell.committed.toList ++ (cell.pending.bind Prod.snd).toList

/-- A row that is found takes a new version. -/
def update (i : ι) (found : α → Bool) (change : α → Option α)
    (cell : Cell ι α) : Cell ι α :=
  match cell.seen i with
  | none => cell
  | some row => if found row then cell.write i (change row) else cell

end Cell

namespace Store

/-- What a transaction reads. -/
def rows (i : ι) (store : Store ι α) : List α :=
  store.filterMap (Cell.seen i)

def committed (store : Store ι α) : List α :=
  store.filterMap Cell.committed

/-- A statement that updates or deletes the rows it finds. It waits while
another transaction has written one of them. -/
def update (i : ι) (found : α → Bool) (change : α → Option α)
    (store : Store ι α) : Written (Store ι α) :=
  if store.any (fun cell => cell.isLocked i && (cell.seen i).any found) then
    .waits
  else .writes (store.map (Cell.update i found change))

/-- A statement that inserts a row. It is refused where a row clashes, and
waits where one may. -/
def insert (i : ι) (clashes : α → Bool) (row : α) (store : Store ι α) :
    Written (Store ι α) :=
  if store.any (fun cell => !cell.isLocked i && (cell.seen i).any clashes)
  then .refused
  else if store.any (fun cell =>
      cell.isLocked i && cell.versions.any clashes) then .waits
  else .writes (store ++ [⟨none, some (i, some row)⟩])

def commit (i : ι) (store : Store ι α) : Store ι α :=
  store.map (Cell.commit i)

def rollback (i : ι) (store : Store ι α) : Store ι α :=
  store.map (Cell.rollback i)

end Store

-- ==================================================== cells

namespace Cell

variable {i : ι} {cell : Cell ι α} {version : Option α}

theorem isOwned_iff :
    cell.isOwned i = true ↔ ∃ version, cell.pending = some (i, version) := by
  unfold isOwned
  cases hpending : cell.pending with
  | none => simp
  | some written =>
      obtain ⟨owner, version⟩ := written
      simp

theorem seen_of_pending (h : cell.pending = some (i, version)) :
    cell.seen i = version := by
  unfold seen
  rw [h]
  exact if_pos rfl

theorem seen_of_not_owned (h : cell.isOwned i = false) :
    cell.seen i = cell.committed := by
  unfold isOwned at h
  unfold seen
  cases hpending : cell.pending with
  | none => rfl
  | some written =>
      rw [hpending] at h
      exact if_neg (of_decide_eq_false h)

theorem seen_mem_versions {row : α} (h : cell.seen i = some row) :
    row ∈ cell.versions := by
  unfold versions
  rw [List.mem_append, Option.mem_toList, Option.mem_toList]
  cases howned : cell.isOwned i with
  | false =>
      rw [seen_of_not_owned howned] at h
      exact Or.inl h
  | true =>
      obtain ⟨version, hpending⟩ := isOwned_iff.mp howned
      rw [seen_of_pending hpending] at h
      right
      rw [hpending]
      exact h

theorem commit_of_pending (h : cell.pending = some (i, version)) :
    cell.commit i = ⟨version, none⟩ := by
  unfold commit
  rw [if_pos (isOwned_iff.mpr ⟨_, h⟩), seen_of_pending h]

theorem commit_of_not_owned (h : cell.isOwned i = false) :
    cell.commit i = cell := by
  unfold commit
  rw [h]
  rfl

theorem not_owned_of_pending {owner : ι}
    (h : cell.pending = some (owner, version)) (hother : owner ≠ i) :
    cell.isOwned i = false := by
  unfold isOwned
  rw [h]
  exact decide_eq_false hother

omit [DecidableEq ι] in
theorem pending_mem_versions {owner : ι} {row : α}
    (h : cell.pending = some (owner, some row)) : row ∈ cell.versions := by
  unfold versions
  rw [List.mem_append, Option.mem_toList, Option.mem_toList, h]
  exact Or.inr rfl

omit [DecidableEq ι] in
theorem committed_mem_versions {row : α} (h : cell.committed = some row) :
    row ∈ cell.versions := by
  unfold versions
  rw [List.mem_append, Option.mem_toList]
  exact Or.inl h

/-- A found row is written, and the others stay. -/
theorem update_cases (i : ι) (found : α → Bool) (change : α → Option α)
    (cell : Cell ι α) :
    cell.update i found change = cell ∨
      ∃ row, cell.seen i = some row ∧ found row = true ∧
        cell.update i found change = cell.write i (change row) := by
  unfold update
  split
  · exact Or.inl rfl
  · rename_i row hseen
    by_cases hfound : found row = true
    · rw [if_pos hfound]
      exact Or.inr ⟨row, hseen, hfound, rfl⟩
    · rw [if_neg hfound]
      exact Or.inl rfl

theorem update_committed (found : α → Bool) (change : α → Option α) :
    (cell.update i found change).committed = cell.committed := by
  rcases update_cases i found change cell with h | ⟨row, -, -, h⟩
  · rw [h]
  · rw [h]
    rfl

theorem rollback_committed :
    (cell.rollback i).committed = cell.committed := by
  unfold rollback
  split <;> rfl

theorem rollback_of_not_owned (h : cell.isOwned i = false) :
    cell.rollback i = cell := by
  unfold rollback
  rw [h]
  rfl

theorem commit_pending {owner : ι}
    (h : (cell.commit i).pending = some (owner, version)) :
    cell.pending = some (owner, version) ∧ owner ≠ i := by
  cases howned : cell.isOwned i with
  | true =>
      obtain ⟨_, hpending⟩ := isOwned_iff.mp howned
      rw [commit_of_pending hpending] at h
      cases h
  | false =>
      rw [commit_of_not_owned howned] at h
      refine ⟨h, ?_⟩
      rintro rfl
      rw [isOwned_iff.mpr ⟨_, h⟩] at howned
      cases howned

theorem rollback_pending {owner : ι}
    (h : (cell.rollback i).pending = some (owner, version)) :
    cell.pending = some (owner, version) ∧ owner ≠ i := by
  unfold rollback at h
  by_cases howned : cell.isOwned i = true
  · rw [if_pos howned] at h
    cases h
  · rw [if_neg howned] at h
    refine ⟨h, ?_⟩
    rintro rfl
    exact howned (isOwned_iff.mpr ⟨_, h⟩)

end Cell

-- ==================================================== statements

namespace Store

variable {i : ι} {store store' : Store ι α} {row : α}

theorem update_ok {found : α → Bool} {change : α → Option α}
    (h : store.update i found change = .writes store') :
    store' = store.map (Cell.update i found change) ∧
      ∀ cell ∈ store, ∀ row, cell.seen i = some row → found row = true →
        cell.isLocked i = false := by
  unfold update at h
  split at h
  · cases h
  · rename_i hlocked
    cases h
    refine ⟨rfl, ?_⟩
    intro cell hcell row hseen hfound
    cases hcase : cell.isLocked i with
    | false => rfl
    | true =>
        refine absurd (List.any_eq_true.mpr ⟨cell, hcell, ?_⟩) hlocked
        rw [hcase, hseen, Option.any_some, hfound]
        rfl

theorem insert_ok {clashes : α → Bool}
    (h : store.insert i clashes row = .writes store') :
    store' = store ++ [⟨none, some (i, some row)⟩] := by
  unfold insert at h
  split at h
  · cases h
  · split at h
    · cases h
    · cases h
      rfl

/-- Of an inserted row and a row that is committed, or may be, neither
clashes with the other. -/
theorem insert_apart {clashes : α → Bool}
    (h : store.insert i clashes row = .writes store')
    (hfresh : ∀ cell ∈ store, cell.isOwned i = false) :
    ∀ cell ∈ store, ∀ other ∈ cell.versions, clashes other = false := by
  unfold insert at h
  split at h
  · cases h
  · rename_i hsettled
    split at h
    · cases h
    · rename_i hlocked
      intro cell hcell other hother
      cases hclash : clashes other with
      | false => rfl
      | true =>
          cases hcase : cell.isLocked i with
          | true =>
              refine absurd (List.any_eq_true.mpr ⟨cell, hcell, ?_⟩) hlocked
              rw [hcase, List.any_eq_true.mpr ⟨other, hother, hclash⟩]
              rfl
          | false =>
              refine absurd (List.any_eq_true.mpr ⟨cell, hcell, ?_⟩)
                hsettled
              have hpending : cell.pending = none := by
                have howned := hfresh cell hcell
                unfold Cell.isOwned at howned
                unfold Cell.isLocked at hcase
                cases hpending : cell.pending with
                | none => rfl
                | some written =>
                    rw [hpending] at howned hcase
                    simp only [decide_eq_false_iff_not] at howned
                    simp only [decide_eq_false_iff_not, not_not] at hcase
                    exact absurd hcase howned
              unfold Cell.versions at hother
              rw [hpending, Option.bind_none, Option.toList_none,
                List.append_nil, Option.mem_toList] at hother
              rw [hcase, Cell.seen_of_not_owned (hfresh cell hcell), hother,
                Option.any_some, hclash]
              rfl

theorem committed_update {found : α → Bool} {change : α → Option α}
    (h : store.update i found change = .writes store') :
    store'.committed = store.committed := by
  obtain ⟨rfl, -⟩ := update_ok h
  unfold committed
  rw [List.filterMap_map]
  congr 1
  funext cell
  exact Cell.update_committed found change

theorem committed_insert {clashes : α → Bool}
    (h : store.insert i clashes row = .writes store') :
    store'.committed = store.committed := by
  obtain rfl := insert_ok h
  unfold committed
  rw [List.filterMap_append]
  exact List.append_nil _

theorem committed_rollback : (store.rollback i).committed = store.committed := by
  unfold committed rollback
  rw [List.filterMap_map]
  congr 1
  funext cell
  exact Cell.rollback_committed

/-- What a commit leaves in a row. -/
theorem mem_committed_commit :
    row ∈ (store.commit i).committed ↔ ∃ cell ∈ store,
      cell.pending = some (i, some row) ∨
        cell.isOwned i = false ∧ cell.committed = some row := by
  unfold committed commit
  rw [List.filterMap_map, List.mem_filterMap]
  refine exists_congr fun cell => and_congr_right fun _ => ?_
  show (cell.commit i).committed = some row ↔ _
  cases howned : cell.isOwned i with
  | false =>
      rw [Cell.commit_of_not_owned howned]
      constructor
      · intro h
        exact Or.inr ⟨rfl, h⟩
      · rintro (h | ⟨-, h⟩)
        · rw [Cell.isOwned_iff.mpr ⟨_, h⟩] at howned
          cases howned
        · exact h
  | true =>
      obtain ⟨version, hpending⟩ := Cell.isOwned_iff.mp howned
      rw [Cell.commit_of_pending hpending, hpending]
      constructor
      · intro h
        cases h
        exact Or.inl rfl
      · rintro (h | ⟨h, -⟩)
        · cases h
          rfl
        · cases h

end Store

-- ==================================================== what is pending

/-- Every pending version stands in a relation to the committed one. -/
def Obeys (R : ι → Option α → Option α → Prop) (store : Store ι α) : Prop :=
  ∀ cell ∈ store, ∀ i version, cell.pending = some (i, version) →
    R i cell.committed version

namespace Obeys

variable {i : ι} {store store' : Store ι α} {row : α}
  {R R' : ι → Option α → Option α → Prop}

omit [DecidableEq ι] in
theorem imp (h : Obeys R store)
    (himp : ∀ i before after, R i before after → R' i before after) :
    Obeys R' store :=
  fun cell hcell i version hpending =>
    himp _ _ _ (h cell hcell i version hpending)

/-- Where the rows found are written as the relation asks. -/
theorem update (h : Obeys R store) {found : α → Bool}
    {change : α → Option α}
    (hupdate : store.update i found change = .writes store')
    (hwrite : ∀ cell ∈ store, ∀ row, cell.seen i = some row →
      found row = true → R i cell.committed (change row)) :
    Obeys R store' := by
  obtain ⟨rfl, -⟩ := Store.update_ok hupdate
  intro cell hcell j version hpending
  obtain ⟨old, hold, rfl⟩ := List.mem_map.mp hcell
  rw [Cell.update_committed]
  rcases Cell.update_cases i found change old with hsame |
    ⟨row, hseen, hfound, hwritten⟩
  · rw [hsame] at hpending
    exact h old hold j version hpending
  · rw [hwritten] at hpending
    cases hpending
    exact hwrite old hold row hseen hfound

theorem insert (h : Obeys R store) {clashes : α → Bool}
    (hinsert : store.insert i clashes row = .writes store')
    (hrow : R i none (some row)) : Obeys R store' := by
  obtain rfl := Store.insert_ok hinsert
  intro cell hcell j version hpending
  rcases List.mem_append.mp hcell with hold | hnew
  · exact h cell hold j version hpending
  · rw [List.mem_singleton.mp hnew] at hpending ⊢
    cases hpending
    exact hrow

/-- What the others have pending, a commit leaves. -/
theorem commit (h : Obeys R store) :
    Obeys (fun j before after => j ≠ i ∧ R j before after)
      (store.commit i) := by
  intro cell hcell j version hpending
  obtain ⟨old, hold, rfl⟩ := List.mem_map.mp hcell
  obtain ⟨hbefore, hother⟩ := Cell.commit_pending hpending
  rw [Cell.commit_of_not_owned (Cell.not_owned_of_pending hbefore hother)]
  exact ⟨hother, h old hold j version hbefore⟩

theorem rollback (h : Obeys R store) :
    Obeys (fun j before after => j ≠ i ∧ R j before after)
      (store.rollback i) := by
  intro cell hcell j version hpending
  obtain ⟨old, hold, rfl⟩ := List.mem_map.mp hcell
  obtain ⟨hbefore, hother⟩ := Cell.rollback_pending hpending
  rw [Cell.rollback_committed]
  exact ⟨hother, h old hold j version hbefore⟩

end Obeys

-- ==================================================== every version

/-- What holds of every version of every row, committed or pending. -/
def Everywhere (P : α → Prop) (store : Store ι α) : Prop :=
  ∀ cell ∈ store, ∀ row ∈ cell.versions, P row

namespace Everywhere

variable {i : ι} {store store' : Store ι α} {row : α} {P : α → Prop}

omit [DecidableEq ι] in
theorem start {table : List α} (h : ∀ row ∈ table, P row) :
    Everywhere P
      (table.map fun row => (⟨some row, none⟩ : Cell ι α)) := by
  intro cell hcell row hrow
  obtain ⟨old, hold, rfl⟩ := List.mem_map.mp hcell
  rw [Cell.versions, Option.bind_none, Option.toList_none,
    List.append_nil, Option.mem_toList] at hrow
  cases hrow
  exact h _ hold

omit [DecidableEq ι] in
theorem of_committed (h : Everywhere P store) :
    ∀ row ∈ store.committed, P row := by
  intro row hrow
  obtain ⟨cell, hcell, hcommitted⟩ := List.mem_filterMap.mp hrow
  exact h cell hcell row (Cell.committed_mem_versions hcommitted)

/-- What a transaction reads are versions. -/
theorem of_rows (h : Everywhere P store) : ∀ row ∈ store.rows i, P row := by
  intro row hrow
  obtain ⟨cell, hcell, hseen⟩ := List.mem_filterMap.mp hrow
  exact h cell hcell row (Cell.seen_mem_versions hseen)

omit [DecidableEq ι] in
/-- A change of cells that brings in no version of another kind. -/
theorem map (h : Everywhere P store) {change : Cell ι α → Cell ι α}
    (hchange : ∀ cell ∈ store, ∀ row ∈ (change cell).versions,
      row ∈ cell.versions ∨ P row) : Everywhere P (store.map change) := by
  intro cell hcell row hrow
  obtain ⟨old, hold, rfl⟩ := List.mem_map.mp hcell
  rcases hchange old hold row hrow with hbefore | hnew
  · exact h old hold row hbefore
  · exact hnew

theorem update (h : Everywhere P store) {found : α → Bool}
    {change : α → Option α}
    (hupdate : store.update i found change = .writes store')
    (hwrite : ∀ row row', P row → found row = true →
      change row = some row' → P row') : Everywhere P store' := by
  obtain ⟨rfl, -⟩ := Store.update_ok hupdate
  apply h.map
  intro cell hcell row hrow
  rcases Cell.update_cases i found change cell with hsame |
    ⟨old, hseen, hfound, hwritten⟩
  · rw [hsame] at hrow
    exact Or.inl hrow
  · rw [hwritten] at hrow
    rcases List.mem_append.mp hrow with hbefore | hafter
    · exact Or.inl (List.mem_append_left _ hbefore)
    · rw [Option.mem_toList] at hafter
      exact Or.inr (hwrite old row
        (h cell hcell old (Cell.seen_mem_versions hseen)) hfound hafter)

theorem insert (h : Everywhere P store) {clashes : α → Bool}
    (hinsert : store.insert i clashes row = .writes store')
    (hrow : P row) : Everywhere P store' := by
  obtain rfl := Store.insert_ok hinsert
  intro cell hcell other hother
  rcases List.mem_append.mp hcell with hold | hnew
  · exact h cell hold other hother
  · rw [List.mem_singleton.mp hnew, Cell.versions, Option.toList_none,
      List.nil_append, Option.mem_toList] at hother
    cases hother
    exact hrow

theorem commit (h : Everywhere P store) : Everywhere P (store.commit i) := by
  apply h.map
  intro cell hcell row hrow
  unfold Cell.commit at hrow
  split at hrow
  · rw [Cell.versions, Option.bind_none, Option.toList_none,
      List.append_nil, Option.mem_toList] at hrow
    exact Or.inl (Cell.seen_mem_versions hrow)
  · exact Or.inl hrow

theorem rollback (h : Everywhere P store) :
    Everywhere P (store.rollback i) := by
  apply h.map
  intro cell hcell row hrow
  unfold Cell.rollback at hrow
  split at hrow
  · rw [Cell.versions, Option.bind_none, Option.toList_none,
      List.append_nil] at hrow
    exact Or.inl (List.mem_append_left _ hrow)
  · exact Or.inl hrow

end Everywhere

-- ==================================================== what is locked

/-- The transaction has written every committed row of a kind. -/
def Locks (i : ι) (P : α → Prop) (store : Store ι α) : Prop :=
  ∀ cell ∈ store, ∀ row, cell.committed = some row → P row →
    cell.isOwned i = true

/-- What a row may be when this transaction has committed. -/
def Cell.outcomes (i : ι) (cell : Cell ι α) : List α :=
  if cell.isOwned i then (cell.seen i).toList else cell.versions

/-- What holds of every row, if this transaction commits, whatever the
others do. -/
def Awaits (i : ι) (P : α → Prop) (store : Store ι α) : Prop :=
  ∀ cell ∈ store, ∀ row ∈ cell.outcomes i, P row

namespace Cell

variable {i j : ι} {cell : Cell ι α} {row : α}

theorem outcomes_of_owned (h : cell.isOwned i = true) :
    cell.outcomes i = (cell.seen i).toList :=
  if_pos h

theorem outcomes_of_not_owned (h : cell.isOwned i = false) :
    cell.outcomes i = cell.versions := by
  unfold outcomes
  rw [h]
  exact if_neg Bool.false_ne_true

theorem outcomes_subset (h : row ∈ cell.outcomes i) :
    row ∈ cell.versions := by
  unfold outcomes at h
  split at h
  · exact seen_mem_versions (Option.mem_toList.mp h)
  · exact h

/-- A row that another transaction owns is locked. -/
theorem isLocked_of_owned (h : cell.isOwned i = true) (hother : i ≠ j) :
    cell.isLocked j = true := by
  obtain ⟨version, hpending⟩ := isOwned_iff.mp h
  unfold isLocked
  rw [hpending]
  exact decide_eq_true hother

theorem owner_unique (h : cell.isOwned i = true)
    (h' : cell.isOwned j = true) : i = j := by
  obtain ⟨version, hpending⟩ := isOwned_iff.mp h
  obtain ⟨version', hpending'⟩ := isOwned_iff.mp h'
  rw [hpending] at hpending'
  cases hpending'
  rfl

theorem not_owned_of_owner (h : cell.isOwned i = true) (hother : i ≠ j) :
    cell.isOwned j = false := by
  cases howned : cell.isOwned j with
  | false => rfl
  | true => exact absurd (owner_unique h howned) hother

theorem write_isOwned (version : Option α) :
    (cell.write i version).isOwned i = true :=
  isOwned_iff.mpr ⟨version, rfl⟩

theorem write_outcomes (version : Option α) :
    (cell.write i version).outcomes i = version.toList := by
  rw [outcomes_of_owned (write_isOwned version), seen_of_pending rfl]

theorem commit_not_owned (hother : j ≠ i)
    (h : (cell.commit j).isOwned i = true) :
    cell.isOwned i = true ∧ cell.commit j = cell := by
  obtain ⟨version, hpending⟩ := isOwned_iff.mp h
  obtain ⟨hbefore, -⟩ := commit_pending hpending
  have howned := isOwned_iff.mpr ⟨version, hbefore⟩
  exact ⟨howned, commit_of_not_owned (not_owned_of_owner howned hother.symm)⟩

end Cell

namespace Locks

variable {i j : ι} {store store' : Store ι α} {row : α} {P : α → Prop}

/-- Two transactions do not both have the rows of a kind, if there are
such rows. -/
theorem exclusive (h : Locks i P store) (h' : Locks j P store)
    (hrow : row ∈ store.committed) (hkind : P row) : i = j := by
  obtain ⟨cell, hcell, hcommitted⟩ := List.mem_filterMap.mp hrow
  exact Cell.owner_unique (h cell hcell row hcommitted hkind)
    (h' cell hcell row hcommitted hkind)

/-- A statement that finds all of them takes them. -/
theorem taken {found : α → Bool} {change : α → Option α}
    (hupdate : store.update i found change = .writes store')
    (hfresh : ∀ cell ∈ store, cell.isOwned i = false)
    (hfound : ∀ row, P row → found row = true) : Locks i P store' := by
  obtain ⟨rfl, -⟩ := Store.update_ok hupdate
  intro cell hcell row hcommitted hkind
  obtain ⟨old, hold, rfl⟩ := List.mem_map.mp hcell
  rw [Cell.update_committed] at hcommitted
  have hseen : old.seen i = some row := by
    rw [Cell.seen_of_not_owned (hfresh old hold), hcommitted]
  unfold Cell.update
  rw [hseen]
  simp only [hfound row hkind, if_true]
  exact Cell.write_isOwned _

theorem update (h : Locks i P store) {found : α → Bool}
    {change : α → Option α}
    (hupdate : store.update j found change = .writes store') :
    Locks i P store' := by
  obtain ⟨rfl, hunlocked⟩ := Store.update_ok hupdate
  intro cell hcell row hcommitted hkind
  obtain ⟨old, hold, rfl⟩ := List.mem_map.mp hcell
  rw [Cell.update_committed] at hcommitted
  have howned := h old hold row hcommitted hkind
  rcases Cell.update_cases j found change old with hsame |
    ⟨seen, hseen, hfound, hwritten⟩
  · rw [hsame]
    exact howned
  · rw [hwritten]
    by_cases hother : i = j
    · rw [hother]
      exact Cell.write_isOwned _
    · have hlocked := hunlocked old hold seen hseen hfound
      rw [Cell.isLocked_of_owned howned hother] at hlocked
      cases hlocked

theorem insert (h : Locks i P store) {clashes : α → Bool}
    (hinsert : store.insert j clashes row = .writes store') :
    Locks i P store' := by
  obtain rfl := Store.insert_ok hinsert
  intro cell hcell other hcommitted hkind
  rcases List.mem_append.mp hcell with hold | hnew
  · exact h cell hold other hcommitted hkind
  · rw [List.mem_singleton.mp hnew] at hcommitted
    cases hcommitted

/-- Another transaction commits no new row of the kind. -/
theorem commit (h : Locks i P store) (hother : j ≠ i)
    (hnew : ∀ cell ∈ store, ∀ row, cell.pending = some (j, some row) →
      P row → ∃ old, cell.committed = some old ∧ P old) :
    Locks i P (store.commit j) := by
  intro cell hcell row hcommitted hkind
  obtain ⟨old, hold, rfl⟩ := List.mem_map.mp hcell
  cases howned : old.isOwned j with
  | false =>
      rw [Cell.commit_of_not_owned howned] at hcommitted ⊢
      exact h old hold row hcommitted hkind
  | true =>
      obtain ⟨version, hpending⟩ := Cell.isOwned_iff.mp howned
      rw [Cell.commit_of_pending hpending] at hcommitted
      cases hcommitted
      obtain ⟨before, hbefore, hkind⟩ := hnew old hold row hpending hkind
      exact absurd (Cell.owner_unique howned
        (h old hold before hbefore hkind)) hother

theorem rollback (h : Locks i P store) (hother : j ≠ i) :
    Locks i P (store.rollback j) := by
  intro cell hcell row hcommitted hkind
  obtain ⟨old, hold, rfl⟩ := List.mem_map.mp hcell
  rw [Cell.rollback_committed] at hcommitted
  have howned := h old hold row hcommitted hkind
  rw [Cell.rollback_of_not_owned
    (Cell.not_owned_of_owner howned hother.symm)]
  exact howned

end Locks

namespace Awaits

variable {i j : ι} {store store' : Store ι α} {row : α} {P : α → Prop}

/-- What is committed when the transaction commits was awaited. -/
theorem of_commit (h : Awaits i P store) :
    ∀ row ∈ (store.commit i).committed, P row := by
  intro row hrow
  obtain ⟨cell, hcell, hcase⟩ := Store.mem_committed_commit.mp hrow
  apply h cell hcell row
  rcases hcase with hpending | ⟨howned, hcommitted⟩
  · rw [Cell.outcomes_of_owned (Cell.isOwned_iff.mpr ⟨_, hpending⟩),
      Cell.seen_of_pending hpending]
    exact Option.mem_toList.mpr rfl
  · rw [Cell.outcomes_of_not_owned howned]
    exact Cell.committed_mem_versions hcommitted

/-- A statement of another transaction, or of this one. -/
theorem update (h : Awaits i P store) {found : α → Bool}
    {change : α → Option α}
    (hupdate : store.update j found change = .writes store')
    (hwrite : ∀ cell ∈ store, ∀ row row', cell.seen j = some row →
      found row = true → (j ≠ i → P row) → change row = some row' →
        P row') : Awaits i P store' := by
  obtain ⟨rfl, hunlocked⟩ := Store.update_ok hupdate
  intro cell hcell row hrow
  obtain ⟨old, hold, rfl⟩ := List.mem_map.mp hcell
  rcases Cell.update_cases j found change old with hsame |
    ⟨seen, hseen, hfound, hwritten⟩
  · rw [hsame] at hrow
    exact h old hold row hrow
  · rw [hwritten] at hrow
    by_cases hother : j = i
    · rw [hother, Cell.write_outcomes, Option.mem_toList] at hrow
      exact hwrite old hold seen row hseen hfound
        (fun hne => absurd hother hne) hrow
    · have howned : old.isOwned i = false := by
        cases howned : old.isOwned i with
        | false => rfl
        | true =>
            have hlocked := hunlocked old hold seen hseen hfound
            rw [Cell.isLocked_of_owned howned (Ne.symm hother)] at hlocked
            cases hlocked
      have hold' : ∀ row ∈ old.versions, P row := by
        intro row hrow
        apply h old hold row
        rw [Cell.outcomes_of_not_owned howned]
        exact hrow
      rcases List.mem_append.mp (Cell.outcomes_subset hrow) with
        hbefore | hafter
      · exact hold' row (List.mem_append_left _ hbefore)
      · rw [Option.mem_toList] at hafter
        exact hwrite old hold seen row hseen hfound
          (fun _ => hold' seen (Cell.seen_mem_versions hseen)) hafter

theorem insert (h : Awaits i P store) {clashes : α → Bool}
    (hinsert : store.insert j clashes row = .writes store')
    (hrow : P row) : Awaits i P store' := by
  obtain rfl := Store.insert_ok hinsert
  intro cell hcell other hother
  rcases List.mem_append.mp hcell with hold | hnew
  · exact h cell hold other hother
  · have hversion := Cell.outcomes_subset hother
    rw [List.mem_singleton.mp hnew, Cell.versions, Option.toList_none,
      List.nil_append, Option.mem_toList] at hversion
    cases hversion
    exact hrow

theorem commit (h : Awaits i P store) (hother : j ≠ i) :
    Awaits i P (store.commit j) := by
  intro cell hcell row hrow
  obtain ⟨old, hold, rfl⟩ := List.mem_map.mp hcell
  cases howned : (old.commit j).isOwned i with
  | true =>
      rw [(Cell.commit_not_owned hother howned).2] at hrow
      exact h old hold row hrow
  | false =>
      rw [Cell.outcomes_of_not_owned howned] at hrow
      cases hcase : old.isOwned j with
      | false =>
          rw [Cell.commit_of_not_owned hcase] at hrow howned
          apply h old hold row
          rw [Cell.outcomes_of_not_owned howned]
          exact hrow
      | true =>
          apply h old hold row
          rw [Cell.outcomes_of_not_owned
            (Cell.not_owned_of_owner hcase hother)]
          unfold Cell.commit at hrow
          rw [if_pos hcase, Cell.versions, Option.bind_none,
            Option.toList_none, List.append_nil, Option.mem_toList] at hrow
          exact Cell.seen_mem_versions hrow

theorem rollback (h : Awaits i P store) (hother : j ≠ i) :
    Awaits i P (store.rollback j) := by
  intro cell hcell row hrow
  obtain ⟨old, hold, rfl⟩ := List.mem_map.mp hcell
  cases hcase : old.isOwned j with
  | false =>
      rw [Cell.rollback_of_not_owned hcase] at hrow
      exact h old hold row hrow
  | true =>
      apply h old hold row
      rw [Cell.outcomes_of_not_owned
        (Cell.not_owned_of_owner hcase hother)]
      have hversion := Cell.outcomes_subset hrow
      unfold Cell.rollback at hversion
      rw [if_pos hcase, Cell.versions, Option.bind_none,
        Option.toList_none, List.append_nil] at hversion
      exact List.mem_append_left _ hversion

end Awaits

/-- The transaction has a row of a kind pending. -/
def Pends (i : ι) (P : α → Prop) (store : Store ι α) : Prop :=
  ∃ cell ∈ store, ∃ row, cell.pending = some (i, some row) ∧ P row

namespace Pends

variable {i j : ι} {store store' : Store ι α} {row : α} {P : α → Prop}

/-- A statement that finds a row and changes it to one of the kind. -/
theorem written {found : α → Bool} {change : α → Option α}
    (hupdate : store.update i found change = .writes store')
    (hrow : row ∈ store.rows i) (hfound : found row = true)
    {row' : α} (hchange : change row = some row') (hkind : P row') :
    Pends i P store' := by
  obtain ⟨rfl, -⟩ := Store.update_ok hupdate
  obtain ⟨cell, hcell, hseen⟩ := List.mem_filterMap.mp hrow
  refine ⟨_, List.mem_map_of_mem hcell, row', ?_, hkind⟩
  unfold Cell.update
  rw [hseen]
  simp only [hfound, if_true]
  rw [hchange]
  rfl

theorem update (h : Pends i P store) {found : α → Bool}
    {change : α → Option α}
    (hupdate : store.update j found change = .writes store')
    (hother : j ≠ i) : Pends i P store' := by
  obtain ⟨rfl, hunlocked⟩ := Store.update_ok hupdate
  obtain ⟨cell, hcell, row, hpending, hkind⟩ := h
  refine ⟨_, List.mem_map_of_mem hcell, row, ?_, hkind⟩
  rcases Cell.update_cases j found change cell with hsame |
    ⟨seen, hseen, hfound, -⟩
  · rw [hsame]
    exact hpending
  · have hlocked := hunlocked cell hcell seen hseen hfound
    rw [Cell.isLocked_of_owned (Cell.isOwned_iff.mpr ⟨_, hpending⟩)
      hother.symm] at hlocked
    cases hlocked

omit [DecidableEq ι] in
theorem append (h : Pends i P store) (cell : Cell ι α) :
    Pends i P (store ++ [cell]) := by
  obtain ⟨old, hold, row, hpending, hkind⟩ := h
  exact ⟨old, List.mem_append_left _ hold, row, hpending, hkind⟩

theorem commit (h : Pends i P store) (hother : j ≠ i) :
    Pends i P (store.commit j) := by
  obtain ⟨cell, hcell, row, hpending, hkind⟩ := h
  refine ⟨_, List.mem_map_of_mem hcell, row, ?_, hkind⟩
  rw [Cell.commit_of_not_owned
    (Cell.not_owned_of_pending hpending hother.symm)]
  exact hpending

theorem rollback (h : Pends i P store) (hother : j ≠ i) :
    Pends i P (store.rollback j) := by
  obtain ⟨cell, hcell, row, hpending, hkind⟩ := h
  refine ⟨_, List.mem_map_of_mem hcell, row, ?_, hkind⟩
  rw [Cell.rollback_of_not_owned
    (Cell.not_owned_of_pending hpending hother.symm)]
  exact hpending

/-- What is pending when the transaction commits is there then. -/
theorem committed (h : Pends i P store) :
    ∃ row ∈ (store.commit i).committed, P row := by
  obtain ⟨cell, hcell, row, hpending, hkind⟩ := h
  exact ⟨row, Store.mem_committed_commit.mpr
    ⟨cell, hcell, Or.inl hpending⟩, hkind⟩

end Pends

-- ==================================================== keys

/-- No two rows share a key, whatever is pending. -/
def Separate (key : α → κ) (store : Store ι α) : Prop :=
  store.Pairwise fun cell other =>
    ∀ row ∈ cell.versions, ∀ row' ∈ other.versions, key row ≠ key row'

namespace Separate

variable {i : ι} {store store' : Store ι α} {row row' : α} {key : α → κ}

omit [DecidableEq ι] in
theorem eq_of_key (h : Separate key store) {cell other : Cell ι α}
    (hcell : cell ∈ store) (hother : other ∈ store)
    (hrow : row ∈ cell.versions) (hrow' : row' ∈ other.versions)
    (hkey : key row = key row') : cell = other := by
  by_contra hne
  have : Std.Symm fun cell other : Cell ι α =>
      ∀ row ∈ cell.versions, ∀ row' ∈ other.versions, key row ≠ key row' :=
    ⟨fun _ _ h row hrow row' hrow' => (h row' hrow' row hrow).symm⟩
  exact List.Pairwise.forall h hcell hother hne row hrow row' hrow' hkey

omit [DecidableEq ι] in
/-- Of the rows that are committed, no two share a key. -/
theorem eq_of_committed (h : Separate key store)
    (hrow : row ∈ store.committed) (hrow' : row' ∈ store.committed)
    (hkey : key row = key row') : row = row' := by
  obtain ⟨cell, hcell, hcommitted⟩ := List.mem_filterMap.mp hrow
  obtain ⟨other, hother, hcommitted'⟩ := List.mem_filterMap.mp hrow'
  have hsame := h.eq_of_key hcell hother
    (Cell.committed_mem_versions hcommitted)
    (Cell.committed_mem_versions hcommitted') hkey
  rw [hsame, hcommitted'] at hcommitted
  cases hcommitted
  rfl

omit [DecidableEq ι] in
/-- A change of cells that gives no row a new key. -/
theorem map (h : Separate key store) {change : Cell ι α → Cell ι α}
    (hkeys : ∀ cell, ∀ row ∈ (change cell).versions,
      ∃ old ∈ cell.versions, key row = key old) :
    Separate key (store.map change) := by
  apply List.pairwise_map.mpr
  refine List.Pairwise.imp ?_ h
  intro cell other hapart row hrow row' hrow'
  obtain ⟨old, hold, hkey⟩ := hkeys cell row hrow
  obtain ⟨old', hold', hkey'⟩ := hkeys other row' hrow'
  rw [hkey, hkey']
  exact hapart old hold old' hold'

theorem update (h : Separate key store) {found : α → Bool}
    {change : α → Option α}
    (hupdate : store.update i found change = .writes store')
    (hkey : ∀ row row', change row = some row' → key row' = key row) :
    Separate key store' := by
  obtain ⟨rfl, -⟩ := Store.update_ok hupdate
  apply h.map
  intro cell row hrow
  rcases Cell.update_cases i found change cell with hsame |
    ⟨old, hseen, -, hwritten⟩
  · rw [hsame] at hrow
    exact ⟨row, hrow, rfl⟩
  · rw [hwritten] at hrow
    rcases List.mem_append.mp hrow with hbefore | hafter
    · exact ⟨row, List.mem_append_left _ hbefore, rfl⟩
    · rw [Option.mem_toList] at hafter
      exact ⟨old, Cell.seen_mem_versions hseen, hkey old row hafter⟩

theorem insert (h : Separate key store) {clashes : α → Bool}
    (hinsert : store.insert i clashes row = .writes store')
    (hfresh : ∀ cell ∈ store, cell.isOwned i = false)
    (hclash : ∀ other, key other = key row → clashes other = true) :
    Separate key store' := by
  have hapart := Store.insert_apart hinsert hfresh
  obtain rfl := Store.insert_ok hinsert
  apply List.pairwise_append.mpr
  refine ⟨h, List.pairwise_singleton _ _, ?_⟩
  intro cell hcell new hnew other hother row' hrow' hkey
  rw [List.mem_singleton.mp hnew] at hrow'
  rw [Cell.versions, Option.toList_none, List.nil_append,
    Option.mem_toList] at hrow'
  cases hrow'
  have hapart := hapart cell hcell other hother
  rw [hclash other hkey] at hapart
  cases hapart

theorem commit (h : Separate key store) : Separate key (store.commit i) := by
  apply h.map
  intro cell row hrow
  unfold Cell.commit at hrow
  split at hrow
  · rw [Cell.versions, Option.bind_none, Option.toList_none,
      List.append_nil, Option.mem_toList] at hrow
    exact ⟨row, Cell.seen_mem_versions hrow, rfl⟩
  · exact ⟨row, hrow, rfl⟩

theorem rollback (h : Separate key store) :
    Separate key (store.rollback i) := by
  apply h.map
  intro cell row hrow
  unfold Cell.rollback at hrow
  split at hrow
  · rw [Cell.versions, Option.bind_none, Option.toList_none,
      List.append_nil] at hrow
    exact ⟨row, List.mem_append_left _ hrow, rfl⟩
  · exact ⟨row, hrow, rfl⟩

end Separate

end ReadCommitted
