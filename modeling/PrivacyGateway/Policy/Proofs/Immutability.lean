/-
Published versions, whatever is interleaved.

The status of a draft is checked by one statement and its row is written by
another, by primary key. What is committed in between is not seen: an edit
can fall on a row that has been published since, and a publication on a
draft that has been edited since (`published_rewritten`).

`Undisturbed` is that neither happens, at the statement where it would.
`Guarded` is what the steps then preserve. Its part about what is pending
(`Keeps`) is established where a row is written, by its lock it lasts until
the commit, and there it gives that the publications still stand
(`Immutable`).
-/
import PrivacyGateway.Lib.Run
import PrivacyGateway.Policy.Proofs.Publishing
import PrivacyGateway.Policy.Transactions

namespace PrivacyGateway.Policy

open ReadCommitted PolicyRepository

variable {δ ι : Type}

-- ==================================================== what is promised

/-- Every published row holds what was accepted for its publication, and a
row once published stays. -/
structure Immutable (system : PolicySystem ι δ) : Prop where
  stands : ∀ p ∈ system.publications,
    ∃ row ∈ system.store.committed, row.id = p.id
  unchanged : ∀ p ∈ system.publications, ∀ row ∈ system.store.committed,
    row.id = p.id → row.status = .published ∧ row.document = p.document
  recorded : ∀ row ∈ system.store.committed, row.status = .published →
    ⟨row.id, row.document⟩ ∈ system.publications

theorem Immutable.congr {system system' : PolicySystem ι δ}
    (h : Immutable system)
    (hcommitted : system'.store.committed = system.store.committed)
    (hpublications : system'.publications = system.publications) :
    Immutable system' := by
  constructor
  · rw [hcommitted, hpublications]
    exact h.stands
  · rw [hcommitted, hpublications]
    exact h.unchanged
  · rw [hcommitted, hpublications]
    exact h.recorded

-- ==================================================== what is pending

/-- The transaction has not written yet, or has ended. -/
def PolicyTask.isClean : PolicyTask δ → Bool
  | .promoting .. => false
  | .committing _ => false
  | _ => true

/-- What a transaction at this point may have pending of a row: of a
published row its version stays, and a row it publishes is the one that it
is about to announce. -/
structure Keeps (task : PolicyTask δ)
    (before after : Option (PolicyRow δ)) : Prop where
  version : ∀ row, before = some row → row.status = .published →
    ∃ row', after = some row' ∧ row'.id = row.id ∧
      row'.status = .published ∧ row'.document = row.document
  promotion : ∀ row', after = some row' → row'.status = .published →
    (∃ row, before = some row ∧ row.status = .published) ∨
      task = .committing (some ⟨row'.id, row'.document⟩)
  apart : ∀ now draft accepted, task = .promoting now draft accepted →
    ∀ row', after = some row' → row'.id ≠ draft.id

structure Guarded [DecidableEq ι] (system : PolicySystem ι δ) : Prop where
  separate : Separate PolicyRow.id system.store
  kept : Obeys (fun i => Keeps (system.tasks i)) system.store
  fresh : ∀ i, (system.tasks i).isClean = true →
    ∀ cell ∈ system.store, cell.isOwned i = false
  announced : ∀ i p, system.tasks i = .committing (some p) →
    ∃ cell ∈ system.store, ∃ row, cell.pending = some (i, some row) ∧
      row.id = p.id ∧ row.status = .published ∧ row.document = p.document
  immutable : Immutable system

variable [DecidableEq ι] {system : PolicySystem ι δ} {i : ι}
  {next : PolicyTask δ} {written : PolicyStore ι δ}

@[simp] theorem after_store (result : PolicyTask δ × PolicyStore ι δ) :
    (system.after i result).store = result.2 := rfl

@[simp] theorem after_publications
    (result : PolicyTask δ × PolicyStore ι δ) :
    (system.after i result).publications = system.publications := rfl

theorem after_task (result : PolicyTask δ × PolicyStore ι δ) (j : ι) :
    (system.after i result).tasks j =
      if j = i then result.1 else system.tasks j :=
  Function.update_apply ..

theorem after_after (first second : PolicyTask δ × PolicyStore ι δ) :
    (system.after i first).after i second = system.after i second := by
  unfold PolicySystem.after
  rw [Function.update_idem]

theorem after_self : system.after i (system.tasks i, system.store) = system := by
  unfold PolicySystem.after
  rw [Function.update_eq_self]

namespace Guarded

/-- One task moves on: what the others have pending is kept. -/
theorem kept_after (h : Guarded system)
    (hold : ∀ cell ∈ system.store, ∀ version,
      cell.pending = some (i, version) → Keeps next cell.committed version)
    (result : PolicyStore ι δ) :
    Obeys (fun j => Keeps ((system.after i (next, result)).tasks j))
      system.store := by
  intro cell hcell j version hpending
  show Keeps ((system.after i (next, result)).tasks j) _ _
  rw [after_task]
  by_cases hj : j = i
  · rw [if_pos hj]
    rw [hj] at hpending
    exact hold cell hcell version hpending
  · rw [if_neg hj]
    exact h.kept cell hcell j version hpending

/-- A clean transaction has nothing pending. -/
theorem none_pending (h : Guarded system)
    (hclean : (system.tasks i).isClean = true) {cell : Cell ι (PolicyRow δ)}
    (hcell : cell ∈ system.store) {version : Option (PolicyRow δ)} :
    cell.pending ≠ some (i, version) := by
  intro hpending
  have howned := h.fresh i hclean cell hcell
  rw [Cell.isOwned_iff.mpr ⟨_, hpending⟩] at howned
  cases howned

/-- A statement that only reads. -/
theorem reads (h : Guarded system)
    (hclean : (system.tasks i).isClean = true)
    (hnext : next.isClean = true ∨ next = .committing none) :
    Guarded (system.after i (next, system.store)) := by
  constructor
  · exact h.separate
  · exact h.kept_after (fun cell hcell version hpending =>
      absurd hpending (h.none_pending hclean hcell)) _
  · intro j hj cell hcell
    rw [after_task] at hj
    by_cases hji : j = i
    · rw [hji]
      exact h.fresh i hclean cell hcell
    · rw [if_neg hji] at hj
      exact h.fresh j hj cell hcell
  · intro j p hj
    rw [after_task] at hj
    by_cases hji : j = i
    · rw [if_pos hji] at hj
      rcases hnext with hnext | hnext
      · simp only at hj
        rw [hj] at hnext
        cases hnext
      · simp only [hnext] at hj
        cases hj
    · rw [if_neg hji] at hj
      exact h.announced j p hj
  · exact h.immutable.congr rfl rfl

/-- A transaction ends: its locks are gone, and the others' are as they
were. -/
theorem settles (h : Guarded system)
    {settle : Cell ι (PolicyRow δ) → Cell ι (PolicyRow δ)}
    {outcome : Except Exn Unit} {publications : List (Publication δ)}
    (hseparate : Separate PolicyRow.id (system.store.map settle))
    (hkept : Obeys (fun j before after =>
      j ≠ i ∧ Keeps (system.tasks j) before after) (system.store.map settle))
    (hpending : ∀ cell j version,
      (settle cell).pending = some (j, version) →
        cell.pending = some (j, version) ∧ j ≠ i)
    (hothers : ∀ cell, cell.isOwned i = false → settle cell = cell)
    (himmutable : Immutable
      ⟨system.store.map settle,
        (system.after i (.done outcome, system.store.map settle)).tasks,
        publications⟩) :
    Guarded
      ⟨system.store.map settle,
        (system.after i (.done outcome, system.store.map settle)).tasks,
        publications⟩ := by
  constructor
  · exact hseparate
  · refine hkept.imp ?_
    intro j before after ⟨hj, hkeeps⟩
    rw [after_task, if_neg hj]
    exact hkeeps
  · intro j hj cell hcell
    obtain ⟨old, hold, rfl⟩ := List.mem_map.mp hcell
    cases howned : (settle old).isOwned j with
    | false => rfl
    | true =>
        obtain ⟨version, hafter⟩ := Cell.isOwned_iff.mp howned
        obtain ⟨hbefore, hji⟩ := hpending _ _ _ hafter
        rw [after_task, if_neg hji] at hj
        exact absurd hbefore (h.none_pending hj hold)
  · intro j p hj
    rw [after_task] at hj
    by_cases hji : j = i
    · rw [if_pos hji] at hj
      cases hj
    · rw [if_neg hji] at hj
      obtain ⟨cell, hcell, row, hbefore, hrow⟩ := h.announced j p hj
      refine ⟨settle cell, List.mem_map_of_mem hcell, row, ?_, hrow⟩
      rw [hothers cell (Cell.not_owned_of_pending hbefore hji)]
      exact hbefore
  · exact himmutable

/-- A transaction that is rolled back. -/
theorem fails (h : Guarded system) (e : Exn) :
    Guarded (system.after i (PolicyRoutes.fail i e system.store)) :=
  h.settles h.separate.rollback h.kept.rollback
    (fun _ _ _ => Cell.rollback_pending)
    (fun _ => Cell.rollback_of_not_owned)
    (h.immutable.congr Store.committed_rollback rfl)

/-- A draft is inserted. -/
theorem inserts (h : Guarded system)
    (hclean : (system.tasks i).isClean = true) {row : PolicyRow δ}
    (hdraft : row.status = .draft)
    (hinsert : system.store.insert i
      (fun other => decide (Clashes row other)) row = .writes written) :
    Guarded (system.after i (.committing none, written)) := by
  have hfresh := h.fresh i hclean
  constructor
  · apply h.separate.insert hinsert hfresh
    intro other hid
    exact decide_eq_true (Or.inl hid)
  · have hkept : Obeys (fun j => Keeps
        ((system.after i (.committing none, written)).tasks j))
          system.store :=
      h.kept_after (fun cell hcell version hpending =>
        absurd hpending (h.none_pending hclean hcell)) written
    refine hkept.insert hinsert ?_
    constructor
    · intro _ hnone
      cases hnone
    · intro row' hrow' hpublished
      cases hrow'
      rw [hdraft] at hpublished
      cases hpublished
    · intro now draft accepted htask
      rw [after_task, if_pos rfl] at htask
      cases htask
  · intro j hj cell hcell
    rw [after_task] at hj
    by_cases hji : j = i
    · rw [if_pos hji] at hj
      cases hj
    · rw [if_neg hji] at hj
      rw [after_store, Store.insert_ok hinsert] at hcell
      rcases List.mem_append.mp hcell with hold | hnew
      · exact h.fresh j hj cell hold
      · rw [List.mem_singleton.mp hnew]
        exact Cell.not_owned_of_pending rfl (Ne.symm hji)
  · intro j p hj
    rw [after_task] at hj
    by_cases hji : j = i
    · rw [if_pos hji] at hj
      cases hj
    · rw [if_neg hji] at hj
      obtain ⟨cell, hcell, hrow⟩ := h.announced j p hj
      refine ⟨cell, ?_, hrow⟩
      rw [after_store, Store.insert_ok hinsert]
      exact List.mem_append_left _ hcell
  · exact h.immutable.congr (Store.committed_insert hinsert) rfl

/-- Rows are updated or deleted, by a transaction that comes to where it
may have them pending. -/
theorem updates (h : Guarded system) {found : PolicyRow δ → Bool}
    {change : PolicyRow δ → Option (PolicyRow δ)}
    (hupdate : system.store.update i found change = .writes written)
    (hid : ∀ row row', change row = some row' → row'.id = row.id)
    (hnext : next.isClean = false)
    (hold : ∀ cell ∈ system.store, ∀ version,
      cell.pending = some (i, version) → Keeps next cell.committed version)
    (hwrite : ∀ cell ∈ system.store, ∀ row, cell.seen i = some row →
      found row = true → Keeps next cell.committed (change row))
    (hannounced : ∀ p, next = .committing (some p) →
      ∃ cell ∈ written, ∃ row, cell.pending = some (i, some row) ∧
        row.id = p.id ∧ row.status = .published ∧
          row.document = p.document) :
    Guarded (system.after i (next, written)) := by
  have hcells := (Store.update_ok hupdate).1
  constructor
  · exact h.separate.update hupdate hid
  · refine (h.kept_after hold written).update hupdate ?_
    intro cell hcell row hseen hfound
    show Keeps ((system.after i (next, written)).tasks i) _ _
    rw [after_task, if_pos rfl]
    exact hwrite cell hcell row hseen hfound
  · intro j hj cell hcell
    rw [after_task] at hj
    by_cases hji : j = i
    · rw [if_pos hji] at hj
      simp only [hnext] at hj
      cases hj
    · rw [if_neg hji] at hj
      rw [after_store, hcells] at hcell
      obtain ⟨old, holdmem, rfl⟩ := List.mem_map.mp hcell
      rcases Cell.update_cases i found change old with hsame |
        ⟨row, -, -, hwritten⟩
      · rw [hsame]
        exact h.fresh j hj old holdmem
      · rw [hwritten]
        exact Cell.not_owned_of_pending rfl (Ne.symm hji)
  · intro j p hj
    rw [after_task] at hj
    by_cases hji : j = i
    · rw [if_pos hji] at hj
      rw [hji]
      exact hannounced p hj
    · rw [if_neg hji] at hj
      obtain ⟨cell, hcell, row, hpending, hrow⟩ := h.announced j p hj
      refine ⟨cell.update i found change, ?_, row, ?_, hrow⟩
      · rw [after_store, hcells]
        exact List.mem_map_of_mem hcell
      · rcases Cell.update_cases i found change cell with hsame |
          ⟨other, hseen, hfound, -⟩
        · rw [hsame]
          exact hpending
        · have hlocked :=
            (Store.update_ok hupdate).2 cell hcell other hseen hfound
          unfold Cell.isLocked at hlocked
          rw [hpending] at hlocked
          exact absurd hji (of_decide_eq_false hlocked)
  · exact h.immutable.congr (Store.committed_update hupdate) rfl

/-- What was published, and what a commit publishes, stands after it. -/
theorem immutable_commit (h : Guarded system)
    {publication : Option (Publication δ)}
    (htask : system.tasks i = .committing publication)
    (tasks : ι → PolicyTask δ) :
    Immutable ⟨system.store.commit i, tasks,
      system.publications ++ publication.toList⟩ := by
  -- An announced row is pending; any other, committed and pending with the
  -- same version, or not touched.
  have hnew : ∀ p ∈ publication.toList, ∃ cell ∈ system.store, ∃ row,
      cell.pending = some (i, some row) ∧ row.id = p.id ∧
        row.status = .published ∧ row.document = p.document := by
    intro p hp
    rw [Option.mem_toList] at hp
    rw [hp] at htask
    exact h.announced i p htask
  constructor
  · intro p hp
    rcases List.mem_append.mp hp with hold | hp
    · obtain ⟨row, hrow, hid⟩ := h.immutable.stands p hold
      have hpublished := (h.immutable.unchanged p hold row hrow hid).1
      obtain ⟨cell, hcell, hcommitted⟩ := List.mem_filterMap.mp hrow
      cases howned : cell.isOwned i with
      | false =>
          exact ⟨row, Store.mem_committed_commit.mpr
            ⟨cell, hcell, Or.inr ⟨howned, hcommitted⟩⟩, hid⟩
      | true =>
          obtain ⟨version, hpending⟩ := Cell.isOwned_iff.mp howned
          obtain ⟨row', hrow', hid', -, -⟩ :=
            (h.kept cell hcell i version hpending).version row hcommitted
              hpublished
          rw [hrow'] at hpending
          exact ⟨row', Store.mem_committed_commit.mpr
            ⟨cell, hcell, Or.inl hpending⟩, hid'.trans hid⟩
    · obtain ⟨cell, hcell, row, hpending, hid, -⟩ := hnew p hp
      exact ⟨row, Store.mem_committed_commit.mpr
        ⟨cell, hcell, Or.inl hpending⟩, hid⟩
  · intro p hp row hrow hid
    obtain ⟨cell, hcell, hcase⟩ := Store.mem_committed_commit.mp hrow
    have hversion : row ∈ cell.versions := by
      rcases hcase with hpending | ⟨-, hcommitted⟩
      · exact Cell.pending_mem_versions hpending
      · exact Cell.committed_mem_versions hcommitted
    rcases List.mem_append.mp hp with hold | hp
    · obtain ⟨old, hmem, hidold⟩ := h.immutable.stands p hold
      obtain ⟨hpublished, hdocument⟩ :=
        h.immutable.unchanged p hold old hmem hidold
      obtain ⟨cell', hcell', hcommitted'⟩ := List.mem_filterMap.mp hmem
      obtain rfl : cell = cell' := h.separate.eq_of_key hcell hcell'
        hversion (Cell.committed_mem_versions hcommitted')
        (hid.trans hidold.symm)
      rcases hcase with hpending | ⟨-, hcommitted⟩
      · obtain ⟨row', hrow', -, hstatus, hsame⟩ :=
          (h.kept cell hcell i _ hpending).version old hcommitted'
            hpublished
        cases hrow'
        exact ⟨hstatus, hsame.trans hdocument⟩
      · rw [hcommitted'] at hcommitted
        cases hcommitted
        exact ⟨hpublished, hdocument⟩
    · obtain ⟨cell', hcell', new, hpending', hidnew, hstatus, hdocument⟩ :=
        hnew p hp
      obtain rfl : cell = cell' := h.separate.eq_of_key hcell hcell'
        hversion (Cell.pending_mem_versions hpending')
        (hid.trans hidnew.symm)
      rcases hcase with hpending | ⟨howned, -⟩
      · rw [hpending'] at hpending
        cases hpending
        exact ⟨hstatus, hdocument⟩
      · rw [Cell.isOwned_iff.mpr ⟨_, hpending'⟩] at howned
        cases howned
  · intro row hrow hpublished
    obtain ⟨cell, hcell, hcase⟩ := Store.mem_committed_commit.mp hrow
    rcases hcase with hpending | ⟨-, hcommitted⟩
    · have hkeeps := h.kept cell hcell i _ hpending
      rcases hkeeps.promotion row rfl hpublished with
        ⟨old, hcommitted, hstatus⟩ | hannounced
      · obtain ⟨row', hrow', hid, -, hdocument⟩ :=
          hkeeps.version old hcommitted hstatus
        cases hrow'
        rw [hid, hdocument]
        exact List.mem_append_left _ (h.immutable.recorded old
          (List.mem_filterMap.mpr ⟨cell, hcell, hcommitted⟩) hstatus)
      · rw [htask] at hannounced
        cases hannounced
        exact List.mem_append_right _ List.mem_cons_self
    · exact List.mem_append_left _ (h.immutable.recorded row
        (List.mem_filterMap.mpr ⟨cell, hcell, hcommitted⟩) hpublished)

/-- A transaction commits. -/
theorem commits (h : Guarded system)
    {publication : Option (Publication δ)}
    (htask : system.tasks i = .committing publication) :
    Guarded ⟨system.store.commit i,
      (system.after i (.done (.ok ()), system.store.commit i)).tasks,
      system.publications ++ publication.toList⟩ :=
  h.settles h.separate.commit h.kept.commit
    (fun _ _ _ => Cell.commit_pending)
    (fun _ => Cell.commit_of_not_owned)
    (h.immutable_commit htask _)

end Guarded

-- ==================================================== one statement

/-- A row is found by its primary key as the transaction takes it to be:
what is edited or discarded is a draft still, and what is published has
the document that was accepted. -/
def Undisturbed (routes : PolicyRoutes δ) (system : PolicySystem ι δ) :
    PolicyEvent ι → Prop
  | .aborts _ => True
  | .runs i =>
      match system.tasks i with
      | .editing draft document =>
          routes.same document draft.document = false →
            ∀ row ∈ system.store.committed, row.id = draft.id →
              row.status = .draft
      | .deleting id =>
          ∀ row ∈ system.store.committed, row.id = id → row.status = .draft
      | .promoting _ draft accepted =>
          ∀ row ∈ system.store.committed, row.id = draft.id →
            row.document = accepted
      | _ => True

instance [DecidableEq δ] (routes : PolicyRoutes δ)
    (system : PolicySystem ι δ) (event : PolicyEvent ι) :
    Decidable (Undisturbed routes system event) := by
  unfold Undisturbed
  split
  · exact instDecidableTrue
  · split <;> infer_instance

namespace Keeps

variable {row : PolicyRow δ}

theorem edited (hdraft : row.status = .draft) (document : δ) :
    Keeps (.committing none) (some row)
      (some { row with document := document }) := by
  constructor
  · intro old hold hpublished
    cases hold
    rw [hdraft] at hpublished
    cases hpublished
  · intro row' hrow' hpublished
    cases hrow'
    rw [hdraft] at hpublished
    cases hpublished
  · exact fun _ _ _ htask => nomatch htask

theorem deleted (hdraft : row.status = .draft) :
    Keeps (.committing none) (some row) none := by
  constructor
  · intro old hold hpublished
    cases hold
    rw [hdraft] at hpublished
    cases hpublished
  · exact fun _ hnone => nomatch hnone
  · exact fun _ _ _ htask => nomatch htask

theorem deactivated {now : Rat} {draft : PolicyRow δ} {accepted : δ}
    (hid : row.id ≠ draft.id) :
    Keeps (.promoting now draft accepted) (some row)
      (some { row with isActive := false }) := by
  constructor
  · intro old hold hpublished
    cases hold
    exact ⟨_, rfl, rfl, hpublished, rfl⟩
  · intro row' hrow' hpublished
    cases hrow'
    exact Or.inl ⟨row, rfl, hpublished⟩
  · intro now' draft' accepted' htask row' hrow'
    cases htask
    cases hrow'
    exact hid

theorem promoted (now : Rat) (row : PolicyRow δ) :
    Keeps (.committing (some ⟨row.id, row.document⟩)) (some row)
      (PolicyRoutes.promote now row) := by
  unfold PolicyRoutes.promote
  constructor
  · intro old hold _
    cases hold
    exact ⟨_, rfl, rfl, rfl, rfl⟩
  · intro row' hrow' _
    cases hrow'
    exact Or.inr rfl
  · exact fun _ _ _ htask => nomatch htask

/-- What was deactivated, before the promotion and after it. -/
theorem promoting {now : Rat} {draft : PolicyRow δ} {accepted : δ}
    {before after : Option (PolicyRow δ)}
    (h : Keeps (.promoting now draft accepted) before after)
    (publication : Option (Publication δ)) :
    Keeps (.committing publication) before after := by
  constructor
  · exact h.version
  · intro row' hrow' hpublished
    rcases h.promotion row' hrow' hpublished with hold | htask
    · exact Or.inl hold
    · cases htask
  · exact fun _ _ _ htask => nomatch htask

end Keeps

namespace Guarded

variable {routes : PolicyRoutes δ}

theorem committed_of_seen (h : Guarded system)
    (hclean : (system.tasks i).isClean = true) {cell : Cell ι (PolicyRow δ)}
    (hcell : cell ∈ system.store) {row : PolicyRow δ}
    (hseen : cell.seen i = some row) : cell.committed = some row := by
  rw [Cell.seen_of_not_owned (h.fresh i hclean cell hcell)] at hseen
  exact hseen

theorem responds {publication : Option (Publication δ)} (document : δ)
    (h : Guarded (system.after i (.committing publication, written))) :
    Guarded (system.after i
      (routes.respond i document publication written)) := by
  unfold PolicyRoutes.respond
  split
  · rename_i problems _
    have hfails := h.fails (i := i) (documentRefused problems)
    rw [after_after] at hfails
    exact hfails
  · exact h

/-- A draft is edited. -/
theorem edits (h : Guarded system) {draft : PolicyRow δ} {document : δ}
    (htask : system.tasks i = .editing draft document)
    (hdraft : ∀ row ∈ system.store.committed, row.id = draft.id →
      row.status = .draft)
    (hupdate : system.store.update i (fun row => decide (row.id = draft.id))
      (fun row => some { row with document := document }) =
        .writes written) :
    Guarded (system.after i (.committing none, written)) := by
  have hclean : (system.tasks i).isClean = true := by
    rw [htask]
    rfl
  refine h.updates hupdate ?_ rfl ?_ ?_ nofun
  · intro row row' hrow'
    cases hrow'
    rfl
  · exact fun cell hcell version hpending =>
      absurd hpending (h.none_pending hclean hcell)
  · intro cell hcell row hseen hfound
    have hcommitted := h.committed_of_seen hclean hcell hseen
    rw [hcommitted]
    exact Keeps.edited (hdraft row
      (List.mem_filterMap.mpr ⟨cell, hcell, hcommitted⟩)
        (of_decide_eq_true hfound)) document

/-- A draft is deleted. -/
theorem deletes (h : Guarded system) {id : UUID}
    (htask : system.tasks i = .deleting id)
    (hdraft : ∀ row ∈ system.store.committed, row.id = id →
      row.status = .draft)
    (hupdate : system.store.update i (fun row => decide (row.id = id))
      (fun _ => none) = .writes written) :
    Guarded (system.after i (.committing none, written)) := by
  have hclean : (system.tasks i).isClean = true := by
    rw [htask]
    rfl
  refine h.updates hupdate (fun _ _ hrow => (nomatch hrow)) rfl ?_ ?_ nofun
  · exact fun cell hcell version hpending =>
      absurd hpending (h.none_pending hclean hcell)
  · intro cell hcell row hseen hfound
    have hcommitted := h.committed_of_seen hclean hcell hseen
    rw [hcommitted]
    exact Keeps.deleted (hdraft row
      (List.mem_filterMap.mpr ⟨cell, hcell, hcommitted⟩)
        (of_decide_eq_true hfound))

/-- The other versions are deactivated. -/
theorem deactivates (h : Guarded system) {tenantId : UUID} {name : Text}
    {now : Rat} {draft : PolicyRow δ} {accepted : δ}
    (htask : system.tasks i =
      .deactivating tenantId name now draft accepted)
    (hupdate : system.store.update i
      (fun row => decide (row.Named tenantId name ∧ row.id ≠ draft.id))
      (fun row => some { row with isActive := false }) = .writes written) :
    Guarded (system.after i (.promoting now draft accepted, written)) := by
  have hclean : (system.tasks i).isClean = true := by
    rw [htask]
    rfl
  refine h.updates hupdate ?_ rfl ?_ ?_ nofun
  · intro row row' hrow'
    cases hrow'
    rfl
  · exact fun cell hcell version hpending =>
      absurd hpending (h.none_pending hclean hcell)
  · intro cell hcell row hseen hfound
    rw [h.committed_of_seen hclean hcell hseen]
    exact Keeps.deactivated (of_decide_eq_true hfound).2

/-- A draft is promoted. -/
theorem promotes (h : Guarded system) {now : Rat} {draft : PolicyRow δ}
    {accepted : δ} (htask : system.tasks i = .promoting now draft accepted)
    (haccepted : ∀ row ∈ system.store.committed, row.id = draft.id →
      row.document = accepted)
    (hupdate : system.store.update i (fun row => decide (row.id = draft.id))
      (PolicyRoutes.promote now) = .writes written)
    (hmatched : ∃ row ∈ system.store.rows i, row.id = draft.id) :
    Guarded (system.after i
      (.committing (some ⟨draft.id, accepted⟩), written)) := by
  -- The row of the draft is not one of those just deactivated.
  have hcommitted : ∀ cell ∈ system.store, ∀ row, cell.seen i = some row →
      row.id = draft.id → cell.committed = some row := by
    intro cell hcell row hseen hid
    cases howned : cell.isOwned i with
    | false =>
        rw [Cell.seen_of_not_owned howned] at hseen
        exact hseen
    | true =>
        obtain ⟨version, hpending⟩ := Cell.isOwned_iff.mp howned
        rw [Cell.seen_of_pending hpending] at hseen
        exact absurd hid ((h.kept cell hcell i _ hpending).apart _ _ _ htask
          row hseen)
  have hdocument : ∀ cell ∈ system.store, ∀ row, cell.seen i = some row →
      row.id = draft.id → row.document = accepted := by
    intro cell hcell row hseen hid
    exact haccepted row (List.mem_filterMap.mpr
      ⟨cell, hcell, hcommitted cell hcell row hseen hid⟩) hid
  refine h.updates hupdate ?_ rfl ?_ ?_ ?_
  · intro row row' hrow'
    cases hrow'
    rfl
  · intro cell hcell version hpending
    have hkeeps : Keeps (system.tasks i) cell.committed version :=
      h.kept cell hcell i version hpending
    rw [htask] at hkeeps
    exact hkeeps.promoting _
  · intro cell hcell row hseen hfound
    have hid := of_decide_eq_true hfound
    rw [hcommitted cell hcell row hseen hid, ← hid,
      ← hdocument cell hcell row hseen hid]
    exact Keeps.promoted now row
  · intro p hp
    cases hp
    obtain ⟨row, hrow, hid⟩ := hmatched
    obtain ⟨cell, hcell, hseen⟩ := List.mem_filterMap.mp hrow
    refine ⟨cell.update i (fun row => decide (row.id = draft.id))
      (PolicyRoutes.promote now), ?_, PolicyRow.published now row, ?_,
        hid, rfl, hdocument cell hcell row hseen hid⟩
    · rw [(Store.update_ok hupdate).1]
      exact List.mem_map_of_mem hcell
    · unfold Cell.update
      rw [hseen]
      simp only [hid, decide_true, if_true]
      rfl

theorem step_request (h : Guarded system) {request : PolicyRequest δ}
    (htask : system.tasks i = .ready request) :
    Guarded (system.after i
      (routes.step i (.ready request) system.store)) := by
  have hclean : (system.tasks i).isClean = true := by
    rw [htask]
    rfl
  cases request with
  | createDraft tenantId id name =>
      simp only [PolicyRoutes.step]
      split
      · exact h.fails _
      · exact h.reads hclean (Or.inl rfl)
  | updateDraft tenantId name document =>
      simp only [PolicyRoutes.step]
      split
      · exact h.fails _
      · split
        · exact h.fails _
        · exact h.reads hclean (Or.inl rfl)
  | discardDraft tenantId name =>
      simp only [PolicyRoutes.step]
      split
      · exact h.fails _
      · exact h.reads hclean (Or.inl rfl)
  | publishDraft tenantId name now =>
      simp only [PolicyRoutes.step]
      split
      · exact h.fails _
      · split
        · exact h.reads hclean (Or.inl rfl)
        · exact h.fails _

/-- A statement of a transaction that does not commit yet. -/
theorem step (h : Guarded system)
    (hundisturbed : Undisturbed routes system (.runs i))
    (hopen : ∀ publication, system.tasks i ≠ .committing publication) :
    Guarded (system.after i
      (routes.step i (system.tasks i) system.store)) := by
  have hwaits : Guarded (system.after i (system.tasks i, system.store)) := by
    rw [after_self]
    exact h
  unfold Undisturbed at hundisturbed
  cases htask : system.tasks i with
  | ready request => exact h.step_request htask
  | seeding tenantId id name =>
      simp only [PolicyRoutes.step]
      split
      · exact h.fails _
      · exact h.reads (htask ▸ rfl) (Or.inl rfl)
  | numbering tenantId id name document =>
      exact h.reads (htask ▸ rfl) (Or.inl rfl)
  | inserting tenantId id name version document =>
      simp only [PolicyRoutes.step]
      split
      · rw [← htask]
        exact hwaits
      · exact h.fails _
      · rename_i written hinsert
        have hinserts := h.inserts (htask ▸ rfl) rfl hinsert
        exact hinserts.responds document
  | editing draft document =>
      simp only [htask] at hundisturbed
      simp only [PolicyRoutes.step]
      split
      · exact h.reads (htask ▸ rfl) (Or.inr rfl)
      · rename_i hsame
        have hdraft := hundisturbed (Bool.eq_false_iff.mpr hsame)
        split
        · rw [← htask]
          exact hwaits
        · exact h.fails _
        · rename_i written hupdate
          split
          · exact h.edits htask hdraft hupdate
          · exact h.fails _
  | deleting id =>
      simp only [htask] at hundisturbed
      simp only [PolicyRoutes.step]
      split
      · rw [← htask]
        exact hwaits
      · exact h.fails _
      · rename_i written hupdate
        exact h.deletes htask hundisturbed hupdate
  | comparing tenantId name now draft =>
      simp only [PolicyRoutes.step]
      split
      · exact h.reads (htask ▸ rfl) (Or.inl rfl)
      · split
        · exact h.fails _
        · exact h.reads (htask ▸ rfl) (Or.inl rfl)
  | confirming tenantId name now accepted loaded =>
      simp only [PolicyRoutes.step]
      split
      · exact h.fails _
      · exact h.reads (htask ▸ rfl) (Or.inl rfl)
  | deactivating tenantId name now draft accepted =>
      simp only [PolicyRoutes.step]
      split
      · rw [← htask]
        exact hwaits
      · exact h.fails _
      · rename_i written hupdate
        exact h.deactivates htask hupdate
  | promoting now draft accepted =>
      simp only [htask] at hundisturbed
      simp only [PolicyRoutes.step]
      split
      · rw [← htask]
        exact hwaits
      · exact h.fails _
      · rename_i written hupdate
        split
        · rename_i hmatched
          exact (h.promotes htask hundisturbed hupdate hmatched).responds _
        · exact h.fails _
  | committing publication => exact absurd htask (hopen publication)
  | done outcome =>
      rw [htask] at hwaits
      exact hwaits

/-- What every statement preserves that finds its row undisturbed. -/
theorem systemStep (h : Guarded system) {event : PolicyEvent ι}
    (hundisturbed : Undisturbed routes system event) :
    Guarded (routes.systemStep system event) := by
  cases event with
  | aborts i =>
      unfold PolicyRoutes.systemStep
      simp only
      split
      · exact h
      · exact h.fails _
  | runs i =>
      simp only [PolicyRoutes.systemStep]
      by_cases hcommits : ∃ publication,
          system.tasks i = .committing publication
      · obtain ⟨publication, htask⟩ := hcommits
        simp only [htask]
        exact h.commits htask
      · have hopen : ∀ publication,
            system.tasks i ≠ .committing publication :=
          fun publication htask => hcommits ⟨publication, htask⟩
        have hnothing : (system.tasks i).publishing = [] := by
          unfold PolicyTask.publishing
          split
          · rename_i publication htask
            exact absurd htask (hopen publication)
          · rfl
        simp only [hnothing, List.append_nil]
        exact h.step hundisturbed hopen

end Guarded

-- ==================================================== what is accepted

/-- The document a publication under way has accepted. -/
def PolicyTask.accepting : PolicyTask δ → Option δ
  | .comparing _ _ _ draft => some draft.document
  | .confirming _ _ _ accepted _ => some accepted
  | .deactivating _ _ _ _ accepted => some accepted
  | .promoting _ _ accepted => some accepted
  | .committing publication => publication.map Publication.document
  | _ => none

def Publishable (routes : PolicyRoutes δ) (document : δ) : Prop :=
  (validateDraft (routes.validate document)).valid = true

/-- What a transaction goes on to publish was accepted when it read it. -/
theorem accepting_step {routes : PolicyRoutes δ} (task : PolicyTask δ)
    {store : PolicyStore ι δ} {document : δ}
    (h : (routes.step i task store).1.accepting = some document) :
    task.accepting = some document ∨ Publishable routes document := by
  have hresponds : ∀ shown publication (store : PolicyStore ι δ),
      (routes.respond i shown publication store).1.accepting =
        some document → publication.map Publication.document = some document := by
    intro shown publication store hresponds
    unfold PolicyRoutes.respond at hresponds
    split at hresponds
    · cases hresponds
    · exact hresponds
  cases task with
  | ready request =>
      cases request with
      | publishDraft tenantId name now =>
          simp only [PolicyRoutes.step] at h
          split at h
          · cases h
          · split at h
            · rename_i hvalid
              cases h
              exact Or.inr hvalid
            · cases h
      | createDraft tenantId id name =>
          simp only [PolicyRoutes.step] at h
          split at h <;> cases h
      | updateDraft tenantId name edited =>
          simp only [PolicyRoutes.step] at h
          split at h
          · cases h
          · split at h <;> cases h
      | discardDraft tenantId name =>
          simp only [PolicyRoutes.step] at h
          split at h <;> cases h
  | seeding tenantId id name =>
      simp only [PolicyRoutes.step] at h
      split at h <;> cases h
  | numbering tenantId id name document => cases h
  | inserting tenantId id name version document =>
      simp only [PolicyRoutes.step] at h
      split at h
      · cases h
      · cases h
      · cases hresponds _ _ _ h
  | editing draft edited =>
      simp only [PolicyRoutes.step] at h
      split at h
      · cases h
      · split at h
        · cases h
        · cases h
        · split at h <;> cases h
  | deleting id =>
      simp only [PolicyRoutes.step] at h
      split at h <;> cases h
  | comparing tenantId name now draft =>
      simp only [PolicyRoutes.step] at h
      split at h
      · exact Or.inl h
      · split at h
        · cases h
        · exact Or.inl h
  | confirming tenantId name now accepted loaded =>
      simp only [PolicyRoutes.step] at h
      split at h
      · cases h
      · exact Or.inl h
  | deactivating tenantId name now draft accepted =>
      simp only [PolicyRoutes.step] at h
      split at h
      · exact Or.inl h
      · cases h
      · exact Or.inl h
  | promoting now draft accepted =>
      simp only [PolicyRoutes.step] at h
      split at h
      · exact Or.inl h
      · cases h
      · split at h
        · exact Or.inl (hresponds _ _ _ h)
        · cases h
  | committing publication => cases h
  | done outcome => cases h

/-- Every publication since these was of a document that was accepted. -/
structure Accepted (routes : PolicyRoutes δ)
    (before : List (Publication δ)) (system : PolicySystem ι δ) : Prop where
  underWay : ∀ i document, (system.tasks i).accepting = some document →
    Publishable routes document
  published : ∀ p ∈ system.publications,
    p ∈ before ∨ Publishable routes p.document

theorem Accepted.systemStep {routes : PolicyRoutes δ}
    {before : List (Publication δ)} (h : Accepted routes before system)
    (event : PolicyEvent ι) :
    Accepted routes before (routes.systemStep system event) := by
  -- A task is another's, as it was, or the next of this one.
  have hafter : ∀ result : PolicyTask δ × PolicyStore ι δ,
      (∀ document, result.1.accepting = some document →
        Publishable routes document) → ∀ i j document,
      ((system.after i result).tasks j).accepting = some document →
        Publishable routes document := by
    intro result hresult i j document hdocument
    rw [after_task] at hdocument
    split at hdocument
    · exact hresult document hdocument
    · exact h.underWay j document hdocument
  cases event with
  | aborts i =>
      simp only [PolicyRoutes.systemStep]
      split
      · exact h
      · refine ⟨hafter _ ?_ i, h.published⟩
        intro document hdocument
        cases hdocument
  | runs i =>
      constructor
      · apply hafter
        intro document hdocument
        rcases accepting_step _ hdocument with hold | hvalid
        · exact h.underWay i document hold
        · exact hvalid
      · intro p hp
        rcases List.mem_append.mp hp with hold | hnew
        · exact h.published p hold
        · right
          unfold PolicyTask.publishing at hnew
          split at hnew
          · rename_i publication htask
            rw [Option.mem_toList] at hnew
            apply h.underWay i
            rw [htask, hnew]
            rfl
          · cases hnew

-- ==================================================== runs

variable {routes : PolicyRoutes δ} {table : PolicyTable δ}
  {requests : ι → PolicyRequest δ}

omit [DecidableEq ι] in
theorem committed_start :
    (PolicySystem.start table requests).store.committed = table := by
  show (table.map _).filterMap _ = table
  rw [List.filterMap_map]
  exact List.filterMap_some

theorem guarded_start (hindexed : Indexed table) :
    Guarded (PolicySystem.start table requests) := by
  have hnothing : ∀ cell ∈ (PolicySystem.start table requests).store,
      cell.pending = none := by
    intro cell hcell
    obtain ⟨row, -, rfl⟩ := List.mem_map.mp hcell
    rfl
  constructor
  · apply List.pairwise_map.mpr
    refine (List.pairwise_map.mp hindexed).imp ?_
    intro row other hne row' hrow' other' hother'
    rw [Cell.versions, Option.bind_none, Option.toList_none,
      List.append_nil, Option.mem_toList] at hrow' hother'
    cases hrow'
    cases hother'
    exact hne
  · intro cell hcell i version hpending
    rw [hnothing cell hcell] at hpending
    cases hpending
  · intro i _ cell hcell
    unfold Cell.isOwned
    rw [hnothing cell hcell]
  · intro i p htask
    cases htask
  · constructor
    · intro p hp
      rw [committed_start]
      obtain ⟨row, hrow, rfl⟩ := List.mem_map.mp hp
      exact ⟨row, List.mem_of_mem_filter hrow, rfl⟩
    · intro p hp row hrow hid
      rw [committed_start] at hrow
      obtain ⟨old, hold, rfl⟩ := List.mem_map.mp hp
      obtain ⟨hmem, hpublished⟩ := List.mem_filter.mp hold
      rw [hindexed.eq_of_id hrow hmem hid]
      exact ⟨of_decide_eq_true hpublished, rfl⟩
    · intro row hrow hpublished
      rw [committed_start] at hrow
      exact List.mem_map.mpr ⟨row, List.mem_filter.mpr
        ⟨hrow, decide_eq_true hpublished⟩, rfl⟩

theorem accepted_run (events : List (PolicyEvent ι)) :
    Run.Throughout routes.systemStep
      (Accepted routes (PolicySystem.start table requests).publications)
      (PolicySystem.start table requests) events := by
  refine Run.invariant (fun _ event h => h.systemStep event) ⟨?_, ?_⟩ events
  · intro i document hdocument
    cases show none = some document from hdocument
  · exact fun _ hp => Or.inl hp

/-- Where every statement finds its row undisturbed, a published row holds
what its publication accepted, from then on and whatever is interleaved. -/
theorem published_immutable {events : List (PolicyEvent ι)}
    (hindexed : Indexed table)
    (h : Run.Along routes.systemStep (Undisturbed routes)
      (PolicySystem.start table requests) events) :
    Run.Throughout routes.systemStep
      (fun system => Immutable system ∧ ∀ p ∈ system.publications,
        p ∈ (PolicySystem.start table requests).publications ∨
          Publishable routes p.document)
      (PolicySystem.start table requests) events := by
  have hguarded : Run.Throughout routes.systemStep Guarded
      (PolicySystem.start table requests) events :=
    h.invariant (fun _ _ hundisturbed hguarded =>
      hguarded.systemStep hundisturbed) (guarded_start hindexed)
  intro before after hevents
  exact ⟨(hguarded before after hevents).immutable,
    (accepted_run events before after hevents).published⟩

-- ==================================================== two transactions

/-- Documents are numbers, and all of them are publishable. -/
def plainRoutes : PolicyRoutes Nat where
  validate _ := .ok
    { document :=
        { name := "a".toList, sessionTtlSeconds := 3600, maxEntities := 100
          providers := [], entities := []
          sessionTtl_bounded := hour_le_maxSessionTtl
          maxEntities_bounded := hundred_le_maxEntityBudget }
      recognizers := [] }
  same document loaded := document == loaded

/-- A published version, and a draft over it. -/
def draftedTable : PolicyTable Nat := [
  ⟨⟨2⟩, some ⟨1⟩, "a".toList, 1, 5, true, .published, some 0⟩,
  ⟨⟨3⟩, some ⟨1⟩, "a".toList, 2, 10, false, .draft, none⟩]

/-- One operator edits the draft, and another publishes it. -/
def editAndPublish : Bool → PolicyRequest Nat
  | true => .updateDraft ⟨1⟩ "a".toList 99
  | false => .publishDraft ⟨1⟩ "a".toList 1

def runEditAndPublish (events : List (PolicyEvent Bool)) :
    PolicySystem Bool Nat :=
  events.foldl plainRoutes.systemStep
    (PolicySystem.start draftedTable editAndPublish)

/-- The edit has committed when the publication begins. -/
theorem published_immutable_edited :
    Run.Throughout plainRoutes.systemStep
      (fun system => Immutable system ∧ ∀ p ∈ system.publications,
        p ∈ (PolicySystem.start draftedTable editAndPublish).publications ∨
          Publishable plainRoutes p.document)
      (PolicySystem.start draftedTable editAndPublish)
      (List.replicate 3 (.runs true) ++ List.replicate 6 (.runs false)) := by
  have hindexed : Indexed draftedTable := by
    unfold Indexed
    decide
  apply published_immutable hindexed
  simp only [List.replicate, List.cons_append, List.nil_append,
    Run.along_cons_iff]
  refine ⟨?_, ?_, ?_, ?_, ?_, ?_, ?_, ?_, ?_, Run.along_nil⟩
  all_goals decide +kernel

/-- The edit reads the draft, and writes when it has been published. -/
def lateEdit : List (PolicyEvent Bool) :=
  [.runs true] ++ List.replicate 6 (.runs false) ++
    List.replicate 2 (.runs true)

/-- The publication reads the draft, and writes when it has been edited. -/
def stalePublication : List (PolicyEvent Bool) :=
  [.runs false] ++ List.replicate 3 (.runs true) ++
    List.replicate 5 (.runs false)

/-- An edit that read the draft before it was published changes the
published row, and a publication that read the draft before it was edited
publishes what it did not validate. -/
theorem published_rewritten :
    ¬ Immutable (runEditAndPublish lateEdit) ∧
      ¬ Immutable (runEditAndPublish stalePublication) := by
  have hbroken : ∀ system : PolicySystem Bool Nat,
      system.publications = [⟨⟨2⟩, 5⟩, ⟨⟨3⟩, 10⟩] →
      ⟨⟨3⟩, some ⟨1⟩, "a".toList, 2, 99, true, .published, some 1⟩ ∈
        system.store.committed → ¬ Immutable system := by
    intro system hpublications hrow himmutable
    have hrecorded := himmutable.recorded _ hrow rfl
    rw [hpublications] at hrecorded
    exact absurd hrecorded (by decide)
  refine ⟨hbroken _ ?_ ?_, hbroken _ ?_ ?_⟩
  all_goals decide +kernel

end PrivacyGateway.Policy
