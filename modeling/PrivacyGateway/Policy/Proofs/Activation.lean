/-
One active version of a policy, whatever is interleaved.

A publication deactivates the other versions of its name in one statement
and activates its own in the next, and both are visible only when it
commits. What keeps a second publication of the name out in between is a
lock: a version that was published from the start is never a draft again,
so no discard deletes it and every deactivation writes it (`Target`,
`Locks.taken`). Two publications of a name never hold it together
(`Exclusive.alone`), and what a publication has cleared then stays cleared
until it commits (`Clears`).

Ids are drawn at random, which is here that no two of them are the same
(`Drawn`). So an id has its name once and for all (`Registered.unique`).
-/
import PrivacyGateway.Policy.Proofs.Statements

namespace PrivacyGateway.Policy

open ReadCommitted PolicyRepository

variable {δ ι : Type}

-- ==================================================== names

section Names

variable (table : PolicyTable δ) (requests : ι → PolicyRequest δ)

/-- The ids that requests draw are no two the same, and new. -/
structure Drawn : Prop where
  apart : ∀ i tenantId id name,
    requests i = .createDraft tenantId id name → ∀ row ∈ table, row.id ≠ id
  distinct : ∀ i j tenantId tenantId' id name name',
    requests i = .createDraft tenantId id name →
      requests j = .createDraft tenantId' id name' → i = j

/-- The id is that of a row of this name: there from the start, or opened
by a request. -/
def Registered (id : UUID) (tenantId : Option UUID) (name : Text) : Prop :=
  (∃ row ∈ table, row.id = id ∧ row.tenantId = tenantId ∧
    row.name = name) ∨
  ∃ i owner, tenantId = some owner ∧
    requests i = .createDraft owner id name

/-- The id of a version that was published from the start. -/
def Base (id : UUID) : Prop :=
  ∃ row ∈ table, row.id = id ∧ row.status = .published

/-- A version of the name was published from the start. -/
def Anchored (tenantId : UUID) (name : Text) : Prop :=
  ∃ row ∈ table, row.Named tenantId name ∧ row.status = .published

/-- A table where a tenant's policy has one active version at most, and a
draft is of a policy that has a published version. -/
structure Seeded : Prop where
  indexed : Indexed table
  anchored : ∀ row ∈ table, ∀ tenantId, row.tenantId = some tenantId →
    Anchored table tenantId row.name
  one : ∀ tenantId name, ∀ row ∈ table, ∀ row' ∈ table,
    row.Named tenantId name → row'.Named tenantId name →
    row.isActive = true → row'.isActive = true → row.id = row'.id

/-- What a row is, whatever becomes of it. -/
structure Regular (row : PolicyRow δ) : Prop where
  registered : Registered table requests row.id row.tenantId row.name
  anchored : ∀ tenantId, row.tenantId = some tenantId →
    Anchored table tenantId row.name
  base : Base table row.id → row.status = .published

/-- A row that may be published or discarded: it was read as a draft. -/
structure Target (id tenantId : UUID) (name : Text) : Prop where
  notBase : ¬ Base table id
  registered : Registered table requests id (some tenantId) name
  anchored : Anchored table tenantId name

end Names

variable {table : PolicyTable δ} {requests : ι → PolicyRequest δ}
  {tenantId tenantId' id : UUID} {name name' : Text}
  {row row' : PolicyRow δ}

/-- An id is drawn for one name of one tenant. -/
theorem Registered.unique (hindexed : Indexed table)
    (hdrawn : Drawn table requests) {owner owner' : Option UUID}
    (h : Registered table requests id owner name)
    (h' : Registered table requests id owner' name') :
    owner = owner' ∧ name = name' := by
  rcases h with ⟨row, hrow, hid, rfl, rfl⟩ | ⟨i, tenant, rfl, hi⟩
  · rcases h' with ⟨row', hrow', hid', rfl, rfl⟩ | ⟨j, tenant', rfl, hj⟩
    · rw [hindexed.eq_of_id hrow hrow' (hid.trans hid'.symm)]
      exact ⟨rfl, rfl⟩
    · exact absurd hid (hdrawn.apart j _ _ _ hj row hrow)
  · rcases h' with ⟨row', hrow', hid', rfl, rfl⟩ | ⟨j, tenant', rfl, hj⟩
    · exact absurd hid' (hdrawn.apart i _ _ _ hi row' hrow')
    · rw [hdrawn.distinct i j _ _ _ _ _ hi hj, hj] at hi
      cases hi
      exact ⟨rfl, rfl⟩

/-- A target's row is of its name. -/
theorem Target.named (h : Target table requests id tenantId name)
    (hindexed : Indexed table) (hdrawn : Drawn table requests)
    (hrow : Regular table requests row) (hid : row.id = id) :
    row.Named tenantId name :=
  Registered.unique hindexed hdrawn (hid ▸ hrow.registered) h.registered

/-- Rows of one id are of one name. -/
theorem Regular.named (h : Regular table requests row)
    (h' : Regular table requests row') (hindexed : Indexed table)
    (hdrawn : Drawn table requests) (hid : row.id = row'.id)
    (hnamed : row.Named tenantId name) : row'.Named tenantId name := by
  obtain ⟨htenant, hname⟩ := Registered.unique hindexed hdrawn
    (hid ▸ h.registered) h'.registered
  exact ⟨htenant ▸ hnamed.1, hname ▸ hnamed.2⟩

/-- A draft is a target. -/
theorem Regular.target (h : Regular table requests row)
    (hnamed : row.Named tenantId name) (hdraft : row.status = .draft) :
    Target table requests row.id tenantId name := by
  constructor
  · intro hbase
    rw [h.base hbase] at hdraft
    cases hdraft
  · rw [← hnamed.1, ← hnamed.2]
    exact h.registered
  · rw [← hnamed.2]
    exact h.anchored tenantId hnamed.1

/-- A row that is changed, but not in its name, and that is not unpublished. -/
theorem Regular.changed (h : Regular table requests row)
    (hid : row'.id = row.id) (htenant : row'.tenantId = row.tenantId)
    (hname : row'.name = row.name)
    (hstatus : row.status = .published → row'.status = .published) :
    Regular table requests row' := by
  constructor
  · rw [hid, htenant, hname]
    exact h.registered
  · rw [htenant, hname]
    exact h.anchored
  · rw [hid]
    exact fun hbase => hstatus (h.base hbase)

-- ==================================================== what is pending

/-- The row that a publication under way has deactivated the others for. -/
def PolicyTask.publishes : PolicyTask δ → Option UUID
  | .promoting _ draft _ => some draft.id
  | .committing publication => publication.map Publication.id
  | _ => none

/-- What a transaction may have pending of a row. It makes no row active
but the one that it publishes. -/
structure Lawful (table : PolicyTable δ) (target : Option UUID)
    (before after : Option (PolicyRow δ)) : Prop where
  same : ∀ row row', before = some row → after = some row' →
    row'.id = row.id
  kept : ∀ row, before = some row → Base table row.id → after.isSome
  fresh : ∀ row', before = none → after = some row' → ¬ Base table row'.id
  active : ∀ row', after = some row' → row'.isActive = true →
    (∃ row, before = some row ∧ row.isActive = true) ∨
      target = some row'.id

/-- What a transaction has found of the rows it goes on to write. -/
def HoldsTarget (table : PolicyTable δ) (requests : ι → PolicyRequest δ)
    (i : ι) : PolicyTask δ → Prop
  | .ready request => request = requests i
  | .seeding tenantId id name => requests i = .createDraft tenantId id name
  | .numbering tenantId id name _ =>
      requests i = .createDraft tenantId id name ∧
        Anchored table tenantId name
  | .inserting tenantId id name _ _ =>
      requests i = .createDraft tenantId id name ∧
        Anchored table tenantId name
  | .deleting id => ¬ Base table id
  | .deactivating tenantId name _ draft _ =>
      Target table requests draft.id tenantId name
  | _ => True

/-- The other versions of a name are inactive when the transaction commits,
and no other transaction has the lock on the name. -/
structure Clears [DecidableEq ι] (table : PolicyTable δ)
    (requests : ι → PolicyRequest δ) (i : ι) (id tenantId : UUID)
    (name : Text) (store : PolicyStore ι δ) : Prop where
  target : Target table requests id tenantId name
  locks : Locks i (fun row => row.Named tenantId name ∧ Base table row.id)
    store
  awaits : Awaits i (fun row => row.Named tenantId name → row.id ≠ id →
    row.isActive = false) store

/-- No two versions of one name are active. -/
def OneActive (table : PolicyTable δ) : Prop :=
  ∀ tenantId name, ∀ row ∈ table, ∀ row' ∈ table,
    row.Named tenantId name → row'.Named tenantId name →
    row.isActive = true → row'.isActive = true → row = row'

/-- The invariant of the system: what its rows are (`regular`), what a
transaction may write to them (`lawful`, `held`), and what one that
publishes has done so far (`clears`, `announced`). -/
structure Exclusive [DecidableEq ι] (table : PolicyTable δ)
    (requests : ι → PolicyRequest δ) (system : PolicySystem ι δ) :
    Prop where
  indexed : Indexed table
  drawn : Drawn table requests
  regular : Everywhere (Regular table requests) system.store
  separate : Separate PolicyRow.id system.store
  fresh : ∀ i, (system.tasks i).isClean = true →
    ∀ cell ∈ system.store, cell.isOwned i = false
  lawful : Obeys (fun i => Lawful table (system.tasks i).publishes)
    system.store
  bases : ∀ id, Base table id →
    ∃ row ∈ system.store.committed, row.id = id
  held : ∀ i, HoldsTarget table requests i (system.tasks i)
  clears : ∀ i id, (system.tasks i).publishes = some id →
    ∃ tenantId name,
      Clears table requests i id tenantId name system.store
  announced : ∀ i p, system.tasks i = .committing (some p) →
    Pends i (fun row => row.id = p.id ∧ row.isActive = true) system.store
  one : OneActive system.store.committed

/-- What a statement makes of a row that it finds. -/
structure Rewrites (target : Option UUID) (row row' : PolicyRow δ) :
    Prop where
  id : row'.id = row.id
  tenant : row'.tenantId = row.tenantId
  name : row'.name = row.name
  status : row.status = .published → row'.status = .published
  active : row'.isActive = true →
    row.isActive = true ∨ target = some row'.id

/-- A row that is rewritten stays what it was registered as. -/
theorem Rewrites.regular {target : Option UUID}
    (h : Rewrites target row row') (hrow : Regular table requests row) :
    Regular table requests row' :=
  hrow.changed h.id h.tenant h.name h.status

namespace Exclusive

variable [DecidableEq ι] {system : PolicySystem ι δ} {i j : ι}
  {next : PolicyTask δ} {written : PolicyStore ι δ}

/-- The lock on a name is a row of the table. -/
theorem anchor (h : Exclusive table requests system)
    (hanchored : Anchored table tenantId name) :
    ∃ row ∈ system.store.committed, row.Named tenantId name ∧
      Base table row.id := by
  obtain ⟨base, hbase, hnamed, hpublished⟩ := hanchored
  obtain ⟨row, hrow, hid⟩ := h.bases base.id ⟨base, hbase, rfl, hpublished⟩
  refine ⟨row, hrow, ?_, base, hbase, hid.symm, hpublished⟩
  have hregistered := (h.regular.of_committed row hrow).registered
  rw [hid] at hregistered
  obtain ⟨htenant, hname⟩ := Registered.unique h.indexed h.drawn
    hregistered (Or.inl ⟨base, hbase, rfl, rfl, rfl⟩)
  exact ⟨htenant.trans hnamed.1, hname.trans hnamed.2⟩

/-- Two publications of a name do not hold the lock together. -/
theorem alone (h : Exclusive table requests system) {id' : UUID}
    (hi : Clears table requests i id tenantId name system.store)
    (hj : Clears table requests j id' tenantId name system.store) :
    i = j := by
  obtain ⟨row, hrow, hkind⟩ := h.anchor hi.target.anchored
  exact hi.locks.exclusive hj.locks hrow hkind

/-- An active row that a transaction sees is active when it is committed,
or is the one that the transaction publishes. -/
theorem seen_active (h : Exclusive table requests system)
    {cell : Cell ι (PolicyRow δ)} (hcell : cell ∈ system.store)
    (hseen : cell.seen i = some row) (hactive : row.isActive = true) :
    (∃ old, cell.committed = some old ∧ old.isActive = true) ∨
      (system.tasks i).publishes = some row.id := by
  cases howned : cell.isOwned i with
  | false =>
      rw [Cell.seen_of_not_owned howned] at hseen
      exact Or.inl ⟨row, hseen, hactive⟩
  | true =>
      obtain ⟨version, hpending⟩ := Cell.isOwned_iff.mp howned
      rw [Cell.seen_of_pending hpending] at hseen
      exact (h.lawful cell hcell i version hpending).active row hseen
        hactive

/-- What is written of a row is lawful. -/
theorem lawful_write (h : Exclusive table requests system)
    {cell : Cell ι (PolicyRow δ)} (hcell : cell ∈ system.store)
    (hseen : cell.seen i = some row) {after : Option (PolicyRow δ)}
    {target : Option UUID}
    (hrewrites : ∀ row', after = some row' →
      Rewrites (system.tasks i).publishes row row')
    (hdeletes : after = none → ¬ Base table row.id)
    (hkeeps : ∀ id, (system.tasks i).publishes = some id →
      target = some id) : Lawful table target cell.committed after := by
  -- The row as it is seen has the id it is committed under.
  have hsame : ∀ old, cell.committed = some old → row.id = old.id := by
    intro old hold
    cases howned : cell.isOwned i with
    | false =>
        rw [Cell.seen_of_not_owned howned, hold] at hseen
        cases hseen
        rfl
    | true =>
        obtain ⟨version, hpending⟩ := Cell.isOwned_iff.mp howned
        rw [Cell.seen_of_pending hpending] at hseen
        exact (h.lawful cell hcell i version hpending).same old row hold
          hseen
  constructor
  · intro old row' hold hafter
    rw [(hrewrites row' hafter).id, hsame old hold]
  · intro old hold hbase
    cases after with
    | none =>
        rw [← hsame old hold] at hbase
        exact absurd hbase (hdeletes rfl)
    | some row' => rfl
  · intro row' hnone hafter
    have howned : cell.isOwned i = true := by
      cases howned : cell.isOwned i with
      | false =>
          rw [Cell.seen_of_not_owned howned, hnone] at hseen
          cases hseen
      | true => rfl
    obtain ⟨version, hpending⟩ := Cell.isOwned_iff.mp howned
    rw [Cell.seen_of_pending hpending] at hseen
    rw [(hrewrites row' hafter).id]
    exact (h.lawful cell hcell i version hpending).fresh row hnone hseen
  · intro row' hafter hactive
    rcases (hrewrites row' hafter).active hactive with hbefore | htarget
    · rcases h.seen_active hcell hseen hbefore with hold | htarget
      · exact Or.inl hold
      · right
        rw [(hrewrites row' hafter).id]
        exact hkeeps _ htarget
    · exact Or.inr (hkeeps _ htarget)

/-- A version that another transaction writes does not undo what a
publication has cleared. -/
theorem quiet_write (h : Exclusive table requests system)
    (hclears : Clears table requests j id tenantId name system.store)
    (hother : i ≠ j)
    (hrow : Regular table requests row)
    (hrewrites : Rewrites (system.tasks i).publishes row row')
    (hquiet : row.Named tenantId name → row.id ≠ id →
      row.isActive = false) :
    row'.Named tenantId name → row'.id ≠ id → row'.isActive = false := by
  intro hnamed hid
  cases hactive : row'.isActive with
  | false => rfl
  | true =>
      exfalso
      rcases hrewrites.active hactive with hbefore | htarget
      · rw [hquiet ⟨hrewrites.tenant ▸ hnamed.1,
          hrewrites.name ▸ hnamed.2⟩ (hrewrites.id ▸ hid)] at hbefore
        cases hbefore
      · obtain ⟨tenantId', name', hclears'⟩ := h.clears i _ htarget
        obtain ⟨htenant, rfl⟩ := hclears'.target.named h.indexed h.drawn
          (hrewrites.regular hrow) rfl
        rw [hnamed.1] at htenant
        cases htenant
        rw [hnamed.2] at hclears'
        exact hother (h.alone hclears' hclears)

/-- A statement that only reads. -/
theorem reads (h : Exclusive table requests system)
    {task : PolicyTask δ} (htask : system.tasks i = task)
    (hclean : next.isClean = true → task.isClean = true)
    (htarget : next.publishes = task.publishes)
    (hheld : HoldsTarget table requests i next)
    (hannounced : ∀ p, next ≠ .committing (some p)) :
    Exclusive table requests (system.after i (next, system.store)) := by
  have htargets : ∀ j,
      ((system.after i (next, system.store)).tasks j).publishes =
        (system.tasks j).publishes := by
    intro j
    rw [after_task]
    split
    · rename_i hj
      rw [hj, htask]
      exact htarget
    · rfl
  rw [← htask] at hclean
  refine ⟨h.indexed, h.drawn, h.regular, h.separate, ?_, ?_, h.bases, ?_,
    ?_, ?_, h.one⟩
  · intro j hj
    rw [after_task] at hj
    split at hj
    · rename_i heq
      rw [heq]
      exact h.fresh i (hclean hj)
    · exact h.fresh j hj
  · simp only [htargets]
    exact h.lawful
  · intro j
    rw [after_task]
    split
    · rename_i hj
      rw [hj]
      exact hheld
    · exact h.held j
  · intro j
    rw [htargets]
    exact h.clears j
  · intro j p hj
    rw [after_task] at hj
    split at hj
    · exact absurd hj (hannounced p)
    · exact h.announced j p hj

/-- A statement that updates or deletes rows. -/
theorem updates (h : Exclusive table requests system)
    {task : PolicyTask δ} (htask : system.tasks i = task)
    {found : PolicyRow δ → Bool}
    {change : PolicyRow δ → Option (PolicyRow δ)}
    (hupdate : system.store.update i found change = .writes written)
    (hrewrites : ∀ row row', found row = true → change row = some row' →
      Rewrites task.publishes row row')
    (hdeletes : ∀ row, found row = true → change row = none →
      ¬ Base table row.id)
    (hdirty : next.isClean = false)
    (hkeeps : ∀ id, task.publishes = some id → next.publishes = some id)
    (hclears : ∀ id, next.publishes = some id → ∃ tenantId name,
      Clears table requests i id tenantId name written)
    (hannounced : ∀ p, next = .committing (some p) →
      Pends i (fun row => row.id = p.id ∧ row.isActive = true) written) :
    Exclusive table requests (system.after i (next, written)) := by
  rw [← htask] at hrewrites hkeeps
  have hregular : Everywhere (Regular table requests) written :=
    h.regular.update hupdate fun row row' hrow hfound hchange =>
      (hrewrites row row' hfound hchange).regular hrow
  refine ⟨h.indexed, h.drawn, hregular, ?_, ?_, ?_, ?_, ?_, ?_, ?_, ?_⟩
  · obtain ⟨rfl, -⟩ := Store.update_ok hupdate
    apply h.separate.map
    intro cell row hrow
    rcases Cell.update_cases i found change cell with hsame |
      ⟨old, hseen, hfound, hwritten⟩
    · rw [hsame] at hrow
      exact ⟨row, hrow, rfl⟩
    · rw [hwritten] at hrow
      rcases List.mem_append.mp hrow with hbefore | hafter
      · exact ⟨row, List.mem_append_left _ hbefore, rfl⟩
      · rw [Option.mem_toList] at hafter
        exact ⟨old, Cell.seen_mem_versions hseen,
          (hrewrites old row hfound hafter).id⟩
  · intro j hj
    rw [after_task] at hj
    split at hj
    · rw [hdirty] at hj
      cases hj
    · rename_i hother
      obtain ⟨rfl, -⟩ := Store.update_ok hupdate
      intro cell hcell
      obtain ⟨old, hold, rfl⟩ := List.mem_map.mp hcell
      rcases Cell.update_cases i found change old with hsame |
        ⟨row, -, -, hwritten⟩
      · rw [hsame]
        exact h.fresh j hj old hold
      · rw [hwritten]
        exact Cell.not_owned_of_owner (Cell.write_isOwned _)
          (Ne.symm hother)
  · intro cell hcell j version hpending
    obtain ⟨rfl, -⟩ := Store.update_ok hupdate
    obtain ⟨old, hold, rfl⟩ := List.mem_map.mp hcell
    rw [Cell.update_committed]
    rcases Cell.update_cases i found change old with hsame |
      ⟨row, hseen, hfound, hwritten⟩
    · rw [hsame] at hpending
      have hlawful := h.lawful old hold j version hpending
      rw [after_task]
      split
      · rename_i hj
        rw [hj] at hlawful
        refine ⟨hlawful.same, hlawful.kept, hlawful.fresh, ?_⟩
        intro row' hafter hactive
        exact (hlawful.active row' hafter hactive).imp_right (hkeeps _)
      · exact hlawful
    · rw [hwritten] at hpending
      cases hpending
      rw [after_task, if_pos rfl]
      exact h.lawful_write hold hseen
        (fun row' => hrewrites row row' hfound) (hdeletes row hfound) hkeeps
  · intro id hbase
    rw [after_store, Store.committed_update hupdate]
    exact h.bases id hbase
  · intro j
    rw [after_task]
    split
    · -- A transaction that has written has found all it needs.
      cases next <;> first | exact trivial | cases hdirty
    · exact h.held j
  · intro j id hj
    rw [after_task] at hj
    split at hj
    · rename_i heq
      rw [heq]
      exact hclears id hj
    · rename_i hother
      obtain ⟨tenantId, name, hclears⟩ := h.clears j id hj
      refine ⟨tenantId, name, hclears.target, hclears.locks.update hupdate,
        hclears.awaits.update hupdate ?_⟩
      intro cell hcell row row' hseen hfound hquiet hchange
      exact h.quiet_write hclears (Ne.symm hother)
        (h.regular cell hcell row (Cell.seen_mem_versions hseen))
        (hrewrites row row' hfound hchange) (hquiet (Ne.symm hother))
  · intro j p hj
    rw [after_task] at hj
    split at hj
    · rename_i heq
      rw [heq]
      exact hannounced p hj
    · rename_i hother
      exact (h.announced j p hj).update hupdate (Ne.symm hother)
  · rw [after_store, Store.committed_update hupdate]
    exact h.one

/-- A draft is opened. -/
theorem inserts (h : Exclusive table requests system) {id : UUID}
    {version : Int} {document : δ}
    (htask : system.tasks i = .inserting tenantId id name version document)
    (hinsert : system.store.insert i (fun other => decide (Clashes
      (PolicyRoutes.newDraft tenantId id name version document) other))
      (PolicyRoutes.newDraft tenantId id name version document) =
        .writes written) :
    Exclusive table requests
      (system.after i (.committing none, written)) := by
  have hheld := h.held i
  rw [htask] at hheld
  obtain ⟨hrequest, hanchored⟩ := hheld
  have hnew : ¬ Base table id := by
    rintro ⟨row, hrow, hid, -⟩
    exact h.drawn.apart i _ _ _ hrequest row hrow hid
  have hclean : (system.tasks i).isClean = true := by
    rw [htask]
    rfl
  refine ⟨h.indexed, h.drawn, ?_, ?_, ?_, ?_, ?_, ?_, ?_, ?_, ?_⟩
  · apply h.regular.insert hinsert
    constructor
    · exact Or.inr ⟨i, tenantId, rfl, hrequest⟩
    · intro owner howner
      cases howner
      exact hanchored
    · exact fun hbase => absurd hbase hnew
  · apply h.separate.insert hinsert (h.fresh i hclean)
    intro other hid
    exact decide_eq_true (Or.inl hid)
  · intro j hj
    rw [after_task] at hj
    split at hj
    · cases hj
    · rename_i hother
      obtain rfl := Store.insert_ok hinsert
      intro cell hcell
      rcases List.mem_append.mp hcell with hold | hlast
      · exact h.fresh j hj cell hold
      · rw [List.mem_singleton.mp hlast]
        exact decide_eq_false (Ne.symm hother)
  · intro cell hcell j version' hpending
    obtain rfl := Store.insert_ok hinsert
    rcases List.mem_append.mp hcell with hold | hlast
    · have hlawful := h.lawful cell hold j version' hpending
      rw [after_task]
      split
      · rename_i hj
        rw [hj, htask] at hlawful
        exact hlawful
      · exact hlawful
    · rw [List.mem_singleton.mp hlast] at hpending ⊢
      cases hpending
      refine ⟨?_, ?_, ?_, ?_⟩
      · intro row row' hnone
        cases hnone
      · intro row hnone
        cases hnone
      · intro row' _ hafter
        cases hafter
        exact hnew
      · intro row' hafter hactive
        cases hafter
        cases hactive
  · intro id' hbase
    rw [after_store, Store.committed_insert hinsert]
    exact h.bases id' hbase
  · intro j
    rw [after_task]
    split
    · trivial
    · exact h.held j
  · intro j id' hj
    rw [after_task] at hj
    split at hj
    · cases hj
    · obtain ⟨owner, name', hclears⟩ := h.clears j id' hj
      exact ⟨owner, name', hclears.target, hclears.locks.insert hinsert,
        hclears.awaits.insert hinsert fun _ _ => rfl⟩
  · intro j p hj
    rw [after_task] at hj
    split at hj
    · cases hj
    · obtain rfl := Store.insert_ok hinsert
      exact (h.announced j p hj).append _
  · rw [after_store, Store.committed_insert hinsert]
    exact h.one

/-- A transaction fails, or is broken off. -/
theorem fails (h : Exclusive table requests system) (e : Exn) :
    Exclusive table requests
      (system.after i (.done (.error e), system.store.rollback i)) := by
  refine ⟨h.indexed, h.drawn, h.regular.rollback, h.separate.rollback, ?_,
    ?_, ?_, ?_, ?_, ?_, ?_⟩
  · intro j hj cell hcell
    obtain ⟨old, hold, rfl⟩ := List.mem_map.mp hcell
    cases howned : (old.rollback i).isOwned j with
    | false => rfl
    | true =>
        obtain ⟨version, hpending⟩ := Cell.isOwned_iff.mp howned
        obtain ⟨hbefore, hother⟩ := Cell.rollback_pending hpending
        rw [after_task, if_neg hother] at hj
        rw [← h.fresh j hj old hold]
        exact (Cell.isOwned_iff.mpr ⟨version, hbefore⟩).symm
  · intro cell hcell j version hpending
    obtain ⟨hother, hlawful⟩ := h.lawful.rollback cell hcell j version
      hpending
    rw [after_task, if_neg hother]
    exact hlawful
  · intro id hbase
    rw [after_store, Store.committed_rollback]
    exact h.bases id hbase
  · intro j
    rw [after_task]
    split
    · trivial
    · exact h.held j
  · intro j id hj
    rw [after_task] at hj
    split at hj
    · cases hj
    · rename_i hother
      obtain ⟨tenantId, name, hclears⟩ := h.clears j id hj
      exact ⟨tenantId, name, hclears.target,
        hclears.locks.rollback (Ne.symm hother),
        hclears.awaits.rollback (Ne.symm hother)⟩
  · intro j p hj
    rw [after_task] at hj
    split at hj
    · cases hj
    · rename_i hother
      exact (h.announced j p hj).rollback (Ne.symm hother)
  · rw [after_store, Store.committed_rollback]
    exact h.one

/-- What is active after a commit was active before, or is what the
transaction publishes. -/
theorem active_commit (h : Exclusive table requests system)
    (hrow : row ∈ (system.store.commit i).committed)
    (hactive : row.isActive = true) :
    (∃ old ∈ system.store.committed, old.id = row.id ∧
      old.isActive = true) ∨ (system.tasks i).publishes = some row.id := by
  obtain ⟨cell, hcell, hcase⟩ := Store.mem_committed_commit.mp hrow
  rcases hcase with hpending | ⟨-, hcommitted⟩
  · have hlawful := h.lawful cell hcell i _ hpending
    rcases hlawful.active row rfl hactive with ⟨old, hold, hbefore⟩ | htarget
    · exact Or.inl ⟨old, List.mem_filterMap.mpr ⟨cell, hcell, hold⟩,
        (hlawful.same old row hold rfl).symm, hbefore⟩
    · exact Or.inr htarget
  · exact Or.inl ⟨row, List.mem_filterMap.mpr ⟨cell, hcell, hcommitted⟩,
      rfl, hactive⟩

/-- When a publication commits, its row is the only one of its name that
can be active. -/
theorem only_published (h : Exclusive table requests system)
    (hrow : row ∈ (system.store.commit i).committed)
    (hrow' : row' ∈ (system.store.commit i).committed)
    (hnamed : row.Named tenantId name) (hnamed' : row'.Named tenantId name)
    (hactive : row'.isActive = true)
    (htarget : (system.tasks i).publishes = some row.id) :
    row'.id = row.id := by
  obtain ⟨owner, name', hclears⟩ := h.clears i _ htarget
  obtain ⟨howner, rfl⟩ := hclears.target.named h.indexed h.drawn
    (h.regular.commit.of_committed row hrow) rfl
  rw [hnamed.1] at howner
  cases howner
  rw [hnamed.2] at hclears
  by_contra hid
  rw [hclears.awaits.of_commit row' hrow' hnamed' hid] at hactive
  cases hactive

/-- A commit leaves one active version: what it activates is alone, since it
has cleared the others. -/
theorem one_commit (h : Exclusive table requests system) :
    OneActive (system.store.commit i).committed := by
  intro tenantId name row hrow row' hrow' hnamed hnamed' hactive hactive'
  apply h.separate.commit.eq_of_committed hrow hrow'
  rcases h.active_commit hrow hactive with ⟨old, hold, hid, hbefore⟩ | htarget
  · rcases h.active_commit hrow' hactive' with
      ⟨old', hold', hid', hbefore'⟩ | htarget'
    · have hregular := h.regular.of_committed old hold
      have hregular' := h.regular.of_committed old' hold'
      rw [← hid, ← hid', h.one tenantId name old hold old' hold'
        ((h.regular.commit.of_committed row hrow).named hregular h.indexed
          h.drawn hid.symm hnamed)
        ((h.regular.commit.of_committed row' hrow').named hregular'
          h.indexed h.drawn hid'.symm hnamed') hbefore hbefore']
    · exact h.only_published hrow' hrow hnamed' hnamed hactive htarget'
  · exact (h.only_published hrow hrow' hnamed hnamed' hactive'
      htarget).symm

/-- A transaction commits. -/
theorem commits (h : Exclusive table requests system) :
    Exclusive table requests
      (system.after i (.done (.ok ()), system.store.commit i)) := by
  refine ⟨h.indexed, h.drawn, h.regular.commit, h.separate.commit, ?_,
    ?_, ?_, ?_, ?_, ?_, h.one_commit⟩
  · intro j hj cell hcell
    obtain ⟨old, hold, rfl⟩ := List.mem_map.mp hcell
    cases howned : (old.commit i).isOwned j with
    | false => rfl
    | true =>
        obtain ⟨version, hpending⟩ := Cell.isOwned_iff.mp howned
        obtain ⟨hbefore, hother⟩ := Cell.commit_pending hpending
        rw [after_task, if_neg hother] at hj
        rw [← h.fresh j hj old hold]
        exact (Cell.isOwned_iff.mpr ⟨version, hbefore⟩).symm
  · intro cell hcell j version hpending
    obtain ⟨hother, hlawful⟩ := h.lawful.commit cell hcell j version
      hpending
    rw [after_task, if_neg hother]
    exact hlawful
  · intro id hbase
    obtain ⟨row, hrow, rfl⟩ := h.bases id hbase
    obtain ⟨cell, hcell, hcommitted⟩ := List.mem_filterMap.mp hrow
    cases howned : cell.isOwned i with
    | false =>
        exact ⟨row, Store.mem_committed_commit.mpr
          ⟨cell, hcell, Or.inr ⟨howned, hcommitted⟩⟩, rfl⟩
    | true =>
        obtain ⟨version, hpending⟩ := Cell.isOwned_iff.mp howned
        have hlawful := h.lawful cell hcell i version hpending
        obtain ⟨row', rfl⟩ := Option.isSome_iff_exists.mp
          (hlawful.kept row hcommitted hbase)
        exact ⟨row', Store.mem_committed_commit.mpr
          ⟨cell, hcell, Or.inl hpending⟩,
          hlawful.same row row' hcommitted rfl⟩
  · intro j
    rw [after_task]
    split
    · trivial
    · exact h.held j
  · intro j id hj
    rw [after_task] at hj
    split at hj
    · cases hj
    · rename_i hother
      obtain ⟨tenantId, name, hclears⟩ := h.clears j id hj
      refine ⟨tenantId, name, hclears.target,
        hclears.locks.commit (Ne.symm hother) ?_,
        hclears.awaits.commit (Ne.symm hother)⟩
      intro cell hcell row hpending hkind
      have hlawful := h.lawful cell hcell i _ hpending
      cases hcommitted : cell.committed with
      | none => exact absurd hkind.2 (hlawful.fresh row hcommitted rfl)
      | some old =>
          have hid := hlawful.same old row hcommitted rfl
          refine ⟨old, rfl, ?_, hid ▸ hkind.2⟩
          exact (h.regular cell hcell row
            (Cell.pending_mem_versions hpending)).named
            (h.regular cell hcell old
              (Cell.committed_mem_versions hcommitted))
            h.indexed h.drawn hid hkind.1
  · intro j p hj
    rw [after_task] at hj
    split at hj
    · cases hj
    · rename_i hother
      exact (h.announced j p hj).commit (Ne.symm hother)

-- ==================================================== statements

/-- A deactivation that goes through meets no other publication of the
name: that one would have the lock. -/
theorem no_rival (h : Exclusive table requests system) {id id' : UUID}
    (hupdate : system.store.update i
      (fun row => decide (row.Named tenantId name ∧ row.id ≠ id))
      (fun row => some { row with isActive := false }) = .writes written)
    (htarget : Target table requests id tenantId name) (hother : j ≠ i) :
    ¬ Clears table requests j id' tenantId name system.store := by
  intro hclears
  obtain ⟨row, hrow, hnamed, hbase⟩ := h.anchor htarget.anchored
  obtain ⟨cell, hcell, hcommitted⟩ := List.mem_filterMap.mp hrow
  have howned := hclears.locks cell hcell row hcommitted ⟨hnamed, hbase⟩
  have hseen : cell.seen i = some row := by
    rw [Cell.seen_of_not_owned (Cell.not_owned_of_owner howned hother),
      hcommitted]
  have hunlocked := (Store.update_ok hupdate).2 cell hcell row hseen
    (decide_eq_true ⟨hnamed, fun hid => htarget.notBase (hid ▸ hbase)⟩)
  rw [Cell.isLocked_of_owned howned hother] at hunlocked
  cases hunlocked

/-- What a deactivation clears. -/
theorem clears_deactivated (h : Exclusive table requests system)
    {id : UUID}
    (hclean : (system.tasks i).isClean = true)
    (hnone : (system.tasks i).publishes = none)
    (htarget : Target table requests id tenantId name)
    (hupdate : system.store.update i
      (fun row => decide (row.Named tenantId name ∧ row.id ≠ id))
      (fun row => some { row with isActive := false }) =
        .writes written) :
    Clears table requests i id tenantId name written := by
  refine ⟨htarget, ?_, ?_⟩
  · apply Locks.taken hupdate (h.fresh i hclean)
    rintro row ⟨hnamed, hbase⟩
    exact decide_eq_true
      ⟨hnamed, fun hid => htarget.notBase (hid ▸ hbase)⟩
  · have hrival : ∀ j id', j ≠ i →
        ¬ Clears table requests j id' tenantId name system.store :=
      fun j id' => h.no_rival hupdate htarget
    obtain ⟨rfl, -⟩ := Store.update_ok hupdate
    intro cell hcell row hrow hnamed hid
    obtain ⟨old, hold, rfl⟩ := List.mem_map.mp hcell
    have hfresh := h.fresh i hclean old hold
    -- A version that is found is written, and is inactive then.
    rcases Cell.update_cases i _ _ old with hsame |
      ⟨seen, -, -, hwritten⟩
    · rw [hsame] at hrow
      have hversion := Cell.outcomes_subset hrow
      have hmissed : ∀ found, old.committed = some found →
          ¬ (found.Named tenantId name ∧ found.id ≠ id) := by
        intro found hfound hboth
        have howned : (old.update i
            (fun row => decide (row.Named tenantId name ∧ row.id ≠ id))
            (fun row => some { row with isActive := false })).isOwned i =
              true := by
          unfold Cell.update
          rw [Cell.seen_of_not_owned hfresh, hfound]
          simp only [decide_eq_true hboth, if_true]
          exact Cell.write_isOwned _
        rw [hsame, hfresh] at howned
        cases howned
      rcases List.mem_append.mp hversion with hbefore | hpending
      · exact absurd ⟨hnamed, hid⟩
          (hmissed row (Option.mem_toList.mp hbefore))
      · rw [Option.mem_toList, Option.bind_eq_some_iff] at hpending
        obtain ⟨⟨j, version⟩, hpending, rfl⟩ := hpending
        have hlawful := h.lawful old hold j _ hpending
        cases hactive : row.isActive with
        | false => rfl
        | true =>
            exfalso
            cases hcommitted : old.committed with
            | some found =>
                have hkey := hlawful.same found row hcommitted rfl
                refine hmissed found hcommitted ⟨?_, hkey ▸ hid⟩
                exact (h.regular old hold row
                  (Cell.pending_mem_versions hpending)).named
                  (h.regular old hold found
                    (Cell.committed_mem_versions hcommitted))
                  h.indexed h.drawn hkey hnamed
            | none =>
                rcases hlawful.active row rfl hactive with
                  ⟨found, hfound, -⟩ | htarget'
                · rw [hcommitted] at hfound
                  cases hfound
                · obtain ⟨owner, name', hclears⟩ := h.clears j _ htarget'
                  obtain ⟨howner, rfl⟩ := hclears.target.named h.indexed
                    h.drawn (h.regular old hold row
                      (Cell.pending_mem_versions hpending)) rfl
                  rw [hnamed.1] at howner
                  cases howner
                  rw [hnamed.2] at hclears
                  refine hrival j row.id ?_ hclears
                  rintro rfl
                  rw [hnone] at htarget'
                  cases htarget'
    · rw [hwritten, Cell.write_outcomes, Option.mem_toList] at hrow
      cases hrow
      rfl

/-- The invariant is kept by every statement of a transaction. -/
theorem statement (h : Exclusive table requests system)
    {routes : PolicyRoutes δ} {task : PolicyTask δ}
    (htask : system.tasks i = task)
    (hstatement : Statement routes i system.store task next written) :
    Exclusive table requests (system.after i (next, written)) := by
  have hheld : HoldsTarget table requests i task := htask ▸ h.held i
  have hdraft : ∀ {tenantId name draft},
      getDraft tenantId name (system.store.rows i) = some draft →
        Target table requests draft.id tenantId name := by
    intro tenantId name draft hfound
    obtain ⟨hmem, hnamed, hstatus⟩ := getDraft_ok hfound
    exact (h.regular.of_rows draft hmem).target hnamed hstatus
  induction hstatement with
  | stays task =>
      rw [← htask, after_self]
      exact h
  | abandons e hbegan hblame ih =>
      have hfails := (ih htask hheld).fails (i := i) e
      rw [after_after] at hfails
      exact hfails
  | opens tenantId id name =>
      exact h.reads htask (fun _ => rfl) rfl hheld.symm nofun
  | seeds tenantId id name hread hnamed =>
      refine h.reads htask (fun _ => rfl) rfl ⟨hheld, ?_⟩ nofun
      rw [← hnamed.2]
      exact (h.regular.of_rows _ hread).anchored tenantId hnamed.1
  | numbers tenantId id name document =>
      exact h.reads htask (fun _ => rfl) rfl hheld nofun
  | inserts tenantId id name version document hinsert =>
      exact h.inserts htask hinsert
  | loads tenantId name document hfound hparses =>
      exact h.reads htask (fun _ => rfl) rfl trivial nofun
  | unchanged draft document =>
      exact h.reads htask nofun rfl trivial nofun
  | edits draft document hupdate =>
      refine h.updates htask hupdate ?_ ?_ rfl ?_ ?_ nofun
      · intro row row' _ hchange
        cases hchange
        exact ⟨rfl, rfl, rfl, fun hstatus => hstatus, Or.inl⟩
      · intro row _ hchange
        cases hchange
      all_goals
        intro id htarget
        cases htarget
  | finds tenantId name hfound =>
      exact h.reads htask (fun _ => rfl) rfl (hdraft hfound).notBase nofun
  | deletes id hupdate =>
      refine h.updates htask hupdate ?_ ?_ rfl ?_ ?_ nofun
      · intro row row' _ hchange
        cases hchange
      · intro row hfound _
        rw [of_decide_eq_true hfound]
        exact hheld
      all_goals
        intro id htarget
        cases htarget
  | accepts tenantId name now hfound =>
      exact h.reads htask (fun _ => rfl) rfl trivial nofun
  | compares tenantId name now draft =>
      exact h.reads htask (fun _ => rfl) rfl trivial nofun
  | @confirms tenantId name now accepted loaded row hfound =>
      refine h.reads htask (fun _ => rfl) rfl ?_ nofun
      show Target table requests (Option.getD _ row).id tenantId name
      cases hloaded : loaded.find? fun old => decide (old.id = row.id) with
      | none => exact hdraft hfound
      | some draft =>
          have hid := List.find?_some hloaded
          show Target table requests draft.id tenantId name
          rw [of_decide_eq_true hid]
          exact hdraft hfound
  | deactivates tenantId name now draft accepted hupdate =>
      refine h.updates htask hupdate ?_ ?_ rfl ?_ ?_ nofun
      · intro row row' _ hchange
        cases hchange
        exact ⟨rfl, rfl, rfl, fun hstatus => hstatus, nofun⟩
      · intro row _ hchange
        cases hchange
      · exact nofun
      · intro id htarget
        cases htarget
        refine ⟨tenantId, name, h.clears_deactivated ?_ ?_ hheld hupdate⟩
        all_goals
          rw [htask]
          rfl
  | promotes now draft accepted hupdate hfound =>
      have hid : ∀ row row' : PolicyRow δ,
          decide (row.id = draft.id) = true →
          PolicyRoutes.promote now row = some row' → row'.id = draft.id := by
        intro row row' hrow hchange
        cases hchange
        exact of_decide_eq_true hrow
      refine h.updates htask hupdate ?_ ?_ rfl ?_ ?_ ?_
      · intro row row' hrow hchange
        have hid := hid row row' hrow hchange
        cases hchange
        exact ⟨rfl, rfl, rfl, fun _ => rfl,
          fun _ => Or.inr (congrArg some hid.symm)⟩
      · intro row _ hchange
        cases hchange
      · exact fun id htarget => htarget
      · intro id htarget
        cases htarget
        obtain ⟨tenantId, name, hclears⟩ := h.clears i draft.id (by
          rw [htask]
          rfl)
        refine ⟨tenantId, name, hclears.target,
          hclears.locks.update hupdate, hclears.awaits.update hupdate ?_⟩
        intro cell hcell row row' _ hrow _ hchange _ hne
        exact absurd (hid row row' hrow hchange) hne
      · intro p hp
        cases hp
        obtain ⟨row, hrow, hrowid⟩ := hfound
        exact Pends.written hupdate hrow (decide_eq_true hrowid) rfl
          ⟨hrowid, rfl⟩
  | commits publication => exact h.commits

/-- And by every event of the system. -/
theorem systemStep (h : Exclusive table requests system)
    (routes : PolicyRoutes δ) (event : PolicyEvent ι) :
    Exclusive table requests (routes.systemStep system event) := by
  cases event with
  | runs i =>
      have hafter := h.statement rfl
        (statement_of_step routes i (system.tasks i) system.store)
      exact ⟨hafter.indexed, hafter.drawn, hafter.regular, hafter.separate,
        hafter.fresh, hafter.lawful, hafter.bases, hafter.held,
        hafter.clears, hafter.announced, hafter.one⟩
  | aborts i =>
      simp only [PolicyRoutes.systemStep]
      split
      · exact h
      · exact h.fails _

end Exclusive

-- ==================================================== runs

variable [DecidableEq ι] {routes : PolicyRoutes δ}

/-- It holds at the start: nothing is pending. -/
theorem exclusive_start (hseeded : Seeded table)
    (hdrawn : Drawn table requests) :
    Exclusive table requests (PolicySystem.start table requests) := by
  have hguarded : Guarded (PolicySystem.start table requests) :=
    guarded_start hseeded.indexed
  have hnothing : ∀ cell ∈ (PolicySystem.start table requests).store,
      cell.pending = none := by
    intro cell hcell
    obtain ⟨row, -, rfl⟩ := List.mem_map.mp hcell
    rfl
  refine ⟨hseeded.indexed, hdrawn, ?_, hguarded.separate,
    hguarded.fresh, ?_, ?_, fun _ => rfl, nofun, nofun, ?_⟩
  · apply Everywhere.start
    intro row hrow
    constructor
    · exact Or.inl ⟨row, hrow, rfl, rfl, rfl⟩
    · exact hseeded.anchored row hrow
    · rintro ⟨base, hbase, hid, hpublished⟩
      rw [← hseeded.indexed.eq_of_id hbase hrow hid]
      exact hpublished
  · intro cell hcell i version hpending
    rw [hnothing cell hcell] at hpending
    cases hpending
  · rintro id ⟨row, hrow, hid, -⟩
    rw [committed_start]
    exact ⟨row, hrow, hid⟩
  · rw [committed_start]
    intro tenantId name row hrow row' hrow' hnamed hnamed' hactive hactive'
    exact hseeded.indexed.eq_of_id hrow hrow' (hseeded.one tenantId name
      row hrow row' hrow' hnamed hnamed' hactive hactive')

/-- Whatever is interleaved, and wherever a transaction breaks off, a
tenant's policy never has two active versions; and a publication that
commits leaves its own version active, which is then the only one. -/
theorem one_active_version {events : List (PolicyEvent ι)}
    (hseeded : Seeded table) (hdrawn : Drawn table requests) :
    Run.Throughout routes.systemStep
      (fun system => OneActive system.store.committed ∧
        ∀ i p, system.tasks i = .committing (some p) →
          ∃ row ∈ (routes.systemStep system (.runs i)).store.committed,
            row.id = p.id ∧ row.isActive = true)
      (PolicySystem.start table requests) events := by
  have hrun : Run.Throughout routes.systemStep
      (Exclusive table requests) (PolicySystem.start table requests)
      events :=
    Run.invariant (fun _ event h => h.systemStep routes event)
      (exclusive_start hseeded hdrawn) events
  refine hrun.imp fun system h => ⟨h.one, ?_⟩
  intro i p htask
  simp only [PolicyRoutes.systemStep, htask, PolicyRoutes.step]
  exact (h.announced i p htask).committed

-- ==================================================== two publications

/-- Two operators publish the same draft. -/
def publishTwice : Bool → PolicyRequest Nat
  | true => .publishDraft ⟨1⟩ "a".toList 1
  | false => .publishDraft ⟨1⟩ "a".toList 2

/-- Both read the draft before either has written. -/
def racedPublications : List (PolicyEvent Bool) :=
  (List.replicate 3 [.runs true, .runs false]).flatten ++
    List.replicate 3 (.runs true) ++ List.replicate 3 (.runs false)

/-- However the second publication ends, one version is active. -/
theorem one_active_version_raced :
    OneActive (racedPublications.foldl plainRoutes.systemStep
      (PolicySystem.start draftedTable publishTwice)).store.committed := by
  refine (one_active_version ?_ ?_).last.1
  · constructor
    · unfold Indexed
      decide
    · intro row hrow tenantId htenant
      refine ⟨_, List.mem_cons_self, ?_, rfl⟩
      rcases List.mem_cons.mp hrow with rfl | hrow
      · exact ⟨htenant, rfl⟩
      · cases List.mem_singleton.mp hrow
        exact ⟨htenant, rfl⟩
    · intro tenantId name row hrow row' hrow' _ _ hactive hactive'
      have honly : ∀ row ∈ draftedTable, row.isActive = true →
          row.id = ⟨2⟩ := by decide
      rw [honly row hrow hactive, honly row' hrow' hactive']
  · constructor
    · intro i tenantId id name hrequest
      cases i <;> cases hrequest
    · intro i j tenantId tenantId' id name name' hrequest
      cases i <;> cases hrequest

end PrivacyGateway.Policy
