/-
What publishing a draft makes active.

A version is active under its name, and the tenant's policy is the active
row of the highest version, whatever its name. So the row just published is
the tenant's policy exactly when no other name has an active version as
high (`publish_effective_iff`). A draft is never active unless `activate`
is given one.

`publishing_takes_effect` is both over runs in which neither happens.
-/
import Mathlib.Data.List.Nodup
import PrivacyGateway.Lib.Run
import PrivacyGateway.Policy.Repository

namespace PrivacyGateway.Policy

open Effect

namespace PolicyDatabase

variable {δ : Type}

/-- A database that returns the row of an id where it may. -/
def preferring (id : UUID) : PolicyDatabase δ where
  first rows :=
    (rows.find? fun row => decide (row.id = id)).or rows.head?
  first_mem rows row h := by
    cases hfind : rows.find? (fun row => decide (row.id = id)) with
    | none =>
        rw [hfind, Option.none_or] at h
        exact List.mem_of_mem_head? h
    | some found =>
        rw [hfind, Option.some_or] at h
        cases h
        exact List.mem_of_find?_eq_some hfind
  first_some rows h := by
    obtain ⟨head, tail, rfl⟩ := List.exists_cons_of_ne_nil h
    rw [Option.isSome_or, List.head?_cons]
    simp

theorem preferring_id {rows : List (PolicyRow δ)}
    {row preferred : PolicyRow δ} (hmem : preferred ∈ rows)
    (h : (preferring preferred.id).first rows = some row) :
    row.id = preferred.id := by
  have hsome : (rows.find?
      (fun row => decide (row.id = preferred.id))).isSome := by
    rw [List.find?_isSome]
    exact ⟨preferred, hmem, decide_eq_true rfl⟩
  obtain ⟨found, hfound⟩ := Option.isSome_iff_exists.mp hsome
  have hid := List.find?_some hfound
  unfold preferring at h
  simp only [hfound, Option.some_or, Option.some.injEq] at h
  rw [← h]
  exact of_decide_eq_true hid

end PolicyDatabase

namespace PolicyRepository

variable {δ : Type} {table table' : PolicyTable δ} {row draft : PolicyRow δ}
  {tenantId id : UUID} {name : Text} {now : Rat}

-- ==================================================== statements

theorem mem_topActive :
    row ∈ topActive tenantId table ↔
      (row ∈ table ∧ row.tenantId = some tenantId ∧
        row.isActive = true) ∧
      ∀ other ∈ table, other.tenantId = some tenantId →
        other.isActive = true → other.version ≤ row.version := by
  unfold topActive
  simp only [List.mem_filter, List.all_eq_true, Bool.and_eq_true,
    decide_eq_true_eq, and_imp]

/-- What the database chooses is an active row. -/
theorem getActive_mem {database : PolicyDatabase δ}
    (h : getActive database tenantId table = some row) :
    row ∈ table ∧ row.tenantId = some tenantId ∧ row.isActive = true :=
  (mem_topActive.mp (database.first_mem _ _ h)).1

/-- There is no choice where one row comes first. -/
theorem getActive_of_only {database : PolicyDatabase δ}
    (hmem : row ∈ topActive tenantId table)
    (honly : ∀ other ∈ topActive tenantId table, other = row) :
    getActive database tenantId table = some row := by
  obtain ⟨found, hfound⟩ := Option.isSome_iff_exists.mp
    (database.first_some _ (List.ne_nil_of_mem hmem))
  unfold getActive
  rw [hfound, honly found (database.first_mem _ _ hfound)]

theorem getDraft_ok (h : getDraft tenantId name table = some draft) :
    draft ∈ table ∧ draft.Named tenantId name ∧ draft.status = .draft := by
  unfold getDraft at h
  have hfound := List.find?_some h
  simp only [Bool.and_eq_true, decide_eq_true_eq] at hfound
  exact ⟨List.mem_of_find?_eq_some h, hfound⟩

theorem insertRow_ok (h : insertRow row table = .ok table') :
    table' = table ++ [row] ∧ ∀ other ∈ table, ¬ Clashes row other := by
  unfold insertRow at h
  split at h
  · cases h
  · rename_i hnone
    cases h
    refine ⟨rfl, ?_⟩
    intro other hmem hclash
    exact hnone ⟨other, hmem, hclash⟩

theorem mem_updateById {change : PolicyRow δ → PolicyRow δ} :
    row ∈ updateById id change table ↔ ∃ old ∈ table,
      row = if old.id = id then change old else old := by
  unfold updateById
  rw [List.mem_map]
  exact exists_congr fun old => and_congr_right fun _ => eq_comm

theorem mem_deactivateOthers :
    row ∈ deactivateOthers tenantId name id table ↔ ∃ old ∈ table,
      row = if old.Named tenantId name ∧ old.id ≠ id then
        { old with isActive := false } else old := by
  unfold deactivateOthers
  rw [List.mem_map]
  exact exists_congr fun old => and_congr_right fun _ => eq_comm

-- ==================================================== publishing

/-- What a publication that finds a draft does. -/
theorem publishDraft_ok
    (h : (runIn (publishDraft tenantId name now) table).1 =
      .ok (some row)) :
    ∃ draft, getDraft tenantId name table = some draft ∧
      row = PolicyRow.published now draft ∧
      (runIn (publishDraft tenantId name now) table).2 =
        updateById draft.id (PolicyRow.published now)
          (deactivateOthers tenantId name draft.id table) := by
  unfold publishDraft at h ⊢
  rw [runIn_act] at h ⊢
  cases hdraft : getDraft tenantId name table with
  | none =>
      rw [hdraft] at h
      cases h
  | some draft =>
      rw [hdraft] at h
      cases h
      exact ⟨draft, rfl, rfl, rfl⟩

/-- Ids are unique. -/
def Indexed (table : PolicyTable δ) : Prop :=
  (table.map PolicyRow.id).Nodup

theorem Indexed.eq_of_id (h : Indexed table) {other : PolicyRow δ}
    (hrow : row ∈ table) (hother : other ∈ table)
    (hid : row.id = other.id) : row = other :=
  List.inj_on_of_nodup_map h hrow hother hid

/-- What is in the table after a publication: the published row, the other
versions of its name, inactive, and the rows of other names. -/
theorem mem_published (hindexed : Indexed table)
    (hdraft : getDraft tenantId name table = some draft) :
    row ∈ updateById draft.id (PolicyRow.published now)
        (deactivateOthers tenantId name draft.id table) ↔
      row = PolicyRow.published now draft ∨
      (∃ old ∈ table, old.Named tenantId name ∧ old.id ≠ draft.id ∧
        row = { old with isActive := false }) ∨
      row ∈ table ∧ ¬ row.Named tenantId name := by
  obtain ⟨hmem, hnamed, -⟩ := getDraft_ok hdraft
  rw [mem_updateById]
  constructor
  · intro h
    obtain ⟨middle, hmiddle, hrow⟩ := h
    obtain ⟨old, hold, hchanged⟩ := mem_deactivateOthers.mp hmiddle
    by_cases hother : old.Named tenantId name ∧ old.id ≠ draft.id
    · rw [if_pos hother] at hchanged
      subst hchanged
      rw [if_neg hother.2] at hrow
      exact Or.inr (Or.inl ⟨old, hold, hother.1, hother.2, hrow⟩)
    · rw [if_neg hother] at hchanged
      subst hchanged
      by_cases hid : middle.id = draft.id
      · rw [if_pos hid, hindexed.eq_of_id hold hmem hid] at hrow
        exact Or.inl hrow
      · rw [if_neg hid] at hrow
        subst hrow
        exact Or.inr (Or.inr ⟨hold, fun hnamed => hother ⟨hnamed, hid⟩⟩)
  · intro h
    rcases h with rfl | ⟨old, hold, hold', hid, rfl⟩ | ⟨hrow, hother⟩
    · refine ⟨draft, mem_deactivateOthers.mpr ⟨draft, hmem, ?_⟩, ?_⟩
      · rw [if_neg (fun h => h.2 rfl)]
      · rw [if_pos rfl]
    · refine ⟨{ old with isActive := false },
        mem_deactivateOthers.mpr ⟨old, hold, ?_⟩, ?_⟩
      · rw [if_pos ⟨hold', hid⟩]
      · rw [if_neg hid]
    · have hid : row.id ≠ draft.id := by
        intro hid
        rw [hindexed.eq_of_id hrow hmem hid] at hother
        exact hother hnamed
      refine ⟨row, mem_deactivateOthers.mpr ⟨row, hrow, ?_⟩, ?_⟩
      · rw [if_neg (fun h => hother h.1)]
      · rw [if_neg hid]

/-- Every active version of another name is lower than the draft. -/
def Outranks (tenantId : UUID) (name : Text) (draft : PolicyRow δ)
    (table : PolicyTable δ) : Prop :=
  ∀ other ∈ table, other.tenantId = some tenantId → other.name ≠ name →
    other.isActive = true → other.version < draft.version

/-- The row just published is what any database returns as the tenant's
policy exactly when it outranks the other names. -/
theorem publish_effective_iff (hindexed : Indexed table)
    (hdraft : getDraft tenantId name table = some draft)
    (h : (runIn (publishDraft tenantId name now) table).1 =
      .ok (some row)) :
    (∀ database : PolicyDatabase δ, getActive database tenantId
        (runIn (publishDraft tenantId name now) table).2 = some row) ↔
      Outranks tenantId name draft table := by
  obtain ⟨found, hfound, rfl, htable⟩ := publishDraft_ok h
  rw [hdraft] at hfound
  cases hfound
  obtain ⟨hmem, hnamed, -⟩ := getDraft_ok hdraft
  have hafter := fun row => @mem_published δ table row draft tenantId name
    now hindexed hdraft
  rw [htable]
  constructor
  · intro hactive other hother htenant hname hon
    have hkept : other ∈ updateById draft.id (PolicyRow.published now)
        (deactivateOthers tenantId name draft.id table) :=
      (hafter other).mpr (Or.inr (Or.inr ⟨hother, fun h => hname h.2⟩))
    have hchosen := hactive (PolicyDatabase.preferring other.id)
    have htop := mem_topActive.mp
      ((PolicyDatabase.preferring other.id).first_mem _ _ hchosen)
    have hle := htop.2 other hkept htenant hon
    refine lt_of_le_of_ne hle ?_
    intro heq
    have htopOther : other ∈ topActive tenantId (updateById draft.id
        (PolicyRow.published now)
        (deactivateOthers tenantId name draft.id table)) := by
      refine mem_topActive.mpr ⟨⟨hkept, htenant, hon⟩, ?_⟩
      intro third hthird htenant' hon'
      rw [heq]
      exact htop.2 third hthird htenant' hon'
    have hid := PolicyDatabase.preferring_id htopOther hchosen
    have hsame := hindexed.eq_of_id hmem hother hid
    exact hname (hsame ▸ hnamed.2)
  · intro houtranks database
    have hon : ∀ other ∈ updateById draft.id (PolicyRow.published now)
        (deactivateOthers tenantId name draft.id table),
        other.tenantId = some tenantId → other.isActive = true →
        other = PolicyRow.published now draft ∨
          other.version < draft.version := by
      intro other hother htenant hactive
      rcases (hafter other).mp hother with rfl | ⟨old, -, -, -, rfl⟩ |
        ⟨hkept, hothername⟩
      · exact Or.inl rfl
      · cases hactive
      · right
        exact houtranks other hkept htenant
          (fun hname => hothername ⟨htenant, hname⟩) hactive
    apply getActive_of_only
    · refine mem_topActive.mpr
        ⟨⟨(hafter _).mpr (Or.inl rfl), hnamed.1, rfl⟩, ?_⟩
      intro other hother htenant hactive
      rcases hon other hother htenant hactive with rfl | hlt
      · exact le_refl _
      · exact le_of_lt hlt
    · intro other hother
      obtain ⟨⟨hin, htenant, hactive⟩, hhighest⟩ := mem_topActive.mp hother
      rcases hon other hin htenant hactive with rfl | hlt
      · rfl
      · have hle := hhighest (PolicyRow.published now draft)
          ((hafter _).mpr (Or.inl rfl)) hnamed.1 rfl
        exact absurd hlt (not_lt.mpr hle)

-- ==================================================== runs

/-- What an operation can do to the table. -/
inductive StepTo (table : PolicyTable δ) :
    TableOp δ → PolicyTable δ → Prop
  | stays (op : TableOp δ) : StepTo table op table
  | inserts (op : TableOp δ) (row : PolicyRow δ)
      (hnew : ∀ other ∈ table, ¬ Clashes row other)
      (hdraft : row.status = .draft → row.isActive = false) :
      StepTo table op (table ++ [row])
  | edits (op : TableOp δ) (id : UUID) (document : δ) :
      StepTo table op
        (updateById id (fun row => { row with document := document }) table)
  | discards (op : TableOp δ) (id : UUID) :
      StepTo table op (table.filter fun row => decide (row.id ≠ id))
  | publishes (tenantId : UUID) (name : Text) (now : Rat) (id : UUID) :
      StepTo table (.publishDraft tenantId name now)
        (updateById id (PolicyRow.published now)
          (deactivateOthers tenantId name id table))
  | activates (tenantId id : UUID) (name : Text) (row : PolicyRow δ)
      (hrow : row ∈ table) (htenant : row.tenantId = some tenantId)
      (hid : row.id = id) :
      StepTo table (.activate tenantId id)
        (updateById id (fun row => { row with isActive := true })
          (deactivateOthers tenantId name id table))

theorem step_to (table : PolicyTable δ) (op : TableOp δ) :
    StepTo table op (step table op) := by
  cases op with
  | createVersion tenantId id name version document isActive now =>
      simp only [step, createVersion]
      by_cases hversion : version < 1
      · rw [if_pos hversion]
        exact .stays _
      · rw [if_neg hversion, runIn_act]
        split
        · exact .stays _
        · rename_i hok
          obtain ⟨rfl, hnew⟩ := insertRow_ok hok
          exact .inserts _ _ hnew nofun
  | createDraft tenantId id name document =>
      simp only [step, createDraft, runIn_act]
      split
      · exact .stays _
      · rename_i hok
        obtain ⟨rfl, hnew⟩ := insertRow_ok hok
        exact .inserts _ _ hnew (fun _ => rfl)
  | updateDraft tenantId name document =>
      simp only [step, updateDraft, runIn_act]
      split
      · exact .stays _
      · exact .edits ..
  | discardDraft tenantId name =>
      simp only [step, discardDraft, runIn_act]
      split
      · exact .stays _
      · exact .discards ..
  | publishDraft tenantId name now =>
      simp only [step, publishDraft, runIn_act]
      split
      · exact .stays _
      · exact .publishes ..
  | activate tenantId id =>
      simp only [step, activate, runIn_act]
      split
      · exact .stays _
      · rename_i row hfind
        have hfound := List.find?_some hfind
        obtain ⟨htenant, hid⟩ := of_decide_eq_true hfound
        exact .activates _ _ _ row (List.mem_of_find?_eq_some hfind) htenant
          hid

/-- A change of rows that leaves their ids. -/
theorem Indexed.map (h : Indexed table) {change : PolicyRow δ → PolicyRow δ}
    (hid : ∀ row, (change row).id = row.id) : Indexed (table.map change) := by
  unfold Indexed at h ⊢
  rw [List.map_map]
  have hids : PolicyRow.id ∘ change = PolicyRow.id := funext hid
  rw [hids]
  exact h

theorem Indexed.updateById (h : Indexed table)
    {change : PolicyRow δ → PolicyRow δ}
    (hid : ∀ row, (change row).id = row.id) :
    Indexed (updateById id change table) := by
  apply h.map
  intro row
  split
  · exact hid row
  · rfl

theorem Indexed.deactivateOthers (h : Indexed table) :
    Indexed (deactivateOthers tenantId name id table) := by
  apply h.map
  intro row
  split <;> rfl

/-- Ids stay unique. -/
theorem Indexed.step (h : Indexed table) (op : TableOp δ) :
    Indexed (step table op) := by
  have hstep := step_to table op
  generalize PolicyRepository.step table op = after at hstep ⊢
  cases hstep with
  | stays => exact h
  | inserts _ row hnew _ =>
      unfold Indexed
      rw [List.map_append, List.nodup_append]
      refine ⟨h, List.nodup_singleton _, ?_⟩
      intro a ha b hb hab
      obtain ⟨other, hother, rfl⟩ := List.mem_map.mp ha
      rw [List.map_singleton, List.mem_singleton] at hb
      exact hnew other hother (Or.inl (hab.trans hb))
  | edits _ id document => exact h.updateById (fun _ => rfl)
  | discards _ id => exact h.sublist (List.filter_sublist.map _)
  | publishes tenantId name now id =>
      exact h.deactivateOthers.updateById (fun _ => rfl)
  | activates tenantId id name row hrow htenant hid =>
      exact h.deactivateOthers.updateById (fun _ => rfl)

/-- No draft is active. -/
def DraftsInactive (table : PolicyTable δ) : Prop :=
  ∀ row ∈ table, row.status = .draft → row.isActive = false

/-- A publication outranks the other names, and only published versions
are activated. -/
def Orderly (table : PolicyTable δ) : TableOp δ → Prop
  | .publishDraft tenantId name _ =>
      ∀ draft, getDraft tenantId name table = some draft →
        Outranks tenantId name draft table
  | .activate tenantId id =>
      ∀ row ∈ table, row.tenantId = some tenantId → row.id = id →
        row.status = .published
  | _ => True

theorem DraftsInactive.deactivateOthers (h : DraftsInactive table) :
    DraftsInactive (deactivateOthers tenantId name id table) := by
  intro row hrow hdraft
  obtain ⟨old, hold, hchanged⟩ := mem_deactivateOthers.mp hrow
  by_cases hother : old.Named tenantId name ∧ old.id ≠ id
  · rw [if_pos hother] at hchanged
    rw [hchanged]
  · rw [if_neg hother] at hchanged
    subst hchanged
    exact h row hold hdraft

/-- A change of one row that does not activate a draft. -/
theorem DraftsInactive.updateById (h : DraftsInactive table)
    {change : PolicyRow δ → PolicyRow δ}
    (hchange : ∀ row ∈ table, row.id = id →
      (change row).status = .draft → (change row).isActive = false) :
    DraftsInactive (updateById id change table) := by
  intro row hrow hdraft
  obtain ⟨old, hold, hchanged⟩ := mem_updateById.mp hrow
  by_cases hid : old.id = id
  · rw [if_pos hid] at hchanged
    subst hchanged
    exact hchange old hold hid hdraft
  · rw [if_neg hid] at hchanged
    subst hchanged
    exact h row hold hdraft

theorem DraftsInactive.step (h : DraftsInactive table) {op : TableOp δ}
    (hindexed : Indexed table) (horderly : Orderly table op) :
    DraftsInactive (step table op) := by
  have hstep := step_to table op
  generalize PolicyRepository.step table op = after at hstep ⊢
  cases hstep with
  | stays => exact h
  | inserts _ row _ hdraft =>
      intro other hother hstatus
      rcases List.mem_append.mp hother with hold | hnew
      · exact h other hold hstatus
      · rw [List.mem_singleton.mp hnew] at hstatus ⊢
        exact hdraft hstatus
  | edits _ id document =>
      exact h.updateById (fun row hrow _ hstatus => h row hrow hstatus)
  | discards _ id =>
      intro row hrow hstatus
      exact h row (List.mem_of_mem_filter hrow) hstatus
  | publishes tenantId name now id =>
      exact h.deactivateOthers.updateById (fun _ _ _ hstatus =>
        nomatch hstatus)
  | activates tenantId id name active hactive htenant hid =>
      apply h.deactivateOthers.updateById
      intro row hrow hrowid hstatus
      obtain ⟨old, hold, hchanged⟩ := mem_deactivateOthers.mp hrow
      have hsame : row.status = old.status ∧ row.id = old.id := by
        rw [hchanged]
        split <;> exact ⟨rfl, rfl⟩
      have hpublished := horderly active hactive htenant hid
      rw [← hindexed.eq_of_id hold hactive
        (hsame.2.symm.trans (hrowid.trans hid.symm)), ← hsame.1]
          at hpublished
      cases hstatus.symm.trans hpublished

-- ==================================================== the tenant's policy

theorem run_invariant {ops : List (TableOp δ)}
    (h : Run.Along step Orderly [] ops) :
    Run.Throughout step
      (fun table => Indexed table ∧ DraftsInactive table) [] ops := by
  refine h.invariant ?_ ⟨List.nodup_nil, fun _ hrow => nomatch hrow⟩
  intro table op horderly hbefore
  exact ⟨hbefore.1.step op, hbefore.2.step hbefore.1 horderly⟩

/-- In a run in which every publication outranks the other names and only
published versions are activated, no draft is ever the tenant's policy, and
what is published is the tenant's policy at once. -/
theorem publishing_takes_effect {ops : List (TableOp δ)}
    (h : Run.Along step Orderly [] ops) :
    Run.Throughout step (fun table =>
      ∀ (database : PolicyDatabase δ) tenantId row,
        getActive database tenantId table = some row →
          row.status = .published) [] ops ∧
    ∀ before tenantId name now after,
      ops = before ++ .publishDraft tenantId name now :: after →
      ∀ row, (runIn (publishDraft tenantId name now)
          (before.foldl step [])).1 = .ok (some row) →
        ∀ database : PolicyDatabase δ, getActive database tenantId
          ((before ++ [.publishDraft tenantId name now]).foldl step []) =
            some row := by
  have hinvariant := run_invariant h
  refine ⟨?_, ?_⟩
  · refine hinvariant.imp ?_
    intro table hbefore database tenantId row hactive
    obtain ⟨hrow, -, hon⟩ := getActive_mem hactive
    cases hstatus : row.status with
    | published => rfl
    | draft =>
        rw [hbefore.2 row hrow hstatus] at hon
        cases hon
  · intro before tenantId name now after hops row hpublished database
    have hindexed := (hinvariant before _ hops).1
    obtain ⟨draft, hdraft, -, -⟩ := publishDraft_ok hpublished
    have houtranks : Outranks tenantId name draft
        (before.foldl step []) :=
      h before _ after hops draft hdraft
    rw [List.foldl_append]
    exact (publish_effective_iff hindexed hdraft hpublished).mpr
      houtranks database

-- ==================================================== two names

/-- One tenant, a name with a high version, and another that is drafted
and published. -/
def twoNames : List (TableOp Nat) := [
  .createVersion ⟨1⟩ ⟨2⟩ "b".toList 5 50 true 0,
  .createDraft ⟨1⟩ ⟨3⟩ "a".toList 10,
  .publishDraft ⟨1⟩ "a".toList 1]

/-- One name, drafted over a finished version. -/
def oneName : List (TableOp Nat) := [
  .createVersion ⟨1⟩ ⟨2⟩ "a".toList 1 50 true 0,
  .createDraft ⟨1⟩ ⟨3⟩ "a".toList 10,
  .publishDraft ⟨1⟩ "a".toList 1]

theorem getActive_of_topActive {database : PolicyDatabase δ}
    (h : topActive tenantId table = [row]) :
    getActive database tenantId table = some row := by
  apply getActive_of_only
  · rw [h]
    exact List.mem_singleton.mpr rfl
  · intro other hother
    rw [h] at hother
    exact List.mem_singleton.mp hother

/-- Published over its predecessor, a draft is the tenant's policy. -/
theorem publishing_takes_effect_oneName :
    Run.Throughout step (fun table =>
      ∀ (database : PolicyDatabase Nat) tenantId row,
        getActive database tenantId table = some row →
          row.status = .published) [] oneName ∧
    ∀ before tenantId name now after,
      oneName = before ++ .publishDraft tenantId name now :: after →
      ∀ row, (runIn (publishDraft tenantId name now)
          (before.foldl step [])).1 = .ok (some row) →
        ∀ database : PolicyDatabase Nat, getActive database tenantId
          ((before ++ [.publishDraft tenantId name now]).foldl step []) =
            some row := by
  have hdrafted : ∀ other ∈ (oneName.take 2).foldl step [],
      other.name = "a".toList := by
    decide +kernel
  apply publishing_takes_effect
  unfold oneName
  simp only [Run.along_cons_iff]
  refine ⟨trivial, trivial, ?_, Run.along_nil⟩
  intro draft _ other hother _ hname _
  exact absurd (hdrafted other hother) hname

/-- A published version does not become the tenant's policy while another
name has a higher one active, and a draft that is activated does. -/
theorem publishing_without_effect :
    (∃ row, (runIn (publishDraft ⟨1⟩ "a".toList 1)
        ((twoNames.take 2).foldl step [])).1 = .ok (some row) ∧
      ∀ database : PolicyDatabase Nat,
        getActive database ⟨1⟩ (twoNames.foldl step []) ≠ some row) ∧
    ∃ row, row.status = .draft ∧ ∀ database : PolicyDatabase Nat,
      getActive database ⟨1⟩
        ((oneName.take 2 ++ [TableOp.activate ⟨1⟩ ⟨3⟩]).foldl step []) =
          some row := by
  have htop : topActive ⟨1⟩ (twoNames.foldl step []) =
      [⟨⟨2⟩, some ⟨1⟩, "b".toList, 5, 50, true, .published, some 0⟩] := by
    decide +kernel
  have hdraft : topActive ⟨1⟩
      ((oneName.take 2 ++ [TableOp.activate ⟨1⟩ ⟨3⟩]).foldl step []) =
        [⟨⟨3⟩, some ⟨1⟩, "a".toList, 2, 10, true, .draft, none⟩] := by
    decide +kernel
  refine ⟨⟨⟨⟨3⟩, some ⟨1⟩, "a".toList, 1, 10, true, .published, some 1⟩,
    ?_, ?_⟩, _, ?_, fun database => getActive_of_topActive hdraft⟩
  · decide +kernel
  · intro database hactive
    rw [getActive_of_topActive htop] at hactive
    exact absurd hactive (by decide +kernel)
  · rfl

end PolicyRepository

end PrivacyGateway.Policy
