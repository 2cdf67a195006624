/-
Which version numbers a run assigns.

The next number is one more than the highest version that is in the table,
so it exceeds every number assigned before as long as the table still has a
row that high. No operation lowers the versions of a name but the discard
of a draft that is its highest (`KeepsTop`). In a run without one the
numbers only rise (`numbers_never_reused`); with one, the next draft is
given the number of the last.
-/
import PrivacyGateway.Policy.Proofs.Publishing

namespace PrivacyGateway.Policy

open Effect

namespace PolicyRepository

variable {δ : Type} {table after : PolicyTable δ} {row : PolicyRow δ}
  {tenantId id : UUID} {name : Text}

-- ==================================================== the next number

/-- The next number exceeds every version of the name. -/
theorem lt_nextVersion (hrow : row ∈ table)
    (hnamed : row.Named tenantId name) :
    row.version < nextVersion tenantId name table := by
  have hmem : row.version ∈ (table.filter fun row =>
      decide (row.Named tenantId name)).map PolicyRow.version :=
    List.mem_map.mpr ⟨row,
      List.mem_filter.mpr ⟨hrow, decide_eq_true hnamed⟩, rfl⟩
  unfold nextVersion
  cases hversions : (table.filter fun row =>
      decide (row.Named tenantId name)).map PolicyRow.version with
  | nil =>
      rw [hversions] at hmem
      cases hmem
  | cons version versions =>
      rw [hversions] at hmem
      have hbounds : ∀ (versions : List Int) (version : Int),
          version ≤ versions.foldl max version ∧
            ∀ v ∈ versions, v ≤ versions.foldl max version := by
        intro versions
        induction versions with
        | nil => exact fun version => ⟨le_refl _, fun v hv => nomatch hv⟩
        | cons next versions ih =>
            intro version
            obtain ⟨hfirst, hrest⟩ := ih (max version next)
            refine ⟨(le_max_left _ _).trans hfirst, ?_⟩
            intro v hv
            rcases List.mem_cons.mp hv with rfl | hv
            · exact (le_max_right _ _).trans hfirst
            · exact hrest v hv
      obtain ⟨hfirst, hrest⟩ := hbounds versions version
      refine Int.lt_add_one_of_le ?_
      rcases List.mem_cons.mp hmem with heq | hmem
      · rw [heq]
        exact hfirst
      · exact hrest _ hmem

-- ==================================================== versions of a name

/-- Where the name had a version, it still has one as high. -/
def NoLower (tenantId : UUID) (name : Text) (table after : PolicyTable δ) :
    Prop :=
  ∀ row ∈ table, row.Named tenantId name →
    ∃ row' ∈ after, row'.Named tenantId name ∧ row.version ≤ row'.version

theorem NoLower.refl : NoLower tenantId name table table :=
  fun row hrow hnamed => ⟨row, hrow, hnamed, le_refl _⟩

theorem NoLower.trans {last : PolicyTable δ}
    (h : NoLower tenantId name table after)
    (h' : NoLower tenantId name after last) :
    NoLower tenantId name table last := by
  intro row hrow hnamed
  obtain ⟨row', hrow', hnamed', hle⟩ := h row hrow hnamed
  obtain ⟨row'', hrow'', hnamed'', hle'⟩ := h' row' hrow' hnamed'
  exact ⟨row'', hrow'', hnamed'', hle.trans hle'⟩

/-- A change of rows that leaves what they are versions of. -/
theorem NoLower.map {change : PolicyRow δ → PolicyRow δ}
    (h : ∀ row, (change row).tenantId = row.tenantId ∧
      (change row).name = row.name ∧ (change row).version = row.version) :
    NoLower tenantId name table (table.map change) := by
  intro row hrow hnamed
  obtain ⟨htenant, hname, hversion⟩ := h row
  exact ⟨change row, List.mem_map_of_mem hrow,
    ⟨htenant.trans hnamed.1, hname.trans hnamed.2⟩, hversion.ge⟩

theorem NoLower.updateById {change : PolicyRow δ → PolicyRow δ}
    (h : ∀ row, (change row).tenantId = row.tenantId ∧
      (change row).name = row.name ∧ (change row).version = row.version) :
    NoLower tenantId name table (updateById id change table) := by
  apply NoLower.map
  intro row
  split
  · exact h row
  · exact ⟨rfl, rfl, rfl⟩

theorem NoLower.deactivateOthers {tenantId' : UUID} {name' : Text} :
    NoLower tenantId name table
      (deactivateOthers tenantId' name' id table) := by
  apply NoLower.map
  intro row
  split <;> exact ⟨rfl, rfl, rfl⟩

/-- A discard under the name leaves a version behind that is higher than
the draft's. -/
def KeepsTop (tenantId : UUID) (name : Text) (table : PolicyTable δ) :
    TableOp δ → Prop
  | .discardDraft tenantId' name' => tenantId' = tenantId → name' = name →
      ∀ draft, getDraft tenantId name table = some draft →
        ∃ other ∈ table, other.Named tenantId name ∧
          draft.version < other.version
  | _ => True

theorem NoLower.discard {tenantId' : UUID} {name' : Text}
    (hindexed : Indexed table)
    (h : KeepsTop tenantId name table (.discardDraft tenantId' name')) :
    NoLower tenantId name table
      (step table (.discardDraft tenantId' name')) := by
  simp only [step, discardDraft, runIn_act]
  cases hdraft : getDraft tenantId' name' table with
  | none => exact NoLower.refl
  | some draft =>
      obtain ⟨hmem, hdraftNamed, -⟩ := getDraft_ok hdraft
      have hkept : ∀ row ∈ table, row.id ≠ draft.id →
          row ∈ table.filter fun row => decide (row.id ≠ draft.id) :=
        fun row hrow hid => List.mem_filter.mpr ⟨hrow, decide_eq_true hid⟩
      intro row hrow hnamed
      by_cases hrowId : row.id = draft.id
      · -- the name's own draft goes, and a higher version stays
        rw [hindexed.eq_of_id hrow hmem hrowId] at hnamed ⊢
        obtain rfl : tenantId' = tenantId :=
          Option.some.inj (hdraftNamed.1.symm.trans hnamed.1)
        obtain rfl : name' = name := hdraftNamed.2.symm.trans hnamed.2
        obtain ⟨other, hother, hotherNamed, hlt⟩ := h rfl rfl draft hdraft
        have hid : other.id ≠ draft.id := by
          intro hid
          rw [hindexed.eq_of_id hother hmem hid] at hlt
          exact lt_irrefl _ hlt
        exact ⟨other, hkept other hother hid, hotherNamed, hlt.le⟩
      · exact ⟨row, hkept row hrow hrowId, hnamed, le_refl _⟩

theorem NoLower.append :
    NoLower tenantId name table (table ++ [row]) :=
  fun row hrow hnamed =>
    ⟨row, List.mem_append_left _ hrow, hnamed, le_refl _⟩

/-- Nothing but the discard of a name's highest version lowers it. -/
theorem NoLower.step (hindexed : Indexed table) {op : TableOp δ}
    (h : KeepsTop tenantId name table op) :
    NoLower tenantId name table (step table op) := by
  cases op with
  | createVersion tenantId' id name' version document isActive now =>
      simp only [PolicyRepository.step, createVersion]
      by_cases hversion : version < 1
      · rw [if_pos hversion]
        exact NoLower.refl
      · rw [if_neg hversion, runIn_act]
        split
        · exact NoLower.refl
        · rename_i hok
          rw [(insertRow_ok hok).1]
          exact NoLower.append
  | createDraft tenantId' id name' document =>
      simp only [PolicyRepository.step, createDraft, runIn_act]
      split
      · exact NoLower.refl
      · rename_i hok
        rw [(insertRow_ok hok).1]
        exact NoLower.append
  | updateDraft tenantId' name' document =>
      simp only [PolicyRepository.step, updateDraft, runIn_act]
      split
      · exact NoLower.refl
      · exact NoLower.updateById (fun _ => ⟨rfl, rfl, rfl⟩)
  | discardDraft tenantId' name' => exact NoLower.discard hindexed h
  | publishDraft tenantId' name' now =>
      simp only [PolicyRepository.step, publishDraft, runIn_act]
      split
      · exact NoLower.refl
      · exact NoLower.deactivateOthers.trans
          (NoLower.updateById (fun _ => ⟨rfl, rfl, rfl⟩))
  | activate tenantId' id =>
      simp only [PolicyRepository.step, activate, runIn_act]
      split
      · exact NoLower.refl
      · exact NoLower.deactivateOthers.trans
          (NoLower.updateById (fun _ => ⟨rfl, rfl, rfl⟩))

-- ==================================================== assigned numbers

/-- The number of a row of the name that an operation returns. -/
def numberOf (tenantId : UUID) (name : Text) :
    Except Exn (PolicyRow δ) → Option Int
  | .ok row => if row.Named tenantId name then some row.version else none
  | .error _ => none

/-- The number `create_draft` hands out. -/
def draftNumber (tenantId : UUID) (name : Text) (table : PolicyTable δ) :
    TableOp δ → Option Int
  | .createDraft tenantId' id name' document =>
      numberOf tenantId name
        (runIn (createDraft tenantId' id name' document) table).1
  | _ => none

/-- The number `create_version` is given. -/
def finishedNumber (tenantId : UUID) (name : Text) (table : PolicyTable δ) :
    TableOp δ → Option Int
  | .createVersion tenantId' id name' version document isActive now =>
      numberOf tenantId name
        (runIn (createVersion tenantId' id name' version document isActive
          now) table).1
  | _ => none

/-- The numbers a run hands out to drafts of the name, in order. -/
def draftNumbers (tenantId : UUID) (name : Text) :
    PolicyTable δ → List (TableOp δ) → List Int
  | _, [] => []
  | table, op :: ops =>
      (draftNumber tenantId name table op).toList ++
        draftNumbers tenantId name (step table op) ops

/-- All numbers a run assigns under the name, in order. -/
def assignedNumbers (tenantId : UUID) (name : Text) :
    PolicyTable δ → List (TableOp δ) → List Int
  | _, [] => []
  | table, op :: ops =>
      ((draftNumber tenantId name table op).or
          (finishedNumber tenantId name table op)).toList ++
        assignedNumbers tenantId name (step table op) ops

/-- `create_version` is given numbers that are not assigned yet. -/
def FreshVersions (tenantId : UUID) (name : Text) (table : PolicyTable δ)
    (ops : List (TableOp δ)) : Prop :=
  ∀ before op after, ops = before ++ op :: after →
    ∀ number,
      finishedNumber tenantId name (before.foldl step table) op =
        some number →
      number ∉ assignedNumbers tenantId name table before

theorem numberOf_eq_some {result : Except Exn (PolicyRow δ)} {number : Int}
    (h : numberOf tenantId name result = some number) :
    ∃ row, result = .ok row ∧ row.Named tenantId name ∧
      row.version = number := by
  cases result with
  | error e => cases h
  | ok row =>
      unfold numberOf at h
      simp only at h
      split at h
      · rename_i hnamed
        exact ⟨row, rfl, hnamed, Option.some.inj h⟩
      · cases h

/-- A draft is inserted at the next number. -/
theorem draftNumber_eq_some {op : TableOp δ} {number : Int}
    (h : draftNumber tenantId name table op = some number) :
    number = nextVersion tenantId name table ∧
      ∃ row ∈ step table op, row.Named tenantId name ∧
        row.version = number := by
  cases op with
  | createDraft tenantId' id name' document =>
      obtain ⟨row, hrow, hnamed, hnumber⟩ := numberOf_eq_some h
      simp only [createDraft, runIn_act] at hrow
      simp only [step, createDraft, runIn_act]
      split at hrow
      · cases hrow
      · rename_i inserted hok
        simp only
        obtain rfl := Except.ok.inj hrow
        rw [(insertRow_ok hok).1]
        obtain ⟨htenant, rfl⟩ := hnamed
        cases htenant
        exact ⟨hnumber.symm, _, by simp, ⟨rfl, rfl⟩, hnumber⟩
  | _ => cases h

theorem finishedNumber_eq_some {op : TableOp δ} {number : Int}
    (h : finishedNumber tenantId name table op = some number) :
    ∃ row ∈ step table op, row.Named tenantId name ∧
      row.version = number := by
  cases op with
  | createVersion tenantId' id name' version document isActive now =>
      obtain ⟨row, hrow, hnamed, hnumber⟩ := numberOf_eq_some h
      simp only [createVersion] at hrow
      simp only [step, createVersion]
      by_cases hversion : version < 1
      · rw [if_pos hversion, runIn_throw] at hrow
        cases hrow
      · rw [if_neg hversion, runIn_act] at hrow ⊢
        split at hrow
        · cases hrow
        · rename_i inserted hok
          simp only
          obtain rfl := Except.ok.inj hrow
          rw [(insertRow_ok hok).1]
          exact ⟨_, by simp, hnamed, hnumber⟩
  | _ => cases h

/-- The number an operation assigns is in the table after it. -/
theorem assigned_mem {op : TableOp δ} {number : Int}
    (h : (draftNumber tenantId name table op).or
      (finishedNumber tenantId name table op) = some number) :
    ∃ row ∈ step table op, row.Named tenantId name ∧
      row.version = number := by
  rcases Option.or_eq_some_iff.mp h with hdraft | ⟨-, hfinished⟩
  · exact (draftNumber_eq_some hdraft).2
  · exact finishedNumber_eq_some hfinished

-- ==================================================== runs

/-- While the name's top is kept, what drafts are given exceeds every version
there is at the start. -/
theorem lt_draftNumbers (ops : List (TableOp δ)) :
    ∀ {table : PolicyTable δ}, Indexed table →
      Run.Along step (KeepsTop tenantId name) table ops →
        ∀ number ∈ draftNumbers tenantId name table ops,
          ∀ row ∈ table, row.Named tenantId name →
            row.version < number := by
  induction ops with
  | nil => exact fun _ _ number hnumber => nomatch hnumber
  | cons op ops ih =>
      intro table hindexed halong number hnumber row hrow hnamed
      obtain ⟨hop, hops⟩ := Run.along_cons_iff.mp halong
      rcases List.mem_append.mp hnumber with hnumber | hnumber
      · rw [(draftNumber_eq_some (Option.mem_toList.mp hnumber)).1]
        exact lt_nextVersion hrow hnamed
      · obtain ⟨row', hrow', hnamed', hle⟩ :=
          NoLower.step hindexed hop row hrow hnamed
        exact hle.trans_lt (ih (hindexed.step op) hops number hnumber row'
          hrow' hnamed')

/-- The numbers of drafts rise. -/
theorem draftNumbers_pairwise (ops : List (TableOp δ)) :
    ∀ {table : PolicyTable δ}, Indexed table →
      Run.Along step (KeepsTop tenantId name) table ops →
        (draftNumbers tenantId name table ops).Pairwise (· < ·) := by
  induction ops with
  | nil => exact fun _ _ => List.Pairwise.nil
  | cons op ops ih =>
      intro table hindexed halong
      obtain ⟨-, hops⟩ := Run.along_cons_iff.mp halong
      have hrest := ih (hindexed.step op) hops
      unfold draftNumbers
      cases hnumber : draftNumber tenantId name table op with
      | none => exact hrest
      | some number =>
          obtain ⟨-, row, hrow, hnamed, hversion⟩ :=
            draftNumber_eq_some hnumber
          refine List.pairwise_cons.mpr ⟨fun later hlater => ?_, hrest⟩
          rw [← hversion]
          exact lt_draftNumbers ops (hindexed.step op) hops later hlater
            row hrow hnamed

theorem FreshVersions.tail {op : TableOp δ} {ops : List (TableOp δ)}
    (h : FreshVersions tenantId name table (op :: ops)) :
    FreshVersions tenantId name (step table op) ops := by
  intro before next after hsplit number hnumber hmem
  refine h (op :: before) next after (congrArg (List.cons op) hsplit)
    number hnumber ?_
  exact List.mem_append_right _ hmem

/-- An assigned number was handed out to a draft, or given to
`create_version`. -/
theorem mem_assignedNumbers (ops : List (TableOp δ)) :
    ∀ {table : PolicyTable δ} {number : Int},
      number ∈ assignedNumbers tenantId name table ops →
        number ∈ draftNumbers tenantId name table ops ∨
          ∃ before op after, ops = before ++ op :: after ∧
            finishedNumber tenantId name (before.foldl step table) op =
              some number := by
  induction ops with
  | nil => exact fun hnumber => nomatch hnumber
  | cons op ops ih =>
      intro table number hnumber
      rcases List.mem_append.mp hnumber with hnumber | hnumber
      · rcases Option.or_eq_some_iff.mp (Option.mem_toList.mp hnumber) with
          hdraft | ⟨-, hfinished⟩
        · exact Or.inl (List.mem_append_left _
            (Option.mem_toList.mpr hdraft))
        · exact Or.inr ⟨[], op, ops, rfl, hfinished⟩
      · rcases ih hnumber with hdraft | ⟨before, next, after, rfl, hnext⟩
        · exact Or.inl (List.mem_append_right _ hdraft)
        · exact Or.inr ⟨op :: before, next, after, rfl, hnext⟩

/-- No number is assigned twice. -/
theorem assignedNumbers_nodup (ops : List (TableOp δ)) :
    ∀ {table : PolicyTable δ}, Indexed table →
      Run.Along step (KeepsTop tenantId name) table ops →
        FreshVersions tenantId name table ops →
          (assignedNumbers tenantId name table ops).Nodup := by
  induction ops with
  | nil => exact fun _ _ _ => List.nodup_nil
  | cons op ops ih =>
      intro table hindexed halong hfresh
      obtain ⟨-, hops⟩ := Run.along_cons_iff.mp halong
      have hrest := ih (hindexed.step op) hops hfresh.tail
      unfold assignedNumbers
      cases hnumber : (draftNumber tenantId name table op).or
          (finishedNumber tenantId name table op) with
      | none => exact hrest
      | some number =>
          refine List.nodup_cons.mpr ⟨fun hmem => ?_, hrest⟩
          rcases mem_assignedNumbers ops hmem with hdraft |
            ⟨before, next, after, rfl, hnext⟩
          · obtain ⟨row, hrow, hnamed, hversion⟩ := assigned_mem hnumber
            have hlt := lt_draftNumbers ops (hindexed.step op) hops number
              hdraft row hrow hnamed
            rw [hversion] at hlt
            exact lt_irrefl _ hlt
          · refine hfresh (op :: before) next after rfl number hnext ?_
            refine List.mem_append_left _ ?_
            rw [hnumber]
            exact List.mem_cons_self

/-- In a run in which no discarded draft of the name is its highest
version, the numbers handed out to its drafts rise, and none is assigned
twice. -/
theorem numbers_never_reused {ops : List (TableOp δ)} {tenantId : UUID}
    {name : Text} (h : Run.Along step (KeepsTop tenantId name) [] ops) :
    (draftNumbers tenantId name [] ops).Pairwise (· < ·) ∧
      (FreshVersions tenantId name [] ops →
        (assignedNumbers tenantId name [] ops).Nodup) :=
  ⟨draftNumbers_pairwise ops List.nodup_nil h,
    assignedNumbers_nodup ops List.nodup_nil h⟩

/-- A draft is published, the next is discarded under a finished version
of a higher number, and another is opened. -/
def coveredDiscard : List (TableOp Nat) := [
  .createDraft ⟨1⟩ ⟨2⟩ "a".toList 10,
  .publishDraft ⟨1⟩ "a".toList 1,
  .createDraft ⟨1⟩ ⟨3⟩ "a".toList 20,
  .createVersion ⟨1⟩ ⟨4⟩ "a".toList 3 30 false 2,
  .discardDraft ⟨1⟩ "a".toList,
  .createDraft ⟨1⟩ ⟨5⟩ "a".toList 40]

theorem numbers_never_reused_covered :
    (draftNumbers ⟨1⟩ "a".toList [] coveredDiscard).Pairwise (· < ·) ∧
      (FreshVersions ⟨1⟩ "a".toList [] coveredDiscard →
        (assignedNumbers ⟨1⟩ "a".toList [] coveredDiscard).Nodup) := by
  apply numbers_never_reused
  have hcovered : KeepsTop ⟨1⟩ "a".toList
      ((coveredDiscard.take 4).foldl step [])
      (.discardDraft ⟨1⟩ "a".toList) := by
    intro _ _ draft hdraft
    have hfound : getDraft ⟨1⟩ "a".toList
        ((coveredDiscard.take 4).foldl step []) =
          some ⟨⟨3⟩, some ⟨1⟩, "a".toList, 2, 20, false, .draft, none⟩ := by
      decide +kernel
    rw [hfound] at hdraft
    cases hdraft
    exact ⟨⟨⟨4⟩, some ⟨1⟩, "a".toList, 3, 30, false, .published, some 2⟩,
      by decide +kernel, by decide, by decide⟩
  unfold coveredDiscard
  simp only [Run.along_cons_iff]
  exact ⟨trivial, trivial, trivial, trivial, hcovered, trivial,
    Run.along_nil⟩

/-- A draft is discarded, and the next takes its number. -/
def discardAndReopen : List (TableOp Nat) := [
  .createDraft ⟨1⟩ ⟨2⟩ "a".toList 10,
  .discardDraft ⟨1⟩ "a".toList,
  .createDraft ⟨1⟩ ⟨3⟩ "a".toList 20]

theorem number_reused :
    ¬ (draftNumbers ⟨1⟩ "a".toList [] discardAndReopen).Pairwise
      (· < ·) := by
  decide +kernel

end PolicyRepository

end PrivacyGateway.Policy
