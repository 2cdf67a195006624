/-
The block check on an instruction, against what its transform selects.

The check runs before the document writes anything, over everything that
was detected in the instruction. The transform, like the prompt's own
guard, looks for blocked types among the spans it selects: those the
policy is sure of, after the sweep. So the check also refuses an
instruction for a span that the policy would have left alone.

The two agree where a blocked type, if any is detected, is detected above
its threshold by a span that no other confident one runs into
(`instruction_check_iff`): the sweep keeps such a span. Where spans that are
run into run into none, it keeps no others, and the condition is exact; so
it is for detections that do not overlap.
-/
import PrivacyGateway.Documents.Protection
import PrivacyGateway.Tokenization.Proofs.Refusals

namespace PrivacyGateway.Documents

open Tokenization

/-- The policy blocks the span's type. -/
def Blocks (policy : PolicySnapshot) (entity : DetectedEntity) : Prop :=
  policy.actionFor entity.entityType = .block

instance (policy : PolicySnapshot) (entity : DetectedEntity) :
    Decidable (Blocks policy entity) := by
  unfold Blocks
  infer_instance

variable {policy : PolicySnapshot} {entities : List DetectedEntity}

/-- The check refuses an instruction for any detection of a blocked
type. -/
theorem rejectBlockedInstruction_refused_iff :
    RefusedWith .policyViolation
        (rejectBlockedInstruction policy entities) ↔
      ∃ e ∈ entities, Blocks policy e := by
  induction entities with
  | nil =>
      constructor
      · intro hrefused
        exact absurd rfl hrefused.not_ok
      · rintro ⟨e, he, -⟩
        cases he
  | cons e entities ih =>
      unfold rejectBlockedInstruction
      simp only [List.mem_cons, exists_eq_or_imp]
      by_cases hblock : policy.actionFor e.entityType = .block
      · rw [if_pos hblock]
        exact ⟨fun _ => Or.inl hblock, fun _ => ⟨_, rfl, rfl⟩⟩
      · rw [if_neg hblock, ih]
        exact ⟨Or.inr, fun h => h.resolve_left hblock⟩

/-- The span sorts before the other and reaches past its start. -/
def RunsInto (f e : DetectedEntity) : Prop :=
  orderingKey f < orderingKey e ∧ e.start < f.stop

instance (f e : DetectedEntity) : Decidable (RunsInto f e) :=
  inferInstanceAs (Decidable (_ ∧ _))

/-- No confident span that is run into runs into another. -/
def Unchained (policy : PolicySnapshot) (entities : List DetectedEntity) :
    Prop :=
  ∀ g ∈ entities, isConfident policy g = true →
    ∀ f ∈ entities, isConfident policy f = true →
      ∀ e ∈ entities, isConfident policy e = true →
        RunsInto f e → ¬ RunsInto g f

/-- A blocked type is detected by a confident span that no other confident
one runs into. -/
def ClearlyBlocked (policy : PolicySnapshot)
    (entities : List DetectedEntity) : Prop :=
  ∃ e ∈ entities, isConfident policy e = true ∧ Blocks policy e ∧
    ∀ f ∈ entities, isConfident policy f = true → ¬ RunsInto f e

instance (policy : PolicySnapshot) (entities : List DetectedEntity) :
    Decidable (ClearlyBlocked policy entities) := by
  unfold ClearlyBlocked
  infer_instance

/-- The sweep keeps a span that none runs into, or a copy of it. -/
theorem exists_kept_of_clear {e : DetectedEntity} (he : e ∈ entities)
    (hclear : ∀ f ∈ entities, ¬ RunsInto f e) :
    ∃ k ∈ resolveOverlaps entities, orderingKey k = orderingKey e := by
  rcases resolveOverlaps_covers_sorted he with hkept | ⟨k, hk, hle, hin⟩
  · exact ⟨e, hkept, rfl⟩
  · refine ⟨k, hk, le_antisymm hle (not_lt.mp (fun hlt => ?_))⟩
    exact hclear k (mem_of_mem_resolveOverlaps hk) ⟨hlt, hin⟩

/-- A kept span is not run into by one that none runs into. -/
theorem not_runsInto_of_kept {e f : DetectedEntity}
    (he : e ∈ resolveOverlaps entities) (hf : f ∈ entities)
    (hclear : ∀ g ∈ entities, ¬ RunsInto g f) : ¬ RunsInto f e := by
  rintro ⟨hlt, hin⟩
  obtain ⟨k, hk, hkey⟩ := exists_kept_of_clear hf hclear
  have hstop : k.stop = f.stop := by
    unfold orderingKey at hkey
    simp only [toLex_inj, Prod.mk.injEq, neg_inj, Nat.cast_inj] at hkey
    obtain ⟨hstart, hlength, -⟩ := hkey
    have := k.span_forward
    have := f.span_forward
    unfold DetectedEntity.length at hlength
    omega
  have hbefore := start_le_of_orderingKey_le hlt.le
  have hstart := start_le_of_orderingKey_le hkey.le
  have hne : k ≠ e := by
    rintro rfl
    rw [hkey] at hlt
    exact lt_irrefl _ hlt
  have := e.span_forward
  rcases apart_of_chain (resolveOverlaps_chain entities) hk he hne with
    h | h <;> omega

/-- The check refuses exactly the instructions in which the transform
selects a span of a blocked type. -/
def ChecksSelection (policy : PolicySnapshot) (instruction : Text)
    (entities : List DetectedEntity) : Prop :=
  ∀ selected, selectEntities instruction entities policy = .ok selected →
    (RefusedWith .policyViolation
        (rejectBlockedInstruction policy entities) ↔
      ∃ e ∈ selected, Blocks policy e)

/-- The check refuses whatever the selection does, so they agree when the
selection refuses what the check does. -/
theorem checksSelection_iff {instruction : Text}
    (hinside : ∀ e ∈ entities, e.stop ≤ instruction.length) :
    ChecksSelection policy instruction entities ↔
    ((∃ e ∈ entities, Blocks policy e) →
      ∃ e ∈ resolveOverlaps (entities.filter (isConfident policy)),
        Blocks policy e) := by
  have hselect : selectEntities instruction entities policy =
      .ok (resolveOverlaps (entities.filter (isConfident policy))) :=
    selectEntities_ok_iff.mpr ⟨hinside, rfl⟩
  unfold ChecksSelection
  rw [rejectBlockedInstruction_refused_iff]
  constructor
  · intro h
    exact (h _ hselect).mp
  · intro h selected hselected
    rw [hselect] at hselected
    cases hselected
    refine ⟨h, ?_⟩
    rintro ⟨e, he, hblocks⟩
    exact ⟨e, List.mem_of_mem_filter (mem_of_mem_resolveOverlaps he),
      hblocks⟩

/-- A clearly blocked type is selected. -/
theorem selected_of_clearlyBlocked (h : ClearlyBlocked policy entities) :
    ∃ e ∈ resolveOverlaps (entities.filter (isConfident policy)),
      Blocks policy e := by
  obtain ⟨e, he, hsure, hblocks, hclear⟩ := h
  obtain ⟨k, hk, hkey⟩ := exists_kept_of_clear
    (List.mem_filter.mpr ⟨he, hsure⟩) (fun f hf =>
      hclear f (List.mem_of_mem_filter hf) (List.mem_filter.mp hf).2)
  refine ⟨k, hk, ?_⟩
  have htype : k.entityType = e.entityType := by
    unfold orderingKey at hkey
    simp only [toLex_inj, Prod.mk.injEq] at hkey
    exact hkey.2.2.2
  unfold Blocks
  rw [htype]
  exact hblocks

/-- And of unchained spans, nothing else of a blocked type is. -/
theorem clearlyBlocked_of_selected (hflat : Unchained policy entities)
    (h : ∃ e ∈ resolveOverlaps (entities.filter (isConfident policy)),
      Blocks policy e) : ClearlyBlocked policy entities := by
  obtain ⟨e, he, hblocks⟩ := h
  obtain ⟨hmem, hsure⟩ := List.mem_filter.mp (mem_of_mem_resolveOverlaps he)
  refine ⟨e, hmem, hsure, hblocks, fun f hf hfsure hruns => ?_⟩
  refine not_runsInto_of_kept he (List.mem_filter.mpr ⟨hf, hfsure⟩)
    (fun g hg => ?_) hruns
  exact hflat g (List.mem_of_mem_filter hg) (List.mem_filter.mp hg).2
    f hf hfsure e hmem hsure hruns

/-- The check agrees with the selection where no blocked type is detected,
or one is, clearly; of unchained spans, nowhere else; and of detections
that do not overlap, exactly when a blocked type, if any is detected,
reaches its threshold. Within its limit the transform refuses just that
selection. -/
theorem instruction_check_iff (policy : PolicySnapshot) (instruction : Text)
    (entities : List DetectedEntity)
    (hinside : ∀ e ∈ entities, e.stop ≤ instruction.length) :
    ((∀ e ∈ entities, ¬ Blocks policy e) ∨ ClearlyBlocked policy entities →
      ChecksSelection policy instruction entities) ∧
    (Unchained policy entities →
      (ChecksSelection policy instruction entities ↔
        (∀ e ∈ entities, ¬ Blocks policy e) ∨
          ClearlyBlocked policy entities)) ∧
    (entities.Pairwise (fun a b => a.overlaps b = false) →
      (ChecksSelection policy instruction entities ↔
        ((∃ e ∈ entities, Blocks policy e) →
          ∃ e ∈ entities, isConfident policy e = true ∧
            Blocks policy e))) ∧
    ∀ selected, selectEntities instruction entities policy = .ok selected →
      selected.length ≤ policy.maxEntities →
        (RefusedWith .policyViolation
            (planFor instruction entities policy) ↔
          ∃ e ∈ selected, Blocks policy e) := by
  have hchecks := @checksSelection_iff policy _ _ hinside
  have hsuffices : (∀ e ∈ entities, ¬ Blocks policy e) ∨
      ClearlyBlocked policy entities →
        ChecksSelection policy instruction entities := by
    rintro (hnone | hclear)
    · exact hchecks.mpr (fun ⟨e, he, hblocks⟩ =>
        absurd hblocks (hnone e he))
    · exact hchecks.mpr (fun _ => selected_of_clearlyBlocked hclear)
  refine ⟨hsuffices, fun hflat => ⟨fun h => ?_, hsuffices⟩,
    fun hdisjoint => hchecks.trans ?_,
    fun selected hselected hcount =>
      planFor_violation_iff hselected hcount⟩
  · by_cases hany : ∃ e ∈ entities, Blocks policy e
    · exact Or.inr (clearlyBlocked_of_selected hflat (hchecks.mp h hany))
    · exact Or.inl (fun e he hblocks => hany ⟨e, he, hblocks⟩)
  · have hkept : (∃ e ∈ resolveOverlaps
          (entities.filter (isConfident policy)), Blocks policy e) ↔
        ∃ e ∈ entities, isConfident policy e = true ∧ Blocks policy e := by
      constructor
      · rintro ⟨e, he, hblocks⟩
        obtain ⟨he, hsure⟩ :=
          List.mem_filter.mp (mem_of_mem_resolveOverlaps he)
        exact ⟨e, he, hsure, hblocks⟩
      · rintro ⟨e, he, hsure, hblocks⟩
        exact ⟨e, mem_resolveOverlaps_of_disjoint (hdisjoint.filter _)
          (List.mem_filter.mpr ⟨he, hsure⟩), hblocks⟩
    rw [hkept]

-- ==================================================== a low score

/-- A policy that blocks names it is sure of. -/
def sureNamesPolicy : PolicySnapshot where
  policyId := ⟨1⟩
  tenantId := ⟨2⟩
  version := 1
  name := "sure-names".toList
  sessionTtlSeconds := 3600
  maxEntities := 100
  unknownOutputTokenAction := .preserve
  entities := [(Detection.personType,
    ⟨.block, 4 / 5, true, none, none, Bounds.fourFifths⟩)]
  providers := []

/-- A span read as a name, with some score. -/
def nameScored (score : Rat) (h : 0 ≤ score ∧ score ≤ 1) :
    DetectedEntity :=
  ⟨Detection.personType, 0, 3, score, none, Bounds.zero_lt_three, h⟩

/-- A name below the threshold: the check refuses the instruction, and the
transform selects nothing. -/
theorem unsure_name_refused :
    RefusedWith .policyViolation (rejectBlockedInstruction sureNamesPolicy
        [nameScored (3 / 5) Bounds.threeFifths]) ∧
      planFor "Ann asks".toList [nameScored (3 / 5) Bounds.threeFifths]
        sureNamesPolicy = .ok [] ∧
      ¬ ChecksSelection sureNamesPolicy "Ann asks".toList
        [nameScored (3 / 5) Bounds.threeFifths] := by
  have hrefused : RefusedWith .policyViolation
      (rejectBlockedInstruction sureNamesPolicy
        [nameScored (3 / 5) Bounds.threeFifths]) :=
    rejectBlockedInstruction_refused_iff.mpr (by decide +kernel)
  refine ⟨hrefused, by decide +kernel, fun h => ?_⟩
  obtain ⟨e, he, -⟩ := (h [] (by decide +kernel)).mp hrefused
  cases he

/-- A name above it: both refuse, also beside a copy below it. -/
theorem sure_name_checked :
    ChecksSelection sureNamesPolicy "Ann asks".toList
      [nameScored (9 / 10) Bounds.nineTenths,
        nameScored (3 / 5) Bounds.threeFifths] :=
  (instruction_check_iff sureNamesPolicy "Ann asks".toList
    [nameScored (9 / 10) Bounds.nineTenths,
      nameScored (3 / 5) Bounds.threeFifths] (by decide +kernel)).1
        (Or.inr (by decide +kernel))

end PrivacyGateway.Documents
