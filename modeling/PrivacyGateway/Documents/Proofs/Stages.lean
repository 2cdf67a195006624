/-
A returned analysis, read as its stages.

Promotion moves a detection to its global range, coalescing keeps one
detection per value and place at no lower a score, resolution keeps some
of its entities, and labeling attaches actions and pages.
`analyzeSegments_staged` names what each stage of a returned analysis
computed and what the checks between them found.
-/
import PrivacyGateway.Documents.Analysis

namespace PrivacyGateway.Documents

open Detection

-- ==================================================== promotion

/-- The detection stands for the entity, moved by the segment's start. -/
structure Promotes (segment : Segment) (entity : DetectedEntity)
    (detection : GlobalDetection) : Prop where
  entityType_eq : detection.entity.entityType = entity.entityType
  start_eq : detection.entity.start = segment.start + entity.start
  stop_eq : detection.entity.stop = segment.start + entity.stop
  score_eq : detection.entity.score = entity.score

theorem promote_ok {segment : Segment} {entity : DetectedEntity}
    {detection : GlobalDetection}
    (h : promote segment entity = .ok detection) :
    Promotes segment entity detection := by
  unfold promote Segment.toGlobal at h
  by_cases hstart : entity.start > segment.length
  · rw [if_pos hstart] at h
    cases h
  · rw [if_neg hstart] at h
    by_cases hstop : entity.stop > segment.length
    · rw [if_pos hstop] at h
      cases h
    · rw [if_neg hstop] at h
      simp only at h
      split at h
      · cases h
        exact ⟨rfl, rfl, rfl, rfl⟩
      · cases h

-- ==================================================== coalescing

/-- What one round of the merge loop leaves at each key. -/
theorem get?_mergeInto (merged : Dict SpanKey GlobalDetection)
    (detection : GlobalDetection) (key : SpanKey) :
    (mergeInto merged detection).get? key =
      if detection.key = key then
        match merged.get? detection.key with
        | none => some detection
        | some existing => some (mergeCopies existing detection)
      else merged.get? key := by
  unfold mergeInto
  cases merged.get? detection.key with
  | none => exact Dict.get?_set _ _ _ _
  | some existing => exact Dict.get?_set _ _ _ _

/-- The table holds the detection at its own key, at no lower a score. -/
def Holds (merged : Dict SpanKey GlobalDetection)
    (detection : GlobalDetection) : Prop :=
  ∃ g, merged.get? detection.key = some g ∧ g.key = detection.key ∧
    detection.entity.score ≤ g.entity.score

theorem holds_mergeInto_self (merged : Dict SpanKey GlobalDetection)
    (detection : GlobalDetection) :
    Holds (mergeInto merged detection) detection := by
  unfold Holds
  rw [get?_mergeInto, if_pos rfl]
  cases merged.get? detection.key with
  | none => exact ⟨detection, rfl, rfl, le_refl _⟩
  | some existing => exact ⟨_, rfl, rfl, le_max_right _ _⟩

/-- A later round keeps what the table holds. -/
theorem Holds.mergeInto {merged : Dict SpanKey GlobalDetection}
    {d : GlobalDetection} (h : Holds merged d)
    (detection : GlobalDetection) :
    Holds (mergeInto merged detection) d := by
  obtain ⟨g, hg, hkey, hscore⟩ := h
  unfold Holds
  rw [get?_mergeInto]
  by_cases hsame : detection.key = d.key
  · rw [if_pos hsame, hsame, hg]
    exact ⟨_, rfl, hsame, le_trans hscore (le_max_left _ _)⟩
  · rw [if_neg hsame]
    exact ⟨g, hg, hkey, hscore⟩

theorem holds_foldl (detections : List GlobalDetection) :
    ∀ (merged : Dict SpanKey GlobalDetection) (d : GlobalDetection),
      Holds merged d ∨ d ∈ detections →
        Holds (detections.foldl mergeInto merged) d := by
  induction detections with
  | nil =>
      intro merged d h
      rcases h with h | h
      · exact h
      · exact absurd h (List.not_mem_nil)
  | cons detection detections ih =>
      intro merged d h
      rw [List.foldl_cons]
      apply ih
      rcases h with h | h
      · exact Or.inl (h.mergeInto detection)
      · rcases List.mem_cons.mp h with rfl | h
        · exact Or.inl (holds_mergeInto_self merged d)
        · exact Or.inr h

/-- Coalescing keeps every detection's type and range, at no lower a
score. -/
theorem coalesce_covers {detections : List GlobalDetection}
    {d : GlobalDetection} (hd : d ∈ detections) :
    ∃ g ∈ coalesce detections, g.key = d.key ∧
      d.entity.score ≤ g.entity.score := by
  obtain ⟨g, hget, hkey, hscore⟩ := holds_foldl detections [] d (Or.inr hd)
  refine ⟨g, ?_, hkey, hscore⟩
  unfold coalesce
  rw [Selection.mem_sortBy]
  exact List.mem_map.mpr ⟨_, Dict.mem_of_get? hget, rfl⟩

-- ==================================================== resolution

theorem attach_ok {provenance : Dict SpanKey (List Nat)}
    (kept : List DetectedEntity) :
    ∀ {result : List GlobalDetection}, attach provenance kept = .ok result →
      result.map GlobalDetection.entity = kept := by
  induction kept with
  | nil =>
      intro result h
      cases h
      rfl
  | cons entity kept ih =>
      intro result h
      unfold attach at h
      cases hget : provenance.get? (spanKey entity) with
      | none =>
          rw [hget] at h
          cases h
      | some segments =>
          rw [hget] at h
          cases hrest : attach provenance kept with
          | error err =>
              rw [hrest] at h
              cases h
          | ok rest =>
              rw [hrest] at h
              cases h
              rw [List.map_cons, ih hrest]

-- ==================================================== the analysis

section Analysis

variable {policy : PolicySnapshot} {tenantId documentId : UUID}
  {segmented : SegmentedDocument} {maxEntities : Nat}
  {runs : List (Segment × List DetectedEntity)}
  {analyzed : AnalyzedDocument}

/-- The stages of a returned analysis and the checks it passed. -/
structure Staged (policy : PolicySnapshot) (segmented : SegmentedDocument)
    (maxEntities : Nat) (runs : List (Segment × List DetectedEntity))
    (detections resolved : List GlobalDetection)
    (analyzed : AnalyzedDocument) : Prop where
  promoted : promoteAll runs = .ok detections
  resolves : resolve (selectConfident policy (coalesce detections)) =
    .ok resolved
  within_budget : resolved.length ≤ maxEntities
  unblocked : blockedEntityType policy resolved = none
  labeled : label segmented.document policy resolved = .ok analyzed.spans
  policy_eq : analyzed.policy = policy
  segmented_eq : analyzed.segmented = segmented

theorem analyzeSegments_staged
    (h : analyzeSegments policy tenantId documentId segmented maxEntities
      runs = .ok analyzed) :
    ∃ detections resolved, Staged policy segmented maxEntities runs
      detections resolved analyzed := by
  unfold analyzeSegments at h
  cases hpromote : promoteAll runs with
  | error err =>
      rw [hpromote] at h
      cases h
  | ok detections =>
      rw [hpromote] at h
      cases hresolve : resolve
          (selectConfident policy (coalesce detections)) with
      | error err =>
          simp only [bind, Except.bind, hresolve] at h
          cases h
      | ok resolved =>
          simp only [bind, Except.bind, hresolve] at h
          split at h
          · cases h
          · rename_i hbudget
            split at h
            · cases h
            · rename_i hunblocked
              split at h
              · cases h
              · rename_i spans hlabel
                split at h
                · cases h
                  exact ⟨detections, resolved, hpromote, hresolve,
                    Nat.not_lt.mp hbudget, hunblocked, hlabel, rfl, rfl⟩
                · cases h

/-- A returned analysis, stage by stage. -/
theorem analyzeSegments_ok
    (h : analyzeSegments policy tenantId documentId segmented maxEntities
      runs = .ok analyzed) :
    ∃ detections resolved, promoteAll runs = .ok detections ∧
      resolve (selectConfident policy (coalesce detections)) =
        .ok resolved ∧
      label segmented.document policy resolved = .ok analyzed.spans := by
  obtain ⟨detections, resolved, hstaged⟩ := analyzeSegments_staged h
  exact ⟨detections, resolved, hstaged.promoted, hstaged.resolves,
    hstaged.labeled⟩

/-- An analysis carries the policy that decided it. -/
theorem analyzeSegments_policy
    (h : analyzeSegments policy tenantId documentId segmented maxEntities
      runs = .ok analyzed) : analyzed.policy = policy := by
  obtain ⟨detections, resolved, hstaged⟩ := analyzeSegments_staged h
  exact hstaged.policy_eq

end Analysis

-- ==================================================== sample values

/-- A line that holds a name, an address and a number, one running into
the next. -/
def sampleLine : SegmentedDocument where
  document :=
    { text := "To: Ann Lee@x.io123-45-6789".toList
      pages := [⟨1, 0, 27, Bounds.one_le_one, by decide⟩]
      pages_nonempty := by decide
      pages_tile := by decide }
  segments := [⟨0, 0, 20, [1], by decide⟩, ⟨1, 12, 27, [1], by decide⟩]

/-- A policy whose thresholds are the detector's. -/
def evenPolicy : PolicySnapshot where
  policyId := ⟨1⟩
  tenantId := ⟨2⟩
  version := 1
  name := "even".toList
  sessionTtlSeconds := 3600
  maxEntities := 100
  unknownOutputTokenAction := .preserve
  entities := [
    (personType, ⟨.tokenize, 3 / 5, true, none, none, Bounds.threeFifths⟩),
    (emailAddressType, ⟨.tokenize, 1 / 2, true, none, none, Bounds.half⟩),
    (usSsnType, ⟨.tokenize, 1 / 2, true, none, none, Bounds.half⟩)]
  providers := []

/-- What the segments report: the address, and the number. -/
def sampleRuns : List (Segment × List DetectedEntity) :=
  [(⟨0, 0, 20, [1], by decide⟩,
      [⟨emailAddressType, 8, 17, 9 / 10, none, by decide,
        Bounds.nineTenths⟩]),
    (⟨1, 12, 27, [1], by decide⟩,
      [⟨usSsnType, 4, 15, 17 / 20, none, by decide,
        Bounds.seventeenTwentieths⟩])]

/-- What is labeled: the number. -/
def sampleAnalyzed : AnalyzedDocument where
  tenantId := ⟨2⟩
  documentId := ⟨3⟩
  segmented := sampleLine
  spans := [⟨usSsnType, 16, 27, 17 / 20, .tokenize, [1], [1], by decide,
    Bounds.seventeenTwentieths, Bounds.tokenize_ne_block,
    Bounds.one_nonempty, Bounds.one_nonempty⟩]
  policy := evenPolicy
  spans_ordered := by decide

end PrivacyGateway.Documents
