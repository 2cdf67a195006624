/-
From raw recognizer hits to the detector's public result.

`finalize` filters the candidates one by one (`accept`), resolves the
overlaps among the survivors, enforces the entity cap, and drops the
recognizer names unless they were asked for.

`Passes` names what the filters check together; `accept_eq_some_iff` says
that `accept` decides it and what it builds. `finalize_ok_iff` is the one
equation callers need.
-/
import PrivacyGateway.Detection.Config
import PrivacyGateway.Detection.Overlap
import PrivacyGateway.Lib.Splice

namespace PrivacyGateway.Detection

open Splice

/-- An unvalidated recognizer hit: its span and its score may be out of
range. -/
structure Candidate where
  entityType : Text
  start : Int
  stop : Int
  score : Rat
  recognizer : Option Text := none
deriving DecidableEq

namespace Candidate

def SpanIsValid (c : Candidate) (textLength : Nat) : Prop :=
  0 ≤ c.start ∧ c.start < c.stop ∧ c.stop ≤ textLength

instance (c : Candidate) (textLength : Nat) :
    Decidable (c.SpanIsValid textLength) :=
  inferInstanceAs (Decidable (_ ∧ _ ∧ _))

/-- The text the span addresses. -/
def valueIn (c : Candidate) (text : Text) : Text :=
  slice text c.start.toNat c.stop.toNat

end Candidate

/-- A score moved into `[0, 1]`. -/
def clampScore (score : Rat) : Rat :=
  min (max score 0) 1

theorem clampScore_bounded (score : Rat) :
    0 ≤ clampScore score ∧ clampScore score ≤ 1 :=
  ⟨le_min (le_max_right _ _) (by decide), min_le_right _ _⟩

/-- A nonnegative score reaches a threshold of at most one exactly when
its clamped form does. -/
theorem le_clampScore_iff {score threshold : Rat} (hscore : 0 ≤ score)
    (hthreshold : threshold ≤ 1) :
    threshold ≤ clampScore score ↔ threshold ≤ score := by
  unfold clampScore
  rw [max_eq_left hscore, le_min_iff]
  exact ⟨fun h => h.1, fun h => ⟨h, hthreshold⟩⟩

section Finalize

variable (unicode : Unicode) (config : DetectionConfig)

def scoreIsReportable (c : Candidate) : Bool :=
  config.thresholdFor c.entityType ≤ c.score

def valueIsValid (c : Candidate) (value : Text) : Bool :=
  match valueValidator unicode c.entityType with
  | none => true
  | some validator => validator value

/-- The types a call may report. -/
def allowedTypes (requestedEntities : Option (List Text)) : List Text :=
  match requestedEntities with
  | none => config.enabledEntities
  | some requested => config.enabledEntities.filter requested.contains

/-- One round of the filter loop: the entity kept for a candidate. -/
def accept (text : Text) (requestedEntities : Option (List Text))
    (c : Candidate) : Option DetectedEntity :=
  if c.entityType ∉ allowedTypes config requestedEntities then none
  else if hspan : c.SpanIsValid text.length then
    if !valueIsValid unicode c (c.valueIn text) then none
    else if config.isAllowlisted unicode (c.valueIn text) then none
    else if !scoreIsReportable config c then none
    else
      some
        { entityType := c.entityType
          start := c.start.toNat
          stop := c.stop.toNat
          score := clampScore c.score
          recognizer := c.recognizer
          span_forward := by unfold Candidate.SpanIsValid at hspan; omega
          score_bounded := clampScore_bounded c.score }
  else none

/-- Drop the diagnostic recognizer name. -/
def withoutRecognizer (e : DetectedEntity) : DetectedEntity :=
  { e with recognizer := none }

/-- The candidates that survive the filters. -/
def survivors (candidates : List Candidate) (text : Text)
    (requestedEntities : Option (List Text)) : List DetectedEntity :=
  candidates.filterMap (accept unicode config text requestedEntities)

/-- The detector's sorted, non-overlapping result. -/
def finalize (candidates : List Candidate) (text : Text)
    (requestedEntities : Option (List Text) := none)
    (diagnostic : Bool := false) : Except Exn (List DetectedEntity) :=
  let kept := survivors unicode config candidates text requestedEntities
  let resolved := resolveOverlaps config.entityPriority kept
  if resolved.length > config.maxEntities then
    .error (gatewayError .entityLimitExceeded
      [("limit", .int config.maxEntities),
        ("detected", .int resolved.length)])
  else if diagnostic then .ok resolved
  else .ok (resolved.map withoutRecognizer)

-- ==================================================== the filters

/-- What the filters ask of a candidate. -/
structure Passes (text : Text) (requestedEntities : Option (List Text))
    (c : Candidate) : Prop where
  type_allowed : c.entityType ∈ allowedTypes config requestedEntities
  span_valid : c.SpanIsValid text.length
  value_valid : valueIsValid unicode c (c.valueIn text) = true
  not_allowlisted : config.isAllowlisted unicode (c.valueIn text) = false
  reportable : config.thresholdFor c.entityType ≤ c.score

/-- The entity carries the candidate's type, span and clamped score. -/
structure Stands (c : Candidate) (e : DetectedEntity) : Prop where
  entityType_eq : e.entityType = c.entityType
  start_eq : (e.start : Int) = c.start
  stop_eq : (e.stop : Int) = c.stop
  score_eq : e.score = clampScore c.score
  recognizer_eq : e.recognizer = c.recognizer

variable {unicode : Unicode} {config : DetectionConfig} {text : Text}
  {requestedEntities : Option (List Text)}

/-- The filters accept exactly the candidates that pass, as the entity that
stands for them. -/
theorem accept_eq_some {c : Candidate} {e : DetectedEntity}
    (h : accept unicode config text requestedEntities c = some e) :
    Passes unicode config text requestedEntities c ∧ Stands c e := by
  unfold accept at h
  split at h
  · cases h
  · rename_i htype
    split at h
    · rename_i hspan
      split at h
      · cases h
      · rename_i hvalue
        split at h
        · cases h
        · rename_i hallow
          split at h
          · cases h
          · rename_i hscore
            cases h
            refine ⟨⟨not_not.mp htype, hspan, by simpa using hvalue,
              by simpa using hallow, ?_⟩, ⟨rfl, ?_, ?_, rfl, rfl⟩⟩
            · simpa [scoreIsReportable] using hscore
            · show (c.start.toNat : Int) = c.start
              unfold Candidate.SpanIsValid at hspan
              omega
            · show (c.stop.toNat : Int) = c.stop
              unfold Candidate.SpanIsValid at hspan
              omega
    · cases h

theorem accept_of_passes {c : Candidate}
    (h : Passes unicode config text requestedEntities c) :
    ∃ e, accept unicode config text requestedEntities c = some e := by
  have hscore : scoreIsReportable config c = true := by
    simpa [scoreIsReportable] using h.reportable
  unfold accept
  rw [if_neg (not_not.mpr h.type_allowed), dif_pos h.span_valid,
    h.value_valid, h.not_allowlisted, hscore]
  exact ⟨_, rfl⟩

theorem mem_survivors {candidates : List Candidate} {e : DetectedEntity} :
    e ∈ survivors unicode config candidates text requestedEntities ↔
      ∃ c ∈ candidates,
        accept unicode config text requestedEntities c = some e := by
  unfold survivors
  exact List.mem_filterMap

/-- A survivor scored what its type must. -/
theorem threshold_le_of_mem_survivors {candidates : List Candidate}
    {e : DetectedEntity}
    (he : e ∈ survivors unicode config candidates text requestedEntities) :
    e.entityType ∈ allowedTypes config requestedEntities ∧
      min 1 (config.thresholdFor e.entityType) ≤ e.score := by
  obtain ⟨c, -, hc⟩ := mem_survivors.mp he
  obtain ⟨hpass, hstands⟩ := accept_eq_some hc
  rw [hstands.entityType_eq, hstands.score_eq]
  refine ⟨hpass.type_allowed, ?_⟩
  have hnonneg := config.thresholdFor_nonneg c.entityType
  exact (le_clampScore_iff (le_trans hnonneg hpass.reportable)
    (min_le_left _ _)).mpr (le_trans (min_le_right _ _) hpass.reportable)

-- ==================================================== the result

@[simp] theorem withoutRecognizer_entityType (e : DetectedEntity) :
    (withoutRecognizer e).entityType = e.entityType := rfl

@[simp] theorem withoutRecognizer_start (e : DetectedEntity) :
    (withoutRecognizer e).start = e.start := rfl

@[simp] theorem withoutRecognizer_stop (e : DetectedEntity) :
    (withoutRecognizer e).stop = e.stop := rfl

@[simp] theorem withoutRecognizer_score (e : DetectedEntity) :
    (withoutRecognizer e).score = e.score := rfl

@[simp] theorem overlaps_withoutRecognizer (e k : DetectedEntity) :
    e.overlaps (withoutRecognizer k) = e.overlaps k := rfl

/-- When the cap is not exceeded, the result is the resolved survivors
without their recognizer names. -/
theorem finalize_ok_iff {candidates : List Candidate}
    {result : List DetectedEntity} :
    finalize unicode config candidates text requestedEntities = .ok result ↔
      (resolveOverlaps config.entityPriority (survivors unicode config
          candidates text requestedEntities)).length ≤ config.maxEntities ∧
        result = (resolveOverlaps config.entityPriority (survivors unicode
          config candidates text requestedEntities)).map
            withoutRecognizer := by
  unfold finalize
  by_cases hcap : (resolveOverlaps config.entityPriority (survivors unicode
      config candidates text requestedEntities)).length > config.maxEntities
  · rw [if_pos hcap]
    constructor
    · intro h
      cases h
    · intro h
      exact absurd h.1 (by omega)
  · rw [if_neg hcap]
    constructor
    · intro h
      cases h
      exact ⟨by omega, rfl⟩
    · intro h
      rw [h.2]
      rfl

/-- The result's spans stand one after the other. -/
theorem finalize_chain {candidates : List Candidate}
    {result : List DetectedEntity}
    (h : finalize unicode config candidates text requestedEntities =
      .ok result) :
    result.Pairwise (fun a b => a.stop ≤ b.start) := by
  obtain ⟨-, rfl⟩ := finalize_ok_iff.mp h
  exact List.pairwise_map.mpr resolveOverlaps_chain

/-- Every span of the result lies in the text. -/
theorem stop_le_of_mem_finalize {candidates : List Candidate}
    {result : List DetectedEntity}
    (h : finalize unicode config candidates text requestedEntities =
      .ok result) {e : DetectedEntity} (he : e ∈ result) :
    e.stop ≤ text.length := by
  obtain ⟨-, rfl⟩ := finalize_ok_iff.mp h
  obtain ⟨k, hk, rfl⟩ := List.mem_map.mp he
  obtain ⟨c, -, hc⟩ := mem_survivors.mp (mem_of_mem_resolveOverlaps hk)
  obtain ⟨hpass, hstands⟩ := accept_eq_some hc
  have hspan := hpass.span_valid
  have hstop := hstands.stop_eq
  unfold Candidate.SpanIsValid at hspan
  rw [withoutRecognizer_stop]
  omega

end Finalize

end PrivacyGateway.Detection
