/-
The production detector: an analyzer's candidates, finalized.

The analyzer is not part of this repository; it is asked for the enabled
types of one text and answers with candidates, or raises. Whatever it
answers, what the detector returns went through `finalize`, so it is of an
enabled type (`detect_ok_type`).
-/
import PrivacyGateway.Detection.Base
import PrivacyGateway.Detection.Postprocess

namespace PrivacyGateway.Detection

open Effect

def supportedLanguages : List Text := ["en".toList]

structure PresidioDetector (unicode : Unicode) (σ : Type) where
  config : DetectionConfig
  analyze : (text language : Text) → Eff σ Exn (List Candidate)

namespace PresidioDetector

variable {unicode : Unicode} {σ : Type}

/-- Non-overlapping entities in order. -/
def detect (engine : PresidioDetector unicode σ) (text language : Text) :
    Eff σ Exn (List DetectedEntity) :=
  if supportedLanguages.contains language = false then
    throw (gatewayError .unsupportedLanguage
      [("requested_language_supported", .text "False".toList)])
  else if unicode.strip text = [] then return []
  else if engine.config.enabledEntities = [] then return []
  else do
    let candidates ← engine.analyze text language
    checked (finalize unicode engine.config candidates text)

/-- The detector, as its consumers see it. -/
def detector (engine : PresidioDetector unicode σ) :
    Detector unicode σ where
  detect := engine.detect
  detect_blank := by
    intro text language s t entities hblank hrun
    unfold detect at hrun
    by_cases hlanguage : supportedLanguages.contains language = false
    · rw [if_pos hlanguage] at hrun
      cases hrun
    · rw [if_neg hlanguage, if_pos hblank] at hrun
      cases hrun
      rfl

/-- What is reported is of an enabled type. -/
theorem detect_ok_type {engine : PresidioDetector unicode σ}
    {text language : Text} {s t : σ} {entities : List DetectedEntity}
    (h : runIn (engine.detect text language) s = (.ok entities, t))
    {e : DetectedEntity} (he : e ∈ entities) :
    e.entityType ∈ engine.config.enabledEntities := by
  unfold detect at h
  by_cases hlanguage : supportedLanguages.contains language = false
  · rw [if_pos hlanguage] at h
    cases h
  · rw [if_neg hlanguage] at h
    by_cases hblank : unicode.strip text = []
    · rw [if_pos hblank] at h
      cases h
      cases he
    · rw [if_neg hblank] at h
      by_cases hnone : engine.config.enabledEntities = []
      · rw [if_pos hnone] at h
        cases h
        cases he
      · rw [if_neg hnone] at h
        obtain ⟨candidates, u, -, hfinal⟩ := bind_ok_iff.mp h
        rw [runIn_checked] at hfinal
        obtain ⟨-, rfl⟩ := finalize_ok_iff.mp (Prod.mk.inj hfinal).1
        obtain ⟨k, hk, rfl⟩ := List.mem_map.mp he
        exact (threshold_le_of_mem_survivors
          (mem_of_mem_resolveOverlaps hk)).1

end PresidioDetector

/-- The detector a deployment runs: every default. -/
def PresidioDetector.default (unicode : Unicode) {σ : Type}
    (analyze : (text language : Text) → Eff σ Exn (List Candidate)) :
    PresidioDetector unicode σ :=
  ⟨.default, analyze⟩

end PrivacyGateway.Detection
