/-
The detector seam.

Every consumer depends on this interface: one operation that reads a text
and returns the entities found in it, or raises. What it does is up to
the implementation; the one law is the implementation's own early return,
which reports nothing in a blank text.
-/
import PrivacyGateway.Lib.Effect
import PrivacyGateway.Unicode

namespace PrivacyGateway.Detection

open Effect

/-- Finds sensitive spans in text. -/
structure Detector (unicode : Unicode) (σ : Type) where
  detect : (text language : Text) → Eff σ Exn (List DetectedEntity)
  detect_blank : ∀ (text language : Text) (s t : σ)
    (entities : List DetectedEntity), unicode.strip text = [] →
      runIn (detect text language) s = (.ok entities, t) → entities = []

/-- The detector that reports what a table says, and nothing else. -/
def Detector.ofTable (unicode : Unicode) (σ : Type)
    (table : Dict Text (List DetectedEntity)) : Detector unicode σ where
  detect text _ :=
    pure (if unicode.strip text = [] then []
      else (table.get? text).getD [])
  detect_blank := by
    intro text language s t entities hblank hrun
    rw [runIn_pure, if_pos hblank] at hrun
    cases hrun
    rfl

end PrivacyGateway.Detection
