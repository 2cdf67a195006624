/-
Authoring-time checks of a policy draft.

`validateDraft` is asked of what the structural parse gave: the paths of
its problems, or a draft. A draft that parsed is publishable when every
entity type it configures is one the detector emits and every recognizer
it names is one that exists. Warnings never block.
-/
import PrivacyGateway.Detection.Config
import PrivacyGateway.Policy.Models

namespace PrivacyGateway

def maxReportedProblems : Nat := 20

/-- A draft that parsed: the document, and the recognizer named by each
rule that names one. -/
structure Draft where
  document : PolicyDocument
  recognizers : Dict Text Text

/-- One reason a draft cannot be published. -/
structure ValidationProblem where
  field : Text
  code : Text
  message : Text
deriving DecidableEq

structure ValidationResult where
  valid : Bool
  problems : List ValidationProblem
  warnings : List ValidationProblem
deriving DecidableEq

/-- Types a policy may configure. -/
def knownEntityTypes : List Text := Detection.supportedEntityTypes

def recognizerCustom : Text := "custom-regex".toList
def recognizerBuiltin : Text := "presidio-builtin".toList

/-- Recognizer identifiers a policy rule may name. -/
def knownRecognizers : List Text := [recognizerCustom, recognizerBuiltin]

/-- Types whose exposure is not recoverable. -/
def highRiskEntities : List Text :=
  ["US_SSN".toList, "CREDIT_CARD".toList, "API_KEY".toList,
    "ACCESS_TOKEN".toList, "US_PASSPORT".toList]

/-- `sorted(document.entities)`. -/
def Draft.entityNames (draft : Draft) : List Text :=
  (draft.document.entities.map Prod.fst).insertionSort (· ≤ ·)

def entityField (name : Text) : Text :=
  "entities.".toList ++ name

def unknownEntities (draft : Draft) : List ValidationProblem :=
  (draft.entityNames.filter (fun name =>
    !knownEntityTypes.contains name)).map (fun name =>
      { field := entityField name
        code := "unsupported_entity".toList
        message := "The detector cannot emit this entity type.".toList })

def unknownRecognizers (draft : Draft) : List ValidationProblem :=
  (draft.entityNames.filter (fun name =>
    ((draft.recognizers.get? name).map (fun recognizer =>
      !knownRecognizers.contains recognizer)).getD false)).map (fun name =>
        { field := entityField name ++ ".recognizer".toList
          code := "unsupported_recognizer".toList
          message :=
            "No recognizer of this name is configured.".toList })

/-- The advisory note on one rule. -/
def warningFor (draft : Draft) (name : Text) : Option ValidationProblem :=
  match draft.document.entities.get? name with
  | none => none
  | some rule =>
      if !highRiskEntities.contains name then none
      else if !rule.enabled then
        some
          { field := entityField name ++ ".enabled".toList
            code := "high_risk_disabled".toList
            message := ("This high-risk type falls back to the default " ++
              "action when disabled.").toList }
      else if rule.action = .allow then
        some
          { field := entityField name ++ ".action".toList
            code := "high_risk_allowed".toList
            message := ("This high-risk type would be sent to the " ++
              "provider unprotected.").toList }
      else none

def warnings (draft : Draft) : List ValidationProblem :=
  draft.entityNames.filterMap (warningFor draft)

/-- A structural problem: what stands before and after the first colon of
its path. -/
def structuralProblem (path : Text) : ValidationProblem where
  field := path.takeWhile (fun c => c != ':')
  code :=
    if path.contains ':' then
      (path.dropWhile (fun c => c != ':')).drop 1
    else path
  message := "This field is not valid for a policy document.".toList

/-- Check a draft document for publishability. -/
def validateDraft : Except (List Text) Draft → ValidationResult
  | .error paths =>
      let reported :=
        if paths = [] then ["document:invalid".toList] else paths
      { valid := false
        problems := (reported.take maxReportedProblems).map
          structuralProblem
        warnings := [] }
  | .ok draft =>
      let problems := unknownEntities draft ++ unknownRecognizers draft
      { valid := problems.isEmpty
        problems := problems.take maxReportedProblems
        warnings := warnings draft }

end PrivacyGateway
