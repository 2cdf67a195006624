/-
Applying a document's labeled spans: tokens in, originals in the vault.

`protect` is the whole stage. The document and the caller's instruction go
through two transforms, one after the other, under one session: the
document under the document's own entity budget, the instruction under the
policy as it stands. The block check on the instruction runs before the
first of them.

What the analysis and the detector answer comes in as results: neither
touches the vault.
-/
import PrivacyGateway.Documents.Analysis
import PrivacyGateway.Tokenization.Tokenizer

namespace PrivacyGateway.Documents

open Effect Tokenization

/-- The analysis policy, with the document's entity ceiling
substituted. -/
def documentEntityBudget (snapshot : PolicySnapshot)
    (documentMaxEntities : Nat) : PolicySnapshot :=
  { snapshot with maxEntities := documentMaxEntities }

/-- A document with every detected span replaced. -/
structure ProtectedDocument where
  tenantId : UUID
  sessionId : UUID
  documentId : UUID
  text : Text
  instruction : Text
  summary : PrivacySummary
  policyVersion : Int
  text_nonempty : text ≠ []
deriving DecidableEq

/-- The constructor's check on what protection hands it. -/
def protectedDocument (tenantId sessionId documentId : UUID)
    (text instruction : Text) (summary : PrivacySummary)
    (policyVersion : Int) : Except Exn ProtectedDocument :=
  if htext : text = [] then
    .error (.value "a protected document must carry text")
  else
    .ok
      { tenantId := tenantId
        sessionId := sessionId
        documentId := documentId
        text := text
        instruction := instruction
        summary := summary
        policyVersion := policyVersion
        text_nonempty := htext }

/-- The labeled spans as plain detections. -/
def LabeledSpan.detection (span : LabeledSpan) : DetectedEntity where
  entityType := span.entityType
  start := span.start
  stop := span.stop
  score := span.score
  recognizer := none
  span_forward := span.span_forward
  score_bounded := span.score_bounded

def asDetections (analyzed : AnalyzedDocument) : List DetectedEntity :=
  analyzed.spans.map LabeledSpan.detection

/-- Detect over the caller's instruction, or nothing for a blank one. -/
def detectInstruction (unicode : Unicode)
    (detect : Text → Except Exn (List DetectedEntity))
    (instruction : Text) : Except Exn (List DetectedEntity) :=
  if unicode.strip instruction = [] then .ok []
  else detect instruction

/-- Refuse the request if the instruction holds a blocked entity type. -/
def rejectBlockedInstruction (policy : PolicySnapshot) :
    List DetectedEntity → Except Exn Unit
  | [] => .ok ()
  | entity :: entities =>
      if policy.actionFor entity.entityType = .block then
        .error (gatewayError .policyViolation
          (("entity_type", .text entity.entityType) ::
            reason "policy_blocked_instruction_entity"))
      else rejectBlockedInstruction policy entities

/-- Refuse a result that acted on another number of spans than were
labeled. -/
def verifyEverySpanWasActedOn (analyzed : AnalyzedDocument)
    (transformed : TransformedText) : Except Exn Unit :=
  if transformed.summary.detected = analyzed.spans.length then .ok ()
  else
    .error (gatewayError .internalError
      (reason "protection_dropped_labeled_spans" ++
        [("labeled", .int analyzed.spans.length),
          ("protected", .int transformed.summary.detected)]))

section Protect

variable {σ : Type} (unicode : Unicode) (hashes : Hashes)
  (fingerprinter : Fingerprinter) (vault : VaultLike σ)
  (tenantId sessionId : UUID)

/-- The instruction, protected, unless nothing was detected in it. -/
def protectInstruction (policy : PolicySnapshot) (instruction : Text)
    (entities : List DetectedEntity) :
    Eff σ Exn (Option TransformedText) :=
  if entities = [] then return none
  else do
    let transformed ← transform unicode hashes fingerprinter vault tenantId
      sessionId instruction entities policy
    return some transformed

/-- The two transforms, and the checks between and after them. -/
def protectAnalyzed (maxEntities : Nat) (analyzed : AnalyzedDocument)
    (instruction : Text) (entities : List DetectedEntity) :
    Eff σ Exn ProtectedDocument := do
  checked (rejectBlockedInstruction analyzed.policy entities)
  let transformed ← transform unicode hashes fingerprinter vault tenantId
    sessionId analyzed.segmented.document.text (asDetections analyzed)
    (documentEntityBudget analyzed.policy maxEntities)
  checked (verifyEverySpanWasActedOn analyzed transformed)
  let protectedInstruction ← protectInstruction unicode hashes
    fingerprinter vault tenantId sessionId analyzed.policy instruction
    entities
  checked (protectedDocument tenantId sessionId analyzed.documentId
    transformed.text
    ((protectedInstruction.map TransformedText.text).getD instruction)
    ((protectedInstruction.map (fun protectedText =>
      transformed.summary.mergedWith protectedText.summary)).getD
        transformed.summary)
    analyzed.policyVersion)

/-- Analyze one document and replace every span the policy acts on. -/
def protect (maxEntities : Nat) (analysis : Except Exn AnalyzedDocument)
    (detect : Text → Except Exn (List DetectedEntity))
    (instruction : Text) : Eff σ Exn ProtectedDocument := do
  let analyzed ← checked analysis
  let entities ← checked (detectInstruction unicode detect instruction)
  protectAnalyzed unicode hashes fingerprinter vault tenantId sessionId
    maxEntities analyzed instruction entities

end Protect

end PrivacyGateway.Documents
