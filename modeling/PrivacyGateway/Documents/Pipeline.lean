/-
The document request, end to end: protect, serialize, scan, transmit,
restore, attest.

`analyze` resolves a policy of its own, after the one that authorized the
destination. `run` is the order of the request; what follows an attested
payload is `answer`, and only a payload the scan refused, and an answer that
was restored, are written to the audit table.
-/
import PrivacyGateway.Api.Composition

namespace PrivacyGateway.Documents

open Audit Effect Ledger Tokenization

def defaultInstructionMaxChars : Nat := 4000

/-- What to do with a stored document, as the schema admits it, and the
identifiers that come with the request. -/
structure DocumentRequest where
  requestId : UUID
  sessionId : UUID
  userId : UUID
  documentId : UUID
  provider : Text
  model : Text
  instruction : Text
  provider_bounded : 1 ≤ provider.length ∧ provider.length ≤ 64
  model_bounded : 1 ≤ model.length ∧ model.length ≤ 128
  instruction_bounded : 1 ≤ instruction.length ∧
    instruction.length ≤ 4000

/-- What the caller gets back. -/
structure DocumentAnswer where
  requestId : UUID
  sessionId : UUID
  documentId : UUID
  provider : Text
  model : Option Text
  text : Text
  privacy : PrivacySummary
  outboundHmac : Digest
deriving DecidableEq

def enforceInstructionSize (instruction : Text) (limit : Nat) :
    Except Exn Unit :=
  if instruction.length > limit then
    .error (gatewayError .requestTooLarge
      (reason "instruction_too_long" ++ [("limit", .int limit)]))
  else .ok ()

/-- The error reported for a failed segment. -/
def segmentFailure : Exn → Exn
  | .gateway error => .gateway error
  | _ =>
      gatewayError .privacyDetectorUnavailable
        [("stage", .text "document_detection".toList),
          ("reason", .text "stage_failed".toList)]

/-- The provider request of an already protected document: the instruction
is a system message and the document is a user message. -/
def protectedRequest (principal : Principal) (request : DocumentRequest)
    (document : ProtectedDocument) : ProtectedChatRequest where
  requestId := request.requestId
  tenantId := principal.tenantId
  sessionId := request.sessionId
  providerAlias := request.provider
  modelAlias := request.model
  messages := [⟨.system, document.instruction⟩, ⟨.user, document.text⟩]
  policyVersion := document.policyVersion
  messages_nonempty := List.cons_ne_nil _ _

/-- What a request is answered with, or was refused after. -/
structure Attested where
  attestation : Outbound.Attestation
  summary : PrivacySummary
  isBlocked : Bool
  requestCharacters : Nat
  responseText : Option Text := none
  providerLatencyMs : Option Int := none
deriving DecidableEq

section Pipeline

variable {unicode : Unicode} {σ : Type} (services : Services unicode σ)
  (principal : Principal) (request : DocumentRequest)

-- ==================================================== analysis

/-- The detector over every segment. -/
def detectSegmentTexts (segmented : SegmentedDocument) :
    List Segment → Eff (Task σ) Exn (List (Segment × List DetectedEntity))
  | [] => return []
  | segment :: segments => do
      let entities ← translate segmentFailure
        (await (services.detector.detect (segmented.textOf segment)
          defaultLanguage))
      let rest ← detectSegmentTexts segmented segments
      return (segment, entities) :: rest

/-- Detect over one document and return its labeled spans. -/
def analyze : Eff (Task σ) Exn AnalyzedDocument := do
  let policy ← Policy.snapshotFor services.policies principal.tenantId
  let segmented ← await (services.segment principal.tenantId request.userId
    request.documentId)
  let runs ← detectSegmentTexts services segmented segmented.segments
  let analyzed ← checked (analyzeSegments policy principal.tenantId
    request.documentId segmented services.settings.maxDocumentEntities runs)
  note (Event.decided policy.version)
  return analyzed

-- ==================================================== protection

/-- Detect over the caller's instruction, or nothing for a blank one. -/
def detectOverInstruction : Eff (Task σ) Exn (List DetectedEntity) :=
  if unicode.strip request.instruction = [] then return []
  else
    await (services.detector.detect request.instruction defaultLanguage)

/-- Analyze one document and replace every span the policy acts on. -/
def protectStored : Eff (Task σ) Exn ProtectedDocument := do
  let analyzed ← analyze services principal request
  let entities ← detectOverInstruction services request
  await (protectAnalyzed unicode services.hashes services.fingerprinter
    services.vault principal.tenantId request.sessionId
    services.settings.maxDocumentEntities analyzed request.instruction
    entities)

-- ==================================================== the audit row

/-- The fields of the audit row. -/
def attestFields (policy : PolicySnapshot) (attested : Attested)
    (sessionDigest : Digest) (pipelineLatencyMs : Int)
    (responseDigest : Option Digest) : AuditFields where
  tenantId := principal.tenantId
  requestId := request.requestId
  statusCode := if attested.isBlocked then 422 else 200
  apiKeyId := some principal.apiKeyId
  sessionIdHash := some sessionDigest.text
  policyId := some policy.policyId
  policyVersion := some policy.version
  providerAlias := some request.provider
  modelAlias := some request.model
  inputCharacterCount := attested.requestCharacters
  outputCharacterCount := (attested.responseText.getD []).length
  entityCounts := (countsFromSummary attested.summary).1
  actions := (countsFromSummary attested.summary).2
  blocked := attested.isBlocked
  blockReasonCode :=
    if attested.isBlocked then some "outbound_scan".toList else none
  providerLatencyMs := attested.providerLatencyMs
  pipelineLatencyMs := some pipelineLatencyMs
  outboundHmac := some attested.attestation.payloadHmac.text
  outboundScan := some attested.attestation.verdict
  promptHmac := some attested.attestation.promptHmac.text
  responseHmac := responseDigest.map Digest.text

/-- The digest of a response, where there is one. -/
def responseDigestOf (responseText : Option Text) :
    Except Exn (Option Digest) :=
  match responseText with
  | none => .ok none
  | some text =>
      match services.outbound.responseDigest principal.tenantId text with
      | .ok digest => .ok (some digest)
      | .error e => .error e

/-- Write the audit row. -/
def attestRow (policy : PolicySnapshot) (started : Rat)
    (attested : Attested) : Eff (Task σ) Exn Unit := do
  let sessionDigest ← checked (services.outbound.sessionDigest
    principal.tenantId request.sessionId)
  let now ← readClock services.clock
  let responseDigest ← checked (responseDigestOf services principal
    attested.responseText)
  submitFields services.audit (attestFields principal request policy
    attested sessionDigest (Outbound.milliseconds (now - started))
    responseDigest)

-- ==================================================== the order

/-- Restore one response, and say so. -/
def restoreAnswer (policy : PolicySnapshot) (response : ProviderResponse) :
    Eff (Task σ) Exn Restoration.RestoredOutput := do
  let restored ← await (services.output.restore unicode principal.tenantId
    request.sessionId response policy)
  note (Event.restored policy.version restored.text)
  return restored

/-- A payload the scan refused: the row, and the error again. Any other
failure passes through. -/
def refusedBy (policy : PolicySnapshot) (started : Rat)
    (document : ProtectedDocument) :
    Outbound.SendFailure → Eff (Task σ) Exn Outbound.Transmission
  | .blocked attestation => do
      attestRow services principal request policy started
        { attestation := attestation
          summary := document.summary
          isBlocked := true
          requestCharacters := document.text.length }
      throw (Outbound.SendFailure.blocked attestation).exn
  | .raised e => throw e

/-- What is left once the provider answered. -/
def conclude (policy : PolicySnapshot) (started : Rat)
    (document : ProtectedDocument)
    (transmission : Outbound.Transmission) :
    Eff (Task σ) Exn DocumentAnswer := do
  let restored ← restoreAnswer services principal request policy
    transmission.response
  let summary := document.summary.mergedWith restored.summary
  attestRow services principal request policy started
    { attestation := transmission.attestation
      summary := summary
      isBlocked := false
      requestCharacters := document.text.length
      responseText := some restored.text
      providerLatencyMs := some transmission.providerLatencyMs }
  return {
    requestId := request.requestId
    sessionId := request.sessionId
    documentId := request.documentId
    provider := request.provider
    model := restored.model
    text := restored.text
    privacy := summary
    outboundHmac := transmission.attestation.payloadHmac }

/-- Everything after the destination is authorized. -/
def process (policy : PolicySnapshot) (started : Rat) :
    Eff (Task σ) Exn DocumentAnswer := do
  let document ← protectStored services principal request
  let transmission ← recover
    (services.outbound.send (protectedRequest principal request document)
      policy Outbound.callDirectly)
    (refusedBy services principal request policy started document)
  conclude services principal request policy started document transmission

/-- The part of `run` before the registry is asked: the policy that
authorizes the destination. -/
def authorizingPolicy : Eff (Task σ) Exn PolicySnapshot := do
  let _ ← readClock services.clock
  checked (enforceInstructionSize request.instruction
    defaultInstructionMaxChars)
  Policy.resolve services.policies principal.tenantId request.provider
    request.model

/-- Send one protected document to a model and restore the answer. -/
def run : Eff (Task σ) Exn DocumentAnswer := do
  let started ← readClock services.clock
  checked (enforceInstructionSize request.instruction
    defaultInstructionMaxChars)
  let policy ← Policy.resolve services.policies principal.tenantId
    request.provider request.model
  checked (services.outbound.authorize request.provider)
  process services principal request policy started

end Pipeline

end PrivacyGateway.Documents
