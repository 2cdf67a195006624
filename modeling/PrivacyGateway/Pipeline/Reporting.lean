/-
Per-request identity, and what leaves the pipeline: the caller's response
and the audit row.

`auditPayload` projects one finished request onto the audit service's
fields. `recordOutcome` hands it over under the configured failure policy;
`recordFailure` does so for a refused request, whose row holds counts and
codes of the refusal and nothing of what came before it.
-/
import PrivacyGateway.Api.Composition
import PrivacyGateway.Pipeline.Guards

namespace PrivacyGateway.Pipeline

open Audit Effect Ledger

-- ==================================================== requests

/-- Unprocessed caller input, as the schema admits it. -/
structure ChatRequest where
  sessionId : Option UUID := none
  provider : Text
  model : Text
  messages : List ChatMessage
  temperature : Option Rat := none
  maxOutputTokens : Option Int := none
  provider_bounded : 1 ≤ provider.length ∧ provider.length ≤ 64
  model_bounded : 1 ≤ model.length ∧ model.length ≤ 128
  messages_nonempty : messages ≠ []
  temperature_bounded : ∀ t ∈ temperature, 0 ≤ t ∧ t ≤ 2
  maxOutputTokens_bounded : ∀ n ∈ maxOutputTokens, 1 ≤ n ∧ n ≤ 32768

/-- What the caller gets back. -/
structure ChatResponse where
  requestId : UUID
  sessionId : UUID
  provider : Text
  model : Text
  message : ChatMessage
  privacy : PrivacySummary
  usage : Option ProviderUsage
deriving DecidableEq

/-- Identity and clock for one request, fixed before the policy
resolves. -/
structure PipelineAttempt where
  requestId : UUID
  principal : Principal
  sessionId : UUID
  providerAlias : Text
  modelAlias : Text
  startedAt : Moment
  startedClock : Rat
deriving DecidableEq

def PipelineAttempt.elapsedMs (attempt : PipelineAttempt) (now : Rat) :
    Int :=
  max (Outbound.milliseconds (now - attempt.startedClock)) 0

/-- How one request ended, in counts and codes only. -/
structure RequestOutcome where
  statusCode : Int
  summary : PrivacySummary
  inputCharacterCount : Int := 0
  outputCharacterCount : Int := 0
  providerLatencyMs : Option Int := none
  pipelineLatencyMs : Option Int := none
  errorCode : Option Text := none
  blocked : Bool := false
  promptHmac : Option Digest := none
  responseHmac : Option Digest := none
  outboundHmac : Option Digest := none
  outboundScan : Option Text := none
deriving DecidableEq

/-- Counts per action. -/
def actionCounts (summary : PrivacySummary) : Dict Text Int :=
  [("detected".toList, summary.detected),
    ("tokenized".toList, summary.tokenized),
    ("redacted".toList, summary.redacted),
    ("pseudonymized".toList, summary.pseudonymized),
    ("allowed".toList, summary.allowed),
    ("blocked".toList, summary.blocked),
    ("restored".toList, summary.restored),
    ("unknown_tokens".toList, summary.unknownTokens)]

/-- Project one finished request onto the audit service's fields. The
session id goes beside it. -/
def auditPayload (attempt : PipelineAttempt)
    (snapshot : Option PolicySnapshot) (outcome : RequestOutcome) :
    AuditFields where
  tenantId := attempt.principal.tenantId
  requestId := attempt.requestId
  statusCode := outcome.statusCode
  occurredAt := some attempt.startedAt
  apiKeyId := some attempt.principal.apiKeyId
  policyId := snapshot.map PolicySnapshot.policyId
  policyVersion := snapshot.map PolicySnapshot.version
  providerAlias := some attempt.providerAlias
  modelAlias := some attempt.modelAlias
  inputCharacterCount := outcome.inputCharacterCount
  outputCharacterCount := outcome.outputCharacterCount
  entityCounts := outcome.summary.entityTypes.map
    (fun entry => (entry.1, (entry.2 : Int)))
  actions := actionCounts outcome.summary
  blocked := outcome.blocked
  providerLatencyMs := outcome.providerLatencyMs
  pipelineLatencyMs := outcome.pipelineLatencyMs
  errorCode := outcome.errorCode
  promptHmac := outcome.promptHmac.map Digest.text
  responseHmac := outcome.responseHmac.map Digest.text
  outboundHmac := outcome.outboundHmac.map Digest.text
  outboundScan := outcome.outboundScan

-- ==================================================== recording

def auditFailure : StageFailure := stageFailure .internalError

section Record

variable {unicode : Unicode} {σ : Type} (services : Services unicode σ)
  (attempt : PipelineAttempt) (snapshot : Option PolicySnapshot)

/-- What is done with an error of the audit stage. -/
def auditRefused (failClosed : Bool) : Exn → Eff (Task σ) Exn Unit
  | .gateway error => if failClosed then throw (.gateway error) else pure ()
  | e => throw e

/-- Append one audit event, honouring the configured failure policy. -/
def recordOutcome (outcome : RequestOutcome) (failClosed : Bool) :
    Eff (Task σ) Exn Unit :=
  recover
    (runStage .audit auditFailure
      (services.auditAdapter.record
        (auditPayload attempt snapshot outcome) attempt.sessionId))
    (auditRefused failClosed)

/-- The outcome of a refused request. -/
def failureOutcome (error : GatewayError) (elapsedMs : Int) :
    RequestOutcome where
  statusCode := error.statusCode
  summary := {}
  errorCode := some error.code.value
  blocked := error.code == .policyViolation
  pipelineLatencyMs := some elapsedMs

/-- Record a refused request. Never fails closed. -/
def recordFailure (error : GatewayError) : Eff (Task σ) Exn Unit := do
  let now ← readClock services.clock
  recordOutcome services attempt snapshot
    (failureOutcome error (attempt.elapsedMs now)) false

end Record

/-- Assemble the caller's response. -/
def buildResponse (attempt : PipelineAttempt)
    (restored : Restoration.RestoredOutput) (summary : PrivacySummary)
    (providerAlias : Text) : ChatResponse where
  requestId := attempt.requestId
  sessionId := attempt.sessionId
  provider := providerAlias
  model := attempt.modelAlias
  message := ⟨.assistant, restored.text⟩
  privacy := summary
  usage := restored.usage

end PrivacyGateway.Pipeline
