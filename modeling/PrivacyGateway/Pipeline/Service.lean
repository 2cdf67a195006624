/-
The chat request, end to end.

`run` is everything after the policy resolves, in order: detect, guard,
tokenize, attest and send, restore. `invoke` puts one place around it where
every refusal is recorded. Only a gateway error is a refusal; anything else
passes through that place unrecorded.
-/
import PrivacyGateway.Pipeline.Reporting

namespace PrivacyGateway.Pipeline

open Audit Effect Ledger Tokenization

def policyFailure : StageFailure := stageFailure .internalError

def detectionFailure : StageFailure :=
  stageFailure .privacyDetectorUnavailable

def providerFailure : StageFailure :=
  stageFailure .providerUnavailable (some .providerTimeout)

def restorationFailure : StageFailure := stageFailure .restorationFailed

def nilSessionId : UUID := ⟨0⟩

/-- Reject provider output that is not text. -/
def validateProviderResponse (response : ProviderResponse) :
    Except Exn ProviderResponse :=
  match response.content with
  | some _ => .ok response
  | none =>
      .error (gatewayError .providerResponseInvalid
        [("stage", .text "provider".toList),
          ("reason", .text "content_not_text".toList)])

/-- The provider request of the protected messages. -/
def protectedRequest (attempt : PipelineAttempt) (request : ChatRequest)
    (policyVersion : Int) (messages : List ChatMessage) :
    Except Exn ProtectedChatRequest :=
  if hmessages : messages = [] then
    .error (.value "a protected request must carry at least one message")
  else
    .ok
      { requestId := attempt.requestId
        tenantId := attempt.principal.tenantId
        sessionId := attempt.sessionId
        providerAlias := request.provider
        modelAlias := request.model
        messages := messages
        policyVersion := policyVersion
        temperature := request.temperature
        maxOutputTokens := request.maxOutputTokens
        messages_nonempty := hmessages }

/-- A finished request: what the caller gets, and what the audit row
gets. -/
structure Completed where
  response : ChatResponse
  outcome : RequestOutcome
deriving DecidableEq

section Pipeline

variable {unicode : Unicode} {σ : Type} (services : Services unicode σ)

/-- The one session id of a request. -/
def resolveSessionId : Option UUID → Eff (Task σ) Exn UUID
  | none => services.freshId
  | some requested =>
      if requested = nilSessionId then
        throw (gatewayError .invalidRequest
          (reason "session_id_must_not_be_nil"))
      else return requested

/-- Fix the request id, the session id, and the clock, once. -/
def begin (request : ChatRequest) (principal : Principal) :
    Eff (Task σ) Exn PipelineAttempt := do
  checked (enforceMessageSizes services.settings.maxMessageChars
    request.messages)
  let sessionId ← resolveSessionId services request.sessionId
  let startedClock ← readClock services.clock
  let requestId ← services.freshId
  let now ← utcNow services.audit
  return {
    requestId := requestId
    principal := principal
    sessionId := sessionId
    providerAlias := request.provider
    modelAlias := request.model
    startedAt := ⟨now, true⟩
    startedClock := startedClock }

def resolvePolicy (attempt : PipelineAttempt) :
    Eff (Task σ) Exn PolicySnapshot :=
  runStage .policy policyFailure
    (Policy.resolve services.policies attempt.principal.tenantId
      attempt.providerAlias attempt.modelAlias)

/-- Detect over every message, whatever its role. -/
def detectMessages :
    List ChatMessage → Eff (Task σ) Exn (List (List DetectedEntity))
  | [] => return []
  | message :: messages => do
      let entities ← runStage .detection detectionFailure
        (await (services.detector.detect message.content defaultLanguage))
      let rest ← detectMessages messages
      return entities :: rest

/-- Call the provider under the deadline. -/
def complete : Outbound.Invoker σ := fun adapter request => do
  let response ← runStage .provider providerFailure
    (await (adapter.complete request))
  checked (validateProviderResponse response)

/-- Restore one response, and say so. -/
def restoreStage (attempt : PipelineAttempt) (snapshot : PolicySnapshot)
    (response : ProviderResponse) :
    Eff (Task σ) Exn Restoration.RestoredOutput := do
  let restored ← runStage .restoration restorationFailure
    (await (services.output.restore unicode attempt.principal.tenantId
      attempt.sessionId response snapshot))
  note (Event.restored snapshot.version restored.text)
  return restored

/-- The stages before the outbound boundary. -/
def protectRequest (request : ChatRequest) (attempt : PipelineAttempt)
    (snapshot : PolicySnapshot) :
    Eff (Task σ) Exn (ProtectedChatRequest × PrivacySummary) := do
  let _ ← checked (services.providers.get unicode attempt.providerAlias)
  let detections ← detectMessages services request.messages
  checked (guardRequest request.messages detections snapshot
    services.settings.maxEntitiesPerRequest)
  let protectedMessages ← await (tokenizeMessages unicode services.hashes
    services.fingerprinter services.vault attempt.principal.tenantId
    attempt.sessionId snapshot {} request.messages detections)
  let protectedChat ← checked (protectedRequest attempt request
    snapshot.version protectedMessages.1)
  return (protectedChat, protectedMessages.2)

/-- What is left once the provider answered. -/
def conclude (request : ChatRequest) (attempt : PipelineAttempt)
    (snapshot : PolicySnapshot) (summary : PrivacySummary)
    (transmission : Outbound.Transmission) :
    Eff (Task σ) Exn Completed := do
  let restored ← restoreStage services attempt snapshot
    transmission.response
  let merged := summary.mergedWith restored.summary
  let now ← readClock services.clock
  let responseHmac ← checked (services.outbound.responseDigest
    attempt.principal.tenantId restored.text)
  return {
    response := buildResponse attempt restored merged
      transmission.providerAlias
    outcome :=
      { statusCode := 200
        summary := merged
        inputCharacterCount :=
          (request.messages.map (fun message =>
            message.content.length)).sum
        outputCharacterCount := restored.text.length
        providerLatencyMs := some transmission.providerLatencyMs
        pipelineLatencyMs := some (attempt.elapsedMs now)
        promptHmac := some transmission.attestation.promptHmac
        responseHmac := some responseHmac
        outboundHmac := some transmission.attestation.payloadHmac
        outboundScan := some transmission.attestation.verdict } }

/-- Everything after the policy resolves, in order. -/
def run (request : ChatRequest) (attempt : PipelineAttempt)
    (snapshot : PolicySnapshot) : Eff (Task σ) Exn Completed := do
  let protectedChat ← protectRequest services request attempt snapshot
  let transmission ← translate Outbound.SendFailure.exn
    (services.outbound.send protectedChat.1 snapshot complete)
  conclude services request attempt snapshot protectedChat.2 transmission

/-- The policy and the run under it. A failure comes with the snapshot
that had been resolved by then. -/
def resolveAndRun (request : ChatRequest) (attempt : PipelineAttempt) :
    Eff (Task σ) (Option PolicySnapshot × Exn)
      (PolicySnapshot × Completed) := do
  let snapshot ← translate (Prod.mk none) (resolvePolicy services attempt)
  let completed ← translate (Prod.mk (some snapshot))
    (run services request attempt snapshot)
  return (snapshot, completed)

/-- Record a refusal, then let the original error surface. -/
def refuse (attempt : PipelineAttempt) :
    Option PolicySnapshot × Exn →
      Eff (Task σ) Exn (PolicySnapshot × Completed)
  | (snapshot, .gateway error) => do
      recordFailure services attempt snapshot error
      throw (.gateway error)
  | (_, e) => throw e

/-- Run one chat request end to end. -/
def invoke (request : ChatRequest) (principal : Principal) :
    Eff (Task σ) Exn ChatResponse := do
  let attempt ← begin services request principal
  let finished ← recover (resolveAndRun services request attempt)
    (refuse services attempt)
  recordOutcome services attempt (some finished.1) finished.2.outcome
    services.settings.auditFailClosed
  return finished.2.response

end Pipeline

end PrivacyGateway.Pipeline
