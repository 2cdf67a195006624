/-
Whole-request guards that run before anything is written or sent.

`guardRequest` is the pre-pass over every message's detections: the spans
the policy will act on, their number against the budget of the whole
request, and the blocked types among them. `tokenizeMessages` is the loop
that follows it, one transform for each message.

Messages and detections are held apart and walked in step; a walk that
runs out of one before the other is an error.
-/
import PrivacyGateway.Pipeline.Stages
import PrivacyGateway.Tokenization.Tokenizer

namespace PrivacyGateway.Pipeline

open Effect Tokenization

/-- Selected spans per message, positionally aligned with the request. -/
abbrev Selections := List (List DetectedEntity)

/-- Reject a request carrying an oversized message. -/
def enforceMessageSizes (maxChars : Nat) :
    List ChatMessage → Except Exn Unit
  | [] => .ok ()
  | message :: messages =>
      if message.content.length > maxChars then
        .error (gatewayError .requestTooLarge (reason "message_too_long"))
      else enforceMessageSizes maxChars messages

/-- The entity ceiling for one request: the stricter of the two. -/
def entityBudget (policy : PolicySnapshot) (deploymentMaxEntities : Nat) :
    Nat :=
  min policy.maxEntities deploymentMaxEntities

/-- What a strict `zip` raises when one side runs out. -/
def zipError : Exn :=
  .value "zip() arguments have different lengths"

/-- The spans the policy will act on, per message. -/
def selectRequestEntities (policy : PolicySnapshot) :
    List ChatMessage → List (List DetectedEntity) → Except Exn Selections
  | [], [] => .ok []
  | message :: messages, entities :: detections =>
      match selectEntities message.content entities policy with
      | .error e => .error e
      | .ok selected =>
          match selectRequestEntities policy messages detections with
          | .error e => .error e
          | .ok selections => .ok (selected :: selections)
  | _, _ => .error zipError

/-- The request-wide entity count, refusing an over-budget request. -/
def enforceEntityBudget (selections : Selections) (budget : Nat) :
    Except Exn Nat :=
  let total := (selections.map List.length).sum
  if total > budget then
    .error (gatewayError .entityLimitExceeded
      (("entity_count", .int total) ::
        reason "request_entity_budget_exceeded"))
  else .ok total

/-- The walk over one message's spans. -/
def rejectBlockedIn (policy : PolicySnapshot) :
    List DetectedEntity → Except Exn Unit
  | [] => .ok ()
  | entity :: selected =>
      if policy.actionFor entity.entityType = .block then
        .error (gatewayError .policyViolation
          (("entity_type", .text entity.entityType) ::
            reason "policy_blocked_entity"))
      else rejectBlockedIn policy selected

/-- Refuse the request if any message holds a blocked entity type. -/
def rejectBlockedEntities (policy : PolicySnapshot) :
    Selections → Except Exn Unit
  | [] => .ok ()
  | selected :: selections =>
      match rejectBlockedIn policy selected with
      | .error e => .error e
      | .ok () => rejectBlockedEntities policy selections

/-- Enforce the budget and the block list across the whole request. -/
def guardRequest (messages : List ChatMessage)
    (detections : List (List DetectedEntity)) (policy : PolicySnapshot)
    (maxEntitiesPerRequest : Nat) : Except Exn Unit := do
  let selections ← selectRequestEntities policy messages detections
  let _ ← enforceEntityBudget selections
    (entityBudget policy maxEntitiesPerRequest)
  rejectBlockedEntities policy selections

-- ==================================================== tokenization

def tokenizationFailure : StageFailure := stageFailure .vaultUnavailable

section Tokenize

variable {σ : Type} (unicode : Unicode) (hashes : Hashes)
  (fingerprinter : Fingerprinter) (vault : VaultLike σ)
  (tenantId sessionId : UUID) (policy : PolicySnapshot)

/-- One message, protected. -/
def tokenizeMessage (message : ChatMessage)
    (entities : List DetectedEntity) : Eff σ Exn TransformedText :=
  runStage .tokenization tokenizationFailure
    (transform unicode hashes fingerprinter vault tenantId sessionId
      message.content entities policy)

/-- Protect every message under one session: the protected messages and
the counts. -/
def tokenizeMessages (summary : PrivacySummary) :
    List ChatMessage → List (List DetectedEntity) →
      Eff σ Exn (List ChatMessage × PrivacySummary)
  | [], [] => return ([], summary)
  | message :: messages, entities :: detections => do
      let transformed ← tokenizeMessage unicode hashes fingerprinter vault
        tenantId sessionId policy message entities
      let rest ← tokenizeMessages
        (summary.mergedWith transformed.summary) messages detections
      return (⟨message.role, transformed.text⟩ :: rest.1, rest.2)
  | _, _ => throw zipError

/-- The guards, then the loop. -/
def protectMessages (messages : List ChatMessage)
    (detections : List (List DetectedEntity))
    (maxEntitiesPerRequest : Nat) :
    Eff σ Exn (List ChatMessage × PrivacySummary) := do
  checked (guardRequest messages detections policy maxEntitiesPerRequest)
  tokenizeMessages unicode hashes fingerprinter vault tenantId sessionId
    policy {} messages detections

end Tokenize

end PrivacyGateway.Pipeline
