/-
What a policy would do with a text: the playground's test, and
`POST /v1/detect`.

Both ask the detector and stop there. Every detection is reported, with
the action the policy intends for it: below its type's threshold the
policy leaves a span alone, and then the action is `allow`.

The playground names a version of a policy, `loadVersion` finds its row,
and a row's document is read as the snapshot it would be. The answer of
`/v1/detect` carries the matched text only where diagnostics are allowed.
-/
import PrivacyGateway.Detection.Postprocess
import PrivacyGateway.Policy.Transactions

namespace PrivacyGateway

open Policy Splice

/-- What the policy means to do with a detection. -/
def intendedAction (policy : PolicySnapshot) (entity : DetectedEntity) :
    EntityAction :=
  if policy.minScoreFor entity.entityType ≤ entity.score then
    policy.actionFor entity.entityType
  else .allow

/-- `dict(Counter(names))`. -/
def counter (names : List Text) : Dict Text Nat :=
  names.foldl (fun counts name =>
    counts.set name ((counts.get? name).getD 0 + 1)) []

-- ==================================================== the playground

structure PolicyTestRequest where
  text : Text
  policyName : Text
  /-- Omitted, the open draft is tested, or the live version. -/
  version : Option Int := none

/-- One detection, without the matched text. -/
structure PolicyTestSpan where
  entityType : Text
  start : Nat
  stop : Nat
  confidence : Rat
  action : EntityAction
  recognizer : Option Text
deriving DecidableEq

structure PolicyTestResult where
  policyName : Text
  version : Int
  policyStatus : PolicyStatus
  spans : List PolicyTestSpan
  detected : Nat
  entityTypes : Dict Text Nat
  wouldBlock : Bool
deriving DecidableEq

section Playground

variable {δ : Type}

/-- A named version, or the working version: the open draft if there is
one, else the active version, which a second statement looks for. -/
def loadVersion (tenantId : UUID) (name : Text) (version : Option Int)
    (first second : PolicyTable δ) : Except Exn (PolicyRow δ) :=
  let row := match version with
    | some version =>
        PolicyRepository.getVersion tenantId name version first
    | none =>
        match PolicyRepository.getDraft tenantId name first with
        | some draft => some draft
        | none =>
            (PolicyRepository.listVersions tenantId name second).find?
              PolicyRow.isActive
  match row with
  | none => .error (policyNotFound name)
  | some row => .ok row

/-- The snapshot a version would be, if its document still parses. -/
def snapshotOf (routes : PolicyRoutes δ) (tenantId : UUID)
    (row : PolicyRow δ) : Except Exn PolicySnapshot :=
  match routes.validate row.document with
  | .error problems => .error (documentRefused problems)
  | .ok draft =>
      .ok (.fromDocument draft.document row.id tenantId row.version)

def testSpan (policy : PolicySnapshot) (entity : DetectedEntity) :
    PolicyTestSpan where
  entityType := entity.entityType
  start := entity.start
  stop := entity.stop
  confidence := entity.score
  action := intendedAction policy entity
  recognizer := none

/-- Detect against a chosen version and report intended actions. -/
def testPolicy (unicode : Unicode) (config : Detection.DetectionConfig)
    (routes : PolicyRoutes δ) (tenantId : UUID)
    (first second : PolicyTable δ) (payload : PolicyTestRequest)
    (candidates : List Detection.Candidate) :
    Except Exn PolicyTestResult := do
  let row ← loadVersion tenantId payload.policyName payload.version first
    second
  let snapshot ← snapshotOf routes tenantId row
  let entities ← Detection.finalize unicode config candidates payload.text
  let spans := entities.map (testSpan snapshot)
  return {
    policyName := payload.policyName
    version := row.version
    policyStatus := row.status
    spans := spans
    detected := spans.length
    entityTypes := counter (spans.map PolicyTestSpan.entityType)
    wouldBlock := spans.any (fun span => span.action == .block) }

end Playground

-- ==================================================== the dry run

structure DetectRequest where
  text : Text
  entityTypes : Option (List Text) := none

/-- The types a request narrows its answer to. A list of none does not
narrow it. -/
def DetectRequest.requestedEntities (payload : DetectRequest) :
    Option (List Text) :=
  match payload.entityTypes with
  | none => none
  | some [] => none
  | some types => some types

/-- Public projection of a detection. -/
@[ext]
structure DetectedEntityView where
  entityType : Text
  start : Nat
  stop : Nat
  score : Rat
  action : EntityAction
  text : Option Text := none
  span_forward : start < stop

instance : DecidableEq DetectedEntityView := fun _ _ =>
  decidable_of_iff _ DetectedEntityView.ext_iff.symm

structure DetectResponse where
  requestId : UUID
  entities : List DetectedEntityView
  summary : PrivacySummary
deriving DecidableEq

/-- Project one detection, with the matched value only when permitted. -/
def viewOf (policy : PolicySnapshot) (text : Text) (includeText : Bool)
    (entity : DetectedEntity) : DetectedEntityView where
  entityType := entity.entityType
  start := entity.start
  stop := entity.stop
  score := entity.score
  action := intendedAction policy entity
  text :=
    if includeText then some (slice text entity.start entity.stop)
    else none
  span_forward := entity.span_forward

/-- Count what was found, by type. The counters of performed actions stay
zero. -/
def summaryOf (views : List DetectedEntityView) : PrivacySummary where
  detected := views.length
  entityTypes := counter (views.map DetectedEntityView.entityType)

/-- Detect sensitive spans and report the policy action for each. -/
def detect (unicode : Unicode) (config : Detection.DetectionConfig)
    (snapshot : PolicySnapshot) (requestId : UUID)
    (diagnosticsAllowed : Bool) (payload : DetectRequest)
    (candidates : List Detection.Candidate) :
    Except Exn DetectResponse := do
  let entities ← Detection.finalize unicode config candidates payload.text
    payload.requestedEntities
  let views := entities.map
    (viewOf snapshot payload.text diagnosticsAllowed)
  return {
    requestId := requestId
    entities := views
    summary := summaryOf views }

end PrivacyGateway
