/-
The read endpoints of policy management, and the resolution's adapter.

Every endpoint reads rows, in one statement or several, and shows documents
through the parse that resolution uses: a row whose document does not parse
is a refusal and not a partial view. A statement finds the table as it is
committed then, so an endpoint of several statements is given several
tables.
-/
import PrivacyGateway.Api.Playground
import PrivacyGateway.Policy.Cache
import PrivacyGateway.Policy.Diff

namespace PrivacyGateway.Policy

open PolicyRepository

-- ==================================================== response schemas

/-- One entity rule, flattened so the entity type travels with it. -/
structure EntityRuleView where
  entityType : Text
  enabled : Bool
  confidenceThreshold : Rat
  action : EntityAction
  priority : Option Nat
  recognizer : Option Text
deriving DecidableEq

/-- A single stored version. -/
structure PolicyVersionView where
  policyName : Text
  version : Int
  status : PolicyStatus
  isActive : Bool
  publishedAt : Option Rat
  name : Text
  sessionTtlSeconds : Nat
  maxEntities : Nat
  unknownOutputTokenAction : Text
  providers : Dict Text (List Text)
  entityRules : List EntityRuleView
  entityCount : Nat
  enabledEntityCount : Nat
deriving DecidableEq

structure PolicySummaryView where
  policyName : Text
  activeVersion : Option Int
  draftVersion : Option Int
  status : PolicyStatus
  lastPublishedAt : Option Rat
  versionCount : Nat
  entityCount : Nat
  enabledEntityCount : Nat
deriving DecidableEq

-- ==================================================== helpers

/-- `_rules_of`. -/
def rulesOf (document : PolicyDocument) : List EntityRuleView :=
  (document.entities.insertionSort (fun a b => a.1 ≤ b.1)).map fun entry =>
    { entityType := entry.1
      enabled := entry.2.enabled
      confidenceThreshold := entry.2.minScore
      action := entry.2.action
      priority := entry.2.priority
      recognizer := entry.2.recognizer }

def enabledCount (rules : List EntityRuleView) : Nat :=
  rules.countP EntityRuleView.enabled

section Endpoints

variable {δ : Type} (routes : PolicyRoutes δ) (tenantId : UUID)

/-- `validate_policy_document`, raising. -/
def parsed (document : δ) : Except Exn PolicyDocument :=
  match routes.validate document with
  | .error problems => .error (documentRefused problems)
  | .ok draft => .ok draft.document

/-- `_version_view`. -/
def versionView (row : PolicyRow δ) : Except Exn PolicyVersionView := do
  let document ← parsed routes row.document
  let rules := rulesOf document
  return {
    policyName := row.name
    version := row.version
    status := row.status
    isActive := row.isActive
    publishedAt := row.publishedAt
    name := document.name
    sessionTtlSeconds := document.sessionTtlSeconds
    maxEntities := document.maxEntities
    unknownOutputTokenAction := document.unknownOutputTokenAction.value
    providers := document.providers.map fun entry =>
      (entry.1, entry.2.insertionSort (· ≤ ·))
    entityRules := rules
    entityCount := rules.length
    enabledEntityCount := enabledCount rules }

/-- `max(…, default=None)`. -/
def latest : List Rat → Option Rat
  | [] => none
  | time :: times => some (times.foldl max time)

/-- `_summary_of`. The counts are the active version's. -/
def policySummary (name : Text) (versions : List (PolicyRow δ)) :
    Except Exn PolicySummaryView := do
  let published := versions.filter fun row => decide (row.status ≠ .draft)
  let draft := versions.find? fun row => decide (row.status = .draft)
  let active := versions.find? PolicyRow.isActive
  let rules ← match active with
    | none => pure []
    | some row => do
        let document ← parsed routes row.document
        pure (rulesOf document)
  return {
    policyName := name
    activeVersion := active.map PolicyRow.version
    draftVersion := draft.map PolicyRow.version
    status := if draft.isSome then .draft else .published
    lastPublishedAt := latest (published.filterMap PolicyRow.publishedAt)
    versionCount := published.length
    entityCount := rules.length
    enabledEntityCount := enabledCount rules }

-- ==================================================== read endpoints

/-- `SELECT DISTINCT name … ORDER BY name`, in the database's collation. -/
def listNames (collation : Text → Text → Bool) (table : PolicyTable δ) :
    List Text :=
  ((table.filter fun row => decide (row.tenantId = some tenantId)).map
    PolicyRow.name).dedup.insertionSort (fun a b => collation a b = true)

/-- List this tenant's policies. The names are one statement, and the
versions of each another. -/
def listPolicies (collation : Text → Text → Bool) (table : PolicyTable δ)
    (reads : Text → PolicyTable δ) : Except Exn (List PolicySummaryView) :=
  (listNames tenantId collation table).mapM fun name =>
    policySummary routes name (listVersions tenantId name (reads name))

/-- The active version of one policy. -/
def getPolicy (name : Text) (table : PolicyTable δ) :
    Except Exn PolicyVersionView :=
  match (listVersions tenantId name table).find? PolicyRow.isActive with
  | none => .error (policyNotFound name)
  | some active => versionView routes active

/-- Every version of one policy, oldest first. -/
def listPolicyVersions (name : Text) (table : PolicyTable δ) :
    Except Exn (List PolicyVersionView) :=
  match listVersions tenantId name table with
  | [] => .error (policyNotFound name)
  | row :: rows => (row :: rows).mapM (versionView routes)

/-- One stored version. -/
def getPolicyVersion (name : Text) (version : Int)
    (table : PolicyTable δ) : Except Exn PolicyVersionView := do
  let row ← loadVersion tenantId name (some version) table table
  versionView routes row

/-- Compare two stored versions, each loaded in a session of its own. -/
def diffPolicyVersions (name : Text) (fromVersion toVersion : Int)
    (first second : PolicyTable δ) : Except Exn PolicyDiff := do
  let beforeRow ← loadVersion tenantId name (some fromVersion) first first
  let afterRow ← loadVersion tenantId name (some toVersion) second second
  let before ← parsed routes beforeRow.document
  let after ← parsed routes afterRow.document
  return diffDocuments before after fromVersion toVersion

/-- Check the open draft without publishing it. -/
def validatePolicyDraft (name : Text) (table : PolicyTable δ) :
    Except Exn ValidationResult :=
  match getDraft tenantId name table with
  | none => .error (policyNotFound name)
  | some draft => .ok (validateDraft (routes.validate draft.document))

-- ==================================================== resolution

/-- What `PolicyRepositoryAdapter` makes of a row. -/
def storedPolicy (row : PolicyRow δ) (hversion : 0 < row.version) :
    StoredPolicy where
  policyId := row.id
  version := row.version
  document := (routes.validate row.document).map Draft.document
  version_positive := hversion

end Endpoints

end PrivacyGateway.Policy
