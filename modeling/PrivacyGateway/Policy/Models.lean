/-
The policy snapshot: the frozen form of a policy document that every
stage of a request reads.

A rule's score and the limits carry the bounds the document schema
enforces, so a snapshot cannot hold a threshold outside `[0, 1]`. An
entity type the policy does not mention is tokenized, from any score on.
-/
import PrivacyGateway.Domain

namespace PrivacyGateway

def maxSessionTtlSeconds : Nat := 86400

def maxPolicyEntityBudget : Nat := 10000

theorem hour_le_maxSessionTtl : 0 < 3600 ∧ 3600 ≤ maxSessionTtlSeconds := by
  decide

theorem hundred_le_maxEntityBudget :
    0 < 100 ∧ 100 ≤ maxPolicyEntityBudget := by
  decide

/-- The action for an entity type the active policy does not mention. -/
def unknownEntityAction : EntityAction := .tokenize

/-- The threshold for an entity type the active policy does not mention. -/
def unknownEntityMinScore : Rat := 0

/-- What the policy does with one entity type, and how sure it must be. The
last two fields are for the operator, and nothing enforces them. -/
@[ext]
structure EntityRule where
  action : EntityAction
  minScore : Rat
  enabled : Bool := true
  priority : Option Nat := none
  recognizer : Option Text := none
  minScore_bounded : 0 ≤ minScore ∧ minScore ≤ 1

instance : DecidableEq EntityRule := fun _ _ =>
  decidable_of_iff _ EntityRule.ext_iff.symm

/-- The validated form of a stored policy document. -/
structure PolicyDocument where
  name : Text
  sessionTtlSeconds : Nat
  maxEntities : Nat
  providers : Dict Text (List Text)
  entities : Dict Text EntityRule
  unknownOutputTokenAction : UnknownTokenAction := .preserve
  sessionTtl_bounded : 0 < sessionTtlSeconds ∧
    sessionTtlSeconds ≤ maxSessionTtlSeconds
  maxEntities_bounded : 0 < maxEntities ∧
    maxEntities ≤ maxPolicyEntityBudget
deriving DecidableEq

/-- One tenant's active policy, frozen at a version, for one request. -/
structure PolicySnapshot where
  policyId : UUID
  tenantId : UUID
  version : Int
  name : Text
  sessionTtlSeconds : Nat
  maxEntities : Nat
  unknownOutputTokenAction : UnknownTokenAction
  entities : Dict Text EntityRule
  providers : Dict Text (List Text)
deriving DecidableEq

namespace PolicySnapshot

/-- Build a snapshot from a validated document: disabled rules are
dropped here. -/
def fromDocument (document : PolicyDocument) (policyId tenantId : UUID)
    (version : Int) : PolicySnapshot where
  policyId := policyId
  tenantId := tenantId
  version := version
  name := document.name
  sessionTtlSeconds := document.sessionTtlSeconds
  maxEntities := document.maxEntities
  unknownOutputTokenAction := document.unknownOutputTokenAction
  entities := (document.entities.filter (fun e => e.2.enabled)).insertionSort
    (fun a b => a.1 ≤ b.1)
  providers := document.providers.insertionSort (fun a b => a.1 ≤ b.1)

def actionFor (policy : PolicySnapshot) (entityType : Text) : EntityAction :=
  match policy.entities.get? entityType with
  | some rule => rule.action
  | none => unknownEntityAction

def minScoreFor (policy : PolicySnapshot) (entityType : Text) : Rat :=
  match policy.entities.get? entityType with
  | some rule => rule.minScore
  | none => unknownEntityMinScore

def allowsProvider (policy : PolicySnapshot) (providerAlias : Text) : Bool :=
  (policy.providers.get? providerAlias).isSome

def allowsModel (policy : PolicySnapshot) (providerAlias modelAlias : Text) :
    Bool :=
  ((policy.providers.get? providerAlias).getD []).contains modelAlias

/-- Every threshold the policy answers with is a score. -/
theorem minScoreFor_bounded (policy : PolicySnapshot) (entityType : Text) :
    0 ≤ policy.minScoreFor entityType ∧
      policy.minScoreFor entityType ≤ 1 := by
  unfold minScoreFor
  cases policy.entities.get? entityType with
  | some rule => exact rule.minScore_bounded
  | none => exact ⟨le_refl 0, by decide⟩

end PolicySnapshot

end PrivacyGateway
