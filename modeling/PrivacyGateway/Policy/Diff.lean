/-
What changed between two versions of a policy, for reading.

Every value is written out first, and it is the texts that are compared.
`diffDocuments` goes over the entity types of both documents and then over
the settings; the providers are one text together.
-/
import PrivacyGateway.Lib.Significant
import PrivacyGateway.Outbound.Attestation
import PrivacyGateway.Policy.Models

namespace PrivacyGateway

open Significant

def EntityAction.value : EntityAction → Text
  | .allow => "allow".toList
  | .tokenize => "tokenize".toList
  | .redact => "redact".toList
  | .pseudonymize => "pseudonymize".toList
  | .block => "block".toList

def UnknownTokenAction.value : UnknownTokenAction → Text
  | .preserve => "preserve".toList
  | .redact => "redact".toList
  | .fail => "fail".toList

namespace Policy

inductive ChangeKind
  | added
  | removed
  | changed
deriving DecidableEq

/-- One value that differs between two versions, rendered as text. -/
structure FieldChange where
  path : Text
  before : Option Text
  after : Option Text
  kind : ChangeKind
deriving DecidableEq

structure PolicyDiff where
  fromVersion : Int
  toVersion : Int
  entityChanges : List FieldChange
  settingChanges : List FieldChange
deriving DecidableEq

def PolicyDiff.total (diff : PolicyDiff) : Nat :=
  diff.entityChanges.length + diff.settingChanges.length

-- ==================================================== entity rules

/-- What stands for a value that is not there. -/
def absent : Text := ['—']

/-- `str(rule.enabled).lower()`. -/
def enabledText (enabled : Bool) : Text :=
  if enabled then "true".toList else "false".toList

def priorityText : Option Nat → Text
  | none => absent
  | some priority => decimal priority

/-- `rule.recognizer or "—"`. -/
def recognizerText : Option Text → Text
  | none => absent
  | some recognizer => if recognizer = [] then absent else recognizer

def ruleFields (rule : EntityRule) : List (Text × Text) :=
  [("action".toList, rule.action.value),
    ("min_score".toList, formatG rule.minScore),
    ("enabled".toList, enabledText rule.enabled),
    ("priority".toList, priorityText rule.priority),
    ("recognizer".toList, recognizerText rule.recognizer)]

/-- A rule that only one version has. -/
def ruleText (rule : EntityRule) : Text :=
  rule.action.value ++ " @ ".toList ++ formatG rule.minScore

/-- The fields of a rule whose texts differ. -/
def changedFields (name : Text) (old new : EntityRule) :
    List FieldChange :=
  ((ruleFields old).zip (ruleFields new)).filterMap (fun fields =>
    if fields.1.2 = fields.2.2 then none
    else
      some
        { path := name ++ '.' :: fields.1.1
          before := some fields.1.2
          after := some fields.2.2
          kind := .changed })

/-- One turn of the loop over the entity types. -/
def entityChange (name : Text) :
    Option EntityRule → Option EntityRule → List FieldChange
  | none, none => []
  | none, some new => [⟨name, none, some (ruleText new), .added⟩]
  | some old, none => [⟨name, some (ruleText old), none, .removed⟩]
  | some old, some new => changedFields name old new

/-- The entity types of either document, sorted. -/
def entityNames (before after : PolicyDocument) : List Text :=
  (before.entities.keys ++ after.entities.keys).dedup.insertionSort
    (· ≤ ·)

-- ==================================================== settings

def providerText (entry : Text × List Text) : Text :=
  entry.1 ++ ": ".toList ++
    ", ".toList.intercalate (entry.2.insertionSort (· ≤ ·))

/-- `_providers_text`. -/
def providersText (document : PolicyDocument) : Text :=
  "; ".toList.intercalate
    ((document.providers.insertionSort (fun a b => a.1 ≤ b.1)).map
      providerText)

/-- The settings, as they are compared. -/
def settingFields (document : PolicyDocument) : List (Text × Text) :=
  [("session_ttl_seconds".toList, decimal document.sessionTtlSeconds),
    ("max_entities".toList, decimal document.maxEntities),
    ("unknown_output_token_action".toList,
      document.unknownOutputTokenAction.value),
    ("providers".toList, providersText document)]

/-- Compare two validated documents. -/
def diffDocuments (before after : PolicyDocument)
    (fromVersion toVersion : Int) : PolicyDiff where
  fromVersion := fromVersion
  toVersion := toVersion
  entityChanges := (entityNames before after).flatMap (fun name =>
    entityChange name (before.entities.get? name)
      (after.entities.get? name))
  settingChanges :=
    ((settingFields before).zip (settingFields after)).filterMap
      (fun fields =>
        if fields.1.2 = fields.2.2 then none
        else some ⟨fields.1.1, some fields.1.2, some fields.2.2, .changed⟩)

-- ==================================================== valid documents

def maxEntityTypeChars : Nat := 64
def maxProviderAliasChars : Nat := 64
def maxModelAliasChars : Nat := 128
def maxPolicyNameChars : Nat := 64
def maxRecognizerChars : Nat := 64
def maxPriority : Nat := 1000

/-- What the schema holds a document to, beyond the bounds its fields
carry. -/
structure Valid (document : PolicyDocument) : Prop where
  name : 1 ≤ document.name.length ∧
    document.name.length ≤ maxPolicyNameChars
  providers_nonempty : document.providers ≠ []
  entities_nonempty : document.entities ≠ []
  providers_distinct : document.providers.keys.Nodup
  entities_distinct : document.entities.keys.Nodup
  alias_length : ∀ name ∈ document.providers.keys,
    1 ≤ name.length ∧ name.length ≤ maxProviderAliasChars
  models_nonempty : ∀ e ∈ document.providers, e.2 ≠ []
  model_length : ∀ e ∈ document.providers, ∀ model ∈ e.2,
    1 ≤ model.length ∧ model.length ≤ maxModelAliasChars
  type_length : ∀ name ∈ document.entities.keys,
    1 ≤ name.length ∧ name.length ≤ maxEntityTypeChars
  priority_le : ∀ e ∈ document.entities, ∀ priority ∈ e.2.priority,
    priority ≤ maxPriority
  recognizer_length : ∀ e ∈ document.entities,
    ∀ recognizer ∈ e.2.recognizer, recognizer.length ≤ maxRecognizerChars

/-- A document that the schema accepts. -/
abbrev ValidDocument := { document : PolicyDocument // Valid document }

end Policy

end PrivacyGateway
