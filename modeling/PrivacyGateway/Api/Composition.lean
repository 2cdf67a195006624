/-
The composition root: the collaborators one process is built from, and the
services wired over them.

Both pipelines share the detector, the vault, the registry and the
correlation hasher. What is not part of this repository, or keeps state of
its own, is a parameter over a world of its own.
-/
import PrivacyGateway.Audit.Service
import PrivacyGateway.Config.Settings
import PrivacyGateway.Detection.Engine
import PrivacyGateway.Documents.Protection
import PrivacyGateway.Outbound.Gateway
import PrivacyGateway.Policy.Service
import PrivacyGateway.Restoration.Pipeline

namespace PrivacyGateway

open Effect Ledger

/-- What the services are built from. -/
structure Services (unicode : Unicode) (σ : Type) where
  settings : Settings
  hashes : Hashes
  clock : Clock
  /-- `datetime.now(UTC)`. -/
  utcNow : σ → Rat
  /-- `uuid4()`. -/
  uuid4 : σ → UUID × σ
  /-- The round trip to the policy table. -/
  policyTable : UUID → Eff σ Exn Unit
  /-- The analyzer, on a worker thread. -/
  analyze : (text language : Text) → Eff σ Exn (List Detection.Candidate)
  fingerprinter : Tokenization.Fingerprinter
  vault : Tokenization.VaultLike σ
  output : Restoration.OutputPipeline σ
  providers : Llm.ProviderRegistry σ
  hasher : Audit.CorrelationHasher
  /-- Open, decrypt, extract, and segment one document. -/
  segment : (tenantId userId documentId : UUID) →
    Eff σ Exn Documents.SegmentedDocument

/-- The only language detection supports. -/
def defaultLanguage : Text := "en".toList

namespace Services

variable {unicode : Unicode} {σ : Type} (services : Services unicode σ)

def detector : Detection.PresidioDetector unicode σ :=
  .default unicode services.analyze

/-- What the detector reports is of a supported type. -/
theorem detect_supported {text language : Text}
    {entities : List DetectedEntity} {l l' : Task σ}
    (h : runIn (await (services.detector.detect text language)) l =
      (.ok entities, l')) :
    ∀ e ∈ entities, e.entityType ∈ Detection.supportedEntityTypes := by
  obtain ⟨w, hw⟩ := await_ok h
  exact fun e he => Detection.PresidioDetector.detect_ok_type hw he

def policies : Policy.PolicyService σ where
  clock := services.clock
  roundTrip := services.policyTable

def outbound : Outbound.OutboundGateway unicode σ where
  detector := services.detector.detector
  providers := services.providers
  hasher := services.hasher
  hashes := services.hashes
  clock := services.clock

def audit : Audit.AuditService σ where
  failClosed := services.settings.auditFailClosed
  utcNow := services.utcNow

def auditAdapter : Audit.PipelineAuditAdapter σ where
  service := services.audit
  hasher := services.hasher
  hashes := services.hashes

/-- A fresh identifier. -/
def freshId : Eff (Task σ) Exn UUID :=
  onWorld (act fun w => (.ok (services.uuid4 w).1, (services.uuid4 w).2))

/-- Services over nothing: every collaborator answers at once. The detector
finds nothing, and one provider is registered. -/
def standalone (clock : Clock) (providerAlias : Text)
    (answer : Except Exn ProviderResponse)
    (segmented : Except Exn Documents.SegmentedDocument) :
    Services Unicode.ascii Unit where
  settings :=
    { appEnv := .test
      vaultActiveKeyId := []
      vaultKeys := []
      auditFailClosed := false
      maxMessageChars_bounded := Settings.maxMessageChars_default
      maxEntitiesPerRequest_bounded := Settings.maxEntitiesPerRequest_default
      maxDocumentEntities_bounded := Settings.maxDocumentEntities_default }
  hashes := .ofTables [] []
  clock := clock
  utcNow _ := 0
  uuid4 w := (⟨0⟩, w)
  policyTable _ := pure ()
  analyze _ _ := pure []
  fingerprinter := ⟨List.replicate 16 0, by decide⟩
  vault := ⟨fun _ _ _ _ => pure []⟩
  output := ⟨⟨fun _ _ _ => pure []⟩, Restoration.defaultMaxOutputChars,
    Restoration.defaultMaxOutputChars_pos⟩
  providers := ⟨[(providerAlias, ⟨providerAlias, fun _ => checked answer⟩)]⟩
  hasher := ⟨List.replicate 16 0, by decide⟩
  segment _ _ _ := checked segmented

end Services

end PrivacyGateway
