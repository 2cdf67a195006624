/-
Handing a record to the audit service, from either pipeline.

The chat pipeline goes through the adapter: a bag of fields and a raw
session id come in, the adapter digests the session id and constructs the
record. The document pipeline constructs its record itself. Either way the
journal holds what a record was constructed from before the constructor
looked at it.
-/
import PrivacyGateway.Journal

namespace PrivacyGateway.Audit

open Effect Ledger

/-- Accepts audit records on the request path. -/
structure AuditService (σ : Type) where
  failClosed : Bool := true
  /-- `datetime.now(UTC)`. -/
  utcNow : σ → Rat

variable {σ : Type} (service : AuditService σ)

/-- `accept`, on the shared state. -/
def acceptShared (stamped : AuditRecord) (shared : Shared) :
    Except Exn Unit × Shared :=
  ((accept service.failClosed stamped shared.audit).1,
    { shared with audit := (accept service.failClosed stamped shared.audit).2 })

/-- Look at the collaborators' world. -/
def utcNow : Eff (Task σ) Exn Rat :=
  onWorld (act fun w => (.ok (service.utcNow w), w))

/-- Hand over one record. -/
def submit (record : AuditRecord) : Eff (Task σ) Exn Unit := do
  note (Event.submitted record)
  let now ← utcNow service
  let stamped ← checked (stamp now record)
  alter (acceptShared service stamped)

/-- Construct a record and hand it over. -/
def submitFields (fields : AuditFields) : Eff (Task σ) Exn Unit := do
  note (Event.built fields)
  let record ← checked (AuditRecord.create fields)
  submit service record

/-- The pipeline's side of the audit service: a bag of fields and the raw
session id. -/
structure PipelineAuditAdapter (σ : Type) where
  service : AuditService σ
  hasher : CorrelationHasher
  hashes : Hashes

/-- Translate the field bag into a validated record. -/
def PipelineAuditAdapter.record (adapter : PipelineAuditAdapter σ)
    (payload : AuditFields) (sessionId : UUID) :
    Eff (Task σ) Exn Unit := do
  let digest ← checked (adapter.hasher.sessionDigest adapter.hashes
    payload.tenantId sessionId)
  submitFields adapter.service
    { payload with sessionIdHash := some digest.text }

end PrivacyGateway.Audit
