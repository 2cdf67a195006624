/-
The bounded queue between a request and the audit table.

`accept` is what handing over one record does to it: the record is stamped
and queued, or it is refused. A refusal raises when the service fails
closed and drops the record when it does not. The queue never waits.
-/
import PrivacyGateway.Audit.Models

namespace PrivacyGateway.Audit

def defaultMaxQueueSize : Nat := 1000

def reasonQueueFull : Text := "queue_full".toList
def reasonDegraded : Text := "degraded".toList
def reasonShutdown : Text := "shutdown".toList

/-- The queue, and what the writer and the shutdown have said of it. -/
structure QueueState where
  queue : List AuditRecord := []
  maxQueueSize : Nat := defaultMaxQueueSize
  degraded : Bool := false
  stopped : Bool := false
deriving DecidableEq

def auditUnavailable (why : Text) : Exn :=
  gatewayError .auditUnavailable
    [("stage", .text "audit".toList), ("reason", .text why)]

/-- Reject or drop one record, by the configured failure mode. -/
def refuse (failClosed : Bool) (why : Text) : Except Exn Unit :=
  if failClosed then .error (auditUnavailable why) else .ok ()

/-- The record, with a time: its own, or the moment it is handed over. -/
def stamp (now : Rat) (record : AuditRecord) : Except Exn AuditRecord :=
  match record.fields.occurredAt with
  | some _ => .ok record
  | none =>
      AuditRecord.create
        { record.fields with occurredAt := some ⟨now, true⟩ }

/-- Enqueue one record. -/
def accept (failClosed : Bool) (stamped : AuditRecord)
    (state : QueueState) : Except Exn Unit × QueueState :=
  if state.stopped then (refuse failClosed reasonShutdown, state)
  else if state.maxQueueSize ≤ state.queue.length then
    (refuse failClosed reasonQueueFull, state)
  else
    (if state.degraded && failClosed then
        .error (auditUnavailable reasonDegraded)
      else .ok (),
      { state with queue := state.queue ++ [stamped] })

end PrivacyGateway.Audit
