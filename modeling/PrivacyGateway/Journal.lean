/-
What a request is seen to do, and the state it runs in.

An `Event` is an act of a request that can be told from outside: a policy
version it acted under, a payload it attested, a provider it called, an
answer it restored, a record it constructed or handed over. A request
writes each in its journal as it happens.

Requests share the policies and the audit queue. `SharedOp` is what the
other tasks of the process do to both.
-/
import PrivacyGateway.Audit.Queue
import PrivacyGateway.Lib.Ledger
import PrivacyGateway.Outbound.Attestation
import PrivacyGateway.Policy.Cache

namespace PrivacyGateway

open Audit Outbound Policy

/-- One act of a request. -/
inductive Event
  /-- The destination was authorized under the version. -/
  | authorized (policyVersion : Int)
  /-- The spans and the actions of a document were decided under it. -/
  | decided (policyVersion : Int)
  /-- The outbound scan began under it. -/
  | scanned (policyVersion : Int)
  | attested (request : ProtectedChatRequest) (attestation : Attestation)
  | called (providerAlias : Text)
  /-- Restoration returned the text under it. -/
  | restored (policyVersion : Int) (text : Text)
  /-- A record is constructed from the fields. -/
  | built (fields : AuditFields)
  /-- The record is handed to the audit service. -/
  | submitted (record : AuditRecord)
deriving DecidableEq

/-- What the tasks of the process share. -/
structure Shared where
  policies : PolicyState := {}
  audit : QueueState := {}
deriving DecidableEq

/-- What another task does to it. -/
inductive SharedOp
  | policy (op : PolicyOp)
  | audit (state : QueueState)
deriving DecidableEq

def sharedStep (shared : Shared) : SharedOp → Shared
  | .policy op => { shared with policies := policyStep shared.policies op }
  | .audit state => { shared with audit := state }

/-- The state a request runs in. -/
abbrev Task (σ : Type) := Ledger Shared σ Event SharedOp

/-- Wait for a collaborator, while the other tasks go on. -/
def await {σ x α : Type} (work : Effect.Eff σ x α) :
    Effect.Eff (Task σ) x α :=
  Ledger.await sharedStep work

end PrivacyGateway
