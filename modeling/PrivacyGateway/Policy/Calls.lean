/-
Concurrent resolutions of the active policy.

A call reads the clock and the cache in one step. If the cache has nothing
it goes to the repository, which reads the tenant's active row at some
later moment, and resumes at some moment after that. `CallEvent` is what
may happen next: a call goes on or fails, time passes, the tenant's policy
changes, an entry is dropped.
-/
import Mathlib.Algebra.Order.Ring.Rat
import PrivacyGateway.Policy.Service

namespace PrivacyGateway.Policy

/-- A call: the tenant, and the provider and model to authorize if it is
`resolve`. -/
structure SnapshotRequest where
  tenantId : UUID
  destination : Option (Text × Text)
deriving DecidableEq

/-- A call, with the clock as it was when it started. -/
inductive SnapshotCall
  | ready (request : SnapshotRequest)
  | waiting (request : SnapshotRequest) (started : Rat)
  | answered (request : SnapshotRequest) (started : Rat)
      (stored : Option StoredPolicy)
  | done (request : SnapshotRequest) (started : Rat)
      (outcome : Except Exn PolicySnapshot)
deriving DecidableEq

def SnapshotCall.begun : SnapshotCall → Bool
  | .ready _ => false
  | _ => true

/-- What a call does with the snapshot. -/
def SnapshotRequest.finish (request : SnapshotRequest)
    (snapshot : PolicySnapshot) : Except Exn PolicySnapshot :=
  match request.destination with
  | none => .ok snapshot
  | some (provider, model) => do
      authorizeDestination request.tenantId snapshot provider model
      return snapshot

/-- The next step of a call. -/
def SnapshotCall.step (cacheTtlSeconds now : Rat) :
    SnapshotCall → PolicyState → SnapshotCall × PolicyState
  | .ready request, state =>
      match lookup now request.tenantId state with
      | some snapshot => (.done request now (request.finish snapshot), state)
      | none => (.waiting request now, state)
  | .waiting request started, state =>
      (.answered request started (state.active.get? request.tenantId), state)
  | .answered request started stored, state =>
      let result := remember request.tenantId (started + cacheTtlSeconds)
        stored state
      (.done request started (result.1.bind request.finish), result.2)
  | .done request started outcome, state =>
      (.done request started outcome, state)

/-- The repository raises, or the call is cancelled while it waits. -/
def SnapshotCall.fail (e : Exn) : SnapshotCall → SnapshotCall
  | .waiting request started => .done request started (.error e)
  | .answered request started _ => .done request started (.error e)
  | call => call

/-- Any number of calls, one cache, one clock. -/
structure CallSystem (ι : Type) where
  now : Rat
  policies : PolicyState
  calls : ι → SnapshotCall

/-- What may happen next. The clock does not go back. -/
inductive CallEvent (ι : Type)
  | passes (seconds : ℚ≥0)
  | runs (i : ι)
  | fails (i : ι) (e : Exn)
  | publishes (tenantId : UUID) (stored : StoredPolicy)
  | deactivates (tenantId : UUID)
  | invalidates (tenantId : UUID)
  | clears

namespace CallSystem

variable {ι : Type} [DecidableEq ι]

def step (cacheTtlSeconds : Rat) (system : CallSystem ι) :
    CallEvent ι → CallSystem ι
  | .passes seconds => { system with now := system.now + seconds }
  | .runs i =>
      let result := (system.calls i).step cacheTtlSeconds system.now
        system.policies
      { system with
        policies := result.2
        calls := Function.update system.calls i result.1 }
  | .fails i e =>
      { system with
        calls := Function.update system.calls i ((system.calls i).fail e) }
  | .publishes tenantId stored =>
      { system with
        policies := policyStep system.policies (.publish tenantId stored) }
  | .deactivates tenantId =>
      { system with
        policies := policyStep system.policies (.deactivate tenantId) }
  | .invalidates tenantId =>
      { system with
        policies := policyStep system.policies (.invalidate tenantId) }
  | .clears => { system with policies := policyStep system.policies .clear }

/-- Nothing is cached, and no call has started. -/
def start (now : Rat) (active : Dict UUID StoredPolicy)
    (requests : ι → SnapshotRequest) : CallSystem ι where
  now := now
  policies := { active := active }
  calls i := .ready (requests i)

end CallSystem

end PrivacyGateway.Policy
